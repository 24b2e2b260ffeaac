/-
  Cluster/FenceCompleteness.lean --- what a fence leaves active.

  A fenced host refuses every claim that has not gone out yet, and deactivates
  the active slots of the types it held claims of when the flag was set, one type
  after the other.  An activation that passed the flag before it was set is
  caught only if it is active by the time its type is scanned: if its claim was
  not recorded when the types were collected, or it is still activating when its
  type's turn comes, it becomes active on a fenced host and stays so.

  `fenceComplete_of_caught`: with no activation completing behind the scan, a
  host whose fence is over holds no active slot.
-/
import SigxActors.Cluster.Claims

set_option autoImplicit false

namespace SigxActors.Cluster

open SigxActors.Js SigxActors.Host

/-- The actor a slot is for. -/
def slotRef : Slot Reservation ActorRef → ActorRef
  | .activating r => r.ref
  | .active ref | .deactivating ref => ref

/-- The types a running fence has yet to scan. -/
def Fence.typesLeft : Fence → List String
  | .scanning types _ => types
  | .member | .checking | .done => []

variable {stage : Stage} {ref : ActorRef}

namespace HostState

/-- What every slot of a host carries: its actor's id, a registered type, and a
recorded claim where the slot holds one. -/
structure SlotsSound (registered : List ActorType) (hs : HostState) : Prop where
  named : ∀ id slot, hs.slots.get id = some slot →
    id = actorId (slotRef slot) ∧ (slotRef slot).type ∈ registered.map (·.name)
  recorded : ∀ id, hs.Holds id → (hs.claimed.get id).isSome = true

/-- Every active slot of a fenced host is of a type still to be scanned. -/
def FenceCovers (hs : HostState) : Prop :=
  hs.fence.isFenced = true → ∀ id ref, hs.slots.get id = some (.active ref) →
    ref.type ∈ hs.fence.typesLeft

variable {hs : HostState} {registered : List ActorType}

theorem FenceCovers.mono {hs' : HostState} (hcov : hs.FenceCovers)
    (hfenced : hs'.fence.isFenced = hs.fence.isFenced)
    (htypes : hs'.fence.typesLeft = hs.fence.typesLeft)
    (hactive : ∀ id ref, hs'.slots.get id = some (.active ref) →
      hs.slots.get id = some (.active ref)) : hs'.FenceCovers := by
  intro hf id ref hslot
  rw [htypes]
  exact hcov (hfenced ▸ hf) id ref (hactive id ref hslot)

theorem SlotsSound.of_slot {hs' : HostState} (hsound : hs.SlotsSound registered) (id : String)
    (hother : ∀ j, j ≠ id → hs'.slots.get j = hs.slots.get j)
    (hclaimed : ∀ j, j ≠ id → hs'.claimed.get j = hs.claimed.get j)
    (hnamed : ∀ slot, hs'.slots.get id = some slot →
      id = actorId (slotRef slot) ∧ (slotRef slot).type ∈ registered.map (·.name))
    (hrecorded : hs'.Holds id → (hs'.claimed.get id).isSome = true) :
    hs'.SlotsSound registered := by
  constructor
  · intro j slot hslot
    by_cases hj : j = id
    · subst hj
      exact hnamed slot hslot
    · exact hsound.named j slot (hother j hj ▸ hslot)
  · intro j hh
    by_cases hj : j = id
    · subst hj
      exact hrecorded hh
    · rw [hclaimed j hj]
      exact hsound.recorded j ((holds_congr (hother j hj)).mp hh)

/-- Moving an attempt on, short of creation, keeps the slots sound. -/
theorem SlotsSound.setStage (hsound : hs.SlotsSound registered) (id : String)
    (hne : stage ≠ .creating) : (hs.setStage id stage).SlotsSound registered := by
  refine hsound.of_slot id (fun j => setStage_get_of_ne) (fun _ _ => by simp) ?_ ?_
  · intro slot hslot
    rw [setStage_slots_get] at hslot
    split at hslot
    · rename_i r hr
      simp only [if_true, Option.some.injEq] at hslot
      subst hslot
      have hname := hsound.named id _ hr
      exact hname
    · exact hsound.named id slot hslot
  · intro hh
    rw [setStage_claimed]
    refine hsound.recorded id ?_
    unfold Holds at hh ⊢
    rw [setStage_slots_get] at hh
    cases hslot : hs.slots.get id with
    | none => simp [hslot] at hh
    | some slot =>
      cases slot with
      | activating r => simp [hslot, hne] at hh
      | active | deactivating => trivial

theorem active_setStage {id j : String}
    (h : (hs.setStage id stage).slots.get j = some (.active ref)) :
    hs.slots.get j = some (.active ref) := by
  rw [setStage_slots_get] at h
  split at h
  · cases h
  · exact h

theorem FenceCovers.setStage (hcov : hs.FenceCovers) (id : String) (stage : Stage) :
    (hs.setStage id stage).FenceCovers :=
  hcov.mono (by simp) (by simp) (fun _ _ => active_setStage)

/-- The types `#fence` collects cover every active slot: an active slot has a
recorded claim, and the claim's id carries the type. -/
theorem SlotsSound.type_mem_claimedTypes (hsound : hs.SlotsSound registered) {id : String}
    (hactive : hs.slots.get id = some (.active ref)) :
    ref.type ∈ hs.claimedTypes := by
  obtain ⟨hid, htype⟩ := hsound.named id _ hactive
  have hkey : id ∈ hs.claimed.keys := by
    rw [JsMap.mem_keys_iff]
    exact hsound.recorded id (by unfold Holds; rw [hactive]; trivial)
  obtain ⟨type, -, hname⟩ := List.mem_map.mp htype
  have hslice : typeOfId id = some ref.type := by
    rw [hid]
    have h := typeOfId_actorId type ref.key
    rw [hname] at h
    exact h
  unfold claimedTypes
  rw [List.mem_eraseDups]
  exact List.mem_filterMap.mpr ⟨id, hkey, hslice⟩

end HostState

/-! ## The guard -/

/-- An activation completes on a fenced host only while the fence has yet to scan
its type. -/
def CaughtByFence (s : ClaimState) : ClaimLabel → Prop
  | .created h id =>
      (s.hosts h).fence.isFenced = true →
        (s.slotAt h id).all (fun slot =>
          (slotRef slot).type ∈ (s.hosts h).fence.typesLeft) = true
  | _ => True

instance (s : ClaimState) (l : ClaimLabel) : Decidable (CaughtByFence s l) :=
  match l with
  | .created h id =>
      inferInstanceAs (Decidable ((s.hosts h).fence.isFenced = true →
        (s.slotAt h id).all (fun slot =>
          (slotRef slot).type ∈ (s.hosts h).fence.typesLeft) = true))
  | .activate _ _ | .execClaim _ _ | .claimReply _ _ | .execEvict _ _ | .evictReply _ _
  | .directoryFails _ _ | .createFails _ _ | .dropFailed _ _ | .deactivate _ _ | .drained _ _
  | .execRelease _ | .loseRelease _ | .issueEvict _ | .execEviction _ | .evictHost _
  | .selfSuspect _ | .fenceDecide _ | .fenceScan _ | .fenceEnd _ => isTrue trivial

namespace ClaimState

/-- Every host's slots are sound and covered by its fence. -/
def Covered (cfg : ClusterConfig) (s : ClaimState) : Prop :=
  ∀ k, (s.hosts k).SlotsSound (cfg.registered k) ∧ (s.hosts k).FenceCovers

variable {cfg : ClusterConfig} {s t : ClaimState} {h id : String}

section

variable (hcov : s.Covered cfg)
include hcov

theorem Covered.onHost {f : HostState → HostState}
    (hf : (f (s.hosts h)).SlotsSound (cfg.registered h) ∧ (f (s.hosts h)).FenceCovers) :
    (s.onHost h f).Covered cfg := by
  intro k
  rw [onHost_hosts]
  by_cases hk : k = h
  · rw [if_pos hk, hk]
    exact hf
  · rw [if_neg hk]
    exact hcov k

theorem Covered.setStage (h id : String) (hne : stage ≠ .creating) :
    (s.onHost h (·.setStage id stage)).Covered cfg :=
  hcov.onHost ⟨(hcov h).1.setStage id hne, (hcov h).2.setStage id stage⟩

theorem Covered.reserve
    (htype : ref.type ∈ (cfg.registered h).map (·.name)) (hne : stage ≠ .creating)
    (seq : HostState → Nat) :
    (s.onHost h fun hs => { hs.reserve ref stage with seq := seq hs }).Covered cfg := by
  refine hcov.onHost ⟨(hcov h).1.of_slot (actorId ref)
    (fun j hj => by simp [HostState.reserve, JsMap.get_set, hj]) (fun _ _ => rfl) ?_ ?_,
    (hcov h).2.mono rfl rfl ?_⟩
  · intro slot hslot
    simp only [HostState.reserve, JsMap.get_set_self, Option.some.injEq] at hslot
    subst hslot
    exact ⟨rfl, htype⟩
  · intro hh
    simp [HostState.Holds, HostState.reserve, hne] at hh
  · intro id ref' hslot
    simp only [HostState.reserve, JsMap.get_set] at hslot
    split at hslot
    · cases hslot
    · exact hslot

theorem Covered.claimReply (hstep : s.claimReply h id = some t) : t.Covered cfg := by
  unfold ClaimState.claimReply at hstep
  split at hstep
  · split at hstep
    · split at hstep <;> cases hstep
      · exact hcov.setStage h id (by simp)
      · exact hcov.setStage h id (by simp)
    · cases hstep
      refine hcov.onHost ⟨(hcov h).1.of_slot id (fun j => HostState.setStage_get_of_ne)
        (fun j hj => by simp [JsMap.get_set, hj]) ?_ ?_, (hcov h).2.mono ?_ ?_ ?_⟩
      · intro slot hslot
        simp only [HostState.setStage_slots_get] at hslot
        split at hslot
        · rename_i r hr
          simp only [if_true, Option.some.injEq] at hslot
          subst hslot
          have hname := (hcov h).1.named id _ hr
          exact hname
        · exact (hcov h).1.named id slot hslot
      · simp
      · simp
      · simp
      · intro j ref hslot
        exact HostState.active_setStage hslot
  · cases hstep

theorem Covered.created (hok : CaughtByFence s (.created h id)) (hstep : s.created h id = some t) :
    t.Covered cfg := by
  unfold ClaimState.created at hstep
  split at hstep <;> cases hstep
  rename_i ref hslot
  have hname := (hcov h).1.named id _ hslot
  refine hcov.onHost ⟨(hcov h).1.of_slot id (fun j hj => by simp [JsMap.get_set, hj])
    (fun _ _ => rfl) ?_ ?_, ?_⟩
  · intro slot hs
    simp only [JsMap.get_set_self, Option.some.injEq] at hs
    subst hs
    exact hname
  · intro _
    refine (hcov h).1.recorded id ?_
    unfold HostState.Holds
    rw [show (s.hosts h).slots.get id = _ from hslot]
  · intro hfenced j ref' hs
    by_cases hj : j = id
    · simp only [hj, JsMap.get_set_self, Option.some.injEq, Slot.active.injEq] at hs
      subst hs
      have hleft := hok hfenced
      rw [hslot] at hleft
      exact of_decide_eq_true hleft
    · simp only [JsMap.get_set, if_neg hj] at hs
      exact (hcov h).2 hfenced j ref' hs

theorem Covered.deactivate (hstep : s.deactivate h id = some t) : t.Covered cfg := by
  unfold ClaimState.deactivate Slots.beginDeactivation at hstep
  split at hstep <;> cases hstep
  rename_i ref slots hbegin
  split at hbegin <;> cases hbegin
  rename_i hslot
  refine hcov.onHost ⟨(hcov h).1.of_slot id (fun j hj => by simp [JsMap.get_set, hj])
    (fun _ _ => rfl) ?_ ?_, (hcov h).2.mono rfl rfl ?_⟩
  · intro slot hs
    simp only [JsMap.get_set_self, Option.some.injEq] at hs
    subst hs
    have hname := (hcov h).1.named id _ hslot
    exact hname
  · intro _
    refine (hcov h).1.recorded id ?_
    unfold HostState.Holds
    rw [hslot]
    trivial
  · intro j ref' hs
    simp only [JsMap.get_set] at hs
    split at hs
    · cases hs
    · exact hs

/-- Deleting a slot leaves nothing to show for its id. -/
theorem Covered.erase {f : HostState → HostState}
    (hslots : (f (s.hosts h)).slots = (s.hosts h).slots.erase id)
    (hclaimed : ∀ j, j ≠ id → (f (s.hosts h)).claimed.get j = (s.hosts h).claimed.get j)
    (hfenced : (f (s.hosts h)).fence.isFenced = (s.hosts h).fence.isFenced)
    (htypes : (f (s.hosts h)).fence.typesLeft = (s.hosts h).fence.typesLeft) :
    (s.onHost h f).Covered cfg := by
  refine hcov.onHost ⟨(hcov h).1.of_slot id
    (fun j hj => by simp [hslots, JsMap.get_erase, hj]) hclaimed ?_ ?_,
    (hcov h).2.mono hfenced htypes ?_⟩
  · intro slot hs
    simp [hslots] at hs
  · intro hh
    simp [HostState.Holds, hslots] at hh
  · intro j ref hs
    simp only [hslots, JsMap.get_erase] at hs
    split at hs
    · cases hs
    · exact hs

theorem Covered.fenceScan (hstep : s.fenceScan h = some t) : t.Covered cfg := by
  unfold ClaimState.fenceScan at hstep
  split at hstep <;> cases hstep
  rename_i type types hfence
  refine hcov.onHost ⟨⟨?_, ?_⟩, ?_⟩
  · intro id slot hs
    simp only [Slots.get_deactivateType] at hs
    split at hs
    · rename_i ref hr
      have hname := (hcov h).1.named id _ hr
      simp only [Option.some.injEq] at hs
      subst hs
      split <;> exact hname
    · exact (hcov h).1.named id slot hs
  · intro id hh
    refine (hcov h).1.recorded id ?_
    unfold HostState.Holds at hh ⊢
    simp only [Slots.get_deactivateType] at hh
    cases hslot : (s.hosts h).slots.get id with
    | none => simp [hslot] at hh
    | some slot =>
      cases slot with
      | activating r => simpa [hslot] using hh
      | active | deactivating => trivial
  · -- What is still active was covered, and is not of the type just scanned.
    intro _ id ref hs
    obtain ⟨hold, hother⟩ := Slots.active_of_deactivateType hs
    have hleft := (hcov h).2 (by rw [hfence]; rfl) id ref hold
    rw [hfence] at hleft
    rcases List.mem_cons.mp hleft with heq | hleft
    · simp [heq] at hother
    · exact hleft

theorem Covered.fenceDecide (hstep : s.fenceDecide cfg h = some t) : t.Covered cfg := by
  unfold ClaimState.fenceDecide at hstep
  split at hstep
  · split at hstep <;> cases hstep
    · exact hcov.onHost ⟨⟨(hcov h).1.named, (hcov h).1.recorded⟩,
        fun hf => by simp [Fence.isFenced] at hf⟩
    · exact hcov.onHost ⟨⟨(hcov h).1.named, (hcov h).1.recorded⟩,
        fun _ id ref hs => (hcov h).1.type_mem_claimedTypes hs⟩
  · cases hstep

theorem Covered.step {l : ClaimLabel} (hok : CaughtByFence s l) (hstep : s.step cfg l = some t) :
    t.Covered cfg := by
  cases l with
  | activate h ref =>
    obtain ⟨-, htype, ⟨-, rfl⟩ | ⟨-, mine, -, rfl⟩⟩ := activate_cases hstep
    · exact hcov.reserve htype (by simp) (fun hs => hs.seq)
    · exact hcov.reserve htype (by simp) (fun hs => hs.seq + 1)
  | execClaim h id =>
    simp only [ClaimState.step, ClaimState.execClaim] at hstep
    split at hstep <;> cases hstep
    exact hcov.setStage h id (by simp)
  | claimReply h id => exact hcov.claimReply hstep
  | execEvict h id =>
    simp only [ClaimState.step, ClaimState.execEvict] at hstep
    split at hstep <;> cases hstep
    exact hcov.setStage h id (by simp)
  | evictReply h id =>
    simp only [ClaimState.step, ClaimState.evictReply] at hstep
    split at hstep <;> cases hstep
    exact hcov.setStage h id (by simp)
  | directoryFails h id =>
    simp only [ClaimState.step, ClaimState.directoryFails] at hstep
    split at hstep <;> cases hstep <;> exact hcov.setStage h id (by simp)
  | created h id => exact hcov.created hok hstep
  | createFails h id =>
    simp only [ClaimState.step, ClaimState.createFails] at hstep
    split at hstep <;> cases hstep
    exact hcov.setStage h id (by simp)
  | dropFailed h id =>
    simp only [ClaimState.step, ClaimState.dropFailed] at hstep
    split at hstep <;> cases hstep
    exact hcov.erase rfl (fun _ _ => rfl) rfl rfl
  | deactivate h id => exact hcov.deactivate hstep
  | drained h id =>
    have hdrop : (s.onHost h (·.drop id)).Covered cfg := by
      refine hcov.erase rfl (fun j hj => by simp [HostState.drop, JsMap.get_erase, hj]) ?_ ?_
      all_goals
        unfold HostState.drop
        cases (s.hosts h).fence <;> rfl
    simp only [ClaimState.step, ClaimState.drained] at hstep
    split at hstep
    · split at hstep <;> cases hstep
      · exact hdrop
      · exact hdrop
    · cases hstep
  | execRelease n =>
    simp only [ClaimState.step, ClaimState.execRelease] at hstep
    split at hstep <;> cases hstep
    exact hcov
  | loseRelease n =>
    simp only [ClaimState.step, ClaimState.loseRelease] at hstep
    split at hstep <;> cases hstep
    exact hcov
  | issueEvict id =>
    simp only [ClaimState.step, ClaimState.issueEvict] at hstep
    split at hstep <;> cases hstep
    exact hcov
  | execEviction n =>
    simp only [ClaimState.step, ClaimState.execEviction] at hstep
    split at hstep <;> cases hstep
    exact hcov
  | evictHost hostId =>
    cases hstep
    exact hcov
  | selfSuspect h =>
    simp only [ClaimState.step, ClaimState.selfSuspect] at hstep
    split at hstep <;> cases hstep
    exact hcov.onHost ⟨⟨(hcov h).1.named, (hcov h).1.recorded⟩,
      fun hf => by simp [Fence.isFenced] at hf⟩
  | fenceDecide h => exact hcov.fenceDecide hstep
  | fenceScan h => exact hcov.fenceScan hstep
  | fenceEnd h =>
    simp only [ClaimState.step, ClaimState.fenceEnd] at hstep
    split at hstep <;> cases hstep
    rename_i hfence
    refine hcov.onHost ⟨⟨(hcov h).1.named, (hcov h).1.recorded⟩, fun _ id ref hs => ?_⟩
    have hleft := (hcov h).2 (by rw [hfence]; rfl) id ref hs
    rw [hfence] at hleft
    exact hleft

end

theorem covered_initial (cfg : ClusterConfig) : Covered cfg .initial := by
  intro k
  refine ⟨⟨?_, ?_⟩, ?_⟩
  · intro id slot hs
    simp [initial] at hs
  · intro id hh
    simp [initial, HostState.Holds] at hh
  · intro hf
    simp [initial, Fence.isFenced] at hf

/-- A host whose fence is over, and which has no activation under way, holds no
active activation. -/
def FenceComplete (s : ClaimState) : Prop :=
  ∀ h, (s.hosts h).fence = .done → (∀ id r, s.slotAt h id ≠ some (.activating r)) →
    ∀ id ref, s.slotAt h id ≠ some (.active ref)

end ClaimState

/-- **When a fence is complete.**  In every run in which no activation completes on
a fenced host behind the scan of its type, every settled fence has left nothing
active. -/
theorem fenceComplete_of_caught (cfg : ClusterConfig) (s : ClaimState)
    (h : (claims cfg).Reach CaughtByFence s) : s.FenceComplete := by
  have hcov : s.Covered cfg := h.invariant
    (fun _ hinit => hinit ▸ ClaimState.covered_initial cfg)
    (fun _ _ _ hs hok hstep => hs.step hok hstep)
  intro k hdone _ id ref hslot
  have hleft := (hcov k).2 (by rw [hdone]; rfl) id ref hslot
  rw [hdone] at hleft
  exact List.not_mem_nil hleft

/-! ## Caught and missed -/

/-- An activation is active when the fence begins, and a second one completes
before the scan. -/
def caughtLabels : List ClaimLabel :=
  [.activate "host-1" ⟨"Cart", "a"⟩, .execClaim "host-1" "Cart\x00a",
    .claimReply "host-1" "Cart\x00a", .created "host-1" "Cart\x00a",
    .activate "host-1" ⟨"Cart", "b"⟩, .execClaim "host-1" "Cart\x00b",
    .selfSuspect "host-1", .fenceDecide "host-1",
    .claimReply "host-1" "Cart\x00b", .created "host-1" "Cart\x00b",
    .fenceScan "host-1", .drained "host-1" "Cart\x00a", .drained "host-1" "Cart\x00b",
    .fenceEnd "host-1"]

def caught : ClaimState :=
  ((claims cartCluster).exec CaughtByFence .initial caughtLabels).get (by decide)

/-- An activation that straddles the flag, but not the scan, is dropped with the
others. -/
theorem fenceComplete_caught : (caught.hosts "host-1").fence = .done ∧ caught.FenceComplete :=
  ⟨by decide, fenceComplete_of_caught cartCluster caught
    (Machine.System.Reach.exec_get (.start rfl) caughtLabels (by decide))⟩

/-- A claim is on its way when the flag is set: nothing is claimed yet, so the
fence has no type to scan and is over before the activation completes. -/
def missedLabels : List ClaimLabel :=
  [.activate "host-1" ⟨"Cart", "a"⟩, .selfSuspect "host-1", .fenceDecide "host-1",
    .fenceEnd "host-1", .execClaim "host-1" "Cart\x00a",
    .claimReply "host-1" "Cart\x00a", .created "host-1" "Cart\x00a"]

def missed : ClaimState :=
  ((claims cartCluster).exec (fun _ _ => True) .initial missedLabels).get (by decide)

/-- The only slot of the missed host is active. -/
theorem missed_slot (id : String) :
    missed.slotAt "host-1" id = if id = "Cart\x00a" then some (.active ⟨"Cart", "a"⟩) else none := by
  have hentries : (missed.hosts "host-1").slots.entries =
      [("Cart\x00a", .active ⟨"Cart", "a"⟩)] := by decide
  rw [ClaimState.slotAt, JsMap.get, hentries, JsMap.getEntries, JsMap.getEntries]

/-- An activation whose claim was pending when the fence began stays active on
the fenced host, with the fence over and nothing under way. -/
theorem not_fenceComplete_missed : ¬ ∀ s, (claims cartCluster).Reachable s → s.FenceComplete := by
  intro hall
  have hcomplete := hall missed
    (Machine.System.Reach.exec_get (.start rfl) missedLabels (by decide))
  refine hcomplete "host-1" (by decide) ?_ "Cart\x00a" ⟨"Cart", "a"⟩ (by decide)
  intro id r hslot
  rw [missed_slot] at hslot
  split at hslot <;> cases hslot

end SigxActors.Cluster
