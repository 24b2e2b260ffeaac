/-
  Cluster/FailedActivation.lean --- what a failed activation leaves behind.

  `beforeActivate` records the claim in `#claimed` and only `afterDeactivate`
  removes it; the local host runs the second hook for a drained slot alone.  An
  activation that fails AFTER its claim was recorded (its record does not load,
  its state does not seed, its setup throws) therefore drops the slot and keeps
  the claim: the next attempt finds the entry it left, takes `#claimed` for a
  live claim behind it, and is refused in the name of its own host.

  With no such failure the two tables agree: `Unpoisoned` holds of every state,
  whatever fails at the claim itself (`unpoisoned_of_no_late_failure`).
-/
import SigxActors.Cluster.SingleClaim

set_option autoImplicit false

namespace SigxActors.Cluster

open SigxActors.Js SigxActors.Host

/-! ## Claims and slots of one host -/

namespace HostState

/-- Every recorded claim has a slot that holds it. -/
def ClaimsHeld (hs : HostState) : Prop :=
  ∀ id e, hs.claimed.get id = some e → hs.Holds id

/-- Replacing the slot of one id keeps the claims held, if the new slot holds or
the id has no claim. -/
theorem ClaimsHeld.of_slot {hs hs' : HostState} (hheld : hs.ClaimsHeld) (id : String)
    (hother : ∀ j, j ≠ id → hs'.slots.get j = hs.slots.get j)
    (hclaimed : ∀ j e, j ≠ id → hs'.claimed.get j = some e → hs.claimed.get j = some e)
    (hid : hs'.Holds id ∨ hs'.claimed.get id = none) : hs'.ClaimsHeld := by
  intro j e hc
  by_cases hj : j = id
  · subst hj
    rcases hid with hid | hid
    · exact hid
    · rw [hid] at hc
      cases hc
  · rw [holds_congr (hother j hj)]
    exact hheld j e (hclaimed j e hj hc)

/-- An attempt that has not recorded its claim may move on: there is no claim. -/
theorem ClaimsHeld.setStage {hs : HostState} (hheld : hs.ClaimsHeld) {id : String}
    {old new : Stage} (hold : hs.stageOf id = some old) (hne : old ≠ .creating) :
    (hs.setStage id new).ClaimsHeld := by
  refine hheld.of_slot id (fun j => setStage_get_of_ne) (fun j e _ => ?_) (Or.inr ?_)
  · rw [setStage_claimed]
    exact fun hc => hc
  · rw [setStage_claimed]
    cases hc : hs.claimed.get id with
    | none => rfl
    | some e => exact absurd (hheld id e hc) (not_holds_of_stage hold hne)

end HostState

namespace ClaimState

/-- Every host's claims are held by its slots. -/
def ClaimsHeld (s : ClaimState) : Prop := ∀ k, (s.hosts k).ClaimsHeld

variable {s : ClaimState} {h : String}

theorem ClaimsHeld.onHost (hheld : s.ClaimsHeld) {f : HostState → HostState}
    (hf : (f (s.hosts h)).ClaimsHeld) : (s.onHost h f).ClaimsHeld := by
  intro k
  rw [onHost_hosts]
  by_cases hk : k = h
  · rw [if_pos hk, hk]
    exact hf
  · rw [if_neg hk]
    exact hheld k

theorem ClaimsHeld.setStage (hheld : s.ClaimsHeld) {id : String} {old : Stage}
    (hold : s.stageAt h id = some old) (hne : old ≠ .creating) (new : Stage) :
    (s.onHost h (·.setStage id new)).ClaimsHeld :=
  hheld.onHost ((hheld h).setStage hold hne)

theorem ClaimsHeld.unclaimed (hheld : s.ClaimsHeld) {id : String} (hslot : s.slotAt h id = none) :
    s.claimedAt h id = none := by
  cases hc : s.claimedAt h id with
  | none => rfl
  | some e =>
    have hh := hheld h id e hc
    unfold HostState.Holds at hh
    rw [show (s.hosts h).slots.get id = none from hslot] at hh
    exact hh.elim

theorem ClaimsHeld.unclaimed_of_stage (hheld : s.ClaimsHeld) {id : String} {stage : Stage}
    (hst : s.stageAt h id = some stage) (hne : stage ≠ .creating) : s.claimedAt h id = none := by
  cases hc : s.claimedAt h id with
  | none => rfl
  | some e => exact absurd (hheld h id e hc) (HostState.not_holds_of_stage hst hne)

/-! ## The guard -/

end ClaimState

/-- No activation fails after its claim was recorded.  Failures of the claim
itself are not restricted. -/
def NoLateFailure (_ : ClaimState) : ClaimLabel → Prop
  | .createFails _ _ => False
  | _ => True

instance (s : ClaimState) (l : ClaimLabel) : Decidable (NoLateFailure s l) := by
  cases l <;> first | exact isTrue trivial | exact isFalse id

namespace ClaimState

theorem ClaimsHeld.step {cfg : ClusterConfig} {s t : ClaimState} {l : ClaimLabel}
    (hheld : s.ClaimsHeld) (hok : NoLateFailure s l) (hstep : s.step cfg l = some t) :
    t.ClaimsHeld := by
  cases l with
  | activate h ref =>
    obtain ⟨hnone, -, hcases⟩ := activate_cases hstep
    have hclear : (s.hosts h).claimed.get (actorId ref) = none := hheld.unclaimed hnone
    rcases hcases with ⟨-, rfl⟩ | ⟨-, mine, -, rfl⟩
    · exact hheld.onHost ((hheld h).of_slot (actorId ref)
        (fun j hj => by simp [HostState.reserve, JsMap.get_set, hj]) (fun _ _ _ hc => hc)
        (Or.inr hclear))
    · exact hheld.onHost ((hheld h).of_slot (actorId ref)
        (fun j hj => by simp [HostState.reserve, JsMap.get_set, hj]) (fun _ _ _ hc => hc)
        (Or.inr hclear))
  | execClaim h id =>
    simp only [ClaimState.step, ClaimState.execClaim] at hstep
    split at hstep <;> cases hstep
    rename_i hst
    exact hheld.setStage hst (by simp) _
  | claimReply h id =>
    simp only [ClaimState.step, ClaimState.claimReply] at hstep
    split at hstep
    · rename_i mine retried winner hst
      split at hstep
      · split at hstep <;> cases hstep
        · exact hheld.setStage hst (by simp) _
        · exact hheld.setStage hst (by simp) _
      · cases hstep
        refine hheld.onHost ((hheld h).of_slot id (fun j => ?_) (fun j e hj => ?_)
          (Or.inl ?_))
        · exact HostState.setStage_get_of_ne
        · simp [JsMap.get_set, hj]
        · obtain ⟨ref, hslot⟩ := slotAt_of_stageAt hst
          unfold HostState.Holds
          rw [HostState.setStage_slots_get, show (s.hosts h).slots.get id = _ from hslot]
          simp
    · cases hstep
  | execEvict h id =>
    simp only [ClaimState.step, ClaimState.execEvict] at hstep
    split at hstep <;> cases hstep
    rename_i hst
    exact hheld.setStage hst (by simp) _
  | evictReply h id =>
    simp only [ClaimState.step, ClaimState.evictReply] at hstep
    split at hstep <;> cases hstep
    rename_i hst
    exact hheld.setStage hst (by simp) _
  | directoryFails h id =>
    simp only [ClaimState.step, ClaimState.directoryFails] at hstep
    split at hstep <;> cases hstep
    · rename_i hst
      exact hheld.setStage hst (by simp) _
    · rename_i hst
      exact hheld.setStage hst (by simp) _
  | created h id =>
    simp only [ClaimState.step, ClaimState.created] at hstep
    split at hstep <;> cases hstep
    refine hheld.onHost ((hheld h).of_slot id (fun j hj => by simp [JsMap.get_set, hj])
      (fun _ _ _ hc => hc) (Or.inl ?_))
    simp [HostState.Holds]
  | createFails h id => exact hok.elim
  | dropFailed h id =>
    simp only [ClaimState.step, ClaimState.dropFailed] at hstep
    split at hstep <;> cases hstep
    rename_i hst
    exact hheld.onHost ((hheld h).of_slot id
      (fun j hj => by simp [JsMap.get_erase, hj]) (fun _ _ _ hc => hc)
      (Or.inr (hheld.unclaimed_of_stage hst (by simp))))
  | deactivate h id =>
    simp only [ClaimState.step, ClaimState.deactivate, Slots.beginDeactivation] at hstep
    split at hstep <;> cases hstep
    rename_i hbegin
    split at hbegin <;> cases hbegin
    refine hheld.onHost ((hheld h).of_slot id (fun j hj => by simp [JsMap.get_set, hj])
      (fun _ _ _ hc => hc) (Or.inl ?_))
    simp [HostState.Holds]
  | drained h id =>
    simp only [ClaimState.step, ClaimState.drained] at hstep
    -- Slot and claim of the id go in one step, whatever was listed.
    have hgone : (s.onHost h (·.drop id)).ClaimsHeld :=
      hheld.onHost ((hheld h).of_slot id
        (fun j hj => by simp [HostState.drop, JsMap.get_erase, hj])
        (fun j e hj => by simp [HostState.drop, JsMap.get_erase, hj])
        (Or.inr (by simp [HostState.drop])))
    split at hstep
    · split at hstep <;> cases hstep
      · exact hgone
      · exact hgone
    · cases hstep
  | execRelease n =>
    simp only [ClaimState.step, ClaimState.execRelease] at hstep
    split at hstep <;> cases hstep
    exact hheld
  | loseRelease n =>
    simp only [ClaimState.step, ClaimState.loseRelease] at hstep
    split at hstep <;> cases hstep
    exact hheld
  | issueEvict id =>
    simp only [ClaimState.step, ClaimState.issueEvict] at hstep
    split at hstep <;> cases hstep
    exact hheld
  | execEviction n =>
    simp only [ClaimState.step, ClaimState.execEviction] at hstep
    split at hstep <;> cases hstep
    exact hheld
  | evictHost hostId =>
    cases hstep
    exact hheld
  | selfSuspect h =>
    simp only [ClaimState.step, ClaimState.selfSuspect] at hstep
    split at hstep <;> cases hstep
    exact hheld.onHost (hheld h)
  | fenceDecide h =>
    simp only [ClaimState.step, ClaimState.fenceDecide] at hstep
    split at hstep
    · split at hstep <;> cases hstep
      · exact hheld.onHost (hheld h)
      · exact hheld.onHost (hheld h)
    · cases hstep
  | fenceScan h =>
    simp only [ClaimState.step, ClaimState.fenceScan] at hstep
    split at hstep <;> cases hstep
    refine hheld.onHost fun id e hc => ?_
    have hh := hheld h id e hc
    unfold HostState.Holds at hh ⊢
    simp only [Slots.get_deactivateType]
    cases hslot : (s.hosts h).slots.get id with
    | none => simp [hslot] at hh
    | some slot =>
      cases slot with
      | activating r => simpa [hslot] using hh
      | deactivating ref => simp
      | active ref =>
        simp only
        split
        · rename_i hx
          cases hx
        · rename_i hx
          split at hx <;> cases hx
        · trivial
        · trivial
  | fenceEnd h =>
    simp only [ClaimState.step, ClaimState.fenceEnd] at hstep
    split at hstep <;> cases hstep
    exact hheld.onHost (hheld h)

end ClaimState

/-! ## A host's own entries during its attempts -/

/-- What an attempt of `host` knows of the directory's entry `held` for its actor:
of the host's own entries only the ghost it is reclaiming can still be there. -/
def Stage.OwnEntry (host : String) (held : Option DirectoryEntry) : Stage → Prop
  | .claiming _ false .sent => True
  | .claiming _ false (.answered winner) => ∀ e, held = some e → e.hostId = host → e = winner
  | .claiming _ true .sent => ∀ e, held = some e → e.hostId ≠ host
  | .claiming mine true (.answered winner) => winner.hostId = host → winner = mine
  | .evicting _ winner .sent => ∀ e, held = some e → e.hostId = host → e = winner
  | .evicting _ _ (.answered _) => ∀ e, held = some e → e.hostId ≠ host
  | .creating | .failed => True

theorem Stage.OwnEntry.mono {host : String} {held held' : Option DirectoryEntry} {stage : Stage}
    (h : stage.OwnEntry host held) (hheld : ∀ e, held' = some e → held = some e ∨ e.hostId ≠ host) :
    stage.OwnEntry host held' := by
  cases stage with
  | creating | failed => trivial
  | claiming mine retried rpc =>
    cases retried with
    | false =>
      cases rpc with
      | sent => trivial
      | answered winner =>
        intro e he hhost
        exact h e ((hheld e he).resolve_right (fun hne => hne hhost)) hhost
    | true =>
      cases rpc with
      | sent =>
        intro e he
        rcases hheld e he with he | hne
        · exact h e he
        · exact hne
      | answered winner => exact h
  | evicting mine winner rpc =>
    cases rpc with
    | sent =>
      intro e he hhost
      exact h e ((hheld e he).resolve_right (fun hne => hne hhost)) hhost
    | answered u =>
      intro e he
      rcases hheld e he with he | hne
      · exact h e he
      · exact hne

namespace ClaimState

/-- Every attempt of every host knows its own entries. -/
def OwnEntries (s : ClaimState) : Prop :=
  ∀ k j stage, s.stageAt k j = some stage → stage.OwnEntry k (s.directory.get j)

variable {s t : ClaimState} {h id : String} {cfg : ClusterConfig} {l : ClaimLabel}

section

variable (hown : s.OwnEntries)
include hown

/-- Steps that add nothing to the directory and start no attempt but a fresh one. -/
theorem OwnEntries.mono (hdir : ∀ j e, t.directory.get j = some e → s.directory.get j = some e)
    (hstage : ∀ k j stage, t.stageAt k j = some stage →
      s.stageAt k j = some stage ∨ ∀ held, stage.OwnEntry k held) : t.OwnEntries := by
  intro k j stage hst
  rcases hstage k j stage hst with hst | hnew
  · exact (hown k j stage hst).mono (fun e he => Or.inl (hdir j e he))
  · exact hnew _

theorem OwnEntries.forgets (hf : Forgets s t) : t.OwnEntries := by
  refine hown.mono (fun j e hd => hf.directory ▸ hd) fun k j stage hst => ?_
  rcases hf.stage k j stage hst with hst | rfl | rfl
  · exact Or.inl hst
  · exact Or.inr fun _ => trivial
  · exact Or.inr fun _ => trivial

/-- One step of an attempt: the moved attempt is looked at, every other one sees
at most another host's entry arrive. -/
theorem OwnEntries.moves {old new : Stage} (hm : Moves s t h id old new)
    (hnew : new.OwnEntry h (t.directory.get id))
    (hdir : ∀ k j e, ¬ (k = h ∧ j = id) → t.directory.get j = some e →
      s.directory.get j = some e ∨ e.hostId ≠ k) : t.OwnEntries := by
  intro k j stage hk
  rw [hm.stage] at hk
  split at hk
  · rename_i hkj
    cases hk
    rw [hkj.1, hkj.2]
    exact hnew
  · rename_i hkj
    exact (hown k j stage hk).mono (fun e he => hdir k j e hkj he)

theorem OwnEntries.execClaim (hs : s.SingleClaim)
    (hstep : s.execClaim h id = some t) : t.OwnEntries := by
  obtain ⟨mine, retried, hm, hdir, -⟩ := execClaim_cases hstep
  have hmine : mine.hostId = h := hs.mine_own h id _ mine hm.from_old rfl
  have hget : t.directory.get id = some (s.directory.claim id mine).1 := by
    rw [hdir, ActorDirectory.get_claim, if_pos rfl, ActorDirectory.claim_winner]
  refine hown.moves hm ?_ ?_
  · cases retried with
    | false =>
      intro e he _
      exact Option.some.inj (he.symm.trans hget)
    | true =>
      intro hhost
      rw [ActorDirectory.claim_winner] at hhost ⊢
      cases hheld : s.directory.get id with
      | none => rfl
      | some e =>
        rw [hheld] at hhost
        exact absurd hhost (hown h id _ hm.from_old e hheld)
  · intro k j e hkj hd
    rw [hdir, ActorDirectory.get_claim] at hd
    split at hd
    · rename_i hj
      cases hheld : s.directory.get id with
      | none =>
        rw [hheld] at hd
        cases hd
        exact Or.inr (fun hk => hkj ⟨hk.symm.trans hmine, hj⟩)
      | some entry =>
        rw [hheld] at hd
        exact Or.inl (by rw [hj, hheld]; exact hd)
    · exact Or.inl hd

theorem OwnEntries.claimReply (hstep : s.claimReply h id = some t) : t.OwnEntries := by
  obtain ⟨mine, retried, winner, hanswered, hdir, -, hcases⟩ := claimReply_cases hstep
  have hsame : ∀ k j e, ¬ (k = h ∧ j = id) → t.directory.get j = some e →
      s.directory.get j = some e ∨ e.hostId ≠ k := fun k j e _ hd => Or.inl (hdir ▸ hd)
  rcases hcases with ⟨-, ⟨hretried, -⟩, hm, -⟩ | ⟨-, -, hm, -⟩ | ⟨-, hm, -⟩
  · refine hown.moves hm ?_ hsame
    have hold := hown h id _ hanswered
    rw [hretried] at hold
    rw [hdir]
    exact hold
  · exact hown.moves hm trivial hsame
  · exact hown.moves hm trivial hsame

theorem OwnEntries.execEvict (hstep : s.execEvict h id = some t) : t.OwnEntries := by
  obtain ⟨mine, winner, hm, hdir, -⟩ := execEvict_cases hstep
  refine hown.moves hm ?_ (fun k j e _ hd => Or.inl ?_)
  · intro e he hhost
    rw [hdir] at he
    have hheld := ActorDirectory.get_of_get_release he
    have hghost : e = winner := hown h id _ hm.from_old e hheld hhost
    -- The ghost itself is gone.
    rw [ActorDirectory.get_release, if_pos ⟨rfl, by rw [hheld, hghost, Option.map_some]⟩] at he
    cases he
  · rw [hdir] at hd
    exact ActorDirectory.get_of_get_release hd

theorem OwnEntries.step (hs : s.SingleClaim) (hstep : s.step cfg l = some t) : t.OwnEntries := by
  -- Steps outside the hosts only delete directory entries.
  have houtside : t.hosts = s.hosts →
      (∀ j e, t.directory.get j = some e → s.directory.get j = some e) → t.OwnEntries :=
    fun hhosts hdir => hown.mono hdir fun k j stage hst => Or.inl (by
      rw [stageAt, ← hhosts]
      exact hst)
  cases l with
  | activate h ref =>
    obtain ⟨-, -, ⟨-, rfl⟩ | ⟨-, mine, hr, -⟩⟩ := activate_cases hstep
    · exact hown.forgets (forgets_reserve_failed s h ref)
    refine hown.mono (fun j e hd => hr.directory ▸ hd) fun k j stage hst => ?_
    rw [hr.stage] at hst
    split at hst
    · cases hst
      exact Or.inr fun _ => trivial
    · exact Or.inl hst
  | execClaim h id => exact hown.execClaim hs hstep
  | claimReply h id => exact hown.claimReply hstep
  | execEvict h id => exact hown.execEvict hstep
  | evictReply h id =>
    obtain ⟨mine, winner, hm, hdir, -⟩ := evictReply_cases hstep
    refine hown.moves hm ?_ (fun k j e _ hd => Or.inl (hdir ▸ hd))
    have hold := hown h id _ hm.from_old
    rw [hdir]
    exact hold
  | directoryFails h id => exact hown.forgets (forgets_directoryFails hstep)
  | created h id => exact hown.forgets (forgets_created hstep)
  | createFails h id => exact hown.forgets (forgets_createFails hstep)
  | dropFailed h id => exact hown.forgets (forgets_dropFailed hstep)
  | deactivate h id => exact hown.forgets (forgets_deactivate hstep)
  | drained h id =>
    have hdrop : (s.onHost h (·.drop id)).OwnEntries := by
      refine hown.mono (fun _ _ hd => hd) fun k j stage hst => Or.inl ?_
      rw [stageAt_drop] at hst
      split at hst
      · cases hst
      · exact hst
    simp only [ClaimState.step, ClaimState.drained] at hstep
    split at hstep
    · split at hstep <;> cases hstep
      · exact hdrop
      · exact hdrop
    · cases hstep
  | execRelease n =>
    simp only [ClaimState.step, ClaimState.execRelease] at hstep
    split at hstep <;> cases hstep
    exact houtside rfl (fun j e hd => ActorDirectory.get_of_get_release hd)
  | loseRelease n =>
    simp only [ClaimState.step, ClaimState.loseRelease] at hstep
    split at hstep <;> cases hstep
    exact houtside rfl (fun _ _ hd => hd)
  | issueEvict id =>
    simp only [ClaimState.step, ClaimState.issueEvict] at hstep
    split at hstep <;> cases hstep
    exact houtside rfl (fun _ _ hd => hd)
  | execEviction n =>
    simp only [ClaimState.step, ClaimState.execEviction] at hstep
    split at hstep <;> cases hstep
    refine houtside rfl (fun j e hd => ?_)
    rw [ActorDirectory.evict_snd] at hd
    exact ActorDirectory.get_of_get_release hd
  | evictHost hostId =>
    cases hstep
    refine houtside rfl (fun j e hd => ?_)
    rw [ClaimState.evictHost, ActorDirectory.get_evictHost] at hd
    exact (Option.filter_eq_some_iff.mp hd).1
  | selfSuspect h => exact hown.forgets (forgets_selfSuspect hstep)
  | fenceDecide h => exact hown.forgets (forgets_fenceDecide hstep)
  | fenceScan h => exact hown.forgets (forgets_fenceScan hstep)
  | fenceEnd h => exact hown.forgets (forgets_fenceEnd hstep)

end

/-! ## Refusals -/

/-- The refusals a step adds. -/
theorem refusals_step (hstep : s.step cfg l = some t) {r : Refusal} (hr : r ∈ t.refusals) :
    r ∈ s.refusals ∨ ∃ mine retried,
      s.stageAt r.host r.actorId = some (.claiming mine retried (.answered r.winner)) ∧
      r.winner.activationId ≠ mine.activationId ∧
      ¬ (retried = false ∧ r.winner.hostId = r.host ∧ s.claimedAt r.host r.actorId = none) := by
  cases l with
  | claimReply h id =>
    obtain ⟨mine, retried, winner, hanswered, -, -, hcases⟩ := claimReply_cases hstep
    rcases hcases with ⟨-, -, -, -, href⟩ | ⟨hne, hnot, -, -, href⟩ | ⟨-, -, -, href⟩
    · exact Or.inl (href ▸ hr)
    · rw [href] at hr
      rcases List.mem_cons.mp hr with rfl | hr
      · exact Or.inr ⟨mine, retried, hanswered, hne, hnot⟩
      · exact Or.inl hr
    · exact Or.inl (href ▸ hr)
  | activate h ref =>
    obtain ⟨-, -, ⟨-, rfl⟩ | ⟨-, mine, hres, -⟩⟩ := activate_cases hstep
    · exact Or.inl hr
    · exact Or.inl (hres.refusals ▸ hr)
  | execClaim h id =>
    obtain ⟨mine, retried, -, -, -, -, href⟩ := execClaim_cases hstep
    exact Or.inl (href ▸ hr)
  | execEvict h id =>
    obtain ⟨mine, winner, -, -, -, -, href⟩ := execEvict_cases hstep
    exact Or.inl (href ▸ hr)
  | evictReply h id =>
    obtain ⟨mine, winner, -, -, -, -, href⟩ := evictReply_cases hstep
    exact Or.inl (href ▸ hr)
  | _ =>
    left
    simp only [ClaimState.step, ClaimState.directoryFails, ClaimState.created,
      ClaimState.createFails, ClaimState.dropFailed, ClaimState.deactivate,
      ClaimState.drained, ClaimState.execRelease, ClaimState.loseRelease,
      ClaimState.issueEvict, ClaimState.execEviction, ClaimState.evictHost,
      ClaimState.selfSuspect, ClaimState.fenceDecide, ClaimState.fenceScan,
      ClaimState.fenceEnd] at hstep
    repeat' split at hstep
    all_goals first
      | cases hstep
        exact hr
      | cases hstep

/-- No refusal thrown so far named the host that threw it. -/
def NoSelfRefusal (s : ClaimState) : Prop := ∀ r ∈ s.refusals, r.winner.hostId ≠ r.host

theorem NoSelfRefusal.step (hrefusals : s.NoSelfRefusal) (hown : s.OwnEntries)
    (hheld : s.ClaimsHeld) (hstep : s.step cfg l = some t) : t.NoSelfRefusal := by
  intro r hr hself
  rcases refusals_step hstep hr with hr | ⟨mine, retried, hanswered, hne, hnot⟩
  · exact hrefusals r hr hself
  cases retried with
  | false =>
    exact hnot ⟨rfl, hself, hheld.unclaimed_of_stage hanswered (by simp)⟩
  | true =>
    exact hne (congrArg DirectoryEntry.activationId (hown _ _ _ hanswered hself))

/-! ## An undisturbed attempt -/

theorem stageAt_of_moves {old new : Stage} (hm : Moves s t h id old new) :
    t.stageAt h id = some new := by
  rw [hm.stage, if_pos ⟨rfl, rfl⟩]

/-- The claim call and its answer, when the directory holds nothing for the
actor: the claim is recorded. -/
theorem exec_claim_free (cfg : ClusterConfig) {mine : DirectoryEntry} {retried : Bool}
    (hst : s.stageAt h id = some (.claiming mine retried .sent))
    (hfree : s.directory.get id = none) :
    ∃ t, (claims cfg).exec (fun _ _ => True) s [.execClaim h id, .claimReply h id] = some t ∧
      t.stageAt h id = some .creating ∧ t.claimedAt h id = some mine := by
  have hwinner : (s.directory.claim id mine).1 = mine := by
    rw [ActorDirectory.claim_winner, hfree, Option.getD_none]
  obtain ⟨t₁, hstep₁⟩ : ∃ t, s.execClaim h id = some t := by
    simp [ClaimState.execClaim, hst]
  obtain ⟨m, r, hm₁, -⟩ := execClaim_cases hstep₁
  have hsame := hm₁.from_old.symm.trans hst
  cases hsame
  have hst₁ := stageAt_of_moves hm₁
  rw [hwinner] at hst₁
  obtain ⟨t₂, hstep₂⟩ : ∃ t, t₁.claimReply h id = some t := by
    simp [ClaimState.claimReply, hst₁]
  obtain ⟨m', r', w', hst', -, -, hcases⟩ := claimReply_cases hstep₂
  have hsame := hst'.symm.trans hst₁
  cases hsame
  refine ⟨t₂, ?_, ?_⟩
  · simp [Machine.System.exec, claims, ClaimState.step, hstep₁, hstep₂]
  · rcases hcases with ⟨hne, -⟩ | ⟨hne, -⟩ | ⟨-, hm₂, hclaimed, -⟩
    · exact absurd rfl hne
    · exact absurd rfl hne
    · exact ⟨stageAt_of_moves hm₂, by rw [hclaimed, if_pos ⟨rfl, rfl⟩]⟩

/-- The claim call and its answer, when the directory holds a ghost of this very
host: the ghost is reclaimed and the second claim recorded. -/
theorem exec_claim_ghost (cfg : ClusterConfig) {mine ghost : DirectoryEntry}
    (hst : s.stageAt h id = some (.claiming mine false .sent))
    (hghost : s.directory.get id = some ghost) (hown : ghost.hostId = h)
    (hne : ghost.activationId ≠ mine.activationId) (hnone : s.claimedAt h id = none) :
    ∃ t, (claims cfg).exec (fun _ _ => True) s
        [.execClaim h id, .claimReply h id, .execEvict h id, .evictReply h id,
          .execClaim h id, .claimReply h id] = some t ∧
      t.stageAt h id = some .creating ∧ t.claimedAt h id = some mine := by
  have hwinner : (s.directory.claim id mine).1 = ghost := by
    rw [ActorDirectory.claim_winner, hghost, Option.getD_some]
  obtain ⟨t₁, hstep₁⟩ : ∃ t, s.execClaim h id = some t := by
    simp [ClaimState.execClaim, hst]
  obtain ⟨m, r, hm₁, hdir₁, hclaimed₁, -⟩ := execClaim_cases hstep₁
  cases hm₁.from_old.symm.trans hst
  have hst₁ := stageAt_of_moves hm₁
  rw [hwinner] at hst₁
  obtain ⟨t₂, hstep₂⟩ : ∃ t, t₁.claimReply h id = some t := by
    simp only [ClaimState.claimReply, hst₁, if_pos hne]
    split <;> exact ⟨_, rfl⟩
  obtain ⟨m', r', w', hst', hdir₂, -, hcases⟩ := claimReply_cases hstep₂
  cases hst'.symm.trans hst₁
  rcases hcases with ⟨-, -, hm₂, hclaimed₂, -⟩ | ⟨-, hnot, -⟩ | ⟨hact, -⟩
  · have hst₂ := stageAt_of_moves hm₂
    obtain ⟨t₃, hstep₃⟩ : ∃ t, t₂.execEvict h id = some t := by
      simp [ClaimState.execEvict, hst₂]
    obtain ⟨m'', w'', hm₃, hdir₃, hclaimed₃, -⟩ := execEvict_cases hstep₃
    cases hm₃.from_old.symm.trans hst₂
    have hst₃ := stageAt_of_moves hm₃
    obtain ⟨t₄, hstep₄⟩ : ∃ t, t₃.evictReply h id = some t := by
      simp [ClaimState.evictReply, hst₃]
    obtain ⟨m₄, w₄, hm₄, hdir₄, -⟩ := evictReply_cases hstep₄
    cases hm₄.from_old.symm.trans hst₃
    have hst₄ := stageAt_of_moves hm₄
    -- The ghost is gone, so the second claim meets an empty directory.
    have hfree : t₄.directory.get id = none := by
      have hheld : t₂.directory.get id = some ghost := by
        rw [hdir₂, hdir₁]
        exact ActorDirectory.get_claim_of_some hghost
      rw [hdir₄, hdir₃, ActorDirectory.get_release, if_pos ⟨rfl, by rw [hheld, Option.map_some]⟩]
    obtain ⟨t, hexec, hfinal⟩ := exec_claim_free cfg hst₄ hfree
    refine ⟨t, ?_, hfinal⟩
    simp [Machine.System.exec, claims, ClaimState.step, hstep₁, hstep₂, hstep₃, hstep₄] at hexec ⊢
    exact hexec
  · exact absurd ⟨rfl, hown, (hclaimed₁ h id).trans hnone⟩ hnot
  · exact absurd hact hne

/-! ## Runs -/

/-- What holds together in every state a run without late failures reaches. -/
structure Clean (s : ClaimState) : Prop where
  single : s.SingleClaim
  own : s.OwnEntries
  held : s.ClaimsHeld
  refusals : s.NoSelfRefusal

theorem clean_initial : Clean .initial where
  single := singleClaim_initial
  own := by intro k j stage h; simp [initial, stageAt, HostState.stageOf] at h
  held := by intro k id e h; simp [initial] at h
  refusals := by intro r h; simp [initial] at h

theorem clean_reachable (h : (claims cfg).Reach NoLateFailure s) : s.Clean :=
  h.invariant (fun _ hinit => hinit ▸ clean_initial) fun _ _ _ hs hok hstep =>
    { single := hs.single.step hstep
      own := hs.own.step hs.single hstep
      held := hs.held.step hok hstep
      refusals := hs.refusals.step hs.own hs.held hstep }

end ClaimState

/-- The steps of one activation attempt up to its recorded claim, with nothing in
between; `ghost` when the directory already holds an entry. -/
def attemptLabels (h : String) (ref : ActorRef) (ghost : Bool) : List ClaimLabel :=
  let id := actorId ref
  .activate h ref :: .execClaim h id :: .claimReply h id ::
    if ghost then [.execEvict h id, .evictReply h id, .execClaim h id, .claimReply h id] else []

/-- No actor is poisoned: without a slot there is no claim, no host was ever
refused in its own name, and where no other host claims the actor an attempt
records its claim. -/
structure Unpoisoned (cfg : ClusterConfig) (s : ClaimState) : Prop where
  unclaimed : ∀ h id, s.slotAt h id = none → s.claimedAt h id = none
  no_self_refusal : ∀ r ∈ s.refusals, r.winner.hostId ≠ r.host
  recovers : ∀ h ref, ref.type ∈ (cfg.registered h).map (·.name) →
    s.slotAt h (actorId ref) = none → (s.hosts h).fence.isFenced = false →
    (∀ e, s.directory.get (actorId ref) = some e → e.hostId = h) →
    ∃ t, (claims cfg).exec (fun _ _ => True) s
        (attemptLabels h ref (s.directory.get (actorId ref)).isSome) = some t ∧
      t.stageAt h (actorId ref) = some .creating ∧
      (t.claimedAt h (actorId ref)).isSome = true

/-- **When a failed activation leaves nothing behind.**  In every run in which no
activation fails after its claim was recorded, whatever fails before, no actor is
poisoned. -/
theorem unpoisoned_of_no_late_failure (cfg : ClusterConfig) (s : ClaimState)
    (h : (claims cfg).Reach NoLateFailure s) : Unpoisoned cfg s := by
  have hclean := ClaimState.clean_reachable h
  refine ⟨fun k id => hclean.held.unclaimed, hclean.refusals, ?_⟩
  intro k ref htype hslot hfence hothers
  have hnone : s.claimedAt k (actorId ref) = none := hclean.held.unclaimed hslot
  obtain ⟨s₁, hstep⟩ : ∃ t, s.activate cfg k ref = some t := by
    have hfree : (s.hosts k).slots.has (actorId ref) = false := by
      simpa [JsMap.has, ClaimState.slotAt] using hslot
    simp only [ClaimState.activate, hfree, Bool.false_eq_true, if_false, hfence]
    rw [if_neg (by simpa using htype)]
    exact ⟨_, rfl⟩
  obtain ⟨-, -, ⟨hfenced, -⟩ | ⟨-, mine, hres, -⟩⟩ := ClaimState.activate_cases hstep
  · rw [hfence] at hfenced
    cases hfenced
  have hst : s₁.stageAt k (actorId ref) = some (.claiming mine false .sent) := by
    rw [hres.stage, if_pos ⟨rfl, rfl⟩]
  cases hdir : s.directory.get (actorId ref) with
  | none =>
    obtain ⟨t, hexec, hfinal, hclaimed⟩ := ClaimState.exec_claim_free cfg hst
      (hres.directory ▸ hdir)
    refine ⟨t, ?_, hfinal, by rw [hclaimed]; rfl⟩
    simp [attemptLabels, Machine.System.exec, claims, ClaimState.step, hstep] at hexec ⊢
    exact hexec
  | some ghost =>
    -- The ghost was minted before this attempt's activation id.
    have hne : ghost.activationId ≠ mine.activationId := by
      intro hact
      have hle := (hclean.single.named_minted _ ghost (.directory hdir)).2
      rw [hothers ghost hdir, hact, hres.fresh.2] at hle
      exact Nat.not_succ_le_self _ hle
    obtain ⟨t, hexec, hfinal, hclaimed⟩ := ClaimState.exec_claim_ghost cfg hst
      (hres.directory ▸ hdir) (hothers ghost hdir) hne ((hres.claimed _ _).trans hnone)
    refine ⟨t, ?_, hfinal, by rw [hclaimed]; rfl⟩
    simp [attemptLabels, Machine.System.exec, claims, ClaimState.step, hstep] at hexec ⊢
    exact hexec

/-! ## Both kinds of failure -/

/-- A claim is executed, but its reply is lost: the attempt fails at the claim and
leaves a ghost entry. -/
def lostReplyLabels : List ClaimLabel :=
  [.activate "host-1" ⟨"Cart", "a"⟩, .execClaim "host-1" "Cart\x00a",
    .directoryFails "host-1" "Cart\x00a", .dropFailed "host-1" "Cart\x00a"]

def lostReply : ClaimState :=
  ((claims cartCluster).exec NoLateFailure .initial lostReplyLabels).get (by decide)

/-- A failure at the claim is harmless: the ghost it left is reclaimed. -/
theorem unpoisoned_lostReply :
    lostReply.directory.get "Cart\x00a" ≠ none ∧ Unpoisoned cartCluster lostReply :=
  ⟨by decide, unpoisoned_of_no_late_failure cartCluster lostReply
    (Machine.System.Reach.exec_get (.start rfl) lostReplyLabels (by decide))⟩

/-- The claim is recorded, `Activation.create` throws, and the actor is called
again. -/
def lateFailureLabels : List ClaimLabel :=
  [.activate "host-1" ⟨"Cart", "a"⟩, .execClaim "host-1" "Cart\x00a",
    .claimReply "host-1" "Cart\x00a", .createFails "host-1" "Cart\x00a",
    .dropFailed "host-1" "Cart\x00a", .activate "host-1" ⟨"Cart", "a"⟩,
    .execClaim "host-1" "Cart\x00a", .claimReply "host-1" "Cart\x00a",
    .dropFailed "host-1" "Cart\x00a"]

def lateFailure : ClaimState :=
  ((claims cartCluster).exec (fun _ _ => True) .initial lateFailureLabels).get (by decide)

/-- A failure after the claim poisons the actor: its slot is gone, its claim is
not, and the second attempt was refused by `host-1` in the name of `host-1`. -/
theorem not_unpoisoned_lateFailure :
    (∃ r ∈ lateFailure.refusals, r.host = "host-1" ∧ r.winner.hostId = "host-1") ∧
      ¬ ∀ s, (claims cartCluster).Reachable s → Unpoisoned cartCluster s := by
  refine ⟨by decide, fun hall => ?_⟩
  have hclean := hall lateFailure
    (Machine.System.Reach.exec_get (.start rfl) lateFailureLabels (by decide))
  have hslot : lateFailure.slotAt "host-1" "Cart\x00a" = none := by decide
  have hclaimed : lateFailure.claimedAt "host-1" "Cart\x00a" ≠ none := by decide
  exact hclaimed (hclean.unclaimed "host-1" "Cart\x00a" hslot)

end SigxActors.Cluster
