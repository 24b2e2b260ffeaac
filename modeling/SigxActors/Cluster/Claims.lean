/-
  Cluster/Claims.lean --- hosts claiming actors through a shared directory.

  Source: `packages/actors/src/cluster/placement.ts` (`bind`'s hooks
  `beforeActivate` and `afterDeactivate`, `#fence`, the evictions of
  `#resolveTarget` and of the departed-host sweep), driven by
  `packages/actors/src/host/local-host.ts` (`#activationFor`,
  `#deactivateById`, `deactivateType`).

  One host's part of an activation is a sequence of awaits: the directory's
  claim, on a ghost entry its eviction and a second claim, then
  `Activation.create`.  Every await is a point where any other host, any release
  in flight, any eviction and the fence may run, so each is a step of its own; a
  directory call takes effect at one step (`exec...`) and is answered at a later
  one.  A directory call may also fail, before or after it took effect.

  A host id names one start of a host (it is minted per start), so the hosts of a
  run are indexed by it.  Three fields of the state are history and are read by
  no step: `evicted`, `removals` and `refusals`.
-/
import SigxActors.Machine.Transition
import SigxActors.Cluster.Directory
import SigxActors.Host.Slots

set_option autoImplicit false

namespace SigxActors.Cluster

open SigxActors.Js SigxActors.Host

/-! ## State -/

/-- A directory call in flight: on its way, or executed and on its way back. -/
inductive Rpc (α : Type) where
  | sent
  | answered (answer : α)
  deriving DecidableEq, Repr

/-- Where the promise of a reserved slot is suspended. -/
inductive Stage where
  /-- `await directory.claim(id, mine)`; `retried` for the claim that follows a
  ghost's eviction. -/
  | claiming (mine : DirectoryEntry) (retried : Bool) (rpc : Rpc DirectoryEntry)
  /-- `await directory.evict(id, winner)`, the ghost reclaim. -/
  | evicting (mine winner : DirectoryEntry) (rpc : Rpc Unit)
  /-- The claim is recorded; `await Activation.create(...)`. -/
  | creating
  /-- Rejected; the handler that drops the slot has not run yet. -/
  | failed
  deriving DecidableEq, Repr

/-- The activation under way in a reserved slot. -/
structure Reservation where
  ref : ActorRef
  stage : Stage
  deriving DecidableEq, Repr

/-- How far a loss of membership got on this host. -/
inductive Fence where
  /-- Not fenced. -/
  | member
  /-- `#fencing`, awaiting `#registersStateful()`. -/
  | checking
  /-- Fenced, inside the loop over the claimed types: the types left, and the
  drains the current `deactivateType` awaits. -/
  | scanning (types waits : List String)
  /-- Fenced, and the loop is over. -/
  | done
  deriving DecidableEq, Repr

/-- `#fenced`. -/
def Fence.isFenced : Fence → Bool
  | .member | .checking => false
  | .scanning _ _ | .done => true

/-- One start of a host: the placement's part and the local host's slots. -/
structure HostState where
  /-- `#seq`. -/
  seq : Nat := 0
  /-- `#claimed`. -/
  claimed : JsMap String DirectoryEntry := .empty
  /-- The local host's `#directory`. -/
  slots : Slots Reservation ActorRef := .empty
  fence : Fence := .member

/-- A wrong-host refusal thrown by `beforeActivate`. -/
structure Refusal where
  host : String
  actorId : String
  winner : DirectoryEntry
  deriving DecidableEq, Repr

/-- An entry a compare-and-delete removed, beside the entry it was issued for. -/
structure Removal where
  actorId : String
  issuedFor : DirectoryEntry
  removed : DirectoryEntry
  deriving DecidableEq, Repr

/-- All hosts, the directory, and the calls in flight outside activations. -/
structure ClaimState where
  hosts : String → HostState
  directory : ActorDirectory
  /-- `release` calls in flight. -/
  releases : List (String × DirectoryEntry)
  /-- `evict` calls in flight, issued by lookups that took the owner for dead. -/
  evictions : List (String × DirectoryEntry)
  /-- Claims whose entry a peer's eviction or sweep removed. -/
  evicted : List ActivationId
  /-- What the executed compare-and-deletes removed. -/
  removals : List Removal
  /-- The wrong-host errors thrown. -/
  refusals : List Refusal

/-- What is fixed per host start. -/
structure ClusterConfig where
  epoch : String → Nat
  /-- The stateful types a host registers. -/
  registered : String → List ActorType

namespace HostState

/-- The stage of the activation under way for `id`. -/
def stageOf (hs : HostState) (id : String) : Option Stage :=
  match hs.slots.get id with
  | some (.activating r) => some r.stage
  | _ => none

/-- The promise of a reserved slot moves on. -/
def setStage (hs : HostState) (id : String) (stage : Stage) : HostState :=
  match hs.slots.get id with
  | some (.activating r) =>
      { hs with slots := hs.slots.set id (.activating { r with stage := stage }) }
  | _ => hs

/-- Reserve the slot of `ref`, the activation under way being at `stage`. -/
def reserve (hs : HostState) (ref : ActorRef) (stage : Stage) : HostState :=
  { hs with slots := hs.slots.set (actorId ref) (.activating ⟨ref, stage⟩) }

/-- The slot of `id` has drained: it is deleted, the claim leaves `#claimed`, and a
fence awaiting this drain awaits it no more. -/
def drop (hs : HostState) (id : String) : HostState :=
  { hs with
    slots := hs.slots.erase id
    claimed := hs.claimed.erase id
    fence :=
      match hs.fence with
      | .scanning types waits => .scanning types (waits.filter (· ≠ id))
      | other => other }

/-- The slot of `id` is one whose claim has been recorded. -/
def Holds (hs : HostState) (id : String) : Prop :=
  match hs.slots.get id with
  | none => False
  | some (.activating r) => r.stage = .creating
  | some (.active _) | some (.deactivating _) => True

/-- `types` as `#fence` collects them from the keys of `#claimed`. -/
def claimedTypes (hs : HostState) : List String :=
  (hs.claimed.keys.filterMap typeOfId).eraseDups

end HostState

namespace ClaimState

def initial : ClaimState :=
  { hosts := fun _ => {}
    directory := .empty
    releases := []
    evictions := []
    evicted := []
    removals := []
    refusals := [] }

/-- Change one host. -/
def onHost (s : ClaimState) (h : String) (f : HostState → HostState) : ClaimState :=
  { s with hosts := fun k => if k = h then f (s.hosts k) else s.hosts k }

def slotAt (s : ClaimState) (h id : String) : Option (Slot Reservation ActorRef) :=
  (s.hosts h).slots.get id

def stageAt (s : ClaimState) (h id : String) : Option Stage := (s.hosts h).stageOf id

def claimedAt (s : ClaimState) (h id : String) : Option DirectoryEntry :=
  (s.hosts h).claimed.get id

/-- What a compare-and-delete issued for `expected` removes, if anything. -/
def removedBy (directory : ActorDirectory) (id : String) (expected : DirectoryEntry) :
    List Removal :=
  match directory.get id with
  | some entry =>
      if entry.activationId = expected.activationId then [⟨id, expected, entry⟩] else []
  | none => []

/-! ## An activation attempt -/

/-- A dispatch finds no slot: `#activationFor` reserves one and the synchronous
part of `beforeActivate` runs, up to the first await. -/
def activate (cfg : ClusterConfig) (s : ClaimState) (h : String) (ref : ActorRef) :
    Option ClaimState :=
  let hs := s.hosts h
  if hs.slots.has (actorId ref) then none
  else if ¬ ((cfg.registered h).map (·.name)).contains ref.type then none
  else if hs.fence.isFenced then
    some (s.onHost h (·.reserve ref .failed))
  else
    let mine : DirectoryEntry := { hostId := h, activationId := ⟨h, cfg.epoch h, hs.seq + 1⟩ }
    some (s.onHost h fun hs =>
      { hs.reserve ref (.claiming mine false .sent) with seq := hs.seq + 1 })

/-- The directory executes the claim in flight. -/
def execClaim (s : ClaimState) (h id : String) : Option ClaimState :=
  match s.stageAt h id with
  | some (.claiming mine retried .sent) =>
      let winner := (s.directory.claim id mine).1
      some { s.onHost h (·.setStage id (.claiming mine retried (.answered winner))) with
        directory := (s.directory.claim id mine).2 }
  | _ => none

/-- The claim's answer arrives: `beforeActivate` reclaims a ghost, throws, or
records the claim. -/
def claimReply (s : ClaimState) (h id : String) : Option ClaimState :=
  match s.stageAt h id with
  | some (.claiming mine retried (.answered winner)) =>
      if winner.activationId ≠ mine.activationId then
        if retried = false ∧ winner.hostId = h ∧ (s.hosts h).claimed.has id = false then
          some (s.onHost h (·.setStage id (.evicting mine winner .sent)))
        else
          some { s.onHost h (·.setStage id .failed) with
            refusals := ⟨h, id, winner⟩ :: s.refusals }
      else
        some (s.onHost h fun hs =>
          { hs.setStage id .creating with claimed := hs.claimed.set id mine })
  | _ => none

/-- The directory executes the ghost reclaim's eviction. -/
def execEvict (s : ClaimState) (h id : String) : Option ClaimState :=
  match s.stageAt h id with
  | some (.evicting mine winner .sent) =>
      some { s.onHost h (·.setStage id (.evicting mine winner (.answered ()))) with
        directory := (s.directory.evict id winner).2
        removals := removedBy s.directory id winner ++ s.removals }
  | _ => none

/-- The eviction's answer arrives: the second claim goes out. -/
def evictReply (s : ClaimState) (h id : String) : Option ClaimState :=
  match s.stageAt h id with
  | some (.evicting mine _ (.answered _)) =>
      some (s.onHost h (·.setStage id (.claiming mine true .sent)))
  | _ => none

/-- A directory call of the attempt rejects, executed or not. -/
def directoryFails (s : ClaimState) (h id : String) : Option ClaimState :=
  match s.stageAt h id with
  | some (.claiming _ _ _) | some (.evicting _ _ _) =>
      some (s.onHost h (·.setStage id .failed))
  | _ => none

/-- `Activation.create` resolves: the slot becomes active. -/
def created (s : ClaimState) (h id : String) : Option ClaimState :=
  match s.slotAt h id with
  | some (.activating ⟨ref, .creating⟩) =>
      some (s.onHost h fun hs => { hs with slots := hs.slots.set id (.active ref) })
  | _ => none

/-- `Activation.create` throws: loading, seeding or setup failed. -/
def createFails (s : ClaimState) (h id : String) : Option ClaimState :=
  match s.stageAt h id with
  | some .creating => some (s.onHost h (·.setStage id .failed))
  | _ => none

/-- The catch handler of the reservation deletes the slot. -/
def dropFailed (s : ClaimState) (h id : String) : Option ClaimState :=
  match s.stageAt h id with
  | some .failed => some (s.onHost h fun hs => { hs with slots := hs.slots.erase id })
  | _ => none

/-! ## Deactivation -/

/-- `#deactivateById` on an active slot. -/
def deactivate (s : ClaimState) (h id : String) : Option ClaimState :=
  match (s.hosts h).slots.beginDeactivation id with
  | some (_, slots) => some (s.onHost h fun hs => { hs with slots := slots })
  | none => none

/-- The activation has drained: the slot is deleted, and `afterDeactivate` runs
up to its await, in one synchronous block. -/
def drained (s : ClaimState) (h id : String) : Option ClaimState :=
  match s.slotAt h id with
  | some (.deactivating _) =>
      match s.claimedAt h id with
      | none => some (s.onHost h (·.drop id))
      | some entry =>
          some { s.onHost h (·.drop id) with releases := (id, entry) :: s.releases }
  | _ => none

/-! ## Calls of the directory outside activations -/

/-- The directory executes the `n`-th release in flight. -/
def execRelease (s : ClaimState) (n : Nat) : Option ClaimState :=
  match s.releases[n]? with
  | some (id, entry) =>
      some { s with
        directory := s.directory.release id entry
        releases := s.releases.eraseIdx n
        removals := removedBy s.directory id entry ++ s.removals }
  | none => none

/-- The `n`-th release in flight is lost. -/
def loseRelease (s : ClaimState) (n : Nat) : Option ClaimState :=
  if n < s.releases.length then some { s with releases := s.releases.eraseIdx n } else none

/-- Some host's lookup reads an entry, takes its owner for dead (or unable to
serve the type) and issues its eviction. -/
def issueEvict (s : ClaimState) (id : String) : Option ClaimState :=
  match s.directory.lookup id with
  | some entry => some { s with evictions := (id, entry) :: s.evictions }
  | none => none

/-- The directory executes the `n`-th eviction in flight. -/
def execEviction (s : ClaimState) (n : Nat) : Option ClaimState :=
  match s.evictions[n]? with
  | some (id, entry) =>
      some { s with
        directory := (s.directory.evict id entry).2
        evictions := s.evictions.eraseIdx n
        evicted :=
          if (s.directory.evict id entry).1 then entry.activationId :: s.evicted else s.evicted
        removals := removedBy s.directory id entry ++ s.removals }
  | none => none

/-- A survivor sweeps the entries of a departed host. -/
def evictHost (s : ClaimState) (hostId : String) : ClaimState :=
  { s with
    directory := (s.directory.evictHost hostId).2
    evicted :=
      ((s.directory.entries.filter (fun p => p.2.hostId = hostId)).map (·.2.activationId)) ++
        s.evicted }

/-! ## The fence -/

/-- Membership is lost: `#fence` starts and awaits `#registersStateful()`. -/
def selfSuspect (s : ClaimState) (h : String) : Option ClaimState :=
  match (s.hosts h).fence with
  | .member => some (s.onHost h fun hs => { hs with fence := .checking })
  | _ => none

/-- `#registersStateful()` answers: a host of workers only rejoins, any other is
fenced, and the types to drop are read off `#claimed`. -/
def fenceDecide (cfg : ClusterConfig) (s : ClaimState) (h : String) : Option ClaimState :=
  match (s.hosts h).fence with
  | .checking =>
      if (s.hosts h).claimed.keys = [] ∧ cfg.registered h = [] then
        some (s.onHost h fun hs => { hs with fence := .member })
      else
        some (s.onHost h fun hs => { hs with fence := .scanning hs.claimedTypes [] })
  | _ => none

/-- The loop takes the next type: `deactivateType` starts every active slot of it
deactivating, and is awaited. -/
def fenceScan (s : ClaimState) (h : String) : Option ClaimState :=
  match (s.hosts h).fence with
  | .scanning (type :: types) [] =>
      some (s.onHost h fun hs =>
        { hs with
          slots := hs.slots.deactivateType (fun ref => ref.type = type)
          fence := .scanning types (hs.slots.deactivateTypeWaits (fun ref => ref.type = type)) })
  | _ => none

/-- The loop is over. -/
def fenceEnd (s : ClaimState) (h : String) : Option ClaimState :=
  match (s.hosts h).fence with
  | .scanning [] [] => some (s.onHost h fun hs => { hs with fence := .done })
  | _ => none

end ClaimState

/-! ## Views of a changed host -/

variable {id : String}

namespace HostState

@[simp] theorem setStage_claimed (hs : HostState) (id : String) (stage : Stage) :
    (hs.setStage id stage).claimed = hs.claimed := by
  unfold setStage; split <;> rfl

@[simp] theorem setStage_seq (hs : HostState) (id : String) (stage : Stage) :
    (hs.setStage id stage).seq = hs.seq := by
  unfold setStage; split <;> rfl

@[simp] theorem setStage_fence (hs : HostState) (id : String) (stage : Stage) :
    (hs.setStage id stage).fence = hs.fence := by
  unfold setStage; split <;> rfl

variable {hs : HostState}

theorem holds_congr {hs' : HostState} (h : hs'.slots.get id = hs.slots.get id) :
    hs'.Holds id ↔ hs.Holds id := by
  rw [Holds, Holds, h]

theorem not_holds_of_stage {stage : Stage} (h : hs.stageOf id = some stage)
    (hne : stage ≠ .creating) : ¬ hs.Holds id := by
  unfold stageOf at h
  unfold Holds
  split at h
  · rename_i r hr
    simp only [Option.some.injEq] at h
    rw [hr]
    exact fun hc => hne (h.symm.trans hc)
  · simp at h

/-- Moving the promise for `id` changes no other slot, and no slot's phase. -/
theorem setStage_slots_get (hs : HostState) (id j : String) (stage : Stage) :
    (hs.setStage id stage).slots.get j =
      match hs.slots.get j with
      | some (.activating r) =>
        some (.activating (if j = id then { r with stage := stage } else r))
      | other => other := by
  have hother : j ≠ id → (hs.setStage id stage).slots.get j = hs.slots.get j := by
    intro hj
    unfold setStage
    split
    · simp [JsMap.get_set, hj]
    · rfl
  by_cases hj : j = id
  · subst hj
    unfold setStage
    split
    · simp
    · rfl
  · rw [hother hj]
    split
    · rename_i r hr
      simp [hr, hj]
    · rfl

theorem setStage_get_of_ne {j : String} {stage : Stage} (hj : j ≠ id) :
    (hs.setStage id stage).slots.get j = hs.slots.get j := by
  rw [setStage_slots_get]
  split
  · rename_i r hr
    rw [if_neg hj, hr]
  · rfl

theorem stageOf_setStage (hs : HostState) (id j : String) (stage : Stage) :
    (hs.setStage id stage).stageOf j =
      if j = id then (hs.stageOf id).map (fun _ => stage) else hs.stageOf j := by
  unfold stageOf
  rw [setStage_slots_get]
  by_cases hj : j = id
  · subst hj
    cases hs.slots.get j with
    | none => simp
    | some slot => cases slot <;> simp
  · rw [if_neg hj]
    cases hs.slots.get j with
    | none => rfl
    | some slot => cases slot <;> simp [hj]

end HostState

namespace ClaimState

theorem onHost_hosts (s : ClaimState) (h k : String) (f : HostState → HostState) :
    (s.onHost h f).hosts k = if k = h then f (s.hosts k) else s.hosts k := rfl

theorem stageAt_setStage (s : ClaimState) (h id k j : String) (stage : Stage) :
    (s.onHost h (·.setStage id stage)).stageAt k j =
      if k = h ∧ j = id then (s.stageAt h id).map (fun _ => stage) else s.stageAt k j := by
  unfold stageAt
  rw [onHost_hosts]
  by_cases hk : k = h
  · subst hk
    simp [HostState.stageOf_setStage]
  · simp [hk]

theorem stageAt_onHost (s : ClaimState) (h k j : String) (f : HostState → HostState) :
    (s.onHost h f).stageAt k j = if k = h then (f (s.hosts h)).stageOf j else s.stageAt k j := by
  unfold stageAt
  rw [onHost_hosts]
  by_cases hk : k = h
  · subst hk; simp
  · simp [hk]

theorem claimedAt_onHost (s : ClaimState) (h k j : String) (f : HostState → HostState) :
    (s.onHost h f).claimedAt k j =
      if k = h then (f (s.hosts h)).claimed.get j else s.claimedAt k j := by
  unfold claimedAt
  rw [onHost_hosts]
  by_cases hk : k = h
  · subst hk; simp
  · simp [hk]

@[simp] theorem claimedAt_setStage (s : ClaimState) (h id k j : String) (stage : Stage) :
    (s.onHost h (·.setStage id stage)).claimedAt k j = s.claimedAt k j := by
  rw [claimedAt_onHost]
  by_cases hk : k = h
  · rw [if_pos hk, HostState.setStage_claimed, hk, claimedAt]
  · rw [if_neg hk]

@[simp] theorem seq_setStage (s : ClaimState) (h id k : String) (stage : Stage) :
    ((s.onHost h (·.setStage id stage)).hosts k).seq = (s.hosts k).seq := by
  rw [onHost_hosts]
  split <;> simp

theorem slotAt_of_stageAt {s : ClaimState} {h : String} {stage : Stage}
    (hstage : s.stageAt h id = some stage) :
    ∃ ref, s.slotAt h id = some (.activating ⟨ref, stage⟩) := by
  unfold stageAt HostState.stageOf at hstage
  unfold slotAt
  split at hstage
  · rename_i r hr
    simp only [Option.some.injEq] at hstage
    exact ⟨r.ref, by rw [hr, ← hstage]⟩
  · simp at hstage

/-- Reserving a slot starts one attempt. -/
theorem stageOf_reserve (hs : HostState) (ref : ActorRef) (stage : Stage) (j : String) :
    (hs.reserve ref stage).stageOf j =
      if j = actorId ref then some stage else hs.stageOf j := by
  by_cases hj : j = actorId ref
  · simp [HostState.stageOf, HostState.reserve, hj]
  · simp [HostState.stageOf, HostState.reserve, JsMap.get_set, hj]

theorem stageAt_drop (s : ClaimState) (h id k j : String) :
    (s.onHost h (·.drop id)).stageAt k j = if k = h ∧ j = id then none else s.stageAt k j := by
  rw [stageAt_onHost]
  by_cases hk : k = h
  · by_cases hj : j = id
    · simp [HostState.stageOf, HostState.drop, hk, hj]
    · simp [HostState.stageOf, HostState.drop, JsMap.get_erase, hk, hj, stageAt]
  · simp [hk]

theorem claimedAt_drop (s : ClaimState) (h id k j : String) :
    (s.onHost h (·.drop id)).claimedAt k j = if k = h ∧ j = id then none else s.claimedAt k j := by
  rw [claimedAt_onHost]
  by_cases hk : k = h
  · by_cases hj : j = id
    · simp [HostState.drop, hk, hj]
    · simp [HostState.drop, hk, hj, JsMap.get_erase, claimedAt]
  · simp [hk]

/-- A removal is noted exactly when the compare-and-delete hits. -/
theorem mem_removedBy {directory : ActorDirectory} {e : DirectoryEntry}
    {r : Removal} (hr : r ∈ removedBy directory id e) :
    r.issuedFor = e ∧ directory.get id = some r.removed ∧
      r.removed.activationId = e.activationId := by
  unfold removedBy at hr
  cases hget : directory.get id with
  | none => simp [hget] at hr
  | some entry =>
    simp only [hget] at hr
    by_cases hact : entry.activationId = e.activationId
    · rw [if_pos hact, List.mem_singleton] at hr
      subst hr
      exact ⟨rfl, rfl, hact⟩
    · simp [hact] at hr

end ClaimState

/-! ## What each step of an attempt does -/

/-- The entry a suspended activation claims with. -/
def Stage.mine : Stage → Option DirectoryEntry
  | .claiming mine _ _ | .evicting mine _ _ => some mine
  | .creating | .failed => none

/-- `t` differs from `s` in the attempt of `h` for `id`, which moved from `old` to
`new`; what it did to the directory, to the claims listed and to the removals is
said apart. -/
structure Moves (s t : ClaimState) (h id : String) (old new : Stage) : Prop where
  from_old : s.stageAt h id = some old
  stage : ∀ k j, t.stageAt k j = if k = h ∧ j = id then some new else s.stageAt k j
  seq : ∀ k, (t.hosts k).seq = (s.hosts k).seq
  releases : t.releases = s.releases
  evictions : t.evictions = s.evictions
  evicted : t.evicted = s.evicted
  mine : new.mine = none ∨ new.mine = old.mine

theorem Moves.of_setStage {s : ClaimState} {h : String} {old : Stage} (new : Stage)
    (hold : s.stageAt h id = some old) (hmine : new.mine = none ∨ new.mine = old.mine) :
    Moves s (s.onHost h (·.setStage id new)) h id old new where
  from_old := hold
  stage := by
    intro k j
    rw [ClaimState.stageAt_setStage, hold]
    rfl
  seq := fun k => ClaimState.seq_setStage s h id k new
  releases := rfl
  evictions := rfl
  evicted := rfl
  mine := hmine

namespace ClaimState

variable {s t : ClaimState} {h id : String}

theorem execClaim_cases (hstep : s.execClaim h id = some t) : ∃ mine retried,
      Moves s t h id (.claiming mine retried .sent)
        (.claiming mine retried (.answered (s.directory.claim id mine).1)) ∧
      t.directory = (s.directory.claim id mine).2 ∧
      (∀ k j, t.claimedAt k j = s.claimedAt k j) ∧
      t.removals = s.removals ∧ t.refusals = s.refusals := by
  unfold ClaimState.execClaim at hstep
  split at hstep <;> cases hstep
  rename_i mine retried hsent
  exact ⟨mine, retried, { Moves.of_setStage (.claiming mine retried
    (.answered (s.directory.claim id mine).1)) hsent (Or.inr rfl) with }, rfl,
    fun k j => claimedAt_setStage s h id k j _, rfl, rfl⟩

/-- The claim's answer is met in one of three ways: this host's own ghost is
reclaimed, the attempt is refused, or the claim is recorded. -/
theorem claimReply_cases (hstep : s.claimReply h id = some t) : ∃ mine retried winner,
      s.stageAt h id = some (.claiming mine retried (.answered winner)) ∧
      t.directory = s.directory ∧ t.removals = s.removals ∧
      ((winner.activationId ≠ mine.activationId ∧
          (retried = false ∧ winner.hostId = h ∧ s.claimedAt h id = none) ∧
          Moves s t h id (.claiming mine retried (.answered winner)) (.evicting mine winner .sent) ∧
          (∀ k j, t.claimedAt k j = s.claimedAt k j) ∧ t.refusals = s.refusals) ∨
        (winner.activationId ≠ mine.activationId ∧
          ¬ (retried = false ∧ winner.hostId = h ∧ s.claimedAt h id = none) ∧
          Moves s t h id (.claiming mine retried (.answered winner)) .failed ∧
          (∀ k j, t.claimedAt k j = s.claimedAt k j) ∧
          t.refusals = ⟨h, id, winner⟩ :: s.refusals) ∨
        (winner.activationId = mine.activationId ∧
          Moves s t h id (.claiming mine retried (.answered winner)) .creating ∧
          (∀ k j, t.claimedAt k j = if k = h ∧ j = id then some mine else s.claimedAt k j) ∧
          t.refusals = s.refusals)) := by
  have hhas : (s.hosts h).claimed.has id = false ↔ s.claimedAt h id = none := by
    simp [JsMap.has, claimedAt]
  unfold ClaimState.claimReply at hstep
  split at hstep
  · rename_i mine retried winner hanswered
    refine ⟨mine, retried, winner, hanswered, ?_⟩
    split at hstep
    · rename_i hne
      split at hstep <;> cases hstep
      · rename_i hghost
        rw [hhas] at hghost
        exact ⟨rfl, rfl, Or.inl ⟨hne, hghost, .of_setStage _ hanswered (Or.inr rfl),
          fun k j => claimedAt_setStage s h id k j _, rfl⟩⟩
      · rename_i hghost
        rw [hhas] at hghost
        exact ⟨rfl, rfl, Or.inr (Or.inl ⟨hne, hghost,
          { Moves.of_setStage .failed hanswered (Or.inl rfl) with },
          fun k j => claimedAt_setStage s h id k j _, rfl⟩)⟩
    · rename_i hact
      cases hstep
      refine ⟨rfl, rfl, Or.inr (Or.inr ⟨Classical.not_not.mp hact,
        ⟨hanswered, ?_, ?_, rfl, rfl, rfl, Or.inl rfl⟩, ?_, rfl⟩)⟩
      · intro k j
        rw [← (Moves.of_setStage .creating hanswered (Or.inl rfl)).stage k j,
          stageAt_onHost, stageAt_onHost]
        rfl
      · intro k
        rw [← seq_setStage s h id k .creating, onHost_hosts, onHost_hosts]
        split <;> rfl
      · intro k j
        rw [claimedAt_onHost]
        by_cases hk : k = h
        · by_cases hj : j = id
          · simp [hk, hj]
          · simp [hk, hj, JsMap.get_set, claimedAt]
        · simp [hk]
  · cases hstep

theorem execEvict_cases (hstep : s.execEvict h id = some t) : ∃ mine winner,
      Moves s t h id (.evicting mine winner .sent) (.evicting mine winner (.answered ())) ∧
      t.directory = s.directory.release id winner ∧
      (∀ k j, t.claimedAt k j = s.claimedAt k j) ∧
      t.removals = removedBy s.directory id winner ++ s.removals ∧ t.refusals = s.refusals := by
  unfold ClaimState.execEvict at hstep
  split at hstep <;> cases hstep
  rename_i mine winner hsent
  exact ⟨mine, winner, { Moves.of_setStage (.evicting mine winner (.answered ()))
      hsent (Or.inr rfl) with },
    ActorDirectory.evict_snd _ _ _, fun k j => claimedAt_setStage s h id k j _, rfl, rfl⟩

theorem evictReply_cases (hstep : s.evictReply h id = some t) : ∃ mine winner,
      Moves s t h id (.evicting mine winner (.answered ())) (.claiming mine true .sent) ∧
      t.directory = s.directory ∧ (∀ k j, t.claimedAt k j = s.claimedAt k j) ∧
      t.removals = s.removals ∧ t.refusals = s.refusals := by
  unfold ClaimState.evictReply at hstep
  split at hstep <;> cases hstep
  rename_i mine winner u hanswered
  exact ⟨mine, winner, .of_setStage _ hanswered (Or.inr rfl), rfl,
    fun k j => claimedAt_setStage s h id k j _, rfl, rfl⟩

end ClaimState

/-- A reservation that passed the fence check: the claim goes out under a fresh
activation id. -/
structure Reserves (s t : ClaimState) (h id : String) (mine : DirectoryEntry) : Prop where
  own : mine.hostId = h
  fresh : mine.activationId.hostId = h ∧ mine.activationId.seq = (s.hosts h).seq + 1
  seq : ∀ k, (t.hosts k).seq = if k = h then (s.hosts h).seq + 1 else (s.hosts k).seq
  stage : ∀ k j, t.stageAt k j =
    if k = h ∧ j = id then some (.claiming mine false .sent) else s.stageAt k j
  claimed : ∀ k j, t.claimedAt k j = s.claimedAt k j
  directory : t.directory = s.directory
  releases : t.releases = s.releases
  evictions : t.evictions = s.evictions
  evicted : t.evicted = s.evicted
  removals : t.removals = s.removals
  refusals : t.refusals = s.refusals

namespace ClaimState

theorem reserves (s : ClaimState) (cfg : ClusterConfig) (h : String) (ref : ActorRef) :
    let mine : DirectoryEntry :=
      { hostId := h, activationId := ⟨h, cfg.epoch h, (s.hosts h).seq + 1⟩ }
    Reserves s (s.onHost h fun hs =>
      { hs.reserve ref (.claiming mine false .sent) with seq := hs.seq + 1 }) h (actorId ref)
      mine where
  own := rfl
  fresh := ⟨rfl, rfl⟩
  seq := by
    intro k
    rw [onHost_hosts]
    by_cases hk : k = h
    · rw [if_pos hk, if_pos hk, hk]
    · rw [if_neg hk, if_neg hk]
  stage := by
    intro k j
    rw [stageAt_onHost]
    by_cases hk : k = h
    · rw [if_pos hk]
      refine (stageOf_reserve (s.hosts h) ref _ j).trans ?_
      simp [hk, stageAt]
    · simp [hk]
  claimed := by
    intro k j
    rw [claimedAt_onHost]
    by_cases hk : k = h
    · rw [if_pos hk, hk, claimedAt]
      rfl
    · rw [if_neg hk]
  directory := rfl
  releases := rfl
  evictions := rfl
  evicted := rfl
  removals := rfl
  refusals := rfl

/-- An activation starts in one of two ways: it fails at the fence check, or it
reserves. -/
theorem activate_cases {cfg : ClusterConfig} {s t : ClaimState} {h : String} {ref : ActorRef}
    (hstep : s.activate cfg h ref = some t) :
    s.slotAt h (actorId ref) = none ∧
      ref.type ∈ (cfg.registered h).map (·.name) ∧
      (((s.hosts h).fence.isFenced = true ∧ t = s.onHost h (·.reserve ref .failed)) ∨
        ((s.hosts h).fence.isFenced = false ∧ ∃ mine, Reserves s t h (actorId ref) mine ∧
          t = s.onHost h fun hs =>
            { hs.reserve ref (.claiming mine false .sent) with seq := hs.seq + 1 })) := by
  unfold ClaimState.activate at hstep
  simp only at hstep
  split at hstep
  · cases hstep
  rename_i hfree
  split at hstep
  · cases hstep
  rename_i htype
  refine ⟨by simpa [JsMap.has, slotAt] using hfree, by simpa using htype, ?_⟩
  split at hstep <;> cases hstep
  · rename_i hfenced
    exact Or.inl ⟨hfenced, rfl⟩
  · rename_i hfenced
    exact Or.inr ⟨by simpa using hfenced, _, s.reserves cfg h ref, rfl⟩

end ClaimState

/-! ## The machine -/

/-- The events of a cluster of hosts. -/
inductive ClaimLabel where
  | activate (h : String) (ref : ActorRef)
  | execClaim (h id : String)
  | claimReply (h id : String)
  | execEvict (h id : String)
  | evictReply (h id : String)
  | directoryFails (h id : String)
  | created (h id : String)
  | createFails (h id : String)
  | dropFailed (h id : String)
  | deactivate (h id : String)
  | drained (h id : String)
  | execRelease (n : Nat)
  | loseRelease (n : Nat)
  | issueEvict (id : String)
  | execEviction (n : Nat)
  | evictHost (hostId : String)
  | selfSuspect (h : String)
  | fenceDecide (h : String)
  | fenceScan (h : String)
  | fenceEnd (h : String)
  deriving DecidableEq, Repr

/-- One event. -/
def ClaimState.step (cfg : ClusterConfig) (s : ClaimState) : ClaimLabel → Option ClaimState
  | .activate h ref => s.activate cfg h ref
  | .execClaim h id => s.execClaim h id
  | .claimReply h id => s.claimReply h id
  | .execEvict h id => s.execEvict h id
  | .evictReply h id => s.evictReply h id
  | .directoryFails h id => s.directoryFails h id
  | .created h id => s.created h id
  | .createFails h id => s.createFails h id
  | .dropFailed h id => s.dropFailed h id
  | .deactivate h id => s.deactivate h id
  | .drained h id => s.drained h id
  | .execRelease n => s.execRelease n
  | .loseRelease n => s.loseRelease n
  | .issueEvict id => s.issueEvict id
  | .execEviction n => s.execEviction n
  | .evictHost hostId => some (s.evictHost hostId)
  | .selfSuspect h => s.selfSuspect h
  | .fenceDecide h => s.fenceDecide cfg h
  | .fenceScan h => s.fenceScan h
  | .fenceEnd h => s.fenceEnd h

/-- The hosts of one cluster, from an empty directory. -/
def claims (cfg : ClusterConfig) : Machine.System ClaimState ClaimLabel where
  initial := fun s => s = .initial
  step := ClaimState.step cfg

/-! ## A cluster for concrete runs -/

def cartType : ActorType := ⟨"Cart", by decide, by decide⟩

/-- Every host registers `Cart`. -/
def cartCluster : ClusterConfig := { epoch := fun _ => 1, registered := fun _ => [cartType] }

end SigxActors.Cluster
