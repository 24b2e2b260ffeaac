/-
  Kubernetes/ListWatch.lean --- the loop that lists, and then watches.

  Source: `listWatchLoop` of `packages/actors-k8s/src/watch.ts`, and its target in
  `membership.ts`.

  The API server has had a series of changes; a resource version is how many.  A LIST
  answers with what they have made of the leases at some moment while it is under way, and
  a watch sends those behind its version, one after the other.

  An aborted request fails, unless its answer is in already.  Left out are bookmarks, which
  change nothing here, and how long a wait is.
-/
import SigxActors.Js.Map
import SigxActors.Machine.Transition

set_option autoImplicit false

namespace SigxActors.Kubernetes

open SigxActors.Js

/-- An event: `ADDED` and `MODIFIED` have a lease, `DELETED` has none. -/
structure Change (L : Type) where
  name : String
  lease : Option L
  deriving DecidableEq, Repr

/-- How a `relist()` has settled. -/
inductive Relisted where
  /-- With a LIST. -/
  | landed (list : Nat)
  | failed
  | stopped
  deriving DecidableEq, Repr

/-- A call of `relist()`. -/
structure Relist where
  /-- How many LISTs had been issued. -/
  calledAt : Nat
  outcome : Option Relisted := none
  deriving DecidableEq, Repr

inductive Phase where
  /-- `start()` has not been called. -/
  | idle
  /-- A LIST is under way; it has been served at a version, or not yet. -/
  | listing (list : Nat) (served : Option Nat)
  /-- Its answer is in. -/
  | answered (list : Nat) (served : Nat)
  /-- It has been applied, and the loop is about to resume. -/
  | applied (list : Nat) (served : Nat)
  /-- A watch is being opened. -/
  | connecting
  /-- How far it has come, and how many events have arrived and not been applied. -/
  | streaming (seen : Nat) (buffered : Nat)
  | waiting
  | done
  deriving DecidableEq, Repr

structure ListWatch (L : Type) where
  /-- What has happened at the API server. -/
  log : List (Change L) := []
  /-- The target's. -/
  leases : JsMap String L := .empty
  stopped : Bool := false
  /-- The controller of this cycle. -/
  aborted : Bool := false
  forceList : Bool := false
  /-- `resourceVersion`; none for ''. -/
  resourceVersion : Option Nat := none
  phase : Phase := .idle
  /-- The LISTs that have been issued. -/
  lists : Nat := 0
  relists : List Relist := []
  /-- The LISTs that have been applied. -/
  landed : List Nat := []
  /-- The versions that have been applied, one after the other. -/
  applied : List Nat := []
  /-- Those that were applied after `stop()`. -/
  late : List Nat := []

/-- One change of the target's map: `apply`. -/
def applyChange {L : Type} (leases : JsMap String L) (change : Change L) : JsMap String L :=
  match change.lease with
  | some lease => leases.set change.name lease
  | none => leases.erase change.name

/-- What the API server holds at a version. -/
def snapshot {L : Type} (log : List (Change L)) (version : Nat) : JsMap String L :=
  (log.take version).foldl applyChange .empty

namespace ListWatch

variable {L : Type} (s : ListWatch L)

/-- `settleWaiters`. -/
def settleWaiters (outcome : Relisted) : ListWatch L :=
  { s with
    relists := s.relists.map fun r =>
      { r with outcome := r.outcome.or (some outcome) } }

/-- The loop comes round. -/
def turn : ListWatch L :=
  if s.stopped then { s with phase := .done }
  else
    let resourceVersion := if s.forceList then none else s.resourceVersion
    let s := { s with aborted := false, forceList := false, resourceVersion := resourceVersion }
    match resourceVersion with
    | none => { s with phase := .listing s.lists none, lists := s.lists + 1 }
    | some _ => { s with phase := .connecting }

/-- The cycle has thrown. -/
def caught (gone : Bool) : ListWatch L :=
  if s.stopped then { s.settleWaiters .stopped with phase := .done }
  else if s.forceList then s.turn
  else if gone then { s with resourceVersion := none }.turn
  else { s.settleWaiters .failed with phase := .waiting }

/-- The target has a version. -/
def land (leases : JsMap String L) (version : Nat) : ListWatch L :=
  { s with
    leases := leases
    applied := s.applied ++ [version]
    late := if s.stopped then s.late ++ [version] else s.late }

inductive Label (L : Type) where
  /-- Something happens at the API server. -/
  | change (change : Change L)
  | start
  | stop
  | relist
  /-- The LIST is served. -/
  | serve
  /-- Its answer is in. -/
  | answer
  | replaceAll
  | resume
  /-- The watch is open. -/
  | connected
  /-- An event arrives. -/
  | arrive
  | apply
  /-- The stream ends. -/
  | end_
  /-- What is under way fails; `gone` is 410. -/
  | fail (gone : Bool)
  /-- The wait is over. -/
  | wake

def step : Label L → Option (ListWatch L)
  | .change change => some { s with log := s.log ++ [change] }
  | .start => if s.phase = .idle then some s.turn else none
  | .stop => some { s.settleWaiters .stopped with stopped := true, aborted := true }
  | .relist =>
      if s.stopped then
        some { s with relists := s.relists ++ [⟨s.lists, some .stopped⟩] }
      else
        some { s with relists := s.relists ++ [⟨s.lists, none⟩], forceList := true, aborted := true }
  | .serve =>
      match s.phase with
      | .listing list none => some { s with phase := .listing list (some s.log.length) }
      | _ => none
  | .answer =>
      match s.phase with
      | .listing list (some served) =>
          if s.aborted then none else some { s with phase := .answered list served }
      | _ => none
  | .replaceAll =>
      match s.phase with
      | .answered list served =>
          let items := (snapshot s.log served).entries
          some
            { s.land (JsMap.empty.setAll items) served with
              phase := .applied list served, landed := s.landed ++ [list] }
      | _ => none
  | .resume =>
      match s.phase with
      | .applied list served =>
          let s := { s with resourceVersion := some served }.settleWaiters (.landed list)
          some (if s.forceList || s.aborted then s.turn else { s with phase := .connecting })
      | _ => none
  | .connected =>
      match s.phase, s.resourceVersion with
      | .connecting, some version =>
          if s.aborted then none else some { s with phase := .streaming version 0 }
      | _, _ => none
  | .arrive =>
      match s.phase with
      | .streaming seen buffered =>
          if s.aborted || s.log.length ≤ seen + buffered then none
          else some { s with phase := .streaming seen (buffered + 1) }
      | _ => none
  | .apply =>
      match s.phase with
      | .streaming seen (buffered + 1) =>
          (s.log[seen]?).map fun change =>
            { s.land (applyChange s.leases change) (seen + 1) with
              phase := .streaming (seen + 1) buffered }
      | _ => none
  | .end_ =>
      match s.phase with
      | .streaming seen 0 => some { s with resourceVersion := some seen }.turn
      | _ => none
  | .fail gone =>
      match s.phase with
      | .listing _ _ => if gone then none else some (s.caught false)
      | .connecting => some (s.caught gone)
      | .streaming _ 0 => some (s.caught gone)
      | _ => none
  | .wake => if s.phase = .waiting then some s.turn else none

/-- The loop has been built. -/
def initial (s : ListWatch L) : Prop := ∃ log, s = { log := log }

end ListWatch

/-- The machine of one loop. -/
def listWatchLoop (L : Type) : Machine.System (ListWatch L) (ListWatch.Label L) where
  initial := ListWatch.initial
  step := ListWatch.step

end SigxActors.Kubernetes
