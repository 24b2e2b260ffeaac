/-
  Cluster/Coalesce.lean --- the refresh coalescer.

  Source: `packages/actors/src/cluster/coalesce.ts`.

  A flight is a call of `refresh`; it is numbered by when it was started, and `α` is
  how one settles, with a view or with a rejection.  The view's version is the
  provider's and may change at any time.  Hints and demands are kept with how many
  flights had been started when they were made: no step reads that.
-/
import SigxActors.Machine.Transition

set_option autoImplicit false

namespace SigxActors.Cluster

/-- `Trailing`. -/
structure Trailing where
  versionless : Bool := false
  /-- None for minus infinity. -/
  maxVersion : Option Int := none
  /-- The demands that wait. -/
  waiters : List Nat := []
  deriving DecidableEq, Repr

/-- A hint that was noted. -/
structure Hint where
  version : Option Int
  /-- How many flights had been started. -/
  madeAt : Nat
  /-- The view has been at its version since. -/
  seen : Bool
  deriving DecidableEq, Repr

/-- A demand, from the call on. -/
structure Demand (α : Type) where
  madeAt : Nat
  /-- The flight that it follows. -/
  flight : Option Nat := none
  outcome : Option α := none
  deriving DecidableEq, Repr

structure Coalescer (α : Type) where
  inFlight : Option Nat := none
  trailing : Option Trailing := none
  /-- A quiet timer is armed. -/
  quiet : Bool := false
  settleWaiters : Nat := 0
  /-- `version()`. -/
  version : Int := 0
  /-- How each flight has settled, if it has. -/
  flights : List (Option α) := []
  hints : List Hint := []
  demands : List (Demand α) := []
  /-- Whether it was idle when a `settled()` was resolved. -/
  settled : List Bool := []

namespace Coalescer

variable {α : Type} (quietMs : Nat) (s : Coalescer α)

/-- Nothing is in flight or pending. -/
def idle : Bool := s.inFlight.isNone && s.trailing.isNone

/-- `notifySettled`. -/
def notifySettled : Coalescer α :=
  if s.idle then
    { s with settleWaiters := 0, settled := s.settled ++ List.replicate s.settleWaiters s.idle }
  else s

/-- `start`. -/
def start : Coalescer α :=
  { s with inFlight := some s.flights.length, flights := s.flights ++ [none] }

/-- The waiters follow a flight. -/
def follow (waiters : List Nat) (flight : Nat) : Coalescer α :=
  { s with
    demands := s.demands.mapIdx fun k d => if k ∈ waiters then { d with flight := some flight } else d }

/-- The trailing run is due. -/
def due (pending : Trailing) : Bool :=
  !pending.waiters.isEmpty || pending.versionless || pending.maxVersion.any (s.version < ·)

/-- `runTrailing`. -/
def runTrailing : Coalescer α :=
  let s := { s with quiet := false }
  match s.trailing with
  | none => s.notifySettled
  | some pending =>
      let s := { s with trailing := none }
      if s.due pending then s.start.follow pending.waiters s.flights.length else s.notifySettled

/-- `onFlightSettled`. -/
def onFlightSettled : Coalescer α :=
  let s := { s with inFlight := none }
  match s.trailing with
  | none => s.notifySettled
  | some _ => if quietMs > 0 then { s with quiet := true } else s.runTrailing

/-- The flight settles, and so do the demands that follow it. -/
def complete (flight : Nat) (outcome : α) : Coalescer α :=
  let demands := s.demands.map fun d : Demand α =>
    if d.flight = some flight then { d with outcome := some outcome } else d
  onFlightSettled quietMs
    { s with flights := s.flights.set flight (some outcome), demands := demands }

/-- The hint is taken up by the trailing run. -/
def join (noted : Option Int) (pending : Trailing) : Trailing :=
  match noted with
  | none => { pending with versionless := true }
  | some v =>
      if pending.maxVersion.all (· < v) then { pending with maxVersion := some v } else pending

/-- `note`. -/
def note (noted : Option Int) : Coalescer α :=
  let seen := noted.any (· ≤ s.version)
  let s := { s with hints := s.hints ++ [⟨noted, s.flights.length, seen⟩] }
  if seen then s
  else if s.idle then s.start
  else { s with trailing := some (join noted (s.trailing.getD {})) }

/-- `demand`. -/
def demand : Coalescer α :=
  let k := s.demands.length
  let made := s.flights.length
  if s.idle then
    { s.start with demands := s.demands ++ [{ madeAt := made, flight := some made }] }
  else
    let pending := s.trailing.getD {}
    let s :=
      { s with
        demands := s.demands ++ [{ madeAt := made }]
        trailing := some { pending with waiters := pending.waiters ++ [k] } }
    if s.inFlight.isNone && s.quiet then s.runTrailing else s

/-- `settled`. -/
def awaitSettled : Coalescer α :=
  if s.idle then { s with settled := s.settled ++ [true] }
  else { s with settleWaiters := s.settleWaiters + 1 }

/-- The provider has another version of the view. -/
def view (version : Int) : Coalescer α :=
  { s with
    version := version
    hints := s.hints.map fun h => { h with seen := h.seen || h.version.any (· ≤ version) } }

end Coalescer

inductive CoalescerLabel (α : Type) where
  | note (version : Option Int)
  | demand
  | settled
  | complete (outcome : α)
  /-- The quiet timer fires. -/
  | fire
  | view (version : Int)

/-- One step. -/
def Coalescer.step {α : Type} (quietMs : Nat) (s : Coalescer α) :
    CoalescerLabel α → Option (Coalescer α)
  | .note version => some (s.note version)
  | .demand => some s.demand
  | .settled => some s.awaitSettled
  | .complete outcome => s.inFlight.map fun flight => s.complete quietMs flight outcome
  | .fire => if s.quiet then some s.runTrailing else none
  | .view version => some (s.view version)

/-- The machine of a coalescer. -/
def refreshCoalescer (α : Type) (quietMs : Nat) :
    Machine.System (Coalescer α) (CoalescerLabel α) where
  initial s := ∃ version, s = { version := version }
  step s l := s.step quietMs l

end SigxActors.Cluster
