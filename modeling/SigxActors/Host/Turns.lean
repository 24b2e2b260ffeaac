/-
  Host/Turns.lean --- the turns of one activation.

  Source: `packages/actors/src/host/turns.ts` (`Turns`, `TurnLoad`).

  Every promise reaction is a step of its own.  A serial turn is three promises:
  its start is chained on the tail it found, its settlement does the bookkeeping,
  and the tail that the next serial turn finds resolves after that.  An interleaved
  turn starts on its own microtask, its promise settles with its body, and a guard
  does the bookkeeping behind that.  Enabled reactions may run in any order, so the
  order of the microtask queue is one of those considered.

  Turns are numbered by the order of the `run` calls, refused ones included.  The
  order of the starts and the moment of the first `close` are history, which no step
  reads.
-/
import SigxActors.Machine.Transition

set_option autoImplicit false

namespace SigxActors.Host

/-! ## Turns -/

/-- How far a turn is.  The body has been fulfilled or rejected from `ended` on. -/
inductive TurnStage where
  /-- Chained on what it waits for. -/
  | scheduled
  | running
  | ended (fulfilled : Bool)
  /-- The bookkeeping is done; for a serial turn the caller's promise settles with
  it, and for an interleaved one its guard. -/
  | settled (fulfilled : Bool)
  /-- The tail behind a serial turn has resolved. -/
  | passed (fulfilled : Bool)
  /-- The turns were closed. -/
  | refused
  deriving DecidableEq, Repr

namespace TurnStage

/-- Queued or running, as `depth` counts. -/
def Unsettled : TurnStage → Prop
  | .scheduled | .running | .ended _ => True
  | _ => False

instance (stage : TurnStage) : Decidable stage.Unsettled := by
  unfold Unsettled
  split <;> infer_instance

/-- Its body has been called. -/
def Started : TurnStage → Prop
  | .scheduled | .refused => False
  | _ => True

instance (stage : TurnStage) : Decidable stage.Started := by
  unfold Started
  split <;> infer_instance

end TurnStage

/-- One turn. -/
structure Turn where
  interleave : Bool
  /-- The serial turn whose tail it is chained on, if there was one. -/
  behind : Option Nat
  stage : TurnStage
  deriving DecidableEq, Repr

namespace Turn

/-- A turn of the serial lane that was not refused. -/
def Serial (turn : Turn) : Prop := turn.interleave = false ∧ turn.stage ≠ .refused

instance (turn : Turn) : Decidable turn.Serial :=
  inferInstanceAs (Decidable (_ ∧ _))

/-- The promise that `run` returned is pending. -/
def Pending (turn : Turn) : Prop :=
  match turn.stage with
  | .scheduled | .running => True
  | .ended _ => turn.interleave = false
  | _ => False

instance (turn : Turn) : Decidable turn.Pending := by
  unfold Pending
  split <;> infer_instance

end Turn

/-- Where a `drain` is, with the tail and the interleaved turns it has read. -/
inductive DrainPhase where
  /-- `await tail`. -/
  | tail (tail : Option Nat) (inflight : List Nat)
  /-- `await Promise.all(inflight)`. -/
  | guards (tail : Option Nat) (inflight : List Nat)
  | resolved
  deriving DecidableEq, Repr

/-- One call of `drain`. -/
structure Drain where
  /-- How many turns had been scheduled when it was called. -/
  covered : Nat
  phase : DrainPhase
  deriving DecidableEq, Repr

structure Turns where
  turns : List Turn := []
  /-- `#tail`: the last serial turn. -/
  tail : Option Nat := none
  /-- `#inflight`: the interleaved turns whose guards are pending. -/
  inflight : List Nat := []
  depth : Nat := 0
  closed : Bool := false
  /-- A `TurnLoad` was given. -/
  loaded : Bool := false
  drains : List Drain := []
  /-- The turns whose bodies have been called, in that order. -/
  started : List Nat := []
  /-- How many turns there were at the first `close`. -/
  closedAt : Option Nat := none
  deriving DecidableEq, Repr

namespace Turns

/-- Turn `n` moves on. -/
def setStage (t : Turns) (n : Nat) (turn : Turn) (stage : TurnStage) : Turns :=
  { t with turns := t.turns.set n { turn with stage := stage } }

/-- The promise that a serial turn is chained on has resolved. -/
def TailResolved (t : Turns) : Option Nat → Prop
  | none => True
  | some k =>
      match t.turns[k]? with
      | some ⟨_, _, .passed _⟩ => True
      | _ => False

instance (t : Turns) (k : Option Nat) : Decidable (t.TailResolved k) := by
  unfold TailResolved
  split
  · infer_instance
  · split <;> infer_instance

/-- The guard of an interleaved turn has resolved. -/
def GuardResolved (t : Turns) (n : Nat) : Prop :=
  match t.turns[n]? with
  | some ⟨_, _, .settled _⟩ => True
  | _ => False

instance (t : Turns) (n : Nat) : Decidable (t.GuardResolved n) := by
  unfold GuardResolved
  split <;> infer_instance

/-- `run`, with the shared load. -/
def run (load : Nat) (t : Turns) (interleave : Bool) : Nat × Turns :=
  if t.closed then
    (load, { t with turns := t.turns ++ [⟨interleave, none, .refused⟩] })
  else
    let t := { t with depth := t.depth + 1 }
    let load := if t.loaded then load + 1 else load
    if interleave then
      (load, { t with
        turns := t.turns ++ [⟨true, none, .scheduled⟩]
        inflight := t.inflight ++ [t.turns.length] })
    else
      (load, { t with
        turns := t.turns ++ [⟨false, t.tail, .scheduled⟩]
        tail := some t.turns.length })

/-- The body of a turn is called. -/
def start (t : Turns) (n : Nat) : Option Turns :=
  match t.turns[n]? with
  | some turn =>
      if turn.stage = .scheduled ∧ t.TailResolved turn.behind then
        some { t.setStage n turn .running with started := t.started ++ [n] }
      else none
  | none => none

/-- The promise of a body settles. -/
def finish (t : Turns) (n : Nat) (fulfilled : Bool) : Option Turns :=
  match t.turns[n]? with
  | some turn =>
      if turn.stage = .running then some (t.setStage n turn (.ended fulfilled)) else none
  | none => none

/-- The bookkeeping of a turn: the settlement of a serial one, or the guard of an
interleaved one. -/
def settle (load : Nat) (t : Turns) (n : Nat) : Option (Nat × Turns) :=
  match t.turns[n]? with
  | some turn =>
      match turn.stage with
      | .ended fulfilled =>
          some (if t.loaded then load - 1 else load,
            { t.setStage n turn (.settled fulfilled) with
              depth := t.depth - 1
              inflight := if turn.interleave then t.inflight.erase n else t.inflight })
      | _ => none
  | none => none

/-- The tail behind a serial turn resolves, whatever became of the turn. -/
def pass (t : Turns) (n : Nat) : Option Turns :=
  match t.turns[n]? with
  | some turn =>
      match turn.stage with
      | .settled fulfilled =>
          if turn.interleave then none else some (t.setStage n turn (.passed fulfilled))
      | _ => none
  | none => none

def close (t : Turns) : Turns :=
  { t with closed := true, closedAt := some (t.closedAt.getD t.turns.length) }

/-- `drain`, up to its first await. -/
def drain (t : Turns) : Turns :=
  { t with
    drains := t.drains ++ [{ covered := t.turns.length, phase := .tail t.tail t.inflight }] }

/-- Drain `d` goes on after an await. -/
def drainNext (t : Turns) (d : Nat) : Option Turns :=
  match t.drains[d]? with
  | some ⟨covered, .tail tail inflight⟩ =>
      if t.TailResolved tail then
        some { t with drains := t.drains.set d ⟨covered, .guards tail inflight⟩ }
      else none
  | some ⟨covered, .guards tail inflight⟩ =>
      if ∀ n ∈ inflight, t.GuardResolved n then
        some { t with
          drains := t.drains.set d ⟨covered,
            if tail = t.tail ∧ t.inflight = [] then .resolved else .tail t.tail t.inflight⟩ }
      else none
  | _ => none

end Turns

/-! ## The lanes of one host -/

/-- What happens to one `Turns`. -/
inductive TurnEvent where
  | run (interleave : Bool)
  | start (n : Nat)
  | finish (n : Nat) (fulfilled : Bool)
  | settle (n : Nat)
  | pass (n : Nat)
  | close
  | drain
  | drainNext (d : Nat)
  deriving DecidableEq, Repr

def Turns.step (load : Nat) (t : Turns) : TurnEvent → Option (Nat × Turns)
  | .run interleave => some (t.run load interleave)
  | .start n => (t.start n).map fun t' => (load, t')
  | .finish n fulfilled => (t.finish n fulfilled).map fun t' => (load, t')
  | .settle n => t.settle load n
  | .pass n => (t.pass n).map fun t' => (load, t')
  | .close => some (load, t.close)
  | .drain => some (load, t.drain)
  | .drainNext d => (t.drainNext d).map fun t' => (load, t')

/-- The `Turns` of a host and the load that some of them share. -/
structure TurnLanes where
  lanes : List Turns
  load : Nat

inductive TurnLabel where
  /-- `new Turns(load)`, or without one. -/
  | create (loaded : Bool)
  | lane (k : Nat) (e : TurnEvent)
  deriving DecidableEq, Repr

def TurnLanes.step (s : TurnLanes) : TurnLabel → Option TurnLanes
  | .create loaded => some { s with lanes := s.lanes ++ [{ loaded := loaded }] }
  | .lane k e =>
      match s.lanes[k]? with
      | some t =>
          match t.step s.load e with
          | some done => some { lanes := s.lanes.set k done.2, load := done.1 }
          | none => none
      | none => none

/-- Any number of `Turns`, created as the run goes. -/
def turnLanes : Machine.System TurnLanes TurnLabel where
  initial := fun s => s = { lanes := [], load := 0 }
  step := TurnLanes.step

end SigxActors.Host
