/-
  Live/Endpoint.lean --- many subscriptions on one held-open response.

  Source: `subscribeAll` of `packages/actors/src/server/live-endpoint.ts`.

  `start` is an `async` function for each subscription, and goes on where what it awaits has
  settled: the definition, the authorization, the principal, and then one value of its watch
  after the other.  `frames` is an async generator.  Where it waits at a `yield` the consumer
  resumes it; where it waits for a frame the consumer's `next` is pending, and `wake` or the
  ping timer resumes it.  A consumer asks for a frame when its last `next` has been answered.

  What an abort does is left to the world: a watch may end, and an authorization fail, at any
  time.  An error comes as `toFrameError` has turned it.  What is only passed to the dispatch is
  left out: key, arguments, throttle and call context.
-/
import SigxActors.Js.Array
import SigxActors.Js.Map
import SigxActors.Machine.Transition

set_option autoImplicit false

namespace SigxActors.Live

open SigxActors.Js

structure LiveSubscription where
  t : String
  m : String
  deriving DecidableEq, Repr

/-- What `toFrameError` returns. -/
structure FrameError where
  message : String
  status : Nat
  deriving DecidableEq, Repr

inductive LiveFrame (V : Type) where
  | value (i : Nat) (v : V)
  | error (i : Nat) (e : FrameError)
  | ping
  deriving DecidableEq, Repr

/-- What `start` awaits. -/
inductive Stage where
  | definition
  | authorization
  | principal
  /-- The next value of the watch. -/
  | watching
  /-- Nothing: its `finally` has run. -/
  | ended
  deriving DecidableEq, Repr

/-- The iterator of a watch. -/
inductive WatchState where
  | unopened
  | open
  /-- Its `return` has been called. -/
  | returned
  /-- It is done, or has thrown. -/
  | over
  deriving DecidableEq, Repr

/-- One `start`. -/
structure Start (V : Type) where
  sub : LiveSubscription
  stage : Stage := .definition
  watch : WatchState := .unopened
  /-- The timer of `deadline` is pending. -/
  deadline : Bool := false
  timedOut : Bool := false
  /-- What its watch has produced. -/
  produced : List V := []
  deriving DecidableEq, Repr

/-- `disarmDeadline`. -/
def Start.disarmDeadline {V : Type} (start : Start V) : Start V :=
  { start with deadline := false, timedOut := false }

/-- Where `frames` is. -/
inductive Phase where
  /-- It has not been started. -/
  | start
  /-- At a `yield`. -/
  | yielded
  /-- At the wait for a frame. -/
  | parked
  /-- At a `yield`, with a `return` that is about to take effect. -/
  | returning
  /-- Its `finally` has run, or never will. -/
  | done
  deriving DecidableEq, Repr

structure LiveEndpoint (V : Type) where
  starts : List (Start V)
  latest : JsMap Nat V := .empty
  terminal : List (Nat × FrameError) := []
  live : Nat
  closed : Bool := false
  /-- The subscriptions whose iterators are to be stopped. -/
  stops : List Nat := []
  phase : Phase := .start
  /-- `wake` has been called since `frames` parked. -/
  woken : Bool := false
  /-- All that has been yielded. -/
  sent : List (LiveFrame V) := []
  /-- `return` has been called. -/
  returned : Bool := false

structure LiveEndpointOptions where
  pingMs : Nat := 30000
  timeoutMs : Option Nat := none

/-- What a subscription is told whose deadline has fired. -/
def timedOutError (sub : LiveSubscription) : FrameError where
  message := "[sigx actors] subscription \"" ++ sub.t ++ "#" ++ sub.m ++
    "\" timed out before its first value"
  status := 504

def unknownType (sub : LiveSubscription) : FrameError where
  message := "unknown actor type \"" ++ sub.t ++ "\""
  status := 404

namespace LiveEndpoint

variable {V : Type} (s : LiveEndpoint V)

def setStart (i : Nat) (f : Start V → Start V) : LiveEndpoint V :=
  { s with starts := s.starts.modify i f }

/-! ## The queue -/

def pending : Bool := !s.latest.entries.isEmpty || !s.terminal.isEmpty

def take : LiveEndpoint V × Option (LiveFrame V) :=
  match s.terminal with
  | (i, e) :: rest => ({ s with terminal := rest }, some (.error i e))
  | [] =>
      match s.latest.entries with
      | [] => (s, none)
      | (i, v) :: _ => ({ s with latest := s.latest.erase i }, some (.value i v))

/-- `wake?.()`. -/
def wake : LiveEndpoint V := { s with woken := s.woken || s.phase == .parked }

/-- `emit` of a value. -/
def emitValue (i : Nat) (v : V) : LiveEndpoint V := wake { s with latest := s.latest.set i v }

/-- `emit` of an error. -/
def emitError (i : Nat) (e : FrameError) : LiveEndpoint V :=
  wake { s with terminal := s.terminal ++ [(i, e)] }

/-! ## `start` -/

/-- The `finally` of `start`. -/
def settle (i : Nat) : LiveEndpoint V :=
  wake { s.setStart i fun start => { start.disarmDeadline with stage := .ended } with
    live := s.live - 1 }

/-- The `catch` of `start`, and its `finally`. -/
def refuse (i : Nat) (e : FrameError) : LiveEndpoint V :=
  (if s.closed then s else s.emitError i e).settle i

/-- The loop over the watch has been left. -/
def leave (i : Nat) (start : Start V) : LiveEndpoint V :=
  if start.timedOut then s.refuse i (timedOutError start.sub) else s.settle i

/-- What `start` awaits has settled well, short of a value. -/
def proceed (i : Nat) : Option (LiveEndpoint V) :=
  match s.starts[i]? with
  | none => none
  | some start =>
      match start.stage with
      | .definition => some (s.setStart i fun start => { start with stage := .authorization })
      | .authorization => some (s.setStart i fun start => { start with stage := .principal })
      | .principal =>
          some { s.setStart i fun start => { start with stage := .watching, watch := .open } with
            stops := s.stops ++ [i] }
      | .watching => none
      | .ended => none

/-- There is no definition, or it is internal. -/
def unknown (i : Nat) : Option (LiveEndpoint V) :=
  match s.starts[i]? with
  | none => none
  | some start =>
      if start.stage = .definition then some (s.refuse i (unknownType start.sub)) else none

/-- What `start` awaits fails. -/
def fail (i : Nat) (e : FrameError) : Option (LiveEndpoint V) :=
  match s.starts[i]? with
  | none => none
  | some start =>
      match start.stage with
      | .ended => none
      | .watching =>
          some ((s.setStart i fun start => { start with watch := .over }).refuse i e)
      | _ => some (s.refuse i e)

/-- The watch produces a value. -/
def value (i : Nat) (v : V) : Option (LiveEndpoint V) :=
  match s.starts[i]? with
  | none => none
  | some start =>
      if start.stage = .watching then
        let t := s.setStart i fun start => { start with produced := start.produced ++ [v] }
        if s.closed then some (t.leave i start)
        else some ((t.setStart i Start.disarmDeadline).emitValue i v)
      else none

/-- The watch is done. -/
def finish (i : Nat) : Option (LiveEndpoint V) :=
  match s.starts[i]? with
  | none => none
  | some start =>
      if start.stage = .watching then
        some ((s.setStart i fun start => { start with watch := .over }).leave i start)
      else none

/-- The timer of `deadline` fires. -/
def expire (i : Nat) : Option (LiveEndpoint V) :=
  match s.starts[i]? with
  | none => none
  | some start =>
      if start.deadline then
        some (s.setStart i fun start => { start with deadline := false, timedOut := true })
      else none

/-! ## `frames` -/

/-- The `finally` of `frames`, which calls every `return`. -/
def sweep : LiveEndpoint V :=
  { s with
    closed := true
    phase := .done
    starts := s.starts.mapIdx fun i start =>
      if i ∈ s.stops ∧ start.watch = .open then { start with watch := .returned } else start }

/-- The loop, from its top. -/
def turn : LiveEndpoint V :=
  match s.take with
  | (t, some frame) => { t with sent := t.sent ++ [frame], phase := .yielded }
  | (t, none) =>
      if t.live = 0 && !t.pending then t.sweep else { t with phase := .parked, woken := false }

/-- `next`, where none is pending. -/
def next : Option (LiveEndpoint V) :=
  match s.phase with
  | .start => some s.turn
  | .yielded => some s.turn
  | .done => some s
  | .parked => none
  | .returning => none

/-- The wait for a frame is over. -/
def resume (o : LiveEndpointOptions) : Option (LiveEndpoint V) :=
  if s.phase = .parked ∧ (s.woken = true ∨ 0 < o.pingMs) then
    if s.closed then some s.sweep
    else if !s.pending && 0 < s.live && 0 < o.pingMs then
      some { s with sent := s.sent ++ [.ping], phase := .yielded, woken := false }
    else some s.turn
  else none

/-- `return` of the wrapper. -/
def ret : LiveEndpoint V :=
  let t := wake { s with closed := true, returned := true }
  match s.phase with
  | .start => { t with phase := .done }
  | .yielded => { t with phase := .returning }
  | _ => t

/-- The `return` takes effect at the `yield`. -/
def unwind : Option (LiveEndpoint V) := if s.phase = .returning then some s.sweep else none

inductive Label (V : Type) where
  | proceed (i : Nat)
  | unknown (i : Nat)
  | fail (i : Nat) (e : FrameError)
  | value (i : Nat) (v : V)
  | finish (i : Nat)
  | expire (i : Nat)
  | next
  | resume
  | ret
  | unwind

def step (o : LiveEndpointOptions) (s : LiveEndpoint V) : Label V → Option (LiveEndpoint V)
  | .proceed i => s.proceed i
  | .unknown i => s.unknown i
  | .fail i e => s.fail i e
  | .value i v => s.value i v
  | .finish i => s.finish i
  | .expire i => s.expire i
  | .next => s.next
  | .resume => s.resume o
  | .ret => some s.ret
  | .unwind => s.unwind

end LiveEndpoint

/-- `subscribeAll`: every subscription is started at once. -/
def subscribeAll {V : Type} (o : LiveEndpointOptions) (subs : List LiveSubscription) :
    LiveEndpoint V where
  starts := subs.map fun sub =>
    { sub := sub, deadline := o.timeoutMs.any fun timeoutMs => decide (0 < timeoutMs) }
  live := subs.length

/-- The machine of one connection. -/
def liveEndpoint {V : Type} (o : LiveEndpointOptions) (subs : List LiveSubscription) :
    Machine.System (LiveEndpoint V) (LiveEndpoint.Label V) where
  initial s := s = subscribeAll o subs
  step := LiveEndpoint.step o

end SigxActors.Live
