/-
  Host/ChangeFeed.lean --- the change feeds of an activation, and the boundary of a turn.

  Source: `packages/actors/src/host/activation.ts` (`#afterTurn`, `#reportFault`,
  `#scheduleWriteBehind`, `#wantsSnapshotAt`, `#doSave`, `#reload`, `#ensureChangeTracking`,
  `#consumeDirty`, `#takeBoundarySnapshot`, `#openChanges`, `#changeFeed`, `#deliver`,
  `#deferToWindow`, `#openWindow`, `#closeWindow`, `#closeSubs`).

  What stands between two `await`s is one step.  A write to the state may come at any time: in a
  turn, between turns, in a body that runs detached.  A consumer asks for the next value once it
  has the last one, as `for await` and the pump of a shared watch do.  A snapshot is the state it is
  taken of, and where the codec may throw, the label says whether it does.

  `pulled`, `last`, `owed`, and the `boundary` of the activation are history, which no step reads.
  A feed that is opened once the activation has stopped is left out.
-/
import Mathlib
import SigxActors.Js.Array
import SigxActors.Host.Watch

set_option autoImplicit false

namespace SigxActors.Host

open SigxActors.Js

/-! ## One subscription -/

/-- What a feed yields. -/
inductive Change (V : Type) where
  /-- `CHANGE_TICK`. -/
  | tick
  | snapshot (v : V)
  deriving DecidableEq, Repr

/-- The call of `next()` that a consumer has made. -/
inductive FeedPull where
  | idle
  /-- It awaits the promise that `wake` resolves. -/
  | parked
  /-- That promise has resolved, and the call has yet to go on. -/
  | woken
  /-- The feed has ended. -/
  | ended
  deriving DecidableEq, Repr

/-- A `ChangeSub`. -/
structure ChangeSub (V : Type) where
  queue : List (Change V) := []
  /-- A parked one has left its resolver in `wake`. -/
  pull : FeedPull := .idle
  done : Bool := false
  ticksOnly : Bool
  throttleMs : Rat
  pending : Bool := false
  /-- The timer that `cancelWindow` cancels. -/
  cancelWindow : Option Nat := none
  /-- The timers that it was given, and whether they are armed. -/
  windows : List Bool := []
  /-- What the consumer was handed. -/
  pulled : List (Change V) := []
  /-- The state of the boundary that was delivered last. -/
  last : Option V := none
  /-- A boundary was put off, and has not been delivered. -/
  owed : Bool := false
  deriving DecidableEq, Repr

namespace ChangeSub

variable {V : Type} (sub : ChangeSub V)

/-- `sub.wake?.()`. -/
def wakeUp : ChangeSub V :=
  { sub with pull := if sub.pull = .parked then .woken else sub.pull }

/-- `#deliver`, of the boundary whose state is given. -/
def deliver (boundary : V) (value : Change V) : ChangeSub V :=
  let queue := sub.queue ++ [value]
  wakeUp { sub with
    queue := if changeBuffer < queue.length then queue.tail else queue
    last := some boundary, owed := false }

/-- `#openWindow`. -/
def openWindow : ChangeSub V :=
  { sub with cancelWindow := some sub.windows.length, windows := sub.windows ++ [true] }

/-- `#closeWindow`. -/
def closeWindow : ChangeSub V :=
  { sub with
    windows := match sub.cancelWindow with
      | some w => sub.windows.set w false
      | none => sub.windows
    cancelWindow := none
    pending := false }

/-- `#deferToWindow`. -/
def deferToWindow : ChangeSub V × Bool :=
  if sub.throttleMs ≤ 0 then (sub, false)
  else if sub.cancelWindow.isSome then ({ sub with pending := true, owed := true }, true)
  else (sub.openWindow, false)

/-- The callback of a window, where `ok` says that the snapshot can be taken. -/
def windowFires (boundary state : V) (w : Nat) (ok : Bool) : ChangeSub V :=
  let sub := { sub with cancelWindow := none, windows := sub.windows.set w false }
  if sub.pending = false ∨ sub.done = true then sub
  else
    let sub := { sub with pending := false }
    if sub.ticksOnly then (sub.deliver boundary .tick).openWindow
    else if ok then (sub.deliver boundary (.snapshot state)).openWindow
    else sub

/-- The body of `#closeSubs`. -/
def close (boundary state : V) (ok : Bool) : ChangeSub V :=
  let sub :=
    if sub.pending = true ∧ sub.done = false then
      if sub.ticksOnly then sub.deliver boundary .tick
      else if ok then sub.deliver boundary (.snapshot state)
      else sub
    else sub
  wakeUp { sub.closeWindow with done := true }

/-- `return()`. -/
def leave : ChangeSub V :=
  wakeUp (closeWindow { sub with done := true })

/-- One pass of the loop of `next()`. -/
def next : ChangeSub V :=
  match sub.queue with
  | value :: queue => { sub with queue := queue, pull := .idle, pulled := sub.pulled ++ [value] }
  | [] => { sub with pull := if sub.done then .ended else .parked }

/-- What holds of a subscription in every run.  That its newest value is that of the last boundary
is not among it. -/
structure Sound (sub : ChangeSub V) : Prop where
  bounded : sub.queue.length ≤ changeBuffer
  window : ∀ w, sub.cancelWindow = some w → sub.windows[w]? = some true
  armed : ∀ w, sub.windows[w]? = some true → sub.cancelWindow = some w
  pending : sub.pending = true → sub.cancelWindow.isSome = true
  throttled : sub.cancelWindow.isSome = true → ¬sub.throttleMs ≤ 0
  closed : sub.done = true → sub.cancelWindow = none
  parked : sub.pull = .parked → sub.queue = [] ∧ sub.done = false

/-- The newest value is the state of the boundary that was delivered last, and none is owed that no
window will emit. -/
structure Current (sub : ChangeSub V) : Prop where
  newest : sub.ticksOnly = false → ∀ v, sub.last = some v →
    (sub.pulled ++ sub.queue).getLast? = some (.snapshot v)
  owed : sub.owed = true → sub.done = true ∨ sub.pending = true

end ChangeSub

/-! ## The activation -/

/-- `throttleMs`, as it is given. -/
inductive ThrottleMs where
  | undefined
  | finite (ms : Rat)
  /-- Not a number, or not a finite one. -/
  | other
  deriving DecidableEq, Repr

/-- `normalizeThrottleMs`; none where it throws. -/
def normalizeThrottleMs (value : ThrottleMs) : Option Rat :=
  match value with
  | .undefined => some 0
  | .finite ms => if ms < 0 then none else some ms
  | .other => none

/-- `ChangesOptions`. -/
structure ChangesOptions where
  initial : Bool := false
  throttleMs : ThrottleMs := .undefined
  ticksOnly : Bool := false
  deriving DecidableEq, Repr

/-- What the store makes of a write. -/
inductive StoreAnswer where
  | stored
  | conflict
  | failed
  deriving DecidableEq, Repr

/-- What an activation keeps for its boundaries. -/
structure FeedActivation (V : Type) where
  state : V
  /-- `retryQueuedOnConflict`. -/
  retryQueued : Bool := false
  /-- `#isWriteBehind()`. -/
  writeBehind : Bool := false
  tracking : Bool := false
  dirty : Bool := false
  version : Nat := 0
  notified : Nat := 0
  saved : Nat := 0
  /-- The version that the write under way will have saved. -/
  saving : Option Nat := none
  prepared : Option (Nat × V) := none
  reloadPending : Bool := false
  reloading : Bool := false
  faulted : Bool := false
  faultReported : Bool := false
  deactivateRequested : Bool := false
  /-- The flush is armed: `#cancelWriteBehind`. -/
  flush : Bool := false
  lastActivityMs : Nat := 0
  /-- Every subscription that there was. -/
  subs : List (ChangeSub V) := []
  /-- `#subs`, in the order of insertion. -/
  live : List Nat := []
  /-- How often `onFault` and `onIdleRequest` were called, and how many turns were made to reject
  by the snapshot of their boundary. -/
  faults : Nat := 0
  idleRequests : Nat := 0
  rejected : Nat := 0
  /-- The state at the last boundary. -/
  boundary : V
  deriving DecidableEq, Repr

/-- A fan-out under way. -/
structure FanOut (V : Type) where
  subs : List (ChangeSub V)
  prepared : Option (Nat × V)
  snap : Option V := none
  /-- `snapError`. -/
  failed : Bool := false

namespace FeedActivation

variable {V : Type} (s : FeedActivation V)

/-- A write to the state. -/
def write (v : V) : FeedActivation V := { s with state := v, dirty := s.dirty || s.tracking }

/-- `#consumeDirty`. -/
def consumeDirty : FeedActivation V :=
  if s.dirty then { s with dirty := false, version := s.version + 1 } else s

/-- `#reportFault`. -/
def reportFault : FeedActivation V × Bool :=
  if s.faulted = false ∨ s.faultReported = true then (s, false)
  else ({ s with faultReported := true, faults := s.faults + 1 }, true)

/-- `#wantsSnapshotAt`. -/
def wantsSnapshotAt (version : Nat) : Bool :=
  s.notified < version && s.live.any fun k => match s.subs[k]? with
    | some sub => !sub.ticksOnly && !sub.done && sub.cancelWindow.isNone
    | none => false

/-- `#takeBoundarySnapshot`, where `ok` says that the codec does not throw. -/
def takeBoundarySnapshot (prepared : Option (Nat × V)) (ok : Bool) : Option V :=
  match prepared with
  | some (version, snap) =>
      if version = s.version then some snap else if ok then some s.state else none
  | none => if ok then some s.state else none

/-- The body of the loop of the fan-out. -/
def visit (ok : Bool) (fan : FanOut V) (k : Nat) : FanOut V :=
  match fan.subs[k]? with
  | none => fan
  | some sub =>
      if fan.failed = true ∧ sub.ticksOnly = false then fan
      else
        match sub.deferToWindow with
        | (sub, true) => { fan with subs := fan.subs.set k sub }
        | (sub, false) =>
            if sub.ticksOnly then
              { fan with subs := fan.subs.set k (sub.deliver s.boundary .tick) }
            else
              match fan.snap with
              | some v => { fan with subs := fan.subs.set k (sub.deliver s.boundary (.snapshot v)) }
              | none =>
                  match s.takeBoundarySnapshot fan.prepared ok with
                  | some v =>
                      { fan with
                        subs := fan.subs.set k (sub.deliver s.boundary (.snapshot v))
                        prepared := none, snap := some v }
                  | none =>
                      { fan with
                        subs := fan.subs.set k sub.closeWindow, prepared := none, failed := true }

/-- The fan-out of a boundary. -/
def fanOut (ok : Bool) : FeedActivation V :=
  let fan := s.live.foldl (s.visit ok) { subs := s.subs, prepared := s.prepared }
  { s with
    subs := fan.subs, prepared := fan.prepared
    rejected := s.rejected + if fan.failed then 1 else 0 }

/-- There is something to notify of. -/
def atBoundary : Bool := s.notified < s.version && !s.reloadPending

/-- What is done at the end of every turn, whether or not the fan-out threw. -/
def bookkeeping (boundary : Bool) (depth : Nat) : FeedActivation V :=
  let s := { s with
    flush := s.flush || boundary && s.writeBehind && decide (s.saved < s.version)
    prepared := none }
  match s.reportFault with
  | (s, true) => s
  | (s, false) =>
      if s.deactivateRequested = true ∧ depth ≤ 1 ∧ s.faulted = false then
        { s with idleRequests := s.idleRequests + 1 }
      else s

/-- `#afterTurn`, with `depth` turns queued or in flight. -/
def afterTurn (activeMs depth : Nat) (ok : Bool) : FeedActivation V :=
  let s := consumeDirty { s with lastActivityMs := max s.lastActivityMs activeMs }
  if s.atBoundary then
    (fanOut { s with notified := s.version, boundary := s.state } ok).bookkeeping true depth
  else s.bookkeeping false depth

/-- `#openChanges`; `spent` where the body's feeds are closed already. -/
def openChanges (options : ChangesOptions) (spent ok : Bool) : FeedActivation V :=
  match normalizeThrottleMs options.throttleMs with
  | none => s
  | some throttleMs =>
      let sub : ChangeSub V := { ticksOnly := options.ticksOnly, throttleMs := throttleMs }
      if spent then { s with subs := s.subs ++ [{ sub with done := true }] }
      else
        let s := { s with tracking := true }
        let opened (queue : List (Change V)) : FeedActivation V :=
          { s with subs := s.subs ++ [{ sub with queue := queue }], live := s.live ++ [s.subs.length] }
        if options.initial then
          if options.ticksOnly then opened [.tick]
          else if ok then opened [.snapshot s.state]
          else s
        else opened []

/-- `#closeSubs`, where the codec throws for some of them. -/
def closeSubs (subs failing : List Nat) : FeedActivation V :=
  { s with
    subs := s.subs.mapIdx fun k sub =>
      if k ∈ subs then sub.close s.boundary s.state (decide (k ∉ failing)) else sub
    live := s.live.filter (· ∉ subs) }

inductive Label (V : Type) where
  | write (v : V)
  /-- `ctx.save()`, up to where it awaits. -/
  | save
  /-- `ctx.save({ durability: 'eventual' })`. -/
  | saveEventually
  /-- `#doSave`, up to where it awaits. -/
  | encode
  | stored (answer : StoreAnswer)
  /-- A turn finds a reload pending, and the record is loaded. -/
  | reload
  | reloaded (fresh : Option V)
  | flushDue
  /-- The flush has failed. -/
  | flushFails
  | requestDeactivate
  | afterTurn (activeMs depth : Nat) (ok : Bool)
  | openChanges (options : ChangesOptions) (spent ok : Bool)
  | next (k : Nat)
  | resume (k : Nat)
  | leave (k : Nat)
  | windowFires (k w : Nat) (ok : Bool)
  | closeSubs (subs failing : List Nat)
  deriving DecidableEq, Repr

/-- A subscription changes. -/
def setSub (k : Nat) (sub : ChangeSub V) : FeedActivation V := { s with subs := s.subs.set k sub }

def step : Label V → Option (FeedActivation V)
  | .write v => some (s.write v)
  | .save =>
      let s := s.consumeDirty
      some { s with version := s.version + 1 }
  | .saveEventually =>
      let s := s.consumeDirty
      some { s with version := s.version + 1, flush := true }
  | .encode =>
      if s.faulted = true ∨ s.saving.isSome = true then none
      else some { s with
        saving := some s.version
        prepared := if s.wantsSnapshotAt s.version then some (s.version, s.state) else s.prepared }
  | .stored answer =>
      match s.saving with
      | none => none
      | some version =>
          match answer with
          | .stored => some { s with saving := none, saved := version }
          | .conflict =>
              if s.retryQueued then some { s with saving := none, reloadPending := true }
              else some { s with saving := none, faulted := true }
          | .failed => some { s with saving := none }
  | .reload =>
      if s.reloadPending then some { s with reloadPending := false, reloading := true } else none
  | .reloaded fresh =>
      if s.reloading then
        let s := { s with reloading := false }
        match fresh with
        | some v =>
            let s := (s.write v).consumeDirty
            some { s with version := s.version + 1, saved := s.version + 1 }
        | none => some (reportFault { s with faulted := true }).1
      else none
  | .flushDue => some { s with flush := false }
  | .flushFails =>
      some (reportFault { s with
        faulted := s.faulted || s.reloadPending, reloadPending := false }).1
  | .requestDeactivate => some { s with deactivateRequested := true }
  | .afterTurn activeMs depth ok => some (s.afterTurn activeMs depth ok)
  | .openChanges options spent ok => some (s.openChanges options spent ok)
  | .next k =>
      match s.subs[k]? with
      | some sub =>
          if sub.pull = .idle ∨ sub.pull = .ended then some (s.setSub k sub.next) else none
      | none => none
  | .resume k =>
      match s.subs[k]? with
      | some sub => if sub.pull = .woken then some (s.setSub k sub.next) else none
      | none => none
  | .leave k =>
      match s.subs[k]? with
      | some sub => some { s.setSub k sub.leave with live := s.live.filter (· ≠ k) }
      | none => none
  | .windowFires k w ok =>
      match s.subs[k]? with
      | some sub =>
          if sub.windows[w]? = some true then
            some (s.setSub k (sub.windowFires s.boundary s.state w ok))
          else none
      | none => none
  | .closeSubs subs failing => some (s.closeSubs subs failing)

end FeedActivation

/-- The machine of one activation. -/
def changeFeeds (V : Type) : Machine.System (FeedActivation V) (FeedActivation.Label V) where
  initial s := ∃ v retryQueued writeBehind tracking,
    s = { state := v, retryQueued := retryQueued, writeBehind := writeBehind,
          tracking := tracking, boundary := v }
  step := FeedActivation.step

end SigxActors.Host
