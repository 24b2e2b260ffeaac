/-
  Host/Watch.lean --- the shared watches of one key.

  Source: `packages/actors/src/watch-core.ts` (`createFanOut`),
  `packages/actors/src/host/watch.ts` (`createSharedWatch`), and from
  `packages/actors/src/host/activation.ts` the key's entry in `#watches`
  (`#resolveWatch`, and the release in `#createWatchEntry`) and the queue of a
  change feed (`#deliver`, `#changeFeed`).

  One shared watch is a fan-out to its subscribers, a loop that invokes the read, and
  a pump that turns the change feed into a dirty flag.  Each stretch of code between
  two awaits is one step, and so is each `next()` of a subscriber up to where it
  parks.  A `next()` that parks leaves its resolver in the subscriber's one `wake`.

  The counts of notifications and the values of the reads are history, which no step
  reads; so is how often `onEmpty` was called on a watch, from which the owner of the
  map learns that it was.
-/
import SigxActors.Machine.Transition

set_option autoImplicit false

namespace SigxActors.Host

/-! ## Subscribers -/

/-- `WATCH_BUFFER` and `CHANGE_BUFFER`. -/
def watchBuffer : Nat := 16

def changeBuffer : Nat := 16

/-- One subscriber of a fan-out, and the calls of its `next()`. -/
structure Subscriber (V E : Type) where
  queue : List V := []
  /-- `failed`, with `error`. -/
  failed : Option E := none
  done : Bool := false
  /-- It is in the fan-out's set. -/
  attached : Bool := true
  /-- The call whose promise `wake` resolves. -/
  wake : Option Nat := none
  /-- The calls that are parked. -/
  parked : List Nat := []
  /-- The calls whose promise has resolved and that have yet to go on. -/
  woken : List Nat := []
  /-- How many calls there were. -/
  pulls : Nat := 0
  /-- What the calls returned, oldest first. -/
  received : List V := []
  deriving DecidableEq, Repr

namespace Subscriber

variable {V E : Type}

/-- `sub.wake?.()`. -/
def wakeUp (sub : Subscriber V E) : Subscriber V E :=
  match sub.wake with
  | some pull =>
      if pull ∈ sub.parked then
        { sub with parked := sub.parked.erase pull, woken := sub.woken ++ [pull] }
      else sub
  | none => sub

/-- One value of a `push`; the oldest one is dropped at the bound. -/
def push (sub : Subscriber V E) (v : V) : Subscriber V E :=
  let queue := sub.queue ++ [v]
  { sub with queue := if watchBuffer < queue.length then queue.tail else queue }.wakeUp

def fail (sub : Subscriber V E) (e : E) : Subscriber V E :=
  { sub with failed := some e }.wakeUp

def finish (sub : Subscriber V E) : Subscriber V E :=
  { sub with done := true }.wakeUp

/-- The subscriber would return from a `next()` without parking. -/
def Ready (sub : Subscriber V E) : Prop :=
  sub.queue ≠ [] ∨ sub.failed.isSome ∨ sub.done = true

instance (sub : Subscriber V E) : Decidable sub.Ready :=
  @instDecidableOr _ _ (decidable_of_iff (sub.queue.isEmpty = false) (by simp)) inferInstance

end Subscriber

/-! ## The watch -/

/-- Where the loop is. -/
inductive LoopPhase where
  /-- `await deps.invoke()`. -/
  | reading (initial : Bool)
  /-- `await waitForChange()`, parked or about to go on. -/
  | waiting (woken : Bool)
  /-- `await settle()`. -/
  | settling
  | ended
  deriving DecidableEq, Repr

structure Watch (V E : Type) where
  subs : List (Subscriber V E) := []
  /-- The most recent value, which a new subscriber is seeded with. -/
  last : Option V := none
  stopped : Bool := false
  dirty : Bool := false
  loop : LoopPhase := .reading true
  /-- The pump is running. -/
  pumping : Bool := true
  /-- Ticks of the change feed that the pump has not taken. -/
  feed : Nat := 0
  feedClosed : Bool := false
  /-- The fingerprint of the last value pushed. -/
  print : Option String := none
  /-- How often `onEmpty` was called. -/
  emptied : Nat := 0
  /-- How many changes the feed was notified of. -/
  notified : Nat := 0
  /-- How many ticks the pump has taken. -/
  taken : Nat := 0
  /-- The two counts when the last read began. -/
  saw : Nat := 0
  sawTaken : Nat := 0
  /-- What the last read returned. -/
  lastRead : Option V := none

namespace Watch

variable {V E : Type}

/-- The last one out: the loop is woken to its end and the feed is closed. -/
def stop (w : Watch V E) : Watch V E :=
  { w with
    stopped := true, feedClosed := true, emptied := w.emptied + 1
    loop := if w.loop = .waiting false then .waiting true else w.loop }

/-- `drop`, which is idempotent. -/
def drop (w : Watch V E) (i : Nat) : Watch V E :=
  match w.subs[i]? with
  | some sub =>
      let dropped := { sub with done := true }.wakeUp
      if sub.attached then
        let subs := w.subs.set i { dropped with attached := false }
        let w := { w with subs := subs }
        if ∃ sub ∈ subs, sub.attached = true then w else w.stop
      else { w with subs := w.subs.set i dropped }
  | none => w

/-- Every attached subscriber changes. -/
def deliverAll (w : Watch V E) (f : Subscriber V E → Subscriber V E) : Watch V E :=
  { w with subs := w.subs.map fun sub => if sub.attached then f sub else sub }

def push (w : Watch V E) (v : V) : Watch V E :=
  { w.deliverAll (·.push v) with last := some v }

def fail (w : Watch V E) (e : E) : Watch V E := w.deliverAll (·.fail e)

/-- `subscribe`, whose signal may have been aborted already. -/
def subscribe (w : Watch V E) (aborted : Bool) : Watch V E :=
  let joined := { w with subs := w.subs ++ [{ queue := w.last.toList }] }
  if aborted then joined.drop w.subs.length else joined

/-- One pass of the loop of `next()`, for the call `pull` of subscriber `i`. -/
def next (w : Watch V E) (i pull : Nat) (sub : Subscriber V E) : Watch V E :=
  match sub.queue with
  | v :: queue =>
      { w with subs := w.subs.set i { sub with queue := queue, received := sub.received ++ [v] } }
  | [] =>
      if sub.failed.isSome then
        { w with subs := w.subs.set i { sub with failed := none } }.drop i
      else if sub.done then { w with subs := w.subs.set i sub }.drop i
      else
        let sub := { sub with wake := some pull, parked := sub.parked ++ [pull] }
        { w with subs := w.subs.set i sub }

/-- Subscriber `i` calls `next()`. -/
def pull (w : Watch V E) (i : Nat) : Option (Watch V E) :=
  match w.subs[i]? with
  | some sub => some (w.next i sub.pulls { sub with pulls := sub.pulls + 1 })
  | none => none

/-- A call that was woken goes on. -/
def goOn (w : Watch V E) (i pull : Nat) : Option (Watch V E) :=
  match w.subs[i]? with
  | some sub =>
      if pull ∈ sub.woken then
        some (w.next i pull { sub with woken := sub.woken.erase pull, wake := none })
      else none
  | none => none

/-- `return()`, or the abort of the subscriber's signal. -/
def leave (w : Watch V E) (i : Nat) : Option (Watch V E) :=
  if i < w.subs.length then some (w.drop i) else none

/-! ### The feed and the pump -/

/-- A mutating turn ends; the oldest tick is dropped at the bound. -/
def notify (w : Watch V E) : Option (Watch V E) :=
  if w.feedClosed then none
  else some { w with feed := min (w.feed + 1) changeBuffer, notified := w.notified + 1 }

/-- `wakeLoop?.()`. -/
def wakeLoop (w : Watch V E) : Watch V E :=
  { w with loop := if w.loop = .waiting false then .waiting true else w.loop }

/-- The pump takes a tick. -/
def pump (w : Watch V E) : Option (Watch V E) :=
  if w.pumping = true ∧ 0 < w.feed then
    let w := { w with feed := w.feed - 1, taken := w.taken + 1 }
    if w.stopped then some { w with pumping := false }
    else some { w with dirty := true }.wakeLoop
  else none

/-- The activation closes the feed. -/
def closeFeed (w : Watch V E) : Watch V E := { w with feedClosed := true }

/-- The pump finds the feed spent. -/
def pumpEnds (w : Watch V E) : Option (Watch V E) :=
  if w.pumping = true ∧ w.feedClosed = true ∧ w.feed = 0 then some { w with pumping := false }
  else none

/-- The feed throws. -/
def pumpFails (w : Watch V E) (e : E) : Option (Watch V E) :=
  if w.pumping then
    let w := { w with pumping := false, feedClosed := true }
    some (if w.stopped then w else w.fail e)
  else none

/-! ### The loop -/

/-- `fanOut.finish()`, on the way out of the loop. -/
def finish (w : Watch V E) : Watch V E :=
  { w.deliverAll (·.finish) with loop := .ended }

/-- The head of the loop, up to its first await. -/
def loopHead (w : Watch V E) : Watch V E :=
  if w.stopped then w.finish else { w with loop := .waiting w.dirty }

/-- `waitForChange` returns. -/
def changed (w : Watch V E) : Option (Watch V E) :=
  if w.loop = .waiting true then
    some (if w.stopped then w.finish else { w with loop := .settling })
  else none

/-- The throttle window is over; the next read is invoked. -/
def settled (w : Watch V E) : Option (Watch V E) :=
  if w.loop = .settling then
    some (if w.stopped then w.finish
      else
        { w with
          dirty := false, loop := .reading false, saw := w.notified, sawTaken := w.taken })
  else none

/-- `deliver`, with the fingerprint of the deps. -/
def deliver (fingerprint : V → Option String) (w : Watch V E) (v : V) (initial : Bool) :
    Watch V E :=
  if initial = false ∧ (fingerprint v).isSome ∧ fingerprint v = w.print then w
  else { w with print := fingerprint v }.push v

/-- The read returns. -/
def readDone (fingerprint : V → Option String) (w : Watch V E) (v : V) : Option (Watch V E) :=
  match w.loop with
  | .reading initial => some { w.deliver fingerprint v initial with lastRead := some v }.loopHead
  | _ => none

/-- The read is rejected. -/
def readFails (w : Watch V E) (e : E) : Option (Watch V E) :=
  match w.loop with
  | .reading _ => some (if w.stopped then w.finish else (w.fail e).finish)
  | _ => none

/-! ### What holds of every subscriber -/

section

variable {P : Subscriber V E → Prop} {w : Watch V E} {i : Nat}

theorem forall_deliverAll {f : Subscriber V E → Subscriber V E} (h : ∀ sub ∈ w.subs, P sub)
    (hf : ∀ sub, P sub → sub.attached = true → P (f sub)) :
    ∀ sub ∈ (w.deliverAll f).subs, P sub := by
  intro sub hsub
  obtain ⟨old, hold, rfl⟩ := List.mem_map.1 hsub
  split
  · rename_i hattached
    exact hf old (h old hold) hattached
  · exact h old hold

theorem forall_set {sub : Subscriber V E} (h : ∀ sub ∈ w.subs, P sub) (hsub : P sub) :
    ∀ sub' ∈ w.subs.set i sub, P sub' := by
  intro sub' hmem
  rcases List.mem_or_eq_of_mem_set hmem with hmem | rfl
  · exact h sub' hmem
  · exact hsub

@[simp] theorem subs_stop : w.stop.subs = w.subs := rfl

@[simp] theorem subs_wakeLoop : w.wakeLoop.subs = w.subs := rfl

/-- A dropped subscriber is done and detached. -/
theorem forall_drop (h : ∀ sub ∈ w.subs, P sub)
    (hdrop : ∀ sub, P sub → P { { sub with done := true }.wakeUp with attached := false })
    (hagain : ∀ sub, P sub → sub.attached = false → P { sub with done := true }.wakeUp) :
    ∀ sub ∈ (w.drop i).subs, P sub := by
  unfold drop
  split
  · rename_i sub hsub
    have hold := h sub (List.mem_of_getElem? hsub)
    simp only
    split
    · split <;> exact forall_set h (hdrop sub hold)
    · rename_i hattached
      exact forall_set h (hagain sub hold (by simpa using hattached))
  · exact h

end

end Watch

/-! ## The entry of a key -/

inductive WatchEvent (V E : Type) where
  | pull (i : Nat)
  | goOn (i pull : Nat)
  | leave (i : Nat)
  | notify
  | pump
  | closeFeed
  | pumpEnds
  | pumpFails (e : E)
  | changed
  | settled
  | readDone (v : V)
  | readFails (e : E)
  deriving DecidableEq, Repr

/-- `fingerprint` maps a value to `none` where the deps have none, or where it
throws. -/
def Watch.step {V E : Type} (fingerprint : V → Option String) (w : Watch V E) :
    WatchEvent V E → Option (Watch V E)
  | .pull i => w.pull i
  | .goOn i pull => w.goOn i pull
  | .leave i => w.leave i
  | .notify => w.notify
  | .pump => w.pump
  | .closeFeed => some w.closeFeed
  | .pumpEnds => w.pumpEnds
  | .pumpFails e => w.pumpFails e
  | .changed => w.changed
  | .settled => w.settled
  | .readDone v => w.readDone fingerprint v
  | .readFails e => w.readFails e

/-- The shared watches that a key has had, and the one in the map. -/
structure WatchKeyState (V E : Type) where
  watches : List (Watch V E)
  entry : Option Nat

inductive WatchLabel (V E : Type) where
  /-- `#resolveWatch` and the subscription to what it returns. -/
  | subscribe (aborted : Bool)
  | watch (k : Nat) (e : WatchEvent V E)
  deriving DecidableEq, Repr

namespace WatchKeyState

variable {V E : Type}

/-- Watch `k` moves on; `onEmpty` deletes the key's entry. -/
def setWatch (s : WatchKeyState V E) (k : Nat) (old w : Watch V E) : WatchKeyState V E :=
  { watches := s.watches.set k w
    entry := if old.emptied < w.emptied then none else s.entry }

/-- The entry in the map, or a new one. -/
def resolveWatch (s : WatchKeyState V E) : WatchKeyState V E × Nat :=
  match s.entry with
  | some k => (s, k)
  | none =>
      ({ watches := s.watches ++ [{}], entry := some s.watches.length }, s.watches.length)

def step (fingerprint : V → Option String) (s : WatchKeyState V E) :
    WatchLabel V E → Option (WatchKeyState V E)
  | .subscribe aborted =>
      let resolved := s.resolveWatch
      match resolved.1.watches[resolved.2]? with
      | some w => some (resolved.1.setWatch resolved.2 w (w.subscribe aborted))
      | none => none
  | .watch k e =>
      match s.watches[k]? with
      | some w =>
          match w.step fingerprint e with
          | some w' => some (s.setWatch k w w')
          | none => none
      | none => none

end WatchKeyState

/-- The shared watches of one key, from an activation that has none. -/
def sharedWatches {V E : Type} (fingerprint : V → Option String) :
    Machine.System (WatchKeyState V E) (WatchLabel V E) where
  initial := fun s => s = { watches := [], entry := none }
  step := WatchKeyState.step fingerprint

end SigxActors.Host
