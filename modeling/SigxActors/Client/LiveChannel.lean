/-
  Client/LiveChannel.lean --- one connection for the subscriptions of a page.

  Source: `createLiveChannel` of `packages/actors/src/app/live.ts`.

  A change of the set is debounced, and the connection is opened anew with the set as it
  is then.  A run is an `async` function that goes on where what it waits for has settled:
  a frame, the end or the failure of the stream, or the end of its sleep.  A run that is
  no more the current one notices where it goes on, and may be late.

  The transport has a `stream()` and no channel of its own; whether there is one is asked
  whenever a connection is opened.  What was sent for each connection is history that no
  step reads.  The statistics and the reporting of failures are left out.
-/
import SigxActors.Client.LiveShared

set_option autoImplicit false

namespace SigxActors.Client

open SigxActors.Js

namespace SubscriptionSet

variable {K P V E : Type}

/-- `set.entries()`. -/
def order (s : SubscriptionSet K P V E) : List Nat := s.entries.entries.map Prod.snd

/-- `entry.wire`. -/
def wire (s : SubscriptionSet K P V E) (k : Nat) : Option K := s.made[k]?.map (·.id)

/-- The disposer takes the last listener of an entry. -/
def empties (s : SubscriptionSet K P V E) (i : Nat) : Bool :=
  match s.listeners[i]? with
  | none => false
  | some listener =>
      match s.made[listener.mine]? with
      | none => false
      | some entry => decide (i ∈ entry.listeners) && (entry.listeners.filter (· ≠ i)).isEmpty

end SubscriptionSet

structure LiveChannelOptions where
  retryMs : Nat := 1000
  maxRetryMs : Nat := 30000

/-- What a run waits for. -/
inductive RunPhase where
  /-- The next frame of a connection; `order` is the set as sent. -/
  | streaming (connection : Nat) (order : List Nat)
  /-- The end of its sleep. -/
  | retrying
  /-- It has returned: its stream is done, or there is no transport. -/
  | done
  /-- It has returned: it is stale. -/
  | left
  deriving DecidableEq, Repr

structure LiveRun where
  /-- The generation. -/
  mine : Nat
  delay : Nat
  phase : RunPhase
  /-- Its controller's signal. -/
  aborted : Bool := false
  deriving DecidableEq, Repr

structure LiveChannel (K P V E : Type) where
  set : SubscriptionSet K P V E := {}
  /-- The debounce timer is pending. -/
  timer : Bool := false
  /-- The run whose controller it is. -/
  connection : Option Nat := none
  generation : Nat := 0
  closed : Bool := false
  runs : List LiveRun := []
  /-- What was sent for each connection. -/
  sent : List (List (Option K)) := []

namespace LiveChannel

variable {K P V E : Type} [DecidableEq K] [DecidableEq P]

section

variable (s : LiveChannel K P V E)

def schedule : LiveChannel K P V E :=
  if s.closed || s.timer then s else { s with timer := true }

def subscribe (id : K) (onError : Bool) : LiveChannel K P V E :=
  if s.closed then s
  else
    let t := { s with set := s.set.subscribe id onError }
    if (s.set.entries.get id).isNone then t.schedule else t

/-- What `subscribe` returns. -/
def dispose (i : Nat) : LiveChannel K P V E :=
  let t := { s with set := s.set.dispose i }
  if s.set.empties i then t.schedule else t

def setPhase (r : Nat) (phase : RunPhase) : LiveChannel K P V E :=
  { s with runs := s.runs.modify r fun run => { run with phase := phase } }

def setDelay (r delay : Nat) : LiveChannel K P V E :=
  { s with runs := s.runs.modify r fun run => { run with delay := delay } }

/-- `connection?.abort()`. -/
def abort : LiveChannel K P V E :=
  match s.connection with
  | some r => { s with runs := s.runs.modify r fun run => { run with aborted := true } }
  | none => s

/-- `closed || mine !== generation`. -/
def stale (run : LiveRun) : Bool := s.closed || run.mine != s.generation

/-- One pass of the loop of `run`, up to where it waits for a frame. -/
def attempt (r : Nat) (transport : Bool) : LiveChannel K P V E :=
  match s.runs[r]? with
  | none => s
  | some run =>
      if s.stale run then s.setPhase r .left
      else if transport then
        { s.setPhase r (.streaming s.sent.length s.set.order) with
          sent := s.sent ++ [s.set.order.map s.set.wire] }
      else s.setPhase r .done

/-- `restart`. -/
def restart (o : LiveChannelOptions) (transport : Bool) : LiveChannel K P V E :=
  let t := { abort { s with generation := s.generation + 1 } with connection := none }
  if t.closed || t.set.entries.keys.isEmpty then t
  else
    attempt { t with
      connection := some t.runs.length
      runs := t.runs ++ [{ mine := t.generation, delay := o.retryMs, phase := .retrying }] }
      t.runs.length transport

/-- `deliver`; a keepalive carries nothing. -/
def deliver (fingerprint : V → Option P) (order : List Nat) (i : Nat)
    (frame : Option (LiveFrame V E)) : LiveChannel K P V E :=
  match frame, order[i]? with
  | some (.value v), some k => { s with set := (SubscriptionSet.deliverValue fingerprint s.set k v).1 }
  | some (.error e), some k => { s with set := s.set.deliverError k e }
  | _, _ => s

/-- A frame arrives in a run. -/
def frame (o : LiveChannelOptions) (fingerprint : V → Option P) (r i : Nat)
    (frame : Option (LiveFrame V E)) : Option (LiveChannel K P V E) :=
  match s.runs[r]? with
  | some run =>
      match run.phase with
      | .streaming _ order =>
          if s.stale run then some (s.setPhase r .left)
          else some ((s.setDelay r o.retryMs).deliver fingerprint order i frame)
      | _ => none
  | none => none

/-- The stream of a run ends. -/
def finish (r : Nat) : Option (LiveChannel K P V E) :=
  match s.runs[r]? with
  | some run =>
      match run.phase with
      | .streaming _ _ => some (s.setPhase r .done)
      | _ => none
  | none => none

/-- The stream of a run fails. -/
def drop (r : Nat) : Option (LiveChannel K P V E) :=
  match s.runs[r]? with
  | some run =>
      match run.phase with
      | .streaming _ _ =>
          some (s.setPhase r (if s.stale run || run.aborted then .left else .retrying))
      | _ => none
  | none => none

/-- The sleep of a run ends. -/
def wake (o : LiveChannelOptions) (r : Nat) (transport : Bool) : Option (LiveChannel K P V E) :=
  match s.runs[r]? with
  | some run =>
      match run.phase with
      | .retrying => some ((s.setDelay r (min (run.delay * 2) o.maxRetryMs)).attempt r transport)
      | _ => none
  | none => none

def close : LiveChannel K P V E :=
  { abort { s with closed := true, timer := false, generation := s.generation + 1 } with
    connection := none
    set := s.set.clear }

end

inductive Label (K V E : Type) where
  | subscribe (id : K) (onError : Bool)
  | dispose (i : Nat)
  /-- The debounce timer fires. -/
  | fire (transport : Bool)
  | frame (r i : Nat) (frame : Option (LiveFrame V E))
  | finish (r : Nat)
  | drop (r : Nat)
  | wake (r : Nat) (transport : Bool)
  /-- The next listener hears of the frame that came last. -/
  | notify
  /-- A listener that has joined is served from the cache. -/
  | replay
  | close

def step (o : LiveChannelOptions) (fingerprint : V → Option P) (s : LiveChannel K P V E) :
    Label K V E → Option (LiveChannel K P V E)
  | .subscribe id onError => some (s.subscribe id onError)
  | .dispose i => some (s.dispose i)
  | .fire transport =>
      if s.timer then some (restart { s with timer := false } o transport) else none
  | .frame r i frame => if s.set.notifying.isEmpty then s.frame o fingerprint r i frame else none
  | .finish r => s.finish r
  | .drop r => s.drop r
  | .wake r transport => s.wake o r transport
  | .notify => s.set.notify.map fun set => { s with set := set }
  | .replay =>
      if s.set.notifying.isEmpty then s.set.replay.map fun set => { s with set := set } else none
  | .close => some s.close

end LiveChannel

/-- A channel that was just created. -/
def liveChannel {K P V E : Type} [DecidableEq K] [DecidableEq P] (o : LiveChannelOptions)
    (fingerprint : V → Option P) :
    Machine.System (LiveChannel K P V E) (LiveChannel.Label K V E) where
  initial s := s = {}
  step := LiveChannel.step o fingerprint

end SigxActors.Client
