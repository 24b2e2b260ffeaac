/-
  Client/SocketTransport.lean --- one multiplexed socket: its dials, calls and subscriptions.

  Source: `socketTransport` of `packages/actors-ws/src/client.ts`, and
  `createSocketLiveChannel` of `packages/actors/src/app/live-shared.ts`.

  A run of `openOnce` is a dial.  Dials, callers and redial loops are numbered by when they
  were begun, and a link has the number of its dial.  `throws` says for which dials `connect`
  throws; the handlers of a link are called when `connect` has returned.

  Who awaits `ready()` goes on in a step of its own, some time after the promise has settled.
  The arguments have been encoded; a frame that a closing link loses has been posted.
-/
import SigxActors.Client.LiveShared

set_option autoImplicit false

namespace SigxActors.Client

open SigxActors.Js

/-! ## Dialling -/

/-- Where a run of `openOnce` is. -/
inductive Dial where
  | backoff
  | connecting
  | opened
  | rejected (closed : Bool)
  deriving DecidableEq, Repr

/-- The promise that `ready` has returned. -/
inductive Await where
  | resolved
  | closed
  | dial (d : Nat)
  deriving DecidableEq, Repr

/-- Why a call fails. -/
inductive SocketFailure (E : Type) where
  /-- `closedError`. -/
  | closed
  /-- `lostError`. -/
  | lost
  /-- The dial has failed. -/
  | refused
  /-- `abortError`. -/
  | aborted
  | wire (e : E)
  deriving DecidableEq, Repr

structure Dialer where
  closed : Bool := false
  link : Option Nat := none
  opening : Option Nat := none
  failures : Nat := 0
  dials : List Dial := []
  deriving DecidableEq, Repr

namespace Dialer

variable (throws : Nat → Bool) (s : Dialer)

/-- `connectFn`, as dial `d` calls it. -/
def connect (d : Nat) : Dialer :=
  if throws d then
    { s with
      dials := s.dials.set d (.rejected false)
      failures := s.failures + 1
      opening := none }
  else { s with dials := s.dials.set d .connecting }

/-- `openOnce`, up to where it waits. -/
def openOnce : Dialer :=
  let begun := { s with dials := s.dials ++ [.backoff] }
  if 0 < s.failures then begun else begun.connect throws s.dials.length

/-- `ready`. -/
def ready : Dialer × Await :=
  if s.closed then (s, .closed)
  else if s.link.isSome then (s, .resolved)
  else
    match s.opening with
    | some d => (s, .dial d)
    -- `opening` is assigned when `openOnce` has returned, with whatever it did.
    | none => ({ s.openOnce throws with opening := some s.dials.length }, .dial s.dials.length)

/-- What a promise has come to: the failure, where it was rejected. -/
def result (E : Type) : Await → Option (Option (SocketFailure E))
  | .resolved => some none
  | .closed => some (some .closed)
  | .dial d =>
      match s.dials[d]? with
      | some .opened => some none
      | some (.rejected true) => some (some .closed)
      | some (.rejected false) => some (some .refused)
      | some .backoff | some .connecting | none => none

/-- The timer of a dial. -/
def fires (d : Nat) : Dialer :=
  if s.closed then { s with dials := s.dials.set d (.rejected true) } else s.connect throws d

/-- `onOpen`, up to the seeding. -/
def opens (d : Nat) : Dialer :=
  if s.closed then { s with dials := s.dials.set d (.rejected true), opening := none }
  else
    { s with
      dials := s.dials.set d .opened
      link := some d
      failures := 0
      opening := none }

/-- `onClose`, before the dial has opened. -/
def refuses (d : Nat) : Dialer :=
  { s with
    dials := s.dials.set d (.rejected false)
    failures := s.failures + 1
    opening := none }

end Dialer

/-! ## Calls -/

/-- A `SocketReply` under a tag. -/
inductive SocketReply (V E : Type) where
  | v (value : V)
  | d
  | e (error : E)
  deriving DecidableEq, Repr

/-- How a call or a stream comes to its end. -/
inductive SocketOutcome (V E : Type) where
  | value (v : Option V)
  /-- A one-way call has been posted. -/
  | sent
  /-- A stream has ended. -/
  | done
  /-- The consumer has left a stream. -/
  | left
  | failed (failure : SocketFailure E)
  deriving DecidableEq, Repr

inductive CallerStage where
  /-- A stream that has not been pulled. -/
  | idle
  | readying (a : Await)
  /-- It has been entered in `inFlight`. -/
  | pending (i : Nat)
  | over
  deriving DecidableEq, Repr

/-- A call, or a stream. -/
structure SocketCaller (V E : Type) where
  stream : Bool
  oneWay : Bool := false
  /-- Its signal was aborted, before it was over. -/
  aborted : Bool := false
  stage : CallerStage
  value : Option V := none
  queue : List V := []
  ended : Bool := false
  failure : Option (SocketFailure E) := none
  /-- A pull waits. -/
  waiting : Bool := false
  yielded : List V := []
  /-- The links that its call frame was posted on. -/
  posted : List Nat := []
  /-- The links that its cancel was posted on. -/
  cancels : List Nat := []
  /-- Each time it was settled. -/
  outcomes : List (SocketOutcome V E) := []
  deriving DecidableEq, Repr

namespace SocketCaller

variable {V E : Type} (r : SocketCaller V E)

def settle (outcome : SocketOutcome V E) : SocketCaller V E :=
  { r with stage := .over, outcomes := r.outcomes ++ [outcome] }

/-- `fail` of its entry. -/
def fail (failure : SocketFailure E) : SocketCaller V E :=
  if r.stream then { r with failure := some failure } else r.settle (.failed failure)

/-- `frame` of its entry. -/
def frame : SocketReply V E → SocketCaller V E
  | .v value =>
      if r.stream then { r with queue := r.queue ++ [value] } else { r with value := some value }
  | .d => if r.stream then { r with ended := true } else r.settle (.value r.value)
  | .e error => r.fail (.wire error)

/-- Its call frame is posted. -/
def post (link : Option Nat) : SocketCaller V E := { r with posted := r.posted ++ link.toList }

/-- Its cancel is posted. -/
def cancel (link : Option Nat) : SocketCaller V E := { r with cancels := r.cancels ++ link.toList }

end SocketCaller

/-! ## Subscriptions -/

/-- A request of the live channel. -/
inductive LiveRequest where
  | sub (i k : Nat)
  | uns (i : Nat)
  deriving DecidableEq, Repr

/-- The entry that goes with its last listener. -/
def SubscriptionSet.removed {K P V E : Type} (set : SubscriptionSet K P V E) (i : Nat) : Option K :=
  match set.listeners[i]? with
  | none => none
  | some listener =>
      match set.made[listener.mine]? with
      | none => none
      | some entry =>
          if i ∈ entry.listeners ∧ entry.listeners.filter (· ≠ i) = [] then some entry.id else none

/-- `SocketLiveChannel`; one that is closed has been dropped. -/
structure SocketLiveChannel (K P V E : Type) where
  set : SubscriptionSet K P V E := {}
  byWireId : JsMap Nat Nat := .empty
  wireIds : JsMap K Nat := .empty

structure SocketTransport (K P V E : Type) extends Dialer where
  nextId : Nat := 1
  inFlight : JsMap Nat Nat := .empty
  live : Option (SocketLiveChannel K P V E) := none
  callers : List (SocketCaller V E) := []
  /-- The runs of `redialForLive`, and what each awaits. -/
  loops : List (Option Await) := []
  /-- What the live channel has posted, and on which link. -/
  liveSent : List (Nat × LiveRequest) := []

namespace SocketTransport

variable {K P V E : Type} [DecidableEq K] [DecidableEq P] (fingerprint : V → Option P)
  (throws : Nat → Bool) (s : SocketTransport K P V E)

/-- `ready`, whoever calls it. -/
def ready : SocketTransport K P V E × Await :=
  ({ s with toDialer := (s.toDialer.ready throws).1 }, (s.toDialer.ready throws).2)

/-- How many subscriptions are held. -/
def size : Nat :=
  match s.live with
  | some ch => ch.set.entries.entries.length
  | none => 0

/-! ### Calls and streams -/

def modifyCaller (c : Nat) (f : SocketCaller V E → SocketCaller V E) : SocketTransport K P V E :=
  { s with callers := s.callers.modify c f }

/-- `inFlight.delete`, and the cancel where there was an entry. -/
def drop (c i : Nat) (cancels : Bool) : SocketTransport K P V E :=
  let held := (s.inFlight.get i).isSome
  let s := { s with inFlight := s.inFlight.erase i }
  if held && cancels then s.modifyCaller c (·.cancel s.link) else s

/-- `call`, up to where it waits; `aborted`: its signal has been. -/
def call (oneWay aborted : Bool) : SocketTransport K P V E :=
  if aborted then
    { s with callers := s.callers ++
      [{ stream := false, oneWay := oneWay, aborted := true, stage := .over,
         outcomes := [.failed .aborted] }] }
  else
    let (s, a) := s.ready throws
    { s with callers := s.callers ++ [{ stream := false, oneWay := oneWay, stage := .readying a }] }

/-- `stream`. -/
def stream (aborted : Bool) : SocketTransport K P V E :=
  { s with callers := s.callers ++ [{ stream := true, aborted := aborted, stage := .idle }] }

/-- A call goes on from `ready`: it is entered and posted. -/
def register (c : Nat) (r : SocketCaller V E) : SocketTransport K P V E :=
  let i := s.nextId
  let s := { s with nextId := s.nextId + 1 }
  if r.oneWay then s.modifyCaller c fun r => (r.post s.link).settle .sent
  else
    { s with inFlight := s.inFlight.set i c }.modifyCaller c fun r =>
      { r with stage := .pending i, waiting := r.stream }.post s.link

/-- The `finally` of a stream. -/
def leave (c i : Nat) (r : SocketCaller V E) (outcome : SocketOutcome V E) :
    SocketTransport K P V E :=
  (s.drop c i (!r.ended)).modifyCaller c (·.settle outcome)

/-- A stream goes on to where it yields, waits or ends. -/
def goOn (c i : Nat) (r : SocketCaller V E) : SocketTransport K P V E :=
  match r.queue with
  | v :: rest =>
      s.modifyCaller c fun r =>
        { r with queue := rest, yielded := r.yielded ++ [v], waiting := false }
  | [] =>
      match r.failure with
      | some failure => s.leave c i r (.failed failure)
      | none =>
          if r.ended then s.leave c i r .done
          else s.modifyCaller c fun r => { r with waiting := true }

/-- `abort` on the signal of a call that listens to it. -/
def onAbort (c i : Nat) (r : SocketCaller V E) : SocketTransport K P V E :=
  if r.stream then s.modifyCaller c (·.fail .aborted)
  else (s.drop c i true).modifyCaller c (·.settle (.failed .aborted))

/-- A reply for a call. -/
def frame (c i : Nat) (reply : SocketReply V E) : SocketTransport K P V E :=
  match reply with
  | .v _ => s.modifyCaller c (·.frame reply)
  | .d | .e _ => { s with inFlight := s.inFlight.erase i }.modifyCaller c (·.frame reply)

/-- `failAll`. -/
def failAll (failure : SocketFailure E) : SocketTransport K P V E :=
  (s.inFlight.entries.map Prod.snd).foldl (fun s c => s.modifyCaller c (·.fail failure))
    { s with inFlight := .empty }

/-! ### The live channel -/

/-- `send`, of the host that the channel was given. -/
def sendLive (request : LiveRequest) : SocketTransport K P V E :=
  if s.closed then s
  else
    match s.link with
    | some link => { s with liveSent := s.liveSent ++ [(link, request)] }
    | none => (s.ready throws).1

/-- `open`: entry `k` goes out under an id of its own. -/
def openLive (k : Nat) (id : K) : SocketTransport K P V E :=
  let i := s.nextId
  let live := s.live.map fun ch =>
    { ch with byWireId := ch.byWireId.set i k, wireIds := ch.wireIds.set id i }
  { s with nextId := s.nextId + 1, live := live }.sendLive throws (.sub i k)

/-- `reseed`. -/
def reseed : SocketTransport K P V E :=
  match s.live with
  | none => s
  | some ch =>
      ch.set.entries.entries.foldl (fun s q => s.openLive throws q.2 q.1)
        { s with live := some { ch with byWireId := .empty, wireIds := .empty } }

/-- `live().subscribe`. -/
def subscribe (id : K) (onError : Bool) : SocketTransport K P V E :=
  let ch := s.live.getD {}
  let (set, k) := ch.set.resolve id
  let s := { s with live := some { ch with set := set } }
  let s := if ch.set.entries.has id then s else s.openLive throws k id
  { s with live := s.live.map fun ch => { ch with set := ch.set.join k onError } }

/-- What `subscribe` has returned is called. -/
def dispose (i : Nat) : SocketTransport K P V E :=
  match s.live with
  | none => s
  | some ch =>
      let removed := ch.set.removed i
      let ch := { ch with set := ch.set.dispose i }
      let s := { s with live := some ch }
      match removed with
      | none => s
      | some id =>
          match ch.wireIds.get id with
          | none => s
          | some w =>
              let ch :=
                { ch with wireIds := ch.wireIds.erase id, byWireId := ch.byWireId.erase w }
              { s with live := some ch }.sendLive throws (.uns w)

/-- `handle` of the channel. -/
def handle (i : Nat) (reply : SocketReply V E) : Option (SocketTransport K P V E) :=
  match s.live with
  | none => some s
  | some ch =>
      match ch.byWireId.get i with
      | none => some s
      | some k =>
          let set :=
            match reply with
            | .v value => SubscriptionSet.step fingerprint ch.set (.value k value)
            | .e error => SubscriptionSet.step fingerprint ch.set (.error k error)
            | .d => some ch.set
          set.map fun set => { s with live := some { ch with set := set } }

/-! ### The link -/

/-- `redialForLive`, from the head of its loop. -/
def redial : SocketTransport K P V E × Option Await :=
  if !s.closed && s.link.isNone && 0 < s.size then
    ((s.ready throws).1, some (s.ready throws).2)
  else (s, none)

/-- `dropLink`. -/
def dropLink : SocketTransport K P V E :=
  let s := { s with link := none, opening := none }.failAll .lost
  if 0 < s.size then
    let (s, a) := s.redial throws
    { s with loops := s.loops ++ [a] }
  else s

/-- `close`. -/
def close : SocketTransport K P V E :=
  if s.closed then s
  else { s with closed := true, link := none, opening := none, live := none }.failAll .closed

inductive Label (K V E : Type) where
  | call (oneWay aborted : Bool)
  | stream (aborted : Bool)
  /-- `next`. -/
  | pull (c : Nat)
  /-- `return`. -/
  | leave (c : Nat)
  /-- A call goes on from `ready`. -/
  | resume (c : Nat)
  /-- A stream is woken. -/
  | wake (c : Nat)
  | abort (c : Nat)
  | message (i : Nat) (reply : SocketReply V E)
  | fires (d : Nat)
  | opens (d : Nat)
  | closes (d : Nat)
  /-- A redial loop goes on from `ready`. -/
  | loop (n : Nat)
  | subscribe (id : K) (onError : Bool)
  | dispose (i : Nat)
  | notify
  | replay
  | close

/-- One step. -/
def step : Label K V E → Option (SocketTransport K P V E)
  | .call oneWay aborted => some (s.call throws oneWay aborted)
  | .stream aborted => some (s.stream aborted)
  | .pull c =>
      match s.callers[c]? with
      | none => none
      | some r =>
          match r.stage with
          | .idle =>
              if r.aborted then some (s.modifyCaller c (·.settle (.failed .aborted)))
              else
                let (s, a) := s.ready throws
                some (s.modifyCaller c fun r => { r with stage := .readying a })
          | .pending i => if r.stream && !r.waiting then some (s.goOn c i r) else none
          | .readying _ | .over => none
  | .leave c =>
      match s.callers[c]? with
      | none => none
      | some r =>
          match r.stage with
          | .idle => some (s.modifyCaller c (·.settle .left))
          | .pending i => if r.stream && !r.waiting then some (s.leave c i r .left) else none
          | .readying _ | .over => none
  | .resume c =>
      match s.callers[c]? with
      | none => none
      | some r =>
          match r.stage with
          | .readying a =>
              match s.result E a with
              | none => none
              | some (some failure) => some (s.modifyCaller c (·.settle (.failed failure)))
              | some none => some (s.register c r)
          | .idle | .pending _ | .over => none
  | .wake c =>
      match s.callers[c]? with
      | none => none
      | some r =>
          match r.stage with
          | .pending i =>
              if r.stream && r.waiting && (!r.queue.isEmpty || r.failure.isSome || r.ended) then
                some (s.goOn c i r)
              else none
          | .idle | .readying _ | .over => none
  | .abort c =>
      match s.callers[c]? with
      | none => none
      | some r =>
          if r.aborted then none
          else
            let s := s.modifyCaller c fun r => { r with aborted := true }
            match r.stage with
            | .pending i => some (s.onAbort c i r)
            | .idle | .readying _ => some s
            | .over => none
  | .message i reply =>
      match s.inFlight.get i with
      | some c => some (s.frame c i reply)
      | none => s.handle fingerprint i reply
  | .fires d =>
      match s.dials[d]? with
      | some .backoff => some { s with toDialer := s.toDialer.fires throws d }
      | _ => none
  | .opens d =>
      match s.dials[d]? with
      | some .connecting =>
          let t := { s with toDialer := s.toDialer.opens d }
          some (if !s.closed && 0 < s.size then t.reseed throws else t)
      | _ => none
  | .closes d =>
      match s.dials[d]? with
      | some .connecting => some { s with toDialer := s.toDialer.refuses d }
      | some .opened => some (if s.link = some d then s.dropLink throws else s)
      | _ => none
  | .loop n =>
      match s.loops[n]? with
      | some (some a) =>
          match s.result E a with
          | none => none
          | some _ =>
              let (s, a) := s.redial throws
              some { s with loops := s.loops.set n a }
      | _ => none
  | .subscribe id onError => some (s.subscribe throws id onError)
  | .dispose i => some (s.dispose throws i)
  | .notify =>
      match s.live with
      | some ch => ch.set.notify.map fun set => { s with live := some { ch with set := set } }
      | none => none
  | .replay =>
      match s.live with
      | some ch =>
          (SubscriptionSet.step fingerprint ch.set .replay).map fun set =>
            { s with live := some { ch with set := set } }
      | none => none
  | .close => some s.close

end SocketTransport

/-- The machine of one client transport. -/
def socketTransport {K P V E : Type} [DecidableEq K] [DecidableEq P]
    (fingerprint : V → Option P) (throws : Nat → Bool) :
    Machine.System (SocketTransport K P V E) (SocketTransport.Label K V E) where
  initial s := s = {}
  step s l := SocketTransport.step fingerprint throws s l

end SigxActors.Client
