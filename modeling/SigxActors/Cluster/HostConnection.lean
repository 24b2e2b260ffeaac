/-
  Cluster/HostConnection.lean --- one end of a host-to-host connection.

  Source: `packages/actors/src/cluster/connection.ts`.

  Everything the connection does between two awaits is one operation here.  What
  the link does with a frame it is given is a parameter of the operation, since
  any carrier may stand under the connection; a link that closes while it takes
  the bytes has its close event run at once.

  Correlation ids key three maps.  What they hold is an index into a list that
  only grows, so that a call, a consumer or an inbound call can be followed past
  its end.  What the link has taken stays in `out` until it is delivered.

  Left out is what only holds a stream back: credit, and the drain of the link.
  An inbound stream yields here whenever it likes.
-/
import SigxActors.Cluster.WireErrors
import SigxActors.Js.Map
import SigxActors.Machine.Transition

set_option autoImplicit false

namespace SigxActors.Cluster

open SigxActors.Js

/-- `unreachable(reason)`. -/
def unreachable (reason : String) : Thrown :=
  .actor
    { kind := .unreachable
      message := "[sigx actors] host connection unavailable (" ++ reason ++ ")" }

/-- The error of a call that was in flight when its connection closed. -/
def outcomeUnknown (reason : String) : Thrown :=
  .other
    ("[sigx actors] host connection closed with this call in flight (" ++ reason ++
      "): outcome unknown, not retried") none

/-! ## Frames -/

/-- The payload of a CALL. -/
structure CallPayload (V : Type) where
  symbol : String
  envelope : String
  args : V
  auth : Option String := none

inductive Frame (V : Type) where
  /-- HELLO or WELCOME. -/
  | hello (hostId : Option String)
  | ping (corrId : Nat)
  | pong (corrId : Nat)
  | goaway (status : Nat) (message : Option String)
  /-- `stream` is `FLAG_STREAM`. -/
  | call (corrId : Nat) (stream : Bool) (payload : CallPayload V)
  | reply (corrId : Nat) (value : V)
  | error (corrId : Nat) (status : Nat) (wire : Option HostWireError)
  | chunk (corrId : Nat) (value : V)
  | end_ (corrId : Nat)
  | cancel (corrId : Nat) (reason : String)

/-- What a link does with a frame. -/
inductive Sent where
  | taken
  /-- It throws: the bytes were not taken. -/
  | threw
  /-- It takes the bytes and closes. -/
  | closing
  deriving DecidableEq, Repr

/-- What a link does with each frame it is given. -/
abbrev Link (V : Type) := Frame V → Sent

/-! ## What a connection holds -/

/-- How a call settles. -/
inductive Settlement (V : Type) where
  | reply (value : V)
  /-- The peer's error. -/
  | error (error : Thrown)
  /-- The caller's own reason. -/
  | aborted (reason : Thrown)
  | unreachable (reason : String)
  /-- The connection closed under it. -/
  | lost (reason : String)
  deriving DecidableEq, Repr

/-- The error the caller sees, if any. -/
def Settlement.thrown {V : Type} : Settlement V → Option Thrown
  | .reply _ => none
  | .error e => some e
  | .aborted reason => some reason
  | .unreachable reason => some (Cluster.unreachable reason)
  | .lost reason => some (outcomeUnknown reason)

/-- A unary call, from its dispatch on. -/
structure UnaryCall (V : Type) where
  /-- None where it was refused before it had one. -/
  corrId : Option Nat
  /-- The link has taken its CALL. -/
  written : Bool
  settled : List (Settlement V)
  deriving DecidableEq, Repr

/-- The consumer of an outbound stream. -/
structure Consumer (V : Type) where
  corrId : Nat
  written : Bool := false
  queue : List V := []
  failure : Option (Settlement V) := none
  done : Bool := false
  /-- Its generator has been pulled. -/
  started : Bool := false
  /-- Its abort listener is attached. -/
  listening : Bool := false
  /-- Its generator has returned. -/
  over_ : Bool := false
  deriving DecidableEq, Repr

/-- Its generator or its listener may still forget the stream. -/
def Consumer.live {V : Type} (consumer : Consumer V) : Bool :=
  !consumer.over_ || consumer.listening

inductive Phase where
  /-- It is being authorized and resolved. -/
  | accepted
  | running
  | streaming
  | over_
  deriving DecidableEq, Repr

/-- An inbound call. -/
structure Serving (V : Type) where
  corrId : Nat
  stream : Bool
  payload : CallPayload V
  phase : Phase := .accepted
  /-- Its controller has been aborted. -/
  aborted : Bool := false

structure HostConnection (V : Type) where
  dialer : Bool
  /-- Dialer even, acceptor odd. -/
  nextCorr : Nat := if dialer then 2 else 3
  closed : Bool := false
  retiring : Option String := none
  /-- The peer was told that the outbound work is finished. -/
  sentDone : Bool := false
  /-- The peer has told the same. -/
  peerDone : Bool := false
  peerHostId : String := ""
  unary : JsMap Nat Nat := .empty
  streams : JsMap Nat Nat := .empty
  inbound : JsMap Nat Nat := .empty
  calls : List (UnaryCall V) := []
  consumers : List (Consumer V) := []
  servings : List (Serving V) := []
  /-- What the link has taken and has yet to deliver. -/
  out : List (Frame V) := []

namespace HostConnection

variable {V : Type} (link : Link V) (c : HostConnection V)

/-! ## Settling -/

/-- Call `id` settles. -/
def settle (id : Nat) (settlement : Settlement V) : HostConnection V :=
  { c with
    calls := c.calls.modify id fun call =>
      { call with settled := call.settled ++ [settlement] } }

/-- Consumer `k` changes. -/
def modifyConsumer (k : Nat) (f : Consumer V → Consumer V) : HostConnection V :=
  { c with consumers := c.consumers.modify k f }

/-- `fail` of a stream. -/
def failStream (k : Nat) (failure : Settlement V) : HostConnection V :=
  c.modifyConsumer k fun consumer => { consumer with failure := some failure, done := true }

/-- `#cancelInbound`. -/
def cancelInbound (corrId : Nat) : HostConnection V :=
  match c.inbound.get corrId with
  | some k =>
      { c with
        inbound := c.inbound.erase corrId
        servings := c.servings.modify k fun serving => { serving with aborted := true } }
  | none => c

/-! ## Closing and sending -/

/-- `close`. -/
def close (reason : String) : HostConnection V :=
  if c.closed then c
  else
    let c := { c with closed := true }
    let c := (c.unary.entries.map Prod.snd).foldl (fun c id => c.settle id (.lost reason)) c
    let c := { c with unary := .empty }
    let c :=
      (c.streams.entries.map Prod.snd).foldl (fun c k => c.failStream k (.unreachable reason)) c
    let c := { c with streams := .empty }
    c.inbound.keys.foldl cancelInbound c

/-- `#send`: whether the link has taken the frame. -/
def send (frame : Frame V) : HostConnection V × Bool :=
  if c.closed then (c, false)
  else
    match link frame with
    | .taken => ({ c with out := c.out ++ [frame] }, true)
    | .threw => (c.close "write failed", false)
    | .closing => ({ c with out := c.out ++ [frame] }.close "link closed", true)

/-- The first half of `#settleRetirement`: the peer is told. -/
def sayDone : HostConnection V :=
  if c.sentDone = false ∧ c.unary.entries = [] ∧ c.streams.entries = [] then
    (send link { c with sentDone := true } (.goaway 0 none)).1
  else c

/-- `#settleRetirement`. -/
def settleRetirement : HostConnection V :=
  match c.closed, c.retiring with
  | false, some reason =>
      let c := c.sayDone link
      if c.sentDone = true ∧ c.peerDone = true then c.close ("retired: " ++ reason) else c
  | _, _ => c

/-- `retire`. -/
def retire (reason : String) : HostConnection V :=
  if c.closed ∨ c.retiring.isSome then c
  else { c with retiring := some reason }.settleRetirement link

/-- `#forgetUnary`. -/
def forgetUnary (corrId : Nat) : HostConnection V × Option Nat :=
  match c.unary.get corrId with
  | some id => ({ c with unary := c.unary.erase corrId }.settleRetirement link, some id)
  | none => (c, none)

/-- `#forgetStream`. -/
def forgetStream (corrId : Nat) : HostConnection V × Bool :=
  if c.streams.has corrId then
    ({ c with streams := c.streams.erase corrId }.settleRetirement link, true)
  else (c, false)

/-! ## Outbound -/

/-- `#allocate`, without the id it returns. -/
def allocate : HostConnection V :=
  { c with
    nextCorr :=
      if c.nextCorr + 2 > 0xffffffff then (if c.dialer then 2 else 3) else c.nextCorr + 2 }

/-- `onAbort` of unary call `id`. -/
def abort (id corrId : Nat) (reason : Thrown) : HostConnection V :=
  match c.forgetUnary link corrId with
  | (c, some _) => (c.send link (.cancel corrId "caller-abort")).1.settle id (.aborted reason)
  | (c, none) => c

/-- The call is refused before anything is written. -/
def refuse (settlement : Settlement V) : HostConnection V :=
  { c with calls := c.calls ++ [⟨none, false, [settlement]⟩] }

/-- `dispatch`.  `aborted` is set where the signal has fired before, `during` where it fires while
the CALL is written. -/
def dispatch (payload : CallPayload V) (aborted during : Option Thrown) : HostConnection V :=
  if c.closed then c.refuse (.unreachable "closed")
  else
    match c.retiring.filter (· ≠ ""), aborted with
    | some reason, _ => c.refuse (.unreachable reason)
    | none, some reason => c.refuse (.aborted reason)
    | none, none =>
        let corrId := c.nextCorr
        let id := c.calls.length
        match c.allocate.send link (.call corrId false payload) with
        | (c, false) =>
            { c with
              calls := c.calls ++ [⟨some corrId, false, [.unreachable "frame not written"]⟩] }
        | (c, true) =>
            let c :=
              { c with
                calls := c.calls ++ [⟨some corrId, true, []⟩]
                unary := c.unary.set corrId id }
            match during with
            | some reason => c.abort link id corrId reason
            | none => c

/-- The signal of call `id` fires: its listener is there until the call settles. -/
def abortUnary (id : Nat) (reason : Thrown) : Option (HostConnection V) :=
  match c.calls[id]? with
  | some ⟨some corrId, true, []⟩ => some (c.abort link id corrId reason)
  | _ => none

/-- A stream that was not written is forgotten; its first pull throws. -/
def unsent (k corrId : Nat) (failure : Settlement V) : HostConnection V :=
  (c.forgetStream link corrId).1.failStream k failure

/-- Why a stream is not written, if it is not. -/
def refusal (aborted : Option Thrown) : Option (Settlement V) :=
  if c.closed then some (.unreachable "closed")
  else
    match c.retiring with
    | some reason => some (.unreachable reason)
    | none => aborted.map .aborted

/-- A stream is registered under the next id. -/
def registerStream : HostConnection V :=
  { c.allocate with
    streams := c.streams.set c.nextCorr c.consumers.length
    consumers := c.consumers ++ [{ corrId := c.nextCorr }] }

/-- `dispatchStream`.  The stream is registered before it is refused. -/
def dispatchStream (payload : CallPayload V) (aborted : Option Thrown) : HostConnection V :=
  let corrId := c.nextCorr
  let k := c.consumers.length
  match c.refusal aborted with
  | some failure => c.registerStream.unsent link k corrId failure
  | none =>
      match c.registerStream.send link (.call corrId true payload) with
      | (c, true) =>
          c.modifyConsumer k fun consumer => { consumer with written := true, listening := true }
      | (c, false) => c.unsent link k corrId (.unreachable "frame not written")

/-- A stream is forgotten, and the peer learns of it. -/
def cancelStream (corrId : Nat) (reason : String) : HostConnection V :=
  match c.forgetStream link corrId with
  | (c, true) => if c.closed then c else (c.send link (.cancel corrId reason)).1
  | (c, false) => c

/-- `onAbort` of the stream of consumer `k`. -/
def abortStream (k : Nat) (reason : Thrown) : Option (HostConnection V) :=
  match c.consumers[k]? with
  | some consumer =>
      if consumer.listening then
        some
          ((c.cancelStream link consumer.corrId "caller-abort").modifyConsumer k fun consumer =>
            { consumer with
              listening := false
              failure := consumer.failure.or (some (.aborted reason))
              done := true })
      else none
  | none => none

/-- The `finally` of the generator. -/
def finishConsumer (k corrId : Nat) : HostConnection V :=
  (c.cancelStream link corrId "consumer-return").modifyConsumer k fun consumer =>
    { consumer with listening := false, over_ := true }

/-- The consumer pulls, and the pull is answered. -/
def pull (k : Nat) : Option (HostConnection V) :=
  match c.consumers[k]? with
  | some consumer =>
      if consumer.over_ then none
      else
        let c := c.modifyConsumer k fun consumer => { consumer with started := true }
        match consumer.queue with
        | _ :: rest => some (c.modifyConsumer k fun consumer => { consumer with queue := rest })
        | [] =>
            if consumer.failure.isSome || consumer.done then
              some (c.finishConsumer link k consumer.corrId)
            else none
  | none => none

/-- The consumer returns early: a generator that was never pulled runs no `finally`. -/
def returnEarly (k : Nat) : Option (HostConnection V) :=
  match c.consumers[k]? with
  | some consumer =>
      if consumer.over_ then none
      else if consumer.started then some (c.finishConsumer link k consumer.corrId)
      else some (c.modifyConsumer k fun consumer => { consumer with over_ := true })
  | none => none

/-! ## Serving -/

/-- Inbound call `k` changes. -/
def modifyServing (k : Nat) (f : Serving V → Serving V) : HostConnection V :=
  { c with servings := c.servings.modify k f }

/-- Inbound call `k` is over. -/
def finishServing (k : Nat) : HostConnection V :=
  c.modifyServing k fun serving => { serving with phase := .over_ }

/-- `#fail`. -/
def fail (corrId status : Nat) (message : String) (data : Option WireErrorData) :
    HostConnection V :=
  (c.send link (.error corrId status (some ⟨some message, some status, data⟩))).1

/-- The call cannot be served: no runtime, no authority, no method, or bad arguments. -/
def refuseCall (k status : Nat) (message : String) (data : Option WireErrorData) :
    Option (HostConnection V) :=
  match c.servings[k]? with
  | some serving =>
      if serving.phase = .accepted then
        some ((c.fail link serving.corrId status message data).finishServing k)
      else none
  | none => none

/-- The call has been resolved and runs, unless the connection has closed meanwhile. -/
def serve (k : Nat) : Option (HostConnection V) :=
  match c.servings[k]? with
  | some serving =>
      if serving.phase = .accepted then
        if c.closed then some (c.finishServing k)
        else if serving.stream then
          some
            ({ c with inbound := c.inbound.set serving.corrId k }.modifyServing k fun serving =>
              { serving with phase := .streaming })
        else some (c.modifyServing k fun serving => { serving with phase := .running })
      else none
  | none => none

/-- The call has returned `value`. -/
def returned (k : Nat) (value : V) : Option (HostConnection V) :=
  match c.servings[k]? with
  | some serving =>
      if serving.phase = .running then
        some ((c.send link (.reply serving.corrId value)).1.finishServing k)
      else none
  | none => none

/-- The stream has yielded `value`. -/
def yielded (k : Nat) (value : V) : Option (HostConnection V) :=
  match c.servings[k]? with
  | some serving =>
      if serving.phase = .streaming then some (c.send link (.chunk serving.corrId value)).1 else none
  | none => none

/-- The `finally` of `#serveStream`. -/
def finishStream (k corrId : Nat) : HostConnection V :=
  { c with inbound := c.inbound.erase corrId }.finishServing k

/-- The stream is over: it has ended, or its controller has been aborted. -/
def ended (k : Nat) : Option (HostConnection V) :=
  match c.servings[k]? with
  | some serving =>
      if serving.phase = .streaming then
        let c := if serving.aborted then c else (c.send link (.end_ serving.corrId)).1
        some (c.finishStream k serving.corrId)
      else none
  | none => none

/-- The call, or the stream, has thrown. -/
def threw (k : Nat) (error : Thrown) : Option (HostConnection V) :=
  let wire := toHostWireError error
  let failed (corrId : Nat) : HostConnection V :=
    c.fail link corrId (wire.status.getD 500) (wire.message.getD "error") wire.data
  match c.servings[k]? with
  | some serving =>
      match serving.phase with
      | .running => some ((failed serving.corrId).finishServing k)
      | .streaming =>
          some ((if serving.aborted then c else failed serving.corrId).finishStream k serving.corrId)
      | _ => none
  | none => none

/-- The source of the stream cannot be made: the call fails, and the stream stays registered. -/
def unmade (k : Nat) (error : Thrown) : Option (HostConnection V) :=
  let wire := toHostWireError error
  match c.servings[k]? with
  | some serving =>
      if serving.phase = .accepted ∧ serving.stream = true ∧ c.closed = false then
        let c := { c with inbound := c.inbound.set serving.corrId k }
        some
          ((c.fail link serving.corrId (wire.status.getD 500) (wire.message.getD "error")
            wire.data).finishServing k)
      else none
  | none => none

/-! ## Inbound -/

/-- What an ERROR frame makes of its error. -/
def errorOf (status : Nat) (wire : Option HostWireError) : Thrown :=
  fromHostWireError (if status = 0 then 500 else status) wire
    ((wire.bind (·.message)).getD "[sigx actors] host call failed")

/-- `#onFrame`. -/
def onFrame : Frame V → HostConnection V
  | .hello hostId =>
      match hostId with
      | some hostId => { c with peerHostId := hostId }
      | none => c
  | .ping corrId => (c.send link (.pong corrId)).1
  | .pong _ => c
  | .goaway status _ =>
      if status = 0 then
        ({ c with peerDone := true }.retire link "peer retired it").settleRetirement link
      else c.close ("peer sent GOAWAY " ++ toString status)
  | .call corrId stream payload =>
      { c with servings := c.servings ++ [{ corrId := corrId, stream := stream, payload := payload }] }
  | .reply corrId value =>
      match c.forgetUnary link corrId with
      | (c, some id) => c.settle id (.reply value)
      | (c, none) => c
  | .error corrId status wire =>
      let error := errorOf status wire
      match c.forgetUnary link corrId with
      | (c, some id) => c.settle id (.error error)
      | (c, none) =>
          match c.streams.get corrId with
          | some k => c.failStream k (.error error)
          | none => c
  | .chunk corrId value =>
      match c.streams.get corrId with
      | some k => c.modifyConsumer k fun consumer => { consumer with queue := consumer.queue ++ [value] }
      | none => c
  | .end_ corrId =>
      match c.streams.get corrId with
      | some k => c.modifyConsumer k fun consumer => { consumer with done := true }
      | none => c
  | .cancel corrId _ => c.cancelInbound corrId

/-- Bytes that are no frame, or one that is too large: the peer is told which. -/
def malformed (oversized : Bool) (message : String) : HostConnection V :=
  (c.send link (.goaway (if oversized then 413 else 400) (some message))).1.close
    (if oversized then "frame too large" else "malformed frame")

/-! ## Operations -/

/-- What this side does of its own accord. -/
inductive Op (V : Type) where
  | hello (hostId : String)
  | dispatch (payload : CallPayload V) (aborted during : Option Thrown)
  | abort (id : Nat) (reason : Thrown)
  | dispatchStream (payload : CallPayload V) (aborted : Option Thrown)
  | abortStream (k : Nat) (reason : Thrown)
  | pull (k : Nat)
  | return_ (k : Nat)
  | refuseCall (k status : Nat) (message : String) (data : Option WireErrorData)
  | serve (k : Nat)
  | returned (k : Nat) (value : V)
  | yielded (k : Nat) (value : V)
  | ended (k : Nat)
  | threw (k : Nat) (error : Thrown)
  | unmade (k : Nat) (error : Thrown)
  | retire (reason : String)

/-- One operation; `none` where it cannot happen. -/
def run : Op V → Option (HostConnection V)
  | .hello hostId => some (c.send link (.hello (some hostId))).1
  | .dispatch payload aborted during => some (c.dispatch link payload aborted during)
  | .abort id reason => c.abortUnary link id reason
  | .dispatchStream payload aborted => some (c.dispatchStream link payload aborted)
  | .abortStream k reason => c.abortStream link k reason
  | .pull k => c.pull link k
  | .return_ k => c.returnEarly link k
  | .refuseCall k status message data => c.refuseCall link k status message data
  | .serve k => c.serve k
  | .returned k value => c.returned link k value
  | .yielded k value => c.yielded link k value
  | .ended k => c.ended link k
  | .threw k error => c.threw link k error
  | .unmade k error => c.unmade link k error
  | .retire reason => some (c.retire link reason)

/-! ## One connection -/

inductive Label (V : Type) where
  | op (link : Link V) (op : Op V)
  | frame (link : Link V) (frame : Frame V)
  | malformed (link : Link V) (oversized : Bool) (message : String)
  /-- The link has closed, or the transport closes the connection. -/
  | close (reason : String)

/-- One step. -/
def step (c : HostConnection V) : Label V → Option (HostConnection V)
  | .op link op => c.run link op
  | .frame link frame => if c.closed then none else some (c.onFrame link frame)
  | .malformed link oversized message => some (c.malformed link oversized message)
  | .close reason => some (c.close reason)

/-- Just constructed. -/
def initial (c : HostConnection V) : Prop := ∃ dialer, c = { dialer := dialer }

end HostConnection

/-- The machine of one end, whatever its peer, its link and its callers do. -/
def hostConnection (V : Type) : Machine.System (HostConnection V) (HostConnection.Label V) where
  initial := HostConnection.initial
  step := HostConnection.step

end SigxActors.Cluster
