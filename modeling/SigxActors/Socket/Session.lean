/-
  Socket/Session.lean --- one client's socket, and the calls and subscriptions on it.

  Source: `createActorSocketSession` of `packages/actors/src/server/socket-session.ts`.

  A registration is made by a call or a `sub` message, under the tag that the client has
  chosen, and goes on when the host or a hook of it answers.  It is numbered by when it was
  made: two tables hold the numbers under the tags.

  `V` is what a value is on the wire.  A message is what is left of it once it has been
  parsed and its fields were looked at.  Left out are the pings, and what only counts.
-/
import SigxActors.Js.Array
import SigxActors.Js.Map
import SigxActors.Machine.Transition

set_option autoImplicit false

namespace SigxActors.Socket

open SigxActors.Js

/-- What the options bound; 0 disables each. -/
structure SessionBounds where
  maxConcurrent : Nat := 256
  maxSubscriptions : Nat := 256
  maxBufferedBytes : Nat := 0

/-- `SocketRequest`, or what is none. -/
inductive Request where
  | ping
  | oversized
  | unparseable
  /-- It is no object. -/
  | noObject
  /-- `i` is no integer. -/
  | noId
  | cancel (i : Int)
  | uns (i : Int)
  /-- `valid`: `validSub` takes the record. -/
  | sub (i : Int) (valid : Bool)
  | call (i : Int) (oneWay : Bool)
  /-- An id, and nothing that is known. -/
  | unrecognized (i : Int)
  deriving DecidableEq, Repr

/-- A `SocketReply` under a tag. -/
inductive Reply (V : Type) where
  | v (value : V)
  | d
  | e (status : Nat) (message : String)
  deriving DecidableEq, Repr

/-- Nothing follows it. -/
def Reply.terminal {V : Type} : Reply V → Bool
  | .v _ => false
  | .d | .e _ _ => true

inductive Stage where
  /-- Before it reaches the host. -/
  | preparing
  /-- The host has it. -/
  | dispatched (stream : Bool)
  /-- It has failed; the hook has yet to return. -/
  | failing
  | done
  deriving DecidableEq, Repr

/-- A call, or a subscription. -/
structure Registration where
  i : Int
  watch : Bool
  oneWay : Bool := false
  stage : Stage := .preparing
  aborted : Bool := false
  /-- Its deadline is armed. -/
  deadline : Bool := false
  timedOut : Bool := false
  bytes : Nat := 0
  epoch : Nat := 0
  deriving DecidableEq, Repr

/-- What has been sent under a tag, and what the client has let go. -/
inductive Event (V : Type) where
  /-- A frame of registration `k`, and who held the tag. -/
  | sent (i : Int) (k : Nat) (holder : Option Nat) (reply : Reply V)
  /-- The frame that refuses a message. -/
  | refused (i : Int) (holder : Option Nat) (reply : Reply V)
  /-- Cancelled, or unsubscribed. -/
  | freed (k : Nat)
  deriving DecidableEq, Repr

structure Session (V : Type) where
  closed : Bool := false
  /-- The calls of the adapter's `close`. -/
  closes : List (Nat × String) := []
  inFlight : JsMap Int Nat := .empty
  watches : JsMap Int Nat := .empty
  drainEpoch : Nat := 0
  registrations : List Registration := []
  log : List (Event V) := []

namespace Session

variable {V : Type} (bounds : SessionBounds) (s : Session V)

/-- Who holds the tag. -/
def holder (i : Int) : Option Nat := (s.inFlight.get i).or (s.watches.get i)

/-- Registration `k` changes. -/
def update (k : Nat) (f : Registration → Registration) : Session V :=
  { s with registrations := s.registrations.modify k f }

/-- `tracked`. -/
def tracked (k : Nat) (r : Registration) : Bool :=
  !s.closed && (if r.watch then s.watches else s.inFlight).get r.i == some k

/-- `reply`. -/
def reply (i : Int) (k : Nat) (frame : Reply V) : Session V :=
  if s.closed then s else { s with log := s.log ++ [.sent i k (s.holder i) frame] }

/-- A message is refused. -/
def refuse (i : Int) (status : Nat) (message : String) : Session V :=
  if s.closed then s
  else { s with log := s.log ++ [.refused i (s.holder i) (.e status message)] }

/-- Registration `k` leaves its table, if the tag is its own. -/
def release (k : Nat) (r : Registration) : Session V :=
  if r.watch then
    if s.watches.get r.i = some k then { s with watches := s.watches.erase r.i } else s
  else if s.inFlight.get r.i = some k then { s with inFlight := s.inFlight.erase r.i } else s

/-- The abort, and `stopWatch`. -/
def abort (k : Nat) : Session V := s.update k fun r => { r with aborted := true }

/-- `teardown`. -/
def teardown : Session V :=
  let ended := s.inFlight.entries.map Prod.snd ++ s.watches.entries.map Prod.snd
  { ended.foldl (fun s k => s.abort k) s with inFlight := .empty, watches := .empty }

/-- `fail`. -/
def fail (code : Nat) (reason : String) : Session V :=
  if s.closed then s
  else { s with closed := true, closes := s.closes ++ [(code, reason)] }.teardown

/-- `close`. -/
def close : Session V := if s.closed then s else { s with closed := true }.teardown

/-- What a subscription has delivered since the buffer was empty. -/
def weight (k : Nat) : Nat :=
  match s.registrations[k]? with
  | some r => if r.epoch = s.drainEpoch then r.bytes else 0
  | none => 0

/-- The heaviest subscription. -/
def heaviest : Option (Int × Nat) :=
  s.watches.entries.foldl (fun best q =>
    match best with
    | none => some q
    | some b => if s.weight b.2 < s.weight q.2 then some q else best) none

/-- The heaviest subscription is shed. -/
def shed (depth : Nat) : Session V :=
  match s.heaviest with
  | none => s
  | some (i, k) =>
      let holder := s.holder i
      let s := { s with watches := s.watches.erase i }.abort k
      if s.closed then s
      else
        let message := "[sigx actors] subscription shed: send buffer at " ++ toString depth ++
          " bytes, cap " ++ toString bounds.maxBufferedBytes
        { s with log := s.log ++ [.sent i k holder (.e 503 message)] }

/-- `shedIfOverCap`; `depth` is what the adapter says. -/
def shedIfOverCap (k : Nat) (written : Nat) (depth : Option Nat) : Session V :=
  let epoch := s.drainEpoch
  let s := s.update k fun r =>
    { r with epoch := epoch, bytes := (if r.epoch = epoch then r.bytes else 0) + written }
  match depth with
  | none => s
  | some 0 => { s with drainEpoch := s.drainEpoch + 1 }
  | some depth => if depth ≤ bounds.maxBufferedBytes then s else s.shed bounds depth

/-- The way out of a registration: it leaves the table, and a subscription is stopped. -/
def finish (k : Nat) (r : Registration) : Session V :=
  let held := (if r.watch then s.watches else s.inFlight).get r.i = some k
  let s := (s.release k r).update k fun r => { r with stage := .done, deadline := false }
  if r.watch ∧ held then s.abort k else s

/-- A registration is made. -/
def register (r : Registration) : Session V :=
  let k := s.registrations.length
  { s with
    registrations := s.registrations ++ [r]
    inFlight := if r.watch then s.inFlight else s.inFlight.set r.i k
    watches := if r.watch then s.watches.set r.i k else s.watches }

/-- `handle`. -/
def handle (deadlined : Bool) : Request → Session V
  | .ping => s
  | .oversized => s.fail 1009 "message too large"
  | .unparseable => s.fail 1003 "unparseable message"
  | .noObject => s.fail 1003 "unrecognized message"
  | .noId => s.fail 1003 "malformed message"
  | .cancel i =>
      match s.inFlight.get i with
      | some k =>
          let s := { s with inFlight := s.inFlight.erase i }.abort k
          { s with log := s.log ++ [.freed k] }
      | none => s
  | .uns i =>
      match s.watches.get i with
      | some k =>
          let s := { s with watches := s.watches.erase i }.abort k
          { s with log := s.log ++ [.freed k] }
      | none => s
  | .sub i valid =>
      if s.inFlight.has i || s.watches.has i then s.fail 1003 "duplicate id"
      else if !valid then s.refuse i 400 "[sigx actors] malformed subscription record"
      else if 0 < bounds.maxSubscriptions ∧ bounds.maxSubscriptions ≤ s.watches.entries.length then
        s.refuse i 400 ("[sigx actors] too many subscriptions on one socket — limit is " ++
          toString bounds.maxSubscriptions)
      else s.register { i := i, watch := true, deadline := deadlined }
  | .call i oneWay =>
      if s.inFlight.has i || s.watches.has i then s.fail 1003 "duplicate id"
      else if 0 < bounds.maxConcurrent ∧ bounds.maxConcurrent ≤ s.inFlight.entries.length then
        s.refuse i 429 ("[sigx actors] too many concurrent calls on one socket (limit " ++
          toString bounds.maxConcurrent ++ ")")
      else s.register { i := i, watch := false, oneWay := oneWay }
  | .unrecognized _ => s.fail 1003 "unrecognized message"

inductive Label (V : Type) where
  /-- A message; `deadlined`: the posture has a timeout. -/
  | message (deadlined : Bool) (request : Request)
  /-- The host is asked. -/
  | dispatch (k : Nat) (stream deadlined : Bool)
  /-- A unary call returns. -/
  | returns (k : Nat) (value : V)
  /-- A streamed call has a value. -/
  | chunk (k : Nat) (value : V)
  | ends (k : Nat)
  /-- A call throws, wherever it is. -/
  | throws (k : Nat)
  /-- The hook has returned; the error as the client is told. -/
  | failed (k : Nat) (status : Nat) (message : String)
  /-- A subscription has a value. -/
  | value (k : Nat) (value : V) (written : Nat) (depth : Option Nat)
  /-- Its iterator ends; the error is what a deadline that has fired re-raises. -/
  | watchEnds (k : Nat) (status : Nat) (message : String)
  | watchThrows (k : Nat) (status : Nat) (message : String)
  /-- A deadline fires. -/
  | deadline (k : Nat)
  /-- The lifetime or the credentials end. -/
  | fail (code : Nat) (reason : String)
  | close

/-- One step. -/
def step : Label V → Option (Session V)
  | .message deadlined request => if s.closed then none else some (s.handle bounds deadlined request)
  | .dispatch k stream deadlined =>
      match s.registrations[k]? with
      | some r =>
          if r.stage = .preparing then
            some (s.update k fun r =>
              { r with
                stage := .dispatched stream
                deadline := if r.watch then r.deadline else deadlined })
          else none
      | none => none
  | .returns k value =>
      match s.registrations[k]? with
      | some r =>
          if r.watch = false ∧ r.stage = .dispatched false then
            let answers := s.tracked k r && !r.oneWay
            let s := if answers then (s.reply r.i k (.v value)).reply r.i k .d else s
            some (s.finish k r)
          else none
      | none => none
  | .chunk k value =>
      match s.registrations[k]? with
      | some r =>
          if r.watch = false ∧ r.stage = .dispatched true then
            if s.tracked k r then
              some ((s.update k fun r => { r with deadline := false }).reply r.i k (.v value))
            -- It has left the loop, and waits for the stream to return.
            else some (s.update k fun r => { r with deadline := false })
          else none
      | none => none
  | .ends k =>
      match s.registrations[k]? with
      | some r =>
          if r.watch = false ∧ r.stage = .dispatched true then
            let answers := s.tracked k r && !r.oneWay
            let s := if answers then s.reply r.i k .d else s
            some (s.finish k r)
          else none
      | none => none
  | .throws k =>
      match s.registrations[k]? with
      | some r =>
          match r.watch, r.stage with
          | false, .preparing | false, .dispatched _ =>
              some (s.update k fun r => { r with stage := .failing, deadline := false })
          | _, _ => none
      | none => none
  | .failed k status message =>
      match s.registrations[k]? with
      | some r =>
          if r.watch = false ∧ r.stage = .failing then
            let answers := s.tracked k r && !r.oneWay
            let s := if answers then s.reply r.i k (.e status message) else s
            some (s.finish k r)
          else none
      | none => none
  | .value k value written depth =>
      match s.registrations[k]? with
      | some r =>
          if r.watch = true ∧ r.stage = .dispatched true then
            if s.tracked k r then
              let s := s.update k fun r => { r with deadline := false, timedOut := false }
              let s := s.reply r.i k (.v value)
              some (if 0 < written ∧ 0 < bounds.maxBufferedBytes then
                s.shedIfOverCap bounds k written depth else s)
            else some (s.finish k r)
          else none
      | none => none
  | .watchEnds k status message =>
      match s.registrations[k]? with
      | some r =>
          if r.watch = true ∧ r.stage = .dispatched true then
            let s := if r.timedOut && s.tracked k r then s.reply r.i k (.e status message) else s
            some (s.finish k r)
          else none
      | none => none
  | .watchThrows k status message =>
      match s.registrations[k]? with
      | some r =>
          match r.watch, r.stage with
          | true, .preparing | true, .dispatched _ =>
              let s := if s.tracked k r then s.reply r.i k (.e status message) else s
              some (s.finish k r)
          | _, _ => none
      | none => none
  | .deadline k =>
      match s.registrations[k]? with
      | some r =>
          if r.deadline then
            some (s.update k fun r =>
              { r with deadline := false, aborted := true, timedOut := r.watch })
          else none
      | none => none
  | .fail code reason => some (s.fail code reason)
  | .close => some s.close

/-- The socket has been accepted. -/
def initial (s : Session V) : Prop := s = {}

end Session

/-- The machine of one socket session. -/
def socketSession (V : Type) (bounds : SessionBounds) :
    Machine.System (Session V) (Session.Label V) where
  initial := Session.initial
  step := Session.step bounds

end SigxActors.Socket
