/-
  Cluster/StreamCredit.lean --- the credit of one stream.

  Source: `packages/actors/src/cluster/connection.ts`, `dispatchStream` and
  `#serveStream`.

  The two ends of a stream and the link between them, first in first out both
  ways.  The consumer's end begins where the CALL has been written.  What each
  end does between two awaits is one step.
-/
import SigxActors.Machine.Transition

set_option autoImplicit false

namespace SigxActors.Cluster

/-- What goes to the producer. -/
inductive Upstream where
  /-- The CALL, with its `c`. -/
  | call (credit : Nat)
  | credit (n : Nat)
  | cancel
  deriving DecidableEq, Repr

/-- What goes to the consumer. -/
inductive Downstream (V : Type) where
  | chunk (value : V)
  | end_
  | error
  deriving DecidableEq, Repr

/-- Where the generator of the consumer stands. -/
inductive Reader where
  /-- Not pulled yet, or at its `yield`. -/
  | idle
  | reading
  /-- It waits for `wake`. -/
  | waiting
  | returned
  deriving DecidableEq, Repr

/-- Where the producer stands. -/
inductive Producer where
  /-- The CALL has not arrived. -/
  | absent
  /-- The CALL is being authorised and resolved. -/
  | accepted
  /-- At the top of the loop. -/
  | ready
  /-- It waits for `wake`. -/
  | parked
  /-- It awaits the link, or the next value. -/
  | pulling
  | ended
  deriving DecidableEq, Repr

structure CreditStream (V : Type) where
  /-- The consumer's `credit` option. -/
  window : Nat
  queue : List V := []
  taken : Nat := 0
  /-- It is over, or has failed. -/
  done : Bool := false
  /-- The consumer is in the table of its connection. -/
  registered : Bool := true
  /-- The generator has been pulled. -/
  started : Bool := false
  reader : Reader := .idle
  /-- What the consumer has been given. -/
  consumed : List V := []
  upstream : List Upstream := [.call window]
  downstream : List (Downstream V) := []
  producer : Producer := .absent
  credit : Int := 0
  /-- The producer is in the table of its connection. -/
  inbound : Bool := false
  /-- Its controller has been aborted. -/
  aborted : Bool := false
  /-- What the producer has sent. -/
  produced : List V := []

namespace CreditStream

variable {V : Type} (s : CreditStream V)

/-! ## The consumer -/

/-- `bump`. -/
def bump : CreditStream V :=
  if s.reader = .waiting then { s with reader := .reading } else s

/-- `forget`, and CANCEL where it did. -/
def cancel : CreditStream V :=
  if s.registered then { s with registered := false, upstream := s.upstream ++ [.cancel] } else s

/-- `onAbort`. -/
def abort : CreditStream V := { s.cancel with done := true }.bump

/-- `next` at the generator. -/
def next : Option (CreditStream V) :=
  if s.reader = .idle then some { s with started := true, reader := .reading } else none

/-- `taken` reaches half the window: the producer is topped up. -/
def grant : CreditStream V :=
  if s.window ≤ 2 * s.taken then
    { s with upstream := s.upstream ++ [.credit s.taken], taken := 0 }
  else s

/-- The head of the queue is taken, and yielded. -/
def take (value : V) (rest : List V) : CreditStream V :=
  let s := { s with queue := rest, taken := s.taken + 1 }.grant
  { s with consumed := s.consumed ++ [value], reader := .idle }

/-- The generator runs on. -/
def read : Option (CreditStream V) :=
  if s.reader = .reading then
    match s.queue with
    | value :: rest => some (s.take value rest)
    | [] =>
        if s.done then some { s.cancel with reader := .returned }
        else some { s with reader := .waiting }
  else none

/-- `return` at the generator: one that was never pulled runs no `finally`. -/
def return_ : Option (CreditStream V) :=
  if s.reader = .idle then
    some { (if s.started then s.cancel else s) with reader := .returned }
  else none

/-- A frame reaches the consumer. -/
def deliver (frame : Downstream V) : CreditStream V :=
  if s.registered then
    match frame with
    | .chunk value => { s with queue := s.queue ++ [value] }.bump
    | .end_ | .error => { s with done := true }.bump
  else s

/-! ## The producer -/

/-- `wake`. -/
def wake : CreditStream V :=
  if s.producer = .parked then { s with producer := .ready } else s

/-- A frame reaches the producer. -/
def receive : Upstream → CreditStream V
  | .call credit => { s with producer := .accepted, credit := credit }
  | .credit n => if s.inbound then { s with credit := s.credit + n }.wake else s
  | .cancel =>
      if s.inbound then { s with inbound := false, aborted := true }.wake else s

/-- A frame is sent to the consumer. -/
def send (frame : Downstream V) : CreditStream V :=
  { s with downstream := s.downstream ++ [frame] }

/-- The CALL is served, from the registration of its stream on. -/
def serve : Option (CreditStream V) :=
  if s.producer = .accepted then some { s with producer := .ready, inbound := true } else none

/-- The CALL is refused. -/
def refuse : Option (CreditStream V) :=
  if s.producer = .accepted then some { s.send .error with producer := .ended } else none

/-- The loop of `#serveStream`, from its top to its next await. -/
def turn : Option (CreditStream V) :=
  if s.producer = .ready then
    if s.aborted then some { s with producer := .ended, inbound := false }
    else if s.credit ≤ 0 then some { s with producer := .parked }
    else some { s with producer := .pulling }
  else none

/-- The source has yielded. -/
def yielded (value : V) : Option (CreditStream V) :=
  if s.producer = .pulling then
    some
      { s.send (.chunk value) with
        credit := s.credit - 1
        produced := s.produced ++ [value]
        producer := .ready }
  else none

/-- The source is at its end, or has thrown. -/
def finish (frame : Downstream V) : Option (CreditStream V) :=
  if s.producer = .pulling then
    some { (if s.aborted then s else s.send frame) with producer := .ended, inbound := false }
  else none

end CreditStream

inductive CreditLabel (V : Type) where
  | next
  | read
  | return_
  | abort
  /-- The link hands the consumer its next frame. -/
  | deliver
  /-- The link hands the producer its next frame. -/
  | receive
  | serve
  | refuse
  | turn
  | yielded (value : V)
  | ended
  | threw

/-- One step. -/
def CreditStream.step {V : Type} (s : CreditStream V) : CreditLabel V → Option (CreditStream V)
  | .next => s.next
  | .read => s.read
  | .return_ => s.return_
  | .abort => some s.abort
  | .deliver =>
      match s.downstream with
      | frame :: rest => some ({ s with downstream := rest }.deliver frame)
      | [] => none
  | .receive =>
      match s.upstream with
      | frame :: rest => some ({ s with upstream := rest }.receive frame)
      | [] => none
  | .serve => s.serve
  | .refuse => s.refuse
  | .turn => s.turn
  | .yielded value => s.yielded value
  | .ended => s.finish .end_
  | .threw => s.finish .error

/-- The machine of one stream. -/
def creditStream (V : Type) : Machine.System (CreditStream V) (CreditLabel V) where
  initial s := ∃ window, 1 ≤ window ∧ s = { window := window }
  step := CreditStream.step

end SigxActors.Cluster
