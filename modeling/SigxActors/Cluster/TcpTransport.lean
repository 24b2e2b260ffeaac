/-
  Cluster/TcpTransport.lean --- two hosts that dial each other.

  Source: `register`, `adopt`, `dial`, `linkTo` and the listener of
  `packages/actors-tcp/src/index.ts`.

  Either host may dial the other, and may again once the link it has is out of service.
  A socket is a pair of connections over FIFO links; its left end is the dialer's.  Each
  host keeps which of its connections is the link to the other, and settles by the hosts'
  ids which of two stays.

  Left out are the deadlines and the cap of the listener (0 disables them), the pings, the
  membership, and `stop()` with what it alone reads.
-/
import SigxActors.Cluster.ConnectionCalm
import SigxActors.Js.Text

set_option autoImplicit false

namespace SigxActors.Cluster

open SigxActors.Js

/-- The code units of a string. -/
def codeUnits (s : String) : List Nat :=
  s.toList.flatMap fun c => (unitsOf c.toNat).map UInt16.toNat

/-- The other host. -/
def Side.other : Side → Side
  | .left => .right
  | .right => .left

/-- Two hosts.  Ids are minted per start and never reused. -/
structure Hosts where
  id : Side → String
  distinct : codeUnits (id .left) ≠ codeUnits (id .right)

/-- `config.hostId < hostId`: this host is the designated dialer. -/
def Hosts.weDial (hosts : Hosts) (side : Side) : Bool :=
  decide (codeUnits (hosts.id side) < codeUnits (hosts.id side.other))

inductive Dial where
  | connecting
  | connected
  | failed
  deriving DecidableEq, Repr

/-- A socket. -/
structure Socket (V : Type) where
  dialer : Side
  dial : Dial := .connecting
  /-- The listener has adopted it. -/
  accepted : Bool := false
  pair : Pair V := ⟨{ dialer := true }, { dialer := false }⟩

namespace Socket

variable {V : Type} (s : Socket V) (side : Side)

/-- Which end of the pair is the host's. -/
def end_ : Side := if side = s.dialer then .left else .right

/-- The host's connection. -/
def at_ : HostConnection V := s.pair.at_ (s.end_ side)

/-- `isOutbound`. -/
def outbound : Bool := side == s.dialer

/-- The connection takes part: it is connected, or adopted by the listener. -/
def held : Bool := if side = s.dialer then s.dial == .connected else s.accepted

/-- The host's connection changes. -/
def act (f : HostConnection V → HostConnection V) : Socket V :=
  { s with pair := Pair.put (s.end_ side) (f (s.at_ side)) (s.pair.peer (s.end_ side)) }

end Socket

/-- Two hosts, the sockets between them, and what each host knows of them. -/
structure Mesh (V : Type) where
  sockets : List (Socket V) := []
  /-- `links`, under the other's id. -/
  links : Side → Option Nat := fun _ => none
  /-- `dialing`, under the other's id. -/
  dialing : Side → Option Nat := fun _ => none

namespace Mesh

variable {V : Type} (hosts : Hosts)

/-- Socket `i` changes. -/
def modify (m : Mesh V) (i : Nat) (f : Socket V → Socket V) : Mesh V :=
  { m with sockets := m.sockets.modify i f }

/-- `links.set`. -/
def setLink (m : Mesh V) (side : Side) (i : Nat) : Mesh V :=
  { m with links := fun x => if x = side then some i else m.links x }

/-- The connection is closed. -/
def closedAt (m : Mesh V) (side : Side) (i : Nat) : Bool :=
  match m.sockets[i]? with
  | some s => (s.at_ side).closed
  | none => false

/-- `onClose`: a link that has closed is none. -/
def swept (m : Mesh V) (side : Side) (i : Nat) : Mesh V :=
  if m.links side = some i ∧ m.closedAt side i = true then
    { m with links := fun x => if x = side then none else m.links x }
  else m

/-- `retire`. -/
def retire (m : Mesh V) (side : Side) (i : Nat) (reason : String) : Mesh V :=
  (m.modify i fun s => s.act side fun c => c.retire takes reason).swept side i

/-- The arbitration of `register`: whether the link that is there stays. -/
def keepsExisting (side : Side) (existing s : Socket V) : Bool :=
  let weDial := hosts.weDial side
  let sameWay := existing.outbound side == s.outbound side
  !sameWay && weDial == existing.outbound side

/-- `register`. -/
def register (m : Mesh V) (side : Side) (i : Nat) : Mesh V :=
  match m.sockets[i]? with
  | none => m
  | some s =>
      if (s.at_ side).closed = true ∨ (s.at_ side).retiring.isSome = true then m
      else
        match m.links side with
        | none => m.setLink side i
        | some j =>
            match m.sockets[j]? with
            | none => m.setLink side i
            | some existing =>
                if j ≠ i ∧ (existing.at_ side).closed = false ∧
                    (existing.at_ side).retiring.isSome = false then
                  if keepsExisting hosts side existing s then
                    m.retire side i "lost the simultaneous-dial arbitration"
                  else (m.retire side j "superseded by the designated dialer").setLink side i
                else m.setLink side i

/-- `onPeer`. -/
def onPeer (m : Mesh V) (side : Side) (i : Nat) (hostId : String) : Mesh V :=
  match m.sockets[i]? with
  | none => m
  | some s =>
      if hostId = hosts.id side.other then m.register hosts side i
      else if s.outbound side then
        (m.modify i fun s => s.act side fun c => c.close "expected another host at this address").swept
          side i
      else m

/-- `hello`. -/
def hello (m : Mesh V) (side : Side) (i : Nat) : Mesh V :=
  m.modify i fun s => s.act side fun c => (c.send takes (.hello (some (hosts.id side)))).1

/-- `dialing.delete`. -/
def endDial (m : Mesh V) (side : Side) : Mesh V :=
  { m with dialing := fun x => if x = side then none else m.dialing x }

/-- The link takes calls. -/
def usable (m : Mesh V) (side : Side) : Bool :=
  match (m.links side).bind (m.sockets[·]?) with
  | some s => !(s.at_ side).closed && (s.at_ side).retiring.isNone
  | none => false

inductive Label (V : Type) where
  /-- A caller finds no link that takes calls, and no dial under way. -/
  | dial (side : Side)
  | connect (i : Nat)
  | connectFails (i : Nat)
  | accept (i : Nat)
  /-- A call, or the serving of one. -/
  | op (i : Nat) (side : Side) (op : HostConnection.Op V)
  /-- The next frame on the way to the host arrives. -/
  | deliver (i : Nat) (side : Side)
  /-- The other end has closed, and the host notices. -/
  | hangUp (i : Nat) (side : Side)

/-- The pair of socket `i` makes a step of its own at the host's end. -/
def stepPair (m : Mesh V) (i : Nat) (side : Side) (l : Side → Pair.Label V) : Option (Mesh V) :=
  match m.sockets[i]? with
  | some s =>
      if s.held side then
        (s.pair.step (l (s.end_ side))).map fun p => m.modify i fun s => { s with pair := p }
      else none
  | none => none

/-- The frame that arrives next. -/
def next (m : Mesh V) (i : Nat) (side : Side) : Option (Frame V) :=
  (m.sockets[i]?).bind fun s => (s.pair.peer (s.end_ side)).out.head?

/-- One step. -/
def step (m : Mesh V) : Label V → Option (Mesh V)
  | .dial side =>
      if m.usable side ∨ (m.dialing side).isSome then none
      else
        some
          { m with
            sockets := m.sockets ++ [{ dialer := side }]
            dialing := fun x => if x = side then some m.sockets.length else m.dialing x }
  | .connect i =>
      match m.sockets[i]? with
      | some s =>
          if s.dial = .connecting then
            let m := m.modify i fun s => { s with dial := .connected }
            let m := m.endDial s.dialer
            some ((m.hello hosts s.dialer i).register hosts s.dialer i)
          else none
      | none => none
  | .connectFails i =>
      match m.sockets[i]? with
      | some s =>
          if s.dial = .connecting ∧ s.accepted = false then
            some ((m.modify i fun s => { s with dial := .failed }).endDial s.dialer)
          else none
      | none => none
  | .accept i =>
      match m.sockets[i]? with
      | some s =>
          if s.dial ≠ .failed ∧ s.accepted = false then
            some ((m.modify i fun s => { s with accepted := true }).hello hosts s.dialer.other i)
          else none
      | none => none
  | .op i side op =>
      if op.isCall then (m.stepPair i side fun x => .op x op).map fun m => m.swept side i else none
  | .deliver i side =>
      (m.stepPair i side .deliver).map fun d =>
        match m.next i side with
        | some (.hello (some hostId)) => (d.onPeer hosts side i hostId).swept side i
        | _ => d.swept side i
  | .hangUp i side => (m.stepPair i side .hangUp).map fun m => m.swept side i

/-- Nothing has been dialled. -/
def initial (m : Mesh V) : Prop := m = {}

end Mesh

/-- The machine of two hosts. -/
def mesh (V : Type) (hosts : Hosts) : Machine.System (Mesh V) (Mesh.Label V) where
  initial := Mesh.initial
  step := Mesh.step hosts

end SigxActors.Cluster
