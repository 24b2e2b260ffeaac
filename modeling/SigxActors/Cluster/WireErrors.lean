/-
  Cluster/WireErrors.lean --- the error contract across a host hop.

  Source: `packages/actors/src/cluster/wire-errors.ts`, and `wireFail` of
  `packages/actors/src/wire-shared.ts`.

  An error thrown on the serving host is mapped to `HostWireError`, travels, and
  is re-created on the calling host.  The point of the module is that a caller
  cannot tell a remote hop from a local dispatch: `fromHostWireError` returns the
  exact brand `toHostWireError` was given (`relay_kind?`).  The routing loop
  depends on nothing else of an error, so a remote body and a local one reach it
  looking the same.
-/
import SigxActors.Errors

set_option autoImplicit false

namespace SigxActors.Cluster

/-! ## The kind on the wire -/

/-- The string an actor kind travels as. -/
def kindName : ActorErrorKind → String
  | .deadlock => "deadlock"
  | .activation => "activation"
  | .stateConflict => "state-conflict"
  | .methodNotFound => "method-not-found"
  | .hostShutdown => "host-shutdown"
  | .callTimeout => "call-timeout"
  | .wrongHost => "wrong-host"
  | .unreachable => "unreachable"
  | .unplaceable => "unplaceable"
  | .fenced => "fenced"
  | .watchDeclaration => "watch-declaration"
  | .watchMutation => "watch-mutation"
  | .overloaded => "overloaded"

/-- `ACTOR_ERROR_KINDS`: the kinds that travel with their brand. -/
def ACTOR_ERROR_KINDS : List ActorErrorKind :=
  [.deadlock, .activation, .stateConflict, .methodNotFound, .hostShutdown, .callTimeout,
    .wrongHost, .unreachable, .unplaceable, .fenced, .watchDeclaration, .watchMutation,
    .overloaded]

/-- The kind a received string names, if it is one of `ACTOR_ERROR_KINDS`. -/
def kindOfName (name : String) : Option ActorErrorKind :=
  ACTOR_ERROR_KINDS.find? (fun k => kindName k == name)

/-- Every kind survives the wire: the set lists all of them, under distinct
names. -/
theorem kindOfName_kindName (k : ActorErrorKind) : kindOfName (kindName k) = some k := by
  cases k <;> decide

/-! ## The two directions -/

/-- The `data` of a wire error. -/
structure WireErrorData where
  kind : Option String
  owner : Option ActorOwnerHint := none
  scope : Option OverloadScope := none
  depth : Option Nat := none
  limit : Option Nat := none
  skipped : Bool := false
  deriving DecidableEq, Repr, Inhabited

/-- `HostWireError`. -/
structure HostWireError where
  message : Option String
  status : Option Nat := none
  data : Option WireErrorData := none
  deriving DecidableEq, Repr, Inhabited

/-- The HTTP-shaped status an actor kind is mapped to. -/
def wireStatus : ActorErrorKind → Nat
  | .wrongHost => 421
  | .methodNotFound => 404
  | .stateConflict => 409
  | .hostShutdown => 503
  | .unreachable => 503
  | .unplaceable => 503
  | .fenced => 503
  | .callTimeout => 504
  | .overloaded => 429
  | _ => 500

/-- `toHostWireError`. -/
def toHostWireError : Thrown → HostWireError
  | .other message status => { message := some message, status := status }
  | .actor e =>
      { message := some e.message
        status := some (wireStatus e.kind)
        data := some
          { kind := some (kindName e.kind)
            owner := e.owner
            scope := if e.kind = .overloaded then e.overload.map (·.scope) else none
            depth := if e.kind = .overloaded then e.overload.map (·.depth) else none
            limit := if e.kind = .overloaded then e.overload.map (·.limit) else none
            skipped := e.kind == .callTimeout && e.skipped } }

/-- `wireFail`: anything without a known kind is an ordinary server error. -/
def wireFail (status : Nat) (wire : Option HostWireError) (fallback : String) : Thrown :=
  .other ((wire.bind (·.message)).getD fallback)
    (some ((wire.bind (·.status)).getD status))

/-- `fromHostWireError`. -/
def fromHostWireError (status : Nat) (wire : Option HostWireError) (fallback : String) : Thrown :=
  let data := wire.bind (·.data)
  match (data.bind (·.kind)).bind kindOfName with
  | none => wireFail status wire fallback
  | some kind =>
      .actor
        { kind := kind
          message := (wire.bind (·.message)).getD fallback
          owner := if kind = .wrongHost then data.bind (·.owner) else none
          overload :=
            if kind = .overloaded then
              some
                { scope := (data.bind (·.scope)).getD .actor
                  depth := (data.bind (·.depth)).getD 0
                  limit := (data.bind (·.limit)).getD 0 }
            else none
          skipped := kind == .callTimeout && ((data.map (·.skipped)).getD false) }

/-- What a caller on another host sees of an error thrown on the serving one.
The response status of an error the peer gave none is 500. -/
def relay (fallback : String) (error : Thrown) : Thrown :=
  let wire := toHostWireError error
  fromHostWireError (wire.status.getD 500) (some wire) fallback

/-- **The brand crosses the wire.**  A branded error arrives with its kind, and an
unbranded one never acquires a brand. -/
theorem relay_kind? (fallback : String) (error : Thrown) :
    (relay fallback error).kind? = error.kind? := by
  cases error with
  | other message status => rfl
  | actor e => simp [relay, toHostWireError, fromHostWireError, kindOfName_kindName]

end SigxActors.Cluster
