/-
  Errors.lean --- the actor error taxonomy.

  Source: `packages/actors/src/errors.ts`.

  Errors are identified by BRAND: a thrown value is an actor error exactly when
  it carries `__sigxActorError`, and the router, the wire and the host all
  branch on its `kind`.  `Thrown` is a thrown value as those branches see it: a
  branded error with the fields they read, or anything else, of which only the
  message and the numeric `status` are ever read.
-/

set_option autoImplicit false

namespace SigxActors

/-- The discriminant carried by every branded actor error. -/
inductive ActorErrorKind where
  | deadlock
  | activation
  | stateConflict
  | methodNotFound
  | hostShutdown
  | callTimeout
  | wrongHost
  | unreachable
  | unplaceable
  | fenced
  | watchDeclaration
  | watchMutation
  | overloaded
  deriving DecidableEq, Repr, Inhabited

/-- The owner hint a wrong-host error carries: enough to re-route. -/
structure ActorOwnerHint where
  hostId : String
  /-- INTERNAL origin of the owner's host-to-host endpoint. -/
  address : Option String := none
  /-- PUBLIC origin of the owner's actor mount. -/
  publicAddress : Option String := none
  deriving DecidableEq, Repr, Inhabited

/-- Where an overload refusal was made. -/
inductive OverloadScope where
  | actor
  | host
  deriving DecidableEq, Repr, Inhabited

/-- The fields of an `overloaded` refusal. -/
structure OverloadFields where
  scope : OverloadScope := .actor
  depth : Nat := 0
  limit : Nat := 0
  deriving DecidableEq, Repr, Inhabited

/-- `ActorErrorShape`, with the per-kind fields the runtime reads. -/
structure ActorErrorShape where
  kind : ActorErrorKind
  message : String
  /-- Set on a wrong-host error when the refusing host knows the owner. -/
  owner : Option ActorOwnerHint := none
  /-- Set on an overloaded error. -/
  overload : Option OverloadFields := none
  /-- A call-timeout whose turn was skipped rather than run. -/
  skipped : Bool := false
  deriving DecidableEq, Repr, Inhabited

/-- A thrown value. -/
inductive Thrown where
  /-- Carries the `__sigxActorError` brand. -/
  | actor (error : ActorErrorShape)
  /-- Anything else. -/
  | other (message : String) (status : Option Nat)
  deriving DecidableEq, Repr, Inhabited

namespace Thrown

/-- The kind of a branded error, `none` for any other thrown value. -/
def kind? : Thrown → Option ActorErrorKind
  | .actor e => some e.kind
  | .other _ _ => none

/-- `isActorErrorKind`. -/
def isActorErrorKind (error : Thrown) (kind : ActorErrorKind) : Bool :=
  error.kind? == some kind

@[simp] theorem kind?_actor (e : ActorErrorShape) : (actor e).kind? = some e.kind := rfl

@[simp] theorem kind?_other (m : String) (s : Option Nat) : (other m s).kind? = none := rfl

@[simp] theorem isActorErrorKind_iff (e : Thrown) (k : ActorErrorKind) :
    e.isActorErrorKind k = true ↔ e.kind? = some k := by
  simp [isActorErrorKind]

end Thrown

/-- `new ActorUnreachableError(target)`. -/
def ActorUnreachableError (target : String) : Thrown :=
  .actor
    { kind := .unreachable
      message := "[sigx actors] host " ++ target ++ " is unreachable; the call may be retried." }

/-- `new ActorActivationError(ref)`; the cause is carried by the caller. -/
def ActorActivationError (ref : String) : Thrown :=
  .actor
    { kind := .activation
      message := "[sigx actors] activation of " ++ ref ++ " failed." }

end SigxActors
