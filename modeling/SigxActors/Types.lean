/-
  Types.lean --- identities shared by the host and the cluster.

  Source: `packages/actors/src/types.ts`, `packages/actors/src/cluster/types.ts`.
-/

set_option autoImplicit false

namespace SigxActors

/-- Identity of one virtual actor. -/
structure ActorRef where
  type : String
  key : String
  deriving DecidableEq, Repr, Inhabited

/-- `type NUL key`: real keys can contain `/` or `:`. -/
def actorId (ref : ActorRef) : String := ref.type ++ "\x00" ++ ref.key

/-- Human-readable identity for error messages. -/
def actorLabel (ref : ActorRef) : String := ref.type ++ "/" ++ ref.key

/-- A type name as `defineActor` admits it, as far as identities depend on it:
not empty, and free of the separator `actorId` puts behind it. -/
structure ActorType where
  name : String
  nonempty : name.toList ≠ []
  nulFree : '\x00' ∉ name.toList

/-- `id.slice(0, id.indexOf(NUL))`, when the separator is there and not first. -/
def typeOfId (id : String) : Option String :=
  let head := id.toList.takeWhile (fun c => c != '\x00')
  if head ≠ [] ∧ head.length < id.toList.length then some (String.ofList head) else none

/-- The slice recovers the type an identity was built from. -/
theorem typeOfId_actorId (type : ActorType) (key : String) :
    typeOfId (actorId ⟨type.name, key⟩) = some type.name := by
  have hlist : (actorId ⟨type.name, key⟩).toList = type.name.toList ++ '\x00' :: key.toList := by
    simp [actorId]
  have hhead : (actorId ⟨type.name, key⟩).toList.takeWhile (fun c => c != '\x00') =
      type.name.toList := by
    rw [hlist, List.takeWhile_append_of_pos]
    · simp
    · intro c hc
      have hne : c ≠ '\x00' := fun h => type.nulFree (h ▸ hc)
      simpa using hne
  simp only [typeOfId, hhead]
  rw [if_pos ⟨type.nonempty, by simp [hlist]⟩, String.ofList_toList]

/-- `{hostId}/{epoch}/{seq}`, unique per activation: `hostId` is minted per host
start, `seq` counts the claims of that start.  The last two parts are decimal
numbers, so the string determines the triple and the model keeps the triple. -/
structure ActivationId where
  hostId : String
  epoch : Nat
  seq : Nat
  deriving DecidableEq, Repr, Inhabited

/-- A directory claim. -/
structure DirectoryEntry where
  hostId : String
  activationId : ActivationId
  deriving DecidableEq, Repr, Inhabited

end SigxActors
