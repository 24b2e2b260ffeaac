/-
  Host/Slots.lean --- the activation slots of one host.

  Source: `packages/actors/src/host/local-host.ts` (`Slot`, `#activationFor`,
  `#deactivateById`, `deactivateType`).

  A slot is reserved synchronously when an activation starts, becomes active when
  it succeeds, is deactivating while it drains, and is deleted after; a failed
  activation deletes its reservation.  What an activation under way, and an
  activation, consist of is left to the machine that uses the table.
-/
import SigxActors.Js.Map

set_option autoImplicit false

namespace SigxActors.Host

open SigxActors.Js

/-- A slot of the host's directory.  `P` is an activation under way, `A` an
activation. -/
inductive Slot (P A : Type) where
  | activating (promise : P)
  | active (activation : A)
  | deactivating (activation : A)
  deriving DecidableEq, Repr

/-- The directory of one host: slots by actor id. -/
abbrev Slots (P A : Type) := JsMap String (Slot P A)

namespace Slots

variable {P A : Type}

/-- `#deactivateById` on an active slot: it is deactivating from now on, and the
call waits for its drain. -/
def beginDeactivation (slots : Slots P A) (id : String) : Option (A × Slots P A) :=
  match slots.get id with
  | some (.active a) => some (a, slots.set id (.deactivating a))
  | _ => none

/-- The loop of `deactivateType`: every ACTIVE slot of the type starts
deactivating.  A slot that is still activating is passed over. -/
def deactivateType (slots : Slots P A) (ofType : A → Bool) : Slots P A :=
  slots.mapValues fun _ slot =>
    match slot with
    | .active a => if ofType a then .deactivating a else .active a
    | other => other

/-- The ids whose drain `deactivateType` awaits. -/
def deactivateTypeWaits (slots : Slots P A) (ofType : A → Bool) : List String :=
  slots.keys.filter fun id =>
    match slots.get id with
    | some (.active a) => ofType a
    | _ => false

theorem get_deactivateType (slots : Slots P A) (ofType : A → Bool) (id : String) :
    (slots.deactivateType ofType).get id =
      match slots.get id with
      | some (.active a) => some (if ofType a then .deactivating a else .active a)
      | other => other := by
  rw [deactivateType, JsMap.get_mapValues]
  cases slots.get id with
  | none => rfl
  | some slot =>
    cases slot with
    | activating | deactivating | active => rfl

/-- What is active after the loop was active before, and is of another type. -/
theorem active_of_deactivateType {slots : Slots P A} {ofType : A → Bool} {id : String} {a : A}
    (h : (slots.deactivateType ofType).get id = some (.active a)) :
    slots.get id = some (.active a) ∧ ofType a = false := by
  rw [get_deactivateType] at h
  split at h
  · rename_i b hb
    by_cases hof : ofType b = true
    · simp [hof] at h
    · simp only [hof, Bool.false_eq_true, if_false, Option.some.injEq, Slot.active.injEq] at h
      subst h
      exact ⟨hb, by simpa using hof⟩
  · rename_i hnot
    exact absurd h (hnot a)

end Slots

end SigxActors.Host
