/-
  Codec/CallBag.lean --- the request-context bag of a call.

  Source: `packages/actors/src/call-bag-core.ts`.

  A bag is a small record of strings.  What a middleware or a peer put in its place may
  be anything that JSON can carry.
-/
import SigxActors.Codec.WireParse

set_option autoImplicit false

namespace SigxActors.Codec

open SigxActors.Js

/-- `CALL_BAG_MAX_ENTRIES`. -/
def callBagMaxEntries : Nat := 8

/-- `CALL_BAG_MAX_KEY_BYTES`. -/
def callBagMaxKeyBytes : Nat := 64

/-- `CALL_BAG_MAX_VALUE_BYTES`. -/
def callBagMaxValueBytes : Nat := 256

/-- `CALL_BAG_MAX_TOTAL_BYTES`. -/
def callBagMaxTotalBytes : Nat := 1024

/-- `bytes`. -/
def bytes (value : Text) : Nat := (encode value).length

section

variable {N : Type}

/-- The string that a value is. -/
def asString : Json N → Option Text
  | .str s => some s
  | _ => none

/-- `bagEntryOk`. -/
def bagEntryOk (key : Text) (value : Json N) : Bool :=
  key.length != 0 && key != protoKey && key != constructorKey && key != prototypeKey &&
    match asString value with
    | some text => bytes key ≤ callBagMaxKeyBytes && bytes text ≤ callBagMaxValueBytes
    | none => false

/-- `bagTotalsOk`, of entries that are strings. -/
def bagTotalsOk (entries : List (Text × Json N)) : Bool :=
  let total := entries.foldl
    (fun total entry => total + (bytes entry.1 + bytes ((asString entry.2).getD []))) 0
  entries.length ≤ callBagMaxEntries && total ≤ callBagMaxTotalBytes

/-- `freezeBagEntries`: a fresh record of the entries. -/
def freezeBagEntries (entries : List (Text × Json N)) : Json N := .obj (objectOf entries)

/-- `isValidCallBag`. -/
def isValidCallBag : Json N → Bool
  | .obj entries => (entries.all fun entry => bagEntryOk entry.1 entry.2) && bagTotalsOk entries
  | _ => false

/-- `Object.entries(value)`. -/
def entriesOf : Json N → List (Text × Json N)
  | .obj entries => entries
  | _ => []

/-- `sanitizeWireBag`, of a value that may be undefined. -/
def sanitizeWireBag : Option (Json N) → Option (Json N)
  | none => none
  | some value =>
      if isValidCallBag value = true then
        if entriesOf value = [] then none else some (freezeBagEntries (entriesOf value))
      else none

/-! ## A bag is taken whole -/

theorem bagEntryOk_str {key : Text} {value : Json N} (h : bagEntryOk key value = true) :
    ∃ text, value = .str text := by
  cases value with
  | str text => exact ⟨text, rfl⟩
  | _ => simp [bagEntryOk, asString] at h

/-- What a valid bag is: its entries are all strings, and all within their caps. -/
theorem obj_of_isValidCallBag {value : Json N} (h : isValidCallBag value = true) :
    ∃ entries, value = .obj entries ∧ (∀ entry ∈ entries, bagEntryOk entry.1 entry.2 = true) ∧
      bagTotalsOk entries = true := by
  cases value with
  | obj entries =>
    rw [isValidCallBag, Bool.and_eq_true, List.all_eq_true] at h
    exact ⟨entries, rfl, h.1, h.2⟩
  | _ => cases h

/-- JSON carries it as it is. -/
theorem carried_of_isValidCallBag [JsNumber N] {entries : List (Text × Json N)}
    (h : isValidCallBag (.obj entries) = true) (hlisted : Enumerated entries) :
    Carried (.obj entries : Json N) := by
  obtain ⟨_, ⟨⟩, hentries, -⟩ := obj_of_isValidCallBag h
  refine ⟨hlisted, ?_⟩
  clear h hlisted
  induction entries with
  | nil => trivial
  | cons entry entries ih =>
    rw [List.forall_mem_cons] at hentries
    obtain ⟨key, value⟩ := entry
    obtain ⟨text, rfl⟩ := bagEntryOk_str hentries.1
    exact ⟨trivial, ih hentries.2⟩

/-- A bag that is let through has all the entries that came, and they are valid. -/
theorem sanitizeWireBag_whole {value : Option (Json N)} {bag : Json N}
    (h : sanitizeWireBag value = some bag) :
    ∃ entries, value = some (.obj entries) ∧ isValidCallBag (.obj entries) = true ∧ entries ≠ [] ∧
      bag = freezeBagEntries entries := by
  cases value with
  | none => cases h
  | some value =>
    rw [sanitizeWireBag] at h
    split at h
    case isFalse => cases h
    case isTrue hvalid =>
      obtain ⟨entries, rfl, -, -⟩ := obj_of_isValidCallBag hvalid
      split at h
      case isTrue => cases h
      case isFalse hne => exact ⟨entries, rfl, hvalid, hne, (Option.some.inj h).symm⟩

theorem sanitizeWireBag_of_valid {entries : List (Text × Json N)}
    (h : isValidCallBag (.obj entries) = true) (hne : entries ≠ []) (hlisted : Enumerated entries) :
    sanitizeWireBag (some (.obj entries)) = some (.obj entries) := by
  rw [sanitizeWireBag, if_pos h, entriesOf, if_neg hne, freezeBagEntries,
    objectOf_enumerated hlisted]

end

end SigxActors.Codec
