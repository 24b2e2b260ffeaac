/-
  Js/Stringify.lean --- `JSON.stringify` of any value, with a replacer.

  A value is a tree: what refers to itself is left out, and so are functions and symbols.  An object
  lists its own properties in the order in which the language enumerates them, a map and a set what
  they hold in the order of insertion.  None of the objects has a `toJSON` of its own that can be
  called.

  The module names nothing of the runtime.
-/
import SigxActors.Js.Number

set_option autoImplicit false

namespace SigxActors.Js

/-- A value of the language. -/
inductive Value (N : Type) where
  | undefined
  | null
  | bool (b : Bool)
  | num (n : N)
  | str (s : Text)
  | bigint (n : Int)
  /-- A `Date`, by its time value; none where that is `NaN`. -/
  | date (time : Option Int)
  | arr (elements : List (Value N))
  | obj (members : List (Text × Value N))
  | map (entries : List (Value N × Value N))
  | set (elements : List (Value N))

/-! ## Dates -/

/-- The digits of a number, with zeros before them up to a width. -/
def padded (width n : Nat) : Text :=
  List.replicate (width - (decimalText n).length) 0x30 ++ decimalText n

/-- The year, the month and the day of the day that is so many days from the epoch. -/
def civil (days : Int) : Int × Nat × Nat :=
  let days := days + 719468
  let era := days / 146097
  let dayOfEra := (days - era * 146097).toNat
  let yearOfEra := (dayOfEra - dayOfEra / 1460 + dayOfEra / 36524 - dayOfEra / 146096) / 365
  -- years begin in March here
  let dayOfYear := dayOfEra - (365 * yearOfEra + yearOfEra / 4 - yearOfEra / 100)
  let month := (5 * dayOfYear + 2) / 153
  let year := era * 400 + yearOfEra
  (if month < 10 then year else year + 1, if month < 10 then month + 3 else month - 9,
    dayOfYear - (153 * month + 2) / 5 + 1)

/-- `Date.prototype.toISOString`, of a time value. -/
def toISOString (time : Int) : Text :=
  let (year, month, day) := civil (time / 86400000)
  let ms := (time % 86400000).toNat
  let yearText :=
    if 0 ≤ year ∧ year ≤ 9999 then padded 4 year.toNat
    else (if year < 0 then 0x2D else 0x2B) :: padded 6 year.natAbs
  yearText ++ 0x2D :: padded 2 month ++ 0x2D :: padded 2 day ++ 0x54 :: padded 2 (ms / 3600000) ++
    0x3A :: padded 2 (ms / 60000 % 60) ++ 0x3A :: padded 2 (ms / 1000 % 60) ++
      0x2E :: padded 3 (ms % 1000) ++ [0x5A]

/-! ## Printing -/

/-- Texts, with commas between them. -/
def commaJoin : List Text → Text
  | [] => []
  | [text] => text
  | text :: next :: rest => text ++ 0x2C :: commaJoin (next :: rest)

section

variable {N : Type} [JsNumber N]

/-- What the `toJSON` of a value returns, if it has one. -/
def Value.toJSON : Value N → Value N
  | .date (some time) => .str (toISOString time)
  | .date none => .null
  | v => v

/-- `SerializeJSONProperty`, for values that the replacer nests less deep than `fuel`.  None where it
throws, and `undefined` within. -/
def serializeProperty (replacer : Value N → Value N) : Nat → Value N → Option (Option Text)
  | 0, _ => none
  | fuel + 1, v =>
      match replacer v.toJSON with
      | .undefined => some none
      | .null => some (some nullText)
      | .bool b => some (some (if b then trueText else falseText))
      | .num n => some (some ((JsNumber.toText n).getD nullText))
      | .str s => some (some (quote s))
      | .bigint _ => none
      -- they have no properties of their own
      | .date _ | .map _ | .set _ => some (some [0x7B, 0x7D])
      | .arr elements =>
          (elements.mapM (serializeProperty replacer fuel)).map fun printed =>
            some (0x5B :: (commaJoin (printed.map (·.getD nullText)) ++ [0x5D]))
      | .obj members =>
          (members.mapM fun m => (serializeProperty replacer fuel m.2).map fun printed =>
            printed.map fun text => quote m.1 ++ 0x3A :: text).map fun printed =>
              some (0x7B :: (commaJoin (printed.filterMap id) ++ [0x7D]))

end

mutual

/-- The objects list their properties once each, and as the language enumerates them. -/
def Value.Ordered {N : Type} : Value N → Prop
  | .arr elements => OrderedElements elements
  | .obj members => Enumerated members ∧ OrderedMembers members
  | .map entries => OrderedEntries entries
  | .set elements => OrderedElements elements
  | _ => True

def OrderedElements {N : Type} : List (Value N) → Prop
  | [] => True
  | v :: rest => v.Ordered ∧ OrderedElements rest

def OrderedMembers {N : Type} : List (Text × Value N) → Prop
  | [] => True
  | (_, v) :: rest => v.Ordered ∧ OrderedMembers rest

def OrderedEntries {N : Type} : List (Value N × Value N) → Prop
  | [] => True
  | (key, v) :: rest => key.Ordered ∧ v.Ordered ∧ OrderedEntries rest

end

/-! ## Number tokens as numbers -/

/-- A number, by what it prints as. -/
structure NumberToken where
  text : Text
  isToken : isNumberToken text = true
  deriving DecidableEq

instance : JsNumber NumberToken where
  toText t := some t.text
  ofText text := if h : isNumberToken text = true then ⟨text, h⟩ else ⟨[0x30], by decide⟩
  token {t} _ h := Option.some.inj h ▸ t.isToken

theorem NumberToken.carried (t : NumberToken) :
    ∃ text, JsNumber.toText t = some text ∧ JsNumber.ofText text = t :=
  ⟨t.text, rfl, dif_pos t.isToken⟩

/-- Two values that JSON carries as they are do not print alike. -/
theorem stringify_inj {N : Type} [JsNumber N] {v w : Json N} (hv : Carried v) (hw : Carried w)
    (h : stringify v = stringify w) : v = w := by
  have hparsed := parseJson_stringify hv
  rw [h, parseJson_stringify hw] at hparsed
  exact (Option.some.inj hparsed).symm

end SigxActors.Js
