/-
  Codec/WireParse.lean --- the pollution-safe parse of a payload.

  A payload is parsed without its dangerous keys.  The reviver that drops them is only
  passed where one of them can be in the text: spelled out, or behind an escape.
-/
import SigxActors.Js.JsonRoundTrip

set_option autoImplicit false

namespace SigxActors.Codec

open SigxActors.Js

/-- A text of plain letters. -/
def spell (letters : List Char) : Text := letters.map fun c => UInt16.ofNat c.toNat

def protoKey : Text := spell ['_', '_', 'p', 'r', 'o', 't', 'o', '_', '_']

def constructorKey : Text := spell ['c', 'o', 'n', 's', 't', 'r', 'u', 'c', 't', 'o', 'r']

def prototypeKey : Text := spell ['p', 'r', 'o', 't', 'o', 't', 'y', 'p', 'e']

/-- `DANGEROUS_KEYS`. -/
def dangerousKeys : List Text := [protoKey, constructorKey, prototypeKey]

section

variable {N : Type}

mutual

/-- `reviver`, run on every node: what is keyed dangerously is dropped, inner nodes first. -/
def revive : Json N → Json N
  | .arr elements => .arr (reviveElements elements)
  | .obj members => .obj (reviveMembers members)
  | .null => .null
  | .bool b => .bool b
  | .num n => .num n
  | .str s => .str s

/-- An index is no dangerous key. -/
def reviveElements : List (Json N) → List (Json N)
  | [] => []
  | v :: rest => revive v :: reviveElements rest

def reviveMembers : List (Text × Json N) → List (Text × Json N)
  | [] => []
  | (key, v) :: rest =>
      if key ∈ dangerousKeys then reviveMembers rest else (key, revive v) :: reviveMembers rest

end

/-- `text.includes(part)`. -/
def includes (text part : Text) : Bool := part.isInfixOf_internal text

/-- A dangerous key could be in the text. -/
def suspect (text : Text) : Bool :=
  includes text protoKey || includes text constructorKey || includes text prototypeKey ||
    includes text (spell ['\\', 'u'])

/-- `parseWire`, none where it throws. -/
def parseWire [JsNumber N] (text : Text) : Option (Json N) :=
  if suspect text then (parseJson text).map revive else parseJson text

/-! ## Payloads without dangerous keys -/

mutual

/-- No key of it is dangerous. -/
def Safe : Json N → Prop
  | .arr elements => SafeElements elements
  | .obj members => SafeMembers members
  | .null => True
  | .bool _ => True
  | .num _ => True
  | .str _ => True

def SafeElements : List (Json N) → Prop
  | [] => True
  | v :: rest => Safe v ∧ SafeElements rest

def SafeMembers : List (Text × Json N) → Prop
  | [] => True
  | (key, v) :: rest => key ∉ dangerousKeys ∧ Safe v ∧ SafeMembers rest

end

mutual

/-- The reviver leaves it as it is. -/
theorem revive_of_safe : ∀ {v : Json N}, Safe v → revive v = v
  | .arr elements, h => by
    rw [revive, reviveElements_of_safe h]
  | .obj members, h => by
    rw [revive, reviveMembers_of_safe h]
  | .null, _ => by rw [revive]
  | .bool _, _ => by rw [revive]
  | .num _, _ => by rw [revive]
  | .str _, _ => by rw [revive]

theorem reviveElements_of_safe : ∀ {vs : List (Json N)}, SafeElements vs → reviveElements vs = vs
  | [], _ => by rw [reviveElements]
  | v :: vs, h => by
    rw [reviveElements, revive_of_safe h.1, reviveElements_of_safe h.2]

theorem reviveMembers_of_safe :
    ∀ {ms : List (Text × Json N)}, SafeMembers ms → reviveMembers ms = ms
  | [], _ => by rw [reviveMembers]
  | (key, v) :: ms, h => by
    rw [reviveMembers, if_neg h.1, revive_of_safe h.2.1, reviveMembers_of_safe h.2.2]

end

/-- Whichever parse is taken, a value without dangerous keys comes back. -/
theorem parseWire_stringify [JsNumber N] {v : Json N} (hcarried : Carried v) (hsafe : Safe v) :
    parseWire (stringify v) = some v := by
  unfold parseWire
  split
  · rw [parseJson_stringify hcarried, Option.map_some, revive_of_safe hsafe]
  · exact parseJson_stringify hcarried

end

end SigxActors.Codec
