/-
  Js/FormEncoding.lean --- `application/x-www-form-urlencoded`, as `URLSearchParams` has it.

  A name and a value are written as their UTF-8, a byte as itself, as a plus or as a percent
  sequence.  A list of pairs that is serialized is parsed to the same list, a surrogate without its
  partner apart.  A query is ASCII.

  The module names nothing of the runtime.
-/
import SigxActors.Js.Uri

set_option autoImplicit false

namespace SigxActors.Js

/-! ## Writing -/

/-- A letter, a digit or one of `*-._`. -/
def isFormPlain (u : UInt16) : Bool :=
  isDigit u || (0x41 ≤ u.toNat && u.toNat ≤ 0x5A) || (0x61 ≤ u.toNat && u.toNat ≤ 0x7A) ||
    u == 0x2A || u == 0x2D || u == 0x2E || u == 0x5F

def formByte (b : UInt8) : Text :=
  if b = 0x20 then [0x2B]
  else if isFormPlain (UInt16.ofNat b.toNat) then [UInt16.ofNat b.toNat]
  else percentByte b

/-- A name or a value. -/
def formEncode (text : Text) : Text := (encode text).flatMap formByte

def formPair (pair : Text × Text) : Text := formEncode pair.1 ++ 0x3D :: formEncode pair.2

/-- `params.toString()`. -/
def formSerialize (params : List (Text × Text)) : Text := [0x26].intercalate (params.map formPair)

/-- `params.set(name, value)`. -/
def setParam (params : List (Text × Text)) (name value : Text) : List (Text × Text) :=
  let others (pair : Text × Text) : Bool := pair.1 ≠ name
  match params.dropWhile others with
  | [] => params ++ [(name, value)]
  | _ :: rest => params.takeWhile others ++ (name, value) :: rest.filter others

/-! ## Reading -/

/-- The bytes of a name or a value. -/
def formBytes : Text → Bytes
  | [] => []
  | u :: rest =>
      if u = 0x2B then 0x20 :: formBytes rest
      else if u = 0x25 then
        match rest with
        | h :: l :: rest' =>
            match hexValue h, hexValue l with
            | some a, some b => UInt8.ofNat (a * 0x10 + b) :: formBytes rest'
            | _, _ => 0x25 :: formBytes (h :: l :: rest')
        | rest => 0x25 :: formBytes rest
      else UInt8.ofNat u.toNat :: formBytes rest

def formDecode (text : Text) : Text := (decodeFrom none (formBytes text)).flatMap unitsOf

/-- `[...new URLSearchParams(query)]`. -/
def formParse (query : Text) : List (Text × Text) :=
  ((query.splitOn 0x26).filter (· ≠ [])).map fun piece =>
    (formDecode (piece.takeWhile (· ≠ 0x3D)), formDecode ((piece.dropWhile (· ≠ 0x3D)).drop 1))

/-! ## The round trip -/

/-- No separator, and none of the signs that stand for a byte. -/
def NoSeparator (u : UInt16) : Prop := u ≠ 0x26 ∧ u ≠ 0x3D

instance (u : UInt16) : Decidable (NoSeparator u) := inferInstanceAs (Decidable (_ ∧ _))

theorem noSeparator_hexDigit : ∀ n < 16, NoSeparator (upperHexDigit n) := by decide

theorem noSeparator_formByte (b : UInt8) : ∀ u ∈ formByte b, NoSeparator u := by
  have hlt := b.toNat_lt
  unfold formByte
  split
  · simp [NoSeparator]
  split
  · rename_i hplain
    rw [List.forall_mem_singleton]
    constructor
    all_goals
      intro heq
      rw [heq] at hplain
      exact absurd hplain (by decide)
  · rw [percentByte, List.forall_mem_cons, List.forall_mem_cons, List.forall_mem_singleton]
    exact ⟨by decide, noSeparator_hexDigit _ (by omega), noSeparator_hexDigit _ (by omega)⟩

theorem noSeparator_formEncode (text : Text) : ∀ u ∈ formEncode text, NoSeparator u := by
  intro u hu
  obtain ⟨b, -, hb⟩ := List.mem_flatMap.1 hu
  exact noSeparator_formByte b u hb

theorem formBytes_formByte (b : UInt8) (rest : Text) :
    formBytes (formByte b ++ rest) = b :: formBytes rest := by
  have hlt := b.toNat_lt
  unfold formByte
  split
  · rename_i hspace
    rw [List.singleton_append, formBytes.eq_def, hspace]
    exact if_pos rfl
  · split
    · rename_i hplain
      have hnat : (UInt16.ofNat b.toNat).toNat = b.toNat :=
        UInt16.toNat_ofNat_of_lt' (Nat.lt_trans hlt (by decide))
      have hplus : UInt16.ofNat b.toNat ≠ 0x2B := fun heq => by
        rw [heq] at hplain
        exact absurd hplain (by decide)
      have hpercent : UInt16.ofNat b.toNat ≠ 0x25 := fun heq => by
        rw [heq] at hplain
        exact absurd hplain (by decide)
      rw [List.singleton_append, formBytes.eq_def]
      simp only [if_neg hplus, if_neg hpercent, hnat, UInt8.ofNat_toNat]
    · have hsum : b.toNat / 0x10 * 0x10 + b.toNat % 0x10 = b.toNat := by omega
      have hplus : (0x25 : UInt16) ≠ 0x2B := by decide
      simp only [percentByte, List.cons_append, List.nil_append]
      rw [formBytes, if_neg hplus, if_pos rfl]
      simp only [hexValue_upperHexDigit _ (show b.toNat / 0x10 < 16 by omega),
        hexValue_upperHexDigit _ (show b.toNat % 0x10 < 16 by omega), hsum, UInt8.ofNat_toNat]

theorem formBytes_formEncode (text : Text) : formBytes (formEncode text) = encode text := by
  unfold formEncode
  induction encode text with
  | nil => rfl
  | cons b bytes ih => rw [List.flatMap_cons, formBytes_formByte, ih]

/-- A surrogate without its partner is read as U+FFFD. -/
theorem formDecode_formEncode (text : Text) :
    formDecode (formEncode text) = (scalars text).flatMap unitsOf := by
  rw [formDecode, formBytes_formEncode, encode, decodeFrom_encode (scalar_scalars text)]

theorem formParse_formSerialize (params : List (Text × Text)) :
    formParse (formSerialize params) = params.map fun pair =>
      ((scalars pair.1).flatMap unitsOf, (scalars pair.2).flatMap unitsOf) := by
  have hamp : ∀ piece ∈ params.map formPair, (0x26 : UInt16) ∉ piece := by
    intro piece hpiece hmem
    obtain ⟨pair, -, rfl⟩ := List.mem_map.1 hpiece
    rcases List.mem_append.1 hmem with hname | hvalue
    · exact (noSeparator_formEncode _ _ hname).1 rfl
    · rcases List.mem_cons.1 hvalue with heq | hvalue
      · exact absurd heq (by decide)
      · exact (noSeparator_formEncode _ _ hvalue).1 rfl
  have hname : ∀ text, ∀ u ∈ formEncode text, decide (u ≠ 0x3D) = true :=
    fun text u hu => decide_eq_true (noSeparator_formEncode text u hu).2
  unfold formParse formSerialize
  cases params with
  | nil => rfl
  | cons first others =>
    rw [List.splitOn_intercalate 0x26 hamp (List.cons_ne_nil _ _), List.filter_eq_self.2,
      List.map_map]
    · refine List.map_congr_left fun pair _ => ?_
      dsimp only [Function.comp, formPair]
      rw [List.takeWhile_append_of_pos (hname _), List.dropWhile_append_of_pos (hname _)]
      simp [formDecode_formEncode]
    · intro piece hpiece
      obtain ⟨pair, -, rfl⟩ := List.mem_map.1 hpiece
      simp [formPair]

end SigxActors.Js
