/-
  Js/Uri.lean --- `encodeURIComponent` and `decodeURIComponent`.

  A unit that is not unreserved is written as the UTF-8 of its scalar value, byte by
  byte.  Half a surrogate pair cannot be written, and bytes that are no UTF-8 cannot be
  read.

  The module names nothing of the runtime.
-/
import SigxActors.Js.Json

set_option autoImplicit false

namespace SigxActors.Js

/-! ## Encoding -/

/-- A letter, a digit or one of `-_.!~*'()`. -/
def isUnreserved (u : UInt16) : Bool :=
  isDigit u || (0x41 ≤ u.toNat && u.toNat ≤ 0x5A) || (0x61 ≤ u.toNat && u.toNat ≤ 0x7A) ||
    u == 0x2D || u == 0x5F || u == 0x2E || u == 0x21 || u == 0x7E || u == 0x2A || u == 0x27 ||
      u == 0x28 || u == 0x29

/-- A digit of base sixteen, in upper case. -/
def upperHexDigit (n : Nat) : UInt16 := UInt16.ofNat (if n < 10 then 0x30 + n else 0x37 + n)

/-- `%XX`. -/
def percentByte (b : UInt8) : Text :=
  [0x25, upperHexDigit (b.toNat / 0x10), upperHexDigit (b.toNat % 0x10)]

def percentScalar (c : Nat) : Text := (encodeScalar c).flatMap percentByte

/-- A unit that is no surrogate. -/
def percentUnit (u : UInt16) : Text := if isUnreserved u then [u] else percentScalar u.toNat

/-- `encodeURIComponent`, none where it throws. -/
def encodeURIComponent : Text → Option Text
  | [] => some []
  | u :: rest =>
      if isLead u then
        match rest with
        | v :: rest' =>
            if isTrail v then
              (encodeURIComponent rest').map (percentScalar (paired u v) ++ ·)
            else none
        | [] => none
      else if isTrail u then none
      else (encodeURIComponent rest).map (percentUnit u ++ ·)

/-! ## Decoding -/

/-- A unit that stands for itself, or a byte. -/
inductive UriToken where
  | unit (u : UInt16)
  | byte (b : Nat)
  deriving DecidableEq

/-- The units and the bytes of a text. -/
def uriTokens : Text → Option (List UriToken)
  | [] => some []
  | u :: rest =>
      if u = 0x25 then
        match rest with
        | h :: l :: rest =>
            (hexValue h).bind fun a => (hexValue l).bind fun b =>
              (uriTokens rest).map (.byte (a * 0x10 + b) :: ·)
        | _ => none
      else (uriTokens rest).map (.unit u :: ·)

/-- The byte comes next in UTF-8. -/
def expectsByte : Option Pending → Nat → Bool
  | none, b => (firstByte b).1 != [replacement]
  | some p, b => p.lower ≤ b && b ≤ p.upper

/-- The units of tokens, from within a sequence of bytes or not. -/
def unitsOfTokens : Option Pending → List UriToken → Option Text
  | none, [] => some []
  | some _, [] => none
  | none, .unit u :: rest => (unitsOfTokens none rest).map (u :: ·)
  | some _, .unit _ :: _ => none
  | p, .byte b :: rest =>
      if expectsByte p b then
        (unitsOfTokens (nextByte p b).2 rest).map ((nextByte p b).1.flatMap unitsOf ++ ·)
      else none

/-- `decodeURIComponent`, none where it throws. -/
def decodeURIComponent (text : Text) : Option Text := (uriTokens text).bind (unitsOfTokens none)

/-! ## The round trip -/

theorem hexValue_upperHexDigit : ∀ n < 16, hexValue (upperHexDigit n) = some n := by decide

theorem uriTokens_percentByte (b : UInt8) (rest : Text) :
    uriTokens (percentByte b ++ rest) = (uriTokens rest).map (.byte b.toNat :: ·) := by
  have hlt := b.toNat_lt
  have hsum : b.toNat / 0x10 * 0x10 + b.toNat % 0x10 = b.toNat := by omega
  simp only [percentByte, List.cons_append, List.nil_append]
  rw [uriTokens, if_pos rfl, hexValue_upperHexDigit _ (by omega), hexValue_upperHexDigit _ (by omega)]
  simp only [Option.bind_some, hsum]

theorem uriTokens_percentBytes (bytes : Bytes) (rest : Text) :
    uriTokens (bytes.flatMap percentByte ++ rest) =
      (uriTokens rest).map (bytes.map (fun b => .byte b.toNat) ++ ·) := by
  induction bytes with
  | nil => exact Option.map_id'.symm
  | cons b bytes ih =>
    rw [List.flatMap_cons, List.append_assoc, uriTokens_percentByte, ih, Option.map_map]
    rfl

variable {u : UInt16} {b c : Nat}

theorem uriTokens_literal (h : u ≠ 0x25) (rest : Text) :
    uriTokens (u :: rest) = (uriTokens rest).map (.unit u :: ·) := by
  rw [uriTokens.eq_def]
  simp only [if_neg h]

/-! ## Bytes of one scalar value -/

/-- A byte that does not complete a sequence. -/
theorem unitsOfTokens_next {p : Option Pending} {p' : Pending}
    (hnext : nextByte p b = ([], some p')) (hexpects : expectsByte p b = true)
    (rest : List UriToken) : unitsOfTokens p (.byte b :: rest) = unitsOfTokens (some p') rest := by
  rw [unitsOfTokens, if_pos hexpects, hnext]
  exact Option.map_id'

/-- The byte that completes it. -/
theorem unitsOfTokens_last {p : Option Pending} (hnext : nextByte p b = ([c], none))
    (hexpects : expectsByte p b = true) (rest : List UriToken) :
    unitsOfTokens p (.byte b :: rest) = (unitsOfTokens none rest).map (unitsOf c ++ ·) := by
  rw [unitsOfTokens, if_pos hexpects, hnext, List.flatMap_cons, List.flatMap_nil, List.append_nil]

/-- The first of several. -/
theorem unitsOfTokens_first {p : Pending} (h : firstByte b = ([], some p)) (rest : List UriToken) :
    unitsOfTokens none (.byte b :: rest) = unitsOfTokens (some p) rest := by
  have hnext : nextByte none b = ([], some p) := h
  refine unitsOfTokens_next hnext ?_ rest
  rw [expectsByte, h]
  rfl

/-- One between the first and the last. -/
theorem unitsOfTokens_middle {p : Pending} (h : p.lower ≤ b ∧ b ≤ p.upper) (hneeded : p.needed ≠ 1)
    (rest : List UriToken) :
    unitsOfTokens (some p) (.byte b :: rest) =
      unitsOfTokens (some { needed := p.needed - 1, point := p.point * 0x40 + b % 0x40 }) rest := by
  refine unitsOfTokens_next ?_ ?_ rest
  · rw [nextByte, if_pos h]
    exact if_neg hneeded
  · rw [expectsByte, Bool.and_eq_true, decide_eq_true_eq, decide_eq_true_eq]
    exact h

/-- The last of several. -/
theorem unitsOfTokens_end {p : Pending} (h : p.lower ≤ b ∧ b ≤ p.upper) (hneeded : p.needed = 1)
    (hc : p.point * 0x40 + b % 0x40 = c) (rest : List UriToken) :
    unitsOfTokens (some p) (.byte b :: rest) = (unitsOfTokens none rest).map (unitsOf c ++ ·) := by
  refine unitsOfTokens_last ?_ ?_ rest
  · rw [nextByte, if_pos h, ← hc]
    exact if_pos hneeded
  · rw [expectsByte, Bool.and_eq_true, decide_eq_true_eq, decide_eq_true_eq]
    exact h

/-- The bytes of a scalar value. -/
def byteTokens (c : Nat) : List UriToken := (encodeScalar c).map fun b => .byte b.toNat

theorem byteTokens_one (h : c < 0x80) : byteTokens c = [.byte c] := by
  rw [byteTokens, encodeScalar, if_pos h, List.map_cons, toNat_ofNat8 (by omega)]
  rfl

theorem byteTokens_two (h : ¬ c < 0x80) (h' : c < 0x800) :
    byteTokens c = [.byte (0xC0 + c / 0x40), .byte (0x80 + c % 0x40)] := by
  rw [byteTokens, encodeScalar, if_neg h, if_pos h']
  simp only [List.map_cons, List.map_nil, toNat_ofNat8 (show 0xC0 + c / 0x40 < 0x100 by omega),
    toNat_ofNat8 (show 0x80 + c % 0x40 < 0x100 by omega)]

theorem byteTokens_three (h : ¬ c < 0x800) (h' : c < 0x10000) :
    byteTokens c = [.byte (0xE0 + c / 0x1000), .byte (0x80 + c / 0x40 % 0x40),
      .byte (0x80 + c % 0x40)] := by
  rw [byteTokens, encodeScalar, if_neg (by omega), if_neg h, if_pos h']
  simp only [List.map_cons, List.map_nil, toNat_ofNat8 (show 0xE0 + c / 0x1000 < 0x100 by omega),
    toNat_ofNat8 (show 0x80 + c / 0x40 % 0x40 < 0x100 by omega),
    toNat_ofNat8 (show 0x80 + c % 0x40 < 0x100 by omega)]

theorem byteTokens_four (h : ¬ c < 0x10000) (h' : c < 0x110000) :
    byteTokens c = [.byte (0xF0 + c / 0x40000), .byte (0x80 + c / 0x1000 % 0x40),
      .byte (0x80 + c / 0x40 % 0x40), .byte (0x80 + c % 0x40)] := by
  rw [byteTokens, encodeScalar, if_neg (by omega), if_neg (by omega), if_neg h]
  simp only [List.map_cons, List.map_nil, toNat_ofNat8 (show 0xF0 + c / 0x40000 < 0x100 by omega),
    toNat_ofNat8 (show 0x80 + c / 0x1000 % 0x40 < 0x100 by omega),
    toNat_ofNat8 (show 0x80 + c / 0x40 % 0x40 < 0x100 by omega),
    toNat_ofNat8 (show 0x80 + c % 0x40 < 0x100 by omega)]

/-- The bytes of a scalar value are read back as its units. -/
theorem unitsOfTokens_byteTokens (hc : Scalar c) (rest : List UriToken) :
    unitsOfTokens none (byteTokens c ++ rest) = (unitsOfTokens none rest).map (unitsOf c ++ ·) := by
  unfold Scalar at hc
  by_cases hone : c < 0x80
  · have hfirst : firstByte c = ([c], none) := if_pos (by omega)
    have hnext : nextByte none c = ([c], none) := hfirst
    rw [byteTokens_one hone, List.singleton_append]
    refine unitsOfTokens_last hnext ?_ rest
    rw [expectsByte, hfirst, bne_iff_ne]
    intro heq
    obtain ⟨rfl, -⟩ := List.cons.inj heq
    exact absurd hone (by decide)
  by_cases htwo : c < 0x800
  · have hfirst : firstByte (0xC0 + c / 0x40) =
        ([], some { needed := 1, point := (0xC0 + c / 0x40) % 0x20 }) := by
      rw [firstByte, if_neg (by omega), if_pos (by omega)]
    rw [byteTokens_two hone htwo]
    simp only [List.cons_append, List.nil_append]
    rw [unitsOfTokens_first hfirst]
    exact unitsOfTokens_end (by dsimp only; omega) rfl (by dsimp only; omega) rest
  by_cases hthree : c < 0x10000
  · have hfirst := firstByte_three (b := 0xE0 + c / 0x1000) (by omega) (by omega)
    rw [byteTokens_three htwo hthree]
    simp only [List.cons_append, List.nil_append]
    rw [unitsOfTokens_first hfirst,
      unitsOfTokens_middle (by dsimp only; split <;> split <;> omega) (by dsimp only; omega)]
    exact unitsOfTokens_end (by dsimp only; omega) rfl (by dsimp only; omega) rest
  · have hfirst := firstByte_four (b := 0xF0 + c / 0x40000) (by omega) (by omega)
    rw [byteTokens_four hthree (by omega)]
    simp only [List.cons_append, List.nil_append]
    rw [unitsOfTokens_first hfirst,
      unitsOfTokens_middle (by dsimp only; split <;> split <;> omega) (by dsimp only; omega),
      unitsOfTokens_middle (by dsimp only; omega) (by dsimp only; omega)]
    exact unitsOfTokens_end (by dsimp only; omega) rfl (by dsimp only; omega) rest

/-! ## Texts -/

theorem decodeURIComponent_literal (h : u ≠ 0x25) (rest : Text) :
    decodeURIComponent (u :: rest) = (decodeURIComponent rest).map (u :: ·) := by
  rw [decodeURIComponent, decodeURIComponent, uriTokens_literal h]
  cases uriTokens rest <;> rfl

theorem decodeURIComponent_percentScalar (hc : Scalar c) (rest : Text) :
    decodeURIComponent (percentScalar c ++ rest) =
      (decodeURIComponent rest).map (unitsOf c ++ ·) := by
  rw [decodeURIComponent, decodeURIComponent, percentScalar, uriTokens_percentBytes]
  cases uriTokens rest with
  | none => rfl
  | some tokens => exact unitsOfTokens_byteTokens hc tokens

theorem ne_percent_of_isUnreserved (h : isUnreserved u = true) : u ≠ 0x25 := by
  rintro rfl
  exact absurd h (by decide)

theorem encodeURIComponent_pair {v : UInt16} (hlead : isLead u) (htrail : isTrail v) (rest : Text) :
    encodeURIComponent (u :: v :: rest) =
      (encodeURIComponent rest).map (percentScalar (paired u v) ++ ·) := by
  rw [encodeURIComponent, if_pos hlead]
  exact if_pos htrail

theorem encodeURIComponent_unit (hlead : ¬ isLead u) (htrail : ¬ isTrail u) (rest : Text) :
    encodeURIComponent (u :: rest) = (encodeURIComponent rest).map (percentUnit u ++ ·) := by
  rw [encodeURIComponent.eq_def]
  simp only [if_neg hlead, if_neg htrail]

/-- Half a pair is not written. -/
theorem wellFormed_of_encodeURIComponent {text t : Text} (h : encodeURIComponent text = some t) :
    WellFormed text := by
  fun_induction encodeURIComponent text generalizing t with
  | case1 => exact .nil
  | case2 u hlead v rest htrail ih =>
    obtain ⟨t', ht', -⟩ := Option.map_eq_some_iff.1 h
    exact .pair hlead htrail (ih ht')
  | case3 | case4 | case5 => cases h
  | case6 u rest hlead htrail ih =>
    obtain ⟨t', ht', -⟩ := Option.map_eq_some_iff.1 h
    exact .unit hlead htrail (ih ht')

end SigxActors.Js
