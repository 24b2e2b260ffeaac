/-
  Js/Text.lean --- texts, and their UTF-8.

  A text is a sequence of 16-bit code units, as in JavaScript.  `TextEncoder` and
  `TextDecoder` are those of the Encoding Standard: a surrogate without its partner is
  encoded as U+FFFD, bytes that are no UTF-8 are decoded to U+FFFD, and a byte order
  mark in front is dropped.

  The module names nothing of the runtime.
-/

set_option autoImplicit false

namespace SigxActors.Js

/-- A string. -/
abbrev Text := List UInt16

abbrev Bytes := List UInt8

instance : LawfulBEq Text := inferInstance

/-- A lead surrogate. -/
def isLead (u : UInt16) : Prop := 0xD800 ≤ u.toNat ∧ u.toNat ≤ 0xDBFF

/-- A trail surrogate. -/
def isTrail (u : UInt16) : Prop := 0xDC00 ≤ u.toNat ∧ u.toNat ≤ 0xDFFF

instance (u : UInt16) : Decidable (isLead u) := inferInstanceAs (Decidable (_ ∧ _))

instance (u : UInt16) : Decidable (isTrail u) := inferInstanceAs (Decidable (_ ∧ _))

/-- U+FFFD. -/
def replacement : Nat := 0xFFFD

/-- The scalar value of a surrogate pair. -/
def paired (u v : UInt16) : Nat := 0x10000 + (u.toNat - 0xD800) * 0x400 + (v.toNat - 0xDC00)

/-- The scalar values of a text. -/
def scalars : Text → List Nat
  | [] => []
  | u :: rest =>
      if isLead u then
        match rest with
        | v :: rest' =>
            if isTrail v then paired u v :: scalars rest' else replacement :: scalars (v :: rest')
        | [] => [replacement]
      else if isTrail u then replacement :: scalars rest
      else u.toNat :: scalars rest

/-- The code units of a scalar value. -/
def unitsOf (c : Nat) : Text :=
  if c < 0x10000 then [UInt16.ofNat c]
  else [UInt16.ofNat (0xD800 + (c - 0x10000) / 0x400), UInt16.ofNat (0xDC00 + (c - 0x10000) % 0x400)]

/-- The UTF-8 of a scalar value. -/
def encodeScalar (c : Nat) : Bytes :=
  if c < 0x80 then [UInt8.ofNat c]
  else if c < 0x800 then [UInt8.ofNat (0xC0 + c / 0x40), UInt8.ofNat (0x80 + c % 0x40)]
  else if c < 0x10000 then
    [UInt8.ofNat (0xE0 + c / 0x1000), UInt8.ofNat (0x80 + c / 0x40 % 0x40),
      UInt8.ofNat (0x80 + c % 0x40)]
  else
    [UInt8.ofNat (0xF0 + c / 0x40000), UInt8.ofNat (0x80 + c / 0x1000 % 0x40),
      UInt8.ofNat (0x80 + c / 0x40 % 0x40), UInt8.ofNat (0x80 + c % 0x40)]

/-- `encoder.encode(text)`. -/
def encode (text : Text) : Bytes := (scalars text).flatMap encodeScalar

/-- What `encodeInto` writes where there is room for `room` bytes. -/
def encodeScalarsInto : Nat → List Nat → Bytes
  | _, [] => []
  | room, c :: rest =>
      if (encodeScalar c).length ≤ room then
        encodeScalar c ++ encodeScalarsInto (room - (encodeScalar c).length) rest
      else []

/-- `encoder.encodeInto(text, buffer)`: what is written. -/
def encodeInto (text : Text) (room : Nat) : Bytes := encodeScalarsInto room (scalars text)

/-- A sequence that has begun. -/
structure Pending where
  /-- How many bytes are missing. -/
  needed : Nat
  point : Nat
  /-- The least and the greatest byte that may come next. -/
  lower : Nat := 0x80
  upper : Nat := 0xBF

/-- A byte between sequences. -/
def firstByte (b : Nat) : List Nat × Option Pending :=
  if b ≤ 0x7F then ([b], none)
  else if 0xC2 ≤ b ∧ b ≤ 0xDF then ([], some { needed := 1, point := b % 0x20 })
  else if 0xE0 ≤ b ∧ b ≤ 0xEF then
    ([], some
      { needed := 2
        point := b % 0x10
        lower := if b = 0xE0 then 0xA0 else 0x80
        upper := if b = 0xED then 0x9F else 0xBF })
  else if 0xF0 ≤ b ∧ b ≤ 0xF4 then
    ([], some
      { needed := 3
        point := b % 0x8
        lower := if b = 0xF0 then 0x90 else 0x80
        upper := if b = 0xF4 then 0x8F else 0xBF })
  else ([replacement], none)

/-- A byte, within a sequence or not. -/
def nextByte : Option Pending → Nat → List Nat × Option Pending
  | none, b => firstByte b
  | some p, b =>
      if p.lower ≤ b ∧ b ≤ p.upper then
        let point := p.point * 0x40 + b % 0x40
        if p.needed = 1 then ([point], none) else ([], some { needed := p.needed - 1, point := point })
      else (replacement :: (firstByte b).1, (firstByte b).2)

/-- The scalar values of bytes, from within a sequence or not. -/
def decodeFrom : Option Pending → Bytes → List Nat
  | none, [] => []
  | some _, [] => [replacement]
  | p, b :: rest => (nextByte p b.toNat).1 ++ decodeFrom (nextByte p b.toNat).2 rest

/-- `decoder.decode(bytes)`. -/
def decode (bytes : Bytes) : Text :=
  let bytes := if [0xEF, 0xBB, 0xBF].isPrefixOf bytes then bytes.drop 3 else bytes
  (decodeFrom none bytes).flatMap unitsOf

/-! ## Well-formed texts -/

/-- Every surrogate has its partner. -/
inductive WellFormed : Text → Prop where
  | nil : WellFormed []
  | unit {u : UInt16} {rest : Text} (hlead : ¬ isLead u) (htrail : ¬ isTrail u)
      (h : WellFormed rest) : WellFormed (u :: rest)
  | pair {u v : UInt16} {rest : Text} (hlead : isLead u) (htrail : isTrail v)
      (h : WellFormed rest) : WellFormed (u :: v :: rest)

theorem WellFormed.append {s t : Text} (hs : WellFormed s) (ht : WellFormed t) :
    WellFormed (s ++ t) := by
  induction hs with
  | nil => exact ht
  | unit hlead htrail _ ih => exact .unit hlead htrail ih
  | pair hlead htrail _ ih => exact .pair hlead htrail ih

/-- A scalar value. -/
def Scalar (c : Nat) : Prop := c < 0xD800 ∨ 0xE000 ≤ c ∧ c < 0x110000

variable {u : UInt16} {b : Nat}

theorem scalar_paired {v : UInt16} (hlead : isLead u) (htrail : isTrail v) :
    Scalar (paired u v) := by
  unfold isLead at hlead
  unfold isTrail at htrail
  unfold Scalar paired
  omega

theorem scalar_toNat (hlead : ¬ isLead u) (htrail : ¬ isTrail u) : Scalar u.toNat := by
  have := u.toNat_lt
  unfold isLead at hlead
  unfold isTrail at htrail
  unfold Scalar
  omega

theorem scalars_cons (hlead : ¬ isLead u) (rest : Text) :
    scalars (u :: rest) = (if isTrail u then replacement else u.toNat) :: scalars rest := by
  cases rest with
  | nil =>
    simp only [scalars, if_neg hlead]
    split <;> rfl
  | cons v rest =>
    rw [scalars, if_neg hlead]
    split <;> rfl

theorem scalars_pair {v : UInt16} (hlead : isLead u) (htrail : isTrail v) (rest : Text) :
    scalars (u :: v :: rest) = paired u v :: scalars rest := by
  rw [scalars, if_pos hlead]
  exact if_pos htrail

theorem scalar_scalars (text : Text) : ∀ c ∈ scalars text, Scalar c := by
  have hreplacement : Scalar replacement := by
    unfold Scalar replacement
    omega
  induction text using scalars.induct with
  | case1 => simp [scalars]
  | case2 u hlead v rest htrail ih =>
    rw [scalars_pair hlead htrail, List.forall_mem_cons]
    exact ⟨scalar_paired hlead htrail, ih⟩
  | case3 u hlead v rest htrail ih =>
    rw [scalars, if_pos hlead]
    simp only [if_neg htrail, List.forall_mem_cons]
    exact ⟨hreplacement, ih⟩
  | case4 u hlead =>
    rw [scalars, if_pos hlead]
    simpa using hreplacement
  | case5 u rest hlead htrail ih =>
    rw [scalars_cons hlead, if_pos htrail, List.forall_mem_cons]
    exact ⟨hreplacement, ih⟩
  | case6 u rest hlead htrail ih =>
    rw [scalars_cons hlead, if_neg htrail, List.forall_mem_cons]
    exact ⟨scalar_toNat hlead htrail, ih⟩

/-- The scalar values of a well-formed text are all there is to it. -/
theorem WellFormed.units {text : Text} (h : WellFormed text) :
    (scalars text).flatMap unitsOf = text := by
  induction h with
  | nil => rfl
  | @unit u rest hlead htrail _ ih =>
    have hlt := u.toNat_lt
    rw [scalars_cons hlead, if_neg htrail, List.flatMap_cons, ih, unitsOf, if_pos (by omega)]
    simp
  | @pair u v rest hlead htrail _ ih =>
    rw [scalars_pair hlead htrail, List.flatMap_cons, ih]
    unfold isLead at hlead
    unfold isTrail at htrail
    have hu : 0xD800 + (paired u v - 0x10000) / 0x400 = u.toNat := by
      unfold paired
      omega
    have hv : 0xDC00 + (paired u v - 0x10000) % 0x400 = v.toNat := by
      unfold paired
      omega
    rw [unitsOf, if_neg (by unfold paired; omega), hu, hv]
    simp

/-! ## Decoding what was encoded -/

theorem toNat_ofNat8 {n : Nat} (h : n < 0x100) : (UInt8.ofNat n).toNat = n :=
  UInt8.toNat_ofNat_of_lt' h

/-- A byte that begins a sequence. -/
theorem decodeFrom_first (hb : b < 0x100) {p : Pending} (h : firstByte b = ([], some p))
    (rest : Bytes) : decodeFrom none (UInt8.ofNat b :: rest) = decodeFrom (some p) rest := by
  rw [decodeFrom, toNat_ofNat8 hb, nextByte, h]
  rfl

/-- The first of three bytes. -/
theorem firstByte_three (hlow : 0xE0 ≤ b) (hhigh : b ≤ 0xEF) : firstByte b =
    ([], some
      { needed := 2
        point := b % 0x10
        lower := if b = 0xE0 then 0xA0 else 0x80
        upper := if b = 0xED then 0x9F else 0xBF }) := by
  rw [firstByte, if_neg (by omega), if_neg (by omega), if_pos ⟨hlow, hhigh⟩]

/-- The first of four bytes. -/
theorem firstByte_four (hlow : 0xF0 ≤ b) (hhigh : b ≤ 0xF4) : firstByte b =
    ([], some
      { needed := 3
        point := b % 0x8
        lower := if b = 0xF0 then 0x90 else 0x80
        upper := if b = 0xF4 then 0x8F else 0xBF }) := by
  rw [firstByte, if_neg (by omega), if_neg (by omega), if_neg (by omega), if_pos ⟨hlow, hhigh⟩]

/-- A byte within a sequence. -/
theorem decodeFrom_next {p : Pending} (hb : b < 0x100) (hrange : p.lower ≤ b ∧ b ≤ p.upper)
    (hneeded : p.needed ≠ 1) (rest : Bytes) :
    decodeFrom (some p) (UInt8.ofNat b :: rest) =
      decodeFrom (some { needed := p.needed - 1, point := p.point * 0x40 + b % 0x40 }) rest := by
  rw [decodeFrom, toNat_ofNat8 hb, nextByte, if_pos hrange]
  simp only [if_neg hneeded]
  rfl

/-- The byte that completes a sequence. -/
theorem decodeFrom_last {p : Pending} (hb : b < 0x100) (hrange : p.lower ≤ b ∧ b ≤ p.upper)
    (hneeded : p.needed = 1) (rest : Bytes) : decodeFrom (some p) (UInt8.ofNat b :: rest) =
      (p.point * 0x40 + b % 0x40) :: decodeFrom none rest := by
  rw [decodeFrom, toNat_ofNat8 hb, nextByte, if_pos hrange]
  simp only [if_pos hneeded]
  rfl

theorem decodeFrom_encodeScalar {c : Nat} (hc : Scalar c) (rest : Bytes) :
    decodeFrom none (encodeScalar c ++ rest) = c :: decodeFrom none rest := by
  unfold Scalar at hc
  unfold encodeScalar
  split
  · rw [List.singleton_append, decodeFrom, toNat_ofNat8 (by omega), nextByte, firstByte,
      if_pos (by omega)]
    rfl
  · split
    · have hfirst : firstByte (0xC0 + c / 0x40) =
          ([], some { needed := 1, point := (0xC0 + c / 0x40) % 0x20 }) := by
        rw [firstByte, if_neg (by omega), if_pos (by omega)]
      simp only [List.cons_append, List.nil_append]
      rw [decodeFrom_first (by omega) hfirst, decodeFrom_last (by omega) (by dsimp only; omega) rfl]
      congr 1
      dsimp only
      omega
    · split
      · have hfirst := firstByte_three (b := 0xE0 + c / 0x1000) (by omega) (by omega)
        simp only [List.cons_append, List.nil_append]
        rw [decodeFrom_first (by omega) hfirst,
          decodeFrom_next (by omega) (by dsimp only; split <;> split <;> omega) (by dsimp only; omega),
          decodeFrom_last (by omega) (by dsimp only; omega) rfl]
        congr 1
        dsimp only
        omega
      · have hfirst := firstByte_four (b := 0xF0 + c / 0x40000) (by omega) (by omega)
        simp only [List.cons_append, List.nil_append]
        rw [decodeFrom_first (by omega) hfirst,
          decodeFrom_next (by omega) (by dsimp only; split <;> split <;> omega) (by dsimp only; omega),
          decodeFrom_next (by omega) (by dsimp only; omega) (by dsimp only; omega),
          decodeFrom_last (by omega) (by dsimp only; omega) rfl]
        congr 1
        dsimp only
        omega

theorem decodeFrom_encode {cs : List Nat} (h : ∀ c ∈ cs, Scalar c) :
    decodeFrom none (cs.flatMap encodeScalar) = cs := by
  induction cs with
  | nil => rfl
  | cons c cs ih =>
    rw [List.forall_mem_cons] at h
    rw [List.flatMap_cons, decodeFrom_encodeScalar h.1, ih h.2]

/-- Of the scalar values only U+FEFF is encoded to what looks like a byte order mark. -/
theorem not_mark {c : Nat} (hc : Scalar c) (hmark : c ≠ 0xFEFF) (rest : Bytes) :
    ¬ [0xEF, 0xBB, 0xBF].isPrefixOf (encodeScalar c ++ rest) = true := by
  intro hinit
  obtain ⟨tail, htail⟩ := List.isPrefixOf_iff_prefix.1 hinit
  have hdecoded := decodeFrom_encodeScalar hc rest
  have hcomputed : decodeFrom none ([0xEF, 0xBB, 0xBF] ++ tail) = 0xFEFF :: decodeFrom none tail :=
    rfl
  rw [← htail, hcomputed] at hdecoded
  exact hmark (List.cons.inj hdecoded).1.symm

/-- What is encoded is decoded, where there is no mark in front. -/
theorem decode_encode {text : Text} (h : WellFormed text) (hmark : ∀ rest, text ≠ 0xFEFF :: rest) :
    decode (encode text) = text := by
  have hfirst : ¬ [0xEF, 0xBB, 0xBF].isPrefixOf (encode text) = true := by
    unfold encode
    cases hscalars : scalars text with
    | nil => decide
    | cons c cs =>
      refine not_mark (scalar_scalars text c (hscalars ▸ List.mem_cons_self)) ?_ _
      rintro rfl
      cases h with
      | nil => cases hscalars
      | @unit u rest hlead htrail _ =>
        rw [scalars_cons hlead, if_neg htrail] at hscalars
        refine hmark rest (congrArg (· :: rest) ?_)
        exact UInt16.toNat_inj.1 (List.cons.inj hscalars).1
      | @pair u v rest hlead htrail _ =>
        rw [scalars_pair hlead htrail] at hscalars
        have heq := (List.cons.inj hscalars).1
        unfold paired at heq
        omega
  unfold decode
  dsimp only
  rw [if_neg hfirst, encode, decodeFrom_encode (scalar_scalars text)]
  exact h.units

/-! ## Encoding into a buffer -/

theorem length_encodeScalar_le (c : Nat) :
    (encodeScalar c).length ≤ if c < 0x10000 then 3 else 4 := by
  unfold encodeScalar
  split
  · rw [if_pos (by omega)]
    simp
  · split
    · rw [if_pos (by omega)]
      simp
    · split <;> exact Nat.le_refl _

/-- A code unit needs three bytes at most. -/
theorem length_encode_le (text : Text) : (encode text).length ≤ 3 * text.length := by
  have hreplacement : (encodeScalar replacement).length = 3 := rfl
  unfold encode
  induction text using scalars.induct with
  | case1 => simp [scalars]
  | case2 u hlead v rest htrail ih =>
    have hpair := length_encodeScalar_le (paired u v)
    rw [if_neg (by unfold paired; omega)] at hpair
    rw [scalars_pair hlead htrail, List.flatMap_cons, List.length_append]
    simp only [List.length_cons]
    omega
  | case3 u hlead v rest htrail ih =>
    rw [scalars, if_pos hlead]
    simp only [if_neg htrail, List.flatMap_cons, List.length_append, hreplacement,
      List.length_cons] at ih ⊢
    omega
  | case4 u hlead =>
    rw [scalars, if_pos hlead]
    simp [hreplacement]
  | case5 u rest hlead htrail ih =>
    rw [scalars_cons hlead, if_pos htrail, List.flatMap_cons, List.length_append, hreplacement,
      List.length_cons]
    omega
  | case6 u rest hlead htrail ih =>
    have hunit := length_encodeScalar_le u.toNat
    rw [if_pos u.toNat_lt] at hunit
    rw [scalars_cons hlead, if_neg htrail, List.flatMap_cons, List.length_append, List.length_cons]
    omega

theorem encodeScalarsInto_eq {room : Nat} {cs : List Nat}
    (h : (cs.flatMap encodeScalar).length ≤ room) :
    encodeScalarsInto room cs = cs.flatMap encodeScalar := by
  induction cs generalizing room with
  | nil => rfl
  | cons c cs ih =>
    rw [List.flatMap_cons, List.length_append] at h
    rw [encodeScalarsInto, if_pos (by omega), ih (by omega), List.flatMap_cons]

/-- With three bytes for each unit everything is written. -/
theorem encodeInto_eq_encode {text : Text} {room : Nat} (h : 3 * text.length ≤ room) :
    encodeInto text room = encode text :=
  encodeScalarsInto_eq (Nat.le_trans (length_encode_le text) h)

end SigxActors.Js
