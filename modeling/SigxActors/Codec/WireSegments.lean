/-
  Codec/WireSegments.lean --- one segment of a wire path.

  A segment is written with three escapes undone that need not be there.  It is read
  back, it never has a separator in it, and it is dots only where it was dots before.
-/
import SigxActors.Codec.WirePath

set_option autoImplicit false

namespace SigxActors.Codec

open SigxActors.Js

/-! ## Escapes -/

/-- A unit that a segment is written with. -/
def isSegmentUnit (u : UInt16) : Bool :=
  isUnreserved u || u == 0x25 || u == 0x40 || u == 0x24 || u == 0x3A

theorem restore_literal {u : UInt16} (h : u ≠ 0x25) (rest : Text) :
    restore (u :: rest) = u :: restore rest := by
  rw [restore.eq_def]
  simp only [if_neg h]

/-- The three bytes that are restored. -/
def isRestored (n : Nat) : Bool := n == 0x40 || n == 0x24 || n == 0x3A

set_option maxRecDepth 4000 in
theorem restorable_upperHexDigit : ∀ n < 0x100,
    restorable (upperHexDigit (n / 0x10)) (upperHexDigit (n % 0x10)) =
      if isRestored n then some (UInt16.ofNat n) else none := by
  decide

theorem isSegmentUnit_upperHexDigit : ∀ n < 0x10, isSegmentUnit (upperHexDigit n) = true ∧
    upperHexDigit n ≠ 0x25 := by
  decide

theorem isSegmentUnit_percentByte (b : UInt8) : ∀ u ∈ percentByte b, isSegmentUnit u = true := by
  have hlt := b.toNat_lt
  simp only [percentByte, List.forall_mem_cons]
  exact ⟨rfl, (isSegmentUnit_upperHexDigit _ (by omega)).1,
    (isSegmentUnit_upperHexDigit _ (by omega)).1, by simp⟩

/-- A byte that is not one of the three stays as it was written. -/
theorem restore_percentByte {b : UInt8} (h : isRestored b.toNat = false) (rest : Text) :
    restore (percentByte b ++ rest) = percentByte b ++ restore rest := by
  have hlt := b.toNat_lt
  simp only [percentByte, List.cons_append, List.nil_append]
  rw [restore, if_pos rfl]
  simp only [restorable_upperHexDigit b.toNat hlt, h, Bool.false_eq_true, if_false]
  rw [restore_literal (isSegmentUnit_upperHexDigit _ (by omega)).2,
    restore_literal (isSegmentUnit_upperHexDigit _ (by omega)).2]

theorem restore_percentBytes {bytes : Bytes} (h : ∀ b ∈ bytes, isRestored b.toNat = false)
    (rest : Text) :
    restore (bytes.flatMap percentByte ++ rest) = bytes.flatMap percentByte ++ restore rest := by
  induction bytes with
  | nil => rfl
  | cons b bytes ih =>
    rw [List.forall_mem_cons] at h
    rw [List.flatMap_cons, List.append_assoc, restore_percentByte h.1, ih h.2, List.append_assoc]

/-- The bytes beyond ASCII are beyond the three. -/
theorem isRestored_encodeScalar {c : Nat} (hc : Scalar c) (h : ¬ c < 0x80) :
    ∀ b ∈ Js.encodeScalar c, isRestored b.toNat = false := by
  have hbyte : ∀ n, n < 0x100 → 0x80 ≤ n → isRestored (UInt8.ofNat n).toNat = false := by
    intro n hn hle
    rw [toNat_ofNat8 hn, ← Bool.not_eq_true, isRestored, Bool.or_eq_true, Bool.or_eq_true,
      beq_iff_eq, beq_iff_eq, beq_iff_eq]
    omega
  unfold Scalar at hc
  rw [Js.encodeScalar, if_neg h]
  split
  · simp only [List.forall_mem_cons]
    exact ⟨hbyte _ (by omega) (by omega), hbyte _ (by omega) (by omega), by simp⟩
  split
  · simp only [List.forall_mem_cons]
    exact ⟨hbyte _ (by omega) (by omega), hbyte _ (by omega) (by omega),
      hbyte _ (by omega) (by omega), by simp⟩
  · simp only [List.forall_mem_cons]
    exact ⟨hbyte _ (by omega) (by omega), hbyte _ (by omega) (by omega),
      hbyte _ (by omega) (by omega), hbyte _ (by omega) (by omega), by simp⟩

/-! ## Units -/

/-- A part of a segment, and the units that it is read back as. -/
structure SegmentPart (part units : Text) : Prop where
  decodes : ∀ rest, decodeURIComponent (part ++ rest) = (decodeURIComponent rest).map (units ++ ·)
  units : ∀ u ∈ part, isSegmentUnit u = true

theorem SegmentPart.nil : SegmentPart [] [] :=
  ⟨fun _ => Option.map_id'.symm, nofun⟩

theorem SegmentPart.append {a b units units' : Text} (ha : SegmentPart a units)
    (hb : SegmentPart b units') : SegmentPart (a ++ b) (units ++ units') := by
  refine ⟨fun rest => ?_, fun u hu => (List.mem_append.1 hu).elim (ha.units u) (hb.units u)⟩
  rw [List.append_assoc, ha.decodes, hb.decodes, Option.map_map]
  refine Option.map_congr fun t _ => ?_
  exact (List.append_assoc units units' t).symm

theorem SegmentPart.literal {u : UInt16} (hu : isSegmentUnit u = true) (hpercent : u ≠ 0x25) :
    SegmentPart [u] [u] := by
  refine ⟨decodeURIComponent_literal hpercent, fun v hv => ?_⟩
  obtain rfl := List.mem_singleton.1 hv
  exact hu

/-- What is written of a scalar value, before its escapes are undone. -/
theorem segmentPart_percentScalar {c : Nat} (hc : Scalar c) :
    SegmentPart (percentScalar c) (unitsOf c) := by
  refine ⟨decodeURIComponent_percentScalar hc, fun u hu => ?_⟩
  obtain ⟨b, -, hb⟩ := List.mem_flatMap.1 hu
  exact isSegmentUnit_percentByte b u hb

/-- What is left of the escapes of a scalar value. -/
theorem restore_percentScalar {c : Nat} (hc : Scalar c) :
    ∃ part, (∀ rest, restore (percentScalar c ++ rest) = part ++ restore rest) ∧
      SegmentPart part (unitsOf c) := by
  have hescaped := segmentPart_percentScalar hc
  by_cases hlarge : c < 0x80
  · have hbytes : Js.encodeScalar c = [UInt8.ofNat c] := if_pos hlarge
    have hnat : (UInt8.ofNat c).toNat = c := toNat_ofNat8 (by omega)
    cases hrestored : isRestored c with
    | false =>
      refine ⟨_, restore_percentBytes ?_, hescaped⟩
      rw [hbytes, List.forall_mem_cons, hnat]
      exact ⟨hrestored, nofun⟩
    | true =>
      have hunits : unitsOf c = [UInt16.ofNat c] := if_pos (by omega)
      refine ⟨[UInt16.ofNat c], fun rest => ?_, ?_⟩
      · rw [percentScalar, hbytes, List.flatMap_cons, List.flatMap_nil, List.append_nil]
        simp only [percentByte, List.cons_append, List.nil_append]
        rw [restore, if_pos rfl]
        simp only [hnat, restorable_upperHexDigit c (by omega), hrestored, if_true]
      · have hlettered : ∀ n < 0x80, isRestored n = true →
            isSegmentUnit (UInt16.ofNat n) = true ∧ UInt16.ofNat n ≠ 0x25 := by
          decide
        rw [hunits]
        exact .literal (hlettered c hlarge hrestored).1 (hlettered c hlarge hrestored).2
  · exact ⟨_, restore_percentBytes (isRestored_encodeScalar hc hlarge), hescaped⟩

/-- A unit that is no surrogate. -/
theorem restore_percentUnit {u : UInt16} (hlead : ¬ isLead u) (htrail : ¬ isTrail u) :
    SegmentPart (percentUnit u) [u] ∧
      ∃ part, (∀ rest, restore (percentUnit u ++ rest) = part ++ restore rest) ∧
        SegmentPart part [u] := by
  have hunits : unitsOf u.toNat = [u] := by
    have hlt := u.toNat_lt
    rw [unitsOf, if_pos (by omega), UInt16.ofNat_toNat]
  have hscalar := scalar_toNat hlead htrail
  unfold percentUnit
  split
  case isTrue hu =>
    have hpercent := ne_percent_of_isUnreserved hu
    have hpart : SegmentPart [u] [u] := .literal (by rw [isSegmentUnit, hu]; rfl) hpercent
    exact ⟨hpart, [u], restore_literal hpercent, hpart⟩
  case isFalse => exact ⟨hunits ▸ segmentPart_percentScalar hscalar, hunits ▸ restore_percentScalar hscalar⟩

/-! ## Segments -/

variable {s t : Text}

/-- A text is written so that it is read back, and so it is with its escapes undone. -/
theorem encodeURIComponent_of_wellFormed (h : WellFormed s) :
    ∃ t, encodeURIComponent s = some t ∧ SegmentPart t s ∧ SegmentPart (restore t) s := by
  induction h with
  | nil => exact ⟨[], rfl, .nil, .nil⟩
  | @unit u rest hlead htrail _ ih =>
    obtain ⟨t, ht, hescaped, hpart⟩ := ih
    obtain ⟨hunit, part, hrestore, hrestored⟩ := restore_percentUnit hlead htrail
    refine ⟨percentUnit u ++ t, ?_, hunit.append hescaped, ?_⟩
    · rw [encodeURIComponent_unit hlead htrail, ht]
      rfl
    · rw [hrestore]
      exact hrestored.append hpart
  | @pair u v rest hlead htrail _ ih =>
    obtain ⟨t, ht, hescaped, hpart⟩ := ih
    have hscalar := scalar_paired hlead htrail
    obtain ⟨part, hrestore, hrestored⟩ := restore_percentScalar hscalar
    have hpair : unitsOf (paired u v) = [u, v] := by
      have hone := (WellFormed.pair hlead htrail .nil).units
      rw [scalars_pair hlead htrail] at hone
      simpa [scalars] using hone
    refine ⟨percentScalar (paired u v) ++ t, ?_, ?_, ?_⟩
    · rw [encodeURIComponent_pair hlead htrail, ht]
      rfl
    · exact (hpair ▸ segmentPart_percentScalar hscalar).append hescaped
    · rw [hrestore]
      exact (hpair ▸ hrestored).append hpart

theorem segmentPart_of_encodeURIComponent (h : encodeURIComponent s = some t) :
    SegmentPart t s ∧ SegmentPart (restore t) s := by
  obtain ⟨t', ht', hparts⟩ := encodeURIComponent_of_wellFormed (wellFormed_of_encodeURIComponent h)
  cases h.symm.trans ht'
  exact hparts

theorem encodeSegment_of_wellFormed (h : WellFormed s) : ∃ t, encodeSegment s = some t := by
  obtain ⟨t, ht, -⟩ := encodeURIComponent_of_wellFormed h
  exact ⟨restore t, by rw [encodeSegment, ht]; rfl⟩

theorem wellFormed_of_encodeSegment (h : encodeSegment s = some t) : WellFormed s := by
  obtain ⟨t', ht', -⟩ := Option.map_eq_some_iff.1 h
  exact wellFormed_of_encodeURIComponent ht'

theorem segmentPart_of_encodeSegment (h : encodeSegment s = some t) : SegmentPart t s := by
  obtain ⟨t', ht', rfl⟩ := Option.map_eq_some_iff.1 h
  exact (segmentPart_of_encodeURIComponent ht').2

theorem SegmentPart.decode (h : SegmentPart t s) : decodeURIComponent t = some s := by
  have hall := h.decodes []
  rw [List.append_nil] at hall
  rw [hall]
  exact congrArg some (List.append_nil s)

theorem SegmentPart.slash_notMem (h : SegmentPart t s) : slash ∉ t := by
  intro hin
  exact absurd (h.units _ hin) (by decide)

/-- It is dots only where it was dots before. -/
theorem SegmentPart.plain (h : SegmentPart t s) (hone : s ≠ [0x2E]) (htwo : s ≠ [0x2E, 0x2E]) :
    Plain t := by
  have hdouble : ∀ t ∈ doubleDots, decodeURIComponent t = some [0x2E, 0x2E] := by decide
  have hsingle : ∀ t ∈ singleDots, decodeURIComponent t = some [0x2E] := by decide
  refine ⟨fun hin => htwo ?_, fun hin => hone ?_⟩
  · exact Option.some.inj (h.decode.symm.trans (hdouble t hin))
  · exact Option.some.inj (h.decode.symm.trans (hsingle t hin))

/-- Of different segments the written ones are different. -/
theorem encodeSegment_inj {s' : Text} (h : encodeSegment s = some t)
    (h' : encodeSegment s' = some t) : s = s' :=
  Option.some.inj ((segmentPart_of_encodeSegment h).decode.symm.trans
    (segmentPart_of_encodeSegment h').decode)

end SigxActors.Codec
