/-
  Codec/Fields.lean --- fields that are escaped and joined by a separator.

  A field is escaped so that it is free of the separator: the mark is doubled, and the
  separator becomes the mark and a letter.  Fields that are joined are then cut again at
  the separators, from the front one by one or at the last of all.

  The module depends on nothing but core, for lists over any alphabet.
-/

set_option autoImplicit false

namespace SigxActors.Codec

universe u

variable {α : Type u} [DecidableEq α]

/-! ## Escaping -/

/-- Every occurrence of a letter, replaced. -/
def replaceAll (letter : α) (by_ : List α) (field : List α) : List α :=
  field.flatMap fun c => if c = letter then by_ else [c]

/-- The mark doubled, and then the separator replaced. -/
def escape (mark sep letter : α) (field : List α) : List α :=
  replaceAll sep [mark, letter] (replaceAll mark [mark, mark] field)

/-- From left to right, a mark and what it marks are one letter; any other mark stays. -/
def unescape (mark sep letter : α) : List α → List α
  | a :: b :: rest =>
      if a = mark ∧ b = mark then mark :: unescape mark sep letter rest
      else if a = mark ∧ b = letter then sep :: unescape mark sep letter rest
      else a :: unescape mark sep letter (b :: rest)
  | field => field

section

variable {mark sep letter : α}

theorem escape_cons (hms : mark ≠ sep) (c : α) (field : List α) :
    escape mark sep letter (c :: field) =
      (if c = mark then [mark, mark] else if c = sep then [mark, letter] else [c]) ++
        escape mark sep letter field := by
  unfold escape replaceAll
  by_cases hm : c = mark
  · simp [hm, hms]
  · by_cases hs : c = sep
    · simp [hs, hms.symm]
    · simp [hm, hs]

theorem unescape_cons {c : α} (hc : c ≠ mark) (field : List α) :
    unescape mark sep letter (c :: field) = c :: unescape mark sep letter field := by
  cases field with
  | nil => rfl
  | cons b rest =>
    rw [unescape, if_neg (fun h => hc h.1), if_neg (fun h => hc h.1)]

/-- What was escaped is read back. -/
theorem unescape_escape (hms : mark ≠ sep) (hml : mark ≠ letter) (field : List α) :
    unescape mark sep letter (escape mark sep letter field) = field := by
  induction field with
  | nil => rfl
  | cons c field ih =>
    rw [escape_cons hms]
    by_cases hm : c = mark
    · rw [if_pos hm, List.cons_append, List.cons_append, unescape, if_pos ⟨rfl, rfl⟩, hm]
      exact congrArg _ ih
    · by_cases hs : c = sep
      · rw [if_neg hm, if_pos hs, List.cons_append, List.cons_append, unescape,
          if_neg (fun h => hml h.2.symm), if_pos ⟨rfl, rfl⟩, hs]
        exact congrArg _ ih
      · rw [if_neg hm, if_neg hs, List.cons_append, List.nil_append, unescape_cons hm, ih]

/-- A field that is escaped is free of the separator. -/
theorem sep_not_mem_escape (hms : mark ≠ sep) (hls : letter ≠ sep) (field : List α) :
    sep ∉ escape mark sep letter field := by
  induction field with
  | nil => simp [escape, replaceAll]
  | cons c field ih =>
    rw [escape_cons hms, List.mem_append, not_or]
    refine ⟨?_, ih⟩
    by_cases hm : c = mark
    · simp [hm, hms.symm]
    · by_cases hs : c = sep
      · simp [hs, hms.symm, hls.symm]
      · simp [hm, hs, Ne.symm hs]

end

/-! ## Cutting -/

omit [DecidableEq α] in
/-- A list is cut at its last separator in one way. -/
theorem append_cons_inj {x : α} {a b p q : List α} (hp : x ∉ p) (hq : x ∉ q)
    (h : a ++ x :: p = b ++ x :: q) : a = b ∧ p = q := by
  rcases List.append_eq_append_iff.1 h with ⟨c, hb, hc⟩ | ⟨c, ha, hc⟩
  · cases c with
    | nil =>
      rw [List.nil_append, List.cons.injEq] at hc
      exact ⟨by rw [hb, List.append_nil], hc.2⟩
    | cons y c =>
      rw [List.cons_append, List.cons.injEq] at hc
      exact absurd (by rw [hc.2]; simp) hp
  · cases c with
    | nil =>
      rw [List.nil_append, List.cons.injEq] at hc
      exact ⟨by rw [ha, List.append_nil], hc.2.symm⟩
    | cons y c =>
      rw [List.cons_append, List.cons.injEq] at hc
      exact absurd (by rw [hc.2]; simp) hq

/-- What is before the last separator and what is behind it. -/
def cutLast (sep : α) : List α → Option (List α × List α)
  | [] => none
  | c :: rest =>
      match cutLast sep rest with
      | some (before, behind) => some (c :: before, behind)
      | none => if c = sep then some ([], rest) else none

theorem cutLast_eq_none {sep : α} {l : List α} (h : sep ∉ l) : cutLast sep l = none := by
  induction l with
  | nil => rfl
  | cons c rest ih =>
    rw [List.mem_cons, not_or] at h
    rw [cutLast, ih h.2]
    exact if_neg (Ne.symm h.1)

theorem cutLast_append_cons {sep : α} (before : List α) {behind : List α} (h : sep ∉ behind) :
    cutLast sep (before ++ sep :: behind) = some (before, behind) := by
  induction before with
  | nil =>
    rw [List.nil_append, cutLast, cutLast_eq_none h]
    exact if_pos rfl
  | cons c before ih => rw [List.cons_append, cutLast, ih]

end SigxActors.Codec
