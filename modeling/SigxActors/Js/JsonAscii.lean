/-
  Js/JsonAscii.lean --- JSON whose every unit is printable.

  A printed value is escaped once more: each unit beyond ASCII becomes its number.  Such
  a unit can only stand in a string, where the number stands for it, so what is parsed
  does not change.

  The module names nothing of the runtime.
-/
import SigxActors.Js.JsonRoundTrip

set_option autoImplicit false

namespace SigxActors.Js

/-- A unit, or its number where it is beyond `~`. -/
def asciiUnit (u : UInt16) : Text := if 0x7F ≤ u.toNat then unicodeEscape u else [u]

/-- `text.replace(/[\u007f-\uffff]/g, …)`. -/
def asciiText (text : Text) : Text := text.flatMap asciiUnit

/-- It is of the printable ASCII units. -/
def Printable (u : UInt16) : Prop := 0x20 ≤ u.toNat ∧ u.toNat ≤ 0x7E

instance (u : UInt16) : Decidable (Printable u) := inferInstanceAs (Decidable (_ ∧ _))

/-! ## Units -/

theorem asciiText_cons (u : UInt16) (text : Text) :
    asciiText (u :: text) = asciiUnit u ++ asciiText text := rfl

variable {u : UInt16}

theorem asciiText_ascii (h : u.toNat < 0x7F) (text : Text) :
    asciiText (u :: text) = u :: asciiText text := by
  rw [asciiText_cons, asciiUnit, if_neg (by omega)]
  rfl

theorem asciiText_beyond (h : ¬ u.toNat < 0x7F) (text : Text) :
    asciiText (u :: text) = unicodeEscape u ++ asciiText text := by
  rw [asciiText_cons, asciiUnit, if_pos (by omega)]

theorem length_le_asciiText (text : Text) : text.length ≤ (asciiText text).length := by
  induction text with
  | nil => exact Nat.le_refl _
  | cons u text ih =>
    rw [asciiText_cons, List.length_append, List.length_cons]
    have hpos : 1 ≤ (asciiUnit u).length := by
      unfold asciiUnit
      split
      · exact Nat.le_of_ble_eq_true rfl
      · exact Nat.le_refl _
    omega

/-- What is read of units that are all ASCII ends at the same one. -/
theorem span_asciiText {p : UInt16 → Bool} (hp : ∀ u, p u = true → u.toNat < 0x7F)
    (hslash : p 0x5C = false) (text : Text) : (asciiText text).takeWhile p = text.takeWhile p ∧
      (asciiText text).dropWhile p = asciiText (text.dropWhile p) := by
  induction text with
  | nil => exact ⟨rfl, rfl⟩
  | cons u text ih =>
    by_cases hu : u.toNat < 0x7F
    · rw [asciiText_ascii hu, List.takeWhile_cons, List.takeWhile_cons, List.dropWhile_cons,
        List.dropWhile_cons]
      split
      · exact ⟨congrArg (u :: ·) ih.1, ih.2⟩
      · exact ⟨rfl, (asciiText_ascii hu text).symm⟩
    · have hnot : p u = false := by
        rw [← Bool.not_eq_true]
        exact fun h => hu (hp u h)
      have hall : ∃ tail, asciiText (u :: text) = 0x5C :: tail := ⟨_, asciiText_beyond hu text⟩
      obtain ⟨tail, htail⟩ := hall
      rw [List.takeWhile_cons, List.dropWhile_cons, hnot, htail, List.takeWhile_cons,
        List.dropWhile_cons, hslash]
      exact ⟨rfl, htail.symm⟩

theorem isSpace_ascii (h : isSpace u = true) : u.toNat < 0x7F := by
  simp only [isSpace, Bool.or_eq_true, beq_iff_eq] at h
  rcases h with ((rfl | rfl) | rfl) | rfl <;> decide

theorem isDigit_ascii (h : isDigit u = true) : u.toNat < 0x7F := by
  simp only [isDigit, Bool.and_eq_true, decide_eq_true_eq] at h
  omega

theorem isNumberUnit_ascii (h : isNumberUnit u = true) : u.toNat < 0x7F := by
  simp only [isNumberUnit, Bool.or_eq_true, beq_iff_eq] at h
  rcases h with ((((h | rfl) | rfl) | rfl) | rfl) | rfl
  · exact isDigit_ascii h
  all_goals decide

theorem hexValue_ascii {n : Nat} (h : hexValue u = some n) : u.toNat < 0x7F := by
  unfold hexValue at h
  split at h
  · omega
  split at h
  · omega
  split at h
  · omega
  · cases h

theorem simpleEscape_ascii {e : UInt16} (h : simpleEscape e = some u) : e.toNat < 0x7F := by
  by_cases hself : e = 0x22 ∨ e = 0x5C ∨ e = 0x2F
  · rcases hself with rfl | rfl | rfl <;> decide
  unfold simpleEscape at h
  rw [if_neg hself] at h
  split at h
  case isTrue he => subst he; decide
  split at h
  case isTrue he => subst he; decide
  split at h
  case isTrue he => subst he; decide
  split at h
  case isTrue he => subst he; decide
  split at h
  case isTrue he => subst he; decide
  cases h

theorem skipSpace_asciiText (text : Text) :
    skipSpace (asciiText text) = asciiText (skipSpace text) :=
  (span_asciiText (fun _ => isSpace_ascii) rfl text).2

/-! ## Strings -/

/-- A string that is read is read where its text was escaped, and the rest is what is left. -/
theorem scanString_asciiText {text s rest : Text} (h : scanString text = some (s, rest)) :
    scanString (asciiText text) = some (s, asciiText rest) := by
  fun_induction scanString text generalizing s rest with
  | case1 | case4 | case6 | case7 => cases h
  | case2 text =>
    obtain ⟨rfl, rfl⟩ := Prod.mk.inj (Option.some.inj h)
    rw [asciiText_ascii (by decide), scanString_close]
  | case3 a b c d text _ ih =>
    obtain ⟨u, hu, hscan⟩ := Option.bind_eq_some_iff.1 h
    obtain ⟨s', hrest, rfl⟩ := eq_of_map_prepend hscan
    have hhex := hu
    obtain ⟨na, ha, hu⟩ := Option.bind_eq_some_iff.1 hu
    obtain ⟨nb, hb, hu⟩ := Option.bind_eq_some_iff.1 hu
    obtain ⟨nc, hc, hu⟩ := Option.bind_eq_some_iff.1 hu
    obtain ⟨nd, hd, -⟩ := Option.map_eq_some_iff.1 hu
    rw [asciiText_ascii (by decide), asciiText_ascii (by decide),
      asciiText_ascii (hexValue_ascii ha), asciiText_ascii (hexValue_ascii hb),
      asciiText_ascii (hexValue_ascii hc), asciiText_ascii (hexValue_ascii hd),
      scanString.eq_def (0x5C :: _)]
    have hslash : (0x5C : UInt16) ≠ 0x22 := by decide
    simp only [if_neg hslash, if_true, hhex, Option.bind_some, ih hrest, Option.map_some]
    rfl
  | case5 e text he _ ih =>
    obtain ⟨u, hu, hscan⟩ := Option.bind_eq_some_iff.1 h
    obtain ⟨s', hrest, rfl⟩ := eq_of_map_prepend hscan
    rw [asciiText_ascii (by decide), asciiText_ascii (simpleEscape_ascii hu),
      scanString_simple he hu, ih hrest]
    rfl
  | case8 u text hquote hslash hcontrol ih =>
    obtain ⟨s', hrest, rfl⟩ := eq_of_map_prepend h
    by_cases hu : u.toNat < 0x7F
    · rw [asciiText_ascii hu, scanString_literal hquote hslash hcontrol, ih hrest]
      rfl
    · rw [asciiText_beyond hu, scanString_unicode, ih hrest]
      rfl

/-! ## Names -/

theorem expect_cons (e u : UInt16) (expected text : Text) :
    expect (e :: expected) (u :: text) = if e = u then expect expected text else none := by
  unfold expect
  rw [List.isPrefixOf]
  by_cases heq : e = u
  · rw [if_pos heq, beq_iff_eq.2 heq, Bool.true_and]
    rfl
  · rw [if_neg heq, beq_eq_false_iff_ne.2 heq, Bool.false_and, if_neg Bool.false_ne_true]

/-- A name is there where the text was escaped if it was there before. -/
theorem expect_asciiText {expected : Text} (h : ∀ u ∈ expected, u.toNat < 0x7F ∧ u ≠ 0x5C)
    (text : Text) : expect expected (asciiText text) = (expect expected text).map asciiText := by
  induction expected generalizing text with
  | nil => rfl
  | cons e expected ih =>
    rw [List.forall_mem_cons] at h
    cases text with
    | nil => rfl
    | cons u text =>
      rw [expect_cons]
      by_cases hu : u.toNat < 0x7F
      · rw [asciiText_ascii hu, expect_cons, ih h.2]
        split <;> rfl
      · have hne : e ≠ u := by
          rintro rfl
          exact hu h.1.1
        rw [if_neg hne, asciiText_beyond hu]
        exact (expect_cons ..).trans (if_neg h.1.2)

/-- The names are of letters. -/
theorem names_ascii : ∀ name ∈ [nullText, trueText, falseText],
    ∀ u ∈ name, u.toNat < 0x7F ∧ u ≠ 0x5C := by
  intro name hname u hu
  have hall : ([nullText, trueText, falseText].all fun name =>
      name.all fun u => u.toNat < 0x7F ∧ u ≠ 0x5C) = true := by
    decide
  exact of_decide_eq_true (List.all_eq_true.1 (List.all_eq_true.1 hall name hname) u hu)

/-! ## Values -/

section

variable {N : Type} [JsNumber N]

/-- Values are read alike where the text was escaped. -/
def ParsesAscii (N : Type) [JsNumber N] (fuel : Nat) : Prop :=
  ∀ (text : Text) (v : Json N) (rest : Text), parseValue fuel text = some (v, rest) →
    parseValue fuel (asciiText text) = some (v, asciiText rest)

def ParsesAsciiElements (N : Type) [JsNumber N] (fuel : Nat) : Prop :=
  ∀ (text : Text) (vs : List (Json N)) (rest : Text), parseElements fuel text = some (vs, rest) →
    parseElements fuel (asciiText text) = some (vs, asciiText rest)

def ParsesAsciiMembers (N : Type) [JsNumber N] (fuel : Nat) : Prop :=
  ∀ (text : Text) (ms : List (Text × Json N)) (rest : Text),
    parseMembers fuel text = some (ms, rest) →
      parseMembers fuel (asciiText text) = some (ms, asciiText rest)

variable {text : Text} {u : UInt16}

/-- What comes behind the space, where it is a unit of the grammar. -/
theorem skipSpace_asciiText_cons {tail : Text} (h : skipSpace text = u :: tail)
    (hu : u.toNat < 0x7F) : skipSpace (asciiText text) = u :: asciiText tail := by
  rw [skipSpace_asciiText, h, asciiText_ascii hu]

theorem parsesAscii_elements {fuel : Nat} (hvalues : ParsesAscii N fuel)
    (helements : ParsesAsciiElements N fuel) : ParsesAsciiElements N (fuel + 1) := by
  intro text vs rest h
  rw [parseElements] at h ⊢
  obtain ⟨⟨v, behind⟩, hvalue, h⟩ := Option.bind_eq_some_iff.1 h
  rw [hvalues _ _ _ hvalue, Option.bind_some]
  split at h
  case h_1 => cases h
  case h_2 u tail htail =>
    split at h
    case isTrue hclose =>
      subst hclose
      obtain ⟨rfl, rfl⟩ := Prod.mk.inj (Option.some.inj h)
      rw [skipSpace_asciiText_cons htail (by decide)]
      rfl
    case isFalse hclose =>
      split at h
      case isFalse => cases h
      case isTrue hcomma =>
        subst hcomma
        obtain ⟨⟨vs', left⟩, hrest, hpair⟩ := Option.map_eq_some_iff.1 h
        obtain ⟨rfl, rfl⟩ := Prod.mk.inj hpair
        rw [skipSpace_asciiText_cons htail (by decide)]
        simp only [if_neg hclose, if_true, helements _ _ _ hrest, Option.map_some]

theorem parsesAscii_members {fuel : Nat} (hvalues : ParsesAscii N fuel)
    (hmembers : ParsesAsciiMembers N fuel) : ParsesAsciiMembers N (fuel + 1) := by
  intro text ms rest h
  rw [parseMembers] at h ⊢
  split at h
  case h_1 => cases h
  case h_2 u tail htail =>
    split at h
    case isFalse => cases h
    case isTrue hquote =>
      subst hquote
      obtain ⟨⟨key, behind⟩, hkey, h⟩ := Option.bind_eq_some_iff.1 h
      rw [skipSpace_asciiText_cons htail (by decide)]
      simp only [if_true, scanString_asciiText hkey, Option.bind_some]
      split at h
      case h_1 => cases h
      case h_2 u colon hcolon =>
        split at h
        case isFalse => cases h
        case isTrue heq =>
          subst heq
          obtain ⟨⟨v, behind⟩, hvalue, h⟩ := Option.bind_eq_some_iff.1 h
          rw [skipSpace_asciiText_cons hcolon (by decide)]
          simp only [if_true, hvalues _ _ _ hvalue, Option.bind_some]
          split at h
          case h_1 => cases h
          case h_2 u comma hcomma =>
            split at h
            case isTrue hclose =>
              subst hclose
              obtain ⟨rfl, rfl⟩ := Prod.mk.inj (Option.some.inj h)
              rw [skipSpace_asciiText_cons hcomma (by decide)]
              rfl
            case isFalse hclose =>
              split at h
              case isFalse => cases h
              case isTrue heq =>
                subst heq
                obtain ⟨⟨ms', left⟩, hrest, hpair⟩ := Option.map_eq_some_iff.1 h
                obtain ⟨rfl, rfl⟩ := Prod.mk.inj hpair
                rw [skipSpace_asciiText_cons hcomma (by decide)]
                simp only [if_neg hclose, if_true, hmembers _ _ _ hrest, Option.map_some]

/-- What comes behind the space is the unit that was there, or a backslash. -/
theorem head_skipSpace_asciiText {tail : Text} (h : skipSpace text = u :: tail) :
    ∃ w rest, skipSpace (asciiText text) = w :: rest ∧ (w = u ∨ w = 0x5C) := by
  rw [skipSpace_asciiText, h]
  by_cases hu : u.toNat < 0x7F
  · exact ⟨u, asciiText tail, asciiText_ascii hu tail, .inl rfl⟩
  · exact ⟨0x5C, _, asciiText_beyond hu tail, .inr rfl⟩

theorem parsesAscii_values {fuel : Nat} (helements : ParsesAsciiElements N fuel)
    (hmembers : ParsesAsciiMembers N fuel) : ParsesAscii N (fuel + 1) := by
  intro text v rest h
  rw [parseValue] at h ⊢
  split at h
  case h_1 => cases h
  case h_2 u tail htail =>
  by_cases hquote : u = 0x22
  · subst hquote
    obtain ⟨⟨s, behind⟩, hscan, hpair⟩ := Option.map_eq_some_iff.1 h
    obtain ⟨rfl, rfl⟩ := Prod.mk.inj hpair
    rw [skipSpace_asciiText_cons htail (by decide)]
    simp only [if_true, scanString_asciiText hscan, Option.map_some]
  rw [if_neg hquote] at h
  by_cases hbracket : u = 0x5B
  · subst hbracket
    rw [if_pos rfl] at h
    rw [skipSpace_asciiText_cons htail (by decide)]
    simp only [if_neg hquote, if_true]
    split at h
    case h_1 => cases h
    case h_2 w behind hbehind =>
      split at h
      case isTrue hclose =>
        subst hclose
        obtain ⟨rfl, rfl⟩ := Prod.mk.inj (Option.some.inj h)
        rw [skipSpace_asciiText_cons hbehind (by decide)]
        rfl
      case isFalse hclose =>
        obtain ⟨⟨vs, left⟩, hrest, hpair⟩ := Option.map_eq_some_iff.1 h
        obtain ⟨rfl, rfl⟩ := Prod.mk.inj hpair
        obtain ⟨w', rest', hhead, hw⟩ := head_skipSpace_asciiText hbehind
        have hopen : w' ≠ 0x5D := by
          rcases hw with rfl | rfl
          · exact hclose
          · decide
        rw [hhead]
        simp only [if_neg hopen, helements _ _ _ hrest, Option.map_some]
  rw [if_neg hbracket] at h
  by_cases hbrace : u = 0x7B
  · subst hbrace
    rw [if_pos rfl] at h
    rw [skipSpace_asciiText_cons htail (by decide)]
    simp only [if_neg hquote, if_neg hbracket, if_true]
    split at h
    case h_1 => cases h
    case h_2 w behind hbehind =>
      split at h
      case isTrue hclose =>
        subst hclose
        obtain ⟨rfl, rfl⟩ := Prod.mk.inj (Option.some.inj h)
        rw [skipSpace_asciiText_cons hbehind (by decide)]
        rfl
      case isFalse hclose =>
        obtain ⟨⟨ms, left⟩, hrest, hpair⟩ := Option.map_eq_some_iff.1 h
        obtain ⟨rfl, rfl⟩ := Prod.mk.inj hpair
        obtain ⟨w', rest', hhead, hw⟩ := head_skipSpace_asciiText hbehind
        have hopen : w' ≠ 0x7D := by
          rcases hw with rfl | rfl
          · exact hclose
          · decide
        rw [hhead]
        simp only [if_neg hopen, hmembers _ _ _ hrest, Option.map_some]
  rw [if_neg hbrace] at h
  by_cases hnumber : u = 0x2D ∨ isDigit u = true
  · have hu : u.toNat < 0x7F := by
      rcases hnumber with rfl | hdigit
      · decide
      · exact isDigit_ascii hdigit
    rw [if_pos hnumber] at h
    rw [skipSpace_asciiText_cons htail hu]
    obtain ⟨htake, hdrop⟩ := span_asciiText (fun _ => isNumberUnit_ascii) rfl (u :: tail)
    rw [asciiText_ascii hu] at htake hdrop
    simp only [if_neg hquote, if_neg hbracket, if_neg hbrace, if_pos hnumber, htake, hdrop]
    split at h
    case isFalse => cases h
    case isTrue htoken =>
      obtain ⟨rfl, rfl⟩ := Prod.mk.inj (Option.some.inj h)
      rw [if_pos htoken]
  rw [if_neg hnumber] at h
  -- one of the three names
  have hname : ∀ name ∈ [nullText, trueText, falseText], ∀ (w : Json N),
      (expect name (u :: tail)).map (fun t => (w, t)) = some (v, rest) → u.toNat < 0x7F := by
    intro name hname w hmap
    obtain ⟨left, hexpect, -⟩ := Option.map_eq_some_iff.1 hmap
    cases name with
    | nil => exact absurd hname (by decide)
    | cons e name =>
      rw [expect_cons] at hexpect
      split at hexpect
      case isTrue heq => exact heq ▸ (names_ascii _ hname e (.head _)).1
      case isFalse => cases hexpect
  have hu : u.toNat < 0x7F := by
    rcases Option.or_eq_some_iff.1 h with hnull | ⟨-, h⟩
    · exact hname nullText (by simp) .null hnull
    rcases Option.or_eq_some_iff.1 h with htrue | ⟨-, hfalse⟩
    · exact hname trueText (by simp) (.bool true) htrue
    · exact hname falseText (by simp) (.bool false) hfalse
  rw [skipSpace_asciiText_cons htail hu]
  simp only [if_neg hquote, if_neg hbracket, if_neg hbrace, if_neg hnumber]
  rw [← asciiText_ascii hu, expect_asciiText (names_ascii nullText (by simp)),
    expect_asciiText (names_ascii trueText (by simp)),
    expect_asciiText (names_ascii falseText (by simp))]
  have hmap : ∀ (w : Json N) (behind : Option Text),
      (behind.map asciiText).map (fun t => (w, t)) =
        (behind.map fun t => (w, t)).map fun p => (p.1, asciiText p.2) := by
    intro w behind
    rw [Option.map_map, Option.map_map]
    rfl
  rw [hmap, hmap, hmap, ← Option.map_or, ← Option.map_or, h]
  rfl

/-! ## Printable texts -/

theorem printable_asciiText (h : Uncontrolled text) : ∀ u ∈ asciiText text, Printable u := by
  intro u hu
  obtain ⟨w, hw, hin⟩ := List.mem_flatMap.1 hu
  unfold asciiUnit at hin
  split at hin
  case isTrue => exact unicodeEscape_plain w u hin
  case isFalse hle =>
    obtain rfl := List.mem_singleton.1 hin
    exact ⟨h u hw, by omega⟩

/-- Every unit of what was printed and escaped is printable. -/
theorem printable_stringify (v : Json N) : ∀ u ∈ asciiText (stringify v), Printable u :=
  printable_asciiText (printed_stringify v).2

theorem parsesAscii (fuel : Nat) :
    ParsesAscii N fuel ∧ ParsesAsciiElements N fuel ∧ ParsesAsciiMembers N fuel := by
  induction fuel with
  | zero =>
    refine ⟨fun _ _ _ h => ?_, fun _ _ _ h => ?_, fun _ _ _ h => ?_⟩ <;> cases h
  | succ fuel ih =>
    exact ⟨parsesAscii_values ih.2.1 ih.2.2, parsesAscii_elements ih.1 ih.2.1,
      parsesAscii_members ih.1 ih.2.2⟩

/-- What was printed and escaped is parsed. -/
theorem parseJson_asciiText {v : Json N} (h : Carried v) :
    parseJson (asciiText (stringify v)) = some v := by
  have hle := length_le_asciiText (stringify v)
  have hv : parseValue (2 * (asciiText (stringify v)).length + 2) (stringify v ++ []) = some (v, []) :=
    parseValue_stringify v h (by omega) .nil
  rw [List.append_nil] at hv
  rw [parseJson, (parsesAscii _).1 _ _ _ hv]
  rfl

end

end SigxActors.Js
