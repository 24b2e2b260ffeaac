/-
  Js/Number.lean --- arithmetic of the language's numbers.

  What a number is stays open: of its operations only what the language promises is
  known.  The integers are one such type.

  The module names nothing of the runtime.
-/
import SigxActors.Js.JsonRoundTrip

set_option autoImplicit false

namespace SigxActors.Js

/-- Numbers with their operators. -/
class JsArithmetic (N : Type) extends JsNumber N where
  /-- The literal of a natural number. -/
  ofNat : Nat → N
  add : N → N → N
  sub : N → N → N
  /-- `Math.max`. -/
  max : N → N → N
  /-- `>`. -/
  gt : N → N → Bool
  /-- `===`. -/
  strictEq : N → N → Bool
  /-- `Number.isSafeInteger`. -/
  isSafeInteger : N → Bool
  /-- A literal prints as itself. -/
  carried_ofNat : ∀ n < 2 ^ 53, ∃ text, toText (ofNat n) = some text ∧ ofText text = ofNat n
  strictEq_ofNat : ∀ n, strictEq (ofNat n) (ofNat n) = true
  gt_ofNat : ∀ m < 2 ^ 53, ∀ n < 2 ^ 53, gt (ofNat m) (ofNat n) = decide (n < m)
  isSafeInteger_ofNat : ∀ n < 2 ^ 53, isSafeInteger (ofNat n) = true
  /-- Only `-0` prints as another number, and no maximum of zero is `-0`. -/
  carried_max : ∀ {x text}, toText (max (ofNat 0) x) = some text → ofText text = max (ofNat 0) x
  max_max : ∀ x, max (ofNat 0) (max (ofNat 0) x) = max (ofNat 0) x
  /-- A safe integer is too small to carry a finite number over. -/
  finite_sub : ∀ {d now}, (toText d).isSome → isSafeInteger now = true →
    (toText (max (ofNat 0) (sub d now))).isSome

/-- `Number.isFinite`. -/
def isFinite {N : Type} [JsNumber N] (n : N) : Bool := (JsNumber.toText n).isSome

/-! ## Integers -/

/-- A digit of base ten. -/
def decimalDigit (n : Nat) : UInt16 := UInt16.ofNat (0x30 + n % 10)

/-- The digits of a number, the most significant first. -/
def decimalText (n : Nat) : Text :=
  if n < 10 then [decimalDigit n] else decimalText (n / 10) ++ [decimalDigit n]

/-- The number of digits. -/
def ofDecimal (text : Text) : Nat := text.foldl (fun n u => n * 10 + (u.toNat - 0x30)) 0

theorem toNat_decimalDigit (n : Nat) : (decimalDigit n).toNat = 0x30 + n % 10 := by
  rw [decimalDigit, UInt16.toNat_ofNat', Nat.mod_eq_of_lt (by omega)]

theorem isDigit_decimalDigit (n : Nat) : isDigit (decimalDigit n) = true := by
  rw [isDigit, toNat_decimalDigit, Bool.and_eq_true, decide_eq_true_eq, decide_eq_true_eq]
  omega

theorem isDigit_decimalText (n : Nat) : ∀ u ∈ decimalText n, isDigit u = true := by
  induction n using decimalText.induct with
  | case1 n hlt =>
    rw [decimalText, if_pos hlt]
    intro u hu
    obtain rfl := List.mem_singleton.1 hu
    exact isDigit_decimalDigit n
  | case2 n hle ih =>
    rw [decimalText, if_neg hle]
    intro u hu
    rcases List.mem_append.1 hu with hu | hu
    · exact ih u hu
    · obtain rfl := List.mem_singleton.1 hu
      exact isDigit_decimalDigit n

theorem ofDecimal_decimalText (n : Nat) : ofDecimal (decimalText n) = n := by
  induction n using decimalText.induct with
  | case1 n hlt =>
    rw [decimalText, if_pos hlt]
    simp only [ofDecimal, List.foldl_cons, List.foldl_nil, toNat_decimalDigit]
    omega
  | case2 n hle ih =>
    rw [decimalText, if_neg hle, ofDecimal, List.foldl_append]
    simp only [List.foldl_cons, List.foldl_nil, toNat_decimalDigit]
    have hhead : (decimalText (n / 10)).foldl (fun n u => n * 10 + (u.toNat - 0x30)) 0 = n / 10 := ih
    omega

/-- No leading zero. -/
theorem head_decimalText {n : Nat} (h : 0 < n) :
    ∃ u text, decimalText n = u :: text ∧ u ≠ 0x30 := by
  induction n using decimalText.induct with
  | case1 n hlt =>
    rw [decimalText, if_pos hlt]
    refine ⟨_, [], rfl, fun heq => ?_⟩
    have hnat := congrArg UInt16.toNat heq
    rw [toNat_decimalDigit] at hnat
    change 0x30 + n % 10 = 0x30 at hnat
    omega
  | case2 n hle ih =>
    obtain ⟨u, text, htext, hu⟩ := ih (by omega)
    rw [decimalText, if_neg hle, htext]
    exact ⟨u, _, rfl, hu⟩

/-- The digits are an integer of the grammar. -/
theorem integer_decimalText (n : Nat) : integer (decimalText n) = some [] := by
  have hall := isDigit_decimalText n
  rcases Nat.eq_zero_or_pos n with rfl | hpos
  · rw [decimalText, if_pos (by decide)]
    rfl
  obtain ⟨u, text, htext, hu⟩ := head_decimalText hpos
  rw [htext, List.forall_mem_cons] at hall
  rw [htext, integer, if_neg hu, digits, if_pos hall.1]
  have hdrop : (text ++ []).dropWhile isDigit = [].dropWhile isDigit :=
    List.dropWhile_append_of_pos hall.2
  rw [List.append_nil] at hdrop
  exact congrArg some hdrop

theorem dropMinus_decimalText (n : Nat) : dropMinus (decimalText n) = decimalText n := by
  have hall := isDigit_decimalText n
  generalize decimalText n = text at hall
  cases text with
  | nil => rfl
  | cons u text =>
    have hu := hall u (.head _)
    refine if_neg ?_
    rintro rfl
    exact absurd hu (by decide)

/-- `String(n)` of an integer. -/
def intText (n : Int) : Text :=
  if n < 0 then 0x2D :: decimalText n.natAbs else decimalText n.natAbs

/-- The integer of a token without a fraction and an exponent. -/
def ofIntText (text : Text) : Int :=
  match text with
  | [] => 0
  | u :: rest => if u = 0x2D then -(ofDecimal rest : Int) else (ofDecimal (u :: rest) : Int)

theorem ofIntText_decimalText (n : Nat) : ofIntText (decimalText n) = n := by
  have hof := ofDecimal_decimalText n
  have hminus := dropMinus_decimalText n
  generalize decimalText n = text at hof hminus
  cases text with
  | nil =>
    subst hof
    rfl
  | cons u text =>
    have hu : u ≠ 0x2D := by
      rintro rfl
      exact absurd hminus (List.cons_ne_self _ _).symm
    rw [ofIntText, if_neg hu, hof]

theorem ofIntText_intText (n : Int) : ofIntText (intText n) = n := by
  unfold intText
  split
  case isTrue hneg =>
    rw [ofIntText, if_pos rfl, ofDecimal_decimalText]
    omega
  case isFalse hpos =>
    rw [ofIntText_decimalText]
    omega

theorem token_intText (n : Int) : isNumberToken (intText n) = true := by
  have hdigits : dropMinus (intText n) = decimalText n.natAbs := by
    unfold intText
    split
    · rfl
    · exact dropMinus_decimalText _
  rw [isNumberToken, hdigits, integer_decimalText]
  rfl

instance : JsArithmetic Int where
  toText n := some (intText n)
  ofText := ofIntText
  token h := Option.some.inj h ▸ token_intText _
  ofNat n := n
  add := (· + ·)
  sub := (· - ·)
  max := max
  gt a b := decide (b < a)
  strictEq a b := decide (a = b)
  isSafeInteger n := decide (n.natAbs < 2 ^ 53)
  carried_ofNat n _ := ⟨_, rfl, ofIntText_intText n⟩
  strictEq_ofNat _ := decide_eq_true rfl
  gt_ofNat m _ n _ := by
    rw [decide_eq_decide]
    exact Int.ofNat_lt
  isSafeInteger_ofNat n h := by
    rw [decide_eq_true_eq, Int.natAbs_natCast]
    exact h
  carried_max h := Option.some.inj h ▸ ofIntText_intText _
  max_max x := by omega
  finite_sub _ _ := rfl

end SigxActors.Js
