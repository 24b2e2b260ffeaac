/-
  Js/JsonRoundTrip.lean --- parsing what was printed.

  A value comes back as it was when its numbers come back from the tokens they print as,
  and its objects list their properties as the language enumerates them.

  The module names nothing of the runtime.
-/
import SigxActors.Js.Json

set_option autoImplicit false

namespace SigxActors.Js

/-! ## Strings -/

theorem hexValue_hexDigit : ∀ n < 16, hexValue (hexDigit n) = some n := by decide

theorem hexUnit_escape (u : UInt16) :
    hexUnit (hexDigit (u.toNat / 0x1000)) (hexDigit (u.toNat / 0x100 % 0x10))
      (hexDigit (u.toNat / 0x10 % 0x10)) (hexDigit (u.toNat % 0x10)) = some u := by
  have hlt := u.toNat_lt
  have hsum : u.toNat / 0x1000 * 0x1000 + u.toNat / 0x100 % 0x10 * 0x100 +
      u.toNat / 0x10 % 0x10 * 0x10 + u.toNat % 0x10 = u.toNat := by
    omega
  unfold hexUnit
  rw [hexValue_hexDigit _ (by omega), hexValue_hexDigit _ (by omega),
    hexValue_hexDigit _ (by omega), hexValue_hexDigit _ (by omega)]
  simp only [Option.bind_some, Option.map_some, hsum, UInt16.ofNat_toNat]

variable {u : UInt16} {rest text : Text}

/-- A unit that stands for itself. -/
theorem scanString_literal (hquote : u ≠ 0x22) (hslash : u ≠ 0x5C) (hcontrol : ¬ u.toNat < 0x20)
    (rest : Text) : scanString (u :: rest) = (scanString rest).map (prepend u) := by
  rw [scanString.eq_def (u :: rest)]
  simp only [if_neg hquote, if_neg hslash, if_neg hcontrol]

/-- A backslash and a letter. -/
theorem scanString_simple {e : UInt16} (he : e ≠ 0x75) (h : simpleEscape e = some u) (rest : Text) :
    scanString (0x5C :: e :: rest) = (scanString rest).map (prepend u) := by
  have hslash : (0x5C : UInt16) ≠ 0x22 := by decide
  rw [scanString.eq_def (0x5C :: e :: rest)]
  simp only [if_neg hslash, if_true, if_neg he, h, Option.bind_some]

theorem scanString_unicode (u : UInt16) (rest : Text) :
    scanString (unicodeEscape u ++ rest) = (scanString rest).map (prepend u) := by
  have hslash : (0x5C : UInt16) ≠ 0x22 := by decide
  simp only [unicodeEscape, List.cons_append, List.nil_append]
  rw [scanString.eq_def (0x5C :: _)]
  simp only [if_neg hslash, if_true, hexUnit_escape, Option.bind_some]

theorem scanString_close (rest : Text) : scanString (0x22 :: rest) = some ([], rest) := by
  rw [scanString.eq_def]
  simp only [if_true]

theorem scanString_quoteUnit (u : UInt16) (rest : Text) :
    scanString (quoteUnit u ++ rest) = (scanString rest).map (prepend u) := by
  unfold quoteUnit
  -- one after the other the seven short escapes
  iterate 7
    split
    · rename_i heq
      subst heq
      exact scanString_simple (by decide) rfl rest
  split
  · exact scanString_unicode u rest
  · rename_i hquote hslash _ _ _ _ _ hescape
    exact scanString_literal hquote hslash (fun h => hescape (.inl h)) rest

/-- A surrogate stands for itself. -/
theorem scanString_surrogate (h : isLead u ∨ isTrail u) (rest : Text) :
    scanString (u :: rest) = (scanString rest).map (prepend u) := by
  have hrange : 0xD800 ≤ u.toNat := by
    unfold isLead isTrail at h
    omega
  refine scanString_literal ?_ ?_ (by omega) rest
  all_goals
    rintro rfl
    exact absurd hrange (by decide)

theorem quoteUnits_cons (hlead : ¬ isLead u) (rest : Text) :
    quoteUnits (u :: rest) = quoteUnit u ++ quoteUnits rest := by
  rw [quoteUnits.eq_def]
  simp only [if_neg hlead]

/-- Within its quotes a string comes back. -/
theorem scanString_quoteUnits (s rest : Text) :
    scanString (quoteUnits s ++ 0x22 :: rest) = some (s, rest) := by
  induction s using quoteUnits.induct with
  | case1 => exact scanString_close rest
  | case2 u hlead v rest' htrail ih =>
    rw [quoteUnits, if_pos hlead]
    simp only [if_pos htrail, List.cons_append]
    rw [scanString_surrogate (.inl hlead), scanString_surrogate (.inr htrail), ih]
    rfl
  | case3 u hlead v rest' htrail ih =>
    rw [quoteUnits, if_pos hlead]
    simp only [if_neg htrail, List.append_assoc]
    rw [scanString_quoteUnit, ih]
    rfl
  | case4 u hlead =>
    rw [quoteUnits, if_pos hlead, scanString_quoteUnit, scanString_close]
    rfl
  | case5 u rest' hlead ih =>
    rw [quoteUnits_cons hlead, List.append_assoc, scanString_quoteUnit, ih]
    rfl

theorem eq_of_map_prepend {scanned : Option (Text × Text)} {s : Text}
    (h : scanned.map (prepend u) = some (s, rest)) :
    ∃ s', scanned = some (s', rest) ∧ s = u :: s' := by
  obtain ⟨⟨s', rest'⟩, hscanned, hpair⟩ := Option.map_eq_some_iff.1 h
  obtain ⟨rfl, rfl⟩ := Prod.mk.inj hpair
  exact ⟨s', hscanned, rfl⟩

/-- What is left behind a string is the end of the text. -/
theorem scanString_suffix {s : Text} (h : scanString text = some (s, rest)) : rest <:+ text := by
  fun_induction scanString text generalizing s rest with
  | case1 | case4 | case6 | case7 => cases h
  | case2 => exact (Prod.mk.inj (Option.some.inj h)).2 ▸ List.suffix_cons _ _
  | case3 a b c d text _ ih =>
    obtain ⟨u, -, hscan⟩ := Option.bind_eq_some_iff.1 h
    obtain ⟨s', hrest, -⟩ := eq_of_map_prepend hscan
    exact (ih hrest).trans ⟨[0x5C, 0x75, a, b, c, d], rfl⟩
  | case5 e text _ _ ih =>
    obtain ⟨u, -, hscan⟩ := Option.bind_eq_some_iff.1 h
    obtain ⟨s', hrest, -⟩ := eq_of_map_prepend hscan
    exact (ih hrest).trans ⟨[0x5C, e], rfl⟩
  | case8 u text _ _ _ ih =>
    obtain ⟨s', hrest, -⟩ := eq_of_map_prepend h
    exact (ih hrest).trans (List.suffix_cons _ _)

/-! ## Number tokens -/

/-- Units of a number were read. -/
def ReadsNumber (text rest : Text) : Prop :=
  ∃ read, text = read ++ rest ∧ ∀ u ∈ read, isNumberUnit u = true

theorem ReadsNumber.refl (text : Text) : ReadsNumber text text :=
  ⟨[], rfl, by simp⟩

theorem ReadsNumber.trans {a b c : Text} (hab : ReadsNumber a b) (hbc : ReadsNumber b c) :
    ReadsNumber a c := by
  obtain ⟨r, rfl, hr⟩ := hab
  obtain ⟨s, rfl, hs⟩ := hbc
  refine ⟨r ++ s, by rw [List.append_assoc], fun u hu => ?_⟩
  exact (List.mem_append.1 hu).elim (hr u) (hs u)

theorem ReadsNumber.cons (hu : isNumberUnit u = true) (rest : Text) :
    ReadsNumber (u :: rest) rest :=
  ⟨[u], rfl, by simpa using hu⟩

theorem isNumberUnit_of_isDigit (h : isDigit u = true) : isNumberUnit u = true := by
  simp [isNumberUnit, h]

theorem reads_digits (h : digits text = some rest) : ReadsNumber text rest := by
  cases text with
  | nil => cases h
  | cons u text =>
    rw [digits] at h
    split at h
    case isTrue hu =>
      cases h
      refine (ReadsNumber.cons (isNumberUnit_of_isDigit hu) text).trans ?_
      refine ⟨text.takeWhile isDigit, (List.takeWhile_append_dropWhile).symm, fun v hv => ?_⟩
      have hdigits := List.all_takeWhile (l := text) (p := isDigit)
      exact isNumberUnit_of_isDigit (List.all_eq_true.1 hdigits v hv)
    case isFalse => cases h

theorem reads_integer (h : integer text = some rest) : ReadsNumber text rest := by
  cases text with
  | nil => cases h
  | cons u text =>
    rw [integer] at h
    split at h
    case isTrue hu =>
      cases h
      subst hu
      exact .cons rfl rest
    case isFalse => exact reads_digits h

theorem reads_fraction (h : fraction text = some rest) : ReadsNumber text rest := by
  cases text with
  | nil =>
    cases h
    exact .refl _
  | cons u text =>
    rw [fraction] at h
    split at h
    case isTrue hu => exact (ReadsNumber.cons (by rw [hu]; rfl) text).trans (reads_digits h)
    case isFalse =>
      cases h
      exact .refl _

theorem reads_dropSign (text : Text) : ReadsNumber text (dropSign text) := by
  cases text with
  | nil => exact .refl _
  | cons u text =>
    rw [dropSign]
    split
    case isTrue hu => exact .cons (by rcases hu with rfl | rfl <;> rfl) text
    case isFalse => exact .refl _

theorem reads_exponent (h : exponent text = some rest) : ReadsNumber text rest := by
  cases text with
  | nil =>
    cases h
    exact .refl _
  | cons u text =>
    rw [exponent] at h
    split at h
    case isTrue hu =>
      refine (ReadsNumber.cons (by rcases hu with rfl | rfl <;> rfl) text).trans ?_
      exact (reads_dropSign text).trans (reads_digits h)
    case isFalse =>
      cases h
      exact .refl _

theorem reads_dropMinus (text : Text) : ReadsNumber text (dropMinus text) := by
  cases text with
  | nil => exact .refl _
  | cons u text =>
    rw [dropMinus]
    split
    case isTrue hu => exact .cons (by rw [hu]; rfl) text
    case isFalse => exact .refl _

/-- A token is made of the units of a number. -/
theorem units_of_token (h : isNumberToken text = true) : ∀ u ∈ text, isNumberUnit u = true := by
  rw [isNumberToken, beq_iff_eq, Option.bind_eq_some_iff] at h
  obtain ⟨t, ht, h⟩ := h
  rw [Option.bind_eq_some_iff] at h
  obtain ⟨t', ht', hend⟩ := h
  obtain ⟨read, hread, hall⟩ := (reads_dropMinus text).trans
    ((reads_integer ht).trans ((reads_fraction ht').trans (reads_exponent hend)))
  rw [List.append_nil] at hread
  exact hread ▸ hall

/-- A token begins with a minus or a digit. -/
theorem head_of_token (h : isNumberToken text = true) :
    ∃ u rest, text = u :: rest ∧ (u = 0x2D ∨ isDigit u = true) := by
  rw [isNumberToken, beq_iff_eq, Option.bind_eq_some_iff] at h
  obtain ⟨t, ht, -⟩ := h
  cases text with
  | nil => cases ht
  | cons u rest =>
    refine ⟨u, rest, rfl, ?_⟩
    rw [dropMinus] at ht
    split at ht
    case isTrue hu => exact .inl hu
    case isFalse =>
      rw [integer] at ht
      split at ht
      case isTrue hu => exact .inr (by rw [hu]; rfl)
      case isFalse =>
        rw [digits] at ht
        split at ht
        case isTrue hu => exact .inr hu
        case isFalse => cases ht

/-! ## Values -/

section

variable {N : Type} [JsNumber N]

/-- The properties are listed once each, and as the language enumerates them. -/
def Enumerated {α : Type} (members : List (Text × α)) : Prop :=
  members.Pairwise fun a b => a.1 ≠ b.1 ∧ comesBefore b.1 a.1 = false

mutual

/-- JSON carries the value as it is. -/
def Carried : Json N → Prop
  | .null => True
  | .bool _ => True
  | .num n => ∃ text, JsNumber.toText n = some text ∧ JsNumber.ofText text = n
  | .str _ => True
  | .arr elements => CarriedElements elements
  | .obj members => Enumerated members ∧ CarriedMembers members

/-- Of each element. -/
def CarriedElements : List (Json N) → Prop
  | [] => True
  | v :: rest => Carried v ∧ CarriedElements rest

/-- Of each member. -/
def CarriedMembers : List (Text × Json N) → Prop
  | [] => True
  | (_, v) :: rest => Carried v ∧ CarriedMembers rest

end

theorem putMember_last {α : Type} {key : Text} {value : α} {own : List (Text × α)}
    (h : ∀ m ∈ own, m.1 ≠ key ∧ comesBefore key m.1 = false) :
    putMember key value own = own ++ [(key, value)] := by
  induction own with
  | nil => rfl
  | cons m own ih =>
    rw [List.forall_mem_cons] at h
    rw [putMember, if_neg h.1.1, h.1.2, if_neg Bool.false_ne_true, ih h.2]
    rfl

theorem foldl_putMember {α : Type} {own members : List (Text × α)}
    (h : Enumerated (own ++ members)) :
    members.foldl (fun own m => putMember m.1 m.2 own) own = own ++ members := by
  induction members generalizing own with
  | nil => simp
  | cons m members ih =>
    have hlast : putMember m.1 m.2 own = own ++ [m] :=
      putMember_last fun a ha => (List.pairwise_append.1 h).2.2 a ha m List.mem_cons_self
    rw [List.foldl_cons, hlast, ih (by rw [List.append_assoc]; exact h), List.append_assoc]
    rfl

/-- An object whose properties are put in their order lists them in it. -/
theorem objectOf_enumerated {α : Type} {members : List (Text × α)} (h : Enumerated members) :
    objectOf members = members := by
  have hnil : Enumerated ([] ++ members) := h
  have hall := foldl_putMember hnil
  rwa [List.nil_append] at hall

variable {u : UInt16} {text rest : Text} {fuel : Nat} {v : Json N}

theorem skipSpace_cons (h : isSpace u = false) (rest : Text) :
    skipSpace (u :: rest) = u :: rest := by
  simp [skipSpace, h]

/-- A unit that a value begins with. -/
def Opens (u : UInt16) : Prop := u.toNat < 0x80 ∧ isSpace u = false ∧ u ≠ 0x5D

instance (u : UInt16) : Decidable (Opens u) := inferInstanceAs (Decidable (_ ∧ _))

theorem opens_of_number (h : u = 0x2D ∨ isDigit u = true) : Opens u := by
  obtain rfl | hdigit := h
  · decide
  have hrange : 0x30 ≤ u.toNat ∧ u.toNat ≤ 0x39 := by simpa [isDigit] using hdigit
  have hne : ∀ v : UInt16, v.toNat < 0x30 ∨ 0x39 < v.toNat → u ≠ v := by
    rintro v hv rfl
    omega
  refine ⟨by omega, ?_, hne _ (by decide)⟩
  simp only [isSpace, Bool.or_eq_false_iff, beq_eq_false_iff_ne]
  exact ⟨⟨⟨hne _ (by decide), hne _ (by decide)⟩, hne _ (by decide)⟩, hne _ (by decide)⟩

theorem stringify_cons (v : Json N) : ∃ u rest, stringify v = u :: rest ∧ Opens u := by
  cases v with
  | null => exact ⟨_, _, by rw [stringify, nullText], by decide⟩
  | bool b =>
    cases b
    · exact ⟨_, _, by rw [stringify, falseText], by decide⟩
    · exact ⟨_, _, by rw [stringify, trueText], by decide⟩
  | num n =>
    rw [stringify]
    cases htext : JsNumber.toText n with
    | none => exact ⟨_, _, by rw [Option.getD_none, nullText], by decide⟩
    | some text =>
      obtain ⟨u, rest, rfl, hu⟩ := head_of_token (JsNumber.token htext)
      exact ⟨u, rest, rfl, opens_of_number hu⟩
  | str s => exact ⟨_, _, by rw [stringify, quote], by decide⟩
  | arr | obj => exact ⟨_, _, by rw [stringify], by decide⟩

/-- A number is not continued. -/
def Ends (rest : Text) : Prop := ∀ u ∈ rest.head?, isNumberUnit u = false

theorem Ends.nil : Ends [] := by simp [Ends]

theorem Ends.cons (h : isNumberUnit u = false) (rest : Text) : Ends (u :: rest) := by
  simpa [Ends] using h

theorem Ends.takeWhile (h : ∀ u ∈ text, isNumberUnit u = true) (hrest : Ends rest) :
    (text ++ rest).takeWhile isNumberUnit = text := by
  rw [List.takeWhile_append_of_pos h]
  cases rest with
  | nil => simp
  | cons u rest => rw [List.takeWhile_cons_of_neg (by simp [hrest u rfl]), List.append_nil]

theorem Ends.dropWhile (h : ∀ u ∈ text, isNumberUnit u = true) (hrest : Ends rest) :
    (text ++ rest).dropWhile isNumberUnit = rest := by
  rw [List.dropWhile_append_of_pos h]
  cases rest with
  | nil => rfl
  | cons u rest => exact List.dropWhile_cons_of_neg (by simp [hrest u rfl])

theorem parseValue_str (fuel : Nat) (s rest : Text) :
    parseValue (N := N) (fuel + 1) (quote s ++ rest) = some (.str s, rest) := by
  have htext : quote s ++ rest = 0x22 :: (quoteUnits s ++ 0x22 :: rest) := by simp [quote]
  rw [htext, parseValue, skipSpace_cons rfl]
  simp only [if_true, scanString_quoteUnits, Option.map_some]

theorem parseValue_num {n : N} (htext : JsNumber.toText n = some text)
    (hback : JsNumber.ofText text = n) (hrest : Ends rest) :
    parseValue (fuel + 1) (text ++ rest) = some (.num n, rest) := by
  have htoken := JsNumber.token htext
  have hunits := units_of_token htoken
  have htake := hrest.takeWhile hunits
  have hdrop := hrest.dropWhile hunits
  obtain ⟨u, tail, rfl, hu⟩ := head_of_token htoken
  have hopens := opens_of_number hu
  have hne : u ≠ 0x22 ∧ u ≠ 0x5B ∧ u ≠ 0x7B := by
    obtain rfl | hdigit := hu
    · decide
    · refine ⟨?_, ?_, ?_⟩ <;>
      · rintro rfl
        exact absurd hdigit (by decide)
  rw [List.cons_append] at htake hdrop ⊢
  rw [parseValue, skipSpace_cons hopens.2.1]
  simp only [if_neg hne.1, if_neg hne.2.1, if_neg hne.2.2, if_pos hu, htake, hdrop]
  rw [if_pos htoken, hback]

/-- The first element, and the others behind it. -/
theorem stringifyElements_cons (v : Json N) (vs : List (Json N)) :
    stringifyElements (v :: vs) =
      stringify v ++ (match vs with | [] => [] | _ :: _ => 0x2C :: stringifyElements vs) := by
  cases vs with
  | nil => simp only [stringifyElements, List.append_nil]
  | cons w vs => rw [stringifyElements]

/-- The first member, and the others behind it. -/
theorem stringifyMembers_cons (key : Text) (v : Json N) (ms : List (Text × Json N)) :
    stringifyMembers ((key, v) :: ms) = quote key ++ 0x3A :: (stringify v ++
      (match ms with | [] => [] | _ :: _ => 0x2C :: stringifyMembers ms)) := by
  cases ms with
  | nil => simp only [stringifyMembers, List.append_nil]
  | cons m ms => rw [stringifyMembers]

/-- What `parseElements` makes of an element and what comes behind it. -/
theorem parseElements_of_value {tail : Text} (h : parseValue fuel text = some (v, tail)) :
    parseElements (fuel + 1) text =
      match skipSpace tail with
      | [] => none
      | u :: rest =>
        if u = 0x5D then some ([v], rest)
        else if u = 0x2C then (parseElements fuel rest).map fun q => (v :: q.1, q.2)
        else none := by
  rw [parseElements, h]
  rfl

/-- What `parseMembers` makes of a key, a value and what comes behind it. -/
theorem parseMembers_of_value {key tail : Text} (h : parseValue fuel text = some (v, tail)) :
    parseMembers (fuel + 1) (quote key ++ 0x3A :: text) =
      match skipSpace tail with
      | [] => none
      | u :: rest =>
        if u = 0x7D then some ([(key, v)], rest)
        else if u = 0x2C then (parseMembers fuel rest).map fun q => ((key, v) :: q.1, q.2)
        else none := by
  have htext : quote key ++ 0x3A :: text = 0x22 :: (quoteUnits key ++ 0x22 :: 0x3A :: text) := by
    simp [quote]
  have hcolon : skipSpace (0x3A :: text) = 0x3A :: text := skipSpace_cons rfl text
  rw [htext, parseMembers, skipSpace_cons rfl]
  dsimp only
  rw [if_pos rfl, scanString_quoteUnits, Option.bind_some, hcolon]
  dsimp only
  rw [if_pos rfl, h]
  rfl

theorem parseValue_arr {vs : List (Json N)}
    (h : parseElements fuel (stringifyElements (v :: vs) ++ 0x5D :: rest) = some (v :: vs, rest)) :
    parseValue (fuel + 1) (stringify (.arr (v :: vs)) ++ rest) = some (.arr (v :: vs), rest) := by
  obtain ⟨u, tail, hu, hopens⟩ := stringify_cons v
  have htext : stringify (.arr (v :: vs)) ++ rest =
      0x5B :: (stringifyElements (v :: vs) ++ 0x5D :: rest) := by
    simp [stringify]
  have hfirst : ∃ t, stringifyElements (v :: vs) ++ 0x5D :: rest = u :: t := by
    rw [stringifyElements_cons, hu]
    exact ⟨_, rfl⟩
  obtain ⟨t, ht⟩ := hfirst
  rw [ht] at h htext
  have hquote : (0x5B : UInt16) ≠ 0x22 := by decide
  rw [htext, parseValue, skipSpace_cons rfl]
  simp only [if_neg hquote, if_true, skipSpace_cons hopens.2.1, if_neg hopens.2.2, h,
    Option.map_some]

theorem parseValue_obj {m : Text × Json N} {ms : List (Text × Json N)}
    (horder : Enumerated (m :: ms))
    (h : parseMembers fuel (stringifyMembers (m :: ms) ++ 0x7D :: rest) = some (m :: ms, rest)) :
    parseValue (fuel + 1) (stringify (.obj (m :: ms)) ++ rest) = some (.obj (m :: ms), rest) := by
  have htext : stringify (.obj (m :: ms)) ++ rest =
      0x7B :: (stringifyMembers (m :: ms) ++ 0x7D :: rest) := by
    simp [stringify]
  have hfirst : ∃ t, stringifyMembers (m :: ms) ++ 0x7D :: rest = 0x22 :: t := by
    rw [stringifyMembers_cons]
    exact ⟨_, rfl⟩
  obtain ⟨t, ht⟩ := hfirst
  rw [ht] at h htext
  have hspace : skipSpace (0x22 :: t) = 0x22 :: t := skipSpace_cons rfl t
  have hquote : (0x7B : UInt16) ≠ 0x22 := by decide
  have hbracket : (0x7B : UInt16) ≠ 0x5B := by decide
  have hbrace : (0x22 : UInt16) ≠ 0x7D := by decide
  rw [htext, parseValue, skipSpace_cons rfl]
  simp only [if_neg hquote, if_neg hbracket, if_true, hspace, if_neg hbrace, h, Option.map_some,
    objectOf_enumerated horder]

theorem length_stringify_pos (v : Json N) : 0 < (stringify v).length := by
  obtain ⟨u, rest, hu, -⟩ := stringify_cons v
  simp [hu]

mutual

/-- With fuel for it, what was printed is parsed, and what comes behind it stays. -/
theorem parseValue_stringify : ∀ (v : Json N) {fuel : Nat} {rest : Text}, Carried v →
    2 * (stringify v).length ≤ fuel → Ends rest →
      parseValue fuel (stringify v ++ rest) = some (v, rest)
  | .null, fuel + 1, rest, _, _, _ => by
    rfl
  | .bool b, fuel + 1, rest, _, _, _ => by
    cases b <;> rfl
  | .num n, fuel + 1, rest, hcarried, _, hrest => by
    obtain ⟨text, htext, hback⟩ := hcarried
    rw [stringify, htext]
    exact parseValue_num htext hback hrest
  | .str s, fuel + 1, rest, _, _, _ => by
    exact parseValue_str fuel s rest
  | .arr [], fuel + 1, rest, _, _, _ => rfl
  | .arr (v :: vs), fuel + 1, rest, hcarried, hfuel, _ => by
    simp only [stringify, List.length_cons, List.length_append] at hfuel
    exact parseValue_arr (parseElements_stringify v vs hcarried (by omega))
  | .obj [], fuel + 1, rest, _, _, _ => rfl
  | .obj (m :: ms), fuel + 1, rest, hcarried, hfuel, _ => by
    simp only [stringify, List.length_cons, List.length_append] at hfuel
    exact parseValue_obj hcarried.1 (parseMembers_stringify m ms hcarried.2 (by omega))
  | v, 0, rest, _, hfuel, _ => by
    have := length_stringify_pos v
    omega

/-- Of the elements of an array. -/
theorem parseElements_stringify : ∀ (v : Json N) (vs : List (Json N)) {fuel : Nat} {rest : Text},
    CarriedElements (v :: vs) → 2 * (stringifyElements (v :: vs)).length + 1 ≤ fuel →
      parseElements fuel (stringifyElements (v :: vs) ++ 0x5D :: rest) = some (v :: vs, rest)
  | v, [], fuel + 1, rest, hcarried, hfuel => by
    rw [stringifyElements_cons, List.append_nil] at hfuel ⊢
    have hv : parseValue fuel (stringify v ++ 0x5D :: rest) = some (v, 0x5D :: rest) :=
      parseValue_stringify v hcarried.1 (by omega) (.cons rfl rest)
    rw [parseElements_of_value hv]
    rfl
  | v, w :: vs, fuel + 1, rest, hcarried, hfuel => by
    rw [stringifyElements_cons] at hfuel ⊢
    simp only [List.length_append, List.length_cons] at hfuel
    have hrest : parseElements fuel (stringifyElements (w :: vs) ++ 0x5D :: rest) =
        some (w :: vs, rest) :=
      parseElements_stringify w vs hcarried.2 (by omega)
    rw [List.append_assoc, List.cons_append, parseElements_of_value
      (parseValue_stringify v hcarried.1 (by omega) (.cons rfl _)), skipSpace_cons rfl]
    dsimp only
    rw [if_neg (by decide), if_pos rfl, hrest]
    rfl

/-- Of the members of an object. -/
theorem parseMembers_stringify : ∀ (m : Text × Json N) (ms : List (Text × Json N)) {fuel : Nat}
    {rest : Text}, CarriedMembers (m :: ms) → 2 * (stringifyMembers (m :: ms)).length + 1 ≤ fuel →
      parseMembers fuel (stringifyMembers (m :: ms) ++ 0x7D :: rest) = some (m :: ms, rest)
  | (key, v), [], fuel + 1, rest, hcarried, hfuel => by
    rw [stringifyMembers_cons] at hfuel ⊢
    simp only [List.length_append, List.length_cons, List.append_nil] at hfuel
    have hv : parseValue fuel (stringify v ++ 0x7D :: rest) = some (v, 0x7D :: rest) :=
      parseValue_stringify v hcarried.1 (by omega) (.cons rfl rest)
    rw [List.append_nil, List.append_assoc, List.cons_append, parseMembers_of_value hv]
    rfl
  | (key, v), m :: ms, fuel + 1, rest, hcarried, hfuel => by
    rw [stringifyMembers_cons] at hfuel ⊢
    simp only [List.length_append, List.length_cons] at hfuel
    have hrest : parseMembers fuel (stringifyMembers (m :: ms) ++ 0x7D :: rest) =
        some (m :: ms, rest) :=
      parseMembers_stringify m ms hcarried.2 (by omega)
    rw [List.append_assoc, List.cons_append, List.append_assoc, List.cons_append,
      parseMembers_of_value (parseValue_stringify v hcarried.1 (by omega) (.cons rfl _)),
      skipSpace_cons rfl]
    dsimp only
    rw [if_neg (by decide), if_pos rfl, hrest]
    rfl

end

/-- What was printed is parsed. -/
theorem parseJson_stringify (h : Carried v) : parseJson (stringify v) = some v := by
  have hv : parseValue (2 * (stringify v).length + 2) (stringify v ++ []) = some (v, []) :=
    parseValue_stringify v h (by omega) .nil
  rw [List.append_nil] at hv
  rw [parseJson, hv]
  rfl

/-! ## The text of a value -/

/-- Units that are no surrogates. -/
theorem WellFormed.of_plain (h : ∀ u ∈ text, u.toNat < 0xD800) : WellFormed text := by
  induction text with
  | nil => exact .nil
  | cons u text ih =>
    rw [List.forall_mem_cons] at h
    refine .unit ?_ ?_ (ih h.2)
    · unfold isLead
      omega
    · unfold isTrail
      omega

theorem WellFormed.of_all (h : (text.all fun u => u.toNat < 0xD800) = true) : WellFormed text :=
  .of_plain fun u hu => of_decide_eq_true (List.all_eq_true.1 h u hu)

/-- No unit below the space is left unescaped. -/
def Uncontrolled (text : Text) : Prop := ∀ u ∈ text, 0x20 ≤ u.toNat

/-- As JSON prints it: every surrogate has its partner, and no control stands for itself. -/
def Printed (text : Text) : Prop := WellFormed text ∧ Uncontrolled text

theorem Printed.nil : Printed [] := ⟨.nil, nofun⟩

theorem Printed.append {a b : Text} (ha : Printed a) (hb : Printed b) : Printed (a ++ b) :=
  ⟨ha.1.append hb.1, fun u hu => (List.mem_append.1 hu).elim (ha.2 u) (hb.2 u)⟩

theorem Printed.of_plain (h : ∀ u ∈ text, 0x20 ≤ u.toNat ∧ u.toNat < 0xD800) : Printed text :=
  ⟨.of_plain fun u hu => (h u hu).2, fun u hu => (h u hu).1⟩

theorem Printed.of_all (h : (text.all fun u => 0x20 ≤ u.toNat ∧ u.toNat < 0xD800) = true) :
    Printed text :=
  .of_plain fun u hu => of_decide_eq_true (List.all_eq_true.1 h u hu)

/-- A unit of the grammar in front. -/
theorem Printed.cons (hu : 0x20 ≤ u.toNat ∧ u.toNat < 0xD800) (h : Printed text) :
    Printed (u :: text) := by
  have hplain : Printed [u] := .of_plain (by simpa using hu)
  exact hplain.append h

theorem Printed.pair {v : UInt16} (hlead : isLead u) (htrail : isTrail v) (h : Printed text) :
    Printed (u :: v :: text) := by
  refine ⟨.pair hlead htrail h.1, List.forall_mem_cons.2 ⟨?_, List.forall_mem_cons.2 ⟨?_, h.2⟩⟩⟩
  · unfold isLead at hlead
    omega
  · unfold isTrail at htrail
    omega

theorem hexDigit_plain : ∀ n < 16, 0x20 ≤ (hexDigit n).toNat ∧ (hexDigit n).toNat ≤ 0x7E := by decide

theorem unicodeEscape_plain (u : UInt16) : ∀ v ∈ unicodeEscape u, 0x20 ≤ v.toNat ∧ v.toNat ≤ 0x7E := by
  have hlt := u.toNat_lt
  simp only [unicodeEscape, List.forall_mem_cons]
  exact ⟨by decide, by decide, hexDigit_plain _ (by omega), hexDigit_plain _ (by omega),
    hexDigit_plain _ (by omega), hexDigit_plain _ (by omega), nofun⟩

theorem printed_quoteUnit (u : UInt16) : Printed (quoteUnit u) := by
  unfold quoteUnit
  iterate 7
    split
    · exact .of_all (by decide)
  split
  · exact .of_plain fun v hv => (unicodeEscape_plain u v hv).imp_right fun h => by omega
  · rename_i h
    rw [not_or, not_or] at h
    exact ⟨.unit h.2.1 h.2.2 .nil, List.forall_mem_singleton.2 (by omega)⟩

theorem printed_quoteUnits (s : Text) : Printed (quoteUnits s) := by
  induction s using quoteUnits.induct with
  | case1 => exact .nil
  | case2 u hlead v rest htrail ih =>
    rw [quoteUnits, if_pos hlead]
    simp only [if_pos htrail]
    exact .pair hlead htrail ih
  | case3 u hlead v rest htrail ih =>
    rw [quoteUnits, if_pos hlead]
    simp only [if_neg htrail]
    exact (printed_quoteUnit u).append ih
  | case4 u hlead =>
    rw [quoteUnits, if_pos hlead]
    exact printed_quoteUnit u
  | case5 u rest hlead ih =>
    rw [quoteUnits_cons hlead]
    exact (printed_quoteUnit u).append ih

theorem printed_quote (s : Text) : Printed (quote s) :=
  .cons (by decide) ((printed_quoteUnits s).append (.of_all (by decide)))

theorem isNumberUnit_plain (h : isNumberUnit u = true) : 0x20 ≤ u.toNat ∧ u.toNat < 0xD800 := by
  simp only [isNumberUnit, isDigit, Bool.or_eq_true, Bool.and_eq_true, decide_eq_true_eq,
    beq_iff_eq] at h
  rcases h with ((((⟨_, _⟩ | rfl) | rfl) | rfl) | rfl) | rfl
  · omega
  all_goals decide

theorem printed_token (h : isNumberToken text = true) : Printed text :=
  .of_plain fun u hu => isNumberUnit_plain (units_of_token h u hu)

mutual

theorem printed_stringify : ∀ v : Json N, Printed (stringify v)
  | .null | .bool true | .bool false => by
    rw [stringify]
    exact .of_all (by decide)
  | .num n => by
    rw [stringify]
    cases htext : JsNumber.toText n with
    | none => exact .of_all (by decide)
    | some text => exact printed_token (JsNumber.token htext)
  | .str s => printed_quote s
  | .arr elements =>
    .cons (by decide) ((printed_stringifyElements elements).append (.of_all (by decide)))
  | .obj members =>
    .cons (by decide) ((printed_stringifyMembers members).append (.of_all (by decide)))

/-- In the elements of an array. -/
theorem printed_stringifyElements : ∀ vs : List (Json N), Printed (stringifyElements vs)
  | [] => .nil
  | [v] => printed_stringify v
  | v :: w :: vs =>
    (printed_stringify v).append (.cons (by decide) (printed_stringifyElements (w :: vs)))

/-- In the members of an object. -/
theorem printed_stringifyMembers : ∀ ms : List (Text × Json N), Printed (stringifyMembers ms)
  | [] => .nil
  | [(key, v)] => (printed_quote key).append (.cons (by decide) (printed_stringify v))
  | (key, v) :: m :: ms =>
    (printed_quote key).append (.cons (by decide) ((printed_stringify v).append
      (.cons (by decide) (printed_stringifyMembers (m :: ms)))))

end

/-- The text of a value is decoded from its UTF-8. -/
theorem decode_stringify (v : Json N) : decode (encode (stringify v)) = stringify v := by
  refine decode_encode (printed_stringify v).1 ?_
  rintro rest hmark
  obtain ⟨u, tail, hu, hopens⟩ := stringify_cons v
  obtain ⟨rfl, -⟩ := List.cons.inj (hu.symm.trans hmark)
  exact absurd hopens.1 (by decide)

end

end SigxActors.Js
