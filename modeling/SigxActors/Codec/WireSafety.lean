/-
  Codec/WireSafety.lean --- the two ways to parse a payload agree.

  A key can only be spelled with an escape of four digits or letter by letter: what the
  other escapes stand for is in no dangerous key.  So a text that the scan lets through
  holds no dangerous key at any depth, and the reviver would leave its value as it is.
-/
import SigxActors.Codec.WireParse

set_option autoImplicit false

namespace SigxActors.Codec

open SigxActors.Js

/-! ## What the scan lets through -/

/-- `\u`. -/
def unicodeMark : Text := spell ['\\', 'u']

/-- None of the three keys is spelled out, and nothing is escaped by its number. -/
structure Innocent (text : Text) : Prop where
  keys : ∀ key ∈ dangerousKeys, ¬ key <:+: text
  escapes : ¬ unicodeMark <:+: text

variable {text : Text}

theorem includes_eq_false {part : Text} : includes text part = false ↔ ¬ part <:+: text := by
  rw [← Bool.not_eq_true, includes, List.isInfixOf_internal_iff_isInfix]

theorem innocent_of_not_suspect (h : ¬ suspect text) : Innocent text := by
  rw [suspect, Bool.not_eq_true, Bool.or_eq_false_iff, Bool.or_eq_false_iff, Bool.or_eq_false_iff,
    includes_eq_false, includes_eq_false, includes_eq_false, includes_eq_false] at h
  obtain ⟨⟨⟨hproto, hconstructor⟩, hprototype⟩, hescape⟩ := h
  refine ⟨fun key hkey => ?_, hescape⟩
  rcases List.mem_cons.1 hkey with rfl | hkey
  · exact hproto
  rcases List.mem_cons.1 hkey with rfl | hkey
  · exact hconstructor
  rcases List.mem_cons.1 hkey with rfl | hkey
  · exact hprototype
  cases hkey

theorem Innocent.suffix {rest : Text} (h : Innocent text) (hrest : rest <:+ text) : Innocent rest :=
  ⟨fun key hkey hin => h.keys key hkey (hin.trans hrest.isInfix),
    fun hin => h.escapes (hin.trans hrest.isInfix)⟩

/-! ## Strings -/

/-- What an escape of one letter stands for is none of the letters behind the backslash. -/
theorem toNat_of_simpleEscape {e u : UInt16} (h : simpleEscape e = some u) : u.toNat ≤ 0x5C := by
  unfold simpleEscape at h
  split at h
  case isTrue hself =>
    cases h
    rcases hself with rfl | rfl | rfl <;> decide
  case isFalse =>
    repeat' split at h
    all_goals first | cases h; decide | cases h

/-- Those of the dangerous keys are. -/
theorem toNat_of_dangerous : ∀ key ∈ dangerousKeys, (key.all fun u => 0x5C < u.toNat) = true := by
  decide

/-- A string of such letters is spelled out, where nothing is escaped by its number. -/
theorem spelled_of_scanString {s rest : Text} (h : scanString text = some (s, rest))
    (hescapes : ¬ unicodeMark <:+: text) (hletters : ∀ u ∈ s, 0x5C < u.toNat) : s <+: text := by
  fun_induction scanString text generalizing s rest with
  | case1 | case4 | case6 | case7 => cases h
  | case2 => exact (Prod.mk.inj (Option.some.inj h)).1 ▸ List.nil_prefix
  | case3 a b c d text =>
    exact absurd ⟨[], a :: b :: c :: d :: text, rfl⟩ hescapes
  | case5 =>
    -- what was escaped is the first of the letters
    obtain ⟨u, hu, hscan⟩ := Option.bind_eq_some_iff.1 h
    obtain ⟨s', -, rfl⟩ := eq_of_map_prepend hscan
    have hle := toNat_of_simpleEscape hu
    have hlt := hletters u (.head _)
    omega
  | case8 u text _ _ _ ih =>
    obtain ⟨s', hrest, rfl⟩ := eq_of_map_prepend h
    have hescapes' : ¬ unicodeMark <:+: text :=
      fun hin => hescapes (hin.trans (List.suffix_cons _ _).isInfix)
    obtain ⟨tail, htail⟩ := ih hrest hescapes' fun u hu => hletters u (.tail _ hu)
    exact ⟨tail, congrArg (u :: ·) htail⟩

/-- No string of an innocent text is a dangerous key. -/
theorem Innocent.scanString {s rest : Text} (h : Innocent text)
    (hscan : scanString text = some (s, rest)) : s ∉ dangerousKeys := by
  intro hkey
  refine h.keys s hkey (spelled_of_scanString hscan h.escapes fun u hu => ?_).isInfix
  exact of_decide_eq_true (List.all_eq_true.1 (toNat_of_dangerous s hkey) u hu)

/-! ## Objects -/

section

variable {N : Type}

theorem safe_putMember {key : Text} {v : Json N} (hkey : key ∉ dangerousKeys) (hv : Safe v) :
    ∀ {own : List (Text × Json N)}, SafeMembers own → SafeMembers (putMember key v own) := by
  intro own h
  induction own with
  | nil => exact ⟨hkey, hv, trivial⟩
  | cons m own ih =>
    rw [putMember]
    split
    case isTrue => exact ⟨hkey, hv, h.2.2⟩
    case isFalse =>
      split
      case isTrue => exact ⟨hkey, hv, h⟩
      case isFalse => exact ⟨h.1, h.2.1, ih h.2.2⟩

theorem safe_objectOf {members : List (Text × Json N)} (h : SafeMembers members) :
    SafeMembers (objectOf members) := by
  have hfrom : ∀ own, SafeMembers own →
      SafeMembers (members.foldl (fun own m => putMember m.1 m.2 own) own) := by
    induction members with
    | nil => exact fun _ hown => hown
    | cons m members ih => exact fun own hown => ih h.2.2 _ (safe_putMember h.1 h.2.1 hown)
  exact hfrom [] trivial

/-! ## Parsing -/

theorem skipSpace_suffix (text : Text) : skipSpace text <:+ text := List.dropWhile_suffix _

variable {text : Text}

theorem skipSpace_cons_suffix {rest : Text} {u : UInt16} (h : skipSpace text = u :: rest) :
    rest <:+ text :=
  (List.suffix_cons u rest).trans (h ▸ skipSpace_suffix text)

theorem expect_suffix {expected rest : Text} (h : expect expected text = some rest) :
    rest <:+ text := by
  unfold expect at h
  split at h
  · exact Option.some.inj h ▸ List.drop_suffix _ _
  · cases h

variable [JsNumber N]

/-- What is left is the end of the text; what was read of an innocent one is safe. -/
structure Reads (text rest : Text) (safe : Prop) : Prop where
  suffix : rest <:+ text
  safe : Innocent text → safe

theorem Reads.mono {text' rest rest' : Text} {safe safe' : Prop} (h : Reads text rest safe)
    (htext : text <:+ text') (hrest : rest' <:+ rest) (hsafe : safe → safe') :
    Reads text' rest' safe' :=
  ⟨hrest.trans (h.suffix.trans htext), fun hin => hsafe (h.safe (hin.suffix htext))⟩

def ReadsValues (N : Type) [JsNumber N] (fuel : Nat) : Prop :=
  ∀ (text : Text) (v : Json N) (rest : Text), parseValue fuel text = some (v, rest) →
    Reads text rest (Safe v)

def ReadsElements (N : Type) [JsNumber N] (fuel : Nat) : Prop :=
  ∀ (text : Text) (vs : List (Json N)) (rest : Text), parseElements fuel text = some (vs, rest) →
    Reads text rest (SafeElements vs)

def ReadsMembers (N : Type) [JsNumber N] (fuel : Nat) : Prop :=
  ∀ (text : Text) (ms : List (Text × Json N)) (rest : Text),
    parseMembers fuel text = some (ms, rest) → Reads text rest (SafeMembers ms)

theorem reads_elements_step {fuel : Nat} (hvalues : ReadsValues N fuel)
    (helements : ReadsElements N fuel) : ReadsElements N (fuel + 1) := by
  intro text vs rest h
  obtain ⟨⟨v, behind⟩, hvalue, h⟩ := Option.bind_eq_some_iff.1 h
  have hv := hvalues _ _ _ hvalue
  split at h
  case h_1 => cases h
  case h_2 u tail htail =>
    have htail := skipSpace_cons_suffix htail
    split at h
    case isTrue =>
      obtain ⟨rfl, rfl⟩ := Prod.mk.inj (Option.some.inj h)
      exact hv.mono List.suffix_rfl htail fun hsafe => ⟨hsafe, trivial⟩
    case isFalse =>
      split at h
      case isTrue =>
        obtain ⟨⟨vs', left⟩, hrest, hpair⟩ := Option.map_eq_some_iff.1 h
        obtain ⟨rfl, rfl⟩ := Prod.mk.inj hpair
        have hvs := helements _ _ _ hrest
        exact ⟨hvs.suffix.trans (htail.trans hv.suffix), fun hin =>
          ⟨hv.safe hin, hvs.safe (hin.suffix (htail.trans hv.suffix))⟩⟩
      case isFalse => cases h

theorem reads_members_step {fuel : Nat} (hvalues : ReadsValues N fuel)
    (hmembers : ReadsMembers N fuel) : ReadsMembers N (fuel + 1) := by
  intro text ms rest h
  rw [parseMembers] at h
  split at h
  case h_1 => cases h
  case h_2 u tail htail =>
    have htail := skipSpace_cons_suffix htail
    split at h
    case isFalse => cases h
    case isTrue =>
      obtain ⟨⟨key, behind⟩, hkey, h⟩ := Option.bind_eq_some_iff.1 h
      have hbehind := (scanString_suffix hkey).trans htail
      have hnot := fun hin : Innocent text => (hin.suffix htail).scanString hkey
      split at h
      case h_1 => cases h
      case h_2 u colon hcolon =>
        have hcolon := (skipSpace_cons_suffix hcolon).trans hbehind
        split at h
        case isFalse => cases h
        case isTrue =>
          obtain ⟨⟨v, behind⟩, hvalue, h⟩ := Option.bind_eq_some_iff.1 h
          have hv := hvalues _ _ _ hvalue
          have hleft := hv.suffix.trans hcolon
          split at h
          case h_1 => cases h
          case h_2 u comma hcomma =>
            have hcomma := (skipSpace_cons_suffix hcomma).trans hleft
            split at h
            case isTrue =>
              obtain ⟨rfl, rfl⟩ := Prod.mk.inj (Option.some.inj h)
              exact ⟨hcomma, fun hin => ⟨hnot hin, hv.safe (hin.suffix hcolon), trivial⟩⟩
            case isFalse =>
              split at h
              case isTrue =>
                obtain ⟨⟨ms', left⟩, hrest, hpair⟩ := Option.map_eq_some_iff.1 h
                obtain ⟨rfl, rfl⟩ := Prod.mk.inj hpair
                have hms := hmembers _ _ _ hrest
                exact ⟨hms.suffix.trans hcomma, fun hin =>
                  ⟨hnot hin, hv.safe (hin.suffix hcolon), hms.safe (hin.suffix hcomma)⟩⟩
              case isFalse => cases h

theorem reads_values_step {fuel : Nat} (helements : ReadsElements N fuel)
    (hmembers : ReadsMembers N fuel) : ReadsValues N (fuel + 1) := by
  intro text v rest h
  rw [parseValue] at h
  split at h
  case h_1 => cases h
  case h_2 u tail htail =>
    have hall : u :: tail <:+ text := htail ▸ skipSpace_suffix text
    have htail := skipSpace_cons_suffix htail
    split at h
    case isTrue =>
      obtain ⟨⟨s, behind⟩, hscan, hpair⟩ := Option.map_eq_some_iff.1 h
      obtain ⟨rfl, rfl⟩ := Prod.mk.inj hpair
      exact ⟨(scanString_suffix hscan).trans htail, fun _ => trivial⟩
    split at h
    case isTrue =>
      split at h
      case h_1 => cases h
      case h_2 w behind hbehind =>
        have hbehind := (skipSpace_cons_suffix hbehind).trans htail
        split at h
        case isTrue =>
          obtain ⟨rfl, rfl⟩ := Prod.mk.inj (Option.some.inj h)
          exact ⟨hbehind, fun _ => trivial⟩
        case isFalse =>
          obtain ⟨⟨vs, left⟩, hrest, hpair⟩ := Option.map_eq_some_iff.1 h
          obtain ⟨rfl, rfl⟩ := Prod.mk.inj hpair
          exact (helements _ _ _ hrest).mono htail List.suffix_rfl id
    split at h
    case isTrue =>
      split at h
      case h_1 => cases h
      case h_2 w behind hbehind =>
        have hbehind := (skipSpace_cons_suffix hbehind).trans htail
        split at h
        case isTrue =>
          obtain ⟨rfl, rfl⟩ := Prod.mk.inj (Option.some.inj h)
          exact ⟨hbehind, fun _ => trivial⟩
        case isFalse =>
          obtain ⟨⟨ms, left⟩, hrest, hpair⟩ := Option.map_eq_some_iff.1 h
          obtain ⟨rfl, rfl⟩ := Prod.mk.inj hpair
          exact (hmembers _ _ _ hrest).mono htail List.suffix_rfl safe_objectOf
    split at h
    case isTrue =>
      split at h
      case isTrue =>
        obtain ⟨rfl, rfl⟩ := Prod.mk.inj (Option.some.inj h)
        exact ⟨(List.dropWhile_suffix _).trans hall, fun _ => trivial⟩
      case isFalse => cases h
    -- one of the three names
    have hname : ∀ {expected : Text} (w : Json N), Safe w →
        (expect expected (u :: tail)).map (fun t => (w, t)) = some (v, rest) →
          Reads text rest (Safe v) := by
      intro expected w hw hmap
      obtain ⟨left, hexpect, hpair⟩ := Option.map_eq_some_iff.1 hmap
      obtain ⟨rfl, rfl⟩ := Prod.mk.inj hpair
      exact ⟨(expect_suffix hexpect).trans hall, fun _ => hw⟩
    rcases Option.or_eq_some_iff.1 h with hnull | ⟨-, h⟩
    · exact hname .null trivial hnull
    rcases Option.or_eq_some_iff.1 h with htrue | ⟨-, hfalse⟩
    · exact hname (.bool true) trivial htrue
    · exact hname (.bool false) trivial hfalse

theorem reads_parse (fuel : Nat) :
    ReadsValues N fuel ∧ ReadsElements N fuel ∧ ReadsMembers N fuel := by
  induction fuel with
  | zero =>
    refine ⟨fun _ _ _ h => ?_, fun _ _ _ h => ?_, fun _ _ _ h => ?_⟩ <;> cases h
  | succ fuel ih =>
    exact ⟨reads_values_step ih.2.1 ih.2.2, reads_elements_step ih.1 ih.2.1,
      reads_members_step ih.1 ih.2.2⟩

/-- What an innocent text stands for is safe. -/
theorem Innocent.parseJson (h : Innocent text) {v : Json N} (hparse : parseJson text = some v) :
    Safe v := by
  obtain ⟨⟨w, rest⟩, hvalue, hend⟩ := Option.bind_eq_some_iff.1 hparse
  split at hend
  · exact Option.some.inj hend ▸ ((reads_parse _).1 _ _ _ hvalue).safe h
  · cases hend

omit [JsNumber N] in
mutual

/-- What the reviver has run on is safe. -/
theorem safe_revive : ∀ v : Json N, Safe (revive v)
  | .arr elements => by
    exact safe_reviveElements elements
  | .obj members => by
    exact safe_reviveMembers members
  | .null => by
    trivial
  | .bool _ => by
    trivial
  | .num _ => by
    trivial
  | .str _ => by
    trivial

theorem safe_reviveElements : ∀ vs : List (Json N), SafeElements (reviveElements vs)
  | [] => trivial
  | v :: vs => ⟨safe_revive v, safe_reviveElements vs⟩

theorem safe_reviveMembers : ∀ ms : List (Text × Json N), SafeMembers (reviveMembers ms)
  | [] => trivial
  | (key, v) :: ms => by
    rw [reviveMembers]
    split
    case isTrue => exact safe_reviveMembers ms
    case isFalse hkey => exact ⟨hkey, safe_revive v, safe_reviveMembers ms⟩

end

/-- Of every text the scan and the reviver make what the reviver alone would, and it is safe. -/
theorem parseWire_eq_revived (text : Text) : parseWire (N := N) text = (parseJson text).map revive ∧
      ∀ v : Json N, parseWire text = some v → Safe v := by
  have heq : parseWire (N := N) text = (parseJson text).map revive := by
    unfold parseWire
    split
    case isTrue => rfl
    case isFalse hscan =>
      cases hparse : parseJson (N := N) text with
      | none => rfl
      | some v =>
        have hsafe := (innocent_of_not_suspect hscan).parseJson hparse
        rw [Option.map_some, revive_of_safe hsafe]
  refine ⟨heq, fun v hv => ?_⟩
  obtain ⟨w, -, rfl⟩ := Option.map_eq_some_iff.1 (heq ▸ hv)
  exact safe_revive w

end

end SigxActors.Codec
