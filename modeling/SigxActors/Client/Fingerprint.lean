/-
  Client/Fingerprint.lean --- what the suppression of a re-seed compares.

  Source: `packages/actors/src/app/live-shared.ts` (`fingerprint`, and `deliverValue` of
  `createSubscriptionSet`).

  Two values have one print where the one turns into the other by exchanges that the print does not
  show: a map is printed as the array that it is unfolded to, a property that is undefined is not
  printed, and so on.
-/
import SigxActors.Js.Stringify
import SigxActors.Client.LiveShared

set_option autoImplicit false

namespace SigxActors.Client

open SigxActors.Js

variable {N : Type} [JsNumber N]

/-! ## The print -/

/-- `@map`. -/
def mapTag : Text := [0x40, 0x6D, 0x61, 0x70]

/-- `@set`. -/
def setTag : Text := [0x40, 0x73, 0x65, 0x74]

/-- `@bigint:`. -/
def bigintTag : Text := [0x40, 0x62, 0x69, 0x67, 0x69, 0x6E, 0x74, 0x3A]

/-- `undefined`. -/
def undefinedText : Text := [0x75, 0x6E, 0x64, 0x65, 0x66, 0x69, 0x6E, 0x65, 0x64]

/-- What a map is unfolded to. -/
def unfoldMap (entries : List (Value N × Value N)) : Value N :=
  .arr [.str mapTag, .arr (entries.map fun entry => .arr [entry.1, entry.2])]

def unfoldSet (elements : List (Value N)) : Value N := .arr [.str setTag, .arr elements]

/-- The replacer of `fingerprint`. -/
def replacer : Value N → Value N
  | .map entries => unfoldMap entries
  | .set elements => unfoldSet elements
  | .bigint n => .str (bigintTag ++ intText n)
  | v => v

mutual

/-- How deep a value nests what is printed of it. -/
def depth : Value N → Nat
  | .arr elements => depthElements elements + 1
  | .obj members => depthMembers members + 1
  | .map entries => depthEntries entries + 3
  | .set elements => depthElements elements + 2
  | _ => 1

def depthElements : List (Value N) → Nat
  | [] => 0
  | v :: rest => max (depth v) (depthElements rest)

def depthMembers : List (Text × Value N) → Nat
  | [] => 0
  | (_, v) :: rest => max (depth v) (depthMembers rest)

def depthEntries : List (Value N × Value N) → Nat
  | [] => 0
  | (key, v) :: rest => max (depth key) (max (depth v) (depthEntries rest))

end

/-- `fingerprint`; none where it returns `null`. -/
def fingerprint (v : Value N) : Option Text :=
  match serializeProperty replacer (depth v) v with
  | some printed => some (printed.getD undefinedText)
  | none => none

/-! ## The exchanges -/

/-- The second value comes of the first by exchanges that a print does not show. -/
inductive Alike : Value N → Value N → Prop
  | refl (v : Value N) : Alike v v
  | symm {v w : Value N} (h : Alike v w) : Alike w v
  | trans {u v w : Value N} (h : Alike u v) (h' : Alike v w) : Alike u w
  /-- A map, for the array `["@map", …]` of its entries. -/
  | map (entries : List (Value N × Value N)) : Alike (.map entries) (unfoldMap entries)
  /-- A set, for the array `["@set", …]` of its elements. -/
  | set (elements : List (Value N)) : Alike (.set elements) (unfoldSet elements)
  /-- A bigint, for the string `@bigint:…`. -/
  | bigint (n : Int) : Alike (.bigint n) (.str (bigintTag ++ intText n))
  /-- A date, for the string of its time. -/
  | date (time : Int) : Alike (.date (some time)) (.str (toISOString time))
  | invalidDate : Alike (.date none) .null
  /-- A number that is not finite, for `null`. -/
  | notFinite (n : N) (h : JsNumber.toText n = none) : Alike (.num n) .null
  /-- `0`, for `-0`. -/
  | sameText (n m : N) (h : JsNumber.toText n = JsNumber.toText m) : Alike (.num n) (.num m)
  /-- A property that is undefined, for none. -/
  | dropped (members rest : List (Text × Value N)) (key : Text) :
      Alike (.obj (members ++ (key, .undefined) :: rest)) (.obj (members ++ rest))
  /-- An element that is undefined, for `null`. -/
  | missing (elements rest : List (Value N)) :
      Alike (.arr (elements ++ .undefined :: rest)) (.arr (elements ++ .null :: rest))
  /-- An exchange within an array. -/
  | element (elements rest : List (Value N)) {v w : Value N} (h : Alike v w) :
      Alike (.arr (elements ++ v :: rest)) (.arr (elements ++ w :: rest))
  /-- An exchange within an object. -/
  | member (members rest : List (Text × Value N)) (key : Text) {v w : Value N} (h : Alike v w) :
      Alike (.obj (members ++ (key, v) :: rest)) (.obj (members ++ (key, w) :: rest))

/-! ## What JSON carries of a value -/

mutual

/-- None for `undefined`. -/
def carries : Value N → Option (Json NumberToken)
  | .undefined => none
  | .null => some .null
  | .bool b => some (.bool b)
  | .num n =>
      match h : JsNumber.toText n with
      | some text => some (.num ⟨text, JsNumber.token h⟩)
      | none => some .null
  | .str s => some (.str s)
  | .bigint n => some (.str (bigintTag ++ intText n))
  | .date (some time) => some (.str (toISOString time))
  | .date none => some .null
  | .arr elements => some (.arr (carriesElements elements))
  | .obj members => some (.obj (carriesMembers members))
  | .map entries => some (.arr [.str mapTag, .arr (carriesEntries entries)])
  | .set elements => some (.arr [.str setTag, .arr (carriesElements elements)])

def carriesElements : List (Value N) → List (Json NumberToken)
  | [] => []
  | v :: rest => (carries v).getD .null :: carriesElements rest

def carriesMembers : List (Text × Value N) → List (Text × Json NumberToken)
  | [] => []
  | (key, v) :: rest =>
      match carries v with
      | some j => (key, j) :: carriesMembers rest
      | none => carriesMembers rest

def carriesEntries : List (Value N × Value N) → List (Json NumberToken)
  | [] => []
  | (key, v) :: rest =>
      .arr [(carries key).getD .null, (carries v).getD .null] :: carriesEntries rest

end

theorem carriesElements_append (elements rest : List (Value N)) :
    carriesElements (elements ++ rest) = carriesElements elements ++ carriesElements rest := by
  induction elements with
  | nil => rfl
  | cons v elements ih => rw [List.cons_append, carriesElements, ih, carriesElements, List.cons_append]

theorem carriesMembers_append (members rest : List (Text × Value N)) :
    carriesMembers (members ++ rest) = carriesMembers members ++ carriesMembers rest := by
  induction members with
  | nil => rfl
  | cons m members ih =>
    rw [List.cons_append, carriesMembers, carriesMembers, ih]
    cases carries m.2 <;> rfl

theorem carriesEntries_eq (entries : List (Value N × Value N)) :
    carriesEntries entries = carriesElements (entries.map fun entry => .arr [entry.1, entry.2]) := by
  induction entries with
  | nil => rfl
  | cons entry entries ih =>
    rw [carriesEntries, List.map_cons, carriesElements, ih, carries]
    rfl

theorem carries_num {n : N} {text : Text} (h : JsNumber.toText n = some text) :
    carries (.num n) = some (.num ⟨text, JsNumber.token h⟩) := by
  rw [carries]
  split
  · rename_i text' h'
    cases h.symm.trans h'
    rfl
  · rename_i h'
    exact nomatch h.symm.trans h'

theorem carries_notFinite {n : N} (h : JsNumber.toText n = none) :
    carries (.num n) = some .null := by
  rw [carries]
  split
  · rename_i text' h'
    exact nomatch h.symm.trans h'
  · rfl

variable {v : Value N}

/-- An exchange changes nothing of what JSON carries. -/
theorem Alike.carries_eq {w : Value N} (h : Alike v w) : carries v = carries w := by
  induction h with
  | refl v => rfl
  | symm _ ih => exact ih.symm
  | trans _ _ ih ih' => exact ih.trans ih'
  | map entries =>
    rw [carries, unfoldMap, carries, carriesElements, carriesElements, carriesElements, carries,
      carries, carriesEntries_eq]
    rfl
  | set elements =>
    rfl
  | bigint | date | invalidDate => rw [carries, carries]
  | notFinite n h => rw [carries_notFinite h, carries]
  | sameText n m h =>
    cases hm : JsNumber.toText m with
    | none => rw [carries_notFinite hm, carries_notFinite (h.trans hm)]
    | some text => rw [carries_num hm, carries_num (h.trans hm)]
  | dropped members rest key =>
    rw [carries, carries, carriesMembers_append, carriesMembers_append, carriesMembers, carries]
  | missing elements rest =>
    rw [carries, carries, carriesElements_append, carriesElements_append, carriesElements,
      carriesElements, carries, carries]
    rfl
  | element elements rest _ ih =>
    rw [carries, carries, carriesElements_append, carriesElements_append, carriesElements,
      carriesElements, ih]
  | member members rest key _ ih =>
    rw [carries, carries, carriesMembers_append, carriesMembers_append, carriesMembers,
      carriesMembers, ih]

section

variable (N)

open Classical in
mutual

/-- A value that is carried as it is. -/
noncomputable def restored : Json NumberToken → Value N
  | .null => .null
  | .bool b => .bool b
  | .num t =>
      if h : ∃ n : N, JsNumber.toText n = some t.text then .num h.choose else .null
  | .str s => .str s
  | .arr elements => .arr (restoredElements elements)
  | .obj members => .obj (restoredMembers members)

noncomputable def restoredElements : List (Json NumberToken) → List (Value N)
  | [] => []
  | j :: rest => restored j :: restoredElements rest

noncomputable def restoredMembers : List (Text × Json NumberToken) → List (Text × Value N)
  | [] => []
  | (key, j) :: rest => (key, restored j) :: restoredMembers rest

end

/-- Of `undefined`, nothing is carried. -/
noncomputable def restoredOption : Option (Json NumberToken) → Value N
  | some j => restored N j
  | none => .undefined

end

/-- An element is exchanged for what JSON carries of it. -/
theorem alike_element (elements rest : List (Value N)) (h : Alike v (restoredOption N (carries v))) :
    Alike (.arr (elements ++ v :: rest))
      (.arr (elements ++ restored N ((carries v).getD .null) :: rest)) := by
  have hexchanged := Alike.element elements rest h
  cases hv : carries v with
  | some j =>
    rw [hv] at hexchanged
    exact hexchanged
  | none =>
    rw [hv] at hexchanged
    exact hexchanged.trans (.missing elements rest)

mutual

/-- A value is exchanged for what JSON carries of it. -/
theorem alike_restored : ∀ v : Value N, Alike v (restoredOption N (carries v))
  | .undefined => by
    exact .refl _
  | .null => by
    exact .refl _
  | .bool b => by
    exact .refl _
  | .num n => by
    cases h : JsNumber.toText n with
    | none =>
      rw [carries_notFinite h, restoredOption, restored]
      exact .notFinite n h
    | some text =>
      have hsome : ∃ m : N, JsNumber.toText m = some text := ⟨n, h⟩
      rw [carries_num h, restoredOption, restored, dif_pos hsome]
      exact .sameText n _ (h.trans hsome.choose_spec.symm)
  | .str s => by
    exact .refl _
  | .bigint n => by
    exact .bigint n
  | .date (some time) => by
    exact .date time
  | .date none => by
    exact .invalidDate
  | .arr elements => by
    exact alike_elements elements []
  | .obj members => by
    exact alike_members members []
  | .map entries => by
    have hentries : Alike (.arr (entries.map fun entry => .arr [entry.1, entry.2]))
        (.arr (restoredElements N (carriesEntries entries))) := alike_entries entries []
    exact (Alike.map entries).trans (.element [.str mapTag] [] hentries)
  | .set elements => by
    have helements : Alike (.arr elements)
        (.arr (restoredElements N (carriesElements elements))) := alike_elements elements []
    exact (Alike.set elements).trans (.element [.str setTag] [] helements)

theorem alike_elements : ∀ elements front : List (Value N), Alike (.arr (front ++ elements))
    (.arr (front ++ restoredElements N (carriesElements elements)))
  | [], front => by
    exact .refl _
  | v :: rest, front => by
    have hrest := alike_elements rest (front ++ [restored N ((carries v).getD .null)])
    rw [List.append_assoc, List.append_assoc] at hrest
    exact (alike_element front rest (alike_restored v)).trans hrest

theorem alike_members : ∀ members front : List (Text × Value N), Alike (.obj (front ++ members))
    (.obj (front ++ restoredMembers N (carriesMembers members)))
  | [], front => by
    exact .refl _
  | (key, v) :: rest, front => by
    have hv := Alike.member front rest key (alike_restored v)
    rw [carriesMembers]
    cases hcarried : carries v with
    | some j =>
      have hrest := alike_members rest (front ++ [(key, restored N j)])
      rw [List.append_assoc, List.append_assoc] at hrest
      rw [hcarried] at hv
      exact hv.trans hrest
    | none =>
      rw [hcarried] at hv
      exact (hv.trans (.dropped front rest key)).trans (alike_members rest front)

theorem alike_entries : ∀ (entries : List (Value N × Value N)) (front : List (Value N)),
    Alike (.arr (front ++ entries.map fun entry => .arr [entry.1, entry.2]))
      (.arr (front ++ restoredElements N (carriesEntries entries)))
  | [], front => by
    exact .refl _
  | (key, v) :: rest, front => by
    have hkey : Alike (.arr [key, v]) (.arr [restored N ((carries key).getD .null), v]) :=
      alike_element [] [v] (alike_restored key)
    have hv : Alike (.arr [restored N ((carries key).getD .null), v])
        (.arr [restored N ((carries key).getD .null), restored N ((carries v).getD .null)]) :=
      alike_element [_] [] (alike_restored v)
    have hentry := Alike.element front (rest.map fun entry => .arr [entry.1, entry.2])
      (hkey.trans hv)
    have hrest := alike_entries rest (front ++ [.arr [restored N ((carries key).getD .null),
      restored N ((carries v).getD .null)]])
    rw [List.append_assoc, List.append_assoc] at hrest
    exact hentry.trans hrest

end

/-- The exchanges are what JSON does not carry, and no more. -/
theorem alike_iff (v w : Value N) : Alike v w ↔ carries v = carries w := by
  refine ⟨Alike.carries_eq, fun h => ?_⟩
  have hw := (alike_restored w).symm
  rw [← h] at hw
  exact (alike_restored v).trans hw

/-! ## The print is of what JSON carries -/

theorem commaJoin_elements : ∀ elements : List (Json NumberToken),
    commaJoin (elements.map stringify) = stringifyElements elements
  | [] => rfl
  | [_] => rfl
  | v :: w :: rest => by
    rw [List.map_cons, List.map_cons, commaJoin, stringifyElements, ← commaJoin_elements (w :: rest),
      List.map_cons]

theorem commaJoin_members : ∀ members : List (Text × Json NumberToken),
    commaJoin (members.map fun m => quote m.1 ++ 0x3A :: stringify m.2) = stringifyMembers members
  | [] => rfl
  | [(_, _)] => rfl
  | (key, v) :: m :: rest => by
    rw [List.map_cons, List.map_cons, commaJoin, stringifyMembers, ← commaJoin_members (m :: rest),
      List.map_cons, List.append_assoc, List.cons_append]

theorem printed_elements (elements : List (Value N)) :
    (elements.map fun v => (carries v).map stringify).map (·.getD nullText) =
      (carriesElements elements).map stringify := by
  induction elements with
  | nil => rfl
  | cons v elements ih =>
    rw [List.map_cons, List.map_cons, ih, carriesElements, List.map_cons]
    cases carries v <;> rfl

theorem printed_members (members : List (Text × Value N)) :
    (members.map fun m => ((carries m.2).map stringify).map fun text =>
        quote m.1 ++ 0x3A :: text).filterMap id =
      (carriesMembers members).map fun m => quote m.1 ++ 0x3A :: stringify m.2 := by
  induction members with
  | nil => rfl
  | cons m members ih =>
    rw [List.map_cons, carriesMembers]
    cases carries m.2 with
    | none =>
      exact ih
    | some j =>
      rw [Option.map_some, Option.map_some, List.filterMap_cons, ih]
      rfl

/-- An array whose elements are printed. -/
theorem serialize_arr {fuel : Nat} {elements : List (Value N)}
    (hv : replacer v.toJSON = .arr elements) (h : elements.mapM (serializeProperty replacer fuel) =
      some (elements.map fun v => (carries v).map stringify)) :
    serializeProperty replacer (fuel + 1) v =
      some (some (stringify (.arr (carriesElements elements) : Json NumberToken))) := by
  rw [serializeProperty, hv]
  dsimp only
  rw [h, Option.map_some, printed_elements, commaJoin_elements, stringify]

/-- A tag and an array that is printed. -/
theorem serialize_unfolded {fuel : Nat} (tag : Text) {elements : List (Value N)}
    (h : serializeProperty replacer (fuel + 1) (.arr elements) =
      some (some (stringify (.arr (carriesElements elements) : Json NumberToken)))) :
    [Value.str tag, .arr elements].mapM (serializeProperty replacer (fuel + 1)) =
      some ([Value.str tag, .arr elements].map fun v => (carries v).map stringify) := by
  rw [List.mapM_cons, List.mapM_cons, h, List.map_cons, List.map_cons, carries, carries]
  rfl

theorem depth_pos {M : Type} (v : Value M) : 0 < depth v := by
  cases v <;> exact Nat.succ_pos _

mutual

/-- With fuel for it, what is printed of a value is what JSON carries of it. -/
theorem serialize_carries : ∀ (v : Value N) {fuel : Nat}, depth v ≤ fuel →
    serializeProperty replacer fuel v = some ((carries v).map stringify)
  | .undefined, fuel + 1, _ => by
    rfl
  | .null, fuel + 1, _ => by
    rfl
  | .bool b, fuel + 1, _ => by
    cases b <;> rfl
  | .num n, fuel + 1, _ => by
    have hprinted : serializeProperty replacer (fuel + 1) (.num n) =
        some (some ((JsNumber.toText n).getD nullText)) := rfl
    rw [hprinted]
    cases h : JsNumber.toText n with
    | none =>
      rw [carries_notFinite h]
      rfl
    | some text =>
      rw [carries_num h]
      rfl
  | .str s, fuel + 1, _ => by
    rfl
  | .bigint n, fuel + 1, _ => by
    rfl
  | .date (some time), fuel + 1, _ => by
    rfl
  | .date none, fuel + 1, _ => by
    rfl
  | .arr elements, fuel + 1, hfuel => by
    exact serialize_arr rfl (serialize_elements elements (Nat.le_of_succ_le_succ hfuel))
  | .obj members, fuel + 1, hfuel => by
    have hmembers := serialize_members members (Nat.le_of_succ_le_succ hfuel)
    have hreplaced : replacer (Value.obj members).toJSON = .obj members := rfl
    rw [serializeProperty, hreplaced, carries]
    dsimp only
    rw [hmembers, Option.map_some, printed_members, commaJoin_members]
    rfl
  | .map entries, fuel + 3, hfuel => by
    have hentries := serialize_entries entries (Nat.le_of_add_le_add_right hfuel)
    rw [(Alike.map entries).carries_eq, unfoldMap, carries]
    exact serialize_arr rfl (serialize_unfolded mapTag (serialize_arr rfl hentries))
  | .set elements, fuel + 2, hfuel => by
    have helements := serialize_elements elements (Nat.le_of_add_le_add_right hfuel)
    exact serialize_arr rfl (serialize_unfolded setTag (serialize_arr rfl helements))
  | .map entries, 2, hfuel => by
    rw [depth] at hfuel
    omega
  | .map entries, 1, hfuel => by
    rw [depth] at hfuel
    omega
  | .set elements, 1, hfuel => by
    rw [depth] at hfuel
    omega
  | v, 0, hfuel => by
    have hpos := depth_pos v
    omega

theorem serialize_elements : ∀ (elements : List (Value N)) {fuel : Nat},
    depthElements elements ≤ fuel → elements.mapM (serializeProperty replacer fuel) =
      some (elements.map fun v => (carries v).map stringify)
  | [], fuel, _ => rfl
  | v :: rest, fuel, hfuel => by
    obtain ⟨hv, hrest⟩ := Nat.max_le.1 hfuel
    rw [List.mapM_cons, serialize_carries v hv, serialize_elements rest hrest]
    rfl

theorem serialize_members : ∀ (members : List (Text × Value N)) {fuel : Nat},
    depthMembers members ≤ fuel →
      (members.mapM fun m => (serializeProperty replacer fuel m.2).map fun printed =>
        printed.map fun text => quote m.1 ++ 0x3A :: text) =
      some (members.map fun m => ((carries m.2).map stringify).map fun text =>
        quote m.1 ++ 0x3A :: text)
  | [], fuel, _ => rfl
  | (key, v) :: rest, fuel, hfuel => by
    obtain ⟨hv, hrest⟩ := Nat.max_le.1 hfuel
    rw [List.mapM_cons, serialize_carries v hv, serialize_members rest hrest]
    rfl

theorem serialize_entries : ∀ (entries : List (Value N × Value N)) {fuel : Nat},
    depthEntries entries ≤ fuel →
      (entries.map fun entry => Value.arr [entry.1, entry.2]).mapM
        (serializeProperty replacer (fuel + 1)) =
      some ((entries.map fun entry => Value.arr [entry.1, entry.2]).map fun v =>
        (carries v).map stringify)
  | [], fuel, _ => rfl
  | (key, v) :: rest, fuel, hfuel => by
    obtain ⟨hkey, hfuel⟩ := Nat.max_le.1 hfuel
    obtain ⟨hv, hrest⟩ := Nat.max_le.1 hfuel
    have hentry : serializeProperty replacer (fuel + 1) (.arr [key, v]) =
        some ((carries (.arr [key, v])).map stringify) := by
      refine serialize_arr rfl ?_
      rw [List.mapM_cons, List.mapM_cons, serialize_carries key hkey, serialize_carries v hv]
      rfl
    rw [List.map_cons, List.mapM_cons, hentry, serialize_entries rest hrest]
    rfl

end

/-- The print is there, and is the text of what JSON carries. -/
theorem fingerprint_eq (v : Value N) :
    fingerprint v = some (((carries v).map stringify).getD undefinedText) := by
  unfold fingerprint
  rw [serialize_carries v (Nat.le_refl _)]

/-! ## Two values of one print -/

theorem mem_carriesMembers {members : List (Text × Value N)} {key : Text} {j : Json NumberToken}
    (h : (key, j) ∈ carriesMembers members) : ∃ v, (key, v) ∈ members := by
  induction members with
  | nil => cases h
  | cons m members ih =>
    rw [carriesMembers] at h
    split at h
    · rcases List.mem_cons.1 h with heq | h
      · cases heq
        exact ⟨m.2, List.mem_cons_self⟩
      · exact (ih h).imp fun v hv => List.mem_cons_of_mem m hv
    · exact (ih h).imp fun v hv => List.mem_cons_of_mem m hv

theorem enumerated_carries {members : List (Text × Value N)} (h : Enumerated members) :
    Enumerated (carriesMembers members) := by
  induction members with
  | nil => exact .nil
  | cons m members ih =>
    obtain ⟨hfirst, hrest⟩ := List.pairwise_cons.1 h
    rw [carriesMembers]
    split
    · refine List.pairwise_cons.2 ⟨fun other hother => ?_, ih hrest⟩
      obtain ⟨v, hv⟩ := mem_carriesMembers hother
      exact hfirst (other.1, v) hv
    · exact ih hrest

mutual

/-- What JSON carries of a value, it carries as it is. -/
theorem carried_carries : ∀ v : Value N, v.Ordered → Carried ((carries v).getD .null)
  | .undefined, _ => by
    exact trivial
  | .null, _ => by
    exact trivial
  | .bool b, _ => by
    exact trivial
  | .num n, _ => by
    cases h : JsNumber.toText n with
    | none =>
      rw [carries_notFinite h]
      exact trivial
    | some text =>
      rw [carries_num h]
      exact NumberToken.carried _
  | .str s, _ => by
    exact trivial
  | .bigint n, _ => by
    exact trivial
  | .date (some time), _ => by
    exact trivial
  | .date none, _ => by
    exact trivial
  | .arr elements, h => by
    exact carried_elements elements h
  | .obj members, h => by
    exact ⟨enumerated_carries h.1, carried_members members h.2⟩
  | .map entries, h => by
    exact ⟨trivial, carried_entries entries h, trivial⟩
  | .set elements, h => by
    exact ⟨trivial, carried_elements elements h, trivial⟩

theorem carried_elements : ∀ elements : List (Value N), OrderedElements elements →
    CarriedElements (carriesElements elements)
  | [], _ => by
    exact trivial
  | v :: rest, h => by
    exact ⟨carried_carries v h.1, carried_elements rest h.2⟩

theorem carried_members : ∀ members : List (Text × Value N), OrderedMembers members →
    CarriedMembers (carriesMembers members)
  | [], _ => by
    exact trivial
  | (key, v) :: rest, h => by
    have hv := carried_carries v h.1
    rw [carriesMembers]
    split
    · rename_i j hj
      rw [hj] at hv
      exact ⟨hv, carried_members rest h.2⟩
    · exact carried_members rest h.2

theorem carried_entries : ∀ entries : List (Value N × Value N), OrderedEntries entries →
    CarriedElements (carriesEntries entries)
  | [], _ => by
    exact trivial
  | (key, v) :: rest, h => by
    exact ⟨⟨carried_carries key h.1, carried_carries v h.2.1, trivial⟩, carried_entries rest h.2.2⟩

end

/-- No value of JSON prints as `undefined` does. -/
theorem stringify_ne_undefined {j : Json NumberToken} (h : Carried j) :
    stringify j ≠ undefinedText := by
  intro heq
  have hparsed := parseJson_stringify h
  have hnone : parseJson (N := NumberToken) undefinedText = none := rfl
  rw [heq, hnone] at hparsed
  cases hparsed

/-- Two values have one print where the one is exchanged for the other. -/
theorem fingerprint_eq_iff {w : Value N} (hv : v.Ordered) (hw : w.Ordered) :
    fingerprint v = fingerprint w ↔ Alike v w := by
  have hcarried := carried_carries v hv
  have hcarried' := carried_carries w hw
  rw [alike_iff, fingerprint_eq, fingerprint_eq, Option.some_inj]
  refine ⟨fun h => ?_, fun h => by rw [h]⟩
  cases hj : carries v with
  | none =>
    cases hk : carries w with
    | none => rfl
    | some k =>
      rw [hk] at hcarried'
      rw [hj, hk] at h
      exact absurd h.symm (stringify_ne_undefined hcarried')
  | some j =>
    rw [hj] at hcarried
    cases hk : carries w with
    | none =>
      rw [hj, hk] at h
      exact absurd h (stringify_ne_undefined hcarried)
    | some k =>
      rw [hk] at hcarried'
      rw [hj, hk] at h
      exact congrArg some (stringify_inj hcarried hcarried' h)

/-! ## Suppression -/

/-- A value that is pushed. -/
abbrev PushedValue (N : Type) : Type := { v : Value N // v.Ordered }

namespace SubscriptionSet

section

variable {K P V E : Type} {print : V → Option P} {s t : SubscriptionSet K P V E}

/-- The print of an entry is that of its value. -/
def Printed (print : V → Option P) (entry : SubscriptionEntry K P V E) : Prop :=
  entry.seeded = true → ∃ v, entry.value = some v ∧ entry.print = print v

/-- All are. -/
def AllPrinted (print : V → Option P) (s : SubscriptionSet K P V E) : Prop :=
  ∀ (k : Nat) (entry : SubscriptionEntry K P V E), s.made[k]? = some entry → Printed print entry

section

variable (h : AllPrinted print s)
include h

theorem AllPrinted.modify {k : Nat}
    {f : SubscriptionEntry K P V E → SubscriptionEntry K P V E} (ht : t.made = s.made.modify k f)
    (hf : ∀ entry, Printed print entry → Printed print (f entry)) : AllPrinted print t := by
  intro j entry hget
  rw [ht] at hget
  rcases of_modify_get hget with ⟨entry₀, rfl, hget₀, rfl⟩ | ⟨-, hget₀⟩
  · exact hf entry₀ (h j entry₀ hget₀)
  · exact h j entry hget₀

theorem AllPrinted.same (ht : t.made = s.made) : AllPrinted print t := by
  intro k entry hget
  rw [ht] at hget
  exact h k entry hget

theorem AllPrinted.subscribe [DecidableEq K] (id : K) (onError : Bool) :
    AllPrinted print (s.subscribe id onError) := by
  have hresolved : AllPrinted print (s.resolve id).1 := by
    unfold resolve
    split
    · exact h
    intro k entry hget
    rcases of_append_get hget with ⟨-, rfl⟩ | ⟨-, hget⟩
    · exact nofun
    · exact h k entry hget
  unfold SubscriptionSet.subscribe join
  split
  · exact hresolved
  · exact hresolved.modify rfl fun _ hentry => hentry

theorem AllPrinted.dispose [DecidableEq K] (i : Nat) : AllPrinted print (s.dispose i) := by
  unfold SubscriptionSet.dispose
  split
  · exact h
  split
  · exact h
  split
  · dsimp only
    split <;> exact h.modify rfl fun _ hentry => hentry
  · exact h

theorem AllPrinted.deliverValue [DecidableEq P] (k : Nat) (v : V) :
    AllPrinted print (deliverValue print s k v).1 := by
  unfold SubscriptionSet.deliverValue
  split
  · exact h
  dsimp only
  split
  · exact h.modify rfl fun _ hentry => hentry
  · exact h.modify rfl fun _ _ _ => ⟨v, rfl, rfl⟩

theorem AllPrinted.step [DecidableEq K] [DecidableEq P] {l : Label K V E}
    (hstep : SubscriptionSet.step print s l = some t) : AllPrinted print t := by
  cases l with
  | subscribe id onError =>
    cases hstep
    exact h.subscribe id onError
  | dispose i =>
    cases hstep
    exact h.dispose i
  | value k v =>
    obtain ⟨-, rfl⟩ := guard_taken hstep
    exact h.deliverValue k v
  | error k e =>
    unfold SubscriptionSet.step deliverError at hstep
    obtain ⟨-, hstep⟩ := guard_passed hstep
    split at hstep
    · cases hstep
      exact h
    · cases hstep
      exact h.modify rfl fun _ hentry => hentry
  | notify =>
    unfold SubscriptionSet.step SubscriptionSet.notify at hstep
    dsimp only at hstep
    split at hstep
    · cases hstep
    · cases hstep
      exact h.same rfl
  | replay =>
    unfold SubscriptionSet.step SubscriptionSet.replay at hstep
    dsimp only at hstep
    obtain ⟨-, hstep⟩ := guard_passed hstep
    split at hstep
    · cases hstep
    split at hstep
    · cases hstep
      exact h.same rfl
    · split at hstep
      · cases hstep
        exact h.same rfl
      · split at hstep
        · cases hstep
          exact h.same rfl
        · cases hstep
          refine h.same ?_
          split <;> rfl
  | clear =>
    cases hstep
    exact h.same rfl

end

theorem AllPrinted.reachable [DecidableEq K] [DecidableEq P]
    (h : (subscriptionSet print).Reachable s) : AllPrinted print s := by
  refine h.invariant (fun u hinit => ?_) fun u l u' hu _ hstep => hu.step hstep
  cases hinit
  exact nofun

end

end SubscriptionSet

/-- What is suppressed is what has the print of the value that was delivered. -/
theorem suppresses_iff {P V E : Type} [DecidableEq P] {print : V → Option P} {K : Type}
    {entry : SubscriptionEntry K P V E} {u v : V} (hseeded : entry.seeded = true)
    (hprint : entry.print = print u) (hsome : (print v).isSome = true) :
    entry.suppresses print v = true ↔ print u = print v := by
  unfold SubscriptionEntry.suppresses
  rw [hseeded, hsome, hprint, Bool.true_and, Bool.true_and, beq_iff_eq]
  exact eq_comm

/-- A print tells two values apart where the one is not exchanged for the other, and it is then that
the second is delivered after the first. -/
theorem fingerprint_injective (a b : PushedValue N) :
    ((∀ print, fingerprint a.1 = some print → fingerprint b.1 = some print → a = b) ↔
      (Alike a.1 b.1 → a = b)) ∧
    ∀ {K E : Type} [DecidableEq K] (s : SubscriptionSet K Text (PushedValue N) E),
      (subscriptionSet fun v : PushedValue N => fingerprint v.1).Reachable s →
      ∀ (k : Nat) (entry : SubscriptionEntry K Text (PushedValue N) E), s.made[k]? = some entry →
        entry.seeded = true → entry.value = some a →
        (((SubscriptionSet.deliverValue (fun v => fingerprint v.1) s k b).2 = false → a = b) ↔
          (Alike a.1 b.1 → a = b)) := by
  have hiff := fingerprint_eq_iff a.2 b.2
  refine ⟨⟨fun h halike => ?_, fun h print ha hb => h (hiff.1 (ha.trans hb.symm))⟩,
    fun {K E} _ s hreach k entry hget hseeded hvalue => ?_⟩
  · exact h _ (fingerprint_eq a.1) ((hiff.2 halike).symm.trans (fingerprint_eq a.1))
  · obtain ⟨u, hu, hprint⟩ := SubscriptionSet.AllPrinted.reachable hreach k entry hget hseeded
    cases hvalue.symm.trans hu
    have hsome : (fingerprint b.1).isSome = true := by
      rw [fingerprint_eq]
      rfl
    have hsuppresses : entry.suppresses (fun v : PushedValue N => fingerprint v.1) b = true ↔
        Alike a.1 b.1 := (suppresses_iff hseeded hprint hsome).trans hiff
    have hdelivers : (SubscriptionSet.deliverValue (fun v => fingerprint v.1) s k b).2 = false ↔
        entry.suppresses (fun v : PushedValue N => fingerprint v.1) b = true := by
      unfold SubscriptionSet.deliverValue
      rw [hget]
      dsimp only
      split
      · rename_i hsame
        exact iff_of_true rfl hsame
      · rename_i hother
        exact iff_of_false nofun hother
    rw [hdelivers, hsuppresses]

/-- `[true]` and `[false]` are told apart. -/
theorem fingerprint_injective_booleans : ∀ print,
    fingerprint (.arr [.bool true] : Value Int) = some print →
      fingerprint (.arr [.bool false] : Value Int) = some print →
        (⟨.arr [.bool true], trivial, trivial⟩ : PushedValue Int) =
          ⟨.arr [.bool false], trivial, trivial⟩ := by
  have hother : ¬Alike (.arr [.bool true] : Value Int) (.arr [.bool false]) := by
    intro halike
    have hprint : fingerprint (.arr [.bool true] : Value Int) =
        fingerprint (.arr [.bool false] : Value Int) := by
      rw [fingerprint_eq, fingerprint_eq, halike.carries_eq]
    exact absurd hprint (by decide)
  exact (fingerprint_injective ⟨.arr [.bool true], trivial, trivial⟩
    ⟨.arr [.bool false], trivial, trivial⟩).1.2 fun halike => absurd halike hother

/-- An empty map and `["@map", []]`, and an object with a property that is undefined and one without
it, have one print. -/
theorem not_fingerprint_injective :
    (∃ (a b : PushedValue Int) (print : Text), a.1 = .map [] ∧ b.1 = unfoldMap [] ∧ a ≠ b ∧
      fingerprint a.1 = some print ∧ fingerprint b.1 = some print) ∧
    ∃ (a b : PushedValue Int) (print : Text), a.1 = .obj [([0x6E], .undefined)] ∧ b.1 = .obj [] ∧
      a ≠ b ∧ fingerprint a.1 = some print ∧ fingerprint b.1 = some print := by
  have hmap : (.map [] : Value Int) ≠ unfoldMap [] := nofun
  have hobj : (.obj [([0x6E], .undefined)] : Value Int) ≠ .obj [] := nofun
  refine ⟨⟨⟨.map [], trivial⟩, ⟨unfoldMap [], trivial, trivial, trivial⟩, _, rfl, rfl,
      fun heq => hmap (congrArg (·.1) heq), rfl, ?_⟩,
    ⟨⟨.obj [([0x6E], .undefined)], List.pairwise_singleton _ _, trivial, trivial⟩,
      ⟨.obj [], .nil, trivial⟩, _, rfl, rfl, fun heq => hobj (congrArg (·.1) heq), rfl, ?_⟩⟩
  · decide
  · decide

end SigxActors.Client
