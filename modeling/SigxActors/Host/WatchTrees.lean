/-
  Host/WatchTrees.lean --- what the keys of shared watches tell apart.

  Two values are alike where they differ in the order of their keys alone.  A key is
  written of the values with their keys in order, so it is the same for two values
  exactly where they are alike; and what a principal adds to a key cannot be read as
  a part of it.
-/
import Mathlib.Data.List.Nodup
import SigxActors.Host.WatchKey

set_option autoImplicit false

namespace SigxActors.Host

/-! ## Equality up to the order of keys -/

mutual

/-- The same value, but for the order of keys. -/
inductive Alike : Encoded → Encoded → Prop where
  | null : Alike .null .null
  | undefined : Alike .undefined .undefined
  | boolean (b : Bool) : Alike (.boolean b) (.boolean b)
  | number (text : JsString) : Alike (.number text) (.number text)
  | string (s : JsString) : Alike (.string s) (.string s)
  | array {items items' : List Encoded} (h : AlikeItems items items') :
      Alike (.array items) (.array items')
  | record {fields fields' : List (JsString × Encoded)} (h : AlikeFields fields fields') :
      Alike (.record fields) (.record fields')

/-- Item by item. -/
inductive AlikeItems : List Encoded → List Encoded → Prop where
  | nil : AlikeItems [] []
  | cons {v w : Encoded} {vs ws : List Encoded} (head : Alike v w) (tail : AlikeItems vs ws) :
      AlikeItems (v :: vs) (w :: ws)

/-- Key by key, wherever the key stands. -/
inductive AlikeFields : List (JsString × Encoded) → List (JsString × Encoded) → Prop where
  | nil : AlikeFields [] []
  | cons {key : JsString} {v w : Encoded} {fields before after : List (JsString × Encoded)}
      (head : Alike v w) (tail : AlikeFields fields (before ++ after)) :
      AlikeFields ((key, v) :: fields) (before ++ (key, w) :: after)

end

mutual

/-- No record has a key twice. -/
def Encoded.Keyed : Encoded → Prop
  | .array items => KeyedItems items
  | .record fields => (fields.map Prod.fst).Nodup ∧ KeyedFields fields
  | _ => True

def KeyedItems : List Encoded → Prop
  | [] => True
  | item :: items => item.Keyed ∧ KeyedItems items

def KeyedFields : List (JsString × Encoded) → Prop
  | [] => True
  | (_, value) :: fields => value.Keyed ∧ KeyedFields fields

end

/-! ## Keys in order -/

/-- The order of `sort()`. -/
def keyLe (a b : JsString × Encoded) : Bool := decide (a.1 ≤ b.1)

theorem sortItems_eq_map (items : List Encoded) : sortItems items = items.map (·.sortKeys) := by
  induction items with
  | nil => rfl
  | cons item items ih => rw [sortItems, ih, List.map_cons]

theorem sortFields_eq_map (fields : List (JsString × Encoded)) :
    sortFields fields = fields.map fun field => (field.1, field.2.sortKeys) := by
  induction fields with
  | nil => rfl
  | cons field fields ih => rw [sortFields, ih, List.map_cons]

theorem map_fst_sortFields (fields : List (JsString × Encoded)) :
    (sortFields fields).map Prod.fst = fields.map Prod.fst := by
  rw [sortFields_eq_map, List.map_map]
  rfl

theorem pairwise_sorted (fields : List (JsString × Encoded)) :
    (fields.mergeSort keyLe).Pairwise fun a b => keyLe a b = true := by
  refine List.pairwise_mergeSort ?_ ?_ fields
  · intro a b c hab hbc
    rw [keyLe, decide_eq_true_eq] at hab hbc ⊢
    exact List.le_trans hab hbc
  · intro a b
    rw [keyLe, keyLe, Bool.or_eq_true, decide_eq_true_eq, decide_eq_true_eq]
    exact List.le_total a.1 b.1

/-- The order of the fields is lost where they are sorted. -/
theorem sorted_eq_of_perm {fields fields' : List (JsString × Encoded)}
    (h : (fields.map Prod.fst).Nodup) (hperm : fields.Perm fields') :
    fields.mergeSort keyLe = fields'.mergeSort keyLe := by
  have hsorted := List.mergeSort_perm fields keyLe
  have hsorted' := List.mergeSort_perm fields' keyLe
  refine List.Perm.eq_of_pairwise ?_ (pairwise_sorted fields) (pairwise_sorted fields')
    (hsorted.trans (hperm.trans hsorted'.symm))
  intro a b ha hb hab hba
  rw [keyLe, decide_eq_true_eq] at hab hba
  exact List.inj_on_of_nodup_map h (hsorted.mem_iff.1 ha)
    (hperm.mem_iff.2 (hsorted'.mem_iff.1 hb)) (List.le_antisymm hab hba)

/-! ## Alike values are sorted alike -/

mutual

theorem sortKeys_of_alike {v w : Encoded} (hkeyed : v.Keyed) : Alike v w → v.sortKeys = w.sortKeys
  | .null => rfl
  | .undefined => rfl
  | .boolean _ => rfl
  | .number _ => rfl
  | .string _ => rfl
  | .array h => by
    rw [Encoded.sortKeys, Encoded.sortKeys, sortItems_of_alike hkeyed h]
  | @Alike.record fields _ h => by
    have hnodup : ((sortFields fields).map Prod.fst).Nodup := by
      rw [map_fst_sortFields]
      exact hkeyed.1
    exact congrArg Encoded.record (sorted_eq_of_perm hnodup (sortFields_of_alike hkeyed.2 h))

theorem sortItems_of_alike {vs ws : List Encoded} (hkeyed : KeyedItems vs) :
    AlikeItems vs ws → sortItems vs = sortItems ws
  | .nil => rfl
  | .cons head tail => by
    rw [sortItems, sortItems, sortKeys_of_alike hkeyed.1 head, sortItems_of_alike hkeyed.2 tail]

theorem sortFields_of_alike {fields fields' : List (JsString × Encoded)}
    (hkeyed : KeyedFields fields) :
    AlikeFields fields fields' → (sortFields fields).Perm (sortFields fields')
  | .nil => .nil
  | .cons head tail => by
    have hrest := sortFields_of_alike hkeyed.2 tail
    rw [sortFields, sortKeys_of_alike hkeyed.1 head]
    rw [sortFields_eq_map (_ ++ _), List.map_append] at hrest ⊢
    exact (hrest.cons _).trans List.perm_middle.symm

end

/-! ## Values that are sorted alike are alike -/

mutual

theorem alike_of_sortKeys : ∀ (v w : Encoded), v.sortKeys = w.sortKeys → Alike v w
  | .null, w, h => by
    cases w <;> simp only [Encoded.sortKeys, reduceCtorEq] at h
    exact .null
  | .undefined, w, h => by
    cases w <;> simp only [Encoded.sortKeys, reduceCtorEq] at h
    exact .undefined
  | .boolean b, w, h => by
    cases w <;> simp only [Encoded.sortKeys, reduceCtorEq, Encoded.boolean.injEq] at h
    subst h
    exact .boolean b
  | .number text, w, h => by
    cases w <;> simp only [Encoded.sortKeys, reduceCtorEq, Encoded.number.injEq] at h
    subst h
    exact .number text
  | .string s, w, h => by
    cases w <;> simp only [Encoded.sortKeys, reduceCtorEq, Encoded.string.injEq] at h
    subst h
    exact .string s
  | .array items, w, h => by
    cases w with
    | array items' =>
      rw [Encoded.sortKeys, Encoded.sortKeys, Encoded.array.injEq] at h
      exact .array (alikeItems_of_sortItems items items' h)
    | _ => cases h
  | .record fields, w, h => by
    cases w with
    | record fields' =>
      rw [Encoded.sortKeys, Encoded.sortKeys, Encoded.record.injEq] at h
      refine .record (alikeFields_of_perm fields fields' ?_)
      have hsorted := List.mergeSort_perm (sortFields fields) keyLe
      have hsorted' := List.mergeSort_perm (sortFields fields') keyLe
      exact hsorted.symm.trans ((List.Perm.of_eq h).trans hsorted')
    | _ => cases h

theorem alikeItems_of_sortItems : ∀ (vs ws : List Encoded), sortItems vs = sortItems ws →
    AlikeItems vs ws
  | [], [], _ => .nil
  | [], _ :: _, h => by cases h
  | _ :: _, [], h => by cases h
  | v :: vs, w :: ws, h => by
    rw [sortItems, sortItems, List.cons.injEq] at h
    exact .cons (alike_of_sortKeys v w h.1) (alikeItems_of_sortItems vs ws h.2)

theorem alikeFields_of_perm : ∀ (fields fields' : List (JsString × Encoded)),
    (sortFields fields).Perm (sortFields fields') → AlikeFields fields fields'
  | [], fields', h => by
    have hnil := h.symm.eq_nil
    rw [sortFields_eq_map, List.map_eq_nil_iff] at hnil
    subst hnil
    exact .nil
  | (key, v) :: fields, fields', h => by
    have hmem : (key, v.sortKeys) ∈ sortFields fields' := h.mem_iff.1 (.head _)
    rw [sortFields_eq_map, List.mem_map] at hmem
    obtain ⟨⟨key', w⟩, hw, hfield⟩ := hmem
    obtain ⟨hkey, hvalue⟩ := Prod.mk.inj hfield
    obtain ⟨before, after, hsplit⟩ := List.append_of_mem hw
    subst hkey hsplit
    refine .cons (alike_of_sortKeys v w hvalue.symm) (alikeFields_of_perm fields _ ?_)
    rw [sortFields_eq_map (_ ++ _), List.map_append, List.map_cons] at h
    rw [hvalue] at h
    rw [sortFields_eq_map (_ ++ _), List.map_append]
    exact (h.trans List.perm_middle).cons_inv

end

/-! ## Keys -/

theorem writeCanonical_ne_nil (v : Encoded) : writeCanonical v ≠ [] := by
  intro hnil
  have hhead := head_writeCanonical v
  rw [hnil] at hhead
  cases hhead

/-- Values that are written one behind another are read back, however many there are. -/
theorem writeItems_inj {vs ws : List Encoded} (h : writeItems vs = writeItems ws) : vs = ws := by
  induction vs generalizing ws with
  | nil =>
    cases ws with
    | nil => rfl
    | cons w ws =>
      exact absurd (List.append_eq_nil_iff.1 h.symm).1 (writeCanonical_ne_nil w)
  | cons v vs ih =>
    cases ws with
    | nil =>
      exact absurd (List.append_eq_nil_iff.1 h).1 (writeCanonical_ne_nil v)
    | cons w ws =>
      obtain ⟨rfl, hrest⟩ := writeCanonical_append_inj v w _ _ h
      rw [ih hrest]

/-- Keys that are the same are of values that are alike. -/
theorem alikeItems_of_canonicalKey {parts parts' : List Encoded}
    (h : canonicalKey parts = canonicalKey parts') : AlikeItems parts parts' := by
  refine alikeItems_of_sortItems parts parts' ?_
  rw [sortItems_eq_map, sortItems_eq_map]
  exact writeItems_inj h

theorem canonicalKey_of_alikeItems {parts parts' : List Encoded} (hkeyed : KeyedItems parts)
    (h : AlikeItems parts parts') : canonicalKey parts = canonicalKey parts' := by
  rw [canonicalKey, canonicalKey, ← sortItems_eq_map, ← sortItems_eq_map,
    sortItems_of_alike hkeyed h]

/-- `{ a: null, b: [] }`. -/
def orderedArgs : Encoded := .record [([0x61], .null), ([0x62], .array [])]

/-- `{ b: [], a: null }`. -/
def reorderedArgs : Encoded := .record [([0x62], .array []), ([0x61], .null)]

end SigxActors.Host
