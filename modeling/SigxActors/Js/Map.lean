/-
  Js/Map.lean --- the JavaScript `Map`.

  A `Map` iterates in insertion order, a `set` on a present key keeps the key's
  place, and a key occurs once.  The bookkeeping of the runtime is held in such
  maps and some of it is iterated, so the order is part of the model: a `JsMap`
  is an association list with distinct keys.

  The module names nothing of the runtime.
-/

set_option autoImplicit false

namespace SigxActors.Js

universe u v

/-- An insertion-ordered map.  `nodup` makes a duplicate key unbuildable. -/
structure JsMap (α : Type u) (β : Type v) where
  entries : List (α × β)
  nodup : (entries.map Prod.fst).Nodup

namespace JsMap

variable {α : Type u} {β : Type v} [DecidableEq α]

/-- `new Map()`. -/
def empty : JsMap α β := ⟨[], List.nodup_nil⟩

/-- `[...map.keys()]`. -/
def keys (m : JsMap α β) : List α := m.entries.map Prod.fst

/-- The value an association list holds for `a`. -/
def getEntries (a : α) : List (α × β) → Option β
  | [] => none
  | p :: l => if a = p.1 then some p.2 else getEntries a l

/-- `map.get(a)`. -/
def get (m : JsMap α β) (a : α) : Option β := getEntries a m.entries

/-- `map.has(a)`. -/
def has (m : JsMap α β) (a : α) : Bool := (m.get a).isSome

/-- The entries after `map.delete(a)`. -/
def eraseEntries (a : α) (l : List (α × β)) : List (α × β) := l.filter (fun p => p.1 ≠ a)

/-- The entries after `map.set(a, b)`: in place when `a` is present, else last. -/
def setEntries (a : α) (b : β) : List (α × β) → List (α × β)
  | [] => [(a, b)]
  | p :: l => if p.1 = a then (a, b) :: l else p :: setEntries a b l

theorem map_fst_setEntries (a : α) (b : β) (l : List (α × β)) : (setEntries a b l).map Prod.fst =
      if a ∈ l.map Prod.fst then l.map Prod.fst else l.map Prod.fst ++ [a] := by
  induction l with
  | nil => simp [setEntries]
  | cons p l ih =>
    simp only [setEntries]
    by_cases hp : p.1 = a
    · simp [hp]
    · have hp' : ¬ a = p.1 := fun h => hp h.symm
      rw [if_neg hp, List.map_cons, ih]
      by_cases hm : a ∈ l.map Prod.fst
      · simp [hm]
      · simp [hm, hp']

variable {l : List (α × β)} {m : JsMap α β} {a : α}

theorem nodup_eraseEntries (a : α) (h : (l.map Prod.fst).Nodup) :
    ((eraseEntries a l).map Prod.fst).Nodup :=
  h.sublist (List.Sublist.map _ List.filter_sublist)

theorem nodup_setEntries (a : α) (b : β) (h : (l.map Prod.fst).Nodup) :
    ((setEntries a b l).map Prod.fst).Nodup := by
  rw [map_fst_setEntries]
  by_cases hm : a ∈ l.map Prod.fst
  · rwa [if_pos hm]
  · rw [if_neg hm, List.nodup_append]
    refine ⟨h, by simp, ?_⟩
    intro x hx y hy hxy
    have : y = a := by simpa using hy
    exact hm (by rw [← this, ← hxy]; exact hx)

/-- `map.delete(a)`. -/
def erase (m : JsMap α β) (a : α) : JsMap α β :=
  ⟨eraseEntries a m.entries, nodup_eraseEntries a m.nodup⟩

/-- `map.set(a, b)`. -/
def set (m : JsMap α β) (a : α) (b : β) : JsMap α β :=
  ⟨setEntries a b m.entries, nodup_setEntries a b m.nodup⟩

/-- Delete every entry that `p` rejects, the way a loop over the map does. -/
def filter (p : α → β → Bool) (m : JsMap α β) : JsMap α β :=
  ⟨m.entries.filter (fun q => p q.1 q.2),
    m.nodup.sublist (List.Sublist.map _ List.filter_sublist)⟩

/-- Overwrite every value, keys and order kept: a loop of `set`s on present keys. -/
def mapValues (f : α → β → β) (m : JsMap α β) : JsMap α β :=
  ⟨m.entries.map (fun q => (q.1, f q.1 q.2)), by
    have h : m.entries.map (Prod.fst ∘ fun q => (q.1, f q.1 q.2)) = m.entries.map Prod.fst := rfl
    rw [List.map_map, h]
    exact m.nodup⟩

/-! ## Reading back -/

theorem getEntries_setEntries (a c : α) (b : β) (l : List (α × β)) :
    getEntries c (setEntries a b l) = if c = a then some b else getEntries c l := by
  induction l with
  | nil => simp [setEntries, getEntries]
  | cons p l ih =>
    by_cases hp : p.1 = a
    · by_cases hc : c = a <;> simp [setEntries, getEntries, hp, hc]
    · by_cases hc : c = a
      · have hcp : ¬ c = p.1 := fun h => hp (h.symm.trans hc)
        rw [setEntries, if_neg hp, getEntries, if_neg hcp, ih, if_pos hc, if_pos hc]
      · simp [setEntries, getEntries, hp, hc, ih]

theorem getEntries_eraseEntries (a c : α) (l : List (α × β)) :
    getEntries c (eraseEntries a l) = if c = a then none else getEntries c l := by
  induction l with
  | nil => simp [eraseEntries, getEntries]
  | cons p l ih =>
    rw [eraseEntries] at ih ⊢
    by_cases hp : p.1 = a
    · rw [List.filter_cons_of_neg (by simp [hp]), ih, getEntries]
      by_cases hc : c = a
      · rw [if_pos hc, if_pos hc]
      · rw [if_neg hc, if_neg hc, if_neg (fun h => hc (h.trans hp))]
    · rw [List.filter_cons_of_pos (by simp [hp]), getEntries, ih, getEntries]
      by_cases hc : c = a
      · have hcp : ¬ c = p.1 := fun h => hp (h.symm.trans hc)
        rw [if_pos hc, if_pos hc, if_neg hcp]
      · rw [if_neg hc, if_neg hc]

@[simp] theorem get_empty (c : α) : (empty : JsMap α β).get c = none := rfl

theorem get_set (m : JsMap α β) (a c : α) (b : β) :
    (m.set a b).get c = if c = a then some b else m.get c :=
  getEntries_setEntries a c b m.entries

theorem get_erase (m : JsMap α β) (a c : α) : (m.erase a).get c = if c = a then none else m.get c :=
  getEntries_eraseEntries a c m.entries

@[simp] theorem get_set_self (m : JsMap α β) (a : α) (b : β) : (m.set a b).get a = some b := by
  simp [get_set]

@[simp] theorem get_erase_self (m : JsMap α β) (a : α) : (m.erase a).get a = none := by
  simp [get_erase]

/-- The keys are what the map answers for. -/
theorem mem_keys_iff (m : JsMap α β) (a : α) : a ∈ m.keys ↔ (m.get a).isSome := by
  obtain ⟨l, hl⟩ := m
  simp only [keys, get]
  clear hl
  induction l with
  | nil => simp [getEntries]
  | cons p l ih =>
    rw [List.map_cons, List.mem_cons, getEntries, ih]
    by_cases ha : a = p.1 <;> simp [ha]

theorem get_of_keys_eq_nil (h : m.keys = []) (a : α) : m.get a = none := by
  have hnot : a ∉ m.keys := by
    rw [h]
    exact List.not_mem_nil
  rw [mem_keys_iff] at hnot
  exact Option.not_isSome_iff_eq_none.1 hnot

theorem getEntries_eq_none (h : a ∉ l.map Prod.fst) : getEntries a l = none := by
  induction l with
  | nil => rfl
  | cons q l ih =>
    rw [List.map_cons, List.mem_cons, not_or] at h
    rw [getEntries, if_neg h.1, ih h.2]

/-- The loop keeps or deletes each key by its own entry: no other entry has it. -/
theorem get_filter (p : α → β → Bool) (m : JsMap α β) (a : α) :
    (m.filter p).get a = (m.get a).filter (p a) := by
  obtain ⟨l, hl⟩ := m
  simp only [filter, get]
  induction l with
  | nil => rfl
  | cons q l ih =>
    rw [List.map_cons, List.nodup_cons] at hl
    rw [getEntries]
    by_cases hq : p q.1 q.2 = true
    · rw [List.filter_cons, if_pos hq, getEntries]
      by_cases ha : a = q.1
      · rw [if_pos ha, if_pos ha, ha, Option.filter, if_pos hq]
      · rw [if_neg ha, if_neg ha, ih hl.2]
    · rw [List.filter_cons, if_neg hq, ih hl.2]
      by_cases ha : a = q.1
      · rw [if_pos ha, ha, getEntries_eq_none hl.1, Option.filter, Option.filter, if_neg hq]
      · rw [if_neg ha]

theorem get_mapValues (f : α → β → β) (m : JsMap α β) (a : α) :
    (m.mapValues f).get a = (m.get a).map (f a) := by
  obtain ⟨l, hl⟩ := m
  simp only [mapValues, get]
  clear hl
  induction l with
  | nil => rfl
  | cons q l ih =>
    rw [List.map_cons, getEntries, getEntries, ih]
    by_cases ha : a = q.1 <;> simp [ha]

theorem mem_entries_of_get {b : β} (h : m.get a = some b) : (a, b) ∈ m.entries := by
  obtain ⟨l, hl⟩ := m
  simp only [get] at h ⊢
  clear hl
  induction l with
  | nil => simp [getEntries] at h
  | cons q l ih =>
    rw [getEntries] at h
    by_cases ha : a = q.1
    · rw [if_pos ha, Option.some.injEq] at h
      exact List.mem_cons.mpr (Or.inl (by rw [ha, ← h]))
    · rw [if_neg ha] at h
      exact List.mem_cons_of_mem _ (ih h)

/-- A key has one entry. -/
theorem get_of_mem_entries {q : α × β} (h : q ∈ m.entries) : m.get q.1 = some q.2 := by
  obtain ⟨l, hl⟩ := m
  simp only [get] at h ⊢
  induction l with
  | nil => simp at h
  | cons p l ih =>
    rw [List.map_cons, List.nodup_cons] at hl
    rw [getEntries]
    rcases List.mem_cons.1 h with rfl | h
    · rw [if_pos rfl]
    · rw [if_neg]
      · exact ih hl.2 h
      · intro heq
        exact hl.1 (heq ▸ List.mem_map_of_mem h)

theorem has_iff (m : JsMap α β) (a : α) : m.has a = true ↔ ∃ b, m.get a = some b := by
  simp [has, Option.isSome_iff_exists]

theorem has_iff_mem_keys (m : JsMap α β) (a : α) : m.has a = true ↔ a ∈ m.keys := by
  rw [has, mem_keys_iff]

@[simp] theorem has_set_self (m : JsMap α β) (a : α) (b : β) : (m.set a b).has a = true := by
  simp [has]

theorem has_set {c : α} (a : α) (b : β) (h : m.has c = true) : (m.set a b).has c = true := by
  rw [has, get_set]
  split
  · rfl
  · exact h

theorem has_erase {c : α} (hne : c ≠ a) (h : m.has c = true) : (m.erase a).has c = true := by
  rw [has, get_erase, if_neg hne]
  exact h

theorem has_filter {p : α → β → Bool} (hp : ∀ b, p a b = true) (h : m.has a = true) :
    (m.filter p).has a = true := by
  obtain ⟨b, hb⟩ := (has_iff m a).1 h
  rw [has, get_filter, hb, Option.filter_some_pos (hp b)]
  rfl

/-! ## The order of the keys -/

/-- A key that comes is last. -/
theorem keys_set (m : JsMap α β) (a : α) (b : β) :
    (m.set a b).keys = if a ∈ m.keys then m.keys else m.keys ++ [a] :=
  map_fst_setEntries a b m.entries

/-- The first key leaves, and the others keep their order. -/
theorem keys_erase_first {b : β} {rest : List (α × β)} (h : m.entries = (a, b) :: rest) :
    a :: (m.erase a).keys = m.keys := by
  have hnodup := m.nodup
  rw [h, List.map_cons, List.nodup_cons] at hnodup
  have hkept : eraseEntries a rest = rest := by
    refine List.filter_eq_self.2 fun q hq => decide_eq_true fun heq => hnodup.1 ?_
    exact List.mem_map.2 ⟨q, hq, heq⟩
  have herased : (m.erase a).entries = rest := by
    have hlost : eraseEntries a ((a, b) :: rest) = eraseEntries a rest :=
      List.filter_cons_of_neg (by simp)
    exact (congrArg (eraseEntries a) h).trans (hlost.trans hkept)
  rw [keys, keys, herased, h, List.map_cons]

/-- A loop of `set`s. -/
def setAll (m : JsMap α β) (l : List (α × β)) : JsMap α β := l.foldl (fun m q => m.set q.1 q.2) m

/-- With no key twice, a key has the value that is listed, or the one it had. -/
theorem get_setAll (h : (l.map Prod.fst).Nodup) (m : JsMap α β) (a : α) :
    (m.setAll l).get a = (getEntries a l).or (m.get a) := by
  induction l generalizing m with
  | nil => rfl
  | cons q l ih =>
    rw [List.map_cons, List.nodup_cons] at h
    rw [setAll, List.foldl_cons, ← setAll, ih h.2, get_set, getEntries]
    by_cases ha : a = q.1
    · rw [if_pos ha, if_pos ha, ha, getEntries_eq_none h.1]
      rfl
    · rw [if_neg ha, if_neg ha]

/-- A map is what its entries make of it. -/
theorem get_setAll_entries (m : JsMap α β) (a : α) : (empty.setAll m.entries).get a = m.get a := by
  rw [get_setAll m.nodup, get_empty, Option.or_none]
  rfl

end JsMap

section

variable {α : Type u} {β : Type v} {m : JsMap α β}

theorem JsMap.ext_entries {m' : JsMap α β} (h : m.entries = m'.entries) : m = m' := by
  cases m'
  cases h
  rfl

theorem JsMap.mapValues_eq_self {f : α → β → β} (h : ∀ q ∈ m.entries, f q.1 q.2 = q.2) :
    m.mapValues f = m := by
  refine JsMap.ext_entries ((List.map_congr_left fun q hq => ?_).trans (List.map_id m.entries))
  rw [h q hq]
  rfl

theorem JsMap.filter_eq_self {p : α → β → Bool} (h : ∀ q ∈ m.entries, p q.1 q.2 = true) :
    m.filter p = m :=
  JsMap.ext_entries (List.filter_eq_self.2 h)

end

end SigxActors.Js
