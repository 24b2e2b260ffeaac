/-
  Js/Array.lean --- the JavaScript array, where what is in it is numbered by when it came.

  An array that is only pushed to is a list, and a number that was given is never given
  again.  What is at a place of an array that has changed, was there before or is the change.

  The module names nothing of the runtime.
-/

set_option autoImplicit false

namespace SigxActors.Js

universe u

variable {α : Type u} {l : List α} {a b : α} {j k : Nat}

/-! ## One element changes -/

theorem modify_get (l : List α) (k : Nat) (f : α → α) (j : Nat) :
    (l.modify k f)[j]? = if k = j then l[j]?.map f else l[j]? := by
  rw [List.getElem?_modify]
  cases l[j]? <;> split <;> rfl

theorem modify_get_self (f : α → α) (h : l[k]? = some a) : (l.modify k f)[k]? = some (f a) := by
  rw [modify_get, if_pos rfl, h]
  rfl

theorem modify_get_other (f : α → α) (h : j ≠ k) : (l.modify k f)[j]? = l[j]? := by
  rw [modify_get, if_neg fun heq => h heq.symm]

variable {f : α → α} {p : α → Bool}

theorem of_modify_get (h : (l.modify k f)[j]? = some b) :
    (∃ a, j = k ∧ l[k]? = some a ∧ b = f a) ∨ j ≠ k ∧ l[j]? = some b := by
  rw [modify_get] at h
  split at h
  · rename_i hj
    subst hj
    obtain ⟨a, hget, rfl⟩ := Option.map_eq_some_iff.1 h
    exact .inl ⟨a, rfl, hget, rfl⟩
  · rename_i hj
    exact .inr ⟨fun heq => hj heq.symm, h⟩

theorem of_set_get (h : (l.set k a)[j]? = some b) : j = k ∧ b = a ∨ j ≠ k ∧ l[j]? = some b := by
  rw [List.getElem?_set] at h
  split at h
  · rename_i hj
    split at h
    · exact .inl ⟨hj.symm, (Option.some.inj h).symm⟩
    · cases h
  · rename_i hj
    exact .inr ⟨fun heq => hj heq.symm, h⟩

/-- A change after a change. -/
theorem modify_modify (l : List α) (k : Nat) (f g : α → α) :
    (l.modify k f).modify k g = l.modify k fun a => g (f a) := by
  apply List.ext_getElem?
  intro j
  rw [modify_get, modify_get, modify_get]
  split
  · rw [Option.map_map]
    rfl
  · rfl

theorem countP_modify (h : ∀ a, l[k]? = some a → p (f a) = p a) :
    (l.modify k f).countP p = l.countP p := by
  induction l generalizing k with
  | nil => rw [List.modify_nil]
  | cons b l ih =>
    cases k with
    | zero =>
      rw [List.modify_zero_cons, List.countP_cons, List.countP_cons, h b rfl]
    | succ k =>
      rw [List.modify_succ_cons, List.countP_cons, List.countP_cons]
      exact congrArg (· + _) (ih fun a hget => h a hget)

/-- One that was counted is counted no more. -/
theorem countP_modify_lost (hget : l[k]? = some a) (ha : p a = true) (hf : p (f a) = false) :
    (l.modify k f).countP p + 1 = l.countP p := by
  induction l generalizing k with
  | nil => cases hget
  | cons b l ih =>
    cases k with
    | zero =>
      obtain rfl : b = a := Option.some.inj hget
      rw [List.modify_zero_cons, List.countP_cons, List.countP_cons, ha, hf]
      rfl
    | succ k =>
      rw [List.modify_succ_cons, List.countP_cons, List.countP_cons, ← ih hget]
      exact Nat.add_right_comm _ _ _

theorem countP_mapIdx {f : Nat → α → α} (h : ∀ i a, p (f i a) = p a) :
    (l.mapIdx f).countP p = l.countP p := by
  have hsame : (p ∘ fun q : α × Nat => f q.2 q.1) = p ∘ Prod.fst := funext fun q => h q.2 q.1
  rw [List.mapIdx_eq_zipIdx_map, List.countP_map, hsame, ← List.countP_map, List.zipIdx_map_fst]

/-! ## One element comes -/

theorem append_get (a : α) (h : l[j]? = some b) : (l ++ [a])[j]? = some b :=
  (List.getElem?_append_left (List.getElem?_eq_some_iff.1 h).1).trans h

/-- What has come last changes. -/
theorem append_modify (l : List α) (a : α) (f : α → α) :
    (l ++ [a]).modify l.length f = l ++ [f a] := by
  induction l with
  | nil => rfl
  | cons b l ih => exact congrArg (b :: ·) ih

theorem of_append_get (h : (l ++ [a])[j]? = some b) :
    j = l.length ∧ b = a ∨ j < l.length ∧ l[j]? = some b := by
  rw [List.getElem?_append] at h
  split at h
  · rename_i hlt
    exact .inr ⟨hlt, h⟩
  · have hle := (List.getElem?_eq_some_iff.1 h).1
    rw [List.length_singleton] at hle
    have hj : j = l.length := by omega
    rw [hj, Nat.sub_self] at h
    exact .inl ⟨hj, (Option.some.inj h).symm⟩

theorem mem_snoc : a ∈ l ++ [b] ↔ a ∈ l ∨ a = b := by rw [List.mem_append, List.mem_singleton]

/-- What is there is among the numbers that were given. -/
theorem lt_of_get (h : l[j]? = some a) : j < l.length := (List.getElem?_eq_some_iff.1 h).1

/-! ## One element goes -/

theorem dropLast_get (l : List α) (j : Nat) :
    l.dropLast[j]? = if j + 1 < l.length then l[j]? else none := by
  rw [List.getElem?_dropLast]
  split
  · rw [if_pos (by omega)]
  · rw [if_neg (by omega)]

/-- What is found at a place of `a`, once the element at `k` has been overwritten by the last. -/
theorem swapPop_get [DecidableEq α] {last : α} (hget : l[k]? = some a)
    (honce : ∀ j, l[j]? = some a → j = k) (hlast : l.getLast? = some last) :
    (if last = a then l.dropLast else l.dropLast.set k last)[j]? = some b ↔
      j + 1 < l.length ∧ (j = k ∧ b = last ∨ j ≠ k ∧ l[j]? = some b) := by
  have hlt := (List.getElem?_eq_some_iff.1 hget).1
  have hend : l[l.length - 1]? = some last := by
    rw [← List.getLast?_eq_getElem?]
    exact hlast
  split
  · rename_i heq
    have hk : l.length - 1 = k := honce _ (heq ▸ hend)
    rw [dropLast_get]
    split
    · rename_i hj
      have hne : j ≠ k := by omega
      simp [hj, hne]
    · rename_i hj
      simp [hj]
  · rename_i hne
    have hk : k ≠ l.length - 1 := by
      rintro rfl
      exact hne (Option.some.inj (hend.symm.trans hget))
    rw [List.getElem?_set, dropLast_get, List.length_dropLast]
    by_cases hj : j = k
    · subst hj
      rw [if_pos rfl, if_pos (by omega)]
      constructor
      · exact fun h => ⟨by omega, .inl ⟨rfl, (Option.some.inj h).symm⟩⟩
      · rintro ⟨-, ⟨-, rfl⟩ | ⟨hj, -⟩⟩
        · rfl
        · exact absurd rfl hj
    · rw [if_neg (Ne.symm hj)]
      split
      · rename_i hlt'
        simp [hj, hlt']
      · rename_i hlt'
        simp [hlt']

end SigxActors.Js
