/-
  Order/Argmax.lean --- the member of a list that has the greatest value.

  `List.argmax` takes the first of several members of one value.  Where no two have one value, it
  does not matter how the members are listed, and a member that comes or goes changes little.

  The module names nothing of the runtime.
-/
import Mathlib.Data.List.MinMax

set_option autoImplicit false

namespace SigxActors.Order

universe u v

variable {α : Type u} {β : Type v} [LinearOrder β] {f : α → β} {l l' : List α} {a m : α}

/-- A value that no other is above is the value of the winner. -/
theorem argmax_of_max (ha : a ∈ l) (hmax : ∀ b ∈ l, f b ≤ f a) :
    ∃ m, l.argmax f = some m ∧ f m = f a := by
  cases hm : l.argmax f with
  | none =>
    rw [List.argmax_eq_none.1 hm] at ha
    cases ha
  | some m =>
    exact ⟨m, rfl, le_antisymm (hmax m (List.argmax_mem hm)) (List.le_of_mem_argmax ha hm)⟩

/-- The value of the winner depends on which values there are, and on nothing else. -/
theorem argmax_values (h : ∀ a ∈ l, ∃ a' ∈ l', f a' = f a) (h' : ∀ a' ∈ l', ∃ a ∈ l, f a = f a') :
    (l.argmax f).map f = (l'.argmax f).map f := by
  cases hm : l.argmax f with
  | none =>
    obtain rfl := List.argmax_eq_none.1 hm
    have hnil : l' = [] := List.eq_nil_iff_forall_not_mem.2 fun a' ha' => by
      obtain ⟨a, ha, -⟩ := h' a' ha'
      cases ha
    rw [hnil]
    rfl
  | some m =>
    obtain ⟨a, ha, hfa⟩ := h m (List.argmax_mem hm)
    have hmax : ∀ b ∈ l', f b ≤ f a := by
      intro b hb
      obtain ⟨c, hc, hfc⟩ := h' b hb
      rw [hfa, ← hfc]
      exact List.le_of_mem_argmax hc hm
    obtain ⟨m', hm', hf⟩ := argmax_of_max ha hmax
    rw [hm', Option.map_some, Option.map_some, hf, hfa]

/-- A member that no other is above wins, where no two members have one value. -/
theorem argmax_of_inj (hinj : ∀ a ∈ l, ∀ b ∈ l, f a = f b → a = b) (ha : a ∈ l)
    (hmax : ∀ b ∈ l, f b ≤ f a) : l.argmax f = some a := by
  obtain ⟨m, hm, hf⟩ := argmax_of_max ha hmax
  rw [hm, hinj m (List.argmax_mem hm) a ha hf]

/-- The order in which the members are listed does not matter. -/
theorem argmax_perm (hinj : ∀ a ∈ l, ∀ b ∈ l, f a = f b → a = b) (hperm : l'.Perm l) :
    l'.argmax f = l.argmax f := by
  cases hm : l.argmax f with
  | none =>
    rw [List.argmax_eq_none.1 hm] at hperm
    rw [hperm.eq_nil]
    rfl
  | some m =>
    refine argmax_of_inj (fun a ha b hb => hinj a (hperm.subset ha) b (hperm.subset hb))
      (hperm.symm.subset (List.argmax_mem hm)) fun b hb => ?_
    exact List.le_of_mem_argmax (hperm.subset hb) hm

/-- A member comes: the winner is what it was, or the member. -/
theorem argmax_cons_or (hm : l.argmax f = some m) :
    (a :: l).argmax f = some m ∨ (a :: l).argmax f = some a := by
  rw [List.argmax_cons, hm]
  dsimp only
  split
  · exact .inl rfl
  · exact .inr rfl

end SigxActors.Order
