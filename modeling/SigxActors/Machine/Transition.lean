/-
  Machine/Transition.lean --- labelled transition systems, their runs, and the
  invariant rule.

  A `System` is a set of initial states and a partial, executable step function:
  `step s l = some t` says that the event `l` is enabled in `s` and leads to
  `t`.  Every source of nondeterminism (which party moves, what the environment
  answers) is part of the label, so a run is a list of labels.

  Two notions of reachability are needed, and one definition gives both.
  `Reach ok` admits only steps that meet `ok`; `Reach (fun _ _ => True)` is
  ordinary reachability.  A statement "in every run whose steps all meet `ok`,
  every state reached satisfies `I`" is therefore `Reach ok s -> I s`, and
  `Reach.invariant` is the rule that proves it.

  The module depends on nothing but core: it is usable for any machine.
-/

set_option autoImplicit false

namespace SigxActors.Machine

universe u v

/-- A labelled transition system with an executable step function. -/
structure System (State : Type u) (Label : Type v) where
  /-- The states a run may begin in. -/
  initial : State → Prop
  /-- `none` when the label is not enabled in the state. -/
  step : State → Label → Option State

namespace System

variable {State : Type u} {Label : Type v} (M : System State Label)

/-- The states reachable by steps that all meet `ok`. -/
inductive Reach (ok : State → Label → Prop) : State → Prop
  /-- A run begins in an initial state. -/
  | start {s : State} (h : M.initial s) : Reach ok s
  /-- A run is extended by one enabled step that meets `ok`. -/
  | next {s t : State} {l : Label} (h : Reach ok s) (hok : ok s l)
      (hstep : M.step s l = some t) : Reach ok t

/-- Reachability without any condition on the steps. -/
abbrev Reachable : State → Prop := M.Reach (fun _ _ => True)

variable {M} {ok : State → Label → Prop}

/-- **The invariant rule.**  What holds initially and is preserved by every
admitted step holds in every state a run reaches. -/
theorem Reach.invariant {I : State → Prop} (hinit : ∀ s, M.initial s → I s)
    (hstep : ∀ s l t, I s → ok s l → M.step s l = some t → I t)
    {s : State} (h : M.Reach ok s) : I s := by
  induction h with
  | start h => exact hinit _ h
  | next _ hok hs ih => exact hstep _ _ _ ih hok hs

/-- A weaker condition on the steps reaches at least as many states. -/
theorem Reach.mono {ok' : State → Label → Prop} (hle : ∀ s l, ok s l → ok' s l)
    {s : State} (h : M.Reach ok s) : M.Reach ok' s := by
  induction h with
  | start h => exact .start h
  | next _ hok hs ih => exact .next ih (hle _ _ hok) hs

/-- Every guarded run is a run. -/
theorem Reach.reachable {s : State} (h : M.Reach ok s) : M.Reachable s :=
  h.mono (fun _ _ _ => trivial)

/-! ## Runs from a state -/

/-- The same machine, begun in `s`. -/
def since (M : System State Label) (s : State) : System State Label where
  initial := fun t => t = s
  step := M.step

/-- What a run reaches from a reachable state is reachable. -/
theorem Reach.since {s t : State} (h : M.Reach ok s) (hrun : (M.since s).Reach ok t) :
    M.Reach ok t := by
  induction hrun with
  | start heq => exact heq ▸ h
  | next _ hok hstep ih => exact .next ih hok hstep

/-! ## Executing a run -/

/-- Follow the labels from `s`, refusing a step that is not enabled or does not
meet the decidable condition `ok`. -/
def exec (M : System State Label) (ok : State → Label → Prop)
    [∀ s l, Decidable (ok s l)] : State → List Label → Option State
  | s, [] => some s
  | s, l :: ls =>
      if ok s l then
        match M.step s l with
        | some t => exec M ok t ls
        | none => none
      else none

/-- What an execution reaches from a reachable state is reachable. -/
theorem Reach.exec [∀ s l, Decidable (ok s l)] : ∀ {ls : List Label} {s t : State},
      M.Reach ok s → M.exec ok s ls = some t → M.Reach ok t := by
  intro ls
  induction ls with
  | nil =>
    intro s t hs h
    simp only [System.exec, Option.some.injEq] at h
    exact h ▸ hs
  | cons l ls ih =>
    intro s t hs h
    simp only [System.exec] at h
    split at h
    · rename_i hok
      split at h
      · rename_i mid hmid
        exact ih (.next hs hok hmid) h
      · simp at h
    · simp at h

/-- The state an enabled execution ends in is reachable. -/
theorem Reach.exec_get [∀ s l, Decidable (ok s l)] {s : State} (hs : M.Reach ok s)
    (ls : List Label) (h : (M.exec ok s ls).isSome) : M.Reach ok ((M.exec ok s ls).get h) :=
  hs.exec (Option.some_get h).symm

/-- The unguarded form, for runs whose steps need no condition. -/
theorem Reachable.exec {ls : List Label} {s t : State} (hs : M.Reachable s)
    (h : M.exec (fun _ _ => True) s ls = some t) : M.Reachable t :=
  Reach.exec hs h

end System

end SigxActors.Machine

namespace SigxActors

universe u

/-! ## Guards

What a step that is enabled says of the conditions before it. -/

section

variable {State : Type u} {c : Prop} [Decidable c] {r : Option State} {s t : State}

theorem guard_passed (h : (if c then r else none) = some t) : c ∧ r = some t := by
  split at h
  case isTrue hc => exact ⟨hc, h⟩
  case isFalse => cases h

theorem guard_taken (h : (if c then some s else none) = some t) : c ∧ s = t :=
  (guard_passed h).imp_right Option.some.inj

theorem guard_past (h : (if c then none else r) = some t) : ¬ c ∧ r = some t := by
  split at h
  case isTrue => cases h
  case isFalse hc => exact ⟨hc, h⟩

theorem guard_past_taken (h : (if c then none else some s) = some t) : ¬ c ∧ s = t :=
  (guard_past h).imp_right Option.some.inj

end

end SigxActors
