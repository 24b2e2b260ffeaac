/-
  Cluster/CoalesceServes.lean --- what the refresh coalescer promises.

  Source: `packages/actors/src/cluster/coalesce.ts`.

  A demand waits for a flight that was started no earlier, or for the trailing run.
  A hint is served by a flight that was started behind it, by a view at its version,
  or is taken up by the trailing run; and what is pending has a flight or a timer
  that will run it.
-/
import SigxActors.Cluster.Coalesce

set_option autoImplicit false

namespace SigxActors.Cluster.Coalescer

variable {α : Type} {s : Coalescer α} {quietMs : Nat}

/-- The trailing run is due for the hint, unless the view catches up. -/
def Covers (pending : Trailing) : Option Int → Prop
  | none => pending.versionless = true
  | some v => ∃ m, pending.maxVersion = some m ∧ v ≤ m

/-- The demand waits for what will answer it. -/
def Waits (s : Coalescer α) (k : Nat) (d : Demand α) : Prop :=
  (∃ f, d.flight = some f ∧ d.madeAt ≤ f ∧ s.inFlight = some f) ∨
    d.flight = none ∧ ∃ pending, s.trailing = some pending ∧ k ∈ pending.waiters

/-- What holds between any two statements of the coalescer. -/
structure Core (s : Coalescer α) : Prop where
  flight : ∀ f, s.flights[f]? = some none ↔ s.inFlight = some f
  quiet : s.quiet = true → s.inFlight = none ∧ s.trailing.isSome
  settled : ∀ b ∈ s.settled, b = true
  answered : ∀ (k : Nat) (d : Demand α), s.demands[k]? = some d → ∀ outcome,
    d.outcome = some outcome →
      ∃ f, d.flight = some f ∧ d.madeAt ≤ f ∧ s.flights[f]? = some (some outcome)
  waits : ∀ (k : Nat) (d : Demand α), s.demands[k]? = some d → d.outcome = none → s.Waits k d
  unflown : ∀ pending, s.trailing = some pending → ∀ k ∈ pending.waiters,
    ∃ d, s.demands[k]? = some d ∧ d.flight = none
  made : ∀ d ∈ s.demands, d.madeAt ≤ s.flights.length
  hints : ∀ h ∈ s.hints, h.seen = true ∨ h.madeAt < s.flights.length ∨
    ∃ pending, s.trailing = some pending ∧ Covers pending h.version
  noted : ∀ h ∈ s.hints, h.madeAt ≤ s.flights.length
  view : ∀ h ∈ s.hints, ∀ v, h.version = some v → v ≤ s.version → h.seen = true

/-- What holds between any two steps. -/
structure Sound (s : Coalescer α) : Prop where
  core : s.Core
  /-- What is pending will be run. -/
  pending : s.trailing.isSome → s.inFlight.isSome ∨ s.quiet = true
  idle : s.idle = true → s.settleWaiters = 0

theorem idle_iff : s.idle = true ↔ s.inFlight = none ∧ s.trailing = none := by
  rw [idle, Bool.and_eq_true, Option.isNone_iff_eq_none, Option.isNone_iff_eq_none]

/-! ## Statements -/

/-- Whoever awaits `settled` learns of it when the coalescer is idle. -/
theorem Core.notifySettled (h : s.Core)
    (hpending : s.trailing.isSome → s.inFlight.isSome ∨ s.quiet = true) :
    s.notifySettled.Sound := by
  unfold Coalescer.notifySettled
  split
  · rename_i hidle
    refine ⟨{ h with settled := ?_ }, hpending, fun _ => rfl⟩
    intro b hb
    rcases List.mem_append.1 hb with hb | hb
    · exact h.settled b hb
    · rw [List.eq_of_mem_replicate hb]
      exact hidle
  · rename_i hidle
    exact ⟨h, hpending, fun h => absurd h hidle⟩

/-- A flight is started where none is up: every hint so far is before it. -/
theorem Core.start (h : s.Core) (hnone : s.inFlight = none) (hquiet : s.quiet = false) :
    s.start.Core where
  flight f := by
    rw [Coalescer.start]
    simp only [List.getElem?_append]
    split
    · rw [h.flight, hnone]
      constructor
      · intro hcontra
        cases hcontra
      · intro heq
        cases heq
        omega
    · rw [List.getElem?_singleton]
      constructor
      · intro hsome
        obtain ⟨_, hsome⟩ := guard_passed hsome
        congr 1
        omega
      · intro heq
        cases heq
        simp
  quiet hq := by
    have hq : s.quiet = true := hq
    rw [hquiet] at hq
    cases hq
  settled := h.settled
  answered k d hd outcome hout := by
    obtain ⟨f, hf, hmade, hflight⟩ := h.answered k d hd outcome hout
    refine ⟨f, hf, hmade, ?_⟩
    have hlt : f < s.flights.length := (List.getElem?_eq_some_iff.1 hflight).1
    exact (List.getElem?_append_left hlt).trans hflight
  waits k d hd hout := by
    rcases h.waits k d hd hout with ⟨f, -, -, hflight⟩ | htrailing
    · rw [hnone] at hflight
      cases hflight
    · exact Or.inr htrailing
  unflown := h.unflown
  made d hd := by
    have := h.made d hd
    simp only [Coalescer.start, List.length_append, List.length_singleton]
    omega
  hints x hx := by
    have := h.noted x hx
    simp only [Coalescer.start, List.length_append, List.length_singleton]
    omega
  noted x hx := by
    have := h.noted x hx
    simp only [Coalescer.start, List.length_append, List.length_singleton]
    omega
  view := h.view

variable {pending : Trailing}

/-- What waits for the trailing run follows the flight that was started for it. -/
theorem Core.follow (h : s.Core) (htrailing : s.trailing = some pending) {f : Nat}
    (hflight : s.inFlight = some f) (hmade : ∀ d ∈ s.demands, d.madeAt ≤ f)
    (hbefore : ∀ x ∈ s.hints, x.madeAt < s.flights.length) (hquiet : s.quiet = false) :
    (Coalescer.follow { s with trailing := none } pending.waiters f).Core where
  flight := h.flight
  quiet hq := by
    rw [hquiet] at hq
    cases hq
  settled := h.settled
  answered k d hd outcome hout := by
    simp only [Coalescer.follow, List.getElem?_mapIdx, Option.map_eq_some_iff] at hd
    obtain ⟨old, hold, rfl⟩ := hd
    have hout : old.outcome = some outcome := by
      split at hout <;> exact hout
    obtain ⟨g, hg, hrest⟩ := h.answered k old hold outcome hout
    split
    · rename_i hmem
      obtain ⟨same, hsame, hnone⟩ := h.unflown pending htrailing k hmem
      obtain rfl : old = same := Option.some.inj (hold.symm.trans hsame)
      rw [hnone] at hg
      cases hg
    · exact ⟨g, hg, hrest⟩
  waits k d hd hout := by
    simp only [Coalescer.follow, List.getElem?_mapIdx, Option.map_eq_some_iff] at hd
    obtain ⟨old, hold, rfl⟩ := hd
    left
    split
    · exact ⟨f, rfl, hmade old (List.mem_of_getElem? hold), hflight⟩
    rename_i hmem
    rw [if_neg hmem] at hout
    rcases h.waits k old hold hout with hwaits | ⟨-, other, hother, hk⟩
    · exact hwaits
    · rw [htrailing, Option.some.injEq] at hother
      exact absurd (hother ▸ hk) hmem
  unflown other hother := by cases hother
  made d hd := by
    obtain ⟨k, hk, rfl⟩ := List.mem_mapIdx.1 hd
    have hmade := h.made _ (List.getElem_mem hk)
    split <;> exact hmade
  hints x hx := Or.inr (Or.inl (hbefore x hx))
  noted := h.noted
  view := h.view

/-- A trailing run that is not due leaves no one behind: the view has caught up. -/
theorem Core.drop (h : s.Core) (htrailing : s.trailing = some pending)
    (hdue : s.due pending = false) : Core { s with quiet := false, trailing := none } := by
  obtain ⟨⟨hwaiters, hversion⟩, hmax⟩ :
      (pending.waiters = [] ∧ pending.versionless = false) ∧
        pending.maxVersion.any (s.version < ·) = false := by
    simpa [Coalescer.due] using hdue
  exact
    { h with
      quiet := fun hq => by cases hq
      waits := fun k d hd hout => by
        rcases h.waits k d hd hout with hwaits | ⟨-, other, hother, hk⟩
        · exact Or.inl hwaits
        rw [htrailing, Option.some.injEq] at hother
        rw [← hother, hwaiters] at hk
        cases hk
      unflown := fun other hother => by cases hother
      hints := fun x hx => by
        rcases h.hints x hx with hseen | hbefore | ⟨other, hother, hcovers⟩
        · exact Or.inl hseen
        · exact Or.inr (Or.inl hbefore)
        rw [htrailing, Option.some.injEq] at hother
        subst hother
        left
        cases hv : x.version with
        | none =>
          rw [hv] at hcovers
          rw [Covers, hversion] at hcovers
          cases hcovers
        | some v =>
          rw [hv] at hcovers
          obtain ⟨m, hm, hle⟩ := hcovers
          rw [hm, Option.any_some, decide_eq_false_iff_not] at hmax
          exact h.view x hx v hv (by omega) }

theorem Core.runTrailing (h : s.Core) (hnone : s.inFlight = none) : s.runTrailing.Sound := by
  have hcalm : Core { s with quiet := false } := { h with quiet := fun hq => by cases hq }
  unfold Coalescer.runTrailing
  dsimp only
  split
  · rename_i htrailing
    refine hcalm.notifySettled fun hpending => ?_
    rw [htrailing] at hpending
    cases hpending
  · rename_i pending htrailing
    split
    · have hstarted := hcalm.start hnone rfl
      have hbefore : ∀ x ∈ s.hints, x.madeAt < (s.flights ++ [none]).length := by
        intro x hx
        have := h.noted x hx
        rw [List.length_append, List.length_singleton]
        omega
      have hfollowed := hstarted.follow htrailing rfl h.made hbefore rfl
      refine ⟨hfollowed, fun hpending => ?_, fun hidle => ?_⟩
      · cases hpending
      · rw [idle_iff] at hidle
        cases hidle.1
    · rename_i hdue
      rw [Bool.not_eq_true] at hdue
      exact (h.drop htrailing hdue).notifySettled (fun hpending => by cases hpending)

/-! ## Steps -/

theorem Core.onFlightSettled (h : Core { s with inFlight := none }) :
    (s.onFlightSettled quietMs).Sound := by
  unfold Coalescer.onFlightSettled
  dsimp only
  split
  · rename_i htrailing
    refine h.notifySettled fun hpending => ?_
    rw [htrailing] at hpending
    cases hpending
  · rename_i pending htrailing
    split
    · have harmed : Core { s with inFlight := none, quiet := true } :=
        { h with quiet := fun _ => ⟨rfl, by rw [htrailing]; rfl⟩ }
      refine ⟨harmed, fun _ => Or.inr rfl, fun hidle => ?_⟩
      have htrailing' : s.trailing = none := (idle_iff.1 hidle).2
      rw [htrailing] at htrailing'
      cases htrailing'
    · exact h.runTrailing rfl

theorem Sound.complete (h : s.Sound) {f : Nat} (hflight : s.inFlight = some f) (outcome : α) :
    (s.complete quietMs f outcome).Sound := by
  have hopen : s.flights[f]? = some none := (h.core.flight f).2 hflight
  have hquiet : s.quiet = false := by
    cases hq : s.quiet with
    | false => rfl
    | true =>
      rw [(h.core.quiet hq).1] at hflight
      cases hflight
  have hlt : f < s.flights.length := (List.getElem?_eq_some_iff.1 hopen).1
  refine Core.onFlightSettled ?_
  refine
    { flight := ?_, quiet := ?_, settled := h.core.settled, answered := ?_, waits := ?_,
      unflown := ?_, made := ?_, hints := ?_, noted := ?_, view := h.core.view }
  · intro g
    rw [List.getElem?_set]
    constructor
    · intro hg
      split at hg
      · cases hg
      rename_i hne
      rw [h.core.flight, hflight, Option.some.injEq] at hg
      exact absurd hg hne
    · intro hg
      cases hg
  · intro hq
    rw [hquiet] at hq
    cases hq
  · intro k d hd out hout
    simp only [List.getElem?_map, Option.map_eq_some_iff] at hd
    obtain ⟨old, hold, rfl⟩ := hd
    simp only [List.getElem?_set]
    split at hout
    · rename_i hfollows
      cases hout
      rw [if_pos hfollows]
      refine ⟨f, hfollows, ?_, by rw [if_pos rfl, if_pos hlt]⟩
      -- the demand was made no later than the flight that it follows was started
      change old.madeAt ≤ f
      cases hold_out : old.outcome with
      | some earlier =>
        obtain ⟨g, hg, hmade, -⟩ := h.core.answered k old hold earlier hold_out
        rw [hfollows, Option.some.injEq] at hg
        omega
      | none =>
        rcases h.core.waits k old hold hold_out with ⟨g, hg, hmade, -⟩ | ⟨hnone, -⟩
        · rw [hfollows, Option.some.injEq] at hg
          omega
        · rw [hfollows] at hnone
          cases hnone
    · rename_i hfollows
      rw [if_neg hfollows]
      obtain ⟨g, hg, hmade, hgone⟩ := h.core.answered k old hold out hout
      refine ⟨g, hg, hmade, ?_⟩
      rw [if_neg, hgone]
      rintro rfl
      exact hfollows hg
  · intro k d hd hout
    simp only [List.getElem?_map, Option.map_eq_some_iff] at hd
    obtain ⟨old, hold, rfl⟩ := hd
    split at hout
    · cases hout
    rename_i hfollows
    rw [if_neg hfollows]
    rcases h.core.waits k old hold hout with ⟨g, hg, -, hup⟩ | htrailing
    · rw [hflight, Option.some.injEq] at hup
      exact absurd (hup ▸ hg) hfollows
    · exact Or.inr htrailing
  · intro pending htrailing k hk
    obtain ⟨old, hold, hnone⟩ := h.core.unflown pending htrailing k hk
    refine ⟨old, ?_, hnone⟩
    have hkeep : old.flight ≠ some f := by
      rw [hnone]
      nofun
    simp only [List.getElem?_map, hold, Option.map_some, if_neg hkeep]
  · intro d hd
    simp only [List.mem_map] at hd
    obtain ⟨old, hold, rfl⟩ := hd
    simp only [List.length_set]
    split <;> exact h.core.made old hold
  · intro x hx
    simp only [List.length_set]
    exact h.core.hints x hx
  · intro x hx
    simp only [List.length_set]
    exact h.core.noted x hx

theorem Sound.inFlight_none (h : s.Sound) (hquiet : s.quiet = true) : s.inFlight = none :=
  (h.core.quiet hquiet).1

/-- While the coalescer is idle no timer is armed. -/
theorem Sound.calm (h : s.Sound) (hidle : s.idle = true) : s.quiet = false := by
  cases hq : s.quiet with
  | false => rfl
  | true =>
    have htrailing := (h.core.quiet hq).2
    rw [(idle_iff.1 hidle).2] at htrailing
    cases htrailing

/-- A coalescer that is not idle has a flight or a timer. -/
theorem Sound.busy (h : s.Sound) (hidle : ¬ s.idle = true) :
    s.inFlight.isSome ∨ s.quiet = true := by
  cases hflight : s.inFlight with
  | some f => exact Or.inl rfl
  | none =>
    cases htrailing : s.trailing with
    | none => exact absurd (idle_iff.2 ⟨hflight, htrailing⟩) hidle
    | some pending =>
      rcases h.pending (by rw [htrailing]; rfl) with hup | hquiet
      · rw [hflight] at hup
        cases hup
      · exact Or.inr hquiet

/-- A flight that is started while the coalescer is idle leaves nothing pending. -/
theorem Sound.start (h : s.Sound) (hidle : s.idle = true) : s.start.Sound := by
  refine ⟨h.core.start (idle_iff.1 hidle).1 (h.calm hidle), fun _ => Or.inl rfl, fun hnot => ?_⟩
  cases (idle_iff.1 hnot).1

theorem covers_join (noted : Option Int) (pending : Trailing) : Covers (join noted pending) noted := by
  cases noted with
  | none => rfl
  | some v =>
    simp only [Covers, join]
    split
    · exact ⟨v, rfl, Int.le_refl v⟩
    rename_i hmax
    cases hm : pending.maxVersion with
    | none => simp [hm] at hmax
    | some m =>
      rw [hm, Option.all_some, decide_eq_true_iff] at hmax
      exact ⟨m, rfl, by omega⟩

/-- What the trailing run covers, it covers with one hint more. -/
theorem covers_join_of (noted : Option Int) {version : Option Int} (h : Covers pending version) :
    Covers (join noted pending) version := by
  cases noted with
  | none =>
    cases version with
    | none => rfl
    | some v => exact h
  | some w =>
    cases version with
    | none =>
      simp only [Covers, join]
      split <;> exact h
    | some v =>
      obtain ⟨m, hm, hle⟩ := h
      simp only [Covers, join]
      split
      · rename_i hmax
        rw [hm, Option.all_some, decide_eq_true_iff] at hmax
        exact ⟨w, rfl, by omega⟩
      · exact ⟨m, hm, hle⟩

theorem waiters_join (noted : Option Int) (pending : Trailing) :
    (join noted pending).waiters = pending.waiters := by
  cases noted with
  | none => rfl
  | some v =>
    simp only [join]
    split <;> rfl

/-- The hint is written down, and is served by what comes next where it is not seen. -/
theorem Core.noteHint (h : s.Core) (noted : Option Int) {madeAt : Nat}
    (hmade : madeAt ≤ s.flights.length) {trailing : Option Trailing}
    (htrailing : ∀ pending, s.trailing = some pending → ∃ pending', trailing = some pending' ∧
      pending'.waiters = pending.waiters ∧ ∀ version, Covers pending version →
        Covers pending' version)
    (hwaiters : s.trailing = none → ∀ pending, trailing = some pending → pending.waiters = [])
    (hserved : noted.any (· ≤ s.version) = true ∨ madeAt < s.flights.length ∨
      ∃ pending, trailing = some pending ∧ Covers pending noted) :
    Core { s with
      hints := s.hints ++ [⟨noted, madeAt, noted.any (· ≤ s.version)⟩]
      trailing := trailing } where
  flight := h.flight
  quiet hq := by
    obtain ⟨hnone, hsome⟩ := h.quiet hq
    obtain ⟨pending, hpending⟩ := Option.isSome_iff_exists.1 hsome
    obtain ⟨pending', hpending', -⟩ := htrailing pending hpending
    exact ⟨hnone, by rw [hpending']; rfl⟩
  settled := h.settled
  answered := h.answered
  waits k d hd hout := by
    rcases h.waits k d hd hout with hwaits | ⟨hflight, pending, hpending, hk⟩
    · exact Or.inl hwaits
    · obtain ⟨pending', hpending', hsame, -⟩ := htrailing pending hpending
      exact Or.inr ⟨hflight, pending', hpending', hsame ▸ hk⟩
  unflown pending' hpending' k hk := by
    cases hold : s.trailing with
    | none =>
      rw [hwaiters hold pending' hpending'] at hk
      cases hk
    | some pending =>
      obtain ⟨other, hother, hsame, -⟩ := htrailing pending hold
      obtain rfl : other = pending' := Option.some.inj (hother.symm.trans hpending')
      exact h.unflown pending hold k (hsame ▸ hk)
  made := h.made
  hints x hx := by
    rcases List.mem_append.1 hx with hx | hx
    · rcases h.hints x hx with hseen | hbefore | ⟨pending, hpending, hcovers⟩
      · exact Or.inl hseen
      · exact Or.inr (Or.inl hbefore)
      · obtain ⟨pending', hpending', -, hall⟩ := htrailing pending hpending
        exact Or.inr (Or.inr ⟨pending', hpending', hall _ hcovers⟩)
    · rw [List.mem_singleton] at hx
      subst hx
      exact hserved
  noted x hx := by
    rcases List.mem_append.1 hx with hx | hx
    · exact h.noted x hx
    rw [List.mem_singleton] at hx
    subst hx
    exact hmade
  view x hx v hv hle := by
    rcases List.mem_append.1 hx with hx | hx
    · exact h.view x hx v hv hle
    rw [List.mem_singleton] at hx
    subst hx
    have hv : noted = some v := hv
    simpa [hv] using hle

/-- A hint leaves what is pending as it is where it is served without it. -/
theorem Core.noteServed (h : s.Core) (noted : Option Int) {madeAt : Nat}
    (hmade : madeAt ≤ s.flights.length)
    (hserved : noted.any (· ≤ s.version) = true ∨ madeAt < s.flights.length) :
    Core { s with hints := s.hints ++ [⟨noted, madeAt, noted.any (· ≤ s.version)⟩] } := by
  refine h.noteHint noted hmade (fun pending hpending => ⟨pending, hpending, rfl, fun _ hc => hc⟩)
    (fun hnone pending hpending => ?_) (hserved.imp id Or.inl)
  rw [hnone] at hpending
  cases hpending

theorem Sound.note (h : s.Sound) (noted : Option Int) : (s.note noted).Sound := by
  unfold Coalescer.note
  dsimp only
  split
  · rename_i hseen
    exact { h with core := h.core.noteServed noted (Nat.le_refl _) (Or.inl hseen) }
  split
  · rename_i hidle
    have hstarted := h.start hidle
    have hlt : s.flights.length < s.start.flights.length := by
      simp [Coalescer.start]
    exact { hstarted with core := hstarted.core.noteServed noted (Nat.le_of_lt hlt) (Or.inr hlt) }
  · rename_i hseen hidle
    refine ⟨h.core.noteHint noted (Nat.le_refl _) (fun pending hpending => ?_) (fun hnone => ?_)
      (Or.inr (Or.inr ⟨_, rfl, covers_join noted _⟩)), fun _ => ?_, fun hnot => ?_⟩
    · refine ⟨_, rfl, ?_, fun version hcovers => ?_⟩
      · rw [hpending, Option.getD_some, waiters_join]
      · rw [hpending]
        exact covers_join_of noted hcovers
    · rintro pending hpending
      rw [← Option.some.inj hpending, hnone, waiters_join]
      rfl
    · exact h.busy hidle
    · cases (idle_iff.1 hnot).2

/-- A demand is written down behind the others. -/
theorem Core.addDemand (h : s.Core) {d : Demand α} (hout : d.outcome = none)
    (hmade : d.madeAt ≤ s.flights.length) (trailing : Option Trailing)
    (hsome : s.trailing.isSome → trailing.isSome)
    (hcovers : ∀ pending, s.trailing = some pending → ∃ pending', trailing = some pending' ∧
      (∀ k ∈ pending.waiters, k ∈ pending'.waiters) ∧
      ∀ version, Covers pending version → Covers pending' version)
    (hwaiters : ∀ pending, trailing = some pending → ∀ k ∈ pending.waiters,
      k = s.demands.length ∧ d.flight = none ∨
        ∃ old, s.trailing = some old ∧ k ∈ old.waiters)
    (hwaits : Waits { s with demands := s.demands ++ [d], trailing := trailing } s.demands.length d) :
    Core { s with demands := s.demands ++ [d], trailing := trailing } := by
  have hget : ∀ (k : Nat) (x : Demand α), (s.demands ++ [d])[k]? = some x →
      s.demands[k]? = some x ∨ k = s.demands.length ∧ x = d := by
    intro k x hx
    rw [List.getElem?_append] at hx
    split at hx
    · exact Or.inl hx
    rw [List.getElem?_singleton] at hx
    obtain ⟨_, hx⟩ := guard_passed hx
    exact Or.inr ⟨by omega, (Option.some.inj hx).symm⟩
  refine
    { h with
      quiet := fun hq => ⟨(h.quiet hq).1, hsome (h.quiet hq).2⟩
      answered := fun k x hx outcome hxout => ?_
      waits := fun k x hx hxout => ?_
      unflown := fun pending hpending k hk => ?_
      made := fun x hx => ?_
      hints := fun x hx => ?_ }
  · rcases hget k x hx with hx | ⟨-, rfl⟩
    · exact h.answered k x hx outcome hxout
    · rw [hout] at hxout
      cases hxout
  · rcases hget k x hx with hx | ⟨rfl, rfl⟩
    · rcases h.waits k x hx hxout with hup | ⟨hflight, pending, hpending, hk⟩
      · exact Or.inl hup
      · obtain ⟨pending', hpending', hall, -⟩ := hcovers pending hpending
        exact Or.inr ⟨hflight, pending', hpending', hall k hk⟩
    · exact hwaits
  · rcases hwaiters pending hpending k hk with ⟨rfl, hflight⟩ | ⟨old, hold, hk⟩
    · exact ⟨d, by simp, hflight⟩
    obtain ⟨x, hx, hnone⟩ := h.unflown old hold k hk
    have hlt : k < s.demands.length := (List.getElem?_eq_some_iff.1 hx).1
    exact ⟨x, (List.getElem?_append_left hlt).trans hx, hnone⟩
  · rcases List.mem_append.1 hx with hx | hx
    · exact h.made x hx
    · rw [List.mem_singleton] at hx
      exact hx ▸ hmade
  · rcases h.hints x hx with hseen | hbefore | ⟨pending, hpending, hc⟩
    · exact Or.inl hseen
    · exact Or.inr (Or.inl hbefore)
    · obtain ⟨pending', hpending', -, hall⟩ := hcovers pending hpending
      exact Or.inr (Or.inr ⟨pending', hpending', hall _ hc⟩)

theorem Sound.demand (h : s.Sound) : s.demand.Sound := by
  unfold Coalescer.demand
  dsimp only
  split
  · rename_i hidle
    have hstarted := h.start hidle
    have htrailing : s.trailing = none := (idle_iff.1 hidle).2
    have hlt : s.flights.length < s.start.flights.length := by simp [Coalescer.start]
    refine ⟨?_, hstarted.pending, fun hnot => ?_⟩
    · refine hstarted.core.addDemand rfl (Nat.le_of_lt hlt) s.trailing id
        (fun pending hpending => ⟨pending, hpending, fun _ hk => hk, fun _ hc => hc⟩)
        (fun pending hpending => ?_) (Or.inl ⟨s.flights.length, rfl, Nat.le_refl _, rfl⟩)
      rw [htrailing] at hpending
      cases hpending
    · cases (idle_iff.1 hnot).1
  · rename_i hidle
    have hadded := h.core.addDemand (d := { madeAt := s.flights.length }) rfl (Nat.le_refl _)
      (some { s.trailing.getD {} with
        waiters := (s.trailing.getD {}).waiters ++ [s.demands.length] })
      (fun _ => rfl)
      (fun pending hpending => by
        refine ⟨_, rfl, fun k hk => ?_, fun version hcovers => ?_⟩
        · rw [hpending]
          exact List.mem_append_left _ hk
        · rw [hpending]
          cases version <;> exact hcovers)
      (fun pending hpending k hk => by
        rw [← Option.some.inj hpending] at hk
        rcases List.mem_append.1 hk with hk | hk
        · right
          cases hold : s.trailing with
          | none =>
            rw [hold] at hk
            cases hk
          | some old =>
            rw [hold] at hk
            exact ⟨old, rfl, hk⟩
        · exact Or.inl ⟨List.mem_singleton.1 hk, rfl⟩)
      (Or.inr ⟨rfl, _, rfl, List.mem_append_right _ (List.mem_singleton.2 rfl)⟩)
    split
    · rename_i hrun
      rw [Bool.and_eq_true, Option.isNone_iff_eq_none] at hrun
      exact hadded.runTrailing hrun.1
    · refine ⟨hadded, fun _ => h.busy hidle, fun hnot => ?_⟩
      cases (idle_iff.1 hnot).2

theorem Sound.awaitSettled (h : s.Sound) : s.awaitSettled.Sound := by
  unfold Coalescer.awaitSettled
  split
  · refine { h with core := { h.core with settled := fun b hb => ?_ } }
    rcases List.mem_append.1 hb with hb | hb
    · exact h.core.settled b hb
    · exact List.mem_singleton.1 hb
  · rename_i hidle
    exact ⟨{ h.core with }, h.pending, fun hnot => absurd hnot hidle⟩

/-- The view moves under the coalescer. -/
theorem Sound.view (h : s.Sound) (version : Int) : (s.view version).Sound := by
  refine { h with core := { h.core with hints := ?_, noted := ?_, view := ?_ } }
  · intro x hx
    obtain ⟨old, hold, rfl⟩ := List.mem_map.1 hx
    exact (h.core.hints old hold).imp (fun hseen => by rw [hseen, Bool.true_or]) id
  · intro x hx
    obtain ⟨old, hold, rfl⟩ := List.mem_map.1 hx
    exact h.core.noted old hold
  · intro x hx v hv hle
    obtain ⟨old, hold, rfl⟩ := List.mem_map.1 hx
    have hv : old.version = some v := hv
    have hle : v ≤ version := hle
    simp only [hv, Option.any_some, decide_eq_true hle, Bool.or_true]

theorem Sound.step (h : s.Sound) {l : CoalescerLabel α} {t : Coalescer α}
    (hstep : s.step quietMs l = some t) : t.Sound := by
  cases l with
  | note version =>
    cases hstep
    exact h.note version
  | demand =>
    cases hstep
    exact h.demand
  | settled =>
    cases hstep
    exact h.awaitSettled
  | complete outcome =>
    obtain ⟨f, hf, rfl⟩ := Option.map_eq_some_iff.1 hstep
    exact h.complete hf outcome
  | fire =>
    obtain ⟨hquiet, rfl⟩ := guard_taken hstep
    exact h.core.runTrailing (h.inFlight_none hquiet)
  | view version =>
    cases hstep
    exact h.view version

theorem Sound.initial (version : Int) : Sound ({ version := version } : Coalescer α) where
  core :=
    { flight := fun f => by simp
      quiet := fun hq => by cases hq
      settled := fun b hb => by cases hb
      answered := fun k d hd => by cases hd
      waits := fun k d hd => by cases hd
      unflown := fun pending hpending => by cases hpending
      made := fun d hd => by cases hd
      hints := fun x hx => by cases hx
      noted := fun x hx => by cases hx
      view := fun x hx => by cases hx }
  pending hpending := by cases hpending
  idle _ := rfl

theorem sound_of_reachable (h : (refreshCoalescer α quietMs).Reachable s) : s.Sound := by
  refine h.invariant (fun s hs => ?_) fun s l t hs _ hstep => hs.step hstep
  obtain ⟨version, rfl⟩ := hs
  exact Sound.initial version

/-! ## The coalescer -/

/-- What the coalescer promises of a state that it reaches. -/
structure Serves (s : Coalescer α) : Prop where
  /-- One flight at most is in the air. -/
  single : ∀ (f g : Nat), s.flights[f]? = some none → s.flights[g]? = some none → f = g
  /-- What a demand resolves with is what a flight that was started behind it settled with. -/
  demanded : ∀ (k : Nat) (d : Demand α), s.demands[k]? = some d → ∀ outcome,
    d.outcome = some outcome → ∃ f : Nat, d.madeAt ≤ f ∧ s.flights[f]? = some (some outcome)
  /-- A demand that is not answered is not forgotten. -/
  unanswered : ∀ (k : Nat) (d : Demand α), s.demands[k]? = some d → d.outcome = none →
    (∃ f : Nat, d.madeAt ≤ f ∧ d.flight = some f ∧ s.flights[f]? = some none) ∨
      ∃ pending, s.trailing = some pending ∧ k ∈ pending.waiters
  /-- A hint is not dropped. -/
  hinted : ∀ h ∈ s.hints, h.seen = true ∨ h.madeAt < s.flights.length ∨
    ∃ pending, s.trailing = some pending ∧ Covers pending h.version
  /-- What is pending has a flight or a timer that will run it. -/
  pending : s.trailing.isSome → (∃ f : Nat, s.flights[f]? = some none) ∨ s.quiet = true
  /-- `settled` resolves only when idle. -/
  settled : ∀ b ∈ s.settled, b = true
  /-- At rest everyone has been served. -/
  rest : s.idle = true → (∀ d ∈ s.demands, d.outcome.isSome) ∧
    (∀ h ∈ s.hints, h.seen = true ∨ h.madeAt < s.flights.length) ∧ s.settleWaiters = 0

theorem Sound.serves (h : s.Sound) : s.Serves where
  single f g hf hg := by
    rw [h.core.flight] at hf hg
    exact Option.some.inj (hf.symm.trans hg)
  demanded k d hd outcome hout := by
    obtain ⟨f, -, hmade, hf⟩ := h.core.answered k d hd outcome hout
    exact ⟨f, hmade, hf⟩
  unanswered k d hd hout := by
    rcases h.core.waits k d hd hout with ⟨f, hf, hmade, hup⟩ | ⟨-, htrailing⟩
    · exact Or.inl ⟨f, hmade, hf, (h.core.flight f).2 hup⟩
    · exact Or.inr htrailing
  hinted := h.core.hints
  pending hpending := by
    refine (h.pending hpending).imp (fun hup => ?_) id
    obtain ⟨f, hf⟩ := Option.isSome_iff_exists.1 hup
    exact ⟨f, (h.core.flight f).2 hf⟩
  settled := h.core.settled
  rest hidle := by
    obtain ⟨hnone, htrailing⟩ := idle_iff.1 hidle
    refine ⟨fun d hd => ?_, fun x hx => ?_, h.idle hidle⟩
    · obtain ⟨k, hk⟩ := List.mem_iff_getElem?.1 hd
      cases hout : d.outcome with
      | some outcome => rfl
      | none =>
        rcases h.core.waits k d hk hout with ⟨f, -, -, hup⟩ | ⟨-, pending, hpending, -⟩
        · rw [hnone] at hup
          cases hup
        · rw [htrailing] at hpending
          cases hpending
    · rcases h.core.hints x hx with hseen | hbefore | ⟨pending, hpending, -⟩
      · exact Or.inl hseen
      · exact Or.inr hbefore
      · rw [htrailing] at hpending
        cases hpending

/-- How many flights and timers are ahead, at most. -/
def ahead (s : Coalescer α) : Nat :=
  (if s.inFlight.isSome then 1 else 0) + if s.trailing.isSome then 2 else 0

/-- A flight settles, or the timer fires. -/
def Advances : CoalescerLabel α → Prop
  | .complete _ | .fire => True
  | _ => False

theorem ahead_notifySettled (s : Coalescer α) : s.notifySettled.ahead = s.ahead := by
  unfold Coalescer.notifySettled
  split <;> rfl

theorem ahead_runTrailing (h : s.inFlight = none) :
    s.runTrailing.ahead ≤ if s.trailing.isSome then 1 else 0 := by
  unfold Coalescer.runTrailing
  dsimp only
  split
  · rename_i htrailing
    rw [ahead_notifySettled, ahead, h, htrailing]
    decide
  · rename_i pending htrailing
    rw [htrailing]
    split
    · exact Nat.le_refl 1
    · rw [ahead_notifySettled]
      simp [ahead, h]

theorem ahead_onFlightSettled (s : Coalescer α) :
    (s.onFlightSettled quietMs).ahead ≤ if s.trailing.isSome then 2 else 0 := by
  unfold Coalescer.onFlightSettled
  dsimp only
  split
  · rename_i htrailing
    rw [ahead_notifySettled]
    simp [ahead, htrailing]
  · rename_i pending htrailing
    rw [htrailing]
    split
    · simp [ahead]
    · refine Nat.le_trans
        (ahead_runTrailing (s := { s with inFlight := none, trailing := some pending }) rfl) ?_
      exact Nat.le_succ 1

/-- A flight that settles and a timer that fires bring the coalescer nearer to rest. -/
theorem Sound.ahead_lt (h : s.Sound) {l : CoalescerLabel α} (hl : Advances l) {t : Coalescer α}
    (hstep : s.step quietMs l = some t) : t.ahead < s.ahead := by
  cases l with
  | complete outcome =>
    obtain ⟨f, hf, rfl⟩ := Option.map_eq_some_iff.1 hstep
    refine Nat.lt_of_le_of_lt (ahead_onFlightSettled _) ?_
    rw [ahead, hf, Option.isSome_some, if_pos rfl]
    exact Nat.lt_add_of_pos_left Nat.one_pos
  | fire =>
    obtain ⟨hquiet, rfl⟩ := guard_taken hstep
    obtain ⟨hnone, hsome⟩ := h.core.quiet hquiet
    refine Nat.lt_of_le_of_lt (ahead_runTrailing hnone) ?_
    rw [ahead, hnone, hsome]
    decide
  | note | demand | settled | view => cases hl

/-- A coalescer that is not at rest is not stuck. -/
theorem Sound.advances (h : s.Sound) (hidle : ¬ s.idle = true) :
    (∀ outcome, (s.step quietMs (.complete outcome)).isSome) ∨ (s.step quietMs .fire).isSome := by
  rcases h.busy hidle with hup | hquiet
  · left
    intro outcome
    rw [Coalescer.step, Option.isSome_map]
    exact hup
  · right
    rw [Coalescer.step, if_pos hquiet]
    rfl

/-- Refreshes are coalesced, and none is lost: at most one is in the air, each demand
gets one that was started behind it, each hint is followed by one or seen, and what is
pending gets its run, a few flights and timers later. -/
theorem serves_of_reachable (h : (refreshCoalescer α quietMs).Reachable s) : s.Serves ∧
      (s.idle = true ∨ (∀ outcome, (s.step quietMs (.complete outcome)).isSome) ∨
        (s.step quietMs .fire).isSome) ∧
      ∀ l t, Advances l → s.step quietMs l = some t → t.ahead < s.ahead := by
  have hsound := sound_of_reachable h
  refine ⟨hsound.serves, ?_, fun l t hl hstep => hsound.ahead_lt hl hstep⟩
  by_cases hidle : s.idle = true
  · exact Or.inl hidle
  · exact Or.inr (hsound.advances hidle)

/-- A demand behind a failed flight, and a hint behind the demand. -/
theorem serves_trailing :
    ∃ s : Coalescer Bool, s.trailing = none ∧ s.demands.map (·.outcome) = [some true] ∧
      s.Serves ∧
      (s.idle = true ∨ (∀ outcome, (s.step 5 (.complete outcome)).isSome) ∨
        (s.step 5 .fire).isSome) ∧
      ∀ l t, Advances l → s.step 5 l = some t → t.ahead < s.ahead := by
  have hstart : (refreshCoalescer Bool 5).Reachable { version := 3 } := .start ⟨3, rfl⟩
  have hrun := hstart.exec_get
    [.note (some 4), .demand, .complete false, .note none, .fire, .complete true] (by decide)
  refine ⟨_, ?_, ?_, serves_of_reachable hrun⟩ <;> decide

end SigxActors.Cluster.Coalescer
