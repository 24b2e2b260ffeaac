/-
  Host/TurnLane.lean --- what the turns of an activation keep to.

  The serial turns form a chain: each is chained on the serial turn before it, and
  does not start before the tail behind that one has resolved.  Everything said of
  the order, of the exclusion and of `drain` follows from the chain; the counters
  count what they say by one equation for each kind of step.
-/
import Mathlib
import SigxActors.Host.Turns

set_option autoImplicit false

namespace SigxActors.Host

/-! ## The chain of the serial turns -/

/-- Turn `n` is a serial turn that was not refused. -/
def SerialAt (turns : List Turn) (n : Nat) : Prop :=
  ∃ turn, turns[n]? = some turn ∧ turn.Serial

/-- `k` is the last serial turn before `n`. -/
def LastSerial (turns : List Turn) (n : Nat) : Option Nat → Prop
  | none => ∀ i < n, ¬ SerialAt turns i
  | some k => k < n ∧ SerialAt turns k ∧ ∀ i, k < i → i < n → ¬ SerialAt turns i

/-- The tail behind turn `k` has resolved, if there is a turn `k`. -/
def TailPassed (turns : List Turn) (k : Option Nat) : Prop :=
  ∀ i, k = some i → ∃ turn fulfilled, turns[i]? = some turn ∧ turn.stage = .passed fulfilled

theorem tailResolved_iff (t : Turns) (k : Option Nat) :
    t.TailResolved k ↔ TailPassed t.turns k := by
  cases k with
  | none => simp [Turns.TailResolved, TailPassed]
  | some i =>
    simp only [Turns.TailResolved, TailPassed, Option.some.injEq, forall_eq']
    constructor
    · intro h
      split at h
      · rename_i fulfilled hi
        exact ⟨_, fulfilled, hi, rfl⟩
      · exact h.elim
    · rintro ⟨⟨interleave, behind, stage⟩, fulfilled, hi, rfl⟩
      rw [hi]
      trivial

/-- How the turns are chained. -/
structure Chained (turns : List Turn) (tail : Option Nat) : Prop where
  tail : LastSerial turns turns.length tail
  behind : ∀ (n : Nat) (turn : Turn), turns[n]? = some turn → turn.Serial →
    LastSerial turns n turn.behind
  unchained : ∀ (n : Nat) (turn : Turn), turns[n]? = some turn → turn.interleave = true →
    turn.behind = none
  passed : ∀ (n : Nat) (turn : Turn), turns[n]? = some turn → turn.Serial → turn.stage.Started →
    TailPassed turns turn.behind
  guarded : ∀ (n : Nat) (turn : Turn) fulfilled, turns[n]? = some turn →
    turn.stage = .passed fulfilled → turn.interleave = false

section

variable {turns : List Turn} {tail : Option Nat} {n : Nat} {turn : Turn} {stage : TurnStage}

theorem SerialAt.lt (h : SerialAt turns n) : n < turns.length := by
  obtain ⟨turn, hn, -⟩ := h
  exact (List.getElem?_eq_some_iff.1 hn).1

variable {k : Option Nat}

theorem LastSerial.congr {turns' : List Turn} (heq : ∀ i < n, SerialAt turns' i ↔ SerialAt turns i)
    (h : LastSerial turns n k) : LastSerial turns' n k := by
  cases k with
  | none =>
    intro i hi hserial
    exact h i hi ((heq i hi).1 hserial)
  | some k =>
    obtain ⟨hk, hserial, hbetween⟩ := h
    refine ⟨hk, (heq k hk).2 hserial, ?_⟩
    intro i hki hi hs
    exact hbetween i hki hi ((heq i hi).1 hs)

theorem serialAt_append {i : Nat} (hi : i < turns.length) :
    SerialAt (turns ++ [turn]) i ↔ SerialAt turns i := by
  unfold SerialAt
  rw [List.getElem?_append_left hi]

theorem serialAt_set (hn : turns[n]? = some turn) (hold : turn.stage ≠ .refused)
    (hnew : stage ≠ .refused) (i : Nat) :
    SerialAt (turns.set n { turn with stage := stage }) i ↔ SerialAt turns i := by
  unfold SerialAt
  rw [List.getElem?_set]
  split
  · rename_i hni
    subst hni
    obtain ⟨hlt, rfl⟩ := List.getElem?_eq_some_iff.1 hn
    simp [hlt, Turn.Serial, hold, hnew]
  · rfl

theorem TailPassed.append (h : TailPassed turns k) : TailPassed (turns ++ [turn]) k := by
  intro i hi
  obtain ⟨turn', fulfilled, hget, hstage⟩ := h i hi
  refine ⟨turn', fulfilled, ?_, hstage⟩
  rw [List.getElem?_append_left (List.getElem?_eq_some_iff.1 hget).1]
  exact hget

/-- A tail that has resolved stays resolved. -/
theorem TailPassed.set (hn : turns[n]? = some turn) (hold : ∀ b, turn.stage ≠ .passed b)
    (h : TailPassed turns k) :
    TailPassed (turns.set n { turn with stage := stage }) k := by
  intro i hi
  obtain ⟨turn', fulfilled, hget, hstage⟩ := h i hi
  refine ⟨turn', fulfilled, ?_, hstage⟩
  have hne : n ≠ i := by
    rintro rfl
    rw [hn] at hget
    cases hget
    exact hold fulfilled hstage
  rw [List.getElem?_set_ne hne]
  exact hget

/-- **The chain.**  Before a serial turn that has started, every serial turn has
been passed. -/
theorem Chained.passed_before (h : Chained turns tail) :
    ∀ n turn, turns[n]? = some turn → turn.Serial → turn.stage.Started →
      ∀ i < n, SerialAt turns i → TailPassed turns (some i) := by
  intro n
  induction n using Nat.strongRecOn with
  | _ n ih =>
    intro turn hn hserial hstarted i hi hserialAt
    have hbehind := h.behind n turn hn hserial
    have hpassed := h.passed n turn hn hserial hstarted
    cases hk : turn.behind with
    | none =>
      rw [hk] at hbehind
      exact absurd hserialAt (hbehind i hi)
    | some k =>
      rw [hk] at hbehind hpassed
      obtain ⟨hkn, ⟨turn', hk', hserial'⟩, hbetween⟩ := hbehind
      rcases Nat.lt_trichotomy i k with hik | rfl | hik
      · obtain ⟨_, fulfilled, hget, hstage⟩ := hpassed k rfl
        rw [hk'] at hget
        cases hget
        refine ih k hkn turn' hk' hserial' ?_ i hik hserialAt
        rw [hstage]
        trivial
      · exact hpassed
      · exact absurd hserialAt (hbetween i hik hi)

/-- So is every serial turn once the tail has resolved. -/
theorem Chained.all_passed (h : Chained turns tail) (htail : TailPassed turns tail) :
    ∀ i, SerialAt turns i → TailPassed turns (some i) := by
  intro i hserialAt
  have hlast := h.tail
  cases tail with
  | none => exact absurd hserialAt (hlast i hserialAt.lt)
  | some k =>
    obtain ⟨-, ⟨turn', hk', hserial'⟩, hbetween⟩ := hlast
    rcases Nat.lt_trichotomy i k with hik | rfl | hik
    · obtain ⟨_, fulfilled, hget, hstage⟩ := htail k rfl
      rw [hk'] at hget
      cases hget
      refine h.passed_before k turn' hk' hserial' ?_ i hik hserialAt
      rw [hstage]
      trivial
    · exact htail
    · exact absurd hserialAt (hbetween i hik hserialAt.lt)

/-! ### The chain is kept -/

theorem Chained.append (h : Chained turns tail) (turn : Turn) (hstage : ¬ turn.stage.Started)
    (hunchained : turn.interleave = true → turn.behind = none)
    (hbehind : turn.Serial → turn.behind = tail) :
    Chained (turns ++ [turn]) (if turn.Serial then some turns.length else tail) := by
  have hget : ∀ n turn', (turns ++ [turn])[n]? = some turn' →
      turns[n]? = some turn' ∨ (n = turns.length ∧ turn' = turn) := by
    intro n turn' hn
    rcases Nat.lt_trichotomy n turns.length with hlt | rfl | hlt
    · rw [List.getElem?_append_left hlt] at hn
      exact .inl hn
    · simp only [List.getElem?_concat_length, Option.some.injEq] at hn
      exact .inr ⟨rfl, hn.symm⟩
    · rw [List.getElem?_eq_none (by simp; omega)] at hn
      simp at hn
  have hkeep : ∀ {n : Nat} {k : Option Nat}, n ≤ turns.length → LastSerial turns n k →
      LastSerial (turns ++ [turn]) n k := by
    intro n k hn hlast
    exact hlast.congr fun i hi => serialAt_append (Nat.lt_of_lt_of_le hi hn)
  constructor
  · rw [List.length_append, List.length_singleton]
    split
    · rename_i hserial
      refine ⟨Nat.lt_succ_self _, ⟨turn, by simp, hserial⟩, ?_⟩
      omega
    · rename_i hserial
      have hlast := hkeep (Nat.le_refl _) h.tail
      have hnew : ¬ SerialAt (turns ++ [turn]) turns.length := by
        rintro ⟨turn', hn, hs⟩
        simp only [List.getElem?_concat_length, Option.some.injEq] at hn
        exact hserial (hn ▸ hs)
      cases tail with
      | none =>
        intro i hi hs
        rcases Nat.lt_or_eq_of_le (Nat.le_of_lt_succ hi) with hlt | rfl
        · exact hlast i hlt hs
        · exact hnew hs
      | some k =>
        obtain ⟨hk, hs, hbetween⟩ := hlast
        refine ⟨Nat.lt_succ_of_lt hk, hs, ?_⟩
        intro i hki hi hsi
        rcases Nat.lt_or_eq_of_le (Nat.le_of_lt_succ hi) with hlt | rfl
        · exact hbetween i hki hlt hsi
        · exact hnew hsi
  · intro n turn' hn hserial
    rcases hget n turn' hn with hn | ⟨rfl, rfl⟩
    · exact hkeep (Nat.le_of_lt (List.getElem?_eq_some_iff.1 hn).1) (h.behind n turn' hn hserial)
    · rw [hbehind hserial]
      exact hkeep (Nat.le_refl _) h.tail
  · intro n turn' hn hinterleave
    rcases hget n turn' hn with hn | ⟨rfl, rfl⟩
    · exact h.unchained n turn' hn hinterleave
    · exact hunchained hinterleave
  · intro n turn' hn hserial hstarted
    rcases hget n turn' hn with hn | ⟨rfl, rfl⟩
    · exact (h.passed n turn' hn hserial hstarted).append
    · exact absurd hstarted hstage
  · intro n turn' fulfilled hn hpassed
    rcases hget n turn' hn with hn | ⟨rfl, rfl⟩
    · exact h.guarded n turn' fulfilled hn hpassed
    · rw [hpassed] at hstage
      exact absurd trivial hstage

/-- A turn moves on: it was not refused, and starts only behind its tail. -/
theorem Chained.setStage (h : Chained turns tail) (hn : turns[n]? = some turn)
    (hold : turn.stage ≠ .refused) (hpassed : ∀ b, turn.stage ≠ .passed b)
    (hnew : stage ≠ .refused) (hstart : turn.stage.Started ∨ TailPassed turns turn.behind)
    (hguarded : ∀ b, stage = .passed b → turn.interleave = false) :
    Chained (turns.set n { turn with stage := stage }) tail := by
  have hserialAt := serialAt_set hn hold hnew
  have hget : ∀ i turn', (turns.set n { turn with stage := stage })[i]? = some turn' →
      turns[i]? = some turn' ∨ (i = n ∧ turn' = { turn with stage := stage }) := by
    intro i turn' hi
    rw [List.getElem?_set] at hi
    split at hi
    · rename_i hni
      subst hni
      obtain ⟨-, hi⟩ := guard_passed hi
      exact .inr ⟨rfl, (Option.some.inj hi).symm⟩
    · exact .inl hi
  constructor
  · rw [List.length_set]
    exact h.tail.congr fun i _ => hserialAt i
  · intro i turn' hi hserial
    rcases hget i turn' hi with hi | ⟨rfl, rfl⟩
    · exact (h.behind i turn' hi hserial).congr fun j _ => hserialAt j
    · exact (h.behind i turn hn ⟨hserial.1, hold⟩).congr fun j _ => hserialAt j
  · intro i turn' hi hinterleave
    rcases hget i turn' hi with hi | ⟨rfl, rfl⟩
    · exact h.unchained i turn' hi hinterleave
    · exact h.unchained i turn hn hinterleave
  · intro i turn' hi hserial hstarted
    rcases hget i turn' hi with hi | ⟨rfl, rfl⟩
    · exact (h.passed i turn' hi hserial hstarted).set hn hpassed
    rcases hstart with hstart | hstart
    · exact (h.passed i turn hn ⟨hserial.1, hold⟩ hstart).set hn hpassed
    · exact hstart.set hn hpassed
  · intro i turn' fulfilled hi hstage
    rcases hget i turn' hi with hi | ⟨rfl, rfl⟩
    · exact h.guarded i turn' fulfilled hi hstage
    · exact hguarded fulfilled hstage

end

/-! ## One lane -/

/-- What a drain has seen. -/
def DrainOk (turns : List Turn) (drain : Drain) : Prop :=
  drain.covered ≤ turns.length ∧
    match drain.phase with
    | .tail _ _ => True
    | .guards tail _ => TailPassed turns tail
    | .resolved =>
        ∀ n (turn : Turn), n < drain.covered → turns[n]? = some turn → ¬ turn.stage.Unsettled

/-- What holds of one `Turns` at any time. -/
structure LaneOk (t : Turns) : Prop where
  chained : Chained t.turns t.tail
  inflight : t.inflight.Nodup ∧ ∀ n, n ∈ t.inflight ↔
    ∃ turn, t.turns[n]? = some turn ∧ turn.interleave = true ∧ turn.stage.Unsettled
  depth : t.depth = t.turns.countP (fun turn => turn.stage.Unsettled)
  closed : t.closed = t.closedAt.isSome
  closedLe : ∀ m, t.closedAt = some m → m ≤ t.turns.length
  refused : ∀ n turn, t.turns[n]? = some turn →
    (turn.stage = .refused ↔ ∃ m, t.closedAt = some m ∧ m ≤ n)
  started : ∀ n, n ∈ t.started ↔ ∃ turn, t.turns[n]? = some turn ∧ turn.stage.Started
  ordered : t.started.Pairwise fun i j => SerialAt t.turns i → SerialAt t.turns j → i < j
  drains : ∀ drain ∈ t.drains, DrainOk t.turns drain

theorem LaneOk.initial (loaded : Bool) : LaneOk { loaded := loaded } where
  chained := ⟨by simp [LastSerial], by simp, by simp, by simp, by simp⟩
  inflight := by simp
  depth := rfl
  closed := rfl
  closedLe := by simp
  refused := by simp
  started := by simp
  ordered := .nil
  drains := by simp

section

variable {t t' : Turns} {n : Nat} {turn : Turn} {stage : TurnStage}

theorem getElem?_setStage (hn : t.turns[n]? = some turn) {i : Nat} {turn' : Turn} :
    (t.turns.set n { turn with stage := stage })[i]? = some turn' ↔
      (i ≠ n ∧ t.turns[i]? = some turn') ∨ (i = n ∧ turn' = { turn with stage := stage }) := by
  have hlt := (List.getElem?_eq_some_iff.1 hn).1
  rw [List.getElem?_set]
  split
  · rename_i hni
    subst hni
    simp [hlt, eq_comm]
  · rename_i hni
    simp [Ne.symm hni]

theorem DrainOk.set (hn : t.turns[n]? = some turn) (hpassed : ∀ b, turn.stage ≠ .passed b)
    (hunsettled : stage.Unsettled → turn.stage.Unsettled) {drain : Drain}
    (h : DrainOk t.turns drain) :
    DrainOk (t.turns.set n { turn with stage := stage }) drain := by
  obtain ⟨hcovered, hphase⟩ := h
  refine ⟨by rw [List.length_set]; exact hcovered, ?_⟩
  cases hd : drain.phase with
  | tail k inflight => trivial
  | guards k inflight =>
    rw [hd] at hphase
    exact hphase.set hn hpassed
  | resolved =>
    rw [hd] at hphase
    intro i turn' hi hget
    rcases (getElem?_setStage hn).1 hget with ⟨-, hget⟩ | ⟨rfl, rfl⟩
    · exact hphase i turn' hi hget
    · exact fun hu => hphase i turn hi hn (hunsettled hu)

/-- A turn moves on to a stage behind its start. -/
theorem LaneOk.move (h : LaneOk t) (hn : t.turns[n]? = some turn) (stage : TurnStage)
    (hold : turn.stage ≠ .refused) (hpassed : ∀ b, turn.stage ≠ .passed b)
    (hnew : stage.Started) (hunsettled : stage.Unsettled → turn.stage.Unsettled)
    (hstart : turn.stage.Started ∨ TailPassed t.turns turn.behind)
    (hguarded : ∀ b, stage = .passed b → turn.interleave = false)
    (hturns : t'.turns = t.turns.set n { turn with stage := stage }) (htail : t'.tail = t.tail)
    (hinflight : t'.inflight = if stage.Unsettled then t.inflight else t.inflight.erase n)
    (hdepth : t'.depth =
      if turn.stage.Unsettled ∧ ¬ stage.Unsettled then t.depth - 1 else t.depth)
    (hclosed : t'.closed = t.closed) (hclosedAt : t'.closedAt = t.closedAt)
    (hstarted : t'.started = if turn.stage.Started then t.started else t.started ++ [n])
    (hdrains : t'.drains = t.drains) : LaneOk t' := by
  have hrefused : stage ≠ .refused := by
    rintro rfl
    exact hnew
  have hlt := (List.getElem?_eq_some_iff.1 hn).1
  have hserialAt := serialAt_set hn hold hrefused
  constructor
  · rw [hturns, htail]
    exact h.chained.setStage hn hold hpassed hrefused hstart hguarded
  · obtain ⟨hnodup, hmem⟩ := h.inflight
    rw [hinflight, hturns]
    split
    · rename_i hu
      refine ⟨hnodup, ?_⟩
      intro i
      rw [hmem i]
      constructor
      · rintro ⟨turn', hi, hinterleave, hu'⟩
        by_cases hin : i = n
        · subst hin
          cases hn.symm.trans hi
          exact ⟨_, (getElem?_setStage hn).2 (.inr ⟨rfl, rfl⟩), hinterleave, hu⟩
        · exact ⟨turn', (getElem?_setStage hn).2 (.inl ⟨hin, hi⟩), hinterleave, hu'⟩
      · rintro ⟨turn', hi, hinterleave, hu'⟩
        rcases (getElem?_setStage hn).1 hi with ⟨-, hi⟩ | ⟨rfl, rfl⟩
        · exact ⟨turn', hi, hinterleave, hu'⟩
        · exact ⟨turn, hn, hinterleave, hunsettled hu⟩
    · rename_i hu
      refine ⟨hnodup.erase _, ?_⟩
      intro i
      rw [hnodup.mem_erase_iff, hmem i]
      constructor
      · rintro ⟨hin, turn', hi, hinterleave, hu'⟩
        exact ⟨turn', (getElem?_setStage hn).2 (.inl ⟨hin, hi⟩), hinterleave, hu'⟩
      · rintro ⟨turn', hi, hinterleave, hu'⟩
        rcases (getElem?_setStage hn).1 hi with ⟨hin, hi⟩ | ⟨rfl, rfl⟩
        · exact ⟨hin, turn', hi, hinterleave, hu'⟩
        · exact absurd hu' hu
  · rw [hdepth, hturns, List.countP_set hlt, h.depth]
    obtain ⟨hlt', hget⟩ := List.getElem?_eq_some_iff.1 hn
    rw [hget]
    have hpos : turn.stage.Unsettled →
        0 < t.turns.countP (fun turn => turn.stage.Unsettled) := by
      intro hu
      exact List.countP_pos_iff.2 ⟨turn, List.mem_of_getElem? hn, by simpa using hu⟩
    by_cases hu : turn.stage.Unsettled
    · have := hpos hu
      by_cases hu' : stage.Unsettled
      · simp only [hu, hu', not_true_eq_false, and_false, if_false, decide_true, if_true]
        omega
      · simp [hu, hu']
    · have hu' : ¬ stage.Unsettled := fun hs => hu (hunsettled hs)
      simp [hu, hu']
  · rw [hclosed, hclosedAt, h.closed]
  · rw [hclosedAt, hturns, List.length_set]
    exact h.closedLe
  · rw [hclosedAt, hturns]
    intro i turn' hi
    rcases (getElem?_setStage hn).1 hi with ⟨-, hi⟩ | ⟨rfl, rfl⟩
    · exact h.refused i turn' hi
    · simp only [hrefused, false_iff]
      exact fun hm => hold ((h.refused i turn hn).2 hm)
  · rw [hstarted, hturns]
    intro i
    split
    · rename_i hs
      rw [h.started i]
      constructor
      · rintro ⟨turn', hi, hs'⟩
        by_cases hin : i = n
        · subst hin
          exact ⟨_, (getElem?_setStage hn).2 (.inr ⟨rfl, rfl⟩), hnew⟩
        · exact ⟨turn', (getElem?_setStage hn).2 (.inl ⟨hin, hi⟩), hs'⟩
      · rintro ⟨turn', hi, hs'⟩
        rcases (getElem?_setStage hn).1 hi with ⟨-, hi⟩ | ⟨rfl, rfl⟩
        · exact ⟨turn', hi, hs'⟩
        · exact ⟨turn, hn, hs⟩
    · rw [List.mem_append, List.mem_singleton, h.started i]
      constructor
      · rintro (⟨turn', hi, hs'⟩ | rfl)
        · by_cases hin : i = n
          · subst hin
            exact ⟨_, (getElem?_setStage hn).2 (.inr ⟨rfl, rfl⟩), hnew⟩
          · exact ⟨turn', (getElem?_setStage hn).2 (.inl ⟨hin, hi⟩), hs'⟩
        · exact ⟨_, (getElem?_setStage hn).2 (.inr ⟨rfl, rfl⟩), hnew⟩
      · rintro ⟨turn', hi, hs'⟩
        rcases (getElem?_setStage hn).1 hi with ⟨-, hi⟩ | ⟨rfl, rfl⟩
        · exact .inl ⟨turn', hi, hs'⟩
        · exact .inr rfl
  · have hordered : t.started.Pairwise fun i j =>
        SerialAt (t.turns.set n { turn with stage := stage }) i →
        SerialAt (t.turns.set n { turn with stage := stage }) j → i < j := by
      refine h.ordered.imp ?_
      intro i j hij hi hj
      exact hij ((hserialAt i).1 hi) ((hserialAt j).1 hj)
    rw [hstarted, hturns]
    split
    · exact hordered
    rename_i hs
    refine List.pairwise_append.2 ⟨hordered, List.pairwise_singleton _ _, ?_⟩
    intro i hi j hj hserial hserial'
    obtain rfl := List.mem_singleton.1 hj
    -- A later serial turn that had started would have found this one passed.
    obtain ⟨turn', hi', hs'⟩ := (h.started i).1 hi
    have hne : i ≠ j := by
      rintro rfl
      rw [hn] at hi'
      cases hi'
      exact hs hs'
    rcases Nat.lt_or_gt_of_ne hne with hlt | hlt
    · exact hlt
    obtain ⟨turn'', hi'', hserial''⟩ := (hserialAt i).1 hserial
    rw [hi'] at hi''
    cases hi''
    obtain ⟨_, b, hget, hb⟩ := h.chained.passed_before i turn' hi' hserial'' hs' j hlt
      ((hserialAt j).1 hserial') j rfl
    rw [hn] at hget
    cases hget
    exact absurd hb (hpassed b)
  · rw [hdrains, hturns]
    intro drain hd
    exact (h.drains drain hd).set hn hpassed hunsettled

theorem countP_concat (turns : List Turn) (turn : Turn) :
    (turns ++ [turn]).countP (fun turn => turn.stage.Unsettled) =
      turns.countP (fun turn => turn.stage.Unsettled) +
        if turn.stage.Unsettled then 1 else 0 := by
  simp [List.countP_append, List.countP_singleton]

section

variable (h : LaneOk t)
include h

/-- A turn is scheduled, or refused. -/
theorem LaneOk.run (load : Nat) (interleave : Bool) : LaneOk (t.run load interleave).2 := by
  have hget : ∀ (turn : Turn) {n : Nat} {turn' : Turn}, (t.turns ++ [turn])[n]? = some turn' ↔
      t.turns[n]? = some turn' ∨ (n = t.turns.length ∧ turn' = turn) := by
    intro turn n turn'
    rw [List.getElem?_append]
    split
    · rename_i hlt
      simp [Nat.ne_of_lt hlt]
    rename_i hge
    have hnone : t.turns[n]? = none := List.getElem?_eq_none (Nat.le_of_not_lt hge)
    simp only [hnone, List.getElem?_singleton, reduceCtorEq, false_or]
    constructor
    · intro hs
      obtain ⟨_, hs⟩ := guard_passed hs
      exact ⟨by omega, (Option.some.inj hs).symm⟩
    · rintro ⟨rfl, rfl⟩
      simp
  have hdrains : ∀ turn : Turn, ∀ drain ∈ t.drains, DrainOk (t.turns ++ [turn]) drain := by
    intro turn drain hd
    obtain ⟨hcovered, hphase⟩ := h.drains drain hd
    refine ⟨by simp only [List.length_append]; omega, ?_⟩
    cases hdp : drain.phase with
    | tail k inflight => trivial
    | guards k inflight =>
      rw [hdp] at hphase
      exact hphase.append
    | resolved =>
      rw [hdp] at hphase
      intro i turn' hi hgeti
      rcases (hget turn).1 hgeti with hgeti | ⟨rfl, -⟩
      · exact hphase i turn' hi hgeti
      · omega
  have hstarted : ∀ turn : Turn, ¬ turn.stage.Started → ∀ n, n ∈ t.started ↔
      ∃ turn', (t.turns ++ [turn])[n]? = some turn' ∧ turn'.stage.Started := by
    intro turn hs n
    rw [h.started n]
    constructor
    · rintro ⟨turn', hn, hs'⟩
      exact ⟨turn', (hget turn).2 (.inl hn), hs'⟩
    · rintro ⟨turn', hn, hs'⟩
      rcases (hget turn).1 hn with hn | ⟨-, rfl⟩
      · exact ⟨turn', hn, hs'⟩
      · exact absurd hs' hs
  have hordered : ∀ turn : Turn, t.started.Pairwise fun i j =>
      SerialAt (t.turns ++ [turn]) i → SerialAt (t.turns ++ [turn]) j → i < j := by
    intro turn
    refine h.ordered.imp_of_mem ?_
    intro i j hi hj hij hsi hsj
    have hlt : ∀ k, k ∈ t.started → k < t.turns.length := by
      intro k hk
      obtain ⟨turn', hk', -⟩ := (h.started k).1 hk
      exact (List.getElem?_eq_some_iff.1 hk').1
    exact hij ((serialAt_append (hlt i hi)).1 hsi) ((serialAt_append (hlt j hj)).1 hsj)
  unfold Turns.run
  split
  · rename_i hclosed
    obtain ⟨m, hm⟩ := Option.isSome_iff_exists.1 (h.closed ▸ hclosed)
    have hmle := h.closedLe m hm
    have hserial : ¬ (⟨interleave, none, .refused⟩ : Turn).Serial := fun hs => hs.2 rfl
    constructor
    · have happend := h.chained.append ⟨interleave, none, .refused⟩ id (fun _ => rfl)
        (fun hs => absurd hs hserial)
      rw [if_neg hserial] at happend
      exact happend
    · refine ⟨h.inflight.1, ?_⟩
      intro n
      rw [h.inflight.2 n]
      constructor
      · rintro ⟨turn', hn, hi⟩
        exact ⟨turn', (hget _).2 (.inl hn), hi⟩
      · rintro ⟨turn', hn, hi, hu⟩
        rcases (hget _).1 hn with hn | ⟨-, rfl⟩
        · exact ⟨turn', hn, hi, hu⟩
        · exact hu.elim
    · have hnot : ¬ TurnStage.refused.Unsettled := id
      rw [countP_concat, if_neg hnot]
      exact h.depth
    · exact h.closed
    · intro m' hm'
      simp only [List.length_append]
      have := h.closedLe m' hm'
      omega
    · intro n turn' hn
      rcases (hget _).1 hn with hn | ⟨rfl, rfl⟩
      · exact h.refused n turn' hn
      · simp only [true_iff]
        exact ⟨m, hm, hmle⟩
    · exact hstarted _ id
    · exact hordered _
    · exact hdrains _
  · rename_i hopen
    have hnone : t.closedAt = none := by
      have := h.closed
      cases hc : t.closedAt with
      | none => rfl
      | some m => simp [hc, hopen] at this
    have hrefused : ∀ turn : Turn, turn.stage = .scheduled → ∀ n turn',
        (t.turns ++ [turn])[n]? = some turn' →
        (turn'.stage = .refused ↔ ∃ m, t.closedAt = some m ∧ m ≤ n) := by
      intro turn hstage n turn' hn
      rcases (hget turn).1 hn with hn | ⟨-, rfl⟩
      · exact h.refused n turn' hn
      · simp [hstage, hnone]
    have hdepth : ∀ turn : Turn, turn.stage = .scheduled →
        t.depth + 1 = (t.turns ++ [turn]).countP (fun turn => turn.stage.Unsettled) := by
      intro turn hstage
      have hunsettled : TurnStage.scheduled.Unsettled := trivial
      rw [countP_concat, hstage, if_pos hunsettled, h.depth]
    split
    · have hserial : ¬ (⟨true, none, .scheduled⟩ : Turn).Serial := by simp [Turn.Serial]
      constructor
      · have happend := h.chained.append ⟨true, none, .scheduled⟩ id (fun _ => rfl)
          (fun hs => absurd hs hserial)
        exact happend
      · obtain ⟨hnodup, hmem⟩ := h.inflight
        have hnew : t.turns.length ∉ t.inflight := by
          intro hin
          obtain ⟨turn', hn, -⟩ := (hmem _).1 hin
          exact absurd (List.getElem?_eq_some_iff.1 hn).1 (Nat.lt_irrefl _)
        refine ⟨?_, ?_⟩
        · refine List.nodup_append.2 ⟨hnodup, by simp, ?_⟩
          intro i hi j hj
          obtain rfl := List.mem_singleton.1 hj
          rintro rfl
          exact hnew hi
        · intro n
          rw [List.mem_append, List.mem_singleton, hmem n]
          constructor
          · rintro (⟨turn', hn, hi⟩ | rfl)
            · exact ⟨turn', (hget _).2 (.inl hn), hi⟩
            · exact ⟨_, (hget _).2 (.inr ⟨rfl, rfl⟩), rfl, trivial⟩
          · rintro ⟨turn', hn, hi⟩
            rcases (hget _).1 hn with hn | ⟨rfl, -⟩
            · exact .inl ⟨turn', hn, hi⟩
            · exact .inr rfl
      · exact hdepth _ rfl
      · exact h.closed
      · simp [hnone]
      · exact hrefused _ rfl
      · exact hstarted _ id
      · exact hordered _
      · exact hdrains _
    · constructor
      · have happend := h.chained.append ⟨false, t.tail, .scheduled⟩ id
          (fun hi => by simp at hi) (fun _ => rfl)
        exact happend
      · refine ⟨h.inflight.1, ?_⟩
        intro n
        rw [h.inflight.2 n]
        constructor
        · rintro ⟨turn', hn, hi⟩
          exact ⟨turn', (hget _).2 (.inl hn), hi⟩
        · rintro ⟨turn', hn, hi, hu⟩
          rcases (hget _).1 hn with hn | ⟨-, rfl⟩
          · exact ⟨turn', hn, hi, hu⟩
          · simp at hi
      · exact hdepth _ rfl
      · exact h.closed
      · simp [hnone]
      · exact hrefused _ rfl
      · exact hstarted _ id
      · exact hordered _
      · exact hdrains _

theorem LaneOk.start (hstep : t.start n = some t') : LaneOk t' := by
  unfold Turns.start at hstep
  split at hstep
  · rename_i turn hn
    obtain ⟨hready, hstep⟩ := guard_passed hstep
    obtain ⟨hstage, htail⟩ := hready
    cases hstep
    refine h.move hn .running ?_ ?_ trivial ?_
      (.inr ((tailResolved_iff t _).1 htail)) ?_ rfl rfl ?_ ?_ rfl rfl ?_ rfl
    · simp [hstage]
    · simp [hstage]
    · simp [hstage, TurnStage.Unsettled]
    · simp
    · simp [Turns.setStage, TurnStage.Unsettled]
    · simp [Turns.setStage, TurnStage.Unsettled]
    · simp [hstage, TurnStage.Started]
  · simp at hstep

theorem LaneOk.finish {fulfilled : Bool} (hstep : t.finish n fulfilled = some t') : LaneOk t' := by
  unfold Turns.finish at hstep
  split at hstep
  · rename_i turn hn
    obtain ⟨hstage, rfl⟩ := guard_taken hstep
    refine h.move hn (.ended fulfilled) ?_ ?_ trivial ?_ ?_ ?_ rfl rfl ?_ ?_ rfl rfl
      ?_ rfl
    · simp [hstage]
    · simp [hstage]
    · simp [hstage, TurnStage.Unsettled]
    · exact .inl (by simp [hstage, TurnStage.Started])
    · simp
    · simp [Turns.setStage, TurnStage.Unsettled]
    · simp [Turns.setStage, TurnStage.Unsettled]
    · simp [Turns.setStage, hstage, TurnStage.Started]
  · simp at hstep

theorem LaneOk.settle {load load' : Nat}
    (hstep : t.settle load n = some (load', t')) : LaneOk t' := by
  unfold Turns.settle at hstep
  split at hstep
  · rename_i turn hn
    split at hstep
    · rename_i fulfilled hstage
      obtain ⟨-, rfl⟩ := Prod.mk.inj (Option.some.inj hstep)
      refine h.move hn (.settled fulfilled) ?_ ?_ trivial ?_ ?_ ?_ rfl rfl ?_ ?_ rfl rfl
        ?_ rfl
      · simp [hstage]
      · simp [hstage]
      · simp [TurnStage.Unsettled]
      · exact .inl (by simp [hstage, TurnStage.Started])
      · simp
      · split
        · rfl
        rename_i hinterleave
        refine (List.erase_of_not_mem ?_).symm
        intro hin
        obtain ⟨turn', hn', hi, -⟩ := (h.inflight.2 n).1 hin
        rw [hn] at hn'
        cases hn'
        exact hinterleave hi
      · simp [hstage, TurnStage.Unsettled]
      · simp [Turns.setStage, hstage, TurnStage.Started]
    · simp at hstep
  · simp at hstep

theorem LaneOk.pass (hstep : t.pass n = some t') : LaneOk t' := by
  unfold Turns.pass at hstep
  split at hstep
  · rename_i turn hn
    split at hstep
    · rename_i fulfilled hstage
      obtain ⟨hinterleave, rfl⟩ := guard_past_taken hstep
      refine h.move hn (.passed fulfilled) ?_ ?_ trivial ?_ ?_ ?_ rfl rfl ?_ ?_ rfl rfl
        ?_ rfl
      · simp [hstage]
      · simp [hstage]
      · simp [TurnStage.Unsettled]
      · exact .inl (by simp [hstage, TurnStage.Started])
      · exact fun _ _ => by simpa using hinterleave
      · refine (List.erase_of_not_mem ?_).symm
        intro hin
        obtain ⟨turn', hn', hi, -⟩ := (h.inflight.2 n).1 hin
        rw [hn] at hn'
        cases hn'
        exact hinterleave hi
      · simp [Turns.setStage, hstage, TurnStage.Unsettled]
      · simp [Turns.setStage, hstage, TurnStage.Started]
    · simp at hstep
  · simp at hstep

theorem LaneOk.close : LaneOk t.close := by
  have hclosedAt : ∀ m, t.close.closedAt = some m →
      t.closedAt = some m ∨ (t.closedAt = none ∧ m = t.turns.length) := by
    intro m hm
    simp only [Turns.close, Option.some.injEq] at hm
    cases hc : t.closedAt with
    | none =>
      rw [hc] at hm
      exact .inr ⟨rfl, hm.symm⟩
    | some m' =>
      rw [hc] at hm
      exact .inl (congrArg some hm)
  refine { h with closed := rfl, closedLe := ?_, refused := ?_ }
  · intro m hm
    rcases hclosedAt m hm with hm | ⟨-, rfl⟩
    · exact h.closedLe m hm
    · exact Nat.le_refl _
  · intro n turn hn
    rw [h.refused n turn hn]
    constructor
    · rintro ⟨m, hm, hle⟩
      exact ⟨m, by simp [Turns.close, hm], hle⟩
    · rintro ⟨m, hm, hle⟩
      rcases hclosedAt m hm with hm | ⟨-, rfl⟩
      · exact ⟨m, hm, hle⟩
      · exact absurd (List.getElem?_eq_some_iff.1 hn).1 (Nat.not_lt_of_le hle)

theorem LaneOk.drain : LaneOk t.drain := by
  refine { h with drains := ?_ }
  intro drain hd
  rcases List.mem_append.1 hd with hd | hd
  · exact h.drains drain hd
  · obtain rfl := List.mem_singleton.1 hd
    exact ⟨Nat.le_refl _, trivial⟩

/-- Once the tail has resolved and no guard is pending, every turn has settled. -/
theorem LaneOk.all_settled (htail : TailPassed t.turns t.tail) (hinflight : t.inflight = []) :
    ∀ (i : Nat) (turn' : Turn), t.turns[i]? = some turn' → ¬ turn'.stage.Unsettled := by
  intro i turn' hi hu
  by_cases hinterleave : turn'.interleave = true
  · have hin : i ∈ t.inflight := (h.inflight.2 i).2 ⟨turn', hi, hinterleave, hu⟩
    rw [hinflight] at hin
    exact absurd hin (List.not_mem_nil)
  · have hserial : SerialAt t.turns i := by
      refine ⟨turn', hi, by simpa using hinterleave, ?_⟩
      intro hr
      rw [hr] at hu
      exact hu
    obtain ⟨_, b, hget, hb⟩ := h.chained.all_passed htail i hserial i rfl
    rw [hi] at hget
    cases hget
    rw [hb] at hu
    exact hu

theorem LaneOk.drainNext {d : Nat} (hstep : t.drainNext d = some t') : LaneOk t' := by
  have hset : ∀ {drain : Drain}, DrainOk t.turns drain →
      LaneOk { t with drains := t.drains.set d drain } := by
    intro drain hdrain
    refine { h with drains := ?_ }
    intro drain' hd
    rcases List.mem_or_eq_of_mem_set hd with hd | rfl
    · exact h.drains drain' hd
    · exact hdrain
  unfold Turns.drainNext at hstep
  split at hstep
  · rename_i covered k inflight hd
    obtain ⟨hresolved, rfl⟩ := guard_taken hstep
    exact hset ⟨(h.drains _ (List.mem_of_getElem? hd)).1, (tailResolved_iff t k).1 hresolved⟩
  · rename_i covered k inflight hd
    obtain ⟨-, rfl⟩ := guard_taken hstep
    obtain ⟨hcovered, hpassed⟩ := h.drains _ (List.mem_of_getElem? hd)
    refine hset ⟨hcovered, ?_⟩
    split
    · trivial
    · rename_i hphase
      split at hphase <;> simp at hphase
    · rename_i hphase
      split at hphase
      · rename_i hstable
        intro i turn' _ hi
        exact h.all_settled (hstable.1 ▸ hpassed) hstable.2 i turn' hi
      · simp at hphase
  · simp at hstep

theorem LaneOk.step {load load' : Nat} {e : TurnEvent}
    (hstep : t.step load e = some (load', t')) : LaneOk t' := by
  have hmap : ∀ {o : Option Turns}, (o.map fun t' => (load, t')) = some (load', t') →
      o = some t' := by
    intro o ho
    obtain ⟨u, hu, heq⟩ := Option.map_eq_some_iff.1 ho
    obtain ⟨-, rfl⟩ := Prod.mk.inj heq
    exact hu
  cases e with
  | run interleave =>
    have hrun := h.run load interleave
    rw [Option.some.inj hstep] at hrun
    exact hrun
  | start n => exact h.start (hmap hstep)
  | finish n fulfilled => exact h.finish (hmap hstep)
  | settle n => exact h.settle hstep
  | pass n => exact h.pass (hmap hstep)
  | close =>
    obtain ⟨-, rfl⟩ := Prod.mk.inj (Option.some.inj hstep)
    exact h.close
  | drain =>
    obtain ⟨-, rfl⟩ := Prod.mk.inj (Option.some.inj hstep)
    exact h.drain
  | drainNext d => exact h.drainNext (hmap hstep)

end

end

/-! ## The shared load -/

/-- What one `Turns` contributes to the shared load. -/
def Turns.share (t : Turns) : Nat := if t.loaded then t.depth else 0

theorem sum_map_set {α : Type} (f : α → Nat) : ∀ {l : List α} {k : Nat} {a b : α}, l[k]? = some a →
      ((l.set k b).map f).sum + f a = (l.map f).sum + f b := by
  intro l
  induction l with
  | nil => intro k a b h; simp at h
  | cons x l ih =>
    intro k a b h
    cases k with
    | zero =>
      cases h
      simp only [List.set_cons_zero, List.map_cons, List.sum_cons]
      omega
    | succ k =>
      have := ih (b := b) (by simpa using h)
      simp only [List.set_cons_succ, List.map_cons, List.sum_cons]
      omega

theorem le_sum_map {α : Type} (f : α → Nat) {l : List α} {k : Nat} {a : α}
    (h : l[k]? = some a) : f a ≤ (l.map f).sum :=
  List.single_le_sum (fun _ _ => Nat.zero_le _) _ (List.mem_map_of_mem (List.mem_of_getElem? h))

variable {t : Turns}

/-- An event changes the load by what it changes of the depth. -/
theorem step_share {t' : Turns} {load load' : Nat} {e : TurnEvent} (h : LaneOk t)
    (hload : t.share ≤ load) (hstep : t.step load e = some (load', t')) :
    load' + t.share = load + t'.share := by
  have hmap : ∀ {o : Option Turns}, (∀ u, o = some u → u.share = t.share) →
      (o.map fun t' => (load, t')) = some (load', t') → load' + t.share = load + t'.share := by
    intro o hshare ho
    obtain ⟨u, hu, heq⟩ := Option.map_eq_some_iff.1 ho
    obtain ⟨rfl, rfl⟩ := Prod.mk.inj heq
    rw [hshare u hu]
  cases e with
  | run interleave =>
    have hrun : t.run load interleave = (load', t') := Option.some.inj hstep
    unfold Turns.run at hrun
    split at hrun
    · obtain ⟨rfl, rfl⟩ := Prod.mk.inj hrun
      rfl
    have hcounts : ∀ u : Turns, u.loaded = t.loaded → u.depth = t.depth + 1 →
        (if t.loaded then load + 1 else load) + t.share = load + u.share := by
      intro u hloaded hdepth
      simp only [Turns.share, hloaded, hdepth]
      split <;> omega
    split at hrun
    all_goals
      obtain ⟨rfl, rfl⟩ := Prod.mk.inj hrun
      exact hcounts _ rfl rfl
  | start n =>
    refine hmap ?_ hstep
    intro u hu
    unfold Turns.start at hu
    split at hu
    · split at hu
      · cases hu
        rfl
      · simp at hu
    · simp at hu
  | finish n fulfilled =>
    refine hmap ?_ hstep
    intro u hu
    unfold Turns.finish at hu
    split at hu
    · split at hu
      · cases hu
        rfl
      · simp at hu
    · simp at hu
  | settle n =>
    simp only [Turns.step] at hstep
    unfold Turns.settle at hstep
    split at hstep
    · rename_i turn hn
      split at hstep
      · rename_i fulfilled hstage
        obtain ⟨rfl, rfl⟩ := Prod.mk.inj (Option.some.inj hstep)
        have hpos : 0 < t.depth := by
          rw [h.depth]
          exact List.countP_pos_iff.2
            ⟨turn, List.mem_of_getElem? hn, by simp [hstage, TurnStage.Unsettled]⟩
        simp only [Turns.share, Turns.setStage] at hload ⊢
        rcases Bool.eq_false_or_eq_true t.loaded with hloaded | hloaded
        · simp only [hloaded, if_true] at hload ⊢
          omega
        · simp [hloaded]
      · simp at hstep
    · simp at hstep
  | pass n =>
    refine hmap ?_ hstep
    intro u hu
    unfold Turns.pass at hu
    split at hu
    · split at hu
      · split at hu
        · simp at hu
        · cases hu
          rfl
      · simp at hu
    · simp at hu
  | close | drain =>
    obtain ⟨rfl, rfl⟩ := Prod.mk.inj (Option.some.inj hstep)
    rfl
  | drainNext d =>
    refine hmap ?_ hstep
    intro u hu
    unfold Turns.drainNext at hu
    split at hu
    · obtain ⟨-, rfl⟩ := guard_taken hu
      rfl
    · obtain ⟨-, rfl⟩ := guard_taken hu
      rfl
    · simp at hu

/-! ## Runs -/

/-- What holds of the lanes of a host. -/
structure LanesOk (s : TurnLanes) : Prop where
  lanes : ∀ t ∈ s.lanes, LaneOk t
  load : s.load = (s.lanes.map Turns.share).sum

variable {s : TurnLanes}

theorem LanesOk.step {s' : TurnLanes} {l : TurnLabel} (h : LanesOk s) (hstep : s.step l = some s') :
    LanesOk s' := by
  cases l with
  | create loaded =>
    cases hstep
    constructor
    · intro t ht
      rcases List.mem_append.1 ht with ht | ht
      · exact h.lanes t ht
      · obtain rfl := List.mem_singleton.1 ht
        exact .initial loaded
    · simp [h.load, Turns.share]
  | lane k e =>
    simp only [TurnLanes.step] at hstep
    split at hstep
    · rename_i t ht
      split at hstep
      · rename_i done hdone
        cases hstep
        have hok := h.lanes t (List.mem_of_getElem? ht)
        have hle : t.share ≤ s.load := by
          rw [h.load]
          exact le_sum_map Turns.share ht
        constructor
        · intro t' ht'
          rcases List.mem_or_eq_of_mem_set ht' with ht' | rfl
          · exact h.lanes t' ht'
          · exact hok.step hdone
        · have hshare := step_share hok hle hdone
          have hsum := sum_map_set Turns.share (b := done.2) ht
          have := h.load
          show done.1 = ((s.lanes.set k done.2).map Turns.share).sum
          omega
      · simp at hstep
    · simp at hstep

theorem lanesOk_of_reachable (h : turnLanes.Reachable s) : LanesOk s := by
  refine Machine.System.Reach.invariant ?_ ?_ h
  · rintro s rfl
    exact ⟨by simp, rfl⟩
  · intro s l t hok _ hstep
    exact hok.step hstep

/-! ## What settles -/

/-- What is left to do for a turn. -/
def Turn.work (turn : Turn) : Nat :=
  match turn.stage with
  | .scheduled => 4
  | .running => 3
  | .ended _ => 2
  | .settled _ => if turn.interleave then 0 else 1
  | _ => 0

/-- The reactions of lane `k`, its bodies settling as `outcome` says. -/
def Reaction (outcome : Nat → Bool) (k : Nat) : TurnLabel → Prop
  | .lane j (.start _) | .lane j (.settle _) | .lane j (.pass _) => j = k
  | .lane j (.finish n fulfilled) => j = k ∧ fulfilled = outcome n
  | _ => False

instance (outcome : Nat → Bool) (k : Nat) (l : TurnLabel) : Decidable (Reaction outcome k l) := by
  unfold Reaction
  split <;> infer_instance

/-- A `Turns` with a turn that is not through has a reaction to run. -/
theorem LaneOk.progress (h : LaneOk t) (outcome : Nat → Bool) (k load : Nat)
    (hwork : 0 < (t.turns.map Turn.work).sum) :
    ∃ e load' t', Reaction outcome k (.lane k e) ∧ t.step load e = some (load', t') ∧
      (t'.turns.map Turn.work).sum < (t.turns.map Turn.work).sum := by
  have hex : ∃ n : Nat, ∃ turn : Turn, t.turns[n]? = some turn ∧ 0 < turn.work := by
    obtain ⟨w, hw, hpos⟩ := List.exists_mem_ne_zero_of_sum_ne_zero (Nat.ne_of_gt hwork)
    obtain ⟨turn, hturn, rfl⟩ := List.mem_map.1 hw
    obtain ⟨n, hn⟩ := List.getElem?_of_mem hturn
    exact ⟨n, turn, hn, Nat.pos_of_ne_zero hpos⟩
  -- The first turn with work left waits for nothing.
  obtain ⟨n, ⟨turn, hn, hpos⟩, hfirst⟩ : ∃ n : Nat,
      (∃ turn : Turn, t.turns[n]? = some turn ∧ 0 < turn.work) ∧
      ∀ i < n, ∀ turn' : Turn, t.turns[i]? = some turn' → turn'.work = 0 := by
    classical
    refine ⟨Nat.find hex, Nat.find_spec hex, ?_⟩
    intro i hi turn' hturn'
    have := Nat.find_min hex hi
    simp only [not_exists, not_and] at this
    exact Nat.eq_zero_of_not_pos (this turn' hturn')
  have hless : ∀ stage, ({ turn with stage := stage } : Turn).work < turn.work →
      ((t.turns.set n { turn with stage := stage }).map Turn.work).sum <
        (t.turns.map Turn.work).sum := by
    intro stage hlt
    have := sum_map_set Turn.work (b := { turn with stage := stage }) hn
    omega
  cases hstage : turn.stage with
  | scheduled =>
    have hready : t.TailResolved turn.behind := by
      rw [tailResolved_iff]
      by_cases hinterleave : turn.interleave = true
      · rw [h.chained.unchained n turn hn hinterleave]
        intro i hi
        simp at hi
      · have hserial : turn.Serial := ⟨by simpa using hinterleave, by simp [hstage]⟩
        have hbehind := h.chained.behind n turn hn hserial
        intro i hi
        rw [hi] at hbehind
        obtain ⟨hlt, ⟨turn', hget, hs, hnot⟩, -⟩ := hbehind
        have hzero := hfirst i hlt turn' hget
        refine ⟨turn', ?_⟩
        simp only [Turn.work] at hzero
        split at hzero
        · simp at hzero
        · simp at hzero
        · simp at hzero
        · simp [hs] at hzero
        · rename_i h1 h2 h3 h4
          cases hs' : turn'.stage with
          | passed fulfilled => exact ⟨fulfilled, hget, rfl⟩
          | refused => exact absurd hs' hnot
          | scheduled => exact absurd hs' h1
          | running => exact absurd hs' h2
          | ended b => exact absurd hs' (h3 b)
          | settled b => exact absurd hs' (h4 b)
    refine ⟨.start n, load, { t.setStage n turn .running with started := t.started ++ [n] }, rfl,
      ?_, ?_⟩
    · simp [Turns.step, Turns.start, hn, hstage, hready]
    · exact hless .running (by simp [Turn.work, hstage])
  | running =>
    refine ⟨.finish n (outcome n), load, t.setStage n turn (.ended (outcome n)), ⟨rfl, rfl⟩, ?_, ?_⟩
    · simp [Turns.step, Turns.finish, hn, hstage]
    · exact hless _ (by simp [Turn.work, hstage])
  | ended fulfilled =>
    refine ⟨.settle n, if t.loaded then load - 1 else load,
      { t.setStage n turn (.settled fulfilled) with
        depth := t.depth - 1
        inflight := if turn.interleave then t.inflight.erase n else t.inflight }, rfl, ?_, ?_⟩
    · simp only [Turns.step, Turns.settle, hn, hstage]
    · refine hless _ ?_
      simp only [Turn.work, hstage]
      split <;> omega
  | settled fulfilled =>
    have hserial : turn.interleave = false := by
      simp only [Turn.work, hstage] at hpos
      split at hpos
      · simp at hpos
      · rename_i hnot
        simpa using hnot
    refine ⟨.pass n, load, t.setStage n turn (.passed fulfilled), rfl, ?_, ?_⟩
    · simp [Turns.step, Turns.pass, hn, hstage, hserial]
    · exact hless _ (by simp [Turn.work, hstage, hserial])
  | passed | refused => simp [Turn.work, hstage] at hpos

/-- The reactions of `LaneOk.progress`, one after the other. -/
theorem settles (outcome : Nat → Bool) (k : Nat) :
    ∀ (n : Nat) {s : TurnLanes} {t : Turns}, LanesOk s → s.lanes[k]? = some t →
      (t.turns.map Turn.work).sum < n →
      ∃ ls s' t', turnLanes.exec (fun _ => Reaction outcome k) s ls = some s' ∧
        s'.lanes[k]? = some t' ∧ (t'.turns.map Turn.work).sum = 0 := by
  intro n
  induction n with
  | zero =>
    intro s t _ _ hlt
    exact absurd hlt (Nat.not_lt_zero _)
  | succ n ih =>
    intro s t hok hk hlt
    rcases Nat.eq_zero_or_pos (t.turns.map Turn.work).sum with hzero | hpos
    · exact ⟨[], s, t, rfl, hk, hzero⟩
    obtain ⟨e, load', t', hreaction, hstep, hless⟩ :=
      (hok.lanes t (List.mem_of_getElem? hk)).progress outcome k s.load hpos
    have hlane : turnLanes.step s (.lane k e) =
        some { lanes := s.lanes.set k t', load := load' } := by
      simp [turnLanes, TurnLanes.step, hk, hstep]
    have hk' : (s.lanes.set k t')[k]? = some t' :=
      List.getElem?_set_self (List.getElem?_eq_some_iff.1 hk).1
    obtain ⟨ls, s', t'', hexec, hk'', hzero⟩ :=
      ih (s := { lanes := s.lanes.set k t', load := load' })
        (hok.step (l := .lane k e) hlane) hk' (by omega)
    refine ⟨.lane k e :: ls, s', t'', ?_, hk'', hzero⟩
    simp only [Machine.System.exec, hreaction, if_true, hlane]
    exact hexec

/-! ## The turn lane -/

/-- At most one serial turn is running. -/
def SerialExclusive (t : Turns) : Prop :=
  ∀ (i j : Nat) (x y : Turn), t.turns[i]? = some x → t.turns[j]? = some y →
    x.interleave = false → y.interleave = false → x.stage = .running → y.stage = .running → i = j

/-- Serial turns start in the order in which they were submitted, none before one
that was submitted earlier. -/
def StartsInOrder (t : Turns) : Prop :=
  (t.started.Pairwise fun i j => SerialAt t.turns i → SerialAt t.turns j → i < j) ∧
    ∀ j ∈ t.started, SerialAt t.turns j → ∀ i < j, SerialAt t.turns i → i ∈ t.started

/-- `depth` counts the turns whose bookkeeping is to come.  Those are the turns whose
promises are pending, but for interleaved ones that have just ended. -/
def DepthCounts (t : Turns) : Prop :=
  t.depth = t.turns.countP (fun turn => turn.stage.Unsettled) ∧
    t.turns.countP (fun turn => turn.Pending) ≤ t.depth ∧
    ((∀ turn ∈ t.turns, turn.interleave = true → ∀ b, turn.stage ≠ .ended b) →
      t.turns.countP (fun turn => turn.Pending) = t.depth)

/-- A turn that was submitted after `close` is refused and never starts. -/
def NoneAfterClose (t : Turns) : Prop :=
  t.closed = t.closedAt.isSome ∧
    ∀ m, t.closedAt = some m → ∀ n (turn : Turn), m ≤ n → t.turns[n]? = some turn →
      turn.stage = .refused ∧ n ∉ t.started

/-- A `drain` that has resolved left no turn unsettled that was scheduled before it
was called. -/
def DrainsCovered (t : Turns) : Prop :=
  ∀ drain ∈ t.drains, drain.phase = .resolved →
    ∀ n (turn : Turn), n < drain.covered → t.turns[n]? = some turn → ¬ turn.stage.Unsettled

/-- The shared load is the sum of the depths. -/
def LoadSums (s : TurnLanes) : Prop := s.load = (s.lanes.map Turns.share).sum

/-- Whichever bodies are rejected, every turn scheduled on a lane gets its start and
settles. -/
def RejectionsIsolated (s : TurnLanes) : Prop :=
  ∀ (outcome : Nat → Bool) (k : Nat) (t : Turns), s.lanes[k]? = some t →
    ∃ ls s' t', turnLanes.exec (fun _ => Reaction outcome k) s ls = some s' ∧
      s'.lanes[k]? = some t' ∧
      ∀ turn ∈ t'.turns, turn.stage ≠ .scheduled ∧ ¬ turn.stage.Unsettled

theorem LaneOk.serialExclusive (h : LaneOk t) : SerialExclusive t := by
  have hnot : ∀ (i j : Nat) (x y : Turn), t.turns[i]? = some x → t.turns[j]? = some y →
      x.interleave = false → y.interleave = false → x.stage = .running → y.stage = .running →
      ¬ i < j := by
    intro i j x y hi hj hx hy hxr hyr hlt
    have hserial : y.Serial := ⟨hy, by simp [hyr]⟩
    have hserial' : SerialAt t.turns i := ⟨x, hi, hx, by simp [hxr]⟩
    obtain ⟨_, b, hget, hb⟩ := h.chained.passed_before j y hj hserial
      (by simp [hyr, TurnStage.Started]) i hlt hserial' i rfl
    rw [hi] at hget
    cases hget
    rw [hxr] at hb
    simp at hb
  intro i j x y hi hj hx hy hxr hyr
  have h1 := hnot i j x y hi hj hx hy hxr hyr
  have h2 := hnot j i y x hj hi hy hx hyr hxr
  omega

theorem LaneOk.startsInOrder (h : LaneOk t) : StartsInOrder t := by
  refine ⟨h.ordered, ?_⟩
  intro j hj hserial i hlt hserial'
  obtain ⟨turn, hget, hs⟩ := (h.started j).1 hj
  obtain ⟨turn', hget', hserial⟩ := hserial
  rw [hget] at hget'
  cases hget'
  obtain ⟨x, b, hi, hb⟩ := h.chained.passed_before j turn hget hserial hs i hlt hserial' i rfl
  exact (h.started i).2 ⟨x, hi, by simp [hb, TurnStage.Started]⟩

theorem LaneOk.depthCounts (h : LaneOk t) : DepthCounts t := by
  have hpending : ∀ turn : Turn, turn.Pending → turn.stage.Unsettled := by
    intro turn hp
    unfold Turn.Pending at hp
    unfold TurnStage.Unsettled
    split at hp <;> simp_all
  refine ⟨h.depth, ?_, ?_⟩
  · rw [h.depth]
    refine List.countP_mono_left ?_
    intro turn _ hp
    simpa using hpending turn (by simpa using hp)
  · intro hnone
    rw [h.depth]
    refine List.countP_congr ?_
    intro turn hturn
    simp only [decide_eq_true_eq]
    refine ⟨hpending turn, ?_⟩
    intro hu
    unfold Turn.Pending
    cases hs : turn.stage with
    | scheduled | running => trivial
    | ended b =>
      cases hi : turn.interleave with
      | false => rfl
      | true => exact absurd hs (hnone turn hturn hi b)
    | settled | passed | refused => simp [hs, TurnStage.Unsettled] at hu

theorem LaneOk.noneAfterClose (h : LaneOk t) : NoneAfterClose t := by
  refine ⟨h.closed, ?_⟩
  intro m hm n turn hle hn
  have hrefused := (h.refused n turn hn).2 ⟨m, hm, hle⟩
  refine ⟨hrefused, ?_⟩
  intro hs
  obtain ⟨turn', hn', hs'⟩ := (h.started n).1 hs
  rw [hn] at hn'
  cases hn'
  rw [hrefused] at hs'
  exact hs'

theorem LaneOk.drainsCovered (h : LaneOk t) : DrainsCovered t := by
  intro drain hd hphase
  obtain ⟨-, hok⟩ := h.drains drain hd
  rw [hphase] at hok
  exact hok

theorem LanesOk.rejectionsIsolated (h : LanesOk s) : RejectionsIsolated s := by
  intro outcome k t hk
  obtain ⟨ls, s', t', hexec, hk', hzero⟩ := settles outcome k _ h hk (Nat.lt_succ_self _)
  refine ⟨ls, s', t', hexec, hk', ?_⟩
  intro turn hturn
  have hwork : turn.work = 0 :=
    List.sum_eq_zero_iff_forall_eq_nat.1 hzero _ (List.mem_map_of_mem hturn)
  unfold Turn.work at hwork
  cases hs : turn.stage <;> simp_all [TurnStage.Unsettled]

/-- **The turn lane.**  In every run of any number of `Turns` that share one load:
at most one serial turn of a `Turns` is running, its serial turns start in the order
in which they were submitted, a rejected turn prevents no later one, `depth` and the
shared load count exactly, nothing that is submitted after `close` starts, and a
`drain` resolves only once every turn scheduled before it has settled. -/
theorem turnLanes_sound (s : TurnLanes) (h : turnLanes.Reachable s) :
    (∀ t ∈ s.lanes, SerialExclusive t ∧ StartsInOrder t ∧ DepthCounts t ∧ NoneAfterClose t ∧
      DrainsCovered t) ∧ LoadSums s ∧ RejectionsIsolated s := by
  have hok := lanesOk_of_reachable h
  refine ⟨?_, hok.load, hok.rejectionsIsolated⟩
  intro t ht
  have hlane := hok.lanes t ht
  exact ⟨hlane.serialExclusive, hlane.startsInOrder, hlane.depthCounts, hlane.noneAfterClose,
    hlane.drainsCovered⟩

/-- Two lanes: a rejected serial turn, one behind it, one submitted after `close`, an
interleaved turn, and a drain. -/
def turnLanesRun : List TurnLabel :=
  [.create true, .create true, .lane 0 (.run false), .lane 0 (.run false), .lane 1 (.run true),
    .lane 0 .close, .lane 0 (.run false), .lane 0 .drain, .lane 0 (.start 0),
    .lane 0 (.finish 0 false), .lane 0 (.settle 0), .lane 0 (.pass 0), .lane 0 (.start 1),
    .lane 1 (.start 0), .lane 0 (.finish 1 true), .lane 0 (.settle 1), .lane 0 (.pass 1),
    .lane 0 (.drainNext 0), .lane 0 (.drainNext 0)]

def turnLanesEnd : TurnLanes :=
  (turnLanes.exec (fun _ _ => True) { lanes := [], load := 0 } turnLanesRun).get (by decide)

theorem turnLanes_sound_rejected : (turnLanesEnd.load = 1 ∧
      turnLanesEnd.lanes.map (fun t => t.drains.map (·.phase)) = [[.resolved], []]) ∧
      (∀ t ∈ turnLanesEnd.lanes, SerialExclusive t ∧ StartsInOrder t ∧ DepthCounts t ∧
        NoneAfterClose t ∧ DrainsCovered t) ∧
      LoadSums turnLanesEnd ∧ RejectionsIsolated turnLanesEnd := by
  have hstart : turnLanes.Reachable { lanes := [], load := 0 } := .start rfl
  exact ⟨by decide, turnLanes_sound turnLanesEnd (hstart.exec_get turnLanesRun (by decide))⟩

/-! ## Before and after `close` -/

/-- No turn at all starts once the turns are closed. -/
def NoStartAfterClose (s : TurnLanes) : Prop :=
  ∀ k t n, s.lanes[k]? = some t → t.closed = true → turnLanes.step s (.lane k (.start n)) = none

/-- `depth` is the number of promises that are pending. -/
def DepthPending (s : TurnLanes) : Prop :=
  ∀ t ∈ s.lanes, t.depth = t.turns.countP fun turn => turn.Pending

/-- A turn scheduled before `close` starts after it, and an interleaved turn is
counted until its guard has run. -/
theorem not_noStartAfterClose : ¬ (∀ s, turnLanes.Reachable s → NoStartAfterClose s) ∧
      ¬ ∀ s, turnLanes.Reachable s → DepthPending s := by
  have hstart : turnLanes.Reachable { lanes := [], load := 0 } := .start rfl
  constructor
  · intro h
    have hclosed := h _ (hstart.exec_get [.create true, .lane 0 (.run false), .lane 0 .close]
      (by decide)) 0 _ 0 rfl rfl
    exact absurd hclosed (by decide)
  · intro h
    have hdepth := h _ (hstart.exec_get [.create true, .lane 0 (.run true), .lane 0 (.start 0),
      .lane 0 (.finish 0 true)] (by decide))
    exact absurd (hdepth _ (List.mem_of_getElem? (i := 0) rfl)) (by decide)

end SigxActors.Host
