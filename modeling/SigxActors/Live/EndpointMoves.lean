/-
  Live/EndpointMoves.lean --- what a step of the live endpoint does.

  A step is told by its effect: on the subscription that goes on, on the queue, and on what
  the consumer has been sent.
-/
import SigxActors.Live.Endpoint

set_option autoImplicit false

namespace SigxActors.Live

open SigxActors.Js

variable {V : Type}

namespace LiveEndpoint

variable {o : LiveEndpointOptions} {s t : LiveEndpoint V} {i : Nat} {start : Start V}

/-- A subscription ends, and says `error?`; `f` is what becomes of its record. -/
def conclude (s : LiveEndpoint V) (i : Nat) (f : Start V → Start V) (error? : Option FrameError) :
    LiveEndpoint V :=
  wake { s.setStart i f with
    live := s.live - 1
    terminal := s.terminal ++ error?.toList.map fun e => (i, e) }

/-- `frames` goes on at the top of its loop. -/
def Turns (s : LiveEndpoint V) (l : Label V) : Prop :=
  l = .next ∧ (s.phase = .start ∨ s.phase = .yielded) ∨
    l = .resume ∧ s.phase = .parked ∧ s.closed = false

inductive Moves (s : LiveEndpoint V) : Label V → LiveEndpoint V → Prop
  | advances {i : Nat} {start : Start V} {stage : Stage} (hget : s.starts[i]? = some start)
      (hold : start.stage = .definition ∨ start.stage = .authorization)
      (hnew : stage = .authorization ∨ stage = .principal) :
      Moves s (.proceed i) (s.setStart i fun start => { start with stage := stage })
  | opens {i : Nat} {start : Start V} (hget : s.starts[i]? = some start)
      (hold : start.stage = .principal) :
      Moves s (.proceed i)
        { s.setStart i fun start => { start with stage := .watching, watch := .open } with
          stops := s.stops ++ [i] }
  | expires {i : Nat} {start : Start V} (hget : s.starts[i]? = some start)
      (hdeadline : start.deadline = true) :
      Moves s (.expire i)
        (s.setStart i fun start => { start with deadline := false, timedOut := true })
  | emits {i : Nat} {v : V} {start : Start V} (hget : s.starts[i]? = some start)
      (hold : start.stage = .watching) (hopen : s.closed = false) :
      Moves s (.value i v)
        ((s.setStart i fun start =>
          { start.disarmDeadline with produced := start.produced ++ [v] }).emitValue i v)
  /-- A value that comes too late ends the subscription, and leaves its watch. -/
  | drops {i : Nat} {v : V} {start : Start V} (hget : s.starts[i]? = some start)
      (hold : start.stage = .watching) (hclosed : s.closed = true) :
      Moves s (.value i v)
        (s.conclude i (fun start =>
          { start.disarmDeadline with produced := start.produced ++ [v], stage := .ended }) none)
  | ends {l : Label V} {i : Nat} {start : Start V} {watch : WatchState → WatchState}
      {error? : Option FrameError} (hget : s.starts[i]? = some start)
      (hold : start.stage ≠ .ended)
      (hwatch : start.stage = .watching ∧ watch = (fun _ => .over) ∨
        start.stage ≠ .watching ∧ watch = id)
      (hopen : error?.isSome = true → s.closed = false)
      (hcause : error?.isSome = true → (∃ e, l = .fail i e) ∨ start.timedOut = true ∨
        start.stage = .definition)
      (hlabel : (∃ e, l = .fail i e) ∨ l = .unknown i ∨ l = .finish i) :
      Moves s l
        (s.conclude i (fun start =>
          { start.disarmDeadline with watch := watch start.watch, stage := .ended }) error?)
  | sends {l : Label V} {rest : LiveEndpoint V} {frame : LiveFrame V} (hturns : s.Turns l)
      (htake : s.take = (rest, some frame)) :
      Moves s l { rest with sent := rest.sent ++ [frame], phase := .yielded }
  | parks {l : Label V} (hturns : s.Turns l) (hpending : s.pending = false) (hlive : s.live ≠ 0) :
      Moves s l { s with phase := .parked, woken := false }
  | finishes {l : Label V} (hturns : s.Turns l) (hpending : s.pending = false)
      (hlive : s.live = 0) : Moves s l s.sweep
  | pings (hphase : s.phase = .parked) (hclosed : s.closed = false) (hpending : s.pending = false) :
      Moves s .resume { s with sent := s.sent ++ [.ping], phase := .yielded, woken := false }
  /-- The `finally` of `frames` runs after a `return`. -/
  | sweeps {l : Label V} (h : l = .resume ∧ s.phase = .parked ∧ s.closed = true ∨
        l = .unwind ∧ s.phase = .returning) : Moves s l s.sweep
  | returns : Moves s .ret s.ret
  | idles (hphase : s.phase = .done) : Moves s .next s

theorem settle_eq (s : LiveEndpoint V) (i : Nat) (f : Start V → Start V) :
    (s.setStart i f).settle i =
      s.conclude i (fun start => { (f start).disarmDeadline with stage := .ended }) none := by
  unfold settle conclude setStart wake
  rw [modify_modify, Option.toList_none, List.map_nil, List.append_nil]

theorem refuse_eq (s : LiveEndpoint V) (i : Nat) (f : Start V → Start V) (e : FrameError) :
    (s.setStart i f).refuse i e =
      s.conclude i (fun start => { (f start).disarmDeadline with stage := .ended })
        (if s.closed then none else some e) := by
  unfold refuse
  split
  case isTrue hclosed =>
    have hclosed' : s.closed = true := hclosed
    rw [settle_eq, if_pos hclosed']
  case isFalse hopen =>
    have hopen' : ¬ s.closed = true := hopen
    rw [if_neg hopen']
    unfold emitError settle conclude setStart wake
    rw [modify_modify, Bool.or_assoc, Bool.or_self]
    rfl

theorem setStart_id (s : LiveEndpoint V) (i : Nat) : s.setStart i id = s := by
  unfold setStart
  rw [List.modify_id]

theorem of_take_none (h : s.take = (t, none)) : t = s ∧ s.pending = false := by
  unfold take at h
  split at h
  case h_1 => cases h
  case h_2 hterminal =>
    split at h
    case h_2 => cases h
    case h_1 hlatest =>
      cases h
      refine ⟨rfl, ?_⟩
      unfold pending
      rw [hterminal, hlatest]
      rfl

theorem of_take_some {frame : LiveFrame V} (h : s.take = (t, some frame)) :
    (∃ i e rest, s.terminal = (i, e) :: rest ∧ t = { s with terminal := rest } ∧
      frame = .error i e) ∨
    (∃ i v rest, s.terminal = [] ∧ s.latest.entries = (i, v) :: rest ∧
      t = { s with latest := s.latest.erase i } ∧ frame = .value i v) := by
  unfold take at h
  split at h
  case h_1 i e rest hterminal =>
    cases h
    exact .inl ⟨i, e, rest, hterminal, rfl, rfl⟩
  case h_2 hterminal =>
    split at h
    case h_1 => cases h
    case h_2 i v rest hlatest =>
      cases h
      exact .inr ⟨i, v, rest, hterminal, hlatest, rfl, rfl⟩

variable {l : Label V}

theorem moves_of_turn (hturns : s.Turns l) : Moves s l s.turn := by
  unfold turn
  split
  case h_1 t frame htake => exact .sends hturns htake
  case h_2 t htake =>
    obtain ⟨rfl, hpending⟩ := of_take_none htake
    split
    case isTrue hnone =>
      rw [Bool.and_eq_true] at hnone
      exact .finishes hturns hpending (of_decide_eq_true hnone.1)
    case isFalse hlive =>
      refine .parks hturns hpending fun hnone => hlive ?_
      rw [hpending, hnone]
      rfl

theorem moves_of_proceed (h : s.proceed i = some t) : Moves s (.proceed i) t := by
  unfold proceed at h
  split at h
  case h_1 => cases h
  case h_2 start hget =>
    split at h
    case h_1 hstage =>
      cases h
      exact .advances hget (.inl hstage) (.inl rfl)
    case h_2 hstage =>
      cases h
      exact .advances hget (.inr hstage) (.inr rfl)
    case h_3 hstage =>
      cases h
      exact .opens hget hstage
    case h_4 => cases h
    case h_5 => cases h

theorem setStart_setStart (s : LiveEndpoint V) (i : Nat) (f g : Start V → Start V) :
    (s.setStart i f).setStart i g = s.setStart i fun start => g (f start) := by
  unfold setStart
  rw [modify_modify]

theorem open_of_isSome {e : FrameError}
    (h : (if s.closed then none else some e : Option FrameError).isSome = true) :
    s.closed = false := by
  split at h
  · cases h
  · exact Bool.not_eq_true _ ▸ ‹¬ s.closed = true›

/-- A subscription that has not come to its watch is refused. -/
theorem moves_of_refuse {e : FrameError} (hget : s.starts[i]? = some start)
    (hearly : start.stage ≠ .watching) (hold : start.stage ≠ .ended)
    (hcause : (∃ e, l = .fail i e) ∨ start.timedOut = true ∨ start.stage = .definition)
    (hlabel : (∃ e, l = .fail i e) ∨ l = .unknown i ∨ l = .finish i) :
    Moves s l (s.refuse i e) := by
  have heq := refuse_eq s i id e
  rw [setStart_id] at heq
  rw [heq]
  exact .ends hget hold (.inr ⟨hearly, rfl⟩) open_of_isSome (fun _ => hcause) hlabel

theorem moves_of_finish (hget : s.starts[i]? = some start) (hstage : start.stage = .watching) :
    Moves s (.finish i)
      ((s.setStart i fun start => { start with watch := .over }).leave i start) := by
  unfold leave
  split
  case isTrue htimedOut =>
    rw [refuse_eq]
    exact .ends hget (hstage ▸ nofun) (.inl ⟨hstage, rfl⟩) open_of_isSome
      (fun _ => .inr (.inl htimedOut)) (.inr (.inr rfl))
  case isFalse =>
    rw [settle_eq]
    exact .ends hget (hstage ▸ nofun) (.inl ⟨hstage, rfl⟩) nofun nofun (.inr (.inr rfl))

theorem moves_of_drop {v : V} (hget : s.starts[i]? = some start)
    (hstage : start.stage = .watching) (hclosed : s.closed = true) :
    Moves s (.value i v)
      ((s.setStart i fun start => { start with produced := start.produced ++ [v] }).leave i
        start) := by
  unfold leave
  split
  case isTrue =>
    rw [refuse_eq, if_pos hclosed]
    exact .drops hget hstage hclosed
  case isFalse =>
    rw [settle_eq]
    exact .drops hget hstage hclosed

theorem moves_of_step (h : s.step o l = some t) : Moves s l t := by
  cases l with
  | proceed i => exact moves_of_proceed h
  | unknown i =>
    dsimp only [LiveEndpoint.step, LiveEndpoint.unknown] at h
    split at h
    case h_1 => cases h
    case h_2 start hget =>
      split at h
      case isFalse => cases h
      case isTrue hstage =>
        cases h
        exact moves_of_refuse hget (hstage ▸ nofun) (hstage ▸ nofun) (.inr (.inr hstage))
          (.inr (.inl rfl))
  | fail i e =>
    dsimp only [LiveEndpoint.step, LiveEndpoint.fail] at h
    split at h
    case h_1 => cases h
    case h_2 start hget =>
      split at h
      case h_1 => cases h
      case h_2 hstage =>
        cases h
        rw [refuse_eq]
        refine .ends hget (hstage ▸ nofun) (.inl ⟨hstage, rfl⟩) open_of_isSome
          (fun _ => .inl ⟨e, rfl⟩) (.inl ⟨e, rfl⟩)
      case h_3 hended hwatching =>
        cases h
        exact moves_of_refuse hget hwatching hended (.inl ⟨e, rfl⟩) (.inl ⟨e, rfl⟩)
  | value i v =>
    dsimp only [LiveEndpoint.step, LiveEndpoint.value] at h
    split at h
    case h_1 => cases h
    case h_2 start hget =>
      split at h
      case isFalse => cases h
      case isTrue hstage =>
        split at h
        case isTrue hclosed =>
          cases h
          exact moves_of_drop hget hstage hclosed
        case isFalse hopen =>
          cases h
          rw [setStart_setStart]
          exact .emits hget hstage (Bool.not_eq_true _ ▸ hopen)
  | finish i =>
    dsimp only [LiveEndpoint.step, LiveEndpoint.finish] at h
    split at h
    case h_1 => cases h
    case h_2 start hget =>
      split at h
      case isFalse => cases h
      case isTrue hstage =>
        cases h
        exact moves_of_finish hget hstage
  | expire i =>
    dsimp only [LiveEndpoint.step, LiveEndpoint.expire] at h
    split at h
    case h_1 => cases h
    case h_2 start hget =>
      split at h
      case isFalse => cases h
      case isTrue hdeadline =>
        cases h
        exact .expires hget hdeadline
  | next =>
    dsimp only [LiveEndpoint.step, LiveEndpoint.next] at h
    split at h
    case h_1 hphase =>
      cases h
      exact moves_of_turn (.inl ⟨rfl, .inl hphase⟩)
    case h_2 hphase =>
      cases h
      exact moves_of_turn (.inl ⟨rfl, .inr hphase⟩)
    case h_3 hphase =>
      cases h
      exact .idles hphase
    case h_4 => cases h
    case h_5 => cases h
  | resume =>
    dsimp only [LiveEndpoint.step, LiveEndpoint.resume] at h
    split at h
    case isFalse => cases h
    case isTrue hphase =>
      split at h
      case isTrue hclosed =>
        cases h
        exact .sweeps (.inl ⟨rfl, hphase.1, hclosed⟩)
      case isFalse hopen =>
        have hopen' : s.closed = false := Bool.not_eq_true _ ▸ hopen
        split at h
        case isTrue hquiet =>
          cases h
          rw [Bool.and_eq_true, Bool.and_eq_true, Bool.not_eq_true'] at hquiet
          exact .pings hphase.1 hopen' hquiet.1.1
        case isFalse =>
          cases h
          exact moves_of_turn (.inr ⟨rfl, hphase.1, hopen'⟩)
  | ret =>
    cases h
    exact .returns
  | unwind =>
    dsimp only [LiveEndpoint.step, LiveEndpoint.unwind] at h
    split at h
    case isFalse => cases h
    case isTrue hphase =>
      cases h
      exact .sweeps (.inr ⟨rfl, hphase⟩)

/-! ## Who is alive, and where `frames` is -/

/-- What holds of the bookkeeping in every state. -/
structure Tally (s : LiveEndpoint V) : Prop where
  live : s.live = s.starts.countP fun start => decide (start.stage ≠ .ended)
  closed : s.closed = true → s.returned = true ∨ s.live = 0 ∧ s.pending = false
  left : s.returned = true → s.closed = true
  turning : s.phase = .start ∨ s.phase = .yielded → s.closed = false
  stopped : s.phase = .returning ∨ s.phase = .done → s.closed = true
  woken : s.phase = .parked → s.woken = false → s.closed = false ∧ s.pending = false

theorem Tally.live_pos (h : s.Tally) (hget : s.starts[i]? = some start)
    (hstage : start.stage ≠ .ended) : 0 < s.live := by
  rw [h.live, List.countP_pos_iff]
  exact ⟨start, List.mem_of_getElem? hget, decide_eq_true hstage⟩

/-- A `return` changes nothing but where `frames` is. -/
theorem ret_same (s : LiveEndpoint V) : s.ret.starts = s.starts ∧ s.ret.sent = s.sent ∧
    s.ret.latest = s.latest ∧ s.ret.terminal = s.terminal ∧ s.ret.live = s.live ∧
    s.ret.returned = true := by
  unfold LiveEndpoint.ret
  split <;> exact ⟨rfl, rfl, rfl, rfl, rfl, rfl⟩

/-- A sweep stops the watches that are open and listed. -/
theorem sweep_get (s : LiveEndpoint V) (i : Nat) : s.sweep.starts[i]? = s.starts[i]?.map fun start =>
    if i ∈ s.stops ∧ start.watch = .open then { start with watch := .returned } else start :=
  List.getElem?_mapIdx

/-- It changes nothing else of a subscription. -/
theorem of_sweep_get (h : s.sweep.starts[i]? = some start) : ∃ old, s.starts[i]? = some old ∧
    start.stage = old.stage ∧ start.produced = old.produced ∧ start.deadline = old.deadline ∧
    start.timedOut = old.timedOut := by
  rw [sweep_get] at h
  obtain ⟨old, hold, rfl⟩ := Option.map_eq_some_iff.1 h
  refine ⟨old, hold, ?_⟩
  split <;> exact ⟨rfl, rfl, rfl, rfl⟩

/-- A subscription goes on. -/
theorem Tally.touch (h : s.Tally) (stops : List Nat) {f : Start V → Start V}
    (hf : ∀ start, s.starts[i]? = some start → ((f start).stage = .ended ↔ start.stage = .ended)) :
    Tally { s.setStart i f with stops := stops } := by
  refine { h with live := ?_ }
  refine h.live.trans (countP_modify fun start hget => ?_).symm
  exact decide_eq_decide.2 (not_congr (hf start hget))

theorem wake_of_parked (hphase : s.phase = .parked) : s.wake.woken = true := by
  unfold LiveEndpoint.wake
  rw [hphase]
  exact Bool.or_true _

section

variable (h : s.Tally)
include h

theorem Tally.emitValue (hopen : s.closed = false) (i : Nat) (v : V) : (s.emitValue i v).Tally := by
  refine { h with closed := fun hclosed => ?_, woken := fun hphase hwoken => ?_ }
  · exact absurd (hopen.symm.trans hclosed) Bool.false_ne_true
  · exact absurd (hwoken.symm.trans (wake_of_parked hphase)) Bool.false_ne_true

/-- A subscription ends. -/
theorem Tally.conclude {f : Start V → Start V} {error? : Option FrameError}
    (hget : s.starts[i]? = some start) (hold : start.stage ≠ .ended)
    (hf : (f start).stage = .ended) : (s.conclude i f error?).Tally := by
  refine ⟨?_, fun hclosed => ?_, h.left, h.turning, h.stopped, fun hphase hwoken => ?_⟩
  · have hlost := countP_modify_lost (p := fun start : Start V => decide (start.stage ≠ .ended))
      (f := f) hget (decide_eq_true hold) (decide_eq_false fun hnot => hnot hf)
    exact Nat.sub_eq_of_eq_add (h.live.trans hlost.symm)
  · rcases h.closed hclosed with hreturned | ⟨hnone, -⟩
    · exact .inl hreturned
    · exact absurd hnone (Nat.ne_of_gt (h.live_pos hget hold))
  · exact absurd (hwoken.symm.trans (wake_of_parked hphase)) Bool.false_ne_true

theorem Tally.sweep (hdone : s.returned = true ∨ s.live = 0 ∧ s.pending = false) :
    s.sweep.Tally := by
  refine ⟨h.live.trans (countP_mapIdx fun j start => ?_).symm, fun _ => hdone, fun _ => rfl,
    nofun, fun _ => rfl, nofun⟩
  split
  · rfl
  · rfl

theorem Tally.ret : s.ret.Tally := by
  unfold LiveEndpoint.ret
  split
  case h_1 => exact ⟨h.live, fun _ => .inl rfl, fun _ => rfl, nofun, fun _ => rfl, nofun⟩
  case h_2 => exact ⟨h.live, fun _ => .inl rfl, fun _ => rfl, nofun, fun _ => rfl, nofun⟩
  case h_3 hstart hyielded =>
    refine ⟨h.live, fun _ => .inl rfl, fun _ => rfl, fun hphase => ?_, fun _ => rfl,
      fun hphase hwoken => ?_⟩
    · exact (hphase.elim hstart hyielded).elim
    · have hparked : s.wake.woken = true := wake_of_parked hphase
      exact absurd (hwoken.symm.trans hparked) Bool.false_ne_true

/-- `frames` goes on only where nothing has been closed. -/
theorem Tally.open_of_turns (hturns : s.Turns l) : s.closed = false := by
  rcases hturns with ⟨-, hphase⟩ | ⟨-, -, hopen⟩
  · exact h.turning hphase
  · exact hopen

/-- A frame is yielded, or a ping. -/
theorem Tally.yield (hopen : s.closed = false)
    (hstarts : t.starts = s.starts) (hlive : t.live = s.live) (hclosed : t.closed = s.closed)
    (hreturned : t.returned = s.returned) (hphase : t.phase = .yielded) : t.Tally := by
  refine ⟨?_, fun hshut => ?_, fun hleft => ?_, fun _ => hclosed.trans hopen, fun hover => ?_,
    fun hparked => ?_⟩
  · rw [hlive, hstarts]
    exact h.live
  · exact absurd ((hclosed.trans hopen).symm.trans hshut) Bool.false_ne_true
  · exact hclosed.trans (h.left (hreturned.symm.trans hleft))
  · rw [hphase] at hover
    exact absurd hover (by decide)
  · rw [hphase] at hparked
    cases hparked

theorem Tally.step (hstep : s.step o l = some t) : t.Tally := by
  have hsame : ∀ {i : Nat} {start start' : Start V}, s.starts[i]? = some start →
      s.starts[i]? = some start' → start = start' :=
    fun hget hget' => Option.some.inj (hget.symm.trans hget')
  cases moves_of_step hstep with
  | advances hget hold hnew =>
    refine h.touch s.stops fun start' hget' => ?_
    obtain rfl := hsame hget hget'
    refine iff_of_false (fun heq => ?_) fun heq => ?_
    · rcases hnew with rfl | rfl
      · cases heq
      · cases heq
    · rw [heq] at hold
      exact absurd hold (by decide)
  | opens hget hold =>
    refine h.touch _ fun start' hget' => ?_
    obtain rfl := hsame hget hget'
    exact iff_of_false nofun (hold ▸ nofun)
  | expires hget hdeadline => exact h.touch s.stops fun _ _ => Iff.rfl
  | emits hget hold hopen =>
    refine Tally.emitValue (h.touch s.stops ?_) hopen _ _
    exact fun _ _ => Iff.rfl
  | drops hget hold hclosed => exact h.conclude hget (hold ▸ nofun) rfl
  | ends hget hold hwatch hopen hcause hlabel => exact h.conclude hget hold rfl
  | sends hturns htake =>
    have hopen := h.open_of_turns hturns
    rcases of_take_some htake with ⟨_, _, _, -, rfl, -⟩ | ⟨_, _, _, -, -, rfl, -⟩
    · exact h.yield hopen rfl rfl rfl rfl rfl
    · exact h.yield hopen rfl rfl rfl rfl rfl
  | parks hturns hpending hlive =>
    have hopen := h.open_of_turns hturns
    exact ⟨h.live, h.closed, h.left, nofun, nofun, fun _ _ => ⟨hopen, hpending⟩⟩
  | finishes hturns hpending hlive => exact h.sweep (.inr ⟨hlive, hpending⟩)
  | pings hphase hclosed hpending => exact h.yield hclosed rfl rfl rfl rfl rfl
  | sweeps hleft =>
    refine h.sweep (h.closed ?_)
    rcases hleft with ⟨-, -, hclosed⟩ | ⟨-, hphase⟩
    · exact hclosed
    · exact h.stopped (.inl hphase)
  | returns => exact h.ret
  | idles hphase => exact h

end

theorem tally_subscribeAll (o : LiveEndpointOptions) (subs : List LiveSubscription) :
    (subscribeAll (V := V) o subs).Tally := by
  refine ⟨?_, nofun, nofun, fun _ => rfl, nofun, nofun⟩
  unfold subscribeAll
  rw [List.countP_map]
  exact (List.countP_eq_length.2 fun _ _ => rfl).symm

theorem tally_of_reachable {subs : List LiveSubscription}
    (h : (liveEndpoint o subs).Reachable s) : s.Tally := by
  refine h.invariant (I := Tally) ?_ fun _ _ _ hs _ hstep => hs.step hstep
  rintro _ rfl
  exact tally_subscribeAll o subs

end LiveEndpoint

/-- The subscription of a page. -/
def cartTotal : LiveSubscription := ⟨"Cart", "total"⟩

end SigxActors.Live
