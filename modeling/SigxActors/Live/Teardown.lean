/-
  Live/Teardown.lean --- what the return of the live endpoint takes down.

  The list of iterators to stop is read once, when the `finally` of `frames` runs.  A watch
  that is opened later is in the list and is never stopped, and where `return` comes before
  the first `next` the `finally` does not run at all.
-/
import SigxActors.Live.EndpointMoves

set_option autoImplicit false

namespace SigxActors.Live

open SigxActors.Js

variable {V : Type}

namespace LiveEndpoint

variable {o : LiveEndpointOptions} {s t : LiveEndpoint V} {i : Nat} {start : Start V} {l : Label V}

/-- No watch is opened after the iterators have been stopped, and none is open where they never
will be. -/
def InTime (s : LiveEndpoint V) : Label V → Prop
  | .proceed i => ∀ start ∈ s.starts[i]?, start.stage = .principal → s.phase ≠ .done
  | .ret => s.phase = .start → ∀ start ∈ s.starts, start.watch ≠ .open
  | _ => True

instance (s : LiveEndpoint V) (l : Label V) : Decidable (s.InTime l) := by
  induction l using Label.casesOn <;> dsimp only [InTime] <;> infer_instance

/-- What a `return` promises. -/
structure TornDown (o : LiveEndpointOptions) (s : LiveEndpoint V) : Prop where
  /-- The `finally` of `frames` has run, or runs next. -/
  settles : s.returned = true → s.phase = .done ∨
    ∃ l t, (l = .resume ∨ l = .unwind) ∧ s.step o l = some t ∧ t.phase = .done
  /-- No watch is left open. -/
  watches : s.phase = .done → ∀ start ∈ s.starts, start.watch ≠ .open
  /-- Nothing is sent any more. -/
  quiet : s.returned = true → ∀ l t, s.step o l = some t → t.sent = s.sent

/-- An open watch is to be stopped, and is none any more when `frames` is done. -/
structure Held (s : LiveEndpoint V) : Prop where
  listed : ∀ (i : Nat) (start : Start V), s.starts[i]? = some start → start.watch = .open → i ∈ s.stops
  done : s.phase = .done → ∀ (i : Nat) (start : Start V), s.starts[i]? = some start →
    start.watch ≠ .open

/-- A subscription goes on, and opens no watch. -/
theorem Held.modify (h : s.Held) {f : Start V → Start V}
    (hstarts : t.starts = s.starts.modify i f) (hstops : t.stops = s.stops)
    (hphase : t.phase = s.phase) (hf : ∀ start, (f start).watch = .open → start.watch = .open) :
    t.Held := by
  have hold : ∀ {j : Nat} {start : Start V}, t.starts[j]? = some start → start.watch = .open →
      ∃ start', s.starts[j]? = some start' ∧ start'.watch = .open := by
    intro j start hget hopen
    rw [hstarts] at hget
    rcases of_modify_get hget with ⟨start', rfl, hget', rfl⟩ | ⟨-, hget'⟩
    · exact ⟨start', hget', hf start' hopen⟩
    · exact ⟨start, hget', hopen⟩
  constructor
  case listed =>
    intro j start hget hopen
    obtain ⟨start', hget', hopen'⟩ := hold hget hopen
    exact hstops ▸ h.listed j start' hget' hopen'
  case done =>
    intro hdone j start hget hopen
    obtain ⟨start', hget', hopen'⟩ := hold hget hopen
    exact h.done (hphase ▸ hdone) j start' hget' hopen'

theorem Held.sweep (h : s.Held) : s.sweep.Held := by
  have hnone : ∀ (j : Nat) (start : Start V), s.sweep.starts[j]? = some start → start.watch ≠ .open := by
    intro j start hget hopen
    rw [sweep_get] at hget
    obtain ⟨start', hget', rfl⟩ := Option.map_eq_some_iff.1 hget
    split at hopen
    case isTrue => cases hopen
    case isFalse hnot => exact hnot ⟨h.listed j start' hget' hopen, hopen⟩
  exact ⟨fun j start hget hopen => absurd hopen (hnone j start hget), fun _ => hnone⟩

/-- A watch is opened, while it can be stopped. -/
theorem Held.opens (h : s.Held) (hphase : s.phase ≠ .done) (i : Nat) :
    Held { s.setStart i fun start => { start with stage := .watching, watch := .open } with
      stops := s.stops ++ [i] } := by
  refine ⟨fun j start hget hopen => ?_, fun hdone => absurd hdone hphase⟩
  rcases of_modify_get hget with ⟨_, rfl, -, -⟩ | ⟨-, hget'⟩
  · exact List.mem_append_right _ (List.mem_singleton_self _)
  · exact List.mem_append_left _ (h.listed j start hget' hopen)

theorem Held.ret (h : s.Held)
    (hearly : s.phase = .start → ∀ start ∈ s.starts, start.watch ≠ .open) : s.ret.Held := by
  unfold LiveEndpoint.ret
  split
  case h_1 hstart =>
    exact ⟨h.listed, fun _ j start hget => hearly hstart start (List.mem_of_getElem? hget)⟩
  case h_2 => exact ⟨h.listed, nofun⟩
  case h_3 => exact ⟨h.listed, h.done⟩

theorem Held.step (h : s.Held) (hguard : s.InTime l) (hstep : s.step o l = some t) : t.Held := by
  cases moves_of_step hstep with
  | advances | expires | emits _ _ hopen | drops => exact h.modify rfl rfl rfl fun _ hopen => hopen
  | opens hget hold => exact h.opens (hguard _ hget hold) _
  | ends hget hold hwatch hopen hcause hlabel =>
    refine h.modify rfl rfl rfl fun start hopen => ?_
    rcases hwatch with ⟨-, rfl⟩ | ⟨-, rfl⟩
    · cases hopen
    · exact hopen
  | sends hturns htake =>
    rcases of_take_some htake with ⟨_, _, _, -, rfl, -⟩ | ⟨_, _, _, -, -, rfl, -⟩
    · exact ⟨h.listed, nofun⟩
    · exact ⟨h.listed, nofun⟩
  | parks | pings => exact ⟨h.listed, nofun⟩
  | finishes | sweeps => exact h.sweep
  | returns => exact h.ret hguard
  | idles hphase => exact h

theorem held_of_reach {subs : List LiveSubscription}
    (h : (liveEndpoint o subs).Reach InTime s) : s.Held := by
  refine h.invariant (I := Held) ?_ fun _ _ _ hs hguard hstep => hs.step hguard hstep
  rintro _ rfl
  refine ⟨fun i start hget hopen => ?_, nofun⟩
  obtain ⟨sub, -, rfl⟩ := List.mem_map.1 (List.mem_of_getElem? hget)
  cases hopen

/-! ## After a return -/

theorem Tally.settles (h : s.Tally) (hreturned : s.returned = true) : s.phase = .done ∨
    ∃ l t, (l = .resume ∨ l = .unwind) ∧ s.step o l = some t ∧ t.phase = .done := by
  have hclosed := h.left hreturned
  cases hphase : s.phase with
  | start => exact absurd ((h.turning (.inl hphase)).symm.trans hclosed) Bool.false_ne_true
  | yielded => exact absurd ((h.turning (.inr hphase)).symm.trans hclosed) Bool.false_ne_true
  | parked =>
    refine .inr ⟨.resume, s.sweep, .inl rfl, ?_, rfl⟩
    have hwoken : s.woken = true := by
      cases hwoken : s.woken with
      | true => rfl
      | false =>
        exact absurd ((h.woken hphase hwoken).1.symm.trans hclosed) Bool.false_ne_true
    dsimp only [LiveEndpoint.step, LiveEndpoint.resume]
    rw [if_pos ⟨hphase, .inl hwoken⟩, if_pos hclosed]
  | returning =>
    refine .inr ⟨.unwind, s.sweep, .inr rfl, ?_, rfl⟩
    dsimp only [LiveEndpoint.step, LiveEndpoint.unwind]
    rw [if_pos hphase]
  | done => exact .inl rfl

theorem Tally.quiet (h : s.Tally) (hreturned : s.returned = true) (hstep : s.step o l = some t) :
    t.sent = s.sent := by
  have hclosed := h.left hreturned
  cases moves_of_step hstep with
  | sends hturns htake =>
    exact absurd ((h.open_of_turns hturns).symm.trans hclosed) Bool.false_ne_true
  | pings hphase hopen hpending =>
    exact absurd (hopen.symm.trans hclosed) Bool.false_ne_true
  | returns => exact (ret_same s).2.1
  | _ => rfl

end LiveEndpoint

/-- **A return takes every watch down**, in a run in which none is opened after the iterators
have been stopped, and none is open when a return comes before the first `next`. -/
theorem torn_down_of_in_time (o : LiveEndpointOptions) (subs : List LiveSubscription)
    {s : LiveEndpoint V} (h : (liveEndpoint o subs).Reach LiveEndpoint.InTime s) :
    s.TornDown o := by
  have htally := LiveEndpoint.tally_of_reachable h.reachable
  have hheld := LiveEndpoint.held_of_reach h
  refine ⟨htally.settles, fun hdone start hmem => ?_, fun hreturned l t hstep => ?_⟩
  · obtain ⟨i, hget⟩ := List.getElem?_of_mem hmem
    exact hheld.done hdone i start hget
  · exact htally.quiet hreturned hstep

/-- A watch opens while the consumer waits, and the consumer leaves with a frame at hand. -/
def leftOpen : List (LiveEndpoint.Label Nat) :=
  [.next, .proceed 0, .proceed 0, .proceed 0, .value 0 7, .resume, .ret, .unwind]

theorem torn_down_leftOpen : ∃ s : LiveEndpoint Nat, s.TornDown {} ∧ s.phase = .done ∧
    s.starts = [⟨cartTotal, .watching, .returned, false, false, [7]⟩] := by
  have hstart : (liveEndpoint {} [cartTotal]).Reach LiveEndpoint.InTime
      (subscribeAll (V := Nat) {} [cartTotal]) := .start rfl
  have hrun := hstart.exec_get leftOpen (by decide)
  exact ⟨_, torn_down_of_in_time {} [cartTotal] hrun, by decide, by decide⟩

/-- The consumer leaves while the principal is encoded, and a value comes later. -/
def leftEstablishing : List (LiveEndpoint.Label Nat) :=
  [.next, .proceed 0, .proceed 0, .ret, .resume, .proceed 0, .value 0 7]

/-- The consumer leaves before it has asked for a frame. -/
def leftUnasked : List (LiveEndpoint.Label Nat) := [.proceed 0, .proceed 0, .proceed 0, .ret]

/-- Both leave a watch open that nobody reads and nobody stops. -/
theorem not_torn_down :
    (∃ s : LiveEndpoint Nat, (liveEndpoint {} [cartTotal]).Reachable s ∧ s.returned = true ∧
      s.phase = .done ∧ s.starts = [⟨cartTotal, .ended, .open, false, false, [7]⟩] ∧
      ¬ s.TornDown {}) ∧
    ∃ s : LiveEndpoint Nat, (liveEndpoint {} [cartTotal]).Reachable s ∧ s.returned = true ∧
      s.phase = .done ∧ s.starts = [⟨cartTotal, .watching, .open, false, false, []⟩] ∧
      ¬ s.TornDown {} := by
  have hstart : (liveEndpoint {} [cartTotal]).Reachable
      (subscribeAll (V := Nat) {} [cartTotal]) := .start rfl
  refine ⟨⟨_, hstart.exec_get leftEstablishing (by decide), by decide, by decide, by decide,
      fun htorn => ?_⟩,
    ⟨_, hstart.exec_get leftUnasked (by decide), by decide, by decide, by decide,
      fun htorn => ?_⟩⟩
  · exact htorn.watches (by decide) ⟨cartTotal, .ended, .open, false, false, [7]⟩ (by decide) rfl
  · exact htorn.watches (by decide) ⟨cartTotal, .watching, .open, false, false, []⟩ (by decide) rfl

end SigxActors.Live
