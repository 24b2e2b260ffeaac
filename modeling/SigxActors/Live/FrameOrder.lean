/-
  Live/FrameOrder.lean --- the frames of a subscription leave in the order they came in.

  A value that waits is replaced by a newer one, and an error overtakes it: errors wait in a
  list of their own, which is emptied first.  Where no watch fails while a value of its own
  waits, what is sent of a subscription is some of what its watch has produced, and then at
  most one error.
-/
import SigxActors.Live.EndpointMoves

set_option autoImplicit false

namespace SigxActors.Live

open SigxActors.Js

variable {V : Type}

/-- `frame.i`. -/
def LiveFrame.index : LiveFrame V → Option Nat
  | .value i _ => some i
  | .error i _ => some i
  | .ping => none

/-- Until it is watched a subscription has no value, and with one it is not timed out. -/
structure Start.Fresh (start : Start V) : Prop where
  early : start.stage ≠ .watching → start.stage ≠ .ended → start.produced = []
  seeded : start.produced ≠ [] → start.deadline = false ∧ start.timedOut = false

namespace LiveEndpoint

variable {o : LiveEndpointOptions} {subs : List LiveSubscription} {s t : LiveEndpoint V} {i j : Nat}
  {start start' : Start V} {l : Label V} {vs : List V} {errs : List FrameError}

/-- What has been sent of a subscription. -/
def framesOf (s : LiveEndpoint V) (i : Nat) : List (LiveFrame V) :=
  s.sent.filter fun frame => decide (frame.index = some i)

/-- The errors of a subscription that wait. -/
def errorsOf (s : LiveEndpoint V) (i : Nat) : List (Nat × FrameError) :=
  s.terminal.filter fun q => decide (q.1 = i)

/-- No watch fails while a value of its own waits. -/
def Unhurried (s : LiveEndpoint V) : Label V → Prop
  | .fail i _ => s.closed = false → (s.latest.get i).isNone = true
  | _ => True

instance (s : LiveEndpoint V) (l : Label V) : Decidable (s.Unhurried l) := by
  unfold Unhurried
  split <;> infer_instance

/-! ## A queue that is being emptied -/

/-- How many frames may leave before the value that waits for `i`. -/
def rank (s : LiveEndpoint V) (i : Nat) : Nat :=
  s.latest.keys.idxOf i + s.terminal.length + s.live

/-- A value waits, the consumer gets a frame for the asking, and gets the value when it has
got as many as are before it, unless the watch has produced another. -/
structure Owes (o : LiveEndpointOptions) (subs : List LiveSubscription) (s : LiveEndpoint V)
    (i : Nat) (start : Start V) (v : V) : Prop where
  waits : s.latest.get i = some v
  pulls : ∃ l t frame, (l = .next ∨ l = .resume) ∧ s.step o l = some t ∧
    t.sent = s.sent ++ [frame]
  served : ∀ (t : LiveEndpoint V) (start' : Start V), ((liveEndpoint o subs).since s).Reachable t →
    t.starts[i]? = some start' → start'.produced = start.produced →
    s.sent.length + s.rank i < t.sent.length → .value i v ∈ t.sent.drop s.sent.length

/-- What a connection promises of its frames. -/
structure InOrder (o : LiveEndpointOptions) (subs : List LiveSubscription) (s : LiveEndpoint V) :
    Prop where
  ordered : ∀ (i : Nat) (start : Start V), s.starts[i]? = some start →
    ∃ (vs : List V) (errs : List FrameError),
    s.framesOf i = vs.map (.value i) ++ errs.map (.error i) ∧ errs.length ≤ 1 ∧
      vs.Sublist start.produced ∧
      (s.returned = false → vs.getLast? = start.produced.getLast? ∨
        ∃ v, start.produced.getLast? = some v ∧ s.Owes o subs i start v)

/-! ## What is sent, and what waits -/

structure Flow (s : LiveEndpoint V) (i : Nat) (start : Start V) (vs : List V)
    (errs : List FrameError) : Prop where
  sent : s.framesOf i = vs.map (.value i) ++ errs.map (.error i)
  queued : (vs ++ (s.latest.get i).toList).Sublist start.produced
  last : s.returned = false → (vs ++ (s.latest.get i).toList).getLast? = start.produced.getLast?
  one : errs.length + (s.errorsOf i).length ≤ 1
  alive : start.stage ≠ .ended → errs = [] ∧ s.errorsOf i = []
  failed : errs ≠ [] ∨ s.errorsOf i ≠ [] → s.latest.get i = none

/-- Nothing happens to a subscription but that it may end. -/
theorem Flow.frame (h : s.Flow i start vs errs) (hsent : t.framesOf i = s.framesOf i)
    (hlatest : t.latest.get i = s.latest.get i) (herrors : t.errorsOf i = s.errorsOf i)
    (hreturned : t.returned = false → s.returned = false)
    (hproduced : start'.produced = start.produced)
    (hstage : start'.stage ≠ .ended → start.stage ≠ .ended) : t.Flow i start' vs errs := by
  refine ⟨hsent.trans h.sent, ?_, fun hstays => ?_, ?_, fun halive => ?_, fun hfailed => ?_⟩
  · rw [hlatest, hproduced]
    exact h.queued
  · rw [hlatest, hproduced]
    exact h.last (hreturned hstays)
  · rw [herrors]
    exact h.one
  · rw [herrors]
    exact h.alive (hstage halive)
  · rw [herrors] at hfailed
    exact hlatest.trans (h.failed hfailed)

/-- Without a value there is none that waits. -/
theorem Flow.none_of_unproduced (h : s.Flow i start vs errs) (hproduced : start.produced = []) :
    s.latest.get i = none := by
  have hqueued := h.queued
  rw [hproduced, List.sublist_nil, List.append_eq_nil_iff] at hqueued
  exact Option.toList_eq_nil_iff.1 hqueued.2

variable {v : V} {f : Start V → Start V} {frame : LiveFrame V}

section

variable (h : s.Flow i start vs errs)
include h

/-- The watch produces a value, and it waits. -/
theorem Flow.emit (hstage : start.stage ≠ .ended)
    (hsent : t.framesOf i = s.framesOf i) (hlatest : t.latest.get i = some v)
    (herrors : t.errorsOf i = s.errorsOf i) (hproduced : start'.produced = start.produced ++ [v]) :
    t.Flow i start' vs errs := by
  obtain ⟨rfl, hnone⟩ := h.alive hstage
  have hvs : vs.Sublist start.produced := (List.sublist_append_left vs _).trans h.queued
  refine ⟨hsent.trans h.sent, ?_, fun _ => ?_, ?_, fun _ => ⟨rfl, herrors.trans hnone⟩, ?_⟩
  · rw [hlatest, hproduced]
    exact hvs.append (.refl _)
  · rw [hlatest, hproduced, Option.toList_some, List.getLast?_concat, List.getLast?_concat]
  · rw [herrors]
    exact h.one
  · rintro (hnot | hnot)
    · exact absurd rfl hnot
    · exact absurd (herrors.trans hnone) hnot

/-- A subscription ends, and says why. -/
theorem Flow.fail (hstage : start.stage ≠ .ended) {e : FrameError} (hwaits : s.latest.get i = none)
    (hsent : t.framesOf i = s.framesOf i) (hlatest : t.latest.get i = s.latest.get i)
    (herrors : t.errorsOf i = s.errorsOf i ++ [(i, e)])
    (hreturned : t.returned = false → s.returned = false)
    (hproduced : start'.produced = start.produced) (hended : start'.stage = .ended) :
    t.Flow i start' vs errs := by
  obtain ⟨rfl, hnone⟩ := h.alive hstage
  refine ⟨hsent.trans h.sent, ?_, fun hstays => ?_, ?_, fun halive => absurd hended halive,
    fun _ => hlatest.trans hwaits⟩
  · rw [hlatest, hproduced]
    exact h.queued
  · rw [hlatest, hproduced]
    exact h.last (hreturned hstays)
  · rw [herrors, hnone]
    exact Nat.le_refl 1

/-- The error that waits is sent. -/
theorem Flow.sendError {e : FrameError} (hsent : t.framesOf i = s.framesOf i ++ [.error i e])
    (hlatest : t.latest.get i = s.latest.get i) (herrors : s.errorsOf i = (i, e) :: t.errorsOf i)
    (hreturned : t.returned = s.returned) : t.Flow i start vs (errs ++ [e]) := by
  have hwaits := h.failed (.inr (herrors ▸ List.cons_ne_nil _ _))
  refine ⟨?_, ?_, fun hstays => ?_, ?_, fun halive => ?_, fun _ => hlatest.trans hwaits⟩
  · rw [hsent, h.sent, List.map_append, List.append_assoc]
    rfl
  · rw [hlatest]
    exact h.queued
  · rw [hlatest]
    exact h.last (hreturned.symm.trans hstays)
  · have hone := h.one
    rw [herrors, List.length_cons] at hone
    rw [List.length_append, List.length_singleton]
    omega
  · exact absurd (h.alive halive).2 (herrors ▸ List.cons_ne_nil _ _)

/-- The value that waits is sent. -/
theorem Flow.sendValue
    (hsent : t.framesOf i = s.framesOf i ++ [.value i v]) (hwaits : s.latest.get i = some v)
    (hlatest : t.latest.get i = none) (herrors : t.errorsOf i = s.errorsOf i)
    (hreturned : t.returned = s.returned) : t.Flow i start (vs ++ [v]) errs := by
  have hquiet : ¬ (errs ≠ [] ∨ s.errorsOf i ≠ []) := by
    intro hfailed
    rw [h.failed hfailed] at hwaits
    cases hwaits
  have herrs : errs = [] := Classical.not_not.1 fun hnot => hquiet (.inl hnot)
  have hqueued := h.queued
  have hlast := h.last
  rw [hwaits, Option.toList_some] at hqueued hlast
  refine ⟨?_, ?_, fun hstays => ?_, ?_, fun halive => ⟨herrs, ?_⟩, fun _ => hlatest⟩
  · rw [hsent, h.sent, herrs, List.map_append, List.map_nil, List.append_nil, List.append_nil]
    rfl
  · rw [hlatest, Option.toList_none, List.append_nil]
    exact hqueued
  · rw [hlatest, Option.toList_none, List.append_nil]
    exact hlast (hreturned.symm.trans hstays)
  · rw [herrors]
    exact h.one
  · exact herrors.trans (h.alive halive).2

end

/-- What holds of every subscription. -/
def Flows (s : LiveEndpoint V) : Prop :=
  ∀ (i : Nat) (start : Start V), s.starts[i]? = some start →
    start.Fresh ∧ ∃ vs errs, s.Flow i start vs errs

/-- One subscription goes on, and nothing changes for the others. -/
theorem Flows.modify (h : s.Flows) (hstarts : t.starts = s.starts.modify i f)
    (hother : ∀ j, j ≠ i → t.framesOf j = s.framesOf j ∧ t.latest.get j = s.latest.get j ∧
      t.errorsOf j = s.errorsOf j)
    (hreturned : t.returned = s.returned)
    (hself : ∀ start vs errs, s.starts[i]? = some start → start.Fresh → s.Flow i start vs errs →
      (f start).Fresh ∧ ∃ vs errs, t.Flow i (f start) vs errs) : t.Flows := by
  intro j start' hget
  rw [hstarts] at hget
  rcases of_modify_get hget with ⟨start, rfl, hold, rfl⟩ | ⟨hne, hold⟩
  · obtain ⟨hfresh, vs, errs, hflow⟩ := h j start hold
    exact hself start vs errs hold hfresh hflow
  · obtain ⟨hfresh, vs, errs, hflow⟩ := h j start' hold
    obtain ⟨hsent, hlatest, herrors⟩ := hother j hne
    exact ⟨hfresh, vs, errs, hflow.frame hsent hlatest herrors (fun hstays => hreturned ▸ hstays)
      rfl id⟩

/-- A subscription goes on, and what is sent and what waits stays. -/
theorem Flows.touch (h : s.Flows) (hstarts : t.starts = s.starts.modify i f)
    (hsent : t.sent = s.sent) (hlatest : t.latest = s.latest) (hterminal : t.terminal = s.terminal)
    (hreturned : t.returned = s.returned)
    (hself : ∀ start, s.starts[i]? = some start → start.Fresh → (f start).Fresh ∧
      (f start).produced = start.produced ∧ ((f start).stage ≠ .ended → start.stage ≠ .ended)) :
    t.Flows := by
  have hsame : ∀ j, t.framesOf j = s.framesOf j ∧ t.latest.get j = s.latest.get j ∧
      t.errorsOf j = s.errorsOf j := by
    intro j
    unfold framesOf errorsOf
    rw [hsent, hlatest, hterminal]
    exact ⟨rfl, rfl, rfl⟩
  refine h.modify hstarts (fun j _ => hsame j) hreturned fun start vs errs hget hfresh hflow => ?_
  obtain ⟨hfresh', hproduced, hstage⟩ := hself start hget hfresh
  obtain ⟨hframes, hwaits, herrors⟩ := hsame i
  exact ⟨hfresh', vs, errs, hflow.frame hframes hwaits herrors (fun hstays => hreturned ▸ hstays)
    hproduced hstage⟩

/-- Something is sent, or `frames` stops. -/
theorem Flows.restart (h : s.Flows)
    (hstarts : ∀ (j : Nat) (start' : Start V), t.starts[j]? = some start' →
      ∃ start, s.starts[j]? = some start ∧ start'.stage = start.stage ∧
        start'.produced = start.produced ∧ start'.deadline = start.deadline ∧
        start'.timedOut = start.timedOut)
    (hflow : ∀ j start vs errs, s.Flow j start vs errs → ∃ vs errs, t.Flow j start vs errs) :
    t.Flows := by
  intro j start' hget
  obtain ⟨start, hold, hstage, hproduced, hdeadline, htimedOut⟩ := hstarts j start' hget
  obtain ⟨hfresh, vs, errs, hold⟩ := h j start hold
  obtain ⟨vs', errs', hnew⟩ := hflow j start vs errs hold
  refine ⟨⟨?_, ?_⟩, vs', errs', hnew.frame rfl rfl rfl id hproduced ?_⟩
  · rw [hstage, hproduced]
    exact hfresh.early
  · rw [hproduced, hdeadline, htimedOut]
    exact hfresh.seeded
  · rw [hstage]
    exact id

theorem Flows.emit (h : s.Flows) (hget : s.starts[i]? = some start)
    (hstage : start.stage = .watching) :
    Flows ((s.setStart i fun start =>
      { start.disarmDeadline with produced := start.produced ++ [v] }).emitValue i v) := by
  refine h.modify rfl (fun j hne => ⟨rfl, ?_, rfl⟩) rfl fun start' vs errs hget' hfresh hflow => ?_
  · exact (JsMap.get_set _ _ _ _).trans (if_neg hne)
  · cases hget.symm.trans hget'
    refine ⟨⟨fun hearly => absurd hstage hearly, fun _ => ⟨rfl, rfl⟩⟩, vs, errs, ?_⟩
    exact hflow.emit (hstage ▸ nofun) rfl (JsMap.get_set_self _ _ _) rfl rfl

/-- A value that nobody will be sent. -/
theorem Flow.drop (h : s.Flow i start vs errs) (hreturned : t.returned = true)
    (hsent : t.framesOf i = s.framesOf i) (hlatest : t.latest.get i = s.latest.get i)
    (herrors : t.errorsOf i = s.errorsOf i) (hproduced : start'.produced = start.produced ++ [v])
    (hended : start'.stage = .ended) : t.Flow i start' vs errs := by
  refine ⟨hsent.trans h.sent, ?_, fun hstays => ?_, ?_, fun halive => absurd hended halive, ?_⟩
  · rw [hlatest, hproduced]
    exact h.queued.trans (List.sublist_append_left _ _)
  · exact absurd (hreturned.symm.trans hstays) (by decide)
  · rw [herrors]
    exact h.one
  · rw [herrors, hlatest]
    exact h.failed

theorem errorsOf_concat_self (s : LiveEndpoint V) (i : Nat) (e : FrameError)
    (hterminal : t.terminal = s.terminal ++ [(i, e)]) :
    t.errorsOf i = s.errorsOf i ++ [(i, e)] := by
  have hkept : [(i, e)].filter (fun q => decide (q.1 = i)) = [(i, e)] := by simp
  unfold errorsOf
  rw [hterminal, List.filter_append, hkept]

theorem errorsOf_concat_other (s : LiveEndpoint V) (e : FrameError) (hne : j ≠ i)
    (hterminal : t.terminal = s.terminal ++ [(i, e)]) : t.errorsOf j = s.errorsOf j := by
  have hleft : [(i, e)].filter (fun q => decide (q.1 = j)) = [] := by simp [hne.symm]
  unfold errorsOf
  rw [hterminal, List.filter_append, hleft, List.append_nil]

theorem Flows.drop (h : s.Flows) (htally : s.Tally) (hget : s.starts[i]? = some start)
    (hstage : start.stage = .watching) (hclosed : s.closed = true) :
    Flows (s.conclude i (fun start =>
      { start.disarmDeadline with produced := start.produced ++ [v], stage := .ended }) none) := by
  have hreturned : s.returned = true := by
    rcases htally.closed hclosed with hreturned | ⟨hnone, -⟩
    · exact hreturned
    · exact absurd hnone (Nat.ne_of_gt (htally.live_pos hget (hstage ▸ nofun)))
  have herrors : ∀ j, errorsOf (s.conclude i (fun start =>
      { start.disarmDeadline with produced := start.produced ++ [v], stage := .ended }) none) j =
        s.errorsOf j := by
    intro j
    exact congrArg (List.filter _) (List.append_nil _)
  refine h.modify rfl (fun j hne => ⟨rfl, rfl, herrors j⟩) rfl fun _ vs errs _ _ hflow => ?_
  refine ⟨⟨fun _ hnot => absurd rfl hnot, fun _ => ⟨rfl, rfl⟩⟩, vs, errs, ?_⟩
  exact hflow.drop hreturned rfl rfl (herrors i) rfl rfl

/-- A subscription ends, with an error where no value of its own waits. -/
theorem Flows.ends (h : s.Flows) {watch : WatchState → WatchState} {error? : Option FrameError}
    (hget : s.starts[i]? = some start) (hstage : start.stage ≠ .ended)
    (hwaits : error?.isSome = true → s.latest.get i = none) :
    Flows (s.conclude i (fun start =>
      { start.disarmDeadline with watch := watch start.watch, stage := .ended }) error?) := by
  have hfresh' : ∀ start : Start V, Start.Fresh
      { start.disarmDeadline with watch := watch start.watch, stage := .ended } :=
    fun _ => ⟨fun _ hnot => absurd rfl hnot, fun _ => ⟨rfl, rfl⟩⟩
  cases error? with
  | none =>
    refine h.touch rfl rfl rfl (List.append_nil _) rfl fun start _ _ => ⟨hfresh' start, rfl, ?_⟩
    exact fun hnot => absurd rfl hnot
  | some e =>
    refine h.modify rfl (fun j hne => ⟨rfl, rfl, errorsOf_concat_other s e hne rfl⟩) rfl ?_
    intro start' vs errs hget' _ hflow
    cases hget.symm.trans hget'
    refine ⟨hfresh' start, vs, errs, ?_⟩
    exact hflow.fail hstage (hwaits rfl) rfl rfl (errorsOf_concat_self s i e rfl) id rfl rfl

theorem framesOf_concat_self (hsent : t.sent = s.sent ++ [frame]) (hindex : frame.index = some i) :
    t.framesOf i = s.framesOf i ++ [frame] := by
  have hkept : [frame].filter (fun frame => decide (frame.index = some i)) = [frame] := by
    simp [hindex]
  unfold framesOf
  rw [hsent, List.filter_append, hkept]

theorem framesOf_concat_other (hsent : t.sent = s.sent ++ [frame]) (hindex : frame.index ≠ some i) :
    t.framesOf i = s.framesOf i := by
  have hleft : [frame].filter (fun frame => decide (frame.index = some i)) = [] := by
    simp [hindex]
  unfold framesOf
  rw [hsent, List.filter_append, hleft, List.append_nil]

/-- A frame is taken from the queue, and sent. -/
theorem Flows.send (h : s.Flows) (htake : s.take = (t, some frame)) :
    Flows { t with sent := t.sent ++ [frame], phase := .yielded } := by
  rcases of_take_some htake with ⟨i, e, rest, hterminal, rfl, rfl⟩ |
    ⟨i, v, rest, -, hlatest, rfl, rfl⟩
  · refine h.restart (fun j start hget => ⟨start, hget, rfl, rfl, rfl, rfl⟩) ?_
    intro j start vs errs hflow
    by_cases hj : i = j
    · subst hj
      refine ⟨vs, errs ++ [e], hflow.sendError (framesOf_concat_self rfl rfl) rfl ?_ rfl⟩
      exact (congrArg (List.filter _) hterminal).trans (List.filter_cons_of_pos (decide_eq_true rfl))
    · have hindex : (LiveFrame.error i e : LiveFrame V).index ≠ some j :=
        fun heq => hj (Option.some.inj heq)
      refine ⟨vs, errs, hflow.frame (framesOf_concat_other rfl hindex) rfl ?_ id rfl id⟩
      exact ((congrArg (List.filter _) hterminal).trans
        (List.filter_cons_of_neg fun heq => hj (of_decide_eq_true heq))).symm
  · refine h.restart (fun j start hget => ⟨start, hget, rfl, rfl, rfl, rfl⟩) ?_
    intro j start vs errs hflow
    by_cases hj : i = j
    · subst hj
      have hwaits : s.latest.get i = some v :=
        JsMap.get_of_mem_entries (q := (i, v)) (hlatest ▸ List.mem_cons_self)
      exact ⟨vs ++ [v], errs, hflow.sendValue (framesOf_concat_self rfl rfl) hwaits
        (JsMap.get_erase_self _ _) rfl rfl⟩
    · have hindex : (LiveFrame.value i v : LiveFrame V).index ≠ some j :=
        fun heq => hj (Option.some.inj heq)
      refine ⟨vs, errs, hflow.frame (framesOf_concat_other rfl hindex) ?_ rfl id rfl id⟩
      exact (JsMap.get_erase _ _ _).trans (if_neg fun heq => hj heq.symm)

theorem Flows.sweep (h : s.Flows) : s.sweep.Flows :=
  h.restart (fun _ _ hget => of_sweep_get hget) fun _ _ vs errs hflow =>
    ⟨vs, errs, hflow.frame rfl rfl rfl id rfl id⟩

theorem Flows.step (h : s.Flows) (htally : s.Tally) (hguard : s.Unhurried l)
    (hstep : s.step o l = some t) : t.Flows := by
  cases moves_of_step hstep with
  | advances hget hold hnew =>
    refine h.touch rfl rfl rfl rfl rfl fun start hget' hfresh => ?_
    cases hget.symm.trans hget'
    have hearly := hfresh.early (fun heq => by rw [heq] at hold; exact absurd hold (by decide))
      (fun heq => by rw [heq] at hold; exact absurd hold (by decide))
    refine ⟨⟨fun _ _ => hearly, fun hnot => absurd hearly hnot⟩, rfl, fun _ heq => ?_⟩
    rw [heq] at hold
    exact absurd hold (by decide)
  | opens hget hold =>
    refine h.touch rfl rfl rfl rfl rfl fun start hget' hfresh => ?_
    cases hget.symm.trans hget'
    exact ⟨⟨fun hnot => absurd rfl hnot, hfresh.seeded⟩, rfl, fun _ => hold ▸ nofun⟩
  | expires hget hdeadline =>
    refine h.touch rfl rfl rfl rfl rfl fun start hget' hfresh => ?_
    cases hget.symm.trans hget'
    refine ⟨⟨hfresh.early, fun hseeded => ?_⟩, rfl, id⟩
    exact absurd ((hfresh.seeded hseeded).1.symm.trans hdeadline) Bool.false_ne_true
  | emits hget hold hopen => exact h.emit hget hold
  | drops hget hold hclosed => exact h.drop htally hget hold hclosed
  | ends hget hold hwatch hopen hcause hlabel =>
    refine h.ends hget hold fun hsome => ?_
    obtain ⟨hfresh, vs, errs, hflow⟩ := h _ _ hget
    rcases hcause hsome with ⟨e, rfl⟩ | htimedOut | hstage
    · exact Option.isNone_iff_eq_none.1 (hguard (hopen hsome))
    · refine hflow.none_of_unproduced (Classical.not_not.1 fun hseeded => ?_)
      exact absurd ((hfresh.seeded hseeded).2.symm.trans htimedOut) Bool.false_ne_true
    · exact hflow.none_of_unproduced (hfresh.early (hstage ▸ nofun) (hstage ▸ nofun))
  | sends hturns htake => exact h.send htake
  | parks hturns hpending hlive =>
    exact h.restart (fun j start hget => ⟨start, hget, rfl, rfl, rfl, rfl⟩)
      fun j start vs errs hflow => ⟨vs, errs, hflow.frame rfl rfl rfl id rfl id⟩
  | finishes | sweeps => exact h.sweep
  | pings hphase hclosed hpending =>
    refine h.restart (fun j start hget => ⟨start, hget, rfl, rfl, rfl, rfl⟩)
      fun j start vs errs hflow => ⟨vs, errs, hflow.frame ?_ rfl rfl id rfl id⟩
    exact framesOf_concat_other rfl nofun
  | returns =>
    obtain ⟨hstarts, hsent, hlatest, hterminal, -, hreturned⟩ := ret_same s
    refine h.restart (fun j start hget => ⟨start, hstarts ▸ hget, rfl, rfl, rfl, rfl⟩)
      fun j start vs errs hflow => ⟨vs, errs, hflow.frame ?_ ?_ ?_ (fun hstays => ?_) rfl id⟩
    · exact congrArg (List.filter _) hsent
    · rw [hlatest]
    · exact congrArg (List.filter _) hterminal
    · exact absurd (hreturned.symm.trans hstays) (by decide)
  | idles hphase => exact h

/-! ## A value that waits -/

theorem turn_sent (h : s.pending = true) : ∃ frame, s.turn.sent = s.sent ++ [frame] := by
  unfold turn
  split
  case h_1 t frame htake =>
    refine ⟨frame, ?_⟩
    rcases of_take_some htake with ⟨_, _, _, -, rfl, -⟩ | ⟨_, _, _, -, -, rfl, -⟩
    · rfl
    · rfl
  case h_2 t htake =>
    exact absurd ((of_take_none htake).2.symm.trans h) Bool.false_ne_true

theorem pending_of_waits (hwaits : s.latest.get i = some v) : s.pending = true := by
  have hmem : (i, v) ∈ s.latest.entries := JsMap.mem_entries_of_get hwaits
  unfold pending
  cases hentries : s.latest.entries with
  | nil =>
    rw [hentries] at hmem
    cases hmem
  | cons q rest => rfl

/-- A consumer that asks, or has asked, is sent a frame. -/
theorem Tally.pull (h : s.Tally) (hpending : s.pending = true) (hstays : s.returned = false) :
    ∃ l t frame, (l = .next ∨ l = .resume) ∧ s.step o l = some t ∧ t.sent = s.sent ++ [frame] := by
  have hopen : ¬ s.closed = true := by
    intro hclosed
    rcases h.closed hclosed with hreturned | ⟨-, hnone⟩
    · exact absurd (hstays.symm.trans hreturned) Bool.false_ne_true
    · exact absurd (hnone.symm.trans hpending) Bool.false_ne_true
  obtain ⟨frame, hsent⟩ := turn_sent hpending
  cases hphase : s.phase with
  | start | yielded =>
    refine ⟨.next, s.turn, frame, .inl rfl, ?_, hsent⟩
    dsimp only [LiveEndpoint.step, LiveEndpoint.next]
    rw [hphase]
  | parked =>
    refine ⟨.resume, s.turn, frame, .inr rfl, ?_, hsent⟩
    have hwoken : s.woken = true := by
      cases hwoken : s.woken with
      | true => rfl
      | false =>
        exact absurd ((h.woken hphase hwoken).2.symm.trans hpending) Bool.false_ne_true
    dsimp only [LiveEndpoint.step, LiveEndpoint.resume]
    rw [if_pos ⟨hphase, .inl hwoken⟩, if_neg hopen, if_neg]
    rw [hpending]
    exact Bool.false_ne_true
  | returning => exact absurd (h.stopped (.inl hphase)) hopen
  | done => exact absurd (h.stopped (.inr hphase)) hopen

/-- What is sent, and what a watch has produced, only grows. -/
theorem grows_of_step (hstep : s.step o l = some t) (hget : s.starts[i]? = some start) :
    s.sent <+: t.sent ∧ ∃ start', t.starts[i]? = some start' ∧
      start.produced <+: start'.produced := by
  have hmodify : ∀ {k : Nat} {f : Start V → Start V},
      (∀ start, start.produced <+: (f start).produced) →
      ∃ start', (s.starts.modify k f)[i]? = some start' ∧ start.produced <+: start'.produced := by
    intro k f hf
    by_cases hi : i = k
    · subst hi
      exact ⟨_, modify_get_self f hget, hf start⟩
    · exact ⟨_, (modify_get_other f hi).trans hget, List.prefix_refl _⟩
  have hsweep : ∃ start', s.sweep.starts[i]? = some start' ∧
      start.produced <+: start'.produced := by
    refine ⟨_, (sweep_get s i).trans (congrArg (Option.map _) hget), ?_⟩
    dsimp only
    split <;> exact List.prefix_refl _
  cases moves_of_step hstep with
  | advances _ hold hnew => exact ⟨List.prefix_refl _, hmodify fun _ => List.prefix_refl _⟩
  | opens _ hold => exact ⟨List.prefix_refl _, hmodify fun _ => List.prefix_refl _⟩
  | expires _ hdeadline => exact ⟨List.prefix_refl _, hmodify fun _ => List.prefix_refl _⟩
  | emits | drops => exact ⟨List.prefix_refl _, hmodify fun _ => List.prefix_append _ _⟩
  | ends _ hold hwatch hopen hcause hlabel => exact ⟨List.prefix_refl _, hmodify fun _ => List.prefix_refl _⟩
  | sends hturns htake =>
    rcases of_take_some htake with ⟨_, _, _, -, rfl, -⟩ | ⟨_, _, _, -, -, rfl, -⟩
    · exact ⟨List.prefix_append _ _, start, hget, List.prefix_refl _⟩
    · exact ⟨List.prefix_append _ _, start, hget, List.prefix_refl _⟩
  | parks | idles => exact ⟨List.prefix_refl _, start, hget, List.prefix_refl _⟩
  | finishes | sweeps => exact ⟨List.prefix_refl _, hsweep⟩
  | pings hphase hclosed hpending => exact ⟨List.prefix_append _ _, start, hget, List.prefix_refl _⟩
  | returns =>
    obtain ⟨hstarts, hsent, -⟩ := ret_same s
    rw [hstarts, hsent]
    exact ⟨List.prefix_refl _, start, hget, List.prefix_refl _⟩

/-- The value waits no longer than before. -/
theorem rank_le_of_kept (hlatest : t.latest = s.latest)
    (hqueue : t.terminal.length + t.live ≤ s.terminal.length + s.live) : t.rank i ≤ s.rank i := by
  unfold rank
  rw [hlatest]
  omega

theorem rank_conclude (htally : s.Tally) {error? : Option FrameError}
    (hget : s.starts[j]? = some start) (hstage : start.stage ≠ .ended) :
    (s.conclude j f error?).rank i ≤ s.rank i := by
  have hlive := htally.live_pos hget hstage
  refine rank_le_of_kept rfl ?_
  cases error? with
  | none =>
    have hterminal : (s.conclude j f none).terminal = s.terminal := List.append_nil _
    have hlost : (s.conclude j f none).live = s.live - 1 := rfl
    rw [hterminal, hlost]
    omega
  | some e =>
    have hterminal : (s.conclude j f (some e)).terminal.length = s.terminal.length + 1 :=
      List.length_append
    have hlost : (s.conclude j f (some e)).live = s.live - 1 := rfl
    omega

/-- Another value comes, and waits behind it. -/
theorem rank_emit {w : V} (hwaits : s.latest.get i = some v) (f : Start V → Start V) :
    ((s.setStart j f).emitValue j w).rank i = s.rank i := by
  have hmem : i ∈ s.latest.keys := (JsMap.mem_keys_iff _ _).2 (hwaits ▸ rfl)
  have hkeys : (s.latest.set j w).keys.idxOf i = s.latest.keys.idxOf i := by
    rw [JsMap.keys_set]
    split
    · rfl
    · rw [List.idxOf_append, if_pos hmem]
  exact congrArg (· + s.terminal.length + s.live) hkeys

/-- Another frame is sent, and it comes nearer. -/
theorem rank_send (htake : s.take = (t, some frame)) (hwaits : s.latest.get i = some v) :
    frame = .value i v ∨ t.latest.get i = some v ∧ t.rank i + 1 = s.rank i := by
  rcases of_take_some htake with ⟨j, e, rest, hterminal, rfl, rfl⟩ |
    ⟨j, w, rest, -, hlatest, rfl, rfl⟩
  · refine .inr ⟨hwaits, ?_⟩
    unfold rank
    rw [hterminal, List.length_cons]
    dsimp only
    omega
  · have hfirst : s.latest.get j = some w :=
      JsMap.get_of_mem_entries (q := (j, w)) (hlatest ▸ List.mem_cons_self)
    by_cases hj : i = j
    · subst hj
      cases hwaits.symm.trans hfirst
      exact .inl rfl
    · refine .inr ⟨(JsMap.get_erase _ _ _).trans ((if_neg hj).trans hwaits), ?_⟩
      unfold rank
      rw [← JsMap.keys_erase_first hlatest, List.idxOf_cons, beq_false_of_ne fun heq => hj heq.symm,
        cond_false]
      dsimp only
      omega

/-- A step that the watch has no part in sends the value that waits, or brings it no further
from the consumer. -/
theorem nears_of_step (htally : s.Tally) (hwaits : s.latest.get i = some v)
    (hget : s.starts[i]? = some start) (hget' : t.starts[i]? = some start')
    (hproduced : start'.produced = start.produced) (hstep : s.step o l = some t) :
    .value i v ∈ t.sent.drop s.sent.length ∨
      t.latest.get i = some v ∧ t.sent.length + t.rank i ≤ s.sent.length + s.rank i := by
  have hbusy : s.pending = false → False := fun hpending =>
    absurd (hpending.symm.trans (pending_of_waits hwaits)) Bool.false_ne_true
  cases moves_of_step hstep with
  | advances | opens | expires | sweeps | idles => exact .inr ⟨hwaits, Nat.le_refl _⟩
  | @emits j w _ hold hstage hopen =>
    refine .inr ⟨?_, Nat.le_of_eq (congrArg (s.sent.length + ·) (rank_emit hwaits _))⟩
    by_cases hj : i = j
    · subst hj
      cases (modify_get_self _ hget).symm.trans hget'
      exact absurd (List.append_right_eq_self.1 hproduced) (List.cons_ne_nil _ _)
    · exact (JsMap.get_set _ _ _ _).trans ((if_neg hj).trans hwaits)
  | drops hold hstage hclosed =>
    exact .inr ⟨hwaits, Nat.add_le_add_left (rank_conclude htally hold (hstage ▸ nofun)) _⟩
  | ends hold hstage hwatch hopen hcause hlabel =>
    exact .inr ⟨hwaits, Nat.add_le_add_left (rank_conclude htally hold hstage) _⟩
  | @sends _ rest frame hturns htake =>
    have hsent : rest.sent = s.sent := by
      rcases of_take_some htake with ⟨_, _, _, -, rfl, -⟩ | ⟨_, _, _, -, -, rfl, -⟩
      · rfl
      · rfl
    rcases rank_send htake hwaits with rfl | ⟨hleft, hnearer⟩
    · refine .inl ?_
      rw [hsent, List.drop_left]
      exact List.mem_singleton_self _
    · refine .inr ⟨hleft, ?_⟩
      rw [hsent, List.length_append, List.length_singleton]
      exact Nat.le_of_eq (hnearer ▸ Nat.add_right_comm _ _ _)
  | parks _ hpending | finishes _ hpending | pings _ _ hpending => exact (hbusy hpending).elim
  | returns =>
    obtain ⟨-, hsent, hlatest, hterminal, hlive, -⟩ := ret_same s
    unfold rank
    rw [hsent, hlatest, hterminal, hlive]
    exact .inr ⟨hwaits, Nat.le_refl _⟩

/-- A run that the watch has no part in. -/
theorem nears_of_run (htally : s.Tally) (hwaits : s.latest.get i = some v)
    (hget : s.starts[i]? = some start) (hrun : ((liveEndpoint o subs).since s).Reachable t) :
    t.Tally ∧ s.sent <+: t.sent ∧ ∃ start', t.starts[i]? = some start' ∧
      start.produced <+: start'.produced ∧ (start'.produced = start.produced →
        .value i v ∈ t.sent.drop s.sent.length ∨
          t.latest.get i = some v ∧ t.sent.length + t.rank i ≤ s.sent.length + s.rank i) := by
  induction hrun with
  | start heq =>
    obtain rfl := heq
    exact ⟨htally, List.prefix_refl _, start, hget, List.prefix_refl _,
      fun _ => .inr ⟨hwaits, Nat.le_refl _⟩⟩
  | @next t u l _ _ hstep ih =>
    obtain ⟨htally', hsent, start', hget', hproduced, hnears⟩ := ih
    obtain ⟨hmore, start'', hget'', hproduced'⟩ := grows_of_step hstep hget'
    refine ⟨htally'.step hstep, hsent.trans hmore, start'', hget'', hproduced.trans hproduced', ?_⟩
    intro hsame
    have hsame' : start'.produced = start.produced := by
      refine (hproduced.eq_of_length_le ?_).symm
      exact hsame ▸ hproduced'.length_le
    rcases hnears hsame' with hserved | ⟨hwaits', hrank⟩
    · exact .inl ((hmore.sublist.drop _).subset hserved)
    have hstays : start''.produced = start'.produced := hsame.trans hsame'.symm
    rcases nears_of_step htally' hwaits' hget' hget'' hstays hstep with hserved | ⟨hleft, hless⟩
    · exact .inl ((List.drop_sublist_drop_left _ hsent.length_le).subset hserved)
    · exact .inr ⟨hleft, Nat.le_trans hless hrank⟩

/-- What waits is owed. -/
theorem Tally.owes (h : s.Tally) (hstays : s.returned = false) (hwaits : s.latest.get i = some v)
    (hget : s.starts[i]? = some start) : s.Owes o subs i start v := by
  refine ⟨hwaits, h.pull (pending_of_waits hwaits) hstays, ?_⟩
  intro t start' hrun hget' hsame hmore
  obtain ⟨-, -, start'', hget'', -, hnears⟩ := nears_of_run h hwaits hget hrun
  cases hget'.symm.trans hget''
  rcases hnears hsame with hserved | ⟨-, hrank⟩
  · exact hserved
  · omega

theorem flows_subscribeAll (o : LiveEndpointOptions) (subs : List LiveSubscription) :
    (subscribeAll (V := V) o subs).Flows := by
  intro i start hget
  obtain ⟨sub, -, rfl⟩ := List.mem_map.1 (List.mem_of_getElem? hget)
  refine ⟨⟨fun _ _ => rfl, fun hnot => absurd rfl hnot⟩, [], [], rfl, .refl _, fun _ => rfl,
    Nat.zero_le 1, fun _ => ⟨rfl, rfl⟩, fun _ => rfl⟩

theorem flows_of_reach (h : (liveEndpoint o subs).Reach Unhurried s) : s.Flows := by
  have hboth : s.Tally ∧ s.Flows := by
    refine h.invariant (I := fun s => s.Tally ∧ s.Flows) ?_ ?_
    · rintro _ rfl
      exact ⟨tally_subscribeAll o subs, flows_subscribeAll o subs⟩
    · exact fun _ _ _ hs hguard hstep => ⟨hs.1.step hstep, hs.2.step hs.1 hguard hstep⟩
  exact hboth.2

end LiveEndpoint

/-- **Frames are sent in order**, in a run in which no watch fails while a value of its own
waits: some of what the watch has produced, the last of it too when the consumer keeps pulling,
and then at most one error. -/
theorem in_order_of_unhurried (o : LiveEndpointOptions) (subs : List LiveSubscription)
    {s : LiveEndpoint V} (h : (liveEndpoint o subs).Reach LiveEndpoint.Unhurried s) :
    s.InOrder o subs := by
  have htally := LiveEndpoint.tally_of_reachable h.reachable
  constructor
  intro i start hget
  obtain ⟨-, vs, errs, hflow⟩ := LiveEndpoint.flows_of_reach h i start hget
  have hsome : vs.Sublist start.produced := (List.sublist_append_left vs _).trans hflow.queued
  refine ⟨vs, errs, hflow.sent, Nat.le_trans (Nat.le_add_right _ _) hflow.one, hsome, ?_⟩
  intro hstays
  have hlast := hflow.last hstays
  cases hwaits : s.latest.get i with
  | none =>
    rw [hwaits, Option.toList_none, List.append_nil] at hlast
    exact .inl hlast
  | some v =>
    rw [hwaits, Option.toList_some, List.getLast?_concat] at hlast
    exact .inr ⟨v, hlast.symm, htally.owes hstays hwaits hget⟩

/-- A watch fails when its last value has been sent. -/
def drained : List (LiveEndpoint.Label Nat) :=
  [.next, .proceed 0, .proceed 0, .proceed 0, .value 0 1, .value 0 2, .resume, .next,
    .fail 0 ⟨"internal error", 500⟩, .resume, .next]

theorem in_order_drained : ∃ s : LiveEndpoint Nat, s.InOrder {} [cartTotal] ∧
    s.sent = [.value 0 2, .error 0 ⟨"internal error", 500⟩] ∧ s.phase = .done := by
  have hstart : (liveEndpoint {} [cartTotal]).Reach LiveEndpoint.Unhurried
      (subscribeAll (V := Nat) {} [cartTotal]) := .start rfl
  have hrun := hstart.exec_get drained (by decide)
  exact ⟨_, in_order_of_unhurried {} [cartTotal] hrun, by decide, by decide⟩

/-- A watch fails while its value waits. -/
def overtaken : List (LiveEndpoint.Label Nat) :=
  [.next, .proceed 0, .proceed 0, .proceed 0, .value 0 1, .fail 0 ⟨"internal error", 500⟩, .resume,
    .next]

/-- The error is sent first, and then the value. -/
theorem not_in_order : ∃ s : LiveEndpoint Nat, (liveEndpoint {} [cartTotal]).Reachable s ∧
    s.sent = [.error 0 ⟨"internal error", 500⟩, .value 0 1] ∧ ¬ s.InOrder {} [cartTotal] := by
  have hstart : (liveEndpoint {} [cartTotal]).Reachable
      (subscribeAll (V := Nat) {} [cartTotal]) := .start rfl
  refine ⟨_, hstart.exec_get overtaken (by decide), by decide, fun horder => ?_⟩
  obtain ⟨vs, errs, hsent, hone, -⟩ := horder.ordered 0
    ⟨cartTotal, .ended, .over, false, false, [1]⟩ (by decide)
  have hframes : [LiveFrame.error 0 ⟨"internal error", 500⟩, .value 0 1] =
      vs.map (.value 0) ++ errs.map (.error 0) := by
    refine Eq.trans ?_ hsent
    decide
  cases vs with
  | cons v vs => cases hframes
  | nil =>
    have hlength := congrArg List.length hframes
    rw [List.map_nil, List.nil_append, List.length_map] at hlength
    exact absurd hone (by rw [← hlength]; decide)

end SigxActors.Live
