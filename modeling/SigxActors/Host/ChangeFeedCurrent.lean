/-
  Host/ChangeFeedCurrent.lean --- what a subscriber of a change feed ends with.

  A window that closes, and a feed that is closed, hand over the state as it is then.  While a turn
  runs, or a reload is pending, that is not the state of a boundary; and where the snapshot cannot
  be taken, the change that was put off is forgotten.  In the runs in which neither happens, the
  newest value of a feed is the state of the boundary that was delivered last.
-/
import SigxActors.Host.ChangeFeed

set_option autoImplicit false

namespace SigxActors.Host

open SigxActors.Js

variable {V : Type}

/-! ## One subscription -/

variable {sub' : ChangeSub V}

namespace ChangeSub

variable {sub : ChangeSub V} {boundary state v : V} {value : Change V}

theorem wakeUp_pull (sub : ChangeSub V) : sub.wakeUp.pull ≠ .parked := by
  change (if sub.pull = .parked then FeedPull.woken else sub.pull) ≠ .parked
  split
  · nofun
  · assumption

theorem Sound.wakeUp (h : sub.Sound) : sub.wakeUp.Sound :=
  { h with parked := fun hparked => absurd hparked sub.wakeUp_pull }

/-- Where no window is open, none is armed, and nothing is pending. -/
theorem Sound.quiet (h : sub.Sound) (hnone : sub.cancelWindow = none) :
    (∀ w : Nat, sub.windows[w]? ≠ some true) ∧ sub.pending = false := by
  refine ⟨fun w harmed => ?_, ?_⟩
  · exact nomatch hnone.symm.trans (h.armed w harmed)
  · cases hpending : sub.pending
    · rfl
    · have hopen := h.pending hpending
      rw [hnone] at hopen
      cases hopen

/-- The queue at its bound loses the oldest value, and not the newest. -/
theorem bounded_push (queue : List (Change V)) (value : Change V) :
    (if changeBuffer < (queue ++ [value]).length then (queue ++ [value]).tail
      else queue ++ [value]).getLast? = some value := by
  split
  · rename_i hfull
    cases queue with
    | nil => exact absurd hfull (by simp [changeBuffer])
    | cons oldest queue => exact List.getLast?_concat
  · exact List.getLast?_concat

theorem deliver_last (sub : ChangeSub V) (boundary : V) (value : Change V) :
    (sub.deliver boundary value).queue.getLast? = some value :=
  bounded_push sub.queue value

theorem Sound.deliver (h : sub.Sound) (boundary : V) (value : Change V) :
    (sub.deliver boundary value).Sound := by
  refine { h with bounded := ?_, parked := fun hparked => absurd hparked (wakeUp_pull _) }
  change (if changeBuffer < (sub.queue ++ [value]).length then (sub.queue ++ [value]).tail
    else sub.queue ++ [value]).length ≤ changeBuffer
  have hbounded := h.bounded
  split
  · rw [List.length_tail, List.length_append, List.length_singleton]
    exact hbounded
  · rename_i hroom
    exact Nat.le_of_not_lt hroom

theorem Current.deliver (sub : ChangeSub V) (hvalue : sub.ticksOnly = false → value = .snapshot boundary) :
    (sub.deliver boundary value).Current := by
  refine ⟨fun hticks v hlast => ?_, nofun⟩
  obtain rfl : boundary = v := Option.some.inj hlast
  rw [List.getLast?_append, deliver_last, hvalue hticks]
  rfl

theorem Current.openWindow (h : sub.Current) : sub.openWindow.Current := ⟨h.newest, h.owed⟩

theorem Sound.openWindow (h : sub.Sound) (hnone : sub.cancelWindow = none) (hdone : sub.done = false)
    (hthrottle : ¬sub.throttleMs ≤ 0) : sub.openWindow.Sound := by
  refine ⟨h.bounded, fun w hw => ?_, fun w harmed => ?_, fun _ => rfl, fun _ => hthrottle,
    fun htrue => absurd (hdone.symm.trans htrue) Bool.false_ne_true, h.parked⟩
  · cases hw
    exact List.getElem?_concat_length
  · rcases of_append_get harmed with ⟨rfl, -⟩ | ⟨-, harmed⟩
    · rfl
    · exact absurd harmed ((h.quiet hnone).1 w)

theorem Sound.closeWindow (h : sub.Sound) : sub.closeWindow.Sound := by
  refine ⟨h.bounded, nofun, fun w harmed => ?_, nofun, nofun, fun _ => rfl, h.parked⟩
  unfold ChangeSub.closeWindow at harmed
  split at harmed
  · rename_i w' hw'
    rcases of_set_get harmed with ⟨-, hfalse⟩ | ⟨hne, harmed⟩
    · cases hfalse
    · rw [h.armed w harmed] at hw'
      exact absurd (Option.some.inj hw') hne
  · rename_i hnone
    exact absurd harmed ((h.quiet hnone).1 w)

/-- A window that fires was the one that is open. -/
theorem Sound.fired (h : sub.Sound) {w : Nat} (harmed : sub.windows[w]? = some true) :
    ({ sub with cancelWindow := none, windows := sub.windows.set w false, pending := false } :
      ChangeSub V).Sound := by
  refine ⟨h.bounded, nofun, fun w' harmed' => ?_, nofun, nofun, fun _ => rfl, h.parked⟩
  rcases of_set_get harmed' with ⟨-, hfalse⟩ | ⟨hne, harmed'⟩
  · cases hfalse
  have hw := h.armed w harmed
  rw [h.armed w' harmed'] at hw
  exact absurd (Option.some.inj hw) hne

theorem Sound.windowFires (h : sub.Sound) {w : Nat} (ok : Bool)
    (harmed : sub.windows[w]? = some true) : (sub.windowFires boundary state w ok).Sound := by
  have hw := h.armed w harmed
  have hopen : sub.cancelWindow.isSome = true := by
    rw [hw]
    rfl
  have hfired := h.fired harmed
  unfold ChangeSub.windowFires
  dsimp only
  split
  · rename_i hquiet
    have hpending : sub.pending = false := by
      rcases hquiet with hpending | hdone
      · exact hpending
      · exact nomatch (h.closed hdone).symm.trans hw
    rw [show ({ sub with cancelWindow := none, windows := sub.windows.set w false } : ChangeSub V) =
      { sub with cancelWindow := none, windows := sub.windows.set w false, pending := false } by
        rw [← hpending]]
    exact hfired
  · rename_i hquiet
    have hdone : sub.done = false := Bool.eq_false_iff.2 (not_or.1 hquiet).2
    split
    · exact (hfired.deliver boundary .tick).openWindow rfl hdone (h.throttled hopen)
    split
    · exact (hfired.deliver boundary _).openWindow rfl hdone (h.throttled hopen)
    · exact hfired

/-- A window that closes hands over what was put off. -/
theorem Current.windowFires (h : sub.Current) {w : Nat} {ok : Bool}
    (hsettled : sub.pending = true → sub.done = false → sub.ticksOnly = false →
      ok = true ∧ state = boundary) : (sub.windowFires boundary state w ok).Current := by
  unfold ChangeSub.windowFires
  dsimp only
  split
  · exact ⟨h.newest, h.owed⟩
  rename_i hquiet
  obtain ⟨hpending, hdone⟩ := not_or.1 hquiet
  split
  · rename_i hticks
    refine (Current.deliver _ fun hfalse => ?_).openWindow
    exact nomatch hfalse.symm.trans hticks
  · rename_i hticks
    obtain ⟨rfl, rfl⟩ := hsettled (Bool.not_eq_false _ ▸ hpending) (Bool.eq_false_iff.2 hdone)
      (Bool.eq_false_iff.2 hticks)
    exact (Current.deliver _ fun _ => rfl).openWindow

theorem Sound.finish (h : sub.Sound) :
    ({ sub.closeWindow with done := true } : ChangeSub V).wakeUp.Sound := by
  have hclosed := h.closeWindow
  exact ⟨hclosed.bounded, hclosed.window, hclosed.armed, hclosed.pending, hclosed.throttled,
    fun _ => rfl, fun hparked => absurd hparked (wakeUp_pull _)⟩

/-- Once a feed has ended nothing is owed. -/
theorem Current.finish (h : sub.Current) :
    ({ sub.closeWindow with done := true } : ChangeSub V).wakeUp.Current :=
  ⟨h.newest, fun _ => .inl rfl⟩

theorem Sound.close (h : sub.Sound) (ok : Bool) : (sub.close boundary state ok).Sound := by
  unfold ChangeSub.close
  split
  · split
    · exact (h.deliver boundary .tick).finish
    split
    · exact (h.deliver boundary _).finish
    · exact h.finish
  · exact h.finish

theorem Current.close (h : sub.Current) {ok : Bool}
    (hsettled : sub.pending = true → sub.done = false → sub.ticksOnly = false →
      ok = false ∨ state = boundary) : (sub.close boundary state ok).Current := by
  unfold ChangeSub.close
  split
  · rename_i hpending
    split
    · rename_i hticks
      exact (Current.deliver _ fun hfalse => nomatch hfalse.symm.trans hticks).finish
    rename_i hticks
    split
    · rename_i hok
      rcases hsettled hpending.1 hpending.2 (Bool.eq_false_iff.2 hticks) with rfl | rfl
      · cases hok
      · exact (Current.deliver _ fun _ => rfl).finish
    · exact h.finish
  · exact h.finish

theorem Sound.leave (h : sub.Sound) : sub.leave.Sound := h.finish

theorem Current.leave (h : sub.Current) : sub.leave.Current := ⟨h.newest, fun _ => .inl rfl⟩

theorem Sound.next (h : sub.Sound) : sub.next.Sound := by
  unfold ChangeSub.next
  split
  · rename_i value queue hqueue
    have hbounded := h.bounded
    rw [hqueue] at hbounded
    exact { h with bounded := Nat.le_of_succ_le hbounded, parked := nofun }
  · rename_i hqueue
    refine { h with parked := fun hparked => ?_ }
    split at hparked
    · cases hparked
    · rename_i hdone
      exact ⟨hqueue, Bool.eq_false_iff.2 hdone⟩

theorem Current.next (h : sub.Current) : sub.next.Current := by
  unfold ChangeSub.next
  split
  · rename_i value queue hqueue
    refine ⟨fun hticks v hlast => ?_, h.owed⟩
    have hnewest := h.newest hticks v hlast
    rw [hqueue] at hnewest
    rw [List.append_assoc]
    exact hnewest
  · exact ⟨h.newest, h.owed⟩

theorem next_done (sub : ChangeSub V) : sub.next.done = sub.done := by
  unfold ChangeSub.next
  split <;> rfl

theorem windowFires_done (sub : ChangeSub V) (boundary state : V) (w : Nat) (ok : Bool) :
    (sub.windowFires boundary state w ok).done = sub.done := by
  unfold ChangeSub.windowFires
  dsimp only
  split
  · rfl
  split
  · rfl
  · split <;> rfl

/-- A window that closes on a pending change emits it, as it is then, and opens another. -/
theorem windowFires_emits (boundary state : V) (w : Nat) {ok : Bool} (hpending : sub.pending = true)
    (hdone : sub.done = false) (hok : sub.ticksOnly = false → ok = true) :
    (sub.windowFires boundary state w ok).queue.getLast? =
        some (if sub.ticksOnly then .tick else .snapshot state) ∧
      (sub.windowFires boundary state w ok).owed = false ∧
      (sub.windowFires boundary state w ok).cancelWindow.isSome = true := by
  unfold ChangeSub.windowFires
  rw [if_neg (by rw [hpending, hdone]; decide)]
  cases hticks : sub.ticksOnly
  · rw [hok hticks]
    exact ⟨deliver_last _ boundary _, rfl, rfl⟩
  · exact ⟨deliver_last _ boundary _, rfl, rfl⟩

/-- What the fan-out makes of a subscription that it does not skip, where `answer` is the snapshot
of the boundary. -/
def reached (sub : ChangeSub V) (boundary : V) (answer : Option V) : ChangeSub V :=
  match sub.deferToWindow with
  | (sub, true) => sub
  | (sub, false) =>
      if sub.ticksOnly then sub.deliver boundary .tick
      else
        match answer with
        | some v => sub.deliver boundary (.snapshot v)
        | none => sub.closeWindow

/-- An open window puts the boundary off; else it is the leading edge of one, if there are any. -/
theorem deferToWindow_cases (sub : ChangeSub V) :
    sub.deferToWindow = ({ sub with pending := true, owed := true }, true) ∧
        sub.cancelWindow.isSome = true ∧ ¬sub.throttleMs ≤ 0 ∨
      sub.deferToWindow = (sub, false) ∧ sub.throttleMs ≤ 0 ∨
      sub.deferToWindow = (sub.openWindow, false) ∧ sub.cancelWindow = none ∧ ¬sub.throttleMs ≤ 0 := by
  unfold deferToWindow
  split
  · rename_i hthrottle
    exact .inr (.inl ⟨rfl, hthrottle⟩)
  rename_i hthrottle
  split
  · rename_i hopen
    exact .inl ⟨rfl, hopen, hthrottle⟩
  · rename_i hopen
    exact .inr (.inr ⟨rfl, Option.not_isSome_iff_eq_none.1 hopen, hthrottle⟩)

/-- Which kind it is does not change, and a boundary that is put off is pending. -/
theorem deferToWindow_kind {deferred : Bool}
    (heq : sub.deferToWindow = (sub', deferred)) :
    sub'.ticksOnly = sub.ticksOnly ∧ (deferred = true → sub'.pending = true) := by
  rcases deferToWindow_cases sub with ⟨hput, -⟩ | ⟨hput, -⟩ | ⟨hput, -⟩
  · rw [heq] at hput
    cases hput
    exact ⟨rfl, fun _ => rfl⟩
  · rw [heq] at hput
    cases hput
    exact ⟨rfl, nofun⟩
  · rw [heq] at hput
    cases hput
    exact ⟨rfl, nofun⟩

theorem reached_deferred (heq : sub.deferToWindow = (sub', true)) (boundary : V)
    (answer : Option V) : sub.reached boundary answer = sub' := by
  unfold ChangeSub.reached
  rw [heq]

theorem reached_lead (heq : sub.deferToWindow = (sub', false)) (boundary : V)
    (answer : Option V) : sub.reached boundary answer =
      if sub'.ticksOnly then sub'.deliver boundary .tick
      else match answer with
        | some v => sub'.deliver boundary (.snapshot v)
        | none => sub'.closeWindow := by
  unfold ChangeSub.reached
  rw [heq]

theorem Sound.deferToWindow (h : sub.Sound) (hdone : sub.done = false) :
    sub.deferToWindow.1.Sound := by
  rcases deferToWindow_cases sub with ⟨heq, hopen, -⟩ | ⟨heq, -⟩ | ⟨heq, hnone, hthrottle⟩
  · rw [heq]
    exact { h with pending := fun _ => hopen }
  · rw [heq]
    exact h
  · rw [heq]
    exact h.openWindow hnone hdone hthrottle

theorem Sound.reached (h : sub.Sound) (hdone : sub.done = false) (boundary : V) (answer : Option V) :
    (sub.reached boundary answer).Sound := by
  have hdeferred := h.deferToWindow hdone
  unfold ChangeSub.reached
  split
  · rename_i sub' heq
    rw [heq] at hdeferred
    exact hdeferred
  · rename_i sub' heq
    rw [heq] at hdeferred
    split
    · exact hdeferred.deliver boundary .tick
    split
    · exact hdeferred.deliver boundary _
    · exact hdeferred.closeWindow

/-- A boundary is put off, or it is the leading edge of a window, or there are no windows. -/
theorem reached_cases (h : sub.Sound) (boundary : V) (answer : Option V) :
    (sub.reached boundary answer = { sub with pending := true, owed := true } ∧
        sub.cancelWindow.isSome = true) ∨
      ∃ lead : ChangeSub V, lead.ticksOnly = sub.ticksOnly ∧ lead.queue = sub.queue ∧
        lead.pulled = sub.pulled ∧ lead.last = sub.last ∧ lead.owed = sub.owed ∧
        lead.done = sub.done ∧ sub.pending = false ∧
        sub.reached boundary answer =
          if lead.ticksOnly then lead.deliver boundary .tick
          else match answer with
            | some v => lead.deliver boundary (.snapshot v)
            | none => lead.closeWindow := by
  unfold ChangeSub.reached
  rcases deferToWindow_cases sub with ⟨heq, hopen, -⟩ | ⟨heq, hthrottle⟩ | ⟨heq, hnone, -⟩
  · rw [heq]
    exact .inl ⟨rfl, hopen⟩
  · have hnone : sub.cancelWindow = none :=
      Option.not_isSome_iff_eq_none.1 fun hopen => h.throttled hopen hthrottle
    rw [heq]
    exact .inr ⟨sub, rfl, rfl, rfl, rfl, rfl, rfl, (h.quiet hnone).2, rfl⟩
  · rw [heq]
    exact .inr ⟨sub.openWindow, rfl, rfl, rfl, rfl, rfl, rfl, (h.quiet hnone).2, rfl⟩

theorem Current.reached (hsound : sub.Sound) (h : sub.Current) (hdone : sub.done = false)
    {answer : Option V} (hanswer : ∀ v, answer = some v → v = boundary) :
    (sub.reached boundary answer).Current := by
  rcases reached_cases hsound boundary answer with
    ⟨heq, -⟩ | ⟨lead, hticks, hqueue, hpulled, hlast, howed, -, hpending, heq⟩
  · rw [heq]
    exact ⟨h.newest, fun _ => .inr rfl⟩
  · rw [heq]
    split
    · rename_i htrue
      refine Current.deliver _ fun hfalse => ?_
      exact nomatch hfalse.symm.trans htrue
    · split
      · rename_i v
        obtain rfl := hanswer v rfl
        exact Current.deliver _ fun _ => rfl
      · refine ⟨fun hfalse v hv => ?_, fun htrue => ?_⟩
        · change (lead.pulled ++ lead.queue).getLast? = _
          rw [hpulled, hqueue]
          exact h.newest (hticks.symm.trans hfalse) v (hlast.symm.trans hv)
        · rcases h.owed (howed.symm.trans htrue) with hended | hpending'
          · exact nomatch hdone.symm.trans hended
          · exact nomatch hpending.symm.trans hpending'

/-- What a boundary comes to for a subscriber that it reaches. -/
theorem reached_gets (h : sub.Sound) (boundary : V) (answer : Option V) :
    (sub.reached boundary answer).pending = true ∧
        (sub.reached boundary answer).cancelWindow.isSome = true ∨
      (sub.reached boundary answer).owed = false ∧
        ((sub.ticksOnly = true ∧ (sub.reached boundary answer).queue.getLast? = some .tick) ∨
          ∃ v, sub.ticksOnly = false ∧ answer = some v ∧
            (sub.reached boundary answer).queue.getLast? = some (.snapshot v)) ∨
      sub.ticksOnly = false ∧ answer = none := by
  rcases reached_cases h boundary answer with
    ⟨heq, hopen⟩ | ⟨lead, hticks, -, -, -, -, -, -, heq⟩
  · rw [heq]
    exact .inl ⟨rfl, hopen⟩
  · rw [heq]
    split
    · rename_i htrue
      exact .inr (.inl ⟨rfl, .inl ⟨hticks.symm.trans htrue, deliver_last _ _ _⟩⟩)
    · rename_i hfalse
      have hvalue : sub.ticksOnly = false := hticks.symm.trans (Bool.eq_false_iff.2 hfalse)
      cases answer with
      | some v => exact .inr (.inl ⟨rfl, .inr ⟨v, hvalue, rfl, deliver_last _ _ _⟩⟩)
      | none => exact .inr (.inr ⟨hvalue, rfl⟩)

theorem reached_done (sub : ChangeSub V) (boundary : V) (answer : Option V) :
    (sub.reached boundary answer).done = sub.done ∧
      (sub.reached boundary answer).ticksOnly = sub.ticksOnly := by
  unfold ChangeSub.reached
  rcases deferToWindow_cases sub with ⟨heq, -⟩ | ⟨heq, -⟩ | ⟨heq, -⟩
  · rw [heq]
    exact ⟨rfl, rfl⟩
  all_goals
    rw [heq]
    dsimp only
    split
    · exact ⟨rfl, rfl⟩
    · split <;> exact ⟨rfl, rfl⟩

end ChangeSub

/-! ## The fan-out of a boundary -/

namespace FeedActivation

variable {s t : FeedActivation V} {ok : Bool} {answer : Option V} {fan : FanOut V}

/-- The codec is asked once: what a fan-out knows of the snapshot is what it comes to. -/
structure Answers (s : FeedActivation V) (ok : Bool) (answer : Option V) (fan : FanOut V) : Prop where
  snap : ∀ v, fan.snap = some v → answer = some v
  failed : fan.failed = true → answer = none
  asks : fan.snap = none → fan.failed = false → s.takeBoundarySnapshot fan.prepared ok = answer

/-- What has become of a subscription that the fan-out has come to. -/
def Visited (s : FeedActivation V) (answer : Option V) (fan : FanOut V) (k : Nat)
    (sub : ChangeSub V) : Prop :=
  fan.subs[k]? = some (sub.reached s.boundary answer) ∧
      (sub.ticksOnly = false → answer = none →
        fan.failed = true ∨ (sub.reached s.boundary answer).pending = true) ∨
    fan.subs[k]? = some sub ∧ sub.ticksOnly = false ∧ answer = none ∧ fan.failed = true

/-- What one pass of the loop does. -/
structure VisitSpec (s : FeedActivation V) (ok : Bool) (answer : Option V) (fan fan' : FanOut V)
    (k : Nat) : Prop where
  answers : s.Answers ok answer fan'
  failed : fan.failed = true → fan'.failed = true
  others : ∀ j, j ≠ k → fan'.subs[j]? = fan.subs[j]?
  visited : ∀ sub, fan.subs[k]? = some sub → s.Visited answer fan' k sub

theorem visit_spec (h : s.Answers ok answer fan) (k : Nat) :
    s.VisitSpec ok answer fan (s.visit ok fan k) k := by
  unfold visit
  split
  · rename_i hnone
    exact ⟨h, id, fun _ _ => rfl, fun sub hget => nomatch hnone.symm.trans hget⟩
  rename_i sub hget
  have hothers : ∀ sub' : ChangeSub V, ∀ j, j ≠ k → (fan.subs.set k sub')[j]? = fan.subs[j]? :=
    fun sub' j hne => List.getElem?_set_ne hne.symm
  have hself : ∀ sub' : ChangeSub V, (fan.subs.set k sub')[k]? = some sub' :=
    fun sub' => List.getElem?_set_self (lt_of_get hget)
  -- only the subscription at the place is concerned
  have hsub : ∀ {P : ChangeSub V → Prop}, P sub → ∀ sub', fan.subs[k]? = some sub' → P sub' := by
    intro P hP sub' hget'
    rw [hget] at hget'
    exact Option.some.inj hget' ▸ hP
  split
  · rename_i hskip
    exact ⟨h, id, fun _ _ => rfl, hsub (.inr ⟨hget, hskip.2, h.failed hskip.1, hskip.1⟩)⟩
  rename_i hvisit
  split
  · rename_i sub' heq
    have hreached := ChangeSub.reached_deferred heq s.boundary answer
    refine ⟨{ h with }, id, hothers sub', hsub (.inl ⟨?_, fun _ _ => .inr ?_⟩)⟩
    · rw [hreached]
      exact hself sub'
    · rw [hreached]
      exact (ChangeSub.deferToWindow_kind heq).2 rfl
  · rename_i sub' heq
    have hreached := ChangeSub.reached_lead heq s.boundary answer
    have hsame := (ChangeSub.deferToWindow_kind heq).1
    split
    · rename_i htrue
      rw [if_pos htrue] at hreached
      refine ⟨{ h with }, id, hothers _,
        hsub (.inl ⟨?_, fun hfalse => nomatch hfalse.symm.trans (hsame.symm.trans htrue)⟩)⟩
      rw [hreached]
      exact hself _
    · rename_i hfalse
      rw [if_neg hfalse] at hreached
      have hopen : fan.failed = false := by
        refine Bool.eq_false_iff.2 fun hfailed => hvisit ⟨hfailed, ?_⟩
        exact hsame.symm.trans (Bool.eq_false_iff.2 hfalse)
      split
      · rename_i v hsnap
        obtain rfl := h.snap v hsnap
        refine ⟨{ h with }, id, hothers _, hsub (.inl ⟨?_, nofun⟩)⟩
        rw [hreached]
        exact hself _
      · rename_i hsnap
        have hasked := h.asks hsnap hopen
        split
        · rename_i v htaken
          obtain rfl : answer = some v := hasked.symm.trans htaken
          refine ⟨⟨fun _ => id, h.failed, nofun⟩, id, hothers _, hsub (.inl ⟨?_, nofun⟩)⟩
          rw [hreached]
          exact hself _
        · rename_i htaken
          obtain rfl : answer = none := hasked.symm.trans htaken
          refine ⟨⟨h.snap, fun _ => rfl, nofun⟩, fun _ => rfl, hothers _,
            hsub (.inl ⟨?_, fun _ _ => .inl rfl⟩)⟩
          rw [hreached]
          exact hself _

variable {sub : ChangeSub V} {k : Nat}

/-- A visit is not undone by the visits of others. -/
theorem VisitSpec.kept {fan' : FanOut V} {j : Nat} (h : s.VisitSpec ok answer fan fan' j)
    (hne : k ≠ j) (hvisited : s.Visited answer fan k sub) :
    s.Visited answer fan' k sub := by
  unfold Visited at hvisited ⊢
  rw [h.others k hne]
  rcases hvisited with ⟨hget, hput⟩ | ⟨hget, hticks, hanswer, hfailed⟩
  · exact .inl ⟨hget, fun hticks hnone => (hput hticks hnone).imp_left h.failed⟩
  · exact .inr ⟨hget, hticks, hanswer, h.failed hfailed⟩

/-- The fan-out comes to every subscription, whether or not the snapshot can be taken. -/
theorem foldl_visit_spec {ks : List Nat} (hnodup : ks.Nodup) (h : s.Answers ok answer fan) :
    s.Answers ok answer (ks.foldl (s.visit ok) fan) ∧
      (∀ k, k ∉ ks → (ks.foldl (s.visit ok) fan).subs[k]? = fan.subs[k]?) ∧
      ∀ k ∈ ks, ∀ sub, fan.subs[k]? = some sub →
        s.Visited answer (ks.foldl (s.visit ok) fan) k sub := by
  suffices hkept : s.Answers ok answer (ks.foldl (s.visit ok) fan) ∧
      (∀ k, k ∉ ks → (ks.foldl (s.visit ok) fan).subs[k]? = fan.subs[k]?) ∧
      (∀ k ∈ ks, ∀ sub, fan.subs[k]? = some sub →
        s.Visited answer (ks.foldl (s.visit ok) fan) k sub) ∧
      ∀ k, k ∉ ks → ∀ sub, s.Visited answer fan k sub →
        s.Visited answer (ks.foldl (s.visit ok) fan) k sub from ⟨hkept.1, hkept.2.1, hkept.2.2.1⟩
  induction ks generalizing fan with
  | nil => exact ⟨h, fun _ _ => rfl, nofun, fun _ _ _ hvisited => hvisited⟩
  | cons j ks ih =>
    obtain ⟨hnotin, hnodup⟩ := List.nodup_cons.1 hnodup
    have hspec := visit_spec h j
    obtain ⟨hanswers, hothers, hvisits, hkept⟩ := ih hnodup hspec.answers
    refine ⟨hanswers, fun k hk => ?_, fun k hk sub hget => ?_, fun k hk sub hvisited => ?_⟩
    · have hothers := hothers k (List.not_mem_of_not_mem_cons hk)
      exact hothers.trans (hspec.others k (List.ne_of_not_mem_cons hk))
    · rcases List.mem_cons.1 hk with rfl | hk
      · exact hkept k hnotin sub (hspec.visited sub hget)
      · have hne : k ≠ j := fun heq => hnotin (heq ▸ hk)
        exact hvisits k hk sub ((hspec.others k hne).trans hget)
    · exact hkept k (List.not_mem_of_not_mem_cons hk) sub
        (hspec.kept (List.ne_of_not_mem_cons hk) hvisited)

/-! ## The activation -/

/-- The subscriptions, and which of them are in the set. -/
structure Feeds (subs : List (ChangeSub V)) (live : List Nat) (tracking : Bool) : Prop where
  sound : ∀ (k : Nat) (sub : ChangeSub V), subs[k]? = some sub → sub.Sound
  nodup : live.Nodup
  undone : ∀ k ∈ live, ∃ sub : ChangeSub V, subs[k]? = some sub ∧ sub.done = false
  covers : ∀ (k : Nat) (sub : ChangeSub V), subs[k]? = some sub → sub.done = false → k ∈ live
  tracked : live ≠ [] → tracking = true

/-- A prepared snapshot is of the state, if it is of the version and nothing was written since. -/
def PreparedFresh (s : FeedActivation V) : Prop :=
  ∀ version snap, s.prepared = some (version, snap) → s.tracking = true ∧ version ≤ s.version ∧
    (version = s.version → s.dirty = true ∨ snap = s.state)

/-- What holds in every run. -/
structure Sound (s : FeedActivation V) : Prop where
  feeds : Feeds s.subs s.live s.tracking
  prepared : s.PreparedFresh

/-- Every feed is current. -/
def AllCurrent (s : FeedActivation V) : Prop :=
  ∀ (k : Nat) (sub : ChangeSub V), s.subs[k]? = some sub → sub.Current

/-- A step that is none of the feeds' business. -/
structure SameFeeds (s t : FeedActivation V) : Prop where
  subs : t.subs = s.subs
  live : t.live = s.live
  tracking : t.tracking = s.tracking

theorem SameFeeds.feeds (h : SameFeeds s t) (hfeeds : Feeds s.subs s.live s.tracking) :
    Feeds t.subs t.live t.tracking := by
  rw [h.subs, h.live, h.tracking]
  exact hfeeds

theorem SameFeeds.current (h : SameFeeds s t) (hcurrent : s.AllCurrent) : t.AllCurrent := by
  intro k sub hget
  rw [h.subs] at hget
  exact hcurrent k sub hget

theorem consumeDirty_same (s : FeedActivation V) : SameFeeds s s.consumeDirty := by
  unfold consumeDirty
  split <;> exact ⟨rfl, rfl, rfl⟩

theorem consumeDirty_clean (s : FeedActivation V) :
    s.consumeDirty.dirty = false ∧ s.consumeDirty.state = s.state ∧
      s.consumeDirty.rejected = s.rejected := by
  unfold consumeDirty
  split
  · exact ⟨rfl, rfl, rfl⟩
  · rename_i hclean
    exact ⟨Bool.eq_false_iff.2 hclean, rfl, rfl⟩

theorem PreparedFresh.consumeDirty (h : s.PreparedFresh) : s.consumeDirty.PreparedFresh := by
  unfold FeedActivation.consumeDirty
  split
  · intro version snap hprepared
    obtain ⟨htracking, hle, -⟩ := h version snap hprepared
    exact ⟨htracking, Nat.le_succ_of_le hle, fun heq => absurd (heq ▸ hle) (Nat.not_succ_le_self _)⟩
  · exact h

/-- A version is counted. -/
theorem PreparedFresh.bump (h : s.PreparedFresh) (ht : t.prepared = s.prepared)
    (htracking : t.tracking = s.tracking) (hversion : t.version = s.version + 1) :
    t.PreparedFresh := by
  intro version snap hprepared
  rw [ht] at hprepared
  obtain ⟨htrue, hle, -⟩ := h version snap hprepared
  rw [htracking, hversion]
  exact ⟨htrue, Nat.le_succ_of_le hle, fun heq => absurd (heq ▸ hle) (Nat.not_succ_le_self _)⟩

theorem PreparedFresh.write (h : s.PreparedFresh) (v : V) : (s.write v).PreparedFresh := by
  intro version snap hprepared
  obtain ⟨htracking, hle, -⟩ := h version snap hprepared
  refine ⟨htracking, hle, fun _ => .inl ?_⟩
  change (s.dirty || s.tracking) = true
  rw [htracking, Bool.or_true]

theorem reportFault_same (s : FeedActivation V) : SameFeeds s s.reportFault.1 ∧
    s.reportFault.1.prepared = s.prepared ∧ s.reportFault.1.version = s.version ∧
    s.reportFault.1.dirty = s.dirty ∧ s.reportFault.1.state = s.state := by
  unfold reportFault
  split <;> exact ⟨⟨rfl, rfl, rfl⟩, rfl, rfl, rfl, rfl⟩

theorem bookkeeping_same (s : FeedActivation V) (boundary : Bool) (depth : Nat) :
    SameFeeds s (s.bookkeeping boundary depth) ∧ (s.bookkeeping boundary depth).prepared = none ∧
      (s.bookkeeping boundary depth).rejected = s.rejected := by
  unfold bookkeeping reportFault
  dsimp only
  split
  · rename_i heq
    split at heq <;> cases heq
    exact ⟨⟨rfl, rfl, rfl⟩, rfl, rfl⟩
  · rename_i heq
    split at heq <;> cases heq
    split <;> exact ⟨⟨rfl, rfl, rfl⟩, rfl, rfl⟩

/-- The codec threw, where there is no snapshot. -/
theorem not_taken {prepared : Option (Nat × V)} (hnone : s.takeBoundarySnapshot prepared ok = none) :
    ok = false := by
  cases ok with
  | false => rfl
  | true =>
    unfold takeBoundarySnapshot at hnone
    split at hnone
    · split at hnone <;> cases hnone
    · cases hnone

/-- What the fan-out hands over is the state of the boundary. -/
theorem PreparedFresh.taken (h : s.PreparedFresh) (hclean : s.dirty = false) {v : V}
    (htaken : s.takeBoundarySnapshot s.prepared ok = some v) : v = s.state := by
  have hfresh : (if ok = true then some s.state else none) = some v → v = s.state := by
    intro heq
    obtain ⟨-, heq⟩ := guard_passed heq
    exact (Option.some.inj heq).symm
  unfold takeBoundarySnapshot at htaken
  split at htaken
  · rename_i version snap hprepared
    split at htaken
    · rename_i hversion
      obtain ⟨-, -, hsnap⟩ := h version snap hprepared
      rcases hsnap hversion with hdirty | rfl
      · exact nomatch hclean.symm.trans hdirty
      · exact (Option.some.inj htaken).symm
    · exact hfresh htaken
  · exact hfresh htaken

section

variable {subs : List (ChangeSub V)} {live : List Nat} {tracking : Bool} {k : Nat}
  {sub sub' : ChangeSub V}

section

variable (h : Feeds subs live tracking)
include h

/-- A subscription changes that stays in the set, or out of it. -/
theorem Feeds.set (hget : subs[k]? = some sub) (hsound : sub'.Sound)
    (hdone : sub'.done = sub.done) : Feeds (subs.set k sub') live tracking := by
  refine ⟨fun j other hj => ?_, h.nodup, fun j hj => ?_, fun j other hj hopen => ?_, h.tracked⟩
  · rcases of_set_get hj with ⟨rfl, rfl⟩ | ⟨-, hj⟩
    · exact hsound
    · exact h.sound j other hj
  · obtain ⟨other, hother, hopen⟩ := h.undone j hj
    rcases Decidable.em (j = k) with rfl | hne
    · rw [hget] at hother
      cases hother
      exact ⟨sub', List.getElem?_set_self (lt_of_get hget), hdone.trans hopen⟩
    · exact ⟨other, (List.getElem?_set_ne (Ne.symm hne)).trans hother, hopen⟩
  · rcases of_set_get hj with ⟨rfl, rfl⟩ | ⟨-, hj⟩
    · exact h.covers j sub hget (hdone.symm.trans hopen)
    · exact h.covers j other hj hopen

/-- A subscription ends. -/
theorem Feeds.leave (hget : subs[k]? = some sub) :
    Feeds (subs.set k sub.leave) (live.filter (· ≠ k)) tracking := by
  have hends : sub.leave.done = true := rfl
  refine ⟨fun j other hj => ?_, h.nodup.filter _, fun j hj => ?_, fun j other hj hopen => ?_,
    fun hne => h.tracked fun hnil => hne (by rw [hnil]; rfl)⟩
  · rcases of_set_get hj with ⟨rfl, rfl⟩ | ⟨-, hj⟩
    · exact (h.sound j sub hget).leave
    · exact h.sound j other hj
  · obtain ⟨hj, hne⟩ := List.mem_filter.1 hj
    obtain ⟨other, hother, hopen⟩ := h.undone j hj
    exact ⟨other, (List.getElem?_set_ne (Ne.symm (of_decide_eq_true hne))).trans hother, hopen⟩
  · rcases of_set_get hj with ⟨rfl, rfl⟩ | ⟨hne, hj⟩
    · exact nomatch hopen.symm.trans hends
    · exact List.mem_filter.2 ⟨h.covers j other hj hopen, decide_eq_true hne⟩

/-- A subscription comes. -/
theorem Feeds.push (hsound : sub.Sound) (hopen : sub.done = false) :
    Feeds (subs ++ [sub]) (live ++ [subs.length]) true := by
  refine ⟨fun j other hj => ?_, ?_, fun j hj => ?_, fun j other hj hother => ?_, fun _ => rfl⟩
  · rcases of_append_get hj with ⟨-, rfl⟩ | ⟨-, hj⟩
    · exact hsound
    · exact h.sound j other hj
  · refine List.nodup_append.2 ⟨h.nodup, List.pairwise_singleton _ _, fun j hj j' hj' heq => ?_⟩
    obtain ⟨other, hother, -⟩ := h.undone j hj
    rw [heq, List.mem_singleton.1 hj'] at hother
    exact Nat.lt_irrefl _ (lt_of_get hother)
  · rcases List.mem_append.1 hj with hj | hj
    · obtain ⟨other, hother, hopen⟩ := h.undone j hj
      exact ⟨other, append_get _ hother, hopen⟩
    · rw [List.mem_singleton.1 hj]
      exact ⟨sub, List.getElem?_concat_length, hopen⟩
  · rcases of_append_get hj with ⟨rfl, -⟩ | ⟨-, hj⟩
    · exact List.mem_append_right _ List.mem_cons_self
    · exact List.mem_append_left _ (h.covers j other hj hother)

/-- A subscription comes that is spent. -/
theorem Feeds.pushSpent (hsound : sub.Sound) (hdone : sub.done = true) :
    Feeds (subs ++ [sub]) live tracking := by
  refine ⟨fun j other hj => ?_, h.nodup, fun j hj => ?_, fun j other hj hother => ?_, h.tracked⟩
  · rcases of_append_get hj with ⟨-, rfl⟩ | ⟨-, hj⟩
    · exact hsound
    · exact h.sound j other hj
  · obtain ⟨other, hother, hopen⟩ := h.undone j hj
    exact ⟨other, append_get _ hother, hopen⟩
  · rcases of_append_get hj with ⟨-, rfl⟩ | ⟨-, hj⟩
    · exact nomatch hother.symm.trans hdone
    · exact h.covers j other hj hother

end

end

/-- A new subscription. -/
theorem new_sound {queue : List (Change V)} (hqueue : queue.length ≤ changeBuffer) (ended ticksOnly : Bool)
    (throttleMs : Rat) :
    ({ queue := queue, done := ended, ticksOnly := ticksOnly, throttleMs := throttleMs } :
      ChangeSub V).Sound :=
  ⟨hqueue, nofun, nofun, nofun, nofun, fun _ => rfl, nofun⟩

theorem Feeds.closeSubs (h : Feeds s.subs s.live s.tracking) (subs failing : List Nat) :
    Feeds (s.closeSubs subs failing).subs (s.closeSubs subs failing).live s.tracking := by
  have hget : ∀ (j : Nat) (other : ChangeSub V), (s.closeSubs subs failing).subs[j]? = some other →
      ∃ sub, s.subs[j]? = some sub ∧ (j ∈ subs ∧ other =
        sub.close s.boundary s.state (decide (j ∉ failing)) ∨ j ∉ subs ∧ other = sub) := by
    intro j other hj
    unfold FeedActivation.closeSubs at hj
    rw [List.getElem?_mapIdx] at hj
    obtain ⟨sub, hsub, heq⟩ := Option.map_eq_some_iff.1 hj
    refine ⟨sub, hsub, ?_⟩
    split at heq
    · rename_i hin
      exact .inl ⟨hin, heq.symm⟩
    · rename_i hnotin
      exact .inr ⟨hnotin, heq.symm⟩
  have hends : ∀ (sub : ChangeSub V) (ok : Bool), (sub.close s.boundary s.state ok).done = true :=
    fun _ _ => rfl
  refine ⟨fun j other hj => ?_, h.nodup.filter _, fun j hj => ?_, fun j other hj hopen => ?_,
    fun hne => h.tracked fun hnil => hne ?_⟩
  · obtain ⟨sub, hsub, ⟨-, rfl⟩ | ⟨-, rfl⟩⟩ := hget j other hj
    · exact (h.sound j sub hsub).close _
    · exact h.sound j _ hsub
  · obtain ⟨hj, hnotin⟩ := List.mem_filter.1 hj
    obtain ⟨sub, hsub, hopen⟩ := h.undone j hj
    refine ⟨sub, ?_, hopen⟩
    unfold FeedActivation.closeSubs
    rw [List.getElem?_mapIdx, hsub, Option.map_some, if_neg (of_decide_eq_true hnotin)]
  · obtain ⟨sub, hsub, ⟨-, rfl⟩ | ⟨hnotin, rfl⟩⟩ := hget j other hj
    · exact nomatch hopen.symm.trans (hends sub _)
    · exact List.mem_filter.2 ⟨h.covers j _ hsub hopen, decide_eq_true hnotin⟩
  · unfold FeedActivation.closeSubs
    rw [hnil]
    rfl

/-! ### The boundary of a turn -/

/-- What a boundary comes to for a subscription. -/
theorem fanOut_get (h : Feeds s.subs s.live s.tracking) (ok : Bool)
    (hget : (s.fanOut ok).subs[k]? = some sub') : ∃ sub, s.subs[k]? = some sub ∧ (sub' = sub ∨
      sub.done = false ∧
        sub' = sub.reached s.boundary (s.takeBoundarySnapshot s.prepared ok)) := by
  have hanswers : s.Answers ok (s.takeBoundarySnapshot s.prepared ok)
      { subs := s.subs, prepared := s.prepared } := ⟨nofun, nofun, fun _ _ => rfl⟩
  obtain ⟨-, hothers, hvisits⟩ := foldl_visit_spec h.nodup hanswers
  change (s.live.foldl (s.visit ok) { subs := s.subs, prepared := s.prepared }).subs[k]? = _ at hget
  rcases Decidable.em (k ∈ s.live) with hin | hnotin
  · obtain ⟨sub, hsub, hopen⟩ := h.undone k hin
    refine ⟨sub, hsub, ?_⟩
    rcases hvisits k hin sub hsub with ⟨hvisited, -⟩ | ⟨hskipped, -⟩
    · rw [hget] at hvisited
      exact .inr ⟨hopen, Option.some.inj hvisited⟩
    · rw [hget] at hskipped
      exact .inl (Option.some.inj hskipped)
  · rw [hothers k hnotin] at hget
    exact ⟨sub', hget, .inl rfl⟩

/-- A boundary reaches every subscriber, but for those whose snapshot could not be taken; and then
the turn is made to reject. -/
theorem fanOut_gets (h : Feeds s.subs s.live s.tracking) (ok : Bool)
    (hget : s.subs[k]? = some sub) (hopen : sub.done = false) :
    ∃ sub', (s.fanOut ok).subs[k]? = some sub' ∧
      (sub'.pending = true ∧ sub'.cancelWindow.isSome = true ∨
        sub'.owed = false ∧ (sub.ticksOnly = true ∧ sub'.queue.getLast? = some .tick ∨
          ∃ v, sub.ticksOnly = false ∧ s.takeBoundarySnapshot s.prepared ok = some v ∧
            sub'.queue.getLast? = some (.snapshot v)) ∨
        sub.ticksOnly = false ∧ s.takeBoundarySnapshot s.prepared ok = none ∧
          (s.fanOut ok).rejected = s.rejected + 1) := by
  have hanswers : s.Answers ok (s.takeBoundarySnapshot s.prepared ok)
      { subs := s.subs, prepared := s.prepared } := ⟨nofun, nofun, fun _ _ => rfl⟩
  obtain ⟨-, -, hvisits⟩ := foldl_visit_spec h.nodup hanswers
  have hrejected : ∀ hfailed : (s.live.foldl (s.visit ok)
      { subs := s.subs, prepared := s.prepared }).failed = true,
      (s.fanOut ok).rejected = s.rejected + 1 := by
    intro hfailed
    unfold fanOut
    dsimp only
    rw [if_pos hfailed]
  have hsound := h.sound k sub hget
  rcases hvisits k (h.covers k sub hget hopen) sub hget with
    ⟨hvisited, hput⟩ | ⟨hskipped, hticks, hnone, hfailed⟩
  · refine ⟨_, hvisited, ?_⟩
    rcases ChangeSub.reached_gets hsound s.boundary (s.takeBoundarySnapshot s.prepared ok) with
      hpending | hdelivered | ⟨hticks, hnone⟩
    · exact .inl hpending
    · exact .inr (.inl hdelivered)
    · rcases hput hticks hnone with hfailed | hpending
      · exact .inr (.inr ⟨hticks, hnone, hrejected hfailed⟩)
      · exact .inl ⟨hpending, (hsound.reached hopen _ _).pending hpending⟩
  · exact ⟨sub, hskipped, .inr (.inr ⟨hticks, hnone, hrejected hfailed⟩)⟩

theorem Feeds.fanOut (h : Feeds s.subs s.live s.tracking) (ok : Bool) :
    Feeds (s.fanOut ok).subs s.live s.tracking := by
  refine ⟨fun k sub' hget => ?_, h.nodup, fun k hk => ?_, fun k sub' hget hopen => ?_, h.tracked⟩
  · obtain ⟨sub, hsub, rfl | ⟨hopen, rfl⟩⟩ := fanOut_get h ok hget
    · exact h.sound k _ hsub
    · exact (h.sound k sub hsub).reached hopen _ _
  · obtain ⟨sub, hsub, hopen⟩ := h.undone k hk
    obtain ⟨sub', hget, -⟩ := fanOut_gets h ok hsub hopen
    obtain ⟨sub₀, hsub₀, rfl | ⟨-, rfl⟩⟩ := fanOut_get h ok hget
    · rw [hsub] at hsub₀
      cases hsub₀
      exact ⟨_, hget, hopen⟩
    · rw [hsub] at hsub₀
      cases hsub₀
      exact ⟨_, hget, (ChangeSub.reached_done sub _ _).1.trans hopen⟩
  · obtain ⟨sub, hsub, rfl | ⟨hundone, -⟩⟩ := fanOut_get h ok hget
    · exact h.covers k _ hsub hopen
    · exact h.covers k sub hsub hundone

theorem AllCurrent.fanOut (h : s.AllCurrent) (hfeeds : Feeds s.subs s.live s.tracking)
    (hprepared : s.PreparedFresh) (hclean : s.dirty = false) (hboundary : s.boundary = s.state)
    (ok : Bool) : (s.fanOut ok).AllCurrent := by
  intro k sub' hget
  obtain ⟨sub, hsub, rfl | ⟨hopen, rfl⟩⟩ := fanOut_get hfeeds ok hget
  · exact h k _ hsub
  refine (h k sub hsub).reached (hfeeds.sound k sub hsub) hopen fun v htaken => ?_
  rw [hboundary]
  exact hprepared.taken hclean htaken

/-- The activation as `#afterTurn` finds it, its writes folded. -/
def folded (s : FeedActivation V) (activeMs : Nat) : FeedActivation V :=
  consumeDirty { s with lastActivityMs := max s.lastActivityMs activeMs }

/-- The same, with the boundary consumed. -/
def consumed (s : FeedActivation V) (activeMs : Nat) : FeedActivation V :=
  { s.folded activeMs with
    notified := (s.folded activeMs).version, boundary := (s.folded activeMs).state }

theorem afterTurn_eq (s : FeedActivation V) (activeMs depth : Nat) (ok : Bool) :
    s.afterTurn activeMs depth ok =
      if (s.folded activeMs).atBoundary then
        ((s.consumed activeMs).fanOut ok).bookkeeping true depth
      else (s.folded activeMs).bookkeeping false depth := rfl

theorem Sound.folded (h : s.Sound) (activeMs : Nat) : (s.folded activeMs).Sound := by
  have hprepared : PreparedFresh { s with lastActivityMs := max s.lastActivityMs activeMs } :=
    h.prepared
  exact ⟨(consumeDirty_same _).feeds h.feeds, hprepared.consumeDirty⟩

theorem Sound.afterTurn (h : s.Sound) (activeMs depth : Nat) (ok : Bool) :
    (s.afterTurn activeMs depth ok).Sound := by
  have hfolded := h.folded activeMs
  rw [afterTurn_eq]
  split
  · obtain ⟨hsame, hnone, -⟩ := bookkeeping_same ((s.consumed activeMs).fanOut ok) true depth
    have hfeeds : Feeds (s.consumed activeMs).subs (s.consumed activeMs).live
        (s.consumed activeMs).tracking := hfolded.feeds
    exact ⟨hsame.feeds (hfeeds.fanOut ok), fun _ _ hprepared => nomatch hnone.symm.trans hprepared⟩
  · obtain ⟨hsame, hnone, -⟩ := bookkeeping_same (s.folded activeMs) false depth
    exact ⟨hsame.feeds hfolded.feeds, fun _ _ hprepared => nomatch hnone.symm.trans hprepared⟩

theorem AllCurrent.afterTurn (h : s.AllCurrent) (hsound : s.Sound) (activeMs depth : Nat) (ok : Bool) :
    (s.afterTurn activeMs depth ok).AllCurrent := by
  have hfolded := hsound.folded activeMs
  have hcurrent : (s.folded activeMs).AllCurrent := (consumeDirty_same _).current h
  rw [afterTurn_eq]
  split
  · refine (bookkeeping_same _ true depth).1.current ?_
    exact AllCurrent.fanOut (s := s.consumed activeMs) hcurrent hfolded.feeds hfolded.prepared
      (consumeDirty_clean _).1 rfl ok
  · exact (bookkeeping_same _ false depth).1.current hcurrent

/-! ### The steps -/

theorem Sound.openChanges (h : s.Sound) (options : ChangesOptions) (spent ok : Bool) :
    (s.openChanges options spent ok).Sound := by
  have htracked : PreparedFresh { s with tracking := true } := fun version snap hprepared =>
    ⟨rfl, (h.prepared version snap hprepared).2⟩
  have hopened : ∀ (queue : List (Change V)) (throttleMs : Rat), queue.length ≤ changeBuffer →
      Sound { s with
        tracking := true
        subs := s.subs ++ [{ queue := queue, ticksOnly := options.ticksOnly, throttleMs := throttleMs }]
        live := s.live ++ [s.subs.length] } := fun queue throttleMs hqueue =>
    ⟨h.feeds.push (new_sound hqueue false options.ticksOnly throttleMs) rfl, htracked⟩
  unfold FeedActivation.openChanges
  split
  · exact h
  rename_i throttleMs hthrottle
  split
  · exact ⟨h.feeds.pushSpent (new_sound (Nat.zero_le _) true options.ticksOnly throttleMs) rfl,
      h.prepared⟩
  split
  · split
    · exact hopened _ throttleMs (Nat.succ_le_succ (Nat.zero_le 15))
    split
    · exact hopened _ throttleMs (Nat.succ_le_succ (Nat.zero_le 15))
    · exact ⟨{ h.feeds with tracked := fun _ => rfl },
        htracked⟩
  · exact hopened _ throttleMs (Nat.zero_le _)

theorem AllCurrent.openChanges (h : s.AllCurrent) (options : ChangesOptions) (spent ok : Bool) :
    (s.openChanges options spent ok).AllCurrent := by
  have hpush : ∀ sub : ChangeSub V, sub.Current → ∀ (k : Nat) (sub' : ChangeSub V),
      (s.subs ++ [sub])[k]? = some sub' → sub'.Current := by
    intro sub hsub k sub' hget
    rcases of_append_get hget with ⟨-, rfl⟩ | ⟨-, hget⟩
    · exact hsub
    · exact h k sub' hget
  unfold FeedActivation.openChanges
  split
  · exact h
  split
  · exact hpush _ ⟨nofun, nofun⟩
  split
  · split
    · exact hpush _ ⟨nofun, nofun⟩
    split
    · exact hpush _ ⟨nofun, nofun⟩
    · exact h
  · exact hpush _ ⟨nofun, nofun⟩

theorem AllCurrent.set (h : s.AllCurrent) (hsub : sub.Current) :
    (s.setSub k sub).AllCurrent := by
  intro j other hget
  rcases of_set_get hget with ⟨-, rfl⟩ | ⟨-, hget⟩
  · exact hsub
  · exact h j other hget

theorem AllCurrent.closeSubs (h : s.AllCurrent) {subs failing : List Nat}
    (hsettled : ∀ k ∈ subs, ∀ sub, s.subs[k]? = some sub → sub.pending = true → sub.done = false →
      sub.ticksOnly = false → k ∈ failing ∨ s.state = s.boundary) :
    (s.closeSubs subs failing).AllCurrent := by
  intro k sub' hget
  unfold FeedActivation.closeSubs at hget
  rw [List.getElem?_mapIdx] at hget
  obtain ⟨sub, hsub, rfl⟩ := Option.map_eq_some_iff.1 hget
  split
  · rename_i hin
    refine (h k sub hsub).close fun hpending hdone hticks => ?_
    exact (hsettled k hin sub hsub hpending hdone hticks).imp_left
      fun hfails => decide_eq_false (not_not_intro hfails)
  · exact h k sub hsub

/-- Writes, saves and the like leave the feeds alone, and a prepared snapshot is none that is stale. -/
theorem Sound.of_same (h : s.Sound) (hsame : SameFeeds s t) (hprepared : t.PreparedFresh) : t.Sound :=
  ⟨hsame.feeds h.feeds, hprepared⟩

theorem Sound.encode (h : s.Sound) {saving : Option Nat} : Sound { s with
    saving := saving
    prepared := if s.wantsSnapshotAt s.version then some (s.version, s.state) else s.prepared } := by
  refine h.of_same ⟨rfl, rfl, rfl⟩ fun version snap hprepared => ?_
  split at hprepared
  · rename_i hwants
    cases hprepared
    refine ⟨h.feeds.tracked fun hnil => ?_, Nat.le_refl _, fun _ => .inr rfl⟩
    unfold wantsSnapshotAt at hwants
    rw [hnil] at hwants
    exact absurd (Bool.and_eq_true_iff.1 hwants).2 Bool.false_ne_true
  · exact h.prepared version snap hprepared

theorem Sound.reportFault (h : s.Sound) : s.reportFault.1.Sound := by
  obtain ⟨hsame, hprepared, hversion, hdirty, hstate⟩ := reportFault_same s
  refine h.of_same hsame fun version snap hsome => ?_
  rw [hprepared] at hsome
  rw [hsame.tracking, hversion, hdirty, hstate]
  exact h.prepared version snap hsome

/-- What is put off for a value subscriber is handed over only while the state is that of the last
boundary, and a window that closes can take its snapshot. -/
def settled [DecidableEq V] (s : FeedActivation V) : Label V → Bool
  | .windowFires k _ ok =>
      match s.subs[k]? with
      | some sub =>
          !(sub.pending && !sub.done && !sub.ticksOnly) || ok && decide (s.state = s.boundary)
      | none => true
  | .closeSubs subs failing =>
      subs.all fun k => match s.subs[k]? with
        | some sub =>
            !(sub.pending && !sub.done && !sub.ticksOnly) ||
              (decide (k ∈ failing) || decide (s.state = s.boundary))
        | none => true
  | _ => true

section

variable [DecidableEq V]

theorem settled_fires {w : Nat} (h : s.settled (.windowFires k w ok) = true)
    (hget : s.subs[k]? = some sub) (hpending : sub.pending = true) (hdone : sub.done = false)
    (hticks : sub.ticksOnly = false) : ok = true ∧ s.state = s.boundary := by
  unfold settled at h
  dsimp only at h
  rw [hget] at h
  dsimp only at h
  rw [hpending, hdone, hticks] at h
  have hboth : (ok && decide (s.state = s.boundary)) = true := h
  exact (Bool.and_eq_true_iff.1 hboth).imp_right of_decide_eq_true

theorem settled_closes {subs failing : List Nat} (h : s.settled (.closeSubs subs failing) = true)
    (hk : k ∈ subs) (hget : s.subs[k]? = some sub)
    (hpending : sub.pending = true) (hdone : sub.done = false) (hticks : sub.ticksOnly = false) :
    k ∈ failing ∨ s.state = s.boundary := by
  have hk := List.all_eq_true.1 h k hk
  rw [hget] at hk
  dsimp only at hk
  rw [hpending, hdone, hticks] at hk
  have heither : (decide (k ∈ failing) || decide (s.state = s.boundary)) = true := hk
  exact (Bool.or_eq_true_iff.1 heither).imp of_decide_eq_true of_decide_eq_true

/-- What a step keeps. -/
theorem Sound.step (h : s.Sound) {l : Label V} (hstep : s.step l = some t) :
    t.Sound ∧ (s.AllCurrent → s.settled l = true → t.AllCurrent) := by
  cases l with unfold FeedActivation.step at hstep
  | write v =>
    cases hstep
    exact ⟨h.of_same ⟨rfl, rfl, rfl⟩ (h.prepared.write v), fun hcurrent _ => hcurrent⟩
  | save =>
    cases hstep
    have hsame : SameFeeds s { s.consumeDirty with version := s.consumeDirty.version + 1 } :=
      { (consumeDirty_same s) with }
    exact ⟨h.of_same hsame (h.prepared.consumeDirty.bump rfl rfl rfl),
      fun hcurrent _ => hsame.current hcurrent⟩
  | saveEventually =>
    cases hstep
    have hsame : SameFeeds s
        { s.consumeDirty with version := s.consumeDirty.version + 1, flush := true } :=
      { (consumeDirty_same s) with }
    exact ⟨h.of_same hsame (h.prepared.consumeDirty.bump rfl rfl rfl),
      fun hcurrent _ => hsame.current hcurrent⟩
  | encode =>
    obtain ⟨_, rfl⟩ := guard_past_taken hstep
    exact ⟨h.encode, fun hcurrent _ => hcurrent⟩
  | stored answer =>
    dsimp only at hstep
    split at hstep
    · cases hstep
    split at hstep
    · cases hstep
      exact ⟨h.of_same ⟨rfl, rfl, rfl⟩ h.prepared, fun hcurrent _ => hcurrent⟩
    · split at hstep <;> cases hstep <;>
        exact ⟨h.of_same ⟨rfl, rfl, rfl⟩ h.prepared, fun hcurrent _ => hcurrent⟩
    · cases hstep
      exact ⟨h.of_same ⟨rfl, rfl, rfl⟩ h.prepared, fun hcurrent _ => hcurrent⟩
  | reload =>
    obtain ⟨_, rfl⟩ := guard_taken hstep
    exact ⟨h.of_same ⟨rfl, rfl, rfl⟩ h.prepared, fun hcurrent _ => hcurrent⟩
  | reloaded fresh =>
    dsimp only at hstep
    split at hstep
    · split at hstep
      · rename_i v
        cases hstep
        have hwrite : Sound ({ s with reloading := false } : FeedActivation V) :=
          h.of_same ⟨rfl, rfl, rfl⟩ h.prepared
        have hsame := consumeDirty_same (({ s with reloading := false } : FeedActivation V).write v)
        have hprepared := (hwrite.prepared.write v).consumeDirty
        exact ⟨⟨hsame.feeds h.feeds, hprepared.bump rfl rfl rfl⟩,
          fun hcurrent _ => hsame.current hcurrent⟩
      · cases hstep
        have hfault : Sound ({ s with reloading := false, faulted := true } : FeedActivation V) :=
          h.of_same ⟨rfl, rfl, rfl⟩ h.prepared
        exact ⟨hfault.reportFault, fun hcurrent _ => (reportFault_same _).1.current hcurrent⟩
    · cases hstep
  | flushDue | requestDeactivate =>
    cases hstep
    exact ⟨h.of_same ⟨rfl, rfl, rfl⟩ h.prepared, fun hcurrent _ => hcurrent⟩
  | flushFails =>
    cases hstep
    have hfault : Sound ({ s with
        faulted := s.faulted || s.reloadPending, reloadPending := false } : FeedActivation V) :=
      h.of_same ⟨rfl, rfl, rfl⟩ h.prepared
    exact ⟨hfault.reportFault, fun hcurrent _ => (reportFault_same _).1.current hcurrent⟩
  | afterTurn activeMs depth ok =>
    cases hstep
    exact ⟨h.afterTurn activeMs depth ok, fun hcurrent _ => hcurrent.afterTurn h activeMs depth ok⟩
  | openChanges options spent ok =>
    cases hstep
    exact ⟨h.openChanges options spent ok, fun hcurrent _ => hcurrent.openChanges options spent ok⟩
  | next k | resume k =>
    dsimp only at hstep
    split at hstep
    · rename_i sub hget
      obtain ⟨_, rfl⟩ := guard_taken hstep
      exact ⟨⟨h.feeds.set hget (h.feeds.sound k sub hget).next sub.next_done, h.prepared⟩,
        fun hcurrent _ => hcurrent.set (hcurrent k sub hget).next⟩
    · cases hstep
  | leave k =>
    dsimp only at hstep
    split at hstep
    · rename_i sub hget
      cases hstep
      exact ⟨⟨h.feeds.leave hget, h.prepared⟩,
        fun hcurrent _ => hcurrent.set (hcurrent k sub hget).leave⟩
    · cases hstep
  | windowFires k w ok =>
    dsimp only at hstep
    split at hstep
    · rename_i sub hget
      obtain ⟨harmed, rfl⟩ := guard_taken hstep
      exact ⟨⟨h.feeds.set hget ((h.feeds.sound k sub hget).windowFires ok harmed)
        (sub.windowFires_done _ _ w ok), h.prepared⟩, fun hcurrent hsettled =>
          hcurrent.set ((hcurrent k sub hget).windowFires (settled_fires hsettled hget))⟩
    · cases hstep
  | closeSubs subs failing =>
    cases hstep
    exact ⟨⟨h.feeds.closeSubs subs failing, h.prepared⟩, fun hcurrent hsettled =>
      hcurrent.closeSubs fun k hk sub hget => settled_closes hsettled hk hget⟩

end

/-- Whatever becomes of the snapshot, the bookkeeping of a boundary is the same. -/
theorem afterTurn_bookkeeping (s : FeedActivation V) (activeMs depth : Nat) (ok : Bool) :
    ({ s.afterTurn activeMs depth ok with subs := [], rejected := 0 } : FeedActivation V) =
      { s.afterTurn activeMs depth true with subs := [], rejected := 0 } := by
  have herase : ∀ u : FeedActivation V,
      ({ u.bookkeeping true depth with subs := [], rejected := 0 } : FeedActivation V) =
        bookkeeping { u with subs := [], rejected := 0, prepared := none } true depth := by
    intro u
    unfold bookkeeping reportFault
    dsimp only
    by_cases hfault : u.faulted = false ∨ u.faultReported = true
    · rw [if_pos hfault, if_pos hfault]
      dsimp only
      by_cases hidle : u.deactivateRequested = true ∧ depth ≤ 1 ∧ u.faulted = false
      · rw [if_pos hidle, if_pos hidle]
      · rw [if_neg hidle, if_neg hidle]
    · rw [if_neg hfault, if_neg hfault]
  rw [afterTurn_eq, afterTurn_eq]
  split
  · rw [herase, herase]
    rfl
  · rfl

section

variable [DecidableEq V]

/-- What holds of the feeds in the runs that put off nothing but settled states. -/
theorem change_feed_ends_current (h : (changeFeeds V).Reach (fun s l => s.settled l = true) s) :
    (∀ (k : Nat) (sub : ChangeSub V), s.subs[k]? = some sub →
      sub.queue.length ≤ changeBuffer ∧
      -- what is pulled last is the state of the boundary that was delivered last
      (sub.ticksOnly = false → ∀ v, sub.last = some v →
        (sub.pulled ++ sub.queue).getLast? = some (.snapshot v)) ∧
      -- what is owed is pending, and what is pending has an open window
      (sub.owed = true → sub.done = true ∨ sub.pending = true) ∧
      (sub.pending = true → ∃ w, sub.cancelWindow = some w ∧ sub.windows[w]? = some true) ∧
      -- a consumer that pulls is handed what is queued
      ∀ value queue, sub.queue = value :: queue → ∃ l, (l = .next k ∨ l = .resume k) ∧
        s.step l = some (s.setSub k
          { sub with queue := queue, pull := .idle, pulled := sub.pulled ++ [value] })) ∧
    ∀ (l : Label V) (t : FeedActivation V), s.settled l = true → s.step l = some t →
      -- a trailing emit is of the state as it is
      (∀ (k w : Nat) (ok : Bool) (sub : ChangeSub V), l = .windowFires k w ok →
        s.subs[k]? = some sub → sub.pending = true → sub.done = false →
        ∃ sub', t.subs[k]? = some sub' ∧ sub'.queue.getLast? =
            some (if sub.ticksOnly then .tick else .snapshot s.state) ∧
          sub'.owed = false ∧ sub'.cancelWindow.isSome = true) ∧
      ∀ (activeMs depth : Nat) (ok : Bool), l = .afterTurn activeMs depth ok →
        -- every subscriber is reached, but for the value ones where the codec throws
        ((s.folded activeMs).atBoundary = true → ∀ (k : Nat) (sub : ChangeSub V),
          s.subs[k]? = some sub → sub.done = false → ∃ sub', t.subs[k]? = some sub' ∧
            (sub'.pending = true ∧ sub'.cancelWindow.isSome = true ∨
              sub'.owed = false ∧ sub'.queue.getLast? =
                some (if sub.ticksOnly then .tick else .snapshot s.state) ∨
              sub.ticksOnly = false ∧ ok = false ∧ t.rejected = s.rejected + 1)) ∧
        -- and the rest is done as if it did not throw
        t.prepared = none ∧
        ({ t with subs := [], rejected := 0 } : FeedActivation V) =
          { s.afterTurn activeMs depth true with subs := [], rejected := 0 } := by
  have hkept : s.Sound ∧ s.AllCurrent := by
    refine h.invariant (I := fun s => s.Sound ∧ s.AllCurrent) (fun u hinit => ?_)
      fun u l u' hu hok hstep => ⟨(hu.1.step hstep).1, (hu.1.step hstep).2 hu.2 hok⟩
    obtain ⟨v, retryQueued, writeBehind, tracking, rfl⟩ := hinit
    exact ⟨⟨⟨nofun, List.nodup_nil, nofun, nofun, fun hne => absurd rfl hne⟩, nofun⟩, nofun⟩
  obtain ⟨hsound, hcurrent⟩ := hkept
  refine ⟨fun k sub hget => ?_, fun l t hsettled hstep => ⟨?_, ?_⟩⟩
  · have hsub := hsound.feeds.sound k sub hget
    have hnow := hcurrent k sub hget
    refine ⟨hsub.bounded, hnow.newest, hnow.owed, fun hpending => ?_, fun value queue hqueue => ?_⟩
    · obtain ⟨w, hw⟩ := Option.isSome_iff_exists.1 (hsub.pending hpending)
      exact ⟨w, hw, hsub.window w hw⟩
    · have hnext : sub.next =
          { sub with queue := queue, pull := .idle, pulled := sub.pulled ++ [value] } := by
        unfold ChangeSub.next
        rw [hqueue]
      cases hpull : sub.pull with
      | idle =>
        refine ⟨.next k, .inl rfl, ?_⟩
        unfold FeedActivation.step
        dsimp only
        rw [hget]
        dsimp only
        rw [if_pos (.inl hpull), hnext]
      | ended =>
        refine ⟨.next k, .inl rfl, ?_⟩
        unfold FeedActivation.step
        dsimp only
        rw [hget]
        dsimp only
        rw [if_pos (.inr hpull), hnext]
      | woken =>
        refine ⟨.resume k, .inr rfl, ?_⟩
        unfold FeedActivation.step
        dsimp only
        rw [hget]
        dsimp only
        rw [if_pos hpull, hnext]
      | parked => exact nomatch hqueue.symm.trans (hsub.parked hpull).1
  · rintro k w ok sub rfl hget hpending hdone
    unfold FeedActivation.step at hstep
    dsimp only at hstep
    rw [hget] at hstep
    obtain ⟨-, rfl⟩ := guard_taken hstep
    refine ⟨_, List.getElem?_set_self (lt_of_get hget),
      ChangeSub.windowFires_emits s.boundary s.state w hpending hdone fun hticks => ?_⟩
    exact (settled_fires hsettled hget hpending hdone hticks).1
  · rintro activeMs depth ok rfl
    cases hstep
    refine ⟨fun hat k sub hget hdone => ?_, ?_, afterTurn_bookkeeping s activeMs depth ok⟩
    · have hfolded := hsound.folded activeMs
      obtain ⟨hclean, hstate, hrejected₀⟩ :=
        consumeDirty_clean { s with lastActivityMs := max s.lastActivityMs activeMs }
      have hsame := consumeDirty_same { s with lastActivityMs := max s.lastActivityMs activeMs }
      have hfeeds : Feeds (s.consumed activeMs).subs (s.consumed activeMs).live
          (s.consumed activeMs).tracking := hfolded.feeds
      have hget' : (s.consumed activeMs).subs[k]? = some sub := hsame.subs ▸ hget
      obtain ⟨sub', hsub', hcases⟩ := fanOut_gets hfeeds ok hget' hdone
      rw [afterTurn_eq, if_pos hat]
      obtain ⟨hbook, -, hrejected⟩ := bookkeeping_same ((s.consumed activeMs).fanOut ok) true depth
      rw [hbook.subs, hrejected]
      refine ⟨sub', hsub', hcases.imp_right fun hcases => ?_⟩
      rcases hcases with ⟨howed, hlast⟩ | ⟨hticks, hnone, hthrew⟩
      · refine .inl ⟨howed, ?_⟩
        rcases hlast with ⟨hticks, hlast⟩ | ⟨v, hticks, htaken, hlast⟩
        · rw [hticks]
          exact hlast
        · have hstate' : v = s.state := (hfolded.prepared.taken hclean htaken).trans hstate
          rw [hticks, ← hstate']
          exact hlast
      · exact .inr ⟨hticks, not_taken hnone, hthrew.trans (congrArg (· + 1) hrejected₀)⟩
    · rw [afterTurn_eq]
      split
      · exact (bookkeeping_same _ true depth).2.1
      · exact (bookkeeping_same _ false depth).2.1

end

/-- A throttled subscriber gets the second of two boundaries when its window closes. -/
def trailingRun : List (Label Nat) :=
  [.openChanges { throttleMs := .finite 10 } false true, .write 1, .afterTurn 0 1 true, .write 2,
    .afterTurn 0 1 true, .windowFires 0 0 true, .next 0, .next 0]

def trailingEnd : FeedActivation Nat :=
  ((changeFeeds Nat).exec (fun s l => s.settled l = true) { state := 0, boundary := 0 }
    trailingRun).get (by decide)

theorem change_feed_ends_current_trailing :
    (trailingEnd.subs.map fun sub => (sub.last, sub.pulled)) =
        [(some 2, [.snapshot 1, .snapshot 2])] ∧
      ∀ (k : Nat) (sub : ChangeSub Nat), trailingEnd.subs[k]? = some sub →
        sub.queue.length ≤ changeBuffer := by
  have hstart : (changeFeeds Nat).Reach (fun s l => s.settled l = true) { state := 0, boundary := 0 } :=
    .start ⟨0, false, false, false, rfl⟩
  exact ⟨by decide, fun k sub hget =>
    ((change_feed_ends_current (hstart.exec_get trailingRun (by decide))).1 k sub hget).1⟩

/-- The third write is lost to a conflict, so that no boundary has it; the window closes before the
reload. -/
def losingRun : List (Label Nat) :=
  [.openChanges { throttleMs := .finite 10 } false true, .write 1, .afterTurn 0 1 true, .next 0,
    .write 2, .afterTurn 0 1 true, .write 3, .save, .encode, .stored .conflict, .afterTurn 0 1 true,
    .windowFires 0 0 true, .next 0]

def losingEnd : FeedActivation Nat :=
  ((changeFeeds Nat).exec (fun _ _ => True) { state := 0, retryQueued := true, boundary := 0 }
    losingRun).get (by decide)

/-- The codec throws when the window closes. -/
def forgottenRun : List (Label Nat) :=
  [.openChanges { throttleMs := .finite 10 } false true, .write 1, .afterTurn 0 1 true, .next 0,
    .write 2, .afterTurn 0 1 true, .windowFires 0 0 false]

def forgottenEnd : FeedActivation Nat :=
  ((changeFeeds Nat).exec (fun _ _ => True) { state := 0, boundary := 0 } forgottenRun).get (by decide)

theorem not_change_feed_ends_current :
    (∃ s : FeedActivation Nat, (changeFeeds Nat).Reachable s ∧ ∃ sub v, s.subs[0]? = some sub ∧
      sub.ticksOnly = false ∧ sub.queue = [] ∧ sub.last = some v ∧
        sub.pulled.getLast? ≠ some (.snapshot v)) ∧
    ∃ s : FeedActivation Nat, (changeFeeds Nat).Reachable s ∧ ∃ sub, s.subs[0]? = some sub ∧
      sub.owed = true ∧ sub.done = false ∧ sub.pending = false := by
  have hlosing : (changeFeeds Nat).Reachable { state := 0, retryQueued := true, boundary := 0 } :=
    .start ⟨0, true, false, false, rfl⟩
  have hforgotten : (changeFeeds Nat).Reachable { state := 0, boundary := 0 } :=
    .start ⟨0, false, false, false, rfl⟩
  refine ⟨⟨losingEnd, hlosing.exec_get losingRun (by decide), losingEnd.subs.get ⟨0, by decide⟩, 2,
    by decide, by decide, by decide, by decide, by decide⟩,
    forgottenEnd, hforgotten.exec_get forgottenRun (by decide), forgottenEnd.subs.get ⟨0, by decide⟩,
    by decide, by decide, by decide, by decide⟩

end FeedActivation

end SigxActors.Host
