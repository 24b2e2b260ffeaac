/-
  Client/SocketCalls.lean --- what is known of a call, whatever comes between.

  A call that is pending is in `inFlight`, under an id that no other has had; a stream may
  also have been told of its end, and wait to be pulled.  What is in `inFlight` and has been
  posted was posted on the link that is open: a link that goes takes the table with it.
-/
import SigxActors.Client.SocketDials

set_option autoImplicit false

namespace SigxActors.Client

open SigxActors.Js

theorem SocketCaller.not_over {V E : Type} {r : SocketCaller V E} {stage : CallerStage}
    (hstage : r.stage = stage) (h : stage ≠ .over) : r.stage ≠ .over :=
  fun hover => h (hstage.symm.trans hover)

namespace SocketTransport

variable {K P V E : Type} {s t : SocketTransport K P V E} {c i : Nat} {r : SocketCaller V E}

/-- What is known of caller `c`. -/
structure Good (s : SocketTransport K P V E) (c : Nat) (r : SocketCaller V E) : Prop where
  outcomes : r.outcomes.length = if r.stage = .over then 1 else 0
  posted : r.posted.length ≤ 1
  cancels : r.stage ≠ .over → r.cancels = []
  unposted : r.stage = .idle ∨ (∃ a, r.stage = .readying a) → r.posted = [] ∧ r.ended = false
  awaited : ∀ d, r.stage = .readying (.dial d) → d < s.dials.length
  fresh : ∀ i, r.stage = .pending i → i < s.nextId
  mine : ∀ i, r.stage = .pending i → ∀ c', s.inFlight.get i = some c' → c' = c
  held : ∀ i, r.stage = .pending i → s.inFlight.get i = some c ∨
    r.stream = true ∧ (r.failure.isSome = true ∨ r.ended = true)
  linked : ∀ i, s.inFlight.get i = some c → ∀ l ∈ r.posted, s.link = some l
  goesOn : ∀ i, s.inFlight.get i = some c → r.ended = false

/-- The invariant. -/
structure Sound (s : SocketTransport K P V E) : Prop where
  dialer : s.toDialer.Sound
  good : ∀ (c : Nat) r, s.callers[c]? = some r → s.Good c r
  entered : ∀ i c, s.inFlight.get i = some c → ∃ r, s.callers[c]? = some r ∧ r.stage = .pending i

theorem Sound.of_untouched (h : s.Sound) (huntouched : s.Untouched t) : t.Sound where
  dialer := huntouched.goes.sound h.dialer
  good c r hget := by
    rw [huntouched.callers] at hget
    have hgood := h.good c r hget
    exact
      { outcomes := hgood.outcomes
        posted := hgood.posted
        cancels := hgood.cancels
        unposted := hgood.unposted
        awaited := fun d hd => Nat.lt_of_lt_of_le (hgood.awaited d hd) huntouched.goes.dials
        fresh := fun i hi => Nat.lt_of_lt_of_le (hgood.fresh i hi) huntouched.nextId
        mine := huntouched.inFlight ▸ hgood.mine
        held := huntouched.inFlight ▸ hgood.held
        linked := huntouched.inFlight ▸ huntouched.goes.link ▸ hgood.linked
        goesOn := huntouched.inFlight ▸ hgood.goesOn }
  entered := by
    rw [huntouched.inFlight, huntouched.callers]
    exact h.entered

/-! ## One caller changes -/

/-- Only caller `c` changes, and what `inFlight` holds of it. -/
structure Changes (c : Nat) (f : SocketCaller V E → SocketCaller V E)
    (s t : SocketTransport K P V E) : Prop where
  goes : s.toDialer.Goes t.toDialer
  callers : t.callers = s.callers.modify c f
  nextId : s.nextId ≤ t.nextId
  others : ∀ i c', c' ≠ c → (t.inFlight.get i = some c' ↔ s.inFlight.get i = some c')
  own : ∀ i, t.inFlight.get i = some c → s.inFlight.get i = some c ∨ s.nextId ≤ i

variable {f : SocketCaller V E → SocketCaller V E}

theorem Good.other (h : s.Good c r) {c₀ : Nat} (hchanges : Changes c₀ f s t) (hne : c ≠ c₀) :
    t.Good c r where
  outcomes := h.outcomes
  posted := h.posted
  cancels := h.cancels
  unposted := h.unposted
  awaited d hd := Nat.lt_of_lt_of_le (h.awaited d hd) hchanges.goes.dials
  fresh i hi := Nat.lt_of_lt_of_le (h.fresh i hi) hchanges.nextId
  mine i hi c' hc' := by
    by_cases hc : c' = c₀
    · subst hc
      obtain hold | hnew := hchanges.own i hc'
      · exact h.mine i hi c' hold
      · exact absurd (h.fresh i hi) (Nat.not_lt_of_le hnew)
    · exact h.mine i hi c' ((hchanges.others i c' hc).1 hc')
  held i hi := (h.held i hi).imp_left (hchanges.others i c hne).2
  linked i hi l hl := by
    rw [hchanges.goes.link]
    exact h.linked i ((hchanges.others i c hne).1 hi) l hl
  goesOn i hi := h.goesOn i ((hchanges.others i c hne).1 hi)

theorem Sound.change (h : s.Sound) (hchanges : Changes c f s t) (hget : s.callers[c]? = some r)
    (hgood : t.Good c (f r)) (hentered : ∀ i, t.inFlight.get i = some c → (f r).stage = .pending i) :
    t.Sound where
  dialer := hchanges.goes.sound h.dialer
  good c' r' hget' := by
    rw [hchanges.callers] at hget'
    obtain ⟨r₀, rfl, hbefore, rfl⟩ | ⟨hne, hbefore⟩ := of_modify_get hget'
    · cases hget.symm.trans hbefore
      exact hgood
    · exact (h.good c' r' hbefore).other hchanges hne
  entered i c' hc' := by
    rw [hchanges.callers]
    by_cases hc : c' = c
    · subst hc
      exact ⟨f r, modify_get_self f hget, hentered i hc'⟩
    · obtain ⟨r', hbefore, hstage⟩ := h.entered i c' ((hchanges.others i c' hc).1 hc')
      exact ⟨r', (modify_get_other f hc).trans hbefore, hstage⟩

/-- A caller changes, and `inFlight` does not. -/
theorem changes_modify (s : SocketTransport K P V E) (c : Nat)
    (f : SocketCaller V E → SocketCaller V E) : Changes c f s (s.modifyCaller c f) :=
  ⟨.refl _, rfl, Nat.le_refl _, fun _ _ _ => .rfl, fun _ => .inl⟩

/-- It leaves `inFlight`. -/
theorem Sound.changes_erase (h : s.Sound) (hget : s.callers[c]? = some r)
    (hstage : r.stage = .pending i) (f : SocketCaller V E → SocketCaller V E) :
    Changes c f s { s with inFlight := s.inFlight.erase i, callers := s.callers.modify c f } where
  goes := .refl _
  callers := rfl
  nextId := Nat.le_refl _
  others i' c' hne := by
    rw [JsMap.get_erase]
    split
    · rename_i hi
      subst hi
      exact ⟨by simp, fun hc' => absurd ((h.good c r hget).mine _ hstage c' hc') hne⟩
    · exact .rfl
  own i' hi' := by
    rw [JsMap.get_erase] at hi'
    obtain ⟨-, hi'⟩ := guard_past hi'
    exact .inl hi'

/-- One that is not pending is not in `inFlight`. -/
theorem Sound.not_held (h : s.Sound) (hget : s.callers[c]? = some r)
    (hstage : ∀ i, r.stage ≠ .pending i) (i : Nat) : s.inFlight.get i ≠ some c := by
  intro hheld
  obtain ⟨r', hget', hpending⟩ := h.entered i c hheld
  cases hget.symm.trans hget'
  exact hstage i hpending

/-- One that is pending is in it under its own id, if at all. -/
theorem Sound.held_under (h : s.Sound) (hget : s.callers[c]? = some r)
    (hstage : r.stage = .pending i) {i' : Nat} (hheld : s.inFlight.get i' = some c) : i' = i := by
  obtain ⟨r', hget', hpending⟩ := h.entered i' c hheld
  cases hget.symm.trans hget'
  exact CallerStage.pending.inj (hpending.symm.trans hstage)

/-! ## What happens to one -/

/-- It is told something, and goes on as it was. -/
structure Keeps (r r' : SocketCaller V E) : Prop where
  stream : r'.stream = r.stream
  stage : r'.stage = r.stage
  posted : r'.posted = r.posted
  cancels : r'.cancels = r.cancels
  outcomes : r'.outcomes = r.outcomes
  failure : r.failure.isSome = true → r'.failure.isSome = true
  ended : r.ended = true → r'.ended = true
  before : r.stage = .idle ∨ (∃ a, r.stage = .readying a) → r'.ended = r.ended

theorem Good.keep (h : s.Good c r) {r' : SocketCaller V E} (hkeeps : Keeps r r')
    (hgoesOn : ∀ i, s.inFlight.get i = some c → r'.ended = false) : s.Good c r' where
  outcomes := by
    rw [hkeeps.outcomes, hkeeps.stage]
    exact h.outcomes
  posted := hkeeps.posted ▸ h.posted
  cancels := by
    rw [hkeeps.cancels, hkeeps.stage]
    exact h.cancels
  unposted hbefore := by
    rw [hkeeps.stage] at hbefore
    rw [hkeeps.posted]
    exact ⟨(h.unposted hbefore).1, (hkeeps.before hbefore).trans (h.unposted hbefore).2⟩
  awaited := hkeeps.stage ▸ h.awaited
  fresh := hkeeps.stage ▸ h.fresh
  mine := hkeeps.stage ▸ h.mine
  held i hi := by
    rw [hkeeps.stage] at hi
    obtain hheld | ⟨hstream, hover⟩ := h.held i hi
    · exact .inl hheld
    · exact .inr ⟨hkeeps.stream.trans hstream, hover.imp hkeeps.failure hkeeps.ended⟩
  linked := hkeeps.posted ▸ h.linked
  goesOn := hgoesOn

theorem Sound.keep (h : s.Sound) (hget : s.callers[c]? = some r) (hkeeps : Keeps r (f r))
    (hended : (f r).ended = r.ended) : (s.modifyCaller c f).Sound := by
  refine h.change (changes_modify s c f) hget ?_ fun i hi => ?_
  · have hgood := (h.good c r hget).keep hkeeps fun i hi =>
      hended.trans ((h.good c r hget).goesOn i hi)
    exact { hgood with }
  · obtain ⟨r', hget', hstage⟩ := h.entered i c hi
    cases hget.symm.trans hget'
    exact hkeeps.stage.trans hstage

/-- It is over, and in no table. -/
theorem Good.over (hstage : r.stage = .over) (houtcomes : r.outcomes.length = 1)
    (hposted : r.posted.length ≤ 1) (hheld : ∀ i, s.inFlight.get i ≠ some c) : s.Good c r where
  outcomes := by
    rw [if_pos hstage]
    exact houtcomes
  posted := hposted
  cancels hne := absurd hstage hne
  unposted hbefore := by
    obtain hidle | ⟨a, hready⟩ := hbefore
    · cases hidle.symm.trans hstage
    · cases hready.symm.trans hstage
  awaited d hd := nomatch hd.symm.trans hstage
  fresh i hi := nomatch hi.symm.trans hstage
  mine i hi := nomatch hi.symm.trans hstage
  held i hi := nomatch hi.symm.trans hstage
  linked i hi := absurd hi (hheld i)
  goesOn i hi := absurd hi (hheld i)

/-- One that has not settled has not been settled. -/
theorem Good.settled_once (h : s.Good c r) (hstage : r.stage ≠ .over)
    (outcome : SocketOutcome V E) : (r.outcomes ++ [outcome]).length = 1 := by
  have hnone := h.outcomes
  rw [if_neg hstage] at hnone
  rw [List.length_append, hnone]
  rfl

section

variable (h : s.Sound) (hget : s.callers[c]? = some r)
include h hget

/-- A call or a stream that is not pending settles. -/
theorem Sound.settle (hstage : r.stage ≠ .over)
    (hpending : ∀ i, r.stage ≠ .pending i) (outcome : SocketOutcome V E) :
    (s.modifyCaller c (·.settle outcome)).Sound := by
  have hgood := h.good c r hget
  have hheld := h.not_held hget hpending
  exact h.change (changes_modify s c _) hget
    (.over rfl (hgood.settled_once hstage outcome) hgood.posted hheld)
    fun i hi => absurd hi (hheld i)

/-- One that is pending leaves the table and settles; `f` may post a cancel before. -/
theorem Sound.settleFrom
    (hstage : r.stage = .pending i) (hover : (f r).stage = .over)
    (hposted : (f r).posted = r.posted)
    (houtcomes : ∃ outcome, (f r).outcomes = r.outcomes ++ [outcome]) :
    Sound { s with inFlight := s.inFlight.erase i, callers := s.callers.modify c f } := by
  have hgood := h.good c r hget
  have hheld : ∀ i', (s.inFlight.erase i).get i' ≠ some c := by
    intro i' hi'
    rw [JsMap.get_erase] at hi'
    obtain ⟨hne, hi'⟩ := guard_past hi'
    exact hne (h.held_under hget hstage hi')
  obtain ⟨outcome, houtcome⟩ := houtcomes
  have hnot : r.stage ≠ .over := SocketCaller.not_over hstage nofun
  refine h.change (h.changes_erase hget hstage f) hget ?_ fun i' hi' => absurd hi' (hheld i')
  exact .over hover (houtcome ▸ hgood.settled_once hnot outcome) (hposted ▸ hgood.posted) hheld

/-- A stream that is pending leaves the table, told of its end. -/
theorem Sound.endFrom (hstage : r.stage = .pending i)
    (hstream : r.stream = true) (hkeeps : Keeps r (f r))
    (hover : (f r).failure.isSome = true ∨ (f r).ended = true) :
    Sound { s with inFlight := s.inFlight.erase i, callers := s.callers.modify c f } := by
  have hgood := h.good c r hget
  have hheld : ∀ i', (s.inFlight.erase i).get i' ≠ some c := by
    intro i' hi'
    rw [JsMap.get_erase] at hi'
    obtain ⟨hne, hi'⟩ := guard_past hi'
    exact hne (h.held_under hget hstage hi')
  refine h.change (h.changes_erase hget hstage f) hget ?_ fun i' hi' => absurd hi' (hheld i')
  have hpending := hkeeps.stage.trans hstage
  exact
    { outcomes := by
        rw [hkeeps.outcomes, hkeeps.stage]
        exact hgood.outcomes
      posted := hkeeps.posted ▸ hgood.posted
      cancels := by
        rw [hkeeps.cancels, hkeeps.stage]
        exact hgood.cancels
      unposted := fun hbefore => by
        obtain hidle | ⟨a, hready⟩ := hbefore
        · cases hpending.symm.trans hidle
        · cases hpending.symm.trans hready
      awaited := hkeeps.stage ▸ hgood.awaited
      fresh := hkeeps.stage ▸ hgood.fresh
      mine := fun i' hi' c' hc' => hgood.mine i' (hkeeps.stage.symm.trans hi') c' (by
        rw [JsMap.get_erase] at hc'
        obtain ⟨-, hc'⟩ := guard_past hc'
        exact hc')
      held := fun _ _ => .inr ⟨hkeeps.stream.trans hstream, hover⟩
      linked := fun i' hi' => absurd hi' (hheld i')
      goesOn := fun i' hi' => absurd hi' (hheld i') }

end

/-! ## Calls and streams -/

theorem modifyCaller_modifyCaller (s : SocketTransport K P V E) (c : Nat)
    (f g : SocketCaller V E → SocketCaller V E) :
    (s.modifyCaller c f).modifyCaller c g = s.modifyCaller c fun r => g (f r) := by
  unfold modifyCaller
  rw [modify_modify]

/-- The table is left, and then something is done: a cancel may go out before. -/
theorem drop_modifyCaller (s : SocketTransport K P V E) (c i : Nat) (cancels : Bool)
    (g : SocketCaller V E → SocketCaller V E) :
    (s.drop c i cancels).modifyCaller c g =
      { s with
        inFlight := s.inFlight.erase i
        callers := s.callers.modify c fun r =>
          g (if (s.inFlight.get i).isSome && cancels then r.cancel s.link else r) } := by
  unfold drop
  dsimp only
  split
  · exact modifyCaller_modifyCaller { s with inFlight := s.inFlight.erase i } c _ g
  · rfl

theorem Sound.leave (h : s.Sound) (hget : s.callers[c]? = some r) (hstage : r.stage = .pending i)
    (outcome : SocketOutcome V E) : (s.leave c i r outcome).Sound := by
  unfold SocketTransport.leave
  rw [drop_modifyCaller]
  refine h.settleFrom hget hstage rfl ?_ ⟨outcome, ?_⟩ <;> split <;> rfl

theorem Sound.goOn (h : s.Sound) (hget : s.callers[c]? = some r) (hstage : r.stage = .pending i) :
    (s.goOn c i r).Sound := by
  unfold SocketTransport.goOn
  split
  · exact h.keep hget ⟨rfl, rfl, rfl, rfl, rfl, id, id, fun _ => rfl⟩ rfl
  split
  · exact h.leave hget hstage _
  split
  · exact h.leave hget hstage _
  · exact h.keep hget ⟨rfl, rfl, rfl, rfl, rfl, id, id, fun _ => rfl⟩ rfl

/-- What fails is over, but for a stream, which is told. -/
theorem fail_keeps (hstream : r.stream = true) (failure : SocketFailure E) :
    Keeps r (r.fail failure) := by
  unfold SocketCaller.fail
  rw [if_pos hstream]
  exact ⟨rfl, rfl, rfl, rfl, rfl, fun _ => rfl, id, fun _ => rfl⟩

theorem fail_ended (failure : SocketFailure E) : (r.fail failure).ended = r.ended := by
  unfold SocketCaller.fail
  split <;> rfl

theorem fail_failure (hstream : r.stream = true) (failure : SocketFailure E) :
    (r.fail failure).failure = some failure := by
  unfold SocketCaller.fail
  rw [if_pos hstream]

theorem fail_settles (hstream : r.stream = false) (failure : SocketFailure E) :
    r.fail failure = r.settle (.failed failure) := by
  unfold SocketCaller.fail
  rw [hstream]
  rfl

/-- `abort` on a signal that is listened to. -/
theorem Sound.onAbort (h : s.Sound) {r' : SocketCaller V E} (hget : s.callers[c]? = some r')
    (hstage : r'.stage = .pending i) (hstream : r'.stream = r.stream) :
    (s.onAbort c i r).Sound := by
  unfold SocketTransport.onAbort
  split
  · rename_i hr
    exact h.keep hget (fail_keeps (hstream.trans hr) .aborted) (fail_ended .aborted)
  · rw [drop_modifyCaller]
    refine h.settleFrom hget hstage rfl ?_ ⟨.failed .aborted, ?_⟩ <;> split <;> rfl

theorem Sound.frame (h : s.Sound) (hheld : s.inFlight.get i = some c) (reply : SocketReply V E) :
    (s.frame c i reply).Sound := by
  obtain ⟨r, hget, hstage⟩ := h.entered i c hheld
  have hends : ∀ reply : SocketReply V E, reply = .d ∨ (∃ e, reply = .e e) →
      Sound { s with
        inFlight := s.inFlight.erase i, callers := s.callers.modify c (·.frame reply) } := by
    intro reply hreply
    cases hstream : r.stream with
    | true =>
      obtain rfl | ⟨e, rfl⟩ := hreply
      · refine h.endFrom hget hstage hstream ?_ (.inr ?_)
        · show Keeps r (if r.stream then _ else _)
          rw [if_pos hstream]
          refine ⟨rfl, rfl, rfl, rfl, rfl, id, fun _ => rfl, fun hbefore => ?_⟩
          obtain hidle | ⟨a, hready⟩ := hbefore
          · cases hstage.symm.trans hidle
          · cases hstage.symm.trans hready
        · show (if r.stream then _ else _ : SocketCaller V E).ended = true
          rw [if_pos hstream]
      · refine h.endFrom hget hstage hstream (fail_keeps hstream _) (.inl ?_)
        show (r.fail (.wire e)).failure.isSome = true
        rw [fail_failure hstream]
        rfl
    | false =>
      obtain rfl | ⟨e, rfl⟩ := hreply
      · have hsettles : r.frame .d = r.settle (.value r.value) := by
          show (if r.stream then _ else _) = _
          rw [hstream]
          rfl
        refine h.settleFrom hget hstage ?_ ?_ ⟨.value r.value, ?_⟩
        all_goals
          rw [hsettles]
          rfl
      · have hsettles : r.frame (.e e) = r.settle (.failed (.wire e)) := fail_settles hstream _
        refine h.settleFrom hget hstage ?_ ?_ ⟨.failed (.wire e), ?_⟩
        all_goals
          rw [hsettles]
          rfl
  cases reply with
  | v value =>
    refine h.keep hget ?_ ?_
    · unfold SocketCaller.frame
      dsimp only
      split <;> exact ⟨rfl, rfl, rfl, rfl, rfl, id, id, fun _ => rfl⟩
    · unfold SocketCaller.frame
      dsimp only
      split <;> rfl
  | d => exact hends .d (.inl rfl)
  | e error => exact hends (.e error) (.inr ⟨error, rfl⟩)

/-- A stream is pulled, and awaits `ready`. -/
theorem Sound.begins (h : s.Sound) (hget : s.callers[c]? = some r) (hstage : r.stage = .idle)
    {a : Await} (ha : ∀ d, a = .dial d → d < s.dials.length) :
    (s.modifyCaller c fun r => { r with stage := .readying a }).Sound := by
  have hgood := h.good c r hget
  have hheld := h.not_held hget fun i hi => nomatch hi.symm.trans hstage
  have hnot : r.stage ≠ .over := SocketCaller.not_over hstage nofun
  refine h.change (changes_modify s c _) hget ?_ fun i hi => absurd hi (hheld i)
  exact
    { outcomes := by
        have hnone := hgood.outcomes
        rw [if_neg hnot] at hnone
        exact hnone
      posted := hgood.posted
      cancels := fun _ => hgood.cancels hnot
      unposted := fun _ => hgood.unposted (.inl hstage)
      awaited := fun d hd => ha d (CallerStage.readying.inj hd)
      fresh := nofun
      mine := nofun
      held := nofun
      linked := fun i hi => absurd hi (hheld i)
      goesOn := fun i hi => absurd hi (hheld i) }

/-- A call goes on from `ready`, and is posted where there is a link. -/
theorem Sound.register (h : s.Sound) (hget : s.callers[c]? = some r) {a : Await}
    (hstage : r.stage = .readying a) : (s.register c r).Sound := by
  have hgood := h.good c r hget
  have hnot : r.stage ≠ .over := SocketCaller.not_over hstage (by simp)
  have hheld := h.not_held hget fun i hi => by cases hi.symm.trans hstage
  obtain ⟨hunposted, hended⟩ := hgood.unposted (.inr ⟨a, hstage⟩)
  have hposted : (r.post s.link).posted = s.link.toList := by
    show r.posted ++ _ = _
    rw [hunposted]
    rfl
  have hone : s.link.toList.length ≤ 1 := by
    cases s.link <;> simp
  unfold SocketTransport.register
  split
  · refine h.change ⟨.refl _, rfl, Nat.le_succ _, fun _ _ _ => .rfl, fun _ => .inl⟩ hget ?_
      fun i hi => absurd hi (hheld i)
    exact .over rfl (hgood.settled_once hnot _) (hposted ▸ hone) hheld
  · have hget_set : ∀ i, (s.inFlight.set s.nextId c).get i =
        if i = s.nextId then some c else s.inFlight.get i := fun i => JsMap.get_set ..
    refine h.change ⟨.refl _, rfl, Nat.le_succ _, fun i c' hne => ?_, fun i hi => ?_⟩ hget ?_
      fun i hi => ?_
    · show (s.inFlight.set s.nextId c).get i = some c' ↔ _
      rw [hget_set]
      split
      · rename_i hi
        refine ⟨fun hc => absurd (Option.some.inj hc).symm hne, fun hc => ?_⟩
        obtain ⟨r', hget', hpending⟩ := h.entered i c' hc
        exact absurd (hi ▸ (h.good c' r' hget').fresh i hpending) (Nat.lt_irrefl _)
      · exact .rfl
    · change (s.inFlight.set s.nextId c).get i = some c at hi
      rw [hget_set] at hi
      split at hi
      · rename_i heq
        exact .inr (Nat.le_of_eq heq.symm)
      · exact .inl hi
    · exact
        { outcomes := by
            have hnone := hgood.outcomes
            rw [if_neg hnot] at hnone
            exact hnone
          posted := hposted ▸ hone
          cancels := fun _ => hgood.cancels hnot
          unposted := fun hbefore => by
            obtain hidle | ⟨_, hready⟩ := hbefore
            · cases hidle
            · cases hready
          awaited := fun _ hd => by cases hd
          fresh := fun i hi => by
            obtain rfl := CallerStage.pending.inj hi
            exact Nat.lt_succ_self _
          mine := fun i hi c' hc' => by
            obtain rfl := CallerStage.pending.inj hi
            change (s.inFlight.set s.nextId c).get s.nextId = some c' at hc'
            rw [JsMap.get_set_self] at hc'
            exact (Option.some.inj hc').symm
          held := fun i hi => by
            obtain rfl := CallerStage.pending.inj hi
            exact .inl (JsMap.get_set_self ..)
          linked := fun i _ l hl => by
            change l ∈ (r.post s.link).posted at hl
            rw [hposted] at hl
            exact Option.mem_toList.1 hl
          goesOn := fun _ _ => hended }
    · change (s.inFlight.set s.nextId c).get i = some c at hi
      rw [hget_set] at hi
      split at hi
      · rename_i heq
        exact heq ▸ rfl
      · exact absurd hi (hheld i)

/-- A call or a stream is made. -/
theorem Sound.add (h : s.Sound)
    (hstage : r.stage = .over ∧ r.outcomes.length = 1 ∨
      r.outcomes = [] ∧ (r.stage = .idle ∨ ∃ a, r.stage = .readying a))
    (hawaited : ∀ d, r.stage = .readying (.dial d) → d < s.dials.length)
    (hposted : r.posted = []) (hcancels : r.cancels = []) (hended : r.ended = false) :
    Sound { s with callers := s.callers ++ [r] } where
  dialer := h.dialer
  good c r' hget := by
    obtain ⟨rfl, rfl⟩ | ⟨-, hbefore⟩ := of_append_get hget
    · have hheld : ∀ i, s.inFlight.get i ≠ some s.callers.length := by
        intro i hi
        obtain ⟨r', hget', -⟩ := h.entered i _ hi
        exact Nat.lt_irrefl _ (lt_of_get hget')
      obtain ⟨hover, hone⟩ | ⟨hnone, hwaits⟩ := hstage
      · exact .over hover hone (hposted ▸ Nat.zero_le _) hheld
      have hnot : r'.stage ≠ .over ∧ ∀ i, r'.stage ≠ .pending i := by
        obtain hidle | ⟨a, hready⟩ := hwaits
        · rw [hidle]
          exact ⟨nofun, nofun⟩
        · rw [hready]
          exact ⟨nofun, nofun⟩
      exact
        { outcomes := by
            rw [hnone, if_neg hnot.1]
            rfl
          posted := hposted ▸ Nat.zero_le _
          cancels := fun _ => hcancels
          unposted := fun _ => ⟨hposted, hended⟩
          awaited := hawaited
          fresh := fun i hi => absurd hi (hnot.2 i)
          mine := fun i hi => absurd hi (hnot.2 i)
          held := fun i hi => absurd hi (hnot.2 i)
          linked := fun i hi => absurd hi (hheld i)
          goesOn := fun i hi => absurd hi (hheld i) }
    · have hgood := h.good c r' hbefore
      exact { hgood with }
  entered i c hc := by
    obtain ⟨r', hget, hpending⟩ := h.entered i c hc
    exact ⟨r', append_get _ hget, hpending⟩

/-! ## The link -/

theorem foldl_fail (failure : SocketFailure E) {l : List Nat} (hnodup : l.Nodup)
    (s : SocketTransport K P V E) :
    l.foldl (fun s c => s.modifyCaller c (·.fail failure)) s =
      { s with
        callers := (l.foldl (fun s c => s.modifyCaller c (·.fail failure)) s).callers } ∧
    ∀ j, (l.foldl (fun s c => s.modifyCaller c (·.fail failure)) s).callers[j]? =
      (s.callers[j]?).map fun r => if j ∈ l then r.fail failure else r := by
  induction l generalizing s with
  | nil =>
    refine ⟨rfl, fun j => ?_⟩
    cases h : s.callers[j]? <;> simp [h]
  | cons c l ih =>
    rw [List.nodup_cons] at hnodup
    obtain ⟨hrest, hget⟩ := ih hnodup.2 (s.modifyCaller c (·.fail failure))
    rw [List.foldl_cons]
    refine ⟨hrest, fun j => ?_⟩
    rw [hget]
    show ((s.callers.modify c _)[j]?).map _ = _
    rw [modify_get]
    by_cases hc : c = j
    · subst hc
      rw [if_pos rfl, Option.map_map]
      congr 1
      funext r
      simp [hnodup.1]
    · have hc' : ¬ j = c := fun heq => hc heq.symm
      rw [if_neg hc]
      simp [hc']

/-- No call is in `inFlight` twice. -/
theorem Sound.nodup (h : s.Sound) : (s.inFlight.entries.map Prod.snd).Nodup := by
  have hkeys := s.inFlight.nodup
  unfold List.Nodup at hkeys ⊢
  rw [List.pairwise_map] at hkeys ⊢
  refine hkeys.imp_of_mem fun {p q} hp hq hne heq => hne ?_
  obtain ⟨r, hget, hstage⟩ := h.entered p.1 p.2 (JsMap.get_of_mem_entries hp)
  obtain ⟨r', hget', hstage'⟩ := h.entered q.1 q.2 (JsMap.get_of_mem_entries hq)
  rw [← heq] at hget'
  cases hget.symm.trans hget'
  exact CallerStage.pending.inj (hstage.symm.trans hstage')

/-- All that is in flight fails, where the link has gone. -/
theorem Sound.failAll (h : s.Sound) (hdialer : t.toDialer.Sound)
    (hdials : s.dials.length ≤ t.dials.length) (hcallers : t.callers = s.callers)
    (hinFlight : t.inFlight = s.inFlight) (hnextId : t.nextId = s.nextId)
    (failure : SocketFailure E) : (t.failAll failure).Sound := by
  have hnodup : (t.inFlight.entries.map Prod.snd).Nodup := hinFlight ▸ h.nodup
  obtain ⟨hrest, hget⟩ := foldl_fail failure hnodup { t with inFlight := .empty }
  have hfields : (t.failAll failure).toDialer = t.toDialer ∧
      (t.failAll failure).inFlight = .empty ∧ (t.failAll failure).nextId = t.nextId := by
    unfold SocketTransport.failAll
    rw [hrest]
    exact ⟨rfl, rfl, rfl⟩
  have hnone : ∀ i c, (t.failAll failure).inFlight.get i ≠ some c := by
    intro i c hheld
    rw [hfields.2.1] at hheld
    cases hheld
  refine
    { dialer := hfields.1 ▸ hdialer
      good := fun c r' hget' => ?_
      entered := fun i c hheld => absurd hheld (hnone i c) }
  have hmap := (hget c).symm.trans hget'
  obtain ⟨r, hbefore, rfl⟩ := Option.map_eq_some_iff.1 hmap
  rw [hcallers] at hbefore
  have hgood := h.good c r hbefore
  -- It is told, or it is over, or it was not in flight.
  have hstays : ∀ r' : SocketCaller V E, Keeps r r' → r'.ended = r.ended →
      (∀ i, r.stage = .pending i → r'.stream = true ∧
        (r'.failure.isSome = true ∨ r'.ended = true)) →
      (t.failAll failure).Good c r' := by
    intro r' hkeeps hended htold
    have hkept := hgood.keep hkeeps fun i hi => hended.trans (hgood.goesOn i hi)
    exact
      { outcomes := hkept.outcomes
        posted := hkept.posted
        cancels := hkept.cancels
        unposted := hkept.unposted
        awaited := fun d hd => hfields.1 ▸ Nat.lt_of_lt_of_le (hkept.awaited d hd) hdials
        fresh := fun i hi => by
          rw [hfields.2.2, hnextId]
          exact hkept.fresh i hi
        mine := fun i _ c' hc' => absurd hc' (hnone i c')
        held := fun i hi => .inr (htold i (hkeeps.stage.symm.trans hi))
        linked := fun i hi => absurd hi (hnone i c)
        goesOn := fun i hi => absurd hi (hnone i c) }
  split
  · rename_i hmem
    obtain ⟨q, hq, rfl⟩ := List.mem_map.1 hmem
    rw [hinFlight] at hq
    obtain ⟨r', hget'', hstage⟩ := h.entered q.1 q.2 (JsMap.get_of_mem_entries hq)
    cases hbefore.symm.trans hget''
    cases hstream : r.stream with
    | true =>
      have hkeeps := fail_keeps hstream failure
      refine hstays _ hkeeps (fail_ended failure) fun i hi => ⟨hkeeps.stream.trans hstream, .inl ?_⟩
      rw [fail_failure hstream]
      rfl
    | false =>
      rw [fail_settles hstream]
      refine .over rfl (hgood.settled_once ?_ _) hgood.posted (hnone · _)
      rw [hstage]
      exact nofun
  · rename_i hmem
    refine hstays r ⟨rfl, rfl, rfl, rfl, rfl, id, id, fun _ => rfl⟩ rfl fun i hi => ?_
    refine (hgood.held i hi).resolve_left fun hheld => hmem ?_
    rw [hinFlight]
    exact List.mem_map_of_mem (JsMap.mem_entries_of_get hheld)

/-- A dial opens: nothing was in flight on a link before. -/
theorem Sound.opens (h : s.Sound) {d : Nat} {dial : Dial} (hget : s.dials[d]? = some dial)
    (hbusy : dial.busy = true) : Sound { s with toDialer := s.toDialer.opens d } := by
  obtain ⟨hdialer, hlink⟩ := h.dialer.opens hget hbusy
  have hdials : (s.toDialer.opens d).dials.length = s.dials.length := by
    unfold Dialer.opens
    split <;> exact List.length_set ..
  refine ⟨hdialer, fun c r hget' => ?_, h.entered⟩
  have hgood := h.good c r hget'
  exact
    { hgood with
      awaited := fun d' hd' => hdials.symm ▸ hgood.awaited d' hd'
      linked := fun i hi l hl => nomatch hlink.symm.trans (hgood.linked i hi l hl) }

theorem Sound.dropLink (h : s.Sound) (hlink : s.link.isSome = true) (throws : Nat → Bool) :
    (s.dropLink throws).Sound := by
  have hfail : ({ s with link := none, opening := none }.failAll .lost).Sound :=
    h.failAll (t := { s with link := none, opening := none }) (h.dialer.lose hlink)
      (Nat.le_refl _) rfl rfl rfl .lost
  unfold SocketTransport.dropLink
  dsimp only
  split
  · exact (hfail.of_untouched (untouched_redial throws _)).of_untouched
      ⟨.refl _, rfl, rfl, Nat.le_refl _⟩
  · exact hfail

theorem Sound.close (h : s.Sound) : s.close.Sound := by
  unfold SocketTransport.close
  split
  · exact h
  exact h.failAll
    (t := { s with closed := true, link := none, opening := none, live := none })
    (Dialer.sound_closed s.toDialer) (Nat.le_refl _) rfl rfl rfl .closed

/-! ## Steps -/

theorem sound_initial : ({} : SocketTransport K P V E).Sound where
  dialer := ⟨fun _ _ _ hget => (by cases hget), nofun, nofun⟩
  good _ _ hget := by cases hget
  entered _ _ hheld := by cases hheld

variable [DecidableEq K] [DecidableEq P] {fingerprint : V → Option P} {throws : Nat → Bool}

theorem Sound.step {l : Label K V E} (h : s.Sound)
    (hstep : SocketTransport.step fingerprint throws s l = some t) : t.Sound := by
  have hquiet : ∀ (s : SocketTransport K P V E) live, s.Untouched { s with live := live } :=
    fun s live => ⟨.refl _, rfl, rfl, Nat.le_refl _⟩
  have hready : (s.ready throws).1.Sound := h.of_untouched (untouched_ready throws s)
  have hawaits : ∀ d, (s.ready throws).2 = .dial d → d < (s.ready throws).1.dials.length :=
    fun d hd => Dialer.ready_awaits h.dialer hd
  cases l with simp only [SocketTransport.step] at hstep
  | call oneWay aborted =>
    cases hstep
    unfold SocketTransport.call
    split
    · exact h.add (.inl ⟨rfl, rfl⟩) nofun rfl rfl rfl
    · exact hready.add (.inr ⟨rfl, .inr ⟨_, rfl⟩⟩)
        (fun d hd => hawaits d (CallerStage.readying.inj hd)) rfl rfl rfl
  | stream aborted =>
    cases hstep
    exact h.add (.inr ⟨rfl, .inl rfl⟩) nofun rfl rfl rfl
  | pull c =>
    split at hstep
    · cases hstep
    rename_i r hget
    split at hstep
    · rename_i hstage
      have hnot : r.stage ≠ .over ∧ ∀ i, r.stage ≠ .pending i := by
        rw [hstage]
        exact ⟨nofun, nofun⟩
      split at hstep <;> cases hstep
      · exact h.settle hget hnot.1 hnot.2 _
      · exact hready.begins hget hstage hawaits
    · rename_i i hstage
      split at hstep <;> cases hstep
      exact h.goOn hget hstage
    · cases hstep
    · cases hstep
  | leave c =>
    split at hstep
    · cases hstep
    rename_i r hget
    split at hstep
    · rename_i hstage
      cases hstep
      refine h.settle hget ?_ ?_ _
      all_goals
        rw [hstage]
        exact nofun
    · rename_i i hstage
      split at hstep <;> cases hstep
      exact h.leave hget hstage _
    · cases hstep
    · cases hstep
  | resume c =>
    split at hstep
    · cases hstep
    rename_i r hget
    split at hstep
    · rename_i a hstage
      split at hstep
      · cases hstep
      · cases hstep
        refine h.settle hget ?_ ?_ _
        all_goals
          rw [hstage]
          exact nofun
      · cases hstep
        exact h.register hget hstage
    · cases hstep
    · cases hstep
    · cases hstep
  | wake c =>
    split at hstep
    · cases hstep
    rename_i r hget
    split at hstep
    · rename_i i hstage
      split at hstep <;> cases hstep
      exact h.goOn hget hstage
    · cases hstep
    · cases hstep
    · cases hstep
  | abort c =>
    split at hstep
    · cases hstep
    rename_i r hget
    obtain ⟨-, hstep⟩ := guard_past hstep
    have hflag : (s.modifyCaller c fun r => { r with aborted := true }).Sound :=
      h.keep hget ⟨rfl, rfl, rfl, rfl, rfl, id, id, fun _ => rfl⟩ rfl
    split at hstep
    · rename_i i hstage
      cases hstep
      exact hflag.onAbort (modify_get_self _ hget) hstage rfl
    · cases hstep
      exact hflag
    · cases hstep
      exact hflag
    · cases hstep
  | message i reply =>
    split at hstep
    · rename_i c hheld
      cases hstep
      exact h.frame hheld reply
    · exact h.of_untouched (untouched_handle hstep)
  | fires d =>
    split at hstep
    · rename_i hget
      cases hstep
      exact h.of_untouched ⟨h.dialer.fires hget rfl, rfl, rfl, Nat.le_refl _⟩
    · cases hstep
  | opens d =>
    split at hstep
    · rename_i hget
      have hopens := h.opens hget rfl
      split at hstep <;> cases hstep
      · exact hopens.of_untouched (untouched_reseed throws _)
      · exact hopens
    · cases hstep
  | closes d =>
    split at hstep
    · rename_i hget
      cases hstep
      exact h.of_untouched ⟨h.dialer.refuses hget rfl, rfl, rfl, Nat.le_refl _⟩
    · split at hstep <;> cases hstep
      · rename_i hlink
        exact h.dropLink (hlink ▸ rfl) throws
      · exact h
    · cases hstep
  | loop n =>
    split at hstep
    · split at hstep
      · cases hstep
      cases hstep
      exact (h.of_untouched (untouched_redial throws s)).of_untouched
        ⟨.refl _, rfl, rfl, Nat.le_refl _⟩
    · cases hstep
  | subscribe id onError =>
    cases hstep
    exact h.of_untouched (untouched_subscribe throws s id onError)
  | dispose i =>
    cases hstep
    exact h.of_untouched (untouched_dispose throws s i)
  | notify | replay =>
    split at hstep
    · obtain ⟨set, -, rfl⟩ := Option.map_eq_some_iff.1 hstep
      exact h.of_untouched (hquiet s _)
    · cases hstep
  | close =>
    cases hstep
    exact h.close

end SocketTransport

theorem sound_of_reach {K P V E : Type} [DecidableEq K] [DecidableEq P]
    {fingerprint : V → Option P} {throws : Nat → Bool}
    {ok : SocketTransport K P V E → SocketTransport.Label K V E → Prop}
    {s : SocketTransport K P V E} (h : (socketTransport fingerprint throws).Reach ok s) :
    s.Sound := by
  refine h.invariant (fun s hinit => ?_) fun s l t hs _ hstep => hs.step hstep
  obtain rfl : s = {} := hinit
  exact SocketTransport.sound_initial

end SigxActors.Client
