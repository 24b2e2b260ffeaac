/-
  Live/StreamRelay.lean --- relaying a stream to an endpoint, and its teardown.

  Source: `packages/actors/src/stream-relay.ts`.

  Several calls of `next()` may await the inner iterator at once.  Whatever closes the
  relay runs the hook, detaches the abort listener and tears the inner iterator down
  before anything is awaited, so what the inner iterator says later finds the relay
  closed.
-/
import SigxActors.Js.Array
import SigxActors.Machine.Transition

set_option autoImplicit false

namespace SigxActors.Live

open SigxActors.Machine
open SigxActors.Machine.System

/-! ## The relay -/

/-- What a call of the relay is settled with. -/
inductive Answer (V E : Type) where
  | value (v : V)
  | done (v : Option V)
  | error (e : E)
  deriving DecidableEq

/-- A call of the relay: it awaits the inner `next()`, or `closeInner` with its answer at
hand, or is settled. -/
inductive RelayCall (V E : Type) where
  | parked
  | tearing (a : Answer V E)
  | answered (a : Answer V E)
  deriving DecidableEq

/-- The call is not settled. -/
def RelayCall.isOpen {V E : Type} : RelayCall V E → Bool
  | .answered _ => false
  | _ => true

/-- The relay, with what it has asked of the others. -/
structure StreamRelay (V E : Type) where
  /-- `inner` is there. -/
  started : Bool := false
  /-- The inner iterator has said that it is done, and so closed the relay. -/
  ended : Bool := false
  finished : Bool := false
  /-- The abort listener is attached. -/
  listener : Bool := false
  /-- Runs of `onClose`. -/
  closes : Nat := 0
  /-- Calls of the inner `return()`. -/
  returns : Nat := 0
  nexts : List (RelayCall V E) := []
  /-- Calls of `return()` and of `throw()`. -/
  closings : List (RelayCall V E) := []
  deriving DecidableEq

/-- `mapError`, and whether the inner iterator has a `return`. -/
structure RelayOptions (E : Type) where
  mapError : E → E
  hasReturn : Bool

/-- What happens to a relay.  The inner iterator answers in any order, and may fail to begin. -/
inductive RelayEvent (V E : Type) where
  | next
  | nextUnbegun (e : E)
  | yields (i : Nat) (v : V)
  | ends (i : Nat) (v : Option V)
  | fails (i : Nat) (e : E)
  | return_ (v : Option V)
  | throw_ (e : E)
  | abort
  | nextTorn (i : Nat)
  | closingTorn (i : Nat)

/-- The event settles a call of `next()` that was there. -/
def RelayEvent.answers {V E : Type} : RelayEvent V E → Bool
  | .yields .. | .ends .. | .fails .. | .nextTorn _ => true
  | _ => false

namespace StreamRelay

variable {V E : Type}

/-- `settle`. -/
def settle (s : StreamRelay V E) : StreamRelay V E :=
  { s with finished := true, listener := false, closes := s.closes + 1 }

/-- `closeInner`, up to its `await`. -/
def closeInner (options : RelayOptions E) (s : StreamRelay V E) : StreamRelay V E :=
  if s.started && options.hasReturn then { s with returns := s.returns + 1 } else s

/-- `return()` and `throw()`. -/
def close (options : RelayOptions E) (s : StreamRelay V E) (a : Answer V E) : StreamRelay V E :=
  if s.finished then { s with closings := s.closings ++ [.answered a] }
  else
    let s := s.settle.closeInner options
    { s with closings := s.closings ++ [.tearing a] }

/-- `next()`, where the inner iterator can be had. -/
def next (s : StreamRelay V E) : StreamRelay V E :=
  if s.finished then { s with nexts := s.nexts ++ [.answered (.done none)] }
  else { s with started := true, nexts := s.nexts ++ [.parked] }

/-- The `await` of `next()` has a result. -/
def resume (options : RelayOptions E) (s : StreamRelay V E) (i : Nat) : Answer V E → StreamRelay V E
  | .value v =>
      { s with nexts := s.nexts.set i (.answered (if s.finished then .done none else .value v)) }
  | .done v =>
      if s.finished then { s with nexts := s.nexts.set i (.answered (.done none)) }
      else { s.settle with ended := true, nexts := s.nexts.set i (.answered (.done v)) }
  | .error e =>
      if s.finished then { s with nexts := s.nexts.set i (.answered (.done none)) }
      else
        { s.settle.closeInner options with
          nexts := s.nexts.set i (.tearing (.error (options.mapError e))) }

/-- The inner iterator answers the call. -/
def answer (options : RelayOptions E) (s : StreamRelay V E) (i : Nat) (a : Answer V E) :
    Option (StreamRelay V E) :=
  match s.nexts[i]? with
  | some .parked => some (s.resume options i a)
  | _ => none

/-- The `await closeInner()` of a call is over. -/
def torn (calls : List (RelayCall V E)) (i : Nat) : Option (List (RelayCall V E)) :=
  match calls[i]? with
  | some (.tearing a) => some (calls.set i (.answered a))
  | _ => none

def step (options : RelayOptions E) (s : StreamRelay V E) : RelayEvent V E → Option (StreamRelay V E)
  | .next => some s.next
  | .nextUnbegun e =>
      if s.finished || s.started then none
      else some { s.settle.closeInner options with
        nexts := s.nexts ++ [.tearing (.error (options.mapError e))] }
  | .yields i v => s.answer options i (.value v)
  | .ends i v => s.answer options i (.done v)
  | .fails i e => s.answer options i (.error e)
  | .return_ v => some (s.close options (.done v))
  | .throw_ e => some (s.close options (.error (options.mapError e)))
  | .abort =>
      if s.listener then some ({ s with listener := false }.close options (.done none)) else none
  | .nextTorn i => (torn s.nexts i).map fun nexts => { s with nexts := nexts }
  | .closingTorn i => (torn s.closings i).map fun closings => { s with closings := closings }

/-- `relayStream`, with a signal or without, or with one that has been raised. -/
def relayStream (options : RelayOptions E) : System (StreamRelay V E) (RelayEvent V E) where
  initial s := s = {} ∨ s = { listener := true } ∨ s = ({} : StreamRelay V E).close options (.done none)
  step := step options

/-! ## The properties -/

/-- What a closed relay has done, once. -/
structure TornDown (options : RelayOptions E) (s : StreamRelay V E) : Prop where
  closes : s.closes = if s.finished then 1 else 0
  listener : s.finished = true → s.listener = false
  atMostOnce : s.returns ≤ 1
  returned : s.finished = true → s.started = true → s.ended = false → options.hasReturn = true →
    s.returns = 1

/-- The calls of `next()` that are not settled. -/
def open_ (s : StreamRelay V E) : Nat := s.nexts.countP RelayCall.isOpen

/-- Closed, the relay answers that it is done, except to a call that had an error to throw,
and no other comes to have one. -/
def Silent (options : RelayOptions E) (s : StreamRelay V E) : Prop :=
  ∀ (e : RelayEvent V E) (t : StreamRelay V E) (i : Nat), s.step options e = some t →
    (∀ a : Answer V E, t.nexts[i]? = some (.answered a) → s.nexts[i]? = some (.answered a) ∨
      s.nexts[i]? = some (.tearing a) ∨ a = .done none) ∧
    ∀ a : Answer V E, t.nexts[i]? = some (.tearing a) → s.nexts[i]? = some (.tearing a)

/-- One call of `next()` at most has an error to throw, once the relay is closed. -/
structure OneFailure (s : StreamRelay V E) : Prop where
  closed : ∀ (i : Nat) (a : Answer V E), s.nexts[i]? = some (.tearing a) →
    s.finished = true ∧ ∃ e, a = .error e
  one : ∀ (i j : Nat) (a b : Answer V E), s.nexts[i]? = some (.tearing a) →
    s.nexts[j]? = some (.tearing b) → i = j

/-! ## A closed relay -/

variable {options : RelayOptions E} {s t : StreamRelay V E} {e : RelayEvent V E} {i : Nat}
  {a : Answer V E} {nexts nexts' : List (RelayCall V E)}

/-- What stays when the relay is closed. -/
structure Kept (s t : StreamRelay V E) : Prop where
  finished : t.finished = s.finished
  listener : t.listener = s.listener
  started : t.started = s.started
  closes : t.closes = s.closes
  returns : t.returns = s.returns
  ended : t.ended = s.ended

/-- What the calls of `next()` hear: nothing, a new one that all is over, or one of them what
was left to hear. -/
inductive Heard (nexts : List (RelayCall V E)) : Bool → List (RelayCall V E) → Prop
  | same : Heard nexts false nexts
  | told : Heard nexts false (nexts ++ [.answered (.done none)])
  | parked (i : Nat) (hcall : nexts[i]? = some .parked) :
      Heard nexts true (nexts.set i (.answered (.done none)))
  | torn (i : Nat) (a : Answer V E) (hcall : nexts[i]? = some (.tearing a)) :
      Heard nexts true (nexts.set i (.answered a))

theorem torn_eq (h : torn nexts i = some nexts') :
    ∃ a, nexts[i]? = some (.tearing a) ∧ nexts' = nexts.set i (.answered a) := by
  unfold torn at h
  split at h
  · rename_i a hcall
    cases h
    exact ⟨a, hcall, rfl⟩
  · cases h

theorem answer_eq (h : s.answer options i a = some t) :
    s.nexts[i]? = some .parked ∧ t = s.resume options i a := by
  unfold answer at h
  split at h
  · rename_i hcall
    cases h
    exact ⟨hcall, rfl⟩
  · cases h

theorem late_answer (hfinished : s.finished = true) (h : s.answer options i a = some t) :
    Kept s t ∧ Heard s.nexts true t.nexts := by
  obtain ⟨hcall, rfl⟩ := answer_eq h
  cases a with
  | value | done | error =>
    simp only [resume, if_pos hfinished]
    exact ⟨⟨rfl, rfl, rfl, rfl, rfl, rfl⟩, .parked i hcall⟩

theorem late_close (hfinished : s.finished = true) :
    s.close options a = { s with closings := s.closings ++ [.answered a] } := if_pos hfinished

/-- A step of a closed relay. -/
theorem late (hfinished : s.finished = true) (hdetached : s.listener = false)
    (h : s.step options e = some t) : Kept s t ∧ Heard s.nexts e.answers t.nexts := by
  cases e with
  | next =>
    cases h
    rw [next, if_pos hfinished]
    exact ⟨⟨rfl, rfl, rfl, rfl, rfl, rfl⟩, .told⟩
  | nextUnbegun e =>
    obtain ⟨hopen, -⟩ := guard_past h
    simp [hfinished] at hopen
  | yields i v => exact late_answer hfinished h
  | ends i v => exact late_answer hfinished h
  | fails i e => exact late_answer hfinished h
  | return_ v =>
    cases h
    rw [late_close hfinished]
    exact ⟨⟨rfl, rfl, rfl, rfl, rfl, rfl⟩, .same⟩
  | throw_ e =>
    cases h
    rw [late_close hfinished]
    exact ⟨⟨rfl, rfl, rfl, rfl, rfl, rfl⟩, .same⟩
  | abort =>
    obtain ⟨hlistener, -⟩ := guard_passed h
    simp [hdetached] at hlistener
  | nextTorn i =>
    obtain ⟨nexts, htorn, rfl⟩ := Option.map_eq_some_iff.1 h
    obtain ⟨a, hcall, rfl⟩ := torn_eq htorn
    exact ⟨⟨rfl, rfl, rfl, rfl, rfl, rfl⟩, .torn i a hcall⟩
  | closingTorn i =>
    obtain ⟨closings, -, rfl⟩ := Option.map_eq_some_iff.1 h
    exact ⟨⟨rfl, rfl, rfl, rfl, rfl, rfl⟩, .same⟩

theorem get_set {call call' : RelayCall V E} {j : Nat} (h : (nexts.set i call)[j]? = some call') :
    call' = call ∧ j = i ∨ nexts[j]? = some call' :=
  (Js.of_set_get h).imp And.symm And.right

theorem get_snoc {call call' : RelayCall V E} {j : Nat} (h : (nexts ++ [call])[j]? = some call') :
    call' = call ∧ j = nexts.length ∨ nexts[j]? = some call' := by
  rw [List.getElem?_append] at h
  split at h
  · exact .inr h
  rw [List.getElem?_singleton] at h
  obtain ⟨hzero, h⟩ := guard_passed h
  exact .inl ⟨(Option.some.inj h).symm, by omega⟩

/-- What is heard is what was left, or that all is over. -/
theorem Heard.answered {b : Bool} {j : Nat} (h : Heard nexts b nexts')
    (hj : nexts'[j]? = some (.answered a)) :
    nexts[j]? = some (.answered a) ∨ nexts[j]? = some (.tearing a) ∨ a = .done none := by
  cases h with
  | same => exact .inl hj
  | told =>
    rcases get_snoc hj with ⟨heq, -⟩ | hj
    · exact .inr (.inr (RelayCall.answered.inj heq))
    · exact .inl hj
  | parked i hcall =>
    rcases get_set hj with ⟨heq, -⟩ | hj
    · exact .inr (.inr (RelayCall.answered.inj heq))
    · exact .inl hj
  | torn i b hcall =>
    rcases get_set hj with ⟨heq, rfl⟩ | hj
    · exact .inr (.inl (RelayCall.answered.inj heq ▸ hcall))
    · exact .inl hj

theorem Heard.tearing {b : Bool} {j : Nat} (h : Heard nexts b nexts')
    (hj : nexts'[j]? = some (.tearing a)) : nexts[j]? = some (.tearing a) := by
  cases h with
  | same => exact hj
  | told => exact (get_snoc hj).resolve_left fun heq => (by cases heq.1)
  | parked i hcall | torn i b hcall => exact (get_set hj).resolve_left fun heq => (by cases heq.1)

/-- Every answer of the inner iterator settles a call. -/
theorem Heard.open_ {b : Bool} (h : Heard s.nexts b t.nexts) : t.open_ + b.toNat = s.open_ := by
  unfold StreamRelay.open_
  generalize t.nexts = after at h
  cases h with
  | same => rfl
  | told => simp [RelayCall.isOpen]
  | parked i hcall | torn i b hcall =>
    obtain ⟨hlt, hcall⟩ := List.getElem?_eq_some_iff.1 hcall
    rw [List.countP_set hlt, hcall]
    have hpos : 0 < s.nexts.countP RelayCall.isOpen :=
      List.countP_pos_iff.2 ⟨_, List.getElem_mem hlt, by rw [hcall]; rfl⟩
    simp only [RelayCall.isOpen, Bool.toNat_true, if_true, Bool.false_eq_true, if_false]
    omega

/-! ## Closing -/

/-- The invariant: what is torn down, and that nothing was while the relay was open. -/
structure Sound (options : RelayOptions E) (s : StreamRelay V E) : Prop where
  torn : TornDown options s
  failure : OneFailure s
  fresh : s.finished = false → s.returns = 0 ∧ s.ended = false

/-- The relay is closed: nobody had an error to throw before. -/
theorem Sound.close (h : Sound options s) (hopen : s.finished = false) (hfinished : t.finished = true)
    (hlistener : t.listener = false) (hcloses : t.closes = s.closes + 1)
    (hreturns : t.returns = 0 ∧ t.ended = true ∨
      t.returns = if t.started && options.hasReturn then 1 else 0)
    (hfailure : ∀ (j : Nat) (a : Answer V E), t.nexts[j]? = some (.tearing a) →
      j = i ∧ (∃ e, a = .error e) ∨ s.nexts[j]? = some (.tearing a)) : Sound options t := by
  have hnone : ∀ (j : Nat) (a : Answer V E), s.nexts[j]? = some (.tearing a) → False := fun j a hj => by
    have hfinished := (h.failure.closed j a hj).1
    simp [hopen] at hfinished
  refine ⟨⟨?_, fun _ => hlistener, ?_, ?_⟩, ⟨?_, ?_⟩, by simp [hfinished]⟩
  · rw [hcloses, h.torn.closes, hopen, hfinished]
    rfl
  · rcases hreturns with ⟨hreturns, -⟩ | hreturns
    · omega
    · rw [hreturns]
      split <;> omega
  · intro _ hstarted hended hreturn
    rcases hreturns with ⟨-, hends⟩ | hreturns
    · simp [hended] at hends
    · rw [hreturns, if_pos (by rw [hstarted, hreturn]; rfl)]
  · intro j a hj
    rcases hfailure j a hj with ⟨-, herror⟩ | hj
    · exact ⟨hfinished, herror⟩
    · exact (hnone j a hj).elim
  · intro j k a b hj hk
    rcases hfailure j a hj with ⟨rfl, -⟩ | hj
    · rcases hfailure k b hk with ⟨rfl, -⟩ | hk
      · rfl
      · exact (hnone k b hk).elim
    · exact (hnone j a hj).elim

theorem closeInner_eq (s : StreamRelay V E) : s.closeInner options =
    { s with returns := if s.started && options.hasReturn then s.returns + 1 else s.returns } := by
  unfold closeInner
  split <;> rfl

section

variable (h : Sound options s) (hopen : s.finished = false)
include h hopen

theorem Sound.resume : Sound options (s.resume options i a) := by
  obtain ⟨hzero, hended⟩ := h.fresh hopen
  have hnot : ¬ s.finished = true := by simp [hopen]
  cases a with
  | value v =>
    refine ⟨{ h.torn with }, ⟨?_, ?_⟩, h.fresh⟩
    · intro j b hj
      exact h.failure.closed j b ((get_set hj).resolve_left fun heq => (by cases heq.1))
    · intro j k b c hj hk
      exact h.failure.one j k b c ((get_set hj).resolve_left fun heq => (by cases heq.1))
        ((get_set hk).resolve_left fun heq => (by cases heq.1))
  | done v =>
    simp only [StreamRelay.resume, if_neg hnot]
    refine h.close (i := i) hopen rfl rfl rfl (.inl ⟨hzero, rfl⟩) fun j b hj => .inr ?_
    exact (get_set hj).resolve_left fun heq => (by cases heq.1)
  | error e =>
    simp only [StreamRelay.resume, if_neg hnot, closeInner_eq]
    refine h.close (i := i) hopen rfl rfl rfl (.inr ?_) fun j b hj => ?_
    · simp only [settle, hzero]
    · exact (get_set hj).imp_left fun heq => ⟨heq.2, _, RelayCall.tearing.inj heq.1⟩

theorem Sound.closed : Sound options (s.close options a) := by
  rw [StreamRelay.close, if_neg (by simp [hopen]), closeInner_eq]
  refine h.close (i := 0) hopen rfl rfl rfl (.inr ?_) fun _ _ => .inr
  simp only [settle, (h.fresh hopen).1]

theorem Sound.begin_ : Sound options s.next := by
  have hnot : ¬ s.finished = true := by simp [hopen]
  rw [StreamRelay.next, if_neg hnot]
  refine ⟨{ h.torn with returned := fun hfinished => absurd hfinished hnot },
    ⟨?_, ?_⟩, h.fresh⟩
  · intro j a hj
    exact h.failure.closed j a ((get_snoc hj).resolve_left fun heq => (by cases heq.1))
  · intro j k a b hj hk
    exact h.failure.one j k a b ((get_snoc hj).resolve_left fun heq => (by cases heq.1))
      ((get_snoc hk).resolve_left fun heq => (by cases heq.1))

end

/-- A closed relay keeps what it tore down. -/
theorem Sound.late (h : Sound options s) (hfinished : s.finished = true) (hkept : Kept s t)
    {b : Bool} (hheard : Heard s.nexts b t.nexts) : Sound options t := by
  refine ⟨⟨?_, ?_, ?_, ?_⟩, ⟨?_, ?_⟩, ?_⟩
  · rw [hkept.closes, hkept.finished]
    exact h.torn.closes
  · rw [hkept.listener, hkept.finished]
    exact h.torn.listener
  · rw [hkept.returns]
    exact h.torn.atMostOnce
  · intro _ hstarted hended hreturn
    rw [hkept.returns]
    exact h.torn.returned hfinished (hkept.started ▸ hstarted) (hkept.ended ▸ hended) hreturn
  · intro j a hj
    rw [hkept.finished]
    exact h.failure.closed j a (hheard.tearing hj)
  · intro j k a b hj hk
    exact h.failure.one j k a b (hheard.tearing hj) (hheard.tearing hk)
  · simp [hkept.finished, hfinished]

theorem Sound.step (h : Sound options s) (hstep : s.step options e = some t) : Sound options t := by
  cases hfinished : s.finished with
  | true =>
    obtain ⟨hkept, hheard⟩ := StreamRelay.late hfinished (h.torn.listener hfinished) hstep
    exact h.late hfinished hkept hheard
  | false =>
    cases e with
    | next =>
      cases hstep
      exact h.begin_ hfinished
    | nextUnbegun e =>
      obtain ⟨-, rfl⟩ := guard_past_taken hstep
      rw [closeInner_eq]
      refine h.close (i := s.nexts.length) hfinished rfl rfl rfl (.inr ?_) fun j b hj => ?_
      · simp only [settle, (h.fresh hfinished).1]
      · exact (get_snoc hj).imp_left fun heq => ⟨heq.2, _, RelayCall.tearing.inj heq.1⟩
    | yields | ends | fails =>
      obtain ⟨-, rfl⟩ := answer_eq hstep
      exact h.resume hfinished
    | return_ | throw_ =>
      cases hstep
      exact h.closed hfinished
    | abort =>
      obtain ⟨-, rfl⟩ := guard_taken hstep
      have hdetached : Sound options { s with listener := false } :=
        ⟨{ h.torn with listener := fun _ => rfl }, ⟨h.failure.closed,
          h.failure.one⟩, h.fresh⟩
      exact hdetached.closed hfinished
    | nextTorn i =>
      obtain ⟨nexts, htorn, -⟩ := Option.map_eq_some_iff.1 hstep
      obtain ⟨a, hcall, -⟩ := torn_eq htorn
      have hclosed := (h.failure.closed i a hcall).1
      simp [hfinished] at hclosed
    | closingTorn i =>
      obtain ⟨closings, -, rfl⟩ := Option.map_eq_some_iff.1 hstep
      exact ⟨{ h.torn with },
        ⟨h.failure.closed, h.failure.one⟩, h.fresh⟩

theorem sound_of_reachable (h : (relayStream options).Reachable s) : Sound options s := by
  have hempty : ∀ b, Sound options ({ listener := b } : StreamRelay V E) := fun b =>
    ⟨⟨rfl, nofun, Nat.zero_le 1, nofun⟩, ⟨by simp, by simp⟩, fun _ => ⟨rfl, rfl⟩⟩
  refine h.invariant ?_ fun s e t hs _ hstep => hs.step hstep
  rintro s (rfl | rfl | rfl)
  · exact hempty false
  · exact hempty true
  · exact (hempty false).closed rfl

/-! ## Every run -/

/-- Follow the events. -/
def run (options : RelayOptions E) (s : StreamRelay V E) (es : List (RelayEvent V E)) :
    Option (StreamRelay V E) :=
  es.foldlM (step options) s

/-- Every run from here settles as many calls of `next()` as answers come, and adds none;
and a call that is not settled can be answered. -/
structure Settles (options : RelayOptions E) (s : StreamRelay V E) : Prop where
  run : ∀ es t, s.run options es = some t → t.open_ + es.countP RelayEvent.answers = s.open_
  parked : ∀ i, s.nexts[i]? = some .parked → ∀ a, (s.answer options i a).isSome
  torn : ∀ (i : Nat) (a : Answer V E), s.nexts[i]? = some (.tearing a) →
    (s.step options (.nextTorn i)).isSome

/-- What holds of a relay at any time. -/
structure TearsDown (options : RelayOptions E) (s : StreamRelay V E) : Prop where
  torn : TornDown options s
  failure : OneFailure s
  silent : s.finished = true → Silent options s
  settles : s.finished = true → Settles options s

theorem Sound.run (h : Sound options s) (hfinished : s.finished = true) {es : List (RelayEvent V E)}
    (hrun : s.run options es = some t) : t.open_ + es.countP RelayEvent.answers = s.open_ := by
  induction es generalizing s with
  | nil =>
    cases hrun
    rfl
  | cons e es ih =>
    obtain ⟨mid, hmid, hrest⟩ := Option.bind_eq_some_iff.1 hrun
    obtain ⟨hkept, hheard⟩ := StreamRelay.late hfinished (h.torn.listener hfinished) hmid
    have hopen := ih (h.step hmid) (hkept.finished.trans hfinished) hrest
    rw [← hheard.open_, ← hopen, List.countP_cons]
    cases e.answers <;> simp <;> omega

theorem stream_relay_tears_down (h : (relayStream options).Reachable s) : TearsDown options s := by
  have hsound := sound_of_reachable h
  refine ⟨hsound.torn, hsound.failure, fun hfinished e t i hstep => ?_, fun hfinished => ⟨?_, ?_, ?_⟩⟩
  · obtain ⟨-, hheard⟩ := late hfinished (hsound.torn.listener hfinished) hstep
    exact ⟨fun a => hheard.answered, fun a => hheard.tearing⟩
  · exact fun es t => hsound.run hfinished
  · intro i hcall a
    simp only [answer, hcall, Option.isSome_some]
  · intro i a hcall
    simp only [step, torn, hcall, Option.map_some, Option.isSome_some]

/-- Two calls of `next()` are parked when the request is aborted. -/
theorem stream_relay_tears_down_aborted : TearsDown (V := Nat) ⟨fun e : Nat => e, true⟩
    { started := true, finished := true, closes := 1, returns := 1, nexts := [.parked, .parked],
      closings := [.tearing (.done none)] } := by
  have hrun : (relayStream ⟨fun e : Nat => e, true⟩).exec (fun _ _ => True)
      ({ listener := true } : StreamRelay Nat Nat) [.next, .next, .abort] = some _ := rfl
  exact stream_relay_tears_down (Reachable.exec (.start (.inr (.inl rfl))) hrun)

/-- The consumer has been told that all is over when the failure that closed the relay reaches
an earlier `next()`. -/
theorem not_silent_failed : ¬ ∀ (options : RelayOptions Nat) (s t : StreamRelay Nat Nat)
    (e : RelayEvent Nat Nat) (i : Nat) (a : Answer Nat Nat),
    (relayStream options).Reachable s → s.finished = true → s.step options e = some t →
    t.nexts[i]? = some (.answered a) → s.nexts[i]? = some (.answered a) ∨ a = .done none := by
  intro h
  have hrun : (relayStream ⟨fun e : Nat => e, true⟩).exec (fun _ _ => True)
      ({} : StreamRelay Nat Nat) [.next, .fails 0 7, .return_ none] = some _ := rfl
  have hfailed := h _ _ _ (.nextTorn 0) 0 (.error 7) (Reachable.exec (.start (.inl rfl)) hrun) rfl
    rfl rfl
  exact absurd hfailed (by decide)

end StreamRelay

end SigxActors.Live
