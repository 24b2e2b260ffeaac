/-
  Host/WatchEnds.lean --- the subscribers of a watch whose loop has ended.

  The loop tells the subscribers it has, on its way out, that it is over.  A later one
  is not told: the entry stays in the map until the old subscribers have pulled their
  terminal, and whoever joins it until then is seeded with the last value and then
  waits for a loop that is gone.
-/
import SigxActors.Host.Watch

set_option autoImplicit false

namespace SigxActors.Host

variable {V E : Type}

/-! ## Subscribers -/

/-- At most one call of `next()` is under way, and it is parked only while there is
nothing to return. -/
structure PulledInTurn (sub : Subscriber V E) : Prop where
  one : (sub.parked ++ sub.woken).length ≤ 1
  wake : ∀ pull ∈ sub.parked, sub.wake = some pull
  idle : sub.parked ≠ [] → ¬ sub.Ready
  detached : sub.attached = false → sub.done = true

theorem PulledInTurn.initial (last : Option V) :
    PulledInTurn ({ queue := last.toList } : Subscriber V E) :=
  ⟨by simp, by simp, by simp, by simp⟩

/-- The call that is parked is woken. -/
theorem wakeUp_parked {sub : Subscriber V E} (hone : (sub.parked ++ sub.woken).length ≤ 1)
    (hwake : ∀ pull ∈ sub.parked, sub.wake = some pull) :
    sub.wakeUp.parked = [] ∧ (sub.wakeUp.parked ++ sub.wakeUp.woken).length ≤ 1 := by
  unfold Subscriber.wakeUp
  cases hp : sub.parked with
  | nil =>
    rw [hp] at hone
    split
    all_goals
      simp [hp]
      simpa using hone
  | cons pull rest =>
    rw [hp] at hone hwake
    simp only [List.length_append, List.length_cons] at hone
    have hrest : rest = [] := List.length_eq_zero_iff.1 (by omega)
    have hwoken : sub.woken = [] := List.length_eq_zero_iff.1 (by omega)
    subst hrest
    rw [hwake pull (by simp)]
    simp [hwoken]

theorem wakeUp_fields (sub : Subscriber V E) :
    sub.wakeUp.attached = sub.attached ∧ sub.wakeUp.done = sub.done := by
  unfold Subscriber.wakeUp
  split
  · split <;> exact ⟨rfl, rfl⟩
  · exact ⟨rfl, rfl⟩

/-- Whatever is written before a wake, the subscriber is pulled in turn after it. -/
theorem PulledInTurn.wakeUp {sub sub' : Subscriber V E} (h : PulledInTurn sub)
    (hparked : sub'.parked = sub.parked) (hwoken : sub'.woken = sub.woken)
    (hwake : sub'.wake = sub.wake) (hdetached : sub'.attached = false → sub'.done = true) :
    PulledInTurn sub'.wakeUp := by
  obtain ⟨hempty, hone⟩ : sub'.wakeUp.parked = [] ∧
      (sub'.wakeUp.parked ++ sub'.wakeUp.woken).length ≤ 1 :=
    wakeUp_parked (by rw [hparked, hwoken]; exact h.one) (by rw [hparked, hwake]; exact h.wake)
  obtain ⟨hattached, hdone⟩ := wakeUp_fields sub'
  refine ⟨hone, by simp [hempty], by simp [hempty], ?_⟩
  rw [hattached, hdone]
  exact hdetached

/-! ## Watches -/

/-- The subscribers of one watch. -/
structure EndsWell (w : Watch V E) : Prop where
  subs : ∀ sub ∈ w.subs, PulledInTurn sub
  ended : w.loop = .ended → ∀ sub ∈ w.subs, sub.done = true

section

variable {w w' : Watch V E} {i : Nat}

theorem ended_stop : w.stop.loop = .ended ↔ w.loop = .ended := by
  simp only [Watch.stop]
  split
  · rename_i h
    simp [h]
  · rfl

theorem ended_drop : (w.drop i).loop = .ended ↔ w.loop = .ended := by
  unfold Watch.drop
  split
  · simp only
    split
    · split
      · rfl
      · exact ended_stop
    · rfl
  · rfl

theorem EndsWell.drop (h : EndsWell w) : EndsWell (w.drop i) := by
  constructor
  · refine Watch.forall_drop h.subs ?_ ?_
    · intro sub hsub
      have hwoken : PulledInTurn { sub with done := true }.wakeUp :=
        hsub.wakeUp rfl rfl rfl (fun _ => rfl)
      refine { hwoken with detached := ?_ }
      intro _
      exact (wakeUp_fields _).2
    · intro sub hsub _
      exact hsub.wakeUp rfl rfl rfl (fun _ => rfl)
  · intro hended
    have hdone := h.ended (ended_drop.1 hended)
    refine Watch.forall_drop hdone ?_ ?_
    · intro sub _
      exact (wakeUp_fields _).2
    · intro sub _ _
      exact (wakeUp_fields _).2

/-- A value, a failure or the end reaches every attached subscriber. -/
theorem EndsWell.deliverAll {f : Subscriber V E → Subscriber V E} (h : EndsWell w)
    (hf : ∀ sub : Subscriber V E, PulledInTurn sub → sub.attached = true → PulledInTurn (f sub))
    (hdone : ∀ sub : Subscriber V E, sub.done = true → (f sub).done = true) :
    EndsWell (w.deliverAll f) := by
  constructor
  · exact Watch.forall_deliverAll h.subs hf
  · intro hended
    exact Watch.forall_deliverAll (h.ended hended) fun sub hsub _ => hdone sub hsub

variable {sub : Subscriber V E}

theorem PulledInTurn.push (h : PulledInTurn sub) (v : V) :
    PulledInTurn (sub.push v) := h.wakeUp rfl rfl rfl h.detached

theorem PulledInTurn.fail (h : PulledInTurn sub) (e : E) :
    PulledInTurn (sub.fail e) := h.wakeUp rfl rfl rfl h.detached

theorem PulledInTurn.finish (h : PulledInTurn sub) :
    PulledInTurn sub.finish := h.wakeUp rfl rfl rfl (fun _ => rfl)

section

variable (h : EndsWell w)
include h

theorem EndsWell.fail (e : E) : EndsWell (w.fail e) :=
  h.deliverAll (fun _ hsub _ => hsub.fail e) fun _ hsub => (wakeUp_fields _).2.trans hsub

theorem EndsWell.push (v : V) : EndsWell (w.push v) := by
  have hpush := h.deliverAll (f := (·.push v)) (fun _ hsub _ => hsub.push v)
    fun _ hsub => (wakeUp_fields _).2.trans hsub
  exact ⟨hpush.subs, hpush.ended⟩

/-- The end of the loop: the attached subscribers are done, and the others were. -/
theorem EndsWell.finish : EndsWell w.finish := by
  constructor
  · exact Watch.forall_deliverAll h.subs fun _ hsub _ => hsub.finish
  · intro _ sub hsub
    obtain ⟨old, hold, rfl⟩ := List.mem_map.1 hsub
    split
    · exact (wakeUp_fields _).2
    · rename_i hattached
      exact (h.subs old hold).detached (by simpa using hattached)

/-- A step that leaves the subscribers alone and does not end the loop. -/
theorem EndsWell.congr (hsubs : w'.subs = w.subs)
    (hloop : w'.loop = .ended → w.loop = .ended) : EndsWell w' := by
  constructor
  · rw [hsubs]
    exact h.subs
  · intro hended
    rw [hsubs]
    exact h.ended (hloop hended)

/-- One call of `next()` that is the only one under way, or that need not park. -/
theorem EndsWell.next {pull : Nat} {old : Subscriber V E}
    (hget : w.subs[i]? = some old) (hsub : PulledInTurn sub)
    (hdone : old.done = true → sub.done = true)
    (halone : sub.Ready ∨ (sub.parked = [] ∧ sub.woken = [])) : EndsWell (w.next i pull sub) := by
  have hset : ∀ {sub' : Subscriber V E}, PulledInTurn sub' →
      (old.done = true → sub'.done = true) → EndsWell { w with subs := w.subs.set i sub' } := by
    intro sub' hsub' hdone'
    constructor
    · exact Watch.forall_set h.subs hsub'
    · intro hended
      exact Watch.forall_set (h.ended hended)
        (hdone' (h.ended hended old (List.mem_of_getElem? hget)))
  unfold Watch.next
  split
  · rename_i v queue hqueue
    refine hset { hsub with idle := ?_ } hdone
    intro hparked
    exact absurd (.inl (by simp [hqueue])) (hsub.idle hparked)
  · rename_i hqueue
    split
    · rename_i hfailed
      have hparked : sub.parked = [] := by
        cases hp : sub.parked with
        | nil => rfl
        | cons _ _ => exact absurd (.inr (.inl hfailed)) (hsub.idle (by simp [hp]))
      have hcleared : EndsWell { w with subs := w.subs.set i { sub with failed := none } } :=
        hset { hsub with idle := fun hne => absurd hparked hne } hdone
      exact hcleared.drop
    · rename_i hfailed
      split
      · exact (hset hsub hdone).drop
      rename_i hnotDone
      have hnotReady : ¬ sub.Ready := by
        rintro (hq | hf | hd)
        · exact hq hqueue
        · exact hfailed hf
        · exact hnotDone hd
      rcases halone with hready | ⟨hparked, hwoken⟩
      · exact absurd hready hnotReady
      · refine hset ⟨by simp [hparked, hwoken], by simp [hparked], fun _ => hnotReady,
          hsub.detached⟩ hdone

theorem EndsWell.pull
    (halone : ∀ sub, w.subs[i]? = some sub → sub.Ready ∨ (sub.parked = [] ∧ sub.woken = []))
    (hstep : w.pull i = some w') : EndsWell w' := by
  unfold Watch.pull at hstep
  split at hstep
  · rename_i sub hget
    cases hstep
    have hsub := h.subs sub (List.mem_of_getElem? hget)
    exact h.next hget { hsub with } id (halone sub hget)
  · simp at hstep

theorem EndsWell.goOn {pull : Nat} (hstep : w.goOn i pull = some w') : EndsWell w' := by
  unfold Watch.goOn at hstep
  split at hstep
  · rename_i sub hget
    obtain ⟨hmem, rfl⟩ := guard_taken hstep
    have hsub := h.subs sub (List.mem_of_getElem? hget)
    have hone := hsub.one
    obtain ⟨q, hq⟩ : ∃ q, sub.woken = [q] := by
      have hpos := List.length_pos_of_mem hmem
      rw [List.length_append] at hone
      exact List.length_eq_one_iff.1 (by omega)
    have hparked : sub.parked = [] := by
      rw [hq] at hone
      simpa using hone
    rw [hq] at hmem
    obtain rfl := List.mem_singleton.1 hmem
    have hwoken : sub.woken.erase pull = [] := by simp [hq]
    refine h.next hget ⟨by simp [hparked, hwoken], by simp [hparked], by simp [hparked],
      hsub.detached⟩ id (.inr ⟨hparked, hwoken⟩)
  · simp at hstep

theorem EndsWell.loopHead : EndsWell w.loopHead := by
  unfold Watch.loopHead
  split
  · exact h.finish
  · exact h.congr rfl (by simp)

theorem EndsWell.changed (hstep : w.changed = some w') : EndsWell w' := by
  obtain ⟨-, rfl⟩ := guard_taken hstep
  split
  · exact h.finish
  · exact h.congr rfl (by simp)

theorem EndsWell.settled (hstep : w.settled = some w') : EndsWell w' := by
  obtain ⟨-, rfl⟩ := guard_taken hstep
  split
  · exact h.finish
  · exact h.congr rfl (by simp)

theorem EndsWell.readDone {fingerprint : V → Option String} {v : V}
    (hstep : w.readDone fingerprint v = some w') : EndsWell w' := by
  unfold Watch.readDone at hstep
  split at hstep
  · cases hstep
    refine EndsWell.loopHead ?_
    unfold Watch.deliver
    split
    · exact h.congr rfl id
    · have hprint : EndsWell { w with print := fingerprint v } := h.congr rfl id
      exact (hprint.push v).congr rfl id
  · simp at hstep

theorem EndsWell.readFails {e : E} (hstep : w.readFails e = some w') : EndsWell w' := by
  unfold Watch.readFails at hstep
  split at hstep
  · cases hstep
    split
    · exact h.finish
    · exact (h.fail e).finish
  · simp at hstep

end

theorem ended_wakeLoop : w.wakeLoop.loop = .ended ↔ w.loop = .ended := by
  simp only [Watch.wakeLoop]
  split
  · rename_i h
    simp [h]
  · rfl

theorem EndsWell.pump (h : EndsWell w) (hstep : w.pump = some w') : EndsWell w' := by
  obtain ⟨-, hstep⟩ := guard_passed hstep
  simp only at hstep
  split at hstep
  · cases hstep
    exact h.congr rfl id
  · cases hstep
    exact h.congr rfl ended_wakeLoop.1

theorem EndsWell.pumpFails {e : E} (h : EndsWell w) (hstep : w.pumpFails e = some w') :
    EndsWell w' := by
  obtain ⟨-, rfl⟩ := guard_taken hstep
  have hclosed : EndsWell { w with pumping := false, feedClosed := true } := h.congr rfl id
  split
  · exact hclosed
  · exact hclosed.fail e

/-- A subscriber whose signal was aborted is in the list, and gone. -/
theorem subs_subscribe_aborted : ∃ sub : Subscriber V E, PulledInTurn sub ∧ sub.done = true ∧
    (w.subscribe true).subs = w.subs ++ [sub] := by
  have hwoken : PulledInTurn ({ queue := w.last.toList, done := true } : Subscriber V E).wakeUp :=
    (PulledInTurn.initial w.last).wakeUp rfl rfl rfl (fun _ => rfl)
  have hdone : ({ queue := w.last.toList, done := true } : Subscriber V E).wakeUp.done = true :=
    (wakeUp_fields _).2
  refine ⟨{ ({ queue := w.last.toList, done := true } : Subscriber V E).wakeUp with
    attached := false }, { hwoken with detached := fun _ => hdone }, hdone, ?_⟩
  simp only [Watch.subscribe, Watch.drop, if_true, List.getElem?_append_right (Nat.le_refl _),
    Nat.sub_self, List.getElem?_cons_zero]
  split <;> simp

/-- A subscriber that joins a running watch, or that is gone at once. -/
theorem EndsWell.subscribe (h : EndsWell w) {aborted : Bool}
    (hrunning : aborted = true ∨ w.loop ≠ .ended) : EndsWell (w.subscribe aborted) := by
  cases aborted with
  | true =>
    obtain ⟨joined, hjoined, hdone, hsubs⟩ := subs_subscribe_aborted (w := w)
    constructor
    · rw [hsubs]
      intro sub hsub
      rcases List.mem_append.1 hsub with hsub | hsub
      · exact h.subs sub hsub
      · exact List.mem_singleton.1 hsub ▸ hjoined
    · rw [hsubs]
      intro hended sub hsub
      have hloop : w.loop = .ended := by
        have hjoined := (ended_drop (w := { w with subs := w.subs ++ [{ queue := w.last.toList }] })
          (i := w.subs.length)).1 hended
        exact hjoined
      rcases List.mem_append.1 hsub with hsub | hsub
      · exact h.ended hloop sub hsub
      · exact List.mem_singleton.1 hsub ▸ hdone
  | false =>
    constructor
    · intro sub hsub
      rcases List.mem_append.1 hsub with hsub | hsub
      · exact h.subs sub hsub
      · exact List.mem_singleton.1 hsub ▸ PulledInTurn.initial w.last
    · intro hended
      rcases hrunning with haborted | hloop
      · simp at haborted
      · exact absurd hended hloop

/-- Whichever event it is: the claim of one watch is kept. -/
theorem EndsWell.step {fingerprint : V → Option String} {e : WatchEvent V E} (h : EndsWell w)
    (halone : ∀ j, e = .pull j → ∀ sub, w.subs[j]? = some sub →
      sub.Ready ∨ (sub.parked = [] ∧ sub.woken = []))
    (hstep : w.step fingerprint e = some w') : EndsWell w' := by
  cases e with
  | pull j => exact h.pull (halone j rfl) hstep
  | goOn j pull => exact h.goOn hstep
  | leave j =>
    obtain ⟨-, rfl⟩ := guard_taken hstep
    exact h.drop
  | notify =>
    obtain ⟨-, rfl⟩ := guard_past_taken hstep
    exact h.congr rfl id
  | pump => exact h.pump hstep
  | closeFeed =>
    cases hstep
    exact h.congr rfl id
  | pumpEnds =>
    obtain ⟨-, rfl⟩ := guard_taken hstep
    exact h.congr rfl id
  | pumpFails e => exact h.pumpFails hstep
  | changed => exact h.changed hstep
  | settled => exact h.settled hstep
  | readDone v => exact h.readDone hstep
  | readFails e => exact h.readFails hstep

end

/-! ## The watches of the key -/

section

variable {fingerprint : V → Option String}

/-- No one joins a watch whose loop has ended, and no `next()` parks beside one that is
under way. -/
def JoinsRunning (s : WatchKeyState V E) : WatchLabel V E → Prop
  | .subscribe aborted =>
      aborted = true ∨ ∀ w ∈ s.entry.bind (s.watches[·]?), w.loop ≠ .ended
  | .watch k (.pull i) =>
      ∀ sub ∈ s.watches[k]?.bind (·.subs[i]?), sub.Ready ∨ (sub.parked = [] ∧ sub.woken = [])
  | _ => True

instance (s : WatchKeyState V E) (l : WatchLabel V E) : Decidable (JoinsRunning s l) := by
  unfold JoinsRunning
  split <;> infer_instance

variable {s : WatchKeyState V E}

theorem EndsWell.setWatch {k : Nat} {old w : Watch V E} (h : ∀ w ∈ s.watches, EndsWell w)
    (hw : EndsWell w) : ∀ w' ∈ (s.setWatch k old w).watches, EndsWell w' := by
  intro w' hmem
  rcases List.mem_or_eq_of_mem_set hmem with hmem | rfl
  · exact h w' hmem
  · exact hw

/-- The watch that a subscriber gets is the entry, or is new and runs. -/
theorem resolveWatch_spec {w : Watch V E}
    (hw : s.resolveWatch.1.watches[s.resolveWatch.2]? = some w) :
    (s.resolveWatch.1 = s ∧ s.entry = some s.resolveWatch.2) ∨
      (w = { subs := [] } ∧ s.resolveWatch.1.watches = s.watches ++ [{ subs := [] }]) := by
  unfold WatchKeyState.resolveWatch at hw ⊢
  split
  · rename_i k hentry
    exact .inl ⟨rfl, hentry⟩
  · rename_i hentry
    rw [hentry] at hw
    simp only [List.getElem?_append_right (Nat.le_refl _), Nat.sub_self,
      List.getElem?_cons_zero] at hw
    exact .inr ⟨(Option.some.inj hw).symm, rfl⟩

theorem EndsWell.new : EndsWell ({ subs := [] } : Watch V E) := ⟨by simp, by simp⟩

theorem endsWell_step {t : WatchKeyState V E} {l : WatchLabel V E}
    (h : ∀ w ∈ s.watches, EndsWell w) (hok : JoinsRunning s l)
    (hstep : s.step fingerprint l = some t) : ∀ w ∈ t.watches, EndsWell w := by
  cases l with
  | subscribe aborted =>
    simp only [WatchKeyState.step] at hstep
    split at hstep
    · rename_i w hw
      cases hstep
      rcases resolveWatch_spec hw with ⟨hsame, hentry⟩ | ⟨rfl, hnew⟩
      · have hmem := List.mem_of_getElem? hw
        rw [hsame] at hw hmem ⊢
        refine EndsWell.setWatch h ((h w hmem).subscribe ?_)
        rcases hok with haborted | hrunning
        · exact .inl haborted
        · exact .inr (hrunning w (by simp [hentry, hw]))
      · refine EndsWell.setWatch ?_ (EndsWell.new.subscribe (.inr (by simp)))
        rw [hnew]
        intro w hmem
        rcases List.mem_append.1 hmem with hmem | hmem
        · exact h w hmem
        · exact List.mem_singleton.1 hmem ▸ EndsWell.new
    · simp at hstep
  | watch k e =>
    simp only [WatchKeyState.step] at hstep
    split at hstep
    · rename_i w hw
      split at hstep
      · rename_i w' hw'
        cases hstep
        refine EndsWell.setWatch h ((h w (List.mem_of_getElem? hw)).step ?_ hw')
        rintro j rfl sub hsub
        exact hok sub (by simp [hw, hsub])
      · simp at hstep
    · simp at hstep

/-- Every subscriber is over and was told, or belongs to a running loop. -/
def Terminated (s : WatchKeyState V E) : Prop :=
  ∀ w ∈ s.watches, ∀ sub ∈ w.subs,
    (sub.done = true ∧ sub.parked = []) ∨ (sub.attached = true ∧ w.loop ≠ .ended)

theorem EndsWell.terminated {w : Watch V E} (h : EndsWell w) {sub : Subscriber V E}
    (hsub : sub ∈ w.subs) :
    (sub.done = true ∧ sub.parked = []) ∨ (sub.attached = true ∧ w.loop ≠ .ended) := by
  have hin := h.subs sub hsub
  have hdone : sub.done = true → sub.done = true ∧ sub.parked = [] := by
    intro hdone
    refine ⟨hdone, ?_⟩
    cases hp : sub.parked with
    | nil => rfl
    | cons _ _ => exact absurd (.inr (.inr hdone)) (hin.idle (by simp [hp]))
  cases hattached : sub.attached with
  | false => exact .inl (hdone (hin.detached hattached))
  | true =>
    by_cases hloop : w.loop = .ended
    · exact .inl (hdone (h.ended hloop sub hsub))
    · exact .inr ⟨rfl, hloop⟩

/-- **Termination.**  Where no one joins an ended watch and the calls of `next()` do not
overlap, every subscriber of the key's watches has been told of the end, or its loop
runs. -/
theorem sharedWatches_terminated {s : WatchKeyState V E}
    (h : (sharedWatches fingerprint).Reach JoinsRunning s) : Terminated s := by
  have hwell : ∀ w ∈ s.watches, EndsWell w := by
    refine h.invariant (I := fun s => ∀ w ∈ s.watches, EndsWell w) ?_ ?_
    · rintro _ rfl
      simp
    · intro _ _ _ hs hok hstep
      exact endsWell_step hs hok hstep
  exact fun w hw sub hsub => (hwell w hw).terminated hsub

end

/-- A read, a change, a second subscriber, and a read that fails; the first subscriber
is parked when it does. -/
def failedReadRun : List (WatchLabel Nat Nat) :=
  [.subscribe false, .watch 0 (.readDone 5), .watch 0 (.pull 0), .watch 0 (.pull 0),
    .subscribe false, .watch 0 .notify, .watch 0 .pump, .watch 0 .changed, .watch 0 .settled,
    .watch 0 (.readFails 1), .watch 0 (.goOn 0 1), .watch 0 (.pull 1), .watch 0 (.pull 1),
    .subscribe false]

def failedReadEnd : WatchKeyState Nat Nat :=
  ((sharedWatches fun v => some (toString v)).exec JoinsRunning { watches := [], entry := none }
    failedReadRun).get (by decide)

theorem sharedWatches_terminated_failedRead :
    failedReadEnd.watches.map (·.loop) = [.ended, .reading true] ∧ Terminated failedReadEnd := by
  have hstart : (sharedWatches (E := Nat) fun v : Nat => some (toString v)).Reach JoinsRunning
      { watches := [], entry := none } := .start rfl
  exact ⟨by decide, sharedWatches_terminated (hstart.exec_get failedReadRun (by decide))⟩

/-- The first read fails; until the subscriber has pulled the failure, another one joins
the same watch and parks on it. -/
theorem not_terminated :
    ¬ ∀ s, (sharedWatches (E := Nat) fun v : Nat => some (toString v)).Reachable s →
      Terminated s := by
  have hstart : (sharedWatches (E := Nat) fun v : Nat => some (toString v)).Reachable
      { watches := [], entry := none } := .start rfl
  intro h
  have hlate := h _ (hstart.exec_get [.subscribe false, .watch 0 (.readFails 1), .subscribe false,
    .watch 0 (.pull 1)] (by decide))
  have hparked := hlate _ (List.mem_of_getElem? (i := 0) rfl) _ (List.mem_of_getElem? (i := 1) rfl)
  exact absurd hparked (by decide)

end SigxActors.Host
