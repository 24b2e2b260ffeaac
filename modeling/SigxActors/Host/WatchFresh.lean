/-
  Host/WatchFresh.lean --- a shared watch does not lose the last change.

  A change that no read has seen is somewhere: it is a tick in the feed, or the dirty
  flag is up.  The flag is cleared in the step that invokes the next read, and the loop
  parks only where it is down, so a parked loop has read after every tick it was given.
  What it read was pushed to every subscriber, or has the fingerprint of what was.
-/
import SigxActors.Host.Watch

set_option autoImplicit false

namespace SigxActors.Host

variable {V E : Type} {fingerprint : V → Option String}

/-! ## Changes -/

/-- No change is forgotten, and the loop is not parked on one. -/
structure ChangesKept (w : Watch V E) : Prop where
  /-- With the flag down, the pump took every tick before the last read began. -/
  seen : w.stopped = false → w.dirty = false → w.taken ≤ w.sawTaken
  /-- A change that the last read did not follow is a tick or the flag. -/
  known : w.stopped = false → w.dirty = true ∨ 0 < w.feed ∨ w.notified ≤ w.saw
  parked : w.loop = .waiting false → w.dirty = false ∧ w.stopped = false
  read : w.loop = .reading true ∨ w.loop = .ended ∨ w.lastRead.isSome

theorem ChangesKept.new : ChangesKept ({ subs := [] } : Watch V E) :=
  ⟨by simp, by simp, by simp, by simp⟩

variable {sub : Subscriber V E}

section

variable {w w' : Watch V E} {i : Nat}

section

variable (h : ChangesKept w)
include h

/-- A step that touches only the subscribers, the fingerprint or the value. -/
theorem ChangesKept.congr (hloop : w'.loop = w.loop)
    (hflags : w'.stopped = w.stopped ∧ w'.dirty = w.dirty)
    (hcounts : w'.taken = w.taken ∧ w'.sawTaken = w.sawTaken ∧ w'.feed = w.feed ∧
      w'.notified = w.notified ∧ w'.saw = w.saw)
    (hread : w.lastRead.isSome → w'.lastRead.isSome) : ChangesKept w' := by
  obtain ⟨hstopped, hdirty⟩ := hflags
  obtain ⟨htaken, hsawTaken, hfeed, hnotified, hsaw⟩ := hcounts
  refine ⟨?_, ?_, ?_, ?_⟩
  · rw [hstopped, hdirty, htaken, hsawTaken]
    exact h.seen
  · rw [hstopped, hdirty, hfeed, hnotified, hsaw]
    exact h.known
  · rw [hloop, hstopped, hdirty]
    exact h.parked
  · rw [hloop]
    exact h.read.imp_right (Or.imp_right hread)

theorem ChangesKept.stop : ChangesKept w.stop := by
  refine ⟨by simp [Watch.stop], by simp [Watch.stop], ?_, ?_⟩
  · simp only [Watch.stop]
    split
    · simp
    · exact fun hloop => absurd hloop ‹_›
  · simp only [Watch.stop]
    split
    · rename_i hloop
      have hread := h.read
      rw [hloop] at hread
      simpa using hread
    · exact h.read

theorem ChangesKept.drop : ChangesKept (w.drop i) := by
  have hsubs : ∀ subs : List (Subscriber V E), ChangesKept { w with subs := subs } :=
    fun _ => h.congr rfl ⟨rfl, rfl⟩ ⟨rfl, rfl, rfl, rfl, rfl⟩ id
  unfold Watch.drop
  split
  · simp only
    split
    · split
      · exact hsubs _
      · exact (hsubs _).stop
    · exact hsubs _
  · exact h

/-- A value, a failure or the end for the subscribers. -/
theorem ChangesKept.deliverAll {f : Subscriber V E → Subscriber V E} :
    ChangesKept (w.deliverAll f) :=
  h.congr rfl ⟨rfl, rfl⟩ ⟨rfl, rfl, rfl, rfl, rfl⟩ id

theorem ChangesKept.finish : ChangesKept w.finish :=
  ⟨h.seen, h.known, by simp [Watch.finish], .inr (.inl rfl)⟩

theorem ChangesKept.next {pull : Nat} : ChangesKept (w.next i pull sub) := by
  have hsubs : ∀ subs : List (Subscriber V E), ChangesKept { w with subs := subs } :=
    fun _ => h.congr rfl ⟨rfl, rfl⟩ ⟨rfl, rfl, rfl, rfl, rfl⟩ id
  unfold Watch.next
  split
  · exact hsubs _
  split
  · exact (hsubs _).drop
  split
  · exact (hsubs _).drop
  · exact hsubs _

theorem ChangesKept.subscribe {aborted : Bool} : ChangesKept (w.subscribe aborted) := by
  have hjoined : ChangesKept { w with subs := w.subs ++ [{ queue := w.last.toList }] } :=
    h.congr rfl ⟨rfl, rfl⟩ ⟨rfl, rfl, rfl, rfl, rfl⟩ id
  cases aborted with
  | true => exact hjoined.drop
  | false => exact hjoined

/-- The loop goes on to the head, with a read behind it. -/
theorem ChangesKept.loopHead (hread : w.lastRead.isSome) : ChangesKept w.loopHead := by
  unfold Watch.loopHead
  split
  · exact h.finish
  rename_i hstopped
  refine ⟨h.seen, h.known, ?_, .inr (.inr hread)⟩
  intro hloop
  exact ⟨by simpa using hloop, by simpa using hstopped⟩

end

/-! ### The events -/

section

variable (h : ChangesKept w)
include h

theorem ChangesKept.notify (hstep : w.notify = some w') : ChangesKept w' := by
  obtain ⟨-, rfl⟩ := guard_past_taken hstep
  refine { h with known := fun _ => .inr (.inl ?_) }
  simp only [changeBuffer]
  omega

/-- A tick becomes the flag, in the step that wakes the loop. -/
theorem ChangesKept.pump (hstep : w.pump = some w') : ChangesKept w' := by
  obtain ⟨-, hstep⟩ := guard_passed hstep
  simp only at hstep
  split at hstep
  · rename_i hstopped
    cases hstep
    refine ⟨?_, ?_, h.parked, h.read⟩ <;> simp [hstopped]
  · cases hstep
    refine ⟨by simp [Watch.wakeLoop], fun _ => .inl rfl, ?_, ?_⟩
    · simp only [Watch.wakeLoop]
      split
      · simp
      · exact fun hloop => absurd hloop ‹_›
    · simp only [Watch.wakeLoop]
      split
      · rename_i hloop
        have hread := h.read
        rw [hloop] at hread
        simpa using hread
      · exact h.read

theorem ChangesKept.pumpFails {e : E} (hstep : w.pumpFails e = some w') : ChangesKept w' := by
  obtain ⟨-, rfl⟩ := guard_taken hstep
  have hclosed : ChangesKept { w with pumping := false, feedClosed := true } :=
    h.congr rfl ⟨rfl, rfl⟩ ⟨rfl, rfl, rfl, rfl, rfl⟩ id
  split
  · exact hclosed
  · exact hclosed.deliverAll

theorem ChangesKept.changed (hstep : w.changed = some w') : ChangesKept w' := by
  obtain ⟨hloop, rfl⟩ := guard_taken hstep
  have hread := h.read
  rw [hloop] at hread
  split
  · exact h.finish
  · exact ⟨h.seen, h.known, by simp, by simpa using hread⟩

/-- The flag is cleared and the read begins, in one step. -/
theorem ChangesKept.settled (hstep : w.settled = some w') : ChangesKept w' := by
  obtain ⟨hloop, rfl⟩ := guard_taken hstep
  have hread := h.read
  rw [hloop] at hread
  split
  · exact h.finish
  · refine ⟨fun _ _ => Nat.le_refl _, fun _ => .inr (.inr (Nat.le_refl _)), by simp, ?_⟩
    simpa using hread

theorem ChangesKept.readDone {v : V}
    (hstep : w.readDone fingerprint v = some w') : ChangesKept w' := by
  unfold Watch.readDone at hstep
  split at hstep
  · cases hstep
    refine ChangesKept.loopHead ?_ rfl
    unfold Watch.deliver
    split <;> exact h.congr rfl ⟨rfl, rfl⟩ ⟨rfl, rfl, rfl, rfl, rfl⟩ (fun _ => rfl)
  · simp at hstep

theorem ChangesKept.readFails {e : E} (hstep : w.readFails e = some w') : ChangesKept w' := by
  unfold Watch.readFails at hstep
  split at hstep
  · cases hstep
    split
    · exact h.finish
    · exact h.deliverAll.finish
  · simp at hstep

theorem ChangesKept.step {e : WatchEvent V E}
    (hstep : w.step fingerprint e = some w') : ChangesKept w' := by
  cases e with
  | pull j =>
    simp only [Watch.step, Watch.pull] at hstep
    split at hstep
    · cases hstep
      exact h.next
    · simp at hstep
  | goOn j pull =>
    simp only [Watch.step, Watch.goOn] at hstep
    split at hstep
    · split at hstep
      · cases hstep
        exact h.next
      · simp at hstep
    · simp at hstep
  | leave j =>
    obtain ⟨-, rfl⟩ := guard_taken hstep
    exact h.drop
  | notify => exact h.notify hstep
  | pump => exact h.pump hstep
  | closeFeed =>
    cases hstep
    exact h.congr rfl ⟨rfl, rfl⟩ ⟨rfl, rfl, rfl, rfl, rfl⟩ id
  | pumpEnds =>
    obtain ⟨-, rfl⟩ := guard_taken hstep
    exact h.congr rfl ⟨rfl, rfl⟩ ⟨rfl, rfl, rfl, rfl, rfl⟩ id
  | pumpFails e => exact h.pumpFails hstep
  | changed => exact h.changed hstep
  | settled => exact h.settled hstep
  | readDone v => exact h.readDone hstep
  | readFails e => exact h.readFails hstep

end

end

/-! ## Values -/

/-- The wire carries the same for the two: a read that returns `r` need not be pushed
after `v`. -/
def SameDelivery (fingerprint : V → Option String) (v r : V) : Prop :=
  v = r ∨ ((fingerprint v).isSome ∧ fingerprint v = fingerprint r)

/-- What a subscriber was given, and has yet to pull, ends with the value last pushed. -/
def EndsWith (last : Option V) (sub : Subscriber V E) : Prop :=
  sub.attached = true → (sub.received ++ sub.queue).getLast? = last

structure SubscribersFed (fingerprint : V → Option String) (w : Watch V E) : Prop where
  ends : ∀ sub ∈ w.subs, EndsWith w.last sub
  print : w.print = w.last.bind fingerprint
  same : ∀ r, w.lastRead = some r → ∃ v, w.last = some v ∧ SameDelivery fingerprint v r

theorem SubscribersFed.new : SubscribersFed fingerprint ({ subs := [] } : Watch V E) :=
  ⟨by simp, by simp, by simp⟩

theorem EndsWith.wakeUp {last : Option V} (h : EndsWith last sub) :
    EndsWith last sub.wakeUp := by
  unfold Subscriber.wakeUp
  split
  · split <;> exact h
  · exact h

/-- The last of a list is still there when the first one is dropped for the bound. -/
theorem getLast?_bounded (received queue : List V) (v : V) :
    (received ++ if watchBuffer < (queue ++ [v]).length then (queue ++ [v]).tail
      else queue ++ [v]).getLast? = some v := by
  split
  · rename_i hlong
    cases queue with
    | nil => simp [watchBuffer] at hlong
    | cons head rest => simp [← List.append_assoc]
  · simp [← List.append_assoc]

theorem EndsWith.push (v : V) : EndsWith (some v) (sub.push v) := by
  refine EndsWith.wakeUp ?_
  intro _
  exact getLast?_bounded sub.received sub.queue v

section

variable {w w' : Watch V E} {i : Nat}

section

variable (h : SubscribersFed fingerprint w)
include h

/-- A step that leaves the subscribers and the values alone. -/
theorem SubscribersFed.congr (hsubs : w'.subs = w.subs)
    (hlast : w'.last = w.last ∧ w'.print = w.print ∧ w'.lastRead = w.lastRead) :
    SubscribersFed fingerprint w' := by
  obtain ⟨hlast, hprint, hread⟩ := hlast
  refine ⟨?_, ?_, ?_⟩
  · rw [hsubs, hlast]
    exact h.ends
  · rw [hprint, hlast]
    exact h.print
  · rw [hread, hlast]
    exact h.same

theorem SubscribersFed.drop : SubscribersFed fingerprint (w.drop i) := by
  have hfields : (w.drop i).last = w.last ∧ (w.drop i).print = w.print ∧
      (w.drop i).lastRead = w.lastRead := by
    unfold Watch.drop
    split
    · simp only
      split
      · split <;> exact ⟨rfl, rfl, rfl⟩
      · exact ⟨rfl, rfl, rfl⟩
    · exact ⟨rfl, rfl, rfl⟩
  obtain ⟨hlast, hprint, hread⟩ := hfields
  refine ⟨?_, ?_, ?_⟩
  · rw [hlast]
    refine Watch.forall_drop h.ends ?_ ?_
    · intro sub _ hattached
      simp at hattached
    · intro sub hsub _
      exact EndsWith.wakeUp hsub
  · rw [hprint, hlast]
    exact h.print
  · rw [hread, hlast]
    exact h.same

/-- What reaches the subscribers without being a value: a failure, or the end. -/
theorem SubscribersFed.deliverAll {f : Subscriber V E → Subscriber V E}
    (hf : ∀ sub : Subscriber V E, EndsWith w.last sub → EndsWith w.last (f sub)) :
    SubscribersFed fingerprint (w.deliverAll f) :=
  ⟨Watch.forall_deliverAll h.ends fun sub hsub _ => hf sub hsub, h.print, h.same⟩

theorem SubscribersFed.fail (e : E) : SubscribersFed fingerprint (w.fail e) := by
  refine h.deliverAll ?_
  intro sub hsub
  have hfailed : EndsWith w.last { sub with failed := some e } := hsub
  exact hfailed.wakeUp

theorem SubscribersFed.finish : SubscribersFed fingerprint w.finish := by
  have hfinished : SubscribersFed fingerprint (w.deliverAll (·.finish)) := by
    refine h.deliverAll ?_
    intro sub hsub
    have hdone : EndsWith w.last { sub with done := true } := hsub
    exact hdone.wakeUp
  exact hfinished.congr rfl ⟨rfl, rfl, rfl⟩

/-- One subscriber changes to one that still ends with the last value. -/
theorem SubscribersFed.set
    (hsub : EndsWith w.last sub) :
    SubscribersFed fingerprint { w with subs := w.subs.set i sub } :=
  ⟨Watch.forall_set h.ends hsub, h.print, h.same⟩

/-- A value that is pulled moves from the queue to what was received. -/
theorem SubscribersFed.next {pull : Nat} (hsub : EndsWith w.last sub) :
    SubscribersFed fingerprint (w.next i pull sub) := by
  unfold Watch.next
  split
  · rename_i v queue hqueue
    refine h.set ?_
    intro hattached
    have hends := hsub hattached
    rw [hqueue] at hends
    simpa using hends
  · split
    · let cleared : Subscriber V E := { sub with failed := none }
      have hcleared : EndsWith w.last cleared := hsub
      exact (h.set hcleared).drop
    · split
      · exact (h.set hsub).drop
      · exact h.set hsub

theorem SubscribersFed.subscribe {aborted : Bool} :
    SubscribersFed fingerprint (w.subscribe aborted) := by
  have hjoined : SubscribersFed fingerprint
      { w with subs := w.subs ++ [{ queue := w.last.toList }] } := by
    refine ⟨?_, h.print, h.same⟩
    intro sub hsub
    rcases List.mem_append.1 hsub with hsub | hsub
    · exact h.ends sub hsub
    obtain rfl := List.mem_singleton.1 hsub
    intro _
    cases hlast : w.last with
    | none | some => simp
  cases aborted with
  | true => exact hjoined.drop
  | false => exact hjoined

/-- A value is pushed, or has the fingerprint of the last one that was. -/
theorem SubscribersFed.deliver {v : V} {initial : Bool} :
    SubscribersFed fingerprint { w.deliver fingerprint v initial with lastRead := some v } := by
  unfold Watch.deliver
  split
  · rename_i hsuppressed
    obtain ⟨_, hsome, hprint⟩ := hsuppressed
    refine ⟨h.ends, h.print, ?_⟩
    rintro r hr
    cases hr
    rw [h.print] at hprint
    cases hlast : w.last with
    | none =>
      rw [hlast] at hprint
      rw [hprint] at hsome
      simp at hsome
    | some last =>
      rw [hlast] at hprint
      have hsame : fingerprint last = fingerprint v := hprint.symm
      exact ⟨last, rfl, .inr ⟨hsame ▸ hsome, hsame⟩⟩
  · refine ⟨?_, rfl, ?_⟩
    · intro sub hsub
      obtain ⟨old, hold, rfl⟩ := List.mem_map.1 hsub
      split
      · exact EndsWith.push v
      · rename_i hdetached
        exact fun hattached => absurd hattached hdetached
    · rintro r hr
      exact ⟨v, rfl, .inl (Option.some.inj hr)⟩

theorem SubscribersFed.step {e : WatchEvent V E}
    (hstep : w.step fingerprint e = some w') : SubscribersFed fingerprint w' := by
  cases e with
  | pull j =>
    simp only [Watch.step, Watch.pull] at hstep
    split at hstep
    · rename_i sub hsub
      cases hstep
      exact h.next (h.ends sub (List.mem_of_getElem? hsub))
    · simp at hstep
  | goOn j pull =>
    simp only [Watch.step, Watch.goOn] at hstep
    split at hstep
    · rename_i sub hsub
      obtain ⟨-, rfl⟩ := guard_taken hstep
      exact h.next (h.ends sub (List.mem_of_getElem? hsub))
    · simp at hstep
  | leave j =>
    obtain ⟨-, rfl⟩ := guard_taken hstep
    exact h.drop
  | notify =>
    obtain ⟨-, rfl⟩ := guard_past_taken hstep
    exact h.congr rfl ⟨rfl, rfl, rfl⟩
  | pump =>
    obtain ⟨-, hstep⟩ := guard_passed hstep
    split at hstep
    all_goals
      cases hstep
      exact h.congr rfl ⟨rfl, rfl, rfl⟩
  | closeFeed =>
    cases hstep
    exact h.congr rfl ⟨rfl, rfl, rfl⟩
  | pumpEnds =>
    obtain ⟨-, rfl⟩ := guard_taken hstep
    exact h.congr rfl ⟨rfl, rfl, rfl⟩
  | pumpFails e =>
    obtain ⟨-, rfl⟩ := guard_taken hstep
    have hclosed : SubscribersFed fingerprint { w with pumping := false, feedClosed := true } :=
      h.congr rfl ⟨rfl, rfl, rfl⟩
    split
    · exact hclosed
    · exact hclosed.fail e
  | changed | settled =>
    obtain ⟨-, rfl⟩ := guard_taken hstep
    split
    · exact h.finish
    · exact h.congr rfl ⟨rfl, rfl, rfl⟩
  | readDone v =>
    simp only [Watch.step, Watch.readDone] at hstep
    split at hstep
    · cases hstep
      unfold Watch.loopHead
      split
      · exact h.deliver.finish
      · exact h.deliver.congr rfl ⟨rfl, rfl, rfl⟩
    · simp at hstep
  | readFails e =>
    simp only [Watch.step, Watch.readFails] at hstep
    split at hstep
    · cases hstep
      split
      · exact h.finish
      · exact (h.fail e).finish
    · simp at hstep

end

end

/-! ## The watches of the key -/

/-- A watch that loses no change and feeds its subscribers. -/
def KeepsUp (fingerprint : V → Option String) (w : Watch V E) : Prop :=
  ChangesKept w ∧ SubscribersFed fingerprint w

theorem keepsUp_step {s t : WatchKeyState V E} {l : WatchLabel V E}
    (h : ∀ w ∈ s.watches, KeepsUp fingerprint w) (hstep : s.step fingerprint l = some t) :
    ∀ w ∈ t.watches, KeepsUp fingerprint w := by
  cases l with
  | subscribe aborted =>
    simp only [WatchKeyState.step] at hstep
    split at hstep
    · rename_i w hw
      cases hstep
      have hresolved : ∀ w ∈ s.resolveWatch.1.watches, KeepsUp fingerprint w := by
        unfold WatchKeyState.resolveWatch
        split
        · exact h
        intro w hmem
        rcases List.mem_append.1 hmem with hmem | hmem
        · exact h w hmem
        · exact List.mem_singleton.1 hmem ▸ ⟨ChangesKept.new, SubscribersFed.new⟩
      obtain ⟨hkept, hfed⟩ := hresolved w (List.mem_of_getElem? hw)
      intro w' hmem
      rcases List.mem_or_eq_of_mem_set hmem with hmem | rfl
      · exact hresolved w' hmem
      · exact ⟨hkept.subscribe, hfed.subscribe⟩
    · simp at hstep
  | watch k e =>
    simp only [WatchKeyState.step] at hstep
    split at hstep
    · rename_i w hw
      split at hstep
      · rename_i w' hw'
        cases hstep
        obtain ⟨hkept, hfed⟩ := h w (List.mem_of_getElem? hw)
        intro w'' hmem
        rcases List.mem_or_eq_of_mem_set hmem with hmem | rfl
        · exact h w'' hmem
        · exact ⟨hkept.step hw', hfed.step hw'⟩
      · simp at hstep
    · simp at hstep

/-- What a read returned is the value last pushed, or was suppressed for having its
fingerprint. -/
def DeliversReads (fingerprint : V → Option String) (w : Watch V E) : Prop :=
  ∀ r, w.lastRead = some r → ∃ v, w.last = some v ∧ SameDelivery fingerprint v r

/-- A parked loop has its flag down and is not stopped; its last read began after the
last tick that the pump took, and after the last change of all once the feed is empty;
and each of its subscribers ends with a value that is as good as what that read
returned. -/
def FreshWhenParked (fingerprint : V → Option String) (w : Watch V E) : Prop :=
  w.loop = .waiting false →
    (w.dirty = false ∧ w.stopped = false) ∧ w.taken ≤ w.sawTaken ∧
      (w.feed = 0 → w.notified ≤ w.saw) ∧
      ∃ r v, w.lastRead = some r ∧ SameDelivery fingerprint v r ∧
        ∀ sub ∈ w.subs, sub.attached = true → (sub.received ++ sub.queue).getLast? = some v

theorem KeepsUp.delivers {w : Watch V E} (h : KeepsUp fingerprint w) :
    DeliversReads fingerprint w := h.2.same

theorem KeepsUp.fresh {w : Watch V E} (h : KeepsUp fingerprint w) :
    FreshWhenParked fingerprint w := by
  obtain ⟨hkept, hfed⟩ := h
  intro hloop
  obtain ⟨hdirty, hstopped⟩ := hkept.parked hloop
  refine ⟨⟨hdirty, hstopped⟩, hkept.seen hstopped hdirty, ?_, ?_⟩
  · intro hfeed
    rcases hkept.known hstopped with hflag | htick | hseen
    · simp [hdirty] at hflag
    · omega
    · exact hseen
  · have hread : w.lastRead.isSome := by
      rcases hkept.read with hreading | hended | hread
      · simp [hloop] at hreading
      · simp [hloop] at hended
      · exact hread
    obtain ⟨r, hr⟩ := Option.isSome_iff_exists.1 hread
    obtain ⟨v, hv, hsame⟩ := hfed.same r hr
    exact ⟨r, v, hr, hsame, fun sub hsub hattached => hv ▸ hfed.ends sub hsub hattached⟩

/-- **No lost change.**  In every run of a key's watches, a watch whose loop is parked
has read after the last change, and every subscriber it has ends with what was read; and
whatever a read returned was pushed, or has the fingerprint of what was. -/
theorem sharedWatches_fresh {s : WatchKeyState V E} (h : (sharedWatches fingerprint).Reachable s) :
    ∀ w ∈ s.watches, DeliversReads fingerprint w ∧ FreshWhenParked fingerprint w := by
  have hkeeps : ∀ w ∈ s.watches, KeepsUp fingerprint w := by
    refine h.invariant (I := fun s => ∀ w ∈ s.watches, KeepsUp fingerprint w) ?_ ?_
    · rintro _ rfl
      simp
    · intro _ _ _ hs _ hstep
      exact keepsUp_step hs hstep
  exact fun w hw => ⟨(hkeeps w hw).delivers, (hkeeps w hw).fresh⟩

/-- Two subscribers, a change during the first read and one during the throttle window,
and a second read that returns the same as the first. -/
def burstRun : List (WatchLabel Nat Nat) :=
  [.subscribe false, .subscribe false, .watch 0 .notify, .watch 0 .pump, .watch 0 (.readDone 5),
    .watch 0 (.pull 0), .watch 0 .changed, .watch 0 .notify, .watch 0 .pump, .watch 0 .settled,
    .watch 0 (.readDone 5)]

def burstEnd : WatchKeyState Nat Nat :=
  ((sharedWatches fun v => some (toString v)).exec (fun _ _ => True)
    { watches := [], entry := none } burstRun).get (by decide)

theorem sharedWatches_fresh_burst :
    burstEnd.watches.map (fun w => (w.loop, w.saw, w.subs.map (·.received))) =
        [(.waiting false, 2, [[5], []])] ∧
      ∀ w ∈ burstEnd.watches, DeliversReads (fun v => some (toString v)) w ∧
        FreshWhenParked (fun v => some (toString v)) w := by
  have hstart : (sharedWatches (E := Nat) fun v : Nat => some (toString v)).Reachable
      { watches := [], entry := none } := .start rfl
  exact ⟨by decide, sharedWatches_fresh (hstart.exec_get burstRun (by decide))⟩

end SigxActors.Host
