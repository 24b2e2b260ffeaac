/-
  Workflow/Touches.lean --- no run is stranded after a touch.

  A touch, which is a read of the run or an activation of it, arms what is missing.
  It takes `armedSeq` for what is armed, and `sleep` sets that before its reminder
  write is known to have succeeded: where that write is rejected, no touch of the
  activation arms the sleep again.  A reminder is written with what was left of the
  sleep when it was asked for, so that it is late where the write takes time.

  `Watched` keeps which reminder writes have succeeded; no step reads it.
-/
import Mathlib
import SigxActors.Workflow.Arming

set_option autoImplicit false

namespace SigxActors.Workflow

open SigxActors.Js

/-! ## The purpose -/

/-- A run, with the activation and the sleep of each reminder write that has succeeded. -/
structure Watched where
  run : Run := {}
  kept : List (Nat × Nat) := []

namespace Watched

/-- The reminder writes that have succeeded after a step. -/
def keeps (s : Watched) : Label → List (Nat × Nat)
  | .arm i k true =>
      match s.run.activations[i]? with
      | some a =>
          match a.armings[k]? with
          | some arming => (i, arming.seq) :: s.kept
          | none => s.kept
      | none => s.kept
  | _ => s.kept

def step (options : WorkflowOptions) (s : Watched) (l : Label) : Option Watched :=
  (s.run.step options l).map fun t => ⟨t, s.keeps l⟩

def initial (s : Watched) : Prop := s = {}

end Watched

def watched (options : WorkflowOptions) : Machine.System Watched Label where
  initial := Watched.initial
  step := Watched.step options

/-- The durable reminder is set for this wake, and due when it ends. -/
def Run.Reminds (s : Run) (wake : Wake) : Prop :=
  ∃ reminder, s.reminder = some reminder ∧ reminder.seq = wake.seq ∧ reminder.due = wake.until_

/-- It arms the run, or has a move to make that does. -/
def Point.rearms : Point → Bool
  | .moved | .woken .. => true
  | _ => false

namespace Activation

/-- An `advance` is armed, or a recovery step is under way. -/
def Hops (a : Activation) : Prop :=
  a.advanceTimer = true ∨ Tick.advance ∈ a.ticks ∨
    ∃ w ∈ a.writes, w.thread.turn = false ∧ w.thread.point.rearms = true

end Activation

/-- A wake or an `advance` for what activation `i` has come to is under way or armed.  A sleep
whose reminder was not written is left to the next activation. -/
def Watched.Attended (s : Watched) (i : Nat) (a : Activation) : Prop :=
  match a.state.wake with
  | none => a.Hops
  | some wake =>
      if wake.durable then
        (∃ x ∈ a.armings, x.seq = wake.seq) ∨
          if (i, wake.seq) ∈ s.kept then
            ∃ reminder, s.run.reminder = some reminder ∧ reminder.seq = wake.seq ∧
              reminder.due ≤ wake.until_
          else a.deactivateRequested = true
      else a.Ticks wake.seq

/-- The step is a touch by activation `i`. -/
def Label.touches (s : Run) (i : Nat) : Label → Prop
  | .status j => j = i
  | .activate => i = s.activations.length
  | _ => False

/-- No turn of activation `i` begins or goes on, none of its writes is rejected, it does not stop,
and no reminder fires. -/
def Label.spares (i : Nat) : Label → Prop
  | .start j .. | .tick j _ | .deliver _ j _ | .return_ j _ | .throw_ j .. | .crash j _
  | .deactivate j => j ≠ i
  | .settle j ok .. => j = i → ok = true
  | .remind => False
  | _ => True

/-- The reminder write of a `sleep` succeeds, or the activation has asked to go already.  One that
succeeds is for the sleep the run is in and due when it ends, where that has been taken to be armed. -/
def Watched.Arms (s : Watched) : Label → Prop
  | .arm i k ok =>
      ∀ a ∈ s.run.activations[i]?, ∀ arming ∈ a.armings[k]?,
        (arming.turn = true → a.etag = s.run.etag → a.closed = false →
          a.deactivateRequested = false → ok = true) ∧
        (ok = true → ∀ b ∈ s.run.activations, b.etag = s.run.etag → b.closed = false →
          ∀ wake ∈ b.state.wake, wake.durable = true → b.armedSeq = some wake.seq →
            arming.seq = wake.seq ∧ s.run.now + arming.due = wake.until_)
  | _ => True

/-- Every touch from here arms the run: until a turn of its activation begins or a reminder fires,
what the run has come to is attended to, unless it has ended or another activation has overtaken
this one.  What was left to the next activation is armed by it. -/
structure Watched.TouchArms (options : WorkflowOptions) (s : Watched) : Prop where
  touch : ∀ i l t u a, l.touches s.run i → s.step options l = some t →
    ((watched options).since t).Reach (fun s l => s.Arms l ∧ l.spares i) u →
    u.run.activations[i]? = some a → a.etag = u.run.etag → a.state.status.terminal = false →
      u.Attended i a
  anew : ∀ t a wake, s.step options .activate = some t →
    t.run.activations[s.run.activations.length]? = some a → a.state.status.terminal = false →
    a.state.wake = some wake → wake.durable = true → ∃ x ∈ a.armings, x.seq = wake.seq

/-! ## What an activation has noted -/

namespace Activation

variable {i : Nat} {kept kept' : List (Nat × Nat)} {live live' : Prop} {due due' : Wake → Prop}
  {now : Nat} {a b : Activation}

theorem Noted.mono (h : a.Noted i kept live due) (hlive : live' → live)
    (hkept : ∀ n, (i, n) ∈ kept' ↔ (i, n) ∈ kept)
    (hdue : live' → a.closed = false → ∀ wake, a.Believes wake → wake.durable = true →
      due wake → due' wake) : a.Noted i kept' live' due' :=
  ⟨h.tidy, h.seq, h.armings, h.asked, h.slept,
    fun hl hopen n hn => h.written (hlive hl) hopen n ((hkept n).1 hn),
    fun hl => h.volatile (hlive hl),
    fun hl hopen wake hb hd =>
      (h.durable (hlive hl) hopen wake hb hd).imp id (.imp (hkept _).2 id),
    fun hl hopen wake hb hd hn =>
      hdue hl hopen wake hb hd (h.reminded (hlive hl) hopen wake hb hd ((hkept _).1 hn))⟩

/-- What is closed arms nothing. -/
theorem Noted.close (h : a.Noted i kept live due) (hstate : b.state = a.state)
    (hwrites : b.writes = a.writes) (harmedSeq : b.armedSeq = a.armedSeq)
    (harmings : b.armings = a.armings) (hrequested : b.deactivateRequested = a.deactivateRequested)
    (hclosed : b.closed = true) : b.Noted i kept live due := by
  have hnot : ¬ b.closed = false := by rw [hclosed]; simp
  refine ⟨hstate ▸ h.tidy, ?_, ?_, ?_, ?_, fun _ hopen => absurd hopen hnot,
    fun _ hopen => absurd hopen hnot, fun _ hopen => absurd hopen hnot,
    fun _ hopen => absurd hopen hnot⟩
  · rw [harmedSeq, hstate]
    exact h.seq
  · rw [harmings, harmedSeq]
    exact h.armings
  · rw [harmings, hrequested]
    exact h.asked
  · rw [hwrites, hstate, harmedSeq]
    exact h.slept

theorem noted_dead : dead.Noted i kept live due :=
  ⟨fun _ hnone => (by cases hnone), fun _ hnone => (by cases hnone),
    List.forall_mem_nil _, List.forall_mem_nil _,
    List.forall_mem_nil _, fun _ hopen => (by cases hopen),
    fun _ hopen => (by cases hopen), fun _ hopen => (by cases hopen), fun _ hopen => (by cases hopen)⟩

/-- A tick has the lane: the sleep it is for, if it is still in, is woken from. -/
theorem Noted.tickWake {k seq : Nat} (h : a.Noted i kept live due)
    (htick : a.ticks[k]? = some (.wake seq)) :
    (Activation.wake now { a with ticks := a.ticks.eraseIdx k, busy := true } seq seq true).Noted i
      kept live due := by
  have htidy : RunState.Tidy (state { a with ticks := a.ticks.eraseIdx k, busy := true }) := h.tidy
  have hwake : Quiet { a with ticks := a.ticks.eraseIdx k, busy := true }
      (Activation.wake now { a with ticks := a.ticks.eraseIdx k, busy := true } seq seq true) :=
    quiet_wake htidy
  refine h.quiet { hwake with wake := fun wake hsome => ?_ }
  obtain ⟨ha, hticks⟩ := hwake.wake wake hsome
  refine ⟨ha, fun hold => hticks ?_⟩
  have hne : seq ≠ wake.seq := by
    rintro rfl
    rw [wake_taken ha] at hsome
    cases hsome
  exact hold.imp id fun hmem => (mem_eraseIdx_or htick hmem).resolve_left fun heq =>
    hne (Tick.wake.inj heq).symm

/-- A reminder write has settled. -/
theorem Noted.armed {k : Nat} {arming : Arming} {ok : Bool} (h : a.Noted i kept live due)
    (hget : a.armings[k]? = some arming)
    (hok : arming.turn = true → live → a.closed = false → a.deactivateRequested = false → ok = true)
    (hkept : ∀ n, (i, n) ∈ kept' ↔ ok = true ∧ n = arming.seq ∨ (i, n) ∈ kept)
    (hdue : live → a.closed = false → ∀ wake, a.Believes wake → wake.durable = true →
      (i, wake.seq) ∈ kept' → due' wake) :
    (Activation.armed { a with armings := a.armings.eraseIdx k } arming ok).Noted i kept' live
      due' := by
  have hmem : ∀ {x : Arming}, x ∈ a.armings.eraseIdx k → x ∈ a.armings := List.mem_of_mem_eraseIdx
  have hwritten : live → a.closed = false → ∀ n, (i, n) ∈ kept' →
      ∃ m, a.armedSeq = some m ∧ n ≤ m := by
    intro hlive hopen n hn
    rcases (hkept n).1 hn with ⟨-, rfl⟩ | hn
    · exact h.armings arming (List.mem_of_getElem? hget)
    · exact h.written hlive hopen n hn
  -- A write that has settled has succeeded, or the activation has asked to go.
  have hdurable : live → a.closed = false → ∀ wake, a.Believes wake → wake.durable = true →
      (∃ x ∈ a.armings.eraseIdx k, x.seq = wake.seq) ∨ (i, wake.seq) ∈ kept' ∨
        a.deactivateRequested = true := by
    intro hlive hopen wake hb hd
    rcases h.durable hlive hopen wake hb hd with ⟨x, hx, hseq⟩ | hn | hasked
    · rcases mem_eraseIdx_or hget hx with rfl | hx
      · cases hrequested : a.deactivateRequested with
        | true => exact .inr (.inr rfl)
        | false =>
          have hturn : x.turn = true := by
            cases hturn : x.turn with
            | true => rfl
            | false => exact hrequested.symm.trans (h.asked x (List.mem_of_getElem? hget) hturn)
          exact .inr (.inl ((hkept _).2 (.inl ⟨hok hturn hlive hopen hrequested, hseq.symm⟩)))
      · exact .inl ⟨x, hx, hseq⟩
    · exact .inr (.inl ((hkept _).2 (.inr hn)))
    · exact .inr (.inr hasked)
  unfold Activation.armed
  split
  · refine ⟨h.tidy, h.seq, fun x hx => h.armings x (hmem hx), fun x hx hturn => ?_, h.slept,
      hwritten, h.volatile, fun hlive hopen wake hb hd => ?_, hdue⟩
    · rw [h.asked x (hmem hx) hturn, Bool.true_or]
    · refine (hdurable hlive hopen wake hb hd).imp id (.imp id fun hasked => ?_)
      rw [hasked, Bool.true_or]
  · exact ⟨h.tidy, h.seq, fun x hx => h.armings x (hmem hx), fun x hx => h.asked x (hmem hx),
      h.slept, hwritten, h.volatile, hdurable, hdue⟩

end Activation

/-! ## Over a run -/

namespace Run

variable {s : Run}

/-- An activation is loaded behind the others. -/
theorem get_snoc {activations : List Activation} {a b : Activation} {j : Nat}
    (hget : (activations ++ [b])[j]? = some a) :
    activations[j]? = some a ∨ j = activations.length ∧ a = b := by
  rcases Nat.lt_or_ge j activations.length with hlt | hge
  · rw [List.getElem?_append_left hlt] at hget
    exact .inl hget
  · rw [List.getElem?_append_right hge] at hget
    obtain ⟨hlt, heq⟩ := List.getElem?_eq_some_iff.1 hget
    rw [List.length_singleton] at hlt
    rw [List.getElem_singleton] at heq
    exact .inr ⟨by omega, heq.symm⟩

theorem now_land (etag : Option Nat) (write : Write) : (s.land etag write).now = s.now := by
  unfold Run.land
  split
  · rfl
  · rfl

theorem reminder_land (etag : Option Nat) (write : Write) :
    (s.land etag write).reminder = s.reminder := by
  unfold Run.land
  split
  · rfl
  · rfl

theorem now_note (i : Nat) (point : Point) : (s.note i point).now = s.now := by
  unfold Run.note
  split <;> rfl

theorem reminder_note (i : Nat) (point : Point) : (s.note i point).reminder = s.reminder := by
  unfold Run.note
  split <;> rfl

end Run


/-- The time of a wake has come, or its reminder is set. -/
def Run.Minds (s : Run) (wake : Wake) : Prop := wake.until_ ≤ s.now ∨ s.Reminds wake

/-- Every activation has armed what it takes to be armed. -/
structure Watched.Minded (s : Watched) : Prop where
  activations : ∀ (i : Nat) (a : Activation), s.run.activations[i]? = some a →
    a.Noted i s.kept (a.etag = s.run.etag) s.run.Minds
  kept : ∀ i n, (i, n) ∈ s.kept → i < s.run.activations.length

namespace Watched

variable {options : WorkflowOptions} {s t : Watched} {l : Label} {i : Nat} {a b : Activation}

/-- Activation `i` becomes `b`, and for the others no reminder is lost. -/
theorem Minded.set (h : s.Minded) (hactivations : t.run.activations = s.run.activations.set i b)
    (hkept : ∀ j n, j ≠ i → ((j, n) ∈ t.kept ↔ (j, n) ∈ s.kept))
    (hbound : ∀ n, (i, n) ∈ t.kept → i < s.run.activations.length)
    (hfresh : ∀ c ∈ s.run.activations, c.etag = t.run.etag → c.etag = s.run.etag)
    (hminds : ∀ c ∈ s.run.activations, c.etag = s.run.etag → c.closed = false →
      ∀ wake, c.Believes wake → wake.durable = true → s.run.Minds wake → t.run.Minds wake)
    (hb : b.Noted i t.kept (b.etag = t.run.etag) t.run.Minds) : t.Minded := by
  refine ⟨fun j c hget => ?_, fun j n hmem => ?_⟩
  · rw [hactivations, List.getElem?_set] at hget
    split at hget
    · rename_i heq
      subst heq
      obtain ⟨-, rfl⟩ := guard_taken hget
      exact hb
    · rename_i hne
      have hc := List.mem_of_getElem? hget
      exact (h.activations j c hget).mono (hfresh c hc) (fun n => hkept j n (Ne.symm hne))
        fun hlive hopen => hminds c hc (hfresh c hc hlive) hopen
  · rw [hactivations, List.length_set]
    by_cases hj : j = i
    · subst hj
      exact hbound n hmem
    · exact h.kept j n ((hkept j n hj).1 hmem)

theorem Minded.put (h : s.Minded) (hb : b.Noted i s.kept (b.etag = s.run.etag) s.run.Minds) :
    Minded ⟨s.run.put i b, s.kept⟩ :=
  h.set (i := i) (b := b) rfl (fun _ _ _ => Iff.rfl) (fun n hn => h.kept i n hn)
    (fun _ _ => id) (fun _ _ _ _ _ _ _ => id) hb

/-- A write lands: for the others only the etag of the record is new. -/
theorem Minded.land {write : Write} {u : Run} (h : s.Minded) (htagged : s.run.Tagged)
    (hfresh : a.etag = s.run.etag) (hactivations : u.activations = s.run.activations)
    (hetag : u.etag = (s.run.land a.etag write).etag) (hnow : u.now = s.run.now)
    (hreminder : u.reminder = s.run.reminder)
    (hb : b.Noted i s.kept (b.etag = u.etag) s.run.Minds) : Minded ⟨u.put i b, s.kept⟩ := by
  have hminds : ∀ wake, s.run.Minds wake → u.Minds wake := by
    intro wake
    rw [Run.Minds, Run.Minds, Run.Reminds, Run.Reminds, hnow, hreminder]
    exact id
  refine h.set (i := i) (b := b) ?_ (fun _ _ _ => Iff.rfl) (fun n hn => h.kept i n hn) ?_
    (fun _ _ _ _ wake _ _ => hminds wake) ?_
  · exact congrArg (·.set i b) hactivations
  · intro c hc hcfresh
    exact absurd (hcfresh.trans hetag) (htagged.stale hfresh hc)
  · exact hb.mono id (fun _ => Iff.rfl) fun _ _ wake _ _ => hminds wake

/-- A reminder is put back only where there is none. -/
theorem reminder_of_putBack {s t : Run} {k due : Nat}
    (h : s.step options (.undelivered k (some due)) = some t) : s.reminder = none := by
  dsimp only [Run.step] at h
  split at h
  · obtain ⟨hdue, h⟩ := guard_passed h
    exact Option.isNone_iff_eq_none.1 hdue.2
  · cases h

/-- What the others know of their reminders is unchanged, or is what the guard says. -/
theorem Minded.step (h : s.Minded) (hfolded : s.run.Folded) (htagged : s.run.Tagged) (hlaned : s.run.Laned) (hok : s.Arms l)
    (hstep : s.step options l = some t) : t.Minded := by
  obtain ⟨run, hrun, rfl⟩ := Option.map_eq_some_iff.1 hstep
  have hlane : ∀ {j : Nat} {c : Activation}, s.run.activations[j]? = some c → c.Lane :=
    fun hget => hlaned _ (Run.mem_of_get hget)
  -- An operation on an activation.
  have hput : ∀ {j : Nat} {c d e : Activation}, s.run.activations[j]? = some c →
      Grows Run.anyWake s.run.now d e → d.etag = c.etag →
      (c.Noted j s.kept (c.etag = s.run.etag) s.run.Minds →
        e.Noted j s.kept (c.etag = s.run.etag) s.run.Minds) → Minded ⟨s.run.put j e, s.kept⟩ := by
    intro j c d e hget hgrows hetag he
    refine h.put ?_
    rw [hgrows.etag, hetag]
    exact he (h.activations j c hget)
  -- A turn begins.
  have hbegin : ∀ {j : Nat} {c : Activation} {ticks : List Tick}, s.run.activations[j]? = some c →
      c.busy = false → c.Noted j s.kept (c.etag = s.run.etag) s.run.Minds →
      (∀ seq, .wake seq ∈ c.ticks → .wake seq ∈ ticks) →
      Activation.Noted j s.kept (c.etag = s.run.etag) s.run.Minds
        { c with ticks := ticks, busy := true } ∧
      Activation.Sleepless { c with ticks := ticks, busy := true } :=
    fun hget hidle hc hticks =>
      ⟨hc.quiet (Activation.quiet_kept hc.tidy rfl (fun seq => Or.imp id (hticks seq))
        (fun _ => id) rfl rfl rfl rfl), (hlane hget).sleepless hidle⟩
  cases Run.stepped hrun with
  | elapse ms =>
    refine ⟨fun j c hget => ?_, h.kept⟩
    refine (h.activations j c hget).mono id (fun _ => Iff.rfl) fun _ _ wake _ _ hminds => ?_
    exact hminds.imp (fun hle => Nat.le_trans hle (Nat.le_add_right _ _)) id
  | activate =>
    have hetag : s.run.activations.length < s.run.activations.length → False := Nat.lt_irrefl _
    have hloaded : s.run.loaded.Noted s.run.activations.length s.kept
        (s.run.etag = s.run.etag) s.run.Minds :=
      ⟨hfolded.loaded.state ▸ tidy_fold _, fun _ hnone => (by cases hnone),
        List.forall_mem_nil _, List.forall_mem_nil _,
        List.forall_mem_nil _,
        fun _ _ n hn => (hetag (h.kept _ n hn)).elim,
        fun _ _ wake hb => (by cases hb.2), fun _ _ wake hb => (by cases hb.2),
        fun _ _ wake hb => (by cases hb.2)⟩
    have hnudge : (s.run.loaded.nudge s.run.now).Noted s.run.activations.length s.kept
        (s.run.etag = s.run.etag) s.run.Minds :=
      hloaded.nudge (List.forall_mem_nil _)
    refine ⟨fun j c hget => ?_, fun j n hmem => ?_⟩
    · rcases Run.get_snoc hget with hget | ⟨rfl, rfl⟩
      · exact h.activations j c hget
      · exact hnudge.mono (fun _ => rfl) (fun _ => Iff.rfl) fun _ _ _ _ _ => id
    · rw [List.length_append]
      exact Nat.lt_add_right _ (h.kept j n hmem)
  | @start i a name vars version hget hfree =>
    refine hput hget (d := { a with busy := true }) Activation.grows_start rfl fun ha => ?_
    obtain ⟨hnoted, -⟩ := hbegin hget (Run.not_busy hfree) ha fun _ => id
    exact hnoted.quiet (Activation.quiet_start hnoted.tidy)
  | @status i a hget hfree =>
    refine hput hget (Run.grows_status { a with busy := true }) rfl fun ha => ?_
    obtain ⟨hnoted, hsleepless⟩ := hbegin hget (Run.not_busy hfree) ha fun _ => id
    have hnudge : (Activation.nudge s.run.now { a with busy := true }).Noted i s.kept
        (a.etag = s.run.etag) s.run.Minds := hnoted.nudge hsleepless
    exact hnudge.quiet (Activation.quiet_idle hnudge.tidy)
  | @fireAdvance i a hget htimer =>
    refine h.put ((h.activations i a hget).quiet (Activation.quiet_kept (h.activations i a hget).tidy
      rfl (fun seq => .imp id fun hmem => ?_) (fun _ => id) rfl rfl rfl rfl))
    exact List.mem_append_left _ hmem
  | @fireWake i a timer hget htimer hdue =>
    refine h.put ((h.activations i a hget).quiet (Activation.quiet_kept (h.activations i a hget).tidy
      rfl (fun seq hticks => .inr ?_) (fun _ => id) rfl rfl rfl rfl))
    rcases hticks with ⟨due, htimer'⟩ | hmem
    · cases htimer.symm.trans htimer'
      exact List.mem_append_right _ List.mem_cons_self
    · exact List.mem_append_left _ hmem
  | @tickFaulted i k a tick hget htick hidle hfaulted =>
    have ha := h.activations i a hget
    have hstale := htagged.faulted a (Run.mem_of_get hget) hfaulted
    exact h.put ⟨ha.tidy, ha.seq, ha.armings, ha.asked, ha.slept, fun hlive => absurd hlive hstale,
      fun hlive => absurd hlive hstale, fun hlive => absurd hlive hstale,
      fun hlive => absurd hlive hstale⟩
  | @tickAdvance i k a hget htick hidle hfaulted =>
    refine hput hget (d := { a with ticks := a.ticks.eraseIdx k, busy := true })
      Activation.grows_advance rfl fun ha => ?_
    obtain ⟨hnoted, hsleepless⟩ := hbegin hget hidle ha fun seq hmem =>
      (mem_eraseIdx_or htick hmem).resolve_left (by simp)
    exact hnoted.advance hsleepless
  | @tickWake i k seq a hget htick hidle hfaulted =>
    exact hput hget (d := { a with ticks := a.ticks.eraseIdx k, busy := true })
      (Activation.grows_wake fun _ _ _ => trivial) rfl fun ha => ha.tickWake htick
  | @remind reminder hget hdue =>
    refine ⟨fun j c hc => ?_, h.kept⟩
    refine (h.activations j c hc).mono id (fun _ => Iff.rfl) fun _ _ wake _ _ hminds => ?_
    rcases hminds with hpast | ⟨reminder', hget', -, hend⟩
    · exact .inl hpast
    · cases hget.symm.trans hget'
      exact .inl (hend ▸ hdue)
  | @deliver k i reminder a again hdelivery hget hfree =>
    have ht := hput hget (Run.grows_delivered a reminder.seq) rfl fun ha => by
      obtain ⟨hnoted, hsleepless⟩ := hbegin hget (Run.not_busy hfree) ha fun _ => id
      exact hnoted.onReminder hsleepless
    exact ⟨ht.activations, ht.kept⟩
  | lost k => exact ⟨h.activations, h.kept⟩
  | putBack hdelivery hdue =>
    have hnone := reminder_of_putBack hrun
    refine ⟨fun j c hc => ?_, h.kept⟩
    refine (h.activations j c hc).mono id (fun _ => Iff.rfl) fun _ _ wake _ _ hminds => ?_
    rcases hminds with hpast | ⟨reminder, hget, -, -⟩
    · exact .inl hpast
    · rw [hnone] at hget
      cases hget
  | @rejected i a write rest ok message jitter hget hwrites hbad =>
    obtain ⟨hbut, hapart⟩ : Activation.LaneBut { a with writes := rest } write.thread ∧
        write.thread.Apart := (hlane hget).tail hwrites
    exact hput hget (d := { a with writes := rest }) Activation.grows_reject rfl fun ha =>
      (ha.tail hwrites).reject hbut hapart
  | @landed i a write rest message jitter hget hwrites hfaulted hfresh =>
    refine h.land htagged hfresh ?_ (Run.etag_note i _) ?_ ?_ ?_
    · rw [Run.activations_note, Run.activations_land]
    · rw [Run.now_note, Run.now_land]
    · rw [Run.reminder_note, Run.reminder_land]
    · have ha : (Activation.resume s.run.now { a with writes := rest, etag := (s.run.land a.etag write).etag }
          write.thread).Noted i s.kept (a.etag = s.run.etag) s.run.Minds :=
        (h.activations i a hget).resume (hlane hget) hwrites
      exact ha.mono (fun _ => hfresh) (fun _ => Iff.rfl) fun _ _ _ _ _ => id
  | @conflicted i a write rest message jitter hget hwrites hstale =>
    obtain ⟨hbut, hapart⟩ : Activation.LaneBut { a with writes := rest, faulted := true }
        write.thread ∧ write.thread.Apart := (hlane hget).tail hwrites
    exact hput hget (d := { a with writes := rest, faulted := true }) Activation.grows_reject rfl
      fun ha => (ha.tail hwrites).reject hbut hapart
  | returned out hget hcall =>
    exact hput hget Activation.grows_returned rfl fun ha =>
      ha.quiet (Activation.quiet_returned ha.tidy)
  | threw message jitter hget hcall =>
    exact hput hget Activation.grows_threw rfl fun ha => ha.threw (hlane hget) hcall
  | @armed i k a arming hget harming =>
    have hkeeps : s.keeps (.arm i k true) = (i, arming.seq) :: s.kept := by
      simp only [Watched.keeps, hget, harming]
    have ha := Run.mem_of_get hget
    obtain ⟨-, hend⟩ := hok a hget arming harming
    have hminds : ∀ c ∈ s.run.activations, c.etag = s.run.etag → c.closed = false →
        ∀ wake, c.Believes wake → wake.durable = true →
          Run.Minds { s.run with
            reminder := some ⟨arming.seq, s.run.now + arming.due⟩ } wake := by
      intro c hc hlive hopen wake hb hd
      obtain ⟨hseq, hdue⟩ := hend rfl c hc hlive hopen wake hb.1 hd hb.2
      exact .inr ⟨_, rfl, hseq, hdue⟩
    rw [hkeeps]
    refine h.set (i := i) rfl (fun j n hne => ?_)
      (fun _ _ => (List.getElem?_eq_some_iff.1 hget).1) (fun _ _ => id)
      (fun c hc hlive hopen wake hb hd _ => hminds c hc hlive hopen wake hb hd) ?_
    · rw [List.mem_cons, Prod.mk.injEq]
      exact or_iff_right fun heq => hne heq.1
    · have hnoted : (Activation.armed { a with armings := a.armings.eraseIdx k } arming true).Noted
          i ((i, arming.seq) :: s.kept) (a.etag = s.run.etag) (Run.Minds { s.run with
            reminder := some ⟨arming.seq, s.run.now + arming.due⟩ }) :=
        (h.activations i a hget).armed harming (fun _ _ _ _ => rfl) (fun n => by simp)
          fun hlive hopen wake hb hd _ => hminds a ha hlive hopen wake hb hd
      have hgrows : Grows Run.anyWake s.run.now { a with armings := a.armings.eraseIdx k }
          (Activation.armed { a with armings := a.armings.eraseIdx k } arming true) :=
        Activation.grows_armed
      exact hnoted.mono (fun hlive => hgrows.etag ▸ hlive) (fun _ => Iff.rfl) fun _ _ _ _ _ => id
  | @unarmed i k a arming hget harming =>
    obtain ⟨hturn, -⟩ := hok a hget arming harming
    refine hput hget (d := { a with armings := a.armings.eraseIdx k }) Activation.grows_armed rfl
      fun ha => ?_
    exact ha.armed harming hturn (fun n => by simp) ha.reminded
  | @crashLanded i a write rest hget hwrites hfaulted hfresh =>
    exact h.land htagged hfresh (Run.activations_land _ _) rfl (Run.now_land _ _)
      (Run.reminder_land _ _) Activation.noted_dead
  | crashed hget => exact h.put Activation.noted_dead
  | deactivate hget hidle hticks =>
    exact h.put ((h.activations _ _ hget).close rfl rfl rfl rfl rfl rfl)

end Watched

/-! ## After a touch -/

namespace Activation

variable {i : Nat} {kept : List (Nat × Nat)} {reminds : Wake → Prop} {now : Nat} {a b : Activation}

/-- What activation `i` has come to is under way or taken to be armed, and the reminder of a sleep
is set if its write has succeeded. -/
structure Awaits (i : Nat) (kept : List (Nat × Nat)) (reminds : Wake → Prop) (a : Activation) :
    Prop where
  hops : a.state.wake = none → a.Hops
  sleeps : ∀ wake, a.state.wake = some wake → a.armedSeq = some wake.seq ∧
    (wake.durable = true → (i, wake.seq) ∈ kept → reminds wake)

/-- A touch takes no lane and closes nothing. -/
theorem lane_nudge : (a.nudge now).busy = a.busy ∧ (a.nudge now).closed = a.closed := by
  unfold Activation.nudge Activation.wake
  split
  · exact ⟨rfl, rfl⟩
  split
  · split
    · split
      · split <;> exact ⟨rfl, rfl⟩
      · exact ⟨rfl, rfl⟩
    · split
      · exact ⟨rfl, rfl⟩
      · split <;> exact ⟨rfl, rfl⟩
  · exact ⟨rfl, rfl⟩

/-- What a touch leaves. -/
theorem nudge_arms (h : (a.nudge now).state.status.terminal = false) :
    ((a.nudge now).state.wake = none → (a.nudge now).Hops) ∧
      ∀ wake, (a.nudge now).state.wake = some wake →
        (a.nudge now).armedSeq = some wake.seq ∧ now < wake.until_ := by
  revert h
  unfold Activation.nudge
  split
  · rename_i hterminal
    exact fun hnot => absurd (hterminal.symm.trans hnot) (by simp)
  split
  · rename_i wake hwake
    have hsame : ∀ {other : Wake}, a.state.wake = some other → other = wake := fun hother =>
      Option.some.inj (hother.symm.trans hwake)
    split
    · intro _
      have htaken : (a.wake now wake.seq wake.seq false).state.wake = none := wake_taken hwake
      refine ⟨fun _ => .inr (.inr ?_), fun other hother => ?_⟩
      · unfold Activation.wake
        rw [hwake]
        dsimp only
        rw [if_pos rfl]
        exact ⟨_, List.mem_append_right _ List.mem_cons_self, rfl, rfl⟩
      · rw [htaken] at hother
        cases hother
    · rename_i hpending
      have hlater := Nat.lt_of_not_le hpending
      split
      · rename_i harmed
        refine fun _ => ⟨fun hnone => ?_, fun other hother => ?_⟩
        · rw [hwake] at hnone
          cases hnone
        · rw [hsame hother]
          exact ⟨harmed, hlater⟩
      · split
        all_goals
          refine fun _ => ⟨fun hnone => ?_, fun other hother => ?_⟩
          · exact absurd (hwake.symm.trans hnone) (by simp)
          · rw [hsame hother]
            exact ⟨rfl, hlater⟩
  · rename_i hnone
    refine fun _ => ⟨fun _ => .inl rfl, fun other hother => ?_⟩
    exact absurd (hnone.symm.trans hother) (by simp)

/-- The first touch of an activation arms a long sleep anew. -/
theorem nudge_anew {wake : Wake} (hfirst : a.armedSeq = none)
    (hwake : (a.nudge now).state.wake = some wake) (hdurable : wake.durable = true)
    (h : (a.nudge now).state.status.terminal = false) :
    ∃ x ∈ (a.nudge now).armings, x.seq = wake.seq := by
  obtain ⟨harmed, -⟩ := (nudge_arms h).2 wake hwake
  revert hwake harmed
  unfold Activation.nudge
  split
  · intro _ harmed
    exact absurd (hfirst.symm.trans harmed) (by simp)
  split
  · rename_i wake' hwake'
    split
    · intro hwake _
      have htaken : (a.wake now wake'.seq wake'.seq false).state.wake = none := wake_taken hwake'
      exact absurd (htaken.symm.trans hwake) (by simp)
    · split
      · intro _ harmed
        exact absurd (hfirst.symm.trans harmed) (by simp)
      split
      · intro _ harmed
        exact ⟨_, List.mem_append_right _ List.mem_cons_self, Option.some.inj harmed⟩
      · rename_i hvolatile
        intro hwake _
        cases hwake'.symm.trans hwake
        exact absurd hdurable hvolatile
  · intro _ harmed
    exact absurd (hfirst.symm.trans harmed) (by simp)

/-- A recovery step whose write has landed arms the run, ends it or goes on. -/
theorem Awaits.resume {w : Write} {rest : List Write} {etag : Option Nat}
    (h : a.state.status.terminal = false → a.Awaits i kept reminds) (hwrites : a.writes = w :: rest)
    (hturn : w.thread.turn = false) (hrecovers : w.thread.point.recovers = true)
    (hb : b = Activation.resume now { a with writes := rest, etag := etag } w.thread) :
    (b.busy = a.busy ∧ b.closed = a.closed) ∧
      (b.state.status.terminal = false → b.Awaits i kept reminds) := by
  -- A step of the gate that arms nothing was not what the run waited for.
  have hrest : w.thread.point.rearms = false → ∀ {c : Activation}, c.state = a.state →
      c.armedSeq = a.armedSeq → c.advanceTimer = a.advanceTimer → c.ticks = a.ticks →
      (∀ x ∈ rest, x ∈ c.writes) → c.state.status.terminal = false → c.Awaits i kept reminds := by
    intro hnot c hstate harmedSeq htimer hticks hmem hruns
    obtain ⟨hhops, hsleeps⟩ := h (hstate ▸ hruns)
    refine ⟨fun hnone => ?_, fun wake hwake => ?_⟩
    · rcases hhops (hstate ▸ hnone) with htimer' | htick | ⟨x, hx, hxturn, hxrearms⟩
      · exact .inl (htimer.trans htimer')
      · exact .inr (.inl (hticks ▸ htick))
      · rw [hwrites, List.mem_cons] at hx
        rcases hx with rfl | hx
        · exact absurd (hnot.symm.trans hxrearms) (by simp)
        · exact .inr (.inr ⟨x, hmem x hx, hxturn, hxrearms⟩)
    · rw [harmedSeq]
      exact hsleeps wake (hstate ▸ hwake)
  have hdone : ∀ c : Activation, c.done w.thread = c := fun c => if_neg (by rw [hturn]; simp)
  have hhop : ∀ {c : Activation}, c = { a with writes := rest, etag := etag, advanceTimer := true } →
      (c.busy = a.busy ∧ c.closed = a.closed) ∧
        (c.state.status.terminal = false → c.Awaits i kept reminds) := by
    rintro c rfl
    exact ⟨⟨rfl, rfl⟩, fun hruns => ⟨fun _ => .inl rfl, (h hruns).sleeps⟩⟩
  have hmove : ∀ {c : Activation} {next : Option String},
      c = Activation.moveTo now { a with writes := rest, etag := etag } next w.thread →
      (c.busy = a.busy ∧ c.closed = a.closed) ∧
        (c.state.status.terminal = false → c.Awaits i kept reminds) := by
    intro c next hc
    have hfinish : ∀ {c : Activation}, c = Activation.finish now { a with writes := rest, etag := etag }
        .completed none w.thread → (c.busy = a.busy ∧ c.closed = a.closed) ∧
          (c.state.status.terminal = false → c.Awaits i kept reminds) := by
      rintro c rfl
      refine ⟨⟨rfl, rfl⟩, fun hnot => ?_⟩
      exact absurd ((RunStatus.terminal_endStatus .completed).symm.trans hnot) (by simp)
    unfold Activation.moveTo at hc
    split at hc
    · exact hfinish hc
    split at hc
    · exact hfinish hc
    subst hc
    refine ⟨⟨rfl, rfl⟩, fun _ => ⟨fun _ => .inr (.inr ?_), fun wake hwake => ?_⟩⟩
    · exact ⟨_, List.mem_append_right _ List.mem_cons_self, hturn, rfl⟩
    · cases hwake
  unfold Activation.resume at hb
  cases hpoint : w.thread.point with
  | moved =>
    rw [hpoint] at hb
    rw [hdone] at hb
    exact hhop hb
  | woken seq after =>
    rw [hpoint] at hb
    cases after with
    | none =>
      rw [hdone] at hb
      exact hhop hb
    | some to_ => exact hmove hb
  | ended =>
    rw [hpoint] at hb
    subst hb
    refine ⟨⟨rfl, rfl⟩, hrest (by rw [hpoint]; rfl) rfl rfl rfl rfl fun x hx => ?_⟩
    exact List.mem_append_left _ hx
  | saved =>
    rw [hpoint] at hb
    dsimp only at hb
    rw [hdone] at hb
    subst hb
    exact ⟨⟨rfl, rfl⟩, hrest (by rw [hpoint]; rfl) rfl rfl rfl rfl fun _ => id⟩
  | _ => rw [hpoint] at hrecovers; cases hrecovers

end Activation

namespace Watched

variable {options : WorkflowOptions} {s t : Watched} {l : Label} {i : Nat} {a b : Activation}

/-- Activation `i` has been touched, and no turn of it has begun since. -/
structure Waiting (i : Nat) (s : Watched) : Prop where
  here : i < s.run.activations.length
  lane : ∀ a, s.run.activations[i]? = some a → a.busy = false ∧ a.closed = false
  awaits : ∀ a, s.run.activations[i]? = some a → a.etag = s.run.etag →
    a.state.status.terminal = false → a.Awaits i s.kept s.run.Reminds

theorem Waiting.attended (h : s.Waiting i) (hminded : s.Minded)
    (hget : s.run.activations[i]? = some a) (hfresh : a.etag = s.run.etag)
    (hnot : a.state.status.terminal = false) : s.Attended i a := by
  have hnoted := hminded.activations i a hget
  have hopen := (h.lane a hget).2
  obtain ⟨hhops, hsleeps⟩ := h.awaits a hget hfresh hnot
  unfold Watched.Attended
  split
  · rename_i hnone
    exact hhops hnone
  rename_i wake hwake
  obtain ⟨harmed, hreminds⟩ := hsleeps wake hwake
  have hbelieves : a.Believes wake := ⟨hwake, harmed⟩
  split
  · rename_i hdurable
    refine (hnoted.durable hfresh hopen wake hbelieves hdurable).imp id fun hlater => ?_
    split
    · rename_i hkept
      obtain ⟨reminder, hget, hseq, hdue⟩ := hreminds hdurable hkept
      exact ⟨reminder, hget, hseq, Nat.le_of_eq hdue⟩
    · rename_i hkept
      exact hlater.resolve_left hkept
  · rename_i hdurable
    exact hnoted.volatile hfresh hopen wake hbelieves (Bool.eq_false_iff.2 hdurable)

/-- A step elsewhere. -/
theorem Waiting.frame (h : s.Waiting i) (hhere : i < t.run.activations.length)
    (hget : ∀ c, t.run.activations[i]? = some c → s.run.activations[i]? = some c)
    (hfresh : ∀ c ∈ s.run.activations, c.etag = t.run.etag → c.etag = s.run.etag)
    (hkept : ∀ n, (i, n) ∈ t.kept → (i, n) ∈ s.kept)
    (hreminds : ∀ c ∈ s.run.activations, c.etag = s.run.etag → c.closed = false →
      ∀ wake, c.Believes wake → wake.durable = true → s.run.Reminds wake → t.run.Reminds wake) :
    t.Waiting i := by
  refine ⟨hhere, fun c hc => h.lane c (hget c hc), fun c hc htag hnot => ?_⟩
  have hold := hget c hc
  have hmem := Run.mem_of_get hold
  have htag' := hfresh c hmem htag
  obtain ⟨hhops, hsleeps⟩ := h.awaits c hold htag' hnot
  refine ⟨hhops, fun wake hwake => ?_⟩
  obtain ⟨harmed, hset⟩ := hsleeps wake hwake
  exact ⟨harmed, fun hd hn => hreminds c hmem htag' (h.lane c hold).2 wake ⟨hwake, harmed⟩ hd
    (hset hd (hkept _ hn))⟩

theorem Waiting.put_ne {j : Nat} (h : s.Waiting i) (hne : j ≠ i) :
    Waiting i ⟨s.run.put j b, s.kept⟩ := by
  refine h.frame ?_ (fun c hc => ?_) (fun _ _ => id) (fun _ => id) fun _ _ _ _ _ _ _ => id
  · show i < (s.run.activations.set j b).length
    rw [List.length_set]
    exact h.here
  · rwa [← List.getElem?_set_ne hne]

/-- A step of activation `i`. -/
theorem Waiting.self (h : s.Waiting i) (hactivations : t.run.activations = s.run.activations.set i b)
    (hlane : b.busy = false ∧ b.closed = false)
    (hb : b.etag = t.run.etag → b.state.status.terminal = false →
      b.Awaits i t.kept t.run.Reminds) : t.Waiting i := by
  have hself : ∀ c, t.run.activations[i]? = some c → c = b := by
    intro c hc
    rw [hactivations, List.getElem?_set_self h.here] at hc
    exact (Option.some.inj hc).symm
  refine ⟨?_, fun c hc => ?_, fun c hc => ?_⟩
  · rw [hactivations, List.length_set]
    exact h.here
  · obtain rfl := hself c hc
    exact hlane
  · obtain rfl := hself c hc
    exact hb

theorem Waiting.put (h : s.Waiting i) (hlane : b.busy = false ∧ b.closed = false)
    (hb : b.etag = s.run.etag → b.state.status.terminal = false →
      b.Awaits i s.kept s.run.Reminds) : Waiting i ⟨s.run.put i b, s.kept⟩ :=
  h.self rfl hlane hb

/-- A touch has armed what was missing. -/
theorem waiting_of_nudge (hminded : t.Minded) (hget : t.run.activations[i]? = some b)
    (hlane : b.busy = false ∧ b.closed = false) {c : Activation} (hstate : b.state = (c.nudge t.run.now).state)
    (hhops : (c.nudge t.run.now).Hops → b.Hops) (harmedSeq : b.armedSeq = (c.nudge t.run.now).armedSeq) :
    t.Waiting i := by
  have hself : ∀ d, t.run.activations[i]? = some d → d = b := fun d hd =>
    Option.some.inj (hd.symm.trans hget)
  refine ⟨(List.getElem?_eq_some_iff.1 hget).1, fun d hd => ?_, fun d hd hfresh hnot => ?_⟩
  · obtain rfl := hself d hd
    exact hlane
  · obtain rfl := hself d hd
    rw [hstate] at hnot
    obtain ⟨hnone, hsome⟩ := Activation.nudge_arms hnot
    refine ⟨fun h => hhops (hnone (hstate ▸ h)), fun wake hwake => ?_⟩
    obtain ⟨harmed, hlater⟩ := hsome wake (hstate ▸ hwake)
    have hbelieves : d.Believes wake := ⟨hwake, harmedSeq.trans harmed⟩
    refine ⟨hbelieves.2, fun hd' hn => ?_⟩
    refine ((hminded.activations i d hget).reminded hfresh hlane.2 wake hbelieves hd' hn).resolve_left ?_
    exact Nat.not_le_of_lt hlater

/-- The step lemma. -/
theorem Waiting.step (h : s.Waiting i) (hminded : t.Minded) (htagged : s.run.Tagged)
    (hlaned : s.run.Laned) (hok : s.Arms l) (hspares : l.spares i)
    (hstep : s.step options l = some t) : t.Waiting i := by
  obtain ⟨run, hrun, rfl⟩ := Option.map_eq_some_iff.1 hstep
  have hlane : ∀ {c : Activation}, s.run.activations[i]? = some c → c.Lane :=
    fun hget => hlaned _ (Run.mem_of_get hget)
  -- The threads of a touch hold no lane.
  have hhead : ∀ {c : Activation} {w : Write} {rest : List Write},
      s.run.activations[i]? = some c → c.writes = w :: rest →
      w.thread.turn = false ∧ w.thread.retrying = none ∧ w.thread.point.recovers = true := by
    intro c w rest hget hwrites
    have hmem : w ∈ c.writes := hwrites ▸ List.mem_cons_self
    have hturn := ((hlane hget).idle (h.lane c hget).1).1 w hmem
    exact ⟨hturn, (hlane hget).apart w hmem hturn⟩
  have hrejected : ∀ {c d : Activation} {thread : Thread} {message : String} {jitter : Nat},
      thread.turn = false → thread.retrying = none →
      d.reject options s.run.now thread message jitter = d := by
    intro c d thread message jitter hturn hretrying
    unfold Activation.reject
    rw [hretrying]
    exact if_neg (by rw [hturn]; simp)
  have harmed : ∀ {c : Activation} {arming : Arming} {ok : Bool}, arming.turn = false →
      c.armed arming ok = c := fun hturn => if_neg (by rw [hturn]; simp)
  -- A write of another activation lands.
  have hland : ∀ {j : Nat} {c d : Activation} {write : Write} {u : Run}, j ≠ i →
      c.etag = s.run.etag → u.activations = s.run.activations →
      u.etag = (s.run.land c.etag write).etag → u.reminder = s.run.reminder →
      Waiting i ⟨u.put j d, s.kept⟩ := by
    intro j c d write u hne hfresh hactivations hetag hreminder
    refine h.frame ?_ (fun e he => ?_) (fun e he htag => ?_) (fun _ => id)
      fun _ _ _ _ wake _ _ => ?_
    · show i < (u.activations.set j d).length
      rw [List.length_set, hactivations]
      exact h.here
    · rw [← hactivations]
      rwa [← List.getElem?_set_ne hne]
    · exact absurd (htag.trans hetag) (htagged.stale hfresh he)
    · rw [Run.Reminds, ← hreminder]
      exact id
  cases Run.stepped hrun with
  | elapse ms =>
    exact h.frame h.here (fun _ => id) (fun _ _ => id) (fun _ => id) fun _ _ _ _ _ _ _ => id
  | activate =>
    refine h.frame ?_ (fun c hc => ?_) (fun _ _ => id) (fun _ => id) fun _ _ _ _ _ _ _ => id
    · rw [List.length_append]
      exact Nat.lt_add_right _ h.here
    · refine (Run.get_snoc hc).resolve_right fun heq => ?_
      exact Nat.lt_irrefl _ (heq.1 ▸ h.here)
  | start name vars version hget hfree => exact h.put_ne hspares
  | @status j a hget hfree =>
    by_cases hj : j = i
    · subst hj
      exact waiting_of_nudge hminded (List.getElem?_set_self h.here)
        ⟨rfl, Activation.lane_nudge.2.trans (h.lane a hget).2⟩ rfl id rfl
    · exact h.put_ne hj
  | @fireAdvance j a hget htimer =>
    by_cases hj : j = i
    · subst hj
      refine h.put (h.lane a hget) fun hfresh hnot => ?_
      obtain ⟨hhops, hsleeps⟩ := h.awaits a hget hfresh hnot
      exact ⟨fun _ => .inr (.inl (List.mem_append_right _ List.mem_cons_self)), hsleeps⟩
    · exact h.put_ne hj
  | @fireWake j a timer hget htimer hdue =>
    by_cases hj : j = i
    · subst hj
      refine h.put (h.lane a hget) fun hfresh hnot => ?_
      obtain ⟨hhops, hsleeps⟩ := h.awaits a hget hfresh hnot
      refine ⟨fun hnone => (hhops hnone).imp id (.imp (fun hmem => ?_) id), hsleeps⟩
      exact List.mem_append_left _ hmem
    · exact h.put_ne hj
  | tickFaulted hget htick hidle hfaulted => exact h.put_ne hspares
  | tickAdvance hget htick hidle hfaulted => exact h.put_ne hspares
  | tickWake hget htick hidle hfaulted => exact h.put_ne hspares
  | remind hget hdue => exact hspares.elim
  | @deliver k j reminder a again hdelivery hget hfree =>
    have ht := h.put_ne hspares
      (b := Activation.onReminder s.run.now { a with busy := true } reminder.seq)
    exact { ht with }
  | lost k => exact { h with }
  | putBack hdelivery hdue =>
    have hnone := reminder_of_putBack hrun
    refine h.frame h.here (fun _ => id) (fun _ _ => id) (fun _ => id)
      fun _ _ _ _ wake _ _ ⟨reminder, hget, _⟩ => ?_
    rw [hnone] at hget
    cases hget
  | @rejected j a write rest ok message jitter hget hwrites hbad =>
    by_cases hj : j = i
    · subst hj
      have hfaulted : a.faulted = true :=
        hbad.resolve_right fun hfalse => by simp [hspares rfl] at hfalse
      have hstale := htagged.faulted a (Run.mem_of_get hget) hfaulted
      obtain ⟨hturn, hretrying, -⟩ := hhead hget hwrites
      rw [hrejected (c := a) hturn hretrying] at hminded ⊢
      exact h.put (h.lane a hget) fun hfresh => absurd hfresh hstale
    · exact h.put_ne hj
  | @landed j a write rest message jitter hget hwrites hfaulted hfresh =>
    have hactivations : ((s.run.land a.etag write).note j write.thread.point).activations =
        s.run.activations := by rw [Run.activations_note, Run.activations_land]
    have hreminder : ((s.run.land a.etag write).note j write.thread.point).reminder =
        s.run.reminder := by rw [Run.reminder_note, Run.reminder_land]
    by_cases hj : j = i
    · subst hj
      obtain ⟨hturn, -, hrecovers⟩ := hhead hget hwrites
      obtain ⟨hlane', hawaits⟩ := Activation.Awaits.resume (h.awaits a hget hfresh) hwrites hturn
        hrecovers (rfl : Activation.resume s.run.now
          { a with writes := rest, etag := (s.run.land a.etag write).etag } write.thread = _)
      refine h.self ?_ ⟨hlane'.1.trans (h.lane a hget).1, hlane'.2.trans (h.lane a hget).2⟩
        fun _ hnot => ?_
      · show ((s.run.land a.etag write).note j write.thread.point).activations.set j _ = _
        rw [hactivations]
      obtain ⟨hhops, hsleeps⟩ := hawaits hnot
      refine ⟨hhops, fun wake hwake => ⟨(hsleeps wake hwake).1, fun hd hn => ?_⟩⟩
      obtain ⟨reminder, hset, hend⟩ := (hsleeps wake hwake).2 hd hn
      exact ⟨reminder, hreminder.trans hset, hend⟩
    · exact hland hj hfresh hactivations (Run.etag_note j _) hreminder
  | @conflicted j a write rest message jitter hget hwrites hstale =>
    by_cases hj : j = i
    · subst hj
      obtain ⟨hturn, hretrying, -⟩ := hhead hget hwrites
      rw [hrejected (c := a) hturn hretrying] at hminded ⊢
      exact h.put (h.lane a hget) fun hfresh => absurd hfresh hstale
    · exact h.put_ne hj
  | returned out hget hcall => exact h.put_ne hspares
  | threw message jitter hget hcall => exact h.put_ne hspares
  | @armed j k a arming hget harming =>
    have hkeeps : s.keeps (.arm j k true) = (j, arming.seq) :: s.kept := by
      simp only [Watched.keeps, hget, harming]
    rw [hkeeps]
    have hreminds : ∀ c ∈ s.run.activations, c.etag = s.run.etag → c.closed = false →
        ∀ wake, c.Believes wake → wake.durable = true →
          Run.Reminds { s.run with
            reminder := some ⟨arming.seq, s.run.now + arming.due⟩ } wake := by
      intro c hc hlive hopen wake hb hd
      obtain ⟨hseq, hdue⟩ := (hok a hget arming harming).2 rfl c hc hlive hopen wake hb.1 hd hb.2
      exact ⟨_, rfl, hseq, hdue⟩
    by_cases hj : j = i
    · subst hj
      obtain ⟨hbusy, hopen⟩ := h.lane a hget
      have hturn := ((hlane hget).idle hbusy).2.2 arming (List.mem_of_getElem? harming)
      rw [harmed hturn]
      refine h.self rfl ⟨hbusy, hopen⟩ fun hfresh hnot => ?_
      obtain ⟨hhops, hsleeps⟩ := h.awaits a hget hfresh hnot
      refine ⟨hhops, fun wake hwake => ⟨(hsleeps wake hwake).1, fun hd _ => ?_⟩⟩
      exact hreminds a (Run.mem_of_get hget) hfresh hopen wake ⟨hwake, (hsleeps wake hwake).1⟩ hd
    · refine h.frame ?_ (fun c hc => ?_) (fun _ _ => id) (fun n hn => ?_)
        fun c hc hlive hopen wake hb hd _ => hreminds c hc hlive hopen wake hb hd
      · rw [List.length_set]
        exact h.here
      · rwa [← List.getElem?_set_ne hj]
      · rw [List.mem_cons, Prod.mk.injEq] at hn
        exact hn.resolve_left fun heq => hj heq.1.symm
  | @unarmed j k a arming hget harming =>
    by_cases hj : j = i
    · subst hj
      obtain ⟨hbusy, hopen⟩ := h.lane a hget
      have hturn := ((hlane hget).idle hbusy).2.2 arming (List.mem_of_getElem? harming)
      rw [harmed hturn]
      refine h.put ⟨hbusy, hopen⟩ fun hfresh hnot => ?_
      obtain ⟨hhops, hsleeps⟩ := h.awaits a hget hfresh hnot
      exact ⟨hhops, hsleeps⟩
    · exact h.put_ne hj
  | @crashLanded j a write rest hget hwrites hfaulted hfresh =>
    exact hland hspares hfresh (Run.activations_land _ _) rfl (Run.reminder_land _ _)
  | crashed hget => exact h.put_ne hspares
  | deactivate hget hidle hticks => exact h.put_ne hspares

/-- A touch. -/
theorem waiting_of_touches (hminded : t.Minded) (htouches : l.touches s.run i)
    (hstep : s.step options l = some t) : t.Waiting i := by
  obtain ⟨run, hrun, rfl⟩ := Option.map_eq_some_iff.1 hstep
  cases Run.stepped hrun with
  | activate =>
    obtain rfl : i = s.run.activations.length := htouches
    exact waiting_of_nudge hminded List.getElem?_concat_length Activation.lane_nudge rfl id rfl
  | @status j a hget hfree =>
    obtain rfl : j = i := htouches
    have hhere := (List.getElem?_eq_some_iff.1 hget).1
    have hopen : a.closed = false := by
      simp only [Activation.free, Bool.and_eq_true, Bool.not_eq_true'] at hfree
      exact hfree.1.2
    exact waiting_of_nudge hminded (List.getElem?_set_self hhere)
      ⟨rfl, Activation.lane_nudge.2.trans hopen⟩ rfl id rfl
  | _ => exact htouches.elim

theorem minded_initial (h : Watched.initial s) : s.Minded := by
  obtain rfl := h
  exact ⟨fun _ _ hnone => (by cases hnone), fun _ _ hmem => absurd hmem List.not_mem_nil⟩

/-- What holds of every state of a run whose reminder writes succeed in time. -/
structure Sound (s : Watched) : Prop where
  folded : s.run.Folded
  tagged : s.run.Tagged
  laned : s.run.Laned
  minded : s.Minded

theorem Sound.step (h : s.Sound) (hok : s.Arms l) (hstep : s.step options l = some t) :
    t.Sound := by
  have hminded := h.minded.step h.folded h.tagged h.laned hok hstep
  obtain ⟨run, hrun, rfl⟩ := Option.map_eq_some_iff.1 hstep
  exact ⟨h.folded.step hrun, h.tagged.step hrun, h.laned.step hrun, hminded⟩

theorem sound_initial (h : Watched.initial s) : s.Sound := by
  have hminded := minded_initial h
  obtain rfl := h
  exact ⟨Run.folded_initial rfl, Run.tagged_initial rfl, Run.laned_initial rfl, hminded⟩

end Watched

/-- **No run is stranded after a touch**: in every run in which the reminder write of a `sleep`
succeeds, and each that succeeds is for the sleep the run is in and due when it ends. -/
theorem touchArms_of_arms {options : WorkflowOptions} {s : Watched}
    (h : (watched options).Reach Watched.Arms s) : s.TouchArms options := by
  have hsound : s.Sound := by
    refine h.invariant (fun _ => Watched.sound_initial) ?_
    intro s l t hs hok hstep
    exact hs.step hok hstep
  refine ⟨fun i l t u a htouches hstep hrun hget hfresh hnot => ?_,
    fun t a wake hstep hget hnot hwake hdurable => ?_⟩
  · have hok : s.Arms l := by
      cases l with
      | arm j k ok => exact htouches.elim
      | _ => trivial
    have ht := hsound.step hok hstep
    have hwaiting : u.Sound ∧ u.Waiting i := by
      refine hrun.invariant (I := fun u => u.Sound ∧ u.Waiting i) ?_ ?_
      · rintro _ rfl
        exact ⟨ht, Watched.waiting_of_touches ht.minded htouches hstep⟩
      · rintro s l t ⟨hs, hwaiting⟩ hok hstep
        have ht := hs.step hok.1 hstep
        exact ⟨ht, hwaiting.step ht.minded hs.tagged hs.laned hok.1 hok.2 hstep⟩
    exact hwaiting.2.attended hwaiting.1.minded hget hfresh hnot
  · cases hstep
    cases List.getElem?_concat_length.symm.trans hget
    exact Activation.nudge_anew rfl hwake hdurable hnot

/-! ## A long delay -/

/-- A delay that is long enough for a reminder. -/
def longDelay : WorkflowOptions where
  definitions := [⟨"w", 1, "a", JsMap.empty.set "a" (.delay 10 none)⟩]
  handlers := []
  timerThresholdMs := 10

/-- The run is started and sleeps, and its reminder is being written. -/
def toTheReminder : List Label :=
  [.activate, .start 0 "w" .empty none, .settle 0 true "" 0, .settle 0 true "" 0, .fireAdvance 0,
    .tick 0 0, .settle 0 true "" 0]

instance (s : Watched) (l : Label) : Decidable (s.Arms l) := by
  induction l using Label.casesOn <;> dsimp only [Watched.Arms] <;> infer_instance

instance (i : Nat) (l : Label) : Decidable (l.spares i) := by
  induction l using Label.casesOn <;> dsimp only [Label.spares] <;> infer_instance

/-- The host dies while the run sleeps; the next activation writes the reminder again. -/
def atTheReminder : Watched :=
  ((watched longDelay).exec Watched.Arms {}
    (toTheReminder ++ [.arm 0 0 true, .crash 0 false, .activate])).getD {}

/-- The sleep of the next activation is attended to, by the reminder it has written. -/
theorem touchArms_longDelay :
    ∃ u a, Watched.Attended u 1 a ∧ (1, 1) ∈ u.kept ∧ a.state.wake = some ⟨10, 1, true, some ""⟩ := by
  have hstart : (watched longDelay).Reach Watched.Arms {} := .start rfl
  have hend := hstart.exec_get (toTheReminder ++ [.arm 0 0 true, .crash 0 false]) (by decide)
  have hself : ((watched longDelay).since atTheReminder).Reach
      (fun s l => s.Arms l ∧ l.spares 1) atTheReminder := .start rfl
  have hexec := hself.exec_get [.arm 1 0 true] (by decide)
  exact ⟨_, _, (touchArms_of_arms hend).touch 1 .activate atTheReminder _ _ rfl rfl hexec rfl rfl rfl,
    by decide, rfl⟩

/-- The reminder write of the sleep is rejected: a touch finds the sleep taken to be armed, and
nothing wakes the run. -/
theorem not_touchArms : ¬ ∀ options s, (watched options).Reachable s → s.TouchArms options := by
  intro h
  have hstart : (watched longDelay).Reachable {} := .start rfl
  have hend := hstart.exec_get (toTheReminder ++ [.arm 0 0 false]) (by decide)
  have htouch := (h longDelay _ hend).touch 0 (.status 0) _ _ _ rfl rfl (.start rfl) rfl rfl rfl
  have hattended : (∃ x ∈ ([] : List Arming), x.seq = 1) ∨ false = true := htouch
  rcases hattended with ⟨x, hx, -⟩ | hfalse
  · exact absurd hx List.not_mem_nil
  · cases hfalse

end SigxActors.Workflow
