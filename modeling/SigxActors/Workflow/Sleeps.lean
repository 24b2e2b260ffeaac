/-
  Workflow/Sleeps.lean --- no sleep ends early, and each ends once.

  A wake is fenced by the token of its sleep, and a volatile timer carries the
  token it was armed for.  A durable reminder carries a name only, and the one
  that brings it takes the sleep then in state for its own.  So the property holds
  as long as no reminder is delivered to a later sleep than its own.

  The invariant is that whatever may still wake the run was armed for a recorded
  sleep, and is due no earlier than that sleep ends.
-/
import SigxActors.Workflow.Lane
import SigxActors.Workflow.Tokens

set_option autoImplicit false

namespace SigxActors.Workflow

open SigxActors.Js

/-- A wake is due, and its source was armed for it. -/
def Due (wake : Wake) (source time : Nat) : Prop := wake.until_ ≤ time ∧ source = wake.seq

/-! ## Sources -/

/-- An operation arms nothing. -/
structure Disarms (a b : Activation) : Prop where
  timer : ∀ timer, b.wakeTimer = some timer → a.wakeTimer = some timer
  ticks : ∀ tick ∈ b.ticks, tick ∈ a.ticks
  armings : ∀ arming ∈ b.armings, arming ∈ a.armings

namespace Activation

variable {options : WorkflowOptions} {now : Nat} {a b : Activation} {thread : Thread}

theorem disarms_kept (htimer : b.wakeTimer = a.wakeTimer) (hticks : b.ticks = a.ticks)
    (harmings : b.armings = a.armings) : Disarms a b :=
  ⟨fun _ h => htimer ▸ h, fun _ h => hticks ▸ h, fun _ h => harmings ▸ h⟩

theorem disarms_cleared (htimer : b.wakeTimer = none) (hticks : b.ticks = a.ticks)
    (harmings : b.armings = a.armings) : Disarms a b :=
  ⟨fun _ h => absurd (htimer.symm.trans h) (by simp), fun _ h => hticks ▸ h,
    fun _ h => harmings ▸ h⟩

theorem disarms_done : Disarms a (a.done thread) := by
  unfold done
  split <;> exact disarms_kept rfl rfl rfl

theorem disarms_moveTo (next : Option String) : Disarms a (a.moveTo now next thread) := by
  unfold moveTo
  split
  · exact disarms_cleared rfl rfl rfl
  · split <;> exact disarms_cleared rfl rfl rfl

theorem disarms_wake {seq source : Nat} {turn : Bool} : Disarms a (a.wake now seq source turn) := by
  have hidle : Disarms a (if turn then { a with busy := false } else a) := by
    split <;> exact disarms_kept rfl rfl rfl
  unfold wake
  split
  · split
    · exact disarms_cleared rfl rfl rfl
    · exact hidle
  · exact hidle

theorem disarms_runTask (id : String) (node : TaskNode) :
    Disarms a (a.runTask options now id node thread) := by
  unfold runTask
  split
  · exact disarms_kept rfl rfl rfl
  · exact disarms_cleared rfl rfl rfl

theorem disarms_advance : Disarms a (a.advance options now) := by
  unfold advance
  split
  · split
    · exact disarms_kept rfl rfl rfl
    split
    · exact disarms_cleared rfl rfl rfl
    · exact disarms_kept rfl rfl rfl
    · exact disarms_runTask _ _
    · exact disarms_kept rfl rfl rfl
    · split <;> exact disarms_moveTo _
    · exact disarms_cleared rfl rfl rfl
  · exact disarms_kept rfl rfl rfl

theorem disarms_start {name : String} {vars : JsMap String Json} {version : Option Int} :
    Disarms a (a.start options now name vars version) := by
  unfold start
  split
  · exact disarms_kept rfl rfl rfl
  split
  · exact disarms_kept rfl rfl rfl
  · split <;> exact disarms_kept rfl rfl rfl

variable {message : String}

theorem disarms_caught {retrying : Retrying} {jitter : Nat} :
    Disarms a (a.caught options now retrying message jitter thread) := by
  unfold caught
  split
  · exact disarms_cleared rfl rfl rfl
  · exact disarms_kept rfl rfl rfl

theorem disarms_reject {jitter : Nat} : Disarms a (a.reject options now thread message jitter) := by
  unfold reject
  split
  · exact disarms_caught
  · exact disarms_done

theorem disarms_returned {call : Call} {out : Json} : Disarms a (a.returned now call out) := by
  have hmove : ∀ next, Disarms a ({ a with call := none }.moveTo now next
      { point := .ended, retrying := some call.retrying, turn := true }) := by
    intro next
    have h : Disarms { a with call := none } ({ a with call := none }.moveTo now next
        { point := .ended, retrying := some call.retrying, turn := true }) := disarms_moveTo next
    exact { h with }
  unfold returned
  split
  · split
    · exact hmove _
    · exact disarms_kept rfl rfl rfl
  · exact hmove _

theorem disarms_threw {call : Call} {jitter : Nat} :
    Disarms a (a.threw options now call message jitter) := by
  have h : Disarms { a with call := none } (a.threw options now call message jitter) :=
    disarms_caught
  exact { h with }

theorem disarms_armed {arming : Arming} {ok : Bool} : Disarms a (a.armed arming ok) := by
  unfold armed
  split <;> exact disarms_kept rfl rfl rfl

/-- Only a sleep that has been recorded arms anything, and it arms itself. -/
theorem disarms_resume (now : Nat) (a : Activation) (thread : Thread) :
    Disarms a (a.resume now thread) ∨ ∃ ms seq durable, thread.point = .slept ms seq durable ∧
      (a.resume now thread).ticks = a.ticks ∧
      (∀ timer, (a.resume now thread).wakeTimer = some timer → timer = ⟨seq, now + ms⟩) ∧
      ∀ arming ∈ (a.resume now thread).armings, arming ∈ a.armings ∨ arming = ⟨seq, ms, true⟩ := by
  unfold resume
  split
  · exact .inl (disarms_kept rfl rfl rfl)
  · refine .inl ?_
    have h : Disarms a.armAdvance (a.armAdvance.done thread) := disarms_done
    exact { h with }
  · rename_i ms seq durable hpoint
    refine .inr ⟨ms, seq, durable, hpoint, ?_⟩
    split
    · refine ⟨rfl, fun timer htimer => ?_, fun arming hmem => ?_⟩
      · cases htimer
      · rw [mem_snoc] at hmem
        exact hmem
    · have h : Disarms { a with armedSeq := some seq, wakeTimer := some ⟨seq, now + ms⟩ }
          (Activation.done
            { a with armedSeq := some seq, wakeTimer := some ⟨seq, now + ms⟩ } thread) :=
        disarms_done
      refine ⟨?_, fun timer htimer => (Option.some.inj (h.timer timer htimer)).symm,
        fun arming hmem => .inl (h.armings arming hmem)⟩
      unfold Activation.done
      split <;> rfl
  · split
    · exact .inl (disarms_moveTo _)
    refine .inl ?_
    have h : Disarms a.armAdvance (a.armAdvance.done thread) := disarms_done
    exact { h with }
  · exact .inl (disarms_kept rfl rfl rfl)
  · exact .inl disarms_done
  · exact .inl (disarms_kept rfl rfl rfl)
  · exact .inl (disarms_moveTo _)

/-- A touch arms the sleep in state, for when it ends. -/
theorem disarms_nudge (now : Nat) (a : Activation) :
    Disarms a (a.nudge now) ∨ ∃ wake, a.state.wake = some wake ∧ (a.nudge now).ticks = a.ticks ∧
      (∀ timer, (a.nudge now).wakeTimer = some timer →
        a.wakeTimer = some timer ∨ timer = ⟨wake.seq, now + (wake.until_ - now)⟩) ∧
      ∀ arming ∈ (a.nudge now).armings,
        arming ∈ a.armings ∨ arming = ⟨wake.seq, wake.until_ - now, false⟩ := by
  unfold nudge
  split
  · exact .inl (disarms_kept rfl rfl rfl)
  split
  · rename_i wake hwake
    split
    · exact .inl disarms_wake
    split
    · exact .inl (disarms_kept rfl rfl rfl)
    refine .inr ⟨wake, hwake, ?_⟩
    split
    · refine ⟨rfl, fun _ h => .inl h, fun arming hmem => ?_⟩
      rw [mem_snoc] at hmem
      exact hmem
    · exact ⟨rfl, fun _ h => .inr (Option.some.inj h).symm, fun _ hmem => .inl hmem⟩
  · exact .inl (disarms_kept rfl rfl rfl)

end Activation

/-! ## The invariant -/

/-- Whatever may still wake an activation was armed for a recorded sleep; what it has applied is
recorded, or is to be, unless it has lost a conflict. -/
structure Activation.Sourced (now : Nat) (history : List Stamp) (a : Activation) : Prop where
  timer : ∀ timer, a.wakeTimer = some timer → Slept history timer.seq timer.due
  ticks : ∀ seq, .wake seq ∈ a.ticks → Slept history seq now
  armings : ∀ arming ∈ a.armings, Slept history arming.seq (now + arming.due)
  times : ∀ w ∈ a.writes, ∀ stamp, w.stamp = some stamp → stamp.time ≤ now
  recorded : a.faulted = false → ∀ stamp ∈ a.entries,
    stamp ∈ history ∨ ∃ w ∈ a.writes, w.stamp = some stamp

structure Run.Sourced (s : Run) : Prop where
  activations : ∀ a ∈ s.activations, a.Sourced s.now s.history
  reminder : ∀ reminder, s.reminder = some reminder → Slept s.history reminder.seq reminder.due
  deliveries : ∀ reminder ∈ s.deliveries, Slept s.history reminder.seq s.now
  continued : ∀ seq, s.continued.count seq ≤ s.history.countP (fun stamp => stamp.entry.isWake seq)

namespace Activation

variable {options : WorkflowOptions} {now now' : Nat} {history history' : List Stamp}
  {a b : Activation} {ready : Wake → Nat → Nat → Prop}

theorem Sourced.mono (h : a.Sourced now history) (hnow : now ≤ now')
    (hsub : ∀ stamp ∈ history, stamp ∈ history') : a.Sourced now' history' where
  timer timer htimer := (h.timer timer htimer).mono hsub (Nat.le_refl _)
  ticks seq hmem := (h.ticks seq hmem).mono hsub hnow
  armings arming hmem := (h.armings arming hmem).mono hsub (by omega)
  times w hmem stamp hstamp := Nat.le_trans (h.times w hmem stamp hstamp) hnow
  recorded hfaulted stamp hmem := (h.recorded hfaulted stamp hmem).imp (hsub stamp) id

/-- Nothing is armed or waits. -/
theorem sourced_still (htimer : a.wakeTimer = none) (hticks : a.ticks = []) (harmings : a.armings = [])
    (hwrites : a.writes = []) (hentries : ∀ stamp ∈ a.entries, stamp ∈ history) :
    a.Sourced now history where
  timer timer h := absurd (htimer.symm.trans h) (by simp)
  ticks seq hmem := absurd (hticks ▸ hmem) List.not_mem_nil
  armings arming hmem := absurd (harmings ▸ hmem) List.not_mem_nil
  times w hmem := absurd (hwrites ▸ hmem) List.not_mem_nil
  recorded _ stamp hmem := .inl (hentries stamp hmem)

theorem sourced_dead : dead.Sourced now history :=
  sourced_still rfl rfl rfl rfl (List.forall_mem_nil _)

theorem Sourced.log (h : a.Sourced now history) (hgrows : Grows ready now a b) :
    (∀ w ∈ b.writes, ∀ stamp, w.stamp = some stamp → stamp.time ≤ now) ∧
      (b.faulted = false → ∀ stamp ∈ b.entries,
        stamp ∈ history ∨ ∃ w ∈ b.writes, w.stamp = some stamp) := by
  have hrecorded : b.faulted = false → ∀ stamp ∈ a.entries,
      stamp ∈ history ∨ ∃ w ∈ a.writes, w.stamp = some stamp :=
    fun hfaulted => h.recorded (hgrows.faulted ▸ hfaulted)
  rcases hgrows.log with ⟨hs, he, hw⟩ | ⟨thread, stamp, hfits, hlinked, htime, hs, he, hw⟩ |
    ⟨thread, hpoint, hs, he, hw⟩
  · rw [he, hw]
    exact ⟨h.times, hrecorded⟩
  · rw [he, hw]
    refine ⟨fun w hmem stamp' hstamp => ?_, fun hfaulted stamp' hmem => ?_⟩
    · rw [mem_snoc] at hmem
      rcases hmem with hmem | rfl
      · exact h.times w hmem stamp' hstamp
      · cases hstamp
        exact Nat.le_of_eq htime
    · rw [mem_snoc] at hmem
      rcases hmem with hmem | rfl
      · obtain hold | ⟨w, hw', hstamp⟩ := hrecorded hfaulted stamp' hmem
        · exact .inl hold
        · exact .inr ⟨w, List.mem_append_left _ hw', hstamp⟩
      · exact .inr ⟨_, List.mem_append_right _ List.mem_cons_self, rfl⟩
  · rw [he, hw]
    refine ⟨fun w hmem stamp' hstamp => ?_, fun hfaulted stamp' hmem => ?_⟩
    · rw [mem_snoc] at hmem
      rcases hmem with hmem | rfl
      · exact h.times w hmem stamp' hstamp
      · cases hstamp
    · obtain hold | ⟨w, hw', hstamp⟩ := hrecorded hfaulted stamp' hmem
      · exact .inl hold
      · exact .inr ⟨w, List.mem_append_left _ hw', hstamp⟩

theorem Sourced.op (h : a.Sourced now history) (hgrows : Grows ready now a b)
    (hdisarms : Disarms a b) : b.Sourced now history where
  timer timer htimer := h.timer timer (hdisarms.timer timer htimer)
  ticks seq hmem := h.ticks seq (hdisarms.ticks _ hmem)
  armings arming hmem := h.armings arming (hdisarms.armings arming hmem)
  times := (h.log hgrows).1
  recorded := (h.log hgrows).2

/-- The sleep in state is recorded, with all that its wake carries. -/
def Recorded (history : List Stamp) (a : Activation) : Prop :=
  ∀ wake, a.state.wake = some wake →
    ∃ stamp ∈ history, stamp.entry = .sleep wake.until_ wake.seq wake.durable wake.after

theorem Sourced.nudge (h : a.Sourced now history) (hrecorded : a.Recorded history)
    (hgrows : Grows ready now a (a.nudge now)) : (a.nudge now).Sourced now history := by
  obtain hdisarms | ⟨wake, hwake, hticks, htimers, harmings⟩ := disarms_nudge now a
  · exact h.op hgrows hdisarms
  have hslept : Slept history wake.seq (now + (wake.until_ - now)) := by
    obtain ⟨stamp, hmem, hentry⟩ := hrecorded wake hwake
    exact ⟨stamp, hmem, _, _, _, hentry, by omega⟩
  refine ⟨fun timer htimer => ?_, fun seq hmem => h.ticks seq (hticks ▸ hmem),
    fun arming hmem => ?_, (h.log hgrows).1, (h.log hgrows).2⟩
  · rcases htimers timer htimer with hold | rfl
    · exact h.timer timer hold
    · exact hslept
  · rcases harmings arming hmem with hold | rfl
    · exact h.armings arming hold
    · exact hslept

theorem Sourced.resume {write : Write} (h : a.Sourced now history)
    (hwrite : write.Sound) (htimes : ∀ stamp, write.stamp = some stamp → stamp.time ≤ now)
    (hlanded : ∀ stamp, write.stamp = some stamp → stamp ∈ history)
    (hgrows : Grows ready now a (a.resume now write.thread)) :
    (a.resume now write.thread).Sourced now history := by
  obtain hdisarms | ⟨ms, seq, durable, hpoint, hticks, htimers, harmings⟩ :=
    disarms_resume now a write.thread
  · exact h.op hgrows hdisarms
  · have hslept : Slept history seq (now + ms) := by
      cases hstamp : write.stamp with
      | none =>
        have hsaved := hwrite.saved hstamp
        rw [hpoint] at hsaved
        cases hsaved
      | some stamp =>
        have hlinked := hwrite.linked stamp hstamp
        rw [hpoint] at hlinked
        obtain ⟨after, hentry⟩ := hlinked
        have htime := htimes stamp hstamp
        exact ⟨stamp, hlanded stamp hstamp, _, _, _, hentry, by omega⟩
    refine ⟨fun timer htimer => ?_, fun seq hmem => h.ticks seq (hticks ▸ hmem),
      fun arming hmem => ?_, (h.log hgrows).1, (h.log hgrows).2⟩
    · obtain rfl := htimers timer htimer
      exact hslept
    · rcases harmings arming hmem with hold | rfl
      · exact h.armings arming hold
      · exact hslept

/-- A pending sleep is a turn's. -/
theorem turn_of_sleep {w : Write} (hw : w.Sound) (hapart : w.thread.Apart) {stamp : Stamp}
    (hstamp : w.stamp = some stamp) {until_ seq : Nat} {durable : Bool} {after : Option String}
    (hentry : stamp.entry = .sleep until_ seq durable after) : w.thread.turn = true := by
  have hlinked := hw.linked stamp hstamp
  refine turn_of hapart ?_
  cases hpoint : w.thread.point with
  | slept | started | attempted | assigned => rfl
  | moved =>
    rw [hpoint] at hlinked
    obtain ⟨to_, seq, h⟩ := hlinked
    rw [hentry] at h
    cases h
  | woken seq after =>
    rw [hpoint] at hlinked
    rw [show stamp.entry = .wake seq from hlinked] at hentry
    cases hentry
  | ended =>
    rw [hpoint] at hlinked
    obtain ⟨status, error, h⟩ := hlinked
    rw [hentry] at h
    cases h
  | saved =>
    rw [hpoint] at hlinked
    exact absurd hlinked id

/-- While no turn is at work, the sleep in state is recorded. -/
theorem Sourced.awake (h : a.Sourced now history) (hfolded : a.Folded) (hlane : a.Lane)
    (hhonest : Honest ready a.entries) (hbusy : a.busy = false) (hfaulted : a.faulted = false) :
    a.Recorded history := by
  intro wake hwake
  rw [hfolded.state] at hwake
  obtain ⟨stamp, hmem, hentry⟩ := hhonest.sleep_of_wake hwake
  obtain hrecorded | ⟨w, hw, hstamp⟩ := h.recorded hfaulted stamp hmem
  · exact ⟨stamp, hrecorded, hentry⟩
  · have hturn := turn_of_sleep (hfolded.writes w hw) (hlane.apart w hw) hstamp hentry
    exact absurd (hturn.symm.trans ((hlane.idle hbusy).1 w hw)) (by simp)

end Activation

/-- No reminder is delivered to a later sleep than its own. -/
def Run.Prompt (s : Run) (l : Label) : Prop :=
  match l with
  | .deliver k i _ =>
      ∀ reminder ∈ s.deliveries[k]?, ∀ a ∈ s.activations[i]?, ∀ wake ∈ a.state.wake,
        wake.seq = reminder.seq
  | _ => True

namespace Run

variable {options : WorkflowOptions} {s t : Run} {l : Label} {i : Nat} {a b : Activation}

theorem not_faulted (h : a.free = true) : a.faulted = false := by
  simp only [Activation.free, Bool.and_eq_true, Bool.not_eq_true'] at h
  exact h.2

/-- All the run's invariants. -/
structure Sleeping (s : Run) : Prop where
  folded : s.Folded
  tagged : s.Tagged
  laned : s.Laned
  coherent : s.Coherent Due
  sourced : s.Sourced

theorem Sleeping.awake (h : s.Sleeping) (hget : s.activations[i]? = some a)
    (hbusy : a.busy = false) (hfaulted : a.faulted = false) : a.Recorded s.history :=
  have ha := mem_of_get hget
  (h.sourced.activations a ha).awake (h.folded.activations a ha) (h.laned a ha)
    (h.coherent.activations a ha).entries hbusy hfaulted

/-- Whatever source wakes a sleep was armed for it, and is due. -/
theorem Sleeping.ready (h : s.Sleeping) (hprompt : s.Prompt l) : s.Ready Due l := by
  have hdue : ∀ {j seq : Nat} {c : Activation}, s.activations[j]? = some c → c.busy = false →
      c.faulted = false → Slept s.history seq s.now →
      ∀ wake, c.state.wake = some wake → wake.seq = seq → Due wake seq s.now := by
    intro j seq c hget hbusy hfaulted hslept wake hwake hseq
    obtain ⟨stamp, hmem, hentry⟩ := h.awake hget hbusy hfaulted wake hwake
    rw [hseq] at hentry
    exact ⟨h.coherent.history.slept_of_wake hslept hmem hentry, hseq.symm⟩
  refine ⟨fun wake hle => ⟨hle, rfl⟩, ?_, ?_⟩
  · rintro j k seq c rfl hget htick hbusy hfaulted wake hwake hseq
    have hmem : Tick.wake seq ∈ c.ticks := List.mem_of_getElem? htick
    exact hdue hget hbusy hfaulted
      ((h.sourced.activations c (mem_of_get hget)).ticks seq hmem) wake hwake hseq
  · rintro k j again reminder c rfl hdelivery hget hfree wake hwake
    have hseq : wake.seq = reminder.seq := hprompt reminder hdelivery c hget wake hwake
    exact hdue hget (not_busy hfree) (not_faulted hfree)
      (h.sourced.deliveries reminder (List.mem_of_getElem? hdelivery)) wake hwake hseq

theorem Sourced.put (h : s.Sourced) (hb : b.Sourced s.now s.history) : (s.put i b).Sourced :=
  { h with activations := fun c hc => (mem_put hc).elim (h.activations c) fun heq => heq ▸ hb }

/-- A write that lands is added to the history, and a wake of it goes on at most once. -/
theorem Sourced.land {write : Write} {rest : List Write} (h : s.Sourced) (hwrite : write.Sound)
    (hwrites : a.writes = write :: rest) (hchained : Chained s.history a.writes a.entries) :
    (s.land a.etag write).Sourced ∧ ((s.land a.etag write).note i write.thread.point).Sourced := by
  have hhistory := history_land hwrites hchained
  rw [hwrites] at hchained
  have hentries : write.entries = s.history ++ write.stamp.toList := hchained.1
  have hsub : ∀ stamp ∈ s.history, stamp ∈ (s.land a.etag write).history := fun stamp hmem => by
    rw [hhistory, hentries]
    exact List.mem_append_left _ hmem
  have hnow : (s.land a.etag write).now = s.now := by
    unfold Run.land
    split <;> rfl
  have hreminder : (s.land a.etag write).reminder = s.reminder := by
    unfold Run.land
    split <;> rfl
  have hdeliveries : (s.land a.etag write).deliveries = s.deliveries := by
    unfold Run.land
    split <;> rfl
  have hcontinued : (s.land a.etag write).continued = s.continued := by
    unfold Run.land
    split <;> rfl
  have hcount : ∀ seq, (s.land a.etag write).history.countP (fun stamp => stamp.entry.isWake seq) =
      s.history.countP (fun stamp => stamp.entry.isWake seq) +
        write.stamp.toList.countP (fun stamp => stamp.entry.isWake seq) := fun seq => by
    rw [hhistory, hentries, List.countP_append]
  have hland : (s.land a.etag write).Sourced := by
    refine ⟨fun c hc => ?_, fun reminder hget => ?_, fun reminder hmem => ?_, fun seq => ?_⟩
    · rw [activations_land] at hc
      exact (h.activations c hc).mono (Nat.le_of_eq hnow.symm) hsub
    · exact (h.reminder reminder (hreminder ▸ hget)).mono hsub (Nat.le_refl _)
    · exact (h.deliveries reminder (hdeliveries ▸ hmem)).mono hsub (Nat.le_of_eq hnow.symm)
    · rw [hcontinued, hcount]
      exact Nat.le_trans (h.continued seq) (Nat.le_add_right _ _)
  refine ⟨hland, ?_⟩
  cases hpoint : write.thread.point with
  | woken seq after =>
    refine { hland with continued := fun seq' => ?_ }
    show ((s.land a.etag write).continued ++ [seq]).count seq' ≤
      (s.land a.etag write).history.countP _
    rw [hcontinued, hcount, List.count_append]
    have hone : [seq].count seq' ≤
        write.stamp.toList.countP (fun stamp => stamp.entry.isWake seq') := by
      cases hstamp : write.stamp with
      | none => exact absurd (hpoint.symm.trans (hwrite.saved hstamp)) (by simp)
      | some stamp =>
        have hlinked := hwrite.linked stamp hstamp
        rw [hpoint] at hlinked
        rw [Option.toList_some, List.countP_singleton,
          show stamp.entry = .wake seq from hlinked, List.count_singleton]
        simp [RunEntry.isWake]
    exact Nat.add_le_add (h.continued seq') hone
  | attempted id node n => exact { hland with }
  | _ => exact hland

theorem Sleeping.sourced_step (h : s.Sleeping) (hworks : l.works) (hready : s.Ready Due l)
    (hstep : s.step options l = some t) : t.Sourced := by
  have hof : ∀ {j : Nat} {c : Activation}, s.activations[j]? = some c →
      c.Sourced s.now s.history := fun hget => h.sourced.activations _ (mem_of_get hget)
  have hop : ∀ {j : Nat} {c d e : Activation}, s.activations[j]? = some c →
      Grows Due s.now d e → Disarms d e →
      (c.Sourced s.now s.history → d.Sourced s.now s.history) → (s.put j e).Sourced :=
    fun hget hgrows hdisarms hd => h.sourced.put ((hd (hof hget)).op hgrows hdisarms)
  have hlost : ∀ {j : Nat} {c d e : Activation} {w : Write} {rest : List Write},
      s.activations[j]? = some c → c.writes = w :: rest → Grows Due s.now d e → Disarms d e →
      d.wakeTimer = c.wakeTimer → d.ticks = c.ticks → d.armings = c.armings → d.writes = rest →
      d.faulted = true → (s.put j e).Sourced := by
    intro j c d e w rest hget hwrites hgrows hdisarms htimer hticks harmings hw hfaulted
    have hc := hof hget
    have hd : d.Sourced s.now s.history :=
      ⟨fun timer ht => hc.timer timer (htimer ▸ ht), fun seq hmem => hc.ticks seq (hticks ▸ hmem),
        fun arming hmem => hc.armings arming (harmings ▸ hmem),
        fun w' hmem => hc.times w' (hwrites ▸ List.mem_cons_of_mem w (hw ▸ hmem)),
        fun hfalse => absurd (hfalse.symm.trans hfaulted) (by simp)⟩
    exact h.sourced.put (hd.op hgrows hdisarms)
  have hnudge : ∀ c : Activation, Grows Due s.now c (c.nudge s.now) :=
    fun c => Activation.grows_nudge fun wake _ hdue => hready.nudge wake hdue
  cases Run.stepped hstep with
  | elapse ms =>
    exact ⟨fun c hc => (h.sourced.activations c hc).mono (Nat.le_add_right _ _) fun _ => id,
      h.sourced.reminder,
      fun reminder hmem =>
        (h.sourced.deliveries reminder hmem).mono (fun _ => id) (Nat.le_add_right _ _),
      h.sourced.continued⟩
  | activate =>
    have hloaded : s.loaded.Sourced s.now s.history :=
      Activation.sourced_still rfl rfl rfl rfl fun _ => id
    have hrecorded : s.loaded.Recorded s.history := by
      intro wake hwake
      rw [h.folded.loaded.state] at hwake
      exact h.coherent.history.sleep_of_wake hwake
    refine ⟨fun c hc => ?_, h.sourced.reminder, h.sourced.deliveries, h.sourced.continued⟩
    rw [mem_snoc] at hc
    rcases hc with hc | rfl
    · exact h.sourced.activations c hc
    · exact hloaded.nudge hrecorded (hnudge _)
  | start name vars version hget hfree =>
    exact hop hget Activation.grows_start Activation.disarms_start fun h =>
      ⟨h.timer, h.ticks, h.armings, h.times, h.recorded⟩
  | @status i a hget hfree =>
    have ha := hof hget
    have hbusy : Activation.Sourced s.now s.history { a with busy := true } :=
      ⟨ha.timer, ha.ticks, ha.armings, ha.times, ha.recorded⟩
    have hrecorded : Activation.Recorded s.history { a with busy := true } :=
      fun wake hwake => h.awake hget (not_busy hfree) (not_faulted hfree) wake hwake
    have hb := hbusy.nudge hrecorded (hnudge _)
    exact h.sourced.put ⟨hb.timer, hb.ticks, hb.armings, hb.times, hb.recorded⟩
  | fireAdvance hget htimer =>
    refine h.sourced.put ⟨(hof hget).timer, fun seq hmem => ?_, (hof hget).armings,
      (hof hget).times, (hof hget).recorded⟩
    rw [mem_snoc] at hmem
    exact hmem.elim ((hof hget).ticks seq) (nomatch ·)
  | fireWake hget htimer hdue =>
    refine h.sourced.put ⟨fun _ hnone => absurd hnone (by simp), fun seq hmem => ?_,
      (hof hget).armings, (hof hget).times, (hof hget).recorded⟩
    rw [mem_snoc] at hmem
    rcases hmem with hmem | heq
    · exact (hof hget).ticks seq hmem
    · obtain rfl := Tick.wake.inj heq
      exact ((hof hget).timer _ htimer).mono (fun _ => id) hdue
  | tickFaulted hget htick hbusy hfaulted =>
    exact h.sourced.put ⟨(hof hget).timer,
      fun seq hmem => (hof hget).ticks seq (List.mem_of_mem_eraseIdx hmem), (hof hget).armings,
      (hof hget).times, (hof hget).recorded⟩
  | tickAdvance hget htick hbusy hfaulted =>
    exact hop hget Activation.grows_advance Activation.disarms_advance fun h =>
      ⟨h.timer, fun seq hmem => h.ticks seq (List.mem_of_mem_eraseIdx hmem), h.armings, h.times,
        h.recorded⟩
  | tickWake hget htick hbusy hfaulted =>
    refine hop hget (Activation.grows_wake fun wake hwake hseq => ?_) Activation.disarms_wake
      fun h => ⟨h.timer, fun seq hmem => h.ticks seq (List.mem_of_mem_eraseIdx hmem), h.armings,
        h.times, h.recorded⟩
    exact hready.tick _ _ _ _ rfl hget htick hbusy hfaulted wake hwake hseq
  | remind hget hdue =>
    refine ⟨h.sourced.activations, fun _ hnone => absurd hnone (by simp), fun reminder hmem => ?_,
      h.sourced.continued⟩
    rw [mem_snoc] at hmem
    rcases hmem with hmem | rfl
    · exact h.sourced.deliveries reminder hmem
    · exact (h.sourced.reminder _ hget).mono (fun _ => id) hdue
  | @deliver k i reminder a again hdelivery hget hfree =>
    have ha := hof hget
    have hbusy : Activation.Sourced s.now s.history { a with busy := true } :=
      ⟨ha.timer, ha.ticks, ha.armings, ha.times, ha.recorded⟩
    have hgrows : Grows Due s.now { a with busy := true }
        (Activation.onReminder s.now { a with busy := true } reminder.seq) :=
      Activation.grows_onReminder fun wake hwake =>
        hready.deliver k i again reminder a rfl hdelivery hget hfree wake hwake
    have hdisarms : Disarms { a with busy := true }
        (Activation.onReminder s.now { a with busy := true } reminder.seq) := by
      unfold Activation.onReminder
      split
      · rename_i hwake
        obtain hnudged | ⟨wake, hsome, -⟩ :=
          Activation.disarms_nudge s.now { a with busy := true }
        · exact ⟨hnudged.timer, hnudged.ticks, hnudged.armings⟩
        · exact absurd (hwake.symm.trans hsome) (by simp)
      · exact Activation.disarms_wake
    have ht := h.sourced.put (i := i) (hbusy.op hgrows hdisarms)
    refine ⟨ht.activations, ht.reminder, fun reminder' hmem => ?_, ht.continued⟩
    refine h.sourced.deliveries reminder' ?_
    split at hmem
    · exact hmem
    · exact List.mem_of_mem_eraseIdx hmem
  | lost k =>
    exact ⟨h.sourced.activations, h.sourced.reminder,
      fun reminder hmem => h.sourced.deliveries reminder (List.mem_of_mem_eraseIdx hmem),
      h.sourced.continued⟩
  | putBack hdelivery hdue =>
    refine ⟨h.sourced.activations, fun reminder hget => ?_,
      fun reminder hmem => h.sourced.deliveries reminder (List.mem_of_mem_eraseIdx hmem),
      h.sourced.continued⟩
    cases hget
    exact (h.sourced.deliveries _ (List.mem_of_getElem? hdelivery)).mono (fun _ => id)
      (Nat.le_of_lt hdue)
  | rejected message jitter hget hwrites hbad =>
    have hfaulted := hbad.resolve_right fun hok => Bool.noConfusion (hok.symm.trans hworks)
    exact hlost hget hwrites Activation.grows_reject Activation.disarms_reject rfl rfl rfl rfl
      hfaulted
  | @landed i a write rest message jitter hget hwrites hfaulted hfresh =>
    have hmem := mem_of_get hget
    have hwrite : write.Sound :=
      (h.folded.activations a hmem).writes _ (hwrites ▸ List.mem_cons_self)
    have hchained := h.coherent.chained a hmem hfresh
    obtain ⟨hland, hnote⟩ := h.sourced.land (i := i) hwrite hwrites hchained
    have hhistory := history_land hwrites hchained
    rw [hwrites] at hchained
    have hentries : write.entries = s.history ++ write.stamp.toList := hchained.1
    have hlanded : ∀ stamp, write.stamp = some stamp → stamp ∈ (s.land a.etag write).history := by
      intro stamp hstamp
      rw [hhistory, hentries, hstamp]
      exact List.mem_append_right _ List.mem_cons_self
    have hnow : (s.land a.etag write).now = s.now := by
      unfold Run.land
      split <;> rfl
    have ha : a.Sourced s.now (s.land a.etag write).history :=
      hnow ▸ hland.activations a (by rw [activations_land]; exact hmem)
    have hb : Activation.Sourced s.now (s.land a.etag write).history
        { a with writes := rest, etag := (s.land a.etag write).etag } := by
      refine ⟨ha.timer, ha.ticks, ha.armings,
        fun w hw => ha.times w (hwrites ▸ List.mem_cons_of_mem _ hw), fun hf stamp hstamp => ?_⟩
      obtain hold | ⟨w, hw, hs⟩ := ha.recorded hf stamp hstamp
      · exact .inl hold
      rw [hwrites] at hw
      rcases List.mem_cons.1 hw with rfl | hw
      · exact .inl (hlanded stamp hs)
      · exact .inr ⟨w, hw, hs⟩
    refine hnote.put ?_
    rw [history_note]
    have htimes := ha.times write (hwrites ▸ List.mem_cons_self)
    have hnow' : ((s.land a.etag write).note i write.thread.point).now = s.now := by
      unfold Run.note
      split <;> exact hnow
    rw [hnow']
    exact hb.resume hwrite htimes hlanded (grows_resumed _ write.thread)
  | conflicted message jitter hget hwrites hne =>
    exact hlost hget hwrites Activation.grows_reject Activation.disarms_reject rfl rfl rfl rfl rfl
  | returned out hget hcall =>
    exact hop hget Activation.grows_returned Activation.disarms_returned id
  | threw message jitter hget hcall =>
    exact hop hget Activation.grows_threw Activation.disarms_threw id
  | @armed i k a arming hget harming =>
    have hd : Activation.Sourced s.now s.history { a with armings := a.armings.eraseIdx k } :=
      ⟨(hof hget).timer, (hof hget).ticks,
        fun x hx => (hof hget).armings x (List.mem_of_mem_eraseIdx hx), (hof hget).times,
        (hof hget).recorded⟩
    have ht := h.sourced.put (i := i) (hd.op (grows_disarmed Due a k arming) Activation.disarms_armed)
    refine ⟨ht.activations, fun reminder hget' => ?_, ht.deliveries, ht.continued⟩
    cases hget'
    exact (hof hget).armings arming (List.mem_of_getElem? harming)
  | unarmed hget harming =>
    exact hop hget Activation.grows_armed Activation.disarms_armed fun h =>
      ⟨h.timer, h.ticks, fun x hx => h.armings x (List.mem_of_mem_eraseIdx hx), h.times,
        h.recorded⟩
  | @crashLanded i a write rest hget hwrites hfaulted hfresh =>
    have hmem := mem_of_get hget
    have hwrite : write.Sound :=
      (h.folded.activations a hmem).writes _ (hwrites ▸ List.mem_cons_self)
    have hland := (h.sourced.land (i := i) hwrite hwrites (h.coherent.chained a hmem hfresh)).1
    exact hland.put Activation.sourced_dead
  | crashed hget =>
    exact h.sourced.put Activation.sourced_dead
  | deactivate hget hbusy hticks =>
    exact h.sourced.put ⟨fun _ hnone => absurd hnone (by simp), (hof hget).ticks,
      (hof hget).armings, (hof hget).times, (hof hget).recorded⟩

theorem Sleeping.step (h : s.Sleeping) (hworks : l.works) (hprompt : s.Prompt l)
    (hstep : s.step options l = some t) : t.Sleeping :=
  have hready := h.ready hprompt
  ⟨h.folded.step hstep, h.tagged.step hstep, h.laned.step hstep,
    h.coherent.step h.folded h.tagged hworks hready hstep,
    h.sourced_step hworks hready hstep⟩

theorem sleeping_initial (h : Run.initial s) : s.Sleeping := by
  refine ⟨folded_initial h, tagged_initial h, laned_initial h, coherent_initial h, ?_⟩
  obtain rfl := h
  exact ⟨List.forall_mem_nil _, fun _ hnone => absurd hnone (by simp),
    List.forall_mem_nil _, fun _ => Nat.zero_le _⟩

/-! ## The property -/

/-- Every recorded wake is of an earlier sleep that had ended, from a source armed for this sleep;
a sleep is woken from at most once, and its wake goes on at most once. -/
structure SleepsEndOnce (s : Run) : Prop where
  due : ∀ before stamp after seq, s.history = before ++ stamp :: after →
    stamp.entry = .wake seq → Slept before seq stamp.time ∧ stamp.source = some seq
  once : ∀ seq, s.history.countP (fun stamp => stamp.entry.isWake seq) ≤ 1
  continued : ∀ seq, s.continued.count seq ≤ 1

theorem SleepsEndOnce.source_of_get (h : s.SleepsEndOnce) (k : Nat) (stamp : Stamp) {seq : Nat}
    (hget : s.history[k]? = some stamp) (hentry : stamp.entry = .wake seq) :
    stamp.source = some seq := by
  obtain ⟨before, after, heq⟩ := List.append_of_mem (List.mem_of_getElem? hget)
  exact (h.due before stamp after seq heq hentry).2

theorem Sleeping.sleepsEndOnce (h : s.Sleeping) : s.SleepsEndOnce := by
  have hfresh := h.coherent.history.fresh
  refine ⟨fun before stamp after seq heq hentry => ?_, hfresh.once, fun seq => ?_⟩
  · obtain ⟨hbefore, hfits⟩ := h.coherent.history.split heq
    rw [Fits, hentry] at hfits
    obtain ⟨wake, source, hwake, rfl, hsource, hdue, rfl⟩ := hfits
    obtain ⟨sleep, hmem, hsleep⟩ := hbefore.sleep_of_wake hwake
    exact ⟨⟨sleep, hmem, _, _, _, hsleep, hdue⟩, hsource⟩
  · exact Nat.le_trans (h.sourced.continued seq) (hfresh.once seq)

end Run

def twoNaps : WorkflowOptions where
  definitions := [⟨"nap", 1, "long", (JsMap.empty.set "long" (.delay 10 (some "short"))).set "short"
    (.delay 5 none)⟩]
  handlers := []
  timerThresholdMs := 10

/-- The run sleeps the first delay, and its reminder fires on time. -/
def firstNap : List Label :=
  [.activate, .start 0 "nap" .empty none, .settle 0 true "" 0, .settle 0 true "" 0, .fireAdvance 0,
    .tick 0 0, .settle 0 true "" 0, .arm 0 0 true, .deactivate 0, .elapse 10, .remind]

/-- A touch wakes the run before the reminder is delivered, and it sleeps the second delay. -/
def secondNap : List Label :=
  [.activate, .settle 1 true "" 0, .settle 1 true "" 0, .fireAdvance 1, .tick 1 0,
    .settle 1 true "" 0]

instance (s : Run) (l : Label) : Decidable (s.Prompt l) := by
  induction l using Label.casesOn <;> dsimp only [Run.Prompt] <;> infer_instance

end SigxActors.Workflow
