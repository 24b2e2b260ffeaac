/-
  Workflow/Lane.lean --- who holds the lane of an activation.

  At most one thread does, wherever it awaits; a recovery step never does, and it
  only wakes, moves or ends the run.
-/
import SigxActors.Workflow.Coherence

set_option autoImplicit false

namespace SigxActors.Workflow

open SigxActors.Js

/-- Where a recovery step may await. -/
def Point.recovers : Point → Bool
  | .woken .. | .moved | .ended | .saved => true
  | _ => false

/-- A recovery step stays on its own path, outside any `try` block. -/
def Thread.Apart (thread : Thread) : Prop :=
  thread.turn = false → thread.retrying = none ∧ thread.point.recovers = true

/-- An element leaves a list. -/
theorem countP_eraseIdx {α : Type} (p : α → Bool) {x : α} :
    ∀ {l : List α} {k : Nat}, l[k]? = some x →
      l.countP p = (l.eraseIdx k).countP p + (p x).toNat := by
  intro l
  induction l with
  | nil => intro k h; simp at h
  | cons first rest ih =>
    intro k h
    have hbit : ∀ y, (if p y = true then 1 else 0) = (p y).toNat := fun y => by
      cases p y with
      | true | false => rfl
    cases k with
    | zero =>
      cases h
      rw [List.countP_cons, List.eraseIdx_cons_zero, hbit]
    | succ k =>
      rw [List.countP_cons, List.eraseIdx_cons_succ, List.countP_cons, ih h]
      omega

namespace Activation

variable {options : WorkflowOptions} {now : Nat} {a : Activation} {thread : Thread}

/-- How many of its threads hold the lane. -/
def turns (a : Activation) : Nat :=
  a.writes.countP (·.thread.turn) + a.call.toList.length + a.armings.countP (·.turn)

structure Lane (a : Activation) : Prop where
  turns : a.turns = a.busy.toNat
  apart : ∀ w ∈ a.writes, w.thread.Apart

/-- Beside `thread`, which is running. -/
structure LaneBut (a : Activation) (thread : Thread) : Prop where
  turns : a.turns + thread.turn.toNat = a.busy.toNat
  apart : ∀ w ∈ a.writes, w.thread.Apart

/-- While nothing holds the lane, no turn awaits anything. -/
theorem Lane.idle (h : a.Lane) (hbusy : a.busy = false) :
    (∀ w ∈ a.writes, w.thread.turn = false) ∧ a.call = none ∧ ∀ x ∈ a.armings, x.turn = false := by
  have hturns := h.turns
  rw [hbusy, Bool.toNat_false, Activation.turns] at hturns
  refine ⟨fun w hw => ?_, ?_, fun x hx => ?_⟩
  · have hzero : a.writes.countP (·.thread.turn) = 0 := by omega
    simpa using List.countP_eq_zero.1 hzero w hw
  · have hzero : a.call.toList.length = 0 := by omega
    cases hcall : a.call with
    | none => rfl
    | some call => simp [hcall] at hzero
  · have hzero : a.armings.countP (·.turn) = 0 := by omega
    simpa using List.countP_eq_zero.1 hzero x hx

/-- A turn begins. -/
theorem Lane.begin {ticks : List Tick} (h : a.Lane) (hbusy : a.busy = false)
    (hturn : thread.turn = true) : LaneBut { a with ticks := ticks, busy := true } thread := by
  refine ⟨?_, h.apart⟩
  have hturns := h.turns
  rw [hbusy] at hturns
  rw [hturn]
  exact congrArg (· + 1) hturns

/-- A recovery step begins. -/
theorem Lane.recover (h : a.Lane) (hturn : thread.turn = false) : a.LaneBut thread :=
  ⟨by rw [hturn]; exact h.turns, h.apart⟩

/-- A write joins the gate. -/
theorem turns_push (w : Write) :
    turns { a with writes := a.writes ++ [w] } = a.turns + w.thread.turn.toNat := by
  simp only [turns, List.countP_append, List.countP_singleton]
  cases w.thread.turn with
  | true => simp only [if_true, Bool.toNat_true]; omega
  | false => simp only [Bool.false_eq_true, if_false, Bool.toNat_false]; omega

theorem LaneBut.push {w : Write} (h : a.LaneBut thread) (hturn : w.thread.turn = thread.turn)
    (hapart : w.thread.Apart) : Lane { a with writes := a.writes ++ [w] } := by
  refine ⟨(turns_push w).trans (hturn ▸ h.turns), fun w' hmem => ?_⟩
  rw [mem_snoc] at hmem
  rcases hmem with hmem | rfl
  · exact h.apart w' hmem
  · exact hapart

theorem LaneBut.append {entry : RunEntry} {source : Option Nat} (h : a.LaneBut thread)
    (hapart : thread.Apart) : (a.append now entry source thread).Lane := by
  have hpush := h.push (w := ⟨thread, some ⟨entry, now, source⟩, applyRunEntry a.state entry,
    a.entries ++ [⟨entry, now, source⟩]⟩) rfl hapart
  exact ⟨hpush.turns, hpush.apart⟩

theorem LaneBut.done (h : a.LaneBut thread) : (a.done thread).Lane := by
  have hturns := h.turns
  unfold Activation.done
  split
  · rename_i hturn
    refine ⟨?_, h.apart⟩
    rw [hturn] at hturns
    show a.turns = 0
    have hle := Bool.toNat_le a.busy
    rw [Bool.toNat_true] at hturns
    omega
  · rename_i hturn
    rw [Bool.not_eq_true] at hturn
    rw [hturn] at hturns
    exact ⟨hturns, h.apart⟩

/-- A turn that ends at once. -/
theorem LaneBut.end_ (h : a.LaneBut thread) (hturn : thread.turn = true) :
    Lane { a with busy := false } := by
  have hdone := h.done
  rw [Activation.done, if_pos hturn] at hdone
  exact hdone

theorem LaneBut.finish (h : a.LaneBut thread) (hretrying : thread.turn = false → thread.retrying = none)
    (status : EndStatus) (error : Option String) : (a.finish now status error thread).Lane :=
  LaneBut.append (a := a.clearWake) ⟨h.turns, h.apart⟩ fun hturn => ⟨hretrying hturn, rfl⟩

theorem LaneBut.moveTo (h : a.LaneBut thread) (hretrying : thread.turn = false → thread.retrying = none)
    (next : Option String) : (a.moveTo now next thread).Lane := by
  unfold Activation.moveTo
  split
  · exact h.finish hretrying _ _
  split
  · exact h.finish hretrying _ _
  · exact LaneBut.append (a := a.clearWake) ⟨h.turns, h.apart⟩ fun hturn =>
      ⟨hretrying hturn, rfl⟩

theorem LaneBut.sleep (h : a.LaneBut thread) (hturn : thread.turn = true) (ms : Nat)
    (after : Option String) : (a.sleep options now ms after thread).Lane :=
  LaneBut.append ⟨h.turns, h.apart⟩ fun hfalse => absurd (hturn.symm.trans hfalse) (by simp)

theorem LaneBut.wake {seq source : Nat} {turn : Bool} (h : a.LaneBut thread)
    (hturn : thread.turn = turn) : (a.wake now seq source turn).Lane := by
  have hdone := h.done
  rw [Activation.done, hturn] at hdone
  unfold Activation.wake
  split
  · split
    · refine LaneBut.append (a := a.clearWake) ⟨?_, h.apart⟩ fun _ => ⟨rfl, rfl⟩
      rw [← hturn]
      exact h.turns
    · exact hdone
  · exact hdone

theorem LaneBut.wakeApart {seq source : Nat} (h : a.LaneBut thread) :
    (a.wake now seq source false).LaneBut thread := by
  unfold Activation.wake
  split
  · split
    · rename_i wake hwake hseq
      have hturns := turns_push (a := a.clearWake)
        ⟨{ point := .woken seq wake.after, turn := false }, some ⟨.wake seq, now, some source⟩,
          applyRunEntry a.state (.wake seq), a.entries ++ [⟨.wake seq, now, some source⟩]⟩
      refine ⟨?_, fun w hmem => ?_⟩
      · exact (congrArg (· + thread.turn.toNat) hturns).trans h.turns
      · rw [Activation.append, mem_snoc] at hmem
        rcases hmem with hmem | rfl
        · exact h.apart w hmem
        · exact fun _ => ⟨rfl, rfl⟩
    · exact h
  · exact h

/-- A touch takes no part in the lane. -/
theorem LaneBut.nudge (h : a.LaneBut thread) : (a.nudge now).LaneBut thread := by
  unfold Activation.nudge
  split
  · exact h
  split
  · split
    · exact h.wakeApart
    split
    · exact h
    split
    · refine ⟨?_, h.apart⟩
      have hturns := h.turns
      simp only [Activation.turns, List.countP_append, List.countP_singleton] at hturns ⊢
      simpa using hturns
    · exact ⟨h.turns, h.apart⟩
  · exact ⟨h.turns, h.apart⟩

theorem Lane.nudge (h : a.Lane) : (a.nudge now).Lane :=
  have hbut : (a.nudge now).LaneBut { point := .ended, turn := false } := (h.recover rfl).nudge
  ⟨hbut.turns, hbut.apart⟩

theorem LaneBut.runTask (h : a.LaneBut thread) (hturn : thread.turn = true) (id : String)
    (node : TaskNode) : (a.runTask options now id node thread).Lane := by
  have hfalse : thread.turn = false → False := fun h => absurd (hturn.symm.trans h) (by simp)
  unfold Activation.runTask
  split
  · exact LaneBut.append ⟨h.turns, h.apart⟩ fun hf => absurd hf hfalse
  · exact h.finish (fun hf => absurd hf hfalse) _ _

section

variable (h : a.LaneBut { point := .ended, turn := true })
include h

theorem LaneBut.advance : (a.advance options now).Lane := by
  have hend := h.end_ rfl
  unfold Activation.advance
  split
  · split
    · exact hend
    split
    · exact h.finish (fun _ => rfl) _ _
    · exact hend
    · exact h.runTask rfl _ _
    · exact h.sleep rfl _ _
    · split <;> exact h.moveTo (fun _ => rfl) _
    · exact h.finish (fun _ => rfl) _ _
  · exact hend

theorem LaneBut.start {name : String} {vars : JsMap String Json} {version : Option Int} :
    (a.start options now name vars version).Lane := by
  have hend := h.end_ rfl
  unfold Activation.start
  split
  · exact hend
  split
  · exact hend
  split
  · exact hend
  · exact LaneBut.append ⟨h.turns, h.apart⟩ fun hf => absurd hf (by simp)

theorem LaneBut.onReminder {source : Nat} : (a.onReminder now source).Lane := by
  unfold Activation.onReminder
  split
  · exact h.nudge.end_ rfl
  · exact h.wake rfl

end

/-- Off the paths of a recovery step, a thread holds the lane. -/
theorem turn_of (hapart : thread.Apart) (hpoint : thread.point.recovers = false) :
    thread.turn = true := by
  cases hturn : thread.turn with
  | true => rfl
  | false => exact absurd ((hapart hturn).2.symm.trans hpoint) (by simp)

theorem LaneBut.resume (h : a.LaneBut thread) (hapart : thread.Apart) :
    (a.resume now thread).Lane := by
  unfold Activation.resume
  split
  · exact LaneBut.append ⟨h.turns, h.apart⟩ fun hf => ⟨(hapart hf).1, rfl⟩
  · exact LaneBut.done (a := a.armAdvance) ⟨h.turns, h.apart⟩
  · rename_i ms seq durable hpoint
    have hturn : thread.turn = true := turn_of hapart (by rw [hpoint]; rfl)
    split
    · refine ⟨?_, h.apart⟩
      have hturns := h.turns
      rw [hturn] at hturns
      simp only [Activation.turns, clearWake, List.countP_append, List.countP_singleton] at hturns ⊢
      simp only [if_true, Bool.toNat_true] at hturns ⊢
      omega
    · exact LaneBut.done (a := { a with armedSeq := some seq, wakeTimer := some ⟨seq, now + ms⟩ })
        ⟨h.turns, h.apart⟩
  · split
    · exact h.moveTo (fun hf => (hapart hf).1) _
    · exact LaneBut.done (a := a.armAdvance) ⟨h.turns, h.apart⟩
  · exact h.push rfl fun hf => ⟨(hapart hf).1, rfl⟩
  · exact h.done
  · rename_i id node n hpoint
    have hturn : thread.turn = true := turn_of hapart (by rw [hpoint]; rfl)
    refine ⟨?_, h.apart⟩
    have hturns := h.turns
    have hle := Bool.toNat_le a.busy
    rw [hturn, Bool.toNat_true] at hturns
    have hcall : a.call.toList.length = 0 := by
      rw [Activation.turns] at hturns
      omega
    show a.writes.countP _ + 1 + a.armings.countP _ = a.busy.toNat
    rw [Activation.turns, hcall] at hturns
    omega
  · exact h.moveTo (fun hf => (hapart hf).1) _

variable {message : String}

/-- A `try` block is in a turn. -/
theorem LaneBut.caught {retrying : Retrying} {jitter : Nat} (h : a.LaneBut thread)
    (hturn : thread.turn = true) : (a.caught options now retrying message jitter thread).Lane := by
  have hbut : a.LaneBut { thread with retrying := none } := ⟨h.turns, h.apart⟩
  unfold Activation.caught
  split
  · exact hbut.finish (fun _ => rfl) _ _
  · exact hbut.sleep hturn _ _

theorem LaneBut.reject {jitter : Nat} (h : a.LaneBut thread) (hapart : thread.Apart) :
    (a.reject options now thread message jitter).Lane := by
  unfold Activation.reject
  split
  · rename_i retrying hretrying
    refine h.caught ?_
    cases hturn : thread.turn with
    | true => rfl
    | false => exact absurd ((hapart hturn).1.symm.trans hretrying) (by simp)
  · exact h.done

/-- A handler call settles. -/
theorem Lane.settled {call : Call} (h : a.Lane) (hcall : a.call = some call)
    (hturn : thread.turn = true) : LaneBut { a with call := none } thread := by
  refine ⟨?_, h.apart⟩
  have hturns := h.turns
  rw [Activation.turns, hcall] at hturns
  rw [hturn]
  simp only [Option.toList_some, List.length_singleton] at hturns
  simp only [Activation.turns, Option.toList_none, List.length_nil, Bool.toNat_true]
  omega

theorem Lane.returned {call : Call} {out : Json} (h : a.Lane) (hcall : a.call = some call) :
    (a.returned now call out).Lane := by
  have hbut : LaneBut { a with call := none }
      { point := .ended, retrying := some call.retrying, turn := true } := h.settled hcall rfl
  have hmove : (Activation.moveTo now { a with call := none } call.node.next
      { point := .ended, retrying := some call.retrying, turn := true }).Lane :=
    hbut.moveTo (fun hf => absurd hf (by simp)) call.node.next
  unfold Activation.returned
  split
  · split
    · exact hmove
    · exact LaneBut.append ⟨hbut.turns, hbut.apart⟩ fun hf => absurd hf (by simp)
  · exact hmove

theorem Lane.threw {call : Call} {jitter : Nat} (h : a.Lane) (hcall : a.call = some call) :
    (a.threw options now call message jitter).Lane :=
  have hbut : LaneBut { a with call := none } { point := .ended, turn := true } :=
    h.settled hcall rfl
  hbut.caught rfl

theorem Lane.armed {k : Nat} {arming : Arming} {ok : Bool} (h : a.Lane)
    (harming : a.armings[k]? = some arming) :
    (Activation.armed { a with armings := a.armings.eraseIdx k } arming ok).Lane := by
  have hcount := countP_eraseIdx (·.turn) harming
  have hturns := h.turns
  rw [Activation.turns, hcount] at hturns
  unfold Activation.armed
  split
  · rename_i hturn
    rw [hturn, Bool.toNat_true] at hturns
    refine ⟨?_, h.apart⟩
    have hle := Bool.toNat_le a.busy
    show a.writes.countP _ + a.call.toList.length + (a.armings.eraseIdx k).countP _ = 0
    omega
  · rename_i hturn
    rw [Bool.not_eq_true] at hturn
    rw [hturn, Bool.toNat_false] at hturns
    refine ⟨?_, h.apart⟩
    show a.writes.countP _ + a.call.toList.length + (a.armings.eraseIdx k).countP _ = a.busy.toNat
    omega

/-- A write leaves the gate, and its thread is running. -/
theorem Lane.tail {w : Write} {rest : List Write} {etag : Option Nat} {faulted : Bool} (h : a.Lane)
    (hwrites : a.writes = w :: rest) :
    LaneBut { a with writes := rest, etag := etag, faulted := faulted } w.thread ∧
      w.thread.Apart := by
  have hturns := h.turns
  rw [Activation.turns, hwrites, List.countP_cons] at hturns
  refine ⟨⟨?_, fun w' hmem => h.apart w' (hwrites ▸ List.mem_cons_of_mem w hmem)⟩,
    h.apart w (hwrites ▸ List.mem_cons_self)⟩
  show rest.countP _ + a.call.toList.length + a.armings.countP _ + w.thread.turn.toNat =
    a.busy.toNat
  cases hturn : w.thread.turn with
  | true =>
    rw [hturn, if_pos rfl] at hturns
    rw [Bool.toNat_true]
    omega
  | false =>
    rw [hturn, if_neg (by simp)] at hturns
    rw [Bool.toNat_false]
    omega

theorem lane_dead : dead.Lane := ⟨rfl, List.forall_mem_nil _⟩

end Activation

/-- So of every activation of a run. -/
def Run.Laned (s : Run) : Prop := ∀ a ∈ s.activations, a.Lane

namespace Run

variable {options : WorkflowOptions} {s t : Run} {l : Label} {i : Nat} {a b : Activation}

theorem Laned.put (h : s.Laned) (hb : b.Lane) : (s.put i b).Laned :=
  fun c hc => (mem_put hc).elim (h c) fun heq => heq ▸ hb

theorem not_busy (h : a.free = true) : a.busy = false := by
  simp only [Activation.free, Bool.and_eq_true, Bool.not_eq_true'] at h
  exact h.1.1

theorem Laned.step (h : s.Laned) (hstep : s.step options l = some t) : t.Laned := by
  have hof : ∀ {j : Nat} {c : Activation}, s.activations[j]? = some c → c.Lane :=
    fun hget => h _ (mem_of_get hget)
  cases Run.stepped hstep with
  | elapse | remind | lost | putBack => exact h
  | activate =>
    intro c hc
    rw [mem_snoc] at hc
    rcases hc with hc | rfl
    · exact h c hc
    · exact Activation.Lane.nudge ⟨rfl, List.forall_mem_nil _⟩
  | start name vars version hget hfree =>
    exact h.put ((hof hget).begin (not_busy hfree) rfl).start
  | @status i a hget hfree =>
    have hbut : Activation.LaneBut { a with busy := true } { point := .ended, turn := true } :=
      (hof hget).begin (not_busy hfree) rfl
    exact h.put (hbut.nudge.end_ rfl)
  | fireAdvance hget htimer => exact h.put ⟨(hof hget).turns, (hof hget).apart⟩
  | fireWake hget htimer hdue => exact h.put ⟨(hof hget).turns, (hof hget).apart⟩
  | tickFaulted hget htick hbusy hfaulted => exact h.put ⟨(hof hget).turns, (hof hget).apart⟩
  | tickAdvance hget htick hbusy hfaulted => exact h.put ((hof hget).begin hbusy rfl).advance
  | @tickWake i k seq a hget htick hbusy hfaulted =>
    have hbut : Activation.LaneBut { a with ticks := a.ticks.eraseIdx k, busy := true }
        { point := .ended, turn := true } := (hof hget).begin hbusy rfl
    exact h.put (hbut.wake rfl)
  | deliver again hdelivery hget hfree =>
    exact h.put ((hof hget).begin (not_busy hfree) rfl).onReminder
  | rejected _ _ hget hwrites | conflicted _ _ hget hwrites =>
    obtain ⟨hbut, hapart⟩ := (hof hget).tail hwrites
    exact h.put (hbut.reject hapart)
  | @landed i a write rest message jitter hget hwrites hfaulted hfresh =>
    obtain ⟨hbut, hapart⟩ := (hof hget).tail hwrites
    have hland : Laned ((s.land a.etag write).note i write.thread.point) := by
      intro c hc
      rw [activations_note, activations_land] at hc
      exact h c hc
    exact hland.put (hbut.resume hapart)
  | returned out hget hcall => exact h.put ((hof hget).returned hcall)
  | threw message jitter hget hcall => exact h.put ((hof hget).threw hcall)
  | armed hget harming | unarmed hget harming => exact h.put ((hof hget).armed harming)
  | @crashLanded i a write rest hget hwrites hfaulted hfresh =>
    have hland : Laned (s.land a.etag write) := by
      intro c hc
      rw [activations_land] at hc
      exact h c hc
    exact hland.put Activation.lane_dead
  | crashed hget => exact h.put Activation.lane_dead
  | deactivate hget hbusy hticks => exact h.put ⟨(hof hget).turns, (hof hget).apart⟩

theorem laned_initial (h : Run.initial s) : s.Laned := by
  obtain rfl := h
  exact List.forall_mem_nil _

end Run

end SigxActors.Workflow
