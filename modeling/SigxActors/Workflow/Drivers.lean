/-
  Workflow/Drivers.lean --- the one thread that may append next.

  A thread drives the run when it may append a further entry: it has a move to
  make, a handler to call, or a `catch` block to run.  An activation has one such
  thread at most, and none but the one that ends the run once the run has ended.

  For this a recovery step that has a move to make must not meet another turn that
  goes on: an accepted `start`, or an `advance` anywhere but at a delay.
-/
import SigxActors.Workflow.Lane

set_option autoImplicit false

namespace SigxActors.Workflow

open SigxActors.Js

/-! ## The end of a log -/

/-- An end has been applied. -/
def Ended (entries : List Stamp) : Prop := ∃ stamp ∈ entries, stamp.entry.isEnd = true

/-- Nothing comes after an end. -/
def Final (entries : List Stamp) : Prop :=
  ∀ before stamp after, entries = before ++ stamp :: after → stamp.entry.isEnd = true → after = []

section

variable {entries : List Stamp} {stamp : Stamp}

theorem final_of_not_ended (h : ¬ Ended entries) : Final entries := by
  intro before stamp after heq hend
  refine absurd ⟨stamp, ?_, hend⟩ h
  rw [heq]
  exact List.mem_append_right _ List.mem_cons_self

theorem final_snoc (h : ¬ Ended entries) : Final (entries ++ [stamp]) := by
  intro before last after heq hend
  rcases List.eq_nil_or_concat after with rfl | ⟨rest, last', rfl⟩
  · rfl
  rw [List.concat_eq_append, ← List.cons_append, ← List.append_assoc] at heq
  obtain ⟨heq, -⟩ := List.append_inj' heq rfl
  refine absurd ⟨last, ?_, hend⟩ h
  rw [heq]
  exact List.mem_append_right _ List.mem_cons_self

/-- An entry before the last is no end. -/
theorem Final.not_ended (h : Final (entries ++ [stamp])) : ¬ Ended entries := by
  rintro ⟨last, hmem, hend⟩
  obtain ⟨before, after, rfl⟩ := List.append_of_mem hmem
  have hnil := h before last (after ++ [stamp]) (by simp) hend
  simp at hnil

theorem ended_snoc : Ended (entries ++ [stamp]) ↔ Ended entries ∨ stamp.entry.isEnd = true := by
  constructor
  · rintro ⟨last, hmem, hend⟩
    rw [mem_snoc] at hmem
    rcases hmem with hmem | rfl
    · exact .inl ⟨last, hmem, hend⟩
    · exact .inr hend
  · rintro (⟨last, hmem, hend⟩ | hend)
    · exact ⟨last, List.mem_append_left _ hmem, hend⟩
    · exact ⟨stamp, List.mem_append_right _ List.mem_cons_self, hend⟩

theorem Ended.mono {entries' : List Stamp} (h : Ended entries)
    (hsub : ∀ stamp ∈ entries, stamp ∈ entries') : Ended entries' :=
  h.imp fun stamp ⟨hmem, hend⟩ => ⟨hsub stamp hmem, hend⟩

/-- A run is terminal from its end on, and sleeps no more. -/
theorem Final.terminal (h : Final entries) (hended : Ended entries) :
    (Stamp.fold entries).status.terminal = true ∧ (Stamp.fold entries).wake = none := by
  obtain ⟨stamp, hmem, hend⟩ := hended
  obtain ⟨before, after, rfl⟩ := List.append_of_mem hmem
  obtain rfl := h before stamp after rfl hend
  rw [Stamp.fold_snoc]
  cases hentry : stamp.entry with
  | end_ status at_ error => exact ⟨RunStatus.terminal_endStatus status, rfl⟩
  | _ => simp [hentry, RunEntry.isEnd] at hend

end

/-! ## Drivers -/

def Point.drives : Point → Bool
  | .started _ | .woken _ (some _) | .attempted .. | .assigned _ => true
  | _ => false

def Point.finishes : Point → Bool
  | .ended | .saved => true
  | _ => false

/-- A recovery step that has a move to make. -/
def Point.owes : Point → Bool
  | .woken _ (some _) => true
  | _ => false

def Point.sleeps : Point → Bool
  | .slept .. => true
  | _ => false

/-- It may append a further entry. -/
def Thread.drives (thread : Thread) : Bool := thread.point.drives || thread.retrying.isSome

variable {message : String}

namespace Activation

variable {options : WorkflowOptions} {now : Nat} {a b : Activation} {thread : Thread}

/-- None of its threads drives. -/
structure Undriven (a : Activation) : Prop where
  writes : ∀ w ∈ a.writes, w.thread.drives = false
  call : a.call = none

/-- The threads of an activation. -/
structure Driven (a : Activation) : Prop where
  one : a.writes.countP (·.thread.drives) + a.call.toList.length ≤ 1
  /-- Once it has ended, only the thread that ended it goes on. -/
  over_ : Ended a.entries →
    a.call = none ∧ ∀ w ∈ a.writes, w.thread.drives = true → w.thread.point.finishes = true
  /-- A run that sleeps again before a recovery step has moved is at the gate behind it. -/
  behind : ∀ before w after, a.writes = before ++ w :: after → w.thread.point.owes = true →
    a.state.wake = none ∨ ∃ x ∈ after, x.thread.point.sleeps = true
  final : Final a.entries

theorem undriven_of_count (h : a.writes.countP (·.thread.drives) + a.call.toList.length ≤ 0) :
    a.Undriven := by
  refine ⟨fun w hw => ?_, ?_⟩
  · have hzero : a.writes.countP (·.thread.drives) = 0 := by omega
    simpa using List.countP_eq_zero.1 hzero w hw
  · cases hcall : a.call with
    | none => rfl
    | some call => simp [hcall] at h

theorem Undriven.count (h : a.Undriven) :
    a.writes.countP (·.thread.drives) + a.call.toList.length = 0 := by
  rw [h.call]
  simpa using h.writes

theorem owes_drives {point : Point} (h : point.owes = true) : point.drives = true := by
  cases point with
  | woken seq after =>
    cases after with
    | none => cases h
    | some to_ => rfl
  | _ => cases h

/-- A write joins the gate. -/
theorem count_push (w : Write) (writes : List Write) :
    (writes ++ [w]).countP (·.thread.drives) =
      writes.countP (·.thread.drives) + w.thread.drives.toNat := by
  rw [List.countP_append, List.countP_singleton]
  cases w.thread.drives with
  | true | false => rfl

/-- What is behind a write stays behind it. -/
theorem behind_push {writes : List Write} {w y : Write} {before after : List Write}
    (heq : writes ++ [y] = before ++ w :: after) (hne : w ≠ y ∨ after ≠ []) :
    ∃ after', writes = before ++ w :: after' ∧ after = after' ++ [y] := by
  rcases List.eq_nil_or_concat after with rfl | ⟨rest, last, rfl⟩
  · obtain ⟨-, hlast⟩ := List.append_inj' heq rfl
    have hy := List.singleton_inj.1 hlast
    exact absurd rfl (hne.resolve_left fun h => h hy.symm)
  · rw [List.concat_eq_append, ← List.cons_append, ← List.append_assoc] at heq
    obtain ⟨hwrites, hlast⟩ := List.append_inj' heq rfl
    refine ⟨rest, hwrites, ?_⟩
    rw [List.concat_eq_append, hlast]

/-- A thread that runs beside no driver appends. -/
theorem Undriven.append {entry : RunEntry} {source : Option Nat} (h : a.Undriven)
    (hended : ¬ Ended a.entries) (hend : entry.isEnd = true → thread.point.finishes = true)
    (hwake : thread.point.owes = true → (applyRunEntry a.state entry).wake = none) :
    (a.append now entry source thread).Driven := by
  refine ⟨?_, fun hnow => ⟨h.call, fun w hmem hdrives => ?_⟩, fun before w after heq howes => ?_,
    final_snoc hended⟩
  · have hcount := h.count
    have hle := Bool.toNat_le thread.drives
    show (a.writes ++ [_]).countP _ + a.call.toList.length ≤ 1
    rw [count_push]
    dsimp only
    omega
  · rw [Activation.append, mem_snoc] at hmem
    rcases hmem with hmem | rfl
    · rw [h.writes w hmem] at hdrives
      cases hdrives
    · exact hend ((ended_snoc.1 hnow).resolve_left hended)
  · refine .inl ?_
    by_cases hlast : w ∈ a.writes
    · have hdrives := h.writes w hlast
      rw [Thread.drives, owes_drives howes] at hdrives
      cases hdrives
    · have hmem : w ∈ (a.append now entry source thread).writes := by
        rw [heq]
        exact List.mem_append_right _ List.mem_cons_self
      rw [Activation.append, mem_snoc] at hmem
      obtain rfl := hmem.resolve_left hlast
      exact hwake howes

theorem Driven.kept (h : a.Driven) (hwrites : b.writes = a.writes) (hcall : b.call = a.call)
    (hentries : b.entries = a.entries) (hstate : b.state = a.state) : b.Driven := by
  refine ⟨?_, fun hended => ?_, fun before w after heq howes => ?_, hentries ▸ h.final⟩
  · rw [hwrites, hcall]
    exact h.one
  · rw [hentries] at hended
    rw [hwrites, hcall]
    exact h.over_ hended
  · rw [hwrites] at heq
    rw [hstate]
    exact h.behind before w after heq howes

theorem Driven.done (h : a.Driven) : (a.done thread).Driven := by
  unfold Activation.done
  split
  · exact h.kept rfl rfl rfl rfl
  · exact h

/-! ## What a driver does -/

theorem Undriven.finish (h : a.Undriven) (hended : ¬ Ended a.entries) (status : EndStatus)
    (error : Option String) : (a.finish now status error thread).Driven :=
  Undriven.append (a := a.clearWake) ⟨h.writes, h.call⟩ hended (fun _ => rfl)
    fun howes => absurd howes (by simp [Point.owes])

theorem Undriven.moveTo (h : a.Undriven) (hended : ¬ Ended a.entries) (next : Option String) :
    (a.moveTo now next thread).Driven := by
  unfold Activation.moveTo
  split
  · exact h.finish hended _ _
  split
  · exact h.finish hended _ _
  exact Undriven.append (a := a.clearWake) ⟨h.writes, h.call⟩ hended
    (fun hend => absurd hend (by simp [RunEntry.isEnd]))
    fun howes => absurd howes (by simp [Point.owes])

theorem Undriven.sleep (h : a.Undriven) (hended : ¬ Ended a.entries) (ms : Nat)
    (after : Option String) : (a.sleep options now ms after thread).Driven :=
  h.append hended (fun hend => absurd hend (by simp [RunEntry.isEnd]))
    fun howes => absurd howes (by simp [Point.owes])

theorem Undriven.runTask (h : a.Undriven) (hended : ¬ Ended a.entries) (id : String)
    (node : TaskNode) : (a.runTask options now id node thread).Driven := by
  unfold Activation.runTask
  split
  · exact h.append hended (fun hend => absurd hend (by simp [RunEntry.isEnd]))
      fun howes => absurd howes (by simp [Point.owes])
  · exact h.finish hended _ _

theorem Undriven.caught {retrying : Retrying} {jitter : Nat}
    (h : a.Undriven) (hended : ¬ Ended a.entries) :
    (a.caught options now retrying message jitter thread).Driven := by
  unfold Activation.caught
  split
  · exact h.finish hended _ _
  · exact h.sleep hended _ _

/-- A run may sleep again while a recovery step has yet to move: the sleep is behind it. -/
theorem Driven.sleep (h : a.Driven) (hended : ¬ Ended a.entries)
    (hretrying : thread.retrying = none) (ms : Nat) (after : Option String) :
    (a.sleep options now ms after thread).Driven := by
  have hdrives : ∀ seq durable,
      Thread.drives { thread with point := .slept ms seq durable } = false := by
    intro seq durable
    rw [Thread.drives, hretrying]
    rfl
  refine ⟨?_, fun hnow => ?_, fun before w rest heq howes => .inr ?_, final_snoc hended⟩
  · show (a.writes ++ [_]).countP _ + a.call.toList.length ≤ 1
    rw [count_push]
    rw [hdrives]
    exact h.one
  · exact absurd ((ended_snoc.1 hnow).resolve_left hended) (by simp [RunEntry.isEnd])
  · obtain ⟨after', -, rfl⟩ := behind_push heq (.inl fun hw => by
      rw [hw] at howes
      cases howes)
    exact ⟨_, List.mem_append_right _ List.mem_cons_self, rfl⟩

/-! ## Turns and touches -/

/-- While the lane is free, the only driver can be a recovery step. -/
theorem Lane.undriven (hlane : a.Lane) (hbusy : a.busy = false)
    (howes : ∀ w ∈ a.writes, w.thread.point.owes = false) : a.Undriven := by
  obtain ⟨hturns, hcall, -⟩ := hlane.idle hbusy
  refine ⟨fun w hw => ?_, hcall⟩
  obtain ⟨hretrying, hrecovers⟩ := hlane.apart w hw (hturns w hw)
  have hno := howes w hw
  rw [Thread.drives, hretrying]
  cases hpoint : w.thread.point with
  | woken seq after =>
    rw [hpoint] at hno
    cases after with
    | none => rfl
    | some to_ => cases hno
  | moved | ended | saved => rfl
  | started | slept | attempted | assigned => rw [hpoint] at hrecovers; cases hrecovers

/-- It has moved by the time the run sleeps with the lane free. -/
theorem Driven.not_owes (h : a.Driven) (hlane : a.Lane) (hbusy : a.busy = false) {wake : Wake}
    (hwake : a.state.wake = some wake) : ∀ w ∈ a.writes, w.thread.point.owes = false := by
  intro w hw
  cases howes : w.thread.point.owes with
  | false => rfl
  | true =>
    obtain ⟨before, after, heq⟩ := List.append_of_mem hw
    obtain hnone | ⟨x, hx, hsleeps⟩ := h.behind before w after heq howes
    · exact absurd (hwake.symm.trans hnone) (by simp)
    have hmem : x ∈ a.writes := by
      rw [heq]
      exact List.mem_append_right _ (List.mem_cons_of_mem _ hx)
    have hrecovers := (hlane.apart x hmem ((hlane.idle hbusy).1 x hmem)).2
    cases hpoint : x.thread.point with
    | slept ms seq durable => rw [hpoint] at hrecovers; cases hrecovers
    | _ => rw [hpoint] at hsleeps; cases hsleeps

theorem Driven.not_ended (h : a.Driven) (hfolded : a.Folded) {wake : Wake}
    (hwake : a.state.wake = some wake) : ¬ Ended a.entries := by
  intro hended
  rw [hfolded.state] at hwake
  exact absurd ((h.final.terminal hended).2.symm.trans hwake) (by simp)

/-- A wake begins on `b`, which has the threads of `a`. -/
theorem Driven.wake {seq source : Nat} {turn : Bool} (h : a.Driven) (hlane : a.Lane)
    (hbusy : a.busy = false) (hfolded : a.Folded) (hwrites : b.writes = a.writes)
    (hcall : b.call = a.call) (hentries : b.entries = a.entries) (hstate : b.state = a.state) :
    (b.wake now seq source turn).Driven := by
  have hb : b.Driven := h.kept hwrites hcall hentries hstate
  have hidle : Driven (if turn then { b with busy := false } else b) := by
    split
    · exact hb.kept rfl rfl rfl rfl
    · exact hb
  unfold Activation.wake
  split
  · rename_i wake hwake
    split
    · rename_i hseq
      have hsome : a.state.wake = some wake := hstate ▸ hwake
      have hfree := hlane.undriven hbusy (h.not_owes hlane hbusy hsome)
      have hundriven : b.clearWake.Undriven :=
        ⟨fun w hw => hfree.writes w (hwrites ▸ hw), hcall.trans hfree.call⟩
      refine hundriven.append (fun hended => ?_)
        (fun hend => absurd hend (by simp [RunEntry.isEnd])) fun _ => ?_
      · exact h.not_ended hfolded hsome (hentries ▸ hended)
      · show (applyRunEntry b.state (.wake seq)).wake = none
        rw [← hseq, applyRunEntry_wake hwake]
    · exact hidle
  · exact hidle

theorem Driven.nudge (h : a.Driven) (hlane : a.Lane) (hbusy : a.busy = false) (hfolded : a.Folded)
    (hwrites : b.writes = a.writes) (hcall : b.call = a.call) (hentries : b.entries = a.entries)
    (hstate : b.state = a.state) : (b.nudge now).Driven := by
  have hb : b.Driven := h.kept hwrites hcall hentries hstate
  unfold Activation.nudge
  split
  · exact hb
  split
  · split
    · exact h.wake hlane hbusy hfolded hwrites hcall hentries hstate
    split
    · exact hb
    · split <;> exact hb.kept rfl rfl rfl rfl
  · exact hb.kept rfl rfl rfl rfl

end Activation

/-- The node at the cursor is a delay. -/
def WorkflowOptions.atDelay (options : WorkflowOptions) (state : RunState) : Bool :=
  match options.definitionOf state with
  | some definition =>
      match property definition.nodes state.cursor with
      | .own (.delay ..) => true
      | _ => false
  | none => false

/-- `start` begins a run. -/
def RunState.unstarted (state : RunState) : Bool :=
  decide (state.status = .running) && decide (state.cursor = "")

namespace Activation

variable {options : WorkflowOptions} {now : Nat} {a b : Activation} {thread : Thread}

/-- No recovery step has a move to make. -/
def Settled (a : Activation) : Prop := ∀ w ∈ a.writes, w.thread.point.owes = false

theorem Driven.advance (h : a.Driven) (hlane : a.Lane) (hbusy : a.busy = false)
    (hfolded : a.Folded) (hguard : a.Settled ∨ options.atDelay a.state = true)
    (hwrites : b.writes = a.writes) (hcall : b.call = a.call) (hentries : b.entries = a.entries)
    (hstate : b.state = a.state) : (b.advance options now).Driven := by
  have hb : b.Driven := h.kept hwrites hcall hentries hstate
  have hidle : Driven { b with busy := false } := hb.kept rfl rfl rfl rfl
  have hended : b.state.status = .running → ¬ Ended b.entries := by
    intro hrunning hended
    rw [hentries] at hended
    have hterminal := (h.final.terminal hended).1
    rw [← hfolded.state, ← hstate, hrunning] at hterminal
    cases hterminal
  have hundriven : options.atDelay b.state = false → b.Undriven := by
    intro hno
    rw [hstate] at hno
    have hsettled := hguard.resolve_right fun hyes => by rw [hno] at hyes; cases hyes
    have hfree := hlane.undriven hbusy hsettled
    exact ⟨fun w hw => hfree.writes w (hwrites ▸ hw), hcall.trans hfree.call⟩
  unfold Activation.advance
  split
  · rename_i hrunning
    have hopen := hended hrunning
    split
    · exact hidle
    rename_i definition hdefinition
    have hat : ∀ node, property definition.nodes b.state.cursor = node →
        options.atDelay b.state = (match node with
          | .own (.delay ..) => true
          | _ => false) := by
      rintro node rfl
      rw [WorkflowOptions.atDelay, hdefinition]
    split
    · rename_i hnode
      exact (hundriven (hat _ hnode)).finish hopen _ _
    · exact hidle
    · rename_i node hnode
      exact (hundriven (hat _ hnode)).runTask hopen _ _
    · exact hb.sleep hopen rfl _ _
    · rename_i hnode
      have hfree := hundriven (hat _ hnode)
      split <;> exact hfree.moveTo hopen _
    · rename_i hnode
      exact (hundriven (hat _ hnode)).finish hopen _ _
  · exact hidle

theorem Driven.start {name : String} {vars : JsMap String Json} {version : Option Int}
    (h : a.Driven) (hlane : a.Lane) (hbusy : a.busy = false) (hfolded : a.Folded)
    (hguard : a.state.unstarted = true → a.Settled)
    (hwrites : b.writes = a.writes) (hcall : b.call = a.call) (hentries : b.entries = a.entries)
    (hstate : b.state = a.state) : (b.start options now name vars version).Driven := by
  have hb : b.Driven := h.kept hwrites hcall hentries hstate
  have hidle : Driven { b with busy := false } := hb.kept rfl rfl rfl rfl
  unfold Activation.start
  split
  · exact hidle
  rename_i haccepted
  rw [not_or, Decidable.not_not, Decidable.not_not] at haccepted
  have hunstarted : a.state.unstarted = true := by
    rw [← hstate, RunState.unstarted, decide_eq_true haccepted.1, decide_eq_true haccepted.2]
    rfl
  have hfree := hlane.undriven hbusy (hguard hunstarted)
  have hopen : ¬ Ended b.entries := by
    intro hended
    rw [hentries] at hended
    have hterminal := (h.final.terminal hended).1
    rw [← hfolded.state, ← hstate, haccepted.1] at hterminal
    cases hterminal
  split
  · exact hidle
  split
  · exact hidle
  refine Undriven.append (a := b) ⟨fun w hw => hfree.writes w (hwrites ▸ hw),
    hcall.trans hfree.call⟩ hopen (fun hend => absurd hend (by simp [RunEntry.isEnd]))
    fun howes => absurd howes (by simp [Point.owes])

theorem Driven.onReminder {source : Nat} (h : a.Driven) (hlane : a.Lane) (hbusy : a.busy = false)
    (hfolded : a.Folded) (hwrites : b.writes = a.writes) (hcall : b.call = a.call)
    (hentries : b.entries = a.entries) (hstate : b.state = a.state) :
    (b.onReminder now source).Driven := by
  unfold Activation.onReminder
  split
  · exact (h.nudge hlane hbusy hfolded hwrites hcall hentries hstate).kept rfl rfl rfl rfl
  · exact h.wake hlane hbusy hfolded hwrites hcall hentries hstate

/-! ## Threads -/

/-- The first write leaves the gate. -/
theorem Driven.tail {w : Write} {rest : List Write} {etag : Option Nat} {faulted : Bool}
    (h : a.Driven) (hwrites : a.writes = w :: rest) :
    Driven { a with writes := rest, etag := etag, faulted := faulted } ∧
      (w.thread.drives = true →
        Undriven { a with writes := rest, etag := etag, faulted := faulted } ∧
          (Ended a.entries → w.thread.point.finishes = true)) := by
  have hone := h.one
  rw [hwrites, List.countP_cons] at hone
  refine ⟨⟨?_, fun hended => ?_, fun before x after heq howes => ?_, h.final⟩, fun hdrives => ?_⟩
  · show rest.countP _ + a.call.toList.length ≤ 1
    omega
  · obtain ⟨hcall, hothers⟩ := h.over_ hended
    exact ⟨hcall, fun x hx => hothers x (hwrites ▸ List.mem_cons_of_mem w hx)⟩
  · refine h.behind (w :: before) x after ?_ howes
    rw [hwrites]
    exact congrArg (w :: ·) heq
  · refine ⟨undriven_of_count ?_, fun hended => ?_⟩
    · rw [if_pos hdrives] at hone
      show rest.countP _ + a.call.toList.length ≤ 0
      omega
    · exact (h.over_ hended).2 w (hwrites ▸ List.mem_cons_self) hdrives

/-- A thread goes on, once its write has landed. -/
theorem Driven.resume (h : a.Driven)
    (hdriver : thread.drives = true → a.Undriven ∧ (Ended a.entries → thread.point.finishes = true)) :
    (a.resume now thread).Driven := by
  have hfree : thread.point.drives = true → a.Undriven ∧ ¬ Ended a.entries := by
    intro hpoint
    obtain ⟨hundriven, hends⟩ := hdriver (by rw [Thread.drives, hpoint]; rfl)
    refine ⟨hundriven, fun hended => ?_⟩
    have hfinishes := hends hended
    cases hp : thread.point with
    | ended | saved => rw [hp] at hpoint; cases hpoint
    | _ => rw [hp] at hfinishes; cases hfinishes
  unfold Activation.resume
  split
  · rename_i to_ hpoint
    obtain ⟨hundriven, hopen⟩ := hfree (by rw [hpoint]; rfl)
    exact hundriven.append hopen (fun hend => absurd hend (by simp [RunEntry.isEnd]))
      fun howes => absurd howes (by simp [Point.owes])
  · exact (h.kept (b := a.armAdvance) rfl rfl rfl rfl).done
  · split
    · exact h.kept rfl rfl rfl rfl
    rename_i ms seq durable hpoint hdurable
    exact Driven.done
      (a := { a with armedSeq := some seq, wakeTimer := some ⟨seq, now + ms⟩ })
      (h.kept rfl rfl rfl rfl)
  · rename_i seq after hpoint
    split
    · obtain ⟨hundriven, hopen⟩ := hfree (by rw [hpoint]; rfl)
      exact hundriven.moveTo hopen _
    · exact (h.kept (b := a.armAdvance) rfl rfl rfl rfl).done
  · rename_i hpoint
    -- The save of a run that has ended: no entry, and the same thread.
    refine ⟨?_, fun hended => ⟨(h.over_ hended).1, fun w hmem hdrives => ?_⟩,
      fun before w after heq howes => ?_, h.final⟩
    · rw [count_push]
      cases hdrives : thread.drives with
      | true =>
        have hcount := (hdriver hdrives).1.count
        have hle := Bool.toNat_le (Thread.drives { thread with point := .saved })
        dsimp only
        omega
      | false =>
        rw [Thread.drives, Bool.or_eq_false_iff] at hdrives
        have hsaved : Thread.drives { thread with point := .saved } = false := by
          rw [Thread.drives, hdrives.2]
          rfl
        rw [hsaved]
        exact h.one
    · rw [mem_snoc] at hmem
      rcases hmem with hmem | rfl
      · exact (h.over_ hended).2 w hmem hdrives
      · rfl
    · obtain ⟨after', heq', rfl⟩ := behind_push heq (.inl fun hw => by
        rw [hw] at howes
        cases howes)
      refine (h.behind before w after' heq' howes).imp id fun ⟨x, hx, hsleeps⟩ => ?_
      exact ⟨x, List.mem_append_left _ hx, hsleeps⟩
  · exact h.done
  · rename_i id node n hpoint
    obtain ⟨hundriven, hopen⟩ := hfree (by rw [hpoint]; rfl)
    have hcount := hundriven.count
    refine ⟨?_, fun hended => absurd hended hopen, h.behind, h.final⟩
    show a.writes.countP _ + 1 ≤ 1
    omega
  · rename_i node hpoint
    obtain ⟨hundriven, hopen⟩ := hfree (by rw [hpoint]; rfl)
    exact hundriven.moveTo hopen _

/-- A thread's write fails, but not the one that ends the run from within a task. -/
theorem Driven.reject {jitter : Nat} (h : a.Driven)
    (hdriver : thread.drives = true → a.Undriven ∧ (Ended a.entries → thread.point.finishes = true))
    (hguard : thread.point.finishes = true → thread.retrying = none) :
    (a.reject options now thread message jitter).Driven := by
  unfold Activation.reject
  split
  · rename_i retrying hretrying
    obtain ⟨hundriven, hends⟩ := hdriver (by
      rw [Thread.drives, hretrying, Option.isSome_some, Bool.or_true])
    refine hundriven.caught fun hended => ?_
    exact absurd ((hguard (hends hended)).symm.trans hretrying) (by simp)
  · exact h.done

/-- A handler call settles. -/
theorem Driven.settled {call : Call} (h : a.Driven) (hcall : a.call = some call) :
    Undriven { a with call := none } ∧ ¬ Ended a.entries := by
  have hone := h.one
  rw [hcall] at hone
  simp only [Option.toList_some, List.length_singleton] at hone
  refine ⟨undriven_of_count ?_, fun hended => ?_⟩
  · show a.writes.countP _ + 0 ≤ 0
    omega
  · exact absurd ((h.over_ hended).1.symm.trans hcall) (by simp)

theorem Driven.returned {call : Call} {out : Json} (h : a.Driven) (hcall : a.call = some call) :
    (a.returned now call out).Driven := by
  obtain ⟨hundriven, hopen⟩ := h.settled hcall
  unfold Activation.returned
  split
  · split
    · exact hundriven.moveTo hopen _
    · exact hundriven.append hopen (fun hend => absurd hend (by simp [RunEntry.isEnd]))
        fun howes => absurd howes (by simp [Point.owes])
  · exact hundriven.moveTo hopen _

theorem Driven.threw {call : Call} {jitter : Nat} (h : a.Driven)
    (hcall : a.call = some call) : (a.threw options now call message jitter).Driven := by
  obtain ⟨hundriven, hopen⟩ := h.settled hcall
  exact hundriven.caught hopen

theorem Driven.armed {arming : Arming} {ok : Bool} (h : a.Driven) : (a.armed arming ok).Driven := by
  unfold Activation.armed
  split
  · exact h.kept rfl rfl rfl rfl
  · exact h

theorem driven_dead : dead.Driven := by
  refine ⟨Nat.zero_le 1, ?_, ?_, final_of_not_ended ?_⟩
  · rintro ⟨_, hmem, _⟩
    exact absurd hmem List.not_mem_nil
  · intro before w after heq
    simp [dead] at heq
  · rintro ⟨_, hmem, _⟩
    exact absurd hmem List.not_mem_nil

end Activation

end SigxActors.Workflow
