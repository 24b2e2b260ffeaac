/-
  Workflow/Steering.lean --- an activation records what a run without a crash would.

  What a thread is about to do was decided when it asked for its write, and is
  done when the write has landed.  It is still what the log permits then: a thread
  that drives the run is alone, so nothing has been applied in between.

  The guard is on the turns that do not know of a move that is owed: an `advance`
  while one is, or before the run has come to its first node, and a `start` of a
  run that has been under way.
-/
import SigxActors.Workflow.Paths

set_option autoImplicit false

namespace SigxActors.Workflow

open SigxActors.Js

/-- The `try` block of a task. -/
def TaskNode.retrying (node : TaskNode) (n : Nat) : Retrying :=
  match node.retry with
  | some retry => ⟨n, retry.maxAttempts, retry.backoffMs, retry.maxBackoffMs.getD 30000⟩
  | none => ⟨n, 1, 0, 30000⟩

theorem TaskNode.attempts_retrying (node : TaskNode) (n : Nat) :
    (node.retrying n).attempts = node.attempts ∧ (node.retrying n).n = n := by
  unfold TaskNode.retrying TaskNode.attempts
  cases node.retry with
  | none | some => exact ⟨rfl, rfl⟩

/-- What a thread that drives the run relies on. -/
def Journey.Steers (options : WorkflowOptions) (j : Journey) : Point → Prop
  | .started next => j.owed = some next
  | .woken _ (some next) => j.owed = some next ∧ j.state.transitions ≠ 0 ∧ j.state.wake = none
  | .attempted _ node n => j.Serves options node ∧ j.state.attempt = n
  | .assigned node => j.Serves options node
  | _ => True

namespace Activation

/-- What an activation has applied is permitted, and its one driver may go on. -/
structure Steered (options : WorkflowOptions) (a : Activation) : Prop where
  log : Permitted options a.entries
  writes : ∀ w ∈ a.writes, (journey options a.entries).Steers options w.thread.point
  call : ∀ call, a.call = some call → (journey options a.entries).Serves options call.node ∧
    (journey options a.entries).state.attempt = call.n ∧ call.retrying = call.node.retrying call.n
  one : a.writes.countP (·.thread.point.drives) + a.call.toList.length ≤ 1

/-- No thread of it drives the run. -/
structure Idle (a : Activation) : Prop where
  writes : ∀ w ∈ a.writes, w.thread.point.drives = false
  call : a.call = none

variable {options : WorkflowOptions} {now : Nat} {a b : Activation} {thread : Thread}

theorem steers_of_not_drives {j : Journey} {point : Point} (h : point.drives = false) :
    j.Steers options point := by
  cases point with
  | started | attempted | assigned => cases h
  | woken seq after =>
    cases after with
    | none => trivial
    | some to_ => cases h
  | _ => trivial

theorem Idle.count (h : a.Idle) :
    a.writes.countP (·.thread.point.drives) + a.call.toList.length = 0 := by
  rw [h.call]
  simpa using h.writes

theorem idle_of_count
    (h : a.writes.countP (·.thread.point.drives) + a.call.toList.length ≤ 0) : a.Idle := by
  refine ⟨fun w hw => ?_, ?_⟩
  · have hzero : a.writes.countP (·.thread.point.drives) = 0 := by omega
    simpa using List.countP_eq_zero.1 hzero w hw
  · cases hcall : a.call with
    | none => rfl
    | some call => simp [hcall] at h

theorem Steered.kept (h : a.Steered options) (hwrites : b.writes = a.writes)
    (hcall : b.call = a.call) (hentries : b.entries = a.entries) : b.Steered options := by
  refine ⟨?_, ?_, ?_, ?_⟩
  · rw [hentries]
    exact h.log
  · rw [hwrites, hentries]
    exact h.writes
  · rw [hcall, hentries]
    exact h.call
  · rw [hwrites, hcall]
    exact h.one

theorem Steered.done (h : a.Steered options) : (a.done thread).Steered options := by
  unfold Activation.done
  split
  · exact h.kept rfl rfl rfl
  · exact h

/-- An entry is appended that the log permits, for a thread that may go on from there. -/
theorem Idle.append {entry : RunEntry} {source : Option Nat} (h : a.Idle)
    (hlog : Permitted options a.entries)
    (hpermits : (journey options a.entries).Permits options entry)
    (hsteers : ((journey options a.entries).record options entry).Steers options thread.point) :
    (a.append now entry source thread).Steered options := by
  have hentries : (a.append now entry source thread).entries =
      a.entries ++ [⟨entry, now, source⟩] := rfl
  refine ⟨?_, fun w hmem => ?_, fun call hcall => ?_, ?_⟩
  · exact hlog.snoc hpermits
  · rw [hentries, journey_snoc]
    rw [Activation.append, mem_snoc] at hmem
    rcases hmem with hmem | rfl
    · exact steers_of_not_drives (h.writes w hmem)
    · exact hsteers
  · have hnone : a.call = some call := hcall
    rw [h.call] at hnone
    cases hnone
  · have hcount := h.count
    have hle := Bool.toNat_le thread.point.drives
    have hone : [(⟨thread, some ⟨entry, now, source⟩, applyRunEntry a.state entry,
        a.entries ++ [⟨entry, now, source⟩]⟩ : Write)].countP (·.thread.point.drives) =
          thread.point.drives.toNat := by
      rw [List.countP_singleton]
      cases thread.point.drives with
      | true | false => rfl
    show (a.writes ++ [_]).countP _ + a.call.toList.length ≤ 1
    rw [List.countP_append, hone]
    omega

theorem Idle.clearWake (h : a.Idle) : a.clearWake.Idle := ⟨h.writes, h.call⟩

section

variable (h : a.Idle) (hlog : Permitted options a.entries)
include h hlog

theorem Idle.finish {status : EndStatus} {error : Option String}
    (hpermits : (journey options a.entries).Permits options (.end_ status now error)) :
    (a.finish now status error thread).Steered options :=
  h.clearWake.append hlog hpermits trivial

/-- The run goes where it may go. -/
theorem Idle.moveTo {next : Option String}
    (hgoes : (∃ to_, next = some to_ ∧ (journey options a.entries).owed = some to_) ∨
      (journey options a.entries).Goes options next) :
    (a.moveTo now next thread).Steered options := by
  unfold Activation.moveTo
  split
  · refine h.finish hlog (.inr (.inl ?_))
    rcases hgoes with ⟨_, hnone, -⟩ | hgoes
    · cases hnone
    · exact hgoes
  · split
    · rename_i hempty
      subst hempty
      refine h.finish hlog ?_
      rcases hgoes with ⟨to_, hto, howed⟩ | hgoes
      · exact .inl (howed.trans hto.symm)
      · exact .inr (.inr (.inl hgoes))
    · refine h.clearWake.append hlog ?_ trivial
      rcases hgoes with ⟨to_, hto, howed⟩ | hgoes
      · exact .inl (howed.trans hto.symm)
      · exact .inr hgoes

theorem Idle.sleep {ms : Nat} {after : Option String} (hstands : (journey options a.entries).Stands)
    (hcause : (∃ ms next, options.At (journey options a.entries).state (.delay ms next) ∧
        after = some (next.getD "")) ∨
      after = none ∧ ∃ node, (journey options a.entries).Serves options node ∧
        (journey options a.entries).state.attempt < node.attempts) :
    (a.sleep options now ms after thread).Steered options :=
  h.append hlog ⟨hstands, hcause⟩ trivial

theorem Idle.runTask {node : TaskNode} (hstands : (journey options a.entries).Stands)
    (hat : options.At (journey options a.entries).state (.task node))
    (hstate : a.state = (journey options a.entries).state) :
    (a.runTask options now a.state.cursor node thread).Steered options := by
  unfold Activation.runTask
  split
  · rename_i hhandler
    have hserves : (journey options a.entries).Serves options node := ⟨hstands, hat, hhandler⟩
    refine h.append hlog ⟨?_, ?_, node, hserves⟩ ⟨hserves, rfl⟩ <;> rw [hstate]
  · rename_i hhandler
    exact h.finish hlog ⟨hstands, .inr (.inr ⟨node, hat, .inl (Bool.eq_false_iff.2 hhandler)⟩)⟩

/-- `advance` of a run that stands at a node. -/
theorem Idle.advance (hstate : a.state = (journey options a.entries).state)
    (hstands : a.state.status = .running → options.definitionOf a.state ≠ none →
      (journey options a.entries).Stands)
    (hsteered : a.Steered options) : (a.advance options now).Steered options := by
  have hidle : Steered options { a with busy := false } := hsteered.kept rfl rfl rfl
  unfold Activation.advance
  split
  · rename_i hrunning
    split
    · exact hidle
    rename_i definition hdefinition
    have hstands := hstands hrunning (by rw [hdefinition]; simp)
    have hat : ∀ {node : WorkflowNode}, property definition.nodes a.state.cursor = .own node →
        options.At (journey options a.entries).state node := by
      intro node hnode
      rw [← hstate]
      exact ⟨definition, hdefinition, hnode⟩
    split
    · rename_i hmissing
      refine h.finish hlog ⟨hstands, .inr (.inl ⟨definition, ?_⟩)⟩
      rw [← hstate]
      exact ⟨hdefinition, hmissing⟩
    · exact hidle
    · rename_i node hnode
      exact h.runTask hlog hstands (hat hnode) hstate
    · rename_i ms next hnode
      exact h.sleep hlog hstands (.inl ⟨ms, next, hat hnode, rfl⟩)
    · rename_i var op value then_ else_ hnode
      have hgoes : ∀ next, (if compareValues (property a.state.vars var) op value then some then_
          else else_) = next → (journey options a.entries).Goes options next := by
        rintro next rfl
        refine ⟨hstands, _, hat hnode, rfl, ?_⟩
        rw [← hstate]
        rfl
      split
      · rename_i hholds
        exact h.moveTo hlog (.inr (hgoes _ (if_pos hholds)))
      · rename_i hholds
        exact h.moveTo hlog (.inr (hgoes _ (if_neg hholds)))
    · rename_i status reason hnode
      refine h.finish hlog ?_
      cases hstatus : status.getD .completed with
      | completed => exact .inr (.inr (.inr ⟨hstands, status, reason, hat hnode, hstatus⟩))
      | failed =>
        cases status with
        | none => cases hstatus
        | some status =>
          obtain rfl : status = .failed := hstatus
          exact ⟨hstands, .inl ⟨reason, hat hnode⟩⟩
  · exact hidle

end

/-! ## Turns and touches -/

/-- What a recovery step that has a move to make relies on. -/
theorem Steered.owes (h : a.Steered options) {w : Write} (hw : w ∈ a.writes)
    (howes : w.thread.point.owes = true) : (journey options a.entries).owed ≠ none ∧
      (journey options a.entries).state.transitions ≠ 0 ∧
      (journey options a.entries).state.wake = none := by
  have hsteers := h.writes w hw
  cases hpoint : w.thread.point with
  | woken seq after =>
    rw [hpoint] at howes hsteers
    cases after with
    | none => cases howes
    | some next => exact ⟨by rw [hsteers.1]; simp, hsteers.2⟩
  | _ => rw [hpoint] at howes; cases howes

/-- While the lane is free, the only driver can be a recovery step. -/
theorem Lane.steerless (h : a.Lane) (hbusy : a.busy = false)
    (howes : ∀ w ∈ a.writes, w.thread.point.owes = true → False) : a.Idle := by
  have hundriven := h.undriven hbusy fun w hw => Bool.eq_false_iff.2 (howes w hw)
  refine ⟨fun w hw => ?_, hundriven.call⟩
  have hdrives := hundriven.writes w hw
  rw [Thread.drives, Bool.or_eq_false_iff] at hdrives
  exact hdrives.1

section

variable (h : a.Steered options)
include h

/-- Nothing drives a run that sleeps. -/
theorem Steered.idle_of_wake (hlane : a.Lane) (hbusy : a.busy = false)
    (hstate : a.state = (journey options a.entries).state) {wake : Wake}
    (hwake : a.state.wake = some wake) : a.Idle := by
  refine hlane.steerless hbusy fun w hw howes => ?_
  rw [hstate, (h.owes hw howes).2.2] at hwake
  cases hwake

theorem Steered.wake {seq source : Nat} {turn : Bool}
    (hstate : a.state = (journey options a.entries).state)
    (hidle : ∀ wake, a.state.wake = some wake → a.Idle) :
    (a.wake now seq source turn).Steered options := by
  have hkept : (if turn then { a with busy := false } else a).Steered options := by
    split
    · exact h.kept rfl rfl rfl
    · exact h
  unfold Activation.wake
  split
  · rename_i wake hwake
    split
    · rename_i hseq
      obtain rfl := hseq
      have hjwake : (journey options a.entries).state.wake = some wake := hstate ▸ hwake
      refine (hidle wake hwake).clearWake.append h.log ⟨wake, hjwake, rfl⟩ ?_
      cases hafter : wake.after with
      | none => trivial
      | some next =>
        have hrecord : ((journey options a.entries).record options (.wake wake.seq)).owed =
            some next := by
          dsimp only [Journey.record]
          rw [hjwake, ← hafter]
          exact if_pos rfl
        have happly : ((journey options a.entries).record options (.wake wake.seq)).state =
            { (journey options a.entries).state with wake := none, status := .running } :=
          applyRunEntry_wake hjwake
        refine ⟨hrecord, ?_, ?_⟩
        · show ((journey options a.entries).record options (.wake wake.seq)).state.transitions ≠ 0
          rw [happly]
          exact ((Permitted.sound rfl h.log).wake wake hjwake).1.2
        · show ((journey options a.entries).record options (.wake wake.seq)).state.wake = none
          rw [happly]
    · exact hkept
  · exact hkept

theorem Steered.nudge (hstate : a.state = (journey options a.entries).state)
    (hidle : ∀ wake, a.state.wake = some wake → a.Idle) : (a.nudge now).Steered options := by
  unfold Activation.nudge
  split
  · exact h
  split
  · split
    · exact h.wake hstate hidle
    split
    · exact h
    · split <;> exact h.kept rfl rfl rfl
  · exact h.kept rfl rfl rfl

theorem Steered.onReminder {source : Nat} (hstate : a.state = (journey options a.entries).state)
    (hidle : ∀ wake, a.state.wake = some wake → a.Idle) :
    (a.onReminder now source).Steered options := by
  unfold Activation.onReminder
  split
  · exact (h.nudge hstate hidle).kept rfl rfl rfl
  · exact h.wake hstate hidle

/-- `advance`, of a run that owes no move if it can advance at all. -/
theorem Steered.advance (hstate : a.state = (journey options a.entries).state)
    (hguard : a.state.status = .running → options.definitionOf a.state ≠ none →
      (journey options a.entries).Stands ∧ a.Idle) : (a.advance options now).Steered options := by
  by_cases hruns : a.state.status = .running ∧ options.definitionOf a.state ≠ none
  · obtain ⟨hstands, hidle⟩ := hguard hruns.1 hruns.2
    exact hidle.advance h.log hstate (fun _ _ => hstands) h
  have hkept : a.advance options now = { a with busy := false } := by
    unfold Activation.advance
    split
    · rename_i hrunning
      cases hdefinition : options.definitionOf a.state with
      | none => rfl
      | some definition => exact absurd ⟨hrunning, by rw [hdefinition]; simp⟩ hruns
    · rfl
  rw [hkept]
  exact h.kept rfl rfl rfl

/-- `start`, of a run that has not been under way. -/
theorem Steered.start {name : String} {vars : JsMap String Json} {version : Option Int} (hstate : a.state = (journey options a.entries).state)
    (hguard : a.state.unstarted = true → a.state.transitions = 0 ∧ a.Idle) :
    (a.start options now name vars version).Steered options := by
  have hkept : Steered options { a with busy := false } := h.kept rfl rfl rfl
  unfold Activation.start
  split
  · exact hkept
  rename_i haccepted
  rw [not_or, Decidable.not_not, Decidable.not_not] at haccepted
  have hunstarted : a.state.unstarted = true := by
    rw [RunState.unstarted, decide_eq_true haccepted.1, decide_eq_true haccepted.2]
    rfl
  obtain ⟨htransitions, hidle⟩ := hguard hunstarted
  split
  · exact hkept
  rename_i v hv
  split
  · exact hkept
  rename_i definition hdefinition
  refine hidle.append h.log ⟨hstate ▸ htransitions, ?_⟩ ?_
  · rw [hdefinition]
    rfl
  · have howed : ((journey options a.entries).record options
        (.start name v now vars)).owed = (options.byKey.get (definitionKey name v)).map
          (·.start) := rfl
    rw [Journey.Steers, howed, hdefinition]
    rfl

end

/-! ## Threads -/

section

variable (h : a.Steered options)
include h

/-- A thread goes on: it was the only driver, if it drives at all. -/
theorem Steered.tail {w : Write} {rest : List Write} {etag : Option Nat}
    (hwrites : a.writes = w :: rest) :
    Steered options { a with writes := rest, etag := etag } ∧
      (w.thread.point.drives = true → Idle { a with writes := rest, etag := etag }) := by
  have hone := h.one
  rw [hwrites, List.countP_cons] at hone
  refine ⟨⟨h.log, fun w' hmem => h.writes w' (hwrites ▸ List.mem_cons_of_mem w hmem), h.call, ?_⟩,
    fun hdrives => idle_of_count ?_⟩
  · show rest.countP _ + a.call.toList.length ≤ 1
    omega
  · rw [if_pos hdrives] at hone
    show rest.countP _ + a.call.toList.length ≤ 0
    omega

/-- A write has landed. -/
theorem Steered.resume (hsteers : (journey options a.entries).Steers options thread.point)
    (hidle : thread.point.drives = true → a.Idle) : (a.resume now thread).Steered options := by
  unfold Activation.resume
  cases hpoint : thread.point with
  | started next =>
    rw [hpoint] at hsteers hidle
    exact (hidle rfl).append h.log (.inl hsteers) trivial
  | moved =>
    have harmed : a.armAdvance.Steered options := h.kept rfl rfl rfl
    exact harmed.done
  | slept ms seq durable =>
    dsimp only
    split
    · exact h.kept rfl rfl rfl
    have hslept : Steered options
        { a with armedSeq := some seq, wakeTimer := some ⟨seq, now + ms⟩ } := h.kept rfl rfl rfl
    exact hslept.done
  | woken seq after =>
    rw [hpoint] at hsteers hidle
    cases after with
    | none =>
      have harmed : a.armAdvance.Steered options := h.kept rfl rfl rfl
      exact harmed.done
    | some next => exact (hidle rfl).moveTo h.log (.inl ⟨next, rfl, hsteers.1⟩)
  | ended =>
    refine ⟨h.log, fun w hmem => ?_, h.call, ?_⟩
    · rw [mem_snoc] at hmem
      rcases hmem with hmem | rfl
      · exact h.writes w hmem
      · trivial
    · rw [List.countP_append]
      exact h.one
  | saved => exact h.done
  | attempted id node n =>
    rw [hpoint] at hsteers hidle
    have hfree := hidle rfl
    refine ⟨h.log, h.writes, fun call hcall => ?_, ?_⟩
    · cases hcall
      exact ⟨hsteers.1, hsteers.2, rfl⟩
    · have hzero : a.writes.countP (·.thread.point.drives) = 0 := by
        have hcount := hfree.count
        omega
      show a.writes.countP _ + 1 ≤ 1
      omega
  | assigned node =>
    rw [hpoint] at hsteers hidle
    exact (hidle rfl).moveTo h.log (.inr (Journey.Serves.goes hsteers))

theorem Steered.armed {k : Nat} {arming : Arming} {ok : Bool} :
    (Activation.armed { a with armings := a.armings.eraseIdx k } arming ok).Steered options := by
  unfold Activation.armed
  split <;> exact h.kept rfl rfl rfl

/-- A handler has settled: it was the only driver. -/
theorem Steered.settled {call : Call} (hcall : a.call = some call) :
    Idle { a with call := none } := by
  have hone := h.one
  rw [hcall, Option.toList_some, List.length_singleton] at hone
  refine idle_of_count ?_
  show a.writes.countP _ + 0 ≤ 0
  omega

theorem Steered.returned {call : Call} {out : Json}
    (hcall : a.call = some call) : (a.returned now call out).Steered options := by
  have hidle := h.settled hcall
  obtain ⟨hserves, -, -⟩ := h.call call hcall
  have hmove : (Activation.moveTo now { a with call := none } call.node.next
      { point := .ended, retrying := some call.retrying, turn := true }).Steered options :=
    hidle.moveTo h.log (.inr (Journey.Serves.goes hserves))
  unfold Activation.returned
  split
  · split
    · exact hmove
    · exact hidle.append h.log ⟨call.node, hserves⟩ hserves
  · exact hmove

theorem Steered.threw {call : Call} {message : String} {jitter : Nat}
    (hcall : a.call = some call) : (a.threw options now call message jitter).Steered options := by
  have hidle := h.settled hcall
  obtain ⟨hserves, hattempt, hretrying⟩ := h.call call hcall
  obtain ⟨hattempts, hn⟩ := call.node.attempts_retrying call.n
  unfold Activation.threw Activation.caught
  rw [hretrying, hattempts, hn, ← hattempt]
  split
  · rename_i hexhausted
    exact hidle.finish h.log
      ⟨hserves.1, .inr (.inr ⟨call.node, hserves.2.1, .inr hexhausted⟩)⟩
  · rename_i hremain
    exact hidle.sleep h.log hserves.1 (.inr ⟨rfl, call.node, hserves, Nat.lt_of_not_le hremain⟩)

end

end Activation

end SigxActors.Workflow
