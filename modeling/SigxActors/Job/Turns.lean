/-
  Job/Turns.lean --- what a turn of a job does, up to where it waits.

  Every turn looks at the status first.  Most leave the job as it is but for its progress and its
  checkpoint; the others are told here by what they save, or by what becomes of their run.
-/
import SigxActors.Job.Run

set_option autoImplicit false

namespace SigxActors.Job

open SigxActors.Js

variable {V : Type}

/-- The same job, but for its progress, its checkpoint and what is its own. -/
structure JobState.Alike (x y : JobState V) : Prop where
  status : x.status = y.status
  input : x.input = y.input
  result : x.result = y.result
  error : x.error = y.error
  attempts : x.attempts = y.attempts
  startedAt : x.startedAt = y.startedAt
  finishedAt : x.finishedAt = y.finishedAt
  resumeData : x.resumeData = y.resumeData
  principal : x.principal = y.principal

namespace JobState

variable {x y z : JobState V}

theorem Alike.refl (x : JobState V) : x.Alike x := ⟨rfl, rfl, rfl, rfl, rfl, rfl, rfl, rfl, rfl⟩

theorem alike_applyEntry (o : JobOptions V) (x : JobState V) (entry : V) :
    (o.applyEntry x entry).Alike x := by
  unfold JobOptions.applyEntry
  split
  · exact ⟨rfl, rfl, rfl, rfl, rfl, rfl, rfl, rfl, rfl⟩
  · exact .refl x

end JobState


namespace Activation

variable {o : JobOptions V} {a b : Activation V} {now : Nat} {turn : Turn V}

/-- A turn, by what it comes to. -/
inductive Begins (o : JobOptions V) (a : Activation V) (now : Nat) : Turn V → Activation V → Prop
  | keeps {turn : Turn V} {state : JobState V} {owed : Bool} (hstate : state.Alike a.state) :
      Begins o a now turn { a with state := state, owed := owed }
  | heals (hstatus : a.state.status = .running) : Begins o a now .heal a.resumeTask
  | starts {input : V} {principal : Option String} (hstatus : a.state.status = .pending) :
      Begins o a now (.start input principal)
        (({ a with period := a.period + 1 } : Activation V).save
          { a.state with
            status := .running
            input := some input
            attempts := 1
            startedAt := some now
            principal := principal } (.launching .start a.state))
  | resumes {data : Option V} (hstatus : a.state.status = .paused) :
      Begins o a now (.resume data)
        (({ a with period := a.period + 1 } : Activation V).save
          { a.state with status := .running, resumeData := data }
          (.launching (.resume a.state.resumeData) a.state))
  | cancels (hpending : a.state.status ≠ .pending) (hopen : a.state.status.terminal = false) :
      Begins o a now .cancel (a.finish .cancel .cancelled now a.state)
  | winds {turn : Turn V} {r : Nat} (hturn : turn = .first r ∨ ∃ outcome, turn = .settle r outcome)
      (hstatus : a.state.status ≠ .running) : Begins o a now turn (a.setPhase r .winding)
  | givesUp {r : Nat} {run : Run V} (hget : a.runs[r]? = some run)
      (hstatus : a.state.status = .running)
      (hmany : o.maxAttempts < (a.state.count (run.restarts + 1)).attempts) :
      Begins o a now (.first r) (a.finish (.giveUp r) .failed now
        { a.state.count (run.restarts + 1) with error := some (gaveUp o) })
  | firsts {r : Nat} {run : Run V} {f : Run V → Run V} (hget : a.runs[r]? = some run)
      (hstatus : a.state.status = .running)
      (hfew : (a.state.count (run.restarts + 1)).attempts ≤ o.maxAttempts)
      (hrestarts : run.restarts ≠ 0)
      (hf : ∀ run, (f run).restarts = run.restarts ∧ (f run).resumed = run.resumed ∧
        (f run).phase = run.phase ∧ (f run).period = run.period ∧ (f run).entered = run.entered ∧
        (f run).aborted = run.aborted) :
      Begins o a now (.first r) ((a.modifyRun r f).save
        { a.state.count (run.restarts + 1) with resumeData := none } (.first r))
  | readies {r : Nat} {run : Run V} {f : Run V → Run V} (hget : a.runs[r]? = some run)
      (hstatus : a.state.status = .running)
      (hfew : (a.state.count (run.restarts + 1)).attempts ≤ o.maxAttempts)
      (hrestarts : run.restarts = 0)
      (hf : ∀ run, (f run).restarts = run.restarts ∧ (f run).resumed = run.resumed ∧
        (f run).phase = .ready ∧ (f run).period = run.period ∧ (f run).entered = run.entered ∧
        (f run).aborted = run.aborted) :
      Begins o a now (.first r) { a.modifyRun r f with
        state := { a.state.count (run.restarts + 1) with resumeData := none } }
  | settles {r : Nat} {outcome : Except String V} (completed : Bool) {state : JobState V}
      (hstatus : a.state.status = .running) (hattempts : state.attempts = a.state.attempts) :
      Begins o a now (.settle r outcome) (a.finish (.settle r completed)
        (if completed then .completed else .failed) now state)
  | saves {turn : Turn V} {state : JobState V} {what : Saving V} (hstate : state.Alike a.state)
      (hwhat : what = .plain ∨ ∃ r entry, turn = .append r entry ∧ what = .appending entry ∧
        state = o.applyEntry a.state entry ∧ a.state.status = .running) :
      Begins o a now turn (a.save state what)
  | pauses {r : Nat} {cp : V} (hstatus : a.state.status = .running) :
      Begins o a now (.pause r cp)
        (a.save { a.state with checkpoint := some cp, status := .paused } .plain)
  | clears {turn : Turn V} {stage : Stage V} (hturn : turn = .discard ∨ turn = .retained)
      (hterminal : a.state.status.terminal = true)
      (hstage : stage = .clearing ∨ stage = .clearingRetain) :
      Begins o a now turn (a.await stage)

theorem setPhase_modifyRun (a : Activation V) (r : Nat) (phase : Phase) (f : Run V → Run V)
    (state : JobState V) :
    ({ a.modifyRun r f with state := state } : Activation V).setPhase r phase =
      { a.modifyRun r fun run => { f run with phase := phase } with state := state } := by
  unfold setPhase modifyRun
  rw [modify_modify]

theorem begins_firstTurn {r : Nat} {run : Run V} (hget : a.runs[r]? = some run) :
    Begins o a now (.first r) (a.firstTurn o r run now) := by
  unfold firstTurn
  split
  case isTrue hstatus => exact .winds (.inl rfl) hstatus
  case isFalse hrunning =>
    have hstatus : a.state.status = .running := Decidable.of_not_not hrunning
    dsimp only
    split
    case isTrue hmany => exact .givesUp hget hstatus hmany
    case isFalse hfew =>
      have hfew' := Nat.le_of_not_lt hfew
      split
      case isTrue hlater =>
        refine .firsts hget hstatus hfew' ?_ fun _ => ⟨rfl, rfl, rfl, rfl, rfl, rfl⟩
        exact fun hzero => absurd (hzero ▸ hlater) (by decide)
      case isFalse hfirst =>
        have hzero : run.restarts = 0 := by omega
        rw [setPhase_modifyRun]
        exact .readies hget hstatus hfew' hzero fun _ => ⟨rfl, rfl, rfl, rfl, rfl, rfl⟩

theorem begins_settleTurn {r : Nat} (outcome : Except String V) :
    Begins o a now (.settle r outcome) (a.settleTurn r now outcome) := by
  cases outcome with
  | ok out =>
    unfold settleTurn
    dsimp only
    split
    case isTrue hstatus => exact .winds (.inr ⟨_, rfl⟩) hstatus
    case isFalse hrunning =>
      exact .settles true (Decidable.of_not_not hrunning) rfl
  | error message =>
    unfold settleTurn
    dsimp only
    split
    case isTrue hstatus => exact .winds (.inr ⟨_, rfl⟩) hstatus
    case isFalse hrunning =>
      exact .settles false (Decidable.of_not_not hrunning) rfl

/-- Every turn is one of these. -/
theorem begins_of_begin (o : JobOptions V) (a : Activation V) (now : Nat) (turn : Turn V) :
    Begins o a now turn (a.begin o now turn) := by
  have hkeeps : Begins o a now turn a := .keeps (.refl a.state)
  cases turn with unfold Activation.begin
  | start input principal =>
    dsimp only
    split
    case isTrue => exact hkeeps
    case isFalse hpending => exact .starts (Decidable.of_not_not hpending)
  | read => exact hkeeps
  | cancel =>
    dsimp only
    split
    case isTrue => exact hkeeps
    case isFalse hopen =>
      rw [Bool.or_eq_true, not_or, decide_eq_true_eq] at hopen
      exact .cancels hopen.1 (Bool.not_eq_true _ ▸ hopen.2)
  | resume data =>
    dsimp only
    split
    case isTrue => exact hkeeps
    case isFalse hpaused => exact .resumes (Decidable.of_not_not hpaused)
  | discard =>
    dsimp only
    split
    case isFalse => exact hkeeps
    case isTrue hterminal =>
      split
      case isTrue => exact .clears (.inl rfl) hterminal (.inr rfl)
      case isFalse => exact .clears (.inl rfl) hterminal (.inl rfl)
  | retained =>
    dsimp only
    split
    case isTrue hterminal => exact .clears (.inr rfl) hterminal (.inl rfl)
    case isFalse => exact hkeeps
  | flush =>
    dsimp only
    split
    case isTrue => exact .saves (.refl a.state) (.inl rfl)
    case isFalse => exact hkeeps
  | heal =>
    dsimp only
    split
    case isTrue hstatus => exact .heals hstatus
    case isFalse => exact hkeeps
  | first r =>
    dsimp only
    split
    case h_1 run hget => exact begins_firstTurn hget
    case h_2 => exact hkeeps
  | progress | update =>
    dsimp only
    split
    case isTrue => exact .keeps ⟨rfl, rfl, rfl, rfl, rfl, rfl, rfl, rfl, rfl⟩
    case isFalse => exact hkeeps
  | checkpoint r cp eventual =>
    dsimp only
    split
    case isTrue => exact hkeeps
    case isFalse =>
      split
      case isTrue => exact .keeps ⟨rfl, rfl, rfl, rfl, rfl, rfl, rfl, rfl, rfl⟩
      case isFalse => exact .saves ⟨rfl, rfl, rfl, rfl, rfl, rfl, rfl, rfl, rfl⟩ (.inl rfl)
  | append r entry =>
    dsimp only
    split
    case isTrue hstatus =>
      exact .saves (JobState.alike_applyEntry o a.state entry)
        (.inr ⟨r, entry, rfl, rfl, rfl, hstatus⟩)
    case isFalse => exact hkeeps
  | pause r cp =>
    dsimp only
    split
    case isTrue => exact hkeeps
    case isFalse hrunning => exact .pauses (Decidable.of_not_not hrunning)
  | settle r outcome => exact begins_settleTurn outcome

end Activation

end SigxActors.Job
