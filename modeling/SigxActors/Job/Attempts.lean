/-
  Job/Attempts.lean --- a job is not begun more often than it may be.

  The record counts the attempts: the start is the first, and each run that a crash has left
  behind is one more, once its first turn has been saved.  What a turn saves keeps the count, and
  between two saves the activation has it as the record has.
-/
import SigxActors.Job.Gate
import SigxActors.Job.Turns

set_option autoImplicit false

namespace SigxActors.Job

open SigxActors.Js

variable {V : Type}

/-- The same, as far as attempts are counted. -/
structure JobState.InStep (x y : JobState V) : Prop where
  status : x.status = y.status
  input : x.input = y.input
  attempts : x.attempts = y.attempts
  startedAt : x.startedAt = y.startedAt
  principal : x.principal = y.principal

/-- The record of a job that went through `resumes` crashes, with a body that was called `entered`
times. -/
structure JobState.Counts (o : JobOptions V) (resumes entered : Nat) (x : JobState V) : Prop where
  fresh : x.status = .pending → x.input = none ∧ x.attempts = 0 ∧ x.startedAt = none ∧
    x.principal = none ∧ resumes = 0 ∧ entered = 0
  attempts : x.status ≠ .pending → x.attempts = 1 + resumes
  failed : 0 < resumes → o.maxAttempts ≤ resumes → x.status = .failed
  entered : entered ≤ x.attempts ∧ entered ≤ o.maxAttempts

namespace JobState

variable {o : JobOptions V} {x y z : JobState V} {resumes entered : Nat}

theorem InStep.refl (x : JobState V) : x.InStep x := ⟨rfl, rfl, rfl, rfl, rfl⟩

theorem InStep.symm (h : x.InStep y) : y.InStep x :=
  ⟨h.status.symm, h.input.symm, h.attempts.symm, h.startedAt.symm, h.principal.symm⟩

theorem InStep.trans (h : x.InStep y) (h' : y.InStep z) : x.InStep z :=
  ⟨h.status.trans h'.status, h.input.trans h'.input, h.attempts.trans h'.attempts,
    h.startedAt.trans h'.startedAt, h.principal.trans h'.principal⟩

theorem Alike.inStep (h : x.Alike y) : x.InStep y :=
  { h with }

theorem Counts.inStep (h : x.Counts o resumes entered) (hsame : y.InStep x) :
    y.Counts o resumes entered where
  fresh := by
    rw [hsame.status, hsame.input, hsame.attempts, hsame.startedAt, hsame.principal]
    exact h.fresh
  attempts := by
    rw [hsame.status, hsame.attempts]
    exact h.attempts
  failed := by
    rw [hsame.status]
    exact h.failed
  entered := by
    rw [hsame.attempts]
    exact h.entered

/-- A job that goes on, and has no more attempts than before. -/
theorem Counts.move (h : x.Counts o resumes entered) (hattempts : y.attempts = x.attempts)
    (hold : x.status ≠ .pending) (hopen : x.status ≠ .failed) (hnew : y.status ≠ .pending) :
    y.Counts o resumes entered where
  fresh hpending := absurd hpending hnew
  attempts _ := hattempts.trans (h.attempts hold)
  failed hpos hmany := absurd (h.failed hpos hmany) hopen
  entered := by
    rw [hattempts]
    exact h.entered

end JobState

/-- It changes how many attempts are counted. -/
def Saving.counts : Saving V → Bool
  | .launching .start _ | .reverting .start _ _ | .first _ | .finishing (.giveUp _) => true
  | _ => false

/-- Nothing is being saved, launched or cleared. -/
def Stage.rests : Stage V → Bool
  | .idle | .retaining _ | .hook _ => true
  | _ => false

namespace Job

variable {o : JobOptions V} {s t : Job V} {a b : Activation V} {l : Label V}

/-- What a load gives. -/
def base (o : JobOptions V) (s : Job V) : JobState V := s.stored.getD o.fresh

/-- The record counts. -/
def Recorded (o : JobOptions V) (s : Job V) : Prop :=
  (s.base o).Counts o s.resumes s.entered

/-! ## Runs -/

/-- A run that goes no further than to the turn that it waits for. -/
def Goes (run run' : Run V) : Prop :=
  run'.restarts = run.restarts ∧ run'.resumed = run.resumed ∧
    (run'.phase = run.phase ∨ run.phase = .starting ∧ run'.phase = .launched ∨
      run'.phase ≠ .starting ∧ run'.phase ≠ .launched ∧ run'.phase ≠ .ready)

/-- What the record has counted for a run. -/
structure Runs (o : JobOptions V) (s : Job V) (a : Activation V) : Prop where
  idle : (s.base o).status = .pending → a.gate = none
  /-- A crash-resume is to be one attempt more. -/
  waiting : ∀ (r : Nat) (run : Run V), a.runs[r]? = some run →
    run.phase = .starting ∨ run.phase = .launched → (s.base o).status.terminal = false →
    run.restarts = 0 ∨ run.restarts = (s.base o).attempts
  /-- A body that is to be called has its attempt. -/
  budget : ∀ (r : Nat) (run : Run V), a.runs[r]? = some run → run.resumed = false →
    run.phase = .ready ∨ (run.phase = .starting ∨ run.phase = .launched) ∧ run.restarts = 0 →
    s.entered + 1 ≤ (s.base o).attempts
  ready : ∀ (r : Nat) (run : Run V), a.runs[r]? = some run → run.phase = .ready →
    (s.base o).attempts ≤ o.maxAttempts

theorem Runs.goes (h : Runs o s a) (hbase : t.base o = s.base o) (hentered : t.entered = s.entered)
    (hgate : b.gate = a.gate ∨ b.gate = none)
    (hruns : ∀ (r : Nat) (run' : Run V), b.runs[r]? = some run' →
      ∃ run, a.runs[r]? = some run ∧ Goes run run') : Runs o t b where
  idle hpending := by
    rw [hbase] at hpending
    rcases hgate with hgate | hgate
    · exact hgate.trans (h.idle hpending)
    · exact hgate
  waiting r run' hget hphase hopen := by
    obtain ⟨run, hold, hrestarts, -, hgoes⟩ := hruns r run' hget
    rw [hbase] at hopen ⊢
    rw [hrestarts]
    refine h.waiting r run hold ?_ hopen
    rcases hgoes with hsame | ⟨hstarting, -⟩ | ⟨hnot, hnot', -⟩
    · exact hsame ▸ hphase
    · exact .inl hstarting
    · exact (hphase.elim hnot hnot').elim
  budget r run' hget hresumed hphase := by
    obtain ⟨run, hold, hrestarts, hsame', hgoes⟩ := hruns r run' hget
    rw [hbase, hentered]
    refine h.budget r run hold (hsame' ▸ hresumed) ?_
    rcases hgoes with hsame | ⟨hstarting, hlaunched⟩ | ⟨hnot, hnot', hnot''⟩
    · rw [hsame, hrestarts] at hphase
      exact hphase
    · rcases hphase with hready | ⟨-, hzero⟩
      · cases hlaunched.symm.trans hready
      · exact .inr ⟨.inl hstarting, hrestarts ▸ hzero⟩
    · rcases hphase with hready | ⟨hstarting | hlaunched, -⟩
      · exact absurd hready hnot''
      · exact absurd hstarting hnot
      · exact absurd hlaunched hnot'
  ready r run' hget hphase := by
    obtain ⟨run, hold, -, -, hgoes⟩ := hruns r run' hget
    rw [hbase]
    rcases hgoes with hsame | ⟨-, hlaunched⟩ | ⟨-, -, hnot⟩
    · exact h.ready r run hold (hsame ▸ hphase)
    · cases hlaunched.symm.trans hphase
    · exact absurd hphase hnot

variable {f : Run V → Run V} {r : Nat} {run : Run V} {what : Saving V} {state : JobState V}

theorem goes_modify (hf : ∀ run, a.runs[r]? = some run → Goes run (f run))
    (hruns : b.runs = a.runs.modify r f) (r' : Nat) (run' : Run V) (hget : b.runs[r']? = some run') :
    ∃ run, a.runs[r']? = some run ∧ Goes run run' := by
  rw [hruns] at hget
  rcases of_modify_get hget with ⟨run, rfl, hold, rfl⟩ | ⟨-, hold⟩
  · exact ⟨run, hold, hf run hold⟩
  · exact ⟨run', hold, rfl, rfl, .inl rfl⟩

/-- Where no run holds the gate, none is to be counted. -/
theorem runs_of_idle (h : a.Sound) (hgate : a.gate = none) : Runs o s a := by
  have hover : ∀ (r : Nat) (run : Run V), a.runs[r]? = some run → run.phase = .over := by
    intro r run hget
    refine Decidable.of_not_not fun hnot => ?_
    cases hgate.symm.trans (h.alone r run hget hnot)
  refine ⟨fun _ => hgate, fun r run hget hphase => ?_, fun r run hget _ hphase => ?_,
    fun r run hget hphase => ?_⟩
  · rw [hover r run hget] at hphase
    exact absurd hphase (by decide)
  · rw [hover r run hget] at hphase
    rcases hphase with hphase | ⟨hphase, -⟩
    · cases hphase
    · exact absurd hphase (by decide)
  · rw [hover r run hget] at hphase
    cases hphase

/-- A save that counts no attempt. -/
theorem Runs.rebase (h : Runs o s a) (hentered : t.entered = s.entered)
    (hattempts : (t.base o).attempts = (s.base o).attempts)
    (hterminal : (s.base o).status.terminal = true → (t.base o).status.terminal = true)
    (hpending : (t.base o).status = .pending → a.gate = none) : Runs o t a where
  idle := hpending
  waiting r run hget hphase hopen := by
    rw [hattempts]
    refine h.waiting r run hget hphase ?_
    cases hold : (s.base o).status.terminal with
    | false => rfl
    | true => exact absurd (hopen.symm.trans (hterminal hold)) Bool.false_ne_true
  budget r run hget hresumed hphase := by
    rw [hattempts, hentered]
    exact h.budget r run hget hresumed hphase
  ready r run hget hphase := by
    rw [hattempts]
    exact h.ready r run hget hphase

/-- A run is reserved, for a job that is running. -/
theorem Runs.reserve (h : Runs o s a) (hruns : b.runs = a.runs ++ [run])
    (hbase : (s.base o).status ≠ .pending) (hphase : run.phase ≠ .ready)
    (hwaiting : run.restarts = 0 ∨ run.restarts = (s.base o).attempts)
    (hbudget : run.resumed = false → run.restarts = 0 → s.entered + 1 ≤ (s.base o).attempts) :
    Runs o s b where
  idle hpending := absurd hpending hbase
  waiting r run' hget hphase' hopen := by
    rw [hruns] at hget
    rcases of_append_get hget with ⟨-, rfl⟩ | ⟨-, hget⟩
    · exact hwaiting
    · exact h.waiting r run' hget hphase' hopen
  budget r run' hget hresumed hphase' := by
    rw [hruns] at hget
    rcases of_append_get hget with ⟨-, rfl⟩ | ⟨-, hget⟩
    · rcases hphase' with hready | ⟨-, hzero⟩
      · exact absurd hready hphase
      · exact hbudget hresumed hzero
    · exact h.budget r run' hget hresumed hphase'
  ready r run' hget hphase' := by
    rw [hruns] at hget
    rcases of_append_get hget with ⟨-, rfl⟩ | ⟨-, hget⟩
    · exact absurd hphase' hphase
    · exact h.ready r run' hget hphase'

/-! ## Saves -/

theorem base_durable (h : ∀ entry, what ≠ .appending entry) :
    (s.durable o a what).base o = a.state := by
  cases what with
  | appending entry => exact absurd rfl (h entry)
  | _ => rfl

/-- What an append leaves in the record is in step with the activation. -/
theorem inStep_durable (h : a.state.InStep (s.base o)) (entry : V) :
    a.state.InStep ((s.durable o a (.appending entry)).base o) := by
  unfold durable base at *
  dsimp only
  split
  case h_1 record hstored =>
    rw [hstored] at h
    split
    · exact h.trans (JobState.alike_applyEntry o record entry).inStep.symm
    · exact .refl _
  case h_2 => exact .refl _

theorem resumes_durable (h : what.counts = false) : (s.durable o a what).resumes = s.resumes := by
  cases what with
  | first r => cases h
  | finishing f =>
    cases f with
    | giveUp r => cases h
    | _ => rfl
  | _ => rfl

/-- What a launch that fails is to take back. -/
def Undoes (prior : Prior V) (origin state : JobState V) : Prop :=
  prior.revert state = origin ∧ origin.status ≠ .running ∧ state.status = .running

/-- What is saved counts, and takes no attempt from a run that holds the gate. -/
structure Saves (o : JobOptions V) (s : Job V) (a : Activation V) (next : Job V) : Prop where
  counts : (next.base o).Counts o next.resumes s.entered
  grows : a.gate = none ∨ (next.base o).status ≠ .pending ∧
    (s.base o).attempts ≤ (next.base o).attempts
  terminal : (s.base o).status.terminal = true → (next.base o).status.terminal = true

/-- The activation is in step with the record, and so is what it saves. -/
structure Led (o : JobOptions V) (s : Job V) (a : Activation V) : Prop where
  turns : ∀ turn ∈ a.queue, turn ≠ .discard ∧ turn ≠ .retained
  uncleared : a.stage ≠ .clearing ∧ a.stage ≠ .clearingRetain
  inStep : ((∀ what, a.stage ≠ .saving what) ∨ ∃ entry, a.stage = .saving (.appending entry)) →
    a.state.InStep (s.base o)
  saves : ∀ what, a.stage = .saving what → Saves o s a (s.durable o a what)
  attempts : ∀ what, a.stage = .saving what → what.counts = false →
    a.state.attempts = (s.base o).attempts
  launches : ∀ prior origin, a.stage = .saving (.launching prior origin) →
    Undoes prior origin a.state ∧ origin.InStep (s.base o) ∧ (prior = .start → a.gate = none)
  tracks : ∀ r prior origin, a.stage = .tracking r prior origin →
    Undoes prior origin a.state ∧ origin.Counts o s.resumes s.entered
  reverts : ∀ prior running origin, a.stage = .saving (.reverting prior running origin) →
    a.state = origin ∧ origin.status ≠ .running ∧ (prior = .start → a.gate = none)
  firsts : ∀ r, a.stage = .saving (.first r) → a.state.status = .running
  finishes : ∀ f, a.stage = .saving (.finishing f) → a.state.status.terminal = true
  runs : Runs o s a

/-- Nothing is being saved or launched. -/
theorem led_of_rests (hturns : ∀ turn ∈ b.queue, turn ≠ .discard ∧ turn ≠ .retained)
    (hrests : b.stage.rests = true) (hinStep : b.state.InStep (t.base o)) (hruns : Runs o t b) :
    Led o t b := by
  have hnot : ∀ {stage : Stage V}, b.stage = stage → stage.rests = true :=
    fun hstage => hstage ▸ hrests
  refine ⟨hturns, ⟨fun hstage => ?_, fun hstage => ?_⟩, fun _ => hinStep, fun _ hstage => ?_,
    fun _ hstage => ?_, fun _ _ hstage => ?_, fun _ _ _ hstage => ?_, fun _ _ _ hstage => ?_,
    fun _ hstage => ?_, fun _ hstage => ?_, hruns⟩
  · cases hnot hstage
  · cases hnot hstage
  · cases hnot hstage
  · cases hnot hstage
  · cases hnot hstage
  · cases hnot hstage
  · cases hnot hstage
  · cases hnot hstage
  · cases hnot hstage

/-- A save is asked for. -/
theorem led_of_saving (hstage : b.stage = .saving what)
    (hturns : ∀ turn ∈ b.queue, turn ≠ .discard ∧ turn ≠ .retained)
    (hinStep : ∀ entry, what = .appending entry → b.state.InStep (t.base o))
    (hsaves : Saves o t b (t.durable o b what))
    (hattempts : what.counts = false → b.state.attempts = (t.base o).attempts)
    (hlaunches : ∀ prior origin, what = .launching prior origin →
      Undoes prior origin b.state ∧ origin.InStep (t.base o) ∧ (prior = .start → b.gate = none))
    (hreverts : ∀ prior running origin, what = .reverting prior running origin →
      b.state = origin ∧ origin.status ≠ .running ∧ (prior = .start → b.gate = none))
    (hfirsts : ∀ r, what = .first r → b.state.status = .running)
    (hfinishes : ∀ f, what = .finishing f → b.state.status.terminal = true) (hruns : Runs o t b) :
    Led o t b := by
  have hone : ∀ {what' : Saving V}, b.stage = .saving what' → what = what' :=
    fun hstage' => Stage.saving.inj (hstage.symm.trans hstage')
  refine ⟨hturns, ⟨?_, ?_⟩, ?_, ?_, ?_, ?_, ?_, ?_, ?_, ?_, hruns⟩
  · rw [hstage]
    exact nofun
  · rw [hstage]
    exact nofun
  · rintro (hnone | ⟨entry, hstage'⟩)
    · exact absurd hstage (hnone what)
    · exact hinStep entry (hone hstage')
  · intro what' hstage'
    exact hone hstage' ▸ hsaves
  · intro what' hstage'
    exact hone hstage' ▸ hattempts
  · exact fun prior origin hstage' => hlaunches prior origin (hone hstage')
  · intro r prior origin hstage'
    cases hstage.symm.trans hstage'
  · exact fun prior running origin hstage' => hreverts prior running origin (hone hstage')
  · exact fun r hstage' => hfirsts r (hone hstage')
  · exact fun f hstage' => hfinishes f (hone hstage')

/-! ## Turns -/

theorem goes_refl (r : Nat) (run' : Run V) (hget : a.runs[r]? = some run') :
    ∃ run, a.runs[r]? = some run ∧ Goes run run' := ⟨run', hget, rfl, rfl, .inl rfl⟩

theorem count_attempts (x : JobState V) (attempt : Nat) :
    (x.count attempt).attempts = max x.attempts attempt ∧ (x.count attempt).status = x.status := by
  unfold JobState.count
  split
  · exact ⟨(Nat.max_eq_right (Nat.le_of_lt ‹_›)).symm, rfl⟩
  · exact ⟨(Nat.max_eq_left (Nat.not_lt.1 ‹_›)).symm, rfl⟩

theorem count_inStep {x : JobState V} {resumes : Nat} (h : x.attempts = 1 + resumes) :
    ({ x.count (0 + 1) with resumeData := none } : JobState V).InStep x := by
  unfold JobState.count
  rw [if_neg (by omega)]
  exact ⟨rfl, rfl, rfl, rfl, rfl⟩

/-- A turn that is still at what it has found. -/
structure At (o : JobOptions V) (s : Job V) (a : Activation V) : Prop where
  turns : ∀ turn ∈ a.queue, turn ≠ .discard ∧ turn ≠ .retained
  stage : a.stage = .idle
  inStep : a.state.InStep (s.base o)
  counts : a.state.Counts o s.resumes s.entered
  runs : Runs o s a

theorem Led.begin (h : Led o s a) (hrecorded : Recorded o s) {turn : Turn V} {queue : List (Turn V)}
    (hstage : a.stage = .idle) (hqueue : a.queue = turn :: queue) :
    At o s { a with queue := queue } := by
  have hinStep := h.inStep (.inl fun what hsaving => by cases hstage.symm.trans hsaving)
  refine ⟨fun turn hmem => h.turns turn ?_, hstage, hinStep, hrecorded.inStep hinStep, ?_⟩
  · rw [hqueue]
    exact List.mem_cons_of_mem _ hmem
  · exact h.runs.goes rfl rfl (.inl rfl) goes_refl

theorem At.keeps (h : At o s a) (hstate : state.InStep a.state) (owed : Bool) :
    Led o s { a with state := state, owed := owed } :=
  led_of_rests h.turns (h.stage ▸ rfl) (hstate.trans h.inStep)
    (h.runs.goes rfl rfl (.inl rfl) goes_refl)

/-- A run that a crash has left behind is one attempt more. -/
theorem At.resumeTask (h : At o s a) (hstatus : a.state.status = .running) :
    Led o s a.resumeTask := by
  unfold Activation.resumeTask
  split
  case isTrue => exact h.keeps (.refl a.state) a.owed
  case isFalse =>
    have hbase : (s.base o).attempts = a.state.attempts := h.inStep.attempts.symm
    have hpos : a.state.attempts ≠ 0 := by
      rw [h.counts.attempts (hstatus ▸ nofun)]
      omega
    have hbase' : (s.base o).status ≠ .pending := by
      rw [← h.inStep.status, hstatus]
      exact nofun
    let run : Run V :=
      { input := a.state.input
        restarts := a.state.attempts
        resumed := false
        period := a.period }
    have hruns : ((a.reserve run).launch a.runs.length).runs =
        a.runs ++ [{ run with phase := .launched }] := append_modify _ _ _
    refine led_of_rests ?_ (h.stage ▸ rfl) h.inStep (h.runs.reserve hruns hbase' ?_ ?_ ?_)
    · intro turn hmem
      rcases List.mem_append.1 hmem with hmem | hmem
      · exact h.turns turn hmem
      · rw [List.mem_singleton.1 hmem]
        exact ⟨nofun, nofun⟩
    · exact nofun
    · exact .inr hbase.symm
    · exact fun _ hzero => absurd hzero hpos

/-- A turn saves, and counts no attempt. -/
theorem At.saves (h : At o s a) (period : Nat) (hcounts : what.counts = false)
    (hwhat : ∀ entry, what ≠ .appending entry) (hattempts : state.attempts = a.state.attempts)
    (hnext : state.Counts o s.resumes s.entered) (hgrows : a.gate = none ∨ state.status ≠ .pending)
    (hterminal : a.state.status.terminal = true → state.status.terminal = true)
    (hlaunches : ∀ prior origin, what = .launching prior origin →
      Undoes prior origin state ∧ origin.InStep (s.base o) ∧ (prior = .start → a.gate = none))
    (hreverts : ∀ prior running origin, what ≠ .reverting prior running origin)
    (hfinishes : ∀ f, what = .finishing f → state.status.terminal = true) :
    Led o s (({ a with period := period } : Activation V).save state what) := by
  have hbase : (s.durable o (({ a with period := period } : Activation V).save state what) what).base o =
      state := base_durable hwhat
  have hattempts' : state.attempts = (s.base o).attempts := hattempts.trans h.inStep.attempts
  refine led_of_saving rfl h.turns (fun entry heq => absurd heq (hwhat entry)) ⟨?_, ?_, ?_⟩
    (fun _ => hattempts') hlaunches (fun prior running origin heq => absurd heq (hreverts _ _ _))
    (fun r heq => ?_) hfinishes (h.runs.goes rfl rfl (.inl rfl) goes_refl)
  · rw [hbase, resumes_durable hcounts]
    exact hnext
  · rw [hbase]
    rcases hgrows with hgate | hstatus
    · exact .inl hgate
    · exact .inr ⟨hstatus, Nat.le_of_eq hattempts'.symm⟩
  · rw [hbase, ← h.inStep.status]
    exact hterminal
  · rw [heq] at hcounts
    cases hcounts

/-- What a launch takes back is what the start has found. -/
theorem revert_start (x : JobState V) (hstatus : x.status = .pending) (hinput : x.input = none)
    (hattempts : x.attempts = 0) (hstarted : x.startedAt = none) (hprincipal : x.principal = none)
    (running : JobState V) (hrunning : running = { x with
      status := running.status, input := running.input, attempts := running.attempts
      startedAt := running.startedAt, principal := running.principal }) :
    Prior.start.revert running = x := by
  rw [hrunning]
  cases x
  cases hstatus
  cases hinput
  cases hattempts
  cases hstarted
  cases hprincipal
  rfl

section

variable (h : At o s a)
include h

/-- The start of a job that is pending. -/
theorem At.start (hstatus : a.state.status = .pending) {state : JobState V}
    (hrunning : state.status = .running) (hone : state.attempts = 1)
    (hstate : state = { a.state with
      status := state.status, input := state.input, attempts := state.attempts
      startedAt := state.startedAt, principal := state.principal }) (period : Nat) :
    Led o s (({ a with period := period } : Activation V).save state
      (.launching .start a.state)) := by
  obtain ⟨hinput, hattempts, hstarted, hprincipal, hresumes, hentered⟩ := h.counts.fresh hstatus
  have hgate : a.gate = none := h.runs.idle (h.inStep.status.symm.trans hstatus)
  refine led_of_saving rfl h.turns (fun _ heq => ?_) ⟨?_, .inl hgate, ?_⟩ (fun heq => ?_)
    (fun prior origin heq => ?_) (fun _ _ _ heq => ?_) (fun _ heq => ?_) (fun _ heq => ?_) (h.runs.goes rfl rfl (.inl rfl) goes_refl)
  · cases heq
  · refine ⟨fun hpending => ?_, fun _ => ?_, fun hpos => ?_, ?_⟩
    · cases hrunning.symm.trans hpending
    · exact hone.trans (congrArg (1 + ·) hresumes).symm
    · exact absurd hresumes (Nat.ne_of_gt hpos)
    · rw [hentered]
      exact ⟨Nat.zero_le _, Nat.zero_le _⟩
  · rw [← h.inStep.status, hstatus]
    exact nofun
  · cases heq
  · cases heq
    refine ⟨⟨?_, hstatus ▸ nofun, hrunning⟩, h.inStep, fun _ => hgate⟩
    exact revert_start a.state hstatus hinput hattempts hstarted hprincipal state hstate
  · cases heq
  · cases heq
  · cases heq

/-- The job is settled, by a cancel or by its body. -/
theorem At.settles (hpending : a.state.status ≠ .pending)
    (hopen : a.state.status.terminal = false) {f : Finisher} (hf : ∀ r, f ≠ .giveUp r)
    {status : JobStatus} (hstatus : status.terminal = true)
    (hattempts : state.attempts = a.state.attempts) (now : Nat) :
    Led o s (a.finish f status now state) := by
  have hcounts : (Saving.finishing f : Saving V).counts = false := by
    cases f with
    | giveUp r => exact absurd rfl (hf r)
    | _ => rfl
  have hnew : status ≠ .pending := fun heq => by
    rw [heq] at hstatus
    cases hstatus
  have hfailed : a.state.status ≠ .failed := fun heq => by
    rw [heq] at hopen
    cases hopen
  refine h.saves a.period hcounts (fun _ heq => ?_) hattempts
    (h.counts.move hattempts hpending hfailed hnew) (.inr hnew) (fun _ => hstatus)
    (fun _ _ heq => ?_) (fun _ _ _ heq => ?_) fun _ _ => hstatus
  · cases heq
  · cases heq
  · cases heq

/-- The attempts of a run whose first turn is begun. -/
theorem At.attempts_count (hstatus : a.state.status = .running)
    (hget : a.runs[r]? = some run) (hphase : run.phase = .launched) :
    (a.state.count (run.restarts + 1)).attempts =
      a.state.attempts + if run.restarts = 0 then 0 else 1 := by
  have hopen : (s.base o).status.terminal = false := by
    rw [← h.inStep.status, hstatus]
    rfl
  have hone : a.state.attempts = 1 + s.resumes := h.counts.attempts (hstatus ▸ nofun)
  rw [(count_attempts _ _).1]
  rcases h.runs.waiting r run hget (.inr hphase) hopen with hzero | hmore
  · rw [hzero, if_pos rfl]
    omega
  · rw [← h.inStep.attempts] at hmore
    rw [hmore, if_neg (by omega)]
    omega

/-- A crash-resume is counted. -/
theorem At.first (hstatus : a.state.status = .running)
    (hget : a.runs[r]? = some run) (hphase : run.phase = .launched) (hrestarts : run.restarts ≠ 0)
    (hfew : (a.state.count (run.restarts + 1)).attempts ≤ o.maxAttempts)
    (hf : ∀ run, (f run).restarts = run.restarts ∧ (f run).resumed = run.resumed ∧
      (f run).phase = run.phase)
    (hsame : state.status = a.state.status)
    (hattempts : state.attempts = (a.state.count (run.restarts + 1)).attempts) :
    Led o s ((a.modifyRun r f).save state (.first r)) := by
  have hcount := h.attempts_count hstatus hget hphase
  rw [if_neg hrestarts] at hcount
  have hone : a.state.attempts = 1 + s.resumes := h.counts.attempts (hstatus ▸ nofun)
  have hbase : (s.durable o ((a.modifyRun r f).save state (.first r)) (.first r)).base o = state :=
    rfl
  have hresumes : (s.durable o ((a.modifyRun r f).save state (.first r)) (.first r)).resumes =
      s.resumes + 1 := rfl
  have hrunning : state.status = .running := hsame.trans hstatus
  refine led_of_saving rfl h.turns (fun _ heq => ?_) ⟨?_, .inr ⟨?_, ?_⟩, ?_⟩ (fun heq => ?_)
    (fun _ _ heq => ?_) (fun _ _ _ heq => ?_) (fun _ _ => hrunning) (fun _ heq => ?_) ?_
  · cases heq
  · rw [hbase, hresumes]
    refine ⟨fun hpending => ?_, fun _ => by omega, fun _ hmany => by omega, ?_⟩
    · cases hrunning.symm.trans hpending
    · have hentered := h.counts.entered
      exact ⟨by omega, hentered.2⟩
  · rw [hbase, hrunning]
    exact nofun
  · rw [hbase, ← h.inStep.attempts]
    omega
  · rw [hbase, hrunning, ← h.inStep.status, hstatus]
    exact id
  · cases heq
  · cases heq
  · cases heq
  · cases heq
  · refine h.runs.goes rfl rfl (.inl rfl) (goes_modify (fun run _ => ?_) rfl)
    exact ⟨(hf run).1, (hf run).2.1, .inl (hf run).2.2⟩

/-- A job is given up with the attempt that is too many. -/
theorem At.giveUp (hstatus : a.state.status = .running)
    (hget : a.runs[r]? = some run) (hphase : run.phase = .launched)
    (hattempts : state.attempts = (a.state.count (run.restarts + 1)).attempts) (now : Nat) :
    Led o s (a.finish (.giveUp r) .failed now state) := by
  have hcount := h.attempts_count hstatus hget hphase
  have hone : a.state.attempts = 1 + s.resumes := h.counts.attempts (hstatus ▸ nofun)
  have hresumes : (s.durable o (a.finish (.giveUp r) .failed now state)
      (.finishing (.giveUp r))).resumes = s.resumes + if run.restarts = 0 then 0 else 1 := by
    show (if (a.runs[r]?).any fun run => decide (0 < run.restarts) then s.resumes + 1
      else s.resumes) = _
    rw [hget, Option.any_some]
    by_cases hzero : run.restarts = 0
    · rw [if_neg (by simp [hzero]), if_pos hzero]
      rfl
    · rw [if_pos (decide_eq_true (Nat.pos_of_ne_zero hzero)), if_neg hzero]
  have hbase : (s.durable o (a.finish (.giveUp r) .failed now state)
      (.finishing (.giveUp r))).base o =
        { state with status := .failed, finishedAt := some now, resumeData := none } := rfl
  refine led_of_saving rfl h.turns (fun _ heq => ?_) ⟨?_, .inr ⟨?_, ?_⟩, ?_⟩ (fun heq => ?_)
    (fun _ _ heq => ?_) (fun _ _ _ heq => ?_) (fun _ heq => ?_) (fun _ _ => rfl)
    (h.runs.goes rfl rfl (.inl rfl) goes_refl)
  · cases heq
  · rw [hbase, hresumes]
    have hentered := h.counts.entered
    refine ⟨fun hpending => ?_, fun _ => ?_, fun _ _ => rfl, ?_⟩
    · cases hpending
    · dsimp only
      omega
    · dsimp only
      exact ⟨by omega, hentered.2⟩
  · exact nofun
  · rw [hbase, ← h.inStep.attempts]
    dsimp only
    omega
  · exact fun _ => rfl
  · cases heq
  · cases heq
  · cases heq
  · cases heq

/-- The resume of a job that is paused. -/
theorem At.resumePaused (hstatus : a.state.status = .paused) (data : Option V)
    (period : Nat) : Led o s (({ a with period := period } : Activation V).save
      { a.state with status := .running, resumeData := data }
      (.launching (.resume a.state.resumeData) a.state)) := by
  refine h.saves period rfl (fun _ heq => ?_) rfl
    (h.counts.move rfl (hstatus ▸ nofun) (hstatus ▸ nofun) nofun) (.inr nofun) (fun hterminal => ?_)
    (fun _ _ heq => ?_) (fun _ _ _ heq => ?_) fun _ heq => ?_
  · cases heq
  · rw [hstatus] at hterminal
    cases hterminal
  · cases heq
    refine ⟨⟨?_, hstatus ▸ nofun, rfl⟩, h.inStep, nofun⟩
    cases hstate : a.state with
    | mk =>
      rw [hstate] at hstatus
      cases hstatus
      rfl
  · cases heq
  · cases heq

/-- The body of a run may be called. -/
theorem At.ready (hstatus : a.state.status = .running)
    (hget : a.runs[r]? = some run) (hphase : run.phase = .launched) (hrestarts : run.restarts = 0)
    (hfew : (a.state.count (run.restarts + 1)).attempts ≤ o.maxAttempts)
    (hf : ∀ run, (f run).restarts = run.restarts ∧ (f run).resumed = run.resumed ∧
      (f run).phase = .ready)
    (hstate : state.InStep a.state) :
    Led o s { a.modifyRun r f with state := state } := by
  have hcount := h.attempts_count hstatus hget hphase
  rw [if_pos hrestarts, h.inStep.attempts] at hcount
  have hruns := h.runs
  refine led_of_rests h.turns (h.stage ▸ rfl) (hstate.trans h.inStep) ⟨fun hpending => ?_, ?_, ?_, ?_⟩
  · rw [← h.inStep.status, hstatus] at hpending
    cases hpending
  · intro r' run' hget' hphase' hopen
    rcases of_modify_get hget' with ⟨old, rfl, -, rfl⟩ | ⟨-, hold⟩
    · rw [(hf old).2.2] at hphase'
      exact absurd hphase' (by decide)
    · exact hruns.waiting r' run' hold hphase' hopen
  · intro r' run' hget' hresumed hphase'
    rcases of_modify_get hget' with ⟨old, rfl, hold, rfl⟩ | ⟨-, hold⟩
    · cases hget.symm.trans hold
      exact hruns.budget r' run hget ((hf run).2.1 ▸ hresumed) (.inr ⟨.inr hphase, hrestarts⟩)
    · exact hruns.budget r' run' hold hresumed hphase'
  · intro r' run' hget' hphase'
    rcases of_modify_get hget' with ⟨old, rfl, -, rfl⟩ | ⟨-, hold⟩
    · exact Nat.le_trans (Nat.le_of_eq hcount.symm) hfew
    · exact hruns.ready r' run' hold hphase'

/-- A turn saves the state, changed in nothing that counts. -/
theorem At.savesPlain (hstate : state.InStep a.state) : Led o s (a.save state .plain) := by
  refine h.saves a.period rfl (fun _ heq => ?_) hstate.attempts
    (h.counts.inStep hstate) ?_ (fun hterminal => hstate.status ▸ hterminal) (fun _ _ heq => ?_)
    (fun _ _ _ heq => ?_) fun _ heq => ?_
  · cases heq
  · by_cases hpending : state.status = .pending
    · exact .inl (h.runs.idle (h.inStep.status.symm.trans (hstate.status.symm.trans hpending)))
    · exact .inr hpending
  · cases heq
  · cases heq
  · cases heq

/-- So does an append, which leaves the record to fold its entry. -/
theorem At.append (hstate : state.InStep a.state) (entry : V) :
    Led o s (a.save state (.appending entry)) := by
  have hsame : state.InStep (s.base o) := hstate.trans h.inStep
  have hnext : state.InStep ((s.durable o (a.save state (.appending entry))
      (.appending entry)).base o) :=
    inStep_durable (a := a.save state (.appending entry)) hsame entry
  refine led_of_saving rfl h.turns (fun _ _ => hsame) ⟨?_, ?_, ?_⟩ (fun _ => hsame.attempts)
    (fun _ _ heq => ?_) (fun _ _ _ heq => ?_) (fun _ heq => ?_) (fun _ heq => ?_)
    (h.runs.goes rfl rfl (.inl rfl) goes_refl)
  · exact (h.counts.inStep hstate).inStep hnext.symm
  · by_cases hpending : a.state.status = .pending
    · exact .inl (h.runs.idle (h.inStep.status.symm.trans hpending))
    refine .inr ⟨?_, Nat.le_of_eq (hsame.attempts.symm.trans hnext.attempts)⟩
    rw [← hnext.status, hstate.status]
    exact hpending
  · rw [← hnext.status, hsame.status]
    exact id
  · cases heq
  · cases heq
  · cases heq
  · cases heq

end

theorem Led.begins (h : Led o s a) (hsound : a.Sound) (hrecorded : Recorded o s) {turn : Turn V}
    {queue : List (Turn V)} (hstage : a.stage = .idle) (hqueue : a.queue = turn :: queue)
    {now : Nat} : Led o s (({ a with queue := queue } : Activation V).begin o now turn) := by
  have hat := h.begin hrecorded hstage hqueue
  have hlaunched : ∀ {r : Nat} {run : Run V}, turn = .first r → a.runs[r]? = some run →
      run.phase = .launched := by
    rintro r run rfl hget
    obtain ⟨-, -, -, run', hget', hphase⟩ := hsound.begun hstage hqueue rfl
    exact Option.some.inj (hget.symm.trans hget') ▸ hphase
  generalize hb : ({ a with queue := queue } : Activation V).begin o now turn = b
  have hbegins := Activation.begins_of_begin o { a with queue := queue } now turn
  rw [hb] at hbegins
  cases hbegins with
  | keeps hstate => exact hat.keeps hstate.inStep _
  | heals hstatus => exact hat.resumeTask hstatus
  | starts hstatus => exact hat.start hstatus rfl rfl rfl _
  | @resumes data hstatus => exact hat.resumePaused hstatus data _
  | cancels hpending hopen =>
    refine hat.settles hpending hopen ?_ rfl rfl now
    exact nofun
  | winds hturn hstatus =>
    refine led_of_rests hat.turns (hstage ▸ rfl) hat.inStep ?_
    refine hat.runs.goes rfl rfl (.inl rfl) (goes_modify (fun run _ => ?_) rfl)
    exact ⟨rfl, rfl, .inr (.inr ⟨nofun, nofun, nofun⟩)⟩
  | givesUp hget hstatus hmany =>
    refine hat.giveUp hstatus hget (hlaunched rfl hget) ?_ now
    rfl
  | firsts hget hstatus hfew hrestarts hf =>
    exact hat.first hstatus hget (hlaunched rfl hget) hrestarts hfew
      (fun run => ⟨(hf run).1, (hf run).2.1, (hf run).2.2.1⟩) (count_attempts _ _).2 rfl
  | readies hget hstatus hfew hrestarts hf =>
    refine hat.ready hstatus hget (hlaunched rfl hget) hrestarts hfew
      (fun run => ⟨(hf run).1, (hf run).2.1, (hf run).2.2.1⟩) ?_
    rw [hrestarts]
    exact count_inStep (hat.counts.attempts (hstatus ▸ nofun))
  | settles completed hstatus hattempts =>
    have hopen : a.state.status.terminal = false := by
      rw [hstatus]
      rfl
    refine hat.settles (hstatus ▸ nofun) hopen ?_ ?_ hattempts now
    · exact nofun
    · cases completed
      · rfl
      · rfl
  | @saves turn state what hstate hwhat =>
    rcases hwhat with rfl | ⟨r, entry, -, rfl, -, -⟩
    · exact hat.savesPlain hstate.inStep
    · exact hat.append hstate.inStep entry
  | pauses hstatus =>
    refine hat.saves a.period rfl (fun _ heq => ?_) rfl
      (hat.counts.move rfl (hstatus ▸ nofun) (hstatus ▸ nofun) nofun) (.inr nofun)
      (fun hterminal => ?_) (fun _ _ heq => ?_) (fun _ _ _ heq => ?_) fun _ heq => ?_
    · cases heq
    · have hterminal' : a.state.status.terminal = true := hterminal
      rw [hstatus] at hterminal'
      cases hterminal'
    · cases heq
    · cases heq
    · cases heq
  | clears hturn hterminal hstage' =>
    obtain ⟨hdiscard, hretained⟩ := h.turns turn (hqueue ▸ List.mem_cons_self)
    exact (hturn.elim hdiscard hretained).elim

/-! ## Steps -/

theorem durable_congr {w : Saving V} (hstored : t.stored = s.stored)
    (hresumes : t.resumes = s.resumes) (hstate : b.state = a.state)
    (hruns : ∀ r : Nat, (b.runs[r]?).map Run.restarts = (a.runs[r]?).map Run.restarts) :
    (t.durable o b w).base o = (s.durable o a w).base o ∧
      (t.durable o b w).resumes = (s.durable o a w).resumes := by
  have hany : ∀ r : Nat, (b.runs[r]?).any (fun run => decide (0 < run.restarts)) =
      (a.runs[r]?).any fun run => decide (0 < run.restarts) := by
    intro r
    have h := congrArg (Option.any fun n => decide (0 < n)) (hruns r)
    rw [Option.any_map, Option.any_map] at h
    exact h
  have hbase : (∀ entry, w ≠ .appending entry) →
      (t.durable o b w).base o = (s.durable o a w).base o := by
    intro hwhat
    rw [base_durable hwhat, base_durable hwhat]
    exact hstate
  cases w with
  | first r => exact ⟨hbase nofun, congrArg (· + 1) hresumes⟩
  | appending entry =>
    unfold durable base
    rw [hstored, hstate]
    exact ⟨rfl, hresumes⟩
  | finishing f =>
    refine ⟨hbase nofun, ?_⟩
    cases f with
    | giveUp r =>
      unfold durable
      dsimp only
      rw [hany, hresumes]
    | cancel | settle => exact hresumes
  | launching | reverting | plain => exact ⟨hbase nofun, hresumes⟩

/-- Nothing happens but to a run, or to the queue. -/
theorem Led.still (h : Led o s a) (hstored : t.stored = s.stored) (hresumes : t.resumes = s.resumes)
    (hentered : t.entered = s.entered) (hstate : b.state = a.state) (hstage : b.stage = a.stage)
    (hturns : ∀ turn ∈ b.queue, turn ≠ .discard ∧ turn ≠ .retained)
    (hgate : b.gate = a.gate ∨ b.gate = none)
    (hrestarts : ∀ r : Nat, (b.runs[r]?).map Run.restarts = (a.runs[r]?).map Run.restarts)
    (hruns : ∀ (r : Nat) (run' : Run V), b.runs[r]? = some run' →
      ∃ run, a.runs[r]? = some run ∧ Goes run run') : Led o t b := by
  have hbase : t.base o = s.base o := congrArg (Option.getD · o.fresh) hstored
  have hidle : a.gate = none → b.gate = none := fun hnone => by
    rcases hgate with hgate | hgate
    · exact hgate.trans hnone
    · exact hgate
  refine ⟨hturns, hstage ▸ h.uncleared, fun hnot => ?_, fun what hsaving => ?_,
    fun what hsaving hcounts => ?_, fun prior origin hsaving => ?_, fun r prior origin htracking => ?_,
    fun prior running origin hsaving => ?_, fun r hsaving => ?_, fun f hsaving => ?_,
    h.runs.goes hbase hentered hgate hruns⟩
  · rw [hstage] at hnot
    rw [hstate, hbase]
    exact h.inStep hnot
  · obtain ⟨hnext, hcount⟩ := durable_congr (o := o) (w := what) hstored hresumes hstate hrestarts
    obtain ⟨hcounts, hgrows, hterminal⟩ := h.saves what (hstage.symm.trans hsaving)
    refine ⟨?_, ?_, ?_⟩
    · rw [hnext, hcount, hentered]
      exact hcounts
    · rw [hnext, hbase]
      exact hgrows.imp_left hidle
    · rw [hnext, hbase]
      exact hterminal
  · rw [hstate, hbase]
    exact h.attempts what (hstage.symm.trans hsaving) hcounts
  · obtain ⟨hundoes, hinStep, hnone⟩ := h.launches prior origin (hstage.symm.trans hsaving)
    rw [hstate, hbase]
    exact ⟨hundoes, hinStep, fun hstart => hidle (hnone hstart)⟩
  · rw [hstate, hresumes, hentered]
    exact h.tracks r prior origin (hstage.symm.trans htracking)
  · obtain ⟨horigin, hstatus, hnone⟩ := h.reverts prior running origin (hstage.symm.trans hsaving)
    exact ⟨hstate.trans horigin, hstatus, fun hstart => hidle (hnone hstart)⟩
  · rw [hstate]
    exact h.firsts r (hstage.symm.trans hsaving)
  · rw [hstate]
    exact h.finishes f (hstage.symm.trans hsaving)

theorem restarts_modify (hf : ∀ run, (f run).restarts = run.restarts)
    (hruns : b.runs = a.runs.modify r f) (r' : Nat) :
    (b.runs[r']?).map Run.restarts = (a.runs[r']?).map Run.restarts := by
  rw [hruns, modify_get]
  split
  · rw [Option.map_map]
    exact congrArg (Option.map · _) (funext hf)
  · rfl

/-- A run goes on, and no further than it may. -/
theorem Led.modify (h : Led o s a) (hf : ∀ run, (f run).restarts = run.restarts)
    (hgoes : ∀ run, a.runs[r]? = some run → Goes run (f run)) (hruns : b.runs = a.runs.modify r f)
    (hstate : b.state = a.state) (hstage : b.stage = a.stage)
    (hturns : ∀ turn ∈ b.queue, turn ≠ .discard ∧ turn ≠ .retained)
    (hgate : b.gate = a.gate ∨ b.gate = none) : Led o s b :=
  h.still rfl rfl rfl hstate hstage hturns hgate (restarts_modify hf hruns) (goes_modify hgoes hruns)

end Job

end SigxActors.Job
