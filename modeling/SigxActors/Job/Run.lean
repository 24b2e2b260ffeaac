/-
  Job/Run.lean --- one job: its record, its activation, and the runs of its body.

  Source: `packages/actors/src/job/define-job.ts`, and what it uses of
  `packages/actors/src/host/activation.ts` (`#startTask`, `#resumeTask`, `#taskBody`, `save`,
  `append`, `clearState`).

  A turn is begun when the one before has ended, and carried up to its next `await`; `stage`
  says what it awaits.  A body goes on between any two steps, and asks for turns.  A crash takes
  the activation, and a write that is under way may have reached the record.

  Values are of one type; `none` is `null`.  The record is what a load would give: the snapshot,
  with the log folded into it.  Nobody else writes it, so no write meets a conflict.
-/
import SigxActors.Machine.Transition
import SigxActors.Js.Array

set_option autoImplicit false

namespace SigxActors.Job

/-! ## State -/

inductive JobStatus where
  | pending
  | running
  | paused
  | completed
  | failed
  | cancelled
  deriving DecidableEq, Repr

/-- `TERMINAL`. -/
def JobStatus.terminal : JobStatus → Bool
  | .completed | .failed | .cancelled => true
  | .pending | .running | .paused => false

structure JobState (V : Type) where
  status : JobStatus := .pending
  input : Option V := none
  checkpoint : Option V := none
  result : Option V := none
  error : Option String := none
  progress : Option V := none
  attempts : Nat := 0
  startedAt : Option Nat := none
  finishedAt : Option Nat := none
  resumeData : Option V := none
  principal : Option String := none
  extra : V
  deriving DecidableEq, Repr

structure JobOptions (V : Type) where
  maxAttempts : Nat := 3
  /-- `retainMs` is given. -/
  retains : Bool := false
  /-- `onSettled` is given. -/
  settles : Bool := false
  /-- What `append` folds into the checkpoint, if anything. -/
  apply : Option V → V → Option V := fun _ _ => none
  /-- `state`. -/
  extra : V
  /-- The storage appends. -/
  appends : Bool := true

/-- The fresh state. -/
def JobOptions.fresh {V : Type} (o : JobOptions V) : JobState V := { extra := o.extra }

/-- The attempt that has been begun is counted. -/
def JobState.count {V : Type} (s : JobState V) (attempt : Nat) : JobState V :=
  if s.attempts < attempt then { s with attempts := attempt } else s

/-- `applyEntry`. -/
def JobOptions.applyEntry {V : Type} (o : JobOptions V) (s : JobState V) (entry : V) : JobState V :=
  match o.apply s.checkpoint entry with
  | some next => { s with checkpoint := some next }
  | none => s

/-- The fields that `launch` takes back. -/
inductive Prior (V : Type) where
  | start
  | resume (resumeData : Option V)
  deriving DecidableEq, Repr

namespace Prior

variable {V : Type}

/-- `Object.assign(s, prior)`. -/
def revert (s : JobState V) : Prior V → JobState V
  | .start =>
      { s with
        status := .pending, input := none, attempts := 0, startedAt := none, principal := none }
  | .resume resumeData => { s with status := .paused, resumeData := resumeData }

/-- `Object.assign(s, running)`. -/
def restore (running s : JobState V) : Prior V → JobState V
  | .start =>
      { s with
        status := running.status
        input := running.input
        attempts := running.attempts
        startedAt := running.startedAt
        principal := running.principal }
  | .resume _ => { s with status := running.status, resumeData := running.resumeData }

end Prior

inductive Phase where
  /-- Task liveness is told of it. -/
  | starting
  /-- Its first turn is queued. -/
  | launched
  | ready
  | body
  /-- The turn that settles the job is queued. -/
  | settling
  /-- It is to release the gate. -/
  | winding
  | over
  deriving DecidableEq, Repr

/-- A run of the task. -/
structure Run (V : Type) where
  input : Option V
  restarts : Nat
  /-- A pause-resume started it. -/
  resumed : Bool
  /-- For which time that the job was made `running`. -/
  period : Nat
  phase : Phase := .starting
  aborted : Bool := false
  /-- Its body has been called. -/
  entered : Bool := false
  resumedFrom : Option V := none
  resumeData : Option V := none
  principal : Option String := none
  deriving DecidableEq, Repr

/-- Who settles the job. -/
inductive Finisher where
  | cancel
  | giveUp (r : Nat)
  | settle (r : Nat) (completed : Bool)
  deriving DecidableEq, Repr

/-- What a turn saves for; `origin` is the state that the turn has found. -/
inductive Saving (V : Type) where
  | launching (prior : Prior V) (origin : JobState V)
  | reverting (prior : Prior V) (running origin : JobState V)
  | finishing (f : Finisher)
  | first (r : Nat)
  | appending (entry : V)
  | plain
  deriving DecidableEq, Repr

/-- What the turn that is executed awaits. -/
inductive Stage (V : Type) where
  | idle
  | saving (what : Saving V)
  | tracking (r : Nat) (prior : Prior V) (origin : JobState V)
  | retaining (f : Finisher)
  | hook (f : Finisher)
  | clearingRetain
  | clearing
  deriving DecidableEq, Repr

inductive Turn (V : Type) where
  | start (input : V) (principal : Option String)
  /-- `status`, or `result`. -/
  | read
  | cancel
  | resume (data : Option V)
  | discard
  /-- The retention reminder. -/
  | retained
  /-- The write that an eventual save has asked for. -/
  | flush
  /-- The reminder of task liveness. -/
  | heal
  | first (r : Nat)
  | progress (r : Nat) (p : V)
  | checkpoint (r : Nat) (cp : V) (eventual : Bool)
  | append (r : Nat) (entry : V)
  | update (r : Nat) (extra : V)
  | pause (r : Nat) (cp : V)
  | settle (r : Nat) (outcome : Except String V)

/-- It ends with what it has found, where the job is settled. -/
def Turn.reports {V : Type} : Turn V → Bool
  | .read | .cancel => true
  | _ => false

structure Activation (V : Type) where
  state : JobState V
  stage : Stage V := .idle
  queue : List (Turn V) := []
  runs : List (Run V) := []
  /-- `#tasks`. -/
  gate : Option Nat := none
  /-- An eventual save is to be carried out. -/
  owed : Bool := false
  deactivating : Bool := false
  /-- How often the job was made `running`. -/
  period : Nat := 0

/-- The record and the activation; the rest is history. -/
structure Job (V : Type) where
  stored : Option (JobState V) := none
  live : Option (Activation V) := none
  /-- The first turns of crash-resumes that were saved. -/
  resumes : Nat := 0
  /-- How often the body was called, but for pause-resumes. -/
  entered : Nat := 0
  /-- The terminal status that a caller has seen. -/
  observed : Option JobStatus := none
  /-- The terminal transitions that were saved. -/
  transitions : Nat := 0
  /-- The calls of `onSettled`. -/
  hooked : Nat := 0

/-! ## Turns -/

namespace Activation

variable {V : Type} (o : JobOptions V) (a : Activation V)

def modifyRun (r : Nat) (f : Run V → Run V) : Activation V := { a with runs := a.runs.modify r f }

def setPhase (r : Nat) (phase : Phase) : Activation V :=
  a.modifyRun r fun run => { run with phase := phase }

def push (turn : Turn V) : Activation V := { a with queue := a.queue ++ [turn] }

def await (stage : Stage V) : Activation V := { a with stage := stage }

/-- `c.save()`, in a turn that has brought the state to `state`. -/
def save (state : JobState V) (what : Saving V) : Activation V :=
  { a with state := state, stage := .saving what }

/-- `finish`, up to its save; the patch has been made. -/
def finish (f : Finisher) (status : JobStatus) (now : Nat) (state : JobState V) : Activation V :=
  a.save { state with status := status, finishedAt := some now, resumeData := none } (.finishing f)

/-- `#reserve`. -/
def reserve (run : Run V) : Activation V :=
  { a with runs := a.runs ++ [run], gate := some a.runs.length }

/-- `#launch`: the body asks for its first turn. -/
def launch (r : Nat) : Activation V := (a.setPhase r .launched).push (.first r)

/-- `#resumeTask`, of the entry that `resumeTasks` derives: its `restarts` are `attempts - 1`, and
the run has one more. -/
def resumeTask : Activation V :=
  if a.deactivating || a.gate.isSome then a
  else
    (a.reserve
      { input := a.state.input
        restarts := a.state.attempts
        resumed := false
        period := a.period }).launch a.runs.length

/-- `launch` has failed: the transition is taken back. -/
def takeBack (prior : Prior V) (origin : JobState V) : Activation V :=
  a.save (prior.revert a.state) (.reverting prior a.state origin)

/-- `launch`, and `#startTask` in it, up to where it waits. -/
def startTask (prior : Prior V) (origin : JobState V) : Activation V :=
  if a.deactivating then a.takeBack prior origin
  else if a.gate.isSome then a.await .idle
  else
    (a.reserve
      { input := a.state.input
        restarts := 0
        resumed := match prior with
          | .start => false
          | .resume _ => true
        period := a.period }).await (.tracking a.runs.length prior origin)

/-- The error of a job that is given up. -/
def gaveUp : String := "gave up after " ++ toString o.maxAttempts ++ " attempts (crash-resume loop)"

/-- The first turn of a run. -/
def firstTurn (r : Nat) (run : Run V) (now : Nat) : Activation V :=
  if a.state.status ≠ .running then a.setPhase r .winding
  else
    let attempt := run.restarts + 1
    let state := a.state.count attempt
    if o.maxAttempts < state.attempts then
      a.finish (.giveUp r) .failed now { state with error := some (gaveUp o) }
    else
      let a := a.modifyRun r fun run =>
        { run with
          resumedFrom := state.checkpoint
          resumeData := state.resumeData
          principal := state.principal }
      let state := { state with resumeData := none }
      if 1 < attempt then a.save state (.first r)
      else { a with state := state }.setPhase r .ready

/-- The turn that settles the job, when its body has. -/
def settleTurn (r : Nat) (now : Nat) : Except String V → Activation V
  | .ok out =>
      if a.state.status ≠ .running then a.setPhase r .winding
      else
        a.finish (.settle r true) .completed now
          { a.state with progress := none, result := some out }
  | .error message =>
      if a.state.status ≠ .running then a.setPhase r .winding
      else a.finish (.settle r false) .failed now { a.state with error := some message }

/-- A turn, up to where it waits. -/
def begin (now : Nat) : Turn V → Activation V
  | .start input principal =>
      if a.state.status ≠ .pending then a
      else
        { a with period := a.period + 1 }.save
          { a.state with
            status := .running
            input := some input
            attempts := 1
            startedAt := some now
            principal := principal } (.launching .start a.state)
  | .read => a
  | .cancel =>
      if a.state.status = .pending || a.state.status.terminal then a
      else a.finish .cancel .cancelled now a.state
  | .resume data =>
      if a.state.status ≠ .paused then a
      else
        { a with period := a.period + 1 }.save
          { a.state with status := .running, resumeData := data }
          (.launching (.resume a.state.resumeData) a.state)
  | .discard =>
      if a.state.status.terminal then
        if o.retains then a.await .clearingRetain else a.await .clearing
      else a
  | .retained => if a.state.status.terminal then a.await .clearing else a
  | .flush => if a.owed then a.save a.state .plain else a
  | .heal => if a.state.status = .running then a.resumeTask else a
  | .first r =>
      match a.runs[r]? with
      | some run => a.firstTurn o r run now
      | none => a
  | .progress _ p =>
      if a.state.status = .running then { a with state := { a.state with progress := some p } }
      else a
  | .checkpoint _ cp eventual =>
      if a.state.status ≠ .running then a
      else if eventual then { a with state := { a.state with checkpoint := some cp }, owed := true }
      else a.save { a.state with checkpoint := some cp } .plain
  | .append _ entry =>
      if a.state.status = .running then a.save (o.applyEntry a.state entry) (.appending entry)
      else a
  | .update _ extra =>
      if a.state.status = .running then { a with state := { a.state with extra := extra } } else a
  | .pause _ cp =>
      if a.state.status ≠ .running then a
      else a.save { a.state with checkpoint := some cp, status := .paused } .plain
  | .settle r outcome => a.settleTurn r now outcome

/-- A job has been settled, and its hook has returned. -/
def finished : Finisher → Activation V
  | .cancel =>
      -- `tasks.cancel(RUN)`
      match a.gate with
      | some r => (a.modifyRun r fun run => { run with aborted := true }).await .idle
      | none => a.await .idle
  | .giveUp r | .settle r _ => (a.setPhase r .winding).await .idle

/-- `finish` has failed. -/
def unfinished (error : String) : Finisher → Activation V
  | .cancel => a.await .idle
  | .giveUp r | .settle r false => (a.setPhase r .winding).await .idle
  | .settle r true =>
      -- The `catch` of the body.
      if (a.runs[r]?).any (·.aborted) then (a.setPhase r .winding).await .idle
      else (a.push (.settle r (.error error))).await .idle

/-- The abort of a deactivation. -/
def deactivate : Activation V :=
  match a.gate with
  | some r => { a.modifyRun r fun run => { run with aborted := true } with deactivating := true }
  | none => { a with deactivating := true }

end Activation

/-! ## Steps -/

/-- What a body comes to. -/
inductive Result (V : Type) where
  | value (out : V)
  /-- `JOB_PAUSED`. -/
  | paused
  | thrown (message : String)

inductive Label (V : Type) where
  | activate
  | submit (turn : Turn V)
  /-- The first turn of the queue is begun. -/
  | begin (now : Nat)
  /-- A save is done, or has failed and written nothing. -/
  | written (failure : Option String)
  | tracked (ok : Bool)
  /-- The retention reminder is set, or is not. -/
  | retained (failure : Option String)
  | hooked
  | cleared (ok : Bool)
  | enter (r : Nat)
  | returns (r : Nat) (result : Result V)
  | release (r : Nat)
  | deactivate
  | crash (written : Bool)

namespace Job

variable {V : Type} (o : JobOptions V) (s : Job V) (a : Activation V)

/-- The write that is under way reaches the record. -/
def durable : Saving V → Job V
  | .finishing f =>
      { s with
        stored := some a.state
        transitions := s.transitions + 1
        resumes := match f with
          | .giveUp r => if (a.runs[r]?).any (0 < ·.restarts) then s.resumes + 1 else s.resumes
          | _ => s.resumes }
  | .first _ => { s with stored := some a.state, resumes := s.resumes + 1 }
  | .appending entry =>
      { s with
        stored := some (match s.stored with
          | some record => if o.appends then o.applyEntry record entry else a.state
          | none => a.state) }
  | .launching _ _ | .reverting _ _ _ | .plain => { s with stored := some a.state }

def setLive (a : Activation V) : Job V := { s with live := some a }

/-- An eventual save is carried out with any write of the whole state. -/
def paid (a : Activation V) : Saving V → Activation V
  | .appending _ => if o.appends && s.stored.isSome then a else { a with owed := false }
  | _ => { a with owed := false }

/-- A caller has the status of the job. -/
def observe (status : JobStatus) : Job V :=
  if status.terminal && s.observed.isNone then { s with observed := some status } else s

/-- The turn that has settled the job ends. -/
def conclude (a : Activation V) : Finisher → Job V
  | .cancel => (s.setLive (a.finished .cancel)).observe a.state.status
  | f => s.setLive (a.finished f)

/-- The hook is called, if there is one. -/
def settled (f : Finisher) : Job V :=
  if o.settles then { s with hooked := s.hooked + 1, live := some (a.await (.hook f)) }
  else s.conclude a f

/-- A save is done, and the turn goes on. -/
def written : Saving V → Job V
  | .launching prior origin => s.setLive (a.startTask prior origin)
  | .finishing f => if o.retains then s.setLive (a.await (.retaining f)) else s.settled o a f
  | .first r => s.setLive ((a.setPhase r .ready).await .idle)
  | .reverting _ _ _ | .appending _ | .plain => s.setLive (a.await .idle)

/-- A save has failed, and the turn with it. -/
def unwritten (error : String) : Saving V → Job V
  | .reverting prior running _ =>
      s.setLive ({ a with state := prior.restore running a.state }.await .idle)
  | .finishing f => s.setLive (a.unfinished error f)
  | .first r => s.setLive ((a.setPhase r .winding).await .idle)
  | .launching _ _ | .appending _ | .plain => s.setLive (a.await .idle)

/-- The turns that anyone may ask for; those of a handle need its body. -/
def asks : Turn V → Bool
  | .first _ | .settle _ _ => false
  | .progress r _ | .checkpoint r _ _ | .append r _ | .update r _ | .pause r _ =>
      (a.runs[r]?).any (·.entered)
  | _ => true

/-- One step of the activation. -/
def stepLive : Label V → Option (Job V)
  | .submit turn => if asks a turn then some (s.setLive (a.push turn)) else none
  | .begin now =>
      match a.stage, a.queue with
      | .idle, turn :: queue =>
          let next := s.setLive (({ a with queue := queue } : Activation V).begin o now turn)
          some (if turn.reports then next.observe a.state.status else next)
      | _, _ => none
  | .written none =>
      match a.stage with
      | .saving what => some ((s.durable o a what).written o (s.paid o a what) what)
      | _ => none
  | .written (some error) =>
      match a.stage with
      | .saving what => some (s.unwritten a error what)
      | _ => none
  | .tracked ok =>
      match a.stage with
      | .tracking r prior origin =>
          if ok then some (s.setLive ((a.launch r).await .idle))
          else
            some (s.setLive
              (({ a.setPhase r .over with gate := none } : Activation V).takeBack prior origin))
      | _ => none
  | .retained none =>
      match a.stage with
      | .retaining f => some (s.settled o a f)
      | _ => none
  | .retained (some error) =>
      match a.stage with
      | .retaining f => some (s.setLive (a.unfinished error f))
      | _ => none
  | .hooked =>
      match a.stage with
      | .hook f => some (s.conclude a f)
      | _ => none
  | .cleared ok =>
      match a.stage with
      | .clearingRetain => some (s.setLive (a.await (if ok then .clearing else .idle)))
      | .clearing =>
          if ok then
            some { s with
              stored := none
              observed := none
              live := some { a with state := o.fresh, owed := false, stage := .idle } }
          else some (s.setLive (a.await .idle))
      | _ => none
  | .enter r =>
      match a.runs[r]? with
      | some run =>
          if run.phase = .ready then
            some { s with
              entered := if run.resumed then s.entered else s.entered + 1
              live := some (a.modifyRun r fun run => { run with phase := .body, entered := true }) }
          else none
      | none => none
  | .returns r result =>
      match a.runs[r]? with
      | some run =>
          if run.phase = .body then
            match result with
            | .paused => some (s.setLive (a.setPhase r .winding))
            | .value out =>
                if run.aborted then some (s.setLive (a.setPhase r .winding))
                else some (s.setLive ((a.setPhase r .settling).push (.settle r (.ok out))))
            | .thrown message =>
                if run.aborted then some (s.setLive (a.setPhase r .winding))
                else some (s.setLive ((a.setPhase r .settling).push (.settle r (.error message))))
          else none
      | none => none
  | .release r =>
      match a.runs[r]? with
      | some run =>
          if run.phase = .winding then
            some (s.setLive { a.setPhase r .over with
              gate := if a.gate = some r then none else a.gate })
          else none
      | none => none
  | .deactivate => if a.deactivating then none else some (s.setLive a.deactivate)
  | .crash wrote =>
      match a.stage with
      | .saving what =>
          if wrote then some { s.durable o a what with live := none }
          else some { s with live := none }
      | .clearing =>
          if wrote then some { s with stored := none, observed := none, live := none }
          else some { s with live := none }
      | _ => some { s with live := none }
  | .activate => none

/-- The activation is created, and a run that is to be resumed with it. -/
def activate : Job V :=
  let a : Activation V := { state := s.stored.getD o.fresh }
  s.setLive (if a.state.status = .running then a.resumeTask else a)

def step (l : Label V) : Option (Job V) :=
  match s.live with
  | some a => s.stepLive o a l
  | none =>
      match l with
      | .activate => some (s.activate o)
      | _ => none

end Job

/-- The machine of a job that nobody has started. -/
def job {V : Type} (o : JobOptions V) : Machine.System (Job V) (Label V) where
  initial s := s = {}
  step s l := Job.step o s l

end SigxActors.Job
