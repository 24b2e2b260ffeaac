/-
  Workflow/Run.lean --- one workflow run, over every activation it ever has.

  Source: `packages/actors-workflow/src/run.ts`, with the parts of
  `packages/actors/src/host/activation.ts` it stands on: the save gate, the
  timers and the serial lane.

  A `Thread` is a place where the engine awaits.  What a turn or a recovery step
  does between two awaits is one step; a write and what its caller does next are
  one step too, unless the host dies in between.  An activation applies an entry
  when it appends it and writes its entries in that order.  A storage writes
  under the etag the activation holds, so that an activation that has been
  overtaken can write no more; it is never told to stop, and any number of
  activations may be at work.

  A run without a record is written whole, as it stood when the write was asked
  for; so is a run that has ended.

  The labels carry what the environment answers: the clock, the order of the
  steps, the outcome of each write and of each handler call.  Handlers are named
  here and nothing else of them is used, so the templating of their input is left
  out.  What was appended when, which sleep a wake source was armed for and which
  handlers were called is history that no step reads.
-/
import Mathlib.Algebra.Group.Nat.Defs
import SigxActors.Machine.Transition
import SigxActors.Workflow.Log

set_option autoImplicit false

namespace SigxActors.Workflow

open SigxActors.Js

/-! ## The deployment -/

structure WorkflowOptions where
  definitions : List WorkflowDefinition
  /-- The names of the registered handlers. -/
  handlers : List String
  timerThresholdMs : Nat := 30000

/-- The key of a definition. -/
def definitionKey (name : String) (version : Int) : String := name ++ "@" ++ toString version

/-- `byKey`. -/
def WorkflowOptions.byKey (options : WorkflowOptions) : JsMap String WorkflowDefinition :=
  options.definitions.foldl (fun map d => map.set (definitionKey d.name d.version) d) .empty

/-- `latest`. -/
def WorkflowOptions.latest (options : WorkflowOptions) : JsMap String Int :=
  options.definitions.foldl
    (fun map d =>
      match map.get d.name with
      | some seen => if d.version > seen then map.set d.name d.version else map
      | none => map.set d.name d.version)
    .empty

/-- `options.handlers[name]` is truthy. -/
def WorkflowOptions.hasHandler (options : WorkflowOptions) (name : String) : Bool :=
  decide (name ∈ options.handlers) || decide (name ∈ objectPrototype)

/-- `definition()`, `none` where it throws. -/
def WorkflowOptions.definitionOf (options : WorkflowOptions) (state : RunState) :
    Option WorkflowDefinition :=
  options.byKey.get (definitionKey state.definition state.version)

/-- `left === right`, for a variable and a constant of the definition: two objects are never
the same. -/
def strictEquals : Property Json → Option Json → Bool
  | .own .null, some .null => true
  | .own (.bool a), some (.bool b) => a == b
  | .own (.number a), some (.number b) => a == b
  | .own (.string a), some (.string b) => a == b
  | .missing, none => true
  | _, _ => false

/-- An ordered comparison, on numbers only. -/
def compareNumbers (holds : Int → Int → Bool) : Property Json → Option Json → Bool
  | .own (.number a), some (.number b) => holds a b
  | _, _ => false

/-- `compare`. -/
def compareValues (left : Property Json) (op : BranchOp) (right : Option Json) : Bool :=
  match op with
  | .exists_ =>
      match left with
      | .missing | .own .null => false
      | _ => true
  | .eq => strictEquals left right
  | .ne => !strictEquals left right
  | .lt => compareNumbers (fun a b => decide (a < b)) left right
  | .lte => compareNumbers (fun a b => decide (a ≤ b)) left right
  | .gt => compareNumbers (fun a b => decide (a > b)) left right
  | .gte => compareNumbers (fun a b => decide (a ≥ b)) left right

/-- `backoff`, with the draw of the jitter. -/
def backoff (attempt base max jitter : Nat) : Nat :=
  let window := min (base * 2 ^ (attempt - 1)) max
  if window = 0 then 0 else jitter % window

/-! ## One activation -/

/-- An entry with the time it was appended at and, for a wake, the sleep its source was armed
for. -/
structure Stamp where
  entry : RunEntry
  time : Nat
  source : Option Nat := none

/-- The `try` block of a task. -/
structure Retrying where
  n : Nat
  attempts : Nat
  backoffMs : Nat
  maxBackoffMs : Nat
  deriving DecidableEq, Repr

/-- Where a thread awaits a write. -/
inductive Point where
  /-- In `start`, the entry. -/
  | started (to_ : String)
  /-- In `moveTo` or `start`, the move. -/
  | moved
  | slept (ms seq : Nat) (durable : Bool)
  | woken (seq : Nat) (after : Option String)
  /-- In `finish`, the entry. -/
  | ended
  /-- In `finish`, the save. -/
  | saved
  | attempted (id : String) (node : TaskNode) (n : Nat)
  /-- The variables a task assigns. -/
  | assigned (node : TaskNode)
  deriving DecidableEq, Repr

structure Thread where
  point : Point
  /-- It runs in the `try` block of a task. -/
  retrying : Option Retrying := none
  /-- It holds the lane; a recovery step does not. -/
  turn : Bool
  deriving DecidableEq, Repr

/-- A write at the save gate. -/
structure Write where
  thread : Thread
  /-- None for a save. -/
  stamp : Option Stamp
  /-- What a full save writes. -/
  snapshot : RunState
  entries : List Stamp

/-- A handler call that has not settled. -/
structure Call where
  id : String
  node : TaskNode
  n : Nat
  retrying : Retrying
  deriving DecidableEq, Repr

/-- A durable reminder, with the sleep it was set for. -/
structure Reminder where
  seq : Nat
  due : Nat
  deriving DecidableEq, Repr

/-- A reminder write that has not settled. -/
structure Arming where
  seq : Nat
  /-- From now. -/
  due : Nat
  /-- It is the one of `sleep`. -/
  turn : Bool
  deriving DecidableEq, Repr

/-- A timer tick that waits for the lane. -/
inductive Tick where
  | advance
  | wake (seq : Nat)
  deriving DecidableEq, Repr

structure Activation where
  state : RunState := {}
  /-- What it has applied. -/
  entries : List Stamp := []
  etag : Option Nat := none
  /-- It has lost a conflict. -/
  faulted : Bool := false
  /-- The save gate; the first write is in flight. -/
  writes : List Write := []
  call : Option Call := none
  armings : List Arming := []
  /-- A turn holds the lane. -/
  busy : Bool := false
  armedSeq : Option Nat := none
  /-- The volatile wake: its sleep and when it is due. -/
  wakeTimer : Option Reminder := none
  /-- The zero-delay hop. -/
  advanceTimer : Bool := false
  ticks : List Tick := []
  deactivateRequested : Bool := false
  /-- Turns and timers are over for it. -/
  closed : Bool := false

namespace Activation

variable (options : WorkflowOptions) (now : Nat)

/-- `clearWake`. -/
def clearWake (a : Activation) : Activation := { a with wakeTimer := none }

/-- `armAdvance`. -/
def armAdvance (a : Activation) : Activation := { a with advanceTimer := true }

/-- A thread returns, or throws to a caller that ends with it. -/
def done (a : Activation) (thread : Thread) : Activation :=
  if thread.turn then { a with busy := false } else a

/-- `append`: the entry is applied before it is written. -/
def append (a : Activation) (entry : RunEntry) (source : Option Nat) (thread : Thread) :
    Activation :=
  let stamp : Stamp := ⟨entry, now, source⟩
  let state := applyRunEntry a.state entry
  let entries := a.entries ++ [stamp]
  { a with
    state := state
    entries := entries
    writes := a.writes ++ [⟨thread, some stamp, state, entries⟩] }

/-- `finish`. -/
def finish (a : Activation) (status : EndStatus) (error : Option String) (thread : Thread) :
    Activation :=
  a.clearWake.append now (.end_ status now error) none { thread with point := .ended }

/-- `moveTo`. -/
def moveTo (a : Activation) (next : Option String) (thread : Thread) : Activation :=
  match next with
  | none => a.finish now .completed none thread
  | some to_ =>
      if to_ = "" then a.finish now .completed none thread
      else a.clearWake.append now (.move to_ a.state.seq) none { thread with point := .moved }

/-- `sleep`. -/
def sleep (a : Activation) (ms : Nat) (after : Option String) (thread : Thread) : Activation :=
  let seq := a.state.seq + 1
  let durable := decide (options.timerThresholdMs ≤ ms)
  a.append now (.sleep (now + ms) seq durable after) none
    { thread with point := .slept ms seq durable }

/-- `wake(seq)`. -/
def wake (a : Activation) (seq : Nat) (source : Nat) (turn : Bool) : Activation :=
  match a.state.wake with
  | some wake =>
      if wake.seq = seq then
        a.clearWake.append now (.wake seq) (some source)
          { point := .woken seq wake.after, turn := turn }
      else if turn then { a with busy := false } else a
  | none => if turn then { a with busy := false } else a

/-- `nudge`. -/
def nudge (a : Activation) : Activation :=
  if a.state.status.terminal then a
  else
    match a.state.wake with
    | some wake =>
        if wake.until_ ≤ now then a.wake now wake.seq wake.seq false
        else if a.armedSeq = some wake.seq then a
        else
          let a := { a with armedSeq := some wake.seq }
          let left := wake.until_ - now
          if wake.durable then
            { a with
              armings := a.armings ++ [⟨wake.seq, left, false⟩]
              deactivateRequested := true }
          else { a.clearWake with wakeTimer := some ⟨wake.seq, now + left⟩ }
    | none => a.armAdvance

/-- `runTask`, up to its attempt. -/
def runTask (a : Activation) (id : String) (node : TaskNode) (thread : Thread) : Activation :=
  if options.hasHandler node.handler then
    let n := a.state.attempt + 1
    a.append now (.attempt id n) none { thread with point := .attempted id node n }
  else
    a.finish now .failed (some s!"no handler registered for '{node.handler}'") thread

/-- `advance`. -/
def advance (a : Activation) : Activation :=
  let thread : Thread := { point := .ended, turn := true }
  let idle := { a with busy := false }
  if a.state.status = .running then
    match options.definitionOf a.state with
    | none => idle
    | some definition =>
        match property definition.nodes a.state.cursor with
        | .missing =>
            a.finish now .failed
              (some s!"no node '{a.state.cursor}' in {definition.name}@{definition.version}")
              thread
        | .inherited => idle
        | .own (.task node) => a.runTask options now a.state.cursor node thread
        | .own (.delay ms next) => a.sleep options now ms (some (next.getD "")) thread
        | .own (.branch var op value then_ else_) =>
            if compareValues (property a.state.vars var) op value then
              a.moveTo now (some then_) thread
            else a.moveTo now else_ thread
        | .own (.end_ status reason) =>
            a.finish now (status.getD .completed) reason thread
  else idle

/-- `start`. -/
def start (a : Activation) (name : String) (vars : JsMap String Json) (version : Option Int) :
    Activation :=
  let idle := { a with busy := false }
  if a.state.status ≠ .running ∨ a.state.cursor ≠ "" then idle
  else
    match version.or (options.latest.get name) with
    | none => idle
    | some v =>
        match options.byKey.get (definitionKey name v) with
        | none => idle
        | some definition =>
            a.append now (.start name v now vars) none
              { point := .started definition.start, turn := true }

/-- `onReminder`, of a wake set for `source`. -/
def onReminder (a : Activation) (source : Nat) : Activation :=
  match a.state.wake with
  | none => { a.nudge now with busy := false }
  | some wake => a.wake now wake.seq source true

/-- A thread's write has landed. -/
def resume (a : Activation) (thread : Thread) : Activation :=
  match thread.point with
  | .started to_ => a.append now (.move to_ a.state.seq) none { thread with point := .moved }
  | .moved => a.armAdvance.done thread
  | .slept ms seq durable =>
      let a := { a with armedSeq := some seq }
      if durable then { a.clearWake with armings := a.armings ++ [⟨seq, ms, true⟩] }
      else { a with wakeTimer := some ⟨seq, now + ms⟩ }.done thread
  | .woken _ after =>
      match after with
      | some to_ => a.moveTo now (some to_) thread
      | none => a.armAdvance.done thread
  | .ended =>
      { a with
        writes := a.writes ++ [⟨{ thread with point := .saved }, none, a.state, a.entries⟩] }
  | .saved => a.done thread
  | .attempted id node n =>
      let retrying : Retrying :=
        match node.retry with
        | some retry => ⟨n, retry.maxAttempts, retry.backoffMs, retry.maxBackoffMs.getD 30000⟩
        | none => ⟨n, 1, 0, 30000⟩
      { a with call := some ⟨id, node, n, retrying⟩ }
  | .assigned node => a.moveTo now node.next thread

/-- The `catch` block of a task. -/
def caught (a : Activation) (retrying : Retrying) (message : String) (jitter : Nat)
    (thread : Thread) : Activation :=
  let thread := { thread with retrying := none }
  if retrying.attempts ≤ retrying.n then a.finish now .failed (some message) thread
  else
    let ms := backoff retrying.n retrying.backoffMs retrying.maxBackoffMs jitter
    a.sleep options now ms none thread

/-- A thread's write has failed. -/
def reject (a : Activation) (thread : Thread) (message : String) (jitter : Nat) : Activation :=
  match thread.retrying with
  | some retrying => a.caught options now retrying message jitter thread
  | none => a.done thread

/-- A handler has returned. -/
def returned (a : Activation) (call : Call) (out : Json) : Activation :=
  let a := { a with call := none }
  let thread : Thread := { point := .ended, retrying := some call.retrying, turn := true }
  match call.node.assignTo with
  | some name =>
      if name = "" then a.moveTo now call.node.next thread
      else
        a.append now (.vars (JsMap.empty.assign name out)) none
          { thread with point := .assigned call.node }
  | none => a.moveTo now call.node.next thread

/-- A handler has thrown. -/
def threw (a : Activation) (call : Call) (message : String) (jitter : Nat) : Activation :=
  { a with call := none }.caught options now call.retrying message jitter
    { point := .ended, turn := true }

/-- A reminder write has settled. -/
def armed (a : Activation) (arming : Arming) (ok : Bool) : Activation :=
  if arming.turn then
    { a with busy := false, deactivateRequested := a.deactivateRequested || ok }
  else a

/-- What a dead host leaves of it. -/
def dead : Activation := { closed := true }

/-- A turn can begin. -/
def free (a : Activation) : Bool := !a.busy && !a.closed && !a.faulted

end Activation

/-! ## The run -/

/-- The stored record: a snapshot and the log appended since. -/
structure Record where
  snapshot : RunState
  log : List RunEntry
  etag : Nat

/-- What an activation loads. -/
def Record.load (record : Record) : RunState := record.log.foldl applyRunEntry record.snapshot

structure Run where
  now : Nat := 0
  record : Option Record := none
  /-- What is recorded. -/
  history : List Stamp := []
  reminder : Option Reminder := none
  /-- Reminders that fired and are being delivered. -/
  deliveries : List Reminder := []
  activations : List Activation := []
  /-- The sleeps whose wake has gone on, each time it did. -/
  continued : List Nat := []
  /-- The activation and the node of each handler call. -/
  calls : List (Nat × String) := []

namespace Run

variable (options : WorkflowOptions)

/-- Activation `i` becomes `a`. -/
def put (s : Run) (i : Nat) (a : Activation) : Run :=
  { s with activations := s.activations.set i a }

/-- The etag of the record. -/
def etag (s : Run) : Option Nat := s.record.map (·.etag)

/-- A write lands: an entry on the log of a record, all else as a full save. -/
def land (s : Run) (etag : Option Nat) (write : Write) : Run :=
  match write.stamp, s.record, etag with
  | some stamp, some record, some tag =>
      { s with
        record := some { record with log := record.log ++ [stamp.entry], etag := tag + 1 }
        history := s.history ++ [stamp] }
  | _, _, _ =>
      { s with
        record := some ⟨write.snapshot, [], etag.elim 0 (· + 1)⟩
        history := write.entries }

/-- What a resumed thread leaves in the history. -/
def note (s : Run) (i : Nat) : Point → Run
  | .woken seq _ => { s with continued := s.continued ++ [seq] }
  | .attempted id _ _ => { s with calls := s.calls ++ [(i, id)] }
  | _ => s

/-- The first write at the gate of `a` settles. -/
def settle (s : Run) (i : Nat) (a : Activation) (write : Write) (rest : List Write)
    (ok : Bool) (message : String) (jitter : Nat) : Run :=
  let a := { a with writes := rest }
  if a.faulted ∨ ok = false then
    s.put i (a.reject options s.now write.thread message jitter)
  else if a.etag = s.etag then
    let t := (s.land a.etag write).note i write.thread.point
    t.put i ({ a with etag := t.etag }.resume s.now write.thread)
  else s.put i ({ a with faulted := true }.reject options s.now write.thread message jitter)

/-- What an activation loads. -/
def loaded (s : Run) : Activation :=
  { state := (s.record.map Record.load).getD emptyRun, entries := s.history, etag := s.etag }

end Run

inductive Label where
  /-- Time passes. -/
  | elapse (ms : Nat)
  | activate
  | start (i : Nat) (name : String) (vars : JsMap String Json) (version : Option Int)
  | status (i : Nat)
  /-- A timer is due, and its tick waits for the lane. -/
  | fireAdvance (i : Nat)
  | fireWake (i : Nat)
  /-- The `k`-th waiting tick has the lane. -/
  | tick (i k : Nat)
  /-- The durable reminder is due. -/
  | remind
  /-- The `k`-th delivery reaches the activation; it may be delivered again. -/
  | deliver (k i : Nat) (again : Bool)
  /-- The `k`-th delivery is lost, or is put back to fire at `due`. -/
  | undelivered (k : Nat) (due : Option Nat)
  | settle (i : Nat) (ok : Bool) (message : String) (jitter : Nat)
  | return_ (i : Nat) (out : Json)
  | throw_ (i : Nat) (message : String) (jitter : Nat)
  /-- The `k`-th reminder write settles. -/
  | arm (i k : Nat) (ok : Bool)
  /-- The host dies, with the write in flight landed or not. -/
  | crash (i : Nat) (landed : Bool)
  | deactivate (i : Nat)

namespace Run

variable (options : WorkflowOptions)

/-- A turn begins on activation `i`. -/
def turn (s : Run) (i : Nat) (body : Activation → Activation) : Option Run :=
  match s.activations[i]? with
  | some a => if a.free then some (s.put i (body { a with busy := true })) else none
  | none => none

/-- One step. -/
def step (s : Run) : Label → Option Run
  | .elapse ms => some { s with now := s.now + ms }
  | .activate => some { s with activations := s.activations ++ [s.loaded.nudge s.now] }
  | .start i name vars version => s.turn i fun a => a.start options s.now name vars version
  | .status i => s.turn i fun a => { a.nudge s.now with busy := false }
  | .fireAdvance i =>
      match s.activations[i]? with
      | some a =>
          if a.advanceTimer && !a.closed then
            some (s.put i { a with advanceTimer := false, ticks := a.ticks ++ [.advance] })
          else none
      | none => none
  | .fireWake i =>
      match s.activations[i]? with
      | some a =>
          match a.wakeTimer with
          | some timer =>
              if timer.due ≤ s.now ∧ a.closed = false then
                some (s.put i { a with wakeTimer := none, ticks := a.ticks ++ [.wake timer.seq] })
              else none
          | none => none
      | none => none
  | .tick i k =>
      match s.activations[i]? with
      | some a =>
          match a.ticks[k]? with
          | some tick =>
              if a.busy then none
              else
                let a := { a with ticks := a.ticks.eraseIdx k }
                if a.faulted then some (s.put i a)
                else
                  let a := { a with busy := true }
                  match tick with
                  | .advance => some (s.put i (a.advance options s.now))
                  | .wake seq => some (s.put i (a.wake s.now seq seq true))
          | none => none
      | none => none
  | .remind =>
      match s.reminder with
      | some reminder =>
          if reminder.due ≤ s.now then
            some { s with reminder := none, deliveries := s.deliveries ++ [reminder] }
          else none
      | none => none
  | .deliver k i again =>
      match s.deliveries[k]? with
      | some reminder =>
          let t := if again then s else { s with deliveries := s.deliveries.eraseIdx k }
          t.turn i fun a => a.onReminder s.now reminder.seq
      | none => none
  | .undelivered k due =>
      match s.deliveries[k]? with
      | some reminder =>
          let t := { s with deliveries := s.deliveries.eraseIdx k }
          match due with
          | some due =>
              if s.now < due ∧ s.reminder.isNone then
                some { t with reminder := some { reminder with due := due } }
              else none
          | none => some t
      | none => none
  | .settle i ok message jitter =>
      match s.activations[i]? with
      | some a =>
          match a.writes with
          | write :: rest => some (s.settle options i a write rest ok message jitter)
          | [] => none
      | none => none
  | .return_ i out =>
      match s.activations[i]? with
      | some a => a.call.map fun call => s.put i (a.returned s.now call out)
      | none => none
  | .throw_ i message jitter =>
      match s.activations[i]? with
      | some a => a.call.map fun call => s.put i (a.threw options s.now call message jitter)
      | none => none
  | .arm i k ok =>
      match s.activations[i]? with
      | some a =>
          match a.armings[k]? with
          | some arming =>
              let t := s.put i ({ a with armings := a.armings.eraseIdx k }.armed arming ok)
              if ok then some { t with reminder := some ⟨arming.seq, s.now + arming.due⟩ }
              else some t
          | none => none
      | none => none
  | .crash i landed =>
      match s.activations[i]? with
      | some a =>
          match landed, a.writes with
          | true, write :: _ =>
              if a.faulted = false ∧ a.etag = s.etag then
                some ((s.land a.etag write).put i Activation.dead)
              else none
          | true, [] => none
          | false, _ => some (s.put i Activation.dead)
      | none => none
  | .deactivate i =>
      match s.activations[i]? with
      | some a =>
          if a.busy = false ∧ a.ticks = [] then
            some (s.put i { a with wakeTimer := none, advanceTimer := false, closed := true })
          else none
      | none => none

/-- A run that was never touched. -/
def initial (s : Run) : Prop := s = {}

end Run

/-- The machine of one run. -/
def workflow (options : WorkflowOptions) : Machine.System Run Label where
  initial := Run.initial
  step := Run.step options

end SigxActors.Workflow
