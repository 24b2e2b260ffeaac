/-
  Host/DetachedTasks.lean --- detached tasks over the task ledger.

  Source: `packages/actors/src/host/activation.ts` (`#startTask`, `#resumeTask`,
  `#taskBody` and what they call), `packages/actors/src/host/tasks.ts`.

  One activation, for a definition whose ledger is stored.  Its edits of the ledger
  run one after the other, each a load and a save under the etag that was loaded;
  what waits for an edit goes on in the step that settles it.  Another activation
  may write the record too, under names that no run here has had: the record has
  one writer at a time, and only what outlasts its claim gets in between.

  Task liveness takes its calls in the order they are made.  A call that fails may
  have been carried out.

  A task is its name and how its run goes; its input is kept encoded, and what its
  body does is left open.  The run that wrote an entry, whether an entry was there
  when a body was launched, how often a run was settled and how the starts have
  gone are history that no step reads.
-/
import SigxActors.Machine.Transition
import SigxActors.Js.Object
import SigxActors.Storage.CasStore

set_option autoImplicit false

namespace SigxActors.Host

open SigxActors.Js SigxActors.Storage

/-! ## The ledger -/

structure TaskLedgerEntry where
  input : Option String
  startedAt : Nat
  restarts : Nat
  /-- The run whose start wrote it. -/
  run : Option Nat := none
  deriving DecidableEq, Repr

abbrev TaskLedger := JsMap String TaskLedgerEntry

/-- What is stored of a ledger. -/
def ledgerText (ledger : TaskLedger) : List (String × Option String × Nat × Nat) :=
  ledger.entries.map fun q => (q.1, q.2.input, q.2.startedAt, q.2.restarts)

/-- `MUTATE_ATTEMPTS`. -/
def ledgerAttempts : Nat := 3

/-- The edits of `mutate`. -/
inductive LedgerEdit where
  /-- In `#startTask`. -/
  | enter (name : String) (entry : TaskLedgerEntry)
  /-- In `#resumeTask`. -/
  | restart (name : String) (restarts : Nat)
  /-- In `#startTask`, after a failure. -/
  | takeBack (name : String) (startedAt : Nat)
  /-- In `#forgetTask`. -/
  | forget (name : String)
  deriving DecidableEq, Repr

namespace LedgerEdit

/-- The entry it edits. -/
def name : LedgerEdit → String
  | .enter name _ | .restart name _ | .takeBack name _ | .forget name => name

/-- `edit(ledger)`. -/
def apply (ledger : TaskLedger) : LedgerEdit → TaskLedger
  | .enter name entry => ledger.assign name entry
  | .restart name restarts =>
      match ledger.get name with
      | some persisted => ledger.set name { persisted with restarts := restarts }
      | none => ledger
  | .takeBack name startedAt =>
      match ledger.get name with
      | some entry =>
          if entry.startedAt = startedAt ∧ entry.restarts = 0 then ledger.erase name else ledger
      | none => ledger
  | .forget name => ledger.erase name

end LedgerEdit

/-- Where `mutateNow` is. -/
inductive LedgerPhase where
  | loading (attempt : Nat)
  /-- The edited ledger is being saved, or cleared. -/
  | saving (ledger : TaskLedger) (etag : Option Nat) (attempt : Nat)

/-- An edit on the chain; the first one is under way. -/
structure Mutation where
  edit : LedgerEdit
  /-- The run that waits for it. -/
  run : Option Nat
  phase : LedgerPhase := .loading 1

structure StoredLedger where
  ledger : TaskLedger
  etag : Nat

/-! ## Runs -/

/-- Why the signal of a run is aborted. -/
inductive AbortReason where
  | cancelled
  /-- A reason of `deactivate`. -/
  | deactivated
  deriving DecidableEq, Repr

inductive RunEnd where
  /-- Its start was rejected, and the write that takes its entry back succeeded or not. -/
  | rejected (takenBack : Bool)
  | notResumed
  /-- Its body has settled, and was not interrupted. -/
  | finished
  | interrupted
  deriving DecidableEq, Repr

/-- Where a run is. -/
inductive TaskPhase where
  /-- Its ledger entry is being written. -/
  | starting
  | tracking
  /-- Its restart is being counted. -/
  | resuming
  | running
  /-- Its entry is being taken back. -/
  | rollingBack
  /-- Its entry is being dropped. -/
  | forgetting
  | untracking
  | over_ (how : RunEnd)
  deriving DecidableEq, Repr

/-- It is in `#tasks`. -/
def TaskPhase.reserved : TaskPhase → Bool
  | .starting | .tracking | .resuming | .running => true
  | _ => false

def TaskPhase.isOver : TaskPhase → Bool
  | .over_ _ => true
  | _ => false

structure TaskRun where
  name : String
  startedAt : Nat
  restarts : Nat
  phase : TaskPhase
  aborted : Option AbortReason := none
  /-- Its entry was in the ledger when its body was launched. -/
  entered : Bool := false
  /-- How often it was settled. -/
  settles : Nat := 0
  deriving DecidableEq, Repr

/-- Its body was aborted, but not cancelled. -/
def TaskRun.interrupted (run : TaskRun) : Bool := decide (run.aborted = some .deactivated)

/-- A call of task liveness. -/
structure LivenessCall where
  tracks : Bool
  run : Option Nat
  deriving DecidableEq, Repr

/-- A start that got past its checks, with the run it stands for. -/
structure StartCall where
  run : Nat
  /-- Whether it resolved. -/
  outcome : Option Bool := none
  deriving DecidableEq, Repr

structure Tasks where
  runs : List TaskRun := []
  /-- `#tasks`. -/
  tasks : JsMap String Nat := .empty
  settling : List Nat := []
  keepAlive : Int := 0
  /-- `#abort`. -/
  aborted : Bool := false
  faulted : Bool := false
  /-- The writer chain of the ledger. -/
  chain : List Mutation := []
  stored : Option StoredLedger := none
  /-- How many etags were minted. -/
  minted : Nat := 0
  /-- Entries that a load has found. -/
  found : List (String × TaskLedgerEntry) := []
  /-- The calls of task liveness that have not settled. -/
  calls : List LivenessCall := []
  /-- The actor is tracked. -/
  tracked : Bool := false
  starts : List StartCall := []

namespace Tasks

/-- What a load of the ledger returns. -/
def ledger (s : Tasks) : TaskLedger := (s.stored.map (·.ledger)).getD .empty

def etag (s : Tasks) : Option Nat := s.stored.map (·.etag)

/-- A write of the record. -/
def write (s : Tasks) (ledger : TaskLedger) : Tasks :=
  { s with
    stored := if ledger.entries = [] then none else some ⟨ledger, s.minted + 1⟩
    minted := s.minted + 1 }

def modify (s : Tasks) (i : Nat) (f : TaskRun → TaskRun) : Tasks :=
  { s with runs := s.runs.modify i f }

/-- `mutate`. -/
def mutate (s : Tasks) (edit : LedgerEdit) (run : Option Nat) : Tasks :=
  { s with chain := s.chain ++ [{ edit := edit, run := run }] }

/-- `#reserve`. -/
def reserve (s : Tasks) (run : TaskRun) : Tasks :=
  { s with
    runs := s.runs ++ [run]
    tasks := s.tasks.set run.name s.runs.length
    settling := s.settling ++ [s.runs.length]
    keepAlive := s.keepAlive + 1 }

/-- `#release`. -/
def release (s : Tasks) (i : Nat) (run : TaskRun) : Tasks :=
  { s with
    tasks := if s.tasks.get run.name = some i then s.tasks.erase run.name else s.tasks
    keepAlive := s.keepAlive - 1 }

/-- `#settle`. -/
def settle (s : Tasks) (i : Nat) (how : RunEnd) : Tasks :=
  { s with settling := s.settling.filter (· ≠ i) }.modify i fun run =>
    { run with phase := .over_ how, settles := run.settles + 1 }

/-- The start of run `i` resolves or rejects. -/
def answer (s : Tasks) (i : Nat) (ok : Bool) : Tasks :=
  { s with
    starts := s.starts.map fun call =>
      if call.run = i ∧ call.outcome = none then { call with outcome := some ok } else call }

/-- `#launch`. -/
def launch (s : Tasks) (i : Nat) : Tasks :=
  s.modify i fun run =>
    { run with phase := .running, entered := (s.ledger.get run.name).isSome }

/-- The `catch` block of `#startTask`, up to its write. -/
def rollBack (s : Tasks) (i : Nat) (run : TaskRun) : Tasks :=
  ((s.release i run).modify i fun run => { run with phase := .rollingBack }).mutate
    (.takeBack run.name run.startedAt) (some i)

/-- A call of task liveness, for run `i`. -/
def call (s : Tasks) (tracks : Bool) (run : Option Nat) : Tasks :=
  { s with calls := s.calls ++ [⟨tracks, run⟩] }

/-- What waits for an edit goes on, with the ledger as it was written. -/
def resolved (s : Tasks) (m : Mutation) (ledger : TaskLedger) : Tasks :=
  match m.edit, m.run with
  | .enter .., some i => (s.modify i fun run => { run with phase := .tracking }).call true (some i)
  | .restart .., some i => s.launch i
  | .takeBack .., some i => (s.settle i (.rejected true)).answer i false
  | .forget _, some i =>
      if ledger.entries = [] then
        (s.modify i fun run => { run with phase := .untracking }).call false (some i)
      else s.settle i .finished
  | .forget _, none => if ledger.entries = [] then s.call false none else s
  | _, none => s

/-- The same when it was rejected. -/
def rejected (s : Tasks) (m : Mutation) : Tasks :=
  match m.edit, m.run with
  | .enter .., some i =>
      match s.runs[i]? with
      | some run => s.rollBack i run
      | none => s
  | .restart .., some i =>
      match s.runs[i]? with
      | some run => (s.release i run).settle i .notResumed
      | none => s
  | .takeBack .., some i => (s.settle i (.rejected false)).answer i false
  | .forget _, some i => s.settle i .finished
  | _, none => s

/-- A call of task liveness has settled; where it failed, it was carried out or not. -/
def livenessSettled (s : Tasks) (c : LivenessCall) (ok carriedOut : Bool) : Tasks :=
  let s := if ok || carriedOut then { s with tracked := c.tracks } else s
  match c.tracks, c.run with
  | true, some i =>
      if ok then (s.launch i).answer i true
      else
        match s.runs[i]? with
        | some run => s.rollBack i run
        | none => s
  | false, some i => s.settle i .finished
  | _, none => s

/-- `#startTask`. -/
def startTask (known : String → Bool) (s : Tasks) (name : String) (input : Option String)
    (now : Nat) : Tasks :=
  if s.faulted then s
  else if s.aborted then s
  else
    match s.tasks.get name with
    | some i => { s with starts := s.starts ++ [{ run := i, outcome := some true }] }
    | none =>
        if known name then
          let i := s.runs.length
          let run : TaskRun := { name := name, startedAt := now, restarts := 0, phase := .starting }
          ({ s.reserve run with starts := s.starts ++ [{ run := i }] } : Tasks).mutate
            (.enter name { input := input, startedAt := now, restarts := 0, run := some i }) (some i)
        else s

/-- `#resumeTask`. -/
def resumeTask (known : String → Bool) (s : Tasks) (name : String) (entry : TaskLedgerEntry) :
    Tasks :=
  if s.faulted ∨ s.aborted ∨ s.tasks.has name then s
  else if known name then
    let i := s.runs.length
    let run : TaskRun :=
      { name := name, startedAt := entry.startedAt, restarts := entry.restarts + 1,
        phase := .resuming }
    (s.reserve run).mutate (.restart name run.restarts) (some i)
  else s.mutate (.forget name) none

/-- The body of run `i` has settled. -/
def bodySettled (s : Tasks) (i : Nat) (run : TaskRun) : Tasks :=
  let s := s.release i run
  if run.interrupted then s.settle i .interrupted
  else (s.modify i fun run => { run with phase := .forgetting }).mutate (.forget run.name) (some i)

/-- `controller.abort(reason)`: the first reason stays. -/
def abort (s : Tasks) (i : Nat) (reason : AbortReason) : Tasks :=
  s.modify i fun run => { run with aborted := run.aborted.or (some reason) }

/-- The first edit of the chain has loaded the ledger: one that changes nothing is not a write. -/
def loaded (s : Tasks) (m : Mutation) (rest : List Mutation) (attempt : Nat) : Tasks :=
  let edited := m.edit.apply s.ledger
  if ledgerText edited = ledgerText s.ledger then
    Tasks.resolved
      { s with chain := rest, stored := s.stored.map fun record => { record with ledger := edited } }
      m edited
  else { s with chain := { m with phase := .saving edited s.etag attempt } :: rest }

/-- Its save has settled. -/
def saved (s : Tasks) (m : Mutation) (rest : List Mutation) (ledger : TaskLedger)
    (etag : Option Nat) (attempt : Nat) (fault : Fault) : Tasks :=
  match fault with
  | .failed => { s with chain := rest }.rejected m
  | .lost =>
      if etag = s.etag then ({ s with chain := rest }.write ledger).rejected m
      else { s with chain := rest }.rejected m
  | .none =>
      if etag = s.etag then ({ s with chain := rest }.write ledger).resolved m ledger
      else if ledgerAttempts ≤ attempt then { s with chain := rest }.rejected m
      else { s with chain := { m with phase := .loading (attempt + 1) } :: rest }

end Tasks

inductive TaskLabel where
  | start (name : String) (input : Option String) (now : Nat)
  /-- `#loadLedger`, of an activation or of the liveness reminder. -/
  | scan
  /-- `#resumeTask` of the `k`-th entry found. -/
  | resume (k : Nat)
  | cancel (name : String)
  /-- `deactivate` or `forceStop`. -/
  | deactivate
  /-- The activation has lost a conflict. -/
  | fault
  /-- The body of run `i` settles. -/
  | finish (i : Nat)
  /-- The load of the first edit settles. -/
  | load (ok : Bool)
  /-- Its save does. -/
  | save (fault : Fault)
  /-- Another activation sets or drops an entry. -/
  | foreign (name : String) (entry : Option TaskLedgerEntry)
  /-- The first call of task liveness settles. -/
  | liveness (ok carriedOut : Bool)

namespace Tasks

/-- One step. -/
def step (known : String → Bool) (s : Tasks) : TaskLabel → Option Tasks
  | .start name input now => some (s.startTask known name input now)
  | .scan => some { s with found := s.found ++ s.ledger.entries }
  | .resume k => s.found[k]?.map fun q => s.resumeTask known q.1 q.2
  | .cancel name =>
      match s.tasks.get name with
      | some i => some (s.abort i .cancelled)
      | none => some s
  | .deactivate =>
      some ((s.tasks.entries.map Prod.snd).foldl (fun s i => s.abort i .deactivated)
        { s with aborted := true })
  | .fault => some { s with faulted := true }
  | .finish i =>
      match s.runs[i]? with
      | some run => if run.phase = .running then some (s.bodySettled i run) else none
      | none => none
  | .load ok =>
      match s.chain with
      | m :: rest =>
          match m.phase with
          | .loading attempt =>
              some (if ok then s.loaded m rest attempt else { s with chain := rest }.rejected m)
          | .saving .. => none
      | [] => none
  | .save fault =>
      match s.chain with
      | m :: rest =>
          match m.phase with
          | .saving ledger etag attempt => some (s.saved m rest ledger etag attempt fault)
          | .loading _ => none
      | [] => none
  | .foreign name entry =>
      if ∀ run ∈ s.runs, run.name ≠ name then
        some (s.write (match entry with
          | some entry => s.ledger.assign name { entry with run := none }
          | none => s.ledger.erase name))
      else none
  | .liveness ok carriedOut =>
      match s.calls with
      | c :: rest => some ({ s with calls := rest }.livenessSettled c ok carriedOut)
      | [] => none

/-- An activation whose record may hold the runs of an earlier one. -/
def initial (s : Tasks) : Prop :=
  ∃ stored tracked, s = { stored := stored, minted := (stored.map (·.etag)).getD 0, tracked := tracked } ∧
    ∀ record, stored = some record → ∀ q ∈ record.ledger.entries, q.2.run = none

end Tasks

/-- The machine of the detached tasks of one activation; `known` is the `tasks:` section. -/
def detachedTasks (known : String → Bool) : Machine.System Tasks TaskLabel where
  initial := Tasks.initial
  step := Tasks.step known

end SigxActors.Host
