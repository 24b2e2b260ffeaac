/-
  Workflow/Log.lean --- the event log of a workflow run, and the reducer that
  folds it.

  Source: `packages/actors-workflow/src/types.ts`, `log.ts`.

  Numbers are integers and times are whole milliseconds.  An entry of a shape
  that no engine writes is not modelled: the reducer ignores it.
-/
import SigxActors.Js.Object

set_option autoImplicit false

namespace SigxActors.Workflow

open SigxActors.Js

/-! ## The vocabulary -/

/-- A JSON value. -/
inductive Json where
  | null
  | bool (value : Bool)
  | number (value : Int)
  | string (value : String)
  | array (items : List Json)
  | object (fields : List (String × Json))

inductive RunStatus where
  | running
  | sleeping
  | completed
  | failed
  deriving DecidableEq, Repr

/-- Only `completed` and `failed` are terminal. -/
def RunStatus.terminal : RunStatus → Bool
  | .completed | .failed => true
  | .running | .sleeping => false

/-- The two statuses a run can end with. -/
inductive EndStatus where
  | completed
  | failed
  deriving DecidableEq, Repr

def EndStatus.status : EndStatus → RunStatus
  | .completed => .completed
  | .failed => .failed

structure RetryPolicy where
  maxAttempts : Nat
  backoffMs : Nat
  maxBackoffMs : Option Nat := none
  deriving DecidableEq, Repr

structure TaskNode where
  handler : String
  assignTo : Option String := none
  retry : Option RetryPolicy := none
  next : Option String := none
  deriving DecidableEq, Repr

inductive BranchOp where
  | eq | ne | lt | lte | gt | gte | exists_
  deriving DecidableEq, Repr

inductive WorkflowNode where
  | task (node : TaskNode)
  | delay (ms : Nat) (next : Option String)
  | branch (var : String) (op : BranchOp) (value : Option Json) (then_ : String)
      (else_ : Option String)
  | end_ (status : Option EndStatus) (reason : Option String)

/-- A stored, versioned definition. -/
structure WorkflowDefinition where
  name : String
  version : Int
  start : String
  nodes : JsMap String WorkflowNode

/-- What an object literal has under a name. -/
inductive Property (α : Type) where
  | own (value : α)
  /-- What `Object.prototype` has. -/
  | inherited
  | missing

/-- `object[name]`. -/
def property {α : Type} (own : JsMap String α) (name : String) : Property α :=
  match own.get name with
  | some value => .own value
  | none => if name ∈ objectPrototype then .inherited else .missing

/-! ## Entries -/

inductive RunEntry where
  | start (definition : String) (version : Int) (at_ : Nat) (vars : JsMap String Json)
  | move (to_ : String) (seq : Nat)
  | vars (set : JsMap String Json)
  | attempt (node : String) (n : Nat)
  | sleep (until_ seq : Nat) (durable : Bool) (after : Option String)
  | wake (seq : Nat)
  | end_ (status : EndStatus) (at_ : Nat) (error : Option String)

def RunEntry.isEnd : RunEntry → Bool
  | .end_ .. => true
  | _ => false

/-- The single outstanding wake. -/
structure Wake where
  until_ : Nat
  seq : Nat
  durable : Bool
  after : Option String
  deriving DecidableEq, Repr

/-- The persisted shape. -/
structure RunState where
  definition : String := ""
  version : Int := 0
  status : RunStatus := .running
  cursor : String := ""
  vars : JsMap String Json := .empty
  startedAt : Nat := 0
  endedAt : Option Nat := none
  error : Option String := none
  transitions : Nat := 0
  attempt : Nat := 0
  wake : Option Wake := none
  seq : Nat := 0

/-- `emptyRun`. -/
def emptyRun : RunState := {}

/-- `Object.assign(vars, set)`. -/
def assignVars (vars set : JsMap String Json) : JsMap String Json :=
  set.entries.foldl (fun vars q => vars.assign q.1 q.2) vars

/-- `applyRunEntry`. -/
def applyRunEntry (state : RunState) : RunEntry → RunState
  | .start definition version at_ vars =>
      { state with
        definition := definition
        version := version
        startedAt := at_
        vars := vars
        status := .running }
  | .move to_ seq =>
      { state with
        cursor := to_
        seq := seq
        transitions := state.transitions + 1
        attempt := 0
        wake := none
        status := .running }
  | .vars set => { state with vars := assignVars state.vars set }
  | .attempt _ n => { state with attempt := n }
  | .sleep until_ seq durable after =>
      { state with
        status := .sleeping
        seq := seq
        wake := some ⟨until_, seq, durable, after⟩ }
  | .wake seq =>
      match state.wake with
      | some wake =>
          if wake.seq = seq then { state with wake := none, status := .running } else state
      | none => state
  | .end_ status at_ error =>
      { state with
        status := status.status
        endedAt := some at_
        wake := none
        error := error.or state.error }

/-- What a log folds back to. -/
def foldLog (log : List RunEntry) : RunState := log.foldl applyRunEntry emptyRun

theorem foldLog_append (log : List RunEntry) (entry : RunEntry) :
    foldLog (log ++ [entry]) = applyRunEntry (foldLog log) entry := by
  rw [foldLog, List.foldl_append]
  rfl

/-- A wake is honoured only with the token in state. -/
theorem applyRunEntry_wake {state : RunState} {wake : Wake} (h : state.wake = some wake) :
    applyRunEntry state (.wake wake.seq) = { state with wake := none, status := .running } := by
  simp [applyRunEntry, h]

theorem RunStatus.terminal_endStatus (status : EndStatus) : status.status.terminal = true := by
  cases status with
  | completed | failed => rfl

end SigxActors.Workflow
