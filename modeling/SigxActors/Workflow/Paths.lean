/-
  Workflow/Paths.lean --- what a run without a crash would have recorded.

  `Journey` is a run as its log tells it: the state the log folds to, and the move
  that is owed to it.  A move is owed from the start of a run to its first move,
  and from a wake to the move out of the delay.  `Permits` says what a run may
  record next: the cursor goes from node to node along the definition, nothing but
  an owed move is recorded while one is owed, and a run fails for a reason.

  Recovery does not know of what is owed.  It reads a run that owes a move as one
  that stands at its cursor: a crash between a start and the first move ends the
  run, which has no node yet, and a crash between a wake and its move lets the
  delay be slept again.  So does another turn that comes in between.
-/
import SigxActors.Workflow.Drivers

set_option autoImplicit false

namespace SigxActors.Workflow

open SigxActors.Js

/-! ## The definition -/

/-- Where a run goes from a node, `none` at an end node; it goes to no node where it completes. -/
def WorkflowNode.next? (vars : JsMap String Json) : WorkflowNode → Option (Option String)
  | .task node => some node.next
  | .delay _ next => some (some (next.getD ""))
  | .branch var op value then_ else_ =>
      some (if compareValues (property vars var) op value then some then_ else else_)
  | .end_ _ _ => none

def WorkflowNode.isDelay : WorkflowNode → Bool
  | .delay _ _ => true
  | _ => false

/-- The attempts a task has. -/
def TaskNode.attempts (node : TaskNode) : Nat := (node.retry.map (·.maxAttempts)).getD 1

namespace WorkflowOptions

variable (options : WorkflowOptions)

/-- The node at the cursor. -/
def At (state : RunState) (node : WorkflowNode) : Prop :=
  ∃ definition, options.definitionOf state = some definition ∧
    property definition.nodes state.cursor = .own node

/-- A run that goes to `next` stays on a path of its definition. -/
def OnPath (state : RunState) (next : String) : Prop :=
  ∃ definition, options.definitionOf state = some definition ∧
    (state.transitions = 0 ∧ next = definition.start ∨
      ∃ node, property definition.nodes state.cursor = .own node ∧
        node.next? state.vars = some (some next))

/-- Why a run may fail where it stands. -/
def MayFail (state : RunState) : Prop :=
  (∃ reason, options.At state (.end_ (some .failed) reason)) ∨
    (∃ definition, options.definitionOf state = some definition ∧
      property definition.nodes state.cursor = .missing) ∨
    ∃ node, options.At state (.task node) ∧
      (options.hasHandler node.handler = false ∨ node.attempts ≤ state.attempt)

end WorkflowOptions

/-! ## A run as its log tells it -/

structure Journey where
  state : RunState := emptyRun
  /-- The move that is owed. -/
  owed : Option String := none

namespace Journey

variable (options : WorkflowOptions)

/-- An entry is recorded. -/
def record (j : Journey) (entry : RunEntry) : Journey where
  state := applyRunEntry j.state entry
  owed :=
    match entry with
    | .start .. => (options.definitionOf (applyRunEntry j.state entry)).map (·.start)
    | .move .. | .end_ .. => none
    | .wake seq =>
        match j.state.wake with
        | some wake => if wake.seq = seq then wake.after else j.owed
        | none => j.owed
    | _ => j.owed

/-- It stands at a node, and owes no move. -/
def Stands (j : Journey) : Prop := j.owed = none ∧ j.state.transitions ≠ 0

/-- It stands at a node that may take it to `next`, as a delay alone may not. -/
def Goes (j : Journey) (next : Option String) : Prop :=
  j.Stands ∧ ∃ node, options.At j.state node ∧ node.isDelay = false ∧
    node.next? j.state.vars = some next

/-- It stands at a task that has a handler. -/
def Serves (j : Journey) (node : TaskNode) : Prop :=
  j.Stands ∧ options.At j.state (.task node) ∧ options.hasHandler node.handler = true

/-- What a run without a crash may record next. -/
def Permits (j : Journey) : RunEntry → Prop
  | .start name version _ _ =>
      j.state.transitions = 0 ∧ (options.byKey.get (definitionKey name version)).isSome = true
  | .move next _ => j.owed = some next ∨ j.Goes options (some next)
  | .vars _ => ∃ node, j.Serves options node
  | .attempt id n =>
      id = j.state.cursor ∧ n = j.state.attempt + 1 ∧ ∃ node, j.Serves options node
  | .sleep _ _ _ after =>
      j.Stands ∧
        ((∃ ms next, options.At j.state (.delay ms next) ∧ after = some (next.getD "")) ∨
          after = none ∧ ∃ node, j.Serves options node ∧ j.state.attempt < node.attempts)
  | .wake seq => ∃ wake, j.state.wake = some wake ∧ wake.seq = seq
  | .end_ .completed _ _ =>
      j.owed = some "" ∨ j.Goes options none ∨ j.Goes options (some "") ∨
        j.Stands ∧ ∃ status reason, options.At j.state (.end_ status reason) ∧
          status.getD .completed = .completed
  | .end_ .failed _ _ => j.Stands ∧ options.MayFail j.state

end Journey

section

variable (options : WorkflowOptions)

/-- The journey that entries tell of. -/
def journey (entries : List Stamp) : Journey :=
  entries.foldl (fun j stamp => j.record options stamp.entry) {}

/-- Every entry is one that the run before it may record. -/
def Permitted (entries : List Stamp) : Prop :=
  ∀ before stamp after, entries = before ++ stamp :: after →
    (journey options before).Permits options stamp.entry

variable {options} {entries : List Stamp} {stamp : Stamp}

theorem journey_snoc : journey options (entries ++ [stamp]) =
    (journey options entries).record options stamp.entry := by
  rw [journey, List.foldl_append]
  rfl

theorem journey_state (entries : List Stamp) :
    (journey options entries).state = Stamp.fold entries := by
  have hfold : ∀ (entries : List Stamp) (j : Journey),
      (entries.foldl (fun j stamp => j.record options stamp.entry) j).state =
        (entries.map (·.entry)).foldl applyRunEntry j.state := by
    intro entries
    induction entries with
    | nil => exact fun _ => rfl
    | cons stamp entries ih => exact fun j => ih (j.record options stamp.entry)
  exact hfold entries {}

theorem permitted_nil : Permitted options [] := by
  intro before stamp after heq
  exact absurd heq.symm (by simp)

theorem Permitted.snoc (h : Permitted options entries)
    (hstamp : (journey options entries).Permits options stamp.entry) :
    Permitted options (entries ++ [stamp]) := by
  intro before last after heq
  rcases List.eq_nil_or_concat after with rfl | ⟨rest, last', rfl⟩
  · obtain ⟨rfl, hlast⟩ := List.append_inj' heq rfl
    rw [← List.singleton_inj.1 hlast]
    exact hstamp
  · rw [List.concat_eq_append, ← List.cons_append, ← List.append_assoc] at heq
    exact h before last rest (List.append_inj' heq rfl).1

theorem Permitted.prefix_ {entries' : List Stamp} (h : Permitted options entries')
    (hinit : entries <+: entries') : Permitted options entries := by
  obtain ⟨rest, rfl⟩ := hinit
  intro before stamp after heq
  exact h before stamp (after ++ rest) (by rw [heq]; simp)

end

/-! ## What is owed -/

namespace Journey

variable {options : WorkflowOptions} {j : Journey} {entry : RunEntry}

/-- A task goes to its next node. -/
theorem Serves.goes {node : TaskNode} (h : j.Serves options node) : j.Goes options node.next :=
  ⟨h.1, .task node, h.2.1, rfl, rfl⟩

/-- A delay takes the run to `next`. -/
def Delays (options : WorkflowOptions) (j : Journey) (next : String) : Prop :=
  ∃ ms node, options.At j.state (.delay ms node) ∧ next = node.getD ""

/-- A sleeping run stands at its node, and what is owed is the first move or the one out of a
delay. -/
structure Sound (options : WorkflowOptions) (j : Journey) : Prop where
  wake : ∀ wake, j.state.wake = some wake →
    j.Stands ∧ ∀ next, wake.after = some next → j.Delays options next
  owed : ∀ next, j.owed = some next →
    (∃ definition, options.definitionOf j.state = some definition ∧ j.state.transitions = 0 ∧
      next = definition.start) ∨ j.state.transitions ≠ 0 ∧ j.Delays options next

theorem sound_empty : Sound options {} :=
  ⟨fun _ hnone => (by cases hnone), fun _ hnone => (by cases hnone)⟩

/-- The step lemma. -/
theorem Sound.record (h : j.Sound options) (hpermits : j.Permits options entry) :
    (j.record options entry).Sound options := by
  cases entry with
  | start name version at_ vars =>
    refine ⟨fun wake hwake => ?_, fun next howed => ?_⟩
    · exact absurd hpermits.1 (h.wake wake hwake).1.2
    · obtain ⟨definition, hdefinition, rfl⟩ := Option.map_eq_some_iff.1 howed
      exact .inl ⟨definition, hdefinition, hpermits.1, rfl⟩
  | move to_ seq => exact ⟨fun _ hnone => (by cases hnone), fun _ hnone => (by cases hnone)⟩
  | vars | attempt => exact ⟨h.wake, h.owed⟩
  | sleep until_ seq durable after =>
    obtain ⟨hstands, hcause⟩ := hpermits
    refine ⟨fun wake hwake => ⟨hstands, fun next hafter => ?_⟩, h.owed⟩
    cases hwake
    rcases hcause with ⟨ms, node, hat, hnext⟩ | ⟨hnone, -⟩
    · exact ⟨ms, node, hat, Option.some.inj (hafter.symm.trans hnext)⟩
    · cases hafter.symm.trans hnone
  | wake seq =>
    obtain ⟨wake, hwake, rfl⟩ := hpermits
    have hstate : (j.record options (.wake wake.seq)).state =
        { j.state with wake := none, status := .running } := applyRunEntry_wake hwake
    have howed : (j.record options (.wake wake.seq)).owed = wake.after := by
      dsimp only [Journey.record]
      rw [hwake]
      exact if_pos rfl
    obtain ⟨hstands, hafter⟩ := h.wake wake hwake
    refine ⟨fun wake' hwake' => ?_, fun next hnext => .inr ?_⟩
    · rw [hstate] at hwake'
      cases hwake'
    · rw [howed] at hnext
      obtain ⟨ms, node, hat, hnode⟩ := hafter next hnext
      rw [Delays, hstate]
      exact ⟨hstands.2, ms, node, hat, hnode⟩
  | end_ status at_ error =>
    exact ⟨fun _ hnone => (by cases hnone), fun _ hnone => (by cases hnone)⟩

/-- A move keeps the run on its path. -/
theorem Sound.onPath (h : j.Sound options) {next : String} {seq : Nat}
    (hpermits : j.Permits options (.move next seq)) : options.OnPath j.state next := by
  rcases hpermits with howed | ⟨-, node, ⟨definition, hdefinition, hat⟩, -, hnext⟩
  · rcases h.owed next howed with ⟨definition, hdefinition, hnone, rfl⟩ |
      ⟨-, ms, node, ⟨definition, hdefinition, hat⟩, rfl⟩
    · exact ⟨definition, hdefinition, .inl ⟨hnone, rfl⟩⟩
    · exact ⟨definition, hdefinition, .inr ⟨_, hat, rfl⟩⟩
  · exact ⟨definition, hdefinition, .inr ⟨node, hat, hnext⟩⟩

end Journey

theorem Permitted.sound {options : WorkflowOptions} : ∀ {n : Nat} {entries : List Stamp},
    entries.length = n → Permitted options entries → (journey options entries).Sound options := by
  intro n
  induction n with
  | zero =>
    intro entries hlength _
    obtain rfl := List.length_eq_zero_iff.1 hlength
    exact Journey.sound_empty
  | succ n ih =>
    intro entries hlength h
    rcases List.eq_nil_or_concat entries with rfl | ⟨before, stamp, rfl⟩
    · cases hlength
    rw [List.concat_eq_append] at h hlength ⊢
    rw [List.length_append, List.length_singleton] at hlength
    rw [journey_snoc]
    exact (ih (by omega) (h.prefix_ (List.prefix_append _ _))).record (h before stamp [] rfl)

end SigxActors.Workflow
