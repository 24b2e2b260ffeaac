/-
  Job/Gate.lean --- one run at a time, and the turn that it waits for.

  A run that is not over holds the gate.  While it is told of, waits for its first turn, or for
  the turn that settles the job, there is one such turn, queued or executed, and no other.
-/
import SigxActors.Job.Run

set_option autoImplicit false

namespace SigxActors.Job

open SigxActors.Js

/-! ## What a run waits for -/

/-- It waits for a turn. -/
def Phase.waits : Phase → Bool
  | .starting | .launched | .settling => true
  | .ready | .body | .winding | .over => false

variable {V : Type}

/-- The run that a turn is of, where it settles or begins it. -/
def Turn.token : Turn V → Option (Nat × Phase)
  | .first r => some (r, .launched)
  | .settle r _ => some (r, .settling)
  | _ => none

def Finisher.token : Finisher → Option (Nat × Phase)
  | .cancel => none
  | .giveUp r => some (r, .launched)
  | .settle r _ => some (r, .settling)

def Stage.token : Stage V → Option (Nat × Phase)
  | .saving (.first r) => some (r, .launched)
  | .saving (.finishing f) | .retaining f | .hook f => f.token
  | .tracking r _ _ => some (r, .starting)
  | _ => none

namespace Activation

variable {o : JobOptions V} {a b : Activation V} {r : Nat} {run : Run V}

def tokens (a : Activation V) : List (Nat × Phase) :=
  a.stage.token.toList ++ a.queue.filterMap Turn.token

/-- What the run that holds the gate waits for. -/
def due (a : Activation V) : List (Nat × Phase) :=
  match a.gate with
  | none => []
  | some r =>
      match a.runs[r]? with
      | none => []
      | some run => if run.phase.waits then [(r, run.phase)] else []

structure Sound (a : Activation V) : Prop where
  alone : ∀ (r : Nat) run, a.runs[r]? = some run → run.phase ≠ .over → a.gate = some r
  held : ∀ r, a.gate = some r → ∃ run, a.runs[r]? = some run ∧ run.phase ≠ .over
  waits : a.tokens = a.due

theorem due_of_gate (hgate : a.gate = some r) (hget : a.runs[r]? = some run) :
    a.due = if run.phase.waits then [(r, run.phase)] else [] := by
  unfold due
  rw [hgate]
  dsimp only
  rw [hget]

/-- The run that a token is of holds the gate. -/
theorem Sound.of_token (h : a.Sound) {phase : Phase} (hmem : (r, phase) ∈ a.tokens) :
    a.gate = some r ∧ ∃ run, a.runs[r]? = some run ∧ run.phase = phase ∧ a.tokens = [(r, phase)] := by
  rw [h.waits] at hmem ⊢
  cases hgate : a.gate with
  | none =>
    unfold due at hmem
    rw [hgate] at hmem
    cases hmem
  | some r' =>
    obtain ⟨run, hget, -⟩ := h.held r' hgate
    rw [due_of_gate hgate hget] at hmem ⊢
    split at hmem
    · obtain ⟨rfl, rfl⟩ := Prod.mk.inj (List.mem_singleton.1 hmem)
      rename_i hwaits
      exact ⟨rfl, run, hget, rfl, if_pos hwaits⟩
    · cases hmem

/-- Neither the runs nor what they wait for change. -/
theorem Sound.same (h : a.Sound) (hruns : b.runs = a.runs) (hgate : b.gate = a.gate)
    (htokens : b.tokens = a.tokens) : b.Sound where
  alone r run hget := by
    rw [hruns] at hget
    rw [hgate]
    exact h.alone r run hget
  held r hr := by
    rw [hgate] at hr
    rw [hruns]
    exact h.held r hr
  waits := by
    unfold due
    rw [htokens, hruns, hgate]
    exact h.waits

/-- A run that stays where it is changes. -/
theorem Sound.modify (h : a.Sound) {f : Run V → Run V} (hphase : ∀ run, (f run).phase = run.phase)
    (hruns : b.runs = a.runs.modify r f) (hgate : b.gate = a.gate)
    (htokens : b.tokens = a.tokens) : b.Sound where
  alone r' run' hget hover := by
    rw [hruns] at hget
    rw [hgate]
    obtain ⟨run, rfl, hbefore, rfl⟩ | ⟨-, hbefore⟩ := of_modify_get hget
    · rw [hphase] at hover
      exact h.alone r' run hbefore hover
    · exact h.alone r' run' hbefore hover
  held r' hr := by
    rw [hgate] at hr
    rw [hruns]
    obtain ⟨run, hget, hover⟩ := h.held r' hr
    by_cases hr' : r' = r
    · subst hr'
      exact ⟨f run, modify_get_self f hget, hphase run ▸ hover⟩
    · exact ⟨run, (modify_get_other f hr').trans hget, hover⟩
  waits := by
    rw [htokens, h.waits]
    unfold due
    rw [hruns, hgate]
    cases a.gate with
    | none => rfl
    | some r' =>
      dsimp only
      by_cases hr : r' = r
      · subst hr
        cases hget : a.runs[r']? with
        | none =>
          rw [modify_get, if_pos rfl, hget]
          rfl
        | some run =>
          rw [modify_get_self f hget]
          dsimp only
          rw [hphase]
      · rw [modify_get_other f hr]

/-- The run that holds the gate comes to another phase. -/
theorem Sound.phase (h : a.Sound) (hgate : a.gate = some r) (phase : Phase) {f : Run V → Run V}
    (hphase : ∀ run, (f run).phase = phase) (hover : phase ≠ .over)
    (hruns : b.runs = a.runs.modify r f) (hsame : b.gate = a.gate)
    (htokens : b.tokens = if phase.waits then [(r, phase)] else []) : b.Sound where
  alone r' run' hget hover' := by
    rw [hruns] at hget
    rw [hsame]
    obtain ⟨run, rfl, hbefore, rfl⟩ | ⟨-, hbefore⟩ := of_modify_get hget
    · exact hgate
    · exact h.alone r' run' hbefore hover'
  held r' hr := by
    rw [hsame, hgate] at hr
    cases hr
    obtain ⟨run, hget, -⟩ := h.held r hgate
    refine ⟨f run, ?_, hphase run ▸ hover⟩
    rw [hruns]
    exact modify_get_self f hget
  waits := by
    obtain ⟨run, hget, -⟩ := h.held r hgate
    have hafter : b.runs[r]? = some (f run) := by
      rw [hruns]
      exact modify_get_self f hget
    rw [htokens, due_of_gate (hsame.trans hgate) hafter, hphase]

/-- A run is reserved where none was. -/
theorem Sound.reserve (h : a.Sound) (hgate : a.gate = none) (run : Run V) (hover : run.phase ≠ .over)
    (hruns : b.runs = a.runs ++ [run]) (hafter : b.gate = some a.runs.length)
    (htokens : b.tokens = if run.phase.waits then [(a.runs.length, run.phase)] else []) :
    b.Sound := by
  have hlast : b.runs[a.runs.length]? = some run := by
    rw [hruns]
    exact List.getElem?_concat_length
  refine ⟨fun r' run' hget hover' => ?_, fun r' hr => ?_, ?_⟩
  · rw [hruns] at hget
    obtain ⟨rfl, -⟩ | ⟨-, hbefore⟩ := of_append_get hget
    · exact hafter
    · cases hgate.symm.trans (h.alone r' run' hbefore hover')
  · cases hafter.symm.trans hr
    exact ⟨run, hlast, hover⟩
  · rw [htokens, due_of_gate hafter hlast]

/-- The run that holds the gate is over. -/
theorem Sound.release (h : a.Sound) (hgate : a.gate = some r) {f : Run V → Run V}
    (hphase : ∀ run, (f run).phase = .over) (hruns : b.runs = a.runs.modify r f)
    (hafter : b.gate = none) (htokens : b.tokens = []) : b.Sound where
  alone r' run' hget hover := by
    rw [hruns] at hget
    obtain ⟨run, rfl, hbefore, rfl⟩ | ⟨hne, hbefore⟩ := of_modify_get hget
    · exact absurd (hphase run) hover
    · exact absurd (Option.some.inj ((h.alone r' run' hbefore hover).symm.trans hgate)) hne
  held r' hr := by
    rw [hafter] at hr
    cases hr
  waits := by
    rw [htokens]
    unfold due
    rw [hafter]

/-! ## Turns -/

theorem filterMap_token (turn : Turn V) (queue : List (Turn V)) :
    (turn :: queue).filterMap Turn.token = turn.token.toList ++ queue.filterMap Turn.token := by
  rw [List.filterMap_cons]
  cases turn.token <;> rfl

theorem tokens_push (a : Activation V) (turn : Turn V) :
    (a.push turn).tokens = a.tokens ++ turn.token.toList := by
  unfold tokens push
  rw [List.filterMap_append, filterMap_token, List.append_assoc]
  exact congrArg _ (congrArg _ (List.append_nil _))

variable {queue : List (Turn V)} {turn : Turn V}

/-- The turn that is begun is of the queue. -/
theorem tokens_begin (hstage : a.stage = .idle)
    (hqueue : a.queue = turn :: queue) :
    a.tokens = turn.token.toList ++ queue.filterMap Turn.token := by
  unfold tokens
  rw [hstage, hqueue, filterMap_token]
  rfl

/-- A turn that is of no run comes to wait, for nothing that is of a run. -/
theorem Sound.goesOn (h : a.Sound)
    (hstage : a.stage = .idle) (hqueue : a.queue = turn :: queue) (hturn : turn.token = none)
    (hruns : b.runs = a.runs) (hgate : b.gate = a.gate) (hafter : b.queue = queue)
    (hwaits : b.stage.token = none) : b.Sound := by
  refine h.same hruns hgate ?_
  rw [tokens_begin hstage hqueue, hturn]
  unfold tokens
  rw [hafter, hwaits]

/-- A turn of a run is begun: the run holds the gate, and nothing else waits. -/
theorem Sound.begun (h : a.Sound)
    (hstage : a.stage = .idle) (hqueue : a.queue = turn :: queue) {phase : Phase}
    (hturn : turn.token = some (r, phase)) :
    a.gate = some r ∧ a.tokens = [(r, phase)] ∧ queue.filterMap Turn.token = [] ∧
      ∃ run, a.runs[r]? = some run ∧ run.phase = phase := by
  have htokens := tokens_begin hstage hqueue
  rw [hturn] at htokens
  have hmem : (r, phase) ∈ a.tokens := by
    rw [htokens]
    exact List.mem_cons_self
  obtain ⟨hgate, run, hget, hphase, hone⟩ := h.of_token hmem
  rw [htokens] at hone
  exact ⟨hgate, htokens.trans hone, (List.cons.inj hone).2, run, hget, hphase⟩

/-- The same, of the turn that is executed. -/
theorem Sound.awaited (h : a.Sound) {phase : Phase} (hstage : a.stage.token = some (r, phase)) :
    a.gate = some r ∧ a.tokens = [(r, phase)] ∧ a.queue.filterMap Turn.token = [] ∧
      ∃ run, a.runs[r]? = some run ∧ run.phase = phase := by
  have htokens : a.tokens = (r, phase) :: a.queue.filterMap Turn.token := by
    unfold tokens
    rw [hstage]
    rfl
  have hmem : (r, phase) ∈ a.tokens := by
    rw [htokens]
    exact List.mem_cons_self
  obtain ⟨hgate, run, hget, hphase, hone⟩ := h.of_token hmem
  rw [htokens] at hone
  exact ⟨hgate, htokens.trans hone, (List.cons.inj hone).2, run, hget, hphase⟩

theorem tokens_of_stage (hqueue : b.queue = a.queue) (hstage : b.stage.token = a.stage.token) :
    b.tokens = a.tokens := by
  unfold tokens
  rw [hqueue, hstage]

/-- Nothing waits, and a run is reserved that waits for its first turn. -/
theorem Sound.resumeTask (h : a.Sound) : a.resumeTask.Sound := by
  unfold Activation.resumeTask
  split
  · exact h
  rename_i hfree
  rw [Bool.or_eq_true, not_or] at hfree
  have hgate : a.gate = none := Option.not_isSome_iff_eq_none.1 hfree.2
  have htokens : a.tokens = [] := by
    rw [h.waits]
    unfold due
    rw [hgate]
  refine h.reserve hgate
    { input := a.state.input
      restarts := a.state.attempts
      resumed := false
      period := a.period
      phase := .launched } nofun ?_ rfl ?_
  · exact append_modify _ _ _
  · unfold Activation.launch
    rw [tokens_push]
    show a.tokens ++ _ = _
    rw [htokens]
    rfl

theorem Sound.firstTurn (h : a.Sound) (hstage : a.stage = .idle)
    (hqueue : a.queue = .first r :: queue) {run : Run V} {now : Nat} :
    (({ a with queue := queue } : Activation V).firstTurn o r run now).Sound := by
  obtain ⟨hgate, htokens, hrest, -⟩ := h.begun hstage hqueue rfl
  have hidle : ∀ b : Activation V, b.queue = queue → b.stage = a.stage → b.tokens = [] := by
    intro b hb hsame
    unfold tokens
    rw [hb, hsame, hstage, hrest]
    rfl
  have hwaits : ∀ b : Activation V, b.queue = queue → b.stage.token = some (r, .launched) →
      b.tokens = a.tokens := by
    intro b hb hafter
    unfold tokens
    rw [hb, hafter, hrest]
    exact htokens.symm
  unfold Activation.firstTurn
  split
  · exact h.phase hgate .winding (fun _ => rfl) nofun rfl rfl (hidle _ rfl rfl)
  dsimp only
  split
  · exact h.same rfl rfl (hwaits _ rfl rfl)
  split
  · refine h.modify ?_ rfl rfl (hwaits _ rfl rfl)
    exact fun _ => rfl
  · refine h.phase hgate .ready ?_ nofun (modify_modify _ _ _ _) rfl (hidle _ rfl rfl)
    exact fun _ => rfl

theorem Sound.settleTurn (h : a.Sound) {outcome : Except String V}
    (hstage : a.stage = .idle) (hqueue : a.queue = .settle r outcome :: queue) {now : Nat} :
    (({ a with queue := queue } : Activation V).settleTurn r now outcome).Sound := by
  obtain ⟨hgate, htokens, hrest, -⟩ := h.begun hstage hqueue rfl
  have hidle : (({ a with queue := queue } : Activation V).setPhase r .winding).Sound := by
    refine h.phase hgate .winding (fun _ => rfl) nofun rfl rfl ?_
    show a.stage.token.toList ++ queue.filterMap Turn.token = []
    rw [hstage, hrest]
    rfl
  have hwaits : ∀ b : Activation V, b.runs = a.runs → b.gate = a.gate → b.queue = queue →
      b.stage.token = some (r, .settling) → b.Sound := by
    intro b hruns hsame hb hafter
    refine h.same hruns hsame ?_
    unfold tokens
    rw [hb, hafter, hrest]
    exact htokens.symm
  cases outcome with
  | ok | error =>
    unfold Activation.settleTurn
    dsimp only
    split
    · exact hidle
    · exact hwaits _ rfl rfl rfl rfl

theorem Sound.begin (h : a.Sound) (hstage : a.stage = .idle)
    (hqueue : a.queue = turn :: queue) {now : Nat} :
    (({ a with queue := queue } : Activation V).begin o now turn).Sound := by
  have hnothing : ∀ b : Activation V, turn.token = none → b.runs = a.runs → b.gate = a.gate →
      b.queue = queue → b.stage.token = none → b.Sound :=
    fun b hturn hruns hgate hb hwaits => h.goesOn hstage hqueue hturn hruns hgate hb hwaits
  have hidle : a.stage.token = none := hstage ▸ rfl
  cases turn with
  | start | cancel | resume | pause =>
    unfold Activation.begin
    dsimp only
    split
    · exact hnothing _ rfl rfl rfl rfl hidle
    · exact hnothing _ rfl rfl rfl rfl rfl
  | read => exact hnothing _ rfl rfl rfl rfl hidle
  | discard =>
    unfold Activation.begin
    dsimp only
    split
    · split <;> exact hnothing _ rfl rfl rfl rfl rfl
    · exact hnothing _ rfl rfl rfl rfl hidle
  | retained | flush | append =>
    unfold Activation.begin
    dsimp only
    split
    · exact hnothing _ rfl rfl rfl rfl rfl
    · exact hnothing _ rfl rfl rfl rfl hidle
  | heal =>
    unfold Activation.begin
    dsimp only
    have hpopped : ({ a with queue := queue } : Activation V).Sound :=
      hnothing _ rfl rfl rfl rfl hidle
    split
    · exact hpopped.resumeTask
    · exact hpopped
  | first r =>
    obtain ⟨-, -, -, run, hget, -⟩ := h.begun hstage hqueue rfl
    unfold Activation.begin
    dsimp only
    rw [hget]
    exact h.firstTurn hstage hqueue
  | progress | update =>
    unfold Activation.begin
    dsimp only
    split <;> exact hnothing _ rfl rfl rfl rfl hidle
  | checkpoint r cp eventual =>
    unfold Activation.begin
    dsimp only
    split
    · exact hnothing _ rfl rfl rfl rfl hidle
    split
    · exact hnothing _ rfl rfl rfl rfl hidle
    · exact hnothing _ rfl rfl rfl rfl rfl
  | settle r outcome => exact h.settleTurn hstage hqueue

/-! ## What a turn has waited for -/

theorem Sound.startTask (h : a.Sound) (hstage : a.stage.token = none) (prior : Prior V)
    (origin : JobState V) : (a.startTask prior origin).Sound := by
  have hsame : ∀ b : Activation V, b.runs = a.runs → b.gate = a.gate → b.queue = a.queue →
      b.stage.token = none → b.Sound := fun b hruns hgate hqueue hwaits =>
    h.same hruns hgate (tokens_of_stage hqueue (hwaits.trans hstage.symm))
  unfold Activation.startTask
  split
  · exact hsame _ rfl rfl rfl rfl
  split
  · exact hsame _ rfl rfl rfl rfl
  rename_i hfree
  have hgate : a.gate = none := Option.not_isSome_iff_eq_none.1 hfree
  have hqueue : a.queue.filterMap Turn.token = [] := by
    have htokens : a.tokens = [] := by
      rw [h.waits]
      unfold due
      rw [hgate]
    unfold tokens at htokens
    rw [hstage] at htokens
    exact htokens
  refine h.reserve hgate _ ?_ rfl rfl ?_
  · exact nofun
  · show (Stage.token (.tracking _ prior origin)).toList ++ a.queue.filterMap Turn.token = _
    rw [hqueue]
    rfl

/-- The turn that is executed ends, and its run with it. -/
theorem Sound.wind (h : a.Sound) {phase : Phase} (hstage : a.stage.token = some (r, phase)) :
    ((a.setPhase r .winding).await .idle).Sound := by
  obtain ⟨hgate, -, hqueue, -⟩ := h.awaited hstage
  refine h.phase hgate .winding (fun _ => rfl) nofun rfl rfl ?_
  exact hqueue

theorem Sound.finished (h : a.Sound) {f : Finisher} (hstage : a.stage.token = f.token) :
    (a.finished f).Sound := by
  cases f with
  | cancel =>
    unfold Activation.finished
    dsimp only
    split
    · refine h.modify ?_ rfl rfl (tokens_of_stage rfl hstage.symm)
      exact fun _ => rfl
    · exact h.same rfl rfl (tokens_of_stage rfl hstage.symm)
  | giveUp | settle => exact h.wind hstage

theorem Sound.unfinished (h : a.Sound) {f : Finisher} (hstage : a.stage.token = f.token)
    (error : String) : (a.unfinished error f).Sound := by
  cases f with
  | cancel => exact h.same rfl rfl (tokens_of_stage rfl hstage.symm)
  | giveUp r => exact h.wind hstage
  | settle r completed =>
    cases completed with
    | false => exact h.wind hstage
    | true =>
      unfold Activation.unfinished
      dsimp only
      split
      · exact h.wind hstage
      obtain ⟨-, htokens, hqueue, -⟩ := h.awaited hstage
      refine h.same rfl rfl ?_
      rw [htokens]
      show (a.queue ++ [Turn.settle r (.error error)]).filterMap Turn.token = _
      rw [List.filterMap_append, hqueue]
      rfl

theorem Sound.await (h : a.Sound) {stage : Stage V} (hstage : a.stage.token = stage.token) :
    (a.await stage).Sound :=
  h.same rfl rfl (tokens_of_stage rfl hstage.symm)

end Activation

/-! ## Steps -/

namespace Job

variable {o : JobOptions V} {s t : Job V} {a b : Activation V} {l : Label V}

/-- One step of the activation, by what is taken up. -/
inductive Moves (o : JobOptions V) (s : Job V) (a : Activation V) : Label V → Job V → Prop
  | submit {turn : Turn V} (h : asks a turn = true) :
      Moves o s a (.submit turn) (s.setLive (a.push turn))
  | begin {now : Nat} {turn : Turn V} {queue : List (Turn V)} {u : Job V} (hstage : a.stage = .idle)
      (hqueue : a.queue = turn :: queue)
      (hu : u = s.setLive (({ a with queue := queue } : Activation V).begin o now turn)) :
      Moves o s a (.begin now) (if turn.reports then u.observe a.state.status else u)
  | written {what : Saving V} (hstage : a.stage = .saving what) :
      Moves o s a (.written none) ((s.durable o a what).written o (s.paid o a what) what)
  | unwritten {error : String} {what : Saving V} (hstage : a.stage = .saving what) :
      Moves o s a (.written (some error)) (s.unwritten a error what)
  | tracked {r : Nat} {prior : Prior V} {origin : JobState V}
      (hstage : a.stage = .tracking r prior origin) :
      Moves o s a (.tracked true) (s.setLive ((a.launch r).await .idle))
  | untracked {r : Nat} {prior : Prior V} {origin : JobState V}
      (hstage : a.stage = .tracking r prior origin) :
      Moves o s a (.tracked false) (s.setLive
        (({ a.setPhase r .over with gate := none } : Activation V).takeBack prior origin))
  | retained {f : Finisher} (hstage : a.stage = .retaining f) :
      Moves o s a (.retained none) (s.settled o a f)
  | unretained {error : String} {f : Finisher} (hstage : a.stage = .retaining f) :
      Moves o s a (.retained (some error)) (s.setLive (a.unfinished error f))
  | hooked {f : Finisher} (hstage : a.stage = .hook f) : Moves o s a .hooked (s.conclude a f)
  | clearedRetain {ok : Bool} (hstage : a.stage = .clearingRetain) :
      Moves o s a (.cleared ok) (s.setLive (a.await (if ok then .clearing else .idle)))
  | cleared (hstage : a.stage = .clearing) :
      Moves o s a (.cleared true) { s with
        stored := none
        observed := none
        live := some { a with state := o.fresh, owed := false, stage := .idle } }
  | uncleared (hstage : a.stage = .clearing) :
      Moves o s a (.cleared false) (s.setLive (a.await .idle))
  | enter {r : Nat} {run : Run V} (hget : a.runs[r]? = some run) (hphase : run.phase = .ready) :
      Moves o s a (.enter r) { s with
        entered := if run.resumed then s.entered else s.entered + 1
        live := some (a.modifyRun r fun run => { run with phase := .body, entered := true }) }
  | winds {r : Nat} {run : Run V} {result : Result V} (hget : a.runs[r]? = some run)
      (hphase : run.phase = .body) (hresult : result = .paused ∨ run.aborted = true) :
      Moves o s a (.returns r result) (s.setLive (a.setPhase r .winding))
  | returns {r : Nat} {run : Run V} {result : Result V} {outcome : Except String V}
      (hget : a.runs[r]? = some run) (hphase : run.phase = .body) (haborted : run.aborted = false)
      (hresult : result = match outcome with
        | .ok out => .value out
        | .error message => .thrown message) :
      Moves o s a (.returns r result)
        (s.setLive ((a.setPhase r .settling).push (.settle r outcome)))
  | release {r : Nat} {run : Run V} (hget : a.runs[r]? = some run) (hphase : run.phase = .winding) :
      Moves o s a (.release r) (s.setLive { a.setPhase r .over with
        gate := if a.gate = some r then none else a.gate })
  | deactivate (h : a.deactivating = false) : Moves o s a .deactivate (s.setLive a.deactivate)
  | crash {wrote : Bool} (h : wrote = false ∨ a.stage ≠ .clearing ∧ ∀ what, a.stage ≠ .saving what) :
      Moves o s a (.crash wrote) { s with live := none }
  | crashWritten {what : Saving V} (hstage : a.stage = .saving what) :
      Moves o s a (.crash true) { s.durable o a what with live := none }
  | crashCleared (hstage : a.stage = .clearing) :
      Moves o s a (.crash true) { s with stored := none, observed := none, live := none }

theorem moves_of_step (h : s.stepLive o a l = some t) : Moves o s a l t := by
  cases l with
  | activate => cases h
  | submit turn =>
    simp only [stepLive] at h
    split at h
    · cases h
      rename_i hasks
      exact .submit hasks
    · cases h
  | begin now =>
    simp only [stepLive] at h
    split at h
    · rename_i hstage hqueue
      cases h
      exact .begin hstage hqueue rfl
    · cases h
  | written failure =>
    cases failure with
    | none =>
      simp only [stepLive] at h
      split at h
      · rename_i hstage
        cases h
        exact .written hstage
      · cases h
    | some error =>
      simp only [stepLive] at h
      split at h
      · rename_i hstage
        cases h
        exact .unwritten hstage
      · cases h
  | tracked ok =>
    simp only [stepLive] at h
    split at h
    · rename_i hstage
      cases ok with
      | true =>
        cases h
        exact .tracked hstage
      | false =>
        cases h
        exact .untracked hstage
    · cases h
  | retained failure =>
    cases failure with
    | none =>
      simp only [stepLive] at h
      split at h
      · rename_i hstage
        cases h
        exact .retained hstage
      · cases h
    | some error =>
      simp only [stepLive] at h
      split at h
      · rename_i hstage
        cases h
        exact .unretained hstage
      · cases h
  | hooked =>
    simp only [stepLive] at h
    split at h
    · rename_i hstage
      cases h
      exact .hooked hstage
    · cases h
  | cleared ok =>
    simp only [stepLive] at h
    split at h
    · rename_i hstage
      cases h
      exact .clearedRetain hstage
    · rename_i hstage
      cases ok with
      | true =>
        cases h
        exact .cleared hstage
      | false =>
        cases h
        exact .uncleared hstage
    · cases h
  | enter r =>
    simp only [stepLive] at h
    split at h
    · rename_i run hget
      obtain ⟨hphase, rfl⟩ := guard_taken h
      exact .enter hget hphase
    · cases h
  | returns r result =>
    simp only [stepLive] at h
    split at h
    · rename_i run hget
      obtain ⟨hphase, h⟩ := guard_passed h
      cases result with
      | paused =>
        cases h
        exact .winds hget hphase (.inl rfl)
      | value | thrown =>
        dsimp only at h
        split at h
        · rename_i haborted
          cases h
          exact .winds hget hphase (.inr haborted)
        · rename_i haborted
          cases h
          exact .returns hget hphase (Bool.eq_false_iff.2 haborted) rfl
    · cases h
  | release r =>
    simp only [stepLive] at h
    split at h
    · rename_i run hget
      obtain ⟨hphase, rfl⟩ := guard_taken h
      exact .release hget hphase
    · cases h
  | deactivate =>
    obtain ⟨hopen, rfl⟩ := guard_past_taken h
    exact .deactivate (Bool.eq_false_iff.2 hopen)
  | crash wrote =>
    simp only [stepLive] at h
    split at h
    · rename_i hstage
      cases wrote with
      | true =>
        cases h
        exact .crashWritten hstage
      | false =>
        cases h
        exact .crash (.inl rfl)
    · rename_i hstage
      cases wrote with
      | true =>
        cases h
        exact .crashCleared hstage
      | false =>
        cases h
        exact .crash (.inl rfl)
    · rename_i hsaving hclearing
      cases h
      exact .crash (.inr ⟨hclearing, hsaving⟩)

theorem observe_live (s : Job V) (status : JobStatus) : (s.observe status).live = s.live := by
  unfold observe
  split <;> rfl

theorem conclude_live (s : Job V) (a : Activation V) (f : Finisher) :
    (s.conclude a f).live = some (a.finished f) := by
  cases f with
  | cancel => exact observe_live _ _
  | giveUp | settle => rfl

/-- The hook is called, or the turn ends. -/
theorem settled_live (o : JobOptions V) (s : Job V) (a : Activation V) (f : Finisher) :
    (s.settled o a f).live = some (a.await (.hook f)) ∨
      (s.settled o a f).live = some (a.finished f) := by
  unfold settled
  split
  · exact .inl rfl
  · exact .inr (conclude_live s a f)

/-- Where a job is live, its runs and the turns they wait for agree. -/
def Sound (s : Job V) : Prop := ∀ a, s.live = some a → a.Sound

theorem Sound.of_live (hlive : t.live = some b) (h : b.Sound) : t.Sound := by
  intro c hc
  cases hlive.symm.trans hc
  exact h

theorem Sound.of_none (hnone : t.live = none) : t.Sound := by
  intro c hc
  cases hnone.symm.trans hc

theorem sound_paid (h : a.Sound) (s : Job V) (what : Saving V) : (s.paid o a what).Sound := by
  unfold paid
  split
  · split
    · exact h
    · exact h.same rfl rfl rfl
  · exact h.same rfl rfl rfl

theorem paid_stage (o : JobOptions V) (s : Job V) (a : Activation V) (what : Saving V) :
    (s.paid o a what).stage = a.stage := by
  unfold paid
  split
  · split <;> rfl
  · rfl

theorem sound_settled (h : a.Sound) {f : Finisher} (hstage : a.stage.token = f.token) :
    (s.settled o a f).Sound := by
  obtain hlive | hlive := settled_live o s a f
  · refine .of_live hlive (h.await ?_)
    exact hstage
  · exact .of_live hlive (h.finished hstage)

theorem sound_written (h : a.Sound) {what : Saving V} (hstage : a.stage = .saving what) :
    (s.written o a what).Sound := by
  have hends : a.stage.token = none → (a.await .idle).Sound := fun hnone => h.await hnone
  cases what with
  | launching prior origin => exact .of_live rfl (h.startTask (hstage ▸ rfl) prior origin)
  | reverting | appending | plain => exact .of_live rfl (hends (hstage ▸ rfl))
  | finishing f =>
    have htoken : a.stage.token = f.token := hstage ▸ rfl
    unfold written
    dsimp only
    split
    · refine .of_live rfl (h.await ?_)
      exact htoken
    · exact sound_settled h htoken
  | first r =>
    have htoken : a.stage.token = some (r, .launched) := hstage ▸ rfl
    obtain ⟨hgate, -, hqueue, -⟩ := h.awaited htoken
    refine .of_live rfl (h.phase hgate .ready (fun _ => rfl) nofun rfl rfl ?_)
    exact hqueue

theorem sound_unwritten (h : a.Sound) {what : Saving V} (hstage : a.stage = .saving what)
    (error : String) : (s.unwritten a error what).Sound := by
  have hends : a.stage.token = none → (a.await .idle).Sound := fun hnone => h.await hnone
  cases what with
  | launching | appending | plain => exact .of_live rfl (hends (hstage ▸ rfl))
  | reverting prior running origin =>
    have hrestored : ({ a with state := prior.restore running a.state } : Activation V).Sound :=
      h.same rfl rfl rfl
    refine .of_live rfl (hrestored.await ?_)
    rw [hstage]
    rfl
  | finishing f => exact .of_live rfl (h.unfinished (hstage ▸ rfl) error)
  | first r =>
    have htoken : a.stage.token = some (r, .launched) := hstage ▸ rfl
    exact .of_live rfl (h.wind htoken)

/-- What is not over and does not wait leaves nothing else to wait. -/
theorem tokens_of_phase (h : a.Sound) {r : Nat} {run : Run V} (hget : a.runs[r]? = some run)
    (hover : run.phase ≠ .over) (hwaits : run.phase.waits = false) :
    a.gate = some r ∧ a.tokens = [] := by
  have hgate := h.alone r run hget hover
  refine ⟨hgate, ?_⟩
  rw [h.waits, Activation.due_of_gate hgate hget, hwaits]
  rfl

theorem Sound.moves (h : a.Sound) (hmoves : Moves o s a l t) : t.Sound := by
  have hphase : ∀ {r : Nat} {run : Run V} (phase : Phase) {b : Activation V} {f : Run V → Run V},
      a.runs[r]? = some run → run.phase ≠ .over → run.phase.waits = false →
      (∀ run, (f run).phase = phase) → phase ≠ .over → phase.waits = false →
      b.runs = a.runs.modify r f → b.gate = a.gate → b.tokens = a.tokens → b.Sound := by
    intro r run phase b f hget hover hwaits hf hover' hwaits' hruns hgate htokens
    obtain ⟨hgate', hnone⟩ := tokens_of_phase h hget hover hwaits
    refine h.phase hgate' phase hf hover' hruns hgate ?_
    rw [htokens, hnone, hwaits']
    rfl
  cases hmoves with
  | @submit turn hasks =>
    refine .of_live rfl (h.same rfl rfl ?_)
    rw [Activation.tokens_push]
    cases turn with
    | first | settle => cases hasks
    | _ => exact List.append_nil _
  | @begin now turn queue u hstage hqueue hu =>
    subst hu
    have hbegun : (({ a with queue := queue } : Activation V).begin o now turn).Sound :=
      h.begin hstage hqueue
    split
    · exact .of_live (observe_live _ _) hbegun
    · exact .of_live rfl hbegun
  | written hstage =>
    exact sound_written (sound_paid h s _) ((paid_stage o s a _).trans hstage)
  | unwritten hstage => exact sound_unwritten h hstage _
  | @tracked r prior origin hstage =>
    have htoken : a.stage.token = some (r, .starting) := hstage ▸ rfl
    obtain ⟨hgate, -, hqueue, -⟩ := h.awaited htoken
    refine .of_live rfl (h.phase hgate .launched (fun _ => rfl) nofun rfl rfl ?_)
    show (a.queue ++ [Turn.first r]).filterMap Turn.token = _
    rw [List.filterMap_append, hqueue]
    rfl
  | @untracked r prior origin hstage =>
    have htoken : a.stage.token = some (r, .starting) := hstage ▸ rfl
    obtain ⟨hgate, -, hqueue, -⟩ := h.awaited htoken
    refine .of_live rfl (h.release hgate (fun _ => rfl) rfl rfl ?_)
    exact hqueue
  | retained hstage => exact sound_settled h (hstage ▸ rfl)
  | unretained hstage => exact .of_live rfl (h.unfinished (hstage ▸ rfl) _)
  | hooked hstage => exact .of_live (conclude_live s a _) (h.finished (hstage ▸ rfl))
  | @clearedRetain ok hstage =>
    refine .of_live rfl (h.await ?_)
    rw [hstage]
    cases ok <;> rfl
  | cleared hstage =>
    refine .of_live rfl (h.same rfl rfl (Activation.tokens_of_stage rfl ?_))
    rw [hstage]
    rfl
  | uncleared hstage => exact .of_live rfl (h.await (hstage ▸ rfl))
  | enter hget hready =>
    refine .of_live rfl (hphase .body hget ?_ ?_ (fun _ => rfl) nofun rfl rfl rfl rfl)
    · rw [hready]
      exact nofun
    · rw [hready]
      rfl
  | winds hget hbody _ =>
    refine .of_live rfl (hphase .winding hget ?_ ?_ (fun _ => rfl) nofun rfl rfl rfl rfl)
    · rw [hbody]
      exact nofun
    · rw [hbody]
      rfl
  | @returns r run result outcome hget hbody _ _ =>
    obtain ⟨hgate, hnone⟩ := tokens_of_phase h hget (hbody ▸ nofun) (hbody ▸ rfl)
    refine .of_live rfl (h.phase hgate .settling (fun _ => rfl) nofun rfl rfl ?_)
    rw [Activation.tokens_push]
    show a.tokens ++ _ = _
    rw [hnone]
    rfl
  | release hget hwinding =>
    obtain ⟨hgate, hnone⟩ := tokens_of_phase h hget (hwinding ▸ nofun) (hwinding ▸ rfl)
    exact .of_live rfl (h.release hgate (fun _ => rfl) rfl (if_pos hgate) hnone)
  | deactivate _ =>
    refine .of_live rfl ?_
    unfold Activation.deactivate
    split
    · refine h.modify ?_ rfl rfl rfl
      exact fun _ => rfl
    · exact h.same rfl rfl rfl
  | crash | crashWritten | crashCleared => exact .of_none rfl

theorem Sound.activate (s : Job V) : (s.activate o).Sound := by
  have hnew : ({ state := s.stored.getD o.fresh } : Activation V).Sound :=
    ⟨nofun, nofun, rfl⟩
  refine .of_live rfl ?_
  split
  · exact hnew.resumeTask
  · exact hnew

/-- What a step is of: the activation, or its creation. -/
theorem cases_of_step (h : s.step o l = some t) :
    (∃ a, s.live = some a ∧ Moves o s a l t) ∨ s.live = none ∧ l = .activate ∧ t = s.activate o := by
  unfold step at h
  split at h
  · rename_i a hlive
    exact .inl ⟨a, hlive, moves_of_step h⟩
  · rename_i hnone
    split at h
    · cases h
      exact .inr ⟨hnone, rfl, rfl⟩
    · cases h

theorem Sound.step (h : s.Sound) (hstep : s.step o l = some t) : t.Sound := by
  obtain ⟨a, hlive, hmoves⟩ | ⟨-, -, rfl⟩ := cases_of_step hstep
  · exact .moves (h a hlive) hmoves
  · exact .activate s

end Job

/-- **A job has one body at a time**, whatever its storage does: of the runs of an activation at most
one is not over, it holds the gate, and at most one turn is under way or queued for it. -/
theorem one_body {V : Type} {o : JobOptions V} {s : Job V} (h : (job o).Reachable s)
    {a : Activation V} (hlive : s.live = some a) :
    (∀ (r r' : Nat) (run run' : Run V), a.runs[r]? = some run → a.runs[r']? = some run' →
      run.phase ≠ .over → run'.phase ≠ .over → r = r' ∧ a.gate = some r) ∧
    (∀ r, a.gate = some r → ∃ run, a.runs[r]? = some run ∧ run.phase ≠ .over) ∧
    a.tokens.length ≤ 1 := by
  have hs : a.Sound := by
    refine h.invariant (I := Job.Sound) ?_ (fun _ _ _ hs _ hstep => hs.step hstep) a hlive
    rintro _ rfl a hlive
    cases hlive
  refine ⟨fun r r' run run' hget hget' hover hover' => ?_, hs.held, ?_⟩
  · have hgate := hs.alone r run hget hover
    exact ⟨Option.some.inj (hgate.symm.trans (hs.alone r' run' hget' hover')), hgate⟩
  · rw [hs.waits, Activation.due]
    split
    · exact Nat.zero_le _
    · split
      · exact Nat.zero_le _
      · split <;> simp

theorem one_body_started : ∃ a : Activation Nat, a.gate = some 0 ∧
    ∀ r run, a.runs[r]? = some run → run.phase ≠ .over → r = 0 := by
  have hstart : (job (V := Nat) { extra := 0 }).Reachable {} := .start rfl
  have hrun := hstart.exec_get [.activate, .submit (.start 5 none), .begin 0, .written none,
    .tracked true, .begin 1, .enter 0] (by decide)
  have hone := one_body hrun (Option.some_get (by decide)).symm
  obtain ⟨run, hget, hbody⟩ := hone.2.1 0 rfl
  exact ⟨_, rfl, fun r run' hget' hover => (hone.1 r 0 run' run hget' hget hover hbody).1⟩

end SigxActors.Job
