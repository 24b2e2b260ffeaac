/-
  Host/TaskJobs.lean --- which edit and which call each task run waits for.

  A run that waits is waited for once: it has one edit on the chain or one call of
  task liveness, and its phase says which.  `#tasks` holds the reserved runs.  An
  edit that writes an entry is the last edit of its name, and a run whose entry is
  to stay has none.

  Each group of facts is stated over the parts of the state that it reads, so that
  a step keeps it as it is where it changes no such part.
-/
import SigxActors.Host.DetachedTasks
import SigxActors.Js.Array

set_option autoImplicit false

namespace SigxActors.Host

open SigxActors.Js

/-! ## Runs -/

structure TaskRun.Sound (known : String → Bool) (run : TaskRun) : Prop where
  known : known run.name = true
  started : run.phase = .starting ∨ run.phase = .tracking → run.restarts = 0
  resumed : run.phase = .resuming → run.restarts ≠ 0
  settles : run.settles = if run.phase.isOver then 1 else 0
  plain : run.restarts = 0 → run.name ≠ "__proto__"

/-- The run of that phase has an entry that is to stay. -/
def TaskPhase.keeps : TaskPhase → Bool
  | .tracking | .running | .over_ .interrupted => true
  | _ => false

theorem TaskPhase.reserved_of_keeps {phase : TaskPhase} (h : phase.keeps = true) :
    phase.reserved = true ∨ phase = .over_ .interrupted := by
  cases phase with
  | over_ how => cases how <;> simp_all [TaskPhase.keeps]
  | _ => simp_all [TaskPhase.keeps, TaskPhase.reserved]

/-- Its body runs, or was interrupted. -/
def TaskPhase.underWay : TaskPhase → Bool
  | .running | .over_ .interrupted => true
  | _ => false

theorem TaskPhase.keeps_of_underWay {phase : TaskPhase} (h : phase.underWay = true) :
    phase.keeps = true := by
  cases phase with
  | over_ how => cases how <;> simp_all [TaskPhase.keeps, TaskPhase.underWay]
  | _ => simp_all [TaskPhase.keeps, TaskPhase.underWay]

/-- Its body has settled, and was not interrupted. -/
def TaskPhase.wound : TaskPhase → Bool
  | .forgetting | .untracking | .over_ .finished => true
  | _ => false

variable {run : TaskRun} {i : Nat}

theorem countP_modify_add {runs : List TaskRun} {f : TaskRun → TaskRun}
    (p : TaskRun → Bool) (h : runs[i]? = some run) :
    (runs.modify i f).countP p + (if p run then 1 else 0) =
      runs.countP p + (if p (f run) then 1 else 0) := by
  induction runs generalizing i with
  | nil => simp at h
  | cons head tail ih =>
    cases i with
    | zero =>
      obtain rfl : head = run := by simpa using h
      simp only [List.modify_zero_cons, List.countP_cons]
      omega
    | succ i =>
      have := ih (by simpa using h)
      simp only [List.modify_succ_cons, List.countP_cons]
      omega

/-- Every run is sound. -/
def Tasks.RunsSound (known : String → Bool) (runs : List TaskRun) : Prop :=
  ∀ (i : Nat) (run : TaskRun), runs[i]? = some run → run.Sound known

theorem Tasks.RunsSound.modify {known : String → Bool} {runs : List TaskRun}
    (h : RunsSound known runs) {f : TaskRun → TaskRun}
    (hget : runs[i]? = some run) (hf : (f run).Sound known) : RunsSound known (runs.modify i f) := by
  intro j x hx
  obtain ⟨-, hx⟩ | ⟨old, -, hold, rfl⟩ := (of_modify_get hx).symm
  · exact h j x hx
  · rw [hget, Option.some.injEq] at hold
    exact hold ▸ hf

theorem Tasks.RunsSound.concat {known : String → Bool} {runs : List TaskRun}
    (h : RunsSound known runs) (hrun : run.Sound known) :
    RunsSound known (runs ++ [run]) := by
  intro j x hx
  obtain ⟨-, hx⟩ | ⟨-, rfl⟩ := (of_append_get hx).symm
  · exact h j x hx
  · exact hrun

/-! ## What is waited for -/

/-- An edit of the chain, with the run that waits for it. -/
abbrev TaskJob := LedgerEdit × Option Nat

def Tasks.jobs (s : Tasks) : List TaskJob := s.chain.map fun m => (m.edit, m.run)

/-- It writes an entry. -/
def LedgerEdit.writes : LedgerEdit → Bool
  | .enter .. | .restart .. => true
  | .takeBack .. | .forget _ => false

/-- Run `i` waits for the edit. -/
def LedgerEdit.Of (i : Nat) (run : TaskRun) (edit : LedgerEdit) : Prop :=
  edit.name = run.name ∧
    match edit with
    | .enter _ entry =>
        run.phase = .starting ∧ entry.startedAt = run.startedAt ∧ entry.restarts = 0 ∧
          entry.run = some i
    | .restart .. => run.phase = .resuming
    | .takeBack _ startedAt => run.phase = .rollingBack ∧ run.startedAt = startedAt
    | .forget _ => run.phase = .forgetting

/-- The phase of a run that waits for a call of task liveness. -/
def LivenessCall.phase (c : LivenessCall) : TaskPhase :=
  if c.tracks then .tracking else .untracking

variable {edit : LedgerEdit}

theorem LedgerEdit.Of.phase_ne (h : edit.Of i run)
    (c : LivenessCall) : run.phase ≠ c.phase := by
  intro hphase
  rw [LivenessCall.phase] at hphase
  cases edit <;> simp only [LedgerEdit.Of] at h <;> split at hphase <;> simp_all

theorem LedgerEdit.Of.reserved (h : edit.Of i run)
    (hwrites : edit.writes = true) : run.phase.reserved = true := by
  cases edit with
  | enter => rw [h.2.1, TaskPhase.reserved]
  | restart => rw [h.2, TaskPhase.reserved]
  | takeBack | forget => exact absurd hwrites (by simp [LedgerEdit.writes])

namespace Tasks

structure Jobs (known : String → Bool) (runs : List TaskRun) (jobs : List TaskJob)
    (calls : List LivenessCall) : Prop where
  editOf : ∀ job ∈ jobs, ∀ i, job.2 = some i → ∃ run, runs[i]? = some run ∧ job.1.Of i run
  drops : ∀ job ∈ jobs, job.2 = none → ∃ name, job.1 = .forget name ∧ known name = false
  callOf : ∀ c ∈ calls, ∀ i, c.run = some i → ∃ run, runs[i]? = some run ∧ run.phase = c.phase
  untracks : ∀ c ∈ calls, c.run = none → c.tracks = false
  oneEdit : (jobs.filterMap (·.2)).Nodup
  oneCall : (calls.filterMap (·.run)).Nodup

/-- Run `i` waits for nothing. -/
structure Free (jobs : List TaskJob) (calls : List LivenessCall) (i : Nat) : Prop where
  noEdit : ∀ job ∈ jobs, job.2 ≠ some i
  noCall : ∀ c ∈ calls, c.run ≠ some i

variable {known : String → Bool} {runs : List TaskRun} {jobs : List TaskJob}
  {calls : List LivenessCall}

variable {job : TaskJob} {f : TaskRun → TaskRun}

theorem Jobs.pop (h : Jobs known runs (job :: jobs) calls) : Jobs known runs jobs calls where
  editOf x hx := h.editOf x (List.mem_cons_of_mem _ hx)
  drops x hx := h.drops x (List.mem_cons_of_mem _ hx)
  callOf := h.callOf
  untracks := h.untracks
  oneEdit := h.oneEdit.sublist ((List.sublist_cons_self _ _).filterMap _)
  oneCall := h.oneCall

theorem Jobs.popCall {c : LivenessCall} (h : Jobs known runs jobs (c :: calls)) :
    Jobs known runs jobs calls where
  editOf := h.editOf
  drops := h.drops
  callOf x hx := h.callOf x (List.mem_cons_of_mem _ hx)
  untracks x hx := h.untracks x (List.mem_cons_of_mem _ hx)
  oneEdit := h.oneEdit
  oneCall := h.oneCall.sublist ((List.sublist_cons_self _ _).filterMap _)

/-- The run of an edit waits for nothing else. -/
theorem Jobs.free_of_edit
    (h : Jobs known runs ((edit, some i) :: jobs) calls) : Free jobs calls i where
  noEdit job hjob heq := by
    have hnodup := h.oneEdit
    simp only [List.filterMap_cons, List.nodup_cons] at hnodup
    exact hnodup.1 (List.mem_filterMap.2 ⟨job, hjob, heq⟩)
  noCall c hc heq := by
    obtain ⟨run, hrun, hof⟩ := h.editOf _ (List.mem_cons_self ..) i rfl
    obtain ⟨run', hrun', hphase⟩ := h.callOf c hc i heq
    obtain rfl : run = run' := Option.some.inj (hrun.symm.trans hrun')
    exact hof.phase_ne c hphase

/-- The run of a call of task liveness waits for nothing else. -/
theorem Jobs.free_of_call {tracks : Bool}
    (h : Jobs known runs jobs (⟨tracks, some i⟩ :: calls)) : Free jobs calls i where
  noEdit job hjob heq := by
    obtain ⟨run, hrun, hof⟩ := h.editOf job hjob i heq
    obtain ⟨run', hrun', hphase⟩ := h.callOf _ (List.mem_cons_self ..) i rfl
    obtain rfl : run = run' := Option.some.inj (hrun.symm.trans hrun')
    exact hof.phase_ne _ hphase
  noCall c hc heq := by
    have hnodup := h.oneCall
    simp only [List.filterMap_cons, List.nodup_cons] at hnodup
    exact hnodup.1 (List.mem_filterMap.2 ⟨c, hc, heq⟩)

section

variable (h : Jobs known runs jobs calls)
include h

/-- A running body, like a run that is over, waits for nothing. -/
theorem Jobs.free_of_running
    (hget : runs[i]? = some run) (hphase : run.phase = .running) : Free jobs calls i where
  noEdit job hjob heq := by
    obtain ⟨run', hrun', -, hof⟩ := h.editOf job hjob i heq
    obtain rfl : run = run' := Option.some.inj (hget.symm.trans hrun')
    revert hof
    rw [hphase]
    cases job.1 <;> simp
  noCall c hc heq := by
    obtain ⟨run', hrun', hof⟩ := h.callOf c hc i heq
    obtain rfl : run = run' := Option.some.inj (hget.symm.trans hrun')
    rw [hphase, LivenessCall.phase] at hof
    split at hof <;> exact absurd hof (by simp)

theorem Jobs.modify (hfree : Free jobs calls i)
    (f : TaskRun → TaskRun) : Jobs known (runs.modify i f) jobs calls where
  editOf job hjob j hj := by
    have hne : j ≠ i := by
      rintro rfl
      exact hfree.noEdit job hjob hj
    rw [modify_get_other f hne]
    exact h.editOf job hjob j hj
  drops := h.drops
  callOf c hc j hj := by
    have hne : j ≠ i := by
      rintro rfl
      exact hfree.noCall c hc hj
    rw [modify_get_other f hne]
    exact h.callOf c hc j hj
  untracks := h.untracks
  oneEdit := h.oneEdit
  oneCall := h.oneCall

/-- A run has changed in what nothing waits for. -/
theorem Jobs.touch (i : Nat)
    (hname : ∀ run, (f run).name = run.name) (hphase : ∀ run, (f run).phase = run.phase)
    (hstarted : ∀ run, (f run).startedAt = run.startedAt) :
    Jobs known (runs.modify i f) jobs calls where
  editOf job hjob j hj := by
    obtain ⟨run, hget, hof⟩ := h.editOf job hjob j hj
    by_cases hji : j = i
    · subst hji
      refine ⟨f run, modify_get_self f hget, ?_⟩
      rw [LedgerEdit.Of.eq_def, hname, hphase, hstarted]
      exact hof
    · exact ⟨run, (modify_get_other f hji).trans hget, hof⟩
  drops := h.drops
  callOf c hc j hj := by
    obtain ⟨run, hget, hof⟩ := h.callOf c hc j hj
    by_cases hji : j = i
    · subst hji
      exact ⟨f run, modify_get_self f hget, (hphase run).trans hof⟩
    · exact ⟨run, (modify_get_other f hji).trans hget, hof⟩
  untracks := h.untracks
  oneEdit := h.oneEdit
  oneCall := h.oneCall

theorem Jobs.concat (run : TaskRun) : Jobs known (runs ++ [run]) jobs calls where
  editOf job hjob j hj :=
    (h.editOf job hjob j hj).imp fun _ hx => ⟨append_get run hx.1, hx.2⟩
  drops := h.drops
  callOf c hc j hj := (h.callOf c hc j hj).imp fun _ hx => ⟨append_get run hx.1, hx.2⟩
  untracks := h.untracks
  oneEdit := h.oneEdit
  oneCall := h.oneCall

/-- A run that has just been reserved waits for nothing. -/
theorem Jobs.free_of_new : Free jobs calls runs.length where
  noEdit job hjob heq := by
    obtain ⟨run, hrun, -⟩ := h.editOf job hjob _ heq
    exact absurd hrun (by simp)
  noCall c hc heq := by
    obtain ⟨run, hrun, -⟩ := h.callOf c hc _ heq
    exact absurd hrun (by simp)

theorem Jobs.push
    (hfree : Free jobs calls i) (hget : runs[i]? = some run) (hof : edit.Of i run) :
    Jobs known runs (jobs ++ [(edit, some i)]) calls where
  editOf job hjob j hj := by
    rcases List.mem_append.1 hjob with hjob | hjob
    · exact h.editOf job hjob j hj
    obtain rfl := List.mem_singleton.1 hjob
    cases hj
    exact ⟨run, hget, hof⟩
  drops job hjob hnone := by
    rcases List.mem_append.1 hjob with hjob | hjob
    · exact h.drops job hjob hnone
    · obtain rfl := List.mem_singleton.1 hjob
      exact absurd hnone (by simp)
  callOf := h.callOf
  untracks := h.untracks
  oneEdit := by
    rw [List.filterMap_append, List.nodup_append]
    refine ⟨h.oneEdit, by simp, ?_⟩
    intro a ha b hb hab
    obtain ⟨job, hjob, hja⟩ := List.mem_filterMap.1 ha
    have hbi : b = i := by simpa using hb
    exact hfree.noEdit job hjob (by rw [hja, hab, hbi])
  oneCall := h.oneCall

theorem Jobs.drop {name : String} (hknown : known name = false) :
    Jobs known runs (jobs ++ [(.forget name, none)]) calls where
  editOf job hjob j hj := by
    rcases List.mem_append.1 hjob with hjob | hjob
    · exact h.editOf job hjob j hj
    · obtain rfl := List.mem_singleton.1 hjob
      exact absurd hj (by simp)
  drops job hjob hnone := by
    rcases List.mem_append.1 hjob with hjob | hjob
    · exact h.drops job hjob hnone
    · obtain rfl := List.mem_singleton.1 hjob
      exact ⟨name, rfl, hknown⟩
  callOf := h.callOf
  untracks := h.untracks
  oneEdit := by
    simpa using h.oneEdit
  oneCall := h.oneCall

theorem Jobs.call {tracks : Bool}
    (hfree : Free jobs calls i) (hget : runs[i]? = some run)
    (hphase : run.phase = LivenessCall.phase ⟨tracks, some i⟩) :
    Jobs known runs jobs (calls ++ [⟨tracks, some i⟩]) where
  editOf := h.editOf
  drops := h.drops
  callOf c hc j hj := by
    rcases List.mem_append.1 hc with hc | hc
    · exact h.callOf c hc j hj
    obtain rfl := List.mem_singleton.1 hc
    cases hj
    exact ⟨run, hget, hphase⟩
  untracks c hc hnone := by
    rcases List.mem_append.1 hc with hc | hc
    · exact h.untracks c hc hnone
    · obtain rfl := List.mem_singleton.1 hc
      exact absurd hnone (by simp)
  oneEdit := h.oneEdit
  oneCall := by
    rw [List.filterMap_append, List.nodup_append]
    refine ⟨h.oneCall, by simp, ?_⟩
    intro a ha b hb hab
    obtain ⟨c, hc, hca⟩ := List.mem_filterMap.1 ha
    have hbi : b = i := by simpa using hb
    exact hfree.noCall c hc (by rw [hca, hab, hbi])

theorem Jobs.callNone : Jobs known runs jobs (calls ++ [⟨false, none⟩]) where
  editOf := h.editOf
  drops := h.drops
  callOf c hc j hj := by
    rcases List.mem_append.1 hc with hc | hc
    · exact h.callOf c hc j hj
    · obtain rfl := List.mem_singleton.1 hc
      exact absurd hj (by simp)
  untracks c hc hnone := by
    rcases List.mem_append.1 hc with hc | hc
    · exact h.untracks c hc hnone
    · obtain rfl := List.mem_singleton.1 hc
      rfl
  oneEdit := h.oneEdit
  oneCall := by
    simpa using h.oneCall

end

/-! ## The single-flight gate -/

/-- `#tasks` holds the reserved runs, the keep-alive count counts them, and a run that is
not over is still to settle. -/
structure Gate (runs : List TaskRun) (tasks : JsMap String Nat) (settling : List Nat)
    (keepAlive : Int) : Prop where
  owner : ∀ name i, tasks.get name = some i ↔
    ∃ run : TaskRun, runs[i]? = some run ∧ run.name = name ∧ run.phase.reserved = true
  count : keepAlive = (runs.countP (·.phase.reserved) : Nat)
  unsettled : ∀ (i : Nat) (run : TaskRun), runs[i]? = some run →
    (i ∈ settling ↔ run.phase.isOver = false)
  bound : ∀ i ∈ settling, i < runs.length

variable {tasks : JsMap String Nat} {settling : List Nat} {keepAlive : Int} {i : Nat}
  {run : TaskRun}

section

variable (h : Gate runs tasks settling keepAlive) (hget : runs[i]? = some run)
include h hget

theorem Gate.get (hres : run.phase.reserved = true) : tasks.get run.name = some i :=
  (h.owner _ _).2 ⟨run, hget, rfl, hres⟩

/-- Two reserved runs of one name are the same run. -/
theorem Gate.unique {j : Nat} {run' : TaskRun} (hget' : runs[j]? = some run')
    (hres : run.phase.reserved = true) (hres' : run'.phase.reserved = true)
    (hname : run.name = run'.name) : i = j := by
  have hi := h.get hget hres
  have hj := h.get hget' hres'
  rw [hname, hj, Option.some.injEq] at hi
  exact hi.symm

/-- A run goes on, and stays reserved where it was. -/
theorem Gate.modify
    (hname : (f run).name = run.name) (hres : (f run).phase.reserved = run.phase.reserved)
    (hover : (f run).phase.isOver = run.phase.isOver) :
    Gate (runs.modify i f) tasks settling keepAlive where
  owner name j := by
    rw [h.owner]
    by_cases hj : j = i
    · subst hj
      rw [modify_get_self f hget, hget]
      simp [hname, hres]
    · rw [modify_get_other f hj]
  count := by
    have := countP_modify_add (·.phase.reserved) (f := f) hget
    rw [h.count]
    rw [hres] at this
    omega
  unsettled j x hx := by
    obtain ⟨-, hx⟩ | ⟨old, rfl, hold, rfl⟩ := (of_modify_get hx).symm
    · exact h.unsettled j x hx
    · obtain rfl : run = old := Option.some.inj (hget.symm.trans hold)
      rw [h.unsettled j run hget, hover]
  bound j hj := by
    rw [List.length_modify]
    exact h.bound j hj

/-- `#release`, with the phase that comes after. -/
theorem Gate.leave (hres : run.phase.reserved = true) (hres' : (f run).phase.reserved = false)
    (hover : (f run).phase.isOver = false) :
    Gate (runs.modify i f) (tasks.erase run.name) settling (keepAlive - 1) where
  owner name j := by
    rw [JsMap.get_erase]
    by_cases hj : j = i
    · subst hj
      rw [modify_get_self f hget]
      constructor
      · intro hsome
        split at hsome
        · exact absurd hsome (by simp)
        rename_i hne
        obtain ⟨x, hx, hxname, -⟩ := (h.owner _ _).1 hsome
        rw [hget, Option.some.injEq] at hx
        exact absurd (hx ▸ hxname).symm hne
      · rintro ⟨x, hx, -, hxres⟩
        rw [Option.some.injEq] at hx
        rw [← hx, hres'] at hxres
        exact absurd hxres (by simp)
    · rw [modify_get_other f hj, ← h.owner]
      split
      · rename_i heq
        subst heq
        rw [h.get hget hres]
        simp [Ne.symm hj]
      · rfl
  count := by
    have := countP_modify_add (·.phase.reserved) (f := f) hget
    rw [h.count]
    simp only [hres, hres', if_pos] at this
    simp at this
    omega
  unsettled j x hx := by
    obtain ⟨-, hx⟩ | ⟨old, rfl, hold, rfl⟩ := (of_modify_get hx).symm
    · exact h.unsettled j x hx
    obtain rfl : run = old := Option.some.inj (hget.symm.trans hold)
    have hlive : run.phase.isOver = false := by
      revert hres
      cases run.phase <;> simp [TaskPhase.reserved, TaskPhase.isOver]
    rw [h.unsettled j run hget, hover, hlive]
  bound j hj := by
    rw [List.length_modify]
    exact h.bound j hj

/-- `#settle`, of a run that is no longer reserved. -/
theorem Gate.settle (hres : run.phase.reserved = false) (hres' : (f run).phase.reserved = false)
    (hover : (f run).phase.isOver = true) :
    Gate (runs.modify i f) tasks (settling.filter (· ≠ i)) keepAlive where
  owner name j := by
    rw [h.owner]
    by_cases hj : j = i
    · subst hj
      rw [modify_get_self f hget, hget]
      simp [hres, hres']
    · rw [modify_get_other f hj]
  count := by
    have := countP_modify_add (·.phase.reserved) (f := f) hget
    rw [h.count]
    rw [hres, hres'] at this
    omega
  unsettled j x hx := by
    rw [List.mem_filter, decide_eq_true_iff]
    obtain ⟨hne, hx⟩ | ⟨old, rfl, hold, rfl⟩ := (of_modify_get hx).symm
    · rw [h.unsettled j x hx]
      exact and_iff_left hne
    · obtain rfl : run = old := Option.some.inj (hget.symm.trans hold)
      simp [hover]
  bound j hj := by
    rw [List.length_modify]
    exact h.bound j (List.mem_filter.1 hj).1

end

/-- `#reserve`. -/
theorem Gate.reserve (h : Gate runs tasks settling keepAlive) (hfree : tasks.get run.name = none)
    (hres : run.phase.reserved = true) :
    Gate (runs ++ [run]) (tasks.set run.name runs.length) (settling ++ [runs.length])
      (keepAlive + 1) where
  owner name j := by
    rw [JsMap.get_set]
    constructor
    · intro hsome
      split at hsome
      · rename_i heq
        rw [Option.some.injEq] at hsome
        subst hsome
        exact ⟨run, by simp, heq.symm, hres⟩
      · obtain ⟨x, hx, hrest⟩ := (h.owner _ _).1 hsome
        exact ⟨x, append_get run hx, hrest⟩
    · rintro ⟨x, hx, rfl, hxres⟩
      obtain ⟨-, hx⟩ | ⟨rfl, rfl⟩ := (of_append_get hx).symm
      · have hold := h.get hx hxres
        rw [if_neg, hold]
        intro heq
        rw [heq, hfree] at hold
        exact absurd hold (by simp)
      · rw [if_pos rfl]
  count := by
    rw [h.count, List.countP_append, List.countP_singleton, if_pos hres]
    omega
  unsettled j x hx := by
    have hlive : run.phase.isOver = false := by
      revert hres
      cases run.phase <;> simp [TaskPhase.reserved, TaskPhase.isOver]
    rw [List.mem_append, List.mem_singleton]
    obtain ⟨-, hx⟩ | ⟨rfl, rfl⟩ := (of_append_get hx).symm
    · have hlt : j < runs.length := (List.getElem?_eq_some_iff.1 hx).1
      rw [h.unsettled j x hx]
      exact or_iff_left (by omega)
    · simp [hlive]
  bound j hj := by
    rw [List.length_append, List.length_singleton]
    rcases List.mem_append.1 hj with hj | hj
    · have := h.bound j hj
      omega
    · rw [List.mem_singleton] at hj
      omega

/-! ## The order of the edits -/

/-- No edit can follow one that writes an entry of its name, and none is left for a run whose
entry is to stay. -/
structure Order (runs : List TaskRun) (jobs : List TaskJob) (tasks : JsMap String Nat)
    (aborted : Bool) : Prop where
  behind : jobs.Pairwise fun a b => a.1.writes = true → b.1.name ≠ a.1.name
  clear : ∀ (i : Nat) (run : TaskRun), runs[i]? = some run → run.phase.keeps = true →
    ∀ job ∈ jobs, job.1.name ≠ run.name
  gone : ∀ (i : Nat) (run : TaskRun), runs[i]? = some run → run.phase = .over_ .interrupted →
    aborted = true ∧ tasks.get run.name = none
  flagged : ∀ (i : Nat) (run : TaskRun), runs[i]? = some run →
    run.aborted = some .deactivated → aborted = true

variable {aborted : Bool}

theorem Order.pop (h : Order runs (job :: jobs) tasks aborted) : Order runs jobs tasks aborted where
  behind := (List.pairwise_cons.1 h.behind).2
  clear i run hget hkeeps job hjob := h.clear i run hget hkeeps job (List.mem_cons_of_mem _ hjob)
  gone := h.gone
  flagged := h.flagged

/-- Behind an edit that writes an entry there is none of its name. -/
theorem Order.last (h : Order runs (job :: jobs) tasks aborted) (hwrites : job.1.writes = true) :
    ∀ other ∈ jobs, other.1.name ≠ job.1.name :=
  fun other hother => (List.pairwise_cons.1 h.behind).1 other hother hwrites

/-- An edit that is still to write an entry belongs to the run that `#tasks` holds. -/
theorem Jobs.holder (h : Jobs known runs jobs calls) (hgate : Gate runs tasks settling keepAlive)
    (hjob : job ∈ jobs) (hwrites : job.1.writes = true) :
    ∃ j, job.2 = some j ∧ tasks.get job.1.name = some j := by
  cases hrun : job.2 with
  | none =>
    obtain ⟨name, heq, -⟩ := h.drops job hjob hrun
    rw [heq] at hwrites
    exact absurd hwrites (by simp [LedgerEdit.writes])
  | some j =>
    obtain ⟨run, hget, hof⟩ := h.editOf job hjob j hrun
    refine ⟨j, rfl, ?_⟩
    rw [hof.1]
    exact hgate.get hget (hof.reserved hwrites)

/-- The one run whose entry is to stay under a name that `#tasks` holds is the one it holds. -/
theorem Order.keeper (h : Order runs jobs tasks aborted) (hgate : Gate runs tasks settling keepAlive)
    (hget : runs[i]? = some run) (hkeeps : run.phase.keeps = true) {k : Nat}
    (hheld : tasks.get run.name = some k) : i = k := by
  rcases TaskPhase.reserved_of_keeps hkeeps with hres | hphase
  · rw [hgate.get hget hres, Option.some.injEq] at hheld
    exact hheld
  · rw [(h.gone i run hget hphase).2] at hheld
    exact absurd hheld (by simp)

/-- No entry is to stay under a name that `#tasks` does not hold, while no signal is aborted. -/
theorem Order.keeper_none (h : Order runs jobs tasks false)
    (hgate : Gate runs tasks settling keepAlive) (hget : runs[i]? = some run)
    (hfree : tasks.get run.name = none) : run.phase.keeps = false := by
  cases hkeeps : run.phase.keeps with
  | false => rfl
  | true =>
    rcases TaskPhase.reserved_of_keeps hkeeps with hres | hphase
    · rw [hgate.get hget hres] at hfree
      exact absurd hfree (by simp)
    · exact absurd (h.gone i run hget hphase).1 (by simp)

theorem Order.modify (h : Order runs jobs tasks aborted) (hget : runs[i]? = some run)
    (hname : (f run).name = run.name)
    (hclear : (f run).phase.keeps = true → ∀ job ∈ jobs, job.1.name ≠ run.name)
    (hgone : (f run).phase = .over_ .interrupted → aborted = true ∧ tasks.get run.name = none)
    (hflag : (f run).aborted = some .deactivated → aborted = true) :
    Order (runs.modify i f) jobs tasks aborted where
  behind := h.behind
  clear j x hx := by
    obtain ⟨-, hx⟩ | ⟨old, rfl, hold, rfl⟩ := (of_modify_get hx).symm
    · exact h.clear j x hx
    obtain rfl : run = old := Option.some.inj (hget.symm.trans hold)
    rw [hname]
    exact hclear
  gone j x hx := by
    obtain ⟨-, hx⟩ | ⟨old, rfl, hold, rfl⟩ := (of_modify_get hx).symm
    · exact h.gone j x hx
    obtain rfl : run = old := Option.some.inj (hget.symm.trans hold)
    rw [hname]
    exact hgone
  flagged j x hx := by
    obtain ⟨-, hx⟩ | ⟨old, rfl, hold, rfl⟩ := (of_modify_get hx).symm
    · exact h.flagged j x hx
    · obtain rfl : run = old := Option.some.inj (hget.symm.trans hold)
      exact hflag

theorem Order.erase (h : Order runs jobs tasks aborted) (name : String) :
    Order runs jobs (tasks.erase name) aborted where
  behind := h.behind
  clear := h.clear
  gone i run hget hphase := by
    refine ⟨(h.gone i run hget hphase).1, ?_⟩
    rw [JsMap.get_erase]
    split
    · rfl
    · exact (h.gone i run hget hphase).2
  flagged := h.flagged

theorem Order.push (h : Order runs jobs tasks aborted)
    (hbehind : ∀ other ∈ jobs, other.1.writes = true → job.1.name ≠ other.1.name)
    (hclear : ∀ (i : Nat) (run : TaskRun), runs[i]? = some run → run.phase.keeps = true →
      job.1.name ≠ run.name) :
    Order runs (jobs ++ [job]) tasks aborted where
  behind := by
    rw [List.pairwise_append]
    refine ⟨h.behind, List.pairwise_singleton _ _, ?_⟩
    intro other hother x hx
    rw [List.mem_singleton.1 hx]
    exact hbehind other hother
  clear i run hget hkeeps x hx := by
    rcases List.mem_append.1 hx with hx | hx
    · exact h.clear i run hget hkeeps x hx
    · rw [List.mem_singleton.1 hx]
      exact hclear i run hget hkeeps
  gone := h.gone
  flagged := h.flagged

theorem Order.reserve (h : Order runs jobs tasks false) (hkeeps : run.phase.keeps = false)
    (hflag : run.aborted = none) (name : String) (k : Nat) :
    Order (runs ++ [run]) jobs (tasks.set name k) false where
  behind := h.behind
  clear j x hx hxkeeps := by
    obtain ⟨-, hx⟩ | ⟨-, rfl⟩ := (of_append_get hx).symm
    · exact h.clear j x hx hxkeeps
    · rw [hkeeps] at hxkeeps
      exact absurd hxkeeps (by simp)
  gone j x hx hphase := by
    obtain ⟨-, hx⟩ | ⟨-, rfl⟩ := (of_append_get hx).symm
    · exact absurd (h.gone j x hx hphase).1 (by simp)
    · rw [hphase] at hkeeps
      exact absurd hkeeps (by simp [TaskPhase.keeps])
  flagged j x hx hxflag := by
    obtain ⟨-, hx⟩ | ⟨-, rfl⟩ := (of_append_get hx).symm
    · exact h.flagged j x hx hxflag
    · rw [hflag] at hxflag
      exact absurd hxflag (by simp)

end Tasks

end SigxActors.Host
