/-
  Host/TaskEntries.lean --- the ledger entries of the task runs, and task liveness.

  Who an entry belongs to and which entries are there, along the edits of the
  chain; and that a start which has resolved is tracked until its body has settled.
-/
import SigxActors.Host.TaskJobs

set_option autoImplicit false

namespace SigxActors.Host

open SigxActors.Js SigxActors.Storage

namespace Tasks

/-! ## The entries -/

structure Entries (runs : List TaskRun) (jobs : List TaskJob) (ledger : TaskLedger) : Prop where
  /-- A run that was started here has the entry it wrote. -/
  fresh : ∀ (i : Nat) (run : TaskRun), runs[i]? = some run →
    run.phase = .tracking ∨ run.phase = .running → run.restarts = 0 →
      ∃ e, ledger.get run.name = some e ∧ e.run = some i
  entered : ∀ (i : Nat) (run : TaskRun), runs[i]? = some run → run.phase.underWay = true →
    run.entered = true → (ledger.get run.name).isSome
  owner : ∀ (name : String) (e : TaskLedgerEntry) (i : Nat), ledger.get name = some e →
    e.run = some i → ∃ run : TaskRun, runs[i]? = some run ∧ run.name = name ∧
      run.phase ≠ .over_ (.rejected true) ∧
      (run.phase = .starting ∨ run.phase = .tracking →
        e.startedAt = run.startedAt ∧ e.restarts = 0)
  back : ∀ (name : String) (startedAt i : Nat), (LedgerEdit.takeBack name startedAt, some i) ∈ jobs →
    ∀ e, ledger.get name = some e → e.run = some i → e.startedAt = startedAt ∧ e.restarts = 0

variable {known : String → Bool} {runs : List TaskRun} {jobs : List TaskJob}
  {calls : List LivenessCall} {tasks : JsMap String Nat} {settling : List Nat} {keepAlive : Int}
  {aborted tracked : Bool} {ledger : TaskLedger} {starts : List StartCall} {i : Nat}
  {run : TaskRun}

theorem Entries.modify (h : Entries runs jobs ledger) (hget : runs[i]? = some run)
    {f : TaskRun → TaskRun} (hname : (f run).name = run.name)
    (hfresh : (f run).phase = .tracking ∨ (f run).phase = .running → (f run).restarts = 0 →
      ∃ e, ledger.get run.name = some e ∧ e.run = some i)
    (hentered : (f run).phase.underWay = true → (f run).entered = true →
      (ledger.get run.name).isSome)
    (howner : ∀ e, ledger.get run.name = some e → e.run = some i →
      (f run).phase ≠ .over_ (.rejected true) ∧
      ((f run).phase = .starting ∨ (f run).phase = .tracking →
        e.startedAt = (f run).startedAt ∧ e.restarts = 0)) :
    Entries (runs.modify i f) jobs ledger where
  fresh j x hx := by
    obtain ⟨-, hx⟩ | ⟨old, rfl, hold, rfl⟩ := (of_modify_get hx).symm
    · exact h.fresh j x hx
    obtain rfl : run = old := Option.some.inj (hget.symm.trans hold)
    rw [hname]
    exact hfresh
  entered j x hx := by
    obtain ⟨-, hx⟩ | ⟨old, rfl, hold, rfl⟩ := (of_modify_get hx).symm
    · exact h.entered j x hx
    obtain rfl : run = old := Option.some.inj (hget.symm.trans hold)
    rw [hname]
    exact hentered
  owner name e j he hej := by
    obtain ⟨x, hx, hxname, hxphase⟩ := h.owner name e j he hej
    by_cases hj : j = i
    · subst hj
      obtain rfl : run = x := Option.some.inj (hget.symm.trans hx)
      subst hxname
      exact ⟨f run, modify_get_self f hget, hname, howner e he hej⟩
    · exact ⟨x, (modify_get_other f hj).trans hx, hxname, hxphase⟩
  back := h.back

theorem Entries.concat (h : Entries runs jobs ledger)
    (hfresh : ¬ (run.phase = .tracking ∨ run.phase = .running))
    (hentered : run.phase.underWay = false) : Entries (runs ++ [run]) jobs ledger where
  fresh j x hx hphase := by
    obtain ⟨-, hx⟩ | ⟨-, rfl⟩ := (of_append_get hx).symm
    · exact h.fresh j x hx hphase
    · exact absurd hphase hfresh
  entered j x hx hphase := by
    obtain ⟨-, hx⟩ | ⟨-, rfl⟩ := (of_append_get hx).symm
    · exact h.entered j x hx hphase
    · rw [hentered] at hphase
      exact absurd hphase (by simp)
  owner name e j he hej :=
    (h.owner name e j he hej).imp fun _ hx => ⟨append_get run hx.1, hx.2⟩
  back := h.back

theorem Entries.pop {job : TaskJob} (h : Entries runs (job :: jobs) ledger) :
    Entries runs jobs ledger where
  fresh := h.fresh
  entered := h.entered
  owner := h.owner
  back name startedAt i hmem := h.back name startedAt i (List.mem_cons_of_mem _ hmem)

theorem Entries.push (h : Entries runs jobs ledger) {job : TaskJob}
    (hback : ∀ name startedAt i, job = (.takeBack name startedAt, some i) →
      ∀ e, ledger.get name = some e → e.run = some i → e.startedAt = startedAt ∧ e.restarts = 0) :
    Entries runs (jobs ++ [job]) ledger where
  fresh := h.fresh
  entered := h.entered
  owner := h.owner
  back name startedAt i hmem := by
    rcases List.mem_append.1 hmem with hmem | hmem
    · exact h.back name startedAt i hmem
    · exact hback name startedAt i (List.mem_singleton.1 hmem).symm

/-! ## What an edit changes -/

variable {name : String}

theorem get_apply_of_ne (edit : LedgerEdit) (ledger : TaskLedger) (h : name ≠ edit.name) :
    (edit.apply ledger).get name = ledger.get name := by
  cases edit with
  | enter => exact JsMap.get_assign_of_ne _ _ h
  | restart other restarts =>
    simp only [LedgerEdit.apply]
    split
    · exact (JsMap.get_set _ _ _ _).trans (if_neg h)
    · rfl
  | takeBack other startedAt =>
    simp only [LedgerEdit.apply]
    split
    · split
      · exact (JsMap.get_erase _ _ _).trans (if_neg h)
      · rfl
    · rfl
  | forget => exact (JsMap.get_erase _ _ _).trans (if_neg h)

/-- What is under the name of an edit was there, or was put there by it. -/
theorem get_apply_cases {edit : LedgerEdit} {ledger : TaskLedger} {e : TaskLedgerEntry}
    (h : (edit.apply ledger).get name = some e) :
    ledger.get name = some e ∨ edit = .enter name e ∨
      ∃ p restarts, edit = .restart name restarts ∧ ledger.get name = some p ∧
        e = { p with restarts := restarts } := by
  by_cases hname : name = edit.name
  · cases edit with
    | enter other entry =>
      subst hname
      rw [LedgerEdit.apply, JsMap.assign] at h
      split at h
      · exact Or.inl h
      · rw [JsMap.get_set_self, Option.some.injEq] at h
        exact Or.inr (Or.inl (by rw [h]))
    | restart other restarts =>
      subst hname
      simp only [LedgerEdit.apply] at h
      split at h
      · rename_i p hp
        rw [JsMap.get_set_self, Option.some.injEq] at h
        exact Or.inr (Or.inr ⟨p, restarts, rfl, hp, h.symm⟩)
      · exact Or.inl h
    | takeBack other startedAt =>
      simp only [LedgerEdit.apply] at h
      split at h
      · split at h
        · rw [JsMap.get_erase] at h
          split at h
          · exact absurd h (by simp)
          · exact Or.inl h
        · exact Or.inl h
      · exact Or.inl h
    | forget other =>
      rw [LedgerEdit.apply, JsMap.get_erase] at h
      split at h
      · exact absurd h (by simp)
      · exact Or.inl h
  · rw [get_apply_of_ne edit ledger hname] at h
    exact Or.inl h

/-- The first edit of the chain has been carried out. -/
theorem Entries.edited {edit : LedgerEdit} {r : Option Nat}
    (h : Entries runs ((edit, r) :: jobs) ledger)
    (hjobs : Jobs known runs ((edit, r) :: jobs) calls) (hgate : Gate runs tasks settling keepAlive)
    (horder : Order runs ((edit, r) :: jobs) tasks aborted) :
    Entries runs jobs (edit.apply ledger) where
  fresh i run hget hphase hzero := by
    have hkeeps : run.phase.keeps = true := by
      rcases hphase with hphase | hphase <;> rw [hphase] <;> rfl
    rw [get_apply_of_ne _ _ (horder.clear i run hget hkeeps _ (List.mem_cons_self ..)).symm]
    exact h.fresh i run hget hphase hzero
  entered i run hget hphase := by
    rw [get_apply_of_ne _ _ (horder.clear i run hget (TaskPhase.keeps_of_underWay hphase) _
      (List.mem_cons_self ..)).symm]
    exact h.entered i run hget hphase
  owner name e i he hei := by
    rcases get_apply_cases he with hold | rfl | ⟨p, restarts, rfl, hp, rfl⟩
    · exact h.owner name e i hold hei
    · -- the entry that a start writes names its own run
      obtain ⟨j, hj, -⟩ := hjobs.holder hgate (List.mem_cons_self ..) rfl
      obtain rfl : r = some j := hj
      obtain ⟨run, hget, hname, hphase, hat_, hzero, hrun⟩ :=
        hjobs.editOf _ (List.mem_cons_self ..) j rfl
      rw [hrun, Option.some.injEq] at hei
      subst hei
      exact ⟨run, hget, hname.symm, by rw [hphase]; simp, fun _ => ⟨hat_, hzero⟩⟩
    · -- no other run is reserved under the name of a run that is resumed
      obtain ⟨run, hget, hname, hne, -⟩ := h.owner name p i hp hei
      refine ⟨run, hget, hname, hne, fun hphase => ?_⟩
      obtain ⟨j, hj, hheld⟩ := hjobs.holder hgate (List.mem_cons_self ..) rfl
      obtain rfl : r = some j := hj
      obtain ⟨other, hother, honame, hresuming⟩ := hjobs.editOf _ (List.mem_cons_self ..) j rfl
      have hsame : i = j := hgate.unique hget hother
        (by rcases hphase with hphase | hphase <;> rw [hphase] <;> rfl)
        (by rw [hresuming]; rfl) (hname.trans honame)
      subst hsame
      obtain rfl : run = other := Option.some.inj (hget.symm.trans hother)
      rw [hresuming] at hphase
      exact absurd hphase (by simp)
  back name startedAt i hmem e he hei := by
    rcases get_apply_cases he with hold | rfl | ⟨p, restarts, rfl, -, rfl⟩
    · exact h.back name startedAt i (List.mem_cons_of_mem _ hmem) e hold hei
    · have hne := horder.last rfl _ hmem
      exact absurd rfl hne
    · have hne := horder.last rfl _ hmem
      exact absurd rfl hne

/-- A record that is written under names that no run has. -/
theorem Entries.foreign (h : Entries runs jobs ledger) (hjobs : Jobs known runs jobs calls)
    {ledger' : TaskLedger} (hother : ∀ other, other ≠ name → ledger'.get other = ledger.get other)
    (hrun : ∀ e, ledger'.get name = some e → e.run = none ∨ ledger.get name = some e)
    (hname : ∀ run ∈ runs, run.name ≠ name) : Entries runs jobs ledger' where
  fresh i run hget := by
    rw [hother _ (hname run (List.mem_of_getElem? hget))]
    exact h.fresh i run hget
  entered i run hget := by
    rw [hother _ (hname run (List.mem_of_getElem? hget))]
    exact h.entered i run hget
  owner other e i he hei := by
    by_cases heq : other = name
    · subst heq
      rcases hrun e he with hnone | hold
      · rw [hnone] at hei
        exact absurd hei (by simp)
      · exact h.owner other e i hold hei
    · rw [hother _ heq] at he
      exact h.owner other e i he hei
  back other startedAt i hmem := by
    obtain ⟨run, hget, hof, -⟩ := hjobs.editOf _ hmem i rfl
    have hne : other ≠ name := by
      rintro rfl
      exact hname run (List.mem_of_getElem? hget) hof.symm
    rw [hother _ hne]
    exact h.back other startedAt i hmem

/-! ## Task liveness -/

structure Live (runs : List TaskRun) (starts : List StartCall) (ledger : TaskLedger)
    (tracked : Bool) (calls : List LivenessCall) : Prop where
  queue : calls.Pairwise fun a b => a.tracks = true → b.tracks = true
  held : ∀ call ∈ starts, call.outcome = some true → ∃ run : TaskRun, runs[call.run]? = some run ∧
    (run.phase.wound = true ∨ run.phase.underWay = true ∧ (ledger.get run.name).isSome ∧
      tracked = true ∧ ∀ c ∈ calls, c.tracks = true)

section

variable (h : Live runs starts ledger tracked calls)
include h

theorem Live.modify (hget : runs[i]? = some run)
    {f : TaskRun → TaskRun} (hname : (f run).name = run.name)
    (hwound : run.phase.wound = true → (f run).phase.wound = true)
    (hunder : run.phase.underWay = true →
      (f run).phase.wound = true ∨ (f run).phase.underWay = true) :
    Live (runs.modify i f) starts ledger tracked calls where
  queue := h.queue
  held call hcall hok := by
    obtain ⟨x, hx, hphase⟩ := h.held call hcall hok
    by_cases hj : call.run = i
    · rw [hj, hget, Option.some.injEq] at hx
      subst hx
      rw [hj]
      refine ⟨f run, modify_get_self f hget, ?_⟩
      rcases hphase with hphase | ⟨hphase, hrest⟩
      · exact Or.inl (hwound hphase)
      rcases hunder hphase with hphase | hphase
      · exact Or.inl hphase
      · exact Or.inr ⟨hphase, by rw [hname]; exact hrest⟩
    · exact ⟨x, (modify_get_other f hj).trans hx, hphase⟩

theorem Live.concat (run : TaskRun) : Live (runs ++ [run]) starts ledger tracked calls where
  queue := h.queue
  held call hcall hok :=
    (h.held call hcall hok).imp fun _ hx => ⟨append_get run hx.1, hx.2⟩

/-- The ledger has changed, but no entry of a run under way has gone. -/
theorem Live.written {ledger' : TaskLedger}
    (hstays : ∀ (i : Nat) (run : TaskRun), runs[i]? = some run → run.phase.underWay = true →
      (ledger.get run.name).isSome → (ledger'.get run.name).isSome) :
    Live runs starts ledger' tracked calls where
  queue := h.queue
  held call hcall hok := by
    obtain ⟨x, hx, hphase⟩ := h.held call hcall hok
    refine ⟨x, hx, hphase.imp id fun hp => ?_⟩
    exact ⟨hp.1, hstays call.run x hx hp.1 hp.2.1, hp.2.2⟩

theorem Live.start {call : StartCall}
    (hcall : call.outcome = some true → ∃ run : TaskRun, runs[call.run]? = some run ∧
      run.phase.underWay = true ∧ (ledger.get run.name).isSome ∧
      tracked = true ∧ ∀ c ∈ calls, c.tracks = true) :
    Live runs (starts ++ [call]) ledger tracked calls where
  queue := h.queue
  held x hx hok := by
    rcases List.mem_append.1 hx with hx | hx
    · exact h.held x hx hok
    rw [List.mem_singleton] at hx
    subst hx
    exact (hcall hok).imp fun _ hy => ⟨hy.1, Or.inr hy.2⟩

/-- A call that tracks comes last. -/
theorem Live.track (r : Option Nat) : Live runs starts ledger tracked (calls ++ [⟨true, r⟩]) where
  queue := by
    rw [List.pairwise_append]
    refine ⟨h.queue, List.pairwise_singleton _ _, ?_⟩
    intro a _ b hb _
    rw [List.mem_singleton.1 hb]
  held call hcall hok := by
    obtain ⟨x, hx, hphase⟩ := h.held call hcall hok
    refine ⟨x, hx, hphase.imp id fun hp => ⟨hp.1, hp.2.1, hp.2.2.1, fun c hc => ?_⟩⟩
    rcases List.mem_append.1 hc with hc | hc
    · exact hp.2.2.2 c hc
    · rw [List.mem_singleton.1 hc]

/-- So does one that untracks, when the ledger is empty: no run that is tracked has its entry
in it. -/
theorem Live.untrack (r : Option Nat)
    (hempty : ∀ name, ledger.get name = none) (hqueue : ∀ c ∈ calls, c.tracks = false) :
    Live runs starts ledger tracked (calls ++ [⟨false, r⟩]) where
  queue := by
    rw [List.pairwise_append]
    refine ⟨h.queue, List.pairwise_singleton _ _, ?_⟩
    intro a ha b _ htracks
    rw [hqueue a ha] at htracks
    exact absurd htracks (by simp)
  held call hcall hok := by
    obtain ⟨x, hx, hphase⟩ := h.held call hcall hok
    rcases hphase with hphase | ⟨-, hsome, -⟩
    · exact ⟨x, hx, Or.inl hphase⟩
    · rw [hempty] at hsome
      exact absurd hsome (by simp)

end

/-- The first call has settled. -/
theorem Live.settled {c : LivenessCall} (h : Live runs starts ledger tracked (c :: calls))
    {tracked' : Bool} (htracked : tracked' = tracked ∨ tracked' = c.tracks) :
    Live runs starts ledger tracked' calls where
  queue := (List.pairwise_cons.1 h.queue).2
  held call hcall hok := by
    obtain ⟨x, hx, hphase⟩ := h.held call hcall hok
    refine ⟨x, hx, hphase.imp id fun hp => ⟨hp.1, hp.2.1, ?_, fun c hc => ?_⟩⟩
    · rcases htracked with rfl | rfl
      · exact hp.2.2.1
      · exact hp.2.2.2 c (List.mem_cons_self ..)
    · exact hp.2.2.2 c (List.mem_cons_of_mem _ hc)

/-- A start has been answered. -/
theorem Live.answer (h : Live runs starts ledger tracked calls) {ok : Bool}
    (hok : ok = true → ∃ run : TaskRun, runs[i]? = some run ∧ run.phase.underWay = true ∧
      (ledger.get run.name).isSome ∧ tracked = true ∧ ∀ c ∈ calls, c.tracks = true) :
    Live runs (starts.map fun call =>
      if call.run = i ∧ call.outcome = none then { call with outcome := some ok } else call)
      ledger tracked calls where
  queue := h.queue
  held call hcall hcallok := by
    obtain ⟨old, hold, rfl⟩ := List.mem_map.1 hcall
    by_cases hwaits : old.run = i ∧ old.outcome = none
    · rw [if_pos hwaits] at hcallok ⊢
      obtain ⟨run, hget, hrest⟩ := hok (Option.some.inj hcallok)
      exact ⟨run, hwaits.1 ▸ hget, Or.inr hrest⟩
    · rw [if_neg hwaits] at hcallok ⊢
      exact h.held old hold hcallok

end Tasks

end SigxActors.Host
