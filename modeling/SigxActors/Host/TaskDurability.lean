/-
  Host/TaskDurability.lean --- a detached task that was started is not lost.

  Source: `packages/actors/src/host/activation.ts` (`#startTask`, `#resumeTask`,
  `#taskBody`), `packages/actors/src/host/tasks.ts`.

  A start that resolves where the name is taken stands for whatever holds it, which
  may be a run whose entry is still being written.  `SafeStart` is the condition on
  the starts; under it every state of a run is `Durable`.
-/
import SigxActors.Host.TaskEntries

set_option autoImplicit false

namespace SigxActors.Host

open SigxActors.Js SigxActors.Storage

namespace Tasks

/-! ## The record -/

/-- The first edit may be saving what it makes of the record, as long as the etag it has loaded
is the current one. -/
structure Written (chain : List Mutation) (stored : Option StoredLedger) (minted : Nat) :
    Prop where
  tail : ∀ m rest, chain = m :: rest → ∀ m' ∈ rest, m'.phase = .loading 1
  head : ∀ m rest, chain = m :: rest → ∀ ledger etag attempt,
    m.phase = .saving ledger etag attempt →
      (etag = stored.map (·.etag) → ledger = m.edit.apply ((stored.map (·.ledger)).getD .empty)) ∧
      (etag = none → ledger = m.edit.apply .empty) ∧ ∀ tag, etag = some tag → tag ≤ minted
  minted : ∀ record, stored = some record → record.etag ≤ minted

variable {chain rest : List Mutation} {stored : Option StoredLedger} {minted : Nat} {m : Mutation}

theorem Written.phase_of_mem (h : Written (m :: rest) stored minted) {m' : Mutation}
    (hmem : m' ∈ rest) : m'.phase = .loading 1 :=
  h.tail m rest rfl m' hmem

/-- What comes after the first edit has not begun, so any record will do. -/
theorem Written.pop (h : Written (m :: rest) stored minted) {stored' : Option StoredLedger}
    {minted' : Nat} (hminted : ∀ record, stored' = some record → record.etag ≤ minted') :
    Written rest stored' minted' where
  tail m' rest' heq x hx := by
    subst heq
    exact h.phase_of_mem (List.mem_cons_of_mem _ hx)
  head m' rest' heq ledger etag attempt hphase := by
    subst heq
    rw [h.phase_of_mem (List.mem_cons_self ..)] at hphase
    exact absurd hphase (by simp)
  minted := hminted

theorem Written.push (h : Written chain stored minted) {m : Mutation}
    (hm : m.phase = .loading 1) : Written (chain ++ [m]) stored minted where
  tail m' rest heq x hx := by
    cases chain with
    | nil =>
      obtain ⟨rfl, rfl⟩ := List.cons.inj heq
      exact absurd hx (by simp)
    | cons first others =>
      obtain ⟨rfl, rfl⟩ := List.cons.inj heq
      rcases List.mem_append.1 hx with hx | hx
      · exact h.phase_of_mem hx
      · rw [List.mem_singleton.1 hx, hm]
  head m' rest heq ledger etag attempt hphase := by
    cases chain with
    | nil =>
      obtain ⟨rfl, rfl⟩ := List.cons.inj heq
      rw [hm] at hphase
      exact absurd hphase (by simp)
    | cons first others =>
      obtain ⟨rfl, rfl⟩ := List.cons.inj heq
      exact h.head _ _ rfl ledger etag attempt hphase
  minted := h.minted

/-- The first edit goes on to another phase. -/
theorem Written.rephase (h : Written (m :: rest) stored minted) {phase : LedgerPhase}
    (hphase : ∀ ledger etag attempt, phase = .saving ledger etag attempt →
      (etag = stored.map (·.etag) → ledger = m.edit.apply ((stored.map (·.ledger)).getD .empty)) ∧
      (etag = none → ledger = m.edit.apply .empty) ∧ ∀ tag, etag = some tag → tag ≤ minted) :
    Written ({ m with phase := phase } :: rest) stored minted where
  tail m' rest' heq x hx := by
    obtain ⟨rfl, rfl⟩ := List.cons.inj heq
    exact h.phase_of_mem hx
  head m' rest' heq := by
    obtain ⟨rfl, rfl⟩ := List.cons.inj heq
    exact hphase
  minted := h.minted

/-- The record that `write` leaves. -/
def writtenRecord (ledger : TaskLedger) (etag : Nat) : Option StoredLedger :=
  if ledger.entries = [] then none else some ⟨ledger, etag⟩

theorem ledger_writtenRecord (ledger : TaskLedger) (etag : Nat) :
    ((writtenRecord ledger etag).map (·.ledger)).getD .empty = ledger := by
  rw [writtenRecord]
  split
  · rename_i hempty
    exact (JsMap.ext_entries hempty).symm
  · rfl

variable {ledger : TaskLedger}

theorem etag_writtenRecord {etag : Nat} {record : StoredLedger}
    (h : writtenRecord ledger etag = some record) : record.etag = etag := by
  rw [writtenRecord] at h
  split at h
  · exact absurd h (by simp)
  · exact (Option.some.inj h) ▸ rfl

/-- Another activation has written the record: the etag that was loaded is not the current one,
or both are none and the ledger is as empty as it was. -/
theorem Written.foreign (h : Written chain stored minted) (ledger : TaskLedger) :
    Written chain (writtenRecord ledger (minted + 1)) (minted + 1) where
  tail := h.tail
  head m rest heq saved etag attempt hphase := by
    obtain ⟨-, hnone, hbound⟩ := h.head m rest heq saved etag attempt hphase
    refine ⟨fun heq => ?_, hnone, fun tag htag => Nat.le_succ_of_le (hbound tag htag)⟩
    cases hrecord : writtenRecord ledger (minted + 1) with
    | none =>
      rw [hrecord] at heq
      exact hnone heq
    | some record =>
      rw [hrecord] at heq
      have := hbound record.etag heq
      have := etag_writtenRecord hrecord
      omega
  minted record hrecord := Nat.le_of_eq (etag_writtenRecord hrecord)

/-! ## The invariant -/

structure Sound (known : String → Bool) (s : Tasks) : Prop where
  runs : RunsSound known s.runs
  jobs : Jobs known s.runs s.jobs s.calls
  gate : Gate s.runs s.tasks s.settling s.keepAlive
  order : Order s.runs s.jobs s.tasks s.aborted
  entries : Entries s.runs s.jobs s.ledger
  live : Live s.runs s.starts s.ledger s.tracked s.calls
  written : Written s.chain s.stored s.minted

variable {known : String → Bool} {s : Tasks} {i : Nat} {run : TaskRun}

theorem jobs_cons (hchain : s.chain = m :: rest) :
    s.jobs = (m.edit, m.run) :: rest.map fun m => (m.edit, m.run) := by
  rw [Tasks.jobs, hchain]
  rfl

/-- The first edit is dropped from the chain. -/
theorem Sound.pop (h : Sound known s) (hchain : s.chain = m :: rest) :
    Sound known { s with chain := rest } where
  runs := h.runs
  jobs := (jobs_cons hchain ▸ h.jobs).pop
  gate := h.gate
  order := (jobs_cons hchain ▸ h.order).pop
  entries := (jobs_cons hchain ▸ h.entries).pop
  live := h.live
  written := (hchain ▸ h.written).pop h.written.minted

/-- The first edit is carried out. -/
theorem Sound.edited (h : Sound known s) (hchain : s.chain = m :: rest)
    {stored : Option StoredLedger} {minted : Nat}
    (hledger : (stored.map (·.ledger)).getD .empty = m.edit.apply s.ledger)
    (hminted : ∀ record, stored = some record → record.etag ≤ minted) :
    Sound known { s with chain := rest, stored := stored, minted := minted } where
  runs := h.runs
  jobs := (jobs_cons hchain ▸ h.jobs).pop
  gate := h.gate
  order := (jobs_cons hchain ▸ h.order).pop
  entries := by
    have hedited := (jobs_cons hchain ▸ h.entries).edited (jobs_cons hchain ▸ h.jobs) h.gate
      (jobs_cons hchain ▸ h.order)
    rw [← hledger] at hedited
    exact hedited
  live := by
    refine h.live.written fun i run hget hunder hsome => ?_
    have hne := (jobs_cons hchain ▸ h.order).clear i run hget (TaskPhase.keeps_of_underWay hunder)
      _ (List.mem_cons_self ..)
    have hget_ := get_apply_of_ne m.edit s.ledger hne.symm
    rw [← hledger] at hget_
    exact hget_ ▸ hsome
  written := (hchain ▸ h.written).pop hminted

/-- What run `i` may turn into. -/
structure Passes (known : String → Bool) (s : Tasks) (i : Nat) (run run' : TaskRun) : Prop where
  name : run'.name = run.name
  flag : run'.aborted = run.aborted
  sound : run'.Sound known
  clear : run'.phase.keeps = true → ∀ job ∈ s.jobs, job.1.name ≠ run.name
  fresh : run'.phase = .tracking ∨ run'.phase = .running → run'.restarts = 0 →
    ∃ e, s.ledger.get run.name = some e ∧ e.run = some i
  entered : run'.phase.underWay = true → run'.entered = true → (s.ledger.get run.name).isSome
  owner : ∀ e, s.ledger.get run.name = some e → e.run = some i →
    run'.phase ≠ .over_ (.rejected true) ∧
    (run'.phase = .starting ∨ run'.phase = .tracking →
      e.startedAt = run'.startedAt ∧ e.restarts = 0)
  wound : run.phase.wound = true → run'.phase.wound = true
  underWay : run.phase.underWay = true → run'.phase.wound = true ∨ run'.phase.underWay = true

/-- Run `i` has gone on; `#tasks` and what goes with it have followed. -/
theorem Sound.passes (h : Sound known s) (hget : s.runs[i]? = some run)
    (hfree : Free s.jobs s.calls i) {f : TaskRun → TaskRun} (hf : Passes known s i run (f run))
    {tasks : JsMap String Nat} {settling : List Nat} {keepAlive : Int}
    (hgate : Gate (s.runs.modify i f) tasks settling keepAlive)
    (htasks : tasks = s.tasks ∨ tasks = s.tasks.erase run.name)
    (hgone : (f run).phase = .over_ .interrupted → s.aborted = true ∧ tasks.get run.name = none) :
    Sound known { s with
      runs := s.runs.modify i f, tasks := tasks, settling := settling, keepAlive := keepAlive } where
  runs := h.runs.modify hget hf.sound
  jobs := h.jobs.modify hfree f
  gate := hgate
  order := by
    have horder : Order s.runs s.jobs tasks s.aborted := by
      rcases htasks with rfl | rfl
      · exact h.order
      · exact h.order.erase _
    exact horder.modify hget hf.name hf.clear hgone
      (fun hflag => h.order.flagged i run hget (hf.flag ▸ hflag))
  entries := h.entries.modify hget hf.name hf.fresh hf.entered hf.owner
  live := h.live.modify hget hf.name hf.wound hf.underWay
  written := h.written

theorem jobs_mutate (s : Tasks) (edit : LedgerEdit) (r : Option Nat) :
    (s.mutate edit r).jobs = s.jobs ++ [(edit, r)] := by
  rw [Tasks.jobs, Tasks.mutate, List.map_append]
  rfl

/-- Run `i` makes an edit, and waits for it. -/
theorem Sound.mutate (h : Sound known s) (hget : s.runs[i]? = some run)
    (hfree : Free s.jobs s.calls i) {edit : LedgerEdit} (hof : edit.Of i run)
    (hheld : s.tasks.get run.name = none ∨ s.tasks.get run.name = some i)
    (hclear : ∀ (k : Nat) (x : TaskRun), s.runs[k]? = some x → x.phase.keeps = true →
      run.name ≠ x.name)
    (hback : ∀ name startedAt, edit = .takeBack name startedAt →
      ∀ e, s.ledger.get name = some e → e.run = some i → e.startedAt = startedAt ∧ e.restarts = 0) :
    Sound known (s.mutate edit (some i)) where
  runs := h.runs
  jobs := by
    rw [jobs_mutate]
    exact h.jobs.push hfree hget hof
  gate := h.gate
  order := by
    rw [jobs_mutate]
    refine h.order.push ?_ (fun k x hx hkeeps => hof.1 ▸ hclear k x hx hkeeps)
    -- an edit that is to write an entry of that name is the run's own
    intro other hother hwrites heq
    obtain ⟨j, hj, hget'⟩ := h.jobs.holder h.gate hother hwrites
    rw [← heq, hof.1] at hget'
    rcases hheld with hheld | hheld
    · rw [hheld] at hget'
      exact absurd hget' (by simp)
    · rw [hheld, Option.some.injEq] at hget'
      exact hfree.noEdit other hother (hget' ▸ hj)
  entries := by
    rw [jobs_mutate]
    refine h.entries.push fun name startedAt j heq => ?_
    obtain ⟨hedit, hj⟩ := Prod.mk.inj heq
    cases hj
    exact hback name startedAt hedit
  live := h.live
  written := h.written.push rfl

theorem release_eq (s : Tasks) (h : s.tasks.get run.name = some i) :
    s.release i run =
      { s with tasks := s.tasks.erase run.name, keepAlive := s.keepAlive - 1 } := by
  rw [Tasks.release, if_pos h]

section

variable (h : Sound known s) (hget : s.runs[i]? = some run)
include h hget

/-- The `catch` block of `#startTask`. -/
theorem Sound.rollBack
    (hphase : run.phase = .starting ∨ run.phase = .tracking) (hfree : Free s.jobs s.calls i) :
    Sound known (s.rollBack i run) := by
  have hres : run.phase.reserved = true := by
    rcases hphase with hphase | hphase <;> rw [hphase] <;> rfl
  have hheld := h.gate.get hget hres
  have hrun := h.runs i run hget
  have hpasses : Passes known s i run { run with phase := .rollingBack } := by
    refine ⟨rfl, rfl, ⟨hrun.known, by simp, by simp, ?_, hrun.plain⟩, by simp [TaskPhase.keeps],
      by simp, by simp [TaskPhase.underWay], by simp, ?_, ?_⟩
    · have := hrun.settles
      rcases hphase with hphase | hphase <;> rw [hphase] at this <;> exact this
    · rcases hphase with hphase | hphase <;> rw [hphase] <;> simp [TaskPhase.wound]
    · rcases hphase with hphase | hphase <;> rw [hphase] <;> simp [TaskPhase.underWay]
  have hleft := h.passes hget hfree (f := fun run => { run with phase := .rollingBack }) hpasses
    (h.gate.leave hget hres rfl rfl) (Or.inr rfl) (by simp)
  rw [Tasks.rollBack, release_eq s hheld]
  refine hleft.mutate (modify_get_self _ hget) hfree ⟨rfl, rfl, rfl⟩
    (Or.inl (JsMap.get_erase_self _ _)) ?_ ?_
  · intro k x hx hkeeps hname
    obtain ⟨hne, hx⟩ | ⟨old, -, -, rfl⟩ := (of_modify_get hx).symm
    · exact hne (h.order.keeper h.gate hx hkeeps (hname ▸ hheld))
    · exact absurd hkeeps (by simp [TaskPhase.keeps])
  · intro name startedAt hedit e he hei
    obtain ⟨rfl, rfl⟩ := LedgerEdit.takeBack.inj hedit
    obtain ⟨x, hx, -, -, howner⟩ := h.entries.owner _ e i he hei
    obtain rfl : run = x := Option.some.inj (hget.symm.trans hx)
    exact howner hphase

/-- `#settle`, of a run that has left `#tasks`. -/
theorem Sound.settle (hfree : Free s.jobs s.calls i) {how : RunEnd}
    (hphase : run.phase = .rollingBack ∧ (∃ b, how = .rejected b) ∨
      (run.phase = .forgetting ∨ run.phase = .untracking) ∧ how = .finished)
    (hback : how = .rejected true → ∀ e, s.ledger.get run.name = some e → e.run ≠ some i) :
    Sound known (s.settle i how) := by
  have hrun := h.runs i run hget
  have hzero : run.settles = 0 := by
    have := hrun.settles
    rcases hphase with ⟨hphase, -⟩ | ⟨hphase | hphase, -⟩ <;> rw [hphase] at this <;> exact this
  have hres : run.phase.reserved = false := by
    rcases hphase with ⟨hphase, -⟩ | ⟨hphase | hphase, -⟩ <;> rw [hphase] <;> rfl
  have hhow : how ≠ .interrupted := by
    rcases hphase with ⟨-, b, rfl⟩ | ⟨-, rfl⟩ <;> simp
  have hpasses : Passes known s i run
      { run with phase := .over_ how, settles := run.settles + 1 } := by
    refine ⟨rfl, rfl, ⟨hrun.known, by simp, by simp, ?_, hrun.plain⟩, ?_, by simp, ?_, ?_, ?_, ?_⟩
    · rw [hzero]
      rfl
    · cases how <;> simp_all [TaskPhase.keeps]
    · cases how <;> simp_all [TaskPhase.underWay]
    · intro e he hei
      refine ⟨fun heq => ?_, by simp⟩
      rw [TaskPhase.over_.injEq] at heq
      exact hback heq e he hei
    · rcases hphase with ⟨hphase, -⟩ | ⟨-, rfl⟩
      · rw [hphase]
        simp [TaskPhase.wound]
      · simp [TaskPhase.wound]
    · rcases hphase with ⟨hphase, -⟩ | ⟨-, rfl⟩
      · rw [hphase]
        simp [TaskPhase.underWay]
      · simp [TaskPhase.wound]
  exact h.passes hget hfree hpasses (h.gate.settle hget hres rfl rfl) (Or.inl rfl)
    (fun heq => absurd (TaskPhase.over_.inj heq) hhow)

/-- `#release` and `#settle`: the body was interrupted, or the run was not resumed. -/
theorem Sound.releaseSettle (hfree : Free s.jobs s.calls i) {how : RunEnd}
    (hphase : run.phase = .running ∧ run.aborted = some .deactivated ∧ how = .interrupted ∨
      run.phase = .resuming ∧ how = .notResumed) :
    Sound known ((s.release i run).settle i how) := by
  have hrun := h.runs i run hget
  have hres : run.phase.reserved = true := by
    rcases hphase with ⟨hphase, -⟩ | ⟨hphase, -⟩ <;> rw [hphase] <;> rfl
  have hzero : run.settles = 0 := by
    have := hrun.settles
    rcases hphase with ⟨hphase, -⟩ | ⟨hphase, -⟩ <;> rw [hphase] at this <;> exact this
  have hheld := h.gate.get hget hres
  have hpasses : Passes known s i run
      { run with phase := .over_ how, settles := run.settles + 1 } := by
    refine ⟨rfl, rfl, ⟨hrun.known, by simp, by simp, ?_, hrun.plain⟩, ?_, by simp, ?_, ?_, ?_, ?_⟩
    · rw [hzero]
      rfl
    · rcases hphase with ⟨hphase, -, rfl⟩ | ⟨-, rfl⟩
      · exact fun _ => h.order.clear i run hget (by rw [hphase]; rfl)
      · simp [TaskPhase.keeps]
    · rcases hphase with ⟨hphase, -, rfl⟩ | ⟨-, rfl⟩
      · exact fun _ => h.entries.entered i run hget (by rw [hphase]; rfl)
      · simp [TaskPhase.underWay]
    · rcases hphase with ⟨-, -, rfl⟩ | ⟨-, rfl⟩ <;> simp
    · rcases hphase with ⟨hphase, -⟩ | ⟨hphase, -⟩ <;> rw [hphase] <;> simp [TaskPhase.wound]
    · rcases hphase with ⟨-, -, rfl⟩ | ⟨hphase, -⟩
      · simp [TaskPhase.underWay]
      · rw [hphase]
        simp [TaskPhase.underWay]
  -- the gate is left first, as if for the write that takes an entry back
  have hleft := h.gate.leave hget hres (f := fun run => { run with phase := .rollingBack }) rfl rfl
  have hgate := hleft.settle (modify_get_self _ hget) rfl
    (f := fun run => { run with phase := .over_ how, settles := run.settles + 1 }) rfl rfl
  rw [List.modify_modify_eq] at hgate
  rw [release_eq s hheld]
  refine h.passes hget hfree hpasses hgate (Or.inr rfl) fun heq => ?_
  obtain rfl := TaskPhase.over_.inj heq
  rcases hphase with ⟨-, hflag, -⟩ | ⟨-, hhow⟩
  · exact ⟨h.order.flagged i run hget hflag, JsMap.get_erase_self _ _⟩
  · exact absurd hhow (by simp)

/-- `#launch`. -/
theorem Sound.launch (hfree : Free s.jobs s.calls i) (hphase : run.phase = .tracking ∨
      run.phase = .resuming ∧ ∀ job ∈ s.jobs, job.1.name ≠ run.name) :
    Sound known (s.launch i) := by
  have hrun := h.runs i run hget
  let run' : TaskRun :=
    { run with phase := .running, entered := (s.ledger.get run.name).isSome }
  have hpasses : Passes known s i run run' := by
    refine ⟨rfl, rfl, ⟨hrun.known, by simp [run'], by simp [run'], ?_, hrun.plain⟩, ?_, ?_, ?_,
      by simp [run'], ?_, ?_⟩
    · have := hrun.settles
      rcases hphase with hphase | ⟨hphase, -⟩ <;> rw [hphase] at this <;> exact this
    · rcases hphase with hphase | ⟨-, hlast⟩
      · exact fun _ => h.order.clear i run hget (by rw [hphase]; rfl)
      · exact fun _ => hlast
    · intro _ hzero
      rcases hphase with hphase | ⟨hphase, -⟩
      · exact h.entries.fresh i run hget (Or.inl hphase) hzero
      · exact absurd hzero (hrun.resumed hphase)
    · exact fun _ hentered => hentered
    · rcases hphase with hphase | ⟨hphase, -⟩ <;> rw [hphase] <;> simp [TaskPhase.wound]
    · rcases hphase with hphase | ⟨hphase, -⟩ <;> rw [hphase] <;> simp [TaskPhase.underWay]
  refine h.passes hget hfree
    (f := fun run => { run with phase := .running, entered := (s.ledger.get run.name).isSome })
    hpasses (h.gate.modify hget rfl ?_ ?_) (Or.inl rfl) (by simp)
  · rcases hphase with hphase | ⟨hphase, -⟩ <;> rw [hphase] <;> rfl
  · rcases hphase with hphase | ⟨hphase, -⟩ <;> rw [hphase] <;> rfl

end

/-- A start is answered: where it resolves, its run is under way. -/
theorem Sound.answer (h : Sound known s) {ok : Bool}
    (hok : ok = true → ∃ run : TaskRun, s.runs[i]? = some run ∧ run.phase.underWay = true ∧
      (s.ledger.get run.name).isSome ∧ s.tracked = true ∧ ∀ c ∈ s.calls, c.tracks = true) :
    Sound known (s.answer i ok) where
  runs := h.runs
  jobs := h.jobs
  gate := h.gate
  order := h.order
  entries := h.entries
  live := h.live.answer hok
  written := h.written

/-! ## An edit has settled -/

/-- What is known of the edit that has just left the chain. -/
structure Popped (known : String → Bool) (s : Tasks) (m : Mutation) : Prop where
  free : ∀ i, m.run = some i → Free s.jobs s.calls i
  run : ∀ i, m.run = some i → ∃ run : TaskRun, s.runs[i]? = some run ∧ m.edit.Of i run
  dropped : m.run = none → ∃ name, m.edit = .forget name
  last : m.edit.writes = true → ∀ job ∈ s.jobs, job.1.name ≠ m.edit.name

section

variable (h : Sound known s)
include h

theorem Sound.popped (hchain : s.chain = m :: rest)
    (stored : Option StoredLedger) (minted : Nat) :
    Popped known { s with chain := rest, stored := stored, minted := minted } m where
  free i hi := by
    have hjobs := jobs_cons hchain ▸ h.jobs
    rw [hi] at hjobs
    exact hjobs.free_of_edit
  run i hi := (jobs_cons hchain ▸ h.jobs).editOf _ (List.mem_cons_self ..) i hi
  dropped hnone := by
    obtain ⟨name, hedit, -⟩ :=
      (jobs_cons hchain ▸ h.jobs).drops _ (List.mem_cons_self ..) hnone
    exact ⟨name, hedit⟩
  last hwrites := (jobs_cons hchain ▸ h.order).last hwrites

/-- While the ledger is empty no run is being tracked. -/
theorem Sound.untracking (hempty : s.ledger.entries = []) :
    (∀ name, s.ledger.get name = none) ∧ ∀ c ∈ s.calls, c.tracks = false := by
  have hnone : ∀ name, s.ledger.get name = none := by
    refine JsMap.get_of_keys_eq_nil ?_
    rw [JsMap.keys, hempty]
    rfl
  refine ⟨hnone, fun c hc => ?_⟩
  cases hrun : c.run with
  | none => exact h.jobs.untracks c hc hrun
  | some i =>
    obtain ⟨run, hget, hphase⟩ := h.jobs.callOf c hc i hrun
    cases htracks : c.tracks with
    | false => rfl
    | true =>
      rw [LivenessCall.phase, htracks, if_pos rfl] at hphase
      obtain ⟨e, he, -⟩ := h.entries.fresh i run hget (Or.inl hphase)
        ((h.runs i run hget).started (Or.inr hphase))
      rw [hnone] at he
      exact absurd he (by simp)

/-- A start has written its entry. -/
theorem Sound.track (hget : s.runs[i]? = some run)
    (hfree : Free s.jobs s.calls i) (hphase : run.phase = .starting)
    (hclear : ∀ job ∈ s.jobs, job.1.name ≠ run.name)
    (hentry : ∃ e, s.ledger.get run.name = some e ∧ e.run = some i) :
    Sound known ((s.modify i fun run => { run with phase := .tracking }).call true (some i)) := by
  have hrun := h.runs i run hget
  have hpasses : Passes known s i run { run with phase := .tracking } := by
    refine ⟨rfl, rfl, ⟨hrun.known, fun _ => hrun.started (Or.inl hphase), by simp, ?_, hrun.plain⟩,
      fun _ => hclear, fun _ _ => hentry, by simp [TaskPhase.underWay], ?_, ?_, ?_⟩
    · have := hrun.settles
      rw [hphase] at this
      exact this
    · intro e he hei
      obtain ⟨x, hx, -, -, howner⟩ := h.entries.owner _ e i he hei
      obtain rfl : run = x := Option.some.inj (hget.symm.trans hx)
      exact ⟨by simp, fun _ => howner (Or.inl hphase)⟩
    · rw [hphase]
      simp [TaskPhase.wound]
    · rw [hphase]
      simp [TaskPhase.underWay]
  have hon := h.passes hget hfree (f := fun run => { run with phase := .tracking }) hpasses
    (h.gate.modify hget rfl (by rw [hphase]; rfl) (by rw [hphase]; rfl)) (Or.inl rfl) (by simp)
  exact
    { hon with
      jobs := hon.jobs.call hfree (modify_get_self _ hget) rfl
      live := hon.live.track _ }

/-- A run has dropped the last entry. -/
theorem Sound.untrack (hget : s.runs[i]? = some run)
    (hfree : Free s.jobs s.calls i) (hphase : run.phase = .forgetting)
    (hempty : s.ledger.entries = []) :
    Sound known ((s.modify i fun run => { run with phase := .untracking }).call false (some i)) := by
  have hrun := h.runs i run hget
  have hpasses : Passes known s i run { run with phase := .untracking } := by
    refine ⟨rfl, rfl, ⟨hrun.known, by simp, by simp, ?_, hrun.plain⟩, by simp [TaskPhase.keeps],
      by simp, by simp [TaskPhase.underWay], by simp, by simp [TaskPhase.wound],
      by simp [TaskPhase.wound]⟩
    have := hrun.settles
    rw [hphase] at this
    exact this
  have hon := h.passes hget hfree (f := fun run => { run with phase := .untracking }) hpasses
    (h.gate.modify hget rfl (by rw [hphase]; rfl) (by rw [hphase]; rfl)) (Or.inl rfl) (by simp)
  obtain ⟨hnone, hqueue⟩ := h.untracking hempty
  exact
    { hon with
      jobs := hon.jobs.call hfree (modify_get_self _ hget) rfl
      live := hon.live.untrack _ hnone hqueue }

/-- What waits for an edit that was carried out goes on. -/
theorem Sound.resolved (hpopped : Popped known s m)
    (henter : ∀ name entry, m.edit = .enter name entry → name ≠ "__proto__" →
      s.ledger.get name = some entry)
    (hback : ∀ name startedAt i, m.edit = .takeBack name startedAt → m.run = some i →
      ∀ e, s.ledger.get name = some e → e.run ≠ some i) :
    Sound known (s.resolved m s.ledger) := by
  obtain ⟨edit, r, phase⟩ := m
  cases r with
  | none =>
    obtain ⟨name, hedit⟩ := hpopped.dropped rfl
    obtain rfl : edit = .forget name := hedit
    simp only [Tasks.resolved]
    split
    · rename_i hempty
      obtain ⟨hnone, hqueue⟩ := h.untracking hempty
      exact { h with jobs := h.jobs.callNone, live := h.live.untrack _ hnone hqueue }
    · exact h
  | some i =>
    obtain ⟨run, hget, hname, hof⟩ := hpopped.run i rfl
    have hfree := hpopped.free i rfl
    cases edit with
    | enter name entry =>
      obtain rfl : name = run.name := hname
      obtain ⟨hphase, -, -, hrun⟩ := hof
      have hsound := h.runs i run hget
      exact h.track hget hfree hphase (hpopped.last rfl)
        ⟨entry, henter _ entry rfl (hsound.plain (hsound.started (Or.inl hphase))), hrun⟩
    | restart name restarts =>
      obtain rfl : name = run.name := hname
      exact h.launch hget hfree (Or.inr ⟨hof, hpopped.last rfl⟩)
    | takeBack name startedAt =>
      obtain rfl : name = run.name := hname
      have hsettled := h.settle hget hfree (Or.inl ⟨hof.1, true, rfl⟩)
        (fun _ => hback _ startedAt i rfl rfl)
      exact hsettled.answer (by simp)
    | forget name =>
      simp only [Tasks.resolved]
      split
      · rename_i hempty
        exact h.untrack hget hfree hof hempty
      · exact h.settle hget hfree (Or.inr ⟨Or.inl hof, rfl⟩) (by simp)

/-- The same when it was rejected. -/
theorem Sound.rejected (hpopped : Popped known s m) : Sound known (s.rejected m) := by
  obtain ⟨edit, r, phase⟩ := m
  cases r with
  | none =>
    obtain ⟨name, hedit⟩ := hpopped.dropped rfl
    obtain rfl : edit = .forget name := hedit
    exact h
  | some i =>
    obtain ⟨run, hget, hname, hof⟩ := hpopped.run i rfl
    have hfree := hpopped.free i rfl
    cases edit with
    | enter name entry =>
      simp only [Tasks.rejected, hget]
      exact h.rollBack hget (Or.inl hof.1) hfree
    | restart name restarts =>
      simp only [Tasks.rejected, hget]
      exact h.releaseSettle hget hfree (Or.inr ⟨hof, rfl⟩)
    | takeBack name startedAt =>
      have hsettled : Sound known (s.settle i (.rejected false)) :=
        h.settle hget hfree (Or.inl ⟨hof.1, false, rfl⟩) (by simp)
      exact hsettled.answer (by simp)
    | forget name => exact h.settle hget hfree (Or.inr ⟨Or.inl hof, rfl⟩) (by simp)

/-- A call of task liveness has settled. -/
theorem Sound.livenessSettled {c : LivenessCall} {others : List LivenessCall}
    (hcalls : s.calls = c :: others) (ok carriedOut : Bool) :
    Sound known ({ s with calls := others }.livenessSettled c ok carriedOut) := by
  have hjobs := hcalls ▸ h.jobs
  have hlive := hcalls ▸ h.live
  have hpop : ∀ tracked, tracked = s.tracked ∨ tracked = c.tracks →
      Sound known { s with calls := others, tracked := tracked } := fun tracked htracked =>
    { h with jobs := hjobs.popCall, live := hlive.settled htracked }
  obtain ⟨tracked, htracked, hstate, hok⟩ : ∃ tracked, (tracked = s.tracked ∨ tracked = c.tracks) ∧
      (if ok || carriedOut then { s with calls := others, tracked := c.tracks }
        else { s with calls := others }) = { s with calls := others, tracked := tracked } ∧
      (ok = true → tracked = c.tracks) := by
    by_cases hcarried : (ok || carriedOut) = true
    · exact ⟨c.tracks, Or.inr rfl, if_pos hcarried, fun _ => rfl⟩
    refine ⟨s.tracked, Or.inl rfl, if_neg hcarried, fun hok => ?_⟩
    rw [hok] at hcarried
    exact absurd rfl hcarried
  have hs := hpop tracked htracked
  obtain ⟨tracks, r⟩ := c
  cases r with
  | none =>
    cases tracks with
    | true => exact absurd (hjobs.untracks _ (List.mem_cons_self ..) rfl) (by simp)
    | false =>
      simp only [Tasks.livenessSettled]
      rw [hstate]
      exact hs
  | some i =>
    obtain ⟨run, hget, hphase⟩ := hjobs.callOf _ (List.mem_cons_self ..) i rfl
    have hfree := hjobs.free_of_call
    cases tracks with
    | false =>
      simp only [Tasks.livenessSettled]
      rw [hstate]
      exact hs.settle hget hfree (Or.inr ⟨Or.inr hphase, rfl⟩) (by simp)
    | true =>
      simp only [Tasks.livenessSettled]
      rw [hstate]
      cases ok with
      | false =>
        simp only [Bool.false_eq_true, if_false, hget]
        exact hs.rollBack hget (Or.inr hphase) hfree
      | true =>
        have hlaunched := hs.launch hget hfree (Or.inl hphase)
        obtain ⟨e, he, -⟩ := h.entries.fresh i run hget (Or.inl hphase)
          ((h.runs i run hget).started (Or.inr hphase))
        have hsome : (s.ledger.get run.name).isSome := by rw [he]; rfl
        refine hlaunched.answer (fun _ => ⟨_, modify_get_self _ hget, rfl, hsome, hok rfl,
          fun c hc => ?_⟩)
        exact (List.pairwise_cons.1 hlive.queue).1 c hc rfl

end

/-! ## The chain moves on -/

section

variable (h : Sound known s) (hchain : s.chain = m :: rest)
include h hchain

/-- What the first edit makes of the ledger. -/
theorem Sound.applied : (∀ name entry, m.edit = .enter name entry → name ≠ "__proto__" →
      (m.edit.apply s.ledger).get name = some entry) ∧
    ∀ name startedAt i, m.edit = .takeBack name startedAt → m.run = some i →
      ∀ e, (m.edit.apply s.ledger).get name = some e → e.run ≠ some i := by
  constructor
  · intro name entry hedit hname
    rw [hedit, LedgerEdit.apply, JsMap.get_assign _ _ hname, if_pos rfl]
  · intro name startedAt i hedit hrun e he hei
    have hback := h.entries.back name startedAt i
      (by rw [jobs_cons hchain, hedit, hrun]; exact List.mem_cons_self ..)
    rw [hedit] at he
    simp only [LedgerEdit.apply] at he
    split at he
    · rename_i entry hentry
      split at he
      · exact absurd he (by simp)
      rename_i hne
      rw [hentry, Option.some.injEq] at he
      exact hne (hback entry hentry (he ▸ hei))
    · rename_i hnone
      rw [hnone] at he
      exact absurd he (by simp)

/-- The first edit has been carried out, and what waited for it goes on. -/
theorem Sound.carriedOut
    {stored : Option StoredLedger} {minted : Nat}
    (hledger : (stored.map (·.ledger)).getD .empty = m.edit.apply s.ledger)
    (hminted : ∀ record, stored = some record → record.etag ≤ minted) :
    Sound known (Tasks.resolved { s with chain := rest, stored := stored, minted := minted } m
      (m.edit.apply s.ledger)) := by
  obtain ⟨henter, hback⟩ := h.applied hchain
  have hsound := (h.edited hchain hledger hminted).resolved (h.popped hchain stored minted)
    (by rw [Tasks.ledger, hledger]; exact henter) (by rw [Tasks.ledger, hledger]; exact hback)
  rwa [Tasks.ledger, hledger] at hsound

theorem Sound.rephase {phase : LedgerPhase}
    (hphase : ∀ ledger etag attempt, phase = .saving ledger etag attempt →
      (etag = s.etag → ledger = m.edit.apply s.ledger) ∧
      (etag = none → ledger = m.edit.apply .empty) ∧ ∀ tag, etag = some tag → tag ≤ s.minted) :
    Sound known { s with chain := { m with phase := phase } :: rest } := by
  have hjobs : Tasks.jobs { s with chain := { m with phase := phase } :: rest } = s.jobs :=
    (jobs_cons hchain).symm
  exact
    { h with
      jobs := hjobs ▸ h.jobs
      order := hjobs ▸ h.order
      entries := hjobs ▸ h.entries
      written := (hchain ▸ h.written).rephase hphase }

end

theorem ledger_of_etag_none (h : s.etag = none) : s.ledger = .empty := by
  rw [Tasks.etag, Option.map_eq_none_iff] at h
  rw [Tasks.ledger, h]
  rfl

section

variable (h : Sound known s) (hchain : s.chain = m :: rest)
include h hchain

theorem Sound.loaded (attempt : Nat) : Sound known (s.loaded m rest attempt) := by
  rw [Tasks.loaded]
  split
  · rename_i htext
    have hminted : ∀ record : StoredLedger,
        (s.stored.map fun record => { record with ledger := m.edit.apply s.ledger }) = some record →
          record.etag ≤ s.minted := by
      intro record hrecord
      obtain ⟨old, hold, rfl⟩ := Option.map_eq_some_iff.1 hrecord
      exact h.written.minted old hold
    refine h.carriedOut hchain ?_ hminted
    cases hstored : s.stored with
    | some record => rfl
    | none =>
      -- what has the text of no record is no record
      have hempty : s.ledger = .empty := by rw [Tasks.ledger, hstored]; rfl
      have hentries : (m.edit.apply s.ledger).entries = [] := by
        rw [hempty] at htext ⊢
        exact List.map_eq_nil_iff.1 htext
      exact (JsMap.ext_entries hentries).symm
  · refine h.rephase hchain fun ledger etag tries heq => ?_
    obtain ⟨rfl, rfl, -⟩ := LedgerPhase.saving.inj heq
    refine ⟨fun _ => rfl, fun hnone => by rw [ledger_of_etag_none hnone], fun tag htag => ?_⟩
    obtain ⟨record, hrecord, rfl⟩ := Option.map_eq_some_iff.1 htag
    exact h.written.minted record hrecord

/-- A write of the record by the first edit, at the etag that it has loaded. -/
theorem Sound.write {attempt : Nat}
    (hphase : m.phase = .saving ledger s.etag attempt) :
    Sound known (Tasks.write { s with chain := rest } ledger) ∧
    Sound known (Tasks.resolved (Tasks.write { s with chain := rest } ledger) m ledger) := by
  obtain ⟨hsaved, -, -⟩ := h.written.head m rest hchain _ _ _ hphase
  obtain rfl : ledger = m.edit.apply s.ledger := hsaved rfl
  have hledger := ledger_writtenRecord (m.edit.apply s.ledger) (s.minted + 1)
  have hminted : ∀ record, writtenRecord (m.edit.apply s.ledger) (s.minted + 1) = some record →
      record.etag ≤ s.minted + 1 := fun record hrecord => Nat.le_of_eq (etag_writtenRecord hrecord)
  exact ⟨h.edited hchain hledger hminted, h.carriedOut hchain hledger hminted⟩

theorem Sound.saved {etag : Option Nat}
    {attempt : Nat} (hphase : m.phase = .saving ledger etag attempt) (fault : Fault) :
    Sound known (s.saved m rest ledger etag attempt fault) := by
  have hpop := h.pop hchain
  have hpopped := h.popped hchain s.stored s.minted
  cases fault with
  | failed => exact hpop.rejected hpopped
  | lost =>
    simp only [Tasks.saved]
    split
    · rename_i heq
      subst heq
      exact (h.write hchain hphase).1.rejected (h.popped hchain _ _)
    · exact hpop.rejected hpopped
  | none =>
    simp only [Tasks.saved]
    split
    · rename_i heq
      subst heq
      exact (h.write hchain hphase).2
    · split
      · exact hpop.rejected hpopped
      · exact h.rephase hchain (by simp)

end

/-- Another activation has written the record. -/
theorem Sound.foreign (h : Sound known s) {name : String} (hname : ∀ run ∈ s.runs, run.name ≠ name)
    (hother : ∀ other, other ≠ name → ledger.get other = s.ledger.get other)
    (hrun : ∀ e, ledger.get name = some e → e.run = none ∨ s.ledger.get name = some e) :
    Sound known (s.write ledger) := by
  have hledger : (s.write ledger).ledger = ledger := ledger_writtenRecord ledger (s.minted + 1)
  exact
    { h with
      entries := by
        rw [hledger]
        exact h.entries.foreign h.jobs hother hrun hname
      live := by
        rw [hledger]
        refine h.live.written fun i run hget _ hsome => ?_
        rw [hother _ (hname run (List.mem_of_getElem? hget))]
        exact hsome
      written := h.written.foreign ledger }

/-! ## Starting, resuming and ending -/

section

variable (h : Sound known s) (hlive : s.aborted = false) (hfree : s.tasks.get run.name = none)
    (hphase : run.phase = .starting ∨ run.phase = .resuming) (hrun : run.Sound known)
    (hflag : run.aborted = none)
include h hlive hfree hphase hrun hflag

/-- `#reserve`. -/
theorem Sound.reserve : Sound known (s.reserve run) := by
  have hres : run.phase.reserved = true := by
    rcases hphase with hphase | hphase <;> rw [hphase] <;> rfl
  have hkeeps : run.phase.keeps = false := by
    rcases hphase with hphase | hphase <;> rw [hphase] <;> rfl
  have horder : Order s.runs s.jobs s.tasks false := hlive ▸ h.order
  exact
    { runs := h.runs.concat hrun
      jobs := h.jobs.concat run
      gate := h.gate.reserve hfree hres
      order := by
        have hreserved := horder.reserve hkeeps hflag run.name s.runs.length
        rw [← hlive] at hreserved
        exact hreserved
      entries := by
        refine h.entries.concat ?_ ?_
        · rcases hphase with hphase | hphase <;> rw [hphase] <;> simp
        · rcases hphase with hphase | hphase <;> rw [hphase] <;> rfl
      live := h.live.concat run
      written := h.written }

/-- A run is reserved and makes its first edit, which takes nothing back. -/
theorem Sound.begin_ {edit : LedgerEdit} (hof : edit.Of s.runs.length run) :
    Sound known ((s.reserve run).mutate edit (some s.runs.length)) := by
  have hreserved := h.reserve hlive hfree hphase hrun hflag
  have hget : (s.reserve run).runs[s.runs.length]? = some run := List.getElem?_concat_length
  refine hreserved.mutate hget h.jobs.free_of_new hof (Or.inr (JsMap.get_set_self ..)) ?_ ?_
  · intro k x hx hkeeps hname
    have horder : Order s.runs s.jobs s.tasks false := hlive ▸ h.order
    obtain ⟨-, hx⟩ | ⟨-, rfl⟩ := (of_append_get hx).symm
    · rw [horder.keeper_none h.gate hx (hname ▸ hfree)] at hkeeps
      exact absurd hkeeps (by simp)
    · rcases hphase with hphase | hphase <;> rw [hphase] at hkeeps <;>
        exact absurd hkeeps (by simp [TaskPhase.keeps])
  · rintro name startedAt rfl
    rcases hphase with hphase | hphase <;> rw [hof.2.1] at hphase <;> exact absurd hphase (by simp)

end

/-- What a start needs of what `#tasks` has under its name: a run that is running and ledgered,
while the actor is tracked and is to stay so; or no run, and a name that an object keeps. -/
def SafeName (known : String → Bool) (s : Tasks) (name : String) : Option Nat → Prop
  | some i =>
      s.runs[i]?.map (·.phase) = some .running ∧ (s.ledger.get name).isSome = true ∧
        s.tracked = true ∧ ∀ c ∈ s.calls, c.tracks = true
  | none => known name = true → name ≠ "__proto__"

instance (known : String → Bool) (s : Tasks) (name : String) :
    (held : Option Nat) → Decidable (SafeName known s name held)
  | some i => inferInstanceAs (Decidable (s.runs[i]?.map (·.phase) = some .running ∧
      (s.ledger.get name).isSome = true ∧ s.tracked = true ∧ ∀ c ∈ s.calls, c.tracks = true))
  | none => inferInstanceAs (Decidable (known name = true → name ≠ "__proto__"))

/-- The condition on a start that gets past its first checks. -/
def SafeStart (known : String → Bool) (s : Tasks) : TaskLabel → Prop
  | .start name _ _ =>
      s.faulted = false → s.aborted = false → SafeName known s name (s.tasks.get name)
  | _ => True

instance (known : String → Bool) (s : Tasks) : (l : TaskLabel) → Decidable (SafeStart known s l)
  | .start name _ _ => inferInstanceAs (Decidable
      (s.faulted = false → s.aborted = false → SafeName known s name (s.tasks.get name)))
  | .scan | .resume _ | .cancel _ | .deactivate | .fault | .finish _ | .load _ | .save _
  | .foreign .. | .liveness .. => isTrue trivial

/-- `#startTask`. -/
theorem Sound.startTask (h : Sound known s) {name : String} {input : Option String} {now : Nat}
    (hsafe : SafeStart known s (.start name input now)) :
    Sound known (s.startTask known name input now) := by
  rw [Tasks.startTask]
  split
  · exact h
  split
  · exact h
  rename_i hfaulted haborted
  rw [Bool.not_eq_true] at hfaulted haborted
  have hsafe := hsafe hfaulted haborted
  cases hheld : s.tasks.get name with
  | some i =>
    rw [hheld] at hsafe
    obtain ⟨hphase, hsome, hrest⟩ := hsafe
    obtain ⟨run, hget, hname, -⟩ := (h.gate.owner name i).1 hheld
    rw [hget, Option.map_some, Option.some.injEq] at hphase
    exact
      { h with
        live := h.live.start fun _ =>
          ⟨run, hget, by rw [hphase]; rfl, by rw [hname]; exact hsome, hrest⟩ }
  | none =>
    rw [hheld] at hsafe
    simp only
    split
    · rename_i hknown
      have hrun : TaskRun.Sound known
          { name := name, startedAt := now, restarts := 0, phase := .starting } :=
        ⟨hknown, fun _ => rfl, by simp, rfl, fun _ => hsafe hknown⟩
      have hof : LedgerEdit.Of s.runs.length
          { name := name, startedAt := now, restarts := 0, phase := .starting }
          (.enter name
            { input := input, startedAt := now, restarts := 0, run := some s.runs.length }) :=
        ⟨rfl, rfl, rfl, rfl, rfl⟩
      have hbegun := h.begin_ haborted hheld (Or.inl rfl) hrun rfl hof
      exact { hbegun with live := hbegun.live.start (by simp) }
    · exact h

/-- `#resumeTask`. -/
theorem Sound.resumeTask (h : Sound known s) (name : String) (entry : TaskLedgerEntry) :
    Sound known (s.resumeTask known name entry) := by
  rw [Tasks.resumeTask]
  split
  · exact h
  rename_i hchecks
  obtain ⟨-, haborted, hhas⟩ : ¬ s.faulted = true ∧ s.aborted = false ∧ s.tasks.has name = false := by
    simpa using hchecks
  have hfree : s.tasks.get name = none := by
    rw [JsMap.has, Option.isSome_eq_false_iff, Option.isNone_iff_eq_none] at hhas
    exact hhas
  split
  · rename_i hknown
    have hrun : TaskRun.Sound known
        { name := name, startedAt := entry.startedAt, restarts := entry.restarts + 1,
          phase := .resuming } :=
      ⟨hknown, by simp, fun _ => Nat.succ_ne_zero _, rfl, fun hzero => absurd hzero (by simp)⟩
    exact h.begin_ haborted hfree (Or.inr rfl) hrun rfl ⟨rfl, rfl⟩
  · rename_i hknown
    rw [Bool.not_eq_true] at hknown
    -- no run has a name that the definition does not know
    refine
      { h with
        jobs := ?_
        order := ?_
        entries := ?_
        written := h.written.push rfl }
    · rw [jobs_mutate]
      exact h.jobs.drop hknown
    · rw [jobs_mutate]
      refine h.order.push ?_ ?_
      · intro other hother hwrites heq
        obtain ⟨j, -, hget⟩ := h.jobs.holder h.gate hother hwrites
        rw [← heq] at hget
        exact absurd (hget.symm.trans hfree) (by simp)
      · intro i run hget _ heq
        have heq : name = run.name := heq
        rw [heq, (h.runs i run hget).known] at hknown
        exact absurd hknown (by simp)
    · rw [jobs_mutate]
      exact h.entries.push (by simp)

/-- The body of a run has settled. -/
theorem Sound.bodySettled (h : Sound known s) (hget : s.runs[i]? = some run)
    (hphase : run.phase = .running) : Sound known (s.bodySettled i run) := by
  have hfree := h.jobs.free_of_running hget hphase
  have hres : run.phase.reserved = true := by rw [hphase]; rfl
  have hheld := h.gate.get hget hres
  have hrun := h.runs i run hget
  simp only [Tasks.bodySettled]
  split
  · rename_i hinterrupted
    exact h.releaseSettle hget hfree (Or.inl ⟨hphase, of_decide_eq_true hinterrupted, rfl⟩)
  have hpasses : Passes known s i run { run with phase := .forgetting } := by
    refine ⟨rfl, rfl, ⟨hrun.known, by simp, by simp, ?_, hrun.plain⟩, by simp [TaskPhase.keeps],
      by simp, by simp [TaskPhase.underWay], by simp, by simp [TaskPhase.wound],
      by simp [TaskPhase.wound]⟩
    have := hrun.settles
    rw [hphase] at this
    exact this
  have hleft := h.passes hget hfree (f := fun run => { run with phase := .forgetting }) hpasses
    (h.gate.leave hget hres rfl rfl) (Or.inr rfl) (by simp)
  rw [release_eq s hheld]
  refine hleft.mutate (modify_get_self _ hget) hfree ⟨rfl, rfl⟩
    (Or.inl (JsMap.get_erase_self _ _)) ?_ (by simp)
  intro k x hx hkeeps hname
  obtain ⟨hne, hx⟩ | ⟨old, -, -, rfl⟩ := (of_modify_get hx).symm
  · exact hne (h.order.keeper h.gate hx hkeeps (hname ▸ hheld))
  · exact absurd hkeeps (by simp [TaskPhase.keeps])

/-- `controller.abort(reason)`. -/
theorem Sound.abort (h : Sound known s) (i : Nat) {reason : AbortReason}
    (hreason : reason = .deactivated → s.aborted = true) : Sound known (s.abort i reason) := by
  cases hget : s.runs[i]? with
  | none =>
    have hruns : s.runs.modify i (fun run => { run with aborted := run.aborted.or (some reason) }) =
        s.runs := List.modify_eq_self (List.getElem?_eq_none_iff.1 hget)
    rw [Tasks.abort, Tasks.modify, hruns]
    exact h
  | some run =>
    have hrun := h.runs i run hget
    exact
      { h with
        runs := h.runs.modify hget
          { hrun with }
        jobs := h.jobs.touch i (fun _ => rfl) (fun _ => rfl) (fun _ => rfl)
        gate := h.gate.modify hget rfl rfl rfl
        order := by
          refine h.order.modify hget rfl (h.order.clear i run hget) (h.order.gone i run hget) ?_
          intro hflag
          cases haborted : run.aborted with
          | none =>
            rw [haborted] at hflag
            exact hreason (Option.some.inj hflag)
          | some first =>
            rw [haborted] at hflag
            cases hflag
            exact h.order.flagged i run hget haborted
        entries := h.entries.modify hget rfl (h.entries.fresh i run hget)
          (h.entries.entered i run hget) (fun e he hei => by
            obtain ⟨x, hx, -, howner⟩ := h.entries.owner _ e i he hei
            obtain rfl : run = x := Option.some.inj (hget.symm.trans hx)
            exact howner)
        live := h.live.modify hget rfl id Or.inr }

/-- `deactivate` aborts every run of `#tasks`. -/
theorem Sound.deactivate (indexes : List Nat) : ∀ {s : Tasks}, Sound known s → s.aborted = true →
      Sound known (indexes.foldl (fun s i => s.abort i .deactivated) s) := by
  induction indexes with
  | nil => exact fun h _ => h
  | cons i indexes ih => exact fun h haborted => ih (h.abort i fun _ => haborted) haborted

/-! ## Durability -/

theorem Sound.step {s t : Tasks} {l : TaskLabel} (h : Sound known s) (hsafe : SafeStart known s l)
    (hstep : s.step known l = some t) : Sound known t := by
  cases l with simp only [Tasks.step] at hstep
  | start name input now => exact Option.some.inj hstep ▸ h.startTask hsafe
  | scan | fault => exact Option.some.inj hstep ▸ { h with }
  | resume k =>
    obtain ⟨q, -, rfl⟩ := Option.map_eq_some_iff.1 hstep
    exact h.resumeTask q.1 q.2
  | cancel name =>
    split at hstep
    · exact Option.some.inj hstep ▸ h.abort _ (by simp)
    · exact Option.some.inj hstep ▸ h
  | deactivate =>
    have hflagged : Sound known { s with aborted := true } :=
      { h with
        order :=
          { h.order with
            gone := fun i run hget hphase => ⟨rfl, (h.order.gone i run hget hphase).2⟩
            flagged := fun _ _ _ _ => rfl } }
    exact Option.some.inj hstep ▸ Sound.deactivate _ hflagged rfl
  | finish i =>
    split at hstep
    · rename_i run hget
      split at hstep
      · rename_i hphase
        exact Option.some.inj hstep ▸ h.bodySettled hget hphase
      · exact absurd hstep (by simp)
    · exact absurd hstep (by simp)
  | load ok =>
    split at hstep
    · rename_i m rest hchain
      split at hstep
      · rename_i attempt hphase
        rw [Option.some.injEq] at hstep
        subst hstep
        split
        · exact h.loaded hchain attempt
        · exact (h.pop hchain).rejected (h.popped hchain _ _)
      · exact absurd hstep (by simp)
    · exact absurd hstep (by simp)
  | save fault =>
    split at hstep
    · rename_i m rest hchain
      split at hstep
      · rename_i ledger etag attempt hphase
        exact Option.some.inj hstep ▸ h.saved hchain hphase fault
      · exact absurd hstep (by simp)
    · exact absurd hstep (by simp)
  | foreign name entry =>
    split at hstep
    · rename_i hname
      rw [Option.some.injEq] at hstep
      subst hstep
      cases entry with
      | none =>
        refine h.foreign hname (fun other hne => ?_) (fun e he => ?_)
        · exact (JsMap.get_erase _ _ _).trans (if_neg hne)
        · exact absurd (he.symm.trans (JsMap.get_erase_self _ _)) (by simp)
      | some entry =>
        refine h.foreign hname (fun other hne => JsMap.get_assign_of_ne _ _ hne) ?_
        intro e he
        simp only [JsMap.assign] at he
        split at he
        · exact Or.inr he
        · rw [JsMap.get_set_self, Option.some.injEq] at he
          exact Or.inl (he ▸ rfl)
    · exact absurd hstep (by simp)
  | liveness ok carriedOut =>
    split at hstep
    · rename_i c others hcalls
      exact Option.some.inj hstep ▸ h.livenessSettled hcalls ok carriedOut
    · exact absurd hstep (by simp)

theorem Sound.initial (h : Tasks.initial s) : Sound known s := by
  obtain ⟨stored, tracked, rfl, hrun⟩ := h
  refine
    { runs := ?_
      jobs := ⟨by simp [Tasks.jobs], by simp [Tasks.jobs], by simp, by simp, List.nodup_nil,
        List.nodup_nil⟩
      gate := ⟨by simp, rfl, by simp, by simp⟩
      order := ⟨List.Pairwise.nil, by simp, by simp, by simp⟩
      entries := ⟨by simp, by simp, ?_, by simp [Tasks.jobs]⟩
      live := ⟨List.Pairwise.nil, by simp⟩
      written := ⟨by simp, by simp, ?_⟩ }
  · intro i run hget
    exact absurd hget (by simp)
  · intro name e i he hei
    cases hstored : stored with
    | none =>
      rw [Tasks.ledger, hstored] at he
      exact absurd he (by simp)
    | some record =>
      rw [Tasks.ledger, hstored] at he
      have := hrun record hstored _ (JsMap.mem_entries_of_get he)
      rw [hei] at this
      exact absurd this (by simp)
  · rintro record rfl
    exact Nat.le_refl _

end Tasks

/-- What the detached tasks promise, in one state. -/
structure Tasks.Durable (s : Tasks) : Prop where
  /-- No two bodies run under one name. -/
  single : ∀ (i j : Nat) (a b : TaskRun), s.runs[i]? = some a → s.runs[j]? = some b →
    a.phase = .running → b.phase = .running → a.name = b.name → i = j
  /-- A start that has resolved is ledgered and tracked until its body has settled. -/
  started : ∀ call ∈ s.starts, call.outcome = some true → ∃ run : TaskRun,
    s.runs[call.run]? = some run ∧
      (run.phase.wound = false → (s.ledger.get run.name).isSome ∧ s.tracked = true)
  /-- A run that was interrupted keeps its entry. -/
  interrupted : ∀ (i : Nat) (run : TaskRun), s.runs[i]? = some run →
    run.phase = .over_ .interrupted → run.entered = true → (s.ledger.get run.name).isSome
  /-- A start that was rejected, and could take its entry back, leaves none. -/
  rejected : ∀ (i : Nat) (run : TaskRun), s.runs[i]? = some run →
    run.phase = .over_ (.rejected true) → ∀ q ∈ s.ledger.entries, q.2.run ≠ some i
  /-- Nothing takes away the entry that a run under way has written. -/
  replaced : ∀ (i : Nat) (run : TaskRun), s.runs[i]? = some run →
    run.phase = .tracking ∨ run.phase = .running → run.restarts = 0 →
      ∃ e, s.ledger.get run.name = some e ∧ e.run = some i
  keepAlive : s.keepAlive = (s.runs.countP (·.phase.reserved) : Nat)
  /-- A run is settled once, and then it is over. -/
  settled : ∀ (i : Nat) (run : TaskRun), s.runs[i]? = some run →
    run.settles = (if run.phase.isOver then 1 else 0) ∧
      (i ∈ s.settling ↔ run.phase.isOver = false)

theorem Tasks.Sound.durable {known : String → Bool} {s : Tasks} (h : Sound known s) :
    s.Durable where
  single i j a b ha hb hra hrb hname := by
    refine h.gate.unique ha hb ?_ ?_ hname
    · rw [hra]; rfl
    · rw [hrb]; rfl
  started call hcall hok := by
    obtain ⟨run, hget, hphase⟩ := h.live.held call hcall hok
    refine ⟨run, hget, fun hwound => ?_⟩
    rcases hphase with hphase | ⟨-, hsome, htracked, -⟩
    · rw [hwound] at hphase
      exact absurd hphase (by simp)
    · exact ⟨hsome, htracked⟩
  interrupted i run hget hphase := h.entries.entered i run hget (by rw [hphase]; rfl)
  rejected i run hget hphase q hq hrun := by
    obtain ⟨x, hx, -, hne, -⟩ := h.entries.owner q.1 q.2 i (JsMap.get_of_mem_entries hq) hrun
    obtain rfl : run = x := Option.some.inj (hget.symm.trans hx)
    exact hne hphase
  replaced := h.entries.fresh
  keepAlive := h.gate.count
  settled i run hget := ⟨(h.runs i run hget).settles, h.gate.unsettled i run hget⟩

/-- **Detached tasks are durable** in every state of a run whose starts are safe. -/
theorem Tasks.durable_of_safeStarts (known : String → Bool) {s : Tasks}
    (h : (detachedTasks known).Reach (fun s l => s.SafeStart known l) s) : s.Durable :=
  (h.invariant (I := Tasks.Sound known) (fun _ hinit => .initial hinit)
    fun _ _ _ hs hok hstep => hs.step hok hstep).durable

theorem Tasks.initial_empty : Tasks.initial {} := ⟨none, false, rfl, by simp⟩

/-- A start, another while the body runs, and a deactivation that interrupts it. -/
def interruptedTask : List TaskLabel :=
  [.start "mail" none 5, .load true, .save .none, .liveness true true, .start "mail" none 6,
    .deactivate, .finish 0]

/-- The guarded run of `interruptedTask`. -/
theorem Tasks.durable_interruptedTask :
    ((((detachedTasks fun _ => true).exec (fun s l => s.SafeStart (fun _ => true) l) {}
      interruptedTask).get (by decide)).Durable) :=
  Tasks.durable_of_safeStarts (fun _ => true)
    ((Machine.System.Reach.start Tasks.initial_empty).exec_get interruptedTask (by decide))

/-- A second start under a name whose entry is still being written. -/
def quietStart : List TaskLabel := [.start "mail" none 5, .start "mail" none 6]

/-- It resolves, with nothing ledgered and nothing tracked. -/
theorem Tasks.not_durable :
    ¬ ∀ (known : String → Bool) (s : Tasks), (detachedTasks known).Reachable s → s.Durable := by
  intro hdurable
  have hreach := (Machine.System.Reach.start Tasks.initial_empty :
    (detachedTasks fun _ => true).Reachable {}).exec_get quietStart (by decide)
  have hstarted := (hdurable _ _ hreach).started ⟨0, some true⟩ (by decide) rfl
  obtain ⟨run, hget, hentry⟩ := hstarted
  cases hget
  exact absurd (hentry rfl).2 (by decide)

end SigxActors.Host
