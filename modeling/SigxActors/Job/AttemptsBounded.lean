/-
  Job/AttemptsBounded.lean --- the attempts of a job, over every run with a working store.

  A step keeps the record counting and the activation in step with it.  What that says of a whole
  run is the bound on the attempts, and that a launch which fails is taken back.
-/
import SigxActors.Job.Attempts

set_option autoImplicit false

namespace SigxActors.Job

open SigxActors.Js

variable {V : Type}

/-- The store works, and the job is not discarded. -/
def Label.Works : Label V → Prop
  | .written (some _) => False
  | .submit .discard | .submit .retained => False
  | _ => True

instance (l : Label V) : Decidable l.Works := by
  unfold Label.Works
  split <;> infer_instance

namespace Job

variable {o : JobOptions V} {s t : Job V} {a b : Activation V} {l : Label V}

/-! ## What a save leaves -/

theorem Led.congr (h : Led o s a) (hstored : t.stored = s.stored) (hresumes : t.resumes = s.resumes)
    (hentered : t.entered = s.entered) : Led o t a :=
  h.still hstored hresumes hentered rfl rfl h.turns (.inl rfl) (fun _ => rfl) goes_refl

theorem entered_durable (what : Saving V) : (s.durable o a what).entered = s.entered := by
  cases what <;> rfl

variable {what : Saving V} {r : Nat} {prior : Prior V} {origin record : JobState V}

section

variable (h : Led o s a) (hstage : a.stage = .saving what)
include h hstage

/-- The record counts what was saved. -/
theorem Led.recorded : Recorded o (s.durable o a what) := by
  unfold Recorded
  rw [entered_durable]
  exact (h.saves what hstage).counts

/-- The activation is in step with what it has saved. -/
theorem Led.inStep_saved : a.state.InStep ((s.durable o a what).base o) := by
  cases what with
  | appending entry => exact inStep_durable (h.inStep (.inr ⟨entry, hstage⟩)) entry
  | launching | reverting | finishing | first | plain => exact .refl _

/-- A save that counts no attempt keeps what the runs have. -/
theorem Led.runs_plain (hcounts : what.counts = false) : Runs o (s.durable o a what) a := by
  have hsaves := h.saves what hstage
  refine h.runs.rebase (entered_durable what) ?_ hsaves.terminal fun hpending => ?_
  · rw [← (h.inStep_saved hstage).attempts]
    exact h.attempts what hstage hcounts
  · exact hsaves.grows.resolve_right fun hgrows => hgrows.1 hpending

end

/-- A job that is given up has no run that is to go on. -/
theorem Led.runs_givesUp (h : Led o s a) (hsound : a.Sound)
    (hstage : a.stage = .saving (.finishing (.giveUp r))) :
    Runs o (s.durable o a (.finishing (.giveUp r))) a := by
  have htoken : a.stage.token = some (r, .launched) := hstage ▸ rfl
  obtain ⟨hgate, -, -, run, hget, hphase⟩ := hsound.awaited htoken
  have hterminal : ((s.durable o a (.finishing (.giveUp r))).base o).status.terminal = true :=
    h.finishes _ hstage
  refine ⟨fun hpending => ?_, fun r' run' _ _ hopen => ?_, fun r' run' hget' hresumed hphase' => ?_,
    fun r' run' hget' hphase' => ?_⟩
  · rw [hpending] at hterminal
    cases hterminal
  · cases hopen.symm.trans hterminal
  · rcases (h.saves _ hstage).grows with hnone | ⟨-, hle⟩
    · cases hgate.symm.trans hnone
    · exact Nat.le_trans (h.runs.budget r' run' hget' hresumed hphase') hle
  · have hone : r' = r :=
      Option.some.inj ((hsound.alone r' run' hget' (hphase' ▸ nofun)).symm.trans hgate)
    subst hone
    cases hget.symm.trans hget'
    cases hphase.symm.trans hphase'

/-- A launch has the gate to itself, or counts no attempt. -/
theorem Led.runs_saved (h : Led o s a) (hsound : a.Sound) (hstage : a.stage = .saving what)
    (hwhat : ∀ r, what ≠ .first r) : Runs o (s.durable o a what) a := by
  cases hcounts : what.counts with
  | false => exact h.runs_plain hstage hcounts
  | true =>
    cases what with
    | launching prior origin =>
      cases prior with
      | start => exact runs_of_idle hsound ((h.launches _ _ hstage).2.2 rfl)
      | resume data => cases hcounts
    | reverting prior running origin =>
      cases prior with
      | start => exact runs_of_idle hsound ((h.reverts _ _ _ hstage).2.2 rfl)
      | resume data => cases hcounts
    | finishing f =>
      cases f with
      | giveUp r => exact h.runs_givesUp hsound hstage
      | cancel | settle => cases hcounts
    | first r => exact absurd rfl (hwhat r)
    | appending | plain => cases hcounts

/-- The body of a crash-resume may be called, once its attempt is saved. -/
theorem Led.runs_first (h : Led o s a) (hsound : a.Sound) (hrecorded : Recorded o s)
    (hstage : a.stage = .saving (.first r)) (owed : Bool) :
    Runs o (s.durable o a (.first r))
      ((({ a with owed := owed } : Activation V).setPhase r .ready).await .idle) := by
  have htoken : a.stage.token = some (r, .launched) := hstage ▸ rfl
  obtain ⟨hgate, -, -, run, hget, -⟩ := hsound.awaited htoken
  have hrunning : ((s.durable o a (.first r)).base o).status = .running := h.firsts r hstage
  have hsaved : ((s.durable o a (.first r)).base o).Counts o (s.resumes + 1) s.entered :=
    (h.saves _ hstage).counts
  have hattempts : ((s.durable o a (.first r)).base o).attempts = 1 + (s.resumes + 1) :=
    hsaved.attempts (hrunning ▸ nofun)
  have hready : ∀ (r' : Nat) (run' : Run V), (a.runs.modify r fun run =>
      { run with phase := .ready })[r']? = some run' → run'.phase = .ready ∨ run'.phase = .over := by
    intro r' run' hget'
    rcases of_modify_get hget' with ⟨old, -, -, rfl⟩ | ⟨hne, hold⟩
    · exact .inl rfl
    · refine .inr (Decidable.of_not_not fun hnot => hne ?_)
      exact Option.some.inj ((hsound.alone r' run' hold hnot).symm.trans hgate)
  refine ⟨fun hpending => ?_, fun r' run' hget' hphase _ => ?_, fun r' run' hget' _ _ => ?_,
    fun r' run' hget' _ => ?_⟩
  · cases hrunning.symm.trans hpending
  · rcases hready r' run' hget' with hphase' | hphase'
    · rw [hphase'] at hphase
      exact absurd hphase (by decide)
    · rw [hphase'] at hphase
      exact absurd hphase (by decide)
  · have hentered : s.entered ≤ 1 + s.resumes := by
      by_cases hpending : (s.base o).status = .pending
      · rw [(hrecorded.fresh hpending).2.2.2.2.2]
        exact Nat.zero_le _
      · rw [← hrecorded.attempts hpending]
        exact hrecorded.entered.1
    show s.entered + 1 ≤ _
    omega
  · refine Nat.le_of_not_lt fun hmany => ?_
    have hfailed := hsaved.failed (Nat.succ_pos _) (by omega)
    cases hrunning.symm.trans hfailed

/-! ## What a turn has waited for -/

/-- It ends, or waits for something that is of the job no more. -/
theorem Led.rests (h : Led o s a) (hstate : b.state.InStep (s.base o)) (hrests : b.stage.rests = true)
    (hqueue : ∀ turn ∈ b.queue, turn ∈ a.queue ∨ ∃ r outcome, turn = .settle r outcome)
    (hgate : b.gate = a.gate) (hruns : b.runs = a.runs ∨ ∃ r f, b.runs = a.runs.modify r f ∧
      ∀ run, Goes run (f run)) : Led o s b := by
  refine led_of_rests (fun turn hmem => ?_) hrests hstate (h.runs.goes rfl rfl (.inl hgate) ?_)
  · rcases hqueue turn hmem with hold | ⟨r, outcome, rfl⟩
    · exact h.turns turn hold
    · exact ⟨nofun, nofun⟩
  · rcases hruns with hsame | ⟨r, f, hmodify, hf⟩
    · rw [hsame]
      exact goes_refl
    · exact goes_modify (fun run _ => hf run) hmodify

theorem goes_winding (run : Run V) : Goes run { run with phase := .winding } :=
  ⟨rfl, rfl, .inr (.inr ⟨nofun, nofun, nofun⟩)⟩

section

variable (h : Led o s a) (hstate : a.state.InStep (s.base o))
include h hstate

theorem Led.finished (f : Finisher) : Led o s (a.finished f) := by
  have hqueue : ∀ turn ∈ a.queue, turn ∈ a.queue ∨ ∃ r outcome, turn = .settle r outcome :=
    fun _ hmem => .inl hmem
  cases f with
  | cancel =>
    unfold Activation.finished
    dsimp only
    split
    case h_1 r hgate =>
      refine h.rests hstate rfl hqueue rfl (.inr ⟨r, _, rfl, fun run => ?_⟩)
      exact ⟨rfl, rfl, .inl rfl⟩
    case h_2 => exact h.rests hstate rfl hqueue rfl (.inl rfl)
  | giveUp r | settle r => exact h.rests hstate rfl hqueue rfl (.inr ⟨r, _, rfl, goes_winding⟩)

theorem Led.unfinished (error : String) (f : Finisher) : Led o s (a.unfinished error f) := by
  have hqueue : ∀ turn ∈ a.queue, turn ∈ a.queue ∨ ∃ r outcome, turn = .settle r outcome :=
    fun _ hmem => .inl hmem
  cases f with
  | cancel => exact h.rests hstate rfl hqueue rfl (.inl rfl)
  | giveUp r => exact h.rests hstate rfl hqueue rfl (.inr ⟨r, _, rfl, goes_winding⟩)
  | settle r completed =>
    cases completed with
    | false => exact h.rests hstate rfl hqueue rfl (.inr ⟨r, _, rfl, goes_winding⟩)
    | true =>
      unfold Activation.unfinished
      dsimp only
      split
      · exact h.rests hstate rfl hqueue rfl (.inr ⟨r, _, rfl, goes_winding⟩)
      refine h.rests hstate rfl (fun turn hmem => ?_) rfl (.inl rfl)
      rcases List.mem_append.1 hmem with hmem | hmem
      · exact .inl hmem
      · exact .inr ⟨r, _, List.mem_singleton.1 hmem⟩

/-- What a settled job tells its hook, and what comes after. -/
theorem Led.settled (f : Finisher) : ∃ c, (s.settled o a f).live = some c ∧ Led o s c := by
  rcases settled_live o s a f with hlive | hlive
  · exact ⟨_, hlive, h.rests hstate rfl (fun _ hmem => .inl hmem) rfl (.inl rfl)⟩
  · exact ⟨_, hlive, h.finished hstate f⟩

end

/-- A launch that fails is to be taken back. -/
theorem Led.takeBack (hturns : ∀ turn ∈ a.queue, turn ≠ .discard ∧ turn ≠ .retained)
    (hruns : Runs o s a) (hinStep : a.state.InStep (s.base o))
    (hundoes : Undoes prior origin a.state) (horigin : origin.Counts o s.resumes s.entered)
    (hgate : prior = .start → a.gate = none) : Led o s (a.takeBack prior origin) := by
  obtain ⟨hback, hstopped, hrunning⟩ := hundoes
  have hbase : (s.durable o (a.takeBack prior origin) (.reverting prior a.state origin)).base o =
      origin := hback
  have hattempts : (Saving.reverting prior a.state origin).counts = false →
      origin.attempts = (s.base o).attempts := by
    intro hcounts
    cases prior with
    | start => cases hcounts
    | resume data =>
      rw [← hback, ← hinStep.attempts]
      rfl
  refine led_of_saving rfl hturns (fun _ heq => ?_) ⟨?_, ?_, fun hterminal => ?_⟩
    (fun hcounts => ?_) (fun _ _ heq => ?_) (fun _ _ _ heq => ?_) (fun _ heq => ?_)
    (fun _ heq => ?_) (hruns.goes rfl rfl (.inl rfl) goes_refl)
  · cases heq
  · rw [hbase]
    exact horigin
  · rw [hbase]
    cases prior with
    | start => exact .inl (hgate rfl)
    | resume data =>
      refine .inr ⟨?_, Nat.le_of_eq (hattempts rfl).symm⟩
      rw [← hback]
      exact nofun
  · rw [← hinStep.status, hrunning] at hterminal
    cases hterminal
  · exact (congrArg JobState.attempts hback).trans (hattempts hcounts)
  · cases heq
  · cases heq
    exact ⟨hback, hstopped, hgate⟩
  · cases heq
  · cases heq

/-- A run is reserved for the launch, and task liveness is told of it. -/
theorem led_of_tracking (hturns : ∀ turn ∈ b.queue, turn ≠ .discard ∧ turn ≠ .retained)
    (hstage : b.stage = .tracking r prior origin) (hinStep : b.state.InStep (t.base o))
    (hundoes : Undoes prior origin b.state) (horigin : origin.Counts o t.resumes t.entered)
    (hruns : Runs o t b) : Led o t b := by
  have hnot : ∀ what, b.stage ≠ .saving what := fun what => by
    rw [hstage]
    exact nofun
  refine ⟨hturns, ?_, fun _ => hinStep, fun what heq => absurd heq (hnot what),
    fun what heq => absurd heq (hnot what), fun _ _ heq => absurd heq (hnot _),
    fun r' prior' origin' heq => ?_, fun _ _ _ heq => absurd heq (hnot _),
    fun _ heq => absurd heq (hnot _), fun _ heq => absurd heq (hnot _), hruns⟩
  · rw [hstage]
    exact ⟨nofun, nofun⟩
  · cases hstage.symm.trans heq
    exact ⟨hundoes, horigin⟩

theorem Led.startTask (hturns : ∀ turn ∈ a.queue, turn ≠ .discard ∧ turn ≠ .retained)
    (hruns : Runs o s a) (hcounts : Recorded o s) (hinStep : a.state.InStep (s.base o))
    (hundoes : Undoes prior origin a.state) (horigin : origin.Counts o s.resumes s.entered)
    (hgate : prior = .start → a.gate = none) : Led o s (a.startTask prior origin) := by
  have hrunning : (s.base o).status = .running := hinStep.status.symm.trans hundoes.2.2
  unfold Activation.startTask
  split
  case isTrue => exact .takeBack hturns hruns hinStep hundoes horigin hgate
  case isFalse =>
    split
    case isTrue =>
      exact led_of_rests hturns rfl hinStep (hruns.goes rfl rfl (.inl rfl) goes_refl)
    case isFalse =>
      refine led_of_tracking hturns rfl hinStep hundoes horigin
        (hruns.reserve rfl (hrunning ▸ nofun) ?_ (.inl rfl) fun hresumed _ => ?_)
      · exact nofun
      · cases prior with
        | resume data => cases hresumed
        | start =>
          have hpending : origin.status = .pending := by
            rw [← hundoes.1]
            rfl
          rw [(horigin.fresh hpending).2.2.2.2.2, hcounts.attempts (hrunning ▸ nofun)]
          omega

/-- A save is done, and the turn goes on with a job that counts. -/
theorem Led.written (h : Led o s a) (hsound : a.Sound) (hrecorded : Recorded o s)
    (hstage : a.stage = .saving what) (owed : Bool) :
    ∃ c, ((s.durable o a what).written o { a with owed := owed } what).live = some c ∧
      Led o (s.durable o a what) c := by
  have hinStep := h.inStep_saved hstage
  have hidle : (∀ r, what ≠ .first r) → ∀ stage : Stage V, stage.rests = true →
      Led o (s.durable o a what) (({ a with owed := owed } : Activation V).await stage) :=
    fun hwhat stage hrests => led_of_rests h.turns hrests hinStep
      ((h.runs_saved hsound hstage hwhat).goes rfl rfl (.inl rfl) goes_refl)
  cases what with
  | launching prior origin =>
    obtain ⟨hundoes, hold, hgate⟩ := h.launches prior origin hstage
    refine ⟨_, rfl, .startTask (a := { a with owed := owed }) h.turns ?_ (h.recorded hstage) hinStep
      hundoes ?_ hgate⟩
    · exact (h.runs_saved hsound hstage nofun).goes rfl rfl (.inl rfl) goes_refl
    · exact hrecorded.inStep hold
  | reverting | appending | plain => exact ⟨_, rfl, hidle nofun .idle rfl⟩
  | finishing f =>
    unfold Job.written
    dsimp only
    split
    · exact ⟨_, rfl, hidle nofun (.retaining f) rfl⟩
    · exact (hidle nofun (.retaining f) rfl).settled hinStep f
  | first r =>
    exact ⟨_, rfl, led_of_rests h.turns rfl hinStep (h.runs_first hsound hrecorded hstage owed)⟩

/-! ## Steps -/

/-- A body is called while its run alone goes on. -/
theorem Led.entered (h : Led o s a) {n : Nat} (hn : n ≤ (s.base o).attempts ∧ n ≤ o.maxAttempts)
    (hgate : a.gate ≠ none) (htracking : ∀ r prior origin, a.stage ≠ .tracking r prior origin)
    (hnone : ∀ (r : Nat) (run : Run V), a.runs[r]? = some run →
      run.phase ≠ .starting ∧ run.phase ≠ .launched ∧ run.phase ≠ .ready) :
    Led o { s with entered := n } a := by
  refine ⟨h.turns, h.uncleared, h.inStep, fun what hstage => ?_, h.attempts, h.launches,
    fun r prior origin hstage => absurd hstage (htracking r prior origin), h.reverts, h.firsts,
    h.finishes, ⟨h.runs.idle, h.runs.waiting, fun r run hget _ hphase => ?_, h.runs.ready⟩⟩
  · obtain ⟨hbase, hresumes⟩ := durable_congr (o := o) (s := s) (t := { s with entered := n })
      (a := a) (b := a) (w := what) rfl rfl rfl fun _ => rfl
    obtain ⟨hcounts, hgrows, hterminal⟩ := h.saves what hstage
    obtain ⟨hstarted, hle⟩ := hgrows.resolve_left hgate
    refine ⟨?_, ?_, ?_⟩
    · rw [hbase, hresumes]
      exact ⟨fun hpending => absurd hpending hstarted, hcounts.attempts, hcounts.failed,
        Nat.le_trans hn.1 hle, hn.2⟩
    · rw [hbase]
      exact .inr ⟨hstarted, hle⟩
    · rw [hbase]
      exact hterminal
  · obtain ⟨hstarting, hlaunched, hready⟩ := hnone r run hget
    rcases hphase with hphase | ⟨hphase | hphase, -⟩
    · exact absurd hphase hready
    · exact absurd hphase hstarting
    · exact absurd hphase hlaunched

theorem Led.enter (h : Led o s a) (hsound : a.Sound) (hrecorded : Recorded o s) {run : Run V}
    (hget : a.runs[r]? = some run) (hready : run.phase = .ready) {n : Nat}
    (hn : n = if run.resumed then s.entered else s.entered + 1) :
    Recorded o { s with entered := n } ∧ Led o { s with entered := n }
      (a.modifyRun r fun run => { run with phase := .body, entered := true }) := by
  obtain ⟨hgate, htokens⟩ := tokens_of_phase hsound hget (hready ▸ nofun) (hready ▸ rfl)
  have hstarted : (s.base o).status ≠ .pending := fun hpending => by
    cases hgate.symm.trans (h.runs.idle hpending)
  have hle : n ≤ (s.base o).attempts ∧ n ≤ o.maxAttempts := by
    subst hn
    split
    case isTrue => exact hrecorded.entered
    case isFalse hfirst =>
      have hbudget := h.runs.budget r run hget (Bool.not_eq_true _ ▸ hfirst) (.inl hready)
      exact ⟨hbudget, Nat.le_trans hbudget (h.runs.ready r run hget hready)⟩
  constructor
  · exact { hrecorded with fresh := fun hpending => absurd hpending hstarted, entered := hle }
  · have hbody : Led o s (a.modifyRun r fun run => { run with phase := .body, entered := true }) := by
      refine h.modify ?_ (fun _ _ => ?_) rfl rfl rfl h.turns (.inl rfl)
      · exact fun _ => rfl
      · exact ⟨rfl, rfl, .inr (.inr ⟨nofun, nofun, nofun⟩)⟩
    refine hbody.entered hle (fun hnone => ?_) (fun r' prior origin hstage => ?_)
      fun r' run' hget' => ?_
    · cases hgate.symm.trans hnone
    · have hstage' : a.stage = .tracking r' prior origin := hstage
      unfold Activation.tokens at htokens
      rw [hstage'] at htokens
      cases htokens
    · rcases of_modify_get hget' with ⟨old, -, -, rfl⟩ | ⟨hne, hold⟩
      · exact ⟨nofun, nofun, nofun⟩
      have hover : run'.phase = .over := Decidable.of_not_not fun hnot =>
        hne (Option.some.inj ((hsound.alone r' run' hold hnot).symm.trans hgate))
      rw [hover]
      exact ⟨nofun, nofun, nofun⟩

/-- The record counts, and the activation is in step with it. -/
structure Kept (o : JobOptions V) (s : Job V) : Prop where
  sound : s.Sound
  recorded : Recorded o s
  led : ∀ a, s.live = some a → Led o s a

/-- The activation has moved, and what the record counts may have with it. -/
theorem Kept.of_led (hsound : t.Sound) (hlive : t.live = some b) {u : Job V}
    (hstored : t.stored = u.stored) (hresumes : t.resumes = u.resumes)
    (hentered : t.entered = u.entered) (hrecorded : Recorded o u) (hled : Led o u b) :
    Kept o t where
  sound := hsound
  recorded := by
    unfold Recorded base
    rw [hstored, hresumes, hentered]
    exact hrecorded
  led c hc := by
    cases hlive.symm.trans hc
    exact hled.congr hstored hresumes hentered

theorem Kept.of_none (hnone : t.live = none) (hrecorded : Recorded o t) : Kept o t where
  sound := .of_none hnone
  recorded := hrecorded
  led c hc := by cases hnone.symm.trans hc

theorem observe_kept (s : Job V) (status : JobStatus) : (s.observe status).stored = s.stored ∧
    (s.observe status).resumes = s.resumes ∧ (s.observe status).entered = s.entered := by
  unfold observe
  split <;> exact ⟨rfl, rfl, rfl⟩

theorem conclude_kept (s : Job V) (a : Activation V) (f : Finisher) :
    (s.conclude a f).stored = s.stored ∧ (s.conclude a f).resumes = s.resumes ∧
      (s.conclude a f).entered = s.entered := by
  cases f with
  | cancel => exact observe_kept _ _
  | giveUp | settle => exact ⟨rfl, rfl, rfl⟩

theorem settled_kept (o : JobOptions V) (s : Job V) (a : Activation V) (f : Finisher) :
    (s.settled o a f).stored = s.stored ∧ (s.settled o a f).resumes = s.resumes ∧
      (s.settled o a f).entered = s.entered := by
  unfold settled
  split
  · exact ⟨rfl, rfl, rfl⟩
  · exact conclude_kept s a f

theorem written_kept (o : JobOptions V) (s : Job V) (a : Activation V) (what : Saving V) :
    (s.written o a what).stored = s.stored ∧ (s.written o a what).resumes = s.resumes ∧
      (s.written o a what).entered = s.entered := by
  cases what with
  | finishing f =>
    unfold written
    dsimp only
    split
    · exact ⟨rfl, rfl, rfl⟩
    · exact settled_kept o s a f
  | _ => exact ⟨rfl, rfl, rfl⟩

theorem paid_owed (o : JobOptions V) (s : Job V) (a : Activation V) (what : Saving V) :
    ∃ owed, s.paid o a what = { a with owed := owed } := by
  unfold paid
  split
  · split
    · exact ⟨a.owed, rfl⟩
    · exact ⟨false, rfl⟩
  · exact ⟨false, rfl⟩

/-- A step of a job whose store works keeps the count. -/
theorem Kept.moves (h : Kept o s) (hlive : s.live = some a) (hworks : l.Works)
    (hmoves : Moves o s a l t) : Kept o t := by
  have hsound := h.sound a hlive
  have hled := h.led a hlive
  have hrecorded := h.recorded
  have hnext : t.Sound := Sound.moves hsound hmoves
  cases hmoves with
  | @submit turn hasks =>
    refine .of_led (u := s) hnext rfl rfl rfl rfl hrecorded
      (hled.still rfl rfl rfl rfl rfl (fun turn' hmem => ?_) (.inl rfl) (fun _ => rfl) goes_refl)
    rcases List.mem_append.1 hmem with hmem | hmem
    · exact hled.turns turn' hmem
    rw [List.mem_singleton.1 hmem]
    refine ⟨fun heq => ?_, fun heq => ?_⟩
    all_goals
      rw [heq] at hworks
      exact hworks
  | @begin now turn queue u hstage hqueue hu =>
    subst hu
    have hbegun : Led o s (({ a with queue := queue } : Activation V).begin o now turn) :=
      hled.begins hsound hrecorded hstage hqueue
    split at hnext
    · obtain ⟨hstored, hresumes, hentered⟩ := observe_kept (s.setLive
        (({ a with queue := queue } : Activation V).begin o now turn)) a.state.status
      rw [if_pos ‹_›]
      exact .of_led (u := s) hnext (observe_live _ _) hstored hresumes hentered hrecorded hbegun
    · rw [if_neg ‹_›]
      exact .of_led (u := s) hnext rfl rfl rfl rfl hrecorded hbegun
  | @written what hstage =>
    obtain ⟨owed, howed⟩ := paid_owed o s a what
    obtain ⟨c, hc, hled'⟩ := hled.written hsound hrecorded hstage owed
    obtain ⟨hstored, hresumes, hentered⟩ :=
      written_kept o (s.durable o a what) (s.paid o a what) what
    rw [howed] at hstored hresumes hentered hnext ⊢
    exact .of_led hnext hc hstored hresumes hentered (hled.recorded hstage) hled'
  | unwritten hstage => exact hworks.elim
  | @tracked r prior origin hstage =>
    have hinStep := hled.inStep (.inl fun what heq => by cases hstage.symm.trans heq)
    have htoken : a.stage.token = some (r, .starting) := hstage ▸ rfl
    obtain ⟨-, -, -, run, hget, hphase⟩ := hsound.awaited htoken
    refine .of_led (u := s) hnext rfl rfl rfl rfl hrecorded
      (led_of_rests (fun turn hmem => ?_) rfl hinStep
        (hled.runs.goes rfl rfl (.inl rfl) (goes_modify (r := r) ?_ rfl)))
    · rcases List.mem_append.1 hmem with hmem | hmem
      · exact hled.turns turn hmem
      · rw [List.mem_singleton.1 hmem]
        exact ⟨nofun, nofun⟩
    · intro run' hget'
      cases hget.symm.trans hget'
      exact ⟨rfl, rfl, .inr (.inl ⟨hphase, rfl⟩)⟩
  | @untracked r prior origin hstage =>
    have hinStep := hled.inStep (.inl fun what heq => by cases hstage.symm.trans heq)
    obtain ⟨hundoes, horigin⟩ := hled.tracks r prior origin hstage
    refine .of_led (u := s) hnext rfl rfl rfl rfl hrecorded
      (.takeBack (a := { a.setPhase r .over with gate := none }) hled.turns ?_ hinStep hundoes
        horigin fun _ => rfl)
    refine hled.runs.goes rfl rfl (.inr rfl) (goes_modify (r := r) (fun run _ => ?_) rfl)
    exact ⟨rfl, rfl, .inr (.inr ⟨nofun, nofun, nofun⟩)⟩
  | @retained f hstage =>
    have hinStep := hled.inStep (.inl fun what heq => by cases hstage.symm.trans heq)
    obtain ⟨c, hc, hled'⟩ := hled.settled hinStep f
    obtain ⟨hstored, hresumes, hentered⟩ := settled_kept o s a f
    exact .of_led hnext hc hstored hresumes hentered hrecorded hled'
  | @unretained error f hstage =>
    have hinStep := hled.inStep (.inl fun what heq => by cases hstage.symm.trans heq)
    exact .of_led (u := s) hnext rfl rfl rfl rfl hrecorded (hled.unfinished hinStep error f)
  | @hooked f hstage =>
    have hinStep := hled.inStep (.inl fun what heq => by cases hstage.symm.trans heq)
    obtain ⟨hstored, hresumes, hentered⟩ := conclude_kept s a f
    exact .of_led hnext (conclude_live s a f) hstored hresumes hentered hrecorded
      (hled.finished hinStep f)
  | clearedRetain hstage => exact absurd hstage hled.uncleared.2
  | cleared hstage | uncleared hstage | crashCleared hstage => exact absurd hstage hled.uncleared.1
  | enter hget hready =>
    obtain ⟨hrecorded', hled'⟩ := hled.enter hsound hrecorded hget hready rfl
    exact .of_led (u := { s with entered := _ }) hnext rfl rfl rfl rfl hrecorded' hled'
  | winds hget hphase hresult =>
    refine .of_led (u := s) hnext rfl rfl rfl rfl hrecorded
      (hled.modify ?_ (fun run _ => ?_) rfl rfl rfl hled.turns (.inl rfl))
    · exact fun _ => rfl
    · exact goes_winding run
  | @returns r run result outcome hget hphase haborted hresult =>
    refine .of_led (u := s) hnext rfl rfl rfl rfl hrecorded
      (hled.modify ?_ (fun run _ => ?_) rfl rfl rfl (fun turn hmem => ?_) (.inl rfl))
    · exact fun _ => rfl
    · exact ⟨rfl, rfl, .inr (.inr ⟨nofun, nofun, nofun⟩)⟩
    · rcases List.mem_append.1 hmem with hmem | hmem
      · exact hled.turns turn hmem
      · rw [List.mem_singleton.1 hmem]
        exact ⟨nofun, nofun⟩
  | release hget hphase =>
    refine .of_led (u := s) hnext rfl rfl rfl rfl hrecorded
      (hled.modify ?_ (fun run _ => ?_) rfl rfl rfl hled.turns ?_)
    · exact fun _ => rfl
    · exact ⟨rfl, rfl, .inr (.inr ⟨nofun, nofun, nofun⟩)⟩
    · split
      · exact .inr rfl
      · exact .inl rfl
  | deactivate hopen =>
    refine .of_led (u := s) hnext rfl rfl rfl rfl hrecorded ?_
    unfold Activation.deactivate
    split
    · refine hled.modify ?_ (fun run _ => ?_) rfl rfl rfl hled.turns (.inl rfl)
      · exact fun _ => rfl
      · exact ⟨rfl, rfl, .inl rfl⟩
    · exact hled.still rfl rfl rfl rfl rfl hled.turns (.inl rfl) (fun _ => rfl) goes_refl
  | crash hnothing => exact .of_none rfl hrecorded
  | crashWritten hstage => exact .of_none rfl (hled.recorded hstage)

/-- A job is activated with what the record has. -/
theorem Kept.activate (h : Kept o s) : Kept o (s.activate o) := by
  have hnew : ({ state := s.base o } : Activation V).Sound := ⟨nofun, nofun, rfl⟩
  have hat : At o s { state := s.base o } :=
    ⟨nofun, rfl, .refl _, h.recorded, runs_of_idle hnew rfl⟩
  refine .of_led (u := s) (Sound.activate s) rfl rfl rfl rfl h.recorded ?_
  split
  case isTrue hstatus => exact hat.resumeTask hstatus
  case isFalse => exact hat.keeps (.refl _) false

theorem Kept.step (h : Kept o s) (hworks : l.Works) (hstep : s.step o l = some t) : Kept o t := by
  obtain ⟨a, hlive, hmoves⟩ | ⟨-, -, rfl⟩ := cases_of_step hstep
  · exact h.moves hlive hworks hmoves
  · exact h.activate

theorem kept_of_reach (h : (job o).Reach (fun _ l => l.Works) s) : Kept o s := by
  refine h.invariant (fun s hs => ?_) fun s l t hs hworks hstep => hs.step hworks hstep
  obtain rfl : s = {} := hs
  refine .of_none rfl ⟨fun _ => ⟨rfl, rfl, rfl, rfl, rfl, rfl⟩, fun hpending => ?_, fun hpos => ?_,
    Nat.zero_le _, Nat.zero_le _⟩
  · exact absurd rfl hpending
  · exact absurd hpos (Nat.lt_irrefl 0)

/-! ## A crash loop -/

/-- A host that dies whenever the first turn of the run is saved. -/
def crashLoop (now : Nat) : Nat → List (Label V)
  | 0 => []
  | k + 1 => .activate :: .begin now :: .written none :: .crash false :: crashLoop now k

theorem exec_works {ls : List (Label V)} (hstep : s.step o l = some t) (hworks : l.Works) :
    (job o).exec (fun _ l => l.Works) s (l :: ls) = (job o).exec (fun _ l => l.Works) t ls := by
  have hstep' : (job o).step s l = some t := hstep
  simp only [Machine.System.exec, if_pos hworks, hstep']

/-- The activation of a job that a crash has left behind. -/
def resumed (record : JobState V) : Activation V where
  state := record
  queue := [.first 0]
  runs := [{
    input := record.input
    restarts := record.attempts
    resumed := false
    period := 0
    phase := .launched }]
  gate := some 0

theorem step_activate (hlive : s.live = none) (hstored : s.stored = some record)
    (hstatus : record.status = .running) :
    s.step o .activate = some (s.setLive (resumed record)) := by
  unfold step
  rw [hlive]
  unfold activate
  dsimp only
  rw [hstored, Option.getD_some, if_pos hstatus]
  rfl

/-- The first turn counts the attempt, or gives the job up; either is saved. -/
theorem firstTurn_saves (hstatus : a.state.status = .running) {run : Run V}
    (hrestarts : run.restarts = a.state.attempts) (hone : 1 ≤ run.restarts) (now : Nat) :
    ∃ what, (a.firstTurn o r run now).stage = .saving what ∧ (∀ entry, what ≠ .appending entry) ∧
      ((a.firstTurn o r run now).state.status = .failed ∨
        (a.firstTurn o r run now).state.status = .running ∧
        (a.firstTurn o r run now).state.attempts = a.state.attempts + 1 ∧
        (a.firstTurn o r run now).state.attempts ≤ o.maxAttempts) := by
  have hcount : (a.state.count (run.restarts + 1)).attempts = a.state.attempts + 1 := by
    rw [hrestarts]
    exact (count_attempts _ _).1.trans (Nat.max_eq_right (Nat.le_succ _))
  have hsame : (a.state.count (run.restarts + 1)).status = .running :=
    (count_attempts _ _).2.trans hstatus
  unfold Activation.firstTurn
  rw [if_neg (fun hnot => hnot hstatus)]
  dsimp only
  split
  case isTrue => exact ⟨_, rfl, nofun, .inl rfl⟩
  case isFalse hfew =>
    rw [if_pos (Nat.lt_succ_of_le hone)]
    exact ⟨_, rfl, nofun, .inr ⟨hsame, hcount, Nat.le_of_not_lt hfew⟩⟩

theorem step_crash (o : JobOptions V) (hlive : s.live = some a) :
    s.step o (.crash false) = some { s with live := none } := by
  unfold step
  rw [hlive]
  dsimp only [stepLive]
  split <;> rfl

theorem written_live (o : JobOptions V) (s : Job V) (a : Activation V) (what : Saving V) :
    ∃ c, (s.written o a what).live = some c := by
  cases what with
  | finishing f =>
    unfold written
    dsimp only
    split
    · exact ⟨_, rfl⟩
    · exact (settled_live o s a f).elim (fun hlive => ⟨_, hlive⟩) fun hlive => ⟨_, hlive⟩
  | _ => exact ⟨_, rfl⟩

/-- The job has been resumed once more, or is given up. -/
theorem exec_crashLoop (now : Nat) (hlive : s.live = none) (hstored : s.stored = some record)
    (hstatus : record.status = .running) (hone : 1 ≤ record.attempts) :
    ∃ (t : Job V) (next : JobState V),
      (∀ k, (job o).exec (fun _ l => l.Works) s (crashLoop now (k + 1)) =
        (job o).exec (fun _ l => l.Works) t (crashLoop now k)) ∧
      t.live = none ∧ t.stored = some next ∧
      (next.status = .failed ∨ next.status = .running ∧
        next.attempts = record.attempts + 1 ∧ next.attempts ≤ o.maxAttempts) := by
  have hrestarts : (⟨record.input, record.attempts, false, 0, .launched, false, false, none, none,
      none⟩ : Run V).restarts = ({ resumed record with queue := [] } : Activation V).state.attempts :=
    rfl
  obtain ⟨what, hstage, hwhat, hnext⟩ := firstTurn_saves (o := o) (r := 0) hstatus hrestarts hone now
  generalize hb : ({ resumed record with queue := [] } : Activation V).firstTurn o 0
    ⟨record.input, record.attempts, false, 0, .launched, false, false, none, none, none⟩ now = b
    at hstage hnext
  have hbegin : (s.setLive (resumed record)).step o (.begin now) = some (s.setLive b) := hb ▸ rfl
  let w : Job V := ((s.setLive b).durable o b what).written o ((s.setLive b).paid o b what) what
  have hwritten : (s.setLive b).step o (.written none) = some w := by
    have hmatch : (s.setLive b).stepLive o b (.written none) = some w := by
      dsimp only [stepLive]
      rw [hstage]
    exact hmatch
  have hstored' : w.stored = some b.state := by
    refine (written_kept o _ _ what).1.trans ?_
    cases what with
    | appending entry => exact absurd rfl (hwhat entry)
    | _ => rfl
  obtain ⟨c, hc⟩ : ∃ c, w.live = some c := written_live o _ _ what
  refine ⟨{ w with live := none }, b.state, fun k => ?_, rfl, hstored', hnext⟩
  rw [crashLoop, exec_works (step_activate hlive hstored hstatus) trivial,
    exec_works hbegin trivial, exec_works hwritten trivial, exec_works (step_crash o hc) trivial]

/-- It ends, when the attempts are used up. -/
theorem crashLoop_fails (o : JobOptions V) (now left : Nat) {s : Job V} (hlive : s.live = none)
    (hstored : s.stored = some record) (hstatus : record.status = .running)
    (hone : 1 ≤ record.attempts) (hleft : o.maxAttempts ≤ record.attempts + left) :
    ∃ k ≤ left + 1, ∃ t failed,
      (job o).exec (fun _ l => l.Works) s (crashLoop now k) = some t ∧ t.stored = some failed ∧
      failed.status = .failed := by
  obtain ⟨t, next, hexec, hlive', hnext, hfailed | ⟨hrunning, hmore, hfew⟩⟩ :=
    exec_crashLoop (o := o) now hlive hstored hstatus hone
  · exact ⟨1, Nat.le_add_left 1 left, t, next, hexec 0, hnext, hfailed⟩
  · induction left generalizing s record t next with
    | zero => omega
    | succ left ih =>
      obtain ⟨u, last, hexec', hlive'', hlast, hfailed | ⟨hrunning', hmore', hfew'⟩⟩ :=
        exec_crashLoop (o := o) now hlive' hnext hrunning (by omega)
      · exact ⟨2, by omega, u, last, (hexec 1).trans (hexec' 0), hlast, hfailed⟩
      · obtain ⟨k, hk, v, failed, hall, hend⟩ := ih hlive' hnext hrunning (by omega) (by omega)
          u last hexec' hlive'' hlast hrunning' hmore' hfew'
        exact ⟨k + 1, Nat.succ_le_succ hk, v, failed, (hexec k).trans hall, hend⟩

/-! ## Launches -/

/-- A launch keeps what its turn has found. -/
theorem begin_origin {turn : Turn V} {now : Nat} (hstage : a.stage = .idle)
    (hlaunch : (a.begin o now turn).stage = .saving (.launching prior origin)) :
    origin = a.state := by
  have hbegins := Activation.begins_of_begin o a now turn
  generalize a.begin o now turn = b at hbegins hlaunch
  cases hbegins with
  | starts | resumes =>
    cases hlaunch
    rfl
  | heals hstatus =>
    unfold Activation.resumeTask at hlaunch
    split at hlaunch <;> cases hstage.symm.trans hlaunch
  | keeps | winds | readies => cases hstage.symm.trans hlaunch
  | saves hstate hwhat =>
    rcases hwhat with rfl | ⟨r, entry, -, rfl, -, -⟩
    · cases hlaunch
    · cases hlaunch
  | clears hturn hterminal hstage' =>
    rcases hstage' with rfl | rfl
    · cases hlaunch
    · cases hlaunch
  | cancels | givesUp | firsts | settles | pauses => cases hlaunch

/-- The launch of a job has failed, and what its turn has found is back in the record. -/
def TakenBack (o : JobOptions V) (t : Job V) (origin : JobState V) : Prop :=
  (∃ b, t.live = some b ∧ b.state = origin) ∧ t.stored = some origin ∧ origin.status ≠ .running ∧
    (t.activate o).live = some { state := origin }

theorem Led.takenBack (h : Led o s a) (hlive : s.live = some a) {running : JobState V}
    (hstage : a.stage = .saving (.reverting prior running origin)) :
    ∃ t, s.step o (.written none) = some t ∧ TakenBack o t origin := by
  obtain ⟨horigin, hstopped, -⟩ := h.reverts prior running origin hstage
  obtain ⟨owed, howed⟩ := paid_owed o s a (.reverting prior running origin)
  refine ⟨(s.durable o a (.reverting prior running origin)).setLive
    (({ a with owed := owed } : Activation V).await .idle), ?_, ⟨_, rfl, horigin⟩,
    congrArg some horigin, hstopped, ?_⟩
  · unfold step
    rw [hlive]
    dsimp only [stepLive]
    rw [hstage]
    dsimp only
    rw [howed]
    rfl
  · show some (if a.state.status = .running then _ else _) = _
    rw [if_neg (horigin ▸ hstopped)]
    exact congrArg (fun state => some ({ state := state } : Activation V)) horigin

/-- **The attempts of a job are bounded**, in every run with a working store: the record has one
attempt and one for each crash-resume that was saved, no more bodies are called than that, and who
crashes as often is failed; a second start changes nothing, and a launch that fails is taken
back. -/
theorem attempts_bounded {o : JobOptions V} {s : Job V}
    (h : (job o).Reach (fun _ l => l.Works) s) :
    (∀ record, s.stored = some record → record.status ≠ .pending →
      record.attempts = 1 + s.resumes) ∧
    s.entered ≤ o.maxAttempts ∧
    (∀ record, s.stored = some record → 0 < s.resumes → o.maxAttempts ≤ s.resumes →
      record.status = .failed) ∧
    (∀ now record, s.live = none → s.stored = some record → record.status = .running →
      ∃ k ≤ max o.maxAttempts 1, ∃ t failed,
        (job o).exec (fun _ l => l.Works) s (crashLoop now k) = some t ∧ t.stored = some failed ∧
        failed.status = .failed) ∧
    (∀ a input principal queue now, s.live = some a → a.stage = .idle →
      a.queue = .start input principal :: queue → a.state.status ≠ .pending →
      s.step o (.begin now) = some (s.setLive { a with queue := queue })) ∧
    (∀ a turn queue now prior origin, s.live = some a → a.stage = .idle → a.queue = turn :: queue →
      (({ a with queue := queue } : Activation V).begin o now turn).stage =
        .saving (.launching prior origin) → origin = a.state) ∧
    (∀ a prior running origin, s.live = some a →
      a.stage = .saving (.reverting prior running origin) →
      ∃ t, s.step o (.written none) = some t ∧ TakenBack o t origin) := by
  have hkept := kept_of_reach h
  have hbase : ∀ record, s.stored = some record → s.base o = record := fun record hstored => by
    unfold base
    rw [hstored]
    rfl
  refine ⟨fun record hstored hstarted => ?_, hkept.recorded.entered.2, fun record hstored => ?_,
    fun now record hlive hstored hstatus => ?_, fun a input principal queue now hlive hstage hqueue
    hstarted => ?_, fun a turn queue now prior origin hlive hstage hqueue hlaunch => ?_,
    fun a prior running origin hlive hstage => ?_⟩
  · rw [← hbase record hstored] at hstarted ⊢
    exact hkept.recorded.attempts hstarted
  · rw [← hbase record hstored]
    exact hkept.recorded.failed
  · have hattempts : record.attempts = 1 + s.resumes := by
      rw [← hbase record hstored]
      exact hkept.recorded.attempts (hbase record hstored ▸ hstatus ▸ nofun)
    obtain ⟨k, hk, hfails⟩ := crashLoop_fails o now (o.maxAttempts - record.attempts) hlive hstored
      hstatus (by omega) (by omega)
    exact ⟨k, by omega, hfails⟩
  · unfold step
    rw [hlive]
    dsimp only [stepLive]
    rw [hstage, hqueue]
    dsimp only [Turn.reports, Activation.begin]
    rw [if_pos hstarted]
    rfl
  · exact begin_origin (a := { a with queue := queue }) hstage hlaunch
  · exact (hkept.led a hlive).takenBack hlive hstage

/-- A host dies after the body was called, and the next one too. -/
def crashed : List (Label Nat) :=
  [.activate, .submit (.start 5 none), .begin 0, .written none, .tracked true, .begin 1, .enter 0,
    .crash false, .activate, .begin 2, .written none, .enter 0, .crash false]

/-- A third one ends it. -/
theorem attempts_bounded_crashed : ∃ s : Job Nat,
    s.resumes = 1 ∧ s.entered = 2 ∧ s.stored.map JobState.attempts = some (1 + s.resumes) ∧
    s.entered ≤ 3 ∧ ∃ k ≤ 3, ∃ t failed, (job { extra := 0 }).exec (fun _ l => l.Works) s
      (crashLoop 9 k) = some t ∧ t.stored = some failed ∧ failed.status = .failed := by
  have hstart : (job (V := Nat) { extra := 0 }).Reach (fun _ l => l.Works) {} := .start rfl
  have hrun := hstart.exec_get crashed (by decide)
  obtain ⟨-, hentered, -, hloop, -⟩ := attempts_bounded hrun
  refine ⟨_, by decide, by decide, by decide, hentered, ?_⟩
  exact hloop 9 { extra := 0, status := .running, input := some 5, attempts := 2, startedAt := some 0 }
    (by decide) (by decide) rfl

end Job

end SigxActors.Job
