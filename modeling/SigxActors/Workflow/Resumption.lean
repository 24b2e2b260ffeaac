/-
  Workflow/Resumption.lean --- when a run goes on after a crash as it would have
  gone on without one.

  A crash between two appends, and a touch between them, leave the log where one
  of the two has landed.  The next activation takes it up from the state alone, and
  the state does not say that a move is owed.  Where no turn runs into that, what
  is recorded is what a run without a crash would have recorded.
-/
import SigxActors.Workflow.Steering

set_option autoImplicit false

namespace SigxActors.Workflow

open SigxActors.Js

/-! ## The purpose -/

/-- What a run leaves behind, whatever crashed. -/
structure CrashFree (options : WorkflowOptions) (history : List Stamp) : Prop where
  /-- The cursor goes from the start node along the definition. -/
  path : ∀ before stamp after, history = before ++ stamp :: after →
    ∀ next seq, stamp.entry = .move next seq → options.OnPath (Stamp.fold before) next
  /-- A delay whose wake is recorded is not slept again before the move out of it. -/
  slept : ∀ before stamp after, history = before ++ stamp :: after →
    ∀ until_ seq durable next, stamp.entry = .sleep until_ seq durable next →
      (journey options before).owed = none
  /-- A run that fails has come to a node, and failed for a reason. -/
  failed : ∀ before stamp after, history = before ++ stamp :: after →
    ∀ at_ error, stamp.entry = .end_ .failed at_ error →
      (Stamp.fold before).transitions ≠ 0 ∧ options.MayFail (Stamp.fold before)

/-- A log that permits each of its entries. -/
theorem Permitted.crashFree {options : WorkflowOptions} {history : List Stamp}
    (h : Permitted options history) : CrashFree options history := by
  refine ⟨fun before stamp after heq next seq hmove => ?_,
    fun before stamp after heq until_ seq durable next hsleep => ?_,
    fun before stamp after heq at_ error hend => ?_⟩
  · have hpermits := h before stamp after heq
    rw [hmove] at hpermits
    have hbefore : Permitted options before := h.prefix_ (heq ▸ List.prefix_append _ _)
    rw [← journey_state before]
    exact (Permitted.sound rfl hbefore).onPath hpermits
  · have hpermits := h before stamp after heq
    rw [hsleep] at hpermits
    exact hpermits.1.1
  · have hpermits := h before stamp after heq
    rw [hend] at hpermits
    have hstate : (journey options before).state = Stamp.fold before := journey_state before
    rw [← hstate]
    exact ⟨hpermits.1.2, hpermits.2⟩

theorem Chained.initial : ∀ {writes : List Write} {history entries : List Stamp},
    Chained history writes entries → history <+: entries := by
  intro writes
  induction writes with
  | nil =>
    intro history entries h
    obtain rfl := h
    exact List.prefix_refl _
  | cons w rest ih =>
    intro history entries h
    exact (h.1 ▸ List.prefix_append history w.stamp.toList).trans (ih h.2)

/-! ## Over a run -/

namespace Run

variable {options : WorkflowOptions} {s t : Run} {l : Label} {i : Nat} {a b : Activation}

/-- What is recorded is permitted, and so is what an activation that may still write has applied. -/
structure Steered (options : WorkflowOptions) (s : Run) : Prop where
  history : Permitted options s.history
  activations : ∀ a ∈ s.activations, a.etag = s.etag → a.Steered options

/-- What reaches the storage is written.  A run is started that has come to no node, and is
advanced once it has come to one and while no move is owed. -/
def Resumes (options : WorkflowOptions) (s : Run) (l : Label) : Prop :=
  l.works ∧
    match l with
    | .start i _ _ _ => ∀ a ∈ s.activations[i]?, a.etag = s.etag →
        a.state.unstarted = true → a.state.transitions = 0
    | .tick i k => ∀ a ∈ s.activations[i]?, a.etag = s.etag →
        a.ticks[k]? = some .advance → a.state.status = .running →
          (options.definitionOf a.state).isSome = true →
            (journey options a.entries).owed = none ∧ a.state.transitions ≠ 0
    | _ => True

theorem Steered.put (h : s.Steered options) (hb : b.etag = s.etag → b.Steered options) :
    (s.put i b).Steered options :=
  ⟨h.history, fun c hc hfresh => (mem_put hc).elim (fun hc => h.activations c hc hfresh)
    fun heq => by subst heq; exact hb hfresh⟩

/-- A write lands: what was applied before it is on record now. -/
theorem Steered.land {write : Write} {rest : List Write} {u : Run} (h : s.Steered options)
    (htagged : s.Tagged) (hcoherent : s.Coherent anyWake) (hget : s.activations[i]? = some a)
    (hwrites : a.writes = write :: rest) (hfresh : a.etag = s.etag)
    (hactivations : u.activations = s.activations)
    (hhistory : u.history = (s.land a.etag write).history)
    (hetag : u.etag = (s.land a.etag write).etag) (hb : b.etag = u.etag → b.Steered options) :
    (u.put i b).Steered options := by
  have ha := mem_of_get hget
  have hchained := hcoherent.chained a ha hfresh
  have hland := history_land hwrites hchained
  rw [hwrites] at hchained
  refine ⟨?_, fun c hc hcfresh => ?_⟩
  · show Permitted options u.history
    rw [hhistory, hland]
    exact (h.activations a ha hfresh).log.prefix_ hchained.2.initial
  · rcases mem_put hc with hc | rfl
    · exact absurd (hcfresh.trans hetag) (htagged.stale hfresh (hactivations ▸ hc))
    · exact hb hcfresh

theorem steered_dead : Activation.dead.Steered options :=
  ⟨permitted_nil, List.forall_mem_nil _, fun _ hnone => (by cases hnone),
    Nat.zero_le _⟩

/-- The step lemma. -/
theorem Steered.step (h : s.Steered options) (hfolded : s.Folded) (htagged : s.Tagged)
    (hlaned : s.Laned) (hcoherent : s.Coherent anyWake) (hok : s.Resumes options l)
    (hstep : s.step options l = some t) : t.Steered options := by
  -- An activation that may write, and the state its journey has come to.
  have hof : ∀ {j : Nat} {c : Activation}, s.activations[j]? = some c → c.etag = s.etag →
      c.Steered options ∧ c.Lane ∧ c.state = (journey options c.entries).state := by
    intro j c hget hfresh
    have hc := mem_of_get hget
    refine ⟨h.activations c hc hfresh, hlaned c hc, ?_⟩
    rw [journey_state]
    exact (hfolded.activations c hc).state
  -- An operation on an activation.
  have hput : ∀ {j : Nat} {d e : Activation}, Grows anyWake s.now d e →
      (d.etag = s.etag → e.Steered options) → (s.put j e).Steered options :=
    fun hgrows he => h.put fun hfresh => he (hgrows.etag ▸ hfresh)
  -- Nothing drives a run that sleeps, so that a touch may wake it.
  have hsleeps : ∀ {c : Activation}, c.Steered options → c.Lane → c.busy = false →
      c.state = (journey options c.entries).state →
      ∀ wake, c.state.wake = some wake → c.Idle :=
    fun hsteered hlane hbusy hstate wake hwake => hsteered.idle_of_wake hlane hbusy hstate hwake
  obtain ⟨hworks, hguard⟩ := hok
  cases Run.stepped hstep with
  | elapse | remind | lost | putBack => exact ⟨h.history, h.activations⟩
  | activate =>
    have hstate : s.loaded.state = (journey options s.loaded.entries).state := by
      rw [journey_state]
      exact hfolded.loaded.state
    have hloaded : s.loaded.Steered options :=
      ⟨h.history, List.forall_mem_nil _, fun _ hnone => (by cases hnone),
        Nat.zero_le _⟩
    have hidle : s.loaded.Idle := ⟨List.forall_mem_nil _, rfl⟩
    refine ⟨h.history, fun c hc hfresh => ?_⟩
    rw [mem_snoc] at hc
    rcases hc with hc | rfl
    · exact h.activations c hc hfresh
    · exact hloaded.nudge hstate fun _ _ => hidle
  | @start i a name vars version hget hfree =>
    refine hput (d := { a with busy := true }) Activation.grows_start fun hfresh => ?_
    obtain ⟨hsteered, hlane, hstate⟩ := hof hget hfresh
    have hbusy : Activation.Steered options { a with busy := true } := hsteered.kept rfl rfl rfl
    refine hbusy.start hstate fun hunstarted => ?_
    have htransitions : a.state.transitions = 0 := hguard a hget hfresh hunstarted
    have hidle := hlane.steerless (not_busy hfree) fun w hw howes =>
      (hsteered.owes hw howes).2.1 (hstate ▸ htransitions)
    exact ⟨htransitions, hidle.writes, hidle.call⟩
  | @status i a hget hfree =>
    refine hput (grows_status { a with busy := true }) fun hfresh => ?_
    obtain ⟨hsteered, hlane, hstate⟩ := hof hget hfresh
    have hbusy : Activation.Steered options { a with busy := true } := hsteered.kept rfl rfl rfl
    refine (hbusy.nudge hstate fun wake hwake => ?_).kept rfl rfl rfl
    have hidle := hsleeps hsteered hlane (not_busy hfree) hstate wake hwake
    exact ⟨hidle.writes, hidle.call⟩
  | fireAdvance hget | fireWake hget | tickFaulted hget | deactivate hget =>
    exact h.put fun hfresh => (hof hget hfresh).1.kept rfl rfl rfl
  | @tickAdvance i k a hget htick hbusy hfaulted =>
    refine hput (d := { a with ticks := a.ticks.eraseIdx k, busy := true })
      Activation.grows_advance fun hfresh => ?_
    obtain ⟨hsteered, hlane, hstate⟩ := hof hget hfresh
    have hturn : Activation.Steered options
        { a with ticks := a.ticks.eraseIdx k, busy := true } := hsteered.kept rfl rfl rfl
    refine hturn.advance hstate fun hrunning hdefinition => ?_
    have hsome := Option.isSome_iff_ne_none.2 hdefinition
    obtain ⟨howed, htransitions⟩ := hguard a hget hfresh htick hrunning hsome
    have hidle := hlane.steerless hbusy fun w hw howes => (hsteered.owes hw howes).1 howed
    exact ⟨⟨howed, hstate ▸ htransitions⟩, hidle.writes, hidle.call⟩
  | @tickWake i k seq a hget htick hbusy hfaulted =>
    refine hput (d := { a with ticks := a.ticks.eraseIdx k, busy := true })
      (Activation.grows_wake fun _ _ _ => trivial) fun hfresh => ?_
    obtain ⟨hsteered, hlane, hstate⟩ := hof hget hfresh
    have hturn : Activation.Steered options
        { a with ticks := a.ticks.eraseIdx k, busy := true } := hsteered.kept rfl rfl rfl
    refine hturn.wake hstate fun wake hwake => ?_
    have hidle := hsleeps hsteered hlane hbusy hstate wake hwake
    exact ⟨hidle.writes, hidle.call⟩
  | @deliver k i reminder a again hdelivery hget hfree =>
    have ht : (s.put i _).Steered options := hput (grows_delivered a reminder.seq) fun hfresh => by
      obtain ⟨hsteered, hlane, hstate⟩ := hof hget hfresh
      have hbusy : Activation.Steered options { a with busy := true } :=
        hsteered.kept rfl rfl rfl
      refine hbusy.onReminder hstate fun wake hwake => ?_
      have hidle := hsleeps hsteered hlane (not_busy hfree) hstate wake hwake
      exact ⟨hidle.writes, hidle.call⟩
    exact ⟨ht.history, ht.activations⟩
  | @rejected i a write rest ok message jitter hget hwrites hbad =>
    have hfaulted := hbad.resolve_right fun hok => Bool.noConfusion (hok.symm.trans hworks)
    have hstale := htagged.faulted a (mem_of_get hget) hfaulted
    exact hput (d := { a with writes := rest }) Activation.grows_reject
      fun hfresh => absurd hfresh hstale
  | @landed i a write rest message jitter hget hwrites hfaulted hfresh =>
    obtain ⟨hsteered, hlane, hstate⟩ := hof hget hfresh
    refine h.land htagged hcoherent hget hwrites hfresh ?_ (history_note i _) (etag_note i _)
      fun _ => ?_
    · rw [activations_note, activations_land]
    · have hsteers := hsteered.writes write (hwrites ▸ List.mem_cons_self)
      obtain ⟨htail, hidle⟩ : Activation.Steered options
          { a with writes := rest, etag := (s.land a.etag write).etag } ∧
            (write.thread.point.drives = true →
              Activation.Idle { a with writes := rest, etag := (s.land a.etag write).etag }) :=
        hsteered.tail hwrites
      exact htail.resume hsteers hidle
  | @conflicted i a write rest message jitter hget hwrites hstale =>
    exact hput (d := { a with writes := rest, faulted := true }) Activation.grows_reject
      fun hfresh => absurd hfresh hstale
  | returned out hget hcall =>
    exact hput Activation.grows_returned fun hfresh => (hof hget hfresh).1.returned hcall
  | threw message jitter hget hcall =>
    exact hput Activation.grows_threw fun hfresh => (hof hget hfresh).1.threw hcall
  | @armed i k a arming hget harming =>
    have ht : (s.put i _).Steered options :=
      hput (grows_disarmed _ a k arming) fun hfresh => (hof hget hfresh).1.armed
    exact ⟨ht.history, ht.activations⟩
  | @unarmed i k a arming hget harming =>
    exact hput (d := { a with armings := a.armings.eraseIdx k }) Activation.grows_armed
      fun hfresh => (hof hget hfresh).1.armed
  | @crashLanded i a write rest hget hwrites hfaulted hfresh =>
    exact h.land htagged hcoherent hget hwrites hfresh (activations_land _ _) rfl rfl
      fun _ => steered_dead
  | crashed hget => exact h.put fun _ => steered_dead

theorem steered_initial (h : Run.initial s) : s.Steered options := by
  obtain rfl := h
  exact ⟨permitted_nil, List.forall_mem_nil _⟩

instance (options : WorkflowOptions) (s : Run) (l : Label) : Decidable (s.Resumes options l) := by
  induction l using Label.casesOn <;> dsimp only [Run.Resumes] <;> infer_instance

end Run

/-- **A run goes on as if nothing had crashed**: in every run that is started before it has come to
a node, and advanced only after that and while no move is owed. -/
theorem crashFree_of_resumes {options : WorkflowOptions} {s : Run}
    (h : (workflow options).Reach (Run.Resumes options) s) : CrashFree options s.history := by
  have hall : (s.Folded ∧ s.Tagged ∧ s.Laned ∧ s.Coherent Run.anyWake) ∧ s.Steered options := by
    refine h.invariant
      (I := fun s => (s.Folded ∧ s.Tagged ∧ s.Laned ∧ s.Coherent Run.anyWake) ∧ s.Steered options)
      ?_ ?_
    · intro s hs
      exact ⟨⟨Run.folded_initial hs, Run.tagged_initial hs, Run.laned_initial hs,
        Run.coherent_initial hs⟩, Run.steered_initial hs⟩
    · rintro s l t ⟨⟨hfolded, htagged, hlaned, hcoherent⟩, hsteered⟩ hok hstep
      have hready : s.Ready Run.anyWake l :=
        ⟨fun _ _ => trivial, fun _ _ _ _ _ _ _ _ _ _ _ _ => trivial,
          fun _ _ _ _ _ _ _ _ _ _ _ => trivial⟩
      exact ⟨⟨hfolded.step hstep, htagged.step hstep, hlaned.step hstep,
        hcoherent.step hfolded htagged hok.1 hready hstep⟩,
        hsteered.step hfolded htagged hlaned hcoherent hok hstep⟩
  exact hall.2.history.crashFree

/-! ## A delay and a task -/

/-- A delay, and a task after it. -/
def delayThenTask : WorkflowOptions where
  definitions :=
    [⟨"w", 1, "a", (JsMap.empty.set "a" (.delay 10 (some "b"))).set "b" (.task ⟨"h", none, none, none⟩)⟩]
  handlers := ["h"]

/-- The run is started, sleeps and is woken. -/
def toTheWake : List Label :=
  [.activate, .start 0 "w" .empty none, .settle 0 true "" 0, .settle 0 true "" 0, .fireAdvance 0,
    .tick 0 0, .settle 0 true "" 0, .elapse 10, .fireWake 0, .tick 0 0]

/-- The host dies once the run has moved on, and the next one ends it. -/
theorem crashFree_delayThenTask :
    ∃ s : Run, CrashFree delayThenTask s.history ∧ (Stamp.fold s.history).status = .completed := by
  have hstart : (workflow delayThenTask).Reach (Run.Resumes delayThenTask) {} := .start rfl
  have hend := hstart.exec_get
    (toTheWake ++ [.settle 0 true "" 0, .settle 0 true "" 0, .crash 0 false, .activate,
      .fireAdvance 1, .tick 1 0, .settle 1 true "" 0, .return_ 1 .null, .settle 1 true "" 0])
    (by decide)
  exact ⟨_, crashFree_of_resumes hend, by decide⟩

/-- The host dies with the wake recorded and the move out of the delay not. -/
def atTheDelay : Run :=
  ((workflow delayThenTask).exec (fun _ l => l.works) {}
    (toTheWake ++ [.crash 0 true, .activate, .fireAdvance 1, .tick 1 0, .settle 1 true "" 0])).getD {}

/-- The delay is slept again. -/
theorem not_crashFree : ¬ ∀ options s, (workflow options).Reach (fun _ l => l.works) s →
      CrashFree options s.history := by
  intro h
  have hstart : (workflow delayThenTask).Reach (fun _ l => l.works) {} := .start rfl
  have hexec : (workflow delayThenTask).exec (fun _ l => l.works) {}
      (toTheWake ++ [.crash 0 true, .activate, .fireAdvance 1, .tick 1 0, .settle 1 true "" 0]) =
        some atTheDelay := rfl
  have hslept := (h delayThenTask _ (hstart.exec hexec)).slept (atTheDelay.history.take 4)
    ⟨.sleep 20 2 false (some "b"), 10, none⟩ [] rfl 20 2 false (some "b") rfl
  exact absurd hslept (by decide)

end SigxActors.Workflow
