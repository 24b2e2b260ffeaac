/-
  Workflow/Coherence.lean --- a run and the activation that may still write to it
  agree.

  Writes that reach the storage are taken to succeed.  A write under an etag that
  is no longer the record's is refused all the same, so that only an activation
  with the etag of the record goes on, and such a one has applied what is recorded
  and then what waits at its gate.  Every list of entries is `Honest` then.
-/
import SigxActors.Workflow.Gate

set_option autoImplicit false

namespace SigxActors.Workflow

open SigxActors.Js

/-! ## Etags -/

/-- No activation holds an etag the record has not reached, and one that has lost a conflict does
not hold the record's. -/
structure Run.Tagged (s : Run) : Prop where
  bound : ∀ a ∈ s.activations, ∀ tag, a.etag = some tag →
    ∃ record, s.record = some record ∧ tag ≤ record.etag
  faulted : ∀ a ∈ s.activations, a.faulted = true → a.etag ≠ s.etag
  unrecorded : s.etag = none → s.history = []

namespace Run

variable {options : WorkflowOptions} {s t : Run} {l : Label} {i : Nat} {a b : Activation}
  {ready : Wake → Nat → Nat → Prop}

/-- A write mints the next etag. -/
theorem record_land (write : Write) (hfresh : a.etag = s.etag) :
    ∃ record, (s.land a.etag write).record = some record ∧
      record.etag = (s.etag.elim 0 (· + 1)) := by
  unfold Run.land
  split
  · rename_i stamp record tag hstamp hrecord htag
    refine ⟨_, rfl, ?_⟩
    rw [← hfresh, htag]
    rfl
  · refine ⟨_, rfl, ?_⟩
    rw [hfresh]

variable {write : Write}

theorem etag_land (hfresh : a.etag = s.etag) :
    (s.land a.etag write).etag = some (s.etag.elim 0 (· + 1)) := by
  obtain ⟨record, hrecord, htag⟩ := record_land write hfresh
  rw [Run.etag, hrecord, Option.map_some, htag]

theorem activations_land (etag : Option Nat) (write : Write) :
    (s.land etag write).activations = s.activations := by
  unfold Run.land
  split
  · rfl
  · rfl

theorem activations_note (i : Nat) (point : Point) :
    (s.note i point).activations = s.activations := by
  unfold Run.note
  split <;> rfl

theorem record_note (i : Nat) (point : Point) : (s.note i point).record = s.record := by
  unfold Run.note
  split <;> rfl

theorem history_note (i : Nat) (point : Point) : (s.note i point).history = s.history := by
  unfold Run.note
  split <;> rfl

/-- What an activation holds is behind the next etag. -/
theorem Tagged.stale {c : Activation} (h : s.Tagged) (hfresh : a.etag = s.etag)
    (hc : c ∈ s.activations) : c.etag ≠ (s.land a.etag write).etag := by
  rw [etag_land hfresh]
  intro heq
  obtain ⟨record, hrecord, hle⟩ := h.bound c hc _ heq
  have htag : s.etag = some record.etag := by rw [Run.etag, hrecord, Option.map_some]
  rw [htag, Option.elim_some] at hle
  omega

theorem Tagged.put (h : s.Tagged) (hget : s.activations[i]? = some a) (hetag : b.etag = a.etag)
    (hfaulted : b.faulted = true → a.faulted = true ∨ a.etag ≠ s.etag) : (s.put i b).Tagged := by
  have ha := mem_of_get hget
  refine ⟨fun c hc tag htag => ?_, fun c hc hcf => ?_, h.unrecorded⟩
  · rcases mem_put hc with hc | rfl
    · exact h.bound c hc tag htag
    · exact h.bound a ha tag (hetag ▸ htag)
  · rcases mem_put hc with hc | rfl
    · exact h.faulted c hc hcf
    · rw [hetag]
      exact (hfaulted hcf).elim (h.faulted a ha) id

theorem Tagged.put_landed {u : Run} (h : s.Tagged) (hfresh : a.etag = s.etag)
    (hactivations : u.activations = s.activations)
    (hrecord : u.record = (s.land a.etag write).record)
    (hb : b.etag = (s.land a.etag write).etag ∧ b.faulted = false ∨
      b.etag = none ∧ b.faulted = false) : (u.put i b).Tagged := by
  obtain ⟨record, hnew, htag⟩ := record_land write hfresh
  have hetag : (u.put i b).etag = (s.land a.etag write).etag := by
    show u.record.map _ = _
    rw [hrecord]
    rfl
  have hold : ∀ c ∈ s.activations, ∀ tag, c.etag = some tag →
      ∃ record, (u.put i b).record = some record ∧ tag ≤ record.etag := by
    intro c hc tag hctag
    obtain ⟨old, hget, hle⟩ := h.bound c hc tag hctag
    refine ⟨record, hrecord.trans hnew, ?_⟩
    rw [htag, Run.etag, hget, Option.map_some, Option.elim_some]
    omega
  refine ⟨fun c hc tag hctag => ?_, fun c hc hcf => ?_, fun hnone => ?_⟩
  · rcases mem_put hc with hc | rfl
    · exact hold c (hactivations ▸ hc) tag hctag
    rcases hb with ⟨hb, -⟩ | ⟨hb, -⟩
    · refine ⟨record, hrecord.trans hnew, ?_⟩
      rw [hb, Run.etag, hnew, Option.map_some] at hctag
      exact Nat.le_of_eq (Option.some.inj hctag).symm
    · rw [hb] at hctag
      cases hctag
  · rw [hetag]
    rcases mem_put hc with hc | rfl
    · exact h.stale hfresh (hactivations ▸ hc)
    have hb : c.faulted = false := hb.elim And.right And.right
    rw [hb] at hcf
    cases hcf
  · rw [hetag, etag_land hfresh] at hnone
    cases hnone

theorem Tagged.step (h : s.Tagged) (hstep : s.step options l = some t) : t.Tagged := by
  have hput : ∀ {j : Nat} {c d e : Activation}, s.activations[j]? = some c →
      Grows anyWake s.now d e → d.etag = c.etag → d.faulted = c.faulted → (s.put j e).Tagged :=
    fun hget hgrows hetag hfaulted =>
      h.put hget (hgrows.etag.trans hetag) fun he => .inl (by rwa [hgrows.faulted, hfaulted] at he)
  cases Run.stepped hstep with
  | elapse | remind | lost | putBack => exact { h with }
  | activate =>
    refine ⟨fun c hc tag htag => ?_, fun c hc hcf => ?_, h.unrecorded⟩
    · rw [mem_snoc] at hc
      rcases hc with hc | rfl
      · exact h.bound c hc tag htag
      rw [(grows_nudged s.loaded).etag] at htag
      obtain ⟨record, hrecord, rfl⟩ := Option.map_eq_some_iff.1 htag
      exact ⟨record, hrecord, Nat.le_refl _⟩
    · rw [mem_snoc] at hc
      rcases hc with hc | rfl
      · exact h.faulted c hc hcf
      · rw [(grows_nudged s.loaded).faulted] at hcf
        cases hcf
  | start name vars version hget hfree => exact hput hget Activation.grows_start rfl rfl
  | status hget hfree =>
    exact hput hget (grows_status _) rfl rfl
  | fireAdvance hget htimer => exact h.put hget rfl .inl
  | fireWake hget htimer hdue => exact h.put hget rfl .inl
  | tickFaulted hget htick hbusy hfaulted => exact h.put hget rfl .inl
  | tickAdvance hget htick hbusy hfaulted => exact hput hget Activation.grows_advance rfl rfl
  | tickWake hget htick hbusy hfaulted =>
    exact hput hget (Activation.grows_wake fun _ _ _ => trivial) rfl rfl
  | @deliver k i reminder a again hdelivery hget hfree =>
    have ht := hput hget (grows_delivered a reminder.seq) rfl rfl
    exact { ht with }
  | rejected message jitter hget hwrites hbad => exact hput hget Activation.grows_reject rfl rfl
  | @landed i a write rest message jitter hget hwrites hfaulted hfresh =>
    refine h.put_landed hfresh ?_ (record_note i _) (.inl ⟨(grows_resumed _ write.thread).etag, ?_⟩)
    · rw [activations_note, activations_land]
    · exact (grows_resumed _ write.thread).faulted.trans hfaulted
  | @conflicted i a write rest message jitter hget hwrites hstale =>
    exact h.put hget (grows_rejected options write.thread message jitter _).etag
      fun _ => .inr hstale
  | returned out hget hcall => exact hput hget Activation.grows_returned rfl rfl
  | threw message jitter hget hcall => exact hput hget Activation.grows_threw rfl rfl
  | @armed i k a arming hget harming =>
    have ht := hput hget (grows_disarmed _ a k arming) rfl rfl
    exact { ht with }
  | unarmed hget harming => exact hput hget Activation.grows_armed rfl rfl
  | @crashLanded i a write rest hget hwrites hfaulted hfresh =>
    exact h.put_landed hfresh (activations_land _ _) rfl (.inr ⟨rfl, rfl⟩)
  | crashed hget =>
    refine ⟨fun c hc tag htag => ?_, fun c hc hcf => ?_, h.unrecorded⟩
    · rcases mem_put hc with hc | rfl
      · exact h.bound c hc tag htag
      · cases htag
    · rcases mem_put hc with hc | rfl
      · exact h.faulted c hc hcf
      · cases hcf
  | deactivate hget hbusy hticks => exact h.put hget rfl .inl

theorem tagged_initial (h : Run.initial s) : s.Tagged := by
  obtain rfl := h
  exact ⟨List.forall_mem_nil _, List.forall_mem_nil _,
    fun _ => rfl⟩

end Run

/-! ## Agreement -/

/-- What waits at a gate, in order, leads from what is recorded to what has been applied. -/
def Chained : List Stamp → List Write → List Stamp → Prop
  | history, [], entries => entries = history
  | history, w :: rest, entries =>
      w.entries = history ++ w.stamp.toList ∧ Chained w.entries rest entries

theorem Chained.snoc {w : Write} {entries : List Stamp} (hw : w.entries = entries ++ w.stamp.toList) :
    ∀ {writes : List Write} {history : List Stamp}, Chained history writes entries →
      Chained history (writes ++ [w]) w.entries := by
  intro writes
  induction writes with
  | nil =>
    intro history h
    obtain rfl := h
    exact ⟨hw, rfl⟩
  | cons first rest ih =>
    intro history h
    exact ⟨h.1, ih h.2⟩

section

variable {ready : Wake → Nat → Nat → Prop} {now : Nat} {a b : Activation}

theorem Chained.grows {history : List Stamp} (h : Chained history a.writes a.entries)
    (hgrows : Grows ready now a b) : Chained history b.writes b.entries := by
  rcases hgrows.log with ⟨hs, he, hw⟩ | ⟨thread, stamp, hfits, hlinked, htime, hs, he, hw⟩ |
    ⟨thread, hpoint, hs, he, hw⟩
  · rw [hw, he]
    exact h
  · rw [hw]
    exact h.snoc (w := ⟨thread, some stamp, b.state, b.entries⟩) he
  · rw [hw, he]
    exact h.snoc (w := ⟨thread, none, a.state, a.entries⟩) (List.append_nil _).symm

/-- All that an activation has applied or will write is honest. -/
structure Activation.Faithful (ready : Wake → Nat → Nat → Prop) (a : Activation) : Prop where
  entries : Honest ready a.entries
  writes : ∀ w ∈ a.writes, Honest ready w.entries

theorem Activation.Faithful.grows (h : a.Faithful ready) (hfolded : a.Folded)
    (hgrows : Grows ready now a b) : b.Faithful ready := by
  rcases hgrows.log with ⟨hs, he, hw⟩ | ⟨thread, stamp, hfits, hlinked, htime, hs, he, hw⟩ |
    ⟨thread, hpoint, hs, he, hw⟩
  · exact ⟨he ▸ h.entries, fun w hmem => h.writes w (hw ▸ hmem)⟩
  · have hentries : Honest ready b.entries := by
      rw [he]
      exact h.entries.snoc (hfolded.state ▸ hfits)
    refine ⟨hentries, fun w hmem => ?_⟩
    rw [hw, mem_snoc] at hmem
    rcases hmem with hmem | rfl
    · exact h.writes w hmem
    · exact hentries
  · refine ⟨he ▸ h.entries, fun w hmem => ?_⟩
    rw [hw, mem_snoc] at hmem
    rcases hmem with hmem | rfl
    · exact h.writes w hmem
    · exact h.entries

end

/-- Every write that reaches the storage succeeds. -/
def Label.works : Label → Prop
  | .settle _ ok _ _ => ok = true
  | _ => True

instance (l : Label) : Decidable l.works := by
  unfold Label.works
  split <;> infer_instance

/-- A run and the activation that may write to it agree. -/
structure Run.Coherent (ready : Wake → Nat → Nat → Prop) (s : Run) : Prop where
  history : Honest ready s.history
  activations : ∀ a ∈ s.activations, a.Faithful ready
  chained : ∀ a ∈ s.activations, a.etag = s.etag → Chained s.history a.writes a.entries

/-- What is known of the wakes a step may append. -/
structure Run.Ready (ready : Wake → Nat → Nat → Prop) (s : Run) (l : Label) : Prop where
  nudge : ∀ wake : Wake, wake.until_ ≤ s.now → ready wake wake.seq s.now
  tick : ∀ i k seq a, l = .tick i k → s.activations[i]? = some a →
    a.ticks[k]? = some (.wake seq) → a.busy = false → a.faulted = false →
    ∀ wake, a.state.wake = some wake → wake.seq = seq → ready wake seq s.now
  deliver : ∀ k i again reminder a, l = .deliver k i again → s.deliveries[k]? = some reminder →
    s.activations[i]? = some a → a.free = true →
    ∀ wake, a.state.wake = some wake → ready wake reminder.seq s.now

namespace Run

variable {options : WorkflowOptions} {s t : Run} {l : Label} {i : Nat} {a b : Activation}
  {ready : Wake → Nat → Nat → Prop}

theorem Coherent.put (h : s.Coherent ready) (hb : b.Faithful ready)
    (hchained : b.etag = s.etag → Chained s.history b.writes b.entries) :
    (s.put i b).Coherent ready :=
  ⟨h.history, fun c hc => (mem_put hc).elim (h.activations c) fun heq => heq ▸ hb,
    fun c hc => (mem_put hc).elim (h.chained c) fun heq => heq ▸ hchained⟩

/-- What lands is what the activation had applied when it asked for the write. -/
theorem history_land {write : Write} {rest : List Write}
    (hwrites : a.writes = write :: rest) (hchained : Chained s.history a.writes a.entries) :
    (s.land a.etag write).history = write.entries := by
  rw [hwrites] at hchained
  unfold Run.land
  split
  · rename_i stamp record tag hstamp hrecord htag
    rw [hchained.1, hstamp]
    rfl
  · rfl

theorem Coherent.land {write : Write} {rest : List Write} {u : Run} (h : s.Coherent ready)
    (htagged : s.Tagged) (hget : s.activations[i]? = some a) (hwrites : a.writes = write :: rest)
    (hfresh : a.etag = s.etag) (hactivations : u.activations = s.activations)
    (hhistory : u.history = (s.land a.etag write).history)
    (hetag : u.etag = (s.land a.etag write).etag) (hb : b.Faithful ready)
    (hchained : b.etag = u.etag → Chained write.entries b.writes b.entries) :
    (u.put i b).Coherent ready := by
  have ha := mem_of_get hget
  have hland := history_land hwrites (h.chained a ha hfresh)
  have hu : u.history = write.entries := hhistory.trans hland
  refine ⟨?_, fun c hc => ?_, fun c hc hcfresh => ?_⟩
  · show Honest ready u.history
    rw [hu]
    exact (h.activations a ha).writes write (hwrites ▸ List.mem_cons_self)
  · rcases mem_put hc with hc | rfl
    · exact h.activations c (hactivations ▸ hc)
    · exact hb
  · show Chained u.history c.writes c.entries
    rw [hu]
    rcases mem_put hc with hc | rfl
    · exact absurd (hcfresh.trans hetag) (htagged.stale hfresh (hactivations ▸ hc))
    · exact hchained hcfresh

theorem Coherent.loaded (h : s.Coherent ready) : s.loaded.Faithful ready :=
  ⟨h.history, List.forall_mem_nil _⟩

/-- The step lemma: agreement is kept while what reaches the storage is written. -/
theorem Coherent.step (h : s.Coherent ready) (hfolded : s.Folded) (htagged : s.Tagged)
    (hworks : l.works) (hready : s.Ready ready l) (hstep : s.step options l = some t) :
    t.Coherent ready := by
  have hof : ∀ {j : Nat} {c : Activation}, s.activations[j]? = some c → c.Faithful ready :=
    fun hget => h.activations _ (mem_of_get hget)
  -- An operation on an activation that keeps its place among the writers.
  have hput : ∀ {j : Nat} {c d e : Activation}, s.activations[j]? = some c →
      Grows ready s.now d e → d.state = c.state → d.entries = c.entries → d.writes = c.writes →
      d.etag = c.etag → (s.put j e).Coherent ready := by
    intro j c d e hget hgrows hs he hw htag
    have hc := mem_of_get hget
    have hd : d.Folded := ⟨by rw [hs, he, (hfolded.activations c hc).state],
      fun w hmem => (hfolded.activations c hc).writes w (hw ▸ hmem)⟩
    have hdf : d.Faithful ready :=
      ⟨he ▸ (hof hget).entries, fun w hmem => (hof hget).writes w (hw ▸ hmem)⟩
    refine h.put (hdf.grows hd hgrows) fun hfresh => ?_
    refine Chained.grows ?_ hgrows
    rw [hw, he]
    exact h.chained c hc (htag ▸ hgrows.etag ▸ hfresh)
  -- One that has been overtaken.
  have hstale : ∀ {j : Nat} {c d e : Activation} {w : Write} {rest : List Write},
      s.activations[j]? = some c → c.writes = w :: rest → c.etag ≠ s.etag →
      Grows ready s.now d e → d.state = c.state → d.entries = c.entries → d.writes = rest →
      d.etag = c.etag → (s.put j e).Coherent ready := by
    intro j c d e w rest hget hwrites hne hgrows hs he hw htag
    have hc := mem_of_get hget
    have hrest : ∀ w' ∈ d.writes, w' ∈ c.writes := fun w' hmem =>
      hwrites ▸ List.mem_cons_of_mem w (hw ▸ hmem)
    have hd : d.Folded := ⟨by rw [hs, he, (hfolded.activations c hc).state],
      fun w' hmem => (hfolded.activations c hc).writes w' (hrest w' hmem)⟩
    have hdf : d.Faithful ready :=
      ⟨he ▸ (hof hget).entries, fun w' hmem => (hof hget).writes w' (hrest w' hmem)⟩
    refine h.put (hdf.grows hd hgrows) fun hfresh => absurd ?_ hne
    rw [← htag, ← hgrows.etag, hfresh]
  cases Run.stepped hstep with
  | elapse | remind | lost | putBack => exact { h with }
  | activate =>
    have hgrows : Grows ready s.now s.loaded (s.loaded.nudge s.now) :=
      Activation.grows_nudge fun wake _ hdue => hready.nudge wake hdue
    have hnew := (h.loaded).grows hfolded.loaded hgrows
    refine ⟨h.history, fun c hc => ?_, fun c hc hfresh => ?_⟩
    · rw [mem_snoc] at hc
      exact hc.elim (h.activations c) fun heq => heq ▸ hnew
    · rw [mem_snoc] at hc
      rcases hc with hc | rfl
      · exact h.chained c hc hfresh
      · exact Chained.grows (a := s.loaded) rfl hgrows
  | start name vars version hget hfree =>
    exact hput hget Activation.grows_start rfl rfl rfl rfl
  | status hget hfree =>
    have hgrows : ∀ c : Activation,
        Grows ready s.now c { c.nudge s.now with busy := false } :=
      fun c => (Activation.grows_nudge fun wake _ hdue => hready.nudge wake hdue).idle
    exact hput hget (hgrows _) rfl rfl rfl rfl
  | fireAdvance hget | fireWake hget | tickFaulted hget | deactivate hget =>
    exact hput hget (Activation.grows_kept rfl rfl rfl rfl rfl) rfl rfl rfl rfl
  | tickAdvance hget htick hbusy hfaulted =>
    exact hput hget Activation.grows_advance rfl rfl rfl rfl
  | tickWake hget htick hbusy hfaulted =>
    refine hput hget (Activation.grows_wake fun wake hwake hseq => ?_) rfl rfl rfl rfl
    exact hready.tick _ _ _ _ rfl hget htick hbusy hfaulted wake hwake hseq
  | @deliver k i reminder a again hdelivery hget hfree =>
    have hgrows : Grows ready s.now { a with busy := true }
        (Activation.onReminder s.now { a with busy := true } reminder.seq) :=
      Activation.grows_onReminder fun wake hwake =>
        hready.deliver k i again reminder a rfl hdelivery hget hfree wake hwake
    have ht := hput hget hgrows rfl rfl rfl rfl
    exact { ht with }
  | rejected message jitter hget hwrites hbad =>
    have hfaulted := hbad.resolve_right fun hok => Bool.noConfusion (hok.symm.trans hworks)
    exact hstale hget hwrites (htagged.faulted _ (mem_of_get hget) hfaulted)
      Activation.grows_reject rfl rfl rfl rfl
  | @landed i a write rest message jitter hget hwrites hfaulted hfresh =>
    have ha := mem_of_get hget
    have hmem : ∀ w ∈ rest, w ∈ a.writes := fun w hw => hwrites ▸ List.mem_cons_of_mem _ hw
    have hb : Activation.Faithful ready
        { a with writes := rest, etag := (s.land a.etag write).etag } :=
      ⟨(hof hget).entries, fun w hw => (hof hget).writes w (hmem w hw)⟩
    have hchain := h.chained a ha hfresh
    rw [hwrites] at hchain
    refine h.land htagged hget hwrites hfresh ?_ (history_note i _) (etag_note i _)
      (hb.grows ((hfolded.activations a ha).tail hwrites) Activation.grows_resume) fun _ => ?_
    · rw [activations_note, activations_land]
    · exact Chained.grows hchain.2 (grows_resumed _ write.thread)
  | conflicted message jitter hget hwrites hne =>
    exact hstale hget hwrites hne Activation.grows_reject rfl rfl rfl rfl
  | returned out hget hcall => exact hput hget Activation.grows_returned rfl rfl rfl rfl
  | threw message jitter hget hcall => exact hput hget Activation.grows_threw rfl rfl rfl rfl
  | @armed i k a arming hget harming =>
    have ht := hput hget (grows_disarmed _ a k arming) rfl rfl rfl rfl
    exact { ht with }
  | unarmed hget harming => exact hput hget Activation.grows_armed rfl rfl rfl rfl
  | @crashLanded i a write rest hget hwrites hfaulted hfresh =>
    refine h.land htagged hget hwrites hfresh (activations_land _ _) rfl rfl
      ⟨.nil, List.forall_mem_nil _⟩ fun heq => ?_
    rw [etag_land hfresh] at heq
    cases heq
  | crashed hget =>
    refine h.put ⟨.nil, List.forall_mem_nil _⟩ fun hfresh => ?_
    exact (htagged.unrecorded hfresh.symm).symm

theorem coherent_initial (h : Run.initial s) : s.Coherent ready := by
  obtain rfl := h
  exact ⟨.nil, List.forall_mem_nil _,
    List.forall_mem_nil _⟩

end Run

end SigxActors.Workflow
