/-
  Workflow/Ends.lean --- the end of a run is final.

  `finish` saves after it has appended the end, and a task runs both inside the
  `try` block that takes any error for a failed attempt: a save that fails there
  appends to a run that has ended.  An end that is not on record, by a failed
  append or a host that died, is forgotten by the activation that loads the run
  next.  And a recovery step that has yet to move is not told that another turn
  has ended the run.

  Where none of this happens, an activation that has ended appends nothing, calls
  no handler, and hands on exactly what it had applied.
-/
import SigxActors.Workflow.Drivers

set_option autoImplicit false

namespace SigxActors.Workflow

open SigxActors.Js

/-! ## The order of the gate -/

/-- What a write records comes after all of `entries`. -/
def Write.Follows (entries : List Stamp) (w : Write) : Prop :=
  ∃ before, w.entries = before ++ w.stamp.toList ∧ ∀ stamp ∈ entries, stamp ∈ before

/-- The gate writes what was applied, in this order. -/
structure Activation.Ordered (a : Activation) : Prop where
  applied : ∀ w ∈ a.writes, w.entries <+: a.entries
  pairwise : a.writes.Pairwise fun x y => y.Follows x.entries

/-- What is recorded was applied before what waits at the gate. -/
structure Activation.Follows (history : List Stamp) (a : Activation) : Prop where
  entries : ∀ stamp ∈ history, stamp ∈ a.entries
  writes : ∀ w ∈ a.writes, w.Follows history

variable {rest : List Write}

namespace Activation

variable {now : Nat} {a b : Activation} {history : List Stamp} {ready : Wake → Nat → Nat → Prop}

theorem Ordered.grows (h : a.Ordered) (hgrows : Grows ready now a b) : b.Ordered := by
  have hpush : ∀ {w : Write}, b.writes = a.writes ++ [w] →
      w.entries = a.entries ++ w.stamp.toList → b.entries = a.entries ++ w.stamp.toList →
      b.Ordered := by
    intro w hw hwe hbe
    refine ⟨fun w' hmem => ?_, ?_⟩
    · rw [hw, mem_snoc] at hmem
      rw [hbe]
      rcases hmem with hmem | rfl
      · exact (h.applied w' hmem).trans (List.prefix_append _ _)
      · exact hwe ▸ List.prefix_rfl
    · rw [hw, List.pairwise_append]
      refine ⟨h.pairwise, List.pairwise_singleton _ _, fun x hx y hy => ?_⟩
      obtain rfl := List.mem_singleton.1 hy
      exact ⟨a.entries, hwe, fun stamp hmem => (h.applied x hx).subset hmem⟩
  rcases hgrows.log with ⟨hs, he, hw⟩ | ⟨thread, stamp, hfits, hlinked, htime, hs, he, hw⟩ |
    ⟨thread, hpoint, hs, he, hw⟩
  · exact ⟨fun w hmem => he ▸ h.applied w (hw ▸ hmem), hw ▸ h.pairwise⟩
  · exact hpush hw he he
  · exact hpush hw (List.append_nil _).symm (he.trans (List.append_nil _).symm)

theorem Follows.grows (h : a.Follows history) (hgrows : Grows ready now a b) :
    b.Follows history := by
  rcases hgrows.log with ⟨hs, he, hw⟩ | ⟨thread, stamp, hfits, hlinked, htime, hs, he, hw⟩ |
    ⟨thread, hpoint, hs, he, hw⟩
  · exact ⟨he ▸ h.entries, hw ▸ h.writes⟩
  · refine ⟨fun x hx => he ▸ List.mem_append_left _ (h.entries x hx), fun w hmem => ?_⟩
    rw [hw, mem_snoc] at hmem
    rcases hmem with hmem | rfl
    · exact h.writes w hmem
    · exact ⟨a.entries, he, h.entries⟩
  · refine ⟨he ▸ h.entries, fun w hmem => ?_⟩
    rw [hw, mem_snoc] at hmem
    rcases hmem with hmem | rfl
    · exact h.writes w hmem
    · exact ⟨a.entries, (List.append_nil _).symm, h.entries⟩

theorem Ordered.tail {w : Write} {etag : Option Nat} {faulted : Bool}
    (h : a.Ordered) (hwrites : a.writes = w :: rest) :
    Ordered { a with writes := rest, etag := etag, faulted := faulted } :=
  ⟨fun w' hmem => h.applied w' (hwrites ▸ List.mem_cons_of_mem w hmem),
    (List.pairwise_cons.1 (hwrites ▸ h.pairwise)).2⟩

/-- Once the first write has landed, it is recorded in its place. -/
theorem Ordered.follows {w : Write} {etag : Option Nat} {faulted : Bool}
    (h : a.Ordered) (hwrites : a.writes = w :: rest)
    (hhistory : ∀ stamp ∈ history, stamp ∈ w.entries) :
    Follows history { a with writes := rest, etag := etag, faulted := faulted } := by
  have happlied := h.applied w (hwrites ▸ List.mem_cons_self)
  refine ⟨fun stamp hmem => happlied.subset (hhistory stamp hmem), fun w' hmem => ?_⟩
  obtain ⟨before, hbefore, hsub⟩ := (List.pairwise_cons.1 (hwrites ▸ h.pairwise)).1 w' hmem
  exact ⟨before, hbefore, fun stamp hstamp => hsub stamp (hhistory stamp hstamp)⟩

end Activation

theorem Final.prefix_ {entries entries' : List Stamp} (h : Final entries')
    (hinit : entries <+: entries') : Final entries := by
  obtain ⟨rest, rfl⟩ := hinit
  intro before stamp after heq hend
  have hnil := h before stamp (after ++ rest) (by rw [heq]; simp) hend
  exact (List.append_eq_nil_iff.1 hnil).1

/-- What has ended is all there is. -/
theorem Final.eq_of_prefix {entries entries' : List Stamp} (h : Final entries')
    (hinit : entries <+: entries') (hended : Ended entries) : entries = entries' := by
  obtain ⟨rest, rfl⟩ := hinit
  obtain ⟨stamp, hmem, hend⟩ := hended
  obtain ⟨before, after, rfl⟩ := List.append_of_mem hmem
  have hnil := h before stamp (after ++ rest) (by simp) hend
  rw [(List.append_eq_nil_iff.1 hnil).2, List.append_nil]

/-! ## The condition -/

namespace Run

/-- What every activation that has ended had applied is on record. -/
def EndsRecorded (s : Run) : Prop :=
  ∀ a ∈ s.activations, Ended a.entries → s.history = a.entries

/-- The steps at which the end of a run stays final: no turn goes on past a recovery step that has
a move to make; no write of an end fails within a task; and no activation is loaded, and none that
has ended is lost, before what it applied is on record. -/
def KeepsEnds (options : WorkflowOptions) (s : Run) (l : Label) : Prop :=
  match l with
  | .activate => s.EndsRecorded
  | .start i _ _ _ => ∀ a ∈ s.activations[i]?, a.state.unstarted = true → a.Settled
  | .tick i k =>
      ∀ a ∈ s.activations[i]?, a.ticks[k]? = some .advance →
        a.Settled ∨ options.atDelay a.state = true
  | .settle i ok _ _ =>
      ∀ a ∈ s.activations[i]?, ∀ w ∈ a.writes.head?, w.thread.point.finishes = true →
        w.thread.retrying.isSome = true → ok = true ∧ a.faulted = false ∧ a.etag = s.etag
  | .crash i _ => ∀ a ∈ s.activations[i]?, Ended a.entries → s.EndsRecorded
  | _ => True

end Run

/-! ## The invariant -/

/-- The threads, the gates and the record of a run whose ends are final. -/
structure Run.Ending (s : Run) : Prop where
  driven : ∀ a ∈ s.activations, a.Driven
  ordered : ∀ a ∈ s.activations, a.Ordered
  follows : ∀ a ∈ s.activations, a.etag = s.etag → a.Follows s.history
  final : Final s.history

namespace Run

variable {options : WorkflowOptions} {s t : Run} {l : Label} {i : Nat} {a b c : Activation}

theorem Ending.put (h : s.Ending) (hget : s.activations[i]? = some a)
    (hgrows : Grows anyWake s.now c b) (hb : b.Driven) (hentries : c.entries = a.entries)
    (hwrites : c.writes = a.writes) (hetag : c.etag = a.etag) : (s.put i b).Ending := by
  have ha := mem_of_get hget
  have hc : c.Ordered :=
    ⟨fun w hmem => hentries ▸ (h.ordered a ha).applied w (hwrites ▸ hmem),
      hwrites ▸ (h.ordered a ha).pairwise⟩
  refine ⟨fun d hd => (mem_put hd).elim (h.driven d) fun heq => heq ▸ hb,
    fun d hd => (mem_put hd).elim (h.ordered d) fun heq => heq ▸ hc.grows hgrows,
    fun d hd => (mem_put hd).elim (h.follows d) fun heq => ?_, h.final⟩
  rw [heq]
  intro hfresh
  rw [hgrows.etag, hetag] at hfresh
  have hfollows := h.follows a ha hfresh
  exact Activation.Follows.grows ⟨hentries ▸ hfollows.entries, hwrites ▸ hfollows.writes⟩ hgrows

/-- A write leaves the gate without landing. -/
theorem Ending.put_tail {w : Write} {faulted : Bool} (h : s.Ending)
    (hget : s.activations[i]? = some a) (hwrites : a.writes = w :: rest)
    (hgrows : Grows anyWake s.now { a with writes := rest, faulted := faulted } b)
    (hb : b.Driven) : (s.put i b).Ending := by
  have ha := mem_of_get hget
  have htail : Activation.Ordered { a with writes := rest, faulted := faulted } :=
    (h.ordered a ha).tail hwrites
  refine ⟨fun d hd => (mem_put hd).elim (h.driven d) fun heq => heq ▸ hb,
    fun d hd => (mem_put hd).elim (h.ordered d) fun heq => heq ▸ htail.grows hgrows,
    fun d hd => (mem_put hd).elim (h.follows d) fun heq => ?_, h.final⟩
  rw [heq]
  intro hfresh
  have hfollows := h.follows a ha (hgrows.etag.symm.trans hfresh)
  have hrest : Activation.Follows s.history { a with writes := rest, faulted := faulted } :=
    ⟨hfollows.entries, fun w' hmem =>
      hfollows.writes w' (hwrites ▸ List.mem_cons_of_mem w hmem)⟩
  exact hrest.grows hgrows

theorem Ending.dead (h : s.Ending) (htagged : s.Tagged) : (s.put i Activation.dead).Ending := by
  have hordered : Activation.dead.Ordered :=
    ⟨List.forall_mem_nil _, List.Pairwise.nil⟩
  refine ⟨fun d hd => (mem_put hd).elim (h.driven d) fun heq => heq ▸ Activation.driven_dead,
    fun d hd => (mem_put hd).elim (h.ordered d) fun heq => heq ▸ hordered,
    fun d hd hfresh => ?_, h.final⟩
  rcases mem_put hd with hd | rfl
  · exact h.follows d hd hfresh
  have hempty : s.history = [] := htagged.unrecorded hfresh.symm
  refine ⟨fun stamp hmem => ?_, List.forall_mem_nil _⟩
  have hold : stamp ∈ s.history := hmem
  rw [hempty] at hold
  exact absurd hold List.not_mem_nil

/-- What a write of the activation that may write leaves on record. -/
theorem Ending.landed {write : Write} (h : s.Ending)
    (ha : a ∈ s.activations) (hwrites : a.writes = write :: rest) (hfresh : a.etag = s.etag) :
    Final (s.land a.etag write).history ∧
      (∀ stamp ∈ (s.land a.etag write).history, stamp ∈ write.entries) ∧
      (Ended s.history → write.stamp = none) := by
  have hfinal : Final write.entries :=
    (h.driven a ha).final.prefix_ ((h.ordered a ha).applied write (hwrites ▸ List.mem_cons_self))
  obtain ⟨before, hbefore, hsub⟩ :=
    (h.follows a ha hfresh).writes write (hwrites ▸ List.mem_cons_self)
  have hopen : ∀ stamp, write.stamp = some stamp → ¬ Ended s.history := by
    intro stamp hstamp hended
    rw [hbefore, hstamp] at hfinal
    exact hfinal.not_ended (hended.mono hsub)
  have hnone : Ended s.history → write.stamp = none := by
    intro hended
    cases hstamp : write.stamp with
    | none => rfl
    | some stamp => exact absurd hended (hopen stamp hstamp)
  unfold Run.land
  split
  · rename_i stamp record tag hstamp hrecord htag
    refine ⟨final_snoc (hopen stamp hstamp), fun x hmem => ?_, hnone⟩
    rw [mem_snoc] at hmem
    rw [hbefore, hstamp, List.mem_append]
    rcases hmem with hmem | rfl
    · exact .inl (hsub x hmem)
    · exact .inr List.mem_cons_self
  · exact ⟨hfinal, fun _ => id, hnone⟩

theorem Ending.put_landed {write : Write} {u : Run} (h : s.Ending)
    (htagged : s.Tagged) (hget : s.activations[i]? = some a) (hwrites : a.writes = write :: rest)
    (hfresh : a.etag = s.etag) (hactivations : u.activations = s.activations)
    (hhistory : u.history = (s.land a.etag write).history)
    (hetag : u.etag = (s.land a.etag write).etag) (hb : b.Driven) (hordered : b.Ordered)
    (hfollows : b.etag = u.etag → b.Follows u.history) : (u.put i b).Ending := by
  refine ⟨fun d hd => (mem_put hd).elim (fun hd => h.driven d (hactivations ▸ hd)) fun heq =>
      heq ▸ hb,
    fun d hd => (mem_put hd).elim (fun hd => h.ordered d (hactivations ▸ hd)) fun heq =>
      heq ▸ hordered,
    fun d hd => (mem_put hd).elim (fun hd hdfresh => ?_) fun heq => heq ▸ hfollows, ?_⟩
  · exact absurd (hdfresh.trans hetag) (htagged.stale hfresh (hactivations ▸ hd))
  · show Final u.history
    rw [hhistory]
    exact (h.landed (mem_of_get hget) hwrites hfresh).1

/-- The step lemma. -/
theorem Ending.step (h : s.Ending) (hfolded : s.Folded) (htagged : s.Tagged) (hlaned : s.Laned)
    (hok : s.KeepsEnds options l) (hstep : s.step options l = some t) : t.Ending := by
  have hdriven : ∀ {j : Nat} {d : Activation}, s.activations[j]? = some d → d.Driven :=
    fun hget => h.driven _ (mem_of_get hget)
  have hlane : ∀ {j : Nat} {d : Activation}, s.activations[j]? = some d → d.Lane :=
    fun hget => hlaned _ (mem_of_get hget)
  have hfold : ∀ {j : Nat} {d : Activation}, s.activations[j]? = some d → d.Folded :=
    fun hget => hfolded.activations _ (mem_of_get hget)
  cases Run.stepped hstep with
  | elapse | remind | lost | putBack => exact { h with }
  | activate =>
    have hloaded : s.loaded.Driven := by
      refine ⟨Nat.zero_le 1, fun _ => ⟨rfl, List.forall_mem_nil _⟩,
        fun before w after heq => ?_, h.final⟩
      simp [Run.loaded] at heq
    have hnew : (s.loaded.nudge s.now).Driven :=
      hloaded.nudge ⟨rfl, List.forall_mem_nil _⟩ rfl hfolded.loaded rfl rfl
        rfl rfl
    have hordered : s.loaded.Ordered :=
      ⟨List.forall_mem_nil _, List.Pairwise.nil⟩
    have hfollows : s.loaded.Follows s.history :=
      ⟨fun _ => id, List.forall_mem_nil _⟩
    refine ⟨fun d hd => ?_, fun d hd => ?_, fun d hd hfresh => ?_, h.final⟩
    · rw [mem_snoc] at hd
      exact hd.elim (h.driven d) fun heq => heq ▸ hnew
    · rw [mem_snoc] at hd
      exact hd.elim (h.ordered d) fun heq => heq ▸ hordered.grows (grows_nudged s.loaded)
    · rw [mem_snoc] at hd
      rcases hd with hd | rfl
      · exact h.follows d hd hfresh
      · exact hfollows.grows (grows_nudged s.loaded)
  | @start i a name vars version hget hfree =>
    exact h.put hget Activation.grows_start ((hdriven hget).start (hlane hget) (not_busy hfree)
      (hfold hget) (hok a hget) rfl rfl rfl rfl) rfl rfl rfl
  | @status i a hget hfree =>
    have hnudge : Activation.Driven (Activation.nudge s.now { a with busy := true }) :=
      (hdriven hget).nudge (hlane hget) (not_busy hfree) (hfold hget) rfl rfl rfl rfl
    exact h.put hget (grows_status _) (hnudge.kept rfl rfl rfl rfl) rfl rfl rfl
  | @fireAdvance _ a hget | @fireWake _ a _ hget | @tickFaulted _ _ a _ hget
  | @deactivate _ a hget =>
    exact h.put hget (Activation.grows_kept (a := a) rfl rfl rfl rfl rfl)
      ((hdriven hget).kept rfl rfl rfl rfl) rfl rfl rfl
  | @tickAdvance i k a hget htick hbusy hfaulted =>
    exact h.put hget Activation.grows_advance ((hdriven hget).advance (hlane hget) hbusy
      (hfold hget) (hok a hget htick) rfl rfl rfl rfl) rfl rfl rfl
  | tickWake hget htick hbusy hfaulted =>
    exact h.put hget (Activation.grows_wake fun _ _ _ => trivial)
      ((hdriven hget).wake (hlane hget) hbusy (hfold hget) rfl rfl rfl rfl) rfl rfl rfl
  | @deliver k i reminder a again hdelivery hget hfree =>
    have ht := h.put hget (grows_delivered a reminder.seq) ((hdriven hget).onReminder (hlane hget) (not_busy hfree)
      (hfold hget) rfl rfl rfl rfl) rfl rfl rfl
    exact { ht with }
  | @rejected i a write rest ok message jitter hget hwrites hbad =>
    have hguard : write.thread.point.finishes = true → write.thread.retrying = none := by
      intro hfinishes
      cases hretrying : write.thread.retrying with
      | none => rfl
      | some retrying =>
        obtain ⟨hgood, hsound, -⟩ :=
          hok a hget write (by rw [hwrites]; rfl) hfinishes (by rw [hretrying]; rfl)
        rcases hbad with hbad | hbad
        · exact absurd (hbad.symm.trans hsound) (by simp)
        · exact absurd (hbad.symm.trans hgood) (by simp)
    obtain ⟨htail, hdriver⟩ := (hdriven hget).tail hwrites
    exact h.put_tail hget hwrites (grows_rejected options write.thread message jitter _)
      (htail.reject hdriver hguard)
  | @landed i a write rest message jitter hget hwrites hfaulted hfresh =>
    have ha := mem_of_get hget
    obtain ⟨htail, hdriver⟩ := (hdriven hget).tail hwrites
    refine h.put_landed htagged hget hwrites hfresh ?_ (history_note i _) (etag_note i _)
      (htail.resume hdriver) (((h.ordered a ha).tail hwrites).grows (grows_resumed _ write.thread))
      fun _ => ?_
    · rw [activations_note, activations_land]
    · refine Activation.Follows.grows ?_ (grows_resumed _ write.thread)
      refine (h.ordered a ha).follows hwrites fun stamp hmem => ?_
      rw [history_note] at hmem
      exact (h.landed ha hwrites hfresh).2.1 stamp hmem
  | @conflicted i a write rest message jitter hget hwrites hstale =>
    have hguard : write.thread.point.finishes = true → write.thread.retrying = none := by
      intro hfinishes
      cases hretrying : write.thread.retrying with
      | none => rfl
      | some retrying =>
        obtain ⟨-, -, hfresh⟩ :=
          hok a hget write (by rw [hwrites]; rfl) hfinishes (by rw [hretrying]; rfl)
        exact absurd hfresh hstale
    obtain ⟨htail, hdriver⟩ := (hdriven hget).tail hwrites
    exact h.put_tail hget hwrites (grows_rejected options write.thread message jitter _)
      (htail.reject hdriver hguard)
  | returned out hget hcall =>
    exact h.put hget Activation.grows_returned ((hdriven hget).returned hcall) rfl rfl rfl
  | threw message jitter hget hcall =>
    exact h.put hget Activation.grows_threw ((hdriven hget).threw hcall) rfl rfl rfl
  | @armed i k a arming hget harming =>
    have ht := h.put hget (grows_disarmed _ a k arming) (Activation.Driven.armed ((hdriven hget).kept rfl rfl rfl rfl)) rfl
      rfl rfl
    exact { ht with }
  | unarmed hget harming =>
    exact h.put hget Activation.grows_armed
      (Activation.Driven.armed ((hdriven hget).kept rfl rfl rfl rfl)) rfl rfl rfl
  | @crashLanded i a write rest hget hwrites hfaulted hfresh =>
    refine h.put_landed htagged hget hwrites hfresh (activations_land _ _) rfl rfl
      Activation.driven_dead ⟨List.forall_mem_nil _, List.Pairwise.nil⟩
      fun heq => ?_
    rw [etag_land hfresh] at heq
    cases heq
  | crashed hget => exact h.dead htagged

theorem ending_initial (h : Run.initial s) : s.Ending := by
  obtain rfl := h
  refine ⟨List.forall_mem_nil _, List.forall_mem_nil _,
    List.forall_mem_nil _, final_of_not_ended ?_⟩
  rintro ⟨_, hmem, _⟩
  exact absurd hmem List.not_mem_nil

/-- All the run's invariants. -/
structure Closing (s : Run) : Prop where
  folded : s.Folded
  tagged : s.Tagged
  laned : s.Laned
  ending : s.Ending

theorem Closing.step (h : s.Closing) (hok : s.KeepsEnds options l)
    (hstep : s.step options l = some t) : t.Closing :=
  ⟨h.folded.step hstep, h.tagged.step hstep, h.laned.step hstep,
    h.ending.step h.folded h.tagged h.laned hok hstep⟩

theorem closing_initial (h : Run.initial s) : s.Closing :=
  ⟨folded_initial h, tagged_initial h, laned_initial h, ending_initial h⟩

end Run

/-! ## From an end on -/

/-- What an operation leaves applied. -/
theorem Grows.entries {now : Nat} {a b : Activation} {ready : Wake → Nat → Nat → Prop}
    (h : Grows ready now a b) :
    b.entries = a.entries ∨ ∃ stamp, b.entries = a.entries ++ [stamp] := by
  rcases h.log with ⟨hs, he, hw⟩ | ⟨thread, stamp, hfits, hlinked, htime, hs, he, hw⟩ |
    ⟨thread, hpoint, hs, he, hw⟩
  · exact .inl he
  · exact .inr ⟨stamp, he⟩
  · exact .inl he

/-- Nothing is applied after an end. -/
theorem Grows.entries_eq {now : Nat} {a b : Activation} {ready : Wake → Nat → Nat → Prop}
    (h : Grows ready now a b) (hended : Ended a.entries) (hfinal : Final b.entries) :
    b.entries = a.entries := by
  obtain heq | ⟨stamp, heq⟩ := h.entries
  · exact heq
  · rw [heq] at hfinal
    exact absurd hended hfinal.not_ended

namespace Run

/-- It has applied `entries`, unless its host is dead. -/
def Holds (entries : List Stamp) (a : Activation) : Prop := a = .dead ∨ a.entries = entries

/-- The record holds `entries`, and so does whoever may write to it. -/
def Agreed (entries : List Stamp) (s : Run) : Prop :=
  s.history = entries ∧ ∀ a ∈ s.activations, a.etag = s.etag → a.entries = entries

/-- Of the first `n` activations, the `i`-th had ended with `entries` when `calls` handler calls had
been made. -/
structure Since (entries : List Stamp) (n i : Nat) (calls : List (Nat × String)) (s : Run) :
    Prop where
  bound : i < n
  length : n ≤ s.activations.length
  /-- A later activation has found the end on record. -/
  phase : (s.activations.length = n ∧ ∃ a, s.activations[i]? = some a ∧ a.entries = entries) ∨
    s.Agreed entries
  same : ∀ a, s.activations[i]? = some a → Holds entries a
  later : ∀ j a, n ≤ j → s.activations[j]? = some a → Holds entries a
  calls : ∃ extra, s.calls = calls ++ extra ∧ ∀ call ∈ extra, call.1 < n ∧ call.1 ≠ i

variable {options : WorkflowOptions} {s t : Run} {l : Label} {i k n : Nat} {a b c : Activation}
  {entries : List Stamp} {calls : List (Nat × String)}

theorem get_put {j : Nat} (h : (s.put k b).activations[j]? = some a) :
    (j = k ∧ a = b) ∨ (j ≠ k ∧ s.activations[j]? = some a) := by
  rw [put, List.getElem?_set] at h
  split at h
  · rename_i heq
    split at h
    · exact .inl ⟨heq.symm, (Option.some.inj h).symm⟩
    · simp at h
  · rename_i hne
    exact .inr ⟨fun heq => hne heq.symm, h⟩

theorem Since.of_same (h : s.Since entries n i calls) (hactivations : t.activations = s.activations)
    (hhistory : t.history = s.history) (hetag : t.etag = s.etag) (hcalls : t.calls = s.calls) :
    t.Since entries n i calls := by
  refine ⟨h.bound, hactivations ▸ h.length, h.phase.imp ?_ ?_, hactivations ▸ h.same,
    hactivations ▸ h.later, hcalls ▸ h.calls⟩
  · rw [hactivations]
    exact id
  · rintro ⟨hrecord, hfresh⟩
    refine ⟨hhistory.trans hrecord, ?_⟩
    rw [hactivations, hetag]
    exact hfresh

theorem Holds.grows (h : Holds entries a) (hended : Ended entries) (hc : c.entries = a.entries)
    (hgrows : Grows anyWake s.now c b) (hfinal : Final b.entries) (halive : a ≠ .dead) :
    b.entries = entries := by
  have ha := h.resolve_left halive
  rw [← ha, ← hc] at hended ⊢
  exact hgrows.entries_eq hended hfinal

/-- An operation that writes nothing. -/
theorem Since.put (h : s.Since entries n i calls) (hended : Ended entries)
    (hending : (s.put k b).Ending) (hget : s.activations[k]? = some a)
    (hgrows : Grows anyWake s.now c b) (hc : c.entries = a.entries) (hetag : c.etag = a.etag)
    (halive : a = .dead → b = .dead) : (s.put k b).Since entries n i calls := by
  have hb : b ∈ (s.put k b).activations := by
    refine List.mem_of_getElem? (i := k) ?_
    rw [Run.put, List.getElem?_set, if_pos rfl, if_pos (List.getElem?_eq_some_iff.1 hget).1]
  have hfinal := (hending.driven b hb).final
  have hholds : Holds entries a → Holds entries b := by
    intro ha
    by_cases hdead : a = .dead
    · exact .inl (halive hdead)
    · exact .inr (ha.grows hended hc hgrows hfinal hdead)
  refine ⟨h.bound, ?_, h.phase.imp ?_ ?_, fun d hd => ?_, fun j d hj hd => ?_, h.calls⟩
  · rw [Run.put, List.length_set]
    exact h.length
  · rintro ⟨hlength, d, hd, hdentries⟩
    refine ⟨by rw [Run.put, List.length_set]; exact hlength, ?_⟩
    by_cases hik : i = k
    · subst hik
      cases hget.symm.trans hd
      refine ⟨b, ?_, ?_⟩
      · rw [Run.put, List.getElem?_set, if_pos rfl, if_pos (List.getElem?_eq_some_iff.1 hget).1]
      · rw [← hdentries, ← hc] at hended ⊢
        exact hgrows.entries_eq hended hfinal
    · refine ⟨d, ?_, hdentries⟩
      rw [Run.put, List.getElem?_set, if_neg fun heq => hik heq.symm]
      exact hd
  · rintro ⟨hrecord, hfresh⟩
    refine ⟨hrecord, fun d hd hdfresh => ?_⟩
    rcases mem_put hd with hd | rfl
    · exact hfresh d hd hdfresh
    have ha := hfresh a (mem_of_get hget) (hetag ▸ hgrows.etag ▸ hdfresh)
    rw [← ha, ← hc] at hended ⊢
    exact hgrows.entries_eq hended hfinal
  · rcases get_put hd with ⟨rfl, rfl⟩ | ⟨-, hd⟩
    · exact hholds (h.same a hget)
    · exact h.same d hd
  · rcases get_put hd with ⟨rfl, rfl⟩ | ⟨-, hd⟩
    · exact hholds (h.later _ a hj hget)
    · exact h.later j d hj hd

variable {write : Write} {rest : List Write}

/-- Once the end is on record, what lands leaves it there. -/
theorem Agreed.land (h : s.Agreed entries) (hended : Ended entries) (hending : s.Ending)
    (hget : s.activations[k]? = some a) (hwrites : a.writes = write :: rest)
    (hfresh : a.etag = s.etag) : (s.land a.etag write).history = entries := by
  have ha := mem_of_get hget
  have hentries : a.entries = entries := h.2 a ha hfresh
  have hstamp : write.stamp = none :=
    (hending.landed ha hwrites hfresh).2.2 (h.1 ▸ hended)
  have hmem : write ∈ a.writes := hwrites ▸ List.mem_cons_self
  obtain ⟨before, hbefore, hsub⟩ := (hending.follows a ha hfresh).writes write hmem
  rw [hstamp, Option.toList_none, List.append_nil] at hbefore
  have hended' : Ended write.entries := hbefore ▸ (h.1 ▸ hended).mono hsub
  have hinit := (hending.ordered a ha).applied write hmem
  have hall := (hending.driven a ha).final.eq_of_prefix hinit hended'
  unfold Run.land
  rw [hstamp]
  exact hall.trans hentries

section

variable (h : s.Since entries n i calls) (hended : Ended entries)
include h hended

/-- The end is on record when every end is. -/
theorem Since.agreed (hending : s.Ending) (hrecorded : s.EndsRecorded) : s.Agreed entries := by
  rcases h.phase with ⟨-, a, hget, hentries⟩ | hagreed
  · have hhistory : s.history = entries :=
      (hrecorded a (mem_of_get hget) (hentries ▸ hended)).trans hentries
    refine ⟨hhistory, fun b hb hfresh => ?_⟩
    have hbended : Ended b.entries :=
      Ended.mono (hhistory ▸ hended) (hending.follows b hb hfresh).entries
    exact (hrecorded b hb hbended).symm.trans hhistory
  · exact hagreed

/-- A host that dies takes no record with it. -/
theorem Since.dead (htagged : s.Tagged) (hending : s.Ending) (hget : s.activations[k]? = some a)
    (hrecorded : k = i → Ended a.entries → s.EndsRecorded) :
    (s.put k Activation.dead).Since entries n i calls := by
  have hagreed : s.Agreed entries → (s.put k Activation.dead).Agreed entries := by
    rintro ⟨hhistory, hfresh⟩
    refine ⟨hhistory, fun d hd hdfresh => ?_⟩
    rcases mem_put hd with hd | rfl
    · exact hfresh d hd hdfresh
    have hempty : s.history = [] := htagged.unrecorded hdfresh.symm
    obtain ⟨stamp, hmem, -⟩ := hended
    rw [← hhistory, hempty] at hmem
    exact absurd hmem List.not_mem_nil
  refine ⟨h.bound, ?_, ?_, fun d hd => ?_, fun j d hj hd => ?_, h.calls⟩
  · rw [Run.put, List.length_set]
    exact h.length
  · rcases h.phase with ⟨hlength, d, hd, hentries⟩ | hphase
    · by_cases hki : k = i
      · subst hki
        cases hget.symm.trans hd
        exact .inr (hagreed (h.agreed hended hending (hrecorded rfl (hentries ▸ hended))))
      · refine .inl ⟨by rw [Run.put, List.length_set]; exact hlength, d, ?_, hentries⟩
        rw [Run.put, List.getElem?_set, if_neg hki]
        exact hd
    · exact .inr (hagreed hphase)
  · rcases get_put hd with ⟨-, rfl⟩ | ⟨-, hd⟩
    · exact .inl rfl
    · exact h.same d hd
  · rcases get_put hd with ⟨-, rfl⟩ | ⟨-, hd⟩
    · exact .inl rfl
    · exact h.later j d hj hd

/-- A driver is not of an activation that has ended, nor is a dead one. -/
theorem Since.not_driver
    (hending : s.Ending) (hget : s.activations[k]? = some a) (hwrites : a.writes = write :: rest)
    (hdrives : write.thread.point.drives = true) : k < n ∧ k ≠ i := by
  have hopen : ¬ Holds entries a := by
    rintro (rfl | heq)
    · cases hwrites
    · obtain ⟨-, hall⟩ := (hending.driven a (mem_of_get hget)).over_ (heq ▸ hended)
      have hfinishes := hall write (hwrites ▸ List.mem_cons_self)
        (by rw [Thread.drives, hdrives]; rfl)
      cases hpoint : write.thread.point with
      | ended | saved => rw [hpoint] at hdrives; cases hdrives
      | _ => rw [hpoint] at hfinishes; cases hfinishes
  refine ⟨?_, ?_⟩
  · rcases Nat.lt_or_ge k n with hlt | hge
    · exact hlt
    · exact absurd (h.later k a hge hget) hopen
  · rintro rfl
    exact absurd (h.same a hget) hopen

end

theorem calls_land (etag : Option Nat) (write : Write) : (s.land etag write).calls = s.calls := by
  unfold Run.land
  split
  · rfl
  · rfl

section

variable (h : s.Since entries n i calls) (hended : Ended entries)
include h hended

theorem Since.calls_note
    (hending : s.Ending) (hget : s.activations[k]? = some a) (hwrites : a.writes = write :: rest) :
    ∃ extra, ((s.land a.etag write).note k write.thread.point).calls = calls ++ extra ∧
      ∀ call ∈ extra, call.1 < n ∧ call.1 ≠ i := by
  obtain ⟨extra, hcalls, hextra⟩ := h.calls
  cases hpoint : write.thread.point with
  | attempted id node m =>
    have hk := h.not_driver hended hending hget hwrites (by rw [hpoint]; rfl)
    refine ⟨extra ++ [(k, id)], ?_, fun call hmem => ?_⟩
    · show (s.land a.etag write).calls ++ [(k, id)] = calls ++ (extra ++ [(k, id)])
      rw [calls_land, hcalls, List.append_assoc]
    · rw [mem_snoc] at hmem
      rcases hmem with hmem | rfl
      · exact hextra call hmem
      · exact hk
  | woken seq after => exact ⟨extra, (calls_land _ _).trans hcalls, hextra⟩
  | started to_ => exact ⟨extra, (calls_land _ _).trans hcalls, hextra⟩
  | moved => exact ⟨extra, (calls_land _ _).trans hcalls, hextra⟩
  | slept ms seq durable => exact ⟨extra, (calls_land _ _).trans hcalls, hextra⟩
  | ended => exact ⟨extra, (calls_land _ _).trans hcalls, hextra⟩
  | saved => exact ⟨extra, (calls_land _ _).trans hcalls, hextra⟩
  | assigned node => exact ⟨extra, (calls_land _ _).trans hcalls, hextra⟩

/-- A write lands, and its activation becomes `b`. -/
theorem Since.put_landed {u : Run}
    (htagged : s.Tagged) (hending : s.Ending) (hget : s.activations[k]? = some a)
    (hwrites : a.writes = write :: rest) (hfresh : a.etag = s.etag)
    (hactivations : u.activations = s.activations)
    (hhistory : u.history = (s.land a.etag write).history)
    (hetag : u.etag = (s.land a.etag write).etag)
    (hcalls : ∃ extra, u.calls = calls ++ extra ∧ ∀ call ∈ extra, call.1 < n ∧ call.1 ≠ i)
    (hb : b = .dead ∧ (k = i → s.EndsRecorded) ∨ (Ended a.entries → b.entries = a.entries)) :
    (u.put k b).Since entries n i calls := by
  have ha := mem_of_get hget
  have halive : a ≠ .dead := fun heq => by
    rw [heq] at hwrites
    cases hwrites
  have hholds : Holds entries a → Holds entries b := by
    intro hold
    have heq := hold.resolve_left halive
    exact hb.imp And.left fun hkeep => (hkeep (heq ▸ hended)).trans heq
  -- Whoever may write next holds what has just been recorded.
  have hwriter : a.entries = entries → ∀ d ∈ (u.put k b).activations, d.etag = u.etag →
      d.entries = entries := by
    intro heq d hd hdfresh
    rcases mem_put hd with hd | rfl
    · exact absurd (hdfresh.trans hetag) (htagged.stale hfresh (hactivations ▸ hd))
    rcases hb with ⟨rfl, -⟩ | hkeep
    · rw [hetag, etag_land hfresh] at hdfresh
      cases hdfresh
    · exact (hkeep (heq ▸ hended)).trans heq
  refine ⟨h.bound, ?_, ?_, fun d hd => ?_, fun j d hj hd => ?_, hcalls⟩
  · rw [Run.put, List.length_set, hactivations]
    exact h.length
  · rcases h.phase with ⟨hlength, d, hd, hdentries⟩ | hagreed
    · by_cases hki : k = i
      · subst hki
        cases hget.symm.trans hd
        rcases hb with ⟨rfl, hrecorded⟩ | hkeep
        · have hagreed := h.agreed hended hending (hrecorded rfl)
          exact .inr ⟨hhistory.trans (hagreed.land hended hending hget hwrites hfresh),
            hwriter hdentries⟩
        · refine .inl ⟨by rw [Run.put, List.length_set, hactivations]; exact hlength, b, ?_,
            (hkeep (hdentries ▸ hended)).trans hdentries⟩
          rw [Run.put, hactivations, List.getElem?_set, if_pos rfl,
            if_pos (List.getElem?_eq_some_iff.1 hget).1]
      · refine .inl ⟨by rw [Run.put, List.length_set, hactivations]; exact hlength, d, ?_,
          hdentries⟩
        rw [Run.put, hactivations, List.getElem?_set, if_neg hki]
        exact hd
    · exact .inr ⟨hhistory.trans (hagreed.land hended hending hget hwrites hfresh),
        hwriter (hagreed.2 a ha hfresh)⟩
  · rcases get_put hd with ⟨rfl, rfl⟩ | ⟨-, hd⟩
    · exact hholds (h.same a hget)
    · exact h.same d (hactivations ▸ hd)
  · rcases get_put hd with ⟨rfl, rfl⟩ | ⟨-, hd⟩
    · exact hholds (h.later _ a hj hget)
    · exact h.later j d hj (hactivations ▸ hd)

/-- An activation that loads the end holds it. -/
theorem Since.activate
    (hending : s.Ending) (hrecorded : s.EndsRecorded) (hgrows : Grows anyWake s.now s.loaded b)
    (hfinal : Final b.entries) :
    Since entries n i calls { s with activations := s.activations ++ [b] } := by
  have hagreed := h.agreed hended hending hrecorded
  have hb : b.entries = entries := by
    rw [← hagreed.1] at hended ⊢
    exact hgrows.entries_eq hended hfinal
  have hnew : ∀ {j : Nat} {d : Activation}, (s.activations ++ [b])[j]? = some d →
      s.activations[j]? = some d ∨ d = b := by
    intro j d hd
    rw [List.getElem?_append] at hd
    split at hd
    · exact .inl hd
    · exact .inr (List.mem_singleton.1 (List.mem_of_getElem? hd))
  refine ⟨h.bound, ?_, .inr ⟨hagreed.1, fun d hd hfresh => ?_⟩, fun d hd => ?_,
    fun j d hj hd => ?_, h.calls⟩
  · rw [List.length_append]
    exact Nat.le_add_right_of_le h.length
  · rw [mem_snoc] at hd
    rcases hd with hd | rfl
    · exact hagreed.2 d hd hfresh
    · exact hb
  · rcases hnew hd with hd | rfl
    · exact h.same d hd
    · exact .inr hb
  · rcases hnew hd with hd | rfl
    · exact h.later j d hj hd
    · exact .inr hb

/-- The step lemma. -/
theorem Since.step (hclosing : s.Closing)
    (hok : s.KeepsEnds options l) (hstep : s.step options l = some t) :
    t.Since entries n i calls := by
  have hending := hclosing.ending
  have htagged := hclosing.tagged
  have hnext := (hclosing.step hok hstep).ending
  cases Run.stepped hstep with
  | elapse | remind | lost | putBack => exact h.of_same rfl rfl rfl rfl
  | activate =>
    refine h.activate hended hending hok (grows_nudged s.loaded) (hnext.driven _ ?_).final
    exact List.mem_append_right _ List.mem_cons_self
  | @start k a name vars version hget hfree =>
    refine h.put hended hnext hget Activation.grows_start rfl rfl ?_
    rintro rfl
    cases hfree
  | @status k a hget hfree =>
    refine h.put hended hnext hget (grows_status _) rfl rfl ?_
    rintro rfl
    cases hfree
  | @fireAdvance _ a hget htimer | @fireWake _ a _ hget htimer =>
    refine h.put hended hnext hget (Activation.grows_kept (a := a) rfl rfl rfl rfl rfl) rfl rfl ?_
    rintro rfl
    cases htimer
  | @tickFaulted k j a tick hget htick hbusy hfaulted =>
    refine h.put hended hnext hget (Activation.grows_kept (a := a) rfl rfl rfl rfl rfl) rfl rfl ?_
    rintro rfl
    cases hfaulted
  | @tickAdvance k j a hget htick hbusy hfaulted =>
    refine h.put hended hnext hget Activation.grows_advance rfl rfl ?_
    rintro rfl
    cases htick
  | @tickWake k j seq a hget htick hbusy hfaulted =>
    refine h.put hended hnext hget (Activation.grows_wake fun _ _ _ => trivial) rfl rfl ?_
    rintro rfl
    cases htick
  | @deliver j k reminder a again hdelivery hget hfree =>
    have hput : (s.put k (Activation.onReminder s.now { a with busy := true }
        reminder.seq)).Since entries n i calls := by
      refine h.put hended { hnext with } hget (grows_delivered a reminder.seq)
        rfl rfl ?_
      rintro rfl
      cases hfree
    exact hput.of_same rfl rfl rfl rfl
  | @rejected _ _ write _ _ message jitter hget hwrites
  | @conflicted _ _ write _ message jitter hget hwrites =>
    refine h.put hended hnext hget (grows_rejected options write.thread message jitter _) rfl rfl ?_
    rintro rfl
    cases hwrites
  | @landed k a write rest message jitter hget hwrites hfaulted hfresh =>
    refine h.put_landed hended htagged hending hget hwrites hfresh ?_ (history_note k _)
      (etag_note k _) (h.calls_note hended hending hget hwrites) (.inr fun haended => ?_)
    · rw [activations_note, activations_land]
    · refine (grows_resumed _ write.thread).entries_eq haended (hnext.driven _ ?_).final
      refine List.mem_of_getElem? (i := k) ?_
      rw [Run.put, List.getElem?_set, if_pos rfl, activations_note, activations_land,
        if_pos (List.getElem?_eq_some_iff.1 hget).1]
  | @returned k a call out hget hcall =>
    refine h.put hended hnext hget Activation.grows_returned rfl rfl ?_
    rintro rfl
    cases hcall
  | @threw k a call message jitter hget hcall =>
    refine h.put hended hnext hget Activation.grows_threw rfl rfl ?_
    rintro rfl
    cases hcall
  | @armed k j a arming hget harming =>
    have hput : (s.put k (Activation.armed { a with armings := a.armings.eraseIdx j } arming
        true)).Since entries n i calls := by
      refine h.put hended { hnext with } hget (grows_disarmed _ a j arming)
        rfl rfl ?_
      rintro rfl
      cases harming
    exact hput.of_same rfl rfl rfl rfl
  | @unarmed k j a arming hget harming =>
    refine h.put hended hnext hget Activation.grows_armed rfl rfl ?_
    rintro rfl
    cases harming
  | @crashLanded k a write rest hget hwrites hfaulted hfresh =>
    by_cases hki : k = i
    · have hentries : k = i → s.EndsRecorded := fun _ => by
        refine hok a hget ?_
        rcases h.same a (hki ▸ hget) with rfl | heq
        · cases hwrites
        · exact heq ▸ hended
      exact h.put_landed hended htagged hending hget hwrites hfresh (activations_land _ _) rfl
        rfl (by rw [calls_land]; exact h.calls) (.inl ⟨rfl, hentries⟩)
    · exact h.put_landed hended htagged hending hget hwrites hfresh (activations_land _ _) rfl
        rfl (by rw [calls_land]; exact h.calls) (.inl ⟨rfl, fun heq => absurd heq hki⟩)
  | @crashed k a hget => exact h.dead hended htagged hending hget fun _ => hok a hget
  | @deactivate k a hget hbusy hticks =>
    refine h.put hended hnext hget (Activation.grows_kept (a := a) rfl rfl rfl rfl rfl) rfl rfl ?_
    rintro rfl
    rfl

end

/-! ## The property -/

/-- The end that activation `i` of `s` has applied in `a` still stands: nothing is recorded after
it, and neither that activation, unless its host is dead, nor a later one has applied another entry,
is in another state or has called a handler. -/
structure EndStands (s : Run) (i : Nat) (a : Activation) (t : Run) : Prop where
  recorded : Final t.history
  same : ∀ b, t.activations[i]? = some b → b = .dead ∨ b.entries = a.entries ∧ b.state = a.state
  later : ∀ j b, s.activations.length ≤ j → t.activations[j]? = some b →
    b = .dead ∨ b.entries = a.entries ∧ b.state = a.state
  calls : ∃ extra, t.calls = s.calls ++ extra ∧
    ∀ call ∈ extra, call.1 < s.activations.length ∧ call.1 ≠ i

/-- An end begins to stand when it is applied. -/
theorem since_self (hget : s.activations[i]? = some a) :
    s.Since a.entries s.activations.length i s.calls := by
  have hlt := (List.getElem?_eq_some_iff.1 hget).1
  refine ⟨hlt, Nat.le_refl _, .inl ⟨rfl, a, hget, rfl⟩, fun b hb => ?_, fun j b hj hb => ?_,
    [], (List.append_nil _).symm, List.forall_mem_nil _⟩
  · cases hget.symm.trans hb
    exact .inr rfl
  · exact absurd (List.getElem?_eq_some_iff.1 hb).1 (Nat.not_lt.2 hj)

/-- The same entries are the same state. -/
theorem Holds.state (h : Holds a.entries b) (ha : a.Folded) (hb : b.Folded) :
    b = .dead ∨ b.entries = a.entries ∧ b.state = a.state := by
  refine h.imp_right fun hentries => ⟨hentries, ?_⟩
  rw [hb.state, hentries, ha.state]

end Run

/-- A task that is tried once. -/
def oneTask : WorkflowOptions where
  definitions := [⟨"w", 1, "a", JsMap.empty.set "a" (.task ⟨"h", none, none, none⟩)⟩]
  handlers := ["h"]

/-- The handler returns, and the end is applied. -/
def toTheEnd : List Label :=
  [.activate, .start 0 "w" .empty none, .settle 0 true "" 0, .settle 0 true "" 0, .fireAdvance 0,
    .tick 0 0, .settle 0 true "" 0, .return_ 0 .null]

/-- `KeepsEnds` where the run is loaded once and no host dies. -/
def Run.KeepsEndsOnce (options : WorkflowOptions) (s : Run) : Label → Prop
  | .activate => s.activations.length = 0
  | .crash _ _ => False
  | l => s.KeepsEnds options l

instance (options : WorkflowOptions) (s : Run) (l : Label) :
    Decidable (s.KeepsEndsOnce options l) := by
  induction l using Label.casesOn <;>
    dsimp only [Run.KeepsEndsOnce, Run.KeepsEnds, Activation.Settled] <;> infer_instance

theorem Run.KeepsEndsOnce.keepsEnds {options : WorkflowOptions} {s : Run} {l : Label}
    (h : s.KeepsEndsOnce options l) : s.KeepsEnds options l := by
  cases l with
  | activate =>
    intro a hmem
    rw [List.length_eq_zero_iff.1 h] at hmem
    exact absurd hmem List.not_mem_nil
  | crash i landed => exact h.elim
  | _ => exact h

/-- The end has been applied and is on its way to the record. -/
def atTheEnd : Run := ((workflow oneTask).exec (fun _ _ => True) {} toTheEnd).getD {}

/-- The activation whose task has ended the run. -/
def endedTask : Activation := atTheEnd.activations[0]?.getD .dead

theorem endedTask_ended : Ended endedTask.entries :=
  ⟨⟨.end_ .completed 0 none, 0, none⟩, List.mem_of_getElem? (i := 3) rfl, rfl⟩

end SigxActors.Workflow
