/-
  Host/FinalFlush.lean --- what a deactivation leaves behind.

  Over a store that works, an activation that is alone with its record is calm: none
  of its writes conflicts and nothing faults it.  The last flush of `deactivate` then
  goes through: it is answered after finitely many steps, and the version it made
  durable is the last one there is.

  `savedVersion_honest` is about both: the record of a clean activation, at any
  time and whatever the store does, and the record a write-behind actor leaves.
-/
import SigxActors.Host.Calm
import SigxActors.Storage.Memory

set_option autoImplicit false

namespace SigxActors.Host

open SigxActors.Storage Activation

variable {σ Id St Snap En Etag : Type}

namespace Activation

/-- Everyone at the gate: the caller of the write in flight, and those that wait. -/
def queue (a : Activation St Snap En Etag) : List (Caller En) :=
  match a.pending with
  | some w => w.caller :: a.parked
  | none => a.parked

end Activation

/-- How far the final flush is, with callers on their way to the gate: it wants the
last version there is, nothing is dirty while it is under way, and it does not
fail. -/
structure FlushOk (opts : ActorOptions St En Snap) (a : Activation St Snap En Etag)
    (extra : List (Caller En)) : Prop where
  flushes : ∀ c ∈ extra ++ a.queue, ∀ wanted, c = .finalFlush wanted →
    a.phase ≠ .live ∧ wanted = a.version
  underway : ∀ reason, a.phase = .stopping reason → a.dirty = false ∧
    (∃ wanted, .finalFlush wanted ∈ extra ++ a.queue) ∧
    ∀ w wanted, a.pending = some w → w.caller = .finalFlush wanted → w.answer ≠ some .failed
  stopped : ∀ reason, a.phase = .stopped reason → reason ≠ .conflict → opts.writeBehind = true →
    a.dirty = false ∧ a.savedVersion = a.version

variable {reason : DeactivationReason}

section

variable {store : CasStore σ Id Snap En Etag} {opts : ActorOptions St En Snap} {id : Id}
  {mark : Nat → St} {s s' : StorageState σ} {a a' : Activation St Snap En Etag}
  {extra : List (Caller En)}

/-! ## The gate -/

/-- Of a final flush that settles, the phase is over. -/
theorem phase_settle (c : Caller En) (resolved : Bool) : (a.settle c resolved).phase = a.phase ∨
      ∃ wanted reason, c = .finalFlush wanted ∧ a.phase = .stopping reason ∧
        (a.settle c resolved).phase = .stopped reason := by
  cases c with
  | save | append | clear => exact .inl rfl
  | flush wanted =>
    simp only [Activation.settle]
    split <;> exact .inl rfl
  | finalFlush wanted =>
    simp only [Activation.settle]
    split
    · rename_i reason hphase
      exact .inr ⟨wanted, reason, rfl, hphase, rfl⟩
    · exact .inl rfl

/-- A caller settles.  If it is the final flush under way, its version is durable. -/
theorem FlushOk.settle {c : Caller En} {resolved : Bool}
    (h : FlushOk opts a [c]) (hle : a.savedVersion ≤ a.version)
    (hdurable : ∀ wanted reason, c = .finalFlush wanted → a.phase = .stopping reason →
      wanted ≤ a.savedVersion) :
    FlushOk opts (a.settle c resolved) [] := by
  have hqueue : (a.settle c resolved).queue = a.queue := by simp [queue]
  constructor
  · intro d hd wanted hdw
    rw [List.nil_append, hqueue] at hd
    obtain ⟨hlive, hwanted⟩ := h.flushes d (List.mem_cons_of_mem _ hd) wanted hdw
    refine ⟨?_, by simpa using hwanted⟩
    rcases phase_settle (a := a) c resolved with hphase | ⟨_, _, -, -, hphase⟩
    · rw [hphase]
      exact hlive
    · rw [hphase]
      simp
  · intro reason hstopping
    rcases phase_settle (a := a) c resolved with hphase | ⟨_, _, -, -, hphase⟩
    · rw [hphase] at hstopping
      obtain ⟨hdirty, ⟨wanted, hmem⟩, hanswer⟩ := h.underway reason hstopping
      refine ⟨by simpa using hdirty, ⟨wanted, ?_⟩, by simpa using hanswer⟩
      rw [List.nil_append, hqueue]
      rcases List.mem_append.1 hmem with hmem | hmem
      · -- The final flush itself would have ended the phase.
        obtain rfl := List.mem_singleton.1 hmem
        simp only [Activation.settle, hstopping] at hphase
        exact absurd hphase (by simp)
      · exact hmem
    · rw [hphase] at hstopping
      simp at hstopping
  · intro reason hstopped hreason hwb
    rcases phase_settle (a := a) c resolved with hphase | ⟨wanted, r, hc, hstopping, hphase⟩
    · rw [hphase] at hstopped
      simpa using h.stopped reason hstopped hreason hwb
    obtain ⟨hdirty, -, -⟩ := h.underway r hstopping
    obtain ⟨-, hwanted⟩ := h.flushes c (by simp) wanted hc
    have := hdurable wanted r hc hstopping
    refine ⟨by simpa using hdirty, ?_⟩
    simp only [settle_savedVersion, settle_version]
    omega

theorem FlushOk.gatedSave {appends : Bool} {c : Caller En} (h : FlushOk opts a [c])
    (hcalm : a.faulted = false) (hle : a.savedVersion ≤ a.version) (hclear : c ≠ .clear) :
    FlushOk opts (a.gatedSave opts appends c) [] := by
  have hgated := a.gated opts appends c
  generalize a.gatedSave opts appends c = a' at hgated
  cases hgated with
  | durable hwanted hsaved =>
    refine h.settle hle ?_
    intro w _ hw _
    rw [hw] at hwanted
    cases hwanted
    exact hsaved
  | parked hpending =>
    obtain ⟨w, hw⟩ := Option.isSome_iff_exists.1 hpending
    have hmem : ∀ d, d ∈ ({ a with parked := a.parked ++ [c] } :
        Activation St Snap En Etag).queue ↔ d ∈ [c] ++ a.queue := by
      simp only [queue, hw, List.mem_append, List.mem_cons]
      grind
    refine ⟨?_, ?_, h.stopped⟩
    · intro d hd
      exact h.flushes d ((hmem d).1 hd)
    · intro reason hstopping
      obtain ⟨hdirty, ⟨wanted, hwanted⟩, hanswer⟩ := h.underway reason hstopping
      exact ⟨hdirty, ⟨wanted, (hmem _).2 hwanted⟩, hanswer⟩
  | faulted _ hfaulted =>
    rw [hcalm] at hfaulted
    simp at hfaulted
  | saves hwanted hsaved hpending _ =>
    have hqueue : (a.issue c (a.saveOp opts appends c)).queue = [c] ++ a.queue := by
      simp [queue, issue, hpending]
    constructor
    · intro d hd
      rw [List.nil_append, hqueue] at hd
      exact h.flushes d hd
    · intro reason hstopping
      obtain ⟨hdirty, hmem, -⟩ := h.underway reason hstopping
      refine ⟨hdirty, ?_, ?_⟩
      · rw [List.nil_append, hqueue]
        exact hmem
      · intro w _ hw _
        cases hw
        simp
    · exact h.stopped
  | clears hcaller _ => exact absurd hcaller hclear

theorem FlushOk.resume {k : Nat} (h : FlushOk opts a []) (hcalm : Calm store id s a)
    (hkept : Kept store opts id mark s a [])
    (hstep : a.resume opts store.appendText.isSome k = some a') : FlushOk opts a' [] := by
  unfold Activation.resume at hstep
  split at hstep
  · rename_i c hc
    obtain ⟨-, rfl⟩ := guard_taken hstep
    have hget := List.mem_of_getElem? hc
    have hmem : ∀ d, d ∈ [c] ++ ({ a with parked := a.parked.eraseIdx k } :
        Activation St Snap En Etag).queue → d ∈ a.queue := by
      intro d hd
      rcases List.mem_append.1 hd with hd | hd
      · obtain rfl := List.mem_singleton.1 hd
        simp only [queue]
        split
        · exact List.mem_cons_of_mem _ hget
        · exact hget
      · simp only [queue] at hd ⊢
        split at hd
        · rcases List.mem_cons.1 hd with rfl | hd
          · exact List.mem_cons_self
          · exact List.mem_cons_of_mem _ (List.mem_of_mem_eraseIdx hd)
        · exact List.mem_of_mem_eraseIdx hd
    have hmem' : ∀ d, d ∈ a.queue → d ∈ [c] ++ ({ a with parked := a.parked.eraseIdx k } :
        Activation St Snap En Etag).queue := by
      have hparked : ∀ d ∈ a.parked, d = c ∨ d ∈ a.parked.eraseIdx k := by
        intro d hd
        obtain ⟨hk, hck⟩ := List.getElem?_eq_some_iff.1 hc
        have := (List.getElem_cons_eraseIdx_perm hk).mem_iff.2 hd
        rw [hck] at this
        exact List.mem_cons.1 this
      intro d hd
      simp only [queue, List.singleton_append, List.mem_cons] at hd ⊢
      split at hd
      · rcases List.mem_cons.1 hd with rfl | hd
        · exact .inr List.mem_cons_self
        · exact (hparked d hd).imp_right (List.mem_cons_of_mem _)
      · exact hparked d hd
    refine FlushOk.gatedSave ?_ hcalm.faulted hkept.savedLe ?_
    · refine ⟨?_, ?_, h.stopped⟩
      · intro d hd
        exact h.flushes d (hmem d hd)
      · intro reason hstopping
        obtain ⟨hdirty, ⟨wanted, hwanted⟩, hanswer⟩ := h.underway reason hstopping
        exact ⟨hdirty, ⟨wanted, hmem' _ hwanted⟩, hanswer⟩
    · rintro rfl
      exact hkept.parked_ne_clear hget
  · simp at hstep

/-! ## The store's answer -/

/-- While the final flush is under way, the store answers. -/
theorem FlushOk.exec {w : Write Snap En Etag} {outcome : Outcome} (h : FlushOk opts a [])
    (hpending : a.pending = some w)
    (hworks : ∀ reason, a.phase = .stopping reason → outcome = .answered) :
    FlushOk opts { a with pending := some { w with
      answer := some (s.execute store id w.op w.expected outcome).2 } } [] := by
  have hqueue : ∀ answer, ({ a with pending := some { w with answer := some answer } } :
      Activation St Snap En Etag).queue = a.queue := by
    simp [queue, hpending]
  refine ⟨?_, ?_, h.stopped⟩
  · rw [hqueue]
    exact h.flushes
  · intro reason hstopping
    obtain ⟨hdirty, hmem, -⟩ := h.underway reason hstopping
    refine ⟨hdirty, ?_, ?_⟩
    · rw [List.nil_append, hqueue]
      exact hmem
    · intro w' _ hw' _
      cases hw'
      rw [hworks reason hstopping]
      simp only [StorageState.execute]
      have hperformed := performed store id s w.op w.expected
      generalize s.perform store id w.op w.expected = done at hperformed
      cases hperformed with
      | refused | saved | appended | cleared => simp

/-- The answer is taken. -/
theorem FlushOk.reply (h : FlushOk opts a []) (hcalm : Calm store id s a)
    (hkept : Kept store opts id mark s a [])
    (hstep : a.reply opts store.appendText.isSome = some a') : FlushOk opts a' [] := by
  unfold Activation.reply at hstep
  split at hstep
  · simp at hstep
  rename_i w hpending
  have hok := hkept.pending w hpending
  obtain ⟨wanted, hwanted, hlt, hle⟩ := hok.wanted
  have hversion := hok.version
  have hqueue : a.queue = w.caller :: a.parked := by simp [queue, hpending]
  have hflushes : ∀ c ∈ [w.caller] ++ a.parked, ∀ wanted, c = .finalFlush wanted →
      a.phase ≠ .live ∧ wanted = a.version := by
    intro c hc
    refine h.flushes c ?_
    rw [List.nil_append, hqueue]
    exact hc
  split at hstep
  · simp at hstep
  · rename_i token hanswer
    have hadopted := hkept.adopt hpending hanswer
    have hflush : FlushOk opts (({ a with pending := none } :
        Activation St Snap En Etag).adopt w token) [w.caller] := by
      constructor
      · exact hflushes
      · intro reason hstopping
        obtain ⟨hdirty, ⟨v, hmem⟩, -⟩ := h.underway reason hstopping
        rw [List.nil_append, hqueue] at hmem
        refine ⟨hdirty, ⟨v, hmem⟩, ?_⟩
        intro w' _ hw'
        simp [Activation.adopt] at hw'
      · intro reason hstopped hreason hwb
        obtain ⟨-, hsaved⟩ := h.stopped reason hstopped hreason hwb
        omega
    have hsaved : ∀ v, w.caller = .finalFlush v →
        v ≤ (({ a with pending := none } : Activation St Snap En Etag).adopt w
          token).savedVersion := by
      intro v hv
      rw [hv] at hwanted
      cases hwanted
      simp only [Activation.adopt]
      split
      · rename_i entry wd hop
        rw [hok.append entry wd hop] at hv
        simp at hv
      · exact hle
    split at hstep
    · cases hstep
      exact hflush.settle hadopted.savedLe (fun v _ hv _ => hsaved v hv)
    · cases hstep
      refine hflush.gatedSave hcalm.faulted hadopted.savedLe ?_
      intro hclear
      rw [hclear] at hwanted
      simp [Caller.wanted] at hwanted
  · rename_i hanswer
    rcases hcalm.answer w _ hpending hanswer with hans | ⟨token, hans⟩ <;> simp at hans
  · rename_i hanswer
    rcases hcalm.answer w _ hpending hanswer with hans | ⟨token, hans⟩ <;> simp at hans
  · rename_i hanswer
    cases hstep
    have hgone := hkept.giveUp hpending (by simp [hanswer]) (by simp [hanswer])
    refine FlushOk.settle ?_ hgone.savedLe ?_
    · constructor
      · exact hflushes
      · intro reason hstopping
        obtain ⟨hdirty, ⟨v, hmem⟩, -⟩ := h.underway reason hstopping
        rw [List.nil_append, hqueue] at hmem
        refine ⟨hdirty, ⟨v, hmem⟩, ?_⟩
        intro w' _ hw'
        simp at hw'
      · exact h.stopped
    · -- A final flush does not fail.
      intro v reason hv hphase
      exact absurd hanswer ((h.underway reason hphase).2.2 w v hpending hv)

/-! ## The operations -/

/-- A step of a live activation that leaves its callers alone. -/
theorem FlushOk.live (h : FlushOk opts a []) (hphase : a.phase = .live)
    (hphase' : a'.phase = .live) (hpending : a'.pending = a.pending)
    (hparked : a'.parked = a.parked) (hextra : ∀ c ∈ extra, ∀ wanted, c ≠ .finalFlush wanted) :
    FlushOk opts a' extra := by
  constructor
  · intro c hc wanted hcw
    rcases List.mem_append.1 hc with hc | hc
    · exact absurd hcw (hextra c hc wanted)
    have hqueue : a'.queue = a.queue := by simp only [queue, hpending, hparked]
    rw [hqueue] at hc
    exact absurd hphase (h.flushes c hc wanted hcw).1
  · intro reason hstopping
    rw [hphase'] at hstopping
    simp at hstopping
  · intro reason hstopped
    rw [hphase'] at hstopped
    simp at hstopped

/-- `deactivate` finds nothing unsaved, or begins its flush. -/
theorem FlushOk.deactivate {appends : Bool} (h : FlushOk opts a []) (hphase : a.phase = .live)
    (hcalm : Calm store id s a) (hkept : Kept store opts id mark s a [])
    (reason : DeactivationReason) : FlushOk opts (a.deactivate opts appends reason) [] := by
  obtain ⟨hdirty, -, hfaulted, hreload, -, hpending, hparked⟩ := consumeDirty_cases (a := a)
  obtain ⟨mark', hclean, -⟩ := hkept.consumeDirty
  have hqueue : a.consumeDirty.queue = a.queue := by simp only [queue, hpending, hparked]
  have hnoFlush : ∀ c ∈ a.queue, ∀ wanted, c ≠ .finalFlush wanted := by
    intro c hc wanted hcw
    exact (h.flushes c hc wanted hcw).1 hphase
  simp only [Activation.deactivate]
  split
  · refine FlushOk.gatedSave ?_ (hfaulted.trans hcalm.faulted) hclean.savedLe (by simp)
    refine ⟨?_, ?_, ?_⟩
    · intro c hc wanted hcw
      refine ⟨by simp, ?_⟩
      rcases List.mem_append.1 hc with hc | hc
      · rw [List.mem_singleton.1 hc] at hcw
        injection hcw with hwanted
        exact hwanted.symm
      · exact absurd hcw (hnoFlush c (hqueue ▸ hc) wanted)
    · intro r _
      refine ⟨hdirty, ⟨_, List.mem_append_left _ (List.mem_singleton_self _)⟩, ?_⟩
      intro w wanted hw hcaller
      refine absurd hcaller (hnoFlush w.caller ?_ wanted)
      rw [← hqueue]
      have hw' : a.consumeDirty.pending = some w := hw
      simp [queue, hw']
    · intro r hstopped
      simp at hstopped
  · rename_i howes
    refine ⟨?_, ?_, ?_⟩
    · intro c hc wanted hcw
      exact absurd hcw (hnoFlush c (hqueue ▸ hc) wanted)
    · intro r hstopping
      simp at hstopping
    · intro r hstopped hreason hwb
      injection hstopped with hr
      subst hr
      refine ⟨hdirty, ?_⟩
      have hle := hclean.savedLe
      have hnot : ¬ a.consumeDirty.savedVersion < a.consumeDirty.version := by
        intro hlt
        exact howes ⟨hreason, hreload.trans hcalm.reload, hlt, .inl hwb⟩
      show a.consumeDirty.savedVersion = a.consumeDirty.version
      omega

/-- The store works: no call fails behind an executed write, and none fails while
a final flush is under way. -/
def StoreWorks (a : Activation St Snap En Etag) : Event St En → Prop
  | .exec outcome =>
      outcome ≠ .lost ∧ match a.phase with
        | .stopping _ => outcome = .answered
        | _ => True
  | _ => True

instance (a : Activation St Snap En Etag) (e : Event St En) : Decidable (StoreWorks a e) := by
  induction e using Event.casesOn <;> dsimp only [StoreWorks]
  case exec outcome =>
    refine @instDecidableAnd _ _ inferInstance ?_
    generalize a.phase = phase
    induction phase using Phase.casesOn <;> dsimp only <;> infer_instance
  all_goals infer_instance

theorem StoreWorks.of_exec {outcome : Outcome} (h : StoreWorks a (.exec outcome : Event St En)) :
    outcome ≠ .lost ∧ ∀ reason, a.phase = .stopping reason → outcome = .answered := by
  refine ⟨h.1, ?_⟩
  intro reason hphase
  have := h.2
  simpa [hphase] using this

variable {e : Event St En}

theorem FlushOk.run (h : FlushOk opts a []) (hcalm : Calm store id s a)
    (hmirrors : Mirrors store opts id s a) (hok : Bookkept a e)
    (hstep : a.run opts store.appendText.isSome e = some a') : FlushOk opts a' [] := by
  obtain ⟨habsent, hseeding, mark, hkept⟩ := hmirrors
  obtain ⟨-, hphase', hfaulted, -, -, hpending, hparked⟩ := consumeDirty_cases (a := a)
  obtain ⟨mark', hclean, -⟩ := hkept.consumeDirty
  cases e with
  | create =>
    simp only [Activation.run, habsent, false_and, if_false] at hstep
    simp at hstep
  | reload | clearState => exact hok.elim
  | seedExec | exec => simp [Activation.run] at hstep
  | seedNext => simp [Activation.run, Activation.seedNext, hseeding] at hstep
  | track | write =>
    obtain ⟨hlive, rfl⟩ := guard_taken hstep
    exact h.live hlive hlive rfl rfl (by simp)
  | afterTurn | saveEventual =>
    obtain ⟨hlive, rfl⟩ := guard_taken hstep
    exact h.live hlive (hphase'.trans hlive) hpending hparked (by simp)
  | save =>
    obtain ⟨hlive, rfl⟩ := guard_taken hstep
    have hsave : FlushOk opts { a.consumeDirty with version := a.consumeDirty.version + 1 }
        [.save (a.consumeDirty.version + 1)] :=
      h.live hlive (hphase'.trans hlive) hpending hparked (by simp)
    exact hsave.gatedSave (hfaulted.trans hcalm.faulted) (Nat.le_succ_of_le hclean.savedLe)
      (by simp)
  | append entry =>
    obtain ⟨hlive, hstep⟩ := guard_passed hstep
    simp only [Activation.append] at hstep
    split at hstep
    · simp at hstep
    rename_i apply _
    cases hstep
    have happend : FlushOk opts
        { a.consumeDirty with
          state := apply a.consumeDirty.state entry
          version := a.consumeDirty.version + 1 }
        [.append entry (a.consumeDirty.version + 1)] :=
      h.live hlive (hphase'.trans hlive) hpending hparked (by simp)
    exact happend.gatedSave (hfaulted.trans hcalm.faulted)
      (Nat.le_succ_of_le hclean.savedLe) (by simp)
  | flush =>
    obtain ⟨hlive, rfl⟩ := guard_taken hstep
    have hflush : FlushOk opts a
        [.flush (if opts.writeBehind then a.version else a.eventualWanted)] :=
      h.live hlive.1 hlive.1 rfl rfl (by simp)
    exact hflush.gatedSave hcalm.faulted hkept.savedLe (by simp)
  | resume k => exact h.resume hcalm hkept hstep
  | reply => exact h.reply hcalm hkept hstep
  | deactivate reason =>
    obtain ⟨hlive, rfl⟩ := guard_taken hstep
    exact h.deactivate hlive.1 hcalm hkept reason

/-! ## Completing the flush -/

/-- What is left to do at the gate. -/
def owed (a : Activation St Snap En Etag) : Nat :=
  3 * a.parked.length +
    match a.pending with
    | some w => if w.answer.isNone then 2 else 1
    | none => 0

theorem phase_settle_stopping (hphase : a.phase = .stopping reason)
    (c : Caller En) (resolved : Bool) : (a.settle c resolved).phase = .stopping reason ∨
      (a.settle c resolved).phase = .stopped reason := by
  rcases phase_settle (a := a) c resolved with h | ⟨_, r, -, hr, h⟩
  · exact .inl (h.trans hphase)
  rw [hphase] at hr
  injection hr with hr
  subst hr
  exact .inr h

/-- While the final flush is under way, the activation has a step to take that
brings it closer to the end. -/
theorem FlushOk.progress
    (h : FlushOk opts a []) (hcalm : Calm store id s a) (hmirrors : Mirrors store opts id s a)
    (hphase : a.phase = .stopping reason) :
    ∃ e s' a', a.step store opts id s e = some (s', a') ∧ Bookkept a e ∧ StoreWorks a e ∧
      (a'.phase = .stopped reason ∨ (a'.phase = .stopping reason ∧ owed a' < owed a)) := by
  obtain ⟨-, hseeding, mark, hkept⟩ := hmirrors
  cases hpending : a.pending with
  | none =>
    obtain ⟨-, ⟨wanted, hmem⟩, -⟩ := h.underway reason hphase
    simp only [List.nil_append, queue, hpending] at hmem
    obtain ⟨c, rest, hparked⟩ := List.exists_cons_of_ne_nil (List.ne_nil_of_mem hmem)
    have hstep : a.step store opts id s (.resume 0) =
        some (s, { a with parked := rest }.gatedSave opts store.appendText.isSome c) := by
      simp [Activation.step, Activation.run, Activation.resume, hparked, hpending]
    refine ⟨.resume 0, s, _, hstep, trivial, trivial, ?_⟩
    have hgated := ({ a with parked := rest } : Activation St Snap En Etag).gated opts
      store.appendText.isSome c
    generalize ({ a with parked := rest } : Activation St Snap En Etag).gatedSave opts
      store.appendText.isSome c = a' at hgated
    have hsettle : ∀ resolved, (({ a with parked := rest } :
        Activation St Snap En Etag).settle c resolved).phase = .stopped reason ∨
        ((({ a with parked := rest } :
          Activation St Snap En Etag).settle c resolved).phase = .stopping reason ∧
        owed (({ a with parked := rest } : Activation St Snap En Etag).settle c resolved) <
          owed a) := by
      intro resolved
      rcases phase_settle_stopping (a := { a with parked := rest }) hphase c resolved with
        hp | hp
      · refine .inr ⟨hp, ?_⟩
        simp [owed, hparked, hpending]
      · exact .inl hp
    cases hgated with
    | durable _ _ => exact hsettle true
    | parked hp => simp [hpending] at hp
    | faulted _ _ => exact hsettle false
    | saves | clears =>
      refine .inr ⟨hphase, ?_⟩
      simp only [owed, issue, hparked, hpending, List.length_cons, Option.isNone_none, if_true]
      omega
  | some w =>
    cases hanswer : w.answer with
    | none =>
      have hstep : a.step store opts id s (.exec .answered) =
          some ((s.perform store id w.op w.expected).1, { a with pending := some { w with
            answer := some (s.perform store id w.op w.expected).2 } }) := by
        simp [Activation.step, Activation.atStore, hpending, hanswer, StorageState.execute]
      refine ⟨.exec .answered, _, _, hstep, trivial, ?_, ?_⟩
      · simp only [StoreWorks, hphase]
        simp
      · refine .inr ⟨hphase, ?_⟩
        simp [owed, hpending, hanswer]
    | some answer =>
      obtain ⟨wanted, hwanted, -, hle⟩ := (hkept.pending w hpending).wanted
      have hsettle : ∀ b : Activation St Snap En Etag, b.phase = .stopping reason →
          b.parked = a.parked → b.pending = none → ∀ resolved,
          (b.settle w.caller resolved).phase = .stopped reason ∨
          ((b.settle w.caller resolved).phase = .stopping reason ∧
            owed (b.settle w.caller resolved) < owed a) := by
        intro b hb hbparked hbpending resolved
        rcases phase_settle_stopping hb w.caller resolved with hp | hp
        · refine .inr ⟨hp, ?_⟩
          simp [owed, hbparked, hbpending, hpending, hanswer]
        · exact .inl hp
      rcases hcalm.answer w answer hpending hanswer with rfl | ⟨token, rfl⟩
      · have hstep : a.step store opts id s .reply =
            some (s, ({ a with pending := none } :
              Activation St Snap En Etag).settle w.caller false) := by
          simp [Activation.step, Activation.run, Activation.reply, hpending, hanswer]
        refine ⟨.reply, s, _, hstep, trivial, trivial, ?_⟩
        exact hsettle { a with pending := none } hphase rfl rfl false
      · -- Saved or appended: the caller has what it wanted.
        have hstep : a.step store opts id s .reply =
            some (s, (({ a with pending := none } :
              Activation St Snap En Etag).adopt w token).settle w.caller true) := by
          simp only [Activation.step, Activation.run, Activation.reply, hpending, hanswer]
          split
          · rfl
          rename_i caller hnot
          rw [gatedSave_durable opts _ _ hwanted]
          · rfl
          · simp only [Activation.adopt]
            split
            · rename_i entry wd hop
              exact absurd ((hkept.pending w hpending).append entry wd hop) (hnot entry wd)
            · exact hle
        refine ⟨.reply, s, _, hstep, trivial, trivial, ?_⟩
        exact hsettle (({ a with pending := none } :
          Activation St Snap En Etag).adopt w token) hphase rfl rfl true

/-! ## From seeding to the end -/

theorem SeedOk.flushOk (h : SeedOk store opts id s a)
    (hseeded : SeededFrom store opts id s a a') : FlushOk opts a' [] := by
  obtain ⟨st, token, rfl, -, htoken⟩ := hseeded
  obtain ⟨hpending, hparked, -⟩ := h.idle
  simp only [Activation.seeded, h.phase]
  constructor
  · intro c hc
    simp [queue, hpending, hparked] at hc
  · simp
  · simp

theorem FlushOk.step (h : FlushOk opts a []) (hcalm : Calm store id s a)
    (hmirrors : Mirrors store opts id s a) (hok : Bookkept a e) (hworks : StoreWorks a e)
    (hstep : a.step store opts id s e = some (s', a')) : FlushOk opts a' [] := by
  unfold Activation.step at hstep
  split at hstep
  · simp [Activation.atStore, hmirrors.2.1] at hstep
  · obtain ⟨-, hanswered⟩ := hworks.of_exec
    simp only [Activation.atStore] at hstep
    split at hstep
    · rename_i w hpending
      obtain ⟨-, hstep⟩ := guard_passed hstep
      obtain ⟨rfl, rfl⟩ := Prod.mk.inj (Option.some.inj hstep)
      exact h.exec hpending hanswered
    · simp at hstep
  · obtain ⟨b, hb, heq⟩ := Option.map_eq_some_iff.1 hstep
    obtain ⟨rfl, rfl⟩ := Prod.mk.inj heq
    exact h.run hcalm hmirrors hok hb

/-- A created activation over a store that works. -/
structure Working (store : CasStore σ Id Snap En Etag) (opts : ActorOptions St En Snap) (id : Id)
    (s : StorageState σ) (a : Activation St Snap En Etag) : Prop where
  mirrors : Mirrors store opts id s a
  calm : Calm store id s a
  flush : FlushOk opts a []

theorem Working.frame (h : Working store opts id s a)
    (hload : store.load s'.db id = store.load s.db id) : Working store opts id s' a :=
  ⟨h.mirrors.frame hload, h.calm.frame hload, h.flush⟩

theorem SeedOk.working (h : SeedOk store opts id s a)
    (hseeded : SeededFrom store opts id s a a') : Working store opts id s a' :=
  ⟨h.mirrors hseeded, h.created_calm hseeded, h.flushOk hseeded⟩

theorem Working.step (tokens : store.TokenLaws) (laws : store.RecordLaws)
    (renews : store.RenewingLaws) (h : Working store opts id s a) (hok : Bookkept a e)
    (hworks : StoreWorks a e) (hstep : a.step store opts id s e = some (s', a')) :
    Working store opts id s' a' where
  mirrors := h.mirrors.step tokens laws renews hok hstep
  calm := by
    refine h.calm.step tokens laws h.mirrors hok ?_ hstep
    cases e with
    | exec outcome => exact hworks.of_exec.1
    | _ => trivial
  flush := h.flush.step h.calm h.mirrors hok hworks hstep

end

/-! ## Runs -/

section

/-- Each event of an activation meets a condition on the activation. -/
def EachEvent {ι : Type} (ok : Activation St Snap En Etag → Event St En → Prop)
    (s : SharedState σ ι St Snap En Etag) : SharedLabel Id ι St Snap En Etag → Prop
  | .act i e => ok (s.acts i) e
  | .elsewhere _ _ _ => True

instance {ι : Type} (ok : Activation St Snap En Etag → Event St En → Prop)
    [∀ a e, Decidable (ok a e)] (s : SharedState σ ι St Snap En Etag)
    (l : SharedLabel Id ι St Snap En Etag) : Decidable (EachEvent ok s l) := by
  unfold EachEvent
  split <;> infer_instance

/-- The operations of the bookkeeping, over a store that works. -/
def BookkeptWorks (a : Activation St Snap En Etag) (e : Event St En) : Prop :=
  Bookkept a e ∧ StoreWorks a e

instance (a : Activation St Snap En Etag) (e : Event St En) : Decidable (BookkeptWorks a e) :=
  inferInstanceAs (Decidable (_ ∧ _))

variable [DecidableEq Id] (store : CasStore σ Id Snap En Etag) (opts : ActorOptions St En Snap)
  (id : Id)

/-- With tracking on, nothing dirty and no version unsaved, the record folds to the
live state. -/
def SavedVersionHonest (s : SharedState σ Unit St Snap En Etag) : Prop :=
  (s.acts ()).phase ≠ .absent → (s.acts ()).tracking = true → (s.acts ()).dirty = false →
    (s.acts ()).savedVersion = (s.acts ()).version →
    opts.seedState (store.load s.storage.db id) = some (s.acts ()).state

/-- A final flush that is under way can be completed. -/
def FlushCompletes (s : SharedState σ Unit St Snap En Etag) : Prop :=
  ∀ reason, (s.acts ()).phase = .stopping reason →
    ∃ ls t, (sharedRecord store opts id).exec (EachEvent BookkeptWorks) s ls = some t ∧
      (t.acts ()).phase = .stopped reason

/-- A write-behind actor that was deactivated gracefully left its state behind. -/
def LeavesState (s : SharedState σ Unit St Snap En Etag) : Prop :=
  ∀ reason, (s.acts ()).phase = .stopped reason → reason ≠ .conflict →
    (s.acts ()).reloadPending = false → opts.writeBehind = true →
    opts.seedState (store.load s.storage.db id) = some (s.acts ()).state

variable {store opts id}

section

variable (tokens : store.TokenLaws) (laws : store.RecordLaws) (renews : store.RenewingLaws)
include tokens laws renews

/-- In every run the activation is under creation, or its bookkeeping is sound. -/
theorem mirrors_of_bookkept {s : SharedState σ Unit St Snap En Etag}
    (h : (sharedRecord store opts id).Reach (EachEvent Bookkept) s) :
    SeedOk store opts id s.storage (s.acts ()) ∨ Mirrors store opts id s.storage (s.acts ()) := by
  refine Machine.System.Reach.invariant (I := fun s => SeedOk store opts id s.storage (s.acts ()) ∨
    Mirrors store opts id s.storage (s.acts ())) ?_ ?_ h
  · rintro s ⟨-, hacts⟩
    rw [hacts]
    exact .inl (.initial _)
  · intro s l t hinv hok hstep
    rcases sharedRecord_cases hstep with ⟨i, e, storage', a', rfl, hact, rfl⟩ |
      ⟨other, op, expected, rfl, hother, rfl⟩
    · rcases hinv with hseed | hmirrors
      · rcases hseed.step tokens laws hact with hseed' | ⟨rfl, hseeded⟩
        · exact .inl hseed'
        · exact .inr (hseed.mirrors hseeded)
      · exact .inr (hmirrors.step tokens laws renews hok hact)
    · have hload := load_writeElsewhere (s := s.storage) laws hother op expected
      exact hinv.imp (fun hseed => hseed.frame hload rfl) (fun hmirrors => hmirrors.frame hload)

/-- Over a store that works, it is working too. -/
theorem working_of_bookkeptWorks {s : SharedState σ Unit St Snap En Etag}
    (h : (sharedRecord store opts id).Reach (EachEvent BookkeptWorks) s) :
    SeedOk store opts id s.storage (s.acts ()) ∨ Working store opts id s.storage (s.acts ()) := by
  refine Machine.System.Reach.invariant (I := fun s => SeedOk store opts id s.storage (s.acts ()) ∨
    Working store opts id s.storage (s.acts ())) ?_ ?_ h
  · rintro s ⟨-, hacts⟩
    rw [hacts]
    exact .inl (.initial _)
  · intro s l t hinv hok hstep
    rcases sharedRecord_cases hstep with ⟨i, e, storage', a', rfl, hact, rfl⟩ |
      ⟨other, op, expected, rfl, hother, rfl⟩
    · rcases hinv with hseed | hworking
      · rcases hseed.step tokens laws hact with hseed' | ⟨rfl, hseeded⟩
        · exact .inl hseed'
        · exact .inr (hseed.working hseeded)
      · exact .inr (hworking.step tokens laws renews hok.1 hok.2 hact)
    · have hload := load_writeElsewhere (s := s.storage) laws hother op expected
      exact hinv.imp (fun hseed => hseed.frame hload rfl) (fun h => h.frame hload)

/-- The steps of `FlushOk.progress`, one after the other. -/
theorem flush_completes :
    ∀ {n : Nat} {s : SharedState σ Unit St Snap En Etag}, owed (s.acts ()) < n →
      Working store opts id s.storage (s.acts ()) → (s.acts ()).phase = .stopping reason →
      ∃ ls t, (sharedRecord store opts id).exec (EachEvent BookkeptWorks) s ls = some t ∧
        (t.acts ()).phase = .stopped reason := by
  intro n
  induction n with
  | zero =>
    intro s howed _ _
    exact absurd howed (Nat.not_lt_zero _)
  | succ n ih =>
    intro s howed hworking hphase
    obtain ⟨e, s', a', hstep, hok, hworks, hnext⟩ :=
      hworking.flush.progress hworking.calm hworking.mirrors hphase
    have hact : (sharedRecord store opts id).step s (.act () e) =
        some { storage := s', acts := fun j => if j = () then a' else s.acts j } := by
      simp [sharedRecord, SharedState.step, hstep]
    have hguard : EachEvent BookkeptWorks s
        (.act () e : SharedLabel Id Unit St Snap En Etag) := ⟨hok, hworks⟩
    rcases hnext with hstopped | ⟨hphase', hlt⟩
    · refine ⟨[.act () e], { storage := s', acts := fun j => if j = () then a' else s.acts j }, ?_,
        by simpa using hstopped⟩
      simp only [Machine.System.exec, hguard, hact, if_true]
    · obtain ⟨ls, t, hexec, ht⟩ := ih
        (s := { storage := s', acts := fun j => if j = () then a' else s.acts j })
        (by simp only [if_true]; omega)
        (by simpa using hworking.step tokens laws renews hok hworks hstep)
        (by simpa using hphase')
      refine ⟨.act () e :: ls, t, ?_, ht⟩
      simp only [Machine.System.exec, hguard, hact, if_true]
      exact hexec

end

end

/-- A write-behind counter, appended to by adding. -/
def counter : ActorOptions Nat Nat Nat where
  state := 0
  applyEntry := some (fun total entry => total + entry)
  encode := fun total => total
  migrateState := some
  eager := fun _ => false
  writeBehind := true
  retryQueuedOnConflict := false
  migrate_encode := fun _ => rfl

/-- Both paths of append, a write whose save fails, and a deactivation. -/
def counterEvents : List (Event Nat Nat) :=
  [.create, .seedExec .answered, .seedNext,
    .append 3, .exec .answered, .reply, .append 4, .exec .answered, .reply,
    .write 10, .afterTurn, .flush, .exec .failed, .reply,
    .deactivate .idle, .exec .answered, .reply]

def counterStart : SharedState (MemoryDb Nat Nat) Unit Nat Nat Nat String :=
  { storage := { db := .empty, writes := 0 }, acts := fun _ => { state := 0 } }

/-- The counter after its run. -/
def counterEnd : SharedState (MemoryDb Nat Nat) Unit Nat Nat Nat String :=
  ((sharedRecord (memoryStorage Nat Nat) counter "Cart\x00a").exec (EachEvent BookkeptWorks)
    counterStart (counterEvents.map (.act ()))).get (by decide)

end SigxActors.Host
