/-
  Host/Calm.lean --- an activation that never loses a race.

  An activation that is alone with its record holds the record's etag, as long as
  no call of the store fails behind an executed write.  Its writes are then never
  refused, so no conflict faults it or makes it reload.
-/
import SigxActors.Host.Mirror

set_option autoImplicit false

namespace SigxActors.Host

open SigxActors.Storage Activation

variable {σ Id St Snap En Etag : Type}

/-- The etag the activation will hold once its write has been answered. -/
def Activation.effectiveEtag (a : Activation St Snap En Etag) : Option Etag :=
  match a.pending with
  | some w =>
      match w.answer with
      | some (.stored token) => some token.etag
      | _ => a.etag.map (·.etag)
  | none => a.etag.map (·.etag)

/-- Neither faulted nor about to reload, with the record's etag in hand. -/
structure Calm (store : CasStore σ Id Snap En Etag) (id : Id) (s : StorageState σ)
    (a : Activation St Snap En Etag) : Prop where
  faulted : a.faulted = false
  reload : a.reloadPending = false
  etag : a.effectiveEtag = store.current s.db id
  answer : ∀ w answer, a.pending = some w → w.answer = some answer →
    answer = .failed ∨ ∃ token, answer = .stored token
  appendable : ∀ w entry wanted, a.pending = some w → w.op = .append entry wanted →
    w.expected.isSome ∧ store.appendText.isSome

section

variable {store : CasStore σ Id Snap En Etag} {opts : ActorOptions St En Snap} {id : Id}
  {mark : Nat → St} {s s' : StorageState σ} {a a' : Activation St Snap En Etag}

section

variable (h : Calm store id s a)
include h

/-- A step that leaves the write, the etag and the faults alone. -/
theorem Calm.congr (hfaulted : a'.faulted = a.faulted)
    (hreload : a'.reloadPending = a.reloadPending) (hetag : a'.etag = a.etag)
    (hpending : a'.pending = a.pending) : Calm store id s a' where
  faulted := hfaulted.trans h.faulted
  reload := hreload.trans h.reload
  etag := by
    rw [← h.etag]
    simp only [effectiveEtag, hpending, hetag]
  answer := by
    rw [hpending]
    exact h.answer
  appendable := by
    rw [hpending]
    exact h.appendable

theorem Calm.frame (hload : store.load s'.db id = store.load s.db id) : Calm store id s' a :=
  { h with etag := h.etag.trans (current_congr hload).symm }

/-- Without a parked conflict, settling faults nothing. -/
theorem Calm.settle (c : Caller En) (resolved : Bool) : Calm store id s (a.settle c resolved) := by
  have hcalm : (a.settle c resolved).faulted = false ∧
      (a.settle c resolved).reloadPending = false := by
    cases c with
    | save | append | clear => exact ⟨h.faulted, h.reload⟩
    | flush wanted => simp [Activation.settle, h.faulted, h.reload]
    | finalFlush wanted =>
      simp only [Activation.settle]
      split <;> exact ⟨h.faulted, h.reload⟩
  exact h.congr (hcalm.1.trans h.faulted.symm) (hcalm.2.trans h.reload.symm) (by simp) (by simp)

theorem Calm.issue (hpending : a.pending = none) (c : Caller En) :
    Calm store id s (a.issue c (a.saveOp opts store.appendText.isSome c)) where
  faulted := h.faulted
  reload := h.reload
  etag := by
    have hetag := h.etag
    simp only [effectiveEtag, hpending] at hetag
    exact hetag
  answer := by
    intro w answer hw hanswer
    cases hw
    simp at hanswer
  appendable := by
    intro w entry wd hw hop
    cases hw
    rcases a.saveOp_cases opts store.appendText.isSome c with ⟨_, _, -, -, hetag, happ⟩ | hop'
    · exact ⟨hetag, happ⟩
    · rw [hop'] at hop
      simp at hop

theorem Calm.gatedSave {c : Caller En} (hclear : c ≠ .clear) :
    Calm store id s (a.gatedSave opts store.appendText.isSome c) := by
  have hgated := a.gated opts store.appendText.isSome c
  generalize a.gatedSave opts store.appendText.isSome c = a' at hgated
  cases hgated with
  | durable _ _ => exact h.settle c true
  | parked _ => exact h.congr rfl rfl rfl rfl
  | faulted _ _ => exact h.settle c false
  | saves _ _ hpending _ => exact h.issue hpending c
  | clears hcaller _ => exact absurd hcaller hclear

end

/-- The callers that wait want versions, so none of them clears. -/
theorem Kept.parked_ne_clear (h : Kept store opts id mark s a []) : Caller.clear ∉ a.parked := by
  intro hmem
  have hwaiting : Caller.clear ∈ [] ++ a.waiting := by
    simp only [List.nil_append, waiting]
    split
    · split
      · exact List.mem_cons_of_mem _ hmem
      · exact hmem
    · exact hmem
  obtain ⟨wanted, hwanted, -⟩ := (h.callers _ hwaiting).wanted
  simp [Caller.wanted] at hwanted

theorem Calm.resume {k : Nat} (h : Calm store id s a) (hkept : Kept store opts id mark s a [])
    (hstep : a.resume opts store.appendText.isSome k = some a') : Calm store id s a' := by
  unfold Activation.resume at hstep
  split at hstep
  · rename_i c hc
    obtain ⟨-, rfl⟩ := guard_taken hstep
    have hleft : Calm store id s { a with parked := a.parked.eraseIdx k } :=
      h.congr rfl rfl rfl rfl
    refine hleft.gatedSave ?_
    rintro rfl
    exact hkept.parked_ne_clear (List.mem_of_getElem? hc)
  · simp at hstep

/-! ## The store's answer -/

/-- The current etag is accepted. -/
theorem perform_accepts (laws : store.RecordLaws) {op : WriteOp Snap En}
    {expected : Option (Token Etag)}
    (hexpected : expected.map (·.etag) = store.current s.db id) (hclear : op ≠ .clear)
    (happend : ∀ entry wanted, op = .append entry wanted →
      expected.isSome ∧ store.appendText.isSome) :
    ∃ db etag, s.perform store id op expected =
      (⟨db, s.writes + 1⟩, .stored ⟨etag, s.writes + 1⟩) := by
  cases op with
  | save state =>
    obtain ⟨⟨db, etag⟩, hsave⟩ :=
      Option.isSome_iff_exists.1 (laws.save_accepts s.db id state)
    rw [← hexpected] at hsave
    exact ⟨db, etag, by simp [StorageState.perform, hsave]⟩
  | append entry wanted =>
    obtain ⟨htoken, happ⟩ := happend entry wanted rfl
    obtain ⟨token, rfl⟩ := Option.isSome_iff_exists.1 htoken
    obtain ⟨append, happ⟩ := Option.isSome_iff_exists.1 happ
    obtain ⟨⟨db, etag⟩, happended⟩ := Option.isSome_iff_exists.1
      (laws.append_accepts happ hexpected.symm entry)
    exact ⟨db, etag, by simp [StorageState.perform, happ, happended]⟩
  | clear => exact absurd rfl hclear

/-- What was stored is current. -/
theorem current_of_stored (tokens : store.TokenLaws) {op : WriteOp Snap En}
    {expected : Option (Token Etag)} {token : Token Etag}
    (h : s.perform store id op expected = (s', .stored token)) :
    store.current s'.db id = some token.etag := by
  have hperformed := performed store id s op expected
  generalize s.perform store id op expected = done at hperformed h
  cases hperformed with
  | refused | cleared => simp at h
  | saved _ hsave =>
    obtain ⟨rfl, hanswer⟩ := Prod.mk.inj h
    obtain rfl := Answer.stored.inj hanswer
    exact tokens.save_current hsave
  | appended _ _ happend happended =>
    obtain ⟨rfl, hanswer⟩ := Prod.mk.inj h
    obtain rfl := Answer.stored.inj hanswer
    exact tokens.append_current happend happended

/-- The write in flight is accepted when it is executed. -/
theorem Calm.perform (laws : store.RecordLaws) {w : Write Snap En Etag} (h : Calm store id s a)
    (hkept : Kept store opts id mark s a []) (hpending : a.pending = some w)
    (hanswer : w.answer = none) : ∃ db etag, s.perform store id w.op w.expected =
      (⟨db, s.writes + 1⟩, .stored ⟨etag, s.writes + 1⟩) := by
  have hok := hkept.pending w hpending
  refine perform_accepts laws ?_ hok.noClear
    (fun entry wanted => h.appendable w entry wanted hpending)
  have hetag := h.etag
  simp only [effectiveEtag, hpending, hanswer] at hetag
  rw [hok.expected]
  exact hetag

/-- The store answers, or fails and does nothing. -/
theorem Calm.exec (tokens : store.TokenLaws) (laws : store.RecordLaws)
    {w : Write Snap En Etag} {outcome : Outcome} (h : Calm store id s a)
    (hkept : Kept store opts id mark s a []) (hpending : a.pending = some w)
    (hanswer : w.answer = none) (hlost : outcome ≠ .lost) :
    Calm store id (s.execute store id w.op w.expected outcome).1
      { a with pending := some { w with
          answer := some (s.execute store id w.op w.expected outcome).2 } } := by
  have happendable : ∀ answer, ∀ w' entry wanted, ({ a with pending := some { w with
      answer := some answer } } : Activation St Snap En Etag).pending = some w' →
      w'.op = .append entry wanted → w'.expected.isSome ∧ store.appendText.isSome := by
    intro answer w' entry wanted hw'
    cases hw'
    exact h.appendable w entry wanted hpending
  cases outcome with
  | lost => exact absurd rfl hlost
  | failed =>
    refine ⟨h.faulted, h.reload, ?_, ?_, happendable _⟩
    · have hetag := h.etag
      simp only [effectiveEtag, hpending, hanswer] at hetag
      exact hetag
    · intro w' answer hw' hans
      cases hw'
      exact .inl (Option.some.inj hans).symm
  | answered =>
    simp only [StorageState.execute]
    obtain ⟨db, etag, hdone⟩ := h.perform laws hkept hpending hanswer
    rw [hdone]
    refine ⟨h.faulted, h.reload, (current_of_stored tokens hdone).symm, ?_, happendable _⟩
    intro w' answer hw' hans
    cases hw'
    exact .inr ⟨_, (Option.some.inj hans).symm⟩

/-- The answer is taken. -/
theorem Calm.reply (h : Calm store id s a) (hkept : Kept store opts id mark s a [])
    (hstep : a.reply opts store.appendText.isSome = some a') : Calm store id s a' := by
  unfold Activation.reply at hstep
  split at hstep
  · simp at hstep
  rename_i w hpending
  have hetag := h.etag
  split at hstep
  · simp at hstep
  · rename_i token hanswer
    have hadopted : Calm store id s (({ a with pending := none } :
        Activation St Snap En Etag).adopt w token) := by
      refine ⟨h.faulted, h.reload, ?_, by simp [Activation.adopt], by simp [Activation.adopt]⟩
      simp only [effectiveEtag, hpending, hanswer] at hetag
      exact hetag
    split at hstep
    · cases hstep
      exact hadopted.settle _ true
    · cases hstep
      refine hadopted.gatedSave ?_
      obtain ⟨wanted, hwanted, -⟩ := (hkept.pending w hpending).wanted
      intro hclear
      rw [hclear] at hwanted
      simp [Caller.wanted] at hwanted
  · rename_i hanswer
    rcases h.answer w _ hpending hanswer with hans | ⟨token, hans⟩ <;> simp at hans
  · rename_i hanswer
    rcases h.answer w _ hpending hanswer with hans | ⟨token, hans⟩ <;> simp at hans
  · rename_i hanswer
    cases hstep
    refine Calm.settle ?_ _ false
    refine ⟨h.faulted, h.reload, ?_, by simp, by simp⟩
    simp only [effectiveEtag, hpending, hanswer] at hetag
    exact hetag

/-! ## The operations -/

theorem consumeDirty_cases : a.consumeDirty.dirty = false ∧ a.consumeDirty.phase = a.phase ∧
    a.consumeDirty.faulted = a.faulted ∧ a.consumeDirty.reloadPending = a.reloadPending ∧
    a.consumeDirty.etag = a.etag ∧ a.consumeDirty.pending = a.pending ∧
    a.consumeDirty.parked = a.parked := by
  unfold Activation.consumeDirty
  split
  · exact ⟨rfl, rfl, rfl, rfl, rfl, rfl, rfl⟩
  · rename_i hdirty
    exact ⟨by simpa using hdirty, rfl, rfl, rfl, rfl, rfl, rfl⟩

theorem Calm.consumeDirty (h : Calm store id s a) : Calm store id s a.consumeDirty := by
  obtain ⟨-, -, hfaulted, hreload, hetag, hpending, -⟩ := consumeDirty_cases (a := a)
  exact h.congr hfaulted hreload hetag hpending

theorem SeedOk.created_calm (h : SeedOk store opts id s a)
    (hseeded : SeededFrom store opts id s a a') : Calm store id s a' := by
  obtain ⟨st, token, rfl, -, htoken⟩ := hseeded
  obtain ⟨hpending, -, -⟩ := h.idle
  simp only [Activation.seeded, h.phase]
  refine ⟨h.calm.1, h.calm.2, ?_, by simp [hpending], by simp [hpending]⟩
  simpa only [effectiveEtag, hpending] using htoken

theorem Calm.run {e : Event St En} (h : Calm store id s a) (hmirrors : Mirrors store opts id s a)
    (hok : Bookkept a e) (hstep : a.run opts store.appendText.isSome e = some a') :
    Calm store id s a' := by
  obtain ⟨habsent, hseeding, mark, hkept⟩ := hmirrors
  cases e with
  | create =>
    simp only [Activation.run, habsent, false_and, if_false] at hstep
    simp at hstep
  | reload | clearState => exact hok.elim
  | seedExec | exec => simp [Activation.run] at hstep
  | seedNext => simp [Activation.run, Activation.seedNext, hseeding] at hstep
  | track | write =>
    obtain ⟨-, rfl⟩ := guard_taken hstep
    exact h.congr rfl rfl rfl rfl
  | afterTurn =>
    obtain ⟨-, rfl⟩ := guard_taken hstep
    exact h.consumeDirty
  | save =>
    obtain ⟨-, rfl⟩ := guard_taken hstep
    have hversion : Calm store id s
        { a.consumeDirty with version := a.consumeDirty.version + 1 } :=
      h.consumeDirty.congr rfl rfl rfl rfl
    simp only [Activation.save]
    refine hversion.gatedSave ?_
    simp
  | saveEventual =>
    obtain ⟨-, rfl⟩ := guard_taken hstep
    exact h.consumeDirty.congr rfl rfl rfl rfl
  | append entry =>
    obtain ⟨-, hstep⟩ := guard_passed hstep
    simp only [Activation.append] at hstep
    split at hstep
    · simp at hstep
    rename_i apply _
    cases hstep
    have hfolded : Calm store id s
        { a.consumeDirty with
          state := apply a.consumeDirty.state entry
          version := a.consumeDirty.version + 1 } :=
      h.consumeDirty.congr rfl rfl rfl rfl
    refine hfolded.gatedSave ?_
    simp
  | flush =>
    obtain ⟨-, rfl⟩ := guard_taken hstep
    exact h.gatedSave (by simp)
  | resume k => exact h.resume hkept hstep
  | reply => exact h.reply hkept hstep
  | deactivate reason =>
    obtain ⟨-, rfl⟩ := guard_taken hstep
    simp only [Activation.deactivate]
    split
    · have hstopping : Calm store id s { a.consumeDirty with phase := .stopping reason } :=
        h.consumeDirty.congr rfl rfl rfl rfl
      refine hstopping.gatedSave ?_
      simp
    · exact h.consumeDirty.congr rfl rfl rfl rfl

/-- No call of the store fails behind an executed write. -/
def NotLost : Event St En → Prop
  | .exec outcome => outcome ≠ .lost
  | _ => True

instance (e : Event St En) : Decidable (NotLost e) := by
  induction e using Event.casesOn <;> dsimp only [NotLost] <;> infer_instance

theorem Calm.step (tokens : store.TokenLaws) (laws : store.RecordLaws) {e : Event St En}
    (h : Calm store id s a) (hmirrors : Mirrors store opts id s a)
    (hok : Bookkept a e) (hlost : NotLost e)
    (hstep : a.step store opts id s e = some (s', a')) : Calm store id s' a' := by
  have hrun : ∀ {b : Activation St Snap En Etag},
      a.run opts store.appendText.isSome e = some b → (s, b) = (s', a') →
      Calm store id s' a' := by
    intro b hb heq
    obtain ⟨rfl, rfl⟩ := Prod.mk.inj heq
    exact h.run hmirrors hok hb
  unfold Activation.step at hstep
  split at hstep
  · simp [Activation.atStore, hmirrors.2.1] at hstep
  · obtain ⟨-, -, mark, hkept⟩ := hmirrors
    simp only [Activation.atStore] at hstep
    split at hstep
    · rename_i w hpending
      obtain ⟨hanswer, hstep⟩ := guard_passed hstep
      obtain ⟨rfl, rfl⟩ := Prod.mk.inj (Option.some.inj hstep)
      exact h.exec tokens laws hkept hpending (by simpa using hanswer) hlost
    · simp at hstep
  · obtain ⟨b, hb, heq⟩ := Option.map_eq_some_iff.1 hstep
    exact hrun hb heq

end

end SigxActors.Host
