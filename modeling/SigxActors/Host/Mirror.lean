/-
  Host/Mirror.lean --- a clean activation mirrors its record.

  The steps of one activation over its record, from the load it is seeded with:
  each keeps the bookkeeping of `SavedVersion`, and while nothing is dirty and
  `#savedVersion` is `#version`, the record folds to the live state.

  The operations are those that write state and make it durable.  A clear, and the
  reload that follows a lost race, replace the state as a whole and are another
  matter.
-/
import SigxActors.Host.SavedVersion

set_option autoImplicit false

namespace SigxActors.Host

open SigxActors.Storage Activation

variable {σ Id St Snap En Etag : Type}

section

variable {store : CasStore σ Id Snap En Etag} {opts : ActorOptions St En Snap} {id : Id}
  {s s' : StorageState σ} {a a' : Activation St Snap En Etag}

/-! ## Seeding -/

/-- What an activation under creation has in hand. -/
structure SeedOk (store : CasStore σ Id Snap En Etag) (opts : ActorOptions St En Snap) (id : Id)
    (s : StorageState σ) (a : Activation St Snap En Etag) : Prop where
  phase : a.phase = .absent
  idle : a.pending = none ∧ a.parked = [] ∧ a.dirty = false
  versions : a.version = 0 ∧ a.savedVersion = 0 ∧ a.eventualWanted = 0
  calm : a.faulted = false ∧ a.reloadPending = false
  read : ∀ stored, a.seeding = some (.read stored) ∨ a.seeding = some (.readAgain stored) →
    stored = s.loadState store id
  wroteBack : ∀ st token, a.seeding = some (.wroteBack st (.stored token)) →
    opts.seedState (store.load s.db id) = some st ∧ store.current s.db id = some token.etag

/-- A created activation mirrors its record, whatever its callers wait for. -/
def Mirrors (store : CasStore σ Id Snap En Etag) (opts : ActorOptions St En Snap) (id : Id)
    (s : StorageState σ) (a : Activation St Snap En Etag) : Prop :=
  a.phase ≠ .absent ∧ a.seeding = none ∧ ∃ mark, Kept store opts id mark s a []

theorem seedState_loadState :
    opts.seedState (s.loadState store id) = opts.seedState (store.load s.db id) := by
  unfold StorageState.loadState
  cases store.load s.db id with
  | none | some => rfl

/-- The seed is the fold of the record. -/
theorem SeedOk.seeded (h : SeedOk store opts id s a) {st : St} {token : Option (Token Etag)}
    (hst : opts.seedState (store.load s.db id) = some st) :
    Mirrors store opts id s (a.seeded opts st token) := by
  obtain ⟨hpending, hparked, hdirty⟩ := h.idle
  obtain ⟨hversion, hsaved, heventual⟩ := h.versions
  simp only [Activation.seeded, h.phase]
  refine ⟨by simp, rfl, fun _ => st, ?_⟩
  constructor
  · simp [hversion, hsaved]
  · simp [hversion, heventual]
  · intro _
    rfl
  · intro c hc
    simp [waiting, hpending, hparked] at hc
  · simp [waiting, hpending, hparked]
  · intro w hw
    simp [hpending] at hw
  · exact .inl (.inl hst)

/-- `a'` is `a` after `seedFromStorage` returned what the record holds. -/
def SeededFrom (store : CasStore σ Id Snap En Etag) (opts : ActorOptions St En Snap) (id : Id)
    (s : StorageState σ) (a a' : Activation St Snap En Etag) : Prop :=
  ∃ st token, a' = a.seeded opts st token ∧
    opts.seedState (store.load s.db id) = some st ∧
    token.map (·.etag) = store.current s.db id

theorem SeedOk.seedNext (h : SeedOk store opts id s a) (hstep : a.seedNext opts = some a') :
    SeedOk store opts id s a' ∨ SeededFrom store opts id s a a' := by
  have hfails : SeedOk store opts id s a.seedFails := by
    simp only [seedFails, h.phase]
    exact ⟨rfl, h.idle, h.versions, h.calm, by simp, by simp⟩
  have hcurrent : (s.loadState store id).map (·.etag.etag) = store.current s.db id := by
    simp only [StorageState.loadState, CasStore.current, Option.map_map]
    rfl
  have hloaded : ∀ stored st, stored = s.loadState store id → opts.seedState stored = some st →
      SeededFrom store opts id s a (a.seeded opts st (stored.map (·.etag))) := by
    intro stored st hstored hst
    refine ⟨st, stored.map (·.etag), rfl, ?_, ?_⟩
    · rw [← seedState_loadState, ← hstored]
      exact hst
    · rw [← hcurrent, hstored, Option.map_map]
      rfl
  unfold Activation.seedNext at hstep
  split at hstep
  · rename_i hseeding
    cases hstep
    exact .inr (hloaded none _ (h.read none (.inl hseeding)) rfl)
  · rename_i record hseeding
    split at hstep
    · cases hstep
      exact .inl hfails
    · rename_i st hst
      split at hstep
      · cases hstep
        exact .inl ⟨h.phase, h.idle, h.versions, h.calm, by simp, by simp⟩
      · cases hstep
        exact .inr (hloaded _ _ (h.read _ (.inl hseeding)) hst)
  · rename_i st token hseeding
    cases hstep
    obtain ⟨hst, htoken⟩ := h.wroteBack st token hseeding
    exact .inr ⟨st, some token, rfl, hst, htoken.symm⟩
  · cases hstep
    exact .inl ⟨h.phase, h.idle, h.versions, h.calm, by simp, by simp⟩
  · cases hstep
    exact .inl hfails
  · rename_i hseeding
    cases hstep
    exact .inr (hloaded none _ (h.read none (.inr hseeding)) rfl)
  · rename_i record hseeding
    split at hstep
    · cases hstep
      exact .inl hfails
    · rename_i st hst
      cases hstep
      exact .inr (hloaded _ _ (h.read _ (.inr hseeding)) hst)
  · simp at hstep

theorem SeedOk.seedExec (tokens : store.TokenLaws) (laws : store.RecordLaws)
    (h : SeedOk store opts id s a) {outcome : Outcome}
    (hstep : a.atStore store opts id s (.seedExec outcome) = some (s', a')) :
    SeedOk store opts id s' a' := by
  have hfails : SeedOk store opts id s a.seedFails := by
    simp only [seedFails, h.phase]
    exact ⟨rfl, h.idle, h.versions, h.calm, by simp, by simp⟩
  simp only [Activation.atStore] at hstep
  split at hstep
  · split at hstep
    · obtain ⟨rfl, rfl⟩ := Prod.mk.inj (Option.some.inj hstep)
      refine ⟨h.phase, h.idle, h.versions, h.calm, ?_, by simp⟩
      intro stored hs
      simpa [eq_comm] using hs
    · obtain ⟨rfl, rfl⟩ := Prod.mk.inj (Option.some.inj hstep)
      exact hfails
  · split at hstep
    · obtain ⟨rfl, rfl⟩ := Prod.mk.inj (Option.some.inj hstep)
      refine ⟨h.phase, h.idle, h.versions, h.calm, ?_, by simp⟩
      intro stored hs
      simpa [eq_comm] using hs
    · obtain ⟨rfl, rfl⟩ := Prod.mk.inj (Option.some.inj hstep)
      exact hfails
  · rename_i st expected hseeding
    obtain ⟨rfl, rfl⟩ := Prod.mk.inj (Option.some.inj hstep)
    refine ⟨h.phase, h.idle, h.versions, h.calm, by simp, ?_⟩
    intro st' token hs
    simp only [Option.some.injEq, Seeding.wroteBack.injEq] at hs
    obtain ⟨rfl, hanswer⟩ := hs
    cases outcome with
    | failed | lost => simp [StorageState.execute] at hanswer
    | answered =>
      simp only [StorageState.execute] at hanswer ⊢
      have hperformed := performed store id s (.save (opts.encode st)) (some expected)
      generalize s.perform store id (.save (opts.encode st)) (some expected) = done
        at hperformed hanswer
      cases hperformed with
      | refused => simp at hanswer
      | saved hop hsave =>
        injection hop with hop
        subst hop
        obtain rfl := Answer.stored.inj hanswer
        rw [laws.load_save hsave, tokens.save_current hsave]
        exact ⟨seedState_saved _ _, rfl⟩
      | appended hop | cleared hop => simp at hop
  · simp at hstep

/-! ## Other records -/

/-- A write to another record leaves this one alone. -/
theorem load_writeElsewhere (laws : store.RecordLaws) {other : Id} (hother : other ≠ id)
    (op : WriteOp Snap En) (expected : Option Etag) :
    store.load (SharedState.writeElsewhere store s other op expected).db id =
      store.load s.db id := by
  have hperformed := performed store other s op (expected.map fun etag => ⟨etag, 0⟩)
  simp only [SharedState.writeElsewhere]
  generalize s.perform store other op (expected.map fun etag => ⟨etag, 0⟩) = done at hperformed
  cases hperformed with
  | refused => rfl
  | saved _ hsave => exact laws.load_save_frame hsave id (Ne.symm hother)
  | appended _ _ happend happended =>
    exact laws.load_append_frame happend happended id (Ne.symm hother)
  | cleared _ hclear => exact laws.load_clear_frame hclear id (Ne.symm hother)

theorem current_congr (hload : store.load s'.db id = store.load s.db id) :
    store.current s'.db id = store.current s.db id := by
  simp only [CasStore.current, hload]

variable {mark : Nat → St} {appends : Bool} {e : Event St En}

theorem Kept.frame (h : Kept store opts id mark s a [])
    (hload : store.load s'.db id = store.load s.db id) : Kept store opts id mark s' a [] where
  savedLe := h.savedLe
  eventualLe := h.eventualLe
  clean := h.clean
  callers := h.callers
  distinct := h.distinct
  pending := h.pending
  record := by
    rw [hload]
    rcases h.record with hr | hstale
    · exact .inl hr
    refine .inr { hstale with etag := ?_ }
    rw [current_congr hload]
    exact hstale.etag

theorem SeedOk.frame (h : SeedOk store opts id s a)
    (hload : store.load s'.db id = store.load s.db id) (hwrites : s'.writes = s.writes) :
    SeedOk store opts id s' a where
  phase := h.phase
  idle := h.idle
  versions := h.versions
  calm := h.calm
  read := by
    intro stored hs
    rw [h.read stored hs, StorageState.loadState, StorageState.loadState, hload, hwrites]
  wroteBack := by
    intro st token hs
    rw [hload, current_congr hload]
    exact h.wroteBack st token hs

/-! ## The operations -/

/-- The operations the bookkeeping is for, every direct write marking the state
dirty. -/
def Bookkept (a : Activation St Snap En Etag) : Event St En → Prop
  | .write _ => a.tracking = true
  | .clearState | .reload => False
  | _ => True

instance (a : Activation St Snap En Etag) (e : Event St En) : Decidable (Bookkept a e) := by
  unfold Bookkept
  split <;> infer_instance

/-- The activation is created and reads no record. -/
def Created (a : Activation St Snap En Etag) : Prop := a.phase ≠ .absent ∧ a.seeding = none

theorem Created.settle (h : Created a) (c : Caller En) (resolved : Bool) :
    Created (a.settle c resolved) := by
  refine ⟨?_, by simpa using h.2⟩
  cases c with
  | save | append | clear => exact h.1
  | flush wanted =>
    simp only [Activation.settle]
    split <;> exact h.1
  | finalFlush wanted =>
    simp only [Activation.settle]
    split
    · simp
    · exact h.1

theorem Created.gatedSave (h : Created a) (appends : Bool) (c : Caller En) :
    Created (a.gatedSave opts appends c) := by
  have hgated := a.gated opts appends c
  generalize a.gatedSave opts appends c = a' at hgated
  cases hgated with
  | durable _ _ => exact h.settle c true
  | parked | saves | clears => exact h
  | faulted _ _ => exact h.settle c false

theorem Created.consumeDirty (h : Created a) : Created a.consumeDirty := by
  unfold Activation.consumeDirty
  split <;> exact h

theorem Created.resume (h : Created a) {k : Nat} (hstep : a.resume opts appends k = some a') :
    Created a' := by
  unfold Activation.resume at hstep
  split at hstep
  · split at hstep
    · cases hstep
      exact Created.gatedSave (a := { a with parked := a.parked.eraseIdx k }) h appends _
    · simp at hstep
  · simp at hstep

theorem Created.reply (h : Created a) (hstep : a.reply opts appends = some a') : Created a' := by
  unfold Activation.reply at hstep
  split at hstep
  · simp at hstep
  rename_i w _
  have hadopt : ∀ token, Created (({ a with pending := none } :
      Activation St Snap En Etag).adopt w token) := fun _ => h
  split at hstep
  · simp at hstep
  · split at hstep
    · cases hstep
      exact (hadopt _).settle _ true
    · cases hstep
      exact (hadopt _).gatedSave appends _
  · cases hstep
    refine Created.settle ?_ _ _
    exact h
  · split at hstep
    · cases hstep
      refine Created.settle ?_ _ _
      exact h
    · split at hstep
      all_goals
        cases hstep
        refine Created.settle ?_ _ _
        exact h
  · cases hstep
    refine Created.settle ?_ _ _
    exact h

section

variable (h : Kept store opts id mark s a [])
include h

/-- A save: a version of its own, whether or not anything changed. -/
theorem Kept.save : ∃ mark', Kept store opts id mark' s (a.save opts appends) [] := by
  obtain ⟨mark', hclean, hdirty⟩ := h.consumeDirty
  obtain ⟨mark'', hadvance⟩ : ∃ mark'', Kept store opts id mark'' s
      { a.consumeDirty with version := a.consumeDirty.version + 1 }
      [.save (a.consumeDirty.version + 1)] :=
    hclean.advance (b := { a.consumeDirty with version := a.consumeDirty.version + 1 }) hdirty
      rfl rfl rfl rfl rfl (Nat.le_succ_of_le hclean.eventualLe) rfl (by simp)
  exact ⟨mark'', hadvance.gatedSave⟩

theorem Kept.saveEventual : ∃ mark', Kept store opts id mark' s a.saveEventual [] := by
  obtain ⟨mark', hclean, hdirty⟩ := h.consumeDirty
  obtain ⟨mark'', hadvance⟩ : ∃ mark'', Kept store opts id mark'' s a.saveEventual
      [.save (a.consumeDirty.version + 1)] :=
    hclean.advance (b := a.saveEventual) hdirty
      rfl rfl rfl rfl rfl (Nat.le_refl _) rfl (by simp)
  exact ⟨mark'', hadvance.drop⟩

/-- An append: the fold of its entry is the next version. -/
theorem Kept.append {entry : En} (hstep : a.append opts appends entry = some a') :
    ∃ mark', Kept store opts id mark' s a' [] := by
  unfold Activation.append at hstep
  split at hstep
  · simp at hstep
  rename_i apply happly
  cases hstep
  obtain ⟨mark', hclean, hdirty⟩ := h.consumeDirty
  obtain ⟨mark'', hadvance⟩ : ∃ mark'', Kept store opts id mark'' s
      { a.consumeDirty with
        state := apply a.consumeDirty.state entry
        version := a.consumeDirty.version + 1 }
      [.append entry (a.consumeDirty.version + 1)] := by
    refine hclean.advance (b := { a.consumeDirty with
      state := apply a.consumeDirty.state entry, version := a.consumeDirty.version + 1 }) hdirty
      rfl rfl rfl rfl rfl (Nat.le_succ_of_le hclean.eventualLe) rfl ?_
    intro entry' wanted hcaller
    injection hcaller with hentry _
    subst hentry
    exact ⟨apply, happly, rfl⟩
  exact ⟨mark'', hadvance.gatedSave⟩

/-- A caller that wants a version there is. -/
theorem Kept.enter {c : Caller En} {wanted : Nat}
    (hwanted : c.wanted = some wanted) (hle : wanted ≤ a.version) (hnone : c.appendWanted = none) :
    Kept store opts id mark s (a.gatedSave opts appends c) [] := by
  refine Kept.gatedSave ?_
  refine h.transport rfl rfl rfl (Nat.le_refl _) (Nat.le_refl _) h.eventualLe h.clean ?_ ?_
  · intro d hd
    rcases List.mem_append.1 hd with hd | hd
    · obtain rfl := List.mem_singleton.1 hd
      refine .inr ⟨⟨⟨wanted, hwanted, hle⟩, ?_⟩, by simp [hnone]⟩
      intro entry w hcaller
      rw [hcaller] at hnone
      simp [Caller.appendWanted] at hnone
    · exact .inl hd
  · rw [List.singleton_append, List.filterMap_cons_none hnone]
    exact h.distinct

theorem Kept.flush : Kept store opts id mark s (a.flush opts appends) [] := by
  refine h.enter rfl ?_ rfl
  split
  · exact Nat.le_refl _
  · exact h.eventualLe

/-- The phase is not the bookkeeping's. -/
theorem Kept.setPhase (phase : Phase) :
    Kept store opts id mark s { a with phase := phase } [] :=
  h.transport rfl rfl rfl (Nat.le_refl _) (Nat.le_refl _) h.eventualLe h.clean
    (fun _ hc => .inl hc) h.distinct

theorem Kept.deactivate (reason : DeactivationReason) :
    ∃ mark', Kept store opts id mark' s (a.deactivate opts appends reason) [] := by
  obtain ⟨mark', hclean, -⟩ := h.consumeDirty
  refine ⟨mark', ?_⟩
  simp only [Activation.deactivate]
  split
  · exact (hclean.setPhase _).enter rfl (Nat.le_refl _) rfl
  · exact hclean.setPhase _

end

theorem Mirrors.run (h : Mirrors store opts id s a) (hok : Bookkept a e)
    (hstep : a.run opts appends e = some a') : Mirrors store opts id s a' := by
  obtain ⟨hphase, hseeding, mark, hkept⟩ := h
  have hcreated : Created a := ⟨hphase, hseeding⟩
  have hof : ∀ {b : Activation St Snap En Etag}, Created b →
      (∃ mark', Kept store opts id mark' s b []) → Mirrors store opts id s b :=
    fun hb hk => ⟨hb.1, hb.2, hk⟩
  cases e with
  | create =>
    simp only [Activation.run, hphase, false_and, if_false] at hstep
    simp at hstep
  | reload | clearState => exact hok.elim
  | seedExec | exec => simp [Activation.run] at hstep
  | seedNext => simp [Activation.run, Activation.seedNext, hseeding] at hstep
  | track =>
    obtain ⟨-, rfl⟩ := guard_taken hstep
    exact hof hcreated ⟨mark, hkept.transport rfl rfl rfl (Nat.le_refl _) (Nat.le_refl _)
      hkept.eventualLe hkept.clean (fun _ hc => .inl hc) hkept.distinct⟩
  | write st =>
    obtain ⟨-, rfl⟩ := guard_taken hstep
    have htracking : a.tracking = true := hok
    refine hof hcreated ⟨mark, hkept.transport rfl rfl rfl (Nat.le_refl _) ?_
      hkept.eventualLe ?_ (fun _ hc => .inl hc) hkept.distinct⟩
    · simp only [nextVersion, htracking, Bool.or_true, if_true]
      split <;> omega
    · simp [htracking]
  | afterTurn =>
    obtain ⟨-, rfl⟩ := guard_taken hstep
    obtain ⟨mark', hclean, -⟩ := hkept.consumeDirty
    exact hof hcreated.consumeDirty ⟨mark', hclean⟩
  | save =>
    obtain ⟨-, rfl⟩ := guard_taken hstep
    refine hof ?_ hkept.save
    exact Created.gatedSave (a := { a.consumeDirty with
      version := a.consumeDirty.version + 1 }) hcreated.consumeDirty appends _
  | saveEventual =>
    obtain ⟨-, rfl⟩ := guard_taken hstep
    exact hof hcreated.consumeDirty hkept.saveEventual
  | append entry =>
    obtain ⟨-, hstep⟩ := guard_passed hstep
    refine hof ?_ (hkept.append hstep)
    simp only [Activation.append] at hstep
    split at hstep
    · simp at hstep
    rename_i apply _
    cases hstep
    exact Created.gatedSave (a := { a.consumeDirty with
      state := apply a.consumeDirty.state entry
      version := a.consumeDirty.version + 1 }) hcreated.consumeDirty appends _
  | flush =>
    obtain ⟨-, rfl⟩ := guard_taken hstep
    exact hof (hcreated.gatedSave appends _) ⟨mark, hkept.flush⟩
  | resume k => exact hof (hcreated.resume hstep) ⟨mark, hkept.resume hstep⟩
  | reply => exact hof (hcreated.reply hstep) ⟨mark, hkept.reply hstep⟩
  | deactivate reason =>
    obtain ⟨-, rfl⟩ := guard_taken hstep
    refine hof ?_ (hkept.deactivate reason)
    simp only [Activation.deactivate]
    split
    · refine Created.gatedSave (a := { a.consumeDirty with phase := .stopping reason })
        ⟨by simp, hcreated.consumeDirty.2⟩ appends _
    · exact ⟨by simp, hcreated.consumeDirty.2⟩

/-- One event, of a created activation or of one under creation. -/
theorem Mirrors.step (tokens : store.TokenLaws) (laws : store.RecordLaws)
    (renews : store.RenewingLaws) (h : Mirrors store opts id s a) (hok : Bookkept a e)
    (hstep : a.step store opts id s e = some (s', a')) : Mirrors store opts id s' a' := by
  have hrun : ∀ {b : Activation St Snap En Etag},
      a.run opts store.appendText.isSome e = some b → (s, b) = (s', a') →
      Mirrors store opts id s' a' := by
    intro b hb heq
    obtain ⟨rfl, rfl⟩ := Prod.mk.inj heq
    exact h.run hok hb
  unfold Activation.step at hstep
  split at hstep
  · simp [Activation.atStore, h.2.1] at hstep
  · obtain ⟨hphase, hseeding, mark, hkept⟩ := h
    simp only [Activation.atStore] at hstep
    split at hstep
    · rename_i w hpending
      obtain ⟨hanswer, hstep⟩ := guard_passed hstep
      obtain ⟨rfl, rfl⟩ := Prod.mk.inj (Option.some.inj hstep)
      exact ⟨hphase, hseeding, mark,
        hkept.exec tokens laws renews _ hpending (by simpa using hanswer)⟩
    · simp at hstep
  · obtain ⟨b, hb, heq⟩ := Option.map_eq_some_iff.1 hstep
    exact hrun hb heq

theorem SeedOk.step (tokens : store.TokenLaws) (laws : store.RecordLaws)
    (h : SeedOk store opts id s a) (hstep : a.step store opts id s e = some (s', a')) :
    SeedOk store opts id s' a' ∨ (s' = s ∧ SeededFrom store opts id s a a') := by
  have hphase : a.phase ≠ .live := by simp [h.phase]
  have hrun : ∀ {b : Activation St Snap En Etag},
      a.run opts store.appendText.isSome e = some b → (s, b) = (s', a') →
      SeedOk store opts id s' a' ∨ (s' = s ∧ SeededFrom store opts id s a a') := by
    intro b hb heq
    obtain ⟨rfl, rfl⟩ := Prod.mk.inj heq
    cases e with
    | create =>
      obtain ⟨-, rfl⟩ := guard_taken hb
      exact .inl ⟨h.phase, h.idle, h.versions, h.calm, by simp, by simp⟩
    | seedNext => exact (h.seedNext hb).imp_right fun hseeded => ⟨rfl, hseeded⟩
    | resume k => simp [Activation.run, Activation.resume, h.idle.2.1] at hb
    | reply => simp [Activation.run, Activation.reply, h.idle.1] at hb
    | append | reload | flush | deactivate | track | write | afterTurn | save | saveEventual
    | clearState => simp [Activation.run, hphase] at hb
    | seedExec | exec => simp [Activation.run] at hb
  unfold Activation.step at hstep
  split at hstep
  · exact .inl (h.seedExec tokens laws hstep)
  · simp [Activation.atStore, h.idle.1] at hstep
  · obtain ⟨b, hb, heq⟩ := Option.map_eq_some_iff.1 hstep
    exact hrun hb heq

theorem SeedOk.initial (s : StorageState σ) :
    SeedOk store opts id s ({ state := opts.state } : Activation St Snap En Etag) :=
  ⟨rfl, ⟨rfl, rfl, rfl⟩, ⟨rfl, rfl, rfl⟩, ⟨rfl, rfl⟩, by simp, by simp⟩

theorem SeedOk.mirrors (h : SeedOk store opts id s a)
    (hseeded : SeededFrom store opts id s a a') : Mirrors store opts id s a' := by
  obtain ⟨st, token, rfl, hst, -⟩ := hseeded
  exact h.seeded hst

theorem Mirrors.frame (h : Mirrors store opts id s a)
    (hload : store.load s'.db id = store.load s.db id) : Mirrors store opts id s' a := by
  obtain ⟨hphase, hseeding, mark, hkept⟩ := h
  exact ⟨hphase, hseeding, mark, hkept.frame hload⟩

/-- A clean activation at its saved version is what the record folds to. -/
theorem Mirrors.honest (h : Mirrors store opts id s a) (hdirty : a.dirty = false)
    (hsaved : a.savedVersion = a.version) : opts.seedState (store.load s.db id) = some a.state := by
  obtain ⟨-, -, mark, hkept⟩ := h
  have hexec : a.executedVersion = a.version := by
    unfold executedVersion
    split
    · rename_i w hw
      obtain ⟨wanted, -, hlt, hle⟩ := (hkept.pending w hw).wanted
      have := (hkept.pending w hw).version
      omega
    · exact hsaved
  rcases hkept.record with hr | hstale
  · rw [hexec] at hr
    rcases hr with hr | ⟨v, hlt, hle, -⟩
    · rw [hkept.clean hdirty]
      exact hr
    · simp only [nextVersion, hdirty] at hle
      exact absurd hle (by simpa using hlt)
  · exact absurd hsaved (Nat.ne_of_lt hstale.behind)

end

end SigxActors.Host
