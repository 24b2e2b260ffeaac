/-
  Host/SavedVersion.lean --- what `#savedVersion` promises.

  Versions number the boundaries at which changes were folded; `mark v` is the
  state as it stood at version `v`.  A full save records the state of its issue
  under the version of its issue, and an append on the log path raises
  `#savedVersion` by exactly one or not at all.  What keeps `#savedVersion` honest
  is the *hole*: when the record is not what `mark` says for `#savedVersion`, some
  later version is wanted by no append any more, so that no append can ever carry
  `#savedVersion` past it, and only a full save, which repairs the record, can.

  A call that fails behind an executed write leaves the activation with a stale
  etag; then nothing is accepted any more and `#savedVersion` stays behind.
-/
import Mathlib.Data.List.Perm.Basic
import SigxActors.Host.SharedRecord

set_option autoImplicit false

namespace SigxActors.Host

open SigxActors.Storage

variable {σ Id St Snap En Etag : Type}

/-- The version an append wants. -/
def Caller.appendWanted : Caller En → Option Nat
  | .append _ wanted => some wanted
  | _ => none

namespace Activation

/-- The callers whose writes are still to be executed. -/
def waiting (a : Activation St Snap En Etag) : List (Caller En) :=
  match a.pending with
  | some w => if w.answer.isNone then w.caller :: a.parked else a.parked
  | none => a.parked

/-- `#savedVersion` as it will be once the executed write has been answered. -/
def executedVersion (a : Activation St Snap En Etag) : Nat :=
  match a.pending with
  | some w =>
      match w.answer with
      | some (.stored token) => (a.adopt w token).savedVersion
      | _ => a.savedVersion
  | none => a.savedVersion

/-- The highest version there is, a pending dirty mark counted. -/
def nextVersion (a : Activation St Snap En Etag) : Nat :=
  a.version + if a.dirty then 1 else 0

/-- No append will make version `h` durable on the log path. -/
def Hole (a : Activation St Snap En Etag) (extra : List (Caller En)) (h : Nat) : Prop :=
  h ≤ a.nextVersion ∧ ∀ c ∈ extra ++ a.waiting, c.appendWanted ≠ some h

end Activation

open Activation

/-- A caller wants a version that exists; an append has folded its entry at that
version. -/
structure CallerOk (opts : ActorOptions St En Snap) (mark : Nat → St) (version : Nat)
    (c : Caller En) : Prop where
  wanted : ∃ wanted, c.wanted = some wanted ∧ wanted ≤ version
  folded : ∀ entry wanted, c = .append entry wanted →
    ∃ apply, opts.applyEntry = some apply ∧ 0 < wanted ∧
      mark wanted = apply (mark (wanted - 1)) entry

/-- A write in flight has captured the state of its version, or a state with
changes that are folded as a version of their own. -/
structure PendingOk (opts : ActorOptions St En Snap) (mark : Nat → St)
    (a : Activation St Snap En Etag) (extra : List (Caller En)) (w : Write Snap En Etag) :
    Prop where
  wanted : ∃ wanted, w.caller.wanted = some wanted ∧ a.savedVersion < wanted ∧
    wanted ≤ w.version
  version : w.version ≤ a.version
  expected : w.expected = a.etag
  append : ∀ entry wanted, w.op = .append entry wanted → w.caller = .append entry wanted
  noClear : w.op ≠ .clear
  uncleared : w.answer ≠ some .cleared
  save : ∀ snap, w.op = .save snap → w.answer = none →
    ∃ st, snap = opts.encode st ∧ (st = mark w.version ∨ a.Hole extra (w.version + 1))

/-- The record is what `mark` says for `saved`, or a hole is above `saved`. -/
def Recorded (opts : ActorOptions St En Snap) (mark : Nat → St)
    (a : Activation St Snap En Etag) (extra : List (Caller En))
    (record : Option (Record Snap En Etag)) (saved : Nat) : Prop :=
  opts.seedState record = some (mark saved) ∨ ∃ h, saved < h ∧ a.Hole extra h

/-- The activation's etag is not the record's, and it owes a version it will never
save. -/
structure Stale (store : CasStore σ Id Snap En Etag) (id : Id) (s : StorageState σ)
    (a : Activation St Snap En Etag) : Prop where
  behind : a.savedVersion < a.version
  etag : a.etag.map (·.etag) ≠ store.current s.db id
  refused : ∀ w token, a.pending = some w → w.answer ≠ some (.stored token)

/-- The bookkeeping of a created activation, with callers on their way to the
gate. -/
structure Kept (store : CasStore σ Id Snap En Etag) (opts : ActorOptions St En Snap) (id : Id)
    (mark : Nat → St) (s : StorageState σ) (a : Activation St Snap En Etag)
    (extra : List (Caller En)) : Prop where
  savedLe : a.savedVersion ≤ a.version
  eventualLe : a.eventualWanted ≤ a.version
  clean : a.dirty = false → a.state = mark a.version
  callers : ∀ c ∈ extra ++ a.waiting, CallerOk opts mark a.version c
  distinct : ((extra ++ a.waiting).filterMap Caller.appendWanted).Nodup
  pending : ∀ w, a.pending = some w → PendingOk opts mark a extra w
  record : Recorded opts mark a extra (store.load s.db id) a.executedVersion ∨
    Stale store id s a

section

variable {store : CasStore σ Id Snap En Etag} {opts : ActorOptions St En Snap} {id : Id}
  {mark : Nat → St} {s : StorageState σ} {a a' : Activation St Snap En Etag}
  {extra extra' : List (Caller En)}

/-! ## Moving the invariant along -/

variable {c : Caller En} {appends : Bool} {w : Write Snap En Etag}

theorem appendWanted_le {version : Nat} (hc : CallerOk opts mark version c) {wanted : Nat}
    (h : c.appendWanted = some wanted) : wanted ≤ version := by
  obtain ⟨w, hw, hle⟩ := hc.wanted
  cases c <;> simp_all [Caller.appendWanted, Caller.wanted]

theorem CallerOk.mono {version version' : Nat} (hc : CallerOk opts mark version c)
    (hle : version ≤ version') :
    CallerOk opts mark version' c where
  wanted := by
    obtain ⟨wanted, hwanted, h⟩ := hc.wanted
    exact ⟨wanted, hwanted, Nat.le_trans h hle⟩
  folded := hc.folded

/-- `executedVersion` never passes the version. -/
theorem Kept.executedVersion_le (h : Kept store opts id mark s a extra) :
    a.executedVersion ≤ a.version := by
  unfold executedVersion
  split
  · rename_i w hw
    have hok := h.pending w hw
    obtain ⟨wanted, hwanted, hlt, hle⟩ := hok.wanted
    have hversion := hok.version
    split
    · simp only [adopt]
      split
      · rename_i entry wanted' hop
        have hcaller := hok.append entry wanted' hop
        split
        · omega
        · exact h.savedLe
      · exact hversion
    · exact h.savedLe
  · exact h.savedLe

theorem executedVersion_congr (hsaved : a'.savedVersion = a.savedVersion)
    (hpending : a'.pending = a.pending) : a'.executedVersion = a.executedVersion := by
  simp only [executedVersion, hpending, adopt, hsaved]

theorem Recorded.imp {record : Option (Record Snap En Etag)} {saved : Nat}
    (hr : Recorded opts mark a extra record saved)
    (hhole : ∀ h, a.Hole extra h → a'.Hole extra' h) :
    Recorded opts mark a' extra' record saved := by
  rcases hr with hr | ⟨h, hlt, hh⟩
  · exact .inl hr
  · exact .inr ⟨h, hlt, hhole h hh⟩

theorem Stale.congr (hstale : Stale store id s a) (hsaved : a'.savedVersion = a.savedVersion)
    (hpending : a'.pending = a.pending) (hetag : a'.etag = a.etag)
    (hversion : a.version ≤ a'.version) : Stale store id s a' where
  behind := by
    rw [hsaved]
    exact Nat.lt_of_lt_of_le hstale.behind hversion
  etag := by
    rw [hetag]
    exact hstale.etag
  refused := by
    rw [hpending]
    exact hstale.refused

/-- A step that leaves `#savedVersion`, the etag and the write in flight alone, and
brings to the gate only appends of versions above every hole. -/
theorem Kept.transport (h : Kept store opts id mark s a extra)
    (hsaved : a'.savedVersion = a.savedVersion) (hpending : a'.pending = a.pending)
    (hetag : a'.etag = a.etag) (hversion : a.version ≤ a'.version)
    (hnext : a.nextVersion ≤ a'.nextVersion) (heventual : a'.eventualWanted ≤ a'.version)
    (hclean : a'.dirty = false → a'.state = mark a'.version)
    (hcallers : ∀ c ∈ extra' ++ a'.waiting, c ∈ extra ++ a.waiting ∨
      (CallerOk opts mark a'.version c ∧ ∀ w, c.appendWanted = some w → a.nextVersion < w))
    (hdistinct : ((extra' ++ a'.waiting).filterMap Caller.appendWanted).Nodup) :
    Kept store opts id mark s a' extra' := by
  have hhole : ∀ v, a.Hole extra v → a'.Hole extra' v := by
    intro v hv
    refine ⟨Nat.le_trans hv.1 hnext, ?_⟩
    intro c hc hw
    rcases hcallers c hc with hold | ⟨-, habove⟩
    · exact hv.2 c hold hw
    have := habove v hw
    have := hv.1
    omega
  constructor
  · rw [hsaved]
    exact Nat.le_trans h.savedLe hversion
  · exact heventual
  · exact hclean
  · intro c hc
    rcases hcallers c hc with hold | ⟨hok, -⟩
    · exact (h.callers c hold).mono hversion
    · exact hok
  · exact hdistinct
  · intro w hw
    have hok := h.pending w (hpending ▸ hw)
    refine ⟨?_, Nat.le_trans hok.version hversion, ?_, hok.append, hok.noClear, hok.uncleared, ?_⟩
    · rw [hsaved]
      exact hok.wanted
    · rw [hetag]
      exact hok.expected
    · intro snap hop hanswer
      obtain ⟨st, hst, hmark⟩ := hok.save snap hop hanswer
      exact ⟨st, hst, hmark.imp_right (hhole _)⟩
  · rw [executedVersion_congr hsaved hpending]
    rcases h.record with hr | hstale
    · exact .inl (hr.imp hhole)
    · exact .inr (hstale.congr hsaved hpending hetag hversion)

theorem waiting_congr (hpending : a'.pending = a.pending) (hparked : a'.parked = a.parked) :
    a'.waiting = a.waiting := by
  simp only [waiting, hpending, hparked]

/-- Versions that do not exist yet may be marked anew. -/
theorem Kept.remark (h : Kept store opts id mark s a extra) {mark' : Nat → St}
    (hmark : ∀ v ≤ a.version, mark' v = mark v) : Kept store opts id mark' s a extra where
  savedLe := h.savedLe
  eventualLe := h.eventualLe
  clean := by
    intro hd
    rw [hmark _ (Nat.le_refl _)]
    exact h.clean hd
  callers := by
    intro c hc
    have hok := h.callers c hc
    refine ⟨hok.wanted, ?_⟩
    intro entry wanted hcaller
    obtain ⟨apply, happly, hpos, hfold⟩ := hok.folded entry wanted hcaller
    have hle : wanted ≤ a.version := appendWanted_le hok (by rw [hcaller]; rfl)
    refine ⟨apply, happly, hpos, ?_⟩
    rw [hmark _ hle, hmark _ (Nat.le_trans (Nat.sub_le _ _) hle)]
    exact hfold
  distinct := h.distinct
  pending := by
    intro w hw
    have hok := h.pending w hw
    refine { hok with save := ?_ }
    intro snap hop hanswer
    rw [hmark _ hok.version]
    exact hok.save snap hop hanswer
  record := by
    rcases h.record with hr | hstale
    · refine .inl ?_
      rw [Recorded, hmark _ h.executedVersion_le]
      exact hr
    · exact .inr hstale

/-- Callers may leave. -/
theorem Kept.drop (h : Kept store opts id mark s a extra) : Kept store opts id mark s a [] := by
  refine h.transport rfl rfl rfl (Nat.le_refl _) (Nat.le_refl _) h.eventualLe h.clean ?_ ?_
  · intro c hc
    exact .inl (List.mem_append_right _ hc)
  · have hd := h.distinct
    rw [List.filterMap_append] at hd
    exact (List.nodup_append.1 hd).2.1

/-- Folding a dirty mark. -/
theorem Kept.consumeDirty (h : Kept store opts id mark s a []) :
    ∃ mark', Kept store opts id mark' s a.consumeDirty [] ∧ a.consumeDirty.dirty = false := by
  unfold Activation.consumeDirty
  split
  · rename_i hdirty
    refine ⟨fun v => if v = a.version + 1 then a.state else mark v, ?_, rfl⟩
    have hmark : Kept store opts id (fun v => if v = a.version + 1 then a.state else mark v) s a
        [] := by
      refine h.remark ?_
      intro v hv
      exact if_neg (by omega)
    refine hmark.transport rfl rfl rfl (Nat.le_succ _) ?_ (Nat.le_succ_of_le h.eventualLe) ?_ ?_ ?_
    · simp [nextVersion, hdirty]
    · simp
    · intro c hc
      exact .inl hc
    · exact h.distinct
  · rename_i hdirty
    exact ⟨mark, h, by simpa using hdirty⟩

/-- A new version, on which the state is `st`, and a caller that wants it. -/
theorem Kept.advance {b : Activation St Snap En Etag} (h : Kept store opts id mark s a [])
    (hdirty : a.dirty = false) (hsaved : b.savedVersion = a.savedVersion)
    (hpending : b.pending = a.pending) (hetag : b.etag = a.etag) (hparked : b.parked = a.parked)
    (hversion : b.version = a.version + 1) (heventual : b.eventualWanted ≤ b.version)
    (hc : c.wanted = some (a.version + 1))
    (hfolded : ∀ entry wanted, c = .append entry wanted →
      ∃ apply, opts.applyEntry = some apply ∧ b.state = apply a.state entry) :
    ∃ mark', Kept store opts id mark' s b [c] := by
  have hnext : a.nextVersion = a.version := by simp [nextVersion, hdirty]
  have hcwanted : ∀ w, c.appendWanted = some w → w = a.version + 1 := by
    cases c <;> simp_all [Caller.appendWanted, Caller.wanted]
  refine ⟨fun v => if v = a.version + 1 then b.state else mark v, ?_⟩
  have hmark : Kept store opts id (fun v => if v = a.version + 1 then b.state else mark v) s a
      [] := by
    refine h.remark ?_
    intro v hv
    exact if_neg (by omega)
  refine hmark.transport hsaved hpending hetag (by omega) ?_ heventual ?_ ?_ ?_
  · rw [hnext]
    simp only [nextVersion]
    omega
  · simp [hversion]
  · intro d hd
    rw [waiting_congr hpending hparked] at hd
    rcases List.mem_append.1 hd with hd | hd
    · obtain rfl := List.mem_singleton.1 hd
      refine .inr ⟨⟨⟨a.version + 1, hc, by omega⟩, ?_⟩, ?_⟩
      · intro entry wanted hcaller
        obtain ⟨apply, happly, hst⟩ := hfolded entry wanted hcaller
        obtain rfl : wanted = a.version + 1 := hcwanted wanted (by rw [hcaller]; rfl)
        refine ⟨apply, happly, Nat.succ_pos _, ?_⟩
        simp only [if_true, Nat.add_sub_cancel]
        rw [if_neg (by omega), ← h.clean hdirty]
        exact hst
      · intro w hw
        rw [hnext, hcwanted w hw]
        exact Nat.lt_succ_self _
    · exact .inl hd
  · rw [waiting_congr hpending hparked, List.singleton_append]
    cases hcw : c.appendWanted with
    | none =>
      rw [List.filterMap_cons_none hcw]
      exact h.distinct
    | some w =>
      rw [List.filterMap_cons_some hcw, List.nodup_cons]
      refine ⟨?_, h.distinct⟩
      intro hmem
      obtain ⟨d, hd, hdw⟩ := List.mem_filterMap.1 hmem
      have := appendWanted_le (h.callers d hd) hdw
      have := hcwanted w hcw
      omega

/-! ## The gate -/

theorem Kept.settle (h : Kept store opts id mark s a [c]) (resolved : Bool) :
    Kept store opts id mark s (a.settle c resolved) [] := by
  have hwaiting : (a.settle c resolved).waiting = a.waiting := waiting_congr (by simp) (by simp)
  refine h.drop.transport (by simp) (by simp) (by simp) (by simp) ?_ ?_ ?_ ?_ ?_
  · simp [nextVersion]
  · simpa using h.eventualLe
  · simpa using h.clean
  · intro d hd
    rw [hwaiting] at hd
    exact .inl hd
  · rw [hwaiting]
    exact h.drop.distinct

/-- A caller joins those that wait. -/
theorem Kept.park (h : Kept store opts id mark s a [c]) :
    Kept store opts id mark s { a with parked := a.parked ++ [c] } [] := by
  have hperm : ({ a with parked := a.parked ++ [c] } : Activation St Snap En Etag).waiting.Perm
      ([c] ++ a.waiting) := by
    simp only [waiting]
    split
    · split
      · rw [← List.cons_append]
        exact List.perm_append_comm
      · exact List.perm_append_comm
    · exact List.perm_append_comm
  refine h.transport rfl rfl rfl (Nat.le_refl _) (Nat.le_refl _) h.eventualLe h.clean ?_ ?_
  · intro d hd
    exact .inl (hperm.mem_iff.1 hd)
  · exact (hperm.filterMap Caller.appendWanted).nodup_iff.2 h.distinct

/-- A caller's write is issued: a save captures the state as it is. -/
theorem Kept.issue {wanted : Nat} (h : Kept store opts id mark s a [c])
    (hwanted : c.wanted = some wanted) (hsaved : a.savedVersion < wanted)
    (hpending : a.pending = none) :
    Kept store opts id mark s (a.issue c (a.saveOp opts appends c)) [] := by
  have hwaiting : (a.issue c (a.saveOp opts appends c)).waiting = [c] ++ a.waiting := by
    simp [waiting, Activation.issue, hpending]
  have hhole : ∀ v, a.Hole [c] v → (a.issue c (a.saveOp opts appends c)).Hole [] v := by
    intro v hv
    refine ⟨hv.1, ?_⟩
    rw [List.nil_append, hwaiting]
    exact hv.2
  have hle : wanted ≤ a.version := by
    obtain ⟨w, hw, hle⟩ := (h.callers c (by simp)).wanted
    cases hw.symm.trans hwanted
    exact hle
  constructor
  · exact h.savedLe
  · exact h.eventualLe
  · exact h.clean
  · rw [List.nil_append, hwaiting]
    exact h.callers
  · rw [List.nil_append, hwaiting]
    exact h.distinct
  · intro w hw
    cases hw
    have hop := a.saveOp_cases opts appends c
    refine ⟨⟨wanted, hwanted, hsaved, hle⟩, Nat.le_refl _, rfl, ?_, ?_, by simp, ?_⟩
    · intro entry wd happend
      rcases hop with ⟨entry', wd', hc, hop, -, -⟩ | hop
      · rw [hop] at happend
        rw [hc]
        injection happend with h₁ h₂
        rw [h₁, h₂]
      · rw [hop] at happend
        simp at happend
    · intro hclear
      rcases hop with ⟨_, _, -, hop, -, -⟩ | hop <;> rw [hop] at hclear <;> simp at hclear
    · intro snap hsave _
      have hsnap : snap = opts.encode a.state := by
        rcases hop with ⟨_, _, -, hop, -, -⟩ | hop
        · rw [hop] at hsave
          simp at hsave
        · rw [hop] at hsave
          injection hsave with h₁
          exact h₁.symm
      refine ⟨a.state, hsnap, ?_⟩
      cases hdirty : a.dirty with
      | false => exact .inl (h.clean hdirty)
      | true =>
        -- The changes not folded yet are version `a.version + 1`, and nobody wants it.
        refine .inr (hhole _ ⟨?_, ?_⟩)
        · simp [nextVersion, hdirty]
        · intro d hd hdw
          exact absurd (appendWanted_le (h.callers d hd) hdw) (Nat.not_succ_le_self _)
  · rcases h.record with hr | hstale
    · refine .inl ?_
      have hexec : (a.issue c (a.saveOp opts appends c)).executedVersion = a.executedVersion := by
        simp [executedVersion, Activation.issue, hpending]
      rw [hexec]
      exact hr.imp hhole
    · refine .inr { hstale with refused := ?_ }
      intro w token hw
      cases hw
      simp

theorem Kept.gatedSave (h : Kept store opts id mark s a [c]) :
    Kept store opts id mark s (a.gatedSave opts appends c) [] := by
  obtain ⟨wanted, hwanted, -⟩ := (h.callers c (by simp)).wanted
  have hgated := a.gated opts appends c
  generalize a.gatedSave opts appends c = a' at hgated
  cases hgated with
  | durable _ _ => exact h.settle true
  | parked _ => exact h.park
  | faulted _ _ => exact h.settle false
  | saves hwanted hsaved hpending _ => exact h.issue hwanted hsaved hpending
  | clears hcaller _ =>
    rw [hcaller] at hwanted
    simp [Caller.wanted] at hwanted

/-- A caller leaves the queue and goes on. -/
theorem Kept.resume {k : Nat} (h : Kept store opts id mark s a [])
    (hstep : a.resume opts appends k = some a') : Kept store opts id mark s a' [] := by
  unfold Activation.resume at hstep
  split at hstep
  · rename_i c hc
    obtain ⟨-, rfl⟩ := guard_taken hstep
    obtain ⟨hk, hget⟩ := List.getElem?_eq_some_iff.1 hc
    have hparked : (c :: a.parked.eraseIdx k).Perm a.parked := by
      rw [← hget]
      exact List.getElem_cons_eraseIdx_perm hk
    have hperm : ([c] ++ ({ a with parked := a.parked.eraseIdx k } :
        Activation St Snap En Etag).waiting).Perm a.waiting := by
      simp only [waiting, List.singleton_append]
      split
      · split
        · exact (List.Perm.swap _ _ _).trans (hparked.cons _)
        · exact hparked
      · exact hparked
    refine Kept.gatedSave ?_
    refine h.transport rfl rfl rfl (Nat.le_refl _) (Nat.le_refl _) h.eventualLe h.clean ?_ ?_
    · intro d hd
      exact .inl (hperm.mem_iff.1 hd)
    · exact (hperm.filterMap Caller.appendWanted).nodup_iff.2 h.distinct
  · simp at hstep

/-! ## The store's answer -/

/-- An answered write is nobody's to wait for any more; what is left to see is the
record. -/
theorem Kept.answered {w : Write Snap En Etag} {answer : Answer Etag} {s' : StorageState σ}
    (h : Kept store opts id mark s a []) (hpending : a.pending = some w)
    (hanswer : w.answer = none) (huncleared : answer ≠ .cleared)
    (hrecord : (∀ v, a.Hole [] v →
        ({ a with pending := some { w with answer := some answer } } :
          Activation St Snap En Etag).Hole [] v) →
      Recorded opts mark
          ({ a with pending := some { w with answer := some answer } } :
            Activation St Snap En Etag) [] (store.load s'.db id)
          ({ a with pending := some { w with answer := some answer } } :
            Activation St Snap En Etag).executedVersion ∨
        Stale store id s'
          ({ a with pending := some { w with answer := some answer } } :
            Activation St Snap En Etag)) :
    Kept store opts id mark s' { a with pending := some { w with answer := some answer } } [] := by
  have hbefore : a.waiting = w.caller :: a.parked := by
    simp [waiting, hpending, hanswer]
  have hok := h.pending w hpending
  constructor
  · exact h.savedLe
  · exact h.eventualLe
  · exact h.clean
  · intro c hc
    refine h.callers c ?_
    rw [List.nil_append, hbefore]
    exact List.mem_cons_of_mem _ hc
  · have hd := h.distinct
    rw [List.nil_append, hbefore] at hd
    exact hd.sublist ((List.sublist_cons_self _ _).filterMap _)
  · intro w' hw'
    cases hw'
    exact ⟨hok.wanted, hok.version, hok.expected, hok.append, hok.noClear,
      by simpa using huncleared, by simp⟩
  · refine hrecord ?_
    intro v hv
    refine ⟨hv.1, ?_⟩
    intro c hc
    refine hv.2 c ?_
    rw [List.nil_append, hbefore]
    exact List.mem_cons_of_mem _ hc

/-- Nothing changes where nothing was executed. -/
theorem Kept.unexecuted {answer : Answer Etag} (h : Kept store opts id mark s a [])
    (hpending : a.pending = some w) (hanswer : w.answer = none) (huncleared : answer ≠ .cleared)
    (hunstored : ∀ token, answer ≠ .stored token) :
    Kept store opts id mark s { a with pending := some { w with answer := some answer } } [] := by
  refine h.answered hpending hanswer huncleared ?_
  intro hhole
  rcases h.record with hr | hstale
  · refine .inl ?_
    have hexec : ({ a with pending := some { w with answer := some answer } } :
        Activation St Snap En Etag).executedVersion = a.executedVersion := by
      simp only [executedVersion, hpending, hanswer]
      split
      · rename_i token heq
        exact absurd (Option.some.inj heq) (hunstored token)
      · rfl
    rw [hexec]
    exact hr.imp hhole
  · refine .inr { hstale with refused := ?_ }
    intro w' token hw'
    cases hw'
    simp only [ne_eq, Option.some.injEq]
    exact hunstored token

/-- The stored state is the one the save captured. -/
theorem seedState_saved (st : St) (etag : Etag) :
    opts.seedState (some ⟨opts.encode st, etag, []⟩ : Option (Record Snap En Etag)) = some st := by
  simp only [ActorOptions.seedState, opts.migrate_encode, Option.bind_some,
    ActorOptions.replayLog]
  split
  · rfl
  · rfl

/-- An appended entry is folded last. -/
theorem seedState_appended {apply : St → En → St} (happly : opts.applyEntry = some apply)
    (record : Record Snap En Etag) (etag : Etag) (entry : En) {st : St}
    (h : opts.seedState (some record) = some st) :
    opts.seedState (some { record with etag := etag, log := record.log ++ [entry] }) =
      some (apply st entry) := by
  simp only [ActorOptions.seedState, ActorOptions.replayLog, happly, Option.bind_eq_some_iff,
    List.foldl_append] at h ⊢
  obtain ⟨st', hst', hfold⟩ := h
  refine ⟨st', hst', ?_⟩
  rw [← Option.some.inj hfold]
  rfl

/-- The write in flight is executed and accepted. -/
theorem Kept.accepted (laws : store.RecordLaws) {db : σ} {etag : Etag} {writes : Nat}
    (h : Kept store opts id mark s a []) (hpending : a.pending = some w)
    (hanswer : w.answer = none) (hexpected : w.expected.map (·.etag) = store.current s.db id)
    (hdone : (∃ snap, w.op = .save snap ∧ ∃ expected,
        store.save s.db id snap expected = some (db, etag)) ∨
      ∃ entry wanted append expected, w.op = .append entry wanted ∧
        store.appendText = some append ∧ append s.db id entry expected = some (db, etag) ∧
        store.current s.db id = some expected) :
    Kept store opts id mark ⟨db, s.writes + 1⟩
      { a with pending := some { w with answer := some (.stored ⟨etag, writes⟩) } } [] := by
  have hok := h.pending w hpending
  obtain ⟨wanted, hwanted, hlt, hle⟩ := hok.wanted
  have hversion := hok.version
  have hexec : a.executedVersion = a.savedVersion := by
    simp [executedVersion, hpending, hanswer]
  refine h.answered hpending hanswer (by simp) ?_
  intro hhole
  have hrecord : Recorded opts mark a [] (store.load s.db id) a.savedVersion := by
    rcases h.record with hr | hstale
    · rw [← hexec]
      exact hr
    · exact absurd (hok.expected ▸ hexpected) hstale.etag
  refine .inl ?_
  rcases hdone with ⟨snap, hop, expected, hsave⟩ |
    ⟨entry, wd, append, expected, hop, happend, happended, hcurrent⟩
  · -- A full save: the record is the state of its issue.
    have hsaved : ({ a with pending := some { w with answer := some (.stored ⟨etag, writes⟩) } } :
        Activation St Snap En Etag).executedVersion = w.version := by
      simp [executedVersion, adopt, hop]
    obtain ⟨st, rfl, hst⟩ := hok.save snap hop hanswer
    rw [hsaved, laws.load_save hsave]
    rcases hst with rfl | hgap
    · exact .inl (seedState_saved _ _)
    · exact .inr ⟨w.version + 1, Nat.lt_succ_self _, hhole _ hgap⟩
  · -- An append: it raises the saved version by one, or leaves a hole of its own.
    have hcaller := hok.append entry wd hop
    rw [hcaller] at hwanted
    obtain rfl := Option.some.inj hwanted
    have hsaved : ({ a with pending := some { w with answer := some (.stored ⟨etag, writes⟩) } } :
        Activation St Snap En Etag).executedVersion =
        if a.savedVersion + 1 = wd then wd else a.savedVersion := by
      simp [executedVersion, adopt, hop]
    have hmem : w.caller ∈ [] ++ a.waiting := by
      simp [waiting, hpending, hanswer]
    obtain ⟨apply, happly, -, hfold⟩ := (h.callers w.caller hmem).folded entry wd hcaller
    have hdistinct := h.distinct
    simp only [List.nil_append, waiting, hpending, hanswer, Option.isNone_none, if_true,
      hcaller, Caller.appendWanted] at hdistinct
    rw [hsaved]
    rcases hrecord with hseed | ⟨v, hv, hgap⟩
    · split
      · obtain ⟨record, hload, -⟩ := Option.map_eq_some_iff.1 hcurrent
        rw [hload] at hseed
        rw [laws.load_append happend happended hload]
        refine .inl ?_
        rw [seedState_appended happly record etag entry hseed, hfold]
        have : wd - 1 = a.savedVersion := by omega
        rw [this]
      · refine .inr ⟨wd, by omega, ?_, ?_⟩
        · simp only [nextVersion]
          omega
        · intro c hc hcw
          exact (List.nodup_cons.1 hdistinct).1 (List.mem_filterMap.2 ⟨c, hc, hcw⟩)
    · have hne : v ≠ wd := by
        rintro rfl
        exact hgap.2 w.caller hmem (by rw [hcaller]; rfl)
      refine .inr ⟨v, ?_, hhole v hgap⟩
      split
      · omega
      · exact hv

/-- The write in flight is executed and accepted, and its answer is lost. -/
theorem Kept.lost {s' : StorageState σ} (h : Kept store opts id mark s a [])
    (hpending : a.pending = some w) (hanswer : w.answer = none)
    (hetag : w.expected.map (·.etag) ≠ store.current s'.db id) :
    Kept store opts id mark s' { a with pending := some { w with answer := some .failed } } [] := by
  have hok := h.pending w hpending
  obtain ⟨wanted, -, hlt, hle⟩ := hok.wanted
  have hversion := hok.version
  refine h.answered hpending hanswer (by simp) ?_
  intro _
  refine .inr ⟨?_, ?_, ?_⟩
  · exact Nat.lt_of_lt_of_le hlt (Nat.le_trans hle hversion)
  · rw [← hok.expected]
    exact hetag
  · intro w' token hw'
    cases hw'
    simp

/-- Whatever becomes of the call. -/
theorem Kept.exec (tokens : store.TokenLaws) (laws : store.RecordLaws)
    (renews : store.RenewingLaws) (outcome : Outcome) (h : Kept store opts id mark s a [])
    (hpending : a.pending = some w) (hanswer : w.answer = none) :
    Kept store opts id mark (s.execute store id w.op w.expected outcome).1
      { a with pending := some { w with
          answer := some (s.execute store id w.op w.expected outcome).2 } } [] := by
  have hok := h.pending w hpending
  have hperformed := performed store id s w.op w.expected
  cases outcome with
  | failed =>
    simp only [StorageState.execute]
    exact h.unexecuted hpending hanswer (by simp) (by simp)
  | answered =>
    simp only [StorageState.execute]
    generalize s.perform store id w.op w.expected = done at hperformed
    cases hperformed with
    | refused => exact h.unexecuted hpending hanswer (by simp) (by simp)
    | saved hop hsave =>
      exact h.accepted laws hpending hanswer (tokens.save_expected hsave)
        (.inl ⟨_, hop, _, hsave⟩)
    | appended hop hexpected happend happended =>
      have hcurrent := tokens.append_expected happend happended
      refine h.accepted laws hpending hanswer ?_
        (.inr ⟨_, _, _, _, hop, happend, happended, hcurrent.symm⟩)
      rw [hexpected]
      exact hcurrent
    | cleared hop _ => exact absurd hop hok.noClear
  | lost =>
    simp only [StorageState.execute]
    generalize s.perform store id w.op w.expected = done at hperformed
    cases hperformed with
    | refused => exact h.unexecuted hpending hanswer (by simp) (by simp)
    | saved hop hsave =>
      refine h.lost hpending hanswer ?_
      rw [tokens.save_current hsave]
      exact renews.save_renews hsave
    | appended hop hexpected happend happended =>
      refine h.lost hpending hanswer ?_
      rw [tokens.append_current happend happended, hexpected]
      simpa using renews.append_renews happend happended
    | cleared hop _ => exact absurd hop hok.noClear

/-- The answer is taken: `#savedVersion` becomes what it stood for. -/
theorem Kept.adopt {token : Token Etag} (h : Kept store opts id mark s a [])
    (hpending : a.pending = some w) (hanswer : w.answer = some (.stored token)) :
    Kept store opts id mark s (({ a with pending := none } : Activation St Snap En Etag).adopt w
      token) [] := by
  have hexec : a.executedVersion = (a.adopt w token).savedVersion := by
    simp only [executedVersion, hpending, hanswer]
  have hwaiting : (({ a with pending := none } : Activation St Snap En Etag).adopt w
      token).waiting = a.waiting := by
    simp [waiting, Activation.adopt, hpending, hanswer]
  constructor
  · have hle := h.executedVersion_le
    rw [hexec] at hle
    exact hle
  · exact h.eventualLe
  · exact h.clean
  · rw [hwaiting]
    exact h.callers
  · rw [hwaiting]
    exact h.distinct
  · intro w' hw'
    simp [Activation.adopt] at hw'
  · rcases h.record with hr | hstale
    · refine .inl ?_
      rw [hexec] at hr
      refine Recorded.imp (a := a) hr ?_
      intro v hv
      refine ⟨hv.1, ?_⟩
      rw [hwaiting]
      exact hv.2
    · exact absurd hanswer (hstale.refused w token hpending)

/-- The write is over, without effect on the bookkeeping. -/
theorem Kept.giveUp (h : Kept store opts id mark s a []) (hpending : a.pending = some w)
    (hanswered : w.answer.isSome) (hunstored : ∀ token, w.answer ≠ some (.stored token)) :
    Kept store opts id mark s { a with pending := none } [] := by
  have hwaiting : ({ a with pending := none } : Activation St Snap En Etag).waiting =
      a.waiting := by
    obtain ⟨answer, hans⟩ := Option.isSome_iff_exists.1 hanswered
    simp [waiting, hpending, hans]
  have hexec : a.executedVersion = a.savedVersion := by
    obtain ⟨answer, hans⟩ := Option.isSome_iff_exists.1 hanswered
    cases answer with
    | stored token => exact absurd hans (hunstored token)
    | cleared | conflict | failed => simp [executedVersion, hpending, hans]
  constructor
  · exact h.savedLe
  · exact h.eventualLe
  · exact h.clean
  · rw [hwaiting]
    exact h.callers
  · rw [hwaiting]
    exact h.distinct
  · intro w' hw'
    simp at hw'
  · rcases h.record with hr | hstale
    · refine .inl ?_
      rw [hexec] at hr
      refine Recorded.imp (a := a) hr ?_
      intro v hv
      refine ⟨hv.1, ?_⟩
      rw [hwaiting]
      exact hv.2
    · refine .inr { hstale with refused := ?_ }
      intro w' token hw'
      simp at hw'

/-- A rejected caller leaves; what it is told does not matter here. -/
theorem Kept.reject (h : Kept store opts id mark s a []) (faulted reload : Bool) (resolved : Bool) :
    Kept store opts id mark s
      (({ a with faulted := faulted, reloadPending := reload } :
        Activation St Snap En Etag).settle c resolved) [] := by
  have hwaiting : (({ a with faulted := faulted, reloadPending := reload } :
      Activation St Snap En Etag).settle c resolved).waiting = a.waiting :=
    waiting_congr (by simp) (by simp)
  refine h.transport (by simp) (by simp) (by simp) (by simp) ?_ ?_ ?_ ?_ ?_
  · simp [nextVersion]
  · simpa using h.eventualLe
  · simpa using h.clean
  · intro d hd
    rw [hwaiting] at hd
    exact .inl hd
  · rw [hwaiting]
    exact h.distinct

/-- The write in flight settles. -/
theorem Kept.reply (h : Kept store opts id mark s a []) (hstep : a.reply opts appends = some a') :
    Kept store opts id mark s a' [] := by
  unfold Activation.reply at hstep
  split at hstep
  · simp at hstep
  rename_i w hpending
  have hok := h.pending w hpending
  obtain ⟨wanted, hwanted, hlt, hle⟩ := hok.wanted
  split at hstep
  · simp at hstep
  · rename_i token hanswer
    have hadopt := h.adopt hpending hanswer
    split at hstep
    · cases hstep
      exact hadopt.reject _ _ true
    · rename_i caller hnot
      cases hstep
      -- A save records the version of its issue, which its caller wanted.
      have hsaved : wanted ≤ (({ a with pending := none } :
          Activation St Snap En Etag).adopt w token).savedVersion := by
        simp only [Activation.adopt]
        split
        · rename_i entry wd hop
          exact absurd (hok.append entry wd hop) (hnot entry wd)
        · exact hle
      rw [gatedSave_durable opts appends _ hwanted hsaved]
      exact hadopt.reject _ _ true
  · rename_i hanswer
    exact absurd hanswer hok.uncleared
  · rename_i hanswer
    have hgone := h.giveUp hpending (by simp [hanswer]) (by simp [hanswer])
    split at hstep
    · cases hstep
      exact hgone.reject _ _ false
    · split at hstep
      all_goals
        cases hstep
        exact hgone.reject _ _ false
  · rename_i hanswer
    cases hstep
    exact (h.giveUp hpending (by simp [hanswer]) (by simp [hanswer])).reject _ _ false

end

end SigxActors.Host
