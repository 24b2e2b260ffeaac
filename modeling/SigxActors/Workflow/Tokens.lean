/-
  Workflow/Tokens.lean --- what the tokens of an honest log say.

  Sleeps take ever larger tokens, and a wake takes the one that is out.  So a
  token names one sleep, and it is woken from once.
-/
import SigxActors.Workflow.Coherence

set_option autoImplicit false

namespace SigxActors.Workflow

/-- The entry is a wake with this token. -/
def RunEntry.isWake (seq : Nat) : RunEntry → Bool
  | .wake seq' => decide (seq' = seq)
  | _ => false

/-- The sleep with this token is in the log, and ends no later than `due`. -/
def Slept (entries : List Stamp) (seq due : Nat) : Prop :=
  ∃ stamp ∈ entries, ∃ until_ durable after,
    stamp.entry = .sleep until_ seq durable after ∧ until_ ≤ due

theorem Slept.mono {entries entries' : List Stamp} {seq due due' : Nat} (h : Slept entries seq due)
    (hsub : ∀ stamp ∈ entries, stamp ∈ entries') (hle : due ≤ due') : Slept entries' seq due' := by
  obtain ⟨stamp, hmem, until_, durable, after, hentry, hdue⟩ := h
  exact ⟨stamp, hsub stamp hmem, until_, durable, after, hentry, Nat.le_trans hdue hle⟩

variable {ready : Wake → Nat → Nat → Prop} {entries : List Stamp}

/-- The wake in state is the last sleep's. -/
theorem Honest.sleep_of_wake (h : Honest ready entries) {wake : Wake}
    (hwake : (Stamp.fold entries).wake = some wake) :
    ∃ stamp ∈ entries, stamp.entry = .sleep wake.until_ wake.seq wake.durable wake.after := by
  induction h with
  | nil => cases hwake
  | @snoc entries stamp _ hfits ih =>
    rw [Stamp.fold_snoc] at hwake
    have hold : (Stamp.fold entries).wake = some wake →
        ∃ stamp' ∈ entries ++ [stamp],
          stamp'.entry = .sleep wake.until_ wake.seq wake.durable wake.after := by
      intro hwake
      obtain ⟨stamp', hmem, hentry⟩ := ih hwake
      exact ⟨stamp', List.mem_append_left _ hmem, hentry⟩
    cases hentry : stamp.entry with
    | start | vars | attempt => rw [hentry] at hwake; exact hold hwake
    | move | end_ => rw [hentry] at hwake; cases hwake
    | sleep until_ seq durable after =>
      rw [hentry] at hwake
      cases hwake
      exact ⟨stamp, List.mem_append_right _ List.mem_cons_self, hentry⟩
    | wake seq =>
      rw [hentry] at hwake
      simp only [applyRunEntry] at hwake
      split at hwake
      · split at hwake
        · cases hwake
        · exact hold hwake
      · exact hold hwake

/-- No token is ahead of the state. -/
theorem Honest.seq_le (h : Honest ready entries) {stamp : Stamp} (hmem : stamp ∈ entries)
    {until_ seq : Nat} {durable : Bool} {after : Option String}
    (hentry : stamp.entry = .sleep until_ seq durable after) : seq ≤ (Stamp.fold entries).seq := by
  induction h with
  | nil => exact absurd hmem List.not_mem_nil
  | @snoc entries last _ hfits ih =>
    rw [Stamp.fold_snoc]
    rw [List.mem_append, List.mem_singleton] at hmem
    rcases hmem with hmem | rfl
    · have hle := ih hmem
      cases hlast : last.entry with
      | start | vars | attempt | end_ => exact hle
      | move | sleep =>
        rw [Fits, hlast] at hfits
        dsimp only [applyRunEntry]
        omega
      | wake seq' =>
        simp only [applyRunEntry]
        split
        · split <;> exact hle
        · exact hle
    · rw [hentry]
      exact Nat.le_refl seq

/-- A token names one sleep. -/
theorem Honest.sleep_unique (h : Honest ready entries) {x y : Stamp} (hx : x ∈ entries)
    (hy : y ∈ entries) {seq u v : Nat} {d e : Bool} {m n : Option String}
    (hxe : x.entry = .sleep u seq d m) (hye : y.entry = .sleep v seq e n) : u = v := by
  induction h with
  | nil => exact absurd hx List.not_mem_nil
  | @snoc entries last hentries hfits ih =>
    rw [List.mem_append, List.mem_singleton] at hx hy
    -- The last sleep takes a token that no earlier one has.
    have hnew : ∀ {z : Stamp} {w : Nat} {f : Bool} {o : Option String}, z ∈ entries →
        z.entry = .sleep w seq f o → ∀ {w' : Nat} {f' : Bool} {o' : Option String},
        last.entry = .sleep w' seq f' o' → False := by
      intro z w f o hz hze w' f' o' hlast
      have hle := hentries.seq_le hz hze
      rw [Fits, hlast] at hfits
      omega
    rcases hx with hx | rfl
    · rcases hy with hy | rfl
      · exact ih hx hy
      · exact absurd (hnew hx hxe hye) id
    · rcases hy with hy | rfl
      · exact absurd (hnew hy hye hxe) id
      · rw [hxe] at hye
        injection hye

theorem Honest.slept_of_wake (h : Honest ready entries) {seq due : Nat}
    (hslept : Slept entries seq due) {stamp : Stamp} (hmem : stamp ∈ entries) {until_ : Nat}
    {durable : Bool} {after : Option String}
    (hentry : stamp.entry = .sleep until_ seq durable after) : until_ ≤ due := by
  obtain ⟨other, hother, until_', durable', after', hother', hle⟩ := hslept
  rw [h.sleep_unique hmem hother hentry hother']
  exact hle

/-- The token that is out has not been woken from. -/
structure Fresh (entries : List Stamp) : Prop where
  once : ∀ seq, entries.countP (fun stamp => stamp.entry.isWake seq) ≤ 1
  spent : ∀ seq, 0 < entries.countP (fun stamp => stamp.entry.isWake seq) →
    seq ≤ (Stamp.fold entries).seq ∧ ∀ wake, (Stamp.fold entries).wake = some wake → wake.seq ≠ seq
  out : ∀ wake, (Stamp.fold entries).wake = some wake → wake.seq ≤ (Stamp.fold entries).seq

theorem Honest.fresh (h : Honest ready entries) : Fresh entries := by
  induction h with
  | nil => exact ⟨fun _ => Nat.zero_le 1, fun _ hpos => absurd hpos (Nat.lt_irrefl 0),
      fun _ hwake => absurd hwake (by simp [Stamp.fold, foldLog, emptyRun])⟩
  | @snoc entries stamp _ hfits ih =>
    have hcount : ∀ seq, (entries ++ [stamp]).countP (fun stamp => stamp.entry.isWake seq) =
        entries.countP (fun stamp => stamp.entry.isWake seq) +
          (if stamp.entry.isWake seq then 1 else 0) := fun seq => by
      rw [List.countP_append, List.countP_singleton]
    -- An entry that is no wake and lets the token in state alone.
    have hkeep : (∀ seq, stamp.entry.isWake seq = false) →
        (Stamp.fold entries).seq ≤ (applyRunEntry (Stamp.fold entries) stamp.entry).seq →
        (∀ wake, (applyRunEntry (Stamp.fold entries) stamp.entry).wake = some wake →
          (Stamp.fold entries).wake = some wake ∨
            wake.seq = (Stamp.fold entries).seq + 1 ∧
              wake.seq = (applyRunEntry (Stamp.fold entries) stamp.entry).seq) →
        Fresh (entries ++ [stamp]) := by
      intro hno hseq hwake
      refine ⟨fun seq => ?_, fun seq hpos => ?_, fun wake hout => ?_⟩
      · rw [hcount, hno]
        exact ih.once seq
      · rw [hcount, hno] at hpos
        obtain ⟨hle, hne⟩ := ih.spent seq hpos
        rw [Stamp.fold_snoc]
        refine ⟨Nat.le_trans hle hseq, fun wake hout => ?_⟩
        rcases hwake wake hout with hold | ⟨hnew, -⟩
        · exact hne wake hold
        · omega
      · rw [Stamp.fold_snoc] at hout ⊢
        rcases hwake wake hout with hold | ⟨-, hnew⟩
        · exact Nat.le_trans (ih.out wake hold) hseq
        · exact Nat.le_of_eq hnew
    cases hentry : stamp.entry with
    | start | vars | attempt =>
      rw [hentry] at hkeep
      exact hkeep (fun _ => rfl) (Nat.le_refl _) fun _ => .inl
    | move to_ seq =>
      rw [Fits, hentry] at hfits
      rw [hentry] at hkeep
      exact hkeep (fun _ => rfl) (Nat.le_of_eq hfits.symm) fun _ hout => by cases hout
    | sleep until_ seq durable after =>
      rw [Fits, hentry] at hfits
      rw [hentry] at hkeep
      refine hkeep (fun _ => rfl) ?_ fun wake hout => .inr ?_
      · show (Stamp.fold entries).seq ≤ seq
        omega
      · cases hout
        exact ⟨hfits, rfl⟩
    | wake seq =>
      rw [Fits, hentry] at hfits
      obtain ⟨wake, source, hwake, rfl, -, -⟩ := hfits
      have hzero : entries.countP (fun stamp => stamp.entry.isWake wake.seq) = 0 := by
        rcases Nat.eq_zero_or_pos
          (entries.countP (fun stamp => stamp.entry.isWake wake.seq)) with hzero | hpos
        · exact hzero
        · exact absurd rfl ((ih.spent wake.seq hpos).2 wake hwake)
      have hfold : Stamp.fold (entries ++ [stamp]) =
          { Stamp.fold entries with wake := none, status := .running } := by
        rw [Stamp.fold_snoc, hentry, applyRunEntry_wake hwake]
      refine ⟨fun seq => ?_, fun seq hpos => ?_, fun wake' hout => ?_⟩
      · rw [hcount, hentry]
        by_cases hseq : wake.seq = seq
        · subst hseq
          rw [hzero]
          simp [RunEntry.isWake]
        · simpa [RunEntry.isWake, hseq] using ih.once seq
      · rw [hfold]
        refine ⟨?_, fun _ hout => by cases hout⟩
        by_cases hseq : wake.seq = seq
        · exact hseq ▸ ih.out wake hwake
        rw [hcount, hentry] at hpos
        refine (ih.spent seq ?_).1
        simpa [RunEntry.isWake, hseq] using hpos
      · rw [hfold] at hout
        cases hout
    | end_ status at_ error =>
      rw [hentry] at hkeep
      exact hkeep (fun _ => rfl) (Nat.le_refl _) fun _ hout => by cases hout

/-- What came before an entry was honest, and the entry fits it. -/
theorem Honest.split (h : Honest ready entries) :
    ∀ {before after : List Stamp} {stamp : Stamp}, entries = before ++ stamp :: after →
      Honest ready before ∧ Fits ready (Stamp.fold before) stamp := by
  induction h with
  | nil =>
    intro before after stamp heq
    simp at heq
  | @snoc entries last hentries hfits ih =>
    intro before after stamp heq
    rcases List.eq_nil_or_concat after with rfl | ⟨rest, last', rfl⟩
    · obtain ⟨rfl, hlast⟩ := List.append_inj' heq rfl
      obtain rfl := List.singleton_inj.1 hlast
      exact ⟨hentries, hfits⟩
    · rw [List.concat_eq_append, ← List.cons_append, ← List.append_assoc] at heq
      obtain ⟨heq, -⟩ := List.append_inj' heq rfl
      exact ih heq

end SigxActors.Workflow
