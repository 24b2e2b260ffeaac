/-
  Host/RosterCommits.lean --- what a host has in memory of a roster is what its edits come to.

  The edits that have resolved, applied one after the other, are the table in memory; a save under
  way carries them and its own batch.  So a batch that is rejected is in no later save, and one
  that resolves has left its table in the store.

  A save that is carried out and reported as failed is the exception: the record has the batch and
  the host does not know.

  Source: `packages/actors/src/host/task-liveness.ts` (`RosterTaskLiveness`).
-/
import Mathlib.Data.List.Sort
import SigxActors.Js.Array
import SigxActors.Host.RosterFindable

set_option autoImplicit false

namespace SigxActors.Host

open SigxActors.Js SigxActors.Storage

/-- What an edit asks for. -/
def TaskEdit.asked (e : TaskEdit) : ActorRef × Bool × Nat := (e.ref, e.tracks, e.since)

/-! ## One host -/

namespace RosterHost

variable {Etag : Type} {h h' : RosterHost Etag} {p q : String} {batch rest : List Nat}
  {table next : Roster} {ok : Bool} {shard : RosterShard Etag}

/-- The edits of a shard that have resolved, oldest first. -/
def resolved (h : RosterHost Etag) (p : String) : List Nat :=
  (List.range h.edits.length).filter fun n =>
    (h.edits[n]?).any fun e => decide (e.shard = p ∧ e.outcome = some true)

/-- The table in memory is what they come to. -/
def Folded (h : RosterHost Etag) (p : String) : Prop :=
  (h.shards p).table = h.applyEdits (h.resolved p) .empty

theorem mem_resolved {n : Nat} : n ∈ h.resolved p ↔
    ∃ e, h.edits[n]? = some e ∧ e.shard = p ∧ e.outcome = some true := by
  unfold resolved
  rw [List.mem_filter, List.mem_range, Option.any_eq_true]
  constructor
  · rintro ⟨-, e, he, hwhat⟩
    exact ⟨e, he, of_decide_eq_true hwhat⟩
  · rintro ⟨e, he, hwhat⟩
    exact ⟨(List.getElem?_eq_some_iff.1 he).1, e, he, decide_eq_true hwhat⟩

theorem sorted_resolved (h : RosterHost Etag) (p : String) : (h.resolved p).Pairwise (· < ·) :=
  List.pairwise_lt_range.filter _

theorem resolved_eq {l : List Nat} (hsorted : l.Pairwise (· < ·))
    (hmem : ∀ n, n ∈ h.resolved p ↔ n ∈ l) : h.resolved p = l :=
  (h.sorted_resolved p).eq_of_mem_iff hsorted hmem

theorem applyEdits_congr (l : List Nat)
    (hsame : ∀ n ∈ l, (h'.edits[n]?).map TaskEdit.asked = (h.edits[n]?).map TaskEdit.asked)
    (table : Roster) : h'.applyEdits l table = h.applyEdits l table := by
  induction l generalizing table with
  | nil => rfl
  | cons n l ih =>
    have hhead := hsame n List.mem_cons_self
    have hrest := fun table => ih (fun m hm => hsame m (List.mem_cons_of_mem _ hm)) table
    unfold applyEdits at hrest ⊢
    rw [List.foldl_cons, List.foldl_cons, hrest]
    cases he : h.edits[n]? with
    | none =>
      rw [he, Option.map_none, Option.map_eq_none_iff] at hhead
      rw [hhead]
    | some e =>
      rw [he, Option.map_some] at hhead
      obtain ⟨e', he', heq⟩ := Option.map_eq_some_iff.1 hhead
      obtain ⟨href, htracks, hsince⟩ : e'.ref = e.ref ∧ e'.tracks = e.tracks ∧ e'.since = e.since := by
        simpa [TaskEdit.asked] using heq
      rw [he']
      dsimp only
      unfold TaskEdit.apply
      rw [href, htracks, hsince]

theorem applyEdits_append_list (h : RosterHost Etag) (l l' : List Nat) (table : Roster) :
    h.applyEdits (l ++ l') table = h.applyEdits l' (h.applyEdits l table) := List.foldl_append

/-- What a save under way carries. -/
theorem Folded.saves (hfolded : h.Folded p) (hok : h.Ok)
    (hnext : (h.shards p).phase.next = some next) :
    next = h.applyEdits (h.resolved p ++ (h.shards p).phase.batch) .empty := by
  rw [applyEdits_append_list, ← hfolded]
  exact (hok.shards p).next next hnext

/-- What a step does to a shard that writes nothing to the store: the table stays, or a batch
resolves that leaves nothing where nothing is stored. -/
structure Quiet (h h' : RosterHost Etag) (p : String) : Prop where
  folded : h.Folded p → h'.Folded p
  etag : (h'.shards p).etag = (h.shards p).etag
  moved : h'.resolved p = h.resolved p ∧ (h'.shards p).table = (h.shards p).table ∨
    (h.shards p).etag = none ∧ (h'.shards p).table = .empty

theorem Quiet.trans {h₁ h₂ h₃ : RosterHost Etag} (h12 : h₁.Quiet h₂ p) (h23 : h₂.Quiet h₃ p) :
    h₁.Quiet h₃ p := by
  refine ⟨h23.folded ∘ h12.folded, h23.etag.trans h12.etag, ?_⟩
  rcases h23.moved with ⟨hres, htable⟩ | ⟨hnone, hempty⟩
  · rw [hres, htable]
    exact h12.moved
  · exact .inr ⟨h12.etag.symm.trans hnone, hempty⟩

/-- No edit resolves, and none is forgotten. -/
theorem Quiet.of_resolved (hres : h'.resolved p = h.resolved p) (hsame : ∀ n ∈ h.resolved p,
      (h'.edits[n]?).map TaskEdit.asked = (h.edits[n]?).map TaskEdit.asked)
    (htable : (h'.shards p).table = (h.shards p).table)
    (hetag : (h'.shards p).etag = (h.shards p).etag) : h.Quiet h' p := by
  refine ⟨fun hfolded => ?_, hetag, .inl ⟨hres, htable⟩⟩
  unfold Folded
  rw [htable, hres, applyEdits_congr _ hsame]
  exact hfolded

theorem resolved_of_edits (hedits : h'.edits = h.edits) : h'.resolved p = h.resolved p := by
  unfold resolved
  rw [hedits]

theorem Quiet.of_edits (hedits : h'.edits = h.edits)
    (htable : (h'.shards p).table = (h.shards p).table)
    (hetag : (h'.shards p).etag = (h.shards p).etag) : h.Quiet h' p :=
  .of_resolved (resolved_of_edits hedits) (fun n _ => by rw [hedits]) htable hetag

theorem asked_settle (h : RosterHost Etag) (batch : List Nat) (ok : Bool) (n : Nat) :
    ((h.settle batch ok).edits[n]?).map TaskEdit.asked = (h.edits[n]?).map TaskEdit.asked := by
  rw [getElem?_settle, Option.map_map]
  split
  · rfl
  · rfl

section

variable (hok : h.Ok) (hun : h.unsettled p = batch ++ rest)
include hok hun

/-- A batch of a shard leaves what the others have resolved. -/
theorem resolved_settle_ne (hq : q ≠ p) : (h.settle batch ok).resolved q = h.resolved q := by
  refine resolved_eq (h.sorted_resolved q) fun n => ?_
  rw [mem_resolved, mem_resolved]
  constructor
  · rintro ⟨e', he', hshard, hout⟩
    obtain ⟨e, he, href, -, -, -, hout'⟩ := exists_of_settle he'
    have hsame : e.shard = q := by
      rw [TaskEdit.shard, ← href]
      exact hshard
    refine ⟨e, he, hsame, ?_⟩
    rw [if_neg fun hn => hq (hsame.symm.trans (hok.of_mem hun hn he).1)] at hout'
    exact hout'.symm.trans hout
  · rintro ⟨e, he, hshard, hout⟩
    obtain ⟨e', he', href, -, hout'⟩ := exists_settle batch ok he
    refine ⟨e', he', ?_, ?_⟩
    · rw [TaskEdit.shard, href]
      exact hshard
    · rw [if_neg fun hn => hq (hshard.symm.trans (hok.of_mem hun hn he).1)] at hout'
      exact hout'.trans hout

/-- A batch that is rejected resolves nothing. -/
theorem resolved_settle_false (q : String) : (h.settle batch false).resolved q = h.resolved q := by
  refine resolved_eq (h.sorted_resolved q) fun n => ?_
  rw [mem_resolved, mem_resolved]
  constructor
  · rintro ⟨e', he', hshard, hout⟩
    obtain ⟨e, he, href, -, -, -, hout'⟩ := exists_of_settle he'
    refine ⟨e, he, ?_, ?_⟩
    · rw [TaskEdit.shard, ← href]
      exact hshard
    · rw [hout] at hout'
      split at hout'
      · cases hout'
      · exact hout'.symm
  · rintro ⟨e, he, hshard, hout⟩
    obtain ⟨e', he', href, -, hout'⟩ := exists_settle batch false he
    refine ⟨e', he', ?_, ?_⟩
    · rw [TaskEdit.shard, href]
      exact hshard
    · rw [if_neg fun hn => ?_] at hout'
      · exact hout'.trans hout
      · cases hout.symm.trans (hok.of_mem hun hn he).2

/-- A batch that resolves comes behind what has resolved. -/
theorem resolved_settle_true : (h.settle batch true).resolved p = h.resolved p ++ batch := by
  have hsorted := (hok.shards p).sorted
  rw [hun, List.pairwise_append] at hsorted
  refine resolved_eq ?_ fun n => ?_
  · refine List.pairwise_append.2 ⟨h.sorted_resolved p, hsorted.1, fun n hn m hm => ?_⟩
    obtain ⟨e, he, hshard, hout⟩ := mem_resolved.1 hn
    refine (hok.shards p).first n e he hshard (by rw [hout]; exact nofun) m ?_
    rw [hun]
    exact List.mem_append_left _ hm
  · rw [mem_resolved, List.mem_append, mem_resolved]
    constructor
    · rintro ⟨e', he', hshard, hout⟩
      obtain ⟨e, he, href, -, -, -, hout'⟩ := exists_of_settle he'
      by_cases hn : n ∈ batch
      · exact .inr hn
      rw [if_neg hn] at hout'
      refine .inl ⟨e, he, ?_, hout'.symm.trans hout⟩
      rw [TaskEdit.shard, ← href]
      exact hshard
    · rintro (⟨e, he, hshard, hout⟩ | hn)
      · obtain ⟨e', he', href, -, hout'⟩ := exists_settle batch true he
        refine ⟨e', he', ?_, ?_⟩
        · rw [TaskEdit.shard, href]
          exact hshard
        · rw [hout']
          split
          · rfl
          · exact hout
      · have hmem : n ∈ h.unsettled p := by
          rw [hun]
          exact List.mem_append_left _ hn
        obtain ⟨e, he, hshard, -⟩ := ((hok.shards p).mem n).1 hmem
        obtain ⟨e', he', href, -, hout'⟩ := exists_settle batch true he
        rw [if_pos hn] at hout'
        refine ⟨e', he', ?_, hout'⟩
        rw [TaskEdit.shard, href]
        exact hshard

end

/-! ### The steps of a host -/

theorem Quiet.refl (h : RosterHost Etag) (p : String) : h.Quiet h p := .of_edits rfl rfl rfl

/-- A batch is rejected. -/
theorem Quiet.reject (hok : h.Ok) (hun : h.unsettled p = batch ++ rest)
    (htable : shard.table = (h.shards p).table) (hetag : shard.etag = (h.shards p).etag)
    (q : String) : h.Quiet ((h.settle batch false).setShard p shard) q := by
  have hres : ((h.settle batch false).setShard p shard).resolved q = h.resolved q :=
    (resolved_of_edits rfl).trans (resolved_settle_false hok hun q)
  refine .of_resolved hres (fun n _ => asked_settle h batch false n) ?_ ?_
  · rw [setShard_shards]
    split
    · subst q
      exact htable
    · rfl
  · rw [setShard_shards]
    split
    · subst q
      exact hetag
    · rfl

/-- A batch resolves, of another shard. -/
theorem Quiet.resolve_ne (hok : h.Ok) (hun : h.unsettled p = batch ++ rest) (hq : q ≠ p) :
    h.Quiet ((h.settle batch true).setShard p shard) q := by
  have hres : ((h.settle batch true).setShard p shard).resolved q = h.resolved q :=
    (resolved_of_edits rfl).trans (resolved_settle_ne hok hun hq)
  have hshard : ((h.settle batch true).setShard p shard).shards q = h.shards q := if_neg hq
  refine .of_resolved hres (fun n _ => asked_settle h batch true n) ?_ ?_ <;> rw [hshard]

/-- A batch resolves: the table in memory is what has resolved. -/
theorem Folded.resolve (hfolded : h.Folded p) (hok : h.Ok) (hun : h.unsettled p = batch ++ rest)
    (htable : shard.table = h.applyEdits batch (h.shards p).table) :
    ((h.settle batch true).setShard p shard).Folded p := by
  have hshard : ((h.settle batch true).setShard p shard).shards p = shard := if_pos rfl
  have hres : ((h.settle batch true).setShard p shard).resolved p = h.resolved p ++ batch :=
    (resolved_of_edits rfl).trans (resolved_settle_true hok hun)
  have hsame : ∀ n ∈ h.resolved p ++ batch,
      (((h.settle batch true).setShard p shard).edits[n]?).map TaskEdit.asked =
        (h.edits[n]?).map TaskEdit.asked := fun n _ => asked_settle h batch true n
  unfold Folded
  rw [hshard, hres, applyEdits_congr _ hsame, applyEdits_append_list, ← hfolded]
  exact htable

theorem empty_of_keys {table : Roster} (h : table.keys = []) : table = .empty := by
  obtain ⟨entries, hnodup⟩ := table
  obtain rfl : entries = [] := List.map_eq_nil_iff.1 h
  rfl

theorem Quiet.nextBatch (hok : h.Ok) (hidle : (h.shards p).phase.batch = []) (q : String) :
    h.Quiet (h.nextBatch p) q := by
  have hun : h.unsettled p = (h.shards p).pending ++ [] := by
    rw [unsettled, hidle, List.append_nil]
    rfl
  have hphase : ∀ {shard : RosterShard Etag}, shard.table = (h.shards p).table →
      shard.etag = (h.shards p).etag → h.Quiet (h.setShard p shard) q := by
    intro shard htable hetag
    refine .of_edits rfl ?_ ?_
    · rw [setShard_shards]
      split
      · subst q
        exact htable
      · rfl
    · rw [setShard_shards]
      split
      · subst q
        exact hetag
      · rfl
  unfold RosterHost.nextBatch
  dsimp only
  split
  · exact hphase rfl rfl
  split
  · rename_i hempty
    by_cases hq : q = p
    · subst hq
      refine ⟨fun hfolded => hfolded.resolve hok hun rfl, ?_, .inr ⟨?_, ?_⟩⟩
      · rw [setShard_shards, if_pos rfl]
      · exact Option.isNone_iff_eq_none.1 hempty.1
      · rw [setShard_shards, if_pos rfl]
        exact empty_of_keys hempty.2
    · exact .resolve_ne hok hun hq
  · exact hphase rfl rfl

theorem Quiet.failed (hok : h.Ok) (hbatch : (h.shards p).phase.batch = batch)
    (hp : p ∈ reminderShardKeys) (q : String) : h.Quiet (h.failed p batch) q := by
  have hun : h.unsettled p = batch ++ (h.shards p).pending := by rw [unsettled, hbatch]
  have hrejected : ((h.settle batch false).setShard p { h.shards p with phase := .idle }).Ok := by
    refine hok.reject hun rfl rfl ?_ (fun _ => hp)
    intro next hnext
    simp [FlushPhase.next] at hnext
  have hloop := Quiet.nextBatch (p := p) hrejected (by rw [setShard_shards, if_pos rfl]; rfl) q
  have hphase := nextBatch_setPhase (h.settle batch false) p .idle
  have hreject : h.Quiet ((h.settle batch false).setShard p { h.shards p with phase := .idle }) q := by
    refine .reject hok hun ?_ ?_ q <;> rfl
  rw [RosterHost.failed, ← hphase]
  exact hreject.trans hloop

/-- What a batch that is written leaves in memory. -/
theorem Folded.wrote (hfolded : h.Folded p) (hok : h.Ok) (etag : Etag)
    (hbatch : (h.shards p).phase.batch = batch) (hnext : (h.shards p).phase.next = some next)
    (hp : p ∈ reminderShardKeys) : (h.wrote p batch next etag).Folded p ∧
      ((h.wrote p batch next etag).shards p).table = next ∧
      ((h.wrote p batch next etag).shards p).etag = some etag ∧
      ∀ q, q ≠ p → h.Quiet (h.wrote p batch next etag) q := by
  have hun : h.unsettled p = batch ++ (h.shards p).pending := by rw [unsettled, hbatch]
  have htable : next = h.applyEdits batch (h.shards p).table := by
    rw [← hbatch]
    exact (hok.shards p).next next hnext
  let shard : RosterShard Etag := { h.shards p with table := next, etag := some etag, phase := .idle }
  have hwritten : ((h.settle batch true).setShard p shard).Ok := by
    refine hok.settle hun rfl ?_ (fun _ => hp) ?_
    · intro next hnext
      simp [shard, FlushPhase.next] at hnext
    · intro k c hask hc
      show next.has _ = true
      rw [htable]
      exact hok.has_applyEdits hun hask hc
  have hloop := Quiet.nextBatch (p := p) hwritten (by rw [setShard_shards, if_pos rfl]; rfl)
  have hwrote : h.wrote p batch next etag =
      ((h.settle batch true).setShard p shard).nextBatch p := by
    have hphase := nextBatch_setPhase ((h.settle batch true).setShard p
      { h.shards p with table := next, etag := some etag }) p .idle
    rw [RosterHost.wrote, ← hphase, setShard_setShard, setShard_shards, if_pos rfl]
  have hshard : ((h.settle batch true).setShard p shard).shards p = shard := if_pos rfl
  rw [hwrote]
  have hetag := (hloop p).etag
  refine ⟨(hloop p).folded (hfolded.resolve hok hun htable), ?_, ?_, fun q hq => ?_⟩
  · rcases (hloop p).moved with ⟨-, hsame⟩ | ⟨hnone, -⟩
    · rw [hsame, hshard]
    · rw [hshard] at hnone
      cases hnone
  · rw [hetag, hshard]
  · exact (Quiet.resolve_ne hok hun hq).trans (hloop q)

theorem Quiet.mutate {e : TaskEdit} (hout : e.outcome = none) (q : String) :
    h.Quiet (h.mutate e) q := by
  have hedits : (h.mutate e).edits = h.edits ++ [e] := by
    unfold RosterHost.mutate
    dsimp only
    split
    · split <;> rfl
    · rfl
  have hshard : ((h.mutate e).shards q).table = (h.shards q).table ∧
      ((h.mutate e).shards q).etag = (h.shards q).etag := by
    unfold RosterHost.mutate
    dsimp only
    split
    · split
      all_goals
        simp only [setShard_shards]
        split
        · subst q
          exact ⟨rfl, rfl⟩
        · exact ⟨rfl, rfl⟩
    · simp only [setShard_shards]
      split
      · subst q
        exact ⟨rfl, rfl⟩
      · exact ⟨rfl, rfl⟩
  have hold : ∀ n < h.edits.length, (h.mutate e).edits[n]? = h.edits[n]? := fun n hn => by
    rw [hedits, List.getElem?_append_left hn]
  refine .of_resolved (resolved_eq (h.sorted_resolved q) fun n => ?_) (fun n hn => ?_) hshard.1 hshard.2
  · rw [mem_resolved, mem_resolved]
    constructor
    · rintro ⟨c, hc, hcq, hresolved⟩
      rw [hedits] at hc
      rcases of_append_get hc with ⟨-, rfl⟩ | ⟨-, hc⟩
      · cases hout.symm.trans hresolved
      · exact ⟨c, hc, hcq, hresolved⟩
    · rintro ⟨c, hc, hcq, hresolved⟩
      exact ⟨c, hedits ▸ append_get e hc, hcq, hresolved⟩
  · obtain ⟨c, hc, -⟩ := mem_resolved.1 hn
    rw [hold n (List.getElem?_eq_some_iff.1 hc).1]

theorem Quiet.registerFailed (hok : h.Ok) (q : String) : h.Quiet h.registerFailed q := by
  have hgok : Ok { h with registered := .none } := hok.congr rfl rfl
  have hg : h.Quiet { h with registered := .none } q := .of_edits rfl rfl rfl
  unfold RosterHost.registerFailed
  generalize reminderShardKeys = l, ({ h with registered := .none } : RosterHost Etag) = g
    at hgok hg ⊢
  induction l generalizing g with
  | nil => exact hg
  | cons p l ih =>
    rw [List.foldl_cons]
    split
    · rename_i hphase
      have hun : g.unsettled p = (g.shards p).pending ++ [] := by
        rw [unsettled, hphase, List.append_nil]
        rfl
      refine ih _ (hgok.reject hun rfl rfl ?_ (fun hne => absurd rfl hne))
        (hg.trans (.reject hgok hun ?_ ?_ q))
      · intro next hnext
        simp [FlushPhase.next] at hnext
      · rfl
      · rfl
    · exact ih _ hgok hg

theorem Quiet.touchedBy (h : RosterHost Etag) (ref : ActorRef) (q : String) :
    h.Quiet (h.touchedBy ref) q := by
  refine .of_resolved (resolved_eq (h.sorted_resolved q) fun n => ?_) (fun n _ => ?_) rfl rfl
  · rw [mem_resolved, mem_resolved]
    constructor
    · rintro ⟨e', he', hshard, hout⟩
      obtain ⟨e, he, href, -, -, hout', -⟩ := exists_of_touchedBy he'
      refine ⟨e, he, ?_, hout'.symm.trans hout⟩
      rw [TaskEdit.shard, ← href]
      exact hshard
    · rintro ⟨e, he, hshard, hout⟩
      obtain ⟨e', he', href, -, hout'⟩ := exists_touchedBy ref he
      refine ⟨e', he', ?_, hout'.trans hout⟩
      rw [TaskEdit.shard, href]
      exact hshard
  · rw [getElem?_touchedBy, Option.map_map]
    congr 1
    funext e
    dsimp only [Function.comp]
    split <;> rfl

end RosterHost

/-! ## Hosts and the store -/

variable {σ Etag : Type} {store : CasStore σ String Roster Unit Etag}

/-- The roster of a record; where there is none, it is empty. -/
def stored (store : CasStore σ String Roster Unit Etag) (db : σ) (key : String) : Roster :=
  ((store.load db key).map (·.state)).getD .empty

namespace Rosters

/-- A save of a roster that is carried out is answered. -/
def Answered [DecidableEq Etag] (store : CasStore σ String Roster Unit Etag) (s : Rosters σ Etag) :
    RosterLabel → Prop
  | .write n p .lost =>
      match s.hosts[n]? with
      | some h => (h.shards p).etag ≠ store.current s.db (rosterKey h.hostId p)
      | none => True
  | _ => True

instance [DecidableEq Etag] (s : Rosters σ Etag) (l : RosterLabel) :
    Decidable (s.Answered store l) := by
  induction l using RosterLabel.casesOn <;> dsimp only [Answered]
  case write n p fault =>
    induction fault using Fault.casesOn <;> dsimp only
    case lost => exact match s.hosts[n]? with
      | some h => inferInstanceAs (Decidable (_ ≠ _))
      | none => instDecidableTrue
    all_goals infer_instance
  all_goals infer_instance

/-- An adopter writes the record. -/
def Takes (store : CasStore σ String Roster Unit Etag) (s : Rosters σ Etag) (key : String) :
    RosterLabel → Prop
  | .drain n fault => fault ≠ .failed ∧ ∃ h visit record outcomes p rest, s.hosts[n]? = some h ∧
      h.adoption = .saving visit record outcomes ∧ visit.shards = p :: rest ∧
      key = rosterKey visit.hostId p ∧ some record.etag = store.current s.db key
  | _ => False

variable {s t : Rosters σ Etag} {l : RosterLabel} {n m : Nat} {h h' g g' : RosterHost Etag}
  {p : String} {db' : σ}

/-- What a host has in memory is what has resolved, and it holds an etag of whatever is stored. -/
structure Inv (store : CasStore σ String Roster Unit Etag) (s : Rosters σ Etag) : Prop where
  hosts : ∀ (m : Nat) (g : RosterHost Etag), s.hosts[m]? = some g → g.Ok ∧ ∀ p, g.Folded p
  distinct : ∀ (m m' : Nat) (g g' : RosterHost Etag), s.hosts[m]? = some g →
    s.hosts[m']? = some g' → g.hostId = g'.hostId → m = m'
  absent : ∀ (m : Nat) (g : RosterHost Etag), s.hosts[m]? = some g → ∀ p ∈ reminderShardKeys,
    (g.shards p).etag = none → store.load s.db (rosterKey g.hostId p) = none
  unbound : ∀ hostId, (∀ (m : Nat) (g : RosterHost Etag), s.hosts[m]? = some g → g.hostId ≠ hostId) →
    ∀ p ∈ reminderShardKeys, store.load s.db (rosterKey hostId p) = none

/-- A roster is written and is what the host has in memory, or the memory stays, and the record too
unless an adopter writes it. -/
def Advances (store : CasStore σ String Roster Unit Etag) (s : Rosters σ Etag) (l : RosterLabel)
    (t : Rosters σ Etag) : Prop :=
  ∀ (m : Nat) (g : RosterHost Etag), s.hosts[m]? = some g → ∃ g', t.hosts[m]? = some g' ∧
    g'.hostId = g.hostId ∧ ∀ p ∈ reminderShardKeys,
      stored store t.db (rosterKey g.hostId p) = (g'.shards p).table ∨
      g'.resolved p = g.resolved p ∧ (g'.shards p).table = (g.shards p).table ∧
        (store.load t.db (rosterKey g.hostId p) = store.load s.db (rosterKey g.hostId p) ∨
          s.Takes store (rosterKey g.hostId p) l)

/-- A host goes on, and writes no roster. -/
structure Stays (store : CasStore σ String Roster Unit Etag) (db : σ) (g g' : RosterHost Etag) :
    Prop where
  hostId : g'.hostId = g.hostId
  ok : g'.Ok
  folded : ∀ p, g.Folded p → g'.Folded p
  etag : ∀ p, (g'.shards p).etag = (g.shards p).etag ∨
    (g'.shards p).etag = store.current db (rosterKey g.hostId p)
  moved : ∀ p, g'.resolved p = g.resolved p ∧ (g'.shards p).table = (g.shards p).table ∨
    (g.shards p).etag = none ∧ (g'.shards p).table = .empty

variable {db : σ} {fault : Fault}

theorem Stays.of_quiet (hid : g'.hostId = g.hostId) (hok : g'.Ok) (hquiet : ∀ p, g.Quiet g' p) :
    Stays store db g g' :=
  ⟨hid, hok, fun p => (hquiet p).folded, fun p => .inl (hquiet p).etag, fun p => (hquiet p).moved⟩

theorem Stays.refl (hok : g.Ok) : Stays store db g g := .of_quiet rfl hok (.refl g)

theorem stored_of_load {key : String} (h : store.load db key = none) :
    stored store db key = .empty := by
  unfold stored
  rw [h]
  rfl

theorem load_of_current {key : String} (h : store.current db key = none) :
    store.load db key = none := Option.map_eq_none_iff.1 h

/-- Every host goes on, and no roster is written but by an adopter. -/
theorem Inv.stays (hinv : Inv store s) (hlen : t.hosts.length = s.hosts.length)
    (hstays : ∀ (m : Nat) (g : RosterHost Etag), s.hosts[m]? = some g →
      ∃ g', t.hosts[m]? = some g' ∧ Stays store s.db g g')
    (hdb : ∀ hostId, ∀ p ∈ reminderShardKeys,
      store.load t.db (rosterKey hostId p) = store.load s.db (rosterKey hostId p) ∨
        s.Takes store (rosterKey hostId p) l ∧ store.load s.db (rosterKey hostId p) ≠ none) :
    Inv store t ∧ Advances store s l t := by
  have hback : ∀ (m : Nat) (g' : RosterHost Etag), t.hosts[m]? = some g' →
      ∃ g, s.hosts[m]? = some g ∧ Stays store s.db g g' := by
    intro m g' hg'
    have hlt : m < s.hosts.length := hlen ▸ (List.getElem?_eq_some_iff.1 hg').1
    obtain ⟨g'', hg'', hstay⟩ := hstays m _ (List.getElem?_eq_getElem hlt)
    cases hg'.symm.trans hg''
    exact ⟨_, List.getElem?_eq_getElem hlt, hstay⟩
  have hnone : ∀ hostId, ∀ p ∈ reminderShardKeys, store.load s.db (rosterKey hostId p) = none →
      store.load t.db (rosterKey hostId p) = none := by
    intro hostId p hp hload
    rcases hdb hostId p hp with hsame | ⟨-, hsome⟩
    · exact hsame.trans hload
    · exact absurd hload hsome
  refine ⟨⟨fun m g' hg' => ?_, fun m m' g g' hg hg' heq => ?_, fun m g' hg' p hp hetag => ?_,
    fun hostId hfree p hp => ?_⟩, fun m g hg => ?_⟩
  · obtain ⟨g, hg, hstay⟩ := hback m g' hg'
    exact ⟨hstay.ok, fun p => hstay.folded p ((hinv.hosts m g hg).2 p)⟩
  · obtain ⟨c, hc, hstay⟩ := hback m g hg
    obtain ⟨c', hc', hstay'⟩ := hback m' g' hg'
    exact hinv.distinct m m' c c' hc hc' (hstay.hostId.symm.trans (heq.trans hstay'.hostId))
  · obtain ⟨g, hg, hstay⟩ := hback m g' hg'
    rw [hstay.hostId]
    refine hnone _ p hp ?_
    rcases hstay.etag p with hsame | hcurrent
    · exact hinv.absent m g hg p hp (hsame.symm.trans hetag)
    · exact load_of_current (hcurrent.symm.trans hetag)
  · refine hnone _ p hp (hinv.unbound hostId (fun m g hg => ?_) p hp)
    obtain ⟨g', hg', hstay⟩ := hstays m g hg
    rw [← hstay.hostId]
    exact hfree m g' hg'
  · obtain ⟨g', hg', hstay⟩ := hstays m g hg
    refine ⟨g', hg', hstay.hostId, fun p hp => ?_⟩
    rcases hstay.moved p with ⟨hres, htable⟩ | ⟨hetag, hempty⟩
    · exact .inr ⟨hres, htable, (hdb g.hostId p hp).imp_right And.left⟩
    · rw [hempty]
      exact .inl (stored_of_load (hnone _ p hp (hinv.absent m g hg p hp hetag)))

/-! ### One host -/

/-- The host that moves, and the others. -/
theorem getElem?_setHost (hn : s.hosts[n]? = some h) (h' : RosterHost Etag) (m : Nat) :
    (s.setHost n h').hosts[m]? = if m = n then some h' else s.hosts[m]? := by
  split
  · subst m
    exact List.getElem?_set_self (List.getElem?_eq_some_iff.1 hn).1
  · rename_i hm
    exact List.getElem?_set_ne (Ne.symm hm)

/-- One host goes on, and the others stay. -/
theorem Inv.setHost (hinv : Inv store s) (hn : s.hosts[n]? = some h)
    (hstay : Stays store s.db h h')
    (hdb : ∀ hostId, ∀ p ∈ reminderShardKeys,
      store.load db' (rosterKey hostId p) = store.load s.db (rosterKey hostId p) ∨
        s.Takes store (rosterKey hostId p) l ∧ store.load s.db (rosterKey hostId p) ≠ none) :
    Inv store ({ s with db := db' }.setHost n h') ∧
      Advances store s l ({ s with db := db' }.setHost n h') := by
  refine hinv.stays List.length_set (fun m g hg => ?_) hdb
  have hget := getElem?_setHost (s := { s with db := db' }) hn h' m
  split at hget
  · subst m
    cases hn.symm.trans hg
    exact ⟨h', hget, hstay⟩
  · exact ⟨g, hget.trans hg, .refl (hinv.hosts m g hg).1⟩

/-- The same, away from the store. -/
theorem Inv.moves (hinv : Inv store s) (hn : s.hosts[n]? = some h) (hstay : Stays store s.db h h') :
    Inv store (s.setHost n h') ∧ Advances store s l (s.setHost n h') :=
  hinv.setHost hn hstay fun _ _ _ => .inl rfl

theorem Inv.nothing (hinv : Inv store s) : Inv store s ∧ Advances store s l s :=
  hinv.stays rfl (fun m g hg => ⟨g, hg, .refl (hinv.hosts m g hg).1⟩) fun _ _ _ => .inl rfl

/-- A host saves a roster, and knows. -/
theorem Inv.commits (laws : store.RecordLaws) (hinv : Inv store s)
    (hn : s.hosts[n]? = some h) {next : Roster} {expected : Option Etag} {etag : Etag}
    (hp : p ∈ reminderShardKeys)
    (hsave : store.save s.db (rosterKey h.hostId p) next expected = some (db', etag))
    (hid : h'.hostId = h.hostId) (hok : h'.Ok) (hfolded : h'.Folded p)
    (htable : (h'.shards p).table = next) (hetag : (h'.shards p).etag = some etag)
    (hquiet : ∀ q, q ≠ p → h.Quiet h' q) :
    Inv store ({ s with db := db' }.setHost n h') ∧
      Advances store s l ({ s with db := db' }.setHost n h') := by
  have hget := getElem?_setHost (s := { s with db := db' }) hn h'
  have hcases : ∀ {m : Nat} {g : RosterHost Etag},
      (({ s with db := db' } : Rosters σ Etag).setHost n h').hosts[m]? = some g →
      m = n ∧ g = h' ∨ m ≠ n ∧ s.hosts[m]? = some g := by
    intro m g hg
    rw [hget] at hg
    split at hg
    · rename_i hm
      exact .inl ⟨hm, (Option.some.inj hg).symm⟩
    · rename_i hm
      exact .inr ⟨hm, hg⟩
  have hframe : ∀ hostId, ∀ q ∈ reminderShardKeys, (hostId ≠ h.hostId ∨ q ≠ p) →
      store.load (({ s with db := db' } : Rosters σ Etag).setHost n h').db (rosterKey hostId q) =
        store.load s.db (rosterKey hostId q) := by
    intro hostId q hq hne
    refine laws.load_save_frame hsave _ fun hkey => ?_
    obtain ⟨hsame, hsame'⟩ := rosterKey_inj hq hp hkey
    exact hne.elim (fun hne => hne hsame) fun hne => hne hsame'
  have hother : ∀ m g, s.hosts[m]? = some g → m ≠ n → g.hostId ≠ h.hostId :=
    fun m g hg hm heq => hm (hinv.distinct m n g h hg hn heq)
  refine ⟨⟨fun m g hg => ?_, fun m m' g g' hg hg' heq => ?_, fun m g hg q hq hnone => ?_,
    fun hostId hfree q hq => ?_⟩, fun m g hg => ?_⟩
  · rcases hcases hg with ⟨-, rfl⟩ | ⟨-, hg⟩
    · refine ⟨hok, fun q => ?_⟩
      by_cases hq : q = p
      · exact hq ▸ hfolded
      · exact (hquiet q hq).folded ((hinv.hosts n h hn).2 q)
    · exact hinv.hosts m g hg
  · rcases hcases hg with ⟨rfl, rfl⟩ | ⟨hm, hold⟩
    · rcases hcases hg' with ⟨rfl, -⟩ | ⟨hm', hold'⟩
      · rfl
      · exact absurd (heq.symm.trans hid) (hother m' g' hold' hm')
    · rcases hcases hg' with ⟨-, rfl⟩ | ⟨-, hold'⟩
      · exact absurd (heq.trans hid) (hother m g hold hm)
      · exact hinv.distinct m m' g g' hold hold' heq
  · rcases hcases hg with ⟨-, rfl⟩ | ⟨hm, hg⟩
    · by_cases hqp : q = p
      · subst hqp
        cases hetag.symm.trans hnone
      · rw [hid, hframe _ q hq (.inr hqp)]
        exact hinv.absent n h hn q hq ((hquiet q hqp).etag.symm.trans hnone)
    · rw [hframe _ q hq (.inl (hother m g hg hm))]
      exact hinv.absent m g hg q hq hnone
  · have hne : hostId ≠ h.hostId := fun heq => by
      refine hfree n h' ?_ (hid.trans heq.symm)
      rw [hget, if_pos rfl]
    rw [hframe _ q hq (.inl hne)]
    refine hinv.unbound hostId (fun m g hg => ?_) q hq
    by_cases hm : m = n
    · subst hm
      cases hn.symm.trans hg
      exact Ne.symm hne
    · refine hfree m g ?_
      rw [hget, if_neg hm]
      exact hg
  · by_cases hm : m = n
    · subst hm
      cases hn.symm.trans hg
      refine ⟨h', (hget m).trans (if_pos rfl), hid, fun q hq => ?_⟩
      by_cases hqp : q = p
      · subst hqp
        left
        show ((store.load db' _).map _).getD _ = _
        rw [laws.load_save hsave, htable]
        rfl
      · rcases (hquiet q hqp).moved with ⟨hres, hsame⟩ | ⟨hnone, hempty⟩
        · exact .inr ⟨hres, hsame, .inl (hframe _ q hq (.inr hqp))⟩
        rw [hempty]
        refine .inl (stored_of_load ?_)
        exact (hframe _ q hq (.inr hqp)).trans (hinv.absent m h hn q hq hnone)
    · refine ⟨g, (hget m).trans ((if_neg hm).trans hg), rfl, fun q hq => .inr ⟨rfl, rfl, .inl ?_⟩⟩
      exact hframe _ q hq (.inl (hother m g hg hm))

/-! ### Steps -/

theorem Inv.bind {hostId : String} (hinv : Inv store s) (hstep : s.bind hostId = some t) :
    Inv store t ∧ Advances store s l t := by
  obtain ⟨hnew, rfl⟩ := guard_past_taken hstep
  have hfresh : ∀ (m : Nat) (g : RosterHost Etag), s.hosts[m]? = some g → g.hostId ≠ hostId := by
    intro m g hg heq
    exact hnew (.inr (.inr (List.mem_map.2 ⟨g, List.mem_of_getElem? hg, heq⟩)))
  have hbound : ∀ p : String, ({ hostId := hostId } : RosterHost Etag).ShardOk p := by
    intro p
    refine ⟨List.Pairwise.nil, ?_, ?_, ?_, fun hne => absurd rfl hne, ?_⟩
    · simp [RosterHost.unsettled, FlushPhase.batch]
    · simp
    · simp [FlushPhase.next]
    · intro k c hs
      simpa using hs.edit
  refine ⟨⟨fun m g hg => ?_, fun m m' g g' hg hg' heq => ?_, fun m g hg p hp hnone => ?_,
    fun id hfree p hp => ?_⟩, fun m g hg => ⟨g, append_get _ hg, rfl, fun p hp => ?_⟩⟩
  · rcases of_append_get hg with ⟨-, rfl⟩ | ⟨-, hg⟩
    · refine ⟨⟨hbound, fun k e he => ?_⟩, fun p => rfl⟩
      simp at he
    · exact hinv.hosts m g hg
  · rcases of_append_get hg with ⟨hm, rfl⟩ | ⟨-, hold⟩
    · rcases of_append_get hg' with ⟨hm', -⟩ | ⟨-, hold'⟩
      · exact hm.trans hm'.symm
      · exact absurd heq.symm (hfresh m' g' hold')
    · rcases of_append_get hg' with ⟨-, rfl⟩ | ⟨-, hold'⟩
      · exact absurd heq (hfresh m g hold)
      · exact hinv.distinct m m' g g' hold hold' heq
  · rcases of_append_get hg with ⟨-, rfl⟩ | ⟨-, hg⟩
    · exact hinv.unbound hostId hfresh p hp
    · exact hinv.absent m g hg p hp hnone
  · exact hinv.unbound id (fun m g hg => hfree m g (append_get _ hg)) p hp
  · exact .inr ⟨rfl, rfl, .inl rfl⟩

theorem Inv.mutate {e : TaskEdit} (hinv : Inv store s)
    (href : refOf (actorId e.ref) = some e.ref) (hout : e.outcome = none)
    (hstep : s.mutate n e = some t) : Inv store t ∧ Advances store s l t := by
  unfold Rosters.mutate at hstep
  split at hstep
  · rename_i h hn
    cases hstep
    exact hinv.moves hn (.of_quiet (RosterHost.calm_mutate hout).1
      ((hinv.hosts n h hn).1.mutate href hout) (RosterHost.Quiet.mutate hout))
  · cases hstep

theorem Inv.registered (hinv : Inv store s) (hstep : s.registered n p = some t) :
    Inv store t ∧ Advances store s l t := by
  unfold Rosters.registered at hstep
  split at hstep
  · rename_i h hn
    split at hstep
    · rename_i hphase
      cases hstep
      have hok := (hinv.hosts n h hn).1
      have hnext := hok.registered hphase
      exact hinv.moves hn (.of_quiet hnext.calm.1 hnext.ok (.nextBatch hok (by rw [hphase]; rfl)))
    · cases hstep
  · cases hstep

/-- A registration comes to somewhere else. -/
theorem Stays.of_registered (hok : h.Ok) (registered : Registration Etag) :
    Stays store db h { h with registered := registered } :=
  .of_quiet rfl (hok.congr rfl rfl) fun _ => .of_edits rfl rfl rfl

theorem Stays.of_registerFailed (hok : h.Ok) : Stays store db h h.registerFailed :=
  .of_quiet hok.registerFailed.calm.1 hok.registerFailed.ok (.registerFailed hok)

theorem Stays.of_adoption (hok : h.Ok) (adoption : Adoption Etag) :
    Stays store db h { h with adoption := adoption } :=
  .of_quiet rfl (hok.congr rfl rfl) fun _ => .of_edits rfl rfl rfl

theorem Inv.loadIndex (hinv : Inv store s) (hstep : s.loadIndex store n fault = some t) :
    Inv store t ∧ Advances store s l t := by
  unfold Rosters.loadIndex at hstep
  split at hstep
  · rename_i h hn
    have hok := (hinv.hosts n h hn).1
    split at hstep
    · split at hstep
      · dsimp only at hstep
        split at hstep
        all_goals
          cases hstep
          exact hinv.moves hn (.of_registered hok _)
      · cases hstep
        exact hinv.moves hn (.of_registerFailed hok)
    · cases hstep
  · cases hstep

/-- The index is written, and no roster. -/
theorem Inv.indexed (laws : store.RecordLaws) (hinv : Inv store s) (hn : s.hosts[n]? = some h)
    {index : Roster} {expected : Option Etag} {etag : Etag}
    (hsave : store.save s.db rosterIndexKey index expected = some (db', etag))
    (hstay : Stays store s.db h h') :
    Inv store ({ s with db := db' }.setHost n h') ∧
      Advances store s l ({ s with db := db' }.setHost n h') :=
  hinv.setHost hn hstay fun _ _ _ => .inl (laws.load_save_frame hsave _ (rosterKey_ne _ _))

theorem Inv.saveIndex {now : Nat} (laws : store.RecordLaws) (hinv : Inv store s)
    (hstep : s.saveIndex store n now fault = some t) : Inv store t ∧ Advances store s l t := by
  unfold Rosters.saveIndex at hstep
  split at hstep
  · rename_i h hn
    have hok := (hinv.hosts n h hn).1
    split at hstep
    · split at hstep
      · cases hstep
        exact hinv.moves hn (.of_registerFailed hok)
      · split at hstep
        · rename_i hsave
          split at hstep
          · cases hstep
            exact hinv.indexed laws hn hsave (.of_registered hok _)
          · cases hstep
            exact hinv.indexed laws hn hsave (.of_registerFailed hok)
        · split at hstep
          · cases hstep
            exact hinv.moves hn (.of_registered hok _)
          · cases hstep
            exact hinv.moves hn (.of_registerFailed hok)
    · cases hstep
  · cases hstep

/-- A batch is rejected, and the loop goes on. -/
theorem Stays.of_failed {batch : List Nat} (hok : h.Ok) (hbatch : (h.shards p).phase.batch = batch)
    (hp : p ∈ reminderShardKeys) : Stays store db h (h.failed p batch) :=
  .of_quiet (hok.failed hbatch hp).calm.1 (hok.failed hbatch hp).ok (.failed hok hbatch hp)

/-- A conflict is answered: another attempt is made, or the record is loaded before it. -/
theorem Stays.of_phase {phase : FlushPhase} {etag : Option Etag} (hok : h.Ok)
    (hp : p ∈ reminderShardKeys) (hbatch : phase.batch = (h.shards p).phase.batch)
    (hnext : phase.next = (h.shards p).phase.next)
    (hetag : etag = (h.shards p).etag ∨ etag = store.current db (rosterKey h.hostId p)) :
    Stays store db h (h.setShard p { h.shards p with phase := phase, etag := etag }) := by
  have htable : ∀ q, ((h.setShard p { h.shards p with phase := phase, etag := etag }).shards q).table =
      (h.shards q).table := by
    intro q
    rw [RosterHost.setShard_shards]
    split
    · subst q
      rfl
    · rfl
  refine ⟨rfl, hok.setShard ?_ rfl ?_ (fun _ => hp), fun q hfolded => ?_, fun q => ?_,
    fun q => .inl ⟨RosterHost.resolved_of_edits rfl, htable q⟩⟩
  · rw [RosterHost.unsettled, ← hbatch]
  · intro next hnx
    rw [(hok.shards p).next next (hnext.symm.trans hnx), ← hbatch]
  · unfold RosterHost.Folded
    rw [htable q]
    exact hfolded
  · rw [RosterHost.setShard_shards]
    split
    · subst q
      exact hetag
    · exact .inl rfl

theorem Inv.write [DecidableEq Etag] (tokens : store.TokenLaws) (laws : store.RecordLaws)
    (hinv : Inv store s) (hanswered : s.Answered store (.write n p fault))
    (hstep : s.write store n p fault = some t) : Inv store t ∧ Advances store s l t := by
  unfold Rosters.write at hstep
  split at hstep
  · rename_i h hn
    split at hstep
    · rename_i batch next attempt hphase
      obtain ⟨hok, hfolded⟩ := hinv.hosts n h hn
      have hp : p ∈ reminderShardKeys := (hok.shards p).active (by rw [hphase]; simp)
      have hbatch : (h.shards p).phase.batch = batch := by rw [hphase]; rfl
      have hnext : (h.shards p).phase.next = some next := by rw [hphase]; rfl
      split at hstep
      · cases hstep
        exact hinv.moves hn (.of_failed hok hbatch hp)
      · rename_i hfault
        split at hstep
        · rename_i db' etag hsave
          split at hstep
          · cases hstep
            have hwrote := hok.wrote etag hbatch hnext hp
            obtain ⟨hnew, htable, hetag, hquiet⟩ := (hfolded p).wrote hok etag hbatch hnext hp
            exact hinv.commits laws hn hp hsave hwrote.hostId hwrote.ok hnew htable hetag hquiet
          · -- it was carried out, and its answer is lost
            rename_i hlost
            have hcurrent := tokens.save_expected hsave
            cases fault with
            | none => exact absurd rfl hlost
            | failed => exact absurd rfl hfault
            | lost =>
              simp only [Answered, hn] at hanswered
              exact absurd hcurrent hanswered
        · split at hstep
          · cases hstep
            refine hinv.moves hn (.of_phase hok hp ?_ ?_ (.inl rfl))
            all_goals
              rw [hphase]
              rfl
          · cases hstep
            exact hinv.moves hn (.of_failed hok hbatch hp)
    · cases hstep
  · cases hstep

theorem Inv.reload (hinv : Inv store s) (hstep : s.reload store n p fault = some t) :
    Inv store t ∧ Advances store s l t := by
  unfold Rosters.reload at hstep
  split at hstep
  · rename_i h hn
    split at hstep
    · rename_i batch next attempt hphase
      have hok := (hinv.hosts n h hn).1
      have hp : p ∈ reminderShardKeys := (hok.shards p).active (by rw [hphase]; simp)
      have hbatch : (h.shards p).phase.batch = batch := by rw [hphase]; rfl
      split at hstep
      · cases hstep
        refine hinv.moves hn (.of_phase hok hp ?_ ?_ (.inr rfl))
        all_goals
          rw [hphase]
          rfl
      · cases hstep
        exact hinv.moves hn (.of_failed hok hbatch hp)
    · cases hstep
  · cases hstep

/-! ### The adopter -/

section

variable (hinv : Inv store s)
include hinv

theorem Inv.setAdoption (hn : s.hosts[n]? = some h) (adoption : Adoption Etag) :
    Inv store (s.setAdoption n h adoption) ∧ Advances store s l (s.setAdoption n h adoption) :=
  hinv.moves hn (.of_adoption (hinv.hosts n h hn).1 adoption)

theorem Inv.tick (hstep : s.adopt n = some t) : Inv store t ∧ Advances store s l t := by
  unfold Rosters.adopt at hstep
  split at hstep
  · rename_i h hn
    split at hstep
    · cases hstep
      exact hinv.setAdoption hn _
    · cases hstep
      exact hinv.nothing
  · cases hstep

theorem Inv.adoptIndex (hstep : s.adoptIndex store n fault = some t) :
    Inv store t ∧ Advances store s l t := by
  unfold Rosters.adoptIndex at hstep
  split at hstep
  · rename_i h hn
    split at hstep
    · split at hstep
      all_goals
        cases hstep
        exact hinv.setAdoption hn _
    · cases hstep
  · cases hstep

theorem Inv.visit {dead : Bool} (hstep : s.visit n dead = some t) :
    Inv store t ∧ Advances store s l t := by
  unfold Rosters.visit at hstep
  split at hstep
  · rename_i h hn
    split at hstep
    · cases hstep
      exact hinv.setAdoption hn _
    · split at hstep
      all_goals
        cases hstep
        exact hinv.setAdoption hn _
    · cases hstep
  · cases hstep

theorem Inv.loadRoster (hstep : s.loadRoster store n fault = some t) :
    Inv store t ∧ Advances store s l t := by
  unfold Rosters.loadRoster at hstep
  split at hstep
  · rename_i h hn
    split at hstep
    · split at hstep
      · split at hstep
        all_goals
          cases hstep
          exact hinv.setAdoption hn _
      · cases hstep
        exact hinv.setAdoption hn _
    · cases hstep
  · cases hstep

theorem Inv.allSettled (hstep : s.allSettled n = some t) : Inv store t ∧ Advances store s l t := by
  unfold Rosters.allSettled at hstep
  split at hstep
  · rename_i h hn
    split at hstep
    · split at hstep
      · cases hstep
        exact hinv.setAdoption hn _
      · cases hstep
    · cases hstep
  · cases hstep

/-- A touch answers, whoever has asked. -/
theorem Inv.touched (hn : s.hosts[n]? = some h) (adoption : Adoption Etag)
    (ref : ActorRef) : Inv store ((s.setAdoption n h adoption).touched ref) ∧
      Advances store s l ((s.setAdoption n h adoption).touched ref) := by
  have hstay : ∀ g g' : RosterHost Etag, g.Ok → g'.hostId = g.hostId → g'.shards = g.shards →
      g'.edits = g.edits → Stays store s.db g (g'.touchedBy ref) := by
    intro g g' hok hid hshards hedits
    have hsame : g'.Ok := hok.congr hshards hedits
    have hquiet : ∀ q, g.Quiet g' q := fun q =>
      .of_edits hedits (by rw [hshards]) (by rw [hshards])
    exact .of_quiet hid (hsame.touchedBy ref) fun q => (hquiet q).trans (.touchedBy g' ref q)
  refine hinv.stays ?_ (fun m g hg => ?_) fun _ _ _ => .inl rfl
  · show (List.map _ (s.hosts.set n _)).length = _
    rw [List.length_map, List.length_set]
  · have hok := (hinv.hosts m g hg).1
    have hget : ((s.setAdoption n h adoption).touched ref).hosts[m]? =
        ((s.setAdoption n h adoption).hosts[m]?).map (·.touchedBy ref) := List.getElem?_map
    rw [hget, Rosters.setAdoption, getElem?_setHost hn]
    split
    · subst m
      cases hn.symm.trans hg
      refine ⟨_, rfl, hstay h _ hok ?_ ?_ ?_⟩ <;> rfl
    · rw [hg]
      exact ⟨_, rfl, hstay g g hok rfl rfl rfl⟩

theorem Inv.touch {i : Nat} {ok : Bool} (hstep : s.touch n i ok = some t) :
    Inv store t ∧ Advances store s l t := by
  unfold Rosters.touch at hstep
  split at hstep
  · rename_i h hn
    split at hstep
    · split at hstep
      · split at hstep
        · split at hstep
          · cases hstep
            exact hinv.touched hn _ _
          · cases hstep
            exact hinv.setAdoption hn _
        · cases hstep
          exact hinv.setAdoption hn _
      · cases hstep
    · cases hstep
  · cases hstep

end

/-- An adopter drains a shard, if the record is the one that it has loaded. -/
theorem Inv.drain (tokens : store.TokenLaws) (laws : store.RecordLaws) (hinv : Inv store s)
    (hstep : s.drain store n fault = some t) :
    Inv store t ∧ Advances store s (.drain n fault) t := by
  unfold Rosters.drain at hstep
  split at hstep
  · rename_i h hn
    split at hstep
    · rename_i visit record outcomes hsaving
      split at hstep
      · cases hstep
        exact hinv.setAdoption hn _
      · cases hstep
      · rename_i fault _ _ p rest hfault hvisit
        dsimp only at hstep
        split at hstep
        · rename_i db' left hresult
          have hwritten : some record.etag = store.current s.db (rosterKey visit.hostId p) ∧
              ∀ key, key ≠ rosterKey visit.hostId p → store.load db' key = store.load s.db key := by
            split at hresult
            · obtain ⟨db, hclear, heq⟩ := Option.map_eq_some_iff.1 hresult
              cases heq
              exact ⟨tokens.clear_expected hclear, laws.load_clear_frame hclear⟩
            · obtain ⟨⟨db, etag⟩, hsave, heq⟩ := Option.map_eq_some_iff.1 hresult
              cases heq
              exact ⟨tokens.save_expected hsave, laws.load_save_frame hsave⟩
          have hdb : ∀ hostId, ∀ q ∈ reminderShardKeys,
              store.load db' (rosterKey hostId q) = store.load s.db (rosterKey hostId q) ∨
                s.Takes store (rosterKey hostId q) (.drain n fault) ∧
                  store.load s.db (rosterKey hostId q) ≠ none := by
            intro hostId q _
            by_cases hkey : rosterKey hostId q = rosterKey visit.hostId p
            · rw [hkey]
              refine .inr ⟨⟨?_, h, visit, record, outcomes, p, rest, hn, hsaving, hvisit, rfl,
                hwritten.1⟩, fun hnone => ?_⟩
              · exact hfault
              · rw [CasStore.current_eq_none hnone] at hwritten
                cases hwritten.1
            · exact .inl (hwritten.2 _ hkey)
          have hstay := fun adoption =>
            hinv.setHost (l := .drain n fault) hn (.of_adoption (hinv.hosts n h hn).1 adoption) hdb
          split at hstep
          all_goals
            cases hstep
            exact hstay _
        · split at hstep
          all_goals
            cases hstep
            exact hinv.setAdoption hn _
    · cases hstep
  · cases hstep

theorem Inv.loadForget (hinv : Inv store s) (hstep : s.loadForget store n fault = some t) :
    Inv store t ∧ Advances store s l t := by
  unfold Rosters.loadForget at hstep
  split at hstep
  · rename_i h hn
    split at hstep
    · split at hstep
      · split at hstep
        all_goals
          cases hstep
          exact hinv.setAdoption hn _
      · cases hstep
        exact hinv.setAdoption hn _
      · cases hstep
        exact hinv.setAdoption hn _
    · cases hstep
  · cases hstep

theorem Inv.saveForget (laws : store.RecordLaws) (hinv : Inv store s)
    (hstep : s.saveForget store n fault = some t) : Inv store t ∧ Advances store s l t := by
  unfold Rosters.saveForget at hstep
  split at hstep
  · rename_i h hn
    have hok := (hinv.hosts n h hn).1
    split at hstep
    · split at hstep
      · cases hstep
        exact hinv.setAdoption hn _
      · split at hstep
        · rename_i hsave
          split at hstep
          all_goals
            cases hstep
            exact hinv.indexed laws hn hsave (.of_adoption hok _)
        · split at hstep
          all_goals
            cases hstep
            exact hinv.setAdoption hn _
    · cases hstep
  · cases hstep

/-! ## Every run -/

/-- One step lemma for the machine. -/
theorem Inv.next [DecidableEq Etag] (tokens : store.TokenLaws) (laws : store.RecordLaws)
    (hinv : Inv store s) (hanswered : s.Answered store l)
    (hstep : (taskRosters store).step s l = some t) : Inv store t ∧ Advances store s l t := by
  cases l with
  | bind hostId => exact hinv.bind hstep
  | track n type key now =>
    have hmutate : s.mutate n { ref := ⟨type.name, key⟩, tracks := true, since := now } = some t :=
      hstep
    refine hinv.mutate ?_ rfl hmutate
    exact refOf_actorId type key
  | untrack n type key =>
    have hmutate : s.mutate n { ref := ⟨type.name, key⟩, tracks := false, since := 0 } = some t :=
      hstep
    refine hinv.mutate ?_ rfl hmutate
    exact refOf_actorId type key
  | registered n p => exact hinv.registered hstep
  | loadIndex n fault => exact hinv.loadIndex hstep
  | saveIndex n now fault => exact hinv.saveIndex laws hstep
  | write n p fault => exact hinv.write tokens laws hanswered hstep
  | reload n p fault => exact hinv.reload hstep
  | adopt n => exact hinv.tick hstep
  | adoptIndex n fault => exact hinv.adoptIndex hstep
  | visit n dead => exact hinv.visit hstep
  | loadRoster n fault => exact hinv.loadRoster hstep
  | touch n i ok => exact hinv.touch hstep
  | allSettled n => exact hinv.allSettled hstep
  | drain n fault => exact hinv.drain tokens laws hstep
  | loadForget n fault => exact hinv.loadForget hstep
  | saveForget n fault => exact hinv.saveForget laws hstep

theorem inv_initial (hinit : (taskRosters store).initial s) : Inv store s := by
  have hnone : ∀ (m : Nat) (g : RosterHost Etag), ¬ s.hosts[m]? = some g := by
    intro m g hg
    rw [hinit.1] at hg
    cases hg
  refine ⟨fun m g hg => absurd hg (hnone m g), fun m _ g _ hg => absurd hg (hnone m g),
    fun m g hg => absurd hg (hnone m g), fun _ _ _ _ => hinit.2 _⟩

theorem inv_of_reach [DecidableEq Etag] (tokens : store.TokenLaws) (laws : store.RecordLaws)
    (h : (taskRosters store).Reach (Answered store) s) : Inv store s :=
  h.invariant (fun _ => inv_initial)
    (fun _ _ _ hinv hanswered hstep => (hinv.next tokens laws hanswered hstep).1)

/-- Nothing that was rejected is in memory, or in a save under way. -/
structure Clean (s : Rosters σ Etag) : Prop where
  memory : ∀ (n : Nat) (h : RosterHost Etag) (p : String), s.hosts[n]? = some h → h.Folded p
  saves : ∀ (n : Nat) (h : RosterHost Etag) (p : String) (next : Roster), s.hosts[n]? = some h →
    (h.shards p).phase.next = some next →
    next = h.applyEdits (h.resolved p ++ (h.shards p).phase.batch) .empty
  kept : ∀ (n : Nat) (h : RosterHost Etag) (p : String), s.hosts[n]? = some h →
    ∀ k ∈ h.resolved p ++ (h.shards p).phase.batch,
      ∃ e, h.edits[k]? = some e ∧ e.shard = p ∧ e.outcome ≠ some false

theorem Inv.clean (hinv : Inv store s) : s.Clean := by
  refine ⟨fun n h p hn => (hinv.hosts n h hn).2 p, fun n h p next hn hnext => ?_,
    fun n h p hn k hk => ?_⟩
  · exact ((hinv.hosts n h hn).2 p).saves (hinv.hosts n h hn).1 hnext
  · rcases List.mem_append.1 hk with hk | hk
    · obtain ⟨e, he, hshard, hout⟩ := RosterHost.mem_resolved.1 hk
      exact ⟨e, he, hshard, by rw [hout]; exact nofun⟩
    · have hmem : k ∈ h.unsettled p := List.mem_append_left _ hk
      obtain ⟨e, he, hshard, hout⟩ := (((hinv.hosts n h hn).1.shards p).mem k).1 hmem
      exact ⟨e, he, hshard, by rw [hout]; exact nofun⟩

/-- From where the record is what is in memory, it stays so until an adopter writes it. -/
theorem Inv.inForce [DecidableEq Etag] (tokens : store.TokenLaws) (laws : store.RecordLaws)
    (hinv : Inv store s) (hn : s.hosts[n]? = some g) (hp : p ∈ reminderShardKeys)
    (hforce : stored store s.db (rosterKey g.hostId p) = (g.shards p).table)
    (hrun : ((taskRosters store).since s).Reach
      (fun s l => s.Answered store l ∧ ¬ s.Takes store (rosterKey g.hostId p) l) t) :
    ∃ g', t.hosts[n]? = some g' ∧ g'.hostId = g.hostId ∧
      stored store t.db (rosterKey g.hostId p) = (g'.shards p).table := by
  have hall : Inv store t ∧ ∃ g', t.hosts[n]? = some g' ∧ g'.hostId = g.hostId ∧
      stored store t.db (rosterKey g.hostId p) = (g'.shards p).table := by
    induction hrun with
    | start heq =>
      obtain rfl := heq
      exact ⟨hinv, g, hn, rfl, hforce⟩
    | next _ hok hstep ih =>
      obtain ⟨hmid, c, hc, hid, hsame⟩ := ih
      obtain ⟨hnext, hadvances⟩ := hmid.next tokens laws hok.1 hstep
      obtain ⟨c', hc', hid', hwhat⟩ := hadvances n c hc
      refine ⟨hnext, c', hc', hid'.trans hid, ?_⟩
      rw [← hid] at hsame hok ⊢
      rcases hwhat p hp with hwritten | ⟨-, htable, hload | htakes⟩
      · exact hwritten
      · unfold stored at hsame ⊢
        rw [hload, htable]
        exact hsame
      · exact absurd htakes hok.2
  exact hall.2

/-- **Group commit.**  In every run in which each save of a roster that is carried out is answered:
nothing that was rejected is in memory or in a save, a batch that resolves leaves the record as it
is in memory, and so it stays, through every batch, until an adopter writes the record. -/
theorem group_commit [DecidableEq Etag] (tokens : store.TokenLaws) (laws : store.RecordLaws)
    (h : (taskRosters store).Reach (Answered store) s) : s.Clean ∧
    (∀ l t, s.Answered store l → (taskRosters store).step s l = some t →
      ∀ (n : Nat) g g', s.hosts[n]? = some g → t.hosts[n]? = some g' → ∀ p ∈ reminderShardKeys,
        g'.resolved p ≠ g.resolved p →
        stored store t.db (rosterKey g'.hostId p) = (g'.shards p).table) ∧
    (∀ (n : Nat) g, s.hosts[n]? = some g → ∀ p ∈ reminderShardKeys,
      stored store s.db (rosterKey g.hostId p) = (g.shards p).table →
      ∀ t, ((taskRosters store).since s).Reach
        (fun s l => s.Answered store l ∧ ¬ s.Takes store (rosterKey g.hostId p) l) t →
      ∃ g', t.hosts[n]? = some g' ∧ g'.hostId = g.hostId ∧
        stored store t.db (rosterKey g.hostId p) = (g'.shards p).table) ∧
    (∀ hostId t, s.bind hostId = some t → ∀ p ∈ reminderShardKeys,
      stored store t.db (rosterKey hostId p) = .empty) := by
  have hinv := inv_of_reach tokens laws h
  refine ⟨hinv.clean, fun l t hok hstep n g g' hg hg' p hp hnew => ?_,
    fun n g hg p hp hforce t hrun => hinv.inForce tokens laws hg hp hforce hrun,
    fun hostId t hstep p hp => ?_⟩
  · obtain ⟨c, hc, hid, hwhat⟩ := (hinv.next tokens laws hok hstep).2 n g hg
    cases hg'.symm.trans hc
    rw [hid]
    exact (hwhat p hp).resolve_right fun hsame => hnew hsame.1
  · obtain ⟨hnew, rfl⟩ := guard_past_taken hstep
    refine stored_of_load (hinv.unbound hostId (fun m g hg heq => ?_) p hp)
    exact hnew (.inr (.inr (List.mem_map.2 ⟨g, List.mem_of_getElem? hg, heq⟩)))

end Rosters

/-- A save fails, and the next does not. -/
def commitRun : List RosterLabel :=
  [.bind "h", .track 0 jobType "b" 1, .loadIndex 0 .none, .saveIndex 0 2 .none, .registered 0 "p2",
    .write 0 "p2" .failed, .track 0 jobType "b" 3, .registered 0 "p2", .write 0 "p2" .none]

def commitEnd : Rosters (MemoryDb Roster Unit) String :=
  ((taskRosters (memoryStorage Roster Unit)).exec (Rosters.Answered (memoryStorage Roster Unit))
    noRosters commitRun).get (by decide)

theorem group_commit_failed :
    commitEnd.Clean ∧ (commitEnd.hosts.map fun h => h.edits.map (·.outcome)) =
      [[some false, some true]] ∧
      (stored (memoryStorage Roster Unit) commitEnd.db (rosterKey "h" "p2")).entries =
        [(actorId ⟨"job", "b"⟩, 3)] := by
  have hstart : (taskRosters (memoryStorage Roster Unit)).Reach
      (Rosters.Answered (memoryStorage Roster Unit)) noRosters := .start noRosters_initial
  refine ⟨?_, by decide, by decide⟩
  exact (Rosters.group_commit (memoryStorage.tokenLaws _ _) (memoryStorage.recordLaws _ _)
    (hstart.exec_get commitRun (by decide))).1

/-- A track is carried out and reported as failed; its untrack finds nothing to write. -/
def lostRun : List RosterLabel :=
  [.bind "h", .track 0 jobType "b" 1, .loadIndex 0 .none, .saveIndex 0 2 .none, .registered 0 "p2",
    .write 0 "p2" .lost, .untrack 0 jobType "b", .registered 0 "p2"]

def lostEnd : Rosters (MemoryDb Roster Unit) String :=
  ((taskRosters (memoryStorage Roster Unit)).exec (fun _ _ => True) noRosters lostRun).get (by decide)

theorem not_group_commit : (taskRosters (memoryStorage Roster Unit)).Reachable lostEnd ∧
      (lostEnd.hosts.map fun h => h.edits.map fun e => (e.tracks, e.outcome)) =
        [[(true, some false), (false, some true)]] ∧
      (lostEnd.hosts.map fun h => (h.shards "p2").table.entries) = [[]] ∧
      (stored (memoryStorage Roster Unit) lostEnd.db (rosterKey "h" "p2")).entries =
        [(actorId ⟨"job", "b"⟩, 1)] := by
  have hstart : (taskRosters (memoryStorage Roster Unit)).Reachable noRosters :=
    .start noRosters_initial
  exact ⟨hstart.exec_get lostRun (by decide), by decide, by decide, by decide⟩

end SigxActors.Host
