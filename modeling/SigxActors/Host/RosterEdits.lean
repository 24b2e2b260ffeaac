/-
  Host/RosterEdits.lean --- one host and the edits of its roster.

  A track stands when it has resolved and no later edit takes it back.  Whatever batch is
  under way, the table that is in force after it holds every actor whose track stands, so a
  host that writes its table writes them all.  An edit is known by its place among the
  host's: a shard answers them in that order, and what is not answered yet comes last.

  Source: `packages/actors/src/host/task-liveness.ts` (`RosterTaskLiveness`).
-/
import SigxActors.Codec.Fields
import SigxActors.Host.TaskRoster

set_option autoImplicit false

namespace SigxActors.Host

open SigxActors.Js SigxActors.Storage

/-! ## Keys -/

theorem refOf_actorId (type : ActorType) (key : String) :
    refOf (actorId ⟨type.name, key⟩) = some ⟨type.name, key⟩ := by
  have hlist : (actorId ⟨type.name, key⟩).toList = type.name.toList ++ '\x00' :: key.toList := by
    simp [actorId]
  have hhead : (actorId ⟨type.name, key⟩).toList.takeWhile (fun c => c != '\x00') =
      type.name.toList := by
    rw [hlist, List.takeWhile_append_of_pos]
    · simp
    · intro c hc
      have hne : c ≠ '\x00' := fun h => type.nulFree (h ▸ hc)
      simpa using hne
  have hdrop : (actorId ⟨type.name, key⟩).toList.drop (type.name.toList.length + 1) =
      key.toList := by
    rw [hlist, List.drop_append]
    simp
  simp only [refOf, hhead]
  rw [if_pos (by simp [hlist]), hdrop, String.ofList_toList, String.ofList_toList]

theorem toList_rosterKey (hostId p : String) :
    (rosterKey hostId p).toList = hostId.toList ++ '/' :: p.toList := by
  simp [rosterKey]

theorem slash_not_mem {p : String} (hp : p ∈ reminderShardKeys) : '/' ∉ p.toList := by
  revert p
  decide

theorem rosterKey_inj {a b p q : String} (hp : p ∈ reminderShardKeys) (hq : q ∈ reminderShardKeys)
    (h : rosterKey a p = rosterKey b q) : a = b ∧ p = q := by
  have hlist := congrArg String.toList h
  rw [toList_rosterKey, toList_rosterKey] at hlist
  obtain ⟨ha, hs⟩ := Codec.append_cons_inj (slash_not_mem hp) (slash_not_mem hq) hlist
  exact ⟨String.toList_inj.1 ha, String.toList_inj.1 hs⟩

/-- No roster is where the index is. -/
theorem rosterKey_ne (hostId p : String) : rosterKey hostId p ≠ rosterIndexKey := by
  intro h
  have hmem : '/' ∈ rosterIndexKey.toList := by
    rw [← h, toList_rosterKey]
    simp
  exact absurd hmem (by decide)

/-! ## One host -/

/-- The shard of an edit's actor. -/
abbrev TaskEdit.shard (e : TaskEdit) : String := reminderShardOf (actorId e.ref)

/-- The edits that a flush has under way. -/
def FlushPhase.batch : FlushPhase → List Nat
  | .writing batch _ _ => batch
  | .reloading batch _ _ => batch
  | _ => []

/-- What a flush is about to write. -/
def FlushPhase.next : FlushPhase → Option Roster
  | .writing _ next _ => some next
  | .reloading _ next _ => some next
  | _ => none

namespace RosterHost

variable {Etag : Type} {h h' : RosterHost Etag} {p q : String} {batch rest : List Nat}
  {k : Nat} {c c' : TaskEdit} {table next : Roster} {ok : Bool} {shard : RosterShard Etag}

/-- The edits of a shard that have not been answered, oldest first. -/
def unsettled (h : RosterHost Etag) (p : String) : List Nat :=
  (h.shards p).phase.batch ++ (h.shards p).pending

/-- The `k`-th edit is a track, resolved or in the batch, and no later one takes it back. -/
structure Asked (h : RosterHost Etag) (batch : List Nat) (k : Nat) (c : TaskEdit) : Prop where
  edit : h.edits[k]? = some c
  tracks : c.tracks = true
  resolved : k ∈ batch ∨ c.outcome = some true
  last : ∀ j later, k < j → h.edits[j]? = some later → later.ref = c.ref → later.tracks = true

/-- The `k`-th edit is a track that has resolved, and no later one takes it back. -/
structure Stands (h : RosterHost Etag) (k : Nat) (c : TaskEdit) : Prop where
  edit : h.edits[k]? = some c
  tracks : c.tracks = true
  resolved : c.outcome = some true
  last : ∀ j later, k < j → h.edits[j]? = some later → later.ref = c.ref → later.tracks = true

theorem Stands.asked (hs : h.Stands k c) (batch : List Nat) : h.Asked batch k c :=
  { hs with resolved := .inr hs.resolved }

/-- Every identity that was asked for is one that `refOf` reads back. -/
def RefsOk (h : RosterHost Etag) : Prop :=
  ∀ (k : Nat) (e : TaskEdit), h.edits[k]? = some e → refOf (actorId e.ref) = some e.ref

variable {e : TaskEdit} {n : Nat}

theorem RefsOk.ne (hrefs : h.RefsOk) {j : Nat} (hc : h.edits[k]? = some c)
    (he : h.edits[j]? = some e) (hne : e.ref ≠ c.ref) : actorId c.ref ≠ actorId e.ref := by
  intro hid
  have href := hrefs k c hc
  rw [hid, hrefs j e he] at href
  exact hne (Option.some.inj href)

/-! ### What a batch leaves -/

/-- Edits after the last on an actor leave the actor in. -/
theorem has_applyEdits_of_lt (hrefs : h.RefsOk) (hask : h.Asked batch k c) :
    ∀ (l : List Nat) (table : Roster), (∀ j ∈ l, k < j) → table.has (actorId c.ref) = true →
      (h.applyEdits l table).has (actorId c.ref) = true := by
  intro l
  induction l with
  | nil => exact fun _ _ htable => htable
  | cons j l ih =>
    intro table hlt htable
    refine ih _ (fun i hi => hlt i (List.mem_cons_of_mem _ hi)) ?_
    have hj : k < j := hlt j List.mem_cons_self
    cases he : h.edits[j]? with
    | none => simpa only [he] using htable
    | some e =>
      simp only [he, TaskEdit.apply]
      by_cases href : e.ref = c.ref
      · rw [if_pos (hask.last j e hj he href)]
        exact JsMap.has_set _ _ htable
      · split
        · exact JsMap.has_set _ _ htable
        · exact JsMap.has_erase (hrefs.ne hask.edit he href) htable

/-- A batch in order leaves what it asks for last. -/
theorem has_applyEdits_of_mem (hrefs : h.RefsOk) (hask : h.Asked batch k c) :
    ∀ (l : List Nat) (table : Roster), l.Pairwise (· < ·) → k ∈ l →
      (h.applyEdits l table).has (actorId c.ref) = true := by
  intro l
  induction l with
  | nil =>
    intro _ _ hk
    simp at hk
  | cons j l ih =>
    intro table hsorted hk
    rw [List.pairwise_cons] at hsorted
    rcases List.mem_cons.1 hk with rfl | hk
    · refine has_applyEdits_of_lt hrefs hask l _ hsorted.1 ?_
      simp [hask.edit, TaskEdit.apply, hask.tracks]
    · exact ih _ hsorted.2 hk

/-! ### The invariant -/

/-- What holds of a shard between any two steps. -/
structure ShardOk (h : RosterHost Etag) (p : String) : Prop where
  sorted : (h.unsettled p).Pairwise (· < ·)
  mem : ∀ n, n ∈ h.unsettled p ↔
    ∃ e, h.edits[n]? = some e ∧ e.shard = p ∧ e.outcome = none
  /-- What has been answered came first. -/
  first : ∀ n e, h.edits[n]? = some e → e.shard = p → e.outcome ≠ none →
    ∀ j ∈ h.unsettled p, n < j
  next : ∀ next, (h.shards p).phase.next = some next →
    next = h.applyEdits (h.shards p).phase.batch (h.shards p).table
  active : (h.shards p).phase ≠ .idle → p ∈ reminderShardKeys
  stands : ∀ k c, h.Stands k c → c.shard = p → (h.shards p).table.has (actorId c.ref) = true

structure Ok (h : RosterHost Etag) : Prop where
  shards : ∀ p, h.ShardOk p
  refs : h.RefsOk

/-- The batch at the head of what is not answered leaves every actor in that is asked for. -/
theorem Ok.has_applyEdits (hok : h.Ok) (hun : h.unsettled p = batch ++ rest)
    (hask : h.Asked batch k c) (hshard : c.shard = p) :
    (h.applyEdits batch (h.shards p).table).has (actorId c.ref) = true := by
  have hsorted := (hok.shards p).sorted
  rw [hun, List.pairwise_append] at hsorted
  by_cases hk : k ∈ batch
  · exact has_applyEdits_of_mem hok.refs hask batch _ hsorted.1 hk
  have hresolved : c.outcome = some true := hask.resolved.resolve_left hk
  have hstands : h.Stands k c := { hask with resolved := hresolved }
  refine has_applyEdits_of_lt hok.refs hask batch _ ?_ ((hok.shards p).stands k c hstands hshard)
  intro j hj
  refine (hok.shards p).first k c hask.edit hshard (by rw [hresolved]; simp) j ?_
  rw [hun]
  exact List.mem_append_left _ hj

/-! ### What a step may do to the edits -/

/-- No track stands that did not, and none is less answered than it was. -/
def Calm (h h' : RosterHost Etag) : Prop :=
  h'.hostId = h.hostId ∧
    ∀ k c', h'.Stands k c' → ∃ c, h.Stands k c ∧ c'.ref = c.ref ∧ (c.touched = true → c'.touched = true)

theorem Calm.refl (h : RosterHost Etag) : h.Calm h :=
  ⟨rfl, fun _ c hs => ⟨c, hs, rfl, id⟩⟩

theorem Calm.trans {h₁ h₂ h₃ : RosterHost Etag} (h12 : h₁.Calm h₂) (h23 : h₂.Calm h₃) : h₁.Calm h₃ := by
  refine ⟨h23.1.trans h12.1, ?_⟩
  intro k c₃ hs₃
  obtain ⟨c₂, hs₂, href₂, ht₂⟩ := h23.2 k c₃ hs₃
  obtain ⟨c₁, hs₁, href₁, ht₁⟩ := h12.2 k c₂ hs₂
  exact ⟨c₁, hs₁, href₂.trans href₁, ht₂ ∘ ht₁⟩

theorem getElem?_settle (h : RosterHost Etag) (batch : List Nat) (ok : Bool) (n : Nat) :
    (h.settle batch ok).edits[n]? =
      (h.edits[n]?).map fun e => if n ∈ batch then { e with outcome := some ok } else e := by
  simp [settle, List.getElem?_mapIdx]

/-- An edit after a batch settles is one from before. -/
theorem exists_of_settle (he : (h.settle batch ok).edits[n]? = some e) :
    ∃ old, h.edits[n]? = some old ∧ e.ref = old.ref ∧ e.tracks = old.tracks ∧
      e.since = old.since ∧ e.touched = old.touched ∧
      e.outcome = if n ∈ batch then some ok else old.outcome := by
  rw [getElem?_settle] at he
  obtain ⟨old, hold, rfl⟩ := Option.map_eq_some_iff.1 he
  refine ⟨old, hold, ?_⟩
  split <;> exact ⟨rfl, rfl, rfl, rfl, rfl⟩

theorem exists_settle (batch : List Nat) (ok : Bool) (he : h.edits[n]? = some e) :
    ∃ e', (h.settle batch ok).edits[n]? = some e' ∧ e'.ref = e.ref ∧
      e'.tracks = e.tracks ∧ e'.outcome = if n ∈ batch then some ok else e.outcome := by
  rw [getElem?_settle, he]
  refine ⟨_, rfl, ?_⟩
  split <;> exact ⟨rfl, rfl, rfl⟩

/-- What stands once a batch has resolved was asked for. -/
theorem asked_of_settle (hs : (h.settle batch ok).Stands k c') :
    ∃ c, h.Asked (if ok then batch else []) k c ∧ c'.ref = c.ref ∧ c'.touched = c.touched := by
  obtain ⟨c, hc, href, htracks, -, htouched, hout⟩ := exists_of_settle hs.edit
  refine ⟨c, ⟨hc, htracks.symm.trans hs.tracks, ?_, ?_⟩, href, htouched⟩
  · have hresolved := hs.resolved
    rw [hout] at hresolved
    split at hresolved
    · rename_i hk
      obtain rfl : ok = true := Option.some.inj hresolved
      exact .inl hk
    · exact .inr hresolved
  · intro j later hj hlater hl
    obtain ⟨later', hlater', href', htracks', -⟩ := exists_settle batch ok hlater
    rw [← htracks']
    exact hs.last j later' hj hlater' (href'.trans (hl.trans href.symm))

theorem applyEdits_settle (h : RosterHost Etag) (batch l : List Nat) (ok : Bool) (table : Roster) :
    (h.settle batch ok).applyEdits l table = h.applyEdits l table := by
  unfold applyEdits
  congr 1
  funext table n
  cases hn : h.edits[n]? with
  | none =>
    rw [getElem?_settle, hn]
    rfl
  | some e =>
    rw [getElem?_settle, hn, Option.map_some]
    by_cases hb : n ∈ batch
    · rw [if_pos hb]
      rfl
    · rw [if_neg hb]

/-! ### The steps of a shard -/

@[simp] theorem setShard_shards (h : RosterHost Etag) (p q : String) (shard : RosterShard Etag) :
    (h.setShard p shard).shards q = if q = p then shard else h.shards q := rfl

theorem setShard_setShard (h : RosterHost Etag) (p : String) (a b : RosterShard Etag) :
    (h.setShard p a).setShard p b = h.setShard p b := by
  unfold setShard
  congr 1
  funext q
  by_cases hq : q = p
  · rw [if_pos hq, if_pos hq]
  · rw [if_neg hq, if_neg hq]
    exact if_neg hq

theorem Stands.congr (hedits : h'.edits = h.edits) (hs : h'.Stands k c) : h.Stands k c :=
  ⟨hedits ▸ hs.edit, hs.tracks, hs.resolved, hedits ▸ hs.last⟩

theorem Stands.of_setShard (hs : (h.setShard p shard).Stands k c) : h.Stands k c := by
  have hedits : (h.setShard p shard).edits = h.edits := rfl
  exact hs.congr hedits

theorem Calm.of_edits (hid : h'.hostId = h.hostId) (hedits : h'.edits = h.edits) : h.Calm h' :=
  ⟨hid, fun _ c hs => ⟨c, hs.congr hedits, rfl, id⟩⟩

/-- What is in the batch is of the shard and not answered. -/
theorem Ok.of_mem (hok : h.Ok) (hun : h.unsettled p = batch ++ rest) (hn : n ∈ batch)
    (he : h.edits[n]? = some e) : e.shard = p ∧ e.outcome = none := by
  obtain ⟨e', he', hshard, hout⟩ := ((hok.shards p).mem n).1 (by rw [hun]; exact List.mem_append_left _ hn)
  rw [he] at he'
  cases he'
  exact ⟨hshard, hout⟩

/-- The edits of a shard settle from the first on, and the table in force holds whoever
stands after that. -/
theorem Ok.settle (hok : h.Ok) (hun : h.unsettled p = batch ++ rest)
    (hrest : shard.phase.batch ++ shard.pending = rest)
    (hnext : ∀ next, shard.phase.next = some next →
      next = h.applyEdits shard.phase.batch shard.table)
    (hactive : shard.phase ≠ .idle → p ∈ reminderShardKeys)
    (hstands : ∀ k c, h.Asked (if ok then batch else []) k c → c.shard = p →
      shard.table.has (actorId c.ref) = true) :
    ((h.settle batch ok).setShard p shard).Ok := by
  have hsorted := (hok.shards p).sorted
  rw [hun, List.pairwise_append] at hsorted
  refine ⟨?_, ?_⟩
  · intro q
    by_cases hq : q = p
    · subst hq
      have hshard : ((h.settle batch ok).setShard q shard).shards q = shard := if_pos rfl
      have hunq : ((h.settle batch ok).setShard q shard).unsettled q = rest := by
        rw [unsettled, hshard, hrest]
      constructor
      case sorted =>
        rw [hunq]
        exact hsorted.2.1
      case mem =>
        intro n
        rw [hunq]
        constructor
        · intro hn
          obtain ⟨e, he, hes, hout⟩ := ((hok.shards q).mem n).1 (by rw [hun]; exact List.mem_append_right _ hn)
          obtain ⟨e', he', href, -, hout'⟩ := exists_settle batch ok he
          have hbatch : n ∉ batch := fun hb => Nat.lt_irrefl n (hsorted.2.2 n hb n hn)
          rw [if_neg hbatch] at hout'
          exact ⟨e', he', by rw [TaskEdit.shard, href]; exact hes, hout'.trans hout⟩
        · rintro ⟨e', he', hes, hout'⟩
          obtain ⟨e, he, href, -, -, -, hout⟩ := exists_of_settle he'
          have hbatch : n ∉ batch := by
            intro hb
            rw [hout', if_pos hb] at hout
            simp at hout
          rw [if_neg hbatch] at hout
          have hmem := ((hok.shards q).mem n).2
            ⟨e, he, by rw [TaskEdit.shard, ← href]; exact hes, hout.symm.trans hout'⟩
          rw [hun, List.mem_append] at hmem
          exact hmem.resolve_left hbatch
      case first =>
        intro n e' he' hes hout' j hj
        rw [hunq] at hj
        obtain ⟨e, he, href, -, -, -, hout⟩ := exists_of_settle he'
        by_cases hb : n ∈ batch
        · exact hsorted.2.2 n hb j hj
        rw [if_neg hb] at hout
        refine (hok.shards q).first n e he ?_ (hout ▸ hout') j ?_
        · rw [TaskEdit.shard, ← href]
          exact hes
        · rw [hun]
          exact List.mem_append_right _ hj
      case next =>
        intro next hnx
        rw [hshard] at hnx ⊢
        exact (hnext next hnx).trans (applyEdits_settle h batch _ ok _).symm
      case active =>
        rw [hshard]
        exact hactive
      case stands =>
        intro k c' hs hc'
        obtain ⟨c, hask, href, -⟩ := asked_of_settle hs.of_setShard
        rw [hshard, href]
        exact hstands k c hask (by rw [TaskEdit.shard, ← href]; exact hc')
    · have hshard : ((h.settle batch ok).setShard p shard).shards q = h.shards q := if_neg hq
      have hunq : ((h.settle batch ok).setShard p shard).unsettled q = h.unsettled q := by
        rw [unsettled, hshard, unsettled]
      -- the batch is of another shard
      have hother : ∀ n e, h.edits[n]? = some e → e.shard = q → n ∉ batch := by
        intro n e he hes hb
        exact hq (hes.symm.trans (hok.of_mem hun hb he).1)
      constructor
      case sorted =>
        rw [hunq]
        exact (hok.shards q).sorted
      case mem =>
        intro n
        rw [hunq, (hok.shards q).mem n]
        constructor
        · rintro ⟨e, he, hes, hout⟩
          obtain ⟨e', he', href, -, hout'⟩ := exists_settle batch ok he
          rw [if_neg (hother n e he hes)] at hout'
          exact ⟨e', he', by rw [TaskEdit.shard, href]; exact hes, hout'.trans hout⟩
        · rintro ⟨e', he', hes, hout'⟩
          obtain ⟨e, he, href, -, -, -, hout⟩ := exists_of_settle he'
          have hes' : e.shard = q := by
            rw [TaskEdit.shard, ← href]
            exact hes
          rw [if_neg (hother n e he hes')] at hout
          exact ⟨e, he, hes', hout.symm.trans hout'⟩
      case first =>
        intro n e' he' hes hout' j hj
        rw [hunq] at hj
        obtain ⟨e, he, href, -, -, -, hout⟩ := exists_of_settle he'
        have hes' : e.shard = q := by
          rw [TaskEdit.shard, ← href]
          exact hes
        rw [if_neg (hother n e he hes')] at hout
        exact (hok.shards q).first n e he hes' (hout ▸ hout') j hj
      case next =>
        intro next hnx
        rw [hshard] at hnx ⊢
        exact ((hok.shards q).next next hnx).trans (applyEdits_settle h batch _ ok _).symm
      case active =>
        rw [hshard]
        exact (hok.shards q).active
      case stands =>
        intro k c' hs hc'
        obtain ⟨c, hask, href, -⟩ := asked_of_settle hs.of_setShard
        have hc : c.shard = q := by
          rw [TaskEdit.shard, ← href]
          exact hc'
        have hk : k ∉ (if ok then batch else []) := by
          split
          · exact hother k c hask.edit hc
          · simp
        rw [hshard, href]
        exact (hok.shards q).stands k c { hask with resolved := hask.resolved.resolve_left hk } hc
  · intro n e' he'
    obtain ⟨e, he, href, -⟩ := exists_of_settle he'
    rw [href]
    exact hok.refs n e he

theorem settle_nil (h : RosterHost Etag) (ok : Bool) : h.settle [] ok = h := by
  have hedits : (h.settle [] ok).edits = h.edits := by
    refine List.ext_getElem? fun n => ?_
    rw [getElem?_settle]
    cases h.edits[n]? with
    | none => rfl
    | some e => simp
  exact congrArg (fun edits => { h with edits := edits }) hedits

/-- A batch is rejected: the table in force stays. -/
theorem Ok.reject (hok : h.Ok) (hun : h.unsettled p = batch ++ rest)
    (hrest : shard.phase.batch ++ shard.pending = rest) (htable : shard.table = (h.shards p).table)
    (hnext : ∀ next, shard.phase.next = some next →
      next = h.applyEdits shard.phase.batch shard.table)
    (hactive : shard.phase ≠ .idle → p ∈ reminderShardKeys) :
    ((h.settle batch false).setShard p shard).Ok := by
  refine hok.settle hun hrest hnext hactive ?_
  intro k c hask hc
  have hresolved : c.outcome = some true := hask.resolved.resolve_left (by simp)
  rw [htable]
  exact (hok.shards p).stands k c { hask with resolved := hresolved } hc

/-- A shard is given a phase, with nothing answered. -/
theorem Ok.setShard (hok : h.Ok) (hun : h.unsettled p = shard.phase.batch ++ shard.pending)
    (htable : shard.table = (h.shards p).table) (hnext : ∀ next, shard.phase.next = some next →
      next = h.applyEdits shard.phase.batch shard.table)
    (hactive : shard.phase ≠ .idle → p ∈ reminderShardKeys) : (h.setShard p shard).Ok := by
  have hnone : h.unsettled p = [] ++ (shard.phase.batch ++ shard.pending) := hun
  have hset := hok.reject hnone rfl htable hnext hactive
  rwa [settle_nil] at hset

theorem calm_settle_false (h : RosterHost Etag) (batch : List Nat) : h.Calm (h.settle batch false) := by
  refine ⟨rfl, ?_⟩
  intro k c' hs
  obtain ⟨c, hask, href, htouched⟩ := asked_of_settle hs
  have hresolved : c.outcome = some true := hask.resolved.resolve_left (by simp)
  exact ⟨c, { hask with resolved := hresolved }, href, fun ht => htouched.trans ht⟩

/-- What the loop of a flush leaves, whatever the phase was. -/
structure NextBatch (h h' : RosterHost Etag) : Prop where
  ok : h'.Ok
  calm : h.Calm h'
  adoption : h'.adoption = h.adoption
  registered : h'.registered = h.registered

theorem Ok.nextBatch (hok : h.Ok) (hidle : (h.shards p).phase.batch = [])
    (hp : p ∈ reminderShardKeys) : h.NextBatch (h.nextBatch p) := by
  have hun : h.unsettled p = (h.shards p).pending := by
    rw [unsettled, hidle, List.nil_append]
  unfold RosterHost.nextBatch
  dsimp only
  split
  · refine ⟨hok.setShard hun rfl ?_ (fun _ => hp), .of_edits rfl rfl, rfl, rfl⟩
    intro next hnext
    simp [FlushPhase.next] at hnext
  · split
    · rename_i hempty
      have hrest : h.unsettled p = (h.shards p).pending ++ [] := by rw [hun, List.append_nil]
      refine ⟨hok.settle hrest rfl ?_ (fun _ => hp) ?_, ⟨rfl, ?_⟩, rfl, rfl⟩
      · intro next hnext
        simp [FlushPhase.next] at hnext
      · intro k c hask hc
        exact hok.has_applyEdits hrest hask hc
      · intro k c' hs
        obtain ⟨c, hask, href, htouched⟩ := asked_of_settle hs.of_setShard
        refine ⟨c, { hask with resolved := ?_ }, href, fun ht => htouched.trans ht⟩
        refine hask.resolved.resolve_left ?_
        -- a batch that asks for an actor leaves an entry
        intro hk
        have hhas := hok.has_applyEdits hrest hask (hok.of_mem hrest hk hask.edit).1
        rw [JsMap.has_iff_mem_keys, hempty.2] at hhas
        simp at hhas
    · refine ⟨hok.setShard ?_ rfl ?_ (fun _ => hp), .of_edits rfl rfl, rfl, rfl⟩
      · rw [hun]
        exact (List.append_nil _).symm
      · intro next hnext
        exact (Option.some.inj hnext).symm

theorem NextBatch.of_calm {h₁ : RosterHost Etag} (hn : h₁.NextBatch h') (hcalm : h.Calm h₁)
    (hadoption : h₁.adoption = h.adoption) (hregistered : h₁.registered = h.registered) :
    h.NextBatch h' :=
  ⟨hn.ok, hcalm.trans hn.calm, hn.adoption.trans hadoption, hn.registered.trans hregistered⟩

/-- The loop does not look at the phase. -/
theorem nextBatch_setPhase (h : RosterHost Etag) (p : String) (phase : FlushPhase) :
    (h.setShard p { h.shards p with phase := phase }).nextBatch p = h.nextBatch p := by
  unfold RosterHost.nextBatch
  simp only [setShard_shards, if_true, setShard_setShard]
  have happly : ∀ l table, (h.setShard p { h.shards p with phase := phase }).applyEdits l table =
      h.applyEdits l table := fun _ _ => rfl
  have hsettle : ∀ l ok a,
      ((h.setShard p { h.shards p with phase := phase }).settle l ok).setShard p a =
        (h.settle l ok).setShard p a := fun l ok a => setShard_setShard (h.settle l ok) p _ a
  simp only [happly, hsettle]

theorem Ok.registered (hok : h.Ok) (hphase : (h.shards p).phase = .registering) :
    h.NextBatch (h.nextBatch p) :=
  hok.nextBatch (by rw [hphase]; rfl) ((hok.shards p).active (by rw [hphase]; simp))

theorem Ok.failed (hok : h.Ok) (hbatch : (h.shards p).phase.batch = batch)
    (hp : p ∈ reminderShardKeys) : h.NextBatch (h.failed p batch) := by
  have hun : h.unsettled p = batch ++ (h.shards p).pending := by rw [unsettled, hbatch]
  have hrejected : ((h.settle batch false).setShard p { h.shards p with phase := .idle }).Ok := by
    refine hok.reject hun rfl rfl ?_ (fun _ => hp)
    intro next hnext
    simp [FlushPhase.next] at hnext
  have hloop := hrejected.nextBatch (p := p) (by rw [setShard_shards, if_pos rfl]; rfl) hp
  have hcalm : h.Calm ((h.settle batch false).setShard p { h.shards p with phase := .idle }) :=
    (calm_settle_false h batch).trans (.of_edits rfl rfl)
  have hphase := nextBatch_setPhase (h.settle batch false) p .idle
  rw [RosterHost.failed, ← hphase]
  exact hloop.of_calm hcalm rfl rfl

/-- What a batch that is written leaves. -/
structure Wrote (h h' : RosterHost Etag) (p : String) (next : Roster) : Prop where
  ok : h'.Ok
  hostId : h'.hostId = h.hostId
  adoption : h'.adoption = h.adoption
  registered : h'.registered = h.registered
  stands : ∀ k c', h'.Stands k c' → c'.shard = p → next.has (actorId c'.ref) = true
  calm : ∀ k c', h'.Stands k c' → c'.shard ≠ p →
    ∃ c, h.Stands k c ∧ c'.ref = c.ref ∧ (c.touched = true → c'.touched = true)

theorem Ok.wrote (hok : h.Ok) (etag : Etag) (hbatch : (h.shards p).phase.batch = batch)
    (hnext : (h.shards p).phase.next = some next) (hp : p ∈ reminderShardKeys) :
    h.Wrote (h.wrote p batch next etag) p next := by
  have hun : h.unsettled p = batch ++ (h.shards p).pending := by rw [unsettled, hbatch]
  let shard : RosterShard Etag := { h.shards p with table := next, etag := some etag, phase := .idle }
  have hwritten : ((h.settle batch true).setShard p shard).Ok := by
    refine hok.settle hun rfl ?_ (fun _ => hp) ?_
    · intro next hnext
      simp [shard, FlushPhase.next] at hnext
    · intro k c hask hc
      have htable : shard.table = h.applyEdits batch (h.shards p).table := by
        rw [← hbatch]
        exact (hok.shards p).next next hnext
      rw [htable]
      exact hok.has_applyEdits hun hask hc
  have hloop := hwritten.nextBatch (p := p) (by rw [setShard_shards, if_pos rfl]; rfl) hp
  have hwrote : h.wrote p batch next etag =
      ((h.settle batch true).setShard p shard).nextBatch p := by
    have hphase := nextBatch_setPhase ((h.settle batch true).setShard p
      { h.shards p with table := next, etag := some etag }) p .idle
    rw [RosterHost.wrote, ← hphase, setShard_setShard, setShard_shards, if_pos rfl]
  rw [hwrote]
  refine { hloop with hostId := hloop.calm.1, stands := ?_, calm := ?_ }
  · intro k c' hs hc'
    obtain ⟨c, hs', href, -⟩ := hloop.calm.2 k c' hs
    have hhas := (hwritten.shards p).stands k c hs' (by rw [TaskEdit.shard, ← href]; exact hc')
    rw [setShard_shards, if_pos rfl] at hhas
    rw [href]
    exact hhas
  · intro k c' hs hc'
    obtain ⟨c₁, hs', href, htouched⟩ := hloop.calm.2 k c' hs
    obtain ⟨c, hask, href₁, htouched₁⟩ := asked_of_settle hs'.of_setShard
    have hk : k ∉ batch := by
      intro hk
      have hshard := (hok.of_mem hun hk hask.edit).1
      rw [TaskEdit.shard, ← href₁, ← href] at hshard
      exact hc' hshard
    exact ⟨c, { hask with resolved := hask.resolved.resolve_left hk }, href.trans href₁,
      fun ht => htouched (htouched₁.trans ht)⟩

/-- A batch that is written and not known to be holds whoever stands. -/
theorem Ok.has_next (hok : h.Ok) (hnext : (h.shards p).phase.next = some next)
    (hs : h.Stands k c) (hc : c.shard = p) : next.has (actorId c.ref) = true := by
  rw [(hok.shards p).next next hnext]
  exact hok.has_applyEdits rfl (hs.asked _) hc

/-! ### The other steps of a host -/

theorem ShardOk.congr (hok : h.ShardOk p) (hshard : h'.shards p = h.shards p)
    (hedits : h'.edits = h.edits) : h'.ShardOk p := by
  have hun : h'.unsettled p = h.unsettled p := by rw [unsettled, hshard, unsettled]
  have happly : ∀ l table, h'.applyEdits l table = h.applyEdits l table := by
    intro l table
    rw [applyEdits, hedits, applyEdits]
  constructor
  case sorted =>
    rw [hun]
    exact hok.sorted
  case mem =>
    rw [hun, hedits]
    exact hok.mem
  case first =>
    rw [hun, hedits]
    exact hok.first
  case next =>
    rw [hshard]
    intro next hnext
    exact (hok.next next hnext).trans (happly _ _).symm
  case active =>
    rw [hshard]
    exact hok.active
  case stands =>
    intro k c hs hc
    rw [hshard]
    exact hok.stands k c (hs.congr hedits) hc

theorem Ok.congr (hok : h.Ok) (hshards : h'.shards = h.shards) (hedits : h'.edits = h.edits) :
    h'.Ok := by
  refine ⟨fun p => (hok.shards p).congr (by rw [hshards]) hedits, ?_⟩
  intro k e he
  rw [hedits] at he
  exact hok.refs k e he

/-- An edit behind the others leaves what they come to. -/
theorem applyEdits_append (h : RosterHost Etag) (e : TaskEdit) :
    ∀ (l : List Nat) (table : Roster), (∀ n ∈ l, n < h.edits.length) →
      ({ h with edits := h.edits ++ [e] } : RosterHost Etag).applyEdits l table =
        h.applyEdits l table := by
  intro l
  induction l with
  | nil => exact fun _ _ => rfl
  | cons n l ih =>
    intro table hlt
    have hn : (h.edits ++ [e])[n]? = h.edits[n]? :=
      List.getElem?_append_left (hlt n List.mem_cons_self)
    have hrest := fun table => ih table fun m hm => hlt m (List.mem_cons_of_mem _ hm)
    unfold applyEdits at hrest ⊢
    rw [List.foldl_cons, List.foldl_cons]
    simp only [hn]
    exact hrest _

/-- What stands behind a new edit stood. -/
theorem Stands.of_append (hout : e.outcome = none) (hedits : h'.edits = h.edits ++ [e])
    (hs : h'.Stands k c) : h.Stands k c := by
  have hedit := hs.edit
  rw [hedits] at hedit
  rcases Nat.lt_or_ge k h.edits.length with hk | hk
  · rw [List.getElem?_append_left hk] at hedit
    refine ⟨hedit, hs.tracks, hs.resolved, ?_⟩
    intro j later hj hlater
    refine hs.last j later hj ?_
    rw [hedits, List.getElem?_append_left (List.getElem?_eq_some_iff.1 hlater).1]
    exact hlater
  · rw [List.getElem?_append_right hk] at hedit
    have hce : e = c := by
      cases hkl : k - h.edits.length with
      | zero => simpa [hkl] using hedit
      | succ m => simp [hkl] at hedit
    have hresolved := hs.resolved
    rw [← hce, hout] at hresolved
    simp at hresolved

theorem Ok.lt_length (hok : h.Ok) (hn : n ∈ h.unsettled p) : n < h.edits.length := by
  obtain ⟨e, he, -⟩ := ((hok.shards p).mem n).1 hn
  exact (List.getElem?_eq_some_iff.1 he).1

/-- A new edit waits behind those of its shard. -/
theorem Ok.append (hok : h.Ok) {phase : FlushPhase} (registered : Registration Etag)
    (href : refOf (actorId e.ref) = some e.ref) (hout : e.outcome = none) (hp : e.shard = p)
    (hbatch : phase.batch = (h.shards p).phase.batch)
    (hnext : phase.next = (h.shards p).phase.next) :
    ({ h with edits := h.edits ++ [e], registered := registered }.setShard p
      { h.shards p with pending := (h.shards p).pending ++ [h.edits.length], phase := phase }).Ok := by
  generalize hh' : ({ h with edits := h.edits ++ [e], registered := registered }.setShard p
    { h.shards p with pending := (h.shards p).pending ++ [h.edits.length], phase := phase }) = h'
  have hedits : h'.edits = h.edits ++ [e] := by rw [← hh']; rfl
  have hlast : (h.edits ++ [e])[h.edits.length]? = some e := by simp
  have hold : ∀ {n : Nat} {c : TaskEdit}, h.edits[n]? = some c → h'.edits[n]? = some c := by
    intro n c hn
    rw [hedits, List.getElem?_append_left (List.getElem?_eq_some_iff.1 hn).1]
    exact hn
  -- an edit is the new one or one from before
  have hcases : ∀ {n : Nat} {c : TaskEdit}, h'.edits[n]? = some c →
      h.edits[n]? = some c ∨ n = h.edits.length ∧ c = e := by
    intro n c hn
    rw [hedits] at hn
    rcases Nat.lt_trichotomy n h.edits.length with hlt | heq | hgt
    · rw [List.getElem?_append_left hlt] at hn
      exact .inl hn
    · rw [heq, hlast] at hn
      exact .inr ⟨heq, (Option.some.inj hn).symm⟩
    · rw [List.getElem?_eq_none (by simp; omega)] at hn
      simp at hn
  have happly : ∀ q, (∀ n ∈ (h.shards q).phase.batch, n < h.edits.length) → ∀ table,
      h'.applyEdits (h.shards q).phase.batch table = h.applyEdits (h.shards q).phase.batch table := by
    intro q hlt table
    rw [← applyEdits_append h e _ _ hlt]
    unfold applyEdits
    rw [hedits]
  have hlt : ∀ q, ∀ n ∈ (h.shards q).phase.batch, n < h.edits.length := fun q n hn =>
    hok.lt_length (List.mem_append_left _ hn)
  refine ⟨?_, ?_⟩
  · intro q
    by_cases hq : q = p
    · subst hq
      have hshard : h'.shards q =
          { h.shards q with pending := (h.shards q).pending ++ [h.edits.length], phase := phase } := by
        rw [← hh']
        exact if_pos rfl
      have hun : h'.unsettled q = h.unsettled q ++ [h.edits.length] := by
        rw [unsettled, hshard, unsettled, hbatch, List.append_assoc]
      constructor
      case sorted =>
        rw [hun, List.pairwise_append]
        refine ⟨(hok.shards q).sorted, by simp, ?_⟩
        intro n hn m hm
        rw [List.mem_singleton.1 hm]
        exact hok.lt_length hn
      case mem =>
        intro n
        rw [hun, List.mem_append, (hok.shards q).mem n, List.mem_singleton]
        constructor
        · rintro (⟨c, hc, hshard, hnone⟩ | rfl)
          · exact ⟨c, hold hc, hshard, hnone⟩
          · exact ⟨e, hedits ▸ hlast, hp, hout⟩
        · rintro ⟨c, hc, hshard, hnone⟩
          rcases hcases hc with hc | ⟨rfl, -⟩
          · exact .inl ⟨c, hc, hshard, hnone⟩
          · exact .inr rfl
      case first =>
        intro n c hc hshard hsome j hj
        rcases hcases hc with hc | ⟨-, rfl⟩
        · rw [hun, List.mem_append, List.mem_singleton] at hj
          rcases hj with hj | rfl
          · exact (hok.shards q).first n c hc hshard hsome j hj
          · exact (List.getElem?_eq_some_iff.1 hc).1
        · exact absurd hout hsome
      case next =>
        rw [hshard]
        intro next hnx
        refine ((hok.shards q).next next (hnext ▸ hnx)).trans ?_
        rw [hbatch]
        exact (happly q (hlt q) _).symm
      case active =>
        intro _
        exact hp ▸ reminderShardOf_mem (actorId e.ref)
      case stands =>
        intro k c hs hc
        rw [hshard]
        exact (hok.shards q).stands k c (hs.of_append hout hedits) hc
    · have hshard : h'.shards q = h.shards q := by
        rw [← hh']
        exact if_neg hq
      have hun : h'.unsettled q = h.unsettled q := by rw [unsettled, hshard, unsettled]
      constructor
      case sorted =>
        rw [hun]
        exact (hok.shards q).sorted
      case mem =>
        intro n
        rw [hun, (hok.shards q).mem n]
        constructor
        · rintro ⟨c, hc, hshard, hnone⟩
          exact ⟨c, hold hc, hshard, hnone⟩
        · rintro ⟨c, hc, hcq, hnone⟩
          rcases hcases hc with hc | ⟨-, rfl⟩
          · exact ⟨c, hc, hcq, hnone⟩
          · exact absurd (hcq.symm.trans hp) hq
      case first =>
        intro n c hc hcq hsome j hj
        rw [hun] at hj
        rcases hcases hc with hc | ⟨-, rfl⟩
        · exact (hok.shards q).first n c hc hcq hsome j hj
        · exact absurd hout hsome
      case next =>
        rw [hshard]
        intro next hnx
        exact ((hok.shards q).next next hnx).trans (happly q (hlt q) _).symm
      case active =>
        rw [hshard]
        exact (hok.shards q).active
      case stands =>
        intro k c hs hc
        rw [hshard]
        exact (hok.shards q).stands k c (hs.of_append hout hedits) hc
  · intro n c hc
    rcases hcases hc with hc | ⟨-, rfl⟩
    · exact hok.refs n c hc
    · exact href

theorem calm_mutate (hout : e.outcome = none) : h.Calm (h.mutate e) := by
  have hid : (h.mutate e).hostId = h.hostId := by
    unfold RosterHost.mutate
    dsimp only
    split
    · split <;> rfl
    · rfl
  have hedits : (h.mutate e).edits = h.edits ++ [e] := by
    unfold RosterHost.mutate
    dsimp only
    split
    · split <;> rfl
    · rfl
  exact ⟨hid, fun k c hs => ⟨c, hs.of_append hout hedits, rfl, id⟩⟩

theorem Ok.mutate (hok : h.Ok) (href : refOf (actorId e.ref) = some e.ref)
    (hout : e.outcome = none) : (h.mutate e).Ok := by
  unfold RosterHost.mutate
  dsimp only
  split
  · rename_i hidle
    have hbatch : FlushPhase.registering.batch = (h.shards e.shard).phase.batch := by
      rw [hidle]
      rfl
    have hnext : FlushPhase.registering.next = (h.shards e.shard).phase.next := by
      rw [hidle]
      rfl
    rw [setShard_setShard]
    split
    · exact hok.append (.loading 1) href hout rfl hbatch hnext
    · exact hok.append h.registered href hout rfl hbatch hnext
  · exact hok.append h.registered href hout rfl rfl rfl

theorem adoption_mutate (h : RosterHost Etag) (e : TaskEdit) : (h.mutate e).adoption = h.adoption := by
  unfold RosterHost.mutate
  dsimp only
  split
  · split <;> rfl
  · rfl

theorem registered_mutate (h : RosterHost Etag) (e : TaskEdit) :
    (h.mutate e).registered = h.registered ∨ (h.mutate e).registered = .loading 1 := by
  unfold RosterHost.mutate
  dsimp only
  split
  · split
    · exact .inr rfl
    · exact .inl rfl
  · exact .inl rfl

/-- What a registration that fails leaves. -/
structure RegisterFailed (h h' : RosterHost Etag) : Prop where
  ok : h'.Ok
  calm : h.Calm h'
  adoption : h'.adoption = h.adoption
  registered : h'.registered = .none

/-- A registration that fails rejects what waits for it, and nothing else. -/
theorem Ok.registerFailed (hok : h.Ok) : h.RegisterFailed h.registerFailed := by
  have hg : h.RegisterFailed { h with registered := .none } :=
    ⟨hok.congr rfl rfl, .of_edits rfl rfl, rfl, rfl⟩
  unfold RosterHost.registerFailed
  generalize reminderShardKeys = l, ({ h with registered := .none } : RosterHost Etag) = g at hg ⊢
  induction l generalizing g with
  | nil => exact hg
  | cons p l ih =>
    refine ih _ ?_
    dsimp only
    split
    · rename_i hphase
      refine ⟨?_, hg.calm.trans ((calm_settle_false g _).trans (.of_edits rfl rfl)), hg.adoption,
        hg.registered⟩
      have hun : g.unsettled p = (g.shards p).pending ++ [] := by
        rw [unsettled, hphase, List.append_nil]
        rfl
      refine hg.ok.reject hun rfl rfl ?_ (fun hne => absurd rfl hne)
      intro next hnext
      simp [FlushPhase.next] at hnext
    · exact hg

/-! ### What a touch leaves -/

/-- An actor of the host is touched. -/
def touchedBy (h : RosterHost Etag) (ref : ActorRef) : RosterHost Etag :=
  { h with
    edits := h.edits.map fun e =>
      if e.ref = ref ∧ e.outcome = some true then { e with touched := true } else e }

theorem getElem?_touchedBy (h : RosterHost Etag) (ref : ActorRef) (n : Nat) :
    (h.touchedBy ref).edits[n]? = (h.edits[n]?).map fun e =>
      if e.ref = ref ∧ e.outcome = some true then { e with touched := true } else e := by
  simp [touchedBy]

theorem exists_of_touchedBy {ref : ActorRef} (he : (h.touchedBy ref).edits[n]? = some e) :
    ∃ old, h.edits[n]? = some old ∧ e.ref = old.ref ∧
      e.tracks = old.tracks ∧ e.since = old.since ∧ e.outcome = old.outcome ∧
      (old.touched = true → e.touched = true) ∧
      (old.ref = ref → old.outcome = some true → e.touched = true) := by
  rw [getElem?_touchedBy] at he
  obtain ⟨old, hold, rfl⟩ := Option.map_eq_some_iff.1 he
  refine ⟨old, hold, ?_⟩
  split
  · exact ⟨rfl, rfl, rfl, rfl, fun _ => rfl, fun _ _ => rfl⟩
  · rename_i hne
    exact ⟨rfl, rfl, rfl, rfl, id, fun href hout => absurd ⟨href, hout⟩ hne⟩

theorem exists_touchedBy (ref : ActorRef) (he : h.edits[n]? = some e) :
    ∃ e', (h.touchedBy ref).edits[n]? = some e' ∧ e'.ref = e.ref ∧ e'.tracks = e.tracks ∧
      e'.outcome = e.outcome := by
  rw [getElem?_touchedBy, he]
  refine ⟨_, rfl, ?_⟩
  dsimp only
  split <;> exact ⟨rfl, rfl, rfl⟩

/-- What stands after a touch stood before it, and the touch has answered it where it is
for its actor. -/
theorem stands_of_touchedBy {ref : ActorRef} (hs : (h.touchedBy ref).Stands k c') :
    (∃ c, h.Stands k c ∧ c'.ref = c.ref ∧ (c.touched = true → c'.touched = true)) ∧
      (c'.ref = ref → c'.touched = true) := by
  obtain ⟨c, hc, href, htracks, -, hout, htouched, hself⟩ := exists_of_touchedBy hs.edit
  refine ⟨⟨c, ⟨hc, htracks.symm.trans hs.tracks, hout.symm.trans hs.resolved, ?_⟩, href, htouched⟩, ?_⟩
  · intro j later hj hlater hl
    obtain ⟨later', hlater', href', htracks', -⟩ := exists_touchedBy ref hlater
    rw [← htracks']
    exact hs.last j later' hj hlater' (href'.trans (hl.trans href.symm))
  · intro hc'
    exact hself (href.symm.trans hc') (hout.symm.trans hs.resolved)

theorem calm_touchedBy (h : RosterHost Etag) (ref : ActorRef) : h.Calm (h.touchedBy ref) :=
  ⟨rfl, fun _ _ hs => (stands_of_touchedBy hs).1⟩

theorem Ok.touchedBy (hok : h.Ok) (ref : ActorRef) : (h.touchedBy ref).Ok := by
  refine ⟨fun p => ?_, ?_⟩
  · have hun : (h.touchedBy ref).unsettled p = h.unsettled p := rfl
    constructor
    case sorted => exact (hok.shards p).sorted
    case mem =>
      intro n
      rw [hun, (hok.shards p).mem n]
      constructor
      · rintro ⟨e, he, hes, hnone⟩
        obtain ⟨e', he', href, -, hout⟩ := exists_touchedBy ref he
        exact ⟨e', he', by rw [TaskEdit.shard, href]; exact hes, hout.trans hnone⟩
      · rintro ⟨e', he', hes, hnone⟩
        obtain ⟨e, he, href, -, -, hout, -⟩ := exists_of_touchedBy he'
        exact ⟨e, he, by rw [TaskEdit.shard, ← href]; exact hes, hout.symm.trans hnone⟩
    case first =>
      intro n e' he' hes hsome j hj
      obtain ⟨e, he, href, -, -, hout, -⟩ := exists_of_touchedBy he'
      exact (hok.shards p).first n e he (by rw [TaskEdit.shard, ← href]; exact hes) (hout ▸ hsome) j hj
    case next =>
      intro next hnext
      refine ((hok.shards p).next next hnext).trans ?_
      unfold applyEdits
      congr 1
      funext table n
      rw [getElem?_touchedBy]
      cases h.edits[n]? with
      | none => rfl
      | some e =>
        rw [Option.map_some]
        by_cases he : e.ref = ref ∧ e.outcome = some true
        · rw [if_pos he]
          rfl
        · rw [if_neg he]
    case active => exact (hok.shards p).active
    case stands =>
      intro k c' hs hc'
      obtain ⟨⟨c, hs', href, -⟩, -⟩ := stands_of_touchedBy hs
      rw [href]
      exact (hok.shards p).stands k c hs' (by rw [TaskEdit.shard, ← href]; exact hc')
  · intro n e' he'
    obtain ⟨e, he, href, -⟩ := exists_of_touchedBy he'
    rw [href]
    exact hok.refs n e he

end RosterHost

end SigxActors.Host
