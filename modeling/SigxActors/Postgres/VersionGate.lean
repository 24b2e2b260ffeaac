/-
  Postgres/VersionGate.lean --- the view holds what its version says.

  A refresh reads the counter and the rows in two queries.  If the rows are read first and
  a writer goes through in between, the view has that writer's version and not its row; its
  notification is then dropped.
-/
import SigxActors.Postgres.Membership

set_option autoImplicit false

namespace SigxActors.Postgres

open SigxActors.Cluster

namespace Membership

variable {D : Type} {quietMs : Nat} {s t : Membership D} {k q p a : Nat} {v : Int}

/-- The view is what the table held at some instant since `a`. -/
def Reflects (s : Membership D) (a : Nat) : Prop :=
  ∃ p, a ≤ p ∧ s.history[p]? = some s.cached.hosts

/-- Each write that `version` counts was made by the instant `p`. -/
def CountsBy (s : Membership D) (version : Int) (p : Nat) : Prop :=
  ∀ write ∈ s.writes, ∀ v, write.version = some v → v ≤ version → ∀ a, write.madeAt = some a → a ≤ p

/-- The view reflects each write that its version counts, so that no notification that is dropped
has anything to tell. -/
def Gated (s : Membership D) : Prop :=
  ∀ write ∈ s.writes, ∀ v, write.version = some v → v ≤ s.storeVersion →
    ∃ a, write.madeAt = some a ∧ s.Reflects a

/-- A refresh that has read the rows reads a version only if each write it counts had been made by
then. -/
def Clear (s : Membership D) : Label D → Prop
  | .readVersion q => ∀ query ∈ s.queries[q]?, ∀ rows ∈ query.rows, s.CountsBy s.version rows.2
  | _ => True

/-! ## What is read -/

/-- A query has read what there was. -/
structure QueryRead (query : Query D) (s : Membership D) : Prop where
  version : ∀ v, query.version = some v → v ≤ s.version
  rows : ∀ hosts p, query.rows = some (hosts, p) → s.history[p]? = some hosts
  both : ∀ v hosts p, query.version = some v → query.rows = some (hosts, p) → s.CountsBy v p

/-- A write's bump comes after its row. -/
structure WriteOrdered (write : Write D) (s : Membership D) : Prop where
  made : ∀ a, write.madeAt = some a → a < s.history.length
  bumped : ∀ v, write.version = some v → write.madeAt ≠ none ∧ v ≤ s.version

/-- The invariant. -/
structure Ordered (s : Membership D) : Prop where
  live : s.history ≠ []
  stored : s.storeVersion ≤ s.version
  writes : ∀ write ∈ s.writes, WriteOrdered write s
  queries : ∀ query ∈ s.queries, QueryRead query s
  gated : s.Gated

theorem getElem?_of_prefix {α : Type} {l m : List α} (h : l <+: m) {i : Nat} {x : α}
    (hget : l[i]? = some x) : m[i]? = some x := by
  obtain ⟨tail, rfl⟩ := h
  rw [List.getElem?_append_left (List.getElem?_eq_some_iff.1 hget).1, hget]

/-- The last instant is of now. -/
theorem Ordered.now (h : s.Ordered) : s.history[s.history.length - 1]? = some s.live := by
  unfold Membership.live
  rw [← List.getLast?_eq_getElem?, List.getLastD_eq_getLast?]
  cases hlast : s.history.getLast? with
  | none => exact absurd (List.getLast?_eq_none_iff.1 hlast) h.live
  | some rows => rfl

variable {write : Write D} {query : Query D}

theorem Ordered.lt_now (h : s.Ordered) (hmem : write ∈ s.writes) (hmade : write.madeAt = some a) :
    a ≤ s.history.length - 1 :=
  Nat.le_sub_one_of_lt ((h.writes write hmem).made a hmade)

/-! ## The coalescer -/

section

variable {α : Type} (c : Coalescer α)

theorem version_notifySettled : c.notifySettled.version = c.version := by
  unfold Coalescer.notifySettled
  split <;> rfl

theorem version_runTrailing : c.runTrailing.version = c.version := by
  unfold Coalescer.runTrailing
  dsimp only
  split
  · exact version_notifySettled _
  split
  · rfl
  · exact version_notifySettled _

theorem version_complete (flight : Nat) (outcome : α) :
    (c.complete quietMs flight outcome).version = c.version := by
  unfold Coalescer.complete Coalescer.onFlightSettled
  dsimp only
  split
  · exact version_notifySettled _
  split
  · rfl
  · exact version_runTrailing _

theorem version_note (noted : Option Int) : (c.note noted).version = c.version := by
  unfold Coalescer.note
  dsimp only
  split
  · rfl
  · split <;> rfl

theorem version_demand : c.demand.version = c.version := by
  unfold Coalescer.demand
  dsimp only
  split
  · rfl
  split
  · exact version_runTrailing _
  · rfl

end

/-! ## One step -/

section

variable (h : s.Ordered)
include h

/-- Calls of `refresh` begin. -/
theorem Ordered.begin_ (flights : List (Option Nat)) :
    Ordered { s with queries := s.queries ++ flights.map fun flight => { flight := flight } } where
  live := h.live
  stored := h.stored
  writes write hmem := ⟨(h.writes write hmem).made, (h.writes write hmem).bumped⟩
  queries query hmem := by
    obtain hmem | hmem := List.mem_append.1 hmem
    · exact { (h.queries query hmem) with }
    · obtain ⟨flight, -, rfl⟩ := List.mem_map.1 hmem
      exact ⟨nofun, nofun, nofun⟩
  gated := h.gated

/-- The coalescer has changed, and its version has not. -/
theorem Ordered.coalescer {c : Coalescer (Option (MembershipView D))}
    (hversion : c.version = s.storeVersion) : Ordered { s with coalescer := c } where
  live := h.live
  stored := by
    unfold Membership.storeVersion
    rw [hversion]
    exact h.stored
  writes write hmem := ⟨(h.writes write hmem).made, (h.writes write hmem).bumped⟩
  queries query hmem :=
    { (h.queries query hmem) with }
  gated write hmem v hv hle := by
    unfold Membership.storeVersion at hle
    rw [hversion] at hle
    exact h.gated write hmem v hv hle

theorem Ordered.launch {c : Coalescer (Option (MembershipView D))}
    (hversion : c.version = s.storeVersion) : (s.launch c).Ordered := by
  have hbegun := (h.coalescer hversion).begin_
    ((List.range' s.coalescer.flights.length
      (c.flights.length - s.coalescer.flights.length)).map some)
  rw [List.map_map] at hbegun
  exact hbegun

theorem Ordered.complete (flight : Option Nat)
    (outcome : Option (MembershipView D)) : (s.complete quietMs flight outcome).Ordered := by
  unfold Membership.complete
  split
  · exact h.launch (version_complete _ _ _)
  · exact h

/-- The table changes. -/
theorem Ordered.changeRow (hostId : String) (row : Option (HostDescriptor D)) :
    (s.changeRow hostId row).Ordered where
  live := by
    unfold Membership.changeRow
    simp
  stored := h.stored
  writes write hmem :=
    ⟨fun a hmade => by
      unfold Membership.changeRow
      rw [List.length_append]
      exact Nat.lt_succ_of_lt ((h.writes write hmem).made a hmade),
    (h.writes write hmem).bumped⟩
  queries query hmem :=
    ⟨(h.queries query hmem).version, fun hosts p hrows =>
      getElem?_of_prefix (List.prefix_append _ _) ((h.queries query hmem).rows hosts p hrows),
    (h.queries query hmem).both⟩
  gated write hmem v hv hle := by
    obtain ⟨a, hmade, p, hp, hget⟩ := h.gated write hmem v hv hle
    exact ⟨a, hmade, p, hp, getElem?_of_prefix (List.prefix_append _ _) hget⟩

/-- A write changes that no version has counted, or counts yet. -/
theorem Ordered.setWrite (hordered : WriteOrdered write s)
    (hfresh : ∀ v, write.version = some v → s.storeVersion < v ∧
      ∀ query ∈ s.queries, ∀ stored, query.version = some stored → stored < v) :
    (s.setWrite k write).Ordered where
  live := h.live
  stored := h.stored
  writes old hmem := by
    obtain hmem | rfl := List.mem_or_eq_of_mem_set hmem
    · exact ⟨(h.writes old hmem).made, (h.writes old hmem).bumped⟩
    · exact ⟨hordered.made, hordered.bumped⟩
  queries query hmem := by
    refine { (h.queries query hmem) with both := ?_ }
    intro stored hosts p hversion hrows old hold v hv hle a hmade
    obtain hold | rfl := List.mem_or_eq_of_mem_set hold
    · exact (h.queries query hmem).both stored hosts p hversion hrows old hold v hv hle a hmade
    · exact absurd hle (Int.not_le.2 ((hfresh v hv).2 query hmem stored hversion))
  gated old hmem v hv hle := by
    obtain hmem | rfl := List.mem_or_eq_of_mem_set hmem
    · exact h.gated old hmem v hv hle
    · exact absurd hle (Int.not_le.2 (hfresh v hv).1)

/-- A query changes. -/
theorem Ordered.setQuery (hread : QueryRead query s) : (s.setQuery q query).Ordered where
  live := h.live
  stored := h.stored
  writes write hmem := ⟨(h.writes write hmem).made, (h.writes write hmem).bumped⟩
  queries old hmem := by
    obtain hmem | rfl := List.mem_or_eq_of_mem_set hmem
    · exact { (h.queries old hmem) with }
    · exact { hread with }
  gated := h.gated

/-- What was read becomes the view. -/
theorem Ordered.apply {stored : Int} {hosts : List (HostDescriptor D)}
    (hstored : stored ≤ s.version) (hrows : s.history[p]? = some hosts)
    (hcounts : s.CountsBy stored p) : (s.apply stored hosts).Ordered := by
  unfold Membership.apply
  dsimp only
  split
  · exact
      { live := h.live
        stored := hstored
        writes := fun write hmem => ⟨(h.writes write hmem).made, (h.writes write hmem).bumped⟩
        queries := fun query hmem => { (h.queries query hmem) with }
        gated := fun write hmem v hv hle => by
          obtain ⟨a, hmade⟩ := Option.ne_none_iff_exists'.1 ((h.writes write hmem).bumped v hv).1
          exact ⟨a, hmade, p, hcounts write hmem v hv hle a hmade, hrows⟩ }
  · exact h

/-- A bump, the row being there. -/
theorem Ordered.bump (hget : s.writes[k]? = some write)
    (hmade : write.madeAt.isSome = true) :
    Ordered
      { s.setWrite k { write with version := some (s.version + 1) } with
        version := s.version + 1 } := by
  have hmore : Ordered { s with version := s.version + 1 } :=
    { live := h.live
      stored := Int.le_trans h.stored (Int.le_add_one (Int.le_refl _))
      writes := fun old hmem => ⟨(h.writes old hmem).made, fun v hv =>
        ⟨((h.writes old hmem).bumped v hv).1,
          Int.le_add_one ((h.writes old hmem).bumped v hv).2⟩⟩
      queries := fun query hmem => ⟨fun v hv =>
        Int.le_add_one ((h.queries query hmem).version v hv), (h.queries query hmem).rows,
        (h.queries query hmem).both⟩
      gated := h.gated }
  refine hmore.setWrite ⟨(h.writes write (List.mem_of_getElem? hget)).made, fun v hv => ?_⟩
    fun v hv => ?_
  · cases hv
    exact ⟨Option.isSome_iff_ne_none.1 hmade, Int.le_refl _⟩
  · cases hv
    refine ⟨Int.lt_add_one_of_le h.stored, fun query hmem stored hstored => ?_⟩
    exact Int.lt_add_one_of_le ((h.queries query hmem).version stored hstored)

/-- The row of a write that has no version yet. -/
theorem Ordered.row (hget : s.writes[k]? = some write)
    (hmade : write.madeAt.isSome ≠ true) :
    ((s.changeRow write.hostId write.row).setWrite k
      { write with madeAt := some s.history.length }).Ordered := by
  have hnone : write.version = none := by
    cases hversion : write.version with
    | none => rfl
    | some v =>
      have hbumped := ((h.writes write (List.mem_of_getElem? hget)).bumped v hversion).1
      exact absurd (Option.isSome_iff_ne_none.2 hbumped) hmade
  refine (h.changeRow write.hostId write.row).setWrite ⟨fun a ha => ?_, fun v hv => ?_⟩
    fun v hv => ?_
  · cases ha
    unfold Membership.changeRow
    rw [List.length_append]
    exact Nat.lt_succ_self _
  · cases hnone.symm.trans hv
  · cases hnone.symm.trans hv

theorem Ordered.readVersion (hget : s.queries[q]? = some query)
    (hclear : ∀ rows ∈ query.rows, s.CountsBy s.version rows.2) :
    (s.setQuery q { query with version := some s.version }).Ordered := by
  have hread := h.queries query (List.mem_of_getElem? hget)
  refine h.setQuery ⟨fun v hv => ?_, hread.rows, fun v hosts p hv hrows => ?_⟩
  · cases hv
    exact Int.le_refl _
  · cases hv
    exact hclear _ hrows

theorem Ordered.readRows (hget : s.queries[q]? = some query) :
    (s.setQuery q { query with rows := some (s.live, s.history.length - 1) }).Ordered := by
  have hread := h.queries query (List.mem_of_getElem? hget)
  refine h.setQuery ⟨hread.version, fun hosts p hrows => ?_, fun v hosts p hv hrows => ?_⟩
  · obtain ⟨rfl, rfl⟩ := Prod.mk.inj (Option.some.inj hrows)
    exact h.now
  · obtain ⟨rfl, rfl⟩ := Prod.mk.inj (Option.some.inj hrows)
    intro write hmem _ _ _ a hmade
    exact h.lt_now hmem hmade

theorem Ordered.settled (hget : s.queries[q]? = some query) :
    (s.setQuery q { query with settled := true }).Ordered := by
  have hread := h.queries query (List.mem_of_getElem? hget)
  exact h.setQuery { hread with }

theorem Ordered.settle {stored : Int} {hosts : List (HostDescriptor D)}
    (hget : s.queries[q]? = some query) (hversion : query.version = some stored)
    (hrows : query.rows = some (hosts, p)) :
    ((s.setQuery q { query with settled := true }).apply stored hosts).Ordered := by
  have hread := h.queries query (List.mem_of_getElem? hget)
  exact (h.settled hget).apply (hread.version stored hversion) (hread.rows hosts p hrows)
    (hread.both stored hosts p hversion hrows)

/-- The step lemma. -/
theorem Ordered.step {l : Label D} (hclear : s.Clear l)
    (hstep : s.step quietMs l = some t) : t.Ordered := by
  cases l with dsimp only [Membership.step] at hstep
  | write hostId row =>
    cases hstep
    exact
      { live := h.live
        stored := h.stored
        writes := fun write hmem => by
          obtain hmem | hmem := List.mem_append.1 hmem
          · exact ⟨(h.writes write hmem).made, (h.writes write hmem).bumped⟩
          · obtain rfl := List.mem_singleton.1 hmem
            exact ⟨nofun, nofun⟩
        queries := fun query hmem => by
          refine { (h.queries query hmem) with both := ?_ }
          intro stored hosts p hversion hrows write hwrite v hv hle a hmade
          obtain hwrite | hwrite := List.mem_append.1 hwrite
          · exact (h.queries query hmem).both stored hosts p hversion hrows write hwrite v hv hle a
              hmade
          · obtain rfl := List.mem_singleton.1 hwrite
            cases hv
        gated := fun write hmem v hv hle => by
          obtain hmem | hmem := List.mem_append.1 hmem
          · exact h.gated write hmem v hv hle
          · obtain rfl := List.mem_singleton.1 hmem
            cases hv }
  | row k =>
    split at hstep
    · rename_i write hget
      obtain ⟨hmade, rfl⟩ := guard_past_taken hstep
      exact h.row hget hmade
    · cases hstep
  | bump k =>
    split at hstep
    · rename_i write hget
      obtain ⟨hmade, rfl⟩ := guard_taken hstep
      exact h.bump hget (Bool.and_eq_true_iff.1 hmade).1
    · cases hstep
  | beat row =>
    cases hstep
    exact h.changeRow row.hostId (some row)
  | expire hostId =>
    cases hstep
    exact h.changeRow hostId none
  | note k =>
    split at hstep
    · obtain ⟨noted, -, rfl⟩ := Option.map_eq_some_iff.1 hstep
      exact h.launch (version_note _ _)
    · cases hstep
  | hint =>
    cases hstep
    exact h.launch (version_note _ _)
  | demand =>
    cases hstep
    exact h.launch (version_demand _)
  | refresh =>
    cases hstep
    exact h.begin_ [none]
  | quiet =>
    obtain ⟨-, rfl⟩ := guard_taken hstep
    exact h.launch (version_runTrailing _)
  | readVersion q =>
    split at hstep
    · rename_i query hget
      obtain ⟨-, rfl⟩ := guard_past_taken hstep
      exact h.readVersion hget (hclear query hget)
    · cases hstep
  | readRows q =>
    split at hstep
    · rename_i query hget
      obtain ⟨-, rfl⟩ := guard_past_taken hstep
      exact h.readRows hget
    · cases hstep
  | settle q =>
    split at hstep
    · rename_i query hget
      split at hstep
      · rename_i hversion hrows
        cases hstep
        exact (h.settle hget hversion hrows).complete _ _
      · cases hstep
    · cases hstep
  | reject q =>
    split at hstep
    · rename_i query hget
      obtain ⟨-, rfl⟩ := guard_past_taken hstep
      exact (h.settled hget).complete _ _
    · cases hstep

end

theorem ordered_initial (h : s.initial) : s.Ordered := by
  obtain ⟨rows, version, hversion, rfl⟩ := h
  exact
    { live := List.cons_ne_nil _ _
      stored := hversion
      writes := nofun
      queries := nofun
      gated := nofun }

instance [DecidableEq D] (s : Membership D) (version : Int) (p : Nat) :
    Decidable (s.CountsBy version p) :=
  decidable_of_iff (∀ write ∈ s.writes, ∀ v ∈ write.version, v ≤ version →
    ∀ a ∈ write.madeAt, a ≤ p) Iff.rfl

instance (s : Membership Unit) (l : Label Unit) : Decidable (s.Clear l) := by
  unfold Clear
  cases l <;> infer_instance

end Membership

/-- **The view holds what its version says**, in every run in which a refresh that has read the
rows reads a version only if each write it counts had been made by then. -/
theorem gated_of_clear {D : Type} {quietMs : Nat} {s : Membership D}
    (h : (pgMembership D quietMs).Reach Membership.Clear s) : s.Gated := by
  have hordered : s.Ordered := by
    refine h.invariant (fun _ => Membership.ordered_initial) ?_
    intro s l t hs hok hstep
    exact hs.step hok hstep
  exact hordered.gated

/-! ## A host joins while another refreshes -/

/-- A host that has joined. -/
def member (hostId : String) : HostDescriptor Unit := ⟨hostId, .active, ()⟩

/-- The host `a` is there. -/
def alone : Membership Unit := { history := [[member "a"]], version := 1 }

theorem initial_alone : (pgMembership Unit 0).initial alone := ⟨_, 1, by decide, rfl⟩

/-- The counter is read first: the notification is not dropped, and leads to another refresh. -/
theorem gated_joined :
    ∃ s : Membership Unit, (pgMembership Unit 0).Reach Membership.Clear s ∧ s.storeVersion = 2 ∧
      s.cached.hosts = [member "a", member "b"] ∧ s.Gated := by
  have hstart : (pgMembership Unit 0).Reach Membership.Clear alone := .start initial_alone
  have hrun := hstart.exec_get
    [.demand, .readVersion 0, .write "b" (some (member "b")), .row 0, .bump 0, .readRows 0,
      .settle 0, .note 0, .readVersion 1, .readRows 1, .settle 1] (by decide)
  exact ⟨_, hrun, by decide, by decide, gated_of_clear hrun⟩

/-- The rows are read first: the view has the version of the host that joins, and not the host, and
its notification is dropped. -/
theorem not_gated : ¬ ∀ s : Membership Unit, (pgMembership Unit 0).Reachable s → s.Gated := by
  intro h
  have hstart : (pgMembership Unit 0).Reachable alone := .start initial_alone
  have hrun := hstart.exec_get
    [.demand, .readRows 0, .write "b" (some (member "b")), .row 0, .bump 0, .readVersion 0,
      .settle 0, .note 0] (by decide)
  obtain ⟨a, hmade, p, hp, hget⟩ := h _ hrun _ List.mem_cons_self 2 rfl (by decide)
  cases hmade
  match p with
  | 0 => exact absurd hp (by decide)
  | 1 => exact absurd hget (by decide)
  | p + 2 => cases hget

end SigxActors.Postgres
