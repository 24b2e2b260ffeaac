/-
  Cluster/DepartureSweep.lean --- the directory entries of hosts that have departed.

  Source: `packages/actors/src/cluster/placement.ts` (`#sweepDeparted`, `start`).

  A sweep is an `async` loop that the next change of the membership does not wait for: what
  `isAlive` and `evictHost` answer, and when, is the label.  `evicted` is a record of what
  `evictHost` was called for.
-/
import SigxActors.Cluster.Rendezvous
import SigxActors.Js.Array

set_option autoImplicit false

namespace SigxActors.Cluster

open SigxActors.Js

variable {D : Type}

/-- The loop over the hosts that have departed, where it awaits. -/
structure Sweep where
  id : Text
  rest : List Text
  /-- `isAlive` is awaited, or else `evictHost`, and `sweptEntries` was read before. -/
  evicting : Option Nat := none
  deriving DecidableEq, Repr

/-- What a host's placement keeps of the hosts it has seen. -/
structure SweepHost where
  self : Text
  /-- The directory has `evictHost`. -/
  evicts : Bool
  seen : JsMap Text Unit
  leaving : JsMap Text Unit := .empty
  hostSweeps : Nat := 0
  sweptEntries : Nat := 0
  sweepsSkippedGraceful : Nat := 0
  sweepsDelegated : Nat := 0
  sweeps : List (Option Sweep) := []
  evicted : List Text := []

/-- Ids are added to a set, in their order. -/
def addAll (ids : List Text) (set : JsMap Text Unit) : JsMap Text Unit :=
  ids.foldl (fun set id => set.set id ()) set

/-- Ids are deleted from a set. -/
def deleteAll (ids : List Text) (set : JsMap Text Unit) : JsMap Text Unit :=
  ids.foldl (fun set id => set.erase id) set

/-- `new Set(view.hosts.map((s) => s.hostId))`. -/
def idsOf (hosts : List (PlacedHost D)) : JsMap Text Unit := addAll (hosts.map (·.hostId)) .empty

/-- The smallest id among the live hosts that were seen before. -/
def sweeperOf (self : Text) (seenBefore : JsMap Text Unit) (live : List Text) : Text :=
  live.foldl (fun sweeper id => if seenBefore.has id = true ∧ id < sweeper then id else sweeper) self

namespace SweepHost

variable (s : SweepHost)

/-- The ids that were seen and are not live. -/
def departed (live : JsMap Text Unit) : List Text :=
  s.seen.keys.filter fun id => live.has id = false ∧ id ≠ s.self

/-- A sweep comes to the next id. -/
def goOn (k : Nat) (rest : List Text) : SweepHost :=
  { s with
    sweeps := s.sweeps.set k (match rest with
      | [] => none
      | id :: rest => some ⟨id, rest, none⟩) }

/-- `#sweepDeparted`, as far as it does not await. -/
def sweepDeparted (view : PlacementView D) : SweepHost :=
  if view.hosts = [] then s
  else
    let live := idsOf view.hosts
    let departed := s.departed live
    let noted := { s with
      leaving := addAll ((view.hosts.filter fun h => h.status = .leaving).map (·.hostId)) s.leaving
      seen := addAll live.keys s.seen }
    match departed with
    | [] => noted
    | id :: rest =>
        if noted.evicts = false then noted
        else if sweeperOf s.self s.seen live.keys = s.self then
          { noted with sweeps := noted.sweeps ++ [some ⟨id, rest, none⟩] }
        else
          { noted with
            seen := deleteAll departed noted.seen
            leaving := deleteAll departed noted.leaving
            sweepsDelegated := noted.sweepsDelegated + departed.length }

/-- What `isAlive` answers, none where it throws. -/
def alive (k : Nat) (answer : Option Bool) : Option SweepHost :=
  match s.sweeps[k]? with
  | some (some ⟨id, rest, none⟩) =>
      if answer = some false then
        if s.leaving.has id then
          some ({ s with
            leaving := s.leaving.erase id
            seen := s.seen.erase id
            sweepsSkippedGraceful := s.sweepsSkippedGraceful + 1 }.goOn k rest)
        else
          some { s with
            hostSweeps := s.hostSweeps + 1
            evicted := s.evicted ++ [id]
            sweeps := s.sweeps.set k (some ⟨id, rest, some s.sweptEntries⟩) }
      else some (s.goOn k rest)
  | _ => none

/-- What `evictHost` answers, none where it throws. -/
def swept (k : Nat) (answer : Option Nat) : Option SweepHost :=
  match s.sweeps[k]? with
  | some (some ⟨id, rest, some before⟩) =>
      match answer with
      | some n => some ({ s with sweptEntries := before + n, seen := s.seen.erase id }.goOn k rest)
      | none => some (s.goOn k rest)
  | _ => none

inductive Label (D : Type) where
  | view (view : PlacementView D)
  | alive (k : Nat) (answer : Option Bool)
  | swept (k : Nat) (answer : Option Nat)

def step : Label D → Option SweepHost
  | .view view => some (s.sweepDeparted view)
  | .alive k answer => s.alive k answer
  | .swept k answer => s.swept k answer

end SweepHost

/-- The machine of one host, from when it has joined. -/
def departureSweep (D : Type) : Machine.System SweepHost (SweepHost.Label D) where
  initial s := ∃ self evicts, ∃ view : PlacementView D,
    s = { self := self, evicts := evicts, seen := idsOf view.hosts }
  step := SweepHost.step

/-! ## The sweeper -/

theorem not_lt_iff {a b : Text} : ¬ a < b ↔ idOrder b ≤ idOrder a := by
  rw [← idOrder_lt_iff]
  exact not_lt

/-- The sweeper is the host itself or a live host that was seen before, and none of these is smaller. -/
theorem sweeperOf_spec (self : Text) (seenBefore : JsMap Text Unit) (live : List Text) :
    (sweeperOf self seenBefore live = self ∨
      sweeperOf self seenBefore live ∈ live ∧ seenBefore.has (sweeperOf self seenBefore live) = true) ∧
      ¬ self < sweeperOf self seenBefore live ∧
      ∀ id ∈ live, seenBefore.has id = true → ¬ id < sweeperOf self seenBefore live := by
  unfold sweeperOf
  induction live generalizing self with
  | nil =>
    refine ⟨.inl rfl, ?_, nofun⟩
    rw [not_lt_iff]
    exact le_refl _
  | cons id live ih =>
    rw [List.foldl_cons]
    obtain ⟨hwhich, hself, hlive⟩ :=
      ih (if seenBefore.has id = true ∧ id < self then id else self)
    generalize List.foldl _ _ live = r at *
    split at hwhich
    · rename_i hless
      rw [if_pos hless] at hself
      refine ⟨.inr ?_, ?_, fun id' hmem hhas => ?_⟩
      · rcases hwhich with rfl | ⟨hmem, hhas⟩
        · exact ⟨List.mem_cons_self, hless.1⟩
        · exact ⟨List.mem_cons_of_mem _ hmem, hhas⟩
      · rw [not_lt_iff] at hself ⊢
        exact le_trans hself (le_of_lt (idOrder_lt_iff.2 hless.2))
      · rcases List.mem_cons.1 hmem with rfl | hmem
        · exact hself
        · exact hlive id' hmem hhas
    · rename_i hless
      rw [if_neg hless] at hself
      refine ⟨?_, hself, fun id' hmem hhas => ?_⟩
      · rcases hwhich with rfl | ⟨hmem, hhas⟩
        · exact .inl rfl
        · exact .inr ⟨List.mem_cons_of_mem _ hmem, hhas⟩
      · rcases List.mem_cons.1 hmem with rfl | hmem
        · have hle := not_lt_iff.1 (not_and.1 hless hhas)
          rw [not_lt_iff] at hself ⊢
          exact le_trans hself hle
        · exact hlive id' hmem hhas

/-- A host elects itself where no live host that was seen before is smaller. -/
theorem sweeperOf_self {self : Text} {seenBefore : JsMap Text Unit} {live : List Text} :
    sweeperOf self seenBefore live = self ↔
      ∀ id ∈ live, seenBefore.has id = true → ¬ id < self := by
  obtain ⟨hwhich, hself, hlive⟩ := sweeperOf_spec self seenBefore live
  constructor
  · intro heq id hmem hhas
    have hnot := hlive id hmem hhas
    rw [heq] at hnot
    exact hnot
  · intro hnone
    rcases hwhich with heq | ⟨hmem, hhas⟩
    · exact heq
    · have hle := not_lt_iff.1 (hnone _ hmem hhas)
      exact idOrder_inj (le_antisymm (not_lt_iff.1 hself) hle)

/-! ## The sets -/

variable {set : JsMap Text Unit} {id : Text}

theorem has_addAll {ids : List Text} :
    (addAll ids set).has id = true ↔ id ∈ ids ∨ set.has id = true := by
  unfold addAll
  induction ids generalizing set with
  | nil => simp
  | cons a ids ih =>
    rw [List.foldl_cons, ih, List.mem_cons]
    have hset : (set.set a ()).has id = true ↔ id = a ∨ set.has id = true := by
      unfold JsMap.has
      rw [JsMap.get_set]
      split
      · rename_i heq
        exact ⟨fun _ => .inl heq, fun _ => rfl⟩
      · rename_i hne
        exact ⟨.inr, fun hor => hor.resolve_left hne⟩
    rw [hset, or_assoc, or_left_comm]

theorem has_erase_iff {a : Text} : (set.erase a).has id = true ↔ id ≠ a ∧ set.has id = true := by
  unfold JsMap.has
  rw [JsMap.get_erase]
  split
  · rename_i heq
    exact ⟨by simp, fun hboth => absurd heq hboth.1⟩
  · rename_i hne
    exact ⟨fun hhas => ⟨hne, hhas⟩, And.right⟩

theorem has_deleteAll {ids : List Text} :
    (deleteAll ids set).has id = true ↔ id ∉ ids ∧ set.has id = true := by
  unfold deleteAll
  induction ids generalizing set with
  | nil => simp
  | cons a ids ih =>
    rw [List.foldl_cons, ih, has_erase_iff, List.mem_cons, not_or, and_left_comm, and_assoc]

variable {hosts : List (PlacedHost D)}

theorem has_idsOf :
    (idsOf hosts).has id = true ↔ id ∈ hosts.map (·.hostId) := by
  unfold idsOf
  rw [has_addAll]
  exact or_iff_left nofun

theorem mem_keys_idsOf :
    id ∈ (idsOf hosts).keys ↔ id ∈ hosts.map (·.hostId) :=
  (JsMap.has_iff_mem_keys _ _).symm.trans has_idsOf

namespace SweepHost

variable {s t : SweepHost} {id : Text}

theorem mem_departed : id ∈ s.departed (idsOf hosts) ↔
      s.seen.has id = true ∧ id ∉ hosts.map (·.hostId) ∧ id ≠ s.self := by
  unfold departed
  rw [List.mem_filter, ← JsMap.has_iff_mem_keys, decide_eq_true_iff, ← Bool.not_eq_true, has_idsOf]

/-! ## What a step does -/

/-- What a view does, where there is nothing to sweep, and where there is. -/
theorem sweepDeparted_cases (s : SweepHost) (view : PlacementView D) :
    s.sweepDeparted view = s ∨
    ∃ noted : SweepHost, noted.self = s.self ∧ noted.evicted = s.evicted ∧ noted.sweeps = s.sweeps ∧
      (∀ id, s.seen.has id = true → noted.seen.has id = true) ∧
      (s.sweepDeparted view = noted ∨
      ∃ id rest, s.departed (idsOf view.hosts) = id :: rest ∧
        (sweeperOf s.self s.seen (idsOf view.hosts).keys = s.self ∧
          s.sweepDeparted view = { noted with sweeps := noted.sweeps ++ [some ⟨id, rest, none⟩] } ∨
        sweeperOf s.self s.seen (idsOf view.hosts).keys ≠ s.self ∧
          s.sweepDeparted view = { noted with
            seen := deleteAll (id :: rest) noted.seen
            leaving := deleteAll (id :: rest) noted.leaving
            sweepsDelegated := noted.sweepsDelegated + (id :: rest).length })) := by
  unfold sweepDeparted
  dsimp only
  split
  · exact .inl rfl
  refine .inr ⟨{ s with
    leaving := addAll ((view.hosts.filter fun h => h.status = .leaving).map (·.hostId)) s.leaving
    seen := addAll (idsOf view.hosts).keys s.seen }, rfl, rfl, rfl,
    fun id hhas => has_addAll.2 (.inr hhas), ?_⟩
  cases hdeparted : s.departed (idsOf view.hosts) with
  | nil => exact .inl rfl
  | cons id rest =>
    dsimp only
    split
    · exact .inl rfl
    refine .inr ⟨id, rest, rfl, ?_⟩
    split
    · rename_i hself
      exact .inl ⟨hself, rfl⟩
    · rename_i hself
      exact .inr ⟨hself, rfl⟩

/-- A view starts a sweep that will come to a host. -/
def Sweeps (s : SweepHost) (view : PlacementView D) (id : Text) : Prop :=
  ∃ sweep, (s.sweepDeparted view).sweeps = s.sweeps ++ [some sweep] ∧ (id = sweep.id ∨ id ∈ sweep.rest)

/-- The sweeper sweeps every host that it has seen and that is in the view no more. -/
theorem sweeps_iff (s : SweepHost) (view : PlacementView D) (hevicts : s.evicts = true)
    (hne : view.hosts ≠ []) : s.Sweeps view id ↔ id ∈ s.departed (idsOf view.hosts) ∧
      sweeperOf s.self s.seen (idsOf view.hosts).keys = s.self := by
  unfold Sweeps sweepDeparted
  dsimp only
  rw [if_neg hne]
  cases hdeparted : s.departed (idsOf view.hosts) with
  | nil =>
    constructor
    · rintro ⟨sweep, hsweeps, -⟩
      cases List.self_eq_append_right.1 hsweeps
    · rintro ⟨hmem, -⟩
      cases hmem
  | cons id' rest =>
    dsimp only
    rw [if_neg (by rw [hevicts]; decide)]
    split
    · rename_i hself
      constructor
      · rintro ⟨sweep, hsweeps, hid⟩
        cases List.append_cancel_left hsweeps
        exact ⟨List.mem_cons.2 hid, hself⟩
      · rintro ⟨hmem, -⟩
        exact ⟨⟨id', rest, none⟩, rfl, List.mem_cons.1 hmem⟩
    · rename_i hself
      constructor
      · rintro ⟨sweep, hsweeps, -⟩
        cases List.self_eq_append_right.1 hsweeps
      · rintro ⟨-, heq⟩
        exact absurd heq hself

/-- Of the hosts that have seen the same and see the same, one sweeps a host that has departed. -/
theorem one_sweeper {remembered live : Text → Prop} {host : Text → SweepHost}
    {view : Text → PlacementView D}
    (hhost : ∀ x, remembered x → live x → (host x).self = x ∧ (host x).evicts = true ∧
      (∀ id, (host x).seen.has id = true ↔ remembered id) ∧
      ∀ id, id ∈ (view x).hosts.map (·.hostId) ↔ live id)
    (hsome : ∃ x, remembered x ∧ live x) (hid : remembered id) (hgone : ¬ live id) :
    ∃! x, (remembered x ∧ live x) ∧ (host x).Sweeps (view x) id := by
  have hsweeps : ∀ x, remembered x → live x → ((host x).Sweeps (view x) id ↔
      ∀ y, live y → remembered y → ¬ y < x) := by
    intro x hrem hlive
    obtain ⟨hself, hevicts, hseen, hview⟩ := hhost x hrem hlive
    have hne : (view x).hosts ≠ [] := by
      intro hnil
      have hin := (hview x).2 hlive
      rw [hnil] at hin
      cases hin
    rw [sweeps_iff _ _ hevicts hne, mem_departed, sweeperOf_self, hself]
    constructor
    · rintro ⟨-, hleast⟩ y hlivey hremy
      exact hleast y (mem_keys_idsOf.2 ((hview y).2 hlivey)) ((hseen y).2 hremy)
    · intro hleast
      refine ⟨⟨(hseen id).2 hid, fun hin => hgone ((hview id).1 hin), ?_⟩, fun y hin hhas => ?_⟩
      · rintro rfl
        exact hgone hlive
      · exact hleast y ((hview y).1 (mem_keys_idsOf.1 hin)) ((hseen y).1 hhas)
  obtain ⟨x₀, hrem₀, hlive₀⟩ := hsome
  -- the least of the survivors is found in the view of one of them
  obtain ⟨-, -, hseen₀, hview₀⟩ := hhost x₀ hrem₀ hlive₀
  obtain ⟨hwhich, -, hleast⟩ := sweeperOf_spec x₀ (host x₀).seen (idsOf (view x₀).hosts).keys
  generalize sweeperOf x₀ (host x₀).seen (idsOf (view x₀).hosts).keys = x at hwhich hleast
  have hx : remembered x ∧ live x := by
    rcases hwhich with rfl | ⟨hmem, hhas⟩
    · exact ⟨hrem₀, hlive₀⟩
    · exact ⟨(hseen₀ x).1 hhas, (hview₀ x).1 (mem_keys_idsOf.1 hmem)⟩
  have hmin : ∀ y, live y → remembered y → ¬ y < x := fun y hlive hrem =>
    hleast y (mem_keys_idsOf.2 ((hview₀ y).2 hlive)) ((hseen₀ y).2 hrem)
  refine ⟨x, ⟨hx, (hsweeps x hx.1 hx.2).2 hmin⟩, ?_⟩
  rintro y ⟨⟨hrem, hlive⟩, hy⟩
  have hle := not_lt_iff.1 ((hsweeps y hrem hlive).1 hy x hx.2 hx.1)
  exact idOrder_inj (le_antisymm hle (not_lt_iff.1 (hmin y hlive hrem)))

/-- What takes a host off the list: it was swept, or it had announced that it leaves and is confirmed
gone, or it is not in the view and another host is the sweeper. -/
inductive WrittenOff (s : SweepHost) (id : Text) : Label D → Prop
  | swept {k n before : Nat} {rest : List Text}
      (h : s.sweeps[k]? = some (some ⟨id, rest, some before⟩)) : WrittenOff s id (.swept k (some n))
  | graceful {k : Nat} {rest : List Text} (h : s.sweeps[k]? = some (some ⟨id, rest, none⟩))
      (hleaving : s.leaving.has id = true) : WrittenOff s id (.alive k (some false))
  | delegated {view : PlacementView D} (hgone : id ∉ view.hosts.map (·.hostId))
      (hsweeper : sweeperOf s.self s.seen (idsOf view.hosts).keys ≠ s.self) :
      WrittenOff s id (.view view)

/-- A host that was seen stays on the list, unless it is written off. -/
theorem seen_step {l : Label D} (hstep : s.step l = some t) (hseen : s.seen.has id = true) :
    t.seen.has id = true ∨ WrittenOff s id l := by
  cases l with
  | view view =>
    cases hstep
    rcases sweepDeparted_cases s view with heq | ⟨noted, -, -, -, hkept, heq | ⟨id', rest, hdeparted,
      ⟨-, heq⟩ | ⟨hsweeper, heq⟩⟩⟩
    · rw [heq]
      exact .inl hseen
    · exact .inl (heq ▸ hkept id hseen)
    · exact .inl (heq ▸ hkept id hseen)
    · rw [heq]
      by_cases hmem : id ∈ id' :: rest
      · rw [← hdeparted, mem_departed] at hmem
        exact .inr (.delegated hmem.2.1 hsweeper)
      · exact .inl (has_deleteAll.2 ⟨hmem, hkept id hseen⟩)
  | alive k answer =>
    unfold step alive at hstep
    dsimp only at hstep
    split at hstep
    · rename_i id' rest hsweep
      split at hstep
      · rename_i hfalse
        subst hfalse
        split at hstep
        · rename_i hleaving
          cases hstep
          by_cases heq : id = id'
          · subst heq
            exact .inr (.graceful hsweep hleaving)
          · exact .inl (has_erase_iff.2 ⟨heq, hseen⟩)
        · cases hstep
          exact .inl hseen
      · cases hstep
        exact .inl hseen
    · cases hstep
  | swept k answer =>
    unfold step swept at hstep
    dsimp only at hstep
    split at hstep
    · rename_i id' rest before hsweep
      split at hstep
      · cases hstep
        by_cases heq : id = id'
        · subst heq
          exact .inr (.swept hsweep)
        · exact .inl (has_erase_iff.2 ⟨heq, hseen⟩)
      · cases hstep
        exact .inl hseen
    · cases hstep

/-- `evictHost` is called for a host that `isAlive` has just answered is not alive. -/
theorem evicted_step {l : Label D} (hstep : s.step l = some t) : t.evicted = s.evicted ∨
    ∃ k id rest, l = .alive k (some false) ∧ s.sweeps[k]? = some (some ⟨id, rest, none⟩) ∧
      t.evicted = s.evicted ++ [id] := by
  cases l with
  | view view =>
    cases hstep
    rcases sweepDeparted_cases s view with heq | ⟨noted, -, hevicted, -, -, heq | ⟨id', rest, -,
      ⟨-, heq⟩ | ⟨-, heq⟩⟩⟩
    · rw [heq]
      exact .inl rfl
    · exact .inl (heq ▸ hevicted)
    · exact .inl (heq ▸ hevicted)
    · exact .inl (heq ▸ hevicted)
  | alive k answer =>
    unfold step alive at hstep
    dsimp only at hstep
    split at hstep
    · rename_i id' rest hsweep
      split at hstep
      · rename_i hfalse
        subst hfalse
        split at hstep
        · cases hstep
          exact .inl rfl
        · cases hstep
          exact .inr ⟨k, id', rest, rfl, hsweep, rfl⟩
      · cases hstep
        exact .inl rfl
    · cases hstep
  | swept k answer =>
    unfold step swept at hstep
    dsimp only at hstep
    split at hstep
    · split at hstep
      all_goals
        cases hstep
        exact .inl rfl
    · cases hstep

end SweepHost

open SweepHost

/-- Of the hosts that have seen the same and see the same, one sweeps a host that has departed;
`evictHost` is called for a host that has just been reported not alive; and in every run a host that
was seen stays on the list until it is written off. -/
theorem departure_swept (D : Type) :
    (∀ (remembered live : Text → Prop) (host : Text → SweepHost) (view : Text → PlacementView D),
      (∀ x, remembered x → live x → (host x).self = x ∧ (host x).evicts = true ∧
        (∀ id, (host x).seen.has id = true ↔ remembered id) ∧
        ∀ id, id ∈ (view x).hosts.map (·.hostId) ↔ live id) →
      (∃ x, remembered x ∧ live x) → ∀ id, remembered id → ¬ live id →
      ∃! x, (remembered x ∧ live x) ∧ (host x).Sweeps (view x) id) ∧
    (∀ (s t : SweepHost) (l : Label D), s.step l = some t → t.evicted = s.evicted ∨
      ∃ k id rest, l = .alive k (some false) ∧ s.sweeps[k]? = some (some ⟨id, rest, none⟩) ∧
        t.evicted = s.evicted ++ [id]) ∧
    ∀ (s t : SweepHost) (id : Text), s.seen.has id = true →
      ((departureSweep D).since s).Reach (fun s l => ¬ WrittenOff s id l) t →
      t.seen.has id = true := by
  refine ⟨fun remembered live host view hhost hsome id hid hgone => one_sweeper hhost hsome hid hgone,
    fun s t l hstep => evicted_step hstep, fun s t id hseen hrun => ?_⟩
  refine hrun.invariant (fun u hu => hu ▸ hseen) fun u l u' hu hok hstep => ?_
  exact (seen_step hstep hu).resolve_right hok

/-- Two hosts have seen a third, and one of them sweeps it. -/
theorem departure_swept_two :
    ∃! x, ((x ∈ [[0x61], [0x62], [0x63]] ∧ x ∈ [[0x61], [0x62]]) ∧
      ({ self := x, evicts := true, seen := addAll [[0x61], [0x62], [0x63]] .empty } : SweepHost).Sweeps
        (⟨1, placedHosts.take 2⟩ : PlacementView Unit) [0x63]) := by
  refine (departure_swept Unit).1 (fun x => x ∈ [[0x61], [0x62], [0x63]])
    (fun x => x ∈ [[0x61], [0x62]])
    (fun x => { self := x, evicts := true, seen := addAll [[0x61], [0x62], [0x63]] .empty })
    (fun _ => ⟨1, placedHosts.take 2⟩) (fun x _ _ => ⟨rfl, rfl, fun id => ?_, fun id => ?_⟩)
    ⟨[0x61], by decide, by decide⟩ [0x63] (by decide) (by decide)
  · rw [has_addAll]
    exact or_iff_left nofun
  · exact Iff.rfl

/-- A host leaves, and then it is gone. -/
def gracefulRun : List (Label Unit) :=
  [.view ⟨1, [⟨[0x61], .active, ()⟩, ⟨[0x62], .leaving, ()⟩]⟩, .view ⟨2, [⟨[0x61], .active, ()⟩]⟩,
    .alive 0 (some false)]

def gracefulStart : SweepHost := { self := [0x61], evicts := true, seen := addAll [[0x61]] .empty }

/-- What the host has come to after some steps of the run. -/
def gracefulAfter (steps : Nat) : SweepHost :=
  ((departureSweep Unit).exec (fun _ _ => True) gracefulStart (gracefulRun.take steps)).getD gracefulStart

/-- The sweeper takes a host that has departed off its list, and it has swept nothing. -/
theorem not_departure_swept : (departureSweep Unit).Reachable (gracefulAfter 2) ∧
      (departureSweep Unit).step (gracefulAfter 2) (.alive 0 (some false)) = some (gracefulAfter 3) ∧
      (gracefulAfter 2).sweeps = [some ⟨[0x62], [], none⟩] ∧
      (gracefulAfter 2).seen.has [0x62] = true ∧ (gracefulAfter 3).seen.has [0x62] = false ∧
      (gracefulAfter 3).evicted = [] ∧ (gracefulAfter 3).sweeps = [none] := by
  have hstart : (departureSweep Unit).Reachable gracefulStart :=
    .start ⟨[0x61], true, ⟨0, [⟨[0x61], .active, ()⟩]⟩, rfl⟩
  have hrun : (departureSweep Unit).exec (fun _ _ => True) gracefulStart (gracefulRun.take 2) =
      some (gracefulAfter 2) := rfl
  exact ⟨hstart.exec hrun, rfl, by decide, by decide, by decide, by decide, by decide⟩

end SigxActors.Cluster
