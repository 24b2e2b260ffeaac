/-
  Cluster/Rendezvous.lean --- which host has the highest weight for a key.

  Source: `packages/actors/src/cluster/placement.ts` (`rendezvous`, `activeHosts`,
  `ownsReminderShard`).

  A host is weighed by the hash of the key and its id, and of two hosts of one hash the smaller id
  goes first.  A view is not changed in place, so what `activeHosts` keeps for a view is what would
  be computed.  `D` is what a descriptor holds besides its id and status.
-/
import SigxActors.Cluster.Membership
import SigxActors.Codec.WirePath
import SigxActors.Order.Argmax

set_option autoImplicit false

namespace SigxActors.Cluster

open SigxActors.Js SigxActors.Codec

variable {D : Type}

/-- A `HostDescriptor`, its id being a string of any code units. -/
structure PlacedHost (D : Type) where
  hostId : Text
  status : HostStatus
  rest : D
  deriving DecidableEq, Repr

/-- A `MembershipView`. -/
structure PlacementView (D : Type) where
  version : Int
  hosts : List (PlacedHost D)

/-- `${key}|${hostId}`, hashed. -/
def score (key hostId : Text) : Int := (fnv1aText (key ++ 0x7C :: hostId)).toNat

/-- One round of the loop of `rendezvous`: `best` and `bestScore`. -/
def rendezvousStep (key : Text) (best : Option (PlacedHost D) × Int) (host : PlacedHost D) :
    Option (PlacedHost D) × Int :=
  let s := score key host.hostId
  if best.2 < s ∨ s = best.2 ∧ ∃ b ∈ best.1, host.hostId < b.hostId then (some host, s) else best

def rendezvous (key : Text) (hosts : List (PlacedHost D)) : Option (PlacedHost D) :=
  (hosts.foldl (rendezvousStep key) (none, -1)).1

def activeHosts (view : PlacementView D) : List (PlacedHost D) :=
  view.hosts.filter fun h => h.status = .active

/-- `ownsReminderShard` of the host that is called `self`. -/
def ownsReminderShard (self : Text) (view : PlacementView D) (shard : Text) : Bool :=
  let active := activeHosts view
  if active = [] then true
  else (rendezvous shard active).map (·.hostId) = some self

/-! ## A total order of the hosts -/

/-- An id, as the numbers that its code units are. -/
def idOrder (id : Text) : List Nat := id.map UInt16.toNat

variable {id id' : Text}

theorem idOrder_lt_iff : idOrder id < idOrder id' ↔ id < id' := by
  unfold idOrder
  induction id generalizing id' with
  | nil => cases id' <;> simp
  | cons u id ih =>
    cases id' with
    | nil => simp
    | cons u' id' =>
      rw [List.map_cons, List.map_cons, List.cons_lt_cons_iff, List.cons_lt_cons_iff, ih,
        UInt16.lt_iff_toNat_lt, UInt16.toNat_inj]

theorem idOrder_inj (h : idOrder id = idOrder id') : id = id' :=
  List.map_injective_iff.2 (fun _ _ => UInt16.toNat_inj.1) h

/-- What the loop weighs a host by: a higher score first, and then a smaller id. -/
def weight (key id : Text) : Int ×ₗ (List Nat)ᵒᵈ :=
  toLex (score key id, OrderDual.toDual (idOrder id))

theorem weight_inj {key : Text} (h : weight key id = weight key id') : id = id' :=
  idOrder_inj (congrArg (fun w => OrderDual.ofDual (ofLex w).2) h)

theorem weight_lt_iff {key : Text} : weight key id' < weight key id ↔
      score key id' < score key id ∨ score key id = score key id' ∧ id < id' := by
  unfold weight
  rw [Prod.Lex.toLex_lt_toLex]
  rw [OrderDual.toDual_lt_toDual, idOrder_lt_iff, eq_comm]

/-- A round takes the host in hand, unless the best one so far has a greater weight; `bestScore` is
the score of the best one, and -1 before there is one. -/
theorem rendezvousStep_eq (key : Text) {best : Option (PlacedHost D) × Int} (host : PlacedHost D)
    (hbest : best.2 = best.1.elim (-1) fun b => score key b.hostId) :
    (rendezvousStep key best host).1 =
        List.argAux (fun b c => weight key c.hostId < weight key b.hostId) best.1 host ∧
      (rendezvousStep key best host).2 =
        (rendezvousStep key best host).1.elim (-1) fun b => score key b.hostId := by
  obtain ⟨best, bestScore⟩ := best
  unfold rendezvousStep
  cases best with
  | none =>
    obtain rfl : bestScore = -1 := hbest
    exact ⟨rfl, rfl⟩
  | some b =>
    obtain rfl : bestScore = score key b.hostId := hbest
    have hiff : (score key b.hostId < score key host.hostId ∨
        score key host.hostId = score key b.hostId ∧ ∃ c ∈ some b, host.hostId < c.hostId) ↔
          weight key b.hostId < weight key host.hostId := by
      rw [weight_lt_iff]
      simp only [Option.mem_some, exists_eq_left']
    by_cases hlt : weight key b.hostId < weight key host.hostId
    · rw [if_pos (hiff.2 hlt)]
      exact ⟨(if_pos hlt).symm, rfl⟩
    · rw [if_neg (mt hiff.1 hlt)]
      exact ⟨(if_neg hlt).symm, rfl⟩

/-- The loop takes the host of the greatest weight. -/
theorem rendezvous_eq_argmax (key : Text) (hosts : List (PlacedHost D)) :
    rendezvous key hosts = hosts.argmax fun h => weight key h.hostId := by
  have hrun : ∀ (hosts : List (PlacedHost D)) (best : Option (PlacedHost D) × Int),
      (best.2 = best.1.elim (-1) fun b => score key b.hostId) →
      (hosts.foldl (rendezvousStep key) best).1 = hosts.foldl
        (List.argAux fun b c => weight key c.hostId < weight key b.hostId) best.1 := by
    intro hosts
    induction hosts with
    | nil => exact fun _ _ => rfl
    | cons host hosts ih =>
      intro best hbest
      obtain ⟨hfirst, hsecond⟩ := rendezvousStep_eq key host hbest
      rw [List.foldl_cons, List.foldl_cons, ih _ hsecond, hfirst]
  exact hrun hosts (none, -1) rfl

/-! ## The winner -/

variable {key : Text} {hosts hosts' : List (PlacedHost D)} {host w : PlacedHost D}

/-- Hosts of distinct ids have distinct weights. -/
theorem weight_injOn (hids : (hosts.map (·.hostId)).Nodup) :
    ∀ a ∈ hosts, ∀ b ∈ hosts, weight key a.hostId = weight key b.hostId → a = b :=
  fun _ ha _ hb heq => List.inj_on_of_nodup_map hids ha hb (weight_inj heq)

theorem rendezvous_isSome (hne : hosts ≠ []) : ∃ w ∈ hosts, rendezvous key hosts = some w := by
  rw [rendezvous_eq_argmax]
  cases hm : hosts.argmax fun h => weight key h.hostId with
  | none => exact absurd (List.argmax_eq_none.1 hm) hne
  | some w => exact ⟨w, List.argmax_mem hm, rfl⟩

/-- The id of the winner depends on which ids there are. -/
theorem rendezvous_ids (hids : ∀ id, id ∈ hosts.map (·.hostId) ↔ id ∈ hosts'.map (·.hostId)) :
    (rendezvous key hosts).map (·.hostId) = (rendezvous key hosts').map (·.hostId) := by
  rw [rendezvous_eq_argmax, rendezvous_eq_argmax]
  have hsome : ∀ {l l' : List (PlacedHost D)},
      (∀ id, id ∈ l.map (·.hostId) → id ∈ l'.map (·.hostId)) →
      ∀ a ∈ l, ∃ a' ∈ l', weight key a'.hostId = weight key a.hostId := by
    intro l l' hsub a ha
    obtain ⟨a', ha', heq⟩ := List.mem_map.1 (hsub a.hostId (List.mem_map_of_mem ha))
    exact ⟨a', ha', congrArg (weight key) heq⟩
  have hvalues := Order.argmax_values (f := fun h : PlacedHost D => weight key h.hostId)
    (hsome fun id => (hids id).1) (hsome fun id => (hids id).2)
  refine Option.map_injective (fun id id' (heq : weight key id = weight key id') => weight_inj heq) ?_
  rw [Option.map_map, Option.map_map]
  exact hvalues

/-- A host that is not the winner goes. -/
theorem rendezvous_removed (hids : (hosts.map (·.hostId)).Nodup)
    (hw : rendezvous key hosts = some w) (hne : id ≠ w.hostId) :
    rendezvous key (hosts.filter fun h => h.hostId ≠ id) = some w := by
  rw [rendezvous_eq_argmax] at hw ⊢
  refine Order.argmax_of_inj (f := fun h : PlacedHost D => weight key h.hostId)
    (fun a ha b hb => ?_) (List.mem_filter.2 ⟨List.argmax_mem hw, ?_⟩) fun b hb => ?_
  · exact weight_injOn hids a (List.mem_of_mem_filter ha) b (List.mem_of_mem_filter hb)
  · exact decide_eq_true (Ne.symm hne)
  · exact List.le_of_mem_argmax (f := fun h : PlacedHost D => weight key h.hostId)
      (List.mem_of_mem_filter hb) hw

/-- A host comes. -/
theorem rendezvous_added (hids : ((host :: hosts).map (·.hostId)).Nodup)
    (hw : rendezvous key hosts = some w) (hperm : hosts'.Perm (host :: hosts)) :
    rendezvous key hosts' = some w ∨ rendezvous key hosts' = some host := by
  rw [rendezvous_eq_argmax] at hw ⊢
  rw [Order.argmax_perm (weight_injOn hids) hperm]
  exact Order.argmax_cons_or hw

/-! ## One owner -/

/-- A shard is owned by the winner of the active hosts, where there are any. -/
theorem owns_iff {self : Text} {view : PlacementView D} {shard : Text} (hne : activeHosts view ≠ []) :
    ownsReminderShard self view shard = true ↔
      (rendezvous shard (activeHosts view)).map (·.hostId) = some self := by
  unfold ownsReminderShard
  rw [if_neg hne, decide_eq_true_iff]

/-- For distinct ids: the winner is one of the hosts, and it does not depend on their order; it stays
the winner when another host goes, and when a host comes it stays or that host wins; and of the hosts
whose active sets are these, one owns the key. -/
theorem rendezvous_stable (key : Text) (hosts : List (PlacedHost D)) (hne : hosts ≠ [])
    (hids : (hosts.map (·.hostId)).Nodup) : ∃ w ∈ hosts, rendezvous key hosts = some w ∧
      (∀ hosts', hosts'.Perm hosts → rendezvous key hosts' = some w) ∧
      (∀ id, id ≠ w.hostId → ∀ hosts', hosts'.Perm (hosts.filter fun h => h.hostId ≠ id) →
        rendezvous key hosts' = some w) ∧
      (∀ host, host.hostId ∉ hosts.map (·.hostId) → ∀ hosts', hosts'.Perm (host :: hosts) →
        rendezvous key hosts' = some w ∨ rendezvous key hosts' = some host) ∧
      ∀ (here : Text → Prop) (view : Text → PlacementView D),
        (∀ h ∈ hosts, here h.hostId) →
        (∀ self, here self → ∀ id,
          id ∈ (activeHosts (view self)).map (·.hostId) ↔ id ∈ hosts.map (·.hostId)) →
        ∃! self, here self ∧ ownsReminderShard self (view self) key = true := by
  obtain ⟨w, hmem, hw⟩ : ∃ w ∈ hosts, rendezvous key hosts = some w := rendezvous_isSome hne
  refine ⟨w, hmem, hw, fun hosts' hperm => ?_, fun id hid hosts' hperm => ?_,
    fun host hhost hosts' hperm => ?_, fun here view hhere hviews => ?_⟩
  · rw [rendezvous_eq_argmax, Order.argmax_perm (weight_injOn hids) hperm, ← rendezvous_eq_argmax]
    exact hw
  · have hnodup : ((hosts.filter fun h => h.hostId ≠ id).map (·.hostId)).Nodup :=
      hids.sublist (List.filter_sublist.map _)
    rw [rendezvous_eq_argmax, Order.argmax_perm (weight_injOn hnodup) hperm, ← rendezvous_eq_argmax]
    exact rendezvous_removed hids hw hid
  · exact rendezvous_added (List.nodup_cons.2 ⟨hhost, hids⟩) hw hperm
  · have howns : ∀ self, here self →
        (ownsReminderShard self (view self) key = true ↔ w.hostId = self) := by
      intro self hself
      have hactive : activeHosts (view self) ≠ [] := by
        intro hnil
        have hin := (hviews self hself w.hostId).2 (List.mem_map_of_mem hmem)
        rw [hnil] at hin
        cases hin
      rw [owns_iff hactive, rendezvous_ids (hviews self hself), hw, Option.map_some,
        Option.some.injEq]
    refine ⟨w.hostId, ⟨hhere w hmem, (howns _ (hhere w hmem)).2 rfl⟩, fun self hself => ?_⟩
    exact ((howns self hself.1).1 hself.2).symm

def placedHosts : List (PlacedHost Unit) :=
  [⟨[0x61], .active, ()⟩, ⟨[0x62], .active, ()⟩, ⟨[0x63], .leaving, ()⟩]

theorem rendezvous_stable_two : (∃! self, (self = [0x61] ∨ self = [0x62]) ∧
      ownsReminderShard self ⟨0, placedHosts⟩ [0x70, 0x30] = true) ∧
      ownsReminderShard [0x61] ⟨0, placedHosts⟩ [0x70, 0x30] = true := by
  obtain ⟨w, -, -, -, -, -, hone⟩ :=
    rendezvous_stable [0x70, 0x30] (placedHosts.take 2) (by decide) (by decide)
  refine ⟨hone (fun self => self = [0x61] ∨ self = [0x62]) (fun _ => ⟨0, placedHosts⟩) ?_ ?_, by decide⟩
  · decide
  · exact fun _ _ _ => Iff.rfl

/-- **A key goes from one host to another only with a host**: between any two sets of hosts, the
winner changes only where the former one has gone or the new one has come. -/
theorem rendezvous_moves {D : Type} {key : Text} {hosts hosts' : List (PlacedHost D)}
    {w w' : PlacedHost D} (hw : rendezvous key hosts = some w) (hw' : rendezvous key hosts' = some w') :
    w.hostId = w'.hostId ∨ w.hostId ∉ hosts'.map (·.hostId) ∨ w'.hostId ∉ hosts.map (·.hostId) := by
  rw [rendezvous_eq_argmax] at hw hw'
  by_contra! hnot
  obtain ⟨hne, hstays, hthere⟩ := hnot
  obtain ⟨v, hv, hvw⟩ := List.mem_map.1 hstays
  obtain ⟨v', hv', hvw'⟩ := List.mem_map.1 hthere
  have hle := List.le_of_mem_argmax (f := fun h : PlacedHost D => weight key h.hostId) hv hw'
  have hle' := List.le_of_mem_argmax (f := fun h : PlacedHost D => weight key h.hostId) hv' hw
  rw [hvw] at hle
  rw [hvw'] at hle'
  exact hne (weight_inj (le_antisymm hle hle'))

theorem rendezvous_moves_left : ∃ w ∈ placedHosts.drop 1, [0x61] = w.hostId ∨
    [0x61] ∉ (placedHosts.drop 1).map (·.hostId) ∨ w.hostId ∉ (placedHosts.take 2).map (·.hostId) := by
  have hw : rendezvous [0x70, 0x30] (placedHosts.take 2) = some ⟨[0x61], .active, ()⟩ := by decide
  obtain ⟨w, hmem, hw'⟩ : ∃ w ∈ placedHosts.drop 1,
    rendezvous [0x70, 0x30] (placedHosts.drop 1) = some w := rendezvous_isSome (by decide)
  exact ⟨w, hmem, rendezvous_moves hw hw'⟩

end SigxActors.Cluster
