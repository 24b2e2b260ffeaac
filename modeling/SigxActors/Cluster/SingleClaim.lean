/-
  Cluster/SingleClaim.lean --- at most one live claim per actor, and no slow
  delete of a successor's entry.

  A claim is live while the host still lists it in `#claimed` and no peer has
  evicted its entry.  The invariant says that a live claim IS the directory's
  entry; since the directory holds one entry per actor, two hosts cannot both
  have one.  Everything else in the invariant is there to show that a
  compare-and-delete hits only the entry it was issued for: activation ids are
  never reused, a release is issued only for a claim its host no longer lists,
  and a ghost is reclaimed only while its host lists no claim.

  Main results: `singleClaim_reachable` and `liveClaim_unique`.
-/
import SigxActors.Cluster.Claims

set_option autoImplicit false

namespace SigxActors.Cluster

open SigxActors.Js SigxActors.Host

/-- The entries a suspended activation holds. -/
def Stage.entries : Stage → List DirectoryEntry
  | .claiming mine _ .sent => [mine]
  | .claiming mine _ (.answered winner) => [mine, winner]
  | .evicting mine winner _ => [mine, winner]
  | .creating | .failed => []

namespace ClaimState

/-! ## Activation ids -/

/-- `e` was minted by the host it names, before now. -/
def Minted (s : ClaimState) (e : DirectoryEntry) : Prop :=
  e.activationId.hostId = e.hostId ∧ e.activationId.seq ≤ (s.hosts e.hostId).seq

variable {s t : ClaimState} {e : DirectoryEntry} {id h : String} {cfg : ClusterConfig}

/-- Activation ids identify entries. -/
theorem Minted.eq {a b : DirectoryEntry} (ha : s.Minted a) (hb : s.Minted b)
    (h : a.activationId = b.activationId) : a = b := by
  have hhost : a.hostId = b.hostId := by rw [← ha.1, ← hb.1, h]
  cases a
  simp_all

theorem Minted.mono (he : s.Minted e) (hseq : ∀ k, (s.hosts k).seq ≤ (t.hosts k).seq) :
    t.Minted e :=
  ⟨he.1, Nat.le_trans he.2 (hseq _)⟩

/-- `e` occurs in the state as an entry for the actor `id`. -/
inductive Names (s : ClaimState) (id : String) (e : DirectoryEntry) : Prop where
  | directory (h : s.directory.get id = some e)
  | claimed (k : String) (h : s.claimedAt k id = some e)
  | stage (k : String) (stage : Stage) (h : s.stageAt k id = some stage)
      (he : e ∈ stage.entries)
  | release (h : (id, e) ∈ s.releases)
  | eviction (h : (id, e) ∈ s.evictions)

/-! ## The invariant -/

/-- What keeps a live claim and the directory's entry the same. -/
structure SingleClaim (s : ClaimState) : Prop where
  /-- Every entry was minted by the host it names. -/
  named_minted : ∀ id e, s.Names id e → s.Minted e
  /-- A host lists, and claims with, only entries of its own. -/
  claimed_own : ∀ k id e, s.claimedAt k id = some e → e.hostId = k
  mine_own : ∀ k id stage e, s.stageAt k id = some stage → stage.mine = some e → e.hostId = k
  /-- A release in flight is for a claim no host lists or is about to list. -/
  release_unclaimed : ∀ k id e, (id, e) ∈ s.releases → s.claimedAt k id ≠ some e
  release_not_mine : ∀ k id e stage, (id, e) ∈ s.releases → s.stageAt k id = some stage →
    stage.mine ≠ some e
  /-- A ghost is reclaimed by the host it names, which lists no claim. -/
  ghost_own : ∀ k id mine winner rpc, s.stageAt k id = some (.evicting mine winner rpc) →
    winner.hostId = k ∧ s.claimedAt k id = none
  ghost_ne_mine : ∀ k id mine winner rpc, s.stageAt k id = some (.evicting mine winner rpc) →
    winner ≠ mine
  /-- A listed claim is the directory's entry, unless a peer evicted it. -/
  listed : ∀ k id e, s.claimedAt k id = some e →
    e.activationId ∈ s.evicted ∨ s.directory.get id = some e
  /-- So is a claim the directory has just granted. -/
  granted : ∀ k id mine retried winner,
    s.stageAt k id = some (.claiming mine retried (.answered winner)) →
    winner.activationId = mine.activationId →
    mine.activationId ∈ s.evicted ∨ s.directory.get id = some mine
  /-- No delete ever removed an entry it was not issued for. -/
  removals_exact : ∀ r ∈ s.removals, r.removed = r.issuedFor

/-- A live claim: listed by the host, and not evicted by a peer. -/
def LiveClaim (s : ClaimState) (k id : String) : Prop :=
  ∃ e, s.claimedAt k id = some e ∧ e.activationId ∉ s.evicted

/-- One directory entry per actor leaves room for one live claim. -/
theorem SingleClaim.live_unique (hs : s.SingleClaim) {k k' : String} (hk : s.LiveClaim k id)
    (hk' : s.LiveClaim k' id) : k = k' := by
  obtain ⟨e, he, hlive⟩ := hk
  obtain ⟨e', he', hlive'⟩ := hk'
  have hdir := (hs.listed k id e he).resolve_left hlive
  have hdir' := (hs.listed k' id e' he').resolve_left hlive'
  have heq : e = e' := Option.some.inj (hdir.symm.trans hdir')
  rw [← hs.claimed_own k id e he, ← hs.claimed_own k' id e' he', heq]

theorem singleClaim_initial : SingleClaim .initial where
  named_minted := by
    intro id e h
    cases h with
    | directory h => simp [initial, JsMap.empty, JsMap.get, JsMap.getEntries] at h
    | claimed k h => simp [initial, claimedAt] at h
    | stage k stage h he => simp [initial, stageAt, HostState.stageOf] at h
    | release h | eviction h => simp [initial] at h
  claimed_own := by intro k id e h; simp [initial, claimedAt] at h
  mine_own := by intro k id stage e h; simp [initial, stageAt, HostState.stageOf] at h
  release_unclaimed := by intro k id e h; simp [initial] at h
  release_not_mine := by intro k id e stage h; simp [initial] at h
  ghost_own := by intro k id m w r h; simp [initial, stageAt, HostState.stageOf] at h
  ghost_ne_mine := by intro k id m w r h; simp [initial, stageAt, HostState.stageOf] at h
  listed := by intro k id e h; simp [initial, claimedAt] at h
  granted := by intro k id m r w h; simp [initial, stageAt, HostState.stageOf] at h
  removals_exact := by intro r h; simp [initial] at h

/-! ## Steps that only forget -/

/-- `t` has the directory's side of `s`, and no activation under way that `s` did
not have: attempts that move on to creation or failure, drained slots and the
fence are such steps. -/
structure Forgets (s t : ClaimState) : Prop where
  directory : t.directory = s.directory
  releases : t.releases = s.releases
  evictions : t.evictions = s.evictions
  evicted : t.evicted = s.evicted
  removals : t.removals = s.removals
  seq : ∀ k, (t.hosts k).seq = (s.hosts k).seq
  claimed : ∀ k id, t.claimedAt k id = s.claimedAt k id
  stage : ∀ k id stage, t.stageAt k id = some stage →
    s.stageAt k id = some stage ∨ (stage = .creating ∨ stage = .failed)

theorem SingleClaim.forgets (hs : s.SingleClaim) (hf : Forgets s t) : t.SingleClaim := by
  have hminted : ∀ e, s.Minted e → t.Minted e := fun e he =>
    he.mono (fun k => Nat.le_of_eq (hf.seq k).symm)
  have hstage : ∀ k id stage, t.stageAt k id = some stage → stage.entries ≠ [] →
      s.stageAt k id = some stage := by
    intro k id stage h hne
    rcases hf.stage k id stage h with h | rfl | rfl
    · exact h
    · exact absurd rfl hne
    · exact absurd rfl hne
  have hmine : ∀ k id stage e, t.stageAt k id = some stage → stage.mine = some e →
      s.stageAt k id = some stage := by
    intro k id stage e h hm
    rcases hf.stage k id stage h with h | rfl | rfl
    · exact h
    · simp [Stage.mine] at hm
    · simp [Stage.mine] at hm
  constructor
  · intro id e hn
    refine hminted e (hs.named_minted id e ?_)
    cases hn with
    | directory h => exact .directory (hf.directory ▸ h)
    | claimed k h => exact .claimed k (hf.claimed k id ▸ h)
    | stage k stage h he => exact .stage k stage (hstage k id stage h (List.ne_nil_of_mem he)) he
    | release h => exact .release (hf.releases ▸ h)
    | eviction h => exact .eviction (hf.evictions ▸ h)
  · intro k id e h
    exact hs.claimed_own k id e (hf.claimed k id ▸ h)
  · intro k id stage e h hm
    exact hs.mine_own k id stage e (hmine k id stage e h hm) hm
  · intro k id e h
    rw [hf.claimed]
    exact hs.release_unclaimed k id e (hf.releases ▸ h)
  · intro k id e stage h hst hm
    exact hs.release_not_mine k id e stage (hf.releases ▸ h) (hmine k id stage e hst hm) hm
  · intro k id mine winner rpc h
    rw [hf.claimed]
    exact hs.ghost_own k id mine winner rpc (hstage k id _ h (by simp [Stage.entries]))
  · intro k id mine winner rpc h
    exact hs.ghost_ne_mine k id mine winner rpc (hstage k id _ h (by simp [Stage.entries]))
  · intro k id e h
    rw [hf.evicted, hf.directory]
    exact hs.listed k id e (hf.claimed k id ▸ h)
  · intro k id mine retried winner h hw
    rw [hf.evicted, hf.directory]
    exact hs.granted k id mine retried winner (hstage k id _ h (by simp [Stage.entries])) hw
  · intro r hr
    exact hs.removals_exact r (hf.removals ▸ hr)

/-- A change of one host that keeps its claims, its counter and its attempts. -/
theorem Forgets.onHost {f : HostState → HostState}
    (hclaimed : ∀ id, (f (s.hosts h)).claimed.get id = (s.hosts h).claimed.get id)
    (hseq : (f (s.hosts h)).seq = (s.hosts h).seq)
    (hstage : ∀ id stage, (f (s.hosts h)).stageOf id = some stage →
      (s.hosts h).stageOf id = some stage ∨ (stage = .creating ∨ stage = .failed)) :
    Forgets s (s.onHost h f) where
  directory := rfl
  releases := rfl
  evictions := rfl
  evicted := rfl
  removals := rfl
  seq := by
    intro k
    rw [onHost_hosts]
    by_cases hk : k = h
    · rw [if_pos hk, hk, hseq]
    · rw [if_neg hk]
  claimed := by
    intro k id
    rw [claimedAt_onHost]
    by_cases hk : k = h
    · rw [if_pos hk, hk, hclaimed, claimedAt]
    · rw [if_neg hk]
  stage := by
    intro k id stage
    rw [stageAt_onHost]
    by_cases hk : k = h
    · rw [if_pos hk, hk]
      exact hstage id stage
    · rw [if_neg hk]
      exact Or.inl

/-- An attempt that moves on to creation or failure. -/
theorem forgets_settle (s : ClaimState) (h id : String) {stage : Stage}
    (hstage : stage = .creating ∨ stage = .failed) :
    Forgets s (s.onHost h (·.setStage id stage)) := by
  refine .onHost (fun _ => by rw [HostState.setStage_claimed]) (by simp) ?_
  intro j st hst
  rw [HostState.stageOf_setStage] at hst
  by_cases hj : j = id
  · rw [if_pos hj] at hst
    cases hold : (s.hosts h).stageOf id with
    | none => simp [hold] at hst
    | some old =>
      simp only [hold, Option.map_some, Option.some.injEq] at hst
      exact Or.inr (hst ▸ hstage)
  · rw [if_neg hj] at hst
    exact Or.inl hst

/-- Replacing the slot of `id` by one that is not activating, or deleting it. -/
theorem stageOf_of_slots {hs hs' : HostState}
    (hother : ∀ j, j ≠ id → hs'.slots.get j = hs.slots.get j)
    (hid : ∀ r, hs'.slots.get id ≠ some (.activating r)) (j : String) (stage : Stage)
    (h : hs'.stageOf j = some stage) : j ≠ id ∧ hs.stageOf j = some stage := by
  have hj : j ≠ id := by
    rintro rfl
    unfold HostState.stageOf at h
    split at h
    · rename_i r hr
      exact hid r hr
    · simp at h
  refine ⟨hj, ?_⟩
  unfold HostState.stageOf at h ⊢
  rwa [hother j hj] at h

theorem forgets_slots (s : ClaimState) (h id : String) {f : HostState → HostState}
    (hclaimed : (f (s.hosts h)).claimed = (s.hosts h).claimed)
    (hseq : (f (s.hosts h)).seq = (s.hosts h).seq)
    (hother : ∀ j, j ≠ id → (f (s.hosts h)).slots.get j = (s.hosts h).slots.get j)
    (hid : ∀ r, (f (s.hosts h)).slots.get id ≠ some (.activating r)) : Forgets s (s.onHost h f) :=
  .onHost (fun _ => by rw [hclaimed]) hseq
    (fun j stage hst => Or.inl (stageOf_of_slots hother hid j stage hst).2)

theorem forgets_directoryFails (hstep : s.directoryFails h id = some t) : Forgets s t := by
  unfold directoryFails at hstep
  split at hstep <;> cases hstep <;> exact forgets_settle s h id (Or.inr rfl)

theorem forgets_createFails (hstep : s.createFails h id = some t) : Forgets s t := by
  unfold createFails at hstep
  split at hstep <;> cases hstep
  exact forgets_settle s h id (Or.inr rfl)

theorem forgets_created (hstep : s.created h id = some t) : Forgets s t := by
  unfold created at hstep
  split at hstep <;> cases hstep
  refine forgets_slots s h id rfl rfl (fun j hj => ?_) (fun r => ?_)
  · simp [JsMap.get_set, hj]
  · simp

theorem forgets_dropFailed (hstep : s.dropFailed h id = some t) : Forgets s t := by
  unfold dropFailed at hstep
  split at hstep <;> cases hstep
  refine forgets_slots s h id rfl rfl (fun j hj => ?_) (fun r => ?_)
  · simp [JsMap.get_erase, hj]
  · simp

theorem forgets_deactivate (hstep : s.deactivate h id = some t) : Forgets s t := by
  unfold deactivate at hstep
  split at hstep <;> cases hstep
  rename_i ref slots hbegin
  unfold Slots.beginDeactivation at hbegin
  split at hbegin <;> cases hbegin
  refine forgets_slots s h id rfl rfl (fun j hj => ?_) (fun r => ?_)
  · simp [JsMap.get_set, hj]
  · simp

theorem forgets_fence (s : ClaimState) (h : String) (fence : HostState → Fence) :
    Forgets s (s.onHost h fun hs => { hs with fence := fence hs }) :=
  .onHost (fun _ => rfl) rfl (fun _ _ hst => Or.inl hst)

theorem forgets_selfSuspect (hstep : s.selfSuspect h = some t) : Forgets s t := by
  unfold selfSuspect at hstep
  split at hstep <;> cases hstep
  exact forgets_fence s h fun _ => .checking

theorem forgets_fenceDecide (hstep : s.fenceDecide cfg h = some t) : Forgets s t := by
  unfold fenceDecide at hstep
  split at hstep
  · split at hstep <;> cases hstep
    · exact forgets_fence s h fun _ => .member
    · exact forgets_fence s h fun hs => .scanning hs.claimedTypes []
  · cases hstep

theorem forgets_fenceEnd (hstep : s.fenceEnd h = some t) : Forgets s t := by
  unfold fenceEnd at hstep
  split at hstep <;> cases hstep
  exact forgets_fence s h fun _ => .done

/-- The bulk deactivation touches no activation under way. -/
theorem forgets_fenceScan (hstep : s.fenceScan h = some t) : Forgets s t := by
  unfold fenceScan at hstep
  split at hstep <;> cases hstep
  refine .onHost (fun _ => rfl) rfl (fun id stage hst => Or.inl ?_)
  unfold HostState.stageOf at hst ⊢
  rw [Slots.get_deactivateType] at hst
  cases hget : (s.hosts h).slots.get id with
  | none => simp [hget] at hst
  | some slot =>
    cases slot with
    | activating r => simpa [hget] using hst
    | active ref =>
      rw [hget] at hst
      simp only at hst
      split at hst
      · rename_i r hr
        split at hr <;> simp at hr
      · simp at hst
    | deactivating ref => simp [hget] at hst

/-! ## Steps of an attempt -/

section

variable (hs : s.SingleClaim)
include hs

/-- A delete issued for an entry the state names hits that entry or nothing. -/
theorem SingleClaim.hit_eq {entry : DirectoryEntry} (he : s.Names id e)
    (hget : s.directory.get id = some entry) (hact : entry.activationId = e.activationId) :
    entry = e :=
  (hs.named_minted id entry (.directory hget)).eq (hs.named_minted id e he) hact

theorem SingleClaim.removedBy_exact (he : s.Names id e) {r : Removal}
    (hr : r ∈ removedBy s.directory id e ++ s.removals) : r.removed = r.issuedFor := by
  rcases List.mem_append.mp hr with hr | hr
  · obtain ⟨hissued, hget, hact⟩ := mem_removedBy hr
    rw [hissued, hs.hit_eq he hget hact]
  · exact hs.removals_exact r hr

/-- An entry survives a delete issued for another one. -/
theorem SingleClaim.survives {j : String} {entry : DirectoryEntry}
    (he : s.Names id e) (hget : s.directory.get j = some entry) (hne : j = id → entry ≠ e) :
    (s.directory.release id e).get j = some entry := by
  refine ActorDirectory.get_release_of_ne hget ?_
  by_cases hj : j = id
  · right
    intro hact
    subst hj
    exact hne rfl (hs.hit_eq he hget hact)
  · exact Or.inl hj

/-- One step of an attempt keeps the invariant when what it writes into the
directory was named before, and what it removes there is a ghost. -/
theorem SingleClaim.moves {old new : Stage} (hm : Moves s t h id old new)
    (hentries : ∀ e ∈ new.entries, s.Names id e)
    (hdir : ∀ j e, t.directory.get j = some e → s.Names j e)
    (hkeep : ∀ j e, s.directory.get j = some e → t.directory.get j = some e ∨
      (j = id ∧ e.hostId = h ∧ s.claimedAt h id = none ∧ old.mine ≠ some e))
    (hclaimed : ∀ k j e, t.claimedAt k j = some e → s.claimedAt k j = some e ∨
      (k = h ∧ j = id ∧ old.mine = some e ∧ new = .creating ∧
        (e.activationId ∈ s.evicted ∨ t.directory.get id = some e)))
    (hghost : ∀ mine winner rpc, new = .evicting mine winner rpc →
      winner.hostId = h ∧ t.claimedAt h id = none ∧ winner ≠ mine)
    (hgranted : ∀ mine retried winner, new = .claiming mine retried (.answered winner) →
      winner.activationId = mine.activationId → t.directory.get id = some mine)
    (hremovals : ∀ r ∈ t.removals, r.removed = r.issuedFor) : t.SingleClaim := by
  have hnames : ∀ j e, t.Names j e → s.Names j e := by
    intro j e hn
    cases hn with
    | directory hd => exact hdir j e hd
    | release hr => exact .release (hm.releases ▸ hr)
    | eviction hv => exact .eviction (hm.evictions ▸ hv)
    | claimed k hc =>
      rcases hclaimed k j e hc with hc | ⟨-, rfl, hold, -, -⟩
      · exact .claimed k hc
      refine .stage h old hm.from_old ?_
      cases old with
      | claiming m r rpc => cases rpc <;> simp_all [Stage.mine, Stage.entries]
      | evicting m w rpc => simp_all [Stage.mine, Stage.entries]
      | creating | failed => simp [Stage.mine] at hold
    | stage k stage hst hmem =>
      rw [hm.stage] at hst
      split at hst
      · rename_i hkj
        cases hst
        rw [hkj.2]
        exact hentries e hmem
      · exact .stage k stage hst hmem
  -- An attempt of the new state claims with the entry it claimed with before.
  have hmine : ∀ k j stage e, t.stageAt k j = some stage → stage.mine = some e →
      ∃ stage', s.stageAt k j = some stage' ∧ stage'.mine = some e := by
    intro k j stage e hst hse
    rw [hm.stage] at hst
    split at hst
    · rename_i hkj
      cases hst
      rcases hm.mine with hnone | hsame
      · rw [hnone] at hse
        cases hse
      · exact ⟨old, hkj.1 ▸ hkj.2 ▸ hm.from_old, hsame ▸ hse⟩
    · exact ⟨stage, hst, hse⟩
  -- An entry its host still counts on is not the ghost.
  have hsafe : ∀ k j e, e.hostId = k → (s.claimedAt k j = some e ∨
      ∃ stage, s.stageAt k j = some stage ∧ stage.mine = some e) →
      s.directory.get j = some e → t.directory.get j = some e := by
    rintro k j e rfl hcount hd
    rcases hkeep j e hd with hd | ⟨rfl, rfl, hnone, hne⟩
    · exact hd
    rcases hcount with hc | ⟨stage, hst, hse⟩
    · rw [hnone] at hc
      cases hc
    · rw [hm.from_old] at hst
      cases hst
      exact absurd hse hne
  constructor
  · intro j e hn
    exact (hs.named_minted j e (hnames j e hn)).mono (fun k => Nat.le_of_eq (hm.seq k).symm)
  · intro k j e hc
    rcases hclaimed k j e hc with hc | ⟨rfl, rfl, hold, -, -⟩
    · exact hs.claimed_own k j e hc
    · exact hs.mine_own k j old e hm.from_old hold
  · intro k j stage e hst hse
    obtain ⟨stage', hst', hse'⟩ := hmine k j stage e hst hse
    exact hs.mine_own k j stage' e hst' hse'
  · intro k j e hr hc
    rw [hm.releases] at hr
    rcases hclaimed k j e hc with hc | ⟨rfl, rfl, hold, -, -⟩
    · exact hs.release_unclaimed k j e hr hc
    · exact hs.release_not_mine k j e old hr hm.from_old hold
  · intro k j e stage hr hst hse
    obtain ⟨stage', hst', hse'⟩ := hmine k j stage e hst hse
    exact hs.release_not_mine k j e stage' (hm.releases ▸ hr) hst' hse'
  · intro k j mine winner rpc hst
    rw [hm.stage] at hst
    split at hst
    · rename_i hkj
      cases hst
      rw [hkj.1, hkj.2]
      exact (hghost mine winner rpc rfl).imp_right And.left
    · rename_i hkj
      obtain ⟨hw, hnone⟩ := hs.ghost_own k j mine winner rpc hst
      refine ⟨hw, ?_⟩
      cases hc : t.claimedAt k j with
      | none => rfl
      | some e =>
        rcases hclaimed k j e hc with hc | ⟨rfl, rfl, -⟩
        · rw [hnone] at hc
          cases hc
        · exact absurd ⟨rfl, rfl⟩ hkj
  · intro k j mine winner rpc hst
    rw [hm.stage] at hst
    split at hst
    · cases hst
      exact (hghost mine winner rpc rfl).2.2
    · exact hs.ghost_ne_mine k j mine winner rpc hst
  · intro k j e hc
    rw [hm.evicted]
    rcases hclaimed k j e hc with hc | ⟨rfl, rfl, -, -, hd⟩
    · exact (hs.listed k j e hc).imp_right
        (hsafe k j e (hs.claimed_own k j e hc) (Or.inl hc))
    · exact hd
  · intro k j mine retried winner hst hact
    rw [hm.evicted]
    rw [hm.stage] at hst
    split at hst
    · rename_i hkj
      cases hst
      rw [hkj.2]
      exact Or.inr (hgranted mine retried winner rfl hact)
    · refine (hs.granted k j mine retried winner hst hact).imp_right ?_
      exact hsafe k j mine (hs.mine_own k j _ mine hst rfl) (Or.inr ⟨_, hst, rfl⟩)
  · exact hremovals

theorem SingleClaim.execClaim (hstep : s.execClaim h id = some t) : t.SingleClaim := by
  obtain ⟨mine, retried, hm, hdir, hclaimed, hremovals, -⟩ := execClaim_cases hstep
  have hminemem : s.Names id mine := .stage h _ hm.from_old (by simp [Stage.entries])
  -- The winner is what the directory holds afterwards.
  have hwinner : t.directory.get id = some (s.directory.claim id mine).1 := by
    rw [hdir, ActorDirectory.get_claim, if_pos rfl, ActorDirectory.claim_winner]
  have hnamed : ∀ j e, t.directory.get j = some e → s.Names j e := by
    intro j e hd
    rw [hdir, ActorDirectory.get_claim] at hd
    split at hd
    · rename_i hj
      rw [hj]
      cases hget : s.directory.get id with
      | none =>
        rw [hget] at hd
        cases hd
        exact hminemem
      | some entry =>
        rw [hget] at hd
        cases hd
        exact .directory hget
    · exact .directory hd
  refine hs.moves hm ?_ hnamed ?_ ?_ ?_ ?_ (hremovals ▸ hs.removals_exact)
  · intro e he
    simp only [Stage.entries, List.mem_cons, List.not_mem_nil, or_false] at he
    rcases he with rfl | rfl
    · exact hminemem
    · exact hnamed id _ hwinner
  · intro j e hd
    rw [hdir]
    exact Or.inl (ActorDirectory.get_claim_of_some hd)
  · intro k j e hc
    exact Or.inl (hclaimed k j ▸ hc)
  · intro m w rpc hnew
    cases hnew
  · intro m r w hnew hact
    cases hnew
    have heq := (hs.named_minted id _ (hnamed id _ hwinner)).eq (hs.named_minted id mine hminemem) hact
    exact hwinner.trans (congrArg some heq)

theorem SingleClaim.claimReply (hstep : s.claimReply h id = some t) : t.SingleClaim := by
  obtain ⟨mine, retried, winner, hanswered, hdir, hremovals, hcases⟩ := claimReply_cases hstep
  have hminemem : s.Names id mine := .stage h _ hanswered (by simp [Stage.entries])
  have hwinnermem : s.Names id winner := .stage h _ hanswered (by simp [Stage.entries])
  have hnamed : ∀ j e, t.directory.get j = some e → s.Names j e :=
    fun j e hd => .directory (hdir ▸ hd)
  have hkeep : ∀ j e, s.directory.get j = some e → t.directory.get j = some e :=
    fun j e hd => hdir ▸ hd
  have hexact : ∀ r ∈ t.removals, r.removed = r.issuedFor := hremovals ▸ hs.removals_exact
  rcases hcases with ⟨hne, ⟨-, hown, hnone⟩, hm, hclaimed, -⟩ | ⟨-, -, hm, hclaimed, -⟩ |
    ⟨hact, hm, hclaimed, -⟩
  · -- A ghost of this host: reclaim it.
    refine hs.moves hm ?_ hnamed (fun j e hd => Or.inl (hkeep j e hd)) ?_ ?_ ?_ hexact
    · intro e he
      simp only [Stage.entries, List.mem_cons, List.not_mem_nil, or_false] at he
      rcases he with rfl | rfl
      · exact hminemem
      · exact hwinnermem
    · intro k j e hc
      exact Or.inl (hclaimed k j ▸ hc)
    · intro m w rpc hnew
      cases hnew
      exact ⟨hown, (hclaimed h id).trans hnone,
        fun heq => hne (congrArg DirectoryEntry.activationId heq)⟩
    · intro m r w hnew
      cases hnew
  · -- Refused.
    refine hs.moves hm ?_ hnamed (fun j e hd => Or.inl (hkeep j e hd)) ?_ ?_ ?_ hexact
    · intro e he
      simp [Stage.entries] at he
    · intro k j e hc
      exact Or.inl (hclaimed k j ▸ hc)
    · intro m w rpc hnew
      cases hnew
    · intro m r w hnew
      cases hnew
  · -- The directory granted the claim: it is recorded.
    refine hs.moves hm ?_ hnamed (fun j e hd => Or.inl (hkeep j e hd)) ?_ ?_ ?_ hexact
    · intro e he
      simp [Stage.entries] at he
    · intro k j e hc
      rw [hclaimed] at hc
      split at hc
      · rename_i hkj
        cases hc
        rw [hdir]
        exact Or.inr ⟨hkj.1, hkj.2, rfl, rfl, hs.granted h id mine retried winner hanswered hact⟩
      · exact Or.inl hc
    · intro m w rpc hnew
      cases hnew
    · intro m r w hnew
      cases hnew

theorem SingleClaim.execEvict (hstep : s.execEvict h id = some t) : t.SingleClaim := by
  obtain ⟨mine, winner, hm, hdir, hclaimed, hremovals, -⟩ := execEvict_cases hstep
  have hminemem : s.Names id mine := .stage h _ hm.from_old (by simp [Stage.entries])
  have hwinnermem : s.Names id winner := .stage h _ hm.from_old (by simp [Stage.entries])
  obtain ⟨hown, hnone⟩ := hs.ghost_own h id mine winner _ hm.from_old
  have hne : winner ≠ mine := hs.ghost_ne_mine h id mine winner _ hm.from_old
  refine hs.moves hm ?_ ?_ ?_ ?_ ?_ ?_ ?_
  · intro e he
    simp only [Stage.entries, List.mem_cons, List.not_mem_nil, or_false] at he
    rcases he with rfl | rfl
    · exact hminemem
    · exact hwinnermem
  · intro j e hd
    rw [hdir] at hd
    exact .directory (ActorDirectory.get_of_get_release hd)
  · intro j e hd
    rw [hdir]
    by_cases hghost : j = id ∧ e = winner
    · refine Or.inr ⟨hghost.1, hghost.2 ▸ hown, hnone, fun hmine => ?_⟩
      -- The entry being reclaimed is not the one being claimed with.
      exact hne (hghost.2 ▸ (Option.some.inj hmine).symm)
    · exact Or.inl (hs.survives hwinnermem hd (fun hj he => hghost ⟨hj, he⟩))
  · intro k j e hc
    exact Or.inl (hclaimed k j ▸ hc)
  · intro m w rpc hnew
    cases hnew
    exact ⟨hown, (hclaimed h id).trans hnone, hne⟩
  · intro m r w hnew
    cases hnew
  · intro r hr
    exact hs.removedBy_exact hwinnermem (hremovals ▸ hr)

theorem SingleClaim.evictReply (hstep : s.evictReply h id = some t) : t.SingleClaim := by
  obtain ⟨mine, winner, hm, hdir, hclaimed, hremovals, -⟩ := evictReply_cases hstep
  refine hs.moves hm ?_ (fun j e hd => .directory (hdir ▸ hd))
    (fun j e hd => Or.inl (hdir ▸ hd)) ?_ ?_ ?_ (hremovals ▸ hs.removals_exact)
  · intro e he
    simp only [Stage.entries, List.mem_cons, List.not_mem_nil, or_false] at he
    rw [he]
    exact .stage h _ hm.from_old (by simp [Stage.entries])
  · intro k j e hc
    exact Or.inl (hclaimed k j ▸ hc)
  · intro m w rpc hnew
    cases hnew
  · intro m r w hnew
    cases hnew

/-- A reservation: the new activation id is above every id its host has minted,
so nothing in the state bears it. -/
theorem SingleClaim.reserves {mine : DirectoryEntry}
    (hr : Reserves s t h id mine) : t.SingleClaim := by
  have hfresh : ∀ e, s.Minted e → e ≠ mine := by
    rintro e he rfl
    have hle := he.2
    rw [hr.own, hr.fresh.2] at hle
    exact Nat.not_succ_le_self _ hle
  have hold : ∀ k j stage, t.stageAt k j = some stage →
      (k = h ∧ stage = .claiming mine false .sent) ∨ s.stageAt k j = some stage := by
    intro k j stage hst
    rw [hr.stage] at hst
    split at hst
    · rename_i hkj
      exact Or.inl ⟨hkj.1, (Option.some.inj hst).symm⟩
    · exact Or.inr hst
  constructor
  · intro j e hn
    by_cases he : e = mine
    · refine ⟨by rw [he, hr.fresh.1, hr.own], Nat.le_of_eq ?_⟩
      rw [he, hr.own, hr.seq, if_pos rfl, hr.fresh.2]
    refine (hs.named_minted j e ?_).mono fun k => ?_
    · cases hn with
      | directory hd => exact .directory (hr.directory ▸ hd)
      | claimed k hc => exact .claimed k (hr.claimed k j ▸ hc)
      | release hm => exact .release (hr.releases ▸ hm)
      | eviction hv => exact .eviction (hr.evictions ▸ hv)
      | stage k stage hst hmem =>
        rcases hold k j stage hst with ⟨-, rfl⟩ | hst
        · simp [Stage.entries, he] at hmem
        · exact .stage k stage hst hmem
    · rw [hr.seq]
      split
      · rename_i hk
        rw [hk]
        exact Nat.le_succ _
      · exact Nat.le_refl _
  · intro k j e hc
    exact hs.claimed_own k j e (hr.claimed k j ▸ hc)
  · intro k j stage e hst hm
    rcases hold k j stage hst with ⟨rfl, rfl⟩ | hst
    · simp only [Stage.mine, Option.some.injEq] at hm
      rw [← hm, hr.own]
    · exact hs.mine_own k j stage e hst hm
  · intro k j e hm
    rw [hr.claimed]
    exact hs.release_unclaimed k j e (hr.releases ▸ hm)
  · intro k j e stage hrel hst hm
    rw [hr.releases] at hrel
    rcases hold k j stage hst with ⟨-, rfl⟩ | hst
    · simp only [Stage.mine, Option.some.injEq] at hm
      exact hfresh e (hs.named_minted j e (.release hrel)) hm.symm
    · exact hs.release_not_mine k j e stage hrel hst hm
  · intro k j m w rpc hst
    rw [hr.claimed]
    rcases hold k j _ hst with ⟨-, hnew⟩ | hst
    · cases hnew
    · exact hs.ghost_own k j m w rpc hst
  · intro k j m w rpc hst
    rcases hold k j _ hst with ⟨-, hnew⟩ | hst
    · cases hnew
    · exact hs.ghost_ne_mine k j m w rpc hst
  · intro k j e hc
    rw [hr.evicted, hr.directory]
    exact hs.listed k j e (hr.claimed k j ▸ hc)
  · intro k j m r w hst
    rw [hr.evicted, hr.directory]
    rcases hold k j _ hst with ⟨-, hnew⟩ | hst
    · cases hnew
    · exact hs.granted k j m r w hst
  · rw [hr.removals]
    exact hs.removals_exact

end

/-- Fenced, the attempt fails where it starts. -/
theorem forgets_reserve_failed (s : ClaimState) (h : String) (ref : ActorRef) :
    Forgets s (s.onHost h (·.reserve ref .failed)) := by
  refine .onHost (fun _ => rfl) rfl fun id stage hst => ?_
  rw [stageOf_reserve] at hst
  split at hst
  · exact Or.inr (Or.inr (Option.some.inj hst).symm)
  · exact Or.inl hst

theorem SingleClaim.activate (hs : s.SingleClaim) {ref : ActorRef}
    (hstep : s.activate cfg h ref = some t) : t.SingleClaim := by
  obtain ⟨-, -, ⟨-, rfl⟩ | ⟨-, mine, hr, -⟩⟩ := activate_cases hstep
  · exact hs.forgets (forgets_reserve_failed s h ref)
  · exact hs.reserves hr

/-! ## Deactivation -/

/-- The drained slot's claim leaves `#claimed` in the step that issues its
release. -/
theorem SingleClaim.drained (hs : s.SingleClaim) (hstep : s.drained h id = some t) :
    t.SingleClaim := by
  unfold ClaimState.drained at hstep
  split at hstep
  · have hclaimed := claimedAt_drop s h id
    have hstage : ∀ k j stage, (s.onHost h (·.drop id)).stageAt k j = some stage →
        ¬ (k = h ∧ j = id) ∧ s.stageAt k j = some stage := by
      intro k j stage hst
      rw [stageAt_drop] at hst
      obtain ⟨hkj, hst⟩ := guard_past hst
      exact ⟨hkj, hst⟩
    have hseq : ∀ k, ((s.onHost h (·.drop id)).hosts k).seq = (s.hosts k).seq := by
      intro k
      rw [onHost_hosts]
      split <;> rfl
    split at hstep
    · -- Nothing was listed: nothing is released.
      rename_i hnone
      cases hstep
      refine hs.forgets ⟨rfl, rfl, rfl, rfl, rfl, hseq, fun k j => ?_,
        fun k j stage hst => Or.inl (hstage k j stage hst).2⟩
      rw [hclaimed]
      split
      · rename_i hkj
        rw [hkj.1, hkj.2, hnone]
      · rfl
    · rename_i entry hlisted
      cases hstep
      have hown : entry.hostId = h := hs.claimed_own h id entry hlisted
      have hsub : ∀ k j e, (s.onHost h (·.drop id)).claimedAt k j = some e →
          ¬ (k = h ∧ j = id) ∧ s.claimedAt k j = some e := by
        intro k j e hc
        rw [hclaimed] at hc
        obtain ⟨hkj, hc⟩ := guard_past hc
        exact ⟨hkj, hc⟩
      constructor
      · intro j e hn
        refine (hs.named_minted j e ?_).mono (fun k => Nat.le_of_eq (hseq k).symm)
        cases hn with
        | directory hd => exact .directory hd
        | claimed k hc => exact .claimed k (hsub k j e hc).2
        | eviction hv => exact .eviction hv
        | stage k stage hst hmem => exact .stage k stage (hstage k j stage hst).2 hmem
        | release hr =>
          rcases List.mem_cons.mp hr with heq | hr
          · cases heq
            exact .claimed h hlisted
          · exact .release hr
      · intro k j e hc
        exact hs.claimed_own k j e (hsub k j e hc).2
      · intro k j stage e hst hm
        exact hs.mine_own k j stage e (hstage k j stage hst).2 hm
      · intro k j e hr hc
        obtain ⟨hkj, hc⟩ := hsub k j e hc
        rcases List.mem_cons.mp hr with heq | hr
        · cases heq
          exact hkj ⟨(hs.claimed_own k id entry hc).symm.trans hown, rfl⟩
        · exact hs.release_unclaimed k j e hr hc
      · intro k j e stage hr hst hm
        obtain ⟨hkj, hst⟩ := hstage k j stage hst
        rcases List.mem_cons.mp hr with heq | hr
        · cases heq
          exact hkj ⟨(hs.mine_own k id stage entry hst hm).symm.trans hown, rfl⟩
        · exact hs.release_not_mine k j e stage hr hst hm
      · intro k j m w rpc hst
        obtain ⟨-, hst⟩ := hstage k j _ hst
        obtain ⟨hw, hnone⟩ := hs.ghost_own k j m w rpc hst
        refine ⟨hw, (hclaimed k j).trans ?_⟩
        split
        · rfl
        · exact hnone
      · intro k j m w rpc hst
        exact hs.ghost_ne_mine k j m w rpc (hstage k j _ hst).2
      · intro k j e hc
        exact hs.listed k j e (hsub k j e hc).2
      · intro k j m r w hst
        exact hs.granted k j m r w (hstage k j _ hst).2
      · exact hs.removals_exact
  · cases hstep

/-! ## Calls outside activations -/

section

variable (hs : s.SingleClaim)
include hs

/-- A step outside the hosts keeps the invariant when it removes from the
directory only what it evicts or what was being released. -/
theorem SingleClaim.outside (hhosts : t.hosts = s.hosts)
    (hdir : ∀ j e, t.directory.get j = some e → s.directory.get j = some e)
    (hkeep : ∀ j e, s.directory.get j = some e → t.directory.get j = some e ∨
      e.activationId ∈ t.evicted ∨ (j, e) ∈ s.releases)
    (hreleases : ∀ p ∈ t.releases, p ∈ s.releases)
    (hevictions : ∀ j e, (j, e) ∈ t.evictions → s.Names j e)
    (hevicted : ∀ a ∈ s.evicted, a ∈ t.evicted)
    (hremovals : ∀ r ∈ t.removals, r.removed = r.issuedFor) : t.SingleClaim := by
  have hclaimed : ∀ k j, t.claimedAt k j = s.claimedAt k j := by
    intro k j
    rw [claimedAt, claimedAt, hhosts]
  have hstage : ∀ k j, t.stageAt k j = s.stageAt k j := by
    intro k j
    rw [stageAt, stageAt, hhosts]
  constructor
  · intro j e hn
    refine (hs.named_minted j e ?_).mono (fun k => Nat.le_of_eq (by rw [hhosts]))
    cases hn with
    | directory hd => exact .directory (hdir j e hd)
    | claimed k hc => exact .claimed k (hclaimed k j ▸ hc)
    | release hr => exact .release (hreleases _ hr)
    | eviction hv => exact hevictions j e hv
    | stage k stage hst hmem => exact .stage k stage (hstage k j ▸ hst) hmem
  · intro k j e hc
    exact hs.claimed_own k j e (hclaimed k j ▸ hc)
  · intro k j stage e hst hm
    exact hs.mine_own k j stage e (hstage k j ▸ hst) hm
  · intro k j e hr
    rw [hclaimed]
    exact hs.release_unclaimed k j e (hreleases _ hr)
  · intro k j e stage hr hst
    exact hs.release_not_mine k j e stage (hreleases _ hr) (hstage k j ▸ hst)
  · intro k j m w rpc hst
    rw [hclaimed]
    exact hs.ghost_own k j m w rpc (hstage k j ▸ hst)
  · intro k j m w rpc hst
    exact hs.ghost_ne_mine k j m w rpc (hstage k j ▸ hst)
  · intro k j e hc
    rw [hclaimed] at hc
    rcases hs.listed k j e hc with hv | hd
    · exact Or.inl (hevicted _ hv)
    rcases hkeep j e hd with hd | hv | hr
    · exact Or.inr hd
    · exact Or.inl hv
    · exact absurd hc (hs.release_unclaimed k j e hr)
  · intro k j m r w hst hact
    rw [hstage] at hst
    rcases hs.granted k j m r w hst hact with hv | hd
    · exact Or.inl (hevicted _ hv)
    rcases hkeep j m hd with hd | hv | hr
    · exact Or.inr hd
    · exact Or.inl hv
    · exact absurd rfl (hs.release_not_mine k j m _ hr hst)
  · exact hremovals

theorem SingleClaim.execRelease {n : Nat} (hstep : s.execRelease n = some t) : t.SingleClaim := by
  unfold ClaimState.execRelease at hstep
  split at hstep <;> cases hstep
  rename_i id entry hget
  have hmem : (id, entry) ∈ s.releases := List.mem_of_getElem? hget
  refine hs.outside rfl (fun j e => ActorDirectory.get_of_get_release) ?_
    (fun p => List.mem_of_mem_eraseIdx) (fun j e hv => .eviction hv) (fun _ ha => ha)
    (fun r => hs.removedBy_exact (.release hmem))
  intro j e hd
  by_cases hhit : j = id ∧ e = entry
  · rw [hhit.1, hhit.2]
    exact Or.inr (Or.inr hmem)
  · exact Or.inl (hs.survives (.release hmem) hd (fun hj he => hhit ⟨hj, he⟩))

theorem SingleClaim.loseRelease {n : Nat} (hstep : s.loseRelease n = some t) : t.SingleClaim := by
  unfold ClaimState.loseRelease at hstep
  split at hstep <;> cases hstep
  exact hs.outside rfl (fun _ _ hd => hd) (fun _ _ => Or.inl) (fun p => List.mem_of_mem_eraseIdx)
    (fun j e hv => .eviction hv) (fun _ ha => ha) hs.removals_exact

theorem SingleClaim.issueEvict (hstep : s.issueEvict id = some t) : t.SingleClaim := by
  unfold ClaimState.issueEvict at hstep
  split at hstep <;> cases hstep
  rename_i entry hget
  refine hs.outside rfl (fun _ _ hd => hd) (fun _ _ => Or.inl) (fun _ hp => hp) ?_
    (fun _ ha => ha) hs.removals_exact
  intro j e hv
  rcases List.mem_cons.mp hv with heq | hv
  · cases heq
    exact .directory hget
  · exact .eviction hv

theorem SingleClaim.execEviction {n : Nat} (hstep : s.execEviction n = some t) : t.SingleClaim := by
  unfold ClaimState.execEviction at hstep
  split at hstep <;> cases hstep
  rename_i id entry hget
  have hmem : s.Names id entry := .eviction (List.mem_of_getElem? hget)
  refine hs.outside rfl ?_ ?_ (fun _ hp => hp)
    (fun j e hv => .eviction (List.mem_of_mem_eraseIdx hv)) ?_
    (fun r => hs.removedBy_exact hmem)
  · intro j e hd
    rw [ActorDirectory.evict_snd] at hd
    exact ActorDirectory.get_of_get_release hd
  · intro j e hd
    rw [ActorDirectory.evict_snd]
    by_cases hhit : j = id ∧ e = entry
    · have hremoved : (s.directory.evict id entry).1 = true := by
        rw [ActorDirectory.evict_fst, ← hhit.1, hd, hhit.2, Option.map_some]
      refine Or.inr (Or.inl ?_)
      rw [if_pos hremoved, hhit.2]
      exact List.mem_cons_self
    · exact Or.inl (hs.survives hmem hd (fun hj he => hhit ⟨hj, he⟩))
  · intro a ha
    split
    · exact List.mem_cons_of_mem _ ha
    · exact ha

theorem SingleClaim.evictHost (hostId : String) : (s.evictHost hostId).SingleClaim := by
  refine hs.outside rfl ?_ ?_ (fun _ hp => hp) (fun j e hv => .eviction hv) ?_ hs.removals_exact
  · intro j e hd
    rw [ClaimState.evictHost, ActorDirectory.get_evictHost] at hd
    exact (Option.filter_eq_some_iff.mp hd).1
  · intro j e hd
    by_cases hhost : e.hostId = hostId
    · refine Or.inr (Or.inl (List.mem_append_left _ ?_))
      refine List.mem_map.mpr ⟨(j, e), List.mem_filter.mpr ⟨JsMap.mem_entries_of_get hd, ?_⟩, rfl⟩
      simpa using hhost
    · rw [ClaimState.evictHost, ActorDirectory.get_evictHost, hd]
      simp [Option.filter, hhost]
  · intro a ha
    exact List.mem_append_right _ ha

end

/-! ## Runs -/

theorem SingleClaim.step {l : ClaimLabel} (hs : s.SingleClaim) (hstep : s.step cfg l = some t) :
    t.SingleClaim := by
  cases l with
  | activate h ref => exact hs.activate hstep
  | execClaim h id => exact hs.execClaim hstep
  | claimReply h id => exact hs.claimReply hstep
  | execEvict h id => exact hs.execEvict hstep
  | evictReply h id => exact hs.evictReply hstep
  | directoryFails h id => exact hs.forgets (forgets_directoryFails hstep)
  | created h id => exact hs.forgets (forgets_created hstep)
  | createFails h id => exact hs.forgets (forgets_createFails hstep)
  | dropFailed h id => exact hs.forgets (forgets_dropFailed hstep)
  | deactivate h id => exact hs.forgets (forgets_deactivate hstep)
  | drained h id => exact hs.drained hstep
  | execRelease n => exact hs.execRelease hstep
  | loseRelease n => exact hs.loseRelease hstep
  | issueEvict id => exact hs.issueEvict hstep
  | execEviction n => exact hs.execEviction hstep
  | evictHost hostId => exact Option.some.inj hstep ▸ hs.evictHost hostId
  | selfSuspect h => exact hs.forgets (forgets_selfSuspect hstep)
  | fenceDecide h => exact hs.forgets (forgets_fenceDecide hstep)
  | fenceScan h => exact hs.forgets (forgets_fenceScan hstep)
  | fenceEnd h => exact hs.forgets (forgets_fenceEnd hstep)

/-- The invariant holds in every state a cluster can reach. -/
theorem singleClaim_reachable (h : (claims cfg).Reachable s) : s.SingleClaim :=
  h.invariant (fun _ hinit => hinit ▸ singleClaim_initial) (fun _ _ _ hs _ hstep => hs.step hstep)

end ClaimState

/-- **Single claim.**  In every run, at most one host at a time holds a live claim
for an actor, and no release, eviction or ghost reclaim ever removed an entry
other than the one it was issued for. -/
theorem liveClaim_unique (cfg : ClusterConfig) (s : ClaimState) (h : (claims cfg).Reachable s) :
    (∀ id k k', s.LiveClaim k id → s.LiveClaim k' id → k = k') ∧
      ∀ r ∈ s.removals, r.removed = r.issuedFor :=
  have hs := ClaimState.singleClaim_reachable h
  ⟨fun _ _ _ => hs.live_unique, hs.removals_exact⟩

/-! ## A takeover -/

/-- A peer takes `host-1` for dead, evicts its claim and claims for itself;
`host-1` then drains, and its release arrives late. -/
def takeoverLabels : List ClaimLabel :=
  [.activate "host-1" ⟨"Cart", "a"⟩, .execClaim "host-1" "Cart\x00a",
    .claimReply "host-1" "Cart\x00a", .created "host-1" "Cart\x00a",
    .issueEvict "Cart\x00a", .execEviction 0,
    .activate "host-2" ⟨"Cart", "a"⟩, .execClaim "host-2" "Cart\x00a",
    .claimReply "host-2" "Cart\x00a", .deactivate "host-1" "Cart\x00a",
    .drained "host-1" "Cart\x00a", .execRelease 0]

/-- The state the takeover ends in. -/
def takeover : ClaimState :=
  ((claims cartCluster).exec (fun _ _ => True) .initial takeoverLabels).get (by decide)

/-- The late release leaves the successor's claim live, and the only one. -/
theorem liveClaim_unique_takeover : takeover.LiveClaim "host-2" "Cart\x00a" ∧
      (∀ id k k', takeover.LiveClaim k id → takeover.LiveClaim k' id → k = k') ∧
      ∀ r ∈ takeover.removals, r.removed = r.issuedFor := by
  have hreach : (claims cartCluster).Reachable takeover :=
    Machine.System.Reach.exec_get (.start rfl) takeoverLabels (by decide)
  refine ⟨⟨⟨"host-2", ⟨"host-2", 1, 1⟩⟩, by decide, by decide⟩, ?_⟩
  exact liveClaim_unique cartCluster takeover hreach

end SigxActors.Cluster
