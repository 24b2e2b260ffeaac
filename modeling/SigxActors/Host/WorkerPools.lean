/-
  Host/WorkerPools.lean --- the members of a stateless worker's pool.

  Source: `packages/actors/src/host/local-host.ts` (`memberId`, `#ensurePool`, `#poolTarget`,
  `#spinMember`, `#forgetMember`, `#deactivateById`).

  A member is listed as long as it has a slot, and counts for the cap until it begins to
  deactivate.  A pick is made of what the loop over the members has seen of them.
-/
import SigxActors.Codec.Fields
import SigxActors.Host.LifecycleSlots

set_option autoImplicit false

namespace SigxActors.Host.Lifecycle

open SigxActors.Js

/-! ## Member ids -/

/-- `NUL`. -/
def nul : Char := Char.ofNat 0

/-- `memberId`. -/
def memberId (id : String) (seq : Nat) : String :=
  String.ofList (nul :: id.toList ++ nul :: Nat.toDigits 10 seq)

theorem nul_notMem_toDigits (n : Nat) : nul ∉ Nat.toDigits 10 n := by
  intro hmem
  have hdigit : nul.isDigit := Nat.isDigit_of_mem_toDigits (by decide) (by decide) hmem
  exact absurd hdigit (by decide)

/-- Ids of members are different where the pools or the numbers are. -/
theorem memberId_inj {id id' : String} {seq seq' : Nat} (h : memberId id seq = memberId id' seq') :
    id = id' ∧ seq = seq' := by
  have hlist := String.ofList_injective h
  obtain ⟨hid, hseq⟩ :=
    Codec.append_cons_inj (nul_notMem_toDigits seq) (nul_notMem_toDigits seq') hlist
  refine ⟨String.toList_injective (List.cons.inj hid).2, ?_⟩
  rw [← Nat.ofDigitChars_ten_toDigits (n := seq), hseq, Nat.ofDigitChars_ten_toDigits]

/-- A type is not empty and has no NUL, so no actor has the id of a member. -/
theorem memberId_ne_actor {id : String} {seq : Nat} {c : Char} {rest : List Char} (hc : c ≠ nul) :
    memberId id seq ≠ String.ofList (c :: rest) := by
  intro h
  exact hc (List.cons.inj (String.ofList_injective h)).1.symm

namespace LocalHost

variable {s t : LocalHost} {base : String} {pool : WorkerPool} {id : SlotId}

/-! ## The loop over the members -/

/-- A member counts for the cap. -/
def live (s : LocalHost) (base : String) (m : Nat) : Bool :=
  match s.slots.get ⟨base, some m⟩ with
  | some (.active _) => true
  | some (.activating _) => true
  | _ => false

/-- `turns.depth`. -/
def depth (s : LocalHost) (a : Nat) : Nat := (s.activations[a]?.map (·.depth)).getD 0

/-- A member is active. -/
def ActiveIn (s : LocalHost) (base : String) (m a : Nat) : Prop :=
  s.slots.get ⟨base, some m⟩ = some (.active a)

/-- A member is activating. -/
def ActivatingIn (s : LocalHost) (base : String) (m a : Nat) : Prop :=
  s.slots.get ⟨base, some m⟩ = some (.activating a)

/-- What the loop knows of the members it has seen. -/
structure Seen (s : LocalHost) (base : String) (seen : List Nat) (pick : Pick) : Prop where
  live : pick.live = seen.countP (s.live base)
  best : ∀ a d, pick.best = some (a, d) → d = s.depth a ∧ (∃ m ∈ seen, s.ActiveIn base m a) ∧
    ∀ m ∈ seen, ∀ b, s.ActiveIn base m b → d ≤ s.depth b
  noBest : pick.best = none → ∀ m ∈ seen, ∀ a, ¬ s.ActiveIn base m a
  first : ∀ a, pick.firstActivating = some a → ∃ front m back, seen = front ++ m :: back ∧
    s.ActivatingIn base m a ∧ ∀ m' ∈ front, ∀ b, ¬ s.ActivatingIn base m' b
  noFirst : pick.firstActivating = none → ∀ m ∈ seen, ∀ a, ¬ s.ActivatingIn base m a

theorem Seen.nil (s : LocalHost) (base : String) : Seen s base [] {} :=
  ⟨rfl, nofun, fun _ _ => nofun, nofun, fun _ _ => nofun⟩

theorem Seen.member {seen : List Nat} {pick : Pick} (h : Seen s base seen pick) (m : Nat) :
    Seen s base (seen ++ [m]) (s.pickMember base pick m) := by
  have hkept : ∀ {a : Nat}, (∃ front m' back, seen = front ++ m' :: back ∧
      s.ActivatingIn base m' a ∧ ∀ m'' ∈ front, ∀ b, ¬ s.ActivatingIn base m'' b) →
      ∃ front m' back, seen ++ [m] = front ++ m' :: back ∧
        s.ActivatingIn base m' a ∧ ∀ m'' ∈ front, ∀ b, ¬ s.ActivatingIn base m'' b := by
    rintro a ⟨front, m', back, rfl, hfirst⟩
    exact ⟨front, m', back ++ [m], by rw [List.append_assoc]; rfl, hfirst⟩
  have hsnoc : ∀ {P : Nat → Prop}, (∀ m' ∈ seen, P m') → P m → ∀ m' ∈ seen ++ [m], P m' := by
    intro P hall hm m' hmem
    rcases List.mem_append.1 hmem with hmem | hmem
    · exact hall m' hmem
    · exact List.mem_singleton.1 hmem ▸ hm
  have hcount : (seen ++ [m]).countP (s.live base) =
      pick.live + if s.live base m then 1 else 0 := by
    rw [List.countP_append, List.countP_singleton, h.live]
  unfold pickMember
  split
  case h_1 a hget =>
    have hlive : s.live base m = true := by rw [LocalHost.live, hget]
    have hself : s.ActiveIn base m a := hget
    have hother : ∀ b, ¬ s.ActivatingIn base m b := by
      intro b hb
      rw [ActivatingIn, hget] at hb
      cases hb
    have honly : ∀ b, s.ActiveIn base m b → b = a := by
      intro b hb
      rw [ActiveIn, hget] at hb
      cases hb
      rfl
    refine ⟨by rw [hcount, hlive]; rfl, ?_, ?_, fun b hb => hkept (h.first b hb),
      fun hnone => hsnoc (h.noFirst hnone) hother⟩
    · intro b d hb
      dsimp only at hb
      split at hb
      case h_1 b' least hbest =>
        obtain ⟨hleast, ⟨m', hmem, hactive⟩, hle⟩ := h.best b' least hbest
        split at hb
        case isTrue hlt =>
          cases hb
          refine ⟨rfl, ⟨m, by simp, hself⟩, hsnoc (fun m' hm' c hc => ?_) fun c hc => ?_⟩
          · exact Nat.le_trans (Nat.le_of_lt hlt) (hle m' hm' c hc)
          · exact honly c hc ▸ Nat.le_refl _
        case isFalse hge =>
          cases hb
          refine ⟨hleast, ⟨m', List.mem_append_left _ hmem, hactive⟩, hsnoc hle fun c hc => ?_⟩
          exact honly c hc ▸ Nat.not_lt.1 hge
      case h_2 hbest =>
        cases hb
        refine ⟨rfl, ⟨m, by simp, hself⟩, hsnoc (fun m' hm' c hc => ?_) fun c hc => ?_⟩
        · exact absurd hc (h.noBest hbest m' hm' c)
        · exact honly c hc ▸ Nat.le_refl _
    · intro hnone
      dsimp only at hnone
      split at hnone
      · split at hnone <;> cases hnone
      · cases hnone
  case h_2 a hget =>
    have hlive : s.live base m = true := by rw [LocalHost.live, hget]
    have hself : s.ActivatingIn base m a := hget
    have hother : ∀ b, ¬ s.ActiveIn base m b := by
      intro b hb
      rw [ActiveIn, hget] at hb
      cases hb
    refine ⟨by rw [hcount, hlive]; rfl, ?_, fun hnone => hsnoc (h.noBest hnone) hother, ?_,
      nofun⟩
    · intro b d hb
      obtain ⟨hleast, ⟨m', hmem, hactive⟩, hle⟩ := h.best b d hb
      exact ⟨hleast, ⟨m', List.mem_append_left _ hmem, hactive⟩,
        hsnoc hle fun c hc => absurd hc (hother c)⟩
    · intro b hb
      cases hfirst : pick.firstActivating with
      | some c =>
        rw [hfirst] at hb
        cases hb
        exact hkept (h.first c hfirst)
      | none =>
        rw [hfirst] at hb
        cases hb
        exact ⟨seen, m, [], rfl, hself, h.noFirst hfirst⟩
  case h_3 hneither hneither' =>
    have hnot : ∀ b, ¬ s.ActiveIn base m b := fun b => hneither b
    have hnot' : ∀ b, ¬ s.ActivatingIn base m b := fun b => hneither' b
    have hlive : s.live base m = false := by
      rw [LocalHost.live]
      split
      case h_1 b hb => exact absurd hb (hneither b)
      case h_2 b hb => exact absurd hb (hneither' b)
      case h_3 => rfl
    refine ⟨by rw [hcount, hlive]; rfl, ?_, fun hnone => hsnoc (h.noBest hnone) hnot,
      fun b hb => hkept (h.first b hb), fun hnone => hsnoc (h.noFirst hnone) hnot'⟩
    intro b d hb
    obtain ⟨hleast, ⟨m', hmem, hactive⟩, hle⟩ := h.best b d hb
    exact ⟨hleast, ⟨m', List.mem_append_left _ hmem, hactive⟩,
      hsnoc hle fun c hc => absurd hc (hnot c)⟩

theorem seen_members (s : LocalHost) (base : String) (members : List Nat) :
    Seen s base members (members.foldl (s.pickMember base) {}) := by
  have hfold : ∀ (members seen : List Nat) (pick : Pick), Seen s base seen pick →
      Seen s base (seen ++ members) (members.foldl (s.pickMember base) pick) := by
    intro members
    induction members with
    | nil => exact fun seen pick h => by rwa [List.append_nil]
    | cons m members ih =>
      intro seen pick h
      have hrest := ih _ _ (h.member m)
      rwa [List.append_assoc] at hrest
  exact hfold members [] {} (.nil s base)

/-! ## The pick -/

/-- What `#poolTarget` comes to. -/
inductive Picks (s : LocalHost) (base : String) (pool : WorkerPool) : LocalHost × Nat × Bool → Prop
  /-- An idle member is taken. -/
  | idle {m a : Nat} (hm : m ∈ pool.members) (hactive : s.ActiveIn base m a)
      (hidle : s.depth a = 0) : Picks s base pool (s, a, true)
  /-- Everyone is busy, and there is room under the cap. -/
  | spins (hbusy : ∀ m ∈ pool.members, ∀ a, s.ActiveIn base m a → s.depth a ≠ 0)
      (hroom : pool.members.countP (s.live base) < pool.cap) :
      Picks s base pool (s.spinMember base pool, s.activations.length, false)
  /-- At the cap, the active member with the fewest turns is taken. -/
  | least {m a : Nat} (hfull : pool.cap ≤ pool.members.countP (s.live base)) (hm : m ∈ pool.members)
      (hactive : s.ActiveIn base m a)
      (hleast : ∀ m' ∈ pool.members, ∀ b, s.ActiveIn base m' b → s.depth a ≤ s.depth b)
      (hbusy : s.depth a ≠ 0) : Picks s base pool (s, a, true)
  /-- Nothing is active yet: the first activating member is joined. -/
  | joins {front back : List Nat} {m a : Nat}
      (hfull : pool.cap ≤ pool.members.countP (s.live base))
      (hnone : ∀ m' ∈ pool.members, ∀ b, ¬ s.ActiveIn base m' b)
      (hm : pool.members = front ++ m :: back) (hactivating : s.ActivatingIn base m a)
      (hfirst : ∀ m' ∈ front, ∀ b, ¬ s.ActivatingIn base m' b) : Picks s base pool (s, a, false)

theorem picks_poolTarget (hcap : 1 ≤ pool.cap) : Picks s base pool (s.poolTarget base pool) := by
  have h := seen_members s base pool.members
  unfold poolTarget
  dsimp only
  split
  case h_1 a d hbest =>
    obtain ⟨rfl, ⟨m, hm, hactive⟩, hle⟩ := h.best a d hbest
    split
    case isTrue hidle => exact .idle hm hactive hidle
    case isFalse hbusy =>
      split
      case isTrue hroom =>
        refine .spins (fun m' hm' b hb hzero => hbusy ?_) (h.live ▸ hroom)
        exact Nat.le_zero.1 (hzero ▸ hle m' hm' b hb)
      case isFalse hfull =>
        exact .least (h.live ▸ Nat.not_lt.1 hfull) hm hactive hle hbusy
  case h_2 hnone =>
    have hnotActive := h.noBest hnone
    split
    case isTrue hroom =>
      exact .spins (fun m hm a ha => absurd ha (hnotActive m hm a)) (h.live ▸ hroom)
    case isFalse hfull =>
      have hfull' := h.live ▸ Nat.not_lt.1 hfull
      split
      case h_1 a hfirst =>
        obtain ⟨front, m, back, hm, hactivating, hbefore⟩ := h.first a hfirst
        exact .joins hfull' hnotActive hm hactivating hbefore
      case h_2 hno =>
        -- at a cap of one or more some member is live
        have hlive : 0 < pool.members.countP (s.live base) := Nat.lt_of_lt_of_le hcap hfull'
        obtain ⟨m, hm, hm'⟩ := List.countP_pos_iff.1 hlive
        unfold LocalHost.live at hm'
        split at hm'
        case h_1 a ha => exact absurd ha (hnotActive m hm a)
        case h_2 a ha => exact absurd ha (h.noFirst hno m hm a)
        case h_3 => cases hm'

/-! ## The invariant -/

/-- A pool is of members that have slots, and is within its cap. -/
structure PoolSound (s : LocalHost) (base : String) (pool : WorkerPool) : Prop where
  slots : ∀ m ∈ pool.members, s.slots.get ⟨base, some m⟩ ≠ none
  nodup : pool.members.Nodup
  numbered : ∀ m ∈ pool.members, m < pool.seq
  nonempty : pool.members ≠ []
  cap : 1 ≤ pool.cap
  within : pool.members.countP (s.live base) ≤ pool.cap

def Pooled (s : LocalHost) : Prop :=
  ∀ base pool, s.pools.get base = some pool → s.PoolSound base pool

/-- The pools are as they were, and no member has lost its slot or has come to count. -/
structure Eases (s t : LocalHost) : Prop where
  pools : t.pools = s.pools
  slots : ∀ base m, s.slots.get ⟨base, some m⟩ ≠ none → t.slots.get ⟨base, some m⟩ ≠ none
  live : ∀ base m, t.live base m = true → s.live base m = true

theorem Pooled.eases (h : s.Pooled) (he : Eases s t) : t.Pooled := by
  intro base pool hget
  rw [he.pools] at hget
  have hsound := h base pool hget
  refine ⟨fun m hm => he.slots base m (hsound.slots m hm), hsound.nodup, hsound.numbered,
    hsound.nonempty, hsound.cap, Nat.le_trans ?_ hsound.within⟩
  exact List.countP_mono_left fun m _ => he.live base m

theorem live_congr {base : String} {m : Nat}
    (h : t.slots.get ⟨base, some m⟩ = s.slots.get ⟨base, some m⟩) : t.live base m = s.live base m := by
  unfold live
  rw [h]

/-- The slots of members are as they were. -/
theorem eases_of_slots (hpools : t.pools = s.pools)
    (hslots : ∀ base m, t.slots.get ⟨base, some m⟩ = s.slots.get ⟨base, some m⟩) : Eases s t where
  pools := hpools
  slots base m hne := by rwa [hslots]
  live base m hlive := live_congr (hslots base m) ▸ hlive

theorem Pooled.quiet (h : s.Pooled) (hq : Quiet s t) : t.Pooled :=
  h.eases (eases_of_slots hq.pools fun _ _ => by rw [hq.slots])

/-- A slot goes on to its next phase. -/
theorem Pooled.setSlot (h : s.Pooled) {old slot : Slot Nat Nat} (hget : s.slots.get id = some old)
    (hpools : t.pools = s.pools) (hslots : t.slots = s.slots.set id slot)
    (hlive : (∃ a, slot = .deactivating a) ∨ ∃ a b, slot = .active a ∧ old = .activating b) :
    t.Pooled := by
  refine h.eases ⟨hpools, fun base m hne => ?_, fun base m hm => ?_⟩
  · rw [hslots, JsMap.get_set]
    split
    · exact Option.some_ne_none _
    · exact hne
  · unfold live at hm
    rw [hslots, JsMap.get_set] at hm
    split at hm
    case h_3 => cases hm
    case h_1 a hactive =>
      split at hactive
      case isTrue hid =>
        rcases hlive with ⟨b, rfl⟩ | ⟨b, c, -, rfl⟩
        · cases hactive
        · unfold live
          rw [hid, hget]
      case isFalse =>
        unfold live
        rw [hactive]
    case h_2 a hactivating =>
      split at hactivating
      case isTrue hid =>
        rcases hlive with ⟨b, rfl⟩ | ⟨b, c, rfl, -⟩
        · cases hactivating
        · cases hactivating
      case isFalse =>
        unfold live
        rw [hactivating]

/-- A reservation of the actor's own slot. -/
theorem Pooled.reserve (h : s.Pooled) : (s.reserve ⟨base, none⟩).Pooled := by
  refine h.eases (eases_of_slots rfl fun base' m => ?_)
  have hne : (⟨base', some m⟩ : SlotId) ≠ ⟨base, none⟩ := by simp
  exact (JsMap.get_set _ _ _ _).trans (if_neg hne)

/-- A member is spun where there is room for it. -/
theorem Pooled.spin (hothers : ∀ b p, b ≠ base → s.pools.get b = some p → s.PoolSound b p)
    (hslots : ∀ m ∈ pool.members, s.slots.get ⟨base, some m⟩ ≠ none) (hnodup : pool.members.Nodup)
    (hnumbered : ∀ m ∈ pool.members, m < pool.seq)
    (hroom : pool.members.countP (s.live base) < pool.cap) : (s.spinMember base pool).Pooled := by
  have hget : ∀ b m, (b = base → m ≠ pool.seq) →
      (s.spinMember base pool).slots.get ⟨b, some m⟩ = s.slots.get ⟨b, some m⟩ := by
    intro b m hne
    refine (JsMap.get_set _ _ _ _).trans (if_neg fun heq => ?_)
    obtain ⟨rfl, hm⟩ := SlotId.mk.inj heq
    exact hne rfl (Option.some.inj hm)
  have hself : (s.spinMember base pool).slots.get ⟨base, some pool.seq⟩ =
      some (.activating s.activations.length) := JsMap.get_set_self _ _ _
  have hpools : (s.spinMember base pool).pools = s.pools.set base
      { pool with seq := pool.seq + 1, members := pool.members ++ [pool.seq] } := rfl
  intro b p hb
  rw [hpools, JsMap.get_set] at hb
  split at hb
  case isFalse hne =>
    have hsound := hothers b p hne hb
    have hsame : ∀ m, (s.spinMember base pool).slots.get ⟨b, some m⟩ = s.slots.get ⟨b, some m⟩ :=
      fun m => hget b m fun heq => absurd heq hne
    refine ⟨fun m hm => hsame m ▸ hsound.slots m hm, hsound.nodup, hsound.numbered,
      hsound.nonempty, hsound.cap, Nat.le_trans ?_ hsound.within⟩
    exact List.countP_mono_left fun m _ hm => live_congr (hsame m) ▸ hm
  case isTrue heq =>
    subst heq
    cases hb
    have hold : ∀ m ∈ pool.members,
        (s.spinMember b pool).slots.get ⟨b, some m⟩ = s.slots.get ⟨b, some m⟩ :=
      fun m hm => hget b m fun _ => Nat.ne_of_lt (hnumbered m hm)
    have hfresh : pool.seq ∉ pool.members := fun hm => Nat.lt_irrefl _ (hnumbered _ hm)
    have hcount : pool.members.countP ((s.spinMember b pool).live b) ≤
        pool.members.countP (s.live b) :=
      List.countP_mono_left fun m hm hlive => live_congr (hold m hm) ▸ hlive
    constructor
    case slots =>
      intro m hm
      rcases List.mem_append.1 hm with hm | hm
      · exact hold m hm ▸ hslots m hm
      · rw [List.mem_singleton.1 hm, hself]
        exact Option.some_ne_none _
    case nodup => exact List.nodup_append.2 ⟨hnodup, List.nodup_cons.2 ⟨List.not_mem_nil, .nil⟩,
      fun m hm m' hm' heq => hfresh (List.mem_singleton.1 hm' ▸ heq ▸ hm)⟩
    case numbered =>
      intro m hm
      rcases List.mem_append.1 hm with hm | hm
      · exact Nat.lt_succ_of_lt (hnumbered m hm)
      · exact List.mem_singleton.1 hm ▸ Nat.lt_succ_self _
    case nonempty => exact List.concat_ne_nil _ _
    case cap => exact Nat.lt_of_le_of_lt (Nat.zero_le _) hroom
    case within =>
      have hone : [pool.seq].countP ((s.spinMember b pool).live b) ≤ 1 := List.countP_le_length
      rw [List.countP_append]
      exact Nat.le_trans (Nat.add_le_add hcount hone) hroom

theorem Pooled.poolTarget (h : s.Pooled) (hpool : s.pools.get base = some pool) :
    (s.poolTarget base pool).1.Pooled := by
  have hsound := h base pool hpool
  have hpicks : Picks s base pool (s.poolTarget base pool) := picks_poolTarget hsound.cap
  generalize s.poolTarget base pool = target at hpicks
  cases hpicks with
  | idle | least | joins => exact h
  | spins _ hroom =>
    exact Pooled.spin (fun b p _ hb => h b p hb) hsound.slots hsound.nodup hsound.numbered hroom

/-- A member that is gone is listed no more, and a pool without members is not there. -/
theorem Pooled.forgetMember (h : s.Pooled) (hslots : t.slots = s.slots.erase id)
    (hpools : t.pools = s.pools) : (t.forgetMember id).Pooled := by
  have hget : ∀ b m, (⟨b, some m⟩ : SlotId) ≠ id →
      t.slots.get ⟨b, some m⟩ = s.slots.get ⟨b, some m⟩ := by
    intro b m hne
    rw [hslots, JsMap.get_erase, if_neg hne]
  -- a pool of which nothing is taken
  have hother : ∀ b p, s.pools.get b = some p → (∀ m ∈ p.members, (⟨b, some m⟩ : SlotId) ≠ id) →
      ∀ u : LocalHost, u.slots = t.slots → u.PoolSound b p := by
    intro b p hp hne u hu
    have hsound := h b p hp
    have hsame : ∀ m ∈ p.members, u.slots.get ⟨b, some m⟩ = s.slots.get ⟨b, some m⟩ :=
      fun m hm => by rw [hu, hget b m (hne m hm)]
    refine ⟨fun m hm => hsame m hm ▸ hsound.slots m hm, hsound.nodup, hsound.numbered,
      hsound.nonempty, hsound.cap, Nat.le_trans ?_ hsound.within⟩
    exact List.countP_mono_left fun m hm hlive => live_congr (hsame m hm) ▸ hlive
  unfold LocalHost.forgetMember
  split
  case h_2 hnone =>
    intro b p hp
    rw [hpools] at hp
    refine hother b p hp (fun m _ heq => ?_) t rfl
    subst heq
    exact hnone m p rfl (hpools ▸ hp)
  case h_1 m pool hmember hpool =>
    rw [hpools] at hpool
    have hid : id = ⟨id.base, some m⟩ := by rw [← hmember]
    have hapart : ∀ b p, s.pools.get b = some p → b ≠ id.base →
        ∀ m ∈ p.members, (⟨b, some m⟩ : SlotId) ≠ id :=
      fun b p _ hne m _ heq => hne (congrArg SlotId.base heq)
    dsimp only
    split
    case isTrue hempty =>
      intro b p hp
      rw [JsMap.get_erase] at hp
      split at hp
      case isTrue => cases hp
      case isFalse hne =>
        rw [hpools] at hp
        exact hother b p hp (hapart b p hp hne) _ rfl
    case isFalse hleft =>
      intro b p hp
      rw [JsMap.get_set] at hp
      split at hp
      case isFalse hne =>
        rw [hpools] at hp
        exact hother b p hp (hapart b p hp hne) _ rfl
      case isTrue heq =>
        subst heq
        cases hp
        have hsound := h id.base pool hpool
        have hsub : ∀ m' ∈ pool.members.erase m, m' ∈ pool.members ∧
            (⟨id.base, some m'⟩ : SlotId) ≠ id := by
          intro m' hm'
          obtain ⟨hne, hm⟩ := hsound.nodup.mem_erase_iff.1 hm'
          refine ⟨hm, fun heq => hne ?_⟩
          rw [hid] at heq
          exact Option.some.inj (SlotId.mk.inj heq).2
        have hsame : ∀ m' ∈ pool.members.erase m,
            t.slots.get ⟨id.base, some m'⟩ = s.slots.get ⟨id.base, some m'⟩ :=
          fun m' hm' => hget _ m' (hsub m' hm').2
        constructor
        case slots =>
          intro m' hm' hnone
          exact hsound.slots m' (hsub m' hm').1 ((hsame m' hm').symm.trans hnone)
        case nodup => exact hsound.nodup.erase m
        case numbered => exact fun m' hm' => hsound.numbered m' (hsub m' hm').1
        case nonempty => exact hleft
        case cap => exact hsound.cap
        case within =>
          have hfewer : (pool.members.erase m).countP (s.live id.base) ≤ pool.cap :=
            Nat.le_trans List.erase_sublist.countP_le hsound.within
          refine Nat.le_trans ?_ hfewer
          exact List.countP_mono_left fun m' hm' hlive => live_congr (hsame m' hm') ▸ hlive

/-! ## Steps -/

/-- `defineActor` refuses a cap below one. -/
def Registered (s : LocalHost) : Prop := ∀ base cap, s.definitions base = .stateless cap → 1 ≤ cap

variable {a : Nat} {r : Reaction} {stage : Stage}

theorem pushes_nothing {call : Nat} : ∀ b, Job.forget b ∉ [Job.adoptPromise call a] ∧
    Job.forget b ∉ [Job.hold call a true] := by
  simp

section

variable (h : s.Pooled)
include h

theorem Pooled.returnTarget (hpool : s.pools.get base = some pool) (call : Nat) :
    (s.returnTarget call base pool).Pooled := by
  have htarget := h.poolTarget hpool
  unfold LocalHost.returnTarget
  split
  · rename_i heq
    rw [heq] at htarget
    exact htarget.quiet (quiet_push fun b => (pushes_nothing b).2)
  · rename_i heq
    rw [heq] at htarget
    exact htarget.quiet (quiet_push fun b => (pushes_nothing b).1)

theorem Pooled.activationFor (hregistered : s.Registered) (call : Nat)
    (base : String) : (s.activationFor call base).Pooled := by
  unfold LocalHost.activationFor
  split
  case h_1 pool hpool => exact h.returnTarget hpool call
  case h_2 hpool =>
    split
    case h_1 =>
      split
      case h_1 => exact h.quiet (quiet_awaiting s call _)
      case h_2 => exact h.quiet (quiet_settle s call _)
      case h_3 cap hdefinition =>
        rw [returnTarget_new]
        let ensured : LocalHost := { s with pools := s.pools.set base { cap := cap } }
        have hspun : (ensured.spinMember base { cap := cap }).Pooled := by
          refine Pooled.spin (fun b p hne hb => ?_) (fun _ hm => nomatch hm) List.nodup_nil
            (fun _ hm => nomatch hm) (hregistered base cap hdefinition)
          rw [JsMap.get_set, if_neg hne] at hb
          have hsound := h b p hb
          exact { hsound with }
        exact hspun.quiet (quiet_push fun b => (pushes_nothing b).1)
      case h_4 => exact h.reserve.quiet (quiet_push fun b => (pushes_nothing b).1)
    case h_2 => exact h.quiet (quiet_push fun b => (pushes_nothing b).1)
    case h_3 => exact h.quiet (quiet_push fun b => (pushes_nothing b).2)
    case h_4 => exact h.quiet (quiet_modify (fun _ => ⟨rfl, rfl⟩) fun _ => Nat.le_refl _)

theorem Pooled.goOn (hregistered : s.Registered) (call : Nat) : (s.goOn call).Pooled := by
  unfold LocalHost.goOn
  split
  · exact h.activationFor hregistered call _
  · exact h

theorem Pooled.warmOrSlow (call : Nat) (base : String) : (s.warmOrSlow call base).Pooled := by
  unfold LocalHost.warmOrSlow
  split
  · exact h.quiet (quiet_enqueue s call _)
  split
  · rename_i pool hpool
    have htarget := h.poolTarget hpool
    split
    · rename_i heq
      rw [heq] at htarget
      exact htarget.quiet (quiet_enqueue _ call _)
    · rename_i heq
      rw [heq] at htarget
      exact htarget.quiet (quiet_register nofun)
  · exact h.quiet (quiet_push fun b => by simp)

theorem Pooled.dispatch (hregistered : s.Registered) (base : String)
    (kind : CallKind) (chain : Chain) (admitted : Bool) :
    (s.dispatch base kind chain admitted).Pooled := by
  unfold LocalHost.dispatch
  dsimp only
  generalize hx : ({ base := base, kind := kind, chain := chain, admitted := admitted } : Call) = x
  have h' : Pooled { s with calls := s.calls ++ [x] } := h.quiet (quiet_call s x)
  split
  · exact h'.quiet (quiet_settle _ _ _)
  split
  · exact h'.activationFor hregistered _ _
  · exact h'.quiet (quiet_awaiting _ _ _)
  · exact h'.quiet (quiet_awaiting _ _ _)
  · exact h'.warmOrSlow _ _

theorem Pooled.answer {call : Nat} {awaits : Awaiting} {goesOn : Bool}
    (hregistered : s.Registered) (hstep : s.answer call awaits goesOn = some t) : t.Pooled := by
  unfold LocalHost.answer at hstep
  split at hstep
  case h_2 => cases hstep
  case h_1 x _ =>
    split at hstep
    case isFalse => cases hstep
    case isTrue =>
      cases hstep
      have h' := h.quiet (quiet_awaiting s call none)
      split
      · exact h'.activationFor hregistered _ _
      · exact h'.quiet (quiet_settle _ _ _)

theorem Pooled.setStage (a : Nat) (stage : Stage) : (s.setStage a stage).Pooled :=
  h.eases (eases_of_slots rfl fun _ _ => rfl)

/-- An activation has come to be, or not. -/
theorem Pooled.created {ok : Bool} (hstep : s.created a ok = some t) : t.Pooled := by
  unfold LocalHost.created at hstep
  split at hstep
  case h_2 => cases hstep
  case h_1 act hact =>
    split at hstep
    case isFalse => cases hstep
    case isTrue =>
      cases ok with
      | true =>
        cases hstep
        refine Pooled.quiet ?_ (quiet_resolve _ a)
        split
        case isTrue hget => exact h.setSlot hget rfl rfl (.inr ⟨a, a, rfl, rfl⟩)
        case isFalse => exact h.setStage a _
      | false =>
        cases hstep
        have hfailed := h.setStage a .failed
        refine hfailed.eases ?_
        unfold LocalHost.resolve
        split <;> exact eases_of_slots rfl fun _ _ => rfl

theorem Pooled.beginDeactivation (hget : s.slots.get id = some (.active a)) :
    (s.beginDeactivation id a).Pooled := by
  refine h.setSlot hget (pools_beginDeactivation s id a) ?_ (.inl ⟨a, rfl⟩)
  unfold LocalHost.beginDeactivation
  dsimp only
  split
  · rfl
  · rfl

theorem Pooled.deactivateById (id : SlotId) (hr : r ≠ .forget) :
    (s.deactivateById id r).1.Pooled := by
  unfold LocalHost.deactivateById
  split
  · exact h
  · exact h
  · exact h.quiet (quiet_register hr)
  · rename_i hget
    exact h.beginDeactivation hget

theorem Pooled.resolveDrained (a : Nat) : (s.resolveDrained a).Pooled :=
  (h.setStage a .gone).quiet (quiet_resolveDrained s a)

/-- The deactivation of a slot is over: a member is forgotten with its slot. -/
theorem Pooled.finish (hget : s.slots.get id = some (.deactivating a)) :
    (s.finish a id).Pooled := by
  unfold LocalHost.finish
  rw [if_pos hget]
  split
  case h_1 =>
    have hforgotten : ((s.eraseSlot id).forgetMember id).Pooled := h.forgetMember rfl rfl
    exact hforgotten.resolveDrained a
  case h_2 hmember =>
    have herased : (s.eraseSlot id).Pooled := by
      refine h.eases (eases_of_slots rfl fun base m => ?_)
      refine (JsMap.get_erase s.slots id _).trans (if_neg fun heq => ?_)
      rw [← heq] at hmember
      cases hmember
    exact herased.setStage a .releasing

/-- A failure is handled: a member is forgotten with its reservation. -/
theorem Pooled.forget (hget : s.slots.get id = some (.activating a)) : (s.forget a id).Pooled := by
  unfold LocalHost.forget
  rw [if_pos hget]
  have hforgotten : ((s.eraseSlot id).forgetMember id).Pooled := h.forgetMember rfl rfl
  exact hforgotten

theorem Pooled.stopAll (hw : Wired s) : s.stopAll.Pooled := by
  refine Pooled.quiet (collect_induct (I := fun state => state.1.Pooled) ?_ s.slots.entries s [] []
    s.slots.nodup (fun q hq => JsMap.get_of_mem_entries hq) hw h).2 (quiet_stop _ _)
  rintro s collected waits ⟨id, slot⟩ _ hget h
  cases slot with
  | activating b => exact h.quiet (quiet_register nofun)
  | active b => exact h.beginDeactivation hget
  | deactivating b => exact h

theorem Pooled.stopWait {wait : Nat} {ok : Bool} : (s.stopWait wait a ok).Pooled := by
  unfold LocalHost.stopWait
  split
  case h_2 => exact h
  case h_1 act _ =>
    dsimp only
    cases ok with
    | true =>
      have hnext : (s.deactivateById act.slot (.stop wait)).1.Pooled :=
        h.deactivateById act.slot nofun
      split
      · exact hnext.quiet (quiet_stop _ _)
      · exact hnext
    | false =>
      split
      · exact h.quiet (quiet_stop _ _)
      · exact h

theorem Pooled.runJob {job : Job} {queue : List Job} (hw : Wired s)
    (hregistered : s.Registered) (hqueue : s.queue = job :: queue) :
    (LocalHost.runJob { s with queue := queue } job).Pooled := by
  have h' : Pooled { s with queue := queue } := h.quiet (quiet_queue hqueue)
  cases job with unfold LocalHost.runJob
  | checked call | resume call => exact h'.goOn hregistered call
  | adoptPromise call b => exact h'.quiet (quiet_register nofun)
  | adopted call b ok => exact h'.quiet (quiet_push fun c => by simp)
  | hold call b | enqueue call b =>
    dsimp only
    split
    · exact h'.quiet (quiet_enqueue _ call b)
    · exact h'.quiet (quiet_settle _ call _)
  | forget b =>
    dsimp only
    split
    case h_2 => exact h'
    case h_1 act hact =>
      obtain ⟨id, hshape, hget⟩ := hw.forgets b (hqueue ▸ List.mem_cons_self)
      have hslot : (act.slot, act.stage) = (id, Stage.failed) :=
        Option.some.inj ((shape_of_getElem? hact).symm.trans hshape)
      rw [(Prod.mk.inj hslot).1]
      exact h'.forget hget
  | deactivate b =>
    dsimp only
    split
    · exact h'.deactivateById _ nofun
    · exact h'
  | stop wait b ok => exact h'.stopWait
  | drain b =>
    dsimp only
    split
    · split
      · exact h'.setStage b _
      · exact h'
    · exact h'

theorem Pooled.step {l : Label} (hw : Wired s) (hregistered : s.Registered)
    (hl : l ≠ .deadline) (hstep : localHost.step s l = some t) : t.Pooled := by
  have hmodify : ∀ (b : Nat) (f : Activation → Activation), (s.modify b f).Pooled :=
    fun _ _ => h.eases (eases_of_slots rfl fun _ _ => rfl)
  cases l with simp only [localHost, LocalHost.step] at hstep
  | define base definition =>
    cases hstep
    exact h.eases (eases_of_slots rfl fun _ _ => rfl)
  | dispatch base kind chain admitted =>
    exact Option.some.inj hstep ▸ h.dispatch hregistered base kind chain admitted
  | answer call awaits goesOn => exact h.answer hregistered hstep
  | next =>
    split at hstep
    case h_1 job queue hqueue => exact Option.some.inj hstep ▸ h.runJob hw hregistered hqueue
    case h_2 => cases hstep
  | created b ok => exact h.created hstep
  | tasks b settles => exact Option.some.inj hstep ▸ hmodify b _
  | settled b =>
    split at hstep
    case h_2 => cases hstep
    case h_1 =>
      split at hstep
      case isFalse => cases hstep
      case isTrue => exact Option.some.inj hstep ▸ (h.setStage b _).quiet (quiet_drain _ b)
  | ownTurn b =>
    split at hstep
    case h_2 => cases hstep
    case h_1 =>
      split at hstep
      case isTrue => exact Option.some.inj hstep ▸ h
      case isFalse => exact Option.some.inj hstep ▸ hmodify b _
  | turnEnds b =>
    split at hstep
    case h_2 => cases hstep
    case h_1 =>
      split at hstep
      case isTrue => cases hstep
      case isFalse => exact Option.some.inj hstep ▸ hmodify b _
  | deactivate id => exact Option.some.inj hstep ▸ h.deactivateById id (by simp)
  | drained b =>
    split at hstep
    case h_2 => cases hstep
    case h_1 act hact =>
      split at hstep
      case isFalse => cases hstep
      case isTrue hdrained =>
        have hshape : s.shape b = some (act.slot, .draining) :=
          hdrained.1 ▸ shape_of_getElem? hact
        exact Option.some.inj hstep ▸
          h.finish (hw.slot_of_deactivating hshape (.inr (.inr rfl)))
  | released b =>
    split at hstep
    case h_2 => cases hstep
    case h_1 =>
      split at hstep
      case isFalse => cases hstep
      case isTrue => exact Option.some.inj hstep ▸ h.resolveDrained b
  | stopAll =>
    split at hstep
    case isFalse => cases hstep
    case isTrue => exact Option.some.inj hstep ▸ h.stopAll hw
  | stopDone =>
    split at hstep
    case h_2 => cases hstep
    case h_1 =>
      split at hstep
      case isFalse => cases hstep
      case isTrue => exact Option.some.inj hstep ▸ h.quiet (quiet_stop _ _)
  | deadline => exact absurd rfl hl

end

/-- The host is not stopped by force, and the registry has what `defineActor` has accepted. -/
def Working (s : LocalHost) (l : Label) : Prop := l ≠ .deadline ∧ s.Registered

theorem pooled_of_reach (h : localHost.Reach Working s) : Wired s ∧ s.Pooled := by
  refine h.invariant (I := fun s => Wired s ∧ s.Pooled) ?_ ?_
  · intro s hinit
    refine ⟨wired_initial hinit, ?_⟩
    obtain ⟨definitions, rfl⟩ := hinit
    exact nofun
  · rintro s l t ⟨hw, hpooled⟩ ⟨hl, hregistered⟩ hstep
    exact ⟨hw.step hl hstep, hpooled.step hw hregistered hl hstep⟩

/-! ## Pools -/

/-- A member id is listed in its pool. -/
def Listed (s : LocalHost) (base : String) (m : Nat) : Prop :=
  ∃ pool, s.pools.get base = some pool ∧ m ∈ pool.members

/-- A member is listed exactly as long as it has a slot; a pool has members, no two alike,
and no more that count than its cap; the next member has an id of its own; and a pick is
made as it is said to be. -/
theorem worker_pools (h : localHost.Reach Working s) :
    (∀ base m, s.Listed base m ↔ s.slots.get ⟨base, some m⟩ ≠ none) ∧
    (∀ base pool, s.pools.get base = some pool →
      pool.members ≠ [] ∧ pool.members.Nodup ∧
      pool.members.countP (s.live base) ≤ pool.cap ∧ ¬ s.Listed base pool.seq ∧
      Picks s base pool (s.poolTarget base pool)) ∧
    (∀ id id' seq seq', memberId id seq = memberId id' seq' → id = id' ∧ seq = seq') ∧
    ∀ id seq c rest, c ≠ nul → memberId id seq ≠ String.ofList (c :: rest) := by
  obtain ⟨hw, hpooled⟩ := pooled_of_reach h
  refine ⟨fun base m => ⟨?_, fun hne => ?_⟩, fun base pool hpool => ?_,
    fun _ _ _ _ => memberId_inj, fun _ _ _ _ => memberId_ne_actor⟩
  · rintro ⟨pool, hpool, hm⟩
    exact (hpooled base pool hpool).slots m hm
  · obtain ⟨pool, hpool, -, hm⟩ := hw.members base m hne
    exact ⟨pool, hpool, hm⟩
  · have hsound := hpooled base pool hpool
    refine ⟨hsound.nonempty, hsound.nodup, hsound.within, ?_, picks_poolTarget hsound.cap⟩
    rintro ⟨pool', hpool', hm⟩
    cases hpool.symm.trans hpool'
    exact Nat.lt_irrefl _ (hsound.numbered _ hm)

/-! ## An activating member -/

/-- A pick at the cap is of a member with the fewest turns, be it active or not. -/
def LeastOfAll (s : LocalHost) (base : String) (pool : WorkerPool) : Prop :=
  pool.cap ≤ pool.members.countP (s.live base) →
    ∀ m ∈ pool.members, ∀ b, s.ActiveIn base m b ∨ s.ActivatingIn base m b →
      s.depth (s.poolTarget base pool).2.1 ≤ s.depth b

/-- A step of a host on which everything is a worker with a cap of two. -/
theorem reach_step {s t : LocalHost} (l : Label) (h : localHost.Reach Working s)
    (hl : l ≠ .deadline) (hdefinitions : s.definitions = fun _ => .stateless 2)
    (hstep : localHost.step s l = some t) : localHost.Reach Working t := by
  refine h.next ⟨hl, fun base cap heq => ?_⟩ hstep
  rw [hdefinitions] at heq
  cases heq
  decide

/-- A call of the worker `w`. -/
def workerCall : Label := .dispatch "w" .call .outside true

/-- Two calls have come: the first has its turn, and a second member is activating. -/
theorem reach_crowded : ∃ s, localHost.Reach Working s ∧
    s.pools.get "w" = some ⟨2, 2, [0, 1]⟩ ∧ [0, 1].countP (s.live "w") = 2 ∧
    (s.poolTarget "w" ⟨2, 2, [0, 1]⟩).2 = (0, true) ∧ s.depth 0 = 1 ∧ s.depth 1 = 0 ∧
    s.ActivatingIn "w" 1 1 := by
  have h₀ : localHost.Reach Working { definitions := fun _ => .stateless 2 } := .start ⟨_, rfl⟩
  have h₁ := reach_step workerCall h₀ nofun rfl rfl
  have h₂ := reach_step .next h₁ nofun rfl rfl
  have h₃ := reach_step .next h₂ nofun rfl rfl
  have h₄ := reach_step (.created 0 true) h₃ nofun rfl rfl
  have h₅ := reach_step .next h₄ nofun rfl rfl
  have h₆ := reach_step .next h₅ nofun rfl rfl
  have h₇ := reach_step workerCall h₆ nofun rfl rfl
  refine ⟨_, h₇, ?_⟩
  unfold ActivatingIn
  decide +kernel

theorem worker_pools_crowded : ∃ s : LocalHost, ∃ pool, s.pools.get "w" = some pool ∧
    pool.members = [0, 1] ∧ pool.members.countP (s.live "w") ≤ pool.cap ∧
    Picks s "w" pool (s.poolTarget "w" pool) := by
  obtain ⟨s, hreach, hpool, -⟩ := reach_crowded
  obtain ⟨-, -, hwithin, -, hpicks⟩ := (worker_pools hreach).2.1 "w" _ hpool
  exact ⟨s, _, hpool, rfl, hwithin, hpicks⟩

/-- The member with the turn is picked, although the other has none. -/
theorem not_least_of_all : ¬ ∀ s : LocalHost, localHost.Reach Working s → ∀ base pool,
    s.pools.get base = some pool → s.LeastOfAll base pool := by
  intro h
  obtain ⟨s, hreach, hpool, hfull, hpick, hbusy, hnone, hactivating⟩ := reach_crowded
  have hle := h s hreach "w" _ hpool (Nat.le_of_eq hfull.symm) 1 (by decide) 1 (.inr hactivating)
  rw [hpick, hbusy, hnone] at hle
  exact absurd hle (by decide)

end LocalHost

end SigxActors.Host.Lifecycle
