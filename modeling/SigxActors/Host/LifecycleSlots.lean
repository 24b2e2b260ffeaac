/-
  Host/LifecycleSlots.lean --- one slot for an activation until it has drained.

  Source: `packages/actors/src/host/local-host.ts`.

  Until `stopAll` drops the slots, an activation has a slot from its reservation until it
  has drained or its failure is handled, and no slot names another.  So an actor, or a
  member of a pool, has one activation at a time that has not drained.
-/
import SigxActors.Host.Lifecycle

set_option autoImplicit false

namespace SigxActors.Host.Lifecycle

open SigxActors.Js

/-! ## Slots and stages -/

/-- The activation that a slot names. -/
def named : Slot Nat Nat → Nat
  | .activating a => a
  | .active a => a
  | .deactivating a => a

/-- The stages at which an activation has such a slot. -/
def Fits : Slot Nat Nat → Stage → Prop
  | .activating _, stage => stage = .activating ∨ stage = .failed
  | .active _, stage => stage = .active
  | .deactivating _, stage => stage = .settling ∨ stage = .closed ∨ stage = .draining

/-- It has not drained. -/
def Stage.placed : Stage → Bool
  | .activating | .active | .settling | .closed | .draining => true
  | _ => false

namespace LocalHost

variable {s t u : LocalHost} {a b : Nat} {id : SlotId} {stage : Stage} {r : Reaction}

/-- Where an activation is kept, and how far it has come. -/
def shape (s : LocalHost) (a : Nat) : Option (SlotId × Stage) :=
  s.activations[a]?.map fun act => (act.slot, act.stage)

theorem shape_of_getElem? {act : Activation} (h : s.activations[a]? = some act) :
    s.shape a = some (act.slot, act.stage) := by
  rw [shape, h]
  rfl

theorem exists_of_shape (h : s.shape a = some (id, stage)) :
    ∃ act, s.activations[a]? = some act ∧ act.slot = id ∧ act.stage = stage := by
  obtain ⟨act, hact, heq⟩ := Option.map_eq_some_iff.1 h
  obtain ⟨hslot, hstage⟩ := Prod.mk.inj heq
  exact ⟨act, hact, hslot, hstage⟩

theorem getElem?_modify (s : LocalHost) (a b : Nat) (f : Activation → Activation) :
    (s.modify a f).activations[b]? =
      s.activations[b]?.map fun act => if b = a then f act else act := by
  refine (List.getElem?_modify f a s.activations b).trans ?_
  by_cases h : b = a
  · subst h
    simp
  · have h' : ¬ a = b := fun heq => h heq.symm
    simp [h, h']

theorem shape_modify (s : LocalHost) (a b : Nat) {f : Activation → Activation}
    (hf : ∀ act, (f act).slot = act.slot ∧ (f act).stage = act.stage) :
    (s.modify a f).shape b = s.shape b := by
  rw [shape, getElem?_modify, shape]
  cases s.activations[b]? with
  | none => rfl
  | some act =>
    by_cases h : b = a
    · simp [h, hf act]
    · simp [h]

theorem shape_setStage (s : LocalHost) (a b : Nat) (stage : Stage) : (s.setStage a stage).shape b =
      if b = a then (s.shape b).map fun q => (q.1, stage) else s.shape b := by
  rw [setStage, shape, getElem?_modify, shape]
  cases s.activations[b]? with
  | none | some =>
    split <;> rfl

theorem shape_reserve (s : LocalHost) (id : SlotId) (b : Nat) : (s.reserve id).shape b =
      if b = s.activations.length then some (id, .activating) else s.shape b := by
  unfold shape reserve
  rw [List.getElem?_append]
  by_cases hb : b < s.activations.length
  · rw [if_pos hb, if_neg (Nat.ne_of_lt hb)]
  rw [if_neg hb]
  by_cases heq : b = s.activations.length
  · subst heq
    simp
  · have hpast : ([{ slot := id }] : List Activation).length ≤ b - s.activations.length := by
      rw [List.length_singleton]
      omega
    rw [if_neg heq, List.getElem?_eq_none (Nat.not_lt.1 hb), List.getElem?_eq_none hpast]

/-! ## The invariant -/

structure Wired (s : LocalHost) : Prop where
  fits : ∀ id slot, s.slots.get id = some slot →
    ∃ stage, s.shape (named slot) = some (id, stage) ∧ Fits slot stage
  placed : ∀ a id stage, s.shape a = some (id, stage) → stage.placed = true →
    ∃ slot, s.slots.get id = some slot ∧ named slot = a
  members : ∀ base m, s.slots.get ⟨base, some m⟩ ≠ none →
    ∃ pool, s.pools.get base = some pool ∧ m < pool.seq ∧ m ∈ pool.members
  /-- A failed activation has its slot until its failure is handled, which is once. -/
  forgets : ∀ a, .forget a ∈ s.queue →
    ∃ id, s.shape a = some (id, .failed) ∧ s.slots.get id = some (.activating a)
  once : ∀ a, s.queue.count (.forget a) ≤ 1
  oneCatch : ∀ act ∈ s.activations, act.reactions.count .forget ≤ 1

/-- No slot, stage or pool has changed, and no failure has come to be handled. -/
structure Quiet (s t : LocalHost) : Prop where
  slots : t.slots = s.slots
  pools : t.pools = s.pools
  shape : ∀ a, t.shape a = s.shape a
  queue : ∀ a, t.queue.count (.forget a) ≤ s.queue.count (.forget a)
  catches : ∀ act ∈ t.activations, ∃ old ∈ s.activations,
    act.reactions.count .forget ≤ old.reactions.count .forget

theorem Quiet.refl (s : LocalHost) : Quiet s s :=
  ⟨rfl, rfl, fun _ => rfl, fun _ => Nat.le_refl _, fun act hact => ⟨act, hact, Nat.le_refl _⟩⟩

theorem Quiet.trans (h : Quiet s t) (h' : Quiet t u) : Quiet s u := by
  refine ⟨h'.slots.trans h.slots, h'.pools.trans h.pools, fun a => (h'.shape a).trans (h.shape a),
    fun a => Nat.le_trans (h'.queue a) (h.queue a), ?_⟩
  intro act hact
  obtain ⟨mid, hmid, hle⟩ := h'.catches act hact
  obtain ⟨old, hold, hle'⟩ := h.catches mid hmid
  exact ⟨old, hold, Nat.le_trans hle hle'⟩

theorem Wired.quiet (hw : Wired s) (h : Quiet s t) : Wired t := by
  constructor
  case fits =>
    intro id slot hget
    rw [h.slots] at hget
    rw [h.shape]
    exact hw.fits id slot hget
  case placed =>
    intro a id stage hshape hplaced
    rw [h.shape] at hshape
    rw [h.slots]
    exact hw.placed a id stage hshape hplaced
  case members =>
    intro base m hget
    rw [h.slots] at hget
    rw [h.pools]
    exact hw.members base m hget
  case forgets =>
    intro a hmem
    have hold : Job.forget a ∈ s.queue :=
      List.count_pos_iff.1 (Nat.lt_of_lt_of_le (List.count_pos_iff.2 hmem) (h.queue a))
    obtain ⟨id, hshape, hget⟩ := hw.forgets a hold
    exact ⟨id, (h.shape a).trans hshape, h.slots ▸ hget⟩
  case once => exact fun a => Nat.le_trans (h.queue a) (hw.once a)
  case oneCatch =>
    intro act hact
    obtain ⟨old, hold, hle⟩ := h.catches act hact
    exact Nat.le_trans hle (hw.oneCatch old hold)

/-! ## Quiet steps -/

theorem quiet_push {jobs : List Job} (hjobs : ∀ a, .forget a ∉ jobs) : Quiet s (s.push jobs) := by
  refine ⟨rfl, rfl, fun _ => rfl, ?_, fun act hact => ⟨act, hact, Nat.le_refl _⟩⟩
  intro a
  have hqueue : (s.push jobs).queue = s.queue ++ jobs := rfl
  rw [hqueue, List.count_append, List.count_eq_zero.2 (hjobs a)]
  exact Nat.le_refl _

theorem quiet_modify {f : Activation → Activation}
    (hf : ∀ act, (f act).slot = act.slot ∧ (f act).stage = act.stage)
    (hcatch : ∀ act, (f act).reactions.count .forget ≤ act.reactions.count .forget) :
    Quiet s (s.modify a f) := by
  refine ⟨rfl, rfl, fun b => shape_modify s a b hf, fun _ => Nat.le_refl _, ?_⟩
  intro act hact
  obtain ⟨b, hb⟩ := List.mem_iff_getElem?.1 hact
  rw [getElem?_modify] at hb
  obtain ⟨old, hold, rfl⟩ := Option.map_eq_some_iff.1 hb
  refine ⟨old, List.mem_of_getElem? hold, ?_⟩
  split
  · exact hcatch old
  · exact Nat.le_refl _

theorem quiet_settle (s : LocalHost) (call : Nat) (outcome : Outcome) :
    Quiet s (s.settle call outcome) :=
  ⟨rfl, rfl, fun _ => rfl, fun _ => Nat.le_refl _, fun act hact => ⟨act, hact, Nat.le_refl _⟩⟩

theorem quiet_awaiting (s : LocalHost) (call : Nat) (awaits : Option Awaiting) :
    Quiet s (s.awaiting call awaits) :=
  ⟨rfl, rfl, fun _ => rfl, fun _ => Nat.le_refl _, fun act hact => ⟨act, hact, Nat.le_refl _⟩⟩

variable {queue : List Job} {base : String} {pool : WorkerPool} {call : Nat}

theorem quiet_queue {job : Job} (h : s.queue = job :: queue) :
    Quiet s { s with queue := queue } := by
  refine ⟨rfl, rfl, fun _ => rfl, ?_, fun act hact => ⟨act, hact, Nat.le_refl _⟩⟩
  intro a
  rw [h]
  exact List.count_le_count_cons

theorem job_ne_forget (hr : r ≠ .forget) (ok : Bool) (b : Nat) :
    .forget b ∉ (r.job a ok).toList := by
  cases r with
  | forget => exact absurd rfl hr
  | adopt | enqueue | stop => simp [Reaction.job]
  | deactivate =>
    cases ok with
    | true | false => simp [Reaction.job]

theorem quiet_register (hr : r ≠ .forget) : Quiet s (s.register a r) := by
  unfold register
  split
  · split
    · refine quiet_modify (fun _ => ⟨rfl, rfl⟩) fun act => ?_
      have hzero : [r].count .forget = 0 := by
        rw [List.count_eq_zero, List.mem_singleton]
        exact fun h => hr h.symm
      rw [List.count_append, hzero]
      exact Nat.le_refl _
    · exact quiet_push fun b => job_ne_forget hr false b
    · exact quiet_push fun b => job_ne_forget hr true b
  · exact Quiet.refl s

theorem quiet_enqueue (s : LocalHost) (call a : Nat) : Quiet s (s.enqueue call a) := by
  unfold enqueue
  split
  · split
    · exact quiet_settle s call .shutdown
    split
    · exact quiet_settle s call .otherwise
    split
    · exact quiet_settle s call .shutdown
    refine (quiet_modify ?_ ?_).trans (quiet_settle _ call _)
    · exact fun _ => ⟨rfl, rfl⟩
    · exact fun _ => Nat.le_refl _
  · exact Quiet.refl s

/-! ## What moves an activation -/

/-- Activation `a` has come to another stage, and to another slot or to none. -/
structure Moved (s t : LocalHost) (a : Nat) (id : SlotId) (stage : Stage)
    (slot : Option (Slot Nat Nat)) : Prop where
  shape : ∀ b, t.shape b = if b = a then some (id, stage) else s.shape b
  slots : ∀ j, t.slots.get j = if j = id then slot else s.slots.get j
  queue : ∀ b, t.queue.count (.forget b) ≤ s.queue.count (.forget b)
  catches : ∀ act ∈ t.activations, ∃ old ∈ s.activations,
    act.reactions.count .forget ≤ old.reactions.count .forget

theorem Wired.mem_forgets {t : LocalHost} (hqueue : t.queue.count (.forget b) ≤ s.queue.count (.forget b))
    (h : .forget b ∈ t.queue) : .forget b ∈ s.queue :=
  List.count_pos_iff.1 (Nat.lt_of_lt_of_le (List.count_pos_iff.2 h) hqueue)

theorem Wired.oneCatch_of_catches (hw : Wired s) (h : ∀ act ∈ t.activations, ∃ old ∈ s.activations,
      act.reactions.count .forget ≤ old.reactions.count .forget) :
    ∀ act ∈ t.activations, act.reactions.count .forget ≤ 1 := by
  intro act hact
  obtain ⟨old, hold, hle⟩ := h act hact
  exact Nat.le_trans hle (hw.oneCatch old hold)

/-- A slot names the activation whose slot it is, and no other slot does. -/
theorem Wired.slot_unique (hw : Wired s) {j : SlotId} {slot slot' : Slot Nat Nat}
    (h : s.slots.get id = some slot) (h' : s.slots.get j = some slot')
    (hnamed : named slot = named slot') : id = j := by
  obtain ⟨_, hshape, -⟩ := hw.fits id slot h
  obtain ⟨_, hshape', -⟩ := hw.fits j slot' h'
  rw [hnamed] at hshape
  exact (Prod.mk.inj (Option.some.inj (hshape.symm.trans hshape'))).1

/-- The activation of a slot that is not one of a failure comes to another stage. -/
theorem Wired.moved (hw : Wired s) {old slot : Slot Nat Nat} (hget : s.slots.get id = some old)
    (hold : named old = a) (hfailed : .forget a ∉ s.queue)
    (hmoved : Moved s t a id stage (some slot)) (hslot : named slot = a) (hfits : Fits slot stage)
    (hpools : t.pools = s.pools) : Wired t := by
  subst hold
  constructor
  case fits =>
    intro j other hother
    rw [hmoved.slots] at hother
    split at hother
    · rename_i hj
      cases hother
      exact ⟨stage, by rw [hslot, hmoved.shape, if_pos rfl, hj], hfits⟩
    · rename_i hj
      obtain ⟨st, hshape, hfit⟩ := hw.fits j other hother
      refine ⟨st, ?_, hfit⟩
      rw [hmoved.shape, if_neg]
      · exact hshape
      · exact fun heq => hj (hw.slot_unique hother hget heq)
  case placed =>
    intro b j st hshape hplaced
    rw [hmoved.shape] at hshape
    split at hshape
    · rename_i hb
      obtain ⟨rfl, rfl⟩ := Prod.mk.inj (Option.some.inj hshape)
      exact ⟨slot, by rw [hmoved.slots, if_pos rfl], hslot.trans hb.symm⟩
    · rename_i hb
      obtain ⟨other, hother, hnamed⟩ := hw.placed b j st hshape hplaced
      refine ⟨other, ?_, hnamed⟩
      rw [hmoved.slots, if_neg]
      · exact hother
      · rintro rfl
        cases hget.symm.trans hother
        exact hb hnamed.symm
  case members =>
    intro base m hne
    rw [hpools]
    refine hw.members base m fun hnone => hne ?_
    rw [hmoved.slots, if_neg]
    · exact hnone
    · intro heq
      rw [heq, hget] at hnone
      simp at hnone
  case forgets =>
    intro b hmem
    have hmem := Wired.mem_forgets (hmoved.queue b) hmem
    obtain ⟨j, hshape, hforget⟩ := hw.forgets b hmem
    have hb : b ≠ named old := fun heq => hfailed (heq ▸ hmem)
    refine ⟨j, by rw [hmoved.shape, if_neg hb]; exact hshape, ?_⟩
    rw [hmoved.slots, if_neg]
    · exact hforget
    · rintro rfl
      cases hget.symm.trans hforget
      exact hb rfl
  case once => exact fun b => Nat.le_trans (hmoved.queue b) (hw.once b)
  case oneCatch => exact hw.oneCatch_of_catches hmoved.catches

/-- The activation of a slot loses it, for it has drained or its failure is handled. -/
theorem Wired.dropped (hw : Wired s) {old : Slot Nat Nat} (hget : s.slots.get id = some old)
    (hold : named old = a) (hmoved : Moved s t a id stage none) (hplaced : stage.placed = false)
    (hforget : .forget a ∉ t.queue) (hpools : ∀ base m, ⟨base, some m⟩ ≠ id →
      (∃ pool, s.pools.get base = some pool ∧ m < pool.seq ∧ m ∈ pool.members) →
      ∃ pool, t.pools.get base = some pool ∧ m < pool.seq ∧ m ∈ pool.members) : Wired t := by
  subst hold
  constructor
  case fits =>
    intro j other hother
    rw [hmoved.slots] at hother
    obtain ⟨hj, hother⟩ := guard_past hother
    obtain ⟨st, hshape, hfit⟩ := hw.fits j other hother
    refine ⟨st, ?_, hfit⟩
    rw [hmoved.shape, if_neg]
    · exact hshape
    · exact fun heq => hj (hw.slot_unique hother hget heq)
  case placed =>
    intro b j st hshape hst
    rw [hmoved.shape] at hshape
    split at hshape
    · obtain ⟨-, rfl⟩ := Prod.mk.inj (Option.some.inj hshape)
      exact absurd hst (by simp [hplaced])
    rename_i hb
    obtain ⟨other, hother, hnamed⟩ := hw.placed b j st hshape hst
    refine ⟨other, ?_, hnamed⟩
    rw [hmoved.slots, if_neg]
    · exact hother
    · rintro rfl
      cases hget.symm.trans hother
      exact hb hnamed.symm
  case members =>
    intro base m hne
    rw [hmoved.slots] at hne
    split at hne
    · exact absurd rfl hne
    · rename_i hj
      exact hpools base m hj (hw.members base m hne)
  case forgets =>
    intro b hmem
    have hb : b ≠ named old := fun heq => hforget (heq ▸ hmem)
    obtain ⟨j, hshape, hactivating⟩ := hw.forgets b (Wired.mem_forgets (hmoved.queue b) hmem)
    refine ⟨j, by rw [hmoved.shape, if_neg hb]; exact hshape, ?_⟩
    rw [hmoved.slots, if_neg]
    · exact hactivating
    · rintro rfl
      cases hget.symm.trans hactivating
      exact hb rfl
  case once => exact fun b => Nat.le_trans (hmoved.queue b) (hw.once b)
  case oneCatch => exact hw.oneCatch_of_catches hmoved.catches

/-- An activation without a slot comes to another stage without one. -/
theorem Wired.setStage_unplaced (hw : Wired s) {old : Stage} (hshape : s.shape a = some (id, old))
    (hold : ∀ slot, ¬ Fits slot old) (hplaced : stage.placed = false) :
    Wired (s.setStage a stage) := by
  have hother : ∀ j slot, s.slots.get j = some slot → named slot ≠ a := by
    rintro j slot hget rfl
    obtain ⟨st, hst, hfit⟩ := hw.fits j slot hget
    obtain ⟨-, rfl⟩ := Prod.mk.inj (Option.some.inj (hshape.symm.trans hst))
    exact hold slot hfit
  have hcatches : ∀ act ∈ (s.setStage a stage).activations, ∃ old ∈ s.activations,
      act.reactions.count .forget ≤ old.reactions.count .forget := by
    intro act hact
    obtain ⟨b, hb⟩ := List.mem_iff_getElem?.1 hact
    rw [setStage, getElem?_modify] at hb
    obtain ⟨old, hold, rfl⟩ := Option.map_eq_some_iff.1 hb
    refine ⟨old, List.mem_of_getElem? hold, ?_⟩
    split <;> exact Nat.le_refl _
  constructor
  case fits =>
    intro j slot hget
    obtain ⟨st, hst, hfit⟩ := hw.fits j slot hget
    exact ⟨st, by rw [shape_setStage, if_neg (hother j slot hget)]; exact hst, hfit⟩
  case placed =>
    intro b j st hst hpl
    rw [shape_setStage] at hst
    split at hst
    · obtain ⟨q, -, hq⟩ := Option.map_eq_some_iff.1 hst
      obtain ⟨-, rfl⟩ := Prod.mk.inj hq
      exact absurd hpl (by simp [hplaced])
    · exact hw.placed b j st hst hpl
  case members => exact hw.members
  case forgets =>
    intro b hmem
    obtain ⟨j, hst, hget⟩ := hw.forgets b hmem
    have hne : b ≠ a := hother j _ hget
    exact ⟨j, by rw [shape_setStage, if_neg hne]; exact hst, hget⟩
  case once => exact hw.once
  case oneCatch => exact hw.oneCatch_of_catches hcatches

/-! ## Reservations -/

theorem ne_length_of_shape {q : SlotId × Stage} (h : s.shape a = some q) :
    a ≠ s.activations.length := by
  rintro rfl
  rw [shape, List.getElem?_eq_none (Nat.le_refl _)] at h
  simp at h

theorem Wired.reserve (hw : Wired s) (hnone : s.slots.get id = none)
    (hmember : ∀ m, id.member = some m →
      ∃ pool, s.pools.get id.base = some pool ∧ m < pool.seq ∧ m ∈ pool.members) :
    Wired (s.reserve id) := by
  have hslots : ∀ j, (s.reserve id).slots.get j =
      if j = id then some (.activating s.activations.length) else s.slots.get j :=
    fun j => JsMap.get_set _ _ _ _
  have hold : ∀ b q, s.shape b = some q → (s.reserve id).shape b = some q := by
    intro b q hb
    rw [shape_reserve, if_neg (ne_length_of_shape hb)]
    exact hb
  constructor
  case fits =>
    intro j slot hget
    rw [hslots] at hget
    split at hget
    · rename_i hj
      cases hget
      exact ⟨.activating, by rw [named, shape_reserve, if_pos rfl, hj], .inl rfl⟩
    · obtain ⟨st, hst, hfit⟩ := hw.fits j slot hget
      exact ⟨st, hold _ _ hst, hfit⟩
  case placed =>
    intro b j st hst hpl
    rw [shape_reserve] at hst
    split at hst
    · rename_i hb
      obtain ⟨rfl, -⟩ := Prod.mk.inj (Option.some.inj hst)
      exact ⟨.activating s.activations.length, by rw [hslots, if_pos rfl], hb.symm⟩
    · obtain ⟨slot, hget, hnamed⟩ := hw.placed b j st hst hpl
      refine ⟨slot, ?_, hnamed⟩
      rw [hslots, if_neg]
      · exact hget
      · rintro rfl
        rw [hnone] at hget
        simp at hget
  case members =>
    intro base m hne
    by_cases hj : (⟨base, some m⟩ : SlotId) = id
    · subst hj
      exact hmember m rfl
    · rw [hslots, if_neg hj] at hne
      exact hw.members base m hne
  case forgets =>
    intro b hmem
    obtain ⟨j, hst, hget⟩ := hw.forgets b hmem
    refine ⟨j, hold _ _ hst, ?_⟩
    rw [hslots, if_neg]
    · exact hget
    · rintro rfl
      rw [hnone] at hget
      simp at hget
  case once => exact hw.once
  case oneCatch =>
    intro act hact
    rcases List.mem_append.1 hact with hact | hact
    · exact hw.oneCatch act hact
    · rw [List.mem_singleton.1 hact]
      exact Nat.le_of_eq rfl

/-- A change to the pools that loses no member. -/
theorem Wired.setPools (hw : Wired s) {pools : JsMap String WorkerPool}
    (hpools : ∀ base m, s.slots.get ⟨base, some m⟩ ≠ none →
      ∃ pool, pools.get base = some pool ∧ m < pool.seq ∧ m ∈ pool.members) :
    Wired { s with pools := pools } :=
  { hw with members := hpools }

/-- A reservation, and what it does to the pools. -/
structure Reserves (s : LocalHost) (id : SlotId) (t : LocalHost) : Prop where
  empty : s.slots.get id = none
  eq : ∃ pools, t = LocalHost.reserve { s with pools := pools } id
  wired : Wired t

/-- What `#poolTarget` comes to. -/
inductive Targeted (s : LocalHost) (base : String) : LocalHost × Nat × Bool → Prop
  | picked {a : Nat} {id : SlotId} (hbase : id.base = base)
      (hget : s.slots.get id = some (.active a)) : Targeted s base (s, a, true)
  | joined {a : Nat} {id : SlotId} (hbase : id.base = base)
      (hget : s.slots.get id = some (.activating a)) : Targeted s base (s, a, false)
  | spun {t : LocalHost} {id : SlotId} (hbase : id.base = base) (h : Reserves s id t) :
      Targeted s base (t, s.activations.length, false)

theorem reserves_spinMember (hw : Wired s) (hpool : s.pools.get base = some pool) :
    Reserves s ⟨base, some pool.seq⟩ (s.spinMember base pool) := by
  have hempty : s.slots.get ⟨base, some pool.seq⟩ = none := by
    refine Decidable.byContradiction fun hne => ?_
    obtain ⟨pool', hget, hlt, -⟩ := hw.members base pool.seq hne
    cases hpool.symm.trans hget
    exact Nat.lt_irrefl _ hlt
  refine ⟨hempty, ⟨_, rfl⟩, ?_⟩
  refine Wired.reserve (hw.setPools ?_) hempty ?_
  · intro b m hne
    obtain ⟨old, hget, hlt, hmem⟩ := hw.members b m hne
    rw [JsMap.get_set]
    split
    · rename_i hb
      subst hb
      cases hpool.symm.trans hget
      exact ⟨_, rfl, Nat.lt_succ_of_lt hlt, List.mem_append_left _ hmem⟩
    · exact ⟨old, hget, hlt, hmem⟩
  · intro m hm
    cases hm
    exact ⟨_, JsMap.get_set_self _ _ _, Nat.lt_succ_self _, by simp⟩

/-- The loop of `#poolTarget` picks from the members that have a slot. -/
theorem pick_members (s : LocalHost) (base : String) (members : List Nat) :
    (∀ q, (members.foldl (s.pickMember base) {}).best = some q →
      ∃ id : SlotId, id.base = base ∧ s.slots.get id = some (.active q.1)) ∧
    ∀ a, (members.foldl (s.pickMember base) {}).firstActivating = some a →
      ∃ id : SlotId, id.base = base ∧ s.slots.get id = some (.activating a) := by
  have hfold : ∀ (members : List Nat) (pick : Pick),
      ((∀ q, pick.best = some q →
        ∃ id : SlotId, id.base = base ∧ s.slots.get id = some (.active q.1)) ∧
      ∀ a, pick.firstActivating = some a →
        ∃ id : SlotId, id.base = base ∧ s.slots.get id = some (.activating a)) →
      (∀ q, (members.foldl (s.pickMember base) pick).best = some q →
        ∃ id : SlotId, id.base = base ∧ s.slots.get id = some (.active q.1)) ∧
      ∀ a, (members.foldl (s.pickMember base) pick).firstActivating = some a →
        ∃ id : SlotId, id.base = base ∧ s.slots.get id = some (.activating a) := by
    intro members
    induction members with
    | nil => exact fun pick h => h
    | cons m members ih =>
      rintro pick ⟨hbest, hfirst⟩
      refine ih _ ?_
      unfold pickMember
      split
      · rename_i a hget
        refine ⟨fun q hq => ?_, hfirst⟩
        dsimp only at hq
        split at hq
        · rename_i b least hb
          split at hq
          · exact Option.some.inj hq ▸ ⟨_, rfl, hget⟩
          · exact Option.some.inj hq ▸ hbest _ hb
        · exact Option.some.inj hq ▸ ⟨_, rfl, hget⟩
      · rename_i a hget
        refine ⟨hbest, fun b hb => ?_⟩
        cases hf : pick.firstActivating with
        | none =>
          rw [hf] at hb
          exact Option.some.inj hb ▸ ⟨_, rfl, hget⟩
        | some c =>
          rw [hf] at hb
          exact Option.some.inj hb ▸ hfirst c hf
      · exact ⟨hbest, hfirst⟩
  exact hfold members {} ⟨fun q hq => by simp at hq, fun a ha => by simp at ha⟩

theorem targeted_poolTarget (hw : Wired s) (hpool : s.pools.get base = some pool) :
    Targeted s base (s.poolTarget base pool) := by
  have hspun : Targeted s base (s.spinMember base pool, s.activations.length, false) :=
    .spun rfl (reserves_spinMember hw hpool)
  obtain ⟨hbest, hfirst⟩ := pick_members s base pool.members
  unfold poolTarget
  dsimp only
  split
  · rename_i a depth hpick
    obtain ⟨id, hbase, hget⟩ := hbest (a, depth) hpick
    split
    · exact .picked hbase hget
    split
    · exact hspun
    · exact .picked hbase hget
  · split
    · exact hspun
    split
    · rename_i a hpick
      obtain ⟨id, hbase, hget⟩ := hfirst a hpick
      exact .joined hbase hget
    · exact hspun

/-- What a pass of the loop of `#activationFor` comes to. -/
inductive Entered (s : LocalHost) (call : Nat) (base : String) : LocalHost → Prop
  | holds {a : Nat} {id : SlotId} (hbase : id.base = base)
      (hget : s.slots.get id = some (.active a)) :
      Entered s call base (s.push [.hold call a true])
  | joins {a : Nat} {id : SlotId} (hbase : id.base = base)
      (hget : s.slots.get id = some (.activating a)) :
      Entered s call base (s.push [.adoptPromise call a])
  | reserves {t : LocalHost} {id : SlotId} (hbase : id.base = base) (h : Reserves s id t) :
      Entered s call base (t.push [.adoptPromise call s.activations.length])
  | parks {a : Nat} (hget : s.slots.get ⟨base, none⟩ = some (.deactivating a)) :
      Entered s call base (s.modify a fun act => { act with parked := act.parked ++ [call] })
  | awaits : Entered s call base (s.awaiting call (some .definition))
  | refused : Entered s call base (s.settle call .otherwise)

theorem entered_returnTarget (hw : Wired s) (hpool : s.pools.get base = some pool) :
    Entered s call base (s.returnTarget call base pool) := by
  have htarget := targeted_poolTarget hw hpool
  unfold returnTarget
  generalize s.poolTarget base pool = target at htarget
  cases htarget with
  | picked hbase hget => exact .holds hbase hget
  | joined hbase hget => exact .joins hbase hget
  | spun hbase h => exact .reserves hbase h

/-- A pool that is new has nothing to pick from. -/
theorem returnTarget_new (s : LocalHost) (call : Nat) (base : String) (cap : Nat) :
    s.returnTarget call base { cap := cap } =
      (s.spinMember base { cap := cap }).push [.adoptPromise call s.activations.length] := by
  have htarget : s.poolTarget base { cap := cap } =
      (s.spinMember base { cap := cap }, s.activations.length, false) := by
    exact ite_self _
  rw [returnTarget, htarget]

theorem entered_activationFor (hw : Wired s) (call : Nat) (base : String) :
    Entered s call base (s.activationFor call base) := by
  unfold activationFor
  split
  · rename_i pool hpool
    exact entered_returnTarget hw hpool
  rename_i hpool
  split
  · rename_i hnone
    split
    · exact .awaits
    · exact .refused
    · rename_i cap _
      have hmembers : ∀ b m, s.slots.get ⟨b, some m⟩ ≠ none →
          ∃ pool, (s.pools.set base { cap := cap }).get b = some pool ∧ m < pool.seq ∧
            m ∈ pool.members := by
        intro b m hne
        obtain ⟨old, hget, hlt, hmem⟩ := hw.members b m hne
        refine ⟨old, ?_, hlt, hmem⟩
        rw [JsMap.get_set, if_neg]
        · exact hget
        · rintro rfl
          rw [hpool] at hget
          simp at hget
      have hspun := reserves_spinMember (hw.setPools hmembers) (JsMap.get_set_self _ _ _)
      rw [returnTarget_new]
      exact .reserves rfl { hspun with }
    · exact .reserves rfl ⟨hnone, ⟨s.pools, rfl⟩, hw.reserve hnone fun m hm => by simp at hm⟩
  · rename_i a hget
    exact .joins rfl hget
  · rename_i a hget
    exact .holds rfl hget
  · rename_i a hget
    exact .parks hget

/-- What the warm path comes to, or the slow one. -/
inductive Warmed (s : LocalHost) (call : Nat) (base : String) : LocalHost → Prop
  | enqueues {a : Nat} {id : SlotId} (hbase : id.base = base)
      (hget : s.slots.get id = some (.active a)) : Warmed s call base (s.enqueue call a)
  | joins {a : Nat} {id : SlotId} (hbase : id.base = base)
      (hget : s.slots.get id = some (.activating a)) :
      Warmed s call base (s.register a (.enqueue call))
  | reserves {t : LocalHost} {id : SlotId} (hbase : id.base = base) (h : Reserves s id t) :
      Warmed s call base (t.register s.activations.length (.enqueue call))
  | slow : Warmed s call base (s.push [.checked call])

theorem warmed_warmOrSlow (hw : Wired s) (call : Nat) (base : String) :
    Warmed s call base (s.warmOrSlow call base) := by
  unfold warmOrSlow
  split
  · rename_i a hget
    exact .enqueues rfl hget
  split
  · rename_i pool hpool
    have htarget := targeted_poolTarget hw hpool
    generalize s.poolTarget base pool = target at htarget
    cases htarget with
    | picked hbase hget => exact .enqueues hbase hget
    | joined hbase hget => exact .joins hbase hget
    | spun hbase h => exact .reserves hbase h
  · exact .slow

theorem Wired.entered (hw : Wired s) (h : Entered s call base t) : Wired t := by
  cases h with
  | holds | joins => exact hw.quiet (quiet_push fun b => by simp)
  | reserves hbase h => exact h.wired.quiet (quiet_push fun b => by simp)
  | parks hget => exact hw.quiet (quiet_modify (fun _ => ⟨rfl, rfl⟩) fun _ => Nat.le_refl _)
  | awaits => exact hw.quiet (quiet_awaiting s call _)
  | refused => exact hw.quiet (quiet_settle s call _)

theorem Wired.warmed (hw : Wired s) (h : Warmed s call base t) : Wired t := by
  cases h with
  | enqueues hbase hget => exact hw.quiet (quiet_enqueue s call _)
  | joins hbase hget => exact hw.quiet (quiet_register (by simp))
  | reserves hbase h => exact h.wired.quiet (quiet_register (by simp))
  | slow => exact hw.quiet (quiet_push fun b => by simp)

theorem Wired.goOn (hw : Wired s) (call : Nat) : Wired (s.goOn call) := by
  unfold LocalHost.goOn
  split
  · rename_i x _
    exact hw.entered (entered_activationFor hw call x.base)
  · exact hw

theorem quiet_call (s : LocalHost) (x : Call) : Quiet s { s with calls := s.calls ++ [x] } :=
  ⟨rfl, rfl, fun _ => rfl, fun _ => Nat.le_refl _, fun act hact => ⟨act, hact, Nat.le_refl _⟩⟩

theorem Wired.dispatch (hw : Wired s) (base : String) (kind : CallKind) (chain : Chain)
    (admitted : Bool) : Wired (s.dispatch base kind chain admitted) := by
  unfold LocalHost.dispatch
  dsimp only
  generalize hx : ({ base := base, kind := kind, chain := chain, admitted := admitted } : Call) = x
  have hw' : Wired { s with calls := s.calls ++ [x] } := hw.quiet (quiet_call s x)
  split
  · exact hw'.quiet (quiet_settle _ _ _)
  split
  · exact hw'.entered (entered_activationFor hw' _ _)
  · exact hw'.quiet (quiet_awaiting _ _ _)
  · exact hw'.quiet (quiet_awaiting _ _ _)
  · exact hw'.warmed (warmed_warmOrSlow hw' _ _)

theorem Wired.answer {awaits : Awaiting} {goesOn : Bool} (hw : Wired s)
    (hstep : s.answer call awaits goesOn = some t) : Wired t := by
  unfold LocalHost.answer at hstep
  split at hstep
  · obtain ⟨-, rfl⟩ := guard_taken hstep
    have hw' := hw.quiet (quiet_awaiting s call none)
    split
    · exact hw'.entered (entered_activationFor hw' _ _)
    · exact hw'.quiet (quiet_settle _ _ _)
  · simp at hstep

/-! ## Stages -/

theorem moved_setStage {old : Stage} (hshape : s.shape a = some (id, old)) (stage : Stage) :
    Moved s (s.setStage a stage) a id stage (s.slots.get id) := by
  constructor
  case shape =>
    intro b
    rw [shape_setStage]
    split
    · rename_i hb
      rw [hb, hshape]
      rfl
    · rfl
  case slots =>
    intro j
    split
    · rename_i hj
      rw [hj]
      rfl
    · rfl
  case queue => exact fun b => Nat.le_refl _
  case catches =>
    intro act hact
    obtain ⟨b, hb⟩ := List.mem_iff_getElem?.1 hact
    rw [setStage, getElem?_modify] at hb
    obtain ⟨old, hold, rfl⟩ := Option.map_eq_some_iff.1 hb
    refine ⟨old, List.mem_of_getElem? hold, ?_⟩
    split <;> exact Nat.le_refl _

theorem Moved.setSlot {old : Option (Slot Nat Nat)} (h : Moved s t a id stage old)
    (slot : Slot Nat Nat) : Moved s (t.setSlot id slot) a id stage (some slot) := by
  refine { h with slots := ?_ }
  intro j
  refine (JsMap.get_set t.slots id j slot).trans ?_
  split
  · rfl
  · rename_i hj
    rw [h.slots, if_neg hj]

theorem Moved.quiet {slot : Option (Slot Nat Nat)} (h : Moved s t a id stage slot)
    (hquiet : Quiet t u) : Moved s u a id stage slot := by
  refine ⟨fun b => (hquiet.shape b).trans (h.shape b), ?_,
    fun b => Nat.le_trans (hquiet.queue b) (h.queue b), ?_⟩
  · intro j
    rw [hquiet.slots]
    exact h.slots j
  · intro act hact
    obtain ⟨mid, hmid, hle⟩ := hquiet.catches act hact
    obtain ⟨old, hold, hle'⟩ := h.catches mid hmid
    exact ⟨old, hold, Nat.le_trans hle hle'⟩

/-- An activation that has not drained has its slot. -/
theorem Wired.slot_of (hw : Wired s) (hshape : s.shape a = some (id, stage))
    (hplaced : stage.placed = true) :
    ∃ slot, s.slots.get id = some slot ∧ named slot = a ∧ Fits slot stage := by
  obtain ⟨slot, hget, hnamed⟩ := hw.placed a id stage hshape hplaced
  obtain ⟨st, hst, hfit⟩ := hw.fits id slot hget
  rw [hnamed, hshape] at hst
  obtain ⟨-, rfl⟩ := Prod.mk.inj (Option.some.inj hst)
  exact ⟨slot, hget, hnamed, hfit⟩

theorem Wired.slot_of_activating (hw : Wired s) (hshape : s.shape a = some (id, .activating)) :
    s.slots.get id = some (.activating a) := by
  obtain ⟨slot, hget, rfl, hfit⟩ := hw.slot_of hshape rfl
  cases slot with
  | activating b => exact hget
  | active | deactivating => simp [Fits] at hfit

theorem Wired.slot_of_deactivating (hw : Wired s) (hshape : s.shape a = some (id, stage))
    (hstage : stage = .settling ∨ stage = .closed ∨ stage = .draining) :
    s.slots.get id = some (.deactivating a) := by
  have hplaced : stage.placed = true := by
    rcases hstage with rfl | rfl | rfl
    · rfl
    · rfl
    · rfl
  obtain ⟨slot, hget, rfl, hfit⟩ := hw.slot_of hshape hplaced
  cases slot with
  | activating | active => rcases hstage with rfl | rfl | rfl <;> simp [Fits] at hfit
  | deactivating b => exact hget

/-- A failure is handled of a failed activation only. -/
theorem Wired.not_forget (hw : Wired s) (hshape : s.shape a = some (id, stage))
    (hstage : stage ≠ .failed) : .forget a ∉ s.queue := by
  intro hmem
  obtain ⟨j, hfailed, -⟩ := hw.forgets a hmem
  exact hstage (Prod.mk.inj (Option.some.inj (hshape.symm.trans hfailed))).2

theorem quiet_resolve (s : LocalHost) (a : Nat) : Quiet s (s.resolve a true) := by
  unfold resolve
  split
  · have hquiet : Quiet s (s.modify a fun act => { act with reactions := [] }) :=
      quiet_modify (fun _ => ⟨rfl, rfl⟩) fun act => by simp
    refine hquiet.trans (quiet_push fun b hmem => ?_)
    obtain ⟨r, -, hr⟩ := List.mem_filterMap.1 hmem
    cases r with
    | forget | adopt | enqueue | deactivate | stop => simp [Reaction.job] at hr
  · exact Quiet.refl s

/-- One failure comes to be handled for each `catch`. -/
theorem count_forget (rs : List Reaction) (a b : Nat) :
    (rs.filterMap (Reaction.job a false)).count (.forget b) =
      if b = a then rs.count .forget else 0 := by
  induction rs with
  | nil => simp
  | cons r rs ih =>
    cases r with
    | forget =>
      simp only [List.filterMap_cons, Reaction.job, Bool.false_eq_true, if_false]
      rw [List.count_cons, ih, List.count_cons]
      by_cases hb : b = a
      · simp [hb]
      · have hb' : ¬ a = b := fun heq => hb heq.symm
        simp [hb, hb']
    | adopt | enqueue | stop =>
      simp only [List.filterMap_cons, Reaction.job]
      rw [List.count_cons, ih, List.count_cons]
      simp
    | deactivate =>
      simp only [List.filterMap_cons, Reaction.job, Bool.false_eq_true, if_false]
      rw [ih, List.count_cons]
      simp

/-- A failure that nothing has heard of yet is heard of. -/
theorem Wired.resolve_failed (hw : Wired s) (hshape : s.shape a = some (id, .failed))
    (hget : s.slots.get id = some (.activating a)) (hnot : .forget a ∉ s.queue) :
    Wired (s.resolve a false) := by
  obtain ⟨act, hact, -, -⟩ := exists_of_shape hshape
  have hquiet : Quiet s (s.modify a fun act => { act with reactions := [] }) :=
    quiet_modify (fun _ => ⟨rfl, rfl⟩) fun act => by simp
  have hw' := hw.quiet hquiet
  have heq : s.resolve a false =
      (s.modify a fun act => { act with reactions := [] }).push
        (act.reactions.filterMap (Reaction.job a false)) := by
    rw [resolve, hact]
  have hcount : ∀ b, (s.resolve a false).queue.count (.forget b) =
      s.queue.count (.forget b) + if b = a then act.reactions.count .forget else 0 := by
    intro b
    rw [heq, ← count_forget act.reactions a b]
    exact List.count_append
  rw [heq]
  refine { hw' with forgets := ?_, once := ?_ }
  · intro b hmem
    rcases List.mem_append.1 hmem with hmem | hmem
    · exact hw'.forgets b hmem
    have hpos := List.count_pos_iff.2 hmem
    rw [count_forget] at hpos
    split at hpos
    · rename_i hb
      subst hb
      exact ⟨id, (hquiet.shape b).trans hshape, hget⟩
    · exact absurd hpos (Nat.lt_irrefl 0)
  · intro b
    rw [← heq, hcount]
    split
    · rename_i hb
      subst hb
      rw [List.count_eq_zero.2 hnot, Nat.zero_add]
      exact hw.oneCatch act (List.mem_of_getElem? hact)
    · exact hw.once b

theorem Wired.created {ok : Bool} (hw : Wired s) (hstep : s.created a ok = some t) : Wired t := by
  unfold LocalHost.created at hstep
  split at hstep
  · rename_i act hact
    obtain ⟨hstage, hstep⟩ := guard_passed hstep
    have hshape : s.shape a = some (act.slot, .activating) :=
      hstage ▸ shape_of_getElem? hact
    have hget := hw.slot_of_activating hshape
    have hnot := hw.not_forget hshape (by simp)
    cases ok with
    | true =>
      cases hstep
      rw [if_pos hget]
      refine Wired.quiet ?_ (quiet_resolve _ a)
      exact hw.moved hget rfl hnot ((moved_setStage hshape .active).setSlot (.active a)) rfl rfl
        rfl
    | false =>
      cases hstep
      have hmoved := moved_setStage hshape .failed
      rw [hget] at hmoved
      have hw' : Wired (s.setStage a .failed) :=
        hw.moved hget rfl hnot hmoved rfl (.inr rfl) rfl
      have hfailed : (s.setStage a .failed).shape a = some (act.slot, .failed) :=
        (hmoved.shape a).trans (if_pos rfl)
      exact hw'.resolve_failed hfailed hget hnot
  · simp at hstep

/-! ## Deactivation -/

theorem shape_of_active (hw : Wired s) (hget : s.slots.get id = some (.active a)) :
    s.shape a = some (id, .active) := by
  obtain ⟨st, hshape, hfit⟩ := hw.fits id _ hget
  obtain rfl : st = .active := hfit
  exact hshape

theorem quiet_drain (s : LocalHost) (a : Nat) : Quiet s (s.push [.drain a]) :=
  quiet_push fun b => by simp

theorem moved_beginDeactivation (hw : Wired s) (hget : s.slots.get id = some (.active a)) :
    ∃ stage, (stage = .settling ∨ stage = .closed) ∧
      Moved s (s.beginDeactivation id a) a id stage (some (.deactivating a)) := by
  have hshape := shape_of_active hw hget
  unfold beginDeactivation
  dsimp only
  split
  · exact ⟨.settling, .inl rfl, (moved_setStage hshape .settling).setSlot _⟩
  · exact ⟨.closed, .inr rfl,
      ((moved_setStage hshape .closed).quiet (quiet_drain _ a)).setSlot _⟩

theorem pools_beginDeactivation (s : LocalHost) (id : SlotId) (a : Nat) :
    (s.beginDeactivation id a).pools = s.pools := by
  unfold beginDeactivation
  dsimp only
  split
  · rfl
  · rfl

theorem Wired.beginDeactivation (hw : Wired s) (hget : s.slots.get id = some (.active a)) :
    Wired (s.beginDeactivation id a) := by
  obtain ⟨stage, hstage, hmoved⟩ := moved_beginDeactivation hw hget
  have hnot := hw.not_forget (shape_of_active hw hget) (by simp)
  refine hw.moved hget rfl hnot hmoved rfl ?_ (pools_beginDeactivation s id a)
  rcases hstage with rfl | rfl
  · exact .inl rfl
  · exact .inr (.inl rfl)

theorem Wired.deactivateById (hw : Wired s) (id : SlotId) (hr : r ≠ .forget) :
    Wired (s.deactivateById id r).1 := by
  unfold LocalHost.deactivateById
  split
  · exact hw
  · exact hw
  · exact hw.quiet (quiet_register hr)
  · rename_i a hget
    exact hw.beginDeactivation hget

/-- A deactivation goes on, in its slot. -/
theorem Wired.setStage_deactivating {old : Stage} (hw : Wired s)
    (hshape : s.shape a = some (id, old)) (hold : old = .settling ∨ old = .closed ∨ old = .draining)
    (hstage : stage = .settling ∨ stage = .closed ∨ stage = .draining) :
    Wired (s.setStage a stage) := by
  have hget := hw.slot_of_deactivating hshape hold
  have hfailed : old ≠ .failed := by
    rcases hold with rfl | rfl | rfl
    · simp
    · simp
    · simp
  have hmoved := moved_setStage hshape stage
  rw [hget] at hmoved
  exact hw.moved hget rfl (hw.not_forget hshape hfailed) hmoved rfl hstage rfl

theorem Wired.close (hw : Wired s) (hshape : s.shape a = some (id, .settling)) :
    Wired (s.close a) :=
  (hw.setStage_deactivating hshape (.inl rfl) (.inr (.inl rfl))).quiet (quiet_drain _ a)

/-! ## The end of an activation -/

theorem forgetMember_eq (s : LocalHost) (id : SlotId) :
    ∃ pools, s.forgetMember id = { s with pools := pools } := by
  unfold forgetMember
  split
  · dsimp only
    split <;> exact ⟨_, rfl⟩
  · exact ⟨s.pools, rfl⟩

/-- Only that member is forgotten. -/
theorem members_forgetMember {m : Nat} (hne : (⟨base, some m⟩ : SlotId) ≠ id)
    (h : ∃ pool, s.pools.get base = some pool ∧ m < pool.seq ∧ m ∈ pool.members) :
    ∃ pool, (s.forgetMember id).pools.get base = some pool ∧ m < pool.seq ∧
      m ∈ pool.members := by
  obtain ⟨pool, hget, hlt, hmem⟩ := h
  unfold forgetMember
  split
  · rename_i m' pool' hmember hpool'
    dsimp only
    by_cases hbase : base = id.base
    · subst hbase
      cases hget.symm.trans hpool'
      have hm : m ≠ m' := by
        rintro rfl
        exact hne (by rw [← hmember])
      have hleft : m ∈ pool.members.erase m' := (List.mem_erase_of_ne hm).2 hmem
      rw [if_neg (List.ne_nil_of_mem hleft)]
      exact ⟨_, JsMap.get_set_self _ _ _, hlt, hleft⟩
    · split
      · exact ⟨pool, by rw [JsMap.get_erase, if_neg hbase]; exact hget, hlt, hmem⟩
      · exact ⟨pool, by rw [JsMap.get_set, if_neg hbase]; exact hget, hlt, hmem⟩
  · exact ⟨pool, hget, hlt, hmem⟩

theorem Moved.forgetMember {slot : Option (Slot Nat Nat)} (h : Moved s t a id stage slot) :
    Moved s (t.forgetMember id) a id stage slot := by
  obtain ⟨pools, heq⟩ := forgetMember_eq t id
  rw [heq]
  exact { h with }

theorem quiet_resolveDrained (s : LocalHost) (a : Nat) :
    Quiet (s.setStage a .gone) (s.resolveDrained a) := by
  have hquiet : Quiet (s.setStage a .gone)
      ((s.setStage a .gone).modify a fun act => { act with parked := [] }) :=
    quiet_modify (fun _ => ⟨rfl, rfl⟩) fun _ => Nat.le_refl _
  exact hquiet.trans (quiet_push fun b => by simp)

theorem Wired.finish (hw : Wired s) (hshape : s.shape a = some (id, .draining)) :
    Wired (s.finish a id) := by
  have hget := hw.slot_of_deactivating hshape (.inr (.inr rfl))
  have hforget := hw.not_forget hshape (by simp)
  have hshape' : (s.eraseSlot id).shape a = some (id, .draining) := hshape
  -- The slot goes first, and the stage follows.
  have hmoved : ∀ stage, Moved s ((s.eraseSlot id).setStage a stage) a id stage none := by
    intro stage
    have hstage := moved_setStage hshape' stage
    refine { hstage with slots := fun j => ?_ }
    exact JsMap.get_erase s.slots id j
  unfold LocalHost.finish
  dsimp only
  rw [if_pos hget]
  split
  · obtain ⟨pools, heq⟩ := forgetMember_eq (s.eraseSlot id) id
    have hpools : ∀ base m, (⟨base, some m⟩ : SlotId) ≠ id → _ → _ := fun base m hne h =>
      members_forgetMember (s := s.eraseSlot id) (m := m) hne h
    rw [heq] at hpools ⊢
    have hgone : Moved s (LocalHost.setStage { s.eraseSlot id with pools := pools } a .gone) a id
        .gone none := { (hmoved .gone) with }
    have hresumed := hgone.quiet (quiet_resolveDrained { s.eraseSlot id with pools := pools } a)
    exact hw.dropped hget rfl hresumed rfl
      (fun hmem => hforget (Wired.mem_forgets (hresumed.queue a) hmem)) hpools
  · exact hw.dropped hget rfl (hmoved .releasing) rfl hforget fun base m hne h => h

theorem Wired.resolveDrained (hw : Wired s) (hshape : s.shape a = some (id, .releasing)) :
    Wired (s.resolveDrained a) :=
  (hw.setStage_unplaced hshape (fun slot hfit => by cases slot <;> simp [Fits] at hfit) rfl).quiet
    (quiet_resolveDrained s a)

/-- The failure that the first job handles. -/
theorem Wired.forget (hw : Wired s) (hqueue : s.queue = .forget a :: queue)
    (hshape : s.shape a = some (id, stage)) :
    Wired (LocalHost.forget { s with queue := queue } a id) := by
  obtain ⟨j, hfailed, hget⟩ := hw.forgets a (by rw [hqueue]; exact List.mem_cons_self)
  obtain ⟨rfl, rfl⟩ := Prod.mk.inj (Option.some.inj (hshape.symm.trans hfailed))
  have hnot : .forget a ∉ queue := by
    have honce := hw.once a
    rw [hqueue, List.count_cons_self] at honce
    exact List.count_eq_zero.1 (by omega)
  have hdropped : Moved s (LocalHost.eraseSlot { s with queue := queue } id) a id .failed none := by
    refine ⟨fun b => ?_, fun j => JsMap.get_erase s.slots id j, (quiet_queue hqueue).queue,
      fun act hact => ⟨act, hact, Nat.le_refl _⟩⟩
    split
    · rename_i hb
      rw [hb]
      exact hshape
    · rfl
  unfold LocalHost.forget
  rw [if_pos hget]
  have hmoved := hdropped.forgetMember
  obtain ⟨pools, heq⟩ := forgetMember_eq (LocalHost.eraseSlot { s with queue := queue } id) id
  have hpools : ∀ base m, (⟨base, some m⟩ : SlotId) ≠ id → _ → _ := fun base m hne h =>
    members_forgetMember (s := LocalHost.eraseSlot { s with queue := queue } id) (m := m) hne h
  rw [heq] at hmoved hpools ⊢
  exact hw.dropped hget rfl hmoved rfl hnot hpools

/-! ## `stopAll` -/

theorem quiet_stop (s : LocalHost) (stop : Stopping) : Quiet s { s with stop := stop } :=
  ⟨rfl, rfl, fun _ => rfl, fun _ => Nat.le_refl _, fun act hact => ⟨act, hact, Nat.le_refl _⟩⟩

theorem Wired.collect {collected : List Nat} {waits : List Wait} {q : SlotId × Slot Nat Nat}
    (hw : Wired s) (hget : s.slots.get q.1 = some q.2) :
    Wired (LocalHost.collect (s, collected, waits) q).1 := by
  obtain ⟨id, slot⟩ := q
  cases slot with
  | activating b => exact hw.quiet (quiet_register (by simp))
  | active b => exact hw.beginDeactivation hget
  | deactivating b => exact hw

/-- The loop deactivates a slot for itself. -/
theorem slots_collect {collected : List Nat} {waits : List Wait} {q : SlotId × Slot Nat Nat}
    (hw : Wired s) (hget : s.slots.get q.1 = some q.2) {j : SlotId} (hj : j ≠ q.1) :
    (LocalHost.collect (s, collected, waits) q).1.slots.get j = s.slots.get j := by
  obtain ⟨id, slot⟩ := q
  cases slot with
  | activating b =>
    have hquiet : Quiet s (s.register b (.stop waits.length)) := quiet_register (by simp)
    exact congrArg (·.get j) hquiet.slots
  | active b =>
    obtain ⟨stage, -, hmoved⟩ := moved_beginDeactivation hw hget
    exact (hmoved.slots j).trans (if_neg hj)
  | deactivating b => rfl

/-- What holds of the loop that collects, and is kept by each pass, holds after it. -/
theorem collect_induct {I : LocalHost × List Nat × List Wait → Prop}
    (hpass : ∀ s collected waits (q : SlotId × Slot Nat Nat), Wired s →
      s.slots.get q.1 = some q.2 → I (s, collected, waits) →
      I (LocalHost.collect (s, collected, waits) q)) :
    ∀ (l : List (SlotId × Slot Nat Nat)) (s : LocalHost) (collected : List Nat)
      (waits : List Wait), (l.map Prod.fst).Nodup → (∀ q ∈ l, s.slots.get q.1 = some q.2) →
      Wired s → I (s, collected, waits) →
      Wired (l.foldl LocalHost.collect (s, collected, waits)).1 ∧
        I (l.foldl LocalHost.collect (s, collected, waits)) := by
  intro l
  induction l with
  | nil => exact fun s collected waits _ _ hw h => ⟨hw, h⟩
  | cons q l ih =>
    intro s collected waits hnodup hget hw h
    rw [List.map_cons, List.nodup_cons] at hnodup
    have hq := hget q List.mem_cons_self
    have hnext := hpass s collected waits q hw hq h
    have hw' : Wired (LocalHost.collect (s, collected, waits) q).1 := hw.collect hq
    have hslots : ∀ q' ∈ l,
        (LocalHost.collect (s, collected, waits) q).1.slots.get q'.1 = some q'.2 := by
      intro q' hq'
      rw [slots_collect hw hq]
      · exact hget q' (List.mem_cons_of_mem _ hq')
      · exact fun heq => hnodup.1 (heq ▸ List.mem_map_of_mem hq')
    exact ih _ _ _ hnodup.2 hslots hw' hnext

theorem Wired.stopAll (hw : Wired s) : Wired s.stopAll := by
  have hloop := (collect_induct (I := fun _ => True) (fun _ _ _ _ _ _ _ => trivial) s.slots.entries
    s [] [] s.slots.nodup (fun q hq => JsMap.get_of_mem_entries hq) hw trivial).1
  exact hloop.quiet (quiet_stop _ _)

theorem Wired.stopWait {wait : Nat} {ok : Bool} (hw : Wired s) : Wired (s.stopWait wait a ok) := by
  unfold LocalHost.stopWait
  split
  · rename_i act _
    dsimp only
    cases ok with
    | true =>
      have hnext := hw.deactivateById act.slot (r := .stop wait) (by simp)
      split
      · exact hnext.quiet (quiet_stop _ _)
      · exact hnext
    | false =>
      split
      · exact hw.quiet (quiet_stop _ _)
      · exact hw
  · exact hw

/-! ## Steps -/

theorem Wired.runJob {job : Job} (hw : Wired s) (hqueue : s.queue = job :: queue) :
    Wired (LocalHost.runJob { s with queue := queue } job) := by
  have hw' : Wired { s with queue := queue } := hw.quiet (quiet_queue hqueue)
  cases job with unfold LocalHost.runJob
  | checked call | resume call => exact hw'.goOn call
  | adoptPromise call b => exact hw'.quiet (quiet_register (by simp))
  | adopted call b ok => exact hw'.quiet (quiet_push fun c => by simp)
  | hold call b | enqueue call b =>
    dsimp only
    split
    · exact hw'.quiet (quiet_enqueue _ call b)
    · exact hw'.quiet (quiet_settle _ call _)
  | forget b =>
    dsimp only
    split
    · rename_i act hact
      exact hw.forget hqueue (shape_of_getElem? hact)
    · exact hw'
  | deactivate b =>
    dsimp only
    split
    · rename_i act _
      exact hw'.deactivateById act.slot (by simp)
    · exact hw'
  | stop wait b ok => exact hw'.stopWait
  | drain b =>
    dsimp only
    split
    · rename_i act hact
      split
      · rename_i hstage
        have hshape : LocalHost.shape { s with queue := queue } b = some (act.slot, .closed) :=
          hstage ▸ shape_of_getElem? (s := { s with queue := queue }) hact
        exact hw'.setStage_deactivating hshape (.inr (.inl rfl)) (.inr (.inr rfl))
      · exact hw'
    · exact hw'

theorem Wired.step {l : Label} (hw : Wired s) (hl : l ≠ .deadline)
    (hstep : localHost.step s l = some t) : Wired t := by
  cases l with simp only [localHost, LocalHost.step] at hstep
  | define base definition =>
    cases hstep
    exact { hw with }
  | dispatch base kind chain admitted =>
    exact Option.some.inj hstep ▸ hw.dispatch base kind chain admitted
  | answer call awaits goesOn => exact hw.answer hstep
  | next =>
    split at hstep
    · rename_i job queue hqueue
      exact Option.some.inj hstep ▸ hw.runJob hqueue
    · simp at hstep
  | created b ok => exact hw.created hstep
  | tasks b settles =>
    cases hstep
    exact hw.quiet (quiet_modify (fun _ => ⟨rfl, rfl⟩) fun _ => Nat.le_refl _)
  | settled b =>
    split at hstep
    · rename_i act hact
      obtain ⟨hstage, rfl⟩ := guard_taken hstep
      exact hw.close (hstage ▸ shape_of_getElem? hact)
    · simp at hstep
  | ownTurn b =>
    split at hstep
    · split at hstep
      · exact Option.some.inj hstep ▸ hw
      · cases hstep
        exact hw.quiet (quiet_modify (fun _ => ⟨rfl, rfl⟩) fun _ => Nat.le_refl _)
    · simp at hstep
  | turnEnds b =>
    split at hstep
    · split at hstep
      · simp at hstep
      · cases hstep
        exact hw.quiet (quiet_modify (fun _ => ⟨rfl, rfl⟩) fun _ => Nat.le_refl _)
    · simp at hstep
  | deactivate id =>
    cases hstep
    exact hw.deactivateById id (by simp)
  | drained b =>
    split at hstep
    · rename_i act hact
      obtain ⟨hstage, rfl⟩ := guard_taken hstep
      exact hw.finish (hstage.1 ▸ shape_of_getElem? hact)
    · simp at hstep
  | released b =>
    split at hstep
    · rename_i act hact
      obtain ⟨hstage, rfl⟩ := guard_taken hstep
      exact hw.resolveDrained (hstage ▸ shape_of_getElem? hact)
    · simp at hstep
  | stopAll =>
    obtain ⟨-, hstep⟩ := guard_passed hstep
    exact Option.some.inj hstep ▸ hw.stopAll
  | stopDone =>
    split at hstep
    · obtain ⟨-, hstep⟩ := guard_passed hstep
      exact Option.some.inj hstep ▸ hw.quiet (quiet_stop _ _)
    · simp at hstep
  | deadline => exact absurd rfl hl

theorem wired_initial (hinit : localHost.initial s) : Wired s := by
  obtain ⟨definitions, rfl⟩ := hinit
  constructor
  case fits => exact fun id slot hget => by simp at hget
  case placed => exact fun a id stage hshape => by simp [shape] at hshape
  case members => exact fun base m hne => by simp at hne
  case forgets => exact fun a hmem => absurd hmem List.not_mem_nil
  case once => exact fun a => Nat.zero_le _
  case oneCatch => exact fun act hact => absurd hact List.not_mem_nil

end LocalHost

/-- **An actor has one activation at a time on a host**, from its reservation until it has drained:
whatever is dispatched, deactivated and stopped, short of the deadline, no two that are placed are
of one id, the slot of the id names the one, and a slot says how far it has come. -/
theorem one_activation {s : LocalHost} (h : localHost.Reach (fun _ l => l ≠ .deadline) s) :
    (∀ a b id stage stage', s.shape a = some (id, stage) → s.shape b = some (id, stage') →
      stage.placed = true → stage'.placed = true → a = b) ∧
    (∀ a id stage, s.shape a = some (id, stage) → stage.placed = true →
      ∃ slot, s.slots.get id = some slot ∧ named slot = a) ∧
    ∀ id slot, s.slots.get id = some slot →
      ∃ stage, s.shape (named slot) = some (id, stage) ∧ Fits slot stage := by
  have hw : LocalHost.Wired s := h.invariant (fun _ => LocalHost.wired_initial)
    fun _ _ _ hw hl hstep => hw.step hl hstep
  refine ⟨fun a b id stage stage' ha hb hplaced hplaced' => ?_, hw.placed, hw.fits⟩
  obtain ⟨slot, hslot, rfl⟩ := hw.placed a id stage ha hplaced
  obtain ⟨slot', hslot', rfl⟩ := hw.placed b id stage' hb hplaced'
  cases hslot.symm.trans hslot'
  rfl

/-- Two calls have come for one actor. -/
theorem one_activation_twice : ∃ s : LocalHost, s.slots.get ⟨"a", none⟩ = some (.activating 0) ∧
    s.calls.length = 2 ∧ ∀ b stage, s.shape b = some (⟨"a", none⟩, stage) → stage.placed = true →
      b = 0 := by
  have hstart : localHost.Reach (fun _ l => l ≠ .deadline) { definitions := fun _ => .stateful } :=
    .start ⟨_, rfl⟩
  have hrun := hstart.exec_get
    [.dispatch "a" .call .outside true, .next, .next, .dispatch "a" .call .outside true, .next, .next]
    (by decide)
  refine ⟨_, ?_, ?_, fun b stage hb hplaced =>
    (one_activation hrun).1 b 0 _ stage .activating hb ?_ hplaced rfl⟩ <;> decide

end SigxActors.Host.Lifecycle
