/-
  Redis/ReminderIndex.lean --- the three structures of the Redis reminders agree.

  Two of the scripts know an actor's set and a reminder's name only from the member, which
  they cut at its last separator; the hosts build all three from the escaped fields.  The
  first part shows that the cut is the one that was made.

  The rest is an invariant of three parts: the sets and the periods are those of the members
  that are due; each occurrence is due, claimed or withdrawn, and only one of them; and
  a member that was claimed and not touched since is as the claim has left it, or earlier
  by the re-arm of another delivery.
-/
import SigxActors.Redis.Reminders

set_option autoImplicit false

namespace SigxActors.Redis

open SigxActors.Js SigxActors.Storage

/-! ## Members -/

theorem remUnescape_remEscape (field : String) : remUnescape (remEscape field) = field := by
  rw [remUnescape, remEscape, String.toList_ofList,
    Codec.unescape_escape (by decide) (by decide), String.ofList_toList]

theorem remEscape_injective {a b : String} (h : remEscape a = remEscape b) : a = b := by
  rw [← remUnescape_remEscape a, h, remUnescape_remEscape]

theorem nul_not_mem_remEscape (field : String) : '\x00' ∉ (remEscape field).toList := by
  rw [remEscape, String.toList_ofList]
  exact Codec.sep_not_mem_escape (by decide) (by decide) _

theorem toList_remActorId (ref : ActorRef) : (remActorId ref).toList =
    (remEscape ref.type).toList ++ '\x00' :: (remEscape ref.key).toList := by
  simp [remActorId]

theorem toList_memberOf (ref : ActorRef) (name : String) : (memberOf ref name).toList =
    (remActorId ref).toList ++ '\x00' :: (remEscape name).toList := by
  simp [memberOf]

/-- A member is cut into the fields it was built from. -/
theorem decode_memberOf (ref : ActorRef) (name : String) :
    decode (memberOf ref name) = (ref, name) := by
  have hparts : (memberOf ref name).toList.splitOn '\x00' =
      [(remEscape ref.type).toList, (remEscape ref.key).toList, (remEscape name).toList] := by
    rw [toList_memberOf, toList_remActorId, List.append_assoc, List.cons_append,
      List.splitOn_append_cons_self_of_not_mem (nul_not_mem_remEscape _),
      List.splitOn_append_cons_self_of_not_mem (nul_not_mem_remEscape _),
      List.splitOn_eq_singleton (nul_not_mem_remEscape _)]
  simp [decode, hparts, remUnescape_remEscape]

theorem memberOf_injective {ref ref' : ActorRef} {name name' : String}
    (h : memberOf ref name = memberOf ref' name') : ref = ref' ∧ name = name' := by
  have hdecode := congrArg decode h
  rw [decode_memberOf, decode_memberOf] at hdecode
  exact ⟨congrArg Prod.fst hdecode, congrArg Prod.snd hdecode⟩

/-- The scripts cut a member where it was joined. -/
theorem split_memberOf (ref : ActorRef) (name : String) :
    split (memberOf ref name) = some (remActorId ref, remEscape name) := by
  rw [split, toList_memberOf, Codec.cutLast_append_cons _ (nul_not_mem_remEscape _)]
  simp

theorem remActorId_injective {ref ref' : ActorRef} (h : remActorId ref = remActorId ref') :
    ref = ref' := by
  have hmember : memberOf ref "" = memberOf ref' "" := by rw [memberOf, h, memberOf]
  exact (memberOf_injective hmember).1

theorem actorKey_injective {actorPrefix : String} {ref ref' : ActorRef}
    (h : actorPrefix ++ remActorId ref = actorPrefix ++ remActorId ref') : ref = ref' := by
  have hlist := congrArg String.toList h
  rw [String.toList_append, String.toList_append] at hlist
  exact remActorId_injective (String.toList_inj.1 (List.append_cancel_left hlist))

/-! ## The primitives -/

namespace ReminderDb

variable {db : ReminderDb} {m m' key name : String} {score host : Nat}

theorem get_zrem (db : ReminderDb) (m m' : String) :
    (db.zrem m).due.get m' = if m' = m then none else db.due.get m' := by
  unfold zrem
  cases hm : db.due.get m with
  | some e => exact JsMap.get_erase db.due m m'
  | none =>
    by_cases h : m' = m
    · rw [if_pos h, h, hm]
    · rw [if_neg h]

theorem get_place (db : ReminderDb) (m m' : String) (score : Nat) :
    (db.place m score).due.get m' = if m' = m then some ⟨score, db.minted⟩ else db.due.get m' :=
  JsMap.get_set db.due m m' _

@[simp] theorem zrem_periods (db : ReminderDb) (m : String) : (db.zrem m).periods = db.periods := by
  unfold zrem
  split
  · rfl
  · rfl

@[simp] theorem zrem_actors (db : ReminderDb) (m : String) : (db.zrem m).actors = db.actors := by
  unfold zrem
  split
  · rfl
  · rfl

@[simp] theorem zrem_now (db : ReminderDb) (m : String) : (db.zrem m).now = db.now := by
  unfold zrem
  split
  · rfl
  · rfl

@[simp] theorem zrem_minted (db : ReminderDb) (m : String) : (db.zrem m).minted = db.minted := by
  unfold zrem
  split
  · rfl
  · rfl

theorem get_zadd (db : ReminderDb) (m m' : String) (score : Nat) : (db.zadd m score).due.get m' =
      if m' = m then some ⟨score, db.minted⟩ else db.due.get m' := by
  rw [zadd, get_place, zrem_minted, get_zrem]
  split
  · rfl
  · rfl

@[simp] theorem zadd_periods (db : ReminderDb) (m : String) (score : Nat) :
    (db.zadd m score).periods = db.periods := zrem_periods db m

@[simp] theorem zadd_actors (db : ReminderDb) (m : String) (score : Nat) :
    (db.zadd m score).actors = db.actors := zrem_actors db m

@[simp] theorem zadd_now (db : ReminderDb) (m : String) (score : Nat) :
    (db.zadd m score).now = db.now := zrem_now db m

theorem get_take (db : ReminderDb) (host : Nat) (m m' : String) :
    (db.take host m).due.get m' = if m' = m then none else db.due.get m' := by
  unfold take
  cases hm : db.due.get m with
  | some e => exact JsMap.get_erase db.due m m'
  | none =>
    by_cases h : m' = m
    · rw [if_pos h, h, hm]
    · rw [if_neg h]

@[simp] theorem take_periods (db : ReminderDb) (host : Nat) (m : String) :
    (db.take host m).periods = db.periods := by
  unfold take
  split
  · rfl
  · rfl

@[simp] theorem take_actors (db : ReminderDb) (host : Nat) (m : String) :
    (db.take host m).actors = db.actors := by
  unfold take
  split
  · rfl
  · rfl

@[simp] theorem take_now (db : ReminderDb) (host : Nat) (m : String) :
    (db.take host m).now = db.now := by
  unfold take
  split
  · rfl
  · rfl

theorem hset_actors (db : ReminderDb) (m : String) (ms : Nat) : (db.hset m ms).actors = db.actors := rfl

theorem hdel_actors (db : ReminderDb) (m : String) : (db.hdel m).actors = db.actors := rfl

theorem mem_sadd {x k : String} :
    x ∈ (db.sadd key name).actors k ↔ k = key ∧ x = name ∨ x ∈ db.actors k := by
  show x ∈ (if k = key ∧ name ∉ db.actors k then db.actors k ++ [name] else db.actors k) ↔ _
  by_cases h : k = key ∧ name ∉ db.actors k
  · rw [if_pos h, List.mem_append, List.mem_singleton, or_comm]
    simp [h.1]
  rw [if_neg h]
  refine ⟨.inr, ?_⟩
  rintro (⟨hk, rfl⟩ | hx)
  · by_cases hx : x ∈ db.actors k
    · exact hx
    · exact absurd ⟨hk, hx⟩ h
  · exact hx

theorem mem_srem {x k : String} :
    x ∈ (db.srem key name).actors k ↔ x ∈ db.actors k ∧ ¬ (k = key ∧ x = name) := by
  show x ∈ (if k = key then (db.actors k).filter (· ≠ name) else db.actors k) ↔ _
  by_cases h : k = key <;> simp [h]

/-! ## The sets and the periods -/

/-- The sets and the periods are those of the members that are due. -/
structure Indexed (actorPrefix : String) (db : ReminderDb) : Prop where
  members : ∀ m, db.due.has m = true → ∃ ref name, m = memberOf ref name
  periods : ∀ m, db.periods.has m = true → db.due.has m = true
  names : ∀ ref x, x ∈ db.actors (actorPrefix ++ remActorId ref) ↔
    ∃ name, x = remEscape name ∧ db.due.has (memberOf ref name) = true

variable {actorPrefix : String} {db' : ReminderDb} {ref : ActorRef}

/-- A member comes in, with its name. -/
theorem Indexed.add (h : db.Indexed actorPrefix)
    (hdue : ∀ m, db'.due.has m = true ↔ m = memberOf ref name ∨ db.due.has m = true)
    (hperiods : ∀ m, db'.periods.has m = true → m = memberOf ref name ∨ db.periods.has m = true)
    (hactors : ∀ x k, x ∈ db'.actors k ↔
      k = actorPrefix ++ remActorId ref ∧ x = remEscape name ∨ x ∈ db.actors k) :
    db'.Indexed actorPrefix := by
  refine ⟨?_, ?_, ?_⟩
  · intro m hm
    rcases (hdue m).1 hm with rfl | hm
    · exact ⟨ref, name, rfl⟩
    · exact h.members m hm
  · intro m hm
    refine (hdue m).2 ((hperiods m hm).imp id (h.periods m))
  · intro ref' x
    rw [hactors, h.names]
    constructor
    · rintro (⟨hkey, rfl⟩ | ⟨name', rfl, hhas⟩)
      · obtain rfl := actorKey_injective hkey
        exact ⟨name, rfl, (hdue _).2 (.inl rfl)⟩
      · exact ⟨name', rfl, (hdue _).2 (.inr hhas)⟩
    · rintro ⟨name', rfl, hhas⟩
      rcases (hdue _).1 hhas with heq | hhas
      · obtain ⟨rfl, rfl⟩ := memberOf_injective heq
        exact .inl ⟨rfl, rfl⟩
      · exact .inr ⟨name', rfl, hhas⟩

/-- A member goes, with its name. -/
theorem Indexed.remove (h : db.Indexed actorPrefix)
    (hdue : ∀ m, db'.due.has m = true ↔ m ≠ memberOf ref name ∧ db.due.has m = true)
    (hperiods : ∀ m, db'.periods.has m = true → m ≠ memberOf ref name ∧ db.periods.has m = true)
    (hactors : ∀ x k, x ∈ db'.actors k ↔
      x ∈ db.actors k ∧ ¬ (k = actorPrefix ++ remActorId ref ∧ x = remEscape name)) :
    db'.Indexed actorPrefix := by
  refine ⟨?_, ?_, ?_⟩
  · intro m hm
    exact h.members m ((hdue m).1 hm).2
  · intro m hm
    obtain ⟨hne, hm⟩ := hperiods m hm
    exact (hdue m).2 ⟨hne, h.periods m hm⟩
  · intro ref' x
    rw [hactors, h.names]
    constructor
    · rintro ⟨⟨name', rfl, hhas⟩, hne⟩
      refine ⟨name', rfl, (hdue _).2 ⟨?_, hhas⟩⟩
      intro heq
      obtain ⟨rfl, rfl⟩ := memberOf_injective heq
      exact hne ⟨rfl, rfl⟩
    · rintro ⟨name', rfl, hhas⟩
      obtain ⟨hne, hhas⟩ := (hdue _).1 hhas
      refine ⟨⟨name', rfl, hhas⟩, ?_⟩
      rintro ⟨hkey, hname⟩
      obtain rfl := actorKey_injective hkey
      exact hne (by rw [remEscape_injective hname])

theorem Indexed.congr (h : db.Indexed actorPrefix)
    (hdue : ∀ m, db'.due.has m = db.due.has m) (hperiods : db'.periods = db.periods)
    (hactors : db'.actors = db.actors) : db'.Indexed actorPrefix := by
  refine ⟨?_, ?_, ?_⟩
  · intro m hm
    exact h.members m (hdue m ▸ hm)
  · intro m hm
    rw [hdue]
    exact h.periods m (hperiods ▸ hm)
  · intro ref x
    rw [hactors, h.names]
    simp only [hdue]

theorem has_zadd (db : ReminderDb) (m m' : String) (score : Nat) :
    (db.zadd m score).due.has m' = true ↔ m' = m ∨ db.due.has m' = true := by
  rw [JsMap.has, get_zadd, JsMap.has]
  by_cases h : m' = m <;> simp [h]

theorem has_zrem (db : ReminderDb) (m m' : String) :
    (db.zrem m).due.has m' = true ↔ m' ≠ m ∧ db.due.has m' = true := by
  rw [JsMap.has, get_zrem, JsMap.has]
  by_cases h : m' = m <;> simp [h]

theorem has_take (db : ReminderDb) (host : Nat) (m m' : String) :
    (db.take host m).due.has m' = true ↔ m' ≠ m ∧ db.due.has m' = true := by
  rw [JsMap.has, get_take, JsMap.has]
  by_cases h : m' = m <;> simp [h]

theorem Indexed.set (h : db.Indexed actorPrefix) (delay : Nat) (period : Option Nat) :
    (db.set (actorPrefix ++ remActorId ref) (memberOf ref name) delay period
      (remEscape name)).Indexed actorPrefix := by
  cases period with
  | some ms =>
    refine h.add (fun m => has_zadd db _ m _) ?_ fun x k => ?_
    · intro m hm
      have hset : ((db.zadd (memberOf ref name) (db.now + delay)).periods.set (memberOf ref name)
        ms).has m = true := hm
      rw [JsMap.has, JsMap.get_set, zadd_periods] at hset
      by_cases hmem : m = memberOf ref name
      · exact .inl hmem
      · rw [if_neg hmem] at hset
        exact .inr hset
    · exact mem_sadd.trans (by rw [hset_actors, zadd_actors])
  | none =>
    refine h.add (fun m => has_zadd db _ m _) ?_ fun x k => ?_
    · intro m hm
      have hdel : ((db.zadd (memberOf ref name) (db.now + delay)).periods.erase
        (memberOf ref name)).has m = true := hm
      rw [JsMap.has, JsMap.get_erase, zadd_periods] at hdel
      by_cases hmem : m = memberOf ref name
      · exact .inl hmem
      · rw [if_neg hmem] at hdel
        exact .inr hdel
    · exact mem_sadd.trans (by rw [hdel_actors, zadd_actors])

theorem Indexed.clear (h : db.Indexed actorPrefix) :
    (db.clear (actorPrefix ++ remActorId ref) (memberOf ref name) (remEscape name)).Indexed
      actorPrefix := by
  refine h.remove (fun m => has_zrem db _ m) ?_ fun x k => ?_
  · intro m hm
    have hdel : ((db.zrem (memberOf ref name)).periods.erase (memberOf ref name)).has m = true := hm
    rw [JsMap.has, JsMap.get_erase, zrem_periods] at hdel
    by_cases hmem : m = memberOf ref name
    · simp [hmem] at hdel
    · rw [if_neg hmem] at hdel
      exact ⟨hmem, hdel⟩
  · exact mem_srem.trans (by rw [hdel_actors, zrem_actors])

/-! ### What the loop of a claim does to one member -/

variable {q : String × Due}

/-- A periodic member is advanced. -/
theorem claimRow_periodic {period : Nat} (hp : db.periods.get q.1 = some period) :
    db.claimRow actorPrefix host q =
      ((db.take host q.1).place q.1 (max q.2.score db.now + period),
        ⟨q.1, some (max q.2.score db.now + period)⟩) := by
  unfold claimRow
  dsimp only
  rw [hp]

/-- A one-shot is removed, with its name. -/
theorem claimRow_oneShot (hp : db.periods.get (memberOf ref name) = none) {e : Due} :
    db.claimRow actorPrefix host (memberOf ref name, e) =
      ((db.take host (memberOf ref name)).srem (actorPrefix ++ remActorId ref) (remEscape name),
        ⟨memberOf ref name, none⟩) := by
  unfold claimRow
  dsimp only
  rw [hp, split_memberOf]

theorem Indexed.claimRow (h : db.Indexed actorPrefix) (hq : db.due.get q.1 = some q.2) :
    (db.claimRow actorPrefix host q).1.Indexed actorPrefix := by
  have hhas : db.due.has q.1 = true := by rw [JsMap.has, hq]; rfl
  cases hp : db.periods.get q.1 with
  | some period =>
    rw [claimRow_periodic hp]
    refine h.congr ?_ (take_periods _ _ _) (take_actors _ _ _)
    intro m
    show ((db.take host q.1).due.set q.1 _).has m = _
    rw [JsMap.has, JsMap.get_set, get_take, JsMap.has]
    by_cases hm : m = q.1
    · rw [hm, if_pos rfl, hq]
      rfl
    · rw [if_neg hm, if_neg hm]
  | none =>
    obtain ⟨m, e⟩ := q
    obtain ⟨ref, name, rfl⟩ := h.members m hhas
    rw [claimRow_oneShot hp]
    refine h.remove (fun m => has_take db host _ m) ?_ fun x k => ?_
    · intro m hm
      have hperiods : (db.take host (memberOf ref name)).periods.has m = true := hm
      rw [take_periods] at hperiods
      refine ⟨?_, hperiods⟩
      rintro rfl
      rw [JsMap.has, hp] at hperiods
      simp at hperiods
    · exact mem_srem.trans (by rw [take_actors])

theorem Indexed.rearmRow (h : db.Indexed actorPrefix) {row : Claimed} {retry : Nat}
    (hrow : ∃ ref name, row.member = memberOf ref name) :
    (ReminderDb.rearmRow actorPrefix retry db row).Indexed actorPrefix := by
  unfold ReminderDb.rearmRow
  split
  · exact h
  · obtain ⟨ref, name, hmember⟩ := hrow
    rw [hmember, split_memberOf]
    refine h.add (fun m => has_zadd db _ m _) (fun m hm => .inr ?_) fun x k => ?_
    · have hperiods : (db.zadd (memberOf ref name) retry).periods.has m = true := hm
      rwa [zadd_periods] at hperiods
    · exact mem_sadd.trans (by rw [zadd_actors])
  · exact h
  · rename_i advanced cur _ hcur
    split
    · refine h.congr ?_ (zadd_periods _ _ _) (zadd_actors _ _ _)
      intro m
      rw [JsMap.has, get_zadd, JsMap.has]
      by_cases hm : m = row.member
      · rw [hm, if_pos rfl, hcur]
        rfl
      · rw [if_neg hm]
    · exact h

/-! ## The occurrences -/

/-- The occurrence is the one that a member is due at. -/
def DueNow (db : ReminderDb) (k : Nat) : Prop :=
  ∃ m e, db.due.get m = some e ∧ e.occurrence = k

/-- Each occurrence is due, claimed or withdrawn, and only one of them; and it was claimed
once. -/
structure EachOnce (db : ReminderDb) : Prop where
  due_inj : ∀ m m' e e', db.due.get m = some e → db.due.get m' = some e' →
    e.occurrence = e'.occurrence → m = m'
  claimed_nodup : (db.claimed.map Prod.fst).Nodup
  due_claimed : ∀ k, db.DueNow k → k ∉ db.claimed.map Prod.fst
  due_withdrawn : ∀ k, db.DueNow k → k ∉ db.withdrawn
  claimed_withdrawn : ∀ k ∈ db.claimed.map Prod.fst, k ∉ db.withdrawn
  minted : ∀ k, k < db.minted ↔
    db.DueNow k ∨ k ∈ db.claimed.map Prod.fst ∨ k ∈ db.withdrawn

section

variable (h : db.EachOnce)
include h

/-- The step leaves the occurrences alone. -/
theorem EachOnce.congr (hdue : db'.due = db.due) (hminted : db'.minted = db.minted)
    (hclaimed : db'.claimed = db.claimed) (hwithdrawn : db'.withdrawn = db.withdrawn) :
    db'.EachOnce := by
  have hnow : ∀ k, db'.DueNow k ↔ db.DueNow k := by
    intro k
    rw [DueNow, hdue, DueNow]
  constructor
  case due_inj =>
    rw [hdue]
    exact h.due_inj
  case claimed_nodup =>
    rw [hclaimed]
    exact h.claimed_nodup
  case due_claimed =>
    intro k hk
    rw [hclaimed]
    exact h.due_claimed k ((hnow k).1 hk)
  case due_withdrawn =>
    intro k hk
    rw [hwithdrawn]
    exact h.due_withdrawn k ((hnow k).1 hk)
  case claimed_withdrawn =>
    rw [hclaimed, hwithdrawn]
    exact h.claimed_withdrawn
  case minted =>
    intro k
    rw [hminted, hnow, hclaimed, hwithdrawn]
    exact h.minted k

/-- What is left of the due once a member is gone. -/
theorem dueNow_of_erase {e : Due} (hm : db.due.get m = some e)
    (hget : ∀ m', db'.due.get m' = if m' = m then none else db.due.get m') (k : Nat) :
    db'.DueNow k ↔ db.DueNow k ∧ k ≠ e.occurrence := by
  constructor
  · rintro ⟨m', e', hm', rfl⟩
    rw [hget] at hm'
    by_cases hne : m' = m
    · simp [hne] at hm'
    · rw [if_neg hne] at hm'
      exact ⟨⟨m', e', hm', rfl⟩, fun heq => hne (h.due_inj m' m e' e hm' hm heq)⟩
  · rintro ⟨⟨m', e', hm', rfl⟩, hk⟩
    refine ⟨m', e', ?_, rfl⟩
    rw [hget, if_neg]
    · exact hm'
    · rintro rfl
      rw [hm] at hm'
      exact hk (by rw [Option.some.inj hm'])

theorem due_inj_of_erase (hget : ∀ m', db'.due.get m' = if m' = m then none else db.due.get m') :
    ∀ m₁ m₂ e₁ e₂, db'.due.get m₁ = some e₁ → db'.due.get m₂ = some e₂ →
      e₁.occurrence = e₂.occurrence → m₁ = m₂ := by
  intro m₁ m₂ e₁ e₂ h₁ h₂ heq
  rw [hget] at h₁ h₂
  by_cases hm₁ : m₁ = m
  · simp [hm₁] at h₁
  · by_cases hm₂ : m₂ = m
    · simp [hm₂] at h₂
    · rw [if_neg hm₁] at h₁
      rw [if_neg hm₂] at h₂
      exact h.due_inj m₁ m₂ e₁ e₂ h₁ h₂ heq

theorem EachOnce.zrem (m : String) : (db.zrem m).EachOnce := by
  cases hm : db.due.get m with
  | none =>
    have hself : db.zrem m = db := by
      unfold ReminderDb.zrem
      rw [hm]
    rwa [hself]
  | some e =>
    have hget := get_zrem db m
    generalize hdb' : db.zrem m = db' at hget ⊢
    have hfields : db'.minted = db.minted ∧ db'.claimed = db.claimed ∧
        db'.withdrawn = e.occurrence :: db.withdrawn := by
      rw [← hdb']
      unfold ReminderDb.zrem
      rw [hm]
      exact ⟨rfl, rfl, rfl⟩
    obtain ⟨hminted, hclaimed, hwithdrawn⟩ := hfields
    have hnow := dueNow_of_erase h hm hget
    have hdue : db.DueNow e.occurrence := ⟨m, e, hm, rfl⟩
    constructor
    case due_inj => exact due_inj_of_erase h hget
    case claimed_nodup =>
      rw [hclaimed]
      exact h.claimed_nodup
    case due_claimed =>
      intro k hk
      rw [hclaimed]
      exact h.due_claimed k ((hnow k).1 hk).1
    case due_withdrawn =>
      intro k hk
      rw [hwithdrawn, List.mem_cons, not_or]
      exact ⟨((hnow k).1 hk).2, h.due_withdrawn k ((hnow k).1 hk).1⟩
    case claimed_withdrawn =>
      intro k hk
      rw [hclaimed] at hk
      rw [hwithdrawn, List.mem_cons, not_or]
      refine ⟨?_, h.claimed_withdrawn k hk⟩
      rintro rfl
      exact h.due_claimed _ hdue hk
    case minted =>
      intro k
      rw [hminted, h.minted, hnow, hclaimed, hwithdrawn, List.mem_cons]
      by_cases hk : k = e.occurrence
      · subst hk
        simp [hdue]
      · simp [hk]

theorem EachOnce.take (host : Nat) (m : String) : (db.take host m).EachOnce := by
  cases hm : db.due.get m with
  | none =>
    have hself : db.take host m = db := by
      unfold ReminderDb.take
      rw [hm]
    rwa [hself]
  | some e =>
    have hget := get_take db host m
    generalize hdb' : db.take host m = db' at hget ⊢
    have hfields : db'.minted = db.minted ∧ db'.claimed = (e.occurrence, host) :: db.claimed ∧
        db'.withdrawn = db.withdrawn := by
      rw [← hdb']
      unfold ReminderDb.take
      rw [hm]
      exact ⟨rfl, rfl, rfl⟩
    obtain ⟨hminted, hclaimed, hwithdrawn⟩ := hfields
    have hnow := dueNow_of_erase h hm hget
    have hdue : db.DueNow e.occurrence := ⟨m, e, hm, rfl⟩
    constructor
    case due_inj => exact due_inj_of_erase h hget
    case claimed_nodup =>
      rw [hclaimed, List.map_cons, List.nodup_cons]
      exact ⟨h.due_claimed _ hdue, h.claimed_nodup⟩
    case due_claimed =>
      intro k hk
      rw [hclaimed, List.map_cons, List.mem_cons, not_or]
      exact ⟨((hnow k).1 hk).2, h.due_claimed k ((hnow k).1 hk).1⟩
    case due_withdrawn =>
      intro k hk
      rw [hwithdrawn]
      exact h.due_withdrawn k ((hnow k).1 hk).1
    case claimed_withdrawn =>
      intro k hk
      rw [hclaimed, List.map_cons, List.mem_cons] at hk
      rw [hwithdrawn]
      rcases hk with rfl | hk
      · exact h.due_withdrawn _ hdue
      · exact h.claimed_withdrawn k hk
    case minted =>
      intro k
      rw [hminted, h.minted, hnow, hclaimed, hwithdrawn, List.map_cons, List.mem_cons]
      by_cases hk : k = e.occurrence
      · subst hk
        simp [hdue]
      · simp [hk]

/-- A member that is not due gets an occurrence of its own. -/
theorem EachOnce.place (hm : db.due.get m = none) (score : Nat) : (db.place m score).EachOnce := by
  have hget := get_place db m
  have hlt : ∀ {m' : String} {e : Due}, db.due.get m' = some e → e.occurrence < db.minted :=
    fun {m' e} he => (h.minted _).2 (.inl ⟨m', e, he, rfl⟩)
  have hnow : ∀ k, (db.place m score).DueNow k ↔ db.DueNow k ∨ k = db.minted := by
    intro k
    constructor
    · rintro ⟨m', e, he, rfl⟩
      rw [hget] at he
      by_cases hm' : m' = m
      · rw [if_pos hm'] at he
        exact .inr (by rw [← Option.some.inj he])
      · rw [if_neg hm'] at he
        exact .inl ⟨m', e, he, rfl⟩
    · rintro (⟨m', e, he, rfl⟩ | rfl)
      · refine ⟨m', e, ?_, rfl⟩
        rw [hget, if_neg]
        · exact he
        · rintro rfl
          rw [hm] at he
          simp at he
      · exact ⟨m, ⟨score, db.minted⟩, by rw [hget, if_pos rfl], rfl⟩
  have hfresh : ¬ db.minted < db.minted := Nat.lt_irrefl _
  rw [h.minted] at hfresh
  rw [not_or, not_or] at hfresh
  constructor
  case due_inj =>
    intro m₁ m₂ e₁ e₂ h₁ h₂ heq
    rw [hget] at h₁ h₂
    by_cases hm₁ : m₁ = m
    · by_cases hm₂ : m₂ = m
      · rw [hm₁, hm₂]
      · rw [if_pos hm₁] at h₁
        rw [if_neg hm₂] at h₂
        have hlt₂ := hlt h₂
        rw [← heq, ← Option.some.inj h₁] at hlt₂
        exact absurd hlt₂ (Nat.lt_irrefl _)
    · by_cases hm₂ : m₂ = m
      · rw [if_neg hm₁] at h₁
        rw [if_pos hm₂] at h₂
        have hlt₁ := hlt h₁
        rw [heq, ← Option.some.inj h₂] at hlt₁
        exact absurd hlt₁ (Nat.lt_irrefl _)
      · rw [if_neg hm₁] at h₁
        rw [if_neg hm₂] at h₂
        exact h.due_inj m₁ m₂ e₁ e₂ h₁ h₂ heq
  case claimed_nodup => exact h.claimed_nodup
  case due_claimed =>
    intro k hk
    rcases (hnow k).1 hk with hk | rfl
    · exact h.due_claimed k hk
    · exact hfresh.2.1
  case due_withdrawn =>
    intro k hk
    rcases (hnow k).1 hk with hk | rfl
    · exact h.due_withdrawn k hk
    · exact hfresh.2.2
  case claimed_withdrawn => exact h.claimed_withdrawn
  case minted =>
    intro k
    show k < db.minted + 1 ↔ _ ∨ k ∈ db.claimed.map Prod.fst ∨ k ∈ db.withdrawn
    rw [hnow, Nat.lt_succ_iff_lt_or_eq, h.minted]
    tauto

theorem EachOnce.zadd (m : String) (score : Nat) : (db.zadd m score).EachOnce :=
  (h.zrem m).place (by rw [get_zrem, if_pos rfl]) score

theorem EachOnce.set (actor member : String) (delay : Nat) (period : Option Nat) :
    (db.set actor member delay period name).EachOnce := by
  cases period with
  | some | none => exact (h.zadd member (db.now + delay)).congr rfl rfl rfl rfl

theorem EachOnce.clear (actor member : String) :
    (db.clear actor member name).EachOnce := (h.zrem member).congr rfl rfl rfl rfl

theorem EachOnce.claimRow : (db.claimRow actorPrefix host q).1.EachOnce := by
  unfold ReminderDb.claimRow
  dsimp only
  split
  · exact (h.take host q.1).place (by rw [get_take, if_pos rfl]) _
  split
  · exact (h.take host q.1).congr rfl rfl rfl rfl
  · exact h.take host q.1

theorem EachOnce.rearmRow (retry : Nat) (row : Claimed) :
    (ReminderDb.rearmRow actorPrefix retry db row).EachOnce := by
  unfold ReminderDb.rearmRow
  split
  · exact h
  · split
    · exact (h.zadd row.member retry).congr rfl rfl rfl rfl
    · exact h.zadd row.member retry
  · exact h
  · split
    · exact h.zadd _ _
    · exact h

end

end ReminderDb

end SigxActors.Redis
