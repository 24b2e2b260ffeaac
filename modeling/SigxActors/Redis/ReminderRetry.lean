/-
  Redis/ReminderRetry.lean --- a reminder whose delivery failed is due again within a tick.

  A one-shot that is claimed is gone, and a periodic member has the score that the claim
  wrote; until the actor sets or clears the reminder, only the re-arm of an earlier delivery
  of the same member can change that, and it brings the member within a tick.  A periodic
  member that is claimed again meanwhile has another score, and its first delivery is not
  retried: that is the next firing's turn.
-/
import SigxActors.Redis.ReminderIndex

set_option autoImplicit false

namespace SigxActors.Redis

open SigxActors.Js SigxActors.Storage

/-! ## What a delivery relies on -/

/-- The reminder of a delivery is as its claim has left it, or due within a tick. -/
structure DeliveryOk (longest : Nat) (db : ReminderDb) (d : Delivery) : Prop where
  member : ∃ ref name, d.row.member = memberOf ref name
  periodic : ∀ advanced, d.row.advanced = some advanced → d.replaced = false →
    d.reclaimed = false → ∃ e, db.due.get d.row.member = some e ∧ e.score ≤ advanced ∧
      (e.score = advanced ∨ e.score ≤ db.now + longest)
  oneShot : d.row.advanced = none → d.replaced = false → db.periods.get d.row.member = none ∧
    ∀ e, db.due.get d.row.member = some e → e.score ≤ db.now + longest

variable {longest : Nat} {db db' : ReminderDb} {d : Delivery} {actorPrefix : String}

theorem DeliveryOk.congr (h : DeliveryOk longest db d)
    (hdue : db'.due.get d.row.member = db.due.get d.row.member)
    (hperiods : db'.periods.get d.row.member = db.periods.get d.row.member)
    (hnow : db.now ≤ db'.now) : DeliveryOk longest db' d := by
  refine ⟨h.member, ?_, ?_⟩
  · intro advanced hadvanced hreplaced hreclaimed
    obtain ⟨e, he, hle, hnear⟩ := h.periodic advanced hadvanced hreplaced hreclaimed
    exact ⟨e, hdue.trans he, hle, hnear.imp id (by omega)⟩
  · intro hadvanced hreplaced
    obtain ⟨hp, hnear⟩ := h.oneShot hadvanced hreplaced
    refine ⟨hperiods.trans hp, fun e he => ?_⟩
    have hscore := hnear e (hdue.symm.trans he)
    omega

/-- The delivery of a reminder that has been set or cleared since relies on nothing. -/
theorem DeliveryOk.of_replaced (hmember : ∃ ref name, d.row.member = memberOf ref name)
    (hreplaced : d.replaced = true) : DeliveryOk longest db d := by
  refine ⟨hmember, ?_, ?_⟩
  · intro advanced _ hnot
    rw [hreplaced] at hnot
    simp at hnot
  · intro _ hnot
    rw [hreplaced] at hnot
    simp at hnot

/-! ## The re-arm -/

/-- What a pass of the re-arm may do to a member: nothing; put it back at the retry; or pull
it forward, to the retry at the latest. -/
structure Rearmed (retry : Nat) (db db' : ReminderDb) : Prop where
  periods : db'.periods = db.periods
  now : db'.now = db.now
  due : ∀ m, db'.due.get m = db.due.get m ∨
    (db.due.get m = none ∧ ∃ e, db'.due.get m = some e ∧ e.score = retry) ∨
    ∃ e e', db.due.get m = some e ∧ db'.due.get m = some e' ∧ e'.score = min e.score retry

theorem rearmed_rearmRow (actorPrefix : String) (retry : Nat) (db : ReminderDb) (row : Claimed) :
    Rearmed retry db (ReminderDb.rearmRow actorPrefix retry db row) := by
  have hsame : Rearmed retry db db := ⟨rfl, rfl, fun _ => .inl rfl⟩
  unfold ReminderDb.rearmRow
  split
  · exact hsame
  · rename_i _ hnone
    have hzadd : Rearmed retry db (db.zadd row.member retry) := by
      refine ⟨ReminderDb.zadd_periods _ _ _, ReminderDb.zadd_now _ _ _, fun m => ?_⟩
      rw [ReminderDb.get_zadd]
      by_cases hm : m = row.member
      · rw [if_pos hm, hm]
        exact .inr (.inl ⟨hnone, _, rfl, rfl⟩)
      · rw [if_neg hm]
        exact .inl rfl
    split
    · exact { hzadd with }
    · exact hzadd
  · exact hsame
  · rename_i advanced cur _ hcur
    split
    · refine ⟨ReminderDb.zadd_periods _ _ _, ReminderDb.zadd_now _ _ _, fun m => ?_⟩
      rw [ReminderDb.get_zadd]
      by_cases hm : m = row.member
      · rw [if_pos hm, hm]
        exact .inr (.inr ⟨cur, _, hcur, rfl, rfl⟩)
      · rw [if_neg hm]
        exact .inl rfl
    · exact hsame

variable {retry : Nat} {fault : Fault}

theorem DeliveryOk.rearmed (h : DeliveryOk longest db d) (hr : Rearmed retry db db')
    (hretry : retry ≤ db.now + longest) : DeliveryOk longest db' d := by
  rcases hr.due d.row.member with heq | ⟨hnone, e', he', hscore⟩ | ⟨e, e', he, he', hscore⟩
  · exact h.congr heq (by rw [hr.periods]) (Nat.le_of_eq hr.now.symm)
  · refine ⟨h.member, ?_, ?_⟩
    · intro advanced hadvanced hreplaced hreclaimed
      obtain ⟨e, he, -⟩ := h.periodic advanced hadvanced hreplaced hreclaimed
      rw [hnone] at he
      simp at he
    · intro hadvanced hreplaced
      rw [hr.periods, hr.now]
      refine ⟨(h.oneShot hadvanced hreplaced).1, fun e₂ he₂ => ?_⟩
      rw [he'] at he₂
      rw [← Option.some.inj he₂, hscore]
      exact hretry
  · refine ⟨h.member, ?_, ?_⟩
    · intro advanced hadvanced hreplaced hreclaimed
      obtain ⟨e₁, he₁, hle, hnear⟩ := h.periodic advanced hadvanced hreplaced hreclaimed
      rw [he] at he₁
      cases he₁
      rw [hr.now]
      exact ⟨e', he', by omega, by omega⟩
    · intro hadvanced hreplaced
      obtain ⟨hp, hnear⟩ := h.oneShot hadvanced hreplaced
      rw [hr.periods, hr.now]
      refine ⟨hp, fun e₂ he₂ => ?_⟩
      rw [he'] at he₂
      rw [← Option.some.inj he₂, hscore]
      omega

/-- The reminder is due within a tick, and no later than the claim had it. -/
def DueAgain (bound : Nat) (db : ReminderDb) (row : Claimed) : Prop :=
  ∃ e, db.due.get row.member = some e ∧ e.score ≤ bound ∧
    ∀ advanced, row.advanced = some advanced → e.score ≤ advanced

/-- What the code goes by: the reminder has not been set or cleared, and a periodic one has
not been claimed, since. -/
def Delivery.Untouched (d : Delivery) : Prop :=
  d.replaced = false ∧ (d.row.advanced.isSome = true → d.reclaimed = false)

instance (d : Delivery) : Decidable d.Untouched := by
  unfold Delivery.Untouched
  infer_instance

theorem DueAgain.rearmed {bound : Nat} {row : Claimed} (h : DueAgain bound db row)
    (hr : Rearmed retry db db') : DueAgain bound db' row := by
  obtain ⟨e, he, hbound, hadvanced⟩ := h
  rcases hr.due row.member with heq | ⟨hnone, -⟩ | ⟨e₁, e', he₁, he', hscore⟩
  · exact ⟨e, heq.trans he, hbound, hadvanced⟩
  · rw [hnone] at he
    simp at he
  · rw [he] at he₁
    cases he₁
    refine ⟨e', he', by omega, fun advanced hrow => ?_⟩
    have hle := hadvanced advanced hrow
    omega

/-- The pass for the row itself. -/
theorem DeliveryOk.dueAgain (h : DeliveryOk longest db d) (hd : d.Untouched)
    (hretry : retry ≤ db.now + longest) :
    DueAgain (db.now + longest) (ReminderDb.rearmRow actorPrefix retry db d.row) d.row := by
  cases hrow : d.row.advanced with
  | none =>
    have hoff := h.oneShot hrow hd.1
    cases hdue : db.due.get d.row.member with
    | some e =>
      have hself : ReminderDb.rearmRow actorPrefix retry db d.row = db := by
        simp only [ReminderDb.rearmRow, hrow, hdue]
      rw [hself]
      exact ⟨e, hdue, hoff.2 e hdue, fun advanced hadv => by rw [hrow] at hadv; simp at hadv⟩
    | none =>
      refine ⟨⟨retry, db.minted⟩, ?_, hretry, fun advanced hadv => by rw [hrow] at hadv; simp at hadv⟩
      have hzadd : (db.zadd d.row.member retry).due.get d.row.member = some ⟨retry, db.minted⟩ := by
        rw [ReminderDb.get_zadd, if_pos rfl]
      simp only [ReminderDb.rearmRow, hrow, hdue]
      split <;> exact hzadd
  | some advanced =>
    have hreclaimed : d.reclaimed = false := hd.2 (by rw [hrow]; rfl)
    obtain ⟨e, he, hle, hnear⟩ := h.periodic advanced hrow hd.1 hreclaimed
    by_cases hscore : e.score = advanced
    · refine ⟨⟨min e.score retry, db.minted⟩, ?_, ?_, ?_⟩
      · simp only [ReminderDb.rearmRow, hrow, he, if_pos hscore]
        rw [ReminderDb.get_zadd, if_pos rfl]
      · show min e.score retry ≤ _
        omega
      · intro advanced' hadv
        rw [hrow] at hadv
        cases hadv
        show min e.score retry ≤ advanced
        omega
    · have hself : ReminderDb.rearmRow actorPrefix retry db d.row = db := by
        simp only [ReminderDb.rearmRow, hrow, he, if_neg hscore]
      rw [hself]
      refine ⟨e, he, hnear.resolve_left hscore, fun advanced' hadv => ?_⟩
      rw [hrow] at hadv
      cases hadv
      exact hle

/-- The loop of the re-arm, from any row on. -/
structure RearmLoop (actorPrefix : String) (longest : Nat) (db db' : ReminderDb)
    (failed : List Delivery) : Prop where
  now : db'.now = db.now
  indexed : db'.Indexed actorPrefix
  eachOnce : db'.EachOnce
  others : ∀ d, DeliveryOk longest db d → DeliveryOk longest db' d
  keeps : ∀ bound row, DueAgain bound db row → DueAgain bound db' row
  dueAgain : ∀ d ∈ failed, d.Untouched → DueAgain (db.now + longest) db' d.row

theorem rearmLoop : ∀ (failed : List Delivery) (db : ReminderDb),
    db.Indexed actorPrefix → db.EachOnce → (∀ d ∈ failed, DeliveryOk longest db d) →
    retry ≤ db.now + longest → RearmLoop actorPrefix longest db
      ((failed.map (·.row)).foldl (ReminderDb.rearmRow actorPrefix retry) db) failed := by
  intro failed
  induction failed with
  | nil =>
    intro db hindexed honce _ _
    exact ⟨rfl, hindexed, honce, fun _ => id, fun _ _ => id, fun d hd => by simp at hd⟩
  | cons d failed ih =>
    intro db hindexed honce hok hretry
    have hd := hok d List.mem_cons_self
    have hpass := rearmed_rearmRow actorPrefix retry db d.row
    have hrest := ih (ReminderDb.rearmRow actorPrefix retry db d.row)
      (hindexed.rearmRow hd.member) (honce.rearmRow retry d.row)
      (fun d' hd' => (hok d' (List.mem_cons_of_mem _ hd')).rearmed hpass hretry)
      (by rw [hpass.now]; exact hretry)
    refine ⟨hrest.now.trans hpass.now, hrest.indexed, hrest.eachOnce, ?_, ?_, ?_⟩
    · exact fun d' hd' => hrest.others d' (hd'.rearmed hpass hretry)
    · exact fun bound row hdue => hrest.keeps bound row (hdue.rearmed hpass)
    · intro d' hd' huntouched
      rcases List.mem_cons.1 hd' with rfl | hd'
      · exact hrest.keeps _ _ (hd.dueAgain huntouched hretry)
      · have hdue := hrest.dueAgain d' hd' huntouched
        rwa [hpass.now] at hdue

/-! ## The claim -/

/-- The loop of the claim, from any member on. -/
structure Claims (actorPrefix : String) (db db' : ReminderDb) (due : List (String × Due))
    (rows : List Claimed) : Prop where
  now : db'.now = db.now
  periods : db'.periods = db.periods
  indexed : db'.Indexed actorPrefix
  eachOnce : db'.EachOnce
  members : rows.map (·.member) = due.map Prod.fst
  others : ∀ m, m ∉ due.map Prod.fst → db'.due.get m = db.due.get m
  removed : ∀ m ∈ due.map Prod.fst, db.periods.get m = none → db'.due.get m = none
  advanced : ∀ row ∈ rows, ∀ advanced, row.advanced = some advanced →
    ∃ e, db'.due.get row.member = some e ∧ e.score = advanced
  oneShot : ∀ row ∈ rows, row.advanced = none → db.periods.get row.member = none

/-- What a pass of the claim does. -/
theorem claimRow_spec (host : Nat) {q : String × Due} (hindexed : db.Indexed actorPrefix)
    (hq : db.due.get q.1 = some q.2) : let next := db.claimRow actorPrefix host q
    next.1.now = db.now ∧ next.1.periods = db.periods ∧ next.2.member = q.1 ∧
      (∀ m, m ≠ q.1 → next.1.due.get m = db.due.get m) ∧
      (db.periods.get q.1 = none → next.2.advanced = none ∧ next.1.due.get q.1 = none) ∧
      (∀ advanced, next.2.advanced = some advanced →
        ∃ e, next.1.due.get q.1 = some e ∧ e.score = advanced) ∧
      (next.2.advanced = none → db.periods.get q.1 = none) := by
  cases hp : db.periods.get q.1 with
  | some period =>
    rw [ReminderDb.claimRow_periodic hp]
    refine ⟨ReminderDb.take_now _ _ _, ReminderDb.take_periods _ _ _, rfl, ?_, ?_, ?_, ?_⟩
    · intro m hm
      rw [ReminderDb.get_place, if_neg hm, ReminderDb.get_take, if_neg hm]
    · intro hnone
      simp at hnone
    · intro advanced hadvanced
      refine ⟨_, by rw [ReminderDb.get_place, if_pos rfl], ?_⟩
      exact Option.some.inj hadvanced
    · intro hnone
      simp at hnone
  | none =>
    obtain ⟨m, e⟩ := q
    obtain ⟨ref, name, rfl⟩ := hindexed.members m (by rw [JsMap.has, hq]; rfl)
    rw [ReminderDb.claimRow_oneShot hp]
    refine ⟨ReminderDb.take_now _ _ _, ReminderDb.take_periods _ _ _, rfl, ?_, ?_, ?_, fun _ => rfl⟩
    · intro m hm
      exact (ReminderDb.get_take db host _ m).trans (if_neg hm)
    · intro _
      exact ⟨rfl, (ReminderDb.get_take db host _ _).trans (if_pos rfl)⟩
    · intro advanced hadvanced
      simp at hadvanced

theorem claimLoop (host : Nat) : ∀ (due : List (String × Due)) (db : ReminderDb),
    db.Indexed actorPrefix → db.EachOnce → (∀ q ∈ due, db.due.get q.1 = some q.2) →
    (due.map Prod.fst).Nodup →
    Claims actorPrefix db (ReminderDb.claimRows actorPrefix host db due).1 due
      (ReminderDb.claimRows actorPrefix host db due).2 := by
  intro due
  induction due with
  | nil =>
    intro db hindexed honce _ _
    exact ⟨rfl, rfl, hindexed, honce, rfl, fun _ _ => rfl, by simp, by
      simp [ReminderDb.claimRows], by simp [ReminderDb.claimRows]⟩
  | cons q due ih =>
    intro db hindexed honce hdue hnodup
    rw [List.map_cons, List.nodup_cons] at hnodup
    have hq := hdue q List.mem_cons_self
    obtain ⟨hnow, hperiods, hmember, hothers, hremoved, hadvanced, honeShot⟩ :=
      claimRow_spec host hindexed hq
    -- the members behind it are where they were
    have hrest := ih (db.claimRow actorPrefix host q).1 (hindexed.claimRow hq) honce.claimRow
      (fun q' hq' => by
        have hne : q'.1 ≠ q.1 := fun heq => hnodup.1 (heq ▸ List.mem_map_of_mem hq')
        rw [hothers _ hne]
        exact hdue q' (List.mem_cons_of_mem _ hq')) hnodup.2
    rw [ReminderDb.claimRows]
    refine ⟨hrest.now.trans hnow, hrest.periods.trans hperiods, hrest.indexed, hrest.eachOnce,
      ?_, ?_, ?_, ?_, ?_⟩
    · rw [List.map_cons, List.map_cons, hrest.members, hmember]
    · intro m hm
      rw [List.map_cons, List.mem_cons, not_or] at hm
      exact (hrest.others m hm.2).trans (hothers m hm.1)
    · intro m hm hp
      rw [List.map_cons, List.mem_cons] at hm
      by_cases hin : m ∈ due.map Prod.fst
      · exact hrest.removed m hin (by rw [hperiods]; exact hp)
      obtain rfl := hm.resolve_right hin
      rw [hrest.others _ hin]
      exact (hremoved hp).2
    · intro row hrow advanced hadv
      rcases List.mem_cons.1 hrow with rfl | hrow
      · obtain ⟨e, he, hscore⟩ := hadvanced advanced hadv
        refine ⟨e, ?_, hscore⟩
        rw [hmember, hrest.others _ hnodup.1]
        exact he
      · exact hrest.advanced row hrow advanced hadv
    · intro row hrow hadv
      rcases List.mem_cons.1 hrow with rfl | hrow
      · rw [hmember]
        exact honeShot hadv
      · have hnone := hrest.oneShot row hrow hadv
        rwa [hperiods] at hnone

/-- What a range returns is due, each member once. -/
theorem dueRange_spec (db : ReminderDb) (batch : Nat) :
    (∀ q ∈ db.dueRange batch, db.due.get q.1 = some q.2) ∧
      ((db.dueRange batch).map Prod.fst).Nodup := by
  have hsub : ∀ q ∈ db.dueRange batch, q ∈ db.due.entries := by
    intro q hq
    have hsorted := List.mem_of_mem_take hq
    rw [List.mem_insertionSort] at hsorted
    exact (List.mem_filter.1 hsorted).1
  refine ⟨fun q hq => JsMap.get_of_mem_entries (hsub q hq), ?_⟩
  have hfilter : ((db.due.entries.filter fun q => q.2.score ≤ db.now).map Prod.fst).Nodup :=
    db.due.nodup.sublist (List.Sublist.map _ List.filter_sublist)
  refine List.Nodup.sublist (List.Sublist.map _ (List.take_sublist _ _)) ?_
  exact ((List.perm_insertionSort _ _).map Prod.fst).nodup_iff.2 hfilter

/-! ## The machine -/

/-- The deliveries of a batch that failed. -/
def TickPhase.failed (phase : TickPhase) : List Delivery :=
  phase.deliveries.filter fun d => d.outcome = some false

/-- After the script of a re-arm, every failed delivery of the batch that `P` admits has its
reminder due within the bound of the longest tick, and no later than the claim had it. -/
def RetriesFailed (options : RedisOptions) (longest : Nat) (P : Delivery → Prop)
    (s : RedisReminders) : Prop :=
  ∀ n fault t, fault ≠ .failed → s.rearm options n fault = some t →
    ∀ d ∈ (s.hosts n).failed, P d → DueAgain (s.db.now + longest) t.db d.row

structure Inv (options : RedisOptions) (longest : Nat) (s : RedisReminders) : Prop where
  indexed : s.db.Indexed options.actorPrefix
  eachOnce : s.db.EachOnce
  deliveries : ∀ n, ∀ d ∈ (s.hosts n).deliveries, DeliveryOk longest s.db d

variable {options : RedisOptions} {s s' : RedisReminders} {n : Nat} {phase : TickPhase}

theorem Inv.setHost (h : Inv options longest s)
    (hphase : ∀ d ∈ phase.deliveries, DeliveryOk longest s.db d) :
    Inv options longest (s.setHost n phase) := by
  refine ⟨h.indexed, h.eachOnce, ?_⟩
  intro m d hd
  have hd' : d ∈ (if m = n then phase else s.hosts m).deliveries := hd
  split at hd'
  · exact hphase d hd'
  · exact h.deliveries m d hd'

theorem Inv.setIdle (h : Inv options longest s) (hphase : phase.deliveries = []) :
    Inv options longest (s.setHost n phase) := by
  refine h.setHost fun d hd => ?_
  rw [hphase] at hd
  simp at hd

theorem deliveries_mapDeliveries (f : Delivery → Delivery) (phase : TickPhase) :
    (phase.mapDeliveries f).deliveries = phase.deliveries.map f := by
  cases phase with
  | idle | claiming | delivering | rearming => rfl

section

variable (h : Inv options longest s)
include h

/-- The database and the deliveries under way move together. -/
theorem Inv.mapDeliveries {f : Delivery → Delivery}
    (hindexed : db'.Indexed options.actorPrefix) (honce : db'.EachOnce)
    (hf : ∀ d, DeliveryOk longest s.db d → DeliveryOk longest db' (f d)) :
    Inv options longest ({ s with db := db' }.mapDeliveries f) := by
  refine ⟨hindexed, honce, ?_⟩
  intro m d hd
  have hd' : d ∈ ((s.hosts m).mapDeliveries f).deliveries := hd
  rw [deliveries_mapDeliveries] at hd'
  obtain ⟨old, hold, rfl⟩ := List.mem_map.1 hd'
  exact hf old (h.deliveries m old hold)

/-- A script on one member, that the deliveries of the member know of. -/
theorem Inv.replaced {m : String}
    (hindexed : db'.Indexed options.actorPrefix) (honce : db'.EachOnce)
    (hdue : ∀ m', m' ≠ m → db'.due.get m' = s.db.due.get m')
    (hperiods : ∀ m', m' ≠ m → db'.periods.get m' = s.db.periods.get m')
    (hnow : db'.now = s.db.now) : Inv options longest ({ s with db := db' }.replaced m) := by
  refine h.mapDeliveries hindexed honce fun d hd => ?_
  by_cases hm : d.row.member = m
  · rw [if_pos hm]
    exact .of_replaced hd.member rfl
  · rw [if_neg hm]
    exact hd.congr (hdue _ hm) (hperiods _ hm) (Nat.le_of_eq hnow.symm)

theorem Inv.set {ref : ActorRef} {name : String} (due : Nat)
    (period : Option Nat) : Inv options longest (s.set options ref name due period) := by
  have hscript : Inv options longest ({ s with
      db := s.db.set (options.actorPrefix ++ remActorId ref) (memberOf ref name) due period
        (remEscape name) }.replaced (memberOf ref name)) := by
    refine h.replaced (h.indexed.set due period) (h.eachOnce.set _ _ due period) ?_ ?_ ?_
    · intro m' hm'
      have hzadd := ReminderDb.get_zadd s.db (memberOf ref name) m' (s.db.now + due)
      rw [if_neg hm'] at hzadd
      cases period with
      | some | none => exact hzadd
    · intro m' hm'
      have hzadd := ReminderDb.zadd_periods s.db (memberOf ref name) (s.db.now + due)
      cases period with
      | some ms => exact (JsMap.get_set _ _ _ _).trans (by rw [if_neg hm', hzadd])
      | none => exact (JsMap.get_erase _ _ _).trans (by rw [if_neg hm', hzadd])
    · have hzadd := ReminderDb.zadd_now s.db (memberOf ref name) (s.db.now + due)
      cases period with
      | some | none => exact hzadd
  unfold RedisReminders.set
  cases period with
  | some ms =>
    dsimp only
    split
    · exact h
    · exact hscript
  | none => exact hscript

theorem Inv.clear {ref : ActorRef} {name : String} :
    Inv options longest (s.clear options ref name) := by
  refine h.replaced h.indexed.clear (h.eachOnce.clear _ _) ?_ ?_ (ReminderDb.zrem_now s.db _)
  · intro m' hm'
    exact (ReminderDb.get_zrem s.db _ _).trans (if_neg hm')
  · intro m' hm'
    have hzrem := ReminderDb.zrem_periods s.db (memberOf ref name)
    exact (JsMap.get_erase _ _ _).trans (by rw [if_neg hm', hzrem])

theorem Inv.advance (ms : Nat) :
    Inv options longest { s with db := { s.db with now := s.db.now + ms } } := by
  refine ⟨h.indexed.congr (fun _ => rfl) rfl rfl, h.eachOnce.congr rfl rfl rfl rfl, ?_⟩
  intro m d hd
  exact (h.deliveries m d hd).congr rfl rfl (Nat.le_add_right _ _)

theorem Inv.tick : Inv options longest (s.tick n) := by
  unfold RedisReminders.tick
  split
  · exact h.setIdle rfl
  · exact h

end

/-- What a claim does to the deliveries under way. -/
theorem DeliveryOk.claimed {due : List (String × Due)} {rows : List Claimed}
    (hd : DeliveryOk longest db d) (hclaims : Claims actorPrefix db db' due rows) :
    DeliveryOk longest db'
      (if d.row.member ∈ rows.map (·.member) then { d with reclaimed := true } else d) := by
  split
  · rename_i hmem
    rw [hclaims.members] at hmem
    refine ⟨hd.member, ?_, ?_⟩
    · intro advanced _ _ hnot
      simp at hnot
    · intro hadvanced hreplaced
      have hp := (hd.oneShot hadvanced hreplaced).1
      rw [hclaims.periods]
      refine ⟨hp, fun e he => ?_⟩
      rw [hclaims.removed _ hmem hp] at he
      simp at he
  · rename_i hmem
    rw [hclaims.members] at hmem
    exact hd.congr (hclaims.others _ hmem) (by rw [hclaims.periods]) (Nat.le_of_eq hclaims.now.symm)

/-- What a delivery begins with. -/
theorem Claims.deliveryOk {due : List (String × Due)} {rows : List Claimed} {row : Claimed}
    (hclaims : Claims actorPrefix db db' due rows)
    (hmembers : ∀ m ∈ due.map Prod.fst, ∃ ref name, m = memberOf ref name) (hrow : row ∈ rows) :
    DeliveryOk longest db' { row := row } := by
  have hmem : row.member ∈ due.map Prod.fst := by
    rw [← hclaims.members]
    exact List.mem_map_of_mem hrow
  refine ⟨hmembers _ hmem, ?_, ?_⟩
  · intro advanced hadvanced _ _
    obtain ⟨e, he, hscore⟩ := hclaims.advanced row hrow advanced hadvanced
    exact ⟨e, he, Nat.le_of_eq hscore, .inl hscore⟩
  · intro hadvanced _
    have hp := hclaims.oneShot row hrow hadvanced
    rw [hclaims.periods]
    refine ⟨hp, fun e he => ?_⟩
    rw [hclaims.removed _ hmem hp] at he
    simp at he

theorem Inv.claim (h : Inv options longest s) (hstep : s.claim options n fault = some s') :
    Inv options longest s' := by
  unfold RedisReminders.claim at hstep
  split at hstep
  · split at hstep
    · cases hstep
      exact h.setIdle rfl
    · obtain ⟨hdue, hnodup⟩ := dueRange_spec s.db (max 1 (options.batchSize n))
      have hclaims := claimLoop n _ s.db h.indexed h.eachOnce hdue hnodup
      have hclaimed := h.mapDeliveries hclaims.indexed hclaims.eachOnce
        fun d hd => hd.claimed hclaims
      have hmembers : ∀ m ∈ (s.db.dueRange (max 1 (options.batchSize n))).map Prod.fst,
          ∃ ref name, m = memberOf ref name := by
        intro m hm
        obtain ⟨q, hq, rfl⟩ := List.mem_map.1 hm
        exact h.indexed.members q.1 (by rw [JsMap.has, hdue q hq]; rfl)
      dsimp only at hstep
      split at hstep
      · cases hstep
        exact hclaimed.setIdle rfl
      · cases hstep
        refine hclaimed.setHost fun d hd => ?_
        obtain ⟨row, hrow, rfl⟩ := List.mem_map.1 hd
        exact hclaims.deliveryOk hmembers hrow
  · simp at hstep

theorem Inv.settle {i : Nat} {ok : Bool} (h : Inv options longest s)
    (hstep : s.settle n i ok = some s') : Inv options longest s' := by
  unfold RedisReminders.settle at hstep
  split at hstep
  · rename_i batch deliveries hphase
    have hall : ∀ d ∈ deliveries, DeliveryOk longest s.db d := by
      have hn := h.deliveries n
      rw [hphase] at hn
      exact hn
    split at hstep
    · rename_i d hd
      obtain ⟨-, rfl⟩ := guard_taken hstep
      refine h.setHost fun d' hd' => ?_
      rcases List.mem_or_eq_of_mem_set hd' with hd' | rfl
      · exact hall d' hd'
      · have hok := hall d (List.mem_of_getElem? hd)
        exact { hok with }
    · simp at hstep
  · simp at hstep

theorem nextBatch_deliveries (n batch : Nat) (deliveries : List Delivery) :
    (RedisReminders.nextBatch options n batch deliveries).deliveries = [] := by
  unfold RedisReminders.nextBatch
  split
  · rfl
  · split <;> rfl

theorem Inv.settled (h : Inv options longest s) (hstep : s.settled options n = some s') :
    Inv options longest s' := by
  unfold RedisReminders.settled at hstep
  split at hstep
  · rename_i batch deliveries hphase
    have hn := h.deliveries n
    rw [hphase] at hn
    obtain ⟨-, hstep⟩ := guard_passed hstep
    split at hstep
    · cases hstep
      exact h.setHost hn
    · cases hstep
      exact h.setIdle (nextBatch_deliveries n batch deliveries)
  · simp at hstep

/-- The script of a re-arm, on the failures of the batch. -/
theorem Inv.rearmed (h : Inv options longest s) (htick : ∀ n, options.tickMs n ≤ longest)
    (n : Nat) : RearmLoop options.actorPrefix longest s.db
      (s.db.rearm options.actorPrefix (options.tickMs n) ((s.hosts n).failed.map (·.row)))
      (s.hosts n).failed := by
  refine rearmLoop _ s.db h.indexed h.eachOnce ?_ (Nat.add_le_add_left (htick n) _)
  intro d hd
  exact h.deliveries n d (List.mem_filter.1 hd).1

/-- A re-arm that is run takes the host to its next batch. -/
theorem rearm_eq (hfault : fault ≠ .failed) (hstep : s.rearm options n fault = some s') :
    ∃ phase : TickPhase, phase.deliveries = [] ∧
      s' = { s with
        db := s.db.rearm options.actorPrefix (options.tickMs n)
          ((s.hosts n).failed.map Delivery.row) }.setHost n phase := by
  unfold RedisReminders.rearm at hstep
  split at hstep
  · rename_i batch deliveries hphase
    rw [if_neg hfault] at hstep
    cases hstep
    refine ⟨RedisReminders.nextBatch options n batch deliveries, nextBatch_deliveries n batch deliveries,
      ?_⟩
    rw [TickPhase.failed, hphase]
    rfl
  · simp at hstep

theorem Inv.rearm (h : Inv options longest s) (htick : ∀ n, options.tickMs n ≤ longest)
    (hstep : s.rearm options n fault = some s') : Inv options longest s' := by
  by_cases hfault : fault = .failed
  · unfold RedisReminders.rearm at hstep
    split at hstep
    · rename_i batch deliveries _
      rw [if_pos hfault] at hstep
      cases hstep
      exact h.setIdle (nextBatch_deliveries n batch deliveries)
    · simp at hstep
  · obtain ⟨phase, hphase, rfl⟩ := rearm_eq hfault hstep
    have hloop := h.rearmed htick n
    have hdb : Inv options longest { s with
        db := s.db.rearm options.actorPrefix (options.tickMs n)
          ((s.hosts n).failed.map (·.row)) } :=
      { hloop with deliveries := fun m d hd => hloop.others d (h.deliveries m d hd) }
    exact hdb.setIdle hphase

theorem Inv.retriesFailed (h : Inv options longest s) (htick : ∀ n, options.tickMs n ≤ longest) :
    RetriesFailed options longest Delivery.Untouched s := by
  intro n fault t hfault hstep d hd huntouched
  obtain ⟨phase, -, rfl⟩ := rearm_eq hfault hstep
  exact (h.rearmed htick n).dueAgain d hd huntouched

theorem inv_initial : Inv options longest {} := by
  refine ⟨⟨?_, ?_, ?_⟩, ⟨?_, ?_, ?_, ?_, ?_, ?_⟩, ?_⟩
  · simp [JsMap.has]
  · simp [JsMap.has]
  · simp [JsMap.has]
  · simp
  · simp
  · simp
  · simp
  · simp
  · simp [ReminderDb.DueNow]
  · intro n d hd
    simp [TickPhase.deliveries] at hd

theorem Inv.step {l : RedisLabel} (h : Inv options longest s)
    (htick : ∀ n, options.tickMs n ≤ longest)
    (hstep : (redisReminders options).step s l = some s') : Inv options longest s' := by
  cases l with
  | advance ms =>
    cases hstep
    exact h.advance ms
  | set ref name due period =>
    cases hstep
    exact h.set due period
  | clear ref name =>
    cases hstep
    exact h.clear
  | tick n =>
    cases hstep
    exact h.tick
  | claim n fault => exact h.claim hstep
  | settle n i ok => exact h.settle hstep
  | settled n => exact h.settled hstep
  | rearm n fault => exact h.rearm htick hstep

/-- A tick of a second on every host. -/
def secondTicks : RedisOptions := { tickMs := fun _ => 1000 }

/-- A job with a NUL in its key. -/
def nulJob : ActorRef := ⟨"job", "a\x00b"⟩

/-- A periodic and a one-shot reminder, both of which the first host fails to deliver. -/
def failedRun : List RedisLabel :=
  [.set nulJob "poll" 0 (some 60000), .set nulJob "once" 5 none, .advance 10, .tick 0,
    .claim 0 .none, .settle 0 0 false, .settle 0 1 false, .settled 0]

def failedEnd : RedisReminders :=
  ((redisReminders secondTicks).exec (fun _ _ => True) {} failedRun).get (by decide)

/-- The first delivery is still under way a period later, when another host claims the next
firing; then it fails. -/
def slowRun : List RedisLabel :=
  [.set nulJob "poll" 0 (some 60000), .tick 0, .claim 0 .none, .advance 60000, .tick 1,
    .claim 1 .none, .settle 0 0 false, .settled 0]

def slowEnd : RedisReminders :=
  ((redisReminders secondTicks).exec (fun _ _ => True) {} slowRun).get (by decide)

end SigxActors.Redis
