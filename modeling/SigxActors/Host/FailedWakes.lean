/-
  Host/FailedWakes.lean --- what becomes of a reminder whose delivery has failed.

  Source: `packages/actors/src/host/reminders.ts` (`#tickShard`, `#rearm`).

  A tick collects what is due of a shard and delivers it; other calls set and clear
  reminders of the shard meanwhile; what has failed is put back in one edit, or the save
  of that edit is refused as often as it is tried.

  Every edit is committed to the table that the ones before it have left, so a tick and
  what follows it are edits of one table.
-/
import SigxActors.Host.ReminderReplay

set_option autoImplicit false

namespace SigxActors.Host

open SigxActors.Js

/-! ## Tables -/

variable {t : ReminderTable}

namespace ReminderTable

/-- Nothing stands under the one name that cannot be a key. -/
def Keyed (t : ReminderTable) : Prop := ∀ id, t.entry id "__proto__" = none

theorem Keyed.put (h : t.Keyed) (id name : String) (e : ReminderEntry) :
    (t.put id name e).Keyed := by
  intro i
  by_cases hname : name = "__proto__"
  · subst hname
    exact (entry_put_proto t id i _ e).trans (h i)
  · have hne : ¬ (i = id ∧ "__proto__" = name) := fun hand => hname hand.2.symm
    exact (entry_put_of_ne hne).trans (h i)

theorem Keyed.clear (h : t.Keyed) (id name : String) :
    (t.clear id name).table.Keyed := by
  intro i
  rw [entry_clear]
  split
  · rfl
  · exact h i

theorem Keyed.tick (h : t.Keyed) (now : Int) : (t.tick now).table.Keyed := by
  intro i
  rw [entry_tick, h i]
  split
  · rfl
  · rfl

theorem entry_rearm (t : ReminderTable) (nextDue : Int) (failed : List Due) (i n : String) :
    (t.rearm nextDue failed).table.entry i n =
      (rearmRows nextDue t.writes t failed false).1.entry i n := by
  unfold rearm
  dsimp only
  split
  · rfl
  · rfl

theorem Keyed.rearm (h : t.Keyed) (nextDue : Int) (failed : List Due) :
    (t.rearm nextDue failed).table.Keyed := by
  have hrows := rearmRows_induct (I := fun left _ => left.Keyed) nextDue t.writes failed
    (fun left _ row _ period hleft => hleft.put row.id row.name _) t false h
  intro i
  rw [entry_rearm]
  exact hrows i

end ReminderTable

theorem Edit.keyed_apply {tickMs now : Int} (h : t.Keyed) (edit : Edit) :
    (edit.apply tickMs now t).table.Keyed := by
  cases edit with
  | set id name due period => exact h.put id name _
  | clear id name => exact h.clear id name
  | tick at_ => exact h.tick at_
  | rearm failed => exact h.rearm _ failed

/-- So it is with every table that is committed. -/
theorem keyed_replay (tickMs : Int) (commits : List Commit) : (replay tickMs commits).table.Keyed :=
  foldl_commit_induct (I := fun r => r.table.Keyed) (P := fun _ => True) tickMs
    (fun _ c _ h => Edit.keyed_apply h c.edit) commits {} (fun _ _ => trivial) (fun _ => rfl)

/-! ## A tick, and what follows it -/

/-- The edit is a call's own, and names the reminder. -/
def Edit.Names (id name : String) : Edit → Prop
  | .set id' name' _ _ => id = id' ∧ name = name'
  | .clear id' name' => id = id' ∧ name = name'
  | _ => False

/-- The edit is a call's own. -/
def Edit.OfCall : Edit → Prop
  | .set .. => True
  | .clear .. => True
  | _ => False

/-- A tick of a shard of which deliveries fail. -/
structure FailedTick where
  table : ReminderTable
  keyed : table.Keyed
  tickMs : Int
  now : Int
  /-- What calls have committed before what failed is put back. -/
  meanwhile : List Commit
  ofCalls : ∀ c ∈ meanwhile, c.edit.OfCall
  /-- What has failed, in the order in which it did. -/
  failed : List Due
  collected : failed.Subperm (table.tick now).due
  /-- When it is put back. -/
  again : Int
  /-- The save of it has not been refused as often as it was tried. -/
  saved : Bool

namespace FailedTick

variable (f : FailedTick)

/-- What the tick has left. -/
def ticked : ReminderTable := (f.table.tick f.now).table

/-- What `#rearm` finds. -/
def found : ReminderTable :=
  f.meanwhile.foldl (fun t c => (c.edit.apply f.tickMs c.now t).table) f.ticked

/-- What it leaves. -/
def after : ReminderTable :=
  if f.saved then (f.found.rearm (f.again + f.tickMs) f.failed).table else f.found

/-- No call has named the reminder meanwhile. -/
def Untouched (d : Due) : Prop := ∀ c ∈ f.meanwhile, ¬ c.edit.Names d.id d.name

/-- The last call that has named it has set it. -/
def LastSet (id name : String) (nextDue : Int) (period : Option Int) : Prop :=
  ∃ front back due now, f.meanwhile = front ++ ⟨.set id name due period, now⟩ :: back ∧
    nextDue = now + due ∧ ∀ c ∈ back, ¬ c.edit.Names id name

/-- No wake is lost. -/
structure Kept : Prop where
  rearmed : ∀ d ∈ f.failed, f.Untouched d →
    ∃ e, f.after.entry d.id d.name = some e ∧ e.nextDue ≤ f.again + f.tickMs
  setWins : ∀ id name nextDue period, f.LastSet id name nextDue period →
    ∃ e, f.after.entry id name = some e ∧ e.nextDue = nextDue ∧ e.period = period
  notPushed : ∀ i n e, f.found.entry i n = some e → e.period.isSome →
    ∃ e', f.after.entry i n = some e' ∧ e'.nextDue ≤ e.nextDue ∧ e'.period = e.period
  notDue : ∀ d ∈ (f.table.tick f.now).due, ∀ e, f.ticked.entry d.id d.name = some e →
    (∀ period ∈ e.period, 0 < period) → f.now < e.nextDue

/-- What has failed is found to be as the tick has left it, and only that. -/
structure Told : Prop where
  /-- No actor's entries answer for a name that is not theirs. -/
  own : f.saved → ∀ front d back, f.failed = front ++ d :: back → d.advanced = none →
    f.Untouched d → d.name ∈ objectPrototype →
      f.found.actors.get d.id = none ∧ ∀ row ∈ front, row.advanced = none → row.id ≠ d.id
  /-- No call has set what the tick had written. -/
  other : f.saved → ∀ d ∈ f.failed, ∀ advanced ∈ d.advanced,
    f.LastSet d.id d.name advanced.nextDue advanced.period →
      advanced.nextDue ≤ f.again + f.tickMs
  /-- Where the save is refused, what failed is due again in time as it is. -/
  lost : ¬ f.saved → ∀ d ∈ f.failed, f.Untouched d →
    ∃ advanced ∈ d.advanced, advanced.nextDue ≤ f.again + f.tickMs
  /-- No call has set what cannot be a key. -/
  key : ∀ id nextDue period, ¬ f.LastSet id "__proto__" nextDue period

end FailedTick

/-! ## Rows -/

variable {i : String} {n : String}

namespace ReminderTable

variable {t : ReminderTable} {nextDue : Int} {made : Nat}

theorem rearmRows_append (front back : List Due) (t : ReminderTable) (changed : Bool) :
    rearmRows nextDue made t (front ++ back) changed =
      rearmRows nextDue made (rearmRows nextDue made t front changed).1 back
        (rearmRows nextDue made t front changed).2 := by
  induction front generalizing t changed with
  | nil => rfl
  | cons row front ih =>
    rw [List.cons_append, rearmRows, rearmRows]
    split <;> exact ih _ _

theorem entry_rearmRows_of_not_mem {rows : List Due}
    (h : ∀ row ∈ rows, ¬ (i = row.id ∧ n = row.name)) (changed : Bool) :
    (rearmRows nextDue made t rows changed).1.entry i n = t.entry i n :=
  rearmRows_induct (I := fun left _ => left.entry i n = t.entry i n) nextDue made rows
    (fun _ _ row hrow _ hleft => (entry_put_of_ne (h row hrow)).trans hleft) t changed rfl

/-- What the rows leave under a name is what its own row leaves of the table it finds. -/
theorem entry_rearmRows {front back : List Due} {d : Due} (changed : Bool)
    (hback : ∀ row ∈ back, ¬ (d.id = row.id ∧ d.name = row.name)) :
    (rearmRows nextDue made t (front ++ d :: back) changed).1.entry d.id d.name =
      (((rearmRows nextDue made t front changed).1.rearmRow nextDue made d).getD
        (rearmRows nextDue made t front changed).1).entry d.id d.name := by
  rw [rearmRows_append, rearmRows]
  split
  · rename_i hrow
    rw [entry_rearmRows_of_not_mem hback, hrow, Option.getD_some]
  · rename_i hrow
    rw [entry_rearmRows_of_not_mem hback, hrow, Option.getD_none]

theorem get_actors_put (t : ReminderTable) (id name : String) (e : ReminderEntry) (i : String) :
    (t.put id name e).actors.get i = none ↔ i ≠ id ∧ t.actors.get i = none := by
  unfold put
  rw [JsMap.get_set]
  split
  · rename_i hi
    exact iff_of_false (by simp) (fun hand => hand.1 hi)
  · rename_i hi
    exact (and_iff_right hi).symm

/-- An actor has no entries yet where no one-shot of it has been put back. -/
theorem get_actors_rearmRows (rows : List Due) (t : ReminderTable) (changed : Bool) (i : String) :
    (rearmRows nextDue made t rows changed).1.actors.get i = none ↔
      t.actors.get i = none ∧ ∀ row ∈ rows, row.advanced = none → row.id ≠ i := by
  induction rows generalizing t changed with
  | nil => exact (and_iff_left nofun).symm
  | cons row rows ih =>
    rw [rearmRows, List.forall_mem_cons]
    cases hrow : t.rearmRow nextDue made row with
    | some t' =>
      refine (ih t' true).trans ?_
      rw [← and_assoc]
      refine and_congr_left fun _ => ?_
      unfold rearmRow at hrow
      cases hadvanced : row.advanced with
      | none =>
        rw [hadvanced] at hrow
        obtain ⟨-, hrow⟩ := guard_past hrow
        rw [← Option.some.inj hrow, get_actors_put, and_comm]
        exact and_congr_right fun _ => ⟨fun h _ heq => h heq.symm, fun h heq => h rfl heq.symm⟩
      | some advanced =>
        rw [hadvanced] at hrow
        dsimp only at hrow
        split at hrow
        · rename_i current hcurrent
          obtain ⟨-, hrow⟩ := guard_passed hrow
          rw [← Option.some.inj hrow, get_actors_put]
          obtain ⟨entries, hactor, -⟩ := entry_eq_some.1 hcurrent
          constructor
          · exact fun h => ⟨h.2, nofun⟩
          · rintro ⟨hnone, -⟩
            refine ⟨fun heq => ?_, hnone⟩
            rw [heq, hactor] at hnone
            cases hnone
        · cases hrow
    | none =>
      refine (ih t changed).trans (and_congr_right fun hnone => ?_)
      refine (and_iff_right fun hadvanced heq => ?_).symm
      unfold rearmRow at hrow
      rw [hadvanced] at hrow
      rw [heq, hnone] at hrow
      cases hrow

/-- A one-shot is put back where its name is in no object. -/
theorem rearmRow_oneShot {d : Due} (h : d.advanced = none) : t.rearmRow nextDue made d =
      if (t.entry d.id d.name).isSome ∨ d.name ∈ objectPrototype ∧ t.actors.get d.id ≠ none then none
      else some (t.put d.id d.name ⟨nextDue, none, made⟩) := by
  unfold rearmRow
  rw [h]
  unfold entry
  cases t.actors.get d.id with
  | none => simp
  | some entries => simp [JsMap.inObject, JsMap.has]

/-- A periodic one is pulled forward where it is as the tick has left it. -/
theorem entry_rearmRow_periodic {d : Due} {advanced : ReminderEntry} (hname : d.name ≠ "__proto__")
    (h : d.advanced = some advanced) : ((t.rearmRow nextDue made d).getD t).entry d.id d.name =
      (t.entry d.id d.name).map fun e =>
        if e.nextDue = advanced.nextDue ∧ e.period = advanced.period ∧ nextDue < e.nextDue then
          ⟨nextDue, e.period, made⟩
        else e := by
  unfold rearmRow
  rw [h]
  cases hentry : t.entry d.id d.name with
  | none => exact hentry
  | some e =>
    dsimp only
    rw [Option.map_some]
    split
    · rw [Option.getD_some, entry_put t d.id hname, if_pos ⟨rfl, rfl⟩]
    · exact hentry

end ReminderTable

/-! ## What is found -/

/-- A call leaves the reminders it does not name. -/
theorem Edit.entry_of_not_names {tickMs now : Int} {edit : Edit}
    (hcall : edit.OfCall) (h : ¬ edit.Names i n) :
    (edit.apply tickMs now t).table.entry i n = t.entry i n := by
  cases edit with
  | set id name due period => exact ReminderTable.entry_put_of_ne h
  | clear id name => exact (t.entry_clear id name i n).trans (if_neg h)
  | tick | rearm => exact absurd hcall id

namespace FailedTick

variable {f : FailedTick} {d : Due}

theorem entry_foldl_of_not_names {tickMs : Int} {commits : List Commit}
    (hcalls : ∀ c ∈ commits, c.edit.OfCall) (h : ∀ c ∈ commits, ¬ c.edit.Names i n)
    (t : ReminderTable) :
    (commits.foldl (fun t c => (c.edit.apply tickMs c.now t).table) t).entry i n = t.entry i n := by
  induction commits generalizing t with
  | nil => rfl
  | cons c commits ih =>
    rw [List.forall_mem_cons] at hcalls h
    rw [List.foldl_cons, ih hcalls.2 h.2, Edit.entry_of_not_names hcalls.1 h.1]

theorem keyed_found (f : FailedTick) : f.found.Keyed := by
  have hfold : ∀ (commits : List Commit) (t : ReminderTable), t.Keyed →
      (commits.foldl (fun t c => (c.edit.apply f.tickMs c.now t).table) t).Keyed := by
    intro commits
    induction commits with
    | nil => exact fun _ h => h
    | cons c commits ih => exact fun t h => ih _ (Edit.keyed_apply h c.edit)
  exact hfold f.meanwhile f.ticked (f.keyed.tick f.now)

theorem mem_due (h : d ∈ f.failed) : d ∈ f.table.dueAt f.now := by
  obtain ⟨l, hperm, hsub⟩ := f.collected
  rw [← f.table.due_tick f.now]
  exact hsub.subset (hperm.mem_iff.2 h)

/-- What was collected is left as the tick says it has written it. -/
theorem entry_ticked (h : d ∈ f.table.dueAt f.now) : f.ticked.entry d.id d.name = d.advanced := by
  obtain ⟨ref, e, href, hentry, -, hd⟩ := ReminderTable.mem_dueAt.1 h
  have hid : (refOf d.id).isSome := by
    rw [href]
    rfl
  rw [ticked, ReminderTable.entry_tick, if_pos hid, hentry, Option.bind_some, hd]

/-- What no call has named is found as the tick has left it. -/
theorem entry_found_of_untouched (hd : d ∈ f.failed) (h : f.Untouched d) :
    f.found.entry d.id d.name = d.advanced :=
  (entry_foldl_of_not_names f.ofCalls h f.ticked).trans (entry_ticked (mem_due hd))

/-- What a call has set is found, where it can be a key. -/
theorem entry_found_of_lastSet {id name : String} {nextDue : Int} {period : Option Int}
    (h : f.LastSet id name nextDue period) (hname : name ≠ "__proto__") :
    ∃ e, f.found.entry id name = some e ∧ e.nextDue = nextDue ∧ e.period = period := by
  obtain ⟨front, back, due, now, hmeanwhile, rfl, hback⟩ := h
  have hcalls : ∀ c ∈ back, c.edit.OfCall := fun c hc =>
    f.ofCalls c (hmeanwhile ▸ List.mem_append_right _ (.tail _ hc))
  rw [found, hmeanwhile, List.foldl_append, List.foldl_cons, entry_foldl_of_not_names hcalls hback]
  refine ⟨_, (ReminderTable.entry_put _ id hname id name _).trans (if_pos ⟨rfl, rfl⟩), rfl, rfl⟩

theorem name_ne_proto (h : d ∈ f.failed) : d.name ≠ "__proto__" := by
  obtain ⟨ref, e, -, hentry, -, -⟩ := ReminderTable.mem_dueAt.1 (mem_due h)
  intro hname
  rw [hname, f.keyed] at hentry
  cases hentry

/-- A tick collects a reminder once. -/
theorem eq_of_mem_due {d d' : Due} (h : d ∈ f.table.dueAt f.now) (h' : d' ∈ f.table.dueAt f.now)
    (hid : d.id = d'.id) (hname : d.name = d'.name) : d = d' := by
  obtain ⟨ref, e, href, hentry, -, hd⟩ := ReminderTable.mem_dueAt.1 h
  obtain ⟨ref', e', href', hentry', -, hd'⟩ := ReminderTable.mem_dueAt.1 h'
  rw [hid, href', Option.some.injEq] at href
  rw [hid, hname, hentry', Option.some.injEq] at hentry
  rw [hd, hd', href, hentry, hid, hname]

variable {front back : List Due} {e : ReminderEntry}

/-- A row is the only one of its reminder. -/
theorem notMem_split (h : f.failed = front ++ d :: back) :
    ∀ row ∈ front ++ back, ¬ (d.id = row.id ∧ d.name = row.name) := by
  have hdue := f.table.due_tick f.now
  have hnodup : f.failed.Nodup := by
    obtain ⟨l, hperm, hsub⟩ := f.collected
    have hl : l.Nodup := (List.Nodup.of_map _ (hdue ▸ f.table.nodup_dueAt f.now)).sublist hsub
    exact hperm.nodup_iff.1 hl
  have hmem : ∀ row, row ∈ front ++ back → row ∈ f.failed := by
    intro row hrow
    rw [h]
    rcases List.mem_append.1 hrow with hrow | hrow
    · exact List.mem_append_left _ hrow
    · exact List.mem_append_right _ (.tail _ hrow)
  have hself : d ∈ f.failed := h ▸ List.mem_append_right _ (.head _)
  rintro row hrow ⟨hid, hname⟩
  obtain rfl := eq_of_mem_due (mem_due hself) (mem_due (hmem row hrow)) hid hname
  rw [h, List.nodup_middle, List.nodup_cons] at hnodup
  exact hnodup.1 hrow

/-! ## What is left -/

/-- What the rows in front of a row leave. -/
def foundBy (f : FailedTick) (front : List Due) : ReminderTable :=
  (ReminderTable.rearmRows (f.again + f.tickMs) f.found.writes f.found front false).1

/-- An actor has no entries yet where no one-shot of it stands in front. -/
theorem get_actors_foundBy (front : List Due) (i : String) : (f.foundBy front).actors.get i = none ↔
      f.found.actors.get i = none ∧ ∀ row ∈ front, row.advanced = none → row.id ≠ i :=
  ReminderTable.get_actors_rearmRows front f.found false i

theorem entry_after (hsaved : f.saved) (h : f.failed = front ++ d :: back) :
    f.after.entry d.id d.name =
      (((f.foundBy front).rearmRow (f.again + f.tickMs) f.found.writes d).getD
        (f.foundBy front)).entry d.id d.name := by
  have hback : ∀ row ∈ back, ¬ (d.id = row.id ∧ d.name = row.name) := fun row hrow =>
    notMem_split h row (List.mem_append_right _ hrow)
  rw [after, if_pos hsaved, ReminderTable.entry_rearm, h, ReminderTable.entry_rearmRows _ hback]
  rfl

theorem entry_foundBy (h : f.failed = front ++ d :: back) :
    (f.foundBy front).entry d.id d.name = f.found.entry d.id d.name :=
  ReminderTable.entry_rearmRows_of_not_mem
    (fun row hrow => notMem_split h row (List.mem_append_left _ hrow)) false

theorem entry_after_of_not_mem
    (h : ∀ row ∈ f.failed, ¬ (i = row.id ∧ n = row.name)) :
    f.after.entry i n = f.found.entry i n := by
  rw [after]
  split
  · exact ReminderTable.entry_rearm_of_not_mem h
  · rfl

theorem entry_after_lost (h : ¬ f.saved) (i n : String) :
    f.after.entry i n = f.found.entry i n := by
  rw [after, if_neg h]

/-- A one-shot of which there is nothing is put back, unless its name is in an object. -/
theorem entry_after_oneShot (hsaved : f.saved) (h : f.failed = front ++ d :: back)
    (hadvanced : d.advanced = none) (hnone : f.found.entry d.id d.name = none) :
    f.after.entry d.id d.name =
      if d.name ∈ objectPrototype ∧ (f.foundBy front).actors.get d.id ≠ none then none
      else some ⟨f.again + f.tickMs, none, f.found.writes⟩ := by
  have hproto := name_ne_proto (h ▸ List.mem_append_right _ (.head _))
  have hfront : (f.foundBy front).entry d.id d.name = none := (entry_foundBy h).trans hnone
  rw [entry_after hsaved h, ReminderTable.rearmRow_oneShot hadvanced, hfront]
  simp only [Option.isSome_none, Bool.false_eq_true, false_or]
  split
  · exact hfront
  · rw [Option.getD_some, ReminderTable.entry_put _ _ hproto, if_pos ⟨rfl, rfl⟩]

/-- A one-shot that is there again stays as it is. -/
theorem entry_after_set (hsaved : f.saved) (h : f.failed = front ++ d :: back)
    (hadvanced : d.advanced = none) (hentry : f.found.entry d.id d.name = some e) :
    f.after.entry d.id d.name = some e := by
  have hfront : (f.foundBy front).entry d.id d.name = some e := (entry_foundBy h).trans hentry
  rw [entry_after hsaved h, ReminderTable.rearmRow_oneShot hadvanced, hfront]
  exact hfront

theorem entry_after_periodic (hsaved : f.saved) (hd : d ∈ f.failed) {advanced : ReminderEntry}
    (hadvanced : d.advanced = some advanced) :
    f.after.entry d.id d.name = (f.found.entry d.id d.name).map fun e =>
      if e.nextDue = advanced.nextDue ∧ e.period = advanced.period ∧
          f.again + f.tickMs < e.nextDue then
        ⟨f.again + f.tickMs, e.period, f.found.writes⟩
      else e := by
  obtain ⟨front, back, hsplit⟩ := List.append_of_mem hd
  rw [entry_after hsaved hsplit, ReminderTable.entry_rearmRow_periodic (name_ne_proto hd) hadvanced,
    entry_foundBy hsplit]

/-! ## Wakes -/

/-- A reminder that is found is left, and is due no later, with the same period. -/
theorem not_pushed (hentry : f.found.entry i n = some e) :
    ∃ e', f.after.entry i n = some e' ∧ e'.nextDue ≤ e.nextDue ∧ e'.period = e.period := by
  by_cases hsaved : f.saved
  case neg => exact ⟨e, (entry_after_lost hsaved i n).trans hentry, Int.le_refl _, rfl⟩
  by_cases hrow : ∃ d ∈ f.failed, i = d.id ∧ n = d.name
  case neg =>
    have hnot : ∀ row ∈ f.failed, ¬ (i = row.id ∧ n = row.name) :=
      fun row hmem hand => hrow ⟨row, hmem, hand⟩
    exact ⟨e, (entry_after_of_not_mem hnot).trans hentry, Int.le_refl _, rfl⟩
  obtain ⟨d, hd, rfl, rfl⟩ := hrow
  cases hadvanced : d.advanced with
  | none =>
    obtain ⟨front, back, hsplit⟩ := List.append_of_mem hd
    exact ⟨e, entry_after_set hsaved hsplit hadvanced hentry, Int.le_refl _, rfl⟩
  | some advanced =>
    rw [entry_after_periodic hsaved hd hadvanced, hentry, Option.map_some]
    refine ⟨_, rfl, ?_⟩
    split
    case isTrue hpulled => exact ⟨Int.le_of_lt hpulled.2.2, rfl⟩
    case isFalse => exact ⟨Int.le_refl _, rfl⟩

/-- What a tick has collected it leaves behind `now`. -/
theorem not_due (hd : d ∈ f.table.dueAt f.now) (hentry : f.ticked.entry d.id d.name = some e)
    (hperiod : ∀ period ∈ e.period, 0 < period) : f.now < e.nextDue := by
  obtain ⟨ref, before, -, -, hdue, heq⟩ := ReminderTable.mem_dueAt.1 hd
  rw [entry_ticked hd, heq] at hentry
  rw [ReminderEntry.tick, if_pos hdue, Option.map_eq_some_iff] at hentry
  obtain ⟨period, -, rfl⟩ := hentry
  have hpos := hperiod period rfl
  dsimp only
  split
  case isTrue => omega
  case isFalse hlater => omega

/-- What has failed and was not touched is due in time where it is told from what was. -/
theorem Told.rearmed (h : f.Told) (hd : d ∈ f.failed) (huntouched : f.Untouched d) :
    ∃ e, f.after.entry d.id d.name = some e ∧ e.nextDue ≤ f.again + f.tickMs := by
  have hfound := entry_found_of_untouched hd huntouched
  by_cases hsaved : f.saved
  case neg =>
    obtain ⟨advanced, hadvanced, hsoon⟩ := h.lost hsaved d hd huntouched
    exact ⟨advanced, (entry_after_lost hsaved _ _).trans (hfound.trans hadvanced), hsoon⟩
  cases hadvanced : d.advanced with
  | none =>
    obtain ⟨front, back, hsplit⟩ := List.append_of_mem hd
    rw [hadvanced] at hfound
    have hnot : ¬ (d.name ∈ objectPrototype ∧ (f.foundBy front).actors.get d.id ≠ none) := by
      rintro ⟨hname, hactor⟩
      exact hactor ((get_actors_foundBy front d.id).2
        (h.own hsaved front d back hsplit hadvanced huntouched hname))
    rw [entry_after_oneShot hsaved hsplit hadvanced hfound, if_neg hnot]
    exact ⟨_, rfl, Int.le_refl _⟩
  | some advanced =>
    rw [hadvanced] at hfound
    rw [entry_after_periodic hsaved hd hadvanced, hfound, Option.map_some]
    refine ⟨_, rfl, ?_⟩
    split
    case isTrue => exact Int.le_refl _
    case isFalse hlater => exact Int.not_lt.1 fun hlt => hlater ⟨rfl, rfl, hlt⟩

/-- What a call has set stays, where it is told from what the tick had written. -/
theorem Told.setWins (h : f.Told) {id name : String} {nextDue : Int} {period : Option Int}
    (hset : f.LastSet id name nextDue period) :
    ∃ e, f.after.entry id name = some e ∧ e.nextDue = nextDue ∧ e.period = period := by
  have hname : name ≠ "__proto__" := by
    rintro rfl
    exact h.key id nextDue period hset
  obtain ⟨e, hfound, rfl, rfl⟩ := entry_found_of_lastSet hset hname
  by_cases hsaved : f.saved
  case neg => exact ⟨e, (entry_after_lost hsaved _ _).trans hfound, rfl, rfl⟩
  by_cases hrow : ∃ d ∈ f.failed, id = d.id ∧ name = d.name
  case neg =>
    have hnot : ∀ row ∈ f.failed, ¬ (id = row.id ∧ name = row.name) :=
      fun row hmem hand => hrow ⟨row, hmem, hand⟩
    exact ⟨e, (entry_after_of_not_mem hnot).trans hfound, rfl, rfl⟩
  obtain ⟨d, hd, rfl, rfl⟩ := hrow
  cases hadvanced : d.advanced with
  | none =>
    obtain ⟨front, back, hsplit⟩ := List.append_of_mem hd
    exact ⟨e, entry_after_set hsaved hsplit hadvanced hfound, rfl, rfl⟩
  | some advanced =>
    have hnot : ¬ (e.nextDue = advanced.nextDue ∧ e.period = advanced.period ∧
        f.again + f.tickMs < e.nextDue) := by
      rintro ⟨hdue, hperiod, hlt⟩
      rw [hdue, hperiod] at hset
      exact absurd (h.other hsaved d hd advanced hadvanced hset) (Int.not_le.2 (hdue ▸ hlt))
    rw [entry_after_periodic hsaved hd hadvanced, hfound, Option.map_some, if_neg hnot]
    exact ⟨e, rfl, rfl, rfl⟩

theorem Told.kept (h : f.Told) : f.Kept where
  rearmed _ hd huntouched := h.rearmed hd huntouched
  setWins _ _ _ _ hset := h.setWins hset
  notPushed _ _ _ hentry _ := not_pushed hentry
  notDue _ hd _ hentry hperiod := not_due (f.table.due_tick f.now ▸ hd) hentry hperiod

theorem Kept.told (h : f.Kept) : f.Told where
  own := by
    intro hsaved front d back hsplit hadvanced huntouched hname
    have hd : d ∈ f.failed := hsplit ▸ List.mem_append_right _ (.head _)
    have hfound := entry_found_of_untouched hd huntouched
    rw [hadvanced] at hfound
    obtain ⟨e, he, -⟩ := h.rearmed d hd huntouched
    rw [entry_after_oneShot hsaved hsplit hadvanced hfound] at he
    refine (get_actors_foundBy front d.id).1 ?_
    split at he
    case isTrue => cases he
    case isFalse hnot => exact Classical.not_not.1 fun hactor => hnot ⟨hname, hactor⟩
  other := by
    intro hsaved d hd advanced hadvanced hset
    obtain ⟨e, hfound, hdue, hperiod⟩ := entry_found_of_lastSet hset (name_ne_proto hd)
    obtain ⟨e', he', hdue', -⟩ := h.setWins _ _ _ _ hset
    rw [entry_after_periodic hsaved hd hadvanced, hfound, Option.map_some] at he'
    have hpulled := Option.some.inj he'
    split at hpulled
    case isTrue hlt =>
      subst hpulled
      exact Int.le_of_eq hdue'.symm
    case isFalse hnot =>
      exact Int.not_lt.1 fun hlt => hnot ⟨hdue, hperiod, hdue ▸ hlt⟩
  lost := by
    intro hsaved d hd huntouched
    obtain ⟨e, he, hsoon⟩ := h.rearmed d hd huntouched
    rw [entry_after_lost hsaved, entry_found_of_untouched hd huntouched] at he
    exact ⟨e, he, hsoon⟩
  key := by
    intro id nextDue period hset
    have hnot : ∀ row ∈ f.failed, ¬ (id = row.id ∧ "__proto__" = row.name) :=
      fun row hrow hand => name_ne_proto hrow hand.2.symm
    obtain ⟨e, he, -⟩ := h.setWins _ _ _ _ hset
    rw [entry_after_of_not_mem hnot, keyed_found f] at he
    cases he

/-- An actor has a one-shot that is due, by the name of a method that objects have, and
another reminder that is not. -/
def inherited : FailedTick :=
  let id := actorId ⟨"job", "b"⟩
  let table := (replay 10 [⟨.set id "toString" 0 none, 0⟩, ⟨.set id "later" 1000 none, 0⟩]).table
  { table := table
    keyed := keyed_replay 10 _
    tickMs := 10
    now := 0
    meanwhile := []
    ofCalls := nofun
    failed := (table.tick 0).due
    collected := ⟨_, .refl _, .refl _⟩
    again := 0
    saved := true }

end FailedTick

end SigxActors.Host
