/-
  Host/ReminderReplay.lean --- a shard table as the edits committed to it.

  Source: `packages/actors/src/host/reminders.ts`.

  The edits that were committed, one after another, make a table; the occurrences that
  their ticks collect are all different.
-/
import Mathlib.Data.List.Nodup
import SigxActors.Host.ReminderTable

set_option autoImplicit false

namespace SigxActors.Host

open SigxActors.Js

/-! ## What is due -/

namespace ReminderTable

variable {t : ReminderTable} {now : Int} {i n : String} {e e' : ReminderEntry} {d : Due}

theorem entry_eq_some : t.entry i n = some e ↔
    ∃ entries, t.actors.get i = some entries ∧ entries.get n = some e :=
  Option.bind_eq_some_iff

theorem mem_dueAt : d ∈ t.dueAt now ↔
    ∃ ref e, refOf d.id = some ref ∧ t.entry d.id d.name = some e ∧ e.nextDue ≤ now ∧
      d = ⟨d.id, ref, d.name, e.tick now t.writes, e.made⟩ := by
  unfold dueAt
  rw [List.mem_flatMap]
  constructor
  · rintro ⟨⟨id, entries⟩, hq, hd⟩
    split at hd
    · rename_i ref href
      obtain ⟨⟨name, e⟩, hmem, rfl⟩ := List.mem_map.1 hd
      obtain ⟨hmem, hdue⟩ := List.mem_filter.1 hmem
      exact ⟨ref, e, href, entry_eq_some.2 ⟨entries, JsMap.get_of_mem_entries hq,
        JsMap.get_of_mem_entries hmem⟩, of_decide_eq_true hdue, rfl⟩
    · simp at hd
  · rintro ⟨ref, e, href, hentry, hdue, hd⟩
    obtain ⟨entries, hactor, hname⟩ := entry_eq_some.1 hentry
    refine ⟨(d.id, entries), JsMap.mem_entries_of_get hactor, ?_⟩
    rw [href]
    refine List.mem_map.2 ⟨(d.name, e), List.mem_filter.2 ⟨JsMap.mem_entries_of_get hname, ?_⟩,
      hd.symm⟩
    exact decide_eq_true hdue

theorem nodup_dueEntries (now : Int) (made : Nat) (id : String) (ref : ActorRef)
    (entries : JsMap String ReminderEntry) :
    ((dueEntries now made id ref entries).map Due.occurrence).Nodup := by
  have hnames : ((dueEntries now made id ref entries).map (·.name)).Nodup := by
    unfold dueEntries
    rw [List.map_map]
    exact entries.nodup.sublist (List.filter_sublist.map Prod.fst)
  refine List.Nodup.of_map (fun o : String × String × Nat => o.2.1) ?_
  rw [List.map_map]
  exact hnames

/-- A tick collects no occurrence twice. -/
theorem nodup_dueAt (t : ReminderTable) (now : Int) : ((t.dueAt now).map Due.occurrence).Nodup := by
  have hids : t.actors.entries.Pairwise fun p q => p.1 ≠ q.1 :=
    List.pairwise_map.1 t.actors.nodup
  unfold dueAt
  rw [List.map_flatMap, List.nodup_flatMap]
  refine ⟨?_, hids.imp ?_⟩
  · rintro ⟨id, entries⟩ -
    split
    · exact nodup_dueEntries _ _ _ _ _
    · exact List.nodup_nil
  · rintro ⟨id, entries⟩ ⟨id', entries'⟩ hne o ho ho'
    have hid : ∀ {k ref m},
        o ∈ List.map Due.occurrence (dueEntries now t.writes k ref m) → o.1 = k := by
      intro k ref m hk
      obtain ⟨d, hd, rfl⟩ := List.mem_map.1 hk
      obtain ⟨q, -, rfl⟩ := List.mem_map.1 hd
      rfl
    dsimp only at ho ho'
    split at ho
    · split at ho'
      · exact hne ((hid ho).symm.trans (hid ho'))
      · cases ho'
    · cases ho

/-! ## What an edit makes -/

theorem due_tick (t : ReminderTable) (now : Int) : (t.tick now).due = t.dueAt now := by
  unfold tick
  dsimp only
  split
  · rename_i hempty
    exact (List.isEmpty_iff.1 hempty).symm
  · rfl

theorem writes_tick (t : ReminderTable) (now : Int) (h : t.dueAt now ≠ []) :
    (t.tick now).table.writes = t.writes + 1 := by
  unfold tick
  dsimp only
  split
  · rename_i hempty
    exact absurd (List.isEmpty_iff.1 hempty) h
  · rfl

theorem writes_le_tick (t : ReminderTable) (now : Int) : t.writes ≤ (t.tick now).table.writes := by
  unfold tick
  dsimp only
  split
  · exact Nat.le_refl _
  · exact Nat.le_succ _

theorem writes_le_clear (t : ReminderTable) (id name : String) :
    t.writes ≤ (t.clear id name).table.writes := by
  unfold clear
  split
  · exact Nat.le_refl _
  split
  · exact Nat.le_succ _
  · exact Nat.le_refl _

/-- An entry after a tick was there and not due, or the tick has made it. -/
theorem entry_of_tick (h : (t.tick now).table.entry i n = some e') :
    (t.entry i n = some e' ∧ ∀ d ∈ (t.tick now).due, ¬ (d.id = i ∧ d.name = n)) ∨
      e'.made = t.writes ∧ (t.tick now).table.writes = t.writes + 1 := by
  rw [entry_tick] at h
  split at h
  · rename_i href
    obtain ⟨e, he, htick⟩ := Option.bind_eq_some_iff.1 h
    rw [ReminderEntry.tick] at htick
    split at htick
    · rename_i hdue
      obtain ⟨period, -, rfl⟩ := Option.map_eq_some_iff.1 htick
      refine .inr ⟨rfl, writes_tick t now ?_⟩
      obtain ⟨ref, href⟩ := Option.isSome_iff_exists.1 href
      have hmem : (⟨i, ref, n, e.tick now t.writes, e.made⟩ : Due) ∈ t.dueAt now :=
        mem_dueAt.2 ⟨ref, e, href, he, hdue, rfl⟩
      exact List.ne_nil_of_mem hmem
    · rename_i hdue
      cases htick
      refine .inl ⟨he, ?_⟩
      rintro d hd ⟨rfl, rfl⟩
      rw [due_tick] at hd
      obtain ⟨ref, e', -, he', hdue', -⟩ := mem_dueAt.1 hd
      cases he.symm.trans he'
      exact hdue hdue'
  · rename_i href
    refine .inl ⟨h, ?_⟩
    rintro d hd ⟨rfl, rfl⟩
    rw [due_tick] at hd
    obtain ⟨ref, -, hsome, -⟩ := mem_dueAt.1 hd
    rw [hsome] at href
    exact href rfl

variable {nextDue : Int}

/-- A row puts an entry of its own under its name, or nothing. -/
theorem rearmRow_eq_some {made : Nat} {row : Due} {t' : ReminderTable}
    (h : t.rearmRow nextDue made row = some t') :
    ∃ period, t' = t.put row.id row.name ⟨nextDue, period, made⟩ := by
  unfold rearmRow at h
  split at h
  · obtain ⟨-, h⟩ := guard_past h
    exact ⟨none, (Option.some.inj h).symm⟩
  · split at h
    · rename_i current _
      obtain ⟨-, h⟩ := guard_passed h
      exact ⟨current.period, (Option.some.inj h).symm⟩
    · simp at h

/-- What holds of the table, and is kept by what a row puts, holds after the rows. -/
theorem rearmRows_induct {I : ReminderTable → Bool → Prop} (nextDue : Int) (made : Nat) :
    ∀ (failed : List Due), (∀ (t : ReminderTable) (changed : Bool), ∀ row ∈ failed,
      ∀ period, I t changed → I (t.put row.id row.name ⟨nextDue, period, made⟩) true) →
    ∀ (t : ReminderTable) (changed : Bool), I t changed →
      I (rearmRows nextDue made t failed changed).1 (rearmRows nextDue made t failed changed).2 := by
  intro failed
  induction failed with
  | nil => exact fun _ t changed h => h
  | cons row failed ih =>
    intro hput t changed h
    have hrest := ih fun t changed r hr => hput t changed r (List.mem_cons_of_mem _ hr)
    unfold rearmRows
    split
    · rename_i t' hrow
      obtain ⟨period, rfl⟩ := rearmRow_eq_some hrow
      exact hrest _ _ (hput t changed row List.mem_cons_self period h)
    · exact hrest _ _ h

/-- The rows leave what they do not name. -/
theorem entry_rearm_of_not_mem {failed : List Due}
    (h : ∀ row ∈ failed, ¬ (i = row.id ∧ n = row.name)) :
    (t.rearm nextDue failed).table.entry i n = t.entry i n := by
  have hrows := rearmRows_induct (I := fun left _ => left.entry i n = t.entry i n)
    nextDue t.writes failed
    (fun left _ row hrow period hleft => (entry_put_of_ne (h row hrow)).trans hleft) t false rfl
  unfold rearm
  dsimp only
  split <;> exact hrows

theorem rearm_made {failed : List Due} (t : ReminderTable) :
    t.writes ≤ (t.rearm nextDue failed).table.writes ∧
      ∀ i n e, (t.rearm nextDue failed).table.entry i n = some e →
        t.entry i n = some e ∨
          e.made = t.writes ∧ (t.rearm nextDue failed).table.writes = t.writes + 1 := by
  have hrows := rearmRows_induct
    (I := fun left changed => left.writes = t.writes ∧
      ∀ i n e, left.entry i n = some e →
        t.entry i n = some e ∨ e.made = t.writes ∧ changed = true)
    nextDue t.writes failed ?_ t false ⟨rfl, fun _ _ _ h => .inl h⟩
  · obtain ⟨hwrites, hentry⟩ := hrows
    unfold rearm
    dsimp only
    split
    · have hnext : (rearmRows nextDue t.writes t failed false).1.written.writes = t.writes + 1 :=
        congrArg (· + 1) hwrites
      refine ⟨hnext ▸ Nat.le_succ _, ?_⟩
      intro i n e he
      rcases hentry i n e he with hold | ⟨hmade, -⟩
      · exact .inl hold
      · exact .inr ⟨hmade, hnext⟩
    · rename_i hchanged
      refine ⟨Nat.le_of_eq hwrites.symm, ?_⟩
      intro i n e he
      rcases hentry i n e he with hold | ⟨-, htrue⟩
      · exact .inl hold
      · exact absurd htrue hchanged
  · rintro left changed row - period ⟨hwrites, hleft⟩
    refine ⟨hwrites, ?_⟩
    intro i n e he
    rcases entry_of_put he with rfl | hold
    · exact .inr ⟨rfl, rfl⟩
    rcases hleft i n e hold with hold | ⟨hmade, -⟩
    · exact .inl hold
    · exact .inr ⟨hmade, rfl⟩

theorem due_rearm (t : ReminderTable) (nextDue : Int) (failed : List Due) :
    (t.rearm nextDue failed).due = [] := by
  unfold rearm
  dsimp only
  split
  · rfl
  · rfl

theorem due_clear (t : ReminderTable) (id name : String) : (t.clear id name).due = [] := by
  unfold clear
  split
  · rfl
  · split <;> rfl

end ReminderTable

section

variable {tickMs now : Int} {t : ReminderTable} {edit : Edit} {i n : String} {e : ReminderEntry}

theorem Edit.writes_le_apply (tickMs now : Int) (t : ReminderTable) (edit : Edit) :
    t.writes ≤ (edit.apply tickMs now t).table.writes := by
  cases edit with
  | set id name due period => exact Nat.le_succ _
  | clear id name => exact t.writes_le_clear id name
  | tick at_ => exact t.writes_le_tick at_
  | rearm failed => exact t.rearm_made.1

/-- An entry after an edit was there and is not collected, or the edit has made it. -/
theorem Edit.entry_of_apply (h : (edit.apply tickMs now t).table.entry i n = some e) :
    (t.entry i n = some e ∧ ∀ d ∈ (edit.apply tickMs now t).due, ¬ (d.id = i ∧ d.name = n)) ∨
      e.made = t.writes ∧ (edit.apply tickMs now t).table.writes = t.writes + 1 := by
  cases edit with
  | set id name due period =>
    rcases ReminderTable.entry_of_put h with rfl | hold
    · exact .inr ⟨rfl, rfl⟩
    · exact .inl ⟨hold, fun d hd => absurd hd List.not_mem_nil⟩
  | clear id name =>
    have hold : t.entry i n = some e := by
      have hentry := (t.entry_clear id name i n).symm.trans h
      obtain ⟨-, hentry⟩ := guard_past hentry
      exact hentry
    refine .inl ⟨hold, fun d hd => ?_⟩
    rw [show (Edit.apply tickMs now t (.clear id name)).due = [] from t.due_clear id name] at hd
    exact absurd hd List.not_mem_nil
  | tick at_ => exact ReminderTable.entry_of_tick h
  | rearm failed =>
    rcases t.rearm_made.2 i n e h with hold | hmade
    · refine .inl ⟨hold, fun d hd => ?_⟩
      rw [show (Edit.apply tickMs now t (.rearm failed)).due = [] from t.due_rearm _ _] at hd
      exact absurd hd List.not_mem_nil
    · exact .inr hmade

/-- What an edit collects is there. -/
theorem Edit.due_of_apply {d : Due} (h : d ∈ (edit.apply tickMs now t).due) :
    ∃ e, t.entry d.id d.name = some e ∧ d.made = e.made := by
  cases edit with
  | set id name due period => exact absurd h List.not_mem_nil
  | clear id name =>
    rw [show (Edit.apply tickMs now t (.clear id name)).due = [] from t.due_clear id name] at h
    exact absurd h List.not_mem_nil
  | tick at_ =>
    rw [show (Edit.apply tickMs now t (.tick at_)).due = t.dueAt at_ from t.due_tick at_] at h
    obtain ⟨ref, e, -, hentry, -, hd⟩ := ReminderTable.mem_dueAt.1 h
    exact ⟨e, hentry, by rw [hd]⟩
  | rearm failed =>
    rw [show (Edit.apply tickMs now t (.rearm failed)).due = [] from t.due_rearm _ _] at h
    exact absurd h List.not_mem_nil

theorem Edit.nodup_due (tickMs now : Int) (t : ReminderTable) (edit : Edit) :
    ((edit.apply tickMs now t).due.map Due.occurrence).Nodup := by
  cases edit with
  | set id name due period => exact List.nodup_nil
  | clear id name =>
    rw [show (Edit.apply tickMs now t (.clear id name)).due = [] from t.due_clear id name]
    exact List.nodup_nil
  | tick at_ =>
    rw [show (Edit.apply tickMs now t (.tick at_)).due = t.dueAt at_ from t.due_tick at_]
    exact t.nodup_dueAt at_
  | rearm failed =>
    rw [show (Edit.apply tickMs now t (.rearm failed)).due = [] from t.due_rearm _ _]
    exact List.nodup_nil

end

/-! ## Commits -/

/-- An edit the store has taken, and the clock it ran at. -/
structure Commit where
  edit : Edit
  now : Int
  deriving DecidableEq, Repr

/-- The table that the commits make, and what their ticks have collected. -/
structure Replay where
  table : ReminderTable := {}
  collected : List (String × String × Nat) := []

namespace Replay

def commit (tickMs : Int) (r : Replay) (c : Commit) : Replay :=
  let edited := c.edit.apply tickMs c.now r.table
  ⟨edited.table, r.collected ++ edited.due.map Due.occurrence⟩

/-- An occurrence is of an entry that is there, or has been collected once, or is gone. -/
structure Ok (r : Replay) : Prop where
  made : ∀ i n e, r.table.entry i n = some e → e.made < r.table.writes
  fresh : ∀ i n e, r.table.entry i n = some e → (i, n, e.made) ∉ r.collected
  old : ∀ o ∈ r.collected, o.2.2 < r.table.writes
  once : r.collected.Nodup

theorem Ok.commit {r : Replay} (h : r.Ok) (tickMs : Int) (c : Commit) : (r.commit tickMs c).Ok := by
  have hle := c.edit.writes_le_apply tickMs c.now r.table
  -- A collected occurrence was of an entry of the table before.
  have hdue : ∀ d ∈ (c.edit.apply tickMs c.now r.table).due,
      d.made < r.table.writes ∧ d.occurrence ∉ r.collected := by
    intro d hd
    obtain ⟨e, he, hmade⟩ := Edit.due_of_apply hd
    refine ⟨hmade ▸ h.made _ _ e he, ?_⟩
    rw [Due.occurrence, hmade]
    exact h.fresh _ _ e he
  have hold : ∀ o ∈ (r.commit tickMs c).collected, o.2.2 < r.table.writes := by
    intro o ho
    rcases List.mem_append.1 ho with ho | ho
    · exact h.old o ho
    · obtain ⟨d, hd, rfl⟩ := List.mem_map.1 ho
      exact (hdue d hd).1
  constructor
  case made =>
    intro i n e he
    rcases Edit.entry_of_apply he with ⟨hentry, -⟩ | ⟨hmade, hwrites⟩
    · exact Nat.lt_of_lt_of_le (h.made i n e hentry) hle
    · rw [hmade]
      exact hwrites ▸ Nat.lt_succ_self _
  case fresh =>
    intro i n e he hmem
    rcases Edit.entry_of_apply he with ⟨hentry, hnot⟩ | ⟨hmade, -⟩
    · rcases List.mem_append.1 hmem with hmem | hmem
      · exact h.fresh i n e hentry hmem
      obtain ⟨d, hd, hocc⟩ := List.mem_map.1 hmem
      obtain ⟨hid, hrest⟩ := Prod.mk.inj hocc
      exact hnot d hd ⟨hid, (Prod.mk.inj hrest).1⟩
    · exact absurd (hold _ hmem) (by rw [hmade]; exact Nat.lt_irrefl _)
  case old =>
    intro o ho
    exact Nat.lt_of_lt_of_le (hold o ho) hle
  case once =>
    refine List.nodup_append.2 ⟨h.once, c.edit.nodup_due tickMs c.now r.table, ?_⟩
    rintro o ho _ ho' rfl
    obtain ⟨d, hd, rfl⟩ := List.mem_map.1 ho'
    exact (hdue d hd).2 ho

end Replay

def replay (tickMs : Int) (commits : List Commit) : Replay :=
  commits.foldl (Replay.commit tickMs) {}

theorem replay_append (tickMs : Int) (commits : List Commit) (c : Commit) :
    replay tickMs (commits ++ [c]) = (replay tickMs commits).commit tickMs c := by
  rw [replay, List.foldl_append]
  rfl

/-- What holds of a replay, and is kept by each commit that follows, holds after them. -/
theorem foldl_commit_induct {I : Replay → Prop} {P : Commit → Prop} (tickMs : Int)
    (hcommit : ∀ r c, P c → I r → I (r.commit tickMs c)) :
    ∀ (commits : List Commit) (r : Replay), (∀ c ∈ commits, P c) → I r →
      I (commits.foldl (Replay.commit tickMs) r) := by
  intro commits
  induction commits with
  | nil => exact fun r _ h => h
  | cons c commits ih =>
    intro r hall h
    have hnext := hcommit r c (hall c List.mem_cons_self) h
    exact ih _ (fun c hc => hall c (List.mem_cons_of_mem _ hc)) hnext

/-- No occurrence is collected twice. -/
theorem replay_ok (tickMs : Int) (commits : List Commit) : (replay tickMs commits).Ok := by
  refine foldl_commit_induct (P := fun _ => True) tickMs (fun r c _ h => h.commit tickMs c) commits
    {} (fun _ _ => trivial) ?_
  constructor
  case made => exact fun i n e he => by simp [ReminderTable.entry] at he
  case fresh => exact fun i n e he => by simp [ReminderTable.entry] at he
  case old => exact fun o ho => absurd ho List.not_mem_nil
  case once => exact List.nodup_nil

/-! ## No edit is lost -/

/-- The edit may change or remove an entry that is due then. -/
def Edit.Touches (id name : String) (nextDue : Int) : Edit → Prop
  | .set id' name' _ _ => id = id' ∧ name = name'
  | .clear id' name' => id = id' ∧ name = name'
  | .tick now => nextDue ≤ now
  | .rearm failed => ∃ row ∈ failed, id = row.id ∧ name = row.name

/-- The edit may put the reminder into the table. -/
def Edit.Puts (id name : String) : Edit → Prop
  | .set id' name' _ _ => id = id' ∧ name = name'
  | .clear _ _ => False
  | .tick _ => False
  | .rearm failed => ∃ row ∈ failed, id = row.id ∧ name = row.name

section

variable {tickMs now : Int} {t : ReminderTable} {edit : Edit} {i n : String} {e : ReminderEntry}

/-- An entry that an edit does not touch stays as it is. -/
theorem Edit.entry_of_not_touches (h : t.entry i n = some e) (hnot : ¬ edit.Touches i n e.nextDue) :
    (edit.apply tickMs now t).table.entry i n = some e := by
  cases edit with
  | set id name due period => exact (ReminderTable.entry_put_of_ne hnot).trans h
  | clear id name => exact ((t.entry_clear id name i n).trans (if_neg hnot)).trans h
  | tick at_ =>
    refine (t.entry_tick at_ i n).trans ?_
    split
    · have hlater : ¬ e.nextDue ≤ at_ := hnot
      rw [h, Option.bind_some, ReminderEntry.tick, if_neg hlater]
    · exact h
  | rearm failed =>
    refine (ReminderTable.entry_rearm_of_not_mem ?_).trans h
    intro row hrow hand
    exact hnot ⟨row, hrow, hand⟩

/-- A reminder that is not there, and that an edit does not put there, is not there after. -/
theorem Edit.entry_of_not_puts (h : t.entry i n = none) (hnot : ¬ edit.Puts i n) :
    (edit.apply tickMs now t).table.entry i n = none := by
  cases edit with
  | set id name due period => exact (ReminderTable.entry_put_of_ne hnot).trans h
  | clear id name =>
    refine (t.entry_clear id name i n).trans ?_
    split
    · rfl
    · exact h
  | tick at_ =>
    refine (t.entry_tick at_ i n).trans ?_
    split
    · rw [h]
      rfl
    · exact h
  | rearm failed =>
    refine (ReminderTable.entry_rearm_of_not_mem ?_).trans h
    intro row hrow hand
    exact hnot ⟨row, hrow, hand⟩

end

theorem replay_eq_foldl (tickMs : Int) (before after : List Commit) (c : Commit) :
    replay tickMs (before ++ c :: after) =
      after.foldl (Replay.commit tickMs) ((replay tickMs before).commit tickMs c) := by
  rw [replay, List.foldl_append, List.foldl_cons]
  rfl

variable {now : Int} {tickMs : Int}

/-- What a `set` has put there stays until another edit touches it. -/
theorem entry_of_set {due : Int} {id name : String} {period : Option Int}
    {before after : List Commit} (hname : name ≠ "__proto__")
    (hafter : ∀ c ∈ after, ¬ c.edit.Touches id name (now + due)) :
    ∃ e, (replay tickMs (before ++ ⟨.set id name due period, now⟩ :: after)).table.entry id name =
      some e ∧ e.nextDue = now + due ∧ e.period = period := by
  rw [replay_eq_foldl]
  refine foldl_commit_induct
    (I := fun r => ∃ e, r.table.entry id name = some e ∧ e.nextDue = now + due ∧ e.period = period)
    tickMs ?_ after _ hafter ?_
  · rintro r c hnot ⟨e, he, hdue, hperiod⟩
    exact ⟨e, Edit.entry_of_not_touches he (hdue ▸ hnot), hdue, hperiod⟩
  · exact ⟨_, (ReminderTable.entry_put _ id hname id name _).trans (if_pos ⟨rfl, rfl⟩), rfl, rfl⟩

/-- What a `clear` has removed stays away until another edit puts it there. -/
theorem entry_of_clear {id name : String} {before after : List Commit}
    (hafter : ∀ c ∈ after, ¬ c.edit.Puts id name) :
    (replay tickMs (before ++ ⟨.clear id name, now⟩ :: after)).table.entry id name = none := by
  rw [replay_eq_foldl]
  refine foldl_commit_induct (I := fun r => r.table.entry id name = none) tickMs
    (fun r c hnot h => Edit.entry_of_not_puts h hnot) after _ hafter ?_
  exact (ReminderTable.entry_clear _ id name id name).trans (if_pos ⟨rfl, rfl⟩)

/-! ## An edit that changes nothing -/

/-- No actor is without entries, and no entry has the one name that cannot be a key. -/
def ReminderTable.Sound (t : ReminderTable) : Prop :=
  ∀ id entries, t.actors.get id = some entries → entries.keys ≠ [] ∧ "__proto__" ∉ entries.keys

/-- The edit puts nothing under that name. -/
def Edit.Proper : Edit → Prop
  | .set _ name _ _ => name ≠ "__proto__"
  | .rearm failed => ∀ row ∈ failed, row.name ≠ "__proto__"
  | _ => True

namespace ReminderTable

variable {t : ReminderTable} {id name : String} {e : ReminderEntry}

theorem sound_put (h : t.Sound) (hname : name ≠ "__proto__") : (t.put id name e).Sound := by
  intro i entries hget
  unfold put at hget
  rw [JsMap.get_set] at hget
  split at hget
  · cases hget
    rw [JsMap.assign, if_neg hname]
    constructor
    · intro hkeys
      have hnone := JsMap.get_of_keys_eq_nil hkeys name
      simp at hnone
    · rw [JsMap.mem_keys_iff, JsMap.get_set, if_neg (Ne.symm hname)]
      cases hold : t.actors.get id with
      | none => simp
      | some old =>
        rw [Option.getD_some, ← JsMap.mem_keys_iff]
        exact (h id old hold).2
  · exact h i entries hget

theorem sound_clear (h : t.Sound) (id name : String) : (t.clear id name).table.Sound := by
  unfold clear
  split
  · exact h
  rename_i entries hget
  split
  · intro i left hleft
    dsimp only [written] at hleft
    split at hleft
    · rw [JsMap.get_erase] at hleft
      obtain ⟨-, hleft⟩ := guard_past hleft
      exact h i left hleft
    · rename_i hkeys
      rw [JsMap.get_set] at hleft
      split at hleft
      · cases hleft
        refine ⟨hkeys, ?_⟩
        have hproto := (h id entries hget).2
        rw [JsMap.mem_keys_iff] at hproto ⊢
        rw [JsMap.get_erase]
        split
        · simp
        · exact hproto
      · exact h i left hleft
  · exact h

theorem sound_tick (h : t.Sound) (now : Int) : (t.tick now).table.Sound := by
  intro i left hleft
  rw [tick_actors, tickActors, JsMap.get_filter, JsMap.get_mapValues] at hleft
  cases hget : t.actors.get i with
  | none =>
    rw [hget] at hleft
    simp at hleft
  | some entries =>
    have hold := h i entries hget
    rw [hget, Option.map_some] at hleft
    cases href : (refOf i).isSome with
    | false =>
      rw [href] at hleft
      obtain rfl : entries = left := by simpa [Option.filter_some] using hleft
      exact hold
    | true =>
      rw [href] at hleft
      simp only [if_true, Option.filter_some, Bool.not_true, Bool.false_or] at hleft
      obtain ⟨hkeep, rfl⟩ := guard_taken hleft
      constructor
      · intro hkeys
        simp [hkeys] at hkeep
      · have hproto := hold.2
        rw [JsMap.mem_keys_iff, Option.not_isSome_iff_eq_none] at hproto
        rw [JsMap.mem_keys_iff, get_tickEntries, hproto]
        simp

theorem sound_rearm (h : t.Sound) {nextDue : Int} {failed : List Due}
    (hnames : ∀ row ∈ failed, row.name ≠ "__proto__") : (t.rearm nextDue failed).table.Sound := by
  have hrows := rearmRows_induct (I := fun left _ => left.Sound) nextDue t.writes failed
    (fun left _ row hrow period hleft => sound_put hleft (hnames row hrow)) t false h
  unfold rearm
  dsimp only
  split <;> exact hrows

end ReminderTable

theorem Edit.sound_apply {t : ReminderTable} {edit : Edit} (h : t.Sound)
    (hproper : edit.Proper) : (edit.apply tickMs now t).table.Sound := by
  cases edit with
  | set id name due period => exact ReminderTable.sound_put h hproper
  | clear id name => exact ReminderTable.sound_clear h id name
  | tick at_ => exact ReminderTable.sound_tick h at_
  | rearm failed => exact ReminderTable.sound_rearm h hproper

theorem sound_replay (tickMs : Int) {commits : List Commit}
    (hproper : ∀ c ∈ commits, c.edit.Proper) : (replay tickMs commits).table.Sound := by
  refine foldl_commit_induct (I := fun r => r.table.Sound) tickMs
    (fun r c hc h => Edit.sound_apply h hc) commits {} hproper ?_
  intro i entries hget
  simp at hget

namespace ReminderTable

theorem tickActors_of_no_due {t : ReminderTable} (h : t.Sound)
    (hdue : t.dueAt now = []) : t.tickActors now = t.actors := by
  have hsame : (t.actors.mapValues fun id entries =>
      if (refOf id).isSome then tickEntries now t.writes entries else entries) = t.actors := by
    refine JsMap.mapValues_eq_self fun q hq => ?_
    split
    · rename_i href
      obtain ⟨ref, href⟩ := Option.isSome_iff_exists.1 href
      -- An entry that was due would be among what is collected.
      have hlater : ∀ p ∈ q.2.entries, p.2.tick now t.writes = some p.2 := by
        intro p hp
        refine if_neg fun hle => ?_
        have hmem : (⟨q.1, ref, p.1, p.2.tick now t.writes, p.2.made⟩ : Due) ∈ t.dueAt now :=
          mem_dueAt.2 ⟨ref, p.2, href, entry_eq_some.2 ⟨q.2, JsMap.get_of_mem_entries hq,
            JsMap.get_of_mem_entries hp⟩, hle, rfl⟩
        rw [hdue] at hmem
        exact absurd hmem List.not_mem_nil
      have hfilter : (q.2.filter fun _ e => (e.tick now t.writes).isSome) = q.2 :=
        JsMap.filter_eq_self fun p hp => by rw [hlater p hp]; rfl
      rw [tickEntries, hfilter]
      exact JsMap.mapValues_eq_self fun p hp => by rw [hlater p hp]; rfl
    · rfl
  rw [tickActors, hsame]
  refine JsMap.filter_eq_self fun q hq => ?_
  have hkeys := (h q.1 q.2 (JsMap.get_of_mem_entries hq)).1
  cases hq' : q.2.keys with
  | nil => exact absurd hq' hkeys
  | cons k rest => simp

end ReminderTable

/-- An edit that says it has changed nothing has not. -/
theorem Edit.apply_unchanged {t : ReminderTable} {edit : Edit} (h : t.Sound)
    (hchanged : (edit.apply tickMs now t).changed = false) :
    (edit.apply tickMs now t).table = t := by
  cases edit with
  | set id name due period => exact absurd hchanged (by simp [Edit.apply, ReminderTable.set])
  | clear id name =>
    simp only [Edit.apply, ReminderTable.clear] at hchanged ⊢
    split at hchanged
    · rfl
    split at hchanged
    · simp at hchanged
    · rename_i hhas
      rw [if_neg hhas]
  | tick at_ =>
    simp only [Edit.apply, ReminderTable.tick] at hchanged ⊢
    split at hchanged
    · rename_i hempty
      rw [if_pos hempty]
      rw [ReminderTable.tickActors_of_no_due h (List.isEmpty_iff.1 hempty)]
    · simp at hchanged
  | rearm failed =>
    have hrows := ReminderTable.rearmRows_induct
      (I := fun left changed => changed = false → left = t) (now + tickMs) t.writes failed
      (fun left changed row hrow period hleft htrue => by simp at htrue)
      t false (fun _ => rfl)
    simp only [Edit.apply, ReminderTable.rearm] at hchanged ⊢
    split at hchanged
    · simp at hchanged
    rename_i hfalse
    rw [if_neg hfalse]
    exact hrows (Bool.eq_false_iff.2 hfalse)

end SigxActors.Host
