/-
  Host/ReminderTable.lean --- a shard of the reminder table, and the edits to it.

  Source: `packages/actors/src/host/reminders.ts` (`apiFor`, `#tickShard`, `#rearm`).

  An edit runs on the object that was loaded or is cached, says whether it has changed it,
  and is stored if it has.  Times are whole milliseconds.  The order in which an object
  lists its keys is not modelled, nor what the prototype answers for once something was
  assigned under `__proto__`.

  The writes of a table, and the one that made an entry, are history that no edit reads.
-/
import SigxActors.Host.TaskRoster

set_option autoImplicit false

namespace SigxActors.Host

open SigxActors.Js

/-- `MIN_PERIOD_MS`. -/
def minPeriodMs : Int := 60000

structure ReminderEntry where
  nextDue : Int
  period : Option Int
  /-- The write that made it. -/
  made : Nat
  deriving DecidableEq, Repr

/-- A due entry the tick collected: `advanced` is what it wrote for it, none for a deleted
one-shot. -/
structure Due where
  id : String
  ref : ActorRef
  name : String
  advanced : Option ReminderEntry
  /-- The write that made the occurrence. -/
  made : Nat
  deriving DecidableEq, Repr

/-- What tells an occurrence from every other of its shard. -/
def Due.occurrence (d : Due) : String × String × Nat := (d.id, d.name, d.made)

structure ReminderTable where
  actors : JsMap String (JsMap String ReminderEntry) := .empty
  /-- How many edits have changed it. -/
  writes : Nat := 0

/-- What an edit leaves, and whether it has changed anything. -/
structure Edited where
  table : ReminderTable
  changed : Bool
  due : List Due := []

namespace ReminderTable

/-- `table[id]?.[name]`, of the own keys. -/
def entry (t : ReminderTable) (id name : String) : Option ReminderEntry :=
  (t.actors.get id).bind fun entries => entries.get name

/-- `(table[id] ??= {})[name] = entry`. -/
def put (t : ReminderTable) (id name : String) (entry : ReminderEntry) : ReminderTable :=
  { t with actors := t.actors.set id (((t.actors.get id).getD .empty).assign name entry) }

/-- The table has been changed once more. -/
def written (t : ReminderTable) : ReminderTable := { t with writes := t.writes + 1 }

/-- The edit of `set`. -/
def set (t : ReminderTable) (id name : String) (nextDue : Int) (period : Option Int) : Edited :=
  ⟨(t.put id name ⟨nextDue, period, t.writes⟩).written, true, []⟩

/-- The edit of `clear`. -/
def clear (t : ReminderTable) (id name : String) : Edited :=
  match t.actors.get id with
  | none => ⟨t, false, []⟩
  | some entries =>
      if entries.has name then
        let left := entries.erase name
        let actors := if left.keys = [] then t.actors.erase id else t.actors.set id left
        ⟨{ t with actors := actors }.written, true, []⟩
      else ⟨t, false, []⟩

end ReminderTable

/-! ## The tick -/

/-- What the tick leaves of an entry. -/
def ReminderEntry.tick (now : Int) (made : Nat) (e : ReminderEntry) : Option ReminderEntry :=
  if e.nextDue ≤ now then
    e.period.map fun period =>
      let next := e.nextDue + period
      ⟨if next ≤ now then now + period else next, some period, made⟩
  else some e

/-- The entries of one actor, after the tick. -/
def tickEntries (now : Int) (made : Nat) (entries : JsMap String ReminderEntry) :
    JsMap String ReminderEntry :=
  (entries.filter fun _ e => (e.tick now made).isSome).mapValues fun _ e =>
    (e.tick now made).getD e

/-- What the tick collects of one actor. -/
def dueEntries (now : Int) (made : Nat) (id : String) (ref : ActorRef)
    (entries : JsMap String ReminderEntry) : List Due :=
  (entries.entries.filter fun q => q.2.nextDue ≤ now).map fun q =>
    ⟨id, ref, q.1, q.2.tick now made, q.2.made⟩

namespace ReminderTable

/-- What the tick collects; an id that is not one is skipped. -/
def dueAt (t : ReminderTable) (now : Int) : List Due :=
  t.actors.entries.flatMap fun q =>
    match refOf q.1 with
    | some ref => dueEntries now t.writes q.1 ref q.2
    | none => []

/-- What the scan leaves: an actor that has nothing left is deleted, whether or not
anything was due. -/
def tickActors (t : ReminderTable) (now : Int) : JsMap String (JsMap String ReminderEntry) :=
  (t.actors.mapValues fun id entries =>
    if (refOf id).isSome then tickEntries now t.writes entries else entries).filter
    fun id entries => !(refOf id).isSome || !entries.keys.isEmpty

/-- The edit of `#tickShard`. -/
def tick (t : ReminderTable) (now : Int) : Edited :=
  let due := t.dueAt now
  let left : ReminderTable := { t with actors := t.tickActors now }
  if due.isEmpty then ⟨left, false, []⟩ else ⟨left.written, true, due⟩

/-! ## The re-arming -/

/-- One pass of the loop of `#rearm`; none where it goes on to the next. -/
def rearmRow (nextDue : Int) (made : Nat) (t : ReminderTable) (row : Due) : Option ReminderTable :=
  match row.advanced with
  | none =>
      -- `current !== undefined`, of an object that is there: also what it inherits.
      if ((t.actors.get row.id).map fun entries => entries.inObject row.name).getD false then none
      else some (t.put row.id row.name ⟨nextDue, none, made⟩)
  | some advanced =>
      match t.entry row.id row.name with
      | some current =>
          if current.nextDue = advanced.nextDue ∧ current.period = advanced.period ∧
              nextDue < current.nextDue then
            some (t.put row.id row.name ⟨nextDue, current.period, made⟩)
          else none
      | none => none

/-- The loop of `#rearm`. -/
def rearmRows (nextDue : Int) (made : Nat) : ReminderTable → List Due → Bool → ReminderTable × Bool
  | t, [], changed => (t, changed)
  | t, row :: failed, changed =>
      match t.rearmRow nextDue made row with
      | some t' => rearmRows nextDue made t' failed true
      | none => rearmRows nextDue made t failed changed

/-- The edit of `#rearm`. -/
def rearm (t : ReminderTable) (nextDue : Int) (failed : List Due) : Edited :=
  let rearmed := rearmRows nextDue t.writes t failed false
  if rearmed.2 then ⟨rearmed.1.written, true, []⟩ else ⟨rearmed.1, false, []⟩

end ReminderTable

/-! ## Edits -/

/-- What the calls of `#mutate` hand it.  The tick has read the clock before it queues;
the others read it when they run. -/
inductive Edit where
  | set (id name : String) (due : Int) (period : Option Int)
  | clear (id name : String)
  | tick (now : Int)
  | rearm (failed : List Due)
  deriving DecidableEq, Repr

/-- `fresh`: the tick starts from the store. -/
def Edit.fresh : Edit → Bool
  | .tick _ => true
  | _ => false

def Edit.apply (tickMs now : Int) (t : ReminderTable) : Edit → Edited
  | .set id name due period => t.set id name (now + due) period
  | .clear id name => t.clear id name
  | .tick at_ => t.tick at_
  | .rearm failed => t.rearm (now + tickMs) failed

/-! ## What an edit leaves under a name -/

namespace ReminderTable

variable {t : ReminderTable} {id name i n : String} {e e' : ReminderEntry}

@[simp] theorem entry_written (t : ReminderTable) (i n : String) :
    t.written.entry i n = t.entry i n := rfl

theorem entry_put (t : ReminderTable) (id : String) (h : name ≠ "__proto__") (i n : String)
    (e : ReminderEntry) :
    (t.put id name e).entry i n = if i = id ∧ n = name then some e else t.entry i n := by
  unfold entry put
  rw [JsMap.get_set]
  by_cases hi : i = id
  · subst hi
    rw [if_pos rfl, Option.bind_some, JsMap.get_assign _ _ h]
    by_cases hn : n = name
    · rw [if_pos hn, if_pos ⟨rfl, hn⟩]
    · rw [if_neg hn, if_neg fun hand => hn hand.2]
      cases t.actors.get i with
      | none | some => rfl
  · rw [if_neg hi, if_neg fun hand => hi hand.1]

theorem entry_put_proto (t : ReminderTable) (id i n : String) (e : ReminderEntry) :
    (t.put id "__proto__" e).entry i n = t.entry i n := by
  unfold entry put
  rw [JsMap.get_set]
  split
  · rename_i hi
    subst hi
    cases t.actors.get i with
    | none | some => rfl
  · rfl

theorem entry_put_of_ne (h : ¬ (i = id ∧ n = name)) :
    (t.put id name e).entry i n = t.entry i n := by
  by_cases hname : name = "__proto__"
  · subst hname
    exact entry_put_proto t id i n e
  · rw [entry_put t id hname i n e, if_neg h]

/-- What is there after a `put` is what was put, or was there. -/
theorem entry_of_put (h : (t.put id name e).entry i n = some e') :
    e' = e ∨ t.entry i n = some e' := by
  by_cases hname : name = "__proto__"
  · subst hname
    exact .inr ((entry_put_proto t id i n e).symm.trans h)
  · rw [entry_put t id hname i n e] at h
    split at h
    · exact .inl (Option.some.inj h).symm
    · exact .inr h

theorem entry_clear (t : ReminderTable) (id name i n : String) :
    (t.clear id name).table.entry i n = if i = id ∧ n = name then none else t.entry i n := by
  unfold clear
  split
  · rename_i hget
    split
    · rename_i hand
      obtain ⟨rfl, rfl⟩ := hand
      rw [entry, hget]
      rfl
    · rfl
  · rename_i entries hget
    split
    · rw [entry_written]
      by_cases hi : i = id
      · subst hi
        have hold : t.entry i n = entries.get n := by
          rw [entry, hget]
          rfl
        simp only [true_and]
        rw [hold, ← JsMap.get_erase entries name n]
        split
        · rename_i hempty
          rw [JsMap.get_of_keys_eq_nil hempty, entry, JsMap.get_erase_self]
          rfl
        · rw [entry, JsMap.get_set_self]
          rfl
      · rw [if_neg fun hand : i = id ∧ n = name => hi hand.1]
        split
        · rw [entry, JsMap.get_erase, if_neg hi]
          rfl
        · rw [entry, JsMap.get_set, if_neg hi]
          rfl
    · rename_i hnot
      split
      · rename_i hand
        obtain ⟨rfl, rfl⟩ := hand
        have hnone : entries.get n = none :=
          Option.not_isSome_iff_eq_none.1 (by simpa [JsMap.has] using hnot)
        rw [entry, hget]
        exact hnone
      · rfl

theorem get_tickEntries (now : Int) (made : Nat) (entries : JsMap String ReminderEntry)
    (n : String) : (tickEntries now made entries).get n = (entries.get n).bind (·.tick now made) := by
  rw [tickEntries, JsMap.get_mapValues, JsMap.get_filter]
  cases entries.get n with
  | none => rfl
  | some e =>
    rw [Option.bind_some]
    cases htick : e.tick now made with
    | none =>
      rw [Option.filter_some_neg]
      · rfl
      · simp [htick]
    | some left =>
      rw [Option.filter_some_pos]
      · rw [Option.map_some, htick]
        rfl
      · simp [htick]

theorem tick_actors (t : ReminderTable) (now : Int) :
    (t.tick now).table.actors = t.tickActors now := by
  unfold tick
  dsimp only
  split
  · rfl
  · rfl

/-- An actor without entries answers like one that is not there. -/
theorem bind_get_filter (keep : Bool) (entries : JsMap String ReminderEntry) (n : String) :
    ((some entries).filter fun entries => keep || !entries.keys.isEmpty).bind
      (fun entries => entries.get n) = entries.get n := by
  rw [Option.filter_some]
  split
  · rfl
  rename_i hdrop
  refine (JsMap.get_of_keys_eq_nil ?_ n).symm
  cases hkeys : entries.keys with
  | nil => rfl
  | cons k rest => simp [hkeys] at hdrop

/-- The tick works on each entry for itself. -/
theorem entry_tick (t : ReminderTable) (now : Int) (i n : String) : (t.tick now).table.entry i n =
      if (refOf i).isSome then (t.entry i n).bind (·.tick now t.writes) else t.entry i n := by
  unfold entry
  rw [tick_actors, tickActors, JsMap.get_filter, JsMap.get_mapValues]
  cases t.actors.get i with
  | none =>
    split <;> rfl
  | some entries =>
    rw [Option.map_some, Option.bind_some, bind_get_filter]
    split
    · exact get_tickEntries now t.writes entries n
    · rfl

end ReminderTable

end SigxActors.Host
