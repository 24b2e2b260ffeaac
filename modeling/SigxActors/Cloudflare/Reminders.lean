/-
  Cloudflare/Reminders.lean --- the reminders of a Durable Object.

  Source: `packages/actors-cloudflare/src/reminders.ts`.

  A gated block runs alone, so each is one step.  The platform consumes the alarm, runs one
  handler at a time, and the host is bound before it does.  Storage and alarm writes
  succeed.  Every block reads the clock for itself, and nothing is assumed of the clock;
  times are whole milliseconds.

  The names are the own keys of an object literal.  The order in which an object lists them
  is not modelled: the deliveries of one alarm come in any order.

  What each name is last asked for, and which occurrences were delivered, is history that no
  block reads; an occurrence is a name and the write that made its entry.
-/
import SigxActors.Machine.Transition
import SigxActors.Js.Object
import SigxActors.Types

set_option autoImplicit false

namespace SigxActors.Cloudflare

open SigxActors.Js

/-- `MIN_PERIOD_MS`. -/
def minPeriodMs : Int := 60000

structure Entry where
  nextDue : Int
  period : Option Int
  /-- The write that made it. -/
  made : Nat
  deriving DecidableEq, Repr

/-- A due entry the alarm collected: `advanced` is what it wrote for it, none for a deleted
one-shot. -/
structure Due where
  name : String
  advanced : Option Entry
  /-- The write that made the occurrence. -/
  made : Nat
  /-- The reminder has been set or cleared since. -/
  touched : Bool := false
  deriving DecidableEq, Repr

/-- Where `onAlarm` is. -/
inductive Handling where
  | idle
  /-- The alarm is consumed, and the first block has yet to run. -/
  | started
  | delivering (ref : Option ActorRef) (due failed : List Due)

/-- What an alarm has collected, delivered or not. -/
def Handling.collected : Handling → List Due
  | .delivering _ due failed => due ++ failed
  | _ => []

/-- A reminder is set or cleared while it may be delivered. -/
def Handling.touch (name : String) : Handling → Handling
  | .delivering ref due failed =>
      let mark := fun d : Due => if d.name = name then { d with touched := true } else d
      .delivering ref (due.map mark) (failed.map mark)
  | handling => handling

structure DurableReminders where
  owner : Option ActorRef := none
  entries : JsMap String Entry := .empty
  alarm : Option Int := none
  handling : Handling := .idle
  /-- How many writes there have been. -/
  writes : Nat := 0
  /-- What each name was last set to, until it fires or is cleared. -/
  wanted : String → Option Entry := fun _ => none
  delivered : List (String × Nat) := []

namespace DurableReminders

/-- `Math.min(...due)`. -/
def earliest (entries : JsMap String Entry) : Option Int :=
  (entries.entries.map fun q => q.2.nextDue).min?

/-- `rearm(table)`, of a write. -/
def rearm (s : DurableReminders) : DurableReminders :=
  match earliest s.entries with
  | none => { s with alarm := none }
  | some first =>
      match s.alarm with
      | none => { s with alarm := some first }
      | some current => if first < current then { s with alarm := some first } else s

/-- `rearm(table, true)`, of a handler. -/
def rearmConsumed (s : DurableReminders) : DurableReminders :=
  match earliest s.entries with
  | none => s
  | some first => { s with alarm := some first }

/-- `claim`: the table is of one actor. -/
def claims (s : DurableReminders) (ref : ActorRef) : Bool :=
  match s.owner with
  | some owner => decide (owner = ref)
  | none => true

/-- `set`. -/
def set (s : DurableReminders) (ref : ActorRef) (name : String) (due : Int) (period : Option Int)
    (at_ : Int) : DurableReminders :=
  if (∃ ms ∈ period, ms < minPeriodMs) ∨ s.claims ref = false then s
  else
    let entry : Entry := ⟨at_ + due, period, s.writes⟩
    let written :=
      { s with
        owner := some ref
        entries := s.entries.assign name entry
        handling := s.handling.touch name
        writes := s.writes + 1
        wanted := fun n => if n = name then some entry else s.wanted n }
    written.rearm

/-- `clear`. -/
def clear (s : DurableReminders) (ref : ActorRef) (name : String) : DurableReminders :=
  if s.claims ref = false then s
  else
    let cleared :=
      { s with
        handling := s.handling.touch name
        wanted := fun n => if n = name then none else s.wanted n }
    if s.entries.inObject name = false then cleared
    else { cleared with owner := some ref, entries := s.entries.erase name }.rearm

/-! ### `onAlarm` -/

/-- The platform consumes the alarm. -/
def fire (s : DurableReminders) : Option DurableReminders :=
  match s.handling, s.alarm with
  | .idle, some _ => some { s with alarm := none, handling := .started }
  | _, _ => none

/-- What the alarm writes for a periodic entry. -/
def advance (at_ : Int) (made : Nat) (e : Entry) (period : Int) : Entry :=
  let next := e.nextDue + period
  ⟨if next ≤ at_ then at_ + period else next, some period, made⟩

/-- The first block takes what is due and persists the advance. -/
def collect (s : DurableReminders) (at_ : Int) : Option DurableReminders :=
  match s.handling with
  | .started =>
      let ready := s.entries.entries.filter fun q => q.2.nextDue ≤ at_
      let due := ready.map fun q =>
        { name := q.1, advanced := q.2.period.map (advance at_ s.writes q.2), made := q.2.made }
      -- one-shots go, and the periodic entries advance
      let kept := s.entries.filter fun _ e => decide (at_ < e.nextDue ∨ e.period.isSome = true)
      let entries := kept.mapValues fun _ e =>
        match e.period with
        | some period => if e.nextDue ≤ at_ then advance at_ s.writes e period else e
        | none => e
      some { s with
        entries := entries
        handling := .delivering s.owner due []
        writes := s.writes + 1
        wanted := fun n =>
          if (s.entries.get n).any fun e => e.nextDue ≤ at_ then none else s.wanted n }
  | _ => none

/-- One delivery has settled. -/
def deliver (s : DurableReminders) (i : Nat) (ok : Bool) : Option DurableReminders :=
  match s.handling with
  | .delivering (some ref) due failed =>
      match due[i]? with
      | some d =>
          some { s with
            handling :=
              .delivering (some ref) (due.eraseIdx i) (if ok then failed else failed ++ [d])
            delivered := s.delivered ++ [(d.name, d.made)] }
      | none => none
  | _ => none

/-- One pass of the loop of `retry`. -/
def retryRow (nextDue : Int) (made : Nat) (entries : JsMap String Entry) (d : Due) :
    JsMap String Entry :=
  match d.advanced with
  | none =>
      if entries.inObject d.name then entries else entries.assign d.name ⟨nextDue, none, made⟩
  | some advanced =>
      match entries.get d.name with
      | some current =>
          if current.nextDue = advanced.nextDue ∧ current.period = advanced.period ∧
              nextDue < current.nextDue then
            entries.set d.name { current with nextDue := nextDue, made := made }
          else entries
      | none => entries

/-- The last block re-reads the table, puts the failures back and re-arms. -/
def finish (s : DurableReminders) (tickMs at_ : Int) : Option DurableReminders :=
  match s.handling with
  | .delivering ref due failed =>
      if ref = none ∨ due = [] then
        let retried :=
          { s with
            entries := failed.foldl (retryRow (at_ + tickMs) s.writes) s.entries
            handling := .idle
            writes := s.writes + 1 }
        some retried.rearmConsumed
      else none
  | _ => none

end DurableReminders

inductive ReminderLabel where
  | set (ref : ActorRef) (name : String) (due : Int) (period : Option Int) (at_ : Int)
  | clear (ref : ActorRef) (name : String)
  | fire
  | collect (at_ : Int)
  | deliver (i : Nat) (ok : Bool)
  | finish (at_ : Int)

/-- The reminders of one object, from an empty table on. -/
def durableReminders (tickMs : Int) : Machine.System DurableReminders ReminderLabel where
  initial := fun s => s = {}
  step := fun s l =>
    match l with
    | .set ref name due period at_ => some (s.set ref name due period at_)
    | .clear ref name => some (s.clear ref name)
    | .fire => s.fire
    | .collect at_ => s.collect at_
    | .deliver i ok => s.deliver i ok
    | .finish at_ => s.finish tickMs at_

end SigxActors.Cloudflare
