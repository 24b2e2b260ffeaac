/-
  Host/Reminders.lean --- the hosts that write the reminder table, and their store.

  Source: `packages/actors/src/host/reminders.ts` (`ReminderService`).

  Every record is under the one reserved type, so a record is named by its shard.  A
  request to the store is one step, in which the store acts, and its answer another, in
  which the caller goes on up to its next request.  A block that does not wait reads the
  clock once.  A request may fail without having been carried out, or after it has been.

  Whether a host owns a shard is asked from outside, and the answer is left open: any host
  ticks any shard.  A host that is gone takes no more steps; what it had asked for may
  still be carried out.  What is delivered, and how it goes, is left open too.

  The commits of a shard, the occurrences its ticks have collected, and what `list` has
  answered are history that no step reads.
-/
import SigxActors.Host.ReminderReplay

set_option autoImplicit false

namespace SigxActors.Host

open SigxActors.Js SigxActors.Storage

/-- `MUTATE_ATTEMPTS`. -/
def mutateAttempts : Nat := 3

/-- A shard record as this host last saw it. -/
structure ShardRecord (Etag : Type) where
  table : ReminderTable
  etag : Option Etag

/-- How a save has gone. -/
inductive SaveAnswer (Etag : Type) where
  | accepted (etag : Etag)
  | conflict
  | failed

/-- Where `#mutateNow` is.  `cached` tells whether the attempt started from the cache;
`base` is the record as the edit found it. -/
inductive MutatePhase (Etag : Type) where
  | idle
  | loading (edit : Edit) (attempt : Nat)
  | loaded (edit : Edit) (attempt : Nat) (record : ShardRecord Etag)
  | saving (edit : Edit) (attempt : Nat) (cached : Bool) (now : Int) (base : ShardRecord Etag)
  | answered (edit : Edit) (attempt : Nat) (cached : Bool) (now : Int) (base : ShardRecord Etag)
      (answer : SaveAnswer Etag)

/-- A call of `list` whose load is answered. -/
structure Listing (Etag : Type) where
  id : String
  record : ShardRecord Etag

/-- A tick that has been persisted: what is still to be delivered, and what has failed. -/
structure Firing where
  due : List Due
  failed : List Due := []

/-- What a host holds of one shard. -/
structure HostShard (Etag : Type) where
  cache : Option (ShardRecord Etag) := none
  contended : Option Int := none
  /-- The calls that wait for the one under way. -/
  chain : List Edit := []
  phase : MutatePhase Etag := .idle
  listings : List (Listing Etag) := []
  firings : List Firing := []

namespace HostShard

variable {Etag : Type}

/-- `#mutate`. -/
def mutate (sh : HostShard Etag) (edit : Edit) : HostShard Etag :=
  { sh with chain := sh.chain ++ [edit] }

/-- `edit(table)`, and the save it asks for.  The table it works on is the cached one. -/
def run (tickMs now : Int) (sh : HostShard Etag) (edit : Edit) (attempt : Nat) (cached : Bool)
    (record : ShardRecord Etag) : HostShard Etag :=
  let edited := edit.apply tickMs now record.table
  { sh with
    cache := some ⟨edited.table, record.etag⟩
    phase := if edited.changed then .saving edit attempt cached now record else .idle }

/-- The head of the loop of `#mutateNow`.  `#isContended` drops a mark that has expired. -/
def begin (tickMs now : Int) (sh : HostShard Etag) (edit : Edit) (attempt : Nat) : HostShard Etag :=
  if edit.fresh then { sh with phase := .loading edit attempt }
  else
    match sh.contended with
    | some until_ =>
        if now < until_ then { sh with phase := .loading edit attempt }
        else
          match sh.cache with
          | some record => run tickMs now { sh with contended := none } edit attempt true record
          | none => { sh with contended := none, phase := .loading edit attempt }
    | none =>
        match sh.cache with
        | some record => run tickMs now sh edit attempt true record
        | none => { sh with phase := .loading edit attempt }

/-- The chain has come to the next call. -/
def start (tickMs now : Int) (sh : HostShard Etag) : Option (HostShard Etag) :=
  match sh.phase, sh.chain with
  | .idle, edit :: chain => some (begin tickMs now { sh with chain := chain } edit 1)
  | _, _ => none

/-- The load of `#mutateNow` is answered: the cache is primed with it. -/
def loaded (tickMs now : Int) (sh : HostShard Etag) : Option (HostShard Etag) :=
  match sh.phase with
  | .loaded edit attempt record =>
      let primed := { sh with
        cache := some record
        contended := if edit.fresh then none else sh.contended }
      some (run tickMs now primed edit attempt false record)
  | _ => none

/-- The save is answered.  A tick that is persisted goes on to fire. -/
def saved (tickMs now : Int) (sh : HostShard Etag) : Option (HostShard Etag) :=
  match sh.phase with
  | .answered edit attempt cached at_ base answer =>
      match answer with
      | .accepted etag =>
          let edited := edit.apply tickMs at_ base.table
          let done := { sh with cache := some ⟨edited.table, some etag⟩, phase := .idle }
          some (if edit.fresh then { done with firings := sh.firings ++ [⟨edited.due, []⟩] }
            else done)
      | .conflict =>
          let dropped := { sh with cache := none }
          if mutateAttempts ≤ attempt then some { dropped with phase := .idle }
          else if cached then
            some (begin tickMs now { dropped with contended := some (now + tickMs) } edit
              (attempt + 1))
          else some (begin tickMs now dropped edit (attempt + 1))
      | .failed => some { sh with cache := none, phase := .idle }
  | _ => none

/-- `list` is answered: the cache is primed with what it has loaded. -/
def listed (sh : HostShard Etag) (k : Nat) : Option (HostShard Etag × String × List String) :=
  match sh.listings[k]? with
  | some l =>
      some ({ sh with cache := some l.record, listings := sh.listings.eraseIdx k },
        l.id, ((l.record.table.actors.get l.id).getD .empty).keys)
  | none => none

/-- A delivery of a tick settles. -/
def deliver (sh : HostShard Etag) (k n : Nat) (ok : Bool) : Option (HostShard Etag) :=
  match sh.firings[k]? with
  | some firing =>
      match firing.due[n]? with
      | some d =>
          let failed := if ok then firing.failed else firing.failed ++ [d]
          some { sh with firings := sh.firings.set k ⟨firing.due.eraseIdx n, failed⟩ }
      | none => none
  | none => none

/-- Every delivery of a tick has settled: what has failed is put back. -/
def rearm (sh : HostShard Etag) (k : Nat) : Option (HostShard Etag) :=
  match sh.firings[k]? with
  | some ⟨[], failed⟩ =>
      let settled := { sh with firings := sh.firings.eraseIdx k }
      some (if failed.isEmpty then settled else settled.mutate (.rearm failed))
  | _ => none

end HostShard

/-! ## The machine -/

structure Reminders (σ Etag : Type) where
  db : σ
  hosts : List (String → HostShard Etag)
  commits : String → List Commit := fun _ => []
  collected : String → List (String × String × Nat) := fun _ => []
  answers : String → List (String × List String) := fun _ => []

namespace Reminders

variable {σ Etag : Type}

def setShard (s : Reminders σ Etag) (i : Nat) (h : String → HostShard Etag) (p : String)
    (sh : HostShard Etag) : Reminders σ Etag :=
  { s with hosts := s.hosts.set i fun q => if q = p then sh else h q }

/-- A host that is new. -/
def bind (s : Reminders σ Etag) : Reminders σ Etag := { s with hosts := s.hosts ++ [fun _ => {}] }

/-- A step of one host, on what it holds of one shard. -/
def onShard (s : Reminders σ Etag) (i : Nat) (p : String)
    (f : HostShard Etag → Option (HostShard Etag)) : Option (Reminders σ Etag) :=
  match s.hosts[i]? with
  | some h => (f (h p)).map fun sh => s.setShard i h p sh
  | none => none

/-- `apiFor(ref).set`. -/
def set (s : Reminders σ Etag) (i : Nat) (ref : ActorRef) (name : String) (due : Int)
    (period : Option Int) : Option (Reminders σ Etag) :=
  let id := actorId ref
  if (period.map fun ms => decide (ms < minPeriodMs)).getD false then some s
  else s.onShard i (reminderShardOf id) fun sh => some (sh.mutate (.set id name due period))

/-- `apiFor(ref).clear`. -/
def clear (s : Reminders σ Etag) (i : Nat) (ref : ActorRef) (name : String) :
    Option (Reminders σ Etag) :=
  let id := actorId ref
  s.onShard i (reminderShardOf id) fun sh => some (sh.mutate (.clear id name))

/-- `#tickShard`. -/
def tick (s : Reminders σ Etag) (i : Nat) (p : String) (now : Int) : Option (Reminders σ Etag) :=
  if p ∈ reminderShardKeys then s.onShard i p fun sh => some (sh.mutate (.tick now)) else none

/-- `list` is answered. -/
def listed (s : Reminders σ Etag) (i : Nat) (p : String) (k : Nat) : Option (Reminders σ Etag) :=
  match s.hosts[i]? with
  | some h =>
      match (h p).listed k with
      | some (sh, answer) =>
          some { s.setShard i h p sh with
            answers := fun q => if q = p then s.answers q ++ [answer] else s.answers q }
      | none => none
  | none => none

variable (store : CasStore σ String ReminderTable Unit Etag)

/-- The store's current record. -/
def record (db : σ) (p : String) : ShardRecord Etag :=
  match store.load db p with
  | some r => ⟨r.state, some r.etag⟩
  | none => ⟨{}, none⟩

/-- The store answers the load of `list`. -/
def list (s : Reminders σ Etag) (i : Nat) (ref : ActorRef) : Option (Reminders σ Etag) :=
  let id := actorId ref
  let p := reminderShardOf id
  s.onShard i p fun sh =>
    some { sh with listings := sh.listings ++ [⟨id, record store s.db p⟩] }

/-- The store answers the load of `#mutateNow`, or the call rejects. -/
def load (s : Reminders σ Etag) (i : Nat) (p : String) (fault : Fault) :
    Option (Reminders σ Etag) :=
  s.onShard i p fun sh =>
    match sh.phase with
    | .loading edit attempt =>
        if fault = .none then some { sh with phase := .loaded edit attempt (record store s.db p) }
        else some { sh with phase := .idle }
    | _ => none

/-- The store has taken an edit of shard `p`. -/
def commit (s : Reminders σ Etag) (db : σ) (p : String) (c : Commit) (due : List Due) :
    Reminders σ Etag :=
  { s with
    db := db
    commits := fun q => if q = p then s.commits q ++ [c] else s.commits q
    collected := fun q =>
      if q = p then s.collected q ++ due.map Due.occurrence else s.collected q }

/-- The store does the save of `#mutateNow`, or does not. -/
def save (tickMs : Int) (s : Reminders σ Etag) (i : Nat) (p : String) (fault : Fault) :
    Option (Reminders σ Etag) :=
  match s.hosts[i]? with
  | some h =>
      match (h p).phase with
      | .saving edit attempt cached now base =>
          let edited := edit.apply tickMs now base.table
          let answered := fun answer : SaveAnswer Etag =>
            { h p with phase := .answered edit attempt cached now base answer }
          if fault = .failed then some (s.setShard i h p (answered .failed))
          else
            match store.save s.db p edited.table base.etag with
            | some (db, etag) =>
                let answer := if fault = .none then SaveAnswer.accepted etag else .failed
                some ((s.commit db p ⟨edit, now⟩ edited.due).setShard i h p (answered answer))
            | none =>
                let answer := if fault = .none then SaveAnswer.conflict else .failed
                some (s.setShard i h p (answered answer))
      | _ => none
  | none => none

end Reminders

inductive ReminderLabel where
  | bind
  | set (host : Nat) (ref : ActorRef) (name : String) (due : Int) (period : Option Int)
  | clear (host : Nat) (ref : ActorRef) (name : String)
  | list (host : Nat) (ref : ActorRef)
  | listed (host : Nat) (shard : String) (k : Nat)
  | tick (host : Nat) (shard : String) (now : Int)
  | start (host : Nat) (shard : String) (now : Int)
  | load (host : Nat) (shard : String) (fault : Fault)
  | loaded (host : Nat) (shard : String) (now : Int)
  | save (host : Nat) (shard : String) (fault : Fault)
  | saved (host : Nat) (shard : String) (now : Int)
  | deliver (host : Nat) (shard : String) (k n : Nat) (ok : Bool)
  | rearm (host : Nat) (shard : String) (k : Nat)

/-- The hosts of `shardedReminders()`, over one store that holds no reminder yet. -/
def shardedReminders {σ Etag : Type} (store : CasStore σ String ReminderTable Unit Etag)
    (tickMs : Int) : Machine.System (Reminders σ Etag) ReminderLabel where
  initial := fun s => ∃ db, (∀ p, store.load db p = none) ∧ s = { db := db, hosts := [] }
  step := fun s l =>
    match l with
    | .bind => some s.bind
    | .set i ref name due period => s.set i ref name due period
    | .clear i ref name => s.clear i ref name
    | .list i ref => s.list store i ref
    | .listed i p k => s.listed i p k
    | .tick i p now => s.tick i p now
    | .start i p now => s.onShard i p (HostShard.start tickMs now)
    | .load i p fault => s.load store i p fault
    | .loaded i p now => s.onShard i p (HostShard.loaded tickMs now)
    | .save i p fault => s.save store tickMs i p fault
    | .saved i p now => s.onShard i p (HostShard.saved tickMs now)
    | .deliver i p k n ok => s.onShard i p fun sh => sh.deliver k n ok
    | .rearm i p k => s.onShard i p fun sh => sh.rearm k

end SigxActors.Host
