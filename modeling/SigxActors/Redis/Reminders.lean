/-
  Redis/Reminders.lean --- the reminders of `redisReminders`.

  Source: `packages/actors-redis/src/reminders.ts`.

  A script runs alone, so each is one step.  Times and periods are whole milliseconds of
  the server's clock, which is a part of the database and goes forward.  A call of a script
  may fail without having run it, or after it has run.

  Every write of a due time makes a new occurrence; its number, who has claimed it and
  which ones were withdrawn is history that no script reads.  So is what has happened to a
  member since it was claimed.
-/
import Mathlib.Data.List.Sort
import SigxActors.Codec.Fields
import SigxActors.Js.Map
import SigxActors.Storage.CasStore
import SigxActors.Machine.Transition
import SigxActors.Types

set_option autoImplicit false

namespace SigxActors.Redis

open SigxActors.Js SigxActors.Storage

/-! ## Members -/

/-- `remEscape`. -/
def remEscape (field : String) : String :=
  String.ofList (Codec.escape '\\' '\x00' '0' field.toList)

/-- `remUnescape`. -/
def remUnescape (field : String) : String :=
  String.ofList (Codec.unescape '\\' '\x00' '0' field.toList)

/-- `actorId`. -/
def remActorId (ref : ActorRef) : String := remEscape ref.type ++ "\x00" ++ remEscape ref.key

def memberOf (ref : ActorRef) (name : String) : String := remActorId ref ++ "\x00" ++ remEscape name

/-- `decode`. -/
def decode (member : String) : ActorRef × String :=
  let parts := (member.toList.splitOn '\x00').map String.ofList
  (⟨remUnescape (parts.getD 0 ""), remUnescape (parts.getD 1 "")⟩, remUnescape (parts.getD 2 ""))

/-- `split`, in the scripts: the actor and the escaped name. -/
def split (m : String) : Option (String × String) :=
  (Codec.cutLast '\x00' m.toList).map fun cut => (String.ofList cut.1, String.ofList cut.2)

/-! ## The three structures -/

/-- A score of the sorted set. -/
structure Due where
  score : Nat
  occurrence : Nat
  deriving DecidableEq, Repr

structure ReminderDb where
  now : Nat := 0
  /-- `{ns}:rem:due`. -/
  due : JsMap String Due := .empty
  /-- `{ns}:rem:p`. -/
  periods : JsMap String Nat := .empty
  /-- The sets, each under its key. -/
  actors : String → List String := fun _ => []
  /-- How many occurrences there have been. -/
  minted : Nat := 0
  /-- The occurrences that were claimed, each with its host. -/
  claimed : List (Nat × Nat) := []
  /-- The occurrences that were cleared, or made way for another. -/
  withdrawn : List Nat := []

namespace ReminderDb

/-- `ZREM`. -/
def zrem (db : ReminderDb) (m : String) : ReminderDb :=
  match db.due.get m with
  | some e => { db with due := db.due.erase m, withdrawn := e.occurrence :: db.withdrawn }
  | none => db

/-- A member that is not there is added. -/
def place (db : ReminderDb) (m : String) (score : Nat) : ReminderDb :=
  { db with due := db.due.set m ⟨score, db.minted⟩, minted := db.minted + 1 }

/-- `ZADD`. -/
def zadd (db : ReminderDb) (m : String) (score : Nat) : ReminderDb := (db.zrem m).place m score

/-- A claim takes the occurrence. -/
def take (db : ReminderDb) (host : Nat) (m : String) : ReminderDb :=
  match db.due.get m with
  | some e => { db with due := db.due.erase m, claimed := (e.occurrence, host) :: db.claimed }
  | none => db

/-- `HSET`. -/
def hset (db : ReminderDb) (m : String) (period : Nat) : ReminderDb :=
  { db with periods := db.periods.set m period }

/-- `HDEL`. -/
def hdel (db : ReminderDb) (m : String) : ReminderDb := { db with periods := db.periods.erase m }

/-- `SADD`. -/
def sadd (db : ReminderDb) (key name : String) : ReminderDb :=
  { db with
    actors := fun k =>
      if k = key ∧ name ∉ db.actors k then db.actors k ++ [name] else db.actors k }

/-- `SREM`. -/
def srem (db : ReminderDb) (key name : String) : ReminderDb :=
  { db with
    actors := fun k => if k = key then (db.actors k).filter (· ≠ name) else db.actors k }

end ReminderDb

/-- A member the claim took; `advanced` is the score it wrote, none for a removed
one-shot. -/
structure Claimed where
  member : String
  advanced : Option Nat
  deriving DecidableEq, Repr

/-! ## The scripts -/

namespace ReminderDb

/-- `SET`. -/
def set (db : ReminderDb) (actor member : String) (delay : Nat) (period : Option Nat)
    (name : String) : ReminderDb :=
  let db := db.zadd member (db.now + delay)
  let db := match period with
    | some period => db.hset member period
    | none => db.hdel member
  db.sadd actor name

/-- `CLEAR`. -/
def clear (db : ReminderDb) (actor member name : String) : ReminderDb :=
  ((db.zrem member).hdel member).srem actor name

/-- `ZRANGEBYSCORE … -inf now WITHSCORES LIMIT 0 batch`: by score, and by member where the
scores are the same. -/
def dueRange (db : ReminderDb) (batch : Nat) : List (String × Due) :=
  ((db.due.entries.filter fun q => q.2.score ≤ db.now).insertionSort fun a b =>
    a.2.score < b.2.score ∨ a.2.score = b.2.score ∧ a.1 ≤ b.1).take batch

/-- One pass of the loop of `CLAIM`. -/
def claimRow (actorPrefix : String) (host : Nat) (db : ReminderDb) (q : String × Due) :
    ReminderDb × Claimed :=
  let m := q.1
  match db.periods.get m with
  | some period =>
      let advanced := max q.2.score db.now + period
      ((db.take host m).place m advanced, ⟨m, some advanced⟩)
  | none =>
      match split m with
      | some (actor, name) => ((db.take host m).srem (actorPrefix ++ actor) name, ⟨m, none⟩)
      | none => (db.take host m, ⟨m, none⟩)

/-- The loop of `CLAIM`. -/
def claimRows (actorPrefix : String) (host : Nat) :
    ReminderDb → List (String × Due) → ReminderDb × List Claimed
  | db, [] => (db, [])
  | db, q :: due =>
      let row := db.claimRow actorPrefix host q
      let rest := claimRows actorPrefix host row.1 due
      (rest.1, row.2 :: rest.2)

/-- `CLAIM`. -/
def claim (db : ReminderDb) (actorPrefix : String) (host batch : Nat) : ReminderDb × List Claimed :=
  claimRows actorPrefix host db (db.dueRange batch)

/-- One pass of the loop of `REARM`. -/
def rearmRow (actorPrefix : String) (retry : Nat) (db : ReminderDb) (row : Claimed) : ReminderDb :=
  match row.advanced, db.due.get row.member with
  | none, some _ => db
  | none, none =>
      let db := db.zadd row.member retry
      match split row.member with
      | some (actor, name) => db.sadd (actorPrefix ++ actor) name
      | none => db
  | some _, none => db
  | some advanced, some cur =>
      if cur.score = advanced then db.zadd row.member (min cur.score retry) else db

/-- `REARM`. -/
def rearm (db : ReminderDb) (actorPrefix : String) (tickMs : Nat) (rows : List Claimed) :
    ReminderDb :=
  rows.foldl (rearmRow actorPrefix (db.now + tickMs)) db

end ReminderDb

/-! ## The hosts -/

/-- A member that was claimed and is delivered, with how the delivery has gone. -/
structure Delivery where
  row : Claimed
  outcome : Option Bool := none
  /-- The reminder has been set or cleared since. -/
  replaced : Bool := false
  /-- The member has been claimed since. -/
  reclaimed : Bool := false
  deriving DecidableEq, Repr

/-- Where the `tick` of a host is; `batch` counts the claims before this one. -/
inductive TickPhase where
  | idle
  | claiming (batch : Nat)
  | delivering (batch : Nat) (deliveries : List Delivery)
  | rearming (batch : Nat) (deliveries : List Delivery)

/-- The deliveries under way. -/
def TickPhase.deliveries : TickPhase → List Delivery
  | .delivering _ deliveries => deliveries
  | .rearming _ deliveries => deliveries
  | _ => []

/-- What happens to every delivery under way. -/
def TickPhase.mapDeliveries (f : Delivery → Delivery) : TickPhase → TickPhase
  | .delivering batch deliveries => .delivering batch (deliveries.map f)
  | .rearming batch deliveries => .rearming batch (deliveries.map f)
  | phase => phase

/-- `MIN_PERIOD_MS`. -/
def minPeriodMs : Nat := 60000

/-- `MAX_BATCHES_PER_TICK`. -/
def maxBatchesPerTick : Nat := 10

/-- What a deployment fixes: the prefix of the sets, and each host's own options. -/
structure RedisOptions where
  actorPrefix : String := "sigx:rem:a:"
  batchSize : Nat → Nat := fun _ => 200
  tickMs : Nat → Nat

structure RedisReminders where
  db : ReminderDb := {}
  hosts : Nat → TickPhase := fun _ => .idle

namespace RedisReminders

variable (options : RedisOptions)

def setHost (s : RedisReminders) (n : Nat) (phase : TickPhase) : RedisReminders :=
  { s with hosts := fun m => if m = n then phase else s.hosts m }

def mapDeliveries (s : RedisReminders) (f : Delivery → Delivery) : RedisReminders :=
  { s with hosts := fun m => (s.hosts m).mapDeliveries f }

/-- A member is set or cleared. -/
def replaced (s : RedisReminders) (m : String) : RedisReminders :=
  s.mapDeliveries fun d => if d.row.member = m then { d with replaced := true } else d

/-- Members are claimed. -/
def reclaimed (s : RedisReminders) (rows : List Claimed) : RedisReminders :=
  s.mapDeliveries fun d =>
    if d.row.member ∈ rows.map (·.member) then { d with reclaimed := true } else d

/-- `set`, of any host; a period under the floor is refused. -/
def set (s : RedisReminders) (ref : ActorRef) (name : String) (due : Nat) (period : Option Nat) :
    RedisReminders :=
  match period with
  | some ms =>
      if ms < minPeriodMs then s
      else
        { s with
          db := s.db.set (options.actorPrefix ++ remActorId ref) (memberOf ref name) due (some ms)
            (remEscape name) }.replaced (memberOf ref name)
  | none =>
      { s with
        db := s.db.set (options.actorPrefix ++ remActorId ref) (memberOf ref name) due none
          (remEscape name) }.replaced (memberOf ref name)

/-- `clear`, of any host. -/
def clear (s : RedisReminders) (ref : ActorRef) (name : String) : RedisReminders :=
  { s with
    db := s.db.clear (options.actorPrefix ++ remActorId ref) (memberOf ref name)
      (remEscape name) }.replaced (memberOf ref name)

/-- `list`, before the sort. -/
def list (s : RedisReminders) (ref : ActorRef) : List String :=
  (s.db.actors (options.actorPrefix ++ remActorId ref)).map remUnescape

/-- `tick`, up to its first claim. -/
def tick (s : RedisReminders) (n : Nat) : RedisReminders :=
  match s.hosts n with
  | .idle => s.setHost n (.claiming 0)
  | _ => s

/-- The loop of `tick` claims a batch. -/
def claim (s : RedisReminders) (n : Nat) (fault : Fault) : Option RedisReminders :=
  match s.hosts n with
  | .claiming batch =>
      if fault = .failed then some (s.setHost n .idle)
      else
        let result := s.db.claim options.actorPrefix n (max 1 (options.batchSize n))
        let claimed := { s with db := result.1 }.reclaimed result.2
        if fault = .lost ∨ result.2 = [] then some (claimed.setHost n .idle)
        else some (claimed.setHost n (.delivering batch (result.2.map fun row => { row := row })))
  | _ => none

/-- One delivery of the batch settles. -/
def settle (s : RedisReminders) (n i : Nat) (ok : Bool) : Option RedisReminders :=
  match s.hosts n with
  | .delivering batch deliveries =>
      match deliveries[i]? with
      | some d =>
          if d.outcome = none then
            some (s.setHost n (.delivering batch (deliveries.set i { d with outcome := some ok })))
          else none
      | none => none
  | _ => none

/-- What the loop does behind a batch: a short one was the last. -/
def nextBatch (n batch : Nat) (deliveries : List Delivery) : TickPhase :=
  if deliveries.length < max 1 (options.batchSize n) then .idle
  else if batch + 1 < maxBatchesPerTick then .claiming (batch + 1)
  else .idle

/-- Every delivery of the batch has settled. -/
def settled (s : RedisReminders) (n : Nat) : Option RedisReminders :=
  match s.hosts n with
  | .delivering batch deliveries =>
      if ∀ d ∈ deliveries, d.outcome.isSome = true then
        if ∃ d ∈ deliveries, d.outcome = some false then
          some (s.setHost n (.rearming batch deliveries))
        else some (s.setHost n (nextBatch options n batch deliveries))
      else none
  | _ => none

/-- The failures of the batch go back, in one script; the tick goes on without it if it
fails. -/
def rearm (s : RedisReminders) (n : Nat) (fault : Fault) : Option RedisReminders :=
  match s.hosts n with
  | .rearming batch deliveries =>
      let next := nextBatch options n batch deliveries
      if fault = .failed then some (s.setHost n next)
      else
        let failed := deliveries.filter fun d => d.outcome = some false
        let db := s.db.rearm options.actorPrefix (options.tickMs n) (failed.map (·.row))
        some ({ s with db := db }.setHost n next)
  | _ => none

end RedisReminders

inductive RedisLabel where
  | advance (ms : Nat)
  | set (ref : ActorRef) (name : String) (due : Nat) (period : Option Nat)
  | clear (ref : ActorRef) (name : String)
  | tick (n : Nat)
  | claim (n : Nat) (fault : Fault)
  | settle (n i : Nat) (ok : Bool)
  | settled (n : Nat)
  | rearm (n : Nat) (fault : Fault)

/-- Any number of hosts over one database. -/
def redisReminders (options : RedisOptions) : Machine.System RedisReminders RedisLabel where
  initial := fun s => s = {}
  step := fun s l =>
    match l with
    | .advance ms => some { s with db := { s.db with now := s.db.now + ms } }
    | .set ref name due period => some (s.set options ref name due period)
    | .clear ref name => some (s.clear options ref name)
    | .tick n => some (s.tick n)
    | .claim n fault => s.claim options n fault
    | .settle n i ok => s.settle n i ok
    | .settled n => s.settled options n
    | .rearm n fault => s.rearm options n fault

end SigxActors.Redis
