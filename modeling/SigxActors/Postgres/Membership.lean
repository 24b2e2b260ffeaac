/-
  Postgres/Membership.lean --- one host's view of the membership, and those who write it.

  Source: `pgMembership` of `packages/actors-pg/src/index.ts`, over `refreshCoalescer`.

  A pool serves each query when it will: a refresh's two, and a writer's row, bump and
  notification, are steps of their own.  The table is kept as it has been from instant to
  instant; no step reads any but the last.

  Left out are the pruning of rows that have run out long since, and `leave()` of the host
  itself.
-/
import SigxActors.Cluster.Coalesce
import SigxActors.Cluster.Membership

set_option autoImplicit false

namespace SigxActors.Postgres

open SigxActors.Cluster

variable {D : Type}

/-- A call of `refresh`. -/
structure Query (D : Type) where
  /-- The coalescer's flight; none for the call that `join` makes itself. -/
  flight : Option Nat
  /-- What the counter was. -/
  version : Option Int := none
  /-- What the table held, and when. -/
  rows : Option (List (HostDescriptor D) × Nat) := none
  settled : Bool := false
  deriving DecidableEq, Repr

/-- A membership write: of a host that joins, changes its status or leaves. -/
structure Write (D : Type) where
  hostId : String
  /-- None for a DELETE. -/
  row : Option (HostDescriptor D)
  /-- The first instant that shows it. -/
  madeAt : Option Nat := none
  /-- What its bump has returned. -/
  version : Option Int := none
  deriving DecidableEq, Repr

/-- `hostId:status`, joined. -/
def signatureOf (hosts : List (HostDescriptor D)) : String :=
  ",".intercalate (sortTexts (hosts.map fun h => h.hostId ++ ":" ++ h.status.text))

/-- An upsert, or a DELETE. -/
def putRow (hostId : String) (row : Option (HostDescriptor D)) (rows : List (HostDescriptor D)) :
    List (HostDescriptor D) :=
  rows.filter (fun h => h.hostId ≠ hostId) ++ row.toList

structure Membership (D : Type) where
  /-- The rows that have not run out, from instant to instant. -/
  history : List (List (HostDescriptor D))
  /-- `membership_version`. -/
  version : Int
  writes : List (Write D) := []
  /-- The host's. Its version is `storeVersion`. -/
  coalescer : Coalescer (Option (MembershipView D)) := {}
  queries : List (Query D) := []
  cached : MembershipView D := ⟨0, []⟩
  signature : String := ""

namespace Membership

variable (quietMs : Nat) (s : Membership D)

/-- The rows of now. -/
def live : List (HostDescriptor D) := s.history.getLastD []

def storeVersion : Int := s.coalescer.version

/-- A statement has changed the table, or a row has run out. -/
def changeRow (hostId : String) (row : Option (HostDescriptor D)) : Membership D :=
  { s with history := s.history ++ [putRow hostId row s.live] }

/-- What the coalescer has started is called. -/
def launch (coalescer : Coalescer (Option (MembershipView D))) : Membership D :=
  let before := s.coalescer.flights.length
  let started := List.range' before (coalescer.flights.length - before)
  { s with
    coalescer := coalescer
    queries := s.queries ++ started.map fun flight => { flight := some flight } }

/-- `refresh`, once both its queries are answered. -/
def apply (stored : Int) (hosts : List (HostDescriptor D)) : Membership D :=
  let nextSignature := signatureOf hosts
  if stored ≠ s.storeVersion ∨ nextSignature ≠ s.signature then
    { s with
      coalescer := s.coalescer.view stored
      cached := ⟨max stored (s.cached.version + 1), hosts⟩
      signature := nextSignature }
  else s

/-- The coalescer hears of it. -/
def complete (flight : Option Nat) (outcome : Option (MembershipView D)) : Membership D :=
  match flight with
  | some flight => s.launch (s.coalescer.complete quietMs flight outcome)
  | none => s

/-- Query `q` has changed. -/
def setQuery (q : Nat) (query : Query D) : Membership D :=
  { s with queries := s.queries.set q query }

/-- Write `k` has changed. -/
def setWrite (k : Nat) (write : Write D) : Membership D :=
  { s with writes := s.writes.set k write }

inductive Label (D : Type) where
  /-- A host is about to write. -/
  | write (hostId : String) (row : Option (HostDescriptor D))
  | row (k : Nat)
  | bump (k : Nat)
  /-- A heartbeat: a row, and no bump. -/
  | beat (row : HostDescriptor D)
  | expire (hostId : String)
  /-- The notification of a write reaches the host. -/
  | note (k : Nat)
  /-- One without a version does. -/
  | hint
  /-- The poll, or a caller of `refresh()`. -/
  | demand
  /-- The call that `join` makes itself. -/
  | refresh
  | quiet
  | readVersion (q : Nat)
  | readRows (q : Nat)
  | settle (q : Nat)
  /-- A query has failed. -/
  | reject (q : Nat)

def step : Label D → Option (Membership D)
  | .write hostId row => some { s with writes := s.writes ++ [{ hostId := hostId, row := row }] }
  | .row k =>
      match s.writes[k]? with
      | some write =>
          if write.madeAt.isSome then none
          else
            some
              ((s.changeRow write.hostId write.row).setWrite k
                { write with madeAt := some s.history.length })
      | none => none
  | .bump k =>
      match s.writes[k]? with
      | some write =>
          if write.madeAt.isSome && write.version.isNone then
            some
              { s.setWrite k { write with version := some (s.version + 1) } with
                version := s.version + 1 }
          else none
      | none => none
  | .beat row => some (s.changeRow row.hostId (some row))
  | .expire hostId => some (s.changeRow hostId none)
  | .note k =>
      match s.writes[k]? with
      | some write =>
          write.version.map fun noted =>
            s.launch (s.coalescer.note (if 0 < noted then some noted else none))
      | none => none
  | .hint => some (s.launch (s.coalescer.note none))
  | .demand => some (s.launch s.coalescer.demand)
  | .refresh => some { s with queries := s.queries ++ [{ flight := none }] }
  | .quiet => if s.coalescer.quiet then some (s.launch s.coalescer.runTrailing) else none
  | .readVersion q =>
      match s.queries[q]? with
      | some query =>
          if query.settled || query.version.isSome then none
          else some (s.setQuery q { query with version := some s.version })
      | none => none
  | .readRows q =>
      match s.queries[q]? with
      | some query =>
          if query.settled || query.rows.isSome then none
          else some (s.setQuery q { query with rows := some (s.live, s.history.length - 1) })
      | none => none
  | .settle q =>
      match s.queries[q]? with
      | some query =>
          match query.settled, query.version, query.rows with
          | false, some stored, some (hosts, _) =>
              let applied := (s.setQuery q { query with settled := true }).apply stored hosts
              some (applied.complete quietMs query.flight (some applied.cached))
          | _, _, _ => none
      | none => none
  | .reject q =>
      match s.queries[q]? with
      | some query =>
          if query.settled then none
          else
            some ((s.setQuery q { query with settled := true }).complete quietMs query.flight none)
      | none => none

/-- The host has just been built. -/
def initial (s : Membership D) : Prop :=
  ∃ rows version, 0 ≤ version ∧ s = { history := [rows], version := version }

end Membership

/-- The machine of one host's membership, and of those who write it. -/
def pgMembership (D : Type) (quietMs : Nat) :
    Machine.System (Membership D) (Membership.Label D) where
  initial := Membership.initial
  step := Membership.step quietMs

end SigxActors.Postgres
