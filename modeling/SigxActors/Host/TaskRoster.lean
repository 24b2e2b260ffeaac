/-
  Host/TaskRoster.lean --- the rosters of running tasks, and their adoption.

  Source: `packages/actors/src/host/task-liveness.ts` (`RosterTaskLiveness`).

  Every record is under the one reserved type, so a record is named by its key.  Each
  request to the store is one step, in which the store acts and the caller goes on with
  the answer up to its next request: in between it touches nothing that is shared.  A
  request may fail without having been carried out, or after it has been.  Whether a
  host is live and who owns its shard is asked from outside, and the answer is left
  open; so is whether a touch succeeds.

  The edits that a host was asked for are history, as is whether an actor has been
  touched since the edit was written: no step reads either, but for what an edit does
  to a table.
-/
import SigxActors.Machine.Transition
import SigxActors.Js.Object
import SigxActors.Storage.CasStore
import SigxActors.Host.ReminderShards
import SigxActors.Types

set_option autoImplicit false

namespace SigxActors.Host

open SigxActors.Js SigxActors.Storage

/-! ## Keys -/

/-- `ROSTER_INDEX_KEY`. -/
def rosterIndexKey : String := "$hosts"

/-- The key of one shard of a host's roster. -/
def rosterKey (hostId shard : String) : String := hostId ++ "/" ++ shard

/-- `refOf`: an identity is cut at its first separator. -/
def refOf (id : String) : Option ActorRef :=
  let head := id.toList.takeWhile fun c => c != '\x00'
  if head.length < id.toList.length then
    some ⟨String.ofList head, String.ofList (id.toList.drop (head.length + 1))⟩
  else none

/-- `CAS_ATTEMPTS`. -/
def casAttempts : Nat := 8

/-! ## A host's own roster -/

/-- A roster, and the index: the keys of an object literal, each with its time. -/
abbrev Roster := JsMap String Nat

/-- One call of `track` or `untrack`. -/
structure TaskEdit where
  ref : ActorRef
  tracks : Bool
  since : Nat
  /-- How its promise has settled. -/
  outcome : Option Bool := none
  /-- An adopter has touched the actor since the call resolved. -/
  touched : Bool := false
  deriving DecidableEq, Repr

/-- `edit(next)`. -/
def TaskEdit.apply (e : TaskEdit) (table : Roster) : Roster :=
  if e.tracks then table.set (actorId e.ref) e.since else table.erase (actorId e.ref)

/-- Where the `#flush` of a shard is. -/
inductive FlushPhase where
  | idle
  /-- `await #registered`. -/
  | registering
  /-- The save is under way. -/
  | writing (batch : List Nat) (next : Roster) (attempt : Nat)
  /-- The load after a conflict is under way. -/
  | reloading (batch : List Nat) (next : Roster) (attempt : Nat)

/-- A `Shard`; an edit is named by its place among the host's. -/
structure RosterShard (Etag : Type) where
  table : Roster := .empty
  etag : Option Etag := none
  pending : List Nat := []
  phase : FlushPhase := .idle

/-- Where `#registered` is. -/
inductive Registration (Etag : Type) where
  | none
  | loading (attempt : Nat)
  | saving (index : Roster) (etag : Option Etag) (attempt : Nat)
  | done

/-- The host whose roster is adopted, the hosts of the index after it, and the shards
that are left, of which the first is under way. -/
structure Visit where
  hostId : String
  rest : List String
  shards : List String
  drained : Bool

/-- Where `#adopt` is. -/
inductive Adoption (Etag : Type) where
  | idle
  | loadingIndex
  | scanning (hosts : List String)
  | loadingShard (visit : Visit)
  | touching (visit : Visit) (record : Record Roster Unit Etag)
      (outcomes : List (String × Option Bool))
  | saving (visit : Visit) (record : Record Roster Unit Etag)
      (outcomes : List (String × Option Bool))
  | loadingForget (visit : Visit) (attempt : Nat)
  | savingForget (visit : Visit) (record : Record Roster Unit Etag) (attempt : Nat)

structure RosterHost (Etag : Type) where
  hostId : String
  shards : String → RosterShard Etag := fun _ => {}
  registered : Registration Etag := .none
  adoption : Adoption Etag := .idle
  edits : List TaskEdit := []

namespace RosterHost

variable {Etag : Type}

def setShard (h : RosterHost Etag) (p : String) (shard : RosterShard Etag) : RosterHost Etag :=
  { h with shards := fun q => if q = p then shard else h.shards q }

/-- The promises of a batch settle. -/
def settle (h : RosterHost Etag) (batch : List Nat) (ok : Bool) : RosterHost Etag :=
  { h with
    edits := h.edits.mapIdx fun n e => if n ∈ batch then { e with outcome := some ok } else e }

/-- The edits of a batch, on a copy of the table. -/
def applyEdits (h : RosterHost Etag) (batch : List Nat) (table : Roster) : Roster :=
  batch.foldl (fun table n => match h.edits[n]? with
    | some e => e.apply table
    | none => table) table

/-- The head of the loop of `#flush`: what is pending is one batch.  A batch that leaves
nothing where nothing is stored is not a write. -/
def nextBatch (h : RosterHost Etag) (p : String) : RosterHost Etag :=
  let shard := h.shards p
  if shard.pending = [] then h.setShard p { shard with phase := .idle }
  else
    let next := h.applyEdits shard.pending shard.table
    if shard.etag.isNone ∧ next.keys = [] then
      (h.settle shard.pending true).setShard p
        { shard with table := next, pending := [], phase := .idle }
    else h.setShard p { shard with pending := [], phase := .writing shard.pending next 1 }

/-- The batch is written. -/
def wrote (h : RosterHost Etag) (p : String) (batch : List Nat) (next : Roster) (etag : Etag) :
    RosterHost Etag :=
  ((h.settle batch true).setShard p
    { h.shards p with table := next, etag := some etag }).nextBatch p

/-- The batch is not, as far as the host knows. -/
def failed (h : RosterHost Etag) (p : String) (batch : List Nat) : RosterHost Etag :=
  (h.settle batch false).nextBatch p

/-- `#mutate`. -/
def mutate (h : RosterHost Etag) (e : TaskEdit) : RosterHost Etag :=
  let p := reminderShardOf (actorId e.ref)
  let shard := h.shards p
  let queued :=
    { h with edits := h.edits ++ [e] }.setShard p
      { shard with pending := shard.pending ++ [h.edits.length] }
  match shard.phase with
  | .idle =>
      let flushing :=
        queued.setShard p
          { shard with pending := shard.pending ++ [h.edits.length], phase := .registering }
      match h.registered with
      | .none => { flushing with registered := .loading 1 }
      | _ => flushing
  | _ => queued

/-- `#register` has failed: the memo is dropped, and every flush that awaits it rejects
what is pending. -/
def registerFailed (h : RosterHost Etag) : RosterHost Etag :=
  reminderShardKeys.foldl (fun h p =>
    match (h.shards p).phase with
    | .registering =>
        (h.settle (h.shards p).pending false).setShard p
          { h.shards p with pending := [], phase := .idle }
    | _ => h) { h with registered := .none }

end RosterHost

/-! ## The machine -/

structure Rosters (σ Etag : Type) where
  db : σ
  hosts : List (RosterHost Etag)

namespace Rosters

variable {σ Etag : Type}

def setHost (s : Rosters σ Etag) (n : Nat) (h : RosterHost Etag) : Rosters σ Etag :=
  { s with hosts := s.hosts.set n h }

/-- A host of a new id; `bind` refuses an id that would alias the index. -/
def bind (s : Rosters σ Etag) (hostId : String) : Option (Rosters σ Etag) :=
  if hostId.toList = [] ∨ hostId.toList.head? = some '$' ∨ hostId ∈ s.hosts.map (·.hostId) then
    none
  else some { s with hosts := s.hosts ++ [{ hostId := hostId }] }

def mutate (s : Rosters σ Etag) (n : Nat) (e : TaskEdit) : Option (Rosters σ Etag) :=
  match s.hosts[n]? with
  | some h => some (s.setHost n (h.mutate e))
  | none => none

variable (store : CasStore σ String Roster Unit Etag)

/-! ### `#flush` and `#register` -/

/-- The flush of shard `p` goes on, for `#registered` has resolved. -/
def registered (s : Rosters σ Etag) (n : Nat) (p : String) : Option (Rosters σ Etag) :=
  match s.hosts[n]? with
  | some h =>
      match h.registered, (h.shards p).phase with
      | .done, .registering => some (s.setHost n (h.nextBatch p))
      | _, _ => none
  | none => none

/-- `#register` loads the index. -/
def loadIndex (s : Rosters σ Etag) (n : Nat) (fault : Fault) : Option (Rosters σ Etag) :=
  match s.hosts[n]? with
  | some h =>
      match h.registered with
      | .loading attempt =>
          if fault = .none then
            let record := store.load s.db rosterIndexKey
            let index := (record.map (·.state)).getD .empty
            if index.inObject h.hostId then some (s.setHost n { h with registered := .done })
            else some (s.setHost n { h with
              registered := .saving index (record.map (·.etag)) attempt })
          else some (s.setHost n h.registerFailed)
      | _ => none
  | none => none

/-- `#register` saves the index, with its entry. -/
def saveIndex (s : Rosters σ Etag) (n : Nat) (now : Nat) (fault : Fault) :
    Option (Rosters σ Etag) :=
  match s.hosts[n]? with
  | some h =>
      match h.registered with
      | .saving index etag attempt =>
          if fault = .failed then some (s.setHost n h.registerFailed)
          else
            match store.save s.db rosterIndexKey (index.set h.hostId now) etag with
            | some (db, _) =>
                let saved := { s with db := db }
                if fault = .none then some (saved.setHost n { h with registered := .done })
                else some (saved.setHost n h.registerFailed)
            | none =>
                if fault = .none ∧ attempt < casAttempts then
                  some (s.setHost n { h with registered := .loading (attempt + 1) })
                else some (s.setHost n h.registerFailed)
      | _ => none
  | none => none

/-- `#write` saves a roster. -/
def write (s : Rosters σ Etag) (n : Nat) (p : String) (fault : Fault) : Option (Rosters σ Etag) :=
  match s.hosts[n]? with
  | some h =>
      match (h.shards p).phase with
      | .writing batch next attempt =>
          if fault = .failed then some (s.setHost n (h.failed p batch))
          else
            match store.save s.db (rosterKey h.hostId p) next (h.shards p).etag with
            | some (db, etag) =>
                let saved := { s with db := db }
                if fault = .none then some (saved.setHost n (h.wrote p batch next etag))
                else some (saved.setHost n (h.failed p batch))
            | none =>
                if fault = .none ∧ attempt < casAttempts then
                  some (s.setHost n (h.setShard p
                    { h.shards p with phase := .reloading batch next attempt }))
                else some (s.setHost n (h.failed p batch))
      | _ => none
  | none => none

/-- `#write` loads the record that it conflicts with. -/
def reload (s : Rosters σ Etag) (n : Nat) (p : String) (fault : Fault) : Option (Rosters σ Etag) :=
  match s.hosts[n]? with
  | some h =>
      match (h.shards p).phase with
      | .reloading batch next attempt =>
          if fault = .none then
            some (s.setHost n (h.setShard p
              { h.shards p with
                etag := store.current s.db (rosterKey h.hostId p)
                phase := .writing batch next (attempt + 1) }))
          else some (s.setHost n (h.failed p batch))
      | _ => none
  | none => none

/-! ### `#adopt` -/

def setAdoption (s : Rosters σ Etag) (n : Nat) (h : RosterHost Etag) (adoption : Adoption Etag) :
    Rosters σ Etag :=
  s.setHost n { h with adoption := adoption }

/-- The tick. -/
def adopt (s : Rosters σ Etag) (n : Nat) : Option (Rosters σ Etag) :=
  match s.hosts[n]? with
  | some h =>
      match h.adoption with
      | .idle => some (s.setAdoption n h .loadingIndex)
      | _ => some s
  | none => none

def adoptIndex (s : Rosters σ Etag) (n : Nat) (fault : Fault) : Option (Rosters σ Etag) :=
  match s.hosts[n]? with
  | some h =>
      match h.adoption with
      | .loadingIndex =>
          match fault, store.load s.db rosterIndexKey with
          | .none, some record => some (s.setAdoption n h (.scanning record.state.keys))
          | _, _ => some (s.setAdoption n h .idle)
      | _ => none
  | none => none

/-- The next host of the index: it is live or another's to adopt, or it is taken for
dead and adopted. -/
def visit (s : Rosters σ Etag) (n : Nat) (dead : Bool) : Option (Rosters σ Etag) :=
  match s.hosts[n]? with
  | some h =>
      match h.adoption with
      | .scanning [] => some (s.setAdoption n h .idle)
      | .scanning (hostId :: rest) =>
          if hostId = h.hostId ∨ dead = false then some (s.setAdoption n h (.scanning rest))
          else some (s.setAdoption n h (.loadingShard ⟨hostId, rest, reminderShardKeys, true⟩))
      | _ => none
  | none => none

/-- The visit goes on with the next shard, or with the index once there is none. -/
def nextShard {Etag : Type} (visit : Visit) (drained : Bool) : Adoption Etag :=
  match visit.shards.tail with
  | [] =>
      if drained then .loadingForget { visit with shards := [] } 1 else .scanning visit.rest
  | shards => .loadingShard { visit with shards := shards, drained := drained }

/-- `#adoptHost` loads a shard. -/
def loadRoster (s : Rosters σ Etag) (n : Nat) (fault : Fault) : Option (Rosters σ Etag) :=
  match s.hosts[n]? with
  | some h =>
      match h.adoption with
      | .loadingShard visit =>
          match fault, visit.shards with
          | .none, p :: _ =>
              match store.load s.db (rosterKey visit.hostId p) with
              | some record =>
                  some (s.setAdoption n h
                    (.touching visit record (record.state.keys.map fun id => (id, none))))
              | none => some (s.setAdoption n h (nextShard visit visit.drained))
          | _, _ => some (s.setAdoption n h .idle)
      | _ => none
  | none => none

/-- The actor has been touched: every call that resolved before has been answered. -/
def touched (s : Rosters σ Etag) (ref : ActorRef) : Rosters σ Etag :=
  { s with
    hosts := s.hosts.map fun h =>
      { h with
        edits := h.edits.map fun e =>
          if e.ref = ref ∧ e.outcome = some true then { e with touched := true } else e } }

/-- `context.touch` of one id of the table; an id that is not one is dropped. -/
def touch (s : Rosters σ Etag) (n i : Nat) (ok : Bool) : Option (Rosters σ Etag) :=
  match s.hosts[n]? with
  | some h =>
      match h.adoption with
      | .touching visit record outcomes =>
          match outcomes[i]? with
          | some (id, none) =>
              match refOf id with
              | some ref =>
                  let settled :=
                    s.setAdoption n h (.touching visit record (outcomes.set i (id, some ok)))
                  some (if ok then settled.touched ref else settled)
              | none =>
                  some (s.setAdoption n h (.touching visit record (outcomes.set i (id, some true))))
          | _ => none
      | _ => none
  | none => none

/-- Every touch has settled. -/
def allSettled (s : Rosters σ Etag) (n : Nat) : Option (Rosters σ Etag) :=
  match s.hosts[n]? with
  | some h =>
      match h.adoption with
      | .touching visit record outcomes =>
          if ∀ outcome ∈ outcomes, outcome.2.isSome = true then
            some (s.setAdoption n h (.saving visit record outcomes))
          else none
      | _ => none
  | none => none

/-- What is left of a table: the ids whose touch was rejected. -/
def remaining (record : Record Roster Unit Etag) (outcomes : List (String × Option Bool)) :
    Roster :=
  record.state.filter fun id _ => decide ((id, some false) ∈ outcomes)

/-- `#adoptHost` clears the shard, or saves what is left. -/
def drain (s : Rosters σ Etag) (n : Nat) (fault : Fault) : Option (Rosters σ Etag) :=
  match s.hosts[n]? with
  | some h =>
      match h.adoption with
      | .saving visit record outcomes =>
          match fault, visit.shards with
          | .failed, _ => some (s.setAdoption n h .idle)
          | _, [] => none
          | fault, p :: _ =>
              let left := remaining record outcomes
              let key := rosterKey visit.hostId p
              let result :=
                if left.keys = [] then (store.clear s.db key (some record.etag)).map (·, visit.drained)
                else (store.save s.db key left (some record.etag)).map fun saved => (saved.1, false)
              match result with
              | some (db, drained) =>
                  let saved := { s with db := db }
                  if fault = .none then some (saved.setAdoption n h (nextShard visit drained))
                  else some (saved.setAdoption n h .idle)
              | none =>
                  if fault = .none then some (s.setAdoption n h (nextShard visit false))
                  else some (s.setAdoption n h .idle)
      | _ => none
  | none => none

/-- `#forgetHost` loads the index. -/
def loadForget (s : Rosters σ Etag) (n : Nat) (fault : Fault) : Option (Rosters σ Etag) :=
  match s.hosts[n]? with
  | some h =>
      match h.adoption with
      | .loadingForget visit attempt =>
          match fault, store.load s.db rosterIndexKey with
          | .none, some record =>
              if record.state.inObject visit.hostId then
                some (s.setAdoption n h (.savingForget visit record attempt))
              else some (s.setAdoption n h (.scanning visit.rest))
          | .none, none => some (s.setAdoption n h (.scanning visit.rest))
          | _, _ => some (s.setAdoption n h .idle)
      | _ => none
  | none => none

/-- `#forgetHost` saves the index, without the host. -/
def saveForget (s : Rosters σ Etag) (n : Nat) (fault : Fault) : Option (Rosters σ Etag) :=
  match s.hosts[n]? with
  | some h =>
      match h.adoption with
      | .savingForget visit record attempt =>
          if fault = .failed then some (s.setAdoption n h .idle)
          else
            match store.save s.db rosterIndexKey (record.state.erase visit.hostId)
                (some record.etag) with
            | some (db, _) =>
                let saved := { s with db := db }
                if fault = .none then some (saved.setAdoption n h (.scanning visit.rest))
                else some (saved.setAdoption n h .idle)
            | none =>
                if fault = .none ∧ attempt < casAttempts then
                  some (s.setAdoption n h (.loadingForget visit (attempt + 1)))
                else some (s.setAdoption n h .idle)
      | _ => none
  | none => none

end Rosters

inductive RosterLabel where
  | bind (hostId : String)
  | track (n : Nat) (type : ActorType) (key : String) (now : Nat)
  | untrack (n : Nat) (type : ActorType) (key : String)
  | registered (n : Nat) (p : String)
  | loadIndex (n : Nat) (fault : Fault)
  | saveIndex (n now : Nat) (fault : Fault)
  | write (n : Nat) (p : String) (fault : Fault)
  | reload (n : Nat) (p : String) (fault : Fault)
  | adopt (n : Nat)
  | adoptIndex (n : Nat) (fault : Fault)
  | visit (n : Nat) (dead : Bool)
  | loadRoster (n : Nat) (fault : Fault)
  | touch (n i : Nat) (ok : Bool)
  | allSettled (n : Nat)
  | drain (n : Nat) (fault : Fault)
  | loadForget (n : Nat) (fault : Fault)
  | saveForget (n : Nat) (fault : Fault)

/-- The task rosters of any number of hosts over one store, which begins without any. -/
def taskRosters {σ Etag : Type} (store : CasStore σ String Roster Unit Etag) :
    Machine.System (Rosters σ Etag) RosterLabel where
  initial := fun s => s.hosts = [] ∧ ∀ key, store.load s.db key = none
  step := fun s l =>
    match l with
    | .bind hostId => s.bind hostId
    | .track n type key now => s.mutate n { ref := ⟨type.name, key⟩, tracks := true, since := now }
    | .untrack n type key => s.mutate n { ref := ⟨type.name, key⟩, tracks := false, since := 0 }
    | .registered n p => s.registered n p
    | .loadIndex n fault => s.loadIndex store n fault
    | .saveIndex n now fault => s.saveIndex store n now fault
    | .write n p fault => s.write store n p fault
    | .reload n p fault => s.reload store n p fault
    | .adopt n => s.adopt n
    | .adoptIndex n fault => s.adoptIndex store n fault
    | .visit n dead => s.visit n dead
    | .loadRoster n fault => s.loadRoster store n fault
    | .touch n i ok => s.touch n i ok
    | .allSettled n => s.allSettled n
    | .drain n fault => s.drain store n fault
    | .loadForget n fault => s.loadForget store n fault
    | .saveForget n fault => s.saveForget store n fault

end SigxActors.Host
