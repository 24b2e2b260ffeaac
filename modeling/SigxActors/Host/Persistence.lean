/-
  Host/Persistence.lean --- one activation and its record.

  Source: `packages/actors/src/host/activation.ts` (`seedFromStorage`,
  `replayLog`, `create`, `#gatedSave`, `#doSave`, `#reload`, `#consumeDirty`,
  `#ensureChangeTracking`, `#afterTurn`, `#scheduleWriteBehind`, `deactivate`, and
  `save`, `append`, `clearState` of the context).

  Each stretch of code between two awaits is one step.  A write of the gate is
  issued with what it captured, is executed at the store some time later, and is
  answered later still; any of the activation's turns may run in between.  A call
  of the store may fail before it was executed, after it, or not at all.

  An etag is kept together with the number of the write that minted it.  The
  numbers, `base` and `seeds` are history: they say which record a state was
  derived from, and no step reads them.
-/
import SigxActors.Storage.CasStore

set_option autoImplicit false

namespace SigxActors.Host

open SigxActors.Storage

/-! ## The definition of an actor -/

/-- What persistence reads of a type's definition. -/
structure ActorOptions (St En Snap : Type) where
  /-- `opts.state(ref.key)`. -/
  state : St
  applyEntry : Option (St → En → St)
  encode : St → Snap
  /-- Decode a stored state and bring it to the current shape; `none` where the
  hook throws. -/
  migrateState : Snap → Option St
  /-- The hook changes this state, and `persist` is `'eager'`. -/
  eager : Snap → Bool
  writeBehind : Bool
  retryQueuedOnConflict : Bool
  /-- A state of the current shape is not migrated. -/
  migrate_encode : ∀ st, migrateState (encode st) = some st

namespace ActorOptions

variable {St En Snap Etag : Type} (opts : ActorOptions St En Snap)

/-- Fold a record's log onto its snapshot; a log without a reducer is an error. -/
def replayLog (state : St) (log : List En) : Option St :=
  match opts.applyEntry with
  | some apply => some (log.foldl apply state)
  | none => if log.isEmpty then some state else none

/-- The state an activation is seeded with from what was loaded. -/
def seedState : Option (Record Snap En Etag) → Option St
  | none => some opts.state
  | some record => (opts.migrateState record.state).bind fun st => opts.replayLog st record.log

end ActorOptions

/-! ## The store -/

/-- An etag, and the number of the write that minted it. -/
structure Token (Etag : Type) where
  etag : Etag
  write : Nat
  deriving DecidableEq, Repr

/-- The database, and how many writes to the actor's record it has accepted. -/
structure StorageState (σ : Type) where
  db : σ
  writes : Nat

/-- What a write asks of the store. -/
inductive WriteOp (Snap En : Type) where
  | save (state : Snap)
  | append (entry : En) (wanted : Nat)
  | clear
  deriving DecidableEq, Repr

/-- What a write comes back with. -/
inductive Answer (Etag : Type) where
  | stored (token : Token Etag)
  | cleared
  | conflict
  /-- Any other error. -/
  | failed
  deriving DecidableEq, Repr

/-- What becomes of a call of the store. -/
inductive Outcome where
  | answered
  /-- It is executed and fails all the same. -/
  | lost
  /-- It fails and has done nothing. -/
  | failed
  deriving DecidableEq, Repr

namespace StorageState

variable {σ Id Snap En Etag : Type} (store : CasStore σ Id Snap En Etag) (id : Id)

def loadState (s : StorageState σ) : Option (Record Snap En (Token Etag)) :=
  (store.load s.db id).map fun record =>
    { state := record.state, etag := ⟨record.etag, s.writes⟩, log := record.log }

/-- The store executes one write. -/
def perform (s : StorageState σ) (op : WriteOp Snap En) (expected : Option (Token Etag)) :
    StorageState σ × Answer Etag :=
  match op with
  | .save state =>
      match store.save s.db id state (expected.map (·.etag)) with
      | some (db, etag) => (⟨db, s.writes + 1⟩, .stored ⟨etag, s.writes + 1⟩)
      | none => (s, .conflict)
  | .append entry _ =>
      match store.appendText, expected with
      | some append, some token =>
          match append s.db id entry token.etag with
          | some (db, etag) => (⟨db, s.writes + 1⟩, .stored ⟨etag, s.writes + 1⟩)
          | none => (s, .conflict)
      | _, _ => (s, .conflict)
  | .clear =>
      match store.clear s.db id (expected.map (·.etag)) with
      | some db => (⟨db, s.writes + 1⟩, .cleared)
      | none => (s, .conflict)

def execute (s : StorageState σ) (op : WriteOp Snap En) (expected : Option (Token Etag)) :
    Outcome → StorageState σ × Answer Etag
  | .answered => s.perform store id op expected
  | .lost => ((s.perform store id op expected).1, .failed)
  | .failed => (s, .failed)

end StorageState

/-! ## The activation -/

/-- Whoever waits at the save gate, with the version it wants durable. -/
inductive Caller (En : Type) where
  | save (wanted : Nat)
  | append (entry : En) (wanted : Nat)
  | clear
  /-- The scheduled flush turn. -/
  | flush (wanted : Nat)
  /-- The last flush of `deactivate`. -/
  | finalFlush (wanted : Nat)
  deriving DecidableEq, Repr

/-- A clear waits for no version. -/
def Caller.wanted {En : Type} : Caller En → Option Nat
  | .save wanted | .append _ wanted | .flush wanted | .finalFlush wanted => some wanted
  | .clear => none

/-- `#savePending`: the write in flight, with what was captured when it was
issued. -/
structure Write (Snap En Etag : Type) where
  caller : Caller En
  op : WriteOp Snap En
  version : Nat
  expected : Option (Token Etag)
  base : Option (Token Etag)
  seeds : Nat
  answer : Option (Answer Etag) := none
  deriving DecidableEq, Repr

/-- How far `seedFromStorage` is. -/
inductive Seeding (St Snap En Etag : Type) where
  | reading
  | read (stored : Option (Record Snap En (Token Etag)))
  | writingBack (state : St) (expected : Token Etag)
  | wroteBack (state : St) (answer : Answer Etag)
  | readingAgain
  | readAgain (stored : Option (Record Snap En (Token Etag)))
  deriving DecidableEq, Repr

inductive DeactivationReason where
  | idle
  | capacity
  | explicit
  | shutdown
  | conflict
  | activationFailed
  | migrated
  deriving DecidableEq, Repr

inductive Phase where
  /-- Not created yet. -/
  | absent
  | live
  /-- The last flush of `deactivate` has begun. -/
  | stopping (reason : DeactivationReason)
  | stopped (reason : DeactivationReason)
  deriving DecidableEq, Repr

/-- An activation. -/
structure Activation (St Snap En Etag : Type) where
  phase : Phase := .absent
  seeding : Option (Seeding St Snap En Etag) := none
  state : St
  etag : Option (Token Etag) := none
  /-- The record `state` was derived from. -/
  base : Option (Token Etag) := none
  /-- How often `state` was replaced as a whole. -/
  seeds : Nat := 0
  version : Nat := 0
  savedVersion : Nat := 0
  eventualWanted : Nat := 0
  dirty : Bool := false
  /-- The tracking effect is installed. -/
  tracking : Bool := false
  faulted : Bool := false
  reloadPending : Bool := false
  pending : Option (Write Snap En Etag) := none
  /-- Callers that wait for `#savePending`. -/
  parked : List (Caller En) := []
  /-- What callers were told: resolved or rejected. -/
  settlements : List (Caller En × Bool) := []
  deriving DecidableEq, Repr

namespace Activation

variable {St Snap En Etag : Type}

/-- `#consumeDirty`. -/
def consumeDirty (a : Activation St Snap En Etag) : Activation St Snap En Etag :=
  if a.dirty then { a with dirty := false, version := a.version + 1 } else a

/-- A caller's promise settles.  A flush turn that fails promotes a parked
conflict to the fault. -/
def settle (a : Activation St Snap En Etag) (caller : Caller En) (resolved : Bool) :
    Activation St Snap En Etag :=
  let a := { a with settlements := a.settlements ++ [(caller, resolved)] }
  match caller with
  | .flush _ =>
      if resolved = false ∧ a.reloadPending = true then
        { a with faulted := true, reloadPending := false }
      else a
  | .finalFlush _ =>
      match a.phase with
      | .stopping reason => { a with phase := .stopped reason }
      | _ => a
  | _ => a

/-! ### The save gate -/

/-- A write is issued. -/
def issue (a : Activation St Snap En Etag) (caller : Caller En) (op : WriteOp Snap En) :
    Activation St Snap En Etag :=
  { a with
    pending := some
      { caller := caller, op := op, version := a.version, expected := a.etag, base := a.base,
        seeds := a.seeds } }

/-- What `#doSave` writes: the entry where the log path is open, else the whole
state. -/
def saveOp (opts : ActorOptions St En Snap) (appends : Bool) (a : Activation St Snap En Etag) :
    Caller En → WriteOp Snap En
  | .append entry wanted =>
      if appends = true ∧ a.etag.isSome then .append entry wanted else .save (opts.encode a.state)
  | _ => .save (opts.encode a.state)

/-- The synchronous part of `#doSave`. -/
def doSave (opts : ActorOptions St En Snap) (appends : Bool) (a : Activation St Snap En Etag)
    (caller : Caller En) : Activation St Snap En Etag :=
  if a.faulted then a.settle caller false
  else a.issue caller (a.saveOp opts appends caller)

/-- One pass of the loop of `#gatedSave`, or of `clearState`'s. -/
def gatedSave (opts : ActorOptions St En Snap) (appends : Bool) (a : Activation St Snap En Etag)
    (caller : Caller En) : Activation St Snap En Etag :=
  match caller.wanted with
  | some wanted =>
      if wanted ≤ a.savedVersion then a.settle caller true
      else if a.pending.isSome then { a with parked := a.parked ++ [caller] }
      else a.doSave opts appends caller
  | none =>
      if a.pending.isSome then { a with parked := a.parked ++ [caller] }
      else a.issue caller .clear

/-- `#savePending` has settled, and a caller that waited for it goes on. -/
def resume (opts : ActorOptions St En Snap) (appends : Bool) (a : Activation St Snap En Etag)
    (k : Nat) : Option (Activation St Snap En Etag) :=
  match a.parked[k]? with
  | some caller =>
      if a.pending = none ∨ ∃ wanted ∈ caller.wanted, wanted ≤ a.savedVersion then
        some ({ a with parked := a.parked.eraseIdx k }.gatedSave opts appends caller)
      else none
  | none => none

/-- The bookkeeping of an accepted save or append. -/
def adopt (a : Activation St Snap En Etag) (w : Write Snap En Etag) (token : Token Etag) :
    Activation St Snap En Etag :=
  { a with
    etag := some token
    base := if a.seeds = w.seeds then some token else a.base
    savedVersion :=
      match w.op with
      | .append _ wanted => if a.savedVersion + 1 = wanted then wanted else a.savedVersion
      | _ => w.version }

/-- `#resetState`. -/
def resetState (a : Activation St Snap En Etag) (st : St) (token : Option (Token Etag)) :
    Activation St Snap En Etag :=
  { a with state := st, dirty := a.dirty || a.tracking, base := token, seeds := a.seeds + 1 }

/-- The write in flight has settled. -/
def reply (opts : ActorOptions St En Snap) (appends : Bool) (a : Activation St Snap En Etag) :
    Option (Activation St Snap En Etag) :=
  match a.pending with
  | none => none
  | some w =>
      let a := { a with pending := none }
      match w.answer with
      | none => none
      | some (.stored token) =>
          let a := a.adopt w token
          match w.caller with
          | .append _ _ => some (a.settle w.caller true)
          | caller => some (a.gatedSave opts appends caller)
      | some .cleared =>
          some (({ a with etag := none, eventualWanted := 0 }.resetState opts.state none).settle
            w.caller true)
      | some .conflict =>
          match w.caller with
          | .clear => some (a.settle w.caller false)
          | caller =>
              if opts.retryQueuedOnConflict then
                some ({ a with reloadPending := true }.settle caller false)
              else some ({ a with faulted := true }.settle caller false)
      | some .failed => some (a.settle w.caller false)

/-! ### Seeding -/

/-- `seedFromStorage` throws: the creation fails, or the reload faults. -/
def seedFails (a : Activation St Snap En Etag) : Activation St Snap En Etag :=
  match a.phase with
  | .absent => { a with seeding := none }
  | _ => { a with seeding := none, faulted := true }

/-- `seedFromStorage` returns: the rest of `create`, or of `#reload`. -/
def seeded (opts : ActorOptions St En Snap) (a : Activation St Snap En Etag) (st : St)
    (token : Option (Token Etag)) : Activation St Snap En Etag :=
  match a.phase with
  | .absent =>
      { a with
        phase := .live, seeding := none, state := st, etag := token, base := token
        seeds := a.seeds + 1, tracking := opts.writeBehind }
  | _ =>
      let a := ({ a with seeding := none, etag := token }.resetState st token).consumeDirty
      { a with version := a.version + 1, savedVersion := a.version + 1, eventualWanted := 0 }

/-- `seedFromStorage` goes on after an await. -/
def seedNext (opts : ActorOptions St En Snap) (a : Activation St Snap En Etag) :
    Option (Activation St Snap En Etag) :=
  match a.seeding with
  | some (.read none) => some (a.seeded opts opts.state none)
  | some (.read (some record)) =>
      match opts.seedState (some record) with
      | none => some a.seedFails
      | some st =>
          if opts.eager record.state then
            some { a with seeding := some (.writingBack st record.etag) }
          else some (a.seeded opts st (some record.etag))
  | some (.wroteBack st (.stored token)) => some (a.seeded opts st (some token))
  | some (.wroteBack _ .conflict) => some { a with seeding := some .readingAgain }
  | some (.wroteBack _ _) => some a.seedFails
  | some (.readAgain none) => some (a.seeded opts opts.state none)
  | some (.readAgain (some record)) =>
      match opts.seedState (some record) with
      | none => some a.seedFails
      | some st => some (a.seeded opts st (some record.etag))
  | _ => none

end Activation

/-! ## Events -/

/-- What happens to one activation. -/
inductive Event (St En : Type) where
  | create
  /-- A turn enters the serial lane and finds a parked conflict. -/
  | reload
  | seedExec (outcome : Outcome)
  | seedNext
  /-- The first subscriber of the change feed. -/
  | track
  /-- A turn writes to the state. -/
  | write (st : St)
  | afterTurn
  | save
  | saveEventual
  | append (entry : En)
  | clearState
  | flush
  | resume (k : Nat)
  /-- The write in flight reaches the store. -/
  | exec (outcome : Outcome)
  | reply
  /-- Turns are drained and `onDeactivate` is over. -/
  | deactivate (reason : DeactivationReason)
  deriving DecidableEq, Repr

namespace Activation

variable {σ Id St Snap En Etag : Type}

/-- `ctx.save()`. -/
def save (opts : ActorOptions St En Snap) (appends : Bool) (a : Activation St Snap En Etag) :
    Activation St Snap En Etag :=
  let a := a.consumeDirty
  { a with version := a.version + 1 }.gatedSave opts appends (.save (a.version + 1))

/-- `ctx.save({ durability: 'eventual' })`. -/
def saveEventual (a : Activation St Snap En Etag) : Activation St Snap En Etag :=
  let a := a.consumeDirty
  { a with version := a.version + 1, eventualWanted := a.version + 1 }

/-- `ctx.append(entry)`: the reducer's writes are one version, tracked or not. -/
def append (opts : ActorOptions St En Snap) (appends : Bool) (a : Activation St Snap En Etag)
    (entry : En) : Option (Activation St Snap En Etag) :=
  match opts.applyEntry with
  | none => none
  | some apply =>
      let a := a.consumeDirty
      some ({ a with state := apply a.state entry, version := a.version + 1 }.gatedSave opts
        appends (.append entry (a.version + 1)))

/-- The flush turn, behind its reload if it had one to run. -/
def flush (opts : ActorOptions St En Snap) (appends : Bool) (a : Activation St Snap En Etag) :
    Activation St Snap En Etag :=
  a.gatedSave opts appends (.flush (if opts.writeBehind then a.version else a.eventualWanted))

/-- The last flush of `deactivate` is owed. -/
def OwesFlush (opts : ActorOptions St En Snap) (a : Activation St Snap En Etag)
    (reason : DeactivationReason) : Prop :=
  reason ≠ .conflict ∧ a.reloadPending = false ∧ a.savedVersion < a.version ∧
    (opts.writeBehind = true ∨ a.savedVersion < a.eventualWanted)

instance (opts : ActorOptions St En Snap) (a : Activation St Snap En Etag)
    (reason : DeactivationReason) : Decidable (a.OwesFlush opts reason) :=
  inferInstanceAs (Decidable (_ ∧ _))

/-- `deactivate`, from behind the drain. -/
def deactivate (opts : ActorOptions St En Snap) (appends : Bool) (a : Activation St Snap En Etag)
    (reason : DeactivationReason) : Activation St Snap En Etag :=
  let a := a.consumeDirty
  if a.OwesFlush opts reason then
    { a with phase := .stopping reason }.gatedSave opts appends (.finalFlush a.version)
  else { a with phase := .stopped reason }

/-- A stretch of the activation's own code. -/
def run (opts : ActorOptions St En Snap) (appends : Bool) (a : Activation St Snap En Etag) :
    Event St En → Option (Activation St Snap En Etag)
  | .create =>
      if a.phase = .absent ∧ a.seeding.isNone then some { a with seeding := some .reading }
      else none
  | .reload =>
      if a.phase = .live ∧ a.seeding.isNone ∧ a.reloadPending = true then
        some { a with reloadPending := false, seeding := some .reading }
      else none
  | .seedNext => a.seedNext opts
  | .track => if a.phase = .live then some { a with tracking := true } else none
  | .write st =>
      if a.phase = .live then some { a with state := st, dirty := a.dirty || a.tracking } else none
  | .afterTurn => if a.phase = .live then some a.consumeDirty else none
  | .save => if a.phase = .live then some (a.save opts appends) else none
  | .saveEventual => if a.phase = .live then some a.saveEventual else none
  | .append entry => if a.phase = .live then a.append opts appends entry else none
  | .clearState => if a.phase = .live then some (a.gatedSave opts appends .clear) else none
  | .flush =>
      if a.phase = .live ∧ a.reloadPending = false then some (a.flush opts appends) else none
  | .resume k => a.resume opts appends k
  | .reply => a.reply opts appends
  | .deactivate reason =>
      if a.phase = .live ∧ a.seeding.isNone then some (a.deactivate opts appends reason) else none
  | .seedExec _ | .exec _ => none

/-- A call of the activation reaches the store. -/
def atStore (store : CasStore σ Id Snap En Etag) (opts : ActorOptions St En Snap) (id : Id)
    (s : StorageState σ) (a : Activation St Snap En Etag) :
    Event St En → Option (StorageState σ × Activation St Snap En Etag)
  | .seedExec outcome =>
      match a.seeding with
      | some .reading =>
          if outcome = .answered then
            some (s, { a with seeding := some (.read (s.loadState store id)) })
          else some (s, a.seedFails)
      | some .readingAgain =>
          if outcome = .answered then
            some (s, { a with seeding := some (.readAgain (s.loadState store id)) })
          else some (s, a.seedFails)
      | some (.writingBack st expected) =>
          let done := s.execute store id (.save (opts.encode st)) (some expected) outcome
          some (done.1, { a with seeding := some (.wroteBack st done.2) })
      | _ => none
  | .exec outcome =>
      match a.pending with
      | some w =>
          if w.answer.isNone then
            let done := s.execute store id w.op w.expected outcome
            some (done.1, { a with pending := some { w with answer := some done.2 } })
          else none
      | none => none
  | _ => none

/-- One event of one activation. -/
def step (store : CasStore σ Id Snap En Etag) (opts : ActorOptions St En Snap) (id : Id)
    (s : StorageState σ) (a : Activation St Snap En Etag) (e : Event St En) :
    Option (StorageState σ × Activation St Snap En Etag) :=
  match e with
  | .seedExec _ | .exec _ => a.atStore store opts id s e
  | _ => (a.run opts store.appendText.isSome e).map fun a' => (s, a')

/-! ### What settling and the gate do -/

section

variable (a : Activation St Snap En Etag) (caller : Caller En) (resolved : Bool)

/-- Settling a caller touches four fields. -/
theorem settle_eq : ∃ phase faulted reloadPending,
    a.settle caller resolved =
      { a with
        phase := phase, faulted := faulted, reloadPending := reloadPending
        settlements := a.settlements ++ [(caller, resolved)] } := by
  cases caller with
  | save | append | clear => exact ⟨_, _, _, rfl⟩
  | flush | finalFlush =>
    simp only [settle]
    split <;> exact ⟨_, _, _, rfl⟩

@[simp] theorem settle_state : (a.settle caller resolved).state = a.state := by
  obtain ⟨_, _, _, h⟩ := a.settle_eq caller resolved
  rw [h]

@[simp] theorem settle_seeding : (a.settle caller resolved).seeding = a.seeding := by
  obtain ⟨_, _, _, h⟩ := a.settle_eq caller resolved
  rw [h]

@[simp] theorem settle_etag : (a.settle caller resolved).etag = a.etag := by
  obtain ⟨_, _, _, h⟩ := a.settle_eq caller resolved
  rw [h]

@[simp] theorem settle_version : (a.settle caller resolved).version = a.version := by
  obtain ⟨_, _, _, h⟩ := a.settle_eq caller resolved
  rw [h]

@[simp] theorem settle_savedVersion :
    (a.settle caller resolved).savedVersion = a.savedVersion := by
  obtain ⟨_, _, _, h⟩ := a.settle_eq caller resolved
  rw [h]

@[simp] theorem settle_eventualWanted :
    (a.settle caller resolved).eventualWanted = a.eventualWanted := by
  obtain ⟨_, _, _, h⟩ := a.settle_eq caller resolved
  rw [h]

@[simp] theorem settle_dirty : (a.settle caller resolved).dirty = a.dirty := by
  obtain ⟨_, _, _, h⟩ := a.settle_eq caller resolved
  rw [h]

@[simp] theorem settle_pending : (a.settle caller resolved).pending = a.pending := by
  obtain ⟨_, _, _, h⟩ := a.settle_eq caller resolved
  rw [h]

@[simp] theorem settle_parked : (a.settle caller resolved).parked = a.parked := by
  obtain ⟨_, _, _, h⟩ := a.settle_eq caller resolved
  rw [h]

end

/-- `#doSave` appends the caller's own entry, or saves the state as it is. -/
theorem saveOp_cases (opts : ActorOptions St En Snap) (appends : Bool)
    (a : Activation St Snap En Etag) (caller : Caller En) :
    (∃ entry wanted, caller = .append entry wanted ∧
      a.saveOp opts appends caller = .append entry wanted ∧ a.etag.isSome ∧ appends = true) ∨
    a.saveOp opts appends caller = .save (opts.encode a.state) := by
  cases caller with
  | append entry wanted =>
    simp only [saveOp]
    split
    · rename_i h
      exact .inl ⟨entry, wanted, rfl, rfl, h.2, h.1⟩
    · exact .inr rfl
  | save | clear | flush | finalFlush => exact .inr rfl

/-- The ways one pass of the gate may end. -/
inductive Gated (opts : ActorOptions St En Snap) (appends : Bool)
    (a : Activation St Snap En Etag) (caller : Caller En) : Activation St Snap En Etag → Prop
  /-- What the caller wants is durable. -/
  | durable {wanted : Nat} (hwanted : caller.wanted = some wanted)
      (hsaved : wanted ≤ a.savedVersion) : Gated opts appends a caller (a.settle caller true)
  | parked (hpending : a.pending.isSome) :
      Gated opts appends a caller { a with parked := a.parked ++ [caller] }
  | faulted {wanted : Nat} (hwanted : caller.wanted = some wanted) (hfaulted : a.faulted = true) :
      Gated opts appends a caller (a.settle caller false)
  | saves {wanted : Nat} (hwanted : caller.wanted = some wanted)
      (hsaved : a.savedVersion < wanted) (hpending : a.pending = none)
      (hfaulted : a.faulted = false) :
      Gated opts appends a caller (a.issue caller (a.saveOp opts appends caller))
  | clears (hcaller : caller = .clear) (hpending : a.pending = none) :
      Gated opts appends a caller (a.issue caller .clear)

theorem gated (opts : ActorOptions St En Snap) (appends : Bool)
    (a : Activation St Snap En Etag) (caller : Caller En) :
    Gated opts appends a caller (a.gatedSave opts appends caller) := by
  unfold gatedSave
  split
  · rename_i wanted hwanted
    split
    · rename_i hsaved
      exact .durable hwanted hsaved
    rename_i hsaved
    split
    · rename_i hpending
      exact .parked hpending
    rename_i hpending
    unfold doSave
    split
    · rename_i hfaulted
      exact .faulted hwanted hfaulted
    · rename_i hfaulted
      exact .saves hwanted (Nat.lt_of_not_le hsaved) (by simpa using hpending)
        (by simpa using hfaulted)
  · rename_i hwanted
    have hcaller : caller = .clear := by
      cases caller <;> simp [Caller.wanted] at hwanted ⊢
    split
    · rename_i hpending
      exact .parked hpending
    · rename_i hpending
      exact .clears hcaller (by simpa using hpending)

/-- A caller whose version is durable passes the gate. -/
theorem gatedSave_durable (opts : ActorOptions St En Snap) (appends : Bool)
    (a : Activation St Snap En Etag) {caller : Caller En} {wanted : Nat}
    (hwanted : caller.wanted = some wanted) (hsaved : wanted ≤ a.savedVersion) :
    a.gatedSave opts appends caller = a.settle caller true := by
  simp only [gatedSave, hwanted, hsaved, if_true]

end Activation

end SigxActors.Host
