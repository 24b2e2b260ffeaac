/-
  Host/SharedRecord.lean --- any number of activations of one actor over its
  record.

  The activations are indexed by `ι` and run the code of `Persistence`; the store
  executes one call at a time.  Records of other actors are written as well, since
  a store may mint its etags from what they share.
-/
import SigxActors.Machine.Transition
import SigxActors.Host.Persistence

set_option autoImplicit false

namespace SigxActors.Host

open SigxActors.Storage

variable {σ Id ι St Snap En Etag : Type}

structure SharedState (σ ι St Snap En Etag : Type) where
  storage : StorageState σ
  acts : ι → Activation St Snap En Etag

inductive SharedLabel (Id ι St Snap En Etag : Type) where
  | act (i : ι) (e : Event St En)
  /-- A write to the record of another actor. -/
  | elsewhere (other : Id) (op : WriteOp Snap En) (expected : Option Etag)

namespace SharedState

/-- The database after a write to another record. -/
def writeElsewhere (store : CasStore σ Id Snap En Etag) (s : StorageState σ) (other : Id)
    (op : WriteOp Snap En) (expected : Option Etag) : StorageState σ :=
  { s with db := (s.perform store other op (expected.map fun etag => ⟨etag, 0⟩)).1.db }

def step [DecidableEq Id] [DecidableEq ι] (store : CasStore σ Id Snap En Etag)
    (opts : ActorOptions St En Snap) (id : Id) (s : SharedState σ ι St Snap En Etag) :
    SharedLabel Id ι St Snap En Etag → Option (SharedState σ ι St Snap En Etag)
  | .act i e =>
      match (s.acts i).step store opts id s.storage e with
      | some done =>
          some { storage := done.1, acts := fun j => if j = i then done.2 else s.acts j }
      | none => none
  | .elsewhere other op expected =>
      if other = id then none
      else some { s with storage := writeElsewhere store s.storage other op expected }

end SharedState

/-- The activations `ι` of the actor `id`, none created yet, over any database. -/
def sharedRecord [DecidableEq Id] [DecidableEq ι] (store : CasStore σ Id Snap En Etag)
    (opts : ActorOptions St En Snap) (id : Id) :
    Machine.System (SharedState σ ι St Snap En Etag) (SharedLabel Id ι St Snap En Etag) where
  initial := fun s =>
    s.storage.writes = 0 ∧ s.acts = fun _ => { state := opts.state }
  step := SharedState.step store opts id

/-- A step is an event of one activation, or a write elsewhere. -/
theorem sharedRecord_cases [DecidableEq Id] [DecidableEq ι] {store : CasStore σ Id Snap En Etag}
    {opts : ActorOptions St En Snap} {id : Id} {s t : SharedState σ ι St Snap En Etag}
    {l : SharedLabel Id ι St Snap En Etag} (h : (sharedRecord store opts id).step s l = some t) :
    (∃ i e storage' a', l = .act i e ∧
      (s.acts i).step store opts id s.storage e = some (storage', a') ∧
      t = { storage := storage', acts := fun j => if j = i then a' else s.acts j }) ∨
    ∃ other op expected, l = .elsewhere other op expected ∧ other ≠ id ∧
      t = { s with storage := SharedState.writeElsewhere store s.storage other op expected } := by
  cases l with
  | act i e =>
    simp only [sharedRecord, SharedState.step] at h
    split at h
    · rename_i done hdone
      exact .inl ⟨i, e, done.1, done.2, rfl, hdone, (Option.some.inj h).symm⟩
    · simp at h
  | elsewhere other op expected =>
    obtain ⟨hother, h⟩ := guard_past h
    exact .inr ⟨other, op, expected, rfl, hother, (Option.some.inj h).symm⟩

/-! ## What the store does with a write -/

/-- The ways a write may end. -/
inductive Performed (store : CasStore σ Id Snap En Etag) (id : Id) (s : StorageState σ)
    (op : WriteOp Snap En) (expected : Option (Token Etag)) :
    StorageState σ × Answer Etag → Prop
  | refused : Performed store id s op expected (s, .conflict)
  | saved {state : Snap} {db : σ} {etag : Etag} (hop : op = .save state)
      (h : store.save s.db id state (expected.map (·.etag)) = some (db, etag)) :
      Performed store id s op expected (⟨db, s.writes + 1⟩, .stored ⟨etag, s.writes + 1⟩)
  | appended {entry : En} {wanted : Nat} {token : Token Etag}
      {append : σ → Id → En → Etag → Option (σ × Etag)} {db : σ} {etag : Etag}
      (hop : op = .append entry wanted) (hexpected : expected = some token)
      (happend : store.appendText = some append)
      (h : append s.db id entry token.etag = some (db, etag)) :
      Performed store id s op expected (⟨db, s.writes + 1⟩, .stored ⟨etag, s.writes + 1⟩)
  | cleared {db : σ} (hop : op = .clear)
      (h : store.clear s.db id (expected.map (·.etag)) = some db) :
      Performed store id s op expected (⟨db, s.writes + 1⟩, .cleared)

theorem performed (store : CasStore σ Id Snap En Etag) (id : Id) (s : StorageState σ)
    (op : WriteOp Snap En) (expected : Option (Token Etag)) :
    Performed store id s op expected (s.perform store id op expected) := by
  unfold StorageState.perform
  split
  · split
    · rename_i h
      exact .saved rfl h
    · exact .refused
  · split
    · rename_i append token happend
      split
      · rename_i h
        exact .appended rfl rfl happend h
      · exact .refused
    · exact .refused
  · split
    · rename_i h
      exact .cleared rfl h
    · exact .refused

end SigxActors.Host
