/-
  Storage/CasStore.lean --- the compare-and-set contract of an actor store.

  Source: `packages/actors/src/types.ts` (`ActorStorage`).

  A record is a snapshot and the log of the entries appended since, under one
  etag.  Every write names the etag its writer holds and is refused unless it is
  the record's current one; an accepted write mints the next.  An adapter is a
  value of `CasStore`; what it promises is split, because the promises are not
  all kept by every adapter and no proof needs all of them:

  `TokenLaws`    which etag is current after a write, and that an accepted write
                 named the current one;
  `RecordLaws`   what a load returns, and that the current etag is accepted;
  `RenewingLaws` an accepted write changes the etag;
  `UniqueEtags`  no etag is ever minted twice.
-/

set_option autoImplicit false

namespace SigxActors.Storage

/-- How a request goes: it is answered, it fails, or it is carried out and its answer
is lost. -/
inductive Fault where
  | none
  | failed
  | lost
  deriving DecidableEq, Repr

/-- What `load` returns: the last full save, the current etag, and the entries
appended since, oldest first. -/
structure Record (Snap En Etag : Type) where
  state : Snap
  etag : Etag
  log : List En
  deriving DecidableEq, Repr

/-- An adapter over a database `σ`.  `none` from a write is the conflict. -/
structure CasStore (σ Id Snap En Etag : Type) where
  load : σ → Id → Option (Record Snap En Etag)
  save : σ → Id → Snap → Option Etag → Option (σ × Etag)
  /-- Absent where an append would be a rewrite. -/
  appendText : Option (σ → Id → En → Etag → Option (σ × Etag))
  clear : σ → Id → Option Etag → Option σ

namespace CasStore

variable {σ Id Snap En Etag : Type}

/-- The record's current etag; `none` without a record. -/
def current (store : CasStore σ Id Snap En Etag) (db : σ) (id : Id) : Option Etag :=
  (store.load db id).map (·.etag)

variable (store : CasStore σ Id Snap En Etag)

/-- The etag side of the contract. -/
structure TokenLaws : Prop where
  save_expected : ∀ {db id snap expected db' etag},
    store.save db id snap expected = some (db', etag) → expected = store.current db id
  save_current : ∀ {db id snap expected db' etag},
    store.save db id snap expected = some (db', etag) → store.current db' id = some etag
  save_frame : ∀ {db id snap expected db' etag},
    store.save db id snap expected = some (db', etag) →
    ∀ j, j ≠ id → store.current db' j = store.current db j
  append_expected : ∀ {append db id entry expected db' etag},
    store.appendText = some append → append db id entry expected = some (db', etag) →
    some expected = store.current db id
  append_current : ∀ {append db id entry expected db' etag},
    store.appendText = some append → append db id entry expected = some (db', etag) →
    store.current db' id = some etag
  append_frame : ∀ {append db id entry expected db' etag},
    store.appendText = some append → append db id entry expected = some (db', etag) →
    ∀ j, j ≠ id → store.current db' j = store.current db j
  clear_expected : ∀ {db id expected db'},
    store.clear db id expected = some db' → expected = store.current db id
  clear_current : ∀ {db id expected db'},
    store.clear db id expected = some db' → store.current db' id = none
  clear_frame : ∀ {db id expected db'},
    store.clear db id expected = some db' →
    ∀ j, j ≠ id → store.current db' j = store.current db j

/-- The record side of the contract. -/
structure RecordLaws : Prop where
  save_accepts : ∀ db id snap, (store.save db id snap (store.current db id)).isSome
  load_save : ∀ {db id snap expected db' etag},
    store.save db id snap expected = some (db', etag) →
    store.load db' id = some ⟨snap, etag, []⟩
  load_save_frame : ∀ {db id snap expected db' etag},
    store.save db id snap expected = some (db', etag) →
    ∀ j, j ≠ id → store.load db' j = store.load db j
  append_accepts : ∀ {append db id expected},
    store.appendText = some append → store.current db id = some expected →
    ∀ entry, (append db id entry expected).isSome
  load_append : ∀ {append db id entry expected db' etag record},
    store.appendText = some append → append db id entry expected = some (db', etag) →
    store.load db id = some record →
    store.load db' id = some { record with etag := etag, log := record.log ++ [entry] }
  load_append_frame : ∀ {append db id entry expected db' etag},
    store.appendText = some append → append db id entry expected = some (db', etag) →
    ∀ j, j ≠ id → store.load db' j = store.load db j
  clear_accepts : ∀ db id, (store.clear db id (store.current db id)).isSome
  load_clear : ∀ {db id expected db'},
    store.clear db id expected = some db' → store.load db' id = none
  load_clear_frame : ∀ {db id expected db'},
    store.clear db id expected = some db' → ∀ j, j ≠ id → store.load db' j = store.load db j

/-- An accepted save or append leaves another etag than it found. -/
structure RenewingLaws : Prop where
  save_renews : ∀ {db id snap expected db' etag},
    store.save db id snap expected = some (db', etag) → expected ≠ some etag
  append_renews : ∀ {append db id entry expected db' etag},
    store.appendText = some append → append db id entry expected = some (db', etag) →
    expected ≠ etag

/-- `Issued db id etag` says that the store has minted `etag` for `id`, before
whatever clear: no write mints it again. -/
structure UniqueEtags (Issued : σ → Id → Etag → Prop) : Prop where
  current_issued : ∀ {db id etag}, store.current db id = some etag → Issued db id etag
  save_fresh : ∀ {db id snap expected db' etag},
    store.save db id snap expected = some (db', etag) → ¬ Issued db id etag
  append_fresh : ∀ {append db id entry expected db' etag},
    store.appendText = some append → append db id entry expected = some (db', etag) →
    ¬ Issued db id etag
  save_keeps : ∀ {db id snap expected db' etag},
    store.save db id snap expected = some (db', etag) →
    ∀ j other, Issued db j other → Issued db' j other
  append_keeps : ∀ {append db id entry expected db' etag},
    store.appendText = some append → append db id entry expected = some (db', etag) →
    ∀ j other, Issued db j other → Issued db' j other
  clear_keeps : ∀ {db id expected db'},
    store.clear db id expected = some db' → ∀ j other, Issued db j other → Issued db' j other

/-- The same of a record that is only ever saved: also where a record that is created
again would start over. -/
structure UniqueSaves (Issued : σ → Id → Etag → Prop) : Prop where
  current_issued : ∀ {db id etag}, store.current db id = some etag → Issued db id etag
  save_fresh : ∀ {db id snap expected db' etag},
    store.save db id snap expected = some (db', etag) → ¬ Issued db id etag
  save_keeps : ∀ {db id snap expected db' etag},
    store.save db id snap expected = some (db', etag) →
    ∀ j other, Issued db j other → Issued db' j other

variable {store}

theorem UniqueEtags.uniqueSaves {Issued : σ → Id → Etag → Prop}
    (unique : store.UniqueEtags Issued) : store.UniqueSaves Issued :=
  { unique with }

/-- What is loaded carries the current etag. -/
theorem current_of_load {db : σ} {id : Id} {record : Record Snap En Etag}
    (h : store.load db id = some record) : store.current db id = some record.etag := by
  rw [current, h]
  rfl

theorem current_eq_none {db : σ} {id : Id} (h : store.load db id = none) :
    store.current db id = none := by
  rw [current, h]
  rfl

/-! ## What a writer has seen -/

section

variable {Issued : σ → Id → Etag → Prop} {db db' : σ} {id id' : Id} {record : Record Snap En Etag}

/-- The record was the current one when it was loaded: as long as its etag is, it is. -/
def Seen (store : CasStore σ Id Snap En Etag) (Issued : σ → Id → Etag → Prop) (db : σ) (id : Id)
    (record : Record Snap En Etag) : Prop :=
  Issued db id record.etag ∧
    ∀ current, store.load db id = some current → current.etag = record.etag → current = record

theorem UniqueEtags.seen_of_load (unique : store.UniqueEtags Issued)
    (h : store.load db id = some record) : store.Seen Issued db id record := by
  refine ⟨unique.current_issued (current_of_load h), ?_⟩
  intro current hcurrent _
  exact Option.some.inj (hcurrent.symm.trans h)

section

variable (laws : store.RecordLaws) (unique : store.UniqueEtags Issued)
    (h : store.Seen Issued db id record)
include laws unique h

theorem Seen.save [DecidableEq Id] {snap : Snap} {expected : Option Etag} {etag : Etag}
    (hsave : store.save db id' snap expected = some (db', etag)) :
    store.Seen Issued db' id record := by
  refine ⟨unique.save_keeps hsave id _ h.1, ?_⟩
  intro current hcurrent hetag
  by_cases hid : id = id'
  · subst hid
    rw [laws.load_save hsave] at hcurrent
    cases hcurrent
    have hminted : etag = record.etag := hetag
    exact absurd (hminted ▸ h.1) (unique.save_fresh hsave)
  · rw [laws.load_save_frame hsave id hid] at hcurrent
    exact h.2 current hcurrent hetag

theorem Seen.clear [DecidableEq Id] {expected : Option Etag}
    (hclear : store.clear db id' expected = some db') : store.Seen Issued db' id record := by
  refine ⟨unique.clear_keeps hclear id _ h.1, ?_⟩
  intro current hcurrent hetag
  by_cases hid : id = id'
  · subst hid
    rw [laws.load_clear hclear] at hcurrent
    simp at hcurrent
  · rw [laws.load_clear_frame hclear id hid] at hcurrent
    exact h.2 current hcurrent hetag

end

end

end CasStore

end SigxActors.Storage
