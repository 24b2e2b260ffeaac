/-
  Storage/Memory.lean --- `memoryStorage`.

  Source: `packages/actors/src/host/storage-memory.ts`.

  One counter serves all records and every write, so no etag is minted twice,
  across clears included.  Etags are decimal numerals of the counter.
-/
import SigxActors.Js.Map
import SigxActors.Storage.CasStore

set_option autoImplicit false

namespace SigxActors.Storage

open SigxActors.Js

/-- `String(n)` of a count. -/
def decimal (n : Nat) : String := n.repr

theorem decimal_injective {n m : Nat} (h : decimal n = decimal m) : n = m := by
  have hdigits : Nat.toDigits 10 n = Nat.toDigits 10 m := by
    rw [← Nat.toList_repr, ← Nat.toList_repr]
    exact congrArg String.toList h
  rw [← Nat.ofDigitChars_ten_toDigits (n := n), hdigits, Nat.ofDigitChars_ten_toDigits]

/-- The two variables of the closure.  Records are kept under `actorId`. -/
structure MemoryDb (Snap En : Type) where
  records : JsMap String (Record Snap En String)
  counter : Nat
  /-- Every etag in the store was minted by the counter. -/
  minted : ∀ id record, records.get id = some record → ∃ n ≤ counter, record.etag = decimal n

namespace MemoryDb

variable {Snap En : Type}

def empty : MemoryDb Snap En where
  records := .empty
  counter := 0
  minted := by
    intro id record h
    simp at h

/-- `existing?.etag ?? null`. -/
def etagOf (db : MemoryDb Snap En) (id : String) : Option String :=
  (db.records.get id).map (·.etag)

/-- `records.set` of a record with the next etag. -/
def put (db : MemoryDb Snap En) (id : String) (state : Snap) (log : List En) :
    MemoryDb Snap En where
  records := db.records.set id ⟨state, decimal (db.counter + 1), log⟩
  counter := db.counter + 1
  minted := by
    intro j record h
    rw [JsMap.get_set] at h
    split at h
    · cases h
      exact ⟨db.counter + 1, Nat.le_refl _, rfl⟩
    · obtain ⟨n, hn, hetag⟩ := db.minted j record h
      exact ⟨n, Nat.le_succ_of_le hn, hetag⟩

def remove (db : MemoryDb Snap En) (id : String) : MemoryDb Snap En where
  records := db.records.erase id
  counter := db.counter
  minted := by
    intro j record h
    rw [JsMap.get_erase] at h
    split at h
    · simp at h
    · exact db.minted j record h

def save (db : MemoryDb Snap En) (id : String) (state : Snap) (expected : Option String) :
    Option (MemoryDb Snap En × String) :=
  if db.etagOf id ≠ expected then none
  else some (db.put id state [], decimal (db.counter + 1))

def appendText (db : MemoryDb Snap En) (id : String) (entry : En) (expected : String) :
    Option (MemoryDb Snap En × String) :=
  match db.records.get id with
  | none => none
  | some existing =>
      if existing.etag ≠ expected then none
      else some (db.put id existing.state (existing.log ++ [entry]), decimal (db.counter + 1))

def clear (db : MemoryDb Snap En) (id : String) (expected : Option String) :
    Option (MemoryDb Snap En) :=
  if (db.records.get id).isNone ∧ expected = none then some db
  else if db.etagOf id ≠ expected then none
  else some (db.remove id)

/-- The counter had not gone past this etag. -/
def Issued (db : MemoryDb Snap En) (_id : String) (etag : String) : Prop :=
  ∃ n ≤ db.counter, etag = decimal n

variable {db db' : MemoryDb Snap En} {id : String} {expected : Option String}

theorem save_eq_some {etag : String} {state : Snap}
    (h : db.save id state expected = some (db', etag)) :
    expected = db.etagOf id ∧ db' = db.put id state [] ∧ etag = decimal (db.counter + 1) := by
  unfold save at h
  split at h
  · simp at h
  rename_i hexp
  obtain ⟨rfl, rfl⟩ := Prod.mk.inj (Option.some.inj h)
  exact ⟨(Decidable.not_not.1 hexp).symm, rfl, rfl⟩

theorem appendText_eq_some {etag expected : String} {entry : En}
    (h : db.appendText id entry expected = some (db', etag)) :
    ∃ existing, db.records.get id = some existing ∧ existing.etag = expected ∧
      db' = db.put id existing.state (existing.log ++ [entry]) ∧
      etag = decimal (db.counter + 1) := by
  unfold appendText at h
  split at h
  · simp at h
  rename_i existing hget
  split at h
  · simp at h
  rename_i hexp
  obtain ⟨rfl, rfl⟩ := Prod.mk.inj (Option.some.inj h)
  exact ⟨existing, hget, Decidable.not_not.1 hexp, rfl, rfl⟩

theorem clear_eq_some (h : db.clear id expected = some db') :
    expected = db.etagOf id ∧
      ((db' = db ∧ db.records.get id = none) ∨ db' = db.remove id) := by
  unfold clear at h
  split at h
  · rename_i hnone
    obtain ⟨hget, rfl⟩ := hnone
    rw [Option.isNone_iff_eq_none] at hget
    refine ⟨?_, .inl ⟨(Option.some.inj h).symm, hget⟩⟩
    rw [etagOf, hget]
    rfl
  · split at h
    · simp at h
    · rename_i hexp
      exact ⟨(Decidable.not_not.1 hexp).symm, .inr (Option.some.inj h).symm⟩

theorem get_put (db : MemoryDb Snap En) (id j : String) (state : Snap) (log : List En) :
    (db.put id state log).records.get j =
      if j = id then some ⟨state, decimal (db.counter + 1), log⟩ else db.records.get j :=
  JsMap.get_set _ _ _ _

theorem get_clear (h : db.clear id expected = some db') (j : String) :
    db'.records.get j = if j = id then none else db.records.get j := by
  obtain ⟨-, ⟨rfl, hnone⟩ | rfl⟩ := clear_eq_some h
  · by_cases hj : j = id
    · rw [if_pos hj, hj, hnone]
    · rw [if_neg hj]
  · exact JsMap.get_erase _ _ _

theorem not_issued_next (db : MemoryDb Snap En) (id : String) :
    ¬ db.Issued id (decimal (db.counter + 1)) := by
  rintro ⟨n, hn, hetag⟩
  have := decimal_injective hetag
  omega

end MemoryDb

/-- `memoryStorage()`. -/
def memoryStorage (Snap En : Type) : CasStore (MemoryDb Snap En) String Snap En String where
  load := fun db id => db.records.get id
  save := MemoryDb.save
  appendText := some MemoryDb.appendText
  clear := MemoryDb.clear

namespace memoryStorage

variable (Snap En : Type)

theorem recordLaws : (memoryStorage Snap En).RecordLaws where
  save_accepts := by
    simp [memoryStorage, MemoryDb.save, CasStore.current, MemoryDb.etagOf]
  load_save := by
    intro db id snap expected db' etag h
    obtain ⟨-, rfl, rfl⟩ := MemoryDb.save_eq_some h
    exact (MemoryDb.get_put db id id snap []).trans (if_pos rfl)
  load_save_frame := by
    intro db id snap expected db' etag h j hj
    obtain ⟨-, rfl, rfl⟩ := MemoryDb.save_eq_some h
    exact (MemoryDb.get_put db id j snap []).trans (if_neg hj)
  append_accepts := by
    intro append db id expected happend hcurrent entry
    cases happend
    simp only [CasStore.current, memoryStorage, Option.map_eq_some_iff] at hcurrent
    obtain ⟨existing, hget, hetag⟩ := hcurrent
    simp [MemoryDb.appendText, hget, hetag]
  load_append := by
    intro append db id entry expected db' etag record happend h hload
    cases happend
    obtain ⟨existing, hget, hetag, rfl, rfl⟩ := MemoryDb.appendText_eq_some h
    cases hget.symm.trans hload
    exact (MemoryDb.get_put db id id _ _).trans (if_pos rfl)
  load_append_frame := by
    intro append db id entry expected db' etag happend h j hj
    cases happend
    obtain ⟨existing, hget, hetag, rfl, rfl⟩ := MemoryDb.appendText_eq_some h
    exact (MemoryDb.get_put db id j _ _).trans (if_neg hj)
  clear_accepts := by
    intro db id
    simp only [memoryStorage, MemoryDb.clear, CasStore.current, MemoryDb.etagOf]
    split
    · rfl
    · simp
  load_clear := by
    intro db id expected db' h
    exact (MemoryDb.get_clear h id).trans (if_pos rfl)
  load_clear_frame := by
    intro db id expected db' h j hj
    exact (MemoryDb.get_clear h j).trans (if_neg hj)

theorem tokenLaws : (memoryStorage Snap En).TokenLaws := by
  have laws := recordLaws Snap En
  refine ⟨?_, ?_, ?_, ?_, ?_, ?_, ?_, ?_, ?_⟩
  · intro db id snap expected db' etag h
    exact (MemoryDb.save_eq_some h).1
  · intro db id snap expected db' etag h
    exact CasStore.current_of_load (laws.load_save h)
  · intro db id snap expected db' etag h j hj
    rw [CasStore.current, CasStore.current, laws.load_save_frame h j hj]
  · intro append db id entry expected db' etag happend h
    obtain rfl := Option.some.inj happend
    obtain ⟨existing, hget, hetag, -, -⟩ := MemoryDb.appendText_eq_some h
    have hcurrent : (memoryStorage Snap En).current db id = some existing.etag :=
      CasStore.current_of_load hget
    rw [hcurrent, hetag]
  · intro append db id entry expected db' etag happend h
    have h' := h
    obtain rfl := Option.some.inj happend
    obtain ⟨existing, hget, -, -, -⟩ := MemoryDb.appendText_eq_some h'
    exact CasStore.current_of_load (laws.load_append happend h hget)
  · intro append db id entry expected db' etag happend h j hj
    rw [CasStore.current, CasStore.current, laws.load_append_frame happend h j hj]
  · intro db id expected db' h
    exact (MemoryDb.clear_eq_some h).1
  · intro db id expected db' h
    exact CasStore.current_eq_none (laws.load_clear h)
  · intro db id expected db' h j hj
    rw [CasStore.current, CasStore.current, laws.load_clear_frame h j hj]

/-- Etags are unique per write. -/
theorem uniqueEtags : (memoryStorage Snap En).UniqueEtags MemoryDb.Issued where
  current_issued := by
    intro db id etag hcurrent
    simp only [CasStore.current, memoryStorage, Option.map_eq_some_iff] at hcurrent
    obtain ⟨record, hget, rfl⟩ := hcurrent
    exact db.minted id record hget
  save_fresh := by
    intro db id snap expected db' etag h
    obtain ⟨-, -, rfl⟩ := MemoryDb.save_eq_some h
    exact db.not_issued_next id
  append_fresh := by
    intro append db id entry expected db' etag happend h
    cases happend
    obtain ⟨existing, -, -, -, rfl⟩ := MemoryDb.appendText_eq_some h
    exact db.not_issued_next id
  save_keeps := by
    intro db id snap expected db' etag h j other hissued
    obtain ⟨-, rfl, -⟩ := MemoryDb.save_eq_some h
    obtain ⟨n, hn, hetag⟩ := hissued
    exact ⟨n, Nat.le_succ_of_le hn, hetag⟩
  append_keeps := by
    intro append db id entry expected db' etag happend h j other hissued
    cases happend
    obtain ⟨existing, -, -, rfl, -⟩ := MemoryDb.appendText_eq_some h
    obtain ⟨n, hn, hetag⟩ := hissued
    exact ⟨n, Nat.le_succ_of_le hn, hetag⟩
  clear_keeps := by
    intro db id expected db' h j other hissued
    obtain ⟨-, ⟨rfl, -⟩ | rfl⟩ := MemoryDb.clear_eq_some h
    · exact hissued
    · exact hissued

/-- So an accepted write changes the etag. -/
theorem renewingLaws : (memoryStorage Snap En).RenewingLaws where
  save_renews := by
    intro db id snap expected db' etag h heq
    have hcurrent := (tokenLaws Snap En).save_expected h
    exact (uniqueEtags Snap En).save_fresh h
      ((uniqueEtags Snap En).current_issued (hcurrent.symm.trans heq))
  append_renews := by
    intro append db id entry expected db' etag happend h heq
    have hcurrent := (tokenLaws Snap En).append_expected happend h
    exact (uniqueEtags Snap En).append_fresh happend h
      ((uniqueEtags Snap En).current_issued (heq ▸ hcurrent.symm))

end memoryStorage

/-- **The store in memory keeps the contract of a store**: it takes a write just when the etag is the
current one and touches no other record, what is loaded is what was written, and no etag is minted
twice, not even once its record was cleared. -/
theorem memoryStorage_contract (Snap En : Type) : (memoryStorage Snap En).TokenLaws ∧
    (memoryStorage Snap En).RecordLaws ∧ (memoryStorage Snap En).RenewingLaws ∧
    (memoryStorage Snap En).UniqueEtags MemoryDb.Issued :=
  ⟨memoryStorage.tokenLaws Snap En, memoryStorage.recordLaws Snap En,
    memoryStorage.renewingLaws Snap En, memoryStorage.uniqueEtags Snap En⟩

end SigxActors.Storage
