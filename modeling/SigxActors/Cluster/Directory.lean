/-
  Cluster/Directory.lean --- the activation directory.

  Source: `packages/actors/src/cluster/memory.ts` (`memoryClusterHub`), the
  reference implementation of `ActorDirectory`.

  Each operation is atomic.  `claim` is create-if-absent and answers the winning
  entry; `release` and `evict` are compare-and-delete on the activation id, which
  is all that keeps a slow one from removing a successor's entry; `evictHost`
  deletes by host.  Each operation has one lemma that says what the directory
  holds afterwards, for every id.
-/
import SigxActors.Js.Map
import SigxActors.Types

set_option autoImplicit false

namespace SigxActors.Cluster

open SigxActors.Js

/-- The shared `entries` map, by actor id. -/
abbrev ActorDirectory := JsMap String DirectoryEntry

namespace ActorDirectory

/-- `lookup(actorId)`. -/
def lookup (entries : ActorDirectory) (actorId : String) : Option DirectoryEntry :=
  entries.get actorId

/-- `claim(actorId, mine)`: the winning entry, and the directory after. -/
def claim (entries : ActorDirectory) (actorId : String) (mine : DirectoryEntry) :
    DirectoryEntry × ActorDirectory :=
  match entries.get actorId with
  | some existing => (existing, entries)
  | none => (mine, entries.set actorId mine)

/-- `release(actorId, expected)`. -/
def release (entries : ActorDirectory) (actorId : String) (expected : DirectoryEntry) :
    ActorDirectory :=
  if (entries.get actorId).map (·.activationId) = some expected.activationId then
    entries.erase actorId
  else entries

/-- `evict(actorId, expected)`: whether an entry was removed, and the directory
after. -/
def evict (entries : ActorDirectory) (actorId : String) (expected : DirectoryEntry) :
    Bool × ActorDirectory :=
  if (entries.get actorId).map (·.activationId) = some expected.activationId then
    (true, entries.erase actorId)
  else (false, entries)

/-- `evictHost(hostId)`: the number removed, and the directory after. -/
def evictHost (entries : ActorDirectory) (hostId : String) : Nat × ActorDirectory :=
  ((entries.entries.filter (fun p => p.2.hostId = hostId)).length,
    entries.filter (fun _ entry => entry.hostId ≠ hostId))

/-! ## What each operation leaves -/

theorem claim_winner (entries : ActorDirectory) (id : String) (mine : DirectoryEntry) :
    (entries.claim id mine).1 = (entries.get id).getD mine := by
  unfold claim
  cases entries.get id <;> rfl

theorem get_claim (entries : ActorDirectory) (id j : String) (mine : DirectoryEntry) :
    (entries.claim id mine).2.get j =
      if j = id then some ((entries.get id).getD mine) else entries.get j := by
  unfold claim
  cases h : entries.get id with
  | none => simp [JsMap.get_set]
  | some existing =>
    by_cases hj : j = id
    · simp [hj, h]
    · simp [hj]

variable {entries : ActorDirectory} {entry : DirectoryEntry}

/-- A claim overwrites nothing. -/
theorem get_claim_of_some {id j : String} {mine : DirectoryEntry}
    (hget : entries.get j = some entry) : (entries.claim id mine).2.get j = some entry := by
  rw [get_claim]
  by_cases hj : j = id
  · rw [if_pos hj, ← hj, hget, Option.getD_some]
  · rw [if_neg hj, hget]

theorem get_release (entries : ActorDirectory) (id j : String) (expected : DirectoryEntry) :
    (entries.release id expected).get j =
      if j = id ∧ (entries.get id).map (·.activationId) = some expected.activationId then none
      else entries.get j := by
  unfold release
  by_cases hmatch : (entries.get id).map (·.activationId) = some expected.activationId
  · simp [hmatch, JsMap.get_erase]
  · simp [hmatch]

/-- `release` and `evict` are the same compare-and-delete. -/
theorem evict_snd (entries : ActorDirectory) (id : String) (expected : DirectoryEntry) :
    (entries.evict id expected).2 = entries.release id expected := by
  unfold evict release
  split <;> rfl

theorem evict_fst (entries : ActorDirectory) (id : String) (expected : DirectoryEntry) :
    (entries.evict id expected).1 = true ↔
      (entries.get id).map (·.activationId) = some expected.activationId := by
  unfold evict
  split <;> simp_all

theorem get_evictHost (entries : ActorDirectory) (hostId j : String) :
    (entries.evictHost hostId).2.get j =
      (entries.get j).filter (fun entry => entry.hostId ≠ hostId) := by
  simp [evictHost, JsMap.get_filter]

theorem get_of_get_release {id j : String} {expected : DirectoryEntry}
    (h : (entries.release id expected).get j = some entry) : entries.get j = some entry := by
  rw [get_release] at h
  split at h
  · simp at h
  · exact h

/-- A compare-and-delete leaves every entry that does not carry the expected
activation id. -/
theorem get_release_of_ne {id j : String} {expected : DirectoryEntry}
    (hget : entries.get j = some entry) (hne : j ≠ id ∨ entry.activationId ≠ expected.activationId) :
    (entries.release id expected).get j = some entry := by
  rw [get_release, if_neg, hget]
  rintro ⟨rfl, hmatch⟩
  rw [hget] at hmatch
  simp only [Option.map_some, Option.some.injEq] at hmatch
  exact hne.elim (fun h => h rfl) (fun h => h hmatch)

end ActorDirectory

end SigxActors.Cluster
