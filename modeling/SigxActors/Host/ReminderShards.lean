/-
  Host/ReminderShards.lean --- which shard an identity is kept in.

  Source: `packages/actors/src/hash.ts` (`fnv1a`) and
  `packages/actors/src/host/reminder-shards.ts`.
-/

set_option autoImplicit false

namespace SigxActors.Host

def reminderShardCount : Nat := 16

/-- The code units of a string, as `charCodeAt` gives them. -/
def charCodes (input : String) : List UInt32 :=
  input.toList.flatMap fun c =>
    if c.toNat < 0x10000 then [c.toNat.toUInt32]
    else
      let offset := c.toNat - 0x10000
      [(0xd800 + offset / 0x400).toUInt32, (0xdc00 + offset % 0x400).toUInt32]

/-- FNV-1a, 32 bits wide. -/
def fnv1a (input : String) : UInt32 :=
  (charCodes input).foldl (fun hash unit => (hash ^^^ unit) * 0x01000193) 0x811c9dc5

def reminderShardOf (actorId : String) : String :=
  "p" ++ (Nat.repr ((fnv1a actorId).toNat % reminderShardCount))

def reminderShardKeys : List String := (List.range reminderShardCount).map fun i => "p" ++ Nat.repr i

/-- Every identity is in one of the shards. -/
theorem reminderShardOf_mem (actorId : String) : reminderShardOf actorId ∈ reminderShardKeys := by
  refine List.mem_map.2 ⟨(fnv1a actorId).toNat % reminderShardCount, ?_, rfl⟩
  exact List.mem_range.2 (Nat.mod_lt _ (by decide))

end SigxActors.Host
