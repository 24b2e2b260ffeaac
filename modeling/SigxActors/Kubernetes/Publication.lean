/-
  Kubernetes/Publication.lean --- what a host publishes of itself in its Lease.

  Source: `renew` and `setStatus` of `packages/actors-k8s/src/membership.ts`.

  One flag stands for all the patches on the wire.  A renewal that was sent before a status
  change clears it, whatever becomes of the patch of the change; and a patch that is
  overtaken puts an older descriptor back.

  Left out are `leave()`, which ends it, and the clock.
-/
import SigxActors.Cluster.Membership

set_option autoImplicit false

namespace SigxActors.Kubernetes

open SigxActors.Cluster

variable {D : Type}

/-- A patch of the Lease. -/
structure Patch (D : Type) where
  /-- The descriptor that goes along. -/
  descriptor : Option (HostDescriptor D)
  /-- How many status changes there had been. -/
  issuedAt : Nat
  landed : Bool := false
  /-- It will not land. -/
  dropped : Bool := false
  /-- It was answered, or has failed. -/
  settled : Bool := false
  deriving DecidableEq, Repr

/-- The patch is in flight. -/
def Patch.inFlight (patch : Patch D) : Bool :=
  !patch.settled || !(patch.landed || patch.dropped)

structure Publication (D : Type) where
  self : HostDescriptor D
  descriptorDirty : Bool := false
  /-- What the Lease holds, if there is one. -/
  stored : Option (HostDescriptor D) := some self
  patches : List (Patch D) := []
  changes : Nat := 0

namespace Publication

variable (s : Publication D)

inductive Label where
  | renew
  | setStatus (status : HostStatus)
  /-- A patch reaches the API server. -/
  | land (k : Nat)
  | drop (k : Nat)
  /-- The answer is that it was done. -/
  | ack (k : Nat)
  /-- There is none, or it is another. -/
  | fail (k : Nat)
  /-- Someone deletes the Lease. -/
  | delete

/-- A patch is sent. -/
def patch (descriptor : Option (HostDescriptor D)) : Publication D :=
  { s with patches := s.patches ++ [{ descriptor := descriptor, issuedAt := s.changes }] }

def renew : Publication D := s.patch (if s.descriptorDirty then some s.self else none)

def setStatus (status : HostStatus) : Publication D :=
  let self := { s.self with status := status }
  { s with self := self, descriptorDirty := true, changes := s.changes + 1 }.patch (some self)

def step : Label → Option (Publication D)
  | .renew => some s.renew
  | .setStatus status => some (s.setStatus status)
  | .land k =>
      match s.patches[k]? with
      | some patch =>
          if patch.landed || patch.dropped || s.stored.isNone then none
          else
            some
              { s with
                patches := s.patches.set k { patch with landed := true }
                stored := patch.descriptor.or s.stored }
      | none => none
  | .drop k =>
      match s.patches[k]? with
      | some patch =>
          if patch.landed then none
          else some { s with patches := s.patches.set k { patch with dropped := true } }
      | none => none
  | .ack k =>
      match s.patches[k]? with
      | some patch =>
          if patch.landed && !patch.settled then
            some
              { s with
                patches := s.patches.set k { patch with settled := true }
                descriptorDirty := false }
          else none
      | none => none
  | .fail k =>
      match s.patches[k]? with
      | some patch =>
          if patch.settled then none
          else some { s with patches := s.patches.set k { patch with settled := true } }
      | none => none
  | .delete => some { s with stored := none }

/-- The host has joined: its Lease is there. -/
def initial (s : Publication D) : Prop := ∃ self, s = { self := self }

end Publication

/-- The machine of one host's Lease. -/
def publication (D : Type) : Machine.System (Publication D) Publication.Label where
  initial := Publication.initial
  step := Publication.step

namespace Publication

variable {s t : Publication D} {k : Nat}

/-- The Lease, if there is one, holds what the host is. -/
def Holds (s : Publication D) : Prop := ∀ descriptor ∈ s.stored, descriptor = s.self

instance [DecidableEq D] (s : Publication D) : Decidable s.Holds :=
  inferInstanceAs (Decidable (∀ descriptor ∈ s.stored, _))

/-- With no patch in flight and the flag clear, the Lease holds what the host is. -/
def Honest (s : Publication D) : Prop :=
  (∀ patch ∈ s.patches, patch.inFlight = false) → s.descriptorDirty = false → s.Holds

/-- No patch of before a status change is answered after it, and none puts an older descriptor in
place of the present one; unless that is what the Lease holds anyway, or does not hold. -/
def Clear (s : Publication D) : Label → Prop
  | .ack k => ∀ patch ∈ s.patches[k]?, patch.issuedAt = s.changes ∨ s.Holds
  | .land k => ∀ patch ∈ s.patches[k]?, ∀ descriptor ∈ patch.descriptor,
      s.Holds → descriptor = s.self
  | _ => True

/-! ## The invariant -/

/-- What a patch that was sent since the last change tells of the Lease. -/
structure PatchKept (patch : Patch D) (s : Publication D) : Prop where
  issued : patch.issuedAt ≤ s.changes
  /-- It carries the descriptor, or that was there. -/
  carries : patch.issuedAt = s.changes → patch.descriptor = some s.self ∨ s.Holds
  landed : patch.issuedAt = s.changes → patch.landed = true → s.Holds

structure Kept (s : Publication D) : Prop where
  patches : ∀ patch ∈ s.patches, PatchKept patch s
  clean : s.descriptorDirty = false → s.Holds

variable {patch : Patch D}

theorem PatchKept.of_holds (h : PatchKept patch s) (hchanges : t.changes = s.changes)
    (hself : t.self = s.self) (hholds : s.Holds → t.Holds) : PatchKept patch t where
  issued := hchanges ▸ h.issued
  carries hissued := by
    rw [hself]
    exact (h.carries (hissued.trans hchanges)).imp id hholds
  landed hissued hlanded := hholds (h.landed (hissued.trans hchanges) hlanded)

/-- A patch changes, and the Lease is as good as it was. -/
theorem Kept.set (h : s.Kept) (hpatch : PatchKept patch t)
    (hpatches : t.patches = s.patches.set k patch) (hchanges : t.changes = s.changes)
    (hself : t.self = s.self) (hholds : s.Holds → t.Holds)
    (hclean : t.descriptorDirty = false → t.Holds) : t.Kept where
  patches old hmem := by
    rw [hpatches] at hmem
    obtain hmem | rfl := List.mem_or_eq_of_mem_set hmem
    · exact (h.patches old hmem).of_holds hchanges hself hholds
    · exact hpatch
  clean := hclean

theorem Kept.renew (h : s.Kept) : s.renew.Kept where
  patches patch hmem := by
    obtain hmem | hmem := List.mem_append.1 hmem
    · exact (h.patches patch hmem).of_holds rfl rfl id
    obtain rfl := List.mem_singleton.1 hmem
    refine ⟨Nat.le_refl _, fun _ => ?_, fun _ => nofun⟩
    cases hdirty : s.descriptorDirty with
    | false => exact .inr (h.clean hdirty)
    | true => exact .inl rfl
  clean := h.clean

theorem Kept.setStatus (h : s.Kept) (status : HostStatus) : (s.setStatus status).Kept where
  patches patch hmem := by
    obtain hmem | hmem := List.mem_append.1 hmem
    · have hissued := (h.patches patch hmem).issued
      refine ⟨Nat.le_succ_of_le hissued, fun hsame => ?_, fun hsame => ?_⟩
      all_goals exact absurd hsame (Nat.ne_of_lt (Nat.lt_succ_of_le hissued))
    · obtain rfl := List.mem_singleton.1 hmem
      exact ⟨Nat.le_refl _, fun _ => .inl rfl, fun _ => nofun⟩
  clean := nofun

theorem Kept.land (h : s.Kept) (hget : s.patches[k]? = some patch)
    (hclear : ∀ descriptor ∈ patch.descriptor, s.Holds → descriptor = s.self) :
    Kept
      { s with
        patches := s.patches.set k { patch with landed := true }
        stored := patch.descriptor.or s.stored } := by
  have hpatch := h.patches patch (List.mem_of_getElem? hget)
  have hholds : s.Holds → Holds { s with stored := patch.descriptor.or s.stored } := by
    intro hholds descriptor hmem
    cases hdescriptor : patch.descriptor with
    | none =>
      rw [hdescriptor] at hmem
      exact hholds descriptor hmem
    | some carried =>
      rw [hdescriptor] at hmem
      obtain rfl := Option.some.inj hmem
      exact hclear carried hdescriptor hholds
  have hcarried : patch.issuedAt = s.changes →
      Holds { s with stored := patch.descriptor.or s.stored } := by
    intro hissued
    obtain hcarries | hheld := hpatch.carries hissued
    · intro descriptor hmem
      rw [hcarries] at hmem
      exact (Option.some.inj hmem).symm
    · exact hholds hheld
  refine h.set (?_ : PatchKept { patch with landed := true } _) rfl rfl rfl hholds
    fun hclean => hholds (h.clean hclean)
  exact ⟨hpatch.issued, fun hissued => .inr (hcarried hissued), fun hissued _ => hcarried hissued⟩

theorem Kept.ack (h : s.Kept) (hget : s.patches[k]? = some patch) (hlanded : patch.landed = true)
    (hclear : patch.issuedAt = s.changes ∨ s.Holds) :
    Kept
      { s with
        patches := s.patches.set k { patch with settled := true }
        descriptorDirty := false } := by
  have hpatch := h.patches patch (List.mem_of_getElem? hget)
  have hholds : s.Holds := hclear.elim (fun hissued => hpatch.landed hissued hlanded) id
  refine h.set (?_ : PatchKept { patch with settled := true } _) rfl rfl rfl id fun _ => hholds
  exact { hpatch with }

/-- The step lemma. -/
theorem Kept.step (h : s.Kept) {l : Label} (hclear : s.Clear l) (hstep : s.step l = some t) :
    t.Kept := by
  cases l with
  | renew =>
    cases hstep
    exact h.renew
  | setStatus status =>
    cases hstep
    exact h.setStatus status
  | land k =>
    dsimp only [Publication.step] at hstep
    split at hstep
    · rename_i patch hget
      obtain ⟨-, rfl⟩ := guard_past_taken hstep
      exact h.land hget (hclear patch hget)
    · cases hstep
  | drop k =>
    dsimp only [Publication.step] at hstep
    split at hstep
    · rename_i patch hget
      obtain ⟨-, rfl⟩ := guard_past_taken hstep
      have hpatch := h.patches patch (List.mem_of_getElem? hget)
      refine h.set (?_ : PatchKept { patch with dropped := true } _) rfl rfl rfl id h.clean
      exact { hpatch with }
    · cases hstep
  | ack k =>
    dsimp only [Publication.step] at hstep
    split at hstep
    · rename_i patch hget
      obtain ⟨hanswered, rfl⟩ := guard_taken hstep
      exact h.ack hget (Bool.and_eq_true_iff.1 hanswered).1 (hclear patch hget)
    · cases hstep
  | fail k =>
    dsimp only [Publication.step] at hstep
    split at hstep
    · rename_i patch hget
      obtain ⟨-, rfl⟩ := guard_past_taken hstep
      have hpatch := h.patches patch (List.mem_of_getElem? hget)
      refine h.set (?_ : PatchKept { patch with settled := true } _) rfl rfl rfl id h.clean
      exact { hpatch with }
    · cases hstep
  | delete =>
    cases hstep
    refine ⟨fun patch hmem => (h.patches patch hmem).of_holds rfl rfl ?_, ?_⟩
    all_goals exact fun _ => nofun

theorem kept_initial (h : s.initial) : s.Kept := by
  obtain ⟨self, rfl⟩ := h
  refine ⟨nofun, fun _ descriptor hmem => ?_⟩
  exact (Option.some.inj hmem).symm

instance [DecidableEq D] (s : Publication D) (l : Label) : Decidable (s.Clear l) := by
  unfold Clear
  cases l <;> infer_instance

end Publication

/-- **The Lease is honest**, in every run in which no patch of before a status change is answered
after it, and none puts an older descriptor in place of the present one. -/
theorem honest_of_clear {D : Type} {s : Publication D}
    (h : (publication D).Reach Publication.Clear s) : s.Honest := by
  have hkept : s.Kept := by
    refine h.invariant (fun _ => Publication.kept_initial) ?_
    intro s l t hs hok hstep
    exact hs.step hok hstep
  exact fun _ => hkept.clean

/-! ## A host drains -/

/-- An active host. -/
def active : HostDescriptor Unit := ⟨"a", .active, ()⟩

/-- The patch of the change is lost, and the next renewal carries it. -/
theorem honest_drained :
    ∃ s : Publication Unit, (publication Unit).Reach Publication.Clear s ∧
      s.stored = some { active with status := .leaving } ∧ s.Honest := by
  have hstart : (publication Unit).Reach Publication.Clear { self := active } := .start ⟨_, rfl⟩
  have hrun := hstart.exec_get
    [.renew, .land 0, .ack 0, .setStatus .leaving, .drop 1, .fail 1, .renew, .land 2, .ack 2]
    (by decide)
  exact ⟨_, hrun, by decide, honest_of_clear hrun⟩

/-- A renewal is on the wire when the host drains.  Its answer clears the flag, and the patch of the
change is lost. -/
theorem not_honest :
    ¬ ∀ s : Publication Unit, (publication Unit).Reachable s → s.Honest := by
  intro h
  have hstart : (publication Unit).Reachable { self := active } := .start ⟨_, rfl⟩
  have hrun := hstart.exec_get
    [.renew, .setStatus .leaving, .land 0, .ack 0, .drop 1, .fail 1] (by decide)
  exact absurd (h _ hrun (by decide) rfl) (by decide)

end SigxActors.Kubernetes
