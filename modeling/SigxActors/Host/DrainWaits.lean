/-
  Host/DrainWaits.lean --- which dispatches wait for a drain.

  A slot that is deactivating parks whoever looks it up until its drain is over,
  and a drain is over when every turn of the activation has settled.  A dispatch
  that a turn of the same actor waits for, directly or through calls in between,
  must therefore never park: the drain would wait for the turn, the turn for the
  dispatch, and the dispatch for the drain.

  `#checkReentrancy` decides from the ACTIVE slot.  A slot that is deactivating is
  treated as gone, and the fallback is a normal dispatch, which parks; a one-way
  dispatch is not checked at all; and an interleaving dispatch, once admitted,
  finds what the slot has become by the time it looks.

  `noDrainWait_of_guarded`: these three are the only ways in.
-/
import SigxActors.Host.Dispatch

set_option autoImplicit false

namespace SigxActors.Host

open SigxActors.Js

namespace DispatchState

/-! ## Who waits for whom -/

/-- The dispatch whose body waits for `n`. -/
def awaiter (s : DispatchState) (n : Nat) : Option Nat :=
  match s.frames[n]? with
  | some f => if f.awaited = true ∧ ¬ f.Resolved then f.parent else none
  | none => none

/-- The dispatches up the call chain of `n` whose bodies wait for it, at most
`depth` of them. -/
def waiters (s : DispatchState) : Nat → Nat → List Nat
  | 0, _ => []
  | depth + 1, n =>
      match s.awaiter n with
      | some p => p :: s.waiters depth p
      | none => []

/-- The actor a dispatch is for. -/
def targetOf (s : DispatchState) (n : Nat) : Option String :=
  s.frames[n]?.map (·.call.target)

/-- A turn of the very actor that dispatch `n` is for waits for it.  A dispatch is
issued after its parent, so `n` links lead to the top of its chain. -/
def InCycle (s : DispatchState) (n : Nat) : Prop :=
  ∃ m ∈ s.waiters n n, s.targetOf m = s.targetOf n

instance (s : DispatchState) (n : Nat) : Decidable (s.InCycle n) :=
  inferInstanceAs (Decidable (∃ m ∈ s.waiters n n, _))

/-- No dispatch is parked on a drain that waits for it. -/
def NoDrainWait (s : DispatchState) : Prop :=
  ∀ (n : Nat) (f : Frame) (inst : Nat),
    s.frames[n]? = some f → f.pc = .parked inst → ¬ s.InCycle n

/-- The slot of `id` is deactivating. -/
def Deactivating (s : DispatchState) (id : String) : Prop :=
  match s.slots.get id with
  | some (.deactivating _) => True
  | _ => False

instance (s : DispatchState) (id : String) : Decidable (s.Deactivating id) := by
  unfold Deactivating
  split <;> infer_instance

variable {s s' : DispatchState} {id : String} {f : Frame} {n : Nat} {cfg : DispatchConfig}
  {l : DispatchLabel}

theorem deactivating_of_get {inst : Nat} (h : s.slots.get id = some (.deactivating inst)) :
    s.Deactivating id := by
  simp only [Deactivating, h]

/-! ## What a step does to the frames -/

/-- Frame `n`, which was `f`, is `g` from now on; the other frames stay. -/
structure Moves (s s' : DispatchState) (n : Nat) (f g : Frame) : Prop where
  before : s.frames[n]? = some f
  after : ∀ m, s'.frames[m]? = if n = m then some g else s.frames[m]?
  call : g.call = f.call
  parent : g.parent = f.parent
  awaited : g.awaited = f.awaited
  resolved : f.Resolved → g.Resolved

theorem getElem?_setPc (s : DispatchState) (n m : Nat) (pc : Pc) (hf : s.frames[n]? = some f) :
    (s.setPc n pc).frames[m]? = if n = m then some { f with pc := pc } else s.frames[m]? := by
  simp only [setPc, List.getElem?_modify]
  by_cases hnm : n = m
  · subst hnm
    simp [hf]
  · simp [hnm]

theorem moves_setPc {pc : Pc} (hf : s.frames[n]? = some f) (hs : s'.frames = (s.setPc n pc).frames)
    (hreports : f.pc.Reports f.call.shape → pc.Reports f.call.shape) :
    Moves s s' n f { f with pc := pc } where
  before := hf
  after := by
    intro m
    rw [hs, getElem?_setPc s n m pc hf]
  call := rfl
  parent := rfl
  awaited := rfl
  resolved := fun h => h.imp_right hreports

/-- What one step does, as far as waiting is concerned. -/
inductive StepKind (cfg : DispatchConfig) (s s' : DispatchState) : DispatchLabel → Prop
  /-- No dispatch moves. -/
  | still {l : DispatchLabel} (hframes : s'.frames = s.frames)
      (hslots : ∀ id, s'.Deactivating id → s.Deactivating id ∨ l = .deactivate id) :
      StepKind cfg s s' l
  /-- A dispatch begins. -/
  | issued {l : DispatchLabel} (f : Frame) (hframes : s'.frames = s.frames ++ [f])
      (hslots : s'.slots = s.slots) (hpc : f.pc = s.entry f.call)
      (hchain : ∀ p, f.parent = some p → ∃ g, s.frames[p]? = some g ∧
        g.call.callChain ++ [g.call.target] <+: f.call.callChain) :
      StepKind cfg s s' l
  /-- Dispatch `n` moves: into a drain only from a look at a deactivating slot, and
  to its look only past the check or out of a drain. -/
  | moved {l : DispatchLabel} (n : Nat) (f g : Frame) (hmoves : Moves s s' n f g)
      (hslots : ∀ id, s'.Deactivating id → s.Deactivating id)
      (hparked : ∀ inst, g.pc = .parked inst →
        f.pc = .parked inst ∨
        (l = .lookup n ∧ f.pc = .looking ∧ s.Deactivating f.call.target))
      (hlooking : g.pc = .looking →
        f.pc = .looking ∨
        (l = .check n ∧ checkReentrancy cfg s.slots f.call = .looking) ∨
        ∃ inst, f.pc = .parked inst) :
      StepKind cfg s s' l

theorem checkReentrancy_ne_parked (cfg : DispatchConfig) (slots : Slots Nat Nat)
    (call : DispatchCall) (inst : Nat) : checkReentrancy cfg slots call ≠ .parked inst := by
  unfold checkReentrancy
  split
  · simp
  · split
    · simp
    · split <;> (try split) <;> simp

theorem enqueue_cases {inst : Nat} (h : s.enqueue n inst = some s') :
    ∃ pc, s' = s.setPc n pc ∧ (pc = .rejected .hostShutdown ∨ pc = .queued inst) := by
  unfold enqueue at h
  split at h
  · split at h
    · exact ⟨_, (Option.some.inj h).symm, .inl rfl⟩
    · exact ⟨_, (Option.some.inj h).symm, .inr rfl⟩
  · simp at h

/-- A dispatch that has not come to its turn moves to a place where it neither
looks nor is parked. -/
theorem StepKind.of_setPc {pc : Pc} (hf : s.frames[n]? = some f) (hs : s' = s.setPc n pc)
    (hreports : f.pc.Reports f.call.shape → pc.Reports f.call.shape) (hlooking : pc ≠ .looking)
    (hparked : ∀ inst, pc ≠ .parked inst) : StepKind cfg s s' l := by
  subst hs
  refine .moved n f _ (moves_setPc hf rfl hreports) (fun _ h => h) ?_ ?_
  · intro inst h
    exact absurd h (hparked inst)
  · intro h
    exact absurd h hlooking

theorem issue_kind {call : DispatchCall} {parent : Option Nat} {awaited : Bool}
    (h : s.issue call parent awaited = some s') :
    StepKind cfg s s' (.issue call parent awaited) := by
  simp only [issue] at h
  split at h
  · cases h
    exact .issued _ rfl rfl rfl (by simp)
  · split at h
    · rename_i p f hf
      obtain ⟨hok, rfl⟩ := guard_taken h
      refine .issued _ rfl rfl rfl ?_
      intro q hq
      cases hq
      exact ⟨f, hf, hok.2⟩
    · simp at h

theorem check_kind (h : s.check cfg n = some s') : StepKind cfg s s' (.check n) := by
  have hmove : ∀ {call parent awaited timedOut} {pc : Pc},
      s.frames[n]? = some ⟨call, parent, awaited, timedOut, .checking⟩ →
      s' = s.setPc n pc → (∀ inst, pc ≠ .parked inst) →
      (pc = .looking → checkReentrancy cfg s.slots call = .looking) →
      StepKind cfg s s' (.check n) := by
    intro call parent awaited timedOut pc hf hs hparked hlooking
    subst hs
    refine .moved n _ _ (moves_setPc hf rfl (by simp [Pc.Reports])) (fun _ h => h) ?_ ?_
    · intro inst h
      exact absurd h (hparked inst)
    · intro h
      exact .inr (.inl ⟨rfl, hlooking h⟩)
  unfold check at h
  split at h
  · rename_i call parent awaited timedOut hf
    have hchecked : s' = s.setPc n (checkReentrancy cfg s.slots call) →
        StepKind cfg s s' (.check n) := fun hs =>
      hmove hf hs (checkReentrancy_ne_parked cfg s.slots call) (fun h => h)
    split at h
    · split at h
      · exact hmove hf (Option.some.inj h).symm (by simp) (by simp)
      split at h
      · exact hmove hf (Option.some.inj h).symm (by simp) (by simp)
      · exact hchecked (Option.some.inj h).symm
    · exact hchecked (Option.some.inj h).symm
  · simp at h

theorem lookup_kind (h : s.lookup cfg n = some s') : StepKind cfg s s' (.lookup n) := by
  unfold lookup at h
  split at h
  · rename_i call parent awaited timedOut hf
    have hsimple : ∀ pc : Pc, s' = s.setPc n pc → pc ≠ .looking → (∀ inst, pc ≠ .parked inst) →
        StepKind cfg s s' (.lookup n) := by
      intro pc hs
      exact .of_setPc hf hs (by simp [Pc.Reports])
    split at h
    · exact hsimple _ (Option.some.inj h).symm (by simp) (by simp)
    split at h
    · exact hsimple _ (Option.some.inj h).symm (by simp) (by simp)
    split at h
    · cases h
      refine .moved n _ _ (moves_setPc hf rfl (by simp [Pc.Reports])) ?_ (by simp) (by simp)
      intro id hid
      simp only [Deactivating, JsMap.get_set] at hid
      by_cases hne : id = call.target
      · simp [hne] at hid
      · simpa only [Deactivating, hne, if_false] using hid
    · exact hsimple _ (Option.some.inj h).symm (by simp) (by simp)
    · obtain ⟨pc, hs, rfl | rfl⟩ := enqueue_cases h
      · exact hsimple _ hs (by simp) (by simp)
      · exact hsimple _ hs (by simp) (by simp)
    · rename_i inst hslot
      cases h
      refine .moved n _ _ (moves_setPc hf rfl (by simp [Pc.Reports])) (fun _ h => h) ?_
        (by simp)
      intro _ _
      exact .inr ⟨rfl, rfl, deactivating_of_get hslot⟩
  · simp at h

theorem joined_kind (h : s.joined n = some s') : StepKind cfg s s' (.joined n) := by
  unfold joined at h
  split at h
  · rename_i hf
    split at h
    · split at h
      · simp at h
      · obtain ⟨pc, hs, rfl | rfl⟩ := enqueue_cases h
        · exact .of_setPc hf hs (by simp [Pc.Reports]) (by simp) (by simp)
        · exact .of_setPc hf hs (by simp [Pc.Reports]) (by simp) (by simp)
      · exact .of_setPc hf (Option.some.inj h).symm (by simp [Pc.Reports]) (by simp) (by simp)
    · simp at h
  · simp at h

theorem unpark_kind (h : s.unpark n = some s') : StepKind cfg s s' (.unpark n) := by
  unfold unpark at h
  split at h
  · rename_i inst hf
    split at h
    · split at h
      · cases h
        refine .moved n _ _ (moves_setPc hf rfl (by simp [Pc.Reports])) (fun _ h => h) (by simp) ?_
        intro _
        exact .inr (.inr ⟨inst, rfl⟩)
      · simp at h
    · simp at h
  · simp at h

theorem timeout_kind (h : s.timeout n = some s') : StepKind cfg s s' (.timeout n) := by
  unfold timeout at h
  split at h
  · rename_i f hf
    obtain ⟨-, rfl⟩ := guard_taken h
    refine .moved n f { f with timedOut := true } ⟨hf, ?_, rfl, rfl, rfl, ?_⟩
      (fun _ h => h) (fun _ h => .inl h) .inl
    · intro m
      by_cases hnm : n = m
      · subst hnm
        simp [hf]
      · simp [hnm]
    · intro _
      exact .inl rfl
  · simp at h

theorem start_kind (h : s.start cfg n = some s') : StepKind cfg s s' (.start n) := by
  unfold start at h
  split at h
  · rename_i hf
    split at h
    · simp at h
    · obtain ⟨-, h⟩ := guard_passed h
      exact .of_setPc hf (Option.some.inj h).symm (fun h => h) (by simp) (by simp)
  · simp at h

theorem settle_kind (h : s.settle n = some s') : StepKind cfg s s' (.settle n) := by
  unfold settle at h
  split at h
  · rename_i f hf
    obtain ⟨-, h⟩ := guard_passed h
    exact .of_setPc hf (Option.some.inj h).symm (fun _ => trivial) (by simp) (by simp)
  · simp at h

/-- What a change of one slot leaves of the deactivating ones. -/
theorem deactivating_of_set {j : String} {slot : Slot Nat Nat}
    (hslots : s'.slots = s.slots.set id slot) (hslot : ∀ inst, slot ≠ .deactivating inst)
    (h : s'.Deactivating j) : s.Deactivating j := by
  simp only [Deactivating, hslots, JsMap.get_set] at h
  by_cases hne : j = id
  · subst hne
    cases slot with
    | deactivating inst => exact absurd rfl (hslot inst)
    | activating | active => simp at h
  · simpa only [Deactivating, hne, if_false] using h

theorem deactivating_of_erase {j : String} (hslots : s'.slots = s.slots.erase id)
    (h : s'.Deactivating j) : s.Deactivating j := by
  simp only [Deactivating, hslots, JsMap.get_erase] at h
  by_cases hne : j = id
  · simp [hne] at h
  · simpa only [Deactivating, hne, if_false] using h

/-- The events of activations and their slots move no dispatch, and only
`#deactivateById` makes a slot deactivating. -/
theorem slots_kind {inst : Nat} (h : s.activated inst = some s' ∨ s.activationFails inst = some s' ∨
      s.closeTurns inst = some s' ∨ s.drained inst = some s')
    (l : DispatchLabel) : StepKind cfg s s' l := by
  rcases h with h | h | h | h
  · unfold activated at h
    split at h
    · split at h
      · cases h
        refine .still rfl (fun id hid => .inl ?_)
        split at hid
        · exact deactivating_of_set rfl (by simp) hid
        · exact hid
      · simp at h
    · simp at h
  · unfold activationFails at h
    split at h
    · split at h
      · cases h
        refine .still rfl (fun id hid => .inl ?_)
        split at hid
        · exact deactivating_of_erase rfl hid
        · exact hid
      · simp at h
    · simp at h
  · unfold closeTurns at h
    split at h
    · split at h
      · cases h
        exact .still rfl (fun _ hid => .inl hid)
      · simp at h
    · simp at h
  · unfold drained at h
    split at h
    · split at h
      · cases h
        refine .still rfl (fun id hid => .inl ?_)
        split at hid
        · exact deactivating_of_erase rfl hid
        · exact hid
      · simp at h
    · simp at h

theorem deactivate_kind (h : s.deactivate id = some s') : StepKind cfg s s' (.deactivate id) := by
  simp only [deactivate, Slots.beginDeactivation] at h
  split at h
  · rename_i inst slots hbegin
    split at hbegin
    · obtain ⟨rfl, rfl⟩ := Prod.mk.inj (Option.some.inj hbegin)
      split at h
      · cases h
        refine .still rfl ?_
        intro j hj
        by_cases hne : j = id
        · exact .inr (by rw [hne])
        · refine .inl ?_
          simpa only [Deactivating, JsMap.get_set, hne, if_false] using hj
      · simp at h
    · simp at hbegin
  · simp at h

/-- Every step is of one of the kinds. -/
theorem step_kind (h : s.step cfg l = some s') : StepKind cfg s s' l := by
  cases l with
  | issue call parent awaited => exact issue_kind h
  | check n => exact check_kind h
  | lookup n => exact lookup_kind h
  | joined n => exact joined_kind h
  | unpark n => exact unpark_kind h
  | timeout n => exact timeout_kind h
  | start n => exact start_kind h
  | settle n => exact settle_kind h
  | activated inst => exact slots_kind (.inl h) _
  | activationFails inst => exact slots_kind (.inr (.inl h)) _
  | deactivate id => exact deactivate_kind h
  | closeTurns inst => exact slots_kind (.inr (.inr (.inl h))) _
  | drained inst => exact slots_kind (.inr (.inr (.inr h))) _
  | shutdown =>
    cases h
    exact .still rfl (fun _ hid => .inl hid)
  | forceDrop =>
    obtain ⟨-, rfl⟩ := guard_taken h
    exact .still rfl (fun id hid => by simp [Deactivating] at hid)

/-! ## Cycles only break -/

/-- Parents come first, and a dispatch carries the chain of its parent with the
parent's actor at the end. -/
structure ChainsSound (s : DispatchState) : Prop where
  parentBefore : ∀ (n : Nat) (f : Frame) (p : Nat), s.frames[n]? = some f → f.parent = some p → p < n
  chain : ∀ (n : Nat) (f : Frame) (p : Nat), s.frames[n]? = some f → f.parent = some p →
    ∃ g : Frame, s.frames[p]? = some g ∧ g.call.callChain ++ [g.call.target] <+: f.call.callChain

theorem awaiter_eq_some {p : Nat} (h : s.awaiter n = some p) :
    ∃ f, s.frames[n]? = some f ∧ f.awaited = true ∧ ¬ f.Resolved ∧ f.parent = some p := by
  unfold awaiter at h
  split at h
  · rename_i f hf
    obtain ⟨hcond, h⟩ := guard_passed h
    exact ⟨f, hf, hcond.1, hcond.2, h⟩
  · simp at h

theorem awaiter_of_frame {p : Nat} (hf : s.frames[n]? = some f) (hawaited : f.awaited = true)
    (hresolved : ¬ f.Resolved) (hparent : f.parent = some p) : s.awaiter n = some p := by
  simp only [awaiter, hf, hawaited, hresolved, hparent, not_false_eq_true, and_self, if_true]

/-- The actor of whoever waits for a dispatch is in that dispatch's chain. -/
theorem target_mem_chain_of_waiter (hsound : s.ChainsSound) {m : Nat} :
    ∀ {depth n : Nat} {f : Frame}, s.frames[n]? = some f → m ∈ s.waiters depth n →
      ∃ g, s.frames[m]? = some g ∧ g.call.target ∈ f.call.callChain := by
  intro depth
  induction depth with
  | zero =>
    intro n f _ hm
    simp [waiters] at hm
  | succ depth ih =>
    intro n f hf hm
    simp only [waiters] at hm
    split at hm
    · rename_i p hp
      obtain ⟨f', hf', -, -, hparent⟩ := awaiter_eq_some hp
      cases hf.symm.trans hf'
      obtain ⟨g, hg, hpre⟩ := hsound.chain n f p hf hparent
      rcases List.mem_cons.1 hm with rfl | hm
      · refine ⟨g, hg, hpre.subset ?_⟩
        simp
      · obtain ⟨k, hk, hmem⟩ := ih hg hm
        refine ⟨k, hk, hpre.subset ?_⟩
        simp [hmem]
    · simp at hm

/-- A dispatch in a cycle has its target in its chain. -/
theorem inChain_of_inCycle (hsound : s.ChainsSound) (hf : s.frames[n]? = some f) (h : s.InCycle n) :
    f.call.InChain := by
  obtain ⟨m, hm, htarget⟩ := h
  obtain ⟨g, hg, hmem⟩ := target_mem_chain_of_waiter hsound hf hm
  simp only [targetOf, hg, hf, Option.map_some, Option.some.injEq] at htarget
  rw [DispatchCall.InChain, ← htarget]
  exact hmem

/-- `g` is `f` at a later time. -/
structure Later (f g : Frame) : Prop where
  call : g.call = f.call
  parent : g.parent = f.parent
  awaited : g.awaited = f.awaited
  resolved : f.Resolved → g.Resolved

theorem Later.refl (f : Frame) : Later f f := ⟨rfl, rfl, rfl, fun h => h⟩

section

variable (hkind : StepKind cfg s s' l)
include hkind

/-- Every dispatch is still there after a step. -/
theorem StepKind.later (hf : s.frames[n]? = some f) : ∃ g, s'.frames[n]? = some g ∧ Later f g := by
  cases hkind with
  | still hframes hslots =>
    rw [hframes]
    exact ⟨f, hf, .refl f⟩
  | issued f' hframes hslots hpc hchain =>
    refine ⟨f, ?_, .refl f⟩
    rw [hframes, List.getElem?_append_left (List.getElem?_eq_some_iff.1 hf).1]
    exact hf
  | moved k f' g hmoves hslots hparked hlooking =>
    rw [hmoves.after]
    by_cases hkn : k = n
    · subst hkn
      cases hmoves.before.symm.trans hf
      exact ⟨g, by simp, hmoves.call, hmoves.parent, hmoves.awaited, hmoves.resolved⟩
    · exact ⟨f, by simp [hkn, hf], .refl f⟩

/-- What is there after a step was there before, or has just been issued. -/
theorem StepKind.earlier {g : Frame} (hg : s'.frames[n]? = some g) :
    (∃ f, s.frames[n]? = some f ∧ Later f g) ∨
    (n = s.frames.length ∧ g.pc = s.entry g.call ∧ s'.slots = s.slots ∧
      ∀ p, g.parent = some p → ∃ k : Frame, s.frames[p]? = some k ∧
        k.call.callChain ++ [k.call.target] <+: g.call.callChain) := by
  cases hkind with
  | still hframes hslots =>
    rw [hframes] at hg
    exact .inl ⟨g, hg, .refl g⟩
  | issued f hframes hslots hpc hchain =>
    rw [hframes] at hg
    rcases Nat.lt_or_ge n s.frames.length with hlt | hge
    · rw [List.getElem?_append_left hlt] at hg
      exact .inl ⟨g, hg, .refl g⟩
    rw [List.getElem?_append_right hge] at hg
    obtain ⟨hlt, hgf⟩ := List.getElem?_eq_some_iff.1 hg
    obtain rfl : f = g := by simpa using hgf
    refine .inr ⟨?_, hpc, hslots, hchain⟩
    simp only [List.length_singleton] at hlt
    omega
  | moved k f g' hmoves hslots hparked hlooking =>
    rw [hmoves.after] at hg
    by_cases hkn : k = n
    · subst hkn
      obtain rfl : g' = g := by simpa using hg
      exact .inl ⟨f, hmoves.before, hmoves.call, hmoves.parent, hmoves.awaited, hmoves.resolved⟩
    · simp only [hkn, if_false] at hg
      exact .inl ⟨g, hg, .refl g⟩

theorem StepKind.chainsSound (hsound : s.ChainsSound) : s'.ChainsSound := by
  have hparent : ∀ (n : Nat) (g : Frame) (p : Nat), s'.frames[n]? = some g → g.parent = some p →
      p < n ∧ ∃ k : Frame, s.frames[p]? = some k ∧
        k.call.callChain ++ [k.call.target] <+: g.call.callChain := by
    intro n g p hg hp
    rcases hkind.earlier hg with ⟨f, hf, hlater⟩ | ⟨rfl, -, -, hchain⟩
    · rw [hlater.parent] at hp
      rw [hlater.call]
      exact ⟨hsound.parentBefore n f p hf hp, hsound.chain n f p hf hp⟩
    · obtain ⟨k, hk, hpre⟩ := hchain p hp
      exact ⟨(List.getElem?_eq_some_iff.1 hk).1, k, hk, hpre⟩
  constructor
  · intro n g p hg hp
    exact (hparent n g p hg hp).1
  · intro n g p hg hp
    obtain ⟨-, k, hk, hpre⟩ := hparent n g p hg hp
    obtain ⟨k', hk', hlater⟩ := hkind.later hk
    refine ⟨k', hk', ?_⟩
    rw [hlater.call]
    exact hpre

theorem StepKind.targetOf_eq (hn : n < s.frames.length) : s'.targetOf n = s.targetOf n := by
  obtain ⟨g, hg, hlater⟩ := hkind.later (List.getElem?_eq_getElem hn)
  simp only [targetOf, hg, List.getElem?_eq_getElem hn, Option.map_some, hlater.call]

/-- No dispatch comes to wait for one that is under way. -/
theorem StepKind.awaiter {p : Nat} (hn : n < s.frames.length)
    (h : s'.awaiter n = some p) : s.awaiter n = some p := by
  obtain ⟨g, hg, hawaited, hresolved, hparent⟩ := awaiter_eq_some h
  obtain ⟨g', hg', hlater⟩ := hkind.later (List.getElem?_eq_getElem hn)
  cases hg.symm.trans hg'
  refine awaiter_of_frame (List.getElem?_eq_getElem hn) ?_ ?_ ?_
  · rw [← hlater.awaited, hawaited]
  · exact fun hres => hresolved (hlater.resolved hres)
  · rw [← hlater.parent, hparent]

theorem StepKind.waiters (hsound : s.ChainsSound) {m : Nat} :
    ∀ {depth n : Nat}, n < s.frames.length → m ∈ s'.waiters depth n →
      m ∈ s.waiters depth n ∧ m < s.frames.length := by
  intro depth
  induction depth with
  | zero =>
    intro n _ hm
    simp [DispatchState.waiters] at hm
  | succ depth ih =>
    intro n hn hm
    simp only [DispatchState.waiters] at hm
    split at hm
    · rename_i p hp
      have hp' := hkind.awaiter hn hp
      obtain ⟨f, hf, -, -, hparent⟩ := awaiter_eq_some hp'
      have hlt : p < s.frames.length := Nat.lt_trans (hsound.parentBefore n f p hf hparent) hn
      simp only [DispatchState.waiters, hp', List.mem_cons]
      rcases List.mem_cons.1 hm with rfl | hm
      · exact ⟨.inl rfl, hlt⟩
      · obtain ⟨hmem, hm⟩ := ih hlt hm
        exact ⟨.inr hmem, hm⟩
    · simp at hm

/-- A dispatch that is in no cycle never gets into one. -/
theorem StepKind.inCycle (hsound : s.ChainsSound)
    (hn : n < s.frames.length) (h : s'.InCycle n) : s.InCycle n := by
  obtain ⟨m, hm, htarget⟩ := h
  obtain ⟨hmem, hlt⟩ := hkind.waiters hsound hn hm
  rw [hkind.targetOf_eq hlt, hkind.targetOf_eq hn] at htarget
  exact ⟨m, hmem, htarget⟩

end

/-! ## The invariant -/

/-- No dispatch of a cycle is in a drain, or looks at a deactivating slot behind
its check. -/
structure DrainFree (s : DispatchState) : Prop where
  chains : s.ChainsSound
  parked : s.NoDrainWait
  looking : ∀ (n : Nat) (f : Frame), s.frames[n]? = some f → f.pc = .looking → f.call.shape ≠ .oneWay →
    s.InCycle n → ¬ s.Deactivating f.call.target

/-- The step does not let a dispatch of a cycle at a deactivating slot: a one-way
does not look at one, the check does not pass one on, and no deactivation begins
between an admitting check and the look. -/
def SparesCycles (cfg : DispatchConfig) (s : DispatchState) : DispatchLabel → Prop
  | .lookup n => ∀ f ∈ s.frames[n]?, f.call.shape = .oneWay → s.InCycle n →
      ¬ s.Deactivating f.call.target
  | .check n => ∀ f ∈ s.frames[n]?, s.InCycle n → s.Deactivating f.call.target →
      cfg.strictChainPresence = true ∨
        ∀ opts ∈ cfg.options f.call.ref.type, effectiveReentrancy opts f.call.method = .none
  | .deactivate id => ∀ n < s.frames.length, ∀ f ∈ s.frames[n]?,
      f.pc = .looking → f.call.shape ≠ .oneWay → f.call.target = id → ¬ s.InCycle n
  | _ => True

instance (cfg : DispatchConfig) (s : DispatchState) (l : DispatchLabel) :
    Decidable (s.SparesCycles cfg l) := by
  unfold SparesCycles
  split <;> infer_instance

/-- Where the check spares cycles, it does not pass an in-chain dispatch on. -/
theorem checkReentrancy_ne_looking {call : DispatchCall} (hchain : call.InChain)
    (hdeact : s.Deactivating call.target) (hok : cfg.strictChainPresence = true ∨
      ∀ opts ∈ cfg.options call.ref.type, effectiveReentrancy opts call.method = .none) :
    checkReentrancy cfg s.slots call ≠ .looking := by
  have hslot : ∀ inst, s.slots.get call.target ≠ some (.active inst) := by
    intro inst hget
    simp [Deactivating, hget] at hdeact
  simp only [checkReentrancy, hchain, not_true_eq_false, if_false]
  split
  · simp
  rename_i opts hopts
  rcases hok with hstrict | hnone
  · split
    · simp
    · rename_i hget
      exact absurd hget (hslot _)
    · rename_i hget
      exact absurd hget (hslot _)
    · simp [hstrict]
  · simp [hnone opts hopts]

theorem DrainFree.step (hinv : s.DrainFree) (hok : s.SparesCycles cfg l)
    (h : s.step cfg l = some s') : s'.DrainFree := by
  have hkind := step_kind h
  have hsound := hinv.chains
  -- A dispatch of a cycle was one before the step.
  have hcycle : ∀ {n : Nat} {f : Frame}, s.frames[n]? = some f → s'.InCycle n → s.InCycle n := fun hf =>
    hkind.inCycle hsound (List.getElem?_eq_some_iff.1 hf).1
  refine ⟨hkind.chainsSound hsound, ?_, ?_⟩
  · intro n g inst hg hpc hin
    cases hkind with
    | still hframes hslots =>
      rw [hframes] at hg
      exact hinv.parked n g inst hg hpc (hcycle hg hin)
    | issued f hframes hslots hentry hchain =>
      rcases (step_kind h).earlier hg with ⟨k, hk, -⟩ | ⟨rfl, hpc', -, -⟩
      · have hg' : s.frames[n]? = some g := by
          rw [← hg, hframes, List.getElem?_append_left (List.getElem?_eq_some_iff.1 hk).1]
        exact hinv.parked n g inst hg' hpc (hcycle hg' hin)
      · rw [hpc', entry] at hpc
        split at hpc
        · simp at hpc
        · split at hpc <;> simp at hpc
    | moved k f g' hmoves hslots hparked hlooking =>
      rw [hmoves.after] at hg
      by_cases hkn : k = n
      · subst hkn
        obtain rfl : g' = g := by simpa using hg
        have hf := hmoves.before
        rcases hparked inst hpc with hpark | ⟨rfl, hlook, hdeact⟩
        · exact hinv.parked k f inst hf hpark (hcycle hf hin)
        by_cases honeWay : f.call.shape = .oneWay
        · exact hok f hf honeWay (hcycle hf hin) hdeact
        · exact hinv.looking k f hf hlook honeWay (hcycle hf hin) hdeact
      · simp only [hkn, if_false] at hg
        exact hinv.parked n g inst hg hpc (hcycle hg hin)
  · intro n g hg hpc hshape hin hdeact
    cases hkind with
    | still hframes hslots =>
      rw [hframes] at hg
      rcases hslots _ hdeact with hold | rfl
      · exact hinv.looking n g hg hpc hshape (hcycle hg hin) hold
      · exact hok n (List.getElem?_eq_some_iff.1 hg).1 g hg hpc hshape rfl (hcycle hg hin)
    | issued f hframes hslots hentry hchain =>
      rcases (step_kind h).earlier hg with ⟨k, hk, -⟩ | ⟨rfl, hpc', -, -⟩
      · have hg' : s.frames[n]? = some g := by
          rw [← hg, hframes, List.getElem?_append_left (List.getElem?_eq_some_iff.1 hk).1]
        refine hinv.looking n g hg' hpc hshape (hcycle hg' hin) ?_
        simpa only [Deactivating, hslots] using hdeact
      · rw [hpc', entry] at hpc
        split at hpc <;> simp at hpc
    | moved k f g' hmoves hslots hparked hlooking =>
      rw [hmoves.after] at hg
      by_cases hkn : k = n
      · subst hkn
        obtain rfl : g' = g := by simpa using hg
        have hf := hmoves.before
        have hold := hslots _ hdeact
        rw [hmoves.call] at hold hshape
        rcases hlooking hpc with hlook | ⟨rfl, hchecked⟩ | ⟨inst, hpark⟩
        · exact hinv.looking k f hf hlook hshape (hcycle hf hin) hold
        · exact checkReentrancy_ne_looking (inChain_of_inCycle hsound hf (hcycle hf hin)) hold
            (hok f hf (hcycle hf hin) hold) hchecked
        · exact hinv.parked k f inst hf hpark (hcycle hf hin)
      · simp only [hkn, if_false] at hg
        exact hinv.looking n g hg hpc hshape (hcycle hg hin) (hslots _ hdeact)

theorem DrainFree.initial : DispatchState.initial.DrainFree := by
  refine ⟨⟨?_, ?_⟩, ?_, ?_⟩
  · intro n f p hf
    simp [DispatchState.initial] at hf
  · intro n f p hf
    simp [DispatchState.initial] at hf
  · intro n f inst hf
    simp [DispatchState.initial] at hf
  · intro n f hf
    simp [DispatchState.initial] at hf

end DispatchState

/-! ## No dispatch waits for a drain that waits for it -/

/-- **No drain is waited for from inside.**  In a run that spares cycles, no
dispatch, of whatever shape and however far down its chain, is parked on the
drain of an activation whose turn waits for it. -/
theorem noDrainWait_of_sparesCycles {cfg : DispatchConfig} {s : DispatchState}
    (h : (localHost cfg).Reach (fun s l => s.SparesCycles cfg l) s) : s.NoDrainWait := by
  have hinv : s.DrainFree := by
    refine h.invariant ?_ ?_
    · intro s hs
      rw [hs]
      exact DispatchState.DrainFree.initial
    · intro s l t hinv hok hstep
      exact hinv.step hok hstep
  exact hinv.parked

/-- A host of one call-chain reentrant type. -/
def cartDispatch : DispatchConfig :=
  { options := fun type => if type = "Cart" then some { reentrant := .callChain } else none
    strictChainPresence := false }

/-- A turn of `Cart/a` runs, the deactivation of `Cart/a` begins, and the turn
dispatches to its own actor and waits. -/
def cyclicLabels (shape : Shape) : List DispatchLabel :=
  [.issue { ref := ⟨"Cart", "a"⟩, method := "add", shape := .call, callChain := [] } none true,
    .check 0, .lookup 0, .activated 0, .joined 0, .start 0, .deactivate "Cart\x00a",
    .issue { ref := ⟨"Cart", "a"⟩, method := "more", shape := shape, callChain := ["Cart\x00a"] }
      (some 0) true] ++
    (if shape = .oneWay then [] else [.check 1])

theorem cyclicLabels_enabled (shape : Shape) :
    ((localHost cartDispatch).exec (fun _ _ => True) .initial
      (cyclicLabels shape ++ [.lookup 1])).isSome := by
  cases shape <;> decide

/-- The lookup has been made. -/
def cyclicState (shape : Shape) : DispatchState :=
  ((localHost cartDispatch).exec (fun _ _ => True) .initial
    (cyclicLabels shape ++ [.lookup 1])).get (cyclicLabels_enabled shape)

/-- There is no shape of dispatch that never waits for a drain that waits for it. -/
theorem not_noDrainWait_cyclic : ¬ ∃ shape : Shape, ∀ s, (localHost cartDispatch).Reachable s →
      ∀ (n : Nat) (f : Frame) (inst : Nat), s.frames[n]? = some f → f.call.shape = shape →
        f.pc = .parked inst → ¬ s.InCycle n := by
  rintro ⟨shape, hall⟩
  have hreach : (localHost cartDispatch).Reachable (cyclicState shape) :=
    Machine.System.Reach.exec_get (.start rfl) _ (cyclicLabels_enabled shape)
  have hparked : ∃ f, (cyclicState shape).frames[1]? = some f ∧
      f.call.shape = shape ∧ f.pc = .parked 0 := by
    cases shape <;> exact ⟨_, rfl, rfl, rfl⟩
  have hcycle : (cyclicState shape).InCycle 1 := by
    cases shape <;> decide
  obtain ⟨f, hf, hshape, hpc⟩ := hparked
  exact hall (cyclicState shape) hreach 1 f 0 hf hshape hpc hcycle

/-- The same host under a strict placement. -/
def strictDispatch : DispatchConfig := { cartDispatch with strictChainPresence := true }

def strictCall : DispatchState :=
  ((localHost strictDispatch).exec (fun s l => s.SparesCycles strictDispatch l) .initial
    (cyclicLabels .call)).get (by decide)

/-- There the call is rejected, and the run spares cycles. -/
theorem noDrainWait_strictCall :
    strictCall.frames[1]?.map (·.pc) = some (.rejected .moved) ∧ strictCall.NoDrainWait :=
  ⟨by decide, noDrainWait_of_sparesCycles
    (Machine.System.Reach.exec_get (.start rfl) (cyclicLabels .call) (by decide))⟩

end SigxActors.Host
