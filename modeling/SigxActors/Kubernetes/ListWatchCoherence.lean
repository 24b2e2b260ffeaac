/-
  Kubernetes/ListWatchCoherence.lean --- what a list-watch loop promises.

  One request is under way at a time, and it is told from the next by where the loop is.
  What the target holds is what the API server held at the last version applied.
-/
import SigxActors.Kubernetes.ListWatch

set_option autoImplicit false

namespace SigxActors.Kubernetes

open SigxActors.Js

/-- A LIST is under way, or about to settle those who wait, that was issued at `n` or later. -/
def Phase.Lists (phase : Phase) (n : Nat) : Prop :=
  match phase with
  | .listing list _ | .answered list _ | .applied list _ => n ≤ list
  | _ => False

namespace ListWatch

variable {L : Type} {s t : ListWatch L}

/-- The version that the target holds. -/
def held (s : ListWatch L) : Nat := s.applied.getLastD 0

/-- The loop keeps its promises. -/
structure Coherent (s : ListWatch L) : Prop where
  /-- A `relist()` that is fulfilled has had a LIST that was issued since, and applied. -/
  fresh : ∀ r ∈ s.relists, ∀ list, r.outcome = some (.landed list) →
    r.calledAt ≤ list ∧ list ∈ s.landed
  /-- One that waits is owed a LIST by a loop that goes on. -/
  owed : ∀ r ∈ s.relists, r.outcome = none →
    s.stopped = false ∧ s.phase ≠ .done ∧ (s.forceList = true ∨ s.phase.Lists r.calledAt)
  /-- The LIST that lands settles all, and so does `stop()`. -/
  settles : ∀ t, s.step .resume = some t ∨ s.step .stop = some t →
    ∀ r ∈ t.relists, r.outcome ≠ none
  /-- The target does not go back. -/
  forward : s.applied.Pairwise (· ≤ ·)
  faithful : ∀ name, s.leases.get name = (snapshot s.log s.held).get name
  /-- Nothing is applied after `stop()`. -/
  ended : s.late = []

/-- No `relist()` is called, and no `stop()`, where the answer of a LIST is in; no `stop()` where an
event has arrived and is not applied; and no stream fails that has brought an event, but for a
`relist()`, a `stop()` or 410. -/
def Clear (s : ListWatch L) : Label L → Prop
  | .relist =>
      match s.phase with
      | .answered _ _ | .applied _ _ => s.stopped = true
      | _ => True
  | .stop =>
      match s.phase with
      | .answered _ _ => False
      | .streaming _ buffered => buffered = 0
      | _ => True
  | .fail gone =>
      match s.phase with
      | .streaming seen _ =>
          gone = true ∨ s.forceList = true ∨ s.stopped = true ∨ s.resourceVersion = some seen
      | _ => True
  | _ => True

/-! ## The target -/

/-- What the target holds, and how it has come to it. -/
structure Target (s : ListWatch L) : Prop where
  bound : s.held ≤ s.log.length
  forward : s.applied.Pairwise (· ≤ ·)
  faithful : ∀ name, s.leases.get name = (snapshot s.log s.held).get name
  ended : s.late = []

variable {version list : Nat} {outcome : Relisted}

theorem snapshot_append {log : List (Change L)} (h : version ≤ log.length)
    (changes : List (Change L)) : snapshot (log ++ changes) version = snapshot log version := by
  unfold snapshot
  rw [List.take_append_of_le_length h]

theorem snapshot_succ {log : List (Change L)} {change : Change L} (h : log[version]? = some change) :
    snapshot log (version + 1) = applyChange (snapshot log version) change := by
  unfold snapshot
  rw [List.take_add_one, h, List.foldl_append]
  rfl

theorem get_applyChange {leases leases' : JsMap String L}
    (h : ∀ name, leases.get name = leases'.get name) (change : Change L) (name : String) :
    (applyChange leases change).get name = (applyChange leases' change).get name := by
  unfold applyChange
  split
  · rw [JsMap.get_set, JsMap.get_set, h]
  · rw [JsMap.get_erase, JsMap.get_erase, h]

theorem Target.of_same (h : s.Target) (hlog : t.log = s.log) (hleases : t.leases = s.leases)
    (happlied : t.applied = s.applied) (hlate : t.late = s.late) : t.Target := by
  have hheld : t.held = s.held := congrArg (List.getLastD · 0) happlied
  refine ⟨?_, ?_, ?_, ?_⟩
  · rw [hheld, hlog]
    exact h.bound
  · rw [happlied]
    exact h.forward
  · rw [hheld, hlog, hleases]
    exact h.faithful
  · rw [hlate]
    exact h.ended

theorem Target.change (h : s.Target) (change : Change L) :
    Target { s with log := s.log ++ [change] } where
  bound := by
    rw [List.length_append]
    exact Nat.le_add_right_of_le h.bound
  forward := h.forward
  faithful name := by
    rw [h.faithful]
    exact congrArg (JsMap.get · name) (snapshot_append h.bound [change]).symm
  ended := h.ended

/-- All that was applied is no newer than what the target holds. -/
theorem Target.le_held (h : s.Target) : ∀ version ∈ s.applied, version ≤ s.held := by
  intro version hmem
  have hforward := h.forward
  unfold held
  obtain hnil | ⟨init, last, hlast⟩ := s.applied.eq_nil_or_concat
  · rw [hnil] at hmem
    cases hmem
  rw [List.concat_eq_append] at hlast
  rw [hlast, List.pairwise_append] at hforward
  rw [hlast, List.mem_append, List.mem_singleton] at hmem
  rw [hlast, List.getLastD_concat]
  obtain hinit | rfl := hmem
  · exact hforward.2.2 version hinit last (List.mem_singleton.2 rfl)
  · exact Nat.le_refl _

/-- Another version is applied, that is no older. -/
theorem Target.land (h : s.Target) {leases : JsMap String L} (hstopped : s.stopped = false)
    (hheld : s.held ≤ version) (hbound : version ≤ s.log.length)
    (hleases : ∀ name, leases.get name = (snapshot s.log version).get name) :
    (s.land leases version).Target := by
  have hversion : (s.land leases version).held = version := by
    unfold ListWatch.land held
    rw [List.getLastD_concat]
  refine ⟨?_, ?_, ?_, ?_⟩
  · rw [hversion]
    exact hbound
  · unfold ListWatch.land
    rw [List.pairwise_append]
    refine ⟨h.forward, List.pairwise_singleton _ _, fun old hold new hnew => ?_⟩
    obtain rfl := List.mem_singleton.1 hnew
    exact Nat.le_trans (h.le_held old hold) hheld
  · rw [hversion]
    exact hleases
  · unfold ListWatch.land
    rw [hstopped]
    exact h.ended

/-! ## Where the loop is -/

/-- Those who wait have called by the time the LIST `n` was issued. -/
def Called (s : ListWatch L) (n : Nat) : Prop :=
  ∀ r ∈ s.relists, r.outcome = none → r.calledAt ≤ n

/-- What holds where the loop is. -/
def Placed (s : ListWatch L) : Prop :=
  match s.phase with
  | .idle => s.resourceVersion = none ∧ s.held = 0
  | .listing list served =>
      s.resourceVersion = none ∧ (∀ version ∈ served, s.held ≤ version ∧ version ≤ s.log.length) ∧
        (s.forceList = true ∨ s.Called list)
  | .answered list served =>
      s.held ≤ served ∧ served ≤ s.log.length ∧ s.stopped = false ∧ s.Called list
  | .applied list served => s.held = served ∧ list ∈ s.landed ∧ s.Called list
  | .connecting => s.resourceVersion = some s.held
  | .streaming seen buffered =>
      s.held = seen ∧ seen + buffered ≤ s.log.length ∧ s.resourceVersion ≠ none ∧
        (s.stopped = true → buffered = 0)
  | .waiting => ∀ version ∈ s.resourceVersion, version = s.held
  | .done => True

/-- Those who wait are owed a LIST. -/
structure Owing (s : ListWatch L) : Prop where
  called : s.Called s.lists
  fresh : ∀ r ∈ s.relists, ∀ list, r.outcome = some (.landed list) →
    r.calledAt ≤ list ∧ list ∈ s.landed
  stopped : s.stopped = true → s.aborted = true ∧ ∀ r ∈ s.relists, r.outcome ≠ none
  done : s.phase = .done → s.stopped = true
  forced : s.phase ≠ .idle → s.forceList = true → s.aborted = true
  owed : ∀ r ∈ s.relists, r.outcome = none → s.forceList = true ∨ s.phase.Lists r.calledAt

/-- The invariant. -/
structure Ordered (s : ListWatch L) : Prop where
  target : s.Target
  placed : s.Placed
  owing : s.Owing

/-! ## Settling -/

theorem mem_settleWaiters {r : Relist} (h : r ∈ (s.settleWaiters outcome).relists) :
    ∃ old ∈ s.relists, r.calledAt = old.calledAt ∧ r.outcome = old.outcome.or (some outcome) := by
  obtain ⟨old, hold, rfl⟩ := List.mem_map.1 h
  exact ⟨old, hold, rfl, rfl⟩

/-- Nobody waits any more. -/
theorem settled_settleWaiters : ∀ r ∈ (s.settleWaiters outcome).relists, r.outcome ≠ none := by
  intro r hmem hnone
  obtain ⟨old, -, -, hsettled⟩ := mem_settleWaiters hmem
  rw [hnone] at hsettled
  cases hold : old.outcome with
  | none | some =>
    rw [hold] at hsettled
    cases hsettled

/-- Those who were settled before stay so. -/
theorem fresh_settleWaiters (h : ∀ r ∈ s.relists, ∀ list, r.outcome = some (.landed list) →
      r.calledAt ≤ list ∧ list ∈ s.landed)
    (houtcome : ∀ list, outcome = .landed list → s.Called list ∧ list ∈ s.landed) :
    ∀ r ∈ (s.settleWaiters outcome).relists, ∀ list, r.outcome = some (.landed list) →
      r.calledAt ≤ list ∧ list ∈ s.landed := by
  intro r hmem list hlanded
  obtain ⟨old, hold, hcalledAt, hsettled⟩ := mem_settleWaiters hmem
  rw [hcalledAt]
  rw [hlanded] at hsettled
  cases hnone : old.outcome with
  | none =>
    rw [hnone] at hsettled
    obtain ⟨hcalled, hin⟩ := houtcome list (Option.some.inj hsettled).symm
    exact ⟨hcalled old hold hnone, hin⟩
  | some o =>
    rw [hnone] at hsettled
    exact h old hold list (hnone.trans hsettled.symm)

/-! ## Coming round -/

/-- The loop may come round: its version is the target's, and whoever waits has asked for a LIST. -/
structure Ready (s : ListWatch L) : Prop where
  target : s.Target
  called : s.Called s.lists
  fresh : ∀ r ∈ s.relists, ∀ list, r.outcome = some (.landed list) →
    r.calledAt ≤ list ∧ list ∈ s.landed
  stopped : s.stopped = true → s.aborted = true ∧ ∀ r ∈ s.relists, r.outcome ≠ none
  version : s.forceList = false → ∀ version ∈ s.resourceVersion, version = s.held
  owed : ∀ r ∈ s.relists, r.outcome = none → s.forceList = true

theorem Ready.turn (h : s.Ready) : s.turn.Ordered := by
  unfold ListWatch.turn
  split
  case isTrue hstopped =>
    refine ⟨h.target.of_same rfl rfl rfl rfl, trivial, ?_⟩
    refine ⟨h.called, h.fresh, h.stopped, fun _ => hstopped, fun _ _ => (h.stopped hstopped).1, ?_⟩
    intro r hmem hnone
    exact absurd hnone ((h.stopped hstopped).2 r hmem)
  case isFalse hstopped =>
    rw [Bool.not_eq_true] at hstopped
    have hnot : ∀ {P : Prop}, s.stopped = true → P := by
      intro P htrue
      rw [hstopped] at htrue
      cases htrue
    dsimp only
    split
    case h_1 hversion =>
      refine ⟨h.target.of_same rfl rfl rfl rfl, ⟨hversion, by simp, .inr h.called⟩, ?_⟩
      exact
        { called := fun r hmem hnone => Nat.le_succ_of_le (h.called r hmem hnone)
          fresh := h.fresh
          stopped := hnot
          done := by simp
          forced := by simp
          owed := fun r hmem hnone => .inr (h.called r hmem hnone) }
    case h_2 version hversion =>
      cases hforce : s.forceList with
      | true =>
        rw [hforce, if_pos rfl] at hversion
        cases hversion
      | false =>
        rw [hforce, if_neg Bool.false_ne_true] at hversion
        have hnobody : ∀ r ∈ s.relists, r.outcome ≠ none := by
          intro r hmem hnone
          rw [h.owed r hmem hnone] at hforce
          cases hforce
        refine ⟨h.target.of_same rfl rfl rfl rfl, ?_, ?_⟩
        · show (if false = true then none else s.resourceVersion) = some s.held
          rw [if_neg Bool.false_ne_true, hversion, h.version hforce version hversion]
        · exact
            { called := h.called
              fresh := h.fresh
              stopped := hnot
              done := by simp
              forced := by simp
              owed := fun r hmem hnone => absurd hnone (hnobody r hmem) }

/-- Whoever waits where no LIST is under way has asked for one. -/
theorem Owing.force (h : s.Owing) (hphase : ∀ n, ¬ s.phase.Lists n) :
    ∀ r ∈ s.relists, r.outcome = none → s.forceList = true := by
  intro r hmem hnone
  exact (h.owed r hmem hnone).resolve_right (hphase _)

/-- The cycle has thrown. -/
theorem Ordered.caught (h : s.Ordered) {gone : Bool}
    (hversion : gone = false → s.forceList = false → s.stopped = false →
      ∀ version ∈ s.resourceVersion, version = s.held)
    (hphase : gone = true → ∀ n, ¬ s.phase.Lists n) : (s.caught gone).Ordered := by
  unfold ListWatch.caught
  split
  case isTrue hstopped =>
    refine ⟨h.target.of_same rfl rfl rfl rfl, trivial, ?_⟩
    exact
      { called := fun r hmem hnone => absurd hnone (settled_settleWaiters r hmem)
        fresh := fresh_settleWaiters h.owing.fresh nofun
        stopped := fun hstopped => ⟨(h.owing.stopped hstopped).1, settled_settleWaiters⟩
        done := fun _ => hstopped
        forced := fun _ _ => (h.owing.stopped hstopped).1
        owed := fun r hmem hnone => absurd hnone (settled_settleWaiters r hmem) }
  case isFalse hstopped =>
    rw [Bool.not_eq_true] at hstopped
    split
    case isTrue hforce =>
      refine Ready.turn ⟨h.target, h.owing.called, h.owing.fresh, h.owing.stopped, fun hfree => ?_,
        fun _ _ _ => hforce⟩
      rw [hforce] at hfree
      cases hfree
    case isFalse hforce =>
      rw [Bool.not_eq_true] at hforce
      split
      case isTrue hgone =>
        refine Ready.turn ⟨h.target.of_same rfl rfl rfl rfl, h.owing.called, h.owing.fresh,
          h.owing.stopped, fun _ => nofun, h.owing.force (hphase hgone)⟩
      case isFalse hgone =>
        rw [Bool.not_eq_true] at hgone
        refine ⟨h.target.of_same rfl rfl rfl rfl, hversion hgone hforce hstopped, ?_⟩
        exact
          { called := fun r hmem hnone => absurd hnone (settled_settleWaiters r hmem)
            fresh := fresh_settleWaiters h.owing.fresh nofun
            stopped := fun hstopped => ⟨(h.owing.stopped hstopped).1, settled_settleWaiters⟩
            done := nofun
            forced := fun _ hforced => by cases hforce.symm.trans hforced
            owed := fun r hmem hnone => absurd hnone (settled_settleWaiters r hmem) }

/-! ## One step -/

/-- What the loop holds goes on where it is. -/
theorem Owing.of_same (h : s.Owing) (hrelists : t.relists = s.relists)
    (hlanded : t.landed = s.landed) (hlists : t.lists = s.lists) (hstopped : t.stopped = s.stopped)
    (haborted : t.aborted = s.aborted) (hforceList : t.forceList = s.forceList)
    (hphase : t.phase ≠ .idle ∧ t.phase ≠ .done ∧ s.phase ≠ .idle)
    (hlisting : ∀ r ∈ s.relists, r.outcome = none → s.phase.Lists r.calledAt →
      t.phase.Lists r.calledAt) : t.Owing where
  called := by
    unfold Called
    rw [hrelists, hlists]
    exact h.called
  fresh := by
    rw [hrelists, hlanded]
    exact h.fresh
  stopped := by
    rw [hrelists, hstopped, haborted]
    exact h.stopped
  done hdone := absurd hdone hphase.2.1
  forced _ hforce := by
    rw [haborted]
    exact h.forced hphase.2.2 (hforceList ▸ hforce)
  owed r hmem hnone := by
    rw [hrelists] at hmem
    rw [hforceList]
    exact (h.owed r hmem hnone).imp id (hlisting r hmem hnone)

/-- The loop stays where it is, and what holds there does. -/
theorem Placed.imp (h : s.Placed) (hphase : t.phase = s.phase)
    (hversion : t.resourceVersion = s.resourceVersion) (hheld : t.held = s.held)
    (hlanded : t.landed = s.landed) (hlog : s.log.length ≤ t.log.length)
    (hlisting : ∀ list served, s.phase = .listing list served →
      s.forceList = true ∨ s.Called list → t.forceList = true ∨ t.Called list)
    (hanswered : ∀ list served, s.phase = .answered list served →
      s.stopped = false ∧ s.Called list → t.stopped = false ∧ t.Called list)
    (happlied : ∀ list served, s.phase = .applied list served → s.Called list → t.Called list)
    (hstreaming : ∀ seen buffered, s.phase = .streaming seen buffered →
      (s.stopped = true → buffered = 0) → t.stopped = true → buffered = 0) : t.Placed := by
  unfold Placed at h ⊢
  rw [hphase, hversion, hheld, hlanded]
  cases hs : s.phase with
  | idle | connecting | waiting =>
    rw [hs] at h
    exact h
  | listing list served =>
    rw [hs] at h
    exact ⟨h.1, fun version hmem => ⟨(h.2.1 version hmem).1,
      Nat.le_trans (h.2.1 version hmem).2 hlog⟩, hlisting list served hs h.2.2⟩
  | answered list served =>
    rw [hs] at h
    exact ⟨h.1, Nat.le_trans h.2.1 hlog, hanswered list served hs h.2.2⟩
  | applied list served =>
    rw [hs] at h
    exact ⟨h.1, h.2.1, happlied list served hs h.2.2⟩
  | streaming seen buffered =>
    rw [hs] at h
    exact ⟨h.1, Nat.le_trans h.2.1 hlog, h.2.2.1, hstreaming seen buffered hs h.2.2.2⟩
  | done => trivial

section

variable (h : s.Ordered)
include h

theorem Ordered.change (change : Change L) :
    Ordered { s with log := s.log ++ [change] } := by
  refine ⟨h.target.change change, ?_, { h.owing with }⟩
  refine h.placed.imp rfl rfl rfl rfl ?_ (fun _ _ _ => id) (fun _ _ _ => id) (fun _ _ _ => id)
    fun _ _ _ => id
  rw [List.length_append]
  exact Nat.le_add_right _ _

theorem Ordered.start (hphase : s.phase = .idle) : s.turn.Ordered := by
  have hplaced := h.placed
  rw [Placed, hphase] at hplaced
  refine Ready.turn ⟨h.target, h.owing.called, h.owing.fresh, h.owing.stopped, fun _ => ?_,
    h.owing.force (by rw [hphase]; exact fun _ => id)⟩
  rw [hplaced.1]
  nofun

theorem Ordered.stop (hclear : s.Clear .stop) :
    Ordered { s.settleWaiters .stopped with stopped := true, aborted := true } := by
  unfold Clear at hclear
  refine ⟨h.target.of_same rfl rfl rfl rfl, ?_, ?_⟩
  · have hcalled : ∀ n, ({ s.settleWaiters .stopped with stopped := true, aborted := true } :
        ListWatch L).Called n :=
      fun n r hmem hnone => absurd hnone (settled_settleWaiters r hmem)
    refine h.placed.imp rfl rfl rfl rfl (Nat.le_refl _) (fun list _ _ _ => .inr (hcalled list)) ?_
      (fun list _ _ _ => hcalled list) fun seen buffered hphase _ _ => ?_
    · intro list served hphase
      rw [hphase] at hclear
      exact hclear.elim
    · rw [hphase] at hclear
      exact hclear
  · exact
      { called := fun r hmem hnone => absurd hnone (settled_settleWaiters r hmem)
        fresh := fresh_settleWaiters h.owing.fresh nofun
        stopped := fun _ => ⟨rfl, settled_settleWaiters⟩
        done := fun _ => rfl
        forced := fun _ _ => rfl
        owed := fun r hmem hnone => absurd hnone (settled_settleWaiters r hmem) }

/-- `relist()` after `stop()`. -/
theorem Ordered.relistStopped :
    Ordered { s with relists := s.relists ++ [⟨s.lists, some .stopped⟩] } := by
  have hwaits : ∀ r ∈ s.relists ++ [⟨s.lists, some .stopped⟩], r.outcome = none → r ∈ s.relists := by
    intro r hmem hnone
    obtain hmem | hmem := List.mem_append.1 hmem
    · exact hmem
    · obtain rfl := List.mem_singleton.1 hmem
      cases hnone
  refine ⟨h.target.of_same rfl rfl rfl rfl, ?_, ?_⟩
  · have hcalled : ∀ n, s.Called n →
        Called { s with relists := s.relists ++ [⟨s.lists, some .stopped⟩] } n :=
      fun n hn r hmem hnone => hn r (hwaits r hmem hnone) hnone
    exact h.placed.imp rfl rfl rfl rfl (Nat.le_refl _) (fun list _ _ => .imp id (hcalled list))
      (fun list _ _ => .imp id (hcalled list)) (fun list _ _ => hcalled list) fun _ _ _ => id
  · exact
      { called := fun r hmem hnone => h.owing.called r (hwaits r hmem hnone) hnone
        fresh := fun r hmem list hlanded => by
          obtain hmem | hmem := List.mem_append.1 hmem
          · exact h.owing.fresh r hmem list hlanded
          · obtain rfl := List.mem_singleton.1 hmem
            cases hlanded
        stopped := fun hstopped => ⟨(h.owing.stopped hstopped).1, fun r hmem hnone =>
          (h.owing.stopped hstopped).2 r (hwaits r hmem hnone) hnone⟩
        done := h.owing.done
        forced := h.owing.forced
        owed := fun r hmem hnone => h.owing.owed r (hwaits r hmem hnone) hnone }

/-- `relist()` before `stop()`: it waits, and asks for a LIST. -/
theorem Ordered.relist (hstopped : s.stopped = false) (hclear : s.Clear .relist) :
    Ordered
      { s with
        relists := s.relists ++ [⟨s.lists, none⟩], forceList := true, aborted := true } := by
  refine ⟨h.target.of_same rfl rfl rfl rfl, ?_, ?_⟩
  · have hanswer : ∀ {P : Prop}, s.stopped = true → P := by
      intro P htrue
      cases hstopped.symm.trans htrue
    unfold Clear at hclear
    refine h.placed.imp rfl rfl rfl rfl (Nat.le_refl _) (fun _ _ _ _ => .inl rfl) ?_ ?_
      fun _ _ _ => id
    · intro list served hphase
      rw [hphase] at hclear
      exact hanswer hclear
    · intro list served hphase
      rw [hphase] at hclear
      exact hanswer hclear
  · exact
      { called := fun r hmem hnone => by
          obtain hmem | hmem := List.mem_append.1 hmem
          · exact h.owing.called r hmem hnone
          · obtain rfl := List.mem_singleton.1 hmem
            exact Nat.le_refl _
        fresh := fun r hmem list hlanded => by
          obtain hmem | hmem := List.mem_append.1 hmem
          · exact h.owing.fresh r hmem list hlanded
          · obtain rfl := List.mem_singleton.1 hmem
            cases hlanded
        stopped := fun htrue => by cases hstopped.symm.trans htrue
        done := h.owing.done
        forced := fun _ _ => rfl
        owed := fun _ _ _ => .inl rfl }

theorem Ordered.serve (hphase : s.phase = .listing list none) :
    Ordered { s with phase := .listing list (some s.log.length) } := by
  have hplaced := h.placed
  rw [Placed, hphase] at hplaced
  refine ⟨h.target.of_same rfl rfl rfl rfl, ⟨hplaced.1, fun version hmem => ?_, hplaced.2.2⟩, ?_⟩
  · cases hmem
    exact ⟨h.target.bound, Nat.le_refl _⟩
  · refine h.owing.of_same rfl rfl rfl rfl rfl rfl ⟨nofun, nofun, by rw [hphase]; nofun⟩ ?_
    intro r _ _ hlists
    rw [hphase] at hlists
    exact hlists

theorem Ordered.answer {served : Nat}
    (hphase : s.phase = .listing list (some served)) (haborted : s.aborted = false) :
    Ordered { s with phase := .answered list served } := by
  have hplaced := h.placed
  rw [Placed, hphase] at hplaced
  have hidle : s.phase ≠ .idle := by
    rw [hphase]
    nofun
  refine ⟨h.target.of_same rfl rfl rfl rfl, ?_, ?_⟩
  · refine ⟨(hplaced.2.1 served rfl).1, (hplaced.2.1 served rfl).2, ?_, ?_⟩
    · refine Bool.eq_false_iff.2 fun hstopped => ?_
      cases haborted.symm.trans (h.owing.stopped hstopped).1
    · refine hplaced.2.2.resolve_left fun hforce => ?_
      cases haborted.symm.trans (h.owing.forced hidle hforce)
  · refine h.owing.of_same rfl rfl rfl rfl rfl rfl ⟨nofun, nofun, hidle⟩ ?_
    intro r _ _ hlists
    rw [hphase] at hlists
    exact hlists

theorem Ordered.replaceAll {served : Nat}
    (hphase : s.phase = .answered list served) :
    Ordered
      { s.land (JsMap.empty.setAll (snapshot s.log served).entries) served with
        phase := .applied list served, landed := s.landed ++ [list] } := by
  have hplaced := h.placed
  rw [Placed, hphase] at hplaced
  obtain ⟨hheld, hbound, hstopped, hcalled⟩ := hplaced
  have htarget := h.target.land hstopped hheld hbound
    (JsMap.get_setAll_entries (snapshot s.log served))
  refine ⟨htarget.of_same rfl rfl rfl rfl, ⟨?_, ?_, hcalled⟩, ?_⟩
  · exact List.getLastD_concat
  · exact List.mem_append_right _ (List.mem_singleton.2 rfl)
  · refine
      { called := h.owing.called
        fresh := fun r hmem list hlanded => ?_
        stopped := h.owing.stopped
        done := nofun
        forced := fun _ hforce => h.owing.forced (by rw [hphase]; nofun) hforce
        owed := fun r hmem hnone => .inr (hcalled r hmem hnone) }
    obtain ⟨hle, hin⟩ := h.owing.fresh r hmem list hlanded
    exact ⟨hle, List.mem_append_left _ hin⟩

theorem Ordered.resume {served : Nat} (hphase : s.phase = .applied list served)
    (hstep : s.step .resume = some t) : t.Ordered := by
  have hplaced := h.placed
  rw [Placed, hphase] at hplaced
  obtain ⟨rfl, hlanded, hcalled⟩ := hplaced
  have houtcome : ∀ list', Relisted.landed list = .landed list' →
      s.Called list' ∧ list' ∈ s.landed := by
    intro list' heq
    obtain rfl := Relisted.landed.inj heq
    exact ⟨hcalled, hlanded⟩
  have hfresh := fresh_settleWaiters h.owing.fresh houtcome
  have hsettled : ∀ r ∈ (s.settleWaiters (.landed list)).relists, r.outcome ≠ none :=
    settled_settleWaiters
  dsimp only [ListWatch.step] at hstep
  rw [hphase] at hstep
  cases hstep
  split
  case isTrue =>
    refine Ready.turn ⟨h.target.of_same rfl rfl rfl rfl, ?_, hfresh, ?_, ?_, ?_⟩
    · exact fun r hmem hnone => absurd hnone (hsettled r hmem)
    · exact fun hstopped => ⟨(h.owing.stopped hstopped).1, hsettled⟩
    · exact fun _ version hmem => (Option.some.inj hmem).symm
    · exact fun r hmem hnone => absurd hnone (hsettled r hmem)
  case isFalse hgoes =>
    refine ⟨h.target.of_same rfl rfl rfl rfl, rfl, ?_⟩
    exact
      { called := fun r hmem hnone => absurd hnone (hsettled r hmem)
        fresh := hfresh
        stopped := fun hstopped => ⟨(h.owing.stopped hstopped).1, hsettled⟩
        done := nofun
        forced := fun _ hforce => h.owing.forced (by rw [hphase]; nofun) hforce
        owed := fun r hmem hnone => absurd hnone (hsettled r hmem) }

theorem Ordered.connected (hphase : s.phase = .connecting)
    (hversion : s.resourceVersion = some version) :
    Ordered { s with phase := .streaming version 0 } := by
  have hplaced := h.placed
  rw [Placed, hphase] at hplaced
  cases hversion.symm.trans hplaced
  refine ⟨h.target.of_same rfl rfl rfl rfl, ⟨rfl, h.target.bound, ?_, fun _ => rfl⟩, ?_⟩
  · rw [hversion]
    nofun
  · refine h.owing.of_same rfl rfl rfl rfl rfl rfl ⟨nofun, nofun, by rw [hphase]; nofun⟩ ?_
    intro r _ _ hlists
    rw [hphase] at hlists
    exact hlists

theorem Ordered.arrive {seen buffered : Nat}
    (hphase : s.phase = .streaming seen buffered) (haborted : s.aborted = false)
    (hmore : seen + buffered < s.log.length) :
    Ordered { s with phase := .streaming seen (buffered + 1) } := by
  have hplaced := h.placed
  rw [Placed, hphase] at hplaced
  refine ⟨h.target.of_same rfl rfl rfl rfl, ⟨hplaced.1, hmore, hplaced.2.2.1, fun hstopped => ?_⟩, ?_⟩
  · cases haborted.symm.trans (h.owing.stopped hstopped).1
  · refine h.owing.of_same rfl rfl rfl rfl rfl rfl ⟨nofun, nofun, by rw [hphase]; nofun⟩ ?_
    intro r _ _ hlists
    rw [hphase] at hlists
    exact hlists

theorem Ordered.apply {seen buffered : Nat} {change : Change L}
    (hphase : s.phase = .streaming seen (buffered + 1)) (hget : s.log[seen]? = some change) :
    Ordered
      { s.land (applyChange s.leases change) (seen + 1) with
        phase := .streaming (seen + 1) buffered } := by
  have hplaced := h.placed
  rw [Placed, hphase] at hplaced
  obtain ⟨hheld, hbound, hversion, hdry⟩ := hplaced
  have hstopped : s.stopped = false := Bool.eq_false_iff.2 fun hstopped => by cases hdry hstopped
  have hleases : ∀ name, (applyChange s.leases change).get name =
      (snapshot s.log (seen + 1)).get name := by
    intro name
    rw [snapshot_succ hget, ← hheld]
    exact get_applyChange h.target.faithful change name
  have htarget := h.target.land hstopped (Nat.le_succ_of_le (Nat.le_of_eq hheld)) (by omega) hleases
  refine ⟨htarget.of_same rfl rfl rfl rfl, ⟨List.getLastD_concat, ?_, hversion, fun hstop => ?_⟩, ?_⟩
  · show seen + 1 + buffered ≤ s.log.length
    omega
  · cases hstopped.symm.trans hstop
  · refine h.owing.of_same rfl rfl rfl rfl rfl rfl ⟨nofun, nofun, by rw [hphase]; nofun⟩ ?_
    intro r _ _ hlists
    rw [hphase] at hlists
    exact hlists

theorem Ordered.end_ {seen : Nat} (hphase : s.phase = .streaming seen 0) :
    ({ s with resourceVersion := some seen } : ListWatch L).turn.Ordered := by
  have hplaced := h.placed
  rw [Placed, hphase] at hplaced
  refine Ready.turn ⟨h.target.of_same rfl rfl rfl rfl, h.owing.called, h.owing.fresh,
    h.owing.stopped, fun _ version hmem => ?_, h.owing.force (by rw [hphase]; exact fun _ => id)⟩
  cases hmem
  exact hplaced.1.symm

theorem Ordered.wake (hphase : s.phase = .waiting) : s.turn.Ordered := by
  have hplaced := h.placed
  rw [Placed, hphase] at hplaced
  exact Ready.turn ⟨h.target, h.owing.called, h.owing.fresh, h.owing.stopped, fun _ => hplaced,
    h.owing.force (by rw [hphase]; exact fun _ => id)⟩

theorem Ordered.fail {gone : Bool} (hclear : s.Clear (.fail gone))
    (hstep : s.step (.fail gone) = some t) : t.Ordered := by
  have hplaced := h.placed
  unfold Placed at hplaced
  unfold Clear at hclear
  dsimp only [ListWatch.step] at hstep
  split at hstep
  case h_1 list served hphase =>
    rw [hphase] at hplaced
    obtain ⟨-, rfl⟩ := guard_past_taken hstep
    refine h.caught (fun _ _ _ => ?_) nofun
    rw [hplaced.1]
    nofun
  case h_2 hphase =>
    rw [hphase] at hplaced
    cases hstep
    refine h.caught (fun _ _ _ version hmem => ?_) fun _ _ => by rw [hphase]; exact id
    exact Option.some.inj (hmem.symm.trans hplaced)
  case h_3 seen hphase =>
    rw [hphase] at hplaced hclear
    cases hstep
    refine h.caught (fun hgone hforce hstopped version hmem => ?_) fun _ _ => by
      rw [hphase]; exact id
    obtain hclear | hclear | hclear | hclear := hclear
    · cases hgone.symm.trans hclear
    · cases hforce.symm.trans hclear
    · cases hstopped.symm.trans hclear
    · exact (Option.some.inj (hmem.symm.trans hclear)).trans hplaced.1.symm
  case h_4 => cases hstep

/-- The step lemma. -/
theorem Ordered.step {l : Label L} (hclear : s.Clear l)
    (hstep : s.step l = some t) : t.Ordered := by
  cases l with
  | change change =>
    cases hstep
    exact h.change change
  | start =>
    obtain ⟨hphase, rfl⟩ := guard_taken hstep
    exact h.start hphase
  | stop =>
    cases hstep
    exact h.stop hclear
  | relist =>
    dsimp only [ListWatch.step] at hstep
    split at hstep
    · cases hstep
      exact h.relistStopped
    · rename_i hstopped
      cases hstep
      exact h.relist (Bool.eq_false_iff.2 hstopped) hclear
  | serve =>
    dsimp only [ListWatch.step] at hstep
    split at hstep
    · rename_i hphase
      cases hstep
      exact h.serve hphase
    · cases hstep
  | answer =>
    dsimp only [ListWatch.step] at hstep
    split at hstep
    · rename_i hphase
      split at hstep
      · cases hstep
      rename_i haborted
      cases hstep
      exact h.answer hphase (Bool.eq_false_iff.2 haborted)
    · cases hstep
  | replaceAll =>
    dsimp only [ListWatch.step] at hstep
    split at hstep
    · rename_i hphase
      cases hstep
      exact h.replaceAll hphase
    · cases hstep
  | resume =>
    cases hphase : s.phase with
    | applied list served => exact h.resume hphase hstep
    | _ =>
      dsimp only [ListWatch.step] at hstep
      rw [hphase] at hstep
      cases hstep
  | connected =>
    dsimp only [ListWatch.step] at hstep
    split at hstep
    · rename_i hphase hversion
      obtain ⟨-, rfl⟩ := guard_past_taken hstep
      exact h.connected hphase hversion
    · cases hstep
  | arrive =>
    dsimp only [ListWatch.step] at hstep
    split at hstep
    · rename_i hphase
      split at hstep
      · cases hstep
      rename_i hmore
      cases hstep
      rw [Bool.or_eq_true, not_or, Bool.not_eq_true, decide_eq_true_eq, Nat.not_le] at hmore
      exact h.arrive hphase hmore.1 hmore.2
    · cases hstep
  | apply =>
    dsimp only [ListWatch.step] at hstep
    split at hstep
    · rename_i hphase
      obtain ⟨change, hget, rfl⟩ := Option.map_eq_some_iff.1 hstep
      exact h.apply hphase hget
    · cases hstep
  | end_ =>
    dsimp only [ListWatch.step] at hstep
    split at hstep
    · rename_i hphase
      cases hstep
      exact h.end_ hphase
    · cases hstep
  | fail gone => exact h.fail hclear hstep
  | wake =>
    obtain ⟨hphase, rfl⟩ := guard_taken hstep
    exact h.wake hphase

end

theorem ordered_initial (h : s.initial) : s.Ordered := by
  obtain ⟨log, rfl⟩ := h
  refine ⟨⟨Nat.zero_le _, .nil, fun _ => rfl, rfl⟩, ⟨rfl, rfl⟩, ?_⟩
  exact
    { called := nofun
      fresh := nofun
      stopped := nofun
      done := nofun
      forced := nofun
      owed := nofun }

/-- Nobody waits when a LIST has landed, or the loop was stopped. -/
theorem settled_of_step (hstep : s.step .resume = some t ∨ s.step .stop = some t) :
    ∀ r ∈ t.relists, r.outcome ≠ none := by
  have hturn : ∀ s : ListWatch L, s.turn.relists = s.relists := by
    intro s
    unfold ListWatch.turn
    split
    · rfl
    · dsimp only
      split <;> rfl
  obtain hstep | hstep := hstep
  · dsimp only [ListWatch.step] at hstep
    split at hstep
    · cases hstep
      split
      · rw [hturn]
        exact settled_settleWaiters
      · exact settled_settleWaiters
    · cases hstep
  · cases hstep
    exact settled_settleWaiters

theorem Ordered.coherent (h : s.Ordered) : s.Coherent where
  fresh := h.owing.fresh
  owed r hmem hnone := by
    have hstopped : s.stopped = false :=
      Bool.eq_false_iff.2 fun hstopped => (h.owing.stopped hstopped).2 r hmem hnone
    refine ⟨hstopped, fun hdone => ?_, h.owing.owed r hmem hnone⟩
    cases hstopped.symm.trans (h.owing.done hdone)
  settles _ := settled_of_step
  forward := h.target.forward
  faithful := h.target.faithful
  ended := h.target.ended

end ListWatch

/-- **The loop keeps its promises**, in every run in which nobody calls `relist()` or `stop()` where
an answer is in, and no stream that has brought an event fails. -/
theorem coherent_of_clear {L : Type} {s : ListWatch L}
    (h : (listWatchLoop L).Reach ListWatch.Clear s) : s.Coherent := by
  have hordered : s.Ordered := by
    refine h.invariant (fun _ => ListWatch.ordered_initial) ?_
    intro s l t hs hok hstep
    exact hs.step hok hstep
  exact hordered.coherent

/-! ## Runs that do not -/

instance (s : ListWatch Nat) (l : ListWatch.Label Nat) : Decidable (s.Clear l) := by
  unfold ListWatch.Clear
  split
  · split <;> infer_instance
  · split <;> infer_instance
  · split <;> infer_instance
  · infer_instance

/-- The first LIST lands, and the watch is open. -/
def watching : List (ListWatch.Label Nat) :=
  [.start, .serve, .answer, .replaceAll, .resume, .connected]

/-- Two leases appear. -/
def appear : List (ListWatch.Label Nat) :=
  [.change ⟨"a", some 1⟩, .arrive, .apply, .change ⟨"a", some 2⟩, .arrive, .apply]

/-- A resync while the stream is open. -/
theorem coherent_resync :
    ∃ s : ListWatch Nat, (listWatchLoop Nat).Reach ListWatch.Clear s ∧ s.applied = [0, 1, 2, 2] ∧
      s.relists = [⟨1, some (.landed 1)⟩] ∧ s.Coherent := by
  have hstart : (listWatchLoop Nat).Reach ListWatch.Clear {} := .start ⟨[], rfl⟩
  have hrun := hstart.exec_get
    (watching ++ appear ++ [.relist, .fail false, .serve, .answer, .replaceAll, .resume]) (by decide)
  exact ⟨_, hrun, by decide, by decide, coherent_of_clear hrun⟩

/-- A `relist()` is fulfilled with the LIST of before; a watch that has failed is resumed from where
it had begun; and an answer is applied after `stop()`. -/
theorem not_coherent :
    (¬ ∀ s : ListWatch Nat, (listWatchLoop Nat).Reachable s → ∀ r ∈ s.relists, ∀ list,
      r.outcome = some (.landed list) → r.calledAt ≤ list) ∧
    (¬ ∀ s : ListWatch Nat, (listWatchLoop Nat).Reachable s → s.applied.Pairwise (· ≤ ·)) ∧
    ¬ ∀ s : ListWatch Nat, (listWatchLoop Nat).Reachable s → s.late = [] := by
  have hstart : (listWatchLoop Nat).Reachable {} := .start ⟨[], rfl⟩
  refine ⟨fun h => ?_, fun h => ?_, fun h => ?_⟩
  · have hrun := hstart.exec_get [.start, .serve, .answer, .relist, .replaceAll, .resume] (by decide)
    exact absurd (h _ hrun _ List.mem_cons_self 0 rfl) (by decide)
  · have hrun := hstart.exec_get
      (watching ++ appear ++ [.fail false, .wake, .connected, .arrive, .apply]) (by decide)
    exact absurd (h _ hrun) (by decide)
  · have hrun := hstart.exec_get [.start, .serve, .answer, .stop, .replaceAll] (by decide)
    cases h _ hrun

end SigxActors.Kubernetes
