/-
  Cluster/HeartbeatClock.lean --- a host that no longer proves its membership suspects itself.

  Source: `heartbeatClock` of `packages/actors/src/cluster/heartbeat-clock.ts`, and the beats
  of its providers.

  A write of the record lives one TTL from the instant it lands, which the host does not
  see: it sees the acknowledgement, a while later, and opens its window there.  For the
  last part of the window, as long as that while was, the record may be gone while the
  clock is content.

  Time is the store's.  What the host's clocks read is up to them.
-/
import SigxActors.Machine.Transition

set_option autoImplicit false

namespace SigxActors.Cluster

/-- What the host's two clocks read. -/
structure Readings where
  monotonicNow : Int
  wallNow : Int
  deriving DecidableEq, Repr

structure HeartbeatClock where
  armed : Bool := false
  mono : Int := 0
  wall : Int := 0
  suspected : Bool := false
  deriving DecidableEq, Repr

namespace HeartbeatClock

variable (ttlMs : Int) (c : HeartbeatClock) (r : Readings)

/-- `open`. -/
def open_ : HeartbeatClock :=
  { armed := true, mono := r.monotonicNow, wall := r.wallNow, suspected := false }

/-- What the clocks show of the window. -/
def elapsed : Int := max (r.monotonicNow - c.mono) (r.wallNow - c.wall)

def lapsed : Bool := c.armed && decide (ttlMs < c.elapsed r)

/-- The clock, and whether `onSuspect` is called. -/
def fire : HeartbeatClock × Bool :=
  if c.suspected || !c.armed then (c, false) else ({ c with suspected := true }, true)

def suspect : HeartbeatClock × Bool :=
  if c.suspected || !c.lapsed ttlMs r then (c, false) else c.fire

def arm : HeartbeatClock := open_ r

def beat : HeartbeatClock × Bool := c.suspect ttlMs r

def confirmed : HeartbeatClock × Bool :=
  (open_ r, (c.suspect ttlMs r).2)

def failed : HeartbeatClock × Bool := c.suspect ttlMs r

def lost : HeartbeatClock × Bool := c.fire

end HeartbeatClock

/-- A write of the record. -/
structure RecordWrite where
  landed : Bool := false
  /-- It was acknowledged, or has failed. -/
  settled : Bool := false
  deriving DecidableEq, Repr

/-- A host, its record in the store, and the time. -/
structure Heartbeats where
  clock : HeartbeatClock := {}
  readings : Readings
  now : Int
  writes : List RecordWrite := []
  /-- When a write has landed, the last one first. -/
  landings : List Int := []
  armedAt : Option Int := none
  /-- When the window was opened. -/
  openedAt : Int := now
  /-- When the clock was asked last. -/
  askedAt : Int := now
  /-- The calls of `onSuspect` since the clock was armed. -/
  suspects : Nat := 0
  /-- How many windows have been opened. -/
  windows : Nat := 0
  /-- The windows in which `onSuspect` was called. -/
  fired : List Nat := []

namespace Heartbeats

variable (ttlMs : Int) (s : Heartbeats)

/-- The record is in the store at the instant `t`. -/
def PresentAt (t : Int) : Prop := ∃ landing ∈ s.landings, landing ≤ t ∧ t ≤ landing + ttlMs

/-- The clock was asked. -/
def asked (answer : HeartbeatClock × Bool) : Heartbeats :=
  { s with
    clock := answer.1
    askedAt := s.now
    suspects := s.suspects + answer.2.toNat
    fired := if answer.2 then s.windows :: s.fired else s.fired }

/-- Its window is opened. -/
def opened (clock : HeartbeatClock) : Heartbeats :=
  { s with clock := clock, openedAt := s.now, windows := s.windows + 1 }

inductive Label where
  /-- Time passes, and the clocks move as they will. -/
  | pass (ms : Nat) (readings : Readings)
  | arm
  /-- A beat: the clock is asked, and a write is sent. -/
  | beat
  /-- A write that is no beat's: the one that joins, or that of a status. -/
  | send
  | land (id : Nat)
  | ack (id : Nat)
  | fail (id : Nat)
  /-- The store has answered that there is no record. -/
  | lost

/-- A write is sent. -/
def sent : Heartbeats := { s with writes := s.writes ++ [{}] }

def step : Label → Option Heartbeats
  | .pass ms readings => some { s with now := s.now + ms, readings := readings }
  | .arm =>
      some
        { s.opened (HeartbeatClock.arm s.readings) with
          armedAt := some s.now, askedAt := s.now, suspects := 0 }
  | .beat => some (s.asked (s.clock.beat ttlMs s.readings)).sent
  | .send => some s.sent
  | .land id =>
      match s.writes[id]? with
      | some write =>
          if write.landed then none
          else
            some
              { s with
                writes := s.writes.set id { write with landed := true }
                landings := s.now :: s.landings }
      | none => none
  | .ack id =>
      match s.writes[id]? with
      | some write =>
          if write.landed && !write.settled then
            let answer := s.clock.confirmed ttlMs s.readings
            some
              { (s.asked answer).opened answer.1 with
                writes := s.writes.set id { write with settled := true } }
          else none
      | none => none
  | .fail id =>
      match s.writes[id]? with
      | some write =>
          if write.settled then none
          else
            some
              { s.asked (s.clock.failed ttlMs s.readings) with
                writes := s.writes.set id { write with settled := true } }
      | none => none
  | .lost => some (s.asked s.clock.lost)

/-- The host has just started. -/
def initial (s : Heartbeats) : Prop :=
  ∃ readings now, s = { readings := readings, now := now }

end Heartbeats

/-- The machine of one host's heartbeats. -/
def heartbeats (ttlMs : Int) : Machine.System Heartbeats Heartbeats.Label where
  initial := Heartbeats.initial
  step := Heartbeats.step ttlMs

namespace Heartbeats

variable {ttlMs : Int} {s d : Heartbeats}

/-! ## The terms -/

/-- A host that has not suspected itself since it was armed has had its record in the store at
every instant until the clock was asked last; and it suspects itself once a window. -/
structure Sound (ttlMs : Int) (s : Heartbeats) : Prop where
  present : ∀ armedAt, s.armedAt = some armedAt → s.suspects = 0 →
    ∀ t, armedAt ≤ t → t ≤ s.askedAt → s.PresentAt ttlMs t
  once : s.fired.Nodup

/-- The record is there until `t`, as the last write has left it. -/
def LivesTo (ttlMs : Int) (s : Heartbeats) (t : Int) : Prop :=
  ∃ landing ∈ s.landings.head?, t ≤ landing + ttlMs

instance (t : Int) : Decidable (s.LivesTo ttlMs t) :=
  inferInstanceAs (Decidable (∃ landing ∈ s.landings.head?, _))

/-- One clock at least shows the time that has passed since the window was opened. -/
def Honest (s : Heartbeats) : Prop := s.now - s.openedAt ≤ s.clock.elapsed s.readings

instance : Decidable s.Honest := inferInstanceAs (Decidable (_ ≤ _))

/-- The record is there when the clock is armed, and then the clocks show the time. -/
def Kept (ttlMs : Int) (s : Heartbeats) : Label → Prop
  | .arm => s.LivesTo ttlMs s.now
  | .beat | .ack _ | .fail _ => s.armedAt.isSome = true → s.Honest
  | _ => True

/-- Nothing happens where the record is gone and the window is not over. -/
def Clear (ttlMs : Int) (s : Heartbeats) (l : Label) : Prop :=
  s.Kept ttlMs l ∧
    match l with
    | .beat | .land _ | .ack _ | .fail _ =>
        s.armedAt.isSome = true → s.now ≤ s.openedAt + ttlMs → s.LivesTo ttlMs s.now
    | _ => True

/-! ## The latch -/

/-- A window in which `onSuspect` was called is over, or latched. -/
structure Latched (s : Heartbeats) : Prop where
  nodup : s.fired.Nodup
  past : ∀ window ∈ s.fired, window < s.windows ∨ window = s.windows ∧ s.clock.suspected = true

/-- `onSuspect` is called by a clock that is not latched, and latches it. -/
theorem fire_latches {c : HeartbeatClock} :
    (c.fire.2 = true → c.suspected = false ∧ c.fire.1.suspected = true) ∧
      (c.suspected = true → c.fire.1.suspected = true) := by
  unfold HeartbeatClock.fire
  split
  · exact ⟨nofun, id⟩
  rename_i hfree
  rw [Bool.or_eq_true, not_or, Bool.not_eq_true] at hfree
  exact ⟨fun _ => ⟨hfree.1, rfl⟩, fun _ => rfl⟩

theorem suspect_latches {c : HeartbeatClock} {r : Readings} : ((c.suspect ttlMs r).2 = true →
      c.suspected = false ∧ (c.suspect ttlMs r).1.suspected = true) ∧
      (c.suspected = true → (c.suspect ttlMs r).1.suspected = true) := by
  unfold HeartbeatClock.suspect
  split
  · exact ⟨nofun, id⟩
  · exact fire_latches

theorem Latched.asked (h : s.Latched) {answer : HeartbeatClock × Bool}
    (hanswer : (answer.2 = true → s.clock.suspected = false ∧ answer.1.suspected = true) ∧
      (s.clock.suspected = true → answer.1.suspected = true)) : (s.asked answer).Latched := by
  unfold Heartbeats.asked
  cases hfired : answer.2 with
  | false =>
    refine ⟨h.nodup, fun window hmem => ?_⟩
    exact (h.past window hmem).imp id fun hnow => ⟨hnow.1, hanswer.2 hnow.2⟩
  | true =>
    obtain ⟨hfree, hlatched⟩ := hanswer.1 hfired
    have hpast : ∀ window ∈ s.fired, window < s.windows := by
      intro window hmem
      refine (h.past window hmem).resolve_right fun hnow => ?_
      rw [hfree] at hnow
      cases hnow.2
    refine ⟨List.nodup_cons.2 ⟨fun hmem => Nat.lt_irrefl _ (hpast _ hmem), h.nodup⟩, ?_⟩
    intro window hmem
    obtain rfl | hmem := List.mem_cons.1 hmem
    · exact .inr ⟨rfl, hlatched⟩
    · exact .inl (hpast window hmem)

theorem Latched.opened (h : s.Latched) (clock : HeartbeatClock) : (s.opened clock).Latched := by
  refine ⟨h.nodup, fun window hmem => .inl ?_⟩
  obtain hpast | ⟨rfl, -⟩ := h.past window hmem
  · exact Nat.lt_succ_of_lt hpast
  · exact Nat.lt_succ_self _

theorem Latched.of_same (h : s.Latched) (hfired : d.fired = s.fired)
    (hwindows : d.windows = s.windows) (hclock : d.clock = s.clock) : d.Latched :=
  ⟨hfired ▸ h.nodup, hfired ▸ hwindows ▸ hclock ▸ h.past⟩

theorem Latched.step (h : s.Latched) {l : Label} (hstep : s.step ttlMs l = some d) : d.Latched := by
  cases l with dsimp only [Heartbeats.step] at hstep
  | pass | send =>
    cases hstep
    exact h.of_same rfl rfl rfl
  | arm =>
    cases hstep
    exact (h.opened (HeartbeatClock.arm s.readings)).of_same rfl rfl rfl
  | beat =>
    cases hstep
    exact (h.asked suspect_latches).of_same rfl rfl rfl
  | land id =>
    split at hstep
    · split at hstep
      · cases hstep
      · cases hstep
        exact h.of_same rfl rfl rfl
    · cases hstep
  | ack id =>
    split at hstep
    · split at hstep
      · cases hstep
        have hasked : (s.asked (s.clock.suspect ttlMs s.readings)).Latched :=
          h.asked suspect_latches
        exact (hasked.opened (HeartbeatClock.open_ s.readings)).of_same rfl rfl rfl
      · cases hstep
    · cases hstep
  | fail id =>
    split at hstep
    · split at hstep
      · cases hstep
      · cases hstep
        exact (h.asked suspect_latches).of_same rfl rfl rfl
    · cases hstep
  | lost =>
    cases hstep
    exact (h.asked fire_latches).of_same rfl rfl rfl

/-! ## The record -/

/-- While the host does not suspect itself the record has been there until `until_`: the end of
the last write's TTL, if the window is not over. -/
def Unbroken (ttlMs : Int) (s : Heartbeats) (armedAt : Int) : Prop :=
  s.clock.armed = true ∧ s.clock.suspected = false ∧ s.openedAt ≤ s.now ∧ ∃ until_,
    s.askedAt ≤ until_ ∧ (∀ t, armedAt ≤ t → t ≤ until_ → s.PresentAt ttlMs t) ∧
      ((∃ landing ∈ s.landings.head?, until_ = landing + ttlMs) ∨ s.openedAt + ttlMs < s.now)

/-- No write has landed yet to come. -/
def Past (s : Heartbeats) : Prop := ∀ landing ∈ s.landings, landing ≤ s.now

/-- The record is there, unless the host has suspected itself. -/
structure Present (ttlMs : Int) (s : Heartbeats) : Prop where
  past : s.Past
  unbroken : ∀ armedAt, s.armedAt = some armedAt → s.suspects = 0 → s.Unbroken ttlMs armedAt

/-- The window is over, and its clock knows. -/
theorem lapsed_of_over (harmed : s.clock.armed = true) (hhonest : s.Honest)
    (hover : s.openedAt + ttlMs < s.now) : s.clock.lapsed ttlMs s.readings = true := by
  unfold HeartbeatClock.lapsed
  rw [harmed, Bool.true_and, decide_eq_true_iff]
  unfold Honest at hhonest
  omega

/-- A host that is asked, and does not suspect itself, has its record there still. -/
theorem Unbroken.asked {armedAt : Int} (h : s.Unbroken ttlMs armedAt) (hhonest : s.Honest)
    (hclear : s.now ≤ s.openedAt + ttlMs → s.LivesTo ttlMs s.now)
    (hquiet : (s.clock.suspect ttlMs s.readings).2 = false) :
    (s.clock.suspect ttlMs s.readings).1 = s.clock ∧
      ∃ landing ∈ s.landings.head?, s.now ≤ landing + ttlMs ∧
        ∀ t, armedAt ≤ t → t ≤ landing + ttlMs → s.PresentAt ttlMs t := by
  obtain ⟨harmed, hfree, -, until_, -, hpresent, hend⟩ := h
  have hopen : s.clock.lapsed ttlMs s.readings = false := by
    rw [← Bool.not_eq_true]
    intro hlapsed
    unfold HeartbeatClock.suspect at hquiet
    unfold HeartbeatClock.fire at hquiet
    rw [hfree, hlapsed, harmed] at hquiet
    cases hquiet
  have hwithin : s.now ≤ s.openedAt + ttlMs := by
    refine Int.not_lt.1 fun hover => ?_
    rw [lapsed_of_over harmed hhonest hover] at hopen
    cases hopen
  refine ⟨?_, ?_⟩
  · unfold HeartbeatClock.suspect
    rw [hopen]
    rw [if_pos (by simp)]
  · obtain ⟨landing, hhead, rfl⟩ | hover := hend
    · obtain ⟨landing', hhead', hlives⟩ := hclear hwithin
      cases hhead.symm.trans hhead'
      exact ⟨landing, hhead, hlives, hpresent⟩
    · exact absurd hover (Int.not_lt.2 hwithin)

/-- Nothing that the record or the window depends on has changed. -/
theorem Present.of_same (h : s.Present ttlMs) (hlandings : d.landings = s.landings)
    (hnow : d.now = s.now) (harmedAt : d.armedAt = s.armedAt) (hsuspects : d.suspects = s.suspects)
    (hclock : d.clock = s.clock) (hopenedAt : d.openedAt = s.openedAt)
    (haskedAt : d.askedAt = s.askedAt) : d.Present ttlMs := by
  refine ⟨?_, ?_⟩
  · unfold Past
    rw [hlandings, hnow]
    exact h.past
  · unfold Unbroken PresentAt
    rw [harmedAt, hsuspects, hclock, hopenedAt, haskedAt, hlandings, hnow]
    exact h.unbroken

theorem Present.pass (h : s.Present ttlMs) (ms : Nat) (readings : Readings) :
    Present ttlMs { s with now := s.now + ms, readings := readings } := by
  refine ⟨fun landing hmem => Int.le_trans (h.past landing hmem) (by dsimp only; omega), ?_⟩
  intro armedAt harmedAt hsuspects
  obtain ⟨harmed, hfree, hopened, until_, hasked, hpresent, hend⟩ :=
    h.unbroken armedAt harmedAt hsuspects
  refine ⟨harmed, hfree, by dsimp only; omega, until_, hasked, hpresent, hend.imp id fun hover => ?_⟩
  dsimp only
  omega

theorem Present.arm (h : s.Present ttlMs) (hlives : s.LivesTo ttlMs s.now) :
    Present ttlMs
      { s.opened (HeartbeatClock.arm s.readings) with
        armedAt := some s.now, askedAt := s.now, suspects := 0 } := by
  refine ⟨h.past, fun armedAt harmedAt _ => ?_⟩
  cases harmedAt
  obtain ⟨landing, hhead, hnow⟩ := hlives
  refine ⟨rfl, rfl, Int.le_refl _, landing + ttlMs, hnow, fun t harmed ht => ?_,
    .inl ⟨landing, hhead, rfl⟩⟩
  have hmem := List.mem_of_mem_head? hhead
  exact ⟨landing, hmem, Int.le_trans (h.past landing hmem) harmed, ht⟩

theorem Present.land (h : s.Present ttlMs)
    (hclear : s.armedAt.isSome = true → s.now ≤ s.openedAt + ttlMs → s.LivesTo ttlMs s.now) :
    Present ttlMs { s with landings := s.now :: s.landings } := by
  refine ⟨fun landing hmem => ?_, fun armedAt harmedAt hsuspects => ?_⟩
  · obtain rfl | hmem := List.mem_cons.1 hmem
    · exact Int.le_refl _
    · exact h.past landing hmem
  obtain ⟨harmed, hfree, hopened, until_, hasked, hpresent, hend⟩ :=
    h.unbroken armedAt harmedAt hsuspects
  have hmore : ∀ t, s.PresentAt ttlMs t →
      PresentAt ttlMs { s with landings := s.now :: s.landings } t := by
    rintro t ⟨landing, hmem, hlanding⟩
    exact ⟨landing, List.mem_cons_of_mem _ hmem, hlanding⟩
  by_cases hover : s.openedAt + ttlMs < s.now
  · exact ⟨harmed, hfree, hopened, until_, hasked,
      fun t harmed ht => hmore t (hpresent t harmed ht), .inr hover⟩
  obtain ⟨landing, hhead, rfl⟩ := hend.resolve_right hover
  obtain ⟨landing', hhead', hlives⟩ := hclear (Option.isSome_of_eq_some harmedAt) (Int.not_lt.1 hover)
  cases hhead.symm.trans hhead'
  have hlanding := h.past landing (List.mem_of_mem_head? hhead)
  refine ⟨harmed, hfree, hopened, s.now + ttlMs, ?_, fun t harmed ht => ?_,
    .inl ⟨s.now, rfl, rfl⟩⟩
  · dsimp only
    omega
  · by_cases hbefore : t ≤ landing + ttlMs
    · exact hmore t (hpresent t harmed hbefore)
    · exact ⟨s.now, List.mem_cons_self, by omega, ht⟩

/-- The host has not been told to suspect itself. -/
theorem quiet_of_suspects {answer : HeartbeatClock × Bool} (h : (s.asked answer).suspects = 0) :
    answer.2 = false ∧ s.suspects = 0 := by
  unfold Heartbeats.asked at h
  cases hanswer : answer.2 with
  | false =>
    rw [hanswer] at h
    exact ⟨rfl, h⟩
  | true =>
    rw [hanswer] at h
    cases h

section

variable (h : s.Present ttlMs) (hhonest : s.armedAt.isSome = true → s.Honest)
    (hclear : s.armedAt.isSome = true → s.now ≤ s.openedAt + ttlMs → s.LivesTo ttlMs s.now)
include h hhonest hclear

theorem Present.suspect : (s.asked (s.clock.suspect ttlMs s.readings)).Present ttlMs := by
  refine ⟨h.past, fun armedAt harmedAt hsuspects => ?_⟩
  obtain ⟨hquiet, hnone⟩ := quiet_of_suspects hsuspects
  have hsome : s.armedAt.isSome = true := Option.isSome_of_eq_some harmedAt
  have hbefore := h.unbroken armedAt harmedAt hnone
  obtain ⟨hsame, landing, hhead, hlives, hpresent⟩ := hbefore.asked (hhonest hsome) (hclear hsome) hquiet
  obtain ⟨harmed, hfree, hopened, -⟩ := hbefore
  refine ⟨?_, ?_, hopened, landing + ttlMs, hlives, hpresent, .inl ⟨landing, hhead, rfl⟩⟩
  · exact (congrArg HeartbeatClock.armed hsame).trans harmed
  · exact (congrArg HeartbeatClock.suspected hsame).trans hfree

theorem Present.confirmed : ((s.asked (s.clock.confirmed ttlMs s.readings)).opened
      (HeartbeatClock.open_ s.readings)).Present ttlMs := by
  refine ⟨h.past, fun armedAt harmedAt hsuspects => ?_⟩
  have hasked : (s.asked (s.clock.confirmed ttlMs s.readings)).suspects = 0 := hsuspects
  obtain ⟨hquiet, hnone⟩ := quiet_of_suspects hasked
  have hsome : s.armedAt.isSome = true := Option.isSome_of_eq_some harmedAt
  obtain ⟨-, landing, hhead, hlives, hpresent⟩ :=
    (h.unbroken armedAt harmedAt hnone).asked (hhonest hsome) (hclear hsome) hquiet
  exact ⟨rfl, rfl, Int.le_refl _, landing + ttlMs, hlives, hpresent, .inl ⟨landing, hhead, rfl⟩⟩

end

/-- A clock that is armed, and not latched, fires. -/
theorem Present.lost (h : s.Present ttlMs) : (s.asked s.clock.lost).Present ttlMs := by
  refine ⟨h.past, fun armedAt harmedAt hsuspects => ?_⟩
  obtain ⟨hquiet, hnone⟩ := quiet_of_suspects hsuspects
  obtain ⟨harmed, hfree, -⟩ := h.unbroken armedAt harmedAt hnone
  unfold HeartbeatClock.lost HeartbeatClock.fire at hquiet
  rw [hfree, harmed] at hquiet
  cases hquiet

/-- The step lemma. -/
theorem Present.step (h : s.Present ttlMs) {l : Label} (hclear : s.Clear ttlMs l)
    (hstep : s.step ttlMs l = some d) : d.Present ttlMs := by
  cases l with dsimp only [Heartbeats.step] at hstep
  | pass ms readings =>
    cases hstep
    exact h.pass ms readings
  | arm =>
    cases hstep
    exact h.arm hclear.1
  | beat =>
    cases hstep
    exact (h.suspect hclear.1 hclear.2).of_same rfl rfl rfl rfl rfl rfl rfl
  | send =>
    cases hstep
    exact h.of_same rfl rfl rfl rfl rfl rfl rfl
  | land id =>
    split at hstep
    · split at hstep
      · cases hstep
      · cases hstep
        exact (h.land hclear.2).of_same rfl rfl rfl rfl rfl rfl rfl
    · cases hstep
  | ack id =>
    split at hstep
    · split at hstep
      · cases hstep
        exact (h.confirmed hclear.1 hclear.2).of_same rfl rfl rfl rfl rfl rfl rfl
      · cases hstep
    · cases hstep
  | fail id =>
    split at hstep
    · split at hstep
      · cases hstep
      · cases hstep
        exact (h.suspect hclear.1 hclear.2).of_same rfl rfl rfl rfl rfl rfl rfl
    · cases hstep
  | lost =>
    cases hstep
    exact h.lost

theorem present_initial (h : s.initial) : s.Present ttlMs := by
  obtain ⟨readings, now, rfl⟩ := h
  exact ⟨nofun, nofun⟩

theorem latched_initial (h : s.initial) : s.Latched := by
  obtain ⟨readings, now, rfl⟩ := h
  exact ⟨.nil, nofun⟩

end Heartbeats

/-- **`onSuspect` is called once a window**, in every run. -/
theorem fired_once {ttlMs : Int} {s : Heartbeats} {guard : Heartbeats → Heartbeats.Label → Prop}
    (h : (heartbeats ttlMs).Reach guard s) : s.fired.Nodup := by
  have hlatched : s.Latched := by
    refine h.invariant (fun _ => Heartbeats.latched_initial) ?_
    intro s l d hs _ hstep
    exact hs.step hstep
  exact hlatched.nodup

/-- **A host that does not suspect itself has its record in the store**, in every run in which
nothing happens where the record is gone and the window is not over. -/
theorem sound_of_clear {ttlMs : Int} {s : Heartbeats}
    (h : (heartbeats ttlMs).Reach (Heartbeats.Clear ttlMs) s) : s.Sound ttlMs := by
  have hpresent : s.Present ttlMs := by
    refine h.invariant (fun _ => Heartbeats.present_initial) ?_
    intro s l d hs hok hstep
    exact hs.step hok hstep
  refine ⟨fun armedAt harmedAt hsuspects t harmed ht => ?_, fired_once h⟩
  obtain ⟨-, -, -, until_, hasked, hthere, -⟩ := hpresent.unbroken armedAt harmedAt hsuspects
  exact hthere t harmed (Int.le_trans ht hasked)

/-! ## A slow acknowledgement -/

namespace Heartbeats

instance (ttlMs : Int) (s : Heartbeats) (l : Label) : Decidable (s.Kept ttlMs l) := by
  unfold Kept
  cases l <;> infer_instance

instance (ttlMs : Int) (s : Heartbeats) (l : Label) : Decidable (s.Clear ttlMs l) := by
  unfold Clear
  cases l <;> infer_instance

/-- The host has joined and armed its clock; a beat's write lands at once, and is acknowledged
4 ms later. -/
def slowAck : List Label :=
  [.send, .land 0, .ack 0, .arm, .pass 5 ⟨5, 5⟩, .beat, .land 1, .pass 4 ⟨9, 9⟩, .ack 1]

end Heartbeats

/-- The next beat comes in time. -/
theorem sound_slowAck :
    ∃ s, (heartbeats 10).Reach (Heartbeats.Clear 10) s ∧ s.askedAt = 14 ∧ s.suspects = 0 ∧
      s.Sound 10 := by
  have hstart : (heartbeats 10).Reach (Heartbeats.Clear 10) { readings := ⟨0, 0⟩, now := 0 } :=
    .start ⟨_, _, rfl⟩
  have hrun := hstart.exec_get (Heartbeats.slowAck ++ [.pass 5 ⟨14, 14⟩, .beat]) (by decide)
  exact ⟨_, hrun, by decide, by decide, sound_of_clear hrun⟩

/-- The next beat comes when the record has been gone for 3 ms, 9 ms after the
acknowledgement. -/
theorem not_sound :
    ¬ ∀ s : Heartbeats, (heartbeats 10).Reach (Heartbeats.Kept 10) s → s.Sound 10 := by
  intro h
  have hstart : (heartbeats 10).Reach (Heartbeats.Kept 10) { readings := ⟨0, 0⟩, now := 0 } :=
    .start ⟨_, _, rfl⟩
  have hrun := hstart.exec_get (Heartbeats.slowAck ++ [.pass 9 ⟨18, 18⟩, .beat]) (by decide)
  obtain ⟨landing, hmem, hbefore, hafter⟩ :=
    (h _ hrun).present 0 rfl rfl 17 (by decide) (by decide)
  obtain rfl | hmem := List.mem_cons.1 hmem
  · exact absurd hafter (by decide)
  · obtain rfl := List.mem_singleton.1 hmem
    exact absurd hafter (by decide)

end SigxActors.Cluster
