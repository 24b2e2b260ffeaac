/-
  Cluster/IdRounds.lean --- a correlation id is one request's for a round.

  Source: `#allocate` of `packages/actors/src/cluster/connection.ts`.

  The connection does not count its allocations: `Numbered` does, beside it, and
  writes down which of them each request was given.  Its runs are the connection's.
-/
import SigxActors.Cluster.CorrelationIds
import SigxActors.Cluster.Settlement

set_option autoImplicit false

namespace SigxActors.Cluster

open SigxActors.Js

/-- A connection whose allocations are counted. -/
structure Numbered (V : Type) where
  conn : HostConnection V
  allocated : Nat := 0
  /-- How many ids had been allocated before that of the request. -/
  number : Request → Nat := fun _ => 0

namespace Numbered

variable {V : Type} (s : Numbered V)

/-- The connection has become `c`. -/
def become (c : HostConnection V) : Numbered V where
  conn := c
  allocated := if c.nextCorr = s.conn.nextCorr then s.allocated else s.allocated + 1
  number r := if (s.conn.idOf r).isNone ∧ (c.idOf r).isSome then s.allocated else s.number r

/-- One step. -/
def step (l : HostConnection.Label V) : Option (Numbered V) := (s.conn.step l).map s.become

/-- No request that is still pending has had its id for a whole round. -/
def Young : Prop :=
  ∀ r, s.conn.pending r = true → (s.conn.idOf r).isSome → s.allocated < s.number r + cycle

/-- The steps that allocate, allocate while every pending request is younger than a round. -/
def Brief (l : HostConnection.Label V) : Prop := HostConnection.Dispatches l → s.Young

end Numbered

/-- The machine of one end, with its allocations counted. -/
def numberedConnection (V : Type) : Machine.System (Numbered V) (HostConnection.Label V) where
  initial s := ∃ dialer, s = { conn := { dialer := dialer } }
  step := Numbered.step

variable {x : Nat}

namespace Numbered

variable {V : Type} {s t : Numbered V}

/-- What is counted is what the connection does. -/
theorem reachable_conn (h : (numberedConnection V).Reachable s) :
    (hostConnection V).Reachable s.conn := by
  induction h with
  | start h =>
    obtain ⟨dialer, rfl⟩ := h
    exact .start ⟨dialer, rfl⟩
  | next _ _ hstep ih =>
    obtain ⟨c, hc, rfl⟩ := Option.map_eq_some_iff.1 hstep
    exact .next ih trivial hc

theorem exists_numbered {c : HostConnection V} (h : (hostConnection V).Reachable c) :
    ∃ s, (numberedConnection V).Reachable s ∧ s.conn = c := by
  induction h with
  | start h =>
    obtain ⟨dialer, rfl⟩ := h
    exact ⟨_, .start ⟨dialer, rfl⟩, rfl⟩
  | next _ _ hstep ih =>
    obtain ⟨s, hs, rfl⟩ := ih
    exact ⟨_, .next hs trivial (Option.map_eq_some_iff.2 ⟨_, hstep, rfl⟩), rfl⟩

/-- The number of a request tells its id. -/
structure Counted (s : Numbered V) : Prop where
  next : s.conn.nextCorr = corrIdAt s.conn.dialer s.allocated
  ids : ∀ r x, s.conn.idOf r = some x →
    x = corrIdAt s.conn.dialer (s.number r) ∧ s.number r < s.allocated
  inj : ∀ r r', (s.conn.idOf r).isSome → (s.conn.idOf r').isSome → s.number r = s.number r' →
    r = r'

/-- Every pending request is in its first round. -/
def Fresh (s : Numbered V) : Prop :=
  ∀ r, s.conn.pending r = true → (s.conn.idOf r).isSome → s.allocated ≤ s.number r + cycle

section

variable {c : HostConnection V} {new : Option Request}

theorem nextCorr_ne (h : s.Counted) : s.conn.allocate.nextCorr ≠ s.conn.nextCorr := by
  rw [HostConnection.nextCorr_allocate h.next, h.next]
  intro heq
  have := HostConnection.corrIdAt_inj heq (by unfold cycle; omega) (by omega)
  omega

theorem allocated_become (h : s.Counted) (hturn : s.conn.Turn c new) :
    (s.become c).allocated = if new.isSome then s.allocated + 1 else s.allocated := by
  unfold become
  rcases hturn.nextCorr with ⟨rfl, hsame⟩ | ⟨hnew, hnext⟩
  · rw [if_pos hsame]
    rfl
  · rw [if_neg (hnext ▸ nextCorr_ne h), if_pos hnew]

/-- A request is old and keeps its number, or is the new one and has the next. -/
theorem number_become (hturn : s.conn.Turn c new) {r : Request} (hx : c.idOf r = some x) :
    s.conn.idOf r = some x ∧ (s.become c).number r = s.number r ∨
      new = some r ∧ x = s.conn.nextCorr ∧ (s.become c).number r = s.allocated := by
  unfold become
  dsimp only
  rcases hturn.ids r x hx with hold | ⟨hnew, hnext⟩
  · rw [hold, if_neg (by simp)]
    exact .inl ⟨rfl, rfl⟩
  · rw [hturn.fresh r hnew, hx, if_pos ⟨rfl, rfl⟩]
    exact .inr ⟨hnew, hnext, rfl⟩

theorem Counted.become (h : s.Counted) (hturn : s.conn.Turn c new) : (s.become c).Counted where
  next := by
    rw [allocated_become h hturn]
    change c.nextCorr = corrIdAt c.dialer _
    rw [hturn.dialer]
    rcases hturn.nextCorr with ⟨rfl, hsame⟩ | ⟨hnew, hnext⟩
    · exact hsame.trans h.next
    · rw [if_pos hnew]
      exact hnext.trans (HostConnection.nextCorr_allocate h.next)
  ids r x hx := by
    rw [allocated_become h hturn]
    change x = corrIdAt c.dialer _ ∧ _
    rw [hturn.dialer]
    rcases number_become hturn hx with ⟨hold, hsame⟩ | ⟨hnew, hnext, hlast⟩
    · obtain ⟨hid, hlt⟩ := h.ids r x hold
      rw [hsame]
      split <;> omega
    · rw [hlast, hnew]
      exact ⟨hnext.trans h.next, Nat.lt_succ_self _⟩
  inj r r' hr hr' heq := by
    obtain ⟨x, hx⟩ := Option.isSome_iff_exists.1 hr
    obtain ⟨x', hx'⟩ := Option.isSome_iff_exists.1 hr'
    rcases number_become hturn hx with ⟨hold, hsame⟩ | ⟨hnew, -, hlast⟩
    · rcases number_become hturn hx' with ⟨hold', hsame'⟩ | ⟨-, -, hlast'⟩
      · refine h.inj r r' (by rw [hold]; rfl) (by rw [hold']; rfl) ?_
        rw [← hsame, ← hsame', heq]
      · have := (h.ids r x hold).2
        omega
    · rcases number_become hturn hx' with ⟨hold', hsame'⟩ | ⟨hnew', -, -⟩
      · have := (h.ids r' x' hold').2
        omega
      · exact Option.some.inj (hnew.symm.trans hnew')

theorem Fresh.become (h : s.Fresh) (hcounted : s.Counted) (hturn : s.conn.Turn c new)
    (hyoung : new.isSome → s.Young) : (s.become c).Fresh := by
  intro r hpending hid
  obtain ⟨x, hx⟩ := Option.isSome_iff_exists.1 hid
  rw [allocated_become hcounted hturn]
  rcases number_become hturn hx with ⟨hold, hsame⟩ | ⟨-, -, hlast⟩
  · rw [hsame]
    have hwas : s.conn.pending r = true := by
      rcases hturn.pending r hpending hid with hwas | hnew
      · exact hwas
      · rw [hturn.fresh r hnew] at hold
        cases hold
    have hold : (s.conn.idOf r).isSome := by
      rw [hold]
      rfl
    split
    · rename_i hnew
      exact hyoung hnew r hwas hold
    · exact h r hwas hold
  · unfold cycle
    split <;> omega

end

theorem counted_of_reachable (h : (numberedConnection V).Reachable s) : s.Counted := by
  refine h.invariant (fun s hs => ?_) fun s l t hs _ hstep => ?_
  · obtain ⟨dialer, rfl⟩ := hs
    refine ⟨?_, fun r x hx => ?_, fun r r' hr => ?_⟩
    · cases dialer <;> rfl
    · cases r <;> cases hx
    · cases r <;> cases hr
  · obtain ⟨c, hc, rfl⟩ := Option.map_eq_some_iff.1 hstep
    obtain ⟨new, hturn, -⟩ := HostConnection.turn_step hc
    exact hs.become hturn

theorem fresh_of_brief (h : (numberedConnection V).Reach Brief s) : s.Counted ∧ s.Fresh := by
  refine h.invariant (I := fun s => s.Counted ∧ s.Fresh) (fun s hs => ?_) fun s l t hs hok hstep => ?_
  · refine ⟨counted_of_reachable (.start hs), fun r _ hr => ?_⟩
    obtain ⟨dialer, rfl⟩ := hs
    cases r <;> cases hr
  · obtain ⟨c, hc, rfl⟩ := Option.map_eq_some_iff.1 hstep
    obtain ⟨new, hturn, hnew⟩ := HostConnection.turn_step hc
    exact ⟨hs.1.become hturn, hs.2.become hs.1 hturn fun hsome => hok (hnew hsome)⟩

/-- Within a round the numbers of two ids differ by less than a round. -/
theorem Fresh.distinctIds (h : s.Fresh) (hcounted : s.Counted) : s.conn.DistinctIds := by
  intro r r' x hr hr' hx hx'
  obtain ⟨hid, hlt⟩ := hcounted.ids r x hx
  obtain ⟨hid', hlt'⟩ := hcounted.ids r' x hx'
  have hsome : (s.conn.idOf r).isSome := by
    rw [hx]
    rfl
  have hsome' : (s.conn.idOf r').isSome := by
    rw [hx']
    rfl
  have hyoung := h r hr hsome
  have hyoung' := h r' hr' hsome'
  refine hcounted.inj r r' hsome hsome' ?_
  exact HostConnection.corrIdAt_inj (hid.symm.trans hid') (by omega) (by omega)

end Numbered

/-! ## The two ends -/

/-- The ids of an end have its parity. -/
theorem parity_of_reachable {V : Type} {c : HostConnection V} (h : (hostConnection V).Reachable c)
    {r : Request} (hx : c.idOf r = some x) : x % 2 = if c.dialer then 0 else 1 := by
  obtain ⟨s, hs, rfl⟩ := Numbered.exists_numbered h
  rw [((Numbered.counted_of_reachable hs).ids r x hx).1]
  exact HostConnection.corrIdAt_parity _ _

/-- In a run in which no request outlives a round of allocations no two pending requests have one
id, and none has an id of the other end's. -/
theorem distinctIds_of_brief {V : Type} {s : Numbered V}
    (h : (numberedConnection V).Reach Numbered.Brief s) : s.conn.DistinctIds ∧
      ∀ peer : HostConnection V, (hostConnection V).Reachable peer → peer.dialer ≠ s.conn.dialer →
        ∀ r r' x x', s.conn.idOf r = some x → peer.idOf r' = some x' → x ≠ x' := by
  obtain ⟨hcounted, hfresh⟩ := Numbered.fresh_of_brief h
  refine ⟨hfresh.distinctIds hcounted, fun peer hpeer hends r r' x x' hx hx' => ?_⟩
  have hparity := parity_of_reachable (Numbered.reachable_conn h.reachable) hx
  have hparity' := parity_of_reachable hpeer hx'
  cases hdialer : s.conn.dialer <;> cases hdialer' : peer.dialer <;>
    simp [hdialer, hdialer'] at hparity hparity' hends <;> omega

/-- A stream and a call are pending. -/
theorem distinctIds_streamAndCall :
    ∃ s : Numbered String, s.conn.pending (.stream 0) = true ∧ s.conn.pending (.call 0) = true ∧
      s.conn.DistinctIds ∧
      ∀ peer : HostConnection String, (hostConnection String).Reachable peer →
        peer.dialer ≠ s.conn.dialer →
        ∀ r r' x x', s.conn.idOf r = some x → peer.idOf r' = some x' → x ≠ x' := by
  have hstart : (numberedConnection String).Reach Numbered.Brief { conn := { dialer := true } } :=
    .start ⟨true, rfl⟩
  have hstream := hstart.next (l := .op takes (.dispatchStream ask none))
    (fun _ r hr => by cases r <;> cases hr) rfl
  have hcall := hstream.next (l := .op takes (.dispatch ask none none))
    (fun _ r _ _ => Nat.lt_of_lt_of_le (by decide : _ < cycle) (Nat.le_add_left ..)) rfl
  exact ⟨_, rfl, rfl, distinctIds_of_brief hcall⟩

/-! ## A stream that outlives a round -/

/-- The dialer has one stream open, under its first id. -/
structure Outlives (x : Nat) (c : HostConnection String) : Prop where
  dialer : c.dialer = true
  nextCorr : c.nextCorr = x
  closed : c.closed = false
  retiring : c.retiring = none
  stream : ∃ consumer, c.consumers[0]? = some consumer ∧ consumer.corrId = 2 ∧
    consumer.listening = true

/-- The call that is dispatched next. -/
def dispatched (c : HostConnection String) : HostConnection String :=
  { c.allocate with
    calls := c.calls ++ [⟨some c.nextCorr, true, []⟩]
    unary := c.unary.set c.nextCorr c.calls.length
    out := c.out ++ [.call c.nextCorr false ask] }

variable {c : HostConnection String}

theorem Outlives.dispatch (h : Outlives x c) :
    (hostConnection String).step c (.op takes (.dispatch ask none none)) = some (dispatched c) := by
  have hopen : ¬ c.allocate.closed = true := by
    rw [show c.allocate.closed = c.closed from rfl, h.closed]
    nofun
  have hsent : c.allocate.send takes (.call c.nextCorr false ask) =
      ({ c.allocate with out := c.out ++ [.call c.nextCorr false ask] }, true) := by
    unfold HostConnection.send
    rw [if_neg hopen]
    rfl
  simp only [hostConnection, HostConnection.step, HostConnection.run, HostConnection.dispatch, h.closed, h.retiring,
    Option.filter_none, Bool.false_eq_true, if_false, hsent]
  rfl

/-- The call is answered, and the stream goes on. -/
theorem Outlives.answer (h : Outlives x c) :
    ∃ d, (hostConnection String).step (dispatched c) (.frame takes (.reply x "1")) = some d ∧
      Outlives (if x + 2 > 0xffffffff then 2 else x + 2) d := by
  have hget : (c.unary.set c.nextCorr c.calls.length).get x = some c.calls.length := by
    rw [h.nextCorr]
    exact JsMap.get_set_self _ _ _
  have hstep : (hostConnection String).step (dispatched c) (.frame takes (.reply x "1")) = some
      (HostConnection.settle { dispatched c with
        unary := (c.unary.set c.nextCorr c.calls.length).erase x } c.calls.length (.reply "1")) := by
    have hopen : (dispatched c).closed = false := h.closed
    have hunary : (dispatched c).unary = c.unary.set c.nextCorr c.calls.length := rfl
    have hkeeps : (dispatched c).retiring = none := h.retiring
    simp only [hostConnection, HostConnection.step, hopen, HostConnection.onFrame, HostConnection.forgetUnary, hunary,
      hget, HostConnection.settleRetirement, hkeeps, Bool.false_eq_true, if_false]
  refine ⟨_, hstep, h.dialer, ?_, h.closed, h.retiring, h.stream⟩
  simp only [HostConnection.settle, dispatched, HostConnection.allocate, h.nextCorr, h.dialer, if_true]

theorem Outlives.round
    (hc : (hostConnection String).Reachable c) (h : Outlives x c) :
    ∃ d, (hostConnection String).Reachable d ∧
      Outlives (if x + 2 > 0xffffffff then 2 else x + 2) d := by
  obtain ⟨d, hd, hnext⟩ := h.answer
  exact ⟨d, (hc.next trivial h.dispatch).next trivial hd, hnext⟩

/-- A call after another is answered, until the ids are through. -/
theorem exists_outlives : ∀ n : Nat, 4 + 2 * n ≤ 0xffffffff →
    ∃ c, (hostConnection String).Reachable c ∧ Outlives (4 + 2 * n) c := by
  intro n
  induction n with
  | zero =>
    intro _
    have hstart : (hostConnection String).Reachable { dialer := true } := .start ⟨true, rfl⟩
    exact ⟨_, hstart.next (l := .op takes (.dispatchStream ask none)) trivial rfl,
      rfl, rfl, rfl, rfl, _, rfl, rfl, rfl⟩
  | succ n ih =>
    intro hn
    obtain ⟨c, hc, h⟩ := ih (by omega)
    obtain ⟨d, hd, hnext⟩ := h.round hc
    rw [if_neg (by omega)] at hnext
    exact ⟨d, hd, hnext⟩

/-- The last id behind an open stream is followed by that of the stream. -/
theorem not_distinctIds :
    ¬ ∀ c : HostConnection String, (hostConnection String).Reachable c → c.DistinctIds := by
  intro hdistinct
  obtain ⟨c, hc, h⟩ := exists_outlives 0x7ffffffd (by decide)
  obtain ⟨d, hd, hwrapped⟩ := h.round hc
  rw [if_pos (by decide)] at hwrapped
  have hlast := hd.next trivial hwrapped.dispatch
  obtain ⟨consumer, hget, hid, hlistens⟩ := hwrapped.stream
  have hcalls : (dispatched d).calls[d.calls.length]? = some ⟨some d.nextCorr, true, []⟩ :=
    List.getElem?_concat_length ..
  have hsame := hdistinct _ hlast (.stream 0) (.call d.calls.length) 2 ?_ ?_ ?_ ?_
  · cases hsame
  · have hopen : (dispatched d).closed = false := hwrapped.closed
    have hget' : (dispatched d).consumers[0]? = some consumer := hget
    rw [HostConnection.pending, hopen, hget', Option.any_some, hlistens]
    rfl
  · rw [HostConnection.pending, hcalls]
    rfl
  · have hget' : (dispatched d).consumers[0]? = some consumer := hget
    rw [HostConnection.idOf, hget', Option.map_some, hid]
  · rw [HostConnection.idOf, hcalls, Option.bind_some, hwrapped.nextCorr]

end SigxActors.Cluster
