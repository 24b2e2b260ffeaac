/-
  Cluster/ConsumerCancel.lean --- a consumer that gives up tells the peer.

  Source: `dispatchStream` of `packages/actors/src/cluster/connection.ts`.

  The listener of a consumer is attached as long as its stream is in the table.  What
  takes it off (an abort, or the `finally` of the generator) takes the stream from
  the table and sends CANCEL.  A generator that was never pulled has no `finally` to
  run: its consumer returns, and the stream stays.
-/
import SigxActors.Cluster.CorrelationIds
import SigxActors.Cluster.Retirement

set_option autoImplicit false

namespace SigxActors.Cluster

open SigxActors.Js

/-- The consumer has returned, or was aborted. -/
def Consumer.gone {V : Type} (consumer : Consumer V) : Prop :=
  consumer.over_ = true ∨ consumer.listening = false

namespace HostConnection

variable {V : Type} {link : Link V} {c c' d : HostConnection V}

/-- CANCEL is under way for the stream of consumer `k`, which is not in the table. -/
def Cancelled (c : HostConnection V) (k corrId : Nat) : Prop :=
  c.streams.get corrId ≠ some k ∧ ∃ reason, .cancel corrId reason ∈ c.out

/-- Every stream whose consumer has returned or was aborted is cancelled. -/
def CancelsOut (c : HostConnection V) : Prop :=
  ∀ k consumer, c.consumers[k]? = some consumer → consumer.written = true → consumer.gone →
    c.closed = true ∨ c.Cancelled k consumer.corrId

/-- The listeners and the table agree. -/
structure Listens (c : HostConnection V) : Prop where
  unique : ∀ (k k' : Nat) (x x' : Consumer V), c.consumers[k]? = some x →
    c.consumers[k']? = some x' → x.live = true → x'.live = true → x.corrId = x'.corrId → k = k'
  present : ∀ (k : Nat) (x : Consumer V), c.consumers[k]? = some x → x.listening = true →
    c.closed = true ∨ c.streams.get x.corrId = some k
  cancelled : ∀ (k : Nat) (x : Consumer V), c.consumers[k]? = some x → x.written = true →
    x.listening = false → c.closed = true ∨ c.Cancelled k x.corrId
  returned : ∀ (k : Nat) (x : Consumer V), c.consumers[k]? = some x → x.over_ = true →
    c.closed = true ∨ x.listening = false

theorem Listens.cancelsOut (h : c.Listens) : c.CancelsOut := by
  intro k x hx hwritten hgone
  rcases hgone with hover | hlistening
  · rcases h.returned k x hx hover with hclosed | hlistening
    · exact .inl hclosed
    · exact h.cancelled k x hx hwritten hlistening
  · exact h.cancelled k x hx hwritten hlistening

variable {k : Nat} {x : Consumer V}

/-- What a consumer was before an operation that leaves the consumers alone. -/
theorem Leaves.was (h : c.Leaves d) (hx : d.consumers[k]? = some x) :
    ∃ old, c.consumers[k]? = some old ∧ x.corrId = old.corrId ∧ x.written = old.written ∧
      x.listening = old.listening ∧ x.over_ = old.over_ := by
  have hkey := h.consumers_get k
  rw [hx, Option.map_some] at hkey
  obtain ⟨old, hold, heq⟩ := Option.map_eq_some_iff.1 hkey.symm
  simp only [Consumer.key, Prod.mk.injEq] at heq
  exact ⟨old, hold, heq.1.symm, heq.2.1.symm, heq.2.2.1.symm, heq.2.2.2.symm⟩

theorem live_eq {y : Consumer V} (hlistening : x.listening = y.listening)
    (hover : x.over_ = y.over_) : x.live = y.live := by
  rw [Consumer.live, Consumer.live, hlistening, hover]

theorem Leaves.cancelled (h : c.Leaves d) {corrId : Nat} (hc : c.Cancelled k corrId) :
    d.closed = true ∨ d.Cancelled k corrId := by
  obtain ⟨hget, reason, hout⟩ := hc
  rcases h.streams with hsame | hclosed
  · exact .inr ⟨hsame ▸ hget, reason, h.out.subset hout⟩
  · exact .inl hclosed

theorem Listens.leaves (hl : c.Listens) (h : c.Leaves d) : d.Listens where
  unique k k' x x' hx hx' hlive hlive' hid := by
    obtain ⟨y, hy, hid_y, -, hlistening, hover⟩ := h.was hx
    obtain ⟨y', hy', hid_y', -, hlistening', hover'⟩ := h.was hx'
    rw [live_eq hlistening hover] at hlive
    rw [live_eq hlistening' hover'] at hlive'
    exact hl.unique k k' y y' hy hy' hlive hlive' (by rw [← hid_y, ← hid_y', hid])
  present k x hx hlistens := by
    obtain ⟨y, hy, hid, -, hlistening, -⟩ := h.was hx
    rcases hl.present k y hy (hlistening ▸ hlistens) with hclosed | hget
    · exact .inl (h.closed hclosed)
    rcases h.streams with hsame | hclosed
    · exact .inr (by rw [hsame, hid, hget])
    · exact .inl hclosed
  cancelled k x hx hwritten hlistens := by
    obtain ⟨y, hy, hid, hwrote, hlistening, -⟩ := h.was hx
    rcases hl.cancelled k y hy (hwrote ▸ hwritten) (hlistening ▸ hlistens) with hclosed | hc
    · exact .inl (h.closed hclosed)
    · rw [hid]
      exact h.cancelled hc
  returned k x hx hover := by
    obtain ⟨y, hy, -, -, hlistening, hover'⟩ := h.was hx
    rcases hl.returned k y hy (hover' ▸ hover) with hclosed | hquiet
    · exact .inl (h.closed hclosed)
    · exact .inr (hlistening.trans hquiet)

/-! ## A consumer that gives up -/

/-- The stream is out of the table, and if it was there the peer is told. -/
theorem cancelStream_spec (link : Link V) (c : HostConnection V) (corrId : Nat) (reason : String) :
    ∃ streams, Leaves { c with streams := streams } (c.cancelStream link corrId reason) ∧
      streams.get corrId = none ∧ (∀ x, x ≠ corrId → streams.get x = c.streams.get x) ∧
      (c.streams.has corrId = true → (c.cancelStream link corrId reason).closed = true ∨
        .cancel corrId reason ∈ (c.cancelStream link corrId reason).out) := by
  unfold cancelStream forgetStream
  by_cases hhas : c.streams.has corrId = true
  · rw [if_pos hhas]
    refine ⟨c.streams.erase corrId, ?_, ?_, fun x hx => ?_, fun _ => ?_⟩
    · dsimp only
      split
      · exact framing_leaves.settleRetirement
      · exact framing_leaves.settleRetirement.trans (framing_leaves.send _)
    · rw [JsMap.get_erase, if_pos rfl]
    · rw [JsMap.get_erase, if_neg hx]
    · dsimp only
      split
      · exact .inl ‹_›
      · exact (sent_or_closed _).symm
  · rw [if_neg hhas]
    refine ⟨c.streams, .refl _, ?_, fun _ _ => rfl, fun h => absurd h hhas⟩
    rw [← Option.not_isSome_iff_eq_none]
    exact hhas

/-- The consumer is done with the stream, and its listener is off. -/
theorem Listens.finish (h : c.Listens) (hx : c.consumers[k]? = some x) (hlive : x.live = true)
    {reason : String} {f : Consumer V → Consumer V}
    (hf : ∀ y, (f y).corrId = y.corrId ∧ (f y).written = y.written ∧ (f y).listening = false) :
    ((c.cancelStream link x.corrId reason).modifyConsumer k f).Listens := by
  obtain ⟨streams, hleaves, hnone, hother, hsent⟩ :=
    cancelStream_spec link c x.corrId reason
  generalize hmid : c.cancelStream link x.corrId reason = mid at hleaves hsent ⊢
  -- what any consumer of the new state was, and whether it is the one that is done
  have hwas : ∀ (j : Nat) (y : Consumer V), (mid.modifyConsumer k f).consumers[j]? = some y →
      ∃ old, c.consumers[j]? = some old ∧ y.corrId = old.corrId ∧ y.written = old.written ∧
        (j = k ∧ y.listening = false ∨
          j ≠ k ∧ y.listening = old.listening ∧ y.over_ = old.over_) := by
    intro j y hy
    simp only [modifyConsumer, List.getElem?_modify] at hy
    obtain ⟨z, hz, rfl⟩ := Option.map_eq_some_iff.1 hy
    obtain ⟨old, hold, hid, hwrote, hlistening, hover⟩ := hleaves.was hz
    refine ⟨old, hold, ?_⟩
    by_cases hj : k = j
    · rw [if_pos hj]
      exact ⟨(hf z).1.trans hid, (hf z).2.1.trans hwrote, .inl ⟨hj.symm, (hf z).2.2⟩⟩
    · rw [if_neg hj]
      exact ⟨hid, hwrote, .inr ⟨fun heq => hj heq.symm, hlistening, hover⟩⟩
  have hlive_was : ∀ (j : Nat) (y old : Consumer V), c.consumers[j]? = some old →
      (j = k ∧ y.listening = false ∨
        j ≠ k ∧ y.listening = old.listening ∧ y.over_ = old.over_) →
      y.live = true → old.live = true := by
    intro j y old hold hcase hy
    rcases hcase with ⟨rfl, -⟩ | ⟨-, hlistening, hover⟩
    · rw [hx] at hold
      exact Option.some.inj hold ▸ hlive
    · exact live_eq hlistening hover ▸ hy
  have htable : mid.closed = true ∨ mid.streams = streams := hleaves.streams.symm
  refine ⟨fun j j' y y' hy hy' hl hl' hid => ?_, fun j y hy hlistens => ?_,
    fun j y hy hwritten hlistens => ?_, fun j y hy hover => ?_⟩
  · obtain ⟨old, hold, hid_y, -, hcase⟩ := hwas j y hy
    obtain ⟨old', hold', hid_y', -, hcase'⟩ := hwas j' y' hy'
    exact h.unique j j' old old' hold hold' (hlive_was j y old hold hcase hl)
      (hlive_was j' y' old' hold' hcase' hl') (by rw [← hid_y, ← hid_y', hid])
  · obtain ⟨old, hold, hid, -, ⟨-, hoff⟩ | ⟨hne, hlistening, hover⟩⟩ := hwas j y hy
    · rw [hoff] at hlistens
      cases hlistens
    · rcases h.present j old hold (hlistening ▸ hlistens) with hclosed | hget
      · exact .inl (hleaves.closed hclosed)
      refine htable.imp id fun hsame => ?_
      have hapart : old.corrId ≠ x.corrId := fun heq => hne <| by
        refine h.unique j k old x hold hx ?_ hlive heq
        rw [Consumer.live, ← hlistening, hlistens, Bool.or_true]
      change mid.streams.get y.corrId = some j
      rw [hsame, hid, hother _ hapart, hget]
  · obtain ⟨old, hold, hid, hwrote, ⟨rfl, -⟩ | ⟨hne, hlistening, -⟩⟩ := hwas j y hy
    · rw [hx] at hold
      cases hold
      cases hlistened : x.listening with
      | true =>
        rcases h.present j x hx hlistened with hclosed | hget
        · exact .inl (hleaves.closed hclosed)
        have hhas : c.streams.has x.corrId = true := by
          rw [JsMap.has, hget]
          rfl
        rcases hsent hhas with hclosed | hout
        · exact .inl hclosed
        refine htable.imp id fun hsame => ?_
        rw [hid]
        refine ⟨?_, reason, hout⟩
        change mid.streams.get x.corrId ≠ some j
        rw [hsame, hnone]
        simp
      | false =>
        rcases h.cancelled j x hx (hwrote ▸ hwritten) hlistened with hclosed | ⟨-, reason', hout⟩
        · exact .inl (hleaves.closed hclosed)
        refine htable.imp id fun hsame => ?_
        rw [hid]
        refine ⟨?_, reason', hleaves.out.subset hout⟩
        change mid.streams.get x.corrId ≠ some j
        rw [hsame, hnone]
        simp
    · rcases h.cancelled j old hold (hwrote ▸ hwritten) (hlistening ▸ hlistens) with
        hclosed | ⟨hget, reason', hout⟩
      · exact .inl (hleaves.closed hclosed)
      · refine htable.imp id fun hsame => ?_
        rw [hid]
        refine ⟨?_, reason', hleaves.out.subset hout⟩
        change mid.streams.get old.corrId ≠ some j
        rw [hsame]
        by_cases heq : old.corrId = x.corrId
        · rw [heq, hnone]
          simp
        · rw [hother _ heq]
          exact hget
  · obtain ⟨old, hold, -, -, ⟨-, hoff⟩ | ⟨-, hlistening, hover'⟩⟩ := hwas j y hy
    · exact .inr hoff
    rcases h.returned j old hold (hover' ▸ hover) with hclosed | hquiet
    · exact .inl (hleaves.closed hclosed)
    · exact .inr (hlistening.trans hquiet)

theorem Listens.abortStream (h : c.Listens) {reason : Thrown}
    (hstep : c.abortStream link k reason = some d) : d.Listens := by
  unfold HostConnection.abortStream at hstep
  split at hstep
  · rename_i x hx
    obtain ⟨hlistens, rfl⟩ := guard_taken hstep
    refine h.finish hx ?_ fun _ => ⟨rfl, rfl, rfl⟩
    rw [Consumer.live, hlistens, Bool.or_true]
  · cases hstep

theorem Listens.finishConsumer (h : c.Listens) (link : Link V) (hx : c.consumers[k]? = some x)
    (hover : x.over_ = false) : (c.finishConsumer link k x.corrId).Listens := by
  refine h.finish hx ?_ fun _ => ⟨rfl, rfl, rfl⟩
  rw [Consumer.live, hover]
  rfl

theorem Listens.pull (h : c.Listens) (hstep : c.pull link k = some d) : d.Listens := by
  unfold HostConnection.pull at hstep
  split at hstep
  · rename_i x hx
    obtain ⟨hover, hstep⟩ := guard_past hstep
    have hstarted := h.leaves (leaves_modifyConsumer (c := c) k
      (f := fun consumer => { consumer with started := true }) fun _ => rfl)
    split at hstep
    · cases hstep
      exact hstarted.leaves (leaves_modifyConsumer k fun _ => rfl)
    · obtain ⟨-, rfl⟩ := guard_taken hstep
      have hx' : (c.modifyConsumer k fun consumer =>
          { consumer with started := true }).consumers[k]? = some { x with started := true } := by
        change (c.consumers.modify k _)[k]? = _
        rw [List.getElem?_modify, hx]
        simp
      rw [Bool.not_eq_true] at hover
      have hfinished := hstarted.finishConsumer link (x := { x with started := true }) hx' hover
      exact hfinished
  · cases hstep

/-- The consumer of a generator that was never pulled has no stream. -/
def Started (c : HostConnection V) (k : Nat) : Prop :=
  ∀ x ∈ c.consumers[k]?, x.started = true ∨ x.listening = false ∨ c.closed = true

theorem Listens.returnEarly (h : c.Listens) (hok : c.Started k)
    (hstep : c.returnEarly link k = some d) : d.Listens := by
  unfold HostConnection.returnEarly at hstep
  split at hstep
  · rename_i x hx
    obtain ⟨hover, hstep⟩ := guard_past hstep
    rw [Bool.not_eq_true] at hover
    split at hstep
    · cases hstep
      exact h.finishConsumer link hx hover
    · rename_i hstarted
      cases hstep
      have hquiet : c.closed = true ∨ x.listening = false := by
        rcases hok x hx with hstarted' | hlistening | hclosed
        · exact absurd hstarted' hstarted
        · exact .inr hlistening
        · exact .inl hclosed
      have hwas : ∀ (j : Nat) (y : Consumer V),
          (c.modifyConsumer k fun consumer => { consumer with over_ := true }).consumers[j]? = some y →
            ∃ old, c.consumers[j]? = some old ∧ y.corrId = old.corrId ∧
              y.written = old.written ∧ y.listening = old.listening ∧
              (y.live = true → old.live = true) ∧ (j = k ∨ y.over_ = old.over_) := by
        intro j y hy
        simp only [modifyConsumer, List.getElem?_modify] at hy
        obtain ⟨old, hold, rfl⟩ := Option.map_eq_some_iff.1 hy
        refine ⟨old, hold, ?_⟩
        by_cases hj : k = j
        · rw [if_pos hj]
          refine ⟨rfl, rfl, rfl, fun hlive => ?_, .inl hj.symm⟩
          have hlive : old.listening = true := hlive
          rw [Consumer.live, hlive, Bool.or_true]
        · rw [if_neg hj]
          exact ⟨rfl, rfl, rfl, id, .inr rfl⟩
      refine ⟨fun j j' y y' hy hy' hl hl' hid => ?_, fun j y hy hlistens => ?_,
        fun j y hy hwritten hlistens => ?_, fun j y hy hover' => ?_⟩
      · obtain ⟨old, hold, hid_y, -, -, hlive, -⟩ := hwas j y hy
        obtain ⟨old', hold', hid_y', -, -, hlive', -⟩ := hwas j' y' hy'
        exact h.unique j j' old old' hold hold' (hlive hl) (hlive' hl')
          (by rw [← hid_y, ← hid_y', hid])
      · obtain ⟨old, hold, hid, -, hlistening, -⟩ := hwas j y hy
        rw [hid]
        exact h.present j old hold (hlistening ▸ hlistens)
      · obtain ⟨old, hold, hid, hwrote, hlistening, -⟩ := hwas j y hy
        rw [hid]
        exact h.cancelled j old hold (hwrote ▸ hwritten) (hlistening ▸ hlistens)
      · obtain ⟨old, hold, -, -, hlistening, -, rfl | hsame⟩ := hwas j y hy
        · rw [hx] at hold
          cases hold
          exact hquiet.imp id hlistening.trans
        · exact (h.returned j old hold (hsame ▸ hover')).imp id hlistening.trans
  · cases hstep

/-! ## A request that is dispatched -/

theorem Listens.dispatch (h : c.Listens) (payload : CallPayload V) (aborted during : Option Thrown) :
    (c.dispatch link payload aborted during).Listens := by
  have hcalls : ∀ {c : HostConnection V} (calls : List (UnaryCall V)) (unary : JsMap Nat Nat)
      (nextCorr : Nat), c.Listens →
        Listens { c with calls := calls, unary := unary, nextCorr := nextCorr } :=
    fun _ _ _ h => { h with }
  unfold HostConnection.dispatch
  split
  · exact hcalls _ c.unary c.nextCorr h
  split
  · exact hcalls _ c.unary c.nextCorr h
  · exact hcalls _ c.unary c.nextCorr h
  have hsent : (c.allocate.send link (.call c.nextCorr false payload)).1.Listens :=
    (hcalls c.calls c.unary c.allocate.nextCorr h).leaves (framing_leaves.send _)
  dsimp only
  split
  · rename_i mid heq
    rw [heq] at hsent
    exact hcalls _ mid.unary mid.nextCorr hsent
  · rename_i mid heq
    rw [heq] at hsent
    split
    · exact (hcalls _ _ mid.nextCorr hsent).leaves (framing_leaves.abort ..)
    · exact hcalls _ _ mid.nextCorr hsent

section

variable (h : c.Listens) (hfresh : c.FreshStream)
include h hfresh

/-- A stream is registered, or registered and forgotten, under an id that is free. -/
theorem Listens.register {streams : JsMap Nat Nat}
    (hother : ∀ x, x ≠ c.nextCorr → streams.get x = c.streams.get x)
    (hsame : ∀ k, k < c.consumers.length → streams.get c.nextCorr ≠ some k) :
    Listens { c.registerStream with streams := streams } := by
  have hwas : ∀ (j : Nat) (y : Consumer V), c.registerStream.consumers[j]? = some y →
      c.consumers[j]? = some y ∧ j < c.consumers.length ∨
        j = c.consumers.length ∧ y = { corrId := c.nextCorr } := by
    intro j y hy
    simp only [registerStream, List.getElem?_append] at hy
    split at hy
    · exact .inl ⟨hy, ‹_›⟩
    rw [List.getElem?_singleton] at hy
    obtain ⟨_, hy⟩ := guard_passed hy
    exact .inr ⟨by omega, (Option.some.inj hy).symm⟩
  have hfree : ∀ (j : Nat) (y : Consumer V), c.consumers[j]? = some y → y.live = true →
      y.corrId ≠ c.nextCorr := fun j y hy hlive => hfresh y (List.mem_of_getElem? hy) hlive
  refine ⟨fun j j' y y' hy hy' hl hl' hid => ?_, fun j y hy hlistens => ?_,
    fun j y hy hwritten hlistens => ?_, fun j y hy hover => ?_⟩
  · rcases hwas j y hy with ⟨hold, -⟩ | ⟨rfl, rfl⟩
    · rcases hwas j' y' hy' with ⟨hold', -⟩ | ⟨rfl, rfl⟩
      · exact h.unique j j' y y' hold hold' hl hl' hid
      · exact absurd hid (hfree j y hold hl)
    · rcases hwas j' y' hy' with ⟨hold', -⟩ | ⟨rfl, rfl⟩
      · exact absurd hid.symm (hfree j' y' hold' hl')
      · rfl
  · rcases hwas j y hy with ⟨hold, -⟩ | ⟨rfl, rfl⟩
    · refine (h.present j y hold hlistens).imp id fun hget => ?_
      refine (hother _ (hfree j y hold ?_)).trans hget
      rw [Consumer.live, hlistens, Bool.or_true]
    · cases hlistens
  · rcases hwas j y hy with ⟨hold, hlt⟩ | ⟨rfl, rfl⟩
    · refine (h.cancelled j y hold hwritten hlistens).imp id fun hleft => ⟨?_, hleft.2⟩
      by_cases heq : y.corrId = c.nextCorr
      · rw [heq]
        exact hsame j hlt
      · rw [hother _ heq]
        exact hleft.1
    · cases hwritten
  · rcases hwas j y hy with ⟨hold, -⟩ | ⟨rfl, rfl⟩
    · exact h.returned j y hold hover
    · cases hover

/-- A stream that is refused is forgotten at once. -/
theorem Listens.unsent (hleaves : c.registerStream.Leaves c') (failure : Settlement V) :
    (c'.unsent link c.consumers.length c.nextCorr failure).Listens := by
  obtain ⟨streams, hforgot, hnone, hother⟩ : ∃ streams,
      Leaves { c' with streams := streams } (c'.forgetStream link c.nextCorr).1 ∧
        streams.get c.nextCorr = none ∧ ∀ x, x ≠ c.nextCorr → streams.get x = c'.streams.get x := by
    unfold forgetStream
    by_cases hhas : c'.streams.has c.nextCorr = true
    · rw [if_pos hhas]
      refine ⟨_, framing_leaves.settleRetirement, JsMap.get_erase_self _ _, fun x hx => ?_⟩
      rw [JsMap.get_erase, if_neg hx]
    · rw [if_neg hhas]
      refine ⟨c'.streams, .refl _, ?_, fun _ _ => rfl⟩
      rw [← Option.not_isSome_iff_eq_none]
      exact hhas
  have hfailed := hforgot.trans (framing_leaves.failStream c.consumers.length failure)
  have hregistered : c.registerStream.Listens :=
    h.register hfresh (fun x hx => by rw [JsMap.get_set, if_neg hx]) fun k hk => by
      rw [JsMap.get_set_self]
      exact fun heq => absurd (Option.some.inj heq) (by omega)
  refine Listens.leaves ?_ hfailed
  rcases hleaves.streams with hsame | hclosed
  · have htable : Leaves { c.registerStream with streams := streams } { c' with streams := streams } :=
      { hleaves with streams := .inl rfl }
    refine (h.register hfresh (fun x hx => ?_) fun k _ => ?_).leaves htable
    · rw [hother x hx, hsame]
      exact (JsMap.get_set _ _ _ _).trans (if_neg hx)
    · rw [hnone]
      nofun
  · exact ⟨(hregistered.leaves hleaves).unique, fun _ _ _ _ => .inl hclosed,
      fun _ _ _ _ _ => .inl hclosed, fun _ _ _ _ => .inl hclosed⟩

/-- The listener of a stream is attached once its CALL is written. -/
theorem Listens.written
    (hleaves : c.registerStream.Leaves c') :
    (c'.modifyConsumer c.consumers.length fun consumer =>
      { consumer with written := true, listening := true }).Listens := by
  have hregistered : c.registerStream.Listens :=
    h.register hfresh (fun x hx => by rw [JsMap.get_set, if_neg hx]) fun k hk => by
      rw [JsMap.get_set_self]
      exact fun heq => absurd (Option.some.inj heq) (by omega)
  have hmid := hregistered.leaves hleaves
  have hlast : c.registerStream.consumers[c.consumers.length]? = some { corrId := c.nextCorr } :=
    List.getElem?_concat_length ..
  have hwas : ∀ (j : Nat) (y : Consumer V),
      (c'.modifyConsumer c.consumers.length fun consumer =>
        { consumer with written := true, listening := true }).consumers[j]? = some y →
        ∃ old, c'.consumers[j]? = some old ∧ y.corrId = old.corrId ∧ y.over_ = old.over_ ∧
          (y.live = true → old.live = true) ∧
          (j = c.consumers.length ∧ y.listening = true ∧ old.corrId = c.nextCorr ∧
              old.over_ = false ∨
            y.written = old.written ∧ y.listening = old.listening) := by
    intro j y hy
    simp only [modifyConsumer, List.getElem?_modify] at hy
    obtain ⟨old, hold, rfl⟩ := Option.map_eq_some_iff.1 hy
    refine ⟨old, hold, ?_⟩
    by_cases hj : c.consumers.length = j
    · obtain ⟨first, hfirst, hid, -, -, hover⟩ := hleaves.was hold
      rw [← hj, hlast] at hfirst
      cases hfirst
      rw [if_pos hj]
      refine ⟨rfl, rfl, fun _ => ?_, .inl ⟨hj.symm, rfl, hid, hover⟩⟩
      rw [Consumer.live, hover]
      rfl
    · rw [if_neg hj]
      exact ⟨rfl, rfl, id, .inr ⟨rfl, rfl⟩⟩
  refine ⟨fun j j' y y' hy hy' hl hl' hid => ?_, fun j y hy hlistens => ?_,
    fun j y hy hwritten hlistens => ?_, fun j y hy hover => ?_⟩
  · obtain ⟨old, hold, hid_y, -, hlive, -⟩ := hwas j y hy
    obtain ⟨old', hold', hid_y', -, hlive', -⟩ := hwas j' y' hy'
    exact hmid.unique j j' old old' hold hold' (hlive hl) (hlive' hl') (by rw [← hid_y, ← hid_y', hid])
  · obtain ⟨old, hold, hid, -, -, ⟨rfl, -, hnext, -⟩ | ⟨-, hlistening⟩⟩ := hwas j y hy
    · rcases hleaves.streams with hsame | hclosed
      · right
        change c'.streams.get y.corrId = _
        rw [hsame, hid, hnext]
        exact JsMap.get_set_self _ _ _
      · exact .inl hclosed
    · rw [hid]
      exact hmid.present j old hold (hlistening ▸ hlistens)
  · obtain ⟨old, hold, hid, -, -, ⟨-, hon, -⟩ | ⟨hwrote, hlistening⟩⟩ := hwas j y hy
    · rw [hon] at hlistens
      cases hlistens
    · rw [hid]
      exact hmid.cancelled j old hold (hwrote ▸ hwritten) (hlistening ▸ hlistens)
  · obtain ⟨old, hold, -, hsame, -, ⟨-, -, -, hopen⟩ | ⟨-, hlistening⟩⟩ := hwas j y hy
    · rw [hsame, hopen] at hover
      cases hover
    · exact (hmid.returned j old hold (hsame ▸ hover)).imp id hlistening.trans

theorem Listens.dispatchStream (payload : CallPayload V)
    (aborted : Option Thrown) : (c.dispatchStream link payload aborted).Listens := by
  have hsent : c.registerStream.Leaves (c.registerStream.send link (.call c.nextCorr true payload)).1 :=
    framing_leaves.send _
  unfold HostConnection.dispatchStream
  dsimp only
  split
  · exact h.unsent hfresh (.refl _) _
  split
  · rename_i mid heq
    rw [heq] at hsent
    exact h.written hfresh hsent
  · rename_i heq
    rw [heq] at hsent
    exact h.unsent hfresh hsent _

end

/-- The terms on which every stream that is given up is cancelled: a consumer returns only what it
has pulled, and the id of a new stream is free. -/
def Pulls (c : HostConnection V) : Label V → Prop
  | .op _ (.return_ k) => c.Started k
  | .op _ (.dispatchStream _ _) => c.FreshStream
  | _ => True

theorem Listens.step (h : c.Listens) {l : Label V} (hok : c.Pulls l) (hstep : c.step l = some d) :
    d.Listens := by
  cases l with
  | op link op =>
    cases op with
    | dispatch payload aborted during =>
      cases hstep
      exact h.dispatch payload aborted during
    | dispatchStream payload aborted =>
      cases hstep
      exact h.dispatchStream hok payload aborted
    | abortStream k reason => exact h.abortStream hstep
    | pull k => exact h.pull hstep
    | return_ k => exact h.returnEarly hok hstep
    | _ =>
      refine h.leaves (leaves_step (fun link op heq => ?_) hstep)
      cases heq
      exact id
  | _ => exact h.leaves (leaves_step (fun _ _ heq => by cases heq) hstep)

theorem listens_initial (h : HostConnection.initial c) : c.Listens := by
  obtain ⟨dialer, rfl⟩ := h
  refine ⟨fun _ _ _ _ hx => ?_, fun _ _ hx => ?_, fun _ _ hx => ?_, fun _ _ hx => ?_⟩ <;> cases hx

end HostConnection

end SigxActors.Cluster
