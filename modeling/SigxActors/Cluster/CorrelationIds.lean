/-
  Cluster/CorrelationIds.lean --- which requests may have one correlation id.

  Source: `#allocate`, `dispatch` and `dispatchStream` of
  `packages/actors/src/cluster/connection.ts`.

  The ids of an end are every second number of 32 bits, and come round again.  What
  is still pending then is not skipped: a request keeps its id to itself exactly as
  long as a whole round has not been allocated behind it.
-/
import SigxActors.Cluster.ConnectionFrame

set_option autoImplicit false

namespace SigxActors.Cluster

open SigxActors.Js

/-- How many ids an end has. -/
def cycle : Nat := 0x7fffffff

/-- The id that is allocated after `n` others. -/
def corrIdAt (dialer : Bool) (n : Nat) : Nat := (if dialer then 2 else 3) + 2 * (n % cycle)

/-- An outbound call, or an outbound stream. -/
inductive Request where
  | call (id : Nat)
  | stream (k : Nat)
  deriving DecidableEq, Repr

namespace HostConnection

variable {V : Type}

/-- The id of a request, where it has been given one. -/
def idOf (c : HostConnection V) : Request → Option Nat
  | .call id => (c.calls[id]?).bind (·.corrId)
  | .stream k => (c.consumers[k]?).map (·.corrId)

/-- A call has yet to settle; the listener of a stream is there while it is in the table. -/
def pending (c : HostConnection V) : Request → Bool
  | .call id => (c.calls[id]?).any (·.settled.isEmpty)
  | .stream k => !c.closed && (c.consumers[k]?).any (·.listening)

/-- No two pending requests share an id. -/
def DistinctIds (c : HostConnection V) : Prop :=
  ∀ r r' x, c.pending r = true → c.pending r' = true → c.idOf r = some x → c.idOf r' = some x →
    r = r'

variable {link : Link V} {c c' d : HostConnection V}

/-! ## The ring -/

theorem nextCorr_allocate {n : Nat} (h : c.nextCorr = corrIdAt c.dialer n) :
    c.allocate.nextCorr = corrIdAt c.dialer (n + 1) := by
  have hlt : n % cycle < cycle := Nat.mod_lt _ (by decide)
  have hnext : (n + 1) % cycle = if n % cycle + 1 = cycle then 0 else n % cycle + 1 := by
    rw [Nat.add_mod, show 1 % cycle = 1 from rfl]
    split
    · rename_i heq
      rw [heq, Nat.mod_self]
    · exact Nat.mod_eq_of_lt (by omega)
  simp only [allocate, h, corrIdAt, hnext]
  unfold cycle at hlt ⊢
  cases c.dialer with
  | true =>
    simp only [if_pos]
    split <;> split <;> omega
  | false =>
    simp only [Bool.false_eq_true, if_false]
    split <;> split <;> omega

/-- Within a round no id comes twice. -/
theorem corrIdAt_inj {dialer : Bool} {n m : Nat} (h : corrIdAt dialer n = corrIdAt dialer m)
    (hn : n < m + cycle) (hm : m < n + cycle) : n = m := by
  have hmod : n % cycle = m % cycle := by
    unfold corrIdAt at h
    omega
  unfold cycle at hmod hn hm
  omega

/-- The parity of an id tells which end has allocated it. -/
theorem corrIdAt_parity (dialer : Bool) (n : Nat) :
    corrIdAt dialer n % 2 = if dialer then 0 else 1 := by
  unfold corrIdAt
  cases dialer <;> simp only [if_true, Bool.false_eq_true, if_false] <;> omega

/-! ## What a step does to the requests -/

/-- The requests of `d` are those of `c`, less what is settled, and `new`. -/
structure Turn (c d : HostConnection V) (new : Option Request) : Prop where
  dialer : d.dialer = c.dialer
  nextCorr : new = none ∧ d.nextCorr = c.nextCorr ∨
    new.isSome ∧ d.nextCorr = c.allocate.nextCorr
  ids : ∀ r x, d.idOf r = some x → c.idOf r = some x ∨ new = some r ∧ x = c.nextCorr
  fresh : ∀ r, new = some r → c.idOf r = none
  pending : ∀ r, d.pending r = true → (d.idOf r).isSome → c.pending r = true ∨ new = some r

section

variable (h : c.Leaves d)
include h

theorem Leaves.calls_get (id : Nat) :
    (d.calls[id]?).map UnaryCall.key = (c.calls[id]?).map UnaryCall.key := by
  rw [← List.getElem?_map, ← List.getElem?_map, h.calls]

theorem Leaves.consumers_get (k : Nat) :
    (d.consumers[k]?).map Consumer.key = (c.consumers[k]?).map Consumer.key := by
  rw [← List.getElem?_map, ← List.getElem?_map, h.consumers]

theorem Leaves.length_calls : d.calls.length = c.calls.length := by
  rw [← List.length_map (f := UnaryCall.key), h.calls, List.length_map]

theorem Leaves.idOf (r : Request) : d.idOf r = c.idOf r := by
  cases r with
  | call id =>
    have hkey := congrArg (Option.map Prod.fst) (h.calls_get id)
    rw [Option.map_map, Option.map_map] at hkey
    have hbind : ∀ o : Option (UnaryCall V),
        o.bind (·.corrId) = (o.map (Prod.fst ∘ UnaryCall.key)).join := by
      intro o
      cases o <;> rfl
    rw [HostConnection.idOf, HostConnection.idOf, hbind, hbind, hkey]
  | stream k =>
    have hkey := congrArg (Option.map Prod.fst) (h.consumers_get k)
    rw [Option.map_map, Option.map_map] at hkey
    exact hkey

theorem Leaves.listening (k : Nat) :
    (d.consumers[k]?).any (·.listening) = (c.consumers[k]?).any (·.listening) := by
  have hkey := congrArg (Option.map fun key : Nat × Bool × Bool × Bool => key.2.2.1)
    (h.consumers_get k)
  rw [Option.map_map, Option.map_map] at hkey
  have hany : ∀ o : Option (Consumer V), o.any (·.listening) =
      (o.map ((fun key : Nat × Bool × Bool × Bool => key.2.2.1) ∘ Consumer.key)).getD false := by
    intro o
    cases o <;> rfl
  rw [hany, hany, hkey]

theorem Leaves.pending {r : Request} (hpending : d.pending r = true) : c.pending r = true := by
  cases r with
  | call id =>
    obtain ⟨call, hcall, hsettled⟩ := (Option.any_eq_true _ _).1 hpending
    obtain ⟨old, hold, hwaits⟩ := h.waiting id call hcall (List.isEmpty_iff.1 hsettled)
    exact (Option.any_eq_true _ _).2 ⟨old, hold, List.isEmpty_iff.2 hwaits⟩
  | stream k =>
    rw [HostConnection.pending, Bool.and_eq_true, Bool.not_eq_true'] at hpending ⊢
    rw [h.listening] at hpending
    refine ⟨?_, hpending.2⟩
    cases hclosed : c.closed with
    | false => rfl
    | true =>
      rw [h.closed hclosed] at hpending
      cases hpending.1

theorem Leaves.turn : c.Turn d none where
  dialer := h.dialer
  nextCorr := .inl ⟨rfl, h.nextCorr⟩
  ids r _ hx := .inl (h.idOf r ▸ hx)
  fresh := nofun
  pending _ hpending _ := .inl (h.pending hpending)

end

/-- What comes before a step and leaves the requests alone adds nothing to it. -/
theorem Turn.after (h : c.Leaves c') (h' : c'.Turn d none) : c.Turn d none where
  dialer := h'.dialer.trans h.dialer
  nextCorr := by
    rcases h'.nextCorr with ⟨-, hsame⟩ | ⟨hnew, -⟩
    · exact .inl ⟨rfl, hsame.trans h.nextCorr⟩
    · cases hnew
  ids r x hx := by
    rcases h'.ids r x hx with hold | ⟨hnew, -⟩
    · exact .inl (h.idOf r ▸ hold)
    · cases hnew
  fresh := nofun
  pending r hpending hid := by
    rcases h'.pending r hpending hid with hold | hnew
    · exact .inl (h.pending hold)
    · cases hnew

/-- A call is written down, with an id or without one. -/
theorem idOf_append_call (c : HostConnection V) (call : UnaryCall V) (unary : JsMap Nat Nat)
    (r : Request) :
    idOf { c with calls := c.calls ++ [call], unary := unary } r =
      if r = .call c.calls.length then call.corrId else c.idOf r := by
  cases r with
  | call id =>
    simp only [idOf, List.getElem?_append, Request.call.injEq]
    split
    · rw [if_neg (by omega)]
    split
    · rename_i heq
      rw [heq, Nat.sub_self]
      rfl
    · rw [List.getElem?_eq_none (by simp only [List.length_singleton]; omega),
        List.getElem?_eq_none (by omega)]
  | stream k => rfl

theorem pending_append_call (c : HostConnection V) (call : UnaryCall V) (unary : JsMap Nat Nat)
    {r : Request}
    (h : HostConnection.pending { c with calls := c.calls ++ [call], unary := unary } r = true) :
    c.pending r = true ∨ r = .call c.calls.length := by
  cases r with
  | call id =>
    by_cases hid : id = c.calls.length
    · exact .inr (congrArg Request.call hid)
    left
    simp only [HostConnection.pending, List.getElem?_append] at h ⊢
    split at h
    · exact h
    · rw [List.getElem?_eq_none (by simp only [List.length_singleton]; omega)] at h
      cases h
  | stream k => exact .inl h

/-- A call that was refused has no id. -/
theorem turn_refuse (settlement : Settlement V) : c.Turn (c.refuse settlement) none where
  dialer := rfl
  nextCorr := .inl ⟨rfl, rfl⟩
  ids r x hx := by
    rw [refuse, idOf_append_call c _ c.unary] at hx
    obtain ⟨-, hx⟩ := guard_past hx
    exact .inl hx
  fresh := nofun
  pending r hpending hid := by
    rcases pending_append_call c _ c.unary hpending with hold | rfl
    · exact .inl hold
    · rw [refuse, idOf_append_call c _ c.unary, if_pos rfl] at hid
      cases hid

/-- A call that was given the next id. -/
theorem turn_call (h : c.allocate.Leaves c') {call : UnaryCall V} {unary : JsMap Nat Nat}
    (hcorrId : call.corrId = some c.nextCorr)
    (h' : Leaves { c' with calls := c'.calls ++ [call], unary := unary } d) :
    c.Turn d (some (.call c.calls.length)) where
  dialer := h'.dialer.trans h.dialer
  nextCorr := .inr ⟨rfl, h'.nextCorr.trans h.nextCorr⟩
  ids r x hx := by
    rw [h'.idOf, idOf_append_call, h.length_calls] at hx
    split at hx
    · rename_i hr
      rw [hcorrId] at hx
      exact .inr ⟨congrArg some hr.symm, (Option.some.inj hx).symm⟩
    · exact .inl ((h.idOf r).symm.trans hx)
  fresh r hr := by
    cases hr
    rw [idOf, List.getElem?_eq_none (Nat.le_refl _)]
    rfl
  pending r hpending _ := by
    rcases pending_append_call c' call unary (h'.pending hpending) with hold | rfl
    · exact .inl (h.pending hold)
    · exact .inr (congrArg (fun n => some (Request.call n)) h.length_calls.symm)

/-- `dispatch` refuses the call, or gives it the next id. -/
theorem turn_dispatch (link : Link V) (c : HostConnection V) (payload : CallPayload V)
    (aborted during : Option Thrown) :
    ∃ new, c.Turn (c.dispatch link payload aborted during) new := by
  unfold HostConnection.dispatch
  split
  · exact ⟨none, turn_refuse _⟩
  split
  · exact ⟨none, turn_refuse _⟩
  · exact ⟨none, turn_refuse _⟩
  have hsent : c.allocate.Leaves (c.allocate.send link (.call c.nextCorr false payload)).1 :=
    framing_leaves.send _
  dsimp only
  split
  · rename_i heq
    rw [heq] at hsent
    exact ⟨_, turn_call hsent rfl (.refl _)⟩
  · rename_i heq
    rw [heq] at hsent
    split
    · exact ⟨_, turn_call hsent rfl (framing_leaves.abort ..)⟩
    · exact ⟨_, turn_call hsent rfl (.refl _)⟩

variable {f : Consumer V → Consumer V} {k : Nat}

/-- A consumer does something, behind a change of the table. -/
theorem idOf_modifyConsumer (k : Nat) (hf : ∀ consumer, (f consumer).corrId = consumer.corrId)
    (r : Request) : (c.modifyConsumer k f).idOf r = c.idOf r := by
  cases r with
  | call id => rfl
  | stream j =>
    simp only [idOf, modifyConsumer, List.getElem?_modify]
    cases c.consumers[j]? with
    | none => rfl
    | some consumer =>
      by_cases hk : k = j
      · simp [hk, hf]
      · simp [hk]

theorem pending_modifyConsumer {r : Request} (h : (c.modifyConsumer k f).pending r = true)
    (hr : r ≠ .stream k) : c.pending r = true := by
  cases r with
  | call id => exact h
  | stream j =>
    have hne : k ≠ j := fun heq => hr (congrArg Request.stream heq.symm)
    simp only [HostConnection.pending, modifyConsumer, List.getElem?_modify, if_neg hne,
      Option.map_eq_map, Option.map_id'] at h ⊢
    exact h

/-- A consumer that does something is pending no more than before. -/
theorem turn_finish (streams : JsMap Nat Nat) (h : Leaves { c with streams := streams } c') (k : Nat)
    {f : Consumer V → Consumer V} (hf : ∀ consumer, (f consumer).corrId = consumer.corrId)
    (hlistening : ∀ consumer, (f consumer).listening = true → consumer.listening = true) :
    c.Turn (c'.modifyConsumer k f) none where
  dialer := h.dialer
  nextCorr := .inl ⟨rfl, h.nextCorr⟩
  ids r x hx := by
    rw [idOf_modifyConsumer k hf, h.idOf] at hx
    cases r with
    | call | stream => exact .inl hx
  fresh := nofun
  pending r hpending _ := by
    left
    have hold : c'.pending r = true := by
      by_cases hr : r = .stream k
      · subst hr
        simp only [HostConnection.pending, modifyConsumer, List.getElem?_modify, if_pos,
          Option.map_eq_map, Bool.and_eq_true, Option.any_map] at hpending ⊢
        obtain ⟨consumer, hconsumer, hlistens⟩ := (Option.any_eq_true _ _).1 hpending.2
        exact ⟨hpending.1, (Option.any_eq_true _ _).2
          ⟨consumer, hconsumer, hlistening consumer hlistens⟩⟩
      · exact pending_modifyConsumer hpending hr
    have hold := h.pending hold
    cases r with
    | call | stream => exact hold

/-- A stream that was given the next id. -/
theorem turn_stream (streams : JsMap Nat Nat)
    (h : Leaves { c.registerStream with streams := streams } d) :
    c.Turn d (some (.stream c.consumers.length)) where
  dialer := h.dialer
  nextCorr := .inr ⟨rfl, h.nextCorr⟩
  ids r x hx := by
    rw [h.idOf] at hx
    cases r with
    | call id => exact .inl hx
    | stream k =>
      simp only [idOf, registerStream, List.getElem?_append] at hx ⊢
      split at hx
      · exact .inl hx
      rw [List.getElem?_singleton] at hx
      split at hx
      · refine .inr ⟨congrArg (fun n => some (Request.stream n)) (by omega), ?_⟩
        exact (Option.some.inj hx).symm
      · cases hx
  fresh r hr := by
    cases hr
    rw [idOf, List.getElem?_eq_none (Nat.le_refl _)]
    rfl
  pending r hpending _ := by
    have hpending := h.pending hpending
    cases r with
    | call id => exact .inl hpending
    | stream k =>
      simp only [HostConnection.pending, registerStream, List.getElem?_append] at hpending ⊢
      split at hpending
      · exact .inl hpending
      rw [List.getElem?_singleton] at hpending
      split at hpending
      · exact .inr (congrArg (fun n => some (Request.stream n)) (by omega))
      · rw [Option.any_none, Bool.and_false] at hpending
        cases hpending

/-- The stream that was dispatched is told what became of it. -/
theorem Turn.modifyConsumer (h : c.Turn d (some (.stream k)))
    (hf : ∀ consumer, (f consumer).corrId = consumer.corrId) :
    c.Turn (d.modifyConsumer k f) (some (.stream k)) where
  dialer := h.dialer
  nextCorr := h.nextCorr
  ids r x hx := h.ids r x (idOf_modifyConsumer k hf r ▸ hx)
  fresh := h.fresh
  pending r hpending hid := by
    by_cases hr : r = .stream k
    · exact .inr (congrArg some hr.symm)
    · exact h.pending r (pending_modifyConsumer hpending hr) (idOf_modifyConsumer k hf r ▸ hid)

/-- Forgetting a stream takes it from the table at most. -/
theorem leaves_forgetStream (link : Link V) (c : HostConnection V) (corrId : Nat) :
    ∃ streams, Leaves { c with streams := streams } (c.forgetStream link corrId).1 := by
  unfold forgetStream
  split
  · exact ⟨c.streams.erase corrId, framing_leaves.settleRetirement⟩
  · exact ⟨c.streams, .refl c⟩

theorem leaves_cancelStream (link : Link V) (c : HostConnection V) (corrId : Nat)
    (reason : String) :
    ∃ streams, Leaves { c with streams := streams } (c.cancelStream link corrId reason) := by
  obtain ⟨streams, hforgot⟩ := leaves_forgetStream link c corrId
  refine ⟨streams, ?_⟩
  unfold cancelStream
  split
  · rename_i heq
    rw [heq] at hforgot
    split
    · exact hforgot
    · exact hforgot.trans (framing_leaves.send _)
  · rename_i heq
    rwa [heq] at hforgot

/-- A stream that is not written is forgotten. -/
theorem turn_unsent (h : c.registerStream.Leaves c') (failure : Settlement V) :
    c.Turn (c'.unsent link c.consumers.length c.nextCorr failure)
      (some (.stream c.consumers.length)) := by
  obtain ⟨streams, hforgot⟩ := leaves_forgetStream link c' c.nextCorr
  have htable : Leaves { c.registerStream with streams := streams } { c' with streams := streams } :=
    { h with streams := .inl rfl }
  exact turn_stream streams (htable.trans (hforgot.trans (framing_leaves.failStream ..)))

/-- `dispatchStream` gives the stream the next id, written or not. -/
theorem turn_dispatchStream (link : Link V) (c : HostConnection V) (payload : CallPayload V)
    (aborted : Option Thrown) : ∃ new, c.Turn (c.dispatchStream link payload aborted) new := by
  have hsent : c.registerStream.Leaves (c.registerStream.send link (.call c.nextCorr true payload)).1 :=
    framing_leaves.send _
  unfold HostConnection.dispatchStream
  dsimp only
  split
  · exact ⟨_, turn_unsent (.refl _) _⟩
  split
  · rename_i heq
    rw [heq] at hsent
    exact ⟨_, (turn_stream c.registerStream.streams hsent).modifyConsumer fun _ => rfl⟩
  · rename_i heq
    rw [heq] at hsent
    exact ⟨_, turn_unsent hsent _⟩

theorem turn_finishConsumer (k corrId : Nat) : c.Turn (c.finishConsumer link k corrId) none := by
  obtain ⟨streams, hcancelled⟩ := leaves_cancelStream link c corrId "consumer-return"
  exact turn_finish streams hcancelled k (fun _ => rfl) fun _ => nofun

theorem turn_abortStream {reason : Thrown} (h : c.abortStream link k reason = some d) :
    c.Turn d none := by
  unfold HostConnection.abortStream at h
  split at h
  · rename_i consumer _
    obtain ⟨-, rfl⟩ := guard_taken h
    obtain ⟨streams, hcancelled⟩ :=
      leaves_cancelStream link c consumer.corrId "caller-abort"
    exact turn_finish streams hcancelled k (fun _ => rfl) fun _ => nofun
  · cases h

theorem turn_pull (h : c.pull link k = some d) : c.Turn d none := by
  unfold HostConnection.pull at h
  split at h
  · obtain ⟨-, h⟩ := guard_past h
    have hstarted : c.Leaves (c.modifyConsumer k fun consumer => { consumer with started := true }) :=
      leaves_modifyConsumer k fun _ => rfl
    split at h
    · cases h
      refine Leaves.turn (hstarted.trans ?_)
      exact leaves_modifyConsumer k fun _ => rfl
    · obtain ⟨-, rfl⟩ := guard_taken h
      exact (turn_finishConsumer k _).after hstarted
  · cases h

/-- A stream whose generator was never pulled stays pending. -/
theorem turn_returnEarly (h : c.returnEarly link k = some d) : c.Turn d none := by
  unfold HostConnection.returnEarly at h
  split at h
  · obtain ⟨-, h⟩ := guard_past h
    split at h
    · cases h
      exact turn_finishConsumer k _
    · cases h
      exact turn_finish c.streams (.refl c) k (fun _ => rfl) fun _ => id
  · cases h

/-- The step dispatches a request. -/
def Dispatches : Label V → Prop
  | .op _ (.dispatch _ _ _) | .op _ (.dispatchStream _ _) => True
  | _ => False

/-- A step allocates one id where it dispatches a request, or none. -/
theorem turn_step {l : Label V} (h : c.step l = some d) :
    ∃ new, c.Turn d new ∧ (new.isSome → Dispatches l) := by
  cases l with
  | op link op =>
    cases op with
    | dispatch payload aborted during =>
      cases h
      obtain ⟨new, hturn⟩ := turn_dispatch link c payload aborted during
      exact ⟨new, hturn, fun _ => trivial⟩
    | dispatchStream payload aborted =>
      cases h
      obtain ⟨new, hturn⟩ := turn_dispatchStream link c payload aborted
      exact ⟨new, hturn, fun _ => trivial⟩
    | abortStream k reason => exact ⟨none, turn_abortStream h, nofun⟩
    | pull k => exact ⟨none, turn_pull h, nofun⟩
    | return_ k => exact ⟨none, turn_returnEarly h, nofun⟩
    | _ =>
      refine ⟨none, (leaves_step (fun link op heq => ?_) h).turn, nofun⟩
      cases heq
      exact id
  | _ => exact ⟨none, (leaves_step (fun _ _ heq => by cases heq) h).turn, nofun⟩

end HostConnection

end SigxActors.Cluster
