/-
  Cluster/ConnectionFrame.lean --- what an operation of a connection leaves alone.

  A send may find the link gone, and a call that is forgotten may end a connection
  that retires: almost every operation may close.  `Framing` lists what is done on the
  way.  None of it gives a request another id, or makes one wait.
-/
import SigxActors.Cluster.ConnectionMoves

set_option autoImplicit false

namespace SigxActors.Cluster

open SigxActors.Js

/-- What stays of a call. -/
def UnaryCall.key {V : Type} (call : UnaryCall V) : Option Nat × Bool := (call.corrId, call.written)

/-- What stays of a consumer that does nothing. -/
def Consumer.key {V : Type} (consumer : Consumer V) : Nat × Bool × Bool × Bool :=
  (consumer.corrId, consumer.written, consumer.listening, consumer.over_)

namespace HostConnection

variable {V : Type}

/-! ## What operations are made of -/

/-- A relation that holds across everything that an operation does on the way. -/
structure Framing (R : HostConnection V → HostConnection V → Prop) : Prop where
  refl : ∀ c, R c c
  trans : ∀ {c d e}, R c d → R d e → R c e
  settle : ∀ {c} id settlement, R c (c.settle id settlement)
  failStream : ∀ {c} k failure, R c (c.failStream k failure)
  cancelInbound : ∀ {c} corrId, R c (c.cancelInbound corrId)
  shut : ∀ {c}, R c { c with closed := true }
  /-- Only a connection that is closed drops its streams. -/
  clear : ∀ {c}, c.closed = true → R c { c with streams := .empty }
  table : ∀ {c} unary, R c { c with unary := unary }
  say : ∀ {c} frame, R c { c with out := c.out ++ [frame] }
  retirement : ∀ {c} retiring sentDone peerDone,
    R c { c with retiring := retiring, sentDone := sentDone, peerDone := peerDone }

section

variable {R : HostConnection V → HostConnection V → Prop} {link : Link V} {c : HostConnection V}

theorem Framing.foldl {α : Type} (h : Framing R) {f : HostConnection V → α → HostConnection V}
    (hf : ∀ c x, R c (f c x)) : ∀ (xs : List α) (c : HostConnection V), R c (xs.foldl f c) := by
  intro xs
  induction xs with
  | nil => exact h.refl
  | cons x xs ih => exact fun c => h.trans (hf c x) (ih (f c x))

theorem closed_foldl {α : Type} {f : HostConnection V → α → HostConnection V}
    (hf : ∀ c x, c.closed = true → (f c x).closed = true) :
    ∀ (xs : List α) (c : HostConnection V), c.closed = true → (xs.foldl f c).closed = true := by
  intro xs
  induction xs with
  | nil => exact fun _ => id
  | cons x xs ih => exact fun c hc => ih (f c x) (hf c x hc)

theorem closed_settleAll (reason : String) (ids : List Nat) (c : HostConnection V)
    (h : c.closed = true) : (ids.foldl (fun c id => c.settle id (.lost reason)) c).closed = true :=
  closed_foldl (f := fun c id => c.settle id (.lost reason)) (fun _ _ hc => hc) ids c h

theorem closed_failAll (reason : String) (ks : List Nat) (c : HostConnection V)
    (h : c.closed = true) :
    (ks.foldl (fun c k => c.failStream k (.unreachable reason)) c).closed = true :=
  closed_foldl (f := fun c k => c.failStream k (.unreachable reason)) (fun _ _ hc => hc) ks c h

theorem closed_cancelInbound (corrId : Nat) (h : c.closed = true) :
    (c.cancelInbound corrId).closed = true := by
  unfold HostConnection.cancelInbound
  split <;> exact h

theorem closed_close (reason : String) : (c.close reason).closed = true := by
  unfold close
  split
  · assumption
  · refine closed_foldl (fun c id => closed_cancelInbound id) _ _ ?_
    exact closed_failAll reason _ _ (closed_settleAll reason _ _ rfl)

section

variable (h : Framing R)
include h

theorem Framing.close (reason : String) : R c (c.close reason) := by
  unfold HostConnection.close
  split
  · exact h.refl c
  dsimp only
  have hsettled : R c ((c.unary.entries.map Prod.snd).foldl
      (fun c id => c.settle id (.lost reason)) { c with closed := true }) :=
    h.trans h.shut (h.foldl (fun _ id => h.settle id _) _ _)
  have hclosed := closed_settleAll reason (c.unary.entries.map Prod.snd) { c with closed := true } rfl
  generalize (c.unary.entries.map Prod.snd).foldl _ _ = mid at hsettled hclosed ⊢
  have hfailed : R { mid with unary := .empty } ((mid.streams.entries.map Prod.snd).foldl
      (fun c k => c.failStream k (.unreachable reason)) { mid with unary := .empty }) :=
    h.foldl (fun _ k => h.failStream k _) _ _
  refine h.trans hsettled (h.trans (h.table .empty) (h.trans hfailed ?_))
  exact h.trans (h.clear (closed_failAll reason _ _ hclosed))
    (h.foldl (fun _ id => h.cancelInbound id) _ _)

theorem Framing.send (frame : Frame V) : R c (c.send link frame).1 := by
  unfold HostConnection.send
  split
  · exact h.refl c
  split
  · exact h.say frame
  · exact h.close _
  · exact h.trans (h.say frame) (h.close _)

theorem Framing.sayDone : R c (c.sayDone link) := by
  unfold HostConnection.sayDone
  split
  · exact h.trans (h.retirement c.retiring true c.peerDone) (h.send _)
  · exact h.refl c

theorem Framing.settleRetirement : R c (c.settleRetirement link) := by
  unfold HostConnection.settleRetirement
  split
  · dsimp only
    split
    · exact h.trans h.sayDone (h.close _)
    · exact h.sayDone
  · exact h.refl c

theorem Framing.retire (reason : String) : R c (c.retire link reason) := by
  unfold HostConnection.retire
  split
  · exact h.refl c
  · exact h.trans (h.retirement (some reason) c.sentDone c.peerDone) h.settleRetirement

theorem Framing.forgetUnary (corrId : Nat) : R c (c.forgetUnary link corrId).1 := by
  unfold HostConnection.forgetUnary
  split
  · exact h.trans (h.table _) h.settleRetirement
  · exact h.refl c

theorem Framing.abort (id corrId : Nat) (reason : Thrown) :
    R c (c.abort link id corrId reason) := by
  have hforgot : R c (c.forgetUnary link corrId).1 := h.forgetUnary corrId
  unfold HostConnection.abort
  split
  · rename_i heq
    rw [heq] at hforgot
    exact h.trans hforgot (h.trans (h.send _) (h.settle id _))
  · rename_i heq
    rwa [heq] at hforgot

theorem Framing.fail (corrId status : Nat) (message : String)
    (data : Option WireErrorData) : R c (c.fail link corrId status message data) := h.send _

end

end

/-! ## The requests -/

/-- The requests of `c` are those of `d`, and no consumer has done anything. -/
structure Leaves (c d : HostConnection V) : Prop where
  dialer : d.dialer = c.dialer
  nextCorr : d.nextCorr = c.nextCorr
  closed : c.closed = true → d.closed = true
  streams : d.streams = c.streams ∨ d.closed = true
  out : c.out <+: d.out
  calls : d.calls.map UnaryCall.key = c.calls.map UnaryCall.key
  waiting : ∀ (id : Nat) (call : UnaryCall V), d.calls[id]? = some call → call.settled = [] →
    ∃ old, c.calls[id]? = some old ∧ old.settled = []
  consumers : d.consumers.map Consumer.key = c.consumers.map Consumer.key

variable {link : Link V} {c d e : HostConnection V}

/-- What is not of a request may change. -/
theorem Leaves.of_same (hdialer : d.dialer = c.dialer) (hnextCorr : d.nextCorr = c.nextCorr)
    (hclosed : d.closed = c.closed) (hstreams : d.streams = c.streams) (hout : d.out = c.out)
    (hcalls : d.calls = c.calls) (hconsumers : d.consumers = c.consumers) : c.Leaves d where
  dialer := hdialer
  nextCorr := hnextCorr
  closed h := hclosed.trans h
  streams := .inl hstreams
  out := hout ▸ List.prefix_refl _
  calls := by rw [hcalls]
  waiting id call hcall hsettled := ⟨call, hcalls ▸ hcall, hsettled⟩
  consumers := by rw [hconsumers]

theorem Leaves.refl (c : HostConnection V) : c.Leaves c := .of_same rfl rfl rfl rfl rfl rfl rfl

theorem Leaves.trans (h : c.Leaves d) (h' : d.Leaves e) : c.Leaves e where
  dialer := h'.dialer.trans h.dialer
  nextCorr := h'.nextCorr.trans h.nextCorr
  closed hclosed := h'.closed (h.closed hclosed)
  streams := by
    rcases h'.streams with hsame | hclosed
    · exact h.streams.imp hsame.trans h'.closed
    · exact .inr hclosed
  out := h.out.trans h'.out
  calls := h'.calls.trans h.calls
  waiting id call hcall hsettled := by
    obtain ⟨mid, hmid, hmidSettled⟩ := h'.waiting id call hcall hsettled
    exact h.waiting id mid hmid hmidSettled
  consumers := h'.consumers.trans h.consumers

theorem modify_map_key {α β : Type} (key : α → β) (l : List α) (k : Nat) {f : α → α}
    (hf : ∀ x, key (f x) = key x) : (l.modify k f).map key = l.map key := by
  refine List.ext_getElem? fun i => ?_
  rw [List.getElem?_map, List.getElem?_map, List.getElem?_modify]
  cases l[i]? with
  | none => rfl
  | some x =>
    by_cases hk : k = i
    · simp [hk, hf]
    · simp [hk]

theorem leaves_settle (id : Nat) (settlement : Settlement V) : c.Leaves (c.settle id settlement) :=
  { Leaves.refl c with
    calls := modify_map_key _ c.calls id fun _ => rfl
    waiting := fun i call hcall hsettled => by
      change (c.calls.modify id _)[i]? = _ at hcall
      rw [List.getElem?_modify] at hcall
      obtain ⟨old, hold, rfl⟩ := Option.map_eq_some_iff.1 hcall
      refine ⟨old, hold, ?_⟩
      split at hsettled
      · simp at hsettled
      · exact hsettled }

theorem leaves_modifyConsumer (k : Nat) {f : Consumer V → Consumer V}
    (hf : ∀ consumer, (f consumer).key = consumer.key) : c.Leaves (c.modifyConsumer k f) :=
  { Leaves.refl c with consumers := modify_map_key _ c.consumers k hf }

theorem framing_leaves : Framing (V := V) Leaves where
  refl := Leaves.refl
  trans := Leaves.trans
  settle := leaves_settle
  failStream k failure := leaves_modifyConsumer k fun _ => rfl
  cancelInbound {c} corrId := by
    unfold HostConnection.cancelInbound
    split
    · exact .of_same rfl rfl rfl rfl rfl rfl rfl
    · exact .refl c
  shut {c} := { Leaves.refl c with closed := fun _ => rfl, streams := .inl rfl }
  clear {c} hclosed := { Leaves.refl c with streams := .inr hclosed }
  table _ := .of_same rfl rfl rfl rfl rfl rfl rfl
  say {c} frame := { Leaves.refl c with out := List.prefix_append _ _ }
  retirement _ _ _ := .of_same rfl rfl rfl rfl rfl rfl rfl

/-- What is sent is on its way, or the connection is closed. -/
theorem sent_or_closed (frame : Frame V) :
    frame ∈ (c.send link frame).1.out ∨ (c.send link frame).1.closed = true := by
  unfold send
  split
  · exact .inr ‹_›
  split
  · exact .inl (List.mem_append_right _ (List.mem_singleton.2 rfl))
  · exact .inr (closed_close _)
  · exact .inr (closed_close _)

/-! ## Serving -/

theorem leaves_modifyServing (k : Nat) (f : Serving V → Serving V) : c.Leaves (c.modifyServing k f) :=
  .of_same rfl rfl rfl rfl rfl rfl rfl

theorem leaves_finishStream (k corrId : Nat) : c.Leaves (c.finishStream k corrId) :=
  .of_same rfl rfl rfl rfl rfl rfl rfl

variable {k : Nat}

theorem leaves_refuseCall {status : Nat} {message : String} {data : Option WireErrorData}
    (h : c.refuseCall link k status message data = some d) : c.Leaves d := by
  unfold refuseCall at h
  split at h
  · split at h
    · cases h
      exact (framing_leaves.fail ..).trans (leaves_modifyServing k _)
    · cases h
  · cases h

theorem leaves_serve (h : c.serve k = some d) : c.Leaves d := by
  unfold serve at h
  split at h
  · obtain ⟨-, h⟩ := guard_passed h
    split at h
    · cases h
      exact leaves_modifyServing k _
    · split at h
      · cases h
        exact .of_same rfl rfl rfl rfl rfl rfl rfl
      · cases h
        exact leaves_modifyServing k _
  · cases h

theorem leaves_returned {value : V} (h : c.returned link k value = some d) : c.Leaves d := by
  unfold returned at h
  split at h
  · split at h
    · cases h
      exact (framing_leaves.send _).trans (leaves_modifyServing k _)
    · cases h
  · cases h

theorem leaves_yielded {value : V} (h : c.yielded link k value = some d) : c.Leaves d := by
  unfold yielded at h
  split at h
  · split at h
    · cases h
      exact framing_leaves.send _
    · cases h
  · cases h

theorem leaves_ended (h : c.ended link k = some d) : c.Leaves d := by
  unfold ended at h
  split at h
  · split at h
    · cases h
      split
      · exact leaves_finishStream k _
      · exact (framing_leaves.send _).trans (leaves_finishStream k _)
    · cases h
  · cases h

theorem leaves_threw {error : Thrown} (h : c.threw link k error = some d) : c.Leaves d := by
  unfold threw at h
  split at h
  · split at h
    · cases h
      exact (framing_leaves.fail ..).trans (leaves_modifyServing k _)
    · cases h
      split
      · exact leaves_finishStream k _
      · exact (framing_leaves.fail ..).trans (leaves_finishStream k _)
    · cases h
  · cases h

theorem leaves_unmade {error : Thrown} (h : c.unmade link k error = some d) : c.Leaves d := by
  unfold unmade at h
  split at h
  · rename_i serving _
    obtain ⟨-, rfl⟩ := guard_taken h
    have hset : c.Leaves { c with inbound := c.inbound.set serving.corrId k } :=
      .of_same rfl rfl rfl rfl rfl rfl rfl
    exact hset.trans ((framing_leaves.fail ..).trans (leaves_modifyServing k _))
  · cases h

/-! ## What arrives -/

/-- A frame changes no request but by settling it. -/
theorem leaves_onFrame (frame : Frame V) : c.Leaves (c.onFrame link frame) := by
  cases frame with
  | hello hostId =>
    cases hostId with
    | none => exact .refl c
    | some hostId => exact .of_same rfl rfl rfl rfl rfl rfl rfl
  | ping corrId => exact framing_leaves.send _
  | pong corrId => exact .refl c
  | goaway status message =>
    dsimp only [onFrame]
    split
    · have hdone : c.Leaves { c with peerDone := true } := .of_same rfl rfl rfl rfl rfl rfl rfl
      exact hdone.trans ((framing_leaves.retire _).trans framing_leaves.settleRetirement)
    · exact framing_leaves.close _
  | call corrId stream payload => exact .of_same rfl rfl rfl rfl rfl rfl rfl
  | reply corrId value =>
    have hforgot : c.Leaves (c.forgetUnary link corrId).1 := framing_leaves.forgetUnary corrId
    dsimp only [onFrame]
    split
    · rename_i heq
      rw [heq] at hforgot
      exact hforgot.trans (leaves_settle ..)
    · rename_i heq
      rwa [heq] at hforgot
  | error corrId status wire =>
    have hforgot : c.Leaves (c.forgetUnary link corrId).1 := framing_leaves.forgetUnary corrId
    dsimp only [onFrame]
    split
    · rename_i heq
      rw [heq] at hforgot
      exact hforgot.trans (leaves_settle ..)
    · rename_i heq
      rw [heq] at hforgot
      split
      · exact hforgot.trans (framing_leaves.failStream ..)
      · exact hforgot
  | chunk | end_ =>
    dsimp only [onFrame]
    split
    · exact leaves_modifyConsumer _ fun _ => rfl
    · exact .refl c
  | cancel corrId reason => exact framing_leaves.cancelInbound corrId

theorem leaves_malformed (oversized : Bool) (message : String) :
    c.Leaves (c.malformed link oversized message) :=
  (framing_leaves.send _).trans (framing_leaves.close _)

/-- A request is dispatched, or its consumer does something. -/
def Op.requests : Op V → Prop
  | .dispatch _ _ _ | .dispatchStream _ _ | .abortStream _ _ | .pull _ | .return_ _ => True
  | _ => False

/-- No other operation is about a request. -/
theorem leaves_run {op : Op V} (hop : ¬ op.requests) (h : c.run link op = some d) : c.Leaves d := by
  cases op with
  | hello hostId =>
    cases h
    exact framing_leaves.send _
  | abort id reason =>
    dsimp only [run, abortUnary] at h
    split at h
    · cases h
      exact framing_leaves.abort ..
    · cases h
  | refuseCall k status message data => exact leaves_refuseCall h
  | serve k => exact leaves_serve h
  | returned k value => exact leaves_returned h
  | yielded k value => exact leaves_yielded h
  | ended k => exact leaves_ended h
  | threw k error => exact leaves_threw h
  | unmade k error => exact leaves_unmade h
  | retire reason =>
    cases h
    exact framing_leaves.retire _
  | _ => exact absurd trivial hop

/-- What comes from the link settles requests at most. -/
theorem leaves_step {l : Label V} (hl : ∀ link op, l = .op link op → ¬ op.requests)
    (h : c.step l = some d) : c.Leaves d := by
  cases l with
  | op link op => exact leaves_run (hl link op rfl) h
  | frame link frame =>
    obtain ⟨-, rfl⟩ := guard_past_taken h
    exact leaves_onFrame frame
  | malformed link oversized message =>
    cases h
    exact leaves_malformed ..
  | close reason =>
    cases h
    exact framing_leaves.close _

end HostConnection

end SigxActors.Cluster
