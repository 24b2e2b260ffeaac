/-
  Cluster/ConnectionMoves.lean --- what an operation of a connection is made of.

  `Kept` lists the moves an operation can make, each with what is known when it
  is made; what every move keeps, every operation and every frame keeps.  Between
  two moves of one operation a call may have left the table without having
  settled, and a stream without its consumer having been told: what is kept is
  indexed by the two that are exempt.
-/
import SigxActors.Cluster.HostConnection

set_option autoImplicit false

namespace SigxActors.Cluster

open SigxActors.Js

namespace HostConnection

variable {V : Type}

/-- What the operations of a run are held to. -/
structure Terms (V : Type) where
  /-- What may settle a call that was written. -/
  fair : Settlement V → Prop
  /-- What may fail a stream that was written. -/
  fairStream : Settlement V → Prop
  /-- Why a connection may be retired. -/
  reason : String → Prop
  /-- The next id may be given to a stream. -/
  freshStream : HostConnection V → Prop

/-- A CALL may be dispatched: its id is not that of another call in flight, and the link does not
close while it takes it. -/
def FreshCall (link : Link V) (c : HostConnection V) (payload : CallPayload V) : Prop :=
  c.closed = false → c.retiring.filter (· ≠ "") = none →
    c.unary.get c.nextCorr = none ∧ link (.call c.nextCorr false payload) ≠ .closing

/-- An operation on the terms. -/
def Admits (terms : Terms V) (link : Link V) (c : HostConnection V) : Op V → Prop
  | .dispatch payload _ during =>
      c.FreshCall link payload ∧ ∀ reason ∈ during, terms.fair (.aborted reason)
  | .abort _ reason => terms.fair (.aborted reason)
  | .dispatchStream _ _ => terms.freshStream c
  | .abortStream _ reason => terms.fairStream (.aborted reason)
  | .retire reason => terms.reason reason
  | _ => True

/-- A frame on the terms. -/
def AdmitsFrame (terms : Terms V) (c : HostConnection V) : Frame V → Prop
  | .reply _ value => terms.fair (.reply value)
  | .error corrId status wire =>
      match c.unary.get corrId with
      | some _ => terms.fair (.error (errorOf status wire))
      | none => terms.fairStream (.error (errorOf status wire))
  | .goaway _ _ => False
  | _ => True

/-- A consumer changes, and stays the consumer it was. -/
structure Mild (terms : Terms V) (f : Consumer V → Consumer V) : Prop where
  corrId : ∀ consumer, (f consumer).corrId = consumer.corrId
  written : ∀ consumer, (f consumer).written = consumer.written
  over_ : ∀ consumer, consumer.over_ = true → (f consumer).over_ = true
  done : ∀ consumer, consumer.done = true → (f consumer).done = true
  failure : ∀ consumer failure, (f consumer).failure = some failure →
    consumer.failure = some failure ∨ terms.fairStream failure
  listening : ∀ consumer, (f consumer).listening = true → consumer.listening = true

/-- It needs its place in the table no more. -/
def Finishing (f : Consumer V → Consumer V) : Prop :=
  ∀ consumer, (f consumer).done = true ∨ (f consumer).over_ = true

/-- `P` is kept by every move. -/
structure Kept (terms : Terms V) (link : Link V)
    (P : Option Nat → Option Nat → HostConnection V → Prop) : Prop where
  quiet : ∀ {call stream c}, P call stream c → ∀ nextCorr peerHostId inbound servings,
    P call stream
      { c with
        nextCorr := nextCorr, peerHostId := peerHostId, inbound := inbound, servings := servings }
  send : ∀ {call stream c} {frame : Frame V}, P call stream c →
    (∀ status message, frame ≠ .goaway status message) → P call stream (c.send link frame).1
  settleRetirement : ∀ {call stream c}, P call stream c → P call stream (c.settleRetirement link)
  /-- A call leaves the table. -/
  eraseCall : ∀ {stream c corrId id}, P none stream c → c.unary.get corrId = some id →
    P (some id) stream { c with unary := c.unary.erase corrId }
  settle : ∀ {stream c id settlement}, P (some id) stream c → terms.fair settlement →
    P none stream (c.settle id settlement)
  /-- A call that waits is the one the table has under its id. -/
  mine : ∀ {stream c corrId id id'}, P none stream c →
    c.calls[id]? = some ⟨some corrId, true, []⟩ → c.unary.get corrId = some id' → id' = id
  register : ∀ {c corrId}, P none none c → c.closed = false →
    c.retiring.filter (· ≠ "") = none → c.unary.get corrId = none →
    P none none
      { c with
        calls := c.calls ++ [⟨some corrId, true, []⟩], unary := c.unary.set corrId c.calls.length }
  /-- A call that is not written has settled at once. -/
  refuse : ∀ {c corrId settlement}, P none none c →
    (∃ reason, settlement = .unreachable reason) ∨ (∃ reason, settlement = .aborted reason) →
    P none none { c with calls := c.calls ++ [⟨corrId, false, [settlement]⟩] }
  retire : ∀ {c reason}, P none none c → c.closed = false → c.retiring = none →
    terms.reason reason → P none none { c with retiring := some reason }
  openStream : ∀ {c payload}, P none none c → c.closed = false → c.retiring = none →
    terms.freshStream c → P none none (c.dispatchStream link payload none)
  /-- A stream that is refused leaves the table again. -/
  refuseStream : ∀ {c}, P none none c → terms.freshStream c →
    P none (some c.consumers.length)
      { c with
        streams := (c.streams.set c.nextCorr c.consumers.length).erase c.nextCorr
        consumers := c.consumers ++ [{ corrId := c.nextCorr }] }
  failUnsent : ∀ {c k failure}, P none (some k) c →
    (∀ consumer ∈ c.consumers[k]?, consumer.written = false) →
    P none none (c.failStream k failure)
  eraseStream : ∀ {c k consumer}, P none none c → c.consumers[k]? = some consumer →
    consumer.live = true →
    P none (some k) { c with streams := c.streams.erase consumer.corrId }
  /-- A consumer that is out of the table needs its place there no more. -/
  finish : ∀ {stream c k f}, P none stream c →
    (stream = some k ∨ stream = none ∧
      ∀ consumer ∈ c.consumers[k]?, c.streams.has consumer.corrId = false) →
    Mild terms f → Finishing f → P none none (c.modifyConsumer k f)
  mild : ∀ {c k f}, P none none c → Mild terms f →
    (∀ consumer, (f consumer).listening = consumer.listening) → P none none (c.modifyConsumer k f)

/-! ## What the link does not touch -/

section

variable {link : Link V} {c : HostConnection V}

/-- Which streams were written. -/
def writtenStreams (c : HostConnection V) : List Bool := c.consumers.map (·.written)

theorem modify_map_written (l : List (Consumer V)) (k : Nat) {f : Consumer V → Consumer V}
    (hf : ∀ consumer, (f consumer).written = consumer.written) :
    (l.modify k f).map (·.written) = l.map (·.written) := by
  refine List.ext_getElem? fun i => ?_
  rw [List.getElem?_map, List.getElem?_map, List.getElem?_modify]
  cases l[i]? with
  | none => rfl
  | some consumer =>
    by_cases hk : k = i
    · simp [hk, hf]
    · simp [hk]

theorem writtenStreams_failStream (k : Nat) (failure : Settlement V) :
    (c.failStream k failure).writtenStreams = c.writtenStreams :=
  modify_map_written c.consumers k fun _ => rfl

/-- What the streams of the peer come to is all that cancelling them changes. -/
theorem cancelAll_same : ∀ (ids : List Nat) (c : HostConnection V), ∃ inbound servings,
    ids.foldl cancelInbound c = { c with inbound := inbound, servings := servings } := by
  intro ids
  induction ids with
  | nil => exact fun c => ⟨c.inbound, c.servings, rfl⟩
  | cons id ids ih =>
    intro c
    obtain ⟨inbound, servings, heq⟩ := ih (c.cancelInbound id)
    refine ⟨inbound, servings, ?_⟩
    rw [List.foldl_cons, heq]
    unfold cancelInbound
    split <;> rfl

theorem writtenStreams_close (reason : String) :
    (c.close reason).writtenStreams = c.writtenStreams := by
  have hsettle : ∀ (ids : List Nat) (c : HostConnection V),
      (ids.foldl (fun c id => c.settle id (.lost reason)) c).writtenStreams = c.writtenStreams := by
    intro ids
    induction ids with
    | nil => exact fun _ => rfl
    | cons id ids ih => exact fun c => ih (c.settle id (.lost reason))
  have hfail : ∀ (ks : List Nat) (c : HostConnection V),
      (ks.foldl (fun c k => c.failStream k (.unreachable reason)) c).writtenStreams =
        c.writtenStreams := by
    intro ks
    induction ks with
    | nil => exact fun _ => rfl
    | cons k ks ih =>
      intro c
      rw [List.foldl_cons, ih, writtenStreams_failStream]
  unfold close
  split
  · rfl
  obtain ⟨inbound, servings, hcancel⟩ := cancelAll_same _ _
  rw [hcancel]
  refine (hfail _ _).trans ?_
  exact hsettle _ _

theorem writtenStreams_send (frame : Frame V) :
    (c.send link frame).1.writtenStreams = c.writtenStreams := by
  unfold send
  split
  · rfl
  split
  · rfl
  · exact writtenStreams_close _
  · exact writtenStreams_close _

/-- What a send comes to, on a link that does not close while it takes the frame. -/
theorem send_taken {frame : Frame V} (hopen : c.closed = false) (hlink : link frame ≠ .closing)
    (hsent : (c.send link frame).2 = true) :
    (c.send link frame).1 = { c with out := c.out ++ [frame] } := by
  unfold send at hsent ⊢
  rw [hopen] at hsent ⊢
  cases hframe : link frame with
  | taken => rfl
  | threw =>
    rw [hframe] at hsent
    cases hsent
  | closing => exact absurd hframe hlink

theorem writtenStreams_sayDone : (c.sayDone link).writtenStreams = c.writtenStreams := by
  unfold sayDone
  split
  · exact writtenStreams_send _
  · rfl

theorem writtenStreams_settleRetirement :
    (c.settleRetirement link).writtenStreams = c.writtenStreams := by
  unfold settleRetirement
  split
  · dsimp only
    split
    · exact (writtenStreams_close _).trans writtenStreams_sayDone
    · exact writtenStreams_sayDone
  · rfl

end

/-! ## Every operation -/

section

variable {terms : Terms V} {link : Link V} {P : Option Nat → Option Nat → HostConnection V → Prop}
  {call stream : Option Nat} {c d : HostConnection V}

variable {corrId k : Nat} {aborted : Option Thrown}

theorem Kept.erase (h : Kept terms link P) {id : Nat} (hP : P none stream c)
    (hget : c.unary.get corrId = some id) :
    P (some id) stream ({ c with unary := c.unary.erase corrId }.settleRetirement link) :=
  h.settleRetirement (h.eraseCall hP hget)

theorem Kept.abort (h : Kept terms link P) {id : Nat} {reason : Thrown} (hP : P none stream c)
    (hget : c.calls[id]? = some ⟨some corrId, true, []⟩) (hfair : terms.fair (.aborted reason)) :
    P none stream (c.abort link id corrId reason) := by
  unfold HostConnection.abort forgetUnary
  cases hunary : c.unary.get corrId with
  | none => exact hP
  | some id' =>
    obtain rfl := h.mine hP hget hunary
    exact h.settle (h.send (h.erase hP hunary) fun _ _ => by simp) hfair

theorem Kept.dispatch (h : Kept terms link P) {payload : CallPayload V} {during : Option Thrown}
    (hP : P none none c) (hok : c.Admits terms link (.dispatch payload aborted during)) :
    P none none (c.dispatch link payload aborted during) := by
  unfold HostConnection.dispatch
  split
  · exact h.refuse hP (.inl ⟨_, rfl⟩)
  rename_i hopen
  rw [Bool.not_eq_true] at hopen
  split
  · exact h.refuse hP (.inl ⟨_, rfl⟩)
  · exact h.refuse hP (.inr ⟨_, rfl⟩)
  rename_i _ hretiring
  obtain ⟨⟨hfresh, hlink⟩, hduring⟩ := And.intro (hok.1 hopen hretiring) hok.2
  have hallocate : P none none c.allocate := h.quiet hP _ _ _ _
  have hP' : P none none (c.allocate.send link (.call c.nextCorr false payload)).1 :=
    h.send hallocate fun _ _ => by simp
  have htaken : (c.allocate.send link (.call c.nextCorr false payload)).2 = true →
      (c.allocate.send link (.call c.nextCorr false payload)).1 =
        { c.allocate with out := c.out ++ [.call c.nextCorr false payload] } :=
    send_taken hopen hlink
  dsimp only
  split
  · rename_i d hd
    rw [hd] at hP'
    exact h.refuse hP' (.inl ⟨_, rfl⟩)
  · rename_i d hd
    rw [hd] at hP' htaken
    obtain rfl := htaken rfl
    have hregistered := h.register hP' hopen hretiring hfresh
    split
    · rename_i reason
      exact h.abort hregistered (List.getElem?_concat_length ..) (hduring reason rfl)
    · exact hregistered

/-- A stream that is refused is not there any more. -/
def unregistered (c : HostConnection V) : HostConnection V :=
  { c.registerStream with streams := c.registerStream.streams.erase c.nextCorr }

theorem unsent_registerStream {failure : Settlement V} :
    c.registerStream.unsent link c.consumers.length c.nextCorr failure =
      (c.unregistered.settleRetirement link).failStream c.consumers.length failure := by
  have hhas : c.registerStream.streams.has c.nextCorr = true := JsMap.has_set_self _ _ _
  unfold unsent forgetStream
  rw [if_pos hhas]
  rfl

theorem unregistered_unwritten : ∀ consumer ∈ (c.unregistered.settleRetirement link).consumers[
    c.consumers.length]?, consumer.written = false := by
  intro consumer hget
  have hwritten : (c.unregistered.settleRetirement link).writtenStreams[c.consumers.length]? =
      c.unregistered.writtenStreams[c.consumers.length]? := by
    rw [writtenStreams_settleRetirement]
  simp only [writtenStreams, List.getElem?_map] at hwritten
  rw [Option.mem_def.1 hget] at hwritten
  have hlast : c.unregistered.consumers[c.consumers.length]? = some { corrId := c.nextCorr } :=
    List.getElem?_concat_length ..
  rw [hlast] at hwritten
  exact Option.some.inj hwritten

theorem Kept.refused (h : Kept terms link P) {failure : Settlement V} (hP : P none none c)
    (hfresh : terms.freshStream c) :
    P none none (c.registerStream.unsent link c.consumers.length c.nextCorr failure) := by
  have hunregistered : P none (some c.consumers.length) c.unregistered :=
    h.quiet (h.refuseStream hP hfresh) _ _ _ _
  rw [unsent_registerStream]
  exact h.failUnsent (h.settleRetirement hunregistered) unregistered_unwritten

theorem refusal_eq_none (h : c.refusal aborted = none) :
    c.closed = false ∧ c.retiring = none ∧ aborted = none := by
  unfold refusal at h
  split at h
  · cases h
  rename_i hclosed
  split at h
  · cases h
  · rename_i hretiring
    exact ⟨by simpa using hclosed, hretiring, Option.map_eq_none_iff.1 h⟩

section

variable (h : Kept terms link P)
include h

section

variable (hP : P none none c)
include hP

theorem Kept.dispatchStream {payload : CallPayload V} (hfresh : terms.freshStream c) :
    P none none (c.dispatchStream link payload aborted) := by
  cases hrefusal : c.refusal aborted with
  | none =>
    obtain ⟨hclosed, hretiring, rfl⟩ := refusal_eq_none hrefusal
    exact h.openStream hP hclosed hretiring hfresh
  | some failure =>
    unfold HostConnection.dispatchStream
    rw [hrefusal]
    exact h.refused hP hfresh

/-- A stream that its consumer is done with leaves the table. -/
theorem Kept.finishStream {consumer : Consumer V} {reason : String}
    {f : Consumer V → Consumer V} (hget : c.consumers[k]? = some consumer)
    (hlive : consumer.live = true) (hmild : Mild terms f) (hfinishing : Finishing f) :
    P none none ((c.cancelStream link consumer.corrId reason).modifyConsumer k f) := by
  unfold cancelStream forgetStream
  split
  · rename_i d hd
    split at hd
    · obtain ⟨rfl, -⟩ := Prod.mk.inj hd
      have herased := h.settleRetirement (h.eraseStream hP hget hlive)
      split
      · exact h.finish herased (.inl rfl) hmild hfinishing
      · exact h.finish (h.send herased fun _ _ => by simp) (.inl rfl) hmild hfinishing
    · cases (Prod.mk.inj hd).2
  · rename_i d hd
    split at hd
    · cases (Prod.mk.inj hd).2
    · rename_i hhas
      obtain ⟨rfl, -⟩ := Prod.mk.inj hd
      refine h.finish hP (.inr ⟨rfl, fun consumer' hget' => ?_⟩) hmild hfinishing
      cases hget.symm.trans hget'
      exact Bool.eq_false_iff.2 hhas

theorem Kept.abortStream {reason : Thrown}
    (hfair : terms.fairStream (.aborted reason)) (hrun : c.abortStream link k reason = some d) :
    P none none d := by
  unfold HostConnection.abortStream at hrun
  split at hrun
  · rename_i consumer hget
    obtain ⟨hlistens, rfl⟩ := guard_taken hrun
    have hlive : consumer.live = true := by
      rw [Consumer.live, hlistens, Bool.or_true]
    refine h.finishStream hP hget hlive
      ⟨fun _ => rfl, fun _ => rfl, fun _ => id, fun _ _ => rfl, fun consumer failure hfailure => ?_,
        fun _ hf => absurd hf (by simp)⟩ fun _ => .inl rfl
    cases hold : consumer.failure with
    | none =>
      rw [hold, Option.none_or] at hfailure
      exact .inr (Option.some.inj hfailure ▸ hfair)
    | some old =>
      rw [hold, Option.some_or] at hfailure
      exact .inl hfailure
  · cases hrun

theorem Kept.finishConsumer {consumer : Consumer V}
    (hget : c.consumers[k]? = some consumer) (hover : consumer.over_ = false) :
    P none none (c.finishConsumer link k consumer.corrId) := by
  have hlive : consumer.live = true := by
    rw [Consumer.live, hover]
    rfl
  exact h.finishStream hP hget hlive
    ⟨fun _ => rfl, fun _ => rfl, fun _ _ => rfl, fun _ => id, fun _ _ => .inl,
      fun _ hf => absurd hf (by simp)⟩ fun _ => .inr rfl

theorem Kept.pull (hrun : c.pull link k = some d) : P none none d := by
  unfold HostConnection.pull at hrun
  split at hrun
  · rename_i consumer hget
    obtain ⟨hover, hrun⟩ := guard_past hrun
    rw [Bool.not_eq_true] at hover
    have hstarted : P none none
        (c.modifyConsumer k fun consumer => { consumer with started := true }) :=
      h.mild hP ⟨fun _ => rfl, fun _ => rfl, fun _ => id, fun _ => id, fun _ _ => .inl, fun _ => id⟩
        fun _ => rfl
    split at hrun
    · cases hrun
      exact h.mild hstarted ⟨fun _ => rfl, fun _ => rfl, fun _ => id, fun _ => id, fun _ _ => .inl, fun _ => id⟩
        fun _ => rfl
    · obtain ⟨-, rfl⟩ := guard_taken hrun
      have hget' : (c.modifyConsumer k fun consumer =>
          { consumer with started := true }).consumers[k]? =
            some { consumer with started := true } := by
        show (c.consumers.modify k _)[k]? = _
        rw [List.getElem?_modify, hget]
        simp
      have hfinish := h.finishConsumer hstarted hget' hover
      exact hfinish
  · cases hrun

theorem Kept.returnEarly (hrun : c.returnEarly link k = some d) : P none none d := by
  unfold HostConnection.returnEarly at hrun
  split at hrun
  · rename_i consumer hget
    obtain ⟨hover, hrun⟩ := guard_past hrun
    rw [Bool.not_eq_true] at hover
    split at hrun
    · cases hrun
      exact h.finishConsumer hP hget hover
    · cases hrun
      exact h.mild hP ⟨fun _ => rfl, fun _ => rfl, fun _ _ => rfl, fun _ => id, fun _ _ => .inl, fun _ => id⟩
        fun _ => rfl
  · cases hrun

end

section

variable (hP : P call stream c)
include hP

theorem Kept.modifyServing {f : Serving V → Serving V} : P call stream (c.modifyServing k f) :=
  h.quiet hP c.nextCorr c.peerHostId c.inbound _

theorem Kept.fail {status : Nat} {message : String} {data : Option WireErrorData} :
    P call stream (c.fail link corrId status message data) :=
  h.send hP fun _ _ => by simp

theorem Kept.finishServed : P call stream (c.finishStream k corrId) :=
  h.modifyServing (h.quiet hP c.nextCorr c.peerHostId _ c.servings)

theorem Kept.refuseCall {status : Nat} {message : String} {data : Option WireErrorData}
    (hrun : c.refuseCall link k status message data = some d) : P call stream d := by
  unfold HostConnection.refuseCall at hrun
  split at hrun
  · split at hrun
    · cases hrun
      exact h.modifyServing (h.fail hP)
    · cases hrun
  · cases hrun

theorem Kept.serve (hrun : c.serve k = some d) : P call stream d := by
  unfold HostConnection.serve at hrun
  split at hrun
  · obtain ⟨-, hrun⟩ := guard_passed hrun
    split at hrun
    · cases hrun
      exact h.modifyServing hP
    · split at hrun
      · cases hrun
        exact h.modifyServing (h.quiet hP c.nextCorr c.peerHostId _ c.servings)
      · cases hrun
        exact h.modifyServing hP
  · cases hrun

theorem Kept.returned {value : V} (hrun : c.returned link k value = some d) : P call stream d := by
  unfold HostConnection.returned at hrun
  split at hrun
  · split at hrun
    · cases hrun
      exact h.modifyServing (h.send hP fun _ _ => by simp)
    · cases hrun
  · cases hrun

theorem Kept.yielded {value : V} (hrun : c.yielded link k value = some d) : P call stream d := by
  unfold HostConnection.yielded at hrun
  split at hrun
  · split at hrun
    · cases hrun
      exact h.send hP fun _ _ => by simp
    · cases hrun
  · cases hrun

theorem Kept.ended (hrun : c.ended link k = some d) : P call stream d := by
  unfold HostConnection.ended at hrun
  split at hrun
  · split at hrun
    · cases hrun
      refine h.finishServed ?_
      split
      · exact hP
      · exact h.send hP fun _ _ => by simp
    · cases hrun
  · cases hrun

theorem Kept.threw {error : Thrown} (hrun : c.threw link k error = some d) : P call stream d := by
  unfold HostConnection.threw at hrun
  split at hrun
  · split at hrun
    · cases hrun
      exact h.modifyServing (h.fail hP)
    · cases hrun
      refine h.finishServed ?_
      split
      · exact hP
      · exact h.fail hP
    · cases hrun
  · cases hrun

theorem Kept.unmade {error : Thrown} (hrun : c.unmade link k error = some d) : P call stream d := by
  unfold HostConnection.unmade at hrun
  split at hrun
  · split at hrun
    · cases hrun
      exact h.modifyServing (h.fail (h.quiet hP c.nextCorr c.peerHostId _ c.servings))
    · cases hrun
  · cases hrun

end

theorem Kept.retired {reason : String} (hP : P none none c)
    (hreason : terms.reason reason) : P none none (c.retire link reason) := by
  unfold HostConnection.retire
  split
  · exact hP
  rename_i hnot
  rw [not_or, Bool.not_eq_true, Bool.not_eq_true, Option.isSome_eq_false_iff,
    Option.isNone_iff_eq_none] at hnot
  exact h.settleRetirement (h.retire hP hnot.1 hnot.2 hreason)

/-- Every operation keeps what every move keeps. -/
theorem Kept.run {op : Op V} (hP : P none none c)
    (hok : c.Admits terms link op) (hrun : c.run link op = some d) : P none none d := by
  cases op with
  | hello hostId =>
    cases hrun
    exact h.send hP fun _ _ => by simp
  | dispatch payload aborted during =>
    cases hrun
    exact h.dispatch hP hok
  | abort id reason =>
    dsimp only [HostConnection.run, abortUnary] at hrun
    split at hrun
    · rename_i corrId hget
      cases hrun
      exact h.abort hP hget hok
    · cases hrun
  | dispatchStream payload aborted =>
    cases hrun
    exact h.dispatchStream hP hok
  | abortStream k reason => exact h.abortStream hP hok hrun
  | pull k => exact h.pull hP hrun
  | return_ k => exact h.returnEarly hP hrun
  | refuseCall k status message data => exact h.refuseCall hP hrun
  | serve k => exact h.serve hP hrun
  | returned k value => exact h.returned hP hrun
  | yielded k value => exact h.yielded hP hrun
  | ended k => exact h.ended hP hrun
  | threw k error => exact h.threw hP hrun
  | unmade k error => exact h.unmade hP hrun
  | retire reason =>
    cases hrun
    exact h.retired hP hok

/-- So does every frame but a GOAWAY. -/
theorem Kept.onFrame {frame : Frame V} (hP : P none none c)
    (hok : c.AdmitsFrame terms frame) : P none none (c.onFrame link frame) := by
  cases frame with dsimp only [HostConnection.onFrame]
  | hello hostId =>
    cases hostId with
    | none => exact hP
    | some hostId => exact h.quiet hP c.nextCorr hostId c.inbound c.servings
  | ping corrId => exact h.send hP fun _ _ => by simp
  | pong corrId => exact hP
  | goaway status message => exact hok.elim
  | call corrId stream payload => exact h.quiet hP c.nextCorr c.peerHostId c.inbound _
  | reply corrId value =>
    unfold forgetUnary
    cases hunary : c.unary.get corrId with
    | none => exact hP
    | some id => exact h.settle (h.erase hP hunary) hok
  | error corrId status wire =>
    unfold forgetUnary
    dsimp only [AdmitsFrame] at hok
    cases hunary : c.unary.get corrId with
    | none =>
      rw [hunary] at hok
      dsimp only
      split
      · exact h.mild hP ⟨fun _ => rfl, fun _ => rfl, fun _ => id, fun _ _ => rfl,
          fun _ _ hf => .inr (Option.some.inj hf ▸ hok), fun _ => id⟩ fun _ => rfl
      · exact hP
    | some id =>
      rw [hunary] at hok
      exact h.settle (h.erase hP hunary) hok
  | chunk corrId value =>
    split
    · exact h.mild hP ⟨fun _ => rfl, fun _ => rfl, fun _ => id, fun _ => id, fun _ _ => .inl,
        fun _ => id⟩ fun _ => rfl
    · exact hP
  | end_ corrId =>
    split
    · exact h.mild hP ⟨fun _ => rfl, fun _ => rfl, fun _ => id, fun _ _ => rfl, fun _ _ => .inl,
        fun _ => id⟩ fun _ => rfl
    · exact hP
  | cancel corrId reason =>
    unfold cancelInbound
    split
    · exact h.quiet hP c.nextCorr c.peerHostId _ _
    · exact hP

end

end

end HostConnection

end SigxActors.Cluster
