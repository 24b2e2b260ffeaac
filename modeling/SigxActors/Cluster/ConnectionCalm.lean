/-
  Cluster/ConnectionCalm.lean --- what calls do to the life of a connection.

  Calls and their frames neither retire a connection nor name its peer.  A connection
  that is out of service stays so, and one that is in service is only taken out of it
  by a retirement, its own or the peer's.
-/
import SigxActors.Cluster.Retirement
import SigxActors.Cluster.ConnectionFrame

set_option autoImplicit false

namespace SigxActors.Cluster

open SigxActors.Js

/-- A frame of a call, or a ping. -/
def Frame.plain {V : Type} : Frame V → Bool
  | .hello _ => false
  | .goaway _ _ => false
  | _ => true

/-- What it is that the end says. -/
def Frame.isGoaway {V : Type} : Frame V → Bool
  | .goaway _ _ => true
  | _ => false

namespace HostConnection

variable {V : Type}

/-- In service. -/
structure Calm (c : HostConnection V) : Prop where
  open_ : c.closed = false
  serving : c.retiring = none

/-- Out of service. -/
def Down (c : HostConnection V) : Prop := c.closed = true ∨ c.retiring ≠ none

theorem not_calm_iff {c : HostConnection V} : ¬ c.Calm ↔ c.Down := by
  refine ⟨fun h => ?_, fun h hcalm => ?_⟩
  · by_cases hclosed : c.closed = true
    · exact .inl hclosed
    · exact .inr fun hretiring => h ⟨Bool.eq_false_iff.2 hclosed, hretiring⟩
  · obtain h | h := h
    · rw [hcalm.open_] at h
      cases h
    · exact h hcalm.serving

/-- Calls went on. -/
structure Steady (c d : HostConnection V) : Prop where
  closed : c.closed = true → d.closed = true
  retiring : d.retiring = c.retiring
  calm : c.Calm → d.closed = false
  out : ∃ said, d.out = c.out ++ said ∧
    ∀ frame ∈ said, frame.plain = true ∨ frame.isGoaway = true ∧ c.Down

variable {c d e : HostConnection V}

theorem Steady.of_same (hclosed : d.closed = c.closed) (hretiring : d.retiring = c.retiring)
    (hout : d.out = c.out) : c.Steady d where
  closed h := hclosed.trans h
  retiring := hretiring
  calm h := hclosed.trans h.open_
  out := ⟨[], by rw [hout, List.append_nil], by simp⟩

theorem Steady.refl (c : HostConnection V) : c.Steady c := .of_same rfl rfl rfl

theorem Steady.stays (h : c.Steady d) (hcalm : c.Calm) : d.Calm :=
  ⟨h.calm hcalm, h.retiring.trans hcalm.serving⟩

theorem Steady.down (h : c.Steady d) (hdown : c.Down) : d.Down :=
  hdown.imp h.closed fun hretiring => h.retiring ▸ hretiring

theorem Steady.trans (h : c.Steady d) (h' : d.Steady e) : c.Steady e where
  closed hclosed := h'.closed (h.closed hclosed)
  retiring := h'.retiring.trans h.retiring
  calm hcalm := h'.calm (h.stays hcalm)
  out := by
    obtain ⟨said, hout, hsaid⟩ := h.out
    obtain ⟨said', hout', hsaid'⟩ := h'.out
    refine ⟨said ++ said', by rw [hout', hout, List.append_assoc], fun frame hframe => ?_⟩
    obtain hmem | hmem := List.mem_append.1 hframe
    · exact hsaid frame hmem
    · refine (hsaid' frame hmem).imp_right fun hgoaway => ⟨hgoaway.1, ?_⟩
      exact not_calm_iff.1 fun hcalm => not_calm_iff.2 hgoaway.2 (h.stays hcalm)

theorem foldl_life {α : Type} {f : HostConnection V → α → HostConnection V}
    (hf : ∀ c x, (f c x).retiring = c.retiring ∧ (f c x).out = c.out) :
    ∀ (xs : List α) (c : HostConnection V),
      (xs.foldl f c).retiring = c.retiring ∧ (xs.foldl f c).out = c.out := by
  intro xs
  induction xs with
  | nil => exact fun _ => ⟨rfl, rfl⟩
  | cons x xs ih =>
    exact fun c => ⟨(ih (f c x)).1.trans (hf c x).1, (ih (f c x)).2.trans (hf c x).2⟩

/-- Closing says nothing and retires nothing. -/
theorem close_life (reason : String) :
    (c.close reason).retiring = c.retiring ∧ (c.close reason).out = c.out := by
  unfold HostConnection.close
  split
  · exact ⟨rfl, rfl⟩
  obtain ⟨inbound, servings, hcancel⟩ := cancelAll_same _ _
  rw [hcancel]
  have hfail := foldl_life (V := V)
    (f := fun c k => c.failStream k (.unreachable reason)) fun _ _ => ⟨rfl, rfl⟩
  have hsettle := foldl_life (V := V)
    (f := fun c id => c.settle id (.lost reason)) fun _ _ => ⟨rfl, rfl⟩
  exact ⟨(hfail _ _).1.trans (hsettle _ { c with closed := true }).1,
    (hfail _ _).2.trans (hsettle _ { c with closed := true }).2⟩

/-- Closing what is out of service. -/
theorem Steady.close (hdown : c.Down) (reason : String) : c.Steady (c.close reason) where
  closed _ := closed_close reason
  retiring := (close_life reason).1
  calm hcalm := absurd hdown fun h => not_calm_iff.2 h hcalm
  out := ⟨[], by rw [(close_life reason).2, List.append_nil], by simp⟩

theorem steady_send {frame : Frame V} (h : frame.plain = true ∨ frame.isGoaway = true ∧ c.Down) :
    c.Steady (c.send takes frame).1 := by
  rw [send_takes]
  split
  · exact .refl c
  exact
    { closed := id
      retiring := rfl
      calm := fun hcalm => hcalm.open_
      out := ⟨[frame], rfl, by simpa using h⟩ }

theorem steady_settleRetirement : c.Steady (c.settleRetirement takes) := by
  unfold settleRetirement
  split
  · rename_i reason hclosed hretiring
    have hdown : c.Down := .inr (by rw [hretiring]; exact nofun)
    have hsaid : c.Steady (c.sayDone takes) := by
      unfold sayDone
      split
      · have hset : c.Steady { c with sentDone := true } := .of_same rfl rfl rfl
        exact hset.trans (steady_send (.inr ⟨rfl, hdown⟩))
      · exact .refl c
    dsimp only
    split
    · exact hsaid.trans (.close (hsaid.down hdown) _)
    · exact hsaid
  · exact .refl c

theorem steady_forgetUnary (corrId : Nat) : c.Steady (c.forgetUnary takes corrId).1 := by
  unfold forgetUnary
  split
  · have herased : c.Steady { c with unary := c.unary.erase corrId } := .of_same rfl rfl rfl
    exact herased.trans steady_settleRetirement
  · exact .refl c

theorem steady_forgetStream (corrId : Nat) : c.Steady (c.forgetStream takes corrId).1 := by
  unfold forgetStream
  split
  · have herased : c.Steady { c with streams := c.streams.erase corrId } := .of_same rfl rfl rfl
    exact herased.trans steady_settleRetirement
  · exact .refl c

theorem steady_settle (id : Nat) (settlement : Settlement V) : c.Steady (c.settle id settlement) :=
  .of_same rfl rfl rfl

theorem steady_modifyConsumer (k : Nat) (f : Consumer V → Consumer V) :
    c.Steady (c.modifyConsumer k f) := .of_same rfl rfl rfl

theorem steady_modifyServing (k : Nat) (f : Serving V → Serving V) :
    c.Steady (c.modifyServing k f) := .of_same rfl rfl rfl

theorem steady_cancelInbound (corrId : Nat) : c.Steady (c.cancelInbound corrId) := by
  unfold HostConnection.cancelInbound
  split
  · exact .of_same rfl rfl rfl
  · exact .refl c

theorem steady_fail (corrId status : Nat) (message : String) (data : Option WireErrorData) :
    c.Steady (c.fail takes corrId status message data) := steady_send (.inl rfl)

theorem steady_abort (id corrId : Nat) (reason : Thrown) :
    c.Steady (c.abort takes id corrId reason) := by
  have hforgot := steady_forgetUnary (c := c) corrId
  unfold HostConnection.abort
  split
  · rename_i heq
    rw [heq] at hforgot
    exact hforgot.trans ((steady_send (.inl rfl)).trans (steady_settle ..))
  · rename_i heq
    rwa [heq] at hforgot

/-! ## Operations -/

theorem steady_dispatch (payload : CallPayload V) (aborted during : Option Thrown) :
    c.Steady (c.dispatch takes payload aborted during) := by
  have hsent : c.Steady (c.allocate.send takes (.call c.nextCorr false payload)).1 :=
    (Steady.of_same rfl rfl rfl : c.Steady c.allocate).trans (steady_send (.inl rfl))
  unfold HostConnection.dispatch
  split
  · exact .of_same rfl rfl rfl
  split
  · exact .of_same rfl rfl rfl
  · exact .of_same rfl rfl rfl
  dsimp only
  split
  · rename_i d hd
    rw [hd] at hsent
    exact hsent.trans (.of_same rfl rfl rfl)
  · rename_i d hd
    rw [hd] at hsent
    have hregistered : d.Steady
        { d with
          calls := d.calls ++ [⟨some c.nextCorr, true, []⟩]
          unary := d.unary.set c.nextCorr c.calls.length } := .of_same rfl rfl rfl
    split
    · exact hsent.trans (hregistered.trans (steady_abort ..))
    · exact hsent.trans hregistered

theorem steady_registerStream : c.Steady c.registerStream := .of_same rfl rfl rfl

theorem steady_unsent (k corrId : Nat) (failure : Settlement V) :
    c.Steady (c.unsent takes k corrId failure) :=
  (steady_forgetStream corrId).trans (steady_modifyConsumer ..)

theorem steady_dispatchStream (payload : CallPayload V) (aborted : Option Thrown) :
    c.Steady (c.dispatchStream takes payload aborted) := by
  have hsent : c.Steady (c.registerStream.send takes (.call c.nextCorr true payload)).1 :=
    steady_registerStream.trans (steady_send (.inl rfl))
  unfold HostConnection.dispatchStream
  dsimp only
  split
  · exact steady_registerStream.trans (steady_unsent ..)
  split
  · rename_i d hd
    rw [hd] at hsent
    exact hsent.trans (steady_modifyConsumer ..)
  · rename_i d hd
    rw [hd] at hsent
    exact hsent.trans (steady_unsent ..)

theorem steady_cancelStream (corrId : Nat) (reason : String) :
    c.Steady (c.cancelStream takes corrId reason) := by
  have hforgot := steady_forgetStream (c := c) corrId
  unfold cancelStream
  split
  · rename_i heq
    rw [heq] at hforgot
    split
    · exact hforgot
    · exact hforgot.trans (steady_send (.inl rfl))
  · rename_i heq
    rwa [heq] at hforgot

theorem steady_finishConsumer (k corrId : Nat) : c.Steady (c.finishConsumer takes k corrId) :=
  (steady_cancelStream ..).trans (steady_modifyConsumer ..)

variable {k : Nat}

theorem steady_abortStream {reason : Thrown} (h : c.abortStream takes k reason = some d) :
    c.Steady d := by
  unfold abortStream at h
  split at h
  · split at h
    · cases h
      exact (steady_cancelStream ..).trans (steady_modifyConsumer ..)
    · cases h
  · cases h

theorem steady_pull (h : c.pull takes k = some d) : c.Steady d := by
  unfold pull at h
  split at h
  · obtain ⟨-, h⟩ := guard_past h
    split at h
    · cases h
      exact (steady_modifyConsumer ..).trans (steady_modifyConsumer ..)
    · obtain ⟨-, rfl⟩ := guard_taken h
      exact (steady_modifyConsumer ..).trans (steady_finishConsumer ..)
  · cases h

theorem steady_returnEarly (h : c.returnEarly takes k = some d) : c.Steady d := by
  unfold returnEarly at h
  split at h
  · obtain ⟨-, h⟩ := guard_past h
    split at h
    · cases h
      exact steady_finishConsumer ..
    · cases h
      exact steady_modifyConsumer ..
  · cases h

theorem steady_finishStream (k corrId : Nat) : c.Steady (c.finishStream k corrId) :=
  .of_same rfl rfl rfl

theorem steady_refuseCall {status : Nat} {message : String} {data : Option WireErrorData}
    (h : c.refuseCall takes k status message data = some d) : c.Steady d := by
  unfold refuseCall at h
  split at h
  · split at h
    · cases h
      exact (steady_fail ..).trans (steady_modifyServing ..)
    · cases h
  · cases h

theorem steady_serve (h : c.serve k = some d) : c.Steady d := by
  unfold serve at h
  split at h
  · obtain ⟨-, h⟩ := guard_passed h
    split at h
    · cases h
      exact steady_modifyServing ..
    · split at h
      · cases h
        exact .of_same rfl rfl rfl
      · cases h
        exact steady_modifyServing ..
  · cases h

theorem steady_returned {value : V} (h : c.returned takes k value = some d) : c.Steady d := by
  unfold returned at h
  split at h
  · split at h
    · cases h
      exact (steady_send (.inl rfl)).trans (steady_modifyServing ..)
    · cases h
  · cases h

theorem steady_yielded {value : V} (h : c.yielded takes k value = some d) : c.Steady d := by
  unfold yielded at h
  split at h
  · split at h
    · cases h
      exact steady_send (.inl rfl)
    · cases h
  · cases h

theorem steady_ended (h : c.ended takes k = some d) : c.Steady d := by
  unfold ended at h
  split at h
  · split at h
    · cases h
      split
      · exact steady_finishStream ..
      · exact (steady_send (.inl rfl)).trans (steady_finishStream ..)
    · cases h
  · cases h

theorem steady_threw {error : Thrown} (h : c.threw takes k error = some d) : c.Steady d := by
  unfold threw at h
  split at h
  · split at h
    · cases h
      exact (steady_fail ..).trans (steady_modifyServing ..)
    · cases h
      split
      · exact steady_finishStream ..
      · exact (steady_fail ..).trans (steady_finishStream ..)
    · cases h
  · cases h

theorem steady_unmade {error : Thrown} (h : c.unmade takes k error = some d) : c.Steady d := by
  unfold unmade at h
  split at h
  · rename_i serving _
    obtain ⟨-, rfl⟩ := guard_taken h
    have hset : c.Steady { c with inbound := c.inbound.set serving.corrId k } :=
      .of_same rfl rfl rfl
    exact hset.trans ((steady_fail ..).trans (steady_modifyServing ..))
  · cases h

/-- It is of a call. -/
def Op.isCall : Op V → Bool
  | .hello _ => false
  | .retire _ => false
  | _ => true

theorem steady_run {op : Op V} (hop : op.isCall = true) (h : c.run takes op = some d) :
    c.Steady d := by
  cases op with
  | hello | retire => cases hop
  | dispatch payload aborted during =>
    cases h
    exact steady_dispatch ..
  | abort id reason =>
    dsimp only [run, abortUnary] at h
    split at h
    · cases h
      exact steady_abort ..
    · cases h
  | dispatchStream payload aborted =>
    cases h
    exact steady_dispatchStream ..
  | abortStream k reason => exact steady_abortStream h
  | pull k => exact steady_pull h
  | return_ k => exact steady_returnEarly h
  | refuseCall k status message data => exact steady_refuseCall h
  | serve k => exact steady_serve h
  | returned k value => exact steady_returned h
  | yielded k value => exact steady_yielded h
  | ended k => exact steady_ended h
  | threw k error => exact steady_threw h
  | unmade k error => exact steady_unmade h

/-- A frame that is no GOAWAY. -/
theorem steady_onFrame {frame : Frame V} (hframe : frame.isGoaway = false) :
    c.Steady (c.onFrame takes frame) := by
  cases frame with
  | hello hostId =>
    cases hostId with
    | none => exact .refl c
    | some hostId => exact .of_same rfl rfl rfl
  | ping corrId => exact steady_send (.inl rfl)
  | pong corrId => exact .refl c
  | goaway status message => cases hframe
  | call corrId stream payload => exact .of_same rfl rfl rfl
  | reply corrId value =>
    have hforgot := steady_forgetUnary (c := c) corrId
    dsimp only [onFrame]
    split
    · rename_i heq
      rw [heq] at hforgot
      exact hforgot.trans (steady_settle ..)
    · rename_i heq
      rwa [heq] at hforgot
  | error corrId status wire =>
    have hforgot := steady_forgetUnary (c := c) corrId
    dsimp only [onFrame]
    split
    · rename_i heq
      rw [heq] at hforgot
      exact hforgot.trans (steady_settle ..)
    · rename_i heq
      rw [heq] at hforgot
      split
      · exact hforgot.trans (steady_modifyConsumer ..)
      · exact hforgot
  | chunk | end_ =>
    dsimp only [onFrame]
    split
    · exact steady_modifyConsumer ..
    · exact .refl c
  | cancel corrId reason => exact steady_cancelInbound corrId

/-! ## Retirements -/

/-- Nothing was named, and what was out of service stays so. -/
structure Wanes (c d : HostConnection V) : Prop where
  down : c.Down → d.Down
  out : ∃ said, d.out = c.out ++ said ∧ ∀ frame ∈ said, frame.plain = true ∨ frame.isGoaway = true

theorem Steady.wanes (h : c.Steady d) : c.Wanes d where
  down := h.down
  out := by
    obtain ⟨said, hout, hsaid⟩ := h.out
    exact ⟨said, hout, fun frame hframe => (hsaid frame hframe).imp_right And.left⟩

theorem Wanes.trans (h : c.Wanes d) (h' : d.Wanes e) : c.Wanes e where
  down hdown := h'.down (h.down hdown)
  out := by
    obtain ⟨said, hout, hsaid⟩ := h.out
    obtain ⟨said', hout', hsaid'⟩ := h'.out
    refine ⟨said ++ said', by rw [hout', hout, List.append_assoc], fun frame hframe => ?_⟩
    exact (List.mem_append.1 hframe).elim (hsaid frame) (hsaid' frame)

theorem wanes_close (reason : String) : c.Wanes (c.close reason) where
  down _ := .inl (closed_close reason)
  out := ⟨[], by rw [(close_life reason).2, List.append_nil], by simp⟩

theorem wanes_retire (reason : String) : c.Wanes (c.retire takes reason) := by
  unfold HostConnection.retire
  split
  · exact (Steady.refl c).wanes
  have hset : c.Wanes { c with retiring := some reason } :=
    ⟨fun _ => .inr nofun, [], (List.append_nil _).symm, by simp⟩
  exact hset.trans steady_settleRetirement.wanes

/-- A connection that is retired is out of service. -/
theorem down_retire (reason : String) : (c.retire takes reason).Down := by
  unfold HostConnection.retire
  split
  · rename_i h
    refine h.imp_right fun hsome => ?_
    rw [Option.isSome_iff_ne_none] at hsome
    exact hsome
  · exact steady_settleRetirement.down (.inr nofun)

/-- A GOAWAY puts a connection out of service. -/
theorem wanes_goaway (status : Nat) (message : Option String) :
    c.Wanes (c.onFrame takes (.goaway status message)) ∧
      (c.onFrame takes (.goaway status message)).Down := by
  dsimp only [onFrame]
  split
  · have hset : c.Steady { c with peerDone := true } := .of_same rfl rfl rfl
    exact ⟨hset.wanes.trans ((wanes_retire _).trans steady_settleRetirement.wanes),
      steady_settleRetirement.down (down_retire _)⟩
  · exact ⟨wanes_close _, .inl (closed_close _)⟩

theorem wanes_onFrame (frame : Frame V) : c.Wanes (c.onFrame takes frame) := by
  cases frame with
  | goaway status message => exact (wanes_goaway status message).1
  | _ => exact (steady_onFrame rfl).wanes

end HostConnection

end SigxActors.Cluster
