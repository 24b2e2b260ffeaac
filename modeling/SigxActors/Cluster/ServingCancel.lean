/-
  Cluster/ServingCancel.lean --- what a CANCEL stops.

  Source: `#onCall`, `#cancelInbound` and `#serveStream` of
  `packages/actors/src/cluster/connection.ts`.

  A stream is in the table from where it is served on.  A CANCEL that arrives before,
  while its CALL is authorised and resolved, finds nothing and is forgotten: the
  stream is served after all.
-/
import SigxActors.Cluster.ConsumerCancel

set_option autoImplicit false

namespace SigxActors.Cluster

open SigxActors.Js

/-- What cancelling leaves of an inbound call. -/
def Serving.key {V : Type} (serving : Serving V) : Nat × Bool × Phase :=
  (serving.corrId, serving.stream, serving.phase)

namespace HostConnection

variable {V : Type} {link : Link V} {c d e : HostConnection V}

/-! ## What leaves the inbound calls alone -/

/-- The inbound calls of `c` are those of `d`, where some may have been cancelled. -/
structure Lets (c d : HostConnection V) : Prop where
  servings : d.servings.map Serving.key = c.servings.map Serving.key
  aborted : ∀ (k : Nat) (x : Serving V), d.servings[k]? = some x → x.aborted = false →
    ∃ old, c.servings[k]? = some old ∧ old.aborted = false
  inbound : ∀ corrId k, d.inbound.get corrId = some k → c.inbound.get corrId = some k
  kept : ∀ corrId k, c.inbound.get corrId = some k → d.inbound.get corrId = some k ∨
    ∀ x, d.servings[k]? = some x → x.aborted = true

theorem Lets.of_same (hservings : d.servings = c.servings) (hinbound : d.inbound = c.inbound) :
    c.Lets d where
  servings := by rw [hservings]
  aborted k x hx haborted := ⟨x, hservings ▸ hx, haborted⟩
  inbound corrId k hget := hinbound ▸ hget
  kept corrId k hget := .inl (hinbound ▸ hget)

theorem Lets.refl (c : HostConnection V) : c.Lets c := .of_same rfl rfl

theorem Lets.trans (h : c.Lets d) (h' : d.Lets e) : c.Lets e where
  servings := h'.servings.trans h.servings
  aborted k x hx haborted := by
    obtain ⟨y, hy, hyaborted⟩ := h'.aborted k x hx haborted
    exact h.aborted k y hy hyaborted
  inbound corrId k hget := h.inbound corrId k (h'.inbound corrId k hget)
  kept corrId k hget := by
    rcases h.kept corrId k hget with hmid | hall
    · exact h'.kept corrId k hmid
    right
    intro x hx
    cases haborted : x.aborted with
    | true => rfl
    | false =>
      obtain ⟨y, hy, hyaborted⟩ := h'.aborted k x hx haborted
      rw [hall y hy] at hyaborted
      cases hyaborted

theorem Lets.length (h : c.Lets d) : d.servings.length = c.servings.length := by
  rw [← List.length_map (f := Serving.key), h.servings, List.length_map]

variable {x : Serving V} {k : Nat}

/-- What an inbound call was. -/
theorem Lets.was (h : c.Lets d) (hx : d.servings[k]? = some x) :
    ∃ old, c.servings[k]? = some old ∧ x.corrId = old.corrId ∧ x.stream = old.stream ∧
      x.phase = old.phase ∧ (x.aborted = false → old.aborted = false) := by
  have hkey : (d.servings[k]?).map Serving.key = (c.servings[k]?).map Serving.key := by
    rw [← List.getElem?_map, ← List.getElem?_map, h.servings]
  rw [hx, Option.map_some] at hkey
  obtain ⟨old, hold, heq⟩ := Option.map_eq_some_iff.1 hkey.symm
  simp only [Serving.key, Prod.mk.injEq] at heq
  refine ⟨old, hold, heq.1.symm, heq.2.1.symm, heq.2.2.symm, fun haborted => ?_⟩
  obtain ⟨old', hold', haborted'⟩ := h.aborted k x hx haborted
  rw [hold] at hold'
  exact Option.some.inj hold' ▸ haborted'

theorem Lets.is (h : c.Lets d) (hx : c.servings[k]? = some x) :
    ∃ new, d.servings[k]? = some new ∧ new.corrId = x.corrId ∧ new.phase = x.phase := by
  have hkey : (d.servings[k]?).map Serving.key = (c.servings[k]?).map Serving.key := by
    rw [← List.getElem?_map, ← List.getElem?_map, h.servings]
  rw [hx, Option.map_some] at hkey
  obtain ⟨new, hnew, heq⟩ := Option.map_eq_some_iff.1 hkey
  simp only [Serving.key, Prod.mk.injEq] at heq
  exact ⟨new, hnew, heq.1, heq.2.2⟩

theorem lets_cancelInbound (corrId : Nat) : c.Lets (c.cancelInbound corrId) := by
  unfold cancelInbound
  split
  · rename_i k hget
    refine ⟨modify_map_key _ c.servings k fun _ => rfl, fun j x hx haborted => ?_,
      fun y j hy => ?_, fun y j hy => ?_⟩
    · simp only [List.getElem?_modify] at hx
      obtain ⟨old, hold, rfl⟩ := Option.map_eq_some_iff.1 hx
      refine ⟨old, hold, ?_⟩
      split at haborted
      · cases haborted
      · exact haborted
    · rw [JsMap.get_erase] at hy
      obtain ⟨-, hy⟩ := guard_past hy
      exact hy
    · rw [JsMap.get_erase]
      split
      · rename_i heq
        right
        rw [heq, hget] at hy
        cases hy
        intro x hx
        simp only [List.getElem?_modify, if_pos] at hx
        obtain ⟨old, -, rfl⟩ := Option.map_eq_some_iff.1 hx
        rfl
      · exact .inl hy
  · exact .refl c

theorem framing_lets : Framing (V := V) Lets where
  refl := Lets.refl
  trans := Lets.trans
  settle _ _ := .of_same rfl rfl
  failStream _ _ := .of_same rfl rfl
  cancelInbound := lets_cancelInbound
  shut := .of_same rfl rfl
  clear _ := .of_same rfl rfl
  table _ := .of_same rfl rfl
  say _ := .of_same rfl rfl
  retirement _ _ _ := .of_same rfl rfl

theorem lets_forgetStream (corrId : Nat) : c.Lets (c.forgetStream link corrId).1 := by
  unfold forgetStream
  split
  · have herased : c.Lets { c with streams := c.streams.erase corrId } := .of_same rfl rfl
    exact herased.trans framing_lets.settleRetirement
  · exact .refl c

theorem lets_cancelStream (corrId : Nat) (reason : String) :
    c.Lets (c.cancelStream link corrId reason) := by
  have hforgot : c.Lets (c.forgetStream link corrId).1 := lets_forgetStream corrId
  unfold cancelStream
  split
  · rename_i heq
    rw [heq] at hforgot
    split
    · exact hforgot
    · exact hforgot.trans (framing_lets.send _)
  · rename_i heq
    rwa [heq] at hforgot

theorem lets_finishConsumer (k corrId : Nat) : c.Lets (c.finishConsumer link k corrId) :=
  (lets_cancelStream corrId _).trans (.of_same rfl rfl)

theorem lets_abortStream {reason : Thrown} (h : c.abortStream link k reason = some d) :
    c.Lets d := by
  unfold HostConnection.abortStream at h
  split at h
  · split at h
    · cases h
      exact (lets_cancelStream _ _).trans (.of_same rfl rfl)
    · cases h
  · cases h

theorem lets_pull (h : c.pull link k = some d) : c.Lets d := by
  unfold HostConnection.pull at h
  split at h
  · obtain ⟨-, h⟩ := guard_past h
    have hstarted : c.Lets (c.modifyConsumer k fun consumer => { consumer with started := true }) :=
      .of_same rfl rfl
    split at h
    · cases h
      exact hstarted.trans (.of_same rfl rfl)
    · obtain ⟨-, rfl⟩ := guard_taken h
      exact hstarted.trans (lets_finishConsumer k _)
  · cases h

theorem lets_returnEarly (h : c.returnEarly link k = some d) : c.Lets d := by
  unfold HostConnection.returnEarly at h
  split at h
  · obtain ⟨-, h⟩ := guard_past h
    split at h
    · cases h
      exact lets_finishConsumer k _
    · cases h
      exact .of_same rfl rfl
  · cases h

theorem lets_dispatch (payload : CallPayload V) (aborted during : Option Thrown) :
    c.Lets (c.dispatch link payload aborted during) := by
  unfold HostConnection.dispatch
  split
  · exact .of_same rfl rfl
  split
  · exact .of_same rfl rfl
  · exact .of_same rfl rfl
  have hallocate : c.Lets c.allocate := .of_same rfl rfl
  have hsent : c.Lets (c.allocate.send link (.call c.nextCorr false payload)).1 :=
    hallocate.trans (framing_lets.send _)
  dsimp only
  split
  · rename_i heq
    rw [heq] at hsent
    exact hsent.trans (.of_same rfl rfl)
  · rename_i mid heq
    rw [heq] at hsent
    have hwritten : c.Lets
        { mid with
          calls := mid.calls ++ [⟨some c.nextCorr, true, []⟩]
          unary := mid.unary.set c.nextCorr c.calls.length } :=
      hsent.trans (.of_same rfl rfl)
    split
    · exact hwritten.trans (framing_lets.abort ..)
    · exact hwritten

theorem lets_unsent (k corrId : Nat) (failure : Settlement V) :
    c.Lets (c.unsent link k corrId failure) :=
  (lets_forgetStream corrId).trans (framing_lets.failStream ..)

theorem lets_dispatchStream (payload : CallPayload V) (aborted : Option Thrown) :
    c.Lets (c.dispatchStream link payload aborted) := by
  have hregistered : c.Lets c.registerStream := .of_same rfl rfl
  have hsent : c.Lets (c.registerStream.send link (.call c.nextCorr true payload)).1 :=
    hregistered.trans (framing_lets.send _)
  unfold HostConnection.dispatchStream
  dsimp only
  split
  · exact hregistered.trans (lets_unsent ..)
  split
  · rename_i heq
    rw [heq] at hsent
    exact hsent.trans (.of_same rfl rfl)
  · rename_i heq
    rw [heq] at hsent
    exact hsent.trans (lets_unsent ..)

/-- Of the frames only a CALL is more than a cancel to the inbound calls. -/
theorem lets_onFrame {frame : Frame V} (hframe : ∀ corrId stream payload, frame ≠ .call corrId stream payload) :
    c.Lets (c.onFrame link frame) := by
  cases frame with
  | hello hostId =>
    cases hostId with
    | none => exact .refl c
    | some hostId => exact .of_same rfl rfl
  | ping corrId => exact framing_lets.send _
  | pong corrId => exact .refl c
  | goaway status message =>
    dsimp only [onFrame]
    split
    · have hdone : c.Lets { c with peerDone := true } := .of_same rfl rfl
      exact hdone.trans ((framing_lets.retire _).trans framing_lets.settleRetirement)
    · exact framing_lets.close _
  | call corrId stream payload => exact absurd rfl (hframe corrId stream payload)
  | reply corrId value =>
    have hforgot : c.Lets (c.forgetUnary link corrId).1 := framing_lets.forgetUnary corrId
    dsimp only [onFrame]
    split
    · rename_i heq
      rw [heq] at hforgot
      exact hforgot.trans (framing_lets.settle ..)
    · rename_i heq
      rwa [heq] at hforgot
  | error corrId status wire =>
    have hforgot : c.Lets (c.forgetUnary link corrId).1 := framing_lets.forgetUnary corrId
    dsimp only [onFrame]
    split
    · rename_i heq
      rw [heq] at hforgot
      exact hforgot.trans (framing_lets.settle ..)
    · rename_i heq
      rw [heq] at hforgot
      split
      · exact hforgot.trans (framing_lets.failStream ..)
      · exact hforgot
  | chunk | end_ =>
    dsimp only [onFrame]
    split
    · exact .of_same rfl rfl
    · exact .refl c
  | cancel corrId reason => exact lets_cancelInbound corrId

/-! ## What serving is made of -/

/-- A CALL has arrived. -/
def accept (c : HostConnection V) (corrId : Nat) (stream : Bool) (payload : CallPayload V) :
    HostConnection V :=
  { c with servings := c.servings ++ [{ corrId := corrId, stream := stream, payload := payload }] }

/-- `P` is kept by whatever happens to an inbound call; `ok` is what a CALL is held to. -/
structure Serves (ok : HostConnection V → Nat → Prop) (P : HostConnection V → Prop) : Prop where
  lets : ∀ {c d}, P c → c.Lets d → P d
  accept : ∀ {c corrId stream payload}, P c → ok c corrId → P (c.accept corrId stream payload)
  enter : ∀ {c k x}, P c → c.servings[k]? = some x → x.phase = .accepted → x.stream = true →
    P { c with inbound := c.inbound.set x.corrId k }
  stream : ∀ {c k x}, P c → c.servings[k]? = some x → x.phase = .accepted → x.stream = true →
    c.inbound.get x.corrId = some k →
    P (c.modifyServing k fun serving => { serving with phase := .streaming })
  run : ∀ {c k x}, P c → c.servings[k]? = some x → x.phase = .accepted →
    P (c.modifyServing k fun serving => { serving with phase := .running })
  finish : ∀ {c k}, P c → P (c.finishServing k)
  finishStream : ∀ {c k x}, P c → c.servings[k]? = some x → x.phase = .streaming →
    P (c.finishStream k x.corrId)

section

variable {ok : HostConnection V → Nat → Prop} {P : HostConnection V → Prop} {k : Nat}

section

variable (h : Serves ok P) (hP : P c)
include h hP

theorem Serves.serve (hstep : c.serve k = some d) : P d := by
  unfold HostConnection.serve at hstep
  split at hstep
  · rename_i x hx
    obtain ⟨hphase, hstep⟩ := guard_passed hstep
    split at hstep
    · cases hstep
      exact h.finish hP
    · split at hstep
      · rename_i hstream
        cases hstep
        have hentered := h.enter hP hx hphase hstream
        exact h.stream hentered hx hphase hstream (JsMap.get_set_self _ _ _)
      · cases hstep
        exact h.run hP hx hphase
  · cases hstep

/-- A stream that has said what it has to say is over. -/
theorem Serves.over_ {x : Serving V} (hx : c.servings[k]? = some x)
    (hphase : x.phase = .streaming) (hlets : c.Lets d) : P (d.finishStream k x.corrId) := by
  obtain ⟨y, hy, hid, hsame⟩ := hlets.is hx
  rw [← hid]
  exact h.finishStream (h.lets hP hlets) hy (hsame.trans hphase)

theorem Serves.ended (hstep : c.ended link k = some d) : P d := by
  unfold HostConnection.ended at hstep
  split at hstep
  · rename_i x hx
    obtain ⟨hphase, rfl⟩ := guard_taken hstep
    refine h.over_ hP hx hphase ?_
    split
    · exact .refl c
    · exact framing_lets.send _
  · cases hstep

theorem Serves.threw {error : Thrown} (hstep : c.threw link k error = some d) : P d := by
  unfold HostConnection.threw at hstep
  split at hstep
  · rename_i x hx
    split at hstep
    · cases hstep
      exact h.finish (h.lets hP (framing_lets.fail ..))
    · rename_i hphase
      cases hstep
      refine h.over_ hP hx hphase ?_
      split
      · exact .refl c
      · exact framing_lets.fail ..
    · cases hstep
  · cases hstep

theorem Serves.unmade {error : Thrown} (hstep : c.unmade link k error = some d) : P d := by
  unfold HostConnection.unmade at hstep
  split at hstep
  · rename_i x hx
    obtain ⟨hphase, rfl⟩ := guard_taken hstep
    exact h.finish (h.lets (h.enter hP hx hphase.1 hphase.2.1) (framing_lets.fail ..))
  · cases hstep

theorem Serves.run_ {op : Op V} (hstep : c.run link op = some d) : P d := by
  cases op with
  | hello hostId =>
    cases hstep
    exact h.lets hP (framing_lets.send _)
  | dispatch payload aborted during =>
    cases hstep
    exact h.lets hP (lets_dispatch ..)
  | abort id reason =>
    dsimp only [HostConnection.run, abortUnary] at hstep
    split at hstep
    · cases hstep
      exact h.lets hP (framing_lets.abort ..)
    · cases hstep
  | dispatchStream payload aborted =>
    cases hstep
    exact h.lets hP (lets_dispatchStream ..)
  | abortStream k reason => exact h.lets hP (lets_abortStream hstep)
  | pull k => exact h.lets hP (lets_pull hstep)
  | return_ k => exact h.lets hP (lets_returnEarly hstep)
  | refuseCall k status message data =>
    dsimp only [HostConnection.run, HostConnection.refuseCall] at hstep
    split at hstep
    · split at hstep
      · cases hstep
        exact h.finish (h.lets hP (framing_lets.fail ..))
      · cases hstep
    · cases hstep
  | serve k => exact h.serve hP hstep
  | returned k value =>
    dsimp only [HostConnection.run, HostConnection.returned] at hstep
    split at hstep
    · split at hstep
      · cases hstep
        exact h.finish (h.lets hP (framing_lets.send _))
      · cases hstep
    · cases hstep
  | yielded k value =>
    dsimp only [HostConnection.run, HostConnection.yielded] at hstep
    split at hstep
    · split at hstep
      · cases hstep
        exact h.lets hP (framing_lets.send _)
      · cases hstep
    · cases hstep
  | ended k => exact h.ended hP hstep
  | threw k error => exact h.threw hP hstep
  | unmade k error => exact h.unmade hP hstep
  | retire reason =>
    cases hstep
    exact h.lets hP (framing_lets.retire _)

/-- Every step keeps it, a CALL on the terms. -/
theorem Serves.step {l : Label V} (hstep : c.step l = some d)
    (hcall : ∀ link corrId stream payload, l = .frame link (.call corrId stream payload) →
      ok c corrId) : P d := by
  cases l with
  | op link op => exact h.run_ hP hstep
  | frame link frame =>
    obtain ⟨-, rfl⟩ := guard_past_taken hstep
    by_cases hframe : ∃ corrId stream payload, frame = .call corrId stream payload
    · obtain ⟨corrId, stream, payload, rfl⟩ := hframe
      exact h.accept hP (hcall link corrId stream payload rfl)
    · refine h.lets hP (lets_onFrame fun corrId stream payload heq => hframe ?_)
      exact ⟨corrId, stream, payload, heq⟩
  | malformed link oversized message =>
    cases hstep
    exact h.lets hP ((framing_lets.send _).trans (framing_lets.close _))
  | close reason =>
    cases hstep
    exact h.lets hP (framing_lets.close _)

end

end

/-! ## The table and the streams -/

/-- The table holds the streams that are served, each under its id. -/
structure Answering (c : HostConnection V) : Prop where
  unique : ∀ (k k' : Nat) (x x' : Serving V), c.servings[k]? = some x → c.servings[k']? = some x' →
    x.phase ≠ .over_ → x'.phase ≠ .over_ → x.corrId = x'.corrId → k = k'
  present : ∀ (k : Nat) (x : Serving V), c.servings[k]? = some x → x.phase = .streaming →
    x.aborted = false → c.inbound.get x.corrId = some k

/-- The id of a CALL is not that of a call that is still being served. -/
def FreeId (c : HostConnection V) (corrId : Nat) : Prop :=
  ∀ x ∈ c.servings, x.corrId = corrId → x.phase = .over_

/-- What an inbound call was before one of them changed its phase. -/
theorem was_of_phase {phase : Phase} {j : Nat} {y : Serving V}
    (hy : (c.modifyServing k fun serving => { serving with phase := phase }).servings[j]? = some y) :
    ∃ old, c.servings[j]? = some old ∧ y.corrId = old.corrId ∧ y.stream = old.stream ∧
      y.aborted = old.aborted ∧ (j = k ∧ y.phase = phase ∨ j ≠ k ∧ y.phase = old.phase) := by
  simp only [modifyServing, List.getElem?_modify] at hy
  obtain ⟨old, hold, rfl⟩ := Option.map_eq_some_iff.1 hy
  refine ⟨old, hold, ?_⟩
  by_cases hj : k = j
  · rw [if_pos hj]
    exact ⟨rfl, rfl, rfl, .inl ⟨hj.symm, rfl⟩⟩
  · rw [if_neg hj]
    exact ⟨rfl, rfl, rfl, .inr ⟨fun heq => hj heq.symm, rfl⟩⟩

/-- A call goes on to another phase. -/
theorem Answering.phase (h : c.Answering) (hx : c.servings[k]? = some x) {phase : Phase}
    (hphase : x.phase ≠ .over_ ∨ phase = .over_)
    (hpresent : phase = .streaming → c.inbound.get x.corrId = some k) :
    (c.modifyServing k fun serving => { serving with phase := phase }).Answering := by
  have hopen : ∀ (j : Nat) (y old : Serving V), c.servings[j]? = some old →
      (j = k ∧ y.phase = phase ∨ j ≠ k ∧ y.phase = old.phase) → y.phase ≠ .over_ →
        old.phase ≠ .over_ := by
    intro j y old hold hcase hy
    rcases hcase with ⟨rfl, hsame⟩ | ⟨-, hsame⟩
    · rw [hx] at hold
      cases hold
      rcases hphase with hne | heq
      · exact hne
      · exact absurd (hsame.trans heq) hy
    · rwa [← hsame]
  refine ⟨fun j j' y y' hy hy' hl hl' hid => ?_, fun j y hy hstreams haborted => ?_⟩
  · obtain ⟨old, hold, hid_y, -, -, hcase⟩ := was_of_phase hy
    obtain ⟨old', hold', hid_y', -, -, hcase'⟩ := was_of_phase hy'
    exact h.unique j j' old old' hold hold' (hopen j y old hold hcase hl)
      (hopen j' y' old' hold' hcase' hl') (by rw [← hid_y, ← hid_y', hid])
  · obtain ⟨old, hold, hid, -, hsame, ⟨rfl, hnew⟩ | ⟨-, hkeep⟩⟩ := was_of_phase hy
    · rw [hx] at hold
      cases hold
      rw [hid]
      exact hpresent (hnew.symm.trans hstreams)
    · rw [hid]
      exact h.present j old hold (hkeep ▸ hstreams) (hsame ▸ haborted)

theorem serves_answering : Serves (V := V) FreeId Answering where
  lets {c d} h hlets := by
    refine ⟨fun j j' y y' hy hy' hl hl' hid => ?_, fun j y hy hstreams haborted => ?_⟩
    · obtain ⟨old, hold, hid_y, -, hphase, -⟩ := hlets.was hy
      obtain ⟨old', hold', hid_y', -, hphase', -⟩ := hlets.was hy'
      exact h.unique j j' old old' hold hold' (hphase ▸ hl) (hphase' ▸ hl')
        (by rw [← hid_y, ← hid_y', hid])
    · obtain ⟨old, hold, hid, -, hphase, hwas⟩ := hlets.was hy
      have hget := h.present j old hold (hphase ▸ hstreams) (hwas haborted)
      rcases hlets.kept _ j hget with hkept | hall
      · rwa [hid]
      · rw [hall y hy] at haborted
        cases haborted
  accept {c corrId stream payload} h hfree := by
    have hwas : ∀ (j : Nat) (y : Serving V), (c.accept corrId stream payload).servings[j]? = some y →
        c.servings[j]? = some y ∨
          j = c.servings.length ∧ y = { corrId := corrId, stream := stream, payload := payload } := by
      intro j y hy
      simp only [accept, List.getElem?_append] at hy
      split at hy
      · exact .inl hy
      rw [List.getElem?_singleton] at hy
      obtain ⟨_, hy⟩ := guard_passed hy
      exact .inr ⟨by omega, (Option.some.inj hy).symm⟩
    refine ⟨fun j j' y y' hy hy' hl hl' hid => ?_, fun j y hy hstreams haborted => ?_⟩
    · rcases hwas j y hy with hold | ⟨rfl, rfl⟩
      · rcases hwas j' y' hy' with hold' | ⟨rfl, rfl⟩
        · exact h.unique j j' y y' hold hold' hl hl' hid
        · exact absurd (hfree y (List.mem_of_getElem? hold) hid) hl
      · rcases hwas j' y' hy' with hold' | ⟨rfl, rfl⟩
        · exact absurd (hfree y' (List.mem_of_getElem? hold') hid.symm) hl'
        · rfl
    · rcases hwas j y hy with hold | ⟨rfl, rfl⟩
      · exact h.present j y hold hstreams haborted
      · cases hstreams
  enter {c k x} h hx hphase _ := by
    refine ⟨h.unique, fun j y hy hstreams haborted => ?_⟩
    refine (JsMap.get_set _ _ _ _).trans ?_
    split
    · rename_i heq
      rw [h.unique k j x y hx hy (by rw [hphase]; simp) (by rw [hstreams]; simp) heq.symm]
    · exact h.present j y hy hstreams haborted
  stream h hx hphase _ hget := h.phase hx (.inl (by rw [hphase]; simp)) fun _ => hget
  run h hx hphase := h.phase hx (.inl (by rw [hphase]; simp)) (by simp)
  finish {c k} h := by
    cases hx : c.servings[k]? with
    | some x => exact h.phase hx (.inr rfl) (by simp)
    | none =>
      have hsame : c.finishServing k = c := by
        rw [finishServing, modifyServing, List.modify_eq_self (List.getElem?_eq_none_iff.1 hx)]
      rwa [hsame]
  finishStream {c k x} h hx hphase := by
    have hfinished : (c.finishServing k).Answering := h.phase hx (.inr rfl) (by simp)
    refine ⟨hfinished.unique, fun j y hy hstreams haborted => ?_⟩
    obtain ⟨old, hold, hid, -, hsame, ⟨-, hover⟩ | ⟨hne, hkeep⟩⟩ := was_of_phase hy
    · rw [hover] at hstreams
      cases hstreams
    refine (JsMap.get_erase _ _ _).trans ?_
    rw [if_neg]
    · exact hfinished.present j y hy hstreams haborted
    · intro heq
      refine hne (h.unique j k old x hold hx ?_ ?_ (hid.symm.trans heq))
      · rw [← hkeep, hstreams]
        simp
      · rw [hphase]
        simp

/-! ## After a CANCEL -/

/-- Of the first `n` inbound calls no stream under `corrId` is registered, or goes on. -/
def Stopped (corrId n : Nat) (c : HostConnection V) : Prop :=
  ∀ k x, k < n → c.servings[k]? = some x → x.corrId = corrId →
    c.inbound.get corrId ≠ some k ∧ (x.phase = .streaming → x.aborted = true)

/-- Nor will it be. -/
structure Stays (corrId n : Nat) (c : HostConnection V) : Prop where
  length : n ≤ c.servings.length
  table : ∀ k, k < n → c.inbound.get corrId ≠ some k
  accepted : ∀ k x, k < n → c.servings[k]? = some x → x.corrId = corrId → x.phase = .accepted →
    x.stream = false
  streaming : ∀ k x, k < n → c.servings[k]? = some x → x.corrId = corrId → x.phase = .streaming →
    x.aborted = true

section

variable {corrId n : Nat}

theorem Stays.stopped (h : c.Stays corrId n) : c.Stopped corrId n :=
  fun k x hk hx hid => ⟨h.table k hk, h.streaming k x hk hx hid⟩

/-- A stream that is served is another, or a later one. -/
theorem Stays.other (h : c.Stays corrId n) {x : Serving V} (hx : c.servings[k]? = some x)
    (hphase : x.phase = .accepted) (hstream : x.stream = true) : ¬ (k < n ∧ x.corrId = corrId) := by
  rintro ⟨hk, hid⟩
  rw [h.accepted k x hk hx hid hphase] at hstream
  cases hstream

theorem Stays.phase (h : c.Stays corrId n) {phase : Phase} (hphase : phase ≠ .accepted)
    (hstreaming : phase = .streaming → ∀ x, c.servings[k]? = some x → ¬ (k < n ∧ x.corrId = corrId)) :
    (c.modifyServing k fun serving => { serving with phase := phase }).Stays corrId n := by
  refine ⟨?_, h.table, fun j y hj hy hid haccepted => ?_, fun j y hj hy hid hstreams => ?_⟩
  · change n ≤ (c.servings.modify k _).length
    rw [List.length_modify]
    exact h.length
  · obtain ⟨old, hold, hsame, hmode, -, ⟨-, hnew⟩ | ⟨-, hkeep⟩⟩ := was_of_phase hy
    · exact absurd (hnew.symm.trans haccepted) hphase
    · exact hmode.trans (h.accepted j old hj hold (hsame.symm.trans hid) (hkeep ▸ haccepted))
  · obtain ⟨old, hold, hsame, -, haborted, ⟨rfl, hnew⟩ | ⟨-, hkeep⟩⟩ := was_of_phase hy
    · exact absurd ⟨hj, hsame.symm.trans hid⟩ (hstreaming (hnew.symm.trans hstreams) old hold)
    · exact haborted.trans (h.streaming j old hj hold (hsame.symm.trans hid) (hkeep ▸ hstreams))

theorem serves_stays : Serves (V := V) (fun _ _ => True) (Stays corrId n) where
  lets {c d} h hlets := by
    refine ⟨?_, fun k hk hget => h.table k hk (hlets.inbound _ _ hget), fun k x hk hx hid hphase => ?_,
      fun k x hk hx hid hphase => ?_⟩
    · rw [hlets.length]
      exact h.length
    · obtain ⟨old, hold, hsame, hmode, hkeep, -⟩ := hlets.was hx
      exact hmode.trans (h.accepted k old hk hold (hsame.symm.trans hid) (hkeep.symm.trans hphase))
    · obtain ⟨old, hold, hsame, -, hkeep, hwas⟩ := hlets.was hx
      have haborted := h.streaming k old hk hold (hsame.symm.trans hid) (hkeep.symm.trans hphase)
      cases hx_aborted : x.aborted with
      | true => rfl
      | false =>
        rw [hwas hx_aborted] at haborted
        cases haborted
  accept {c corrId' stream payload} h _ := by
    have hold : ∀ (k : Nat) (x : Serving V), k < n →
        (c.accept corrId' stream payload).servings[k]? = some x → c.servings[k]? = some x :=
      fun k x hk hx => (List.getElem?_append_left (Nat.lt_of_lt_of_le hk h.length)).symm.trans hx
    refine ⟨?_, h.table, fun k x hk hx => h.accepted k x hk (hold k x hk hx),
      fun k x hk hx => h.streaming k x hk (hold k x hk hx)⟩
    exact Nat.le_trans h.length (by simp [accept])
  enter {c k x} h hx hphase hstream := by
    refine { h with table := fun j hj hget => ?_ }
    rw [JsMap.get_set] at hget
    split at hget
    · rename_i hid
      cases hget
      exact h.other hx hphase hstream ⟨hj, hid.symm⟩
    · exact h.table j hj hget
  stream {c k x} h hx hphase hstream _ := by
    refine h.phase (by simp) fun _ y hy => ?_
    rw [hx] at hy
    cases hy
    exact h.other hx hphase hstream
  run h _ _ := h.phase (by simp) (by simp)
  finish h := h.phase (by simp) (by simp)
  finishStream {c k x} h _ _ := by
    have hfinished : (c.finishServing k).Stays corrId n := h.phase (by simp) (by simp)
    refine { hfinished with table := fun j hj hget => ?_ }
    change (c.inbound.erase x.corrId).get corrId = some j at hget
    rw [JsMap.get_erase] at hget
    obtain ⟨-, hget⟩ := guard_past hget
    exact h.table j hj hget

/-- No stream under the id waits to be served. -/
def Resolved (c : HostConnection V) (corrId : Nat) : Prop :=
  ∀ x ∈ c.servings, x.corrId = corrId → x.stream = true → x.phase ≠ .accepted

/-- A CANCEL for a stream that is served stops it for good. -/
theorem Answering.stays (h : c.Answering) (hresolved : c.Resolved corrId) :
    (c.cancelInbound corrId).Stays corrId c.servings.length := by
  have hlets : c.Lets (c.cancelInbound corrId) := lets_cancelInbound corrId
  have hnone : (c.cancelInbound corrId).inbound.get corrId = none := by
    unfold cancelInbound
    split
    · exact JsMap.get_erase_self _ _
    · assumption
  refine ⟨?_, fun k _ => ?_, fun k x _ hx hid hphase => ?_, fun k x _ hx hid hphase => ?_⟩
  · exact Nat.le_of_eq hlets.length.symm
  · rw [hnone]
    simp
  · obtain ⟨old, hold, hsame, hmode, hkeep, -⟩ := hlets.was hx
    rw [hmode]
    refine Bool.eq_false_iff.2 fun hstream => ?_
    exact hresolved old (List.mem_of_getElem? hold) (hsame.symm.trans hid) hstream
      (hkeep.symm.trans hphase)
  · obtain ⟨old, hold, hsame, -, hkeep, hwas⟩ := hlets.was hx
    cases haborted : x.aborted with
    | true => rfl
    | false =>
      have hget := h.present k old hold (hkeep.symm.trans hphase) (hwas haborted)
      rw [hsame.symm.trans hid] at hget
      rcases hlets.kept corrId k hget with hkept | hall
      · rw [hnone] at hkept
        cases hkept
      · rw [hall x hx] at haborted
        cases haborted

end

/-! ## The property -/

/-- The terms on which cancellation is honoured.  To what a consumer is held to there come, for the
peer: the id of a CALL is free, and no stream waits to be served under that of a CANCEL. -/
def Heeds (c : HostConnection V) : Label V → Prop
  | .frame _ (.call corrId _ _) => c.FreeId corrId
  | .frame _ (.cancel corrId _) => c.Resolved corrId
  | .op _ (.return_ k) => c.Started k
  | .op _ (.dispatchStream _ _) => c.FreshStream
  | _ => True

theorem Heeds.pulls {l : Label V} (h : c.Heeds l) : c.Pulls l := by
  cases l with
  | op link op =>
    cases op with
    | dispatchStream | return_ => exact h
    | _ => trivial
  | _ => trivial

theorem listens_of_heeds (h : (hostConnection V).Reach Heeds c) : c.Listens := by
  refine h.invariant (I := fun c => c.Listens) (fun s hs => listens_initial hs)
    fun s l t hs hok hstep => ?_
  exact hs.step hok.pulls hstep

theorem answering_of_heeds (h : (hostConnection V).Reach Heeds c) : c.Answering := by
  refine h.invariant (fun s hs => ?_) fun s l t hs hok hstep => ?_
  · obtain ⟨dialer, rfl⟩ := hs
    refine ⟨fun _ _ _ _ hx => ?_, fun _ _ hx => ?_⟩ <;> cases hx
  · refine serves_answering.step hs hstep fun link corrId stream payload heq => ?_
    subst heq
    exact hok

/-- What holds once the CANCEL has been processed, holds from then on. -/
theorem stays_since {corrId n : Nat} {ok : HostConnection V → Label V → Prop}
    (hd : d.Stays corrId n) (h : ((hostConnection V).since d).Reach ok e) : e.Stays corrId n := by
  refine h.invariant (fun s hs => hs ▸ hd) fun s l t hs _ hstep => ?_
  exact serves_stays.step hs hstep fun _ _ _ _ _ => trivial

end HostConnection

/-- In a run on the terms a stream that is given up is cancelled, and what a CANCEL is for is
stopped. -/
theorem cancelled_of_heeds {V : Type} {c : HostConnection V}
    (h : (hostConnection V).Reach HostConnection.Heeds c) : c.CancelsOut ∧
      ∀ link corrId reason d e, c.Heeds (.frame link (.cancel corrId reason)) →
        (hostConnection V).step c (.frame link (.cancel corrId reason)) = some d →
        ((hostConnection V).since d).Reach HostConnection.Heeds e →
          e.Stopped corrId d.servings.length := by
  refine ⟨(HostConnection.listens_of_heeds h).cancelsOut, ?_⟩
  intro link corrId reason d e hresolved hstep hsince
  obtain ⟨-, rfl⟩ := guard_past_taken hstep
  have hstays := (HostConnection.answering_of_heeds h).stays hresolved
  rw [HostConnection.onFrame, (HostConnection.lets_cancelInbound corrId).length]
  exact (HostConnection.stays_since hstays hsince).stopped

instance (c : HostConnection String) (l : HostConnection.Label String) : Decidable (c.Heeds l) := by
  induction l using HostConnection.Label.casesOn <;> dsimp only [HostConnection.Heeds]
  case op op =>
    induction op using HostConnection.Op.casesOn <;>
      dsimp only [HostConnection.Started, HostConnection.FreshStream] <;> infer_instance
  case frame frame =>
    induction frame using Frame.casesOn <;>
      dsimp only [HostConnection.FreeId, HostConnection.Resolved] <;> infer_instance
  all_goals infer_instance

/-- A consumer takes a value and returns; a stream of the peer is served. -/
def givenUp : List (HostConnection.Label String) :=
  [.op takes (.dispatchStream ask none), .frame takes (.chunk 2 "1"), .op takes (.pull 0),
    .op takes (.return_ 0), .frame takes (.call 3 true ask), .op takes (.serve 0)]

theorem cancelled_givenUp :
    ∃ c : HostConnection String, c.consumers.map (·.over_) = [true] ∧ c.inbound.get 3 = some 0 ∧
      c.CancelsOut ∧
      ∀ link corrId reason d e, c.Heeds (.frame link (.cancel corrId reason)) →
        (hostConnection String).step c (.frame link (.cancel corrId reason)) = some d →
        ((hostConnection String).since d).Reach HostConnection.Heeds e →
          e.Stopped corrId d.servings.length := by
  have hstart : (hostConnection String).Reach HostConnection.Heeds { dialer := true } :=
    .start ⟨true, rfl⟩
  have hrun := hstart.exec_get givenUp (by decide)
  refine ⟨_, ?_, ?_, cancelled_of_heeds hrun⟩ <;> decide

/-- A consumer returns what it has not pulled; a CANCEL overtakes the resolution of its CALL. -/
theorem not_cancelled :
    (¬ ∀ c : HostConnection String, (hostConnection String).Reachable c → c.CancelsOut) ∧
      ¬ ∀ c : HostConnection String, (hostConnection String).Reachable c →
        ∀ link corrId reason d e,
          (hostConnection String).step c (.frame link (.cancel corrId reason)) = some d →
          ((hostConnection String).since d).Reachable e → e.Stopped corrId d.servings.length := by
  have hstart : (hostConnection String).Reachable { dialer := true } := .start ⟨true, rfl⟩
  constructor
  · intro hcancels
    have hrun := hstart.exec_get
      [.op takes (.dispatchStream ask none), .op takes (.return_ 0)] (by decide)
    rcases hcancels _ hrun 0 _ rfl rfl (.inl rfl) with hclosed | ⟨hget, -⟩
    · exact absurd hclosed (by decide)
    · exact hget rfl
  · intro hstopped
    have hrun := hstart.exec_get [.frame takes (.call 3 true ask)] (by decide)
    have hserved := hstopped _ hrun takes 3 "caller-abort" _ _ rfl
      (Machine.System.Reach.next (l := .op takes (.serve 0)) (.start rfl) trivial rfl)
    exact (hserved 0 _ (by decide) rfl rfl).1 rfl

end SigxActors.Cluster
