/-
  Cluster/HttpTransport.lean --- when the HTTP transport says `unreachable`.

  Source: `send`, `dispatch` and `streamOver` of
  `packages/actors/src/cluster/transport.ts`.

  `fetch` is an oracle.  It may reject before the request has left, and it may reject
  after the peer has executed it: the transport sees the same rejection.  The retry
  contract reads `unreachable` as "provably never executed", so what is proved here is on
  which exchanges that reading is right, and that the router's loop executes a call at
  most once over exactly these.
-/
import SigxActors.Cluster.RoutingAtMostOnce

set_option autoImplicit false

namespace SigxActors.Cluster

/-! ## Exchanges -/

/-- What the peer's mount made of a request. -/
inductive Handling (α : Type) where
  /-- Refused before the body: at the perimeter, by the inbound guard, at admission. -/
  | refused (error : Thrown)
  | ran (result : Except Thrown α)

/-- The body ran.  A request that did not reach the mount is none. -/
def executedBy {α : Type} : Option (Handling α) → Bool
  | some (.ran _) => true
  | _ => false

/-- One request, and what `fetch` did with it. -/
inductive Exchange (α : Type) where
  /-- `fetch` rejects, whatever the peer made of the request. -/
  | rejects (served : Option (Handling α)) (aborted : Bool) (message : String)
  /-- The mount's response arrives whole. -/
  | answers (served : Handling α)
  /-- A response arrives whose body is not the mount's: it was cut, or a gateway's. -/
  | garbles (served : Option (Handling α)) (ok : Bool) (status : Nat)

/-- The peer executed the request. -/
def Exchange.executed {α : Type} : Exchange α → Bool
  | .rejects served _ _ => executedBy served
  | .answers served => executedBy (some served)
  | .garbles served _ _ => executedBy served

/-! ## The transport -/

/-- The parsed body of a response. -/
inductive Body (α : Type) where
  | data (value : α)
  | error (wire : HostWireError)

/-- A response.  The body is none where it cannot be read or parsed. -/
structure Response (α : Type) where
  ok : Bool
  status : Nat
  body : Option (Body α)

/-- What the peer's mount responds to a call. -/
def mountResponse {α : Type} : Handling α → Response α
  | .refused e =>
      let wire := toHostWireError e
      { ok := false, status := wire.status.getD 500, body := some (.error wire) }
  | .ran (.error e) =>
      let wire := toHostWireError e
      { ok := false, status := wire.status.getD 500, body := some (.error wire) }
  | .ran (.ok value) => { ok := true, status := 200, body := some (.data value) }

/-- `send`. -/
def Exchange.send {α : Type} (target : String) : Exchange α → Except Thrown (Response α)
  | .rejects _ aborted message =>
      if aborted then .error (.other message none) else .error (ActorUnreachableError target)
  | .answers served => .ok (mountResponse served)
  | .garbles _ ok status => .ok { ok := ok, status := status, body := none }

/-- The text of an error that the peer gave no message. -/
def failedWith (what target : String) (status : Nat) : String :=
  "[sigx actors] host " ++ what ++ " to " ++ target ++ " failed with HTTP " ++ toString status

/-- `dispatch`. -/
def Exchange.dispatch {α : Type} (target : String) (x : Exchange α) : Except Thrown α :=
  match x.send target with
  | .error e => .error e
  | .ok res =>
      let fallback := failedWith "call" target res.status
      match res.body with
      | none => .error (fromHostWireError res.status none fallback)
      | some (.error wire) => .error (fromHostWireError res.status (some wire) fallback)
      | some (.data value) =>
          if res.ok then .ok value else .error (fromHostWireError res.status none fallback)

/-- The end of the stream that a peer's mount answers with: an error of the body travels
in band, and an error from before it is the response. -/
inductive StreamEnd where
  | done
  | inBand (wire : HostWireError)
  /-- No terminator. -/
  | cut
  deriving DecidableEq

/-- The response to a stream call: its status and error, or its end. -/
def mountStream {α : Type} : Handling α → Except (Nat × Option HostWireError) StreamEnd
  | .refused e => .error ((toHostWireError e).status.getD 500, some (toHostWireError e))
  | .ran (.error e) => .ok (.inBand (toHostWireError e))
  | .ran (.ok _) => .ok .done

/-- What the catch around `readNdjson` throws: an error with data gets its brand back. -/
def liftInBand (wire : HostWireError) (fallback : String) : Thrown :=
  match wire.data with
  | some _ => fromHostWireError (wire.status.getD 500) (some wire) fallback
  | none => wireFail 500 (some wire) fallback

/-- `streamOver`: what the stream throws in the end, if it does. -/
def Exchange.streamOver {α : Type} (target : String) (x : Exchange α) : Option Thrown :=
  let opened : Except Thrown (Except (Nat × Option HostWireError) StreamEnd) :=
    match x with
    | .rejects _ aborted message =>
        if aborted then .error (.other message none) else .error (ActorUnreachableError target)
    | .answers served => .ok (mountStream served)
    | .garbles _ ok status => .ok (if ok then .ok .cut else .error (status, none))
  match opened with
  | .error e => some e
  | .ok (.error (status, wire)) =>
      some (fromHostWireError status wire (failedWith "stream" target status))
  | .ok (.ok .done) => none
  | .ok (.ok (.inBand wire)) => some (liftInBand wire "[sigx actors] stream failed")
  | .ok (.ok .cut) =>
      some (.other "[sigx actors] stream ended without a done/error terminator" none)

/-! ## Where the reading is right -/

/-- The exchange leaves no doubt: no rejection of `fetch` hides an execution, and no body
that ran settles with the brand. -/
def Exchange.Accounted {α : Type} : Exchange α → Prop
  | .rejects served aborted _ => executedBy served = true → aborted = true
  | .answers (.ran (.error e)) => e.isActorErrorKind .unreachable = false
  | .answers _ => True
  | .garbles _ _ _ => True

theorem kind?_wireError (status : Nat) (e : Thrown) (fallback : String) :
    (fromHostWireError status (some (toHostWireError e)) fallback).kind? = e.kind? := by
  cases e with
  | other message status => rfl
  | actor e => simp [toHostWireError, fromHostWireError, kindOfName_kindName]

theorem kind?_liftInBand (e : Thrown) (fallback : String) :
    (liftInBand (toHostWireError e) fallback).kind? = e.kind? := by
  cases e with
  | other message status => rfl
  | actor e => exact kind?_wireError _ (.actor e) fallback

/-- The kind of the error that a call is failed with. -/
def Exchange.failure? {α : Type} : Exchange α → Option ActorErrorKind
  | .rejects _ aborted _ => if aborted then none else some .unreachable
  | .answers (.refused e) => e.kind?
  | .answers (.ran (.error e)) => e.kind?
  | .answers (.ran (.ok _)) => none
  | .garbles _ _ _ => none

variable {α : Type} {x : Exchange α}

theorem kind?_dispatch {target : String} {e : Thrown}
    (h : x.dispatch target = .error e) : e.kind? = x.failure? := by
  cases x with
  | rejects served aborted message =>
    cases aborted <;> cases h <;> rfl
  | garbles served ok status =>
    cases h
    rfl
  | answers served =>
    rcases served with error | (error | value)
    · cases h
      exact kind?_wireError _ error _
    · cases h
      exact kind?_wireError _ error _
    · cases h

theorem kind?_streamOver {target : String} {e : Thrown}
    (h : x.streamOver target = some e) : e.kind? = x.failure? := by
  cases x with
  | rejects served aborted message =>
    cases aborted <;> cases h <;> rfl
  | garbles served ok status =>
    cases ok <;> cases h <;> rfl
  | answers served =>
    rcases served with error | (error | value)
    · cases h
      exact kind?_wireError _ error _
    · cases h
      exact kind?_liftInBand error _
    · cases h

/-- A call that fails with a brand throws it. -/
theorem throws_of_failure {kind : ActorErrorKind} (h : x.failure? = some kind)
    (target : String) : (∃ e, x.dispatch target = .error e ∧ e.kind? = some kind) ∧
      ∃ e, x.streamOver target = some e ∧ e.kind? = some kind := by
  have hdispatch : ∃ e, x.dispatch target = .error e := by
    rcases x with ⟨served, aborted, message⟩ | (error | (error | value)) | _
    · cases aborted <;> exact ⟨_, rfl⟩
    · exact ⟨_, rfl⟩
    · exact ⟨_, rfl⟩
    · cases h
    · cases h
  have hstream : ∃ e, x.streamOver target = some e := by
    rcases x with ⟨served, aborted, message⟩ | (error | (error | value)) | _
    · cases aborted <;> exact ⟨_, rfl⟩
    · exact ⟨_, rfl⟩
    · exact ⟨_, rfl⟩
    · cases h
    · cases h
  obtain ⟨e, he⟩ := hdispatch
  obtain ⟨e', he'⟩ := hstream
  exact ⟨⟨e, he, (kind?_dispatch he).trans h⟩, e', he', (kind?_streamOver he').trans h⟩

/-- The brand is a proof that nothing was executed exactly where the exchange is accounted
for. -/
theorem accounted_iff (x : Exchange α) :
    x.Accounted ↔ (x.failure? = some .unreachable → x.executed = false) := by
  rcases x with ⟨served, aborted, message⟩ | (error | (error | value)) | _
  · cases aborted <;> simp [Exchange.Accounted, Exchange.failure?, Exchange.executed]
  · simp [Exchange.Accounted, Exchange.executed, executedBy]
  · simp only [Exchange.Accounted, Exchange.failure?, Exchange.executed, executedBy,
      Bool.true_eq_false, imp_false, ← Thrown.isActorErrorKind_iff, Bool.not_eq_true]
  · simp [Exchange.Accounted, Exchange.failure?]
  · simp [Exchange.Accounted, Exchange.failure?]

/-! ## Under the router's loop -/

/-- What an exchange is to the routing loop. -/
def Exchange.delivery {α : Type} (target : String) (x : Exchange α) : Delivery α :=
  match x with
  | .answers (.ran result) => .ran result
  | x =>
      match x.dispatch target with
      | .ok value => .ran (.ok value)
      | .error e => if x.executed then .lost e else .refused e

/-- An error always has a message, so no fallback is read. -/
theorem fromHostWireError_fallback (status : Nat) (e : Thrown) (fallback fallback' : String) :
    fromHostWireError status (some (toHostWireError e)) fallback =
      fromHostWireError status (some (toHostWireError e)) fallback' := by
  cases e with
  | other message status => rfl
  | actor e => simp [toHostWireError, fromHostWireError, kindOfName_kindName]

/-- The loop is answered what the transport threw or returned. -/
theorem answer_delivery (target : String) (x : Exchange α) :
    (x.delivery target).answer true = x.dispatch target := by
  rcases x with ⟨served, aborted, message⟩ | (error | (error | value)) | _
  · cases aborted <;> cases hserved : executedBy served <;>
      simp [Exchange.delivery, Exchange.dispatch, Exchange.send, Exchange.executed, hserved,
        Delivery.answer]
  · rfl
  · exact congrArg Except.error (fromHostWireError_fallback _ error _ _)
  · rfl
  · simp only [Exchange.delivery, Exchange.dispatch, Exchange.send]
    split <;> rfl

/-- It counts the executions of the peer. -/
theorem executed_delivery (target : String) (x : Exchange α) :
    (x.delivery target).executed = x.executed := by
  rcases x with ⟨served, aborted, message⟩ | (error | (error | value)) | ⟨served, ok, status⟩
  · cases aborted <;> cases hserved : executedBy served <;>
      simp [Exchange.delivery, Exchange.dispatch, Exchange.send, Exchange.executed, hserved,
        Delivery.executed]
  · rfl
  · rfl
  · rfl
  · cases hserved : executedBy served <;>
      simp [Exchange.delivery, Exchange.dispatch, Exchange.send, Exchange.executed, hserved,
        Delivery.executed]

/-- A pass over the HTTP transport. -/
def httpHop {α : Type} (hostId : String) (env : HopEnv) (x : Exchange α) : Hop α :=
  { resolve := .ok (.remote hostId), delivery := x.delivery hostId, env := env }

/-- What an executed call of the exchanges may look like to the loop. -/
def httpProfile {α : Type} (may : Exchange α → Prop) (haccounted : ∀ x, may x → x.Accounted) :
    CallProfile α where
  settles result := ∃ x target, may x ∧ x.delivery target = .ran result
  lost e := ∃ x target, may x ∧ x.delivery target = .lost e
  lost_sound := by
    rintro e ⟨x, target, hx, hlost⟩
    have hexecuted : x.executed = true := by rw [← executed_delivery target, hlost]; rfl
    have hanswer : x.dispatch target = .error e := by rw [← answer_delivery, hlost]; rfl
    rw [Bool.eq_false_iff]
    intro hkind
    rw [Thrown.isActorErrorKind_iff, kind?_dispatch hanswer] at hkind
    rw [(accounted_iff x).1 (haccounted x hx) hkind] at hexecuted
    cases hexecuted

theorem httpProfile_conforms {may : Exchange α → Prop} {haccounted : ∀ x, may x → x.Accounted}
    (hx : may x) (hostId : String) (env : HopEnv) :
    (httpProfile may haccounted).Conforms (httpHop hostId env x) := by
  unfold CallProfile.Conforms
  split
  case h_1 => trivial
  case h_2 result hran => exact ⟨x, hostId, hx, hran⟩
  case h_3 e hlost => exact ⟨x, hostId, hx, hlost⟩

/-- Where `unreachable` is the one brand of an executed call that the loop retries, and every
exchange is accounted for, an executed call is never retried. -/
theorem httpProfile_neverRetried {may : Exchange α → Prop} (haccounted : ∀ x, may x → x.Accounted)
    (honly : ∀ x, may x → x.executed = true → ∀ target e, x.dispatch target = .error e →
      retryClass e true = none ∨ e.kind? = some .unreachable) :
    (httpProfile may haccounted).NeverRetried := by
  have hnone : ∀ x target e, may x → x.executed = true → x.dispatch target = .error e →
      retryClass e true = none := by
    intro x target e hx hexecuted hanswer
    refine (honly x hx hexecuted target e hanswer).resolve_right fun hkind => ?_
    rw [kind?_dispatch hanswer] at hkind
    rw [(accounted_iff x).1 (haccounted x hx) hkind] at hexecuted
    cases hexecuted
  refine ⟨?_, ?_⟩
  · rintro e ⟨x, target, hx, hran⟩
    have hexecuted : x.executed = true := by rw [← executed_delivery target, hran]; rfl
    have hanswer : x.dispatch target = .error (relay "[sigx actors] host call failed" e) := by
      rw [← answer_delivery, hran]
      rfl
    exact (retryClass_relay _ e true).symm.trans (hnone x target _ hx hexecuted hanswer)
  · rintro e ⟨x, target, hx, hlost⟩
    have hexecuted : x.executed = true := by rw [← executed_delivery target, hlost]; rfl
    have hanswer : x.dispatch target = .error e := by rw [← answer_delivery, hlost]; rfl
    exact hnone x target e hx hexecuted hanswer

/-- The connection was reset after the peer had executed the call. -/
def resetAfterExecution : Exchange Unit := .rejects (some (.ran (.ok ()))) false "ECONNRESET"

end SigxActors.Cluster
