/-
  Client/FetchRetry.lean --- the retry of the fetch transport.

  Source: `packages/actors/src/client/index.ts` (`isConnectionError`, `send`).

  What `fetch` makes of a request is the environment's: it answers or is rejected,
  and the server has executed the method or not.  `send` sees the rejection only.
  The URL, the token and the encoded arguments are given; the clock and the signal
  are read where `send` reads them.
-/
import SigxActors.Js.Object

set_option autoImplicit false

namespace SigxActors.Client

open SigxActors.Js

/-! ## Rejections -/

/-- A `code` of an error or of its cause. -/
inductive CodeField where
  /-- `undefined` or `null`. -/
  | nullish
  | string (code : String)
  | other
  deriving DecidableEq, Repr

/-- What `fetch` is rejected with. -/
structure Rejection where
  /-- It is an `Error`. -/
  isError : Bool := true
  name : String := "Error"
  code : CodeField := .nullish
  /-- The code of its cause, if it has one. -/
  causeCode : CodeField := .nullish
  deriving DecidableEq, Repr

/-- The codes that count as a failed connection. -/
def connectionErrorCodes : List String := ["UND_ERR_SOCKET", "ECONNRESET", "ECONNREFUSED", "EPIPE"]

/-- `isConnectionError`. -/
def isConnectionError (error : Rejection) : Bool :=
  if error.isError then
    match if error.code = .nullish then error.causeCode else error.code with
    | .string code => decide (code ∈ connectionErrorCodes)
    | .nullish | .other => decide (error.name = "TypeError")
  else false

/-! ## Requests -/

/-- `deadlineMs`. -/
inductive DeadlineField where
  | absent
  /-- Not a number, not finite, or not positive. -/
  | invalid (text : String)
  | ms (budget : Nat) (positive : 0 < budget)

structure ActorTransportConfig where
  /-- The headers, resolved. -/
  headers : List (String × String) := []
  retryConnectionErrors : Option Bool := none

structure SendInit where
  headers : List (String × String) := []
  deadlineMs : DeadlineField := .absent
  get : Bool := false
  oneWay : Bool := false

structure Request where
  method : String
  url : String
  headers : JsMap String String
  body : Option String

/-- `ACTOR_ROUTE_HEADER`. -/
def ACTOR_ROUTE_HEADER : String := "x-sigx-actor-route"

/-- `ACTOR_ONEWAY_HEADER`. -/
def ACTOR_ONEWAY_HEADER : String := "x-sigx-one-way"

/-- `ACTOR_DEADLINE_HEADER`. -/
def ACTOR_DEADLINE_HEADER : String := "x-sigx-deadline-ms"

/-- The headers of a call but the deadline: no one overrides the content type. -/
def headersFor (config : ActorTransportConfig) (init : SendInit) (token : Option String) :
    JsMap String String :=
  let headers := (config.headers ++ init.headers).foldl
    (fun headers q =>
      if q.1.toLower = "content-type" then headers else headers.assign q.1 q.2) .empty
  let headers := if init.get then headers else headers.set "content-type" "application/json"
  let headers := match token with
    | some token => headers.set ACTOR_ROUTE_HEADER token
    | none => headers
  if init.oneWay then headers.set ACTOR_ONEWAY_HEADER "1" else headers

/-! ## Sending -/

/-- What `fetch` makes of a request. -/
structure FetchOutcome (α : Type) where
  /-- The server has executed the method. -/
  executed : Bool
  result : Except Rejection α

/-- What `send` reads of the world. -/
structure SendEnv (α : Type) where
  fetch : Nat → FetchOutcome α
  /-- The clock where the deadline is anchored, and where it is stamped again. -/
  now : Nat := 0
  later : Nat := 0
  /-- The signal has fired when the first rejection is looked at. -/
  aborted : Bool := false

inductive SendError where
  /-- The deadline is refused. -/
  | deadline (message : String)
  | rejected (error : Rejection)

structure SendRun (α : Type) where
  outcome : Except SendError α
  requests : List Request

section

variable {α : Type} (config : ActorTransportConfig) (init : SendInit) (token : Option String)
  (path query body : String) (env : SendEnv α)

/-- The request, with a deadline header. -/
def requestFor (deadline : Option String) : Request :=
  let headers := headersFor config init token
  let headers := match deadline with
    | some text => headers.set ACTOR_DEADLINE_HEADER text
    | none => headers
  if init.get then
    { method := "GET", url := if query = "" then path else path ++ "?" ++ query
      headers := headers, body := none }
  else { method := "POST", url := path, headers := headers, body := some body }

/-- The retry is on, and the first rejection is one that it heals. -/
def retriesAfter (error : Rejection) : Bool :=
  decide (config.retryConnectionErrors ≠ some false) && !env.aborted && isConnectionError error

/-- `send`, from a deadline that was accepted on. -/
def sendWithin (first again : Option String) : SendRun α :=
  let request := requestFor config init token path query body first
  match (env.fetch 0).result with
  | .ok response => ⟨.ok response, [request]⟩
  | .error error =>
      if retriesAfter config env error then
        let retry := requestFor config init token path query body again
        ⟨(env.fetch 1).result.mapError .rejected, [request, retry]⟩
      else ⟨.error (.rejected error), [request]⟩

/-- `send`. -/
def send : SendRun α :=
  match init.deadlineMs with
  | .absent => sendWithin config init token path query body env none none
  | .invalid text =>
      ⟨.error (.deadline
        ("[sigx actors] deadlineMs must be a positive finite number of milliseconds, got " ++
          text ++ ".")), []⟩
  | .ms budget _ =>
      sendWithin config init token path query body env (some (toString budget))
        (some (toString (max 1 (env.now + budget - env.later))))

end

/-- How often the server has executed the method. -/
def SendRun.executions {α : Type} (run : SendRun α) (env : SendEnv α) : Nat :=
  (List.range run.requests.length).countP fun n => (env.fetch n).executed

/-- The first `fetch` is rejected, and in a way that is retried. -/
def Retried {α : Type} (config : ActorTransportConfig) (env : SendEnv α) : Prop :=
  ∃ error, (env.fetch 0).result = .error error ∧ retriesAfter config env error = true

section

variable {α : Type} {config : ActorTransportConfig} {init : SendInit} {token : Option String}
  {path query body : String} {env : SendEnv α}

/-- A request that was retried is followed by one more. -/
theorem requests_of_retried (first again : Option String) (h : Retried config env) :
    (sendWithin config init token path query body env first again).requests.length = 2 := by
  obtain ⟨error, herror, hretries⟩ := h
  unfold sendWithin
  simp only [herror, hretries, if_true, List.length_cons, List.length_nil]

/-- One that was not is the only one. -/
theorem requests_of_not_retried (first again : Option String) (h : ¬ Retried config env) :
    (sendWithin config init token path query body env first again).requests.length = 1 := by
  unfold sendWithin
  cases herror : (env.fetch 0).result with
  | ok response => rfl
  | error error =>
    have hretries : ¬ retriesAfter config env error = true :=
      fun hretries => h ⟨error, herror, hretries⟩
    simp only [if_neg hretries, List.length_singleton]

theorem executions_le_length (run : SendRun α) (env : SendEnv α) :
    run.executions env ≤ run.requests.length := by
  have := List.countP_le_length (p := fun n => (env.fetch n).executed) (l := List.range run.requests.length)
  rwa [List.length_range] at this

/-- One execution at most, where two requests are not both executed. -/
theorem executions_le_one_of_two {run : SendRun α} (hlength : run.requests.length = 2) :
    run.executions env ≤ 1 ↔ ((env.fetch 0).executed = true → (env.fetch 1).executed = false) := by
  have hrange : List.range 2 = [0, 1] := rfl
  unfold SendRun.executions
  rw [hlength, hrange]
  cases h0 : (env.fetch 0).executed <;> cases h1 : (env.fetch 1).executed <;> simp [h0, h1]

/-- **`send` executes a call at most once** just where a first request that is retried, and was
executed, is not executed again. -/
theorem send_atMostOnce_iff (config : ActorTransportConfig) (init : SendInit)
    (token : Option String) (path query body : String) (env : SendEnv α) :
    (send config init token path query body env).executions env ≤ 1 ↔
      ((∀ text, init.deadlineMs ≠ .invalid text) → Retried config env →
        (env.fetch 0).executed = true → (env.fetch 1).executed = false) := by
  have hwithin : ∀ first again : Option String,
      (sendWithin config init token path query body env first again).executions env ≤ 1 ↔
        (Retried config env → (env.fetch 0).executed = true → (env.fetch 1).executed = false) := by
    intro first again
    rcases Classical.em (Retried config env) with hretried | hnot
    · rw [executions_le_one_of_two (requests_of_retried first again hretried)]
      exact ⟨fun h _ => h, fun h => h hretried⟩
    · refine ⟨fun _ hretried => absurd hretried hnot, fun _ => ?_⟩
      have hle := executions_le_length
        (sendWithin config init token path query body env first again) env
      rwa [requests_of_not_retried first again hnot] at hle
  unfold send
  cases hdeadline : init.deadlineMs with
  | absent | ms => simp [hwithin]
  | invalid text => simp [SendRun.executions]

/-- A socket that is reset while the answer is awaited: the server has charged the card. -/
def resetAfterCharge : SendEnv String where
  fetch
    | 0 => { executed := true, result := .error { name := "TypeError", causeCode := .string "ECONNRESET" } }
    | _ => { executed := true, result := .ok "charged" }

/-- The reset counts as a failed connection, and the card is charged twice. -/
theorem not_send_atMostOnce : ¬ ∀ (init : SendInit) (env : SendEnv String), init.get = false →
      (send {} init none "/_sigx/actor/Card%23charge" "" "{}" env).executions env ≤ 1 := by
  intro honce
  exact absurd (honce {} resetAfterCharge rfl) (by decide)

end

end SigxActors.Client
