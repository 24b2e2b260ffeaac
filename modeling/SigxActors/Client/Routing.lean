/-
  Client/Routing.lean --- the client's routed transport, for unary calls.

  Source: `packages/actors/src/client/routing.ts` (`actorRedirect`,
  `isStaleRouteFailure`, `routedTransport`).

  A router is user code over a state of its own, and what it answers and whether
  it throws is its own affair.  So is what the inner transport makes of an
  attempt: it answers or fails, and the method has run or not.  The wrapper sees
  the answer only; that the method has run is what the attempts are judged by.

  An unbounded number of redirects is `none`, so a call is followed for a number
  of attempts that is a parameter.
-/
import SigxActors.Types
import SigxActors.Js.Map

set_option autoImplicit false

namespace SigxActors.Client

open SigxActors.Js

/-! ## Failures -/

/-- `error.status`. -/
inductive StatusField where
  | undefined
  | number (status : Int)
  /-- Neither. -/
  | other
  deriving DecidableEq, Repr

/-- `error.data`, as routing reads it; a field that is no string is none. -/
structure FailureData where
  kind : Option String := none
  endpoint : Option String := none
  hostId : Option String := none
  deriving DecidableEq, Repr

/-- What an attempt fails with. -/
structure CallError where
  message : String := ""
  status : StatusField := .undefined
  data : Option FailureData := none
  deriving DecidableEq, Repr

structure ActorRouteRedirect where
  endpoint : String
  hostId : Option String
  deriving DecidableEq, Repr

/-- `actorRedirect`. -/
def actorRedirect (error : CallError) : Option ActorRouteRedirect :=
  match error.data with
  | some data =>
      if data.kind = some "wrong-host" then
        match data.endpoint with
        | some endpoint => if endpoint = "" then none else some ⟨endpoint, data.hostId⟩
        | none => none
      else none
  | none => none

/-- `isStaleRouteFailure`. -/
def isStaleRouteFailure (error : CallError) : Bool :=
  match error.status with
  | .undefined => true
  | .number status => decide (500 ≤ status)
  | .other => false

/-! ## Routers -/

inductive RouteMode where
  | call
  | stream
  deriving DecidableEq, Repr

structure ActorRouteContext where
  symbol : String
  method : String
  mode : RouteMode
  endpoint : String
  deriving DecidableEq, Repr

/-- What `resolve` comes to. -/
inductive Resolved where
  | noOpinion
  | answer (endpoint : String)
  /-- No string. -/
  | unusable
  | threw
  deriving DecidableEq, Repr

/-- A router; `learn` and `invalidate` say whether they have thrown. -/
structure ActorRouter (σ : Type) where
  resolve : σ → ActorRef → ActorRouteContext → σ × Resolved
  learn : Option (σ → ActorRef → String → σ × Bool) := none
  invalidate : Option (σ → String → σ × Bool) := none

structure ActorRoutingStats where
  routed : Nat := 0
  redirects : Nat := 0
  invalidations : Nat := 0
  routerErrors : Nat := 0
  deriving DecidableEq, Repr

/-- `ActorCallInit`, as routing reads and writes it. -/
structure ActorCallInit where
  ref : Option ActorRef := none
  endpoint : Option String := none
  route : Option String := none
  headers : JsMap String String := .empty

/-- `ACTOR_FOLLOW_HEADER`. -/
def ACTOR_FOLLOW_HEADER : String := "x-sigx-actor-follow"

/-- `ACTOR_HOPS_HEADER`. -/
def ACTOR_HOPS_HEADER : String := "x-sigx-actor-hops"

/-- `DEFAULT_MAX_REDIRECTS`. -/
def DEFAULT_MAX_REDIRECTS : Option Nat := some 2

/-- The state of the wrapper. -/
structure Routing (σ : Type) where
  router : σ
  stats : ActorRoutingStats := {}

namespace Routing

variable {σ : Type} (router : ActorRouter σ) (st : Routing σ)

def count (f : ActorRoutingStats → ActorRoutingStats) : Routing σ := { st with stats := f st.stats }

def routerError : Routing σ := st.count fun s => { s with routerErrors := s.routerErrors + 1 }

/-- `quietly`, of a callback that the router may not have. -/
def quietly (run : Option (σ → σ × Bool)) : Routing σ :=
  match run with
  | some run =>
      let (state, threw) := run st.router
      let st := { st with router := state }
      if threw then st.routerError else st
  | none => st

/-- `safeResolve`. -/
def safeResolve (ref : ActorRef) (ctx : ActorRouteContext) : Routing σ × Option String :=
  let (state, resolved) := router.resolve st.router ref ctx
  let st := { st with router := state }
  match resolved with
  | .noOpinion => (st, none)
  | .answer endpoint =>
      if endpoint = "" then (st.routerError, none)
      else (st.count fun s => { s with routed := s.routed + 1 }, some endpoint)
  | .unusable | .threw => (st.routerError, none)

/-- `attempt >= maxRedirects`. -/
def exhausted (maxRedirects : Option Nat) (attempt : Nat) : Bool :=
  match maxRedirects with
  | some bound => decide (bound ≤ attempt)
  | none => false

/-- `nextRoute`: the next endpoint to try, or the error thrown. -/
def nextRoute (maxRedirects : Option Nat) (error : CallError) (ref : ActorRef)
    (route : Option String) (attempt : Nat) : Routing σ × Except CallError (Option String) :=
  match actorRedirect error with
  | some hint =>
      if exhausted maxRedirects attempt then (st, .error error)
      else
        let st := st.count fun s => { s with redirects := s.redirects + 1 }
        (st.quietly (router.learn.map fun learn s => learn s ref hint.endpoint),
          .ok (some hint.endpoint))
  | none =>
      match route with
      | some endpoint =>
          if exhausted maxRedirects attempt = false ∧ isStaleRouteFailure error then
            let st := st.count fun s => { s with invalidations := s.invalidations + 1 }
            (st.quietly (router.invalidate.map fun invalidate s => invalidate s endpoint), .ok none)
          else (st, .error error)
      | none => (st, .error error)

end Routing

/-- `initFor`. -/
def initFor (init : ActorCallInit) (route : Option String) (attempt : Nat) : ActorCallInit :=
  let headers := init.headers.set ACTOR_FOLLOW_HEADER "1"
  { init with
    route := route.or init.route
    headers := if attempt > 0 then headers.set ACTOR_HOPS_HEADER (toString attempt) else headers }

/-- The method of a symbol: what comes behind its last `#`, unless it begins with that. -/
def methodOf (symbol : String) : String :=
  let behind := symbol.toList.reverse.takeWhile (· ≠ '#')
  let before := symbol.toList.length - behind.length - 1
  if behind.length < symbol.toList.length ∧ 0 < before then String.ofList behind.reverse else symbol

/-- `context`. -/
def contextOf (symbol : String) (mode : RouteMode) (init : ActorCallInit) : ActorRouteContext where
  symbol := symbol
  method := methodOf symbol
  mode := mode
  endpoint := (init.route.or init.endpoint).getD ""

/-! ## A call -/

/-- What the inner transport makes of one attempt. -/
structure Answer (α : Type) where
  /-- The method has run. -/
  executed : Bool
  result : Except CallError α

/-- A call, as far as it has come. -/
structure CallRun (σ α : Type) where
  /-- None while it goes on. -/
  outcome : Option (Except CallError α)
  attempts : List ActorCallInit
  routing : Routing σ

section

variable {σ α : Type} (router : ActorRouter σ) (maxRedirects : Option Nat)
  (answers : Nat → Answer α) (ref : ActorRef) (init : ActorCallInit)

/-- The loop of `call`, for `fuel` more attempts. -/
def callLoop : Nat → Nat → Option String → Routing σ → CallRun σ α
  | 0, _, _, st => ⟨none, [], st⟩
  | fuel + 1, attempt, route, st =>
      let sent := initFor init route attempt
      match (answers attempt).result with
      | .ok value => ⟨some (.ok value), [sent], st⟩
      | .error error =>
          match st.nextRoute router maxRedirects error ref route attempt with
          | (st, .ok route) =>
              let run := callLoop fuel (attempt + 1) route st
              { run with attempts := sent :: run.attempts }
          | (st, .error error) => ⟨some (.error error), [sent], st⟩

end

/-- `call`. -/
def call {σ α : Type} (router : ActorRouter σ) (maxRedirects : Option Nat)
    (answers : Nat → Answer α) (symbol : String) (init : ActorCallInit) (st : Routing σ)
    (fuel : Nat) : CallRun σ α :=
  match init.ref with
  | none => ⟨some (answers 0).result, [init], st⟩
  | some ref =>
      let (st, route) := st.safeResolve router ref (contextOf symbol .call init)
      callLoop router maxRedirects answers ref init fuel 0 route st

/-- How many of its attempts have executed the method. -/
def CallRun.executions {σ α : Type} (run : CallRun σ α) (answers : Nat → Answer α) : Nat :=
  (List.range run.attempts.length).countP fun n => (answers n).executed

end SigxActors.Client
