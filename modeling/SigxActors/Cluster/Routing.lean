/-
  Cluster/Routing.lean --- the placement's routing loop.

  Source: `#cacheRoute`, `#noteFailure` and `#routedDispatch` of
  `packages/actors/src/cluster/placement.ts`.

  One logical call is dispatched at most `retries + 1` times.  Each pass of the
  loop asks where the actor is, dispatches there, and on a failure lets
  `#noteFailure` decide from the error alone whether to go round again.  What
  the loop does not compute (which target was resolved, what the dispatch did,
  what the directory and the membership store answered) is the environment's
  and comes in a `Hop`, one for each pass, so a sequence of hops is a run.

  A `Delivery` says what became of the call on that hop, and in particular
  whether the METHOD BODY RAN: that is the one fact `executions` counts.  The
  loop never looks at it.  It sees only `Delivery.answer`, the value or the error
  the dispatcher's promise settled with, and an error a body threw on another
  host arrives through the wire with its brand intact (`relay`).
-/
import SigxActors.Types
import SigxActors.Cluster.WireErrors

set_option autoImplicit false

namespace SigxActors.Cluster

/-! ## The environment of one pass -/

/-- `'local' | HostDescriptor`, a remote target being named by its host id. -/
inductive Target where
  | here
  | remote (hostId : String)
  deriving DecidableEq, Repr, Inhabited

/-- The target is another host. -/
def Target.isRemote : Target → Bool
  | .here => false
  | .remote _ => true

/-- What became of the dispatch of one pass. -/
inductive Delivery (α : Type) where
  /-- The body never ran: the host refused the call before it, or no transport
  put it on the wire. -/
  | refused (error : Thrown)
  /-- The body ran and settled with `result`. -/
  | ran (result : Except Thrown α)
  /-- The call was sent and the body may have run, but its answer never came
  back: the transport failed the call with `error`. -/
  | lost (error : Thrown)
  deriving Repr

/-- The body may have run on this pass. -/
def Delivery.executed {α : Type} : Delivery α → Bool
  | .refused _ => false
  | .ran _ => true
  | .lost _ => true

/-- What the dispatcher's promise settles with.  A remote body's error comes
through the wire. -/
def Delivery.answer {α : Type} (remote : Bool) : Delivery α → Except Thrown α
  | .refused error => .error error
  | .lost error => .error error
  | .ran (.ok value) => .ok value
  | .ran (.error error) =>
      .error (if remote then relay "[sigx actors] host call failed" error else error)

/-- The answers of the directory and the membership store during one pass.  Any
of them may throw. -/
structure HopEnv where
  lookup : Except Thrown (Option DirectoryEntry) := .ok none
  isAlive : Except Thrown Bool := .ok true
  evict : Except Thrown Unit := .ok ()
  refresh : Except Thrown Unit := .ok ()

/-- Everything the environment decides in one pass of the loop. -/
structure Hop (α : Type) where
  resolve : Except Thrown Target
  delivery : Delivery α
  env : HopEnv := {}

/-! ## The placement's own state -/

/-- The counters the loop moves. -/
structure RoutingCounters where
  retries : Nat := 0
  dispatchesLocal : Nat := 0
  dispatchesRemote : Nat := 0
  routedLocal : Nat := 0
  remoteDispatches : Nat := 0
  remoteInflight : Nat := 0
  remoteInflightPeak : Nat := 0
  wrongHostRedirects : Nat := 0
  unreachableRetries : Nat := 0
  drainingRetries : Nat := 0
  overloadedReplies : Nat := 0
  directoryLookups : Nat := 0
  directoryEvictions : Nat := 0
  routingFailures : Nat := 0
  deriving DecidableEq, Repr, Inhabited

/-- `ROUTE_CACHE_MAX`. -/
def ROUTE_CACHE_MAX : Nat := 10000

/-- The routing half of the placement: its own host id, the location cache in
insertion order, and the counters. -/
structure RoutingState where
  self : String
  routeCache : List (String × String) := []
  counters : RoutingCounters := {}
  deriving DecidableEq, Repr, Inhabited

namespace RoutingState

/-- `this.#routeCache.delete(id)`. -/
def dropRoute (st : RoutingState) (id : String) : RoutingState :=
  { st with routeCache := st.routeCache.filter (fun e => e.1 != id) }

/-- `#cacheRoute`: at the cap the oldest entry goes; an entry is re-inserted at
the end. -/
def cacheRoute (st : RoutingState) (id hostId : String) : RoutingState :=
  let kept :=
    if st.routeCache.length ≥ ROUTE_CACHE_MAX then st.routeCache.drop 1 else st.routeCache
  { st with routeCache := kept.filter (fun e => e.1 != id) ++ [(id, hostId)] }

/-- Apply an update to the counters. -/
def count (st : RoutingState) (f : RoutingCounters → RoutingCounters) : RoutingState :=
  { st with counters := f st.counters }

end RoutingState

/-! ## Consuming a failure -/

/-- How `#noteFailure` tells the loop to retry. -/
inductive RetryClass where
  | wrongHost
  | unreachable
  | draining
  deriving DecidableEq, Repr, Inhabited

/-- The brand `#noteFailure` branches on: `none` is "not ours, rethrow". -/
def retryClass (error : Thrown) (remote : Bool) : Option RetryClass :=
  match error.kind? with
  | some .wrongHost => some .wrongHost
  | some .unreachable => some .unreachable
  | some .hostShutdown => if remote then some .draining else none
  | _ => none

/-- The `unreachable` branch past the cache: evict the claim of a dead owner, then
refresh the membership. -/
def noteUnreachable (env : HopEnv) (st : RoutingState) :
    Except Thrown (Option RetryClass) × RoutingState :=
  let st := st.count fun c => { c with directoryLookups := c.directoryLookups + 1 }
  match env.lookup with
  | .error e => (.error e, st)
  | .ok none => (env.refresh.map fun _ => some .unreachable, st)
  | .ok (some _) =>
      match env.isAlive with
      | .error e => (.error e, st)
      | .ok true => (env.refresh.map fun _ => some .unreachable, st)
      | .ok false =>
          let st := st.count fun c => { c with directoryEvictions := c.directoryEvictions + 1 }
          match env.evict with
          | .error e => (.error e, st)
          | .ok () => (env.refresh.map fun _ => some .unreachable, st)

/-- `#noteFailure`. -/
def noteFailure (env : HopEnv) (id : String) (error : Thrown) (remote : Bool)
    (st : RoutingState) : Except Thrown (Option RetryClass) × RoutingState :=
  match error with
  | .other _ _ => (.ok none, st)
  | .actor e =>
      match e.kind with
      | .wrongHost =>
          let st := (st.count fun c =>
            { c with wrongHostRedirects := c.wrongHostRedirects + 1 }).dropRoute id
          -- The redirect's owner is cached, unless the hint is empty or names us.
          let st :=
            match e.owner with
            | some owner =>
                if owner.hostId ≠ "" ∧ owner.hostId ≠ st.self then
                  st.cacheRoute id owner.hostId
                else st
            | none => st
          (.ok (some .wrongHost), st)
      | .unreachable =>
          noteUnreachable env ((st.count fun c =>
            { c with unreachableRetries := c.unreachableRetries + 1 }).dropRoute id)
      | .overloaded =>
          if remote then
            (.ok none, st.count fun c => { c with overloadedReplies := c.overloadedReplies + 1 })
          else (.ok none, st)
      | .hostShutdown =>
          if remote then
            let st := (st.count fun c =>
              { c with drainingRetries := c.drainingRetries + 1 }).dropRoute id
            (env.refresh.map fun _ => some .draining, st)
          else (.ok none, st)
      | _ => (.ok none, st)

/-- The verdict of `#noteFailure` is the brand's, or the throw of a store it had
to ask on the way: never a retry the brand does not name. -/
theorem noteFailure_fst (env : HopEnv) (id : String) (error : Thrown) (remote : Bool)
    (st : RoutingState) (c : RetryClass)
    (h : (noteFailure env id error remote st).1 = .ok (some c)) :
    retryClass error remote = some c := by
  cases error with
  | other m s => simp [noteFailure] at h
  | actor e =>
    cases hk : e.kind <;> simp only [noteFailure, hk] at h <;>
      simp only [retryClass, Thrown.kind?_actor, hk] at *
    case wrongHost => simpa using h
    case hostShutdown =>
      cases remote with
      | false => simp at h
      | true =>
        cases hr : env.refresh with
        | error e => simp [hr, Except.map] at h
        | ok u => simpa [hr, Except.map] using h
    case overloaded => cases remote <;> simp at h
    case unreachable =>
      simp only [noteUnreachable] at h
      split at h
      · simp at h
      · cases hr : env.refresh <;> simp_all [Except.map]
      · split at h
        · simp at h
        · cases hr : env.refresh <;> simp_all [Except.map]
        · split at h
          · simp at h
          · cases hr : env.refresh <;> simp_all [Except.map]
    all_goals simp at h

/-- With a store that answers, the verdict is exactly the brand's. -/
theorem noteFailure_default (id : String) (error : Thrown) (remote : Bool) (st : RoutingState) :
    (noteFailure {} id error remote st).1 = .ok (retryClass error remote) := by
  cases error with
  | other m s => rfl
  | actor e =>
    cases hk : e.kind <;>
      simp only [noteFailure, noteUnreachable, retryClass, Thrown.kind?_actor, hk] <;>
      cases remote <;> rfl

/-! ## The loop -/

/-- What the loop carries from one pass to the next.  `executions` counts the
passes on which the body may have run; the source has no such variable. -/
structure LoopState where
  st : RoutingState
  lastError : Option Thrown := none
  accounted : Bool := false
  executions : Nat := 0

/-- How a logical call ended. -/
structure Routed (α : Type) where
  result : Except Thrown α
  /-- The `cause` of a final `ActorActivationError`. -/
  cause : Option Thrown := none
  st : RoutingState
  executions : Nat

/-- The dispatch of one pass, with the counters that move around it. -/
def countDispatch (target : Target) (s : LoopState) : LoopState :=
  let st :=
    if s.accounted then s.st
    else s.st.count fun c =>
      if target.isRemote then { c with dispatchesRemote := c.dispatchesRemote + 1 }
      else { c with dispatchesLocal := c.dispatchesLocal + 1 }
  let st :=
    if target.isRemote then
      st.count fun c =>
        { c with
          remoteDispatches := c.remoteDispatches + 1
          remoteInflightPeak := max c.remoteInflightPeak (c.remoteInflight + 1) }
    else st.count fun c => { c with routedLocal := c.routedLocal + 1 }
  { s with st := st, accounted := true }

/-- `#routedDispatch`.  `left` passes remain; `hops` answers the next pass
first. -/
def routedLoop {α : Type} (ref : ActorRef) :
    (left attempt : Nat) → (Nat → Hop α) → LoopState → Routed α
  | 0, _, _, s =>
      { result := .error (ActorActivationError (actorLabel ref))
        cause := s.lastError
        st := s.st.count fun c => { c with routingFailures := c.routingFailures + 1 }
        executions := s.executions }
  | left + 1, attempt, hops, s =>
      let hop := hops attempt
      let s :=
        if attempt > 0 then
          { s with st := s.st.count fun c => { c with retries := c.retries + 1 } }
        else s
      match hop.resolve with
      | .error e =>
          if e.isActorErrorKind .unplaceable then
            routedLoop ref left (attempt + 1) hops { s with lastError := some e }
          else { result := .error e, st := s.st, executions := s.executions }
      | .ok target =>
          let s := countDispatch target s
          let s :=
            if hop.delivery.executed then { s with executions := s.executions + 1 } else s
          match hop.delivery.answer target.isRemote with
          | .ok value => { result := .ok value, st := s.st, executions := s.executions }
          | .error e =>
              let noted := noteFailure hop.env (actorId ref) e target.isRemote s.st
              match noted.1 with
              | .error thrown =>
                  { result := .error thrown, st := noted.2, executions := s.executions }
              | .ok none => { result := .error e, st := noted.2, executions := s.executions }
              | .ok (some _) =>
                  routedLoop ref left (attempt + 1) hops
                    { s with st := noted.2, lastError := some e }

/-- `#routedDispatch` from the placement state `st`. -/
def routedDispatch {α : Type} (ref : ActorRef) (retries : Nat) (st : RoutingState)
    (hops : Nat → Hop α) : Routed α :=
  routedLoop ref (retries + 1) 0 hops { st := st }

end SigxActors.Cluster
