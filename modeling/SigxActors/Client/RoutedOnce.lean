/-
  Client/RoutedOnce.lean --- when a routed call executes its method at most once.

  Which attempts a call makes depends on the answers alone: an attempt is made
  when every one before it has failed in a way that the wrapper follows or gives
  up a route for.  So a call executes its method once exactly when no attempt that
  has executed it fails in such a way.
-/
import SigxActors.Client.Routing

set_option autoImplicit false

namespace SigxActors.Client

open SigxActors.Js

variable {σ α : Type} {router : ActorRouter σ} {maxRedirects : Option Nat}
  {answers : Nat → Answer α} {ref : ActorRef} {init : ActorCallInit}

/-- The wrapper tries again: it follows a redirect, or gives up the route that it chose. -/
def retries (maxRedirects : Option Nat) (error : CallError) (route : Option String)
    (attempt : Nat) : Bool :=
  !Routing.exhausted maxRedirects attempt &&
    ((actorRedirect error).isSome || route.isSome && isStaleRouteFailure error)

/-- `nextRoute` goes on just where the wrapper tries again, and to where it was sent. -/
theorem nextRoute_snd (router : ActorRouter σ) (maxRedirects : Option Nat) (ref : ActorRef)
    (st : Routing σ) (error : CallError) (route : Option String) (attempt : Nat) :
    (st.nextRoute router maxRedirects error ref route attempt).2 =
      if retries maxRedirects error route attempt then
        .ok ((actorRedirect error).map (·.endpoint))
      else .error error := by
  unfold Routing.nextRoute retries
  cases hredirect : actorRedirect error with
  | some hint => cases hmax : Routing.exhausted maxRedirects attempt <;> simp
  | none =>
    cases route with
    | none => simp
    | some endpoint =>
      cases hmax : Routing.exhausted maxRedirects attempt <;>
        cases hstale : isStaleRouteFailure error <;> simp

/-- The endpoint of the `n`-th attempt, where the call gets that far. -/
def routeAt (answers : Nat → Answer α) (first : Option String) : Nat → Option String
  | 0 => first
  | n + 1 =>
      match (answers n).result with
      | .ok _ => none
      | .error error => (actorRedirect error).map (·.endpoint)

/-- The `n`-th attempt fails, and another follows. -/
def Followed (maxRedirects : Option Nat) (answers : Nat → Answer α) (first : Option String)
    (n : Nat) : Prop :=
  ∃ error, (answers n).result = .error error ∧
    retries maxRedirects error (routeAt answers first n) n = true

/-- The attempts that a call makes are those that every one before leads to. -/
theorem lt_attempts_iff {first : Option String} : ∀ (fuel attempt n : Nat) (st : Routing σ),
      n < (callLoop router maxRedirects answers ref init fuel attempt
        (routeAt answers first attempt) st).attempts.length ↔
      n < fuel ∧ ∀ m < n, Followed maxRedirects answers first (attempt + m) := by
  intro fuel
  induction fuel with
  | zero =>
    simp [callLoop]
  | succ fuel ih =>
    intro attempt n st
    rw [callLoop]
    cases hresult : (answers attempt).result with
    | ok value =>
      constructor
      · intro hn
        have hzero : n = 0 := by simpa using hn
        exact ⟨by omega, fun m hm => by omega⟩
      · rintro ⟨-, hall⟩
        cases n with
        | zero => simp
        | succ n =>
          obtain ⟨error, herror, -⟩ := hall 0 (Nat.succ_pos n)
          rw [Nat.add_zero, hresult] at herror
          exact absurd herror (by simp)
    | error error =>
      have hnext := nextRoute_snd router maxRedirects ref st error
        (routeAt answers first attempt) attempt
      have hfollowed : Followed maxRedirects answers first attempt ↔
          retries maxRedirects error (routeAt answers first attempt) attempt = true := by
        constructor
        · rintro ⟨other, hother, hretries⟩
          rw [hresult, Except.error.injEq] at hother
          exact hother ▸ hretries
        · exact fun hretries => ⟨error, hresult, hretries⟩
      cases hretries : retries maxRedirects error (routeAt answers first attempt) attempt with
      | false =>
        rw [hretries] at hfollowed hnext
        obtain ⟨next, hstop⟩ : ∃ next, st.nextRoute router maxRedirects error ref
            (routeAt answers first attempt) attempt = (next, .error error) := ⟨_, Prod.ext rfl hnext⟩
        simp only [hstop, List.length_singleton]
        constructor
        · intro hn
          exact ⟨by omega, fun m hm => by omega⟩
        · rintro ⟨-, hall⟩
          cases n with
          | zero => omega
          | succ n => exact absurd (hfollowed.1 (hall 0 (Nat.succ_pos n))) (by simp)
      | true =>
        rw [hretries] at hfollowed hnext
        have hstep : routeAt answers first (attempt + 1) =
            (actorRedirect error).map (·.endpoint) := by
          simp only [routeAt, hresult]
        obtain ⟨next, hgoes⟩ : ∃ next, st.nextRoute router maxRedirects error ref
            (routeAt answers first attempt) attempt =
              (next, .ok (routeAt answers first (attempt + 1))) :=
          ⟨_, Prod.ext rfl (hnext.trans (by rw [hstep]; rfl))⟩
        simp only [hgoes, List.length_cons]
        cases n with
        | zero => simp
        | succ n =>
          rw [Nat.succ_lt_succ_iff, ih (attempt + 1) n next, Nat.succ_lt_succ_iff]
          refine and_congr_right fun _ => ?_
          constructor
          · intro hall m hm
            cases m with
            | zero => exact hfollowed.2 rfl
            | succ m =>
              have := hall m (by omega)
              rwa [Nat.add_right_comm] at this
          · intro hall m hm
            have := hall (m + 1) (by omega)
            rwa [Nat.add_right_comm]

/-- The endpoint that the router chooses for a call. -/
def firstRoute (router : ActorRouter σ) (symbol : String) (init : ActorCallInit) (st : Routing σ) :
    Option String :=
  match init.ref with
  | some ref => (st.safeResolve router ref (contextOf symbol .call init)).2
  | none => none

/-- A call is made at most once: no attempt that has executed the method is followed by another,
so at most one has. -/
structure CallRun.AtMostOnce (run : CallRun σ α) (answers : Nat → Answer α) : Prop where
  retried : ∀ n, n + 1 < run.attempts.length → (answers n).executed = false
  executions : run.executions answers ≤ 1

/-- The last attempt alone may have executed the method. -/
theorem executions_le_one {run : CallRun σ α}
    (h : ∀ n, n + 1 < run.attempts.length → (answers n).executed = false) :
    run.executions answers ≤ 1 := by
  unfold CallRun.executions
  cases hlength : run.attempts.length with
  | zero => simp
  | succ n =>
    have hbefore : (List.range n).countP (fun m => (answers m).executed) = 0 := by
      rw [List.countP_eq_zero]
      intro m hm
      rw [h m (by rw [List.mem_range] at hm; omega)]
      simp
    rw [List.range_succ, List.countP_append, hbefore, List.countP_singleton]
    split <;> omega

/-- **A routed call executes its method at most once** just where no attempt that executes it is
followed: where one has failed below the redirect bound, with a redirect, or with no status or
a 5xx on an endpoint that was chosen for it, the method has not run. -/
theorem call_atMostOnce_iff (router : ActorRouter σ) (maxRedirects : Option Nat)
    (answers : Nat → Answer α) (symbol : String) (init : ActorCallInit) (st : Routing σ) :
    (∀ fuel, (call router maxRedirects answers symbol init st fuel).AtMostOnce answers) ↔
      (init.ref.isSome → ∀ n,
        (∀ m ≤ n, Followed maxRedirects answers (firstRoute router symbol init st) m) →
          (answers n).executed = false) := by
  cases href : init.ref with
  | none =>
    refine ⟨fun _ hsome => absurd hsome (by simp), fun _ fuel => ?_⟩
    have hone : ∀ n, n + 1 < (call router maxRedirects answers symbol init st fuel).attempts.length →
        (answers n).executed = false := by
      intro n hn
      simp only [call, href, List.length_singleton] at hn
      omega
    exact ⟨hone, executions_le_one hone⟩
  | some ref =>
    have hlt : ∀ fuel n, n < (call router maxRedirects answers symbol init st fuel).attempts.length ↔
        n < fuel ∧ ∀ m < n,
          Followed maxRedirects answers (firstRoute router symbol init st) m := by
      intro fuel n
      have hloop : call router maxRedirects answers symbol init st fuel =
          callLoop router maxRedirects answers ref init fuel 0
            (routeAt answers (firstRoute router symbol init st) 0)
            (st.safeResolve router ref (contextOf symbol .call init)).1 := by
        simp only [call, firstRoute, href, routeAt]
      rw [hloop, lt_attempts_iff]
      simp only [Nat.zero_add]
    constructor
    · intro honce _ n hfollowed
      refine (honce (n + 2)).retried n ((hlt _ _).2 ⟨by omega, fun m hm => hfollowed m (by omega)⟩)
    · intro hcond fuel
      have hretried : ∀ n,
          n + 1 < (call router maxRedirects answers symbol init st fuel).attempts.length →
            (answers n).executed = false := by
        intro n hn
        exact hcond rfl n fun m hm => ((hlt _ _).1 hn).2 m (by omega)
      exact ⟨hretried, executions_le_one hretried⟩

/-- A router that names one endpoint for every actor. -/
def pinned (endpoint : String) : ActorRouter Unit where
  resolve _ _ _ := ((), .answer endpoint)

/-- An order is placed, and throws behind that: the server masks the error as a 500. -/
def maskedFailure : Nat → Answer String
  | 0 => { executed := true, result := .error { status := .number 500 } }
  | _ => { executed := true, result := .ok "placed" }

/-- The call for one cart. -/
def placeOrder : ActorCallInit := { ref := some ⟨"Cart", "c-1"⟩ }

/-- The masked failure is taken for a host that is unwell, and the order is placed twice. -/
theorem not_call_atMostOnce :
    ¬ ∀ (router : ActorRouter Unit) (answers : Nat → Answer String) (init : ActorCallInit)
      (fuel : Nat),
      (call router DEFAULT_MAX_REDIRECTS answers "Cart#placeOrder" init ⟨(), {}⟩ fuel).AtMostOnce
        answers := by
  intro honce
  have htwice := (honce (pinned "https://host-3") maskedFailure placeOrder 2).executions
  exact absurd htwice (by decide)

end SigxActors.Client
