/-
  Cluster/RoutingAtMostOnce.lean --- how often one logical call runs its body.

  The architecture notes give the router's retries a meaning: each of the three
  classifications it re-dispatches on "is a claim about execution", and
  `unreachable` in particular says that the call provably never executed.  The
  transport keeps its half of that contract.  The loop, however, reads the
  claim off the error's BRAND, and a method body may reject with a brand of its
  own: a nested call that failed, relayed by the body, is indistinguishable from
  a refusal of this call.

  This module proves where that leaves the guarantee.  A `CallProfile` is what an
  executed call may settle with and what a transport may report for a call it
  sent.  `routedDispatch_atMostOnce_iff`: every run of the loop over the profile
  executes the body at most once exactly when the loop has no retry to spend, or
  no such outcome carries a brand the router retries.
-/
import SigxActors.Cluster.Routing

set_option autoImplicit false

namespace SigxActors.Cluster

/-! ## Brands -/

variable {e : Thrown} {α : Type}

/-- `#noteFailure` reads nothing of an error but its kind. -/
theorem retryClass_congr {e' : Thrown} (h : e.kind? = e'.kind?) (remote : Bool) :
    retryClass e remote = retryClass e' remote := by
  simp [retryClass, h]

theorem retryClass_relay (fallback : String) (e : Thrown) (remote : Bool) :
    retryClass (relay fallback e) remote = retryClass e remote :=
  retryClass_congr (relay_kind? fallback e) remote

/-- Whatever is retried from a local target is retried from a remote one. -/
theorem retryClass_here (h : retryClass e true = none) (remote : Bool) :
    retryClass e remote = none := by
  cases remote with
  | true => exact h
  | false =>
    revert h
    unfold retryClass
    split <;> simp

/-! ## What an executed call may look like -/

/-- What the loop may meet of a call that was executed: the outcomes its method
body may settle with, and the errors a transport may raise for a call it sent.
The transport's half of the retry contract is a field: it raises `unreachable`
for no such call. -/
structure CallProfile (α : Type) where
  /-- What the method body may settle with. -/
  settles : Except Thrown α → Prop
  /-- What a transport may raise for a call that left this host. -/
  lost : Thrown → Prop
  lost_sound : ∀ e, lost e → e.isActorErrorKind .unreachable = false

/-- The delivery of one pass stays within the profile.  Refusals are free: any
error may be raised for a call that never ran. -/
def CallProfile.Conforms {α : Type} (profile : CallProfile α) (hop : Hop α) : Prop :=
  match hop.delivery with
  | .refused _ => True
  | .ran result => profile.settles result
  | .lost error => profile.lost error

/-- No outcome of an executed call carries a brand `#noteFailure` retries. -/
def CallProfile.NeverRetried {α : Type} (profile : CallProfile α) : Prop :=
  (∀ e, profile.settles (.error e) → retryClass e true = none) ∧
    ∀ e, profile.lost e → retryClass e true = none

/-- The answer to an executed call of a never-retried profile ends the loop. -/
theorem CallProfile.NeverRetried.answer {profile : CallProfile α} (hnever : profile.NeverRetried)
    {hop : Hop α} (hconf : profile.Conforms hop) (hexec : hop.delivery.executed = true)
    {remote : Bool} (hans : hop.delivery.answer remote = .error e) :
    retryClass e remote = none := by
  unfold CallProfile.Conforms at hconf
  cases hd : hop.delivery with
  | refused error => simp [hd, Delivery.executed] at hexec
  | lost error =>
    simp only [hd, Delivery.answer, Except.error.injEq] at hconf hans
    subst hans
    exact retryClass_here (hnever.2 _ hconf) remote
  | ran result =>
    cases result with
    | ok value => simp [hd, Delivery.answer] at hans
    | error error =>
      simp only [hd, Delivery.answer, Except.error.injEq] at hconf hans
      subst hans
      have hnone := hnever.1 _ hconf
      cases remote with
      | true => simpa [retryClass_relay] using hnone
      | false => exact retryClass_here hnone false

/-! ## At most once -/

@[simp] theorem countDispatch_executions (target : Target) (s : LoopState) :
    (countDispatch target s).executions = s.executions := rfl

/-- One run of the loop over a never-retried profile adds at most one execution.
The induction is on the passes left: a pass that executes the body ends the
loop, and a pass that does not leaves the count alone. -/
theorem routedLoop_executions_le {profile : CallProfile α} (hnever : profile.NeverRetried)
    (ref : ActorRef) {hops : Nat → Hop α} (hconf : ∀ n, profile.Conforms (hops n)) :
    ∀ (left attempt : Nat) (s : LoopState),
      (routedLoop ref left attempt hops s).executions ≤ s.executions + 1 := by
  intro left
  induction left with
  | zero => intro attempt s; simp [routedLoop]
  | succ left ih =>
    intro attempt s
    rw [routedLoop]
    -- Counting the retry moves no execution.
    generalize hs : (if attempt > 0 then _ else s : LoopState) = s'
    have hs' : s'.executions = s.executions := by
      rw [← hs]; split <;> rfl
    cases hr : (hops attempt).resolve with
    | error e =>
      simp only
      split
      · have := ih (attempt + 1) { s' with lastError := some e }
        simpa [hs'] using this
      · simp [hs']
    | ok target =>
      by_cases hx : (hops attempt).delivery.executed = true
      · simp only [hx, if_true]
        cases ha : (hops attempt).delivery.answer target.isRemote with
        | ok value => simp [hs']
        | error e =>
          have hnone := hnever.answer (hconf attempt) hx ha
          simp only
          split
          · simp [hs']
          · simp [hs']
          · rename_i c hnote
            have := noteFailure_fst _ _ _ _ _ c hnote
            simp [hnone] at this
      · simp only [hx, if_false, Bool.false_eq_true]
        cases ha : (hops attempt).delivery.answer target.isRemote with
        | ok value => simp [hs']
        | error e =>
          simp only
          split
          · simp [hs']
          · simp [hs']
          · refine Nat.le_trans (ih (attempt + 1) _) ?_
            simp [hs']

/-- A call whose every pass reaches another host and is answered there by an
executed body (or a lost reply) with a retried brand executes on every pass. -/
theorem routedLoop_executions_of_retried (ref : ActorRef) (hostId : String) {delivery : Delivery α}
    (hexec : delivery.executed = true) (hans : delivery.answer true = .error e)
    (hretry : retryClass e true ≠ none) :
    ∀ (left attempt : Nat) (s : LoopState),
      (routedLoop ref left attempt
        (fun _ => { resolve := .ok (.remote hostId), delivery := delivery }) s).executions =
        s.executions + left := by
  intro left
  induction left with
  | zero => intro attempt s; rfl
  | succ left ih =>
    intro attempt s
    rw [routedLoop]
    obtain ⟨c, hc⟩ := Option.ne_none_iff_exists'.mp hretry
    generalize hs : (if attempt > 0 then _ else s : LoopState) = s'
    have hs' : s'.executions = s.executions := by
      rw [← hs]; split <;> rfl
    simp only [hexec, hans, Target.isRemote, noteFailure_default, hc, if_true]
    rw [ih]
    simp [hs']
    omega

/-- A single pass executes at most once whatever it is answered. -/
theorem routedLoop_one_le (ref : ActorRef) (hops : Nat → Hop α) (s : LoopState) :
    (routedLoop ref 1 0 hops s).executions ≤ s.executions + 1 := by
  simp only [routedLoop]
  repeat' split
  all_goals simp_all

/-- **When a logical call runs its body at most once.**  Over every sequence of
resolved targets, store answers and deliveries within the profile, the body of
one logical call is executed at most once if and only if the loop has no retry
to spend, or no outcome of an executed call carries a brand that
`#noteFailure` retries. -/
theorem routedDispatch_atMostOnce_iff {α : Type} (profile : CallProfile α) (ref : ActorRef)
    (retries : Nat) (st : RoutingState) : (∀ hops : Nat → Hop α, (∀ n, profile.Conforms (hops n)) →
        (routedDispatch ref retries st hops).executions ≤ 1) ↔
      (retries = 0 ∨ profile.NeverRetried) := by
  constructor
  · intro hall
    cases retries with
    | zero => exact Or.inl rfl
    | succ retries =>
      right
      -- A retried outcome, met on every pass, would be executed on every pass.
      have hnone : ∀ (delivery : Delivery α) (e : Thrown),
          profile.Conforms { resolve := .ok (.remote "peer"), delivery := delivery } →
          delivery.executed = true → delivery.answer true = .error e →
          retryClass e true = none := by
        intro delivery e hconf hexec hans
        refine Classical.byContradiction fun hretry => ?_
        have hle := hall _ (fun _ => hconf)
        rw [routedDispatch,
          routedLoop_executions_of_retried ref "peer" hexec hans hretry] at hle
        simp at hle
      refine ⟨fun e he => ?_, fun e he => ?_⟩
      · have := hnone (.ran (.error e)) _ he rfl rfl
        simpa [retryClass_relay] using this
      · exact hnone (.lost e) e he rfl rfl
  · rintro (rfl | hnever) hops hconf
    · exact routedLoop_one_le ref hops { st := st }
    · exact routedLoop_executions_le hnever ref hconf (retries + 1) 0 { st := st }

/-! ## The brand a body relays -/

/-- The transport keeps its half of the contract on this pass. -/
def Hop.SoundTransport {α : Type} (hop : Hop α) : Prop :=
  ∀ e, hop.delivery = .lost e → e.isActorErrorKind .unreachable = false

/-- A local pass whose body awaited a nested call, got `ActorUnreachableError`,
and let it propagate. -/
def nestedUnreachable : Hop Unit :=
  { resolve := .ok .here
    delivery := .ran (.error (ActorUnreachableError "host-2")) }

/-- With the default three retries, a body that lets a nested call's
`ActorUnreachableError` propagate is executed more than once, although no
transport ever raised it. -/
theorem not_atMostOnce_nestedUnreachable :
    ¬ ∀ hops : Nat → Hop Unit, (∀ n, (hops n).SoundTransport) →
      (routedDispatch ⟨"Cart", "a"⟩ 3 { self := "host-1" } hops).executions ≤ 1 := by
  intro hall
  have hsound : ∀ _ : Nat, nestedUnreachable.SoundTransport := by
    intro _ e h
    simp [nestedUnreachable] at h
  have hle := hall (fun _ => nestedUnreachable) hsound
  have hfour :
      (routedDispatch ⟨"Cart", "a"⟩ 3 { self := "host-1" }
        (fun _ => nestedUnreachable)).executions = 4 := by decide
  omega

end SigxActors.Cluster
