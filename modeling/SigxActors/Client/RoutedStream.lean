/-
  Client/RoutedStream.lean --- the client's routed transport, for streams.

  Source: `packages/actors/src/client/routing.ts` (`routedTransport`, `stream`).

  The generator is suspended at its start, at a `yield`, or behind an `await`, and
  takes the requests of its consumer one by one: those made while it runs are
  queued.  What the inner transport and its iterators do is up to the label.

  An inner iterator is open from the moment it is made until its `next` has ended
  or failed, or its `return` was called.
-/
import SigxActors.Client.Routing
import SigxActors.Machine.Transition

set_option autoImplicit false

namespace SigxActors.Client

/-- What the consumer asks of the generator. -/
inductive StreamRequest where
  | next
  | return_
  | throw_ (error : CallError)
  deriving DecidableEq, Repr

/-- What has become of an inner iterator. -/
inductive IteratorFate where
  | opened
  /-- Its `next` was done. -/
  | ended
  /-- Its `next` was rejected. -/
  | failed
  /-- Its `return` was called. -/
  | returned
  deriving DecidableEq, Repr

/-- Where the generator is. -/
inductive StreamPoint where
  | start
  /-- It opens the inner stream of an attempt. -/
  | opening (attempt : Nat) (route : Option String)
  /-- It awaits the first value. -/
  | first (attempt : Nat) (route : Option String)
  /-- It awaits the `return` of the iterator that has failed. -/
  | releasing (attempt : Nat) (route : Option String) (error : CallError)
  | yielded
  /-- It awaits a later value. -/
  | later
  /-- It is over, by an error or not. -/
  | over_ (error : Option CallError)
  deriving DecidableEq, Repr

/-- Its next step is a request of the consumer. -/
def StreamPoint.parked : StreamPoint → Bool
  | .start | .yielded => true
  | _ => false

/-- It stands at an inner iterator that is open. -/
def StreamPoint.holds : StreamPoint → Bool
  | .first .. | .yielded | .later => true
  | _ => false

/-- What `next` of an inner iterator comes to. -/
inductive IteratorStep where
  | value
  /-- The value is a promise, and the `yield` that awaits it throws. -/
  | rejected (error : CallError)
  | done
  | failed (error : CallError)
  deriving DecidableEq, Repr

structure RoutedStream (σ : Type) where
  routing : Routing σ
  point : StreamPoint := .start
  requests : List StreamRequest := []
  /-- Every iterator that the inner transport was asked for, the latest last. -/
  iterators : List IteratorFate := []
  /-- The init of every attempt. -/
  attempts : List ActorCallInit := []

inductive StreamLabel where
  | request (request : StreamRequest)
  /-- The first request is taken. -/
  | resume
  /-- The inner transport makes an iterator, or throws. -/
  | open_ (error : Option CallError)
  /-- `iterator.next()` settles. -/
  | step (step : IteratorStep)
  /-- `iterator.return` is not there, settles, or throws at once. -/
  | release (error : Option CallError)

/-- What the generator was made with. -/
structure StreamCall (σ : Type) where
  router : ActorRouter σ
  maxRedirects : Option Nat
  symbol : String
  ref : ActorRef
  init : ActorCallInit

namespace RoutedStream

variable {σ : Type} (c : StreamCall σ) (s : RoutedStream σ)

/-- What becomes of the latest iterator. -/
def settle (fate : IteratorFate) : RoutedStream σ :=
  { s with iterators := s.iterators.dropLast ++ [fate] }

/-- The generator takes a request. -/
def take (request : StreamRequest) : RoutedStream σ :=
  match s.point, request with
  | .start, .next =>
      let (routing, route) :=
        s.routing.safeResolve c.router c.ref (contextOf c.symbol .stream c.init)
      { s with routing := routing, point := .opening 0 route }
  | .yielded, .next => { s with point := .later }
  | _, .return_ => { s with point := .over_ none }
  | _, .throw_ error => { s with point := .over_ (some error) }
  | _, .next => s

/-- `nextRoute`, and the next attempt or the end. -/
def reroute (attempt : Nat) (route : Option String) (error : CallError) : RoutedStream σ :=
  match s.routing.nextRoute c.router c.maxRedirects error c.ref route attempt with
  | (routing, .ok route) => { s with routing := routing, point := .opening (attempt + 1) route }
  | (routing, .error error) => { s with routing := routing, point := .over_ (some error) }

/-- The inner iterator answers. -/
def answered (step : IteratorStep) : Option (RoutedStream σ) :=
  match s.point, step with
  | .first _ _, .value | .later, .value => some { s with point := .yielded }
  | .first _ _, .rejected error | .later, .rejected error =>
      some { s with point := .over_ (some error) }
  | .first _ _, .done | .later, .done => some { s.settle .ended with point := .over_ none }
  | .first attempt route, .failed error =>
      some { s.settle .failed with point := .releasing attempt route error }
  | .later, .failed error => some { s.settle .failed with point := .over_ (some error) }
  | _, _ => none

/-- One step. -/
def step : StreamLabel → Option (RoutedStream σ)
  | .request request => some { s with requests := s.requests ++ [request] }
  | .resume =>
      match s.point.parked, s.requests with
      | true, request :: rest => some ({ s with requests := rest }.take c request)
      | _, _ => none
  | .open_ error =>
      match s.point with
      | .opening attempt route =>
          let s := { s with attempts := s.attempts ++ [initFor c.init route attempt] }
          match error with
          | none => some { s with iterators := s.iterators ++ [.opened], point := .first attempt route }
          | some error => some { s with point := .over_ (some error) }
      | _ => none
  | .step step => s.answered step
  | .release error =>
      match s.point with
      | .releasing attempt route failure =>
          match error with
          | none => some (s.reroute c attempt route failure)
          | some error => some { s with point := .over_ (some error) }
      | _ => none

end RoutedStream

/-- The machine of one routed stream. -/
def routedStream {σ : Type} (c : StreamCall σ) : Machine.System (RoutedStream σ) StreamLabel where
  initial s := ∃ routing, s = { routing := routing }
  step s l := s.step c l

namespace RoutedStream

variable {σ : Type} {c : StreamCall σ} {s t : RoutedStream σ}

/-- What the generator owes its inner iterators: one is open at most, and none when it is over. -/
structure Releases (s : RoutedStream σ) : Prop where
  one : s.iterators.count .opened ≤ 1
  over_ : ∀ error, s.point = .over_ error → .opened ∉ s.iterators

/-- Nothing stops the generator at a value: the consumer asks for the next one, and no value
fails. -/
def GoesOn (s : RoutedStream σ) : StreamLabel → Prop
  | .resume => s.point = .yielded → s.requests.head? = some .next
  | .step (.rejected _) => False
  | _ => True

/-- Every iterator but the latest is settled, and the latest is open where the generator stands
at it. -/
def Tidy (s : RoutedStream σ) : Prop :=
  ∃ settled : List IteratorFate, .opened ∉ settled ∧
    s.iterators = if s.point.holds then settled ++ [.opened] else settled

section

variable (h : s.Tidy)
include h

theorem Tidy.releases : s.Releases := by
  obtain ⟨settled, hnone, hiterators⟩ := h
  have hzero : settled.count .opened = 0 := List.count_eq_zero.2 hnone
  constructor
  · rw [hiterators]
    split
    · rw [List.count_append, hzero]
      decide
    · rw [hzero]
      exact Nat.zero_le 1
  · intro error hover
    rw [hiterators, hover]
    exact hnone

/-- The generator has moved between points where it stands at no iterator. -/
theorem Tidy.move (hiterators : t.iterators = s.iterators)
    (hpoint : t.point.holds = s.point.holds) : t.Tidy := by
  obtain ⟨settled, hnone, hs⟩ := h
  exact ⟨settled, hnone, by rw [hiterators, hpoint, hs]⟩

/-- The open iterator is settled. -/
theorem Tidy.settle (hpoint : s.point.holds = true) {fate : IteratorFate}
    (hfate : fate ≠ .opened) (hiterators : t.iterators = (s.settle fate).iterators)
    (hpoint' : t.point.holds = false) : t.Tidy := by
  obtain ⟨settled, hnone, hs⟩ := h
  rw [hpoint, if_pos rfl] at hs
  refine ⟨settled ++ [fate], ?_, ?_⟩
  · rw [List.mem_append, List.mem_singleton]
    rintro (hmem | hmem)
    · exact hnone hmem
    · exact hfate hmem.symm
  · rw [hiterators, hpoint', RoutedStream.settle, hs, List.dropLast_concat]
    rfl

theorem Tidy.answered {step : IteratorStep} (hok : s.GoesOn (.step step))
    (hstep : s.answered step = some t) : t.Tidy := by
  have hholds : ∀ {point}, s.point = point → point.holds = true → s.point.holds = true :=
    fun hpoint hheld => hpoint ▸ hheld
  cases step with
  | value =>
    cases hpoint : s.point <;> simp only [RoutedStream.answered, hpoint] at hstep <;> cases hstep
    · exact h.move rfl (hholds hpoint rfl).symm
    · exact h.move rfl (hholds hpoint rfl).symm
  | rejected error => exact hok.elim
  | done | failed =>
    cases hpoint : s.point <;> simp only [RoutedStream.answered, hpoint] at hstep <;> cases hstep
    · exact h.settle (hholds hpoint rfl) (by simp) rfl rfl
    · exact h.settle (hholds hpoint rfl) (by simp) rfl rfl

/-- A request that is taken where the generator starts, or that asks for the next value. -/
theorem Tidy.take {request : StreamRequest} (hparked : s.point.parked = true)
    (hnext : s.point = .yielded → request = .next) : (s.take c request).Tidy := by
  cases hpoint : s.point with
  | start =>
    cases request <;> simp only [RoutedStream.take, hpoint]
    · exact h.move rfl (by rw [hpoint]; rfl)
    · exact h.move rfl (by rw [hpoint]; rfl)
    · exact h.move rfl (by rw [hpoint]; rfl)
  | yielded =>
    obtain rfl := hnext hpoint
    simp only [RoutedStream.take, hpoint]
    exact h.move rfl (by rw [hpoint]; rfl)
  | _ =>
    rw [hpoint] at hparked
    cases hparked

/-- Where an attempt has failed its iterator is settled, whatever comes next. -/
theorem Tidy.reroute {attempt : Nat} {route : Option String} {error : CallError}
    (hpoint : s.point.holds = false) : (s.reroute c attempt route error).Tidy := by
  unfold RoutedStream.reroute
  split <;> exact h.move rfl hpoint.symm

/-- An attempt opens its iterator where none is open. -/
theorem Tidy.open_ (hpoint : s.point.holds = false)
    (hiterators : t.iterators = s.iterators ++ [.opened]) (hpoint' : t.point.holds = true) :
    t.Tidy := by
  obtain ⟨settled, hnone, hs⟩ := h
  rw [hpoint] at hs
  exact ⟨settled, hnone, by rw [hiterators, hpoint', hs]; rfl⟩

theorem Tidy.step {l : StreamLabel} (hok : s.GoesOn l) (hstep : s.step c l = some t) : t.Tidy := by
  cases l with simp only [RoutedStream.step] at hstep
  | request request => exact Option.some.inj hstep ▸ h.move rfl rfl
  | resume =>
    split at hstep
    · rename_i request rest hparked hrequests
      cases hstep
      have hpopped : Tidy { s with requests := rest } := h.move rfl rfl
      refine hpopped.take hparked fun hyielded => ?_
      have hhead := hok hyielded
      rw [hrequests, List.head?_cons, Option.some.injEq] at hhead
      exact hhead
    · cases hstep
  | open_ error =>
    split at hstep
    · rename_i attempt route hpoint
      have hheld : s.point.holds = false := by rw [hpoint]; rfl
      cases error with
      | none =>
        cases hstep
        exact h.open_ hheld rfl rfl
      | some error =>
        cases hstep
        exact h.move rfl hheld.symm
    · cases hstep
  | step step => exact h.answered hok hstep
  | release error =>
    split at hstep
    · rename_i attempt route failure hpoint
      have hheld : s.point.holds = false := by rw [hpoint]; rfl
      cases error with
      | none => exact Option.some.inj hstep ▸ h.reroute hheld
      | some error =>
        cases hstep
        exact h.move rfl hheld.symm
    · cases hstep

end

end RoutedStream

/-- **A routed stream releases what it opens** in every run in which nothing stops it at a
value. -/
theorem RoutedStream.releases_of_goesOn {σ : Type} (c : StreamCall σ) {s : RoutedStream σ}
    (h : (routedStream c).Reach RoutedStream.GoesOn s) : s.Releases := by
  refine (h.invariant (I := Tidy) ?_ fun _ _ _ hs hok hstep => hs.step hok hstep).releases
  rintro _ ⟨routing, rfl⟩
  exact ⟨[], List.not_mem_nil, rfl⟩

instance (s : RoutedStream Unit) : (l : StreamLabel) → Decidable (s.GoesOn l)
  | .resume => inferInstanceAs (Decidable (s.point = .yielded → s.requests.head? = some .next))
  | .step (.rejected _) => isFalse id
  | .step .value | .step .done | .step (.failed _) => isTrue trivial
  | .request _ | .open_ _ | .release _ => isTrue trivial

/-- The watchers of one order, with a router that names one endpoint. -/
def watchOrder : StreamCall Unit where
  router := { resolve := fun _ _ _ => ((), .answer "https://host-3") }
  maxRedirects := DEFAULT_MAX_REDIRECTS
  symbol := "Order#updates"
  ref := ⟨"Order", "o-1"⟩
  init := { ref := some ⟨"Order", "o-1"⟩ }

/-- The first attempt fails, and the second is read to its end. -/
def readToTheEnd : List StreamLabel :=
  [.request .next, .resume, .open_ none, .step (.failed {}), .release none, .open_ none,
    .step .value, .request .next, .resume, .step .done]

/-- The guarded run of `readToTheEnd`. -/
theorem RoutedStream.releases_readToTheEnd :
    ((((routedStream watchOrder).exec RoutedStream.GoesOn { routing := ⟨(), {}⟩ }
      readToTheEnd).get (by decide)).Releases) :=
  have hstart : (routedStream watchOrder).Reach RoutedStream.GoesOn { routing := ⟨(), {}⟩ } :=
    .start ⟨_, rfl⟩
  RoutedStream.releases_of_goesOn watchOrder (hstart.exec_get readToTheEnd (by decide))

/-- The consumer takes one value and leaves its loop. -/
def takeOne : List StreamLabel :=
  [.request .next, .resume, .open_ none, .step .value, .request .return_, .resume]

/-- The generator is over, and its iterator is still open. -/
theorem RoutedStream.not_releases :
    ¬ ∀ (c : StreamCall Unit) (s : RoutedStream Unit), (routedStream c).Reachable s → s.Releases := by
  intro hreleases
  have hstart : (routedStream watchOrder).Reachable { routing := ⟨(), {}⟩ } := .start ⟨_, rfl⟩
  have hover := (hreleases _ _ (hstart.exec_get takeOne (by decide))).over_ none
  exact hover (by decide) (by decide)

end SigxActors.Client
