/-
  Client/LiveShared.lean --- the subscriptions of a client, and who listens to them.

  Source: `createSubscriptionSet` of `packages/actors/src/app/live-shared.ts`.

  Equal subscriptions are one entry with many listeners.  Entries and listeners are numbered
  by when they were made; the map holds the numbers under `canonical`, which is the `K` here.
  A channel hands a frame to an entry, and an entry that has left the map may still be handed
  one: an array of entries was sent with the request (`order` of `app/live.ts`).

  Listeners are called one by one, over a snapshot.  A callback may subscribe and dispose; no
  frame arrives and no microtask runs before the last has returned.
-/
import SigxActors.Js.Array
import SigxActors.Js.Map
import SigxActors.Machine.Transition

set_option autoImplicit false

namespace SigxActors.Client

open SigxActors.Js

/-- What is pushed for a subscription, and what a listener is called with. -/
inductive LiveFrame (V E : Type) where
  | value (v : V)
  | error (e : E)
  deriving DecidableEq, Repr

/-- `LiveListener`. -/
structure LiveListener (V E : Type) where
  /-- The entry. -/
  mine : Nat
  /-- It has an `onError`. -/
  onError : Bool
  /-- How many frames its entry had been handed. -/
  joined : Nat
  calls : List (LiveFrame V E) := []
  deriving DecidableEq, Repr

/-- It has a callback for it. -/
def LiveListener.hears {V E : Type} (l : LiveListener V E) : LiveFrame V E → Bool
  | .value _ => true
  | .error _ => l.onError

/-- `SubscriptionEntry`. -/
structure SubscriptionEntry (K P V E : Type) where
  id : K
  listeners : List Nat := []
  print : Option P := none
  value : Option V := none
  seeded : Bool := false
  /-- All that it has been handed. -/
  frames : List (LiveFrame V E) := []
  deriving DecidableEq, Repr

/-- A value that the entry has delivered. -/
def SubscriptionEntry.suppresses {K P V E : Type} [DecidableEq P] (fingerprint : V → Option P)
    (entry : SubscriptionEntry K P V E) (v : V) : Bool :=
  entry.seeded && (fingerprint v).isSome && fingerprint v == entry.print

structure SubscriptionSet (K P V E : Type) where
  entries : JsMap K Nat := .empty
  made : List (SubscriptionEntry K P V E) := []
  listeners : List (LiveListener V E) := []
  /-- The listeners that are to be served from the cache. -/
  microtasks : List Nat := []
  /-- Who is still to hear of the frame that came last. -/
  notifying : List (Nat × LiveFrame V E) := []

namespace SubscriptionSet

variable {K P V E : Type} [DecidableEq K] [DecidableEq P] (fingerprint : V → Option P)
  (s : SubscriptionSet K P V E)

/-- The entry of a subscription, made where there is none. -/
def resolve (id : K) : SubscriptionSet K P V E × Nat :=
  match s.entries.get id with
  | some k => (s, k)
  | none =>
      ({ s with entries := s.entries.set id s.made.length, made := s.made ++ [{ id := id }] },
        s.made.length)

/-- A listener joins entry `k`. -/
def join (k : Nat) (onError : Bool) : SubscriptionSet K P V E :=
  match s.made[k]? with
  | none => s
  | some entry =>
      let listener := s.listeners.length
      { s with
        made := s.made.modify k fun entry =>
          { entry with listeners := entry.listeners ++ [listener] }
        listeners := s.listeners ++
          [{ mine := k, onError := onError, joined := entry.frames.length }]
        microtasks := if entry.seeded then s.microtasks ++ [listener] else s.microtasks }

/-- `subscribe`. -/
def subscribe (id : K) (onError : Bool) : SubscriptionSet K P V E :=
  (s.resolve id).1.join (s.resolve id).2 onError

/-- What `subscribe` returns. -/
def dispose (i : Nat) : SubscriptionSet K P V E :=
  match s.listeners[i]? with
  | none => s
  | some listener =>
      match s.made[listener.mine]? with
      | none => s
      | some entry =>
          if i ∈ entry.listeners then
            let left := entry.listeners.filter (· ≠ i)
            let s := { s with made := s.made.modify listener.mine fun entry =>
              { entry with listeners := left } }
            if left = [] then { s with entries := s.entries.erase entry.id } else s
          else s

/-- `quietly(() => run(listener))`. -/
def call (i : Nat) (frame : LiveFrame V E) : SubscriptionSet K P V E :=
  { s with listeners := s.listeners.modify i fun l =>
      if l.hears frame then { l with calls := l.calls ++ [frame] } else l }

/-- `deliverValue`. -/
def deliverValue (k : Nat) (v : V) : SubscriptionSet K P V E × Bool :=
  match s.made[k]? with
  | none => (s, false)
  | some entry =>
      let frames := entry.frames ++ [.value v]
      if entry.suppresses fingerprint v then
        ({ s with made := s.made.modify k fun entry => { entry with frames := frames } }, false)
      else
        ({ s with
            made := s.made.modify k fun entry =>
              { entry with
                print := fingerprint v
                value := some v
                seeded := true
                frames := frames }
            notifying := entry.listeners.map (·, .value v) }, true)

/-- `deliverError`. -/
def deliverError (k : Nat) (e : E) : SubscriptionSet K P V E :=
  match s.made[k]? with
  | none => s
  | some entry =>
      { s with
        made := s.made.modify k fun entry => { entry with frames := entry.frames ++ [.error e] }
        notifying := entry.listeners.map (·, .error e) }

/-- The next listener of the snapshot is called. -/
def notify : Option (SubscriptionSet K P V E) :=
  match s.notifying with
  | [] => none
  | (i, frame) :: rest => some ({ s with notifying := rest }.call i frame)

/-- The microtask of a listener that has joined a seeded entry. -/
def replay : Option (SubscriptionSet K P V E) :=
  match s.microtasks with
  | [] => none
  | i :: rest =>
      let s := { s with microtasks := rest }
      match s.listeners[i]? with
      | none => some s
      | some listener =>
          match s.made[listener.mine]? with
          | none => some s
          | some entry =>
              match entry.value with
              | none => some s
              | some v => some (if i ∈ entry.listeners then s.call i (.value v) else s)

/-- `clear`. -/
def clear : SubscriptionSet K P V E := { s with entries := .empty }

inductive Label (K V E : Type) where
  | subscribe (id : K) (onError : Bool)
  | dispose (i : Nat)
  | value (k : Nat) (v : V)
  | error (k : Nat) (e : E)
  | notify
  | replay
  | clear

/-- One step. -/
def step : Label K V E → Option (SubscriptionSet K P V E)
  | .subscribe id onError => some (s.subscribe id onError)
  | .dispose i => some (s.dispose i)
  | .value k v => if s.notifying.isEmpty then some (deliverValue fingerprint s k v).1 else none
  | .error k e => if s.notifying.isEmpty then some (s.deliverError k e) else none
  | .notify => s.notify
  | .replay => if s.notifying.isEmpty then s.replay else none
  | .clear => some s.clear

end SubscriptionSet

/-- The machine of one subscription set. -/
def subscriptionSet {K P V E : Type} [DecidableEq K] [DecidableEq P] (fingerprint : V → Option P) :
    Machine.System (SubscriptionSet K P V E) (SubscriptionSet.Label K V E) where
  initial s := s = {}
  step s l := SubscriptionSet.step fingerprint s l

end SigxActors.Client
