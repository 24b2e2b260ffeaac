/-
  Host/WatchIdentity.lean --- the watches of one activation, and whose identity they read.

  Source: `packages/actors/src/host/activation.ts` (`openWatch`, `#resolveWatch`,
  `#createWatchEntry`, the `ctx.principal` getter, `#callContext`, `runInline`, and
  where `#turnNow` and `#endTurn` write `#currentCall`).

  The shared watch of an entry is the one of `Host/Watch`.  A read is one invocation at
  a time: queued, running, ended, and swept, which is the `finally` of the entry's
  `invoke`.  What the body of a read does is left open: it may read `ctx.principal` at
  any point, and call the actor's own methods, which run inline on a call-chain
  reentrant one.  Those are the steps between its begin and its end.

  What `ctx.principal` gave to an invocation is history: it is carried by the value or
  the error that the invocation computed, and no step of the source reads it.
-/
import SigxActors.Host.Watch
import SigxActors.Host.WatchKey
import SigxActors.Js.Text
import SigxActors.Js.Map

set_option autoImplicit false

namespace SigxActors.Host

open SigxActors.Js

/-! ## The state -/

/-- The encoded principal of a call context, `none` where it has none. -/
abbrev Principal := Option JsString

/-- A value or an error, and the principals that the getter gave to the invocation
that computed it. -/
structure Computed (A : Type) where
  value : A
  consulted : List Principal := []
  deriving DecidableEq, Repr

/-- What the getter reads of an `ActorCallContext`: the principal, and the entry whose
`kWatchBase` and `kWatchDeclared` markers it carries. -/
structure CallContext where
  principal : Principal
  marker : Option Nat := none
  deriving DecidableEq, Repr

/-- Whose turn has the serial lane. -/
inductive SerialTurn where
  | read (k : Nat)
  | call
  deriving DecidableEq, Repr

/-- Where the invocation of an entry is. -/
inductive Invocation (V E : Type) where
  | idle
  | queued
  | running (consulted : List Principal)
  | ended (outcome : Except E V) (consulted : List Principal)
  | swept (outcome : Except E V) (consulted : List Principal)

/-- A `WatchEntry`, with what its `invoke` closes over. -/
structure WatchEntry (V E : Type) where
  key : JsString
  base : JsString
  /-- The creating subscriber's. -/
  principal : Principal
  /-- `declared` is defined, and its `violated` is set. -/
  declared : Bool
  violated : Bool := false
  settled : Bool
  /-- The subscriptions whose handles it holds. -/
  handles : List Nat := []
  shared : Watch (Computed V) (Computed E) := { subs := [] }
  /-- Which subscription each subscriber of the fan-out is of. -/
  owners : List Nat := []
  invocation : Invocation V E := .queued

/-- The context that the reads of entry `k` run under. -/
def WatchEntry.context {V E : Type} (entry : WatchEntry V E) (k : Nat) : CallContext :=
  { principal := entry.principal, marker := some k }

/-- What a `next()` of a fan-out's subscriber resolved to. -/
inductive Pulled (V E : Type) where
  | value (v : Computed V)
  | failed (e : Computed E)
  | done

/-- What one `openWatch` closes over, and what its consumer received. -/
structure Subscription (V E : Type) where
  base : JsString
  declared : Bool
  principal : Principal
  /-- The caller's signal. -/
  aborted : Bool
  /-- `entry`, with `handle` and `inner`: the entry and the subscriber of its fan-out. -/
  place : Option (Nat × Nat) := none
  migrating : Bool := false
  closed : Bool := false
  /-- Results that a call of `next()` has yet to act on. -/
  results : List (Pulled V E) := []
  received : List (Computed V) := []
  failures : List (Computed E) := []

structure WatchActivation (V E : Type) where
  entries : List (WatchEntry V E) := []
  /-- `#watches`. -/
  watches : JsMap JsString Nat := .empty
  /-- `#watchPrincipalDependent`. -/
  dependent : List JsString := []
  subscriptions : List (Subscription V E) := []
  turn : Option SerialTurn := none
  /-- `#currentCall`. -/
  current : Option CallContext := none
  /-- Calls of the actor to itself that have yet to run, and the principals they
  relay. -/
  hops : List Principal := []
  /-- What each inline run that is under way restores: its `prev`. -/
  inlines : List (Option CallContext) := []

namespace Subscriber

variable {V E : Type}

/-- What `next()` resolves to, where it does not park. -/
def pulled (sub : Subscriber (Computed V) (Computed E)) : Option (Pulled V E) :=
  match sub.queue with
  | v :: _ => some (.value v)
  | [] =>
      match sub.failed with
      | some e => some (.failed e)
      | none => if sub.done then some .done else none

end Subscriber

namespace WatchActivation

variable {V E : Type}

/-! ## Entries and subscriptions -/

def setEntry (s : WatchActivation V E) (k : Nat) (entry : WatchEntry V E) : WatchActivation V E :=
  { s with entries := s.entries.set k entry }

def setSubscription (s : WatchActivation V E) (n : Nat) (sub : Subscription V E) :
    WatchActivation V E :=
  { s with subscriptions := s.subscriptions.set n sub }

/-- The shared watch of entry `k` moves on; `onEmpty` deletes the entry's key. -/
def setShared (s : WatchActivation V E) (k : Nat) (entry : WatchEntry V E)
    (shared : Watch (Computed V) (Computed E)) : WatchActivation V E :=
  let moved := s.setEntry k { entry with shared := shared }
  if entry.shared.emptied < shared.emptied then
    { moved with watches := moved.watches.erase entry.key }
  else moved

/-- `#resolveWatch`: the entry at the subscriber's key, or a new one there. -/
def resolveWatch (s : WatchActivation V E) (sub : Subscription V E) : WatchActivation V E × Nat :=
  let dependent := decide (sub.base ∈ s.dependent)
  let key := if dependent then qualifyWatchKey sub.base sub.principal else sub.base
  match s.watches.get key with
  | some k => (s, k)
  | none =>
      let entry : WatchEntry V E :=
        { key := key, base := sub.base, principal := sub.principal, declared := sub.declared,
          settled := dependent }
      ({ s with
          entries := s.entries ++ [entry]
          watches := s.watches.set key s.entries.length }, s.entries.length)

/-- `attach`, for a subscription that is on no entry. -/
def attach (s : WatchActivation V E) (n : Nat) (sub : Subscription V E) : WatchActivation V E :=
  let resolved := s.resolveWatch sub
  match resolved.1.entries[resolved.2]? with
  | some entry =>
      let i := entry.shared.subs.length
      let joined :=
        { entry with handles := entry.handles ++ [n], owners := entry.owners ++ [n] }
      (resolved.1.setShared resolved.2 joined (entry.shared.subscribe sub.aborted)).setSubscription
        n { sub with place := some (resolved.2, i), migrating := false }
  | none => s

/-- `detach`: the handle leaves its entry. -/
def detach (s : WatchActivation V E) (n : Nat) (sub : Subscription V E) : WatchActivation V E :=
  let left := s.setSubscription n { sub with place := none }
  match sub.place with
  | some (k, _) =>
      match s.entries[k]? with
      | some entry => left.setEntry k { entry with handles := entry.handles.erase n }
      | none => left
  | none => left

/-- `dropped?.return?.(undefined)`, or the abort of the signal that `inner` listens to. -/
def dropInner (s : WatchActivation V E) (place : Option (Nat × Nat)) : WatchActivation V E :=
  match place with
  | some (k, i) =>
      match s.entries[k]? with
      | some entry => s.setShared k entry (entry.shared.drop i)
      | none => s
  | none => s

/-- `handle.evict()`. -/
def evict (s : WatchActivation V E) (n : Nat) : WatchActivation V E :=
  match s.subscriptions[n]? with
  | some sub => (s.detach n { sub with migrating := true }).dropInner sub.place
  | none => s

/-! ## The consumer -/

/-- `openWatch`. -/
def openWatch (s : WatchActivation V E) (base : JsString) (declared : Bool) (principal : Principal)
    (aborted : Bool) : WatchActivation V E :=
  let sub : Subscription V E :=
    { base := base, declared := declared, principal := principal, aborted := aborted }
  { s with subscriptions := s.subscriptions ++ [sub] }.attach s.subscriptions.length sub

/-- A result for the subscription, where there is one. -/
def resolvePulled (s : WatchActivation V E) (n : Nat) (result : Option (Pulled V E)) :
    WatchActivation V E :=
  match result, s.subscriptions[n]? with
  | some result, some sub => s.setSubscription n { sub with results := sub.results ++ [result] }
  | _, _ => s

/-- `pulled.next()`, up to where it parks or returns. -/
def pullInner (s : WatchActivation V E) (n : Nat) : WatchActivation V E :=
  match s.subscriptions[n]? with
  | some sub =>
      match sub.place with
      | some (k, i) =>
          match s.entries[k]? with
          | some entry =>
              match entry.shared.pull i with
              | some shared =>
                  (s.setShared k entry shared).resolvePulled n
                    ((entry.shared.subs[i]?).bind (·.pulled))
              | none => s
          | none => s
      | none => s
  | none => s

/-- One pass of the loop of `next()`, up to its await. -/
def pass (s : WatchActivation V E) (n : Nat) : Option (WatchActivation V E) :=
  match s.subscriptions[n]? with
  | some sub =>
      if sub.closed then some s
      else if sub.place = none then some ((s.attach n sub).pullInner n)
      else some (s.pullInner n)
  | none => none

/-- A parked `next()` of a fan-out's subscriber was woken and goes on. -/
def goOn (s : WatchActivation V E) (k i pull : Nat) : Option (WatchActivation V E) :=
  match s.entries[k]? with
  | some entry =>
      match entry.shared.goOn i pull, entry.owners[i]? with
      | some shared, some n =>
          some ((s.setShared k entry shared).resolvePulled n
            ((entry.shared.subs[i]?).bind (·.pulled)))
      | _, _ => none
  | none => none

/-- The `await pulled.next()` of subscription `n` gives result `j`. -/
def resume (s : WatchActivation V E) (n j : Nat) : Option (WatchActivation V E) :=
  match s.subscriptions[n]? with
  | some sub =>
      let taken := { sub with results := sub.results.eraseIdx j }
      match sub.results[j]? with
      | some (.value v) => some (s.setSubscription n { taken with received := sub.received ++ [v] })
      | some (.failed e) =>
          some (s.detach n { taken with closed := true, failures := sub.failures ++ [e] })
      | some .done =>
          if sub.migrating then (s.setSubscription n taken).pass n
          else some (s.detach n { taken with closed := true })
      | none => none
  | none => none

/-- `return()`. -/
def leave (s : WatchActivation V E) (n : Nat) : Option (WatchActivation V E) :=
  match s.subscriptions[n]? with
  | some sub => some ((s.detach n { sub with closed := true }).dropInner sub.place)
  | none => none

/-- The caller's signal aborts. -/
def abort (s : WatchActivation V E) (n : Nat) : Option (WatchActivation V E) :=
  match s.subscriptions[n]? with
  | some sub => some ((s.setSubscription n { sub with aborted := true }).dropInner sub.place)
  | none => none

/-! ## The read -/

/-- `#turnNow`, for the read of entry `k`; a serial one has the lane to itself. -/
def beginRead (s : WatchActivation V E) (als : Bool) (k : Nat) : Option (WatchActivation V E) :=
  match s.entries[k]? with
  | some entry =>
      match entry.invocation with
      | .queued =>
          let running := s.setEntry k { entry with invocation := .running [] }
          if als then some running
          else if s.turn = none then
            some { running with turn := some (.read k), current := some (entry.context k) }
          else none
      | _ => none
  | none => none

/-- `#callContext`, asked by the read of entry `k`. -/
def callContext (s : WatchActivation V E) (als : Bool) (k : Nat) (entry : WatchEntry V E) :
    Option CallContext :=
  if als then some (entry.context k) else s.current

/-- What the getter does with the marker of the context: the principal is given, or the
read is failed. -/
def mark (s : WatchActivation V E) : Option Nat → WatchActivation V E × Bool
  | none => (s, true)
  | some k =>
      match s.entries[k]? with
      | some entry =>
          if entry.declared then (s.setEntry k { entry with violated := true }, false)
          else ({ s with dependent := entry.base :: s.dependent }, true)
      | none => (s, true)

/-- The read of entry `k` reads `ctx.principal`. -/
def consult (s : WatchActivation V E) (als : Bool) (k : Nat) : Option (WatchActivation V E) :=
  match s.entries[k]? with
  | some entry =>
      match entry.invocation with
      | .running consulted =>
          let context := s.callContext als k entry
          let marked := s.mark (context.bind (·.marker))
          let given := context.bind (·.principal)
          match marked.1.entries[k]? with
          | some entry =>
              some (if marked.2 then
                marked.1.setEntry k { entry with invocation := .running (consulted ++ [given]) }
              else marked.1)
          | none => none
      | _ => none
  | none => none

/-- Whatever runs calls one of the actor's own methods: the hop relays the principal. -/
def callSelf (s : WatchActivation V E) : Option (WatchActivation V E) :=
  match s.current with
  | some context => some { s with hops := s.hops ++ [context.principal] }
  | none => none

/-- `runInline`, up to its await. -/
def beginInline (s : WatchActivation V E) (h : Nat) : Option (WatchActivation V E) :=
  match s.hops[h]? with
  | some principal =>
      some { s with
        hops := s.hops.eraseIdx h
        inlines := s.inlines ++ [s.current]
        current := some { principal := principal } }
  | none => none

/-- The `finally` of `runInline`. -/
def endInline (s : WatchActivation V E) (j : Nat) : Option (WatchActivation V E) :=
  match s.inlines[j]? with
  | some prev => some { s with inlines := s.inlines.eraseIdx j, current := prev }
  | none => none

/-- Another turn of the serial lane begins. -/
def beginCall (s : WatchActivation V E) (principal : Principal) : Option (WatchActivation V E) :=
  if s.turn = none then
    some { s with turn := some .call, current := some { principal := principal } }
  else none

def endCall (s : WatchActivation V E) : Option (WatchActivation V E) :=
  if s.turn = some .call then some { s with turn := none, current := none } else none

/-- The method settles, and `#endTurn` runs. -/
def endRead (s : WatchActivation V E) (als : Bool) (k : Nat) (outcome : Except E V) :
    Option (WatchActivation V E) :=
  match s.entries[k]? with
  | some entry =>
      match entry.invocation with
      | .running consulted =>
          let ended := s.setEntry k { entry with invocation := .ended outcome consulted }
          some (if als then ended else { ended with turn := none, current := none })
      | _ => none
  | none => none

/-- The turn is refused, or throws before the method runs. -/
def refuseRead (s : WatchActivation V E) (k : Nat) (e : E) : Option (WatchActivation V E) :=
  match s.entries[k]? with
  | some entry =>
      match entry.invocation with
      | .queued => some (s.setEntry k { entry with invocation := .ended (.error e) [] })
      | _ => none
  | none => none

/-- `settled = true`; the invocation is over. -/
def settle (s : WatchActivation V E) (k : Nat) (invocation : Invocation V E) :
    WatchActivation V E :=
  match s.entries[k]? with
  | some entry => s.setEntry k { entry with settled := true, invocation := invocation }
  | none => s

/-- The rest of `invoke`: a read that fulfilled may be rejected, for its declaration or
for having written, and the sweep evicts whoever presented another principal. -/
def sweep (s : WatchActivation V E) (k : Nat) (rejection : Option E) :
    Option (WatchActivation V E) :=
  match s.entries[k]? with
  | some entry =>
      match entry.invocation with
      | .ended outcome consulted =>
          if entry.violated = true ∧ outcome.isOk = true ∧ rejection = none then none
          else
            let outcome :=
              match outcome, rejection with
              | .ok _, some e => Except.error e
              | outcome, _ => outcome
            let swept := Invocation.swept outcome consulted
            if entry.settled = false ∧ entry.base ∈ s.dependent then
              let strangers := entry.handles.filter fun n =>
                decide ((s.subscriptions[n]?).map (·.principal) ≠ some entry.principal)
              some ((strangers.foldl evict s).settle k swept)
            else some (s.setEntry k { entry with invocation := swept })
      | _ => none
  | none => none

/-- The loop goes on with what `invoke` gave it. -/
def deliver (s : WatchActivation V E) (fingerprint : V → Option String) (k : Nat) :
    Option (WatchActivation V E) :=
  match s.entries[k]? with
  | some entry =>
      match entry.invocation with
      | .swept outcome consulted =>
          let shared :=
            match outcome with
            | .ok v =>
                entry.shared.readDone (fun computed => fingerprint computed.value)
                  { value := v, consulted := consulted }
            | .error e => entry.shared.readFails { value := e, consulted := consulted }
          match shared with
          | some shared => some (s.setShared k { entry with invocation := .idle } shared)
          | none => none
      | _ => none
  | none => none

/-! ## The feed and the loop -/

/-- The steps of the shared watch that no invocation and no consumer takes. -/
inductive FeedEvent (E : Type) where
  | notify
  | pump
  | closeFeed
  | pumpEnds
  | pumpFails (e : E)
  | changed
  | settled

def FeedEvent.step (w : Watch (Computed V) (Computed E)) :
    FeedEvent E → Option (Watch (Computed V) (Computed E))
  | .notify => w.notify
  | .pump => w.pump
  | .closeFeed => some w.closeFeed
  | .pumpEnds => w.pumpEnds
  | .pumpFails e => w.pumpFails { value := e }
  | .changed => w.changed
  | .settled => w.settled

/-- A step of the feed, of the pump or of the loop; the loop may invoke a read. -/
def feed (s : WatchActivation V E) (k : Nat) (e : FeedEvent E) : Option (WatchActivation V E) :=
  match s.entries[k]? with
  | some entry =>
      match FeedEvent.step entry.shared e with
      | some shared =>
          let invocation :=
            if entry.shared.loop = .settling ∧ shared.loop = .reading false then .queued
            else entry.invocation
          some (s.setShared k { entry with invocation := invocation } shared)
      | none => none
  | none => none

end WatchActivation

/-! ## The machine -/

inductive IdentityLabel (V E : Type) where
  | openWatch (method throttleMs : JsString) (encodedArgs : Encoded) (principal : Principal)
      (aborted : Bool)
  | next (n : Nat)
  | goOn (k i pull : Nat)
  | resume (n j : Nat)
  | leave (n : Nat)
  | abort (n : Nat)
  | feed (k : Nat) (e : WatchActivation.FeedEvent E)
  | beginRead (k : Nat)
  | refuseRead (k : Nat) (e : E)
  | consult (k : Nat)
  | callSelf
  | beginInline (h : Nat)
  | endInline (j : Nat)
  | beginCall (principal : Principal)
  | endCall
  | endRead (k : Nat) (outcome : Except E V)
  | sweep (k : Nat) (rejection : Option E)
  | deliver (k : Nat)

/-- The watches of one activation; `als` where it declares interleaving and answers
`#callContext` from the store of the turn, and `declares` for the methods that it
declares principal-independent. -/
def watchIdentity {V E : Type} (als : Bool) (declares : JsString → Bool)
    (fingerprint : V → Option String) :
    Machine.System (WatchActivation V E) (IdentityLabel V E) where
  initial := fun s => s = {}
  step := fun s l =>
    match l with
    | .openWatch method throttleMs encodedArgs principal aborted =>
        some (s.openWatch (watchKey method throttleMs encodedArgs) (declares method) principal
          aborted)
    | .next n => s.pass n
    | .goOn k i pull => s.goOn k i pull
    | .resume n j => s.resume n j
    | .leave n => s.leave n
    | .abort n => s.abort n
    | .feed k e => s.feed k e
    | .beginRead k => s.beginRead als k
    | .refuseRead k e => s.refuseRead k e
    | .consult k => s.consult als k
    | .callSelf => s.callSelf
    | .beginInline h => s.beginInline h
    | .endInline j => s.endInline j
    | .beginCall principal => s.beginCall principal
    | .endCall => s.endCall
    | .endRead k outcome => s.endRead als k outcome
    | .sweep k rejection => s.sweep k rejection
    | .deliver k => s.deliver fingerprint k

end SigxActors.Host
