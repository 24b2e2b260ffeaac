/-
  Host/Lifecycle.lean --- the activations of one host, and the calls that wait for them.

  Source: `packages/actors/src/host/local-host.ts` (`#dispatchWarmOrSlow`, `#dispatchSlow`,
  `#dispatchOneWay`, `#activationFor`, `#poolTarget`, `#spinMember`, `#deactivateById`,
  `stopAll`), `turns.ts` (`run`, `close`) and `activation.ts` (`deactivate`, `forceStop`).

  What waits for a promise is registered with it, in order, and is queued in that order
  when it settles; a job of the queue runs up to its next `await`, and `next` runs the
  first.  Everything else happens between two jobs: calls come, activations are created or
  fail, turns end, tasks settle, an activation has drained, its claim is released.  How
  long any of it takes is left open, as is whether a call that may run inline does, whether
  the admission lets it in, and what the registry answers.

  Whoever deactivates (the sweep, `host.deactivate`, `deactivateType`, a placement, an
  activation that asks for it or has failed a save) comes to one call of `#deactivateById`
  for each slot, in one block; here each is a step of its own, of any slot.  No
  deactivation and no release rejects.

  An activation is named by its number, in the order of the reservations; so are its
  promise and its `Turns`.  A member id is the id of its pool and a number.
-/
import SigxActors.Machine.Transition
import SigxActors.Host.Slots

set_option autoImplicit false

namespace SigxActors.Host.Lifecycle

open SigxActors.Js

/-! ## State -/

/-- A key of `#directory`: an actor's id, or a member of its pool. -/
structure SlotId where
  base : String
  member : Option Nat := none
  deriving DecidableEq, Repr

/-- How far an activation has come. -/
inductive Stage where
  | activating
  | active
  /-- `deactivate` waits for its tasks; the lane is still open. -/
  | settling
  /-- The lane is closed, and `deactivate` is about to wait for the turns. -/
  | closed
  | draining
  /-- Deactivated; the claim is being released. -/
  | releasing
  /-- `drained` has resolved. -/
  | gone
  /-- Its promise is rejected. -/
  | failed
  /-- `forceStop`. -/
  | stopped
  deriving DecidableEq, Repr

/-- `turns.closed`. -/
def Stage.laneClosed : Stage → Bool
  | .activating | .active | .settling | .failed => false
  | _ => true

/-- What is registered with the promise of a slot. -/
inductive Reaction where
  /-- The `catch` of the reservation. -/
  | forget
  /-- A call to which `#activationFor` has returned the promise. -/
  | adopt (call : Nat)
  /-- A call that enqueues on a pool member. -/
  | enqueue (call : Nat)
  /-- `#deactivateById` of a slot that was activating. -/
  | deactivate
  /-- The same, for a wait of `stopAll`. -/
  | stop (wait : Nat)
  deriving DecidableEq, Repr

/-- A job of the queue; `ok` tells how the promise has settled. -/
inductive Job where
  /-- `#checkReentrancy` has found nothing. -/
  | checked (call : Nat)
  /-- A promise that was returned is waited for. -/
  | adoptPromise (call activation : Nat)
  | adopted (call activation : Nat) (ok : Bool)
  /-- `#activationFor` has returned. -/
  | hold (call activation : Nat) (ok : Bool)
  | enqueue (call activation : Nat) (ok : Bool)
  | forget (activation : Nat)
  | deactivate (activation : Nat)
  | stop (wait activation : Nat) (ok : Bool)
  /-- `deactivate` begins to wait for the turns. -/
  | drain (activation : Nat)
  /-- `drained` has resolved. -/
  | resume (call : Nat)
  deriving DecidableEq, Repr

def Reaction.job (activation : Nat) (ok : Bool) : Reaction → Option Job
  | .forget => if ok then none else some (.forget activation)
  | .adopt call => some (.adopted call activation ok)
  | .enqueue call => some (.enqueue call activation ok)
  | .deactivate => if ok then some (.deactivate activation) else none
  | .stop wait => some (.stop wait activation ok)

structure Activation where
  slot : SlotId
  stage : Stage := .activating
  /-- Tasks would have to settle before the lane closes. -/
  settles : Bool := false
  /-- `turns.depth`. -/
  depth : Nat := 0
  reactions : List Reaction := [.forget]
  /-- The calls that wait for `drained`. -/
  parked : List Nat := []
  deriving DecidableEq, Repr

structure WorkerPool where
  cap : Nat
  seq : Nat := 0
  members : List Nat := []
  deriving DecidableEq, Repr

/-- What the registry knows of an actor's type. -/
inductive Definition where
  | loading
  | unknown
  | stateful
  | stateless (cap : Nat)
  deriving DecidableEq, Repr

/-- The call chain that a call brings. -/
inductive Chain where
  | outside
  | chained
  /-- It names the target. -/
  | through
  deriving DecidableEq, Repr

inductive CallKind where
  | call
  | oneWay
  /-- A stream or a watch. -/
  | opening
  deriving DecidableEq, Repr

inductive Outcome where
  /-- Its turn is enqueued. -/
  | ran (activation : Nat)
  /-- `HostShutdownError`. -/
  | shutdown
  /-- It runs inline, or is refused for another reason. -/
  | otherwise
  deriving DecidableEq, Repr

/-- What outside of the queue a call waits for. -/
inductive Awaiting where
  | reentrancy
  | definition
  deriving DecidableEq, Repr

structure Call where
  base : String
  kind : CallKind
  chain : Chain
  /-- The admission lets it in. -/
  admitted : Bool
  awaits : Option Awaiting := none
  outcome : Option Outcome := none
  deriving DecidableEq, Repr

/-- One of the promises that `stopAll` waits for. -/
inductive Wait where
  | promise (activation : Nat)
  | drain (activation : Nat)
  | done
  deriving DecidableEq, Repr

/-- Where `stopAll` is.  The activations it has collected, and how many there were when it
resolved, are history. -/
inductive Stopping where
  | no
  | draining (collected : List Nat) (waits : List Wait)
  | resolved (created : Nat)
  deriving DecidableEq, Repr

structure LocalHost where
  activations : List Activation := []
  /-- `#directory`. -/
  slots : JsMap SlotId (Slot Nat Nat) := .empty
  pools : JsMap String WorkerPool := .empty
  definitions : String → Definition
  calls : List Call := []
  queue : List Job := []
  stop : Stopping := .no

namespace LocalHost

def modify (s : LocalHost) (a : Nat) (f : Activation → Activation) : LocalHost :=
  { s with activations := s.activations.modify a f }

def setStage (s : LocalHost) (a : Nat) (stage : Stage) : LocalHost :=
  s.modify a fun act => { act with stage := stage }

def setSlot (s : LocalHost) (id : SlotId) (slot : Slot Nat Nat) : LocalHost :=
  { s with slots := s.slots.set id slot }

def eraseSlot (s : LocalHost) (id : SlotId) : LocalHost := { s with slots := s.slots.erase id }

def push (s : LocalHost) (jobs : List Job) : LocalHost := { s with queue := s.queue ++ jobs }

def settle (s : LocalHost) (call : Nat) (outcome : Outcome) : LocalHost :=
  { s with calls := s.calls.modify call fun x => { x with outcome := some outcome } }

def awaiting (s : LocalHost) (call : Nat) (awaits : Option Awaiting) : LocalHost :=
  { s with calls := s.calls.modify call fun x => { x with awaits := awaits } }

/-! ## Promises -/

/-- `slot.promise.then`. -/
def register (s : LocalHost) (a : Nat) (r : Reaction) : LocalHost :=
  match s.activations[a]? with
  | some act =>
      match act.stage with
      | .activating => s.modify a fun act => { act with reactions := act.reactions ++ [r] }
      | .failed => s.push (r.job a false).toList
      | _ => s.push (r.job a true).toList
  | none => s

/-- The promise settles. -/
def resolve (s : LocalHost) (a : Nat) (ok : Bool) : LocalHost :=
  match s.activations[a]? with
  | some act =>
      (s.modify a fun act => { act with reactions := [] }).push
        (act.reactions.filterMap (Reaction.job a ok))
  | none => s

/-! ## Calls -/

/-- `Activation.enqueue`, and `Turns.run` in it.  A one-way call looks at the lane first;
the admission is asked about a call from outside, and not about a stream or a watch. -/
def enqueue (s : LocalHost) (call a : Nat) : LocalHost :=
  match s.calls[call]?, s.activations[a]? with
  | some x, some act =>
      if x.kind = .oneWay ∧ act.stage.laneClosed then s.settle call .shutdown
      else if x.chain = .outside ∧ x.kind ≠ .opening ∧ x.admitted = false then
        s.settle call .otherwise
      else if act.stage.laneClosed then s.settle call .shutdown
      else (s.modify a fun act => { act with depth := act.depth + 1 }).settle call (.ran a)
  | _, _ => s

/-- A reservation: the slot is activating. -/
def reserve (s : LocalHost) (id : SlotId) : LocalHost :=
  { s with
    activations := s.activations ++ [{ slot := id }]
    slots := s.slots.set id (.activating s.activations.length) }

/-- What the loop of `#poolTarget` has seen of the members. -/
structure Pick where
  best : Option (Nat × Nat) := none
  firstActivating : Option Nat := none
  live : Nat := 0

/-- One pass of that loop. -/
def pickMember (s : LocalHost) (base : String) (pick : Pick) (m : Nat) : Pick :=
  match s.slots.get ⟨base, some m⟩ with
  | some (.active a) =>
      let depth := (s.activations[a]?.map (·.depth)).getD 0
      let best := match pick.best with
        | some (b, least) => if depth < least then (a, depth) else (b, least)
        | none => (a, depth)
      { pick with best := some best, live := pick.live + 1 }
  | some (.activating a) =>
      { pick with
        firstActivating := some (pick.firstActivating.getD a)
        live := pick.live + 1 }
  | _ => pick

/-- `#spinMember`. -/
def spinMember (s : LocalHost) (base : String) (pool : WorkerPool) : LocalHost :=
  let next : WorkerPool :=
    { pool with seq := pool.seq + 1, members := pool.members ++ [pool.seq] }
  ({ s with pools := s.pools.set base next } : LocalHost).reserve ⟨base, some pool.seq⟩

/-- `#poolTarget`: the activation, and whether it or its promise was returned. -/
def poolTarget (s : LocalHost) (base : String) (pool : WorkerPool) : LocalHost × Nat × Bool :=
  let pick := pool.members.foldl (s.pickMember base) {}
  let spun := (s.spinMember base pool, s.activations.length, false)
  match pick.best with
  | some (a, depth) =>
      if depth = 0 then (s, a, true)
      else if pick.live < pool.cap then spun
      else (s, a, true)
  | none =>
      if pick.live < pool.cap then spun
      else
        match pick.firstActivating with
        | some a => (s, a, false)
        | none => spun

/-- `#activationFor` returns what `#poolTarget` has. -/
def returnTarget (s : LocalHost) (call : Nat) (base : String) (pool : WorkerPool) : LocalHost :=
  match s.poolTarget base pool with
  | (s, a, true) => s.push [.hold call a true]
  | (s, a, false) => s.push [.adoptPromise call a]

/-- One pass of the loop of `#activationFor`. -/
def activationFor (s : LocalHost) (call : Nat) (base : String) : LocalHost :=
  match s.pools.get base with
  | some pool => s.returnTarget call base pool
  | none =>
      match s.slots.get ⟨base, none⟩ with
      | none =>
          match s.definitions base with
          | .loading => s.awaiting call (some .definition)
          | .unknown => s.settle call .otherwise
          | .stateless cap =>
              -- `#ensurePool`.
              ({ s with pools := s.pools.set base { cap := cap } } : LocalHost).returnTarget call
                base { cap := cap }
          | .stateful =>
              (s.reserve ⟨base, none⟩).push [.adoptPromise call s.activations.length]
      | some (.activating a) => s.push [.adoptPromise call a]
      | some (.active a) => s.push [.hold call a true]
      | some (.deactivating a) =>
          s.modify a fun act => { act with parked := act.parked ++ [call] }

/-- `#activationFor` of a call that is under way. -/
def goOn (s : LocalHost) (call : Nat) : LocalHost :=
  match s.calls[call]? with
  | some x => s.activationFor call x.base
  | none => s

/-- The warm path of `#dispatchWarmOrSlow`, or the slow one. -/
def warmOrSlow (s : LocalHost) (call : Nat) (base : String) : LocalHost :=
  match s.slots.get ⟨base, none⟩ with
  | some (.active a) => s.enqueue call a
  | _ =>
      match s.pools.get base with
      | some pool =>
          match s.poolTarget base pool with
          | (s, a, true) => s.enqueue call a
          | (s, a, false) => s.register a (.enqueue call)
      | none => s.push [.checked call]

/-- A call comes. -/
def dispatch (s : LocalHost) (base : String) (kind : CallKind) (chain : Chain)
    (admitted : Bool) : LocalHost :=
  let call := s.calls.length
  let s : LocalHost := { s with
    calls := s.calls ++ [{ base := base, kind := kind, chain := chain, admitted := admitted }] }
  if s.stop ≠ .no ∧ chain = .outside then s.settle call .shutdown
  else
    match kind, chain with
    | .oneWay, _ => s.activationFor call base
    | .opening, _ => s.awaiting call (some .reentrancy)
    | .call, .through => s.awaiting call (some .reentrancy)
    | .call, _ => s.warmOrSlow call base

/-! ## Deactivation -/

/-- `turns.close()`. -/
def close (s : LocalHost) (a : Nat) : LocalHost := (s.setStage a .closed).push [.drain a]

/-- `#deactivateById` of an active slot. -/
def beginDeactivation (s : LocalHost) (id : SlotId) (a : Nat) : LocalHost :=
  let settles := (s.activations[a]?.map (·.settles)).getD false
  (if settles then s.setStage a .settling else s.close a).setSlot id (.deactivating a)

/-- `#deactivateById`; `r` is what it registers with a slot that is activating. -/
def deactivateById (s : LocalHost) (id : SlotId) (r : Reaction) : LocalHost × Wait :=
  match s.slots.get id with
  | none => (s, .done)
  | some (.deactivating a) => (s, .drain a)
  | some (.activating a) => (s.register a r, .promise a)
  | some (.active a) => (s.beginDeactivation id a, .drain a)

/-- `#forgetMember`. -/
def forgetMember (s : LocalHost) (id : SlotId) : LocalHost :=
  match id.member, s.pools.get id.base with
  | some m, some pool =>
      let members := pool.members.erase m
      if members = [] then { s with pools := s.pools.erase id.base }
      else { s with pools := s.pools.set id.base { pool with members := members } }
  | _, _ => s

/-- The `catch` of a reservation. -/
def forget (s : LocalHost) (a : Nat) (id : SlotId) : LocalHost :=
  let dropped := if s.slots.get id = some (.activating a) then s.eraseSlot id else s
  dropped.forgetMember id

/-- `drained` resolves. -/
def resolveDrained (s : LocalHost) (a : Nat) : LocalHost :=
  let parked := (s.activations[a]?.map (·.parked)).getD []
  ((s.setStage a .gone).modify a fun act => { act with parked := [] }).push (parked.map .resume)

/-- The `finally` of `#deactivateById`, up to the release of the claim. -/
def finish (s : LocalHost) (a : Nat) (id : SlotId) : LocalHost :=
  let dropped := if s.slots.get id = some (.deactivating a) then s.eraseSlot id else s
  match id.member with
  | some _ => (dropped.forgetMember id).resolveDrained a
  | none => dropped.setStage a .releasing

/-! ## `stopAll` -/

/-- One pass of the loop that collects. -/
def collect (state : LocalHost × List Nat × List Wait) (q : SlotId × Slot Nat Nat) :
    LocalHost × List Nat × List Wait :=
  let (s, collected, waits) := state
  match q.2 with
  | .active a => (s.beginDeactivation q.1 a, collected ++ [a], waits ++ [.drain a])
  | .deactivating a => (s, collected ++ [a], waits ++ [.drain a])
  | .activating a =>
      (s.register a (.stop waits.length), collected ++ [a], waits ++ [.promise a])

def stopAll (s : LocalHost) : LocalHost :=
  let (t, collected, waits) := s.slots.entries.foldl collect (s, [], [])
  { t with stop := .draining collected waits }

/-- The promise has settled. -/
def settled (s : LocalHost) : Wait → Bool
  | .promise _ => false
  | .drain a => (s.activations[a]?.map (·.stage)) == some .gone
  | .done => true

/-- The reaction of a wait on a slot that was activating. -/
def stopWait (s : LocalHost) (wait a : Nat) (ok : Bool) : LocalHost :=
  match s.activations[a]? with
  | some act =>
      let next := if ok then s.deactivateById act.slot (.stop wait) else (s, .done)
      match next.1.stop with
      | .draining collected waits =>
          { next.1 with stop := .draining collected (waits.set wait next.2) }
      | _ => next.1
  | none => s

/-- The deadline has passed first: what is active is stopped by force, and every slot is
dropped. -/
def deadline (s : LocalHost) : LocalHost :=
  let forced := s.slots.entries.foldl (fun s q => match q.2 with
    | .active a => s.setStage a .stopped
    | _ => s) s
  { forced with
    slots := .empty
    pools := .empty
    stop := .resolved s.activations.length }

/-! ## Steps -/

/-- A job of the queue runs. -/
def runJob (s : LocalHost) : Job → LocalHost
  | .checked call => s.goOn call
  | .adoptPromise call a => s.register a (.adopt call)
  | .adopted call a ok => s.push [.hold call a ok]
  | .hold call a ok => if ok then s.enqueue call a else s.settle call .otherwise
  | .enqueue call a ok => if ok then s.enqueue call a else s.settle call .otherwise
  | .forget a =>
      match s.activations[a]? with
      | some act => s.forget a act.slot
      | none => s
  | .deactivate a =>
      match s.activations[a]? with
      | some act => (s.deactivateById act.slot .deactivate).1
      | none => s
  | .stop wait a ok => s.stopWait wait a ok
  | .drain a =>
      match s.activations[a]? with
      | some act => if act.stage = .closed then s.setStage a .draining else s
      | none => s
  | .resume call => s.goOn call

/-- `Activation.create` is done, or has failed. -/
def created (s : LocalHost) (a : Nat) (ok : Bool) : Option LocalHost :=
  match s.activations[a]? with
  | some act =>
      if act.stage = .activating then
        if ok then
          let t := s.setStage a .active
          some ((if s.slots.get act.slot = some (.activating a) then
            t.setSlot act.slot (.active a) else t).resolve a true)
        else some ((s.setStage a .failed).resolve a false)
      else none
  | none => none

/-- A call that has waited outside of the queue goes on, or ends there. -/
def answer (s : LocalHost) (call : Nat) (awaits : Awaiting) (goesOn : Bool) : Option LocalHost :=
  match s.calls[call]? with
  | some x =>
      if x.awaits = some awaits then
        let t := s.awaiting call none
        some (if goesOn then t.activationFor call x.base else t.settle call .otherwise)
      else none
  | none => none

end LocalHost

inductive Label where
  | define (base : String) (definition : Definition)
  | dispatch (base : String) (kind : CallKind) (chain : Chain) (admitted : Bool)
  /-- `#checkReentrancy` is done, or a lazy definition is loaded. -/
  | answer (call : Nat) (awaits : Awaiting) (goesOn : Bool)
  /-- The first job of the queue runs. -/
  | next
  | created (activation : Nat) (ok : Bool)
  | tasks (activation : Nat) (settles : Bool)
  /-- `#settleTasks` is done. -/
  | settled (activation : Nat)
  /-- A turn that is no call's is enqueued. -/
  | ownTurn (activation : Nat)
  | turnEnds (activation : Nat)
  | deactivate (id : SlotId)
  /-- The turns have drained, and the last flush is over. -/
  | drained (activation : Nat)
  /-- The claim is released. -/
  | released (activation : Nat)
  | stopAll
  /-- The waits of `stopAll` have settled. -/
  | stopDone
  | deadline
  deriving DecidableEq, Repr

namespace LocalHost

def step (s : LocalHost) : Label → Option LocalHost
  | .define base definition =>
      some { s with definitions := fun b => if b = base then definition else s.definitions b }
  | .dispatch base kind chain admitted => some (s.dispatch base kind chain admitted)
  | .answer call awaits goesOn => s.answer call awaits goesOn
  | .next =>
      match s.queue with
      | job :: queue => some (({ s with queue := queue } : LocalHost).runJob job)
      | [] => none
  | .created a ok => s.created a ok
  | .tasks a settles => some (s.modify a fun act => { act with settles := settles })
  | .settled a =>
      match s.activations[a]? with
      | some act => if act.stage = .settling then some (s.close a) else none
      | none => none
  | .ownTurn a =>
      match s.activations[a]? with
      | some act =>
          if act.stage.laneClosed then some s
          else some (s.modify a fun act => { act with depth := act.depth + 1 })
      | none => none
  | .turnEnds a =>
      match s.activations[a]? with
      | some act =>
          if act.depth = 0 then none
          else some (s.modify a fun act => { act with depth := act.depth - 1 })
      | none => none
  | .deactivate id => some (s.deactivateById id .deactivate).1
  | .drained a =>
      match s.activations[a]? with
      | some act =>
          if act.stage = .draining ∧ act.depth = 0 then some (s.finish a act.slot) else none
      | none => none
  | .released a =>
      match s.activations[a]? with
      | some act => if act.stage = .releasing then some (s.resolveDrained a) else none
      | none => none
  | .stopAll => if s.stop = .no then some s.stopAll else none
  | .stopDone =>
      match s.stop with
      | .draining _ waits =>
          if waits.all s.settled then some { s with stop := .resolved s.activations.length }
          else none
      | _ => none
  | .deadline =>
      match s.stop with
      | .draining _ _ => some s.deadline
      | _ => none

end LocalHost

/-- A host that has just started. -/
def localHost : Machine.System LocalHost Label where
  initial := fun s => ∃ definitions, s = { definitions := definitions }
  step := LocalHost.step

end SigxActors.Host.Lifecycle
