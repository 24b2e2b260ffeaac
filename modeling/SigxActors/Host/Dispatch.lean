/-
  Host/Dispatch.lean --- dispatches on one local host, from entry to settlement.

  Source: `packages/actors/src/host/local-host.ts` (`dispatch`,
  `#dispatchOneWay`, `#dispatchSlow`, `dispatchStream`, `dispatchWatch`,
  `#checkReentrancy`, `#checkShutdown`, `#activationFor`, `#deactivateById`, `stopAll`),
  `packages/actors/src/host/reentrancy.ts`, and what `Turns` and
  `Activation.deactivate` contribute: a turn is queued, runs, and settles, and a
  drain waits for every turn scheduled on the activation.

  A dispatch is a frame with a program counter.  A frame that runs a turn may
  issue further dispatches, whose call chain is its own with its actor's id at
  the end, and it cannot settle while one that it awaits is unresolved.  Each
  read of the slot table is a step, and so is each continuation after an await.
  An activation outlives its slot: a drain goes on, and a promise of an activation
  settles, after a forced shutdown has emptied the table.

  The warm path of a plain call is the check and the lookup in one; a stateless
  type has no slot of its own and is served by its pool, which waits on no drain.
-/
import SigxActors.Machine.Transition
import SigxActors.Host.Slots
import SigxActors.Types

set_option autoImplicit false

namespace SigxActors.Host

open SigxActors.Js

/-! ## Reentrancy -/

/-- The `reentrant` option: absent or `false`, `true` or `'call-chain'`, or
`'always'`. -/
inductive Reentrant where
  | off
  | callChain
  | always
  deriving DecidableEq, Repr

inductive ReentrancyMode where
  | none
  | callChain
  | always
  deriving DecidableEq, Repr

/-- What dispatching reads of a type's definition. -/
structure DispatchOptions where
  reentrant : Reentrant := .off
  /-- The own keys of `methodReentrancy`. -/
  methodReentrancy : List String := []
  stateless : Bool := false

/-- The reentrancy that governs one method. -/
def effectiveReentrancy (opts : DispatchOptions) (method : String) : ReentrancyMode :=
  if method ∈ opts.methodReentrancy then .always
  else
    match opts.reentrant with
    | .always => .always
    | .callChain => .callChain
    | .off => .none

/-! ## State -/

/-- How a method is dispatched. -/
inductive Shape where
  /-- `dispatch`, awaited to its value. -/
  | call
  /-- `dispatch` with `oneWay`: resolves when the turn is enqueued. -/
  | oneWay
  /-- `dispatchStream`, from its first pull. -/
  | stream
  /-- `dispatchWatch`, from its first pull. -/
  | watch
  deriving DecidableEq, Repr

/-- The target, the method and the context of a dispatch. -/
structure DispatchCall where
  ref : ActorRef
  method : String
  shape : Shape
  callChain : List String
  /-- `call.deadline` is set. -/
  deadline : Bool := false
  deriving DecidableEq, Repr

namespace DispatchCall

/-- The directory id of the target. -/
def target (call : DispatchCall) : String := actorId call.ref

/-- `call.callChain.includes(id)` for the target's id. -/
def InChain (call : DispatchCall) : Prop := call.target ∈ call.callChain

instance (call : DispatchCall) : Decidable call.InChain :=
  inferInstanceAs (Decidable (call.target ∈ call.callChain))

end DispatchCall

/-- Why a dispatch was rejected. -/
inductive Rejection where
  /-- `ActorDeadlockError`, or the refusal of a watch that would re-enter. -/
  | deadlock
  /-- The strict placement's "moved mid-call" error. -/
  | moved
  /-- A watch on a stateless worker. -/
  | noState
  | unknownType
  | activation
  | hostShutdown
  deriving DecidableEq, Repr

/-- Where a dispatch is. -/
inductive Pc where
  /-- About to run `#checkReentrancy`. -/
  | checking
  /-- At the head of the loop of `#activationFor`. -/
  | looking
  /-- `await slot.promise` of the activation `inst`. -/
  | joining (inst : Nat)
  /-- `await slot.drained` of the deactivation of `inst`. -/
  | parked (inst : Nat)
  /-- A turn scheduled on `inst`, not started. -/
  | queued (inst : Nat)
  /-- A turn running on `inst`. -/
  | running (inst : Nat)
  /-- `runInline` (or an inline stream setup) under the up-stack turn. -/
  | inline (inst : Nat)
  /-- Served by the pool of a stateless type. -/
  | pooled
  | settled
  | rejected (reason : Rejection)
  deriving DecidableEq, Repr

/-- One dispatch. -/
structure Frame where
  call : DispatchCall
  /-- The frame whose body issued it, here or by way of other hosts. -/
  parent : Option Nat
  /-- The issuing body awaits it. -/
  awaited : Bool
  /-- Its deadline has passed, and the race with it has rejected. -/
  timedOut : Bool := false
  pc : Pc
  deriving DecidableEq, Repr

/-- A dispatch that is here has settled the promise handed to its caller: a
one-way dispatch is accepted once its turn is scheduled. -/
def Pc.Reports (pc : Pc) (shape : Shape) : Prop :=
  match pc with
  | .settled | .rejected _ => True
  | .queued _ | .running _ | .pooled => shape = .oneWay
  | _ => False

instance (pc : Pc) (shape : Shape) : Decidable (pc.Reports shape) := by
  unfold Pc.Reports
  split <;> infer_instance

namespace Frame

/-- The issuing body has its answer. -/
def Resolved (f : Frame) : Prop := f.timedOut = true ∨ f.pc.Reports f.call.shape

instance (f : Frame) : Decidable f.Resolved :=
  inferInstanceAs (Decidable (_ ∨ _))

/-- The frame's body is running. -/
def Active (f : Frame) : Prop :=
  match f.pc with
  | .running _ | .inline _ | .pooled => True
  | _ => False

instance (f : Frame) : Decidable f.Active := by
  unfold Active
  split <;> infer_instance

/-- The frame is a turn scheduled on `inst`, which its drain waits for. -/
def TurnOn (f : Frame) (inst : Nat) : Prop := f.pc = .queued inst ∨ f.pc = .running inst

instance (f : Frame) (inst : Nat) : Decidable (f.TurnOn inst) :=
  inferInstanceAs (Decidable (_ ∨ _))

end Frame

/-- How far the promise of an activation is. -/
inductive Creation where
  | pending
  | resolved
  | failed
  deriving DecidableEq, Repr

/-- An activation, from the reservation of its slot to the end of its drain. -/
structure Instance where
  id : String
  creation : Creation := .pending
  /-- `activation.deactivate` has been called. -/
  draining : Bool := false
  /-- `turns.closed`. -/
  closed : Bool := false
  /-- The `drained` promise has resolved. -/
  drained : Bool := false
  deriving DecidableEq, Repr

/-- The local host.  Dispatches and activations are numbered as they begin. -/
structure DispatchState where
  slots : Slots Nat Nat
  frames : List Frame
  instances : List Instance
  shuttingDown : Bool

/-- What is fixed per host. -/
structure DispatchConfig where
  /-- `#resolveDefinition`. -/
  options : String → Option DispatchOptions
  /-- `strictChainPresence` of the bound placement. -/
  strictChainPresence : Bool

namespace DispatchState

def initial : DispatchState :=
  { slots := .empty, frames := [], instances := [], shuttingDown := false }

/-- Frame `n` moves on. -/
def setPc (s : DispatchState) (n : Nat) (pc : Pc) : DispatchState :=
  { s with frames := s.frames.modify n (fun f => { f with pc := pc }) }

/-- Some dispatch that `n` awaits is unresolved. -/
def Awaiting (s : DispatchState) (n : Nat) : Prop :=
  ∃ f ∈ s.frames, f.parent = some n ∧ f.awaited = true ∧ ¬ f.Resolved

instance (s : DispatchState) (n : Nat) : Decidable (s.Awaiting n) :=
  inferInstanceAs (Decidable (∃ f ∈ s.frames, _))

/-! ## Dispatching -/

/-- The first thing a dispatch does: `#checkShutdown`, and for all but a one-way
the way into `#checkReentrancy`. -/
def entry (s : DispatchState) (call : DispatchCall) : Pc :=
  if s.shuttingDown = true ∧ call.callChain = [] then .rejected .hostShutdown
  else if call.shape = .oneWay then .looking
  else .checking

/-- A dispatch arrives from outside, or from the running body of `parent`: with
its chain and its actor's id, and those of the hosts it came back through. -/
def issue (s : DispatchState) (call : DispatchCall) (parent : Option Nat) (awaited : Bool) :
    Option DispatchState :=
  let frame : Frame :=
    { call := call, parent := parent, awaited := awaited, pc := s.entry call }
  match parent with
  | none => some { s with frames := s.frames ++ [frame] }
  | some p =>
      match s.frames[p]? with
      | some f =>
          if f.Active ∧ f.call.callChain ++ [f.call.target] <+: call.callChain then
            some { s with frames := s.frames ++ [frame] }
          else none
      | none => none

/-- `#checkReentrancy` and what its caller makes of the answer. -/
def checkReentrancy (cfg : DispatchConfig) (slots : Slots Nat Nat) (call : DispatchCall) : Pc :=
  if ¬ call.InChain then .looking
  else
    match cfg.options call.ref.type with
    | none => .rejected .unknownType
    | some opts =>
        match effectiveReentrancy opts call.method, slots.get call.target with
        | .none, _ => .rejected .deadlock
        | .callChain, some (.active inst) =>
            if call.shape = .watch then .rejected .deadlock else .inline inst
        | .always, some (.active _) => .looking
        | _, _ => if cfg.strictChainPresence then .rejected .moved else .looking

/-- A watch is refused on a stateless type before anything else is looked at. -/
def check (cfg : DispatchConfig) (s : DispatchState) (n : Nat) : Option DispatchState :=
  match s.frames[n]? with
  | some ⟨call, _, _, _, .checking⟩ =>
      if call.shape = .watch then
        match cfg.options call.ref.type with
        | none => some (s.setPc n (.rejected .unknownType))
        | some opts =>
            if opts.stateless then some (s.setPc n (.rejected .noState))
            else some (s.setPc n (checkReentrancy cfg s.slots call))
      else some (s.setPc n (checkReentrancy cfg s.slots call))
  | _ => none

/-- `activation.enqueue`, which closed turns refuse. -/
def enqueue (s : DispatchState) (n inst : Nat) : Option DispatchState :=
  match s.instances[inst]? with
  | some act =>
      if act.closed then some (s.setPc n (.rejected .hostShutdown))
      else some (s.setPc n (.queued inst))
  | none => none

/-- One pass of the loop of `#activationFor`, with the enqueue that follows it. -/
def lookup (cfg : DispatchConfig) (s : DispatchState) (n : Nat) : Option DispatchState :=
  match s.frames[n]? with
  | some ⟨call, _, _, _, .looking⟩ =>
      match cfg.options call.ref.type with
      | none => some (s.setPc n (.rejected .unknownType))
      | some opts =>
          if opts.stateless then some (s.setPc n .pooled)
          else
            match s.slots.get call.target with
            | none =>
                some { s.setPc n (.joining s.instances.length) with
                  slots := s.slots.set call.target (.activating s.instances.length)
                  instances := s.instances ++ [{ id := call.target }] }
            | some (.activating inst) => some (s.setPc n (.joining inst))
            | some (.active inst) => s.enqueue n inst
            | some (.deactivating inst) => some (s.setPc n (.parked inst))
  | _ => none

/-- `slot.promise` has settled: the turn is enqueued on the activation, or the
dispatch fails with it. -/
def joined (s : DispatchState) (n : Nat) : Option DispatchState :=
  match s.frames[n]? with
  | some ⟨_, _, _, _, .joining inst⟩ =>
      match s.instances[inst]? with
      | some act =>
          match act.creation with
          | .pending => none
          | .resolved => s.enqueue n inst
          | .failed => some (s.setPc n (.rejected .activation))
      | none => none
  | _ => none

/-- `slot.drained` has resolved: back to the head of the loop. -/
def unpark (s : DispatchState) (n : Nat) : Option DispatchState :=
  match s.frames[n]? with
  | some ⟨_, _, _, _, .parked inst⟩ =>
      match s.instances[inst]? with
      | some act => if act.drained then some (s.setPc n .looking) else none
      | none => none
  | _ => none

/-- The deadline of an awaited call passes; the work goes on. -/
def timeout (s : DispatchState) (n : Nat) : Option DispatchState :=
  match s.frames[n]? with
  | some f =>
      if f.call.shape = .call ∧ f.call.deadline = true ∧ ¬ f.Resolved then
        some { s with frames := s.frames.modify n (fun f => { f with timedOut := true }) }
      else none
  | none => none

/-! ## Turns -/

/-- A turn of the serial lane is running on `inst`. -/
def SerialRunning (cfg : DispatchConfig) (s : DispatchState) (inst : Nat) : Prop :=
  ∃ f ∈ s.frames, f.pc = .running inst ∧
    ∀ opts ∈ cfg.options f.call.ref.type, effectiveReentrancy opts f.call.method ≠ .always

instance (cfg : DispatchConfig) (s : DispatchState) (inst : Nat) :
    Decidable (s.SerialRunning cfg inst) :=
  inferInstanceAs (Decidable (∃ f ∈ s.frames, _))

/-- A scheduled turn starts: at once on the interleaving lane, and when no serial
turn runs on the serial one. -/
def start (cfg : DispatchConfig) (s : DispatchState) (n : Nat) : Option DispatchState :=
  match s.frames[n]? with
  | some ⟨call, _, _, _, .queued inst⟩ =>
      match cfg.options call.ref.type with
      | none => none
      | some opts =>
          if effectiveReentrancy opts call.method = .always ∨ ¬ s.SerialRunning cfg inst then
            some (s.setPc n (.running inst))
          else none
  | _ => none

/-- A running body settles; it awaits nothing any more. -/
def settle (s : DispatchState) (n : Nat) : Option DispatchState :=
  match s.frames[n]? with
  | some f => if f.Active ∧ ¬ s.Awaiting n then some (s.setPc n .settled) else none
  | none => none

/-! ## Slots -/

/-- Activation `inst` changes. -/
def setInstance (s : DispatchState) (inst : Nat) (act : Instance) : DispatchState :=
  { s with instances := s.instances.set inst act }

/-- The activation succeeds; its slot is active if it is still the reserved one. -/
def activated (s : DispatchState) (inst : Nat) : Option DispatchState :=
  match s.instances[inst]? with
  | some act =>
      if act.creation = .pending then
        some { s.setInstance inst { act with creation := .resolved } with
          slots :=
            if s.slots.get act.id = some (.activating inst) then s.slots.set act.id (.active inst)
            else s.slots }
      else none
  | none => none

/-- The activation fails and its reservation is dropped. -/
def activationFails (s : DispatchState) (inst : Nat) : Option DispatchState :=
  match s.instances[inst]? with
  | some act =>
      if act.creation = .pending then
        some { s.setInstance inst { act with creation := .failed } with
          slots :=
            if s.slots.get act.id = some (.activating inst) then s.slots.erase act.id
            else s.slots }
      else none
  | none => none

/-- `#deactivateById` on an active slot. -/
def deactivate (s : DispatchState) (id : String) : Option DispatchState :=
  match s.slots.beginDeactivation id with
  | some (inst, slots) =>
      match s.instances[inst]? with
      | some act => some { s.setInstance inst { act with draining := true } with slots := slots }
      | none => none
  | none => none

/-- `turns.close()`, once the tasks' grace is over. -/
def closeTurns (s : DispatchState) (inst : Nat) : Option DispatchState :=
  match s.instances[inst]? with
  | some act =>
      if act.draining then some (s.setInstance inst { act with closed := true }) else none
  | none => none

/-- `turns.drain()` has resolved, since no turn is scheduled on the activation any
more; its slot is deleted if it is still there. -/
def drained (s : DispatchState) (inst : Nat) : Option DispatchState :=
  match s.instances[inst]? with
  | some act =>
      if act.draining = true ∧ act.closed = true ∧ ∀ f ∈ s.frames, ¬ f.TurnOn inst then
        some { s.setInstance inst { act with drained := true } with
          slots :=
            if s.slots.get act.id = some (.deactivating inst) then s.slots.erase act.id
            else s.slots }
      else none
  | none => none

/-- `stopAll` sets its flag; the deactivations that it begins are steps of their own. -/
def shutdown (s : DispatchState) : Option DispatchState :=
  some { s with shuttingDown := true }

/-- The shutdown deadline: active activations are stopped by force, and every slot
is deleted. -/
def forceDrop (s : DispatchState) : Option DispatchState :=
  if s.shuttingDown then
    some { s with
      instances := s.instances.mapIdx fun inst act =>
        if s.slots.get act.id = some (.active inst) then { act with closed := true } else act
      slots := .empty }
  else none

end DispatchState

/-! ## The machine -/

/-- The events of a local host. -/
inductive DispatchLabel where
  | issue (call : DispatchCall) (parent : Option Nat) (awaited : Bool)
  | check (n : Nat)
  | lookup (n : Nat)
  | joined (n : Nat)
  | unpark (n : Nat)
  | timeout (n : Nat)
  | start (n : Nat)
  | settle (n : Nat)
  | activated (inst : Nat)
  | activationFails (inst : Nat)
  | deactivate (id : String)
  | closeTurns (inst : Nat)
  | drained (inst : Nat)
  | shutdown
  | forceDrop
  deriving DecidableEq, Repr

/-- One event. -/
def DispatchState.step (cfg : DispatchConfig) (s : DispatchState) :
    DispatchLabel → Option DispatchState
  | .issue call parent awaited => s.issue call parent awaited
  | .check n => s.check cfg n
  | .lookup n => s.lookup cfg n
  | .joined n => s.joined n
  | .unpark n => s.unpark n
  | .timeout n => s.timeout n
  | .start n => s.start cfg n
  | .settle n => s.settle n
  | .activated inst => s.activated inst
  | .activationFails inst => s.activationFails inst
  | .deactivate id => s.deactivate id
  | .closeTurns inst => s.closeTurns inst
  | .drained inst => s.drained inst
  | .shutdown => s.shutdown
  | .forceDrop => s.forceDrop

/-- One local host, from an empty slot table. -/
def localHost (cfg : DispatchConfig) : Machine.System DispatchState DispatchLabel where
  initial := fun s => s = .initial
  step := DispatchState.step cfg

end SigxActors.Host
