/-
  Host/ParkedCalls.lean --- calls wait for a deactivation.

  Source: `packages/actors/src/host/local-host.ts`, `turns.ts`.

  A call that has obtained an activation, or waits for its promise, has yet to enqueue its
  turn.  As long as no lane is closed over such a call, no call is refused because a lane
  is closed.
-/
import SigxActors.Host.LifecycleSlots

set_option autoImplicit false

namespace SigxActors.Host.Lifecycle

open SigxActors.Js

/-! ## The property -/

/-- The calls of a host that is not stopped wait rather than fail. -/
structure WaitsThrough (s : LocalHost) : Prop where
  /-- No call is refused with `HostShutdownError`. -/
  served : ∀ x ∈ s.calls, x.outcome ≠ some .shutdown
  /-- What runs does so on an activation of its actor. -/
  own : ∀ x ∈ s.calls, ∀ a, x.outcome = some (.ran a) →
    ∃ act, s.activations[a]? = some act ∧ act.slot.base = x.base
  /-- There is no fresh activation of a slot before the old one has drained. -/
  alone : ∀ (a b : Nat) (act act' : Activation), s.activations[a]? = some act →
    s.activations[b]? = some act' → act.slot = act'.slot → act.stage.placed = true →
    act'.stage.placed = true → a = b

/-- The call that a job carries to an activation. -/
def Job.carries : Job → Option (Nat × Nat)
  | .adoptPromise call a => some (call, a)
  | .adopted call a _ => some (call, a)
  | .hold call a _ => some (call, a)
  | .enqueue call a _ => some (call, a)
  | _ => none

def Reaction.carries : Reaction → Option Nat
  | .adopt call => some call
  | .enqueue call => some call
  | _ => none

namespace LocalHost

/-- Some call has obtained the activation, or waits for its promise, and has yet to
enqueue. -/
def awaited (s : LocalHost) (a : Nat) : Bool :=
  (s.queue.any fun job => job.carries.any fun q => q.2 == a) ||
    (s.activations[a]?).any fun act => act.reactions.any fun r => r.carries.isSome

/-- The lane that `#deactivateById` closes at once. -/
def deactivates (s : LocalHost) (id : SlotId) : Option Nat :=
  match s.slots.get id with
  | some (.active a) => if (s.activations[a]?.map (·.settles)).getD false then none else some a
  | _ => none

/-- The lane that a step closes. -/
def closes (s : LocalHost) : Label → Option Nat
  | .deactivate id => s.deactivates id
  | .settled a => some a
  | .next =>
      match s.queue with
      | .deactivate a :: _ | .stop _ a true :: _ =>
          (s.activations[a]?).bind fun act => s.deactivates act.slot
      | _ => none
  | _ => none

/-- No lane is closed over a call that has yet to enqueue. -/
def Spares (s : LocalHost) (l : Label) : Prop := ((s.closes l).all fun a => !s.awaited a) = true

instance (s : LocalHost) (l : Label) : Decidable (s.Spares l) :=
  inferInstanceAs (Decidable (_ = true))

/-! ## Calls on their way -/

/-- The activation is of the call's actor, and its lane is open. -/
def Held (s : LocalHost) (call a : Nat) : Prop :=
  ∃ id stage, s.shape a = some (id, stage) ∧ stage.laneClosed = false ∧
    s.calls[call]?.map (·.base) = some id.base

/-- The call is on its way to the activation. -/
def Carried (s : LocalHost) (call a : Nat) : Prop :=
  (∃ job ∈ s.queue, job.carries = some (call, a)) ∨
    ∃ act, s.activations[a]? = some act ∧ ∃ r ∈ act.reactions, r.carries = some call

/-- A call is where the invariant wants it. -/
def Placed (s : LocalHost) (x : Call) : Prop :=
  x.outcome ≠ some .shutdown ∧
    ∀ a, x.outcome = some (.ran a) → ∃ id stage, s.shape a = some (id, stage) ∧ id.base = x.base

structure Tokens (s : LocalHost) : Prop where
  held : ∀ call a, s.Carried call a → s.Held call a
  calls : ∀ x ∈ s.calls, s.Placed x

variable {s t : LocalHost} {a b call : Nat} {id : SlotId} {stage : Stage} {r : Reaction}

theorem awaited_of_carried (h : s.Carried call a) : s.awaited a = true := by
  rcases h with ⟨job, hjob, hcarries⟩ | ⟨act, hact, r, hr, hcarries⟩
  · refine Bool.or_eq_true_iff.2 (.inl (List.any_eq_true.2 ⟨job, hjob, ?_⟩))
    rw [hcarries]
    simp
  · refine Bool.or_eq_true_iff.2 (.inr ?_)
    rw [hact]
    refine List.any_eq_true.2 ⟨r, hr, ?_⟩
    rw [hcarries]
    rfl

theorem Placed.mono {x : Call} (h : s.Placed x)
    (hslots : ∀ a id stage, s.shape a = some (id, stage) → ∃ stage', t.shape a = some (id, stage')) :
    t.Placed x := by
  refine ⟨h.1, fun a ha => ?_⟩
  obtain ⟨id, stage, hshape, hbase⟩ := h.2 a ha
  obtain ⟨stage', hshape'⟩ := hslots a id stage hshape
  exact ⟨id, stage', hshape', hbase⟩

/-- A step that puts only held calls on their way keeps the invariant. -/
theorem Tokens.mono (h : Tokens s)
    (hcarried : ∀ call a, t.Carried call a → s.Carried call a ∨ t.Held call a)
    (hheld : ∀ call a, s.Carried call a → s.Held call a → t.Held call a)
    (hcalls : ∀ x ∈ t.calls, x ∈ s.calls ∨ t.Placed x)
    (hslots : ∀ a id stage, s.shape a = some (id, stage) →
      ∃ stage', t.shape a = some (id, stage')) : Tokens t := by
  constructor
  case held =>
    intro call a hmem
    rcases hcarried call a hmem with hold | hnew
    · exact hheld call a hold (h.held call a hold)
    · exact hnew
  case calls =>
    intro x hx
    rcases hcalls x hx with hold | hnew
    · exact (h.calls x hold).mono hslots
    · exact hnew

/-- Nothing that the invariant looks at has changed. -/
theorem Tokens.congr (h : Tokens s) (hactivations : t.activations = s.activations)
    (hqueue : t.queue = s.queue) (hcalls : t.calls = s.calls) : Tokens t := by
  have hshape : ∀ a, t.shape a = s.shape a := fun a => by rw [shape, shape, hactivations]
  refine h.mono ?_ ?_ (fun x hx => .inl (hcalls ▸ hx)) fun a id stage hs => ⟨stage, (hshape a).trans hs⟩
  · intro call a hmem
    refine .inl ?_
    unfold Carried at hmem ⊢
    rwa [hqueue, hactivations] at hmem
  · rintro call a - ⟨id, stage, hs, hopen, hbase⟩
    exact ⟨id, stage, (hshape a).trans hs, hopen, by rw [hcalls]; exact hbase⟩

theorem Tokens.push {jobs : List Job} (h : Tokens s)
    (hjobs : ∀ job ∈ jobs, ∀ call a, job.carries = some (call, a) → s.Held call a) :
    Tokens (s.push jobs) := by
  refine h.mono ?_ (fun _ _ _ hheld => hheld) (fun x hx => .inl hx) fun a id stage hs => ⟨stage, hs⟩
  rintro call a (⟨job, hjob, hcarries⟩ | hreaction)
  · rcases List.mem_append.1 hjob with hjob | hjob
    · exact .inl (.inl ⟨job, hjob, hcarries⟩)
    · exact .inr (hjobs job hjob call a hcarries)
  · exact .inl (.inr hreaction)

/-- A job that carries no call is no concern of the invariant. -/
theorem Tokens.push_plain {jobs : List Job} (h : Tokens s)
    (hjobs : ∀ job ∈ jobs, job.carries = none) : Tokens (s.push jobs) := by
  refine h.push fun job hjob call a hcarries => ?_
  rw [hjobs job hjob] at hcarries
  simp at hcarries

variable {job : Job} {queue : List Job} {calls : List Call} {base : String}

theorem Tokens.tail (h : Tokens s) (hqueue : s.queue = job :: queue) :
    Tokens { s with queue := queue } := by
  refine h.mono ?_ (fun _ _ _ hheld => hheld) (fun x hx => .inl hx) fun a id stage hs => ⟨stage, hs⟩
  rintro call a (⟨other, hother, hcarries⟩ | hreaction)
  · exact .inl (.inl ⟨other, by rw [hqueue]; exact List.mem_cons_of_mem _ hother, hcarries⟩)
  · exact .inl (.inr hreaction)

theorem held_modify {f : Activation → Activation}
    (hf : ∀ act, (f act).slot = act.slot ∧ (f act).stage = act.stage) :
    (s.modify a f).Held call b ↔ s.Held call b := by
  unfold Held
  rw [shape_modify s a b hf]
  exact Iff.rfl

/-- A change to an activation that registers only held calls. -/
theorem Tokens.modify {f : Activation → Activation} (h : Tokens s)
    (hf : ∀ act, (f act).slot = act.slot ∧ (f act).stage = act.stage)
    (hreactions : ∀ act, ∀ r ∈ (f act).reactions, r ∈ act.reactions ∨
      ∀ call, r.carries = some call → s.Held call a) : Tokens (s.modify a f) := by
  refine h.mono ?_ (fun _ _ _ hheld => (held_modify hf).2 hheld) (fun x hx => .inl hx) ?_
  · rintro call b (hjob | ⟨act, hact, r, hr, hcarries⟩)
    · exact .inl (.inl hjob)
    · rw [getElem?_modify] at hact
      obtain ⟨old, hold, rfl⟩ := Option.map_eq_some_iff.1 hact
      split at hr
      · rename_i hb
        subst hb
        rcases hreactions old r hr with hmem | hheld
        · exact .inl (.inr ⟨old, hold, r, hmem, hcarries⟩)
        · exact .inr ((held_modify hf).2 (hheld call hcarries))
      · exact .inl (.inr ⟨old, hold, r, hr, hcarries⟩)
  · exact fun b id stage hs => ⟨stage, (shape_modify s a b hf).trans hs⟩

/-- The stage changes: the lane stays open, or no call is on its way. -/
theorem Tokens.setStage (h : Tokens s)
    (hopen : stage.laneClosed = false ∨ ∀ call, ¬ s.Carried call a) :
    Tokens (s.setStage a stage) := by
  have hshape := shape_setStage s a
  refine h.mono ?_ ?_ (fun x hx => .inl hx) ?_
  · rintro call b (hjob | ⟨act, hact, r, hr, hcarries⟩)
    · exact .inl (.inl hjob)
    · rw [LocalHost.setStage, getElem?_modify] at hact
      obtain ⟨old, hold, rfl⟩ := Option.map_eq_some_iff.1 hact
      refine .inl (.inr ⟨old, hold, r, ?_, hcarries⟩)
      split at hr <;> exact hr
  · rintro call b hcarried ⟨id, st, hst, hlane, hbase⟩
    by_cases hb : b = a
    · subst hb
      rcases hopen with hopen | hnone
      · exact ⟨id, stage, by rw [hshape, if_pos rfl, hst]; rfl, hopen, hbase⟩
      · exact absurd hcarried (hnone call)
    · exact ⟨id, st, by rw [hshape, if_neg hb]; exact hst, hlane, hbase⟩
  · intro b id st hst
    rw [hshape]
    split
    · exact ⟨stage, by rw [hst]; rfl⟩
    · exact ⟨st, hst⟩

/-- No call is on its way to a closed lane. -/
theorem Tokens.not_carried (h : Tokens s) (hshape : s.shape a = some (id, stage))
    (hclosed : stage.laneClosed = true) (call : Nat) : ¬ s.Carried call a := by
  intro hcarried
  obtain ⟨j, st, hst, hopen, -⟩ := h.held call a hcarried
  obtain ⟨-, rfl⟩ := Prod.mk.inj (Option.some.inj (hshape.symm.trans hst))
  rw [hclosed] at hopen
  simp at hopen

/-- The job of a reaction carries the call that the reaction does. -/
theorem carries_of_job {ok : Bool} (hjob : r.job a ok = some job)
    (hcarries : job.carries = some (call, b)) : r.carries = some call ∧ b = a := by
  cases r with
  | forget =>
    cases ok with
    | true => simp [Reaction.job] at hjob
    | false =>
      cases hjob
      simp [Job.carries] at hcarries
  | adopt | enqueue =>
    cases hjob
    obtain ⟨rfl, rfl⟩ := Prod.mk.inj (Option.some.inj hcarries)
    exact ⟨rfl, rfl⟩
  | deactivate =>
    cases ok with
    | true =>
      cases hjob
      simp [Job.carries] at hcarries
    | false => simp [Reaction.job] at hjob
  | stop wait =>
    cases hjob
    simp [Job.carries] at hcarries

theorem Tokens.register (h : Tokens s) (hr : ∀ call, r.carries = some call → s.Held call a) :
    Tokens (s.register a r) := by
  have hjob : ∀ (ok : Bool), ∀ job ∈ (r.job a ok).toList, ∀ call b,
      job.carries = some (call, b) → s.Held call b := by
    intro ok job hmem call b hcarries
    obtain ⟨hcall, rfl⟩ := carries_of_job (Option.mem_toList.1 hmem) hcarries
    exact hr call hcall
  unfold LocalHost.register
  split
  · split
    · refine h.modify (fun _ => ⟨rfl, rfl⟩) fun act r' hr' => ?_
      rcases List.mem_append.1 hr' with hr' | hr'
      · exact .inl hr'
      · rw [List.mem_singleton.1 hr']
        exact .inr hr
    · exact h.push (hjob false)
    · exact h.push (hjob true)
  · exact h

theorem Tokens.resolve (h : Tokens s) (ok : Bool) : Tokens (s.resolve a ok) := by
  unfold LocalHost.resolve
  split
  · rename_i act hact
    have hcleared : Tokens (s.modify a fun act => { act with reactions := [] }) :=
      h.modify (fun _ => ⟨rfl, rfl⟩) fun act r hr => absurd hr List.not_mem_nil
    refine hcleared.push fun job hjob call b hcarries => ?_
    obtain ⟨r, hr, heq⟩ := List.mem_filterMap.1 hjob
    obtain ⟨hcall, rfl⟩ := carries_of_job heq hcarries
    refine (held_modify ?_).2 (h.held call b (.inr ⟨act, hact, r, hr, hcall⟩))
    exact fun _ => ⟨rfl, rfl⟩
  · exact h

/-! ## Calls -/

/-- The calls change, but for their actors; none is refused by a closed lane. -/
theorem Tokens.setCalls (h : Tokens s)
    (hbase : ∀ (call : Nat) base, s.calls[call]?.map (·.base) = some base →
      calls[call]?.map (·.base) = some base)
    (hcalls : ∀ x ∈ calls, x ∈ s.calls ∨ s.Placed x) : Tokens { s with calls := calls } := by
  refine h.mono (fun _ _ hmem => .inl hmem) ?_ hcalls fun a id stage hs => ⟨stage, hs⟩
  rintro call a - ⟨id, stage, hshape, hopen, hb⟩
  exact ⟨id, stage, hshape, hopen, hbase call id.base hb⟩

theorem base_modify {f : Call → Call} (hf : ∀ x, (f x).base = x.base) (call other : Nat)
    (base : String) (h : calls[other]?.map (·.base) = some base) :
    (calls.modify call f)[other]?.map (·.base) = some base := by
  rw [List.getElem?_modify, Option.map_eq_map, Option.map_map, ← h]
  congr 1
  funext x
  split
  · exact hf x
  · rfl

/-- A call that is modified is modified from one that is there. -/
theorem mem_modify {f : Call → Call} {x : Call} (h : x ∈ calls.modify call f) :
    x ∈ calls ∨ ∃ old, calls[call]? = some old ∧ x = f old := by
  obtain ⟨n, hn⟩ := List.mem_iff_getElem?.1 h
  rw [List.getElem?_modify, Option.map_eq_map] at hn
  obtain ⟨old, hold, rfl⟩ := Option.map_eq_some_iff.1 hn
  split
  · rename_i heq
    exact .inr ⟨old, heq ▸ hold, rfl⟩
  · exact .inl (List.mem_of_getElem? hold)

theorem Tokens.settle {outcome : Outcome} (h : Tokens s)
    (houtcome : ∀ x, s.calls[call]? = some x → s.Placed { x with outcome := some outcome }) :
    Tokens (s.settle call outcome) := by
  refine h.setCalls (base_modify ?_ call) fun x hx => ?_
  · exact fun _ => rfl
  · rcases mem_modify hx with hold | ⟨old, hold, rfl⟩
    · exact .inl hold
    · exact .inr (houtcome old hold)

theorem Tokens.settle_otherwise (h : Tokens s) : Tokens (s.settle call .otherwise) :=
  h.settle fun x _ => ⟨by simp, fun a ha => by simp at ha⟩

theorem Tokens.awaiting (h : Tokens s) (awaits : Option Awaiting) :
    Tokens (s.awaiting call awaits) := by
  refine h.setCalls (base_modify ?_ call) fun x hx => ?_
  · exact fun _ => rfl
  · rcases mem_modify hx with hold | ⟨old, hold, rfl⟩
    · exact .inl hold
    · exact .inr (h.calls old (List.mem_of_getElem? hold))

/-- A turn that is enqueued on an open lane is taken. -/
theorem Tokens.enqueue (h : Tokens s) (hheld : s.Held call a) : Tokens (s.enqueue call a) := by
  obtain ⟨id, stage, hshape, hopen, hbase⟩ := hheld
  unfold LocalHost.enqueue
  split
  · rename_i x act hx hact
    have heq := (shape_of_getElem? hact).symm.trans hshape
    obtain ⟨hslot, hstage⟩ := Prod.mk.inj (Option.some.inj heq)
    have hlane : act.stage.laneClosed = false := hstage ▸ hopen
    rw [if_neg fun hand => absurd hand.2 (by simp [hlane])]
    split
    · exact h.settle_otherwise
    rw [if_neg (by simp [hlane])]
    have hdepth : Tokens (s.modify a fun act => { act with depth := act.depth + 1 }) :=
      h.modify (fun _ => ⟨rfl, rfl⟩) fun act r hr => .inl hr
    refine hdepth.settle fun y hy => ⟨by simp, fun b hb => ?_⟩
    obtain rfl := Outcome.ran.inj (Option.some.inj hb)
    have hy' : s.calls[call]? = some y := hy
    rw [hy'] at hbase
    refine ⟨id, stage, (shape_modify s a a ?_).trans hshape, ?_⟩
    · exact fun _ => ⟨rfl, rfl⟩
    · exact (Option.some.inj hbase).symm
  · exact h

theorem Tokens.reserve (h : Tokens s) (pools : JsMap String WorkerPool) (id : SlotId) :
    Tokens (LocalHost.reserve { s with pools := pools } id) := by
  have hshape : ∀ b q, s.shape b = some q →
      (LocalHost.reserve { s with pools := pools } id).shape b = some q := by
    intro b q hb
    rw [shape_reserve, if_neg (ne_length_of_shape (s := { s with pools := pools }) hb)]
    exact hb
  refine h.mono ?_ ?_ (fun x hx => .inl hx) fun b j stage hs => ⟨stage, hshape b _ hs⟩
  · rintro call b (hjob | ⟨act, hact, r, hr, hcarries⟩)
    · exact .inl (.inl hjob)
    · have hget : (s.activations ++ [({ slot := id } : Activation)])[b]? = some act := hact
      rw [List.getElem?_append] at hget
      split at hget
      · exact .inl (.inr ⟨act, hget, r, hr, hcarries⟩)
      rw [List.mem_singleton.1 (List.mem_of_getElem? hget)] at hr
      rw [List.mem_singleton.1 hr] at hcarries
      simp [Reaction.carries] at hcarries
  · rintro call b - ⟨j, stage, hs, hopen, hbase⟩
    exact ⟨j, stage, hshape b _ hs, hopen, hbase⟩

theorem held_of_slot {slot : Slot Nat Nat} (hw : Wired s) (hget : s.slots.get id = some slot)
    (hdeactivating : ∀ a, slot ≠ .deactivating a) (hbase : id.base = base)
    (hcall : s.calls[call]?.map (·.base) = some base) : s.Held call (named slot) := by
  obtain ⟨st, hshape, hfit⟩ := hw.fits id slot hget
  refine ⟨id, st, hshape, ?_, hbase ▸ hcall⟩
  cases slot with
  | activating b =>
    rcases hfit with rfl | rfl
    · rfl
    · rfl
  | active b =>
    obtain rfl : st = .active := hfit
    rfl
  | deactivating b => exact absurd rfl (hdeactivating b)

theorem held_reserved (hres : Reserves s id t) (hbase : id.base = base)
    (hcall : s.calls[call]?.map (·.base) = some base) : t.Held call s.activations.length := by
  obtain ⟨pools, rfl⟩ := hres.eq
  refine ⟨id, .activating, ?_, rfl, hbase ▸ hcall⟩
  rw [shape_reserve]
  exact if_pos rfl

theorem Tokens.reserves (h : Tokens s) (hres : Reserves s id t) : Tokens t := by
  obtain ⟨pools, rfl⟩ := hres.eq
  exact h.reserve pools id

section

variable (h : Tokens s) (hw : Wired s)
include h hw

theorem Tokens.entered
    (hcall : s.calls[call]?.map (·.base) = some base) (hent : Entered s call base t) :
    Tokens t := by
  have hone : ∀ {u : LocalHost} {job : Job} {b : Nat}, Tokens u → u.Held call b →
      job.carries = some (call, b) → Tokens (u.push [job]) := by
    intro u job b hu hheld hjob
    refine hu.push fun other hother d c hcarries => ?_
    rw [List.mem_singleton.1 hother, hjob] at hcarries
    obtain ⟨rfl, rfl⟩ := Prod.mk.inj (Option.some.inj hcarries)
    exact hheld
  cases hent with
  | holds hbase hget => exact hone h (held_of_slot hw hget (by simp) hbase hcall) rfl
  | joins hbase hget => exact hone h (held_of_slot hw hget (by simp) hbase hcall) rfl
  | reserves hbase hres => exact hone (h.reserves hres) (held_reserved hres hbase hcall) rfl
  | parks hget => exact h.modify (fun _ => ⟨rfl, rfl⟩) fun act r hr => .inl hr
  | awaits => exact h.awaiting _
  | refused => exact h.settle_otherwise

theorem Tokens.warmed
    (hcall : s.calls[call]?.map (·.base) = some base) (hwarm : Warmed s call base t) :
    Tokens t := by
  cases hwarm with
  | enqueues hbase hget => exact h.enqueue (held_of_slot hw hget (by simp) hbase hcall)
  | joins hbase hget =>
    refine h.register fun d hd => ?_
    cases hd
    exact held_of_slot hw hget (by simp) hbase hcall
  | reserves hbase hres =>
    refine (h.reserves hres).register fun d hd => ?_
    cases hd
    exact held_reserved hres hbase hcall
  | slow =>
    refine h.push_plain fun job hjob => ?_
    rw [List.mem_singleton.1 hjob]
    rfl

theorem Tokens.goOn : Tokens (s.goOn call) := by
  unfold LocalHost.goOn
  split
  · rename_i x hx
    exact h.entered hw (by rw [hx]; rfl) (entered_activationFor hw call x.base)
  · exact h

theorem Tokens.dispatch (hstop : s.stop = .no) (base : String)
    (kind : CallKind) (chain : Chain) (admitted : Bool) :
    Tokens (s.dispatch base kind chain admitted) := by
  unfold LocalHost.dispatch
  generalize hx : ({ base := base, kind := kind, chain := chain, admitted := admitted } : Call) = x
  have hw' : Wired { s with calls := s.calls ++ [x] } := hw.quiet (quiet_call s x)
  have hcall : (s.calls ++ [x])[s.calls.length]?.map (·.base) = some base := by
    rw [List.getElem?_concat_length, ← hx]
    rfl
  have h' : Tokens { s with calls := s.calls ++ [x] } := by
    refine h.setCalls ?_ fun y hy => ?_
    · intro call b hb
      obtain ⟨y, hy, hyb⟩ := Option.map_eq_some_iff.1 hb
      have hlt : call < s.calls.length := by
        obtain ⟨hlt, -⟩ := List.getElem?_eq_some_iff.1 hy
        exact hlt
      rw [List.getElem?_append_left hlt]
      exact hb
    · rcases List.mem_append.1 hy with hy | hy
      · exact .inl hy
      · rw [List.mem_singleton.1 hy, ← hx]
        exact .inr ⟨by simp, fun a ha => by simp at ha⟩
  rw [if_neg fun hand => hand.1 hstop]
  split
  · exact h'.entered hw' hcall (entered_activationFor hw' _ _)
  · exact h'.awaiting _
  · exact h'.awaiting _
  · exact h'.warmed hw' hcall (warmed_warmOrSlow hw' _ _)

theorem Tokens.answer {awaits : Awaiting} {goesOn : Bool}
    (hstep : s.answer call awaits goesOn = some t) : Tokens t := by
  unfold LocalHost.answer at hstep
  split at hstep
  · rename_i x hx
    obtain ⟨-, rfl⟩ := guard_taken hstep
    have h' : Tokens (s.awaiting call none) := h.awaiting none
    have hw' := hw.quiet (quiet_awaiting s call none)
    have hcall : (s.awaiting call none).calls[call]?.map (·.base) = some x.base := by
      refine base_modify ?_ call call x.base (by rw [hx]; rfl)
      exact fun _ => rfl
    split
    · exact h'.entered hw' hcall (entered_activationFor hw' _ _)
    · exact h'.settle_otherwise
  · simp at hstep

end

/-! ## Stages -/

theorem Tokens.created {ok : Bool} (h : Tokens s) (hstep : s.created a ok = some t) : Tokens t := by
  unfold LocalHost.created at hstep
  split at hstep
  · obtain ⟨-, hstep⟩ := guard_passed hstep
    cases ok with
    | true =>
      cases hstep
      have hactive : Tokens (s.setStage a .active) := h.setStage (.inl rfl)
      split
      · refine Tokens.resolve ?_ true
        exact hactive.congr rfl rfl rfl
      · exact hactive.resolve true
    | false =>
      cases hstep
      have hfailed : Tokens (s.setStage a .failed) := h.setStage (.inl rfl)
      exact hfailed.resolve false
  · simp at hstep

theorem Tokens.close (h : Tokens s) (hspared : ∀ call, ¬ s.Carried call a) :
    Tokens (s.close a) := by
  refine (h.setStage (.inr hspared)).push_plain fun job hjob => ?_
  rw [List.mem_singleton.1 hjob]
  rfl

/-- The lane of an active slot that is deactivated is left by all calls, or stays open. -/
def Spared (s : LocalHost) (id : SlotId) : Prop :=
  ∀ a, s.deactivates id = some a → ∀ call, ¬ s.Carried call a

theorem Tokens.beginDeactivation (h : Tokens s) (hget : s.slots.get id = some (.active a))
    (hspared : s.Spared id) : Tokens (s.beginDeactivation id a) := by
  unfold LocalHost.beginDeactivation
  dsimp only
  split
  · have hsettling : Tokens (s.setStage a .settling) := h.setStage (.inl rfl)
    exact hsettling.congr rfl rfl rfl
  rename_i hsettles
  have hclosed : Tokens (s.close a) := by
    refine h.close (hspared a ?_)
    unfold deactivates
    rw [hget]
    exact if_neg hsettles
  exact hclosed.congr rfl rfl rfl

theorem Tokens.deactivateById (h : Tokens s) (hr : r.carries = none) (hspared : s.Spared id) :
    Tokens (s.deactivateById id r).1 := by
  unfold LocalHost.deactivateById
  split
  · exact h
  · exact h
  · exact h.register fun call hcall => nomatch hr.symm.trans hcall
  · rename_i a hget
    exact h.beginDeactivation hget hspared

theorem Tokens.forgetMember (h : Tokens s) : Tokens (s.forgetMember id) := by
  obtain ⟨pools, heq⟩ := forgetMember_eq s id
  rw [heq]
  exact h.congr rfl rfl rfl

theorem Tokens.forget (h : Tokens s) : Tokens (s.forget a id) := by
  unfold LocalHost.forget
  split
  · exact Tokens.forgetMember (h.congr rfl rfl rfl)
  · exact h.forgetMember

theorem Tokens.resolveDrained (h : Tokens s) (hshape : s.shape a = some (id, stage))
    (hclosed : stage.laneClosed = true) : Tokens (s.resolveDrained a) := by
  have hgone : Tokens (s.setStage a .gone) := h.setStage (.inr (h.not_carried hshape hclosed))
  have hempty : Tokens ((s.setStage a .gone).modify a fun act => { act with parked := [] }) :=
    hgone.modify (fun _ => ⟨rfl, rfl⟩) fun act r hr => .inl hr
  refine hempty.push_plain fun job hjob => ?_
  obtain ⟨call, -, rfl⟩ := List.mem_map.1 hjob
  rfl

theorem Tokens.finish (h : Tokens s) (hshape : s.shape a = some (id, .draining)) :
    Tokens (s.finish a id) := by
  have hdropped : ∀ t, t = (if s.slots.get id = some (.deactivating a) then s.eraseSlot id else s) →
      Tokens t ∧ t.shape a = some (id, .draining) := by
    rintro t rfl
    split
    · exact ⟨h.congr rfl rfl rfl, hshape⟩
    · exact ⟨h, hshape⟩
  unfold LocalHost.finish
  generalize hu : (if s.slots.get id = some (.deactivating a) then s.eraseSlot id else s) = u
  obtain ⟨hu, hushape⟩ := hdropped u hu.symm
  split
  · obtain ⟨pools, heq⟩ := forgetMember_eq u id
    have hforgotten : (u.forgetMember id).shape a = some (id, .draining) := by
      rw [heq]
      exact hushape
    exact hu.forgetMember.resolveDrained hforgotten rfl
  · exact hu.setStage (.inr (hu.not_carried hushape rfl))

/-! ## Steps -/

/-- A call that the first job carries is held. -/
theorem Tokens.held_head (h : Tokens s) (hqueue : s.queue = job :: queue)
    (hcarries : job.carries = some (call, a)) :
    LocalHost.Held { s with queue := queue } call a :=
  h.held call a (.inl ⟨job, by rw [hqueue]; exact List.mem_cons_self, hcarries⟩)

/-- What a step spares has no call on its way. -/
theorem Spares.not_carried {l : Label} (h : s.Spares l) (hcloses : s.closes l = some a)
    (call : Nat) : ¬ s.Carried call a := by
  intro hcarried
  unfold Spares at h
  rw [hcloses, Option.all_some, awaited_of_carried hcarried] at h
  cases h

theorem carried_tail (hqueue : s.queue = job :: queue)
    (h : LocalHost.Carried { s with queue := queue } call a) : s.Carried call a := by
  rcases h with ⟨other, hother, hcarries⟩ | hreaction
  · exact .inl ⟨other, by rw [hqueue]; exact List.mem_cons_of_mem _ hother, hcarries⟩
  · exact .inr hreaction

/-- The first job deactivates activation `a`. -/
theorem spared_of_spares {act : Activation} (hqueue : s.queue = job :: queue)
    (hjob : job = .deactivate a ∨ ∃ wait, job = .stop wait a true)
    (hact : s.activations[a]? = some act) (h : s.Spares .next) :
    LocalHost.Spared { s with queue := queue } act.slot := by
  intro b hb call hcarried
  refine h.not_carried ?_ call (carried_tail hqueue hcarried)
  have hcloses : s.closes .next = (s.activations[a]?).bind fun act => s.deactivates act.slot := by
    unfold closes
    rw [hqueue]
    obtain rfl | ⟨wait, rfl⟩ := hjob
    · rfl
    · rfl
  rw [hcloses, hact]
  exact hb

theorem Tokens.stopWait {wait : Nat} {ok : Bool} (h : Tokens s)
    (hspared : ∀ act, s.activations[a]? = some act → ok = true → s.Spared act.slot) :
    Tokens (s.stopWait wait a ok) := by
  unfold LocalHost.stopWait
  split
  · rename_i act hact
    dsimp only
    have hnext : Tokens (if ok then s.deactivateById act.slot (.stop wait) else (s, .done)).1 := by
      split
      · rename_i hok
        exact h.deactivateById rfl (hspared act hact hok)
      · exact h
    split
    · exact hnext.congr rfl rfl rfl
    · exact hnext
  · exact h

theorem Tokens.runJob (h : Tokens s) (hw : Wired s) (hqueue : s.queue = job :: queue)
    (hspares : s.Spares .next) :
    Tokens (LocalHost.runJob { s with queue := queue } job) := by
  have h' : Tokens { s with queue := queue } := h.tail hqueue
  have hw' : Wired { s with queue := queue } := hw.quiet (quiet_queue hqueue)
  have henqueue : ∀ call b (ok : Bool), job.carries = some (call, b) →
      Tokens (if ok then LocalHost.enqueue { s with queue := queue } call b
        else LocalHost.settle { s with queue := queue } call .otherwise) := by
    intro call b ok hcarries
    split
    · exact h'.enqueue (h.held_head hqueue hcarries)
    · exact h'.settle_otherwise
  cases job with unfold LocalHost.runJob
  | checked | resume => exact h'.goOn hw'
  | adoptPromise call b =>
    refine h'.register fun other hother => ?_
    cases hother
    exact h.held_head hqueue rfl
  | adopted call b ok =>
    refine h'.push fun job hjob other c hcarries => ?_
    rw [List.mem_singleton.1 hjob] at hcarries
    obtain ⟨rfl, rfl⟩ := Prod.mk.inj (Option.some.inj hcarries)
    exact h.held_head hqueue rfl
  | hold call b ok | enqueue call b ok => exact henqueue call b ok rfl
  | forget b =>
    dsimp only
    split
    · exact h'.forget
    · exact h'
  | deactivate b =>
    dsimp only
    split
    · rename_i act hact
      exact h'.deactivateById rfl (spared_of_spares hqueue (.inl rfl) hact hspares)
    · exact h'
  | stop wait b ok =>
    refine h'.stopWait fun act hact hok => ?_
    subst hok
    exact spared_of_spares hqueue (.inr ⟨wait, rfl⟩) hact hspares
  | drain b =>
    dsimp only
    split
    · rename_i act hact
      split
      · rename_i hstage
        have hshape : LocalHost.shape { s with queue := queue } b = some (act.slot, act.stage) :=
          shape_of_getElem? (s := { s with queue := queue }) hact
        exact h'.setStage (.inr (h'.not_carried hshape (hstage ▸ rfl)))
      · exact h'
    · exact h'

/-! ## Nothing but `stopAll` begins to stop a host -/

theorem stop_register (s : LocalHost) (a : Nat) (r : Reaction) :
    (s.register a r).stop = s.stop := by
  unfold register
  split
  · split <;> rfl
  · rfl

theorem stop_resolve (s : LocalHost) (a : Nat) (ok : Bool) : (s.resolve a ok).stop = s.stop := by
  unfold resolve
  split <;> rfl

theorem stop_enqueue (s : LocalHost) (call a : Nat) : (s.enqueue call a).stop = s.stop := by
  unfold enqueue
  split
  · split
    · rfl
    split
    · rfl
    · split <;> rfl
  · rfl

theorem stop_reserves (h : Reserves s id t) : t.stop = s.stop := by
  obtain ⟨pools, rfl⟩ := h.eq
  rfl

theorem stop_entered (h : Entered s call base t) : t.stop = s.stop := by
  cases h with
  | holds | joins | parks | awaits | refused => rfl
  | reserves hbase h =>
    have hstop := stop_reserves h
    exact hstop

theorem stop_warmed (h : Warmed s call base t) : t.stop = s.stop := by
  cases h with
  | enqueues => exact stop_enqueue s call _
  | joins => exact stop_register s _ _
  | reserves hbase h => exact (stop_register _ _ _).trans (stop_reserves h)
  | slow => rfl

theorem stop_goOn (hw : Wired s) (call : Nat) : (s.goOn call).stop = s.stop := by
  unfold goOn
  split
  · exact stop_entered (entered_activationFor hw call _)
  · rfl

theorem stop_deactivateById (s : LocalHost) (id : SlotId) (r : Reaction) :
    (s.deactivateById id r).1.stop = s.stop := by
  unfold deactivateById
  split
  · rfl
  · rfl
  · exact stop_register s _ r
  · unfold beginDeactivation
    dsimp only
    split <;> rfl

theorem stop_forgetMember (s : LocalHost) (id : SlotId) : (s.forgetMember id).stop = s.stop := by
  obtain ⟨pools, heq⟩ := forgetMember_eq s id
  rw [heq]

theorem stop_runJob (hw : Wired s) (hstop : s.stop = .no) : (s.runJob job).stop = .no := by
  cases job with
  | checked call | resume call => exact (stop_goOn hw call).trans hstop
  | adoptPromise call b => exact (stop_register s b _).trans hstop
  | adopted call b ok => exact hstop
  | hold call b | enqueue call b =>
    unfold runJob
    dsimp only
    split
    · exact (stop_enqueue s call b).trans hstop
    · exact hstop
  | forget b =>
    unfold runJob forget
    dsimp only
    split
    · rw [stop_forgetMember]
      split <;> exact hstop
    · exact hstop
  | deactivate b =>
    unfold runJob
    dsimp only
    split
    · exact (stop_deactivateById s _ _).trans hstop
    · exact hstop
  | stop wait b ok =>
    unfold runJob stopWait
    dsimp only
    split
    · rename_i act hact
      have hnext : (if ok then s.deactivateById act.slot (.stop wait) else (s, .done)).1.stop =
          .no := by
        split
        · exact (stop_deactivateById s _ _).trans hstop
        · exact hstop
      rw [hnext]
      exact hnext
    · exact hstop
  | drain b =>
    unfold runJob
    dsimp only
    split
    · split <;> exact hstop
    · exact hstop

theorem stop_dispatch (hw : Wired s) (base : String) (kind : CallKind) (chain : Chain)
    (admitted : Bool) : (s.dispatch base kind chain admitted).stop = s.stop := by
  unfold dispatch
  dsimp only
  generalize hx : ({ base := base, kind := kind, chain := chain, admitted := admitted } : Call) = x
  have hw' : Wired { s with calls := s.calls ++ [x] } := hw.quiet (quiet_call s x)
  split
  · rfl
  split
  · have hentered := stop_entered (entered_activationFor hw' s.calls.length base)
    exact hentered
  · rfl
  · rfl
  · have hwarmed := stop_warmed (warmed_warmOrSlow hw' s.calls.length base)
    exact hwarmed

theorem stop_finish (s : LocalHost) (a : Nat) (id : SlotId) : (s.finish a id).stop = s.stop := by
  have hdropped : (if s.slots.get id = some (.deactivating a) then s.eraseSlot id else s).stop =
      s.stop := by
    split <;> rfl
  unfold finish
  dsimp only
  split
  · exact (stop_forgetMember _ id).trans hdropped
  · exact hdropped

theorem stop_of_step {l : Label} (hw : Wired s) (hstop : s.stop = .no) (hl : l ≠ .stopAll)
    (hstep : localHost.step s l = some t) : t.stop = .no := by
  cases l with
  | define | tasks => exact Option.some.inj hstep ▸ hstop
  | dispatch base kind chain admitted =>
    exact Option.some.inj hstep ▸ (stop_dispatch hw base kind chain admitted).trans hstop
  | answer call awaits goesOn =>
    simp only [localHost, LocalHost.step, answer] at hstep
    split at hstep
    · rename_i x _
      obtain ⟨-, rfl⟩ := guard_taken hstep
      have hw' : Wired (s.awaiting call none) := hw.quiet (quiet_awaiting s call none)
      split
      · exact (stop_entered (entered_activationFor hw' call x.base)).trans hstop
      · exact hstop
    · simp at hstep
  | next =>
    simp only [localHost, LocalHost.step] at hstep
    split at hstep
    · rename_i job queue hqueue
      exact Option.some.inj hstep ▸ stop_runJob (hw.quiet (quiet_queue hqueue)) hstop
    · simp at hstep
  | created b ok =>
    simp only [localHost, LocalHost.step, created] at hstep
    split at hstep
    · obtain ⟨-, hstep⟩ := guard_passed hstep
      split at hstep
      · cases hstep
        rw [stop_resolve]
        split <;> exact hstop
      · cases hstep
        exact (stop_resolve _ b false).trans hstop
    · simp at hstep
  | settled | released =>
    simp only [localHost, LocalHost.step] at hstep
    split at hstep
    · obtain ⟨-, hstep⟩ := guard_passed hstep
      exact Option.some.inj hstep ▸ hstop
    · simp at hstep
  | ownTurn b =>
    simp only [localHost, LocalHost.step] at hstep
    split at hstep
    · split at hstep <;> exact Option.some.inj hstep ▸ hstop
    · simp at hstep
  | turnEnds b =>
    simp only [localHost, LocalHost.step] at hstep
    split at hstep
    · obtain ⟨-, hstep⟩ := guard_past hstep
      exact Option.some.inj hstep ▸ hstop
    · simp at hstep
  | deactivate id => exact Option.some.inj hstep ▸ (stop_deactivateById s id _).trans hstop
  | drained b =>
    simp only [localHost, LocalHost.step] at hstep
    split at hstep
    · obtain ⟨-, hstep⟩ := guard_passed hstep
      exact Option.some.inj hstep ▸ (stop_finish s b _).trans hstop
    · simp at hstep
  | stopAll => exact absurd rfl hl
  | stopDone | deadline =>
    simp only [localHost, LocalHost.step] at hstep
    rw [hstop] at hstep
    simp at hstep

/-! ## Steps -/

theorem Tokens.step {l : Label} (h : Tokens s) (hw : Wired s) (hstop : s.stop = .no)
    (hl : l ≠ .stopAll) (hspares : s.Spares l) (hstep : localHost.step s l = some t) :
    Tokens t := by
  have hdepth : ∀ (b : Nat) (f : Nat → Nat),
      Tokens (s.modify b fun act => { act with depth := f act.depth }) :=
    fun b f => h.modify (fun _ => ⟨rfl, rfl⟩) fun act r hr => .inl hr
  cases l with simp only [localHost, LocalHost.step] at hstep
  | define base definition =>
    cases hstep
    exact h.congr rfl rfl rfl
  | dispatch base kind chain admitted =>
    exact Option.some.inj hstep ▸ h.dispatch hw hstop base kind chain admitted
  | answer call awaits goesOn => exact h.answer hw hstep
  | next =>
    split at hstep
    · rename_i job queue hqueue
      exact Option.some.inj hstep ▸ h.runJob hw hqueue hspares
    · simp at hstep
  | created b ok => exact h.created hstep
  | tasks b settles =>
    cases hstep
    exact h.modify (fun _ => ⟨rfl, rfl⟩) fun act r hr => .inl hr
  | settled b =>
    split at hstep
    · split at hstep
      · cases hstep
        exact h.close (hspares.not_carried rfl)
      · simp at hstep
    · simp at hstep
  | ownTurn b =>
    split at hstep
    · split at hstep
      · exact Option.some.inj hstep ▸ h
      · exact Option.some.inj hstep ▸ hdepth b (· + 1)
    · simp at hstep
  | turnEnds b =>
    split at hstep
    · obtain ⟨-, hstep⟩ := guard_past hstep
      exact Option.some.inj hstep ▸ hdepth b (· - 1)
    · simp at hstep
  | deactivate id =>
    cases hstep
    exact h.deactivateById rfl fun b hb => hspares.not_carried hb
  | drained b =>
    split at hstep
    · rename_i act hact
      obtain ⟨hstage, rfl⟩ := guard_taken hstep
      exact h.finish (hstage.1 ▸ shape_of_getElem? hact)
    · simp at hstep
  | released b =>
    split at hstep
    · rename_i act hact
      obtain ⟨hstage, rfl⟩ := guard_taken hstep
      exact h.resolveDrained (hstage ▸ shape_of_getElem? hact) rfl
    · simp at hstep
  | stopAll => exact absurd rfl hl
  | stopDone | deadline =>
    rw [hstop] at hstep
    simp at hstep

end LocalHost

/-- **Calls wait for a deactivation rather than fail**, on a host that is not stopped and that
closes no lane over a call that has yet to enqueue. -/
theorem waitsThrough_of_spared {s : LocalHost}
    (h : localHost.Reach (fun s l => l ≠ .stopAll ∧ s.Spares l) s) : WaitsThrough s := by
  have hinv : s.Wired ∧ s.Tokens ∧ s.stop = .no := by
    refine h.invariant (I := fun s => s.Wired ∧ s.Tokens ∧ s.stop = .no) (fun s hinit => ?_)
      fun s l t hs hguard hstep => ?_
    · refine ⟨LocalHost.wired_initial hinit, ?_, ?_⟩
      · obtain ⟨definitions, rfl⟩ := hinit
        refine ⟨fun call a hcarried => ?_, fun x hx => absurd hx List.not_mem_nil⟩
        rcases hcarried with ⟨job, hjob, -⟩ | ⟨act, hact, -⟩
        · exact absurd hjob List.not_mem_nil
        · simp at hact
      · obtain ⟨definitions, rfl⟩ := hinit
        rfl
    · obtain ⟨hw, htokens, hstop⟩ := hs
      have hdeadline : l ≠ .deadline := by
        rintro rfl
        simp only [localHost, LocalHost.step] at hstep
        rw [hstop] at hstep
        simp at hstep
      exact ⟨hw.step hdeadline hstep, htokens.step hw hstop hguard.1 hguard.2 hstep,
        LocalHost.stop_of_step hw hstop hguard.1 hstep⟩
  obtain ⟨hw, htokens, -⟩ := hinv
  refine ⟨fun x hx => (htokens.calls x hx).1, fun x hx a ha => ?_, fun a b act act' hact hact' hslot
    hplaced hplaced' => ?_⟩
  · obtain ⟨id, stage, hshape, hbase⟩ := (htokens.calls x hx).2 a ha
    obtain ⟨act, hact, rfl, -⟩ := LocalHost.exists_of_shape hshape
    exact ⟨act, hact, hbase⟩
  · obtain ⟨slot, hget, hnamed⟩ := hw.placed a _ _ (LocalHost.shape_of_getElem? hact) hplaced
    obtain ⟨slot', hget', hnamed'⟩ := hw.placed b _ _ (LocalHost.shape_of_getElem? hact') hplaced'
    rw [hslot] at hget
    cases hget.symm.trans hget'
    exact hnamed.symm.trans hnamed'

/-- A call runs; its activation is deactivated, and another call waits for that. -/
def waitedThrough : List Label :=
  [.dispatch "a" .call .outside true, .next, .next, .created 0 true, .next, .next, .turnEnds 0,
   .deactivate ⟨"a", none⟩, .dispatch "a" .call .outside true, .next, .next, .drained 0,
   .released 0, .next, .next, .created 1 true, .next, .next]

theorem waitsThrough_second :
    ∃ s, WaitsThrough s ∧ s.calls.map (·.outcome) = [some (.ran 0), some (.ran 1)] := by
  have hstart : localHost.Reach (fun s l => l ≠ .stopAll ∧ s.Spares l)
      { definitions := fun _ => .stateful } := .start ⟨_, rfl⟩
  have hrun := hstart.exec_get waitedThrough (by decide)
  exact ⟨_, waitsThrough_of_spared hrun, by decide⟩

/-- An activation is deactivated before a call that waits for it has enqueued. -/
def closedOver : List Label :=
  [.dispatch "a" .call .outside true, .next, .next, .deactivate ⟨"a", none⟩, .created 0 true,
   .next, .next, .next]

theorem not_waitsThrough : ¬ ∀ s, localHost.Reach (fun _ l => l ≠ .stopAll) s → WaitsThrough s := by
  intro hwaits
  have hstart : localHost.Reach (fun _ l => l ≠ .stopAll)
      { definitions := fun _ => .stateful } := .start ⟨_, rfl⟩
  have hrun := hstart.exec_get closedOver (by decide)
  exact absurd (by decide) ((hwaits _ hrun).served _ List.mem_cons_self)

end SigxActors.Host.Lifecycle
