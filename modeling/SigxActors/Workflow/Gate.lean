/-
  Workflow/Gate.lean --- what an activation has applied, and what it has yet to
  write.

  An operation appends one entry, asks for one save, or leaves the log alone.  An
  entry carries the token its state asks for: a sleep takes the next one, a move
  keeps it, and a wake is of the sleep in state.  `ready` is what else is known of
  a wake when it is appended: of its sleep, of the sleep its source was armed for,
  and of the time.

  While every write that reaches the storage succeeds, an activation that still
  holds the etag of the record has applied what is recorded and what waits at its
  gate, in this order, and nothing else.
-/
import SigxActors.Js.Array
import SigxActors.Workflow.Steps

set_option autoImplicit false

namespace SigxActors.Workflow

open SigxActors.Js

/-- The state that stamped entries fold to. -/
def Stamp.fold (entries : List Stamp) : RunState := foldLog (entries.map (·.entry))

theorem Stamp.fold_snoc (entries : List Stamp) (stamp : Stamp) :
    fold (entries ++ [stamp]) = applyRunEntry (fold entries) stamp.entry := by
  rw [fold, List.map_append, List.map_singleton, foldLog_append]
  rfl

section

variable (ready : Wake → Nat → Nat → Prop)

/-- What the tokens of an entry say, for the state it is applied to. -/
def Fits (state : RunState) (stamp : Stamp) : Prop :=
  match stamp.entry with
  | .sleep _ seq _ _ => seq = state.seq + 1
  | .move _ seq => seq = state.seq
  | .wake seq =>
      ∃ wake source, state.wake = some wake ∧ wake.seq = seq ∧ stamp.source = some source ∧
        ready wake source stamp.time
  | _ => True

/-- Every entry fits what came before it. -/
inductive Honest : List Stamp → Prop
  | nil : Honest []
  | snoc {entries : List Stamp} {stamp : Stamp} (h : Honest entries)
      (hfits : Fits ready (Stamp.fold entries) stamp) : Honest (entries ++ [stamp])

/-- The entry a thread waits for is the one its place in the code appends. -/
def Linked (stamp : Stamp) : Point → Prop
  | .started _ => ∃ name version vars, stamp.entry = .start name version stamp.time vars
  | .moved => ∃ to_ seq, stamp.entry = .move to_ seq
  | .slept ms seq durable => ∃ after, stamp.entry = .sleep (stamp.time + ms) seq durable after
  | .woken seq _ => stamp.entry = .wake seq
  | .ended => ∃ status error, stamp.entry = .end_ status stamp.time error
  | .saved => False
  | .attempted id _ n => stamp.entry = .attempt id n
  | .assigned _ => ∃ set, stamp.entry = .vars set

/-- How an operation changes the log of an activation. -/
inductive Logged (now : Nat) (a b : Activation) : Prop
  | kept (hstate : b.state = a.state) (hentries : b.entries = a.entries)
      (hwrites : b.writes = a.writes)
  | appended (thread : Thread) (stamp : Stamp) (hfits : Fits ready a.state stamp)
      (hlinked : Linked stamp thread.point) (htime : stamp.time = now)
      (hstate : b.state = applyRunEntry a.state stamp.entry)
      (hentries : b.entries = a.entries ++ [stamp])
      (hwrites : b.writes = a.writes ++ [⟨thread, some stamp, b.state, b.entries⟩])
  | saving (thread : Thread) (hpoint : thread.point = .saved) (hstate : b.state = a.state)
      (hentries : b.entries = a.entries)
      (hwrites : b.writes = a.writes ++ [⟨thread, none, a.state, a.entries⟩])

/-- An operation on an activation. -/
structure Grows (now : Nat) (a b : Activation) : Prop where
  log : Logged ready now a b
  etag : b.etag = a.etag
  faulted : b.faulted = a.faulted

variable {ready} {options : WorkflowOptions} {now : Nat} {a b : Activation}

/-- What an operation does not look at may be changed before it. -/
theorem Grows.of_kept {c : Activation} (h : Grows ready now c b) (hstate : c.state = a.state)
    (hentries : c.entries = a.entries) (hwrites : c.writes = a.writes) (hetag : c.etag = a.etag)
    (hfaulted : c.faulted = a.faulted) : Grows ready now a b := by
  refine ⟨?_, h.etag.trans hetag, h.faulted.trans hfaulted⟩
  rcases h.log with ⟨hs, he, hw⟩ | ⟨thread, stamp, hfits, hlinked, htime, hs, he, hw⟩ |
    ⟨thread, hpoint, hs, he, hw⟩
  · exact .kept (hs.trans hstate) (he.trans hentries) (hw.trans hwrites)
  · rw [hstate] at hfits hs
    rw [hentries] at he
    rw [hwrites] at hw
    exact .appended thread stamp hfits hlinked htime hs he hw
  · rw [hstate] at hs hw
    rw [hentries] at he hw
    rw [hwrites] at hw
    exact .saving thread hpoint hs he hw

/-- The lane is let go. -/
theorem Grows.idle (h : Grows ready now a b) : Grows ready now a { b with busy := false } := by
  refine { h with log := ?_ }
  rcases h.log with ⟨hs, he, hw⟩ | ⟨thread, stamp, hfits, hlinked, htime, hs, he, hw⟩ |
    ⟨thread, hpoint, hs, he, hw⟩
  · exact .kept hs he hw
  · exact .appended thread stamp hfits hlinked htime hs he hw
  · exact .saving thread hpoint hs he hw

namespace Activation

variable {thread : Thread}

theorem grows_kept (hstate : b.state = a.state) (hentries : b.entries = a.entries)
    (hwrites : b.writes = a.writes) (hetag : b.etag = a.etag) (hfaulted : b.faulted = a.faulted) :
    Grows ready now a b :=
  ⟨.kept hstate hentries hwrites, hetag, hfaulted⟩

theorem grows_append {entry : RunEntry} {source : Option Nat}
    (hfits : Fits ready a.state ⟨entry, now, source⟩)
    (hlinked : Linked ⟨entry, now, source⟩ thread.point) :
    Grows ready now a (a.append now entry source thread) :=
  ⟨.appended thread ⟨entry, now, source⟩ hfits hlinked rfl rfl rfl rfl, rfl, rfl⟩

theorem grows_done : Grows ready now a (a.done thread) := by
  unfold done
  split <;> exact grows_kept rfl rfl rfl rfl rfl

theorem grows_finish (status : EndStatus) (error : Option String) :
    Grows ready now a (a.finish now status error thread) := by
  have h : Grows ready now a.clearWake (a.finish now status error thread) :=
    grows_append trivial ⟨status, error, rfl⟩
  exact h.of_kept rfl rfl rfl rfl rfl

theorem grows_moveTo (next : Option String) : Grows ready now a (a.moveTo now next thread) := by
  unfold moveTo
  split
  · exact grows_finish _ _
  rename_i to_
  split
  · exact grows_finish _ _
  have h : Grows ready now a.clearWake
      (a.clearWake.append now (.move to_ a.state.seq) none { thread with point := .moved }) :=
    grows_append rfl ⟨to_, a.state.seq, rfl⟩
  exact h.of_kept rfl rfl rfl rfl rfl

theorem grows_sleep (ms : Nat) (after : Option String) :
    Grows ready now a (a.sleep options now ms after thread) :=
  grows_append rfl ⟨after, rfl⟩

theorem grows_wake {seq source : Nat} {turn : Bool}
    (h : ∀ wake, a.state.wake = some wake → wake.seq = seq → ready wake source now) :
    Grows ready now a (a.wake now seq source turn) := by
  have hidle : Grows ready now a (if turn then { a with busy := false } else a) := by
    split <;> exact grows_kept rfl rfl rfl rfl rfl
  unfold wake
  split
  · rename_i wake hwake
    split
    · rename_i hseq
      have hfits : Fits ready a.clearWake.state ⟨.wake seq, now, some source⟩ :=
        ⟨wake, source, hwake, hseq, rfl, h wake hwake hseq⟩
      have hgrows : Grows ready now a.clearWake (a.clearWake.append now (.wake seq) (some source)
          { point := .woken seq wake.after, turn := turn }) := grows_append hfits rfl
      exact hgrows.of_kept rfl rfl rfl rfl rfl
    · exact hidle
  · exact hidle

theorem grows_nudge
    (h : ∀ wake, a.state.wake = some wake → wake.until_ ≤ now → ready wake wake.seq now) :
    Grows ready now a (a.nudge now) := by
  unfold nudge
  split
  · exact grows_kept rfl rfl rfl rfl rfl
  split
  · rename_i wake hwake
    split
    · rename_i hdue
      refine grows_wake fun wake' hwake' _ => ?_
      cases hwake.symm.trans hwake'
      exact h wake hwake hdue
    · split
      · exact grows_kept rfl rfl rfl rfl rfl
      · split <;> exact grows_kept rfl rfl rfl rfl rfl
  · exact grows_kept rfl rfl rfl rfl rfl

theorem grows_runTask (id : String) (node : TaskNode) :
    Grows ready now a (a.runTask options now id node thread) := by
  unfold runTask
  split
  · exact grows_append trivial rfl
  · exact grows_finish _ _

theorem grows_advance : Grows ready now a (a.advance options now) := by
  unfold advance
  split
  · split
    · exact grows_kept rfl rfl rfl rfl rfl
    split
    · exact grows_finish _ _
    · exact grows_kept rfl rfl rfl rfl rfl
    · exact grows_runTask _ _
    · exact grows_sleep _ _
    · split <;> exact grows_moveTo _
    · exact grows_finish _ _
  · exact grows_kept rfl rfl rfl rfl rfl

theorem grows_start {name : String} {vars : JsMap String Json} {version : Option Int} :
    Grows ready now a (a.start options now name vars version) := by
  unfold start
  split
  · exact grows_kept rfl rfl rfl rfl rfl
  split
  · exact grows_kept rfl rfl rfl rfl rfl
  split
  · exact grows_kept rfl rfl rfl rfl rfl
  · exact grows_append trivial ⟨_, _, _, rfl⟩

theorem grows_onReminder {source : Nat}
    (h : ∀ wake, a.state.wake = some wake → ready wake source now) :
    Grows ready now a (a.onReminder now source) := by
  unfold onReminder
  split
  · rename_i hwake
    have hgrows : Grows ready now a (a.nudge now) := grows_nudge fun wake hsome => by
      rw [hwake] at hsome
      cases hsome
    exact hgrows.idle
  · exact grows_wake fun wake hwake _ => h wake hwake

theorem grows_resume : Grows ready now a (a.resume now thread) := by
  unfold resume
  split
  · rename_i to_ _
    exact grows_append rfl ⟨to_, a.state.seq, rfl⟩
  · have h : Grows ready now a.armAdvance (a.armAdvance.done thread) := grows_done
    exact h.of_kept rfl rfl rfl rfl rfl
  · rename_i ms seq durable _
    split
    · exact grows_kept rfl rfl rfl rfl rfl
    have h : Grows ready now
        { a with armedSeq := some seq, wakeTimer := some ⟨seq, now + ms⟩ }
        (Activation.done
          { a with armedSeq := some seq, wakeTimer := some ⟨seq, now + ms⟩ } thread) := grows_done
    exact h.of_kept rfl rfl rfl rfl rfl
  · split
    · exact grows_moveTo _
    · have h : Grows ready now a.armAdvance (a.armAdvance.done thread) := grows_done
      exact h.of_kept rfl rfl rfl rfl rfl
  · exact ⟨.saving { thread with point := .saved } rfl rfl rfl rfl, rfl, rfl⟩
  · exact grows_done
  · exact grows_kept rfl rfl rfl rfl rfl
  · exact grows_moveTo _

variable {message : String}

theorem grows_caught {retrying : Retrying} {jitter : Nat} :
    Grows ready now a (a.caught options now retrying message jitter thread) := by
  unfold caught
  split
  · exact grows_finish _ _
  · exact grows_sleep _ _

theorem grows_reject {jitter : Nat} :
    Grows ready now a (a.reject options now thread message jitter) := by
  unfold reject
  split
  · exact grows_caught
  · exact grows_done

theorem grows_returned {call : Call} {out : Json} :
    Grows ready now a (a.returned now call out) := by
  have hmove : Grows ready now a ({ a with call := none }.moveTo now call.node.next
      { point := .ended, retrying := some call.retrying, turn := true }) := by
    have h : Grows ready now { a with call := none } ({ a with call := none }.moveTo now
        call.node.next { point := .ended, retrying := some call.retrying, turn := true }) :=
      grows_moveTo call.node.next
    exact h.of_kept rfl rfl rfl rfl rfl
  unfold returned
  split
  · rename_i name hname
    split
    · exact hmove
    have h : Grows ready now { a with call := none } (Activation.append now
        { a with call := none } (.vars (JsMap.empty.assign name out)) none
        { point := .assigned call.node, retrying := some call.retrying, turn := true }) :=
      grows_append trivial ⟨_, rfl⟩
    exact h.of_kept rfl rfl rfl rfl rfl
  · exact hmove

theorem grows_threw {call : Call} {jitter : Nat} :
    Grows ready now a (a.threw options now call message jitter) := by
  have h : Grows ready now { a with call := none } (a.threw options now call message jitter) :=
    grows_caught
  exact h.of_kept rfl rfl rfl rfl rfl

theorem grows_armed {arming : Arming} {ok : Bool} : Grows ready now a (a.armed arming ok) := by
  unfold armed
  split <;> exact grows_kept rfl rfl rfl rfl rfl

end Activation

end

/-! ## States are folds -/

/-- What waits at the gate is what its thread waits for, and a full save writes what had been
applied. -/
structure Write.Sound (w : Write) : Prop where
  snapshot : w.snapshot = Stamp.fold w.entries
  linked : ∀ stamp, w.stamp = some stamp → Linked stamp w.thread.point
  saved : w.stamp = none → w.thread.point = .saved

/-- The state of an activation is the fold of what it has applied. -/
structure Activation.Folded (a : Activation) : Prop where
  state : a.state = Stamp.fold a.entries
  writes : ∀ w ∈ a.writes, w.Sound

section

variable {ready : Wake → Nat → Nat → Prop} {now : Nat} {a b : Activation}

theorem Activation.Folded.grows (h : a.Folded) (hgrows : Grows ready now a b) : b.Folded := by
  rcases hgrows.log with ⟨hs, he, hw⟩ | ⟨thread, stamp, hfits, hlinked, htime, hs, he, hw⟩ |
    ⟨thread, hpoint, hs, he, hw⟩
  · exact ⟨by rw [hs, he, h.state], fun w hmem => h.writes w (hw ▸ hmem)⟩
  · have hstate : b.state = Stamp.fold b.entries := by
      rw [hs, he, Stamp.fold_snoc, h.state]
    refine ⟨hstate, fun w hmem => ?_⟩
    rw [hw, mem_snoc] at hmem
    rcases hmem with hmem | rfl
    · exact h.writes w hmem
    · exact ⟨hstate, fun stamp' hstamp => Option.some.inj hstamp ▸ hlinked, fun hnone => absurd hnone (by simp)⟩
  · refine ⟨by rw [hs, he, h.state], fun w hmem => ?_⟩
    rw [hw, mem_snoc] at hmem
    rcases hmem with hmem | rfl
    · exact h.writes w hmem
    · exact ⟨h.state, fun stamp hstamp => absurd hstamp (by simp), fun _ => hpoint⟩

/-- A write leaves the gate. -/
theorem Activation.Folded.tail {w : Write} {rest : List Write} {etag : Option Nat} {faulted : Bool}
    (h : a.Folded) (hwrites : a.writes = w :: rest) :
    Activation.Folded { a with writes := rest, etag := etag, faulted := faulted } :=
  ⟨h.state, fun w' hmem => h.writes w' (hwrites ▸ List.mem_cons_of_mem w hmem)⟩

theorem Activation.folded_dead : Activation.dead.Folded :=
  ⟨rfl, List.forall_mem_nil _⟩

end

/-- So is what is on record. -/
structure Run.Folded (s : Run) : Prop where
  activations : ∀ a ∈ s.activations, a.Folded
  record : (s.record.map Record.load).getD emptyRun = Stamp.fold s.history

namespace Run

variable {options : WorkflowOptions} {s t : Run} {l : Label} {i : Nat} {a b : Activation}

theorem mem_put {c : Activation} (h : c ∈ (s.put i b).activations) : c ∈ s.activations ∨ c = b :=
  List.mem_or_eq_of_mem_set h

theorem mem_of_get (h : s.activations[i]? = some a) : a ∈ s.activations :=
  List.mem_of_getElem? h

theorem Folded.put (h : s.Folded) (hb : b.Folded) : (s.put i b).Folded :=
  ⟨fun c hc => (mem_put hc).elim (h.activations c) fun heq => heq ▸ hb, h.record⟩

/-- What lands is what is loaded from then on. -/
theorem Folded.land {write : Write} (h : s.Folded) (hwrite : write.Sound) (etag : Option Nat) :
    (s.land etag write).Folded := by
  unfold Run.land
  split
  · rename_i stamp record tag hstamp hrecord
    refine ⟨h.activations, ?_⟩
    have hload : record.load = Stamp.fold s.history := by
      have := h.record
      rwa [hrecord] at this
    rw [Stamp.fold_snoc, ← hload]
    exact List.foldl_append
  · exact ⟨h.activations, hwrite.snapshot⟩

theorem folded_note (h : s.Folded) (i : Nat) (point : Point) : (s.note i point).Folded := by
  unfold Run.note
  split
  · exact ⟨h.activations, h.record⟩
  · exact ⟨h.activations, h.record⟩
  · exact h

theorem Folded.loaded (h : s.Folded) : s.loaded.Folded :=
  ⟨h.record, List.forall_mem_nil _⟩

/-- Nothing is known of a wake. -/
abbrev anyWake : Wake → Nat → Nat → Prop := fun _ _ _ => True

section

variable {now : Nat}

theorem grows_nudged (a : Activation) : Grows anyWake now a (a.nudge now) :=
  Activation.grows_nudge fun _ _ _ => trivial

theorem grows_status (a : Activation) : Grows anyWake now a { a.nudge now with busy := false } :=
  (grows_nudged a).idle

theorem grows_delivered (a : Activation) (source : Nat) : Grows anyWake now { a with busy := true }
    (Activation.onReminder now { a with busy := true } source) :=
  Activation.grows_onReminder fun _ _ => trivial

theorem grows_disarmed (ready) (a : Activation) (k : Nat) (arming : Arming) :
    Grows ready now { a with armings := a.armings.eraseIdx k }
      (Activation.armed { a with armings := a.armings.eraseIdx k } arming true) :=
  Activation.grows_armed

theorem grows_resumed (a : Activation) (thread : Thread) :
    Grows anyWake now a (a.resume now thread) :=
  Activation.grows_resume

theorem grows_rejected (options : WorkflowOptions) (thread : Thread) (message : String)
    (jitter : Nat) (a : Activation) :
    Grows anyWake now a (a.reject options now thread message jitter) :=
  Activation.grows_reject

end

theorem Folded.step (h : s.Folded) (hstep : s.step options l = some t) : t.Folded := by
  have hof : ∀ {j : Nat} {c : Activation}, s.activations[j]? = some c → c.Folded :=
    fun hget => h.activations _ (mem_of_get hget)
  have hgrow : ∀ {j : Nat} {c d e : Activation}, s.activations[j]? = some c →
      Grows anyWake s.now d e → (c.Folded → d.Folded) → (s.put j e).Folded :=
    fun hget hgrows hd => h.put ((hd (hof hget)).grows hgrows)
  cases Run.stepped hstep with
  | elapse | remind | lost | putBack => exact ⟨h.activations, h.record⟩
  | activate =>
    refine ⟨fun c hc => ?_, h.record⟩
    rw [mem_snoc] at hc
    rcases hc with hc | rfl
    · exact h.activations c hc
    exact h.loaded.grows (grows_nudged s.loaded)
  | start name vars version hget hfree =>
    exact hgrow hget Activation.grows_start fun h => ⟨h.state, h.writes⟩
  | status hget hfree =>
    exact hgrow hget (grows_status _) fun h => ⟨h.state, h.writes⟩
  | fireAdvance hget htimer => exact h.put ⟨(hof hget).state, (hof hget).writes⟩
  | fireWake hget htimer hdue => exact h.put ⟨(hof hget).state, (hof hget).writes⟩
  | tickFaulted hget htick hbusy hfaulted => exact h.put ⟨(hof hget).state, (hof hget).writes⟩
  | tickAdvance hget htick hbusy hfaulted =>
    exact hgrow hget Activation.grows_advance fun h => ⟨h.state, h.writes⟩
  | tickWake hget htick hbusy hfaulted =>
    exact hgrow hget (Activation.grows_wake fun _ _ _ => trivial) fun h => ⟨h.state, h.writes⟩
  | @deliver k i reminder a again hdelivery hget hfree =>
    exact ⟨(hgrow hget (grows_delivered a reminder.seq) fun h => ⟨h.state, h.writes⟩).activations, h.record⟩
  | rejected _ _ hget hwrites | conflicted _ _ hget hwrites =>
    exact hgrow hget Activation.grows_reject fun h => h.tail hwrites
  | @landed i a write rest message jitter hget hwrites hfaulted hfresh =>
    have hwrite : write.Sound := (hof hget).writes _ (hwrites ▸ List.mem_cons_self)
    have hland := folded_note (h.land hwrite a.etag) i write.thread.point
    exact hland.put (((hof hget).tail hwrites).grows (grows_resumed _ write.thread))
  | returned out hget hcall => exact hgrow hget Activation.grows_returned id
  | threw message jitter hget hcall => exact hgrow hget Activation.grows_threw id
  | @armed i k a arming hget harming =>
    exact ⟨(hgrow hget (grows_disarmed _ a k arming) fun h => ⟨h.state, h.writes⟩).activations, h.record⟩
  | unarmed hget harming =>
    exact hgrow hget Activation.grows_armed fun h => ⟨h.state, h.writes⟩
  | crashLanded hget hwrites hfaulted hfresh =>
    have hwrite : Write.Sound _ := (hof hget).writes _ (hwrites ▸ List.mem_cons_self)
    exact (h.land hwrite _).put Activation.folded_dead
  | crashed hget => exact h.put Activation.folded_dead
  | deactivate hget hbusy hticks => exact h.put ⟨(hof hget).state, (hof hget).writes⟩

theorem folded_initial (h : Run.initial s) : s.Folded := by
  obtain rfl := h
  exact ⟨List.forall_mem_nil _, rfl⟩

end Run

end SigxActors.Workflow
