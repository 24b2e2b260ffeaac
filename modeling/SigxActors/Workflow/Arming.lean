/-
  Workflow/Arming.lean --- what an activation takes to be armed.

  A touch passes over the sleep that `armedSeq` names.  Such a sleep has its timer
  or the tick of it when it is short.  When it is long, its reminder is being
  written or has been, or the activation has asked to go, and the next one arms
  the sleep anew.

  `Noted` says so of one activation.  What it stands in is left open: which reminder
  writes have succeeded, whether the activation may still write, and what is known
  of a wake whose reminder was written.
-/
import SigxActors.Workflow.Drivers

set_option autoImplicit false

namespace SigxActors.Workflow

open SigxActors.Js

/-- The wake in state has the last token. -/
def RunState.Tidy (state : RunState) : Prop := ∀ wake, state.wake = some wake → wake.seq = state.seq

theorem RunState.Tidy.apply {state : RunState} (h : state.Tidy) (entry : RunEntry) :
    (applyRunEntry state entry).Tidy := by
  intro wake hwake
  cases entry with
  | start | vars | attempt => exact h wake hwake
  | move | end_ => cases hwake
  | sleep until_ seq durable after =>
    cases hwake
    rfl
  | wake seq =>
    revert hwake
    unfold applyRunEntry
    dsimp only
    split
    · split
      · exact fun hnone => by cases hnone
      · exact h wake
    · exact h wake

theorem tidy_fold (entries : List Stamp) : (Stamp.fold entries).Tidy := by
  have hfold : ∀ (log : List RunEntry) (state : RunState), state.Tidy →
      (log.foldl applyRunEntry state).Tidy := by
    intro log
    induction log with
    | nil => exact fun _ h => h
    | cons entry log ih => exact fun state h => ih _ (h.apply entry)
  exact hfold _ _ fun _ hnone => by cases hnone

/-- What is in a list stays, but for the place that is erased. -/
theorem mem_eraseIdx_or {α : Type} {l : List α} {k : Nat} {x y : α} (hget : l[k]? = some x)
    (hy : y ∈ l) : y = x ∨ y ∈ l.eraseIdx k := by
  obtain ⟨j, hj⟩ := List.mem_iff_getElem?.1 hy
  by_cases hjk : j = k
  · subst hjk
    exact .inl (Option.some.inj (hj.symm.trans hget))
  · exact .inr (List.mem_eraseIdx_iff_getElem?.2 ⟨j, hjk, hj⟩)

namespace Activation

/-- It takes the wake in state to be armed. -/
def Believes (a : Activation) (wake : Wake) : Prop :=
  a.state.wake = some wake ∧ a.armedSeq = some wake.seq

/-- The timer of a sleep, or its tick. -/
def Ticks (a : Activation) (seq : Nat) : Prop :=
  (∃ due, a.wakeTimer = some ⟨seq, due⟩) ∨ Tick.wake seq ∈ a.ticks

/-- No thread of it awaits the entry of a sleep. -/
def Sleepless (a : Activation) : Prop := ∀ w ∈ a.writes, w.thread.point.sleeps = false

section

variable (i : Nat) (kept : List (Nat × Nat)) (live : Prop) (due : Wake → Prop)

/-- Activation `i` has armed what it takes to be armed. -/
structure Noted (a : Activation) : Prop where
  tidy : a.state.Tidy
  seq : ∀ n, a.armedSeq = some n → n ≤ a.state.seq
  armings : ∀ x ∈ a.armings, ∃ n, a.armedSeq = some n ∧ x.seq ≤ n
  /-- A touch that writes a reminder asks for the activation to go. -/
  asked : ∀ x ∈ a.armings, x.turn = false → a.deactivateRequested = true
  slept : ∀ w ∈ a.writes, ∀ ms seq durable, w.thread.point = .slept ms seq durable →
    seq = a.state.seq ∧ (∀ n, a.armedSeq = some n → n < seq) ∧
      ∀ wake, a.state.wake = some wake → wake.durable = durable
  written : live → a.closed = false → ∀ n, (i, n) ∈ kept → ∃ m, a.armedSeq = some m ∧ n ≤ m
  volatile : live → a.closed = false → ∀ wake, a.Believes wake → wake.durable = false →
    a.Ticks wake.seq
  durable : live → a.closed = false → ∀ wake, a.Believes wake → wake.durable = true →
    (∃ x ∈ a.armings, x.seq = wake.seq) ∨ (i, wake.seq) ∈ kept ∨ a.deactivateRequested = true
  reminded : live → a.closed = false → ∀ wake, a.Believes wake → wake.durable = true →
    (i, wake.seq) ∈ kept → due wake

end

/-- An operation that neither sleeps nor arms. -/
structure Quiet (a b : Activation) : Prop where
  state : b.state.Tidy ∧ b.state.seq = a.state.seq
  wake : ∀ wake, b.state.wake = some wake →
    a.state.wake = some wake ∧ (a.Ticks wake.seq → b.Ticks wake.seq)
  writes : ∀ w ∈ b.writes, w ∈ a.writes ∨ w.thread.point.sleeps = false
  armedSeq : b.armedSeq = a.armedSeq
  armings : b.armings = a.armings
  deactivateRequested : b.deactivateRequested = a.deactivateRequested
  closed : b.closed = a.closed

variable {i : Nat} {kept : List (Nat × Nat)} {live : Prop} {due : Wake → Prop}
  {options : WorkflowOptions} {now : Nat} {a b : Activation} {thread : Thread}

theorem Quiet.believes (h : Quiet a b) {wake : Wake} (hbelieves : b.Believes wake) :
    a.Believes wake :=
  ⟨(h.wake wake hbelieves.1).1, h.armedSeq ▸ hbelieves.2⟩

theorem Noted.quiet (h : a.Noted i kept live due) (hquiet : Quiet a b) :
    b.Noted i kept live due := by
  refine ⟨hquiet.state.1, fun n hn => ?_, fun x hx => ?_, fun x hx => ?_,
    fun w hw ms seq durable hpoint => ?_, fun hlive hopen n hn => ?_,
    fun hlive hopen wake hb hd => ?_, fun hlive hopen wake hb hd => ?_,
    fun hlive hopen wake hb hd => ?_⟩
  · rw [hquiet.state.2]
    exact h.seq n (hquiet.armedSeq ▸ hn)
  · rw [hquiet.armedSeq]
    exact h.armings x (hquiet.armings ▸ hx)
  · rw [hquiet.deactivateRequested]
    exact h.asked x (hquiet.armings ▸ hx)
  · rcases hquiet.writes w hw with hmem | hawake
    · obtain ⟨hseq, harmed, hwake⟩ := h.slept w hmem ms seq durable hpoint
      exact ⟨hseq.trans hquiet.state.2.symm, fun n hn => harmed n (hquiet.armedSeq ▸ hn),
        fun wake hsome => hwake wake (hquiet.wake wake hsome).1⟩
    · rw [hpoint] at hawake
      cases hawake
  · rw [hquiet.armedSeq]
    exact h.written hlive (hquiet.closed ▸ hopen) n hn
  · exact (hquiet.wake wake hb.1).2 (h.volatile hlive (hquiet.closed ▸ hopen) wake (hquiet.believes hb) hd)
  · rw [hquiet.armings, hquiet.deactivateRequested]
    exact h.durable hlive (hquiet.closed ▸ hopen) wake (hquiet.believes hb) hd
  · exact h.reminded hlive (hquiet.closed ▸ hopen) wake (hquiet.believes hb) hd

/-! ## Operations that neither sleep nor arm -/

/-- What `Noted` does not look at is changed. -/
theorem quiet_kept (h : a.state.Tidy) (hstate : b.state = a.state)
    (hticks : ∀ seq, a.Ticks seq → b.Ticks seq) (hwrites : ∀ w ∈ b.writes, w ∈ a.writes)
    (harmedSeq : b.armedSeq = a.armedSeq) (harmings : b.armings = a.armings)
    (hrequested : b.deactivateRequested = a.deactivateRequested) (hclosed : b.closed = a.closed) :
    Quiet a b :=
  ⟨⟨hstate ▸ h, congrArg RunState.seq hstate⟩, fun _ hwake => ⟨hstate ▸ hwake, hticks _⟩,
    fun w hw => .inl (hwrites w hw), harmedSeq, harmings, hrequested, hclosed⟩

theorem quiet_append {entry : RunEntry} {source : Option Nat} (h : a.state.Tidy)
    (hseq : (applyRunEntry a.state entry).seq = a.state.seq)
    (hwake : (applyRunEntry a.state entry).wake = none ∨
      (applyRunEntry a.state entry).wake = a.state.wake)
    (hpoint : thread.point.sleeps = false) : Quiet a (a.append now entry source thread) := by
  refine ⟨⟨h.apply entry, hseq⟩, fun wake hsome => ?_, fun w hmem => ?_, rfl, rfl, rfl, rfl⟩
  · have hsome' : (applyRunEntry a.state entry).wake = some wake := hsome
    rcases hwake with hnone | hsame
    · rw [hnone] at hsome'
      cases hsome'
    · exact ⟨hsame ▸ hsome', id⟩
  · rw [append, mem_snoc] at hmem
    rcases hmem with hmem | rfl
    · exact .inl hmem
    · exact .inr hpoint

/-- An entry that ends what the timer was for. -/
theorem quiet_clear {entry : RunEntry} {source : Option Nat} (h : a.state.Tidy)
    (hseq : (applyRunEntry a.state entry).seq = a.state.seq)
    (hwake : (applyRunEntry a.state entry).wake = none) (hpoint : thread.point.sleeps = false) :
    Quiet a (a.clearWake.append now entry source thread) := by
  have hquiet : Quiet a.clearWake (a.clearWake.append now entry source thread) :=
    quiet_append h hseq (.inl hwake) hpoint
  refine ⟨hquiet.state, fun wake hsome => ?_, hquiet.writes, rfl, rfl, rfl, rfl⟩
  have hsome' : (applyRunEntry a.state entry).wake = some wake := hsome
  rw [hwake] at hsome'
  cases hsome'

theorem quiet_finish (h : a.state.Tidy) (status : EndStatus) (error : Option String) :
    Quiet a (a.finish now status error thread) :=
  quiet_clear h rfl rfl rfl

theorem quiet_moveTo (h : a.state.Tidy) (next : Option String) :
    Quiet a (a.moveTo now next thread) := by
  unfold moveTo
  split
  · exact quiet_finish h _ _
  split
  · exact quiet_finish h _ _
  · exact quiet_clear h rfl rfl rfl

theorem quiet_idle (h : a.state.Tidy) : Quiet a { a with busy := false } :=
  quiet_kept h rfl (fun _ => id) (fun _ => id) rfl rfl rfl rfl

theorem quiet_done (h : a.state.Tidy) : Quiet a (a.done thread) := by
  unfold done
  split
  · exact quiet_idle h
  · exact quiet_kept h rfl (fun _ => id) (fun _ => id) rfl rfl rfl rfl

theorem quiet_hop (h : a.state.Tidy) : Quiet a (a.armAdvance.done thread) := by
  unfold done
  split <;> exact quiet_kept h rfl (fun _ => id) (fun _ => id) rfl rfl rfl rfl

theorem quiet_wake (h : a.state.Tidy) {seq source : Nat} {turn : Bool} :
    Quiet a (a.wake now seq source turn) := by
  have hkept : Quiet a (if turn then { a with busy := false } else a) := by
    split
    · exact quiet_idle h
    · exact quiet_kept h rfl (fun _ => id) (fun _ => id) rfl rfl rfl rfl
  unfold wake
  split
  · rename_i wake hwake
    split
    · rename_i hseq
      obtain rfl := hseq
      have happly := applyRunEntry_wake hwake
      refine quiet_clear h ?_ ?_ rfl <;> rw [happly]
    · exact hkept
  · exact hkept

/-- A wake with the token in state takes it. -/
theorem wake_taken {wake : Wake} {source : Nat} {turn : Bool} (h : a.state.wake = some wake) :
    (a.wake now wake.seq source turn).state.wake = none := by
  unfold Activation.wake
  rw [h]
  dsimp only
  rw [if_pos rfl]
  exact congrArg RunState.wake (applyRunEntry_wake h)

theorem quiet_runTask (h : a.state.Tidy) (id : String) (node : TaskNode) :
    Quiet a (a.runTask options now id node thread) := by
  unfold runTask
  split
  · exact quiet_append h rfl (.inr rfl) rfl
  · exact quiet_finish h _ _

theorem quiet_start (h : a.state.Tidy) {name : String} {vars : JsMap String Json}
    {version : Option Int} : Quiet a (a.start options now name vars version) := by
  unfold start
  split
  · exact quiet_idle h
  split
  · exact quiet_idle h
  split
  · exact quiet_idle h
  · exact quiet_append h rfl (.inr rfl) rfl

/-- A handler call has settled. -/
theorem Quiet.of_call (h : Quiet { a with call := none } b) : Quiet a b :=
  { h with }

theorem quiet_returned (h : a.state.Tidy) {call : Call} {out : Json} :
    Quiet a (a.returned now call out) := by
  have htidy : RunState.Tidy (state { a with call := none }) := h
  have hmove : Quiet a (moveTo now { a with call := none } call.node.next
      { point := .ended, retrying := some call.retrying, turn := true }) :=
    .of_call (quiet_moveTo htidy call.node.next)
  unfold returned
  split
  · split
    · exact hmove
    · exact .of_call (quiet_append htidy rfl (.inr rfl) rfl)
  · exact hmove

theorem quiet_resume (h : a.state.Tidy) (hawake : thread.point.sleeps = false) :
    Quiet a (a.resume now thread) := by
  unfold resume
  cases hpoint : thread.point with
  | started to_ => exact quiet_append h rfl (.inl rfl) rfl
  | moved => exact quiet_hop h
  | slept ms seq durable => rw [hpoint] at hawake; cases hawake
  | woken seq after =>
    cases after with
    | none => exact quiet_hop h
    | some to_ => exact quiet_moveTo h _
  | ended =>
    refine ⟨⟨h, rfl⟩, fun _ hwake => ⟨hwake, id⟩, fun w hmem => ?_, rfl, rfl, rfl, rfl⟩
    rw [mem_snoc] at hmem
    rcases hmem with hmem | rfl
    · exact .inl hmem
    · exact .inr rfl
  | saved => exact quiet_done h
  | attempted name node n =>
    exact quiet_kept h rfl (fun _ => id) (fun _ => id) rfl rfl rfl rfl
  | assigned node => exact quiet_moveTo h _

/-! ## Sleeping and arming -/

/-- A turn that begins is alone, and so is one that goes on. -/
theorem LaneBut.sleepless (h : a.LaneBut thread) (hturn : thread.turn = true) : a.Sleepless := by
  intro w hw
  have hturns := h.turns
  rw [hturn, Bool.toNat_true, Activation.turns] at hturns
  have hle := Bool.toNat_le a.busy
  have hzero : a.writes.countP (·.thread.turn) = 0 := by omega
  have hrecovers := (h.apart w hw (by simpa using List.countP_eq_zero.1 hzero w hw)).2
  cases hpoint : w.thread.point with
  | slept ms seq durable => rw [hpoint] at hrecovers; cases hrecovers
  | _ => rfl

theorem Lane.sleepless (h : a.Lane) (hbusy : a.busy = false) : a.Sleepless :=
  have hbut : LaneBut { a with ticks := a.ticks, busy := true } { point := .ended, turn := true } :=
    h.begin hbusy rfl
  hbut.sleepless rfl

section

variable (h : a.Noted i kept live due) (hsleepless : a.Sleepless)
include h hsleepless

/-- The token of a new sleep is ahead of what was armed. -/
theorem Noted.sleep {ms : Nat}
    {after : Option String} : (a.sleep options now ms after thread).Noted i kept live due := by
  have hahead : ∀ {wake : Wake}, ¬ (a.sleep options now ms after thread).Believes wake := by
    rintro wake ⟨hwake, harmed⟩
    cases hwake
    have hle := h.seq _ harmed
    dsimp only at hle
    omega
  refine ⟨h.tidy.apply _, fun n hn => Nat.le_succ_of_le (h.seq n hn), h.armings, h.asked,
    fun w hw ms' seq durable hpoint => ?_, h.written, fun _ _ wake hb => absurd hb hahead,
    fun _ _ wake hb => absurd hb hahead, fun _ _ wake hb => absurd hb hahead⟩
  rw [Activation.sleep, append, mem_snoc] at hw
  rcases hw with hw | rfl
  · have hawake := hsleepless w hw
    rw [hpoint] at hawake
    cases hawake
  · injection hpoint with hms hseq hdurable
    refine ⟨hseq.symm, fun n hn => ?_, fun wake hwake => ?_⟩
    · have hle := h.seq n hn
      omega
    · cases hwake
      exact hdurable

/-- A touch arms the sleep it finds, unless it takes it to be armed. -/
theorem Noted.nudge : (a.nudge now).Noted i kept live due := by
  unfold Activation.nudge
  split
  · exact h
  split
  · rename_i wake hwake
    split
    · exact h.quiet (quiet_wake h.tidy)
    split
    · exact h
    rename_i hunarmed
    have hseq := h.tidy wake hwake
    -- What was armed before is behind the sleep.
    have hbehind : ∀ n, a.armedSeq = some n → n < wake.seq := by
      intro n hn
      have hle := h.seq n hn
      have hne : n ≠ wake.seq := fun heq => hunarmed (heq ▸ hn)
      omega
    have hlast : ∀ n, some wake.seq = some n → n ≤ a.state.seq := fun n hn =>
      Option.some.inj hn ▸ Nat.le_of_eq hseq
    have hold : ∀ x ∈ a.armings, x.seq ≤ wake.seq := by
      intro x hx
      obtain ⟨n, hn, hle⟩ := h.armings x hx
      have hlt := hbehind n hn
      omega
    have hwritten : live → a.closed = false → ∀ n, (i, n) ∈ kept → n < wake.seq := by
      intro hlive hopen n hn
      obtain ⟨m, hm, hle⟩ := h.written hlive hopen n hn
      have hlt := hbehind m hm
      omega
    have hnew : live → a.closed = false → ∀ n, (i, n) ∈ kept →
        ∃ m, some wake.seq = some m ∧ n ≤ m :=
      fun hlive hopen n hn => ⟨wake.seq, rfl, Nat.le_of_lt (hwritten hlive hopen n hn)⟩
    have hslept : ∀ w ∈ a.writes, ∀ ms seq durable,
        w.thread.point = .slept ms seq durable → False := by
      intro w hw ms seq durable hpoint
      have hawake := hsleepless w hw
      rw [hpoint] at hawake
      cases hawake
    have hsame : ∀ other, a.state.wake = some other → other = wake := fun other hother =>
      Option.some.inj (hother.symm.trans hwake)
    split
    · rename_i hdurable
      refine ⟨h.tidy, hlast, fun x hx => ⟨wake.seq, rfl, ?_⟩, fun _ _ _ => rfl,
        fun w hw ms seq durable hpoint => (hslept w hw ms seq durable hpoint).elim, hnew,
        fun _ _ other hb hd => ?_, fun _ _ _ _ _ => .inr (.inr rfl),
        fun hlive hopen other hb hd hmem => ?_⟩
      · rw [mem_snoc] at hx
        rcases hx with hx | rfl
        · exact hold x hx
        · exact Nat.le_refl _
      · rw [hsame other hb.1, hdurable] at hd
        cases hd
      · rw [hsame other hb.1] at hmem
        exact absurd (hwritten hlive hopen _ hmem) (Nat.lt_irrefl _)
    · rename_i hdurable
      refine ⟨h.tidy, hlast, fun x hx => ⟨wake.seq, rfl, hold x hx⟩, h.asked,
        fun w hw ms seq durable hpoint => (hslept w hw ms seq durable hpoint).elim, hnew,
        fun _ _ other hb _ => ?_, fun _ _ other hb hd => ?_,
        fun hlive hopen other hb hd hmem => ?_⟩
      · rw [hsame other hb.1]
        exact .inl ⟨_, rfl⟩
      · rw [hsame other hb.1] at hd
        exact absurd hd hdurable
      · rw [hsame other hb.1] at hmem
        exact absurd (hwritten hlive hopen _ hmem) (Nat.lt_irrefl _)
  · exact h.quiet (quiet_kept h.tidy rfl (fun _ => id) (fun _ => id) rfl rfl rfl rfl)

theorem Noted.onReminder {source : Nat} : (a.onReminder now source).Noted i kept live due := by
  unfold Activation.onReminder
  split
  · have hnudge : (a.nudge now).Noted i kept live due := h.nudge hsleepless
    exact hnudge.quiet (quiet_idle hnudge.tidy)
  · exact h.quiet (quiet_wake h.tidy)

theorem Noted.advance : (a.advance options now).Noted i kept live due := by
  have hidle := quiet_idle h.tidy
  unfold Activation.advance
  split
  · split
    · exact h.quiet hidle
    split
    · exact h.quiet (quiet_finish h.tidy _ _)
    · exact h.quiet hidle
    · exact h.quiet (quiet_runTask h.tidy _ _)
    · exact h.sleep hsleepless
    · split <;> exact h.quiet (quiet_moveTo h.tidy _)
    · exact h.quiet (quiet_finish h.tidy _ _)
  · exact h.quiet hidle

end

variable {message : String}

section

variable (h : a.Noted i kept live due)
include h

theorem Noted.caught {retrying : Retrying} {jitter : Nat} (hsleepless : a.Sleepless) :
    (a.caught options now retrying message jitter thread).Noted i kept live due := by
  unfold Activation.caught
  split
  · exact h.quiet (quiet_finish h.tidy _ _)
  · exact h.sleep hsleepless

/-- A write has left the gate. -/
theorem Noted.tail {w : Write} {rest : List Write} {etag : Option Nat} {faulted : Bool} (hwrites : a.writes = w :: rest) :
    Noted i kept live due { a with writes := rest, etag := etag, faulted := faulted } :=
  h.quiet (quiet_kept h.tidy rfl (fun _ => id)
    (fun _ hmem => hwrites ▸ List.mem_cons_of_mem w hmem) rfl rfl rfl rfl)

theorem Noted.reject {jitter : Nat} (hlane : a.LaneBut thread) (hapart : thread.Apart) :
    (a.reject options now thread message jitter).Noted i kept live due := by
  unfold Activation.reject
  split
  · rename_i retrying hretrying
    refine h.caught (hlane.sleepless ?_)
    cases hturn : thread.turn with
    | true => rfl
    | false => exact absurd ((hapart hturn).1.symm.trans hretrying) (by simp)
  · exact h.quiet (quiet_done h.tidy)

theorem Noted.threw {call : Call} {jitter : Nat} (hlane : a.Lane) (hcall : a.call = some call) :
    (a.threw options now call message jitter).Noted i kept live due := by
  have hbut : LaneBut { a with call := none } { point := .ended, turn := true } :=
    hlane.settled hcall rfl
  have hnone : Noted i kept live due { a with call := none } :=
    h.quiet (quiet_kept h.tidy rfl (fun _ => id) (fun _ => id) rfl rfl rfl rfl)
  exact hnone.caught (hbut.sleepless rfl)

/-- `sleep`, after its entry: it arms what it has applied. -/
theorem Noted.armSleep {ms seq : Nat} {durable : Bool}
    (hseq : seq = a.state.seq) (hbehind : ∀ n, a.armedSeq = some n → n < seq)
    (hdurable : ∀ wake, a.state.wake = some wake → wake.durable = durable)
    (hpoint : thread.point = .slept ms seq durable) (hsleepless : a.Sleepless) :
    (a.resume now thread).Noted i kept live due := by
  have hlast : ∀ n, some seq = some n → n ≤ a.state.seq := fun n hn =>
    Nat.le_of_eq ((Option.some.inj hn).symm.trans hseq)
  have hold : ∀ x ∈ a.armings, x.seq ≤ seq := by
    intro x hx
    obtain ⟨n, hn, hle⟩ := h.armings x hx
    have hlt := hbehind n hn
    omega
  have hwritten : live → a.closed = false → ∀ n, (i, n) ∈ kept → n < seq := by
    intro hlive hopen n hn
    obtain ⟨m, hm, hle⟩ := h.written hlive hopen n hn
    have hlt := hbehind m hm
    omega
  have hnew : live → a.closed = false → ∀ n, (i, n) ∈ kept → ∃ m, some seq = some m ∧ n ≤ m :=
    fun hlive hopen n hn => ⟨seq, rfl, Nat.le_of_lt (hwritten hlive hopen n hn)⟩
  have hslept : ∀ w ∈ a.writes, ∀ ms seq durable,
      w.thread.point = .slept ms seq durable → False := by
    intro w hw ms seq durable hpoint
    have hawake := hsleepless w hw
    rw [hpoint] at hawake
    cases hawake
  have hlater : ∀ {wake : Wake}, some seq = some wake.seq → live → a.closed = false →
      (i, wake.seq) ∈ kept → False :=
    fun heq hlive hopen hmem =>
      Nat.lt_irrefl seq (Option.some.inj heq ▸ hwritten hlive hopen _ hmem)
  unfold Activation.resume
  rw [hpoint]
  dsimp only
  split
  · rename_i htrue
    refine ⟨h.tidy, hlast, fun x hx => ⟨seq, rfl, ?_⟩, fun x hx hturn => ?_,
      fun w hw ms seq durable hp => (hslept w hw ms seq durable hp).elim, hnew,
      fun _ _ wake hb hd => ?_,
      fun _ _ wake hb _ => .inl ⟨_, List.mem_append_right _ List.mem_cons_self, ?_⟩,
      fun hlive hopen wake hb _ hmem => (hlater hb.2 hlive hopen hmem).elim⟩
    · rw [mem_snoc] at hx
      rcases hx with hx | rfl
      · exact hold x hx
      · exact Nat.le_refl _
    · rw [mem_snoc] at hx
      rcases hx with hx | rfl
      · exact h.asked x hx hturn
      · cases hturn
    · rw [hdurable wake hb.1, htrue] at hd
      cases hd
    · exact Option.some.inj hb.2
  · rename_i hfalse
    have harmed : Noted i kept live due
        { a with armedSeq := some seq, wakeTimer := some ⟨seq, now + ms⟩ } := by
      refine ⟨h.tidy, hlast, fun x hx => ⟨seq, rfl, hold x hx⟩, h.asked,
        fun w hw ms seq durable hp => (hslept w hw ms seq durable hp).elim, hnew,
        fun _ _ wake hb _ => ?_, fun _ _ wake hb hd => ?_,
        fun hlive hopen wake hb _ hmem => (hlater hb.2 hlive hopen hmem).elim⟩
      · exact .inl ⟨now + ms, by rw [← Option.some.inj hb.2]⟩
      · rw [hdurable wake hb.1] at hd
        exact absurd hd hfalse
    exact harmed.quiet (quiet_done harmed.tidy)

/-- A write has landed. -/
theorem Noted.resume {w : Write} {rest : List Write} {etag : Option Nat} (hlane : a.Lane) (hwrites : a.writes = w :: rest) :
    (Activation.resume now { a with writes := rest, etag := etag } w.thread).Noted i kept live
      due := by
  have htail : Noted i kept live due { a with writes := rest, etag := etag } := h.tail hwrites
  obtain ⟨hbut, hapart⟩ : LaneBut { a with writes := rest, etag := etag } w.thread ∧
      w.thread.Apart := hlane.tail hwrites
  by_cases hsleeps : w.thread.point.sleeps = true
  · cases hpoint : w.thread.point with
    | slept ms seq durable =>
      obtain ⟨hseq, hbehind, hdurable⟩ :=
        h.slept w (hwrites ▸ List.mem_cons_self) ms seq durable hpoint
      have hturn : w.thread.turn = true := turn_of hapart (by rw [hpoint]; rfl)
      exact htail.armSleep hseq hbehind hdurable hpoint (hbut.sleepless hturn)
    | _ => rw [hpoint] at hsleeps; cases hsleeps
  · exact htail.quiet (quiet_resume htail.tidy (Bool.eq_false_iff.2 hsleeps))

end

end Activation

end SigxActors.Workflow
