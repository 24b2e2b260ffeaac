/-
  Workflow/Steps.lean --- what one step of a run can do.

  `Stepped` lists the steps with what each requires and leaves; `Grows` says how
  an operation of the engine changes what an activation has applied and has yet
  to write.  The invariants of a run are read off these two.
-/
import SigxActors.Workflow.Run

set_option autoImplicit false

namespace SigxActors.Workflow

open SigxActors.Js

/-! ## Steps -/

/-- The steps of a run, with their labels. -/
inductive Stepped (options : WorkflowOptions) (s : Run) : Label → Run → Prop
  | elapse (ms : Nat) : Stepped options s (.elapse ms) { s with now := s.now + ms }
  | activate :
      Stepped options s .activate
        { s with activations := s.activations ++ [s.loaded.nudge s.now] }
  | start {i : Nat} {a : Activation} (name : String) (vars : JsMap String Json)
      (version : Option Int) (hget : s.activations[i]? = some a) (hfree : a.free = true) :
      Stepped options s (.start i name vars version)
        (s.put i ({ a with busy := true }.start options s.now name vars version))
  | status {i : Nat} {a : Activation} (hget : s.activations[i]? = some a) (hfree : a.free = true) :
      Stepped options s (.status i)
        (s.put i { { a with busy := true }.nudge s.now with busy := false })
  | fireAdvance {i : Nat} {a : Activation} (hget : s.activations[i]? = some a)
      (htimer : a.advanceTimer = true) :
      Stepped options s (.fireAdvance i)
        (s.put i { a with advanceTimer := false, ticks := a.ticks ++ [.advance] })
  | fireWake {i : Nat} {a : Activation} {timer : Reminder} (hget : s.activations[i]? = some a)
      (htimer : a.wakeTimer = some timer) (hdue : timer.due ≤ s.now) :
      Stepped options s (.fireWake i)
        (s.put i { a with wakeTimer := none, ticks := a.ticks ++ [.wake timer.seq] })
  | tickFaulted {i k : Nat} {a : Activation} {tick : Tick} (hget : s.activations[i]? = some a)
      (htick : a.ticks[k]? = some tick) (hbusy : a.busy = false) (hfaulted : a.faulted = true) :
      Stepped options s (.tick i k) (s.put i { a with ticks := a.ticks.eraseIdx k })
  | tickAdvance {i k : Nat} {a : Activation} (hget : s.activations[i]? = some a)
      (htick : a.ticks[k]? = some .advance) (hbusy : a.busy = false) (hfaulted : a.faulted = false) :
      Stepped options s (.tick i k)
        (s.put i ({ a with ticks := a.ticks.eraseIdx k, busy := true }.advance options s.now))
  | tickWake {i k seq : Nat} {a : Activation} (hget : s.activations[i]? = some a)
      (htick : a.ticks[k]? = some (.wake seq)) (hbusy : a.busy = false)
      (hfaulted : a.faulted = false) :
      Stepped options s (.tick i k)
        (s.put i ({ a with ticks := a.ticks.eraseIdx k, busy := true }.wake s.now seq seq true))
  | remind {reminder : Reminder} (hget : s.reminder = some reminder) (hdue : reminder.due ≤ s.now) :
      Stepped options s .remind
        { s with reminder := none, deliveries := s.deliveries ++ [reminder] }
  | deliver {k i : Nat} {reminder : Reminder} {a : Activation} (again : Bool)
      (hdelivery : s.deliveries[k]? = some reminder) (hget : s.activations[i]? = some a)
      (hfree : a.free = true) :
      Stepped options s (.deliver k i again)
        { s with
          deliveries := if again then s.deliveries else s.deliveries.eraseIdx k
          activations :=
            s.activations.set i ({ a with busy := true }.onReminder s.now reminder.seq) }
  | lost (k : Nat) :
      Stepped options s (.undelivered k none) { s with deliveries := s.deliveries.eraseIdx k }
  | putBack {k due : Nat} {reminder : Reminder} (hdelivery : s.deliveries[k]? = some reminder)
      (hdue : s.now < due) :
      Stepped options s (.undelivered k (some due))
        { s with
          deliveries := s.deliveries.eraseIdx k
          reminder := some { reminder with due := due } }
  | rejected {i : Nat} {a : Activation} {write : Write} {rest : List Write} {ok : Bool}
      (message : String) (jitter : Nat) (hget : s.activations[i]? = some a)
      (hwrites : a.writes = write :: rest) (hbad : a.faulted = true ∨ ok = false) :
      Stepped options s (.settle i ok message jitter)
        (s.put i ({ a with writes := rest }.reject options s.now write.thread message jitter))
  | landed {i : Nat} {a : Activation} {write : Write} {rest : List Write} {message : String}
      {jitter : Nat} (hget : s.activations[i]? = some a) (hwrites : a.writes = write :: rest)
      (hfaulted : a.faulted = false) (hfresh : a.etag = s.etag) :
      Stepped options s (.settle i true message jitter)
        (((s.land a.etag write).note i write.thread.point).put i
          ({ a with writes := rest, etag := (s.land a.etag write).etag }.resume s.now write.thread))
  | conflicted {i : Nat} {a : Activation} {write : Write} {rest : List Write}
      (message : String) (jitter : Nat) (hget : s.activations[i]? = some a)
      (hwrites : a.writes = write :: rest) (hstale : a.etag ≠ s.etag) :
      Stepped options s (.settle i true message jitter)
        (s.put i ({ a with writes := rest, faulted := true }.reject options s.now write.thread
          message jitter))
  | returned {i : Nat} {a : Activation} {call : Call} (out : Json)
      (hget : s.activations[i]? = some a) (hcall : a.call = some call) :
      Stepped options s (.return_ i out) (s.put i (a.returned s.now call out))
  | threw {i : Nat} {a : Activation} {call : Call} (message : String) (jitter : Nat)
      (hget : s.activations[i]? = some a) (hcall : a.call = some call) :
      Stepped options s (.throw_ i message jitter)
        (s.put i (a.threw options s.now call message jitter))
  | armed {i k : Nat} {a : Activation} {arming : Arming} (hget : s.activations[i]? = some a)
      (harming : a.armings[k]? = some arming) :
      Stepped options s (.arm i k true)
        { s with
          activations :=
            s.activations.set i ({ a with armings := a.armings.eraseIdx k }.armed arming true)
          reminder := some ⟨arming.seq, s.now + arming.due⟩ }
  | unarmed {i k : Nat} {a : Activation} {arming : Arming} (hget : s.activations[i]? = some a)
      (harming : a.armings[k]? = some arming) :
      Stepped options s (.arm i k false)
        (s.put i ({ a with armings := a.armings.eraseIdx k }.armed arming false))
  | crashLanded {i : Nat} {a : Activation} {write : Write} {rest : List Write}
      (hget : s.activations[i]? = some a) (hwrites : a.writes = write :: rest)
      (hfaulted : a.faulted = false) (hfresh : a.etag = s.etag) :
      Stepped options s (.crash i true) ((s.land a.etag write).put i Activation.dead)
  | crashed {i : Nat} {a : Activation} (hget : s.activations[i]? = some a) :
      Stepped options s (.crash i false) (s.put i Activation.dead)
  | deactivate {i : Nat} {a : Activation} (hget : s.activations[i]? = some a)
      (hbusy : a.busy = false) (hticks : a.ticks = []) :
      Stepped options s (.deactivate i)
        (s.put i { a with wakeTimer := none, advanceTimer := false, closed := true })

variable {options : WorkflowOptions} {s t : Run} {l : Label}

theorem Run.turn_eq {i : Nat} {body : Activation → Activation} (h : s.turn i body = some t) :
    ∃ a, s.activations[i]? = some a ∧ a.free = true ∧ t = s.put i (body { a with busy := true }) := by
  unfold Run.turn at h
  split at h
  · rename_i a hget
    obtain ⟨hfree, h⟩ := guard_passed h
    exact ⟨a, hget, hfree, (Option.some.inj h).symm⟩
  · simp at h

@[simp] theorem Run.etag_note (i : Nat) (point : Point) : (s.note i point).etag = s.etag := by
  cases point with
  | woken | attempted | _ => rfl

theorem Run.stepped_settle {i : Nat} {a : Activation} {write : Write} {rest : List Write}
    {ok : Bool} (message : String) (jitter : Nat) (hget : s.activations[i]? = some a)
    (hwrites : a.writes = write :: rest) : Stepped options s (.settle i ok message jitter)
      (s.settle options i a write rest ok message jitter) := by
  unfold Run.settle
  dsimp only
  split
  · rename_i hbad
    exact .rejected message jitter hget hwrites hbad
  rename_i hgood
  rw [not_or, Bool.not_eq_true, Bool.not_eq_false] at hgood
  obtain ⟨hfaulted, rfl⟩ := hgood
  split
  · rename_i hfresh
    have hlanded : Stepped options s (.settle i true message jitter) _ :=
      .landed hget hwrites hfaulted hfresh
    rw [Run.etag_note]
    exact hlanded
  · rename_i hstale
    exact .conflicted message jitter hget hwrites hstale

/-- A step is one of those listed. -/
theorem Run.stepped (h : s.step options l = some t) : Stepped options s l t := by
  cases l with dsimp only [Run.step] at h
  | elapse ms =>
    cases h
    exact .elapse ms
  | activate =>
    cases h
    exact .activate
  | start i name vars version =>
    obtain ⟨a, hget, hfree, rfl⟩ := turn_eq h
    exact .start name vars version hget hfree
  | status i =>
    obtain ⟨a, hget, hfree, rfl⟩ := turn_eq h
    exact .status hget hfree
  | fireAdvance i =>
    split at h
    · rename_i a hget
      obtain ⟨htimer, rfl⟩ := guard_taken h
      exact .fireAdvance hget (Bool.and_eq_true_iff.1 htimer).1
    · simp at h
  | fireWake i =>
    split at h
    · rename_i a hget
      split at h
      · rename_i timer htimer
        obtain ⟨hdue, rfl⟩ := guard_taken h
        exact .fireWake hget htimer hdue.1
      · simp at h
    · simp at h
  | tick i k =>
    split at h
    · rename_i a hget
      split at h
      · rename_i tick htick
        obtain ⟨hbusy, h⟩ := guard_past h
        rw [Bool.not_eq_true] at hbusy
        split at h
        · rename_i hfaulted
          cases h
          exact .tickFaulted hget htick hbusy hfaulted
        · rename_i hfaulted
          rw [Bool.not_eq_true] at hfaulted
          cases tick with
          | advance =>
            cases h
            exact .tickAdvance hget htick hbusy hfaulted
          | wake seq =>
            cases h
            exact .tickWake hget htick hbusy hfaulted
      · simp at h
    · simp at h
  | remind =>
    split at h
    · rename_i reminder hget
      obtain ⟨hdue, rfl⟩ := guard_taken h
      exact .remind hget hdue
    · simp at h
  | deliver k i again =>
    split at h
    · rename_i reminder hdelivery
      obtain ⟨a, hget, hfree, rfl⟩ := turn_eq h
      cases again with
      | true => exact .deliver true hdelivery hget hfree
      | false => exact .deliver false hdelivery hget hfree
    · simp at h
  | undelivered k due =>
    split at h
    · rename_i reminder hdelivery
      cases due with
      | none =>
        cases h
        exact .lost k
      | some due =>
        obtain ⟨hdue, rfl⟩ := guard_taken h
        exact .putBack hdelivery hdue.1
    · simp at h
  | settle i ok message jitter =>
    split at h
    · rename_i a hget
      split at h
      · rename_i write rest hwrites
        cases h
        exact stepped_settle message jitter hget hwrites
      · simp at h
    · simp at h
  | return_ i out =>
    split at h
    · rename_i a hget
      obtain ⟨call, hcall, rfl⟩ := Option.map_eq_some_iff.1 h
      exact .returned out hget hcall
    · simp at h
  | throw_ i message jitter =>
    split at h
    · rename_i a hget
      obtain ⟨call, hcall, rfl⟩ := Option.map_eq_some_iff.1 h
      exact .threw message jitter hget hcall
    · simp at h
  | arm i k ok =>
    split at h
    · rename_i a hget
      split at h
      · rename_i arming harming
        cases ok with
        | true =>
          cases h
          exact .armed hget harming
        | false =>
          cases h
          exact .unarmed hget harming
      · simp at h
    · simp at h
  | crash i landed =>
    split at h
    · rename_i a hget
      split at h
      · rename_i write rest hwrites
        obtain ⟨hgood, rfl⟩ := guard_taken h
        exact .crashLanded hget hwrites hgood.1 hgood.2
      · simp at h
      · cases h
        exact .crashed hget
    · simp at h
  | deactivate i =>
    split at h
    · rename_i a hget
      obtain ⟨hidle, rfl⟩ := guard_taken h
      exact .deactivate hget hidle.1 hidle.2
    · simp at h

end SigxActors.Workflow
