/-
  Socket/Concurrency.lean --- how many calls of a socket the host works on.

  A call is accepted when `inFlight` has room.  A cancel takes its entry out at once, and the
  host goes on with it.
-/
import SigxActors.Socket.Demux

set_option autoImplicit false

namespace SigxActors.Socket

/-- The host has been asked for it, and has not settled. -/
def Registration.running (r : Registration) : Bool :=
  !r.watch && (match r.stage with
    | .dispatched _ => true
    | _ => false)

/-- The host has it, or is about to. -/
def Registration.pending (r : Registration) : Bool :=
  !r.watch && (match r.stage with
    | .preparing | .dispatched _ => true
    | _ => false)

/-- Registration `r'` is no more pending than `r`. -/
def Registration.Calms (r r' : Registration) : Prop := r'.pending = true → r.pending = true

theorem Registration.pending_of_running {r : Registration} (h : r.running = true) :
    r.pending = true := by
  unfold running at h
  unfold pending
  revert h
  cases r.stage <;> simp

/-- One that is dispatched has been about to be. -/
theorem Registration.calms_dispatch {r : Registration} (h : r.stage = .preparing)
    (stream deadlined : Bool) :
    r.Calms { r with
      stage := .dispatched stream
      deadline := if r.watch then r.deadline else deadlined } := by
  intro hpending
  unfold pending at hpending ⊢
  rw [h]
  exact hpending

/-- A list in which one element no longer counts. -/
theorem countP_modify_le {α : Type} {p : α → Bool} {f : α → α} {l : List α} {k : Nat}
    (h : ∀ a, l[k]? = some a → p (f a) = true → p a = true) :
    (l.modify k f).countP p ≤ l.countP p := by
  induction l generalizing k with
  | nil => exact Nat.le_of_eq (by rw [List.modify_nil])
  | cons a l ih =>
    cases k with
    | zero =>
      rw [List.modify_zero_cons, List.countP_cons, List.countP_cons]
      refine Nat.add_le_add_left ?_ _
      by_cases hafter : p (f a) = true
      · exact Nat.le_of_eq (by rw [if_pos hafter, if_pos (h a rfl hafter)])
      · exact if_neg hafter ▸ Nat.zero_le _
    | succ k =>
      rw [List.modify_succ_cons, List.countP_cons, List.countP_cons]
      exact Nat.add_le_add_right (ih h) _

namespace Session

variable {V : Type} {s t : Session V} {k : Nat} {bounds : SessionBounds}

/-- The calls that the host works on. -/
def running (s : Session V) : Nat := s.registrations.countP Registration.running

/-- The calls that have been accepted and have not settled. -/
def pending (s : Session V) : Nat := s.registrations.countP Registration.pending

/-- A call that is accepted is one of no more than `maxConcurrent`, those included whose entry is
gone. -/
def Clear (bounds : SessionBounds) (s : Session V) : Label V → Prop
  | .message _ (.call i _) =>
      s.inFlight.has i = true ∨ s.watches.has i = true ∨
      bounds.maxConcurrent ≠ 0 ∧ bounds.maxConcurrent ≤ s.inFlight.entries.length ∨
      s.pending < bounds.maxConcurrent
  | _ => True

instance (s : Session V) (l : Label V) : Decidable (s.Clear bounds l) := by
  unfold Clear
  split <;> infer_instance

theorem running_le_pending (s : Session V) : s.running ≤ s.pending :=
  List.countP_mono_left fun _ _ => Registration.pending_of_running

/-! ## What makes no call -/

theorem pending_update {f : Registration → Registration}
    (h : ∀ r, s.registrations[k]? = some r → r.Calms (f r)) : (s.update k f).pending ≤ s.pending :=
  countP_modify_le h

theorem pending_abort (s : Session V) (k : Nat) : (s.abort k).pending ≤ s.pending :=
  pending_update fun _ _ => id

theorem pending_reply (s : Session V) (i : Int) (k : Nat) (frame : Reply V) :
    (s.reply i k frame).pending = s.pending := by
  unfold pending
  rw [reply_registrations]

theorem pending_refuse (s : Session V) (i : Int) (status : Nat) (message : String) :
    (s.refuse i status message).pending = s.pending := by
  unfold refuse
  split <;> rfl

theorem pending_release (s : Session V) (k : Nat) (r : Registration) :
    (s.release k r).pending = s.pending := by
  rw [release_eq]
  split
  · unfold pending
    rw [without_registrations]
  · rfl

theorem pending_finish (s : Session V) (k : Nat) (r : Registration) :
    (s.finish k r).pending ≤ s.pending := by
  have hdone : ((s.release k r).update k fun r =>
      { r with stage := .done, deadline := false }).pending ≤ s.pending := by
    refine Nat.le_trans (pending_update fun r' _ hpending => ?_)
      (Nat.le_of_eq (pending_release s k r))
    unfold Registration.pending at hpending
    rw [Bool.and_eq_true] at hpending
    cases hpending.2
  unfold finish
  dsimp only
  generalize (if r.watch then s.watches else s.inFlight).get r.i = there
  split
  · exact Nat.le_trans (pending_abort _ k) hdone
  · exact hdone

theorem pending_teardown (s : Session V) : s.teardown.pending ≤ s.pending := by
  have hfold : ∀ (l : List Nat) (s : Session V),
      (l.foldl (fun s k => s.abort k) s).pending ≤ s.pending := by
    intro l
    induction l with
    | nil => exact fun s => Nat.le_refl _
    | cons k l ih => exact fun s => Nat.le_trans (ih (s.abort k)) (pending_abort s k)
  exact hfold _ s

theorem pending_fail (s : Session V) (code : Nat) (reason : String) :
    (s.fail code reason).pending ≤ s.pending := by
  unfold fail
  split
  · exact Nat.le_refl _
  · exact pending_teardown _

theorem pending_close (s : Session V) : s.close.pending ≤ s.pending := by
  unfold close
  split
  · exact Nat.le_refl _
  · exact pending_teardown _

theorem pending_shed (s : Session V) (depth : Nat) : (s.shed bounds depth).pending ≤ s.pending := by
  unfold shed
  split
  · exact Nat.le_refl _
  · dsimp only
    split <;> exact pending_abort { s with watches := _ } _

theorem pending_shedIfOverCap (s : Session V) (k written : Nat) (depth : Option Nat) :
    (s.shedIfOverCap bounds k written depth).pending ≤ s.pending := by
  have hcount : (s.update k fun r =>
      { r with
        epoch := s.drainEpoch
        bytes := (if r.epoch = s.drainEpoch then r.bytes else 0) + written }).pending ≤
      s.pending := pending_update fun _ _ => id
  unfold shedIfOverCap
  split
  · exact hcount
  · exact hcount
  · split
    · exact hcount
    · exact Nat.le_trans (pending_shed _ _) hcount

/-- Registration `k` may say something before it comes to its end. -/
theorem pending_last (s : Session V) (k : Nat) (r : Registration) (answers : Bool)
    (frame : Reply V) :
    ((if answers then s.reply r.i k frame else s).finish k r).pending ≤ s.pending := by
  refine Nat.le_trans (pending_finish _ k r) (Nat.le_of_eq ?_)
  split
  · exact pending_reply s r.i k frame
  · rfl

/-! ## Steps -/

/-- A message makes a call where the session is clear of what has been cancelled. -/
theorem pending_handle {deadlined : Bool} {request : Request}
    (hclear : s.Clear bounds (.message deadlined request))
    (hbound : s.pending ≤ bounds.maxConcurrent) :
    (s.handle bounds deadlined request).pending ≤ bounds.maxConcurrent := by
  have hfail : ∀ code reason, (s.fail code reason).pending ≤ bounds.maxConcurrent :=
    fun code reason => Nat.le_trans (pending_fail s code reason) hbound
  have hrefuse : ∀ i status message, (s.refuse i status message).pending ≤ bounds.maxConcurrent :=
    fun i status message => Nat.le_trans (Nat.le_of_eq (pending_refuse s i status message)) hbound
  unfold handle
  split
  case h_1 => exact hbound
  case h_2 => exact hfail _ _
  case h_3 => exact hfail _ _
  case h_4 => exact hfail _ _
  case h_5 => exact hfail _ _
  case h_6 i =>
    split
    · exact Nat.le_trans (pending_abort { s with inFlight := s.inFlight.erase i } _) hbound
    · exact hbound
  case h_7 i =>
    split
    · exact Nat.le_trans (pending_abort { s with watches := s.watches.erase i } _) hbound
    · exact hbound
  case h_8 i valid =>
    split
    · exact hfail _ _
    split
    · exact hrefuse _ _ _
    split
    · exact hrefuse _ _ _
    show (s.registrations ++ [_]).countP Registration.pending ≤ _
    rw [List.countP_append]
    exact hbound
  case h_9 i oneWay =>
    split
    · exact hfail _ _
    rename_i hfree
    split
    · exact hrefuse _ _ _
    rename_i hroom
    have hpending : s.pending < bounds.maxConcurrent := by
      rw [Bool.or_eq_true, not_or] at hfree
      obtain hcall | hsub | hfull | hpending := hclear
      · exact absurd hcall hfree.1
      · exact absurd hsub hfree.2
      · exact absurd ⟨Nat.pos_of_ne_zero hfull.1, hfull.2⟩ hroom
      · exact hpending
    show (s.registrations ++ [_]).countP Registration.pending ≤ _
    rw [List.countP_append]
    exact hpending
  case h_10 => exact hfail _ _

theorem pending_step {l : Label V} (hclear : s.Clear bounds l)
    (hbound : s.pending ≤ bounds.maxConcurrent) (hstep : s.step bounds l = some t) :
    t.pending ≤ bounds.maxConcurrent := by
  cases l with simp only [step] at hstep
  | message deadlined request =>
    obtain ⟨-, rfl⟩ := guard_past_taken hstep
    exact pending_handle hclear hbound
  | dispatch k stream deadlined =>
    split at hstep
    · rename_i r hget
      obtain ⟨hstage, rfl⟩ := guard_taken hstep
      refine Nat.le_trans (pending_update fun r' hget' => ?_) hbound
      cases hget.symm.trans hget'
      exact Registration.calms_dispatch hstage stream deadlined
    · cases hstep
  | returns k value =>
    split at hstep
    · rename_i r hget
      obtain ⟨-, rfl⟩ := guard_taken hstep
      refine Nat.le_trans (pending_finish _ k r) (Nat.le_trans (Nat.le_of_eq ?_) hbound)
      split
      · rw [pending_reply, pending_reply]
      · rfl
    · cases hstep
  | chunk k value =>
    split at hstep
    · obtain ⟨-, hstep⟩ := guard_passed hstep
      split at hstep
      · cases hstep
        rw [pending_reply]
        exact Nat.le_trans (pending_update fun _ _ => id) hbound
      · cases hstep
        exact Nat.le_trans (pending_update fun _ _ => id) hbound
    · cases hstep
  | ends k | failed k | watchEnds k =>
    split at hstep
    · split at hstep
      · cases hstep
        exact Nat.le_trans (pending_last s k _ _ _) hbound
      · cases hstep
    · cases hstep
  | throws k =>
    split at hstep
    · have hfailing : (s.update k fun r =>
          { r with stage := .failing, deadline := false }).pending ≤ s.pending := by
        refine pending_update fun r' _ hpending => ?_
        unfold Registration.pending at hpending
        rw [Bool.and_eq_true] at hpending
        cases hpending.2
      split at hstep
      · cases hstep
        exact Nat.le_trans hfailing hbound
      · cases hstep
        exact Nat.le_trans hfailing hbound
      · cases hstep
    · cases hstep
  | value k value written depth =>
    split at hstep
    · rename_i r _
      obtain ⟨-, hstep⟩ := guard_passed hstep
      split at hstep
      · have hsaid : ((s.update k fun r =>
            { r with deadline := false, timedOut := false }).reply r.i k (.v value)).pending ≤
            bounds.maxConcurrent := by
          rw [pending_reply]
          exact Nat.le_trans (pending_update fun _ _ => id) hbound
        split at hstep <;> cases hstep
        · exact Nat.le_trans (pending_shedIfOverCap _ k written depth) hsaid
        · exact hsaid
      · cases hstep
        exact Nat.le_trans (pending_finish s k _) hbound
    · cases hstep
  | watchThrows k status message =>
    split at hstep
    · split at hstep
      · cases hstep
        exact Nat.le_trans (pending_last s k _ _ _) hbound
      · cases hstep
        exact Nat.le_trans (pending_last s k _ _ _) hbound
      · cases hstep
    · cases hstep
  | deadline k =>
    split at hstep
    · split at hstep
      · cases hstep
        exact Nat.le_trans (pending_update fun _ _ => id) hbound
      · cases hstep
    · cases hstep
  | fail code reason =>
    cases hstep
    exact Nat.le_trans (pending_fail s code reason) hbound
  | close =>
    cases hstep
    exact Nat.le_trans (pending_close s) hbound

end Session

variable {V : Type} {bounds : SessionBounds}

/-- A second call is made when the first has settled. -/
def oneByOne : List (Session.Label Nat) :=
  [.message false (.call 1 false), .dispatch 0 false false, .message false (.cancel 1),
   .returns 0 7, .message false (.call 2 false), .dispatch 1 false false]

/-- A call is cancelled, and the next is accepted while the host goes on with it. -/
def cancelled : List (Session.Label Nat) :=
  [.message false (.call 1 false), .dispatch 0 false false, .message false (.cancel 1),
   .message false (.call 2 false), .dispatch 1 false false]

end SigxActors.Socket
