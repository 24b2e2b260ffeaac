/-
  Socket/Demux.lean --- a frame is for whoever holds its tag.

  The client may use a tag again as soon as it is free.  What a registration has still to
  say is told from what its successor has by number: a table holds the number under the
  tag, and no number is given twice.
-/
import SigxActors.Socket.Session

set_option autoImplicit false

namespace SigxActors.Socket

open SigxActors.Js

variable {V : Type}

/-- It is a frame of registration `k`. -/
def Event.Sends (k : Nat) : Event V → Prop
  | .sent _ owner _ _ => owner = k
  | _ => False

/-- Registration `k` is over with it. -/
def Event.Ends (k : Nat) : Event V → Prop
  | .sent _ owner _ reply => owner = k ∧ reply.terminal = true
  | .refused _ _ _ => False
  | .freed owner => owner = k

/-- A frame is of the registration that holds its tag; one that refuses a message goes where nobody
does. -/
def Event.Belongs : Event V → Prop
  | .sent _ k holder _ => holder = some k
  | .refused _ holder _ => holder = none
  | .freed _ => True

/-- Every frame is of a registration that holds its tag. -/
def Event.Held : Event V → Prop
  | .sent _ k holder _ => holder = some k
  | .refused _ holder _ => holder.isSome = true
  | .freed _ => True

namespace Session

variable {s t : Session V} {ex : Option Nat} {i : Int} {k : Nat} {r : Registration} {w : Bool}

/-- What the tables hold under a tag: that of the calls, or that of the subscriptions. -/
def at_ (s : Session V) (w : Bool) (i : Int) : Option Nat :=
  (if w then s.watches else s.inFlight).get i

/-- Registration `k` is in a table. -/
def Holds (s : Session V) (k : Nat) : Prop := ∃ w i, s.at_ w i = some k

/-- What is said on the socket is told apart. -/
structure Demuxed (s : Session V) : Prop where
  belongs : ∀ e ∈ s.log, e.Belongs
  /-- Nothing is sent to a registration that has had its terminal, or was let go. -/
  once : s.log.Pairwise fun e e' => ∀ k, e.Ends k → ¬ e'.Sends k
  apart : ∀ i, s.inFlight.get i = none ∨ s.watches.get i = none
  /-- A session that is closed has aborted what had not come to its end. -/
  aborts : s.closed = true → ∀ r ∈ s.registrations, r.stage = .done ∨ r.aborted = true

/-- The invariant, but for a registration that is about to go. -/
structure Sound (ex : Option Nat) (s : Session V) : Prop where
  held : ∀ w i k, s.at_ w i = some k →
    ∃ r, s.registrations[k]? = some r ∧ r.i = i ∧ r.watch = w ∧ r.stage ≠ .done
  apart : ∀ i, s.at_ false i = none ∨ s.at_ true i = none
  closed : s.closed = true → ∀ w i, s.at_ w i = none
  belongs : ∀ e ∈ s.log, e.Belongs
  once : s.log.Pairwise fun e e' => ∀ k, e.Ends k → ¬ e'.Sends k
  ended : ∀ e ∈ s.log, ∀ k, e.Ends k → k < s.registrations.length ∧ (ex = some k ∨ ¬ s.Holds k)
  aborts : ∀ k r, s.registrations[k]? = some r →
    ex = some k ∨ r.stage = .done ∨ r.aborted = true ∨ s.Holds k

theorem Sound.but (h : s.Sound none) (k : Nat) : s.Sound (some k) :=
  { h with
    ended := fun e hmem j hends => ⟨(h.ended e hmem j hends).1,
      .inr ((h.ended e hmem j hends).2.resolve_left nofun)⟩
    aborts := fun j r hget => .inr ((h.aborts j r hget).resolve_left nofun) }

/-- A registration that is in a table has not come to its end. -/
theorem Sound.fresh (h : s.Sound none) (hheld : s.Holds k) : ∀ e ∈ s.log, ¬ e.Ends k := by
  intro e hmem hends
  exact ((h.ended e hmem k hends).2.resolve_left nofun) hheld

/-- The table has it under its own tag. -/
theorem Sound.holds_iff (h : s.Sound ex) (hget : s.registrations[k]? = some r) :
    s.Holds k ↔ s.at_ r.watch r.i = some k := by
  refine ⟨?_, fun hat => ⟨_, _, hat⟩⟩
  rintro ⟨w, i, hat⟩
  obtain ⟨r', hget', rfl, rfl, -⟩ := h.held w i k hat
  cases hget.symm.trans hget'
  exact hat

theorem at_of_tracked (h : s.tracked k r = true) :
    s.closed = false ∧ s.at_ r.watch r.i = some k := by
  unfold tracked at h
  rw [Bool.and_eq_true, Bool.not_eq_true', beq_iff_eq] at h
  exact h

theorem Sound.holder (h : s.Sound ex) (hat : s.at_ w i = some k) : s.holder i = some k := by
  unfold Session.holder
  cases w with
  | false =>
    rw [show s.inFlight.get i = some k from hat]
    rfl
  | true =>
    have hnone : s.inFlight.get i = none := by
      refine (h.apart i).resolve_right fun hwatches => ?_
      rw [hat] at hwatches
      cases hwatches
    rw [hnone]
    exact hat

/-! ## What is said -/

/-- An event is noted. -/
theorem Sound.say (h : s.Sound ex) {e : Event V} (hbelongs : e.Belongs)
    (hfresh : ∀ k, e.Sends k → ∀ e' ∈ s.log, ¬ e'.Ends k)
    (hends : ∀ k, e.Ends k → k < s.registrations.length ∧ (ex = some k ∨ ¬ s.Holds k)) :
    Sound ex { s with log := s.log ++ [e] } where
  held := h.held
  apart := h.apart
  closed := h.closed
  belongs e' hmem := by
    obtain hmem | hmem := List.mem_append.1 hmem
    · exact h.belongs e' hmem
    · obtain rfl := List.mem_singleton.1 hmem
      exact hbelongs
  once := by
    rw [List.pairwise_append]
    refine ⟨h.once, List.pairwise_singleton _ _, fun e' hmem e'' hlast k hends' hsends => ?_⟩
    obtain rfl := List.mem_singleton.1 hlast
    exact hfresh k hsends e' hmem hends'
  ended e' hmem k hends' := by
    obtain hmem | hmem := List.mem_append.1 hmem
    · exact h.ended e' hmem k hends'
    · obtain rfl := List.mem_singleton.1 hmem
      exact hends k hends'
  aborts := h.aborts

theorem reply_of_open (hopen : s.closed = false) (i : Int) (k : Nat) (frame : Reply V) :
    s.reply i k frame = { s with log := s.log ++ [.sent i k (s.holder i) frame] } := by
  unfold Session.reply
  rw [hopen]
  rfl

/-- A registration that is tracked says something, and goes on. -/
theorem Sound.reply (h : s.Sound none)
    (htracked : s.tracked k r = true) {frame : Reply V} (hframe : frame.terminal = false) :
    (s.reply r.i k frame).Sound none := by
  obtain ⟨hopen, hat⟩ := at_of_tracked htracked
  rw [reply_of_open hopen]
  refine h.say (h.holder hat) (fun j hsends => ?_) fun j hends => ?_
  · obtain rfl : k = j := hsends
    exact h.fresh ⟨_, _, hat⟩
  · obtain ⟨-, hterminal⟩ : k = j ∧ frame.terminal = true := hends
    cases hframe.symm.trans hterminal

/-- It says its last. -/
theorem Sound.replyLast (h : s.Sound none) (hget : s.registrations[k]? = some r)
    (htracked : s.tracked k r = true) (frame : Reply V) : (s.reply r.i k frame).Sound (some k) := by
  obtain ⟨hopen, hat⟩ := at_of_tracked htracked
  rw [reply_of_open hopen]
  refine (h.but k).say (h.holder hat) (fun j hsends => ?_) fun j hends => ?_
  · obtain rfl : k = j := hsends
    exact h.fresh ⟨_, _, hat⟩
  · obtain ⟨rfl, -⟩ : k = j ∧ frame.terminal = true := hends
    exact ⟨(List.getElem?_eq_some_iff.1 hget).1, .inl rfl⟩

theorem reply_registrations (s : Session V) (i : Int) (k : Nat) (frame : Reply V) :
    (s.reply i k frame).registrations = s.registrations := by
  unfold Session.reply
  split <;> rfl

theorem reply_tracked (s : Session V) (i : Int) (k : Nat) (frame : Reply V) (j : Nat)
    (r : Registration) : (s.reply i k frame).tracked j r = s.tracked j r := by
  unfold Session.reply
  split <;> rfl

/-- A message is refused under a tag that nobody holds. -/
theorem Sound.refuse (h : s.Sound none) (hfree : ∀ w, s.at_ w i = none) (status : Nat)
    (message : String) : (s.refuse i status message).Sound none := by
  unfold Session.refuse
  split
  · exact h
  refine h.say ?_ nofun nofun
  show (s.inFlight.get i).or (s.watches.get i) = none
  rw [show s.inFlight.get i = none from hfree false, show s.watches.get i = none from hfree true]
  rfl

/-! ## A registration changes -/

/-- A registration changes, and its tag and kind do not. -/
structure Keeps (r r' : Registration) : Prop where
  i : r'.i = r.i
  watch : r'.watch = r.watch
  done : r.stage = .done → r'.stage = .done
  aborted : r.aborted = true → r'.aborted = true

/-- One that is in a table does not come to its end there. -/
theorem Sound.update (h : s.Sound ex) {f : Registration → Registration}
    (hkeeps : ∀ r, s.registrations[k]? = some r → Keeps r (f r))
    (hends : ∀ r, (f r).stage = .done → r.stage = .done ∨ ¬ s.Holds k) :
    (s.update k f).Sound ex where
  held w i j hat := by
    obtain ⟨r, hget, hi, hwatch, hstage⟩ := h.held w i j hat
    by_cases hj : j = k
    · subst hj
      have hkept := hkeeps r hget
      refine ⟨_, modify_get_self f hget, hkept.i.trans hi, hkept.watch.trans hwatch,
        fun hdone => ?_⟩
      obtain hbefore | hgone := hends r hdone
      · exact hstage hbefore
      · exact hgone ⟨w, i, hat⟩
    · exact ⟨r, (modify_get_other f hj).trans hget, hi, hwatch, hstage⟩
  apart := h.apart
  closed := h.closed
  belongs := h.belongs
  once := h.once
  ended e hmem j hends := by
    have hlength : (s.update k f).registrations.length = s.registrations.length :=
      List.length_modify ..
    rw [hlength]
    exact h.ended e hmem j hends
  aborts j r hafter := by
    obtain ⟨r, rfl, hget, rfl⟩ | ⟨-, hget⟩ := of_modify_get hafter
    · have hkept := hkeeps r hget
      obtain hex | hstage | haborted | hholds := h.aborts j r hget
      · exact .inl hex
      · exact .inr (.inl (hkept.done hstage))
      · exact .inr (.inr (.inl (hkept.aborted haborted)))
      · exact .inr (.inr (.inr hholds))
    · exact h.aborts j r hget

theorem Sound.abort (h : s.Sound ex) (k : Nat) : (s.abort k).Sound ex :=
  h.update (fun _ _ => ⟨rfl, rfl, id, fun _ => rfl⟩) fun _ hstage => .inl hstage

/-! ## It leaves its table -/

/-- A tag is free again. -/
def without (s : Session V) (w : Bool) (i : Int) : Session V :=
  if w then { s with watches := s.watches.erase i } else { s with inFlight := s.inFlight.erase i }

theorem at_without (s : Session V) (w w' : Bool) (i i' : Int) :
    (s.without w i).at_ w' i' = if w' = w ∧ i' = i then none else s.at_ w' i' := by
  unfold without at_
  cases w <;> cases w' <;> simp [JsMap.get_erase]

theorem without_registrations (s : Session V) (w : Bool) (i : Int) :
    (s.without w i).registrations = s.registrations := by
  unfold without
  split <;> rfl

theorem without_log (s : Session V) (w : Bool) (i : Int) : (s.without w i).log = s.log := by
  unfold without
  split <;> rfl

theorem without_closed (s : Session V) (w : Bool) (i : Int) :
    (s.without w i).closed = s.closed := by
  unfold without
  split <;> rfl

/-- What is in a table once the tag is free has been there before, under another. -/
theorem at_of_without {j : Nat} {w' : Bool} {i' : Int}
    (h : (s.without w i).at_ w' i' = some j) : s.at_ w' i' = some j ∧ ¬ (w' = w ∧ i' = i) := by
  rw [at_without] at h
  obtain ⟨hne, h⟩ := guard_past h
  exact ⟨h, hne⟩

theorem Sound.not_holds_without (h : s.Sound ex) (hat : s.at_ w i = some k) :
    ¬ (s.without w i).Holds k := by
  rintro ⟨w', i', hafter⟩
  obtain ⟨hat', hne⟩ := at_of_without hafter
  obtain ⟨r, hget, rfl, rfl, -⟩ := h.held w i k hat
  obtain ⟨r', hget', rfl, rfl, -⟩ := h.held w' i' k hat'
  cases hget.symm.trans hget'
  exact hne ⟨rfl, rfl⟩

/-- Registration `k` leaves its table. -/
theorem Sound.without (h : s.Sound (some k)) (hat : s.at_ w i = some k) :
    (s.without w i).Sound (some k) where
  held w' i' j hat' := by
    rw [without_registrations]
    exact h.held w' i' j (at_of_without hat').1
  apart i' := by
    obtain hfree | hfree := h.apart i'
    · exact .inl (by rw [at_without, hfree, ite_self])
    · exact .inr (by rw [at_without, hfree, ite_self])
  closed hclosed w' i' := by
    rw [without_closed] at hclosed
    rw [at_without, h.closed hclosed, ite_self]
  belongs := by
    rw [without_log]
    exact h.belongs
  once := by
    rw [without_log]
    exact h.once
  ended e hmem j hends := by
    rw [without_log] at hmem
    rw [without_registrations]
    refine ⟨(h.ended e hmem j hends).1, (h.ended e hmem j hends).2.imp id ?_⟩
    rintro hgone ⟨w', i', hat'⟩
    exact hgone ⟨w', i', (at_of_without hat').1⟩
  aborts j r hget := by
    rw [without_registrations] at hget
    obtain hex | hstage | haborted | ⟨w', i', hat'⟩ := h.aborts j r hget
    · exact .inl hex
    · exact .inr (.inl hstage)
    · exact .inr (.inr (.inl haborted))
    · by_cases hj : j = k
      · exact .inl (hj ▸ rfl)
      refine .inr (.inr (.inr ⟨w', i', ?_⟩))
      rw [at_without, if_neg]
      · exact hat'
      · rintro ⟨rfl, rfl⟩
        exact hj (Option.some.inj (hat'.symm.trans hat))

/-- One that is in no table, and has been aborted or is at its end, is as any other. -/
theorem Sound.settle (h : s.Sound (some k)) (hgone : ¬ s.Holds k)
    (hover : ∀ r, s.registrations[k]? = some r → r.stage = .done ∨ r.aborted = true) :
    s.Sound none :=
  { h with
    ended := fun e hmem j hends => by
      refine ⟨(h.ended e hmem j hends).1, .inr ?_⟩
      obtain hj | hfree := (h.ended e hmem j hends).2
      · exact Option.some.inj hj ▸ hgone
      · exact hfree
    aborts := fun j r hget => by
      refine .inr ?_
      obtain hj | hover' := h.aborts j r hget
      · cases hj
        exact (hover r hget).imp id .inl
      · exact hover' }

/-- It is let go: its tag is free, and it is aborted. -/
theorem Sound.letGo (h : s.Sound (some k)) (hat : s.at_ w i = some k) :
    ((s.without w i).abort k).Sound none := by
  refine ((h.without hat).abort k).settle (h.not_holds_without hat) fun r hget => .inr ?_
  obtain ⟨r, -, -, rfl⟩ | ⟨hne, -⟩ := of_modify_get hget
  · rfl
  · exact absurd rfl hne

theorem release_eq (s : Session V) (k : Nat) (r : Registration) :
    s.release k r = if s.at_ r.watch r.i = some k then s.without r.watch r.i else s := by
  unfold release at_ Session.without
  cases r.watch <;> rfl

theorem Sound.release (h : s.Sound (some k)) (hget : s.registrations[k]? = some r) :
    (s.release k r).Sound (some k) ∧ ¬ (s.release k r).Holds k := by
  rw [release_eq]
  split
  · rename_i hat
    exact ⟨h.without hat, h.not_holds_without hat⟩
  · rename_i hat
    exact ⟨h, fun hholds => hat ((h.holds_iff hget).1 hholds)⟩

/-- A registration comes to its end, whatever the tables hold under its tag. -/
theorem Sound.finish (h : s.Sound (some k)) (hget : s.registrations[k]? = some r) :
    (s.finish k r).Sound none := by
  obtain ⟨hrelease, hgone⟩ := h.release hget
  have hupdated : ((s.release k r).update k fun r =>
      { r with stage := .done, deadline := false }).Sound (some k) :=
    hrelease.update (fun _ _ => ⟨rfl, rfl, fun _ => rfl, id⟩) fun _ _ => .inr hgone
  have hdone : ((s.release k r).update k fun r =>
      { r with stage := .done, deadline := false }).Sound none := by
    refine hupdated.settle hgone fun r' hget' => .inl ?_
    obtain ⟨r', -, -, rfl⟩ | ⟨hne, -⟩ := of_modify_get hget'
    · rfl
    · exact absurd rfl hne
  unfold Session.finish
  dsimp only
  generalize (if r.watch then s.watches else s.inFlight).get r.i = there
  split
  · exact hdone.abort k
  · exact hdone

/-! ## Shedding -/

theorem heaviest_mem {q : Int × Nat} (h : s.heaviest = some q) : q ∈ s.watches.entries := by
  have hfold : none = some q ∨ q ∈ s.watches.entries := by
    unfold heaviest at h
    generalize s.watches.entries = l, none = best at h ⊢
    induction l generalizing best with
    | nil => exact .inl h
    | cons head l ih =>
      obtain hnow | hlater := ih _ h
      · cases best with
        | none => exact .inr (List.mem_cons.2 (.inl (Option.some.inj hnow).symm))
        | some b =>
          dsimp only at hnow
          split at hnow
          · exact .inr (List.mem_cons.2 (.inl (Option.some.inj hnow).symm))
          · exact .inl hnow
      · exact .inr (List.mem_cons_of_mem _ hlater)
  exact hfold.resolve_left (by simp)

/-- The one that is shed holds its tag until then, and is told so. -/
theorem Sound.shed (h : s.Sound none) (bounds : SessionBounds) (depth : Nat) :
    (s.shed bounds depth).Sound none := by
  unfold Session.shed
  split
  · exact h
  rename_i i k hheaviest
  have hat : s.at_ true i = some k := JsMap.get_of_mem_entries (heaviest_mem hheaviest)
  obtain ⟨r, hget, -⟩ := h.held true i k hat
  have hgo : ((s.without true i).abort k).Sound none := (h.but k).letGo hat
  dsimp only
  split
  · exact hgo
  refine hgo.say (h.holder hat) (fun j hsends => ?_) fun j hends => ?_
  · obtain rfl : k = j := hsends
    exact h.fresh ⟨_, _, hat⟩
  · obtain ⟨rfl, -⟩ := hends
    refine ⟨?_, .inr (h.not_holds_without hat)⟩
    exact (List.length_modify ..).symm ▸ (List.getElem?_eq_some_iff.1 hget).1

theorem Sound.shedIfOverCap (h : s.Sound none) (bounds : SessionBounds) (k written : Nat)
    (depth : Option Nat) : (s.shedIfOverCap bounds k written depth).Sound none := by
  have hcount : (s.update k fun r =>
      { r with
        epoch := s.drainEpoch
        bytes := (if r.epoch = s.drainEpoch then r.bytes else 0) + written }).Sound none :=
    h.update (fun _ _ => ⟨rfl, rfl, id, id⟩) fun _ hstage => .inl hstage
  unfold Session.shedIfOverCap
  split
  · exact hcount
  · exact { hcount with }
  · split
    · exact hcount
    · exact hcount.shed bounds _

/-! ## Messages -/

/-- A registration is made under a tag that nobody holds. -/
theorem Sound.register (h : s.Sound none) (hopen : s.closed = false)
    (hfree : ∀ w, s.at_ w r.i = none) (hstage : r.stage ≠ .done) : (s.register r).Sound none := by
  have hat : ∀ w i, (s.register r).at_ w i =
      if w = r.watch ∧ i = r.i then some s.registrations.length else s.at_ w i := by
    intro w i
    unfold Session.register at_
    cases w <;> cases r.watch <;> simp [JsMap.get_set]
  have hkept : ∀ {w i k}, s.at_ w i = some k → (s.register r).at_ w i = some k := by
    intro w i k hbefore
    rw [hat, if_neg]
    · exact hbefore
    · rintro ⟨rfl, rfl⟩
      cases hbefore.symm.trans (hfree _)
  have hsplit : ∀ {w i k}, (s.register r).at_ w i = some k →
      k = s.registrations.length ∧ w = r.watch ∧ i = r.i ∨ s.at_ w i = some k := by
    intro w i k hafter
    rw [hat] at hafter
    split at hafter
    · rename_i hnew
      exact .inl ⟨(Option.some.inj hafter).symm, hnew⟩
    · exact .inr hafter
  refine
    { held := fun w i k hafter => ?_
      apart := fun i => ?_
      closed := fun hclosed => by cases hopen.symm.trans hclosed
      belongs := h.belongs
      once := h.once
      ended := fun e hmem k hends => ?_
      aborts := fun k r' hget => ?_ }
  · obtain ⟨rfl, rfl, rfl⟩ | hbefore := hsplit hafter
    · exact ⟨r, List.getElem?_concat_length, rfl, rfl, hstage⟩
    · obtain ⟨r', hget, hrest⟩ := h.held w i k hbefore
      exact ⟨r', append_get _ hget, hrest⟩
  · by_cases hi : i = r.i
    · rw [hat, hat, hi, hfree, hfree]
      cases r.watch <;> simp
    · rw [hat, hat, if_neg fun hnew => hi hnew.2, if_neg fun hnew => hi hnew.2]
      exact h.apart i
  · obtain ⟨hlt, hgone⟩ := h.ended e hmem k hends
    refine ⟨?_, .inr ?_⟩
    · show k < (s.registrations ++ [r]).length
      rw [List.length_append]
      exact Nat.lt_of_lt_of_le hlt (Nat.le_add_right ..)
    · rintro ⟨w, i, hafter⟩
      obtain ⟨rfl, -⟩ | hbefore := hsplit hafter
      · exact Nat.lt_irrefl _ hlt
      · exact hgone.resolve_left (by simp) ⟨w, i, hbefore⟩
  · change (s.registrations ++ [r])[k]? = some r' at hget
    rw [List.getElem?_append] at hget
    split at hget
    · obtain hover | hover | hover | ⟨w, i, hbefore⟩ := h.aborts k r' hget
      · exact .inl hover
      · exact .inr (.inl hover)
      · exact .inr (.inr (.inl hover))
      · exact .inr (.inr (.inr ⟨w, i, hkept hbefore⟩))
    · have hk : k = s.registrations.length := by
        have hle := (List.getElem?_eq_some_iff.1 hget).1
        rw [List.length_singleton] at hle
        omega
      refine .inr (.inr (.inr ⟨r.watch, r.i, ?_⟩))
      rw [hat, if_pos ⟨rfl, rfl⟩, hk]

/-- The loops over the tables change which registrations are aborted, and nothing else. -/
theorem foldl_abort (l : List Nat) (s : Session V) :
    (l.foldl (fun s k => s.abort k) s).log = s.log ∧
    (l.foldl (fun s k => s.abort k) s).registrations.length = s.registrations.length ∧
    ∀ j, (l.foldl (fun s k => s.abort k) s).registrations[j]? =
      (s.registrations[j]?).map fun r => if j ∈ l then { r with aborted := true } else r := by
  induction l generalizing s with
  | nil =>
    refine ⟨rfl, rfl, fun j => ?_⟩
    cases h : s.registrations[j]? <;> simp [h]
  | cons k l ih =>
    obtain ⟨hlog, hlength, hget⟩ := ih (s.abort k)
    rw [List.foldl_cons]
    refine ⟨hlog, hlength.trans (List.length_modify ..), fun j => ?_⟩
    rw [hget]
    show ((s.registrations.modify k _)[j]?).map _ = _
    rw [modify_get]
    by_cases hk : k = j
    · rw [if_pos hk, Option.map_map]
      congr 1
      funext r
      simp [hk]
    · have hk' : ¬ j = k := fun h => hk h.symm
      rw [if_neg hk]
      simp [hk']

/-- All that is in a table is aborted, and leaves it. -/
theorem Sound.teardown (h : s.Sound none) (hsame : t.inFlight = s.inFlight)
    (hwatches : t.watches = s.watches) (hregs : t.registrations = s.registrations)
    (hlog : t.log = s.log) : t.teardown.Sound none := by
  obtain ⟨hsaid, hlength, hget⟩ := foldl_abort
    (t.inFlight.entries.map Prod.snd ++ t.watches.entries.map Prod.snd) t
  have hnone : ∀ w i, t.teardown.at_ w i = none := by
    intro w i
    cases w <;> rfl
  have htorn : t.teardown.log = s.log := hsaid.trans hlog
  have hafter : ∀ j, t.teardown.registrations[j]? = (s.registrations[j]?).map fun r =>
      if j ∈ t.inFlight.entries.map Prod.snd ++ t.watches.entries.map Prod.snd then
        { r with aborted := true }
      else r := by
    intro j
    rw [← hregs, ← hget]
    rfl
  refine
    { held := fun w i k hat => nomatch (hnone w i).symm.trans hat
      apart := fun i => .inl (hnone _ _)
      closed := fun _ => hnone
      belongs := htorn ▸ h.belongs
      once := htorn ▸ h.once
      ended := fun e hmem k hends => ⟨?_, .inr fun ⟨w, i, hat⟩ => nomatch (hnone w i).symm.trans hat⟩
      aborts := fun k r hget => ?_ }
  · have hcount : t.teardown.registrations.length = s.registrations.length :=
      hlength.trans (congrArg List.length hregs)
    rw [hcount]
    exact (h.ended e (htorn ▸ hmem) k hends).1
  · rw [hafter, Option.map_eq_some_iff] at hget
    obtain ⟨r, hbefore, rfl⟩ := hget
    split
    · exact .inr (.inr (.inl rfl))
    rename_i hnot
    obtain hex | hdone | haborted | ⟨w, i, hat⟩ := h.aborts k r hbefore
    · cases hex
    · exact .inr (.inl hdone)
    · exact .inr (.inr (.inl haborted))
    · refine absurd (List.mem_append.2 ?_) hnot
      rw [hsame, hwatches]
      cases w with
      | false => exact .inl (List.mem_map_of_mem (JsMap.mem_entries_of_get hat))
      | true => exact .inr (List.mem_map_of_mem (JsMap.mem_entries_of_get hat))

theorem Sound.fail (h : s.Sound none) (code : Nat) (reason : String) :
    (s.fail code reason).Sound none := by
  unfold Session.fail
  split
  · exact h
  · exact h.teardown rfl rfl rfl rfl

theorem Sound.close (h : s.Sound none) : s.close.Sound none := by
  unfold Session.close
  split
  · exact h
  · exact h.teardown rfl rfl rfl rfl

/-- A tag is in neither table. -/
theorem free_of_not_has (h : ¬ (s.inFlight.has i || s.watches.has i) = true) (w : Bool) :
    s.at_ w i = none := by
  rw [Bool.or_eq_true, not_or, JsMap.has, JsMap.has] at h
  cases w with
  | false => exact Option.not_isSome_iff_eq_none.1 h.1
  | true => exact Option.not_isSome_iff_eq_none.1 h.2

/-- The client lets a registration go. -/
theorem Sound.freed (h : s.Sound none) (hat : s.at_ w i = some k) :
    Sound none { (s.without w i).abort k with
      log := ((s.without w i).abort k).log ++ [.freed k] } := by
  obtain ⟨r, hget, -⟩ := h.held w i k hat
  refine ((h.but k).letGo hat).say trivial nofun fun j hends => ?_
  obtain rfl : k = j := hends
  refine ⟨?_, .inr (h.not_holds_without hat)⟩
  have hlength : ((s.without w i).abort k).registrations.length = s.registrations.length := by
    unfold Session.abort Session.update
    rw [List.length_modify, without_registrations]
  rw [hlength]
  exact (List.getElem?_eq_some_iff.1 hget).1

theorem Sound.handle (h : s.Sound none) (hopen : s.closed = false) (bounds : SessionBounds)
    (deadlined : Bool) (request : Request) : (s.handle bounds deadlined request).Sound none := by
  unfold Session.handle
  split
  case h_1 => exact h
  case h_2 => exact h.fail _ _
  case h_3 => exact h.fail _ _
  case h_4 => exact h.fail _ _
  case h_5 => exact h.fail _ _
  case h_6 i =>
    split
    · rename_i k hat
      have hat' : s.at_ false i = some k := hat
      exact h.freed hat'
    · exact h
  case h_7 i =>
    split
    · rename_i k hat
      have hat' : s.at_ true i = some k := hat
      exact h.freed hat'
    · exact h
  case h_8 i valid =>
    split
    · exact h.fail _ _
    rename_i hfree
    split
    · exact h.refuse (free_of_not_has hfree) _ _
    split
    · exact h.refuse (free_of_not_has hfree) _ _
    · exact h.register hopen (free_of_not_has hfree) (by simp)
  case h_9 i oneWay =>
    split
    · exact h.fail _ _
    rename_i hfree
    split
    · exact h.refuse (free_of_not_has hfree) _ _
    · exact h.register hopen (free_of_not_has hfree) (by simp)
  case h_10 => exact h.fail _ _

/-! ## What a registration does -/

section

variable (h : s.Sound none) (hget : s.registrations[k]? = some r)
include h hget

/-- A call answers, if it is asked to and may, and comes to its end. -/
theorem Sound.last (frame : Reply V)
    {answers : Bool} (hanswers : answers = true → s.tracked k r = true) :
    ((if answers then s.reply r.i k frame else s).finish k r).Sound none := by
  cases answers with
  | false => exact (h.but k).finish hget
  | true =>
    have hafter : (s.reply r.i k frame).registrations[k]? = some r := by
      rw [reply_registrations]
      exact hget
    exact (h.replyLast hget (hanswers rfl) frame).finish hafter

theorem Sound.returns (value : V)
    {answers : Bool} (hanswers : answers = true → s.tracked k r = true) :
    ((if answers then (s.reply r.i k (.v value)).reply r.i k .d else s).finish k r).Sound none := by
  cases answers with
  | false => exact (h.but k).finish hget
  | true =>
    have htracked := hanswers rfl
    have hafter : (s.reply r.i k (.v value)).registrations[k]? = some r := by
      rw [reply_registrations]
      exact hget
    have hstill : (s.reply r.i k (.v value)).tracked k r = true := by
      rw [reply_tracked]
      exact htracked
    have hlast : ((s.reply r.i k (.v value)).reply r.i k .d).registrations[k]? = some r := by
      rw [reply_registrations]
      exact hafter
    exact ((h.reply htracked rfl).replyLast hafter hstill .d).finish hlast

/-- What the registration may say is not told by its deadline. -/
theorem Sound.value
    (htracked : s.tracked k r = true) {f : Registration → Registration} (hkeeps : Keeps r (f r))
    (hstage : ∀ r, (f r).stage = .done → r.stage = .done) (value : V) :
    ((s.update k f).reply r.i k (.v value)).Sound none := by
  have hupdated : (s.update k f).Sound none := by
    refine h.update (fun r' hget' => ?_) fun r' hdone => .inl (hstage r' hdone)
    cases hget.symm.trans hget'
    exact hkeeps
  exact hupdated.reply htracked rfl

end

theorem Sound.step {bounds : SessionBounds} {l : Label V} (h : s.Sound none)
    (hstep : s.step bounds l = some t) : t.Sound none := by
  cases l with simp only [Session.step] at hstep
  | message deadlined request =>
    obtain ⟨hopen, rfl⟩ := guard_past_taken hstep
    exact h.handle (Bool.eq_false_iff.2 hopen) bounds deadlined request
  | dispatch k stream deadlined =>
    split at hstep
    · rename_i r hget
      obtain ⟨hstage, rfl⟩ := guard_taken hstep
      refine h.update (fun r' hget' => ⟨rfl, rfl, fun hdone => ?_, id⟩) nofun
      cases hget.symm.trans hget'
      cases hstage.symm.trans hdone
    · cases hstep
  | returns k value =>
    split at hstep
    · rename_i r hget
      obtain ⟨-, rfl⟩ := guard_taken hstep
      exact h.returns hget value fun hanswers => ((Bool.and_eq_true _ _).mp hanswers).1
    · cases hstep
  | chunk k value =>
    split at hstep
    · rename_i r hget
      obtain ⟨-, hstep⟩ := guard_passed hstep
      split at hstep
      · rename_i htracked
        have hsaid := h.value hget htracked (f := fun r => { r with deadline := false })
          ⟨rfl, rfl, id, id⟩ (fun _ => id) value
        cases hstep
        exact hsaid
      · cases hstep
        exact h.update (fun _ _ => ⟨rfl, rfl, id, id⟩) fun _ => .inl
    · cases hstep
  | ends | failed =>
    split at hstep
    · rename_i r hget
      obtain ⟨-, rfl⟩ := guard_taken hstep
      exact h.last hget _ fun hanswers => ((Bool.and_eq_true _ _).mp hanswers).1
    · cases hstep
  | throws k =>
    split at hstep
    · rename_i r hget
      split at hstep
      · rename_i hstage
        cases hstep
        refine h.update (fun r' hget' => ⟨rfl, rfl, fun hdone => ?_, id⟩) nofun
        cases hget.symm.trans hget'
        cases hstage.symm.trans hdone
      · rename_i hstage
        cases hstep
        refine h.update (fun r' hget' => ⟨rfl, rfl, fun hdone => ?_, id⟩) nofun
        cases hget.symm.trans hget'
        cases hstage.symm.trans hdone
      · cases hstep
    · cases hstep
  | value k value written depth =>
    split at hstep
    · rename_i r hget
      obtain ⟨-, hstep⟩ := guard_passed hstep
      split at hstep
      · rename_i htracked
        have hsaid := h.value hget htracked
          (f := fun r => { r with deadline := false, timedOut := false })
          ⟨rfl, rfl, id, id⟩ (fun _ => id) value
        split at hstep <;> cases hstep
        · exact hsaid.shedIfOverCap bounds k written depth
        · exact hsaid
      · cases hstep
        exact (h.but k).finish hget
    · cases hstep
  | watchEnds k status message =>
    split at hstep
    · rename_i r hget
      obtain ⟨-, rfl⟩ := guard_taken hstep
      exact h.last hget _ fun hanswers => ((Bool.and_eq_true _ _).mp hanswers).2
    · cases hstep
  | watchThrows k status message =>
    split at hstep
    · rename_i r hget
      split at hstep
      · cases hstep
        exact h.last hget _ id
      · cases hstep
        exact h.last hget _ id
      · cases hstep
    · cases hstep
  | deadline k =>
    split at hstep
    · split at hstep
      · cases hstep
        exact h.update (fun _ _ => ⟨rfl, rfl, id, fun _ => rfl⟩) fun _ => .inl
      · cases hstep
    · cases hstep
  | fail code reason =>
    cases hstep
    exact h.fail code reason
  | close =>
    cases hstep
    exact h.close

theorem sound_initial : ({} : Session V).Sound none where
  held w i k hat := by cases w <;> cases hat
  apart _ := .inl rfl
  closed := nofun
  belongs := nofun
  once := .nil
  ended := nofun
  aborts _ _ hget := by cases hget

end Session

/-- **What is said on a socket is told apart**, whatever the client asks and in whatever order the
host answers. -/
theorem demuxed_of_reach {bounds : SessionBounds} {s : Session V}
    (h : (socketSession V bounds).Reachable s) : s.Demuxed := by
  have hsound : s.Sound none := by
    refine h.invariant (fun s hinit => ?_) fun s l t hs _ hstep => hs.step hstep
    obtain rfl : s = {} := hinit
    exact Session.sound_initial
  refine { hsound with aborts := fun hclosed r hmem => ?_ }
  obtain ⟨k, hget⟩ := List.mem_iff_getElem?.1 hmem
  obtain hex | hdone | haborted | ⟨w, i, hat⟩ := hsound.aborts k r hget
  · cases hex
  · exact .inl hdone
  · exact .inr haborted
  · cases (hsound.closed hclosed w i).symm.trans hat

/-- A tag is used again while the host still works for who had it before. -/
def reused : List (Session.Label Nat) :=
  [.message false (.call 1 false), .dispatch 0 false false, .message false (.cancel 1),
   .message false (.call 1 false), .dispatch 1 false false, .returns 0 7, .returns 1 8]

theorem demuxed_reused : ∃ s : Session Nat, s.Demuxed ∧
      s.log = [.freed 0, .sent 1 1 (some 1) (.v 8), .sent 1 1 (some 1) .d] := by
  have hstart : (socketSession Nat {}).Reachable {} := .start rfl
  have hrun := hstart.exec_get reused (by decide)
  exact ⟨_, demuxed_of_reach hrun, by decide⟩

/-- A record that is malformed is refused under a tag that nobody holds. -/
theorem not_held :
    ¬ ∀ s : Session Nat, (socketSession Nat {}).Reachable s → ∀ e ∈ s.log, e.Held := by
  intro hheld
  have hstart : (socketSession Nat {}).Reachable {} := .start rfl
  have hrun := hstart.exec_get [.message false (.sub 1 false)] (by decide)
  have hbad := hheld _ hrun
    (.refused 1 none (.e 400 "[sigx actors] malformed subscription record")) (by decide)
  cases hbad

end SigxActors.Socket
