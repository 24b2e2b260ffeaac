/-
  Client/SocketAborts.lean --- a call that is aborted fails with that, and is called off.

  The signal is looked at when the call is made and listened to once it is pending.  In
  between it awaits `ready`, which may be a whole dial; and what a stream has failed with is
  what it was told last before it is pulled.
-/
import SigxActors.Client.SocketTurns

set_option autoImplicit false

namespace SigxActors.Client

open SigxActors.Js

variable {K P V E : Type}

namespace SocketTransport

variable {s t : SocketTransport K P V E} {c : Nat} {r r' : SocketCaller V E} {l : Label K V E}

/-- What a step does to a caller whose signal has been aborted. -/
structure Heeds (s : SocketTransport K P V E) (l : Label K V E) (c : Nat)
    (r r' : SocketCaller V E) : Prop where
  /-- It is posted no more. -/
  silent : r.aborted = true → r'.aborted = true ∧ r'.posted = r.posted
  /-- Unless the consumer leaves, it fails with the abort. -/
  fails : r.stage ≠ .over → r'.stage = .over → r'.aborted = true → l ≠ .leave c →
    r'.outcomes = [.failed .aborted]
  /-- Nothing is called off before. -/
  early : r'.stage ≠ .over → r'.cancels = []
  /-- One that was posted is called off once, on its link, if it is still in flight. -/
  cancels : r.stage ≠ .over → r'.stage = .over → r'.aborted = true → ∀ link, r.posted = [link] →
    r'.cancels = if c ∈ s.inFlight.entries.map Prod.snd then [link] else []
  rests : r.stage = .over → r' = r

/-- A caller that is made with a signal that was aborted is not posted: a call has failed, and a
stream is to fail when it is pulled. -/
def Heeded (r : SocketCaller V E) : Prop :=
  r.aborted = true → r.posted = [] ∧ r.cancels = [] ∧
    (r.stage = .over ∧ r.outcomes = [.failed .aborted] ∨ r.stage = .idle)

/-- What the step `l` does to every caller. -/
def Abiding (s : SocketTransport K P V E) (l : Label K V E) (t : SocketTransport K P V E) : Prop :=
  ∀ (c : Nat) r', t.callers[c]? = some r' →
    (∃ r, s.callers[c]? = some r ∧ Heeds s l c r r') ∨ c = s.callers.length ∧ Heeded r'

/-- Caller `c` has been aborted. -/
def isAborted (s : SocketTransport K P V E) (c : Nat) : Bool :=
  match s.callers[c]? with
  | some r => r.aborted
  | none => false

/-- No call is aborted while it awaits `ready`, and a stream that was aborted is told nothing
else before it is pulled. -/
def Unhindered (s : SocketTransport K P V E) : Label K V E → Prop
  | .abort c =>
      match s.callers[c]? with
      | some r =>
          match r.stage with
          | .readying _ => False
          | .idle | .pending _ | .over => True
      | none => True
  | .message i (.e _) =>
      match s.inFlight.get i with
      | some c => s.isAborted c = false
      | none => True
  | .closes d => s.link = some d → ∀ q ∈ s.inFlight.entries, s.isAborted q.2 = false
  | .close => ∀ q ∈ s.inFlight.entries, s.isAborted q.2 = false
  | _ => True

instance (s : SocketTransport K P V E) (l : Label K V E) : Decidable (s.Unhindered l) := by
  induction l using Label.casesOn <;> dsimp only [Unhindered]
  case abort c =>
    exact match s.callers[c]? with
      | none => instDecidableTrue
      | some r => by
        dsimp only
        generalize r.stage = stage
        induction stage using CallerStage.casesOn <;> dsimp only <;> infer_instance
  case message i reply =>
    induction reply using SocketReply.casesOn <;> dsimp only
    case e => exact match s.inFlight.get i with
      | none => instDecidableTrue
      | some c => inferInstanceAs (Decidable (_ = _))
    all_goals infer_instance
  all_goals infer_instance

/-- One that was aborted and is not over: a stream that has not been pulled, or is to fail with
the abort. -/
def Awaits (r : SocketCaller V E) : Prop :=
  r.aborted = true → r.stage = .over ∨ r.stage = .idle ∨
    (∃ i, r.stage = .pending i) ∧ r.stream = true ∧ r.failure = some .aborted

theorem isAborted_of_get (hget : s.callers[c]? = some r) : s.isAborted c = r.aborted := by
  unfold isAborted
  rw [hget]

/-- What is told of an error has not been aborted. -/
theorem Unhindered.calm (h : s.Unhindered l) (hget : s.callers[c]? = some r)
    (hl : (∃ i e, l = .message i (.e e) ∧ s.inFlight.get i = some c) ∨
      (l = .close ∨ ∃ d, l = .closes d ∧ s.link = some d) ∧ ∃ i, s.inFlight.get i = some c) :
    r.aborted = false := by
  rw [← isAborted_of_get hget]
  obtain ⟨i, e, rfl, hheld⟩ | ⟨rfl | ⟨d, rfl, hlink⟩, i, hheld⟩ := hl
  · unfold Unhindered at h
    dsimp only at h
    rw [hheld] at h
    exact h
  · exact h (i, c) (JsMap.mem_entries_of_get hheld)
  · exact h hlink (i, c) (JsMap.mem_entries_of_get hheld)

theorem fail_aborted (failure : SocketFailure E) : (r.fail failure).aborted = r.aborted := by
  unfold SocketCaller.fail
  split <;> rfl

theorem fail_posted (failure : SocketFailure E) : (r.fail failure).posted = r.posted := by
  unfold SocketCaller.fail
  split <;> rfl

theorem fail_cancels (failure : SocketFailure E) : (r.fail failure).cancels = r.cancels := by
  unfold SocketCaller.fail
  split <;> rfl

/-- A reply changes neither what is known of the signal nor what was posted. -/
theorem frame_same (reply : SocketReply V E) :
    (r.frame reply).aborted = r.aborted ∧ (r.frame reply).posted = r.posted ∧
      (r.frame reply).cancels = r.cancels := by
  cases reply with
  | v | d =>
    unfold SocketCaller.frame
    dsimp only
    split <;> exact ⟨rfl, rfl, rfl⟩
  | e error => exact ⟨fail_aborted _, fail_posted _, fail_cancels _⟩

/-- A stream is told by a reply, and goes on. -/
theorem frame_stream (hstream : r.stream = true) (reply : SocketReply V E) :
    (r.frame reply).stage = r.stage ∧ (r.frame reply).stream = r.stream ∧
      ((∀ e, reply ≠ .e e) → (r.frame reply).failure = r.failure) := by
  cases reply with
  | v value =>
    unfold SocketCaller.frame
    dsimp only
    rw [if_pos hstream]
    exact ⟨rfl, rfl, fun _ => rfl⟩
  | d =>
    unfold SocketCaller.frame
    rw [if_pos hstream]
    exact ⟨rfl, rfl, fun _ => rfl⟩
  | e error =>
    unfold SocketCaller.frame SocketCaller.fail
    dsimp only
    rw [if_pos hstream]
    exact ⟨rfl, rfl, fun hnot => absurd rfl (hnot error)⟩

/-- One that is in flight is pending. -/
theorem pending_of_held (hs : s.Sound) (hget : s.callers[c]? = some r) {i : Nat}
    (hheld : s.inFlight.get i = some c) : r.stage = .pending i := by
  obtain ⟨r₀, hget₀, hstage⟩ := hs.entered i c hheld
  cases hget.symm.trans hget₀
  exact hstage

/-- A pending call that was aborted is a stream, and is to fail with that. -/
theorem Awaits.pending (h : Awaits r) (haborted : r.aborted = true) {i : Nat}
    (hstage : r.stage = .pending i) : r.stream = true ∧ r.failure = some .aborted := by
  obtain hover | hidle | ⟨-, hstream⟩ := h haborted
  · cases hstage.symm.trans hover
  · cases hstage.symm.trans hidle
  · exact hstream

/-- A call that awaits `ready` was not aborted. -/
theorem Awaits.readying (h : Awaits r) {a : Await} (hstage : r.stage = .readying a) :
    r.aborted = false := by
  cases haborted : r.aborted with
  | false => rfl
  | true =>
    obtain hover | hidle | ⟨⟨i, hpending⟩, -⟩ := h haborted
    · cases hstage.symm.trans hover
    · cases hstage.symm.trans hidle
    · cases hstage.symm.trans hpending

/-- A turn keeps one that was aborted on its way to fail. -/
theorem Turn.awaits (h : Turn s l c r r') (hget : s.callers[c]? = some r) (hclear : s.Unhindered l)
    (hs : s.Sound) (hawaits : Awaits r) : Awaits r' := by
  intro haborted
  cases h with
  | stays | turns => exact hawaits haborted
  | flagged hl _ hstage =>
    obtain hidle | ⟨a, hready⟩ := hstage
    · exact .inr (.inl hidle)
    subst hl
    unfold Unhindered at hclear
    dsimp only at hclear
    rw [hget] at hclear
    dsimp only at hclear
    rw [hready] at hclear
    exact hclear.elim
  | begins _ _ hfresh => cases hfresh.symm.trans haborted
  | declined | dropped | rejected | sends | ends | aborts => exact .inl rfl
  | registers hl a hstage => cases (hawaits.readying hstage).symm.trans haborted
  | told _ i hstage _ hstream => exact .inr (.inr ⟨⟨i, hstage⟩, hstream, rfl⟩)
  | hears i reply hl hheld =>
    have hstage := pending_of_held hs hget hheld
    have hbefore : r.aborted = true := (frame_same reply).1.symm.trans haborted
    obtain ⟨hstream, hfailure⟩ := hawaits.pending hbefore hstage
    obtain ⟨hsame, hkind, htold⟩ := frame_stream hstream reply
    have hcalm : ∀ e, reply ≠ .e e := by
      rintro e rfl
      cases hbefore.symm.trans (hclear.calm hget (.inl ⟨i, e, hl, hheld⟩))
    exact .inr (.inr ⟨⟨i, hsame.trans hstage⟩, hkind.trans hstream,
      (htold hcalm).trans hfailure⟩)
  | fails hl failure i hheld =>
    have hbefore : r.aborted = true := (fail_aborted failure).symm.trans haborted
    cases hbefore.symm.trans (hclear.calm hget (.inr ⟨hl, i, hheld⟩))

/-- A pending call is in `inFlight` under its own id. -/
theorem held_iff (hs : s.Sound) (hget : s.callers[c]? = some r) {i : Nat}
    (hstage : r.stage = .pending i) :
    (s.inFlight.get i).isSome = true ↔ c ∈ s.inFlight.entries.map Prod.snd := by
  constructor
  · intro hsome
    obtain ⟨c', hheld⟩ := Option.isSome_iff_exists.1 hsome
    obtain rfl := (hs.good c r hget).mine i hstage c' hheld
    exact List.mem_map_of_mem (JsMap.mem_entries_of_get hheld)
  · intro hmem
    obtain ⟨q, hq, rfl⟩ := List.mem_map.1 hmem
    have hheld := JsMap.get_of_mem_entries hq
    obtain rfl := hs.held_under hget hstage hheld
    rw [hheld]
    rfl

/-- What is called off is so once, on the link it was posted on. -/
theorem cancels_of_pending (hs : s.Sound) (hget : s.callers[c]? = some r) {i : Nat}
    (hstage : r.stage = .pending i) (link : Nat) (hposted : r.posted = [link]) :
    (if (s.inFlight.get i).isSome then r.cancels ++ s.link.toList else r.cancels) =
      if c ∈ s.inFlight.entries.map Prod.snd then [link] else [] := by
  have hgood := hs.good c r hget
  have hnone : r.cancels = [] := by
    refine hgood.cancels ?_
    rw [hstage]
    exact nofun
  rw [hnone]
  by_cases hheld : (s.inFlight.get i).isSome = true
  · rw [if_pos hheld, if_pos ((held_iff hs hget hstage).1 hheld)]
    obtain ⟨c', hc'⟩ := Option.isSome_iff_exists.1 hheld
    obtain rfl := hgood.mine i hstage c' hc'
    rw [hgood.linked i hc' link (hposted ▸ List.mem_singleton.2 rfl)]
    rfl
  · rw [if_neg hheld, if_neg fun hmem => hheld ((held_iff hs hget hstage).2 hmem)]

/-- One that goes on keeps what it is. -/
theorem Heeds.of_goesOn (hstage : r.stage ≠ .over) (hstage' : r'.stage ≠ .over)
    (hsilent : r.aborted = true → r'.aborted = true ∧ r'.posted = r.posted)
    (hcancels : r'.cancels = []) : Heeds s l c r r' where
  silent := hsilent
  fails _ hover := absurd hover hstage'
  early _ := hcancels
  cancels _ hover := absurd hover hstage'
  rests hover := absurd hover hstage

/-- One that comes to its end without having been aborted. -/
theorem Heeds.of_fresh (hstage : r.stage ≠ .over) (hover : r'.stage = .over)
    (hfresh : r'.aborted = false) (hbefore : r.aborted = false) : Heeds s l c r r' where
  silent haborted := nomatch hbefore.symm.trans haborted
  fails _ _ haborted := nomatch hfresh.symm.trans haborted
  early hnot := absurd hover hnot
  cancels _ _ haborted := nomatch hfresh.symm.trans haborted
  rests hover := absurd hover hstage

theorem Turn.heeds (h : Turn s l c r r') (hget : s.callers[c]? = some r) (hclear : s.Unhindered l)
    (hs : s.Sound) (hawaits : Awaits r) (hcancels : r'.stage ≠ .over → r'.cancels = []) :
    Heeds s l c r r' := by
  have hgood := hs.good c r hget
  have hnone : r.stage ≠ .over → r.outcomes = [] := by
    intro hnot
    have hlength := hgood.outcomes
    rw [if_neg hnot] at hlength
    exact List.length_eq_zero_iff.1 hlength
  -- It does not settle, or it has not been aborted.
  have hfail : ∀ failure : SocketFailure E, r.aborted = false → (∃ i, r.stage = .pending i) →
      Heeds s l c r (r.fail failure) := by
    rintro failure hfresh ⟨i, hstage⟩
    have hnot : r.stage ≠ .over := SocketCaller.not_over hstage nofun
    cases hstream : r.stream with
    | true =>
      have hkeeps := fail_keeps hstream failure
      refine .of_goesOn hnot (hkeeps.stage ▸ hnot)
        (fun haborted => nomatch hfresh.symm.trans haborted) ?_
      rw [hkeeps.cancels]
      exact hgood.cancels hnot
    | false =>
      refine .of_fresh hnot ?_ ((fail_aborted failure).trans hfresh) hfresh
      rw [fail_settles hstream]
      rfl
  cases h with
  | stays =>
    exact ⟨fun haborted => ⟨haborted, rfl⟩, fun hnot hover => absurd hover hnot, hcancels,
      fun hnot hover => absurd hover hnot, fun _ => rfl⟩
  | flagged _ _ hstage =>
    have hnot : r.stage ≠ .over := by
      obtain hidle | ⟨a, hready⟩ := hstage
      · rw [hidle]
        exact nofun
      · rw [hready]
        exact nofun
    exact .of_goesOn hnot hnot (fun _ => ⟨rfl, rfl⟩) (hcancels hnot)
  | begins _ hstage =>
    have hnot : r.stage ≠ .over := SocketCaller.not_over hstage nofun
    exact .of_goesOn hnot nofun (fun haborted => ⟨haborted, rfl⟩) (hcancels nofun)
  | declined _ hstage haborted =>
    have hnot : r.stage ≠ .over := SocketCaller.not_over hstage nofun
    refine ⟨fun _ => ⟨haborted, rfl⟩, fun _ _ _ _ => ?_, fun hover => absurd rfl hover,
      fun _ _ _ link hposted => ?_, fun hover => absurd hover hnot⟩
    · show r.outcomes ++ _ = _
      rw [hnone hnot]
      rfl
    · cases (hgood.unposted (.inl hstage)).1.symm.trans hposted
  | dropped hl hstage =>
    have hnot : r.stage ≠ .over := SocketCaller.not_over hstage nofun
    refine ⟨fun haborted => ⟨haborted, rfl⟩, fun _ _ _ hnotLeave => absurd hl hnotLeave,
      fun hover => absurd rfl hover, fun _ _ _ link hposted => ?_,
      fun hover => absurd hover hnot⟩
    cases (hgood.unposted (.inl hstage)).1.symm.trans hposted
  | rejected _ _ hstage | sends _ _ hstage =>
    have hfresh := hawaits.readying hstage
    refine .of_fresh ?_ rfl hfresh hfresh
    rw [hstage]
    exact nofun
  | registers _ a hstage =>
    have hfresh := hawaits.readying hstage
    refine .of_goesOn ?_ nofun (fun haborted => nomatch hfresh.symm.trans haborted)
      (hcancels nofun)
    rw [hstage]
    exact nofun
  | turns i hstage =>
    have hnot : r.stage ≠ .over := SocketCaller.not_over hstage nofun
    exact .of_goesOn hnot hnot (fun haborted => ⟨haborted, rfl⟩) (hcancels hnot)
  | ends i hstage hstream outcome hending =>
    have hnot : r.stage ≠ .over := SocketCaller.not_over hstage nofun
    have hsame : ∀ b : Bool, (if b then r.cancel s.link else r).aborted = r.aborted ∧
        (if b then r.cancel s.link else r).posted = r.posted ∧
        (if b then r.cancel s.link else r).outcomes = r.outcomes := by
      intro b
      cases b with
      | true | false => exact ⟨rfl, rfl, rfl⟩
    refine ⟨fun haborted => ⟨(hsame _).1.trans haborted, (hsame _).2.1⟩,
      fun _ _ haborted hnotLeave => ?_, fun hover => absurd rfl hover,
      fun _ _ haborted link hposted => ?_, fun hover => absurd hover hnot⟩
    · have hfailure := (hawaits.pending ((hsame _).1.symm.trans haborted) hstage).2
      show _ ++ [outcome] = _
      rw [(hsame _).2.2, hnone hnot]
      cases hending with
      | failed _ failure hfailed =>
        cases hfailure.symm.trans hfailed
        rfl
      | done _ hfailed => cases hfailure.symm.trans hfailed
      | left hl => exact absurd hl hnotLeave
    · have hpending := cancels_of_pending hs hget hstage _ hposted
      rw [← hpending]
      by_cases hheld : (s.inFlight.get i).isSome = true
      · obtain ⟨c', hc'⟩ := Option.isSome_iff_exists.1 hheld
        obtain rfl := hgood.mine i hstage c' hc'
        rw [hgood.goesOn i hc', if_pos hheld, hheld]
        rfl
      · rw [if_neg hheld, Bool.eq_false_iff.2 hheld]
        rfl
  | aborts _ i hstage _ hstream =>
    have hnot : r.stage ≠ .over := SocketCaller.not_over hstage nofun
    have hpending := fun link hposted => cancels_of_pending hs hget hstage link hposted
    by_cases hheld : (s.inFlight.get i).isSome = true
    · rw [if_pos hheld]
      refine ⟨fun _ => ⟨rfl, rfl⟩, fun _ _ _ _ => ?_, fun hover => absurd rfl hover,
        fun _ _ _ link hposted => ?_, fun hover => absurd hover hnot⟩
      · rw [hnone hnot]
        rfl
      · rw [← hpending link hposted, if_pos hheld]
        rfl
    · rw [if_neg hheld]
      refine ⟨fun _ => ⟨rfl, rfl⟩, fun _ _ _ _ => ?_, fun hover => absurd rfl hover,
        fun _ _ _ link hposted => ?_, fun hover => absurd hover hnot⟩
      · rw [hnone hnot]
        rfl
      · rw [← hpending link hposted, if_neg hheld]
        rfl
  | told _ i hstage =>
    have hnot : r.stage ≠ .over := SocketCaller.not_over hstage nofun
    exact .of_goesOn hnot hnot (fun _ => ⟨rfl, rfl⟩) (hcancels hnot)
  | hears i reply hl hheld =>
    have hstage := pending_of_held hs hget hheld
    have hnot : r.stage ≠ .over := SocketCaller.not_over hstage nofun
    obtain ⟨haborted, hposted, -⟩ := frame_same (r := r) reply
    cases hfresh : r.aborted with
    | true =>
      obtain ⟨hstream, -⟩ := hawaits.pending hfresh hstage
      have hsame := (frame_stream hstream reply).1
      exact .of_goesOn hnot (hsame ▸ hnot) (fun _ => ⟨haborted.trans hfresh, hposted⟩)
        (hcancels (hsame ▸ hnot))
    | false =>
      by_cases hover : (r.frame reply).stage = .over
      · exact .of_fresh hnot hover (haborted.trans hfresh) hfresh
      · exact .of_goesOn hnot hover (fun haborted => nomatch hfresh.symm.trans haborted)
          (hcancels hover)
  | fails hl failure i hheld =>
    exact hfail failure (hclear.calm hget (.inr ⟨hl, i, hheld⟩))
      ⟨i, pending_of_held hs hget hheld⟩

theorem Made.heeded (h : Made l r) : Heeded r ∧ Awaits r := by
  cases h with
  | aborted => exact ⟨fun _ => ⟨rfl, rfl, .inl ⟨rfl, rfl⟩⟩, fun _ => .inl rfl⟩
  | call => exact ⟨nofun, nofun⟩
  | stream => exact ⟨fun _ => ⟨rfl, rfl, .inr rfl⟩, fun _ => .inr (.inl rfl)⟩

end SocketTransport

variable [DecidableEq K] [DecidableEq P] {fingerprint : V → Option P} {throws : Nat → Bool}

/-- In each step of a run every caller heeds its signal. -/
theorem abiding_of_reach {s t : SocketTransport K P V E} {l : SocketTransport.Label K V E}
    (h : (socketTransport fingerprint throws).Reach SocketTransport.Unhindered s)
    (hclear : s.Unhindered l) (hstep : SocketTransport.step fingerprint throws s l = some t) :
    s.Abiding l t := by
  have hsound := sound_of_reach h
  have hawaits : ∀ (c : Nat) r, s.callers[c]? = some r → SocketTransport.Awaits r := by
    have hboth : s.Sound ∧ ∀ (c : Nat) r, s.callers[c]? = some r → SocketTransport.Awaits r := by
      refine h.invariant (I := fun s => s.Sound ∧ ∀ (c : Nat) r, s.callers[c]? = some r →
        SocketTransport.Awaits r) (fun s hinit => ?_) fun s l t hs hclear hstep =>
          ⟨hs.1.step hstep, fun c r' hget' => ?_⟩
      · obtain rfl : s = {} := hinit
        exact ⟨SocketTransport.sound_initial, fun c r hget => by cases hget⟩
      · obtain ⟨r, hget, hturn⟩ | ⟨-, hmade⟩ :=
          (SocketTransport.turned_step hs.1 hstep).each c r' hget'
        · exact hturn.awaits hget hclear hs.1 (hs.2 c r hget)
        · exact hmade.heeded.2
    exact hboth.2
  intro c r' hget'
  have hcancels := ((hsound.step hstep).good c r' hget').cancels
  obtain ⟨r, hget, hturn⟩ | ⟨hnew, hmade⟩ :=
    (SocketTransport.turned_step hsound hstep).each c r' hget'
  · exact .inl ⟨r, hget, hturn.heeds hget hclear hsound (hawaits c r hget) hcancels⟩
  · exact .inr ⟨hnew, hmade.heeded.1⟩

/-- A caller that has been aborted is posted no more, in a whole run. -/
theorem silent_of_since {s u : SocketTransport K P V E}
    (h : (socketTransport fingerprint throws).Reach SocketTransport.Unhindered s)
    (hrun : ((socketTransport fingerprint throws).since s).Reach SocketTransport.Unhindered u)
    {c : Nat} {r : SocketCaller V E} (hget : s.callers[c]? = some r) (haborted : r.aborted = true) :
    ∃ r', u.callers[c]? = some r' ∧ r'.aborted = true ∧ r'.posted = r.posted := by
  induction hrun with
  | start heq =>
    obtain rfl := heq
    exact ⟨r, hget, haborted, rfl⟩
  | @next t u l hbefore hclear hstep ih =>
    obtain ⟨r₁, hget₁, haborted₁, hposted₁⟩ := ih
    have hreach := h.since hbefore
    have hlt : c < u.callers.length := Nat.lt_of_lt_of_le (lt_of_get hget₁)
      (SocketTransport.turned_step (sound_of_reach hreach) hstep).length
    refine ⟨u.callers[c], List.getElem?_eq_getElem hlt, ?_⟩
    obtain ⟨r₂, hget₂, hheeds⟩ | ⟨hnew, -⟩ := abiding_of_reach hreach hclear hstep c _
      (List.getElem?_eq_getElem hlt)
    · cases hget₁.symm.trans hget₂
      exact ⟨(hheeds.silent haborted₁).1, (hheeds.silent haborted₁).2.trans hposted₁⟩
    · exact absurd (lt_of_get hget₁) (hnew ▸ Nat.lt_irrefl _)

/-- A call is posted, and then aborted. -/
def calledOff : List (SocketTransport.Label Nat Nat String) :=
  [.call false false, .opens 0, .resume 0]

/-- A call is aborted while its dial is under way, and posted when that has opened. -/
def unheard : List (SocketTransport.Label Nat Nat String) :=
  [.call false false, .abort 0, .opens 0]

end SigxActors.Client
