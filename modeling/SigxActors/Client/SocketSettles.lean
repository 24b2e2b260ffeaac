/-
  Client/SocketSettles.lean --- every call comes to its end, once.

  A link that goes, and `close`, fail what is in `inFlight`.  A call that `ready` has let
  through is not in it yet: if the link goes before the call goes on, it is entered for
  nobody and posted to nobody.
-/
import SigxActors.Client.SocketTurns

set_option autoImplicit false

namespace SigxActors.Client

variable {K P V E : Type}

/-- A call that waits for its end, or a stream that was not told of it. -/
def SocketCaller.Waits (r : SocketCaller V E) : Prop :=
  r.stream = false ∨ r.failure = none ∧ r.ended = false

namespace SocketTransport

variable {s t : SocketTransport K P V E} {c : Nat} {r : SocketCaller V E} {l : Label K V E}

/-- No call is left over. -/
structure Settled (s : SocketTransport K P V E) : Prop where
  once : ∀ r ∈ s.callers, r.outcomes.length = if r.stage = .over then 1 else 0
  posted : ∀ r ∈ s.callers, r.posted.length ≤ 1
  /-- What waits was posted on the link that is open, and will hear of its end. -/
  linked : ∀ (c : Nat) r, s.callers[c]? = some r → ∀ i, r.stage = .pending i → r.Waits →
    s.closed = false ∧ s.inFlight.get i = some c ∧ ∃ link, s.link = some link ∧ r.posted = [link]
  /-- What awaits `ready` goes on, or its dial is under way. -/
  readying : ∀ r ∈ s.callers, ∀ a, r.stage = .readying a → (s.result E a).isSome = true ∨
    ∃ d dial, a = .dial d ∧ s.dials[d]? = some dial ∧ dial.busy = true

/-- A call goes on from `ready` where a link is open. -/
def Linked (s : SocketTransport K P V E) : Label K V E → Prop
  | .resume c =>
      match s.callers[c]? with
      | some r =>
          match r.stage with
          | .readying a =>
              match s.result E a with
              | some none => r.oneWay = true ∨ s.link.isSome = true
              | _ => True
          | _ => True
      | none => True
  | _ => True

instance (s : SocketTransport K P V E) (l : Label K V E) : Decidable (s.Linked l) := by
  induction l using Label.casesOn <;> dsimp only [Linked]
  case resume c =>
    exact match s.callers[c]? with
      | none => instDecidableTrue
      | some r => by
        dsimp only
        generalize r.stage = stage
        induction stage using CallerStage.casesOn <;> dsimp only
        case readying a =>
          exact match s.result E a with
            | some none => inferInstanceAs (Decidable (_ ∨ _))
            | some (some _) | none => instDecidableTrue
        all_goals infer_instance
  all_goals infer_instance

/-- What is pending has been posted. -/
def Posted (s : SocketTransport K P V E) : Prop :=
  ∀ (c : Nat) r, s.callers[c]? = some r → ∀ i, r.stage = .pending i → r.posted ≠ []

/-- What is pending after its turn was, and has been posted since. -/
theorem Turn.posted {r' : SocketCaller V E} (h : Turn s l c r r') (hget : s.callers[c]? = some r)
    (hlinked : s.Linked l) {i : Nat} (hstage : r'.stage = .pending i)
    (hbefore : ∀ i, r.stage = .pending i → r.posted ≠ []) : r'.posted ≠ [] := by
  have hfail : ∀ failure : SocketFailure E, (r.fail failure).stage = .pending i →
      (r.fail failure).posted ≠ [] := by
    intro failure hstage
    unfold SocketCaller.fail at hstage ⊢
    split at hstage
    · rename_i hstream
      rw [if_pos hstream]
      exact hbefore i hstage
    · cases hstage
  cases h with
  | stays | flagged | turns | told => exact hbefore i hstage
  | begins | declined | dropped | rejected | sends | ends | aborts => cases hstage
  | registers hl a hready hresult honeWay =>
    subst hl
    unfold Linked at hlinked
    dsimp only at hlinked
    rw [hget] at hlinked
    dsimp only at hlinked
    rw [hready] at hlinked
    dsimp only at hlinked
    rw [hresult] at hlinked
    obtain hone | hlink := hlinked
    · cases honeWay.symm.trans hone
    · obtain ⟨link, hlink⟩ := Option.isSome_iff_exists.1 hlink
      rw [hlink]
      exact List.append_ne_nil_of_right_ne_nil _ nofun
  | hears i' reply =>
    cases reply with
    | v value =>
      unfold SocketCaller.frame at hstage ⊢
      dsimp only at hstage ⊢
      split at hstage
      · rename_i hstream
        rw [if_pos hstream]
        exact hbefore i hstage
      · rename_i hstream
        rw [if_neg hstream]
        exact hbefore i hstage
    | d =>
      unfold SocketCaller.frame at hstage ⊢
      dsimp only at hstage ⊢
      split at hstage
      · rename_i hstream
        rw [if_pos hstream]
        exact hbefore i hstage
      · cases hstage
    | e error => exact hfail _ hstage
  | fails => exact hfail _ hstage

theorem Posted.turned (h : s.Posted) (hturned : Turned s l t) (hlinked : s.Linked l) :
    t.Posted := by
  intro c r' hget' i hstage
  obtain ⟨r, hget, hturn⟩ | ⟨-, hmade⟩ := hturned.each c r' hget'
  · exact hturn.posted hget hlinked hstage (h c r hget)
  · cases hmade <;> cases hstage

theorem eq_singleton_of_mem {α : Type} {a : α} {l : List α} (hone : l.length ≤ 1) (h : a ∈ l) :
    l = [a] := by
  cases l with
  | nil => cases h
  | cons b l =>
    have hnil : l = [] := List.length_eq_zero_iff.1 (Nat.le_zero.1 (Nat.le_of_succ_le_succ hone))
    rw [hnil] at h ⊢
    rw [List.mem_singleton.1 h]

theorem Settled.of_sound (h : s.Sound) (hposted : s.Posted) : s.Settled where
  once r hmem := by
    obtain ⟨c, hget⟩ := List.mem_iff_getElem?.1 hmem
    exact (h.good c r hget).outcomes
  posted r hmem := by
    obtain ⟨c, hget⟩ := List.mem_iff_getElem?.1 hmem
    exact (h.good c r hget).posted
  linked c r hget i hstage hwaits := by
    have hgood := h.good c r hget
    have hheld : s.inFlight.get i = some c := by
      refine (hgood.held i hstage).resolve_right fun ⟨hstream, htold⟩ => ?_
      obtain hcall | ⟨hfailure, hended⟩ := hwaits
      · cases hcall.symm.trans hstream
      · obtain hfailed | hover := htold
        · rw [hfailure] at hfailed
          cases hfailed
        · cases hended.symm.trans hover
    obtain ⟨link, hlink⟩ := List.exists_mem_of_ne_nil _ (hposted c r hget i hstage)
    have hopen := hgood.linked i hheld link hlink
    exact ⟨(h.dialer.link (hopen ▸ rfl)).2, hheld, link, hopen,
      eq_singleton_of_mem hgood.posted hlink⟩
  readying r hmem a hstage := by
    obtain ⟨c, hget⟩ := List.mem_iff_getElem?.1 hmem
    refine Dialer.result_or_busy fun d hd => ?_
    obtain rfl := hd
    exact (h.good c r hget).awaited d hstage

variable [DecidableEq K] [DecidableEq P] {fingerprint : V → Option P} {throws : Nat → Bool}

end SocketTransport

variable [DecidableEq K] [DecidableEq P] {fingerprint : V → Option P} {throws : Nat → Bool}

/-- A call and a stream; one is answered, the other is in flight when the link goes. -/
def answered : List (SocketTransport.Label Nat Nat String) :=
  [.call false false, .opens 0, .resume 0, .stream false, .pull 1, .resume 1, .message 1 (.v 7),
   .message 1 .d, .closes 0, .wake 1]

/-- `close` comes between `ready` and the call. -/
def overtaken : List (SocketTransport.Label Nat Nat String) :=
  [.call false false, .opens 0, .resume 0, .message 1 .d, .call false false, .close, .resume 1]

end SigxActors.Client
