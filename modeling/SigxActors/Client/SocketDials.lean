/-
  Client/SocketDials.lean --- there is one dial at a time, and the live channel keeps to itself.
-/
import SigxActors.Client.SocketTransport

set_option autoImplicit false

namespace SigxActors.Client

open SigxActors.Js

/-- It is still to settle. -/
def Dial.busy : Dial → Bool
  | .backoff | .connecting => true
  | .opened | .rejected _ => false

namespace Dialer

variable {throws : Nat → Bool} {s : Dialer} {d : Nat}

/-- The dial that is under way is the one that `opening` holds, and there is none while a link is
open. -/
structure Sound (s : Dialer) : Prop where
  busy : s.closed = false → ∀ (d : Nat) dial, s.dials[d]? = some dial → dial.busy = true →
    s.opening = some d
  link : s.link.isSome = true → s.opening = none ∧ s.closed = false
  opening : ∀ d, s.opening = some d → d < s.dials.length

/-- What a step does to the link and to the promises that are awaited. -/
structure Goes (s t : Dialer) : Prop where
  link : t.link = s.link
  closed : t.closed = s.closed
  dials : s.dials.length ≤ t.dials.length
  sound : s.Sound → t.Sound

theorem Goes.refl (s : Dialer) : s.Goes s := ⟨rfl, rfl, Nat.le_refl _, id⟩

theorem Goes.trans {t u : Dialer} (h : s.Goes t) (h' : t.Goes u) : s.Goes u :=
  ⟨h'.link.trans h.link, h'.closed.trans h.closed, Nat.le_trans h.dials h'.dials,
    fun hsound => h'.sound (h.sound hsound)⟩

theorem connect_closed (d : Nat) : (s.connect throws d).closed = s.closed := by
  unfold connect
  split <;> rfl

theorem connect_link (d : Nat) : (s.connect throws d).link = s.link := by
  unfold connect
  split <;> rfl

theorem connect_length (d : Nat) : (s.connect throws d).dials.length = s.dials.length := by
  unfold connect
  split <;> exact List.length_set ..

variable {dial : Dial}

/-- Only the dial itself is changed by what `connect` does. -/
theorem connect_dials {j : Nat} (h : (s.connect throws d).dials[j]? = some dial)
    (hbusy : dial.busy = true) : j = d ∧ throws d = false ∨ j ≠ d ∧ s.dials[j]? = some dial := by
  unfold connect at h
  split at h
  · obtain ⟨-, rfl⟩ | hbefore := of_set_get h
    · cases hbusy
    · exact .inr hbefore
  · rename_i hthrows
    obtain ⟨hj, -⟩ | hbefore := of_set_get h
    · exact .inl ⟨hj, Bool.eq_false_iff.2 hthrows⟩
    · exact .inr hbefore

/-- The timer of a dial, or its `connect`. -/
theorem Sound.fires (h : s.Sound) (hget : s.dials[d]? = some dial) (hbusy : dial.busy = true) :
    s.Goes (s.fires throws d) := by
  unfold Dialer.fires
  split
  · rename_i hclosed
    refine ⟨rfl, rfl, Nat.le_of_eq (List.length_set ..).symm, fun _ => ?_⟩
    refine ⟨fun hopen => (nomatch hopen.symm.trans hclosed), h.link, fun j hj => ?_⟩
    exact Nat.lt_of_lt_of_eq (h.opening j hj) (List.length_set ..).symm
  · rename_i hopen
    have hopening := h.busy (Bool.eq_false_iff.2 hopen) d dial hget hbusy
    refine ⟨connect_link d, connect_closed d, Nat.le_of_eq (connect_length d).symm, fun _ => ?_⟩
    refine ⟨fun _ j dial' hget' hbusy' => ?_, fun hlink => ?_, fun j hj => ?_⟩
    · obtain ⟨rfl, hthrows⟩ | ⟨hne, hbefore⟩ := connect_dials hget' hbusy'
      · unfold connect
        rw [hthrows]
        exact hopening
      · have hsame := h.busy (Bool.eq_false_iff.2 hopen) j dial' hbefore hbusy'
        exact absurd (Option.some.inj (hsame.symm.trans hopening)) hne
    · rw [connect_link] at hlink
      cases hopening.symm.trans (h.link hlink).1
    · rw [connect_length]
      refine h.opening j ?_
      unfold connect at hj
      split at hj
      · cases hj
      · exact hj

theorem openOnce_link (throws : Nat → Bool) (s : Dialer) : (s.openOnce throws).link = s.link := by
  unfold openOnce
  split
  · rfl
  · rw [connect_link]

theorem openOnce_closed (throws : Nat → Bool) (s : Dialer) :
    (s.openOnce throws).closed = s.closed := by
  unfold openOnce
  split
  · rfl
  · rw [connect_closed]

theorem openOnce_length (throws : Nat → Bool) (s : Dialer) :
    (s.openOnce throws).dials.length = s.dials.length + 1 := by
  unfold openOnce
  split
  · exact List.length_append ..
  · rw [connect_length]
    exact List.length_append ..

/-- A dial that is under way was, or has just been begun. -/
theorem openOnce_dials {j : Nat} (h : (s.openOnce throws).dials[j]? = some dial)
    (hbusy : dial.busy = true) : j = s.dials.length ∨ s.dials[j]? = some dial := by
  have happend : (s.dials ++ [Dial.backoff])[j]? = some dial →
      j = s.dials.length ∨ s.dials[j]? = some dial := fun happend =>
    (of_append_get happend).imp And.left And.right
  unfold openOnce at h
  split at h
  · exact happend h
  obtain ⟨hj, -⟩ | ⟨-, hbefore⟩ := connect_dials h hbusy
  · exact .inl hj
  · exact happend hbefore

/-- A dial is begun where none is under way. -/
theorem Sound.openOnce (h : s.Sound) (hlink : s.link = none) (hopening : s.opening = none)
    (throws : Nat → Bool) :
    Sound { s.openOnce throws with opening := some s.dials.length } where
  busy hopen j dial hget hbusy := by
    obtain rfl | hbefore := openOnce_dials hget hbusy
    · rfl
    · rw [openOnce_closed] at hopen
      cases hopening.symm.trans (h.busy hopen j dial hbefore hbusy)
  link hsome := by
    rw [openOnce_link, hlink] at hsome
    cases hsome
  opening d hd := by
    cases hd
    rw [openOnce_length]
    exact Nat.lt_succ_self _

theorem ready_goes (throws : Nat → Bool) (s : Dialer) : s.Goes (s.ready throws).1 := by
  unfold ready
  split
  · exact .refl s
  split
  · exact .refl s
  rename_i hlink
  split
  · exact .refl s
  rename_i hopening
  refine ⟨openOnce_link throws s, openOnce_closed throws s, ?_, fun h => ?_⟩
  · rw [openOnce_length]
    exact Nat.le_succ _
  · exact h.openOnce (Option.not_isSome_iff_eq_none.1 hlink) hopening throws

/-- A promise of `ready` is of a dial that there is. -/
theorem ready_awaits (h : s.Sound) {d : Nat} (hd : (s.ready throws).2 = .dial d) :
    d < (s.ready throws).1.dials.length := by
  unfold ready at hd ⊢
  split at hd
  · cases hd
  rename_i hclosed
  split at hd
  · cases hd
  rename_i hlink
  split at hd
  · rename_i d' hopening
    cases hd
    rw [if_neg hclosed, if_neg hlink]
    exact h.opening d hopening
  · cases hd
    rw [if_neg hclosed, if_neg hlink]
    rw [openOnce_length]
    exact Nat.lt_succ_self _

/-- The link is given up. -/
theorem Sound.lose (h : s.Sound) (hlink : s.link.isSome = true) :
    Sound { s with link := none, opening := none } where
  busy hopen d dial hget hbusy := by
    cases (h.link hlink).1.symm.trans (h.busy hopen d dial hget hbusy)
  link := nofun
  opening := nofun

theorem sound_closed (s : Dialer) :
    Sound { s with closed := true, link := none, opening := none } where
  busy := nofun
  link := nofun
  opening := nofun

/-- A dial opens: no link was open. -/
theorem Sound.opens (h : s.Sound) (hget : s.dials[d]? = some dial) (hbusy : dial.busy = true) :
    (s.opens d).Sound ∧ s.link = none := by
  have hlink : s.link = none := by
    cases hlink : s.link with
    | none => rfl
    | some l =>
      obtain ⟨hopening, hopen⟩ := h.link (hlink ▸ rfl)
      cases hopening.symm.trans (h.busy hopen d dial hget hbusy)
  refine ⟨?_, hlink⟩
  unfold Dialer.opens
  split
  · rename_i hclosed
    refine ⟨fun hopen => (nomatch hopen.symm.trans hclosed), fun hsome => ?_, nofun⟩
    rw [hlink] at hsome
    cases hsome
  · rename_i hclosed
    have hopen := Bool.eq_false_iff.2 hclosed
    refine ⟨fun _ j dial' hget' hbusy' => ?_, fun _ => ⟨rfl, hopen⟩, nofun⟩
    obtain ⟨-, rfl⟩ | ⟨hne, hbefore⟩ := of_set_get hget'
    · cases hbusy'
    · have hsame := h.busy hopen j dial' hbefore hbusy'
      exact absurd (Option.some.inj (hsame.symm.trans (h.busy hopen d dial hget hbusy))) hne

theorem Sound.refuses (h : s.Sound) (hget : s.dials[d]? = some dial) (hbusy : dial.busy = true) :
    s.Goes (s.refuses d) := by
  refine ⟨rfl, rfl, Nat.le_of_eq (List.length_set ..).symm, fun _ => ?_⟩
  refine ⟨fun hopen j dial' hget' hbusy' => ?_, fun hsome => ⟨rfl, (h.link hsome).2⟩, nofun⟩
  obtain ⟨-, rfl⟩ | ⟨hne, hbefore⟩ := of_set_get hget'
  · cases hbusy'
  · have hsame := h.busy hopen j dial' hbefore hbusy'
    exact absurd (Option.some.inj (hsame.symm.trans (h.busy hopen d dial hget hbusy))) hne

/-- A promise has settled, or is of a dial that is under way. -/
theorem result_or_busy {E : Type} {a : Await} (h : ∀ d, a = .dial d → d < s.dials.length) :
    (s.result E a).isSome = true ∨
      ∃ d dial, a = .dial d ∧ s.dials[d]? = some dial ∧ dial.busy = true := by
  cases a with
  | resolved | closed => exact .inl rfl
  | dial d =>
    obtain ⟨dial, hdial⟩ : ∃ dial, s.dials[d]? = some dial :=
      ⟨_, List.getElem?_eq_getElem (h d rfl)⟩
    unfold result
    dsimp only
    rw [hdial]
    cases dial with
    | backoff | connecting => exact .inr ⟨d, _, rfl, hdial, rfl⟩
    | opened => exact .inl rfl
    | rejected closed => exact .inl (by cases closed <;> rfl)

end Dialer

/-! ## What leaves the calls alone -/

namespace SocketTransport

variable {K P V E : Type} {throws : Nat → Bool} {s t u : SocketTransport K P V E}

/-- Nothing happens to a call, and the link stays. -/
structure Untouched (s t : SocketTransport K P V E) : Prop where
  goes : s.toDialer.Goes t.toDialer
  callers : t.callers = s.callers
  inFlight : t.inFlight = s.inFlight
  nextId : s.nextId ≤ t.nextId

theorem Untouched.refl (s : SocketTransport K P V E) : s.Untouched s :=
  ⟨.refl _, rfl, rfl, Nat.le_refl _⟩

theorem Untouched.trans (h : s.Untouched t) (h' : t.Untouched u) : s.Untouched u :=
  ⟨h.goes.trans h'.goes, h'.callers.trans h.callers, h'.inFlight.trans h.inFlight,
    Nat.le_trans h.nextId h'.nextId⟩

theorem untouched_ready (throws : Nat → Bool) (s : SocketTransport K P V E) :
    s.Untouched (s.ready throws).1 :=
  ⟨Dialer.ready_goes throws s.toDialer, rfl, rfl, Nat.le_refl _⟩

theorem untouched_sendLive (throws : Nat → Bool) (s : SocketTransport K P V E)
    (request : LiveRequest) : s.Untouched (s.sendLive throws request) := by
  unfold sendLive
  split
  · exact .refl s
  split
  · exact ⟨.refl _, rfl, rfl, Nat.le_refl _⟩
  · exact untouched_ready throws s

theorem untouched_redial (throws : Nat → Bool) (s : SocketTransport K P V E) :
    s.Untouched (s.redial throws).1 := by
  unfold redial
  split
  · exact untouched_ready throws s
  · exact .refl s

variable [DecidableEq K]

theorem untouched_openLive (throws : Nat → Bool) (s : SocketTransport K P V E) (k : Nat) (id : K) :
    s.Untouched (s.openLive throws k id) := by
  refine .trans ?_ (untouched_sendLive throws _ _)
  exact ⟨.refl _, rfl, rfl, Nat.le_succ _⟩

theorem untouched_reseed (throws : Nat → Bool) (s : SocketTransport K P V E) :
    s.Untouched (s.reseed throws) := by
  have hfold : ∀ (l : List (K × Nat)) (s : SocketTransport K P V E),
      s.Untouched (l.foldl (fun s q => s.openLive throws q.2 q.1) s) := by
    intro l
    induction l with
    | nil => exact fun s => .refl s
    | cons q l ih => exact fun s => (untouched_openLive throws s q.2 q.1).trans (ih _)
  unfold reseed
  split
  · exact .refl s
  · refine .trans ?_ (hfold _ _)
    exact ⟨.refl _, rfl, rfl, Nat.le_refl _⟩

theorem untouched_subscribe (throws : Nat → Bool) (s : SocketTransport K P V E) (id : K)
    (onError : Bool) : s.Untouched (s.subscribe throws id onError) := by
  unfold subscribe
  dsimp only
  split
  · exact ⟨.refl _, rfl, rfl, Nat.le_refl _⟩
  have hjoin : ∀ (s : SocketTransport K P V E) live, s.Untouched { s with live := live } :=
    fun s live => ⟨.refl _, rfl, rfl, Nat.le_refl _⟩
  exact ((hjoin s _).trans (untouched_openLive throws _ _ _)).trans (hjoin _ _)

theorem untouched_dispose (throws : Nat → Bool) (s : SocketTransport K P V E) (i : Nat) :
    s.Untouched (s.dispose throws i) := by
  unfold dispose
  split
  · exact .refl s
  dsimp only
  split
  · exact ⟨.refl _, rfl, rfl, Nat.le_refl _⟩
  split
  · exact ⟨.refl _, rfl, rfl, Nat.le_refl _⟩
  · refine .trans ?_ (untouched_sendLive throws _ _)
    exact ⟨.refl _, rfl, rfl, Nat.le_refl _⟩

theorem untouched_handle [DecidableEq P] {fingerprint : V → Option P} {i : Nat}
    {reply : SocketReply V E} (h : s.handle fingerprint i reply = some t) : s.Untouched t := by
  unfold handle at h
  split at h
  · cases h
    exact .refl s
  · split at h
    · cases h
      exact .refl s
    · obtain ⟨set, -, rfl⟩ := Option.map_eq_some_iff.1 h
      exact ⟨.refl _, rfl, rfl, Nat.le_refl _⟩

end SocketTransport

end SigxActors.Client
