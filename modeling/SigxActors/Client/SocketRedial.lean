/-
  Client/SocketRedial.lean --- what is subscribed to keeps the connection alive.

  A dial is begun by a call, by a new subscription, by a drop and by the redial loop, and only
  the loop begins another when one has failed.  The loop is begun by a drop.
-/
import SigxActors.Client.SocketCalls

set_option autoImplicit false

namespace SigxActors.Client

open SigxActors.Js

/-! ## The promise that is shared -/

namespace Dialer

variable {throws : Nat → Bool} {s : Dialer} {d : Nat}

/-- `opening` is not a promise that has settled. -/
def unstuck (s : Dialer) : Bool :=
  match s.opening with
  | some d => (s.dials[d]?).any Dial.busy
  | none => true

theorem unstuck_of_none (h : s.opening = none) : s.unstuck = true := by
  unfold unstuck
  rw [h]

theorem unstuck_of_get {dial : Dial} (hopening : s.opening = some d)
    (hget : s.dials[d]? = some dial) (hbusy : dial.busy = true) : s.unstuck = true := by
  unfold unstuck
  rw [hopening]
  dsimp only
  rw [hget]
  exact hbusy

/-- A dial is begun where none is under way and no link is open. -/
theorem ready_length (hclosed : s.closed = false) (hlink : s.link = none)
    (hopening : s.opening = none) : (s.ready throws).1.dials.length = s.dials.length + 1 := by
  unfold ready
  rw [hclosed, hlink, hopening]
  exact openOnce_length throws s

/-- A dial that is begun with no backoff may fail before `opening` is assigned. -/
theorem unstuck_ready (h : s.unstuck = true)
    (hthrows : s.closed = false → s.link = none → s.opening = none → s.failures = 0 →
      throws s.dials.length = false) : (s.ready throws).1.unstuck = true := by
  unfold ready
  split
  · exact h
  rename_i hclosed
  split
  · exact h
  rename_i hlink
  split
  · exact h
  rename_i hopening
  have hbegun : ∃ dial, (s.openOnce throws).dials[s.dials.length]? = some dial ∧
      dial.busy = true := by
    have hlast : (s.dials ++ [Dial.backoff])[s.dials.length]? = some .backoff :=
      List.getElem?_concat_length
    unfold openOnce
    split
    · exact ⟨.backoff, hlast, rfl⟩
    rename_i hfailures
    refine ⟨.connecting, ?_, rfl⟩
    unfold connect
    rw [hthrows (Bool.eq_false_iff.2 hclosed) (Option.not_isSome_iff_eq_none.1 hlink)
      hopening (Nat.eq_zero_of_not_pos hfailures)]
    exact List.getElem?_set_self (lt_of_get hlast)
  obtain ⟨dial, hget, hbusy⟩ := hbegun
  exact unstuck_of_get rfl hget hbusy

theorem unstuck_fires (h : s.Sound) (hopen : s.closed = false) {dial : Dial}
    (hget : s.dials[d]? = some dial) (hbusy : dial.busy = true) :
    (s.fires throws d).unstuck = true := by
  have hopening := h.busy hopen d dial hget hbusy
  unfold fires
  rw [hopen]
  show (s.connect throws d).unstuck = true
  unfold connect
  split
  · exact unstuck_of_none rfl
  · exact unstuck_of_get hopening (List.getElem?_set_self (lt_of_get hget)) rfl

end Dialer

/-! ## What the entries of a set are after a change -/

namespace SubscriptionSet

variable {K P V E : Type} {set set' : SubscriptionSet K P V E}

theorem join_entries (set : SubscriptionSet K P V E) (k : Nat) (onError : Bool) :
    (set.join k onError).entries = set.entries := by
  unfold join
  split <;> rfl

variable [DecidableEq K]

theorem resolve_entries (set : SubscriptionSet K P V E) (id : K) : (set.resolve id).1.entries =
      if set.entries.has id then set.entries else set.entries.set id (set.resolve id).2 := by
  unfold resolve JsMap.has
  cases hget : set.entries.get id <;> rfl

theorem dispose_entries (set : SubscriptionSet K P V E) (i : Nat) :
    (set.dispose i).entries =
      match set.removed i with
      | some id => set.entries.erase id
      | none => set.entries := by
  unfold dispose removed
  cases set.listeners[i]? with
  | none => rfl
  | some listener =>
    dsimp only
    cases set.made[listener.mine]? with
    | none => rfl
    | some entry =>
      dsimp only
      by_cases hmem : i ∈ entry.listeners
      · by_cases hleft : entry.listeners.filter (· ≠ i) = []
        · rw [if_pos hmem, if_pos hleft, if_pos ⟨hmem, hleft⟩]
        · rw [if_pos hmem, if_neg hleft, if_neg fun hboth => hleft hboth.2]
      · rw [if_neg hmem, if_neg fun hboth => hmem hboth.1]

omit [DecidableEq K] in
theorem notify_entries (h : set.notify = some set') : set'.entries = set.entries := by
  unfold notify at h
  split at h <;> cases h
  rfl

variable [DecidableEq P] {fingerprint : V → Option P}

/-- Frames and callbacks leave the entries where they are. -/
theorem entries_of_step {l : Label K V E}
    (hl : (∃ k v, l = .value k v) ∨ (∃ k e, l = .error k e) ∨ l = .notify ∨ l = .replay)
    (h : step fingerprint set l = some set') : set'.entries = set.entries := by
  obtain ⟨k, v, rfl⟩ | ⟨k, e, rfl⟩ | rfl | rfl := hl
  · simp only [step] at h
    split at h <;> cases h
    unfold deliverValue
    split
    · rfl
    · split <;> rfl
  · simp only [step] at h
    split at h <;> cases h
    unfold deliverError
    split <;> rfl
  · exact notify_entries h
  · obtain ⟨-, h⟩ := guard_passed h
    unfold replay at h
    split at h
    · cases h
    dsimp only at h
    split at h
    · cases h
      rfl
    · split at h
      · cases h
        rfl
      · split at h
        · cases h
          rfl
        · cases h
          split <;> rfl

end SubscriptionSet

namespace SocketTransport

variable {K P V E : Type} {s t : SocketTransport K P V E} {throws : Nat → Bool}

/-- A redial loop has not come to its end. -/
def alive (s : SocketTransport K P V E) : Bool := s.loops.any Option.isSome

/-- Nothing of the live channel changes. -/
structure SameLive (s t : SocketTransport K P V E) : Prop where
  live : t.live = s.live
  loops : t.loops = s.loops
  liveSent : t.liveSent = s.liveSent

theorem SameLive.size (h : s.SameLive t) : t.size = s.size := by
  unfold SocketTransport.size
  rw [h.live]

theorem SameLive.alive (h : s.SameLive t) : t.alive = s.alive := by
  unfold SocketTransport.alive
  rw [h.loops]

/-- The dial that is begun, if one is, does not fail at once. -/
def Dials (throws : Nat → Bool) (s : SocketTransport K P V E) : Prop :=
  s.closed = false → s.link = none → s.opening = none → s.failures = 0 →
    throws s.dials.length = false

instance (s : SocketTransport K P V E) : Decidable (s.Dials throws) := by
  unfold Dials
  infer_instance

/-- `redialForLive` dials where no link is open and something is held. -/
theorem redial_of_down (hclosed : s.closed = false) (hlink : s.link = none) (hsize : 0 < s.size) :
    s.redial throws = ((s.ready throws).1, some (s.ready throws).2) := by
  unfold SocketTransport.redial
  rw [hclosed, hlink]
  exact if_pos (decide_eq_true hsize)

theorem failAll_same (s : SocketTransport K P V E) (failure : SocketFailure E) :
    s.SameLive (s.failAll failure) ∧ (s.failAll failure).toDialer = s.toDialer := by
  have hfold : ∀ (l : List Nat) (s : SocketTransport K P V E),
      s.SameLive (l.foldl (fun s c => s.modifyCaller c (·.fail failure)) s) ∧
      (l.foldl (fun s c => s.modifyCaller c (·.fail failure)) s).toDialer = s.toDialer := by
    intro l
    induction l with
    | nil => exact fun s => ⟨⟨rfl, rfl, rfl⟩, rfl⟩
    | cons c l ih =>
      intro s
      obtain ⟨hsame, hdialer⟩ := ih (s.modifyCaller c (·.fail failure))
      exact ⟨{ hsame with }, hdialer⟩
  obtain ⟨hsame, hdialer⟩ := hfold (s.inFlight.entries.map Prod.snd) { s with inFlight := .empty }
  exact ⟨{ hsame with }, hdialer⟩

variable [DecidableEq K]

/-- All that is held was posted on the link, under the id that it has. -/
def Sent (s : SocketTransport K P V E) (link : Nat) : Prop :=
  ∀ ch, s.live = some ch → ∀ id k, ch.set.entries.get id = some k →
    ∃ w, ch.wireIds.get id = some w ∧ (link, LiveRequest.sub w k) ∈ s.liveSent

/-- A loop is to go around, and finds no promise that has settled; or it awaits the dial that is
under way. -/
def Dialling (s : SocketTransport K P V E) : Prop :=
  s.link = none ∧ s.unstuck = true ∧ ∃ (n : Nat) (a : Await), s.loops[n]? = some (some a) ∧
    ((s.result E a).isSome = true ∨
      ∃ d dial, a = .dial d ∧ s.opening = some d ∧ s.dials[d]? = some dial ∧ dial.busy = true)

/-- What is held keeps the connection alive. -/
def KeptAlive (s : SocketTransport K P V E) : Prop :=
  s.closed = false → 0 < s.size → (∃ link, s.link = some link ∧ s.Sent link) ∨ s.Dialling

/-- The invariant, beside what is known of the dials. -/
structure Kept (s : SocketTransport K P V E) : Prop where
  loops : ∀ (n d : Nat), s.loops[n]? = some (some (.dial d)) → d < s.dials.length
  keeps : s.closed = false → 0 < s.size →
    (∃ link, s.link = some link ∧ s.Sent link) ∨
    s.link = none ∧ s.unstuck = true ∧ s.alive = true

/-- A subscription is made while a link is open or a loop dials for it, and no dial that is begun
without backoff, with something held, fails at once. -/
def Sustained (throws : Nat → Bool) (s : SocketTransport K P V E) : Label K V E → Prop
  | .call _ aborted => aborted = false → 0 < s.size → s.Dials throws
  | .pull c =>
      ∀ r ∈ s.callers[c]?, r.stage = .idle → r.aborted = false → 0 < s.size → s.Dials throws
  | .closes d => s.link = some d → 0 < s.size → s.failures = 0 → throws s.dials.length = false
  | .loop _ => 0 < s.size → s.Dials throws
  | .subscribe id _ =>
      (s.live.getD {}).set.entries.has id = true ∨ s.closed = true ∨ s.link.isSome = true ∨
        s.alive = true ∧ s.unstuck = true ∧ s.Dials throws
  | .dispose i =>
      ∀ ch ∈ s.live, ∀ id ∈ ch.set.removed i,
        (∃ q ∈ ch.set.entries.entries, q.1 ≠ id) → s.Dials throws
  | _ => True

instance (s : SocketTransport K P V E) (l : Label K V E) : Decidable (s.Sustained throws l) := by
  unfold Sustained
  split <;> infer_instance

theorem size_pos_iff : 0 < s.size ↔
    ∃ ch, s.live = some ch ∧ ∃ id k, ch.set.entries.get id = some k := by
  unfold size
  cases s.live with
  | none => exact ⟨fun h => absurd h (Nat.lt_irrefl _), fun ⟨_, h, _⟩ => nomatch h⟩
  | some ch =>
    refine ⟨fun h => ⟨ch, rfl, ?_⟩, fun ⟨ch', hlive, id, k, hget⟩ => ?_⟩
    · obtain ⟨q, hq⟩ := List.exists_mem_of_length_pos h
      exact ⟨q.1, q.2, JsMap.get_of_mem_entries hq⟩
    · cases hlive
      exact List.length_pos_of_mem (JsMap.mem_entries_of_get hget)

variable {link : Nat}

/-- A link that is open has had all that is held, if anything is. -/
theorem Kept.sent (h : s.Kept) (hopen : s.closed = false) (hlink : s.link = some link) :
    s.Sent link := by
  intro ch hlive id k hget
  have hsize : 0 < s.size := size_pos_iff.2 ⟨ch, hlive, id, k, hget⟩
  obtain ⟨link', hlink', hsent⟩ | ⟨hnone, -⟩ := h.keeps hopen hsize
  · cases hlink.symm.trans hlink'
    exact hsent ch hlive id k hget
  · cases hnone.symm.trans hlink

theorem SameLive.sent (h : s.SameLive t) (hsent : s.Sent link) : t.Sent link := by
  unfold Sent
  rw [h.live, h.liveSent]
  exact hsent

/-- The dialer goes on, and the promise that is shared with it. -/
theorem Kept.goes (h : s.Kept) (hsame : s.SameLive t) (hgoes : s.toDialer.Goes t.toDialer)
    (hunstuck : s.closed = false → s.unstuck = true → t.unstuck = true) : t.Kept where
  loops n d hn := Nat.lt_of_lt_of_le (h.loops n d (hsame.loops ▸ hn)) hgoes.dials
  keeps hopen hsize := by
    rw [hsame.size] at hsize
    rw [hgoes.closed] at hopen
    obtain ⟨link, hlink, hsent⟩ | ⟨hnone, hgood, halive⟩ := h.keeps hopen hsize
    · exact .inl ⟨link, hgoes.link.trans hlink, hsame.sent hsent⟩
    · exact .inr ⟨hgoes.link.trans hnone, hunstuck hopen hgood, hsame.alive.trans halive⟩

theorem Kept.same (h : s.Kept) (hsame : s.SameLive t) (hdialer : t.toDialer = s.toDialer) :
    t.Kept :=
  h.goes hsame (hdialer ▸ .refl _) fun _ hgood => hdialer ▸ hgood

theorem Kept.ready (h : s.Kept) (hthrows : 0 < s.size → s.Dials throws) :
    (s.ready throws).1.Kept where
  loops n d hn := Nat.lt_of_lt_of_le (h.loops n d hn) (Dialer.ready_goes throws s.toDialer).dials
  keeps hopen hsize := by
    have hgoes := Dialer.ready_goes throws s.toDialer
    have hsame : s.SameLive (s.ready throws).1 := ⟨rfl, rfl, rfl⟩
    have hopen' : s.closed = false := hgoes.closed.symm.trans hopen
    obtain ⟨link, hlink, hsent⟩ | ⟨hnone, hgood, halive⟩ := h.keeps hopen' hsize
    · exact .inl ⟨link, hgoes.link.trans hlink, hsame.sent hsent⟩
    · exact .inr ⟨hgoes.link.trans hnone, Dialer.unstuck_ready hgood (hthrows hsize), halive⟩

/-- What is held may be less, each under the id that it had. -/
theorem Kept.relive (h : s.Kept) {ch' : SocketLiveChannel K P V E}
    (hless : ∀ id k, ch'.set.entries.get id = some k → ∃ ch, s.live = some ch ∧
      ch.set.entries.get id = some k ∧ ch'.wireIds.get id = ch.wireIds.get id) :
    Kept { s with live := some ch' } where
  loops := h.loops
  keeps hopen hsize := by
    obtain ⟨ch₀, hlive₀, id₀, k₀, hget₀⟩ := size_pos_iff.1 hsize
    cases hlive₀
    obtain ⟨ch, hlive, hget, -⟩ := hless id₀ k₀ hget₀
    obtain ⟨link, hlink, hsent⟩ | hdials :=
      h.keeps hopen (size_pos_iff.2 ⟨ch, hlive, id₀, k₀, hget⟩)
    · refine .inl ⟨link, hlink, fun ch₁ hlive₁ id k hget₁ => ?_⟩
      cases hlive₁
      obtain ⟨ch₂, hlive₂, hget₂, hwire⟩ := hless id k hget₁
      obtain ⟨w, hw, hmem⟩ := hsent ch₂ hlive₂ id k hget₂
      exact ⟨w, hwire.trans hw, hmem⟩
    · exact .inr hdials

/-- A request goes out, or a dial is begun. -/
theorem Kept.sendLive (h : s.Kept) (hthrows : 0 < s.size → s.Dials throws)
    (request : LiveRequest) : (s.sendLive throws request).Kept := by
  unfold SocketTransport.sendLive
  split
  · exact h
  split
  · refine ⟨h.loops, fun hopen hsize => ?_⟩
    obtain ⟨link, hlink, hsent⟩ | hdials := h.keeps hopen hsize
    · refine .inl ⟨link, hlink, fun ch hlive id k hget => ?_⟩
      obtain ⟨w, hw, hmem⟩ := hsent ch hlive id k hget
      exact ⟨w, hw, List.mem_append_left _ hmem⟩
    · exact .inr hdials
  · exact h.ready hthrows

/-! ### A subscription -/

/-- Entry `k` is new, and goes out; where no link is open it needs a loop to dial for it. -/
theorem Kept.openLive (h : s.Kept) {ch : SocketLiveChannel K P V E} {set : SubscriptionSet K P V E}
    {id : K} {k : Nat} (hlive : s.live.getD {} = ch) (hnew : ch.set.entries.has id = false)
    (hentries : set.entries = ch.set.entries.set id k)
    (hdials : s.closed = false → s.link = none → s.alive = true ∧ s.unstuck = true ∧
      s.Dials throws) :
    Kept (({ s with live := some { ch with set := set } }).openLive throws k id) := by
  have hbefore : ∀ id' k', ch.set.entries.get id' = some k' → s.live = some ch := by
    intro id' k' hget
    cases hs : s.live with
    | none =>
      rw [hs] at hlive
      subst hlive
      cases hget
    | some ch' =>
      rw [hs] at hlive
      rw [← hlive]
      rfl
  unfold SocketTransport.openLive
  dsimp only
  unfold SocketTransport.sendLive
  split
  · rename_i hclosed
    exact ⟨h.loops, fun hopen => nomatch hopen.symm.trans hclosed⟩
  rename_i hclosed
  have hopen : s.closed = false := Bool.eq_false_iff.2 hclosed
  split
  · rename_i link hlink
    refine ⟨h.loops, fun _ _ => .inl ⟨link, hlink, fun ch' hlive' id' k' hget' => ?_⟩⟩
    cases hlive'
    rw [hentries, JsMap.get_set] at hget'
    rw [JsMap.get_set]
    split at hget'
    · rename_i hid
      cases hget'
      rw [if_pos hid]
      exact ⟨s.nextId, rfl, List.mem_append_right _ (List.mem_singleton.2 rfl)⟩
    · rename_i hid
      rw [if_neg hid]
      obtain ⟨w, hw, hmem⟩ :=
        h.sent hopen hlink ch (hbefore id' k' hget') id' k' hget'
      exact ⟨w, hw, List.mem_append_left _ hmem⟩
  · rename_i hlink
    obtain ⟨halive, hunstuck, hthrows⟩ := hdials hopen hlink
    have hgoes := Dialer.ready_goes throws s.toDialer
    refine ⟨fun n d hn => Nat.lt_of_lt_of_le (h.loops n d hn) hgoes.dials, fun _ _ => .inr ?_⟩
    exact ⟨hgoes.link.trans hlink, Dialer.unstuck_ready hunstuck hthrows, halive⟩

/-- A listener joins. -/
theorem Kept.rejoin (h : s.Kept) (k : Nat) (onError : Bool) :
    Kept { s with live := s.live.map fun ch => { ch with set := ch.set.join k onError } } := by
  cases hlive : s.live with
  | none =>
    refine ⟨h.loops, fun _ hsize => ?_⟩
    obtain ⟨ch, hsome, -⟩ := size_pos_iff.1 hsize
    cases hsome
  | some ch =>
    refine h.relive fun id k' hget => ⟨ch, hlive, ?_, rfl⟩
    rw [SubscriptionSet.join_entries] at hget
    exact hget

theorem Kept.subscribe (h : s.Kept) {id : K} {onError : Bool}
    (hclear : s.Sustained throws (.subscribe id onError)) :
    (s.subscribe throws id onError).Kept := by
  have hentries := SubscriptionSet.resolve_entries (s.live.getD {}).set id
  unfold SocketTransport.subscribe
  dsimp only
  cases hhas : (s.live.getD {}).set.entries.has id with
  | true =>
    rw [hhas, if_pos rfl] at hentries
    refine (h.relive fun id' k' hget => ?_).rejoin _ onError
    rw [hentries] at hget
    cases hlive : s.live with
    | none =>
      rw [hlive] at hget
      cases hget
    | some ch =>
      rw [hlive] at hget
      exact ⟨ch, rfl, hget, rfl⟩
  | false =>
    rw [hhas, if_neg Bool.false_ne_true] at hentries
    refine (h.openLive rfl hhas hentries fun hopen hlink => ?_).rejoin _ onError
    obtain hold | hclosed | hsome | hloop := hclear
    · cases hhas.symm.trans hold
    · cases hopen.symm.trans hclosed
    · rw [hlink] at hsome
      cases hsome
    · exact hloop

theorem Kept.dispose (h : s.Kept) {i : Nat} (hclear : s.Sustained throws (.dispose i)) :
    (s.dispose throws i).Kept := by
  unfold SocketTransport.dispose
  split
  · exact h
  rename_i ch hlive
  dsimp only
  have hentries := SubscriptionSet.dispose_entries ch.set i
  split
  · rename_i hnone
    rw [hnone] at hentries
    refine h.relive fun id k hget => ⟨ch, hlive, ?_, rfl⟩
    rw [hentries] at hget
    exact hget
  · rename_i id hremoved
    rw [hremoved] at hentries
    have hless : ∀ id' k, (ch.set.dispose i).entries.get id' = some k →
        id' ≠ id ∧ ch.set.entries.get id' = some k := by
      intro id' k hget
      rw [hentries, JsMap.get_erase] at hget
      obtain ⟨hne, hget⟩ := guard_past hget
      exact ⟨hne, hget⟩
    split
    · exact h.relive fun id' k hget => ⟨ch, hlive, (hless id' k hget).2, rfl⟩
    refine (h.relive fun id' k hget => ⟨ch, hlive, (hless id' k hget).2, ?_⟩).sendLive
      (fun hsize => ?_) _
    · rw [JsMap.get_erase, if_neg (hless id' k hget).1]
    · obtain ⟨ch', hlive', id', k, hget⟩ := size_pos_iff.1 hsize
      cases hlive'
      obtain ⟨hne, hbefore⟩ := hless id' k hget
      exact hclear ch hlive id hremoved ⟨(id', k), JsMap.mem_entries_of_get hbefore, hne⟩

/-- After a `reseed`, on an open link. -/
theorem sent_foldl (throws : Nat → Bool) (l : List (K × Nat)) (hnodup : (l.map Prod.fst).Nodup)
    (s : SocketTransport K P V E) (hopen : s.closed = false) (hlink : s.link = some link)
    {ch : SocketLiveChannel K P V E} (hlive : s.live = some ch) :
    let t := l.foldl (fun s q => s.openLive throws q.2 q.1) s
    t.toDialer = s.toDialer ∧ t.loops = s.loops ∧ (∀ x ∈ s.liveSent, x ∈ t.liveSent) ∧
    ∃ ch', t.live = some ch' ∧ ch'.set = ch.set ∧
      (∀ id, id ∉ l.map Prod.fst → ch'.wireIds.get id = ch.wireIds.get id) ∧
      ∀ q ∈ l, ∃ w, ch'.wireIds.get q.1 = some w ∧ (link, LiveRequest.sub w q.2) ∈ t.liveSent := by
  induction l generalizing s ch with
  | nil => exact ⟨rfl, rfl, fun _ => id, ch, hlive, rfl, fun _ _ => rfl, nofun⟩
  | cons q l ih =>
    rw [List.map_cons, List.nodup_cons] at hnodup
    have hstep : s.openLive throws q.2 q.1 =
        { s with
          nextId := s.nextId + 1
          live := some
            { ch with
              byWireId := ch.byWireId.set s.nextId q.2
              wireIds := ch.wireIds.set q.1 s.nextId }
          liveSent := s.liveSent ++ [(link, .sub s.nextId q.2)] } := by
      unfold SocketTransport.openLive SocketTransport.sendLive
      dsimp only
      rw [hopen, hlink, hlive]
      rfl
    have hrest := ih hnodup.2 (s.openLive throws q.2 q.1) (by rw [hstep]; exact hopen)
      (by rw [hstep]; exact hlink) (by rw [hstep])
    obtain ⟨hdialer, hloops, hkept, ch', hlive', hset, hothers, hsent⟩ := hrest
    have hdialer₀ : (s.openLive throws q.2 q.1).toDialer = s.toDialer := by rw [hstep]
    have hloops₀ : (s.openLive throws q.2 q.1).loops = s.loops := by rw [hstep]
    have hsent₀ : (s.openLive throws q.2 q.1).liveSent =
        s.liveSent ++ [(link, .sub s.nextId q.2)] := by rw [hstep]
    rw [hsent₀] at hkept
    refine ⟨hdialer.trans hdialer₀, hloops.trans hloops₀,
      fun x hx => hkept x (List.mem_append_left _ hx), ch', hlive', hset,
      fun id hid => ?_, fun q' hq' => ?_⟩
    · rw [List.map_cons, List.mem_cons, not_or] at hid
      rw [hothers id hid.2, JsMap.get_set, if_neg hid.1]
    · obtain rfl | hq' := List.mem_cons.1 hq'
      · refine ⟨s.nextId, ?_, hkept _ (List.mem_append_right _ (List.mem_singleton.2 rfl))⟩
        rw [hothers q'.1 hnodup.1, JsMap.get_set_self]
      · exact hsent q' hq'

/-! ### The link -/

/-- A dial has opened, and what is held goes out on its link. -/
theorem Kept.reseed (h : ∀ (n d : Nat), s.loops[n]? = some (some (.dial d)) → d < s.dials.length)
    (hopen : s.closed = false) (hlink : s.link = some link) : (s.reseed throws).Kept := by
  unfold SocketTransport.reseed
  split
  · rename_i hlive
    refine ⟨h, fun _ hsize => ?_⟩
    obtain ⟨ch, hsome, -⟩ := size_pos_iff.1 hsize
    cases hlive.symm.trans hsome
  · rename_i ch hlive
    have hfold := sent_foldl throws ch.set.entries.entries ch.set.entries.nodup
      { s with live := some { ch with byWireId := .empty, wireIds := .empty } } hopen hlink rfl
    obtain ⟨hdialer, hloops, -, ch', hlive', hset, -, hsent⟩ := hfold
    refine ⟨fun n d hn => ?_, fun _ _ => .inl ⟨link, ?_, fun ch₁ hlive₁ id k hget => ?_⟩⟩
    · rw [hdialer]
      exact h n d (hloops ▸ hn)
    · rw [hdialer]
      exact hlink
    · cases hlive'.symm.trans hlive₁
      rw [hset] at hget
      exact hsent (id, k) (JsMap.mem_entries_of_get hget)

/-- `redialForLive` goes around: it dials, or there is no need. -/
theorem Kept.redial (h : s.Kept) (hdialer : s.toDialer.Sound)
    (hthrows : 0 < s.size → s.Dials throws) : (s.redial throws).1.Kept ∧
    (∀ d, (s.redial throws).2 = some (.dial d) → d < (s.redial throws).1.dials.length) ∧
    ((s.redial throws).2 = none → s.closed = false → 0 < s.size → s.link.isSome = true) := by
  unfold SocketTransport.redial
  split
  · exact ⟨h.ready hthrows,
      fun d hd => Dialer.ready_awaits hdialer (Option.some.inj hd), nofun⟩
  rename_i hneedless
  refine ⟨h, nofun, fun _ hopen hsize => ?_⟩
  cases hlink : s.link with
  | some link => rfl
  | none =>
    refine absurd ?_ hneedless
    rw [hopen, hlink]
    exact decide_eq_true hsize

/-- A loop goes on, or comes to its end where it is not needed. -/
theorem Kept.loop (h : s.Kept) (hdialer : s.toDialer.Sound)
    (hthrows : 0 < s.size → s.Dials throws) {n : Nat} {a : Await}
    (hget : s.loops[n]? = some (some a)) :
    Kept { (s.redial throws).1 with
      loops := (s.redial throws).1.loops.set n (s.redial throws).2 } := by
  obtain ⟨hkept, hawaits, hneedless⟩ := h.redial hdialer hthrows
  have hgoes := (untouched_redial throws s).goes
  have hloops : (s.redial throws).1.loops = s.loops := by
    unfold SocketTransport.redial
    split <;> rfl
  have hsize : (s.redial throws).1.size = s.size := by
    unfold SocketTransport.redial
    split <;> rfl
  refine ⟨fun n' d hn' => ?_, fun hopen hpos => ?_⟩
  · obtain ⟨rfl, hd⟩ | ⟨-, hbefore⟩ := of_set_get hn'
    · exact hawaits d hd.symm
    · exact hkept.loops n' d hbefore
  · obtain ⟨link, hlink, hsent⟩ | ⟨hnone, hunstuck, -⟩ := hkept.keeps hopen hpos
    · exact .inl ⟨link, hlink, hsent⟩
    refine .inr ⟨hnone, hunstuck, ?_⟩
    rw [hloops]
    cases hnext : (s.redial throws).2 with
    | none =>
      have hlink := hneedless hnext (hgoes.closed.symm.trans hopen) (hsize ▸ hpos)
      rw [← hgoes.link] at hlink
      rw [hnone] at hlink
      cases hlink
    | some a' =>
      exact List.any_eq_true.2 ⟨some a', List.mem_of_getElem?
        (List.getElem?_set_self (lt_of_get hget)), rfl⟩

/-- A loop is begun, and dials. -/
theorem Kept.begin_loop
    (h : ∀ (n d : Nat), s.loops[n]? = some (some (.dial d)) → d < s.dials.length)
    (hdialer : s.toDialer.Sound) (hopen : s.closed = false) (hlink : s.link = none)
    (hopening : s.opening = none) (hsize : 0 < s.size) (hthrows : s.Dials throws) :
    Kept { (s.redial throws).1 with
      loops := (s.redial throws).1.loops ++ [(s.redial throws).2] } := by
  have hgoes := Dialer.ready_goes throws s.toDialer
  rw [redial_of_down hopen hlink hsize]
  refine ⟨fun n d hn => ?_, fun _ _ => .inr ⟨hgoes.link.trans hlink, ?_, ?_⟩⟩
  · obtain ⟨-, hd⟩ | ⟨-, hbefore⟩ := of_append_get hn
    · exact Dialer.ready_awaits hdialer (Option.some.inj hd).symm
    · exact Nat.lt_of_lt_of_le (h n d hbefore) hgoes.dials
  · exact Dialer.unstuck_ready (Dialer.unstuck_of_none hopening) hthrows
  · exact List.any_eq_true.2 ⟨_, List.mem_append_right _ (List.mem_singleton.2 rfl), rfl⟩

/-- The link goes, and a loop is begun where something is held. -/
theorem Kept.dropLink (h : s.Kept) (hdialer : s.toDialer.Sound) {d : Nat}
    (hlink : s.link = some d) (hclear : s.Sustained throws (.closes d)) :
    (s.dropLink throws).Kept := by
  have hsome : s.link.isSome = true := hlink ▸ rfl
  obtain ⟨hsame, hlost⟩ := failAll_same { s with link := none, opening := none } .lost
  unfold SocketTransport.dropLink
  dsimp only
  generalize SocketTransport.failAll { s with link := none, opening := none } .lost = u
    at hsame hlost
  have hloops : ∀ (n d : Nat), u.loops[n]? = some (some (.dial d)) → d < u.dials.length := by
    intro n d hn
    rw [hlost]
    exact h.loops n d (hsame.loops ▸ hn)
  split
  · rename_i hsize
    refine .begin_loop hloops (hlost ▸ hdialer.lose hsome) ?_ ?_ ?_ hsize fun _ _ _ hfailures => ?_
    · rw [hlost]
      exact (hdialer.link hsome).2
    · rw [hlost]
    · rw [hlost]
    · rw [hsame.size] at hsize
      rw [hlost] at hfailures ⊢
      exact hclear hlink hsize hfailures
  · rename_i hsize
    exact ⟨hloops, fun _ hpos => absurd hpos hsize⟩

/-! ### Steps -/

theorem keptAlive_of_kept (h : s.Kept) (hdialer : s.toDialer.Sound) : s.KeptAlive := by
  intro hopen hsize
  obtain hlinked | ⟨hnone, hunstuck, halive⟩ := h.keeps hopen hsize
  · exact .inl hlinked
  obtain ⟨x, hmem, hsome⟩ := List.any_eq_true.1 halive
  obtain ⟨a, rfl⟩ := Option.isSome_iff_exists.1 hsome
  obtain ⟨n, hget⟩ := List.mem_iff_getElem?.1 hmem
  refine .inr ⟨hnone, hunstuck, n, a, hget, ?_⟩
  have hawaits : ∀ d, a = .dial d → d < s.dials.length := fun d hd => h.loops n d (hd ▸ hget)
  refine (Dialer.result_or_busy hawaits).imp_right ?_
  rintro ⟨d, dial, rfl, hdial, hbusy⟩
  exact ⟨d, dial, rfl, hdialer.busy hopen d dial hdial hbusy, hdial, hbusy⟩

variable [DecidableEq P] {fingerprint : V → Option P}

omit [DecidableEq K] [DecidableEq P] in
theorem drop_same (s : SocketTransport K P V E) (c i : Nat) (cancels : Bool)
    (g : SocketCaller V E → SocketCaller V E) : s.SameLive ((s.drop c i cancels).modifyCaller c g) ∧
      ((s.drop c i cancels).modifyCaller c g).toDialer = s.toDialer := by
  rw [drop_modifyCaller]
  exact ⟨⟨rfl, rfl, rfl⟩, rfl⟩

omit [DecidableEq K] [DecidableEq P] in
theorem goOn_same (s : SocketTransport K P V E) (c i : Nat) (r : SocketCaller V E) :
    s.SameLive (s.goOn c i r) ∧ (s.goOn c i r).toDialer = s.toDialer := by
  unfold SocketTransport.goOn
  split
  · exact ⟨⟨rfl, rfl, rfl⟩, rfl⟩
  split
  · exact drop_same s c i _ _
  split
  · exact drop_same s c i _ _
  · exact ⟨⟨rfl, rfl, rfl⟩, rfl⟩

theorem Kept.step {l : Label K V E} (h : s.Kept) (hs : s.Sound) (hclear : s.Sustained throws l)
    (hstep : SocketTransport.step fingerprint throws s l = some t) : t.Kept := by
  have hdialer := hs.dialer
  have hset : ∀ {ch : SocketLiveChannel K P V E} {set : SubscriptionSet K P V E},
      s.live = some ch → set.entries = ch.set.entries →
      Kept { s with live := some { ch with set := set } } := by
    intro ch set hlive hentries
    refine h.relive fun id k hget => ⟨ch, hlive, ?_, rfl⟩
    exact hentries ▸ hget
  have hready : ∀ {callers : List (SocketCaller V E)}, (0 < s.size → s.Dials throws) →
      t = { (s.ready throws).1 with callers := callers } → t.Kept := by
    rintro callers hthrows rfl
    exact (h.ready hthrows).same ⟨rfl, rfl, rfl⟩ rfl
  cases l with
  | call oneWay aborted =>
    simp only [SocketTransport.step, SocketTransport.call] at hstep
    split at hstep
    · cases hstep
      exact h.same ⟨rfl, rfl, rfl⟩ rfl
    · rename_i hgoes
      exact hready (hclear (Bool.eq_false_iff.2 hgoes)) (Option.some.inj hstep).symm
  | stream aborted =>
    cases hstep
    exact h.same ⟨rfl, rfl, rfl⟩ rfl
  | pull c =>
    simp only [SocketTransport.step] at hstep
    split at hstep
    · cases hstep
    rename_i r hget
    split at hstep
    · rename_i hstage
      split at hstep
      · cases hstep
        exact h.same ⟨rfl, rfl, rfl⟩ rfl
      · rename_i hgoes
        exact hready (hclear r hget hstage (Bool.eq_false_iff.2 hgoes))
          (Option.some.inj hstep).symm
    · split at hstep <;> cases hstep
      exact h.same (goOn_same s c _ _).1 (goOn_same s c _ _).2
    · cases hstep
    · cases hstep
  | leave c =>
    simp only [SocketTransport.step] at hstep
    split at hstep
    · cases hstep
    split at hstep
    · cases hstep
      exact h.same ⟨rfl, rfl, rfl⟩ rfl
    · split at hstep <;> cases hstep
      exact h.same (drop_same s c _ _ _).1 (drop_same s c _ _ _).2
    · cases hstep
    · cases hstep
  | resume c =>
    simp only [SocketTransport.step] at hstep
    split at hstep
    · cases hstep
    split at hstep
    · split at hstep
      · cases hstep
      · cases hstep
        exact h.same ⟨rfl, rfl, rfl⟩ rfl
      · cases hstep
        unfold SocketTransport.register
        split <;> exact h.same ⟨rfl, rfl, rfl⟩ rfl
    · cases hstep
    · cases hstep
    · cases hstep
  | wake c =>
    simp only [SocketTransport.step] at hstep
    split at hstep
    · cases hstep
    split at hstep
    · split at hstep <;> cases hstep
      exact h.same (goOn_same s c _ _).1 (goOn_same s c _ _).2
    · cases hstep
    · cases hstep
    · cases hstep
  | abort c =>
    simp only [SocketTransport.step] at hstep
    split at hstep
    · cases hstep
    obtain ⟨-, hstep⟩ := guard_past hstep
    have hflag : (s.modifyCaller c fun r => { r with aborted := true }).Kept :=
      h.same ⟨rfl, rfl, rfl⟩ rfl
    split at hstep
    · cases hstep
      unfold SocketTransport.onAbort
      split
      · exact hflag.same ⟨rfl, rfl, rfl⟩ rfl
      · exact hflag.same (drop_same _ c _ _ _).1 (drop_same _ c _ _ _).2
    · cases hstep
      exact hflag
    · cases hstep
      exact hflag
    · cases hstep
  | message i reply =>
    simp only [SocketTransport.step] at hstep
    split at hstep
    · cases hstep
      unfold SocketTransport.frame
      split <;> exact h.same ⟨rfl, rfl, rfl⟩ rfl
    · unfold SocketTransport.handle at hstep
      split at hstep
      · cases hstep
        exact h
      · rename_i ch hlive
        split at hstep
        · cases hstep
          exact h
        · rename_i k _
          obtain ⟨set, hframe, rfl⟩ := Option.map_eq_some_iff.1 hstep
          refine hset hlive ?_
          split at hframe
          · exact SubscriptionSet.entries_of_step (.inl ⟨k, _, rfl⟩) hframe
          · exact SubscriptionSet.entries_of_step (.inr (.inl ⟨k, _, rfl⟩)) hframe
          · cases hframe
            rfl
  | fires d =>
    simp only [SocketTransport.step] at hstep
    split at hstep
    · rename_i hget
      cases hstep
      exact h.goes ⟨rfl, rfl, rfl⟩ (hdialer.fires hget rfl)
        fun hopen _ => Dialer.unstuck_fires hdialer hopen hget rfl
    · cases hstep
  | opens d =>
    simp only [SocketTransport.step] at hstep
    split at hstep
    · have hlength : (s.toDialer.opens d).dials.length = s.dials.length := by
        unfold Dialer.opens
        split <;> exact List.length_set ..
      have hloops : ∀ (n d' : Nat), s.loops[n]? = some (some (.dial d')) →
          d' < (s.toDialer.opens d).dials.length :=
        fun n d' hn => hlength.symm ▸ h.loops n d' hn
      cases hclosed : s.closed with
      | true =>
        have hshut : (s.toDialer.opens d).closed = true := by
          unfold Dialer.opens
          rw [if_pos hclosed]
          exact hclosed
        rw [hclosed] at hstep
        cases hstep
        exact ⟨hloops, fun hopen => by cases hopen.symm.trans hshut⟩
      | false =>
        have hopens : (s.toDialer.opens d).closed = false ∧
            (s.toDialer.opens d).link = some d := by
          unfold Dialer.opens
          rw [if_neg (hclosed ▸ Bool.false_ne_true)]
          exact ⟨hclosed, rfl⟩
        rw [hclosed] at hstep
        split at hstep <;> cases hstep
        · exact .reseed hloops hopens.1 hopens.2
        · rename_i hsize
          exact ⟨hloops, fun _ hpos => absurd (decide_eq_true hpos) hsize⟩
    · cases hstep
  | closes d =>
    simp only [SocketTransport.step] at hstep
    split at hstep
    · rename_i hget
      cases hstep
      exact h.goes ⟨rfl, rfl, rfl⟩ (hdialer.refuses hget rfl)
        fun _ _ => Dialer.unstuck_of_none rfl
    · split at hstep <;> cases hstep
      · rename_i hlink
        exact h.dropLink hdialer hlink hclear
      · exact h
    · cases hstep
  | loop n =>
    simp only [SocketTransport.step] at hstep
    split at hstep
    · rename_i a hget
      split at hstep
      · cases hstep
      · cases hstep
        exact h.loop hdialer hclear hget
    · cases hstep
  | subscribe id onError =>
    cases hstep
    exact h.subscribe hclear
  | dispose i =>
    cases hstep
    exact h.dispose hclear
  | notify =>
    simp only [SocketTransport.step] at hstep
    split at hstep
    · rename_i ch hlive
      obtain ⟨set, hnotify, rfl⟩ := Option.map_eq_some_iff.1 hstep
      exact hset hlive (SubscriptionSet.notify_entries hnotify)
    · cases hstep
  | replay =>
    simp only [SocketTransport.step] at hstep
    split at hstep
    · rename_i ch hlive
      obtain ⟨set, hreplay, rfl⟩ := Option.map_eq_some_iff.1 hstep
      exact hset hlive (SubscriptionSet.entries_of_step (.inr (.inr (.inr rfl))) hreplay)
    · cases hstep
  | close =>
    cases hstep
    unfold SocketTransport.close
    split
    · exact h
    obtain ⟨hsame, hlost⟩ := failAll_same
      { s with closed := true, link := none, opening := none, live := none } .closed
    refine ⟨fun n d hn => ?_, fun hopen => ?_⟩
    · rw [hlost]
      exact h.loops n d (hsame.loops ▸ hn)
    · rw [hlost] at hopen
      cases hopen

/-- A dial is under way, or the next step of a loop begins one. -/
theorem Dialling.further (h : s.Dialling) (hopen : s.closed = false) (hsize : 0 < s.size) :
    (∃ d dial, s.opening = some d ∧ s.dials[d]? = some dial ∧ dial.busy = true) ∨
    ∃ n t, SocketTransport.step fingerprint throws s (.loop n) = some t ∧
      t.dials.length = s.dials.length + 1 := by
  obtain ⟨hlink, hunstuck, n, a, hget, hawaits⟩ := h
  cases hopening : s.opening with
  | some d =>
    unfold Dialer.unstuck at hunstuck
    rw [hopening] at hunstuck
    dsimp only at hunstuck
    cases hdial : s.dials[d]? with
    | none =>
      rw [hdial] at hunstuck
      cases hunstuck
    | some dial =>
      rw [hdial] at hunstuck
      exact .inl ⟨d, dial, rfl, hdial, hunstuck⟩
  | none =>
    obtain hsettled | ⟨d, dial, -, hsome, -⟩ := hawaits
    · obtain ⟨failure, hresult⟩ := Option.isSome_iff_exists.1 hsettled
      refine .inr ⟨n, { (s.ready throws).1 with
        loops := s.loops.set n (some (s.ready throws).2) }, ?_, ?_⟩
      · simp only [SocketTransport.step]
        rw [hget]
        dsimp only
        rw [hresult]
        rw [redial_of_down hopen hlink hsize]
        rfl
      · exact Dialer.ready_length hopen hlink hopening
    · cases hopening.symm.trans hsome

end SocketTransport

variable {K P V E : Type} [DecidableEq K] [DecidableEq P] {fingerprint : V → Option P}
  {throws : Nat → Bool}

/-- **What is subscribed to keeps the connection alive**, in a run in which subscriptions are made
while a link is open or a loop dials, and no dial that is begun without backoff fails at once. -/
theorem keptAlive_of_sustained {s : SocketTransport K P V E}
    (h : (socketTransport fingerprint throws).Reach (SocketTransport.Sustained throws) s) :
    s.KeptAlive ∧ (s.closed = false → 0 < s.size → s.link = none →
      (∃ d dial, s.opening = some d ∧ s.dials[d]? = some dial ∧ dial.busy = true) ∨
      ∃ n t, SocketTransport.step fingerprint throws s (.loop n) = some t ∧
        t.dials.length = s.dials.length + 1) := by
  have hkept : s.Sound ∧ s.Kept := by
    refine h.invariant (I := fun s => s.Sound ∧ s.Kept) (fun s hinit => ?_)
      fun s l t hs hclear hstep => ⟨hs.1.step hstep, hs.2.step hs.1 hclear hstep⟩
    obtain rfl : s = {} := hinit
    exact ⟨SocketTransport.sound_initial, nofun, nofun⟩
  have halive := SocketTransport.keptAlive_of_kept hkept.2 hkept.1.dialer
  refine ⟨halive, fun hopen hsize hlink => ?_⟩
  obtain ⟨link, hsome, -⟩ | hdialling := halive hopen hsize
  · cases hlink.symm.trans hsome
  · exact hdialling.further hopen hsize

/-- A subscription is made on an open link; that drops, and the dial after it fails. -/
def redialled : List (SocketTransport.Label Nat Nat String) :=
  [.call false false, .opens 0, .subscribe 0 true, .closes 0, .closes 1, .loop 0]

theorem keptAlive_redialled :
    ∃ s : SocketTransport Nat Nat Nat String, s.KeptAlive ∧ s.closed = false ∧ 0 < s.size ∧
      s.link = none ∧ s.dials = [.opened, .rejected false, .backoff] := by
  have hstart : (socketTransport (K := Nat) (E := String) (some : Nat → Option Nat)
      fun _ => false).Reach (SocketTransport.Sustained fun _ => false) {} := .start rfl
  have hrun := hstart.exec_get redialled (by decide)
  exact ⟨_, (keptAlive_of_sustained hrun).1, by decide⟩

/-- A first subscription is made, and the dial for it fails. -/
def abandoned : List (SocketTransport.Label Nat Nat String) := [.subscribe 0 true, .closes 0]

theorem not_keptAlive : ¬ ∀ s : SocketTransport Nat Nat Nat String,
      (socketTransport some fun _ => false).Reachable s → s.KeptAlive := by
  intro hkept
  have hstart : (socketTransport (K := Nat) (E := String) (some : Nat → Option Nat)
      fun _ => false).Reachable {} := .start rfl
  have hrun := hstart.exec_get abandoned (by decide)
  obtain ⟨link, hlink, -⟩ | ⟨-, -, n, a, hget, -⟩ := hkept _ hrun rfl (by decide)
  · cases hlink
  · cases hget

end SigxActors.Client
