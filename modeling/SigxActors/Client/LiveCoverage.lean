/-
  Client/LiveCoverage.lean --- the connection of a page carries the page's set.

  A run of the current generation is there from the firing of the debounce timer on, and
  what it has sent is the set as it was then, or when it has last come back from its sleep.
  A change of the set since has the timer pending.
-/
import SigxActors.Client.LiveChannel

set_option autoImplicit false

namespace SigxActors.Client

open SigxActors.Js

variable {K P V E : Type}

/-! ## The set -/

namespace SubscriptionSet

variable {s t u : SubscriptionSet K P V E} {i k : Nat} {id : K}

/-- No entry is another's, and none but those in `but` has been handed a frame. -/
def Keeps (but : Nat → Prop) (s t : SubscriptionSet K P V E) : Prop :=
  ∀ k entry, s.made[k]? = some entry → ∃ entry', t.made[k]? = some entry' ∧
    entry'.id = entry.id ∧ (¬ but k → entry'.frames = entry.frames)

variable {but : Nat → Prop}

theorem Keeps.refl (s : SubscriptionSet K P V E) : Keeps but s s :=
  fun _ entry hget => ⟨entry, hget, rfl, fun _ => rfl⟩

theorem Keeps.trans (h : Keeps but s t) (h' : Keeps but t u) : Keeps but s u := by
  intro k entry hget
  obtain ⟨mid, hmid, hid, hframes⟩ := h k entry hget
  obtain ⟨last, hlast, hid', hframes'⟩ := h' k mid hmid
  exact ⟨last, hlast, hid'.trans hid, fun hk => (hframes' hk).trans (hframes hk)⟩

theorem keeps_of_made (but : Nat → Prop) (h : t.made = s.made) : Keeps but s t := by
  intro k entry hget
  exact ⟨entry, h ▸ hget, rfl, fun _ => rfl⟩

theorem Keeps.mono {but' : Nat → Prop} (h : Keeps but s t) (hle : ∀ k, but k → but' k) :
    Keeps but' s t := by
  intro k entry hget
  obtain ⟨entry', hget', hid, hframes⟩ := h k entry hget
  exact ⟨entry', hget', hid, fun hnot => hframes fun hk => hnot (hle k hk)⟩

theorem keeps_modify {f : SubscriptionEntry K P V E → SubscriptionEntry K P V E}
    (hmade : t.made = s.made.modify i f) (hid : ∀ entry, (f entry).id = entry.id)
    (hframes : but i ∨ ∀ entry, (f entry).frames = entry.frames) : Keeps but s t := by
  intro k entry hget
  rw [hmade]
  by_cases hk : k = i
  · subst hk
    refine ⟨f entry, modify_get_self f hget, hid entry, fun hnot => ?_⟩
    exact hframes.resolve_left hnot entry
  · exact ⟨entry, (modify_get_other f hk).trans hget, rfl, fun _ => rfl⟩

theorem Keeps.wire (h : Keeps but s t) (hwire : s.wire k = some id) : t.wire k = some id := by
  obtain ⟨entry, hget, rfl⟩ := Option.map_eq_some_iff.1 hwire
  obtain ⟨entry', hget', hid, -⟩ := h k entry hget
  exact Option.map_eq_some_iff.2 ⟨entry', hget', hid⟩

theorem entries_join (s : SubscriptionSet K P V E) (k : Nat) (onError : Bool) :
    (s.join k onError).entries = s.entries := by
  unfold join
  split
  · rfl
  · rfl

theorem keeps_join (s : SubscriptionSet K P V E) (k : Nat) (onError : Bool) :
    Keeps (fun _ => False) s (s.join k onError) := by
  unfold join
  split
  · exact .refl s
  · exact keeps_modify rfl (fun _ => rfl) (.inr fun _ => rfl)

/-- A callback and the cache change no entry. -/
theorem notify_made (h : s.notify = some t) : t.made = s.made ∧ t.entries = s.entries := by
  unfold notify at h
  split at h
  · cases h
  · cases h
    exact ⟨rfl, rfl⟩

theorem replay_made (h : s.replay = some t) : t.made = s.made ∧ t.entries = s.entries := by
  unfold replay at h
  split at h
  · cases h
  dsimp only at h
  split at h
  · cases h
    exact ⟨rfl, rfl⟩
  · split at h
    · cases h
      exact ⟨rfl, rfl⟩
    · split at h
      · cases h
        exact ⟨rfl, rfl⟩
      · cases h
        split <;> exact ⟨rfl, rfl⟩

theorem keeps_deliverError (s : SubscriptionSet K P V E) (k : Nat) (e : E) :
    Keeps (· = k) s (s.deliverError k e) ∧ (s.deliverError k e).entries = s.entries := by
  unfold deliverError
  split
  · exact ⟨.refl s, rfl⟩
  · exact ⟨keeps_modify rfl (fun _ => rfl) (.inl rfl), rfl⟩

theorem keeps_deliverValue [DecidableEq P] (fingerprint : V → Option P)
    (s : SubscriptionSet K P V E) (k : Nat) (v : V) :
    Keeps (· = k) s (deliverValue fingerprint s k v).1 ∧
      (deliverValue fingerprint s k v).1.entries = s.entries := by
  unfold deliverValue
  split
  · exact ⟨.refl s, rfl⟩
  · split <;> exact ⟨keeps_modify rfl (fun _ => rfl) (.inl rfl), rfl⟩

variable [DecidableEq K]

/-- The set holds an entry under its identity. -/
def Named (s : SubscriptionSet K P V E) : Prop :=
  ∀ id k, s.entries.get id = some k → s.wire k = some id

theorem Named.keeps (h : s.Named) (hkeeps : Keeps but s t) (hentries : t.entries = s.entries) :
    t.Named := by
  intro id k hget
  rw [hentries] at hget
  exact hkeeps.wire (h id k hget)

/-- What is sent of a set are its identities. -/
theorem Named.order (h : s.Named) : s.order.map s.wire = s.entries.keys.map some := by
  unfold SubscriptionSet.order JsMap.keys
  rw [List.map_map, List.map_map]
  exact List.map_congr_left fun q hq => h q.1 q.2 (JsMap.get_of_mem_entries hq)

theorem keeps_resolve (s : SubscriptionSet K P V E) (id : K) :
    Keeps (fun _ => False) s (s.resolve id).1 := by
  unfold resolve
  split
  · exact .refl s
  · exact fun k entry hget => ⟨entry, append_get _ hget, rfl, fun _ => rfl⟩

theorem keeps_subscribe (s : SubscriptionSet K P V E) (id : K) (onError : Bool) :
    Keeps (fun _ => False) s (s.subscribe id onError) :=
  (keeps_resolve s id).trans (keeps_join _ _ onError)

/-- One more listener is no change of the set. -/
theorem entries_subscribe {onError : Bool} (h : s.entries.get id = some k) :
    (s.subscribe id onError).entries = s.entries := by
  have hresolve : (s.resolve id).1 = s := by
    unfold resolve
    rw [h]
  rw [subscribe, entries_join, hresolve]

theorem Named.subscribe (h : s.Named) (id : K) (onError : Bool) : (s.subscribe id onError).Named := by
  have hresolved : (s.resolve id).1.Named := by
    unfold resolve
    split
    case h_1 => exact h
    case h_2 =>
      intro id' k hget
      rw [JsMap.get_set] at hget
      split at hget
      case isTrue heq =>
        cases hget
        subst heq
        unfold SubscriptionSet.wire
        rw [List.getElem?_append_right (Nat.le_refl _), Nat.sub_self]
        rfl
      case isFalse =>
        have hwire := h id' k hget
        obtain ⟨entry, hmade, rfl⟩ := Option.map_eq_some_iff.1 hwire
        exact Option.map_eq_some_iff.2 ⟨entry, append_get _ hmade, rfl⟩
  exact hresolved.keeps (keeps_join _ _ onError) (entries_join _ _ onError)

theorem keeps_dispose (s : SubscriptionSet K P V E) (i : Nat) :
    Keeps (fun _ => False) s (s.dispose i) := by
  unfold dispose
  split
  · exact .refl s
  split
  · exact .refl s
  split
  · dsimp only
    split <;> exact keeps_modify rfl (fun _ => rfl) (.inr fun _ => rfl)
  · exact .refl s

/-- One listener less is no change of the set, while there is another. -/
theorem entries_dispose (h : s.empties i = false) : (s.dispose i).entries = s.entries := by
  unfold empties at h
  unfold dispose
  split
  case h_1 => rfl
  case h_2 listener hlistener =>
    rw [hlistener] at h
    dsimp only at h
    split
    case h_1 => rfl
    case h_2 entry hentry =>
      rw [hentry] at h
      split
      case isFalse => rfl
      case isTrue hmem =>
        dsimp only at h
        rw [decide_eq_true hmem, Bool.true_and, ← Bool.not_eq_true, List.isEmpty_iff] at h
        rw [if_neg h]

theorem Named.dispose (h : s.Named) (i : Nat) : (s.dispose i).Named := by
  have hget : ∀ id k, (s.dispose i).entries.get id = some k → s.entries.get id = some k := by
    intro id k
    unfold SubscriptionSet.dispose
    split
    · exact fun hget => hget
    split
    · exact fun hget => hget
    split
    · dsimp only
      split
      · intro hget
        rw [JsMap.get_erase] at hget
        obtain ⟨-, hget⟩ := guard_past hget
        exact hget
      · exact fun hget => hget
    · exact fun hget => hget
  exact fun id k hentry => (keeps_dispose s i).wire (h id k (hget id k hentry))

theorem named_clear (s : SubscriptionSet K P V E) : s.clear.Named := by
  intro id k hget
  cases hget

end SubscriptionSet

/-! ## Runs -/

namespace LiveChannel

variable {s t : LiveChannel K P V E} {r : Nat} {run : LiveRun} {o : LiveChannelOptions}

/-- Where no change of the set waits for the timer, a run has the set or is to send it. -/
def Covered (s : LiveChannel K P V E) : Prop :=
  s.timer = false → s.closed = false → s.set.entries.keys ≠ [] →
    ∃ (r : Nat) (run : LiveRun), s.runs[r]? = some run ∧ run.mine = s.generation ∧
      ∀ c order, run.phase = .streaming c order → order = s.set.order

theorem schedule_set (s : LiveChannel K P V E) : s.schedule.set = s.set := by
  unfold schedule
  split
  · rfl
  · rfl

/-- A change of the set has the timer pending. -/
theorem covered_schedule (s : LiveChannel K P V E) : s.schedule.Covered := by
  intro htimer hclosed
  unfold schedule at htimer hclosed
  split at htimer
  case isTrue hnone =>
    rw [if_pos hnone] at hclosed
    rw [hclosed, htimer] at hnone
    cases hnone
  case isFalse => cases htimer

variable {set : SubscriptionSet K P V E}

/-- Without a change of the set, and with the same runs, nothing is to be covered anew. -/
theorem Covered.onSet (h : s.Covered) (hentries : set.entries = s.set.entries) :
    Covered { s with set := set } := by
  intro htimer hclosed hkeys
  have horder : set.order = s.set.order := by
    unfold SubscriptionSet.order
    rw [hentries]
  obtain ⟨r, run, hget, hgen, hsent⟩ := h htimer hclosed (hentries ▸ hkeys)
  exact ⟨r, run, hget, hgen, fun c order hphase => (hsent c order hphase).trans horder.symm⟩

theorem abort_runs (s : LiveChannel K P V E) (g : Nat)
    (hmines : ∀ (r : Nat) (run : LiveRun), s.runs[r]? = some run → run.mine < g) :
    ∀ (r : Nat) (run : LiveRun), s.abort.runs[r]? = some run → run.mine < g := by
  intro r run hget
  unfold abort at hget
  split at hget
  · rcases of_modify_get hget with ⟨old, -, hold, rfl⟩ | ⟨-, hold⟩
    · exact hmines _ old hold
    · exact hmines r run hold
  · exact hmines r run hget

theorem abort_eq (s : LiveChannel K P V E) :
    s.abort.generation = s.generation ∧ s.abort.closed = s.closed ∧ s.abort.set = s.set ∧
      s.abort.timer = s.timer := by
  unfold LiveChannel.abort
  split <;> exact ⟨rfl, rfl, rfl, rfl⟩

theorem mine_of_current (h : ¬ s.stale run = true) :
    s.closed = false ∧ run.mine = s.generation := by
  rw [stale, Bool.or_eq_true_iff, not_or, bne_iff_ne] at h
  exact ⟨Bool.not_eq_true _ ▸ h.1, Decidable.of_not_not h.2⟩

/-- A run that has just begun has nothing sent. -/
theorem covered_push (s : LiveChannel K P V E) (connection : Option Nat) (delay : Nat) :
    Covered { s with
      connection := connection
      runs := s.runs ++ [{ mine := s.generation, delay := delay, phase := .retrying }] } := by
  intro _ _ _
  refine ⟨s.runs.length, { mine := s.generation, delay := delay, phase := .retrying }, ?_, rfl,
    nofun⟩
  exact List.getElem?_concat_length

theorem attempt_set (s : LiveChannel K P V E) (r : Nat) (transport : Bool) :
    (s.attempt r transport).set = s.set := by
  unfold LiveChannel.attempt
  split
  · rfl
  split
  · rfl
  · split <;> rfl

theorem restart_set (s : LiveChannel K P V E) (o : LiveChannelOptions) (transport : Bool) :
    (s.restart o transport).set = s.set := by
  have heq := abort_eq { s with generation := s.generation + 1 }
  unfold LiveChannel.restart
  dsimp only
  split
  · exact heq.2.2.1
  · exact (attempt_set _ _ _).trans heq.2.2.1

/-- What the end of a stream does. -/
theorem of_finish (h : s.finish r = some t) : t = s.setPhase r .done := by
  unfold LiveChannel.finish at h
  split at h
  case h_2 => cases h
  case h_1 =>
    split at h
    · exact (Option.some.inj h).symm
    · cases h

/-- What the failure of a stream does; only a stale run does not sleep. -/
theorem of_drop (h : s.drop r = some t) : ∃ run, s.runs[r]? = some run ∧
    ((s.stale run = true ∨ run.aborted = true) ∧ t = s.setPhase r .left ∨
      t = s.setPhase r .retrying) := by
  unfold LiveChannel.drop at h
  split at h
  case h_2 => cases h
  case h_1 run hget =>
    refine ⟨run, hget, ?_⟩
    split at h
    case h_2 => cases h
    case h_1 =>
      cases h
      split
      case isTrue hleft => exact .inl ⟨Bool.or_eq_true_iff.1 hleft, rfl⟩
      case isFalse => exact .inr rfl

/-- What the end of a sleep does. -/
theorem of_wake {transport : Bool} (h : s.wake o r transport = some t) :
    ∃ delay, t = (s.setDelay r delay).attempt r transport := by
  unfold LiveChannel.wake at h
  split at h
  case h_2 => cases h
  case h_1 =>
    split at h
    · exact ⟨_, (Option.some.inj h).symm⟩
    · cases h

theorem keeps_deliver [DecidableEq P] (fingerprint : V → Option P) (s : LiveChannel K P V E)
    (order : List Nat) (i : Nat) (payload : Option (LiveFrame V E)) :
    SubscriptionSet.Keeps (fun k => order[i]? = some k) s.set
      (s.deliver fingerprint order i payload).set := by
  unfold LiveChannel.deliver
  split
  case h_1 v k hk =>
    exact (SubscriptionSet.keeps_deliverValue fingerprint s.set k v).1.mono fun _ heq => heq ▸ hk
  case h_2 e k hk =>
    exact (SubscriptionSet.keeps_deliverError s.set k e).1.mono fun _ heq => heq ▸ hk
  case h_3 => exact .refl s.set

/-- Position `i` of what the current run has sent is entry `k`. -/
def Addresses (s : LiveChannel K P V E) (r i k : Nat) : Prop :=
  ∃ run c order, s.runs[r]? = some run ∧ run.phase = .streaming c order ∧ s.closed = false ∧
    run.mine = s.generation ∧ order[i]? = some k

/-- A run that is current opens a connection, where there is a transport. -/
theorem attempt_of_current (hget : s.runs[r]? = some run) (hclosed : s.closed = false)
    (hgen : run.mine = s.generation) :
    s.attempt r true = { s.setPhase r (.streaming s.sent.length s.set.order) with
      sent := s.sent ++ [s.set.order.map s.set.wire] } := by
  have hcurrent : s.stale run = false := by
    unfold stale
    rw [hclosed, hgen, Bool.false_or, bne_self_eq_false]
  unfold attempt
  rw [hget]
  dsimp only
  rw [if_neg (Bool.not_eq_true _ ▸ hcurrent), if_pos rfl]

theorem wake_of_retrying (transport : Bool) (hget : s.runs[r]? = some run)
    (hphase : run.phase = .retrying) : s.wake o r transport =
      some ((s.setDelay r (min (run.delay * 2) o.maxRetryMs)).attempt r transport) := by
  unfold wake
  rw [hget]
  dsimp only
  rw [hphase]

/-- A frame goes to the entry whose position it bears. -/
theorem keeps_frame [DecidableEq P] {fingerprint : V → Option P} {i : Nat}
    {payload : Option (LiveFrame V E)} (hstep : s.frame o fingerprint r i payload = some t) :
    SubscriptionSet.Keeps (s.Addresses r i) s.set t.set := by
  unfold LiveChannel.frame at hstep
  split at hstep
  case h_2 => cases hstep
  case h_1 run hget =>
    split at hstep
    case h_2 => cases hstep
    case h_1 c order hphase =>
      split at hstep
      case isTrue =>
        cases hstep
        exact .refl s.set
      case isFalse hcurrent =>
        cases hstep
        obtain ⟨hclosed, hgen⟩ := mine_of_current hcurrent
        refine (keeps_deliver fingerprint (s.setDelay r o.retryMs) order i payload).mono fun k hk => ?_
        exact ⟨run, c, order, hget, hphase, hclosed, hgen, hk⟩

variable [DecidableEq K]

/-- What every run keeps. -/
structure Core (s : LiveChannel K P V E) : Prop where
  named : s.set.Named
  mines : ∀ (r : Nat) (run : LiveRun), s.runs[r]? = some run → run.mine ≤ s.generation
  unique : ∀ (r r' : Nat) (run run' : LiveRun), s.runs[r]? = some run → s.runs[r']? = some run' →
    run.mine = s.generation → run'.mine = s.generation → r = r'
  stale : ∀ (r : Nat) (run : LiveRun), s.runs[r]? = some run →
    s.closed = true ∨ run.aborted = true ∨ run.phase = .left → run.mine < s.generation
  opened : ∀ (r : Nat) (run : LiveRun) c order, s.runs[r]? = some run →
    run.phase = .streaming c order → s.sent[c]? = some (order.map s.set.wire) ∧ ∀ k ∈ order, (s.set.wire k).isSome = true
  latest : ∀ (r : Nat) (run : LiveRun) c order, s.runs[r]? = some run →
    run.phase = .streaming c order → run.mine = s.generation → c + 1 = s.sent.length

/-- The set changes, and no entry becomes another's. -/
theorem Core.onSet (h : s.Core) {but : Nat → Prop} (hkeeps : SubscriptionSet.Keeps but s.set set)
    (hnamed : set.Named) :
    Core { s with set := set } := by
  refine { h with named := hnamed, opened := fun r run c order hget hphase => ?_ }
  obtain ⟨hsent, hsome⟩ := h.opened r run c order hget hphase
  have hwire : ∀ k ∈ order, set.wire k = s.set.wire k := by
    intro k hk
    obtain ⟨id, hid⟩ := Option.isSome_iff_exists.1 (hsome k hk)
    exact (hkeeps.wire hid).trans hid.symm
  refine ⟨hsent.trans (congrArg some (List.map_congr_left fun k hk => (hwire k hk).symm)), ?_⟩
  intro k hk
  exact hwire k hk ▸ hsome k hk

/-- A run goes on, and opens nothing. -/
theorem Core.modifyRun (h : s.Core) {f : LiveRun → LiveRun} (hmine : ∀ run, (f run).mine = run.mine)
    (hstale : ∀ run, s.runs[r]? = some run → (f run).aborted = true ∨ (f run).phase = .left →
      run.mine < s.generation)
    (hphase : ∀ run c order, (f run).phase = .streaming c order → run.phase = .streaming c order) :
    Core { s with runs := s.runs.modify r f } := by
  have hold : ∀ {j : Nat} {run' : LiveRun}, (s.runs.modify r f)[j]? = some run' →
      ∃ run, s.runs[j]? = some run ∧ run'.mine = run.mine ∧
      (∀ c order, run'.phase = .streaming c order → run.phase = .streaming c order) ∧
      (s.closed = true ∨ run'.aborted = true ∨ run'.phase = .left → run.mine < s.generation) := by
    intro j run' hget
    rcases of_modify_get hget with ⟨run, rfl, hrun, rfl⟩ | ⟨-, hrun⟩
    · refine ⟨run, hrun, hmine run, hphase run, ?_⟩
      rintro (hclosed | hleft)
      · exact h.stale _ run hrun (.inl hclosed)
      · exact hstale run hrun hleft
    · exact ⟨run', hrun, rfl, fun _ _ hphase => hphase, h.stale j run' hrun⟩
  refine ⟨h.named, ?_, ?_, ?_, ?_, ?_⟩
  · intro j run' hget
    obtain ⟨run, hrun, hm, -⟩ := hold hget
    exact hm ▸ h.mines j run hrun
  · intro j j' run₁ run₂ hget hget' hgen hgen'
    obtain ⟨old₁, hrun, hm, -⟩ := hold hget
    obtain ⟨old₂, hrun', hm', -⟩ := hold hget'
    exact h.unique j j' old₁ old₂ hrun hrun' (hm ▸ hgen) (hm' ▸ hgen')
  · intro j run' hget hleft
    obtain ⟨run, hrun, hm, -, hlt⟩ := hold hget
    exact hm ▸ hlt hleft
  · intro j run' c order hget hstreaming
    obtain ⟨run, hrun, -, hkept, -⟩ := hold hget
    exact h.opened j run c order hrun (hkept c order hstreaming)
  · intro j run' c order hget hstreaming hgen
    obtain ⟨run, hrun, hm, hkept, -⟩ := hold hget
    exact h.latest j run c order hrun (hkept c order hstreaming) (hm ▸ hgen)

/-- Every run becomes stale. -/
theorem Core.bump (h : s.Core) (timer closed : Bool) :
    Core { s with timer := timer, closed := closed, generation := s.generation + 1 } := by
  have hlt : ∀ (r : Nat) (run : LiveRun), s.runs[r]? = some run → run.mine < s.generation + 1 :=
    fun r run hget => Nat.lt_succ_of_le (h.mines r run hget)
  refine ⟨h.named, fun r run hget => Nat.le_of_lt (hlt r run hget), ?_,
    fun r run hget _ => hlt r run hget, h.opened, ?_⟩
  · intro r r' run run' hget hget' hgen
    exact absurd hgen (Nat.ne_of_lt (hlt r run hget))
  · intro r run c order hget hphase hgen
    exact absurd hgen (Nat.ne_of_lt (hlt r run hget))

/-- A run of the generation begins where there is none. -/
theorem Core.push (h : s.Core) (hclosed : s.closed = false)
    (hnone : ∀ (r : Nat) (run : LiveRun), s.runs[r]? = some run → run.mine < s.generation)
    (connection : Option Nat) (delay : Nat) :
    Core { s with
      connection := connection
      runs := s.runs ++ [{ mine := s.generation, delay := delay, phase := .retrying }] } := by
  refine ⟨h.named, ?_, ?_, ?_, ?_, ?_⟩
  · intro r run hget
    rcases of_append_get hget with ⟨-, rfl⟩ | ⟨-, hget⟩
    · exact Nat.le_refl _
    · exact h.mines r run hget
  · intro r r' run run' hget hget' hgen hgen'
    rcases of_append_get hget with ⟨rfl, -⟩ | ⟨-, hget⟩
    · rcases of_append_get hget' with ⟨rfl, -⟩ | ⟨-, hget'⟩
      · rfl
      · exact absurd hgen' (Nat.ne_of_lt (hnone r' run' hget'))
    · exact absurd hgen (Nat.ne_of_lt (hnone r run hget))
  · intro r run hget hleft
    rcases of_append_get hget with ⟨-, rfl⟩ | ⟨-, hget⟩
    · rcases hleft with hclosed' | haborted | hphase
      · exact absurd (hclosed.symm.trans hclosed') Bool.false_ne_true
      · cases haborted
      · cases hphase
    · exact h.stale r run hget hleft
  · intro r run c order hget hphase
    rcases of_append_get hget with ⟨-, rfl⟩ | ⟨-, hget⟩
    · cases hphase
    · exact h.opened r run c order hget hphase
  · intro r run c order hget hphase hgen
    rcases of_append_get hget with ⟨-, rfl⟩ | ⟨-, hget⟩
    · cases hphase
    · exact h.latest r run c order hget hphase hgen

/-- The current run opens a connection, with the set as it is. -/
theorem Core.send (h : s.Core) (hget : s.runs[r]? = some run) (hgen : run.mine = s.generation) :
    Core { s.setPhase r (.streaming s.sent.length s.set.order) with
      sent := s.sent ++ [s.set.order.map s.set.wire] } := by
  have hstale : ¬ (s.closed = true ∨ run.aborted = true ∨ run.phase = .left) :=
    fun hleft => absurd hgen (Nat.ne_of_lt (h.stale r run hget hleft))
  have hold : ∀ {j : Nat} {run' : LiveRun},
      (s.setPhase r (.streaming s.sent.length s.set.order)).runs[j]? = some run' →
      j = r ∧ run' = { run with phase := .streaming s.sent.length s.set.order } ∨
        j ≠ r ∧ s.runs[j]? = some run' := by
    intro j run' hget'
    rcases of_modify_get hget' with ⟨old, rfl, hold, rfl⟩ | ⟨hne, hold⟩
    · cases hget.symm.trans hold
      exact .inl ⟨rfl, rfl⟩
    · exact .inr ⟨hne, hold⟩
  refine ⟨h.named, ?_, ?_, ?_, ?_, ?_⟩
  · intro j run' hget'
    rcases hold hget' with ⟨-, rfl⟩ | ⟨-, hget'⟩
    · exact h.mines r run hget
    · exact h.mines j run' hget'
  · have hmine : ∀ {j : Nat} {run' : LiveRun},
        (s.setPhase r (.streaming s.sent.length s.set.order)).runs[j]? = some run' →
        run'.mine = s.generation → j = r := by
      intro j run' hget' hgen'
      rcases hold hget' with ⟨rfl, -⟩ | ⟨-, hget'⟩
      · rfl
      · exact h.unique j r run' run hget' hget hgen' hgen
    intro j j' run₁ run₂ h₁ h₂ hgen₁ hgen₂
    exact (hmine h₁ hgen₁).trans (hmine h₂ hgen₂).symm
  · intro j run' hget' hleft
    rcases hold hget' with ⟨-, rfl⟩ | ⟨-, hget'⟩
    · rcases hleft with hclosed | haborted | hphase
      · exact absurd (.inl hclosed) hstale
      · exact absurd (.inr (.inl haborted)) hstale
      · cases hphase
    · exact h.stale j run' hget' hleft
  · intro j run' c order hget' hphase
    rcases hold hget' with ⟨-, rfl⟩ | ⟨-, hget'⟩
    · cases hphase
      refine ⟨by rw [List.getElem?_append_right (Nat.le_refl _), Nat.sub_self]; rfl, ?_⟩
      intro k hk
      obtain ⟨q, hq, rfl⟩ := List.mem_map.1 hk
      exact Option.isSome_iff_exists.2 ⟨q.1, h.named q.1 q.2 (JsMap.get_of_mem_entries hq)⟩
    · obtain ⟨hsent, hsome⟩ := h.opened j run' c order hget' hphase
      exact ⟨append_get _ hsent, hsome⟩
  · intro j run' c order hget' hphase hgen'
    rcases hold hget' with ⟨-, rfl⟩ | ⟨hne, hget'⟩
    · cases hphase
      rw [List.length_append]
      rfl
    · exact absurd (h.unique j r run' run hget' hget hgen' hgen) hne

/-! ## Steps -/

theorem Core.schedule (h : s.Core) : s.schedule.Core := by
  unfold LiveChannel.schedule
  split
  · exact h
  · exact { h with }

/-- What holds in every state. -/
structure Sound (s : LiveChannel K P V E) : Prop where
  core : s.Core
  covered : s.Covered

/-- A run stops, or sleeps. -/
theorem Sound.setPhase (h : s.Sound) {phase : RunPhase}
    (hphase : ∀ c order, phase ≠ .streaming c order)
    (hleft : phase = .left → ∀ run, s.runs[r]? = some run → run.mine < s.generation) :
    (s.setPhase r phase).Sound := by
  constructor
  case core =>
    refine h.core.modifyRun (fun _ => rfl) (fun run hget hstale => ?_)
      fun _ c order heq => absurd heq (hphase c order)
    rcases hstale with haborted | heq
    · exact h.core.stale r run hget (.inr (.inl haborted))
    · exact hleft heq run hget
  case covered =>
    intro htimer hclosed hkeys
    obtain ⟨j, run, hget, hgen, hsent⟩ := h.covered htimer hclosed hkeys
    by_cases hj : j = r
    · subst hj
      exact ⟨j, _, modify_get_self _ hget, hgen, fun c order heq => absurd heq (hphase c order)⟩
    · exact ⟨j, run, (modify_get_other _ hj).trans hget, hgen, hsent⟩

theorem Sound.setDelay (h : s.Sound) (r delay : Nat) : (s.setDelay r delay).Sound := by
  constructor
  case core =>
    exact h.core.modifyRun (fun _ => rfl)
      (fun run hget hstale => h.core.stale r run hget (.inr hstale)) fun _ _ _ heq => heq
  case covered =>
    intro htimer hclosed hkeys
    obtain ⟨j, run, hget, hgen, hsent⟩ := h.covered htimer hclosed hkeys
    by_cases hj : j = r
    · subst hj
      exact ⟨j, _, modify_get_self _ hget, hgen, hsent⟩
    · exact ⟨j, run, (modify_get_other _ hj).trans hget, hgen, hsent⟩

/-- The current run has the set as it is. -/
theorem Sound.send (h : s.Sound) (hget : s.runs[r]? = some run) (hgen : run.mine = s.generation) :
    Sound { s.setPhase r (.streaming s.sent.length s.set.order) with
      sent := s.sent ++ [s.set.order.map s.set.wire] } := by
  refine ⟨h.core.send hget hgen, fun _ _ _ => ⟨r, _, modify_get_self _ hget, hgen, ?_⟩⟩
  intro c order heq
  cases heq
  rfl

theorem Core.lt_of_stale (h : s.Core) (hget : s.runs[r]? = some run) (hstale : s.stale run = true) :
    run.mine < s.generation := by
  rcases Bool.or_eq_true_iff.1 hstale with hclosed | hgen
  · exact h.stale r run hget (.inl hclosed)
  · exact Nat.lt_of_le_of_ne (h.mines r run hget) (bne_iff_ne.1 hgen)

theorem Sound.leave (h : s.Sound) (hget : s.runs[r]? = some run) (hstale : s.stale run = true) :
    (s.setPhase r .left).Sound := by
  refine h.setPhase nofun fun _ run' hget' => ?_
  cases hget.symm.trans hget'
  exact h.core.lt_of_stale hget hstale

/-- A pass of the loop leaves a stale run, sends the set, or ends. -/
theorem Sound.attempt (h : s.Sound) (r : Nat) (transport : Bool) : (s.attempt r transport).Sound := by
  unfold LiveChannel.attempt
  split
  case h_1 => exact h
  case h_2 run hget =>
    split
    case isTrue hstale => exact h.leave hget hstale
    case isFalse hcurrent =>
      split
      case isTrue => exact h.send hget (mine_of_current hcurrent).2
      case isFalse => exact h.setPhase nofun nofun

theorem Core.abort (h : s.Core) (hmines : ∀ (r : Nat) (run : LiveRun), s.runs[r]? = some run →
    run.mine < s.generation) : s.abort.Core := by
  unfold LiveChannel.abort
  split
  · exact h.modifyRun (fun _ => rfl) (fun run hget _ => hmines _ run hget) fun _ _ _ hphase => hphase
  · exact h

/-- What `restart` and `close` begin with. -/
theorem Core.supersede (h : s.Core) (timer closed : Bool) :
    Core { LiveChannel.abort { s with
        timer := timer, closed := closed, generation := s.generation + 1 } with
      connection := none } := by
  have hbumped := h.bump timer closed
  have haborted := hbumped.abort fun r run hget => Nat.lt_succ_of_le (h.mines r run hget)
  exact { haborted with }

/-- The debounce timer has fired, and the set is sent where there is one. -/
theorem Core.restart (h : s.Core) (o : LiveChannelOptions) (transport : Bool) :
    (s.restart o transport).Sound := by
  have hcore := h.supersede s.timer s.closed
  have hmines := abort_runs { s with generation := s.generation + 1 } (s.generation + 1)
    fun r run hget => Nat.lt_succ_of_le (h.mines r run hget)
  have heq := abort_eq { s with generation := s.generation + 1 }
  unfold LiveChannel.restart
  dsimp only
  split
  case isTrue hnothing =>
    refine ⟨hcore, fun _ hclosed hkeys => ?_⟩
    rw [Bool.or_eq_true_iff, List.isEmpty_iff] at hnothing
    exact hnothing.elim (fun htrue => absurd (hclosed.symm.trans htrue) Bool.false_ne_true)
      fun hempty => absurd hempty hkeys
  case isFalse hsome =>
    rw [Bool.or_eq_true_iff, not_or] at hsome
    refine Sound.attempt ⟨hcore.push (Bool.not_eq_true _ ▸ hsome.1) ?_ _ _, covered_push _ _ _⟩ _ _
    exact fun r run hget => Nat.lt_of_lt_of_eq (hmines r run hget) heq.1.symm

section

variable (h : s.Sound)
include h

theorem Sound.onSet {but : Nat → Prop} (hkeeps : SubscriptionSet.Keeps but s.set set)
    (hentries : set.entries = s.set.entries) :
    Sound { s with set := set } :=
  ⟨h.core.onSet hkeeps (h.core.named.keeps hkeeps hentries), h.covered.onSet hentries⟩

/-- A subscription that is new to the set has the timer pending. -/
theorem Sound.subscribe (id : K) (onError : Bool) : (s.subscribe id onError).Sound := by
  unfold LiveChannel.subscribe
  split
  case isTrue => exact h
  case isFalse =>
    have hkeeps := SubscriptionSet.keeps_subscribe s.set id onError
    split
    case isTrue =>
      exact ⟨(h.core.onSet hkeeps (h.core.named.subscribe id onError)).schedule, covered_schedule _⟩
    case isFalse hknown =>
      rw [Option.isNone_iff_eq_none] at hknown
      obtain ⟨k, hget⟩ := Option.ne_none_iff_exists'.1 hknown
      exact h.onSet hkeeps (SubscriptionSet.entries_subscribe hget)

/-- So has the last listener of an entry that leaves. -/
theorem Sound.dispose (i : Nat) : (s.dispose i).Sound := by
  have hkeeps := SubscriptionSet.keeps_dispose s.set i
  unfold LiveChannel.dispose
  split
  case isTrue => exact ⟨(h.core.onSet hkeeps (h.core.named.dispose i)).schedule, covered_schedule _⟩
  case isFalse hleft =>
    exact h.onSet hkeeps (SubscriptionSet.entries_dispose (Bool.not_eq_true _ ▸ hleft))

theorem Sound.finish (hstep : s.finish r = some t) : t.Sound := by
  obtain rfl := of_finish hstep
  exact h.setPhase nofun nofun

/-- A run whose signal has been aborted is stale. -/
theorem Sound.drop (hstep : s.drop r = some t) : t.Sound := by
  obtain ⟨run, hget, ⟨hleft, rfl⟩ | rfl⟩ := of_drop hstep
  · refine h.setPhase nofun fun _ run' hget' => ?_
    cases hget.symm.trans hget'
    rcases hleft with hstale | haborted
    · exact h.core.lt_of_stale hget hstale
    · exact h.core.stale r run hget (.inr (.inl haborted))
  · exact h.setPhase nofun nofun

theorem Sound.wake {transport : Bool} (hstep : s.wake o r transport = some t) : t.Sound := by
  obtain ⟨delay, rfl⟩ := of_wake hstep
  exact (h.setDelay r delay).attempt r transport

theorem Sound.close : s.close.Sound := by
  have heq := abort_eq { s with closed := true, timer := false, generation := s.generation + 1 }
  have hcore := h.core.supersede false true
  have hkeeps : SubscriptionSet.Keeps (fun _ => False)
      (LiveChannel.abort { s with
        closed := true, timer := false, generation := s.generation + 1 }).set s.set.clear :=
    SubscriptionSet.keeps_of_made _ (congrArg SubscriptionSet.made heq.2.2.1).symm
  constructor
  case core => exact hcore.onSet hkeeps (SubscriptionSet.named_clear s.set)
  case covered => exact fun _ hclosed => absurd (heq.2.1.symm.trans hclosed) nofun

end

variable [DecidableEq P] {fingerprint : V → Option P}

theorem Sound.deliver (h : s.Sound) (order : List Nat) (i : Nat)
    (payload : Option (LiveFrame V E)) : (s.deliver fingerprint order i payload).Sound := by
  unfold LiveChannel.deliver
  split
  case h_1 v k _ =>
    obtain ⟨hkeeps, hentries⟩ := SubscriptionSet.keeps_deliverValue fingerprint s.set k v
    exact h.onSet hkeeps hentries
  case h_2 e k _ =>
    obtain ⟨hkeeps, hentries⟩ := SubscriptionSet.keeps_deliverError s.set k e
    exact h.onSet hkeeps hentries
  case h_3 => exact h

theorem Sound.frame (h : s.Sound) {i : Nat} {payload : Option (LiveFrame V E)}
    (hstep : s.frame o fingerprint r i payload = some t) : t.Sound := by
  unfold LiveChannel.frame at hstep
  split at hstep
  case h_2 => cases hstep
  case h_1 run hget =>
    split at hstep
    case h_2 => cases hstep
    case h_1 =>
      split at hstep
      case isTrue hstale =>
        cases hstep
        exact h.leave hget hstale
      case isFalse =>
        cases hstep
        exact (h.setDelay r o.retryMs).deliver _ i payload

theorem Sound.step (h : s.Sound) {l : Label K V E} (hstep : s.step o fingerprint l = some t) :
    t.Sound := by
  cases l with
  | subscribe id onError =>
    cases hstep
    exact h.subscribe id onError
  | dispose i =>
    cases hstep
    exact h.dispose i
  | fire transport =>
    obtain ⟨-, rfl⟩ := guard_taken hstep
    have hcleared : Core { s with timer := false } :=
      { h.core with }
    exact hcleared.restart o transport
  | frame r i payload =>
    obtain ⟨-, hstep⟩ := guard_passed hstep
    exact h.frame hstep
  | finish r => exact h.finish hstep
  | drop r => exact h.drop hstep
  | wake r transport => exact h.wake hstep
  | notify =>
    obtain ⟨set, hset, rfl⟩ := Option.map_eq_some_iff.1 hstep
    obtain ⟨hmade, hentries⟩ := SubscriptionSet.notify_made hset
    exact h.onSet (SubscriptionSet.keeps_of_made (fun _ => False) hmade) hentries
  | replay =>
    obtain ⟨-, hstep⟩ := guard_passed hstep
    obtain ⟨set, hset, rfl⟩ := Option.map_eq_some_iff.1 hstep
    obtain ⟨hmade, hentries⟩ := SubscriptionSet.replay_made hset
    exact h.onSet (SubscriptionSet.keeps_of_made (fun _ => False) hmade) hentries
  | close =>
    cases hstep
    exact h.close

theorem sound_of_reachable (h : (liveChannel o fingerprint).Reachable s) : s.Sound := by
  refine h.invariant (I := Sound) ?_ ?_
  · rintro _ rfl
    exact ⟨⟨nofun, nofun, nofun, nofun, nofun, nofun⟩, fun _ _ hkeys => absurd rfl hkeys⟩
  · exact fun _ _ _ hs _ hstep => hs.step hstep

/-! ## Frames -/

/-- Nothing else is handed to an entry. -/
theorem keeps_of_step {l : Label K V E} (hstep : s.step o fingerprint l = some t) :
    SubscriptionSet.Keeps
      (fun k => ∃ r i payload, l = .frame r i payload ∧ s.Addresses r i k) s.set t.set := by
  have hsame : t.set.made = s.set.made → SubscriptionSet.Keeps
      (fun k => ∃ r i payload, l = .frame r i payload ∧ s.Addresses r i k) s.set t.set :=
    SubscriptionSet.keeps_of_made _
  cases l with
  | subscribe id onError =>
    cases hstep
    unfold LiveChannel.subscribe
    split
    case isTrue => exact .refl s.set
    case isFalse =>
      have hkeeps := SubscriptionSet.keeps_subscribe s.set id onError
      split
      case isTrue =>
        rw [schedule_set]
        exact hkeeps.mono fun _ => False.elim
      case isFalse => exact hkeeps.mono fun _ => False.elim
  | dispose i =>
    cases hstep
    have hkeeps := SubscriptionSet.keeps_dispose s.set i
    unfold LiveChannel.dispose
    split
    case isTrue =>
      rw [schedule_set]
      exact hkeeps.mono fun _ => False.elim
    case isFalse => exact hkeeps.mono fun _ => False.elim
  | fire transport =>
    obtain ⟨-, rfl⟩ := guard_taken hstep
    exact hsame (congrArg SubscriptionSet.made (restart_set _ o transport))
  | frame r i payload =>
    obtain ⟨-, hstep⟩ := guard_passed hstep
    exact (keeps_frame hstep).mono fun k hk => ⟨r, i, payload, rfl, hk⟩
  | finish r =>
    obtain rfl := of_finish hstep
    exact hsame rfl
  | drop r =>
    obtain ⟨_, _, ⟨-, rfl⟩ | rfl⟩ := of_drop hstep
    · exact hsame rfl
    · exact hsame rfl
  | wake r transport =>
    obtain ⟨delay, rfl⟩ := of_wake hstep
    exact hsame (congrArg SubscriptionSet.made (attempt_set _ r transport))
  | notify =>
    obtain ⟨set, hset, rfl⟩ := Option.map_eq_some_iff.1 hstep
    exact hsame (SubscriptionSet.notify_made hset).1
  | replay =>
    obtain ⟨-, hstep⟩ := guard_passed hstep
    obtain ⟨set, hset, rfl⟩ := Option.map_eq_some_iff.1 hstep
    exact hsame (SubscriptionSet.replay_made hset).1
  | close =>
    cases hstep
    exact hsame rfl

/-- The set is what a run has sent, or what it sends when it wakes. -/
def Carries (o : LiveChannelOptions) (fingerprint : V → Option P) (s : LiveChannel K P V E)
    (r : Nat) (run : LiveRun) : Prop :=
  (∃ c order, run.phase = .streaming c order ∧
    s.sent[c]? = some (s.set.entries.keys.map some)) ∨
  (run.phase = .retrying ∧ ∃ t, s.step o fingerprint (.wake r true) = some t ∧
    t.runs[r]?.map (·.phase) = some (.streaming s.sent.length s.set.order) ∧
    t.sent = s.sent ++ [s.set.entries.keys.map some])

/-- What the connection of a page promises. -/
structure Covers (o : LiveChannelOptions) (fingerprint : V → Option P)
    (s : LiveChannel K P V E) : Prop where
  /-- The current run carries the set, unless it has returned by itself. -/
  carried : s.timer = false → s.closed = false → s.set.entries.keys ≠ [] →
    ∃ (r : Nat) (run : LiveRun), s.runs[r]? = some run ∧ run.mine = s.generation ∧
      (run.phase ≠ .done → s.Carries o fingerprint r run)
  /-- There is one run of a generation. -/
  unique : ∀ (r r' : Nat) (run run' : LiveRun), s.runs[r]? = some run → s.runs[r']? = some run' →
    run.mine = s.generation → run'.mine = s.generation → r = r'
  /-- Who is handed something is whom the current connection was opened for, at the position
  that the frame bears. -/
  delivered : ∀ l t k entry entry', s.step o fingerprint l = some t →
    s.set.made[k]? = some entry → t.set.made[k]? = some entry' → entry'.frames ≠ entry.frames →
    ∃ r i payload, l = .frame r i payload ∧ ∃ (run : LiveRun) (c : Nat) (order : List Nat),
      s.runs[r]? = some run ∧ run.phase = .streaming c order ∧ s.closed = false ∧
      run.mine = s.generation ∧ c + 1 = s.sent.length ∧ order[i]? = some k ∧
      s.sent[c]?.bind (·[i]?) = some (some entry.id)

/-- A run that is current goes on with the set as it is. -/
theorem Sound.carries (h : s.Sound) (hget : s.runs[r]? = some run) (hclosed : s.closed = false)
    (hgen : run.mine = s.generation)
    (hsent : ∀ c order, run.phase = .streaming c order → order = s.set.order)
    (hdone : run.phase ≠ .done) : s.Carries o fingerprint r run := by
  cases hphase : run.phase with
  | streaming c order =>
    obtain rfl := hsent c order hphase
    refine .inl ⟨c, _, hphase, ?_⟩
    rw [(h.core.opened r run c _ hget hphase).1, h.core.named.order]
  | retrying =>
    have hdelayed : (s.setDelay r (min (run.delay * 2) o.maxRetryMs)).runs[r]? =
        some { run with delay := min (run.delay * 2) o.maxRetryMs } := modify_get_self _ hget
    have hsends := attempt_of_current hdelayed hclosed hgen
    have hwakes := (wake_of_retrying (o := o) true hget hphase).trans (congrArg some hsends)
    refine .inr ⟨hphase, _, hwakes, ?_, ?_⟩
    · exact congrArg (Option.map (·.phase)) (modify_get_self _ hdelayed)
    · exact congrArg (s.sent ++ [·]) h.core.named.order
  | done => exact absurd hphase hdone
  | left => exact absurd hgen (Nat.ne_of_lt (h.core.stale r run hget (.inr (.inr hphase))))

end LiveChannel

/-- **The connection of a page carries the page's set**, whatever is subscribed and disposed
while connections are opened, drop and wait: where no change of the set waits for the timer, the
current run has sent the set or sends it when it wakes, there is one such run, and who is handed
a frame is whom it was sent for at that position. -/
theorem live_channel_covers [DecidableEq K] [DecidableEq P] (o : LiveChannelOptions)
    (fingerprint : V → Option P) {s : LiveChannel K P V E}
    (h : (liveChannel o fingerprint).Reachable s) : s.Covers o fingerprint := by
  have hsound := LiveChannel.sound_of_reachable h
  refine ⟨?_, hsound.core.unique, ?_⟩
  · intro htimer hclosed hkeys
    obtain ⟨r, run, hget, hgen, hsent⟩ := hsound.covered htimer hclosed hkeys
    exact ⟨r, run, hget, hgen, hsound.carries hget hclosed hgen hsent⟩
  · intro l t k entry entry' hstep hentry hentry' hchanged
    obtain ⟨_, hget', -, hframes⟩ := LiveChannel.keeps_of_step hstep k entry hentry
    cases hentry'.symm.trans hget'
    obtain ⟨r, i, payload, rfl, run, c, order, hget, hphase, hclosed, hgen, hk⟩ :=
      Classical.not_not.1 fun hnot => hchanged (hframes hnot)
    refine ⟨r, i, payload, rfl, run, c, order, hget, hphase, hclosed, hgen,
      hsound.core.latest r run c order hget hphase hgen, hk, ?_⟩
    rw [(hsound.core.opened r run c order hget hphase).1, Option.bind_some, List.getElem?_map, hk]
    exact congrArg some (Option.map_eq_some_iff.2 ⟨entry, hentry, rfl⟩)

/-- A subscription is sent, another comes while the first is pushed to, and the connection of
both drops. -/
def joined : List (LiveChannel.Label Nat Nat String) :=
  [.subscribe 7 false, .fire true, .frame 0 0 (some (.value 3)), .notify, .subscribe 8 true,
    .frame 0 0 (some (.value 4)), .notify, .fire true, .drop 0, .frame 1 1 (some (.error "x")),
    .notify, .drop 1]

/-- The run of both is to send both when it wakes. -/
theorem live_channel_covers_joined :
    ∃ s : LiveChannel Nat Nat Nat String, s.Covers {} some ∧ s.sent = [[some 7], [some 7, some 8]] ∧
      s.runs = [⟨1, 1000, .left, true⟩, ⟨2, 1000, .retrying, false⟩] := by
  have hstart : (liveChannel {} some).Reachable ({} : LiveChannel Nat Nat Nat String) := .start rfl
  have hrun := hstart.exec_get joined (by decide)
  exact ⟨_, live_channel_covers {} some hrun, by decide, by decide⟩

end SigxActors.Client
