/-
  Client/LiveCurrent.lean --- what a listener was called with last is what was pushed last.

  A value is suppressed where it is the one delivered last, and a listener that joins is
  served the one delivered last: neither asks whether an error came since.
-/
import SigxActors.Client.LiveShared

set_option autoImplicit false

namespace SigxActors.Client

open SigxActors.Js

variable {K P V E : Type}

/-- Two values that have the same fingerprint are the same. -/
def Injective (fingerprint : V → Option P) : Prop :=
  ∀ u v, (fingerprint u).isSome = true → fingerprint u = fingerprint v → u = v

/-- The last callback of a listener reflects the last frame of its entry; `pending`: it is to be
served from the cache. -/
def Reflects (pending : Prop) (entry : SubscriptionEntry K P V E) (l : LiveListener V E) : Prop :=
  match entry.frames.getLast? with
  | none => l.calls = []
  | some (.value v) => l.calls.getLast? = some (.value v) ∨ l.calls = [] ∧ pending
  | some (.error e) =>
      -- One that has joined since, or has no `onError`, was not told of the error.
      if l.onError = true ∧ l.joined < entry.frames.length then
        l.calls.getLast? = some (.error e)
      else
        (l.calls = [] ∧ (entry.seeded = true → pending)) ∨
        (l.joined < entry.frames.length ∧
          ∃ v, entry.value = some v ∧ l.calls.getLast? = some (.value v))

variable {entry : SubscriptionEntry K P V E} {l : LiveListener V E} {pending : Prop}

theorem Reflects.mono {p q : Prop} (h : Reflects p entry l) (hpending : p → q) :
    Reflects q entry l := by
  unfold Reflects at h ⊢
  split
  · rename_i hlast
    rw [hlast] at h
    exact h
  · rename_i hlast
    rw [hlast] at h
    exact h.imp_right (And.imp_right hpending)
  · rename_i hlast
    rw [hlast] at h
    dsimp only at h
    split
    · rename_i htold
      rw [if_pos htold] at h
      exact h
    · rename_i htold
      rw [if_neg htold] at h
      exact h.imp_left (And.imp_right fun hwait hseeded => hpending (hwait hseeded))

/-- The last frame of an entry was an error. -/
def SubscriptionEntry.failed (entry : SubscriptionEntry K P V E) : Bool :=
  match entry.frames.getLast? with
  | some (.error _) => true
  | _ => false

/-- What the cache of an entry holds. -/
structure SubscriptionEntry.Cached (fingerprint : V → Option P)
    (entry : SubscriptionEntry K P V E) : Prop where
  seeds : entry.seeded = true → ∃ v, entry.value = some v ∧ entry.print = fingerprint v
  fresh : ∀ v, entry.frames.getLast? = some (.value v) →
    entry.seeded = true ∧ entry.value = some v
  blank : entry.frames = [] → entry.seeded = false ∧ entry.value = none

variable {fingerprint : V → Option P}

theorem reflects_new (h : entry.Cached fingerprint) (hpending : entry.seeded = true → pending)
    {listeners : List Nat} {k : Nat} {onError : Bool} :
    Reflects pending { entry with listeners := listeners }
      ({ mine := k, onError := onError, joined := entry.frames.length } : LiveListener V E) := by
  unfold Reflects
  split
  · rfl
  · rename_i v hlast
    exact .inr ⟨rfl, hpending (h.fresh v hlast).1⟩
  · rw [if_neg fun htold => Nat.lt_irrefl _ htold.2]
    exact .inl ⟨rfl, hpending⟩

/-- A value that the entry has is nothing new to a listener that was not told of an error. -/
theorem Reflects.suppressed {v : V} (h : Reflects pending entry l)
    (hcached : entry.Cached fingerprint) (hseeded : entry.seeded = true)
    (hvalue : entry.value = some v) (hcalm : ∀ e, l.calls.getLast? ≠ some (.error e)) :
    Reflects pending { entry with frames := entry.frames ++ [.value v] } l := by
  unfold Reflects at h ⊢
  rw [List.getLast?_concat]
  split at h
  · exact .inr ⟨h, absurd (hcached.blank (List.getLast?_eq_none_iff.1 ‹_›)).1 (by simp [hseeded])⟩
  · rename_i u hlast
    obtain rfl : u = v := Option.some.inj ((hcached.fresh u hlast).2.symm.trans hvalue)
    exact h
  · rename_i e _
    split at h
    · exact absurd h (hcalm e)
    obtain ⟨hnone, hpending⟩ | ⟨-, u, hu, hlast⟩ := h
    · exact .inr ⟨hnone, hpending hseeded⟩
    · cases hu.symm.trans hvalue
      exact .inl hlast

/-- A listener that has no `onError` is where it was before the error. -/
theorem Reflects.untold {e : E} (h : Reflects pending entry l) (hcached : entry.Cached fingerprint)
    (hjoined : l.joined ≤ entry.frames.length) (honError : l.onError = false) :
    Reflects pending { entry with frames := entry.frames ++ [.error e] } l := by
  have hlt : l.joined < (entry.frames ++ [LiveFrame.error e]).length := by
    rw [List.length_append]
    exact Nat.lt_succ_of_le hjoined
  unfold Reflects at h ⊢
  rw [List.getLast?_concat]
  dsimp only
  rw [if_neg fun htold => Bool.false_ne_true (honError.symm.trans htold.1)]
  split at h
  · rename_i hlast
    refine .inl ⟨h, fun hseeded => ?_⟩
    cases hseeded.symm.trans (hcached.blank (List.getLast?_eq_none_iff.1 hlast)).1
  · rename_i v hlast
    obtain hcalled | ⟨hnone, hpending⟩ := h
    · exact .inr ⟨hlt, v, (hcached.fresh v hlast).2, hcalled⟩
    · exact .inl ⟨hnone, fun _ => hpending⟩
  · rw [if_neg fun htold => Bool.false_ne_true (honError.symm.trans htold.1)] at h
    exact h.imp_right (And.imp_left fun _ => hlt)

namespace SubscriptionSet

variable {s t : SubscriptionSet K P V E} {i k : Nat}

/-- Every listener that is attached is up to date, where no callback is on its way. -/
def Current (s : SubscriptionSet K P V E) : Prop :=
  s.notifying = [] → ∀ (k : Nat) entry, s.made[k]? = some entry → ∀ i ∈ entry.listeners,
    ∀ l, s.listeners[i]? = some l → Reflects (i ∈ s.microtasks) entry l

/-- The last callback of a listener was an error. -/
def ToldError (s : SubscriptionSet K P V E) (i : Nat) : Bool :=
  match s.listeners[i]? with
  | some l =>
      match l.calls.getLast? with
      | some (.error _) => true
      | _ => false
  | none => false

/-- A value that is suppressed is no news to a listener, and none is served from the cache after an
error. -/
def Clear [DecidableEq P] (fingerprint : V → Option P) (s : SubscriptionSet K P V E) :
    Label K V E → Prop
  | .value k v =>
      match s.made[k]? with
      | some entry =>
          entry.suppresses fingerprint v = true → ∀ i ∈ entry.listeners, s.ToldError i = false
      | none => True
  | .replay =>
      match s.microtasks with
      | i :: _ => ∀ entry ∈ s.made, i ∈ entry.listeners → entry.failed = false
      | [] => True
  | _ => True

instance [DecidableEq P] (s : SubscriptionSet K P V E) (l : Label K V E) :
    Decidable (s.Clear fingerprint l) := by
  unfold Clear
  split
  · split <;> infer_instance
  · split <;> infer_instance
  · infer_instance

/-- The invariant. -/
structure Sound (fingerprint : V → Option P) (s : SubscriptionSet K P V E) : Prop where
  cached : ∀ (k : Nat) entry, s.made[k]? = some entry → entry.Cached fingerprint
  owned : ∀ (k : Nat) entry, s.made[k]? = some entry → ∀ i ∈ entry.listeners,
    ∃ l, s.listeners[i]? = some l ∧ l.mine = k
  joined : ∀ (i : Nat) l, s.listeners[i]? = some l →
    ∃ entry, s.made[l.mine]? = some entry ∧ l.joined ≤ entry.frames.length
  current : ∀ (k : Nat) entry, s.made[k]? = some entry → ∀ i ∈ entry.listeners,
    ∀ l, s.listeners[i]? = some l → (∀ frame, (i, frame) ∈ s.notifying → l.hears frame = false) →
      Reflects (i ∈ s.microtasks) entry l
  notified : ∀ i frame, (i, frame) ∈ s.notifying → ∃ l entry, s.listeners[i]? = some l ∧
    s.made[l.mine]? = some entry ∧ entry.frames.getLast? = some frame ∧
    l.joined < entry.frames.length

/-! ## Joining and leaving -/

/-- An entry is made. -/
theorem Sound.make (h : s.Sound fingerprint) (id : K) (entries : JsMap K Nat) :
    Sound fingerprint { s with entries := entries, made := s.made ++ [{ id := id }] } := by
  have hold : ∀ {j : Nat} {entry}, s.made[j]? = some entry →
      (s.made ++ [{ id := id }])[j]? = some entry :=
    fun hget => append_get _ hget
  refine
    { cached := fun k entry hget => ?_
      owned := fun k entry hget i hmem => ?_
      joined := fun i l hl => ?_
      current := fun k entry hget i hmem l hl hheard => ?_
      notified := fun i frame hmem => ?_ }
  · obtain ⟨-, rfl⟩ | ⟨-, hget⟩ := of_append_get hget
    · exact ⟨nofun, nofun, fun _ => ⟨rfl, rfl⟩⟩
    · exact h.cached k entry hget
  · obtain ⟨-, rfl⟩ | ⟨-, hget⟩ := of_append_get hget
    · cases hmem
    · exact h.owned k entry hget i hmem
  · obtain ⟨entry, hget, hle⟩ := h.joined i l hl
    exact ⟨entry, hold hget, hle⟩
  · obtain ⟨-, rfl⟩ | ⟨-, hget⟩ := of_append_get hget
    · cases hmem
    · exact h.current k entry hget i hmem l hl hheard
  · obtain ⟨l, entry, hl, hget, hlast⟩ := h.notified i frame hmem
    exact ⟨l, entry, hl, hold hget, hlast⟩

/-- Who is attached to an entry changes, to some of those who were. -/
theorem Sound.leave (h : s.Sound fingerprint) (k : Nat) {left : List Nat}
    (hleft : ∀ entry, s.made[k]? = some entry → left ⊆ entry.listeners) :
    Sound fingerprint { s with
      made := s.made.modify k fun entry => { entry with listeners := left } } := by
  have hmodify : ∀ {j : Nat} {entry}, s.made[j]? = some entry → ∃ entry',
      (s.made.modify k fun entry => { entry with listeners := left })[j]? = some entry' ∧
      entry'.frames = entry.frames := by
    intro j entry hget
    rw [modify_get, hget]
    split <;> exact ⟨_, rfl, rfl⟩
  refine
    { cached := fun j entry hafter => ?_
      owned := fun j entry hafter i hmem => ?_
      joined := fun i l hl => ?_
      current := fun j entry hafter i hmem l hl hheard => ?_
      notified := fun i frame hmem => ?_ }
  · obtain ⟨entry, rfl, hget, rfl⟩ | ⟨-, hget⟩ := of_modify_get hafter
    · exact { (h.cached j entry hget) with }
    · exact h.cached j entry hget
  · obtain ⟨entry, rfl, hget, rfl⟩ | ⟨-, hget⟩ := of_modify_get hafter
    · exact h.owned j entry hget i (hleft entry hget hmem)
    · exact h.owned j entry hget i hmem
  · obtain ⟨entry, hget, hle⟩ := h.joined i l hl
    obtain ⟨entry', hget', hframes⟩ := hmodify hget
    exact ⟨entry', hget', hframes ▸ hle⟩
  · obtain ⟨entry, rfl, hget, rfl⟩ | ⟨-, hget⟩ := of_modify_get hafter
    · exact h.current j entry hget i (hleft entry hget hmem) l hl hheard
    · exact h.current j entry hget i hmem l hl hheard
  · obtain ⟨l, entry, hl, hget, hlast⟩ := h.notified i frame hmem
    obtain ⟨entry', hget', hframes⟩ := hmodify hget
    exact ⟨l, entry', hl, hget', hframes ▸ hlast⟩

theorem Sound.dispose (h : s.Sound fingerprint) [DecidableEq K] (i : Nat) :
    (s.dispose i).Sound fingerprint := by
  unfold SubscriptionSet.dispose
  split
  · exact h
  split
  · exact h
  rename_i listener _ _ entry hget
  split
  · have hsubset : ∀ entry', s.made[listener.mine]? = some entry' →
        entry.listeners.filter (· ≠ i) ⊆ entry'.listeners := by
      intro entry' hget'
      cases hget.symm.trans hget'
      exact List.filter_sublist.subset
    have hleave := h.leave listener.mine hsubset
    dsimp only
    split
    · exact { hleave with }
    · exact hleave
  · exact h

/-- A listener that joins is told nothing yet; where there is a value to serve, it waits for it. -/
theorem Sound.join (h : s.Sound fingerprint) (k : Nat) (onError : Bool) :
    (s.join k onError).Sound fingerprint := by
  unfold SubscriptionSet.join
  split
  · exact h
  rename_i joined hjoined
  have hold : ∀ {i : Nat} {l : LiveListener V E}, s.listeners[i]? = some l →
      (s.listeners ++
        [{ mine := k, onError := onError, joined := joined.frames.length }])[i]? = some l :=
    fun hl => append_get _ hl
  have hmodify : ∀ {j : Nat} {entry}, s.made[j]? = some entry → ∃ entry',
      (s.made.modify k fun entry =>
        { entry with listeners := entry.listeners ++ [s.listeners.length] })[j]? = some entry' ∧
      entry'.frames = entry.frames := by
    intro j entry hget
    rw [modify_get, hget]
    split <;> exact ⟨_, rfl, rfl⟩
  have hqueued : ∀ {i : Nat}, i ∈ s.microtasks →
      i ∈ if joined.seeded then s.microtasks ++ [s.listeners.length] else s.microtasks := by
    intro i hmem
    split
    · exact List.mem_append_left _ hmem
    · exact hmem
  refine
    { cached := fun j entry hafter => ?_
      owned := fun j entry hafter i hmem => ?_
      joined := fun i l hl => ?_
      current := fun j entry hafter i hmem l hl hheard => ?_
      notified := fun i frame hmem => ?_ }
  · obtain ⟨entry, rfl, hget, rfl⟩ | ⟨-, hget⟩ := of_modify_get hafter
    · exact { (h.cached j entry hget) with }
    · exact h.cached j entry hget
  · obtain ⟨entry, rfl, hget, rfl⟩ | ⟨-, hget⟩ := of_modify_get hafter
    · obtain hmem | hmem := List.mem_append.1 hmem
      · obtain ⟨l, hl, hmine⟩ := h.owned j entry hget i hmem
        exact ⟨l, hold hl, hmine⟩
      · obtain rfl := List.mem_singleton.1 hmem
        exact ⟨_, List.getElem?_concat_length, rfl⟩
    · obtain ⟨l, hl, hmine⟩ := h.owned j entry hget i hmem
      exact ⟨l, hold hl, hmine⟩
  · obtain ⟨rfl, rfl⟩ | ⟨-, hl⟩ := of_append_get hl
    · obtain ⟨entry', hget', hframes⟩ := hmodify hjoined
      exact ⟨entry', hget', hframes ▸ Nat.le_refl _⟩
    · obtain ⟨entry, hget, hle⟩ := h.joined i l hl
      obtain ⟨entry', hget', hframes⟩ := hmodify hget
      exact ⟨entry', hget', hframes ▸ hle⟩
  · obtain ⟨rfl, rfl⟩ | ⟨hlt, hbefore⟩ := of_append_get hl
    · obtain ⟨entry, rfl, hget, rfl⟩ | ⟨-, hget⟩ := of_modify_get hafter
      · cases hjoined.symm.trans hget
        refine reflects_new (h.cached j joined hjoined) fun hseeded => ?_
        show _ ∈ if joined.seeded = true then _ else _
        rw [if_pos hseeded]
        exact List.mem_append_right _ (List.mem_singleton.2 rfl)
      · obtain ⟨l, hl, -⟩ := h.owned j entry hget _ hmem
        exact absurd (List.getElem?_eq_some_iff.1 hl).1 (Nat.lt_irrefl _)
    · obtain ⟨entry, rfl, hget, rfl⟩ | ⟨-, hget⟩ := of_modify_get hafter
      · obtain hmem | hmem := List.mem_append.1 hmem
        · exact (h.current j entry hget i hmem l hbefore hheard).mono hqueued
        · obtain rfl := List.mem_singleton.1 hmem
          exact absurd hlt (Nat.lt_irrefl _)
      · exact (h.current j entry hget i hmem l hbefore hheard).mono hqueued
  · obtain ⟨l, entry, hl, hget, hlast⟩ := h.notified i frame hmem
    obtain ⟨entry', hget', hframes⟩ := hmodify hget
    exact ⟨l, entry', hold hl, hget', hframes ▸ hlast⟩

/-! ## Frames -/

/-- An entry is handed a frame: its cache follows, and some listeners are still to be told. -/
theorem Sound.frame (h : s.Sound fingerprint) (hquiet : s.notifying = [])
    {entry : SubscriptionEntry K P V E} (hget : s.made[k]? = some entry)
    {f : SubscriptionEntry K P V E → SubscriptionEntry K P V E} (frame : LiveFrame V E)
    (notifying : List (Nat × LiveFrame V E))
    (hframes : (f entry).frames = entry.frames ++ [frame])
    (hlisteners : (f entry).listeners = entry.listeners) (hcached : (f entry).Cached fingerprint)
    (hnotifying : ∀ q ∈ notifying, q.1 ∈ entry.listeners ∧ q.2 = frame)
    (hcurrent : ∀ i ∈ entry.listeners, ∀ l, s.listeners[i]? = some l →
      l.joined ≤ entry.frames.length →
      (∀ frame, (i, frame) ∈ notifying → l.hears frame = false) →
      Reflects (i ∈ s.microtasks) entry l → Reflects (i ∈ s.microtasks) (f entry) l) :
    Sound fingerprint { s with made := s.made.modify k f, notifying := notifying } := by
  have hlength : entry.frames.length < (f entry).frames.length := by
    rw [hframes, List.length_append]
    exact Nat.lt_succ_self _
  have hold : ∀ i ∈ entry.listeners, ∀ l, s.listeners[i]? = some l →
      l.mine = k ∧ l.joined ≤ entry.frames.length := by
    intro i hmem l hl
    obtain ⟨l', hl', hmine⟩ := h.owned k entry hget i hmem
    cases hl.symm.trans hl'
    obtain ⟨entry', hget', hle⟩ := h.joined i l hl
    cases hget.symm.trans (hmine ▸ hget')
    exact ⟨hmine, hle⟩
  have hafter : (s.made.modify k f)[k]? = some (f entry) := by
    rw [modify_get, if_pos rfl, hget]
    rfl
  have hbefore : ∀ {i : Nat} {l}, s.listeners[i]? = some l →
      ∀ frame, (i, frame) ∈ s.notifying → l.hears frame = false := by
    intro i l _ frame hmem
    rw [hquiet] at hmem
    cases hmem
  refine
    { cached := fun j entry' hget' => ?_
      owned := fun j entry' hget' i hmem => ?_
      joined := fun i l hl => ?_
      current := fun j entry' hget' i hmem l hl hheard => ?_
      notified := fun i frame' hmem => ?_ }
  · obtain ⟨entry'', rfl, hbefore, rfl⟩ | ⟨-, hbefore⟩ := of_modify_get hget'
    · cases hget.symm.trans hbefore
      exact hcached
    · exact h.cached j entry' hbefore
  · obtain ⟨entry'', rfl, hbefore, rfl⟩ | ⟨-, hbefore⟩ := of_modify_get hget'
    · cases hget.symm.trans hbefore
      exact h.owned j entry hget i (hlisteners ▸ hmem)
    · exact h.owned j entry' hbefore i hmem
  · obtain ⟨entry', hget', hle⟩ := h.joined i l hl
    by_cases hmine : l.mine = k
    · cases hget.symm.trans (hmine ▸ hget')
      exact ⟨f entry, hmine ▸ hafter, Nat.le_trans hle (Nat.le_of_lt hlength)⟩
    · refine ⟨entry', ?_, hle⟩
      rw [modify_get, if_neg fun heq => hmine heq.symm]
      exact hget'
  · obtain ⟨entry'', rfl, hentry, rfl⟩ | ⟨-, hentry⟩ := of_modify_get hget'
    · cases hget.symm.trans hentry
      have hmem' : i ∈ entry.listeners := hlisteners ▸ hmem
      exact hcurrent i hmem' l hl (hold i hmem' l hl).2 hheard
        (h.current j entry hget i hmem' l hl (hbefore hl))
    · exact h.current j entry' hentry i hmem l hl (hbefore hl)
  · obtain ⟨hmem', rfl⟩ := hnotifying _ hmem
    obtain ⟨l, hl, -⟩ := h.owned k entry hget i hmem'
    obtain ⟨hmine, hle⟩ := hold i hmem' l hl
    refine ⟨l, f entry, hl, hmine ▸ hafter, ?_, Nat.lt_of_le_of_lt hle hlength⟩
    rw [hframes]
    exact List.getLast?_concat

/-- A value that is suppressed is the one in the cache. -/
theorem value_of_suppresses [DecidableEq P] (hinj : Injective fingerprint) {entry : SubscriptionEntry K P V E}
    (hcached : entry.Cached fingerprint) {v : V}
    (h : entry.suppresses fingerprint v = true) : entry.seeded = true ∧ entry.value = some v := by
  unfold SubscriptionEntry.suppresses at h
  rw [Bool.and_eq_true, Bool.and_eq_true, beq_iff_eq] at h
  obtain ⟨⟨hseeded, hsome⟩, hprint⟩ := h
  obtain ⟨u, hvalue, hu⟩ := hcached.seeds hseeded
  obtain rfl : v = u := hinj v u hsome (hprint.trans hu)
  exact ⟨hseeded, hvalue⟩

theorem Sound.deliverValue [DecidableEq P] (h : s.Sound fingerprint) (hinj : Injective fingerprint)
    (hquiet : s.notifying = []) {v : V}
    (hclear : ∀ entry, s.made[k]? = some entry → entry.suppresses fingerprint v = true →
      ∀ i ∈ entry.listeners, s.ToldError i = false) :
    (s.deliverValue fingerprint k v).1.Sound fingerprint := by
  unfold SubscriptionSet.deliverValue
  split
  · exact h
  rename_i entry hget
  have hcached := h.cached k entry hget
  split
  · rename_i hsuppresses
    obtain ⟨hseeded, hvalue⟩ := value_of_suppresses hinj hcached hsuppresses
    have hafter := h.frame hquiet hget (f := fun e => { e with frames := entry.frames ++ [.value v] })
      (.value v) [] rfl rfl ?_ nofun ?_
    · rw [← hquiet] at hafter
      exact hafter
    · refine ⟨hcached.seeds, fun u hlast => ?_, fun hnil => ?_⟩
      · rw [List.getLast?_concat] at hlast
        cases hlast
        exact ⟨hseeded, hvalue⟩
      · exact absurd hnil (by simp)
    · intro i hmem l hl _ _ hreflects
      refine Reflects.suppressed hreflects hcached hseeded hvalue fun e hlast => ?_
      have hcalm := hclear entry hget hsuppresses i hmem
      unfold ToldError at hcalm
      rw [hl] at hcalm
      dsimp only at hcalm
      rw [hlast] at hcalm
      cases hcalm
  · refine h.frame hquiet hget (.value v) _ rfl rfl ?_ ?_ ?_
    · refine ⟨fun _ => ⟨v, rfl, rfl⟩, fun u hlast => ?_, fun hnil => ?_⟩
      · rw [List.getLast?_concat] at hlast
        cases hlast
        exact ⟨rfl, rfl⟩
      · exact absurd hnil (by simp)
    · intro q hmem
      obtain ⟨i, hi, rfl⟩ := List.mem_map.1 hmem
      exact ⟨hi, rfl⟩
    · intro i hmem l _ _ hheard _
      have htold := hheard (.value v) (List.mem_map.2 ⟨i, hmem, rfl⟩)
      cases htold

theorem Sound.deliverError (h : s.Sound fingerprint) (hquiet : s.notifying = []) (e : E) :
    (s.deliverError k e).Sound fingerprint := by
  unfold SubscriptionSet.deliverError
  split
  · exact h
  rename_i entry hget
  have hcached := h.cached k entry hget
  refine h.frame hquiet hget (.error e) _ rfl rfl ?_ ?_ ?_
  · refine ⟨hcached.seeds, fun u hlast => ?_, fun hnil => absurd hnil (by simp)⟩
    rw [List.getLast?_concat] at hlast
    cases hlast
  · intro q hmem
    obtain ⟨i, hi, rfl⟩ := List.mem_map.1 hmem
    exact ⟨hi, rfl⟩
  · intro i hmem l _ hjoined hheard hreflects
    exact Reflects.untold hreflects hcached hjoined
      (hheard (.error e) (List.mem_map.2 ⟨i, hmem, rfl⟩))

/-! ## Callbacks -/

/-- A listener is called: what it is called with is its last callback, if it has one for it. -/
theorem Sound.call (h : s.Sound fingerprint) {microtasks : List Nat}
    {notifying : List (Nat × LiveFrame V E)} {frame : LiveFrame V E}
    (hmicrotasks : ∀ j, j ≠ i → j ∈ s.microtasks → j ∈ microtasks)
    (hnotifying : ∀ q ∈ notifying, q ∈ s.notifying)
    (hothers : ∀ j, j ≠ i → ∀ frame, (j, frame) ∈ s.notifying → (j, frame) ∈ notifying)
    (hcalled : ∀ (k : Nat) entry, s.made[k]? = some entry → i ∈ entry.listeners →
      ∀ l, s.listeners[i]? = some l →
      (∀ frame, (i, frame) ∈ notifying → l.hears frame = false) →
      Reflects (i ∈ microtasks) entry
        (if l.hears frame then { l with calls := l.calls ++ [frame] } else l)) :
    Sound fingerprint { s with
      microtasks := microtasks
      notifying := notifying
      listeners := s.listeners.modify i fun l =>
        if l.hears frame then { l with calls := l.calls ++ [frame] } else l } := by
  have hsame : ∀ l : LiveListener V E,
      (if l.hears frame then { l with calls := l.calls ++ [frame] } else l).mine = l.mine ∧
      (if l.hears frame then { l with calls := l.calls ++ [frame] } else l).joined = l.joined ∧
      (if l.hears frame then { l with calls := l.calls ++ [frame] } else l).onError =
        l.onError := by
    intro l
    split <;> exact ⟨rfl, rfl, rfl⟩
  have hold : ∀ {j : Nat} {l}, s.listeners[j]? = some l → ∃ l',
      (s.listeners.modify i fun l =>
        if l.hears frame then { l with calls := l.calls ++ [frame] } else l)[j]? = some l' ∧
      l'.mine = l.mine ∧ l'.joined = l.joined := by
    intro j l hl
    rw [modify_get, hl]
    split
    · exact ⟨_, rfl, (hsame l).1, (hsame l).2.1⟩
    · exact ⟨l, rfl, rfl, rfl⟩
  refine
    { cached := h.cached
      owned := fun k entry hget j hmem => ?_
      joined := fun j l' hl' => ?_
      current := fun k entry hget j hmem l' hl' hheard => ?_
      notified := fun j frame' hmem => ?_ }
  · obtain ⟨l, hl, hmine⟩ := h.owned k entry hget j hmem
    obtain ⟨l', hl', hmine', -⟩ := hold hl
    exact ⟨l', hl', hmine'.trans hmine⟩
  · obtain ⟨l, rfl, hl, rfl⟩ | ⟨-, hl⟩ := of_modify_get hl'
    · obtain ⟨entry, hget, hle⟩ := h.joined j l hl
      exact ⟨entry, (hsame l).1.symm ▸ hget, (hsame l).2.1.symm ▸ hle⟩
    · exact h.joined j l' hl
  · obtain ⟨l, rfl, hl, rfl⟩ | ⟨hne, hl⟩ := of_modify_get hl'
    · refine hcalled k entry hget hmem l hl fun frame' hmem' => ?_
      have hhears := hheard frame' hmem'
      cases frame' with
      | value v => exact hhears
      | error e => exact (hsame l).2.2.symm.trans hhears
    · exact (h.current k entry hget j hmem l' hl fun frame' hmem' =>
        hheard frame' (hothers j hne frame' hmem')).mono (hmicrotasks j hne)
  · obtain ⟨l, entry, hl, hget, hlast, hlt⟩ := h.notified j frame' (hnotifying _ hmem)
    obtain ⟨l', hl', hmine, hjoined⟩ := hold hl
    exact ⟨l', entry, hl', hmine.symm ▸ hget, hlast, hjoined.symm ▸ hlt⟩

theorem Sound.notify (h : s.Sound fingerprint) (hstep : s.notify = some t) :
    t.Sound fingerprint := by
  unfold SubscriptionSet.notify at hstep
  split at hstep
  · cases hstep
  rename_i i frame rest hnotifying
  cases hstep
  refine h.call (fun _ _ hmem => hmem) (fun q hmem => ?_) (fun j hne frame' hmem => ?_)
    fun k entry hget hmem l hl hheard => ?_
  · rw [hnotifying]
    exact List.mem_cons_of_mem _ hmem
  · rw [hnotifying] at hmem
    obtain heq | hmem := List.mem_cons.1 hmem
    · exact absurd (Prod.mk.inj heq).1 hne
    · exact hmem
  · by_cases hhears : l.hears frame = true
    · rw [if_pos hhears]
      obtain ⟨l', entry', hl', hget', hlast, hlt⟩ :=
        h.notified i frame (hnotifying ▸ List.mem_cons_self ..)
      cases hl.symm.trans hl'
      obtain ⟨l', hl', hmine⟩ := h.owned k entry hget i hmem
      cases hl.symm.trans hl'
      cases hget.symm.trans (hmine ▸ hget')
      unfold Reflects
      rw [hlast]
      cases frame with
      | value v => exact .inl List.getLast?_concat
      | error e =>
        dsimp only
        rw [if_pos ⟨hhears, hlt⟩]
        exact List.getLast?_concat
    · rw [if_neg hhears]
      refine h.current k entry hget i hmem l hl fun frame' hmem' => ?_
      rw [hnotifying] at hmem'
      obtain heq | hmem' := List.mem_cons.1 hmem'
      · obtain rfl := (Prod.mk.inj heq).2
        exact Bool.eq_false_iff.2 hhears
      · exact hheard frame' hmem'

/-- A microtask has run, and there was nothing to serve. -/
theorem Sound.pop (h : s.Sound fingerprint) {rest : List Nat} (hqueue : s.microtasks = i :: rest)
    (hserved : ∀ (k : Nat) entry, s.made[k]? = some entry → i ∈ entry.listeners →
      entry.value = none ∧ entry.failed = false) :
    Sound fingerprint { s with microtasks := rest } :=
  { h with
    current := fun k entry hget j hmem l hl hheard => by
      have hreflects := h.current k entry hget j hmem l hl hheard
      by_cases hj : j = i
      · subst hj
        obtain ⟨hvalue, hcalm⟩ := hserved k entry hget hmem
        unfold Reflects at hreflects ⊢
        split
        · rename_i hlast
          rw [hlast] at hreflects
          exact hreflects
        · rename_i v hlast
          cases hvalue.symm.trans ((h.cached k entry hget).fresh v hlast).2
        · rename_i e hlast
          unfold SubscriptionEntry.failed at hcalm
          rw [hlast] at hcalm
          cases hcalm
      · refine hreflects.mono fun hpending => ?_
        rw [hqueue] at hpending
        exact (List.mem_cons.1 hpending).resolve_left hj }

theorem Sound.replay [DecidableEq P] [DecidableEq K] (h : s.Sound fingerprint)
    (hclear : s.Clear fingerprint .replay) (hstep : s.replay = some t) : t.Sound fingerprint := by
  unfold SubscriptionSet.replay at hstep
  split at hstep
  · cases hstep
  rename_i i rest hqueue
  have hcalm : ∀ (k : Nat) entry, s.made[k]? = some entry → i ∈ entry.listeners →
      entry.failed = false := by
    intro k entry hget hmem
    unfold Clear at hclear
    rw [hqueue] at hclear
    exact hclear entry (List.mem_of_getElem? hget) hmem
  dsimp only at hstep
  split at hstep
  · rename_i hnone
    cases hstep
    refine h.pop hqueue fun k entry hget hmem => ?_
    obtain ⟨l, hl, -⟩ := h.owned k entry hget i hmem
    cases hnone.symm.trans hl
  · rename_i listener hl
    have hmine : ∀ (k : Nat) entry, s.made[k]? = some entry → i ∈ entry.listeners →
        s.made[listener.mine]? = some entry := by
      intro k entry hget hmem
      obtain ⟨l, hl', hmine⟩ := h.owned k entry hget i hmem
      cases hl.symm.trans hl'
      exact hmine ▸ hget
    split at hstep
    · rename_i hnone
      cases hstep
      refine h.pop hqueue fun k entry hget hmem => ?_
      cases hnone.symm.trans (hmine k entry hget hmem)
    · rename_i entry hentry
      have hentry' : ∀ (k : Nat) entry', s.made[k]? = some entry' → i ∈ entry'.listeners →
          entry' = entry := fun k entry' hget hmem =>
        (Option.some.inj (hentry.symm.trans (hmine k entry' hget hmem))).symm
      split at hstep
      · rename_i hvalue
        cases hstep
        refine h.pop hqueue fun k entry' hget hmem => ?_
        obtain rfl := hentry' k entry' hget hmem
        exact ⟨hvalue, hcalm k entry' hget hmem⟩
      · rename_i v hvalue
        cases hstep
        split
        · refine h.call (fun j hne hmem => ?_) (fun _ hmem => hmem) (fun _ _ _ hmem => hmem)
            fun k entry' hget hmem l hl' hheard => ?_
          · rw [hqueue] at hmem
            exact (List.mem_cons.1 hmem).resolve_left hne
          · obtain rfl := hentry' k entry' hget hmem
            have hfailed := hcalm k entry' hget hmem
            unfold Reflects
            split
            · rename_i hlast
              have hblank := ((h.cached k entry' hget).blank (List.getLast?_eq_none_iff.1 hlast)).2
              cases hblank.symm.trans hvalue
            · rename_i u hlast
              obtain rfl := Option.some.inj
                (((h.cached k entry' hget).fresh u hlast).2.symm.trans hvalue)
              exact .inl List.getLast?_concat
            · rename_i e hlast
              unfold SubscriptionEntry.failed at hfailed
              rw [hlast] at hfailed
              cases hfailed
        · rename_i hnot
          refine h.pop hqueue fun k entry' hget hmem => ?_
          obtain rfl := hentry' k entry' hget hmem
          exact absurd hmem hnot

/-! ## Steps -/

theorem Sound.step [DecidableEq P] [DecidableEq K] {l : Label K V E} (hinj : Injective fingerprint)
    (h : s.Sound fingerprint) (hclear : s.Clear fingerprint l)
    (hstep : SubscriptionSet.step fingerprint s l = some t) : t.Sound fingerprint := by
  cases l with
  | subscribe id onError =>
    cases hstep
    unfold SubscriptionSet.subscribe SubscriptionSet.resolve
    split
    · exact h.join _ onError
    · exact (h.make id _).join _ onError
  | dispose i =>
    cases hstep
    exact h.dispose i
  | value k v =>
    obtain ⟨hquiet, rfl⟩ := guard_taken hstep
    refine h.deliverValue hinj (List.isEmpty_iff.1 hquiet) fun entry hget hsuppresses => ?_
    unfold Clear at hclear
    dsimp only at hclear
    rw [hget] at hclear
    exact hclear hsuppresses
  | error k e =>
    obtain ⟨hquiet, rfl⟩ := guard_taken hstep
    exact h.deliverError (List.isEmpty_iff.1 hquiet) e
  | notify => exact h.notify hstep
  | replay =>
    obtain ⟨-, hstep⟩ := guard_passed hstep
    exact h.replay hclear hstep
  | clear =>
    cases hstep
    exact { h with }

theorem sound_initial : Sound fingerprint ({} : SubscriptionSet K P V E) where
  cached _ _ hget := by cases hget
  owned _ _ hget := by cases hget
  joined _ _ hl := by cases hl
  current _ _ hget := by cases hget
  notified _ _ hmem := by cases hmem

end SubscriptionSet

/-- **What a listener was called with last is what was pushed last**, in a run in which no value
after an error is suppressed, and none is served before one has come. -/
theorem current_of_clear [DecidableEq K] [DecidableEq P] {fingerprint : V → Option P}
    (hinj : Injective fingerprint) {s : SubscriptionSet K P V E}
    (h : (subscriptionSet fingerprint).Reach (SubscriptionSet.Clear fingerprint) s) :
    s.Current := by
  have hsound : s.Sound fingerprint := by
    refine h.invariant (fun s hinit => ?_) fun s l t hs hclear hstep => hs.step hinj hclear hstep
    obtain rfl : s = {} := hinit
    exact SubscriptionSet.sound_initial
  intro hquiet k entry hget i hmem l hl
  refine hsound.current k entry hget i hmem l hl fun frame htold => ?_
  rw [hquiet] at htold
  cases htold

/-- A value, an error, a value that is new, and the same again as after a reconnect. -/
def renewed : List (SubscriptionSet.Label Nat Nat String) :=
  [.subscribe 0 true, .value 0 1, .notify, .error 0 "x", .notify, .value 0 2, .notify, .value 0 2]

theorem current_renewed : ∃ s : SubscriptionSet Nat Nat Nat String, s.Current ∧
      s.listeners = [⟨0, true, 0, [.value 1, .error "x", .value 2]⟩] := by
  have hstart : (subscriptionSet some).Reach
      (SubscriptionSet.Clear (E := String) (K := Nat) (some : Nat → Option Nat)) {} := .start rfl
  have hrun := hstart.exec_get renewed (by decide)
  exact ⟨_, current_of_clear (fun _ _ _ heq => Option.some.inj heq) hrun, by decide⟩

/-- A value, an error, and the value again. -/
def recovered : List (SubscriptionSet.Label Nat Nat String) :=
  [.subscribe 0 true, .value 0 1, .notify, .error 0 "x", .notify, .value 0 1]

/-- A listener joins after the error. -/
def late : List (SubscriptionSet.Label Nat Nat String) :=
  [.subscribe 0 true, .value 0 1, .notify, .error 0 "x", .notify, .subscribe 0 true, .replay]

/-- One listener is left with the error; the other is served what was before it. -/
theorem not_current :
    (∃ s : SubscriptionSet Nat Nat Nat String, (subscriptionSet some).Reachable s ∧
      (∃ entry ∈ s.made, entry.frames = [.value 1, .error "x", .value 1]) ∧
      s.listeners = [⟨0, true, 0, [.value 1, .error "x"]⟩] ∧ ¬ s.Current) ∧
    ∃ s : SubscriptionSet Nat Nat Nat String, (subscriptionSet some).Reachable s ∧
      (∃ entry ∈ s.made, entry.frames = [.value 1, .error "x"]) ∧
      s.listeners = [⟨0, true, 0, [.value 1, .error "x"]⟩, ⟨0, true, 2, [.value 1]⟩] ∧
      ¬ s.Current := by
  have hstart : (subscriptionSet (some : Nat → Option Nat)).Reachable
      ({} : SubscriptionSet Nat Nat Nat String) := .start rfl
  refine ⟨⟨_, hstart.exec_get recovered (by decide), by decide, by decide, fun hcurrent => ?_⟩,
    ⟨_, hstart.exec_get late (by decide), by decide, by decide, fun hcurrent => ?_⟩⟩
  · obtain hcalled | ⟨hnone, -⟩ := hcurrent rfl 0 _ rfl 0 (by decide) _ rfl
    · exact absurd hcalled (by decide)
    · exact absurd hnone (by decide)
  · obtain ⟨hnone, -⟩ | ⟨hearlier, -⟩ := hcurrent rfl 0 _ rfl 1 (by decide) _ rfl
    · exact absurd hnone (by decide)
    · exact absurd hearlier (by decide)

end SigxActors.Client
