/-
  Host/WatchIsolation.lean --- no subscriber is served another's identity.

  Whatever a step does to a fan-out, its subscribers keep what they had, pass it on, or
  gain what the step pushes; and only an attached one gains.  A value computed from a
  principal is pushed by a settled entry, whose attached subscribers all present that
  principal: the sweep made it so, and from then on the entry's key is only joined by
  subscribers of that principal.
-/
import SigxActors.Host.WatchIdentity

set_option autoImplicit false

namespace SigxActors.Host

open SigxActors.Js

/-! ## What a fan-out's subscribers gain -/

section

variable {V E : Type} {newV newV' : V → Prop} {newE newE' : E → Prop}

/-- A subscriber gains nothing but what is pushed to it while it is attached. -/
structure Gains (newV : V → Prop) (newE : E → Prop) (sub sub' : Subscriber V E) : Prop where
  attached : sub'.attached = true → sub.attached = true
  values : ∀ v, v ∈ sub'.queue ++ sub'.received →
    v ∈ sub.queue ++ sub.received ∨ (sub.attached = true ∧ newV v)
  errors : ∀ e, sub'.failed = some e → sub.failed = some e ∨ (sub.attached = true ∧ newE e)

/-- The same of all the subscribers of a fan-out, and of its last value. -/
structure Moves (newV : V → Prop) (newE : E → Prop) (w w' : Watch V E) : Prop where
  length : w'.subs.length = w.subs.length
  last : ∀ v, w'.last = some v → w.last = some v ∨ newV v
  subs : ∀ (j : Nat) (sub' : Subscriber V E), w'.subs[j]? = some sub' →
    ∃ sub, w.subs[j]? = some sub ∧ Gains newV newE sub sub'

theorem Gains.refl (sub : Subscriber V E) : Gains newV newE sub sub :=
  ⟨id, fun _ => .inl, fun _ => .inl⟩

variable {sub sub' : Subscriber V E} {w w' : Watch V E} {i : Nat}

theorem Gains.trans {sub'' : Subscriber V E} (h : Gains newV newE sub sub')
    (h' : Gains newV newE sub' sub'') : Gains newV newE sub sub'' := by
  refine ⟨fun hattached => h.attached (h'.attached hattached), ?_, ?_⟩
  · intro v hv
    rcases h'.values v hv with hv | ⟨hattached, hnew⟩
    · exact h.values v hv
    · exact .inr ⟨h.attached hattached, hnew⟩
  · intro e he
    rcases h'.errors e he with he | ⟨hattached, hnew⟩
    · exact h.errors e he
    · exact .inr ⟨h.attached hattached, hnew⟩

theorem Gains.mono (h : Gains newV newE sub sub') (hV : ∀ v, newV v → newV' v)
    (hE : ∀ e, newE e → newE' e) : Gains newV' newE' sub sub' :=
  ⟨h.attached, fun v hv => (h.values v hv).imp_right (And.imp_right (hV v)),
    fun e he => (h.errors e he).imp_right (And.imp_right (hE e))⟩

theorem Moves.refl (w : Watch V E) : Moves newV newE w w :=
  ⟨rfl, fun _ => .inl, fun _ sub hsub => ⟨sub, hsub, .refl sub⟩⟩

theorem Moves.trans {w'' : Watch V E} (h : Moves newV newE w w') (h' : Moves newV newE w' w'') :
    Moves newV newE w w'' := by
  refine ⟨h'.length.trans h.length, ?_, ?_⟩
  · intro v hv
    rcases h'.last v hv with hv | hnew
    · exact h.last v hv
    · exact .inr hnew
  · intro j sub'' hsub''
    obtain ⟨sub', hsub', hgains'⟩ := h'.subs j sub'' hsub''
    obtain ⟨sub, hsub, hgains⟩ := h.subs j sub' hsub'
    exact ⟨sub, hsub, hgains.trans hgains'⟩

theorem Moves.mono (h : Moves newV newE w w') (hV : ∀ v, newV v → newV' v)
    (hE : ∀ e, newE e → newE' e) : Moves newV' newE' w w' := by
  refine ⟨h.length, fun v hv => (h.last v hv).imp_right (hV v), ?_⟩
  intro j sub' hsub'
  obtain ⟨sub, hsub, hgains⟩ := h.subs j sub' hsub'
  exact ⟨sub, hsub, hgains.mono hV hE⟩

/-- A step that leaves the subscribers and the last value alone. -/
theorem Moves.of_eq (hsubs : w'.subs = w.subs) (hlast : w'.last = w.last) :
    Moves newV newE w w' := by
  refine ⟨by rw [hsubs], fun v hv => .inl (hlast ▸ hv), ?_⟩
  intro j sub hsub
  rw [hsubs] at hsub
  exact ⟨sub, hsub, .refl sub⟩

theorem gains_wakeUp (sub : Subscriber V E) : Gains newV newE sub sub.wakeUp := by
  unfold Subscriber.wakeUp
  split
  · split
    · exact ⟨id, fun _ => .inl, fun _ => .inl⟩
    · exact .refl sub
  · exact .refl sub

/-- One subscriber moves on. -/
theorem Moves.set (hsub : w.subs[i]? = some sub) (hgains : Gains newV newE sub sub') :
    Moves newV newE w { w with subs := w.subs.set i sub' } := by
  refine ⟨by simp, fun v => .inl, ?_⟩
  intro j sub'' hsub''
  rw [List.getElem?_set] at hsub''
  split at hsub''
  · rename_i heq
    subst heq
    split at hsub''
    · cases hsub''
      exact ⟨sub, hsub, hgains⟩
    · simp at hsub''
  · exact ⟨sub'', hsub'', .refl sub''⟩

theorem Moves.deliverAll {f : Subscriber V E → Subscriber V E}
    (hf : ∀ sub : Subscriber V E, sub.attached = true → Gains newV newE sub (f sub)) :
    Moves newV newE w (w.deliverAll f) := by
  refine ⟨by simp [Watch.deliverAll], fun v => .inl, ?_⟩
  intro j sub' hsub'
  simp only [Watch.deliverAll, List.getElem?_map, Option.map_eq_some_iff] at hsub'
  obtain ⟨sub, hsub, rfl⟩ := hsub'
  refine ⟨sub, hsub, ?_⟩
  split
  · rename_i hattached
    exact hf sub hattached
  · exact .refl sub

theorem Moves.drop (w : Watch V E) (i : Nat) : Moves newV newE w (w.drop i) := by
  have hdone : ∀ sub : Subscriber V E, Gains newV newE sub { sub with done := true } :=
    fun _ => ⟨id, fun _ => .inl, fun _ => .inl⟩
  unfold Watch.drop
  split
  · rename_i sub hsub
    have hgone : Gains newV newE sub { { sub with done := true }.wakeUp with attached := false } := by
      have hwoken := (hdone sub).trans (gains_wakeUp _)
      exact ⟨by simp, hwoken.values, hwoken.errors⟩
    simp only
    split
    · split
      · exact Moves.set hsub hgone
      · exact (Moves.set hsub hgone).trans (.of_eq rfl rfl)
    · exact Moves.set hsub ((hdone sub).trans (gains_wakeUp _))
  · exact .refl w

/-- A dropped subscriber is out of the fan-out's set. -/
theorem detached_drop (hsub : (w.drop i).subs[i]? = some sub) : sub.attached = false := by
  unfold Watch.drop at hsub
  split at hsub
  · rename_i old hold
    have hlt := (List.getElem?_eq_some_iff.1 hold).1
    simp only at hsub
    split at hsub
    · have hset : ∀ subs : List (Subscriber V E), subs = w.subs.set i
          { { old with done := true }.wakeUp with attached := false } → subs[i]? = some sub →
          sub.attached = false := by
        rintro _ rfl hget
        rw [List.getElem?_set_self hlt] at hget
        cases hget
        rfl
      split at hsub <;> exact hset _ rfl hsub
    · rename_i hattached
      rw [List.getElem?_set_self hlt] at hsub
      cases hsub
      have hgains : Gains (fun _ : V => False) (fun _ : E => False) { old with done := true }
          ({ old with done := true } : Subscriber V E).wakeUp := gains_wakeUp _
      have hold := hgains.attached
      cases hwoken : ({ old with done := true } : Subscriber V E).wakeUp.attached with
      | false => rfl
      | true => exact absurd (hold hwoken) hattached
  · rename_i hnone
    rw [hnone] at hsub
    simp at hsub

theorem Moves.next {pull : Nat} {old : Subscriber V E} (hold : w.subs[i]? = some old)
    (hgains : Gains newV newE old sub) : Moves newV newE w (w.next i pull sub) := by
  unfold Watch.next
  split
  · rename_i v queue hqueue
    refine Moves.set hold (hgains.trans ⟨id, ?_, fun _ => .inl⟩)
    intro v' hv'
    refine .inl ?_
    rw [hqueue]
    simp only [List.mem_append, List.mem_cons, List.not_mem_nil, or_false] at hv' ⊢
    rcases hv' with hqueue | hreceived | rfl
    · exact .inl (.inr hqueue)
    · exact .inr hreceived
    · exact .inl (.inl rfl)
  · split
    · have hcleared : Gains newV newE sub { sub with failed := none } :=
        ⟨id, fun _ => .inl, by simp⟩
      exact (Moves.set hold (hgains.trans hcleared)).trans (.drop _ i)
    · split
      · exact (Moves.set hold hgains).trans (.drop _ i)
      · exact Moves.set hold (hgains.trans ⟨id, fun _ => .inl, fun _ => .inl⟩)

theorem Moves.pull (h : w.pull i = some w') : Moves newV newE w w' := by
  unfold Watch.pull at h
  split at h
  · rename_i sub hsub
    cases h
    exact Moves.next hsub ⟨id, fun _ => .inl, fun _ => .inl⟩
  · simp at h

theorem Moves.goOn {pull : Nat} (h : w.goOn i pull = some w') : Moves newV newE w w' := by
  unfold Watch.goOn at h
  split at h
  · rename_i sub hsub
    obtain ⟨-, rfl⟩ := guard_taken h
    exact Moves.next hsub ⟨id, fun _ => .inl, fun _ => .inl⟩
  · simp at h

theorem Moves.push (w : Watch V E) (v : V) : Moves (· = v) newE w (w.push v) := by
  have hpushed : ∀ sub : Subscriber V E, sub.attached = true → Gains (· = v) newE sub (sub.push v) := by
    intro sub hattached
    refine Gains.trans ?_ (gains_wakeUp _)
    refine ⟨id, ?_, fun _ => .inl⟩
    intro v' hv'
    simp only [List.mem_append] at hv' ⊢
    rcases hv' with hv' | hv'
    · have hqueue : v' ∈ sub.queue ++ [v] := by
        split at hv'
        · exact List.mem_of_mem_tail hv'
        · exact hv'
      rcases List.mem_append.1 hqueue with hqueue | hlast
      · exact .inl (.inl hqueue)
      · exact .inr ⟨hattached, List.mem_singleton.1 hlast⟩
    · exact .inl (.inr hv')
  have hmoves := Moves.deliverAll (w := w) hpushed
  exact { hmoves with last := fun v' hv' => .inr (Option.some.inj hv').symm }

theorem Moves.fail (w : Watch V E) (e : E) : Moves newV (· = e) w (w.fail e) := by
  refine Moves.deliverAll fun sub hattached => ?_
  refine Gains.trans ?_ (gains_wakeUp _)
  exact ⟨id, fun _ => .inl, fun e' he' => .inr ⟨hattached, (Option.some.inj he').symm⟩⟩

theorem Moves.finish (w : Watch V E) : Moves newV newE w w.finish := by
  have hfinished : Moves newV newE w (w.deliverAll (·.finish)) := by
    refine Moves.deliverAll fun sub _ => ?_
    have hdone : Gains newV newE sub { sub with done := true } :=
      ⟨id, fun _ => .inl, fun _ => .inl⟩
    exact hdone.trans (gains_wakeUp _)
  exact hfinished.trans (.of_eq rfl rfl)

theorem Moves.readDone {fingerprint : V → Option String} {v : V}
    (h : w.readDone fingerprint v = some w') : Moves (· = v) newE w w' := by
  unfold Watch.readDone at h
  split at h
  · rename_i initial _
    cases h
    have hdelivered : Moves (· = v) newE w
        { w.deliver fingerprint v initial with lastRead := some v } := by
      unfold Watch.deliver
      split
      · exact .of_eq rfl rfl
      · have hpushed : Moves (· = v) newE _ _ := Moves.push { w with print := fingerprint v } v
        exact { hpushed with }
    refine hdelivered.trans ?_
    unfold Watch.loopHead
    split
    · exact .finish _
    · exact .of_eq rfl rfl
  · simp at h

theorem Moves.readFails {e : E} (h : w.readFails e = some w') : Moves newV (· = e) w w' := by
  unfold Watch.readFails at h
  split at h
  · cases h
    split
    · exact .finish w
    · exact (Moves.fail w e).trans (.finish _)
  · simp at h

end

theorem Moves.feed {V E : Type} {newV : Computed V → Prop} {w w' : Watch (Computed V) (Computed E)}
    {e : WatchActivation.FeedEvent E} (h : WatchActivation.FeedEvent.step w e = some w') :
    Moves newV (fun error => error.consulted = []) w w' := by
  cases e with
  | notify =>
    obtain ⟨-, rfl⟩ := guard_past_taken h
    exact .of_eq rfl rfl
  | pump =>
    obtain ⟨-, h⟩ := guard_passed h
    split at h
    all_goals
      cases h
      exact .of_eq rfl rfl
  | closeFeed =>
    cases h
    exact .of_eq rfl rfl
  | pumpEnds =>
    obtain ⟨-, rfl⟩ := guard_taken h
    exact .of_eq rfl rfl
  | pumpFails e =>
    obtain ⟨-, rfl⟩ := guard_taken h
    split
    · exact .of_eq rfl rfl
    have hfailed : Moves newV (· = ({ value := e } : Computed E)) _ _ :=
      Moves.fail { w with pumping := false, feedClosed := true } { value := e }
    have hmono := hfailed.mono (fun _ => id) (fun error herror => congrArg (·.consulted) herror)
    exact { hmono with }
  | changed | settled =>
    obtain ⟨-, rfl⟩ := guard_taken h
    split
    · exact .finish w
    · exact .of_eq rfl rfl

/-! ## The invariant -/

section

variable {V E : Type}

/-- No principal but `p` was consulted. -/
def OnlyOf (p : Principal) (consulted : List Principal) : Prop := ∀ q ∈ consulted, q = p

def Invocation.consulted : Invocation V E → List Principal
  | .idle => []
  | .queued => []
  | .running consulted => consulted
  | .ended _ consulted => consulted
  | .swept _ consulted => consulted

/-- What the entry may push: what depends on an identity is pushed when the entry is
settled, and depends on its own. -/
def WatchEntry.Suits (entry : WatchEntry V E) (consulted : List Principal) : Prop :=
  consulted ≠ [] → entry.settled = true ∧ OnlyOf entry.principal consulted

/-- One entry by itself. -/
structure EntryOk (dependent : List JsString) (entry : WatchEntry V E) : Prop where
  base : IsWatchKey entry.base
  key : entry.key = entry.base ∨
    (entry.key = qualifyWatchKey entry.base entry.principal ∧ entry.settled = true)
  known : entry.settled = true → entry.base ∈ dependent
  own : OnlyOf entry.principal entry.invocation.consulted
  marked : entry.invocation.consulted ≠ [] → entry.base ∈ dependent
  swept : ∀ outcome consulted, entry.invocation = .swept outcome consulted →
    consulted ≠ [] → entry.settled = true
  last : ∀ v, entry.shared.last = some v → entry.Suits v.consulted

variable {shared : Watch (Computed V) (Computed E)} {sub : Subscriber (Computed V) (Computed E)}
  {r : Pulled V E} {t : WatchActivation V E}

theorem EntryOk.moves {dependent : List JsString} {entry : WatchEntry V E}
    (h : EntryOk dependent entry) {newE : Computed E → Prop}
    (hmoves : Moves (fun v => entry.Suits v.consulted) newE entry.shared shared) :
    EntryOk dependent { entry with shared := shared } := by
  refine { h with last := ?_ }
  intro v hv
  rcases hmoves.last v hv with hv | hnew
  · exact h.last v hv
  · exact hnew

/-- What a subscriber of a fan-out holds was not computed from another principal. -/
structure Shows (p : Principal) (sub : Subscriber (Computed V) (Computed E)) : Prop where
  values : ∀ v ∈ sub.queue ++ sub.received, OnlyOf p v.consulted
  errors : ∀ e, sub.failed = some e → OnlyOf p e.consulted

/-- A result that a call of `next()` has yet to act on. -/
def Pulled.Shows (p : Principal) : Pulled V E → Prop
  | .value v => OnlyOf p v.consulted
  | .failed e => OnlyOf p e.consulted
  | .done => True

structure SubscriptionOk (d : Subscription V E) : Prop where
  base : IsWatchKey d.base
  results : ∀ r ∈ d.results, r.Shows d.principal
  received : ∀ v ∈ d.received, OnlyOf d.principal v.consulted
  failures : ∀ e ∈ d.failures, OnlyOf d.principal e.consulted

namespace WatchActivation

/-- Subscription `n` was given subscriber `i` of entry `k`. -/
def Owns (s : WatchActivation V E) (n k i : Nat) : Prop :=
  ∃ entry, s.entries[k]? = some entry ∧ entry.owners[i]? = some n

/-- The sweep finds the subscription: it is where it says, its handle is there, and it
is nowhere else and about to leave from nowhere. -/
structure Held (s : WatchActivation V E) (n : Nat) (d : Subscription V E) (k i : Nat)
    (handles : List Nat) : Prop where
  place : d.place = some (k, i)
  handle : n ∈ handles
  results : ∀ r ∈ d.results, ∃ v, r = .value v
  only : ∀ k' i', s.Owns n k' i' → k' = k ∧ i' = i

/-- Subscriber `i` of entry `k`, which is of subscription `n`. -/
structure InnerOk (s : WatchActivation V E) (k : Nat) (entry : WatchEntry V E) (i n : Nat)
    (sub : Subscriber (Computed V) (Computed E)) (d : Subscription V E) : Prop where
  shows : Shows d.principal sub
  settled : sub.attached = true → entry.settled = true → d.principal = entry.principal
  held : sub.attached = true → entry.settled = false → s.Held n d k i entry.handles

structure IdentityOk (s : WatchActivation V E) : Prop where
  entries : ∀ (k : Nat) (entry : WatchEntry V E), s.entries[k]? = some entry →
    EntryOk s.dependent entry
  owned : ∀ (k : Nat) (entry : WatchEntry V E), s.entries[k]? = some entry →
    entry.owners.length = entry.shared.subs.length
  inner : ∀ (k : Nat) (entry : WatchEntry V E) (i n : Nat)
    (sub : Subscriber (Computed V) (Computed E)),
    s.entries[k]? = some entry → entry.owners[i]? = some n → entry.shared.subs[i]? = some sub →
    ∃ d, s.subscriptions[n]? = some d ∧ s.InnerOk k entry i n sub d
  handles : ∀ (k : Nat) (entry : WatchEntry V E) (n : Nat), s.entries[k]? = some entry →
    n ∈ entry.handles → ∃ d, s.subscriptions[n]? = some d ∧ d.base = entry.base
  map : ∀ key k, s.watches.get key = some k → ∃ entry, s.entries[k]? = some entry ∧
    entry.key = key
  subscriptions : ∀ (n : Nat) (d : Subscription V E), s.subscriptions[n]? = some d →
    SubscriptionOk d
  place : ∀ (n : Nat) (d : Subscription V E) (k i : Nat), s.subscriptions[n]? = some d →
    d.place = some (k, i) → s.Owns n k i

/-- A subscription that will attach again does so on a qualified key. -/
def Away (s : WatchActivation V E) : Prop :=
  ∀ (n : Nat) (d : Subscription V E), s.subscriptions[n]? = some d →
    d.place = none → d.closed = false → d.base ∈ s.dependent

/-- No unsettled entry has the subscription among its attached subscribers. -/
def Free (s : WatchActivation V E) (n : Nat) : Prop :=
  ∀ (k : Nat) (entry : WatchEntry V E) (i : Nat) (sub : Subscriber (Computed V) (Computed E)),
    s.entries[k]? = some entry → entry.owners[i]? = some n → entry.shared.subs[i]? = some sub →
    sub.attached = true → entry.settled = true

variable {s : WatchActivation V E} {k n : Nat} {entry entry' : WatchEntry V E}

variable {i m j : Nat} {t : WatchActivation V E} {shared : Watch (Computed V) (Computed E)}
  {invocation : Invocation V E}

theorem getElem?_set_of {A : Type} {l : List A} {old new : A} (hold : l[i]? = some old) (j : Nat) :
    (l.set i new)[j]? = if j = i then some new else l[j]? := by
  have hlt := (List.getElem?_eq_some_iff.1 hold).1
  rw [List.getElem?_set]
  split
  · rename_i heq
    subst heq
    rw [if_pos rfl]
  · rename_i hne
    rw [if_neg (fun heq => hne heq.symm)]

theorem getElem?_setEntry (hk : s.entries[k]? = some entry) (j : Nat) :
    (s.setEntry k entry').entries[j]? = if j = k then some entry' else s.entries[j]? :=
  getElem?_set_of hk j

/-- An entry whose owners stay leaves who owns what. -/
theorem owns_setEntry (hk : s.entries[k]? = some entry) (howners : entry'.owners = entry.owners) :
    (s.setEntry k entry').Owns m j i ↔ s.Owns m j i := by
  unfold Owns
  rw [getElem?_setEntry hk]
  split
  · rename_i heq
    subst heq
    simp [hk, howners]
  · rfl

theorem Held.congr {d : Subscription V E} {handles handles' : List Nat}
    (h : s.Held m d k i handles) (hhandles : m ∈ handles → m ∈ handles')
    (howns : ∀ k' i', t.Owns m k' i' → s.Owns m k' i') : t.Held m d k i handles' :=
  ⟨h.place, hhandles h.handle, h.results, fun k' i' hown => h.only k' i' (howns k' i' hown)⟩

theorem InnerOk.congr {sub : Subscriber (Computed V) (Computed E)} {d : Subscription V E}
    (h : s.InnerOk k entry i m sub d) (howns : ∀ k' i', t.Owns m k' i' → s.Owns m k' i') :
    t.InnerOk k entry i m sub d :=
  { h with held := fun hattached hunsettled => (h.held hattached hunsettled).congr id howns }

section

variable (h : s.IdentityOk)
include h

/-- An entry is replaced by one that has the same subscribers, of the same
subscriptions. -/
theorem IdentityOk.replace (hk : s.entries[k]? = some entry) (hentry : EntryOk s.dependent entry')
    (hsame : entry'.base = entry.base ∧ entry'.key = entry.key ∧ entry'.owners = entry.owners)
    (hlength : entry'.shared.subs.length = entry.shared.subs.length)
    (hhandles : ∀ m ∈ entry'.handles, m ∈ entry.handles)
    (hinner : ∀ (i m : Nat) (sub' : Subscriber (Computed V) (Computed E)),
      entry.owners[i]? = some m → entry'.shared.subs[i]? = some sub' →
      ∃ d, s.subscriptions[m]? = some d ∧ s.InnerOk k entry' i m sub' d) :
    (s.setEntry k entry').IdentityOk := by
  obtain ⟨hbase, hkey, howners⟩ := hsame
  have howns : ∀ m j i, (s.setEntry k entry').Owns m j i ↔ s.Owns m j i :=
    fun _ _ _ => owns_setEntry hk howners
  constructor
  · intro j e hj
    rw [getElem?_setEntry hk] at hj
    split at hj
    · cases hj
      exact hentry
    · exact h.entries j e hj
  · intro j e hj
    rw [getElem?_setEntry hk] at hj
    split at hj
    · cases hj
      rw [howners, hlength]
      exact h.owned k entry hk
    · exact h.owned j e hj
  · intro j e i m sub hj hm hsub
    rw [getElem?_setEntry hk] at hj
    split at hj
    · rename_i heq
      subst heq
      cases hj
      obtain ⟨d, hd, hok⟩ := hinner i m sub (howners ▸ hm) hsub
      exact ⟨d, hd, hok.congr fun k' i' => (howns m k' i').1⟩
    · obtain ⟨d, hd, hok⟩ := h.inner j e i m sub hj hm hsub
      exact ⟨d, hd, hok.congr fun k' i' => (howns m k' i').1⟩
  · intro j e m hj hm
    rw [getElem?_setEntry hk] at hj
    split at hj
    · cases hj
      rw [hbase]
      exact h.handles k entry m hk (hhandles m hm)
    · exact h.handles j e m hj hm
  · intro key j hj
    obtain ⟨e, he, hkey'⟩ := h.map key j hj
    rw [getElem?_setEntry hk]
    split
    · rename_i heq
      subst heq
      rw [hk] at he
      cases he
      exact ⟨entry', rfl, hkey.trans hkey'⟩
    · exact ⟨e, he, hkey'⟩
  · exact h.subscriptions
  · intro m d j i hd hplace
    exact (howns m j i).2 (h.place m d j i hd hplace)

/-- An entry moves on: its identity and its owners stay, and so do the handles of those
that it has attached. -/
theorem IdentityOk.setEntry (hk : s.entries[k]? = some entry) (hentry : EntryOk s.dependent entry')
    (hsame : entry'.base = entry.base ∧ entry'.principal = entry.principal ∧
      entry'.key = entry.key ∧ entry'.settled = entry.settled)
    (howners : entry'.owners = entry.owners) (hhandles : ∀ m ∈ entry'.handles, m ∈ entry.handles)
    (hkept : ∀ m ∈ entry.handles, m ∈ entry'.handles ∨ s.Free m)
    (hmoves : Moves (fun v => entry.Suits v.consulted) (fun e => entry.Suits e.consulted)
      entry.shared entry'.shared) : (s.setEntry k entry').IdentityOk := by
  obtain ⟨hbase, hprincipal, hkey, hsettled⟩ := hsame
  refine h.replace hk hentry ⟨hbase, hkey, howners⟩ hmoves.length hhandles ?_
  intro i m sub' hm hsub'
  obtain ⟨sub, hsub, hgains⟩ := hmoves.subs i sub' hsub'
  obtain ⟨d, hd, hinner⟩ := h.inner k entry i m sub hk hm hsub
  have hsuits : ∀ consulted, sub.attached = true → entry.Suits consulted →
      OnlyOf d.principal consulted := by
    intro consulted hattached hsuits
    cases consulted with
    | nil => simp [OnlyOf]
    | cons p rest =>
      obtain ⟨hset, honly⟩ := hsuits (by simp)
      rw [hinner.settled hattached hset]
      exact honly
  refine ⟨d, hd, ⟨⟨?_, ?_⟩, ?_, ?_⟩⟩
  · intro v hv
    rcases hgains.values v hv with hv | ⟨hattached, hnew⟩
    · exact hinner.shows.values v hv
    · exact hsuits _ hattached hnew
  · intro e he
    rcases hgains.errors e he with he | ⟨hattached, hnew⟩
    · exact hinner.shows.errors e he
    · exact hsuits _ hattached hnew
  · rw [hsettled, hprincipal]
    exact fun hattached => hinner.settled (hgains.attached hattached)
  · rw [hsettled]
    intro hattached hunsettled
    refine (hinner.held (hgains.attached hattached) hunsettled).congr (fun hmem => ?_) fun _ _ => id
    rcases hkept m hmem with hmem | hfree
    · exact hmem
    · have hset := hfree k entry i sub hk hm hsub (hgains.attached hattached)
      simp [hunsettled] at hset

/-- A key that is deleted from the map. -/
theorem IdentityOk.eraseKey (key : JsString) :
    ({ s with watches := s.watches.erase key } : WatchActivation V E).IdentityOk := by
  refine { h with inner := ?_, map := ?_ }
  · intro j e i m sub hj hm hsub
    obtain ⟨d, hd, hinner⟩ := h.inner j e i m sub hj hm hsub
    exact ⟨d, hd, hinner.congr fun _ _ => id⟩
  · intro key' j hj
    rw [JsMap.get_erase] at hj
    obtain ⟨-, hj⟩ := guard_past hj
    exact h.map key' j hj

/-- The shared watch of an entry moves on. -/
theorem IdentityOk.setShared (hk : s.entries[k]? = some entry)
    (hmoves : Moves (fun v => entry.Suits v.consulted) (fun e => entry.Suits e.consulted)
      entry.shared shared) : (s.setShared k entry shared).IdentityOk := by
  have hmoved : (s.setEntry k { entry with shared := shared }).IdentityOk :=
    h.setEntry hk ((h.entries k entry hk).moves hmoves) ⟨rfl, rfl, rfl, rfl⟩ rfl (fun _ => id)
      (fun _ => .inl) hmoves
  unfold WatchActivation.setShared
  split
  · exact hmoved.eraseKey _
  · exact hmoved

/-- The invocation of an entry moves on. -/
theorem IdentityOk.setInvocation (hk : s.entries[k]? = some entry)
    (hown : OnlyOf entry.principal invocation.consulted)
    (hmarked : invocation.consulted ≠ [] → entry.base ∈ s.dependent)
    (hswept : ∀ outcome consulted, invocation = .swept outcome consulted →
      consulted ≠ [] → entry.settled = true) :
    (s.setEntry k { entry with invocation := invocation }).IdentityOk := by
  have hentry := h.entries k entry hk
  have hmoved : EntryOk s.dependent { entry with invocation := invocation } :=
    { hentry with own := hown, marked := hmarked, swept := hswept }
  exact h.setEntry hk hmoved ⟨rfl, rfl, rfl, rfl⟩ rfl (fun _ => id) (fun _ => .inl) (.refl _)

/-- What the invariant reads is the same. -/
theorem IdentityOk.congr (hentries : t.entries = s.entries)
    (hsubscriptions : t.subscriptions = s.subscriptions) (hwatches : t.watches = s.watches)
    (hdependent : ∀ b ∈ s.dependent, b ∈ t.dependent) : t.IdentityOk := by
  have howns : ∀ {m j i : Nat}, t.Owns m j i ↔ s.Owns m j i := by
    unfold Owns
    rw [hentries]
  refine ⟨?_, ?_, ?_, ?_, ?_, ?_, ?_⟩
  · intro j e hj
    have hentry := h.entries j e (hentries ▸ hj)
    exact ⟨hentry.base, hentry.key, fun hset => hdependent _ (hentry.known hset), hentry.own,
      fun hmarked => hdependent _ (hentry.marked hmarked), hentry.swept, hentry.last⟩
  · rw [hentries]
    exact h.owned
  · intro j e i m sub hj hm hsub
    obtain ⟨d, hd, hinner⟩ := h.inner j e i m sub (hentries ▸ hj) hm hsub
    exact ⟨d, hsubscriptions ▸ hd, hinner.congr fun _ _ => howns.1⟩
  · rw [hentries, hsubscriptions]
    exact h.handles
  · rw [hwatches, hentries]
    exact h.map
  · rw [hsubscriptions]
    exact h.subscriptions
  · intro m d j i hd hplace
    exact howns.2 (h.place m d j i (hsubscriptions ▸ hd) hplace)

end

/-! ### Subscriptions that move on -/

variable {old d : Subscription V E}

theorem getElem?_setSubscription (hn : s.subscriptions[n]? = some old) (m : Nat) :
    (s.setSubscription n d).subscriptions[m]? = if m = n then some d else s.subscriptions[m]? :=
  getElem?_set_of hn m

/-- A subscription that keeps its place and gains values only, or that no unsettled
entry has attached. -/
theorem IdentityOk.setSubscription (h : s.IdentityOk) (hn : s.subscriptions[n]? = some old)
    (hd : SubscriptionOk d) (hsame : d.base = old.base ∧ d.principal = old.principal)
    (hplace : d.place = old.place ∨ d.place = none) (hheld : s.Free n ∨
      (d.place = old.place ∧ ∀ r ∈ d.results, r ∈ old.results ∨ ∃ v, r = .value v)) :
    (s.setSubscription n d).IdentityOk := by
  obtain ⟨hbase, hprincipal⟩ := hsame
  refine ⟨h.entries, h.owned, ?_, ?_, h.map, ?_, ?_⟩
  · intro j e i m sub hj hm hsub
    obtain ⟨c, hc, hinner⟩ := h.inner j e i m sub hj hm hsub
    rw [getElem?_setSubscription hn]
    split
    · rename_i heq
      subst heq
      rw [hn] at hc
      cases hc
      refine ⟨d, rfl, hprincipal ▸ hinner.shows, hprincipal ▸ hinner.settled, ?_⟩
      intro hattached hunsettled
      rcases hheld with hfree | ⟨hplace, hresults⟩
      · exact absurd (hfree j e i sub hj hm hsub hattached) (by simp [hunsettled])
      have hold := hinner.held hattached hunsettled
      refine ⟨hplace.trans hold.place, hold.handle, ?_, hold.only⟩
      intro r hr
      rcases hresults r hr with hr | hvalue
      · exact hold.results r hr
      · exact hvalue
    · exact ⟨c, hc, hinner.congr fun _ _ => id⟩
  · intro j e m hj hm
    obtain ⟨c, hc, hbase'⟩ := h.handles j e m hj hm
    rw [getElem?_setSubscription hn]
    split
    · rename_i heq
      subst heq
      rw [hn] at hc
      cases hc
      exact ⟨d, rfl, hbase.trans hbase'⟩
    · exact ⟨c, hc, hbase'⟩
  · intro m c hc
    rw [getElem?_setSubscription hn] at hc
    split at hc
    · cases hc
      exact hd
    · exact h.subscriptions m c hc
  · intro m c j i hc hplace'
    rw [getElem?_setSubscription hn] at hc
    split at hc
    · rename_i heq
      subst heq
      cases hc
      rcases hplace with hkept | hnone
      · exact h.place m old j i hn (hkept ▸ hplace')
      · simp [hnone] at hplace'
    · exact h.place m c j i hc hplace'

/-- A handle leaves an entry. -/
theorem IdentityOk.eraseHandle (h : s.IdentityOk) (hk : s.entries[k]? = some entry)
    (hfree : s.Free n) :
    (s.setEntry k { entry with handles := entry.handles.erase n }).IdentityOk := by
  have hentry := h.entries k entry hk
  have hleft : EntryOk s.dependent { entry with handles := entry.handles.erase n } :=
    { hentry with }
  refine h.setEntry hk hleft ⟨rfl, rfl, rfl, rfl⟩ rfl (fun _ => List.mem_of_mem_erase) ?_ (.refl _)
  intro m hm
  by_cases hmn : m = n
  · exact .inr (hmn ▸ hfree)
  · exact .inl ((List.mem_erase_of_ne hmn).2 hm)

/-- A subscription detaches, once no unsettled entry has it attached. -/
theorem IdentityOk.detach (h : s.IdentityOk) (hn : s.subscriptions[n]? = some old)
    (hd : SubscriptionOk d) (hsame : d.base = old.base ∧ d.principal = old.principal)
    (hfree : s.Free n) : (s.detach n d).IdentityOk := by
  have hleft : (s.setSubscription n { d with place := none }).IdentityOk :=
    h.setSubscription hn { hd with } hsame (.inr rfl)
      (.inl hfree)
  unfold WatchActivation.detach
  split
  · split
    · rename_i hk
      exact hleft.eraseHandle hk hfree
    · exact hleft
  · exact hleft

theorem IdentityOk.dropInner (h : s.IdentityOk) (place : Option (Nat × Nat)) :
    (s.dropInner place).IdentityOk := by
  unfold WatchActivation.dropInner
  split
  · split
    · rename_i entry hk
      exact h.setShared hk (.drop _ _)
    · exact h
  · exact h

/-- Which goes first, the handle or the subscriber, makes no difference. -/
theorem detach_dropInner : (s.detach n d).dropInner d.place = (s.dropInner d.place).detach n d := by
  cases hplace : d.place with
  | none => rfl
  | some place =>
    obtain ⟨k, i⟩ := place
    cases hk : s.entries[k]? with
    | none => simp [WatchActivation.detach, WatchActivation.dropInner, setSubscription, hplace, hk]
    | some entry =>
      have hlt := (List.getElem?_eq_some_iff.1 hk).1
      simp only [WatchActivation.detach, WatchActivation.dropInner, hplace, hk]
      simp only [WatchActivation.setShared, WatchActivation.setEntry, setSubscription,
        List.getElem?_set_self hlt]
      split <;> simp [List.getElem?_set_self hlt, List.set_set]

theorem subscriptions_dropInner (place : Option (Nat × Nat)) :
    (s.dropInner place).subscriptions = s.subscriptions := by
  unfold WatchActivation.dropInner WatchActivation.setShared
  split
  · split
    · split <;> rfl
    · rfl
  · rfl

/-- A subscription whose subscriber was dropped is attached to no unsettled entry. -/
theorem IdentityOk.free_dropInner (h : s.IdentityOk) (hn : s.subscriptions[n]? = some old) :
    (s.dropInner old.place).Free n := by
  intro j e i sub hj hm hsub hattached
  obtain ⟨c, hc, hinner⟩ := (h.dropInner old.place).inner j e i n sub hj hm hsub
  rw [subscriptions_dropInner, hn] at hc
  cases hc
  cases hset : e.settled with
  | true => rfl
  | false =>
    have hplace := (hinner.held hattached hset).place
    rw [hplace] at hj
    simp only [WatchActivation.dropInner] at hj
    split at hj
    · rename_i entry hk
      have hgone : (entry.shared.drop i).subs[i]? = some sub := by
        simp only [WatchActivation.setShared] at hj
        split at hj
        all_goals
          rw [getElem?_setEntry hk, if_pos rfl] at hj
          cases hj
          exact hsub
      simp [detached_drop hgone] at hattached
    · rename_i hnone
      rw [hnone] at hj
      simp at hj

/-- `detach` and the `return()` of `inner`. -/
theorem IdentityOk.release (h : s.IdentityOk) (hn : s.subscriptions[n]? = some old)
    (hd : SubscriptionOk d) (hsame : d.base = old.base ∧ d.principal = old.principal)
    (hplace : d.place = old.place) : ((s.detach n d).dropInner old.place).IdentityOk := by
  rw [← hplace, detach_dropInner, hplace]
  have hn' : (s.dropInner old.place).subscriptions[n]? = some old := by
    rw [subscriptions_dropInner]
    exact hn
  exact (h.dropInner old.place).detach hn' hd hsame (h.free_dropInner hn)

/-! ### The sweep -/

/-- What an eviction leaves: who the subscriptions are, and what an entry is. -/
structure Evicts (s t : WatchActivation V E) : Prop where
  dependent : t.dependent = s.dependent
  subscriptions : ∀ (n : Nat) (d : Subscription V E), s.subscriptions[n]? = some d →
    ∃ d', t.subscriptions[n]? = some d' ∧ d'.principal = d.principal ∧ d'.base = d.base ∧
      (d.place = none → d'.place = none)
  entries : ∀ (k : Nat) (entry : WatchEntry V E), s.entries[k]? = some entry →
    ∃ entry', t.entries[k]? = some entry' ∧ entry'.principal = entry.principal ∧
      entry'.base = entry.base ∧ entry'.settled = entry.settled ∧
      entry'.invocation = entry.invocation ∧ ∀ m ∈ entry'.handles, m ∈ entry.handles

theorem Evicts.refl (s : WatchActivation V E) : Evicts s s :=
  ⟨rfl, fun _ d hd => ⟨d, hd, rfl, rfl, id⟩,
    fun _ entry hk => ⟨entry, hk, rfl, rfl, rfl, rfl, fun _ => id⟩⟩

theorem Evicts.trans {u : WatchActivation V E} (h : Evicts s t) (h' : Evicts t u) : Evicts s u := by
  refine ⟨h'.dependent.trans h.dependent, ?_, ?_⟩
  · intro n d hd
    obtain ⟨d', hd', hprincipal, hbase, hplace⟩ := h.subscriptions n d hd
    obtain ⟨d'', hd'', hprincipal', hbase', hplace'⟩ := h'.subscriptions n d' hd'
    exact ⟨d'', hd'', hprincipal'.trans hprincipal, hbase'.trans hbase, fun hnone =>
      hplace' (hplace hnone)⟩
  · intro k entry hk
    obtain ⟨e', he', hprincipal, hbase, hsettled, hinvocation, hhandles⟩ := h.entries k entry hk
    obtain ⟨e'', he'', hprincipal', hbase', hsettled', hinvocation', hhandles'⟩ :=
      h'.entries k e' he'
    exact ⟨e'', he'', hprincipal'.trans hprincipal, hbase'.trans hbase,
      hsettled'.trans hsettled, hinvocation'.trans hinvocation, fun m hm => hhandles m (hhandles' m hm)⟩

theorem evicts_setShared (hk : s.entries[k]? = some entry) :
    Evicts s (s.setShared k entry shared) := by
  have hmoved : Evicts s (s.setEntry k { entry with shared := shared }) := by
    refine ⟨rfl, fun _ d hd => ⟨d, hd, rfl, rfl, id⟩, ?_⟩
    intro j e hj
    rw [getElem?_setEntry hk]
    split
    · rename_i heq
      subst heq
      rw [hk] at hj
      cases hj
      exact ⟨_, rfl, rfl, rfl, rfl, rfl, fun _ => id⟩
    · exact ⟨e, hj, rfl, rfl, rfl, rfl, fun _ => id⟩
  unfold WatchActivation.setShared
  split
  · exact { hmoved with }
  · exact hmoved

theorem evicts_dropInner (place : Option (Nat × Nat)) : Evicts s (s.dropInner place) := by
  unfold WatchActivation.dropInner
  split
  · split
    · rename_i hk
      exact evicts_setShared hk
    · exact .refl s
  · exact .refl s

theorem evicts_detach (hn : s.subscriptions[n]? = some old)
    (hsame : d.base = old.base ∧ d.principal = old.principal) : Evicts s (s.detach n d) := by
  have hleft : Evicts s (s.setSubscription n { d with place := none }) := by
    refine ⟨rfl, ?_, fun _ e he => ⟨e, he, rfl, rfl, rfl, rfl, fun _ => id⟩⟩
    intro m c hc
    rw [getElem?_setSubscription hn]
    split
    · rename_i heq
      subst heq
      rw [hn] at hc
      cases hc
      exact ⟨_, rfl, hsame.2, hsame.1, fun _ => rfl⟩
    · exact ⟨c, hc, rfl, rfl, id⟩
  unfold WatchActivation.detach
  split
  · split
    · rename_i k _ _ _ entry hk
      refine hleft.trans ⟨rfl, fun _ c hc => ⟨c, hc, rfl, rfl, id⟩, ?_⟩
      intro j e hj
      have hk' : (s.setSubscription n { d with place := none }).entries[k]? = some entry := hk
      rw [getElem?_setEntry hk']
      split
      · rename_i heq
        subst heq
        rw [hk'] at hj
        cases hj
        exact ⟨_, rfl, rfl, rfl, rfl, rfl, fun _ => List.mem_of_mem_erase⟩
      · exact ⟨e, hj, rfl, rfl, rfl, rfl, fun _ => id⟩
    · exact hleft
  · exact hleft

/-- A subscription that moves on without going away. -/
theorem Away.setSubscription (h : s.Away) (hn : s.subscriptions[n]? = some old)
    (haway : d.place = none → d.closed = false → d.base ∈ s.dependent) :
    (s.setSubscription n d).Away := by
  intro m c hc hplace hclosed
  rw [getElem?_setSubscription hn] at hc
  split at hc
  · cases hc
    exact haway hplace hclosed
  · exact h m c hc hplace hclosed

theorem Away.congr (h : s.Away) (hsubscriptions : t.subscriptions = s.subscriptions)
    (hdependent : ∀ b ∈ s.dependent, b ∈ t.dependent) : t.Away := by
  intro m c hc hplace hclosed
  exact hdependent _ (h m c (hsubscriptions ▸ hc) hplace hclosed)

theorem dependent_dropInner (place : Option (Nat × Nat)) :
    (s.dropInner place).dependent = s.dependent := (evicts_dropInner place).dependent

theorem Away.dropInner (h : s.Away) (place : Option (Nat × Nat)) : (s.dropInner place).Away :=
  h.congr (subscriptions_dropInner place) fun _ hb => (dependent_dropInner place).symm ▸ hb

theorem Away.detach (h : s.Away) (hn : s.subscriptions[n]? = some old)
    (haway : d.closed = false → d.base ∈ s.dependent) : (s.detach n d).Away := by
  have hleft : (s.setSubscription n { d with place := none }).Away :=
    h.setSubscription hn fun _ => haway
  unfold WatchActivation.detach
  split
  · split <;> exact hleft
  · exact hleft

/-- The subscription is on no entry. -/
theorem place_detach (hn : s.subscriptions[n]? = some old) :
    ∃ d', (s.detach n d).subscriptions[n]? = some d' ∧ d'.place = none := by
  have hleft : (s.setSubscription n { d with place := none }).subscriptions[n]? =
      some { d with place := none } := by
    rw [getElem?_setSubscription hn, if_pos rfl]
  refine ⟨{ d with place := none }, ?_, rfl⟩
  unfold WatchActivation.detach
  split
  · split <;> exact hleft
  · exact hleft

theorem IdentityOk.evict (h : s.IdentityOk) (haway : s.Away) {b : JsString}
    (hn : s.subscriptions[n]? = some old) (hb : old.base = b) (hdependent : b ∈ s.dependent) :
    (s.evict n).IdentityOk ∧ (s.evict n).Away ∧ Evicts s (s.evict n) ∧
      ∃ d', (s.evict n).subscriptions[n]? = some d' ∧ d'.place = none := by
  have hd := h.subscriptions n old hn
  have hmigrating : SubscriptionOk { old with migrating := true } :=
    { hd with }
  unfold WatchActivation.evict
  rw [hn]
  refine ⟨h.release hn hmigrating ⟨rfl, rfl⟩ rfl, ?_, ?_, ?_⟩
  · refine (haway.detach hn fun _ => ?_).dropInner _
    rw [hb]
    exact hdependent
  · have hdetached := evicts_detach (d := { old with migrating := true }) hn ⟨rfl, rfl⟩
    exact hdetached.trans (evicts_dropInner _)
  · rw [subscriptions_dropInner]
    exact place_detach hn

/-- Whoever is evicted is on no entry when the sweep is over. -/
theorem IdentityOk.evictAll {b : JsString} : ∀ (strangers : List Nat) {s : WatchActivation V E},
    s.IdentityOk → s.Away → b ∈ s.dependent →
    (∀ n ∈ strangers, ∃ d, s.subscriptions[n]? = some d ∧ d.base = b) →
    (strangers.foldl WatchActivation.evict s).IdentityOk ∧
      (strangers.foldl WatchActivation.evict s).Away ∧
      Evicts s (strangers.foldl WatchActivation.evict s) ∧
      ∀ n ∈ strangers, ∃ d, (strangers.foldl WatchActivation.evict s).subscriptions[n]? = some d ∧
        d.place = none := by
  intro strangers
  induction strangers with
  | nil =>
    intro s h haway _ _
    exact ⟨h, haway, .refl s, by simp⟩
  | cons n rest ih =>
    intro s h haway hb hstrangers
    obtain ⟨d, hn, hbase⟩ := hstrangers n (by simp)
    obtain ⟨hok, haway', hevicts, d', hn', hplace⟩ := h.evict haway hn hbase hb
    have hrest : ∀ m ∈ rest, ∃ d, (s.evict n).subscriptions[m]? = some d ∧ d.base = b := by
      intro m hm
      obtain ⟨c, hc, hbase'⟩ := hstrangers m (by simp [hm])
      obtain ⟨c', hc', _, hsame, _⟩ := hevicts.subscriptions m c hc
      exact ⟨c', hc', hsame.trans hbase'⟩
    obtain ⟨hok', haway'', hevicts', hgone⟩ := ih hok haway' (hevicts.dependent ▸ hb) hrest
    refine ⟨hok', haway'', hevicts.trans hevicts', ?_⟩
    intro m hm
    rcases List.mem_cons.1 hm with rfl | hm
    · obtain ⟨c, hc, _, _, hnone⟩ := hevicts'.subscriptions m d' hn'
      exact ⟨c, hc, hnone hplace⟩
    · exact hgone m hm

/-- The flag goes up where everyone attached presents the entry's principal. -/
theorem IdentityOk.settle (h : s.IdentityOk) (hk : s.entries[k]? = some entry)
    (hdependent : entry.base ∈ s.dependent) (hown : OnlyOf entry.principal invocation.consulted)
    (hsame : ∀ (i n : Nat) (sub : Subscriber (Computed V) (Computed E)) (d : Subscription V E),
      entry.owners[i]? = some n → entry.shared.subs[i]? = some sub → sub.attached = true →
      s.subscriptions[n]? = some d → d.principal = entry.principal) :
    (s.settle k invocation).IdentityOk := by
  unfold WatchActivation.settle
  rw [hk]
  have hentry := h.entries k entry hk
  have hok : EntryOk s.dependent { entry with settled := true, invocation := invocation } := by
    refine ⟨hentry.base, hentry.key.imp_right fun hkey => ⟨hkey.1, rfl⟩, fun _ => hdependent,
      hown, fun _ => hdependent, fun _ _ _ _ => rfl, ?_⟩
    intro v hv hne
    exact ⟨rfl, (hentry.last v hv hne).2⟩
  refine h.replace hk hok ⟨rfl, rfl, rfl⟩ rfl (fun _ => id) ?_
  intro i m sub hm hsub
  obtain ⟨d, hd, hinner⟩ := h.inner k entry i m sub hk hm hsub
  exact ⟨d, hd, hinner.shows, fun hattached _ => hsame i m sub d hm hsub hattached hd,
    fun _ hunsettled => by simp at hunsettled⟩

/-- Whoever stays attached after the sweep was not a stranger. -/
theorem IdentityOk.sweepAll (h : s.IdentityOk) (haway : s.Away) (hk : s.entries[k]? = some entry)
    (hsettled : entry.settled = false) (hdependent : entry.base ∈ s.dependent)
    (hown : OnlyOf entry.principal invocation.consulted) :
    let swept := ((entry.handles.filter fun n =>
      decide ((s.subscriptions[n]?).map (·.principal) ≠ some entry.principal)).foldl
        WatchActivation.evict s).settle k invocation
    swept.IdentityOk ∧ swept.Away := by
  obtain ⟨hok, haway', hevicts, hgone⟩ := IdentityOk.evictAll
    (entry.handles.filter fun n =>
      decide ((s.subscriptions[n]?).map (·.principal) ≠ some entry.principal)) h haway hdependent
    (fun n hn => h.handles k entry n hk (List.mem_filter.1 hn).1)
  obtain ⟨e', he', hprincipal, hbase, hset, _, hhandles⟩ := hevicts.entries k entry hk
  refine ⟨?_, ?_⟩
  · refine hok.settle he' (by rw [hbase, hevicts.dependent]; exact hdependent)
      (by rw [hprincipal]; exact hown) ?_
    intro i n sub d hn hsub hattached hd
    obtain ⟨d', hd', hinner⟩ := hok.inner k e' i n sub he' hn hsub
    rw [hd] at hd'
    cases hd'
    have hheld := hinner.held hattached (hset.trans hsettled)
    obtain ⟨c, hc, _⟩ := h.handles k entry n hk (hhandles n hheld.handle)
    obtain ⟨d'', hd'', hsame, _, _⟩ := hevicts.subscriptions n c hc
    rw [hd] at hd''
    cases hd''
    -- a stranger would be on no entry, but this one is attached here
    have hfriend : c.principal = entry.principal := by
      rcases Classical.em (c.principal = entry.principal) with hsame | hne
      · exact hsame
      obtain ⟨d', hd', hnone⟩ := hgone n (List.mem_filter.2
        ⟨hhandles n hheld.handle, by simpa [hc] using hne⟩)
      rw [hd] at hd'
      cases hd'
      rw [hheld.place] at hnone
      simp at hnone
    rw [hsame, hfriend, hprincipal]
  · have hsettle : ∀ t : WatchActivation V E, (t.settle k invocation).subscriptions = t.subscriptions ∧
          (t.settle k invocation).dependent = t.dependent := by
      intro t
      unfold WatchActivation.settle
      split <;> exact ⟨rfl, rfl⟩
    exact haway'.congr (hsettle _).1 fun _ hb => (hsettle _).2.symm ▸ hb

/-! ### Joining -/

/-- A new entry, which is in the map at its key. -/
def addEntry (s : WatchActivation V E) (entry : WatchEntry V E) : WatchActivation V E :=
  { s with
    entries := s.entries ++ [entry]
    watches := s.watches.set entry.key s.entries.length }

theorem getElem?_addEntry {e : WatchEntry V E} (hj : (s.addEntry entry).entries[j]? = some e) :
    s.entries[j]? = some e ∨ (j = s.entries.length ∧ e = entry) := by
  simp only [addEntry, List.getElem?_append] at hj
  split at hj
  · exact .inl hj
  rw [List.getElem?_singleton] at hj
  obtain ⟨_, hj⟩ := guard_passed hj
  exact .inr ⟨by omega, (Option.some.inj hj).symm⟩

theorem getElem?_addEntry_left {e : WatchEntry V E} (hj : s.entries[j]? = some e) :
    (s.addEntry entry).entries[j]? = some e := by
  simp only [addEntry]
  rw [List.getElem?_append_left (List.getElem?_eq_some_iff.1 hj).1]
  exact hj

theorem getElem?_addEntry_self : (s.addEntry entry).entries[s.entries.length]? = some entry := by
  simp [addEntry]

theorem owns_addEntry (howners : entry.owners = []) (h : (s.addEntry entry).Owns m j i) :
    s.Owns m j i := by
  obtain ⟨e, he, hm⟩ := h
  rcases getElem?_addEntry he with he | ⟨_, rfl⟩
  · exact ⟨e, he, hm⟩
  · simp [howners] at hm

theorem IdentityOk.addEntry (h : s.IdentityOk) (hentry : EntryOk s.dependent entry)
    (howners : entry.owners = []) (hhandles : entry.handles = [])
    (hsubs : entry.shared.subs = []) : (s.addEntry entry).IdentityOk := by
  constructor
  · intro j e hj
    rcases getElem?_addEntry hj with hj | ⟨_, rfl⟩
    · exact h.entries j e hj
    · exact hentry
  · intro j e hj
    rcases getElem?_addEntry hj with hj | ⟨_, rfl⟩
    · exact h.owned j e hj
    · rw [howners, hsubs]
      rfl
  · intro j e i m sub hj hm hsub
    rcases getElem?_addEntry hj with hj | ⟨_, rfl⟩
    · obtain ⟨c, hc, hinner⟩ := h.inner j e i m sub hj hm hsub
      exact ⟨c, hc, hinner.congr fun _ _ => owns_addEntry howners⟩
    · simp [howners] at hm
  · intro j e m hj hm
    rcases getElem?_addEntry hj with hj | ⟨_, rfl⟩
    · exact h.handles j e m hj hm
    · simp [hhandles] at hm
  · intro key j hj
    simp only [WatchActivation.addEntry, JsMap.get_set] at hj
    split at hj
    · rename_i heq
      cases hj
      exact ⟨entry, by simp [WatchActivation.addEntry], heq.symm⟩
    · obtain ⟨e, he, hkey⟩ := h.map key j hj
      exact ⟨e, getElem?_addEntry_left he, hkey⟩
  · exact h.subscriptions
  · intro m c j i hc hplace
    obtain ⟨e, he, hm⟩ := h.place m c j i hc hplace
    exact ⟨e, getElem?_addEntry_left he, hm⟩

/-- The entry at the subscriber's key is of its read, and of its principal where it is
settled; where the read is known to depend on the principal, it is settled. -/
theorem IdentityOk.resolveWatch (h : s.IdentityOk) (hbase : IsWatchKey d.base) :
    (s.resolveWatch d).1.IdentityOk ∧ (s.resolveWatch d).1.subscriptions = s.subscriptions ∧
      (s.resolveWatch d).1.dependent = s.dependent ∧
      (∀ m j i, (s.resolveWatch d).1.Owns m j i → s.Owns m j i) ∧
      ∃ entry, (s.resolveWatch d).1.entries[(s.resolveWatch d).2]? = some entry ∧
        entry.base = d.base ∧ (entry.settled = true → entry.principal = d.principal) ∧
        (d.base ∈ s.dependent → entry.settled = true) := by
  unfold WatchActivation.resolveWatch
  simp only
  split
  · rename_i k hk
    obtain ⟨entry, he, hkey⟩ := h.map _ k hk
    have hentry := h.entries k entry he
    refine ⟨h, rfl, rfl, fun _ _ _ => id, entry, he, ?_⟩
    by_cases hdependent : d.base ∈ s.dependent
    · rw [if_pos (by simpa using hdependent)] at hkey
      rcases hentry.key with hbare | ⟨hqualified, hsettled⟩
      · exact absurd (hkey.symm.trans hbare) (qualifyWatchKey_ne hbase hentry.base)
      obtain ⟨hsame, hprincipal⟩ := qualifyWatchKey_inj hentry.base hbase
        (hqualified.symm.trans hkey)
      exact ⟨hsame, fun _ => hprincipal, fun _ => hsettled⟩
    · rw [if_neg (by simpa using hdependent)] at hkey
      rcases hentry.key with hbare | ⟨hqualified, _⟩
      · have hsame := hbare.symm.trans hkey
        refine ⟨hsame, fun hsettled => ?_, fun hmem => absurd hmem hdependent⟩
        exact absurd (hsame ▸ hentry.known hsettled) hdependent
      · exact absurd (hqualified.symm.trans hkey) (qualifyWatchKey_ne hentry.base hbase)
  · refine ⟨h.addEntry ⟨hbase, ?_, by simp, by simp [OnlyOf, Invocation.consulted],
      by simp [Invocation.consulted], by simp, by simp⟩ rfl rfl rfl, rfl, rfl,
      fun _ _ _ => owns_addEntry rfl, _, getElem?_addEntry_self, rfl, fun _ => rfl, ?_⟩
    · by_cases hdependent : d.base ∈ s.dependent <;> simp [hdependent]
    · simp

/-- The entry that a subscriber has joined, and the subscription that has joined it. -/
def joined (entry : WatchEntry V E) (n : Nat) : WatchEntry V E :=
  { entry with
    handles := entry.handles ++ [n]
    owners := entry.owners ++ [n]
    shared := entry.shared.subscribe false }

def placed (d : Subscription V E) (k i : Nat) : Subscription V E :=
  { d with place := some (k, i), migrating := false }

def join (s : WatchActivation V E) (k : Nat) (entry : WatchEntry V E) (n : Nat)
    (d : Subscription V E) : WatchActivation V E :=
  (s.setEntry k (joined entry n)).setSubscription n (placed d k entry.shared.subs.length)

theorem owns_join (h : s.IdentityOk) (hk : s.entries[k]? = some entry)
    (hown : (s.join k entry n d).Owns m j i) :
    s.Owns m j i ∨ (m = n ∧ j = k ∧ i = entry.shared.subs.length) := by
  obtain ⟨e, he, hm⟩ := hown
  have he' : (s.setEntry k (joined entry n)).entries[j]? = some e := he
  rw [getElem?_setEntry hk] at he'
  split at he'
  · rename_i heq
    cases he'
    simp only [joined, List.getElem?_append] at hm
    split at hm
    · exact .inl ⟨entry, heq ▸ hk, hm⟩
    rw [List.getElem?_singleton] at hm
    obtain ⟨_, hm⟩ := guard_passed hm
    have hlength := h.owned k entry hk
    exact .inr ⟨(Option.some.inj hm).symm, heq, by omega⟩
  · exact .inl ⟨e, he', hm⟩

/-- A subscriber joins an entry of its read: a settled one of its principal, or one that
it joins first of all. -/
theorem IdentityOk.join (h : s.IdentityOk) (hk : s.entries[k]? = some entry)
    (hn : s.subscriptions[n]? = some d) (hbase : entry.base = d.base)
    (hsame : entry.settled = true → entry.principal = d.principal)
    (hfirst : entry.settled = true ∨ (d.results = [] ∧ ∀ j i, ¬ s.Owns n j i))
    (hplace : d.place = none) : (s.join k entry n d).IdentityOk := by
  have hlength := h.owned k entry hk
  have hentry := h.entries k entry hk
  have hget : ∀ (j : Nat), (s.join k entry n d).entries[j]? =
      if j = k then some (joined entry n) else s.entries[j]? := getElem?_setEntry hk
  have hsub : ∀ (m : Nat), (s.join k entry n d).subscriptions[m]? =
      if m = n then some (placed d k entry.shared.subs.length)
      else s.subscriptions[m]? := getElem?_setSubscription hn
  -- whoever was attached to an unsettled entry is somebody else
  have hother : ∀ {j i m : Nat} {e : WatchEntry V E} {sub : Subscriber (Computed V) (Computed E)},
      s.entries[j]? = some e → e.owners[i]? = some m → e.shared.subs[i]? = some sub →
      ∃ c, (s.join k entry n d).subscriptions[m]? = some c ∧
        (s.join k entry n d).InnerOk j e i m sub c := by
    intro j i m e sub hj hm hsub'
    obtain ⟨c, hc, hinner⟩ := h.inner j e i m sub hj hm hsub'
    rw [hsub]
    split
    · rename_i heq
      subst heq
      rw [hn] at hc
      cases hc
      refine ⟨_, rfl, hinner.shows, hinner.settled, fun hattached hunsettled => ?_⟩
      have hheld := (hinner.held hattached hunsettled).place
      simp [hplace] at hheld
    · rename_i hne
      refine ⟨c, hc, hinner.congr fun k' i' hown => ?_⟩
      rcases owns_join h hk hown with hown | ⟨heq, _⟩
      · exact hown
      · exact absurd heq hne
  constructor
  · intro j e hj
    rw [hget] at hj
    split at hj
    · cases hj
      exact { hentry with }
    · exact h.entries j e hj
  · intro j e hj
    rw [hget] at hj
    split at hj
    · cases hj
      simp [joined, Watch.subscribe, hlength]
    · exact h.owned j e hj
  · intro j e i m sub hj hm hsub'
    rw [hget] at hj
    split at hj
    · rename_i heq
      subst heq
      cases hj
      simp only [joined, Watch.subscribe, Bool.false_eq_true, if_false, List.getElem?_append]
        at hm hsub'
      split at hsub'
      · rename_i hlt
        rw [if_pos (hlength ▸ hlt)] at hm
        obtain ⟨c, hc, hinner⟩ := hother hk hm hsub'
        refine ⟨c, hc, hinner.shows, hinner.settled, fun hattached hunsettled => ?_⟩
        exact (hinner.held hattached hunsettled).congr (List.mem_append_left _) fun _ _ => id
      · rename_i hge
        rw [if_neg (by rw [hlength]; exact hge)] at hm
        rw [List.getElem?_singleton] at hm hsub'
        obtain ⟨hzero, hsub'⟩ := guard_passed hsub'
        have hi : i = entry.shared.subs.length := by omega
        rw [if_pos (by rw [hlength]; exact hzero)] at hm
        cases hm
        cases hsub'
        refine ⟨placed d j entry.shared.subs.length, by rw [hsub, if_pos rfl], ⟨?_, by simp⟩,
          fun _ hset => (hsame hset).symm, ?_⟩
        · intro v hv
          simp only [List.append_nil, Option.mem_toList] at hv
          intro p hp
          obtain ⟨hset, honly⟩ := hentry.last v hv (List.ne_nil_of_mem hp)
          exact (honly p hp).trans (hsame hset)
        · intro _ hunsettled
          rcases hfirst with hset | ⟨hresults, hnone⟩
          · have hset' : entry.settled = false := hunsettled
            simp [hset] at hset'
          refine ⟨by rw [hi]; rfl, List.mem_append_right _ (List.mem_singleton_self n), ?_, ?_⟩
          · intro r hr
            have hr' : r ∈ d.results := hr
            simp [hresults] at hr'
          · intro k' i' hown
            rcases owns_join h hk hown with hown | ⟨_, hk', hi'⟩
            · exact absurd hown (hnone k' i')
            · exact ⟨hk', hi'.trans hi.symm⟩
    · exact hother hj hm hsub'
  · intro j e m hj hm
    have hmember : ∀ {c : Subscription V E}, s.subscriptions[m]? = some c →
        ∃ c', (s.join k entry n d).subscriptions[m]? = some c' ∧ c'.base = c.base := by
      intro c hc
      rw [hsub]
      split
      · rename_i heq
        subst heq
        rw [hn] at hc
        cases hc
        exact ⟨_, rfl, rfl⟩
      · exact ⟨c, hc, rfl⟩
    rw [hget] at hj
    split at hj
    · cases hj
      rcases List.mem_append.1 hm with hm | hm
      · obtain ⟨c, hc, hbase'⟩ := h.handles k entry m hk hm
        obtain ⟨c', hc', hsame'⟩ := hmember hc
        exact ⟨c', hc', hsame'.trans hbase'⟩
      · obtain rfl := List.mem_singleton.1 hm
        obtain ⟨c', hc', hsame'⟩ := hmember hn
        exact ⟨c', hc', hsame'.trans hbase.symm⟩
    · obtain ⟨c, hc, hbase'⟩ := h.handles j e m hj hm
      obtain ⟨c', hc', hsame'⟩ := hmember hc
      exact ⟨c', hc', hsame'.trans hbase'⟩
  · intro key j hj
    obtain ⟨e, he, hkey⟩ := h.map key j hj
    rw [hget]
    split
    · rename_i heq
      subst heq
      rw [hk] at he
      cases he
      exact ⟨_, rfl, hkey⟩
    · exact ⟨e, he, hkey⟩
  · intro m c hc
    rw [hsub] at hc
    split at hc
    · cases hc
      have hd := h.subscriptions n d hn
      exact { hd with }
    · exact h.subscriptions m c hc
  · intro m c j i hc hplace'
    have hleft : ∀ m j i, s.Owns m j i → (s.join k entry n d).Owns m j i := by
      rintro m j i ⟨e, he, hm⟩
      by_cases hj : j = k
      · subst hj
        rw [hk] at he
        cases he
        refine ⟨joined entry n, by rw [hget, if_pos rfl], ?_⟩
        simp only [joined]
        rw [List.getElem?_append_left (List.getElem?_eq_some_iff.1 hm).1]
        exact hm
      · exact ⟨e, by rw [hget, if_neg hj]; exact he, hm⟩
    rw [hsub] at hc
    split at hc
    · rename_i heq
      subst heq
      cases hc
      obtain ⟨rfl, rfl⟩ := Prod.mk.inj (Option.some.inj hplace')
      refine ⟨joined entry m, by rw [hget, if_pos rfl], ?_⟩
      simp [joined, ← hlength]
    · exact hleft m j i (h.place m c j i hc hplace')

/-- A signal that was aborted already drops the subscriber that has just joined. -/
theorem attach_eq (hk : (s.resolveWatch d).1.entries[(s.resolveWatch d).2]? = some entry) :
    s.attach n d =
      if d.aborted = true then
        ((s.resolveWatch d).1.join (s.resolveWatch d).2 entry n d).dropInner
          (some ((s.resolveWatch d).2, entry.shared.subs.length))
      else (s.resolveWatch d).1.join (s.resolveWatch d).2 entry n d := by
  have hlt := (List.getElem?_eq_some_iff.1 hk).1
  unfold WatchActivation.attach
  simp only [hk]
  cases haborted : d.aborted with
  | false =>
    simp [Watch.subscribe, WatchActivation.setShared, WatchActivation.join, joined, placed,
      haborted]
  | true =>
    simp only [if_true, WatchActivation.dropInner, WatchActivation.join, setSubscription,
      WatchActivation.setEntry, List.getElem?_set_self hlt]
    simp only [WatchActivation.setShared, WatchActivation.setEntry, joined, Watch.subscribe,
      if_true, Bool.false_eq_true, if_false, List.set_set, placed, haborted]
    split <;> rfl

theorem IdentityOk.attach (h : s.IdentityOk) (hn : s.subscriptions[n]? = some d)
    (hplace : d.place = none)
    (hfirst : d.base ∈ s.dependent ∨ (d.results = [] ∧ ∀ j i, ¬ s.Owns n j i)) :
    (s.attach n d).IdentityOk ∧
      (s.attach n d).dependent = s.dependent ∧
      ∃ k i, (s.attach n d).subscriptions = s.subscriptions.set n (placed d k i) := by
  obtain ⟨hok, hsubscriptions, hdependent, howns, entry, hk, hbase, hsame, hsettled⟩ :=
    h.resolveWatch (h.subscriptions n d hn).base
  have hjoin : ((s.resolveWatch d).1.join (s.resolveWatch d).2 entry n d).IdentityOk := by
    refine hok.join hk (hsubscriptions ▸ hn) hbase hsame ?_ hplace
    rcases hfirst with hmem | ⟨hresults, hnone⟩
    · exact .inl (hsettled hmem)
    · exact .inr ⟨hresults, fun j i hown => hnone j i (howns n j i hown)⟩
  have hset : ((s.resolveWatch d).1.join (s.resolveWatch d).2 entry n d).subscriptions =
      s.subscriptions.set n (placed d (s.resolveWatch d).2 entry.shared.subs.length) := by
    rw [← hsubscriptions]
    rfl
  rw [attach_eq hk]
  split
  · refine ⟨hjoin.dropInner _, ?_, (s.resolveWatch d).2, entry.shared.subs.length, ?_⟩
    · rw [dependent_dropInner]
      exact hdependent
    · rw [subscriptions_dropInner]
      exact hset
  · exact ⟨hjoin, hdependent, (s.resolveWatch d).2, entry.shared.subs.length, hset⟩

theorem Away.attach (h : s.IdentityOk) (haway : ∀ (m : Nat) (c : Subscription V E), m ≠ n →
      s.subscriptions[m]? = some c → c.place = none → c.closed = false → c.base ∈ s.dependent)
    (hn : s.subscriptions[n]? = some d) (hplace : d.place = none)
    (hfirst : d.base ∈ s.dependent ∨ (d.results = [] ∧ ∀ j i, ¬ s.Owns n j i)) :
    (s.attach n d).Away := by
  obtain ⟨_, hdependent, k, i, hset⟩ := h.attach hn hplace hfirst
  intro m c hc hnone hclosed
  rw [hset, getElem?_set_of hn] at hc
  rw [hdependent]
  split at hc
  · cases hc
    simp [placed] at hnone
  · rename_i hne
    exact haway m c hne hc hnone hclosed

/-! ### The consumer's steps -/

/-- What the run keeps. -/
def Isolating (s : WatchActivation V E) : Prop := s.IdentityOk ∧ s.Away

theorem Isolating.openWatch (h : s.Isolating) {base : JsString} (hbase : IsWatchKey base)
    {declared aborted : Bool} {principal : Principal} :
    (s.openWatch base declared principal aborted).Isolating := by
  obtain ⟨hok, haway⟩ := h
  unfold WatchActivation.openWatch
  generalize hd :
    (⟨base, declared, principal, aborted, none, false, false, [], [], []⟩ : Subscription V E) = d
  have hlt : ∀ {m : Nat} {c : Subscription V E}, s.subscriptions[m]? = some c →
      (s.subscriptions ++ [d])[m]? = some c := by
    intro m c hc
    rw [List.getElem?_append_left (List.getElem?_eq_some_iff.1 hc).1]
    exact hc
  have hget : ∀ {m : Nat} {c : Subscription V E}, (s.subscriptions ++ [d])[m]? = some c →
      s.subscriptions[m]? = some c ∨ (m = s.subscriptions.length ∧ c = d) := by
    intro m c hc
    rw [List.getElem?_append] at hc
    split at hc
    · exact .inl hc
    rw [List.getElem?_singleton] at hc
    obtain ⟨_, hc⟩ := guard_passed hc
    exact .inr ⟨by omega, (Option.some.inj hc).symm⟩
  have hopened : ({ s with subscriptions := s.subscriptions ++ [d] } :
      WatchActivation V E).IdentityOk := by
    refine ⟨hok.entries, hok.owned, ?_, ?_, hok.map, ?_, ?_⟩
    · intro j e i m sub hj hm hsub
      obtain ⟨c, hc, hinner⟩ := hok.inner j e i m sub hj hm hsub
      exact ⟨c, hlt hc, hinner.congr fun _ _ => id⟩
    · intro j e m hj hm
      obtain ⟨c, hc, hbase'⟩ := hok.handles j e m hj hm
      exact ⟨c, hlt hc, hbase'⟩
    · intro m c hc
      rcases hget hc with hc | ⟨_, rfl⟩
      · exact hok.subscriptions m c hc
      · subst hd
        exact ⟨hbase, by simp, by simp, by simp⟩
    · intro m c j i hc hplace
      rcases hget hc with hc | ⟨_, rfl⟩
      · exact hok.place m c j i hc hplace
      · subst hd
        simp at hplace
  have hn : ({ s with subscriptions := s.subscriptions ++ [d] } :
      WatchActivation V E).subscriptions[s.subscriptions.length]? = some d := by simp
  have hfresh : d.results = [] ∧ ∀ j i, ¬ Owns
      ({ s with subscriptions := s.subscriptions ++ [d] } : WatchActivation V E)
      s.subscriptions.length j i := by
    refine ⟨by subst hd; rfl, ?_⟩
    rintro j i ⟨e, he, hm⟩
    have hi : i < e.shared.subs.length := by
      rw [← hok.owned j e he]
      exact (List.getElem?_eq_some_iff.1 hm).1
    obtain ⟨c, hc, _⟩ := hok.inner j e i _ _ he hm (List.getElem?_eq_getElem hi)
    simp at hc
  have hplace : d.place = none := by subst hd; rfl
  refine ⟨(hopened.attach hn hplace (.inr hfresh)).1,
    Away.attach hopened ?_ hn hplace (.inr hfresh)⟩
  intro m c hne hc hnone hclosed
  rcases hget hc with hc | ⟨heq, _⟩
  · exact haway m c hc hnone hclosed
  · exact absurd heq hne

theorem subscriptions_setShared : (s.setShared k entry shared).subscriptions = s.subscriptions := by
  unfold WatchActivation.setShared
  split <;> rfl

theorem dependent_setShared : (s.setShared k entry shared).dependent = s.dependent := by
  unfold WatchActivation.setShared
  split <;> rfl

theorem getElem?_setShared_self (hk : s.entries[k]? = some entry) :
    (s.setShared k entry shared).entries[k]? = some { entry with shared := shared } := by
  have hmoved : (s.setEntry k { entry with shared := shared }).entries[k]? =
      some { entry with shared := shared } := by
    rw [getElem?_setEntry hk, if_pos rfl]
  unfold WatchActivation.setShared
  split <;> exact hmoved

theorem Isolating.setShared (h : s.Isolating) (hk : s.entries[k]? = some entry)
    (hmoves : Moves (fun v => entry.Suits v.consulted) (fun e => entry.Suits e.consulted)
      entry.shared shared) : (s.setShared k entry shared).Isolating :=
  ⟨h.1.setShared hk hmoves, h.2.congr subscriptions_setShared
    fun _ hb => dependent_setShared.symm ▸ hb⟩

/-- What a subscriber gives up was in its hands, and it is out once it has given up its
end. -/
theorem pulled_shows {p : Principal} (hshows : Shows p sub) (hr : sub.pulled = some r) :
    r.Shows p := by
  unfold Subscriber.pulled at hr
  split at hr
  · rename_i v queue hqueue
    cases hr
    exact hshows.values v (by simp [hqueue])
  · split at hr
    · rename_i e he
      cases hr
      exact hshows.errors e he
    · obtain ⟨-, rfl⟩ := guard_taken hr
      trivial

theorem detached_next {w : Watch (Computed V) (Computed E)} {i pull : Nat}
    {sub' : Subscriber (Computed V) (Computed E)} (hr : sub.pulled = some r)
    (hend : ¬ ∃ v, r = .value v) (hsub' : (w.next i pull sub).subs[i]? = some sub') :
    sub'.attached = false := by
  unfold Subscriber.pulled at hr
  unfold Watch.next at hsub'
  cases hqueue : sub.queue with
  | cons v queue =>
    simp only [hqueue, Option.some.injEq] at hr
    exact absurd ⟨v, hr.symm⟩ hend
  | nil =>
    simp only [hqueue] at hr hsub'
    cases hfailed : sub.failed with
    | some e =>
      simp only [hfailed, Option.isSome_some, if_true] at hsub'
      exact detached_drop hsub'
    | none =>
      simp only [hfailed, Option.isSome_none, Bool.false_eq_true, if_false] at hr hsub'
      obtain ⟨hdone, hr⟩ := guard_passed hr
      rw [if_pos hdone] at hsub'
      exact detached_drop hsub'

/-- A call of `next()` of a fan-out's subscriber, and what it resolved to. -/
theorem Isolating.pulled (h : s.Isolating) (hk : s.entries[k]? = some entry) {i : Nat}
    (hm : entry.owners[i]? = some n) (hsub : entry.shared.subs[i]? = some sub)
    (hmoves : Moves (fun v => entry.Suits v.consulted) (fun e => entry.Suits e.consulted)
      entry.shared shared)
    (hend : ∀ r, sub.pulled = some r → (¬ ∃ v, r = .value v) →
      ∀ sub', shared.subs[i]? = some sub' → sub'.attached = false) :
    ((s.setShared k entry shared).resolvePulled n sub.pulled).Isolating := by
  have hmoved := h.setShared hk hmoves
  obtain ⟨d, hd, hinner⟩ := h.1.inner k entry i n sub hk hm hsub
  have hn : (s.setShared k entry shared).subscriptions[n]? = some d := by
    rw [subscriptions_setShared]
    exact hd
  unfold WatchActivation.resolvePulled
  cases hr : sub.pulled with
  | none => exact hmoved
  | some r =>
    rw [hn]
    have hok := hmoved.1.subscriptions n d hn
    have hresults : SubscriptionOk { d with results := d.results ++ [r] } := by
      refine { hok with results := ?_ }
      intro r' hr'
      rcases List.mem_append.1 hr' with hr' | hr'
      · exact hok.results r' hr'
      · obtain rfl := List.mem_singleton.1 hr'
        exact pulled_shows hinner.shows hr
    refine ⟨hmoved.1.setSubscription hn hresults ⟨rfl, rfl⟩ (.inl rfl) ?_,
      hmoved.2.setSubscription hn fun hnone hclosed => hmoved.2 n d hn hnone hclosed⟩
    by_cases hvalue : ∃ v, r = .value v
    · refine .inr ⟨rfl, ?_⟩
      intro r' hr'
      rcases List.mem_append.1 hr' with hr' | hr'
      · exact .inl hr'
      · exact .inr (List.mem_singleton.1 hr' ▸ hvalue)
    · -- its end: the one subscriber that an unsettled entry may have of it is out
      refine .inl ?_
      intro j e i' sub' hj hm' hsub' hattached
      cases hset : e.settled with
      | true => rfl
      | false =>
        obtain ⟨c, hc, hinner'⟩ := hmoved.1.inner j e i' n sub' hj hm' hsub'
        have hown : (s.setShared k entry shared).Owns n k i :=
          ⟨_, getElem?_setShared_self hk, hm⟩
        obtain ⟨rfl, rfl⟩ := (hinner'.held hattached hset).only k i hown
        rw [getElem?_setShared_self hk] at hj
        cases hj
        have hgone := hend r hr hvalue sub' hsub'
        simp [hattached] at hgone

theorem Isolating.pullInner (h : s.Isolating) : (s.pullInner n).Isolating := by
  unfold WatchActivation.pullInner
  split
  · rename_i d hd
    split
    · rename_i k i hplace
      obtain ⟨entry, hk, hm⟩ := h.1.place n d k i hd hplace
      rw [hk]
      simp only
      split
      · rename_i shared hpull
        obtain ⟨sub, hsub⟩ : ∃ sub, entry.shared.subs[i]? = some sub := by
          unfold Watch.pull at hpull
          split at hpull
          · rename_i sub hsub
            exact ⟨sub, hsub⟩
          · simp at hpull
        have hresolved := h.pulled hk hm hsub (Moves.pull hpull) ?_
        · simpa only [hsub, Option.bind_some] using hresolved
        · intro r hr hend sub' hsub'
          simp only [Watch.pull, hsub, Option.some.injEq] at hpull
          subst hpull
          have hr' : ({ sub with pulls := sub.pulls + 1 } :
              Subscriber (Computed V) (Computed E)).pulled = some r := hr
          exact detached_next hr' hend hsub'
      · exact h
    · exact h
  · exact h

theorem Isolating.pass (h : s.Isolating) (hstep : s.pass n = some t) : t.Isolating := by
  unfold WatchActivation.pass at hstep
  split at hstep
  · rename_i d hd
    split at hstep
    · exact Option.some.inj hstep ▸ h
    rename_i hclosed
    split at hstep
    · rename_i hplace
      cases hstep
      have hdependent := h.2 n d hd hplace (by simpa using hclosed)
      have hattached : (s.attach n d).Isolating :=
        ⟨(h.1.attach hd hplace (.inl hdependent)).1,
          Away.attach h.1 (fun m c _ hc => h.2 m c hc) hd hplace (.inl hdependent)⟩
      exact hattached.pullInner
    · cases hstep
      exact h.pullInner
  · simp at hstep

theorem Isolating.goOn {i pull : Nat} (h : s.Isolating) (hstep : s.goOn k i pull = some t) :
    t.Isolating := by
  unfold WatchActivation.goOn at hstep
  split at hstep
  · rename_i entry hk
    split at hstep
    · rename_i shared m hgo hm
      cases hstep
      obtain ⟨sub, hsub⟩ : ∃ sub, entry.shared.subs[i]? = some sub := by
        unfold Watch.goOn at hgo
        split at hgo
        · rename_i sub hsub
          exact ⟨sub, hsub⟩
        · simp at hgo
      have hresolved := h.pulled hk hm hsub (Moves.goOn hgo) ?_
      · simpa only [hsub, Option.bind_some] using hresolved
      · intro r hr hend sub' hsub'
        simp only [Watch.goOn, hsub] at hgo
        obtain ⟨-, rfl⟩ := guard_taken hgo
        have hr' : ({ sub with woken := sub.woken.erase pull, wake := none } :
            Subscriber (Computed V) (Computed E)).pulled = some r := hr
        exact detached_next hr' hend hsub'
    · simp at hstep
  · simp at hstep

/-- A subscription that is about to act on its end is on no unsettled entry. -/
theorem IdentityOk.free_of_end (h : s.IdentityOk) (hn : s.subscriptions[n]? = some d)
    (hr : r ∈ d.results) (hend : ¬ ∃ v, r = .value v) : s.Free n := by
  intro j e i sub hj hm hsub hattached
  cases hset : e.settled with
  | true => rfl
  | false =>
    obtain ⟨c, hc, hinner⟩ := h.inner j e i n sub hj hm hsub
    rw [hn] at hc
    cases hc
    exact absurd ((hinner.held hattached hset).results r hr) hend

theorem Isolating.resume {j : Nat} (h : s.Isolating) (hstep : s.resume n j = some t) :
    t.Isolating := by
  unfold WatchActivation.resume at hstep
  split at hstep
  · rename_i d hd
    have hok := h.1.subscriptions n d hd
    have hleft : ∀ r ∈ d.results.eraseIdx j, r ∈ d.results :=
      fun r hr => (List.eraseIdx_sublist _ _).mem hr
    have hshows : ∀ r ∈ d.results.eraseIdx j, r.Shows d.principal :=
      fun r hr => hok.results r (hleft r hr)
    split at hstep
    · rename_i v hr
      cases hstep
      have hmem := List.mem_of_getElem? hr
      refine ⟨h.1.setSubscription hd ⟨hok.base, hshows, ?_, hok.failures⟩ ⟨rfl, rfl⟩ (.inl rfl)
        (.inr ⟨rfl, fun r hr => .inl (hleft r hr)⟩), h.2.setSubscription hd (h.2 n d hd)⟩
      intro v' hv'
      rcases List.mem_append.1 hv' with hv' | hv'
      · exact hok.received v' hv'
      · obtain rfl := List.mem_singleton.1 hv'
        exact hok.results _ hmem
    · rename_i e hr
      cases hstep
      have hmem := List.mem_of_getElem? hr
      have hfree := h.1.free_of_end hd hmem (by simp)
      refine ⟨h.1.detach hd ⟨hok.base, hshows, hok.received, ?_⟩ ⟨rfl, rfl⟩ hfree,
        h.2.detach hd fun hclosed => by simp at hclosed⟩
      intro e' he'
      rcases List.mem_append.1 he' with he' | he'
      · exact hok.failures e' he'
      · obtain rfl := List.mem_singleton.1 he'
        exact hok.results _ hmem
    · rename_i hr
      have hfree := h.1.free_of_end hd (List.mem_of_getElem? hr) (by simp)
      split at hstep
      · have htaken : (s.setSubscription n
            { d with results := d.results.eraseIdx j }).Isolating :=
          ⟨h.1.setSubscription hd { hok with results := hshows } ⟨rfl, rfl⟩
            (.inl rfl) (.inl hfree), h.2.setSubscription hd (h.2 n d hd)⟩
        exact htaken.pass hstep
      · cases hstep
        exact ⟨h.1.detach hd { hok with results := hshows } ⟨rfl, rfl⟩ hfree,
          h.2.detach hd fun hclosed => by simp at hclosed⟩
    · simp at hstep
  · simp at hstep

theorem Isolating.leave (h : s.Isolating) (hstep : s.leave n = some t) : t.Isolating := by
  unfold WatchActivation.leave at hstep
  split at hstep
  · rename_i d hd
    cases hstep
    have hok := h.1.subscriptions n d hd
    have hclosed : SubscriptionOk { d with closed := true } :=
      { hok with }
    exact ⟨h.1.release hd hclosed ⟨rfl, rfl⟩ rfl,
      (h.2.detach hd fun hopen => by simp at hopen).dropInner _⟩
  · simp at hstep

theorem Isolating.abort (h : s.Isolating) (hstep : s.abort n = some t) : t.Isolating := by
  unfold WatchActivation.abort at hstep
  split at hstep
  · rename_i d hd
    cases hstep
    have hok := h.1.subscriptions n d hd
    have haborted : SubscriptionOk { d with aborted := true } :=
      { hok with }
    have hset := h.1.setSubscription hd haborted ⟨rfl, rfl⟩ (.inl rfl)
      (.inr ⟨rfl, fun r hr => .inl hr⟩)
    have haway : (s.setSubscription n { d with aborted := true }).Away :=
      h.2.setSubscription hd (h.2 n d hd)
    exact ⟨hset.dropInner _, haway.dropInner _⟩
  · simp at hstep

/-! ### The steps of a read -/

theorem Isolating.congr (h : s.Isolating) (hentries : t.entries = s.entries)
    (hsubscriptions : t.subscriptions = s.subscriptions) (hwatches : t.watches = s.watches)
    (hdependent : ∀ b ∈ s.dependent, b ∈ t.dependent) : t.Isolating :=
  ⟨h.1.congr hentries hsubscriptions hwatches hdependent, h.2.congr hsubscriptions hdependent⟩

theorem Isolating.setInvocation (h : s.Isolating) (hk : s.entries[k]? = some entry)
    {invocation : Invocation V E} (hown : OnlyOf entry.principal invocation.consulted)
    (hmarked : invocation.consulted ≠ [] → entry.base ∈ s.dependent)
    (hswept : ∀ outcome consulted, invocation = .swept outcome consulted →
      consulted ≠ [] → entry.settled = true) :
    (s.setEntry k { entry with invocation := invocation }).Isolating :=
  ⟨h.1.setInvocation hk hown hmarked hswept, h.2.congr rfl fun _ => id⟩

theorem Isolating.beginRead {als : Bool} (h : s.Isolating) (hstep : s.beginRead als k = some t) :
    t.Isolating := by
  unfold WatchActivation.beginRead at hstep
  split at hstep
  · rename_i entry hk
    split at hstep
    · have hrunning : (s.setEntry k { entry with invocation := .running [] }).Isolating :=
        h.setInvocation hk (by simp [OnlyOf, Invocation.consulted])
          (by simp [Invocation.consulted]) (by simp)
      split at hstep
      · exact Option.some.inj hstep ▸ hrunning
      · obtain ⟨-, rfl⟩ := guard_taken hstep
        exact hrunning.congr rfl rfl rfl fun _ => id
    · simp at hstep
  · simp at hstep

theorem Isolating.refuseRead {e : E} (h : s.Isolating) (hstep : s.refuseRead k e = some t) :
    t.Isolating := by
  unfold WatchActivation.refuseRead at hstep
  split at hstep
  · rename_i entry hk
    split at hstep
    · cases hstep
      exact h.setInvocation hk (by simp [OnlyOf, Invocation.consulted])
        (by simp [Invocation.consulted]) (by simp)
    · simp at hstep
  · simp at hstep

theorem Isolating.endRead {als : Bool} {outcome : Except E V} (h : s.Isolating)
    (hstep : s.endRead als k outcome = some t) : t.Isolating := by
  unfold WatchActivation.endRead at hstep
  split at hstep
  · rename_i entry hk
    split at hstep
    · rename_i consulted hrunning
      cases hstep
      have hentry := h.1.entries k entry hk
      have hown := hentry.own
      have hmarked := hentry.marked
      rw [hrunning] at hown hmarked
      have hended : (s.setEntry k { entry with invocation := .ended outcome consulted }).Isolating :=
        h.setInvocation hk hown hmarked (by simp)
      split
      · exact hended
      · exact hended.congr rfl rfl rfl fun _ => id
    · simp at hstep
  · simp at hstep

theorem mark_declared (hk : s.entries[k]? = some entry) (hdeclared : entry.declared = true) :
    s.mark (some k) = (s.setEntry k { entry with violated := true }, false) := by
  unfold WatchActivation.mark
  simp only [hk]
  exact if_pos hdeclared

theorem mark_undeclared (hk : s.entries[k]? = some entry) (hdeclared : ¬ entry.declared = true) :
    s.mark (some k) = ({ s with dependent := entry.base :: s.dependent }, true) := by
  unfold WatchActivation.mark
  simp only [hk]
  exact if_neg hdeclared

/-- The read is given its entry's principal, and its base key is known from then on;
or the read is failed. -/
theorem Isolating.consult {als : Bool} (h : s.Isolating)
    (hcontext : ∀ entry, s.entries[k]? = some entry →
      s.callContext als k entry = some (entry.context k))
    (hstep : s.consult als k = some t) : t.Isolating := by
  unfold WatchActivation.consult at hstep
  split at hstep
  · rename_i entry hk
    split at hstep
    · rename_i consulted hrunning
      have hentry := h.1.entries k entry hk
      have hown := hentry.own
      rw [hrunning] at hown
      simp only [hcontext entry hk, WatchEntry.context, Option.bind_some] at hstep
      by_cases hdeclared : entry.declared = true
      · rw [mark_declared hk hdeclared, getElem?_setEntry hk, if_pos rfl] at hstep
        cases hstep
        have hviolated : EntryOk s.dependent { entry with violated := true } :=
          { hentry with }
        exact ⟨h.1.setEntry hk hviolated ⟨rfl, rfl, rfl, rfl⟩ rfl (fun _ => id) (fun _ => .inl)
          (.refl _), h.2.congr rfl fun _ => id⟩
      · rw [mark_undeclared hk hdeclared] at hstep
        simp only [hk, if_true] at hstep
        cases hstep
        have hknown : ({ s with dependent := entry.base :: s.dependent } :
            WatchActivation V E).Isolating :=
          h.congr rfl rfl rfl fun _ hb => List.mem_cons_of_mem _ hb
        refine hknown.setInvocation hk ?_ (fun _ => List.mem_cons_self) (by simp)
        intro p hp
        rcases List.mem_append.1 hp with hp | hp
        · exact hown p hp
        · exact List.mem_singleton.1 hp
    · simp at hstep
  · simp at hstep

/-- The sweep comes before the push: what was computed from an identity is swept, and
its entry settled. -/
theorem Isolating.sweep {rejection : Option E} (h : s.Isolating)
    (hstep : s.sweep k rejection = some t) : t.Isolating := by
  unfold WatchActivation.sweep at hstep
  split at hstep
  · rename_i entry hk
    split at hstep
    · rename_i outcome consulted hended
      have hentry := h.1.entries k entry hk
      have hown := hentry.own
      have hmarked := hentry.marked
      rw [hended] at hown hmarked
      obtain ⟨-, hstep⟩ := guard_past hstep
      simp only at hstep
      split at hstep
      · rename_i hdiscovered
        obtain ⟨hunsettled, hdependent⟩ := hdiscovered
        cases hstep
        exact h.1.sweepAll h.2 hk hunsettled hdependent hown
      · rename_i hnot
        cases hstep
        refine h.setInvocation hk hown hmarked ?_
        intro outcome' consulted' hswept hne
        simp only [Invocation.swept.injEq] at hswept
        cases hsettled : entry.settled with
        | true => rfl
        | false => exact absurd ⟨hsettled, hmarked (by rw [hswept.2]; exact hne)⟩ hnot
    · simp at hstep
  · simp at hstep

theorem setShared_setEntry :
    (s.setEntry k entry').setShared k entry' shared = s.setShared k entry' shared := by
  simp [WatchActivation.setShared, WatchActivation.setEntry, List.set_set]

theorem Isolating.deliver {fingerprint : V → Option String} (h : s.Isolating)
    (hstep : s.deliver fingerprint k = some t) : t.Isolating := by
  unfold WatchActivation.deliver at hstep
  split at hstep
  · rename_i entry hk
    split at hstep
    · rename_i outcome consulted hswept
      have hentry := h.1.entries k entry hk
      have hown := hentry.own
      rw [hswept] at hown
      have hsuits : entry.Suits consulted := fun hne =>
        ⟨hentry.swept outcome consulted hswept hne, hown⟩
      simp only at hstep
      split at hstep
      · rename_i shared hshared
        cases hstep
        have hidle : (s.setEntry k { entry with invocation := .idle }).Isolating :=
          h.setInvocation hk (by simp [OnlyOf, Invocation.consulted])
            (by simp [Invocation.consulted]) (by simp)
        have hk' : (s.setEntry k { entry with invocation := .idle }).entries[k]? =
            some { entry with invocation := .idle } := by
          rw [getElem?_setEntry hk, if_pos rfl]
        have hmoves : Moves (fun v => entry.Suits v.consulted) (fun e => entry.Suits e.consulted)
            entry.shared shared := by
          cases outcome with
          | ok v => exact (Moves.readDone hshared).mono (by rintro _ rfl; exact hsuits) fun _ => id
          | error e => exact (Moves.readFails hshared).mono (fun _ => id) (by rintro _ rfl; exact hsuits)
        have hmoved := hidle.setShared hk' hmoves
        rwa [setShared_setEntry] at hmoved
      · simp at hstep
    · simp at hstep
  · simp at hstep

theorem Isolating.feed {e : FeedEvent E} (h : s.Isolating) (hstep : s.feed k e = some t) :
    t.Isolating := by
  unfold WatchActivation.feed at hstep
  split at hstep
  · rename_i entry hk
    split at hstep
    · rename_i shared hshared
      cases hstep
      have hentry := h.1.entries k entry hk
      generalize hinvocation : (if entry.shared.loop = .settling ∧ shared.loop = .reading false
        then Invocation.queued else entry.invocation) = invocation
      have hmoved : (s.setEntry k { entry with invocation := invocation }).Isolating := by
        subst hinvocation
        split
        · exact h.setInvocation hk (by simp [OnlyOf, Invocation.consulted])
            (by simp [Invocation.consulted]) (by simp)
        · exact h.setInvocation hk hentry.own hentry.marked hentry.swept
      have hk' : (s.setEntry k { entry with invocation := invocation }).entries[k]? =
          some { entry with invocation := invocation } := by
        rw [getElem?_setEntry hk, if_pos rfl]
      have hmoves : Moves (fun v => entry.Suits v.consulted) (fun e => entry.Suits e.consulted)
          entry.shared shared :=
        (Moves.feed hshared).mono (fun _ => id) fun _ hnone hne => absurd hnone hne
      have hshared' := hmoved.setShared hk' hmoves
      rwa [setShared_setEntry] at hshared'
    · simp at hstep
  · simp at hstep

end WatchActivation

end

/-! ## The run -/

section

variable {V E : Type} {als : Bool} {declares : JsString → Bool} {fingerprint : V → Option String}

open WatchActivation

/-- A read is asked for its principal while the current call is its own. -/
def OwnContext (als : Bool) (s : WatchActivation V E) : IdentityLabel V E → Prop
  | .consult k => ∀ entry ∈ s.entries[k]?, s.callContext als k entry = some (entry.context k)
  | _ => True

instance (s : WatchActivation V E) (l : IdentityLabel V E) : Decidable (OwnContext als s l) := by
  unfold OwnContext
  split <;> infer_instance

theorem isolating_step {s t : WatchActivation V E} {l : IdentityLabel V E} (h : s.Isolating)
    (hok : OwnContext als s l) (hstep : (watchIdentity als declares fingerprint).step s l = some t) :
    t.Isolating := by
  cases l with
  | openWatch method throttleMs encodedArgs principal aborted =>
    cases hstep
    exact h.openWatch ⟨method, throttleMs, encodedArgs, rfl⟩
  | next n => exact h.pass hstep
  | goOn k i pull => exact h.goOn hstep
  | resume n j => exact h.resume hstep
  | leave n => exact h.leave hstep
  | abort n => exact h.abort hstep
  | feed k e => exact h.feed hstep
  | beginRead k => exact h.beginRead hstep
  | refuseRead k e => exact h.refuseRead hstep
  | consult k => exact h.consult (fun entry hentry => hok entry hentry) hstep
  | callSelf =>
    simp only [watchIdentity, WatchActivation.callSelf] at hstep
    split at hstep
    · cases hstep
      exact h.congr rfl rfl rfl fun _ => id
    · simp at hstep
  | beginInline i =>
    simp only [watchIdentity, WatchActivation.beginInline] at hstep
    split at hstep
    · cases hstep
      exact h.congr rfl rfl rfl fun _ => id
    · simp at hstep
  | endInline j =>
    simp only [watchIdentity, WatchActivation.endInline] at hstep
    split at hstep
    · cases hstep
      exact h.congr rfl rfl rfl fun _ => id
    · simp at hstep
  | beginCall | endCall =>
    obtain ⟨-, rfl⟩ := guard_taken hstep
    exact h.congr rfl rfl rfl fun _ => id
  | endRead k outcome => exact h.endRead hstep
  | sweep k rejection => exact h.sweep hstep
  | deliver k => exact h.deliver hstep

/-- What every subscription received was computed without consulting a principal other
than its own. -/
def IdentityIsolated (s : WatchActivation V E) : Prop :=
  ∀ d ∈ s.subscriptions, (∀ v ∈ d.received, OnlyOf d.principal v.consulted) ∧
    ∀ e ∈ d.failures, OnlyOf d.principal e.consulted

/-- **Isolation.**  Where every read asks for its principal under its own call, no
subscription receives a value or an error that was computed from another's. -/
theorem watchIdentity_isolated {s : WatchActivation V E}
    (h : (watchIdentity als declares fingerprint).Reach (OwnContext als) s) :
    IdentityIsolated s := by
  have hisolating : s.Isolating := by
    refine h.invariant (I := WatchActivation.Isolating) ?_ ?_
    · rintro _ rfl
      exact ⟨⟨by simp, by simp, by simp, by simp, by simp, by simp, by simp⟩, by simp [Away]⟩
    · intro _ _ _ hs hok hstep
      exact isolating_step hs hok hstep
  intro d hd
  obtain ⟨n, hn⟩ := List.getElem?_of_mem hd
  have hok := hisolating.1.subscriptions n d hn
  exact ⟨hok.received, hok.failures⟩

end

/-- Two users watch one read, which asks for the principal: the second one is evicted,
joins the entry of its own, and is served there. -/
def discoveryRun : List (IdentityLabel Nat Nat) :=
  [.openWatch [109] [48] (.array []) (some [97]) false,
    .openWatch [109] [48] (.array []) (some [98]) false, .next 1, .beginRead 0, .consult 0,
    .endRead 0 (.ok 7), .sweep 0 none, .deliver 0, .next 0, .resume 0 0, .goOn 0 1 0, .resume 1 0,
    .beginRead 1, .consult 1, .endRead 1 (.ok 8), .sweep 1 none, .deliver 1, .goOn 1 0 0,
    .resume 1 0]

def discoveryEnd : WatchActivation Nat Nat :=
  ((watchIdentity false (fun _ => false) fun v => some (toString v)).exec (OwnContext false) {}
    discoveryRun).get (by decide)

theorem watchIdentity_isolated_discovery :
    discoveryEnd.subscriptions.map (·.received) =
        [[{ value := 7, consulted := [some [97]] }], [{ value := 8, consulted := [some [98]] }]] ∧
      IdentityIsolated discoveryEnd := by
  have hstart : (watchIdentity (E := Nat) false (fun _ => false)
      fun v : Nat => some (toString v)).Reach (OwnContext false) {} := .start rfl
  exact ⟨by decide, watchIdentity_isolated (hstart.exec_get discoveryRun (by decide))⟩

/-- The read makes two calls to its own actor at once, which run inline; the one that
began first ends first, and the other then restores the first one's call.  The read asks
for the principal after both: its call is not the current one any more, no key is
marked, and the second user is served the first one's view. -/
theorem not_identityIsolated : ¬ ∀ s, (watchIdentity (V := Nat) (E := Nat) false (fun _ => false)
      fun v => some (toString v)).Reachable s → IdentityIsolated s := by
  have hstart : (watchIdentity (V := Nat) (E := Nat) false (fun _ => false)
      fun v => some (toString v)).Reachable {} := .start rfl
  intro h
  have hserved := h _ (hstart.exec_get [.openWatch [109] [48] (.array []) (some [97]) false,
    .openWatch [109] [48] (.array []) (some [98]) false, .next 1, .beginRead 0, .callSelf,
    .callSelf, .beginInline 0, .beginInline 0, .endInline 0, .endInline 0, .consult 0,
    .endRead 0 (.ok 7), .sweep 0 none, .deliver 0, .goOn 0 1 0, .resume 1 0] (by decide))
  have hsecond := (hserved _ (List.mem_of_getElem? (i := 1) rfl)).1 _
    (List.mem_of_getElem? (i := 0) rfl)
  exact absurd (hsecond (some [97]) (by decide)) (by decide)

end SigxActors.Host
