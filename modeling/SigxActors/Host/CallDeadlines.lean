/-
  Host/CallDeadlines.lean --- calls that are raced against their deadlines.

  Source: `packages/actors/src/host/deadlines.ts` (`CallDeadlines`).

  The promises are numbered by when they were raced, the arrays of the buckets by when they were
  made; a bucket that has left the map goes on as an array.  A timer may fire any time after it is
  due.  The settlement of a `work`, and what it calls, is one step: nothing comes between.
-/
import SigxActors.Machine.Transition
import SigxActors.Js.Array
import SigxActors.Js.Map
import SigxActors.Types

set_option autoImplicit false

namespace SigxActors.Host

open SigxActors.Js

/-- `COARSE_TICK_MS`. -/
def coarseTickMs : Int := 1000

/-- `EXACT_BELOW_MS`. -/
def exactBelowMs : Int := 10000

/-- `Math.ceil(deadline / COARSE_TICK_MS)`. -/
def bucketKey (deadline : Int) : Int := -(-deadline / coarseTickMs)

/-- What a promise has settled with. -/
inductive RaceOutcome where
  | value
  | error
  /-- `ActorCallTimeoutError(actorLabel(ref), method, ms)`. -/
  | timedOut (ref : String) (method : String) (ms : Int)
  deriving DecidableEq, Repr

/-- A `Pending`; `bucket` is the array that it is in. -/
structure Pending where
  remaining : Int
  key : Int
  bucket : Option Nat
  index : Nat
  deriving DecidableEq, Repr

/-- A call of `race`. -/
structure RacedCall where
  deadline : Int
  ref : ActorRef
  method : String
  /-- `work` has settled. -/
  worked : Bool := false
  /-- When the timer of its own is due, and what it has left. -/
  timer : Option (Int × Int) := none
  pending : Option Pending := none
  /-- Only the first settlement counts. -/
  outcome : Option RaceOutcome := none
  deriving DecidableEq, Repr

namespace RacedCall

def settle (c : RacedCall) (outcome : RaceOutcome) : RacedCall :=
  match c.outcome with
  | none => { c with outcome := some outcome }
  | some _ => c

/-- The deadline has passed. -/
def timeOut (c : RacedCall) (ms : Int) : RacedCall :=
  c.settle (.timedOut (actorLabel c.ref) c.method ms)

/-- Its entry is in a bucket. -/
def live (c : RacedCall) : Bool := c.pending.any (·.bucket.isSome)

def leave (c : RacedCall) : RacedCall :=
  { c with pending := c.pending.map fun e => { e with bucket := none } }

def moveTo (c : RacedCall) (index : Nat) : RacedCall :=
  { c with pending := c.pending.map fun e => { e with index := index } }

end RacedCall

structure CallDeadlines where
  now : Int
  calls : List RacedCall := []
  arrays : List (List Nat) := []
  /-- `#buckets`. -/
  buckets : JsMap Int Nat := .empty
  size : Int := 0
  /-- `#timer`, and when it is due. -/
  timer : Option Int := none
  /-- `dispose` was called, and the timer was not armed since. -/
  disposed : Bool := false

namespace CallDeadlines

variable (s : CallDeadlines)

def entry (i : Nat) : Option Pending := (s.calls[i]?).bind (·.pending)

/-- `#arm`. -/
def arm : CallDeadlines := { s with timer := some (s.now + coarseTickMs), disposed := false }

/-- The bucket of a key is made, where there is none. -/
def bucketFor (key : Int) : CallDeadlines :=
  match s.buckets.get key with
  | some _ => s
  | none => { s with arrays := s.arrays ++ [[]], buckets := s.buckets.set key s.arrays.length }

/-- An entry is pushed to its bucket, for the promise that is raced last. -/
def push (address : Nat) (key deadline remaining : Int) (ref : ActorRef) (method : String) :
    CallDeadlines :=
  let bucket := (s.arrays[address]?).getD []
  { s with
    calls := s.calls ++ [{
      deadline := deadline
      ref := ref
      method := method
      pending := some ⟨remaining, key, some address, bucket.length⟩ }]
    arrays := s.arrays.set address (bucket ++ [s.calls.length])
    size := s.size + 1 }

/-- `#add`. -/
def add (deadline remaining : Int) (ref : ActorRef) (method : String) : CallDeadlines :=
  let key := bucketKey deadline
  let found := s.bucketFor key
  let added := found.push ((found.buckets.get key).getD 0) key deadline remaining ref method
  if added.timer.isNone then added.arm else added

/-- `race`. -/
def race (deadline : Int) (ref : ActorRef) (method : String) : CallDeadlines :=
  let remaining := deadline - s.now
  if remaining ≤ 0 then
    { s with
      calls := s.calls ++
        [({ deadline := deadline, ref := ref, method := method } : RacedCall).timeOut 0] }
  else if remaining < exactBelowMs then
    { s with
      calls := s.calls ++ [{
        deadline := deadline
        ref := ref
        method := method
        timer := some (s.now + remaining, remaining) }] }
  else s.add deadline remaining ref method

/-- `#remove`. -/
def remove (i : Nat) : CallDeadlines :=
  match s.entry i with
  | none => s
  | some e =>
      match e.bucket with
      | none => s
      | some address =>
          let bucket := (s.arrays[address]?).getD []
          let s := { s with calls := s.calls.modify i RacedCall.leave, size := s.size - 1 }
          let rest := bucket.dropLast
          match bucket.getLast? with
          | none =>
              { s with
                arrays := s.arrays.set address rest
                buckets := if rest = [] then s.buckets.erase e.key else s.buckets }
          | some last =>
              let rest := if last = i then rest else rest.set e.index last
              { s with
                calls := if last = i then s.calls else s.calls.modify last (·.moveTo e.index)
                arrays := s.arrays.set address rest
                buckets := if rest = [] then s.buckets.erase e.key else s.buckets }

/-- `work` has settled. -/
def work (i : Nat) (ok : Bool) : CallDeadlines :=
  let s := s.remove i
  { s with
    calls := s.calls.modify i fun c =>
      { c with worked := true, timer := none }.settle (if ok then .value else .error) }

/-- An entry of a bucket that is due. -/
def expire (i : Nat) : CallDeadlines :=
  match s.entry i with
  | none => s
  | some e =>
      match e.bucket with
      | none => s
      | some _ =>
          { s with
            calls := s.calls.modify i fun c => c.leave.timeOut e.remaining
            size := s.size - 1 }

/-- A bucket that the tick comes to. -/
def sweep (bucket : Int × Nat) : CallDeadlines :=
  if s.now < bucket.1 * coarseTickMs then s
  else
    ((s.arrays[bucket.2]?).getD []).foldl expire { s with buckets := s.buckets.erase bucket.1 }

/-- `#tick`.  Nothing is added to the map while it is gone through. -/
def tick : CallDeadlines :=
  let s := s.buckets.entries.foldl sweep { s with timer := none }
  if 0 < s.size then s.arm else s

def dispose : CallDeadlines := { s with timer := none, disposed := true }

inductive Label where
  | race (deadline : Int) (ref : ActorRef) (method : String)
  | work (i : Nat) (ok : Bool)
  /-- The timer of a call fires. -/
  | fire (i : Nat)
  | tick
  | dispose
  | pass (ms : Nat)

def step : Label → Option CallDeadlines
  | .race deadline ref method => some (s.race deadline ref method)
  | .work i ok =>
      match s.calls[i]? with
      | some c => if c.worked then none else some (s.work i ok)
      | none => none
  | .fire i =>
      match s.calls[i]? with
      | some c =>
          match c.timer with
          | some (due, ms) =>
              if due ≤ s.now then
                some { s with calls := s.calls.modify i fun c => { c with timer := none }.timeOut ms }
              else none
          | none => none
      | none => none
  | .tick =>
      match s.timer with
      | some due => if due ≤ s.now then some s.tick else none
      | none => none
  | .dispose => some s.dispose
  | .pass ms => some { s with now := s.now + ms }

end CallDeadlines

/-- The machine of one `CallDeadlines`. -/
def callDeadlines : Machine.System CallDeadlines CallDeadlines.Label where
  initial s := ∃ now, s = { now := now }
  step := CallDeadlines.step

/-! ## What is in the buckets -/

namespace CallDeadlines

variable {s t : CallDeadlines} {i j : Nat}

/-- Where a live entry says that it is, it is, and a bucket has live entries and no others. -/
structure Indexed (s : CallDeadlines) : Prop where
  back : ∀ (i : Nat) (e : Pending) (a : Nat), s.entry i = some e → e.bucket = some a →
    s.buckets.get e.key = some a ∧ ∃ l, s.arrays[a]? = some l ∧ l[e.index]? = some i
  front : ∀ (key : Int) (a : Nat), s.buckets.get key = some a → ∃ l, s.arrays[a]? = some l ∧ l ≠ [] ∧
    ∀ (k i : Nat), l[k]? = some i →
      ∃ e, s.entry i = some e ∧ e.bucket = some a ∧ e.index = k ∧ e.key = key
  size : s.size = (s.calls.countP RacedCall.live : Nat)

/-- What is said of one call. -/
structure CallOk (now : Int) (c : RacedCall) : Prop where
  waits : c.outcome = none → c.worked = false ∧ (c.live = true ∨ c.timer.isSome = true)
  unsettled : c.live = true ∨ c.timer.isSome = true → c.outcome = none
  late : ∀ ref method ms, c.outcome = some (.timedOut ref method ms) → c.deadline ≤ now
  due : ∀ due ms, c.timer = some (due, ms) → c.deadline ≤ due
  key : ∀ e, c.pending = some e → e.key = bucketKey c.deadline
  apart : c.timer.isSome = true → c.pending = none

theorem le_bucketKey (deadline : Int) : deadline ≤ bucketKey deadline * coarseTickMs := by
  unfold bucketKey coarseTickMs
  omega

variable {c c' : RacedCall} {e : Pending} {key now : Int} {a : Nat}

theorem live_iff : c.live = true ↔ ∃ e a, c.pending = some e ∧ e.bucket = some a := by
  unfold RacedCall.live
  rw [Option.any_eq_true]
  constructor
  · rintro ⟨e, he, hsome⟩
    obtain ⟨a, ha⟩ := Option.isSome_iff_exists.1 hsome
    exact ⟨e, a, he, ha⟩
  · rintro ⟨e, a, he, ha⟩
    exact ⟨e, he, ha ▸ rfl⟩

theorem entry_eq : s.entry i = some e ↔ ∃ c, s.calls[i]? = some c ∧ c.pending = some e :=
  Option.bind_eq_some_iff

/-- A bucket has no key but one. -/
theorem Indexed.key_eq (h : s.Indexed) {key' : Int} (hkey : s.buckets.get key = some a)
    (hkey' : s.buckets.get key' = some a) : key = key' := by
  obtain ⟨l, hl, hne, hmem⟩ := h.front key a hkey
  obtain ⟨l', hl', -, hmem'⟩ := h.front key' a hkey'
  cases hl.symm.trans hl'
  have hlt : 0 < l.length := List.length_pos_iff.2 hne
  obtain ⟨e, he, -, -, rfl⟩ := hmem 0 l[0] (List.getElem?_eq_getElem hlt)
  obtain ⟨e', he', -, -, rfl⟩ := hmem' 0 l[0] (List.getElem?_eq_getElem hlt)
  rw [Option.some.inj (he.symm.trans he')]

/-! ### An entry goes -/

theorem entry_modify {f : RacedCall → RacedCall} {g : Pending → Pending}
    (hcalls : t.calls = s.calls.modify i f) (hf : ∀ c, (f c).pending = c.pending.map g) (j : Nat) :
    t.entry j = if i = j then (s.entry j).map g else s.entry j := by
  unfold entry
  rw [hcalls, modify_get]
  split
  · cases s.calls[j]? with
    | none => rfl
    | some c => exact hf c
  · rfl

theorem settle_pending (c : RacedCall) (outcome : RaceOutcome) :
    (c.settle outcome).pending = c.pending ∧ (c.settle outcome).timer = c.timer ∧
      (c.settle outcome).worked = c.worked ∧ (c.settle outcome).deadline = c.deadline := by
  unfold RacedCall.settle
  split <;> exact ⟨rfl, rfl, rfl, rfl⟩

theorem live_leave (c : RacedCall) : c.leave.live = false := by
  unfold RacedCall.leave RacedCall.live
  cases c.pending <;> rfl

theorem live_moveTo (c : RacedCall) (index : Nat) : (c.moveTo index).live = c.live := by
  unfold RacedCall.moveTo RacedCall.live
  cases c.pending <;> rfl

/-- What `remove` comes to, of an entry that is in a bucket. -/
theorem remove_eq (h : s.Indexed) (he : s.entry i = some e) (ha : e.bucket = some a) :
    ∃ l last, s.arrays[a]? = some l ∧ l[e.index]? = some i ∧
      l.getLast? = some last ∧ s.remove i =
        { s with
          calls := if last = i then s.calls.modify i RacedCall.leave
            else (s.calls.modify i RacedCall.leave).modify last (·.moveTo e.index)
          arrays := s.arrays.set a (if last = i then l.dropLast else l.dropLast.set e.index last)
          buckets := if (if last = i then l.dropLast else l.dropLast.set e.index last) = [] then
            s.buckets.erase e.key else s.buckets
          size := s.size - 1 } := by
  obtain ⟨-, l, hl, hget⟩ := h.back i e a he ha
  have hne : l ≠ [] := by
    rintro rfl
    cases hget
  obtain ⟨last, hlast⟩ := Option.isSome_iff_exists.1 (List.getLast?_isSome.2 hne)
  refine ⟨l, last, hl, hget, hlast, ?_⟩
  unfold remove
  rw [he]
  dsimp only
  rw [ha]
  dsimp only
  rw [hl, Option.getD_some, hlast]

theorem entry_remove {e : Pending} {last index : Nat} (he : s.entry i = some e)
    {arrays : List (List Nat)} {buckets : JsMap Int Nat} {size : Int}
    (hremove : s.remove i = { s with
      calls := if last = i then s.calls.modify i RacedCall.leave
        else (s.calls.modify i RacedCall.leave).modify last (·.moveTo index)
      arrays := arrays
      buckets := buckets
      size := size }) (j : Nat) :
    (s.remove i).entry j =
      if j = i then some { e with bucket := none }
      else if j = last then (s.entry j).map fun c => { c with index := index }
      else s.entry j := by
  have hleave : ({ s with calls := s.calls.modify i RacedCall.leave } : CallDeadlines).entry j =
      if i = j then (s.entry j).map fun c => { c with bucket := none } else s.entry j :=
    entry_modify rfl (fun _ => rfl) j
  by_cases hlast : last = i
  · have hsame : (s.remove i).entry j =
        ({ s with calls := s.calls.modify i RacedCall.leave } : CallDeadlines).entry j := by
      rw [hremove, if_pos hlast]
      rfl
    rw [hsame, hleave]
    split
    · rename_i heq
      rw [if_pos heq.symm, ← heq, he]
      rfl
    · rename_i hne
      rw [if_neg (Ne.symm hne), if_neg fun heq => hne (heq.trans hlast).symm]
  · have hmove : (s.remove i).entry j = if last = j then
        (({ s with calls := s.calls.modify i RacedCall.leave } : CallDeadlines).entry j).map
          fun c => { c with index := index }
        else ({ s with calls := s.calls.modify i RacedCall.leave } : CallDeadlines).entry j := by
      refine entry_modify (f := (·.moveTo index)) ?_ (fun _ => rfl) j
      rw [hremove, if_neg hlast]
    rw [hmove, hleave]
    by_cases hji : j = i
    · subst j
      rw [if_neg hlast, if_pos rfl, if_pos rfl, he]
      rfl
    · rw [if_neg (Ne.symm hji), if_neg hji]
      split
      · rename_i heq
        rw [if_pos heq.symm]
      · rename_i hne
        rw [if_neg (Ne.symm hne)]

theorem Indexed.remove (h : s.Indexed) (i : Nat) : (s.remove i).Indexed := by
  cases he : s.entry i with
  | none =>
    have hsame : s.remove i = s := by
      unfold CallDeadlines.remove
      rw [he]
    rw [hsame]
    exact h
  | some e =>
    cases ha : e.bucket with
    | none =>
      have hsame : s.remove i = s := by
        unfold CallDeadlines.remove
        rw [he]
        dsimp only
        rw [ha]
      rw [hsame]
      exact h
    | some a =>
      obtain ⟨l, last, hl, hget, hlast, hremove⟩ := remove_eq h he ha
      obtain ⟨hkey, -⟩ := h.back i e a he ha
      obtain ⟨l', hl', -, hmem⟩ := h.front e.key a hkey
      cases hl.symm.trans hl'
      have honce : ∀ k, l[k]? = some i → k = e.index := by
        intro k hk
        obtain ⟨e', he', -, hindex, -⟩ := hmem k i hk
        cases he.symm.trans he'
        exact hindex.symm
      have hend : l[l.length - 1]? = some last := by
        rw [← List.getLast?_eq_getElem?]
        exact hlast
      have hrest := fun j b => swapPop_get (j := j) (b := b) hget honce hlast
      generalize hrest' : (if last = i then l.dropLast else l.dropLast.set e.index last) = rest
        at hremove hrest
      have hcases : ∀ k j, rest[k]? = some j → j ≠ i ∧ (j = last ∧ k = e.index ∨
          j ≠ last ∧ k ≠ e.index ∧ l[k]? = some j) := by
        intro k j hk
        obtain ⟨hlt, ⟨rfl, rfl⟩ | ⟨hne, hk⟩⟩ := (hrest k j).1 hk
        · refine ⟨fun heq => ?_, .inl ⟨rfl, rfl⟩⟩
          have := honce _ (heq ▸ hend)
          omega
        · refine ⟨fun heq => hne (honce k (heq ▸ hk)), .inr ⟨fun heq => ?_, hne, hk⟩⟩
          obtain ⟨c, hc, -, hindex, -⟩ := hmem k j hk
          obtain ⟨c', hc', -, hindex', -⟩ := hmem _ last hend
          rw [heq] at hc
          cases hc.symm.trans hc'
          omega
      have hentry := fun j => entry_remove he hremove j
      have hother : ∀ j c a', s.entry j = some c → c.bucket = some a' → a' ≠ a →
          (s.remove i).entry j = some c := by
        intro j c a' hc ha' hne
        have hji : j ≠ i := by
          rintro rfl
          cases he.symm.trans hc
          exact hne (Option.some.inj (ha'.symm.trans ha))
        have hjl : j ≠ last := by
          rintro rfl
          obtain ⟨c', hc', hbucket, -⟩ := hmem _ j hend
          cases hc.symm.trans hc'
          exact hne (Option.some.inj (ha'.symm.trans hbucket))
        rw [hentry j, if_neg hji, if_neg hjl, hc]
      have harray : ∀ a', (s.remove i).arrays[a']? = if a' = a then some rest else s.arrays[a']? := by
        intro a'
        rw [hremove]
        rw [List.getElem?_set]
        split
        · subst a'
          rw [if_pos rfl, if_pos (lt_of_get hl)]
        · rename_i hne
          rw [if_neg (Ne.symm hne)]
      have hbuckets : ∀ key a', (s.remove i).buckets.get key = some a' ↔
          s.buckets.get key = some a' ∧ (rest = [] → key ≠ e.key) := by
        intro key a'
        rw [hremove]
        dsimp only
        split
        · rename_i hnil
          rw [JsMap.get_erase]
          split
          · rename_i heq
            exact ⟨nofun, fun hboth => absurd heq (hboth.2 hnil)⟩
          · rename_i hne
            exact ⟨fun hsome => ⟨hsome, fun _ => hne⟩, And.left⟩
        · rename_i hnil
          exact ⟨fun hsome => ⟨hsome, fun hnil' => absurd hnil' hnil⟩, And.left⟩
      refine ⟨fun j e' a' he' ha' => ?_, fun key a' hget' => ?_, ?_⟩
      · rw [hentry] at he'
        split at he'
        · cases he'
          cases ha'
        · rename_i hji
          obtain ⟨c, hc, hbucket, hkeyc, hindex⟩ : ∃ c, s.entry j = some c ∧ c.bucket = some a' ∧
              e'.key = c.key ∧ e'.index = if j = last then e.index else c.index := by
            split at he'
            · rename_i heq
              obtain ⟨c, hc, rfl⟩ := Option.map_eq_some_iff.1 he'
              exact ⟨c, hc, ha', rfl, (if_pos heq).symm⟩
            · rename_i hne
              exact ⟨e', he', ha', rfl, (if_neg hne).symm⟩
          obtain ⟨hkeyold, l₀, hl₀, hget₀⟩ := h.back j c a' hc hbucket
          by_cases hsame : a' = a
          · subst a'
            cases hl.symm.trans hl₀
            have hplace : rest[e'.index]? = some j := by
              have hlt := lt_of_get hget
              have hlt' := lt_of_get hget₀
              rw [hindex]
              split
              · rename_i heq
                refine (hrest _ _).2 ⟨?_, .inl ⟨rfl, heq⟩⟩
                have hne : e.index ≠ l.length - 1 := by
                  intro hidx
                  rw [← hidx, hget] at hend
                  exact hji (heq.trans (Option.some.inj hend).symm)
                omega
              · rename_i hne
                refine (hrest _ _).2 ⟨?_, .inr ⟨fun hidx => hji ?_, hget₀⟩⟩
                · have hne' : c.index ≠ l.length - 1 := by
                    intro hidx
                    rw [← hidx, hget₀] at hend
                    exact hne (Option.some.inj hend)
                  omega
                · rw [hidx, hget] at hget₀
                  exact (Option.some.inj hget₀).symm
            refine ⟨(hbuckets _ _).2 ⟨hkeyc ▸ hkeyold, fun hnil => ?_⟩, rest, ?_, hplace⟩
            · rw [hnil] at hplace
              cases hplace
            · rw [harray, if_pos rfl]
          · refine ⟨(hbuckets _ _).2 ⟨hkeyc ▸ hkeyold, fun _ heq => hsame ?_⟩, l₀, ?_, ?_⟩
            · rw [← hkeyc, heq, hkey] at hkeyold
              exact (Option.some.inj hkeyold).symm
            · rw [harray, if_neg hsame]
              exact hl₀
            · have hstays := hother j c a' hc hbucket hsame
              rw [hentry, if_neg hji] at hstays
              cases he'.symm.trans hstays
              exact hget₀
      · obtain ⟨hold, hnonempty⟩ := (hbuckets key a').1 hget'
        by_cases hsame : key = e.key
        · subst hsame
          cases hkey.symm.trans hold
          refine ⟨rest, (harray a).trans (if_pos rfl), fun hnil => hnonempty hnil rfl, ?_⟩
          intro k j hk
          obtain ⟨hji, ⟨rfl, rfl⟩ | ⟨hne, hidx, hk⟩⟩ := hcases k j hk
          · obtain ⟨c, hc, hbucket, -, hkeyc⟩ := hmem _ j hend
            refine ⟨{ c with index := e.index }, ?_, hbucket, rfl, hkeyc⟩
            rw [hentry, if_neg hji, if_pos rfl, hc]
            rfl
          · obtain ⟨c, hc, hwhat⟩ := hmem k j hk
            refine ⟨c, ?_, hwhat⟩
            rw [hentry, if_neg hji, if_neg hne, hc]
        · have hne : a' ≠ a := fun heq => hsame (h.key_eq (heq ▸ hold) hkey)
          obtain ⟨l₀, hl₀, hne₀, hmem₀⟩ := h.front key a' hold
          refine ⟨l₀, ?_, hne₀, fun k j hk => ?_⟩
          · rw [harray, if_neg hne]
            exact hl₀
          · obtain ⟨c, hc, hbucket, hwhat⟩ := hmem₀ k j hk
            exact ⟨c, hother j c a' hc hbucket hne, hbucket, hwhat⟩
      · obtain ⟨c, hc, hpending⟩ := entry_eq.1 he
        have hlost := countP_modify_lost (f := RacedCall.leave) hc
          (live_iff.2 ⟨e, a, hpending, ha⟩) (live_leave c)
        have hcount : (s.remove i).calls.countP RacedCall.live =
            (s.calls.modify i RacedCall.leave).countP RacedCall.live := by
          rw [hremove]
          split
          · rfl
          · exact countP_modify fun c _ => live_moveTo c e.index
        have hsize : (s.remove i).size = s.size - 1 := by rw [hremove]
        rw [hsize, hcount, h.size]
        omega

/-! ### An entry comes -/

theorem entry_append (hcalls : t.calls = s.calls ++ [c]) (j : Nat) :
    t.entry j = if j = s.calls.length then c.pending else s.entry j := by
  unfold entry
  rw [hcalls]
  split
  · rename_i hj
    rw [hj, List.getElem?_concat_length]
    rfl
  · rw [List.getElem?_append]
    split
    · rfl
    have hlong : [c].length ≤ j - s.calls.length := by
      rw [List.length_singleton]
      omega
    rw [List.getElem?_eq_none hlong, List.getElem?_eq_none (by omega)]

theorem lt_of_entry (he : s.entry i = some e) : i < s.calls.length := by
  obtain ⟨c, hc, -⟩ := entry_eq.1 he
  exact lt_of_get hc

/-- An entry is pushed to the bucket of its key, or to a new one. -/
theorem Indexed.push (h : s.Indexed) {l : List Nat} (hcalls : t.calls = s.calls ++ [c])
    (hpending : c.pending = some e) (hbucket : e.bucket = some a) (hindex : e.index = l.length)
    (harrays : ∀ a', t.arrays[a']? = if a' = a then some (l ++ [s.calls.length]) else s.arrays[a']?)
    (hkey : t.buckets.get e.key = some a)
    (hkeys : ∀ key, key ≠ e.key → t.buckets.get key = s.buckets.get key)
    (hfound : s.buckets.get e.key = some a ∧ s.arrays[a]? = some l ∨
      s.buckets.get e.key = none ∧ s.arrays[a]? = none ∧ l = [])
    (hsize : t.size = s.size + 1) : t.Indexed := by
  have hentry := entry_append hcalls
  have hlive : c.live = true := live_iff.2 ⟨e, a, hpending, hbucket⟩
  have hold : ∀ key, s.buckets.get key = some a → s.buckets.get e.key = some a ∧ s.arrays[a]? = some l := by
    intro key hget
    rcases hfound with hboth | ⟨-, hnone, -⟩
    · exact hboth
    · obtain ⟨l', hl', -⟩ := h.front key a hget
      cases hnone.symm.trans hl'
  have hsame : ∀ key a', s.buckets.get key = some a' → t.buckets.get key = some a' := by
    intro key a' hget
    by_cases hk : key = e.key
    · subst hk
      rcases hfound with ⟨hget', -⟩ | ⟨hnone, -⟩
      · cases hget.symm.trans hget'
        exact hkey
      · cases hnone.symm.trans hget
    · rw [hkeys key hk]
      exact hget
  refine ⟨fun j e' a' he' ha' => ?_, fun key a' hget => ?_, ?_⟩
  · rw [hentry] at he'
    split at he'
    · rename_i hj
      cases hpending.symm.trans he'
      cases hbucket.symm.trans ha'
      refine ⟨hkey, _, (harrays a).trans (if_pos rfl), ?_⟩
      rw [hindex, hj]
      exact List.getElem?_concat_length
    · obtain ⟨hget, l', hl', hplace⟩ := h.back j e' a' he' ha'
      refine ⟨hsame _ _ hget, ?_⟩
      by_cases ha : a' = a
      · subst ha
        cases hl'.symm.trans (hold _ hget).2
        exact ⟨_, (harrays a').trans (if_pos rfl), append_get _ hplace⟩
      · exact ⟨l', (harrays a').trans ((if_neg ha).trans hl'), hplace⟩
  · by_cases hk : key = e.key
    · subst hk
      cases hkey.symm.trans hget
      refine ⟨_, (harrays a).trans (if_pos rfl), List.append_ne_nil_of_right_ne_nil _ nofun, ?_⟩
      intro k j hj
      rcases of_append_get hj with ⟨rfl, rfl⟩ | ⟨-, hj⟩
      · exact ⟨e, (hentry _).trans ((if_pos rfl).trans hpending), hbucket, hindex, rfl⟩
      rcases hfound with ⟨hget', hl⟩ | ⟨-, -, rfl⟩
      · obtain ⟨l', hl', -, hmem⟩ := h.front e.key a hget'
        cases hl.symm.trans hl'
        obtain ⟨e', he', hwhat⟩ := hmem k j hj
        refine ⟨e', (hentry j).trans ((if_neg ?_).trans he'), hwhat⟩
        exact Nat.ne_of_lt (lt_of_entry he')
      · cases hj
    · rw [hkeys key hk] at hget
      obtain ⟨l', hl', hne, hmem⟩ := h.front key a' hget
      have ha : a' ≠ a := by
        rintro rfl
        exact hk (h.key_eq hget (hold key hget).1)
      refine ⟨l', (harrays a').trans ((if_neg ha).trans hl'), hne, fun k j hj => ?_⟩
      obtain ⟨e', he', hwhat⟩ := hmem k j hj
      refine ⟨e', (hentry j).trans ((if_neg ?_).trans he'), hwhat⟩
      exact Nat.ne_of_lt (lt_of_entry he')
  · rw [hsize, h.size, hcalls, List.countP_append, List.countP_singleton, if_pos hlive]
    rfl

/-- The bucket of a key is there, or it is made. -/
theorem bucketFor_spec (h : s.Indexed) (key : Int) :
    ∃ (a : Nat) (l : List Nat), (s.bucketFor key).buckets.get key = some a ∧
      (s.bucketFor key).arrays[a]? = some l ∧
      (s.buckets.get key = some a ∧ s.arrays[a]? = some l ∨
        s.buckets.get key = none ∧ s.arrays[a]? = none ∧ l = []) ∧
      (∀ a', a' ≠ a → (s.bucketFor key).arrays[a']? = s.arrays[a']?) ∧
      (∀ key', key' ≠ key → (s.bucketFor key).buckets.get key' = s.buckets.get key') := by
  unfold bucketFor
  cases hget : s.buckets.get key with
  | some a =>
    obtain ⟨l, hl, -⟩ := h.front key a hget
    exact ⟨a, l, hget, hl, .inl ⟨rfl, hl⟩, fun _ _ => rfl, fun _ _ => rfl⟩
  | none =>
    refine ⟨s.arrays.length, [], JsMap.get_set_self _ _ _, List.getElem?_concat_length,
      .inr ⟨rfl, List.getElem?_eq_none (Nat.le_refl _), rfl⟩, fun a' hne => ?_, fun key' hne => ?_⟩
    · rw [List.getElem?_append]
      split
      · rfl
      · rw [List.getElem?_eq_none (by rw [List.length_singleton]; omega),
          List.getElem?_eq_none (by omega)]
    · rw [JsMap.get_set, if_neg hne]

theorem bucketFor_calls (key : Int) : (s.bucketFor key).calls = s.calls ∧
    (s.bucketFor key).size = s.size ∧ (s.bucketFor key).now = s.now ∧
      (s.bucketFor key).timer = s.timer ∧ (s.bucketFor key).disposed = s.disposed := by
  unfold bucketFor
  split <;> exact ⟨rfl, rfl, rfl, rfl, rfl⟩

/-- What is pushed by `#add`, before the timer is armed. -/
theorem add_eq (h : s.Indexed) (deadline remaining : Int) (ref : ActorRef) (method : String) :
    ∃ (t : CallDeadlines) (e : Pending) (a : Nat), t.Indexed ∧
      t.calls = s.calls ++ [{
        deadline := deadline
        ref := ref
        method := method
        pending := some e }] ∧
      e.remaining = remaining ∧ e.key = bucketKey deadline ∧ e.bucket = some a ∧
      t.now = s.now ∧ t.timer = s.timer ∧ t.disposed = s.disposed ∧
      s.add deadline remaining ref method = if t.timer.isNone then t.arm else t := by
  obtain ⟨a, l, hget, hl, hfound, harrays, hkeys⟩ := bucketFor_spec h (bucketKey deadline)
  obtain ⟨hcalls, hsize, hnow, htimer, hdisposed⟩ := bucketFor_calls (s := s) (bucketKey deadline)
  have hadd : s.add deadline remaining ref method =
      if ((s.bucketFor (bucketKey deadline)).push a (bucketKey deadline) deadline remaining ref
          method).timer.isNone then
        ((s.bucketFor (bucketKey deadline)).push a (bucketKey deadline) deadline remaining ref
          method).arm
      else (s.bucketFor (bucketKey deadline)).push a (bucketKey deadline) deadline remaining ref
        method := by
    unfold add
    dsimp only
    rw [hget, Option.getD_some]
  generalize s.bucketFor (bucketKey deadline) = found at *
  refine ⟨found.push a (bucketKey deadline) deadline remaining ref method,
    ⟨remaining, bucketKey deadline, some a, l.length⟩, a, ?_, ?_, rfl, rfl, rfl, hnow, htimer,
    hdisposed, hadd⟩
  · refine h.push (e := ⟨remaining, bucketKey deadline, some a, l.length⟩) (a := a) (l := l)
      (c := ⟨deadline, ref, method, false, none,
        some ⟨remaining, bucketKey deadline, some a, l.length⟩, none⟩)
      ?_ rfl rfl rfl (fun a' => ?_) hget hkeys hfound ?_
    · unfold push
      rw [hl, hcalls, Option.getD_some]
    · unfold push
      rw [hl, Option.getD_some, List.getElem?_set]
      split
      · subst a'
        rw [if_pos rfl, if_pos (lt_of_get hl), hcalls]
      · rename_i hne
        rw [if_neg (Ne.symm hne), harrays a' (Ne.symm hne)]
    · unfold push
      rw [hsize]
  · unfold push
    rw [hl, hcalls, Option.getD_some]

/-- What `Indexed` is about has stayed. -/
theorem Indexed.congr (h : s.Indexed) (hentry : ∀ i, t.entry i = s.entry i)
    (harrays : t.arrays = s.arrays) (hbuckets : t.buckets = s.buckets) (hsize : t.size = s.size)
    (hcount : t.calls.countP RacedCall.live = s.calls.countP RacedCall.live) : t.Indexed := by
  refine ⟨fun i e a he ha => ?_, fun key a hget => ?_, ?_⟩
  · rw [hbuckets, harrays]
    exact h.back i e a ((hentry i).symm.trans he) ha
  · rw [hbuckets] at hget
    obtain ⟨l, hl, hne, hmem⟩ := h.front key a hget
    refine ⟨l, harrays ▸ hl, hne, fun k i hk => ?_⟩
    obtain ⟨e, he, hwhat⟩ := hmem k i hk
    exact ⟨e, (hentry i).trans he, hwhat⟩
  · rw [hsize, hcount]
    exact h.size

theorem Indexed.arm (h : s.Indexed) : s.arm.Indexed :=
  h.congr (fun _ => rfl) rfl rfl rfl rfl

/-! ## What is said of a call -/

theorem settle_outcome (c : RacedCall) (outcome : RaceOutcome) :
    (c.settle outcome).outcome = some (c.outcome.getD outcome) := by
  unfold RacedCall.settle
  split
  · rename_i hnone
    rw [hnone]
    rfl
  · rename_i o hsome
    rw [hsome]
    rfl

theorem settle_live (c : RacedCall) (outcome : RaceOutcome) : (c.settle outcome).live = c.live := by
  unfold RacedCall.live
  rw [(settle_pending c outcome).1]

/-- What is said of a call that has settled, and for which nothing is left to be done. -/
theorem CallOk.settled (hout : c.outcome ≠ none) (hlive : c.live = false) (htimer : c.timer = none)
    (hlate : ∀ ref method ms, c.outcome = some (.timedOut ref method ms) → c.deadline ≤ now)
    (hkey : ∀ e, c.pending = some e → e.key = bucketKey c.deadline) : CallOk now c where
  waits hnone := absurd hnone hout
  unsettled hor := by
    rw [hlive, htimer] at hor
    rcases hor with hor | hor <;> cases hor
  late := hlate
  due due ms hsome := by
    rw [htimer] at hsome
    cases hsome
  key := hkey
  apart hsome := by
    rw [htimer] at hsome
    cases hsome

theorem CallOk.mono {now' : Int} (h : CallOk now c) (hle : now ≤ now') : CallOk now' c where
  waits := h.waits
  unsettled := h.unsettled
  late ref method ms hout := Int.le_trans (h.late ref method ms hout) hle
  due := h.due
  key := h.key
  apart := h.apart

theorem CallOk.moveTo (h : CallOk now c) (index : Nat) : CallOk now (c.moveTo index) where
  waits hnone := by
    rw [live_moveTo]
    exact h.waits hnone
  unsettled hor := by
    rw [live_moveTo] at hor
    exact h.unsettled hor
  late := h.late
  due := h.due
  key e he := by
    obtain ⟨e', he', rfl⟩ := Option.map_eq_some_iff.1 he
    exact h.key e' he'
  apart hsome := by
    unfold RacedCall.moveTo
    rw [h.apart hsome]
    rfl

/-- What is said of the entry stays said once it has left. -/
theorem CallOk.leave_key (h : CallOk now c) (he : c.leave.pending = some e) :
    e.key = bucketKey c.deadline := by
  obtain ⟨e', he', rfl⟩ := Option.map_eq_some_iff.1 he
  exact h.key e' he'

/-- `work` has settled, after the entry was removed. -/
theorem CallOk.work (h : CallOk now c) (ok : Bool) :
    CallOk now ({ c.leave with worked := true, timer := none }.settle
      (if ok then .value else .error)) := by
  obtain ⟨hpending, htimer, -, hdeadline⟩ :=
    settle_pending { c.leave with worked := true, timer := none } (if ok then .value else .error)
  refine CallOk.settled ?_ ?_ htimer (fun ref method ms hout => ?_) (fun e he => ?_)
  · rw [settle_outcome]
    exact nofun
  · rw [settle_live]
    exact live_leave c
  · rw [hdeadline]
    rw [settle_outcome] at hout
    cases hold : c.outcome with
    | none =>
      change some (Option.getD c.outcome _) = _ at hout
      rw [hold] at hout
      cases ok <;> cases hout
    | some o =>
      change some (Option.getD c.outcome _) = _ at hout
      rw [hold] at hout
      exact h.late ref method ms (hold.trans hout)
  · rw [hpending] at he
    rw [hdeadline]
    exact h.leave_key he

/-- The deadline of a call that waits has passed. -/
theorem CallOk.timeOut {ms : Int} (hlive : c.live = false) (htimer : c.timer = none)
    (hdeadline : c.deadline ≤ now) (hkey : ∀ e, c.pending = some e → e.key = bucketKey c.deadline) :
    CallOk now (c.timeOut ms) := by
  unfold RacedCall.timeOut
  obtain ⟨hpending, htimer', -, hdeadline'⟩ :=
    settle_pending c (.timedOut (actorLabel c.ref) c.method ms)
  refine CallOk.settled ?_ ((settle_live c _).trans hlive) (htimer'.trans htimer) (fun _ _ _ _ => ?_)
    (fun e he => ?_)
  · rw [settle_outcome]
    exact nofun
  · rw [hdeadline']
    exact hdeadline
  · rw [hpending] at he
    rw [hdeadline']
    exact hkey e he

/-- What has become of a call, where an entry was removed. -/
theorem remove_calls (s : CallDeadlines) (i : Nat) {d : RacedCall}
    (hget : (s.remove i).calls[j]? = some d) : ∃ c, s.calls[j]? = some c ∧
      (j = i ∧ d = c.leave ∨ j ≠ i ∧ (d = c ∨ ∃ index, d = c.moveTo index)) := by
  have hstays : s.calls[j]? = some d → (∀ c, s.calls[i]? = some c → c.leave = c) →
      ∃ c, s.calls[j]? = some c ∧
        (j = i ∧ d = c.leave ∨ j ≠ i ∧ (d = c ∨ ∃ index, d = c.moveTo index)) := by
    intro hsame hleave
    refine ⟨d, hsame, ?_⟩
    by_cases hj : j = i
    · exact .inl ⟨hj, (hleave d (hj ▸ hsame)).symm⟩
    · exact .inr ⟨hj, .inl rfl⟩
  have hmodified : ∀ c₁ : RacedCall, (s.calls.modify i RacedCall.leave)[j]? = some c₁ →
      ∃ c, s.calls[j]? = some c ∧ (j = i ∧ c₁ = c.leave ∨ j ≠ i ∧ c₁ = c) := by
    intro c₁ h₁
    rcases of_modify_get h₁ with ⟨c, hj, hc, rfl⟩ | ⟨hj, hc⟩
    · exact ⟨c, hj ▸ hc, .inl ⟨hj, rfl⟩⟩
    · exact ⟨c₁, hc, .inr ⟨hj, rfl⟩⟩
  unfold remove at hget
  cases he : s.entry i with
  | none =>
    rw [he] at hget
    refine hstays hget fun c hc => ?_
    have hnone : c.pending = none := by
      unfold entry at he
      rw [hc] at he
      exact he
    unfold RacedCall.leave
    rw [hnone, Option.map_none, ← hnone]
  | some e =>
    rw [he] at hget
    dsimp only at hget
    cases ha : e.bucket with
    | none =>
      rw [ha] at hget
      refine hstays hget fun c hc => ?_
      obtain ⟨c₀, hc₀, hpending⟩ := entry_eq.1 he
      cases hc.symm.trans hc₀
      unfold RacedCall.leave
      rw [hpending, Option.map_some, ← ha, ← hpending]
    | some a =>
      rw [ha] at hget
      dsimp only at hget
      split at hget
      · obtain ⟨c, hc, hwhat⟩ := hmodified d hget
        exact ⟨c, hc, hwhat.imp_right fun h => ⟨h.1, .inl h.2⟩⟩
      split at hget
      · obtain ⟨c, hc, hwhat⟩ := hmodified d hget
        exact ⟨c, hc, hwhat.imp_right fun h => ⟨h.1, .inl h.2⟩⟩
      rename_i hne
      rcases of_modify_get hget with ⟨c₁, hj, hc₁, rfl⟩ | ⟨hj, hc₁⟩
      · obtain ⟨c, hc, ⟨hji, -⟩ | ⟨hji, rfl⟩⟩ := hmodified c₁ (hj ▸ hc₁)
        · exact absurd (hj.symm.trans hji) hne
        · exact ⟨c₁, hc, .inr ⟨hji, .inr ⟨e.index, rfl⟩⟩⟩
      · obtain ⟨c, hc, hwhat⟩ := hmodified d hc₁
        exact ⟨c, hc, hwhat.imp_right fun h => ⟨h.1, .inl h.2⟩⟩

theorem remove_rest (s : CallDeadlines) (i : Nat) : (s.remove i).now = s.now ∧
    (s.remove i).timer = s.timer ∧ (s.remove i).disposed = s.disposed ∧
      (s.remove i).size ≤ s.size := by
  unfold remove
  split
  · exact ⟨rfl, rfl, rfl, Int.le_refl _⟩
  split
  · exact ⟨rfl, rfl, rfl, Int.le_refl _⟩
  · dsimp only
    split <;> exact ⟨rfl, rfl, rfl, Int.sub_le_self _ (by decide)⟩

/-! ## A bucket that is due -/

/-- The bucket of a key has left the map, and the entries of `rest` are still to be gone through. -/
structure Sweeping (key : Int) (a : Nat) (rest : List Nat) (s : CallDeadlines) : Prop where
  due : key * coarseTickMs ≤ s.now
  back : ∀ (i : Nat) (e : Pending) (a' : Nat), s.entry i = some e → e.bucket = some a' →
    a' = a ∧ i ∈ rest ∧ e.key = key ∨
      a' ≠ a ∧ s.buckets.get e.key = some a' ∧ ∃ l, s.arrays[a']? = some l ∧ l[e.index]? = some i
  front : ∀ (key : Int) (a' : Nat), s.buckets.get key = some a' → a' ≠ a ∧
    ∃ l, s.arrays[a']? = some l ∧ l ≠ [] ∧
      ∀ (k i : Nat), l[k]? = some i →
        ∃ e, s.entry i = some e ∧ e.bucket = some a' ∧ e.index = k ∧ e.key = key
  size : s.size = (s.calls.countP RacedCall.live : Nat)
  swept : ∀ i ∈ rest, ∃ e, s.entry i = some e ∧ (e.bucket = some a ∨ e.bucket = none)
  calls : ∀ c ∈ s.calls, CallOk s.now c

theorem Indexed.sweeping (h : s.Indexed) (hcalls : ∀ c ∈ s.calls, CallOk s.now c) {l : List Nat}
    (hget : s.buckets.get key = some a) (hl : s.arrays[a]? = some l)
    (hdue : key * coarseTickMs ≤ s.now) :
    Sweeping key a l { s with buckets := s.buckets.erase key } := by
  obtain ⟨l', hl', -, hmem⟩ := h.front key a hget
  cases hl.symm.trans hl'
  refine ⟨hdue, fun i e a' he ha' => ?_, fun key' a' hget' => ?_, h.size, fun i hi => ?_, hcalls⟩
  · obtain ⟨hkey, l'', hl'', hplace⟩ := h.back i e a' he ha'
    by_cases ha : a' = a
    · subst ha
      cases hl''.symm.trans hl
      exact .inl ⟨rfl, List.mem_of_getElem? hplace, h.key_eq hkey hget⟩
    · refine .inr ⟨ha, ?_, l'', hl'', hplace⟩
      rw [JsMap.get_erase, if_neg, hkey]
      rintro rfl
      exact ha (Option.some.inj (hkey.symm.trans hget))
  · rw [JsMap.get_erase] at hget'
    obtain ⟨hne, hget'⟩ := guard_past hget'
    refine ⟨?_, h.front key' a' hget'⟩
    rintro rfl
    exact hne (h.key_eq hget' hget)
  · obtain ⟨k, hk⟩ := List.mem_iff_getElem?.1 hi
    obtain ⟨e, he, hbucket, -⟩ := hmem k i hk
    exact ⟨e, he, .inl hbucket⟩

/-- Nothing is left to be gone through. -/
theorem Sweeping.indexed (h : Sweeping key a [] s) : s.Indexed where
  back i e a' he ha' := by
    rcases h.back i e a' he ha' with ⟨-, hi, -⟩ | ⟨-, hwhat⟩
    · cases hi
    · exact hwhat
  front key' a' hget := (h.front key' a' hget).2
  size := h.size

/-- An entry is gone through. -/
theorem Sweeping.expire {rest : List Nat} (h : Sweeping key a (i :: rest) s) :
    Sweeping key a rest (s.expire i) := by
  obtain ⟨e, he, hbucket⟩ := h.swept i List.mem_cons_self
  unfold CallDeadlines.expire
  rw [he]
  dsimp only
  rcases hbucket with ha | hnone
  · rw [ha]
    have hentry := entry_modify (s := s) (i := i) (f := fun c => c.leave.timeOut e.remaining)
      (g := fun e => { e with bucket := none })
      (t := { s with
        calls := s.calls.modify i fun c => c.leave.timeOut e.remaining
        size := s.size - 1 }) rfl (fun c => (settle_pending c.leave _).1)
    have hkey : e.key = key := by
      rcases h.back i e a he ha with ⟨-, -, hkey⟩ | ⟨hne, -⟩
      · exact hkey
      · exact absurd rfl hne
    refine ⟨h.due, fun j e' a' he' ha' => ?_, fun key' a' hget => ?_, ?_, fun j hj => ?_,
      fun c' hc' => ?_⟩
    · rw [hentry] at he'
      split at he'
      · obtain ⟨e₀, -, rfl⟩ := Option.map_eq_some_iff.1 he'
        cases ha'
      rename_i hij
      rcases h.back j e' a' he' ha' with ⟨heq, hj, hkey'⟩ | hwhat
      · rcases List.mem_cons.1 hj with rfl | hj
        · exact absurd rfl hij
        · exact .inl ⟨heq, hj, hkey'⟩
      · exact .inr hwhat
    · obtain ⟨hne, l, hl, hnil, hmem⟩ := h.front key' a' hget
      refine ⟨hne, l, hl, hnil, fun k j hk => ?_⟩
      obtain ⟨e', he', ha', hwhat⟩ := hmem k j hk
      refine ⟨e', ?_, ha', hwhat⟩
      rw [hentry, if_neg, he']
      rintro rfl
      cases he.symm.trans he'
      exact hne (Option.some.inj (ha'.symm.trans ha))
    · obtain ⟨c, hc, hpending⟩ := entry_eq.1 he
      have hlost := countP_modify_lost (f := fun c : RacedCall => c.leave.timeOut e.remaining) hc
        (live_iff.2 ⟨e, a, hpending, ha⟩) ((settle_live c.leave _).trans (live_leave c))
      dsimp only
      rw [h.size]
      omega
    · obtain ⟨e', he', hwhat⟩ := h.swept j (List.mem_cons_of_mem _ hj)
      rw [hentry]
      split
      · rw [he']
        exact ⟨_, rfl, .inr rfl⟩
      · exact ⟨e', he', hwhat⟩
    · obtain ⟨j, hj⟩ := List.mem_iff_getElem?.1 hc'
      rcases of_modify_get hj with ⟨c, rfl, hc, rfl⟩ | ⟨-, hc⟩
      · have hok := h.calls c (List.mem_of_getElem? hc)
        obtain ⟨c₀, hc₀, hpending⟩ := entry_eq.1 he
        cases hc.symm.trans hc₀
        refine CallOk.timeOut (live_leave c) ?_ ?_ (fun e' he' => hok.leave_key he')
        · cases htimer : c.timer with
          | none => exact htimer
          | some due =>
            have hnone := hok.apart (htimer ▸ rfl)
            rw [hpending] at hnone
            cases hnone
        · have hbucketKey : bucketKey c.deadline = key := (hok.key e hpending).symm.trans hkey
          exact Int.le_trans (le_bucketKey c.deadline) (hbucketKey ▸ h.due)
      · exact h.calls c' (List.mem_of_getElem? hc)
  · rw [hnone]
    refine ⟨h.due, fun j e' a' he' ha' => ?_, h.front, h.size,
      fun j hj => h.swept j (List.mem_cons_of_mem _ hj), h.calls⟩
    rcases h.back j e' a' he' ha' with ⟨heq, hj, hkey'⟩ | hwhat
    · rcases List.mem_cons.1 hj with rfl | hj
      · cases he.symm.trans he'
        rw [hnone] at ha'
        cases ha'
      · exact .inl ⟨heq, hj, hkey'⟩
    · exact .inr hwhat

theorem expire_rest (s : CallDeadlines) (i : Nat) : (s.expire i).now = s.now ∧
    (s.expire i).timer = s.timer ∧ (s.expire i).disposed = s.disposed ∧
      (s.expire i).buckets = s.buckets := by
  unfold CallDeadlines.expire
  split
  · exact ⟨rfl, rfl, rfl, rfl⟩
  · split <;> exact ⟨rfl, rfl, rfl, rfl⟩

theorem expireAll_rest (l : List Nat) (s : CallDeadlines) : (l.foldl CallDeadlines.expire s).now = s.now ∧
    (l.foldl CallDeadlines.expire s).timer = s.timer ∧
      (l.foldl CallDeadlines.expire s).disposed = s.disposed ∧
        (l.foldl CallDeadlines.expire s).buckets = s.buckets := by
  induction l generalizing s with
  | nil => exact ⟨rfl, rfl, rfl, rfl⟩
  | cons i l ih =>
    obtain ⟨hnow, htimer, hdisposed, hbuckets⟩ := expire_rest s i
    obtain ⟨hnow', htimer', hdisposed', hbuckets'⟩ := ih (s.expire i)
    exact ⟨hnow'.trans hnow, htimer'.trans htimer, hdisposed'.trans hdisposed,
      hbuckets'.trans hbuckets⟩

theorem Sweeping.all {rest : List Nat} (h : Sweeping key a rest s) :
    Sweeping key a [] (rest.foldl CallDeadlines.expire s) := by
  induction rest generalizing s with
  | nil => exact h
  | cons i rest ih => exact ih h.expire

/-- The buckets of `rest` are still to be gone through. -/
structure Ticking (rest : List (Int × Nat)) (s : CallDeadlines) : Prop where
  indexed : s.Indexed
  calls : ∀ c ∈ s.calls, CallOk s.now c
  kept : ∀ q ∈ rest, s.buckets.get q.1 = some q.2
  nodup : (rest.map Prod.fst).Nodup
  swept : ∀ key a, s.buckets.get key = some a → (key, a) ∈ rest ∨ s.now < key * coarseTickMs

theorem sweep_rest (s : CallDeadlines) (q : Int × Nat) : (s.sweep q).now = s.now ∧
    (s.sweep q).timer = s.timer ∧ (s.sweep q).disposed = s.disposed ∧
      (s.sweep q).buckets = if s.now < q.1 * coarseTickMs then s.buckets else s.buckets.erase q.1 := by
  unfold sweep
  split
  · exact ⟨rfl, rfl, rfl, rfl⟩
  · exact expireAll_rest _ _

theorem Ticking.sweep {q : Int × Nat} {rest : List (Int × Nat)} (h : Ticking (q :: rest) s) :
    Ticking rest (s.sweep q) := by
  obtain ⟨hnow, -, -, hbuckets⟩ := sweep_rest s q
  have hget := h.kept q List.mem_cons_self
  have hnodup := List.nodup_cons.1 h.nodup
  by_cases hdue : s.now < q.1 * coarseTickMs
  · have hsame : s.sweep q = s := if_pos hdue
    rw [hsame]
    refine ⟨h.indexed, h.calls, fun q' hq' => h.kept q' (List.mem_cons_of_mem _ hq'), hnodup.2,
      fun key a hkey => ?_⟩
    rcases h.swept key a hkey with hmem | hlt
    · rcases List.mem_cons.1 hmem with rfl | hmem
      · exact .inr hdue
      · exact .inl hmem
    · exact .inr hlt
  · obtain ⟨l, hl, -⟩ := h.indexed.front q.1 q.2 hget
    have hswept := (h.indexed.sweeping h.calls hget hl (Int.not_lt.1 hdue)).all
    have hsweep : s.sweep q =
        l.foldl CallDeadlines.expire { s with buckets := s.buckets.erase q.1 } := by
      unfold CallDeadlines.sweep
      rw [if_neg hdue, hl, Option.getD_some]
    rw [← hsweep] at hswept
    rw [if_neg hdue] at hbuckets
    refine ⟨hswept.indexed, hswept.calls, fun q' hq' => ?_, hnodup.2, fun key a hkey => ?_⟩
    · rw [hbuckets, JsMap.get_erase, if_neg]
      · exact h.kept q' (List.mem_cons_of_mem _ hq')
      · rintro heq
        exact hnodup.1 (heq ▸ List.mem_map_of_mem hq')
    · rw [hbuckets, JsMap.get_erase] at hkey
      obtain ⟨hne, hkey⟩ := guard_past hkey
      rw [hnow]
      rcases h.swept key a hkey with hmem | hlt
      · rcases List.mem_cons.1 hmem with rfl | hmem
        · exact absurd rfl hne
        · exact .inl hmem
      · exact .inr hlt

theorem sweepAll_rest (l : List (Int × Nat)) (s : CallDeadlines) :
    (l.foldl CallDeadlines.sweep s).now = s.now ∧ (l.foldl CallDeadlines.sweep s).timer = s.timer ∧
      (l.foldl CallDeadlines.sweep s).disposed = s.disposed := by
  induction l generalizing s with
  | nil => exact ⟨rfl, rfl, rfl⟩
  | cons q l ih =>
    obtain ⟨hnow, htimer, hdisposed, -⟩ := sweep_rest s q
    obtain ⟨hnow', htimer', hdisposed'⟩ := ih (s.sweep q)
    exact ⟨hnow'.trans hnow, htimer'.trans htimer, hdisposed'.trans hdisposed⟩

theorem Ticking.all {rest : List (Int × Nat)} (h : Ticking rest s) :
    Ticking [] (rest.foldl CallDeadlines.sweep s) := by
  induction rest generalizing s with
  | nil => exact h
  | cons q rest ih => exact ih h.sweep

/-! ## Every run -/

/-- What holds of the deadlines in every run. -/
structure Sound (s : CallDeadlines) : Prop where
  indexed : s.Indexed
  calls : ∀ c ∈ s.calls, CallOk s.now c
  armed : 0 < s.size → s.timer.isSome = true ∨ s.disposed = true

/-- What a tick leaves. -/
theorem Sound.tick (h : s.Sound) : s.tick.Sound ∧ s.tick.now = s.now ∧
    ∀ key a, s.tick.buckets.get key = some a → s.now < key * coarseTickMs := by
  have hstart : Ticking s.buckets.entries { s with timer := none } := {
    indexed := h.indexed.congr (fun _ => rfl) rfl rfl rfl rfl
    calls := h.calls
    kept _ hq := JsMap.get_of_mem_entries hq
    nodup := s.buckets.nodup
    swept _ _ hget := .inl (JsMap.mem_entries_of_get hget) }
  have hend := hstart.all
  obtain ⟨hnow, -, -⟩ := sweepAll_rest s.buckets.entries { s with timer := none }
  have htick : s.tick =
      if 0 < (s.buckets.entries.foldl CallDeadlines.sweep { s with timer := none }).size then
        (s.buckets.entries.foldl CallDeadlines.sweep { s with timer := none }).arm
      else s.buckets.entries.foldl CallDeadlines.sweep { s with timer := none } := rfl
  rw [htick]
  generalize s.buckets.entries.foldl CallDeadlines.sweep { s with timer := none } = u at *
  have hdue : ∀ key a, u.buckets.get key = some a → s.now < key * coarseTickMs := by
    intro key a hget
    rcases hend.swept key a hget with hmem | hlt
    · cases hmem
    · exact lt_of_eq_of_lt hnow.symm hlt
  split
  · exact ⟨⟨hend.indexed.arm, hend.calls, fun _ => .inl rfl⟩, hnow, hdue⟩
  · rename_i hsize
    exact ⟨{ hend with armed := fun hlt => absurd hlt hsize }, hnow, hdue⟩

theorem Sound.race (h : s.Sound) (deadline : Int) (ref : ActorRef) (method : String) :
    (s.race deadline ref method).Sound := by
  have hown : ∀ c : RacedCall, c.pending = none → CallOk s.now c →
      ({ s with calls := s.calls ++ [c] } : CallDeadlines).Sound := by
    intro c hpending hok
    have hentry := entry_append (s := s) (t := { s with calls := s.calls ++ [c] }) rfl
    have hlive : c.live = false := by
      unfold RacedCall.live
      rw [hpending]
      rfl
    refine ⟨h.indexed.congr (fun i => ?_) rfl rfl rfl ?_, fun c' hc' => ?_, h.armed⟩
    · rw [hentry]
      split
      · rename_i hi
        unfold entry
        rw [hi, List.getElem?_eq_none (Nat.le_refl _), hpending]
        rfl
      · rfl
    · rw [List.countP_append, List.countP_singleton, hlive]
      rfl
    · rcases List.mem_append.1 hc' with hc' | hc'
      · exact h.calls c' hc'
      · obtain rfl := List.mem_singleton.1 hc'
        exact hok
  unfold CallDeadlines.race
  dsimp only
  split
  · refine hown _ (settle_pending _ _).1 (CallOk.timeOut rfl rfl ?_ nofun)
    change deadline ≤ s.now
    omega
  · split
    · refine hown _ rfl ⟨fun _ => ⟨rfl, .inr rfl⟩, fun _ => rfl, nofun, fun due ms htimer => ?_, nofun,
        fun _ => rfl⟩
      cases htimer
      dsimp only
      omega
    · obtain ⟨t, e, a, hindexed, hcalls, -, hkey, hbucket, hnow, htimer, hdisposed, hadd⟩ :=
        add_eq h.indexed deadline (deadline - s.now) ref method
      have hok : ∀ c ∈ t.calls, CallOk t.now c := by
        intro c hc
        rw [hcalls] at hc
        rw [hnow]
        rcases List.mem_append.1 hc with hc | hc
        · exact h.calls c hc
        obtain rfl := List.mem_singleton.1 hc
        refine ⟨fun _ => ⟨rfl, .inl (live_iff.2 ⟨e, a, rfl, hbucket⟩)⟩, fun _ => rfl, nofun, nofun,
          fun e' he' => ?_, nofun⟩
        cases he'
        exact hkey
      rw [hadd]
      split
      · exact ⟨hindexed.arm, hok, fun _ => .inl rfl⟩
      rename_i hsome
      refine ⟨hindexed, hok, fun _ => .inl ?_⟩
      cases htimer' : t.timer with
      | none => exact absurd (htimer' ▸ rfl) hsome
      | some due => rfl

theorem Sound.work (h : s.Sound) (i : Nat) (ok : Bool) : (s.work i ok).Sound := by
  obtain ⟨hnow, htimer, hdisposed, hsize⟩ := remove_rest s i
  have hindexed := h.indexed.remove i
  have hcalls := fun j c' => remove_calls (j := j) (d := c') s i
  unfold CallDeadlines.work
  generalize s.remove i = u at *
  refine ⟨hindexed.congr (fun j => ?_) rfl rfl rfl (countP_modify fun c _ => settle_live _ _),
    fun c' hc' => ?_, fun hlt => ?_⟩
  · rw [entry_modify (s := u) (f := fun c =>
      { c with worked := true, timer := none }.settle (if ok then .value else .error)) (g := id) rfl
      (fun c => (settle_pending _ _).1.trans Option.map_id'.symm)]
    split
    · exact Option.map_id'
    · rfl
  · rw [hnow]
    obtain ⟨j, hj⟩ := List.mem_iff_getElem?.1 hc'
    rcases of_modify_get hj with ⟨c₁, rfl, hc₁, rfl⟩ | ⟨hji, hc₁⟩
    · obtain ⟨c, hc, ⟨-, rfl⟩ | ⟨hne, -⟩⟩ := hcalls j c₁ hc₁
      · exact (h.calls c (List.mem_of_getElem? hc)).work ok
      · exact absurd rfl hne
    · obtain ⟨c, hc, ⟨rfl, -⟩ | ⟨-, rfl | ⟨index, rfl⟩⟩⟩ := hcalls j c' hc₁
      · exact absurd rfl hji
      · exact h.calls c' (List.mem_of_getElem? hc)
      · exact (h.calls c (List.mem_of_getElem? hc)).moveTo index
  · rw [htimer, hdisposed]
    exact h.armed (Int.lt_of_lt_of_le hlt hsize)

/-- The timer of a call fires. -/
theorem Sound.fire (h : s.Sound) {due ms : Int} (hget : s.calls[i]? = some c)
    (htimer : c.timer = some (due, ms)) (hdue : due ≤ s.now) :
    ({ s with calls := s.calls.modify i fun c => { c with timer := none }.timeOut ms } :
      CallDeadlines).Sound := by
  have hok := h.calls c (List.mem_of_getElem? hget)
  have hlive : ∀ c' : RacedCall, ({ c' with timer := none }.timeOut ms : RacedCall).live = c'.live :=
    fun c' => settle_live _ _
  refine ⟨h.indexed.congr (fun j => ?_) rfl rfl rfl (countP_modify fun c' _ => hlive c'),
    fun c' hc' => ?_, h.armed⟩
  · rw [entry_modify (s := s) (f := fun c => { c with timer := none }.timeOut ms) (g := id) rfl
      (fun c => (settle_pending _ _).1.trans Option.map_id'.symm)]
    split
    · exact Option.map_id'
    · rfl
  · obtain ⟨j, hj⟩ := List.mem_iff_getElem?.1 hc'
    rcases of_modify_get hj with ⟨c₁, rfl, hc₁, rfl⟩ | ⟨-, hc₁⟩
    · cases hget.symm.trans hc₁
      have hnone := hok.apart (htimer ▸ rfl)
      refine CallOk.timeOut ?_ rfl (Int.le_trans (hok.due due ms htimer) hdue) (fun e he => ?_)
      · rw [hnone]
        rfl
      · cases hnone.symm.trans he
    · exact h.calls c' (List.mem_of_getElem? hc₁)

theorem Sound.step (h : s.Sound) {l : Label} (hstep : s.step l = some t) : t.Sound := by
  cases l with unfold CallDeadlines.step at hstep
  | race deadline ref method =>
    cases hstep
    exact h.race deadline ref method
  | work i ok =>
    dsimp only at hstep
    split at hstep
    · split at hstep
      · cases hstep
      · cases hstep
        exact h.work i ok
    · cases hstep
  | fire i =>
    dsimp only at hstep
    split at hstep
    · rename_i c hget
      split at hstep
      · rename_i due ms htimer
        obtain ⟨hdue, rfl⟩ := guard_taken hstep
        exact h.fire hget htimer hdue
      · cases hstep
    · cases hstep
  | tick =>
    dsimp only at hstep
    split at hstep
    · split at hstep
      · cases hstep
        exact h.tick.1
      · cases hstep
    · cases hstep
  | dispose =>
    cases hstep
    exact ⟨h.indexed.congr (fun _ => rfl) rfl rfl rfl rfl, h.calls, fun _ => .inr rfl⟩
  | pass ms =>
    cases hstep
    refine ⟨h.indexed.congr (fun _ => rfl) rfl rfl rfl rfl, fun c hc => ?_, h.armed⟩
    exact (h.calls c hc).mono (Int.le_add_of_nonneg_right (Int.natCast_nonneg _))

theorem Sound.reachable (h : callDeadlines.Reachable s) : s.Sound := by
  refine h.invariant (fun u hinit => ?_) fun u l u' hs _ hstep => hs.step hstep
  obtain ⟨now, rfl⟩ := hinit
  refine ⟨⟨fun i e a he => ?_, fun key a hget => ?_, rfl⟩, nofun, nofun⟩
  · cases he
  · cases hget

/-! ## A promise settles once -/

/-- What a call has settled with stays. -/
structure Keeps (c c' : RacedCall) : Prop where
  deadline : c'.deadline = c.deadline
  worked : c.worked = true → c'.worked = true
  outcome : ∀ outcome, c.outcome = some outcome → c'.outcome = some outcome

theorem Keeps.refl (c : RacedCall) : Keeps c c := ⟨rfl, id, fun _ hout => hout⟩

theorem Keeps.trans {c'' : RacedCall} (h : Keeps c c') (h' : Keeps c' c'') : Keeps c c'' where
  deadline := h'.deadline.trans h.deadline
  worked hworked := h'.worked (h.worked hworked)
  outcome outcome hout := h'.outcome outcome (h.outcome outcome hout)

theorem Keeps.settle (h : Keeps c c') (outcome : RaceOutcome) : Keeps c (c'.settle outcome) where
  deadline := (settle_pending c' outcome).2.2.2.trans h.deadline
  worked hworked := (settle_pending c' outcome).2.2.1.trans (h.worked hworked)
  outcome o hout := by
    rw [settle_outcome, h.outcome o hout]
    rfl

theorem Keeps.timeOut (h : Keeps c c') (ms : Int) : Keeps c (c'.timeOut ms) :=
  h.settle _

theorem keeps_leave (c : RacedCall) : Keeps c c.leave := ⟨rfl, id, fun _ hout => hout⟩

theorem keeps_moveTo (c : RacedCall) (index : Nat) : Keeps c (c.moveTo index) :=
  ⟨rfl, id, fun _ hout => hout⟩

/-- Every call that was raced is there, and what it has settled with. -/
def KeepsAll (calls calls' : List RacedCall) : Prop :=
  ∀ (i : Nat) (c : RacedCall), calls[i]? = some c → ∃ c', calls'[i]? = some c' ∧ Keeps c c'

theorem KeepsAll.refl (calls : List RacedCall) : KeepsAll calls calls :=
  fun _ c hc => ⟨c, hc, .refl c⟩

theorem KeepsAll.trans {calls calls' calls'' : List RacedCall} (h : KeepsAll calls calls')
    (h' : KeepsAll calls' calls'') : KeepsAll calls calls'' := by
  intro i c hc
  obtain ⟨c', hc', hkeeps⟩ := h i c hc
  obtain ⟨c'', hc'', hkeeps'⟩ := h' i c' hc'
  exact ⟨c'', hc'', hkeeps.trans hkeeps'⟩

theorem keepsAll_modify {f : RacedCall → RacedCall} (hf : ∀ c, Keeps c (f c)) (i : Nat)
    (calls : List RacedCall) : KeepsAll calls (calls.modify i f) := by
  intro j c hc
  rw [modify_get, hc]
  split
  · exact ⟨f c, rfl, hf c⟩
  · exact ⟨c, rfl, .refl c⟩

theorem keepsAll_append (c : RacedCall) (calls : List RacedCall) : KeepsAll calls (calls ++ [c]) :=
  fun _ c' hc' => ⟨c', append_get c hc', .refl c'⟩

theorem keepsAll_remove (s : CallDeadlines) (i : Nat) : KeepsAll s.calls (s.remove i).calls := by
  have hleave : KeepsAll s.calls (s.calls.modify i RacedCall.leave) := keepsAll_modify keeps_leave i _
  unfold remove
  split
  · exact .refl _
  split
  · exact .refl _
  dsimp only
  split
  · exact hleave
  split
  · exact hleave
  · exact hleave.trans (keepsAll_modify (fun c => keeps_moveTo c _) _ _)

theorem keepsAll_work (s : CallDeadlines) (i : Nat) (ok : Bool) :
    KeepsAll s.calls (s.work i ok).calls := by
  refine (keepsAll_remove s i).trans (keepsAll_modify (fun c => ?_) i _)
  have hworked : Keeps c { c with worked := true, timer := none } :=
    ⟨rfl, fun _ => rfl, fun _ hout => hout⟩
  exact hworked.settle _

theorem keepsAll_race (s : CallDeadlines) (deadline : Int) (ref : ActorRef) (method : String) :
    KeepsAll s.calls (s.race deadline ref method).calls := by
  obtain ⟨hcalls, -⟩ := bucketFor_calls (s := s) (bucketKey deadline)
  have hpush : ∀ a, KeepsAll s.calls ((s.bucketFor (bucketKey deadline)).push a (bucketKey deadline)
      deadline (deadline - s.now) ref method).calls := by
    intro a
    have happend : ∀ c, KeepsAll s.calls ((s.bucketFor (bucketKey deadline)).calls ++ [c]) := by
      intro c
      rw [hcalls]
      exact keepsAll_append c s.calls
    exact happend _
  unfold race
  dsimp only
  split
  · exact keepsAll_append _ _
  split
  · exact keepsAll_append _ _
  unfold add
  dsimp only
  split <;> exact hpush _

theorem keepsAll_expire (s : CallDeadlines) (i : Nat) : KeepsAll s.calls (s.expire i).calls := by
  unfold CallDeadlines.expire
  split
  · exact .refl _
  split
  · exact .refl _
  · exact keepsAll_modify (fun c => (keeps_leave c).timeOut _) i _

theorem keepsAll_expireAll (l : List Nat) (s : CallDeadlines) :
    KeepsAll s.calls (l.foldl CallDeadlines.expire s).calls := by
  induction l generalizing s with
  | nil => exact .refl _
  | cons i l ih => exact (keepsAll_expire s i).trans (ih _)

theorem keepsAll_sweep (s : CallDeadlines) (q : Int × Nat) : KeepsAll s.calls (s.sweep q).calls := by
  unfold CallDeadlines.sweep
  split
  · exact .refl _
  · exact keepsAll_expireAll _ { s with buckets := s.buckets.erase q.1 }

theorem keepsAll_sweepAll (l : List (Int × Nat)) (s : CallDeadlines) :
    KeepsAll s.calls (l.foldl CallDeadlines.sweep s).calls := by
  induction l generalizing s with
  | nil => exact .refl _
  | cons q l ih => exact (keepsAll_sweep s q).trans (ih _)

theorem keepsAll_tick (s : CallDeadlines) : KeepsAll s.calls s.tick.calls := by
  have hall := keepsAll_sweepAll s.buckets.entries { s with timer := none }
  unfold CallDeadlines.tick
  dsimp only
  split <;> exact hall

/-- A step keeps every call, and what it has settled with. -/
theorem keepsAll_step {l : Label} (hstep : s.step l = some t) : KeepsAll s.calls t.calls := by
  cases l with unfold CallDeadlines.step at hstep
  | race deadline ref method =>
    cases hstep
    exact keepsAll_race s deadline ref method
  | work i ok =>
    dsimp only at hstep
    split at hstep
    · split at hstep
      · cases hstep
      · cases hstep
        exact keepsAll_work s i ok
    · cases hstep
  | fire i =>
    dsimp only at hstep
    split at hstep
    · split at hstep
      · split at hstep
        · cases hstep
          refine keepsAll_modify (fun c => ?_) i _
          have htimer : Keeps c { c with timer := none } := ⟨rfl, id, fun _ hout => hout⟩
          exact htimer.timeOut _
        · cases hstep
      · cases hstep
    · cases hstep
  | tick =>
    dsimp only at hstep
    split at hstep
    · split at hstep
      · cases hstep
        exact keepsAll_tick s
      · cases hstep
    · cases hstep
  | dispose | pass =>
    cases hstep
    exact .refl _

/-- Two calls of one bucket and one of another: the first is removed, and the bucket is swept. -/
def sweptRun : List Label :=
  [.race 10500 ⟨"c", "a"⟩ "m", .race 10600 ⟨"c", "b"⟩ "m", .race 20000 ⟨"c", "c"⟩ "m", .work 0 true,
    .pass 1000, .tick, .pass 10000, .tick, .work 1 false]

def sweptEnd : CallDeadlines :=
  (callDeadlines.exec (fun _ _ => True) { now := 0 } sweptRun).get (by decide)

end CallDeadlines

end SigxActors.Host
