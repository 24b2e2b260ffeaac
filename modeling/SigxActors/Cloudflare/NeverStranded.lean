/-
  Cloudflare/NeverStranded.lean --- the reminders of a Durable Object are never stranded.

  Until its last block a handler has the reminders it collected to itself, unless the actor
  sets or clears one: what it has deleted is absent, and what it has advanced is as it has
  written it.  The comparison of the last block tells the two apart by what the table holds
  under the name, and goes wrong where that says too little: under a name that every object
  inherits, and where the actor has set exactly what the alarm had written.
-/
import Mathlib.Data.List.Perm.Basic
import SigxActors.Cloudflare.Reminders

set_option autoImplicit false

namespace SigxActors.Cloudflare

open SigxActors.Js

/-! ## The property -/

/-- No reminder is set under `__proto__`; no one-shot under a name that every object inherits
fails; and no reminder that is set while the alarm delivers it, to what the alarm has
written for it, fails with more than a tick to go. -/
def Distinguishes (tickMs : Int) (s : DurableReminders) : ReminderLabel → Prop
  | .set _ name _ _ _ => name ≠ "__proto__"
  | .finish at_ =>
      match s.handling with
      | .delivering _ _ failed => ∀ d ∈ failed,
          (d.advanced = none → d.touched = false → d.name ∉ objectPrototype) ∧
          ∀ advanced ∈ d.advanced, d.touched = true → ∀ e ∈ s.entries.get d.name,
            e.nextDue = advanced.nextDue → e.period = advanced.period → e.nextDue ≤ at_ + tickMs
      | _ => True
  | _ => True

instance (tickMs : Int) (s : DurableReminders) (l : ReminderLabel) :
    Decidable (Distinguishes tickMs s l) := by
  unfold Distinguishes
  split
  · infer_instance
  · split <;> infer_instance
  · infer_instance

/-- No reminder is stranded: `ok` is what the last block of a handler may count on. -/
structure NeverStranded (tickMs : Int) (ok : DurableReminders → ReminderLabel → Prop)
    (s : DurableReminders) : Prop where
  /-- With no handler under way, an alarm is armed for every entry. -/
  armed : s.handling = .idle → ∀ name e, s.entries.get name = some e →
    ∃ first, s.alarm = some first ∧ first ≤ e.nextDue
  /-- What was asked for is on the table. -/
  kept : ∀ name e, s.wanted name = some e → s.entries.get name = some e
  /-- No occurrence is delivered twice. -/
  once : s.delivered.Nodup
  /-- The last block brings back what has failed and was not touched. -/
  retried : ∀ at_ t ref due failed, s.handling = .delivering ref due failed →
    ok s (.finish at_) → s.finish tickMs at_ = some t →
    ∀ d ∈ failed, d.touched = false →
      ∃ e, t.entries.get d.name = some e ∧ e.nextDue ≤ at_ + tickMs

/-! ## The alarm -/

section

variable {entries : JsMap String Entry} {s t : DurableReminders}

theorem earliest_le {first : Int} (h : DurableReminders.earliest entries = some first)
    {name : String} {e : Entry} (he : entries.get name = some e) : first ≤ e.nextDue := by
  have hmem : e.nextDue ∈ entries.entries.map fun q => q.2.nextDue :=
    List.mem_map.2 ⟨(name, e), JsMap.mem_entries_of_get he, rfl⟩
  exact (List.min?_eq_some_iff.1 h).2 _ hmem

theorem get_of_earliest_eq_none (h : DurableReminders.earliest entries = none) (name : String) :
    entries.get name = none := by
  cases he : entries.get name with
  | none => rfl
  | some e =>
    have hmem := JsMap.mem_entries_of_get he
    have hnil := List.map_eq_nil_iff.1 (List.min?_eq_none_iff.1 h)
    rw [hnil] at hmem
    simp at hmem

/-- An alarm is armed for every entry. -/
def Armed (s : DurableReminders) : Prop :=
  ∀ name e, s.entries.get name = some e → ∃ first, s.alarm = some first ∧ first ≤ e.nextDue

/-- A write arms the alarm, wherever it was. -/
theorem armed_rearm (s : DurableReminders) : Armed s.rearm := by
  unfold DurableReminders.rearm
  split
  · rename_i hnone
    intro name e he
    have hget : s.entries.get name = some e := he
    rw [get_of_earliest_eq_none hnone] at hget
    simp at hget
  · rename_i first hfirst
    split
    · intro name e he
      exact ⟨first, rfl, earliest_le hfirst he⟩
    rename_i current hcurrent
    split
    · intro name e he
      exact ⟨first, rfl, earliest_le hfirst he⟩
    · intro name e he
      have hearliest := earliest_le hfirst he
      exact ⟨current, hcurrent, by omega⟩

/-- The end of a handler arms the alarm. -/
theorem armed_rearmConsumed (s : DurableReminders) : Armed s.rearmConsumed := by
  unfold DurableReminders.rearmConsumed
  split
  · rename_i hnone
    intro name e he
    have hget : s.entries.get name = some e := he
    rw [get_of_earliest_eq_none hnone] at hget
    simp at hget
  · rename_i first hfirst
    intro name e he
    exact ⟨first, rfl, earliest_le hfirst he⟩

/-- Arming touches the alarm only. -/
theorem rearm_eq (s : DurableReminders) : s.rearm = { s with alarm := s.rearm.alarm } := by
  unfold DurableReminders.rearm
  split
  · rfl
  split
  · rfl
  · split <;> rfl

theorem armed_alarm (s : DurableReminders) : Armed { s with alarm := s.rearm.alarm } := by
  rw [← rearm_eq]
  exact armed_rearm s

theorem rearmConsumed_eq (s : DurableReminders) :
    s.rearmConsumed = { s with alarm := s.rearmConsumed.alarm } := by
  unfold DurableReminders.rearmConsumed
  split
  · rfl
  · rfl

end

/-! ## The invariant -/

/-- What a handler has collected and not heard of since is as it has left it. -/
structure DueOk (s : DurableReminders) (d : Due) : Prop where
  made : d.made < s.writes
  gone : ∀ e, s.entries.get d.name = some e → e.made ≠ d.made
  oneShot : d.touched = false → d.advanced = none → s.entries.get d.name = none
  periodic : d.touched = false → ∀ advanced, d.advanced = some advanced →
    s.entries.get d.name = some advanced
  unwanted : d.touched = false → s.wanted d.name = none

structure Inv (s : DurableReminders) : Prop where
  armed : s.handling = .idle → Armed s
  kept : ∀ name e, s.wanted name = some e → s.entries.get name = some e
  once : s.delivered.Nodup
  made : ∀ name e, s.entries.get name = some e → e.made < s.writes
  fresh : ∀ name e, s.entries.get name = some e → (name, e.made) ∉ s.delivered
  delivered : ∀ id ∈ s.delivered, id.2 < s.writes
  collected : ∀ d ∈ s.handling.collected, DueOk s d
  names : (s.handling.collected.map (·.name)).Nodup
  pending : ∀ ref due failed, s.handling = .delivering ref due failed →
    ∀ d ∈ due, (d.name, d.made) ∉ s.delivered

variable {tickMs at_ : Int} {s t : DurableReminders} {name : String} {ref : ActorRef}

/-! ### The actor -/

theorem collected_touch (name : String) (handling : Handling) :
    (handling.touch name).collected =
      handling.collected.map fun d => if d.name = name then { d with touched := true } else d := by
  cases handling with
  | idle | started => rfl
  | delivering ref due failed => simp [Handling.touch, Handling.collected]

theorem names_touch (name : String) (handling : Handling) :
    (handling.touch name).collected.map (·.name) = handling.collected.map (·.name) := by
  rw [collected_touch, List.map_map]
  refine List.map_congr_left fun d _ => ?_
  show (if d.name = name then { d with touched := true } else d).name = d.name
  split
  · rfl
  · rfl

variable {due failed : List Due}

/-- What is pending after a touch was pending before it. -/
theorem pending_touch {handling : Handling} {ref : Option ActorRef}
    (h : handling.touch name = .delivering ref due failed) :
    ∃ due' failed', handling = .delivering ref due' failed' ∧
      ∀ d ∈ due, ∃ d' ∈ due', d.name = d'.name ∧ d.made = d'.made := by
  cases handling with
  | idle | started => simp [Handling.touch] at h
  | delivering ref' due' failed' =>
    obtain ⟨rfl, rfl, rfl⟩ := h
    refine ⟨due', failed', rfl, fun d hd => ?_⟩
    obtain ⟨d', hd', rfl⟩ := List.mem_map.1 hd
    refine ⟨d', hd', ?_⟩
    split <;> exact ⟨rfl, rfl⟩

/-- The actor writes one name, and the handler that may deliver it is told. -/
theorem Inv.touch (h : Inv s) {entries : JsMap String Entry} {wanted : String → Option Entry}
    {owner : Option ActorRef} {alarm : Option Int} {writes : Nat} (hwrites : s.writes ≤ writes)
    (hothers : ∀ n, n ≠ name → entries.get n = s.entries.get n)
    (hwanted : ∀ n, n ≠ name → wanted n = s.wanted n)
    (hself : ∀ e, wanted name = some e → entries.get name = some e)
    (hmade : ∀ e, entries.get name = some e →
      e.made < writes ∧ (s.writes ≤ e.made ∨ s.entries.get name = some e))
    (harmed : s.handling = .idle →
      Armed ⟨owner, entries, alarm, s.handling.touch name, writes, wanted, s.delivered⟩) :
    Inv ⟨owner, entries, alarm, s.handling.touch name, writes, wanted, s.delivered⟩ := by
  refine ⟨?_, ?_, h.once, ?_, ?_, ?_, ?_, ?_, ?_⟩
  · intro hidle
    refine harmed ?_
    revert hidle
    cases s.handling with
    | idle => exact fun _ => rfl
    | started | delivering => exact fun h => by simp [Handling.touch] at h
  · intro n e he
    by_cases hn : n = name
    · exact hn ▸ hself e (hn ▸ he)
    · exact (hothers n hn).trans (h.kept n e ((hwanted n hn).symm.trans he))
  · intro n e he
    by_cases hn : n = name
    · exact (hmade e (hn ▸ he)).1
    · exact Nat.lt_of_lt_of_le (h.made n e ((hothers n hn).symm.trans he)) hwrites
  · intro n e he hdelivered
    by_cases hn : n = name
    · rcases (hmade e (hn ▸ he)).2 with hle | hold
      · exact absurd (h.delivered _ hdelivered) (Nat.not_lt.2 hle)
      · exact h.fresh n e (hn ▸ hold) hdelivered
    · exact h.fresh n e ((hothers n hn).symm.trans he) hdelivered
  · intro id hid
    exact Nat.lt_of_lt_of_le (h.delivered id hid) hwrites
  · intro d hd
    have hd' : d ∈ (s.handling.touch name).collected := hd
    rw [collected_touch] at hd'
    obtain ⟨old, hold, rfl⟩ := List.mem_map.1 hd'
    have hok := h.collected old hold
    by_cases hn : old.name = name
    · rw [if_pos hn]
      refine ⟨Nat.lt_of_lt_of_le hok.made hwrites, ?_, fun hf => ?_, fun hf => ?_, fun hf => ?_⟩
      · intro e he
        have he' : entries.get name = some e := hn ▸ he
        rcases (hmade e he').2 with hle | hget
        · exact fun heq => Nat.lt_irrefl _ (Nat.lt_of_lt_of_le hok.made (heq ▸ hle))
        · exact hok.gone e (hn.symm ▸ hget)
      · simp at hf
      · simp at hf
      · simp at hf
    · rw [if_neg hn]
      refine ⟨Nat.lt_of_lt_of_le hok.made hwrites, ?_, ?_, ?_, ?_⟩
      · intro e he
        exact hok.gone e ((hothers _ hn).symm.trans he)
      · exact fun hf hadv => (hothers _ hn).trans (hok.oneShot hf hadv)
      · exact fun hf advanced hadv => (hothers _ hn).trans (hok.periodic hf advanced hadv)
      · exact fun hf => (hwanted _ hn).trans (hok.unwanted hf)
  · rw [names_touch]
    exact h.names
  · intro ref due failed hhandling d hd
    obtain ⟨due', failed', hold, hall⟩ := pending_touch hhandling
    obtain ⟨d', hd', hname, hmade'⟩ := hall d hd
    rw [hname, hmade']
    exact h.pending ref due' failed' hold d' hd'

theorem Inv.set {due : Int} {period : Option Int} (h : Inv s) (hname : name ≠ "__proto__") :
    Inv (s.set ref name due period at_) := by
  unfold DurableReminders.set
  split
  · exact h
  rw [rearm_eq]
  refine h.touch (Nat.le_succ _) (fun n hn => JsMap.get_assign_of_ne _ _ hn)
    (fun n hn => if_neg hn) ?_ ?_ ?_
  · intro e he
    rw [JsMap.get_assign _ _ hname, if_pos rfl]
    exact (if_pos rfl).symm.trans he
  · intro e he
    rw [JsMap.get_assign _ _ hname, if_pos rfl] at he
    cases he
    exact ⟨Nat.lt_succ_self _, .inl (Nat.le_refl _)⟩
  · exact fun _ => armed_alarm _

theorem Inv.clear (h : Inv s) : Inv (s.clear ref name) := by
  unfold DurableReminders.clear
  split
  · exact h
  split
  · rename_i hnot
    have hnone : s.entries.get name = none := by
      have hhas : s.entries.has name = false := by
        exact (Bool.or_eq_false_iff.1 hnot).1
      exact Option.not_isSome_iff_eq_none.1 (Bool.eq_false_iff.1 hhas)
    refine h.touch (Nat.le_refl _) (fun _ _ => rfl) (fun n hn => if_neg hn) ?_ ?_ ?_
    · intro e he
      simp at he
    · intro e he
      rw [hnone] at he
      simp at he
    · exact h.armed
  · rw [rearm_eq]
    refine h.touch (Nat.le_refl _) (fun n hn => (JsMap.get_erase _ _ _).trans (if_neg hn))
      (fun n hn => if_neg hn) ?_ ?_ ?_
    · intro e he
      simp at he
    · intro e he
      simp at he
    · exact fun _ => armed_alarm _

/-! ### The handler -/

theorem Inv.fire (h : Inv s) (hstep : s.fire = some t) : Inv t := by
  unfold DurableReminders.fire at hstep
  split at hstep
  · cases hstep
    refine ⟨fun hidle => ?_, h.kept, h.once, h.made, h.fresh, h.delivered, ?_, ?_, ?_⟩
    · simp at hidle
    · intro d hd
      simp [Handling.collected] at hd
    · simp [Handling.collected]
    · intro ref due failed hhandling
      simp at hhandling
  · simp at hstep

/-- What the first block makes of an entry. -/
def collectEntry (at_ : Int) (writes : Nat) (e : Entry) : Option Entry :=
  if at_ < e.nextDue then some e
  else e.period.map fun period => DurableReminders.advance at_ writes e period

theorem get_collect (entries : JsMap String Entry) (at_ : Int) (writes : Nat) (n : String) :
    ((entries.filter fun _ e => decide (at_ < e.nextDue ∨ e.period.isSome = true)).mapValues
      fun _ e =>
        match e.period with
        | some period =>
          if e.nextDue ≤ at_ then DurableReminders.advance at_ writes e period else e
        | none => e).get n = (entries.get n).bind (collectEntry at_ writes) := by
  rw [JsMap.get_mapValues, JsMap.get_filter]
  cases entries.get n with
  | none => rfl
  | some e =>
    rw [Option.bind_some, collectEntry]
    by_cases hlt : at_ < e.nextDue
    · have hle : ¬ e.nextDue ≤ at_ := by omega
      cases hp : e.period with
      | none => simp [Option.filter, hlt, hp]
      | some period => simp [Option.filter, hlt, hp, hle]
    · have hle : e.nextDue ≤ at_ := by omega
      cases hp : e.period with
      | none => simp [Option.filter, hlt, hp]
      | some period => simp [Option.filter, hlt, hp, hle]

/-- An entry behind the first block is one that was not due, or one that it has written. -/
theorem of_collectEntry {writes : Nat} {e e' : Entry} (h : collectEntry at_ writes e = some e') :
    (at_ < e.nextDue ∧ e' = e) ∨ (¬ at_ < e.nextDue ∧ e'.made = writes) := by
  unfold collectEntry at h
  split at h
  · rename_i hlt
    exact .inl ⟨hlt, (Option.some.inj h).symm⟩
  · rename_i hlt
    obtain ⟨period, -, rfl⟩ := Option.map_eq_some_iff.1 h
    exact .inr ⟨hlt, rfl⟩

theorem Inv.collect (h : Inv s) (hstep : s.collect at_ = some t) : Inv t := by
  unfold DurableReminders.collect at hstep
  split at hstep
  · cases hstep
    have hget := get_collect s.entries at_ s.writes
    -- an entry of the new table, as it was
    have hold : ∀ n e', (s.entries.get n).bind (collectEntry at_ s.writes) = some e' →
        ∃ e, s.entries.get n = some e ∧
          ((at_ < e.nextDue ∧ e' = e) ∨ (¬ at_ < e.nextDue ∧ e'.made = s.writes)) := by
      intro n e' he'
      obtain ⟨e, he, hcollect⟩ := Option.bind_eq_some_iff.1 he'
      exact ⟨e, he, of_collectEntry hcollect⟩
    have hready : ∀ d ∈ (s.entries.entries.filter fun q => q.2.nextDue ≤ at_).map (fun q =>
        ({ name := q.1, advanced := q.2.period.map (DurableReminders.advance at_ s.writes q.2), made := q.2.made } :
          Due)), ∃ e, s.entries.get d.name = some e ∧ e.nextDue ≤ at_ ∧ d.made = e.made ∧
            d.advanced = e.period.map (DurableReminders.advance at_ s.writes e) := by
      intro d hd
      obtain ⟨q, hq, rfl⟩ := List.mem_map.1 hd
      obtain ⟨hmem, hle⟩ := List.mem_filter.1 hq
      exact ⟨q.2, JsMap.get_of_mem_entries hmem, of_decide_eq_true hle, rfl, rfl⟩
    refine ⟨fun hidle => ?_, ?_, h.once, ?_, ?_, ?_, ?_, ?_, ?_⟩
    · simp at hidle
    · intro n e hwanted
      have hwanted' : (if (s.entries.get n).any fun e => e.nextDue ≤ at_ then none
        else s.wanted n) = some e := hwanted
      obtain ⟨hnot, hwanted'⟩ := guard_past hwanted'
      have he := h.kept n e hwanted'
      rw [he] at hnot
      have hlt : at_ < e.nextDue := by simpa using hnot
      refine (hget n).trans ?_
      rw [he, Option.bind_some, collectEntry, if_pos hlt]
    · intro n e' he'
      obtain ⟨e, he, ⟨-, rfl⟩ | ⟨-, hmade⟩⟩ := hold n e' ((hget n).symm.trans he')
      · exact Nat.lt_succ_of_lt (h.made n _ he)
      · show e'.made < s.writes + 1
        omega
    · intro n e' he'
      obtain ⟨e, he, ⟨-, rfl⟩ | ⟨-, hmade⟩⟩ := hold n e' ((hget n).symm.trans he')
      · exact h.fresh n _ he
      intro hdelivered
      have hlt := h.delivered _ hdelivered
      rw [hmade] at hlt
      exact Nat.lt_irrefl _ hlt
    · intro id hid
      exact Nat.lt_succ_of_lt (h.delivered id hid)
    · intro d hd
      obtain ⟨e, he, hle, hmade, hadvanced⟩ := hready d (by simpa [Handling.collected] using hd)
      have hnot : ¬ at_ < e.nextDue := by omega
      have hget' := hget d.name
      rw [he, Option.bind_some, collectEntry, if_neg hnot, ← hadvanced] at hget'
      refine ⟨?_, ?_, ?_, ?_, ?_⟩
      · rw [hmade]
        exact Nat.lt_succ_of_lt (h.made _ e he)
      · intro e' he'
        obtain ⟨e₁, he₁, ⟨hlt, -⟩ | ⟨-, hmade'⟩⟩ := hold _ e' ((hget _).symm.trans he')
        · rw [he] at he₁
          cases he₁
          exact absurd hlt hnot
        · have hlt := h.made _ e he
          omega
      · intro _ hnone
        exact hget'.trans hnone
      · intro _ advanced hadv
        exact hget'.trans hadv
      · intro _
        show (if (s.entries.get d.name).any fun e => e.nextDue ≤ at_ then none
          else s.wanted d.name) = none
        rw [he]
        exact if_pos (by simpa using hle)
    · have hsub : ((s.entries.entries.filter fun q => q.2.nextDue ≤ at_).map Prod.fst).Nodup :=
        s.entries.nodup.sublist (List.Sublist.map _ List.filter_sublist)
      simpa [Handling.collected, List.map_map, Function.comp_def] using hsub
    · intro ref due failed hhandling d hd
      obtain ⟨-, rfl, -⟩ := hhandling
      obtain ⟨e, he, -, hmade, -⟩ := hready d hd
      rw [hmade]
      exact h.fresh _ e he
  · simp at hstep

theorem Inv.deliver {i : Nat} {ok : Bool} (h : Inv s) (hstep : s.deliver i ok = some t) : Inv t := by
  unfold DurableReminders.deliver at hstep
  split at hstep
  · rename_i ref due failed hhandling
    split at hstep
    · rename_i d hd
      cases hstep
      have hmem : d ∈ due := List.mem_of_getElem? hd
      have hcollected := h.collected
      have hnames := h.names
      rw [hhandling] at hcollected hnames
      have hok : DueOk s d := hcollected d (List.mem_append_left _ hmem)
      -- the batch, in another order or without the delivery
      have hbatch : (due.eraseIdx i ++ (if ok then failed else failed ++ [d])) ⊆ due ++ failed ∧
          ((due.eraseIdx i ++ (if ok then failed else failed ++ [d])).map (·.name)).Nodup := by
        cases ok with
        | true =>
          have hsub : (due.eraseIdx i ++ failed).Sublist (due ++ failed) :=
            (List.eraseIdx_sublist due i).append_right failed
          exact ⟨hsub.subset, hnames.sublist (hsub.map _)⟩
        | false =>
          have herase : (d :: due.eraseIdx i).Perm due := by
            obtain ⟨hlt, rfl⟩ := List.getElem?_eq_some_iff.1 hd
            exact List.getElem_cons_eraseIdx_perm hlt
          have hmove : (due.eraseIdx i ++ (failed ++ [d])).Perm (d :: (due.eraseIdx i ++ failed)) := by
            rw [← List.append_assoc]
            exact List.perm_append_singleton d _
          have hperm := hmove.trans (herase.append_right failed)
          exact ⟨hperm.subset, (hperm.map (·.name)).nodup_iff.2 hnames⟩
      refine ⟨fun hidle => ?_, h.kept, ?_, h.made, ?_, ?_, ?_, ?_, ?_⟩
      · simp at hidle
      · rw [List.nodup_append]
        refine ⟨h.once, by simp, ?_⟩
        intro id hid other hother
        rw [List.mem_singleton.1 hother]
        rintro rfl
        exact h.pending _ due failed hhandling d hmem hid
      · intro n e he hdelivered
        rcases List.mem_append.1 hdelivered with hdelivered | hself
        · exact h.fresh n e he hdelivered
        · rw [List.mem_singleton, Prod.mk.injEq] at hself
          exact hok.gone e (hself.1 ▸ he) hself.2
      · intro id hid
        rcases List.mem_append.1 hid with hid | hself
        · exact h.delivered id hid
        · rw [List.mem_singleton.1 hself]
          exact hok.made
      · intro d' hd'
        have hok' := hcollected d' (hbatch.1 hd')
        exact { hok' with }
      · exact hbatch.2
      · intro ref' due' failed' hhandling' d' hd'
        obtain ⟨-, rfl, -⟩ := hhandling'
        intro hdelivered
        rcases List.mem_append.1 hdelivered with hdelivered | hself
        · exact h.pending _ due failed hhandling d' (List.mem_of_mem_eraseIdx hd') hdelivered
        rw [List.mem_singleton, Prod.mk.injEq] at hself
        -- the names of a batch are distinct, so what is left is of another name
        have hdue : (due.map (·.name)).Nodup := by
          have happend : ((due ++ failed).map (·.name)).Nodup := hnames
          rw [List.map_append, List.nodup_append] at happend
          exact happend.1
        have herase : ((d :: due.eraseIdx i).map (·.name)).Nodup := by
          obtain ⟨hlt, rfl⟩ := List.getElem?_eq_some_iff.1 hd
          exact ((List.getElem_cons_eraseIdx_perm hlt).map (·.name)).nodup_iff.2 hdue
        rw [List.map_cons, List.nodup_cons] at herase
        exact herase.1 (List.mem_map.2 ⟨d', hd', hself.1⟩)
    · simp at hstep
  · simp at hstep

/-! ### The last block -/

section

variable {nextDue : Int} {made : Nat} {entries entries' : JsMap String Entry} {d : Due}

/-- A pass touches its own name, and goes by what it finds there. -/
theorem get_retryRow_of_ne {n : String} (hn : n ≠ d.name) :
    (DurableReminders.retryRow nextDue made entries d).get n = entries.get n := by
  unfold DurableReminders.retryRow
  split
  · split
    · rfl
    · exact JsMap.get_assign_of_ne _ _ hn
  · split
    · split
      · rw [JsMap.get_set, if_neg hn]
      · rfl
    · rfl

theorem get_retryRow_congr (h : entries.get d.name = entries'.get d.name) :
    (DurableReminders.retryRow nextDue made entries d).get d.name =
      (DurableReminders.retryRow nextDue made entries' d).get d.name := by
  have hin : entries.inObject d.name = entries'.inObject d.name := by
    rw [JsMap.inObject, JsMap.has, h, JsMap.inObject, JsMap.has]
  have hassign : ∀ e, (entries.assign d.name e).get d.name = (entries'.assign d.name e).get d.name := by
    intro e
    unfold JsMap.assign
    split
    · exact h
    · rw [JsMap.get_set_self, JsMap.get_set_self]
  unfold DurableReminders.retryRow
  rw [hin, h]
  split
  · split
    · exact h
    · exact hassign _
  · split
    · split
      · rw [JsMap.get_set_self, JsMap.get_set_self]
      · exact h
    · exact h

/-- The loop of `retry`, as seen under one name. -/
theorem get_retry (nextDue : Int) (made : Nat) : ∀ (failed : List Due) (entries : JsMap String Entry),
    (failed.map (·.name)).Nodup → (∀ n, n ∉ failed.map (·.name) →
      (failed.foldl (DurableReminders.retryRow nextDue made) entries).get n = entries.get n) ∧
    ∀ d ∈ failed, (failed.foldl (DurableReminders.retryRow nextDue made) entries).get d.name =
      (DurableReminders.retryRow nextDue made entries d).get d.name := by
  intro failed
  induction failed with
  | nil => exact fun _ _ => ⟨fun _ _ => rfl, fun d hd => by simp at hd⟩
  | cons d failed ih =>
    intro entries hnodup
    rw [List.map_cons, List.nodup_cons] at hnodup
    obtain ⟨hothers, hself⟩ := ih (DurableReminders.retryRow nextDue made entries d) hnodup.2
    refine ⟨?_, ?_⟩
    · intro n hn
      rw [List.map_cons, List.mem_cons, not_or] at hn
      exact (hothers n hn.2).trans (get_retryRow_of_ne hn.1)
    · intro d' hd'
      rcases List.mem_cons.1 hd' with rfl | hd'
      · exact hothers _ hnodup.1
      refine (hself d' hd').trans (get_retryRow_congr (get_retryRow_of_ne ?_))
      rintro heq
      exact hnodup.1 (heq ▸ List.mem_map_of_mem hd')

/-- A pass leaves what is there or writes an entry of its own. -/
theorem of_get_retryRow {n : String} {e : Entry}
    (he : (DurableReminders.retryRow nextDue made entries d).get n = some e) :
    entries.get n = some e ∨ e.made = made := by
  have hset : ∀ e', (entries.set d.name e').get n = some e → e'.made = made →
      entries.get n = some e ∨ e.made = made := by
    intro e' hget hmade
    rw [JsMap.get_set] at hget
    split at hget
    · exact .inr (by rw [← Option.some.inj hget]; exact hmade)
    · exact .inl hget
  unfold DurableReminders.retryRow at he
  split at he
  · split at he
    · exact .inl he
    unfold JsMap.assign at he
    split at he
    · exact .inl he
    · exact hset _ he rfl
  · split at he
    · split at he
      · exact hset _ he rfl
      · exact .inl he
    · exact .inl he

end

/-- What the last block does, under the condition, to what has failed. -/
theorem Inv.retryRow {ref : Option ActorRef} (h : Inv s)
    (hhandling : s.handling = .delivering ref due failed)
    (hok : Distinguishes tickMs s (.finish at_)) {d : Due} (hd : d ∈ failed) :
    (∀ e, s.wanted d.name = some e →
      (DurableReminders.retryRow (at_ + tickMs) s.writes s.entries d).get d.name = some e) ∧
    (d.touched = false → ∃ e,
      (DurableReminders.retryRow (at_ + tickMs) s.writes s.entries d).get d.name = some e ∧
        e.nextDue ≤ at_ + tickMs) := by
  simp only [Distinguishes, hhandling] at hok
  obtain ⟨hinherited, hequal⟩ := hok d hd
  have hcollected := h.collected
  rw [hhandling] at hcollected
  have hdue : DueOk s d := hcollected d (List.mem_append_right _ hd)
  cases htouched : d.touched with
  | true =>
    refine ⟨fun e hwanted => ?_, fun hf => by simp at hf⟩
    have he := h.kept d.name e hwanted
    cases hadv : d.advanced with
    | none =>
      have hin : s.entries.inObject d.name = true := by
        rw [JsMap.inObject, JsMap.has, he]
        rfl
      simp only [DurableReminders.retryRow, hadv, hin, if_true]
      exact he
    | some advanced =>
      have hsame := hequal advanced hadv htouched e he
      simp only [DurableReminders.retryRow, hadv, he]
      rw [if_neg]
      · exact he
      · rintro ⟨hn, hp, hlt⟩
        have hle := hsame hn hp
        omega
  | false =>
    refine ⟨fun e hwanted => ?_, fun _ => ?_⟩
    · rw [hdue.unwanted htouched] at hwanted
      simp at hwanted
    · cases hadv : d.advanced with
      | none =>
        have hnone := hdue.oneShot htouched hadv
        have hname := hinherited hadv htouched
        have hin : s.entries.inObject d.name = false := by
          rw [JsMap.inObject_eq_has _ hname, JsMap.has, hnone]
          rfl
        have hproto : d.name ≠ "__proto__" := by
          rintro heq
          exact hname (by rw [heq]; decide)
        refine ⟨⟨at_ + tickMs, none, s.writes⟩, ?_, Int.le_refl _⟩
        simp only [DurableReminders.retryRow, hadv, hin]
        rw [if_neg (by simp), JsMap.get_assign _ _ hproto, if_pos rfl]
      | some advanced =>
        have he := hdue.periodic htouched advanced hadv
        simp only [DurableReminders.retryRow, hadv, he]
        by_cases hlt : at_ + tickMs < advanced.nextDue
        · rw [if_pos ⟨trivial, trivial, hlt⟩, JsMap.get_set_self]
          exact ⟨_, rfl, Int.le_refl _⟩
        · rw [if_neg (fun h => hlt h.2.2)]
          exact ⟨advanced, he, by omega⟩

/-- The names of what has failed are distinct. -/
theorem Inv.failed_names {ref : Option ActorRef} (h : Inv s)
    (hhandling : s.handling = .delivering ref due failed) : (failed.map (·.name)).Nodup := by
  have hnames := h.names
  rw [hhandling] at hnames
  have happend : ((due ++ failed).map (·.name)).Nodup := hnames
  rw [List.map_append, List.nodup_append] at happend
  exact happend.2.1

/-- A handler ends with the failures back on the table. -/
theorem finish_eq (hstep : s.finish tickMs at_ = some t) : ∃ ref due failed,
    s.handling = .delivering ref due failed ∧
      t = { s with
        entries := failed.foldl (DurableReminders.retryRow (at_ + tickMs) s.writes) s.entries
        handling := .idle
        writes := s.writes + 1
        alarm := t.alarm } ∧ Armed t := by
  unfold DurableReminders.finish at hstep
  split at hstep
  · rename_i ref due failed hhandling
    obtain ⟨-, rfl⟩ := guard_taken hstep
    refine ⟨ref, due, failed, hhandling, ?_, armed_rearmConsumed _⟩
    exact rearmConsumed_eq _
  · simp at hstep

theorem Inv.finish (h : Inv s) (hok : Distinguishes tickMs s (.finish at_))
    (hstep : s.finish tickMs at_ = some t) : Inv t := by
  obtain ⟨ref, due, failed, hhandling, ht, harmed⟩ := finish_eq hstep
  obtain ⟨hothers, hself⟩ := get_retry (at_ + tickMs) s.writes failed s.entries
    (h.failed_names hhandling)
  -- an entry of the new table is one of the old, or new
  have hold : ∀ n e, (failed.foldl (DurableReminders.retryRow (at_ + tickMs) s.writes)
      s.entries).get n = some e → s.entries.get n = some e ∨ e.made = s.writes := by
    intro n e he
    by_cases hn : n ∈ failed.map (·.name)
    · obtain ⟨d, hd, rfl⟩ := List.mem_map.1 hn
      exact of_get_retryRow ((hself d hd).symm.trans he)
    · exact .inl ((hothers n hn).symm.trans he)
  rw [ht] at harmed ⊢
  refine ⟨fun _ => harmed, ?_, h.once, ?_, ?_, ?_, ?_, ?_, ?_⟩
  · intro n e hwanted
    by_cases hn : n ∈ failed.map (·.name)
    · obtain ⟨d, hd, rfl⟩ := List.mem_map.1 hn
      exact (hself d hd).trans ((h.retryRow hhandling hok hd).1 e hwanted)
    · exact (hothers n hn).trans (h.kept n e hwanted)
  · intro n e he
    rcases hold n e he with hget | hmade
    · exact Nat.lt_succ_of_lt (h.made n e hget)
    · exact hmade ▸ Nat.lt_succ_self _
  · intro n e he hdelivered
    rcases hold n e he with hget | hmade
    · exact h.fresh n e hget hdelivered
    have hlt := h.delivered _ hdelivered
    rw [hmade] at hlt
    exact Nat.lt_irrefl _ hlt
  · exact fun id hid => Nat.lt_succ_of_lt (h.delivered id hid)
  · intro d hd
    simp [Handling.collected] at hd
  · simp [Handling.collected]
  · intro ref due failed hhandling
    simp at hhandling

theorem Inv.neverStranded (h : Inv s) : NeverStranded tickMs (Distinguishes tickMs) s := by
  refine { h with retried := ?_ }
  intro at_ t ref due failed hhandling hok hstep d hd huntouched
  obtain ⟨ref', due', failed', hhandling', ht, -⟩ := finish_eq hstep
  rw [hhandling, Handling.delivering.injEq] at hhandling'
  obtain ⟨-, -, rfl⟩ := hhandling'
  obtain ⟨e, he, hle⟩ := (h.retryRow hhandling hok hd).2 huntouched
  refine ⟨e, ?_, hle⟩
  rw [ht]
  exact ((get_retry _ _ failed s.entries (h.failed_names hhandling)).2 d hd).trans he

/-! ## Every run -/

theorem inv_initial : Inv {} := by
  refine ⟨?_, ?_, ?_, ?_, ?_, ?_, ?_, ?_, ?_⟩
  · intro _ name e he
    simp at he
  · intro name e he
    simp at he
  · exact List.nodup_nil
  · intro name e he
    simp at he
  · intro name e he
    simp at he
  · intro id hid
    simp at hid
  · intro d hd
    simp [Handling.collected] at hd
  · exact List.nodup_nil
  · intro ref due failed hhandling
    simp at hhandling

theorem Inv.step {l : ReminderLabel} (h : Inv s) (hok : Distinguishes tickMs s l)
    (hstep : (durableReminders tickMs).step s l = some t) : Inv t := by
  cases l with
  | set ref name due period at_ =>
    cases hstep
    exact h.set hok
  | clear ref name =>
    cases hstep
    exact h.clear
  | fire => exact h.fire hstep
  | collect at_ => exact h.collect hstep
  | deliver i ok => exact h.deliver hstep
  | finish at_ => exact h.finish hok hstep

/-- **Never stranded.**  In every run in which the last block can tell an untouched reminder
from one that was set again, and no reminder is set under `__proto__`, every state has the
alarm armed, what was asked for on the table, no occurrence delivered twice, and what has
failed back within a tick. -/
theorem durableReminders_neverStranded
    (h : (durableReminders tickMs).Reach (Distinguishes tickMs) s) :
    NeverStranded tickMs (Distinguishes tickMs) s := by
  have hinv : Inv s := h.invariant
    (fun s hs => by
      obtain rfl : s = {} := hs
      exact inv_initial)
    (fun _ _ _ hinv hok hstep => hinv.step hok hstep)
  exact hinv.neverStranded

/-- The actor of the object. -/
def cart : ActorRef := ⟨"cart", "a"⟩

/-- A one-shot and a periodic reminder fail; the periodic one is set again meanwhile. -/
def resetRun : List ReminderLabel :=
  [.set cart "once" 0 none 0, .set cart "poll" 5 (some 60000) 0, .fire, .collect 10,
    .set cart "poll" 500000 (some 60000) 11, .deliver 1 false, .deliver 0 false, .finish 20]

def resetEnd : DurableReminders :=
  ((durableReminders 30000).exec (Distinguishes 30000) {} resetRun).get (by decide)

theorem durableReminders_neverStranded_reset :
    resetEnd.entries.entries.map (fun q => (q.1, q.2.nextDue)) =
        [("poll", 500011), ("once", 30020)] ∧ resetEnd.alarm = some 30020 ∧
      NeverStranded 30000 (Distinguishes 30000) resetEnd := by
  have hstart : (durableReminders 30000).Reach (Distinguishes 30000) {} := .start rfl
  exact ⟨by decide, by decide, durableReminders_neverStranded (hstart.exec_get resetRun (by decide))⟩

/-- A reminder that is set under `__proto__` is not on the table. -/
def protoRun : List ReminderLabel := [.set cart "__proto__" 5 none 0]

/-- A one-shot under a name that every object inherits fails. -/
def inheritedRun : List ReminderLabel :=
  [.set cart "toString" 5 none 0, .fire, .collect 5, .deliver 0 false]

/-- While it is delivered, a periodic reminder is set to what the alarm has written; then the
delivery fails. -/
def sameRun : List ReminderLabel :=
  [.set cart "poll" 0 (some 60000) 0, .fire, .collect 0, .set cart "poll" 59000 (some 60000) 1000,
    .deliver 0 false, .finish 2000]

def protoEnd : DurableReminders :=
  ((durableReminders 30000).exec (fun _ _ => True) {} protoRun).get (by decide)

def inheritedEnd : DurableReminders :=
  ((durableReminders 30000).exec (fun _ _ => True) {} inheritedRun).get (by decide)

def sameEnd : DurableReminders :=
  ((durableReminders 30000).exec (fun _ _ => True) {} sameRun).get (by decide)

theorem not_neverStranded : ((durableReminders 30000).Reachable protoEnd ∧
      ¬ NeverStranded 30000 (fun _ _ => True) protoEnd) ∧
    ((durableReminders 30000).Reachable inheritedEnd ∧
      ¬ NeverStranded 30000 (fun _ _ => True) inheritedEnd) ∧
    ((durableReminders 30000).Reachable sameEnd ∧
      ¬ NeverStranded 30000 (fun _ _ => True) sameEnd) := by
  have hstart : (durableReminders 30000).Reachable {} := .start rfl
  refine ⟨⟨hstart.exec_get protoRun (by decide), fun h => ?_⟩,
    ⟨hstart.exec_get inheritedRun (by decide), fun h => ?_⟩,
    ⟨hstart.exec_get sameRun (by decide), fun h => ?_⟩⟩
  · have hkept := h.kept "__proto__" ⟨5, none, 0⟩ (by decide)
    exact absurd hkept (by decide)
  · have hretried := h.retried 10 ((inheritedEnd.finish 30000 10).get (by decide)) (some cart) []
      [⟨"toString", none, 0, false⟩] (by rfl) trivial (Option.some_get _).symm _
      List.mem_cons_self rfl
    obtain ⟨e, he, -⟩ := hretried
    have hnone : ((inheritedEnd.finish 30000 10).get (by decide)).entries.get "toString" = none := by
      decide
    rw [hnone] at he
    simp at he
  · have hkept := h.kept "poll" ⟨60000, some 60000, 2⟩ (by decide)
    exact absurd hkept (by decide)

end SigxActors.Cloudflare
