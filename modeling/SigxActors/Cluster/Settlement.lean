/-
  Cluster/Settlement.lean --- a call settles once, and as `unreachable` only if it
  was never written.

  `unreachable` is what the placement re-dispatches on.  The connection raises it
  itself only for a call it has not written.  But it re-creates whatever error the
  peer reports, kind and all: a call that ran on the peer, and failed there on a
  hop of its own, settles as `unreachable` too.  A call is also lost where its id
  is given to another while it is in flight, or where the link closes while it
  takes the CALL: neither is in the table any more when the connection closes.
-/
import SigxActors.Cluster.ConnectionMoves

set_option autoImplicit false

namespace SigxActors.Cluster

open SigxActors.Js

/-- The caller sees an `unreachable` error. -/
def Settlement.isUnreachable {V : Type} (settlement : Settlement V) : Prop :=
  settlement.thrown.bind Thrown.kind? = some .unreachable

instance {V : Type} (settlement : Settlement V) : Decidable settlement.isUnreachable :=
  inferInstanceAs (Decidable (_ = _))

namespace HostConnection

variable {V : Type}

/-! ## The table and the calls -/

/-- The table holds the calls that have yet to settle, but for the call `ex`. -/
structure RegisteredBut (ex : Option Nat) (c : HostConnection V) : Prop where
  pending : ∀ corrId id, c.unary.get corrId = some id →
    ex ≠ some id ∧ c.calls[id]? = some ⟨some corrId, true, []⟩
  registered : ∀ id call, c.calls[id]? = some call → call.settled = [] →
    ex = some id ∨ ∃ corrId, call.corrId = some corrId ∧ c.unary.get corrId = some id
  exempt : ∀ id, ex = some id → ∃ corrId, c.calls[id]? = some ⟨some corrId, true, []⟩
  once : ∀ call ∈ c.calls, call.settled.length ≤ 1
  closed : c.closed = true → c.unary = .empty

/-- A call that was written settles on the terms, or is lost; one that was not is settled. -/
structure Honest (fair : Settlement V → Prop) (c : HostConnection V) : Prop where
  written : ∀ call ∈ c.calls, call.written = true → ∀ settlement ∈ call.settled, fair settlement
  unwritten : ∀ call ∈ c.calls, call.written = false → ∃ settlement, call.settled = [settlement] ∧
    ((∃ reason, settlement = .unreachable reason) ∨ ∃ reason, settlement = .aborted reason)

section

variable {fair : Settlement V → Prop} {link : Link V} {c d : HostConnection V} {ex : Option Nat}
  {corrId id : Nat} {settlement : Settlement V}

theorem RegisteredBut.of_same (h : c.RegisteredBut ex) (hcalls : d.calls = c.calls)
    (hunary : d.unary = c.unary) (hclosed : d.closed = c.closed) : d.RegisteredBut ex := by
  refine ⟨?_, ?_, ?_, ?_, ?_⟩
  · rw [hcalls, hunary]
    exact h.pending
  · rw [hcalls, hunary]
    exact h.registered
  · rw [hcalls]
    exact h.exempt
  · rw [hcalls]
    exact h.once
  · rw [hclosed, hunary]
    exact h.closed

theorem Honest.of_same (h : c.Honest fair) (hcalls : d.calls = c.calls) : d.Honest fair :=
  ⟨hcalls ▸ h.written, hcalls ▸ h.unwritten⟩

/-! ## Settling -/

theorem calls_settle (j : Nat) : (c.settle id settlement).calls[j]? =
    (c.calls[j]?).map fun call =>
      if id = j then { call with settled := call.settled ++ [settlement] } else call := by
  show (c.calls.modify id _)[j]? = _
  rw [List.getElem?_modify]
  cases c.calls[j]? with
  | none => rfl
  | some call =>
    by_cases hj : id = j <;> simp [hj]

theorem mem_calls_settle {call : UnaryCall V} (hget : c.calls[id]? = some call)
    {call' : UnaryCall V} (hmem : call' ∈ (c.settle id settlement).calls) :
    call' ∈ c.calls ∨ call' = { call with settled := call.settled ++ [settlement] } := by
  obtain ⟨j, hj⟩ := List.getElem?_of_mem hmem
  rw [calls_settle] at hj
  obtain ⟨old, hold, rfl⟩ := Option.map_eq_some_iff.1 hj
  by_cases hid : id = j
  · rw [← hid, hget] at hold
    rw [if_pos hid, ← Option.some.inj hold]
    exact .inr rfl
  · rw [if_neg hid]
    exact .inl (List.mem_of_getElem? hold)

/-- The exempt call settles. -/
theorem RegisteredBut.settle (h : c.RegisteredBut (some id)) :
    (c.settle id settlement).RegisteredBut none := by
  obtain ⟨corrId, hget⟩ := h.exempt id rfl
  refine ⟨fun corrId' id' hunary => ?_, fun id' call hcall hsettled => ?_, fun _ hnone => ?_,
    fun call hmem => ?_, h.closed⟩
  · obtain ⟨hne, hcall⟩ := h.pending corrId' id' hunary
    refine ⟨by simp, ?_⟩
    rw [calls_settle, hcall, Option.map_some, if_neg fun heq => hne (congrArg some heq)]
  · rw [calls_settle] at hcall
    obtain ⟨old, hold, rfl⟩ := Option.map_eq_some_iff.1 hcall
    by_cases hid : id = id'
    · rw [if_pos hid] at hsettled
      simp at hsettled
    · rw [if_neg hid] at hsettled ⊢
      rcases h.registered id' old hold hsettled with hex | hin
      · exact absurd (Option.some.inj hex) hid
      · exact .inr hin
  · cases hnone
  · rcases mem_calls_settle hget hmem with hold | rfl
    · exact h.once call hold
    · exact Nat.le_refl 1

theorem Honest.settle (h : c.Honest fair) {call : UnaryCall V} (hget : c.calls[id]? = some call)
    (hwritten : call.written = true) (hfair : fair settlement) :
    (c.settle id settlement).Honest fair := by
  refine ⟨fun call' hmem hw s hs => ?_, fun call' hmem hw => ?_⟩
  · rcases mem_calls_settle hget hmem with hold | rfl
    · exact h.written call' hold hw s hs
    rw [List.mem_append, List.mem_singleton] at hs
    rcases hs with hs | rfl
    · exact h.written call (List.mem_of_getElem? hget) hwritten s hs
    · exact hfair
  · rcases mem_calls_settle hget hmem with hold | rfl
    · exact h.unwritten call' hold hw
    · rw [hwritten] at hw
      cases hw

/-- A call that waits is the one under its id. -/
theorem RegisteredBut.mine (h : c.RegisteredBut none) {id' : Nat}
    (hget : c.calls[id]? = some ⟨some corrId, true, []⟩) (hunary : c.unary.get corrId = some id') :
    id' = id := by
  rcases h.registered id _ hget rfl with hnone | ⟨corrId', hcorrId', hin⟩
  · cases hnone
  · cases hcorrId'
    exact Option.some.inj (hunary.symm.trans hin)

/-- A call leaves the table. -/
theorem RegisteredBut.eraseCall (h : c.RegisteredBut none) (hget : c.unary.get corrId = some id) :
    RegisteredBut (some id) { c with unary := c.unary.erase corrId } := by
  have hcall := (h.pending corrId id hget).2
  refine ⟨fun corrId' id' hunary => ?_, fun id' call hid' hsettled => ?_, fun id' hid' => ?_, h.once,
    fun hclosed => ?_⟩
  · rw [JsMap.get_erase] at hunary
    obtain ⟨hne, hunary⟩ := guard_past hunary
    have hcall' := (h.pending corrId' id' hunary).2
    refine ⟨fun heq => hne ?_, hcall'⟩
    rw [← Option.some.inj heq, hcall] at hcall'
    injection Option.some.inj hcall' with hcorrId
    exact Option.some.inj hcorrId.symm
  · rcases h.registered id' call hid' hsettled with hnone | ⟨corrId', hcorrId', hin⟩
    · cases hnone
    by_cases hne : corrId' = corrId
    · refine .inl ?_
      rw [← hget, ← hne, hin]
    · refine .inr ⟨corrId', hcorrId', ?_⟩
      rw [JsMap.get_erase, if_neg hne]
      exact hin
  · cases hid'
    exact ⟨corrId, hcall⟩
  · rw [h.closed hclosed] at hget
    cases hget

/-! ## Closing -/

/-- Each of `ids` settles. -/
def settleEach (ids : List Nat) (settlement : Settlement V) (c : HostConnection V) :
    HostConnection V :=
  ids.foldl (fun c id => c.settle id settlement) c

theorem settleEach_same : ∀ (ids : List Nat) (c : HostConnection V),
    (settleEach ids settlement c).unary = c.unary ∧
      (settleEach ids settlement c).closed = c.closed := by
  intro ids
  induction ids with
  | nil => exact fun _ => ⟨rfl, rfl⟩
  | cons id ids ih => exact fun c => ih (c.settle id settlement)

theorem calls_settleEach : ∀ (ids : List Nat) (c : HostConnection V) (j : Nat), ids.Nodup →
    (settleEach ids settlement c).calls[j]? = (c.calls[j]?).map fun call =>
      if j ∈ ids then { call with settled := call.settled ++ [settlement] } else call := by
  intro ids
  induction ids with
  | nil =>
    intro c j _
    show c.calls[j]? = _
    cases c.calls[j]? with
    | none | some => rfl
  | cons id ids ih =>
    intro c j hnodup
    obtain ⟨hnot, hnodup⟩ := List.nodup_cons.1 hnodup
    rw [settleEach, List.foldl_cons, ← settleEach, ih _ j hnodup, calls_settle, Option.map_map]
    congr 1
    funext call
    by_cases hid : id = j
    · subst hid
      simp [hnot]
    · have hne : ¬ j = id := fun heq => hid heq.symm
      simp [hid, hne]

/-- A call is pending under one id. -/
theorem RegisteredBut.nodup (h : c.RegisteredBut ex) : (c.unary.entries.map Prod.snd).Nodup := by
  have hkeys := List.pairwise_map.1 c.unary.nodup
  refine List.pairwise_map.2 (hkeys.imp_of_mem fun {p q} hp hq hne heq => hne ?_)
  have hpcall := (h.pending p.1 p.2 (JsMap.get_of_mem_entries hp)).2
  have hqcall := (h.pending q.1 q.2 (JsMap.get_of_mem_entries hq)).2
  rw [heq, hqcall] at hpcall
  injection Option.some.inj hpcall with hcorrId
  exact Option.some.inj hcorrId.symm

theorem mem_pending_iff (j : Nat) :
    j ∈ c.unary.entries.map Prod.snd ↔ ∃ corrId, c.unary.get corrId = some j := by
  rw [List.mem_map]
  constructor
  · rintro ⟨p, hp, rfl⟩
    exact ⟨p.1, JsMap.get_of_mem_entries hp⟩
  · rintro ⟨corrId, hget⟩
    exact ⟨(corrId, j), JsMap.mem_entries_of_get hget, rfl⟩

/-- What closing does to the calls. -/
theorem close_same (reason : String) (hopen : c.closed = false) :
    (c.close reason).calls =
        (settleEach (c.unary.entries.map Prod.snd) (.lost reason) { c with closed := true }).calls ∧
      (c.close reason).unary = .empty ∧ (c.close reason).closed = true := by
  have hfail : ∀ (ks : List Nat) (c : HostConnection V),
      (ks.foldl (fun c k => c.failStream k (.unreachable reason)) c).calls = c.calls ∧
        (ks.foldl (fun c k => c.failStream k (.unreachable reason)) c).unary = c.unary ∧
        (ks.foldl (fun c k => c.failStream k (.unreachable reason)) c).closed = c.closed := by
    intro ks
    induction ks with
    | nil => exact fun _ => ⟨rfl, rfl, rfl⟩
    | cons k ks ih => exact fun c => ih (c.failStream k (.unreachable reason))
  have hsettled : (settleEach (c.unary.entries.map Prod.snd) (.lost reason)
      { c with closed := true }).closed = true := (settleEach_same _ _).2
  unfold close
  rw [if_neg (by rw [hopen]; simp)]
  obtain ⟨inbound, servings, hcancel⟩ := cancelAll_same _ _
  rw [hcancel]
  obtain ⟨hcalls, hunary, hclosed⟩ := hfail _ _
  exact ⟨hcalls, hunary, hclosed.trans hsettled⟩

theorem RegisteredBut.close (h : c.RegisteredBut ex) (reason : String) :
    (c.close reason).RegisteredBut ex := by
  by_cases hopen : c.closed = true
  · rw [HostConnection.close, if_pos hopen]
    exact h
  rw [Bool.not_eq_true] at hopen
  obtain ⟨hcalls, hunary, hclosed⟩ := close_same reason hopen
  have hget : ∀ j, (c.close reason).calls[j]? = (c.calls[j]?).map fun call =>
      if j ∈ c.unary.entries.map Prod.snd then
        { call with settled := call.settled ++ [.lost reason] } else call := by
    intro j
    rw [hcalls, calls_settleEach _ _ _ h.nodup]
  refine ⟨fun corrId id hin => ?_, fun id call hcall hsettled => ?_, fun id hid => ?_,
    fun call hmem => ?_, fun _ => hunary⟩
  · rw [hunary] at hin
    cases hin
  · rw [hget] at hcall
    obtain ⟨old, hold, rfl⟩ := Option.map_eq_some_iff.1 hcall
    by_cases hin : id ∈ c.unary.entries.map Prod.snd
    · rw [if_pos hin] at hsettled
      simp at hsettled
    · rw [if_neg hin] at hsettled
      rcases h.registered id old hold hsettled with hex | ⟨corrId, -, hcorrId⟩
      · exact .inl hex
      · exact absurd ((mem_pending_iff id).2 ⟨corrId, hcorrId⟩) hin
  · obtain ⟨corrId, hcall⟩ := h.exempt id hid
    refine ⟨corrId, ?_⟩
    have hnot : id ∉ c.unary.entries.map Prod.snd := by
      rintro hin
      obtain ⟨corrId', hcorrId'⟩ := (mem_pending_iff id).1 hin
      exact (h.pending corrId' id hcorrId').1 hid
    rw [hget, hcall, Option.map_some, if_neg hnot]
  · obtain ⟨j, hj⟩ := List.getElem?_of_mem hmem
    rw [hget] at hj
    obtain ⟨old, hold, rfl⟩ := Option.map_eq_some_iff.1 hj
    by_cases hin : j ∈ c.unary.entries.map Prod.snd
    · obtain ⟨corrId, hcorrId⟩ := (mem_pending_iff j).1 hin
      have hold' := (h.pending corrId j hcorrId).2
      rw [hold] at hold'
      rw [if_pos hin, Option.some.inj hold']
      exact Nat.le_refl 1
    · rw [if_neg hin]
      exact h.once old (List.mem_of_getElem? hold)

theorem Honest.close (h : c.Honest fair) (hregistered : c.RegisteredBut ex) (reason : String)
    (hfair : fair (.lost reason)) : (c.close reason).Honest fair := by
  by_cases hopen : c.closed = true
  · rw [HostConnection.close, if_pos hopen]
    exact h
  rw [Bool.not_eq_true] at hopen
  obtain ⟨hcalls, -, -⟩ := close_same reason hopen
  have hold : ∀ call ∈ (c.close reason).calls, call ∈ c.calls ∨
      call.written = true ∧ call.settled = [.lost reason] := by
    intro call hmem
    obtain ⟨j, hj⟩ := List.getElem?_of_mem hmem
    rw [hcalls, calls_settleEach _ _ _ hregistered.nodup] at hj
    obtain ⟨old, hold, rfl⟩ := Option.map_eq_some_iff.1 hj
    by_cases hin : j ∈ c.unary.entries.map Prod.snd
    · obtain ⟨corrId, hcorrId⟩ := (mem_pending_iff j).1 hin
      have hold' := (hregistered.pending corrId j hcorrId).2
      rw [hold] at hold'
      rw [if_pos hin, Option.some.inj hold']
      exact .inr ⟨rfl, rfl⟩
    · rw [if_neg hin]
      exact .inl (List.mem_of_getElem? hold)
  refine ⟨fun call hmem hwritten s hs => ?_, fun call hmem hunwritten => ?_⟩
  · rcases hold call hmem with hmem | ⟨-, hsettled⟩
    · exact h.written call hmem hwritten s hs
    · rw [hsettled, List.mem_singleton] at hs
      exact hs ▸ hfair
  · rcases hold call hmem with hmem | ⟨hwritten, -⟩
    · exact h.unwritten call hmem hunwritten
    · rw [hwritten] at hunwritten
      cases hunwritten

/-! ## The moves -/

/-- The calls are where they should be, but for `ex`. -/
def Settling (fair : Settlement V → Prop) (ex : Option Nat) (c : HostConnection V) : Prop :=
  c.RegisteredBut ex ∧ c.Honest fair

theorem Settling.of_same (h : c.Settling fair ex) (hcalls : d.calls = c.calls)
    (hunary : d.unary = c.unary) (hclosed : d.closed = c.closed) : d.Settling fair ex :=
  ⟨h.1.of_same hcalls hunary hclosed, h.2.of_same hcalls⟩

section

variable (hlost : ∀ reason, fair (.lost reason)) (h : c.Settling fair ex)
include hlost h

theorem Settling.close (reason : String) : (c.close reason).Settling fair ex :=
  ⟨h.1.close reason, h.2.close h.1 reason (hlost reason)⟩

theorem Settling.send (frame : Frame V) : (c.send link frame).1.Settling fair ex := by
  unfold HostConnection.send
  split
  · exact h
  split
  · exact h.of_same rfl rfl rfl
  · exact h.close hlost _
  · have htaken : Settling fair ex { c with out := c.out ++ [frame] } := h.of_same rfl rfl rfl
    exact htaken.close hlost _

theorem Settling.settleRetirement : (c.settleRetirement link).Settling fair ex := by
  have hsaid : (c.sayDone link).Settling fair ex := by
    unfold sayDone
    split
    · have hdone : Settling fair ex { c with sentDone := true } := h.of_same rfl rfl rfl
      exact hdone.send hlost _
    · exact h
  unfold HostConnection.settleRetirement
  split
  · dsimp only
    split
    · exact hsaid.close hlost _
    · exact hsaid
  · exact h

theorem Settling.unsent (k : Nat)
    (failure : Settlement V) : (c.unsent link k corrId failure).Settling fair ex := by
  have hforgotten : (c.forgetStream link corrId).1.Settling fair ex := by
    unfold forgetStream
    split
    · have herased : Settling fair ex { c with streams := c.streams.erase corrId } :=
        h.of_same rfl rfl rfl
      exact herased.settleRetirement hlost
    · exact h
  exact hforgotten.of_same rfl rfl rfl

theorem Settling.dispatchStream (payload : CallPayload V) (aborted : Option Thrown) :
    (c.dispatchStream link payload aborted).Settling fair ex := by
  have hregistered : c.registerStream.Settling fair ex := h.of_same rfl rfl rfl
  have hsent : (c.registerStream.send link (.call c.nextCorr true payload)).1.Settling fair ex :=
    hregistered.send hlost _
  unfold HostConnection.dispatchStream
  dsimp only
  split
  · exact hregistered.unsent hlost _ _
  split
  · rename_i d hd
    rw [hd] at hsent
    exact hsent.of_same rfl rfl rfl
  · rename_i d hd
    rw [hd] at hsent
    exact hsent.unsent hlost _ _

end

theorem Settling.register (h : c.Settling fair none) (hopen : c.closed = false)
    (hfree : c.unary.get corrId = none) :
    Settling fair none
      { c with
        calls := c.calls ++ [⟨some corrId, true, []⟩], unary := c.unary.set corrId c.calls.length } := by
  have hmem : ∀ call ∈ c.calls ++ [⟨some corrId, true, []⟩],
      call ∈ c.calls ∨ call = ⟨some corrId, true, []⟩ := by
    intro call hmem
    rw [List.mem_append, List.mem_singleton] at hmem
    exact hmem
  have hlast : (c.calls ++ [⟨some corrId, true, []⟩])[c.calls.length]? =
      some ⟨some corrId, true, []⟩ := List.getElem?_concat_length ..
  have hkeep : ∀ {id : Nat} {call : UnaryCall V}, c.calls[id]? = some call →
      (c.calls ++ [⟨some corrId, true, []⟩])[id]? = some call := by
    intro id call hget
    rw [List.getElem?_append_left (List.getElem?_eq_some_iff.1 hget).1]
    exact hget
  refine ⟨⟨fun corrId' id hin => ?_, fun id call hget hsettled => ?_, fun _ hnone => ?_,
    fun call hcall => ?_, fun hclosed => ?_⟩, fun call hcall hwritten s hs => ?_,
    fun call hcall hunwritten => ?_⟩
  · refine ⟨by simp, ?_⟩
    rw [JsMap.get_set] at hin
    split at hin
    · rename_i heq
      cases hin
      rw [heq]
      exact hlast
    · exact hkeep (h.1.pending corrId' id hin).2
  · rw [List.getElem?_append] at hget
    split at hget
    · rcases h.1.registered id call hget hsettled with hnone | ⟨corrId', hcorrId', hin⟩
      · cases hnone
      refine .inr ⟨corrId', hcorrId', ?_⟩
      rw [JsMap.get_set, if_neg]
      · exact hin
      · rintro rfl
        rw [hfree] at hin
        cases hin
    · have hlt := (List.getElem?_eq_some_iff.1 hget).1
      rw [List.length_singleton] at hlt
      have hid : id = c.calls.length := by omega
      rw [show id - c.calls.length = 0 by omega] at hget
      cases hget
      refine .inr ⟨corrId, rfl, ?_⟩
      rw [JsMap.get_set_self, hid]
  · cases hnone
  · rcases hmem call hcall with hold | rfl
    · exact h.1.once call hold
    · exact Nat.zero_le 1
  · rw [hopen] at hclosed
    cases hclosed
  · rcases hmem call hcall with hold | rfl
    · exact h.2.written call hold hwritten s hs
    · exact absurd hs List.not_mem_nil
  · rcases hmem call hcall with hold | rfl
    · exact h.2.unwritten call hold hunwritten
    · cases hunwritten

theorem Settling.refuse {corrId : Option Nat} (h : c.Settling fair none)
    (hrefused : (∃ reason, settlement = .unreachable reason) ∨
      ∃ reason, settlement = .aborted reason) :
    Settling fair none { c with calls := c.calls ++ [⟨corrId, false, [settlement]⟩] } := by
  have hmem : ∀ call ∈ c.calls ++ [⟨corrId, false, [settlement]⟩],
      call ∈ c.calls ∨ call = ⟨corrId, false, [settlement]⟩ := by
    intro call hmem
    rw [List.mem_append, List.mem_singleton] at hmem
    exact hmem
  refine ⟨⟨fun corrId' id hin => ?_, fun id call hget hsettled => ?_, fun _ hnone => ?_,
    fun call hcall => ?_, h.1.closed⟩, fun call hcall hwritten s hs => ?_,
    fun call hcall hunwritten => ?_⟩
  · have hget := (h.1.pending corrId' id hin).2
    refine ⟨by simp, ?_⟩
    rw [List.getElem?_append_left (List.getElem?_eq_some_iff.1 hget).1]
    exact hget
  · rw [List.getElem?_append] at hget
    split at hget
    · exact h.1.registered id call hget hsettled
    have hcall := List.mem_singleton.1 (List.mem_of_getElem? hget)
    rw [hcall] at hsettled
    cases hsettled
  · cases hnone
  · rcases hmem call hcall with hold | rfl
    · exact h.1.once call hold
    · exact Nat.le_refl 1
  · rcases hmem call hcall with hold | rfl
    · exact h.2.written call hold hwritten s hs
    · cases hwritten
  · rcases hmem call hcall with hold | rfl
    · exact h.2.unwritten call hold hunwritten
    · exact ⟨settlement, rfl, hrefused⟩

end

/-- Calls settle as anything but `unreachable`; the rest is not looked at. -/
def notUnreachable : Terms V where
  fair := fun settlement => ¬ settlement.isUnreachable
  fairStream := fun _ => True
  reason := fun _ => True
  freshStream := fun _ => True

theorem lost_fair (reason : String) : ¬ (Settlement.lost (V := V) reason).isUnreachable := by
  intro h
  cases h

section

variable {fair : Settlement V → Prop} {link : Link V} {c d : HostConnection V} {l : Label V}

/-- The calls are where they should be after every move. -/
theorem kept_settling (link : Link V) : Kept notUnreachable link fun call _ c =>
      c.Settling (fun settlement => ¬ settlement.isUnreachable) call where
  quiet h _ _ _ _ := h.of_same rfl rfl rfl
  send h _ := h.send lost_fair _
  settleRetirement h := h.settleRetirement lost_fair
  eraseCall h hget := ⟨h.1.eraseCall hget, h.2.of_same rfl⟩
  settle {stream c id settlement} h hfair := by
    obtain ⟨corrId, hget⟩ := h.1.exempt id rfl
    exact ⟨h.1.settle, h.2.settle hget rfl hfair⟩
  mine h hget hunary := h.1.mine hget hunary
  register h hopen _ hfree := h.register hopen hfree
  refuse h hrefused := h.refuse hrefused
  retire h _ _ _ := h.of_same rfl rfl rfl
  openStream h _ _ _ := h.dispatchStream lost_fair _ _
  refuseStream h _ := h.of_same rfl rfl rfl
  failUnsent h _ := h.of_same rfl rfl rfl
  eraseStream h _ _ := h.of_same rfl rfl rfl
  finish h _ _ _ := h.of_same rfl rfl rfl
  mild h _ _ := h.of_same rfl rfl rfl

/-- The steps after which a call still settles once, and as `unreachable` only unwritten: its id is
its own while it is in flight, the link does not close while it takes the CALL, and neither the
error the peer reports for it nor the caller's reason to abort it is itself `unreachable`. -/
def Safe (c : HostConnection V) : Label V → Prop
  | .op link (.dispatch payload _ during) =>
      c.FreshCall link payload ∧ ∀ reason ∈ during, ¬ (Settlement.aborted (V := V) reason).isUnreachable
  | .op _ (.abort _ reason) => ¬ (Settlement.aborted (V := V) reason).isUnreachable
  | .frame _ (.error corrId status wire) =>
      c.unary.has corrId = true → ¬ (Settlement.error (V := V) (errorOf status wire)).isUnreachable
  | _ => True

theorem Safe.admits {op : Op V} (h : c.Safe (.op link op)) : c.Admits notUnreachable link op := by
  cases op with
  | dispatch | abort => exact h
  | _ => trivial

theorem Safe.admitsFrame {frame : Frame V} (h : c.Safe (.frame link frame))
    (hframe : ∀ status message, frame ≠ .goaway status message) :
    c.AdmitsFrame notUnreachable frame := by
  cases frame with
  | goaway status message => exact absurd rfl (hframe status message)
  | reply corrId value => exact fun h => by cases h
  | error corrId status wire =>
    dsimp only [AdmitsFrame]
    cases hunary : c.unary.get corrId with
    | none => trivial
    | some id => exact h (JsMap.has_iff _ _ |>.2 ⟨id, hunary⟩)
  | _ => trivial

/-- The step lemma. -/
theorem Settling.step (h : c.Settling (fun settlement => ¬ settlement.isUnreachable) none)
    (hok : c.Safe l) (hstep : c.step l = some d) :
    d.Settling (fun settlement => ¬ settlement.isUnreachable) none := by
  cases l with
  | op link op => exact (kept_settling link).run h hok.admits hstep
  | frame link frame =>
    obtain ⟨-, rfl⟩ := guard_past_taken hstep
    by_cases hframe : ∃ status message, frame = .goaway status message
    · obtain ⟨status, message, rfl⟩ := hframe
      dsimp only [onFrame]
      split
      · have hdone : Settling (fun settlement => ¬ settlement.isUnreachable) none
            { c with peerDone := true } := h.of_same rfl rfl rfl
        exact ((kept_settling link).retired hdone trivial).settleRetirement lost_fair
      · exact h.close lost_fair _
    · refine (kept_settling link).onFrame h (hok.admitsFrame ?_)
      exact fun status message heq => hframe ⟨status, message, heq⟩
  | malformed link oversized message =>
    cases hstep
    exact (h.send lost_fair _).close lost_fair _
  | close reason =>
    cases hstep
    exact h.close lost_fair reason

theorem settling_initial {fair : Settlement V → Prop} (h : HostConnection.initial c) :
    c.Settling fair none := by
  obtain ⟨dialer, rfl⟩ := h
  refine ⟨⟨fun _ _ hnone => ?_, fun _ _ hnone => ?_, fun _ hnone => ?_, fun _ hmem => ?_, fun _ => rfl⟩,
    fun _ hmem => ?_, fun _ hmem => ?_⟩
  · cases hnone
  · cases hnone
  · cases hnone
  · exact absurd hmem List.not_mem_nil
  · exact absurd hmem List.not_mem_nil
  · exact absurd hmem List.not_mem_nil

/-! ## The property -/

/-- How call `id` has settled. -/
def settlements (c : HostConnection V) (id : Nat) : Option (List (Settlement V)) :=
  (c.calls[id]?).map (·.settled)

/-- Each call settles once, with what the peer or the caller has ended it with or with an error of
the connection, and as `unreachable` only if its CALL was never written. -/
structure SettlesOnce (c : HostConnection V) : Prop where
  once : ∀ call ∈ c.calls, call.settled.length ≤ 1
  /-- A call that has not settled waits under its id. -/
  waits : ∀ id call, c.calls[id]? = some call → call.settled = [] →
    c.closed = false ∧ ∃ corrId, call = ⟨some corrId, true, []⟩ ∧ c.unary.get corrId = some id
  unreachable : ∀ call ∈ c.calls, ∀ settlement ∈ call.settled, settlement.isUnreachable →
    call.written = false
  /-- A call that was not written has been refused as `unreachable`, or was aborted before. -/
  unwritten : ∀ call ∈ c.calls, call.written = false →
    ∃ settlement, call.settled = [settlement] ∧
      (settlement.isUnreachable ∨ ∃ reason, settlement = .aborted reason)
  /-- Whatever ends a call that waits settles it. -/
  reply : ∀ link corrId id value, c.unary.get corrId = some id →
    (c.onFrame link (.reply corrId value)).settlements id = some [.reply value]
  error : ∀ link corrId id status wire, c.unary.get corrId = some id →
    (c.onFrame link (.error corrId status wire)).settlements id = some [.error (errorOf status wire)]
  abort : ∀ link corrId id reason, c.unary.get corrId = some id →
    (c.abort link id corrId reason).settlements id = some [.aborted reason]
  close : ∀ corrId id reason, c.unary.get corrId = some id →
    (c.close reason).settlements id = some [.lost reason]

theorem RegisteredBut.settlements {id : Nat} {settlement : Settlement V}
    (h : c.RegisteredBut (some id)) : (c.settle id settlement).settlements id = some [settlement] := by
  obtain ⟨corrId, hget⟩ := h.exempt id rfl
  rw [HostConnection.settlements, calls_settle, hget, Option.map_some, if_pos rfl]
  rfl

/-- A call is forgotten, and is about to settle. -/
theorem Settling.forget {fair : Settlement V → Prop} {corrId id : Nat}
    (hlost : ∀ reason, fair (.lost reason)) (h : c.Settling fair none)
    (hget : c.unary.get corrId = some id) :
    Settling fair (some id)
      ({ c with unary := c.unary.erase corrId }.settleRetirement link) := by
  have herased : Settling fair (some id) { c with unary := c.unary.erase corrId } :=
    ⟨h.1.eraseCall hget, h.2.of_same rfl⟩
  exact herased.settleRetirement hlost

theorem Settling.settlesOnce
    (h : c.Settling (fun settlement => ¬ settlement.isUnreachable) none) : c.SettlesOnce where
  once := h.1.once
  waits id call hget hsettled := by
    rcases h.1.registered id call hget hsettled with hnone | ⟨corrId, -, hin⟩
    · cases hnone
    have hcall := (h.1.pending corrId id hin).2
    rw [hget] at hcall
    refine ⟨Bool.eq_false_iff.2 fun hclosed => ?_, corrId, Option.some.inj hcall, hin⟩
    rw [h.1.closed hclosed] at hin
    cases hin
  unreachable call hmem settlement hs hunreachable := by
    refine Bool.eq_false_iff.2 fun hwritten => ?_
    exact h.2.written call hmem hwritten settlement hs hunreachable
  unwritten call hmem hwritten := by
    obtain ⟨settlement, hsettled, ⟨reason, rfl⟩ | hreason⟩ := h.2.unwritten call hmem hwritten
    · exact ⟨_, hsettled, .inl rfl⟩
    · exact ⟨_, hsettled, .inr hreason⟩
  reply link corrId id value hget := by
    dsimp only [onFrame]
    unfold forgetUnary
    rw [hget]
    exact (h.forget lost_fair hget).1.settlements
  error link corrId id status wire hget := by
    dsimp only [onFrame]
    unfold forgetUnary
    rw [hget]
    exact (h.forget lost_fair hget).1.settlements
  abort link corrId id reason hget := by
    unfold HostConnection.abort forgetUnary
    rw [hget]
    exact ((h.forget lost_fair hget).send lost_fair _).1.settlements
  close corrId id reason hget := by
    have hopen : c.closed = false := Bool.eq_false_iff.2 fun hclosed => by
      rw [h.1.closed hclosed] at hget
      cases hget
    have hin := (mem_pending_iff id).2 ⟨corrId, hget⟩
    rw [HostConnection.settlements, (close_same reason hopen).1, calls_settleEach _ _ _ h.1.nodup,
      (h.1.pending corrId id hget).2, Option.map_some, if_pos hin]
    rfl

end

end HostConnection

/-- **A call settles once, and as `unreachable` only if it was never written**, in every run of
safe steps. -/
theorem settlesOnce_of_safe {V : Type} {c : HostConnection V}
    (h : (hostConnection V).Reach HostConnection.Safe c) : c.SettlesOnce := by
  have hsettling : c.Settling (fun settlement => ¬ settlement.isUnreachable) none := by
    refine h.invariant (fun _ => HostConnection.settling_initial) ?_
    intro s l t hs hok hstep
    exact hs.step hok hstep
  exact hsettling.settlesOnce

/-! ## A hop behind the hop -/

/-- A link that takes every frame. -/
def takes {V : Type} : Link V := fun _ => .taken

/-- A call without arguments. -/
def ask : CallPayload String := ⟨"Counter#read", "{}", "", none⟩

/-- Two calls are written; the first is answered, and the second is aborted by its caller. -/
def answered : List (HostConnection.Label String) :=
  [.op takes (.dispatch ask none none), .op takes (.dispatch ask none none),
    .frame takes (.reply 2 "1"), .op takes (.abort 1 (.other "late" none))]

/-- The peer ran the call, and failed on a hop of its own. -/
def failedBehind : HostWireError := toHostWireError (ActorUnreachableError "host-3")

instance (c : HostConnection String) (l : HostConnection.Label String) : Decidable (c.Safe l) := by
  unfold HostConnection.Safe
  split
  · exact inferInstanceAs (Decidable ((_ → _ → _ ∧ _) ∧ ∀ reason ∈ _, _))
  · infer_instance
  · infer_instance
  · infer_instance

theorem settlesOnce_answered :
    ∃ c : HostConnection String, (hostConnection String).Reach HostConnection.Safe c ∧
      c.calls.length = 2 ∧ c.SettlesOnce := by
  have hstart : (hostConnection String).Reach HostConnection.Safe { dialer := true } :=
    .start ⟨true, rfl⟩
  have hrun := hstart.exec_get answered (by decide)
  exact ⟨_, hrun, by decide, settlesOnce_of_safe hrun⟩

/-- A call that was written settles as `unreachable`. -/
theorem not_settlesOnce :
    ¬ ∀ c : HostConnection String, (hostConnection String).Reachable c → c.SettlesOnce := by
  intro h
  have hstart : (hostConnection String).Reachable { dialer := true } := .start ⟨true, rfl⟩
  have hrun := hstart.exec_get
    [.op takes (.dispatch ask none none), .frame takes (.error 2 503 (some failedBehind))] (by decide)
  have hwritten := (h _ hrun).unreachable _ List.mem_cons_self _ List.mem_cons_self rfl
  exact absurd hwritten (by decide)

end SigxActors.Cluster
