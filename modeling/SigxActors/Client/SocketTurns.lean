/-
  Client/SocketTurns.lean --- what a step does to one call.
-/
import SigxActors.Client.SocketCalls

set_option autoImplicit false

namespace SigxActors.Client

open SigxActors.Js

namespace SocketTransport

variable {K P V E : Type}

/-- How a stream that is pulled, woken or left comes to its end. -/
inductive Ending (l : Label K V E) (c : Nat) (r : SocketCaller V E) : SocketOutcome V E → Prop
  | failed (hl : l = .pull c ∨ l = .wake c) (failure : SocketFailure E)
      (hfailure : r.failure = some failure) : Ending l c r (.failed failure)
  | done (hl : l = .pull c ∨ l = .wake c) (hfailure : r.failure = none)
      (hended : r.ended = true) : Ending l c r .done
  | left (hl : l = .leave c) : Ending l c r .left

/-- What step `l` makes of caller `c`. -/
inductive Turn (s : SocketTransport K P V E) (l : Label K V E) (c : Nat)
    (r : SocketCaller V E) : SocketCaller V E → Prop
  | stays : Turn s l c r r
  /-- Its signal is aborted before it is pending. -/
  | flagged (hl : l = .abort c) (haborted : r.aborted = false)
      (hstage : r.stage = .idle ∨ ∃ a, r.stage = .readying a) :
      Turn s l c r { r with aborted := true }
  | begins (hl : l = .pull c) (hstage : r.stage = .idle) (haborted : r.aborted = false)
      (a : Await) : Turn s l c r { r with stage := .readying a }
  | declined (hl : l = .pull c) (hstage : r.stage = .idle) (haborted : r.aborted = true) :
      Turn s l c r (r.settle (.failed .aborted))
  | dropped (hl : l = .leave c) (hstage : r.stage = .idle) : Turn s l c r (r.settle .left)
  | rejected (hl : l = .resume c) (a : Await) (hstage : r.stage = .readying a)
      (failure : SocketFailure E) (hresult : s.result E a = some (some failure)) :
      Turn s l c r (r.settle (.failed failure))
  | sends (hl : l = .resume c) (a : Await) (hstage : r.stage = .readying a)
      (hresult : s.result E a = some none) (honeWay : r.oneWay = true) :
      Turn s l c r ((r.post s.link).settle .sent)
  | registers (hl : l = .resume c) (a : Await) (hstage : r.stage = .readying a)
      (hresult : s.result E a = some none) (honeWay : r.oneWay = false) :
      Turn s l c r
        ({ r with stage := .pending s.nextId, waiting := r.stream }.post s.link)
  /-- A stream yields, or waits. -/
  | turns (i : Nat) (hstage : r.stage = .pending i) (queue yielded : List V) (waiting : Bool) :
      Turn s l c r { r with queue := queue, yielded := yielded, waiting := waiting }
  | ends (i : Nat) (hstage : r.stage = .pending i) (hstream : r.stream = true)
      (outcome : SocketOutcome V E) (hending : Ending l c r outcome) :
      Turn s l c r
        ((if (s.inFlight.get i).isSome && !r.ended then r.cancel s.link else r).settle outcome)
  | aborts (hl : l = .abort c) (i : Nat) (hstage : r.stage = .pending i)
      (haborted : r.aborted = false) (hstream : r.stream = false) :
      Turn s l c r
        ((if (s.inFlight.get i).isSome then ({ r with aborted := true }).cancel s.link
          else { r with aborted := true }).settle (.failed .aborted))
  | told (hl : l = .abort c) (i : Nat) (hstage : r.stage = .pending i)
      (haborted : r.aborted = false) (hstream : r.stream = true) :
      Turn s l c r { r with aborted := true, failure := some .aborted }
  | hears (i : Nat) (reply : SocketReply V E) (hl : l = .message i reply)
      (hheld : s.inFlight.get i = some c) : Turn s l c r (r.frame reply)
  | fails (hl : l = .close ∨ ∃ d, l = .closes d ∧ s.link = some d) (failure : SocketFailure E)
      (i : Nat) (hheld : s.inFlight.get i = some c) : Turn s l c r (r.fail failure)

/-- What a new caller is. -/
inductive Made (l : Label K V E) : SocketCaller V E → Prop
  | aborted (oneWay : Bool) (hl : l = .call oneWay true) :
      Made l { stream := false, oneWay := oneWay, aborted := true, stage := .over,
               outcomes := [.failed .aborted] }
  | call (oneWay : Bool) (hl : l = .call oneWay false) (a : Await) :
      Made l { stream := false, oneWay := oneWay, stage := .readying a }
  | stream (aborted : Bool) (hl : l = .stream aborted) :
      Made l { stream := true, aborted := aborted, stage := .idle }

variable {s t : SocketTransport K P V E} {c : Nat} {r : SocketCaller V E} {l : Label K V E}

/-- Every caller after a step has had its turn, or is new. -/
structure Turned (s : SocketTransport K P V E) (l : Label K V E) (t : SocketTransport K P V E) :
    Prop where
  each : ∀ (c : Nat) r', t.callers[c]? = some r' →
    (∃ r, s.callers[c]? = some r ∧ Turn s l c r r') ∨ c = s.callers.length ∧ Made l r'
  length : s.callers.length ≤ t.callers.length

theorem turned_of_callers (h : t.callers = s.callers) : Turned s l t :=
  ⟨fun _ r' hget => .inl ⟨r', h ▸ hget, .stays⟩, h ▸ Nat.le_refl _⟩

theorem turned_of_modify {f : SocketCaller V E → SocketCaller V E}
    (h : t.callers = s.callers.modify c f) (hget : s.callers[c]? = some r)
    (hturn : Turn s l c r (f r)) : Turned s l t := by
  refine ⟨fun c' r' hget' => ?_, Nat.le_of_eq (h ▸ (List.length_modify ..).symm)⟩
  rw [h] at hget'
  obtain ⟨r₀, rfl, hbefore, rfl⟩ | ⟨-, hbefore⟩ := of_modify_get hget'
  · cases hget.symm.trans hbefore
    exact .inl ⟨r, hget, hturn⟩
  · exact .inl ⟨r', hbefore, .stays⟩

theorem turned_of_append (h : t.callers = s.callers ++ [r]) (hmade : Made l r) : Turned s l t := by
  have hlength : s.callers.length ≤ t.callers.length := by
    rw [h, List.length_append]
    exact Nat.le_add_right ..
  refine ⟨fun c' r' hget' => ?_, hlength⟩
  rw [h] at hget'
  obtain ⟨rfl, rfl⟩ | ⟨-, hbefore⟩ := of_append_get hget'
  · exact .inr ⟨rfl, hmade⟩
  · exact .inl ⟨r', hbefore, .stays⟩

theorem turned_leave {i : Nat} (hget : s.callers[c]? = some r) (hstage : r.stage = .pending i)
    (hstream : r.stream = true) {outcome : SocketOutcome V E} (hending : Ending l c r outcome) :
    Turned s l (s.leave c i r outcome) := by
  unfold leave
  rw [drop_modifyCaller]
  exact turned_of_modify rfl hget (.ends i hstage hstream outcome hending)

theorem turned_goOn {i : Nat} (hget : s.callers[c]? = some r) (hstage : r.stage = .pending i)
    (hstream : r.stream = true) (hl : l = .pull c ∨ l = .wake c) : Turned s l (s.goOn c i r) := by
  unfold goOn
  split
  · exact turned_of_modify rfl hget (.turns i hstage _ _ _)
  split
  · rename_i failure hfailure
    exact turned_leave hget hstage hstream (.failed hl failure hfailure)
  · rename_i hfailure
    split
    · rename_i hended
      exact turned_leave hget hstage hstream (.done hl hfailure hended)
    · exact turned_of_modify rfl hget (.turns i hstage _ _ _)

theorem turned_failAll (h : s.Sound) (hcallers : t.callers = s.callers)
    (hinFlight : t.inFlight = s.inFlight)
    (hl : l = .close ∨ ∃ d, l = .closes d ∧ s.link = some d) (failure : SocketFailure E) :
    Turned s l (t.failAll failure) := by
  have hnodup : (t.inFlight.entries.map Prod.snd).Nodup := hinFlight ▸ h.nodup
  obtain ⟨-, hget⟩ := foldl_fail failure hnodup { t with inFlight := .empty }
  have hlength : s.callers.length ≤ (t.failAll failure).callers.length := by
    have hnone : (t.failAll failure).callers[(t.failAll failure).callers.length]? = none :=
      List.getElem?_eq_none (Nat.le_refl _)
    have hmap := (hget _).symm.trans hnone
    rw [Option.map_eq_none_iff] at hmap
    rw [hcallers, List.getElem?_eq_none_iff] at hmap
    exact hmap
  refine ⟨fun c r' hget' => ?_, hlength⟩
  obtain ⟨r, hbefore, rfl⟩ := Option.map_eq_some_iff.1 ((hget c).symm.trans hget')
  rw [hcallers] at hbefore
  refine .inl ⟨r, hbefore, ?_⟩
  split
  · rename_i hmem
    obtain ⟨q, hq, rfl⟩ := List.mem_map.1 hmem
    rw [hinFlight] at hq
    exact .fails hl failure q.1 (JsMap.get_of_mem_entries hq)
  · exact .stays

theorem Turned.of_callers {u : SocketTransport K P V E} (h : Turned s l t)
    (hcallers : u.callers = t.callers) : Turned s l u :=
  ⟨fun c r' hget => h.each c r' (hcallers ▸ hget), hcallers ▸ h.length⟩

variable [DecidableEq K] [DecidableEq P] {fingerprint : V → Option P} {throws : Nat → Bool}

theorem turned_step (h : s.Sound)
    (hstep : SocketTransport.step fingerprint throws s l = some t) : Turned s l t := by
  cases l with simp only [SocketTransport.step] at hstep
  | call oneWay aborted =>
    cases hstep
    unfold SocketTransport.call
    split
    · rename_i haborted
      exact turned_of_append rfl (.aborted oneWay (haborted ▸ rfl))
    · rename_i haborted
      obtain rfl := Bool.eq_false_iff.2 haborted
      exact turned_of_append rfl (.call oneWay rfl _)
  | stream aborted =>
    cases hstep
    exact turned_of_append rfl (.stream aborted rfl)
  | pull c =>
    split at hstep
    · cases hstep
    rename_i r hget
    split at hstep
    · rename_i hstage
      split at hstep <;> cases hstep
      · rename_i haborted
        exact turned_of_modify rfl hget (.declined rfl hstage haborted)
      · rename_i haborted
        exact turned_of_modify rfl hget
          (.begins rfl hstage (Bool.eq_false_iff.2 haborted) _)
    · rename_i i hstage
      obtain ⟨hstream, rfl⟩ := guard_taken hstep
      exact turned_goOn hget hstage ((Bool.and_eq_true _ _).mp hstream).1 (.inl rfl)
    · cases hstep
    · cases hstep
  | leave c =>
    split at hstep
    · cases hstep
    rename_i r hget
    split at hstep
    · rename_i hstage
      cases hstep
      exact turned_of_modify rfl hget (.dropped rfl hstage)
    · rename_i i hstage
      obtain ⟨hstream, rfl⟩ := guard_taken hstep
      exact turned_leave hget hstage ((Bool.and_eq_true _ _).mp hstream).1 (.left rfl)
    · cases hstep
    · cases hstep
  | resume c =>
    split at hstep
    · cases hstep
    rename_i r hget
    split at hstep
    · rename_i a hstage
      split at hstep
      · cases hstep
      · rename_i failure hresult
        cases hstep
        exact turned_of_modify rfl hget (.rejected rfl a hstage failure hresult)
      · rename_i hresult
        cases hstep
        unfold SocketTransport.register
        split
        · rename_i honeWay
          exact turned_of_modify rfl hget (.sends rfl a hstage hresult honeWay)
        · rename_i honeWay
          exact turned_of_modify rfl hget
            (.registers rfl a hstage hresult (Bool.eq_false_iff.2 honeWay))
    · cases hstep
    · cases hstep
    · cases hstep
  | wake c =>
    split at hstep
    · cases hstep
    rename_i r hget
    split at hstep
    · rename_i i hstage
      obtain ⟨htold, hstep⟩ := guard_passed hstep
      rw [Bool.and_eq_true, Bool.and_eq_true] at htold
      cases hstep
      exact turned_goOn hget hstage htold.1.1 (.inr rfl)
    · cases hstep
    · cases hstep
    · cases hstep
  | abort c =>
    split at hstep
    · cases hstep
    rename_i r hget
    obtain ⟨haborted, hstep⟩ := guard_past hstep
    have hfresh := Bool.eq_false_iff.2 haborted
    split at hstep
    · rename_i i hstage
      cases hstep
      unfold onAbort
      split
      · rename_i hstream
        rw [modifyCaller_modifyCaller]
        refine turned_of_modify rfl hget ?_
        have htold : ({ r with aborted := true } : SocketCaller V E).fail .aborted =
            { r with aborted := true, failure := some .aborted } := by
          unfold SocketCaller.fail
          rw [if_pos hstream]
        rw [htold]
        exact .told rfl i hstage hfresh hstream
      · rename_i hstream
        rw [drop_modifyCaller]
        have hmodify : ((s.modifyCaller c fun r => { r with aborted := true }).callers.modify c
            fun r => (if (s.inFlight.get i).isSome && true then r.cancel s.link else r).settle
              (.failed .aborted)) = s.callers.modify c fun r =>
            (if (s.inFlight.get i).isSome && true then
              ({ r with aborted := true } : SocketCaller V E).cancel s.link
            else { r with aborted := true }).settle (.failed .aborted) := modify_modify ..
        refine turned_of_modify hmodify hget ?_
        rw [Bool.and_true]
        exact .aborts rfl i hstage hfresh (Bool.eq_false_iff.2 hstream)
    · rename_i hstage
      cases hstep
      exact turned_of_modify rfl hget (.flagged rfl hfresh (.inl hstage))
    · rename_i a hstage
      cases hstep
      exact turned_of_modify rfl hget (.flagged rfl hfresh (.inr ⟨a, hstage⟩))
    · cases hstep
  | message i reply =>
    split at hstep
    · rename_i c hheld
      obtain ⟨r, hget, -⟩ := h.entered i c hheld
      cases hstep
      unfold SocketTransport.frame
      split <;> exact turned_of_modify rfl hget (.hears i _ rfl hheld)
    · exact turned_of_callers (untouched_handle hstep).callers
  | fires d =>
    split at hstep <;> cases hstep
    exact turned_of_callers rfl
  | opens d =>
    split at hstep
    · split at hstep <;> cases hstep
      · exact turned_of_callers (untouched_reseed throws _).callers
      · exact turned_of_callers rfl
    · cases hstep
  | closes d =>
    split at hstep
    · cases hstep
      exact turned_of_callers rfl
    · split at hstep <;> cases hstep
      · rename_i hlink
        have hfail : Turned s (.closes d)
            ({ s with link := none, opening := none }.failAll .lost) :=
          turned_failAll (t := { s with link := none, opening := none }) h rfl rfl
            (.inr ⟨d, rfl, hlink⟩) .lost
        unfold SocketTransport.dropLink
        dsimp only
        split
        · exact hfail.of_callers (untouched_redial throws _).callers
        · exact hfail
      · exact turned_of_callers rfl
    · cases hstep
  | loop n =>
    split at hstep
    · split at hstep <;> cases hstep
      exact turned_of_callers (untouched_redial throws s).callers
    · cases hstep
  | subscribe id onError =>
    cases hstep
    exact turned_of_callers (untouched_subscribe throws s id onError).callers
  | dispose i =>
    cases hstep
    exact turned_of_callers (untouched_dispose throws s i).callers
  | notify | replay =>
    split at hstep
    · obtain ⟨set, -, rfl⟩ := Option.map_eq_some_iff.1 hstep
      exact turned_of_callers rfl
    · cases hstep
  | close =>
    cases hstep
    unfold SocketTransport.close
    split
    · exact turned_of_callers rfl
    exact turned_failAll
      (t := { s with closed := true, link := none, opening := none, live := none })
      h rfl rfl (.inl rfl) .closed

end SocketTransport

end SigxActors.Client
