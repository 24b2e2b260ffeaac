/-
  Cluster/Retirement.lean --- two ends of one connection, either of which may retire it.

  Source: `retire`, `#settleRetirement` and the GOAWAY case of
  `packages/actors/src/cluster/connection.ts`.

  The two ends run over FIFO links that take every frame, and whose frames are
  delivered in order while the receiving end is open.  An end that closes destroys
  its socket: the other may then see its own link close, whatever was still on the
  way to it.

  An end says that it is done once nothing of its own is pending, and it takes no
  call from then on.  So when it has also heard the other say so, nothing is
  pending on either side.
-/
import SigxActors.Cluster.Settlement

set_option autoImplicit false

namespace SigxActors.Cluster

open SigxActors.Js

/-! ## The two ends -/

/-- A connection between two hosts. -/
structure Pair (V : Type) where
  left : HostConnection V
  right : HostConnection V

inductive Side where
  | left
  | right
  deriving DecidableEq, Repr

namespace Pair

variable {V : Type}

/-- The end on a side. -/
def at_ (p : Pair V) : Side → HostConnection V
  | .left => p.left
  | .right => p.right

/-- The end it is connected to. -/
def peer (p : Pair V) : Side → HostConnection V
  | .left => p.right
  | .right => p.left

/-- The two ends become `c` and `peer`. -/
def put (side : Side) (c peer : HostConnection V) : Pair V :=
  match side with
  | .left => ⟨c, peer⟩
  | .right => ⟨peer, c⟩

inductive Label (V : Type) where
  | op (side : Side) (op : HostConnection.Op V)
  /-- The next frame on the way to this side arrives. -/
  | deliver (side : Side)
  /-- The other side has closed, and this one notices. -/
  | hangUp (side : Side)

/-- One step. -/
def step (p : Pair V) : Label V → Option (Pair V)
  | .op side op => ((p.at_ side).run takes op).map fun c => put side c (p.peer side)
  | .deliver side =>
      match (p.peer side).out with
      | frame :: rest =>
          if (p.at_ side).closed then none
          else some (put side ((p.at_ side).onFrame takes frame) { p.peer side with out := rest })
      | [] => none
  | .hangUp side =>
      if (p.peer side).closed then some (put side ((p.at_ side).close "link closed") (p.peer side))
      else none

/-- The socket has just been opened, from the left. -/
def initial (p : Pair V) : Prop := p = ⟨{ dialer := true }, { dialer := false }⟩

end Pair

/-- The machine of one connection between two hosts. -/
def hostPair (V : Type) : Machine.System (Pair V) (Pair.Label V) where
  initial := Pair.initial
  step := Pair.step

/-! ## The terms -/

/-- It ended with what the peer has answered, or with the caller's abort. -/
def Settlement.answered {V : Type} : Settlement V → Bool
  | .reply _ | .error _ | .aborted _ => true
  | .unreachable _ | .lost _ => false

namespace HostConnection

variable {V : Type}

/-- The next id is not that of a stream whose consumer may still forget it. -/
def FreshStream (c : HostConnection V) : Prop :=
  ∀ consumer ∈ c.consumers, consumer.live = true → consumer.corrId ≠ c.nextCorr

def gracefully : Terms V where
  fair := fun settlement => settlement.answered = true
  fairStream := fun settlement => settlement.answered = true
  reason := fun reason => reason ≠ ""
  freshStream := FreshStream

/-! ## What an end keeps -/

/-- The table holds the streams that go on, but for that of consumer `ex`. -/
structure Streaming (ex : Option Nat) (c : HostConnection V) : Prop where
  unique : ∀ (k k' : Nat) (x x' : Consumer V), c.consumers[k]? = some x →
    c.consumers[k']? = some x' → x.live = true → x'.live = true → x.corrId = x'.corrId → k = k'
  table : ∀ corrId k, c.streams.get corrId = some k →
    ex ≠ some k ∧ ∃ x, c.consumers[k]? = some x ∧ x.corrId = corrId ∧ x.listening = true
  present : ∀ (k : Nat) (x : Consumer V), c.consumers[k]? = some x → x.written = true →
    x.done = false → x.over_ = false → ex = some k ∨ c.streams.get x.corrId = some k
  kept : ∀ x ∈ c.consumers, x.written = true → ∀ failure, x.failure = some failure →
    failure.answered = true

/-- An end of a connection, but for a call and a stream that are about to settle. -/
structure Ending (call stream : Option Nat) (c : HostConnection V) : Prop where
  settling : c.Settling (fun settlement => settlement.answered = true) call
  streaming : c.Streaming stream
  /-- It has said that it is done: nothing is pending, and nothing will be. -/
  drained : c.sentDone = true →
    c.retiring ≠ none ∧ c.unary.entries = [] ∧ c.streams.entries = []
  reason : c.retiring ≠ some ""
  closed : c.closed = true → c.sentDone = true
  goaway : ∀ status message, .goaway status message ∈ c.out → status = 0 ∧ c.sentDone = true

section

variable {c d : HostConnection V} {call stream : Option Nat}

theorem Streaming.of_same (h : c.Streaming stream) (hconsumers : d.consumers = c.consumers)
    (hstreams : d.streams = c.streams) : d.Streaming stream := by
  refine ⟨?_, ?_, ?_, ?_⟩
  · rw [hconsumers]
    exact h.unique
  · rw [hconsumers, hstreams]
    exact h.table
  · rw [hconsumers, hstreams]
    exact h.present
  · rw [hconsumers]
    exact h.kept

variable {k : Nat} {f : Consumer V → Consumer V} {x y : Consumer V}

/-- What `modify` leaves at each place. -/
theorem get_modifyConsumer {j : Nat} (h : (c.modifyConsumer k f).consumers[j]? = some x) :
    ∃ old, c.consumers[j]? = some old ∧ x = if k = j then f old else old := by
  have hget : (c.consumers.modify k f)[j]? = some x := h
  rw [List.getElem?_modify] at hget
  obtain ⟨old, hold, hx⟩ := Option.map_eq_some_iff.1 hget
  exact ⟨old, hold, hx.symm⟩

theorem get_modifyConsumer_of {j : Nat} {old : Consumer V} (h : c.consumers[j]? = some old) :
    (c.modifyConsumer k f).consumers[j]? = some (if k = j then f old else old) := by
  show (c.consumers.modify k f)[j]? = _
  rw [List.getElem?_modify, h, Option.map_eq_map, Option.map_some]

/-- A consumer changes: its stream has left the table, or it keeps listening. -/
theorem Streaming.modify {terms : Terms V} (h : c.Streaming stream)
    (hstream : stream = none ∨ stream = some k) (hmild : Mild terms f)
    (hfailure : ∀ x ∈ c.consumers[k]?, x.written = true → ∀ failure,
      (f x).failure = some failure → x.failure = some failure ∨ failure.answered = true)
    (htable : ∀ corrId, c.streams.get corrId = some k →
      stream = some k ∨ ∀ consumer, (f consumer).listening = consumer.listening)
    (hpresent : stream = some k → Finishing f) : (c.modifyConsumer k f).Streaming none := by
  have hlive : ∀ x, (f x).live = true → x.live = true := by
    intro x hf
    rw [Consumer.live, Bool.or_eq_true, Bool.not_eq_true'] at hf ⊢
    rcases hf with hf | hf
    · exact .inl (Bool.eq_false_iff.2 fun hx => by rw [hmild.over_ x hx] at hf; cases hf)
    · exact .inr (hmild.listening x hf)
  have hold : ∀ {j : Nat} {x : Consumer V}, (c.modifyConsumer k f).consumers[j]? = some x →
      ∃ old, c.consumers[j]? = some old ∧ x.corrId = old.corrId ∧ x.written = old.written ∧
        (x.live = true → old.live = true) ∧ (old.over_ = true → x.over_ = true) ∧
        (old.done = true → x.done = true) ∧ (k = j ∧ x = f old ∨ k ≠ j ∧ x = old) := by
    intro j x hget
    obtain ⟨old, hold, rfl⟩ := get_modifyConsumer hget
    refine ⟨old, hold, ?_⟩
    by_cases hk : k = j
    · rw [if_pos hk]
      exact ⟨hmild.corrId old, hmild.written old, hlive old, hmild.over_ old, hmild.done old,
        .inl ⟨hk, rfl⟩⟩
    · rw [if_neg hk]
      exact ⟨rfl, rfl, id, id, id, .inr ⟨hk, rfl⟩⟩
  refine ⟨fun j j' x x' hx hx' hxlive hx'live hcorrId => ?_, fun corrId j hin => ?_,
    fun j x hx hwritten hdone hover => ?_, fun x hmem hwritten failure hsome => ?_⟩
  · obtain ⟨y, hy, hycorrId, -, hylive, -⟩ := hold hx
    obtain ⟨y', hy', hy'corrId, -, hy'live, -⟩ := hold hx'
    exact h.unique j j' y y' hy hy' (hylive hxlive) (hy'live hx'live)
      (hycorrId.symm.trans (hcorrId.trans hy'corrId))
  · obtain ⟨hne, old, hget, hcorrId, hlistening⟩ := h.table corrId j hin
    refine ⟨by simp, _, get_modifyConsumer_of hget, ?_⟩
    by_cases hk : k = j
    · subst hk
      rw [if_pos rfl]
      refine ⟨(hmild.corrId old).trans hcorrId, ?_⟩
      rcases htable corrId hin with heq | hsame
      · exact absurd heq hne
      · exact (hsame old).trans hlistening
    · rw [if_neg hk]
      exact ⟨hcorrId, hlistening⟩
  · obtain ⟨old, hget, hcorrId, hwritten', -, hover', hdone', hcase⟩ := hold hx
    rw [hwritten'] at hwritten
    have hnotdone : old.done = false := Bool.eq_false_iff.2 fun heq => by
      rw [hdone' heq] at hdone
      cases hdone
    have hnotover : old.over_ = false := Bool.eq_false_iff.2 fun heq => by
      rw [hover' heq] at hover
      cases hover
    rcases h.present j old hget hwritten hnotdone hnotover with hex | hin
    · rcases hcase with ⟨rfl, rfl⟩ | ⟨hne, rfl⟩
      · rcases hpresent hex old with hf | hf
        · rw [hf] at hdone
          cases hdone
        · rw [hf] at hover
          cases hover
      · rcases hstream with hnone | hsome
        · rw [hnone] at hex
          cases hex
        · exact absurd (Option.some.inj (hsome.symm.trans hex)) hne
    · rw [hcorrId]
      exact .inr hin
  · obtain ⟨j, hj⟩ := List.getElem?_of_mem hmem
    obtain ⟨old, hget, -, hwritten', -, -, -, hcase⟩ := hold hj
    rw [hwritten'] at hwritten
    have hkept := h.kept old (List.mem_of_getElem? hget) hwritten
    rcases hcase with ⟨rfl, rfl⟩ | ⟨-, rfl⟩
    · exact (hfailure old hget hwritten failure hsome).elim (hkept failure) id
    · exact hkept failure hsome

/-- A stream leaves the table. -/
theorem Streaming.erase (h : c.Streaming none) {consumer : Consumer V}
    (hget : c.consumers[k]? = some consumer) (hlive : consumer.live = true) :
    Streaming (some k) { c with streams := c.streams.erase consumer.corrId } := by
  refine ⟨h.unique, fun corrId j hin => ?_, fun j x hx hwritten hdone hover => ?_, h.kept⟩
  · rw [JsMap.get_erase] at hin
    obtain ⟨hne, hin⟩ := guard_past hin
    obtain ⟨-, y, hy, hcorrId, hlistening⟩ := h.table corrId j hin
    refine ⟨fun heq => hne ?_, y, hy, hcorrId, hlistening⟩
    rw [← Option.some.inj heq, hget] at hy
    rw [← hcorrId, Option.some.inj hy]
  · rcases h.present j x hx hwritten hdone hover with hnone | hin
    · cases hnone
    by_cases hcorrId : x.corrId = consumer.corrId
    · have hxlive : x.live = true := by
        rw [Consumer.live, hover]
        rfl
      exact .inl (congrArg some (h.unique k j consumer x hget hx hlive hxlive hcorrId.symm))
    · refine .inr ?_
      rw [JsMap.get_erase, if_neg hcorrId]
      exact hin

/-- What a consumer list and a fresh one come to. -/
theorem get_concat {l : List (Consumer V)} (h : (l ++ [y])[k]? = some x) :
    l[k]? = some x ∨ k = l.length ∧ x = y := by
  rw [List.getElem?_append] at h
  split at h
  · exact .inl h
  have hlt := (List.getElem?_eq_some_iff.1 h).1
  rw [List.length_singleton] at hlt
  refine .inr ⟨by omega, ?_⟩
  exact List.mem_singleton.1 (List.mem_of_getElem? h)

section

variable (h : c.Streaming none) (hfresh : c.FreshStream)
include h hfresh

/-- A consumer joins whose id no other uses. -/
theorem Streaming.unique_concat (hy : y.corrId = c.nextCorr) : ∀ (k k' : Nat) (x x' : Consumer V),
      (c.consumers ++ [y])[k]? = some x → (c.consumers ++ [y])[k']? = some x' → x.live = true →
        x'.live = true → x.corrId = x'.corrId → k = k' := by
  intro k k' x x' hx hx' hlive hlive' hcorrId
  rcases get_concat hx with hold | ⟨hk, hxy⟩
  · rcases get_concat hx' with hold' | ⟨hk', hxy'⟩
    · exact h.unique k k' x x' hold hold' hlive hlive' hcorrId
    · rw [hxy', hy] at hcorrId
      exact absurd hcorrId (hfresh x (List.mem_of_getElem? hold) hlive)
  · rcases get_concat hx' with hold' | ⟨hk', hxy'⟩
    · rw [hxy, hy] at hcorrId
      exact absurd hcorrId.symm (hfresh x' (List.mem_of_getElem? hold') hlive')
    · rw [hk, hk']

/-- A stream that is refused was never there. -/
theorem Streaming.refuse :
    Streaming (some c.consumers.length)
      { c with
        streams := (c.streams.set c.nextCorr c.consumers.length).erase c.nextCorr
        consumers := c.consumers ++ [{ corrId := c.nextCorr }] } := by
  have herased : ∀ corrId, corrId ≠ c.nextCorr →
      ((c.streams.set c.nextCorr c.consumers.length).erase c.nextCorr).get corrId =
        c.streams.get corrId := by
    intro corrId hne
    rw [JsMap.get_erase, if_neg hne, JsMap.get_set, if_neg hne]
  refine ⟨h.unique_concat hfresh rfl, fun corrId k hin => ?_,
    fun k x hx hwritten hdone hover => ?_, fun x hmem hwritten failure hfailure => ?_⟩
  · by_cases hne : corrId = c.nextCorr
    · rw [hne, JsMap.get_erase_self] at hin
      cases hin
    rw [herased corrId hne] at hin
    obtain ⟨-, x, hget, hcorrId, hlistening⟩ := h.table corrId k hin
    have hlt := (List.getElem?_eq_some_iff.1 hget).1
    refine ⟨fun heq => ?_, x, ?_, hcorrId, hlistening⟩
    · rw [← Option.some.inj heq] at hlt
      exact absurd hlt (Nat.lt_irrefl _)
    · rw [List.getElem?_append_left hlt]
      exact hget
  · rcases get_concat hx with hx | ⟨rfl, rfl⟩
    · rcases h.present k x hx hwritten hdone hover with hnone | hin
      · cases hnone
      refine .inr ?_
      have hlive : x.live = true := by
        rw [Consumer.live, hover]
        rfl
      rw [herased x.corrId (hfresh x (List.mem_of_getElem? hx) hlive)]
      exact hin
    · exact .inl rfl
  · rw [List.mem_append, List.mem_singleton] at hmem
    rcases hmem with hmem | rfl
    · exact h.kept x hmem hwritten failure hfailure
    · cases hwritten

/-- A stream is written under a fresh id. -/
theorem Streaming.open_
    (hcorrId : y.corrId = c.nextCorr) (hlistening : y.listening = true)
    (hfailure : y.failure = none) :
    Streaming none
      { c with
        streams := c.streams.set c.nextCorr c.consumers.length
        consumers := c.consumers ++ [y] } := by
  refine ⟨h.unique_concat hfresh hcorrId, fun corrId k hin => ?_,
    fun k x hx hwritten hdone hover => ?_, fun x hmem hwritten failure hsome => ?_⟩
  · refine ⟨by simp, ?_⟩
    rw [JsMap.get_set] at hin
    split at hin
    · rename_i heq
      cases hin
      exact ⟨y, List.getElem?_concat_length .., hcorrId.trans heq.symm, hlistening⟩
    · obtain ⟨-, x, hget, hx⟩ := h.table corrId k hin
      refine ⟨x, ?_, hx⟩
      rw [List.getElem?_append_left (List.getElem?_eq_some_iff.1 hget).1]
      exact hget
  · refine .inr ?_
    rcases get_concat hx with hx | ⟨rfl, rfl⟩
    · rcases h.present k x hx hwritten hdone hover with hnone | hin
      · cases hnone
      have hlive : x.live = true := by
        rw [Consumer.live, hover]
        rfl
      rw [JsMap.get_set, if_neg (hfresh x (List.mem_of_getElem? hx) hlive)]
      exact hin
    · rw [hcorrId]
      exact JsMap.get_set_self _ _ _
  · rw [List.mem_append, List.mem_singleton] at hmem
    rcases hmem with hmem | rfl
    · exact h.kept x hmem hwritten failure hsome
    · rw [hfailure] at hsome
      cases hsome

end

/-! ## The moves of an end -/

/-- Closing an end with nothing pending only closes it. -/
theorem close_drained (reason : String) (hopen : c.closed = false) (hunary : c.unary.entries = [])
    (hstreams : c.streams.entries = []) : ∃ inbound servings, c.close reason =
      { c with
        closed := true, unary := .empty, streams := .empty, inbound := inbound
        servings := servings } := by
  unfold HostConnection.close
  rw [if_neg (by rw [hopen]; simp)]
  simp only [hunary, hstreams, List.map_nil, List.foldl_nil]
  obtain ⟨inbound, servings, heq⟩ := cancelAll_same c.inbound.keys
    { c with closed := true, unary := .empty, streams := .empty }
  exact ⟨inbound, servings, heq⟩

theorem send_takes (frame : Frame V) :
    (c.send takes frame).1 = if c.closed then c else { c with out := c.out ++ [frame] } := by
  unfold HostConnection.send
  split
  · rfl
  · rfl

/-- An end of a connection as it goes on: whether the peer has said that it is done, and whether
this end had. -/
structure Parting (told said : Prop) (call stream : Option Nat) (c : HostConnection V) :
    Prop where
  ending : c.Ending call stream
  heard : c.peerDone = true → told
  closes : c.closed = true → told
  saying : said → c.sentDone = true

variable {told said : Prop}

section

variable (h : c.Parting told said call stream)
include h

/-- A change that the retirement does not see. -/
theorem Parting.of_same {call' stream' : Option Nat}
    (hsettling : d.Settling (fun settlement => settlement.answered = true) call')
    (hstreaming : d.Streaming stream')
    (hdrained : c.sentDone = true → d.unary.entries = [] ∧ d.streams.entries = [])
    (hretiring : d.retiring = c.retiring) (hclosed : d.closed = c.closed)
    (hsent : d.sentDone = c.sentDone) (hpeer : d.peerDone = c.peerDone) (hout : d.out = c.out) :
    d.Parting told said call' stream' := by
  refine ⟨⟨hsettling, hstreaming, fun hdone => ?_, ?_, ?_, ?_⟩, ?_, ?_, ?_⟩
  · rw [hsent] at hdone
    rw [hretiring]
    exact ⟨(h.ending.drained hdone).1, hdrained hdone⟩
  · rw [hretiring]
    exact h.ending.reason
  · rw [hclosed, hsent]
    exact h.ending.closed
  · rw [hout, hsent]
    exact h.ending.goaway
  · rw [hpeer]
    exact h.heard
  · rw [hclosed]
    exact h.closes
  · rw [hsent]
    exact h.saying

theorem Parting.send {frame : Frame V} (hframe : ∀ status message, frame ≠ .goaway status message) :
    (c.send takes frame).1.Parting told said call stream := by
  rw [send_takes]
  split
  · exact h
  refine { h with ending := ⟨h.ending.settling.of_same rfl rfl rfl,
    h.ending.streaming.of_same rfl rfl, h.ending.drained, h.ending.reason, h.ending.closed,
    fun status message hmem => ?_⟩ }
  rw [List.mem_append, List.mem_singleton] at hmem
  rcases hmem with hmem | rfl
  · exact h.ending.goaway status message hmem
  · exact absurd rfl (hframe status message)

/-- An end that has nothing to lose closes. -/
theorem Parting.close (reason : String) (hsent : c.sentDone = true) (hclosed : told) :
    (c.close reason).Parting told said call stream := by
  by_cases hopen : c.closed = true
  · rw [HostConnection.close, if_pos hopen]
    exact h
  rw [Bool.not_eq_true] at hopen
  obtain ⟨hretiring, hunary, hstreams⟩ := h.ending.drained hsent
  obtain ⟨inbound, servings, heq⟩ := close_drained reason hopen hunary hstreams
  have hempty : c.unary = .empty := JsMap.ext_entries hunary
  have hnone : c.streams = .empty := JsMap.ext_entries hstreams
  have hcalls := h.ending.settling
  rw [heq]
  refine { h with ending := ⟨⟨⟨?_, ?_, hcalls.1.exempt, hcalls.1.once, fun _ => rfl⟩,
    hcalls.2.of_same rfl⟩, h.ending.streaming.of_same rfl hnone.symm, fun _ => ⟨hretiring, rfl,
    rfl⟩, h.ending.reason, fun _ => hsent, h.ending.goaway⟩, closes := fun _ => hclosed }
  · rw [← hempty]
    exact hcalls.1.pending
  · rw [← hempty]
    exact hcalls.1.registered

theorem Parting.settleRetirement : (c.settleRetirement takes).Parting told said call stream := by
  unfold HostConnection.settleRetirement
  split
  · rename_i hopen hretiring
    have hsaid : (c.sayDone takes).Parting told said call stream := by
      unfold sayDone
      split
      · rename_i hdone
        rw [send_takes, if_neg (by dsimp only; rw [hopen]; simp)]
        refine ⟨⟨h.ending.settling.of_same rfl rfl rfl, h.ending.streaming.of_same rfl rfl,
          fun _ => ⟨by rw [hretiring]; simp, hdone.2.1, hdone.2.2⟩, h.ending.reason, fun _ => rfl,
          fun status message hmem => ?_⟩, h.heard, h.closes, fun _ => rfl⟩
        rw [List.mem_append, List.mem_singleton] at hmem
        rcases hmem with hmem | heq
        · exact ⟨(h.ending.goaway status message hmem).1, rfl⟩
        · injection heq with hstatus
          exact ⟨hstatus, rfl⟩
      · exact h
    dsimp only
    split
    · rename_i hdone
      exact hsaid.close _ hdone.1 (hsaid.heard hdone.2)
    · exact hsaid
  · exact h

end

theorem modify_concat {l : List (Consumer V)} : (l ++ [x]).modify l.length f = l ++ [f x] := by
  induction l with
  | nil => rfl
  | cons y l ih => exact congrArg (List.cons y) ih

/-- A stream that is not refused is written. -/
theorem dispatchStream_takes (payload : CallPayload V) (hopen : c.closed = false)
    (hretiring : c.retiring = none) :
    c.dispatchStream takes payload none =
      { c.allocate with
        out := c.out ++ [.call c.nextCorr true payload]
        streams := c.streams.set c.nextCorr c.consumers.length
        consumers :=
          c.consumers ++ [{ corrId := c.nextCorr, written := true, listening := true }] } := by
  have hrefusal : c.refusal none = none := by
    unfold refusal
    rw [hopen, hretiring]
    rfl
  have hclosed : c.registerStream.closed = false := hopen
  unfold HostConnection.dispatchStream HostConnection.send
  rw [hrefusal, hclosed]
  show HostConnection.modifyConsumer _ _ _ = _
  unfold modifyConsumer
  dsimp only [registerStream, allocate]
  rw [modify_concat, hopen]

theorem retiring_of_filter (hreason : c.retiring ≠ some "")
    (h : c.retiring.filter (· ≠ "") = none) : c.retiring = none := by
  cases hretiring : c.retiring with
  | none => rfl
  | some reason =>
    have hne : reason ≠ "" := fun heq => hreason (hretiring.trans (congrArg some heq))
    rw [hretiring, Option.filter_some, if_pos (decide_eq_true hne)] at h
    cases h

/-- The moves of an end. -/
theorem kept_parting (told said : Prop) : Kept (V := V) gracefully takes fun call stream c =>
    c.Parting told said call stream where
  quiet h _ _ _ _ :=
    h.of_same (h.ending.settling.of_same rfl rfl rfl) (h.ending.streaming.of_same rfl rfl)
      (fun hsent => (h.ending.drained hsent).2) rfl rfl rfl rfl rfl
  send h hframe := h.send hframe
  settleRetirement h := h.settleRetirement
  eraseCall {stream c corrId id} h hget := by
    refine h.of_same ⟨h.ending.settling.1.eraseCall hget, h.ending.settling.2.of_same rfl⟩
      (h.ending.streaming.of_same rfl rfl) (fun hsent => ?_) rfl rfl rfl rfl rfl
    obtain ⟨-, hunary, hstreams⟩ := h.ending.drained hsent
    refine ⟨?_, hstreams⟩
    show JsMap.eraseEntries corrId c.unary.entries = []
    rw [hunary]
    rfl
  settle {stream c id settlement} h hfair := by
    obtain ⟨corrId, hget⟩ := h.ending.settling.1.exempt id rfl
    exact h.of_same ⟨h.ending.settling.1.settle, h.ending.settling.2.settle hget rfl hfair⟩
      (h.ending.streaming.of_same rfl rfl) (fun hsent => (h.ending.drained hsent).2) rfl rfl rfl rfl
      rfl
  mine h hget hunary := h.ending.settling.1.mine hget hunary
  register {c corrId} h hopen hretiring hfree := by
    refine h.of_same (h.ending.settling.register hopen hfree) (h.ending.streaming.of_same rfl rfl)
      (fun hsent => ?_) rfl rfl rfl rfl rfl
    exact absurd (retiring_of_filter h.ending.reason hretiring) (h.ending.drained hsent).1
  refuse h hrefused :=
    h.of_same (h.ending.settling.refuse hrefused) (h.ending.streaming.of_same rfl rfl)
      (fun hsent => (h.ending.drained hsent).2) rfl rfl rfl rfl rfl
  retire {c reason} h hopen hretiring hreason := by
    refine { h with ending := ⟨h.ending.settling.of_same rfl rfl rfl,
      h.ending.streaming.of_same rfl rfl, fun hsent => ?_, ?_, h.ending.closed, h.ending.goaway⟩ }
    · exact absurd hretiring (h.ending.drained hsent).1
    · exact fun heq => hreason (Option.some.inj heq)
  openStream {c payload} h hopen hretiring hfresh := by
    rw [dispatchStream_takes payload hopen hretiring]
    have hstreaming := h.ending.streaming.open_ hfresh
      (y := { corrId := c.nextCorr, written := true, listening := true }) rfl rfl rfl
    refine { h with ending := ⟨h.ending.settling.of_same rfl rfl rfl, hstreaming.of_same rfl rfl,
      fun hsent => absurd hretiring (h.ending.drained hsent).1, h.ending.reason, h.ending.closed,
      fun status message hmem => ?_⟩ }
    rw [List.mem_append, List.mem_singleton] at hmem
    exact hmem.elim (h.ending.goaway status message) fun heq => by cases heq
  refuseStream {c} h hfresh := by
    refine h.of_same (h.ending.settling.of_same rfl rfl rfl) (h.ending.streaming.refuse hfresh)
      (fun hsent => ?_) rfl rfl rfl rfl rfl
    obtain ⟨-, hunary, hstreams⟩ := h.ending.drained hsent
    refine ⟨hunary, ?_⟩
    show JsMap.eraseEntries c.nextCorr (JsMap.setEntries c.nextCorr _ c.streams.entries) = []
    rw [hstreams]
    simp [JsMap.setEntries, JsMap.eraseEntries]
  failUnsent {c k failure} h hunwritten := by
    refine h.of_same (h.ending.settling.of_same rfl rfl rfl) ?_
      (fun hsent => (h.ending.drained hsent).2) rfl rfl rfl rfl rfl
    have hmild : Mild notUnreachable fun consumer : Consumer V =>
        { consumer with failure := some failure, done := true } :=
      ⟨fun _ => rfl, fun _ => rfl, fun _ => id, fun _ _ => rfl, fun _ _ _ => .inr trivial,
        fun _ => id⟩
    refine h.ending.streaming.modify (.inr rfl) hmild (fun x hx hwritten => ?_)
      (fun _ _ => .inl rfl) fun _ _ => .inl rfl
    rw [hunwritten x hx] at hwritten
    cases hwritten
  eraseStream {c k consumer} h hget hlive := by
    refine h.of_same (h.ending.settling.of_same rfl rfl rfl)
      (h.ending.streaming.erase hget hlive) (fun hsent => ?_) rfl rfl rfl rfl rfl
    obtain ⟨-, hunary, hstreams⟩ := h.ending.drained hsent
    refine ⟨hunary, ?_⟩
    show JsMap.eraseEntries consumer.corrId c.streams.entries = []
    rw [hstreams]
    rfl
  finish {stream c k f} h hstream hmild hfinishing := by
    refine h.of_same (h.ending.settling.of_same rfl rfl rfl) ?_
      (fun hsent => (h.ending.drained hsent).2) rfl rfl rfl rfl rfl
    refine h.ending.streaming.modify (hstream.elim .inr fun hnone => .inl hnone.1) hmild
      (fun x _ _ failure => hmild.failure x failure) (fun corrId hin => ?_) fun _ => hfinishing
    rcases hstream with hsome | ⟨-, hout⟩
    · exact .inl hsome
    obtain ⟨-, x, hget, rfl, -⟩ := h.ending.streaming.table corrId k hin
    have hhas := hout x hget
    rw [JsMap.has, hin] at hhas
    cases hhas
  mild {c k f} h hmild hlistening := by
    refine h.of_same (h.ending.settling.of_same rfl rfl rfl) ?_
      (fun hsent => (h.ending.drained hsent).2) rfl rfl rfl rfl rfl
    exact h.ending.streaming.modify (.inl rfl) hmild (fun x _ _ failure => hmild.failure x failure)
      (fun _ _ => .inr hlistening) fun hnone => by cases hnone

end

end HostConnection

/-! ## Both ends -/

namespace Pair

variable {V : Type} {p q : Pair V} {l : Label V} {side : Side}

/-- Both ends, and what each knows of the other. -/
structure Joined (p : Pair V) : Prop where
  ending : ∀ side, (p.at_ side).Ending none none
  heard : ∀ side, (p.at_ side).peerDone = true → (p.peer side).sentDone = true
  closed : ∀ side, (p.at_ side).closed = true → (p.peer side).sentDone = true

/-- One end goes on, and the other is what it was but for what is on its way. -/
theorem Joined.put {c d : HostConnection V} (h : p.Joined)
    (hc : c.Parting ((p.peer side).sentDone = true) ((p.at_ side).sentDone = true) none none)
    (hd : d.Ending none none) (hsent : d.sentDone = (p.peer side).sentDone)
    (hpeer : d.peerDone = (p.peer side).peerDone) (hclosed : d.closed = (p.peer side).closed) :
    (put side c d).Joined := by
  have hheard : c.peerDone = true → d.sentDone = true := fun hdone => by
    rw [hsent]
    exact hc.heard hdone
  have hcloses : c.closed = true → d.sentDone = true := fun hdone => by
    rw [hsent]
    exact hc.closes hdone
  cases side with
  | left =>
    refine ⟨fun other => ?_, fun other => ?_, fun other => ?_⟩
    · cases other with
      | left => exact hc.ending
      | right => exact hd
    · cases other with
      | left => exact hheard
      | right => exact fun hdone => hc.saying (h.heard .right (hpeer.symm.trans hdone))
    · cases other with
      | left => exact hcloses
      | right => exact fun hdone => hc.saying (h.closed .right (hclosed.symm.trans hdone))
  | right =>
    refine ⟨fun other => ?_, fun other => ?_, fun other => ?_⟩
    · cases other with
      | left => exact hd
      | right => exact hc.ending
    · cases other with
      | left => exact fun hdone => hc.saying (h.heard .left (hpeer.symm.trans hdone))
      | right => exact hheard
    · cases other with
      | left => exact fun hdone => hc.saying (h.closed .left (hclosed.symm.trans hdone))
      | right => exact hcloses

theorem Joined.ending_peer (h : p.Joined) (side : Side) : (p.peer side).Ending none none := by
  cases side with
  | left => exact h.ending .right
  | right => exact h.ending .left

/-- An end as it goes on from here. -/
theorem Joined.parting (h : p.Joined) (side : Side) :
    (p.at_ side).Parting ((p.peer side).sentDone = true) ((p.at_ side).sentDone = true) none
      none :=
  ⟨h.ending side, h.heard side, h.closed side, id⟩

/-- No id is given to a call or a stream while another has it, and no connection is retired without
a reason. -/
def Proper (p : Pair V) : Label V → Prop
  | .op side (.dispatch _ _ _) => (p.at_ side).unary.get (p.at_ side).nextCorr = none
  | .op side (.dispatchStream _ _) => (p.at_ side).FreshStream
  | .op _ (.retire reason) => reason ≠ ""
  | _ => True

theorem Proper.admits {op : HostConnection.Op V} (h : p.Proper (.op side op)) :
    (p.at_ side).Admits HostConnection.gracefully takes op := by
  cases op with
  | dispatch payload aborted during =>
    exact ⟨fun _ _ => ⟨h, by simp [takes]⟩, fun _ _ => rfl⟩
  | abort | abortStream => rfl
  | dispatchStream | retire => exact h
  | _ => trivial

/-- The step lemma. -/
theorem Joined.step (h : p.Joined) (hok : p.Proper l) (hstep : p.step l = some q) : q.Joined := by
  cases l with
  | op side op =>
    obtain ⟨c, hrun, rfl⟩ := Option.map_eq_some_iff.1 hstep
    exact h.put ((HostConnection.kept_parting _ _).run (h.parting side) hok.admits hrun)
      (h.ending_peer side) rfl rfl rfl
  | deliver side =>
    dsimp only [Pair.step] at hstep
    split at hstep
    · rename_i frame rest hout
      obtain ⟨-, rfl⟩ := guard_past_taken hstep
      have hpeer := h.ending_peer side
      have hsent : HostConnection.Ending none none { p.peer side with out := rest } :=
        ⟨hpeer.settling.of_same rfl rfl rfl, hpeer.streaming.of_same rfl rfl, hpeer.drained,
          hpeer.reason, hpeer.closed, fun status message hmem =>
            hpeer.goaway status message (hout ▸ List.mem_cons_of_mem frame hmem)⟩
      refine h.put ?_ hsent rfl rfl rfl
      have hkept := HostConnection.kept_parting (V := V) ((p.peer side).sentDone = true)
        ((p.at_ side).sentDone = true)
      have hparting := h.parting side
      cases frame with
      | goaway status message =>
        obtain ⟨rfl, hdone⟩ := hpeer.goaway status message (hout ▸ List.mem_cons_self)
        have htold : HostConnection.Parting ((p.peer side).sentDone = true)
            ((p.at_ side).sentDone = true) none none
            { p.at_ side with peerDone := true } :=
          ⟨⟨hparting.ending.settling.of_same rfl rfl rfl,
            hparting.ending.streaming.of_same rfl rfl, hparting.ending.drained,
            hparting.ending.reason, hparting.ending.closed, hparting.ending.goaway⟩,
            fun _ => hdone, hparting.closes, hparting.saying⟩
        have hreason : "peer retired it" ≠ "" := by decide
        exact (hkept.retired htold hreason).settleRetirement
      | error corrId status wire =>
        refine hkept.onFrame hparting ?_
        dsimp only [HostConnection.AdmitsFrame]
        split <;> rfl
      | reply corrId value => exact hkept.onFrame hparting rfl
      | _ => exact hkept.onFrame hparting trivial
    · cases hstep
  | hangUp side =>
    obtain ⟨hclosed, rfl⟩ := guard_taken hstep
    have hpeer := h.ending_peer side
    have hsent : (p.at_ side).sentDone = true := by
      cases side with
      | left => exact h.closed .right hclosed
      | right => exact h.closed .left hclosed
    exact h.put ((h.parting side).close _ hsent (hpeer.closed hclosed)) hpeer rfl rfl rfl

theorem joined_initial (h : Pair.initial p) : p.Joined := by
  have hfresh : ∀ dialer : Bool, HostConnection.Ending none none
      ({ dialer := dialer } : HostConnection V) := by
    intro dialer
    refine ⟨HostConnection.settling_initial ⟨dialer, rfl⟩,
      ⟨fun _ _ _ _ hnone => ?_, fun _ _ hnone => ?_, fun _ _ hnone => ?_, fun _ hmem => ?_⟩,
      fun hsent => ?_, ?_, fun hclosed => ?_, fun _ _ hmem => ?_⟩
    · cases hnone
    · cases hnone
    · cases hnone
    · exact absurd hmem List.not_mem_nil
    · cases hsent
    · simp
    · cases hclosed
    · exact absurd hmem List.not_mem_nil
  obtain rfl := h
  refine ⟨fun side => ?_, fun side hdone => ?_, fun side hdone => ?_⟩
  · cases side with
    | left => exact hfresh true
    | right => exact hfresh false
  · cases side with
    | left | right => cases hdone
  · cases side with
    | left | right => cases hdone

/-! ## The property -/

/-- Retirement loses nothing.  The two ends close with nothing pending on either side; no call and
no stream that was written fails because of it, and all have been answered by then, if their callers
have not aborted them or gone away.  A call that was not written has been refused. -/
structure Graceful (p : Pair V) : Prop where
  idle : ∀ side, (p.at_ side).closed = true → ∀ other,
    (p.at_ other).unary.entries = [] ∧ (p.at_ other).streams.entries = []
  kept : ∀ side, ∀ call ∈ (p.at_ side).calls, call.written = true →
    ∀ settlement ∈ call.settled, settlement.answered = true
  keptStreams : ∀ side, ∀ consumer ∈ (p.at_ side).consumers, consumer.written = true →
    ∀ failure, consumer.failure = some failure → failure.answered = true
  answered : ∀ side, (p.at_ side).closed = true → ∀ other, ∀ call ∈ (p.at_ other).calls,
    call.written = true → ∃ settlement, call.settled = [settlement] ∧ settlement.answered = true
  answeredStreams : ∀ side, (p.at_ side).closed = true → ∀ other,
    ∀ consumer ∈ (p.at_ other).consumers, consumer.written = true →
      consumer.done = true ∨ consumer.over_ = true
  refused : ∀ side, ∀ call ∈ (p.at_ side).calls, call.written = false →
    ∃ settlement, call.settled = [settlement] ∧
      ((∃ reason, settlement = .unreachable reason) ∨ ∃ reason, settlement = .aborted reason)

theorem Joined.graceful (h : p.Joined) : p.Graceful := by
  have hsaid : ∀ side, (p.at_ side).closed = true → ∀ other, (p.at_ other).sentDone = true := by
    intro side hclosed other
    have hself := (h.ending side).closed hclosed
    have hpeer := h.closed side hclosed
    cases side with
    | left =>
      cases other with
      | left => exact hself
      | right => exact hpeer
    | right =>
      cases other with
      | left => exact hpeer
      | right => exact hself
  have hidle : ∀ side, (p.at_ side).closed = true → ∀ other,
      (p.at_ other).unary.entries = [] ∧ (p.at_ other).streams.entries = [] :=
    fun side hclosed other => ((h.ending other).drained (hsaid side hclosed other)).2
  refine ⟨hidle, fun side => (h.ending side).settling.2.written,
    fun side => (h.ending side).streaming.kept, fun side hclosed other call hmem hwritten => ?_,
    fun side hclosed other consumer hmem hwritten => ?_,
    fun side => (h.ending side).settling.2.unwritten⟩
  · have hcalls := (h.ending other).settling
    have hempty : (p.at_ other).unary = .empty := JsMap.ext_entries (hidle side hclosed other).1
    obtain ⟨id, hget⟩ := List.getElem?_of_mem hmem
    cases hsettled : call.settled with
    | nil =>
      rcases hcalls.1.registered id call hget hsettled with hnone | ⟨corrId, -, hin⟩
      · cases hnone
      · rw [hempty] at hin
        cases hin
    | cons settlement rest =>
      have honce := hcalls.1.once call hmem
      rw [hsettled, List.length_cons] at honce
      have hrest : rest = [] := List.length_eq_zero_iff.1 (by omega)
      refine ⟨settlement, by rw [hrest], ?_⟩
      exact hcalls.2.written call hmem hwritten settlement (hsettled ▸ List.mem_cons_self)
  · have hnone : (p.at_ other).streams = .empty := JsMap.ext_entries (hidle side hclosed other).2
    obtain ⟨k, hget⟩ := List.getElem?_of_mem hmem
    by_cases hdone : consumer.done = true
    · exact .inl hdone
    by_cases hover : consumer.over_ = true
    · exact .inr hover
    rw [Bool.not_eq_true] at hdone hover
    rcases (h.ending other).streaming.present k consumer hget hwritten hdone hover with hex | hin
    · cases hex
    · rw [hnone] at hin
      cases hin

end Pair

/-- The run lemma. -/
theorem joined_of_proper {V : Type} {p : Pair V} (h : (hostPair V).Reach Pair.Proper p) :
    p.Joined := by
  refine h.invariant (fun _ => Pair.joined_initial) ?_
  intro s l t hs hok hstep
  exact hs.step hok hstep

/-- **Graceful retirement loses nothing**, in every run in which no id is reused in flight. -/
theorem graceful_of_proper {V : Type} {p : Pair V} (h : (hostPair V).Reach Pair.Proper p) :
    p.Graceful := (joined_of_proper h).graceful

/-! ## Retired from both sides -/

/-- A call is on its way to the right when both sides retire the connection. -/
def bothRetire : List (Pair.Label String) :=
  [.op .left (.dispatch ask none none), .op .right (.retire "superseded by the designated dialer"),
    .op .left (.retire "lost the simultaneous-dial arbitration")]

/-- It is answered, and both ends close. -/
def answeredThen : List (Pair.Label String) :=
  [.deliver .right, .op .right (.serve 0), .op .right (.returned 0 "1"), .deliver .left,
    .deliver .left, .deliver .right]

instance (p : Pair String) (l : Pair.Label String) : Decidable (p.Proper l) := by
  unfold Pair.Proper
  split
  · infer_instance
  · exact inferInstanceAs (Decidable (∀ _ ∈ _, _ → _))
  · infer_instance
  · infer_instance

theorem graceful_bothRetire :
    ∃ p : Pair String, (hostPair String).Reach Pair.Proper p ∧ p.left.closed = true ∧
      p.right.closed = true ∧ p.Graceful := by
  have hstart : (hostPair String).Reach Pair.Proper ⟨{ dialer := true }, { dialer := false }⟩ :=
    .start rfl
  have hrun := hstart.exec_get (bothRetire ++ answeredThen) (by decide)
  exact ⟨_, hrun, by decide, by decide, graceful_of_proper hrun⟩

/-- A call made after the retirement fails because of it, unsent; and a call whose caller has
aborted it is not answered before the close. -/
theorem not_graceful : (¬ ∀ p : Pair String, (hostPair String).Reach Pair.Proper p → ∀ side,
      ∀ call ∈ (p.at_ side).calls, ∀ reason, .unreachable reason ∉ call.settled) ∧
    ¬ ∀ p : Pair String, (hostPair String).Reach Pair.Proper p → ∀ side,
      (p.at_ side).closed = true → ∀ other, ∀ call ∈ (p.at_ other).calls, call.written = true →
        ∃ settlement ∈ call.settled,
          (∃ value, settlement = .reply value) ∨ ∃ error, settlement = .error error := by
  have hstart : (hostPair String).Reach Pair.Proper ⟨{ dialer := true }, { dialer := false }⟩ :=
    .start rfl
  refine ⟨fun h => ?_, fun h => ?_⟩
  · have hrun := hstart.exec_get
      [.op .left (.retire "superseded by the designated dialer"),
        .op .left (.dispatch ask none none)] (by decide)
    exact h _ hrun .left _ List.mem_cons_self _ List.mem_cons_self
  · have hrun := hstart.exec_get
      [.op .left (.dispatch ask none none), .op .left (.abort 0 (.other "late" none)),
        .op .left (.retire "superseded by the designated dialer"), .deliver .right,
        .deliver .right, .deliver .right] (by decide)
    obtain ⟨settlement, hmem, hanswered⟩ := h _ hrun .right rfl .left _ List.mem_cons_self rfl
    obtain rfl := List.mem_singleton.1 hmem
    rcases hanswered with ⟨value, heq⟩ | ⟨error, heq⟩
    · cases heq
    · cases heq

end SigxActors.Cluster
