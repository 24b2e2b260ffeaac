/-
  Cluster/CreditConserved.lean --- the credit of a stream is neither lost nor made.

  Source: `packages/actors/src/cluster/connection.ts`, `dispatchStream` and
  `#serveStream`.

  While both ends hold the stream, what the producer may send, what is under way, what
  the consumer holds and what it has not granted back make up the window.  Less than
  half of it is ever held back, so a consumer that waits has a producer that may send.
-/
import Mathlib
import SigxActors.Cluster.StreamCredit

set_option autoImplicit false

namespace SigxActors.Cluster

/-- The value of a chunk. -/
def Downstream.value? {V : Type} : Downstream V → Option V
  | .chunk value => some value
  | .end_ | .error => none

/-- What a frame allows the producer. -/
def Upstream.amount : Upstream → Nat
  | .call c => c
  | .credit n => n
  | .cancel => 0

namespace CreditStream

variable {V : Type} {s : CreditStream V}

/-- The chunks in flight. -/
def chunks (s : CreditStream V) : List V := s.downstream.filterMap Downstream.value?

/-- The grants in flight, the CALL's among them. -/
def granted (s : CreditStream V) : Nat := (s.upstream.map Upstream.amount).sum

/-- The producer's part of a stream that both ends hold. -/
def Serving (s : CreditStream V) : Prop :=
  s.producer = .ready ∨ s.producer = .parked ∨ s.producer = .pulling

/-- What holds between any two steps. -/
structure Credited (s : CreditStream V) : Prop where
  kept : s.registered = true → s.producer ≠ .ended →
    s.credit + s.chunks.length + s.queue.length + s.taken + s.granted = s.window
  ordered : s.registered = true → s.produced = s.consumed ++ s.queue ++ s.chunks
  prefix_ : s.consumed ++ s.queue <+: s.produced
  batch : 2 * s.taken < s.window
  nonneg : 0 ≤ s.credit
  waiting : s.reader = .waiting → s.queue = [] ∧ s.done = false
  gone : s.registered = false → s.done = true ∨ s.reader = .returned
  absent : s.producer = .absent → s.credit = 0 ∧ s.produced = [] ∧
    ∃ rest, s.upstream = .call s.window :: rest ∧ ∀ f ∈ rest, f = .cancel
  accepted : s.producer = .accepted → s.produced = [] ∧ ∀ f ∈ s.upstream, f = .cancel
  called : s.producer ≠ .absent → ∀ credit, .call credit ∉ s.upstream
  cancelled : .cancel ∈ s.upstream → s.registered = false
  aborted : s.aborted = true → s.registered = false
  serving : s.Serving → s.inbound = true ∨ s.aborted = true
  pulling : s.producer = .pulling → 1 ≤ s.credit
  parked : s.producer = .parked → s.credit ≤ 0
  ended : s.producer = .ended → s.registered = true → s.done = true ∨
    .end_ ∈ s.downstream ∨ .error ∈ s.downstream

/-! ## The consumer -/

variable {t : CreditStream V} {reader : Reader} {rest : List Upstream} {frame : Downstream V}

section

variable (h : s.Credited)
include h

theorem Credited.next (ht : s.next = some t) : t.Credited := by
  unfold CreditStream.next at ht
  split at ht
  · cases ht
    rename_i hidle
    refine { h with waiting := nofun, gone := fun hgone => ?_ }
    have hgone : s.done = true ∨ s.reader = .returned := h.gone hgone
    rw [hidle] at hgone
    exact hgone.imp id nofun
  · cases ht

/-- The stream is forgotten here, and CANCEL is under way. -/
theorem Credited.forget {done : Bool} (hgone : done = true ∨ reader = .returned)
    (hwaiting : reader ≠ .waiting) :
    Credited { s with
      registered := false, upstream := s.upstream ++ [.cancel], done := done, reader := reader } :=
  { h with
    kept := nofun
    ordered := nofun
    waiting := fun hreader => absurd hreader hwaiting
    gone := fun _ => hgone
    absent := fun habsent => by
      obtain ⟨hcredit, hproduced, rest, hrest, hall⟩ := h.absent habsent
      refine ⟨hcredit, hproduced, rest ++ [.cancel], ?_, fun f hf => ?_⟩
      · rw [hrest]
        rfl
      · rcases List.mem_append.1 hf with hf | hf
        · exact hall f hf
        · exact List.mem_singleton.1 hf
    accepted := fun haccepted => by
      obtain ⟨hproduced, hall⟩ := h.accepted haccepted
      refine ⟨hproduced, fun f hf => ?_⟩
      rcases List.mem_append.1 hf with hf | hf
      · exact hall f hf
      · exact List.mem_singleton.1 hf
    called := fun hcalled credit hmem => by
      rcases List.mem_append.1 hmem with hmem | hmem
      · exact h.called hcalled credit hmem
      · cases List.mem_singleton.1 hmem
    cancelled := fun _ => rfl
    aborted := fun _ => rfl
    ended := nofun }

/-- A stream that is forgotten here may end any way. -/
theorem Credited.forgotten (hgone : s.registered = false) {done : Bool}
    (hover : done = true ∨ reader = .returned) (hwaiting : reader ≠ .waiting) :
    Credited { s with done := done, reader := reader } :=
  { h with
    waiting := fun hreader => absurd hreader hwaiting
    gone := fun _ => hover
    ended := fun _ hregistered => by
      rw [hgone] at hregistered
      cases hregistered }

theorem Credited.cancel (done : Bool) (reader : Reader)
    (hover : done = true ∨ reader = .returned) (hwaiting : reader ≠ .waiting) :
    Credited { s.cancel with done := done, reader := reader } := by
  unfold CreditStream.cancel
  split
  · exact h.forget hover hwaiting
  · rename_i hregistered
    exact h.forgotten (Bool.eq_false_iff.2 hregistered) hover hwaiting

theorem Credited.abort : s.abort.Credited := by
  unfold CreditStream.abort bump
  split
  · exact h.cancel true .reading (Or.inl rfl) nofun
  · rename_i hwaiting
    exact h.cancel true s.cancel.reader (Or.inl rfl) hwaiting

theorem Credited.return_ (ht : s.return_ = some t) : t.Credited := by
  obtain ⟨-, rfl⟩ := guard_taken ht
  split
  · exact h.cancel s.cancel.done .returned (Or.inr rfl) nofun
  · exact { h with waiting := nofun, gone := fun _ => Or.inr rfl }

/-- A value is taken from the queue, and may be granted back. -/
theorem Credited.take (hreading : s.reader = .reading) {value : V}
    {rest : List V} (hqueue : s.queue = value :: rest) : (s.take value rest).Credited := by
  have hproduced : s.produced ≠ [] := by
    intro hnil
    have hinit := h.prefix_
    rw [hnil, hqueue, List.prefix_nil] at hinit
    simp at hinit
  have hdone : s.registered = false → s.done = true := fun hgone => by
    rcases h.gone hgone with hdone | hreader
    · exact hdone
    · rw [hreading] at hreader
      cases hreader
  have hshift : s.consumed ++ s.queue = s.consumed ++ [value] ++ rest := by
    rw [hqueue, List.append_assoc, List.singleton_append]
  have hordered : s.registered = true → s.produced = s.consumed ++ [value] ++ rest ++ s.chunks :=
    fun hregistered => by rw [h.ordered hregistered, hshift]
  have hinit : s.consumed ++ [value] ++ rest <+: s.produced := hshift ▸ h.prefix_
  have hkept : s.registered = true → s.producer ≠ .ended →
      s.credit + s.chunks.length + rest.length + (s.taken + 1) + s.granted = s.window := by
    intro hregistered hended
    have := h.kept hregistered hended
    rw [hqueue, List.length_cons] at this
    omega
  unfold CreditStream.take grant
  split
  · refine
      { h with
        kept := fun hregistered hended => ?_
        ordered := hordered
        prefix_ := hinit
        batch := ?_
        waiting := nofun
        gone := fun hgone => Or.inl (hdone hgone)
        absent := fun habsent => absurd (h.absent habsent).2.1 hproduced
        accepted := fun haccepted => absurd (h.accepted haccepted).1 hproduced
        called := fun hcalled credit hmem => ?_
        cancelled := fun hmem => ?_ }
    · have := hkept hregistered hended
      simp only [granted, chunks, List.map_append, List.sum_append, List.map_cons, List.map_nil,
        List.sum_cons, List.sum_nil, Upstream.amount] at this ⊢
      push_cast at this ⊢
      omega
    · have := h.batch
      simp only
      omega
    · rcases List.mem_append.1 hmem with hmem | hmem
      · exact h.called hcalled credit hmem
      · cases List.mem_singleton.1 hmem
    · rcases List.mem_append.1 hmem with hmem | hmem
      · exact h.cancelled hmem
      · cases List.mem_singleton.1 hmem
  · rename_i hhalf
    exact
      { h with
        kept := hkept
        ordered := hordered
        prefix_ := hinit
        batch := Nat.not_le.1 hhalf
        waiting := nofun
        gone := fun hgone => Or.inl (hdone hgone)
        absent := fun habsent => absurd (h.absent habsent).2.1 hproduced
        accepted := fun haccepted => absurd (h.accepted haccepted).1 hproduced }

theorem Credited.read (ht : s.read = some t) : t.Credited := by
  obtain ⟨hreading, ht⟩ := guard_passed ht
  split at ht
  · rename_i value rest hqueue
    cases ht
    exact h.take hreading hqueue
  · rename_i hqueue
    split at ht
    · cases ht
      exact h.cancel s.cancel.done .returned (Or.inr rfl) nofun
    · rename_i hdone
      cases ht
      rw [Bool.not_eq_true] at hdone
      refine { h with waiting := fun _ => ⟨hqueue, hdone⟩, gone := fun hgone => ?_ }
      have hgone : s.done = true ∨ s.reader = .returned := h.gone hgone
      rw [hdone, hreading] at hgone
      rcases hgone with hgone | hgone <;> cases hgone

/-- A chunk that arrives is queued. -/
theorem Credited.chunk (hregistered : s.registered = true) {value : V}
    {rest : List (Downstream V)} (hdown : s.downstream = .chunk value :: rest)
    (hwaiting : reader ≠ .waiting) :
    Credited { s with downstream := rest, queue := s.queue ++ [value], reader := reader } := by
  have hchunks : s.chunks = value :: rest.filterMap Downstream.value? := by
    rw [chunks, hdown]
    rfl
  have hordered : s.produced = s.consumed ++ (s.queue ++ [value]) ++
      rest.filterMap Downstream.value? := by
    rw [h.ordered hregistered, hchunks]
    simp only [List.append_assoc, List.singleton_append]
  refine
    { h with
      kept := fun _ hended => ?_
      ordered := fun _ => hordered
      prefix_ := ⟨_, hordered.symm⟩
      waiting := fun hreader => absurd hreader hwaiting
      gone := fun hgone => ?_
      ended := fun hended _ => ?_ }
  · have := h.kept hregistered hended
    rw [hchunks] at this
    simp only [chunks, granted, List.length_append, List.length_cons, List.length_nil] at this ⊢
    omega
  · rw [hregistered] at hgone
    cases hgone
  · have := h.ended hended hregistered
    rw [hdown] at this
    simpa using this

/-- The last frame ends the stream. -/
theorem Credited.over_ (hregistered : s.registered = true)
    (hvalue : frame.value? = none) {rest : List (Downstream V)}
    (hdown : s.downstream = frame :: rest) (hwaiting : reader ≠ .waiting) :
    Credited { s with downstream := rest, done := true, reader := reader } := by
  have hchunks : s.chunks = rest.filterMap Downstream.value? := by
    rw [chunks, hdown, List.filterMap_cons_none hvalue]
  refine
    { h with
      kept := fun _ hended => ?_
      ordered := fun _ => ?_
      waiting := fun hreader => absurd hreader hwaiting
      gone := fun _ => Or.inl rfl
      ended := fun _ _ => Or.inl rfl }
  · have := h.kept hregistered hended
    rwa [hchunks] at this
  · have := h.ordered hregistered
    rwa [hchunks] at this

/-- A frame that finds no stream is dropped. -/
theorem Credited.dropped (hregistered : ¬ s.registered = true)
    (downstream : List (Downstream V)) : Credited { s with downstream := downstream } :=
  { h with
    kept := fun hup => absurd hup hregistered
    ordered := fun hup => absurd hup hregistered
    ended := fun _ hup => absurd hup hregistered }

theorem Credited.deliver {rest : List (Downstream V)}
    (hdown : s.downstream = frame :: rest) :
    (CreditStream.deliver { s with downstream := rest } frame).Credited := by
  unfold CreditStream.deliver
  split
  · rename_i hregistered
    cases frame with
    | chunk value =>
      dsimp only [bump]
      split
      · exact h.chunk hregistered hdown nofun
      · rename_i hwaiting
        exact h.chunk hregistered hdown hwaiting
    | end_ | error =>
      dsimp only [bump]
      split
      · exact h.over_ hregistered rfl hdown nofun
      · rename_i hwaiting
        exact h.over_ hregistered rfl hdown hwaiting
  · rename_i hregistered
    exact h.dropped hregistered rest

end

/-! ## The producer -/

theorem granted_cons {frame : Upstream} (hup : s.upstream = frame :: rest) :
    s.granted = frame.amount + (rest.map Upstream.amount).sum := by
  rw [granted, hup, List.map_cons, List.sum_cons]

section

variable (h : s.Credited)
include h

/-- The CALL is there before anything else. -/
theorem Credited.call {c : Nat} (hup : s.upstream = .call c :: rest) :
    Credited { s with upstream := rest, producer := .accepted, credit := c } := by
  have habsent : s.producer = .absent := by
    by_cases hproducer : s.producer = .absent
    · exact hproducer
    · exact absurd (hup ▸ List.mem_cons_self) (h.called hproducer c)
  obtain ⟨hcredit, hproduced, rest', hrest, hall⟩ := h.absent habsent
  obtain ⟨hc, rfl⟩ : Upstream.call c = .call s.window ∧ rest = rest' := by
    rw [hup, List.cons.injEq] at hrest
    exact hrest
  refine
    { h with
      kept := fun hregistered _ => ?_
      nonneg := Int.natCast_nonneg _
      absent := nofun
      accepted := fun _ => ⟨hproduced, hall⟩
      called := fun _ credit hmem => nomatch hall _ hmem
      cancelled := fun hmem => h.cancelled (hup ▸ List.mem_cons_of_mem _ hmem)
      serving := by rintro (hserving | hserving | hserving) <;> cases hserving
      pulling := nofun
      parked := nofun
      ended := nofun }
  have hkept := h.kept hregistered (by rw [habsent]; nofun)
  rw [granted_cons hup, hcredit] at hkept
  simp only [Upstream.amount, chunks, granted] at hkept ⊢
  push_cast at hkept ⊢
  omega

/-- A grant that arrives is added up. -/
theorem Credited.grant {n : Nat} (hup : s.upstream = .credit n :: rest)
    {producer : Producer}
    (hsame : producer = s.producer ∨ s.producer = .parked ∧ producer = .ready)
    (hparked : producer ≠ .parked) :
    Credited { s with upstream := rest, credit := s.credit + n, producer := producer } := by
  have habsent : s.producer ≠ .absent := by
    intro habsent
    obtain ⟨-, -, rest', hrest, -⟩ := h.absent habsent
    rw [hup, List.cons.injEq] at hrest
    cases hrest.1
  have haccepted : s.producer ≠ .accepted := by
    intro haccepted
    have := (h.accepted haccepted).2 (.credit n) (hup ▸ List.mem_cons_self)
    cases this
  have hnew : ∀ p, producer = p → p ≠ .ready → s.producer = p := by
    rintro p rfl hp
    rcases hsame with hsame | ⟨-, hready⟩
    · exact hsame.symm
    · exact absurd hready hp
  refine
    { h with
      kept := fun hregistered hended => ?_
      nonneg := ?_
      absent := fun hproducer => absurd (hnew _ hproducer nofun) habsent
      accepted := fun hproducer => absurd (hnew _ hproducer nofun) haccepted
      called := fun _ credit hmem => h.called habsent credit (hup ▸ List.mem_cons_of_mem _ hmem)
      cancelled := fun hmem => h.cancelled (hup ▸ List.mem_cons_of_mem _ hmem)
      serving := ?_
      pulling := fun hproducer => ?_
      parked := fun hproducer => absurd hproducer hparked
      ended := fun hproducer => h.ended (hnew _ hproducer nofun) }
  · have hkept := h.kept hregistered fun hproducer => by
      rcases hsame with hsame | ⟨hsame, -⟩
      · exact hended (hsame.trans hproducer)
      · rw [hproducer] at hsame
        cases hsame
    rw [granted_cons hup] at hkept
    simp only [Upstream.amount, chunks, granted] at hkept ⊢
    push_cast at hkept ⊢
    omega
  · have := h.nonneg
    simp only
    omega
  · intro hserving
    refine h.serving ?_
    rcases hsame with hsame | ⟨hsame, -⟩
    · rwa [hsame] at hserving
    · exact Or.inr (Or.inl hsame)
  · have := h.pulling (hnew _ hproducer nofun)
    simp only
    omega

/-- A frame that says nothing to the producer is read over. -/
theorem Credited.ignored {frame : Upstream} (hup : s.upstream = frame :: rest)
    (habsent : s.producer ≠ .absent ∨ frame = .cancel)
    (hnone : s.registered = true → s.producer ≠ .ended → frame.amount = 0) :
    Credited { s with upstream := rest } := by
  have habsent : s.producer ≠ .absent := by
    rcases habsent with habsent | rfl
    · exact habsent
    intro habsent
    obtain ⟨-, -, rest', hrest, -⟩ := h.absent habsent
    rw [hup, List.cons.injEq] at hrest
    cases hrest.1
  refine
    { h with
      kept := fun hregistered hended => ?_
      absent := fun hproducer => absurd hproducer habsent
      accepted := fun hproducer => ?_
      called := fun _ credit hmem => h.called habsent credit (hup ▸ List.mem_cons_of_mem _ hmem)
      cancelled := fun hmem => h.cancelled (hup ▸ List.mem_cons_of_mem _ hmem) }
  · have hkept := h.kept hregistered hended
    rw [granted_cons hup, hnone hregistered hended, Nat.zero_add] at hkept
    exact hkept
  · obtain ⟨hproduced, hall⟩ := h.accepted hproducer
    exact ⟨hproduced, fun f hf => hall f (hup ▸ List.mem_cons_of_mem _ hf)⟩

/-- The producer learns that the stream is not wanted. -/
theorem Credited.abandoned (hup : s.upstream = .cancel :: rest)
    {producer : Producer}
    (hsame : producer = s.producer ∨ s.producer = .parked ∧ producer = .ready) :
    Credited { s with
      upstream := rest, inbound := false, aborted := true, producer := producer } := by
  have hgone : s.registered = false := h.cancelled (hup ▸ List.mem_cons_self)
  have hignored := h.ignored hup (Or.inr rfl) fun _ _ => rfl
  have hnew : ∀ p, producer = p → p ≠ .ready → s.producer = p := by
    rintro p rfl hp
    rcases hsame with hsame | ⟨-, hready⟩
    · exact hsame.symm
    · exact absurd hready hp
  have hlost : ¬ s.registered = true := by
    rw [hgone]
    nofun
  exact
    { hignored with
      kept := fun hregistered => absurd hregistered hlost
      absent := fun hproducer => hignored.absent (hnew _ hproducer nofun)
      accepted := fun hproducer => hignored.accepted (hnew _ hproducer nofun)
      called := fun hcalled => hignored.called fun habsent => by
        rcases hsame with hsame | ⟨hsame, -⟩
        · exact hcalled (hsame.trans habsent)
        · rw [hsame] at habsent
          cases habsent
      aborted := fun _ => hgone
      serving := fun _ => Or.inr rfl
      pulling := fun hproducer => hignored.pulling (hnew _ hproducer nofun)
      parked := fun hproducer => hignored.parked (hnew _ hproducer nofun)
      ended := fun _ hregistered => absurd hregistered hlost }

theorem Credited.receive {frame : Upstream} (hup : s.upstream = frame :: rest) :
    (CreditStream.receive { s with upstream := rest } frame).Credited := by
  cases frame with
  | call c => exact h.call hup
  | credit n =>
    unfold CreditStream.receive
    dsimp only
    split
    · unfold wake
      split
      · rename_i hparked
        exact h.grant hup (Or.inr ⟨hparked, rfl⟩) nofun
      · rename_i hparked
        exact h.grant hup (Or.inl rfl) hparked
    · rename_i hinbound
      refine h.ignored hup (Or.inl fun habsent => ?_) fun hregistered hended => ?_
      · obtain ⟨-, -, rest', hrest, -⟩ := h.absent habsent
        rw [hup, List.cons.injEq] at hrest
        cases hrest.1
      · -- a grant finds the producer serving, and registered unless it was aborted
        exfalso
        have hserving : s.Serving := by
          cases hproducer : s.producer with
          | absent =>
            obtain ⟨-, -, rest', hrest, -⟩ := h.absent hproducer
            rw [hup, List.cons.injEq] at hrest
            cases hrest.1
          | accepted =>
            have := (h.accepted hproducer).2 (.credit n) (hup ▸ List.mem_cons_self)
            cases this
          | ready => exact Or.inl hproducer
          | parked => exact Or.inr (Or.inl hproducer)
          | pulling => exact Or.inr (Or.inr hproducer)
          | ended => exact absurd hproducer hended
        rcases h.serving hserving with hin | haborted
        · exact hinbound hin
        · rw [h.aborted haborted] at hregistered
          cases hregistered
  | cancel =>
    unfold CreditStream.receive
    dsimp only
    split
    · unfold wake
      split
      · rename_i hparked
        exact h.abandoned hup (Or.inr ⟨hparked, rfl⟩)
      · exact h.abandoned hup (Or.inl rfl)
    · exact h.ignored hup (Or.inr rfl) fun _ _ => rfl

theorem Credited.serve (ht : s.serve = some t) : t.Credited := by
  obtain ⟨haccepted, rfl⟩ := guard_taken ht
  refine
    { h with
      kept := fun hregistered _ => h.kept hregistered ?_
      absent := nofun
      accepted := nofun
      called := fun _ => h.called ?_
      serving := fun _ => Or.inl rfl
      pulling := nofun
      parked := nofun
      ended := nofun }
  · rw [haccepted]
    nofun
  · rw [haccepted]
    nofun

end

theorem chunks_send (s : CreditStream V) (frame : Downstream V) :
    (s.send frame).chunks = s.chunks ++ frame.value?.toList := by
  rw [chunks, send, List.filterMap_append]
  cases hvalue : frame.value? with
  | none => rw [List.filterMap_cons_none hvalue]; rfl
  | some value => rw [List.filterMap_cons_some hvalue]; rfl

/-- The producer is through, and says so to a consumer that is still there. -/
theorem Credited.finished (h : s.Credited) (inbound : Bool) (hcalled : s.producer ≠ .absent)
    {downstream : List (Downstream V)}
    (hchunks : downstream.filterMap Downstream.value? = s.chunks)
    (hlast : s.registered = true → .end_ ∈ downstream ∨ .error ∈ downstream) :
    Credited { s with downstream := downstream, producer := .ended, inbound := inbound } :=
  { h with
    kept := fun _ hended => absurd rfl hended
    ordered := fun hregistered => by
      have := h.ordered hregistered
      rwa [← hchunks] at this
    absent := nofun
    accepted := nofun
    called := fun _ => h.called hcalled
    serving := by rintro (hserving | hserving | hserving) <;> cases hserving
    pulling := nofun
    parked := nofun
    ended := fun _ hregistered => Or.inr (hlast hregistered) }

theorem Credited.refuse (h : s.Credited) (ht : s.refuse = some t) : t.Credited := by
  obtain ⟨haccepted, rfl⟩ := guard_taken ht
  refine h.finished s.inbound ?_ ?_ fun _ => Or.inr ?_
  · rw [haccepted]
    nofun
  · exact (chunks_send s .error).trans (List.append_nil _)
  · exact List.mem_append_right _ (List.mem_singleton.2 rfl)

theorem Credited.turn (h : s.Credited) (ht : s.turn = some t) : t.Credited := by
  obtain ⟨hready, ht⟩ := guard_passed ht
  have hcalled : s.producer ≠ .absent := by
    rw [hready]
    nofun
  have hended : s.producer ≠ .ended := by
    rw [hready]
    nofun
  split at ht
  · rename_i haborted
    cases ht
    refine h.finished false hcalled rfl fun hregistered => ?_
    rw [h.aborted haborted] at hregistered
    cases hregistered
  · split at ht
    · rename_i hcredit
      cases ht
      exact
        { h with
          kept := fun hregistered _ => h.kept hregistered hended
          absent := nofun
          accepted := nofun
          called := fun _ => h.called hcalled
          serving := fun _ => h.serving (Or.inl hready)
          pulling := nofun
          parked := fun _ => hcredit
          ended := nofun }
    · cases ht
      exact
        { h with
          kept := fun hregistered _ => h.kept hregistered hended
          absent := nofun
          accepted := nofun
          called := fun _ => h.called hcalled
          serving := fun _ => h.serving (Or.inl hready)
          pulling := fun _ => by
            simp only
            omega
          parked := nofun
          ended := nofun }

/-- A chunk is paid for. -/
theorem Credited.yielded (h : s.Credited) {value : V} (ht : s.yielded value = some t) :
    t.Credited := by
  obtain ⟨hpulling, rfl⟩ := guard_taken ht
  have hchunks := chunks_send s (.chunk value)
  have hcalled : s.producer ≠ .absent := by
    rw [hpulling]
    nofun
  have hended : s.producer ≠ .ended := by
    rw [hpulling]
    nofun
  refine
    { h with
      kept := fun hregistered _ => ?_
      ordered := fun hregistered => ?_
      prefix_ := h.prefix_.trans (List.prefix_append _ _)
      nonneg := ?_
      absent := nofun
      accepted := nofun
      called := fun _ => h.called hcalled
      serving := fun _ => h.serving (Or.inr (Or.inr hpulling))
      pulling := nofun
      parked := nofun
      ended := nofun }
  · have hkept := h.kept hregistered hended
    simp only [chunks, granted, send] at hkept hchunks ⊢
    rw [hchunks, List.length_append]
    simp only [Downstream.value?, Option.toList_some, List.length_singleton]
    omega
  · simp only [chunks, send] at hchunks ⊢
    rw [hchunks, h.ordered hregistered, List.append_assoc]
    rfl
  · have := h.pulling hpulling
    simp only
    omega

theorem Credited.finish (h : s.Credited) (hframe : frame = .end_ ∨ frame = .error)
    (ht : s.finish frame = some t) : t.Credited := by
  obtain ⟨hpulling, rfl⟩ := guard_taken ht
  have hcalled : s.producer ≠ .absent := by
    rw [hpulling]
    nofun
  split
  · rename_i haborted
    refine h.finished false hcalled rfl fun hregistered => ?_
    rw [h.aborted haborted] at hregistered
    cases hregistered
  · refine h.finished false hcalled ?_ fun _ => ?_
    · refine (chunks_send s frame).trans ?_
      rcases hframe with rfl | rfl <;> exact List.append_nil _
    · rcases hframe with rfl | rfl
      · exact Or.inl (List.mem_append_right _ (List.mem_singleton.2 rfl))
      · exact Or.inr (List.mem_append_right _ (List.mem_singleton.2 rfl))

/-! ## The stream -/

theorem Credited.step (h : s.Credited) {l : CreditLabel V} (ht : s.step l = some t) :
    t.Credited := by
  cases l with
  | next => exact h.next ht
  | read => exact h.read ht
  | return_ => exact h.return_ ht
  | abort => exact Option.some.inj ht ▸ h.abort
  | deliver =>
    rw [CreditStream.step] at ht
    split at ht
    · rename_i frame rest hdown
      exact Option.some.inj ht ▸ h.deliver hdown
    · cases ht
  | receive =>
    rw [CreditStream.step] at ht
    split at ht
    · rename_i frame rest hup
      exact Option.some.inj ht ▸ h.receive hup
    · cases ht
  | serve => exact h.serve ht
  | refuse => exact h.refuse ht
  | turn => exact h.turn ht
  | yielded value => exact h.yielded ht
  | ended => exact h.finish (Or.inl rfl) ht
  | threw => exact h.finish (Or.inr rfl) ht

theorem Credited.initial {window : Nat} (hwindow : 1 ≤ window) :
    Credited ({ window := window } : CreditStream V) where
  kept _ _ := by simp [chunks, granted, Upstream.amount]
  ordered _ := rfl
  prefix_ := List.prefix_refl _
  batch := by
    simp only
    omega
  nonneg := Int.le_refl 0
  waiting := nofun
  gone := nofun
  absent _ := ⟨rfl, rfl, [], rfl, nofun⟩
  accepted := nofun
  called hcalled := absurd rfl hcalled
  cancelled hmem := nomatch List.mem_singleton.1 hmem
  aborted := nofun
  serving := by rintro (hserving | hserving | hserving) <;> cases hserving
  pulling := nofun
  parked := nofun
  ended := nofun

theorem credited_of_reachable (h : (creditStream V).Reachable s) : s.Credited := by
  refine h.invariant (fun s hs => ?_) fun s l t hs _ ht => hs.step ht
  obtain ⟨window, hwindow, rfl⟩ := hs
  exact Credited.initial hwindow

/-- The consumer waits on an empty queue, and nothing is in flight. -/
def Starved (s : CreditStream V) : Prop :=
  s.reader = .waiting ∧ s.queue = [] ∧ s.downstream = [] ∧ s.upstream = []

/-- The producer has its next step to take: it does not wait for credit. -/
def Runs (s : CreditStream V) : Prop :=
  s.producer = .accepted ∨ s.producer = .ready ∨ s.producer = .pulling

theorem Credited.runs (h : s.Credited) (hstarved : s.Starved) : 1 ≤ s.credit ∧ s.Runs := by
  obtain ⟨hwaiting, hqueue, hdown, hup⟩ := hstarved
  obtain ⟨-, hdone⟩ := h.waiting hwaiting
  have hregistered : s.registered = true := by
    cases hregistered : s.registered with
    | true => rfl
    | false =>
      rcases h.gone hregistered with hgone | hgone
      · rw [hdone] at hgone
        cases hgone
      · rw [hwaiting] at hgone
        cases hgone
  have hended : s.producer ≠ .ended := by
    intro hended
    rcases h.ended hended hregistered with hover | hlast | hlast
    · rw [hdone] at hover
      cases hover
    · rw [hdown] at hlast
      cases hlast
    · rw [hdown] at hlast
      cases hlast
  have hcredit : 1 ≤ s.credit := by
    -- all of the window that is not with the producer is what is held back of a batch
    have hkept := h.kept hregistered hended
    rw [chunks, granted, hqueue, hdown, hup] at hkept
    have hbatch := h.batch
    simp only [List.filterMap_nil, List.length_nil, List.map_nil, List.sum_nil] at hkept
    omega
  refine ⟨hcredit, ?_⟩
  cases hproducer : s.producer with
  | absent =>
    obtain ⟨-, -, rest, hrest, -⟩ := h.absent hproducer
    rw [hup] at hrest
    cases hrest
  | accepted => exact Or.inl hproducer
  | ready => exact Or.inr (Or.inl hproducer)
  | parked =>
    have := h.parked hproducer
    omega
  | pulling => exact Or.inr (Or.inr hproducer)
  | ended => exact absurd hproducer hended

/-- What is asked of a stream's credit. -/
structure Conserves (s : CreditStream V) : Prop where
  /-- While both ends hold the stream the window is all there. -/
  conserved : s.registered = true → s.producer ≠ .ended →
    s.credit + s.chunks.length + s.queue.length + s.taken + s.granted = s.window
  /-- In order, none lost and none twice. -/
  ordered : s.registered = true → s.produced = s.consumed ++ s.queue ++ s.chunks
  /-- Nor out of order where the consumer has given up. -/
  prefix_ : s.consumed ++ s.queue <+: s.produced
  /-- A consumer that waits for nothing has a producer that may send. -/
  live : s.Starved → 1 ≤ s.credit ∧ s.Runs

/-- The credit of a stream is conserved, and never runs out on both ends. -/
theorem conserves_of_reachable (h : (creditStream V).Reachable s) : s.Conserves := by
  have hcredited := credited_of_reachable h
  exact ⟨hcredited.kept, hcredited.ordered, hcredited.prefix_, hcredited.runs⟩

/-- A window of three: the second chunk taken is the one that grants. -/
theorem conserves_granted :
    ∃ s : CreditStream Nat, s.upstream = [.credit 2] ∧ s.credit = 0 ∧ s.consumed = [10, 11] ∧
      s.Conserves := by
  have hstart : (creditStream Nat).Reachable { window := 3 } := .start ⟨3, by decide, rfl⟩
  have hrun := hstart.exec_get
    [.next, .read, .receive, .serve, .turn, .yielded 10, .deliver, .turn, .yielded 11, .turn,
      .yielded 12, .turn, .deliver, .read, .next, .read, .deliver] (by decide)
  refine ⟨_, ?_, ?_, ?_, conserves_of_reachable hrun⟩ <;> decide

end SigxActors.Cluster.CreditStream
