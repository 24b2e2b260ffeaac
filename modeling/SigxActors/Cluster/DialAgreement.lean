/-
  Cluster/DialAgreement.lean --- both hosts settle on one socket.

  A socket leads when the designated dialer has opened it, or when the designated dialer
  has opened none.  A leading socket is never retired, and each host whose hands it is in
  has it for its link; the host it has yet to reach can only lose another to it.
-/
import SigxActors.Cluster.TcpTransport

set_option autoImplicit false

namespace SigxActors.Cluster

open SigxActors.Js

/-! ## The designated dialer -/

/-- The host whose outbound socket wins. -/
def Hosts.designated (hosts : Hosts) : Side := if hosts.weDial .left then .left else .right

@[simp]
theorem Side.other_other (side : Side) : side.other.other = side := by
  cases side <;> rfl

theorem Side.other_ne (side : Side) : side.other ≠ side := by
  cases side <;> nofun

theorem Side.eq_other {x y : Side} (h : y ≠ x) : y = x.other := by
  cases x <;> cases y
  · exact absurd rfl h
  · rfl
  · rfl
  · exact absurd rfl h

/-- Both hosts compute the same. -/
theorem Hosts.weDial_eq (hosts : Hosts) (side : Side) :
    hosts.weDial side = decide (side = hosts.designated) := by
  have hdistinct := hosts.distinct
  have hright : hosts.weDial .right = !hosts.weDial .left := by
    unfold Hosts.weDial Side.other
    rw [← decide_not, decide_eq_decide]
    refine ⟨fun hlt => List.not_lt.2 (List.le_of_lt hlt), fun hnot => ?_⟩
    refine Classical.byContradiction fun hnot' => hdistinct ?_
    exact List.le_antisymm (List.not_lt.1 hnot') (List.not_lt.1 hnot)
  unfold Hosts.designated
  cases side <;> cases hleft : hosts.weDial .left <;> simp [hright, hleft]

/-- The socket that is there stays only as the designated dialer's, against the other's. -/
theorem keepsExisting_iff (hosts : Hosts) (side : Side) {V : Type} (existing s : Socket V) :
    Mesh.keepsExisting hosts side existing s = true ↔
      existing.dialer = hosts.designated ∧ s.dialer ≠ hosts.designated := by
  unfold Mesh.keepsExisting Socket.outbound
  rw [Hosts.weDial_eq]
  generalize hosts.designated = a
  generalize existing.dialer = d
  generalize s.dialer = e
  cases side <;> cases a <;> cases d <;> cases e <;> decide

/-! ## Sockets -/

/-- It names its sender. -/
def Frame.isHello {V : Type} : Frame V → Bool
  | .hello _ => true
  | _ => false

namespace Socket

variable {V : Type} {s t u : Socket V} {x y : Side}

theorem end_other (s : Socket V) (x : Side) : s.end_ x.other = (s.end_ x).other := by
  unfold end_
  cases x <;> cases s.dialer <;> rfl

theorem at_act_self (s : Socket V) (x : Side) (f : HostConnection V → HostConnection V) :
    (s.act x f).at_ x = f (s.at_ x) := by
  unfold act at_ end_
  split <;> rfl

theorem at_act_other (s : Socket V) (x : Side) (f : HostConnection V → HostConnection V) :
    (s.act x f).at_ x.other = s.at_ x.other := by
  have hend := s.end_other x
  unfold end_ at hend
  unfold act at_ end_
  rw [hend]
  split <;> rfl

/-- What the other end of the pair is. -/
theorem peer_end (s : Socket V) (x : Side) : s.pair.peer (s.end_ x) = s.at_ x.other := by
  unfold at_
  rw [end_other]
  cases s.end_ x <;> rfl

/-- How many HELLOs are on their way to the acceptor. -/
def helloing (s : Socket V) : Nat := (s.at_ s.dialer).out.countP Frame.isHello

/-- The host knows the peer: it has connected to it, or its HELLO has arrived. -/
def Named (s : Socket V) (x : Side) : Prop :=
  s.dial = .connected ∧ (x = s.dialer ∨ s.helloing = 0)

/-- The frames that name a host name the one that has sent them. -/
def Heard (hosts : Hosts) (s : Socket V) : Prop :=
  ∀ x hostId, .hello hostId ∈ (s.at_ x).out → hostId = some (hosts.id x)

/-- In service at both ends, with no GOAWAY on the way. -/
def Safe (s : Socket V) : Prop :=
  ∀ x, (s.at_ x).Calm ∧ ∀ frame ∈ (s.at_ x).out, frame.isGoaway = false

/-- The socket goes on, or is on its way out. -/
structure Fades (hosts : Hosts) (s t : Socket V) : Prop where
  dialer : t.dialer = s.dialer
  dial : t.dial = s.dial
  down : ∀ x, (s.at_ x).Down → (t.at_ x).Down
  helloing : t.helloing ≤ s.helloing
  heard : s.Heard hosts → t.Heard hosts

variable {hosts : Hosts}

theorem Fades.trans (h : s.Fades hosts t) (h' : t.Fades hosts u) :
    s.Fades hosts u where
  dialer := h'.dialer.trans h.dialer
  dial := h'.dial.trans h.dial
  down x hdown := h'.down x (h.down x hdown)
  helloing := Nat.le_trans h'.helloing h.helloing
  heard hs := h'.heard (h.heard hs)

theorem Fades.named (h : s.Fades hosts t) (hnamed : s.Named x) : t.Named x := by
  refine ⟨h.dial.trans hnamed.1, hnamed.2.imp (fun hx => hx.trans h.dialer.symm) fun hzero => ?_⟩
  exact Nat.le_zero.1 (hzero ▸ h.helloing)

/-- Nothing was heard. -/
theorem Fades.named_of (h : s.Fades hosts t) (hsame : t.helloing = s.helloing)
    (hnamed : t.Named x) : s.Named x :=
  ⟨h.dial.symm.trans hnamed.1,
    hnamed.2.imp (fun hx => hx.trans h.dialer) fun hzero => hsame.symm.trans hzero⟩

variable {frame : Frame V} {f : HostConnection V → HostConnection V} {rest : List (Frame V)}

/-- What is said by a connection that wanes is no HELLO. -/
theorem isHello_of_plain (h : frame.plain = true ∨ frame.isGoaway = true) :
    frame.isHello = false := by
  cases frame with
  | hello hostId => cases h.elim id id
  | _ => rfl

/-- Nothing that calls and retirements say is a HELLO. -/
theorem helloing_act (h : (s.at_ x).Wanes (f (s.at_ x))) : (s.act x f).helloing = s.helloing := by
  obtain ⟨said, hout, hsaid⟩ := h.out
  have hnone : said.countP Frame.isHello = 0 := by
    rw [List.countP_eq_zero]
    intro frame hframe
    rw [isHello_of_plain (hsaid frame hframe)]
    exact Bool.false_ne_true
  unfold helloing
  by_cases hx : (s.act x f).dialer = x
  · rw [hx, at_act_self, hout, List.countP_append, hnone]
    rw [show s.dialer = x from hx]
    rfl
  · obtain hother := Side.eq_other hx
    rw [hother, at_act_other, show s.dialer = x.other from hother]

/-- A host's end changes as calls and retirements change it. -/
theorem fades_act (hosts : Hosts) (h : (s.at_ x).Wanes (f (s.at_ x))) :
    s.Fades hosts (s.act x f) where
  dialer := rfl
  dial := rfl
  down y hdown := by
    by_cases hy : y = x
    · subst hy
      rw [at_act_self]
      exact h.down hdown
    · obtain rfl := Side.eq_other hy
      rwa [at_act_other]
  helloing := Nat.le_of_eq (helloing_act h)
  heard hs y hostId hmem := by
    by_cases hy : y = x
    · subst hy
      rw [at_act_self] at hmem
      obtain ⟨said, hout, hsaid⟩ := h.out
      rw [hout] at hmem
      obtain hmem | hmem := List.mem_append.1 hmem
      · exact hs y hostId hmem
      · exact absurd (isHello_of_plain (hsaid _ hmem)) nofun
    · obtain rfl := Side.eq_other hy
      rw [at_act_other] at hmem
      exact hs _ hostId hmem

/-- In service it stays in service. -/
theorem Safe.act (hsafe : s.Safe) (h : (s.at_ x).Steady (f (s.at_ x))) : (s.act x f).Safe := by
  intro y
  by_cases hy : y = x
  · subst hy
    rw [at_act_self]
    refine ⟨h.stays (hsafe y).1, fun frame hframe => ?_⟩
    obtain ⟨said, hout, hsaid⟩ := h.out
    rw [hout] at hframe
    obtain hmem | hmem := List.mem_append.1 hframe
    · exact (hsafe y).2 frame hmem
    obtain hplain | hgoaway := hsaid frame hmem
    · cases frame with
      | goaway status message => cases hplain
      | _ => rfl
    · exact absurd (hsafe y).1 (HostConnection.not_calm_iff.2 hgoaway.2)
  · obtain rfl := Side.eq_other hy
    rw [at_act_other]
    exact hsafe _

/-- What a change of what is under way leaves as it is. -/
theorem down_act (hclosed : (f (s.at_ x)).closed = (s.at_ x).closed)
    (hretiring : (f (s.at_ x)).retiring = (s.at_ x).retiring) (hdown : (s.at_ y).Down) :
    ((s.act x f).at_ y).Down := by
  by_cases hy : y = x
  · subst hy
    rw [at_act_self]
    unfold HostConnection.Down
    rw [hclosed, hretiring]
    exact hdown
  · obtain rfl := Side.eq_other hy
    rwa [at_act_other]

theorem helloing_act_other (h : x ≠ s.dialer) : (s.act x f).helloing = s.helloing := by
  have hother : s.dialer = x.other := Side.eq_other h.symm
  unfold helloing
  rw [show (s.act x f).dialer = x.other from hother, at_act_other, hother]

theorem Heard.act (h : s.Heard hosts)
    (hf : ∀ hostId, .hello hostId ∈ (f (s.at_ x)).out →
      .hello hostId ∈ (s.at_ x).out ∨ hostId = some (hosts.id x)) : (s.act x f).Heard hosts := by
  intro y hostId hmem
  by_cases hy : y = x
  · subst hy
    rw [at_act_self] at hmem
    exact (hf hostId hmem).elim (h y hostId) id
  · obtain rfl := Side.eq_other hy
    rw [at_act_other] at hmem
    exact h _ hostId hmem

theorem Safe.act_out (h : s.Safe) (hclosed : (f (s.at_ x)).closed = (s.at_ x).closed)
    (hretiring : (f (s.at_ x)).retiring = (s.at_ x).retiring)
    (hout : ∀ frame ∈ (f (s.at_ x)).out, frame ∈ (s.at_ x).out ∨ frame.isGoaway = false) :
    (s.act x f).Safe := by
  intro y
  by_cases hy : y = x
  · subst hy
    rw [at_act_self]
    refine ⟨⟨hclosed.trans (h y).1.open_, hretiring.trans (h y).1.serving⟩, fun frame hframe => ?_⟩
    exact (hout frame hframe).elim ((h y).2 frame) id
  · obtain rfl := Side.eq_other hy
    rw [at_act_other]
    exact h _

/-- A host names itself. -/
theorem hello_closed (c : HostConnection V) (hostId : Option String) :
    (c.send takes (.hello hostId)).1.closed = c.closed ∧
      (c.send takes (.hello hostId)).1.retiring = c.retiring ∧
      ∀ frame ∈ (c.send takes (.hello hostId)).1.out, frame ∈ c.out ∨ frame = .hello hostId := by
  rw [HostConnection.send_takes]
  split
  · exact ⟨rfl, rfl, fun _ => .inl⟩
  · refine ⟨rfl, rfl, fun frame hframe => ?_⟩
    exact (List.mem_append.1 hframe).imp_right List.mem_singleton.1

/-- The first of the frames arrives, or is lost. -/
def pop (s : Socket V) (x : Side) (rest : List (Frame V)) : Socket V :=
  s.act x fun c => { c with out := rest }

theorem fades_pop (hosts : Hosts) (h : (s.at_ x).out = frame :: rest) :
    s.Fades hosts (s.pop x rest) where
  dialer := rfl
  dial := rfl
  down _ := down_act rfl rfl
  helloing := by
    by_cases hx : x = s.dialer
    · unfold helloing pop
      rw [show (s.act x fun c => { c with out := rest }).dialer = x from hx.symm, at_act_self, ← hx,
        h, List.countP_cons]
      exact Nat.le_add_right _ _
    · exact Nat.le_of_eq (helloing_act_other hx)
  heard hs := hs.act fun hostId hmem => .inl (h ▸ List.mem_cons_of_mem frame hmem)

/-- It was no HELLO to the acceptor. -/
theorem helloing_pop (h : (s.at_ x).out = frame :: rest)
    (hframe : frame.isHello = false ∨ x ≠ s.dialer) : (s.pop x rest).helloing = s.helloing := by
  by_cases hx : x = s.dialer
  · have hnot := hframe.resolve_right (not_not_intro hx)
    unfold helloing pop
    rw [show (s.act x fun c => { c with out := rest }).dialer = x from hx.symm, at_act_self, ← hx,
      h, List.countP_cons, hnot]
    rfl
  · exact helloing_act_other hx

/-- The HELLO has arrived. -/
theorem helloing_pop_hello {hostId : Option String}
    (h : (s.at_ s.dialer).out = .hello hostId :: rest) (honce : s.helloing ≤ 1) :
    (s.pop s.dialer rest).helloing = 0 := by
  unfold helloing at honce ⊢
  unfold pop
  rw [h, List.countP_cons] at honce
  rw [show (s.act s.dialer fun c => { c with out := rest }).dialer = s.dialer from rfl, at_act_self]
  have hone : (if (Frame.hello hostId : Frame V).isHello = true then 1 else 0) = 1 := rfl
  dsimp only
  omega

theorem Safe.pop (hs : s.Safe) (h : (s.at_ x).out = frame :: rest) : (s.pop x rest).Safe :=
  hs.act_out rfl rfl fun _ hmem => .inl (h ▸ List.mem_cons_of_mem frame hmem)

theorem pop_at_other (s : Socket V) (x : Side) (rest : List (Frame V)) :
    (s.pop x.other rest).at_ x = s.at_ x := by
  have hother := s.at_act_other x.other fun c => { c with out := rest }
  rw [Side.other_other] at hother
  exact hother

/-! ## The steps of a pair -/

theorem put_end (s : Socket V) (x : Side) (c d : HostConnection V) :
    { s with pair := Pair.put (s.end_ x) c d } =
      (s.act x.other fun _ => d).act x fun _ => c := by
  obtain ⟨dialer, dial, accepted, left, right⟩ := s
  cases x <;> cases dialer <;> rfl

theorem act_at (s : Socket V) (x : Side) : (s.act x fun _ => s.at_ x) = s := by
  obtain ⟨dialer, dial, accepted, left, right⟩ := s
  cases x <;> cases dialer <;> rfl

theorem pair_op {op : HostConnection.Op V} {p : Pair V}
    (h : s.pair.step (.op (s.end_ x) op) = some p) :
    ∃ c, (s.at_ x).run takes op = some c ∧ { s with pair := p } = s.act x fun _ => c := by
  obtain ⟨c, hrun, rfl⟩ := Option.map_eq_some_iff.1 h
  refine ⟨c, hrun, ?_⟩
  rw [put_end, peer_end, act_at]

theorem pair_deliver {p : Pair V} (h : s.pair.step (.deliver (s.end_ x)) = some p) :
    ∃ frame rest, (s.at_ x.other).out = frame :: rest ∧
      { s with pair := p } =
        (s.pop x.other rest).act x fun c => c.onFrame takes frame := by
  dsimp only [Pair.step] at h
  split at h
  · rename_i frame rest hout
    obtain ⟨-, rfl⟩ := guard_past_taken h
    rw [peer_end] at hout
    refine ⟨frame, rest, hout, ?_⟩
    rw [put_end, peer_end]
    have hsame : ((s.pop x.other rest).act x fun c => c.onFrame takes frame) =
        (s.pop x.other rest).act x fun _ => (s.at_ x).onFrame takes frame := by
      unfold act
      rw [pop_at_other]
    rw [hsame]
    congr 1
  · cases h

theorem pair_hangUp {p : Pair V} (h : s.pair.step (.hangUp (s.end_ x)) = some p) :
    (s.at_ x.other).closed = true ∧
      { s with pair := p } = s.act x fun c => c.close "link closed" := by
  obtain ⟨hclosed, rfl⟩ := guard_taken h
  rw [peer_end] at hclosed
  refine ⟨hclosed, ?_⟩
  rfl

end Socket

namespace Mesh

variable {V : Type} {hosts : Hosts} {m d : Mesh V} {s t : Socket V} {x y : Side} {i j : Nat}
  {ex : Option (Side × Nat)}

/-! ## Changing one socket -/

variable {f : Socket V → Socket V} {frame : Frame V} {rest : List (Frame V)}

theorem get_modify_self (h : m.sockets[i]? = some s) : (m.modify i f).sockets[i]? = some (f s) := by
  unfold modify
  rw [List.getElem?_modify, h]
  simp

theorem get_modify_other (h : j ≠ i) : (m.modify i f).sockets[j]? = m.sockets[j]? := by
  unfold modify
  simp [h.symm]

/-- A socket after a change to one that was there. -/
theorem get_modify (hget : m.sockets[i]? = some s) (h : (m.modify i f).sockets[j]? = some t) :
    j = i ∧ t = f s ∨ j ≠ i ∧ m.sockets[j]? = some t := by
  by_cases hj : j = i
  · subst hj
    rw [get_modify_self hget] at h
    exact .inl ⟨rfl, (Option.some.inj h).symm⟩
  · rw [get_modify_other hj] at h
    exact .inr ⟨hj, h⟩

/-! ## What the hosts keep -/

/-- The sockets of the dialer lead. -/
def Leads (hosts : Hosts) (m : Mesh V) (dialer : Side) : Prop :=
  dialer = hosts.designated ∨
    ∀ (j : Nat) (t : Socket V), m.sockets[j]? = some t → t.dial = .connected →
      t.dialer ≠ hosts.designated

/-- What holds between the steps, but for a socket that a host has just come to know. -/
structure Ordered (hosts : Hosts) (ex : Option (Side × Nat)) (m : Mesh V) : Prop where
  heard : ∀ {i : Nat} {s : Socket V}, m.sockets[i]? = some s → s.Heard hosts
  once : ∀ {i : Nat} {s : Socket V}, m.sockets[i]? = some s → s.helloing ≤ 1
  silent : ∀ {i : Nat} {s : Socket V}, m.sockets[i]? = some s → s.dial ≠ .connected → s.helloing = 0
  safe : ∀ {i : Nat} {s : Socket V}, m.sockets[i]? = some s →
    s.dial ≠ .connected ∨ m.Leads hosts s.dialer → s.Safe
  linked : ∀ {x : Side} {i : Nat}, m.links x = some i →
    ∃ s : Socket V, m.sockets[i]? = some s ∧ s.Named x
  /-- What is in service is the link. -/
  one : ∀ {i : Nat} {s : Socket V} {x : Side}, m.sockets[i]? = some s → s.Named x →
    ex ≠ some (x, i) → (s.at_ x).Down ∨ m.links x = some i
  dialing : ∀ {i : Nat} {s : Socket V}, m.sockets[i]? = some s → s.dial = .connecting →
    m.dialing s.dialer = some i
  /-- While a leading socket connects its dialer has no other. -/
  first : ∀ {i : Nat} {s : Socket V}, m.sockets[i]? = some s → s.dial = .connecting →
    m.Leads hosts s.dialer → ∀ {j : Nat} {t : Socket V}, m.sockets[j]? = some t →
      t.dial = .connected → t.dialer ≠ s.dialer

/-- A host that knows a leading socket has it for its link. -/
theorem Ordered.led (h : m.Ordered hosts ex) (hget : m.sockets[i]? = some s)
    (hleads : m.Leads hosts s.dialer) (hnamed : s.Named x) (hex : ex ≠ some (x, i)) :
    m.links x = some i :=
  (h.one hget hnamed hex).resolve_left
    (fun hdown => HostConnection.not_calm_iff.2 hdown (h.safe hget (.inr hleads) x).1)

theorem Ordered.but (h : m.Ordered hosts none) (ex : Option (Side × Nat)) : m.Ordered hosts ex where
  heard := h.heard
  once := h.once
  silent := h.silent
  safe := h.safe
  linked := h.linked
  one hget hnamed _ := h.one hget hnamed nofun
  dialing := h.dialing
  first := h.first

theorem leads_modify (hget : m.sockets[i]? = some s) (hfades : s.Fades hosts (f s)) (dialer : Side) :
    (m.modify i f).Leads hosts dialer ↔ m.Leads hosts dialer := by
  refine or_congr_right ⟨fun h j t ht hdial => ?_, fun h j t ht hdial => ?_⟩
  · by_cases hj : j = i
    · subst hj
      cases hget.symm.trans ht
      have hsame := h j _ (get_modify_self hget) (hfades.dial.trans hdial)
      rwa [hfades.dialer] at hsame
    · exact h j t ((get_modify_other hj).trans ht) hdial
  · obtain ⟨rfl, rfl⟩ | ⟨-, ht⟩ := get_modify hget ht
    · rw [hfades.dialer]
      exact h j s hget (hfades.dial.symm.trans hdial)
    · exact h j t ht hdial

/-- A socket goes on, or one that does not lead is on its way out. -/
theorem Ordered.modify (h : m.Ordered hosts ex) (hget : m.sockets[i]? = some s)
    (hfades : s.Fades hosts (f s)) (hnew : ∀ y, (f s).Named y → s.Named y ∨ ex = some (y, i))
    (hsafe : s.dial ≠ .connected ∨ m.Leads hosts s.dialer → (f s).Safe) :
    (m.modify i f).Ordered hosts ex where
  heard ht := by
    obtain ⟨rfl, rfl⟩ | ⟨-, ht⟩ := get_modify hget ht
    · exact hfades.heard (h.heard hget)
    · exact h.heard ht
  once ht := by
    obtain ⟨rfl, rfl⟩ | ⟨-, ht⟩ := get_modify hget ht
    · exact Nat.le_trans hfades.helloing (h.once hget)
    · exact h.once ht
  silent ht hdial := by
    obtain ⟨rfl, rfl⟩ | ⟨-, ht⟩ := get_modify hget ht
    · rw [hfades.dial] at hdial
      exact Nat.le_zero.1 (h.silent hget hdial ▸ hfades.helloing)
    · exact h.silent ht hdial
  safe ht hleads := by
    rw [leads_modify hget hfades] at hleads
    obtain ⟨rfl, rfl⟩ | ⟨-, ht⟩ := get_modify hget ht
    · rw [hfades.dial, hfades.dialer] at hleads
      exact hsafe hleads
    · exact h.safe ht hleads
  linked {x j} hlink := by
    obtain ⟨t, ht, hnamed⟩ := h.linked hlink
    by_cases hj : j = i
    · subst hj
      cases hget.symm.trans ht
      exact ⟨f s, get_modify_self hget, hfades.named hnamed⟩
    · exact ⟨t, (get_modify_other hj).trans ht, hnamed⟩
  one ht hnamed hex := by
    obtain ⟨rfl, rfl⟩ | ⟨-, ht⟩ := get_modify hget ht
    · exact (h.one hget ((hnew _ hnamed).resolve_right hex) hex).imp_left (hfades.down _)
    · exact h.one ht hnamed hex
  dialing ht hdial := by
    obtain ⟨rfl, rfl⟩ | ⟨-, ht⟩ := get_modify hget ht
    · rw [hfades.dialer]
      exact h.dialing hget (hfades.dial.symm.trans hdial)
    · exact h.dialing ht hdial
  first ht hdial hleads j t ht' hdial' := by
    rw [leads_modify hget hfades] at hleads
    have hother : ∀ {k : Nat} {u : Socket V}, m.sockets[k]? = some u → u.dial = .connecting →
        m.Leads hosts u.dialer → t.dialer ≠ u.dialer := by
      intro k u hu hconnecting hlead
      obtain ⟨rfl, rfl⟩ | ⟨-, ht'⟩ := get_modify hget ht'
      · rw [hfades.dialer]
        exact h.first hu hconnecting hlead hget (hfades.dial.symm.trans hdial')
      · exact h.first hu hconnecting hlead ht' hdial'
    obtain ⟨rfl, rfl⟩ | ⟨-, ht⟩ := get_modify hget ht
    · rw [hfades.dialer] at hleads ⊢
      exact hother hget (hfades.dial.symm.trans hdial) hleads
    · exact hother ht hdial hleads

/-- A link that has closed is dropped. -/
theorem Ordered.swept (h : m.Ordered hosts ex) (x : Side) (i : Nat) :
    (m.swept x i).Ordered hosts ex := by
  unfold Mesh.swept
  split
  case isFalse => exact h
  case isTrue hclosed =>
    exact
      { heard := h.heard
        once := h.once
        silent := h.silent
        safe := h.safe
        linked := fun {y j} hlink => by
          obtain ⟨-, hlink⟩ := guard_past hlink
          exact h.linked hlink
        one := fun {j t y} ht hnamed hex => by
          dsimp only
          split
          case isFalse => exact h.one ht hnamed hex
          case isTrue hy =>
            subst hy
            refine (h.one ht hnamed hex).elim .inl fun hlink => .inl (.inl ?_)
            cases hclosed.1.symm.trans hlink
            have hdown := hclosed.2
            unfold closedAt at hdown
            rw [ht] at hdown
            exact hdown
        dialing := h.dialing
        first := h.first }

/-! ## Registering -/

/-- The exempted host has caught up. -/
theorem Ordered.discharge (h : m.Ordered hosts (some (x, i))) (hget : m.sockets[i]? = some s)
    (hone : (s.at_ x).Down ∨ m.links x = some i) : m.Ordered hosts none where
  heard := h.heard
  once := h.once
  silent := h.silent
  safe := h.safe
  linked := h.linked
  one {j t y} ht hnamed _ := by
    by_cases heq : some (x, i) = some (y, j)
    · cases heq
      cases hget.symm.trans ht
      exact hone
    · exact h.one ht hnamed heq
  dialing := h.dialing
  first := h.first

/-- The socket becomes the link, and what else the host knows is out of service. -/
theorem Ordered.setLink (h : m.Ordered hosts (some (x, i))) (hget : m.sockets[i]? = some s)
    (hnamed : s.Named x)
    (hothers : ∀ j t, m.sockets[j]? = some t → t.Named x → j ≠ i → (t.at_ x).Down) :
    (m.setLink x i).Ordered hosts none where
  heard := h.heard
  once := h.once
  silent := h.silent
  safe := h.safe
  linked {y j} hlink := by
    unfold Mesh.setLink at hlink
    dsimp only at hlink
    split at hlink
    case isTrue hy =>
      subst hy
      cases hlink
      exact ⟨s, hget, hnamed⟩
    case isFalse => exact h.linked hlink
  one {j t y} ht hnamed' _ := by
    unfold Mesh.setLink
    dsimp only
    split
    case isTrue hy =>
      subst hy
      by_cases hj : j = i
      · exact .inr (congrArg some hj.symm)
      · exact .inl (hothers j t ht hnamed' hj)
    case isFalse hy => exact h.one ht hnamed' (fun heq => hy (congrArg Prod.fst (Option.some.inj heq)).symm)
  dialing := h.dialing
  first := h.first

theorem get_swept (m : Mesh V) (x : Side) (i : Nat) : (m.swept x i).sockets = m.sockets := by
  unfold swept
  split <;> rfl

theorem get_retire (hget : m.sockets[i]? = some s) (x : Side) (reason : String) :
    (m.retire x i reason).sockets[i]? = some (s.act x fun c => c.retire takes reason) := by
  unfold retire
  rw [get_swept]
  exact get_modify_self hget

/-- A socket that does not lead is retired. -/
theorem Ordered.retire (h : m.Ordered hosts ex) (hget : m.sockets[i]? = some s)
    (hnot : ¬ (s.dial ≠ .connected ∨ m.Leads hosts s.dialer)) (x : Side) (reason : String) :
    (m.retire x i reason).Ordered hosts ex := by
  have hfades : s.Fades hosts (s.act x fun c => c.retire takes reason) :=
    Socket.fades_act hosts (HostConnection.wanes_retire reason)
  refine Ordered.swept (h.modify hget hfades (fun y hnamed => .inl ?_)
    fun hleads => absurd hleads hnot) x i
  exact hfades.named_of (Socket.helloing_act (HostConnection.wanes_retire reason)) hnamed

/-- Another socket is out of service after a retirement, where it was before. -/
theorem down_of_retire (hosts : Hosts) {reason : String} (hget : m.sockets[i]? = some s)
    (ht : (m.retire y i reason).sockets[j]? = some t)
    (hold : ∀ u, m.sockets[j]? = some u → u.Named x → (u.at_ x).Down ∨ j = i ∧ x = y)
    (hnamed : t.Named x) : (t.at_ x).Down := by
  unfold Mesh.retire at ht
  rw [get_swept] at ht
  have hfades : s.Fades hosts (s.act y fun c => c.retire takes reason) :=
    Socket.fades_act hosts (HostConnection.wanes_retire reason)
  obtain ⟨rfl, rfl⟩ | ⟨hj, ht⟩ := get_modify hget ht
  · have hknown : s.Named x :=
      hfades.named_of (Socket.helloing_act (HostConnection.wanes_retire reason)) hnamed
    obtain hdown | ⟨-, rfl⟩ := hold s hget hknown
    · exact hfades.down x hdown
    · rw [Socket.at_act_self]
      exact HostConnection.down_retire reason
  · exact (hold t ht hnamed).resolve_right fun h => hj h.1

/-- A host that has come to know a socket makes it the link, or retires it, or has it the link. -/
theorem Ordered.register (h : m.Ordered hosts (some (x, i))) (hget : m.sockets[i]? = some s)
    (hnamed : s.Named x)
    (hsolo : m.Leads hosts s.dialer → ∀ j t, m.sockets[j]? = some t → t.dial = .connected →
      t.dialer = s.dialer → j = i) : (m.register hosts x i).Ordered hosts none := by
  have hothers : m.links x = none ∨ m.links x = some i →
      ∀ j t, m.sockets[j]? = some t → t.Named x → j ≠ i → (t.at_ x).Down := by
    intro hlinks j t ht hknown hj
    refine (h.one ht hknown fun heq => hj (congrArg Prod.snd (Option.some.inj heq)).symm).resolve_right
      fun hlink => ?_
    obtain hnone | hsome := hlinks
    · cases hnone.symm.trans hlink
    · exact hj (Option.some.inj (hlink.symm.trans hsome))
  unfold Mesh.register
  rw [hget]
  dsimp only
  split
  case isTrue hdown =>
    refine h.discharge hget (.inl (hdown.imp_right fun hsome => ?_))
    exact Option.isSome_iff_ne_none.1 hsome
  case isFalse hcalm =>
    cases hlink : m.links x with
    | none => exact h.setLink hget hnamed (hothers (.inl hlink))
    | some k =>
      obtain ⟨existing, hexisting, hknown⟩ := h.linked hlink
      dsimp only
      rw [hexisting]
      dsimp only
      split
      case isTrue hcontest =>
        obtain ⟨hk, hopen, hserving⟩ := hcontest
        split
        case isTrue hkeep =>
          -- The other's socket meets that of the designated dialer.
          rw [keepsExisting_iff] at hkeep
          have hnot : ¬ (s.dial ≠ .connected ∨ m.Leads hosts s.dialer) := by
            rintro (hdial | hleads)
            · exact hdial hnamed.1
            · obtain hdesignated | hnone := hleads
              · exact hkeep.2 hdesignated
              · exact hnone k existing hexisting hknown.1 hkeep.1
          refine (h.retire hget hnot x _).discharge (get_retire hget x _) (.inl ?_)
          rw [Socket.at_act_self]
          exact HostConnection.down_retire _
        case isFalse hkeep =>
          rw [keepsExisting_iff, Decidable.not_and_iff_or_not, Decidable.not_not] at hkeep
          have hnot : ¬ (existing.dial ≠ .connected ∨ m.Leads hosts existing.dialer) := by
            rintro (hdial | hleads)
            · exact hdial hknown.1
            · have hsame : existing.dialer = s.dialer := by
                obtain hdesignated | hnone := hleads
                · exact hdesignated.trans
                    (hkeep.resolve_left fun h => h hdesignated).symm
                · have hs := hnone i s hget hnamed.1
                  have hexistingNot := hnone k existing hexisting hknown.1
                  exact (Side.eq_other hexistingNot).trans (Side.eq_other hs).symm
              exact hk (hsolo (hsame ▸ hleads) k existing hexisting hknown.1 hsame)
          have hretired := h.retire hexisting hnot x "superseded by the designated dialer"
          have hget' : (m.retire x k "superseded by the designated dialer").sockets[i]? =
              some s := by
            unfold Mesh.retire
            rw [get_swept]
            exact (get_modify_other (fun heq => hk heq.symm)).trans hget
          refine hretired.setLink hget' hnamed fun j t ht hknown' hj => ?_
          refine down_of_retire hosts hexisting ht (fun u hu hnamed' => ?_) hknown'
          refine (h.one hu hnamed' fun heq =>
            hj (congrArg Prod.snd (Option.some.inj heq)).symm).imp_right fun hlink' => ?_
          exact ⟨Option.some.inj (hlink'.symm.trans hlink), rfl⟩
      case isFalse hcontest =>
        by_cases hk : k = i
        · exact h.setLink hget hnamed (hothers (.inr (hk ▸ hlink)))
        refine h.setLink hget hnamed fun j t ht hknown' hj => ?_
        refine (h.one ht hknown' fun heq =>
          hj (congrArg Prod.snd (Option.some.inj heq)).symm).elim id fun hlink' => ?_
        cases hlink'.symm.trans hlink
        cases hexisting.symm.trans ht
        refine HostConnection.not_calm_iff.1 fun hcalm' => hcontest ⟨hk, hcalm'.open_, ?_⟩
        rw [hcalm'.serving]
        rfl

/-! ## Dials -/

/-- A dial is over: the socket is connected, and known to its dialer alone, or it has failed. -/
theorem Ordered.settle (h : m.Ordered hosts none) (hget : m.sockets[i]? = some s)
    (hconnecting : s.dial = .connecting) (hdialer : (f s).dialer = s.dialer)
    (hdial : (f s).dial ≠ .connecting) (hheard : (f s).Heard hosts) (honce : (f s).helloing ≤ 1)
    (hsilent : (f s).dial ≠ .connected → (f s).helloing = 0) (hsafe : (f s).Safe)
    (hnamed : ∀ y, (f s).Named y → ex = some (y, i)) :
    ((m.modify i f).endDial s.dialer).Ordered hosts ex := by
  have hleads : ∀ dialer, ((m.modify i f).endDial s.dialer).Leads hosts dialer →
      m.Leads hosts dialer := by
    refine fun dialer hlead => hlead.imp_right fun hnone j t ht hconnected => ?_
    by_cases hj : j = i
    · subst hj
      cases hget.symm.trans ht
      cases hconnecting.symm.trans hconnected
    · exact hnone j t ((get_modify_other hj).trans ht) hconnected
  -- The other sockets that connect are the other host's.
  have hdialer' : ∀ {j : Nat} {t : Socket V}, m.sockets[j]? = some t → t.dial = .connecting →
      j ≠ i → t.dialer ≠ s.dialer := by
    intro j t ht htdial hj heq
    have hmine := h.dialing hget hconnecting
    have htheirs := h.dialing ht htdial
    rw [heq] at htheirs
    exact hj (Option.some.inj (htheirs.symm.trans hmine))
  exact
    { heard := fun ht => by
        obtain ⟨rfl, rfl⟩ | ⟨-, ht⟩ := get_modify hget ht
        · exact hheard
        · exact h.heard ht
      once := fun ht => by
        obtain ⟨rfl, rfl⟩ | ⟨-, ht⟩ := get_modify hget ht
        · exact honce
        · exact h.once ht
      silent := fun ht htdial => by
        obtain ⟨rfl, rfl⟩ | ⟨-, ht⟩ := get_modify hget ht
        · exact hsilent htdial
        · exact h.silent ht htdial
      safe := fun ht hlead => by
        obtain ⟨rfl, rfl⟩ | ⟨-, ht⟩ := get_modify hget ht
        · exact hsafe
        · exact h.safe ht (hlead.imp_right (hleads _))
      linked := fun {x j} hlink => by
        obtain ⟨t, ht, hknown⟩ := h.linked hlink
        have hj : j ≠ i := by
          rintro rfl
          cases hget.symm.trans ht
          cases hconnecting.symm.trans hknown.1
        exact ⟨t, (get_modify_other hj).trans ht, hknown⟩
      one := fun {j t y} ht hknown hex => by
        obtain ⟨rfl, rfl⟩ | ⟨-, ht⟩ := get_modify hget ht
        · exact absurd (hnamed y hknown) hex
        · exact h.one ht hknown nofun
      dialing := fun {j t} ht htdial => by
        obtain ⟨rfl, rfl⟩ | ⟨hj, ht⟩ := get_modify hget ht
        · exact absurd htdial hdial
        have hmine : m.dialing t.dialer = some j := h.dialing ht htdial
        unfold endDial
        dsimp only
        rw [if_neg (hdialer' ht htdial hj)]
        exact hmine
      first := fun {j t} ht htdial hlead k u hu hconnected => by
        obtain ⟨rfl, rfl⟩ | ⟨hj, hold⟩ := get_modify hget ht
        · exact absurd htdial hdial
        obtain ⟨rfl, rfl⟩ | ⟨-, hold'⟩ := get_modify hget hu
        · rw [hdialer]
          exact fun heq => hdialer' hold htdial hj heq.symm
        · exact h.first hold htdial (hleads _ hlead) hold' hconnected }

/-- A host dials where it has no link that takes calls. -/
theorem Ordered.dial (h : m.Ordered hosts none) (husable : ¬ m.usable x = true)
    (hdialing : (m.dialing x).isSome = false) :
    Ordered hosts none
      { m with
        sockets := m.sockets ++ [{ dialer := x }]
        dialing := fun y => if y = x then some m.sockets.length else m.dialing y } := by
  rw [Option.isSome_eq_false_iff, Option.isNone_iff_eq_none] at hdialing
  have hsocket : ∀ {j : Nat} {t : Socket V}, (m.sockets ++ [{ dialer := x }])[j]? = some t →
      m.sockets[j]? = some t ∨ j = m.sockets.length ∧ t = { dialer := x } := by
    intro j t ht
    rw [List.getElem?_append] at ht
    split at ht
    · exact .inl ht
    obtain ⟨hlt, -⟩ := List.getElem?_eq_some_iff.1 ht
    rw [List.length_singleton] at hlt
    exact .inr ⟨by omega, List.mem_singleton.1 (List.mem_of_getElem? ht)⟩
  have hleads : ∀ dialer, Leads hosts
      { m with
        sockets := m.sockets ++ [{ dialer := x }]
        dialing := fun y => if y = x then some m.sockets.length else m.dialing y } dialer →
      m.Leads hosts dialer := by
    refine fun dialer hlead => hlead.imp_right fun hnone j t ht hconnected => ?_
    refine hnone j t ?_ hconnected
    rw [List.getElem?_append_left (List.getElem?_eq_some_iff.1 ht).1]
    exact ht
  have hout : ∀ y, (Socket.at_ (V := V) { dialer := x } y).out = [] := by
    intro y
    unfold Socket.at_
    generalize Socket.end_ _ y = e
    cases e <;> rfl
  have hfresh : Socket.Safe (V := V) { dialer := x } := by
    intro y
    refine ⟨?_, by rw [hout]; simp⟩
    unfold Socket.at_
    generalize Socket.end_ _ y = e
    cases e <;> exact ⟨rfl, rfl⟩
  have hquiet : Socket.helloing (V := V) { dialer := x } = 0 := by
    unfold Socket.helloing
    rw [hout]
    rfl
  exact
    { heard := fun ht => by
        obtain ht | ⟨-, rfl⟩ := hsocket ht
        · exact h.heard ht
        intro y hostId hmem
        rw [hout] at hmem
        cases hmem
      once := fun ht => by
        obtain ht | ⟨-, rfl⟩ := hsocket ht
        · exact h.once ht
        · omega
      silent := fun ht hdial => by
        obtain ht | ⟨-, rfl⟩ := hsocket ht
        · exact h.silent ht hdial
        · exact hquiet
      safe := fun ht hlead => by
        obtain ht | ⟨-, rfl⟩ := hsocket ht
        · exact h.safe ht (hlead.imp_right (hleads _))
        · exact hfresh
      linked := fun {y j} hlink => by
        obtain ⟨t, ht, hknown⟩ := h.linked hlink
        refine ⟨t, ?_, hknown⟩
        rw [List.getElem?_append_left (List.getElem?_eq_some_iff.1 ht).1]
        exact ht
      one := fun ht hknown hex => by
        obtain ht | ⟨-, rfl⟩ := hsocket ht
        · exact h.one ht hknown hex
        · cases hknown.1
      dialing := fun {j t} ht hdial => by
        dsimp only
        obtain ht | ⟨rfl, rfl⟩ := hsocket ht
        · have hmine := h.dialing ht hdial
          split
          case isTrue heq =>
            rw [heq, hdialing] at hmine
            cases hmine
          case isFalse => exact hmine
        · exact if_pos rfl
      first := fun {j t} ht hdial hlead k u hu hconnected => by
        obtain hu | ⟨-, rfl⟩ := hsocket hu
        · obtain ht | ⟨-, rfl⟩ := hsocket ht
          · exact h.first ht hdial (hleads _ hlead) hu hconnected
          -- A leading socket that is connected is a link that takes calls.
          intro heq
          have hlead' : m.Leads hosts u.dialer := heq ▸ hleads _ hlead
          have hlink := h.led hu hlead' (x := x) ⟨hconnected, .inl heq.symm⟩ nofun
          have hcalm := (h.safe hu (.inr hlead') x).1
          refine husable ?_
          unfold usable
          rw [hlink, Option.bind_some, hu]
          simp [hcalm.open_, hcalm.serving]
        · cases hconnected }

/-- What naming itself does to a host's end. -/
def named (hosts : Hosts) (x : Side) (c : HostConnection V) : HostConnection V :=
  (c.send takes (.hello (some (hosts.id x)))).1

theorem fades_named (hosts : Hosts) (hx : x ≠ s.dialer) : s.Fades hosts (s.act x (named hosts x)) where
  dialer := rfl
  dial := rfl
  down _ := Socket.down_act (Socket.hello_closed _ _).1 (Socket.hello_closed _ _).2.1
  helloing := Nat.le_of_eq (Socket.helloing_act_other hx)
  heard hs := hs.act fun hostId hmem =>
    ((Socket.hello_closed _ _).2.2 _ hmem).imp_right fun heq => by
      injection heq

theorem Safe.named (hosts : Hosts) (hs : s.Safe) (x : Side) : (s.act x (named hosts x)).Safe :=
  hs.act_out (Socket.hello_closed _ _).1 (Socket.hello_closed _ _).2.1 fun frame hmem =>
    ((Socket.hello_closed _ _).2.2 frame hmem).imp_right fun heq => by
      rw [heq]
      rfl

theorem modify_modify (m : Mesh V) (i : Nat) (f g : Socket V → Socket V) :
    (m.modify i f).modify i g = m.modify i fun s => g (f s) := by
  unfold modify
  rw [List.modify_modify_eq]
  rfl

section

variable (h : m.Ordered hosts none) (hget : m.sockets[i]? = some s)
include h hget

/-- A host registers what it knows besides, of a leading socket, as its link. -/
theorem Ordered.solo (hconnected : s.dial = .connected) (hleads : m.Leads hosts s.dialer)
    (ht : m.sockets[j]? = some t) (hdial : t.dial = .connected) (hdialer : t.dialer = s.dialer) :
    j = i := by
  have hmine := h.led hget hleads (x := s.dialer) ⟨hconnected, .inl rfl⟩ nofun
  have htheirs := h.led ht (hdialer ▸ hleads) (x := s.dialer) ⟨hdial, .inl hdialer.symm⟩ nofun
  exact Option.some.inj (htheirs.symm.trans hmine)

theorem Ordered.connect
    (hconnecting : s.dial = .connecting) :
    ((((m.modify i fun s => { s with dial := .connected }).endDial s.dialer).hello hosts s.dialer
      i).register hosts s.dialer i).Ordered hosts none := by
  let f : Socket V → Socket V := fun u =>
    Socket.act { u with dial := .connected } s.dialer (named hosts s.dialer)
  have hsame : ((m.modify i fun s => { s with dial := .connected }).endDial s.dialer).hello hosts
      s.dialer i = (m.modify i f).endDial s.dialer := by
    have hmodify := modify_modify m i (fun s => { s with dial := .connected })
      fun s' => s'.act s.dialer (named hosts s.dialer)
    exact congrArg (fun d : Mesh V => d.endDial s.dialer) hmodify
  have hnot : s.dial ≠ .connected := by
    rw [hconnecting]
    nofun
  have hsafe := h.safe hget (.inl hnot)
  have hsilent := h.silent hget hnot
  have hone : (f s).helloing = 1 := by
    have hopen : (Socket.at_ { s with dial := .connected } s.dialer).closed = false :=
      (hsafe s.dialer).1.open_
    show ((f s).at_ s.dialer).out.countP Frame.isHello = 1
    rw [Socket.at_act_self, named, HostConnection.send_takes, hopen]
    have hzero : (Socket.at_ { s with dial := .connected } s.dialer).out.countP Frame.isHello = 0 :=
      hsilent
    simp only [Bool.false_eq_true, if_false, List.countP_append, hzero, List.countP_singleton,
      Frame.isHello, if_true]
  have hknown : ∀ y, (f s).Named y → y = s.dialer := by
    intro y hnamed
    refine hnamed.2.resolve_right fun hzero => ?_
    rw [hone] at hzero
    cases hzero
  have hordered : ((m.modify i f).endDial s.dialer).Ordered hosts (some (s.dialer, i)) := by
    refine h.settle hget hconnecting rfl nofun ?_ (Nat.le_of_eq hone) (fun hdial => absurd rfl hdial)
      ?_ fun y hnamed => by rw [hknown y hnamed]
    · have hheard := h.heard hget
      refine Socket.Heard.act (s := { s with dial := .connected }) hheard fun hostId hmem => ?_
      exact ((Socket.hello_closed _ _).2.2 _ hmem).imp_right fun heq => by injection heq
    · exact Safe.named (s := { s with dial := .connected }) hosts hsafe s.dialer
  rw [hsame]
  refine hordered.register (get_modify_self hget) ⟨rfl, .inl rfl⟩ fun hleads j t ht hdial hdialer => ?_
  obtain ⟨rfl, -⟩ | ⟨-, ht⟩ := get_modify hget ht
  · rfl
  refine absurd hdialer (h.first hget hconnecting (hleads.imp_right fun hnone k u hu hconnected => ?_)
    ht hdial)
  have hk : k ≠ i := by
    rintro rfl
    cases hget.symm.trans hu
    exact hnot hconnected
  exact hnone k u ((get_modify_other hk).trans hu) hconnected

theorem Ordered.connectFails
    (hconnecting : s.dial = .connecting) :
    ((m.modify i fun s => { s with dial := .failed }).endDial s.dialer).Ordered hosts none := by
  have hnot : s.dial ≠ .connected := by
    rw [hconnecting]
    nofun
  have hheard := h.heard hget
  have honce := h.once hget
  have hsilent := h.silent hget hnot
  have hsafe := h.safe hget (.inl hnot)
  refine h.settle hget hconnecting rfl nofun hheard honce (fun _ => hsilent) hsafe fun y hnamed => ?_
  cases hnamed.1

/-- The listener adopts a socket, and names its host. -/
theorem Ordered.accept :
    ((m.modify i fun s => { s with accepted := true }).hello hosts s.dialer.other i).Ordered hosts
      none := by
  unfold Mesh.hello
  rw [modify_modify]
  have hfades := fades_named (s := { s with accepted := true }) hosts (Side.other_ne s.dialer)
  have hfades' : s.Fades hosts
      (Socket.act { s with accepted := true } s.dialer.other (named hosts s.dialer.other)) :=
    { hfades with dialer := rfl, dial := rfl }
  refine h.modify hget hfades' (fun y hnamed => .inl (hfades'.named_of ?_ hnamed)) fun hleads => ?_
  · exact Socket.helloing_act_other (s := { s with accepted := true }) (Side.other_ne s.dialer)
  · have hsafe := h.safe hget hleads
    exact Safe.named (s := { s with accepted := true }) hosts hsafe _

end

/-! ## Calls and frames -/

theorem stepPair_some {l : Side → Pair.Label V} (h : m.stepPair i x l = some d) :
    ∃ s p, m.sockets[i]? = some s ∧ s.held x = true ∧ s.pair.step (l (s.end_ x)) = some p ∧
      d = m.modify i fun s => { s with pair := p } := by
  unfold stepPair at h
  split at h
  · rename_i s hget
    obtain ⟨hheld, h⟩ := guard_passed h
    obtain ⟨p, hstep, rfl⟩ := Option.map_eq_some_iff.1 h
    exact ⟨s, p, hget, hheld, hstep, rfl⟩
  · cases h

theorem Ordered.op (h : m.Ordered hosts none) {op : HostConnection.Op V} (hcall : op.isCall = true)
    (hstep : m.stepPair i x (fun e => .op e op) = some d) : d.Ordered hosts none := by
  obtain ⟨s, p, hget, -, hpair, rfl⟩ := stepPair_some hstep
  obtain ⟨c, hrun, hsame⟩ := Socket.pair_op hpair
  have hsteady := HostConnection.steady_run hcall hrun
  have hfades : s.Fades hosts { s with pair := p } := by
    rw [hsame]
    exact Socket.fades_act hosts hsteady.wanes
  refine h.modify hget hfades (fun y hnamed => .inl (hfades.named_of ?_ hnamed)) fun hleads => ?_
  · rw [hsame]
    exact Socket.helloing_act hsteady.wanes
  · rw [hsame]
    exact (h.safe hget hleads).act hsteady

theorem Ordered.hangUp (h : m.Ordered hosts none) (hstep : m.stepPair i x .hangUp = some d) :
    d.Ordered hosts none := by
  obtain ⟨s, p, hget, -, hpair, rfl⟩ := stepPair_some hstep
  obtain ⟨hclosed, hsame⟩ := Socket.pair_hangUp hpair
  have hfades : s.Fades hosts { s with pair := p } := by
    rw [hsame]
    exact Socket.fades_act hosts (HostConnection.wanes_close _)
  refine h.modify hget hfades (fun y hnamed => .inl (hfades.named_of ?_ hnamed)) fun hleads => ?_
  · rw [hsame]
    exact Socket.helloing_act (HostConnection.wanes_close _)
  · exact absurd (.inl hclosed)
      fun hdown => HostConnection.not_calm_iff.2 hdown (h.safe hget hleads x.other).1

/-- What a frame that arrives does to the socket. -/
theorem fades_deliver (hosts : Hosts) (hout : (s.at_ x.other).out = frame :: rest) :
    s.Fades hosts ((s.pop x.other rest).act x fun c => c.onFrame takes frame) :=
  (Socket.fades_pop hosts hout).trans
    (Socket.fades_act hosts (HostConnection.wanes_onFrame frame))

theorem helloing_deliver : ((s.pop x.other rest).act x fun c => c.onFrame takes frame).helloing =
      (s.pop x.other rest).helloing :=
  Socket.helloing_act (HostConnection.wanes_onFrame frame)

theorem safe_deliver (hs : s.Safe) (hout : (s.at_ x.other).out = frame :: rest) :
    ((s.pop x.other rest).act x fun c => c.onFrame takes frame).Safe :=
  (hs.pop hout).act
    (HostConnection.steady_onFrame ((hs x.other).2 frame (hout ▸ List.mem_cons_self)))

/-- A frame arrives, and the host registers whom it has heard of. -/
theorem Ordered.deliver (h : m.Ordered hosts none) (hstep : m.step hosts (.deliver i x) = some d) :
    d.Ordered hosts none := by
  obtain ⟨m', hpairStep, rfl⟩ := Option.map_eq_some_iff.1 hstep
  obtain ⟨s, p, hget, hheld, hpair, rfl⟩ := stepPair_some hpairStep
  obtain ⟨frame, rest, hout, hsame⟩ := Socket.pair_deliver hpair
  have hnext : m.next i x = some frame := by
    unfold next
    rw [hget, Option.bind_some, Socket.peer_end, hout]
    rfl
  have hfades : s.Fades hosts { s with pair := p } := by
    rw [hsame]
    exact fades_deliver hosts hout
  have hsafe : s.Safe → Socket.Safe { s with pair := p } := by
    intro hs
    rw [hsame]
    exact safe_deliver hs hout
  rw [hnext]
  by_cases hhello : frame.isHello = true
  · cases frame with
    | hello hostId =>
      obtain rfl := h.heard hget x.other hostId (hout ▸ List.mem_cons_self)
      have hconnected : s.dial = .connected := by
        unfold Socket.held at hheld
        split at hheld
        case isTrue => exact beq_iff_eq.1 hheld
        case isFalse hx =>
          refine Classical.byContradiction fun hdial => ?_
          have hsilent := h.silent hget hdial
          have hdialer : s.dialer = x.other := Side.eq_other fun heq => hx heq.symm
          unfold Socket.helloing at hsilent
          rw [hdialer, hout, List.countP_cons] at hsilent
          cases hsilent
      have hnamed : Socket.Named { s with pair := p } x := by
        by_cases hx : x = s.dialer
        · exact ⟨hconnected, .inl hx⟩
        have hdialer : s.dialer = x.other := Side.eq_other fun heq => hx heq.symm
        refine ⟨hconnected, .inr ?_⟩
        rw [hsame, helloing_deliver, ← hdialer]
        exact Socket.helloing_pop_hello (hdialer ▸ hout) (h.once hget)
      have hordered : Ordered hosts (some (x, i))
          (m.modify i fun s => { s with pair := p }) := by
        refine (h.but _).modify hget hfades (fun y hknown => ?_)
          fun hleads => hsafe (h.safe hget hleads)
        by_cases hy : y = x
        · exact .inr (by rw [hy])
        obtain rfl := Side.eq_other hy
        by_cases hx : x.other = s.dialer
        · exact .inl ⟨hconnected, .inl hx⟩
        refine .inl (hfades.named_of ?_ hknown)
        rw [hsame, helloing_deliver]
        exact Socket.helloing_pop hout (.inr hx)
      refine Ordered.swept ?_ x i
      unfold onPeer
      rw [get_modify_self hget]
      dsimp only
      rw [if_pos rfl]
      refine hordered.register (get_modify_self hget) hnamed fun hleads j t ht hdial hdialer => ?_
      rw [leads_modify hget hfades] at hleads
      obtain ⟨rfl, -⟩ | ⟨-, ht⟩ := get_modify hget ht
      · rfl
      · exact h.solo hget hconnected hleads ht hdial hdialer
    | _ => cases hhello
  · rw [Bool.not_eq_true] at hhello
    have hquiet : Ordered hosts none (m.modify i fun s => { s with pair := p }) := by
      refine h.modify hget hfades (fun y hnamed => .inl (hfades.named_of ?_ hnamed))
        fun hleads => hsafe (h.safe hget hleads)
      rw [hsame, helloing_deliver]
      exact Socket.helloing_pop hout (.inl hhello)
    cases frame with
    | hello hostId => cases hhello
    | _ => exact hquiet.swept x i

/-- The step lemma. -/
theorem Ordered.step (h : m.Ordered hosts none) {l : Label V} (hstep : m.step hosts l = some d) :
    d.Ordered hosts none := by
  cases l with dsimp only [Mesh.step] at hstep
  | dial side =>
    obtain ⟨hnot, rfl⟩ := guard_past_taken hstep
    rw [not_or, Bool.not_eq_true (m.dialing side).isSome] at hnot
    exact h.dial hnot.1 hnot.2
  | connect i =>
    split at hstep
    · rename_i s hget
      obtain ⟨hconnecting, rfl⟩ := guard_taken hstep
      exact h.connect hget hconnecting
    · cases hstep
  | connectFails i =>
    split at hstep
    · rename_i s hget
      obtain ⟨hconnecting, rfl⟩ := guard_taken hstep
      exact h.connectFails hget hconnecting.1
    · cases hstep
  | accept i =>
    split at hstep
    · rename_i s hget
      obtain ⟨-, rfl⟩ := guard_taken hstep
      exact h.accept hget
    · cases hstep
  | op i side op =>
    obtain ⟨hcall, hstep⟩ := guard_passed hstep
    obtain ⟨m', hpair, rfl⟩ := Option.map_eq_some_iff.1 hstep
    exact (h.op hcall hpair).swept side i
  | deliver i side => exact h.deliver hstep
  | hangUp i side =>
    obtain ⟨m', hpair, rfl⟩ := Option.map_eq_some_iff.1 hstep
    exact (h.hangUp hpair).swept side i

theorem ordered_initial (h : Mesh.initial m) : m.Ordered hosts none := by
  obtain rfl := h
  exact
    { heard := nofun
      once := nofun
      silent := nofun
      safe := nofun
      linked := nofun
      one := nofun
      dialing := nofun
      first := nofun }

/-- The run lemma. -/
theorem ordered_of_reach {guard : Mesh V → Label V → Prop}
    (h : (mesh V hosts).Reach guard m) : m.Ordered hosts none := by
  refine h.invariant (fun _ => ordered_initial) ?_
  intro s l t hs _ hstep
  exact hs.step hstep

/-! ## When nothing is under way -/

/-- It is of the network: a connect, or what arrives. -/
def Label.ofNetwork : Label V → Bool
  | .connect _ | .accept _ | .deliver _ _ | .hangUp _ _ => true
  | _ => false

/-- No connect and no frame is in flight. -/
def Quiet (hosts : Hosts) (m : Mesh V) : Prop :=
  ∀ l : Label V, l.ofNetwork = true → m.step hosts l = none

section

variable (h : m.Quiet hosts) (hget : m.sockets[i]? = some s) (hdial : s.dial = .connected)
include h hget hdial

theorem Quiet.accepted : s.accepted = true := by
  refine Classical.byContradiction fun hnot => ?_
  have hnone := h (.accept i) rfl
  dsimp only [Mesh.step] at hnone
  rw [hget] at hnone
  dsimp only at hnone
  rw [if_pos ⟨by rw [hdial]; nofun, Bool.eq_false_iff.2 hnot⟩] at hnone
  cases hnone

theorem Quiet.held (x : Side) : s.held x = true := by
  unfold Socket.held
  split
  · rw [hdial]
    rfl
  · exact h.accepted hget hdial

/-- Every frame has arrived, but for those on their way to an end that has closed. -/
theorem Quiet.arrived (x : Side) : (s.at_ x).closed = true ∨ (s.at_ x.other).out = [] := by
  cases hout : (s.at_ x.other).out with
  | nil => exact .inr rfl
  | cons frame rest =>
    refine .inl (Classical.byContradiction fun hclosed => ?_)
    have hnone := h (.deliver i x) rfl
    have hstep : s.pair.step (.deliver (s.end_ x)) =
        some (Pair.put (s.end_ x) ((s.pair.at_ (s.end_ x)).onFrame takes frame)
          { s.pair.peer (s.end_ x) with out := rest }) := by
      dsimp only [Pair.step]
      rw [Socket.peer_end, hout]
      exact if_neg hclosed
    dsimp only [Mesh.step] at hnone
    unfold stepPair at hnone
    rw [hget] at hnone
    dsimp only at hnone
    rw [if_pos (h.held hget hdial x), hstep] at hnone
    cases hnone

end

/-- The hosts settle on one socket. -/
structure Agreed (m : Mesh V) : Prop where
  same : m.links .left = m.links .right
  /-- The link is there, and in service at both ends. -/
  live : ∀ i, m.links .left = some i → ∃ s : Socket V, m.sockets[i]? = some s ∧ ∀ x, (s.at_ x).Calm
  /-- A host that has connected to the other has a link. -/
  some_ : (∃ s ∈ m.sockets, s.dial = .connected) → m.links .left ≠ none

/-- A host has one connection in service at most, and it is the link. -/
def OneLink (m : Mesh V) : Prop :=
  ∀ (i : Nat) (s : Socket V) (x : Side), m.sockets[i]? = some s → s.Named x → (s.at_ x).Calm →
    m.links x = some i

theorem Ordered.oneLink (h : m.Ordered hosts none) : m.OneLink := fun _ _ _ hget hnamed hcalm =>
  (h.one hget hnamed nofun).resolve_left fun hdown => HostConnection.not_calm_iff.2 hdown hcalm

/-- With nothing under way a leading socket is the link of both. -/
theorem Ordered.leading (h : m.Ordered hosts none) (hquiet : m.Quiet hosts)
    (hget : m.sockets[i]? = some s) (hdial : s.dial = .connected)
    (hleads : m.Leads hosts s.dialer) : ∀ x, m.links x = some i := by
  intro x
  refine h.led hget hleads ⟨hdial, ?_⟩ nofun
  by_cases hx : x = s.dialer
  · exact .inl hx
  have hother : s.dialer = x.other := Side.eq_other fun heq => hx heq.symm
  have hopen := (h.safe hget (.inr hleads) x).1.open_
  obtain hclosed | hout := hquiet.arrived hget hdial x
  · rw [hopen] at hclosed
    cases hclosed
  · refine .inr ?_
    unfold Socket.helloing
    rw [hother, hout]
    rfl

theorem Ordered.agreed (h : m.Ordered hosts none) (hquiet : m.Quiet hosts) : m.Agreed := by
  -- Some connected socket leads, if there is one.
  have hlead : (∃ s ∈ m.sockets, s.dial = .connected) →
      ∃ (i : Nat) (s : Socket V), m.sockets[i]? = some s ∧ s.dial = .connected ∧
        m.Leads hosts s.dialer := by
    rintro ⟨s, hmem, hdial⟩
    obtain ⟨i, hget⟩ := List.getElem?_of_mem hmem
    by_cases hdesignated : ∃ (j : Nat) (t : Socket V), m.sockets[j]? = some t ∧
        t.dial = .connected ∧ t.dialer = hosts.designated
    · obtain ⟨j, t, ht, hconnected, hdialer⟩ := hdesignated
      exact ⟨j, t, ht, hconnected, .inl hdialer⟩
    · refine ⟨i, s, hget, hdial, .inr fun j t ht hconnected hdialer => ?_⟩
      exact hdesignated ⟨j, t, ht, hconnected, hdialer⟩
  have hsome : (∃ s ∈ m.sockets, s.dial = .connected) → ∃ (i : Nat) (s : Socket V),
      m.sockets[i]? = some s ∧ s.Safe ∧ ∀ x, m.links x = some i := by
    intro hconnected
    obtain ⟨i, s, hget, hdial, hleads⟩ := hlead hconnected
    exact ⟨i, s, hget, h.safe hget (.inr hleads), h.leading hquiet hget hdial hleads⟩
  have hnone : ∀ x i, m.links x = some i → ∃ s ∈ m.sockets, s.dial = .connected := by
    intro x i hlink
    obtain ⟨s, hget, hnamed⟩ := h.linked hlink
    exact ⟨s, List.mem_of_getElem? hget, hnamed.1⟩
  refine ⟨?_, fun i hlink => ?_, fun hconnected hlink => ?_⟩
  · by_cases hconnected : ∃ s ∈ m.sockets, s.dial = .connected
    · obtain ⟨i, -, -, -, hlinks⟩ := hsome hconnected
      rw [hlinks, hlinks]
    have hempty : ∀ x, m.links x = none := by
      intro x
      cases hlink : m.links x with
      | none => rfl
      | some i => exact absurd (hnone x i hlink) hconnected
    rw [hempty, hempty]
  · obtain ⟨j, s, hget, hsafe, hlinks⟩ := hsome (hnone _ i hlink)
    cases (hlinks .left).symm.trans hlink
    exact ⟨s, hget, fun x => (hsafe x).1⟩
  · obtain ⟨i, -, -, -, hlinks⟩ := hsome hconnected
    rw [hlinks] at hlink
    cases hlink

end Mesh

end SigxActors.Cluster
