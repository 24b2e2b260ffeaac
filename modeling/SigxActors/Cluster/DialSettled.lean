/-
  Cluster/DialSettled.lean --- the sockets that lose are retired.

  Whatever the hosts do with their sockets, each pair of connections makes a run of its
  own: what is proved of the retirement of one connection holds of every socket.
-/
import SigxActors.Cluster.DialAgreement

set_option autoImplicit false

namespace SigxActors.Cluster

namespace Mesh

variable {V : Type} {hosts : Hosts} {m d : Mesh V} {s t : Socket V} {x y : Side} {i j : Nat}

/-- No id is given to a call or a stream while another has it. -/
def Proper (m : Mesh V) : Label V → Prop
  | .op i side op => ∀ s ∈ m.sockets[i]?, s.pair.Proper (.op (s.end_ side) op)
  | _ => True

/-- Each pair of connections has made a run. -/
def Each (m : Mesh V) : Prop :=
  ∀ (i : Nat) (s : Socket V), m.sockets[i]? = some s → (hostPair V).Reach Pair.Proper s.pair

theorem Each.modify (h : m.Each) {f : Socket V → Socket V}
    (hf : ∀ s, m.sockets[i]? = some s → (hostPair V).Reach Pair.Proper (f s).pair) :
    (m.modify i f).Each := by
  intro j t ht
  cases hget : m.sockets[i]? with
  | none =>
    have hsame : (m.modify i f).sockets = m.sockets := by
      exact List.modify_eq_self (List.getElem?_eq_none_iff.1 hget)
    exact h j t (hsame ▸ ht)
  | some s =>
    obtain ⟨rfl, rfl⟩ | ⟨-, ht⟩ := get_modify hget ht
    · exact hf s hget
    · exact h j t ht

theorem Each.swept (h : m.Each) (x : Side) (i : Nat) : (m.swept x i).Each := by
  intro j t ht
  rw [get_swept] at ht
  exact h j t ht

/-- An end retires its connection. -/
theorem reach_retire (h : (hostPair V).Reach Pair.Proper s.pair) {reason : String}
    (hreason : reason ≠ "") (x : Side) :
    (hostPair V).Reach Pair.Proper (s.act x fun c => c.retire takes reason).pair :=
  h.next (l := .op (s.end_ x) (.retire reason)) hreason rfl

/-- An end names its host. -/
theorem reach_named (h : (hostPair V).Reach Pair.Proper s.pair) (hosts : Hosts) (x y : Side) :
    (hostPair V).Reach Pair.Proper (s.act x (named hosts y)).pair :=
  h.next (l := .op (s.end_ x) (.hello (hosts.id y))) trivial rfl

theorem Each.retire (h : m.Each) (x : Side) (i : Nat) {reason : String} (hreason : reason ≠ "") :
    (m.retire x i reason).Each :=
  (h.modify fun s hget => reach_retire (h i s hget) hreason x).swept x i

theorem Each.hello (h : m.Each) (x : Side) (i : Nat) : (m.hello hosts x i).Each :=
  h.modify fun s hget => reach_named (h i s hget) hosts x x

theorem Each.register (h : m.Each) (x : Side) (i : Nat) : (m.register hosts x i).Each := by
  unfold Mesh.register
  split
  · exact h
  split
  · exact h
  split
  · exact h
  split
  · exact h
  split
  · split
    · exact h.retire x i (by decide)
    · exact h.retire x _ (by decide)
  · exact h

theorem Each.stepPair (h : m.Each) {l : Side → Pair.Label V}
    (hproper : ∀ s ∈ m.sockets[i]?, s.pair.Proper (l (s.end_ x)))
    (hstep : m.stepPair i x l = some d) : d.Each := by
  obtain ⟨s, p, hget, -, hpair, rfl⟩ := stepPair_some hstep
  refine h.modify fun s' hget' => ?_
  exact (h i s hget).next (hproper s hget) hpair

theorem Each.deliver (h : m.Each) (hordered : m.Ordered hosts none)
    (hstep : m.step hosts (.deliver i x) = some d) : d.Each := by
  obtain ⟨m', hpair, rfl⟩ := Option.map_eq_some_iff.1 hstep
  have heach : m'.Each := h.stepPair (l := .deliver) (fun _ _ => trivial) hpair
  obtain ⟨s, p, hget, -, -, rfl⟩ := stepPair_some hpair
  split
  case h_1 hostId hnext =>
    have hmem : .hello (some hostId) ∈ (s.at_ x.other).out := by
      unfold next at hnext
      rw [hget, Option.bind_some, Socket.peer_end] at hnext
      exact List.mem_of_mem_head? hnext
    cases hordered.heard hget x.other _ hmem
    refine Each.swept ?_ x i
    unfold onPeer
    rw [get_modify_self hget]
    dsimp only
    rw [if_pos rfl]
    exact heach.register x i
  case h_2 => exact heach.swept x i

theorem Each.step (h : m.Each) (hordered : m.Ordered hosts none) {l : Label V} (hok : m.Proper l)
    (hstep : m.step hosts l = some d) : d.Each := by
  cases l with dsimp only [Mesh.step] at hstep
  | dial side =>
    obtain ⟨-, rfl⟩ := guard_past_taken hstep
    intro j t ht
    rw [List.getElem?_append] at ht
    split at ht
    · exact h j t ht
    · obtain rfl := List.mem_singleton.1 (List.mem_of_getElem? ht)
      exact .start rfl
  | connect i =>
    split at hstep
    · rename_i s hget
      obtain ⟨-, rfl⟩ := guard_taken hstep
      have hconnected : (m.modify i fun s => { s with dial := .connected }).Each :=
        h.modify fun s hget => h i s hget
      have hended : ((m.modify i fun s => { s with dial := .connected }).endDial s.dialer).Each :=
        hconnected
      exact (hended.hello s.dialer i).register s.dialer i
    · cases hstep
  | connectFails i =>
    split at hstep
    · split at hstep
      · cases hstep
        have hfailed : (m.modify i fun s => { s with dial := .failed }).Each :=
          h.modify fun s hget => h i s hget
        exact hfailed
      · cases hstep
    · cases hstep
  | accept i =>
    split at hstep
    · rename_i s hget
      obtain ⟨-, rfl⟩ := guard_taken hstep
      have hadopted : (m.modify i fun s => { s with accepted := true }).Each :=
        h.modify fun s hget => h i s hget
      exact hadopted.hello s.dialer.other i
    · cases hstep
  | op i side op =>
    obtain ⟨-, hstep⟩ := guard_passed hstep
    obtain ⟨m', hpair, rfl⟩ := Option.map_eq_some_iff.1 hstep
    exact (h.stepPair (l := fun e => .op e op) hok hpair).swept side i
  | deliver i side => exact h.deliver hordered hstep
  | hangUp i side =>
    obtain ⟨m', hpair, rfl⟩ := Option.map_eq_some_iff.1 hstep
    exact (h.stepPair (l := .hangUp) (fun _ _ => trivial) hpair).swept side i

theorem each_initial (h : Mesh.initial m) : m.Each := by
  obtain rfl := h
  intro i s hget
  cases hget

/-- Each socket's pair has made a run. -/
theorem each_of_proper (h : (mesh V hosts).Reach Proper m) : m.Each := by
  have hboth : m.Ordered hosts none ∧ m.Each := by
    refine h.invariant (I := fun m : Mesh V => m.Ordered hosts none ∧ m.Each) ?_ ?_
    · intro m hinit
      exact ⟨ordered_initial hinit, each_initial hinit⟩
    · intro s l t hs hok hstep
      exact ⟨hs.1.step hstep, hs.2.step hs.1 hok hstep⟩
  exact hboth.2

/-- What has closed was retired. -/
theorem retired_of_closed {p : Pair V} (h : (hostPair V).Reach Pair.Proper p) (side : Side)
    (hclosed : (p.at_ side).closed = true) : (p.at_ side).retiring ≠ none :=
  (((joined_of_proper h).ending side).drained (((joined_of_proper h).ending side).closed hclosed)).1

end Mesh

/-- **Two hosts that dial each other settle on one socket.**  Each host has one connection in
service at most, and once nothing is in flight both have the same socket for their link, if either
has connected.  What has closed was retired, and retiring it has lost no call. -/
theorem settled_of_reach {V : Type} (hosts : Hosts) :
    (∀ m : Mesh V, (mesh V hosts).Reachable m → m.OneLink ∧ (m.Quiet hosts → m.Agreed ∧
      ∀ (i : Nat) (s : Socket V) (x : Side), m.sockets[i]? = some s → s.dial = .connected →
        (s.at_ x).Calm → m.links x = some i)) ∧
      ∀ m : Mesh V, (mesh V hosts).Reach Mesh.Proper m → ∀ s ∈ m.sockets,
        (∀ x, (s.at_ x).closed = true → (s.at_ x).retiring ≠ none) ∧ s.pair.Graceful := by
  refine ⟨fun m h => ?_, fun m h s hmem => ?_⟩
  · have hordered := Mesh.ordered_of_reach h
    refine ⟨hordered.oneLink, fun hquiet => ⟨hordered.agreed hquiet, ?_⟩⟩
    intro i s x hget hdial hcalm
    refine hordered.oneLink i s x hget ⟨hdial, ?_⟩ hcalm
    by_cases hx : x = s.dialer
    · exact .inl hx
    have hother : s.dialer = x.other := Side.eq_other fun heq => hx heq.symm
    refine .inr ?_
    unfold Socket.helloing
    rw [hother, (hquiet.arrived hget hdial x).resolve_left (by rw [hcalm.open_]; nofun)]
    rfl
  · obtain ⟨i, hget⟩ := List.getElem?_of_mem hmem
    have hreach := Mesh.each_of_proper h i s hget
    exact ⟨fun x => Mesh.retired_of_closed hreach (s.end_ x), graceful_of_proper hreach⟩

/-! ## Both dial -/

instance (m : Mesh String) (l : Mesh.Label String) : Decidable (m.Proper l) := by
  unfold Mesh.Proper
  split <;> infer_instance

/-- The left host is the designated dialer. -/
def twoHosts : Hosts where
  id
    | .left => "a"
    | .right => "b"
  distinct := by decide

/-- The hosts dial each other, and the right one calls on the socket it has opened. -/
def bothDial : List (Mesh.Label String) :=
  [.dial .left, .dial .right, .connect 1, .op 1 .right (.dispatch ask none none)]

/-- The left one's socket opens too, and both learn of it. -/
def bothOpen : List (Mesh.Label String) :=
  [.connect 0, .accept 0, .accept 1, .deliver 0 .right, .deliver 1 .left, .deliver 1 .left]

/-- The call is answered on the socket that has lost. -/
theorem settled_bothDial :
    ∃ m : Mesh String, (mesh String twoHosts).Reach Mesh.Proper m ∧ m.OneLink ∧
      (∀ x, m.links x = some 0) ∧ ∃ s ∈ m.sockets, (∀ x, (s.at_ x).closed = true) ∧
        s.pair.Graceful := by
  have hstart : (mesh String twoHosts).Reach Mesh.Proper {} := .start rfl
  have hrun := hstart.exec_get (bothDial ++ bothOpen ++
    [.op 1 .left (.serve 0), .op 1 .left (.returned 0 "1"), .deliver 1 .right, .deliver 1 .right,
      .deliver 1 .right, .deliver 1 .left]) (by decide)
  obtain ⟨hreachable, hproper⟩ := settled_of_reach (V := String) twoHosts
  have hlost := (hproper _ hrun _ (List.mem_cons_of_mem _ List.mem_cons_self)).2
  refine ⟨_, hrun, (hreachable _ hrun.reachable).1, fun x => ?_, _,
    List.mem_cons_of_mem _ List.mem_cons_self, fun x => ?_, hlost⟩
  · cases x with
    | left | right => rfl
  · cases x with
    | left | right => rfl

/-- Hosts that have not dialled have no link; and a call on the socket that loses is not answered
if its caller has aborted it. -/
theorem not_settled :
    (¬ ∀ (hosts : Hosts) (m : Mesh String), (mesh String hosts).Reach Mesh.Proper m →
      m.Quiet hosts → ∃ i, ∀ x, m.links x = some i) ∧
    ¬ ∀ (hosts : Hosts) (m : Mesh String), (mesh String hosts).Reach Mesh.Proper m →
      ∀ s ∈ m.sockets, ∀ x, (s.at_ x).closed = true → ∀ y, ∀ call ∈ (s.at_ y).calls,
        call.written = true → ∃ settlement ∈ call.settled,
          (∃ value, settlement = .reply value) ∨ ∃ error, settlement = .error error := by
  have hstart : (mesh String twoHosts).Reach Mesh.Proper {} := .start rfl
  refine ⟨fun h => ?_, fun h => ?_⟩
  · have hquiet : Mesh.Quiet twoHosts ({} : Mesh String) := by
      intro l hnetwork
      cases l with
      | connect | accept | deliver | hangUp => rfl
      | _ => cases hnetwork
    obtain ⟨i, hlink⟩ := h twoHosts _ hstart hquiet
    cases hlink .left
  · have hrun := hstart.exec_get (bothDial ++ [.op 1 .right (.abort 0 (.other "late" none))] ++
      bothOpen ++ [.deliver 1 .left, .deliver 1 .left, .deliver 1 .right, .deliver 1 .right])
      (by decide)
    obtain ⟨settlement, hmem, hanswered⟩ := h twoHosts _ hrun _
      (List.mem_cons_of_mem _ List.mem_cons_self) .left rfl .right _ List.mem_cons_self rfl
    obtain rfl := List.mem_singleton.1 hmem
    rcases hanswered with ⟨value, heq⟩ | ⟨error, heq⟩
    · cases heq
    · cases heq

end SigxActors.Cluster
