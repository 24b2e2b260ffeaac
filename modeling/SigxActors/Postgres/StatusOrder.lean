/-
  Postgres/StatusOrder.lean --- the status that a host has published, and what others read of it.

  Source: `pgMembership` of `packages/actors-pg/src/index.ts` (`writeSelf`, `setStatus`, the
  heartbeat, `refresh`).

  A pool serves each statement when it will: an upsert may be carried out any time after it was
  handed over, also when its promise has been rejected.  The host has joined, and it has had its
  statuses in their order: an upsert writes the one it has captured.  The ids of hosts are minted by
  the placement, and no comma is in them.  `leave()` is left out.
-/
import SigxActors.Codec.Fields
import SigxActors.Js.Array
import SigxActors.Postgres.Membership

set_option autoImplicit false

namespace SigxActors.Postgres

open SigxActors.Cluster SigxActors.Js

variable {D : Type}

/-- An id as the placement mints it. -/
def Minted (hostId : String) : Prop := ',' ∉ hostId.toList

instance (hostId : String) : Decidable (Minted hostId) := inferInstanceAs (Decidable (¬ _))

/-- A `writeSelf`: the place of the status that it has captured. -/
structure Upsert where
  status : Nat
  landed : Bool := false
  answered : Option Bool := none
  deriving DecidableEq, Repr

/-- A call of `setStatus`. -/
structure Setting where
  status : Nat
  upsert : Nat
  resolved : Bool := false
  deriving DecidableEq, Repr

/-- A call of `refresh`, on some host. -/
structure Refresh (D : Type) where
  observer : Nat
  /-- Which statuses had been set by a call that had resolved when it began. -/
  since : List Nat
  version : Option Int := none
  rows : Option (List (HostDescriptor D)) := none
  shown : Option (MembershipView D) := none
  deriving DecidableEq, Repr

/-- What the membership of some host keeps. -/
structure Observer (D : Type) where
  storeVersion : Int := 0
  cached : MembershipView D := ⟨0, []⟩
  signature : String := ""
  deriving DecidableEq, Repr

structure Published (D : Type) where
  hostId : String
  rest : D
  /-- Every status that `self` has had. -/
  statuses : List HostStatus
  /-- Which of them the host's row has, while it has not run out. -/
  own : Option Nat
  /-- The rows of the other hosts. -/
  others : List (HostDescriptor D)
  /-- `membership_version`. -/
  version : Int
  upserts : List Upsert := []
  settings : List Setting := []
  observers : List (Observer D) := []
  refreshes : List (Refresh D) := []
  deriving DecidableEq, Repr

namespace Published

variable (s : Published D)

/-- `self`, as it was with one of its statuses. -/
def descriptor (k : Nat) : Option (HostDescriptor D) :=
  (s.statuses[k]?).map fun status => ⟨s.hostId, status, s.rest⟩

/-- `SELECT descriptor FROM hosts WHERE expires_at > now()`. -/
def rows : List (HostDescriptor D) := s.others ++ (s.own.bind s.descriptor).toList

/-- `writeSelf`, up to where it awaits. -/
def writeSelf : Published D :=
  { s with upserts := s.upserts ++ [{ status := s.statuses.length - 1 }] }

/-- `setStatus`, up to where it awaits. -/
def setStatus (status : HostStatus) : Published D :=
  writeSelf { s with
    statuses := s.statuses ++ [status]
    settings := s.settings ++ [{ status := s.statuses.length, upsert := s.upserts.length }] }

/-- `refresh`, once both its queries are answered. -/
def apply (observer : Observer D) (stored : Int) (hosts : List (HostDescriptor D)) :
    Observer D × MembershipView D :=
  let nextSignature := signatureOf hosts
  if stored ≠ observer.storeVersion ∨ nextSignature ≠ observer.signature then
    let next : MembershipView D := ⟨max stored (observer.cached.version + 1), hosts⟩
    (⟨stored, next, nextSignature⟩, next)
  else (observer, observer.cached)

inductive Label (D : Type) where
  /-- The interval of the heartbeat. -/
  | beat
  | setStatus (status : HostStatus)
  /-- An upsert is carried out. -/
  | land (k : Nat)
  /-- Its promise settles. -/
  | answer (k : Nat) (ok : Bool)
  /-- `bumpVersion` of a call of `setStatus`; where it fails, the call does not resolve. -/
  | bump (c : Nat)
  /-- The host's row runs out. -/
  | expire
  /-- The other hosts write, or their rows run out. -/
  | other (rows : List (HostDescriptor D)) (version : Int)
  /-- Another host looks on. -/
  | observe
  | refresh (observer : Nat)
  | readVersion (r : Nat)
  | readRows (r : Nat)
  | settle (r : Nat)

def step : Label D → Option (Published D)
  | .beat => some s.writeSelf
  | .setStatus status => some (s.setStatus status)
  | .land k =>
      match s.upserts[k]? with
      | some upsert =>
          if upsert.landed then none
          else
            some { s with
              own := some upsert.status
              upserts := s.upserts.modify k fun u => { u with landed := true } }
      | none => none
  | .answer k ok =>
      match s.upserts[k]? with
      | some upsert =>
          if upsert.answered.isSome || (ok && !upsert.landed) then none
          else some { s with upserts := s.upserts.modify k fun u => { u with answered := some ok } }
      | none => none
  | .bump c =>
      match s.settings[c]? with
      | some setting =>
          if setting.resolved || (s.upserts[setting.upsert]?).bind (·.answered) ≠ some true then none
          else
            some { s with
              version := s.version + 1
              settings := s.settings.modify c fun c => { c with resolved := true } }
      | none => none
  | .expire => some { s with own := none }
  | .other rows version =>
      if ∀ h ∈ rows, Minted h.hostId ∧ h.hostId ≠ s.hostId then
        some { s with others := rows, version := version }
      else none
  | .observe => some { s with observers := s.observers ++ [{}] }
  | .refresh observer =>
      if observer < s.observers.length then
        some { s with refreshes := s.refreshes ++ [{
          observer := observer
          since := (s.settings.filter (·.resolved)).map (·.status) }] }
      else none
  | .readVersion r =>
      match s.refreshes[r]? with
      | some refresh =>
          if refresh.version.isSome then none
          else
            some { s with
              refreshes := s.refreshes.modify r fun r => { r with version := some s.version } }
      | none => none
  | .readRows r =>
      match s.refreshes[r]? with
      | some refresh =>
          if refresh.rows.isSome then none
          else
            some { s with refreshes := s.refreshes.modify r fun r => { r with rows := some s.rows } }
      | none => none
  | .settle r =>
      match s.refreshes[r]? with
      | some refresh =>
          match refresh.shown, refresh.version, refresh.rows, s.observers[refresh.observer]? with
          | none, some stored, some hosts, some observer =>
              some { s with
                observers := s.observers.modify refresh.observer fun _ =>
                  (apply observer stored hosts).1
                refreshes := s.refreshes.modify r fun r =>
                  { r with shown := some (apply observer stored hosts).2 } }
          | _, _, _, _ => none
      | none => none

/-- The host has joined. -/
def initial (s : Published D) : Prop :=
  ∃ hostId rest status others version, Minted hostId ∧
    (∀ h ∈ others, Minted h.hostId ∧ h.hostId ≠ hostId) ∧
    s = {
      hostId := hostId, rest := rest, statuses := [status], own := some 0, others := others
      version := version }

end Published

/-- The machine of one host's row, and of those who read it. -/
def pgStatus (D : Type) : Machine.System (Published D) (Published.Label D) where
  initial := Published.initial
  step := Published.step

/-! ## Signatures -/

theorem mem_insertText {text x : String} {l : List String} :
    x ∈ insertText text l ↔ x = text ∨ x ∈ l := by
  induction l with
  | nil => exact List.mem_singleton.trans (or_iff_left List.not_mem_nil).symm
  | cons head tail ih =>
    unfold insertText
    split
    · exact List.mem_cons
    · rw [List.mem_cons, ih, List.mem_cons, or_left_comm]

theorem mem_sortTexts {x : String} {l : List String} : x ∈ sortTexts l ↔ x ∈ l := by
  induction l with
  | nil => exact Iff.rfl
  | cons text l ih => rw [sortTexts, mem_insertText, ih, List.mem_cons]

/-- `hostId:status`. -/
def token (h : HostDescriptor D) : String := h.hostId ++ ":" ++ h.status.text

theorem toList_token (h : HostDescriptor D) :
    (token h).toList = h.hostId.toList ++ ':' :: h.status.text.toList := by
  unfold token
  rw [String.toList_append, String.toList_append, List.append_assoc]
  rfl

theorem status_text_clean (status : HostStatus) :
    ':' ∉ status.text.toList ∧ ',' ∉ status.text.toList := by
  cases status <;> decide

theorem status_text_inj {status status' : HostStatus} (h : status.text = status'.text) :
    status = status' := by
  cases status <;> cases status' <;> first | rfl | exact absurd h (by decide)

variable {h : HostDescriptor D}

theorem token_inj {h' : HostDescriptor D} (heq : token h = token h') :
    h.hostId = h'.hostId ∧ h.status = h'.status := by
  have hlists := congrArg String.toList heq
  rw [toList_token, toList_token] at hlists
  obtain ⟨hid, hstatus⟩ := Codec.append_cons_inj (status_text_clean h.status).1
    (status_text_clean h'.status).1 hlists
  exact ⟨String.toList_inj.1 hid, status_text_inj (String.toList_inj.1 hstatus)⟩

theorem token_clean (hminted : Minted h.hostId) : ',' ∉ (token h).toList := by
  rw [toList_token, List.mem_append, List.mem_cons]
  rintro (hid | hcolon | hstatus)
  · exact hminted hid
  · exact absurd hcolon (by decide)
  · exact (status_text_clean h.status).2 hstatus

/-- Tables of one signature have the same hosts, and these the same statuses. -/
theorem signature_inj {hosts hosts' : List (HostDescriptor D)}
    (hminted : ∀ h ∈ hosts, Minted h.hostId) (hminted' : ∀ h ∈ hosts', Minted h.hostId)
    (heq : signatureOf hosts = signatureOf hosts') (hmem : h ∈ hosts) :
    ∃ h' ∈ hosts', h'.hostId = h.hostId ∧ h'.status = h.status := by
  have htokens : ∀ {hosts : List (HostDescriptor D)}, (∀ h ∈ hosts, Minted h.hostId) →
      ∀ l ∈ (sortTexts (hosts.map token)).map String.toList, l ≠ [] ∧ ',' ∉ l := by
    intro hosts hminted l hl
    obtain ⟨text, htext, rfl⟩ := List.mem_map.1 hl
    obtain ⟨h, hmem, rfl⟩ := List.mem_map.1 (mem_sortTexts.1 htext)
    refine ⟨?_, token_clean (hminted h hmem)⟩
    rw [toList_token]
    exact List.append_ne_nil_of_right_ne_nil _ nofun
  have hlists : [','].intercalate ((sortTexts (hosts.map token)).map String.toList) =
      [','].intercalate ((sortTexts (hosts'.map token)).map String.toList) := by
    have hboth := congrArg String.toList heq
    unfold signatureOf at hboth
    rw [String.toList_intercalate, String.toList_intercalate] at hboth
    exact hboth
  have hin : (token h).toList ∈ (sortTexts (hosts.map token)).map String.toList :=
    List.mem_map_of_mem (mem_sortTexts.2 (List.mem_map_of_mem hmem))
  have hclean := htokens hminted
  have hclean' := htokens hminted'
  generalize (sortTexts (hosts.map token)).map String.toList = l at hlists hin hclean
  have hin' : (token h).toList ∈ (sortTexts (hosts'.map token)).map String.toList := by
    generalize (sortTexts (hosts'.map token)).map String.toList = l' at hlists hclean'
    have hne : l ≠ [] := List.ne_nil_of_mem hin
    have hsplit := List.splitOn_intercalate ',' (fun a ha => (hclean a ha).2) hne
    rw [hlists] at hsplit
    cases l' with
    | nil =>
      have hempty : (token h).toList = [] := by
        rw [← hsplit] at hin
        exact List.mem_singleton.1 hin
      exact absurd hempty (hclean _ hin).1
    | cons a l' =>
      rw [List.splitOn_intercalate ',' (fun a ha => (hclean' a ha).2) nofun] at hsplit
      exact hsplit ▸ hin
  obtain ⟨text, htext, htoList⟩ := List.mem_map.1 hin'
  obtain ⟨h', hmem', rfl⟩ := List.mem_map.1 (mem_sortTexts.1 htext)
  obtain ⟨hid, hstatus⟩ := token_inj (String.toList_inj.1 htoList)
  exact ⟨h', hmem', hid, hstatus⟩

/-! ## The row goes on -/

namespace Published

variable {s t : Published D} {hosts : List (HostDescriptor D)} {e k : Nat}

/-- An upsert is not carried out after one that has captured a later status. -/
def InOrder (s : Published D) : Label D → Prop
  | .land k => ∀ u ∈ s.upserts[k]?, ∀ v ∈ s.upserts, v.landed = true → v.status ≤ u.status
  | _ => True

instance (s : Published D) (l : Label D) : Decidable (InOrder s l) := by
  cases l <;> unfold InOrder <;> infer_instance

/-- A table shows the host with the status `e` or a later one. -/
def ShowsSince (s : Published D) (e : Nat) (hosts : List (HostDescriptor D)) : Prop :=
  ∀ h ∈ hosts, h.hostId = s.hostId → ∃ e' ≥ e, s.statuses[e']? = some h.status

/-- An upsert with the status has been carried out. -/
def LandedWith (s : Published D) (e : Nat) : Prop := ∃ u ∈ s.upserts, u.landed = true ∧ u.status = e

/-- What holds of a call of `refresh`. -/
structure RefreshOk (s : Published D) (refresh : Refresh D) : Prop where
  landed : ∀ e ∈ refresh.since, s.LandedWith e
  rows : ∀ hosts, refresh.rows = some hosts →
    (∀ h ∈ hosts, Minted h.hostId) ∧ ∀ e ∈ refresh.since, s.ShowsSince e hosts
  shown : ∀ view, refresh.shown = some view → ∀ e ∈ refresh.since, s.ShowsSince e view.hosts

/-- What holds of the membership of some host. -/
structure ObserverOk (observer : Observer D) : Prop where
  signature : observer.signature = signatureOf observer.cached.hosts
  minted : ∀ h ∈ observer.cached.hosts, Minted h.hostId

/-- What holds in every run whose upserts are carried out in order. -/
structure Sound (s : Published D) : Prop where
  minted : Minted s.hostId
  others : ∀ h ∈ s.others, Minted h.hostId ∧ h.hostId ≠ s.hostId
  own : ∀ e, s.own = some e → ∀ u ∈ s.upserts, u.landed = true → u.status ≤ e
  answered : ∀ u ∈ s.upserts, u.answered = some true → u.landed = true
  written : ∀ c ∈ s.settings, ∃ u, s.upserts[c.upsert]? = some u ∧ u.status = c.status
  resolved : ∀ c ∈ s.settings, c.resolved = true → s.LandedWith c.status
  observers : ∀ o ∈ s.observers, ObserverOk o
  refreshes : ∀ r ∈ s.refreshes, RefreshOk s r

/-- What the table shows is not older than what was carried out. -/
theorem Sound.rows (h : s.Sound) : (∀ r ∈ s.rows, Minted r.hostId) ∧
    ∀ e, s.LandedWith e → s.ShowsSince e s.rows := by
  have hown : ∀ r ∈ (s.own.bind s.descriptor).toList, ∃ e, s.own = some e ∧
      ∃ status, s.statuses[e]? = some status ∧ r = ⟨s.hostId, status, s.rest⟩ := by
    intro r hr
    obtain ⟨e, he, hdescriptor⟩ := Option.bind_eq_some_iff.1 (Option.mem_toList.1 hr)
    obtain ⟨status, hstatus, rfl⟩ := Option.map_eq_some_iff.1 hdescriptor
    exact ⟨e, he, status, hstatus, rfl⟩
  constructor
  · intro r hr
    rcases List.mem_append.1 hr with hr | hr
    · exact (h.others r hr).1
    · obtain ⟨-, -, status, -, rfl⟩ := hown r hr
      exact h.minted
  · rintro e ⟨u, hu, hlanded, rfl⟩ r hr hid
    rcases List.mem_append.1 hr with hr | hr
    · exact absurd hid (h.others r hr).2
    · obtain ⟨e', he', status, hstatus, rfl⟩ := hown r hr
      exact ⟨e', h.own e' he' u hu hlanded, hstatus⟩

/-- What is shown is what was read, or a view that has the same hosts with the same statuses. -/
theorem apply_shows {observer : Observer D} (stored : Int) (ho : ObserverOk observer)
    (hminted : ∀ h ∈ hosts, Minted h.hostId) : ObserverOk (apply observer stored hosts).1 ∧
      ∀ h ∈ (apply observer stored hosts).2.hosts,
        ∃ h' ∈ hosts, h'.hostId = h.hostId ∧ h'.status = h.status := by
  unfold apply
  dsimp only
  split
  · exact ⟨⟨rfl, hminted⟩, fun h hmem => ⟨h, hmem, rfl, rfl⟩⟩
  rename_i hchanged
  refine ⟨ho, fun h hmem => ?_⟩
  have hsame : signatureOf hosts = observer.signature :=
    Decidable.not_not.1 fun hne => hchanged (.inr hne)
  exact signature_inj ho.minted hminted (ho.signature.symm.trans hsame.symm) hmem

/-- Statuses and upserts have come, and none has gone. -/
structure Grows (s t : Published D) : Prop where
  hostId : t.hostId = s.hostId
  statuses : ∀ (e : Nat) (status : HostStatus), s.statuses[e]? = some status →
    t.statuses[e]? = some status
  landed : ∀ e, s.LandedWith e → t.LandedWith e

theorem Grows.shows (hgrows : Grows s t) (h : s.ShowsSince e hosts) : t.ShowsSince e hosts := by
  intro r hr hid
  obtain ⟨e', hle, hstatus⟩ := h r hr (hid.trans hgrows.hostId)
  exact ⟨e', hle, hgrows.statuses e' r.status hstatus⟩

theorem RefreshOk.grows {refresh : Refresh D} (h : RefreshOk s refresh) (hgrows : Grows s t) :
    RefreshOk t refresh where
  landed e he := hgrows.landed e (h.landed e he)
  rows hosts hrows :=
    ⟨(h.rows hosts hrows).1, fun e he => hgrows.shows ((h.rows hosts hrows).2 e he)⟩
  shown view hshown e he := hgrows.shows (h.shown view hshown e he)

theorem Grows.of_eq (hid : t.hostId = s.hostId) (hstatuses : t.statuses = s.statuses)
    (hupserts : t.upserts = s.upserts) : Grows s t where
  hostId := hid
  statuses _ _ hget := hstatuses ▸ hget
  landed _ := fun ⟨u, hu, hwhat⟩ => ⟨u, hupserts ▸ hu, hwhat⟩

/-- An upsert comes. -/
theorem Grows.writeSelf (s : Published D) : Grows s s.writeSelf where
  hostId := rfl
  statuses _ _ hget := hget
  landed _ := fun ⟨u, hu, hwhat⟩ => ⟨u, List.mem_append_left _ hu, hwhat⟩

theorem Sound.writeSelf (h : s.Sound) : s.writeSelf.Sound where
  minted := h.minted
  others := h.others
  own e he u hu hlanded := by
    rcases List.mem_append.1 hu with hu | hu
    · exact h.own e he u hu hlanded
    · obtain rfl := List.mem_singleton.1 hu
      cases hlanded
  answered u hu hanswered := by
    rcases List.mem_append.1 hu with hu | hu
    · exact h.answered u hu hanswered
    · obtain rfl := List.mem_singleton.1 hu
      cases hanswered
  written c hc := by
    obtain ⟨u, hget, hstatus⟩ := h.written c hc
    exact ⟨u, append_get _ hget, hstatus⟩
  resolved c hc hresolved := (Grows.writeSelf s).landed _ (h.resolved c hc hresolved)
  observers := h.observers
  refreshes r hr := (h.refreshes r hr).grows (Grows.writeSelf s)

theorem Sound.setStatus (h : s.Sound) (status : HostStatus) : (s.setStatus status).Sound := by
  have hgrows : Grows s (s.setStatus status) := {
    hostId := rfl
    statuses := fun e _ hget => append_get _ hget
    landed := fun _ ⟨u, hu, hwhat⟩ => ⟨u, List.mem_append_left _ hu, hwhat⟩ }
  refine ⟨h.minted, h.others, fun e he u hu hlanded => ?_, fun u hu hanswered => ?_, fun c hc => ?_,
    fun c hc hresolved => ?_, h.observers, fun r hr => (h.refreshes r hr).grows hgrows⟩
  · rcases List.mem_append.1 hu with hu | hu
    · exact h.own e he u hu hlanded
    · obtain rfl := List.mem_singleton.1 hu
      cases hlanded
  · rcases List.mem_append.1 hu with hu | hu
    · exact h.answered u hu hanswered
    · obtain rfl := List.mem_singleton.1 hu
      cases hanswered
  · rcases List.mem_append.1 hc with hc | hc
    · obtain ⟨u, hget, hstatus⟩ := h.written c hc
      exact ⟨u, append_get _ hget, hstatus⟩
    · obtain rfl := List.mem_singleton.1 hc
      refine ⟨_, List.getElem?_concat_length, ?_⟩
      rw [List.length_append]
      rfl
  · rcases List.mem_append.1 hc with hc | hc
    · exact hgrows.landed _ (h.resolved c hc hresolved)
    · obtain rfl := List.mem_singleton.1 hc
      cases hresolved

/-- An upsert is carried out, or it is answered. -/
theorem Grows.modify {f : Upsert → Upsert} (hf : ∀ u, (f u).status = u.status)
    (hlanded : ∀ u, u.landed = true → (f u).landed = true) (own : Option Nat) (k : Nat) :
    Grows s { s with own := own, upserts := s.upserts.modify k f } where
  hostId := rfl
  statuses _ _ hget := hget
  landed e := by
    rintro ⟨u, hu, hl, rfl⟩
    obtain ⟨j, hj⟩ := List.mem_iff_getElem?.1 hu
    by_cases hjk : j = k
    · subst hjk
      exact ⟨f u, List.mem_of_getElem? (modify_get_self f hj), hlanded u hl, hf u⟩
    · exact ⟨u, List.mem_of_getElem? ((modify_get_other f hjk).trans hj), hl, rfl⟩

theorem written_modify {f : Upsert → Upsert} (hf : ∀ u, (f u).status = u.status) (h : s.Sound)
    {c : Setting} (hc : c ∈ s.settings) (k : Nat) :
    ∃ u, (s.upserts.modify k f)[c.upsert]? = some u ∧ u.status = c.status := by
  obtain ⟨u, hget, hstatus⟩ := h.written c hc
  by_cases hk : c.upsert = k
  · subst hk
    exact ⟨f u, modify_get_self f hget, (hf u).trans hstatus⟩
  · exact ⟨u, (modify_get_other f hk).trans hget, hstatus⟩

theorem Sound.land (h : s.Sound) {upsert : Upsert} (hget : s.upserts[k]? = some upsert)
    (hok : ∀ v ∈ s.upserts, v.landed = true → v.status ≤ upsert.status) :
    Sound { s with
      own := some upsert.status
      upserts := s.upserts.modify k fun u => { u with landed := true } } := by
  have hgrows : Grows s { s with
      own := some upsert.status
      upserts := s.upserts.modify k fun u => { u with landed := true } } :=
    Grows.modify (f := fun u => { u with landed := true }) (fun _ => rfl) (fun _ _ => rfl)
      (some upsert.status) k
  refine ⟨h.minted, h.others, fun e he u hu hlanded => ?_, fun u hu hanswered => ?_,
    fun c hc => written_modify (f := fun u => { u with landed := true }) (fun _ => rfl) h hc k,
    fun c hc hresolved => hgrows.landed _ (h.resolved c hc hresolved), h.observers,
    fun r hr => (h.refreshes r hr).grows hgrows⟩
  · cases he
    obtain ⟨j, hj⟩ := List.mem_iff_getElem?.1 hu
    rcases of_modify_get hj with ⟨u₀, rfl, hu₀, rfl⟩ | ⟨-, hu₀⟩
    · cases hget.symm.trans hu₀
      exact Nat.le_refl _
    · exact hok u (List.mem_of_getElem? hu₀) hlanded
  · obtain ⟨j, hj⟩ := List.mem_iff_getElem?.1 hu
    rcases of_modify_get hj with ⟨u₀, rfl, hu₀, rfl⟩ | ⟨-, hu₀⟩
    · rfl
    · exact h.answered u (List.mem_of_getElem? hu₀) hanswered

theorem Sound.answer (h : s.Sound) {upsert : Upsert} {ok : Bool} (hget : s.upserts[k]? = some upsert)
    (hok : ok = true → upsert.landed = true) :
    Sound { s with upserts := s.upserts.modify k fun u => { u with answered := some ok } } := by
  have hgrows : Grows s { s with
      upserts := s.upserts.modify k fun u => { u with answered := some ok } } :=
    Grows.modify (f := fun u => { u with answered := some ok }) (fun _ => rfl) (fun _ hl => hl) s.own k
  refine ⟨h.minted, h.others, fun e he u hu hlanded => ?_, fun u hu hanswered => ?_,
    fun c hc => written_modify (f := fun u => { u with answered := some ok }) (fun _ => rfl) h hc k,
    fun c hc hresolved => hgrows.landed _ (h.resolved c hc hresolved), h.observers,
    fun r hr => (h.refreshes r hr).grows hgrows⟩
  · obtain ⟨j, hj⟩ := List.mem_iff_getElem?.1 hu
    rcases of_modify_get hj with ⟨u₀, rfl, hu₀, rfl⟩ | ⟨-, hu₀⟩
    · exact h.own e he u₀ (List.mem_of_getElem? hu₀) hlanded
    · exact h.own e he u (List.mem_of_getElem? hu₀) hlanded
  · obtain ⟨j, hj⟩ := List.mem_iff_getElem?.1 hu
    rcases of_modify_get hj with ⟨u₀, rfl, hu₀, rfl⟩ | ⟨-, hu₀⟩
    · cases hget.symm.trans hu₀
      exact hok (Option.some.inj hanswered)
    · exact h.answered u (List.mem_of_getElem? hu₀) hanswered

theorem Sound.bump (h : s.Sound) {c : Nat} {setting : Setting} (hget : s.settings[c]? = some setting)
    (hanswered : (s.upserts[setting.upsert]?).bind (·.answered) = some true) :
    Sound { s with
      version := s.version + 1
      settings := s.settings.modify c fun c => { c with resolved := true } } where
  minted := h.minted
  others := h.others
  own := h.own
  answered := h.answered
  written c' hc' := by
    obtain ⟨j, hj⟩ := List.mem_iff_getElem?.1 hc'
    rcases of_modify_get hj with ⟨c₀, rfl, hc₀, rfl⟩ | ⟨-, hc₀⟩
    · exact h.written c₀ (List.mem_of_getElem? hc₀)
    · exact h.written c' (List.mem_of_getElem? hc₀)
  resolved c' hc' hresolved := by
    obtain ⟨j, hj⟩ := List.mem_iff_getElem?.1 hc'
    rcases of_modify_get hj with ⟨c₀, rfl, hc₀, rfl⟩ | ⟨-, hc₀⟩
    · cases hget.symm.trans hc₀
      obtain ⟨u, hu, hstatus⟩ := h.written setting (List.mem_of_getElem? hget)
      rw [hu] at hanswered
      have hmem := List.mem_of_getElem? hu
      exact ⟨u, hmem, h.answered u hmem hanswered, hstatus⟩
    · exact h.resolved c' (List.mem_of_getElem? hc₀) hresolved
  observers := h.observers
  refreshes r hr := (h.refreshes r hr).grows (.of_eq rfl rfl rfl)

/-- A call of `refresh` goes on. -/
theorem Sound.modifyRefresh (h : s.Sound) {r : Nat} {refresh : Refresh D} {f : Refresh D → Refresh D}
    {observers : List (Observer D)} (hget : s.refreshes[r]? = some refresh)
    (hf : RefreshOk s (f refresh)) (hobservers : ∀ o ∈ observers, ObserverOk o) :
    Sound { s with observers := observers, refreshes := s.refreshes.modify r f } where
  minted := h.minted
  others := h.others
  own := h.own
  answered := h.answered
  written := h.written
  resolved := h.resolved
  observers := hobservers
  refreshes r' hr' := by
    refine RefreshOk.grows (s := s) ?_ (.of_eq rfl rfl rfl)
    obtain ⟨j, hj⟩ := List.mem_iff_getElem?.1 hr'
    rcases of_modify_get hj with ⟨r₀, rfl, hr₀, rfl⟩ | ⟨-, hr₀⟩
    · cases hget.symm.trans hr₀
      exact hf
    · exact h.refreshes r' (List.mem_of_getElem? hr₀)

/-- What the host's upserts are not about. -/
theorem Sound.rest (h : s.Sound) {own : Option Nat} {others : List (HostDescriptor D)} {version : Int}
    {observers : List (Observer D)} (hown : own = s.own ∨ own = none)
    (hothers : ∀ r ∈ others, Minted r.hostId ∧ r.hostId ≠ s.hostId)
    (hobservers : ∀ o ∈ observers, ObserverOk o) :
    Sound { s with own := own, others := others, version := version, observers := observers } where
  minted := h.minted
  others := hothers
  own e he := by
    rcases hown with rfl | rfl
    · exact h.own e he
    · cases he
  answered := h.answered
  written := h.written
  resolved := h.resolved
  observers := hobservers
  refreshes r hr := (h.refreshes r hr).grows (.of_eq rfl rfl rfl)

theorem Sound.refresh (h : s.Sound) (observer : Nat) :
    Sound { s with refreshes := s.refreshes ++ [{
      observer := observer
      since := (s.settings.filter (·.resolved)).map (·.status) }] } where
  minted := h.minted
  others := h.others
  own := h.own
  answered := h.answered
  written := h.written
  resolved := h.resolved
  observers := h.observers
  refreshes r hr := by
    refine RefreshOk.grows (s := s) ?_ (.of_eq rfl rfl rfl)
    rcases List.mem_append.1 hr with hr | hr
    · exact h.refreshes r hr
    obtain rfl := List.mem_singleton.1 hr
    refine ⟨fun e he => ?_, nofun, nofun⟩
    obtain ⟨c, hc, rfl⟩ := List.mem_map.1 he
    obtain ⟨hmem, hresolved⟩ := List.mem_filter.1 hc
    exact h.resolved c hmem hresolved

theorem Sound.step (h : s.Sound) {l : Label D} (hok : InOrder s l) (hstep : s.step l = some t) :
    t.Sound := by
  cases l with unfold Published.step at hstep
  | beat =>
    cases hstep
    exact h.writeSelf
  | setStatus status =>
    cases hstep
    exact h.setStatus status
  | land k =>
    dsimp only at hstep
    split at hstep
    · rename_i upsert hget
      obtain ⟨-, rfl⟩ := guard_past_taken hstep
      exact h.land hget (hok upsert hget)
    · cases hstep
  | answer k ok =>
    dsimp only at hstep
    split at hstep
    · rename_i upsert hget
      obtain ⟨hguard, rfl⟩ := guard_past_taken hstep
      refine h.answer hget fun htrue => ?_
      subst htrue
      cases hlanded : upsert.landed with
      | true => rfl
      | false =>
        rw [hlanded] at hguard
        exact absurd (Bool.or_true _) hguard
    · cases hstep
  | bump c =>
    dsimp only at hstep
    split at hstep
    · rename_i setting hget
      obtain ⟨hguard, rfl⟩ := guard_past_taken hstep
      refine h.bump hget (Decidable.not_not.1 fun hne => hguard ?_)
      rw [decide_eq_true hne, Bool.or_true]
    · cases hstep
  | expire =>
    cases hstep
    exact h.rest (.inr rfl) h.others h.observers
  | other rows version =>
    obtain ⟨hrows, rfl⟩ := guard_taken hstep
    exact h.rest (.inl rfl) hrows h.observers
  | observe =>
    cases hstep
    refine h.rest (.inl rfl) h.others fun o ho => ?_
    rcases List.mem_append.1 ho with ho | ho
    · exact h.observers o ho
    · obtain rfl := List.mem_singleton.1 ho
      exact ⟨rfl, nofun⟩
  | refresh observer =>
    obtain ⟨-, rfl⟩ := guard_taken hstep
    exact h.refresh observer
  | readVersion r =>
    dsimp only at hstep
    split at hstep
    · rename_i refresh hget
      obtain ⟨-, rfl⟩ := guard_past_taken hstep
      have hrefresh := h.refreshes refresh (List.mem_of_getElem? hget)
      exact h.modifyRefresh hget { hrefresh with } h.observers
    · cases hstep
  | readRows r =>
    dsimp only at hstep
    split at hstep
    · rename_i refresh hget
      obtain ⟨-, rfl⟩ := guard_past_taken hstep
      have hrefresh := h.refreshes refresh (List.mem_of_getElem? hget)
      refine h.modifyRefresh hget { hrefresh with rows := fun hosts hrows => ?_ } h.observers
      cases hrows
      exact ⟨h.rows.1, fun e he => h.rows.2 e (hrefresh.landed e he)⟩
    · cases hstep
  | settle r =>
    dsimp only at hstep
    split at hstep
    · rename_i refresh hget
      split at hstep
      · rename_i stored hosts observer hshown hversion hrows hobserver
        cases hstep
        have hrefresh := h.refreshes refresh (List.mem_of_getElem? hget)
        obtain ⟨hminted, hsince⟩ := hrefresh.rows hosts hrows
        obtain ⟨hok', hshows⟩ :=
          apply_shows stored (h.observers observer (List.mem_of_getElem? hobserver)) hminted
        refine h.modifyRefresh hget { hrefresh with shown := fun view hview e he x hx hid => ?_ }
          fun o ho => ?_
        · cases hview
          obtain ⟨x', hx', hid', hstatus⟩ := hshows x hx
          rw [← hstatus]
          exact hsince e he x' hx' (hid'.trans hid)
        · obtain ⟨j, hj⟩ := List.mem_iff_getElem?.1 ho
          rcases of_modify_get hj with ⟨o₀, -, -, rfl⟩ | ⟨-, ho₀⟩
          · exact hok'
          · exact h.observers o (List.mem_of_getElem? ho₀)
      · cases hstep
    · cases hstep

theorem Sound.reach (h : (pgStatus D).Reach InOrder s) : s.Sound := by
  refine h.invariant (fun u hinit => ?_) fun u l u' hu hok hstep => hu.step hok hstep
  obtain ⟨hostId, rest, status, others, version, hminted, hothers, rfl⟩ := hinit
  exact ⟨hminted, hothers, nofun, nofun, nofun, nofun, nofun, nofun⟩

/-- Where no upsert is carried out after one that has captured a later status, a refresh that began
after a call of `setStatus` had resolved shows the host with the status of that call or a later one:
with that of the call, where there was none later. -/
theorem status_goes_on (h : (pgStatus D).Reach InOrder s) :
    ∀ r ∈ s.refreshes, ∀ view, r.shown = some view → ∀ e ∈ r.since, ∀ x ∈ view.hosts,
      x.hostId = s.hostId → (∃ e' ≥ e, s.statuses[e']? = some x.status) ∧
        (s.statuses.length = e + 1 → s.statuses[e]? = some x.status) := by
  intro r hr view hview e he x hx hid
  obtain ⟨e', hle, hstatus⟩ := ((Sound.reach h).refreshes r hr).shown view hview e he x hx hid
  refine ⟨⟨e', hle, hstatus⟩, fun hlast => ?_⟩
  have hlt : e' < s.statuses.length := lt_of_get hstatus
  obtain rfl : e' = e := by omega
  exact hstatus

/-- The host has joined, and it is active. -/
def joined : Published Unit :=
  { hostId := "s.a", rest := (), statuses := [.active], own := some 0, others := [], version := 1 }

theorem joined_initial : initial joined :=
  ⟨"s.a", (), .active, [], 1, by decide, nofun, rfl⟩

/-- The host leaves, with a heartbeat in between, and another host looks on. -/
def leavingRun : List (Label Unit) :=
  [.observe, .beat, .land 0, .setStatus .leaving, .land 1, .answer 1 true, .bump 0, .refresh 0,
    .readVersion 0, .readRows 0, .settle 0]

def leavingEnd : Published Unit :=
  ((pgStatus Unit).exec InOrder joined leavingRun).get (by decide)

theorem status_goes_on_leaving : (leavingEnd.refreshes.map fun r => r.since) = [[1]] ∧
      ∀ r ∈ leavingEnd.refreshes, ∀ view, r.shown = some view → ∀ e ∈ r.since, ∀ x ∈ view.hosts,
        x.hostId = "s.a" → (∃ e' ≥ e, leavingEnd.statuses[e']? = some x.status) ∧
          (leavingEnd.statuses.length = e + 1 → leavingEnd.statuses[e]? = some x.status) := by
  have hstart : (pgStatus Unit).Reach InOrder joined := .start joined_initial
  exact ⟨by decide, status_goes_on (hstart.exec_get leavingRun (by decide))⟩

/-- The heartbeat is carried out after the upsert of `setStatus`, which it was handed over before. -/
def lateBeatRun : List (Label Unit) :=
  [.observe, .beat, .setStatus .leaving, .land 1, .answer 1 true, .bump 0, .land 0, .refresh 0,
    .readVersion 0, .readRows 0, .settle 0]

def lateBeatEnd : Published Unit :=
  ((pgStatus Unit).exec (fun _ _ => True) joined lateBeatRun).get (by decide)

/-- `setStatus('leaving')` has resolved, and a refresh that began then shows the host as active. -/
theorem not_status_goes_on :
    (pgStatus Unit).Reachable lateBeatEnd ∧ lateBeatEnd.statuses = [.active, .leaving] ∧
      (lateBeatEnd.refreshes.map fun r => (r.since, r.shown)) =
        [([1], some ⟨2, [⟨"s.a", .active, ()⟩]⟩)] := by
  have hstart : (pgStatus Unit).Reachable joined := .start joined_initial
  exact ⟨hstart.exec_get lateBeatRun (by decide), by decide, by decide⟩

end Published

end SigxActors.Postgres
