/-
  Host/RosterFindable.lean --- a track that has resolved is found, or has been answered.

  What an adopter has loaded is what is stored for as long as its etag is current, so what
  it drops it has touched, and what the owner has written since it does not drop.

  Two writes go wrong.  A host that has registered once does not look at the index again,
  and writes rosters that the index no longer leads to.  And an adopter that has drained
  the shards of a host takes the host off the index whatever has been written since.
-/
import SigxActors.Host.RosterEdits
import SigxActors.Storage.Memory

set_option autoImplicit false

namespace SigxActors.Host

open SigxActors.Js SigxActors.Storage

variable {σ Etag : Type} {store : CasStore σ String Roster Unit Etag} {Issued : σ → String → Etag → Prop}

/-! ## The property -/

/-- The stored index names the host. -/
def listed (store : CasStore σ String Roster Unit Etag) (db : σ) (hostId : String) : Bool :=
  (store.load db rosterIndexKey).any fun record => record.state.has hostId

/-- The stored roster of the host has the actor. -/
def recorded (store : CasStore σ String Roster Unit Etag) (db : σ) (hostId id : String) : Bool :=
  (store.load db (rosterKey hostId (reminderShardOf id))).any fun record => record.state.has id

/-- No stored roster of the host has an entry. -/
def drained (store : CasStore σ String Roster Unit Etag) (db : σ) (hostId : String) : Bool :=
  reminderShardKeys.all fun p =>
    (store.load db (rosterKey hostId p)).all fun record => record.state.keys.isEmpty

/-- Every track that stands leads to the actor from the stored index, or the actor has been
touched since. -/
def RosterHost.Findable (h : RosterHost Etag) (store : CasStore σ String Roster Unit Etag) (db : σ) :
    Prop :=
  ∀ k c, h.Stands k c → c.touched = true ∨
    listed store db h.hostId = true ∧ recorded store db h.hostId (actorId c.ref) = true

/-- A roster is stored only while the index names its host, and a host is taken off the
index only while its rosters are empty. -/
def Rosters.KeepsIndex [DecidableEq Etag] (store : CasStore σ String Roster Unit Etag)
    (s : Rosters σ Etag) : RosterLabel → Prop
  | .write n p fault =>
      match s.hosts[n]? with
      | some h =>
          fault ≠ .failed → (h.shards p).etag = store.current s.db (rosterKey h.hostId p) →
            listed store s.db h.hostId = true
      | none => True
  | .saveForget n fault =>
      match s.hosts[n]? with
      | some h =>
          match h.adoption with
          | .savingForget visit record _ =>
              fault ≠ .failed → some record.etag = store.current s.db rosterIndexKey →
                drained store s.db visit.hostId = true
          | _ => True
      | none => True
  | _ => True

/-! ## What the store keeps -/

/-- A step of the store, as whoever has loaded a record sees it. -/
structure DbStep (store : CasStore σ String Roster Unit Etag) (Issued : σ → String → Etag → Prop)
    (db db' : σ) : Prop where
  seen : ∀ key record, store.Seen Issued db key record → store.Seen Issued db' key record
  back : ∀ key record, store.Seen Issued db key record →
    store.current db' key = some record.etag → store.current db key = some record.etag

theorem DbStep.refl (db : σ) : DbStep store Issued db db := ⟨fun _ _ => id, fun _ _ _ => id⟩

variable {hostId : String} {id : String}

section

variable {db db' : σ} {key : String} {table : Roster} {expected : Option Etag} {etag : Etag}
  {record : Record Roster Unit Etag}

theorem DbStep.save (tokens : store.TokenLaws) (laws : store.RecordLaws)
    (unique : store.UniqueEtags Issued)
    (hsave : store.save db key table expected = some (db', etag)) : DbStep store Issued db db' := by
  refine ⟨fun j record hseen => hseen.save laws unique hsave, ?_⟩
  intro j record hseen hcurrent
  by_cases hj : j = key
  · subst hj
    rw [tokens.save_current hsave] at hcurrent
    have hetag : etag = record.etag := Option.some.inj hcurrent
    exact absurd (hetag ▸ hseen.1) (unique.save_fresh hsave)
  · rwa [tokens.save_frame hsave j hj] at hcurrent

theorem DbStep.clear (tokens : store.TokenLaws) (laws : store.RecordLaws)
    (unique : store.UniqueEtags Issued) (hclear : store.clear db key expected = some db') :
    DbStep store Issued db db' := by
  refine ⟨fun j record hseen => hseen.clear laws unique hclear, ?_⟩
  intro j record hseen hcurrent
  by_cases hj : j = key
  · subst hj
    rw [tokens.clear_current hclear] at hcurrent
    simp at hcurrent
  · rwa [tokens.clear_frame hclear j hj] at hcurrent

/-- A record that was seen and whose etag is current is what is stored. -/
theorem load_of_seen (hseen : store.Seen Issued db key record)
    (hcurrent : store.current db key = some record.etag) : store.load db key = some record := by
  obtain ⟨stored, hload, hetag⟩ := Option.map_eq_some_iff.1 hcurrent
  rw [hload, hseen.2 stored hload hetag]

theorem listed_iff : listed store db hostId = true ↔
    ∃ record, store.load db rosterIndexKey = some record ∧ record.state.has hostId = true := by
  simp [listed, Option.any_eq_true]

theorem recorded_iff : recorded store db hostId id = true ↔
    ∃ record, store.load db (rosterKey hostId (reminderShardOf id)) = some record ∧
      record.state.has id = true := by
  simp [recorded, Option.any_eq_true]

/-- A step away from the index names whom it named. -/
theorem listed_frame (hindex : store.load db' rosterIndexKey = store.load db rosterIndexKey)
    (h : listed store db hostId = true) : listed store db' hostId = true := by
  rw [listed, hindex]
  exact h

theorem recorded_frame
    (hroster : store.load db' (rosterKey hostId (reminderShardOf id)) =
      store.load db (rosterKey hostId (reminderShardOf id)))
    (h : recorded store db hostId id = true) : recorded store db' hostId id = true := by
  rw [recorded, hroster]
  exact h

/-- A drained host has no actor. -/
theorem not_recorded_of_drained (h : drained store db hostId = true) :
    recorded store db hostId id = false := by
  have hshard := List.all_eq_true.1 h _ (reminderShardOf_mem id)
  cases hload : store.load db (rosterKey hostId (reminderShardOf id)) with
  | none => rw [recorded, hload]; rfl
  | some record =>
    rw [hload] at hshard
    have hkeys : record.state.keys = [] := List.isEmpty_iff.1 hshard
    have hnot : ¬ record.state.has id = true := by
      rw [JsMap.has_iff_mem_keys, hkeys]
      simp
    rw [recorded, hload]
    exact Bool.eq_false_iff.2 hnot

end

/-! ## The invariant -/

section

variable {s s' : Rosters σ Etag} {n m : Nat} {h h' : RosterHost Etag} {db' : σ}

/-- What a registration has loaded is what it found. -/
def RegistrationOk (store : CasStore σ String Roster Unit Etag) (Issued : σ → String → Etag → Prop)
    (db : σ) : Registration Etag → Prop
  | .saving index etag _ =>
      etag = none ∧ index = .empty ∨
        ∃ record, store.Seen Issued db rosterIndexKey record ∧ index = record.state ∧
          etag = some record.etag
  | _ => True

/-- What an adopter has loaded is what it found, and what it has touched since is answered
for as long as that is what is stored. -/
structure TouchOk (store : CasStore σ String Roster Unit Etag) (Issued : σ → String → Etag → Prop)
    (s : Rosters σ Etag) (visit : Visit) (record : Record Roster Unit Etag)
    (outcomes : List (String × Option Bool)) : Prop where
  shards : ∀ p ∈ visit.shards, p ∈ reminderShardKeys
  seen : ∀ p, visit.shards.head? = some p →
    store.Seen Issued s.db (rosterKey visit.hostId p) record
  keys : outcomes.map Prod.fst = record.state.keys
  answered : ∀ p, visit.shards.head? = some p →
    store.current s.db (rosterKey visit.hostId p) = some record.etag →
    ∀ id, (id, some true) ∈ outcomes → ∀ (m : Nat) (g : RosterHost Etag), s.hosts[m]? = some g →
      g.hostId = visit.hostId → ∀ k c, g.Stands k c → c.shard = p → actorId c.ref = id →
        c.touched = true

def AdoptionOk (store : CasStore σ String Roster Unit Etag) (Issued : σ → String → Etag → Prop)
    (s : Rosters σ Etag) : Adoption Etag → Prop
  | .loadingShard visit => ∀ p ∈ visit.shards, p ∈ reminderShardKeys
  | .touching visit record outcomes => TouchOk store Issued s visit record outcomes
  | .saving visit record outcomes =>
      TouchOk store Issued s visit record outcomes ∧ ∀ outcome ∈ outcomes, outcome.2.isSome = true
  | .savingForget _ record _ => store.Seen Issued s.db rosterIndexKey record
  | _ => True

structure Inv (store : CasStore σ String Roster Unit Etag) (Issued : σ → String → Etag → Prop)
    (s : Rosters σ Etag) : Prop where
  hosts : ∀ (m : Nat) (g : RosterHost Etag), s.hosts[m]? = some g → g.Ok
  distinct : ∀ (m m' : Nat) (g g' : RosterHost Etag), s.hosts[m]? = some g →
    s.hosts[m']? = some g' → g.hostId = g'.hostId → m = m'
  registering : ∀ (m : Nat) (g : RosterHost Etag), s.hosts[m]? = some g →
    RegistrationOk store Issued s.db g.registered
  adopting : ∀ (m : Nat) (g : RosterHost Etag), s.hosts[m]? = some g →
    AdoptionOk store Issued s g.adoption
  findable : ∀ (m : Nat) (g : RosterHost Etag), s.hosts[m]? = some g → g.Findable store s.db

/-- What stands after a step stood before it, but for the shards whose record is new. -/
def Grows (store : CasStore σ String Roster Unit Etag) (Issued : σ → String → Etag → Prop)
    (s s' : Rosters σ Etag) : Prop :=
  ∀ (m : Nat) (g' : RosterHost Etag) (k : Nat) (c' : TaskEdit), s'.hosts[m]? = some g' →
    g'.Stands k c' →
      (∃ g c, s.hosts[m]? = some g ∧ g.hostId = g'.hostId ∧ g.Stands k c ∧ c'.ref = c.ref ∧
        (c.touched = true → c'.touched = true)) ∨
      ∀ record, store.Seen Issued s.db (rosterKey g'.hostId c'.shard) record →
        store.current s'.db (rosterKey g'.hostId c'.shard) ≠ some record.etag

variable {outcomes : List (String × Option Bool)} {record : Record Roster Unit Etag}

theorem TouchOk.mono {visit : Visit}
    (hok : TouchOk store Issued s visit record outcomes)
    (hdb : DbStep store Issued s.db s'.db) (hgrows : Grows store Issued s s') :
    TouchOk store Issued s' visit record outcomes := by
  refine ⟨hok.shards, fun p hp => hdb.seen _ _ (hok.seen p hp), hok.keys, ?_⟩
  intro p hp hcurrent id hid m g' hg' hhost k c' hs hshard hact
  rcases hgrows m g' k c' hg' hs with ⟨g, c, hg, hsame, hsc, href, htouched⟩ | hnew
  · have hback := hdb.back _ _ (hok.seen p hp) hcurrent
    refine htouched (hok.answered p hp hback id hid m g hg (hsame.trans hhost) k c hsc ?_ ?_)
    · rw [TaskEdit.shard, ← href]
      exact hshard
    · rw [← href]
      exact hact
  · rw [hhost, hshard] at hnew
    exact absurd hcurrent (hnew record (hok.seen p hp))

theorem AdoptionOk.mono {adoption : Adoption Etag} (hok : AdoptionOk store Issued s adoption)
    (hdb : DbStep store Issued s.db s'.db) (hgrows : Grows store Issued s s') :
    AdoptionOk store Issued s' adoption := by
  cases adoption with
  | touching visit record outcomes => exact TouchOk.mono hok hdb hgrows
  | saving visit record outcomes => exact ⟨hok.1.mono hdb hgrows, hok.2⟩
  | savingForget visit record attempt => exact hdb.seen _ _ hok
  | loadingShard visit => exact hok
  | _ => trivial

theorem RegistrationOk.mono {db : σ} {registered : Registration Etag}
    (hok : RegistrationOk store Issued db registered) (hdb : DbStep store Issued db db') :
    RegistrationOk store Issued db' registered := by
  cases registered with
  | saving index etag attempt =>
    rcases hok with hok | ⟨record, hseen, hindex, hetag⟩
    · exact .inl hok
    · exact .inr ⟨record, hdb.seen _ _ hseen, hindex, hetag⟩
  | _ => trivial

/-- One host and the store take a step. -/
theorem Inv.step (hinv : Inv store Issued s) (hn : s.hosts[n]? = some h)
    (hdb : DbStep store Issued s.db db') (hid : h'.hostId = h.hostId) (hok : h'.Ok)
    (hreg : RegistrationOk store Issued s.db h'.registered)
    (hadopt : AdoptionOk store Issued s h'.adoption)
    (hgrows : ∀ k c', h'.Stands k c' →
      (∃ c, h.Stands k c ∧ c'.ref = c.ref ∧ (c.touched = true → c'.touched = true)) ∨
      ∀ record, store.Seen Issued s.db (rosterKey h.hostId c'.shard) record →
        store.current db' (rosterKey h.hostId c'.shard) ≠ some record.etag)
    (hfind : h'.Findable store db')
    (hothers : ∀ (m : Nat) (g : RosterHost Etag), m ≠ n → s.hosts[m]? = some g →
      g.Findable store db') :
    Inv store Issued ({ s with db := db' }.setHost n h') := by
  let t := ({ s with db := db' } : Rosters σ Etag).setHost n h'
  -- a host is the one that has moved or another
  have hcases : ∀ {m : Nat} {g : RosterHost Etag}, t.hosts[m]? = some g →
      m = n ∧ g = h' ∨ m ≠ n ∧ s.hosts[m]? = some g := by
    intro m g hg
    have hg' : (s.hosts.set n h')[m]? = some g := hg
    by_cases hm : m = n
    · rw [hm, List.getElem?_set_self (List.getElem?_eq_some_iff.1 hn).1] at hg'
      exact .inl ⟨hm, (Option.some.inj hg').symm⟩
    · rw [List.getElem?_set_ne (Ne.symm hm)] at hg'
      exact .inr ⟨hm, hg'⟩
  have hgrown : Grows store Issued s t := by
    intro m g' k c' hg' hs
    rcases hcases hg' with ⟨rfl, rfl⟩ | ⟨-, hg⟩
    · rw [hid]
      rcases hgrows k c' hs with ⟨c, hsc, href, htouched⟩ | hnew
      · exact .inl ⟨h, c, hn, rfl, hsc, href, htouched⟩
      · exact .inr hnew
    · exact .inl ⟨g', c', hg, rfl, hs, rfl, id⟩
  refine ⟨?_, ?_, ?_, ?_, ?_⟩
  · intro m g hg
    rcases hcases hg with ⟨-, rfl⟩ | ⟨-, hg⟩
    · exact hok
    · exact hinv.hosts m g hg
  · intro m m' g g' hg hg' heq
    rcases hcases hg with ⟨rfl, rfl⟩ | ⟨-, hold⟩
    · rcases hcases hg' with ⟨rfl, -⟩ | ⟨-, hold'⟩
      · rfl
      · exact hinv.distinct _ m' h g' hn hold' (hid.symm.trans heq)
    · rcases hcases hg' with ⟨rfl, rfl⟩ | ⟨-, hold'⟩
      · exact hinv.distinct m _ g h hold hn (heq.trans hid)
      · exact hinv.distinct m m' g g' hold hold' heq
  · intro m g hg
    rcases hcases hg with ⟨-, rfl⟩ | ⟨-, hg⟩
    · exact hreg.mono hdb
    · exact (hinv.registering m g hg).mono hdb
  · intro m g hg
    rcases hcases hg with ⟨-, rfl⟩ | ⟨-, hg⟩
    · exact hadopt.mono hdb hgrown
    · exact (hinv.adopting m g hg).mono hdb hgrown
  · intro m g hg
    rcases hcases hg with ⟨-, rfl⟩ | ⟨hm, hg⟩
    · exact hfind
    · exact hothers m g hm hg

theorem RosterHost.Findable.calm {db : σ} (hfind : h.Findable store db) (hcalm : h.Calm h') :
    h'.Findable store db := by
  intro k c' hs
  obtain ⟨c, hsc, href, htouched⟩ := hcalm.2 k c' hs
  rw [hcalm.1, href]
  exact (hfind k c hsc).imp htouched id

/-- A host takes a step away from the store. -/
theorem Inv.calm (hinv : Inv store Issued s) (hn : s.hosts[n]? = some h) (hok : h'.Ok)
    (hcalm : h.Calm h') (hreg : RegistrationOk store Issued s.db h'.registered)
    (hadopt : h'.adoption = h.adoption) : Inv store Issued (s.setHost n h') := by
  refine hinv.step hn (.refl s.db) hcalm.1 hok hreg ?_ ?_ ?_ ?_
  · rw [hadopt]
    exact hinv.adopting n h hn
  · intro k c' hs
    exact .inl (hcalm.2 k c' hs)
  · exact (hinv.findable n h hn).calm hcalm
  · intro m g _ hg
    exact hinv.findable m g hg

/-- An adopter takes a step, with the store or without it. -/
theorem Inv.adopt (hinv : Inv store Issued s) (hn : s.hosts[n]? = some h)
    (hdb : DbStep store Issued s.db db') {adoption : Adoption Etag}
    (hadopt : AdoptionOk store Issued s adoption)
    (hfind : ∀ (m : Nat) (g : RosterHost Etag), s.hosts[m]? = some g → g.Findable store db') :
    Inv store Issued ({ s with db := db' }.setAdoption n h adoption) := by
  have hcalm : h.Calm { h with adoption := adoption } := .of_edits rfl rfl
  refine hinv.step hn hdb rfl ((hinv.hosts n h hn).congr rfl rfl) (hinv.registering n h hn) hadopt ?_
    ((hfind n h hn).calm hcalm) (fun m g _ hg => hfind m g hg)
  intro k c' hs
  exact .inl (hcalm.2 k c' hs)

/-! ## The steps of the owner -/

variable {p : String}

section

variable (hinv : Inv store Issued s)
include hinv

theorem Inv.bind (hstep : s.bind hostId = some s') : Inv store Issued s' := by
  obtain ⟨hnew, rfl⟩ := guard_past_taken hstep
  have hcases : ∀ {m : Nat} {g : RosterHost Etag},
      (s.hosts ++ [({ hostId := hostId } : RosterHost Etag)])[m]? = some g →
        s.hosts[m]? = some g ∨ m = s.hosts.length ∧ g = { hostId := hostId } := by
    intro m g hg
    rcases Nat.lt_trichotomy m s.hosts.length with hlt | heq | hgt
    · rw [List.getElem?_append_left hlt] at hg
      exact .inl hg
    · subst heq
      rw [List.getElem?_append_right (Nat.le_refl _), Nat.sub_self] at hg
      exact .inr ⟨rfl, (Option.some.inj hg).symm⟩
    · rw [List.getElem?_eq_none (by simp; omega)] at hg
      simp at hg
  have hstands : ∀ k c, ¬ ({ hostId := hostId } : RosterHost Etag).Stands k c := by
    intro k c hs
    simpa using hs.edit
  have hfresh : ∀ (m : Nat) (g : RosterHost Etag), s.hosts[m]? = some g → g.hostId ≠ hostId := by
    intro m g hg heq
    exact hnew (.inr (.inr (List.mem_map.2 ⟨g, List.mem_of_getElem? hg, heq⟩)))
  have hgrown : Grows store Issued s { s with hosts := s.hosts ++ [{ hostId := hostId }] } := by
    intro m g' k c' hg' hs
    rcases hcases hg' with hg | ⟨-, rfl⟩
    · exact .inl ⟨g', c', hg, rfl, hs, rfl, id⟩
    · exact absurd hs (hstands k c')
  refine ⟨?_, ?_, ?_, ?_, ?_⟩
  · intro m g hg
    rcases hcases hg with hg | ⟨-, rfl⟩
    · exact hinv.hosts m g hg
    refine ⟨fun p => ?_, fun k e he => by simp at he⟩
    constructor
    case sorted => exact List.Pairwise.nil
    case mem => simp [RosterHost.unsettled, FlushPhase.batch]
    case first => simp
    case next => simp [FlushPhase.next]
    case active => exact fun hne => absurd rfl hne
    case stands => exact fun k c hs => absurd hs (hstands k c)
  · intro m m' g g' hg hg' heq
    rcases hcases hg with hold | ⟨hm, rfl⟩
    · rcases hcases hg' with hold' | ⟨-, rfl⟩
      · exact hinv.distinct m m' g g' hold hold' heq
      · exact absurd heq (hfresh m g hold)
    · rcases hcases hg' with hold' | ⟨hm', rfl⟩
      · exact absurd heq.symm (hfresh m' g' hold')
      · exact hm.trans hm'.symm
  · intro m g hg
    rcases hcases hg with hg | ⟨-, rfl⟩
    · exact hinv.registering m g hg
    · trivial
  · intro m g hg
    rcases hcases hg with hg | ⟨-, rfl⟩
    · exact (hinv.adopting m g hg).mono (.refl s.db) hgrown
    · trivial
  · intro m g hg
    rcases hcases hg with hg | ⟨-, rfl⟩
    · exact hinv.findable m g hg
    · exact fun k c hs => absurd hs (hstands k c)

theorem Inv.mutate {e : TaskEdit}
    (href : refOf (actorId e.ref) = some e.ref) (hout : e.outcome = none)
    (hstep : s.mutate n e = some s') : Inv store Issued s' := by
  unfold Rosters.mutate at hstep
  split at hstep
  · rename_i h hn
    cases hstep
    refine hinv.calm hn ((hinv.hosts n h hn).mutate href hout) (RosterHost.calm_mutate hout) ?_
      (h.adoption_mutate e)
    rcases h.registered_mutate e with heq | heq
    · rw [heq]
      exact hinv.registering n h hn
    · rw [heq]
      trivial
  · simp at hstep

theorem Inv.nextBatch (hn : s.hosts[n]? = some h)
    (hnext : h.NextBatch h') : Inv store Issued (s.setHost n h') := by
  refine hinv.calm hn hnext.ok hnext.calm ?_ hnext.adoption
  rw [hnext.registered]
  exact hinv.registering n h hn

theorem Inv.registerFailed (hn : s.hosts[n]? = some h) :
    Inv store Issued (s.setHost n h.registerFailed) := by
  have hfailed := (hinv.hosts n h hn).registerFailed
  refine hinv.calm hn hfailed.ok hfailed.calm ?_ hfailed.adoption
  rw [hfailed.registered]
  trivial

/-- The registration is somewhere else. -/
theorem Inv.setRegistered {registered : Registration Etag}
    (hn : s.hosts[n]? = some h) (hreg : RegistrationOk store Issued s.db registered) :
    Inv store Issued (s.setHost n { h with registered := registered }) :=
  hinv.calm hn ((hinv.hosts n h hn).congr rfl rfl) (.of_edits rfl rfl) hreg rfl

theorem Inv.registered (hstep : s.registered n p = some s') : Inv store Issued s' := by
  unfold Rosters.registered at hstep
  split at hstep
  · rename_i h hn
    split at hstep
    · rename_i hphase
      cases hstep
      exact hinv.nextBatch hn ((hinv.hosts n h hn).registered hphase)
    · simp at hstep
  · simp at hstep

end

variable {fault : Fault}

theorem Inv.loadIndex (unique : store.UniqueEtags Issued) (hinv : Inv store Issued s)
    (hstep : s.loadIndex store n fault = some s') : Inv store Issued s' := by
  unfold Rosters.loadIndex at hstep
  split at hstep
  · rename_i h hn
    split at hstep
    · split at hstep
      · dsimp only at hstep
        split at hstep
        · cases hstep
          exact hinv.setRegistered hn trivial
        · cases hstep
          refine hinv.setRegistered hn ?_
          cases hload : store.load s.db rosterIndexKey with
          | none => exact .inl ⟨rfl, rfl⟩
          | some record => exact .inr ⟨record, unique.seen_of_load hload, rfl, rfl⟩
      · cases hstep
        exact hinv.registerFailed hn
    · simp at hstep
  · simp at hstep

section

variable (tokens : store.TokenLaws) (laws : store.RecordLaws) (unique : store.UniqueEtags Issued)
    (hinv : Inv store Issued s)
include tokens laws unique hinv

/-- A registration that is stored takes no host off the index. -/
theorem Inv.registers {db' : σ} {etag : Etag} {index : Roster} {expected : Option Etag}
    {attempt now : Nat} (hn : s.hosts[n]? = some h)
    (hsaving : h.registered = .saving index expected attempt)
    (hsave : store.save s.db rosterIndexKey (index.set h.hostId now) expected = some (db', etag)) :
    Inv store Issued { s with db := db' } := by
  have hreg := hinv.registering n h hn
  rw [hsaving] at hreg
  have hkeeps : ∀ hostId, listed store s.db hostId = true → listed store db' hostId = true := by
    intro hostId hlisted
    obtain ⟨stored, hload, hhas⟩ := listed_iff.1 hlisted
    have hcurrent := tokens.save_expected hsave
    refine listed_iff.2 ⟨_, laws.load_save hsave, ?_⟩
    rcases hreg with ⟨rfl, -⟩ | ⟨record, hseen, rfl, rfl⟩
    · rw [CasStore.current_of_load hload] at hcurrent
      simp at hcurrent
    · rw [load_of_seen hseen hcurrent.symm] at hload
      cases hload
      exact JsMap.has_set _ _ hhas
  have hfind : ∀ (m : Nat) (g : RosterHost Etag), s.hosts[m]? = some g → g.Findable store db' := by
    intro m g hg k c hs
    refine (hinv.findable m g hg k c hs).imp id fun hfound => ⟨hkeeps _ hfound.1, ?_⟩
    exact recorded_frame (laws.load_save_frame hsave _ (rosterKey_ne _ _)) hfound.2
  have hset : ({ s with db := db' } : Rosters σ Etag).setHost n h = { s with db := db' } := by
    have hself : s.hosts.set n h = s.hosts := by
      obtain ⟨hlt, hget⟩ := List.getElem?_eq_some_iff.1 hn
      rw [← hget]
      exact List.set_getElem_self hlt
    show ({ db := db', hosts := s.hosts.set n h } : Rosters σ Etag) = _
    rw [hself]
  rw [← hset]
  refine hinv.step hn (.save tokens laws unique hsave) rfl (hinv.hosts n h hn)
    (hinv.registering n h hn) (hinv.adopting n h hn) ?_ (hfind n h hn) (fun m g _ hg => hfind m g hg)
  intro k c hs
  exact .inl ⟨c, hs, rfl, id⟩

theorem Inv.saveIndex {now : Nat}
    (hstep : s.saveIndex store n now fault = some s') : Inv store Issued s' := by
  unfold Rosters.saveIndex at hstep
  split at hstep
  · rename_i h hn
    split at hstep
    · rename_i index expected attempt hsaving
      split at hstep
      · cases hstep
        exact hinv.registerFailed hn
      · split at hstep
        · rename_i db' etag hsave
          have hsaved := hinv.registers tokens laws unique hn hsaving hsave
          split at hstep
          · cases hstep
            exact hsaved.setRegistered hn trivial
          · cases hstep
            exact hsaved.registerFailed hn
        · split at hstep
          · cases hstep
            exact hinv.setRegistered hn trivial
          · cases hstep
            exact hinv.registerFailed hn
    · simp at hstep
  · simp at hstep

/-- A roster that is stored while the index names its host leads to whoever stands. -/
theorem Inv.writes {db' : σ} {etag : Etag} {next : Roster} {expected : Option Etag} (hn : s.hosts[n]? = some h) (hp : p ∈ reminderShardKeys)
    (hsave : store.save s.db (rosterKey h.hostId p) next expected = some (db', etag))
    (hlisted : listed store s.db h.hostId = true) (hid : h'.hostId = h.hostId) (hok : h'.Ok)
    (hreg : h'.registered = h.registered) (hadopt : h'.adoption = h.adoption)
    (hin : ∀ k c', h'.Stands k c' → c'.shard = p → next.has (actorId c'.ref) = true)
    (hout : ∀ k c', h'.Stands k c' → c'.shard ≠ p →
      ∃ c, h.Stands k c ∧ c'.ref = c.ref ∧ (c.touched = true → c'.touched = true)) :
    Inv store Issued ({ s with db := db' }.setHost n h') := by
  have hindex : store.load db' rosterIndexKey = store.load s.db rosterIndexKey :=
    laws.load_save_frame hsave _ (rosterKey_ne _ _).symm
  refine hinv.step hn (.save tokens laws unique hsave) hid hok ?_ ?_ ?_ ?_ ?_
  · rw [hreg]
    exact hinv.registering n h hn
  · rw [hadopt]
    exact hinv.adopting n h hn
  · intro k c' hs
    by_cases hshard : c'.shard = p
    · refine .inr fun record hseen hcurrent => ?_
      rw [hshard] at hseen hcurrent
      rw [tokens.save_current hsave] at hcurrent
      have hetag : etag = record.etag := Option.some.inj hcurrent
      exact unique.save_fresh hsave (hetag ▸ hseen.1)
    · exact .inl (hout k c' hs hshard)
  · intro k c' hs
    by_cases hshard : c'.shard = p
    · have hload : store.load db' (rosterKey h'.hostId (reminderShardOf (actorId c'.ref))) =
          some ⟨next, etag, []⟩ := by
        have hkey : reminderShardOf (actorId c'.ref) = p := hshard
        rw [hid, hkey]
        exact laws.load_save hsave
      exact .inr ⟨listed_frame hindex (hid ▸ hlisted),
        recorded_iff.2 ⟨_, hload, hin k c' hs hshard⟩⟩
    · obtain ⟨c, hsc, href, htouched⟩ := hout k c' hs hshard
      rw [hid, href]
      refine (hinv.findable n h hn k c hsc).imp htouched fun hfound => ?_
      refine ⟨listed_frame hindex hfound.1, recorded_frame (laws.load_save_frame hsave _ ?_) hfound.2⟩
      intro hkey
      refine hshard ?_
      rw [TaskEdit.shard, href]
      exact (rosterKey_inj (reminderShardOf_mem _) hp hkey).2
  · intro m g hm hg k c hs
    refine (hinv.findable m g hg k c hs).imp id fun hfound => ?_
    refine ⟨listed_frame hindex hfound.1, recorded_frame (laws.load_save_frame hsave _ ?_) hfound.2⟩
    intro hkey
    exact hm (hinv.distinct m n g h hg hn (rosterKey_inj (reminderShardOf_mem _) hp hkey).1)

theorem Inv.write [DecidableEq Etag]
    (hok : s.KeepsIndex store (.write n p fault)) (hstep : s.write store n p fault = some s') :
    Inv store Issued s' := by
  unfold Rosters.write at hstep
  split at hstep
  · rename_i h hn
    split at hstep
    · rename_i batch next attempt hphase
      have hhost := hinv.hosts n h hn
      have hp : p ∈ reminderShardKeys := (hhost.shards p).active (by rw [hphase]; simp)
      have hbatch : (h.shards p).phase.batch = batch := by rw [hphase]; rfl
      have hnext : (h.shards p).phase.next = some next := by rw [hphase]; rfl
      have hfailed := hhost.failed hbatch hp
      split at hstep
      · cases hstep
        exact hinv.nextBatch hn hfailed
      · rename_i hfault
        split at hstep
        · rename_i db' etag hsave
          simp only [Rosters.KeepsIndex, hn] at hok
          have hlisted := hok hfault (tokens.save_expected hsave)
          split at hstep
          · cases hstep
            have hwrote := hhost.wrote etag hbatch hnext hp
            exact hinv.writes tokens laws unique hn hp hsave hlisted hwrote.hostId hwrote.ok
              hwrote.registered hwrote.adoption hwrote.stands hwrote.calm
          · cases hstep
            refine hinv.writes tokens laws unique hn hp hsave hlisted hfailed.calm.1 hfailed.ok
              hfailed.registered hfailed.adoption ?_ (fun k c' hs _ => hfailed.calm.2 k c' hs)
            intro k c' hs hshard
            obtain ⟨c, hsc, href, -⟩ := hfailed.calm.2 k c' hs
            rw [href]
            exact hhost.has_next hnext hsc (by rw [TaskEdit.shard, ← href]; exact hshard)
        · split at hstep
          · cases hstep
            refine hinv.calm hn (hhost.setShard ?_ rfl ?_ (fun _ => hp)) (.of_edits rfl rfl)
              (hinv.registering n h hn) rfl
            · rw [RosterHost.unsettled, hbatch]
              rfl
            · intro next' hnext'
              obtain rfl : next = next' := Option.some.inj hnext'
              have htable := (hhost.shards p).next next hnext
              rw [hbatch] at htable
              exact htable
          · cases hstep
            exact hinv.nextBatch hn hfailed
    · simp at hstep
  · simp at hstep

end

theorem Inv.reload (hinv : Inv store Issued s)
    (hstep : s.reload store n p fault = some s') : Inv store Issued s' := by
  unfold Rosters.reload at hstep
  split at hstep
  · rename_i h hn
    split at hstep
    · rename_i batch next attempt hphase
      have hhost := hinv.hosts n h hn
      have hp : p ∈ reminderShardKeys := (hhost.shards p).active (by rw [hphase]; simp)
      have hbatch : (h.shards p).phase.batch = batch := by rw [hphase]; rfl
      have hnext : (h.shards p).phase.next = some next := by rw [hphase]; rfl
      split at hstep
      · cases hstep
        refine hinv.calm hn (hhost.setShard ?_ rfl ?_ (fun _ => hp)) (.of_edits rfl rfl)
          (hinv.registering n h hn) rfl
        · rw [RosterHost.unsettled, hbatch]
          rfl
        · intro next' hnext'
          obtain rfl : next = next' := Option.some.inj hnext'
          have htable := (hhost.shards p).next next hnext
          rw [hbatch] at htable
          exact htable
      · cases hstep
        exact hinv.nextBatch hn (hhost.failed hbatch hp)
    · simp at hstep
  · simp at hstep

/-! ## The steps of the adopter -/

/-- An adopter takes a step away from the store. -/
theorem Inv.setAdoption (hinv : Inv store Issued s) (hn : s.hosts[n]? = some h)
    {adoption : Adoption Etag} (hadopt : AdoptionOk store Issued s adoption) :
    Inv store Issued (s.setAdoption n h adoption) :=
  hinv.adopt hn (.refl s.db) hadopt hinv.findable

theorem AdoptionOk.nextShard {visit : Visit} (hshards : ∀ p ∈ visit.shards, p ∈ reminderShardKeys)
    (drained : Bool) : AdoptionOk store Issued s (Rosters.nextShard visit drained) := by
  unfold Rosters.nextShard
  split
  · split <;> trivial
  · exact fun p hp => hshards p (List.mem_of_mem_tail hp)

theorem Inv.tick (hinv : Inv store Issued s) (hstep : s.adopt n = some s') : Inv store Issued s' := by
  unfold Rosters.adopt at hstep
  split at hstep
  · rename_i h hn
    split at hstep
    · cases hstep
      exact hinv.setAdoption hn trivial
    · cases hstep
      exact hinv
  · simp at hstep

theorem Inv.adoptIndex (hinv : Inv store Issued s)
    (hstep : s.adoptIndex store n fault = some s') : Inv store Issued s' := by
  unfold Rosters.adoptIndex at hstep
  split at hstep
  · rename_i h hn
    split at hstep
    · split at hstep
      all_goals
        cases hstep
        exact hinv.setAdoption hn trivial
    · simp at hstep
  · simp at hstep

theorem Inv.visit {dead : Bool} (hinv : Inv store Issued s) (hstep : s.visit n dead = some s') :
    Inv store Issued s' := by
  unfold Rosters.visit at hstep
  split at hstep
  · rename_i h hn
    split at hstep
    · cases hstep
      exact hinv.setAdoption hn trivial
    · split at hstep
      · cases hstep
        exact hinv.setAdoption hn trivial
      · cases hstep
        exact hinv.setAdoption hn fun p hp => hp
    · simp at hstep
  · simp at hstep

theorem Inv.loadRoster (unique : store.UniqueEtags Issued)
    (hinv : Inv store Issued s) (hstep : s.loadRoster store n fault = some s') :
    Inv store Issued s' := by
  unfold Rosters.loadRoster at hstep
  split at hstep
  · rename_i h hn
    split at hstep
    · rename_i visit hloading
      have hshards : ∀ p ∈ visit.shards, p ∈ reminderShardKeys := by
        have hadopt := hinv.adopting n h hn
        rw [hloading] at hadopt
        exact hadopt
      split at hstep
      · rename_i p rest hvisit
        split at hstep
        · rename_i record hload
          cases hstep
          refine hinv.setAdoption hn ⟨hshards, ?_, ?_, ?_⟩
          · intro q hq
            rw [hvisit] at hq
            cases hq
            exact unique.seen_of_load hload
          · rw [List.map_map]
            exact List.map_id _
          · intro q _ _ id hid
            obtain ⟨a, -, ha⟩ := List.mem_map.1 hid
            simp at ha
        · cases hstep
          exact hinv.setAdoption hn (.nextShard hshards _)
      · cases hstep
        exact hinv.setAdoption hn trivial
    · simp at hstep
  · simp at hstep

theorem Inv.allSettled (hinv : Inv store Issued s) (hstep : s.allSettled n = some s') :
    Inv store Issued s' := by
  unfold Rosters.allSettled at hstep
  split at hstep
  · rename_i h hn
    split at hstep
    · rename_i visit record outcomes htouching
      obtain ⟨hall, rfl⟩ := guard_taken hstep
      have hadopt := hinv.adopting n h hn
      rw [htouching] at hadopt
      exact hinv.setAdoption hn ⟨hadopt, hall⟩
    · simp at hstep
  · simp at hstep

/-- A touch answers, and moves nothing else. -/
theorem Inv.touched (hinv : Inv store Issued s) (ref : ActorRef) :
    Inv store Issued (s.touched ref) := by
  have hcases : ∀ {m : Nat} {g' : RosterHost Etag}, (s.touched ref).hosts[m]? = some g' →
      ∃ g, s.hosts[m]? = some g ∧ g' = g.touchedBy ref := by
    intro m g' hg'
    have hmap : (s.hosts.map (·.touchedBy ref))[m]? = some g' := hg'
    rw [List.getElem?_map] at hmap
    obtain ⟨g, hg, rfl⟩ := Option.map_eq_some_iff.1 hmap
    exact ⟨g, hg, rfl⟩
  have hgrows : Grows store Issued s (s.touched ref) := by
    intro m g' k c' hg' hs
    obtain ⟨g, hg, rfl⟩ := hcases hg'
    obtain ⟨c, hsc, href, htouched⟩ := (g.calm_touchedBy ref).2 k c' hs
    exact .inl ⟨g, c, hg, rfl, hsc, href, htouched⟩
  refine ⟨?_, ?_, ?_, ?_, ?_⟩
  · intro m g' hg'
    obtain ⟨g, hg, rfl⟩ := hcases hg'
    exact (hinv.hosts m g hg).touchedBy ref
  · intro m m' g' g'' hg' hg'' heq
    obtain ⟨g₁, hg₁, rfl⟩ := hcases hg'
    obtain ⟨g₂, hg₂, rfl⟩ := hcases hg''
    exact hinv.distinct m m' g₁ g₂ hg₁ hg₂ heq
  · intro m g' hg'
    obtain ⟨g, hg, rfl⟩ := hcases hg'
    exact hinv.registering m g hg
  · intro m g' hg'
    obtain ⟨g, hg, rfl⟩ := hcases hg'
    exact (hinv.adopting m g hg).mono (.refl s.db) hgrows
  · intro m g' hg'
    obtain ⟨g, hg, rfl⟩ := hcases hg'
    exact (hinv.findable m g hg).calm (g.calm_touchedBy ref)

/-- The identities of a visit stay the table's. -/
theorem map_fst_set {i : Nat}
    {old : Option Bool} (hi : outcomes[i]? = some (id, old)) (new : Option Bool) :
    (outcomes.set i (id, new)).map Prod.fst = outcomes.map Prod.fst := by
  refine List.ext_getElem? fun j => ?_
  rw [List.getElem?_map, List.getElem?_map]
  by_cases hj : j = i
  · rw [hj, List.getElem?_set_self (List.getElem?_eq_some_iff.1 hi).1, hi]
    rfl
  · rw [List.getElem?_set_ne (Ne.symm hj)]

/-- One outcome of a visit is known, and what is touched is answered. -/
theorem TouchOk.set {visit : Visit}
    {i : Nat} {ok : Bool}
    (hok : TouchOk store Issued s visit record outcomes) (hi : outcomes[i]? = some (id, none))
    (hanswered : ok = true → ∀ (m : Nat) (g : RosterHost Etag), s.hosts[m]? = some g →
      ∀ k c, g.Stands k c → actorId c.ref = id → c.touched = true) :
    TouchOk store Issued s visit record (outcomes.set i (id, some ok)) := by
  refine ⟨hok.shards, hok.seen, (map_fst_set hi _).trans hok.keys, ?_⟩
  intro p hp hcurrent id' hid' m g hg hhost k c hs hshard hact
  rcases List.mem_or_eq_of_mem_set hid' with hid' | heq
  · exact hok.answered p hp hcurrent id' hid' m g hg hhost k c hs hshard hact
  · rw [Prod.mk.injEq, Option.some.injEq] at heq
    exact hanswered heq.2.symm m g hg k c hs (hact.trans heq.1)

theorem Inv.touch {i : Nat} {ok : Bool} (hinv : Inv store Issued s)
    (hstep : s.touch n i ok = some s') : Inv store Issued s' := by
  unfold Rosters.touch at hstep
  split at hstep
  · rename_i h hn
    split at hstep
    · rename_i visit record outcomes htouching
      have hadopt := hinv.adopting n h hn
      rw [htouching] at hadopt
      split at hstep
      · rename_i id hi
        split at hstep
        · rename_i ref href
          split at hstep
          · cases hstep
            -- the touch first, and then its outcome
            have htouched := hinv.touched ref
            have hn' : (s.touched ref).hosts[n]? = some (h.touchedBy ref) := by
              have hmap : (s.hosts.map (·.touchedBy ref))[n]? = some (h.touchedBy ref) := by
                rw [List.getElem?_map, hn]
                rfl
              exact hmap
            have hadopt' := htouched.adopting n _ hn'
            have hadoption : (h.touchedBy ref).adoption = .touching visit record outcomes := htouching
            rw [hadoption] at hadopt'
            rename_i hok
            have hanswered : ∀ (m : Nat) (g : RosterHost Etag), (s.touched ref).hosts[m]? = some g →
                ∀ k c, g.Stands k c → actorId c.ref = id → c.touched = true := by
              intro m g' hg' k c' hs hact
              have hmap : (s.hosts.map (·.touchedBy ref))[m]? = some g' := hg'
              rw [List.getElem?_map] at hmap
              obtain ⟨g, hg, rfl⟩ := Option.map_eq_some_iff.1 hmap
              refine (RosterHost.stands_of_touchedBy hs).2 ?_
              have hread := ((hinv.hosts m g hg).touchedBy ref).refs k c' hs.edit
              rw [hact, href] at hread
              exact (Option.some.inj hread).symm
            have hset : TouchOk store Issued (s.touched ref) visit record
                (outcomes.set i (id, some true)) := TouchOk.set hadopt' hi fun _ => hanswered
            have hafter : Inv store Issued ((s.touched ref).setAdoption n (h.touchedBy ref)
                (.touching visit record (outcomes.set i (id, some true)))) :=
              htouched.setAdoption hn' hset
            have hcomm : (s.setAdoption n h
                (.touching visit record (outcomes.set i (id, some ok)))).touched ref =
                (s.touched ref).setAdoption n (h.touchedBy ref)
                  (.touching visit record (outcomes.set i (id, some true))) := by
              rw [hok]
              show ({ db := s.db, hosts := (s.hosts.set n _).map (·.touchedBy ref) } :
                Rosters σ Etag) = _
              rw [List.map_set]
              rfl
            rw [hcomm]
            exact hafter
          · rename_i hok
            cases hstep
            exact hinv.setAdoption hn (TouchOk.set hadopt hi (fun ht => absurd ht hok))
        · rename_i hnone
          cases hstep
          refine hinv.setAdoption hn (TouchOk.set hadopt hi ?_)
          intro _ m g hg k c hs hact
          have hread := (hinv.hosts m g hg).refs k c hs.edit
          rw [hact, hnone] at hread
          simp at hread
      · simp at hstep
    · simp at hstep
  · simp at hstep

theorem has_remaining
    (hid : (id, some false) ∈ outcomes) (hhas : record.state.has id = true) :
    (Rosters.remaining record outcomes).has id = true :=
  JsMap.has_filter (fun _ => decide_eq_true hid) hhas

/-- A shard that is drained loses whom the adopter has touched, and nobody else. -/
theorem Inv.drains {db' : σ} {visit : Visit}
    (hinv : Inv store Issued s)
    (hok : TouchOk store Issued s visit record outcomes)
    (hall : ∀ outcome ∈ outcomes, outcome.2.isSome = true) (hp : visit.shards.head? = some p)
    (hcurrent : some record.etag = store.current s.db (rosterKey visit.hostId p))
    (hframe : ∀ key, key ≠ rosterKey visit.hostId p → store.load db' key = store.load s.db key)
    (hleft : (Rosters.remaining record outcomes).keys ≠ [] →
      ∃ stored, store.load db' (rosterKey visit.hostId p) = some stored ∧
        stored.state = Rosters.remaining record outcomes) :
    ∀ (m : Nat) (g : RosterHost Etag), s.hosts[m]? = some g → g.Findable store db' := by
  intro m g hg k c hs
  have hshards : p ∈ reminderShardKeys := hok.shards p (List.mem_of_mem_head? hp)
  rcases hinv.findable m g hg k c hs with htouched | ⟨hlisted, hrecorded⟩
  · exact .inl htouched
  have hlisted' : listed store db' g.hostId = true :=
    listed_frame (hframe _ (rosterKey_ne _ _).symm) hlisted
  by_cases hkey : rosterKey g.hostId c.shard = rosterKey visit.hostId p
  · obtain ⟨hhost, hshard⟩ := rosterKey_inj (reminderShardOf_mem _) hshards hkey
    obtain ⟨stored, hload, hhas⟩ := recorded_iff.1 hrecorded
    have hkey' : rosterKey g.hostId (reminderShardOf (actorId c.ref)) = rosterKey visit.hostId p :=
      hkey
    rw [hkey', load_of_seen (hok.seen p hp) hcurrent.symm] at hload
    cases hload
    have hmem : actorId c.ref ∈ outcomes.map Prod.fst := by
      rw [hok.keys, ← JsMap.has_iff_mem_keys]
      exact hhas
    obtain ⟨⟨id, outcome⟩, hout, rfl⟩ := List.mem_map.1 hmem
    obtain ⟨ok, rfl⟩ := Option.isSome_iff_exists.1 (hall _ hout)
    cases ok with
    | true => exact .inl (hok.answered p hp hcurrent.symm _ hout m g hg hhost k c hs hshard rfl)
    | false =>
      have hleft' := has_remaining hout hhas
      have hne : (Rosters.remaining record outcomes).keys ≠ [] := by
        rw [JsMap.has_iff_mem_keys] at hleft'
        exact List.ne_nil_of_mem hleft'
      obtain ⟨stored, hload', hstate⟩ := hleft hne
      refine .inr ⟨hlisted', recorded_iff.2 ⟨stored, ?_, hstate ▸ hleft'⟩⟩
      rw [hkey']
      exact hload'
  · exact .inr ⟨hlisted', recorded_frame (hframe _ hkey) hrecorded⟩

theorem Inv.drain (tokens : store.TokenLaws) (laws : store.RecordLaws)
    (unique : store.UniqueEtags Issued) (hinv : Inv store Issued s)
    (hstep : s.drain store n fault = some s') : Inv store Issued s' := by
  unfold Rosters.drain at hstep
  split at hstep
  · rename_i h hn
    split at hstep
    · rename_i visit record outcomes hsaving
      have hadopt := hinv.adopting n h hn
      rw [hsaving] at hadopt
      split at hstep
      · cases hstep
        exact hinv.setAdoption hn trivial
      · simp at hstep
      · rename_i p rest _ hvisit
        have hp : visit.shards.head? = some p := by rw [hvisit]; rfl
        dsimp only at hstep
        split at hstep
        · rename_i db' left hresult
          have hdb : DbStep store Issued s.db db' ∧
              ∀ (m : Nat) (g : RosterHost Etag), s.hosts[m]? = some g → g.Findable store db' := by
            split at hresult
            · rename_i hempty
              obtain ⟨cleared, hclear, heq⟩ := Option.map_eq_some_iff.1 hresult
              obtain rfl : cleared = db' := congrArg Prod.fst heq
              refine ⟨.clear tokens laws unique hclear, ?_⟩
              exact hinv.drains hadopt.1 hadopt.2 hp (tokens.clear_expected hclear)
                (fun key hkey => laws.load_clear_frame hclear key hkey) (fun hne => absurd hempty hne)
            · obtain ⟨⟨saved, etag⟩, hsave, heq⟩ := Option.map_eq_some_iff.1 hresult
              obtain rfl : saved = db' := congrArg Prod.fst heq
              refine ⟨.save tokens laws unique hsave, ?_⟩
              exact hinv.drains hadopt.1 hadopt.2 hp (tokens.save_expected hsave)
                (fun key hkey => laws.load_save_frame hsave key hkey)
                (fun _ => ⟨_, laws.load_save hsave, rfl⟩)
          split at hstep
          · cases hstep
            exact hinv.adopt hn hdb.1 (.nextShard hadopt.1.shards _) hdb.2
          · cases hstep
            exact hinv.adopt hn hdb.1 trivial hdb.2
        · split at hstep
          · cases hstep
            exact hinv.setAdoption hn (.nextShard hadopt.1.shards _)
          · cases hstep
            exact hinv.setAdoption hn trivial
    · simp at hstep
  · simp at hstep

theorem Inv.loadForget (unique : store.UniqueEtags Issued)
    (hinv : Inv store Issued s) (hstep : s.loadForget store n fault = some s') :
    Inv store Issued s' := by
  unfold Rosters.loadForget at hstep
  split at hstep
  · rename_i h hn
    split at hstep
    · split at hstep
      · rename_i record hload
        split at hstep
        · cases hstep
          exact hinv.setAdoption hn (unique.seen_of_load hload)
        · cases hstep
          exact hinv.setAdoption hn trivial
      · cases hstep
        exact hinv.setAdoption hn trivial
      · cases hstep
        exact hinv.setAdoption hn trivial
    · simp at hstep
  · simp at hstep

/-- A host that is taken off the index while its rosters are empty leaves nobody behind. -/
theorem Inv.forgets {db' : σ} {etag : Etag}
    (tokens : store.TokenLaws) (laws : store.RecordLaws) (hinv : Inv store Issued s)
    (hseen : store.Seen Issued s.db rosterIndexKey record)
    (hsave : store.save s.db rosterIndexKey (record.state.erase hostId) (some record.etag) =
      some (db', etag))
    (hdrained : drained store s.db hostId = true) :
    ∀ (m : Nat) (g : RosterHost Etag), s.hosts[m]? = some g → g.Findable store db' := by
  intro m g hg k c hs
  rcases hinv.findable m g hg k c hs with htouched | ⟨hlisted, hrecorded⟩
  · exact .inl htouched
  have hne : g.hostId ≠ hostId := by
    rintro rfl
    rw [not_recorded_of_drained hdrained] at hrecorded
    simp at hrecorded
  obtain ⟨stored, hload, hhas⟩ := listed_iff.1 hlisted
  rw [load_of_seen hseen (tokens.save_expected hsave).symm] at hload
  cases hload
  refine .inr ⟨listed_iff.2 ⟨_, laws.load_save hsave, JsMap.has_erase hne hhas⟩, ?_⟩
  exact recorded_frame (laws.load_save_frame hsave _ (rosterKey_ne _ _)) hrecorded

theorem Inv.saveForget [DecidableEq Etag] (tokens : store.TokenLaws)
    (laws : store.RecordLaws) (unique : store.UniqueEtags Issued) (hinv : Inv store Issued s)
    (hok : s.KeepsIndex store (.saveForget n fault)) (hstep : s.saveForget store n fault = some s') :
    Inv store Issued s' := by
  unfold Rosters.saveForget at hstep
  split at hstep
  · rename_i h hn
    split at hstep
    · rename_i visit record attempt hsaving
      have hseen := hinv.adopting n h hn
      rw [hsaving] at hseen
      split at hstep
      · cases hstep
        exact hinv.setAdoption hn trivial
      · rename_i hfault
        split at hstep
        · rename_i db' etag hsave
          simp only [Rosters.KeepsIndex, hn, hsaving] at hok
          have hdrained := hok hfault (tokens.save_expected hsave)
          have hfind := hinv.forgets tokens laws hseen hsave hdrained
          have hdb : DbStep store Issued s.db db' := .save tokens laws unique hsave
          split at hstep
          all_goals
            cases hstep
            exact hinv.adopt hn hdb trivial hfind
        · split at hstep
          all_goals
            cases hstep
            exact hinv.setAdoption hn trivial
    · simp at hstep
  · simp at hstep

/-! ## Every run -/

/-- One step lemma for the machine. -/
theorem Inv.next [DecidableEq Etag] {l : RosterLabel} (tokens : store.TokenLaws)
    (laws : store.RecordLaws) (unique : store.UniqueEtags Issued) (hinv : Inv store Issued s)
    (hok : s.KeepsIndex store l) (hstep : (taskRosters store).step s l = some s') :
    Inv store Issued s' := by
  cases l with
  | bind hostId => exact hinv.bind hstep
  | track n type key now =>
    have hmutate : s.mutate n { ref := ⟨type.name, key⟩, tracks := true, since := now } = some s' :=
      hstep
    refine hinv.mutate ?_ rfl hmutate
    exact refOf_actorId type key
  | untrack n type key =>
    have hmutate : s.mutate n { ref := ⟨type.name, key⟩, tracks := false, since := 0 } = some s' :=
      hstep
    refine hinv.mutate ?_ rfl hmutate
    exact refOf_actorId type key
  | registered n p => exact hinv.registered hstep
  | loadIndex n fault => exact hinv.loadIndex unique hstep
  | saveIndex n now fault => exact hinv.saveIndex tokens laws unique hstep
  | write n p fault => exact hinv.write tokens laws unique hok hstep
  | reload n p fault => exact hinv.reload hstep
  | adopt n => exact hinv.tick hstep
  | adoptIndex n fault => exact hinv.adoptIndex hstep
  | visit n dead => exact hinv.visit hstep
  | loadRoster n fault => exact hinv.loadRoster unique hstep
  | touch n i ok => exact hinv.touch hstep
  | allSettled n => exact hinv.allSettled hstep
  | drain n fault => exact hinv.drain tokens laws unique hstep
  | loadForget n fault => exact hinv.loadForget unique hstep
  | saveForget n fault => exact hinv.saveForget tokens laws unique hok hstep

theorem inv_initial (hinit : (taskRosters store).initial s) : Inv store Issued s := by
  have hnone : ∀ (m : Nat) (g : RosterHost Etag), ¬ s.hosts[m]? = some g := by
    intro m g hg
    rw [hinit.1] at hg
    simp at hg
  refine ⟨?_, ?_, ?_, ?_, ?_⟩
  · exact fun m g hg => absurd hg (hnone m g)
  · exact fun m _ g _ hg => absurd hg (hnone m g)
  · exact fun m g hg => absurd hg (hnone m g)
  · exact fun m g hg => absurd hg (hnone m g)
  · exact fun m g hg => absurd hg (hnone m g)

/-- **Findability.**  In every run in which a roster is stored only while the index names
its host, and a host is taken off the index only while its rosters are empty, every actor
with a track that stands is reached from the stored index or has been touched since. -/
theorem taskRosters_findable [DecidableEq Etag] (tokens : store.TokenLaws) (laws : store.RecordLaws)
    (unique : store.UniqueEtags Issued)
    (h : (taskRosters store).Reach (Rosters.KeepsIndex store) s) :
    ∀ host ∈ s.hosts, host.Findable store s.db := by
  have hinv : Inv store Issued s := h.invariant (fun _ => inv_initial)
    (fun _ _ _ hinv hok hstep => hinv.next tokens laws unique hok hstep)
  intro host hmem
  obtain ⟨m, hm⟩ := List.mem_iff_getElem?.1 hmem
  exact hinv.findable m host hm

end

instance [DecidableEq Etag] (s : Rosters σ Etag) (l : RosterLabel) :
    Decidable (s.KeepsIndex store l) := by
  unfold Rosters.KeepsIndex
  split
  · split <;> infer_instance
  · split
    · split <;> infer_instance
    · infer_instance
  · infer_instance

/-- The type of the actors in the runs below. -/
def jobType : ActorType := ⟨"job", by decide, by decide⟩

def noRosters : Rosters (MemoryDb Roster Unit) String := { db := .empty, hosts := [] }

/-- Two hosts; the first tracks an actor, and the second takes it for dead, touches the
actor and drains the shard. -/
def drainRun : List RosterLabel :=
  [.bind "h", .bind "g", .track 0 jobType "b" 1, .loadIndex 0 .none, .saveIndex 0 2 .none,
    .registered 0 "p2", .write 0 "p2" .none, .adopt 1, .adoptIndex 1 .none, .visit 1 true,
    .loadRoster 1 .none, .loadRoster 1 .none, .loadRoster 1 .none, .touch 1 0 true, .allSettled 1,
    .drain 1 .none] ++ List.replicate 13 (.loadRoster 1 .none) ++ [.loadForget 1 .none]

/-- The first host is alive after all: it writes while it is still on the index, which the
adopter then leaves alone. -/
def rewriteRun : List RosterLabel :=
  drainRun ++ [.track 0 jobType "c" 3, .registered 0 "p5", .write 0 "p5" .none,
    .saveForget 1 .failed]

def rewriteEnd : Rosters (MemoryDb Roster Unit) String :=
  ((taskRosters (memoryStorage Roster Unit)).exec (Rosters.KeepsIndex (memoryStorage Roster Unit))
    noRosters rewriteRun).get (by decide)

theorem noRosters_initial : (taskRosters (memoryStorage Roster Unit)).initial noRosters :=
  ⟨rfl, fun _ => rfl⟩

theorem taskRosters_findable_rewrite :
    (rewriteEnd.hosts.map fun h => h.edits.map fun e => (e.outcome, e.touched)) =
        [[(some true, true), (some true, false)], []] ∧
      ∀ host ∈ rewriteEnd.hosts, host.Findable (memoryStorage Roster Unit) rewriteEnd.db := by
  have hstart : (taskRosters (memoryStorage Roster Unit)).Reach
      (Rosters.KeepsIndex (memoryStorage Roster Unit)) noRosters := .start noRosters_initial
  refine ⟨by decide, ?_⟩
  exact taskRosters_findable (memoryStorage.tokenLaws _ _) (memoryStorage.recordLaws _ _)
    (memoryStorage.uniqueEtags _ _)
    (hstart.exec_get rewriteRun (by decide))

/-- The adopter takes the first host off the index; that host, which knows that it has
registered, tracks another actor. -/
def orphanRun : List RosterLabel :=
  drainRun ++ [.saveForget 1 .none, .track 0 jobType "c" 3, .registered 0 "p5", .write 0 "p5" .none]

def orphanEnd : Rosters (MemoryDb Roster Unit) String :=
  ((taskRosters (memoryStorage Roster Unit)).exec (fun _ _ => True) noRosters orphanRun).get
    (by decide)

theorem not_findable : ¬ ∀ s, (taskRosters (memoryStorage Roster Unit)).Reachable s →
    ∀ host ∈ s.hosts, host.Findable (memoryStorage Roster Unit) s.db := by
  have hstart : (taskRosters (memoryStorage Roster Unit)).Reachable noRosters :=
    .start noRosters_initial
  have horphan : ∃ host ∈ orphanEnd.hosts, host.edits =
      [⟨⟨"job", "b"⟩, true, 1, some true, true⟩, ⟨⟨"job", "c"⟩, true, 3, some true, false⟩] ∧
      listed (memoryStorage Roster Unit) orphanEnd.db host.hostId = false := by decide
  intro h
  obtain ⟨host, hmem, hedits, hlisted⟩ := horphan
  have hfound := h orphanEnd (hstart.exec_get orphanRun (by decide)) host hmem
  have hstands : host.Stands 1 ⟨⟨"job", "c"⟩, true, 3, some true, false⟩ := by
    refine ⟨by rw [hedits]; rfl, rfl, rfl, ?_⟩
    intro j later hj hlater
    rw [hedits, List.getElem?_eq_none hj] at hlater
    simp at hlater
  rcases hfound 1 _ hstands with htouched | ⟨hindex, -⟩
  · simp at htouched
  · rw [hlisted] at hindex
    simp at hindex

end SigxActors.Host
