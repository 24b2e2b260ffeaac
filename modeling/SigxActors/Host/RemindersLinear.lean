/-
  Host/RemindersLinear.lean --- a shard table is the edits committed to it, in order.

  Source: `packages/actors/src/host/reminders.ts`.

  What a host has seen of a shard is the table after some of its commits, and after all
  of them as long as its etag is the current one.  So an edit that the store takes was
  made on the table it replaces, wherever the attempt has started from.
-/
import SigxActors.Storage.Memory
import SigxActors.Host.Reminders

set_option autoImplicit false

namespace SigxActors.Host

open SigxActors.Js SigxActors.Storage

/-! ## The property -/

/-- The names under which `table` has an entry for `id`. -/
def ReminderTable.names (table : ReminderTable) (id : String) : List String :=
  ((table.actors.get id).getD .empty).keys

/-- A shard of the reminder table is linearizable. -/
structure Linearizable (tickMs : Int) (commits : List Commit) (table : ReminderTable)
    (collected : List (String × String × Nat)) (answers : List (String × List String)) :
    Prop where
  /-- The table is the edits that were committed, in the order of the commits. -/
  stored : table = (replay tickMs commits).table
  /-- What a `set` has put there is there, until another edit touches it. -/
  kept : ∀ before after id name due period now,
    commits = before ++ ⟨.set id name due period, now⟩ :: after →
    (∀ c ∈ after, ¬ c.edit.Touches id name (now + due)) →
    ∃ e, table.entry id name = some e ∧ e.nextDue = now + due ∧ e.period = period
  /-- What a `clear` has removed is not, until another edit puts it there. -/
  removed : ∀ before after id name now,
    commits = before ++ ⟨.clear id name, now⟩ :: after →
    (∀ c ∈ after, ¬ c.edit.Puts id name) → table.entry id name = none
  /-- No occurrence is collected by two ticks, or twice by one. -/
  once : collected.Nodup
  /-- What `list` answers is what some of the commits had made. -/
  read : ∀ a ∈ answers, ∃ n ≤ commits.length,
    a.2 = (replay tickMs (commits.take n)).table.names a.1

/-- The name that a reminder is set under. -/
def ReminderLabel.sets : ReminderLabel → Option String
  | .set _ _ name _ _ => some name
  | _ => none

/-- No reminder is set under the one name that an object cannot have as a key. -/
def ReminderLabel.KeepsName (l : ReminderLabel) : Prop := l.sets ≠ some "__proto__"

instance : DecidablePred ReminderLabel.KeepsName := fun l =>
  inferInstanceAs (Decidable (l.sets ≠ some "__proto__"))

/-! ## One host -/

namespace HostShard

variable {Etag : Type} {Seen Seen' : ShardRecord Etag → Prop} {tickMs now : Int}
  {sh sh' : HostShard Etag} {edit : Edit} {attempt : Nat}

/-- Where the cache is not being edited. -/
def Quiet : MutatePhase Etag → Prop
  | .saving .. => False
  | .answered .. => False
  | _ => True

def PhaseOk (Seen : ShardRecord Etag → Prop) (tickMs : Int) : MutatePhase Etag → Prop
  | .idle => True
  | .loading edit _ => edit.Proper
  | .loaded edit _ record => edit.Proper ∧ Seen record
  | .saving edit _ _ _ base => edit.Proper ∧ Seen base
  | .answered edit _ _ now base answer => edit.Proper ∧ Seen base ∧
      ∀ etag, answer = .accepted etag → Seen ⟨(edit.apply tickMs now base.table).table, some etag⟩

/-- What the host holds is what it has seen, but for a table that it is editing. -/
structure Ok (Seen : ShardRecord Etag → Prop) (tickMs : Int) (sh : HostShard Etag) : Prop where
  cache : Quiet sh.phase → ∀ record, sh.cache = some record → Seen record
  listings : ∀ l ∈ sh.listings, Seen l.record
  chain : ∀ edit ∈ sh.chain, edit.Proper
  phase : PhaseOk Seen tickMs sh.phase
  firings : ∀ firing ∈ sh.firings, ∀ d ∈ firing.due ++ firing.failed, d.name ≠ "__proto__"

theorem PhaseOk.mono {phase : MutatePhase Etag} (h : PhaseOk Seen tickMs phase)
    (hseen : ∀ record, Seen record → Seen' record) : PhaseOk Seen' tickMs phase := by
  cases phase with
  | idle => trivial
  | loading edit attempt => exact h
  | loaded | saving => exact ⟨h.1, hseen _ h.2⟩
  | answered edit attempt cached now base answer =>
    exact ⟨h.1, hseen _ h.2.1, fun etag hetag => hseen _ (h.2.2 etag hetag)⟩

theorem Ok.mono (h : sh.Ok Seen tickMs) (hseen : ∀ record, Seen record → Seen' record) :
    sh.Ok Seen' tickMs :=
  ⟨fun hquiet record hcache => hseen _ (h.cache hquiet record hcache),
    fun l hl => hseen _ (h.listings l hl), h.chain, h.phase.mono hseen, h.firings⟩

theorem ok_default (Seen : ShardRecord Etag → Prop) (tickMs : Int) : Ok Seen tickMs {} where
  cache := fun _ record hcache => by simp at hcache
  listings := fun l hl => absurd hl List.not_mem_nil
  chain := fun edit hedit => absurd hedit List.not_mem_nil
  phase := trivial
  firings := fun firing hfiring => absurd hfiring List.not_mem_nil

theorem Ok.mutate (h : sh.Ok Seen tickMs) (hedit : edit.Proper) :
    (sh.mutate edit).Ok Seen tickMs := by
  refine { h with chain := ?_ }
  intro other hother
  rcases List.mem_append.1 hother with hother | hother
  · exact h.chain other hother
  · rw [List.mem_singleton.1 hother]
    exact hedit

/-- An edit is run on what was seen. -/
theorem Ok.run {cached : Bool} {record : ShardRecord Etag}
    (hsound : ∀ record, Seen record → record.table.Sound) (h : sh.Ok Seen tickMs)
    (hedit : edit.Proper) (hrecord : Seen record) :
    (sh.run tickMs now edit attempt cached record).Ok Seen tickMs := by
  unfold HostShard.run
  dsimp only
  cases hchanged : (edit.apply tickMs now record.table).changed with
  | true =>
    exact { h with cache := fun hquiet => absurd hquiet id, phase := ⟨hedit, hrecord⟩ }
  | false =>
    refine { h with cache := ?_, phase := trivial }
    intro _ cached hcached
    cases hcached
    rw [Edit.apply_unchanged (hsound _ hrecord) hchanged]
    exact hrecord

theorem Ok.loading (h : sh.Ok Seen tickMs) (hquiet : Quiet sh.phase) (hedit : edit.Proper) :
    ({ sh with phase := .loading edit attempt } : HostShard Etag).Ok Seen tickMs :=
  { h with cache := fun _ => h.cache hquiet, phase := hedit }

theorem Ok.setContended (h : sh.Ok Seen tickMs) (contended : Option Int) :
    ({ sh with contended := contended } : HostShard Etag).Ok Seen tickMs :=
  { h with }

theorem Ok.begin (hsound : ∀ record, Seen record → record.table.Sound) (h : sh.Ok Seen tickMs)
    (hquiet : Quiet sh.phase) (hedit : edit.Proper) :
    (sh.begin tickMs now edit attempt).Ok Seen tickMs := by
  unfold HostShard.begin
  split
  · exact h.loading hquiet hedit
  split
  · split
    · exact h.loading hquiet hedit
    split
    · rename_i record hcache
      exact (h.setContended none).run hsound hedit (h.cache hquiet record hcache)
    · exact (h.setContended none).loading hquiet hedit
  · split
    · rename_i record hcache
      exact h.run hsound hedit (h.cache hquiet record hcache)
    · exact h.loading hquiet hedit

/-- The next attempt does not look at what was under way. -/
theorem begin_idle (tickMs now : Int) (sh : HostShard Etag) (edit : Edit) (attempt : Nat) :
    sh.begin tickMs now edit attempt =
      HostShard.begin tickMs now { sh with phase := .idle } edit attempt := rfl

theorem Ok.start (hsound : ∀ record, Seen record → record.table.Sound) (h : sh.Ok Seen tickMs)
    (hstep : sh.start tickMs now = some sh') : sh'.Ok Seen tickMs := by
  unfold HostShard.start at hstep
  split at hstep
  · rename_i edit chain hphase hchain
    cases hstep
    have hquiet : Quiet sh.phase := by
      rw [hphase]
      trivial
    have hmem : ∀ e ∈ edit :: chain, e.Proper := fun e he => h.chain e (hchain ▸ he)
    refine Ok.begin hsound ?_ hquiet (hmem edit List.mem_cons_self)
    exact { h with chain := fun e he => hmem e (List.mem_cons_of_mem _ he) }
  · simp at hstep

theorem Ok.loaded (hsound : ∀ record, Seen record → record.table.Sound) (h : sh.Ok Seen tickMs)
    (hstep : sh.loaded tickMs now = some sh') : sh'.Ok Seen tickMs := by
  unfold HostShard.loaded at hstep
  split at hstep
  · rename_i edit attempt record hphase
    cases hstep
    have hok : PhaseOk Seen tickMs (.loaded edit attempt record) := hphase ▸ h.phase
    refine Ok.run hsound ?_ hok.1 hok.2
    refine { h with cache := ?_ }
    intro _ cached hcached
    exact Option.some.inj hcached ▸ hok.2
  · simp at hstep

/-- What an edit collects has a name that can be a key. -/
theorem name_of_due {t : ReminderTable} (h : t.Sound) {d : Due}
    (hd : d ∈ (edit.apply tickMs now t).due) : d.name ≠ "__proto__" := by
  obtain ⟨e, he, -⟩ := Edit.due_of_apply hd
  obtain ⟨entries, hget, hname⟩ := ReminderTable.entry_eq_some.1 he
  intro heq
  refine (h _ entries hget).2 ((JsMap.mem_keys_iff _ _).2 ?_)
  rw [← heq, hname]
  rfl

theorem Ok.saved (hsound : ∀ record, Seen record → record.table.Sound) (h : sh.Ok Seen tickMs)
    (hstep : sh.saved tickMs now = some sh') : sh'.Ok Seen tickMs := by
  have hdrop : ∀ contended : Option Int,
      ({ sh with cache := none, contended := contended, phase := .idle } : HostShard Etag).Ok
        Seen tickMs := fun contended =>
    ⟨fun _ record hcache => by simp at hcache, h.listings, h.chain, trivial, h.firings⟩
  unfold HostShard.saved at hstep
  split at hstep
  · rename_i edit attempt cached at_ base answer hphase
    have hok : PhaseOk Seen tickMs (.answered edit attempt cached at_ base answer) :=
      hphase ▸ h.phase
    obtain ⟨hedit, hbase, hanswer⟩ := hok
    split at hstep
    · rename_i etag
      have hseen := hanswer etag rfl
      cases hstep
      split
      · refine ⟨fun _ record hcache => Option.some.inj hcache ▸ hseen, h.listings, h.chain, trivial,
          ?_⟩
        intro firing hfiring d hd
        rcases List.mem_append.1 hfiring with hfiring | hfiring
        · exact h.firings firing hfiring d hd
        obtain rfl := List.mem_singleton.1 hfiring
        rw [List.append_nil] at hd
        exact name_of_due (hsound base hbase) hd
      · exact ⟨fun _ record hcache => Option.some.inj hcache ▸ hseen, h.listings, h.chain, trivial,
          h.firings⟩
    · split at hstep
      · exact Option.some.inj hstep ▸ hdrop sh.contended
      split at hstep
      all_goals
        cases hstep
        rw [begin_idle]
        exact Ok.begin hsound (hdrop _) trivial hedit
    · exact Option.some.inj hstep ▸ hdrop sh.contended
  · simp at hstep

theorem Ok.listed {k : Nat} {answer : String × List String} (h : sh.Ok Seen tickMs)
    (hstep : sh.listed k = some (sh', answer)) : sh'.Ok Seen tickMs ∧
      ∃ record, Seen record ∧ answer.2 = record.table.names answer.1 := by
  unfold HostShard.listed at hstep
  split at hstep
  · rename_i l hl
    obtain ⟨rfl, rfl⟩ := Prod.mk.inj (Option.some.inj hstep)
    have hseen := h.listings l (List.mem_of_getElem? hl)
    refine ⟨⟨fun _ record hcache => Option.some.inj hcache ▸ hseen, ?_, h.chain, h.phase,
      h.firings⟩, l.record, hseen, rfl⟩
    exact fun other hother => h.listings other (List.mem_of_mem_eraseIdx hother)
  · simp at hstep

theorem Ok.deliver {k n : Nat} {ok : Bool} (h : sh.Ok Seen tickMs)
    (hstep : sh.deliver k n ok = some sh') : sh'.Ok Seen tickMs := by
  unfold HostShard.deliver at hstep
  split at hstep
  · rename_i firing hfiring
    split at hstep
    · rename_i d hd
      cases hstep
      refine { h with firings := ?_ }
      have hold := h.firings firing (List.mem_of_getElem? hfiring)
      intro other hother e he
      rcases List.mem_or_eq_of_mem_set hother with hother | rfl
      · exact h.firings other hother e he
      refine hold e ?_
      rcases List.mem_append.1 he with he | he
      · exact List.mem_append_left _ (List.mem_of_mem_eraseIdx he)
      split at he
      · exact List.mem_append_right _ he
      rcases List.mem_append.1 he with he | he
      · exact List.mem_append_right _ he
      · rw [List.mem_singleton.1 he]
        exact List.mem_append_left _ (List.mem_of_getElem? hd)
    · simp at hstep
  · simp at hstep

theorem Ok.rearm {k : Nat} (h : sh.Ok Seen tickMs) (hstep : sh.rearm k = some sh') :
    sh'.Ok Seen tickMs := by
  unfold HostShard.rearm at hstep
  split at hstep
  · rename_i failed hfiring
    cases hstep
    have hold := h.firings _ (List.mem_of_getElem? hfiring)
    have hsettled : ({ sh with firings := sh.firings.eraseIdx k } : HostShard Etag).Ok Seen tickMs :=
      { h with firings := fun other hother => h.firings other (List.mem_of_mem_eraseIdx hother) }
    split
    · exact hsettled
    · exact hsettled.mutate hold
  · simp at hstep

end HostShard

/-! ## The store -/

variable {σ Etag : Type} {store : CasStore σ String ReminderTable Unit Etag}
  {Issued : σ → String → Etag → Prop} {tickMs : Int} {db db' : σ} {p : String}
  {commits : List Commit} {r : ShardRecord Etag}

/-- The record is the table after some of the commits, and after all of them as long as
its etag is the current one. -/
structure SeenAt (store : CasStore σ String ReminderTable Unit Etag)
    (Issued : σ → String → Etag → Prop) (tickMs : Int) (db : σ) (p : String)
    (commits : List Commit) (record : ShardRecord Etag) : Prop where
  before : ∃ n ≤ commits.length, record.table = (replay tickMs (commits.take n)).table
  issued : ∀ etag, record.etag = some etag → Issued db p etag
  current : record.etag = store.current db p → record.table = (replay tickMs commits).table

theorem SeenAt.sound (h : SeenAt store Issued tickMs db p commits r)
    (hproper : ∀ c ∈ commits, c.edit.Proper) : r.table.Sound := by
  obtain ⟨n, -, htable⟩ := h.before
  rw [htable]
  exact sound_replay tickMs fun c hc => hproper c (List.mem_of_mem_take hc)

/-- What is loaded is the table after all of the commits. -/
theorem seenAt_record (unique : store.UniqueSaves Issued)
    (hstored : (Reminders.record store db p).table = (replay tickMs commits).table) :
    SeenAt store Issued tickMs db p commits (Reminders.record store db p) := by
  refine ⟨⟨commits.length, Nat.le_refl _, ?_⟩, ?_, fun _ => hstored⟩
  · rw [List.take_length]
    exact hstored
  · intro etag hetag
    unfold Reminders.record at hetag
    split at hetag
    · rename_i r hload
      cases hetag
      exact unique.current_issued (CasStore.current_of_load hload)
    · simp at hetag

variable {expected : Option Etag} {snap : ReminderTable} {etag : Etag}

section

variable (tokens : store.TokenLaws) (unique : store.UniqueSaves Issued)
    (h : SeenAt store Issued tickMs db p commits r)
include tokens unique h

/-- A save of the shard makes everything that was seen of it old. -/
theorem SeenAt.commit {c : Commit}
    (hsave : store.save db p snap expected = some (db', etag)) :
    SeenAt store Issued tickMs db' p (commits ++ [c]) r := by
  refine ⟨?_, fun other hother => unique.save_keeps hsave p other (h.issued other hother), ?_⟩
  · obtain ⟨n, hn, htable⟩ := h.before
    refine ⟨n, ?_, ?_⟩
    · rw [List.length_append]
      exact Nat.le_add_right_of_le hn
    · rw [List.take_append_of_le_length hn]
      exact htable
  · intro hcurrent
    rw [tokens.save_current hsave] at hcurrent
    exact absurd (h.issued etag hcurrent) (unique.save_fresh hsave)

/-- A save of another shard is no concern of this one. -/
theorem SeenAt.frame {q : String} (hne : p ≠ q)
    (hsave : store.save db q snap expected = some (db', etag)) :
    SeenAt store Issued tickMs db' p commits r := by
  refine ⟨h.before, fun other hother => unique.save_keeps hsave p other (h.issued other hother), ?_⟩
  rw [tokens.save_frame hsave p hne]
  exact h.current

end

/-! ## The run -/

namespace Reminders

variable {s s' : Reminders σ Etag} {i : Nat} {h : String → HostShard Etag} {sh : HostShard Etag}
  {now : Int}

structure Inv (store : CasStore σ String ReminderTable Unit Etag)
    (Issued : σ → String → Etag → Prop) (tickMs : Int) (s : Reminders σ Etag) : Prop where
  stored : ∀ p, (record store s.db p).table = (replay tickMs (s.commits p)).table
  collected : ∀ p, s.collected p = (replay tickMs (s.commits p)).collected
  proper : ∀ p, ∀ c ∈ s.commits p, c.edit.Proper
  shards : ∀ (i : Nat) (h : String → HostShard Etag), s.hosts[i]? = some h →
    ∀ p, (h p).Ok (SeenAt store Issued tickMs s.db p (s.commits p)) tickMs
  answers : ∀ p, ∀ a ∈ s.answers p, ∃ n ≤ (s.commits p).length,
    a.2 = (replay tickMs ((s.commits p).take n)).table.names a.1

section

variable (hinv : Inv store Issued tickMs s)
include hinv

theorem Inv.sound (p : String) (record : ShardRecord Etag)
    (hseen : SeenAt store Issued tickMs s.db p (s.commits p) record) : record.table.Sound :=
  hseen.sound (hinv.proper p)

/-- A step of one host on one shard, which keeps what it holds of it right. -/
theorem Inv.setShard (hi : s.hosts[i]? = some h)
    (hok : sh.Ok (SeenAt store Issued tickMs s.db p (s.commits p)) tickMs) :
    Inv store Issued tickMs (s.setShard i h p sh) := by
  refine { hinv with shards := ?_ }
  intro j h' hj q
  have hget : (s.hosts.set i fun q => if q = p then sh else h q)[j]? = some h' := hj
  rw [List.getElem?_set] at hget
  split at hget
  · obtain ⟨-, rfl⟩ := guard_taken hget
    dsimp only
    split
    · rename_i hq
      exact hq ▸ hok
    · exact hinv.shards i h hi q
  · exact hinv.shards j h' hget q

theorem Inv.onShard {f : HostShard Etag → Option (HostShard Etag)}
    (hf : ∀ sh sh', sh.Ok (SeenAt store Issued tickMs s.db p (s.commits p)) tickMs →
      f sh = some sh' → sh'.Ok (SeenAt store Issued tickMs s.db p (s.commits p)) tickMs)
    (hstep : s.onShard i p f = some s') : Inv store Issued tickMs s' := by
  unfold Reminders.onShard at hstep
  split at hstep
  · rename_i h hi
    obtain ⟨sh, hsh, rfl⟩ := Option.map_eq_some_iff.1 hstep
    exact hinv.setShard hi (hf (h p) sh (hinv.shards i h hi p) hsh)
  · simp at hstep

theorem Inv.mutate (edit : Edit) (hedit : edit.Proper)
    (hstep : (s.onShard i p fun sh => some (sh.mutate edit)) = some s') :
    Inv store Issued tickMs s' := by
  refine hinv.onShard (fun sh sh' hok hsh => ?_) hstep
  exact Option.some.inj hsh ▸ hok.mutate hedit

theorem Inv.bind : Inv store Issued tickMs s.bind := by
  refine { hinv with shards := ?_ }
  intro j h hj q
  have hget : (s.hosts ++ [fun _ => ({} : HostShard Etag)])[j]? = some h := hj
  rw [List.getElem?_append] at hget
  split at hget
  · exact hinv.shards j h hget q
  have hmem := List.mem_singleton.1 (List.mem_of_getElem? hget)
  rw [hmem]
  exact HostShard.ok_default _ _

end

theorem Inv.list {ref : ActorRef} (unique : store.UniqueSaves Issued)
    (hinv : Inv store Issued tickMs s) (hstep : s.list store i ref = some s') :
    Inv store Issued tickMs s' := by
  have hlist : (s.onShard i (reminderShardOf (actorId ref)) fun sh =>
      some { sh with
        listings := sh.listings ++
          [⟨actorId ref, record store s.db (reminderShardOf (actorId ref))⟩] }) = some s' := hstep
  refine hinv.onShard (fun sh sh' hok hsh => ?_) hlist
  cases hsh
  refine { hok with listings := ?_ }
  intro l hl
  rcases List.mem_append.1 hl with hl | hl
  · exact hok.listings l hl
  · rw [List.mem_singleton.1 hl]
    exact seenAt_record unique (hinv.stored _)

theorem Inv.listed {k : Nat} (hinv : Inv store Issued tickMs s)
    (hstep : s.listed i p k = some s') : Inv store Issued tickMs s' := by
  unfold Reminders.listed at hstep
  split at hstep
  · rename_i h hi
    split at hstep
    · rename_i sh answer hlisted
      cases hstep
      obtain ⟨hok, record, hseen, hanswer⟩ := (hinv.shards i h hi p).listed hlisted
      have hset := hinv.setShard hi hok
      refine { hset with answers := ?_ }
      intro q a ha
      dsimp only at ha
      split at ha
      · rename_i hq
        subst hq
        rcases List.mem_append.1 ha with ha | ha
        · exact hinv.answers q a ha
        obtain ⟨n, hn, htable⟩ := hseen.before
        rw [List.mem_singleton.1 ha]
        exact ⟨n, hn, hanswer.trans (congrArg (·.names answer.1) htable)⟩
      · exact hinv.answers q a ha
    · simp at hstep
  · simp at hstep

theorem Inv.load {fault : Fault} (unique : store.UniqueSaves Issued)
    (hinv : Inv store Issued tickMs s) (hstep : s.load store i p fault = some s') :
    Inv store Issued tickMs s' := by
  refine hinv.onShard (fun sh sh' hok hsh => ?_) hstep
  split at hsh
  · rename_i edit attempt hphase
    have hphaseOk : HostShard.PhaseOk (SeenAt store Issued tickMs s.db p (s.commits p)) tickMs
        (.loading edit attempt) := hphase ▸ hok.phase
    have hquiet : HostShard.Quiet sh.phase := by
      rw [hphase]
      trivial
    split at hsh
    · cases hsh
      exact { hok with cache := fun _ => hok.cache hquiet, phase := ⟨hphaseOk,
        seenAt_record unique (hinv.stored p)⟩ }
    · cases hsh
      exact { hok with cache := fun _ => hok.cache hquiet, phase := trivial }
  · simp at hsh

theorem record_save (laws : store.RecordLaws)
    (hsave : store.save db p snap expected = some (db', etag)) :
    record store db' p = ⟨snap, some etag⟩ := by
  rw [record, laws.load_save hsave]

theorem record_save_frame (laws : store.RecordLaws)
    {q : String}
    (hsave : store.save db p snap expected = some (db', etag)) (hne : q ≠ p) :
    record store db' q = record store db q := by
  rw [record, record, laws.load_save_frame hsave q hne]

section

variable (tokens : store.TokenLaws) (laws : store.RecordLaws) (unique : store.UniqueSaves Issued)
    (hinv : Inv store Issued tickMs s)
include tokens laws unique hinv

/-- The store takes an edit that was made on the table it replaces. -/
theorem Inv.commit {edit : Edit} {base : ShardRecord Etag} (hedit : edit.Proper)
    (hbase : SeenAt store Issued tickMs s.db p (s.commits p) base)
    (hsave : store.save s.db p (edit.apply tickMs now base.table).table base.etag =
      some (db', etag)) :
    Inv store Issued tickMs
      (s.commit db' p ⟨edit, now⟩ (edit.apply tickMs now base.table).due) ∧
    SeenAt store Issued tickMs db' p (s.commits p ++ [⟨edit, now⟩])
      ⟨(edit.apply tickMs now base.table).table, some etag⟩ := by
  have htable : base.table = (replay tickMs (s.commits p)).table :=
    hbase.current (tokens.save_expected hsave)
  have hreplay : replay tickMs (s.commits p ++ [⟨edit, now⟩]) =
      ⟨(edit.apply tickMs now base.table).table, (replay tickMs (s.commits p)).collected ++
        (edit.apply tickMs now base.table).due.map Due.occurrence⟩ := by
    rw [replay_append, htable]
    rfl
  have hstored : (record store db' p).table =
      (replay tickMs (s.commits p ++ [⟨edit, now⟩])).table := by
    rw [record_save laws hsave, hreplay]
  have hseen := seenAt_record unique hstored
  rw [record_save laws hsave] at hseen
  refine ⟨?_, hseen⟩
  constructor
  case stored =>
    intro q
    show (record store db' q).table =
      (replay tickMs (if q = p then s.commits q ++ [⟨edit, now⟩] else s.commits q)).table
    split
    · rename_i hq
      exact hq ▸ hstored
    · rename_i hq
      rw [record_save_frame laws hsave hq]
      exact hinv.stored q
  case collected =>
    intro q
    show (if q = p then s.collected q ++ (edit.apply tickMs now base.table).due.map Due.occurrence
        else s.collected q) =
      (replay tickMs (if q = p then s.commits q ++ [⟨edit, now⟩] else s.commits q)).collected
    split
    · rename_i hq
      subst hq
      rw [hreplay, hinv.collected q]
    · exact hinv.collected q
  case proper =>
    intro q c hc
    have hmem : c ∈ if q = p then s.commits q ++ [⟨edit, now⟩] else s.commits q := hc
    split at hmem
    · rcases List.mem_append.1 hmem with hmem | hmem
      · exact hinv.proper q c hmem
      · rw [List.mem_singleton.1 hmem]
        exact hedit
    · exact hinv.proper q c hmem
  case shards =>
    intro j h hj q
    refine (hinv.shards j h hj q).mono fun record hrecord => ?_
    show SeenAt store Issued tickMs db' q
      (if q = p then s.commits q ++ [⟨edit, now⟩] else s.commits q) record
    split
    · rename_i hq
      subst hq
      exact hrecord.commit tokens unique hsave
    · rename_i hq
      exact hrecord.frame tokens unique hq hsave
  case answers =>
    intro q a ha
    show ∃ n ≤ (if q = p then s.commits q ++ [⟨edit, now⟩] else s.commits q).length,
      a.2 = (replay tickMs
        ((if q = p then s.commits q ++ [⟨edit, now⟩] else s.commits q).take n)).table.names a.1
    obtain ⟨n, hn, hread⟩ := hinv.answers q a ha
    split
    · refine ⟨n, ?_, ?_⟩
      · rw [List.length_append]
        exact Nat.le_add_right_of_le hn
      · rw [List.take_append_of_le_length hn]
        exact hread
    · exact ⟨n, hn, hread⟩

theorem Inv.save {fault : Fault}
    (hstep : s.save store tickMs i p fault = some s') : Inv store Issued tickMs s' := by
  unfold Reminders.save at hstep
  split at hstep
  · rename_i h hi
    split at hstep
    · rename_i edit attempt cached now base hphase
      have hok := hinv.shards i h hi p
      have hsaving : HostShard.PhaseOk (SeenAt store Issued tickMs s.db p (s.commits p)) tickMs
          (.saving edit attempt cached now base) := hphase ▸ hok.phase
      obtain ⟨hedit, hbase⟩ := hsaving
      -- Where the store has not taken the edit, the host hears no etag.
      have hrefused : ∀ answer : SaveAnswer Etag, (∀ etag, answer ≠ .accepted etag) →
          Inv store Issued tickMs (s.setShard i h p
            { h p with phase := .answered edit attempt cached now base answer }) := by
        intro answer hanswer
        refine hinv.setShard hi ⟨fun hquiet => absurd hquiet id, hok.listings, hok.chain,
          ⟨hedit, hbase, fun etag hetag => absurd hetag (hanswer etag)⟩, hok.firings⟩
      dsimp only at hstep
      split at hstep
      · exact Option.some.inj hstep ▸ hrefused .failed (fun etag => by simp)
      split at hstep
      · rename_i db' etag hsave
        cases hstep
        obtain ⟨hnext, hseen⟩ := hinv.commit tokens laws unique hedit hbase hsave
        have hold := hnext.shards i h hi p
        refine hnext.setShard hi ⟨fun hquiet => absurd hquiet id, hold.listings, hold.chain,
          ⟨hedit, ?_, ?_⟩, hold.firings⟩
        · show SeenAt store Issued tickMs db' p
            (if p = p then s.commits p ++ [⟨edit, now⟩] else s.commits p) base
          rw [if_pos rfl]
          exact hbase.commit tokens unique hsave
        · intro other hother
          show SeenAt store Issued tickMs db' p
            (if p = p then s.commits p ++ [⟨edit, now⟩] else s.commits p) _
          rw [if_pos rfl]
          split at hother
          · exact SaveAnswer.accepted.inj hother ▸ hseen
          · simp at hother
      · cases hstep
        refine hrefused _ fun etag => ?_
        split <;> simp
    · simp at hstep
  · simp at hstep

theorem Inv.next {l : ReminderLabel} (hname : l.KeepsName)
    (hstep : (shardedReminders store tickMs).step s l = some s') : Inv store Issued tickMs s' := by
  cases l with
  | bind => exact Option.some.inj hstep ▸ hinv.bind
  | set i ref name due period =>
    have hset : s.set i ref name due period = some s' := hstep
    unfold Reminders.set at hset
    split at hset
    · exact Option.some.inj hset ▸ hinv
    have hproper : (Edit.set (actorId ref) name due period).Proper :=
      fun heq => hname (congrArg some heq)
    exact hinv.mutate _ hproper hset
  | clear i ref name => exact hinv.mutate (.clear (actorId ref) name) trivial hstep
  | list i ref => exact hinv.list unique hstep
  | listed i p k => exact hinv.listed hstep
  | tick i p now =>
    have htick : s.tick i p now = some s' := hstep
    obtain ⟨-, htick⟩ := guard_passed htick
    exact hinv.mutate (.tick now) trivial htick
  | start i p now => exact hinv.onShard (fun _ _ hok h => hok.start (hinv.sound p) h) hstep
  | load i p fault => exact hinv.load unique hstep
  | loaded i p now => exact hinv.onShard (fun _ _ hok h => hok.loaded (hinv.sound p) h) hstep
  | save i p fault => exact hinv.save tokens laws unique hstep
  | saved i p now => exact hinv.onShard (fun _ _ hok h => hok.saved (hinv.sound p) h) hstep
  | deliver i p k n ok => exact hinv.onShard (fun _ _ hok h => hok.deliver h) hstep
  | rearm i p k => exact hinv.onShard (fun _ _ hok h => hok.rearm h) hstep

end

theorem inv_initial (hinit : (shardedReminders store tickMs).initial s) :
    Inv store Issued tickMs s := by
  obtain ⟨db, hempty, rfl⟩ := hinit
  constructor
  case stored =>
    intro p
    rw [record, hempty p]
    rfl
  case collected => exact fun p => rfl
  case proper => exact fun p c hc => absurd hc List.not_mem_nil
  case shards => exact fun i h hi => by simp at hi
  case answers => exact fun p a ha => absurd ha List.not_mem_nil

end Reminders

/-- The tables are linearizable, as long as no reminder is set under the one name that an
object cannot have as a key. -/
theorem shardedReminders_linearizable (tokens : store.TokenLaws) (laws : store.RecordLaws)
    (unique : store.UniqueSaves Issued) {s : Reminders σ Etag}
    (hreach : (shardedReminders store tickMs).Reach (fun _ l => l.KeepsName) s) (p : String) :
    Linearizable tickMs (s.commits p) (Reminders.record store s.db p).table (s.collected p)
      (s.answers p) := by
  have hinv : Reminders.Inv store Issued tickMs s :=
    hreach.invariant (fun _ hinit => Reminders.inv_initial hinit)
      (fun _ _ _ hinv hname hstep => hinv.next tokens laws unique hname hstep)
  constructor
  case stored => exact hinv.stored p
  case kept =>
    intro before after id name due period now hcommits hafter
    have hproper := hinv.proper p ⟨.set id name due period, now⟩ (by rw [hcommits]; simp)
    rw [hinv.stored p, hcommits]
    exact entry_of_set hproper hafter
  case removed =>
    intro before after id name now hcommits hafter
    rw [hinv.stored p, hcommits]
    exact entry_of_clear hafter
  case once =>
    rw [hinv.collected p]
    exact (replay_ok tickMs (s.commits p)).once
  case read => exact hinv.answers p

/-! ## Runs -/

def noReminders : Reminders (MemoryDb ReminderTable Unit) String := { db := .empty, hosts := [] }

theorem noReminders_initial :
    (shardedReminders (memoryStorage ReminderTable Unit) 30000).initial noReminders :=
  ⟨.empty, fun _ => rfl, rfl⟩

/-- `reminderShardOf` of the actor of the runs. -/
def jobShard : String := reminderShardOf (actorId ⟨"job", "b"⟩)

/-- Two hosts set a reminder each.  The first sets another from its cache, is refused, and
starts again from the store; the second ticks, fails to deliver, and puts the one-shot
back. -/
def staleRun : List ReminderLabel :=
  [.bind, .bind, .set 0 ⟨"job", "b"⟩ "once" 5 none, .start 0 jobShard 0, .load 0 jobShard .none,
    .loaded 0 jobShard 0, .save 0 jobShard .none, .saved 0 jobShard 0,
    .set 1 ⟨"job", "b"⟩ "poll" 10 (some 60000), .start 1 jobShard 1, .load 1 jobShard .none,
    .loaded 1 jobShard 1, .save 1 jobShard .none, .saved 1 jobShard 1,
    .set 0 ⟨"job", "b"⟩ "late" 90000 none, .start 0 jobShard 2, .save 0 jobShard .none,
    .saved 0 jobShard 2, .load 0 jobShard .none, .loaded 0 jobShard 3, .save 0 jobShard .none,
    .saved 0 jobShard 3, .tick 1 jobShard 20, .start 1 jobShard 20, .load 1 jobShard .none,
    .loaded 1 jobShard 21, .save 1 jobShard .none, .saved 1 jobShard 22,
    .deliver 1 jobShard 0 0 false, .deliver 1 jobShard 0 0 true, .rearm 1 jobShard 0,
    .start 1 jobShard 23, .save 1 jobShard .none, .list 0 ⟨"job", "b"⟩, .listed 0 jobShard 0]

def staleEnd : Reminders (MemoryDb ReminderTable Unit) String :=
  ((shardedReminders (memoryStorage ReminderTable Unit) 30000).exec (fun _ l => l.KeepsName)
    noReminders staleRun).get (by decide)

theorem shardedReminders_linearizable_stale :
    staleEnd.collected jobShard = [("job\x00b", "once", 0), ("job\x00b", "poll", 1)] ∧
      staleEnd.answers jobShard = [("job\x00b", ["poll", "late", "once"])] ∧
      Linearizable 30000 (staleEnd.commits jobShard)
        (Reminders.record (memoryStorage ReminderTable Unit) staleEnd.db jobShard).table
        (staleEnd.collected jobShard) (staleEnd.answers jobShard) := by
  have hstart : (shardedReminders (memoryStorage ReminderTable Unit) 30000).Reach
      (fun _ l => l.KeepsName) noReminders := .start noReminders_initial
  refine ⟨by decide, by decide, ?_⟩
  exact shardedReminders_linearizable (memoryStorage.tokenLaws _ _) (memoryStorage.recordLaws _ _)
    (memoryStorage.uniqueEtags _ _).uniqueSaves (hstart.exec_get staleRun (by decide)) jobShard

/-- A reminder is set under `__proto__`, and the store takes the table. -/
def protoRun : List ReminderLabel :=
  [.bind, .set 0 ⟨"job", "b"⟩ "__proto__" 5 none, .start 0 jobShard 0, .load 0 jobShard .none,
    .loaded 0 jobShard 0, .save 0 jobShard .none, .saved 0 jobShard 0]

def protoEnd : Reminders (MemoryDb ReminderTable Unit) String :=
  ((shardedReminders (memoryStorage ReminderTable Unit) 30000).exec (fun _ _ => True)
    noReminders protoRun).get (by decide)

theorem not_linearizable : ¬ ∀ s : Reminders (MemoryDb ReminderTable Unit) String,
    (shardedReminders (memoryStorage ReminderTable Unit) 30000).Reachable s → ∀ p,
      Linearizable 30000 (s.commits p)
        (Reminders.record (memoryStorage ReminderTable Unit) s.db p).table (s.collected p)
        (s.answers p) := by
  have hstart : (shardedReminders (memoryStorage ReminderTable Unit) 30000).Reachable
      noReminders := .start noReminders_initial
  have hcommits : protoEnd.commits jobShard =
      [] ++ ⟨.set (actorId ⟨"job", "b"⟩) "__proto__" 5 none, 0⟩ :: [] := by decide
  intro h
  obtain ⟨e, he, -⟩ := (h protoEnd (hstart.exec_get protoRun (by decide)) jobShard).kept [] []
    (actorId ⟨"job", "b"⟩) "__proto__" 5 none 0 hcommits (fun c hc => absurd hc List.not_mem_nil)
  have hnone : (Reminders.record (memoryStorage ReminderTable Unit) protoEnd.db
      jobShard).table.entry (actorId ⟨"job", "b"⟩) "__proto__" = none := by decide
  rw [hnone] at he
  simp at he

end SigxActors.Host
