/-
  Host/WatchPump.lean --- the reads of watches, batched into drain turns.

  Source: `packages/actors/src/host/watch-pump.ts` (`createWatchReadPump`), over `Turns.run`.

  The jobs are numbered by when they were scheduled, the drains by when they were enqueued.  The
  lane refuses a turn once it is closed, and the handler of the refusal runs later; a turn that it
  has taken starts some time, closed or not.  Between two `await`s a drain is one step.
-/
import SigxActors.Js.Array
import SigxActors.Machine.Transition

set_option autoImplicit false

namespace SigxActors.Host

open SigxActors.Js

/-- `sliceSize`, as it is clamped; none where the number is not finite. -/
def sliceSizeOf (given : Option Rat) : Nat :=
  match given with
  | some size => (max 1 size.floor).toNat
  | none => 32

/-- What a job is settled with. -/
inductive JobSettlement where
  /-- What the read itself came to. -/
  | own (ok : Bool)
  /-- `HostShutdownError`. -/
  | shutdown
  deriving DecidableEq, Repr

/-- A `WatchReadJob`, and how `resolve` and `reject` were called. -/
structure WatchReadJob where
  seed : Bool
  settled : List JobSettlement := []
  deriving DecidableEq, Repr

namespace WatchReadJob

def settle (job : WatchReadJob) (settlement : JobSettlement) : WatchReadJob :=
  { job with settled := job.settled ++ [settlement] }

end WatchReadJob

/-- A turn that was enqueued for `drain`. -/
inductive DrainTurn where
  /-- The lane has refused it, and the handler of that has not run. -/
  | refused
  | scheduled
  /-- The job at a place of the slice is awaited. -/
  | running (slice : List Nat) (at_ : Nat)
  | over
  deriving DecidableEq, Repr

structure WatchPump where
  sliceSize : Nat
  seeds : List Nat := []
  reads : List Nat := []
  queued : Bool := false
  jobs : List WatchReadJob := []
  drains : List DrainTurn := []
  /-- `deps.closed()`. -/
  closed : Bool := false
  deriving DecidableEq, Repr

/-- Some jobs are rejected, in their order. -/
def rejectJobs (ids : List Nat) (jobs : List WatchReadJob) : List WatchReadJob :=
  ids.foldl (fun jobs i => jobs.modify i (·.settle .shutdown)) jobs

namespace WatchPump

variable (s : WatchPump)

/-- `rejectAll`. -/
def rejectAll : WatchPump :=
  { s with jobs := rejectJobs (s.seeds ++ s.reads) s.jobs, seeds := [], reads := [] }

def enqueue : WatchPump :=
  { s with
    queued := true
    drains := s.drains ++ [if s.closed then .refused else .scheduled] }

/-- The end of `drain`. -/
def finish (k : Nat) : WatchPump :=
  let s := { s with drains := s.drains.set k .over }
  if s.seeds ≠ [] ∨ s.reads ≠ [] then s.enqueue
  else { s with queued := false }

/-- The loop of `drain`, up to where it awaits a job. -/
def loop (k : Nat) (slice : List Nat) (at_ : Nat) : WatchPump :=
  if slice.length ≤ at_ then s.finish k
  else if s.closed then
    (({ s with jobs := rejectJobs (slice.drop at_) s.jobs } : WatchPump).rejectAll).finish k
  else { s with drains := s.drains.set k (.running slice at_) }

/-- What a drain takes: seeds, and then re-reads to the cap. -/
def slice : List Nat :=
  let seeds := s.seeds.take s.sliceSize
  if seeds.length < s.sliceSize then seeds ++ s.reads.take (s.sliceSize - seeds.length)
  else seeds

/-- `drain`, up to where it awaits. -/
def drain (k : Nat) : WatchPump :=
  let seeds := s.seeds.take s.sliceSize
  loop { s with
    seeds := s.seeds.drop s.sliceSize
    reads := if seeds.length < s.sliceSize then s.reads.drop (s.sliceSize - seeds.length)
      else s.reads } k s.slice 0

def schedule (seed : Bool) : WatchPump :=
  let s := { s with
    jobs := s.jobs ++ [{ seed := seed }]
    seeds := if seed then s.seeds ++ [s.jobs.length] else s.seeds
    reads := if seed then s.reads else s.reads ++ [s.jobs.length] }
  if s.queued then s else s.enqueue

inductive Label where
  | schedule (seed : Bool)
  /-- The lane comes to a drain. -/
  | start (k : Nat)
  /-- The job that a drain awaits settles. -/
  | settle (k : Nat) (ok : Bool)
  /-- The handler of a refusal runs. -/
  | refusal (k : Nat)
  | close
  deriving DecidableEq, Repr

def step : Label → Option WatchPump
  | .schedule seed => some (s.schedule seed)
  | .start k =>
      match s.drains[k]? with
      | some .scheduled => some (s.drain k)
      | _ => none
  | .settle k ok =>
      match s.drains[k]? with
      | some (.running slice at_) =>
          match slice[at_]? with
          | some job =>
              some (loop { s with jobs := s.jobs.modify job (·.settle (.own ok)) } k slice (at_ + 1))
          | none => none
      | _ => none
  | .refusal k =>
      match s.drains[k]? with
      | some .refused =>
          some (rejectAll { s with drains := s.drains.set k .over, queued := false })
      | _ => none
  | .close => some { s with closed := true }

end WatchPump

/-- The machine of one pump. -/
def watchPump : Machine.System WatchPump WatchPump.Label where
  initial s := ∃ given, s = { sliceSize := sliceSizeOf given }
  step := WatchPump.step

/-! ## The jobs that wait -/

/-- No job is settled twice, and those that wait are the ones that are not settled. -/
structure JobsWait (jobs : List WatchReadJob) (waiting : List Nat) : Prop where
  nodup : waiting.Nodup
  bound : ∀ i ∈ waiting, i < jobs.length
  once : ∀ (i : Nat) (job : WatchReadJob), jobs[i]? = some job → job.settled.length ≤ 1
  waits : ∀ (i : Nat) (job : WatchReadJob), jobs[i]? = some job → (job.settled = [] ↔ i ∈ waiting)

section

variable {jobs : List WatchReadJob} {waiting waiting' : List Nat} {i : Nat}

theorem JobsWait.perm (h : JobsWait jobs waiting) (hperm : waiting'.Perm waiting) :
    JobsWait jobs waiting' where
  nodup := hperm.nodup_iff.2 h.nodup
  bound i hi := h.bound i (hperm.subset hi)
  once := h.once
  waits i job hget := (h.waits i job hget).trans hperm.mem_iff.symm

/-- A job that waits is settled. -/
theorem JobsWait.settle (h : JobsWait jobs (i :: waiting)) (settlement : JobSettlement) :
    JobsWait (jobs.modify i (·.settle settlement)) waiting := by
  obtain ⟨hnotin, hnodup⟩ := List.nodup_cons.1 h.nodup
  refine ⟨hnodup, fun j hj => ?_, fun j job hget => ?_, fun j job hget => ?_⟩
  · rw [List.length_modify]
    exact h.bound j (List.mem_cons_of_mem i hj)
  · rcases of_modify_get hget with ⟨job₀, rfl, hget₀, rfl⟩ | ⟨-, hget₀⟩
    · have hnone := (h.waits j job₀ hget₀).2 List.mem_cons_self
      unfold WatchReadJob.settle
      rw [hnone]
      exact Nat.le_refl 1
    · exact h.once j job hget₀
  · rcases of_modify_get hget with ⟨job₀, rfl, hget₀, rfl⟩ | ⟨hne, hget₀⟩
    · refine ⟨fun hnil => ?_, fun hin => absurd hin hnotin⟩
      cases List.concat_ne_nil _ _ hnil
    · rw [h.waits j job hget₀, List.mem_cons]
      exact or_iff_right hne

theorem JobsWait.reject {l : List Nat} (h : JobsWait jobs (l ++ waiting)) :
    JobsWait (rejectJobs l jobs) waiting := by
  induction l generalizing jobs with
  | nil => exact h
  | cons i l ih => exact ih (h.settle .shutdown)

/-- A job comes. -/
theorem JobsWait.push (h : JobsWait jobs waiting) (seed : Bool) :
    JobsWait (jobs ++ [{ seed := seed }]) (jobs.length :: waiting) where
  nodup := List.nodup_cons.2 ⟨fun hin => Nat.lt_irrefl _ (h.bound _ hin), h.nodup⟩
  bound i hi := by
    rw [List.length_append]
    rcases List.mem_cons.1 hi with rfl | hi
    · exact Nat.lt_succ_self _
    · exact Nat.lt_add_right 1 (h.bound i hi)
  once i job hget := by
    rcases of_append_get hget with ⟨-, rfl⟩ | ⟨-, hget⟩
    · exact Nat.zero_le 1
    · exact h.once i job hget
  waits i job hget := by
    rcases of_append_get hget with ⟨rfl, rfl⟩ | ⟨hlt, hget⟩
    · exact ⟨fun _ => List.mem_cons_self, fun _ => rfl⟩
    · rw [h.waits i job hget, List.mem_cons]
      exact (or_iff_right (Nat.ne_of_lt hlt)).symm

end

/-! ## The drains -/

namespace DrainTurn

/-- What a drain has taken and has not settled. -/
def left : DrainTurn → List Nat
  | .running slice at_ => slice.drop at_
  | _ => []

end DrainTurn

namespace WatchPump

variable {s t : WatchPump} {front : List DrainTurn} {d : DrainTurn} {k : Nat}

/-- The drains before the last one are over. -/
def AllOver (drains : List DrainTurn) : Prop := ∀ d ∈ drains, d = .over

/-- What holds of the last drain, where it is not over. -/
def Active (s : WatchPump) : DrainTurn → Prop
  | .refused => s.closed = true
  | .scheduled => s.seeds ++ s.reads ≠ []
  | .running slice at_ => at_ < slice.length ∧ slice.length ≤ s.sliceSize
  | .over => False

/-- The jobs that wait. -/
def waiting (s : WatchPump) : List Nat := s.drains.flatMap DrainTurn.left ++ (s.seeds ++ s.reads)

/-- What holds in every run. -/
structure Sound (s : WatchPump) : Prop where
  size : 1 ≤ s.sliceSize
  jobs : JobsWait s.jobs s.waiting
  phase : s.queued = false ∧ AllOver s.drains ∧ s.seeds = [] ∧ s.reads = [] ∨
    s.queued = true ∧ ∃ front last, s.drains = front ++ [last] ∧ AllOver front ∧ s.Active last

/-- What it takes for the lane to come to a drain. -/
theorem step_start (hstep : s.step (.start k) = some t) :
    s.drains[k]? = some .scheduled ∧ t = s.drain k := by
  unfold WatchPump.step at hstep
  dsimp only at hstep
  split at hstep
  · rename_i hget
    cases hstep
    exact ⟨hget, rfl⟩
  · cases hstep

theorem step_settle {ok : Bool} (hstep : s.step (.settle k ok) = some t) :
    ∃ (slice : List Nat) (at_ job : Nat), s.drains[k]? = some (.running slice at_) ∧
      slice[at_]? = some job ∧
      t = loop { s with jobs := s.jobs.modify job (·.settle (.own ok)) } k slice (at_ + 1) := by
  unfold WatchPump.step at hstep
  dsimp only at hstep
  split at hstep
  · rename_i slice at_ hget
    split at hstep
    · rename_i job hjob
      cases hstep
      exact ⟨slice, at_, job, hget, hjob, rfl⟩
    · cases hstep
  · cases hstep

theorem step_refusal (hstep : s.step (.refusal k) = some t) :
    s.drains[k]? = some .refused ∧
      t = rejectAll { s with drains := s.drains.set k .over, queued := false } := by
  unfold WatchPump.step at hstep
  dsimp only at hstep
  split at hstep
  · rename_i hget
    cases hstep
    exact ⟨hget, rfl⟩
  · cases hstep

theorem AllOver.left (h : AllOver front) : front.flatMap DrainTurn.left = [] := by
  refine List.flatMap_eq_nil_iff.2 fun d hd => ?_
  rw [h d hd]
  rfl

theorem AllOver.append (h : AllOver front) : AllOver (front ++ [.over]) := by
  intro d hd
  rcases List.mem_append.1 hd with hd | hd
  · exact h d hd
  · exact List.mem_singleton.1 hd

theorem set_last (front : List DrainTurn) (last d : DrainTurn) :
    (front ++ [last]).set front.length d = front ++ [d] := by
  rw [List.set_append_right _ _ (Nat.le_refl _), Nat.sub_self]
  rfl

/-- A drain that is not over is the last one. -/
theorem Sound.last (h : s.Sound) (hget : s.drains[k]? = some d) (hd : d ≠ .over) :
    s.queued = true ∧ ∃ front, s.drains = front ++ [d] ∧ AllOver front ∧ k = front.length ∧
      s.Active d := by
  rcases h.phase with ⟨-, hover, -⟩ | ⟨hqueued, front, last, hdrains, hover, hactive⟩
  · exact absurd (hover d (List.mem_of_getElem? hget)) hd
  rw [hdrains] at hget
  rcases of_append_get hget with ⟨rfl, rfl⟩ | ⟨-, hget⟩
  · exact ⟨hqueued, front, hdrains, hover, rfl, hactive⟩
  · exact absurd (hover d (List.mem_of_getElem? hget)) hd

/-- A drain has settled all that it has taken. -/
theorem Sound.finish (hsize : 1 ≤ s.sliceSize) (hjobs : JobsWait s.jobs (s.seeds ++ s.reads))
    (hdrains : s.drains = front ++ [d]) (hover : AllOver front) : (s.finish front.length).Sound := by
  have hset : s.drains.set front.length .over = front ++ [.over] := by
    rw [hdrains, set_last]
  unfold WatchPump.finish
  dsimp only
  rw [hset]
  split
  · rename_i hpending
    refine ⟨hsize, ?_, .inr ⟨rfl, _, _, rfl, hover.append, ?_⟩⟩
    · unfold waiting enqueue
      rw [List.flatMap_append, hover.append.left]
      cases s.closed <;> exact hjobs
    · dsimp only
      cases hclosed : s.closed
      · exact fun hnil => (not_or.2 ⟨fun hne => hne (List.append_eq_nil_iff.1 hnil).1,
          fun hne => hne (List.append_eq_nil_iff.1 hnil).2⟩) hpending
      · rfl
  · rename_i hpending
    obtain ⟨hseeds, hreads⟩ := not_or.1 hpending
    refine ⟨hsize, ?_, .inl ⟨rfl, hover.append, Decidable.not_not.1 hseeds, Decidable.not_not.1 hreads⟩⟩
    unfold waiting
    rw [hover.append.left]
    exact hjobs

variable {slice : List Nat} {at_ : Nat} {l : Label} {job' : WatchReadJob}

/-- The loop of a drain goes on. -/
theorem Sound.loop (hsize : 1 ≤ s.sliceSize)
    (hjobs : JobsWait s.jobs (slice.drop at_ ++ (s.seeds ++ s.reads)))
    (hslice : slice.length ≤ s.sliceSize) (hqueued : s.queued = true)
    (hdrains : s.drains = front ++ [d]) (hover : AllOver front) :
    (s.loop front.length slice at_).Sound := by
  unfold WatchPump.loop
  split
  · rename_i hlen
    rw [List.drop_of_length_le hlen] at hjobs
    exact Sound.finish hsize hjobs hdrains hover
  · rename_i hlen
    split
    · have hrest := hjobs.reject
      refine Sound.finish hsize (s := (({ s with jobs := rejectJobs (slice.drop at_) s.jobs } :
        WatchPump).rejectAll)) ?_ hdrains hover
      rw [← List.append_nil (s.seeds ++ s.reads)] at hrest
      exact hrest.reject
    · refine ⟨hsize, ?_, .inr ⟨hqueued, front, .running slice at_, ?_, hover, ?_⟩⟩
      · unfold waiting
        rw [hdrains, set_last, List.flatMap_append, hover.left, List.nil_append, List.flatMap_singleton]
        exact hjobs
      · dsimp only
        rw [hdrains, set_last]
      · exact ⟨Nat.lt_of_not_le hlen, hslice⟩

/-- What a drain takes, and what it leaves: no re-read is taken while a seed is left. -/
theorem slice_spec (s : WatchPump) : ∃ seeds reads, s.slice = seeds ++ reads ∧
    s.slice.length ≤ s.sliceSize ∧ seeds <+: s.seeds ∧ reads <+: s.reads ∧
    (reads ≠ [] → seeds = s.seeds) ∧ (1 ≤ s.sliceSize → s.seeds ++ s.reads ≠ [] → s.slice ≠ []) ∧
    ∀ k, s.drain k = WatchPump.loop { s with
      seeds := s.seeds.drop seeds.length
      reads := s.reads.drop reads.length } k s.slice 0 := by
  have hseeds : s.seeds.drop (s.seeds.take s.sliceSize).length = s.seeds.drop s.sliceSize := by
    rw [List.length_take]
    rcases Nat.le_total s.sliceSize s.seeds.length with hle | hle
    · rw [Nat.min_eq_left hle]
    · rw [Nat.min_eq_right hle, List.drop_length, List.drop_of_length_le hle]
  by_cases hroom : (s.seeds.take s.sliceSize).length < s.sliceSize
  · have hall : s.seeds.take s.sliceSize = s.seeds := by
      rw [List.length_take] at hroom
      exact List.take_of_length_le (by omega)
    have hslice : s.slice = s.seeds ++ s.reads.take (s.sliceSize - s.seeds.length) := by
      unfold slice
      rw [if_pos hroom, hall]
    rw [hall] at hroom
    refine ⟨s.seeds, s.reads.take (s.sliceSize - s.seeds.length), hslice, ?_, List.prefix_rfl,
      List.take_prefix _ _, fun _ => rfl, fun _ hne hnil => hne ?_, fun k => ?_⟩
    · rw [hslice, List.length_append, List.length_take]
      omega
    · rw [hslice] at hnil
      obtain ⟨hnil, hnil'⟩ := List.append_eq_nil_iff.1 hnil
      rcases List.take_eq_nil_iff.1 hnil' with hzero | hreads
      · omega
      · rw [hnil, hreads]
        rfl
    · have hreads : s.reads.drop (s.reads.take (s.sliceSize - s.seeds.length)).length =
          s.reads.drop (s.sliceSize - s.seeds.length) := by
        rw [List.length_take]
        rcases Nat.le_total (s.sliceSize - s.seeds.length) s.reads.length with hle | hle
        · rw [Nat.min_eq_left hle]
        · rw [Nat.min_eq_right hle, List.drop_length, List.drop_of_length_le hle]
      unfold drain
      dsimp only
      rw [← hseeds, hall, if_pos hroom, hreads]
  · have hslice : s.slice = s.seeds.take s.sliceSize := by
      unfold slice
      rw [if_neg hroom]
    refine ⟨s.seeds.take s.sliceSize, [], hslice.trans (List.append_nil _).symm, ?_,
      List.take_prefix _ _, List.nil_prefix, fun hne => absurd rfl hne, fun hsize _ hnil => ?_,
      fun k => ?_⟩
    · rw [hslice]
      exact List.length_take_le _ _
    · rw [hslice] at hnil
      rw [hnil] at hroom
      exact hroom hsize
    · unfold drain
      dsimp only
      rw [hseeds, if_neg hroom]
      rfl

theorem Sound.drain (h : s.Sound) (hget : s.drains[k]? = some .scheduled) : (s.drain k).Sound := by
  obtain ⟨hqueued, front, hdrains, hover, rfl, -⟩ := h.last hget nofun
  obtain ⟨seeds, reads, hslice, hlen, ⟨seeds', hseeds⟩, ⟨reads', hreads⟩, -, -, hdrain⟩ := slice_spec s
  have hjobs := h.jobs
  unfold waiting at hjobs
  rw [hdrains, List.flatMap_append, hover.left, List.nil_append, List.flatMap_singleton,
    ← hseeds, ← hreads] at hjobs
  rw [hdrain]
  refine Sound.loop (s := { s with
    seeds := s.seeds.drop seeds.length
    reads := s.reads.drop reads.length }) h.size ?_ hlen hqueued hdrains hover
  rw [hslice, List.drop_zero, ← hseeds, ← hreads, List.drop_left, List.drop_left]
  refine hjobs.perm ?_
  have hswap : (reads ++ (seeds' ++ reads')).Perm (seeds' ++ (reads ++ reads')) := by
    rw [← List.append_assoc, ← List.append_assoc]
    exact List.perm_append_comm.append_right reads'
  rw [List.append_assoc]
  exact (hswap.append_left seeds).trans (List.append_assoc seeds seeds' _ ▸ .refl _)

theorem Sound.settle (h : s.Sound) {job : Nat} (ok : Bool)
    (hget : s.drains[k]? = some (.running slice at_)) (hjob : slice[at_]? = some job) :
    (WatchPump.loop { s with jobs := s.jobs.modify job (·.settle (.own ok)) } k slice (at_ + 1)).Sound := by
  obtain ⟨hqueued, front, hdrains, hover, rfl, hlt, hlen⟩ := h.last hget nofun
  have hjobs := h.jobs
  unfold waiting at hjobs
  rw [hdrains, List.flatMap_append, hover.left, List.nil_append, List.flatMap_singleton] at hjobs
  have hdrop : slice.drop at_ = job :: slice.drop (at_ + 1) := by
    rw [List.drop_eq_getElem_cons hlt, (List.getElem?_eq_some_iff.1 hjob).2]
  refine Sound.loop (s := { s with jobs := s.jobs.modify job (·.settle (.own ok)) }) h.size ?_ hlen
    hqueued hdrains hover
  have hleft : DrainTurn.left (.running slice at_) = slice.drop at_ := rfl
  rw [hleft, hdrop] at hjobs
  exact JobsWait.settle hjobs (.own ok)

theorem Sound.refusal (h : s.Sound) (hget : s.drains[k]? = some .refused) :
    (rejectAll { s with drains := s.drains.set k .over, queued := false }).Sound := by
  obtain ⟨-, front, hdrains, hover, rfl, -⟩ := h.last hget nofun
  have hjobs := h.jobs
  unfold waiting at hjobs
  rw [hdrains, List.flatMap_append, hover.left, List.nil_append, List.flatMap_singleton,
    ← List.append_nil (s.seeds ++ s.reads)] at hjobs
  have hset : s.drains.set front.length .over = front ++ [.over] := by
    rw [hdrains, set_last]
  rw [hset]
  refine ⟨h.size, ?_, .inl ⟨rfl, hover.append, rfl, rfl⟩⟩
  unfold waiting rejectAll
  rw [hover.append.left]
  exact JobsWait.reject hjobs

theorem Sound.schedule (h : s.Sound) (seed : Bool) : (s.schedule seed).Sound := by
  have hpush := h.jobs.push seed
  -- where the job goes does not matter, and it is pending now
  have hpending : ∀ work : List Nat,
      (work ++ ((if seed then s.seeds ++ [s.jobs.length] else s.seeds) ++
        if seed then s.reads else s.reads ++ [s.jobs.length])).Perm
        (s.jobs.length :: (work ++ (s.seeds ++ s.reads))) := by
    intro work
    cases seed
    · change (work ++ (s.seeds ++ (s.reads ++ [s.jobs.length]))).Perm _
      rw [← List.append_assoc s.seeds, ← List.append_assoc work]
      exact List.perm_append_singleton _ _
    · change (work ++ ((s.seeds ++ [s.jobs.length]) ++ s.reads)).Perm _
      rw [List.append_assoc s.seeds, ← List.append_assoc work, ← List.append_assoc work]
      exact List.perm_middle
  have hne : (if seed then s.seeds ++ [s.jobs.length] else s.seeds) ++
      (if seed then s.reads else s.reads ++ [s.jobs.length]) ≠ [] := by
    cases seed
    · exact fun hnil => absurd (List.append_eq_nil_iff.1 hnil).2 (by simp)
    · exact fun hnil => absurd (List.append_eq_nil_iff.1 hnil).1 (by simp)
  have hjobs := hpush.perm (hpending (s.drains.flatMap DrainTurn.left))
  unfold WatchPump.schedule
  rcases h.phase with ⟨hqueued, hover, -⟩ | ⟨hqueued, front, d, hdrains, hover, hactive⟩
  · rw [if_neg (by rw [hqueued]; decide)]
    refine ⟨h.size, ?_, .inr ⟨rfl, s.drains, _, rfl, hover, ?_⟩⟩
    · have hnew : DrainTurn.left (if s.closed then .refused else .scheduled) = [] := by
        cases s.closed <;> rfl
      unfold waiting enqueue
      rw [List.flatMap_append, List.flatMap_singleton, hnew, List.append_nil]
      exact hjobs
    · dsimp only
      cases hclosed : s.closed
      · exact hne
      · rfl
  · rw [if_pos hqueued]
    refine ⟨h.size, hjobs, .inr ⟨hqueued, front, d, hdrains, hover, ?_⟩⟩
    cases d with
    | scheduled => exact hne
    | _ => exact hactive

theorem Sound.close (h : s.Sound) : ({ s with closed := true } : WatchPump).Sound := by
  refine { h with phase := h.phase.imp_right fun ⟨hqueued, front, d, hdrains, hover,
    hactive⟩ => ⟨hqueued, front, d, hdrains, hover, ?_⟩ }
  cases d with
  | refused => rfl
  | _ => exact hactive

theorem Sound.step (h : s.Sound) (hstep : s.step l = some t) : t.Sound := by
  cases l with
  | schedule seed =>
    cases hstep
    exact h.schedule seed
  | start k =>
    obtain ⟨hget, rfl⟩ := step_start hstep
    exact h.drain hget
  | settle k ok =>
    obtain ⟨slice, at_, job, hget, hjob, rfl⟩ := step_settle hstep
    exact h.settle ok hget hjob
  | refusal k =>
    obtain ⟨hget, rfl⟩ := step_refusal hstep
    exact h.refusal hget
  | close =>
    cases hstep
    exact h.close

theorem Sound.reachable (h : watchPump.Reachable s) : s.Sound := by
  refine h.invariant (fun u hinit => ?_) fun u l u' hu _ hstep => hu.step hstep
  obtain ⟨given, rfl⟩ := hinit
  refine ⟨?_, ⟨List.nodup_nil, nofun, nofun, nofun⟩, .inl ⟨rfl, nofun, rfl, rfl⟩⟩
  unfold sliceSizeOf
  cases given with
  | none => decide
  | some size =>
    dsimp only
    omega

/-! ## What a job is settled with -/

variable {i : Nat}

/-- What some jobs were rejected with. -/
theorem rejectJobs_get (ids : List Nat) (jobs : List WatchReadJob)
    (hget : (rejectJobs ids jobs)[i]? = some job') : ∃ job, jobs[i]? = some job ∧
      ∀ x ∈ job'.settled, x ∈ job.settled ∨ x = .shutdown := by
  induction ids generalizing jobs with
  | nil => exact ⟨job', hget, fun x hx => .inl hx⟩
  | cons id ids ih =>
    obtain ⟨job₁, hget₁, hall⟩ := ih _ hget
    rcases of_modify_get hget₁ with ⟨job, rfl, hjob, rfl⟩ | ⟨-, hjob⟩
    · refine ⟨job, hjob, fun x hx => ?_⟩
      rcases hall x hx with hx | hx
      · rcases List.mem_append.1 hx with hx | hx
        · exact .inl hx
        · exact .inr (List.mem_singleton.1 hx)
      · exact .inr hx
    · exact ⟨job₁, hjob, hall⟩

theorem finish_jobs (s : WatchPump) (k : Nat) : (s.finish k).jobs = s.jobs := by
  unfold WatchPump.finish
  dsimp only
  split <;> rfl

/-- The loop of a drain rejects jobs where the lane is closed. -/
theorem loop_get (s : WatchPump) (slice : List Nat) (at_ : Nat)
    (hget : (s.loop k slice at_).jobs[i]? = some job') : ∃ job, s.jobs[i]? = some job ∧
      (job' = job ∨ s.closed = true ∧ ∀ x ∈ job'.settled, x ∈ job.settled ∨ x = .shutdown) := by
  unfold WatchPump.loop at hget
  split at hget
  · rw [finish_jobs] at hget
    exact ⟨job', hget, .inl rfl⟩
  split at hget
  · rename_i hclosed
    rw [finish_jobs] at hget
    obtain ⟨job₁, hget₁, hall₁⟩ := rejectJobs_get _ _ hget
    obtain ⟨job, hjob, hall⟩ := rejectJobs_get _ _ hget₁
    refine ⟨job, hjob, .inr ⟨hclosed, fun x hx => ?_⟩⟩
    rcases hall₁ x hx with hx | hx
    · exact hall x hx
    · exact .inr hx
  · exact ⟨job', hget, .inl rfl⟩

/-- How a step may settle a job. -/
theorem Sound.settles (h : s.Sound) (hstep : s.step l = some t) {job : WatchReadJob}
    (hget : s.jobs[i]? = some job) (hget' : t.jobs[i]? = some job') (hnone : job.settled = [])
    {x : JobSettlement} (hx : x ∈ job'.settled) :
    (∃ k ok slice at_, l = .settle k ok ∧ s.drains[k]? = some (.running slice at_) ∧
      slice[at_]? = some i ∧ x = .own ok) ∨ s.closed = true ∧ x = .shutdown := by
  have hloop : ∀ {u : WatchPump} {k slice at_}, (u.loop k slice at_).jobs[i]? = some job' →
      u.jobs = s.jobs → u.closed = s.closed → s.closed = true ∧ x = .shutdown := by
    intro u k slice at_ hloop hjobs hclosed
    obtain ⟨job₀, hget₀, heq | ⟨hclosed', hall⟩⟩ := loop_get u slice at_ hloop
    · rw [hjobs] at hget₀
      cases hget.symm.trans hget₀
      rw [heq, hnone] at hx
      cases hx
    · rw [hjobs] at hget₀
      cases hget.symm.trans hget₀
      rcases hall x hx with hx | hx
      · rw [hnone] at hx
        cases hx
      · exact ⟨hclosed.symm.trans hclosed', hx⟩
  cases l with
  | schedule seed =>
    cases hstep
    have hsame : (s.schedule seed).jobs[i]? = some job := by
      unfold WatchPump.schedule
      dsimp only
      split <;> exact append_get _ hget
    rw [hsame] at hget'
    cases hget'
    rw [hnone] at hx
    cases hx
  | start k =>
    obtain ⟨-, rfl⟩ := step_start hstep
    obtain ⟨seeds, reads, -, -, -, -, -, -, hdrain⟩ := slice_spec s
    rw [hdrain] at hget'
    exact .inr (hloop hget' rfl rfl)
  | settle k ok =>
    obtain ⟨slice, at_, id, hrunning, hid, rfl⟩ := step_settle hstep
    obtain ⟨job₀, hget₀, heq⟩ := loop_get _ slice (at_ + 1) hget'
    rcases of_modify_get hget₀ with ⟨job₁, rfl, hget₁, rfl⟩ | ⟨hne, hget₁⟩
    · cases hget.symm.trans hget₁
      have hown : ∀ y ∈ (job.settle (.own ok)).settled, y = .own ok := by
        intro y hy
        unfold WatchReadJob.settle at hy
        rw [hnone] at hy
        exact List.mem_singleton.1 hy
      rcases heq with rfl | ⟨hclosed, hall⟩
      · exact .inl ⟨k, ok, slice, at_, rfl, hrunning, hid, hown x hx⟩
      rcases hall x hx with hx | hx
      · exact .inl ⟨k, ok, slice, at_, rfl, hrunning, hid, hown x hx⟩
      · exact .inr ⟨hclosed, hx⟩
    · cases hget.symm.trans hget₁
      rcases heq with rfl | ⟨hclosed, hall⟩
      · rw [hnone] at hx
        cases hx
      · rcases hall x hx with hx | hx
        · rw [hnone] at hx
          cases hx
        · exact .inr ⟨hclosed, hx⟩
  | refusal k =>
    obtain ⟨hrefused, rfl⟩ := step_refusal hstep
    obtain ⟨-, -, -, -, -, hclosed⟩ := h.last hrefused nofun
    obtain ⟨job₀, hget₀, hall⟩ := rejectJobs_get _ _ hget'
    cases hget.symm.trans hget₀
    rcases hall x hx with hx | hx
    · rw [hnone] at hx
      cases hx
    · exact .inr ⟨hclosed, hx⟩
  | close =>
    cases hstep
    rw [hget] at hget'
    cases hget'
    rw [hnone] at hx
    cases hx

/-! ## No job is stranded -/

/-- A drain for which the lane, or the handler of its refusal, has yet to come. -/
def comes : DrainTurn → Bool
  | .refused | .scheduled => true
  | _ => false

/-- What there is yet to do: it shrinks with everything that the pump does of itself. -/
def measure (s : WatchPump) : Nat := 2 * s.waiting.length + s.drains.countP comes

/-- What the pump does of itself. -/
def internal : Label → Bool
  | .start _ | .settle _ _ | .refusal _ => true
  | _ => false

theorem AllOver.comes (h : AllOver front) : front.countP WatchPump.comes = 0 := by
  refine List.countP_eq_zero.2 fun d hd hcomes => ?_
  rw [h d hd] at hcomes
  cases hcomes

theorem measure_over (hover : AllOver s.drains) : s.measure = 2 * (s.seeds.length + s.reads.length) := by
  unfold measure waiting
  rw [hover.left, hover.comes, List.nil_append, List.length_append]
  rfl

theorem measure_last (hdrains : s.drains = front ++ [d]) (hover : AllOver front) :
    s.measure = 2 * (d.left.length + (s.seeds.length + s.reads.length)) + if comes d then 1 else 0 := by
  unfold measure waiting
  rw [hdrains, List.flatMap_append, hover.left, List.nil_append, List.flatMap_singleton,
    List.length_append, List.length_append, List.countP_append, hover.comes, Nat.zero_add,
    List.countP_singleton]

theorem finish_measure (hdrains : s.drains = front ++ [d]) (hover : AllOver front) :
    (s.finish front.length).measure ≤ 2 * (s.seeds.length + s.reads.length) + 1 := by
  have hset : s.drains.set front.length .over = front ++ [.over] := by
    rw [hdrains, set_last]
  unfold WatchPump.finish
  dsimp only
  rw [hset]
  split
  · have hnew : DrainTurn.left (if s.closed then .refused else .scheduled) = [] := by
      cases s.closed <;> rfl
    rw [measure_last (s := enqueue { s with drains := front ++ [.over] }) rfl hover.append]
    dsimp only
    rw [hnew]
    have hone : (if comes (if s.closed then .refused else .scheduled) then 1 else 0) ≤ 1 := by
      split <;> decide
    change 2 * (0 + (s.seeds.length + s.reads.length)) + _ ≤ _
    omega
  · rw [measure_over (s := { s with drains := front ++ [.over], queued := false }) hover.append]
    exact Nat.le_succ _

theorem loop_measure (slice : List Nat) (at_ : Nat) (hdrains : s.drains = front ++ [d])
    (hover : AllOver front) : (s.loop front.length slice at_).measure ≤
      2 * ((slice.drop at_).length + (s.seeds.length + s.reads.length)) +
        if slice.length ≤ at_ then 1 else 0 := by
  unfold WatchPump.loop
  split
  · have hle := finish_measure hdrains hover
    omega
  split
  · have hset : s.drains.set front.length .over = front ++ [.over] := by
      rw [hdrains, set_last]
    have hover' : AllOver ((({ s with jobs := rejectJobs (slice.drop at_) s.jobs } :
        WatchPump).rejectAll).finish front.length).drains := by
      change AllOver (s.drains.set front.length .over)
      rw [hset]
      exact hover.append
    rw [measure_over hover']
    exact Nat.zero_le _
  · rw [measure_last (s := { s with drains := s.drains.set front.length (.running slice at_) })
      (by dsimp only; rw [hdrains, set_last]) hover]
    exact Nat.le_refl _

/-- What the pump does of itself comes to an end. -/
theorem Sound.measure_lt (h : s.Sound) (hinternal : internal l = true) (hstep : s.step l = some t) :
    t.measure < s.measure := by
  cases l with
  | schedule | close => cases hinternal
  | start k =>
    obtain ⟨hget, rfl⟩ := step_start hstep
    obtain ⟨-, front, hdrains, hover, rfl, hpending⟩ := h.last hget nofun
    obtain ⟨seeds, reads, hslice, -, ⟨seeds', hseeds⟩, ⟨reads', hreads⟩, -, hne, hdrain⟩ :=
      slice_spec s
    have hpos : 0 < s.slice.length := List.length_pos_iff.2 (hne h.size hpending)
    have hle := loop_measure s.slice 0 (s := { s with
      seeds := s.seeds.drop seeds.length
      reads := s.reads.drop reads.length }) hdrains hover
    rw [hdrain]
    rw [if_neg (Nat.not_le.2 hpos), List.drop_zero, List.length_drop, List.length_drop, hslice,
      List.length_append] at hle
    rw [measure_last hdrains hover]
    have hseedsLen := congrArg List.length hseeds
    have hreadsLen := congrArg List.length hreads
    rw [List.length_append] at hseedsLen hreadsLen
    change _ < 2 * (0 + (s.seeds.length + s.reads.length)) + 1
    rw [hslice]
    omega
  | settle k ok =>
    obtain ⟨slice, at_, job, hget, -, rfl⟩ := step_settle hstep
    obtain ⟨-, front, hdrains, hover, rfl, hlt, -⟩ := h.last hget nofun
    have hle := loop_measure slice (at_ + 1)
      (s := { s with jobs := s.jobs.modify job (·.settle (.own ok)) }) hdrains hover
    rw [measure_last hdrains hover]
    change _ < 2 * ((slice.drop at_).length + (s.seeds.length + s.reads.length)) + 0
    rw [List.length_drop]
    rw [List.length_drop] at hle
    dsimp only at hle
    split at hle <;> omega
  | refusal k =>
    obtain ⟨hget, rfl⟩ := step_refusal hstep
    obtain ⟨-, front, hdrains, hover, rfl, -⟩ := h.last hget nofun
    have hover' : AllOver (rejectAll { s with
        drains := s.drains.set front.length .over, queued := false }).drains := by
      change AllOver (s.drains.set front.length .over)
      rw [hdrains, set_last]
      exact hover.append
    rw [measure_over hover', measure_last hdrains hover]
    exact Nat.succ_pos _

/-- While a job waits, there is something that the pump does of itself. -/
theorem Sound.enabled (h : s.Sound) (hwaiting : s.waiting ≠ []) :
    ∃ l t, internal l = true ∧ s.step l = some t := by
  rcases h.phase with ⟨-, hover, hseeds, hreads⟩ | ⟨-, front, d, hdrains, hover, hactive⟩
  · refine absurd ?_ hwaiting
    unfold waiting
    rw [hover.left, hseeds, hreads]
    rfl
  · have hget : s.drains[front.length]? = some d := by
      rw [hdrains]
      exact List.getElem?_concat_length
    cases d with
    | refused =>
      have hstep : s.step (.refusal front.length) = some (rejectAll { s with
          drains := s.drains.set front.length .over, queued := false }) := by
        unfold WatchPump.step
        dsimp only
        rw [hget]
      exact ⟨_, _, rfl, hstep⟩
    | scheduled =>
      have hstep : s.step (.start front.length) = some (s.drain front.length) := by
        unfold WatchPump.step
        dsimp only
        rw [hget]
      exact ⟨_, _, rfl, hstep⟩
    | running slice at_ =>
      obtain ⟨hlt, -⟩ := hactive
      have hstep : s.step (.settle front.length true) = some (WatchPump.loop
          { s with jobs := s.jobs.modify slice[at_] (·.settle (.own true)) }
          front.length slice (at_ + 1)) := by
        unfold WatchPump.step
        dsimp only
        rw [hget]
        dsimp only
        rw [List.getElem?_eq_getElem hlt]
      exact ⟨_, _, rfl, hstep⟩
    | _ => exact hactive.elim

/-! ## What the drains come to -/

/-- What a step may make of a drain. -/
inductive DrainMove (s : WatchPump) : DrainTurn → DrainTurn → Prop
  | stays (d : DrainTurn) : DrainMove s d d
  | ends (d : DrainTurn) : DrainMove s d .over
  | starts (hopen : s.closed = false) : DrainMove s .scheduled (.running s.slice 0)
  | goesOn (slice : List Nat) (at_ : Nat) (hopen : s.closed = false) :
      DrainMove s (.running slice at_) (.running slice (at_ + 1))

/-- The drains after a step: the ones there were, and those that were enqueued. -/
def DrainsMove (s : WatchPump) (drains : List DrainTurn) : Prop :=
  ∃ before rest, drains = before ++ rest ∧ before.length = s.drains.length ∧
    (∀ (k : Nat) (d' : DrainTurn), before[k]? = some d' →
      ∃ d, s.drains[k]? = some d ∧ DrainMove s d d') ∧
    ∀ d ∈ rest, d = .scheduled ∨ d = .refused

/-- One of the drains moves. -/
theorem DrainsMove.set {d d' : DrainTurn} (hget : s.drains[k]? = some d) (hmove : DrainMove s d d')
    {rest : List DrainTurn} (hrest : ∀ d ∈ rest, d = .scheduled ∨ d = .refused) :
    DrainsMove s (s.drains.set k d' ++ rest) := by
  refine ⟨_, rest, rfl, List.length_set, fun j e hj => ?_, hrest⟩
  rcases of_set_get hj with ⟨rfl, rfl⟩ | ⟨-, hj⟩
  · exact ⟨d, hget, hmove⟩
  · exact ⟨e, hj, .stays e⟩

theorem DrainsMove.append {rest : List DrainTurn} (hrest : ∀ d ∈ rest, d = .scheduled ∨ d = .refused) :
    DrainsMove s (s.drains ++ rest) :=
  ⟨_, rest, rfl, rfl, fun _ e hj => ⟨e, hj, .stays e⟩, hrest⟩

theorem new_drain (closed : Bool) :
    ∀ d ∈ [if closed then DrainTurn.refused else .scheduled], d = .scheduled ∨ d = .refused := by
  intro d hd
  rw [List.mem_singleton.1 hd]
  cases closed
  · exact .inl rfl
  · exact .inr rfl

theorem finish_drains (s : WatchPump) (k : Nat) : ∃ rest,
    (s.finish k).drains = s.drains.set k .over ++ rest ∧ ∀ d ∈ rest, d = .scheduled ∨ d = .refused := by
  unfold WatchPump.finish
  dsimp only
  split
  · exact ⟨_, rfl, new_drain s.closed⟩
  · exact ⟨[], (List.append_nil _).symm, nofun⟩

/-- A drain is over after the loop, or it awaits the job at the place. -/
theorem loop_drains (s : WatchPump) (k : Nat) (slice : List Nat) (at_ : Nat) : ∃ d rest,
    (s.loop k slice at_).drains = s.drains.set k d ++ rest ∧
      (d = .over ∨ d = .running slice at_ ∧ s.closed = false) ∧
      ∀ d ∈ rest, d = .scheduled ∨ d = .refused := by
  unfold WatchPump.loop
  split
  · obtain ⟨rest, hdrains, hrest⟩ := finish_drains s k
    exact ⟨_, rest, hdrains, .inl rfl, hrest⟩
  split
  · obtain ⟨rest, hdrains, hrest⟩ := finish_drains
      ({ s with jobs := rejectJobs (slice.drop at_) s.jobs } : WatchPump).rejectAll k
    exact ⟨_, rest, hdrains, .inl rfl, hrest⟩
  · rename_i hopen
    exact ⟨_, [], (List.append_nil _).symm, .inr ⟨rfl, Bool.not_eq_true _ ▸ hopen⟩, nofun⟩

theorem step_drains (hstep : s.step l = some t) : DrainsMove s t.drains := by
  cases l with
  | schedule seed =>
    cases hstep
    unfold WatchPump.schedule
    dsimp only
    split
    · exact List.append_nil s.drains ▸ DrainsMove.append nofun
    · exact DrainsMove.append (new_drain s.closed)
  | start k =>
    obtain ⟨hget, rfl⟩ := step_start hstep
    obtain ⟨seeds, reads, -, -, -, -, -, -, hdrain⟩ := slice_spec s
    obtain ⟨d, rest, hdrains, hd, hrest⟩ := loop_drains { s with
      seeds := s.seeds.drop seeds.length
      reads := s.reads.drop reads.length } k s.slice 0
    rw [hdrain, hdrains]
    rcases hd with rfl | ⟨rfl, hopen⟩
    · exact .set hget (.ends _) hrest
    · exact .set hget (.starts hopen) hrest
  | settle k ok =>
    obtain ⟨slice, at_, job, hget, -, rfl⟩ := step_settle hstep
    obtain ⟨d, rest, hdrains, hd, hrest⟩ := loop_drains
      { s with jobs := s.jobs.modify job (·.settle (.own ok)) } k slice (at_ + 1)
    rw [hdrains]
    rcases hd with rfl | ⟨rfl, hopen⟩
    · exact .set hget (.ends _) hrest
    · exact .set hget (.goesOn slice at_ hopen) hrest
  | refusal k =>
    obtain ⟨hget, rfl⟩ := step_refusal hstep
    exact List.append_nil (s.drains.set k .over) ▸ DrainsMove.set hget (.ends _) nofun
  | close =>
    cases hstep
    exact List.append_nil s.drains ▸ DrainsMove.append nofun

/-- What becomes of a drain in one step. -/
theorem step_drain (hstep : s.step l = some t) (hget : s.drains[k]? = some d) :
    ∃ d', t.drains[k]? = some d' ∧ DrainMove s d d' := by
  obtain ⟨before, rest, hdrains, hlen, hmove, -⟩ := step_drains hstep
  have hlt : k < before.length := hlen ▸ lt_of_get hget
  obtain ⟨d₀, hget₀, hd₀⟩ := hmove k before[k] (List.getElem?_eq_getElem hlt)
  cases hget₀.symm.trans hget
  refine ⟨before[k], ?_, hd₀⟩
  rw [hdrains, List.getElem?_append_left hlt, List.getElem?_eq_getElem hlt]

/-- A drain that runs has been there. -/
theorem of_step_running (hstep : s.step l = some t)
    (hget : t.drains[k]? = some (.running slice at_)) :
    ∃ d, s.drains[k]? = some d ∧ DrainMove s d (.running slice at_) := by
  obtain ⟨before, rest, hdrains, -, hmove, hrest⟩ := step_drains hstep
  rw [hdrains] at hget
  rcases Nat.lt_or_ge k before.length with hlt | hle
  · rw [List.getElem?_append_left hlt] at hget
    exact hmove k _ hget
  · rw [List.getElem?_append_right hle] at hget
    rcases hrest _ (List.mem_of_getElem? hget) with heq | heq <;> cases heq

/-- The drain has begun, and it has not taken the job. -/
def Passed (k i : Nat) (s : WatchPump) : Prop :=
  ∃ d, s.drains[k]? = some d ∧ d ≠ .scheduled ∧ i ∉ d.left

theorem Passed.step (h : s.Passed k i) (hstep : s.step l = some t) : t.Passed k i := by
  obtain ⟨d, hget, hd, hnotin⟩ := h
  obtain ⟨d', hget', hmove⟩ := step_drain hstep hget
  refine ⟨d', hget', ?_⟩
  cases hmove with
  | stays => exact ⟨hd, hnotin⟩
  | ends => exact ⟨nofun, List.not_mem_nil⟩
  | starts => exact absurd rfl hd
  | goesOn slice at_ =>
    refine ⟨nofun, fun hin => hnotin ?_⟩
    exact (List.drop_sublist_drop_left slice (Nat.le_succ at_)).subset hin

/-- What a drain has not taken is left to a later one. -/
theorem Sound.passed (h : s.Sound) {j : Nat} (hpassed : s.Passed k i)
    (hget : s.drains[j]? = some (.running slice at_)) (hin : i ∈ slice.drop at_) : k < j := by
  obtain ⟨d, hgetk, -, hnotin⟩ := hpassed
  obtain ⟨-, front, hdrains, -, rfl, -⟩ := h.last hget nofun
  have hlt := lt_of_get hgetk
  rw [hdrains, List.length_append, List.length_singleton] at hlt
  refine Nat.lt_of_le_of_ne (Nat.le_of_lt_succ hlt) ?_
  rintro rfl
  rw [hget] at hgetk
  cases hgetk
  exact hnotin hin

/-- A job that is pending while a drain runs has not been taken by it. -/
theorem Sound.passes (h : s.Sound) (hget : s.drains[k]? = some (.running slice at_))
    (hpending : i ∈ s.seeds ++ s.reads) : s.Passed k i := by
  obtain ⟨-, front, hdrains, hover, rfl, -⟩ := h.last hget nofun
  have hnodup := h.jobs.nodup
  unfold waiting at hnodup
  rw [hdrains, List.flatMap_append, hover.left, List.nil_append, List.flatMap_singleton] at hnodup
  exact ⟨_, hget, nofun, fun hin => (List.nodup_append.1 hnodup).2.2 i hin i hpending rfl⟩

/-- The jobs go on: nothing takes a settlement back. -/
def JobsGo (jobs jobs' : List WatchReadJob) : Prop :=
  ∀ (i : Nat) (job : WatchReadJob), jobs[i]? = some job →
    ∃ job', jobs'[i]? = some job' ∧ job.settled <+: job'.settled

theorem JobsGo.refl (jobs : List WatchReadJob) : JobsGo jobs jobs :=
  fun _ job hget => ⟨job, hget, List.prefix_rfl⟩

theorem JobsGo.trans {jobs jobs' jobs'' : List WatchReadJob} (h : JobsGo jobs jobs')
    (h' : JobsGo jobs' jobs'') : JobsGo jobs jobs'' := by
  intro i job hget
  obtain ⟨job', hget', hle⟩ := h i job hget
  obtain ⟨job'', hget'', hle'⟩ := h' i job' hget'
  exact ⟨job'', hget'', hle.trans hle'⟩

theorem JobsGo.settle (jobs : List WatchReadJob) (i : Nat) (settlement : JobSettlement) :
    JobsGo jobs (jobs.modify i (·.settle settlement)) := by
  intro j job hget
  rcases Decidable.em (j = i) with rfl | hne
  · exact ⟨_, modify_get_self _ hget, List.prefix_append _ _⟩
  · exact ⟨job, (modify_get_other _ hne).trans hget, List.prefix_rfl⟩

theorem JobsGo.reject (ids : List Nat) (jobs : List WatchReadJob) : JobsGo jobs (rejectJobs ids jobs) := by
  induction ids generalizing jobs with
  | nil => exact .refl jobs
  | cons id ids ih => exact (JobsGo.settle jobs id .shutdown).trans (ih _)

theorem loop_jobs (s : WatchPump) (k : Nat) (slice : List Nat) (at_ : Nat) :
    JobsGo s.jobs (s.loop k slice at_).jobs := by
  unfold WatchPump.loop
  split
  · rw [finish_jobs]
    exact .refl _
  · split
    · rw [finish_jobs]
      exact (JobsGo.reject _ _).trans (JobsGo.reject _ _)
    · exact .refl _

theorem step_jobs (hstep : s.step l = some t) : JobsGo s.jobs t.jobs := by
  cases l with
  | schedule seed =>
    cases hstep
    intro i job hget
    refine ⟨job, ?_, List.prefix_rfl⟩
    unfold WatchPump.schedule
    dsimp only
    split <;> exact append_get _ hget
  | start k =>
    obtain ⟨-, rfl⟩ := step_start hstep
    obtain ⟨seeds, reads, -, -, -, -, -, -, hdrain⟩ := slice_spec s
    rw [hdrain]
    exact loop_jobs { s with
      seeds := s.seeds.drop seeds.length
      reads := s.reads.drop reads.length } k s.slice 0
  | settle k ok =>
    obtain ⟨slice, at_, job, -, -, rfl⟩ := step_settle hstep
    exact (JobsGo.settle s.jobs job (.own ok)).trans
      (loop_jobs { s with jobs := s.jobs.modify job (·.settle (.own ok)) } k slice (at_ + 1))
  | refusal k =>
    obtain ⟨-, rfl⟩ := step_refusal hstep
    exact JobsGo.reject _ _
  | close =>
    cases hstep
    exact .refl _

/-- A closed lane stays closed. -/
theorem step_closed (hstep : s.step l = some t) (hclosed : s.closed = true) : t.closed = true := by
  have hfinish : ∀ (u : WatchPump) k, (u.finish k).closed = u.closed := by
    intro u k
    unfold WatchPump.finish
    dsimp only
    split <;> rfl
  have hloop : ∀ (u : WatchPump) k slice at_, (u.loop k slice at_).closed = u.closed := by
    intro u k slice at_
    unfold WatchPump.loop
    split
    · exact hfinish u k
    split
    · exact hfinish _ k
    · rfl
  cases l with
  | schedule seed =>
    cases hstep
    unfold WatchPump.schedule
    dsimp only
    split <;> exact hclosed
  | start k =>
    obtain ⟨-, rfl⟩ := step_start hstep
    exact (hloop _ k _ _).trans hclosed
  | settle k ok =>
    obtain ⟨slice, at_, job, -, -, rfl⟩ := step_settle hstep
    exact (hloop _ k _ _).trans hclosed
  | refusal k =>
    obtain ⟨-, rfl⟩ := step_refusal hstep
    exact hclosed
  | close =>
    cases hstep
    rfl

/-- The lane is closed, and the job is not the one that a drain awaits: it has been rejected, or
nothing has been said of it yet. -/
structure Doomed (i : Nat) (s : WatchPump) : Prop where
  closed : s.closed = true
  job : ∃ job, s.jobs[i]? = some job ∧ (job.settled = [.shutdown] ∨ job.settled = [] ∧
    ∀ (k : Nat) (slice : List Nat) (at_ : Nat), s.drains[k]? = some (.running slice at_) →
      slice[at_]? ≠ some i)

/-- Nothing but the shutdown comes of a job that waits when the lane is closed. -/
theorem Doomed.step (h : s.Doomed i) (hsound : s.Sound) (hstep : s.step l = some t) :
    t.Doomed i := by
  obtain ⟨hclosed, job, hget, hjob⟩ := h
  obtain ⟨job', hget', hle⟩ := step_jobs hstep i job hget
  have honce := (hsound.step hstep).jobs.once i job' hget'
  refine ⟨step_closed hstep hclosed, job', hget', ?_⟩
  rcases hjob with hshutdown | ⟨hnone, hawaited⟩
  · left
    rw [hshutdown] at hle
    exact (hle.eq_of_length_le honce).symm
  · have hall : ∀ x ∈ job'.settled, x = .shutdown := by
      intro x hx
      rcases hsound.settles hstep hget hget' hnone hx with
        ⟨k, ok, slice, at_, -, hrunning, hplace, -⟩ | ⟨-, rfl⟩
      · exact absurd hplace (hawaited k slice at_ hrunning)
      · rfl
    rcases hsettled : job'.settled with _ | ⟨x, rest⟩
    · refine .inr ⟨rfl, fun k slice at_ hrunning => ?_⟩
      obtain ⟨d, hget₀, hmove⟩ := of_step_running hstep hrunning
      -- with the lane closed no drain begins, and none goes on
      cases hmove with
      | stays => exact hawaited k slice at_ hget₀
      | starts hopen | goesOn _ _ hopen => exact nomatch hopen.symm.trans hclosed
    · rw [hsettled] at hall honce
      obtain rfl : rest = [] := List.length_eq_zero_iff.1 (Nat.le_zero.1 (Nat.le_of_succ_le_succ honce))
      exact .inl (by rw [hall x List.mem_cons_self])

/-- A drain begins with the seeds. -/
theorem Sound.starts (h : s.Sound) (hstep : s.step (.start k) = some t) : ∃ seeds reads,
    s.slice = seeds ++ reads ∧ s.slice.length ≤ s.sliceSize ∧ seeds <+: s.seeds ∧
    reads <+: s.reads ∧ (reads ≠ [] → seeds = s.seeds) ∧
    (t.drains[k]? = some (.running s.slice 0) ∧ t.seeds = s.seeds.drop seeds.length ∧
        t.reads = s.reads.drop reads.length ∨
      s.closed = true ∧ t.waiting = []) := by
  obtain ⟨hget, rfl⟩ := step_start hstep
  obtain ⟨-, front, hdrains, hover, rfl, hpending⟩ := h.last hget nofun
  obtain ⟨seeds, reads, hslice, hlen, hseeds, hreads, hfirst, hne, hdrain⟩ := slice_spec s
  refine ⟨seeds, reads, hslice, hlen, hseeds, hreads, hfirst, ?_⟩
  rw [hdrain]
  unfold WatchPump.loop
  rw [if_neg (Nat.not_le.2 (List.length_pos_iff.2 (hne h.size hpending)))]
  split
  · rename_i hclosed
    refine .inr ⟨hclosed, ?_⟩
    have hover' : AllOver (s.drains.set front.length .over) := by
      rw [hdrains, set_last]
      exact hover.append
    change (s.drains.set front.length .over).flatMap DrainTurn.left ++ [] = []
    rw [hover'.left]
    rfl
  · exact .inl ⟨List.getElem?_set_self (lt_of_get hget), rfl, rfl⟩

/-- Each job is settled once, by a drain that keeps to the order and to the size. -/
theorem watch_reads_settle (h : watchPump.Reachable s) :
    (∀ (i : Nat) (job : WatchReadJob), s.jobs[i]? = some job →
      job.settled.length ≤ 1 ∧ (job.settled = [] ↔ i ∈ s.waiting)) ∧
    -- one drain at most is queued or runs, and one does while a job waits
    (∀ (j k : Nat) (d e : DrainTurn), s.drains[j]? = some d → s.drains[k]? = some e →
      d ≠ .over → e ≠ .over → j = k) ∧
    (s.waiting ≠ [] → ∃ l t, internal l = true ∧ s.step l = some t) ∧
    (∀ (k : Nat) (slice : List Nat) (at_ : Nat), s.drains[k]? = some (.running slice at_) →
      slice.length ≤ s.sliceSize) ∧
    (∀ (l : Label) (t : WatchPump), s.step l = some t →
      (internal l = true → t.measure < s.measure) ∧
      JobsGo s.jobs t.jobs ∧
      (∀ seed, l = .schedule seed → t.jobs = s.jobs ++ [{ seed := seed }] ∧
        t.seeds = (if seed then s.seeds ++ [s.jobs.length] else s.seeds) ∧
        t.reads = (if seed then s.reads else s.reads ++ [s.jobs.length])) ∧
      (∀ k, l = .start k → ∃ seeds reads, s.slice = seeds ++ reads ∧
        seeds <+: s.seeds ∧ reads <+: s.reads ∧ (reads ≠ [] → seeds = s.seeds) ∧
        (t.drains[k]? = some (.running s.slice 0) ∧ t.seeds = s.seeds.drop seeds.length ∧
            t.reads = s.reads.drop reads.length ∨
          s.closed = true ∧ t.waiting = [])) ∧
      (∀ (k : Nat) (d : DrainTurn), s.drains[k]? = some d →
        ∃ d', t.drains[k]? = some d' ∧ DrainMove s d d') ∧
      ∀ (i : Nat) (job job' : WatchReadJob) (x : JobSettlement), s.jobs[i]? = some job →
        t.jobs[i]? = some job' → job.settled = [] → x ∈ job'.settled →
        (∃ k ok slice at_, l = .settle k ok ∧ s.drains[k]? = some (.running slice at_) ∧
          slice[at_]? = some i ∧ x = .own ok) ∨ s.closed = true ∧ x = .shutdown) ∧
    -- what is pending while a drain runs is served by a later one
    (∀ (k : Nat) (slice : List Nat) (at_ i : Nat), s.drains[k]? = some (.running slice at_) →
      i ∈ s.seeds ++ s.reads → ∀ t, (watchPump.since s).Reachable t →
        ∀ (j : Nat) (slice' : List Nat) (at' : Nat), t.drains[j]? = some (.running slice' at') →
          i ∈ slice'.drop at' → k < j) ∧
    -- what waits when the lane is closed is rejected, but for the read under way
    (∀ i ∈ s.waiting, s.closed = true → (∀ (k : Nat) (slice : List Nat) (at_ : Nat),
        s.drains[k]? = some (.running slice at_) → slice[at_]? ≠ some i) →
      ∀ t, (watchPump.since s).Reachable t → ∃ job, t.jobs[i]? = some job ∧
        (job.settled = [] ∨ job.settled = [.shutdown])) := by
  have hsound := Sound.reachable h
  have hlater : ∀ {t : WatchPump}, (watchPump.since s).Reachable t → t.Sound :=
    fun hrun => Sound.reachable (h.since hrun)
  refine ⟨fun i job hget => ⟨hsound.jobs.once i job hget, hsound.jobs.waits i job hget⟩,
    fun j k d e hj hk hd he => ?_, hsound.enabled, fun k slice at_ hget => ?_, fun l t hstep => ?_,
    fun k slice at_ i hget hpending t hrun j slice' at' hget' hin => ?_,
    fun i hin hclosed hawaited t hrun => ?_⟩
  · obtain ⟨-, front, hdrains, -, rfl, -⟩ := hsound.last hj hd
    obtain ⟨-, front', hdrains', -, rfl, -⟩ := hsound.last hk he
    rw [← (List.append_inj' (hdrains.symm.trans hdrains') rfl).1]
  · obtain ⟨-, front, -, -, -, -, hlen⟩ := hsound.last hget nofun
    exact hlen
  · refine ⟨fun hinternal => hsound.measure_lt hinternal hstep, step_jobs hstep, ?_, ?_,
      fun k d hget => step_drain hstep hget,
      fun i job job' x hget hget' hnone hx => hsound.settles hstep hget hget' hnone hx⟩
    · rintro seed rfl
      cases hstep
      unfold WatchPump.schedule
      dsimp only
      split <;> exact ⟨rfl, rfl, rfl⟩
    · rintro k rfl
      obtain ⟨seeds, reads, hslice, -, hrest⟩ := hsound.starts hstep
      exact ⟨seeds, reads, hslice, hrest⟩
  · have hpassed : t.Passed k i := by
      refine hrun.invariant (I := fun u => u.Passed k i) ?_ fun u l u' hu _ hstep => hu.step hstep
      rintro u rfl
      exact hsound.passes hget hpending
    exact (hlater hrun).passed hpassed hget' hin
  · have hdoomed : t.Doomed i ∧ t.Sound := by
      refine hrun.invariant (I := fun u => u.Doomed i ∧ u.Sound) ?_
        fun u l u' hu _ hstep => ⟨hu.1.step hu.2 hstep, hu.2.step hstep⟩
      rintro u rfl
      have hlt := hsound.jobs.bound i hin
      exact ⟨⟨hclosed, _, List.getElem?_eq_getElem hlt, .inr
        ⟨(hsound.jobs.waits i _ (List.getElem?_eq_getElem hlt)).2 hin, hawaited⟩⟩, hsound⟩
    obtain ⟨job, hget, hjob⟩ := hdoomed.1.job
    exact ⟨job, hget, hjob.symm.imp_left (·.1)⟩

/-- A re-read waits behind a seed, another comes while the seed is read, and the lane closes while
the first is read. -/
def closedRun : List Label :=
  [.schedule false, .schedule true, .start 0, .schedule false, .settle 0 true, .start 1, .close,
    .settle 1 false, .schedule true, .refusal 2]

def closedEnd : WatchPump :=
  (watchPump.exec (fun _ _ => True) { sliceSize := 1 } closedRun).get (by decide)

theorem watch_reads_settle_closed :
    closedEnd.jobs.map (·.settled) = [[.own false], [.own true], [.shutdown], [.shutdown]] ∧
      closedEnd.drains = [.over, .over, .over] ∧
      ∀ (i : Nat) (job : WatchReadJob), closedEnd.jobs[i]? = some job → job.settled.length ≤ 1 := by
  have hstart : watchPump.Reachable { sliceSize := 1 } := .start ⟨some 1, rfl⟩
  exact ⟨by decide, by decide, fun i job hget =>
    ((watch_reads_settle (hstart.exec_get closedRun (by decide))).1 i job hget).1⟩

end WatchPump

end SigxActors.Host
