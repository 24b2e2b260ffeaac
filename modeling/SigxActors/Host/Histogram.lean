/-
  Host/Histogram.lean --- latencies counted in log-linear buckets, and digests of them.

  Source: `packages/actors/src/host/histogram.ts`.

  A duration is a rational number of milliseconds.  What a peer sends is `none` where it is not a
  finite number.  Counts and sums are exact; a product or a quotient is the nearest double.
-/
import Mathlib

set_option autoImplicit false

namespace SigxActors.Host

namespace Histogram

/-! ## Buckets -/

/-- `SUB_BITS`. -/
def subBits : Nat := 4

/-- `SUB`. -/
def sub : Nat := 1 <<< subBits

/-- `MAX_OCTAVE`. -/
def maxOctave : Nat := 26

/-- `BUCKETS`. -/
def bucketCount : Nat := sub + (maxOctave - subBits + 1) * sub

/-- `CLZ32_LIMIT`. -/
def clz32Limit : Nat := 2 ^ 32

/-- `Math.clz32`, below its limit. -/
def clz32 (n : Nat) : Nat := if n = 0 then 32 else 31 - n.log2

def bucketOf (us : Nat) : Nat :=
  if us < sub then us
  else if clz32Limit ≤ us then bucketCount - 1
  else
    let octave := 31 - clz32 us
    if maxOctave < octave then bucketCount - 1
    else
      let mantissa := (us >>> (octave - subBits)) - sub
      (octave - subBits + 1) * sub + mantissa

def valueOf (bucket : Nat) : Nat :=
  if bucket < sub then bucket
  else
    let octave := (bucket - sub) / sub + subBits
    let mantissa := (bucket - sub) % sub
    (sub + mantissa) <<< (octave - subBits)

/-- `HISTOGRAM_LAYOUT`. -/
def histogramLayout : String := "ll-" ++ Nat.repr subBits ++ "-" ++ Nat.repr maxOctave

/-- `Infinity` is `⊤`. -/
def bucketUpperBoundsUs (layout : String) : Option (List (WithTop Nat)) :=
  if layout ≠ histogramLayout then none
  else some ((List.range (bucketCount - 1)).map (fun b => (valueOf (b + 1) : WithTop Nat)) ++ [⊤])

variable {us us' b b' e k : Nat}

/-- The bucket of a mantissa in an octave begins with the mantissa's first value. -/
theorem valueOf_octave (hk : k < sub) : valueOf ((e + 1) * sub + k) = (sub + k) * 2 ^ e := by
  have hsub : sub = 16 := rfl
  unfold valueOf
  rw [hsub] at hk ⊢
  have hpast : ¬ (e + 1) * 16 + k < 16 := by omega
  have hoctave : ((e + 1) * 16 + k - 16) / 16 = e := by omega
  have hmantissa : ((e + 1) * 16 + k - 16) % 16 = k := by omega
  rw [if_neg hpast]
  rw [hoctave, hmantissa, Nat.shiftLeft_eq, Nat.add_sub_cancel]

/-- Every bucket from 16 on is one of a mantissa in an octave. -/
theorem octave_of_le (h : sub ≤ b) : ∃ e k, k < sub ∧ b = (e + 1) * sub + k := by
  have hsub : sub = 16 := rfl
  rw [hsub] at h ⊢
  refine ⟨b / 16 - 1, b % 16, Nat.mod_lt _ (by decide), ?_⟩
  omega

/-- A mantissa's values end where the next bucket begins. -/
theorem valueOf_octave_succ (hk : k < sub) :
    valueOf ((e + 1) * sub + k + 1) = (sub + k + 1) * 2 ^ e := by
  have hsub : sub = 16 := rfl
  rcases Nat.lt_or_ge (k + 1) sub with hlt | hge
  · rw [Nat.add_assoc, valueOf_octave hlt, Nat.add_assoc]
  have hnext : (e + 1) * sub + k + 1 = (e + 1 + 1) * sub + 0 := by
    rw [hsub] at hk hge ⊢
    omega
  have hfull : sub + k + 1 = sub * 2 := by
    omega
  rw [hnext, valueOf_octave (by decide), Nat.add_zero, hfull, Nat.pow_succ, Nat.mul_assoc,
    Nat.mul_comm (2 ^ e)]

theorem valueOf_lt_succ (b : Nat) : valueOf b < valueOf (b + 1) := by
  rcases Nat.lt_or_ge b sub with hlt | hge
  · rcases Nat.lt_or_ge (b + 1) sub with hlt' | hge'
    · unfold valueOf
      rw [if_pos hlt, if_pos hlt']
      exact Nat.lt_succ_self b
    · have hb : b = sub - 1 := by omega
      subst hb
      decide
  · obtain ⟨e, k, hk, rfl⟩ := octave_of_le hge
    rw [valueOf_octave hk, valueOf_octave_succ hk]
    exact Nat.mul_lt_mul_of_pos_right (Nat.lt_succ_self _) (Nat.two_pow_pos e)

theorem valueOf_mono (h : b ≤ b') : valueOf b ≤ valueOf b' := by
  induction b', h using Nat.le_induction with
  | base => exact Nat.le_refl _
  | succ b' _ ih => exact Nat.le_trans ih (Nat.le_of_lt (valueOf_lt_succ b'))

/-- The octave and the mantissa of a value that is not past the last bucket. -/
theorem bucketOf_octave (hsub : sub ≤ us) (hmax : us < 2 ^ (maxOctave + 1)) :
    ∃ e k, k < sub ∧ e + subBits ≤ maxOctave ∧ bucketOf us = (e + 1) * sub + k ∧
      (sub + k) * 2 ^ e ≤ us ∧ us < (sub + k + 1) * 2 ^ e := by
  have hne : us ≠ 0 := by
    rintro rfl
    exact absurd hsub (by decide)
  have hlog : subBits ≤ us.log2 := (Nat.le_log2 hne).2 hsub
  have hlog' : us.log2 < maxOctave + 1 := (Nat.log2_lt hne).2 hmax
  have hsplit : 2 ^ us.log2 = sub * 2 ^ (us.log2 - subBits) := by
    have hpow : sub = 2 ^ subBits := rfl
    rw [hpow, ← Nat.pow_add, Nat.add_sub_cancel' hlog]
  have hlow := Nat.log2_self_le hne
  have hhigh := Nat.lt_log2_self (n := us)
  rw [Nat.pow_succ, hsplit] at hhigh
  rw [hsplit] at hlow
  have hpos := Nat.two_pow_pos (us.log2 - subBits)
  have hmantissa : sub ≤ us / 2 ^ (us.log2 - subBits) := (Nat.le_div_iff_mul_le hpos).2 hlow
  have hmantissa' : us / 2 ^ (us.log2 - subBits) < sub * 2 := by
    refine (Nat.div_lt_iff_lt_mul hpos).2 ?_
    rw [Nat.mul_right_comm]
    exact hhigh
  refine ⟨us.log2 - subBits, us / 2 ^ (us.log2 - subBits) - sub, by omega, by omega, ?_, ?_, ?_⟩
  · have hclz : 31 - clz32 us = us.log2 := by
      have hmost : maxOctave = 26 := rfl
      unfold clz32
      rw [if_neg hne]
      omega
    have hlimit : ¬ clz32Limit ≤ us := Nat.not_le.2 (Nat.lt_trans hmax (by decide))
    unfold bucketOf
    rw [if_neg (Nat.not_lt.2 hsub), if_neg hlimit]
    rw [hclz, if_neg (Nat.not_lt.2 (Nat.le_of_lt_succ hlog')), Nat.shiftRight_eq_div_pow]
  · rw [Nat.add_sub_cancel' hmantissa]
    exact Nat.div_mul_le_self us _
  · rw [Nat.add_sub_cancel' hmantissa, Nat.mul_comm]
    exact Nat.lt_mul_div_succ us hpos

theorem bucketOf_past (hmax : 2 ^ (maxOctave + 1) ≤ us) : bucketOf us = bucketCount - 1 := by
  have hsub : ¬ us < sub := Nat.not_lt.2 (Nat.le_trans (by decide) hmax)
  unfold bucketOf
  rw [if_neg hsub]
  split
  · rfl
  rename_i hlimit
  have hne : us ≠ 0 := by
    rintro rfl
    exact absurd hmax (by decide)
  have hlog : maxOctave + 1 ≤ us.log2 := (Nat.le_log2 hne).2 hmax
  have hlog' : us.log2 < 32 := (Nat.log2_lt hne).2 (Nat.lt_of_not_le hlimit)
  have hclz : 31 - clz32 us = us.log2 := by
    unfold clz32
    rw [if_neg hne]
    omega
  rw [hclz]
  exact if_pos hlog

/-- A value is not below its bucket, and it is below the next one, of which the last has none. -/
theorem bucketOf_spec (us : Nat) : bucketOf us < bucketCount ∧ valueOf (bucketOf us) ≤ us ∧
    (bucketOf us = bucketCount - 1 ∨ us < valueOf (bucketOf us + 1)) := by
  rcases Nat.lt_or_ge us sub with hlt | hge
  · have hsame : bucketOf us = us := if_pos hlt
    have hvalue : valueOf us = us := if_pos hlt
    have hnext := valueOf_lt_succ us
    rw [hvalue] at hnext
    rw [hsame, hvalue]
    exact ⟨Nat.lt_trans hlt (by decide), Nat.le_refl us, .inr hnext⟩
  · rcases Nat.lt_or_ge us (2 ^ (maxOctave + 1)) with hlt | hpast
    · obtain ⟨e, k, hk, he, hbucket, hlow, hhigh⟩ := bucketOf_octave hge hlt
      rw [hbucket, valueOf_octave hk, valueOf_octave_succ hk]
      refine ⟨?_, hlow, .inr hhigh⟩
      have hsub : sub = 16 := rfl
      have hbits : subBits = 4 := rfl
      have hmost : maxOctave = 26 := rfl
      have hcount : bucketCount = 384 := rfl
      rw [hsub] at hk ⊢
      omega
    · rw [bucketOf_past hpast]
      refine ⟨by decide, Nat.le_trans ?_ hpast, .inl rfl⟩
      decide

theorem bucketOf_mono (h : us ≤ us') : bucketOf us ≤ bucketOf us' := by
  obtain ⟨hlt, hlow, -⟩ := bucketOf_spec us
  obtain ⟨-, -, hlast | hhigh⟩ := bucketOf_spec us'
  · rw [hlast]
    exact Nat.le_sub_one_of_lt hlt
  · by_contra hnot
    have hstep := valueOf_mono (Nat.lt_of_not_le hnot)
    exact absurd (Nat.lt_of_le_of_lt (Nat.le_trans hlow h) hhigh) (Nat.not_lt.2 hstep)

end Histogram

/-! ## Doubles -/

/-- The integer that is nearest, and of two the even one. -/
def nearestEven (q : Rat) : Int :=
  let down := ⌊q⌋
  if q - down < 1 / 2 then down
  else if 1 / 2 < q - down then down + 1
  else if down % 2 = 0 then down
  else down + 1

/-- The double that is nearest to a number. -/
def toDouble (q : Rat) : Rat :=
  if q = 0 then 0
  else
    let exponent := max (Int.log 2 |q| - 52) (-1074)
    nearestEven (q / 2 ^ exponent) * 2 ^ exponent

/-! ## Histograms -/

/-- A `HistogramDigest`, as it is read. -/
structure HistogramDigest where
  count : Option Rat
  sumUs : Option Rat
  minUs : Option Rat
  maxUs : Option Rat
  /-- None where it is not an array. -/
  idx : Option (List (Option Rat))
  n : Option (List (Option Rat))
  deriving DecidableEq

structure HistogramSnapshot where
  count : Option Rat
  minMs : Option Rat
  maxMs : Option Rat
  meanMs : Option Rat
  p50Ms : Option Rat
  p90Ms : Option Rat
  p99Ms : Option Rat
  deriving DecidableEq

@[ext] structure Histogram where
  buckets : Fin Histogram.bucketCount → Nat
  count : Nat
  sumUs : Nat
  minUs : WithTop Nat
  maxUs : Nat

open Histogram

/-- `EMPTY`. -/
def emptySnapshot : HistogramSnapshot := ⟨some 0, some 0, some 0, some 0, some 0, some 0, some 0⟩

/-- The value of the bucket at which `seen` reaches `target`. -/
def walk (countAt : Fin bucketCount → Rat) (target : Rat) :
    List (Fin bucketCount) → Rat → Option Rat
  | [], _ => none
  | i :: rest, seen =>
      let seen := seen + countAt i
      if target ≤ seen then some (valueOf i) else walk countAt target rest seen

def summarize (countAt : Fin bucketCount → Rat) (count : Rat) (sumUs minUs maxUs : Option Rat) :
    HistogramSnapshot :=
  let ms (us : Option Rat) : Option Rat := us.map fun us => toDouble (us / 1000)
  let at' (q : Rat) : Option Rat :=
    match walk countAt (toDouble (toDouble q * count)) (List.finRange bucketCount) 0 with
    | some us => ms (some us)
    | none => ms maxUs
  { count := some count
    minMs := ms minUs
    maxMs := ms maxUs
    meanMs := sumUs.map fun sumUs => toDouble (toDouble (sumUs / count) / 1000)
    p50Ms := at' (1 / 2)
    p90Ms := at' (9 / 10)
    p99Ms := at' (99 / 100) }

/-- The occupied buckets, ascending. -/
def occupied (counts : Fin bucketCount → Rat) : List (Fin bucketCount) :=
  (List.finRange bucketCount).filter fun i => 0 < counts i

namespace Histogram

variable (h : Histogram)

def empty : Histogram := ⟨fun _ => 0, 0, 0, ⊤, 0⟩

/-- The microseconds of a duration. -/
def microsOf (ms : Rat) : Nat := if 0 < ms then ⌊toDouble (ms * 1000) + 1 / 2⌋.toNat else 0

def record (ms : Rat) : Histogram :=
  let us := microsOf ms
  { buckets := fun i => if i = bucketOf us then h.buckets i + 1 else h.buckets i
    count := h.count + 1
    sumUs := h.sumUs + us
    minUs := if (us : WithTop Nat) < h.minUs then us else h.minUs
    maxUs := if h.maxUs < us then us else h.maxUs }

/-- The histogram that has recorded some samples. -/
def ofSamples (samples : List Rat) : Histogram := samples.foldl record empty

/-- `#minUs`, as a number; `Infinity` is none. -/
def leastUs : Option Rat := Option.map (fun us : Nat => (us : Rat)) h.minUs

def snapshot : HistogramSnapshot :=
  if h.count = 0 then emptySnapshot
  else summarize (fun i => h.buckets i) h.count (some h.sumUs) h.leastUs (some h.maxUs)

def digest : HistogramDigest where
  count := some h.count
  sumUs := some h.sumUs
  minUs := if h.count = 0 then some 0 else h.leastUs
  maxUs := some h.maxUs
  idx := some ((occupied fun i => h.buckets i).map fun i => some (i.val : Rat))
  n := some ((occupied fun i => h.buckets i).map fun i => some (h.buckets i : Rat))

end Histogram

/-! ## Digests -/

def emptyHistogramDigest : HistogramDigest := ⟨some 0, some 0, some 0, some 0, some [], some []⟩

/-- A pair of a bucket's index and its count, where neither is malformed. -/
def validPair : Option Rat × Option Rat → Option (Fin bucketCount × Rat)
  | (some bucket, some value) =>
      if h : bucket.den = 1 ∧ 0 ≤ bucket ∧ bucket.num.toNat < bucketCount then
        if 0 < value then some (⟨bucket.num.toNat, h.2.2⟩, value) else none
      else none
  | _ => none

def addPair (counts : Fin bucketCount → Rat) (pair : Option Rat × Option Rat) :
    Fin bucketCount → Rat :=
  match validPair pair with
  | some (bucket, value) => fun i => if i = bucket then counts i + value else counts i
  | none => counts

/-- What `mergeHistogramDigests` has come to. -/
structure Merging where
  buckets : Fin bucketCount → Rat := fun _ => 0
  count : Rat := 0
  sumUs : Rat := 0
  /-- None is `Infinity`. -/
  minUs : Option Rat := none
  maxUs : Rat := 0
  any : Bool := false

/-- A round of the loop of `mergeHistogramDigests`. -/
def Merging.add (m : Merging) (digest : Option HistogramDigest) : Merging :=
  match digest with
  | some ⟨some count, sumUs, minUs, maxUs, some idx, some n⟩ =>
      if count ≤ 0 then m
      else
        { buckets := (idx.zip n).foldl addPair m.buckets
          count := m.count + count
          sumUs := m.sumUs + sumUs.getD 0
          minUs := match minUs with
            | some us => if m.minUs.all (us < ·) then some us else m.minUs
            | none => m.minUs
          maxUs := match maxUs with
            | some us => if m.maxUs < us then us else m.maxUs
            | none => m.maxUs
          any := true }
  | _ => m

def mergeHistogramDigests (digests : List (Option HistogramDigest)) : HistogramDigest :=
  let m := digests.foldl Merging.add {}
  if m.any = false then emptyHistogramDigest
  else
    { count := some m.count
      sumUs := some m.sumUs
      minUs := some (m.minUs.getD 0)
      maxUs := some m.maxUs
      idx := some ((occupied m.buckets).map fun i => some (i.val : Rat))
      n := some ((occupied m.buckets).map fun i => some (m.buckets i)) }

def digestSnapshot : Option HistogramDigest → HistogramSnapshot
  | some ⟨some count, sumUs, minUs, maxUs, idx, n⟩ =>
      if count ≤ 0 then emptySnapshot
      else
        let counts := ((idx.getD []).zip (n.getD [])).foldl addPair fun _ => 0
        summarize counts count sumUs minUs maxUs
  | _ => emptySnapshot

/-! ## What is counted -/

section Counts

variable {counts : Fin bucketCount → Rat} {pair : Option Rat × Option Rat}
  {pairs : List (Option Rat × Option Rat)}

/-- What a pair counts for a bucket. -/
def counted (b : Fin bucketCount) (pair : Option Rat × Option Rat) : Rat :=
  match pair with
  | (some bucket, some value) => if bucket = b.val ∧ 0 < value then value else 0
  | _ => 0

theorem addPair_eq (counts : Fin bucketCount → Rat) (pair : Option Rat × Option Rat)
    (b : Fin bucketCount) : addPair counts pair b = counts b + counted b pair := by
  obtain ⟨bucket | bucket, value | value⟩ := pair
  · exact (add_zero _).symm
  · exact (add_zero _).symm
  · exact (add_zero _).symm
  unfold addPair validPair counted
  dsimp only
  by_cases hvalid : bucket.den = 1 ∧ 0 ≤ bucket ∧ bucket.num.toNat < bucketCount
  · rw [dif_pos hvalid]
    have hbucket : (bucket.num.toNat : Rat) = bucket := by
      rw [← Int.cast_natCast, Int.toNat_of_nonneg (Rat.num_nonneg.2 hvalid.2.1)]
      exact Rat.den_eq_one_iff _ |>.1 hvalid.1
    by_cases hvalue : 0 < value
    · rw [if_pos hvalue]
      dsimp only
      by_cases hb : b = ⟨bucket.num.toNat, hvalid.2.2⟩
      · have hsame : bucket = b.val := by
          rw [hb]
          exact hbucket.symm
        rw [if_pos hb, if_pos ⟨hsame, hvalue⟩]
      · have hother : bucket ≠ b.val := by
          intro heq
          exact hb (Fin.ext (Nat.cast_injective (heq.symm.trans hbucket.symm)))
        rw [if_neg hb, if_neg fun hboth => hother hboth.1, add_zero]
    · rw [if_neg hvalue, if_neg (fun hboth => hvalue hboth.2), add_zero]
  · rw [dif_neg hvalid, if_neg, add_zero]
    rintro ⟨rfl, -⟩
    exact hvalid ⟨Rat.den_natCast _, Nat.cast_nonneg _, by simp⟩

theorem foldl_addPair (pairs : List (Option Rat × Option Rat)) (counts : Fin bucketCount → Rat)
    (b : Fin bucketCount) :
    pairs.foldl addPair counts b = counts b + (pairs.map (counted b)).sum := by
  induction pairs generalizing counts with
  | nil => exact (add_zero _).symm
  | cons pair pairs ih => rw [List.foldl_cons, ih, addPair_eq, List.map_cons, List.sum_cons, add_assoc]

/-- What the pairs of some buckets count. -/
theorem counted_filter (b : Fin bucketCount) {l : List (Fin bucketCount)} (hnodup : l.Nodup) :
    ((l.filter fun i => 0 < counts i).map fun i =>
      counted b (some (i.val : Rat), some (counts i))).sum =
        if b ∈ l ∧ 0 < counts b then counts b else 0 := by
  induction l with
  | nil => rfl
  | cons i l ih =>
    obtain ⟨hnotin, hnodup⟩ := List.nodup_cons.1 hnodup
    have hone : counted b (some (i.val : Rat), some (counts i)) =
        if i = b ∧ 0 < counts i then counts i else 0 := by
      exact if_congr (and_congr_left fun _ => Nat.cast_inj.trans Fin.val_inj) rfl rfl
    by_cases hpos : 0 < counts i
    · rw [List.filter_cons_of_pos (by simpa using hpos), List.map_cons, List.sum_cons, ih hnodup, hone]
      by_cases hib : i = b
      · subst hib
        rw [if_pos ⟨rfl, hpos⟩, if_neg fun hboth => hnotin hboth.1,
          if_pos ⟨List.mem_cons_self, hpos⟩, add_zero]
      · rw [if_neg fun hboth => hib hboth.1, zero_add]
        refine if_congr (and_congr_left fun _ => ?_) rfl rfl
        exact ⟨List.mem_cons_of_mem i, fun hmem => (List.mem_cons.1 hmem).resolve_left (Ne.symm hib)⟩
    · rw [List.filter_cons_of_neg (by simpa using hpos), ih hnodup]
      refine if_congr (and_congr_left fun hb => ?_) rfl rfl
      refine ⟨List.mem_cons_of_mem i, fun hmem => (List.mem_cons.1 hmem).resolve_left ?_⟩
      rintro rfl
      exact hpos hb

/-- The pairs of the occupied buckets count what was counted. -/
theorem counted_occupied (hnonneg : ∀ i, 0 ≤ counts i) (b : Fin bucketCount) :
    ((((occupied counts).map fun i => some (i.val : Rat)).zip
      ((occupied counts).map fun i => some (counts i))).map (counted b)).sum = counts b := by
  rw [List.zip_map', List.map_map]
  refine (counted_filter b (List.nodup_finRange bucketCount)).trans ?_
  by_cases hpos : 0 < counts b
  · rw [if_pos ⟨List.mem_finRange b, hpos⟩]
  · rw [if_neg fun hboth => hpos hboth.2]
    exact le_antisymm (hnonneg b) (not_lt.1 hpos)

end Counts

/-! ## Histograms add up -/

namespace Histogram

variable {h h' : Histogram}

/-- What two histograms have recorded. -/
instance : Add Histogram where
  add h h' := {
    buckets := fun i => h.buckets i + h'.buckets i
    count := h.count + h'.count
    sumUs := h.sumUs + h'.sumUs
    minUs := min h.minUs h'.minUs
    maxUs := max h.maxUs h'.maxUs }

instance : Zero Histogram := ⟨empty⟩

instance : AddCommMonoid Histogram where
  add_assoc a b c := Histogram.ext (funext fun _ => Nat.add_assoc _ _ _) (Nat.add_assoc _ _ _)
    (Nat.add_assoc _ _ _) (min_assoc _ _ _) (max_assoc _ _ _)
  zero_add a := Histogram.ext (funext fun _ => Nat.zero_add _) (Nat.zero_add _) (Nat.zero_add _)
    (min_eq_right le_top) (max_eq_right (Nat.zero_le _))
  add_zero a := Histogram.ext (funext fun _ => Nat.add_zero _) (Nat.add_zero _) (Nat.add_zero _)
    (min_eq_left le_top) (max_eq_left (Nat.zero_le _))
  add_comm a b := Histogram.ext (funext fun _ => Nat.add_comm _ _) (Nat.add_comm _ _)
    (Nat.add_comm _ _) (min_comm _ _) (max_comm _ _)
  nsmul := nsmulRec

/-- The histogram of one sample. -/
def single (ms : Rat) : Histogram where
  buckets i := if i = bucketOf (microsOf ms) then 1 else 0
  count := 1
  sumUs := microsOf ms
  minUs := microsOf ms
  maxUs := microsOf ms

/-- A sample is recorded by adding its histogram. -/
theorem record_eq (h : Histogram) (ms : Rat) : h.record ms = h + single ms := by
  refine Histogram.ext (funext fun i => ?_) rfl rfl ?_ ?_
  · change (if i.val = bucketOf (microsOf ms) then h.buckets i + 1 else h.buckets i) =
      h.buckets i + if i.val = bucketOf (microsOf ms) then 1 else 0
    split <;> rfl
  · change (if (microsOf ms : WithTop Nat) < h.minUs then (microsOf ms : WithTop Nat) else h.minUs) =
      min h.minUs (microsOf ms)
    split
    · rename_i hlt
      exact (min_eq_right (le_of_lt hlt)).symm
    · rename_i hlt
      exact (min_eq_left (not_lt.1 hlt)).symm
  · change (if h.maxUs < microsOf ms then microsOf ms else h.maxUs) = max h.maxUs (microsOf ms)
    split
    · rename_i hlt
      exact (max_eq_right (le_of_lt hlt)).symm
    · rename_i hlt
      exact (max_eq_left (not_lt.1 hlt)).symm

/-- The samples may be recorded one by one. -/
theorem ofSamples_eq (samples : List Rat) : ofSamples samples = (samples.map single).sum := by
  have hfold : ∀ (samples : List Rat) (h : Histogram),
      samples.foldl record h = h + (samples.map single).sum := by
    intro samples
    induction samples with
    | nil => exact fun h => (add_zero h).symm
    | cons ms samples ih =>
      intro h
      rw [List.foldl_cons, ih, record_eq, List.map_cons, List.sum_cons, add_assoc]
  exact (hfold samples empty).trans (zero_add _)

theorem ofSamples_append (samples samples' : List Rat) :
    ofSamples (samples ++ samples') = ofSamples samples + ofSamples samples' := by
  rw [ofSamples_eq, ofSamples_eq, ofSamples_eq, List.map_append, List.sum_append]

/-- The order of the samples does not matter. -/
theorem ofSamples_perm {samples samples' : List Rat} (hperm : samples.Perm samples') :
    ofSamples samples = ofSamples samples' := by
  rw [ofSamples_eq, ofSamples_eq]
  exact (hperm.map _).sum_eq

/-- A histogram without samples is empty, and one with samples has a least one. -/
structure Sound (h : Histogram) : Prop where
  none : h.count = 0 → h = 0
  some : 0 < h.count → h.minUs ≠ ⊤

theorem Sound.zero : Sound 0 := ⟨fun _ => rfl, fun hpos => absurd hpos (lt_irrefl 0)⟩

theorem Sound.add (hs : h.Sound) (hs' : h'.Sound) : (h + h').Sound where
  none hcount := by
    have hboth : h.count = 0 ∧ h'.count = 0 := Nat.add_eq_zero_iff.1 hcount
    rw [hs.none hboth.1, hs'.none hboth.2, add_zero]
  some hpos hmin := by
    have htop : h.minUs = ⊤ ∧ h'.minUs = ⊤ := min_eq_top.1 hmin
    have hsum : 0 < h.count + h'.count := hpos
    rcases Nat.eq_zero_or_pos h.count with hzero | hpos'
    · exact hs'.some (by omega) htop.2
    · exact hs.some hpos' htop.1

theorem Sound.sum {hs : List Histogram} (h : ∀ a ∈ hs, a.Sound) : hs.sum.Sound := by
  induction hs with
  | nil => exact .zero
  | cons a hs ih =>
    exact (h a List.mem_cons_self).add (ih fun b hb => h b (List.mem_cons_of_mem a hb))

theorem Sound.ofSamples (samples : List Rat) : (ofSamples samples).Sound := by
  rw [ofSamples_eq]
  refine .sum fun h hmem => ?_
  obtain ⟨ms, -, rfl⟩ := List.mem_map.1 hmem
  exact ⟨nofun, fun _ => WithTop.coe_ne_top⟩

end Histogram

/-! ## Digests add up -/

section Merge

variable {h h' : Histogram}

/-- What a merge has come to, whose digests are those of histograms. -/
def Merging.of (h : Histogram) : Merging where
  buckets i := h.buckets i
  count := h.count
  sumUs := h.sumUs
  minUs := h.leastUs
  maxUs := h.maxUs
  any := 0 < h.count

/-- The counts that are read from a digest are those that were counted. -/
theorem foldl_digest (h : Histogram) (counts : Fin bucketCount → Rat) :
    (((occupied fun i => (h.buckets i : Rat)).map fun i => some (i.val : Rat)).zip
      ((occupied fun i => (h.buckets i : Rat)).map fun i => some (h.buckets i : Rat))).foldl
        addPair counts = fun i => counts i + h.buckets i := by
  funext i
  rw [foldl_addPair, counted_occupied fun _ => Nat.cast_nonneg _]

theorem leastUs_some {us : Nat} (hmin : h.minUs = us) : h.leastUs = some (us : Rat) := by
  unfold Histogram.leastUs
  rw [hmin]
  rfl

theorem leastUs_top (hmin : h.minUs = ⊤) : h.leastUs = none := by
  unfold Histogram.leastUs
  rw [hmin]
  rfl

theorem leastUs_add (h : Histogram) {us : Nat} (hmin : h'.minUs = us) : (h + h').leastUs =
      if h.leastUs.all fun least => decide ((us : Rat) < least) then some (us : Rat) else h.leastUs := by
  have hadd : (h + h').minUs = min h.minUs us := congrArg (min h.minUs) hmin
  cases hleast : h.minUs with
  | top =>
    rw [leastUs_top hleast]
    exact leastUs_some (hadd.trans (by rw [hleast]; exact min_eq_right le_top))
  | coe least =>
    rw [leastUs_some hleast, Option.all_some]
    rw [hleast] at hadd
    split
    · rename_i hlt
      have hle : us ≤ least := Nat.le_of_lt (Nat.cast_lt.1 (of_decide_eq_true hlt))
      exact leastUs_some (hadd.trans (min_eq_right (WithTop.coe_le_coe.2 hle)))
    · rename_i hlt
      have hle : least ≤ us := Nat.not_lt.1 fun h => hlt (decide_eq_true (Nat.cast_lt.2 h))
      exact leastUs_some (hadd.trans (min_eq_left (WithTop.coe_le_coe.2 hle)))

theorem Merging.add_digest (h : Histogram) (hs' : h'.Sound) :
    (Merging.of h).add (some h'.digest) = Merging.of (h + h') := by
  rcases Nat.eq_zero_or_pos h'.count with hzero | hpos
  · rw [hs'.none hzero, add_zero]
    rfl
  obtain ⟨us, hmin⟩ := WithTop.ne_top_iff_exists.1 (hs'.some hpos)
  have hcount : ¬ (h'.count : Rat) ≤ 0 := not_le.2 (Nat.cast_pos.2 hpos)
  have hleast : h'.leastUs = some (us : Rat) := leastUs_some hmin.symm
  have hany : 0 < (h + h').count := Nat.lt_of_lt_of_le hpos (Nat.le_add_left _ _)
  unfold Merging.add Histogram.digest
  dsimp only
  rw [if_neg hcount, foldl_digest, if_neg (Nat.ne_of_gt hpos), hleast]
  unfold Merging.of
  rw [leastUs_add h hmin.symm, decide_eq_true hany]
  congr 1
  · exact funext fun i => (Nat.cast_add _ _).symm
  · exact (Nat.cast_add _ _).symm
  · exact (Nat.cast_add _ _).symm
  · have hmax : (h + h').maxUs = max h.maxUs h'.maxUs := rfl
    rw [hmax]
    split
    · rename_i hlt
      rw [max_eq_right (Nat.cast_lt.1 hlt).le]
    · rename_i hlt
      rw [max_eq_left (Nat.not_lt.1 fun h => hlt (Nat.cast_lt.2 h))]

theorem digest_zero : (0 : Histogram).digest = emptyHistogramDigest := by
  rfl

/-- The digests of histograms merge to the digest of what these have recorded. -/
theorem merge_digests {hs : List Histogram} (hsound : ∀ h ∈ hs, h.Sound) :
    mergeHistogramDigests (hs.map fun h => some h.digest) = hs.sum.digest := by
  have hfold : ∀ (hs : List Histogram) (h : Histogram), (∀ h' ∈ hs, h'.Sound) →
      (hs.map fun h => some h.digest).foldl Merging.add (Merging.of h) = Merging.of (h + hs.sum) := by
    intro hs
    induction hs with
    | nil => exact fun h _ => congrArg Merging.of (add_zero h).symm
    | cons h' hs ih =>
      intro h hall
      rw [List.map_cons, List.foldl_cons, Merging.add_digest h (hall h' List.mem_cons_self),
        ih _ fun a ha => hall a (List.mem_cons_of_mem h' ha), List.sum_cons, add_assoc]
  have hstart : (hs.map fun h => some h.digest).foldl Merging.add {} = Merging.of hs.sum := by
    have hempty : Merging.of 0 = {} := by
      congr 1
    rw [← hempty, hfold hs 0 hsound, zero_add]
  unfold mergeHistogramDigests
  rw [hstart]
  have htotal := Histogram.Sound.sum hsound
  generalize hs.sum = total at htotal
  rcases Nat.eq_zero_or_pos total.count with hzero | hpos
  · rw [htotal.none hzero]
    exact digest_zero.symm
  obtain ⟨us, hmin⟩ := WithTop.ne_top_iff_exists.1 (htotal.some hpos)
  have hany : (Merging.of total).any = true := decide_eq_true hpos
  have hleast : (Merging.of total).minUs = some (us : Rat) := leastUs_some hmin.symm
  dsimp only
  rw [hany, if_neg nofun, hleast]
  unfold Histogram.digest
  rw [if_neg (Nat.ne_of_gt hpos), leastUs_some hmin.symm]
  rfl

/-- A merge of digests, some of which may have been merged themselves. -/
inductive Grouping where
  | host (samples : List Rat)
  | merge (parts : List Grouping)

def Grouping.merged : Grouping → HistogramDigest
  | .host samples => (Histogram.ofSamples samples).digest
  | .merge parts => mergeHistogramDigests (parts.map fun part => some part.merged)

def Grouping.samples : Grouping → List Rat
  | .host samples => samples
  | .merge parts => parts.flatMap fun part => part.samples

/-- However the digests are grouped, they merge to the digest of the samples. -/
theorem merged_eq (g : Grouping) : g.merged = (Histogram.ofSamples g.samples).digest := by
  induction g using Grouping.merged.induct with
  | case1 samples => rw [Grouping.merged, Grouping.samples]
  | case2 parts ih =>
    have hparts : (parts.map fun part => some part.merged) =
        (parts.map fun part => Histogram.ofSamples part.samples).map fun h => some h.digest := by
      rw [List.map_map]
      exact List.map_congr_left fun part hpart => congrArg some (ih part hpart)
    have hsamples : Histogram.ofSamples (parts.flatMap fun part => part.samples) =
        (parts.map fun part => Histogram.ofSamples part.samples).sum := by
      clear ih hparts
      induction parts with
      | nil => rfl
      | cons part parts ih =>
        rw [List.flatMap_cons, Histogram.ofSamples_append, ih, List.map_cons, List.sum_cons]
    rw [Grouping.merged, Grouping.samples, hparts, merge_digests, hsamples]
    intro h hh
    obtain ⟨part, -, rfl⟩ := List.mem_map.1 hh
    exact .ofSamples part.samples

/-- What is read from a digest is what is read from its histogram. -/
theorem digestSnapshot_digest (hs : h.Sound) : digestSnapshot (some h.digest) = h.snapshot := by
  unfold Histogram.snapshot
  rcases Nat.eq_zero_or_pos h.count with hzero | hpos
  · rw [hs.none hzero]
    rfl
  have hcount : ¬ (h.count : Rat) ≤ 0 := not_le.2 (Nat.cast_pos.2 hpos)
  unfold Histogram.digest digestSnapshot
  dsimp only
  rw [if_neg hcount, if_neg (Nat.ne_of_gt hpos), Option.getD_some, Option.getD_some, foldl_digest,
    if_neg (Nat.ne_of_gt hpos)]
  congr 1
  exact funext fun i => zero_add _

end Merge

/-! ## Malformed digests -/

section Malformed

/-- The pairs of a digest. -/
def HistogramDigest.pairs (d : HistogramDigest) : List (Option Rat × Option Rat) :=
  (d.idx.getD []).zip (d.n.getD [])

/-- What the pairs of a digest count for a bucket. -/
def HistogramDigest.countAt (d : HistogramDigest) (b : Fin bucketCount) : Rat :=
  (d.pairs.map (counted b)).sum

/-- A digest without the pairs that are malformed. -/
def HistogramDigest.cleaned (d : HistogramDigest) : HistogramDigest :=
  let kept := d.pairs.filter fun pair => (validPair pair).isSome
  { d with idx := some (kept.map (·.1)), n := some (kept.map (·.2)) }

/-- A merge takes the counts of a digest. -/
def HistogramDigest.accepted (d : HistogramDigest) : Bool :=
  d.idx.isSome && d.n.isSome && d.count.any (0 < ·)

/-- What a digest adds to a bucket of a merge. -/
def contributed (b : Fin bucketCount) : Option HistogramDigest → Rat
  | some d => if d.accepted then d.countAt b else 0
  | none => 0

theorem counted_nonneg (b : Fin bucketCount) (pair : Option Rat × Option Rat) : 0 ≤ counted b pair := by
  unfold counted
  split
  · split
    · rename_i hvalue
      exact le_of_lt hvalue.2
    · exact le_refl 0
  · exact le_refl 0

theorem contributed_nonneg (b : Fin bucketCount) (d : Option HistogramDigest) : 0 ≤ contributed b d := by
  unfold contributed
  split
  · split
    · refine List.sum_nonneg fun q hq => ?_
      obtain ⟨pair, -, rfl⟩ := List.mem_map.1 hq
      exact counted_nonneg b pair
    · exact le_refl 0
  · exact le_refl 0

theorem contributed_skipped {d : HistogramDigest} (h : d.accepted = false) (b : Fin bucketCount) :
    contributed b (some d) = 0 :=
  if_neg (Bool.eq_false_iff.1 h)

/-- A digest is added, or it is passed over. -/
theorem Merging.add_cases (m : Merging) (d : Option HistogramDigest) :
    (m.add d).any = true ∧ (∀ b, (m.add d).buckets b = m.buckets b + contributed b d) ∨
      m.add d = m ∧ ∀ b, contributed b d = 0 := by
  obtain _ | ⟨count, sumUs, minUs, maxUs, idx, n⟩ := d
  · exact .inr ⟨rfl, fun _ => rfl⟩
  obtain _ | count := count
  · exact .inr ⟨rfl, contributed_skipped (Bool.and_false _)⟩
  obtain _ | idx := idx
  · exact .inr ⟨rfl, contributed_skipped rfl⟩
  obtain _ | n := n
  · exact .inr ⟨rfl, contributed_skipped rfl⟩
  unfold Merging.add
  dsimp only
  split
  · rename_i hcount
    exact .inr ⟨rfl, contributed_skipped (decide_eq_false (not_lt.2 hcount))⟩
  rename_i hcount
  refine .inl ⟨rfl, fun b => ?_⟩
  have haccepted : contributed b (some ⟨some count, sumUs, minUs, maxUs, some idx, some n⟩) =
      ((idx.zip n).map (counted b)).sum :=
    if_pos (decide_eq_true (not_le.1 hcount))
  rw [haccepted]
  exact foldl_addPair (idx.zip n) m.buckets b

theorem Merging.addAll (ds : List (Option HistogramDigest)) (m : Merging) :
    (∀ b, (ds.foldl Merging.add m).buckets b = m.buckets b + (ds.map (contributed b)).sum) ∧
      (m.any = true → (ds.foldl Merging.add m).any = true) ∧
        ((ds.foldl Merging.add m).any = true ∨ ∀ b, (ds.map (contributed b)).sum = 0) := by
  induction ds generalizing m with
  | nil => exact ⟨fun b => (add_zero _).symm, id, .inr fun _ => rfl⟩
  | cons d ds ih =>
    obtain ⟨hbuckets, hkept, hor⟩ := ih (m.add d)
    rw [List.foldl_cons]
    rcases m.add_cases d with ⟨hany, hadd⟩ | ⟨hsame, hzero⟩
    · refine ⟨fun b => ?_, fun _ => hkept hany, .inl (hkept hany)⟩
      rw [hbuckets, hadd, List.map_cons, List.sum_cons, add_assoc]
    · rw [hsame] at hbuckets hkept hor ⊢
      refine ⟨fun b => ?_, hkept, hor.imp_right fun hall b => ?_⟩
      · rw [hbuckets, List.map_cons, List.sum_cons, hzero, zero_add]
      · rw [List.map_cons, List.sum_cons, hzero, hall, zero_add]

/-- The count of a bucket in a merge is the sum of what the digests count for it. -/
theorem countAt_merge (ds : List (Option HistogramDigest)) (b : Fin bucketCount) :
    (mergeHistogramDigests ds).countAt b = (ds.map (contributed b)).sum := by
  obtain ⟨hbuckets, -, hor⟩ := Merging.addAll ds {}
  unfold mergeHistogramDigests
  dsimp only
  split
  · rename_i hany
    rcases hor with htrue | hzero
    · rw [hany] at htrue
      cases htrue
    · exact (hzero b).symm
  · have hnonneg : ∀ i, 0 ≤ (ds.foldl Merging.add {}).buckets i := by
      intro i
      rw [hbuckets, zero_add]
      refine List.sum_nonneg fun q hq => ?_
      obtain ⟨d, -, rfl⟩ := List.mem_map.1 hq
      exact contributed_nonneg i d
    exact (counted_occupied hnonneg b).trans ((hbuckets b).trans (zero_add _))

theorem foldl_cleaned (pairs : List (Option Rat × Option Rat)) (counts : Fin bucketCount → Rat) :
    (pairs.filter fun pair => (validPair pair).isSome).foldl addPair counts =
      pairs.foldl addPair counts := by
  induction pairs generalizing counts with
  | nil => rfl
  | cons pair pairs ih =>
    by_cases hvalid : (validPair pair).isSome = true
    · rw [List.filter_cons, if_pos hvalid, List.foldl_cons, List.foldl_cons, ih]
    · have hsame : addPair counts pair = counts := by
        unfold addPair
        rw [Option.not_isSome_iff_eq_none.1 hvalid]
      rw [List.filter_cons, if_neg hvalid, List.foldl_cons, ih, hsame]

theorem digestSnapshot_cleaned (d : HistogramDigest) :
    digestSnapshot (some d.cleaned) = digestSnapshot (some d) := by
  obtain ⟨count, sumUs, minUs, maxUs, idx, n⟩ := d
  unfold HistogramDigest.cleaned
  obtain _ | count := count
  · rfl
  unfold digestSnapshot
  dsimp only
  rw [Option.getD_some, Option.getD_some, List.zip_map', List.map_id', foldl_cleaned]
  rfl

end Malformed

end SigxActors.Host
