/-
  Cluster/FrameReader.lean --- the incremental reader of a byte stream.

  The reader keeps the chunks as they arrived, and joins them only where a header or a
  body lies across a boundary.  What it yields depends on the bytes alone: over any
  segmentation it yields what a reader of the whole stream would.
-/
import SigxActors.Cluster.Frames

set_option autoImplicit false

namespace SigxActors.Cluster.Frames

open SigxActors.Js

/-- `FrameReader`. -/
structure FrameReader where
  chunks : List Bytes := []
  buffered : Nat := 0

namespace FrameReader

/-- `push`. -/
def push (r : FrameReader) (chunk : Bytes) : FrameReader :=
  { chunks := r.chunks ++ [chunk], buffered := r.buffered + chunk.length }

/-- `#coalesce`: one chunk, that ends where what was copied into it ends. -/
def coalesce (r : FrameReader) : FrameReader := { r with chunks := [r.chunks.flatten] }

/-- The first of the chunks. -/
def first (r : FrameReader) : Bytes := r.chunks.headD []

/-- `#peek`. -/
def peek (r : FrameReader) (n : Nat) : Bytes × FrameReader :=
  if n ≤ r.first.length then (r.first.take n, r)
  else (r.coalesce.first.take n, r.coalesce)

/-- The loop of `#skip`. -/
def skipFrom : Nat → List Bytes → Nat → FrameReader
  | 0, chunks, buffered => ⟨chunks, buffered⟩
  | _ + 1, [], buffered => ⟨[], buffered⟩
  | remaining + 1, first :: rest, buffered =>
      if first.length ≤ remaining + 1 then
        skipFrom (remaining + 1 - first.length) rest (buffered - first.length)
      else ⟨first.drop (remaining + 1) :: rest, buffered - (remaining + 1)⟩

/-- `#skip`. -/
def skip (r : FrameReader) (n : Nat) : FrameReader := skipFrom n r.chunks r.buffered

/-- `#take`.  It calls itself once: after a coalesce the first chunk is all there is. -/
def take (r : FrameReader) (n : Nat) : Bytes × FrameReader :=
  if n = 0 then ([], r)
  else if n ≤ r.first.length then (r.first.take n, r.skip n)
  else (r.coalesce.first.take n, r.coalesce.skip n)

end FrameReader

/-- What a drain gave: the frames, what was thrown, and what is left. -/
structure Drained (N R : Type) where
  frames : List (Frame N)
  thrown : Option FrameError
  left : R

/-- A frame was yielded before. -/
def Drained.yielding {N R : Type} (frame : Frame N) (d : Drained N R) : Drained N R :=
  { d with frames := frame :: d.frames }

section

variable {N : Type} [JsNumber N]

/-- The loop of `drain`.  Each turn takes a header at least. -/
def FrameReader.drainFrom (max : Nat) : Nat → FrameReader → Drained N FrameReader
  | 0, r => ⟨[], none, r⟩
  | turns + 1, r =>
      if r.buffered < 4 then ⟨[], none, r⟩
      else
        let length := bigEndian (r.peek 4).1
        let r := (r.peek 4).2
        if length > max then ⟨[], some (.frameTooLarge length max), r⟩
        else if r.buffered < 4 + length then ⟨[], none, r⟩
        else
          let taken := (r.skip 4).take length
          match decodeFrameBody taken.1 with
          | .error e => ⟨[], some e, taken.2⟩
          | .ok frame => (drainFrom max turns taken.2).yielding frame

/-- `drain`. -/
def FrameReader.drain (r : FrameReader) (max : Nat) : Drained N FrameReader :=
  r.drainFrom max r.buffered

/-- What is done with a reader. -/
inductive ReaderOp where
  | push (chunk : Bytes)
  | drain
  deriving DecidableEq

/-- A reader in use.  Once it has thrown its connection is closed. -/
structure Reading (N : Type) where
  reader : FrameReader := {}
  yielded : List (Frame N) := []
  thrown : Option FrameError := none

namespace Reading

def act (max : Nat) (s : Reading N) (op : ReaderOp) : Reading N :=
  if s.thrown.isSome then s
  else
    match op with
    | .push chunk => { s with reader := s.reader.push chunk }
    | .drain =>
        let d := s.reader.drain max
        { reader := d.left, yielded := s.yielded ++ d.frames, thrown := d.thrown }

variable {s : Reading N}

theorem act_of_thrown {max : Nat} {e : FrameError} (h : s.thrown = some e) (op : ReaderOp) :
    s.act max op = s :=
  if_pos (by rw [h]; rfl)

theorem act_push {max : Nat} (h : s.thrown = none) (chunk : Bytes) :
    s.act max (.push chunk) = { s with reader := s.reader.push chunk } :=
  if_neg (by rw [h]; exact Bool.false_ne_true)

theorem act_drain {max : Nat} (h : s.thrown = none) :
    s.act max .drain =
      { reader := (s.reader.drain (N := N) max).left
        yielded := s.yielded ++ (s.reader.drain max).frames
        thrown := (s.reader.drain (N := N) max).thrown } :=
  if_neg (by rw [h]; exact Bool.false_ne_true)

def run (max : Nat) (s : Reading N) (ops : List ReaderOp) : Reading N := ops.foldl (act max) s

end Reading

/-- The bytes that are pushed. -/
def pushed : List ReaderOp → Bytes
  | [] => []
  | .push chunk :: ops => chunk ++ pushed ops
  | .drain :: ops => pushed ops

/-! ## A stream as a whole -/

/-- What there is to read in bytes, wherever they were cut. -/
def readFrom (max : Nat) : Nat → Bytes → Drained N Bytes
  | 0, bytes => ⟨[], none, bytes⟩
  | turns + 1, bytes =>
      if bytes.length < 4 then ⟨[], none, bytes⟩
      else if bigEndian (bytes.take 4) > max then
        ⟨[], some (.frameTooLarge (bigEndian (bytes.take 4)) max), bytes⟩
      else if bytes.length < 4 + bigEndian (bytes.take 4) then ⟨[], none, bytes⟩
      else
        match decodeFrameBody ((bytes.drop 4).take (bigEndian (bytes.take 4))) with
        | .error e => ⟨[], some e, (bytes.drop 4).drop (bigEndian (bytes.take 4))⟩
        | .ok frame =>
            (readFrom max turns ((bytes.drop 4).drop (bigEndian (bytes.take 4)))).yielding frame

/-- All that there is. -/
def readAll (max : Nat) (bytes : Bytes) : Drained N Bytes := readFrom max bytes.length bytes

end

/-! ## The reader holds the bytes -/

variable {n : Nat}

namespace FrameReader

/-- The bytes that were pushed and not taken. -/
structure Holds (r : FrameReader) (bytes : Bytes) : Prop where
  chunks : r.chunks.flatten = bytes
  buffered : r.buffered = bytes.length

theorem Holds.new : Holds {} [] := ⟨rfl, rfl⟩

variable {r : FrameReader} {bytes : Bytes}

theorem Holds.push (h : r.Holds bytes) (chunk : Bytes) : (r.push chunk).Holds (bytes ++ chunk) := by
  refine ⟨?_, ?_⟩
  · simp [FrameReader.push, h.chunks]
  · simp [FrameReader.push, h.buffered]

theorem Holds.coalesce (h : r.Holds bytes) : r.coalesce.Holds bytes :=
  ⟨by simp [FrameReader.coalesce, h.chunks], h.buffered⟩

theorem Holds.first_coalesce (h : r.Holds bytes) : r.coalesce.first = bytes := h.chunks

/-- The first chunk is what the bytes begin with. -/
theorem Holds.take_first (h : r.Holds bytes) (hn : n ≤ r.first.length) :
    r.first.take n = bytes.take n := by
  rw [← h.chunks]
  unfold first at hn ⊢
  generalize r.chunks = chunks at hn
  cases chunks with
  | nil => simp
  | cons c cs => exact (List.take_append_of_le_length hn).symm

theorem Holds.peek (h : r.Holds bytes) (n : Nat) :
    (r.peek n).1 = bytes.take n ∧ (r.peek n).2.Holds bytes := by
  unfold FrameReader.peek
  split
  case isTrue hn => exact ⟨h.take_first hn, h⟩
  case isFalse => exact ⟨by rw [h.first_coalesce], h.coalesce⟩

theorem holds_skipFrom {chunks : List Bytes} (h : n ≤ chunks.flatten.length) :
    (skipFrom n chunks chunks.flatten.length).Holds (chunks.flatten.drop n) := by
  induction chunks generalizing n with
  | nil =>
    cases n with
    | zero => exact ⟨rfl, rfl⟩
    | succ n => cases h
  | cons c cs ih =>
    cases n with
    | zero => exact ⟨rfl, rfl⟩
    | succ n =>
      rw [skipFrom, List.flatten_cons, List.length_append]
      rw [List.flatten_cons, List.length_append] at h
      split
      case isTrue hle =>
        have hdrop : (c ++ cs.flatten).drop (n + 1) = cs.flatten.drop (n + 1 - c.length) := by
          rw [List.drop_append, List.drop_of_length_le hle, List.nil_append]
        rw [hdrop, Nat.add_sub_cancel_left]
        exact ih (by omega)
      case isFalse hgt =>
        have hdrop : (c ++ cs.flatten).drop (n + 1) = c.drop (n + 1) ++ cs.flatten :=
          List.drop_append_of_le_length (by omega)
        rw [hdrop]
        refine ⟨rfl, ?_⟩
        rw [List.length_append, List.length_drop]
        dsimp only
        omega

theorem Holds.skip (h : r.Holds bytes) (hn : n ≤ bytes.length) :
    (r.skip n).Holds (bytes.drop n) := by
  obtain ⟨hchunks, hbuffered⟩ := h
  subst hchunks
  rw [FrameReader.skip, hbuffered]
  exact holds_skipFrom hn

theorem Holds.take (h : r.Holds bytes) (hn : n ≤ bytes.length) :
    (r.take n).1 = bytes.take n ∧ (r.take n).2.Holds (bytes.drop n) := by
  unfold FrameReader.take
  split
  case isTrue hzero =>
    subst hzero
    exact ⟨rfl, h⟩
  case isFalse =>
    split
    case isTrue hfirst => exact ⟨h.take_first hfirst, h.skip hn⟩
    case isFalse => exact ⟨by rw [h.first_coalesce], h.coalesce.skip hn⟩

end FrameReader

section

variable {N : Type} [JsNumber N]

/-- A drain gave what there was to read, and the reader holds the rest. -/
structure Drained.Agrees (d : Drained N FrameReader) (e : Drained N Bytes) : Prop where
  frames : d.frames = e.frames
  thrown : d.thrown = e.thrown
  left : d.left.Holds e.left

variable {bytes : Bytes} {max : Nat} {s : Reading N}

theorem FrameReader.Holds.drainFrom {r : FrameReader} (h : r.Holds bytes) (max turns : Nat) :
    (r.drainFrom (N := N) max turns).Agrees (readFrom max turns bytes) := by
  induction turns generalizing r bytes with
  | zero => exact ⟨rfl, rfl, h⟩
  | succ turns ih =>
    have hpeek := h.peek 4
    rw [FrameReader.drainFrom, readFrom, h.buffered]
    split
    case isTrue => exact ⟨rfl, rfl, h⟩
    case isFalse hheader =>
      simp only [hpeek.1, hpeek.2.buffered]
      split
      case isTrue => exact ⟨rfl, rfl, hpeek.2⟩
      case isFalse =>
        split
        case isTrue => exact ⟨rfl, rfl, hpeek.2⟩
        case isFalse hbody =>
          have htaken := (hpeek.2.skip (n := 4) (by omega)).take
            (n := bigEndian (bytes.take 4)) (by rw [List.length_drop]; omega)
          rw [htaken.1]
          split
          case h_1 => exact ⟨rfl, rfl, htaken.2⟩
          case h_2 frame _ =>
            have hrest := ih htaken.2
            exact { hrest with frames := congrArg (frame :: ·) hrest.frames }

theorem FrameReader.Holds.drain {r : FrameReader} (h : r.Holds bytes) (max : Nat) :
    (r.drain (N := N) max).Agrees (readAll max bytes) := by
  rw [FrameReader.drain, readAll, h.buffered]
  exact h.drainFrom max bytes.length

/-! ## Bytes behind the bytes -/

/-- Frames were yielded before. -/
def Drained.after {R : Type} (frames : List (Frame N)) (d : Drained N R) : Drained N R :=
  { d with frames := frames ++ d.frames }

/-- More turns than there are bytes make no difference. -/
theorem readFrom_turns {turns turns' : Nat} (h : bytes.length ≤ turns) (h' : bytes.length ≤ turns') :
    readFrom (N := N) max turns bytes = readFrom max turns' bytes := by
  induction turns generalizing turns' bytes with
  | zero =>
    cases turns' with
    | zero => rfl
    | succ turns' => rw [readFrom, readFrom, if_pos (by omega)]
  | succ turns ih =>
    cases turns' with
    | zero => rw [readFrom, readFrom, if_pos (by omega)]
    | succ turns' =>
      rw [readFrom, readFrom]
      split
      case isTrue => rfl
      case isFalse hheader =>
        have hrest : readFrom (N := N) max turns
            ((bytes.drop 4).drop (bigEndian (bytes.take 4))) =
              readFrom max turns' ((bytes.drop 4).drop (bigEndian (bytes.take 4))) := by
          refine ih ?_ ?_ <;>
          · rw [List.length_drop, List.length_drop]
            omega
        rw [hrest]

/-- One turn of a reader of the whole stream. -/
theorem readAll_step (max : Nat) (bytes : Bytes) : readAll (N := N) max bytes =
      if bytes.length < 4 then ⟨[], none, bytes⟩
      else if bigEndian (bytes.take 4) > max then
        ⟨[], some (.frameTooLarge (bigEndian (bytes.take 4)) max), bytes⟩
      else if bytes.length < 4 + bigEndian (bytes.take 4) then ⟨[], none, bytes⟩
      else
        match decodeFrameBody ((bytes.drop 4).take (bigEndian (bytes.take 4))) with
        | .error e => ⟨[], some e, (bytes.drop 4).drop (bigEndian (bytes.take 4))⟩
        | .ok frame =>
          (readAll max ((bytes.drop 4).drop (bigEndian (bytes.take 4)))).yielding frame := by
  rw [readAll, readFrom_turns (Nat.le_refl _) (Nat.le_succ _), readFrom]
  have hrest : readFrom (N := N) max bytes.length
      ((bytes.drop 4).drop (bigEndian (bytes.take 4))) =
        readAll max ((bytes.drop 4).drop (bigEndian (bytes.take 4))) := by
    refine readFrom_turns ?_ (Nat.le_refl _)
    rw [List.length_drop, List.length_drop]
    omega
  rw [hrest]

/-- What comes behind does not change what is read, and is read behind it. -/
theorem readAll_append (max : Nat) (a b : Bytes) : readAll (N := N) max (a ++ b) =
      match (readAll (N := N) max a).thrown with
      | none => (readAll max ((readAll (N := N) max a).left ++ b)).after (readAll max a).frames
      | some _ => { readAll max a with left := (readAll (N := N) max a).left ++ b } := by
  induction hlength : a.length using Nat.strongRecOn generalizing a with
  | ind n ih =>
    rw [readAll_step max a]
    by_cases hheader : a.length < 4
    · rw [if_pos hheader]
      rfl
    rw [if_neg hheader]
    have htake : (a ++ b).take 4 = a.take 4 := List.take_append_of_le_length (by omega)
    by_cases hlarge : bigEndian (a.take 4) > max
    · rw [if_pos hlarge, readAll_step, if_neg (by rw [List.length_append]; omega), htake,
        if_pos hlarge]
    rw [if_neg hlarge]
    by_cases hbody : a.length < 4 + bigEndian (a.take 4)
    · rw [if_pos hbody]
      rfl
    rw [if_neg hbody, readAll_step max (a ++ b), if_neg (by rw [List.length_append]; omega), htake,
      if_neg hlarge, if_neg (by rw [List.length_append]; omega)]
    have hdrop : (a ++ b).drop 4 = a.drop 4 ++ b := List.drop_append_of_le_length (by omega)
    have hin : bigEndian (a.take 4) ≤ (a.drop 4).length := by
      rw [List.length_drop]
      omega
    rw [hdrop, List.take_append_of_le_length hin, List.drop_append_of_le_length hin]
    cases decodeFrameBody (N := N) ((a.drop 4).take (bigEndian (a.take 4))) with
    | error e => rfl
    | ok frame =>
      rw [ih ((a.drop 4).drop (bigEndian (a.take 4))).length ?_ _ rfl]
      · cases hthrown : (readAll (N := N) max ((a.drop 4).drop (bigEndian (a.take 4)))).thrown with
        | none => simp only [Drained.yielding, Drained.after, hthrown, List.cons_append]
        | some e => simp only [Drained.yielding, hthrown]
      · rw [List.length_drop, List.length_drop]
        omega

/-! ## Segmentations -/

/-- A reader in use is where a reader of the whole stream is. -/
structure Reading.Follows (max : Nat) (s : Reading N) (bytes : Bytes) : Prop where
  /-- The bytes that it holds are those that are left. -/
  reads : s.thrown = none → ∃ left, s.reader.Holds left ∧
    ∀ b, readAll max (bytes ++ b) = (readAll max (left ++ b)).after s.yielded
  throws : ∀ e ∈ s.thrown, ∀ b, (readAll (N := N) max (bytes ++ b)).frames = s.yielded ∧
    (readAll (N := N) max (bytes ++ b)).thrown = some e

theorem Reading.Follows.new (max : Nat) : Reading.Follows (N := N) max {} [] :=
  ⟨fun _ => ⟨[], .new, fun _ => rfl⟩, nofun⟩

theorem Reading.Follows.push (h : s.Follows max bytes) (chunk : Bytes) :
    (s.act max (.push chunk)).Follows max (bytes ++ chunk) := by
  cases hthrown : s.thrown with
  | some e =>
    rw [Reading.act_of_thrown hthrown]
    refine ⟨fun hnone => absurd (hthrown.symm.trans hnone) nofun, fun e' he' b => ?_⟩
    rw [List.append_assoc]
    exact h.throws e' he' _
  | none =>
    obtain ⟨left, hholds, hreads⟩ := h.reads hthrown
    rw [Reading.act_push hthrown]
    refine ⟨fun _ => ⟨left ++ chunk, hholds.push chunk, fun b => ?_⟩, fun e he => ?_⟩
    · rw [List.append_assoc, List.append_assoc]
      exact hreads _
    · exact absurd (hthrown.symm.trans he) nofun

theorem Reading.Follows.drain (h : s.Follows max bytes) : (s.act max .drain).Follows max bytes := by
  cases hthrown : s.thrown with
  | some e =>
    rw [Reading.act_of_thrown hthrown]
    exact h
  | none =>
    obtain ⟨left, hholds, hreads⟩ := h.reads hthrown
    have hagrees := hholds.drain (N := N) max
    rw [Reading.act_drain hthrown, hagrees.frames, hagrees.thrown]
    refine ⟨fun hnone => ⟨_, hagrees.left, fun b => ?_⟩, fun e he b => ?_⟩
    · have hthrew : (readAll (N := N) max left).thrown = none := hnone
      rw [hreads, readAll_append, hthrew]
      simp only [Drained.after, List.append_assoc]
    · have hthrew : (readAll (N := N) max left).thrown = some e := he
      rw [hreads, readAll_append, hthrew]
      exact ⟨rfl, hthrew⟩

/-- Whatever is done with a reader, it follows the bytes that were pushed. -/
theorem Reading.Follows.run (h : s.Follows max bytes) (ops : List ReaderOp) :
    (s.run max ops).Follows max (bytes ++ pushed ops) := by
  induction ops generalizing s bytes with
  | nil =>
    rw [pushed, List.append_nil]
    exact h
  | cons op ops ih =>
    cases op with
    | push chunk =>
      have hrest := ih (h.push chunk)
      rwa [List.append_assoc] at hrest
    | drain => exact ih h.drain

theorem run_follows (max : Nat) (ops : List ReaderOp) :
    (Reading.run (N := N) max {} ops).Follows max (pushed ops) :=
  (Reading.Follows.new max).run ops

/-- No more is yielded than a reader of the whole stream would. -/
theorem yielded_prefix (max : Nat) (ops : List ReaderOp) :
    (Reading.run (N := N) max {} ops).yielded <+: (readAll max (pushed ops)).frames := by
  have h := run_follows (N := N) max ops
  cases hthrown : (Reading.run (N := N) max {} ops).thrown with
  | none =>
    obtain ⟨left, -, hreads⟩ := h.reads hthrown
    have hall := hreads []
    rw [List.append_nil] at hall
    rw [hall]
    exact List.prefix_append _ _
  | some e =>
    have hall := (h.throws e hthrown []).1
    rw [List.append_nil] at hall
    exact hall ▸ List.prefix_rfl

/-- After a drain it is what that reader would have, and thrown is what it would throw. -/
theorem run_drained (max : Nat) (ops : List ReaderOp) :
    (Reading.run (N := N) max {} (ops ++ [.drain])).yielded = (readAll max (pushed ops)).frames ∧
      (Reading.run (N := N) max {} (ops ++ [.drain])).thrown =
        (readAll (N := N) max (pushed ops)).thrown := by
  have h := run_follows (N := N) max ops
  have hlast : Reading.run (N := N) max {} (ops ++ [.drain]) =
      (Reading.run max {} ops).act max .drain := by
    rw [Reading.run, List.foldl_append]
    rfl
  rw [hlast]
  cases hthrown : (Reading.run (N := N) max {} ops).thrown with
  | none =>
    obtain ⟨left, hholds, hreads⟩ := h.reads hthrown
    have hagrees := hholds.drain (N := N) max
    have hall := hreads []
    rw [List.append_nil, List.append_nil] at hall
    rw [Reading.act_drain hthrown, hall, hagrees.frames, hagrees.thrown]
    exact ⟨rfl, rfl⟩
  | some e =>
    have hall := h.throws e hthrown []
    rw [List.append_nil] at hall
    rw [Reading.act_of_thrown hthrown, hall.1, hall.2]
    exact ⟨rfl, hthrown⟩

/-! ## Encoded frames -/

/-- A frame that was encoded is read, where it is not too large. -/
theorem readAll_encodeFrame {frame : Frame N} (h : frame.Fits) (hmax : frame.body.length ≤ max)
    (rest : Bytes) :
    readAll max (encodeFrame frame ++ rest) = (readAll max rest).yielding frame := by
  have hlength : bigEndian ((encodeFrame frame ++ rest).take 4) = frame.body.length := by
    rw [encodeFrame_eq, List.append_assoc, List.take_left' (by rfl)]
    exact bigEndian_uint32 h.length
  have hdrop : (encodeFrame frame ++ rest).drop 4 = frame.body ++ rest := by
    rw [encodeFrame_eq, List.append_assoc, List.drop_left' (by rfl)]
  have hall : (encodeFrame frame ++ rest).length = 4 + (frame.body.length + rest.length) := by
    rw [encodeFrame_eq]
    simp
  rw [readAll_step, if_neg (by omega), hlength, if_neg (by omega), if_neg (by omega), hdrop,
    List.take_left' rfl, List.drop_left' rfl, decodeFrameBody_body h]

theorem readAll_encodeFrames {frames : List (Frame N)} (hfits : ∀ frame ∈ frames, frame.Fits)
    (hmax : ∀ frame ∈ frames, frame.body.length ≤ max) (rest : Bytes) :
    readAll max (frames.flatMap encodeFrame ++ rest) = (readAll max rest).after frames := by
  induction frames with
  | nil => rfl
  | cons frame frames ih =>
    rw [List.forall_mem_cons] at hfits hmax
    rw [List.flatMap_cons, List.append_assoc, readAll_encodeFrame hfits.1 hmax.1,
      ih hfits.2 hmax.2]
    rfl

/-- A length over the limit is thrown at. -/
theorem readAll_tooLarge (hmax : max < n) (hn : n < 2 ^ 32) (rest : Bytes) :
    readAll (N := N) max (uint32 n ++ rest) =
      ⟨[], some (.frameTooLarge n max), uint32 n ++ rest⟩ := by
  have hlength : bigEndian ((uint32 n ++ rest).take 4) = n := by
    exact bigEndian_uint32 hn
  rw [readAll_step, if_neg (by simp), hlength, if_pos hmax]

/-- Over every segmentation of what was encoded the reader yields the frames, in order and
nothing else; a length over the limit is thrown at with what was sent before it yielded; and
the two branches of the encoder write the same bytes. -/
theorem reads_encoded {max : Nat} {frames : List (Frame N)}
    (hfits : ∀ frame ∈ frames, frame.Fits) (hmax : ∀ frame ∈ frames, frame.body.length ≤ max) :
    (∀ ops, pushed ops = frames.flatMap encodeFrame →
      (Reading.run max {} ops).yielded <+: frames ∧
        (Reading.run (N := N) max {} (ops ++ [.drain])).yielded = frames ∧
        (Reading.run (N := N) max {} (ops ++ [.drain])).thrown = none) ∧
      (∀ ops n rest, max < n → n < 2 ^ 32 →
        pushed ops = frames.flatMap encodeFrame ++ (uint32 n ++ rest) →
          (Reading.run max {} ops).yielded <+: frames ∧
            (Reading.run (N := N) max {} (ops ++ [.drain])).yielded = frames ∧
            (Reading.run (N := N) max {} (ops ++ [.drain])).thrown =
              some (.frameTooLarge n max)) ∧
      ∀ json bodyAt, encodeShort json bodyAt = encodeLong json bodyAt := by
  refine ⟨fun ops hpushed => ?_, fun ops n rest hover hn hpushed => ?_, encodeShort_eq_encodeLong⟩
  · have hread : readAll max (pushed ops) = ⟨frames, none, []⟩ := by
      have hall := readAll_encodeFrames hfits hmax []
      rw [List.append_nil] at hall
      rw [hpushed, hall]
      simp only [Drained.after, readAll, List.length_nil, readFrom, List.append_nil]
    have hinit := yielded_prefix (N := N) max ops
    have hdrained := run_drained (N := N) max ops
    rw [hread] at hinit hdrained
    exact ⟨hinit, hdrained⟩
  · have hread : readAll max (pushed ops) =
        ⟨frames, some (.frameTooLarge n max), uint32 n ++ rest⟩ := by
      rw [hpushed, readAll_encodeFrames hfits hmax, readAll_tooLarge hover hn]
      simp only [Drained.after, List.append_nil]
    have hinit := yielded_prefix (N := N) max ops
    have hdrained := run_drained (N := N) max ops
    rw [hread] at hinit hdrained
    exact ⟨hinit, hdrained⟩

end

/-- The numbers below ten. -/
def Digit : Type := Fin 10

instance : JsNumber Digit where
  toText d := some [UInt16.ofNat (0x30 + d.val)]
  ofText text := Fin.ofNat 10 ((text.headD 0x30).toNat - 0x30)
  token := by
    intro d text h
    cases h
    revert d
    unfold Digit
    decide

/-- A reply of one number and a letter of two bytes, and the end of a stream. -/
def sentFrames : List (Frame Digit) :=
  [{ type := 0x11, flags := 0, status := 0, corrId := 7
     payload := some (.arr [.num (1 : Fin 10), .str [0xE9]]) },
    { type := 0x13, flags := 1, status := 0, corrId := 8, payload := none }]

/-- The letter is cut in two, and so is the length of the second frame. -/
def cutOps : List ReaderOp :=
  let bytes := sentFrames.flatMap encodeFrame
  [.push (bytes.take 17), .drain, .push [], .push ((bytes.drop 17).take 5), .drain,
    .push (bytes.drop 22)]

theorem pushed_cutOps : pushed cutOps = sentFrames.flatMap encodeFrame := by
  have hdrop : (sentFrames.flatMap encodeFrame).drop 22 =
      ((sentFrames.flatMap encodeFrame).drop 17).drop 5 := by
    rw [List.drop_drop]
  simp only [cutOps, pushed, List.nil_append, List.append_nil, hdrop, List.take_append_drop]

theorem fits_sentFrames : ∀ frame ∈ sentFrames, frame.Fits := by
  simp only [sentFrames, List.forall_mem_cons]
  refine ⟨⟨by decide, by decide, by decide, by decide, by decide, ?_, ?_⟩,
    ⟨by decide, by decide, by decide, by decide, by decide, nofun, nofun⟩, nofun⟩
  · rintro v ⟨⟩
    exact ⟨⟨_, rfl, rfl⟩, trivial, trivial⟩
  · rintro v ⟨⟩
    exact ⟨trivial, trivial, trivial⟩

theorem reads_cut : (Reading.run (N := Digit) 64 {} (cutOps ++ [.drain])).yielded = sentFrames ∧
      (Reading.run (N := Digit) 64 {} (cutOps ++ [.drain])).thrown = none := by
  have hmax : ∀ frame ∈ sentFrames, frame.body.length ≤ 64 := by decide
  exact ((reads_encoded fits_sentFrames hmax).1 cutOps pushed_cutOps).2

/-- **No frames are encoded as the beginning of others**: where the bytes of some frames begin with
those of other frames, and whatever follows these, the frames begin with the others. -/
theorem prefix_of_encoded {N : Type} [JsNumber N] {frames frames' : List (Frame N)} (rest : Bytes)
    (hfits : ∀ frame ∈ frames, frame.Fits) (hfits' : ∀ frame ∈ frames', frame.Fits)
    (h : frames.flatMap encodeFrame ++ rest = frames'.flatMap encodeFrame) : frames <+: frames' := by
  have hread := readAll_encodeFrames hfits (fun f hf => Nat.le_of_lt (hfits f hf).length) rest
  have hread' := readAll_encodeFrames hfits' (fun f hf => Nat.le_of_lt (hfits' f hf).length) []
  rw [List.append_nil, ← h, hread] at hread'
  exact ⟨_, (congrArg Drained.frames hread').trans (List.append_nil _)⟩

theorem prefix_of_encoded_sent : sentFrames.take 1 <+: sentFrames := by
  refine prefix_of_encoded ((sentFrames.drop 1).flatMap encodeFrame)
    (fun f hf => fits_sentFrames f (List.mem_of_mem_take hf)) fits_sentFrames ?_
  rw [← List.flatMap_append, List.take_append_drop]

end SigxActors.Cluster.Frames
