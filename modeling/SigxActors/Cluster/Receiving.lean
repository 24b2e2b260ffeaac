/-
  Cluster/Receiving.lean --- what a connection handles of what its link delivers.

  Source: `#onData` of `packages/actors/src/cluster/connection.ts`.

  The reader is drained into one list for every chunk, and only then are the frames
  handled.  A chunk at which the reader throws is answered with a GOAWAY, and the frames
  that were decoded from it are dropped with it.  What a frame does to the connection
  up to its first await is a parameter.
-/
import SigxActors.Cluster.ConnectionFrame
import SigxActors.Cluster.FrameReader

set_option autoImplicit false

namespace SigxActors.Cluster.Frames

open SigxActors.Js

/-- What a connection does about a chunk. -/
structure Handling (N C : Type) where
  closed : C → Bool
  /-- `#onFrame`, up to its first await. -/
  onFrame : C → Frame N → C
  /-- GOAWAY with 413 or 400, and `close`. -/
  refuse : C → FrameError → C
  closed_refuse : ∀ c e, closed (refuse c e) = true

/-- A connection, its reader and the frames that it has handled. -/
structure Receiver (N C : Type) where
  connection : C
  reader : FrameReader := {}
  handled : List (Frame N) := []

section

variable {N C : Type} [JsNumber N] (on : Handling N C)

namespace Receiver

/-- The loop over the frames of a chunk. -/
def handle (s : Receiver N C) : List (Frame N) → Receiver N C
  | [] => s
  | frame :: frames =>
      if on.closed s.connection then s
      else
        handle
          { s with
            connection := on.onFrame s.connection frame
            handled := s.handled ++ [frame] }
          frames

/-- `#onData`, of a link that delivers a stream of bytes. -/
def onData (max : Nat) (s : Receiver N C) (bytes : Bytes) : Receiver N C :=
  let drained := (s.reader.push bytes).drain max
  let s := { s with reader := drained.left }
  match drained.thrown with
  | some e => { s with connection := on.refuse s.connection e }
  | none => s.handle on drained.frames

/-- The chunks, one after another. -/
def receive (max : Nat) (s : Receiver N C) (chunks : List Bytes) : Receiver N C :=
  chunks.foldl (onData on max) s

end Receiver

/-- What a new connection handles of a stream that arrives in these chunks. -/
def handledOf (max : Nat) (c : C) (chunks : List Bytes) : List (Frame N) :=
  (Receiver.receive on max { connection := c } chunks).handled

/-- Of frames, those up to the one that closes the connection. -/
def untilClosed (c : C) : List (Frame N) → List (Frame N)
  | [] => []
  | frame :: frames =>
      if on.closed c then [] else frame :: untilClosed (on.onFrame c frame) frames

/-! ## The frames of a chunk -/

omit [JsNumber N] in
theorem untilClosed_of_closed {c : C} (h : on.closed c = true) (frames : List (Frame N)) :
    untilClosed on c frames = [] := by
  cases frames with
  | nil => rfl
  | cons frame frames => exact if_pos h

omit [JsNumber N] in
/-- What frames leave of the connection, that were not cut short. -/
theorem handle_handled (s : Receiver N C) (frames : List (Frame N)) :
    (s.handle on frames).handled = s.handled ++ untilClosed on s.connection frames := by
  induction frames generalizing s with
  | nil => exact (List.append_nil _).symm
  | cons frame frames ih =>
    rw [Receiver.handle, untilClosed]
    split
    case isTrue => exact (List.append_nil _).symm
    case isFalse => rw [ih, List.append_assoc, List.singleton_append]

omit [JsNumber N] in
@[simp]
theorem handle_reader (s : Receiver N C) (frames : List (Frame N)) :
    (s.handle on frames).reader = s.reader := by
  induction frames generalizing s with
  | nil => rfl
  | cons frame frames ih =>
    rw [Receiver.handle]
    split
    case isTrue => rfl
    case isFalse => exact ih _

variable {s : Receiver N C} {max : Nat} {bytes : Bytes}

omit [JsNumber N] in
theorem handle_of_closed (h : on.closed s.connection = true) (frames : List (Frame N)) :
    s.handle on frames = s := by
  cases frames with
  | nil => rfl
  | cons frame frames => exact if_pos h

omit [JsNumber N] in
/-- Frames behind the frames are handled by the connection that those leave. -/
theorem untilClosed_append (s : Receiver N C) (frames rest : List (Frame N)) :
    untilClosed on s.connection (frames ++ rest) =
      untilClosed on s.connection frames ++
        untilClosed on (s.handle on frames).connection rest := by
  induction frames generalizing s with
  | nil => rfl
  | cons frame frames ih =>
    rw [List.cons_append, untilClosed, untilClosed, Receiver.handle]
    split
    case isTrue hclosed => rw [untilClosed_of_closed on hclosed, List.append_nil]
    case isFalse =>
      let handled := s.handled ++ [frame]
      exact congrArg (frame :: ·) (ih ⟨on.onFrame s.connection frame, s.reader, handled⟩)

/-! ## Chunks -/

variable {left : Bytes}

theorem onData_of_thrown (h : s.reader.Holds left) {chunk : Bytes} {e : FrameError}
    (he : (readAll (N := N) max (left ++ chunk)).thrown = some e) :
    (s.onData on max chunk).handled = s.handled ∧
      on.closed (s.onData on max chunk).connection = true := by
  have hthrown := ((h.push chunk).drain (N := N) max).thrown.trans he
  unfold Receiver.onData
  simp only [hthrown, true_and]
  exact on.closed_refuse _ e

theorem onData_of_none (h : s.reader.Holds left) {chunk : Bytes}
    (hnone : (readAll (N := N) max (left ++ chunk)).thrown = none) :
    (s.onData on max chunk).handled =
        s.handled ++ untilClosed on s.connection (readAll max (left ++ chunk)).frames ∧
      (s.onData on max chunk).reader.Holds (readAll (N := N) max (left ++ chunk)).left ∧
      ∀ rest, untilClosed on s.connection ((readAll max (left ++ chunk)).frames ++ rest) =
        untilClosed on s.connection (readAll max (left ++ chunk)).frames ++
          untilClosed on (s.onData on max chunk).connection rest := by
  have hdrained := (h.push chunk).drain (N := N) max
  have hthrown := hdrained.thrown.trans hnone
  let drained : Receiver N C := { s with reader := ((s.reader.push chunk).drain (N := N) max).left }
  unfold Receiver.onData
  simp only [hthrown, hdrained.frames, handle_handled, handle_reader]
  exact ⟨trivial, hdrained.left, untilClosed_append on drained _⟩

omit [JsNumber N] in
theorem Receiver.receive_cons [JsNumber N] (max : Nat) (s : Receiver N C) (chunk : Bytes)
    (chunks : List Bytes) :
    s.receive on max (chunk :: chunks) = (s.onData on max chunk).receive on max chunks := rfl

theorem handled_prefix_onData (max : Nat) (s : Receiver N C) (chunk : Bytes) :
    s.handled <+: (s.onData on max chunk).handled := by
  unfold Receiver.onData
  cases hthrown : ((s.reader.push chunk).drain (N := N) max).thrown with
  | some e =>
    simp only [hthrown]
    exact List.prefix_rfl
  | none =>
    simp only [hthrown, handle_handled]
    exact List.prefix_append _ _

/-- A closed connection handles nothing more. -/
theorem receive_of_closed (h : on.closed s.connection = true) (chunks : List Bytes) :
    (s.receive on max chunks).handled = s.handled := by
  induction chunks generalizing s with
  | nil => rfl
  | cons chunk chunks ih =>
    have hone : (s.onData on max chunk).handled = s.handled ∧
        on.closed (s.onData on max chunk).connection = true := by
      unfold Receiver.onData
      cases hthrown : ((s.reader.push chunk).drain (N := N) max).thrown with
      | some e =>
        simp only [hthrown, true_and]
        exact on.closed_refuse _ e
      | none =>
        simp only [hthrown]
        rw [handle_of_closed on (by exact h)]
        exact ⟨rfl, h⟩
    rw [Receiver.receive_cons, ih hone.2, hone.1]

/-- Behind a drain nothing is left to read. -/
theorem frames_left (h : (readAll (N := N) max bytes).thrown = none) :
    (readAll (N := N) max (readAll (N := N) max bytes).left).frames = [] := by
  have hagain := readAll_append (N := N) max bytes []
  rw [h, List.append_nil, List.append_nil] at hagain
  have hframes := congrArg Drained.frames hagain
  exact List.self_eq_append_right.1 hframes

variable {chunks : List Bytes}

/-- Chunks at which nothing is thrown are handled as one. -/
theorem receive_of_none {max : Nat} {s : Receiver N C} (h : s.reader.Holds left)
    (hdry : (readAll (N := N) max left).frames = [])
    (hnone : (readAll (N := N) max (left ++ chunks.flatten)).thrown = none) :
    (s.receive on max chunks).handled =
      s.handled ++ untilClosed on s.connection (readAll max (left ++ chunks.flatten)).frames := by
  induction chunks generalizing s left with
  | nil =>
    rw [List.flatten_nil, List.append_nil, hdry]
    exact (List.append_nil _).symm
  | cons chunk chunks ih =>
    rw [List.flatten_cons, ← List.append_assoc, readAll_append] at hnone ⊢
    cases hfirst : (readAll (N := N) max (left ++ chunk)).thrown with
    | some e =>
      rw [hfirst] at hnone
      exact absurd (hfirst.symm.trans hnone) nofun
    | none =>
      rw [hfirst] at hnone
      obtain ⟨hhandled, hholds, happend⟩ := onData_of_none on h hfirst
      rw [Receiver.receive_cons, ih hholds (frames_left hfirst) hnone, hhandled,
        List.append_assoc]
      exact congrArg (s.handled ++ ·) (happend _).symm

/-! ## Streams -/

/-- Chunks in which nothing is read in front of what is thrown at are not handled. -/
theorem receive_of_nil (h : s.reader.Holds left)
    (hnil : (readAll (N := N) max (left ++ chunks.flatten)).frames = []) :
    (s.receive on max chunks).handled = s.handled := by
  induction chunks generalizing s left with
  | nil => rfl
  | cons chunk chunks ih =>
    rw [List.flatten_cons, ← List.append_assoc, readAll_append] at hnil
    rw [Receiver.receive_cons]
    cases hfirst : (readAll (N := N) max (left ++ chunk)).thrown with
    | some e =>
      obtain ⟨hhandled, hclosed⟩ := onData_of_thrown on h hfirst
      rw [receive_of_closed on hclosed, hhandled]
    | none =>
      rw [hfirst] at hnil
      obtain ⟨hhandled, hholds, -⟩ := onData_of_none on h hfirst
      obtain ⟨hframes, hrest⟩ := List.append_eq_nil_iff.1 hnil
      rw [ih hholds hrest, hhandled, hframes]
      exact List.append_nil _

/-- A stream that begins with a frame can be cut behind it. -/
theorem cut_of_cons {frame : Frame N} {frames : List (Frame N)}
    (h : (readAll max bytes).frames = frame :: frames) :
    ∃ first rest, first ++ rest = bytes ∧ readAll max first = ⟨[frame], none, []⟩ := by
  have hstep := readAll_step (N := N) max bytes
  by_cases hheader : bytes.length < 4
  · rw [hstep, if_pos hheader] at h
    cases h
  rw [if_neg hheader] at hstep
  by_cases hlarge : bigEndian (bytes.take 4) > max
  · rw [hstep, if_pos hlarge] at h
    cases h
  rw [if_neg hlarge] at hstep
  by_cases hbody : bytes.length < 4 + bigEndian (bytes.take 4)
  · rw [hstep, if_pos hbody] at h
    cases h
  rw [if_neg hbody] at hstep
  refine ⟨bytes.take (4 + bigEndian (bytes.take 4)), bytes.drop (4 + bigEndian (bytes.take 4)),
    List.take_append_drop _ _, ?_⟩
  have htake : (bytes.take (4 + bigEndian (bytes.take 4))).take 4 = bytes.take 4 := by
    rw [List.take_take, Nat.min_eq_left (Nat.le_add_right _ _)]
  have hlength : (bytes.take (4 + bigEndian (bytes.take 4))).length =
      4 + bigEndian (bytes.take 4) := List.length_take_of_le (by omega)
  have hbytes : (bytes.take (4 + bigEndian (bytes.take 4))).drop 4 =
      (bytes.drop 4).take (bigEndian (bytes.take 4)) := by
    rw [List.drop_take, Nat.add_sub_cancel_left]
  have hin : ((bytes.drop 4).take (bigEndian (bytes.take 4))).length = bigEndian (bytes.take 4) :=
    List.length_take_of_le (by rw [List.length_drop]; omega)
  rw [readAll_step, hlength, htake, hbytes, if_neg (by omega), if_neg hlarge,
    if_neg (Nat.lt_irrefl _), List.take_of_length_le (Nat.le_of_eq hin),
    List.drop_of_length_le (Nat.le_of_eq hin)]
  cases hdecode : decodeFrameBody (N := N) ((bytes.drop 4).take (bigEndian (bytes.take 4))) with
  | error e =>
    rw [hstep, hdecode] at h
    cases h
  | ok decoded =>
    rw [hstep, hdecode] at h
    obtain ⟨rfl, -⟩ := List.cons.inj h
    rfl

/-! ## Segmentations -/

/-- Nothing is thrown at, or no frame lies in front of what is. -/
def Whole (N : Type) [JsNumber N] (max : Nat) (bytes : Bytes) : Prop :=
  (readAll (N := N) max bytes).thrown = none ∨ (readAll (N := N) max bytes).frames = []

/-- What is handled of a stream, wherever it was cut. -/
theorem handledOf_of_whole (h : Whole N max chunks.flatten) (c : C) :
    handledOf on max c chunks = untilClosed on c (readAll max chunks.flatten).frames := by
  have hnew : ({ connection := c } : Receiver N C).reader.Holds [] := .new
  rcases h with hnone | hnil
  · exact receive_of_none on hnew rfl hnone
  · rw [hnil]
    exact receive_of_nil on hnew hnil

/-- A stream at which something is thrown is not handled at all, where it is one chunk. -/
theorem handledOf_single {e : FrameError} (h : (readAll (N := N) max bytes).thrown = some e)
    (c : C) :
    handledOf on max c [bytes] = [] := by
  have hnew : ({ connection := c } : Receiver N C).reader.Holds [] := .new
  exact (onData_of_thrown on hnew h).1

/-- Its first frame is, where the stream is cut behind that. -/
theorem handledOf_cut {frame : Frame N} {frames : List (Frame N)}
    (h : (readAll max bytes).frames = frame :: frames) {c : C} (hopen : on.closed c = false) :
    ∃ first rest, first ++ rest = bytes ∧ handledOf on max c [first, rest] ≠ [] := by
  obtain ⟨first, rest, hbytes, hread⟩ := cut_of_cons h
  refine ⟨first, rest, hbytes, ?_⟩
  let s : Receiver N C := { connection := c }
  have hnew : s.reader.Holds [] := .new
  have hfirst : (s.onData on max first).handled = [frame] := by
    have hnone : (readAll (N := N) max ([] ++ first)).thrown = none := congrArg Drained.thrown hread
    have hhandled := (onData_of_none on hnew hnone).1
    have hframes : (readAll (N := N) max ([] ++ first)).frames = [frame] := by
      rw [List.nil_append, hread]
    rw [hhandled, hframes]
    exact if_neg (by rw [hopen]; exact Bool.false_ne_true)
  have hrest := handled_prefix_onData on max (s.onData on max first) rest
  rw [hfirst] at hrest
  intro hnil
  have hempty : (Receiver.onData on max (s.onData on max first) rest).handled = [] := hnil
  rw [hempty] at hrest
  exact absurd (List.prefix_nil.1 hrest) nofun

/-- An open connection handles a stream alike over all its segmentations, and the frames in
front of what is thrown at over each of them, where the stream is whole and only there. -/
theorem handled_alike_iff (max : Nat) (c : C) (bytes : Bytes) :
    ((∀ chunks chunks', chunks.flatten = bytes → chunks'.flatten = bytes →
        handledOf on max c chunks = handledOf on max c chunks') ↔
      on.closed c = true ∨ Whole N max bytes) ∧
      ((∀ chunks, chunks.flatten = bytes →
          handledOf on max c chunks = untilClosed on c (readAll max bytes).frames) ↔
        on.closed c = true ∨ Whole N max bytes) := by
  have hfrom : on.closed c = true ∨ Whole N max bytes → ∀ chunks, chunks.flatten = bytes →
      handledOf on max c chunks = untilClosed on c (readAll max bytes).frames := by
    rintro (hclosed | hwhole) chunks rfl
    · rw [untilClosed_of_closed on hclosed]
      exact receive_of_closed on hclosed chunks
    · exact handledOf_of_whole on hwhole c
  have hto : (∀ chunks chunks', chunks.flatten = bytes → chunks'.flatten = bytes →
      handledOf on max c chunks = handledOf on max c chunks') →
        on.closed c = true ∨ Whole N max bytes := by
    intro halike
    cases hopen : on.closed c with
    | true => exact .inl rfl
    | false =>
      refine .inr ?_
      cases hthrown : (readAll (N := N) max bytes).thrown with
      | none => exact .inl hthrown
      | some e =>
        cases hframes : (readAll (N := N) max bytes).frames with
        | nil => exact .inr hframes
        | cons frame frames =>
          obtain ⟨first, rest, hbytes, hcut⟩ := handledOf_cut on hframes hopen
          refine absurd ?_ hcut
          rw [← handledOf_single on hthrown c]
          exact halike _ _ (by simpa using hbytes) (by simp)
  refine ⟨⟨hto, fun h chunks chunks' hchunks hchunks' => ?_⟩, ⟨fun h => hto ?_, hfrom⟩⟩
  · rw [hfrom h chunks hchunks, hfrom h chunks' hchunks']
  · exact fun chunks chunks' hchunks hchunks' => (h chunks hchunks).trans (h chunks' hchunks').symm

end

/-! ## Host connections -/

/-- A host connection handles the frames that are read of it.  What its link does with what
is sent meanwhile may depend on the frame; a frame that is none of the connection's is left
alone. -/
def hostHandling {N V : Type} (link : Frame N → Link V) (refusal : Link V)
    (read : Frame N → Option (Cluster.Frame V)) (message : FrameError → String) :
    Handling N (HostConnection V) where
  closed c := c.closed
  onFrame c frame :=
    match read frame with
    | none => c
    | some read => c.onFrame (link frame) read
  refuse c e :=
    match e with
    | .frameTooLarge .. => c.malformed refusal true (message e)
    | _ => c.malformed refusal false (message e)
  closed_refuse c e := by
    cases e <;> exact HostConnection.closed_close _

/-- `FrameType.PING`. -/
def pingType : Nat := 0x20

/-- A ping, and a frame that is longer than 64 bytes. -/
def pingAndTooLarge : List Bytes :=
  [encodeFrame (N := Digit) { type := pingType, flags := 0, status := 0, corrId := 7, payload := none },
    uint32 65]

/-- A connection that knows no frames but pings. -/
def pingHandling : Handling Digit (HostConnection Nat) :=
  hostHandling (fun _ _ => .taken) (fun _ => .taken)
    (fun frame => if frame.type = pingType then some (.ping frame.corrId) else none) fun _ => ""

/-- A ping that comes in one chunk with a length over the limit is dropped. -/
theorem not_handled_alike :
    ¬ ∀ (max : Nat) (bytes : Bytes) (chunks chunks' : List Bytes), chunks.flatten = bytes →
      chunks'.flatten = bytes →
        handledOf pingHandling max { dialer := true } chunks =
          handledOf pingHandling max { dialer := true } chunks' := by
  intro h
  have halike := congrArg List.length
    (h 64 _ pingAndTooLarge [pingAndTooLarge.flatten] rfl (List.append_nil _))
  cases halike

end SigxActors.Cluster.Frames
