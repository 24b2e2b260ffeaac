/-
  Cluster/Frames.lean --- the frame codec.

  A frame is a length, a header of eight bytes and a payload in JSON.  Everything is
  written into one buffer: a small payload straight behind the header, a larger one from
  an encoding of its own.
-/
import SigxActors.Codec.WireParse

set_option autoImplicit false

namespace SigxActors.Cluster.Frames

open SigxActors.Js
open SigxActors.Codec

/-- `Frame`. -/
structure Frame (N : Type) where
  type : Nat
  flags : Nat
  status : Nat
  corrId : Nat
  /-- None where it is undefined. -/
  payload : Option (Json N)

/-- `FRAME_HEADER_BYTES_UNPREFIXED`. -/
def frameHeaderBytesUnprefixed : Nat := 8

/-- `ENCODE_INTO_MAX_UNITS`. -/
def encodeIntoMaxUnits : Nat := 1024

/-! ## Buffers -/

/-- `view.setUint16(at, n, false)`: what is written. -/
def uint16 (n : Nat) : Bytes := [UInt8.ofNat (n / 0x100), UInt8.ofNat n]

/-- `view.setUint32(at, n, false)`: what is written. -/
def uint32 (n : Nat) : Bytes :=
  [UInt8.ofNat (n / 0x1000000), UInt8.ofNat (n / 0x10000), UInt8.ofNat (n / 0x100), UInt8.ofNat n]

/-- The number that bytes stand for, the most significant first. -/
def bigEndian (bytes : Bytes) : Nat := bytes.foldl (fun n b => n * 0x100 + b.toNat) 0

/-- `out.set(bytes, at)`. -/
def setAt (out : Bytes) (at_ : Nat) (bytes : Bytes) : Bytes :=
  out.take at_ ++ bytes ++ out.drop (at_ + bytes.length)

/-! ## Encoding -/

section

variable {N : Type} [JsNumber N]

/-- The payload's text. -/
def Frame.json (frame : Frame N) : Text :=
  match frame.payload with
  | none => []
  | some v => stringify v

/-- The buffer of a small payload, up to what was written of it. -/
def encodeShort (json : Text) (bodyAt : Nat) : Bytes :=
  let buffer : Bytes := List.replicate (bodyAt + json.length * 3) 0
  let written := if json = [] then [] else encodeInto json (json.length * 3)
  (setAt buffer bodyAt written).take (bodyAt + written.length)

/-- The buffer of any other. -/
def encodeLong (json : Text) (bodyAt : Nat) : Bytes :=
  let body := encode json
  setAt (List.replicate (bodyAt + body.length) 0) bodyAt body

/-- `encodeWithPrefix`. -/
def encodeWithPrefix (frame : Frame N) (prefixBytes : Nat) : Bytes :=
  let json := frame.json
  let headerAt := prefixBytes
  let bodyAt := prefixBytes + frameHeaderBytesUnprefixed
  let out :=
    if json.length ≤ encodeIntoMaxUnits then encodeShort json bodyAt else encodeLong json bodyAt
  let out := setAt out headerAt [UInt8.ofNat frame.type]
  let out := setAt out (headerAt + 1) [UInt8.ofNat frame.flags]
  let out := setAt out (headerAt + 2) (uint16 frame.status)
  setAt out (headerAt + 4) (uint32 frame.corrId)

/-- `encodeFrameBody`. -/
def encodeFrameBody (frame : Frame N) : Bytes := encodeWithPrefix frame 0

/-- `encodeFrame`. -/
def encodeFrame (frame : Frame N) : Bytes :=
  let out := encodeWithPrefix frame 4
  setAt out 0 (uint32 (out.length - 4))

/-! ## Decoding -/

/-- What is thrown at bytes. -/
inductive FrameError where
  /-- `short frame: ${n} bytes` -/
  | shortFrame (n : Nat)
  /-- `FRAME_TOO_LARGE` -/
  | frameTooLarge (length max : Nat)
  /-- The payload is no JSON. -/
  | syntax_
  deriving DecidableEq

/-- `decodeFrameBody(body, reviver)`. -/
def decodeFrameBody (body : Bytes) : Except FrameError (Frame N) :=
  if body.length < frameHeaderBytesUnprefixed then .error (.shortFrame body.length)
  else
    let frame : Frame N :=
      { type := bigEndian (body.take 1)
        flags := bigEndian ((body.drop 1).take 1)
        status := bigEndian ((body.drop 2).take 2)
        corrId := bigEndian ((body.drop 4).take 4)
        payload := none }
    if body.length > frameHeaderBytesUnprefixed then
      match parseWire (decode (body.drop frameHeaderBytesUnprefixed)) with
      | some payload => .ok { frame with payload := some payload }
      | none => .error .syntax_
    else .ok frame

end

/-! ## Numbers in bytes -/

theorem toNat_ofNat_mod (n : Nat) : (UInt8.ofNat n).toNat = n % 0x100 := UInt8.toNat_ofNat'

theorem bigEndian_uint8 {n : Nat} (h : n < 2 ^ 8) : bigEndian [UInt8.ofNat n] = n := by
  simp only [bigEndian, List.foldl_cons, List.foldl_nil, toNat_ofNat_mod]
  omega

theorem bigEndian_uint16 {n : Nat} (h : n < 2 ^ 16) : bigEndian (uint16 n) = n := by
  simp only [bigEndian, uint16, List.foldl_cons, List.foldl_nil, toNat_ofNat_mod]
  omega

theorem bigEndian_uint32 {n : Nat} (h : n < 2 ^ 32) : bigEndian (uint32 n) = n := by
  simp only [bigEndian, uint32, List.foldl_cons, List.foldl_nil, toNat_ofNat_mod]
  omega

@[simp]
theorem length_uint16 (n : Nat) : (uint16 n).length = 2 := rfl

@[simp]
theorem length_uint32 (n : Nat) : (uint32 n).length = 4 := rfl

/-! ## Writing into a buffer -/

theorem setAt_append {a b c bytes : Bytes} {at_ : Nat} (ha : a.length = at_)
    (hb : b.length = bytes.length) : setAt (a ++ b ++ c) at_ bytes = a ++ bytes ++ c := by
  subst ha
  unfold setAt
  rw [List.append_assoc a b c, List.take_left, ← List.drop_drop, List.drop_left, ← hb,
    List.drop_left]

section

variable {N : Type} [JsNumber N]

/-- The eight bytes in front of the payload. -/
def Frame.header (frame : Frame N) : Bytes :=
  [UInt8.ofNat frame.type] ++ [UInt8.ofNat frame.flags] ++ uint16 frame.status ++
    uint32 frame.corrId

omit [JsNumber N] in
@[simp]
theorem Frame.length_header (frame : Frame N) : frame.header.length = 8 := rfl

/-- The header and the payload. -/
def Frame.body (frame : Frame N) : Bytes := frame.header ++ encode frame.json

/-- The buffer of a small payload holds nothing but its encoding. -/
theorem encodeShort_eq (json : Text) (bodyAt : Nat) :
    encodeShort json bodyAt = List.replicate bodyAt 0 ++ encode json := by
  have hwritten : (if json = [] then [] else encodeInto json (json.length * 3)) = encode json := by
    split
    case isTrue hnil =>
      subst hnil
      rfl
    case isFalse => exact encodeInto_eq_encode (by omega)
  have hlength := length_encode_le json
  have hsplit : List.replicate (bodyAt + json.length * 3) (0 : UInt8) =
      List.replicate bodyAt 0 ++ List.replicate (encode json).length 0 ++
        List.replicate (json.length * 3 - (encode json).length) 0 := by
    rw [List.replicate_append_replicate, List.replicate_append_replicate]
    congr 1
    omega
  unfold encodeShort
  simp only [hwritten]
  rw [hsplit, setAt_append (by simp) (by simp)]
  exact List.take_left' (by simp)

theorem encodeLong_eq (json : Text) (bodyAt : Nat) :
    encodeLong json bodyAt = List.replicate bodyAt 0 ++ encode json := by
  have hsplit : List.replicate (bodyAt + (encode json).length) (0 : UInt8) =
      List.replicate bodyAt 0 ++ List.replicate (encode json).length 0 ++ [] := by
    rw [List.append_nil, List.replicate_append_replicate]
  unfold encodeLong
  simp only [hsplit]
  rw [setAt_append (by simp) (by simp), List.append_nil]

/-- Of every payload the two branches make the same bytes. -/
theorem encodeShort_eq_encodeLong (json : Text) (bodyAt : Nat) :
    encodeShort json bodyAt = encodeLong json bodyAt :=
  (encodeShort_eq json bodyAt).trans (encodeLong_eq json bodyAt).symm

/-- The header is written into its place. -/
theorem encodeWithPrefix_eq (frame : Frame N) (prefixBytes : Nat) :
    encodeWithPrefix frame prefixBytes = List.replicate prefixBytes 0 ++ frame.body := by
  let front : Bytes := List.replicate prefixBytes 0
  have hfront : front.length = prefixBytes := List.length_replicate
  have hout : (if frame.json.length ≤ encodeIntoMaxUnits then
      encodeShort frame.json (prefixBytes + frameHeaderBytesUnprefixed)
      else encodeLong frame.json (prefixBytes + frameHeaderBytesUnprefixed)) =
      front ++ [0] ++ (List.replicate 7 0 ++ encode frame.json) := by
    rw [encodeShort_eq_encodeLong, ite_self, encodeLong_eq, ← List.replicate_append_replicate]
    simp only [List.append_assoc]
    rfl
  unfold encodeWithPrefix
  simp only [hout]
  have htype : setAt (front ++ [0] ++ (List.replicate 7 0 ++ encode frame.json)) prefixBytes
      [UInt8.ofNat frame.type] = (front ++ [UInt8.ofNat frame.type]) ++ [0] ++
        (List.replicate 6 0 ++ encode frame.json) := by
    rw [setAt_append hfront (by rfl)]
    simp only [List.append_assoc]
    rfl
  have hflags : setAt ((front ++ [UInt8.ofNat frame.type]) ++ [0] ++
      (List.replicate 6 0 ++ encode frame.json)) (prefixBytes + 1) [UInt8.ofNat frame.flags] =
        (front ++ [UInt8.ofNat frame.type] ++ [UInt8.ofNat frame.flags]) ++ [0, 0] ++
          (List.replicate 4 0 ++ encode frame.json) := by
    rw [setAt_append (by simp [hfront]) (by rfl)]
    simp only [List.append_assoc]
    rfl
  have hstatus : setAt ((front ++ [UInt8.ofNat frame.type] ++ [UInt8.ofNat frame.flags]) ++ [0, 0] ++
      (List.replicate 4 0 ++ encode frame.json)) (prefixBytes + 2) (uint16 frame.status) =
        (front ++ [UInt8.ofNat frame.type] ++ [UInt8.ofNat frame.flags] ++ uint16 frame.status) ++
          [0, 0, 0, 0] ++ encode frame.json := by
    rw [setAt_append (by simp [hfront]) (by rfl)]
    simp only [List.append_assoc]
    rfl
  rw [htype, hflags, hstatus, setAt_append (by simp [hfront]) (by rfl)]
  simp only [Frame.body, Frame.header, List.append_assoc]
  rfl

/-- A frame is its length and its body. -/
theorem encodeFrame_eq (frame : Frame N) :
    encodeFrame frame = uint32 frame.body.length ++ frame.body := by
  have hlength : (List.replicate 4 (0 : UInt8) ++ frame.body).length - 4 = frame.body.length := by
    simp
  unfold encodeFrame
  simp only [encodeWithPrefix_eq, hlength]
  exact setAt_append (a := []) rfl rfl

/-! ## Decoding what was encoded -/

/-- The header fields have their widths, and the payload is JSON without dangerous keys. -/
structure Frame.Fits (frame : Frame N) : Prop where
  type : frame.type < 2 ^ 8
  flags : frame.flags < 2 ^ 8
  status : frame.status < 2 ^ 16
  corrId : frame.corrId < 2 ^ 32
  /-- So does the length. -/
  length : frame.body.length < 2 ^ 32
  carried : ∀ v ∈ frame.payload, Carried v
  safe : ∀ v ∈ frame.payload, Safe v

theorem encode_stringify_ne_nil (v : Json N) : encode (stringify v) ≠ [] := by
  intro hnil
  have hdecoded := decode_stringify v
  rw [hnil] at hdecoded
  have hpos := length_stringify_pos v
  rw [← hdecoded] at hpos
  exact absurd hpos (by decide)

/-- The fields of a body. -/
theorem decodeFrameBody_fields (frame : Frame N) : frame.body.take 1 = [UInt8.ofNat frame.type] ∧
      (frame.body.drop 1).take 1 = [UInt8.ofNat frame.flags] ∧
      (frame.body.drop 2).take 2 = uint16 frame.status ∧
      (frame.body.drop 4).take 4 = uint32 frame.corrId ∧
      frame.body.drop 8 = encode frame.json :=
  ⟨rfl, rfl, rfl, rfl, rfl⟩

/-- A body is decoded to its frame. -/
theorem decodeFrameBody_body {frame : Frame N} (h : frame.Fits) :
    decodeFrameBody frame.body = .ok frame := by
  obtain ⟨htype, hflags, hstatus, hcorrId, hjson⟩ := decodeFrameBody_fields frame
  have hlength : frame.body.length = 8 + (encode frame.json).length := by
    rw [Frame.body, List.length_append, Frame.length_header]
  unfold decodeFrameBody frameHeaderBytesUnprefixed
  rw [if_neg (by omega)]
  simp only [htype, hflags, hstatus, hcorrId, hjson, bigEndian_uint8 h.type,
    bigEndian_uint8 h.flags, bigEndian_uint16 h.status, bigEndian_uint32 h.corrId]
  cases hpayload : frame.payload with
  | none =>
    have hempty : frame.json = [] := by rw [Frame.json, hpayload]
    rw [hempty] at hlength
    rw [if_neg (by rw [hlength]; decide), ← hpayload]
  | some v =>
    have htext : frame.json = stringify v := by rw [Frame.json, hpayload]
    have hpos := List.length_pos_iff.2 (encode_stringify_ne_nil v)
    rw [htext] at hlength ⊢
    rw [if_pos (by omega), decode_stringify,
      parseWire_stringify (h.carried v hpayload) (h.safe v hpayload)]
    dsimp only
    rw [← hpayload]

end

end SigxActors.Cluster.Frames
