import MacTypeControl.Words.LittleEndian
import Mathlib.Data.Nat.Notation
import Mathlib.Tactic.Common

/-!
# The frames of the preview helper

A frame is a header of 24 bytes and two payloads. Both sides write frames in the same way, and what
one side writes the other reads.
-/

namespace MacTypeControl.Preview

open Words

abbrev Bytes := List UInt8

def magic : ℕ := 0x4350544D

def version : ℕ := 1

def maxJson : ℕ := 64 * 1024

def maxBinary : ℕ := 8 * 1024 * 1024

/-! ## Kinds of messages -/

namespace MessageKind

def hello : ℕ := 1

def renderPreview : ℕ := 3

def shutdown : ℕ := 4

def showNativePreview : ℕ := 6

def hideNativePreview : ℕ := 7

def helloAck : ℕ := 101

def previewRendered : ℕ := 103

def nativePreviewState : ℕ := 105

def error : ℕ := 199

end MessageKind

structure Frame where
  kind : ℕ
  requestId : ℕ
  json : Bytes
  binary : Bytes
  deriving DecidableEq

/-- The fields of a frame fit the header. -/
structure Frame.Fits (frame : Frame) : Prop where
  kind : frame.kind < 2 ^ 16
  requestId : frame.requestId < 2 ^ 64

/-! ## Frames as bytes -/

def Frame.tooLarge (frame : Frame) : Bool :=
  maxJson < frame.json.length || maxBinary < frame.binary.length

def Frame.header (frame : Frame) : Bytes :=
  toLeBytes 4 magic ++ (toLeBytes 2 version ++ (toLeBytes 2 frame.kind ++
    (toLeBytes 8 frame.requestId ++ (toLeBytes 4 frame.json.length ++
      toLeBytes 4 frame.binary.length))))

/-- The bytes of a frame, which `write_frame` writes unless a payload is too large. -/
def Frame.encode (frame : Frame) : Bytes :=
  frame.header ++ (frame.json ++ frame.binary)

def unexpectedEnd : String := "failed to fill whole buffer"

def readExact (length : ℕ) (input : Bytes) : Except String (Bytes × Bytes) :=
  if length ≤ input.length then .ok (input.take length, input.drop length)
  else .error unexpectedEnd

/-- Reads one frame, and returns what is left of the input. -/
def readFrame (input : Bytes) : Except String (Frame × Bytes) := do
  let (header, input) ← readExact 24 input
  let magicRead := fromLeBytes (header.take 4)
  let versionRead := fromLeBytes ((header.drop 4).take 2)
  if magicRead ≠ magic ∨ versionRead ≠ version then
    .error "preview helper returned an unsupported frame"
  else
    let kind := fromLeBytes ((header.drop 6).take 2)
    let requestId := fromLeBytes ((header.drop 8).take 8)
    let jsonLength := fromLeBytes ((header.drop 16).take 4)
    let binaryLength := fromLeBytes ((header.drop 20).take 4)
    if maxJson < jsonLength ∨ maxBinary < binaryLength then
      .error "preview helper frame exceeds the size limit"
    else
      let (json, input) ← readExact jsonLength input
      let (binary, input) ← readExact binaryLength input
      .ok (⟨kind, requestId, json, binary⟩, input)

theorem readExact_append (text rest : Bytes) :
    readExact text.length (text ++ rest) = .ok (text, rest) := by
  simp [readExact]

theorem length_header (frame : Frame) : frame.header.length = 24 := by
  simp only [Frame.header, List.length_append, length_toLeBytes]

/-- The six words of the header are read back from their places. -/
theorem words_of_header (frame : Frame) :
    frame.header.take 4 = toLeBytes 4 magic ∧
    (frame.header.drop 4).take 2 = toLeBytes 2 version ∧
    (frame.header.drop 6).take 2 = toLeBytes 2 frame.kind ∧
    (frame.header.drop 8).take 8 = toLeBytes 8 frame.requestId ∧
    (frame.header.drop 16).take 4 = toLeBytes 4 frame.json.length ∧
    (frame.header.drop 20).take 4 = toLeBytes 4 frame.binary.length := by
  unfold Frame.header
  refine ⟨take_toLeBytes _ _ _, ?_, ?_, ?_, ?_, ?_⟩
  · rw [drop_toLeBytes 4 _ 0, List.drop_zero, take_toLeBytes]
  · rw [drop_toLeBytes 4 _ 2, drop_toLeBytes 2 _ 0, List.drop_zero, take_toLeBytes]
  · rw [drop_toLeBytes 4 _ 4, drop_toLeBytes 2 _ 2, drop_toLeBytes 2 _ 0, List.drop_zero,
      take_toLeBytes]
  · rw [drop_toLeBytes 4 _ 12, drop_toLeBytes 2 _ 10, drop_toLeBytes 2 _ 8, drop_toLeBytes 8 _ 0,
      List.drop_zero, take_toLeBytes]
  · rw [drop_toLeBytes 4 _ 16, drop_toLeBytes 2 _ 14, drop_toLeBytes 2 _ 12, drop_toLeBytes 8 _ 4,
      drop_toLeBytes 4 _ 0, List.drop_zero]
    exact List.take_of_length_le (Nat.le_of_eq (length_toLeBytes _ _))

/-- A frame that is not too large is read as it was written. -/
theorem readFrame_encode {frame : Frame} (hfits : frame.Fits) (hsize : frame.tooLarge = false)
    (rest : Bytes) : readFrame (frame.encode ++ rest) = .ok (frame, rest) := by
  have hsizes : frame.json.length ≤ maxJson ∧ frame.binary.length ≤ maxBinary := by
    simpa [Frame.tooLarge] using hsize
  have hheader : readExact 24 (frame.encode ++ rest) =
      .ok (frame.header, frame.json ++ (frame.binary ++ rest)) := by
    rw [Frame.encode, List.append_assoc, List.append_assoc, ← length_header frame]
    exact readExact_append _ _
  have hjson : fromLeBytes (toLeBytes 4 frame.json.length) = frame.json.length :=
    fromLeBytes_toLeBytes (Nat.lt_of_le_of_lt hsizes.1 (by decide))
  have hbinary : fromLeBytes (toLeBytes 4 frame.binary.length) = frame.binary.length :=
    fromLeBytes_toLeBytes (Nat.lt_of_le_of_lt hsizes.2 (by decide))
  have hmagic : fromLeBytes (toLeBytes 4 magic) = magic := fromLeBytes_toLeBytes (by decide)
  have hversion : fromLeBytes (toLeBytes 2 version) = version := fromLeBytes_toLeBytes (by decide)
  have hkind : fromLeBytes (toLeBytes 2 frame.kind) = frame.kind := fromLeBytes_toLeBytes hfits.kind
  have hid : fromLeBytes (toLeBytes 8 frame.requestId) = frame.requestId :=
    fromLeBytes_toLeBytes hfits.requestId
  obtain ⟨h0, h4, h6, h8, h16, h20⟩ := words_of_header frame
  have hsmall : ¬(maxJson < frame.json.length ∨ maxBinary < frame.binary.length) := by omega
  unfold readFrame
  rw [hheader]
  simp only [bind, Except.bind, h0, h4, h6, h8, h16, h20, hmagic, hversion, hkind, hid, hjson, hbinary,
    ne_eq, not_true_eq_false, or_self, if_false, if_neg hsmall, readExact_append]

end MacTypeControl.Preview
