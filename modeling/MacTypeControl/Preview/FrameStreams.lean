import MacTypeControl.Checks
import MacTypeControl.Preview.Frames

/-!
# Streams of frames

The two readers of frames are written apart: the control center takes the header at once, and the
helper reads it word by word. They accept the same bytes, and a stream that is cut off gives the
frames that have arrived whole.
-/

namespace MacTypeControl.Preview

open Words

/-! ## The reader of the control center -/

/-- The values of the words of a header. -/
structure HeaderWords where
  magic : ℕ
  version : ℕ
  kind : ℕ
  requestId : ℕ
  jsonLength : ℕ
  binaryLength : ℕ

def headerWords (input : Bytes) : HeaderWords where
  magic := fromLeBytes (input.take 4)
  version := fromLeBytes ((input.drop 4).take 2)
  kind := fromLeBytes ((input.drop 6).take 2)
  requestId := fromLeBytes ((input.drop 8).take 8)
  jsonLength := fromLeBytes ((input.drop 16).take 4)
  binaryLength := fromLeBytes ((input.drop 20).take 4)

/-- The words of the first bytes do not depend on what follows the header. -/
theorem headerWords_take (input : Bytes) : headerWords (input.take 24) = headerWords input := by
  simp only [headerWords, List.drop_take, List.take_take]
  rfl

theorem readExact_of_le {length : ℕ} {input : Bytes} (h : length ≤ input.length) :
    readExact length input = .ok (input.take length, input.drop length) := if_pos h

theorem readExact_of_lt {length : ℕ} {input : Bytes} (h : input.length < length) :
    readExact length input = .error unexpectedEnd := if_neg (Nat.not_le.2 h)

/-- What `read_frame` does, by the words of the header and the lengths that they give. -/
theorem readFrame_eq (input : Bytes) : readFrame input =
    if input.length < 24 then .error unexpectedEnd
    else if (headerWords input).magic ≠ magic ∨ (headerWords input).version ≠ version then
      .error "preview helper returned an unsupported frame"
    else if maxJson < (headerWords input).jsonLength ∨ maxBinary < (headerWords input).binaryLength then
      .error "preview helper frame exceeds the size limit"
    else if input.length < 24 + (headerWords input).jsonLength + (headerWords input).binaryLength then
      .error unexpectedEnd
    else .ok (⟨(headerWords input).kind, (headerWords input).requestId,
      (input.drop 24).take (headerWords input).jsonLength,
      ((input.drop 24).drop (headerWords input).jsonLength).take (headerWords input).binaryLength⟩,
      ((input.drop 24).drop (headerWords input).jsonLength).drop (headerWords input).binaryLength) := by
  by_cases hheader : input.length < 24
  · rw [if_pos hheader, readFrame, readExact_of_lt hheader]
    rfl
  rw [if_neg hheader, ← headerWords_take, readFrame, readExact_of_le (Nat.not_lt.1 hheader)]
  simp only [bind, Except.bind]
  change (if (headerWords (input.take 24)).magic ≠ magic ∨ (headerWords (input.take 24)).version ≠ version
    then _ else _) = _
  generalize hwords : headerWords (input.take 24) = words
  by_cases hmagic : words.magic ≠ magic ∨ words.version ≠ version
  · rw [if_pos hmagic, if_pos hmagic]
  rw [if_neg hmagic, if_neg hmagic]
  have hjsonLength : fromLeBytes (((input.take 24).drop 16).take 4) = words.jsonLength := by rw [← hwords]; rfl
  have hbinaryLength : fromLeBytes (((input.take 24).drop 20).take 4) = words.binaryLength := by
    rw [← hwords]
    rfl
  rw [hjsonLength, hbinaryLength]
  by_cases hlarge : maxJson < words.jsonLength ∨ maxBinary < words.binaryLength
  · rw [if_pos hlarge, if_pos hlarge]
  rw [if_neg hlarge, if_neg hlarge]
  have hdrop : (input.drop 24).length = input.length - 24 := List.length_drop
  by_cases hjson : (input.drop 24).length < words.jsonLength
  · rw [readExact_of_lt hjson, if_pos (by omega)]
  rw [readExact_of_le (Nat.not_lt.1 hjson)]
  have hdrop' : ((input.drop 24).drop words.jsonLength).length = input.length - 24 - words.jsonLength := by
    rw [List.length_drop, hdrop]
  simp only
  by_cases hbinary : ((input.drop 24).drop words.jsonLength).length < words.binaryLength
  · rw [readExact_of_lt hbinary, if_pos (by omega)]
  rw [readExact_of_le (Nat.not_lt.1 hbinary), if_neg (by omega)]
  simp only [← hwords]
  rfl

theorem length_take_drop {input : Bytes} {start width : ℕ} (h : start + width ≤ input.length) :
    ((input.drop start).take width).length = width := by
  rw [List.length_take, List.length_drop]
  omega

/-- The first bytes of the input, word by word. -/
theorem take_header {input : Bytes} (h : 24 ≤ input.length) (hmagic : (headerWords input).magic = magic)
    (hversion : (headerWords input).version = version) :
    input.take 24 = toLeBytes 4 magic ++ (toLeBytes 2 version ++
      (toLeBytes 2 (headerWords input).kind ++ (toLeBytes 8 (headerWords input).requestId ++
        (toLeBytes 4 (headerWords input).jsonLength ++ toLeBytes 4 (headerWords input).binaryLength)))) := by
  have hword : ∀ start width, start + width ≤ 24 →
      (input.drop start).take width = toLeBytes width (fromLeBytes ((input.drop start).take width)) :=
    fun start width hle => eq_toLeBytes (length_take_drop (by omega)) rfl
  have hsplit : input.take 24 = input.take 4 ++ ((input.drop 4).take 2 ++ ((input.drop 6).take 2 ++
      ((input.drop 8).take 8 ++ ((input.drop 16).take 4 ++ (input.drop 20).take 4)))) := by
    rw [show (24 : ℕ) = 4 + (2 + (2 + (8 + (4 + 4)))) from rfl, List.take_add, List.take_add,
      List.take_add, List.take_add, List.take_add]
    simp only [List.drop_drop]
  have hfirst : input.take 4 = toLeBytes 4 (fromLeBytes (input.take 4)) :=
    eq_toLeBytes (by rw [List.length_take]; omega) rfl
  rw [hsplit, hfirst, hword 4 2 (by omega), hword 6 2 (by omega), hword 8 8 (by omega),
    hword 16 4 (by omega), hword 20 4 (by omega)]
  rw [← hmagic, ← hversion]
  rfl

/-- A frame is read exactly from its own bytes. -/
theorem readFrame_eq_ok {input rest : Bytes} {frame : Frame} (h : readFrame input = .ok (frame, rest)) :
    frame.Fits ∧ frame.tooLarge = false ∧ input = frame.encode ++ rest := by
  rw [readFrame_eq] at h
  by_cases hheader : input.length < 24
  · rw [if_pos hheader] at h
    cases h
  rw [if_neg hheader] at h
  by_cases hmagic : (headerWords input).magic ≠ magic ∨ (headerWords input).version ≠ version
  · rw [if_pos hmagic] at h
    cases h
  rw [if_neg hmagic] at h
  by_cases hlarge : maxJson < (headerWords input).jsonLength ∨ maxBinary < (headerWords input).binaryLength
  · rw [if_pos hlarge] at h
    cases h
  rw [if_neg hlarge] at h
  by_cases hshort :
      input.length < 24 + (headerWords input).jsonLength + (headerWords input).binaryLength
  · rw [if_pos hshort] at h
    cases h
  rw [if_neg hshort] at h
  obtain ⟨hframe, hrest⟩ := Prod.mk.inj (Except.ok.inj h)
  rw [not_or, not_not, not_not] at hmagic
  have hjson : ((input.drop 24).take (headerWords input).jsonLength).length = (headerWords input).jsonLength :=
    length_take_drop (by omega)
  have hbinary : (((input.drop 24).drop (headerWords input).jsonLength).take
      (headerWords input).binaryLength).length = (headerWords input).binaryLength := by
    rw [List.drop_drop]
    exact length_take_drop (by omega)
  have hwords := take_header (Nat.not_lt.1 hheader) hmagic.1 hmagic.2
  refine ⟨⟨?_, ?_⟩, ?_, ?_⟩
  · rw [← hframe]
    refine Nat.lt_of_lt_of_le (fromLeBytes_lt _) (Nat.pow_le_pow_right (by decide) ?_)
    exact Nat.le_of_eq (by rw [length_take_drop (by omega)])
  · rw [← hframe]
    refine Nat.lt_of_lt_of_le (fromLeBytes_lt _) (Nat.pow_le_pow_right (by decide) ?_)
    exact Nat.le_of_eq (by rw [length_take_drop (by omega)])
  · rw [← hframe]
    simp only [Frame.tooLarge, hjson, hbinary, Bool.or_eq_false_iff, decide_eq_false_iff_not]
    exact not_or.1 hlarge
  · have hheaderEq : frame.header = input.take 24 := by
      rw [hwords, ← hframe]
      simp only [Frame.header, hjson, hbinary]
    rw [Frame.encode, hheaderEq, List.append_assoc, List.append_assoc, ← hframe, ← hrest,
      List.take_append_drop, List.take_append_drop, List.take_append_drop]

theorem readFrame_eq_ok_iff {input rest : Bytes} {frame : Frame} :
    readFrame input = .ok (frame, rest) ↔
      frame.Fits ∧ frame.tooLarge = false ∧ input = frame.encode ++ rest := by
  constructor
  · exact readFrame_eq_ok
  · rintro ⟨hfits, hsize, rfl⟩
    exact readFrame_encode hfits hsize rest

/-! ## The reader of the helper -/

namespace Mtpc

/-- The loop of `read_little_endian` puts each byte at its place. -/
def assemble (bytes : Bytes) : ℕ :=
  bytes.zipIdx.foldl (fun value e => value ||| e.1.toNat <<< (8 * e.2)) 0

def readLittleEndian (width : ℕ) (input : Bytes) : Option (ℕ × Bytes) :=
  if width ≤ input.length then some (assemble (input.take width), input.drop width) else none

def readBytes (length : ℕ) (input : Bytes) : Option (Bytes × Bytes) :=
  if length = 0 then some ([], input)
  else if length ≤ input.length then some (input.take length, input.drop length)
  else none

/-- The words of a header after the first. -/
def readHeader (magicRead : ℕ) (input : Bytes) : Option (HeaderWords × Bytes) := do
  let (versionRead, input) ← readLittleEndian 2 input
  let (kind, input) ← readLittleEndian 2 input
  let (requestId, input) ← readLittleEndian 8 input
  let (jsonLength, input) ← readLittleEndian 4 input
  let (binaryLength, input) ← readLittleEndian 4 input
  some (⟨magicRead, versionRead, kind, requestId, jsonLength, binaryLength⟩, input)

/-- `read_frame` of the helper. An error is its text, and whether the input has ended. -/
def readFrame (input : Bytes) : Except (String × Bool) (Frame × Bytes) :=
  match readLittleEndian 4 input with
  | none => .error ("", true)
  | some (magicRead, input) =>
    match readHeader magicRead input with
    | none => .error ("truncated frame header", true)
    | some (words, input) =>
      if words.magic ≠ magic ∨ words.version ≠ version then
        .error ("unsupported frame magic or version", false)
      else if maxJson < words.jsonLength ∨ maxBinary < words.binaryLength then
        .error ("frame length exceeds protocol limit", false)
      else
        match readBytes words.jsonLength input with
        | none => .error ("truncated frame payload", true)
        | some (json, input) =>
          match readBytes words.binaryLength input with
          | none => .error ("truncated frame payload", true)
          | some (binary, input) => .ok (⟨words.kind, words.requestId, json, binary⟩, input)

theorem foldl_assemble (bytes : Bytes) (start value : ℕ) (hvalue : value < 2 ^ (8 * start)) :
    (bytes.zipIdx start).foldl (fun value e => value ||| e.1.toNat <<< (8 * e.2)) value =
      value + 2 ^ (8 * start) * fromLeBytes bytes := by
  induction bytes generalizing start value with
  | nil => simp [fromLeBytes]
  | cons byte rest ih =>
    have hplace : value ||| byte.toNat <<< (8 * start) = value + 2 ^ (8 * start) * byte.toNat := by
      rw [Nat.or_comm, ← Nat.shiftLeft_add_eq_or_of_lt hvalue, Nat.shiftLeft_eq, Nat.mul_comm, Nat.add_comm]
    have hpow : 2 ^ (8 * (start + 1)) = 2 ^ (8 * start) * 2 ^ 8 := by rw [Nat.mul_succ, Nat.pow_add]
    have hbyte : byte.toNat < 2 ^ 8 := byte.toNat_lt
    have hnext : value + 2 ^ (8 * start) * byte.toNat < 2 ^ (8 * (start + 1)) := by
      rw [hpow]
      have hle : 2 ^ (8 * start) * byte.toNat ≤ 2 ^ (8 * start) * (2 ^ 8 - 1) :=
        Nat.mul_le_mul_left _ (by omega)
      omega
    rw [List.zipIdx_cons, List.foldl_cons, hplace, ih (start + 1) _ hnext, fromLeBytes, hpow, Nat.mul_add,
      Nat.mul_assoc, Nat.add_assoc]

theorem assemble_eq (bytes : Bytes) : assemble bytes = fromLeBytes bytes := by
  rw [assemble, foldl_assemble bytes 0 0 (by decide)]
  simp

theorem readLittleEndian_drop {width start : ℕ} {input : Bytes} (h : start + width ≤ input.length) :
    readLittleEndian width (input.drop start) =
      some (fromLeBytes ((input.drop start).take width), input.drop (start + width)) := by
  have hle : width ≤ (input.drop start).length := by
    rw [List.length_drop]
    omega
  rw [readLittleEndian, if_pos hle, assemble_eq, List.drop_drop]

theorem readLittleEndian_short {width start : ℕ} {input : Bytes} (h : input.length < start + width)
    (hwidth : 0 < width) : readLittleEndian width (input.drop start) = none := by
  refine if_neg ?_
  rw [List.length_drop]
  omega

theorem readBytes_eq (length : ℕ) (input : Bytes) : readBytes length input =
    if length ≤ input.length then some (input.take length, input.drop length) else none := by
  unfold readBytes
  by_cases hzero : length = 0
  · rw [if_pos hzero, hzero, if_pos (Nat.zero_le _)]
    rfl
  · rw [if_neg hzero]

/-- The words are there exactly when the header is whole. -/
theorem readHeader_eq {input : Bytes} (h : 4 ≤ input.length) :
    readHeader (headerWords input).magic (input.drop 4) =
      if input.length < 24 then none else some (headerWords input, input.drop 24) := by
  unfold readHeader
  by_cases h6 : input.length < 6
  · rw [readLittleEndian_short h6 (by decide), if_pos (by omega)]
    rfl
  rw [readLittleEndian_drop (Nat.not_lt.1 h6)]
  simp only [Option.bind_eq_bind, Option.bind_some]
  by_cases h8 : input.length < 8
  · rw [readLittleEndian_short h8 (by decide), if_pos (by omega)]
    rfl
  rw [readLittleEndian_drop (Nat.not_lt.1 h8)]
  simp only [Option.bind_some]
  by_cases h16 : input.length < 16
  · rw [readLittleEndian_short h16 (by decide), if_pos (by omega)]
    rfl
  rw [readLittleEndian_drop (Nat.not_lt.1 h16)]
  simp only [Option.bind_some]
  by_cases h20 : input.length < 20
  · rw [readLittleEndian_short h20 (by decide), if_pos (by omega)]
    rfl
  rw [readLittleEndian_drop (Nat.not_lt.1 h20)]
  simp only [Option.bind_some]
  by_cases h24 : input.length < 24
  · rw [readLittleEndian_short h24 (by decide), if_pos h24]
    rfl
  rw [readLittleEndian_drop (Nat.not_lt.1 h24), if_neg h24]
  rfl

/-- What an error of one reader is to the other. -/
def SameError (error : String × Bool) (message : String) : Prop :=
  (error.2 = true ∧ message = unexpectedEnd) ∨
    (error = ("unsupported frame magic or version", false) ∧
      message = "preview helper returned an unsupported frame") ∨
    (error = ("frame length exceeds protocol limit", false) ∧
      message = "preview helper frame exceeds the size limit")

def SameRead : Except (String × Bool) (Frame × Bytes) → Except String (Frame × Bytes) → Prop
  | .ok read, .ok other => read = other
  | .error error, .error message => SameError error message
  | _, _ => False

/-- The two readers take the same frame from every input and leave the same rest, or both refuse it
for the same reason: it ends within a frame, it is of another protocol, or a payload is too long. -/
theorem readFrame_agrees (input : Bytes) : SameRead (readFrame input) (Preview.readFrame input) := by
  rw [readFrame_eq, readFrame]
  by_cases h4 : input.length < 4
  · have hshort : readLittleEndian 4 input = none := if_neg (Nat.not_le.2 h4)
    rw [hshort, if_pos (by omega)]
    exact Or.inl ⟨rfl, rfl⟩
  have hmagic : readLittleEndian 4 input = some ((headerWords input).magic, input.drop 4) := by
    rw [readLittleEndian, if_pos (Nat.not_lt.1 h4), assemble_eq]
    rfl
  rw [hmagic]
  simp only [readHeader_eq (Nat.not_lt.1 h4)]
  by_cases h24 : input.length < 24
  · rw [if_pos h24, if_pos h24]
    exact Or.inl ⟨rfl, rfl⟩
  rw [if_neg h24, if_neg h24]
  simp only
  by_cases hprotocol : (headerWords input).magic ≠ magic ∨ (headerWords input).version ≠ version
  · rw [if_pos hprotocol, if_pos hprotocol]
    exact Or.inr (Or.inl ⟨rfl, rfl⟩)
  rw [if_neg hprotocol, if_neg hprotocol]
  by_cases hlarge : maxJson < (headerWords input).jsonLength ∨ maxBinary < (headerWords input).binaryLength
  · rw [if_pos hlarge, if_pos hlarge]
    exact Or.inr (Or.inr ⟨rfl, rfl⟩)
  rw [if_neg hlarge, if_neg hlarge, readBytes_eq]
  have hdrop : (input.drop 24).length = input.length - 24 := List.length_drop
  by_cases hjson : (headerWords input).jsonLength ≤ (input.drop 24).length
  · rw [if_pos hjson]
    simp only [readBytes_eq]
    have hdrop' : ((input.drop 24).drop (headerWords input).jsonLength).length =
        input.length - 24 - (headerWords input).jsonLength := by rw [List.length_drop, hdrop]
    by_cases hbinary : (headerWords input).binaryLength ≤
        ((input.drop 24).drop (headerWords input).jsonLength).length
    · rw [if_pos hbinary, if_neg (by omega)]
      exact rfl
    · rw [if_neg hbinary, if_pos (by omega)]
      exact Or.inl ⟨rfl, rfl⟩
  · rw [if_neg hjson, if_pos (by omega)]
    exact Or.inl ⟨rfl, rfl⟩

end Mtpc

/-! ## Streams -/

theorem length_encode (frame : Frame) :
    frame.encode.length = 24 + frame.json.length + frame.binary.length := by
  rw [Frame.encode, List.length_append, List.length_append, length_header]
  omega

theorem length_rest_lt {input rest : Bytes} {frame : Frame} (h : readFrame input = .ok (frame, rest)) :
    rest.length < input.length := by
  obtain ⟨-, -, rfl⟩ := readFrame_eq_ok h
  rw [List.length_append, length_encode]
  omega

/-- The loop of the reader thread: the frames that it reads, and the error that ends it. -/
def readFrames (input : Bytes) : List Frame × String :=
  match _h : readFrame input with
  | .error error => ([], error)
  | .ok (frame, rest) =>
    let (frames, error) := readFrames rest
    (frame :: frames, error)
termination_by input.length
decreasing_by exact length_rest_lt _h

theorem readFrames_error {input : Bytes} {error : String} (h : readFrame input = .error error) :
    readFrames input = ([], error) := by
  rw [readFrames]
  split
  · rename_i other hother
    rw [h] at hother
    cases hother
    rfl
  · rename_i frame rest hother
    rw [h] at hother
    cases hother

theorem readFrames_ok {input rest : Bytes} {frame : Frame} (h : readFrame input = .ok (frame, rest)) :
    readFrames input = (frame :: (readFrames rest).1, (readFrames rest).2) := by
  rw [readFrames]
  split
  · rename_i other hother
    rw [h] at hother
    cases hother
  · rename_i other others hother
    rw [h] at hother
    cases hother
    rfl

/-- A frame of which the end is missing is not read. -/
theorem readFrame_cut {frame : Frame} (hfits : frame.Fits) (hsize : frame.tooLarge = false) {k : ℕ}
    (hcut : k < frame.encode.length) : readFrame (frame.encode.take k) = .error unexpectedEnd := by
  have hlength : (frame.encode.take k).length = k := by
    rw [List.length_take]
    omega
  rw [readFrame_eq, hlength]
  by_cases hheader : k < 24
  · rw [if_pos hheader]
  -- the header is whole, and says that more is to come
  have hwords : headerWords (frame.encode.take k) = headerWords frame.encode := by
    rw [← headerWords_take, List.take_take, Nat.min_eq_left (Nat.not_lt.1 hheader), headerWords_take]
  have hsizes : frame.json.length ≤ maxJson ∧ frame.binary.length ≤ maxBinary := by
    simpa [Frame.tooLarge] using hsize
  have hread := readFrame_encode hfits hsize []
  rw [List.append_nil, readFrame_eq] at hread
  have hlong : ¬frame.encode.length < 24 := by omega
  rw [if_neg hlong] at hread
  rw [if_neg hheader, hwords]
  by_cases hmagic : (headerWords frame.encode).magic ≠ magic ∨ (headerWords frame.encode).version ≠ version
  · rw [if_pos hmagic] at hread
    cases hread
  rw [if_neg hmagic] at hread
  rw [if_neg hmagic]
  by_cases hlarge : maxJson < (headerWords frame.encode).jsonLength ∨
      maxBinary < (headerWords frame.encode).binaryLength
  · rw [if_pos hlarge] at hread
    cases hread
  rw [if_neg hlarge] at hread
  rw [if_neg hlarge]
  obtain ⟨-, -, -, -, hjson, hbinary⟩ := words_of_header frame
  have hjsonLength : (headerWords frame.encode).jsonLength = frame.json.length := by
    rw [← headerWords_take, Frame.encode, List.take_left' (length_header frame)]
    change fromLeBytes ((frame.header.drop 16).take 4) = _
    rw [hjson]
    exact fromLeBytes_toLeBytes (Nat.lt_of_le_of_lt hsizes.1 (by decide))
  have hbinaryLength : (headerWords frame.encode).binaryLength = frame.binary.length := by
    rw [← headerWords_take, Frame.encode, List.take_left' (length_header frame)]
    change fromLeBytes ((frame.header.drop 20).take 4) = _
    rw [hbinary]
    exact fromLeBytes_toLeBytes (Nat.lt_of_le_of_lt hsizes.2 (by decide))
  rw [hjsonLength, hbinaryLength, if_pos]
  rw [length_encode] at hcut
  exact hcut

/-- The frames that lie wholly before a place of their stream. -/
def wholeBefore : ℕ → List Frame → List Frame
  | _, [] => []
  | k, frame :: rest =>
    if frame.encode.length ≤ k then frame :: wholeBefore (k - frame.encode.length) rest else []

/-- However a stream of frames is cut off, the reader returns the frames that are whole, in their
order and with their payloads, and ends as at the end of its input. -/
theorem readFrames_cut (frames : List Frame) (hwritable : ∀ f ∈ frames, f.Fits ∧ f.tooLarge = false)
    (k : ℕ) :
    readFrames ((frames.flatMap Frame.encode).take k) = (wholeBefore k frames, unexpectedEnd) := by
  induction frames generalizing k with
  | nil =>
    have hempty : readFrame [] = .error unexpectedEnd := rfl
    rw [List.flatMap_nil, List.take_nil, readFrames_error hempty]
    rfl
  | cons frame rest ih =>
    obtain ⟨hfits, hsize⟩ := hwritable frame List.mem_cons_self
    rw [List.flatMap_cons, wholeBefore]
    by_cases hwhole : frame.encode.length ≤ k
    · have hread := readFrame_encode hfits hsize ((rest.flatMap Frame.encode).take (k - frame.encode.length))
      rw [if_pos hwhole, List.take_append, List.take_of_length_le hwhole, readFrames_ok hread,
        ih (fun f hf => hwritable f (List.mem_cons_of_mem _ hf))]
    · have hcut : k < frame.encode.length := Nat.not_le.1 hwhole
      rw [if_neg hwhole, List.take_append_of_le_length (Nat.le_of_lt hcut),
        readFrames_error (readFrame_cut hfits hsize hcut)]

theorem readFrames_cut_after_one :
    readFrames ((((⟨MessageKind.hello, 1, [], []⟩ : Frame).encode) ++
      ((⟨MessageKind.renderPreview, 2, [1, 2, 3], []⟩ : Frame).encode ++ [])).take 50) =
      ([⟨MessageKind.hello, 1, [], []⟩], unexpectedEnd) :=
  readFrames_cut [⟨MessageKind.hello, 1, [], []⟩, ⟨MessageKind.renderPreview, 2, [1, 2, 3], []⟩]
    (by
      intro f hf
      rcases List.mem_cons.1 hf with rfl | hf
      · exact ⟨⟨by decide, by decide⟩, rfl⟩
      · rw [List.mem_singleton.1 hf]
        exact ⟨⟨by decide, by decide⟩, rfl⟩) 50

end MacTypeControl.Preview
