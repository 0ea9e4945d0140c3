import MacTypeControl.Broker.ResultFrame
import MacTypeControl.Profile.Validation

/-!
# The frames between the control center and the broker

A profile goes to the broker and a result comes back, each in one frame: a header with a nonce and
the digest of the payload, and the payload. The two formats differ in their magic, in their limit
and in the texts of their failures.
-/

namespace MacTypeControl.Broker.Transfer

open Words

/-! ## Formats -/

structure Format where
  magic : Vector UInt8 4
  version : ℕ
  version_lt : version < 2 ^ 16
  maximum : ℕ
  maximum_lt : maximum < 2 ^ 32
  oversized : String
  invalidHeader : String
  invalidLength : String
  wrongDigest : String
  invalidDigest : String

def headerBytes : ℕ := 4 + 2 + 2 + 4 + 16 + 32

namespace Format

variable (sha256 : List UInt8 → Vector UInt8 32) (format : Format)

/-- The digest of a payload, as bytes. -/
def digest (payload : List UInt8) : Except String (List UInt8) :=
  (digestBytes sha256 payload).mapError fun _ => format.invalidDigest

/-- The parts of a frame in their order. -/
def layout (nonce digest payload : List UInt8) : List UInt8 :=
  format.magic.toList ++ (toLeBytes 2 format.version ++ (toLeBytes 2 0 ++
    (toLeBytes 4 payload.length ++ (nonce ++ (digest ++ payload)))))

def encode (payload : List UInt8) (nonce : Vector UInt8 16) : Except String (List UInt8) :=
  if payload.isEmpty || decide (format.maximum < payload.length) then .error format.oversized
  else do
    let digest ← format.digest sha256 payload
    .ok (format.layout nonce.toList digest payload)

/-- The start of a frame is that of the format. -/
def Starts (frame : List UInt8) : Prop :=
  frame.take 4 = format.magic.toList ∧ fromLeBytes ((frame.drop 4).take 2) = format.version ∧
    fromLeBytes ((frame.drop 6).take 2) = 0

instance (frame : List UInt8) : Decidable (format.Starts frame) :=
  inferInstanceAs (Decidable (_ ∧ _ ∧ _))

def payloadLength (frame : List UInt8) : ℕ := fromLeBytes ((frame.drop 8).take 4)

def decode (frame : List UInt8) (expectedNonce : Vector UInt8 16) :
    Except String (List UInt8) :=
  if frame.length < headerBytes ∨ ¬format.Starts frame ∨
      (frame.drop 12).take 16 ≠ expectedNonce.toList then
    .error format.invalidHeader
  else
    let payloadLen := payloadLength frame
    if payloadLen = 0 ∨ format.maximum < payloadLen ∨ frame.length ≠ headerBytes + payloadLen then
      .error format.invalidLength
    else do
      let payload := frame.drop headerBytes
      let digest ← format.digest sha256 payload
      if (frame.drop 28).take 32 ≠ digest then .error format.wrongDigest else .ok payload

end Format

open Format

/-! ## The profile -/

def profileTransfer : Format where
  magic := #v[0x4D, 0x54, 0x50, 0x54]
  version := 1
  version_lt := by decide
  maximum := Profile.maxProfileBytes
  maximum_lt := by decide
  oversized := "profile transfer payload size is outside the allowed range"
  invalidHeader := "profile transfer frame header is invalid"
  invalidLength := "profile transfer frame length is invalid"
  wrongDigest := "profile transfer frame digest does not match"
  invalidDigest := "profile transfer digest is invalid"

def encodeProfileTransferFrame (sha256 : List UInt8 → Vector UInt8 32) (profile : List UInt8)
    (nonce : Vector UInt8 16) : Except String (List UInt8) :=
  profileTransfer.encode sha256 profile nonce

def decodeProfileTransferFrame (sha256 : List UInt8 → Vector UInt8 32) (frame : List UInt8)
    (expectedNonce : Vector UInt8 16) : Except String (List UInt8) :=
  profileTransfer.decode sha256 frame expectedNonce

/-! ## The result -/

def brokerResult : Format where
  magic := #v[0x4D, 0x54, 0x42, 0x52]
  version := brokerResultVersion
  version_lt := by decide
  maximum := maxBrokerResultBytes
  maximum_lt := by decide
  oversized := "broker result exceeds the fixed size limit"
  invalidHeader := "broker result frame header is invalid"
  invalidLength := "broker result frame length is invalid"
  wrongDigest := "broker result frame digest does not match"
  invalidDigest := Broker.invalidDigest

/-- The message of a payload, once its frame is taken off. -/
def messageOf (payload : List UInt8) : Except String BrokerResultMessage :=
  match BrokerResultMessage.fromSlice payload with
  | some message => .ok message
  | none => .error "broker result payload is invalid"

/-! ## Layout -/

section

variable (sha256 : List UInt8 → Vector UInt8 32) {format : Format}

theorem digest_eq (payload : List UInt8) :
    format.digest sha256 payload = .ok (sha256 payload).toList := by
  unfold Format.digest
  rw [digestBytes_eq]
  rfl

theorem take_block {block rest : List UInt8} {n : ℕ} (h : block.length = n) :
    (block ++ rest).take n = block :=
  List.take_left' h

theorem drop_block {block rest : List UInt8} {n : ℕ} (h : block.length = n) (more : ℕ) :
    (block ++ rest).drop (n + more) = rest.drop more := by
  rw [← List.drop_drop, List.drop_left' h]

/-- The parts of a frame are found at their places. -/
theorem parts_of_layout {nonce digest : List UInt8} (hnonce : nonce.length = 16)
    (hdigest : digest.length = 32) (payload : List UInt8) :
    let frame := format.layout nonce digest payload
    frame.length = headerBytes + payload.length ∧
    frame.take 4 = format.magic.toList ∧
    (frame.drop 4).take 2 = toLeBytes 2 format.version ∧
    (frame.drop 6).take 2 = toLeBytes 2 0 ∧
    (frame.drop 8).take 4 = toLeBytes 4 payload.length ∧
    (frame.drop 12).take 16 = nonce ∧
    (frame.drop 28).take 32 = digest ∧
    frame.drop headerBytes = payload := by
  have hmagic : format.magic.toList.length = 4 := Vector.length_toList
  intro frame
  have h4 : frame.drop 4 = _ := drop_block hmagic 0
  have h6 : frame.drop 6 = _ := drop_block hmagic 2
  have h8 : frame.drop 8 = _ := drop_block hmagic 4
  have h12 : frame.drop 12 = _ := drop_block hmagic 8
  have h28 : frame.drop 28 = _ := drop_block hmagic 24
  have h60 : frame.drop headerBytes = _ := drop_block hmagic 56
  refine ⟨?_, take_block hmagic, ?_, ?_, ?_, ?_, ?_, ?_⟩
  · simp only [frame, Format.layout, List.length_append, length_toLeBytes, hmagic, hnonce, hdigest,
      headerBytes]
    omega
  · rw [h4, List.drop_zero, take_toLeBytes]
  · rw [h6, drop_toLeBytes 2 _ 0, List.drop_zero, take_toLeBytes]
  · rw [h8, drop_toLeBytes 2 _ 2, drop_toLeBytes 2 _ 0, List.drop_zero, take_toLeBytes]
  · rw [h12, drop_toLeBytes 2 _ 6, drop_toLeBytes 2 _ 4, drop_toLeBytes 4 _ 0, List.drop_zero,
      take_block hnonce]
  · rw [h28, drop_toLeBytes 2 _ 22, drop_toLeBytes 2 _ 20, drop_toLeBytes 4 _ 16,
      drop_block hnonce 0, List.drop_zero, take_block hdigest]
  · rw [h60, drop_toLeBytes 2 _ 54, drop_toLeBytes 2 _ 52, drop_toLeBytes 4 _ 48,
      drop_block hnonce 32, drop_block hdigest 0, List.drop_zero]

theorem take_append_drop_more (bytes : List UInt8) (start width : ℕ) :
    (bytes.drop start).take width ++ bytes.drop (start + width) = bytes.drop start := by
  rw [← List.drop_drop, List.take_append_drop]

theorem length_part {bytes : List UInt8} {start width : ℕ} (h : start + width ≤ bytes.length) :
    ((bytes.drop start).take width).length = width := by
  rw [List.length_take, List.length_drop]
  omega

/-- Bytes are their parts at the places of a frame. -/
theorem parts_append (frame : List UInt8) :
    frame.take 4 ++ ((frame.drop 4).take 2 ++ ((frame.drop 6).take 2 ++ ((frame.drop 8).take 4 ++
      ((frame.drop 12).take 16 ++ ((frame.drop 28).take 32 ++ frame.drop headerBytes))))) =
      frame := by
  have h28 : (frame.drop 28).take 32 ++ frame.drop headerBytes = frame.drop 28 :=
    take_append_drop_more frame 28 32
  have h12 : (frame.drop 12).take 16 ++ frame.drop 28 = frame.drop 12 :=
    take_append_drop_more frame 12 16
  have h8 : (frame.drop 8).take 4 ++ frame.drop 12 = frame.drop 8 := take_append_drop_more frame 8 4
  have h6 : (frame.drop 6).take 2 ++ frame.drop 8 = frame.drop 6 := take_append_drop_more frame 6 2
  have h4 : (frame.drop 4).take 2 ++ frame.drop 6 = frame.drop 4 := take_append_drop_more frame 4 2
  rw [h28, h12, h8, h6, h4, List.take_append_drop]

/-! ## Codecs -/

variable {payload frame : List UInt8} {nonce : Vector UInt8 16}

theorem encode_eq_ok : format.encode sha256 payload nonce = .ok frame ↔
    (payload ≠ [] ∧ payload.length ≤ format.maximum) ∧
      frame = format.layout nonce.toList (sha256 payload).toList payload := by
  unfold Format.encode
  rw [digest_eq]
  by_cases hlimits : payload ≠ [] ∧ payload.length ≤ format.maximum
  · have hfits : (payload.isEmpty || decide (format.maximum < payload.length)) = false := by
      simp [hlimits.1, hlimits.2]
    simp only [hfits, Bool.false_eq_true, if_false, bind, Except.bind, Except.ok.injEq, hlimits,
      ne_eq, not_false_eq_true, and_self, true_and]
    exact eq_comm
  · have hrefused : (payload.isEmpty || decide (format.maximum < payload.length)) = true := by
      rw [Bool.or_eq_true, List.isEmpty_iff, decide_eq_true_iff]
      by_contra hboth
      rw [not_or, not_lt] at hboth
      exact hlimits hboth
    simp only [hrefused, if_true, reduceCtorEq, hlimits, false_and]

/-- What a decoded frame is made of. -/
theorem decode_eq_ok : format.decode sha256 frame nonce = .ok payload ↔
    (frame.length = headerBytes + payload.length ∧ format.Starts frame ∧
      (frame.drop 12).take 16 = nonce.toList ∧ payloadLength frame = payload.length) ∧
    (payload ≠ [] ∧ payload.length ≤ format.maximum) ∧
    (frame.drop 28).take 32 = (sha256 payload).toList ∧ frame.drop headerBytes = payload := by
  constructor
  · intro h
    simp only [Format.decode, digest_eq, bind, Except.bind] at h
    split_ifs at h with hheader hlength hdigest
    obtain rfl := Except.ok.inj h
    simp only [not_or, not_lt, not_not] at hheader hlength hdigest
    obtain ⟨-, hstarts, hnonce⟩ := hheader
    obtain ⟨hsome, hmaximum, hlength⟩ := hlength
    have hpayload : (frame.drop headerBytes).length = payloadLength frame := by
      rw [List.length_drop]
      omega
    refine ⟨⟨by omega, hstarts, hnonce, hpayload.symm⟩, ⟨?_, by omega⟩, hdigest, rfl⟩
    intro hnil
    rw [hnil, List.length_nil] at hpayload
    exact hsome hpayload.symm
  · rintro ⟨⟨hlength, hstarts, hnonce, hcount⟩, ⟨hsome, hmaximum⟩, hdigest, hpayload⟩
    have hpositive : 0 < payload.length := List.length_pos_iff.2 hsome
    simp only [Format.decode, digest_eq, bind, Except.bind]
    rw [if_neg (by rw [not_or, not_or, not_not, not_not]; exact ⟨by omega, hstarts, hnonce⟩),
      if_neg (by omega), hpayload, if_neg (not_not.2 hdigest)]

/-- Decoding accepts exactly what encoding writes. -/
theorem decode_iff_encode : format.decode sha256 frame nonce = .ok payload ↔
    format.encode sha256 payload nonce = .ok frame := by
  have hnonce : nonce.toList.length = 16 := Vector.length_toList
  have hdigest : (sha256 payload).toList.length = 32 := Vector.length_toList
  rw [decode_eq_ok, encode_eq_ok]
  constructor
  · rintro ⟨⟨hlength, ⟨hmagic, hversion, hreserved⟩, hread, hcount⟩, hlimits, hdigests, hpayload⟩
    have hlong : 60 ≤ frame.length := hlength ▸ Nat.le_add_right 60 _
    have hversionBytes : (frame.drop 4).take 2 = toLeBytes 2 format.version :=
      eq_toLeBytes (length_part (by omega)) hversion
    have hreservedBytes : (frame.drop 6).take 2 = toLeBytes 2 0 :=
      eq_toLeBytes (length_part (by omega)) hreserved
    have hcountBytes : (frame.drop 8).take 4 = toLeBytes 4 payload.length :=
      eq_toLeBytes (length_part (by omega)) hcount
    refine ⟨hlimits, ?_⟩
    rw [← parts_append frame, hmagic, hversionBytes, hreservedBytes, hcountBytes, hread, hdigests,
      hpayload]
    rfl
  · rintro ⟨hlimits, rfl⟩
    obtain ⟨hlength, hmagic, hversion, hreserved, hcount, hread, hdigests, hpayload⟩ :=
      @parts_of_layout format _ _ hnonce hdigest payload
    have hcountRead : fromLeBytes (toLeBytes 4 payload.length) = payload.length :=
      fromLeBytes_toLeBytes (lt_of_le_of_lt hlimits.2 format.maximum_lt)
    refine ⟨⟨hlength, ⟨hmagic, ?_, ?_⟩, hread, ?_⟩, hlimits, hdigests, hpayload⟩
    · rw [hversion, fromLeBytes_toLeBytes format.version_lt]
    · rw [hreserved, fromLeBytes_toLeBytes (by decide)]
    · rw [payloadLength, hcount, hcountRead]

/-! ## The frame of the result -/

theorem encodeBrokerResultFrame_eq (message : BrokerResultMessage) :
    encodeBrokerResultFrame sha256 message nonce =
      brokerResult.encode sha256 message.toVec nonce := by
  simp only [encodeBrokerResultFrame, Format.encode, digestBytes_eq, digest_eq]
  rfl

/-- The result is decoded by taking off the frame and reading the message. -/
theorem decodeBrokerResultFrame_eq : decodeBrokerResultFrame sha256 frame nonce =
    (brokerResult.decode sha256 frame nonce).bind messageOf := by
  have hheader : (frame.length < brokerResultHeaderBytes ∨ frame.take 4 ≠ brokerResultMagic ∨
      fromLeBytes ((frame.drop 4).take 2) ≠ brokerResultVersion ∨
      fromLeBytes ((frame.drop 6).take 2) ≠ 0 ∨ (frame.drop 12).take 16 ≠ nonce.toList) ↔
      (frame.length < headerBytes ∨ ¬brokerResult.Starts frame ∨
        (frame.drop 12).take 16 ≠ nonce.toList) := by
    show _ ↔ (frame.length < brokerResultHeaderBytes ∨ ¬(frame.take 4 = brokerResultMagic ∧
      fromLeBytes ((frame.drop 4).take 2) = brokerResultVersion ∧
      fromLeBytes ((frame.drop 6).take 2) = 0) ∨ _)
    rw [not_and_or, not_and_or, or_assoc, or_assoc]
  have hlength : (fromLeBytes ((frame.drop 8).take 4) = 0 ∨
      maxBrokerResultBytes < fromLeBytes ((frame.drop 8).take 4) ∨
      frame.length ≠ brokerResultHeaderBytes + fromLeBytes ((frame.drop 8).take 4)) ↔
      (payloadLength frame = 0 ∨ brokerResult.maximum < payloadLength frame ∨
        frame.length ≠ headerBytes + payloadLength frame) := Iff.rfl
  have hpayload : frame.drop brokerResultHeaderBytes = frame.drop headerBytes := rfl
  simp only [decodeBrokerResultFrame, Format.decode, digestBytes_eq, digest_eq, hheader, hlength,
    hpayload, bind, Except.bind]
  split_ifs with hrefused hrange hdigest
  · rfl
  · rfl
  · rfl
  · rfl

end

end MacTypeControl.Broker.Transfer
