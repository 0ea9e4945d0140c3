import MacTypeControl.Broker.TransferFrame

/-!
# Which failures the broker can report

A failure is reported whole exactly where its bounded texts, once they are escaped, still fit the
payload of a frame.
-/

namespace MacTypeControl.Broker

open Events Json Text Transfer

/-- The texts of the result take few enough bytes once they are escaped. The names of the members
and the punctuation take 90 bytes. -/
def FitsFrame (operation : List Char) (failure : ActionFailure) : Prop :=
  escapedSize (boundedText operation maxOperationBytes) + escapedSize failure.disposition.name +
    escapedSize (boundedText (failure.reportedStage operation) maxStageBytes) +
    escapedSize (boundedText failure.detail maxErrorChainBytes) +
    escapedSize failure.rollback.asStr + 90 ≤ maxBrokerResultBytes

/-- The frame of the result can be encoded, and it is decoded to what it was made from. -/
def Reported (sha256 : List UInt8 → Vector UInt8 32) (operation : List Char)
    (failure : ActionFailure) (nonce : Vector UInt8 16) : Prop :=
  ∃ frame message,
    encodeBrokerResultFrame sha256 (.fromFailure operation failure) nonce = .ok frame ∧
    decodeBrokerResultFrame sha256 frame nonce = .ok message ∧
    message.operation = boundedText operation maxOperationBytes ∧
    message.disposition = failure.disposition ∧
    message.stage = boundedText (failure.reportedStage operation) maxStageBytes ∧
    message.errorChain = boundedText failure.detail maxErrorChainBytes ∧
    RollbackOutcome.fromWire message.rollback = some failure.rollback

/-! ## Sizes -/

theorem length_toVec (message : BrokerResultMessage) :
    message.toVec.length = escapedSize message.operation + escapedSize message.disposition.name +
      escapedSize message.stage + escapedSize message.errorChain + escapedSize message.rollback +
      escapedSize message.finalState + 90 := by
  have hnames : (BrokerResultMessage.fieldNames.map escapedSize) = [9, 11, 5, 10, 8, 10] := by
    rfl
  simp only [BrokerResultMessage.fieldNames, List.map_cons, List.map_nil, List.cons.injEq] at hnames
  obtain ⟨h₁, h₂, h₃, h₄, h₅, h₆, -⟩ := hnames
  have hmembers : message.members ≠ [] := List.cons_ne_nil _ _
  unfold BrokerResultMessage.toVec
  rw [length_printTextObject hmembers]
  simp only [BrokerResultMessage.members, List.map_cons, List.map_nil, List.sum_cons, List.sum_nil,
    h₁, h₂, h₃, h₄, h₅, h₆]
  omega

theorem length_toVec_fromFailure (operation : List Char) (failure : ActionFailure) :
    (BrokerResultMessage.fromFailure operation failure).toVec.length ≤ maxBrokerResultBytes ↔
      FitsFrame operation failure := by
  have hfinal : escapedSize [] = 0 := rfl
  rw [length_toVec]
  unfold FitsFrame BrokerResultMessage.fromFailure
  dsimp only
  omega

/-! ## Frames -/

/-- A message has a frame exactly where its payload is not too long. -/
theorem encodeBrokerResultFrame_eq_ok (sha256 : List UInt8 → Vector UInt8 32)
    (message : BrokerResultMessage) (nonce : Vector UInt8 16) :
    (∃ frame, encodeBrokerResultFrame sha256 message nonce = .ok frame) ↔
      message.toVec.length ≤ maxBrokerResultBytes := by
  have hpositive : message.toVec ≠ [] := by
    rw [← List.length_pos_iff, length_toVec]
    omega
  simp only [encodeBrokerResultFrame_eq, encode_eq_ok, hpositive, ne_eq, not_false_eq_true,
    true_and, exists_and_left, exists_eq, and_true]
  rfl

/-- What was encoded is decoded again. -/
theorem decode_of_encode (sha256 : List UInt8 → Vector UInt8 32) {message : BrokerResultMessage}
    {nonce : Vector UInt8 16} {frame : List UInt8}
    (hencode : encodeBrokerResultFrame sha256 message nonce = .ok frame) :
    decodeBrokerResultFrame sha256 frame nonce = .ok message := by
  rw [encodeBrokerResultFrame_eq, ← decode_iff_encode] at hencode
  rw [decodeBrokerResultFrame_eq, hencode, Except.bind, messageOf, message.fromSlice_toVec]

/-- The broker reports a failure whole exactly where its texts fit the frame once escaped. -/
theorem reported_iff_fitsFrame (sha256 : List UInt8 → Vector UInt8 32) (operation : List Char)
    (failure : ActionFailure) (nonce : Vector UInt8 16) :
    Reported sha256 operation failure nonce ↔ FitsFrame operation failure := by
  rw [← length_toVec_fromFailure, ← encodeBrokerResultFrame_eq_ok sha256 _ nonce]
  constructor
  · rintro ⟨frame, message, hencode, -⟩
    exact ⟨frame, hencode⟩
  · rintro ⟨frame, hencode⟩
    exact ⟨frame, _, hencode, decode_of_encode sha256 hencode, rfl, rfl, rfl, rfl,
      RollbackOutcome.fromWire_asStr _⟩

/-! ## A failure that cannot be reported -/

/-- The detail of a failure that quotes a long text. -/
def quotingFailure : ActionFailure where
  kind := .internal
  stage := some "publish-profile".toList
  detail := List.replicate 20000 quote
  rollback := .completed

/-- The detail is short enough to be kept whole, and twice as long once it is escaped. -/
theorem quoting_failure_not_reported :
    ¬∀ (sha256 : List UInt8 → Vector UInt8 32) (operation : List Char) (failure : ActionFailure)
      (nonce : Vector UInt8 16), Reported sha256 operation failure nonce := by
  intro h
  obtain ⟨frame, message, hencode, -⟩ := h (fun _ => Vector.replicate 32 0)
    "publish-profile".toList quotingFailure (Vector.replicate 16 0)
  have hone : quote.utf8Size = 1 := by decide
  have hcost : quote.utf8Size + escapeCost quote = 2 := by decide
  have hkept : boundedText quotingFailure.detail maxErrorChainBytes = quotingFailure.detail := by
    unfold boundedText quotingFailure
    rw [if_pos]
    rw [utf8Length, List.map_replicate, hone, List.sum_replicate]
    decide
  have hescaped : escapedSize quotingFailure.detail = 40000 := by
    unfold escapedSize quotingFailure
    rw [List.map_replicate, hcost, List.sum_replicate]
    rfl
  have hlong : maxBrokerResultBytes <
      (BrokerResultMessage.fromFailure "publish-profile".toList quotingFailure).toVec.length := by
    rw [length_toVec]
    unfold BrokerResultMessage.fromFailure
    dsimp only
    rw [hkept, hescaped]
    unfold maxBrokerResultBytes
    omega
  exact absurd ((encodeBrokerResultFrame_eq_ok _ _ _).1 ⟨frame, hencode⟩) (Nat.not_le_of_lt hlong)

end MacTypeControl.Broker
