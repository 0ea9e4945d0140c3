import MacTypeControl.Events.Sanitize
import MacTypeControl.Json.Strings
import MacTypeControl.Words.LittleEndian
import Mathlib.Tactic

/-!
# The result frame of the broker

The elevated broker reports the end of an action in one frame: a header with a nonce and the digest
of the payload, and the payload, which is a JSON object of texts. Each text is bounded before it is
escaped, and the payload after it.
-/

namespace MacTypeControl.Broker

open Events Json Text Words

/-! ## Failures of actions -/

inductive AppInitConflictContext where
  | machineIntegrationChange
  | machineIntegrationChanges
  | serviceChange
  deriving DecidableEq

inductive LegacyTrayBlockContext where
  | machineIntegrationChange
  | serviceChange
  deriving DecidableEq

inductive LegacyServiceBlockContext where
  | applyProfile
  | startNewService
  deriving DecidableEq

inductive InstallationPreflightKind where
  | required
  | incomplete
  | untrusted
  deriving DecidableEq

inductive ActionBlocker where
  | administratorApprovalCancelled
  | appInitConflict (context : AppInitConflictContext)
  | appInitRegistryModeConflict
  | legacyTrayModeBlocks (context : LegacyTrayBlockContext)
  | legacyServiceStillInstalled (context : LegacyServiceBlockContext)
  | fixedServiceNameForeignOrInaccessible
  | installationPreflight (kind : InstallationPreflightKind)
  deriving DecidableEq

def ActionBlocker.stageCode : ActionBlocker → List Char
  | .administratorApprovalCancelled => "blocker/administrator-approval-cancelled".toList
  | .appInitConflict .machineIntegrationChange => "blocker/appinit-machine-integration-change".toList
  | .appInitConflict .machineIntegrationChanges =>
    "blocker/appinit-machine-integration-changes".toList
  | .appInitConflict .serviceChange => "blocker/appinit-service-change".toList
  | .appInitRegistryModeConflict => "blocker/appinit-registry-mode-conflict".toList
  | .legacyTrayModeBlocks .machineIntegrationChange =>
    "blocker/legacy-tray-machine-integration-change".toList
  | .legacyTrayModeBlocks .serviceChange => "blocker/legacy-tray-service-change".toList
  | .legacyServiceStillInstalled .applyProfile => "blocker/legacy-service-apply-profile".toList
  | .legacyServiceStillInstalled .startNewService =>
    "blocker/legacy-service-start-new-service".toList
  | .fixedServiceNameForeignOrInaccessible =>
    "blocker/fixed-service-name-foreign-or-inaccessible".toList
  | .installationPreflight .required => "blocker/installation-required".toList
  | .installationPreflight .incomplete => "blocker/installation-incomplete".toList
  | .installationPreflight .untrusted => "blocker/installation-untrusted".toList

inductive RollbackOutcome where
  | failed
  | completed
  | failClosedLegacyStopped
  | notApplicable
  | notApplicableOrUnavailable
  deriving DecidableEq

namespace RollbackOutcome

def asStr : RollbackOutcome → List Char
  | .failed => "failed".toList
  | .completed => "completed".toList
  | .failClosedLegacyStopped => "fail-closed-legacy-stopped".toList
  | .notApplicable => "not-applicable".toList
  | .notApplicableOrUnavailable => "not-applicable-or-unavailable".toList

def fromWire (value : List Char) : Option RollbackOutcome :=
  if value = "failed".toList then some .failed
  else if value = "completed".toList then some .completed
  else if value = "fail-closed-legacy-stopped".toList then some .failClosedLegacyStopped
  else if value = "not-applicable".toList then some .notApplicable
  else if value = "not-applicable-or-unavailable".toList then some .notApplicableOrUnavailable
  else none

theorem fromWire_asStr (rollback : RollbackOutcome) : fromWire rollback.asStr = some rollback := by
  cases rollback <;> decide

end RollbackOutcome

inductive ActionFailureKind where
  | blocked (blocker : ActionBlocker)
  | internal
  deriving DecidableEq

structure ActionFailure where
  kind : ActionFailureKind
  stage : Option (List Char)
  detail : List Char
  rollback : RollbackOutcome
  deriving DecidableEq

/-! ## Messages -/

inductive BrokerResultDisposition where
  | success
  | blocked
  | failure
  deriving DecidableEq

namespace BrokerResultDisposition

def name : BrokerResultDisposition → List Char
  | .success => "success".toList
  | .blocked => "blocked".toList
  | .failure => "failure".toList

def ofName (value : List Char) : Option BrokerResultDisposition :=
  [success, blocked, failure].find? fun disposition => disposition.name = value

end BrokerResultDisposition

structure BrokerResultMessage where
  operation : List Char
  disposition : BrokerResultDisposition
  stage : List Char
  errorChain : List Char
  rollback : List Char
  finalState : List Char
  deriving DecidableEq

def maxBrokerResultBytes : ℕ := 32 * 1024

def brokerResultHeaderBytes : ℕ := 4 + 2 + 2 + 4 + 16 + 32

def maxOperationBytes : ℕ := 64

def maxStageBytes : ℕ := 256

def maxErrorChainBytes : ℕ := 24 * 1024

/-- Cuts a text that is too long at a character boundary. -/
def boundedText (value : List Char) (maximumBytes : ℕ) : List Char :=
  if utf8Length value ≤ maximumBytes then value
  else startWithin (maximumBytes - utf8Length truncatedSuffix) value ++ truncatedSuffix

namespace ActionFailure

def disposition (failure : ActionFailure) : BrokerResultDisposition :=
  match failure.kind with
  | .blocked _ => .blocked
  | .internal => .failure

/-- The stage that is reported for a failure of the operation. -/
def reportedStage (failure : ActionFailure) (operation : List Char) : List Char :=
  match failure.kind with
  | .blocked blocker => blocker.stageCode
  | .internal => failure.stage.getD operation

end ActionFailure

namespace BrokerResultMessage

def fromFailure (operation : List Char) (failure : ActionFailure) : BrokerResultMessage where
  operation := boundedText operation maxOperationBytes
  disposition := failure.disposition
  stage := boundedText (failure.reportedStage operation) maxStageBytes
  errorChain := boundedText failure.detail maxErrorChainBytes
  rollback := failure.rollback.asStr
  finalState := []

def members (message : BrokerResultMessage) : List TextMember :=
  [("operation".toList, message.operation), ("disposition".toList, message.disposition.name),
    ("stage".toList, message.stage), ("errorChain".toList, message.errorChain),
    ("rollback".toList, message.rollback), ("finalState".toList, message.finalState)]

def fieldNames : List (List Char) :=
  ["operation".toList, "disposition".toList, "stage".toList, "errorChain".toList,
    "rollback".toList, "finalState".toList]

/-- The message of members in any order, of which none is unknown, missing or repeated. -/
def ofMembers (members : List TextMember) : Option BrokerResultMessage := do
  if (members.map Prod.fst).isPerm fieldNames then
    let field (name : String) : Option (List Char) := members.lookup name.toList
    some {
      operation := ← field "operation"
      disposition := ← (field "disposition").bind BrokerResultDisposition.ofName
      stage := ← field "stage"
      errorChain := ← field "errorChain"
      rollback := ← field "rollback"
      finalState := ← field "finalState" }
  else none

/-- `serde_json::to_vec`. -/
def toVec (message : BrokerResultMessage) : List UInt8 :=
  encodeUtf8 (printTextObject message.members)

/-- `serde_json::from_slice` for an object of texts. It would also take the members as an array. -/
def fromSlice (payload : List UInt8) : Option BrokerResultMessage := do
  let text ← fromUtf8 payload
  let members ← readTextObject text
  ofMembers members

theorem ofMembers_members (message : BrokerResultMessage) :
    ofMembers message.members = some message := by
  have hnames : (message.members.map Prod.fst).isPerm fieldNames = true := by
    show fieldNames.isPerm fieldNames = true
    decide
  have hdisposition : BrokerResultDisposition.ofName message.disposition.name =
      some message.disposition := by
    cases message.disposition <;> decide
  unfold ofMembers
  rw [if_pos hnames]
  have hoperation : message.members.lookup "operation".toList = some message.operation := rfl
  have hname : message.members.lookup "disposition".toList = some message.disposition.name := rfl
  have hstage : message.members.lookup "stage".toList = some message.stage := rfl
  have herror : message.members.lookup "errorChain".toList = some message.errorChain := rfl
  have hrollback : message.members.lookup "rollback".toList = some message.rollback := rfl
  have hfinal : message.members.lookup "finalState".toList = some message.finalState := rfl
  simp only [hoperation, hname, hstage, herror, hrollback, hfinal, Option.bind_some, hdisposition]
  rfl

/-- A message is read as it was written. -/
theorem fromSlice_toVec (message : BrokerResultMessage) : fromSlice message.toVec = some message := by
  have hobject : readTextObject (printTextObject message.members) = some message.members :=
    readTextObject_printTextObject (List.cons_ne_nil _ _)
  unfold fromSlice toVec
  rw [fromUtf8_encodeUtf8]
  simp only [Option.bind_eq_bind, Option.bind_some, hobject, ofMembers_members]

end BrokerResultMessage

/-! ## Digests -/

/-- `sha256_digest`, with the hash function as a parameter. -/
def sha256Digest (sha256 : List UInt8 → Vector UInt8 32) (bytes : List UInt8) : List Char :=
  "sha256:".toList ++ (sha256 bytes).toList.flatMap fun byte =>
    [hexDigit (byte.toNat / 16), hexDigit (byte.toNat % 16)]

def bytesOfHex : List Char → Option (List UInt8)
  | high :: low :: rest => do
    let byte ← readHex [high, low]
    let bytes ← bytesOfHex rest
    some (byte.toUInt8 :: bytes)
  | [] => some []
  | [_] => none

def invalidDigest : String := "broker result digest is invalid"

/-- `digest_bytes`: the bytes of the digest, from its text. -/
def digestBytes (sha256 : List UInt8 → Vector UInt8 32) (bytes : List UInt8) :
    Except String (List UInt8) :=
  let digest := sha256Digest sha256 bytes
  if "sha256:".toList.isPrefixOf digest then
    let hex := digest.drop 7
    if hex.length = 64 then
      match bytesOfHex hex with
      | some bytes => .ok bytes
      | none => .error invalidDigest
    else .error invalidDigest
  else .error invalidDigest

theorem readHex_byte (byte : UInt8) :
    readHex [hexDigit (byte.toNat / 16), hexDigit (byte.toNat % 16)] = some byte.toNat := by
  have hall : (List.range 256).all (fun n =>
      readHex [hexDigit (n / 16), hexDigit (n % 16)] == some n) = true := by decide +kernel
  simpa using List.all_eq_true.1 hall byte.toNat (List.mem_range.2 byte.toNat_lt)

theorem bytesOfHex_hex (bytes : List UInt8) :
    bytesOfHex (bytes.flatMap fun byte =>
      [hexDigit (byte.toNat / 16), hexDigit (byte.toNat % 16)]) = some bytes := by
  induction bytes with
  | nil => rfl
  | cons byte bytes ih =>
    rw [List.flatMap_cons, List.cons_append, List.cons_append, List.nil_append, bytesOfHex,
      readHex_byte, ih]
    simp

theorem digestBytes_eq (sha256 : List UInt8 → Vector UInt8 32) (bytes : List UInt8) :
    digestBytes sha256 bytes = .ok (sha256 bytes).toList := by
  have hprefixed : "sha256:".toList.isPrefixOf (sha256Digest sha256 bytes) = true := by
    rw [List.isPrefixOf_iff_prefix]
    exact List.prefix_append _ _
  have hhex : (sha256Digest sha256 bytes).drop 7 = (sha256 bytes).toList.flatMap fun byte =>
      [hexDigit (byte.toNat / 16), hexDigit (byte.toNat % 16)] := rfl
  have hlength : ((sha256 bytes).toList.flatMap fun byte =>
      [hexDigit (byte.toNat / 16), hexDigit (byte.toNat % 16)]).length = 64 := by
    simp [List.length_flatMap]
  unfold digestBytes
  dsimp only
  rw [if_pos hprefixed, hhex, if_pos hlength, bytesOfHex_hex]

/-! ## Frames -/

def brokerResultMagic : List UInt8 := [0x4D, 0x54, 0x42, 0x52]

def brokerResultVersion : ℕ := 1

section

variable (sha256 : List UInt8 → Vector UInt8 32)

def encodeBrokerResultFrame (message : BrokerResultMessage) (nonce : Vector UInt8 16) :
    Except String (List UInt8) :=
  let payload := message.toVec
  if payload.isEmpty || decide (maxBrokerResultBytes < payload.length) then
    .error "broker result exceeds the fixed size limit"
  else do
    let digest ← digestBytes sha256 payload
    .ok (brokerResultMagic ++ (toLeBytes 2 brokerResultVersion ++ (toLeBytes 2 0 ++
      (toLeBytes 4 payload.length ++ (nonce.toList ++ (digest ++ payload))))))

def decodeBrokerResultFrame (frame : List UInt8) (expectedNonce : Vector UInt8 16) :
    Except String BrokerResultMessage :=
  if frame.length < brokerResultHeaderBytes ∨ frame.take 4 ≠ brokerResultMagic ∨
      fromLeBytes ((frame.drop 4).take 2) ≠ brokerResultVersion ∨
      fromLeBytes ((frame.drop 6).take 2) ≠ 0 ∨
      (frame.drop 12).take 16 ≠ expectedNonce.toList then
    .error "broker result frame header is invalid"
  else
    let payloadLen := fromLeBytes ((frame.drop 8).take 4)
    if payloadLen = 0 ∨ maxBrokerResultBytes < payloadLen ∨
        frame.length ≠ brokerResultHeaderBytes + payloadLen then
      .error "broker result frame length is invalid"
    else do
      let payload := frame.drop brokerResultHeaderBytes
      let digest ← digestBytes sha256 payload
      if (frame.drop 28).take 32 ≠ digest then
        .error "broker result frame digest does not match"
      else
        match BrokerResultMessage.fromSlice payload with
        | some message => .ok message
        | none => .error "broker result payload is invalid"

end

end MacTypeControl.Broker
