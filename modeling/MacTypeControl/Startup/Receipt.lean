import MacTypeControl.Crash.Logic
import MacTypeControl.Startup.Artifacts
import Mathlib.Algebra.GroupWithZero.Nat

/-!
# Disabling and restoring startup entries

A disable records the entries it is going to remove in a durable receipt of its scope
before it removes the first; a restore puts back what the receipt records. Each step can be
stopped or fail; a question whether a file or folder exists is answered.
-/

namespace MacTypeControl.Startup

open Crash Crash.Prog

inductive StartupRestorationState where
  | pending
  | restored
  | manualRequired
  deriving DecidableEq

structure LegacyTrayStartupReceipt where
  schema : String
  version : ℕ
  scope : StartupReceiptScope
  userSid : String
  entries : List LegacyTrayStartupArtifact
  recordedAt : ℕ
  restorationState : StartupRestorationState
  deriving DecidableEq

def startupReceiptSchema : String := "mactype-control-center/legacy-tray-startup"

def startupReceiptVersion : ℕ := 1

def maxStartupReceiptEntries : ℕ := 64

def maxStartupArtifactBytes : ℕ := 1024 * 1024

def maxReceiptBytes : ℕ := 256 * 1024

/-! ## Receipts -/

def sourceBelongsToScope (source : LegacyTrayStartupSource) : StartupReceiptScope → Bool
  | .currentUser =>
    source == .currentUserRun32 || source == .currentUserRun64 || source == .currentUserStartup
  | .localMachine => source == .localMachineRun32 || source == .localMachineRun64

def locatorMatchesSource (artifact : LegacyTrayStartupArtifact) : Bool :=
  match registrySource artifact.entry.sourceKind, artifact.locator with
  | some (hive, view), .registry hive' view' subkey valueName valueType =>
    hive' == hive && view' == view && subkey == runSubkey &&
      valueName == artifact.entry.displayName && (valueType == regSz || valueType == regExpandSz)
  | none, .file _ stem extension => isLink extension && stem == artifact.entry.displayName
  | _, _ => false

variable (env : StartupEnvironment)

def isExactMactrayTarget (path : String) : Bool := sameWindowsPath env.expectedPath path

def isReceiptable (scope : StartupReceiptScope) (userSid : String)
    (artifact : LegacyTrayStartupArtifact) : Bool :=
  artifact.userSid == userSid && artifact.recordedAt != 0 && artifact.rawBytes != [] &&
    artifact.rawBytes.length ≤ maxStartupArtifactBytes &&
    sourceBelongsToScope artifact.entry.sourceKind scope &&
    isExactMactrayTarget env artifact.entry.targetPath &&
    isExactMactrayTarget env artifact.normalizedTargetPath && locatorMatchesSource artifact

def checkEntries (scope : StartupReceiptScope) (userSid : String)
    (previous : List LegacyTrayStartupArtifact) :
    List LegacyTrayStartupArtifact → Except String Unit
  | [] => .ok ()
  | artifact :: artifacts => do
    require (isReceiptable env scope userSid artifact)
      "legacy tray startup receipt contains an unowned artifact"
    require (previous.all fun other => other.locator != artifact.locator)
      "legacy tray startup receipt contains a duplicate locator"
    checkEntries scope userSid (previous ++ [artifact]) artifacts

def buildStartupReceipt (scope : StartupReceiptScope) (userSid : String)
    (entries : List LegacyTrayStartupArtifact) (recordedAt : ℕ) :
    Except String LegacyTrayStartupReceipt := do
  require (userSid != "" && recordedAt != 0 && entries != [] &&
      entries.length ≤ maxStartupReceiptEntries)
    "legacy tray startup receipt metadata is invalid"
  checkEntries env scope userSid [] entries
  .ok ⟨startupReceiptSchema, startupReceiptVersion, scope, userSid, entries, recordedAt, .pending⟩

def validateStartupReceipt (receipt : LegacyTrayStartupReceipt) : Except String Unit := do
  require (receipt.schema == startupReceiptSchema && receipt.version == startupReceiptVersion &&
      !(receipt.restorationState == .manualRequired && receipt.entries == []))
    "legacy tray startup receipt header is invalid"
  let rebuilt ← buildStartupReceipt env receipt.scope receipt.userSid receipt.entries
    receipt.recordedAt
  require (rebuilt == { receipt with restorationState := .pending })
    "legacy tray startup receipt failed exact validation"

/-- Two descriptions of one artifact, whenever they were taken. -/
def sameArtifact (scope : StartupReceiptScope) (candidate expected : LegacyTrayStartupArtifact) :
    Bool :=
  candidate.entry == expected.entry && candidate.locator == expected.locator &&
    candidate.rawBytes == expected.rawBytes &&
    candidate.normalizedTargetPath == expected.normalizedTargetPath &&
    (scope == .localMachine || candidate.userSid == expected.userSid)

def sameArtifactSnapshot (scope : StartupReceiptScope) (left right : List LegacyTrayStartupArtifact) :
    Bool :=
  left.length == right.length &&
    left.all fun candidate => (right.filter (sameArtifact scope candidate)).length == 1

def selectStartupReceiptForDisable (existing : Option LegacyTrayStartupReceipt)
    (proposed : LegacyTrayStartupReceipt) : Except String LegacyTrayStartupReceipt :=
  match existing with
  | none => .ok proposed
  | some existing =>
    if existing.scope ≠ proposed.scope then
      .error "the existing startup receipt belongs to another scope"
    else match existing.restorationState with
      | .restored => .ok proposed
      | .manualRequired => .error
          "the existing startup receipt requires manual restoration before another disable"
      | .pending =>
        if sameArtifactSnapshot existing.scope existing.entries proposed.entries then .ok existing
        else .error "a different pending startup receipt would be overwritten"

/-! ## The machine -/

/-- The machine of one scope. `outstanding` is what the program has removed and what has
not been back since; nothing reads it. -/
structure StartupMachine where
  store : StartupStore
  receipt : Option LegacyTrayStartupReceipt
  clock : ℕ
  outstanding : List (Place × StoredValue)

/-- What is back at its place is no longer outstanding. -/
def StartupMachine.settle (machine : StartupMachine) : StartupMachine :=
  { machine with outstanding := machine.outstanding.filter fun removed =>
      machine.store.value removed.1 != some removed.2 }

abbrev Handling := Prog StartupMachine String

/-- The length of a stored receipt: of its head in its state, and of each entry. -/
structure ReceiptLength where
  head : StartupReceiptScope → String → ℕ → StartupRestorationState → ℕ
  entry : LegacyTrayStartupArtifact → ℕ

def ReceiptLength.total (length : ReceiptLength) (receipt : LegacyTrayStartupReceipt) : ℕ :=
  length.head receipt.scope receipt.userSid receipt.recordedAt receipt.restorationState +
    (receipt.entries.map length.entry).sum

variable (length : ReceiptLength) (scope : StartupReceiptScope)

def observeOwnedTrayStartup : Handling (List LegacyTrayStartupArtifact) :=
  inspect "legacy MacTray startup inspection failed" fun s => observeOwned env scope s.clock s.store

/-- Replaces the receipt as a whole and reads it back. -/
def persistVerifiedReceipt (receipt : LegacyTrayStartupReceipt) : Handling Unit := do
  ofExcept (validateStartupReceipt env receipt)
  ensure (length.total receipt ≤ maxReceiptBytes) "legacy migration receipt exceeded its size limit"
  act "the startup receipt could not be written" fun s => .ok { s with receipt := some receipt }
  inspect "the startup receipt could not be read back" fun s => do
    require (s.receipt == some receipt) "legacy tray startup receipt did not round-trip exactly"

def checkStoredReceipt (receipt : LegacyTrayStartupReceipt) :
    Except String (Option LegacyTrayStartupReceipt) := do
  validateStartupReceipt env receipt
  require (receipt.scope == scope) "legacy tray startup receipt scope does not match its store"
  .ok (some receipt)

/-- The receipt, if there is one. The question before it, whether the storage folder is there, is
taken to be answered (`is_dir` answers no where the query fails): a fault here is one of the read. -/
def readReceiptIfPresent : Handling (Option LegacyTrayStartupReceipt) :=
  inspect "the startup receipt could not be read" fun s =>
    match s.receipt with
    | none => .ok none
    | some receipt => checkStoredReceipt env scope receipt

/-! ## Restoring -/

def currentBytes (artifact : LegacyTrayStartupArtifact) : Handling (Option Bytes) :=
  inspect "the startup artifact could not be read" fun s => readArtifactBytes env s.store artifact

/-- Puts the artifact back if nothing is in its place, and reads it back. -/
def restoreOriginal (artifact : LegacyTrayStartupArtifact) : Handling Unit := do
  act "the original startup bytes could not be restored" fun s =>
    (restoreArtifactIfAbsent env s.store artifact).map fun store => { s with store }.settle
  inspect "the restored startup artifact could not be read" fun s => do
    require (s.store.value artifact.place == some artifact.value)
      "the restored startup artifact does not match the receipt"

def markRestoration (receipt : LegacyTrayStartupReceipt) (state : StartupRestorationState) :
    Handling Unit :=
  persistVerifiedReceipt env length { receipt with restorationState := state }

/-- Marks the receipt as needing a hand and reports the error. -/
def giveUp {α : Type} (receipt : LegacyTrayStartupReceipt) (e : String) : Handling α := do
  markRestoration env length receipt .manualRequired
  .throw e

/-- Plans all entries before the first is restored. -/
def planRestore (receipt : LegacyTrayStartupReceipt) :
    List LegacyTrayStartupArtifact → Handling (List StartupRestoreAction)
  | [] => .ret []
  | artifact :: artifacts => do
    let current ← currentBytes env artifact
    match planStartupRestore artifact.rawBytes current with
    | .ok action => do
      let actions ← planRestore receipt artifacts
      .ret (action :: actions)
    | .error e => giveUp env length receipt e

def restoreEntries (receipt : LegacyTrayStartupReceipt) :
    List (LegacyTrayStartupArtifact × StartupRestoreAction) → Handling Unit
  | [] => .ret ()
  | (artifact, action) :: entries => do
    whenever (action = .restore)
      ((restoreOriginal env artifact).handle (giveUp env length receipt))
    restoreEntries receipt entries

def restoreStartupWith (receipt : LegacyTrayStartupReceipt) : Handling Unit := do
  let actions ← planRestore env length receipt receipt.entries
  restoreEntries env length receipt (receipt.entries.zip actions)
  markRestoration env length receipt .restored

def restoreStartupScope : Handling Unit := do
  match ← readReceiptIfPresent env scope with
  | none => .ret ()
  | some receipt =>
    match receipt.restorationState with
    | .restored => .ret ()
    | .manualRequired =>
      .throw "legacy MacTray startup restoration requires manual intervention"
    | .pending => restoreStartupWith env length receipt

/-! ## Disabling -/

def restoreAfterDisableFailure (failure : String) : Handling Unit := do
  match ← (restoreStartupScope env length scope).attempt with
  | .ok _ => .throw (failure ++ "; the original startup state was restored")
  | .error e => .throw (failure ++ "; startup restore also failed: " ++ e)

def removeTrayStartupArtifactExact (artifact : LegacyTrayStartupArtifact) : Handling Unit :=
  act "the verified startup artifact could not be removed" fun s =>
    (removeArtifactExact env s.store artifact).map fun store =>
      { s with store, outstanding := (artifact.place, artifact.value) :: s.outstanding }

def removeEntries : List LegacyTrayStartupArtifact → Handling Unit
  | [] => .ret ()
  | artifact :: artifacts => do
    removeTrayStartupArtifactExact env artifact
    removeEntries artifacts

def verifyRemoval : Handling Unit := do
  match ← (observeOwnedTrayStartup env scope).attempt with
  | .ok remaining =>
    if remaining = [] then .ret ()
    else restoreAfterDisableFailure env length scope "legacy MacTray startup remains after removal"
  | .error e => restoreAfterDisableFailure env length scope e

def removeRecorded (receipt : LegacyTrayStartupReceipt) : Handling Unit := do
  let current ← observeOwnedTrayStartup env scope
  if !sameArtifactSnapshot scope current receipt.entries then
    restoreAfterDisableFailure env length scope "legacy MacTray startup changed before removal"
  else do
    (removeEntries env receipt.entries).handle (restoreAfterDisableFailure env length scope)
    verifyRemoval env length scope

def disableEntries (entries : List LegacyTrayStartupArtifact) (userSid : String) :
    Handling Unit := do
  let recordedAt ← observe StartupMachine.clock
  let proposed ← ofExcept (buildStartupReceipt env scope userSid entries recordedAt)
  let existing ← readReceiptIfPresent env scope
  let receipt ← ofExcept (selectStartupReceiptForDisable existing proposed)
  persistVerifiedReceipt env length receipt
  removeRecorded env length scope receipt

def disableStartupScope : Handling Unit := do
  let entries ← observeOwnedTrayStartup env scope
  match entries with
  | [] => .ret ()
  | first :: _ => disableEntries env length scope entries first.userSid

end MacTypeControl.Startup
