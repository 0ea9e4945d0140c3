import MacTypeControl.Installer.Generation

/-!
# Replacing a generation in place

A repair puts a new payload in place of a generation directory. The payload is written beside
it, a journal is written, and the two directories are exchanged; what an interrupted exchange
has left is recovered from the journal.
-/

namespace MacTypeControl.Storage

/-- An entry that a generation directory may have. -/
inductive RuntimeEntry where
  | file (file : RuntimeFile)
  | profile
  deriving DecidableEq

def runtimeEntries : List RuntimeEntry := immutableRuntimeFiles.map .file ++ [.profile]

theorem mem_runtimeEntries (entry : RuntimeEntry) : entry ∈ runtimeEntries := by
  rcases entry with file | _
  · cases file <;> decide
  · decide

namespace RuntimeDirectory

def empty : RuntimeDirectory := ⟨fun _ => none, none, [], []⟩

def content (directory : RuntimeDirectory) : RuntimeEntry → Option Bytes
  | .file file => directory.files file
  | .profile => directory.profile

def put (directory : RuntimeDirectory) (file : RuntimeFile) (bytes : Bytes) :
    RuntimeDirectory :=
  { directory with files := Function.update directory.files file (some bytes) }

def erase (directory : RuntimeDirectory) : RuntimeEntry → RuntimeDirectory
  | .file file => { directory with files := Function.update directory.files file none }
  | .profile => { directory with profile := none }

end RuntimeDirectory
end MacTypeControl.Storage

namespace MacTypeControl.Installer

open Crash Crash.Prog Profile Storage

/-- The digests of the entries of a directory. The names and the form of the digests are those
that a receipt may have. -/
structure RuntimeDirectoryReceipt where
  files : RuntimeEntry → Option Digest

theorem RuntimeDirectoryReceipt.ext_files {a b : RuntimeDirectoryReceipt}
    (h : ∀ entry, a.files entry = b.files entry) : a = b := by
  obtain ⟨files⟩ := a
  obtain ⟨files'⟩ := b
  congr
  exact funext h

instance : DecidableEq RuntimeDirectoryReceipt := fun a b =>
  decidable_of_iff (∀ entry ∈ runtimeEntries, a.files entry = b.files entry)
    ⟨fun h => RuntimeDirectoryReceipt.ext_files fun entry => h entry (mem_runtimeEntries entry),
      fun h _ _ => h ▸ rfl⟩

inductive RuntimeRepairPhase where
  | prepared
  | oldMoved
  | newPlacedUnverified
  | newVerified
  deriving DecidableEq

structure RuntimeRepairJournal where
  schema : ℕ
  version : String
  staging : String
  backup : String
  phase : RuntimeRepairPhase
  oldReceipt : RuntimeDirectoryReceipt
  newReceipt : RuntimeDirectoryReceipt

/-- The generation directories by their names, the journal, and what the system was asked to
delete at the next start. -/
structure RepairStorage where
  runtimeVersions : String → Option RuntimeDirectory
  repairJournal : Option (StoredFile RuntimeRepairJournal)
  deferredDeletions : List (String × Option RuntimeEntry)

/-- A payload that agrees with its manifest. -/
structure LoadedPayload where
  version : RuntimeVersion
  files : RuntimeFile → Bytes
  bounded : ∀ file, files file ≠ [] ∧ (files file).length ≤ maxRuntimeFileBytes

/-- The system lists the entries of a directory in an order of its own. -/
structure RepairEnvironment extends StorageEnvironment where
  listing : RuntimeDirectory → List RuntimeEntry
  mem_listing : ∀ directory entry,
    entry ∈ listing directory ↔ (directory.content entry).isSome = true
  nodup_listing : ∀ directory, (listing directory).Nodup
  nonce_length : temporaryNonce.toList.length ≤ 100

theorem mem_presentEntries (directory : RuntimeDirectory) (entry : RuntimeEntry) :
    (entry ∈ runtimeEntries.filter fun entry => (directory.content entry).isSome) ↔
      (directory.content entry).isSome = true := by
  simp [mem_runtimeEntries]

theorem nodup_presentEntries (directory : RuntimeDirectory) :
    (runtimeEntries.filter fun entry => (directory.content entry).isSome).Nodup :=
  (show runtimeEntries.Nodup by decide).sublist List.filter_sublist

theorem firstNonce_length : "1-1".toList.length ≤ 100 := by
  decide

abbrev Repair := Prog RepairStorage SetupError

/-! ## Reading a directory -/

def entryLimit : RuntimeEntry → ℕ
  | .file _ => maxRuntimeFileBytes
  | .profile => maxProfileBytes

/-- The entry is a file of a size that a generation can have. -/
def boundedEntry (directory : RuntimeDirectory) (entry : RuntimeEntry) : Bool :=
  (directory.content entry).all fun bytes => bytes != [] && bytes.length ≤ entryLimit entry

variable (env : RepairEnvironment)

def receiptOf (directory : RuntimeDirectory) : RuntimeDirectoryReceipt where
  files entry := (directory.content entry).map env.sha256Digest

/-- The receipt has an entry. Everything else it may not have is excluded by its type. -/
def validRuntimeDirectoryReceipt (receipt : RuntimeDirectoryReceipt) : Bool :=
  runtimeEntries.any fun entry => (receipt.files entry).isSome

def readBoundedDirectory (directory : RuntimeDirectory) (description : String) :
    Except SetupError (List RuntimeEntry) := do
  require (directory.entryCount ≤ immutableRuntimeFiles.length + 1)
    (.runtime s!"{description} exceeds the fixed limit")
  .ok (env.listing directory)

def readRuntimeDirectoryReceipt :
    Option RuntimeDirectory → Except SetupError RuntimeDirectoryReceipt
  | none => .error .io
  | some directory => do
    let entries ← readBoundedDirectory env directory "runtime repair receipt entry count"
    require (directory.temporaries == [] && directory.foreign == [])
      (.cleanupUnknown "runtime receipt found an unexpected entry")
    require (entries.all (boundedEntry directory))
      (.runtime "runtime receipt entry is not a bounded regular file")
    require (validRuntimeDirectoryReceipt (receiptOf env directory))
      (.cleanupUnknown "runtime directory does not have a valid bounded receipt")
    .ok (receiptOf env directory)

def verifyRuntimeDirectoryReceipt (directory : Option RuntimeDirectory)
    (expected : RuntimeDirectoryReceipt) : Except SetupError Unit :=
  match readRuntimeDirectoryReceipt env directory with
  | .error error => .error (.cleanupUnknown
      ("runtime directory receipt could not be verified: " ++ error.text))
  | .ok actual => require (actual = expected)
      (.cleanupUnknown "runtime directory no longer matches its transaction receipt")

def runtimeDirectoryMatches (directory : Option RuntimeDirectory)
    (expected : RuntimeDirectoryReceipt) : Except SetupError Bool := do
  let actual ← readRuntimeDirectoryReceipt env directory
  .ok (actual = expected)

/-- The entries of a directory that is to be deleted. -/
def repairEntries : Option RuntimeDirectory → Except SetupError (List RuntimeEntry)
  | none => .error .io
  | some directory => do
    let entries ← readBoundedDirectory env directory "runtime repair removal entry count"
    require (directory.temporaries == [] && directory.foreign == [])
      (.runtime "runtime repair found an unexpected entry")
    require (entries.all fun entry =>
        (directory.content entry).all fun bytes => bytes.length ≤ entryLimit entry)
      (.runtime "runtime repair found a non-regular or oversized entry")
    .ok entries

/-- The entries of a backup. It may have lost some of those its receipt names. -/
def verifiedBackupEntries (expected : RuntimeDirectoryReceipt) :
    Option RuntimeDirectory → Except SetupError (List RuntimeEntry)
  | none => .error .io
  | some directory => do
    let entries ← readBoundedDirectory env directory
      "verified runtime repair backup entry count"
    require (directory.temporaries == [] && directory.foreign == [] &&
        entries.all fun entry => (expected.files entry).isSome)
      (.cleanupUnknown "verified runtime repair backup contains an unexpected entry")
    require (entries.all (boundedEntry directory))
      (.runtime "verified runtime repair backup entry is not a bounded regular file")
    require (entries.all fun entry => (receiptOf env directory).files entry == expected.files entry)
      (.cleanupUnknown "verified runtime repair backup entry no longer matches its receipt")
    .ok entries

def verifyPayloadFile (payload : LoadedPayload) (directory : RuntimeDirectory)
    (file : RuntimeFile) : Except SetupError Unit :=
  match directory.files file with
  | none => .ok ()
  | some bytes => do
    let bytes ← readBoundedRegularFile bytes maxRuntimeFileBytes "installed runtime file"
    require (bytes == payload.files file)
      (.runtime "installed runtime hash verification failed")

def verifyExistingPayload (payload : LoadedPayload) :
    Option RuntimeDirectory → Except SetupError Unit
  | none => .error .io
  | some directory => do
    require (directory.entryCount ≤ immutableRuntimeFiles.length + 1)
      (.runtime "installed runtime entry count exceeds the fixed limit")
    require (immutableRuntimeFiles.length ≤ directory.entryCount)
      (.runtime "installed runtime contains an unexpected file set")
    require (directory.temporaries == [] && directory.foreign == [])
      (.runtime "runtime contains an unsigned file")
    require (directory.profile.all fun bytes => bytes != [] && bytes.length ≤ maxProfileBytes)
      (.runtime "generated runtime profile is not a bounded regular file")
    immutableRuntimeFiles.forM (verifyPayloadFile payload directory)
    require (directory.runtimeFileCount == immutableRuntimeFiles.length)
      (.runtime "installed runtime is missing a manifest file")

/-! ## Changing a directory -/

def RepairStorage.exists (m : RepairStorage) (name : String) : Bool :=
  (m.runtimeVersions name).isSome

def RepairStorage.set (m : RepairStorage) (name : String) (directory : Option RuntimeDirectory) :
    RepairStorage :=
  { m with runtimeVersions := Function.update m.runtimeVersions name directory }

def RepairStorage.setJournal (m : RepairStorage)
    (journal : Option (StoredFile RuntimeRepairJournal)) : RepairStorage :=
  { m with repairJournal := journal }

def createProtectedDirectory (name : String) : Repair Unit :=
  act .io fun m => .ok (m.set name (some ((m.runtimeVersions name).getD .empty)))

/-- A new file in the directory. -/
def createdFile (name : String) (file : RuntimeFile) (m : RepairStorage) (bytes : Bytes) :
    Except SetupError RepairStorage :=
  match m.runtimeVersions name with
  | none => .error .io
  | some directory => do
    require (directory.files file).isNone .io
    .ok (m.set name (some (directory.put file bytes)))

/-- Creates the file and writes it. A write that is caught leaves it as far as it has come. -/
def writeSynced (name : String) (file : RuntimeFile) (bytes : Bytes) : Repair Unit :=
  step .io
    (fun m => (env.caughtWrites bytes).filterMap fun content =>
      (createdFile name file m content).toOption)
    fun m => (createdFile name file m bytes).map fun t => ((), t)

def renamed (source target : String) (m : RepairStorage) :
    Except SetupError (Unit × RepairStorage) :=
  match m.runtimeVersions source with
  | none => .error .io
  | some directory => do
    require (!m.exists target) .io
    .ok ((), (m.set source none).set target (some directory))

def renameDirectory (source target : String) : Repair Unit := atomic .io (renamed source target)

def removeEntry (name : String) (entry : RuntimeEntry) : Repair Unit :=
  atomic .io fun m => match m.runtimeVersions name with
    | none => .error .io
    | some directory => do
      require (directory.content entry).isSome .io
      .ok ((), m.set name (some (directory.erase entry)))

def removeDirectory (name : String) : Repair Unit :=
  atomic .io fun m => match m.runtimeVersions name with
    | none => .error .io
    | some directory => do
      require (directory.entryCount == 0) .io
      .ok ((), m.set name none)

def eachEntry (action : RuntimeEntry → Repair Unit) : List RuntimeEntry → Repair Unit
  | [] => ret ()
  | entry :: rest => do
    action entry
    eachEntry action rest

def removeRepairDirectory (name : String) : Repair Unit := do
  let entries ← inspect .io fun m => repairEntries env (m.runtimeVersions name)
  eachEntry (removeEntry name) entries
  removeDirectory name

def removeReceiptedRuntimeDirectory (name : String) (expected : RuntimeDirectoryReceipt) :
    Repair Unit := do
  inspect .io fun m => verifyRuntimeDirectoryReceipt env (m.runtimeVersions name) expected
  removeRepairDirectory env name

def deferDeleteAfterReboot (name : String) (entry : Option RuntimeEntry) : Repair Unit :=
  modify .io fun m => { m with deferredDeletions := (name, entry) :: m.deferredDeletions }

/-- Where the removal fails, the system deletes the file at its next start. -/
def removeOrDeferAfterReboot (name : String) (entry : Option RuntimeEntry) : Repair Unit :=
  (match entry with
    | none => removeDirectory name
    | some entry => removeEntry name entry).handle fun removal =>
    (deferDeleteAfterReboot name entry).mapError fun deferral => .cleanupUnknown
      ("verified runtime repair cleanup failed (" ++ removal.text ++
        ") and could not be deferred until reboot (" ++ deferral.text ++ ")")

def removeVerifiedBackupDirectory (name : String) (expected : RuntimeDirectoryReceipt) :
    Repair Unit := do
  let entries ← inspect .io fun m => verifiedBackupEntries env expected (m.runtimeVersions name)
  eachEntry (fun entry => removeOrDeferAfterReboot name (some entry)) entries
  removeOrDeferAfterReboot name none

/-! ## The journal -/

def runtimeRepairSchema : ℕ := 2

def isRepairNameCharacter (c : Char) : Bool :=
  Protection.isAsciiAlphanumeric c || c == '.' || c == '-' || c == '+'

def safeRepairEntry (value start version : String) : Bool :=
  let expected := start ++ version ++ "-"
  expected.toList.isPrefixOf value.toList && expected.toList.length < value.toList.length &&
    value.toList.length ≤ 192 && value.toList.all isRepairNameCharacter

def validRepairJournal (journal : RuntimeRepairJournal) : Bool :=
  journal.schema == runtimeRepairSchema && validRuntimeVersionComponent journal.version &&
    safeRepairEntry journal.staging ".repair-new-" journal.version &&
    safeRepairEntry journal.backup ".repair-old-" journal.version &&
    journal.staging != journal.backup &&
    validRuntimeDirectoryReceipt journal.oldReceipt &&
    validRuntimeDirectoryReceipt journal.newReceipt

def readRepairJournal (file : StoredFile RuntimeRepairJournal) :
    Except SetupError RuntimeRepairJournal :=
  match file.parse with
  | none => .error (.runtime "runtime repair journal is invalid")
  | some journal => do
    require (validRepairJournal journal)
      (.runtime "runtime repair journal has an unsupported value")
    .ok journal

def writeRepairJournal (journal : RuntimeRepairJournal) : Repair Unit :=
  modify .io fun m => m.setJournal (some (.written journal))

def removeRepairJournal : Repair Unit :=
  modify .io fun m => m.setJournal none

/-! ## Recovering an interrupted repair -/

/-- Deletes the staging directory, if there is one and it is what the receipt says. -/
def removeStagingIfPresent (staging : String) (newReceipt : RuntimeDirectoryReceipt) :
    Repair Unit := do
  let present ← observe fun m => m.exists staging
  whenever (present = true) (removeReceiptedRuntimeDirectory env staging newReceipt)

def recoverPreparedRepair (journal : RuntimeRepairJournal) : Repair Unit := do
  let moved ← observe fun m => m.exists journal.backup
  whenever (moved = true) do
    inspect .io fun m =>
      verifyRuntimeDirectoryReceipt env (m.runtimeVersions journal.backup) journal.oldReceipt
    let present ← observe fun m => m.exists journal.version
    ensure (!present) (.cleanupUnknown "prepared repair has both destination and backup")
    renameDirectory journal.backup journal.version
  inspect .io fun m =>
    verifyRuntimeDirectoryReceipt env (m.runtimeVersions journal.version) journal.oldReceipt
  removeStagingIfPresent env journal.staging journal.newReceipt

/-- The old directory was moved away and the new one is not in its place. -/
def recoverMissingDestination (journal : RuntimeRepairJournal) : Repair Unit := do
  inspect .io fun m =>
    verifyRuntimeDirectoryReceipt env (m.runtimeVersions journal.backup) journal.oldReceipt
  renameDirectory journal.backup journal.version
  inspect .io fun m =>
    verifyRuntimeDirectoryReceipt env (m.runtimeVersions journal.version) journal.oldReceipt
  removeStagingIfPresent env journal.staging journal.newReceipt

def recoverOldDestination (journal : RuntimeRepairJournal) : Repair Unit := do
  let moved ← observe fun m => m.exists journal.backup
  ensure (!moved) (.cleanupUnknown "unverified repair has duplicate old destination and backup")
  removeStagingIfPresent env journal.staging journal.newReceipt

/-- The new directory is in place. It is taken out of the way of the old one. -/
def recoverNewDestination (journal : RuntimeRepairJournal) : Repair Unit := do
  let isNew ← inspect .io fun m =>
    runtimeDirectoryMatches env (m.runtimeVersions journal.version) journal.newReceipt
  ensure isNew (.cleanupUnknown
    "unverified repair destination matches neither old nor new receipt")
  let safe ← observe fun m => m.exists journal.backup && !m.exists journal.staging
  ensure safe (.cleanupUnknown "unverified repair cannot safely restore its verified backup")
  inspect .io fun m =>
    verifyRuntimeDirectoryReceipt env (m.runtimeVersions journal.backup) journal.oldReceipt
  renameDirectory journal.version journal.staging
  inspect .io fun m =>
    verifyRuntimeDirectoryReceipt env (m.runtimeVersions journal.staging) journal.newReceipt
  (renameDirectory journal.backup journal.version).mapError fun error => .cleanupUnknown
    ("verified repair backup could not be restored after quarantining new payload: " ++
      error.text)
  inspect .io fun m =>
    verifyRuntimeDirectoryReceipt env (m.runtimeVersions journal.version) journal.oldReceipt
  removeReceiptedRuntimeDirectory env journal.staging journal.newReceipt

def recoverPresentDestination (journal : RuntimeRepairJournal) : Repair Unit := do
  let isOld ← inspect .io fun m =>
    runtimeDirectoryMatches env (m.runtimeVersions journal.version) journal.oldReceipt
  if isOld = true then recoverOldDestination env journal
  else recoverNewDestination env journal

def recoverUnverifiedRepair (journal : RuntimeRepairJournal) : Repair Unit := do
  let present ← observe fun m => m.exists journal.version
  if present = true then recoverPresentDestination env journal
  else recoverMissingDestination env journal

def recoverVerifiedRepair (journal : RuntimeRepairJournal) : Repair Unit := do
  let retained ← observe fun m => m.exists journal.staging
  ensure (!retained)
    (.cleanupUnknown "verified repair unexpectedly retained a staging directory")
  inspect .io fun m =>
    verifyRuntimeDirectoryReceipt env (m.runtimeVersions journal.version) journal.newReceipt
  let present ← observe fun m => m.exists journal.backup
  whenever (present = true)
    (removeVerifiedBackupDirectory env journal.backup journal.oldReceipt)

def recoverRepairByPhase (journal : RuntimeRepairJournal) : Repair Unit :=
  match journal.phase with
  | .prepared => recoverPreparedRepair env journal
  | .oldMoved => recoverUnverifiedRepair env journal
  | .newPlacedUnverified => recoverUnverifiedRepair env journal
  | .newVerified => recoverVerifiedRepair env journal

def recoverRepairJournal : Option (StoredFile RuntimeRepairJournal) → Repair Unit
  | none => ret ()
  | some file => do
    let journal ← inspect .io fun _ => readRepairJournal file
    recoverRepairByPhase env journal
    removeRepairJournal

def recoverInterruptedRepair : Repair Unit := do
  let file ← observe (·.repairJournal)
  recoverRepairJournal env file

/-! ## The repair -/

def failRepairAndRecover (operation : SetupError) : Repair Unit := do
  match ← (recoverInterruptedRepair env).attempt with
  | .ok () => throw operation
  | .error recovery => throw (.cleanupUnknown
      ("runtime repair failed (" ++ operation.text ++ ") and rollback remained incomplete (" ++
        recovery.text ++ "); the repair journal and verified backup were preserved"))

/-- The files of a payload in the order of their names. -/
def payloadOrder : List RuntimeFile :=
  [.library, .library64, .injector32, .injector64, .service]

def writePayloadFiles (payload : LoadedPayload) (name : String) :
    List RuntimeFile → Repair Unit
  | [] => ret ()
  | file :: rest => do
    writeSynced env name file (payload.files file)
    writePayloadFiles payload name rest

def stageRepairPayload (payload : LoadedPayload) (staging : String) : Repair Unit := do
  writePayloadFiles env payload staging payloadOrder
  inspect .io fun m => verifyExistingPayload payload (m.runtimeVersions staging)

def repairStaging (payload : LoadedPayload) : String :=
  ".repair-new-" ++ payload.version.text ++ "-" ++ env.temporaryNonce

def repairBackup (payload : LoadedPayload) : String :=
  ".repair-old-" ++ payload.version.text ++ "-" ++ env.temporaryNonce

/-- The directory that a payload is installed as. -/
def payloadDirectory (payload : LoadedPayload) : RuntimeDirectory :=
  ⟨fun file => some (payload.files file), none, [], []⟩

def repairJournal (payload : LoadedPayload) (oldReceipt : RuntimeDirectoryReceipt)
    (phase : RuntimeRepairPhase) : RuntimeRepairJournal where
  schema := runtimeRepairSchema
  version := payload.version.text
  staging := repairStaging env payload
  backup := repairBackup env payload
  phase := phase
  oldReceipt := oldReceipt
  newReceipt := receiptOf env (payloadDirectory payload)

/-- The part of a repair that its journal covers. -/
def exchangeDirectories (payload : LoadedPayload) (oldReceipt : RuntimeDirectoryReceipt) :
    Repair Unit := do
  let journal := repairJournal env payload oldReceipt
  (renameDirectory payload.version.text (repairBackup env payload)).handle
    (failRepairAndRecover env)
  (writeRepairJournal (journal .oldMoved)).handle (failRepairAndRecover env)
  (renameDirectory (repairStaging env payload) payload.version.text).handle
    (failRepairAndRecover env)
  (writeRepairJournal (journal .newPlacedUnverified)).handle (failRepairAndRecover env)
  (inspect .io fun m => verifyExistingPayload payload
    (m.runtimeVersions payload.version.text)).handle (failRepairAndRecover env)
  (writeRepairJournal (journal .newVerified)).handle (failRepairAndRecover env)
  inspect .io fun m =>
    verifyRuntimeDirectoryReceipt env (m.runtimeVersions (repairBackup env payload)) oldReceipt
  removeVerifiedBackupDirectory env (repairBackup env payload) oldReceipt
  removeRepairJournal

/-- Replaces the directory of the payload's version by the payload. -/
def replaceRuntimePayload (payload : LoadedPayload) : Repair Unit := do
  let collision ← observe fun m =>
    m.exists (repairStaging env payload) || m.exists (repairBackup env payload)
  ensure (!collision) (.runtime "runtime repair staging collision")
  createProtectedDirectory (repairStaging env payload)
  (stageRepairPayload env payload (repairStaging env payload)).handle fun error => do
    let _ ← (removeRepairDirectory env (repairStaging env payload)).attempt
    throw error
  let oldReceipt ← inspect .io fun m =>
    readRuntimeDirectoryReceipt env (m.runtimeVersions payload.version.text)
  writeRepairJournal (repairJournal env payload oldReceipt .prepared)
  exchangeDirectories env payload oldReceipt

end MacTypeControl.Installer
