import MacTypeControl.Installer.Repair
import MacTypeControl.Tables.Folder

/-!
# The store of the generations

The generation directories, their receipts and the pins of the migrations, as the file system
lists and finds them: the verification of a generation against its receipt, the pinned
generations, and the removal of a verified generation file by file.
-/

namespace MacTypeControl.Generations

open Crash Crash.Prog Profile Storage Tables
open Installer (RepairEnvironment verifyRuntimeEntries maxRuntimeFileBytes rememberedGeneration)

/-! ## Names -/

inductive FileName where
  | unicode (text : String)
  | other (units : List ℕ)
  deriving DecidableEq

/-- What the file system compares of a name, be it the case of letters or a dot at its end that
it leaves out. -/
structure FileNames where
  compared : FileName → FileName
  compared_json : ∀ a b : String,
    compared (.unicode (a ++ ".json")) = compared (.unicode (b ++ ".json")) →
      compared (.unicode a) = compared (.unicode b)

/-! ## The contents of the service root -/

/-- What a name in the directory of the generations leads to. -/
inductive VersionEntry where
  | directory (content : RuntimeDirectory)
  | other

/-- A generation that a migration has pinned. The names of the files and the form of the digests
are those that a pin may have. -/
structure MigrationPinnedRuntime where
  version : String
  files : RuntimeFile → Digest
  generatedProfile : Option Digest

theorem MigrationPinnedRuntime.ext_files {a b : MigrationPinnedRuntime}
    (hversion : a.version = b.version) (hprofile : a.generatedProfile = b.generatedProfile)
    (hfiles : ∀ file, a.files file = b.files file) : a = b := by
  obtain ⟨_, files, _⟩ := a
  obtain ⟨_, files', _⟩ := b
  have hsame : files = files' := funext hfiles
  rw [mk.injEq]
  exact ⟨hversion, hsame, hprofile⟩

instance : DecidableEq MigrationPinnedRuntime := fun a b =>
  decidable_of_iff (a.version = b.version ∧ a.generatedProfile = b.generatedProfile ∧
      ∀ file ∈ immutableRuntimeFiles, a.files file = b.files file)
    ⟨fun h => MigrationPinnedRuntime.ext_files h.1 h.2.1 fun file =>
      h.2.2 file (mem_immutableRuntimeFiles file), fun h => h ▸ ⟨rfl, rfl, fun _ _ => rfl⟩⟩

structure MigrationRuntimePin where
  nonce : String
  runtimes : List MigrationPinnedRuntime

/-- What the removal of generations does, in the order it does it. -/
inductive RemovalEvent where
  | verified (version : String) (content : RuntimeDirectory) (receipt : RuntimeReceipt)
  | removed (version : String) (entry : RuntimeEntry)

def RemovalEvent.version : RemovalEvent → String
  | verified version _ _ => version
  | removed version _ => version

/-- A file or directory of a generation. -/
inductive GenerationPath where
  | file (entry : RuntimeEntry)
  | directory
  | receipt
  deriving DecidableEq

/-- The service root. What has no name of its own here is an unexpected entry. The history, the
newest event first, is no part of the files, nor is what the system was asked to delete at its
next start. -/
structure ServiceRoot (names : FileNames) where
  present : Bool
  versions : Option (Folder names.compared VersionEntry)
  receipts : Option (Folder names.compared (StoredFile RuntimeReceipt))
  migrationPins : Option (Folder names.compared (StoredFile MigrationRuntimePin))
  runtimePointer : Option (StoredFile RuntimeVersion)
  previousRuntime : Option (StoredFile RuntimeVersion)
  health : Option (StoredFile Unit)
  pendingTransaction : Bool
  unexpected : List FileName
  history : List RemovalEvent
  deferredDeletions : List (String × GenerationPath)

variable {names : FileNames} (env : RepairEnvironment)

def receiptName (version : String) : FileName := .unicode (version ++ ".json")

def ServiceRoot.generation (m : ServiceRoot names) (version : String) : Option VersionEntry :=
  m.versions.bind (·.lookup (.unicode version))

def ServiceRoot.receipt (m : ServiceRoot names) (version : String) :
    Option (StoredFile RuntimeReceipt) :=
  m.receipts.bind (·.lookup (receiptName version))

abbrev Store (names : FileNames) := Prog (ServiceRoot names) SetupError

/-! ## Verification -/

/-- The directory has the files its receipt names, and the generated profile at most beside
them. -/
def verify (m : ServiceRoot names) (version : String) :
    Except SetupError (RuntimeDirectory × RuntimeReceipt) :=
  match m.generation version, m.receipt version with
  | some .other, _ => .error (.runtime "runtime generation is not a regular directory")
  | some (.directory directory), some file => match file.parse with
    | none => .error (.runtime "runtime generation receipt is invalid")
    | some receipt => do
      require (receipt.version.text == version)
        (.runtime "runtime generation receipt violates the fixed manifest contract")
      verifyRuntimeEntries env.toStorageEnvironment receipt directory
      .ok (directory, receipt)
  | _, _ => .error .io

/-! ## Pins -/

def maxPinnedRuntimes : ℕ := 64

/-- The version of a manifest: three numbers, and what may follow a hyphen or a plus. -/
def validVersion (version : String) : Bool :=
  let components := (version.toList.takeWhile fun c => c != '-' && c != '+').splitOn '.'
  version != "" && version.toList.length ≤ 64 &&
    version.toList.all (fun c =>
      Protection.isAsciiAlphanumeric c || c == '.' || c == '-' || c == '+') &&
    components.length == 3 &&
    components.all fun component => component != [] && component.all fun c => '0' ≤ c && c ≤ '9'

def validNonce (nonce : String) : Bool :=
  nonce.toList.length == 32 && nonce.toList.all isLowerHexDigit

def MigrationRuntimePin.validate (pin : MigrationRuntimePin) : Bool :=
  validNonce pin.nonce && !pin.runtimes.isEmpty && pin.runtimes.length ≤ maxPinnedRuntimes &&
    pin.runtimes.all (fun runtime => validVersion runtime.version) &&
    decide (pin.runtimes.map (·.version)).Nodup

/-- The name without its extension. -/
def stripJson (name : String) : Option String :=
  let stem := String.ofList (name.toList.take (name.toList.length - ".json".toList.length))
  if stem ++ ".json" = name then some stem else none

theorem stripJson_eq_some {name stem : String} (h : stripJson name = some stem) :
    stem ++ ".json" = name := by
  unfold stripJson at h
  dsimp only at h
  split at h
  · next hname =>
    cases h
    exact hname
  · cases h

theorem stripJson_append (stem : String) : stripJson (stem ++ ".json") = some stem := by
  have hstem : String.ofList ((stem ++ ".json").toList.take
      ((stem ++ ".json").toList.length - ".json".toList.length)) = stem := by
    rw [String.toList_append, List.length_append, Nat.add_sub_cancel, List.take_left,
      String.ofList_toList]
  unfold stripJson
  rw [hstem]
  exact if_pos rfl

/-- The nonce that the name of a pin spells. -/
def pinNonce : FileName → Except SetupError String
  | .other _ => .error (.runtime "migration pin name is not Unicode")
  | .unicode name => match stripJson name with
    | none => .error (.runtime "migration pin filename is not canonical")
    | some nonce => do
      require (validNonce nonce) (.runtime "migration pin filename is not canonical")
      .ok nonce

def verifyPinnedFile (runtime : MigrationPinnedRuntime) (directory : RuntimeDirectory)
    (file : RuntimeFile) : Except SetupError Unit :=
  match directory.files file with
  | none => .error .io
  | some bytes => do
    let bytes ← readBoundedRegularFile bytes maxRuntimeFileBytes "pinned runtime file"
    require (env.sha256Digest bytes == runtime.files file)
      (.runtime "pinned runtime file differs from its migration hash")

def verifyPinnedProfile (directory : RuntimeDirectory) : Option Digest → Except SetupError Unit
  | none => .ok ()
  | some expected => match directory.profile with
    | none => .error .io
    | some bytes => do
      let bytes ← readBoundedRegularFile bytes maxProfileBytes "pinned generated profile"
      require (env.sha256Digest bytes == expected)
        (.runtime "pinned generated profile differs from its migration hash")

def verifyPinnedRuntime (m : ServiceRoot names) (runtime : MigrationPinnedRuntime) :
    Except SetupError Unit :=
  match m.generation runtime.version with
  | none => .error .io
  | some .other => .error (.runtime "pinned runtime generation is unavailable")
  | some (.directory directory) => do
    let expectedCount := immutableRuntimeFiles.length + runtime.generatedProfile.toList.length
    require (directory.entryCount ≤ expectedCount)
      (.runtime "pinned runtime entry count exceeds the fixed limit")
    require (directory.entryCount == expectedCount)
      (.runtime "pinned runtime contains an unexpected file set")
    immutableRuntimeFiles.forM (verifyPinnedFile env runtime directory)
    verifyPinnedProfile env directory runtime.generatedProfile

/-- A pinned generation is added to those already read. -/
def addPinned (m : ServiceRoot names) (pinned : List MigrationPinnedRuntime)
    (runtime : MigrationPinnedRuntime) : Except SetupError (List MigrationPinnedRuntime) := do
  verifyPinnedRuntime env m runtime
  match pinned.find? fun other => other.version == runtime.version with
  | some existing => do
    require (existing = runtime) (.runtime "migration pins disagree about a runtime generation")
    .ok pinned
  | none => do
    require (pinned.length < maxPinnedRuntimes)
      (.runtime "migration pinned runtime count exceeds the fixed limit")
    .ok (runtime :: pinned)

def readPin (name : FileName) (file : StoredFile MigrationRuntimePin) :
    Except SetupError MigrationRuntimePin := do
  let nonce ← pinNonce name
  match file.parse with
  | none => .error (.runtime "migration runtime pin is invalid")
  | some pin => do
    require pin.validate (.runtime
      "migration runtime pin is invalid: migration runtime pin violates the fixed contract")
    require (pin.nonce == nonce)
      (.runtime "migration runtime pin nonce does not match its filename")
    .ok pin

def addPins (m : ServiceRoot names) (pinned : List MigrationPinnedRuntime)
    (entry : FileName × StoredFile MigrationRuntimePin) :
    Except SetupError (List MigrationPinnedRuntime) := do
  let pin ← readPin entry.1 entry.2
  pin.runtimes.foldlM (addPinned env m) pinned

/-- Every generation that a migration has pinned, once. -/
def loadVerifiedMigrationPins (m : ServiceRoot names) :
    Except SetupError (List MigrationPinnedRuntime) :=
  match m.migrationPins with
  | none => .ok []
  | some folder => do
    require (folder.entries.length ≤ maxPinnedRuntimes)
      (.runtime "migration runtime pin count exceeds the fixed limit")
    folder.entries.foldlM (addPins env m) []

/-! ## Removal -/

/-- The entries of a verified directory, which is listed again. -/
def removableEntries (m : ServiceRoot names) (version : String) :
    Except SetupError (List RuntimeEntry) :=
  match m.generation version with
  | some (.directory directory) => do
    require (directory.entryCount ≤ immutableRuntimeFiles.length + 1)
      (.runtime "runtime removal entry count exceeds the fixed limit")
    require (directory.temporaries == [] && directory.foreign == [])
      (.runtime "runtime removal found an unsigned file after verification")
    require (directory.runtimeFileCount == immutableRuntimeFiles.length)
      (.runtime "runtime removal file set changed after verification")
    .ok (env.listing directory)
  | _ => .error .io

def ServiceRoot.eraseEntry (m : ServiceRoot names) (version : String) (entry : RuntimeEntry)
    (directory : RuntimeDirectory) : ServiceRoot names :=
  { m with
    versions := m.versions.map
      (·.adjust (.unicode version) fun _ => .directory (directory.erase entry))
    history := .removed version entry :: m.history }

def ServiceRoot.removeDirectory (m : ServiceRoot names) (version : String) : ServiceRoot names :=
  { m with versions := m.versions.map (·.remove (.unicode version)) }

def ServiceRoot.removeReceipt (m : ServiceRoot names) (version : String) : ServiceRoot names :=
  { m with receipts := m.receipts.map (·.remove (receiptName version)) }

/-- What is left when a path of a generation was deleted. -/
def removedPath (version : String) (path : GenerationPath) (m : ServiceRoot names) :
    Except SetupError (ServiceRoot names) :=
  match path with
  | .file entry => match m.generation version with
    | some (.directory directory) => do
      require (directory.content entry).isSome .io
      .ok (m.eraseEntry version entry directory)
    | _ => .error .io
  | .directory => match m.generation version with
    | some (.directory directory) => do
      require (directory.entryCount == 0) .io
      .ok (m.removeDirectory version)
    | _ => .error .io
  | .receipt => do
    require (m.receipt version).isSome .io
    .ok (m.removeReceipt version)

def removeNow (version : String) (path : GenerationPath) : Store names Unit :=
  atomic .io fun m => (removedPath version path m).map fun t => ((), t)

def deferDeleteAfterReboot (version : String) (path : GenerationPath) : Store names Unit :=
  modify .io fun m => { m with deferredDeletions := (version, path) :: m.deferredDeletions }

/-- Where the removal fails, the system deletes the path at its next start. -/
def removeOrDefer (version : String) (path : GenerationPath) : Store names Unit :=
  (removeNow version path).handle fun removal =>
    (deferDeleteAfterReboot version path).mapError fun deferral => .cleanupUnknown
      ("verified runtime removal failed (" ++ removal.text ++
        ") and could not be deferred until reboot (" ++ deferral.text ++ ")")

def removalOperation : Bool → GenerationPath → String
  | true, .file _ => "remove verified runtime file"
  | true, .directory => "remove verified runtime generation"
  | true, .receipt => "remove verified runtime receipt"
  | false, .file _ => "remove stale runtime file"
  | false, .directory => "remove stale runtime generation"
  | false, .receipt => "remove stale runtime receipt"

/-- Deletes the path. What is in use can be deferred. -/
def removePath (deferLockedFiles : Bool) (version : String) (path : GenerationPath) :
    Store names Unit :=
  (if deferLockedFiles = true then removeOrDefer version path else removeNow version path).mapError
    (·.atMachinePath (removalOperation deferLockedFiles path))

def removeFiles (deferLockedFiles : Bool) (version : String) :
    List RuntimeEntry → Store names Unit
  | [] => ret ()
  | entry :: rest => do
    removePath deferLockedFiles version (.file entry)
    removeFiles deferLockedFiles version rest

def verifyBeforeRemoval (version : String) : Store names Unit :=
  atomic .io fun m => (verify env m version).map fun verified =>
    ((), { m with history := .verified version verified.1 verified.2 :: m.history })

def removeManifestVerifiedGenerationWithPolicy (deferLockedFiles : Bool) (version : String) :
    Store names Unit := do
  verifyBeforeRemoval env version
  let entries ← inspect .io fun m => removableEntries env m version
  removeFiles deferLockedFiles version entries
  removePath deferLockedFiles version .directory
  removePath deferLockedFiles version .receipt

def removeManifestVerifiedGeneration (version : String) : Store names Unit :=
  removeManifestVerifiedGenerationWithPolicy env false version

/-! ## Retention -/

/-- Which of the questions of a retention the system answers: whether there is a pointer to the
generation before, a directory of pins, and one of generations. -/
structure Answers where
  previousRuntime : Bool
  migrationPins : Bool
  runtimeVersions : Bool

def Answers.all : Answers := ⟨true, true, true⟩

/-- What a retention takes to be there: a question that is not answered counts as a no. -/
def ServiceRoot.seen (m : ServiceRoot names) (answers : Answers) : ServiceRoot names :=
  { m with
    previousRuntime := bif answers.previousRuntime then m.previousRuntime else none
    migrationPins := bif answers.migrationPins then m.migrationPins else none }

variable (answers : Answers)

def previousGeneration (oldPointer : Option RuntimeVersion) (currentVersion : RuntimeVersion) :
    Store names (Option RuntimeVersion) :=
  rememberedGeneration (fun m => (m.seen answers).previousRuntime)
    (fun file m => { m with previousRuntime := some file }) oldPointer currentVersion

def retainedVersions (currentVersion : RuntimeVersion) (previous : Option RuntimeVersion)
    (pinned : List MigrationPinnedRuntime) : List String :=
  currentVersion.text :: (previous.toList.map (·.text) ++ pinned.map (·.version))

/-- A generation that cannot be removed is preserved. -/
def cleanupGeneration (retained : List String) : FileName → Store names Unit
  | .other _ => ret ()
  | .unicode version =>
    whenever (version ∉ retained ∧ validRuntimeVersionComponent version = true)
      ((removeManifestVerifiedGeneration env version).handle fun _ => ret ())

def cleanupGenerations (retained : List String) : List FileName → Store names Unit
  | [] => ret ()
  | name :: rest => do
    cleanupGeneration env retained name
    cleanupGenerations retained rest

def listedGenerations (m : ServiceRoot names) : Except SetupError (List FileName) :=
  match m.versions with
  | none => .ok []
  | some folder => do
    require (folder.entries.length ≤ maxPinnedRuntimes + 2)
      (.runtime "runtime retention generation count exceeds the fixed limit")
    .ok (folder.entries.map Prod.fst)

def cleanupStaleGenerations (retained : List String) : Store names Unit := do
  let listed ← inspect .io fun m =>
    bif answers.runtimeVersions then listedGenerations m else .ok []
  cleanupGenerations env retained listed

def retainAsking (oldPointer : Option RuntimeVersion) (currentVersion : RuntimeVersion) :
    Store names Unit := do
  let previous ← previousGeneration answers oldPointer currentVersion
  let pinned ← inspect .io fun m => loadVerifiedMigrationPins env (m.seen answers)
  cleanupStaleGenerations env answers (retainedVersions currentVersion previous pinned)

/-- A retention whose questions are answered. -/
def retain (oldPointer : Option RuntimeVersion) (currentVersion : RuntimeVersion) :
    Store names Unit :=
  retainAsking env .all oldPointer currentVersion

end MacTypeControl.Generations
