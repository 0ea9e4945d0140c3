import MacTypeControl.Crash.Logic
import MacTypeControl.Integration.Status
import MacTypeControl.Legacy.Scm

/-!
# The protected storage of a migration

A migration captures the protected files before it starts, records what its steps
have written, and rolls back only what is still as recorded.
-/

namespace MacTypeControl.Protection

open Crash Crash.Prog

/-- The files of one generation directory. -/
abbrev Directory := List (String × Bytes)

/-- File names with the digests of their contents. -/
abbrev Manifest := List (String × String)

/-- The entries of a directory that holds generations. An entry without a directory
is something else; a root that is not there has no entries. -/
structure GenerationRoot where
  present : Bool
  names : List String
  directory : String → Option Directory
  present_of_names : names ≠ [] → present = true

structure ProtectedDisk where
  runtimePointer : Option Bytes
  activeProfile : Option Bytes
  previousProfile : Option Bytes
  runtimeVersions : GenerationRoot
  profileGenerations : GenerationRoot

/-- The files that are captured. The adjacent profile lies in a runtime generation. -/
inductive ProtectedFile where
  | runtimePointer
  | activeProfile
  | previousProfile
  | adjacentProfile (version : String)
  deriving DecidableEq

structure OptionalFileMutation where
  after : Option Bytes
  deriving DecidableEq

structure ProtectedMutationReceipt where
  runtimePointer : Option OptionalFileMutation
  activeProfilePointer : Option OptionalFileMutation
  previousProfilePointer : Option OptionalFileMutation
  adjacentProfile : Option OptionalFileMutation
  runtimeGenerations : List (String × Manifest)
  profileGenerations : List (String × Manifest)

/-- What was captured of the protected files. -/
structure ProtectedSnapshot where
  runtimePointer : Option Bytes
  activeProfilePointer : Option Bytes
  previousProfilePointer : Option Bytes
  runtimeGenerations : List String
  profileGenerations : List String
  adjacentProfile : Option (String × Option Bytes)

structure BundledRuntimeManifest where
  version : String
  files : Manifest

/-- The surroundings: the digest of a file, the version a runtime pointer names, the
manifest of the bundled runtime, and whether the question if a path exists can fail. -/
structure ProtectedEnvironment where
  sha256 : Bytes → String
  pointerVersion : Bytes → Except String String
  bundledManifest : Except String BundledRuntimeManifest
  questionsFail : Bool

def maxPointerBytes : ℕ := 64 * 1024

def maxProtectedProfileBytes : ℕ := 4 * 1024 * 1024

def maxRuntimeFileBytes : ℕ := 32 * 1024 * 1024

def immutableRuntimeFiles : List String :=
  ["mactype-service.exe", "mactype-injector32.exe", "mactype-injector64.exe", "MacType.dll",
    "MacType64.dll"]

def maxRuntimeGenerationFiles : ℕ := immutableRuntimeFiles.length + 1

def maxProfileGenerationFiles : ℕ := 2

def maxProtectedGenerationDirectories : ℕ := 4096

def isAsciiAlphanumeric (c : Char) : Bool :=
  ('0' ≤ c && c ≤ '9') || ('a' ≤ c && c ≤ 'z') || ('A' ≤ c && c ≤ 'Z')

def safeVersion (value : String) : Bool :=
  value != "" && value.length ≤ 64 &&
    value.toList.all (fun c => isAsciiAlphanumeric c || c == '.' || c == '-' || c == '+') &&
    value != "." && value != ".."

def safeProfileGeneration (value : String) : Bool :=
  value.length == 64 &&
    value.toList.all fun c => ('0' ≤ c && c ≤ '9') || ('a' ≤ c && c ≤ 'f')

/-! ## Files and directories -/

def adjacentName : String := "MacType.ini"

def ProtectedDisk.read (disk : ProtectedDisk) : ProtectedFile → Option Bytes
  | .runtimePointer => disk.runtimePointer
  | .activeProfile => disk.activeProfile
  | .previousProfile => disk.previousProfile
  | .adjacentProfile version =>
    (disk.runtimeVersions.directory version).bind (List.lookup adjacentName)

/-- The directory with one file replaced, added or removed. -/
def setEntry (directory : Directory) (name : String) (content : Option Bytes) : Directory :=
  match content with
  | some bytes => (name, bytes) :: directory.filter fun entry => entry.1 != name
  | none => directory.filter fun entry => entry.1 != name

def GenerationRoot.update (root : GenerationRoot) (name : String) (directory : Directory) :
    GenerationRoot :=
  { root with directory := Function.update root.directory name (some directory) }

def GenerationRoot.remove (root : GenerationRoot) (name : String) : GenerationRoot where
  present := root.present
  names := root.names.filter (· != name)
  directory := Function.update root.directory name none
  present_of_names h := root.present_of_names fun hnone => h (by rw [hnone]; rfl)

/-- Replaces a file as a whole, or removes it. A file cannot be created where its
directory is missing. -/
def ProtectedDisk.write (disk : ProtectedDisk) (content : Option Bytes) :
    ProtectedFile → Except String ProtectedDisk
  | .runtimePointer => .ok { disk with runtimePointer := content }
  | .activeProfile => .ok { disk with activeProfile := content }
  | .previousProfile => .ok { disk with previousProfile := content }
  | .adjacentProfile version =>
    match disk.runtimeVersions.directory version with
    | none => if content.isNone then .ok disk else .error "the parent directory is missing"
    | some directory => .ok { disk with
        runtimeVersions := disk.runtimeVersions.update version
          (setEntry directory adjacentName content) }

def manifestLimit (name : String) : ℕ :=
  if Legacy.sameText name "MacType.ini" || Legacy.sameText name "profile.ini" then
    maxProtectedProfileBytes
  else if Legacy.sameText name "metadata.json" then 64 * 1024
  else maxRuntimeFileBytes

variable (env : ProtectedEnvironment)

def manifestEntry (entry : String × Bytes) : Except String (String × String) := do
  require (entry.2.length ≤ manifestLimit entry.1)
    "transaction-owned generation file exceeds its byte limit"
  require (entry.2 != []) "transaction-owned generation file must not be empty"
  .ok (entry.1, env.sha256 entry.2)

def generationManifest (root : GenerationRoot) (name : String) (maximumFiles : ℕ) :
    Except String Manifest :=
  match root.directory name with
  | none => .error "protected generation is not a directory"
  | some directory => do
    require (directory.length ≤ maximumFiles)
      "protected generation file count exceeds its fixed limit"
    directory.mapM (manifestEntry env)

/-! ## Reading the disk -/

/-- The disk and the receipt the migration holds in memory. -/
structure Protected where
  disk : ProtectedDisk
  receipt : ProtectedMutationReceipt

abbrev Recording := Prog Protected String

/-- A read of the disk; any read may fail. -/
def look {α : Type} (f : ProtectedDisk → Except String α) : Recording α :=
  inspect "the protected state could not be read" fun s => f s.disk

/-- `Path::exists`, which answers no where the system cannot tell. -/
def pathExists (f : ProtectedDisk → Bool) : Recording Bool :=
  ask env.questionsFail "the path could not be queried" fun s => f s.disk

def readOptionalFile (disk : ProtectedDisk) (file : ProtectedFile) (maximum : ℕ) :
    Except String (Option Bytes) :=
  match disk.read file with
  | none => .error "the protected file was not found"
  | some bytes => do
    require (bytes != []) "protected machine state contains an invalid file"
    require (bytes.length ≤ maximum) "protected machine state contains an invalid file"
    .ok (some bytes)

/-- The content of a file within its limit. -/
def snapshotOptionalFile (file : ProtectedFile) (maximum : ℕ) : Recording (Option Bytes) := do
  match ← pathExists env fun disk => (disk.read file).isSome with
  | false => .ret none
  | true => look fun disk => readOptionalFile disk file maximum

/-- Which of the two generation roots. -/
inductive RootKind where
  | runtime
  | profile
  deriving DecidableEq

def ProtectedDisk.root (disk : ProtectedDisk) : RootKind → GenerationRoot
  | .runtime => disk.runtimeVersions
  | .profile => disk.profileGenerations

def ProtectedDisk.withRoot (disk : ProtectedDisk) (root : GenerationRoot) :
    RootKind → ProtectedDisk
  | .runtime => { disk with runtimeVersions := root }
  | .profile => { disk with profileGenerations := root }

def readGenerationDirectories (root : GenerationRoot) (validName : String → Bool)
    (maximum : ℕ) : Except String (List String) := do
  require (root.names.length ≤ maximum)
    "protected generation directory count exceeds its fixed limit"
  require (root.names.all fun name => validName name && (root.directory name).isSome)
    "protected generation root contains an unexpected entry"
  .ok root.names

def snapshotGenerationDirectories (kind : RootKind) (validName : String → Bool) (maximum : ℕ) :
    Recording (List String) := do
  match ← pathExists env fun disk => (disk.root kind).present with
  | false => .ret []
  | true => look fun disk => readGenerationDirectories (disk.root kind) validName maximum

/-! ## Capture -/

/-- The version has to name a generation that is a directory. -/
def requireGeneration (version : String) (disk : ProtectedDisk) : Except String String := do
  require (disk.runtimeVersions.names.contains version &&
    (disk.runtimeVersions.directory version).isSome)
    "protected runtime generation is unavailable"
  .ok version

def activeRuntimeRoot : Recording (Option String) := do
  match ← snapshotOptionalFile env .runtimePointer maxPointerBytes with
  | none => .ret none
  | some bytes =>
    let version ← ofExcept (env.pointerVersion bytes)
    ensure (safeVersion version) "invalid protected runtime pointer"
    let found ← look (requireGeneration version)
    .ret (some found)

def captureAdjacentProfile : Recording (Option (String × Option Bytes)) := do
  match ← activeRuntimeRoot env with
  | none => .ret none
  | some version =>
    let content ← snapshotOptionalFile env (.adjacentProfile version) maxProtectedProfileBytes
    .ret (some (version, content))

def captureProtectedState : Recording ProtectedSnapshot := do
  let runtimePointer ← snapshotOptionalFile env .runtimePointer maxPointerBytes
  let activeProfilePointer ← snapshotOptionalFile env .activeProfile maxPointerBytes
  let previousProfilePointer ← snapshotOptionalFile env .previousProfile maxPointerBytes
  let runtimeGenerations ← snapshotGenerationDirectories env .runtime safeVersion
    maxProtectedGenerationDirectories
  let profileGenerations ← snapshotGenerationDirectories env .profile safeProfileGeneration
    maxProtectedGenerationDirectories
  let adjacentProfile ← captureAdjacentProfile env
  .ret ⟨runtimePointer, activeProfilePointer, previousProfilePointer, runtimeGenerations,
    profileGenerations, adjacentProfile⟩

/-! ## Recording -/

def emptyReceipt : ProtectedMutationReceipt := ⟨none, none, none, none, [], []⟩

def recordOptionalMutation (receipt : Option OptionalFileMutation) (before after : Option Bytes) :
    Except String (Option OptionalFileMutation) :=
  if after = before then .ok receipt
  else match receipt with
    | some existing =>
      if existing ≠ ⟨after⟩ then
        .error "a protected file changed after its transaction receipt was recorded"
      else .ok (some existing)
    | none => .ok (some ⟨after⟩)

def recordGenerationReceipt (receipts : List (String × Manifest)) (name : String)
    (manifest : Manifest) : Except String (List (String × Manifest)) :=
  match receipts.lookup name with
  | some existing =>
    if !existing.isPerm manifest then
      .error ("protected generation " ++ name ++
        " changed after its transaction receipt was recorded")
    else .ok receipts
  | none => .ok ((name, manifest) :: receipts)

/-- Changes the receipt, or reports why it cannot. The receipt is held in memory. -/
def amend (f : ProtectedMutationReceipt → Except String ProtectedMutationReceipt) :
    Recording Unit :=
  change fun s => (f s.receipt).map fun receipt => { s with receipt }

def recordFile (file : ProtectedFile) (before after : Option Bytes) : Recording Unit :=
  amend fun receipt =>
    match file with
    | .runtimePointer => (recordOptionalMutation receipt.runtimePointer before after).map
        fun mutation => { receipt with runtimePointer := mutation }
    | .activeProfile => (recordOptionalMutation receipt.activeProfilePointer before after).map
        fun mutation => { receipt with activeProfilePointer := mutation }
    | .previousProfile => (recordOptionalMutation receipt.previousProfilePointer before after).map
        fun mutation => { receipt with previousProfilePointer := mutation }
    | .adjacentProfile _ => (recordOptionalMutation receipt.adjacentProfile before after).map
        fun mutation => { receipt with adjacentProfile := mutation }

/-- A new profile generation has to be the published profile. -/
def profileGenerationManifest (profile : Bytes) (name : String) (disk : ProtectedDisk) :
    Except String Manifest := do
  let manifest ← generationManifest env disk.profileGenerations name maxProfileGenerationFiles
  require ((manifest.map Prod.fst).isPerm ["metadata.json", "profile.ini"] &&
      ((disk.profileGenerations.directory name).bind (List.lookup "profile.ini")) = some profile)
    "new profile generation does not match the published payload"
  .ok manifest

/-- A new runtime generation has to be the bundled runtime with the published profile. -/
def runtimeGenerationManifest (bundled : BundledRuntimeManifest) (profile : Bytes) (name : String)
    (disk : ProtectedDisk) : Except String Manifest := do
  let manifest ← generationManifest env disk.runtimeVersions name maxRuntimeGenerationFiles
  require (bundled.files.all (fun entry => manifest.lookup entry.1 = some entry.2) &&
      manifest.all (fun entry =>
        entry.1 == adjacentName || immutableRuntimeFiles.contains entry.1) &&
      immutableRuntimeFiles.length ≤ manifest.length &&
      manifest.length ≤ immutableRuntimeFiles.length + 1)
    "new runtime generation does not match the bundled manifest"
  let found := (disk.runtimeVersions.directory name).bind (List.lookup adjacentName)
  require (found.isNone || found = some profile)
    "new runtime generation contains a foreign profile"
  .ok manifest

/-- Records the generations that are new, each of which has to be the expected one. -/
def recordGenerations (expected message : String) (manifestOf : String → ProtectedDisk →
    Except String Manifest) (record : String → Manifest → Recording Unit) :
    List String → Recording Unit
  | [] => .ret ()
  | name :: names => do
    ensure (name == expected) (message ++ name ++ " appeared during migration")
    let manifest ← look (manifestOf name)
    record name manifest
    recordGenerations expected message manifestOf record names

def recordProfileGeneration (name : String) (manifest : Manifest) : Recording Unit :=
  amend fun receipt => (recordGenerationReceipt receipt.profileGenerations name manifest).map
    fun profileGenerations => { receipt with profileGenerations }

def recordRuntimeGeneration (name : String) (manifest : Manifest) : Recording Unit :=
  amend fun receipt => (recordGenerationReceipt receipt.runtimeGenerations name manifest).map
    fun runtimeGenerations => { receipt with runtimeGenerations }

def recordAdjacentProfile (snapshot : ProtectedSnapshot) (after : Option (Option Bytes)) :
    Recording Unit :=
  match snapshot.adjacentProfile, after with
  | some (version, before), some after => recordFile (.adjacentProfile version) before after
  | _, _ => .ret ()

def readAdjacentProfile (snapshot : ProtectedSnapshot) : Recording (Option (Option Bytes)) :=
  match snapshot.adjacentProfile with
  | none => .ret none
  | some (version, _) => do
    let content ← snapshotOptionalFile env (.adjacentProfile version) maxProtectedProfileBytes
    .ret (some content)

def recordProtectedMutations (snapshot : ProtectedSnapshot) (profile : Bytes) :
    Recording Unit := do
  let runtimePointer ← snapshotOptionalFile env .runtimePointer maxPointerBytes
  let activeProfile ← snapshotOptionalFile env .activeProfile maxPointerBytes
  let previousProfile ← snapshotOptionalFile env .previousProfile maxPointerBytes
  let adjacentProfile ← readAdjacentProfile env snapshot
  let runtimeGenerations ← snapshotGenerationDirectories env .runtime safeVersion
    maxProtectedGenerationDirectories
  let profileGenerations ← snapshotGenerationDirectories env .profile safeProfileGeneration
    maxProtectedGenerationDirectories
  recordFile .runtimePointer snapshot.runtimePointer runtimePointer
  recordFile .activeProfile snapshot.activeProfilePointer activeProfile
  recordFile .previousProfile snapshot.previousProfilePointer previousProfile
  recordAdjacentProfile snapshot adjacentProfile
  recordGenerations (String.ofList ((env.sha256 profile).toList.drop 7)) "unreceipted profile generation "
    (profileGenerationManifest env profile) recordProfileGeneration
    (profileGenerations.filter fun name => !snapshot.profileGenerations.contains name)
  let bundled ← ofExcept env.bundledManifest
  recordGenerations bundled.version "unreceipted runtime generation "
    (runtimeGenerationManifest env bundled profile) recordRuntimeGeneration
    (runtimeGenerations.filter fun name => !snapshot.runtimeGenerations.contains name)

/-! ## Rollback -/

inductive FileRollbackAction where
  | noop
  | restore
  | remove
  deriving DecidableEq

def planFileRollback (before : Option Bytes) (recordedAfter : Option (Option Bytes))
    (current : Option Bytes) : Except String FileRollbackAction :=
  if current = before then .ok .noop
  else if recordedAfter = some current then
    .ok (if before.isSome then .restore else .remove)
  else .error "protected state cleanup is unknown; current bytes do not match this transaction receipt"

def planGenerationCleanup (before : List String) (receipts : List (String × Manifest)) :
    List (String × Manifest) → Except String (List String)
  | [] => .ok []
  | (name, manifest) :: current =>
    if before.contains name then planGenerationCleanup before receipts current
    else match receipts.lookup name with
      | some recorded =>
        if recorded.isPerm manifest then
          (planGenerationCleanup before receipts current).map (name :: ·)
        else .error ("protected generation cleanup is unknown for " ++ name ++
          "; refusing recursive deletion")
      | none => .error ("protected generation cleanup is unknown for " ++ name ++
          "; refusing recursive deletion")

def writeFile (file : ProtectedFile) (content : Option Bytes) : Recording Unit :=
  atomic "the protected file could not be replaced" fun s =>
    (s.disk.write content file).map fun disk => ((), { s with disk })

/-- Replaces the file, or removes it where it is found. -/
def restoreOptionalFile (file : ProtectedFile) : Option Bytes → Recording Unit
  | some bytes => writeFile file (some bytes)
  | none => do
    match ← pathExists env fun disk => (disk.read file).isSome with
    | false => .ret ()
    | true => writeFile file none

def restoreReceiptedOptionalFile (file : ProtectedFile) (before : Option Bytes)
    (receipt : Option OptionalFileMutation) (maximum : ℕ) : Recording Unit := do
  let current ← snapshotOptionalFile env file maximum
  match ← ofExcept (planFileRollback before (receipt.map OptionalFileMutation.after) current) with
  | .noop => .ret ()
  | .restore => restoreOptionalFile env file before
  | .remove => restoreOptionalFile env file none

/-- The manifest of a generation; one that existed before is not looked into. -/
def currentManifest (kind : RootKind) (before : List String) (maximumFiles : ℕ) (name : String) :
    Recording Manifest :=
  if before.contains name then .ret []
  else look fun disk => generationManifest env (disk.root kind) name maximumFiles

def currentManifests (kind : RootKind) (before : List String) (maximumFiles : ℕ) :
    List String → Recording (List (String × Manifest))
  | [] => .ret []
  | name :: names => do
    let manifest ← currentManifest env kind before maximumFiles name
    let rest ← currentManifests kind before maximumFiles names
    .ret ((name, manifest) :: rest)

/-- Deletes a directory with its files; caught halfway, some files are left. -/
def removeDirAll (kind : RootKind) (name : String) : Recording Unit :=
  step "the generation could not be removed"
    (fun s => match (s.disk.root kind).directory name with
      | none => []
      | some directory => directory.sublists.map fun rest =>
          { s with disk := s.disk.withRoot ((s.disk.root kind).update name rest) kind })
    fun s => .ok ((), { s with disk := s.disk.withRoot ((s.disk.root kind).remove name) kind })

def removeGenerations (kind : RootKind) (receipts : List (String × Manifest))
    (maximumFiles : ℕ) : List String → Recording Unit
  | [] => .ret ()
  | name :: names => do
    match receipts.lookup name with
    | none => .throw "protected generation receipt disappeared"
    | some expected => do
      let manifest ← look fun disk => generationManifest env (disk.root kind) name maximumFiles
      ensure (manifest.isPerm expected) ("protected generation cleanup is unknown for " ++ name ++
        "; manifest changed before deletion")
      removeDirAll kind name
      removeGenerations kind receipts maximumFiles names

def removeReceiptedGenerationDirectories (kind : RootKind) (before : List String)
    (receipts : List (String × Manifest)) (validName : String → Bool) (maximumFiles : ℕ) :
    Recording Unit := do
  let names ← snapshotGenerationDirectories env kind validName maxProtectedGenerationDirectories
  let current ← currentManifests env kind before maximumFiles names
  let removable ← ofExcept (planGenerationCleanup before receipts current)
  removeGenerations env kind receipts maximumFiles removable

def restoreAdjacentProfile (snapshot : ProtectedSnapshot)
    (receipt : Option OptionalFileMutation) : Recording Unit :=
  match snapshot.adjacentProfile with
  | none => .ret ()
  | some (version, state) =>
    restoreReceiptedOptionalFile env (.adjacentProfile version) state receipt maxProtectedProfileBytes

def restoreProtectedSnapshot (snapshot : ProtectedSnapshot) : Recording Unit := do
  let receipt ← observe Protected.receipt
  restoreReceiptedOptionalFile env .runtimePointer snapshot.runtimePointer receipt.runtimePointer
    maxPointerBytes
  restoreReceiptedOptionalFile env .activeProfile snapshot.activeProfilePointer
    receipt.activeProfilePointer maxPointerBytes
  restoreReceiptedOptionalFile env .previousProfile snapshot.previousProfilePointer
    receipt.previousProfilePointer maxPointerBytes
  removeReceiptedGenerationDirectories env .runtime snapshot.runtimeGenerations
    receipt.runtimeGenerations safeVersion maxRuntimeGenerationFiles
  removeReceiptedGenerationDirectories env .profile snapshot.profileGenerations
    receipt.profileGenerations safeProfileGeneration maxProfileGenerationFiles
  restoreAdjacentProfile env snapshot receipt.adjacentProfile

end MacTypeControl.Protection
