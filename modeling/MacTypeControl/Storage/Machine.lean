import MacTypeControl.Crash.Logic
import MacTypeControl.Checks
import MacTypeControl.Profile.Validation
import MacTypeControl.Protection.Storage

/-!
# The machine storage of the setup

The runtime generations, the profile generations, and the pointers and journals
beside them.
-/

namespace MacTypeControl.Storage

open Crash Crash.Prog Profile

inductive SetupError where
  | io
  | machineOperation (operation : String) (source : SetupError)
  | invalidProfile (error : ProfileError)
  | invalidMetadata
  | invalidPointer
  | tamperedGeneration
  | cleanupUnknown (message : String)
  | rollbackFailed (operation restoration : String)
  | manifest (message : String)
  | runtime (message : String)
  deriving DecidableEq

/-- The text of an error. The paths and the system's own texts are left out. -/
def SetupError.text : SetupError → String
  | .io => "machine storage I/O failed"
  | .machineOperation operation source =>
    s!"machine operation '{operation}' failed: {source.text}"
  | .invalidProfile error =>
    s!"profile validation failed: profile generation operation failed: {error.debug}"
  | .invalidMetadata => "source metadata is invalid"
  | .invalidPointer => "generation pointer is invalid"
  | .tamperedGeneration => "profile generation hash does not match"
  | .cleanupUnknown message => s!"machine cleanup state is unknown: {message}"
  | .rollbackFailed operation restoration =>
    s!"machine cleanup state is unknown: {operation}; {restoration}"
  | .manifest message => s!"runtime manifest is invalid: {message}"
  | .runtime message => s!"machine runtime operation failed: {message}"

def SetupError.atMachinePath (operation : String) (e : SetupError) : SetupError :=
  .machineOperation operation e

/-! ## What files hold -/

/-- The content of a file of a fixed format: what is written for a value, or other
bytes, of which the parser may still make a value. -/
inductive StoredFile (α : Type) where
  | written (value : α)
  | other (parsed : Option α)
  deriving DecidableEq

def StoredFile.parse {α : Type} : StoredFile α → Option α
  | .written value => some value
  | .other parsed => parsed

@[simp] theorem StoredFile.parse_written {α : Type} (value : α) :
    (StoredFile.written value).parse = some value := rfl

def validRuntimeVersionComponent (version : String) : Bool :=
  version != "" && version.toList.length ≤ 64 &&
    version.toList.all (fun c =>
      Protection.isAsciiAlphanumeric c || c == '.' || c == '-' || c == '+') &&
    version != "." && version != ".."

/-- A version that can name a generation directory. A runtime pointer holds nothing else. -/
structure RuntimeVersion where
  text : String
  valid : validRuntimeVersionComponent text = true
  deriving DecidableEq

theorem validRuntimeVersionComponent_one : validRuntimeVersionComponent "1.0.0" = true := by
  decide

def isLowerHexDigit (c : Char) : Bool := ('0' ≤ c && c ≤ '9') || ('a' ≤ c && c ≤ 'f')

def canonicalDigest (value : String) : Bool :=
  value.toList.length == 71 && value.toList.take 7 == "sha256:".toList &&
    (value.toList.drop 7).all isLowerHexDigit

/-- A digest in its one spelling. It names the profile generation it is the digest of. -/
structure Digest where
  text : String
  canonical : canonicalDigest text = true
  deriving DecidableEq

theorem canonicalDigest_zeros : canonicalDigest
    "sha256:0000000000000000000000000000000000000000000000000000000000000000" = true := by
  decide

abbrev GenerationId := Digest

/-! ## Runtime generations -/

inductive RuntimeFile where
  | service
  | injector32
  | injector64
  | library
  | library64
  deriving DecidableEq

def immutableRuntimeFiles : List RuntimeFile :=
  [.service, .injector32, .injector64, .library, .library64]

theorem mem_immutableRuntimeFiles (file : RuntimeFile) : file ∈ immutableRuntimeFiles := by
  cases file <;> decide

/-- The entries of a generation directory: the files of the runtime, the generated
profile beside its DLLs, what interrupted writes of that profile have left (by what
follows `.MacType.ini.new-` in their names), and anything else. -/
structure RuntimeDirectory where
  files : RuntimeFile → Option Bytes
  profile : Option Bytes
  temporaries : List String
  foreign : List String

def RuntimeDirectory.runtimeFileCount (directory : RuntimeDirectory) : ℕ :=
  (immutableRuntimeFiles.filter fun file => (directory.files file).isSome).length

def RuntimeDirectory.entryCount (directory : RuntimeDirectory) : ℕ :=
  directory.runtimeFileCount + directory.profile.toList.length +
    directory.temporaries.length + directory.foreign.length

theorem RuntimeDirectory.runtimeFileCount_le (directory : RuntimeDirectory) :
    directory.runtimeFileCount ≤ 5 :=
  List.length_filter_le _ immutableRuntimeFiles

/-- Whether the setup has named the entry: two or three numbers. -/
def ownedTemporary (suffix : String) : Bool :=
  let components := suffix.toList.splitOn '-'
  (components.length == 2 || components.length == 3) &&
    components.all fun component =>
      component != [] && component.all fun c => '0' ≤ c && c ≤ '9'

/-! ## The machine -/

inductive ProfileActivationPhase where
  | pointerTransition
  | firstRollbackDeletePending
  | firstRollbackDeleteConfirmed
  deriving DecidableEq

structure ProfileActivationJournal where
  phase : ProfileActivationPhase
  activeBefore : Option GenerationId
  previousBefore : Option GenerationId
  deriving DecidableEq

/-- A journal by its schema. -/
inductive ProfileJournalFile where
  | current (journal : ProfileActivationJournal)
  | legacy (activeBefore previousBefore : Option GenerationId)
  deriving DecidableEq

inductive RuntimeActivationPhase where
  | candidate
  | committed
  | rollbackRequired
  deriving DecidableEq

structure RuntimeActivationReceipt where
  phase : RuntimeActivationPhase
  previous : Option RuntimeVersion
  activated : RuntimeVersion
  deriving DecidableEq

/-- A receipt by its schema. -/
inductive ParsedRuntimeActivationReceipt where
  | legacy (previous : Option RuntimeVersion)
  | uncommitted (previous : Option RuntimeVersion) (activated : RuntimeVersion)
  | current (receipt : RuntimeActivationReceipt)
  deriving DecidableEq

/-- The digests a generation was installed with. -/
structure RuntimeReceipt where
  version : RuntimeVersion
  files : RuntimeFile → Digest

/-- The files of the setup, and its surroundings, such as the service. -/
structure Machine (χ : Type) where
  runtimePointer : Option (StoredFile RuntimeVersion)
  previousRuntime : Option (StoredFile RuntimeVersion)
  runtimeVersions : String → Option RuntimeDirectory
  runtimeReceipts : RuntimeVersion → Option (StoredFile RuntimeReceipt)
  activationJournal : Option (StoredFile ParsedRuntimeActivationReceipt)
  activeProfile : Option (StoredFile GenerationId)
  previousProfile : Option (StoredFile GenerationId)
  profileGenerations : GenerationId → Option Bytes
  profileJournal : Option (StoredFile ProfileJournalFile)
  surroundings : χ

theorem ownedTemporary_first : ownedTemporary "1-1" = true := by
  decide

/-- The digest of a file, the name of the next temporary file, and what a file can hold
when the writing of its whole content is caught part-way. -/
structure StorageEnvironment where
  sha256Digest : Bytes → Digest
  temporaryNonce : String
  nonce_owned : ownedTemporary temporaryNonce = true
  caughtWrites : Bytes → List Bytes

variable {χ : Type}

def Machine.updateDirectory (m : Machine χ) (name : String)
    (f : RuntimeDirectory → RuntimeDirectory) : Machine χ :=
  { m with
    runtimeVersions := Function.update m.runtimeVersions name ((m.runtimeVersions name).map f) }

namespace Machine

variable (m : Machine χ) (name : String) (f : RuntimeDirectory → RuntimeDirectory)

end Machine

/-- The content of a regular file within its limit. -/
def readBoundedRegularFile (bytes : Bytes) (maximumBytes : ℕ) (description : String) :
    Except SetupError Bytes := do
  require (bytes != [] && bytes.length ≤ maximumBytes)
    (.runtime s!"{description} is not a bounded regular file")
  .ok bytes

theorem readBoundedRegularFile_ok {bytes : Bytes} {maximumBytes : ℕ} (h : bytes ≠ [])
    (hlen : bytes.length ≤ maximumBytes) (description : String) :
    readBoundedRegularFile bytes maximumBytes description = .ok bytes := by
  unfold readBoundedRegularFile
  rw [require_true _ (by simp [h, hlen])]
  rfl

end MacTypeControl.Storage
