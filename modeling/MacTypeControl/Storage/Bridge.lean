import MacTypeControl.Storage.Machine

/-!
# The profile beside the DLLs of the active runtime

The active profile generation is copied into the directory of the active runtime
generation, and taken out of it again when the first profile is rolled back.
-/

namespace MacTypeControl.Storage

open Crash Crash.Prog Profile

variable {χ : Type}

inductive MaterializedProfileClearError where
  | unchanged (error : SetupError)
  | unknown (error : SetupError)

inductive MaterializedProfileObservation where
  | absent
  | exactGeneration
  deriving DecidableEq

def MaterializedProfileClearError.intoSetupError : MaterializedProfileClearError → SetupError
  | .unchanged error => error
  | .unknown error => error

/-! ## Reading -/

/-- The directory of the generation that the runtime pointer names. The questions whether pointer
and directory exist are taken to be answered: one that fails reads as absent in the source. -/
def activeRuntimeRoot (m : Machine χ) : Except SetupError (Option String) :=
  match m.runtimePointer with
  | none => .ok none
  | some file => match file.parse with
    | none => .error (.runtime "active runtime pointer is invalid")
    | some version => do
      require (m.runtimeVersions version.text).isSome
        (.runtime "active runtime generation is unavailable")
      .ok (some version.text)

/-- The generated profile beside the DLLs in a generation directory. -/
def Machine.generatedProfile (m : Machine χ) (root : String) : Option Bytes :=
  (m.runtimeVersions root).bind (·.profile)

variable (env : StorageEnvironment)

/-- The generation of profile bytes that pass validation. -/
def publishMachineProfile (bytes : Bytes) : Except SetupError GenerationId :=
  match validateProfile bytes with
  | .ok () => .ok (env.sha256Digest bytes)
  | .error e => .error (.invalidProfile e)

def verifiedGenerationBytes (m : Machine χ) (generation : GenerationId) :
    Except SetupError Bytes :=
  match m.profileGenerations generation with
  | none => .error .tamperedGeneration
  | some bytes => do
    require (bytes != [] && bytes.length ≤ maxProfileBytes) .tamperedGeneration
    let calculated ← publishMachineProfile env bytes
    require (calculated == generation) .tamperedGeneration
    .ok bytes

/-- What lies in place of the generated profile of a generation. -/
def observeMaterializedGeneration (m : Machine χ) (generation : GenerationId) :
    Except SetupError MaterializedProfileObservation := do
  match ← activeRuntimeRoot m with
  | none => .ok .absent
  | some root =>
    let expected ← verifiedGenerationBytes env m generation
    match m.generatedProfile root with
    | none => .ok .absent
    | some actual =>
      require (actual != [] && actual.length ≤ maxProfileBytes)
        (.cleanupUnknown "uncertain profile cleanup could not verify its destination")
      require (actual == expected)
        (.cleanupUnknown "uncertain profile cleanup found foreign destination bytes")
      .ok .exactGeneration

def ensureMaterializedProfileAbsent (m : Machine χ) : Except SetupError Unit := do
  match ← activeRuntimeRoot m with
  | none => .ok ()
  | some root =>
    require (m.generatedProfile root).isNone
      (.cleanupUnknown "generated runtime profile exists without a verified generation identity")

/-! ## Writing -/

def maxRuntimeEntriesDuringProfileRecovery : ℕ := 16

/-- What interrupted writes have left in a generation directory. -/
def interruptedProfileWrites (m : Machine χ) (root : String) :
    Except SetupError (List String) :=
  match m.runtimeVersions root with
  | none => .error .io
  | some directory => do
    require (directory.entryCount ≤ maxRuntimeEntriesDuringProfileRecovery)
      (.runtime "runtime profile recovery entry count exceeds the fixed limit")
    .ok directory.temporaries

def removeOwnedTemporaries (root : String) : List String → Prog (Machine χ) SetupError Unit
  | [] => ret ()
  | suffix :: rest => do
    ensure (ownedTemporary suffix)
      (.runtime "generated runtime profile temporary entry is not owned by setup")
    modify .io fun m => m.updateDirectory root fun directory =>
      { directory with temporaries := directory.temporaries.erase suffix }
    removeOwnedTemporaries root rest

def removeInterruptedGeneratedProfileWrites (root : String) :
    Prog (Machine χ) SetupError Unit := do
  let temporaries ← inspect .io fun m => interruptedProfileWrites m root
  removeOwnedTemporaries root temporaries

/-- Puts content in place of the generated profile, or takes it away. -/
def Machine.setGeneratedProfile (m : Machine χ) (root : String) (content : Option Bytes) :
    Machine χ :=
  m.updateDirectory root fun directory => { directory with profile := content }

/-- Replaces the generated profile as a whole. A write that is caught before the
replacement can leave its temporary file. -/
def atomicWriteGeneratedProfile (root : String) (bytes : Bytes) :
    Prog (Machine χ) SetupError Unit :=
  step .io
    (fun m => [m.updateDirectory root fun directory =>
      { directory with temporaries := env.temporaryNonce :: directory.temporaries }])
    fun m => .ok ((), m.setGeneratedProfile root (some bytes))

/-- Whether the destination already holds the bytes. -/
def alreadyMaterialized (m : Machine χ) (root : String) (bytes : Bytes) :
    Except SetupError Bool :=
  match m.generatedProfile root with
  | none => .ok false
  | some actual => do
    let actual ← readBoundedRegularFile actual maxProfileBytes "generated runtime profile"
    .ok (actual == bytes)

def materializeGeneration (generation : GenerationId) : Prog (Machine χ) SetupError Bool := do
  match ← inspect .io activeRuntimeRoot with
  | none => ret false
  | some root =>
    removeInterruptedGeneratedProfileWrites root
    let bytes ← inspect .tamperedGeneration fun m => verifiedGenerationBytes env m generation
    let present ← inspect .io fun m => alreadyMaterialized m root bytes
    whenever (present = false) (atomicWriteGeneratedProfile env root bytes)
    ret true

/-- The generation an existing profile pointer names. -/
def readOptionalPointer (file : Option (StoredFile GenerationId)) :
    Except SetupError (Option GenerationId) :=
  match file with
  | none => .ok none
  | some content => match content.parse with
    | none => .error .invalidPointer
    | some generation => .ok (some generation)

def materializeActive : Prog (Machine χ) SetupError (Option GenerationId) := do
  match ← inspect .io fun m => readOptionalPointer m.activeProfile with
  | none => ret none
  | some generation =>
    let _ ← materializeGeneration env generation
    ret (some generation)

/-! ## Clearing and restoring -/

/-- Deletes the generated profile if it holds the expected bytes. The result of the
deletion itself can stay unknown. -/
def removeExactMaterializedProfile (root : String) (expected : Bytes) :
    Prog (Machine χ) SetupError (Except MaterializedProfileClearError Unit) := do
  let checked ← (inspect (.cleanupUnknown
      "generated runtime profile could not be exclusively inspected") fun m =>
    match m.generatedProfile root with
    | none => .error (.cleanupUnknown
        "generated runtime profile could not be exclusively inspected")
    | some actual => do
      require (actual != [] && actual.length ≤ maxProfileBytes)
        (.cleanupUnknown "generated runtime profile is not a bounded regular file")
      require (actual == expected)
        (.cleanupUnknown "generated runtime profile differs from the active generation")).attempt
  match checked with
  | .error e => ret (.error (.unchanged e))
  | .ok () =>
    match ← (act (.cleanupUnknown "generated runtime profile could not be exclusively inspected")
      fun m => .ok (m.setGeneratedProfile root none)).attempt with
    | .error e => ret (.error (.unknown e))
    | .ok () => ret (.ok ())

def clearMaterializedGeneration (generation : GenerationId) :
    Prog (Machine χ) SetupError (Except MaterializedProfileClearError Bool) := do
  match ← (inspect .io activeRuntimeRoot).attempt with
  | .error e => ret (.error (.unchanged e))
  | .ok none => ret (.ok false)
  | .ok (some root) =>
    let present ← (inspect (.cleanupUnknown
      "generated runtime profile could not be exclusively inspected") fun m =>
        .ok (m.generatedProfile root).isSome).attempt
    match present with
    | .error e => ret (.error (.unchanged e))
    | .ok false => ret (.ok false)
    | .ok true =>
      match ← (inspect .tamperedGeneration fun m =>
        verifiedGenerationBytes env m generation).attempt with
      | .error e => ret (.error (.unchanged e))
      | .ok expected =>
        match ← removeExactMaterializedProfile root expected with
        | .error e => ret (.error e)
        | .ok () => ret (.ok true)

/-- Creates the generated profile in place, for which it must not exist. A write that is
caught leaves the file as far as it has come. -/
def createGeneratedProfile (root : String) (expected : Bytes) :
    Prog (Machine χ) SetupError Unit :=
  step (.cleanupUnknown "confirmed profile restoration did not write exact bytes")
    (fun m => (env.caughtWrites expected).map fun content =>
      m.setGeneratedProfile root (some content))
    fun m => .ok ((), m.setGeneratedProfile root (some expected))

def restoreGenerationAfterConfirmedClear (generation : GenerationId) :
    Prog (Machine χ) SetupError Bool := do
  match ← inspect .io activeRuntimeRoot with
  | none => ret false
  | some root =>
    let expected ← inspect .tamperedGeneration fun m => verifiedGenerationBytes env m generation
    let present ← inspect (.cleanupUnknown
      "confirmed profile restoration could not inspect its destination") fun m =>
        .ok (m.generatedProfile root)
    match present with
    | none => createGeneratedProfile env root expected
    | some actual =>
      ensure (actual != [] && actual.length ≤ maxProfileBytes)
        (.cleanupUnknown "confirmed profile restoration could not verify its destination")
      ensure (actual == expected)
        (.cleanupUnknown "confirmed profile restoration found foreign destination bytes")
    ret true

end MacTypeControl.Storage
