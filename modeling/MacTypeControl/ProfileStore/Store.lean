import MacTypeControl.Storage.Bridge
import MacTypeControl.Text.Chars

/-!
# The profile store

Publishing a profile, making a generation the active one, and rolling back, under
a journal from which an interrupted activation is recovered. Questions whether a pointer or the
journal exists are taken to be answered.
-/

namespace MacTypeControl.ProfileStore

open Crash Crash.Prog Profile Storage

variable {χ : Type} (env : StorageEnvironment)

structure SourceMetadata where
  displayName : String

inductive ProfilePointer where
  | active
  | previous
  deriving DecidableEq

def readPointer (m : Machine χ) : ProfilePointer → Except SetupError (Option GenerationId)
  | .active => readOptionalPointer m.activeProfile
  | .previous => readOptionalPointer m.previousProfile

def setPointer (m : Machine χ) (content : Option (StoredFile GenerationId)) :
    ProfilePointer → Machine χ
  | .active => { m with activeProfile := content }
  | .previous => { m with previousProfile := content }

def writePointer (pointer : ProfilePointer) (generation : GenerationId) :
    Prog (Machine χ) SetupError Unit :=
  modify .io fun m => setPointer m (some (.written generation)) pointer

def restorePointer (pointer : ProfilePointer) :
    Option GenerationId → Prog (Machine χ) SetupError Unit
  | some generation => writePointer pointer generation
  | none => modify .io fun m => setPointer m none pointer

def verifyGeneration (m : Machine χ) (generation : GenerationId) : Except SetupError Unit := do
  let _ ← verifiedGenerationBytes env m generation
  .ok ()

def verifyOptionalGeneration (m : Machine χ) : Option GenerationId → Except SetupError Unit
  | none => .ok ()
  | some generation => verifyGeneration env m generation

/-! ## The journal -/

def writeActivationJournal (phase : ProfileActivationPhase)
    (activeBefore previousBefore : Option GenerationId) : Prog (Machine χ) SetupError Unit :=
  modify .io fun m => { m with
    profileJournal := some (.written (.current ⟨phase, activeBefore, previousBefore⟩)) }

def removeActivationJournal : Prog (Machine χ) SetupError Unit :=
  modify .io fun m => { m with profileJournal := none }

/-- A journal of the first schema knew only one phase. -/
def parseActivationJournal (file : StoredFile ProfileJournalFile) :
    Except SetupError ProfileActivationJournal :=
  match file.parse with
  | none => .error (.runtime "profile activation journal is invalid")
  | some (.current journal) => .ok journal
  | some (.legacy activeBefore previousBefore) =>
    .ok ⟨.pointerTransition, activeBefore, previousBefore⟩

/-! ## Recovery -/

/-- A first-profile rollback that was interrupted before its deletion was confirmed: the
profile stays active, and is written again if it has gone. -/
def recoverDeletePending (journal : ProfileActivationJournal) :
    Prog (Machine χ) SetupError Unit := do
  let activeBefore ← ofExcept (match journal.activeBefore with
    | some activeBefore => .ok activeBefore
    | none => .error (.cleanupUnknown
        "uncertain first-profile rollback journal has no active generation"))
  let activeNow ← inspect .io fun m => readPointer m .active
  let previousNow ← inspect .io fun m => readPointer m .previous
  ensure (activeNow == some activeBefore && previousNow == journal.previousBefore)
    (.cleanupUnknown "profile pointers changed while first-profile deletion was uncertain")
  match ← inspect (.cleanupUnknown "uncertain profile cleanup could not inspect its destination")
      fun m => observeMaterializedGeneration env m activeBefore with
  | .exactGeneration => ret ()
  | .absent =>
    let _ ← restoreGenerationAfterConfirmedClear env activeBefore
    ret ()

/-- Takes a profile out of the runtime again that was not there before its activation. -/
def withdrawFirstProfile : Option GenerationId → Prog (Machine χ) SetupError Unit
  | some activeAfter => do
    match ← clearMaterializedGeneration env activeAfter with
    | .ok _ => ret ()
    | .error e => throw e.intoSetupError
  | none => inspect .io ensureMaterializedProfileAbsent

def recoverPointers (journal : ProfileActivationJournal) : Prog (Machine χ) SetupError Unit := do
  restorePointer .active journal.activeBefore
  restorePointer .previous journal.previousBefore
  match journal.activeBefore with
  | none => ret ()
  | some active =>
    if journal.phase = .firstRollbackDeleteConfirmed then
      let _ ← restoreGenerationAfterConfirmedClear env active
      ret ()
    else
      let _ ← materializeGeneration env active
      ret ()

def recoverJournal (journal : ProfileActivationJournal) : Prog (Machine χ) SetupError Unit := do
  inspect .tamperedGeneration fun m => verifyOptionalGeneration env m journal.activeBefore
  inspect .tamperedGeneration fun m => verifyOptionalGeneration env m journal.previousBefore
  match journal.phase with
  | .firstRollbackDeletePending => recoverDeletePending env journal
  | .pointerTransition =>
    let activeAfter ← inspect .io fun m => readPointer m .active
    inspect .tamperedGeneration fun m => verifyOptionalGeneration env m activeAfter
    whenever (journal.activeBefore = none) (withdrawFirstProfile env activeAfter)
    recoverPointers env journal
  | .firstRollbackDeleteConfirmed => recoverPointers env journal

def recoverInterruptedActivation : Prog (Machine χ) SetupError Bool := do
  match ← observe fun m : Machine χ => m.profileJournal with
  | none => ret false
  | some file =>
    let journal ← inspect .io fun _ => parseActivationJournal file
    recoverJournal env journal
    removeActivationJournal
    ret true

def finishActivationTransaction (transition : Prog (Machine χ) SetupError Unit) :
    Prog (Machine χ) SetupError Unit := do
  match ← transition.attempt with
  | .ok () => removeActivationJournal
  | .error e =>
    match ← (recoverInterruptedActivation env).attempt with
    | .ok _ => throw e
    | .error recovery => throw (.runtime
        s!"profile transition failed ({e.text}) and journal recovery failed ({recovery.text})")

/-! ## Activation -/

def activate (generation : GenerationId) : Prog (Machine χ) SetupError Unit := do
  let _ ← recoverInterruptedActivation env
  inspect .tamperedGeneration fun m => verifyGeneration env m generation
  let active ← inspect .io fun m => readPointer m .active
  if active = some generation then
    let _ ← materializeGeneration env generation
    ret ()
  else
    let previousBefore ← inspect .io fun m => readPointer m .previous
    writeActivationJournal .pointerTransition active previousBefore
    finishActivationTransaction env do
      match active with
      | none => ret ()
      | some active =>
        inspect .tamperedGeneration fun m => verifyGeneration env m active
        writePointer .previous active
      writePointer .active generation
      let _ ← materializeGeneration env generation
      ret ()

/-- Stores the bytes of a generation. They are written into a directory with a name of
its own, which is then renamed. -/
def publishGeneration (generation : GenerationId) (profileBytes : Bytes) :
    Prog (Machine χ) SetupError Unit := do
  match ← observe fun m : Machine χ => m.profileGenerations generation with
  | some stored =>
    inspect .tamperedGeneration fun m => verifyGeneration env m generation
    let stored ← ofExcept (readBoundedRegularFile stored maxProfileBytes "profile generation")
    ensure (stored == profileBytes) .tamperedGeneration
  | none =>
    inspect .io fun _ => .ok ()
    modify .io fun m => { m with
      profileGenerations := Function.update m.profileGenerations generation (some profileBytes) }
    inspect .tamperedGeneration fun m => verifyGeneration env m generation

def publishAndActivate (profileBytes : Bytes) (sourceMetadata : SourceMetadata) :
    Prog (Machine χ) SetupError GenerationId := do
  let _ ← recoverInterruptedActivation env
  ensure (Text.trim sourceMetadata.displayName.toList != [] &&
    sourceMetadata.displayName.utf8ByteSize ≤ 256) .invalidMetadata
  let generation ← ofExcept (publishMachineProfile env profileBytes)
  publishGeneration env generation profileBytes
  activate env generation
  ret generation

/-! ## Rollback -/

/-- Takes the first profile out of the runtime and records that it is gone. -/
def clearFirstProfile (active : GenerationId) : Prog (Machine χ) SetupError Unit := do
  match ← clearMaterializedGeneration env active with
  | .ok _ => ret ()
  | .error (.unchanged e) =>
    match ← removeActivationJournal.attempt with
    | .ok () => throw e
    | .error journalError => throw (.cleanupUnknown
        s!"profile was unchanged after cleanup rejection ({e.text}), but the activation journal could not be removed ({journalError.text})")
  | .error (.unknown e) => throw e
  inspect (.cleanupUnknown "generated runtime profile could not be inspected")
    ensureMaterializedProfileAbsent
  (writeActivationJournal .firstRollbackDeleteConfirmed (some active) none).mapError fun e =>
    .cleanupUnknown s!"generated profile was deleted, but its confirmed rollback phase could not be persisted: {e.text}"

def rollback : Prog (Machine χ) SetupError (Option GenerationId) := do
  let _ ← recoverInterruptedActivation env
  let active ← inspect .io fun m => readPointer m .active
  let active ← ofExcept (match active with
    | some active => .ok active
    | none => .error .invalidPointer)
  let previous ← inspect .io fun m => readPointer m .previous
  inspect .tamperedGeneration fun m => verifyGeneration env m active
  inspect .tamperedGeneration fun m => verifyOptionalGeneration env m previous
  match previous with
  | none => do
    writeActivationJournal .firstRollbackDeletePending (some active) none
    clearFirstProfile env active
    finishActivationTransaction env do
      restorePointer .active none
      restorePointer .previous none
    ret none
  | some previous => do
    writeActivationJournal .pointerTransition (some active) (some previous)
    finishActivationTransaction env do
      writePointer .previous active
      writePointer .active previous
      let _ ← materializeGeneration env previous
      ret ()
    ret (some previous)

end MacTypeControl.ProfileStore
