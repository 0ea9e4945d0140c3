import MacTypeControl.Crash.Zoom
import MacTypeControl.Installer.BoundRecovery

/-!
# Activating a generation

One journaled transaction makes a staged generation the active one: the candidate journal is
written before the pointer is switched, the pointer is switched before the profile is
materialized, and the commit phase is durable before the health check runs.
-/

namespace MacTypeControl.Installer

open Crash Crash.Prog Profile Storage

variable {χ : Type} (env : StorageEnvironment)

/-- What the setup does not own of the machine, such as the service. -/
def surroundingsPart : Part (Machine χ) χ where
  get m := m.surroundings
  put surroundings m := { m with surroundings }
  get_put _ _ := rfl
  put_get _ := rfl
  put_put _ _ _ := rfl

/-! ## The receipt -/

def activationReceipt (phase : RuntimeActivationPhase) (previous : Option RuntimeVersion)
    (activated : RuntimeVersion) : StoredFile ParsedRuntimeActivationReceipt :=
  .written (.current ⟨phase, previous, activated⟩)

def RuntimeActivationPhase.debug : RuntimeActivationPhase → String
  | .candidate => "Candidate"
  | .committed => "Committed"
  | .rollbackRequired => "RollbackRequired"

def setActivationJournal (content : Option (StoredFile ParsedRuntimeActivationReceipt))
    (m : Machine χ) : Machine χ := { m with activationJournal := content }

def writeActivationJournal (previous : Option RuntimeVersion) (activated : RuntimeVersion) :
    Prog (Machine χ) SetupError Unit :=
  modify .io (setActivationJournal (some (activationReceipt .candidate previous activated)))

def verifyExactActivationReceipt (expected : StoredFile ParsedRuntimeActivationReceipt)
    (phase : RuntimeActivationPhase) (m : Machine χ) : Except SetupError Unit :=
  match m.activationJournal with
  | none => .error .io
  | some actual => require (actual = expected)
      (.cleanupUnknown ("runtime activation receipt changed before the " ++
        RuntimeActivationPhase.debug phase ++ " phase could transition"))

def persistActivationPhase (previous : Option RuntimeVersion) (activated : RuntimeVersion)
    (phase : RuntimeActivationPhase) : Prog (Machine χ) SetupError Unit := do
  modify .io (setActivationJournal (some (activationReceipt phase previous activated)))
  inspect .io fun m => match m.activationJournal with
    | none => .error .io
    | some persisted => require (persisted = activationReceipt phase previous activated)
        (.cleanupUnknown ("the " ++ RuntimeActivationPhase.debug phase ++
          " runtime activation receipt could not be verified"))

def readRuntimePointer (m : Machine χ) : Except SetupError (Option RuntimeVersion) :=
  match m.runtimePointer with
  | none => .ok none
  | some file => match file.parse with
    | none => .error (.runtime "active runtime pointer is invalid")
    | some version => .ok (some version)

def commitActivationJournal (previous : Option RuntimeVersion) (activated : RuntimeVersion) :
    Prog (Machine χ) SetupError Unit := do
  inspect .io (verifyExactActivationReceipt (activationReceipt .candidate previous activated)
    .candidate)
  match ← inspect .io readRuntimePointer with
  | none => throw .io
  | some pointer => do
    ensure (pointer = activated) (.cleanupUnknown
      "active runtime pointer changed before the candidate phase could commit")
    persistActivationPhase previous activated .committed

/-- A failed activation is on record before anything of it is taken back. -/
def requireActivationRollback (previous : Option RuntimeVersion) (activated : RuntimeVersion) :
    Prog (Machine χ) SetupError Unit := do
  match ← inspect .io fun m : Machine χ => .ok m.activationJournal with
  | none => throw .io
  | some actual =>
    if actual = activationReceipt .rollbackRequired previous activated then ret ()
    else do
      ensure (actual = activationReceipt .candidate previous activated ∨
          actual = activationReceipt .committed previous activated)
        (.cleanupUnknown
          "runtime activation receipt changed before rollback could be required")
      persistActivationPhase previous activated .rollbackRequired

/-- Whether the receipt could be removed. It can stay as long as it is the committed one. -/
def finalizeCommittedActivation (previous : Option RuntimeVersion) (activated : RuntimeVersion) :
    Prog (Machine χ) SetupError Bool := do
  let committed := activationReceipt .committed previous activated
  inspect .io (verifyExactActivationReceipt committed .committed)
  match ← (removeActivationJournal (χ := χ)).attempt with
  | .ok () => ret true
  | .error removal => do
    (inspect .io (verifyExactActivationReceipt committed .committed)).mapError fun verification =>
      .cleanupUnknown ("Ready activation receipt cleanup failed (" ++ removal.text ++
        ") and the committed receipt could not be reverified (" ++ verification.text ++ ")")
    ret false

/-! ## The activation -/

/-- The part of an activation that is rolled back where it fails. -/
def materializeAndCommit (previous : Option RuntimeVersion) (version : RuntimeVersion)
    (prepare healthCheck : Prog χ SetupError Unit) : Prog (Machine χ) SetupError Unit := do
  let _ ← (materializeActive env).mapError
    (·.atMachinePath "materialize active runtime profile")
  (zoom surroundingsPart prepare).mapError (·.atMachinePath "prepare runtime activation")
  (commitActivationJournal previous version).mapError
    (·.atMachinePath "commit runtime activation receipt")
  (zoom surroundingsPart healthCheck).mapError
    (·.atMachinePath "run runtime activation health check")

def rollbackFailed (error : SetupError) (failure : String) : SetupError :=
  .rollbackFailed ("runtime activation failed (" ++ error.text ++ ")")
    ("rollback remained incomplete: " ++ failure ++ ". The activation journal was retained")

def rollBackActivation (previous : Option RuntimeVersion) (version : RuntimeVersion)
    (error : SetupError) : Prog (Machine χ) SetupError Unit := do
  match ← (restoreRuntimePointer (χ := χ) previous (some version)).attempt with
  | .error e => throw (rollbackFailed error ("pointer restoration failed: " ++ e.text ++
      "; profile rematerialization was skipped because pointer ownership was unknown"))
  | .ok () =>
    match ← (materializeActive (χ := χ) env).attempt with
    | .error e => throw (rollbackFailed error ("profile rematerialization failed: " ++ e.text))
    | .ok _ =>
      match ← (removeActivationJournal (χ := χ)).attempt with
      | .error e => throw (rollbackFailed error ("activation journal cleanup failed: " ++ e.text))
      | .ok () => throw error

def failActivation (previous : Option RuntimeVersion) (version : RuntimeVersion)
    (deferExternalRollback : Bool) (error : SetupError) : Prog (Machine χ) SetupError Unit := do
  match ← (requireActivationRollback (χ := χ) previous version).attempt with
  | .error receipt => throw (.cleanupUnknown ("runtime activation failed (" ++ error.text ++
      "); rollback was not attempted because its fail-closed receipt could not be persisted (" ++
      receipt.text ++ ")"))
  | .ok () =>
    if deferExternalRollback = true then throw error
    else rollBackActivation env previous version error

/-- Makes the generation the active one, and returns the one that was. -/
def activate (version : RuntimeVersion) (prepare healthCheck : Prog χ SetupError Unit)
    (deferExternalRollback : Bool) : Prog (Machine χ) SetupError (Option RuntimeVersion) := do
  let previous ← inspect .io readRuntimePointer
  (writeActivationJournal previous version).mapError
    (·.atMachinePath "write candidate runtime activation receipt")
  (modify .io (setRuntimePointer (some (.written version)))).mapError
    (·.atMachinePath "switch active runtime pointer")
  (materializeAndCommit env previous version prepare healthCheck).handle
    (failActivation env previous version deferExternalRollback)
  ret previous

/-! ## Recovery -/

def recoverActivationJournal (journal : ParsedRuntimeActivationReceipt) :
    Prog (Machine χ) SetupError Unit :=
  if Receipt.phase journal = some .committed then finishCommittedActivationRecovery env journal
  else rollbackActivationPointerAndProfile env (Receipt.previous journal)
    (Receipt.activated journal)

/-- The recovery of an activation that is bound to nothing outside. -/
def recover : Prog (Machine χ) SetupError (Option RuntimeVersion) := do
  match ← observe fun m : Machine χ => m.activationJournal with
  | none => inspect .io current
  | some file =>
    let journal ← readActivationJournal file
    recoverActivationJournal env journal
    let recovered ← inspect .io current
    removeActivationJournal
    ret recovered

end MacTypeControl.Installer
