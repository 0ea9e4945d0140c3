import MacTypeControl.Legacy.Transaction

/-!
# The migration from the legacy service

The migration stops the legacy service, publishes the profile and brings up the new
service; a failure on the way rolls back the new service and restores the legacy one.
Every action on the new service may fail with or without effect.
-/

namespace MacTypeControl.Integration

open Crash Crash.Prog Legacy

inductive SystemServiceAction where
  | install
  | upgrade
  | remove
  | start
  | stop
  | publishProfile
  deriving DecidableEq

/-- What a look at the new service shows. -/
structure OpenServiceStatus where
  backend : ServiceBackend
  installation : InstallationState
  runtime : RuntimeState
  binaryPath : Option String

structure MigrationVerification where
  scmRunningReady : Bool
  activeDigestMatch : Bool
  telemetryVerified : Bool

def MigrationVerification.permitsRemoval (verification : MigrationVerification) : Bool :=
  verification.scmRunningReady && verification.activeDigestMatch && verification.telemetryVerified

/-- The surroundings of the migration: the legacy installation, the digest of a
profile, the binaries the new service may be configured with, and the checks of the
running service. -/
structure MigrationBackend where
  legacy : Installation
  digest : Bytes → String
  payloadBinary : String
  pinnedBinary : String
  strictReady : Machine → String → Except String Bool
  injectionSmoke : Machine → String → Except String Bool
  removalVerification : Machine → String → Except String MigrationVerification

/-! ## The new service -/

/-- A service that is not stopped is running or may still be running. -/
def MayRun (runtime : RuntimeState) : Prop := runtime ≠ .stopped

instance (runtime : RuntimeState) : Decidable (MayRun runtime) :=
  inferInstanceAs (Decidable (runtime ≠ .stopped))

def status (service : OpenService) : OpenServiceStatus :=
  match service.installation with
  | .absent => ⟨.none, .absent, .stopped, none⟩
  | .current => ⟨.openSource, .current, service.runtime, service.binaryPath⟩
  | .outdated => ⟨.openSource, .outdated, service.runtime, service.binaryPath⟩
  | .invalid => ⟨.foreign, .invalid, service.runtime, service.binaryPath⟩
  | .inaccessible => ⟨.none, .inaccessible, .unknown, service.binaryPath⟩
  | .deletePending => ⟨.openSource, .deletePending, .unknown, none⟩

def inaccessible : OpenServiceStatus := ⟨.none, .inaccessible, .unknown, none⟩

def query : Migration OpenServiceStatus :=
  (inspect "" fun m => .ok (status m.openService)).handle fun _ => .ret inaccessible

def isInstalled (service : OpenService) : Bool :=
  service.installation = .current || service.installation = .outdated

def setOpenService (m : Machine) (openService : OpenService) : Machine := { m with openService }

/-- The full effect of a setup action on the new service. -/
def SystemServiceAction.effect (backend : MigrationBackend) (service : OpenService) :
    SystemServiceAction → Except String OpenService
  | .stop =>
    if isInstalled service then .ok { service with runtime := .stopped }
    else if service.installation = .absent then .ok service
    else .error "the fixed service name is not owned"
  | .publishProfile => .ok service
  | .install =>
    if service.installation = .absent then
      .ok ⟨.current, .stopped, some backend.payloadBinary⟩
    else .error "the fixed service name already exists; refusing to replace it"
  | .upgrade =>
    if isInstalled service then
      .ok { service with installation := .current, binaryPath := some backend.payloadBinary }
    else .error "the open service is not installed"
  | .start =>
    if isInstalled service then .ok { service with runtime := .running }
    else .error "the open service is not installed"
  | .remove => .ok ⟨.absent, .stopped, none⟩

/-- How far a stop can have come. -/
def stopping (service : OpenService) : List OpenService :=
  if service.runtime = .stopped then []
  else [{ service with runtime := .stopped }, { service with runtime := .stopPending }]

/-- What a setup action that fails can leave behind. An upgrade brings a running
service up again; only it and a start can set a stopped service going. -/
def SystemServiceAction.partials (backend : MigrationBackend) (service : OpenService) :
    SystemServiceAction → List OpenService
  | .stop => stopping service
  | .publishProfile => []
  | .install =>
    [⟨.current, .stopped, some backend.payloadBinary⟩,
      ⟨.invalid, .stopped, some backend.payloadBinary⟩]
  | .upgrade =>
    let upgraded : OpenService :=
      ⟨.current, service.runtime, some backend.payloadBinary⟩
    if service.runtime = .running then
      stopping service ++ [{ upgraded with runtime := .stopped },
        { upgraded with runtime := .startPending }, upgraded]
    else [upgraded]
  | .start => [{ service with runtime := .startPending }, { service with runtime := .running }]
  | .remove =>
    stopping service ++ [{ service with installation := .deletePending }, ⟨.absent, .stopped, none⟩]

def runSetup (backend : MigrationBackend) (action : SystemServiceAction) : Migration Unit :=
  step "the setup action failed"
    (fun m => (action.partials backend m.openService).map (setOpenService m))
    fun m => (action.effect backend m.openService).map fun service => ((), setOpenService m service)

/-- Puts the service back on the runtime that was pinned; it stops it and does not
start it. -/
def runRestorePinnedRuntime (backend : MigrationBackend) : Migration Unit :=
  step "the pinned runtime could not be restored"
    (fun m => (stopping m.openService).map (setOpenService m))
    fun m =>
      if isInstalled m.openService then
        .ok ((), setOpenService m { m.openService with
          runtime := .stopped, binaryPath := some backend.pinnedBinary })
      else .error "the open service is not installed"

/-- Work on protected files, which are no part of this machine: it can only fail. -/
def protectedFiles (io : String) : Migration Unit := modify io id

/-! ## The steps of the migration -/

def isStableRuntime (runtime : RuntimeState) : Bool := runtime = .running || runtime = .stopped

def installationSafe (status : OpenServiceStatus) : Bool :=
  match status.installation with
  | .absent => true
  | .current | .outdated => status.backend = .openSource && isStableRuntime status.runtime
  | _ => false

def captureOpenService : Migration OpenServiceStatus := do
  let status ← query
  ensure (installationSafe status) "the open service is foreign, transitional, or inaccessible"
  protectedFiles "the protected state could not be captured"
  .ret status

def samePath : Option String → Option String → Bool
  | some current, some saved => sameText current saved
  | _, _ => false

def unchangedSince (snapshot current : OpenServiceStatus) : Bool :=
  match snapshot.installation with
  | .absent => current.installation = .absent
  | .current | .outdated => current.backend = .openSource &&
      current.installation = snapshot.installation && isStableRuntime current.runtime &&
      samePath current.binaryPath snapshot.binaryPath
  | _ => false

def ensureOpenServiceUnchanged (snapshot : OpenServiceStatus) : Migration Unit := do
  let current ← query
  ensure (unchangedSince snapshot current)
    "the fixed open service state changed during migration"

def combineMutationRecording (operation recording : Migration Unit) : Migration Unit := do
  let operation ← operation.attempt
  let recording ← recording.attempt
  match operation, recording with
  | .ok (), .ok () => .ret ()
  | .error error, .ok () => .throw error
  | .ok (), .error recording =>
    .throw ("machine mutation completed but cleanup ownership is unknown: " ++ recording)
  | .error error, .error recording =>
    .throw (error ++ "; cleanup ownership is unknown: " ++ recording)

def recordProtectedMutations : Migration Unit :=
  protectedFiles "the protected mutations could not be recorded"

variable (backend : MigrationBackend)

def stopAndPublish : Migration Unit := do
  let state ← query
  (runSetup backend .stop).whenever (state.runtime = .running)
  runSetup backend .publishProfile

def publishProfile (snapshot : OpenServiceStatus) : Migration Unit := do
  ensureOpenServiceUnchanged snapshot
  combineMutationRecording (stopAndPublish backend) recordProtectedMutations

def migrationActivationActions : InstallationState → Except String (List SystemServiceAction)
  | .absent => .ok [.install, .start]
  | .outdated => .ok [.upgrade, .start]
  | .current => .ok [.start]
  | _ => .error "the open service snapshot cannot be activated safely"

def runActions : List SystemServiceAction → Migration Unit
  | [] => .ret ()
  | action :: actions => do
    runSetup backend action
    runActions actions

def activateOpenService (snapshot : OpenServiceStatus) : Migration Unit := do
  ensureOpenServiceUnchanged snapshot
  combineMutationRecording
    (do
      let actions ← ofExcept (migrationActivationActions snapshot.installation)
      runActions backend actions)
    recordProtectedMutations

/-- A check that has to answer yes. -/
def verify (check : Machine → Except String Bool) (message : String) : Migration Unit := do
  let passed ← inspect "the check could not be made" check
  ensure passed message

/-! ## Rolling back the new service -/

def isControllable (current : OpenServiceStatus) : Bool :=
  current.installation = .absent || (current.backend = .openSource &&
    (current.installation = .current || current.installation = .outdated))

def isTransitional (runtime : RuntimeState) : Bool :=
  runtime = .startPending || runtime = .stopPending

def stopForRollback : Migration Unit := do
  let current ← query
  ensure (isControllable current) "the fixed service name is foreign or inaccessible"
  ensure (!isTransitional current.runtime) "the open service is transitional during rollback"
  (runSetup backend .stop).whenever (current.runtime = .running)

def removeNewInstallation (snapshot : OpenServiceStatus) : Migration Unit :=
  if snapshot.installation = .absent then do
    let current ← query
    (runSetup backend .remove).whenever (current.installation ≠ .absent)
  else .ret ()

def restoreOpenService (snapshot : OpenServiceStatus) : Migration Unit :=
  match snapshot.installation with
  | .absent => .ret ()
  | .current | .outdated => do
    runRestorePinnedRuntime backend
    (runSetup backend .start).whenever (snapshot.runtime = .running)
  | _ => .throw "the saved open service state is unsafe to restore"

def restoreStopped (snapshot : OpenServiceStatus) : Migration Unit := do
  removeNewInstallation backend snapshot
  protectedFiles "the protected state could not be restored"
  restoreOpenService backend snapshot
  protectedFiles "the migration runtime pin could not be released"
  protectedFiles "the protected directories could not be removed"

def rollbackOpenServiceSnapshot (snapshot : OpenServiceStatus) : Migration Unit := do
  stopForRollback backend
  restoreStopped backend snapshot

def restoreLegacy : Migration Unit := do
  let _ ← backend.legacy.rollback
  .ret ()

/-- The legacy service is restored whatever became of the new one. -/
def restoreLegacyAndReport (stage primary : String) (openRollback : Except String Unit) :
    Migration ActionFailure := do
  let legacyRollback ← (restoreLegacy backend).attempt
  let error := stage ++ ": " ++ primary
  let error := match openRollback with
    | .ok () => error
    | .error rollback => error ++ "; open service rollback failed: " ++ rollback
  let error := match legacyRollback with
    | .ok () => error
    | .error rollback => error ++ "; legacy service restore failed: " ++ rollback
  let completed := openRollback.toBool && legacyRollback.toBool
  .ret ((ActionFailure.internalAt stage error).withRollback
    (if completed then .completed else .failed))

def rollbackMigrationFailure (snapshot : OpenServiceStatus) (stage primary : String) :
    Migration ActionFailure := do
  let openRollback ← (rollbackOpenServiceSnapshot backend snapshot).attempt
  restoreLegacyAndReport backend stage primary openRollback

/-! ## The migration -/

/-- Goes on only if the step completes, and names the stage it failed in. -/
def inStage (stage : String) (program : Migration Unit)
    (next : Migration (Option (String × String))) : Migration (Option (String × String)) := do
  match ← program.attempt with
  | .ok () => next
  | .error error => .ret (some (stage, error))

/-- The stages that change the machine, up to the first one that fails. -/
def changeMachine (snapshot : OpenServiceStatus) (profile : Bytes) :
    Migration (Option (String × String)) :=
  let expected := backend.digest profile
  inStage "stop legacy service" (do let _ ← backend.legacy.stopLegacy; .ret ()) <|
  inStage "publish active profile" (publishProfile backend snapshot) <|
  inStage "activate open service" (activateOpenService backend snapshot) <|
  inStage "verify open service readiness"
    (verify (fun m => backend.strictReady m expected)
      "strict Ready or profile digest mismatch") <|
  inStage "verify x86/x64 injection smoke"
    (verify (fun m => backend.injectionSmoke m expected)
      "both fixed-architecture marker processes were not injected") <|
  inStage "complete migration runtime protection"
    (protectedFiles "the migration runtime pin could not be released") <|
  .ret none

/-- A blocked failure is handed on as it is. The backup is blocked by the registry mode alone. -/
def backupFailure (env : Legacy.Installation) (error : String) : ActionFailure :=
  if env.registryConflict then
    { ActionFailure.internal "AppInit registry mode conflicts with legacy service migration" with
      blocker := some "blocker/appinit-registry-mode-conflict" }
  else .internalAt "prepare legacy backup" ("prepare legacy backup: " ++ error)

/-- The migration up to the point where it has succeeded, has given up before it
changed anything, or has to roll back a failed stage. -/
def attemptMigration (profile : Bytes) :
    Migration (Except ActionFailure (OpenServiceStatus × Option (String × String))) := do
  match ← backend.legacy.prepareBackup.attempt with
  | .error error =>
    .ret (.error (backupFailure backend.legacy error))
  | .ok _ =>
    if ← backend.legacy.backupIsValid then
      match ← captureOpenService.attempt with
      | .error error =>
        .ret (.error (.internalAt "capture open service state"
          ("capture open service state: " ++ error)))
      | .ok snapshot => do
        let failed ← changeMachine backend snapshot profile
        .ret (.ok (snapshot, failed))
    else
      .ret (.error (.internalAt "validate legacy backup"
        "validate legacy backup: backup receipt is invalid"))

def migrateFromLegacy (profile : Bytes) : Migration (Except ActionFailure Unit) := do
  match ← attemptMigration backend profile with
  | .error failure => .ret (.error failure)
  | .ok (_, none) => .ret (.ok ())
  | .ok (snapshot, some (stage, primary)) => do
    let failure ← rollbackMigrationFailure backend snapshot stage primary
    .ret (.error failure)

/-! ## Removing the legacy service -/

def verifiedForRemoval (expected : String) : Migration MigrationVerification :=
  inspect "the removal could not be verified" fun m => backend.removalVerification m expected

def removeLegacy (expected : String) : Migration Unit := do
  let verification ← verifiedForRemoval backend expected
  ensure verification.permitsRemoval "legacy removal verification changed before SCM deletion"
  let valid ← backend.legacy.backupIsValid
  let _ ← backend.legacy.removeAfterVerified
    ⟨verification.scmRunningReady, verification.activeDigestMatch, valid⟩
  .ret ()

/-- A failed removal does not restart the legacy service: by then the new service is
the live injector. -/
def removeLegacyAfterVerification (profile : Bytes) : Migration (Except ActionFailure Unit) := do
  if ← backend.legacy.backupIsValid then
    let expected := backend.digest profile
    match ← (verifiedForRemoval backend expected).attempt with
    | .error error =>
      .ret (.error (.internalAt "verify legacy removal gate"
        ("verify legacy removal gate: " ++ error)))
    | .ok verification =>
      if verification.permitsRemoval then
        match ← (removeLegacy backend expected).attempt with
        | .ok () => .ret (.ok ())
        | .error error =>
          .ret (.error ((ActionFailure.internalAt "remove legacy service"
            ("remove legacy service: " ++ error ++
              "; the legacy service remains stopped and disabled")).withRollback
            .failClosedLegacyStopped))
      else
        .ret (.error (.internalAt "verify legacy removal gate"
          "verify legacy removal gate: Ready, profile digest, or x86/x64 telemetry is missing"))
  else
    .ret (.error (.internalAt "validate legacy backup"
      "validate legacy backup: backup receipt is invalid"))

end MacTypeControl.Integration
