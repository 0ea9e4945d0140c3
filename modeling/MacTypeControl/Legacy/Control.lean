import MacTypeControl.Crash.Logic
import MacTypeControl.Integration.Status
import MacTypeControl.Legacy.Scm

/-!
# Controlling the legacy service

The operations of the migration on the service manager. Each change of the
service may be caught before or after it took effect.
-/

namespace MacTypeControl.Legacy

open Crash Crash.Prog

inductive MigrationStage where
  | backupPrepared
  | legacyStopped
  | legacyRemoved
  | rollbackCompleted
  deriving DecidableEq

inductive BackupRole where
  | configuration
  | activeProfile
  | configurationAndActiveProfile
  deriving DecidableEq

structure BackupFileReceipt where
  role : BackupRole
  originalPath : String
  backupFile : String
  byteLength : ℕ
  sha256 : String
  deriving DecidableEq

inductive ProfileBackupReceipt where
  | present (file : BackupFileReceipt)
  | absent (role : BackupRole) (originalPath : String)
  deriving DecidableEq

structure RegistryExportReceipt where
  exportFile : String
  byteLength : ℕ
  sha256 : String
  deriving DecidableEq

structure MigrationReceipt where
  generation : ℕ
  installationRoot : String
  service : LegacyScmSnapshot
  completedStages : List MigrationStage
  serviceRegistry : RegistryExportReceipt
  files : List ProfileBackupReceipt
  deriving DecidableEq

/-- The files of one backup generation. -/
structure GenerationDirectory where
  backups : List (String × Bytes)
  registryExport : Option Bytes
  receipt : Option MigrationReceipt

structure OpenService where
  installation : Integration.InstallationState
  runtime : Integration.RuntimeState
  binaryPath : Option String

/-- The machine the migration works on. `past` and `legacyStarts` only watch: every
state the legacy service has been in since the current pointer was written, newest
first, and the state of the new service whenever the legacy service was started. -/
structure Machine where
  service : Option LegacyService
  past : List (Option LegacyService)
  files : String → Option Bytes
  generations : ℕ → Option GenerationDirectory
  current : Option ℕ
  clock : ℕ
  openService : OpenService
  legacyStarts : List Integration.RuntimeState

/-- The installation the legacy service belongs to, and what the migration relies
on from outside: the profile a configuration selects, the registry export, the
digest, the length of an encoded receipt and the settings of a fresh service. -/
structure Installation where
  root : String
  registryConflict : Bool
  trustedBinaryAvailable : Bool
  validDescriptor : List UInt8 → Bool
  freshExtended : ServiceExtendedConfiguration
  activeProfile : Option Bytes → Except String String
  registryExport : LegacyService → Bytes
  sha256 : Bytes → String
  encodedLength : MigrationReceipt → ℕ

structure LegacyServiceStatus where
  presence : ServicePresence
  state : ServiceRuntimeState

abbrev Migration := Prog Machine String

def Machine.setService (m : Machine) (service : Option LegacyService) : Machine :=
  { m with service, past := service :: m.past }

/-- Changes the service if it is there. -/
def changeService (io : String) (f : LegacyService → Except String LegacyService) :
    Migration Unit :=
  act io fun m =>
    match m.service with
    | none => .error io
    | some service => (f service).map fun service => m.setService (some service)

namespace Installation

variable (env : Installation)

def statusOf : Option LegacyService → LegacyServiceStatus
  | none => ⟨.absent, .unknown⟩
  | some service => ⟨classifyConfiguration service.configuration env.root, service.state⟩

def query : Migration LegacyServiceStatus :=
  (inspect "" fun m => .ok (env.statusOf m.service)).handle fun _ => .ret ⟨.inaccessible, .unknown⟩

def supportedExtended (service : LegacyService) : Except String ServiceExtendedConfiguration := do
  require (service.extended.failureActions.actions.all supportedAction)
    "legacy service has an unsupported failure action"
  require (supportedSidType service.extended.serviceSidType)
    "legacy service has an unsupported service SID type"
  require (!service.hasTriggers) "custom legacy service triggers are not migration-safe"
  .ok service.extended

/-- Reads the service through a handle; `io` is what a failed call reports. -/
def inspectService {α : Type} (io : String) (f : LegacyService → Except String α) :
    Migration α :=
  inspect io fun m =>
    match m.service with
    | none => .error io
    | some service => f service

def requireStable (state : ServiceRuntimeState) : Migration Unit :=
  ensure state.isStable "legacy SCM service must be exactly running or stopped for migration"

def migrationSnapshot : Migration LegacyScmSnapshot := do
  let status ← env.query
  ensure (!env.registryConflict && status.presence.isOwned)
    "legacy SCM service is not exactly owned and migration-safe"
  requireStable status.state
  let (configuration, extended) ← inspectService "migration snapshot of the legacy service failed"
    fun service => (supportedExtended service).map fun extended =>
      (service.configuration, extended)
  .ret ⟨status.presence, status.state, configuration, extended⟩

def stop : Migration Unit :=
  changeService "ControlService failed" fun service => .ok { service with state := .stopped }

/-- A disabled service cannot be started. -/
def start : Migration Unit :=
  act "StartServiceW failed" fun m =>
    match m.service with
    | none => .error "StartServiceW failed"
    | some service =>
      if service.configuration.startType = serviceDisabled then .error "StartServiceW failed"
      else .ok { m.setService (some { service with state := .running }) with
        legacyStarts := m.openService.runtime :: m.legacyStarts }

def setStartType (startType : ℕ) : Migration Unit :=
  changeService "ChangeServiceConfigW(start type) failed" fun service =>
    .ok { service with configuration := service.configuration.withStartType startType }

/-- Stops the service and parks it disabled, so that a reboot cannot start it. -/
def migrationStop : Migration Unit := do
  let status ← env.query
  ensure status.presence.isOwned "only an owned legacy service can be stopped for migration"
  requireStable status.state
  stop.whenever (status.state = .running)
  setStartType serviceDisabled

def deleteOwnedService : Migration Unit :=
  act "DeleteService failed" fun m => .ok (m.setService none)

def migrationRemove : Migration Unit := do
  let status ← env.query
  ensure (status.presence.isOwned && status.state = .stopped)
    "legacy service must be owned and stopped before removal"
  deleteOwnedService

def migrationRestoreRunningState (snapshot : LegacyScmSnapshot) : Migration Unit := do
  requireStable snapshot.state
  let current ← env.query
  ensure current.presence.isOwned
    "only an owned legacy service can have its runtime state restored"
  requireStable current.state
  setStartType snapshot.configuration.startType
  start.whenever (snapshot.state = .running ∧ current.state = .stopped)
  stop.whenever (snapshot.state = .stopped ∧ current.state = .running)

/-! ## Restoring the configuration -/

inductive ServiceRestoreStep where
  | core
  | description
  | failureActions
  | failureActionsFlag
  | delayedAutoStart
  | serviceSidType
  | requiredPrivileges
  | preshutdownTimeout
  | triggers
  | securityDescriptor
  deriving DecidableEq

def ServiceRestoreStep.label : ServiceRestoreStep → String
  | .core => "core"
  | .description => "description"
  | .failureActions => "failure-actions"
  | .failureActionsFlag => "failure-actions-flag"
  | .delayedAutoStart => "delayed-auto-start"
  | .serviceSidType => "service-sid-type"
  | .requiredPrivileges => "required-privileges"
  | .preshutdownTimeout => "preshutdown-timeout"
  | .triggers => "triggers"
  | .securityDescriptor => "security-descriptor"

def serviceRestoreOrder : List ServiceRestoreStep :=
  [.core, .description, .failureActions, .failureActionsFlag, .delayedAutoStart, .serviceSidType,
    .requiredPrivileges, .preshutdownTimeout, .triggers, .securityDescriptor]

/-- The service with one part of the snapshot put back. -/
def ServiceRestoreStep.apply (snapshot : LegacyScmSnapshot) (service : LegacyService) :
    ServiceRestoreStep → LegacyService
  | .core => { service with configuration := snapshot.configuration }
  | .description => { service with
      extended.description := snapshot.extended.description }
  | .failureActions => { service with
      extended.failureActions := snapshot.extended.failureActions }
  | .failureActionsFlag => { service with
      extended.failureActionsOnNonCrash := snapshot.extended.failureActionsOnNonCrash }
  | .delayedAutoStart => { service with
      extended.delayedAutoStart := snapshot.extended.delayedAutoStart }
  | .serviceSidType => { service with
      extended.serviceSidType := snapshot.extended.serviceSidType }
  | .requiredPrivileges => { service with
      extended.requiredPrivileges := snapshot.extended.requiredPrivileges }
  | .preshutdownTimeout => { service with
      extended.preshutdownTimeoutMs := snapshot.extended.preshutdownTimeoutMs }
  | .triggers => { service with hasTriggers := false }
  | .securityDescriptor => { service with
      extended.securityDescriptor := snapshot.extended.securityDescriptor }

def restoreStep (snapshot : LegacyScmSnapshot) (step : ServiceRestoreStep) : Migration Unit :=
  changeService "the service configuration could not be changed" fun service =>
    .ok (step.apply snapshot service)

def reportRestoreFailures (failures : List String) : Migration Unit :=
  ensure (failures == [])
    ("legacy SCM configuration restore failed [" ++ "; ".intercalate failures ++ "]")

/-- Goes through the steps and collects what fails; without the core there is no
point in going on. -/
def performServiceConfigurationRestore (snapshot : LegacyScmSnapshot) :
    List ServiceRestoreStep → List String → Migration Unit
  | [], failures => reportRestoreFailures failures
  | step :: steps, failures => do
    match ← (restoreStep snapshot step).attempt with
    | .ok () => performServiceConfigurationRestore snapshot steps failures
    | .error error =>
      let failures := failures ++ [step.label ++ ": " ++ error]
      if step = .core then reportRestoreFailures failures
      else performServiceConfigurationRestore snapshot steps failures

def verifyRestoredConfiguration (expected : LegacyScmSnapshot)
    (configuration : ServiceConfiguration) (extended : ServiceExtendedConfiguration) :
    Except String Unit := do
  require (configuration == expected.configuration)
    "legacy SCM core configuration did not round-trip exactly"
  require (extended == expected.extended)
    "legacy SCM Config2 or security configuration did not round-trip exactly"

def createServiceConfiguration (configuration : ServiceConfiguration) : Migration Unit := do
  act "CreateServiceW failed" fun m =>
    match m.service with
    | some _ => .ok m
    | none => .ok (m.setService (some ⟨configuration, env.freshExtended, false, .stopped⟩))
  let created ← env.query
  ensure created.presence.isOwned
    "Windows created a MacType service with unexpected configuration"

/-- Makes sure there is a stopped service of ours to put the configuration on. -/
def prepareRestoreTarget (snapshot : LegacyScmSnapshot) : Migration Unit := do
  let status ← env.query
  match status.presence with
  | .absent => env.createServiceConfiguration snapshot.configuration
  | .owned | .compatibleUnquoted => do
    requireStable status.state
    let _ ← inspectService "legacy service restore preflight failed" supportedExtended
    stop.whenever (status.state ≠ .stopped)
  | _ => .throw "refusing to overwrite an unsafe MacType SCM service"

def restoreServiceConfiguration (snapshot : LegacyScmSnapshot) : Migration Unit := do
  ofExcept (validateSnapshotForRestore env.validDescriptor snapshot)
  env.prepareRestoreTarget snapshot
  let verified ← env.query
  ensure (verified.presence.isOwned && verified.state = .stopped)
    "legacy SCM service changed before configuration restore"
  let _ ← inspectService "final legacy service restore preflight failed" supportedExtended
  performServiceConfigurationRestore snapshot serviceRestoreOrder []
  inspectService "the restored legacy service could not be read" fun service => do
    let extended ← supportedExtended service
    verifyRestoredConfiguration snapshot service.configuration extended

end Installation
end MacTypeControl.Legacy
