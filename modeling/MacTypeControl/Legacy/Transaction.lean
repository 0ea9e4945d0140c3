import MacTypeControl.Legacy.Control

/-!
# The legacy migration and its receipt

Four operations work on the receipt the current pointer names: the backup, the
stop, the verified removal and the rollback.
-/

namespace MacTypeControl.Legacy

open Crash Crash.Prog

def maxRegistryExportBytes : ℕ := 4 * 1024 * 1024

def maxReceiptBytes : ℕ := 256 * 1024

def serviceRegistryExport : String := "service.reg"

def configurationBackup : String := "MacType.ini.backup"

def activeProfileBackup : String := "active-profile.ini.backup"

def MigrationReceipt.currentStage (receipt : MigrationReceipt) : Option MigrationStage :=
  receipt.completedStages.getLast?

def validStageHistory (stages : List MigrationStage) : Bool :=
  stages = [.backupPrepared] || stages = [.backupPrepared, .legacyStopped] ||
    stages = [.backupPrepared, .legacyStopped, .legacyRemoved] ||
    stages = [.backupPrepared, .rollbackCompleted] ||
    stages = [.backupPrepared, .legacyStopped, .rollbackCompleted] ||
    stages = [.backupPrepared, .legacyStopped, .legacyRemoved, .rollbackCompleted]

def ProfileBackupReceipt.role : ProfileBackupReceipt → BackupRole
  | .present file => file.role
  | .absent role _ => role

def ProfileBackupReceipt.originalPath : ProfileBackupReceipt → String
  | .present file => file.originalPath
  | .absent _ path => path

structure RemovalVerification where
  newServiceReady : Bool
  activeDigestMatch : Bool
  backupValid : Bool

namespace Installation

variable (env : Installation)

def configurationPath : String := env.root ++ "\\MacType.ini"

/-! ## The receipt -/

def validateRegistryExportBytes (receipt : RegistryExportReceipt) (bytes : Bytes) :
    Except String Unit :=
  require (receipt.exportFile == serviceRegistryExport && bytes != [] &&
      bytes.length ≤ maxRegistryExportBytes && receipt.byteLength == bytes.length &&
      receipt.sha256 == env.sha256 bytes)
    "legacy service registry export failed its integrity check"

def validateBackupBytes (receipt : BackupFileReceipt) (bytes : Bytes) : Except String Unit :=
  require (receipt.byteLength == bytes.length && receipt.sha256 == env.sha256 bytes)
    "legacy migration backup failed its integrity check"

def absentRestoreTarget (m : Machine) (path : String) : Except String Unit :=
  require (m.files path).isNone ("legacy profile cleanup is unknown because " ++ path ++
    " was recorded absent but now exists; refusing to delete it")

/-- The backup a receipt names is in its generation with the recorded length and digest. -/
def backupBytes (directory : GenerationDirectory) (file : BackupFileReceipt) :
    Except String Bytes :=
  match directory.backups.lookup file.backupFile with
  | none => .error "legacy migration backup could not be read"
  | some bytes => (env.validateBackupBytes file bytes).map fun _ => bytes

def backupName : BackupRole → String
  | .activeProfile => activeProfileBackup
  | _ => configurationBackup

def validateProfileBackup (m : Machine) (directory : GenerationDirectory) :
    ProfileBackupReceipt → Except String Unit
  | .present file => do
    require (file.backupFile == backupName file.role)
      "legacy migration receipt has an unexpected backup name"
    let _ ← env.backupBytes directory file
  | .absent _ path => absentRestoreTarget m path

/-- The roles a receipt may hold: one file for both, or each once. -/
def validRoles (roles : List BackupRole) : Bool :=
  roles = [.configurationAndActiveProfile] || roles = [.configuration, .activeProfile] ||
    roles = [.activeProfile, .configuration]

def hasIniExtension (path : String) : Bool :=
  Text.eqIgnoreAsciiCase (path.toList.drop (path.length - 4)) ".ini".toList

def validPath (file : ProfileBackupReceipt) : Bool :=
  match file.role with
  | .activeProfile => hasIniExtension file.originalPath
  | _ => sameText file.originalPath env.configurationPath

def validateReceipt (m : Machine) (generation : ℕ) (directory : GenerationDirectory)
    (receipt : MigrationReceipt) : Except String Unit := do
  require (receipt.generation == generation && validStageHistory receipt.completedStages)
    "legacy migration receipt schema or stage history is invalid"
  require (sameText receipt.installationRoot env.root)
    "legacy migration receipt points outside Program Files MacType"
  require (receipt.service.presence.isOwned && receipt.service.state.isStable)
    "legacy migration receipt contains an unsafe service state"
  validateServiceConfiguration env.root receipt.service.configuration
  validateSnapshotForRestore env.validDescriptor receipt.service
  match directory.registryExport with
  | none => .error "legacy service registry export could not be read"
  | some bytes => env.validateRegistryExportBytes receipt.serviceRegistry bytes
  require (validRoles (receipt.files.map ProfileBackupReceipt.role) &&
      receipt.files.all env.validPath)
    "legacy migration receipt has an invalid profile backup set"
  receipt.files.forM (env.validateProfileBackup m directory)

/-- The receipt the current pointer names, if it is valid. -/
def readCurrent (m : Machine) : Except String (ℕ × MigrationReceipt) :=
  match m.current with
  | none => .error "legacy migration current pointer is invalid"
  | some generation =>
    match m.generations generation with
    | none => .error "legacy migration generation does not exist"
    | some directory =>
      match directory.receipt with
      | none => .error "legacy migration receipt could not be read"
      | some receipt =>
        (env.validateReceipt m generation directory receipt).map fun _ => (generation, receipt)

def currentReceipt : Migration (ℕ × MigrationReceipt) :=
  inspect "legacy migration storage could not be read" env.readCurrent

def backupIsValid : Migration Bool := do
  match ← env.currentReceipt.attempt with
  | .ok _ => .ret true
  | .error _ => .ret false

def updateGeneration (m : Machine) (generation : ℕ)
    (f : GenerationDirectory → GenerationDirectory) : Machine :=
  { m with generations := fun g =>
      if g = generation then (m.generations g).map f else m.generations g }

/-- Writes the receipt file of a generation, as a whole or not at all. -/
def writeReceipt (generation : ℕ) (receipt : MigrationReceipt) : Migration Unit :=
  atomic "legacy migration receipt could not be written" fun m =>
    if maxReceiptBytes < env.encodedLength receipt then
      .error "legacy migration receipt exceeded its size limit"
    else .ok ((), updateGeneration m generation fun d => { d with receipt := some receipt })

def appendStage (generation : ℕ) (receipt : MigrationReceipt) (expected next : MigrationStage) :
    Migration MigrationReceipt := do
  ensure (receipt.currentStage = some expected)
    "legacy migration stage is not the expected one"
  let receipt := { receipt with completedStages := receipt.completedStages ++ [next] }
  env.writeReceipt generation receipt
  .ret receipt

/-- The live service is the one of the receipt; its start type is a runtime setting. -/
def snapshotMatches (receipt : MigrationReceipt) : Migration LegacyScmSnapshot := do
  let snapshot ← env.migrationSnapshot
  let live := snapshot.configuration.withStartType receipt.service.configuration.startType
  ensure (live == receipt.service.configuration && snapshot.extended == receipt.service.extended)
    "legacy SCM configuration changed after backup"
  ensure snapshot.state.isStable "legacy SCM service is in a transitional state"
  .ret snapshot

/-! ## The operations -/

def requireOwnedLegacyService (status : LegacyServiceStatus) : Except String Unit := do
  require (!env.registryConflict)
    "AppInit registry mode conflicts with legacy service migration"
  require status.presence.isOwned "legacy migration requires an exactly owned service"
  match status.state with
  | .stopped => .ok ()
  | .running =>
    require env.trustedBinaryAvailable
      "a running legacy service cannot be migrated without its trusted MacTray binary"
  | _ => .error "legacy SCM service must be stably running or stopped"

def createGeneration : Migration ℕ := do
  let generation ← observe Machine.clock
  modify "legacy migration generation could not be created" fun m =>
    { m with
      clock := generation + 1
      generations := fun g =>
        if g = generation then some ⟨[], none, none⟩ else m.generations g }
  .ret generation

/-- Copies one profile file into the generation, or records that it is absent. -/
def profileBackupReceipt (generation : ℕ) (path : String) (role : BackupRole) :
    Option Bytes → Migration ProfileBackupReceipt
  | none => .ret (.absent role path)
  | some bytes => do
    modify "legacy migration backup could not be written" fun m =>
      updateGeneration m generation fun d =>
        { d with backups := (backupName role, bytes) :: d.backups }
    .ret (.present ⟨role, path, backupName role, bytes.length, env.sha256 bytes⟩)

/-- The configuration file, and the profile it selects unless that is the same file. -/
def backupProfiles (generation : ℕ) (configuration : Option Bytes) (activePath : String)
    (active : Option Bytes) : Migration (List ProfileBackupReceipt) :=
  if sameText env.configurationPath activePath then do
    let both ← env.profileBackupReceipt generation env.configurationPath
      .configurationAndActiveProfile configuration
    .ret [both]
  else do
    let first ← env.profileBackupReceipt generation env.configurationPath .configuration
      configuration
    let second ← env.profileBackupReceipt generation activePath .activeProfile active
    .ret [first, second]

def exportServiceRegistry (generation : ℕ) : Migration RegistryExportReceipt := do
  let bytes ← inspectService "the service registry export failed" fun service =>
    .ok (env.registryExport service)
  modify "the service registry export could not be written" fun m =>
    updateGeneration m generation fun d => { d with registryExport := some bytes }
  let receipt : RegistryExportReceipt :=
    ⟨serviceRegistryExport, bytes.length, env.sha256 bytes⟩
  ofExcept (env.validateRegistryExportBytes receipt bytes)
  .ret receipt

def validateWritten (generation : ℕ) (receipt : MigrationReceipt) : Migration Unit :=
  inspect "legacy migration storage could not be read" fun m =>
    match m.generations generation with
    | none => .error "legacy migration generation does not exist"
    | some directory => env.validateReceipt m generation directory receipt

def setCurrent (generation : ℕ) : Migration Unit :=
  modify "legacy migration current pointer could not be written" fun m =>
    { m with current := some generation, past := [m.service] }

def prepareBackup : Migration MigrationReceipt := do
  let status ← env.query
  ofExcept (env.requireOwnedLegacyService status)
  ensure status.state.isStable "legacy SCM service must be stably running or stopped"
  let service ← env.migrationSnapshot
  let configuration ← inspect "the legacy configuration could not be read" fun m =>
    .ok (m.files env.configurationPath)
  let activePath ← ofExcept (env.activeProfile configuration)
  let active ← inspect "the legacy profile could not be read" fun m => .ok (m.files activePath)
  let generation ← createGeneration
  let files ← env.backupProfiles generation configuration activePath active
  let serviceRegistry ← env.exportServiceRegistry generation
  let receipt : MigrationReceipt :=
    ⟨generation, env.root, service, [.backupPrepared], serviceRegistry, files⟩
  env.writeReceipt generation receipt
  env.validateWritten generation receipt
  setCurrent generation
  .ret receipt

/-- Parks the service and records it; without the record the prior state is restored. -/
def parkAndRecord (generation : ℕ) (receipt : MigrationReceipt) : Migration MigrationReceipt := do
  env.migrationStop
  (env.appendStage generation receipt .backupPrepared .legacyStopped).handle fun error => do
    match ← (env.migrationRestoreRunningState receipt.service).attempt with
    | .ok () => .throw ("could not record legacy stop; prior state restored: " ++ error)
    | .error restore => .throw ("could not record legacy stop (" ++ error ++
        "); restoring prior state also failed (" ++ restore ++ ")")

def stopLegacy : Migration MigrationReceipt := do
  let (generation, receipt) ← env.currentReceipt
  if receipt.currentStage = some .legacyStopped then .ret receipt
  else do
    ensure (receipt.currentStage = some .backupPrepared)
      "legacy service can only be stopped after a valid backup"
    let _ ← env.snapshotMatches receipt
    env.parkAndRecord generation receipt

def removeAfterVerified (verification : RemovalVerification) : Migration MigrationReceipt := do
  let backup ← env.currentReceipt.attempt
  ensure (verification.newServiceReady && verification.activeDigestMatch &&
      verification.backupValid && backup.toOption.isSome)
    "legacy removal requires a ready new service, matching profile digest, and valid backup"
  let (generation, receipt) ← ofExcept backup
  if receipt.currentStage = some .legacyRemoved then .ret receipt
  else do
    ensure (receipt.currentStage = some .legacyStopped)
      "legacy service must be stopped before verified removal"
    let snapshot ← env.snapshotMatches receipt
    ensure (snapshot.state = .stopped) "legacy service resumed after migration stop"
    env.migrationRemove.mapError fun error =>
      "legacy removal failed; the legacy service remains stopped and disabled: " ++ error
    (env.appendStage generation receipt .legacyStopped .legacyRemoved).mapError fun error =>
      "legacy service was removed but recording the removal receipt failed: " ++ error

def stopBeforeRestore : Migration Unit := do
  let status ← env.query
  ensure (!env.registryConflict) "AppInit registry mode blocks safe legacy rollback"
  match status.presence with
  | .absent => .ret ()
  | .owned | .compatibleUnquoted => env.migrationStop
  | _ => .throw "unsafe SCM state blocks legacy rollback"

def restoreProfile (generation : ℕ) : ProfileBackupReceipt → Migration Unit
  | .present file => do
    let bytes ← inspect "legacy migration backup could not be read" fun m =>
      match m.generations generation with
      | none => .error "legacy migration generation does not exist"
      | some directory => env.backupBytes directory file
    modify "the legacy profile could not be written" fun m =>
      { m with files := fun path =>
          if path = file.originalPath then some bytes else m.files path }
  | .absent _ path =>
    inspect "the legacy profile could not be checked" fun m => absentRestoreTarget m path

def restoreProfileList (generation : ℕ) : List ProfileBackupReceipt → Migration Unit
  | [] => .ret ()
  | file :: files => do
    env.restoreProfile generation file
    restoreProfileList generation files

/-- The selected profile first, the configuration that selects it last. -/
def restoreProfiles (generation : ℕ) (receipt : MigrationReceipt) : Migration Unit := do
  env.restoreProfileList generation (receipt.files.filter fun file => file.role = .activeProfile)
  env.restoreProfileList generation (receipt.files.filter fun file => file.role ≠ .activeProfile)

/-- The startup entries are restored from a receipt of their own and are no part
of this machine; the step can only fail. -/
def restoreLegacyTrayStartup : Migration Unit :=
  modify "the legacy tray startup could not be restored" id

def performRollback (generation : ℕ) (receipt : MigrationReceipt) : Migration Unit := do
  env.stopBeforeRestore
  env.restoreProfiles generation receipt
  env.restoreServiceConfiguration receipt.service
  restoreLegacyTrayStartup
  env.migrationRestoreRunningState receipt.service

def rollback : Migration MigrationReceipt := do
  let (generation, receipt) ← env.currentReceipt
  if receipt.currentStage = some .rollbackCompleted then .ret receipt
  else do
    env.performRollback generation receipt
    match receipt.currentStage with
    | none => .throw "legacy migration receipt has no completed stage"
    | some expected => env.appendStage generation receipt expected .rollbackCompleted

end Installation
end MacTypeControl.Legacy
