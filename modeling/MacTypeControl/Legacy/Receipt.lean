import MacTypeControl.Legacy.Transaction
import MacTypeControl.Legacy.Undisturbed

/-!
# The receipt of a migration that may have been interrupted

The invariant of the migration: the service is ours, the profile files are as they
were, and the current pointer, if there is one, names a complete backup of the
original service whose stages have all happened.
-/

namespace MacTypeControl.Legacy

open Crash Crash.Prog Installation

namespace Installation

variable (env : Installation)

/-- What the backup of one profile file records. -/
def recorded (path : String) (role : BackupRole) : Option Bytes → ProfileBackupReceipt
  | none => .absent role path
  | some bytes => .present ⟨role, path, backupName role, bytes.length, env.sha256 bytes⟩

def recordedFiles (files : String → Option Bytes) (activePath : String) :
    List ProfileBackupReceipt :=
  if sameText env.configurationPath activePath then
    [env.recorded env.configurationPath .configurationAndActiveProfile
      (files env.configurationPath)]
  else
    [env.recorded env.configurationPath .configuration (files env.configurationPath),
      env.recorded activePath .activeProfile (files activePath)]

def recordedRegistry (orig : LegacyService) : RegistryExportReceipt :=
  ⟨serviceRegistryExport, (env.registryExport orig).length, env.sha256 (env.registryExport orig)⟩

/-- The receipt of a backup of `orig` with the given stages. -/
def receiptOf (orig : LegacyService) (files : String → Option Bytes) (activePath : String)
    (generation : ℕ) (stages : List MigrationStage) : MigrationReceipt :=
  ⟨generation, env.root, env.snapshotOf orig, stages, env.recordedRegistry orig,
    env.recordedFiles files activePath⟩

end Installation

/-- A machine a migration can start on: a service it accepts, nothing recorded yet,
and a profile, an export and receipts within their limits. -/
structure Migratable (env : Installation) (orig : LegacyService) (activePath : String)
    (m₀ : Machine) : Prop where
  accepted : Accepted env orig
  service : m₀.service = some orig
  watched : m₀.past = [some orig]
  unrecorded : m₀.current = none
  profile : env.activeProfile (m₀.files env.configurationPath) = .ok activePath
  ini : sameText env.configurationPath activePath = true ∨ hasIniExtension activePath = true
  exported : env.registryExport orig ≠ [] ∧
    (env.registryExport orig).length ≤ maxRegistryExportBytes
  fits : ∀ generation stages, validStageHistory stages = true →
    env.encodedLength (env.receiptOf orig m₀.files activePath generation stages) ≤
      maxReceiptBytes

/-- The backup holds what the receipt of a profile file records. -/
def Backed (env : Installation) (files : String → Option Bytes)
    (backups : List (String × Bytes)) : ProfileBackupReceipt → Prop
  | .present file => ∃ bytes, files file.originalPath = some bytes ∧
      backups.lookup file.backupFile = some bytes ∧ file.backupFile = backupName file.role ∧
      file.byteLength = bytes.length ∧ file.sha256 = env.sha256 bytes
  | .absent _ path => files path = none

/-- What a completed stage says has been done to the service. -/
def Happened (orig : LegacyService) (s : Machine) : MigrationStage → Prop
  | .backupPrepared => some orig ∈ s.past
  | .legacyStopped => ∃ service, some service ∈ s.past ∧ service.state = .stopped ∧
      service.configuration = orig.configuration.withStartType serviceDisabled
  | .legacyRemoved => none ∈ s.past
  | .rollbackCompleted => s.service = some orig

section

variable (env : Installation) (orig : LegacyService) (activePath : String)
  (files : String → Option Bytes)

/-- The current pointer names a complete backup with these stages. -/
structure Holds (generation : ℕ) (stages : List MigrationStage) (s : Machine) : Prop where
  current : s.current = some generation
  old : generation < s.clock
  valid : validStageHistory stages = true
  happened : ∀ stage ∈ stages, Happened orig s stage
  directory : ∃ backups, s.generations generation = some ⟨backups,
      some (env.registryExport orig),
      some (env.receiptOf orig files activePath generation stages)⟩ ∧
    ∀ receipt ∈ env.recordedFiles files activePath, Backed env files backups receipt

/-- The invariant. `extended` and `gone` say which extended settings the service may
have, and whether it may be missing. -/
structure Continuable (extended : ServiceExtendedConfiguration → Prop) (gone : Prop)
    (s : Machine) : Prop where
  unchanged : s.files = files
  tracked : s.service ∈ s.past
  ours : ∀ service, s.service = some service → Ours orig extended service
  present : s.service = none → gone
  receipt : s.current = none ∨
    ∃ generation stages, Holds env orig activePath files generation stages s

end

variable {env : Installation} {orig : LegacyService} {activePath : String} {m₀ s t : Machine}
  {files : String → Option Bytes} {extended : ServiceExtendedConfiguration → Prop} {gone : Prop}
  {generation : ℕ} {stages : List MigrationStage}

/-! ## The receipt is valid -/

theorem Backed.validate {backups : List (String × Bytes)} {receipt : ProfileBackupReceipt}
    {registry : Option Bytes} {written : Option MigrationReceipt} (hfiles : s.files = files)
    (h : Backed env files backups receipt) :
    env.validateProfileBackup s ⟨backups, registry, written⟩ receipt = .ok () := by
  cases receipt with
  | absent role path =>
    change files path = none at h
    simp [validateProfileBackup, absentRestoreTarget, require, hfiles, h]
  | present file =>
    obtain ⟨bytes, -, hlookup, hname, hlength, hdigest⟩ := h
    simp only [validateProfileBackup, backupBytes, validateBackupBytes, hlookup, hlength, hdigest]
    rw [← hname]
    simp [require, bind, Except.bind, Except.map, pure, Except.pure]

theorem recordedFiles_role (files : String → Option Bytes) :
    validRoles ((env.recordedFiles files activePath).map ProfileBackupReceipt.role) = true := by
  have hrole : ∀ path role content, (env.recorded path role content).role = role := by
    intro path role content
    cases content <;> rfl
  unfold recordedFiles
  split
  · simp only [List.map_cons, List.map_nil, hrole]
    decide
  · simp only [List.map_cons, List.map_nil, hrole]
    decide

theorem sameText_self (text : String) : sameText text text = true := by
  simp [sameText, Text.eqIgnoreAsciiCase]

theorem recordedFiles_path (files : String → Option Bytes)
    (hini : sameText env.configurationPath activePath = true ∨
      hasIniExtension activePath = true) :
    (env.recordedFiles files activePath).all env.validPath = true := by
  have hconfig : ∀ role content, role ≠ .activeProfile →
      env.validPath (env.recorded env.configurationPath role content) = true := by
    intro role content hrole
    cases content <;> cases role <;>
      simp [validPath, recorded, ProfileBackupReceipt.role,
        ProfileBackupReceipt.originalPath, sameText_self] at hrole ⊢
  unfold recordedFiles
  split
  · simp [hconfig]
  · rename_i hdifferent
    have hactive : env.validPath (env.recorded activePath .activeProfile (files activePath)) =
        true := by
      cases files activePath <;> exact hini.resolve_left hdifferent
    simp [hconfig, hactive]

theorem Migratable.validateReceipt (hm : Migratable env orig activePath m₀)
    (hfiles : s.files = m₀.files) (hvalid : validStageHistory stages = true)
    {backups : List (String × Bytes)} {written : Option MigrationReceipt}
    (hbacked : ∀ receipt ∈ env.recordedFiles m₀.files activePath,
      Backed env m₀.files backups receipt) :
    env.validateReceipt s generation ⟨backups, some (env.registryExport orig), written⟩
      (env.receiptOf orig m₀.files activePath generation stages) = .ok () := by
  have hacc := hm.accepted
  have hprofiles : (env.recordedFiles m₀.files activePath).forM
      (env.validateProfileBackup s ⟨backups, some (env.registryExport orig), written⟩) =
        .ok () :=
    forM_eq_ok_iff.2 fun receipt h => (hbacked receipt h).validate hfiles
  have hexport : env.validateRegistryExportBytes (env.recordedRegistry orig)
      (env.registryExport orig) = .ok () := by
    simp [validateRegistryExportBytes, recordedRegistry, require, hm.exported.1, hm.exported.2]
  have howned : ((env.snapshotOf orig).presence.isOwned &&
      (env.snapshotOf orig).state.isStable) = true := by
    rw [Bool.and_eq_true]
    exact ⟨hacc.owned, hacc.stable⟩
  unfold Installation.validateReceipt receiptOf
  dsimp only
  rw [require_true _ (by simp [hvalid]), require_true _ (sameText_self _),
    require_true _ howned, show (env.snapshotOf orig).configuration = orig.configuration from rfl,
    hacc.configuration, hacc.restorable, hexport, recordedFiles_role,
    recordedFiles_path _ hm.ini, hprofiles]
  rfl

end MacTypeControl.Legacy
