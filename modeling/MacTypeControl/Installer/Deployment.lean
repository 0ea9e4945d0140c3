import MacTypeControl.Installer.Activation
import MacTypeControl.Installer.RepairConvergence

/-!
# Deploying and repairing the runtime

A payload is staged as a generation, or put in place of an invalid one, and the generation is
made the active one. Both the repair and the activation have a journal of their own, and one
recovery after the other.
-/

namespace MacTypeControl.Installer

open Crash Crash.Prog Profile Storage

variable {χ : Type}

/-! ## The installation -/

/-- The machine storage with the journal of a repair, and what the system was asked to delete at
the next start. -/
structure Installation (χ : Type) where
  machine : Machine χ
  repairJournal : Option (StoredFile RuntimeRepairJournal)
  deferredDeletions : List (String × Option RuntimeEntry)

def machinePart : Part (Installation χ) (Machine χ) where
  get m := m.machine
  put machine m := { m with machine }
  get_put _ _ := rfl
  put_get _ := rfl
  put_put _ _ _ := rfl

/-- A repair sees the generation directories and its journal. -/
def repairPart : Part (Installation χ) RepairStorage where
  get m := ⟨m.machine.runtimeVersions, m.repairJournal, m.deferredDeletions⟩
  put storage m :=
    { m with
      machine := { m.machine with runtimeVersions := storage.runtimeVersions }
      repairJournal := storage.repairJournal
      deferredDeletions := storage.deferredDeletions }
  get_put _ _ := rfl
  put_get _ := rfl
  put_put _ _ _ := rfl

abbrev Setup (χ : Type) := Prog (Installation χ) SetupError

section

variable (env : RepairEnvironment)

/-! ## Recovery -/

def recoverInterruptedActivation : Setup χ (Option RuntimeVersion) := do
  zoom repairPart (recoverInterruptedRepair env)
  zoom machinePart (recover env.toStorageEnvironment)

def recoverInterruptedActivationWithServiceBinding (calls : ServiceBindingCalls χ) :
    Setup (Attended χ) (Option RuntimeVersion) := do
  zoom repairPart (recoverInterruptedRepair env)
  zoom machinePart (recoverWithServiceBinding env.toStorageEnvironment calls)

def rejectPendingRuntimeTransaction : Setup χ Unit :=
  inspect .io fun m => do
    require m.machine.activationJournal.isNone (.runtime
      "a pending runtime activation transaction requires exact service-binding recovery")
    require m.repairJournal.isNone (.runtime
      "a pending runtime repair transaction requires exact service-binding recovery")

end

/-- What the system answers beside the directories: the process of the setup, the generation
directories in the order they are listed, and the generations that migrations have pinned. -/
structure DeployEnvironment (χ : Type) extends RepairEnvironment where
  processId : String
  listedGenerations : Machine χ → Except SetupError (List String)
  pinnedVersions : Machine χ → Except SetupError (List String)

variable (env : DeployEnvironment χ)

/-! ## Staging -/

def legacyStaging (payload : LoadedPayload) : String :=
  ".staging-" ++ payload.version.text ++ "-" ++ env.processId

def deployStaging (payload : LoadedPayload) : String :=
  ".staging-" ++ payload.version.text ++ "-" ++ env.temporaryNonce

/-- The entries of a staging directory that an older setup has left under the same name. -/
def legacyStagingEntries : Option RuntimeDirectory → Except SetupError (List RuntimeEntry)
  | none => .error .io
  | some directory => do
    require (directory.entryCount ≤ immutableRuntimeFiles.length)
      (.runtime "runtime staging entry count exceeds the fixed limit")
    require (directory.temporaries == [] && directory.foreign == [] && directory.profile.isNone)
      (.runtime "runtime staging collision contains an unexpected entry")
    require ((env.listing directory).all fun entry =>
        (directory.content entry).all fun bytes => bytes.length ≤ maxRuntimeFileBytes)
      (.runtime "runtime staging collision contains a non-regular entry")
    .ok (env.listing directory)

def removeLegacyStagingCollision (payload : LoadedPayload) : Repair Unit := do
  let staging := legacyStaging env payload
  let present ← observe fun m => m.exists staging
  whenever (present = true) do
    let entries ← inspect .io fun m => legacyStagingEntries env (m.runtimeVersions staging)
    eachEntry (removeEntry staging) entries
    removeDirectory staging

/-- Deletes what a failed staging has left, as far as that goes. The order and the point where
it gives up are the system's. -/
def abandonStaging (staging : String) : Repair Unit := do
  let directory ← observe fun m => m.runtimeVersions staging
  match directory with
  | none => ret ()
  | some directory => do
    eachEntry (removeEntry staging) (env.listing directory)
    removeDirectory staging

def stageNewGeneration (payload : LoadedPayload) : Repair Unit := do
  let staging := deployStaging env payload
  let present ← observe fun m => m.exists staging
  ensure (!present) (.runtime "runtime staging directory already exists")
  createProtectedDirectory staging
  (do
    writePayloadFiles env.toRepairEnvironment payload staging payloadOrder
    renameDirectory staging payload.version.text
    inspect .io fun m =>
      verifyExistingPayload payload (m.runtimeVersions payload.version.text)).handle fun error => do
    let _ ← (abandonStaging env staging).attempt
    throw error

def stagePayload (payload : LoadedPayload) (replaceInvalid : Bool) : Repair Unit := do
  removeLegacyStagingCollision env payload
  let installed ← observe fun m => m.exists payload.version.text
  if installed = true then
    match ← (inspect .io fun m =>
        verifyExistingPayload payload (m.runtimeVersions payload.version.text)).attempt with
    | .ok () => ret ()
    | .error e =>
      if replaceInvalid = true then replaceRuntimePayload env.toRepairEnvironment payload
      else throw e
  else stageNewGeneration env payload

def payloadReceipt (payload : LoadedPayload) : RuntimeReceipt where
  version := payload.version
  files file := env.sha256Digest (payload.files file)

def writeRuntimeReceipt (payload : LoadedPayload) : Prog (Machine χ) SetupError Unit :=
  modify .io fun m => { m with
    runtimeReceipts := Function.update m.runtimeReceipts payload.version
      (some (.written (payloadReceipt env payload))) }

def stage (payload : LoadedPayload) (replaceInvalid : Bool) : Setup χ Unit := do
  (zoom repairPart (stagePayload env payload replaceInvalid)).mapError
    (·.atMachinePath "stage verified runtime payload")
  (zoom machinePart (writeRuntimeReceipt env payload)).mapError
    (·.atMachinePath "write runtime generation receipt")

/-! ## Retention -/

def previousGeneration (oldPointer : Option RuntimeVersion) (currentVersion : RuntimeVersion) :
    Prog (Machine χ) SetupError (Option RuntimeVersion) :=
  rememberedGeneration (·.previousRuntime) (fun file m => { m with previousRuntime := some file })
    oldPointer currentVersion

/-- The entries of a verified generation that is to be removed. -/
def staleEntries (version : RuntimeVersion) (m : Machine χ) :
    Except SetupError (List RuntimeEntry) := do
  verify env.toStorageEnvironment m version
  .ok ((m.runtimeVersions version.text).elim [] env.listing)

def removeGenerationEntry (name : String) (entry : RuntimeEntry) :
    Prog (Machine χ) SetupError Unit :=
  modify .io (·.updateDirectory name (·.erase entry))

def removeGenerationEntries (name : String) : List RuntimeEntry →
    Prog (Machine χ) SetupError Unit
  | [] => ret ()
  | entry :: rest => do
    removeGenerationEntry name entry
    removeGenerationEntries name rest

def removeManifestVerifiedGeneration (version : RuntimeVersion) :
    Prog (Machine χ) SetupError Unit := do
  let entries ← inspect .io (staleEntries env version)
  removeGenerationEntries version.text entries
  modify .io fun m => { m with
    runtimeVersions := Function.update m.runtimeVersions version.text none }
  modify .io fun m => { m with
    runtimeReceipts := Function.update m.runtimeReceipts version none }

/-- A generation that cannot be removed is preserved. -/
def cleanupStaleGenerations (retained : List String) :
    List String → Prog (Machine χ) SetupError Unit
  | [] => ret ()
  | name :: rest => do
    if name ∈ retained then ret ()
    else if hvalid : validRuntimeVersionComponent name = true then
      (removeManifestVerifiedGeneration env ⟨name, hvalid⟩).handle fun _ => ret ()
    else ret ()
    cleanupStaleGenerations retained rest

/-- Retention as an activation sees it: the pins are an answer of the system and the names are
versions, and every question whether something is there is answered. What it spares and removes under
all names and answers is a matter of the store of the generations. -/
def retain (oldPointer : Option RuntimeVersion) (currentVersion : RuntimeVersion) :
    Prog (Machine χ) SetupError Unit := do
  let previous ← previousGeneration oldPointer currentVersion
  let pinned ← inspect .io env.pinnedVersions
  let listed ← inspect .io env.listedGenerations
  cleanupStaleGenerations env
    (currentVersion.text :: (previous.toList.map (·.text) ++ pinned)) listed

/-- What is left of a finished activation. Generations that cannot be retained are no error. -/
def finalize (previous : Option RuntimeVersion) (version : RuntimeVersion) :
    Prog (Machine χ) SetupError Unit := do
  let removed ← finalizeCommittedActivation previous version
  whenever (removed = true) ((retain env previous version).handle fun _ => ret ())

/-! ## The operations -/

def deploy (loaded : Except SetupError LoadedPayload) (prepare healthCheck : Prog χ SetupError Unit)
    (replaceInvalid deferExternalRollback : Bool) : Setup χ RuntimeVersion := do
  if deferExternalRollback = true then rejectPendingRuntimeTransaction
  else do
    let _ ← recoverInterruptedActivation env.toRepairEnvironment
    ret ()
  let payload ← inspect .io fun _ => loaded
  stage env payload replaceInvalid
  let previous ← zoom machinePart (activate env.toStorageEnvironment payload.version prepare
    healthCheck deferExternalRollback)
  zoom machinePart (finalize env previous payload.version)
  ret payload.version

/-- The payload has to be of the generation that is in use. -/
def validateRepairPayload (loaded : Except SetupError LoadedPayload)
    (allowGenericRecovery : Bool) : Setup χ Unit := do
  let current ← if allowGenericRecovery = true then
      recoverInterruptedActivation env.toRepairEnvironment
    else do
      rejectPendingRuntimeTransaction
      zoom machinePart (inspect .io current)
  match current with
  | none => throw (.runtime "no active protected runtime is installed")
  | some current => do
    let payload ← inspect .io fun _ => loaded
    ensure (current = payload.version)
      (.runtime "repair cannot replace an outdated runtime; use upgrade")

def repairCurrent (loaded : Except SetupError LoadedPayload)
    (prepare healthCheck : Prog χ SetupError Unit) (deferExternalRollback : Bool) :
    Setup χ RuntimeVersion := do
  validateRepairPayload env loaded (!deferExternalRollback)
  deploy env loaded prepare healthCheck true deferExternalRollback

end MacTypeControl.Installer
