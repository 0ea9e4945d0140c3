import MacTypeControl.Generations.Removal

/-!
# The plan of an uninstallation

Before anything is removed, the whole service root is checked: every entry has to be known, every
generation verified, and every receipt has to be that of a generation.
-/

namespace MacTypeControl.Generations

open Crash Crash.Prog Profile Storage Tables
open Installer (RepairEnvironment)

variable {names : FileNames} (env : RepairEnvironment)

structure OwnedRemovalPlan where
  rootExists : Bool
  versions : List String
  migrationPins : List FileName
  removeCurrent : Bool
  removePrevious : Bool
  removeHealth : Bool
  removeVersionsRoot : Bool
  removeReceiptsRoot : Bool
  removeMigrationPinsRoot : Bool
  deriving DecidableEq

def maxServiceRuntimeRootEntries : ℕ := 8

def ServiceRoot.rootEntryCount (m : ServiceRoot names) : ℕ :=
  m.versions.toList.length + m.receipts.toList.length + m.migrationPins.toList.length +
    m.runtimePointer.toList.length + m.previousRuntime.toList.length + m.health.toList.length +
    m.pendingTransaction.toNat + m.unexpected.length

/-- The version of a generation that can be removed. -/
def removableVersion (m : ServiceRoot names) : FileName → Except SetupError String
  | .other _ => .error (.runtime "runtime generation name is not Unicode")
  | .unicode version => do
    require (validRuntimeVersionComponent version)
      (.runtime "runtime generation name is not canonical")
    let _ ← verify env m version
    .ok version

def receiptVersion : FileName → Except SetupError String
  | .other _ => .error (.runtime "runtime receipt name is not Unicode")
  | .unicode name => match stripJson name with
    | none => .error (.runtime "runtime receipt name is not canonical")
    | some version => do
      require (validRuntimeVersionComponent version)
        (.runtime "runtime receipt name is not canonical")
      .ok version

/-- The versions of the generations, each of which has a receipt and only they. -/
def verifyRemovableGenerations (m : ServiceRoot names) : Except SetupError (List String) :=
  match m.versions, m.receipts with
  | none, none => .ok []
  | some generations, some receipts => do
    require (generations.entries.length ≤ maxPinnedRuntimes + 2)
      (.runtime "runtime generation count exceeds the fixed limit")
    let versions ← generations.entries.mapM fun entry => removableVersion env m entry.1
    require (receipts.entries.length ≤ maxPinnedRuntimes + 2)
      (.runtime "runtime receipt count exceeds the fixed limit")
    let receipted ← receipts.entries.mapM fun entry => receiptVersion entry.1
    require ((receipted.all fun version => version ∈ versions) &&
        versions.all fun version => version ∈ receipted)
      (.runtime "runtime receipt set does not exactly match installed generations")
    .ok (versions.mergeSort fun a b => decide (a ≤ b))
  | _, _ => .error (.runtime "runtime generations and receipts are not a complete owned pair")

def verifyRuntimePointerForRemoval (description : String) (versions : List String) :
    Option (StoredFile RuntimeVersion) → Except SetupError Unit
  | none => .ok ()
  | some file => match file.parse with
    | none => .error (.runtime "active runtime pointer is invalid")
    | some pointer => require (pointer.text ∈ versions)
        (.runtime s!"{description} does not name a receipted runtime generation")

def verifyHealthForRemoval : Option (StoredFile Unit) → Except SetupError Unit
  | none => .ok ()
  | some file => require file.parse.isSome (.runtime "persisted service health is invalid")

/-- The order of the paths. The names of verified pins are all Unicode. -/
def FileName.precedes : FileName → FileName → Bool
  | .unicode a, .unicode b => decide (a ≤ b)
  | .unicode _, .other _ => true
  | .other _, .unicode _ => false
  | .other a, .other b => !b.lex a Nat.blt

def verifyMigrationPinsForRemoval (m : ServiceRoot names) : Except SetupError (List FileName) :=
  match m.migrationPins with
  | none => .ok []
  | some folder => do
    let _ ← loadVerifiedMigrationPins env m
    .ok ((folder.entries.map Prod.fst).mergeSort FileName.precedes)

/-- What is to be removed, if all of it is owned. -/
def prepareOwnedRemoval (m : ServiceRoot names) : Except SetupError OwnedRemovalPlan :=
  if m.present = false then .ok ⟨false, [], [], false, false, false, false, false, false⟩
  else do
    require (m.rootEntryCount ≤ maxServiceRuntimeRootEntries)
      (.runtime "service runtime root entry count exceeds the fixed limit")
    require (!m.pendingTransaction)
      (.runtime "a runtime transaction is pending during uninstall")
    require m.unexpected.isEmpty
      (.runtime "unexpected service runtime entry blocks uninstall")
    let versions ← verifyRemovableGenerations env m
    verifyRuntimePointerForRemoval "active runtime pointer" versions m.runtimePointer
    verifyRuntimePointerForRemoval "previous runtime pointer" versions m.previousRuntime
    verifyHealthForRemoval m.health
    let migrationPins ← verifyMigrationPinsForRemoval env m
    .ok ⟨true, versions, migrationPins, m.runtimePointer.isSome, m.previousRuntime.isSome,
      m.health.isSome, m.versions.isSome, m.receipts.isSome, m.migrationPins.isSome⟩

/-! ## What the plan needs of one generation -/

variable {env} {m : ServiceRoot names} {version : String}

theorem removableVersion_ok {name : FileName} (h : removableVersion env m name = .ok version) :
    name = .unicode version ∧ ∃ verified, verify env m version = .ok verified := by
  unfold removableVersion at h
  cases name with
  | other units => cases h
  | unicode text =>
    obtain ⟨_, _, h⟩ := bind_eq_ok.1 h
    obtain ⟨verified, hverified, h⟩ := bind_eq_ok.1 h
    cases h
    exact ⟨rfl, verified, hverified⟩

theorem receiptVersion_ok {name : FileName} (h : receiptVersion name = .ok version) :
    name = receiptName version := by
  unfold receiptVersion at h
  cases name with
  | other units => cases h
  | unicode text =>
    dsimp only at h
    split at h
    · cases h
    · next stem hstem =>
      obtain ⟨_, _, h⟩ := bind_eq_ok.1 h
      cases h
      exact congrArg FileName.unicode (stripJson_eq_some hstem).symm

/-- A generation that is there is verified under the name it is listed by. -/
theorem verified_of_removable {versions : List String}
    (h : verifyRemovableGenerations env m = .ok versions) {entry : VersionEntry}
    (hentry : m.generation version = some entry) :
    ∃ spelling, names.compared (.unicode spelling) = names.compared (.unicode version) ∧
      ∃ verified, verify env m spelling = .ok verified := by
  unfold ServiceRoot.generation at hentry
  unfold verifyRemovableGenerations at h
  split at h
  · next hversions hreceipts =>
    rw [hversions] at hentry
    cases hentry
  · next generations receipts hversions hreceipts =>
    rw [hversions] at hentry
    obtain ⟨name, hmem, hname⟩ := Folder.exists_of_lookup hentry
    obtain ⟨_, _, h⟩ := bind_eq_ok.1 h
    obtain ⟨removable, hremovable, _⟩ := bind_eq_ok.1 h
    obtain ⟨spelling, _, hspelling⟩ := ok_of_mem_mapM hremovable hmem
    obtain ⟨rfl, hverified⟩ := removableVersion_ok hspelling
    exact ⟨spelling, hname, hverified⟩
  · cases h

/-- A receipt that is there is one of a generation. -/
theorem generation_of_receipt {versions : List String}
    (h : verifyRemovableGenerations env m = .ok versions) {file : StoredFile RuntimeReceipt}
    (hfile : m.receipt version = some file) : (m.generation version).isSome = true := by
  unfold ServiceRoot.receipt at hfile
  unfold verifyRemovableGenerations at h
  split at h
  · next hversions hreceipts =>
    rw [hreceipts] at hfile
    cases hfile
  · next generations receipts hversions hreceipts =>
    rw [hreceipts] at hfile
    obtain ⟨name, hmem, hname⟩ := Folder.exists_of_lookup hfile
    obtain ⟨_, _, h⟩ := bind_eq_ok.1 h
    obtain ⟨removable, hremovable, h⟩ := bind_eq_ok.1 h
    obtain ⟨_, _, h⟩ := bind_eq_ok.1 h
    obtain ⟨receipted, hreceipted, h⟩ := bind_eq_ok.1 h
    obtain ⟨⟨⟩, hsame, _⟩ := bind_eq_ok.1 h
    obtain ⟨spelling, hspelling, hstem⟩ := ok_of_mem_mapM hreceipted hmem
    obtain rfl := receiptVersion_ok hstem
    have hsame := (Bool.and_eq_true_iff.1 (ok_of_require hsame)).1
    have hversion : spelling ∈ removable := by
      simpa using List.all_eq_true.1 hsame spelling hspelling
    obtain ⟨⟨listed, entry⟩, hlisted, hremoved⟩ := mem_of_mapM hremovable hversion
    obtain ⟨rfl, _⟩ := removableVersion_ok hremoved
    have hlookup : m.generation version = some entry := by
      unfold ServiceRoot.generation
      rw [hversions, Option.bind_some, ← Folder.lookup_congr (names.compared_json _ _ hname)]
      exact Folder.lookup_of_mem hlisted
    rw [hlookup]
    rfl
  · cases h

theorem removable_of_plan {plan : OwnedRemovalPlan} (hpresent : m.present = true)
    (h : prepareOwnedRemoval env m = .ok plan) :
    ∃ versions, verifyRemovableGenerations env m = .ok versions := by
  unfold prepareOwnedRemoval at h
  rw [hpresent, if_neg (by decide)] at h
  obtain ⟨_, _, h⟩ := bind_eq_ok.1 h
  obtain ⟨_, _, h⟩ := bind_eq_ok.1 h
  obtain ⟨_, _, h⟩ := bind_eq_ok.1 h
  obtain ⟨versions, hversions, _⟩ := bind_eq_ok.1 h
  exact ⟨versions, hversions⟩

end MacTypeControl.Generations
