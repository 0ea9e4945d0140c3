import MacTypeControl.Storage.BridgeLogic

/-!
# The generations of the runtime

What the installer reads and writes of the runtime: the pointer to the current generation, the
verification of a generation against the receipt it was installed with, and the activation
receipt by its schema.
-/

namespace MacTypeControl.Installer

open Crash Crash.Prog Profile Storage

variable {χ : Type}

namespace Receipt

open ParsedRuntimeActivationReceipt

def previous : ParsedRuntimeActivationReceipt → Option RuntimeVersion
  | legacy previous => previous
  | uncommitted previous _ => previous
  | current receipt => receipt.previous

def activated : ParsedRuntimeActivationReceipt → Option RuntimeVersion
  | legacy _ => none
  | uncommitted _ activated => some activated
  | current receipt => some receipt.activated

def phase : ParsedRuntimeActivationReceipt → Option RuntimeActivationPhase
  | current receipt => some receipt.phase
  | _ => none

end Receipt

/-! ## Reading -/

def maxRuntimeFileBytes : ℕ := 32 * 1024 * 1024

/-- The generation that the runtime pointer names, if its service binary is there. -/
def current (m : Machine χ) : Except SetupError (Option RuntimeVersion) :=
  match m.runtimePointer with
  | none => .ok none
  | some file => match file.parse with
    | none => .error (.runtime "active runtime pointer is invalid")
    | some version => do
      require ((m.runtimeVersions version.text).bind (·.files .service)).isSome
        (.runtime "active service binary is missing")
      .ok (some version)

variable (env : StorageEnvironment)

def verifyRuntimeFile (receipt : RuntimeReceipt) (directory : RuntimeDirectory)
    (file : RuntimeFile) : Except SetupError Unit :=
  match directory.files file with
  | none => .error (.runtime "runtime generation is missing a receipt file")
  | some bytes => do
    let bytes ← readBoundedRegularFile bytes maxRuntimeFileBytes "runtime generation file"
    require (env.sha256Digest bytes == receipt.files file)
      (.runtime "runtime generation file differs from its receipt")

def verifyRuntimeEntries (receipt : RuntimeReceipt) (directory : RuntimeDirectory) :
    Except SetupError Unit := do
  require (directory.entryCount ≤ immutableRuntimeFiles.length + 1)
    (.runtime "runtime generation entry count exceeds the fixed limit")
  require (immutableRuntimeFiles.length ≤ directory.entryCount)
    (.runtime "runtime generation contains an unexpected file set")
  require (directory.temporaries == [] && directory.foreign == [])
    (.runtime "runtime generation contains an unsigned file")
  require (directory.profile.all fun bytes => bytes != [] && bytes.length ≤ maxProfileBytes)
    (.runtime "generated profile is not a bounded regular file")
  immutableRuntimeFiles.forM (verifyRuntimeFile env receipt directory)

/-- The directory has the files its version was installed with, and the generated profile at
most beside them. -/
def verify (m : Machine χ) (version : RuntimeVersion) : Except SetupError Unit :=
  match m.runtimeVersions version.text, m.runtimeReceipts version with
  | some directory, some file => match file.parse with
    | none => .error (.runtime "runtime generation receipt is invalid")
    | some receipt => do
      require (receipt.version == version)
        (.runtime "runtime generation receipt violates the fixed manifest contract")
      verifyRuntimeEntries env receipt directory
  | _, _ => .error .io

/-! ## The profile beside the DLLs -/

/-- What the bridge does not touch: the runtime pointer, the activation journal and the
surroundings. -/
def SameTransaction (m t : Machine χ) : Prop :=
  t.runtimePointer = m.runtimePointer ∧ t.activationJournal = m.activationJournal ∧
    t.surroundings = m.surroundings

theorem SameTransaction.refl (m : Machine χ) : SameTransaction m m := ⟨rfl, rfl, rfl⟩

theorem SameTransaction.updateDirectory {m t : Machine χ} (h : SameTransaction m t) (name : String)
    (f : RuntimeDirectory → RuntimeDirectory) : SameTransaction m (t.updateDirectory name f) := h

theorem maintains_materializeActive (m : Machine χ) :
    Maintains (SameTransaction m) (materializeActive env) fun _ => True :=
  Storage.maintains_materializeActive fun _ name f h => h.updateDirectory name f

/-! ## The generation before the current one -/

/-- The generation before the current one, which is remembered if it was another. `seen` is what is
found of the pointer to it. -/
def rememberedGeneration {σ : Type} (seen : σ → Option (StoredFile RuntimeVersion))
    (remember : StoredFile RuntimeVersion → σ → σ) (oldPointer : Option RuntimeVersion)
    (currentVersion : RuntimeVersion) : Prog σ SetupError (Option RuntimeVersion) :=
  match oldPointer.filter (· ≠ currentVersion) with
  | some previous => do
    modify .io (remember (.written previous))
    ret (some previous)
  | none => inspect .io fun s => match seen s with
    | none => .ok none
    | some file => match file.parse with
      | none => .error (.runtime "active runtime pointer is invalid")
      | some previous => .ok (some previous)

end MacTypeControl.Installer
