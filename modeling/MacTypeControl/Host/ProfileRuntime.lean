import MacTypeControl.Host.Lifecycle
import MacTypeControl.ProfileStore.Store

/-!
# The profile that the service starts with

The host reads what the setup has written with readers of its own. It starts exactly if the
setup's own readers find a profile that is active, whole and beside the DLLs of the runtime,
and no activation is in progress.
-/

namespace MacTypeControl.Host

open Profile Storage
open Injection (StructuredServiceError)
open ProfileStore (readPointer)

variable {χ : Type} (env : StorageEnvironment) (m : Machine χ)

def serviceError (code message : String) : StructuredServiceError := ⟨code, message, none⟩

def activationRecoveryRequired : StructuredServiceError :=
  serviceError "activation-recovery-required"
    "a protected activation journal requires setup recovery before start unless it durably commits and exactly owns the active runtime candidate"

def activeProfileAbsent : StructuredServiceError :=
  serviceError activeProfileAbsentCode
    "no profile has been published yet, so the service stays stopped until setup publishes one"

/-! ## The runtime generation -/

structure ActiveRuntimeGeneration where
  pointer : RuntimeVersion
  root : RuntimeDirectory

def resolve : Except StructuredServiceError ActiveRuntimeGeneration :=
  match m.runtimePointer with
  | none => .error (serviceError "active-runtime-unavailable"
      "the protected active runtime pointer could not be read")
  | some file => match file.parse with
    | none => .error (serviceError "active-runtime-invalid"
        "the protected active runtime pointer has an unsupported value")
    | some pointer => match m.runtimeVersions pointer.text with
      | none => .error (serviceError "active-runtime-unavailable"
          "the protected active runtime generation is missing")
      | some root => .ok ⟨pointer, root⟩

/-- The entries are counted, and no more of them are read than there may be. -/
def validateRuntimeFileSet (root : RuntimeDirectory) : Except StructuredServiceError Unit :=
  let components := root.runtimeFileCount == immutableRuntimeFiles.length
  if components && root.entryCount == immutableRuntimeFiles.length then
    .error (serviceError runtimeProfileAbsentCode
      "the protected runtime has no generated profile, so the service stays stopped until setup publishes one")
  else
    require (components && root.profile.isSome && root.entryCount == immutableRuntimeFiles.length + 1)
      (serviceError "runtime-file-set-invalid"
        "the protected runtime must contain exactly the fixed service, helpers, DLLs, and generated profile")

/-! ## The profile -/

structure VerifiedProfile where
  bytes : Bytes
  generation : GenerationId

def readBoundedProtectedFile (file : Option Bytes) (maximumBytes : ℕ)
    (unavailable invalid : StructuredServiceError) : Except StructuredServiceError Bytes :=
  match file with
  | none => .error unavailable
  | some bytes => do
    require (bytes != [] && bytes.length ≤ maximumBytes) invalid
    .ok bytes

def calculatedGeneration (bytes : Bytes) : Except StructuredServiceError GenerationId :=
  match publishMachineProfile env bytes with
  | .ok calculated => .ok calculated
  | .error _ => .error (serviceError "active-profile-invalid" "the protected profile is not a valid INI")

def verifyActiveProfile : Except StructuredServiceError VerifiedProfile :=
  match m.activeProfile with
  | none => .error activeProfileAbsent
  | some file => match file.parse with
    | none => .error (serviceError "active-profile-invalid"
        "the protected active profile pointer is invalid")
    | some pointer => do
      let bytes ← readBoundedProtectedFile (m.profileGenerations pointer) maxProfileBytes
        (serviceError "active-profile-unavailable"
          "the protected profile generation could not be read")
        (serviceError "active-profile-invalid"
          "the protected profile generation is not a bounded regular file")
      let calculated ← calculatedGeneration env bytes
      require (calculated == pointer) (serviceError "active-profile-tampered"
        "the protected profile digest does not match its generation")
      .ok ⟨bytes, calculated⟩

/-- The runtime that a committed receipt names. Any other receipt asks for recovery. -/
def committedRuntimeActivation : Except StructuredServiceError (Option RuntimeVersion) :=
  match m.activationJournal with
  | none => .ok none
  | some file => match file.parse with
    | some (.current receipt) => do
      require (receipt.phase == .committed) activationRecoveryRequired
      .ok (some receipt.activated)
    | _ => .error activationRecoveryRequired

structure PreparedProfileInitialization where
  committedRuntime : Option RuntimeVersion
  verifiedProfile : Option VerifiedProfile

/-- The profile is looked at before the runtime, unless a committed receipt has to be. -/
def preparedProfile (committedRuntime : Option RuntimeVersion) :
    Except StructuredServiceError PreparedProfileInitialization :=
  match committedRuntime with
  | some pointer => .ok ⟨some pointer, none⟩
  | none => do
    let verified ← verifyActiveProfile env m
    .ok ⟨none, some verified⟩

def prepare : Except StructuredServiceError PreparedProfileInitialization := do
  require m.profileJournal.isNone activationRecoveryRequired
  let committedRuntime ← committedRuntimeActivation m
  preparedProfile env m committedRuntime

/-- What a committed receipt owns and cannot be found is a case for recovery. -/
def resolveGeneration (prepared : PreparedProfileInitialization) :
    Except StructuredServiceError ActiveRuntimeGeneration :=
  (resolve m).mapError fun error =>
    if prepared.committedRuntime.isSome then activationRecoveryRequired else error

def profileOf (prepared : PreparedProfileInitialization) :
    Except StructuredServiceError VerifiedProfile :=
  match prepared.verifiedProfile with
  | some profile => .ok profile
  | none => verifyActiveProfile env m

/-- Of the entries only the absence of the profile is of interest here. -/
def requireRuntimeProfile (root : RuntimeDirectory) : Except StructuredServiceError Unit :=
  match validateRuntimeFileSet root with
  | .error error => require (error.code != runtimeProfileAbsentCode) error
  | .ok () => .ok ()

def InitializedRuntime.ready (activeProfileDigest : Option String) (readiness : ReadinessReport) :
    InitializedRuntime := ⟨activeProfileDigest, readiness, none⟩

/-- What the service starts with when the generation is its profile. -/
def readyWith (generation : GenerationId) : InitializedRuntime :=
  .ready (some generation.text) ⟨.ready, .notRequired, .notRequired, .notRequired⟩

def initializeWithGeneration (prepared : PreparedProfileInitialization)
    (generation : ActiveRuntimeGeneration) : Except StructuredServiceError InitializedRuntime := do
  require (prepared.committedRuntime.all (· == generation.pointer)) activationRecoveryRequired
  let verified ← profileOf env m prepared
  requireRuntimeProfile generation.root
  let runtimeBytes ← readBoundedProtectedFile generation.root.profile maxProfileBytes
    (serviceError "runtime-profile-unavailable"
      "the DLL-adjacent generated MacType.ini could not be read")
    (serviceError "runtime-profile-invalid"
      "the DLL-adjacent generated MacType.ini is not a bounded regular file")
  require (runtimeBytes == verified.bytes && env.sha256Digest runtimeBytes == verified.generation)
    (serviceError "runtime-profile-mismatch"
      "the DLL-adjacent generated MacType.ini does not match the active profile")
  .ok (readyWith verified.generation)

def initializeProtectedProfile : Except StructuredServiceError InitializedRuntime := do
  let prepared ← prepare env m
  let generation ← resolveGeneration m prepared
  initializeWithGeneration env m prepared generation

/-! ## What the setup has to have written -/

/-- Either no activation of a runtime is on record, or a committed one of the runtime that is
active. -/
def CommittedHere : Prop :=
  ∀ file, m.activationJournal = some file → ∃ receipt, file.parse = some (.current receipt) ∧
    receipt.phase = .committed ∧ m.runtimePointer.bind StoredFile.parse = some receipt.activated

/-- The setup finds the generation active, and its bytes beside the DLLs of the active runtime. -/
structure ProfileReady (root : String) (generation : GenerationId) : Prop where
  journal : m.profileJournal = none
  active : readPointer m .active = .ok (some generation)
  runtime : activeRuntimeRoot m = .ok (some root)
  profile : ∃ bytes, verifiedGenerationBytes env m generation = .ok bytes ∧
    m.generatedProfile root = some bytes

/-- No profile is active, and there is a runtime. -/
structure ProfileAbsent (root : String) : Prop where
  journal : m.profileJournal = none
  active : m.activeProfile = none
  runtime : activeRuntimeRoot m = .ok (some root)

variable {env m} {root : String} {generation : GenerationId}

/-! ## The readers of both agree -/

theorem resolve_ok_iff {found : ActiveRuntimeGeneration} :
    resolve m = .ok found ↔ m.runtimePointer.bind StoredFile.parse = some found.pointer ∧
      m.runtimeVersions found.pointer.text = some found.root := by
  unfold resolve
  cases m.runtimePointer with
  | none => simp
  | some file =>
    dsimp only
    cases hparse : file.parse with
    | none => simp [hparse]
    | some pointer =>
      dsimp only
      rw [Option.bind_some, hparse, Option.some.injEq]
      cases hroot : m.runtimeVersions pointer.text with
      | none =>
        refine ⟨(fun h => by cases h), ?_⟩
        rintro ⟨rfl, hfound⟩
        rw [hroot] at hfound
        cases hfound
      | some directory =>
        refine ⟨(fun h => by cases h; exact ⟨rfl, hroot⟩), ?_⟩
        rintro ⟨rfl, hfound⟩
        rw [hroot, Option.some.injEq] at hfound
        rw [hfound]

/-- The setup names a runtime by its directory, which is that of the pointer. -/
theorem activeRuntimeRoot_ok_iff : activeRuntimeRoot m = .ok (some root) ↔
    ∃ found, resolve m = .ok found ∧ found.pointer.text = root := by
  unfold activeRuntimeRoot
  constructor
  · intro h
    split at h
    · cases h
    · next file hfile =>
      split at h
      · cases h
      · next version hversion =>
        obtain ⟨⟨⟩, hsome, h⟩ := bind_eq_ok.1 h
        obtain ⟨directory, hdirectory⟩ := Option.isSome_iff_exists.1 (ok_of_require hsome)
        refine ⟨⟨version, directory⟩, resolve_ok_iff.2 ⟨?_, hdirectory⟩, ?_⟩
        · rw [hfile]
          exact hversion
        · exact Option.some.inj (Except.ok.inj h)
  · rintro ⟨found, hfound, rfl⟩
    obtain ⟨hpointer, hroot⟩ := resolve_ok_iff.1 hfound
    cases hfile : m.runtimePointer with
    | none =>
      rw [hfile] at hpointer
      cases hpointer
    | some file =>
      rw [hfile] at hpointer
      have hparse : file.parse = some found.pointer := hpointer
      dsimp only
      rw [hparse]
      dsimp only
      rw [hroot]
      exact bind_eq_ok.2 ⟨(), require_true _ rfl, rfl⟩

theorem readBoundedProtectedFile_ok_iff {file : Option Bytes} {maximumBytes : ℕ}
    {unavailable invalid : StructuredServiceError} {bytes : Bytes} :
    readBoundedProtectedFile file maximumBytes unavailable invalid = .ok bytes ↔
      file = some bytes ∧ bytes ≠ [] ∧ bytes.length ≤ maximumBytes := by
  unfold readBoundedProtectedFile
  cases file with
  | none => exact ⟨(fun h => by cases h), (fun h => by cases h.1)⟩
  | some stored =>
    constructor
    · intro h
      obtain ⟨⟨⟩, hbounded, h⟩ := bind_eq_ok.1 h
      cases h
      exact ⟨rfl, by simpa using ok_of_require hbounded⟩
    · rintro ⟨hstored, hne, hlength⟩
      cases hstored
      exact bind_eq_ok.2 ⟨(), require_true _ (by simp [hne, hlength]), rfl⟩

theorem calculatedGeneration_ok_iff {bytes : Bytes} {calculated : GenerationId} :
    calculatedGeneration env bytes = .ok calculated ↔
      publishMachineProfile env bytes = .ok calculated := by
  unfold calculatedGeneration
  cases publishMachineProfile env bytes with
  | ok found => exact ⟨(fun h => by cases h; rfl), (fun h => by cases h; rfl)⟩
  | error e => exact ⟨(fun h => by cases h), (fun h => by cases h)⟩

theorem verifiedGenerationBytes_ok_iff {bytes : Bytes} :
    verifiedGenerationBytes env m generation = .ok bytes ↔
      m.profileGenerations generation = some bytes ∧ (bytes ≠ [] ∧ bytes.length ≤ maxProfileBytes) ∧
        publishMachineProfile env bytes = .ok generation := by
  unfold verifiedGenerationBytes
  cases m.profileGenerations generation with
  | none => exact ⟨(fun h => by cases h), (fun h => by cases h.1)⟩
  | some stored =>
    constructor
    · intro h
      obtain ⟨⟨⟩, hbounded, h⟩ := bind_eq_ok.1 h
      obtain ⟨calculated, hcalculated, h⟩ := bind_eq_ok.1 h
      obtain ⟨⟨⟩, hsame, h⟩ := bind_eq_ok.1 h
      cases h
      obtain rfl : calculated = generation := beq_iff_eq.1 (ok_of_require hsame)
      exact ⟨rfl, by simpa using ok_of_require hbounded, hcalculated⟩
    · rintro ⟨hstored, ⟨hne, hlength⟩, hcalculated⟩
      cases hstored
      refine bind_eq_ok.2 ⟨(), require_true _ (by simp [hne, hlength]), ?_⟩
      refine bind_eq_ok.2 ⟨generation, hcalculated, ?_⟩
      exact bind_eq_ok.2 ⟨(), require_true _ (beq_self_eq_true _), rfl⟩

theorem readPointer_active_iff : readPointer m .active = .ok (some generation) ↔
    m.activeProfile.bind StoredFile.parse = some generation := by
  change readOptionalPointer m.activeProfile = _ ↔ _
  unfold readOptionalPointer
  cases m.activeProfile with
  | none => simp
  | some file =>
    dsimp only
    rw [Option.bind_some]
    cases file.parse <;> simp

theorem verifyActiveProfile_ok_iff {verified : VerifiedProfile} :
    verifyActiveProfile env m = .ok verified ↔
      readPointer m .active = .ok (some verified.generation) ∧
        verifiedGenerationBytes env m verified.generation = .ok verified.bytes := by
  rw [readPointer_active_iff, verifiedGenerationBytes_ok_iff]
  unfold verifyActiveProfile
  cases m.activeProfile with
  | none => exact ⟨(fun h => by cases h), (fun h => by cases h.1)⟩
  | some file =>
    dsimp only
    rw [Option.bind_some]
    cases file.parse with
    | none => exact ⟨(fun h => by cases h), (fun h => by cases h.1)⟩
    | some pointer =>
      constructor
      · intro h
        obtain ⟨bytes, hbytes, h⟩ := bind_eq_ok.1 h
        obtain ⟨calculated, hcalculated, h⟩ := bind_eq_ok.1 h
        obtain ⟨⟨⟩, hsame, h⟩ := bind_eq_ok.1 h
        cases h
        obtain rfl : calculated = pointer := beq_iff_eq.1 (ok_of_require hsame)
        obtain ⟨hstored, hbounded⟩ := readBoundedProtectedFile_ok_iff.1 hbytes
        exact ⟨rfl, hstored, hbounded, calculatedGeneration_ok_iff.1 hcalculated⟩
      · rintro ⟨hpointer, hstored, hbounded, hcalculated⟩
        obtain rfl := Option.some.inj hpointer
        refine bind_eq_ok.2 ⟨_, readBoundedProtectedFile_ok_iff.2 ⟨hstored, hbounded⟩, ?_⟩
        refine bind_eq_ok.2 ⟨_, calculatedGeneration_ok_iff.2 hcalculated, ?_⟩
        exact bind_eq_ok.2 ⟨(), require_true _ (beq_self_eq_true _), rfl⟩

/-! ## The start -/

theorem committedRuntimeActivation_ok_iff {committed : Option RuntimeVersion} :
    committedRuntimeActivation m = .ok committed ↔
      (m.activationJournal = none ∧ committed = none) ∨
        ∃ file receipt, m.activationJournal = some file ∧ file.parse = some (.current receipt) ∧
          receipt.phase = .committed ∧ committed = some receipt.activated := by
  unfold committedRuntimeActivation
  cases m.activationJournal with
  | none => simp [eq_comm]
  | some file =>
    dsimp only
    constructor
    · intro h
      split at h
      · next receipt hparse =>
        obtain ⟨⟨⟩, hphase, h⟩ := bind_eq_ok.1 h
        have hcommitted := beq_iff_eq.1 (ok_of_require hphase)
        exact .inr ⟨file, receipt, rfl, hparse, hcommitted, (Except.ok.inj h).symm⟩
      · cases h
    · rintro (⟨hnone, -⟩ | ⟨other, receipt, hfile, hparse, hphase, rfl⟩)
      · cases hnone
      · cases hfile
        rw [hparse]
        exact bind_eq_ok.2 ⟨(), require_true _ (beq_iff_eq.2 hphase), rfl⟩

theorem sha256Digest_of_publish {bytes : Bytes}
    (h : publishMachineProfile env bytes = .ok generation) :
    env.sha256Digest bytes = generation := by
  unfold publishMachineProfile at h
  split at h
  · exact Except.ok.inj h
  · cases h

/-- The profile is not missed where there is one, whatever else there is. -/
theorem requireRuntimeProfile_ok {directory : RuntimeDirectory}
    (h : directory.profile.isSome = true) : requireRuntimeProfile directory = .ok () := by
  have hprofile : directory.profile.toList.length = 1 := by
    obtain ⟨bytes, hbytes⟩ := Option.isSome_iff_exists.1 h
    rw [hbytes]
    rfl
  have hmore : ¬(directory.runtimeFileCount == immutableRuntimeFiles.length &&
      directory.entryCount == immutableRuntimeFiles.length) = true := by
    unfold RuntimeDirectory.entryCount
    simp only [Bool.and_eq_true, beq_iff_eq]
    omega
  unfold requireRuntimeProfile validateRuntimeFileSet
  dsimp only
  rw [if_neg hmore]
  -- A set that is wrong in another way is not what is looked for here.
  have hother : ("runtime-file-set-invalid" != runtimeProfileAbsentCode) = true := by decide
  generalize (directory.runtimeFileCount == immutableRuntimeFiles.length &&
    directory.profile.isSome &&
    directory.entryCount == immutableRuntimeFiles.length + 1) = complete
  cases complete with
  | false => exact require_true _ hother
  | true => rfl

/-- With the profile that both readers know, the start depends on what is beside the DLLs. -/
theorem initializeWithGeneration_ok_iff {prepared : PreparedProfileInitialization}
    {found : ActiveRuntimeGeneration} {initialized : InitializedRuntime} :
    initializeWithGeneration env m prepared found = .ok initialized ↔
      prepared.committedRuntime.all (· == found.pointer) = true ∧
        ∃ verified, profileOf env m prepared = .ok verified ∧
          found.root.profile = some verified.bytes ∧
          (verified.bytes ≠ [] ∧ verified.bytes.length ≤ maxProfileBytes) ∧
          env.sha256Digest verified.bytes = verified.generation ∧
          initialized = readyWith verified.generation := by
  unfold initializeWithGeneration
  constructor
  · intro h
    obtain ⟨⟨⟩, howned, h⟩ := bind_eq_ok.1 h
    obtain ⟨verified, hverified, h⟩ := bind_eq_ok.1 h
    obtain ⟨⟨⟩, _, h⟩ := bind_eq_ok.1 h
    obtain ⟨bytes, hbytes, h⟩ := bind_eq_ok.1 h
    obtain ⟨⟨⟩, hmatch, hready⟩ := bind_eq_ok.1 h
    obtain ⟨hprofile, hbounded⟩ := readBoundedProtectedFile_ok_iff.1 hbytes
    have hsame := ok_of_require hmatch
    simp only [Bool.and_eq_true, beq_iff_eq] at hsame
    obtain ⟨rfl, hdigest⟩ := hsame
    exact ⟨ok_of_require howned, verified, hverified, hprofile, hbounded, hdigest,
      (Except.ok.inj hready).symm⟩
  · rintro ⟨howned, verified, hverified, hprofile, hbounded, hdigest, rfl⟩
    have hsome : found.root.profile.isSome = true := by
      rw [hprofile]
      rfl
    refine bind_eq_ok.2 ⟨(), require_true _ howned, ?_⟩
    refine bind_eq_ok.2 ⟨verified, hverified, ?_⟩
    refine bind_eq_ok.2 ⟨(), requireRuntimeProfile_ok hsome, ?_⟩
    refine bind_eq_ok.2 ⟨_, readBoundedProtectedFile_ok_iff.2 ⟨hprofile, hbounded⟩, ?_⟩
    exact bind_eq_ok.2 ⟨(), require_true _ (by simp [hdigest]), rfl⟩

/-- What is prepared can only be the profile that is active, looked at now or later. -/
theorem prepare_ok_iff {prepared : PreparedProfileInitialization} :
    prepare env m = .ok prepared ↔ m.profileJournal = none ∧
      committedRuntimeActivation m = .ok prepared.committedRuntime ∧
      preparedProfile env m prepared.committedRuntime = .ok prepared := by
  unfold prepare
  constructor
  · intro h
    obtain ⟨⟨⟩, hjournal, h⟩ := bind_eq_ok.1 h
    obtain ⟨committed, hcommitted, h⟩ := bind_eq_ok.1 h
    have hsame : prepared.committedRuntime = committed := by
      cases committed with
      | none =>
        obtain ⟨verified, _, h⟩ := bind_eq_ok.1 h
        cases h
        rfl
      | some pointer =>
        cases h
        rfl
    rw [hsame]
    exact ⟨Option.isNone_iff_eq_none.1 (ok_of_require hjournal), hcommitted, h⟩
  · rintro ⟨hjournal, hcommitted, h⟩
    refine bind_eq_ok.2 ⟨(), require_true _ (Option.isNone_iff_eq_none.2 hjournal), ?_⟩
    exact bind_eq_ok.2 ⟨_, hcommitted, h⟩

theorem profileOf_prepared {prepared : PreparedProfileInitialization}
    (h : preparedProfile env m prepared.committedRuntime = .ok prepared) :
    profileOf env m prepared = verifyActiveProfile env m := by
  cases hcommitted : prepared.committedRuntime with
  | none =>
    rw [hcommitted] at h
    obtain ⟨verified, hverified, h⟩ := bind_eq_ok.1 h
    cases h
    exact hverified.symm
  | some pointer =>
    rw [hcommitted] at h
    cases h
    rfl

theorem resolveGeneration_ok_iff {prepared : PreparedProfileInitialization}
    {found : ActiveRuntimeGeneration} :
    resolveGeneration m prepared = .ok found ↔ resolve m = .ok found := by
  unfold resolveGeneration
  cases resolve m with
  | ok generation => exact Iff.rfl
  | error e => exact ⟨(fun h => by cases h), (fun h => by cases h)⟩

/-- The service starts exactly if the setup finds a profile active and whole, finds the same bytes
beside the DLLs of the active runtime, and is not at work on either; it starts with that profile. -/
theorem initializeProtectedProfile_ok_iff (env : StorageEnvironment) (m : Machine χ)
    (initialized : InitializedRuntime) :
    initializeProtectedProfile env m = .ok initialized ↔ CommittedHere m ∧
      ∃ root generation, ProfileReady env m root generation ∧
        initialized = readyWith generation := by
  constructor
  · intro h
    obtain ⟨prepared, hprepared, h⟩ := bind_eq_ok.1 h
    obtain ⟨found, hfound, h⟩ := bind_eq_ok.1 h
    obtain ⟨hjournal, hcommitted, hprofile⟩ := prepare_ok_iff.1 hprepared
    have hresolved := resolveGeneration_ok_iff.1 hfound
    obtain ⟨hpointer, hroot⟩ := resolve_ok_iff.1 hresolved
    obtain ⟨howned, verified, hverified, hruntime, hbounded, hdigest, rfl⟩ :=
      initializeWithGeneration_ok_iff.1 h
    rw [profileOf_prepared hprofile] at hverified
    obtain ⟨hactive, hbytes⟩ := verifyActiveProfile_ok_iff.1 hverified
    refine ⟨fun file hfile => ?_, found.pointer.text, verified.generation,
      ⟨hjournal, hactive, activeRuntimeRoot_ok_iff.2 ⟨found, hresolved, rfl⟩,
        verified.bytes, hbytes, ?_⟩, rfl⟩
    · rcases committedRuntimeActivation_ok_iff.1 hcommitted with
        ⟨hnone, -⟩ | ⟨other, receipt, hother, hparse, hphase, hsome⟩
      · rw [hnone] at hfile
        cases hfile
      · obtain rfl : other = file := Option.some.inj (hother.symm.trans hfile)
        rw [hsome, Option.all_some, beq_iff_eq] at howned
        exact ⟨receipt, hparse, hphase, hpointer.trans (congrArg some howned.symm)⟩
    · unfold Machine.generatedProfile
      rw [hroot]
      exact hruntime
  · rintro ⟨hcommitted, root, generation, hready, rfl⟩
    obtain ⟨found, hresolved, rfl⟩ := activeRuntimeRoot_ok_iff.1 hready.runtime
    obtain ⟨hpointer, hroot⟩ := resolve_ok_iff.1 hresolved
    obtain ⟨bytes, hbytes, hprofile⟩ := hready.profile
    have hstored := verifiedGenerationBytes_ok_iff.1 hbytes
    have hverified : verifyActiveProfile env m = .ok ⟨bytes, generation⟩ :=
      verifyActiveProfile_ok_iff.2 ⟨hready.active, hbytes⟩
    have hruntime : found.root.profile = some bytes := by
      unfold Machine.generatedProfile at hprofile
      rw [hroot] at hprofile
      exact hprofile
    obtain ⟨prepared, hprepared, howned⟩ : ∃ prepared, prepare env m = .ok prepared ∧
        prepared.committedRuntime.all (· == found.pointer) = true := by
      cases hfile : m.activationJournal with
      | none =>
        have hnone := committedRuntimeActivation_ok_iff.2 (.inl ⟨hfile, rfl⟩)
        refine ⟨⟨none, some ⟨bytes, generation⟩⟩, ?_, rfl⟩
        exact prepare_ok_iff.2 ⟨hready.journal, hnone, bind_eq_ok.2 ⟨_, hverified, rfl⟩⟩
      | some file =>
        obtain ⟨receipt, hparse, hphase, hactivated⟩ := hcommitted file hfile
        have hsame : found.pointer = receipt.activated :=
          Option.some.inj (hpointer.symm.trans hactivated)
        refine ⟨⟨some receipt.activated, none⟩, prepare_ok_iff.2 ⟨hready.journal, ?_, rfl⟩, ?_⟩
        · exact committedRuntimeActivation_ok_iff.2
            (.inr ⟨file, receipt, hfile, hparse, hphase, rfl⟩)
        · rw [hsame, Option.all_some]
          exact beq_self_eq_true _
    have hprofileOf := profileOf_prepared (prepare_ok_iff.1 hprepared).2.2
    refine bind_eq_ok.2 ⟨prepared, hprepared, ?_⟩
    refine bind_eq_ok.2 ⟨found, resolveGeneration_ok_iff.2 hresolved, ?_⟩
    exact initializeWithGeneration_ok_iff.2 ⟨howned, _, hprofileOf.trans hverified, hruntime,
      hstored.2.1, sha256Digest_of_publish hstored.2.2, rfl⟩

/-! ## Starts that are refused -/

/-- While an activation of a profile is on record, only the setup can go on. -/
theorem initializeProtectedProfile_journal (h : m.profileJournal ≠ none) :
    initializeProtectedProfile env m = .error activationRecoveryRequired := by
  obtain ⟨file, hfile⟩ := Option.ne_none_iff_exists'.1 h
  unfold initializeProtectedProfile prepare
  rw [hfile]
  rfl

theorem verifyActiveProfile_absent (h : m.activeProfile = none) :
    verifyActiveProfile env m = .error activeProfileAbsent := by
  unfold verifyActiveProfile
  rw [h]

theorem initializeProtectedProfile_absent (hcommitted : CommittedHere m)
    (h : ProfileAbsent m root) :
    initializeProtectedProfile env m = .error activeProfileAbsent := by
  have habsent : verifyActiveProfile env m = .error activeProfileAbsent :=
    verifyActiveProfile_absent h.active
  have hjournal : require m.profileJournal.isNone activationRecoveryRequired = .ok () :=
    require_true _ (Option.isNone_iff_eq_none.2 h.journal)
  obtain ⟨found, hresolved, -⟩ := activeRuntimeRoot_ok_iff.1 h.runtime
  obtain ⟨hpointer, -⟩ := resolve_ok_iff.1 hresolved
  unfold initializeProtectedProfile prepare
  rw [hjournal]
  cases hfile : m.activationJournal with
  | none =>
    rw [committedRuntimeActivation_ok_iff.2 (.inl ⟨hfile, rfl⟩)]
    change (do
      let prepared ← (do
        let verified ← verifyActiveProfile env m
        .ok ⟨none, some verified⟩ : Except _ PreparedProfileInitialization)
      let generation ← resolveGeneration m prepared
      initializeWithGeneration env m prepared generation) = _
    rw [habsent]
    rfl
  | some file =>
    obtain ⟨receipt, hparse, hphase, hactivated⟩ := hcommitted file hfile
    have hsame : found.pointer = receipt.activated :=
      Option.some.inj (hpointer.symm.trans hactivated)
    have howned : require ((some receipt.activated).all (· == found.pointer))
        activationRecoveryRequired = .ok () := by
      rw [hsame]
      exact require_true _ (beq_self_eq_true _)
    have hgeneration : resolveGeneration m ⟨some receipt.activated, none⟩ = .ok found :=
      resolveGeneration_ok_iff.2 hresolved
    rw [committedRuntimeActivation_ok_iff.2 (.inr ⟨file, receipt, hfile, hparse, hphase, rfl⟩)]
    change (do
      let generation ← resolveGeneration m ⟨some receipt.activated, none⟩
      initializeWithGeneration env m ⟨some receipt.activated, none⟩ generation) = _
    rw [hgeneration]
    change (do
      require ((some receipt.activated).all (· == found.pointer)) activationRecoveryRequired
      let verified ← verifyActiveProfile env m
      _ : Except _ InitializedRuntime) = _
    rw [howned, habsent]
    rfl

end MacTypeControl.Host
