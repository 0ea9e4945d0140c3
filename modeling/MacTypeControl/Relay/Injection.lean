import MacTypeControl.Relay.Classification
import Mathlib.Algebra.GroupWithZero.Nat

/-!
# Modifying a suspended child

A child of the relay's own architecture is modified by a call. For any other child a helper
process of that architecture is started, which gets five seconds and answers by its exit code.
-/

namespace MacTypeControl.Relay

/-- A kernel handle, 0 where there is none. -/
abbrev Handle := ℕ

def errorSuccess : ℕ := 0

def errorFileNotFound : ℕ := 2

def errorNotEnoughMemory : ℕ := 8

def errorInvalidParameter : ℕ := 87

def errorProcNotFound : ℕ := 127

def errorProcessAborted : ℕ := 1067

def errorNoUnicodeTranslation : ℕ := 1113

def errorDllInitFailed : ℕ := 1114

def errorTimeout : ℕ := 1460

def imageFileMachineUnknown : ℕ := 0

def imageFileMachineI386 : ℕ := 0x14c

def imageFileMachineAmd64 : ℕ := 0x8664

/-- How the system tells the architecture of a process: by two machines where it has
`IsWow64Process2`, else by a flag for the asking process and one for the target. -/
inductive Wow64Answers where
  | machines (answer : Option (ℕ × ℕ))
  | flags (current target : Option Bool)

/-- What the system answers about a process at one time. -/
structure ProcessView where
  processId : ℕ
  creationTime : Option ℕ
  sessionId : Option ℕ
  wow64 : Wow64Answers

structure ProcessInformation where
  process : Handle
  thread : Handle
  processId : ℕ
  threadId : ℕ
  deriving DecidableEq

def ProcessInformation.cleared : ProcessInformation := ⟨0, 0, 0, 0⟩

structure VerifiedChild where
  process : Handle
  primaryThread : Handle
  processId : ℕ
  creationTime : ℕ
  sessionId : ℕ
  target32Bit : Bool

structure InjectionAttempt where
  disposition : ChildRelayDisposition
  reason : ChildRelayReason
  windowsError : ℕ

def injected : InjectionAttempt := ⟨.injected, .none, errorSuccess⟩

def quietSkip (reason : ChildRelayReason) : InjectionAttempt :=
  ⟨.quietlySkipped, reason, errorSuccess⟩

def relayFailure (reason : ChildRelayReason) (error : ℕ) : InjectionAttempt :=
  ⟨.relayFailed, reason, error⟩

def unsafeToResume (reason : ChildRelayReason) (error : ℕ) : InjectionAttempt :=
  ⟨.unsafeToResume, reason, error⟩

/-- What is done to a child, and what is learnt of a modification of it. -/
inductive ChildEvent where
  | updated (succeeded : Bool)
  | helperStarted
  | helperTerminated (exitCode : ℕ)
  | helperExited (exitCode : Option ℕ)
  | resumed (thread : Handle) (succeeded : Bool)
  | terminated (process : Handle) (exitCode : ℕ)
  | closed (handle : Handle)
  deriving DecidableEq

/-! ## The identity of the child -/

section

variable (is64Bit : Bool)

def tryGetTarget32Bit : Wow64Answers → Option Bool
  | .machines none => none
  | .machines (some (process, native)) =>
    if process = imageFileMachineI386 ∨
        (process = imageFileMachineUnknown ∧ native = imageFileMachineI386) then some true
    else if process = imageFileMachineAmd64 ∨
        (process = imageFileMachineUnknown ∧ native = imageFileMachineAmd64) then some false
    else none
  | .flags (some current) (some target) =>
    some (if is64Bit then target else if current then target else true)
  | .flags _ _ => none

/-- The creation time and the session. -/
def targetIdentity (view : ProcessView) : Option (ℕ × ℕ) := do
  let creationTime ← view.creationTime
  let sessionId ← view.sessionId
  if creationTime ≠ 0 then some (creationTime, sessionId) else none

def captureVerifiedChild (info : ProcessInformation) (view : ProcessView) :
    Option VerifiedChild := do
  if info.process = 0 ∨ info.thread = 0 ∨ info.processId = 0 ∨ view.processId ≠ info.processId then
    none
  else
    let (creationTime, sessionId) ← targetIdentity view
    let target32Bit ← tryGetTarget32Bit is64Bit view.wow64
    some ⟨info.process, info.thread, info.processId, creationTime, sessionId, target32Bit⟩

def revalidateVerifiedChild (target : VerifiedChild) (view : ProcessView) : Bool :=
  view.processId = target.processId ∧
    targetIdentity view = some (target.creationTime, target.sessionId) ∧
    tryGetTarget32Bit is64Bit view.wow64 = some target.target32Bit

variable {is64Bit} in
/-- A child that was captured has its handles. -/
theorem handles_of_capture {info : ProcessInformation} {view : ProcessView} {target : VerifiedChild}
    (h : captureVerifiedChild is64Bit info view = some target) :
    info.process ≠ 0 ∧ info.thread ≠ 0 := by
  unfold captureVerifiedChild at h
  split at h
  · cases h
  · next hvalid => exact ⟨fun hprocess => hvalid (Or.inl hprocess),
      fun hthread => hvalid (Or.inr (Or.inl hthread))⟩

end

/-! ## The module that is loaded -/

/-- What the system answers about the files. The name of the relay's own module is absent when
the query fails, or when there is no memory for it. -/
structure ModuleAnswers where
  moduleFileName : Option (List Char)
  isFile : List Char → Bool

namespace ModuleAnswers

/-- The directory with its last backslash, and whether the relay is a core build. -/
def currentModuleDirectory (answers : ModuleAnswers) : Option (List Char × Bool) := do
  let current ← answers.moduleFileName
  if current.length = 0 ∨ current.length ≥ 32768 then none
  else
    let slash ← fromLast '\\' current
    let currentName := slash.tail
    if currentName = [] then none
    else
      some (current.take (current.length - currentName.length),
        sameIgnoringCase currentName "MacType.Core.dll".toList ||
          sameIgnoringCase currentName "MacType64.Core.dll".toList)

def targetName (target32Bit coreBuild : Bool) : List Char :=
  (if target32Bit then (if coreBuild then "MacType.Core.dll" else "MacType.dll")
    else (if coreBuild then "MacType64.Core.dll" else "MacType64.dll")).toList

def fixedModulePath (answers : ModuleAnswers) (target32Bit : Bool) : Option (List Char) := do
  let (directory, coreBuild) ← answers.currentModuleDirectory
  let profile := directory ++ "MacType.ini".toList
  let target := directory ++ targetName target32Bit coreBuild
  if answers.isFile profile && answers.isFile target then some target else none

end ModuleAnswers

inductive HelperWait where
  | object
  | timeout
  | failed (error : ℕ)
  deriving DecidableEq

/-- The process that runs the relay: what it is, and what the system answers to each call of
the relay, which are all made once. -/
structure RelayProcess where
  is64Bit : Bool
  captured : ProcessView
  revalidated : ProcessView
  target : TargetAnswers
  admission : AdmissionLists
  module : ModuleAnswers
  helperModule : ModuleAnswers
  ansi : List Char → Option (List Char)
  detourUpdateProcessWithDll : Handle → List Char → Except ℕ Unit
  windowsDirectory : Option (List Char)
  duplicateHandle : Handle → Except ℕ Handle
  attributeList : Handle → Except ℕ Unit
  memoryForCommand : Bool
  createHelper : (helperPath command : List Char) → Except ℕ Unit
  helperWait : HelperWait
  helperExitCode : Except ℕ ℕ

namespace RelayProcess

variable (relay : RelayProcess)

def oppositeArchitectureRundll32 : Option (List Char) := do
  let directory ← relay.windowsDirectory
  if directory.length = 0 ∨ directory.length ≥ 32768 then none
  else
    let path := directory ++ (if relay.is64Bit then "\\SysWOW64\\rundll32.exe"
      else "\\Sysnative\\rundll32.exe").toList
    if relay.helperModule.isFile path then some path else none

def relayMarker : String := "--mactype-relay-helper"

def helperCommand (helperPath modulePath : List Char) (inherited : Handle)
    (target : VerifiedChild) : List Char :=
  "\"".toList ++ helperPath ++ "\" \"".toList ++ modulePath ++
    ("\",RelayChildProcess " ++ relayMarker ++ " " ++ toString inherited ++ " " ++
      toString target.processId ++ " " ++ toString target.creationTime ++ " " ++
      toString target.sessionId).toList

/-- Everything up to the start of the helper. -/
def startHelper (target : VerifiedChild) : Except InjectionAttempt Unit := do
  let failure := relayFailure .mixedArchitectureHelperFailed
  match relay.helperModule.fixedModulePath target.target32Bit,
      relay.oppositeArchitectureRundll32 with
  | some modulePath, some helperPath =>
    let inherited ← (relay.duplicateHandle target.process).mapError failure
    (relay.attributeList inherited).mapError failure
    if relay.memoryForCommand then
      (relay.createHelper helperPath (helperCommand helperPath modulePath inherited target)).mapError
        failure
    else .error (failure errorNotEnoughMemory)
  | _, _ => .error (relayFailure .fixedGenerationUnavailable errorFileNotFound)

/-- The helper was started. -/
def awaitHelper : InjectionAttempt × List ChildEvent :=
  match relay.helperWait with
  | .timeout => (unsafeToResume .mixedArchitectureHelperTimeout errorTimeout,
      [.helperStarted, .helperTerminated errorTimeout])
  | .failed error => (unsafeToResume .mixedArchitectureHelperFailed error,
      [.helperStarted, .helperTerminated error])
  | .object =>
    match relay.helperExitCode with
    | .error error =>
      (relayFailure .mixedArchitectureHelperFailed error, [.helperStarted, .helperExited none])
    | .ok exitCode =>
      let events := [.helperStarted, .helperExited (some exitCode)]
      if exitCode = errorSuccess then (injected, events)
      else match decodeQuietSkip exitCode with
        | some quietReason => (quietSkip quietReason, events)
        | none => (relayFailure .mixedArchitectureHelperFailed exitCode, events)

def injectWithMatchingHelper (target : VerifiedChild) : InjectionAttempt × List ChildEvent :=
  match relay.startHelper target with
  | .error attempt => (attempt, [])
  | .ok () => relay.awaitHelper

/-- The checks before a modification, which give the module to load. -/
def admittedModule (process : VerifiedChild) : Except InjectionAttempt (List Char) :=
  let classification :=
    classifyTarget relay.target relay.admission.isExeUnload process.sessionId
  if classification ≠ .none then .error (quietSkip classification)
  else if !revalidateVerifiedChild relay.is64Bit process relay.revalidated then
    .error (relayFailure .identityUnavailable errorInvalidParameter)
  else match relay.module.fixedModulePath process.target32Bit with
    | none => .error (relayFailure .fixedGenerationUnavailable errorFileNotFound)
    | some module => match relay.ansi module with
      | none => .error (relayFailure .fixedGenerationUnavailable errorNoUnicodeTranslation)
      | some ansi => .ok ansi

def current32Bit : Bool := !relay.is64Bit

def injectFixedModule (process : VerifiedChild) : InjectionAttempt × List ChildEvent :=
  match relay.admittedModule process with
  | .error attempt => (attempt, [])
  | .ok ansi =>
    if process.target32Bit ≠ relay.current32Bit then relay.injectWithMatchingHelper process
    else match relay.detourUpdateProcessWithDll process.process ansi with
      | .ok () => (injected, [.updated true])
      | .error error => (relayFailure .sameArchitectureInjectionFailed error, [.updated false])

end RelayProcess

/-! ## The helper -/

/-- The helper's process: its command line as it reads it, and the answers to its calls. -/
structure HelperProcess where
  is64Bit : Bool
  arguments : Option (ℕ × ℕ × ℕ × ℕ)
  wow64 : Wow64Answers
  view : ProcessView
  target : TargetAnswers
  module : ModuleAnswers
  ansi : List Char → Option (List Char)
  detourUpdateProcessWithDll : Handle → List Char → Except ℕ Unit

namespace HelperProcess

variable (helper : HelperProcess)

def current32Bit : Bool := !helper.is64Bit

/-- The child named by the arguments, if it is the one they describe. -/
def validChild (process processId creationTime sessionId : ℕ) : Option VerifiedChild := do
  let target32Bit ← tryGetTarget32Bit helper.is64Bit helper.wow64
  let target : VerifiedChild := ⟨process, 0, processId, creationTime, sessionId, target32Bit⟩
  if target32Bit = helper.current32Bit ∧ revalidateVerifiedChild helper.is64Bit target helper.view then
    some target
  else none

def inject (process : Handle) : ℕ :=
  match (helper.module.fixedModulePath helper.current32Bit).bind helper.ansi with
  | none => errorDllInitFailed
  | some ansi => match helper.detourUpdateProcessWithDll process ansi with
    | .ok () => errorSuccess
    | .error _ => errorDllInitFailed

/-- The exit code of the helper that runs to its end. -/
def relayChildProcess : ℕ :=
  match helper.arguments with
  | none => errorInvalidParameter
  | some (inheritedValue, processId, creationTime, sessionId) =>
    if inheritedValue = 0 ∨ (!helper.is64Bit ∧ inheritedValue ≥ 2 ^ 32) ∨ processId = 0 then
      errorInvalidParameter
    else match helper.validChild inheritedValue processId creationTime sessionId with
      | none => errorInvalidParameter
      | some target =>
        let classification := classifyTarget helper.target (fun _ => false) target.sessionId
        if classification ≠ .none then encodeQuietSkip classification
        else helper.inject target.process

end HelperProcess

/-- The exit codes that say what became of the child. A call that fails to modify the child may
be taken to leave it as it was, or not. -/
def settles (undone : Bool) (exitCode : ℕ) : Bool :=
  exitCode == errorSuccess || exitCode == errorInvalidParameter ||
    (exitCode == errorDllInitFailed && undone) ||
    quietReasons.any fun reason => exitCode == encodeQuietSkip reason

theorem settles_encodeQuietSkip (undone : Bool) {reason : ChildRelayReason}
    (h : reason ∈ quietReasons) : settles undone (encodeQuietSkip reason) = true := by
  have hany : (quietReasons.any fun reason' => encodeQuietSkip reason == encodeQuietSkip reason') =
      true := List.any_eq_true.2 ⟨reason, h, beq_self_eq_true _⟩
  unfold settles
  rw [hany, Bool.or_true]

/-- A helper that runs to its end says what became of the child. -/
theorem relayChildProcess_settles (helper : HelperProcess) :
    settles true helper.relayChildProcess = true := by
  unfold HelperProcess.relayChildProcess
  rcases helper.arguments with _ | ⟨inheritedValue, processId, creationTime, sessionId⟩
  · rfl
  dsimp only
  split
  · rfl
  cases helper.validChild inheritedValue processId creationTime sessionId with
  | none => rfl
  | some target =>
    dsimp only
    split
    · next hquiet => exact settles_encodeQuietSkip true (classifyTarget_mem _ _ _ hquiet)
    · unfold HelperProcess.inject
      cases (helper.module.fixedModulePath helper.current32Bit).bind helper.ansi with
      | none => rfl
      | some ansi =>
        dsimp only
        cases helper.detourUpdateProcessWithDll target.process ansi <;> rfl

/-- What the events tell of a modification: it was made, it was not made, or it is not known. -/
def ChildEvent.settled (undone : Bool) : ChildEvent → Bool
  | .updated succeeded => succeeded || undone
  | .helperTerminated _ => false
  | .helperExited none => false
  | .helperExited (some exitCode) => settles undone exitCode
  | _ => true

/-- A modification of the child was started, and neither is it known to be complete nor is it
known not to have happened. -/
def Unsettled (undone : Bool) (events : List ChildEvent) : Prop :=
  ∃ event ∈ events, event.settled undone = false

namespace RelayProcess

variable {relay : RelayProcess}

theorem startHelper_error {target : VerifiedChild} {attempt : InjectionAttempt}
    (h : relay.startHelper target = .error attempt) : attempt.disposition = .relayFailed := by
  unfold startHelper at h
  dsimp only at h
  split at h
  · cases hduplicate : relay.duplicateHandle target.process with
    | error error =>
      rw [hduplicate] at h
      cases h
      rfl
    | ok inherited =>
      rw [hduplicate] at h
      cases hattributes : relay.attributeList inherited with
      | error error =>
        simp only [Except.mapError, bind, Except.bind, hattributes] at h
        cases h
        rfl
      | ok u =>
        simp only [Except.mapError, bind, Except.bind, hattributes] at h
        split at h
        · split at h <;> cases h
          rfl
        · cases h
          rfl
  · cases h
    rfl

theorem admittedModule_error {process : VerifiedChild} {attempt : InjectionAttempt}
    (h : relay.admittedModule process = .error attempt) :
    attempt.disposition = .relayFailed ∨ attempt.disposition = .quietlySkipped := by
  unfold admittedModule at h
  dsimp only at h
  split at h
  · cases h
    exact Or.inr rfl
  split at h
  · cases h
    exact Or.inl rfl
  split at h
  · cases h
    exact Or.inl rfl
  split at h <;> cases h
  exact Or.inl rfl

end RelayProcess

end MacTypeControl.Relay
