import Mathlib.Data.List.Basic
import Mathlib.Tactic.Common

/-!
# Which children are left alone

Before a child is modified, the relay looks at its session, its protection, its image name and
its mitigation policies. Each reason not to modify it has a number, and the helper process
reports one by an exit code.
-/

namespace MacTypeControl.Relay

inductive ChildRelayDisposition where
  | bypassed
  | injected
  | quietlySkipped
  | relayFailed
  | unsafeToResume
  deriving DecidableEq

inductive ChildRelayReason where
  | none
  | unsupportedCreationMode
  | identityUnavailable
  | sessionZero
  | protectionUnavailable
  | protectedProcess
  | criticalityUnavailable
  | criticalProcess
  | imageNameUnavailable
  | excludedImage
  | unsupportedArchitecture
  | dynamicCodeProhibited
  | binarySignatureRestricted
  | fixedGenerationUnavailable
  | sameArchitectureInjectionFailed
  | mixedArchitectureHelperFailed
  | mixedArchitectureHelperTimeout
  | resumeFailed
  deriving DecidableEq

namespace ChildRelayReason

/-- The reasons in the order of their numbers. -/
def all : List ChildRelayReason :=
  [.none, .unsupportedCreationMode, .identityUnavailable, .sessionZero, .protectionUnavailable,
    .protectedProcess, .criticalityUnavailable, .criticalProcess, .imageNameUnavailable,
    .excludedImage, .unsupportedArchitecture, .dynamicCodeProhibited, .binarySignatureRestricted,
    .fixedGenerationUnavailable, .sameArchitectureInjectionFailed, .mixedArchitectureHelperFailed,
    .mixedArchitectureHelperTimeout, .resumeFailed]

def value (reason : ChildRelayReason) : ℕ := all.idxOf reason

theorem all_value (reason : ChildRelayReason) : all[reason.value]? = some reason := by
  cases reason <;> rfl

end ChildRelayReason

def relayHelperQuietSkipBase : ℕ := 0x20000000

def encodeQuietSkip (reason : ChildRelayReason) : ℕ := relayHelperQuietSkipBase + reason.value

def decodeQuietSkip (exitCode : ℕ) : Option ChildRelayReason :=
  if exitCode < relayHelperQuietSkipBase then none
  else
    let value := exitCode - relayHelperQuietSkipBase
    if value > ChildRelayReason.resumeFailed.value then none
    else ChildRelayReason.all[value]?.filter (· != .none)

theorem decodeQuietSkip_encode {reason : ChildRelayReason} (h : reason ≠ .none) :
    decodeQuietSkip (encodeQuietSkip reason) = some reason := by
  have hvalue : encodeQuietSkip reason - relayHelperQuietSkipBase = reason.value := by
    unfold encodeQuietSkip
    omega
  have hbase : ¬encodeQuietSkip reason < relayHelperQuietSkipBase := by
    unfold encodeQuietSkip
    omega
  have hbound : ¬reason.value > ChildRelayReason.resumeFailed.value := by
    cases reason <;> decide
  unfold decodeQuietSkip
  rw [if_neg hbase]
  dsimp only
  rw [hvalue, if_neg hbound, reason.all_value]
  simp [Option.filter, h]

/-! ## The image name -/

/-- The rest of a text from the last place where it has the character. -/
def fromLast (c : Char) : List Char → Option (List Char)
  | [] => none
  | x :: xs =>
    match fromLast c xs with
    | some rest => some rest
    | none => if x = c then some (x :: xs) else none

def sameIgnoringCase (a b : List Char) : Bool := a.map Char.toLower == b.map Char.toLower

def isInnoUninstaller (name : List Char) : Bool :=
  match fromLast '.' name with
  | none => false
  | some extension =>
    if !sameIgnoringCase extension ".exe".toList && !sameIgnoringCase extension ".tmp".toList then
      false
    else
      let stem := if name.head? = some '_' then name.tail else name
      if !sameIgnoringCase (stem.take 5) "unins".toList then false
      else
        let stem := stem.drop 5
        (stem.take (stem.length - extension.length)).all fun c => '0' ≤ c && c ≤ '9'

def exactNames : List String :=
  ["smss.exe", "csrss.exe", "wininit.exe", "winlogon.exe", "services.exe", "lsass.exe",
    "fontdrvhost.exe", "mactype-service.exe", "mactype-injector32.exe", "mactype-injector64.exe",
    "mactype-service-setup.exe"]

def isPolicyExcludedImage (name : List Char) : Bool :=
  name != [] && (exactNames.any (fun excluded => sameIgnoringCase name excluded.toList) ||
    isInnoUninstaller name)

/-- The lists of the profile, and how the system compares two names. -/
structure AdmissionLists where
  includeModules : List (List Char)
  unloadModules : List (List Char)
  runFromGdiExe : Bool
  useInclude : Bool
  forceLoad : Bool
  equal : List Char → List Char → Bool

namespace AdmissionLists

def matchesExecutable (lists : AdmissionLists) (modules : List (List Char))
    (executable : List Char) : Bool :=
  !lists.runFromGdiExe && !lists.forceLoad && modules.any fun module => lists.equal executable module

def isExeUnload (lists : AdmissionLists) (executable : List Char) : Bool :=
  if lists.useInclude then !lists.matchesExecutable lists.includeModules executable
  else lists.matchesExecutable lists.unloadModules executable

end AdmissionLists

/-! ## Mitigation policies -/

inductive HookCompatibility where
  | compatible
  | dynamicCodeProhibited
  | binarySignatureRestricted

structure HookCompatibilityEvidence where
  dynamicCodeQuerySucceeded : Bool
  prohibitDynamicCode : Bool
  allowThreadOptOut : Bool
  signatureQuerySucceeded : Bool
  microsoftSignedOnly : Bool
  storeSignedOnly : Bool
  mitigationOptIn : Bool

def classifyHookCompatibility (evidence : HookCompatibilityEvidence) : HookCompatibility :=
  if evidence.signatureQuerySucceeded && (evidence.microsoftSignedOnly ||
      evidence.storeSignedOnly || evidence.mitigationOptIn) then .binarySignatureRestricted
  else if evidence.dynamicCodeQuerySucceeded && evidence.prohibitDynamicCode &&
      !evidence.allowThreadOptOut then .dynamicCodeProhibited
  else .compatible

/-! ## Classification -/

def protectionLevelNone : ℕ := 0xFFFFFFFE

/-- What the system answers about a child that is to be classified. The image name is absent
when the query fails, or when there is no memory for it. -/
structure TargetAnswers where
  protectionLevel : Option ℕ
  critical : Option Bool
  image : Option (List Char)
  mitigations : HookCompatibilityEvidence

/-- The file name in the path of an image, when the path fits its buffer and has one. -/
def imageName (image : List Char) : Option (List Char) :=
  if image.length = 0 ∨ image.length ≥ 32768 then none
  else
    let name := match fromLast '\\' image with
      | none => image
      | some rest => rest.tail
    if name = [] then none else some name

def classifyTarget (answers : TargetAnswers) (excluded : List Char → Bool) (sessionId : ℕ) :
    ChildRelayReason :=
  if sessionId = 0 then .sessionZero
  else match answers.protectionLevel with
    | none => .protectionUnavailable
    | some level =>
      if level ≠ protectionLevelNone then .protectedProcess
      else match answers.critical with
        | none => .criticalityUnavailable
        | some true => .criticalProcess
        | some false => match answers.image.bind imageName with
          | none => .imageNameUnavailable
          | some name =>
            if isPolicyExcludedImage name || excluded name then .excludedImage
            else match classifyHookCompatibility answers.mitigations with
              | .compatible => .none
              | .dynamicCodeProhibited => .dynamicCodeProhibited
              | .binarySignatureRestricted => .binarySignatureRestricted

/-- The reasons that a classification can give. -/
def quietReasons : List ChildRelayReason :=
  [.sessionZero, .protectionUnavailable, .protectedProcess, .criticalityUnavailable,
    .criticalProcess, .imageNameUnavailable, .excludedImage, .dynamicCodeProhibited,
    .binarySignatureRestricted]

theorem classifyTarget_mem (answers : TargetAnswers) (excluded : List Char → Bool)
    (sessionId : ℕ) (h : classifyTarget answers excluded sessionId ≠ .none) :
    classifyTarget answers excluded sessionId ∈ quietReasons := by
  revert h
  unfold classifyTarget
  split
  · simp [quietReasons]
  cases answers.protectionLevel with
  | none => simp [quietReasons]
  | some level =>
    dsimp only
    split
    · simp [quietReasons]
    cases answers.critical with
    | none => simp [quietReasons]
    | some critical =>
      cases critical with
      | true => simp [quietReasons]
      | false =>
        cases answers.image.bind imageName with
        | none => simp [quietReasons]
        | some name =>
          dsimp only
          split
          · simp [quietReasons]
          · cases classifyHookCompatibility answers.mitigations <;> simp [quietReasons]

example : isPolicyExcludedImage "_unins000.EXE".toList = true := by decide

end MacTypeControl.Relay
