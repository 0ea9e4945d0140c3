import MacTypeControl.Injection.Model

/-! # Which processes may be injected -/

namespace MacTypeControl.Injection

inductive SkipReason where
  | selfProcess
  | sessionZero
  | protected_
  | criticalOrUnknown
  | dynamicCodeMitigation
  | binarySignatureMitigation
  | importantWindowsProcess
  | installerControlProcess
  | imageNameUnavailable
  | exiting
  | inspectionFailed (code : String)

def SkipReason.code : SkipReason → String
  | .selfProcess => "self-process"
  | .sessionZero => "session-zero"
  | .protected_ => "protected"
  | .criticalOrUnknown => "critical-or-unknown"
  | .dynamicCodeMitigation => "dynamic-code-mitigation"
  | .binarySignatureMitigation => "binary-signature-mitigation"
  | .importantWindowsProcess => "important-windows-process"
  | .installerControlProcess => "installer-control-process"
  | .imageNameUnavailable => "image-name-unavailable"
  | .exiting => "exiting"
  | .inspectionFailed _ => "inspection-failed"

inductive ProcessTargetDecision where
  | eligible (identity : ProcessIdentity)
  | skipped (reason : SkipReason)
  | deferred (identity : ProcessIdentity) (reason : DeferralReason)

def targetScopedInspectionFailure (code : String) : Option String :=
  if code ∈ ["process-protected-or-inaccessible", "process-creation-time-unavailable",
      "process-session-unavailable", "process-architecture-unavailable",
      "process-architecture-unsupported"] then some code
  else none

def isImportantWindowsProcess (name : String) : Bool :=
  name ∈ ["smss.exe", "csrss.exe", "wininit.exe", "winlogon.exe", "services.exe", "lsass.exe",
    "fontdrvhost.exe"]

/-- Splits at the last separator. -/
def rsplitOnce (separator : Char) (text : List Char) : Option (List Char × List Char) :=
  match text.reverse.span (· ≠ separator) with
  | (_, []) => none
  | (after, _ :: before) => some (before.reverse, after.reverse)

def stripPrefix (lead text : List Char) : Option (List Char) :=
  if lead.isPrefixOf text then some (text.drop lead.length) else none

def isInnoUninstaller (name : String) : Bool :=
  match rsplitOnce '.' name.toList with
  | none => false
  | some (stem, extension) =>
    if extension = "exe".toList ∨ extension = "tmp".toList then
      match stripPrefix "unins".toList ((stripPrefix ['_'] stem).getD stem) with
      | some sequence => sequence.all Char.isDigit
      | none => false
    else false

def isInstallerControlProcess (name : String) : Bool :=
  name == "mactype-service-setup.exe" || isInnoUninstaller name

def processIdentityMismatch : StructuredServiceError where
  code := "process-identity-mismatch"
  message := "the inspected process identity does not match the observed PID"
  win32Error := none

/-- The checks that need nothing but the inspection, in the order they are made. -/
def inspectionSkip (servicePid : ℕ) (inspected : InspectedProcess) : Option SkipReason :=
  let identity := inspected.identity
  let facts := inspected.facts
  if identity.pid = servicePid then some .selfProcess
  else if identity.sessionId = 0 then some .sessionZero
  else if identity.protected_ then some .protected_
  else if facts.criticalOrUnknown then some .criticalOrUnknown
  else if facts.prohibitsDynamicCode then some .dynamicCodeMitigation
  else if facts.restrictsBinarySignature then some .binarySignatureMitigation
  else match facts.imageName with
    | none => some .imageNameUnavailable
    | some imageName =>
      if isImportantWindowsProcess imageName then some .importantWindowsProcess
      else if isInstallerControlProcess imageName then some .installerControlProcess
      else none

def validate {ω : Type} (env : Environment ω) (servicePid pid : ℕ) (world : ω) :
    Except StructuredServiceError ProcessTargetDecision × ω :=
  match env.inspect world pid with
  | (.error error, world) =>
    match targetScopedInspectionFailure error.code with
    | some code => (.ok (.skipped (.inspectionFailed code)), world)
    | none => (.error error, world)
  | (.ok inspected, world) =>
    if inspected.identity.pid ≠ pid then (.error processIdentityMismatch, world)
    else match inspectionSkip servicePid inspected with
      | some reason => (.ok (.skipped reason), world)
      | none =>
        match env.probeTargetLifecycle world inspected.identity with
        | (.exiting, world) => (.ok (.skipped .exiting), world)
        | (.frozen, world) => (.ok (.deferred inspected.identity .frozen), world)
        | (.running, world) => (.ok (.eligible inspected.identity), world)
        | (.unknown, world) => (.ok (.eligible inspected.identity), world)

end MacTypeControl.Injection
