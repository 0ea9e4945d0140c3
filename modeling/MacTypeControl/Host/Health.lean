import MacTypeControl.Injection.Model

/-! # What the service reports: its health and its status -/

namespace MacTypeControl.Host

open Injection

inductive HealthState where
  | unknown
  | initializing
  | ready
  | degraded
  | failed
  deriving DecidableEq

inductive ComponentReadiness where
  | notRequired
  | initializing
  | ready
  | failed
  deriving DecidableEq

structure ReadinessReport where
  profile : ComponentReadiness
  observer : ComponentReadiness
  injector32 : ComponentReadiness
  injector64 : ComponentReadiness
  deriving DecidableEq

namespace ReadinessReport

def notRequired : ReadinessReport := ⟨.notRequired, .notRequired, .notRequired, .notRequired⟩

def initializing : ReadinessReport := ⟨.initializing, .initializing, .initializing, .initializing⟩

def ready : ReadinessReport := ⟨.ready, .ready, .ready, .ready⟩

def allRequiredReady (readiness : ReadinessReport) : Bool :=
  readiness.profile == .ready && readiness.observer == .ready &&
    readiness.injector32 == .ready && readiness.injector64 == .ready

end ReadinessReport

def InjectionTelemetry.default : InjectionTelemetry := ⟨⟨0, none⟩, ⟨0, none⟩⟩

def canonicalGenerationId (value : String) : Bool :=
  value.utf8ByteSize == 64 && value.toList.all fun c => c.isDigit || ('a' ≤ c && c ≤ 'f')

def canonicalProfileDigest (value : String) : Bool :=
  value.utf8ByteSize == 71 && "sha256:".toList.isPrefixOf value.toList &&
    canonicalGenerationId (String.ofList (value.toList.drop 7))

def ArchitectureInjectionTelemetry.validate (telemetry : ArchitectureInjectionTelemetry) : Bool :=
  match telemetry.lastSuccess with
  | none => telemetry.successCount == 0
  | some success => telemetry.successCount != 0 && success.pid != 0 && success.creationTime != 0 &&
      success.sessionId != 0 && canonicalGenerationId success.runtimeGenerationId &&
      canonicalProfileDigest success.profileDigest

def InjectionTelemetry.validate (telemetry : InjectionTelemetry) : Bool :=
  ArchitectureInjectionTelemetry.validate telemetry.x86 &&
    ArchitectureInjectionTelemetry.validate telemetry.x64

def healthProtocolVersion : ℕ := 1

structure HealthReport where
  protocolVersion : ℕ
  serviceVersion : String
  health : HealthState
  activeProfileDigest : Option String
  readiness : ReadinessReport
  injection : InjectionTelemetry
  lastError : Option StructuredServiceError

namespace HealthReport

def stateIsConsistent (report : HealthReport) : Bool :=
  match report.health with
  | .ready => report.lastError.isNone && report.activeProfileDigest.isSome
  | .degraded | .failed => report.lastError.isSome
  | .initializing => report.activeProfileDigest.isNone
  | .unknown => true

def validate (report : HealthReport) : Bool :=
  report.protocolVersion == healthProtocolVersion && !report.serviceVersion.isEmpty &&
    report.serviceVersion.utf8ByteSize ≤ 64 &&
    (report.health != .ready || report.readiness.allRequiredReady) &&
    report.activeProfileDigest.all canonicalProfileDigest && report.stateIsConsistent &&
    InjectionTelemetry.validate report.injection &&
    report.lastError.all fun error => !error.code.isEmpty && error.code.utf8ByteSize ≤ 128 &&
      !error.message.isEmpty && error.message.utf8ByteSize ≤ 1024

end HealthReport

inductive ScmState where
  | startPending
  | running
  | stopPending
  | stopped
  deriving DecidableEq

structure ServiceStatus where
  state : ScmState
  checkpoint : ℕ
  waitHintMs : ℕ
  win32ExitCode : ℕ
  serviceSpecificExitCode : ℕ
  deriving DecidableEq

namespace ServiceStatus

def startPending (checkpoint waitHintMs : ℕ) : ServiceStatus :=
  ⟨.startPending, checkpoint, waitHintMs, 0, 0⟩

def settled (state : ScmState) (win32ExitCode serviceSpecificExitCode : ℕ) : ServiceStatus :=
  ⟨state, 0, 0, win32ExitCode, serviceSpecificExitCode⟩

def running : ServiceStatus := settled .running 0 0

def stopped : ServiceStatus := settled .stopped 0 0

def stoppedWithError (win32Error serviceError : ℕ) : ServiceStatus :=
  settled .stopped win32Error serviceError

end ServiceStatus

/-- An error of the operating system, with its code where it has one. -/
structure OsError where
  message : String
  rawOsError : Option ℕ

end MacTypeControl.Host
