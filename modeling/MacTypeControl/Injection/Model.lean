import MacTypeControl.Tables.Indexed
import Mathlib.Algebra.GroupWithZero.Nat

/-!
# The data of the injection orchestrator

Identities are verified processes, instants and durations are counted in
nanoseconds, and the inspector, the broker and the retry scheduler are an
environment over a world of their own.
-/

namespace MacTypeControl.Injection

open Tables

structure StructuredServiceError where
  code : String
  message : String
  win32Error : Option ℕ
  deriving DecidableEq

inductive ProcessArchitecture where
  | x86
  | x64
  deriving DecidableEq

structure ProcessIdentity where
  pid : ℕ
  creationTime : ℕ
  sessionId : ℕ
  architecture : ProcessArchitecture
  protected_ : Bool
  deriving DecidableEq

structure ProcessKey where
  pid : ℕ
  creationTime : ℕ
  deriving DecidableEq

def ProcessIdentity.key (identity : ProcessIdentity) : ProcessKey :=
  ⟨identity.pid, identity.creationTime⟩

structure ProcessFacts where
  criticalOrUnknown : Bool
  prohibitsDynamicCode : Bool
  restrictsBinarySignature : Bool
  imageName : Option String

structure InspectedProcess where
  identity : ProcessIdentity
  facts : ProcessFacts

inductive TargetLiveness where
  | alive
  | vanished
  | unknown
  deriving DecidableEq

inductive TargetLifecycle where
  | running
  | frozen
  | exiting
  | unknown
  deriving DecidableEq

inductive BrokerDisposition where
  | injected
  | skipped
  | rejected
  | retryableFailure
  | launchFailed
  | targetFrozen
  | cancelled
  deriving DecidableEq

structure BrokerResult where
  disposition : BrokerDisposition
  code : String
  win32Error : Option ℕ
  deriving DecidableEq

structure InjectionRequest where
  identity : ProcessIdentity
  generationId : String

inductive DeferralReason where
  | frozen
  | helperLaunchFailed
  deriving DecidableEq

structure RetryPolicy where
  maxAttempts : ℕ
  initialDelay : ℕ
  maxDelay : ℕ

structure DeferralPolicy where
  frozenRecheck : ℕ
  launchInitialDelay : ℕ
  launchMaxDelay : ℕ
  launchMaxDeferrals : ℕ

def seconds (n : ℕ) : ℕ := n * 1000000000

def milliseconds (n : ℕ) : ℕ := n * 1000000

def RetryPolicy.default : RetryPolicy where
  maxAttempts := 3
  initialDelay := milliseconds 25
  maxDelay := milliseconds 250

def DeferralPolicy.default : DeferralPolicy where
  frozenRecheck := seconds 2
  launchInitialDelay := seconds 2
  launchMaxDelay := seconds 32
  launchMaxDeferrals := 5

/-- The longest duration: `u64::MAX` seconds and 999 999 999 nanoseconds. -/
def maxDuration : ℕ := seconds (2 ^ 64) - 1

def saturatingMul (duration multiplier : ℕ) : ℕ := min (duration * multiplier) maxDuration

def maxDeferredTargets : ℕ := 512

def maxTrackedProcessResults : ℕ := 4096

structure DeferredTarget where
  identity : ProcessIdentity
  reason : DeferralReason
  deferrals : ℕ
  notBefore : ℕ

inductive ProcessOutcome where
  | injected
  | skipped
  | deferred
  | duplicate
  | rejected
  | retryExhausted
  | cancelled
  deriving DecidableEq

structure ProcessAttemptRecord where
  identity : ProcessIdentity
  runtimeGenerationId : String
  outcome : ProcessOutcome
  attempts : ℕ
  code : String
  win32Error : Option ℕ

structure SessionChange where
  eventType : ℕ
  sessionId : ℕ

namespace SessionChange

def overflowEventType : ℕ := 2 ^ 32 - 1

def isOverflow (change : SessionChange) : Bool := change.eventType == overflowEventType

/-- Disconnect, logoff and termination of the session end what is known of its processes. -/
def endsSession (change : SessionChange) : Bool :=
  change.eventType == 2 || change.eventType == 4 || change.eventType == 6 ||
    change.eventType == 11

end SessionChange

structure InjectionSuccess where
  pid : ℕ
  creationTime : ℕ
  sessionId : ℕ
  runtimeGenerationId : String
  profileDigest : String

structure ArchitectureInjectionTelemetry where
  successCount : ℕ
  lastSuccess : Option InjectionSuccess

structure InjectionTelemetry where
  x86 : ArchitectureInjectionTelemetry
  x64 : ArchitectureInjectionTelemetry

def ArchitectureInjectionTelemetry.add (telemetry : ArchitectureInjectionTelemetry)
    (success : InjectionSuccess) : ArchitectureInjectionTelemetry where
  successCount := min (telemetry.successCount + 1) (2 ^ 64 - 1)
  lastSuccess := some success

def InjectionTelemetry.recordSuccess (telemetry : InjectionTelemetry)
    (architecture : ProcessArchitecture) (success : InjectionSuccess) : InjectionTelemetry :=
  match architecture with
  | .x86 => { telemetry with x86 := telemetry.x86.add success }
  | .x64 => { telemetry with x64 := telemetry.x64.add success }

inductive HostEvent where
  | injectionResult (record : ProcessAttemptRecord) (process : String)
  | injectionSkipped (reason : String)
  | flushInjectionSummary
  | injectionPipelineSample (millis backlog : ℕ) (ageMillis : Option ℕ)

/-- Everything the orchestrator asks of the outside. `retryScheduler` is `none`
when the orchestrator sleeps between attempts by itself. -/
structure Environment (ω : Type) where
  inspect : ω → ℕ → Except StructuredServiceError InspectedProcess × ω
  probeTargetLifecycle : ω → ProcessIdentity → TargetLifecycle × ω
  probeTargetLiveness : ω → ProcessIdentity → TargetLiveness × ω
  processBasename : ω → ProcessIdentity → Option String × ω
  inject : ω → InjectionRequest → BrokerResult × ω
  retryScheduler : Option (ω → ℕ → Bool × ω)

/-- The orchestrator's own memory. -/
structure InjectionOrchestrator where
  servicePid : ℕ
  generationId : String
  profileDigest : Option String
  processed : Table ProcessKey ProcessAttemptRecord
  processOrder : List ProcessKey
  deferred : Table ProcessKey DeferredTarget
  deferredOrder : List ProcessKey
  deferralPolicy : DeferralPolicy
  retryPolicy : RetryPolicy
  lastHandledCreationTime : Option ℕ
  injectionTelemetry : InjectionTelemetry

/-- What a run does that its history is judged by. -/
inductive Observation where
  | asked (identity : ProcessIdentity) (attempt : ℕ)
  | returned (identity : ProcessIdentity) (attempt deferrals : ℕ) (result : BrokerResult)
  | probed (identity : ProcessIdentity) (liveness : TargetLiveness)
  | evicted (key : ProcessKey)
  | sessionChanged (change : SessionChange)

/-- The orchestrator at work: its memory, the world it talks to, the events it
has recorded and its history, newest first. -/
structure Session (ω : Type) where
  orchestrator : InjectionOrchestrator
  world : ω
  events : List HostEvent
  history : List Observation

end MacTypeControl.Injection
