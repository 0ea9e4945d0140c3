import Mathlib.Tactic.Common

/-!
# What the control center sees of the service and reports of a failed action
-/

namespace MacTypeControl

abbrev Bytes := List UInt8

namespace Integration

inductive ServiceBackend where
  | openSource
  | legacyMacTray
  | foreign
  | none
  deriving DecidableEq

inductive InstallationState where
  | absent
  | current
  | outdated
  | invalid
  | inaccessible
  | deletePending
  deriving DecidableEq

inductive RuntimeState where
  | stopped
  | startPending
  | running
  | stopPending
  | paused
  | unknown
  deriving DecidableEq

inductive HealthState where
  | unknown
  | initializing
  | ready
  | degraded
  | failed
  deriving DecidableEq

/-- The name a state has in a message. -/
def ServiceBackend.debug : ServiceBackend → String
  | .openSource => "OpenSource"
  | .legacyMacTray => "LegacyMacTray"
  | .foreign => "Foreign"
  | .none => "None"

def InstallationState.debug : InstallationState → String
  | .absent => "Absent"
  | .current => "Current"
  | .outdated => "Outdated"
  | .invalid => "Invalid"
  | .inaccessible => "Inaccessible"
  | .deletePending => "DeletePending"

def RuntimeState.debug : RuntimeState → String
  | .stopped => "Stopped"
  | .startPending => "StartPending"
  | .running => "Running"
  | .stopPending => "StopPending"
  | .paused => "Paused"
  | .unknown => "Unknown"

def HealthState.debug : HealthState → String
  | .unknown => "Unknown"
  | .initializing => "Initializing"
  | .ready => "Ready"
  | .degraded => "Degraded"
  | .failed => "Failed"

structure SystemServiceStatus where
  backend : ServiceBackend
  installation : InstallationState
  runtime : RuntimeState
  health : HealthState
  win32Error : Option ℕ
  activeProfileDigest : Option String

def SystemServiceStatus.systemInjectionActive (status : SystemServiceStatus)
    (expectedDigest : Option String) : Bool :=
  status.backend = .openSource && status.installation = .current && status.runtime = .running &&
    status.health = .ready && expectedDigest.isSome && status.activeProfileDigest = expectedDigest

inductive RollbackOutcome where
  | failed
  | completed
  | failClosedLegacyStopped
  | notApplicable
  | notApplicableOrUnavailable
  deriving DecidableEq

/-- A failed action. The user message is `detail`; a blocked action names its blocker. -/
structure ActionFailure where
  blocker : Option String
  stage : Option String
  detail : String
  rollback : RollbackOutcome
  channelFailure : Option String

namespace ActionFailure

def internal (detail : String) : ActionFailure where
  blocker := none
  stage := none
  detail
  rollback := .notApplicableOrUnavailable
  channelFailure := none

def internalAt (stage detail : String) : ActionFailure :=
  { internal detail with stage := some stage }

def appendDetail (failure : ActionFailure) (suffix_ : String) : ActionFailure :=
  { failure with detail := failure.detail ++ suffix_ }

def withRollback (failure : ActionFailure) (rollback : RollbackOutcome) : ActionFailure :=
  { failure with rollback }

end ActionFailure
end Integration
end MacTypeControl
