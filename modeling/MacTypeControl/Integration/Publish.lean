import MacTypeControl.Crash.Logic
import MacTypeControl.Integration.Status
import MacTypeControl.Profile.Pointers

/-!
# Publishing a profile

The transaction stops the service, publishes the profile, brings the service up
again and waits until it reports the profile; a failure on the way undoes what
was done. Every machine action takes full effect or none.
-/

namespace MacTypeControl.Integration

open Crash Crash.Prog Profile

/-- The machine as the actions change it: the profile store and the new service. -/
structure MachineState where
  pointers : Pointers String
  installation : InstallationState
  runtime : RuntimeState

/-- The actions the transaction performs. -/
inductive MachineAction where
  | install
  | upgrade
  | remove
  | start
  | stop
  | publishProfile
  | rollback
  deriving DecidableEq

/-- The surroundings of the transaction: the profile digest, the failure each
action reports when it fails, and what each look at the service shows. -/
structure MachineBackend where
  digest : Bytes → String
  failure : MachineAction → ActionFailure
  status : ℕ → MachineState → SystemServiceStatus

abbrev Action := Prog MachineState ActionFailure

def maxProfileBytes : ℕ := 4 * 1024 * 1024

def readyAttempts : ℕ := 200

/-- The full effect of an action; `none` where the action cannot succeed. -/
def MachineAction.effect (digest : Bytes → String) (profile : Option Bytes) (m : MachineState) :
    MachineAction → Option MachineState
  | .install => some { m with installation := .current }
  | .upgrade => some { m with installation := .current }
  | .remove => some { m with installation := .absent, runtime := .stopped }
  | .start => if m.installation = .absent then none else some { m with runtime := .running }
  | .stop => some { m with runtime := .stopped }
  | .publishProfile =>
    profile.map fun bytes => { m with pointers := m.pointers.activate (digest bytes) }
  | .rollback => m.pointers.rollback.map fun pointers => { m with pointers }

namespace MachineBackend

def execute (backend : MachineBackend) (action : MachineAction) (profile : Option Bytes) :
    Action Unit :=
  atomic (backend.failure action) fun m =>
    match action.effect backend.digest profile m with
    | some m => .ok ((), m)
    | none => .error (backend.failure action)

/-- The failures of the cleanup actions, in the order they were performed. -/
def rollbackStep (backend : MachineBackend) (label : String) (action : MachineAction)
    (failures : List String) : Action (List String) := do
  match ← (backend.execute action none).attempt with
  | .ok () => .ret failures
  | .error error => .ret (failures ++ [label ++ ": " ++ error.detail])

def rollbackProfile (backend : MachineBackend) (profileChanged : Bool)
    (failures : List String) : Action (List String) :=
  if profileChanged then backend.rollbackStep "profile rollback" .rollback failures
  else .ret failures

def restoreService (backend : MachineBackend) (before : SystemServiceStatus)
    (failures : List String) : Action (List String) :=
  if before.installation = .absent then
    backend.rollbackStep "remove newly installed service" .remove failures
  else if before.runtime = .running then
    backend.rollbackStep "restart prior service" .start failures
  else .ret failures

def rollbackPublishedProfile (backend : MachineBackend) (before : SystemServiceStatus)
    (profileChanged : Bool) : Action Unit := do
  let failures ← backend.rollbackStep "stop" .stop []
  let failures ← backend.rollbackProfile profileChanged failures
  let failures ← backend.restoreService before failures
  if failures = [] then .ret () else .throw (.internal ("; ".intercalate failures))

def combineRollbackError (primary : ActionFailure) (rollback : Except ActionFailure Unit) :
    ActionFailure :=
  match rollback with
  | .ok () => primary
  | .error cleanup =>
    (primary.appendDetail ("; machine integration cleanup is unknown: " ++ cleanup.detail))
      |>.withRollback .failed

def failWithRollback (backend : MachineBackend) (before : SystemServiceStatus)
    (profileChanged : Bool) (error : ActionFailure) : Action Unit := do
  let rollback ← (backend.rollbackPublishedProfile before profileChanged).attempt
  .throw (combineRollbackError error rollback)

def notReady (expected : String) (status : SystemServiceStatus) : ActionFailure :=
  .internal ("the new service did not become Ready with the published profile: backend=" ++
    status.backend.debug ++ ", installation=" ++ status.installation.debug ++ ", runtime=" ++
    status.runtime.debug ++ ", health=" ++ status.health.debug ++ ", activeProfileDigest=" ++
    status.activeProfileDigest.getD "missing" ++ ", expectedProfileDigest=" ++ expected ++
    ", win32Error=" ++ (status.win32Error.map toString).getD "none")

/-- Polls until the service reports the profile; `left` polls remain. -/
def pollPublished (backend : MachineBackend) (expected : String) :
    (left poll : ℕ) → Option SystemServiceStatus → Action Unit
  | 0, _, none => .throw
      (.internal "published profile verification has no polling budget")
  | 0, _, some last => .throw (notReady expected last)
  | left + 1, poll, _ => do
    let status ← .observe (backend.status poll)
    if status.systemInjectionActive (some expected) then .ret ()
    else pollPublished backend expected left (poll + 1) (some status)

def waitForPublishedProfileWith (backend : MachineBackend) (expected : String) : Action Unit :=
  backend.pollPublished expected readyAttempts 1 none

def activation (backend : MachineBackend) : InstallationState → Action Unit
  | .absent => do
    backend.execute .install none
    backend.execute .start none
  | .outdated => do
    backend.execute .upgrade none
    backend.execute .start none
  | .current => backend.execute .start none
  -- the source panics here; the transaction has refused these states
  | _ => .throw (.internal "unsafe installation states were rejected")

/-- The states of the new service the transaction works on. -/
def accepted (before : SystemServiceStatus) : Bool :=
  before.backend ≠ .foreign &&
    (before.installation = .absent || before.installation = .current ||
      before.installation = .outdated) &&
    (before.runtime = .running || before.runtime = .stopped)

def profileInRange (profile : Bytes) : Bool :=
  profile ≠ [] && profile.length ≤ maxProfileBytes

/-- The publish failed: the prior service is started again. -/
def restartPrior (backend : MachineBackend) (before : SystemServiceStatus)
    (error : ActionFailure) : Action Unit := do
  let unknown := "; machine integration cleanup is unknown because the prior service could not " ++
    "be restarted: "
  ((backend.execute .start none).handle fun restart =>
    .throw ((error.appendDetail (unknown ++ restart.detail)).withRollback .failed)).whenever
      (before.runtime = .running)
  .throw error

def bringUp (backend : MachineBackend) (before : SystemServiceStatus) (expected : String) :
    Action Unit := do
  backend.activation before.installation
  backend.waitForPublishedProfileWith expected

/-- The part of the transaction after the service has been stopped. -/
def publishStopped (backend : MachineBackend) (before : SystemServiceStatus) (profile : Bytes) :
    Action Unit := do
  let expected := backend.digest profile
  let profileChanged : Bool := before.activeProfileDigest ≠ some expected
  match ← (backend.execute .publishProfile (some profile)).attempt with
  | .error error => backend.restartPrior before error
  | .ok () =>
    (backend.bringUp before expected).handle (backend.failWithRollback before profileChanged)

def publishProfileTransactionWith (backend : MachineBackend) (profile : Bytes) : Action Unit :=
  if !profileInRange profile then
    .throw (.internal "the published profile payload is outside the allowed range")
  else do
    let before ← .observe (backend.status 0)
    if !accepted before then
      .throw (.internal "the new service is foreign, transitioning, or unsafe")
    else
      (backend.execute .stop none).whenever (before.runtime = .running)
      backend.publishStopped before profile

end MachineBackend
end MacTypeControl.Integration
