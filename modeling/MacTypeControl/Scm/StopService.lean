import MacTypeControl.Host.HelperLauncher
import MacTypeControl.Processes.Table
import MacTypeControl.Storage.Machine

/-!
# Stopping the service

The process of the service is opened before the service is asked to stop, so that its exit can be
waited for. The service manager only reports identifiers, and the service may be started again in
another process at any time.
-/

namespace MacTypeControl.Scm

open Calls Call Host Injection Processes Storage

inductive ServiceState where
  | stopped
  | startPending
  | stopPending
  | running
  | continuePending
  | pausePending
  | paused
  | other (value : ℕ)
  deriving DecidableEq

structure ServiceStatus where
  state : ServiceState
  processId : ℕ
  deriving DecidableEq

structure OpenError where
  rawOsError : Option ℕ
  text : String

/-- What the service manager and the process table answer while the service is stopped. The answers
that depend on the moment are given by how many such questions have been asked before. -/
structure StopAnswers where
  openService : Except SetupError Bool
  ensureOwned : Except SetupError Unit
  status : ℕ → Option ServiceStatus
  openProcess : ℕ → ℕ → Except OpenError Unit
  now : ℕ → ℕ
  stop : Option Unit
  wait : ℕ → ℕ → Option WaitOutcome

/-- What has been seen, oldest first. -/
inductive StopEvent where
  | reported (status : ServiceStatus)
  | opened (pid : ℕ)
  | absent (pid : ℕ)
  | retried
  | exited (pid : ℕ)
  deriving DecidableEq

structure Stopping where
  asked : ℕ
  seen : List StopEvent

def stateTimeout : ℕ := seconds 30

def errorInvalidParameter : ℕ := 87

inductive ProcessCaptureTarget where
  | alreadyStopped
  | pid (value : ℕ)

inductive ProcessIdentityObservation where
  | stopped
  | same
  | changed (pid : ℕ)

def processCaptureTarget (status : ServiceStatus) : Except SetupError ProcessCaptureTarget :=
  if status.state = .stopped then .ok .alreadyStopped
  else if status.processId = 0 then
    .error (.runtime "SCM reported a non-stopped service without a process identity")
  else .ok (.pid status.processId)

def observeProcessIdentity (capturedPid : ℕ) (status : ServiceStatus) :
    Except SetupError ProcessIdentityObservation := do
  match ← processCaptureTarget status with
  | .alreadyStopped => return .stopped
  | .pid observedPid =>
    if observedPid = capturedPid then return .same else return .changed observedPid

def stoppingProcessIsComplete (capturedPid : ℕ) (status : ServiceStatus) :
    Except SetupError Bool := do
  match ← observeProcessIdentity capturedPid status with
  | .stopped => return true
  | .same => return false
  | .changed observedPid => .error (.runtime ("service process identity changed while stopping (" ++
      toString capturedPid ++ " -> " ++ toString observedPid ++ ")"))

section

variable (os : StopAnswers)

/-! ## The questions -/

def queryStatus : Call Stopping SetupError ServiceStatus := ask fun s =>
  match os.status s.asked with
  | some status => (.ok status, ⟨s.asked + 1, s.seen ++ [.reported status]⟩)
  | none => (.error .io, ⟨s.asked + 1, s.seen⟩)

/-- A process that is not there is told apart by its error. -/
def openProcess (pid : ℕ) : Call Stopping SetupError (Except OpenError Unit) := ask fun s =>
  match os.openProcess s.asked pid with
  | .ok () => (.ok (.ok ()), ⟨s.asked + 1, s.seen ++ [.opened pid]⟩)
  | .error error => (.ok (.error error), ⟨s.asked + 1,
      if error.rawOsError = some errorInvalidParameter then s.seen ++ [.absent pid] else s.seen⟩)

def remainingUntil (deadline : ℕ) : Call Stopping SetupError ℕ := ask fun s =>
  (.ok (deadline - os.now s.asked), ⟨s.asked + 1, s.seen⟩)

/-- Waits for the process that was opened under the identifier. -/
def waitFor (pid timeout : ℕ) : Call Stopping SetupError WaitOutcome := ask fun s =>
  match os.wait s.asked timeout with
  | some .signaled => (.ok .signaled, ⟨s.asked + 1, s.seen ++ [.exited pid]⟩)
  | some outcome => (.ok outcome, ⟨s.asked + 1, s.seen⟩)
  | none => (.error .io, ⟨s.asked + 1, s.seen⟩)

/-! ## The stop -/

def waitBeforeProcessCaptureRetry (deadline : ℕ) : Call Stopping SetupError Unit := do
  let remaining ← remainingUntil os deadline
  if remaining = 0 then
    throw (.runtime "service process identity could not be captured before the stop timeout")
  else ask fun s => (.ok (), { s with seen := s.seen ++ [.retried] })

/-- One round: the identifier of the process that is held open, or that there is nothing to hold. -/
def captureRound (deadline : ℕ) : Call Stopping SetupError (Option (Option ℕ)) := do
  let status ← queryStatus os
  match ← answered (processCaptureTarget status) with
  | .alreadyStopped => return some none
  | .pid pid => do
    match ← openProcess os pid with
    | .ok () => do
      let status ← queryStatus os
      match ← answered (observeProcessIdentity pid status) with
      | .stopped | .same => return some (some pid)
      | .changed _ => do
        waitBeforeProcessCaptureRetry os deadline
        return none
    | .error error =>
      if error.rawOsError = some errorInvalidParameter then do
        let status ← queryStatus os
        match ← answered (observeProcessIdentity pid status) with
        | .stopped => return some none
        | .same | .changed _ => do
          waitBeforeProcessCaptureRetry os deadline
          return none
      else throw (.runtime
        ("could not capture the service process identity before stopping: " ++ error.text))

def captureServiceProcess (fuel deadline : ℕ) : Call Stopping SetupError (Option ℕ) :=
  loop fuel (captureRound os deadline)

def stoppedRound (capturedPid deadline : ℕ) : Call Stopping SetupError (Option Unit) := do
  let status ← queryStatus os
  if ← answered (stoppingProcessIsComplete capturedPid status) then return some ()
  else do
    let remaining ← remainingUntil os deadline
    if remaining = 0 then
      throw (.runtime "service did not reach the stopped state before timeout")
    else return none

def waitForStoppedProcess (fuel capturedPid deadline : ℕ) : Call Stopping SetupError Unit :=
  loop fuel (stoppedRound os capturedPid deadline)

def waitForProcessExit (capturedPid deadline : ℕ) : Call Stopping SetupError Unit := do
  let remaining ← remainingUntil os deadline
  let timeout := if remaining = 0 then 0 else max remaining (milliseconds 1)
  match ← waitFor os capturedPid timeout with
  | .signaled => return ()
  | .timedOut => throw (.runtime "service process did not exit before the stop timeout")
  | .abandoned => throw (.runtime "service process exit wait returned unknown result 128")

def stop (fuel : ℕ) : Call Stopping SetupError Unit := do
  if ← answered os.openService then do
    answered os.ensureOwned
    let deadline ← ask fun s => (.ok (os.now s.asked + stateTimeout), ⟨s.asked + 1, s.seen⟩)
    match ← captureServiceProcess os fuel deadline with
    | none => return ()
    | some capturedPid => do
      answered (os.stop.elim (.error .io) .ok)
      waitForStoppedProcess os fuel capturedPid deadline
      waitForProcessExit os capturedPid deadline
  else return ()

end

def stopStart : Stopping := ⟨0, []⟩

/-! ## What is to hold of a stop that has returned -/

def statuses (seen : List StopEvent) : List ServiceStatus :=
  seen.filterMap fun event => match event with
    | .reported status => some status
    | _ => none

/-- What an event says about the process table. -/
def StopEvent.sighting : StopEvent → Option Sighting
  | reported status => if status.processId = 0 then none else some (.named status.processId)
  | opened pid => some (.opened pid)
  | absent pid => some (.absent pid)
  | retried => none
  | exited pid => some (.exited pid)

def sightings (seen : List StopEvent) : List Sighting := seen.filterMap StopEvent.sighting

/-- The last status said that the service is stopped, and every process that was named has exited. -/
def StoppedAndGone (seen : List StopEvent) : Prop :=
  (∀ status, (statuses seen).getLast? = some status → status.state = .stopped) ∧
    ∀ world : World (sightings seen), world.AllExited

/-- The process that a status named is not there later, or it was held open until its exit. -/
def AccountedFor (seen : List StopEvent) (status : ServiceStatus) (after : List StopEvent) : Prop :=
  .absent status.processId ∈ after ∨ .exited status.processId ∈ seen

/-- The processes of the rounds that were given up, and of the statuses that said stopped, are
accounted for. -/
def RetriesAccountedFor (seen : List StopEvent) : Prop :=
  ∀ before status after, seen = before ++ .reported status :: after → status.processId ≠ 0 →
    .retried ∈ after ∨ status.state = .stopped → AccountedFor seen status after

end MacTypeControl.Scm
