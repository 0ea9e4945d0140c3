import MacTypeControl.Calls.Partial
import MacTypeControl.Host.HelperBroker

/-!
# Launching the fixed helper

The helper is created suspended, put into a job that is killed when it is closed, and started only
then. Every question to the system may be answered with an error, those of the cleanup too.
-/

namespace MacTypeControl.Host

open Calls Call Injection

structure IoError where
  kind : ErrorKind
  rawOsError : Option ℤ

def HelperLaunchError.new (stage : HelperLaunchStage) (source : IoError) : HelperLaunchError :=
  ⟨stage, source.kind, source.rawOsError⟩

inductive WaitOutcome where
  | signaled
  | timedOut
  | abandoned
  deriving DecidableEq

/-- The handles that the launcher opens before there is a helper. -/
inductive LauncherHandle where
  | job
  | target
  | outputRead
  | outputWrite
  | nullDevice
  deriving DecidableEq

/-- The handles that come with a new process, each of which may turn out to be invalid. -/
structure CreatedHandles where
  process : Except IoError Unit
  thread : Except IoError Unit

/-- What the system answers in the course of a launch. The answers that depend on the moment are
given by how many such questions have been asked before. -/
structure LaunchAnswers where
  stopRequested : ℕ → Bool
  now : ℕ → ℕ
  wait : ℕ → ℕ → Except IoError WaitOutcome
  singleProcessKillOnClose : Except IoError Unit
  openTarget : Except IoError ℕ
  creationTime : Except IoError ℕ
  anonymousPipe : Except IoError Unit
  nullDevice : Except IoError Unit
  createProcess : RuntimePath → List String → Except IoError CreatedHandles
  assign : Except IoError Unit
  resumeThread : Except IoError Unit
  terminateProcess : Except IoError Unit
  terminateJob : Except IoError Unit
  exitCode : Except IoError ℕ
  output : Except IoError (List UInt8)

/-- What has become of the helper. -/
structure Child where
  inherited : List LauncherHandle
  inJob : Bool
  resumed : Bool
  terminated : Bool
  exited : Bool

structure Launch where
  asked : ℕ
  child : Option Child

def terminationConfirmation : ℕ := milliseconds 250

def waitSliceLimit : ℕ := milliseconds 10

/-- The code by which the system says that a process is still running. -/
def stillActive : ℕ := 259

/-- The next slice, in whole milliseconds. -/
def waitSlice (remaining : ℕ) : ℕ := max (min remaining waitSliceLimit / milliseconds 1) 1

def asI32 (code : ℕ) : ℤ := if code < 2 ^ 31 then code else code - 2 ^ 32

def HelperInvocation.argumentsForProcessHandle (invocation : HelperInvocation)
    (processHandle : ℕ) : List String :=
  ["--process-handle", toString processHandle,
    "--pid", toString invocation.target.pid,
    "--creation-time", toString invocation.target.creationTime,
    "--session-id", toString invocation.target.sessionId,
    "--generation-id", invocation.generationId]

def inheritedHandles : List LauncherHandle := [.target, .outputWrite, .nullDevice]

def interruptedError : IoError := ⟨.interrupted, none⟩

def timedOutError : IoError := ⟨.timedOut, none⟩

def otherError : IoError := ⟨.other, none⟩

/-! ## The questions -/

section

variable {ε α : Type} (os : LaunchAnswers)

/-- An answer of the moment. -/
def atMoment (answer : ℕ → α) : Call Launch ε α := ask fun s =>
  (.ok (answer s.asked), { s with asked := s.asked + 1 })

/-- A step that does something to the helper, if it succeeds. -/
def onChild (answer : Except IoError Unit) (effect : Child → Child) : Call Launch IoError Unit :=
  ask fun s => match answer with
    | .ok () => (.ok (), { s with child := s.child.map effect })
    | .error error => (.error error, s)

def beforeResume (m : Call Launch IoError α) : Call Launch HelperLaunchError α :=
  mapError (.new .beforeResume) m

def afterResume (m : Call Launch IoError α) : Call Launch HelperLaunchError α :=
  mapError (.new .afterResume) m

def waitFor (duration : ℕ) : Call Launch IoError WaitOutcome := do
  let outcome ← atMoment fun moment => os.wait moment duration
  match outcome with
  | .ok .signaled => do
    onChild (.ok ()) fun child => { child with exited := true }
    return .signaled
  | .ok outcome => return outcome
  | .error error => throw error

def jobTerminate : Call Launch IoError Unit :=
  onChild os.terminateJob fun child => { child with terminated := child.terminated || child.inJob }

/-- A process that was created exists even where one of its handles is invalid. -/
def createSuspended (executable : RuntimePath) (arguments : List String) :
    Call Launch IoError Unit := do
  let handles ← ask fun s => match os.createProcess executable arguments with
    | .ok handles => (.ok handles, { s with
        child := some ⟨inheritedHandles, false, false, false, false⟩ })
    | .error error => (.error error, s)
  answered handles.process
  answered handles.thread

/-! ## The launch -/

def confirmTerminated (fuel deadline : ℕ) : Call Launch IoError Unit :=
  loop fuel do
    let remaining := deadline - (← atMoment os.now)
    if remaining = 0 then throw timedOutError
    else match ← waitFor os (waitSlice remaining) with
      | .signaled => return some ()
      | .timedOut => return none
      | .abandoned => throw otherError

def terminateUnassignedChild (fuel deadline : ℕ) : Call Launch IoError Unit := do
  onChild os.terminateProcess fun child => { child with terminated := true }
  confirmTerminated os fuel deadline

/-- One round of the wait: whether the helper has exited by itself. -/
def waitRound (fuel deadline executionDeadline : ℕ) :
    Call Launch HelperLaunchError (Option Unit) := do
  if ← atMoment os.stopRequested then do
    let cleanupDeadline := min deadline ((← atMoment os.now) + terminationConfirmation)
    afterResume (jobTerminate os)
    afterResume (confirmTerminated os fuel cleanupDeadline)
    throw (.new .afterResume interruptedError)
  else do
    let remaining := executionDeadline - (← atMoment os.now)
    if remaining = 0 then do
      afterResume (jobTerminate os)
      afterResume (confirmTerminated os fuel deadline)
      throw (.new .afterResume timedOutError)
    else match ← afterResume (waitFor os (waitSlice remaining)) with
      | .signaled => return some ()
      | .timedOut => return none
      | .abandoned => throw (.new .afterResume otherError)

def waitForHelper (fuel deadline timeout : ℕ) : Call Launch HelperLaunchError HelperOutput := do
  let reserved := min timeout terminationConfirmation
  let executionDeadline := if reserved ≤ deadline then deadline - reserved else deadline
  loop fuel (waitRound os fuel deadline executionDeadline)
  let exitCode ← afterResume (answered os.exitCode)
  let stdout ← afterResume (answered os.output)
  -- a helper that exits with the code of a running process keeps it
  return ⟨asI32 ((if exitCode = stillActive then none else some exitCode).getD stillActive),
    stdout.take (maxHelperOutputBytes + 1)⟩

/-- What is left to do once the helper is in its job. -/
def startAssigned (fuel deadline : ℕ) (invocation : HelperInvocation) :
    Call Launch HelperLaunchError HelperOutput := do
  if ← atMoment os.stopRequested then do
    beforeResume (jobTerminate os)
    beforeResume (confirmTerminated os fuel deadline)
    throw (.new .beforeResume interruptedError)
  else match ← attempt (onChild os.resumeThread fun child => { child with resumed := true }) with
    | .error error => do
      beforeResume (jobTerminate os)
      beforeResume (confirmTerminated os fuel deadline)
      throw (.new .beforeResume error)
    | .ok () => waitForHelper os fuel deadline invocation.timeout

/-- What is left to do once the helper has been created. -/
def startCreated (fuel deadline : ℕ) (invocation : HelperInvocation) :
    Call Launch HelperLaunchError HelperOutput := do
  match ← attempt (onChild os.assign fun child => { child with inJob := true }) with
  | .error error => do
    beforeResume (terminateUnassignedChild os fuel deadline)
    throw (.new .beforeResume error)
  | .ok () => startAssigned os fuel deadline invocation

def launchProcess (fuel : ℕ) (invocation : HelperInvocation) :
    Call Launch HelperLaunchError HelperOutput := do
  if ← atMoment os.stopRequested then throw (.new .beforeResume interruptedError)
  else do
    let deadline := (← atMoment os.now) + invocation.timeout
    beforeResume (answered os.singleProcessKillOnClose)
    let processHandle ← beforeResume (answered os.openTarget)
    let creationTime ← beforeResume (answered os.creationTime)
    if creationTime ≠ invocation.target.creationTime then throw (.new .beforeResume otherError)
    else do
      beforeResume (answered os.anonymousPipe)
      beforeResume (answered os.nullDevice)
      if ← atMoment os.stopRequested then throw (.new .beforeResume interruptedError)
      else do
        let arguments := invocation.argumentsForProcessHandle processHandle
        beforeResume (createSuspended os invocation.executable arguments)
        startCreated os fuel deadline invocation

end

end MacTypeControl.Host
