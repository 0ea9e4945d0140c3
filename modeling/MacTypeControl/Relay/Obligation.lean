import MacTypeControl.Relay.Injection

/-!
# The obligation of a suspended child

A child that the relay created suspended is handed over, resumed or ended. It is ended wherever
its modification is known to be unsafe, and a modification of unknown outcome is one of these
only when the helper was stopped by the relay itself.
-/

namespace MacTypeControl.Relay

inductive ChildThreadCompletion where
  | passThrough
  | callerSuspended
  | resumed
  | terminated
  deriving DecidableEq

structure ChildInjectionTransactionResult where
  createResult : Bool := false
  lastError : ℕ := errorSuccess
  relayError : ℕ := errorSuccess
  relay : ChildRelayDisposition := .bypassed
  reason : ChildRelayReason := .none
  thread : ChildThreadCompletion := .passThrough

def debugProcess : BitVec 32 := 0x00000001

def debugOnlyThisProcess : BitVec 32 := 0x00000002

def createSuspended : BitVec 32 := 0x00000004

def detachedProcess : BitVec 32 := 0x00000008

def createProtectedProcess : BitVec 32 := 0x00040000

def createSecureProcess : BitVec 32 := 0x00400000

def unsupportedCreationFlags : BitVec 32 :=
  debugProcess ||| debugOnlyThisProcess ||| detachedProcess ||| createProtectedProcess |||
    createSecureProcess

/-- An intercepted call, its pointers by their values. The caller may leave out the structure
for the process information. -/
structure ChildProcessCreateCall where
  token : Handle
  applicationName : Option (List Char)
  commandLine : Option (List Char)
  processAttributes : ℕ
  threadAttributes : ℕ
  inheritHandles : Bool
  creationFlags : BitVec 32
  environment : ℕ
  currentDirectory : Option (List Char)
  startupInfo : ℕ
  processInformation : Option ProcessInformation
  newToken : ℕ

namespace ChildProcessCreateCall

def suspended (call : ChildProcessCreateCall) : ChildProcessCreateCall :=
  { call with creationFlags := call.creationFlags ||| createSuspended }

def requestsSuspended (call : ChildProcessCreateCall) : Bool :=
  call.creationFlags &&& createSuspended != 0

def unsupportedCreationMode (call : ChildProcessCreateCall) : Bool :=
  call.creationFlags &&& unsupportedCreationFlags != 0

end ChildProcessCreateCall

/-- What a creation answers, and what it leaves in the structure of the caller. -/
structure Creation where
  created : Bool
  lastError : ℕ
  info : ProcessInformation

/-- The hook of a process: the function it stands for, and what the system answers. -/
structure CreationHook where
  relay : RelayProcess
  childRelayBypass : Bool
  createProcess : Option (ChildProcessCreateCall → Creation)
  resumeThread : Handle → Except ℕ ℕ

/-! ## The obligation -/

structure SuspendedChildObligation where
  process : ProcessInformation
  callerRequestedSuspended : Bool
  completed : Bool := false

def terminateAndRelease (process : ProcessInformation) (error : ℕ) : List ChildEvent :=
  (if process.process ≠ 0 then [.terminated process.process error] else []) ++
    (if process.thread ≠ 0 then [.closed process.thread] else []) ++
    (if process.process ≠ 0 then [.closed process.process] else [])

namespace CreationHook

variable (hook : CreationHook)

/-- The result, the obligation that is left, and what was done to the child. -/
def complete (obligation : SuspendedChildObligation) (attempt : InjectionAttempt)
    (creationError : ℕ) :
    ChildInjectionTransactionResult × SuspendedChildObligation × List ChildEvent :=
  let result : ChildInjectionTransactionResult :=
    { relay := attempt.disposition, reason := attempt.reason, relayError := attempt.windowsError }
  if attempt.disposition = .unsafeToResume then
    let error :=
      if attempt.windowsError = errorSuccess then errorProcessAborted else attempt.windowsError
    ({ result with createResult := false, lastError := error, thread := .terminated },
      { obligation with process := .cleared, completed := true },
      terminateAndRelease obligation.process error)
  else if obligation.callerRequestedSuspended then
    ({ result with createResult := true, lastError := creationError, thread := .callerSuspended },
      { obligation with completed := true }, [])
  else
    let thread := obligation.process.thread
    match hook.resumeThread thread with
    | .error error =>
      ({ result with
          createResult := false, lastError := error, relay := .unsafeToResume,
          reason := .resumeFailed, thread := .terminated },
        { obligation with process := .cleared, completed := true },
        .resumed thread false :: terminateAndRelease obligation.process error)
    | .ok _ =>
      ({ result with createResult := true, lastError := creationError, thread := .resumed },
        { obligation with completed := true }, [.resumed thread true])

/-- The end of the obligation's scope. -/
def destroy (obligation : SuspendedChildObligation) : ProcessInformation × List ChildEvent :=
  if !obligation.completed && obligation.process.process ≠ 0 then
    (.cleared, terminateAndRelease obligation.process errorProcessAborted)
  else (obligation.process, [])

/-- The outcome of an intercepted call: its result, the creation that was asked for with its
answer, the process information of the caller afterwards, and what was done to the child. -/
structure Transaction where
  result : ChildInjectionTransactionResult
  creation : Option (ChildProcessCreateCall × Creation)
  processInformation : Option ProcessInformation
  events : List ChildEvent

def attempt (info : ProcessInformation) : InjectionAttempt × List ChildEvent :=
  match captureVerifiedChild hook.relay.is64Bit info hook.relay.captured with
  | some target => hook.relay.injectFixedModule target
  | none => (relayFailure .identityUnavailable errorInvalidParameter, [])

/-- The call is passed through: in a helper's creation, without process information to fill,
or with flags that are not supported. -/
def passesThrough (call : ChildProcessCreateCall) : Bool :=
  hook.childRelayBypass || call.processInformation.isNone || call.unsupportedCreationMode

def executeVerifiedChildInjection (call : ChildProcessCreateCall) : Transaction :=
  match hook.createProcess with
  | none => ⟨{ lastError := errorProcNotFound }, none, call.processInformation, []⟩
  | some createProcess =>
    if hook.passesThrough call then
      let creation := createProcess call
      ⟨{ createResult := creation.created, lastError := creation.lastError,
          reason := if call.unsupportedCreationMode then .unsupportedCreationMode else .none },
        some (call, creation), call.processInformation.map fun _ => creation.info, []⟩
    else
      let creation := createProcess call.suspended
      let asked := some (call.suspended, creation)
      if !creation.created then
        ⟨{ lastError := creation.lastError }, asked, some creation.info, []⟩
      else
        let obligation : SuspendedChildObligation :=
          { process := creation.info, callerRequestedSuspended := call.requestsSuspended }
        let (attempt, attempted) := hook.attempt creation.info
        let (result, obligation, completed) :=
          hook.complete obligation attempt creation.lastError
        let (info, destroyed) := destroy obligation
        ⟨result, asked, some info, attempted ++ completed ++ destroyed⟩

/-! ## What becomes of a call -/

inductive Fate where
  | creationFailed
  | passedThrough
  | leftSuspended
  | resumed
  | terminated
  deriving DecidableEq

/-- The events that change what the child is. -/
def acts (events : List ChildEvent) : List ChildEvent :=
  events.filter fun
    | .resumed _ succeeded => succeeded
    | .terminated _ _ => true
    | .closed _ => true
    | _ => false

/-- The transaction asked for this creation, and got this answer. -/
def Asked (t : Transaction) (call : ChildProcessCreateCall) (creation : Creation) : Prop :=
  t.creation = some (call, creation) ∧
    ∃ createProcess, hook.createProcess = some createProcess ∧ creation = createProcess call

/-- What the caller gets, and what is done to the child, for each fate. -/
def Meets (call : ChildProcessCreateCall) (t : Transaction) : Fate → Prop
  | .creationFailed =>
    t.result.createResult = false ∧ t.events = [] ∧
      ((hook.createProcess = none ∧ t.creation = none ∧ t.result.lastError = errorProcNotFound ∧
          t.processInformation = call.processInformation) ∨
        ∃ creation, hook.Asked t call.suspended creation ∧ hook.passesThrough call = false ∧
          creation.created = false ∧ t.result.lastError = creation.lastError ∧
          t.processInformation = some creation.info)
  | .passedThrough =>
    ∃ creation, hook.Asked t call creation ∧ hook.passesThrough call = true ∧ t.events = [] ∧
      t.result.createResult = creation.created ∧ t.result.lastError = creation.lastError ∧
      t.processInformation = call.processInformation.map fun _ => creation.info
  | .leftSuspended =>
    ∃ creation, hook.Asked t call.suspended creation ∧ hook.passesThrough call = false ∧
      creation.created = true ∧ call.requestsSuspended = true ∧ acts t.events = [] ∧
      t.result.createResult = true ∧ t.result.lastError = creation.lastError ∧
      t.processInformation = some creation.info
  | .resumed =>
    ∃ creation, hook.Asked t call.suspended creation ∧ hook.passesThrough call = false ∧
      creation.created = true ∧ call.requestsSuspended = false ∧
      acts t.events = [.resumed creation.info.thread true] ∧
      t.result.createResult = true ∧ t.result.lastError = creation.lastError ∧
      t.processInformation = some creation.info
  | .terminated =>
    ∃ creation exitCode, hook.Asked t call.suspended creation ∧ hook.passesThrough call = false ∧
      creation.created = true ∧ creation.info.process ≠ 0 ∧ creation.info.thread ≠ 0 ∧
      acts t.events = [.terminated creation.info.process exitCode,
        .closed creation.info.thread, .closed creation.info.process] ∧
      t.result.createResult = false ∧ t.result.lastError ≠ errorSuccess ∧
      t.processInformation = some .cleared

/-- A child of which a modification was started and is of unknown outcome is neither resumed
nor handed to the caller. -/
def Withheld (undone : Bool) (t : Transaction) : Prop :=
  Unsettled undone t.events →
    t.result.createResult = false ∧ ∀ thread, .resumed thread true ∉ t.events

/-! ## When it is kept -/

/-- The child that the relay has to answer for. -/
def child (call : ChildProcessCreateCall) : Option Creation :=
  match hook.createProcess with
  | none => none
  | some createProcess =>
    if !hook.passesThrough call && (createProcess call.suspended).created then
      some (createProcess call.suspended)
    else none

/-- The child is of the other architecture, it passes every check and its helper is started. -/
def startsHelper (info : ProcessInformation) : Bool :=
  match captureVerifiedChild hook.relay.is64Bit info hook.relay.captured with
  | none => false
  | some target => match hook.relay.admittedModule target with
    | .error _ => false
    | .ok _ => target.target32Bit != hook.relay.current32Bit && (hook.relay.startHelper target).isOk

/-- The child is of the relay's architecture, it passes every check and the call that modifies
it fails. -/
def failsToUpdate (info : ProcessInformation) : Bool :=
  match captureVerifiedChild hook.relay.is64Bit info hook.relay.captured with
  | none => false
  | some target => match hook.relay.admittedModule target with
    | .error _ => false
    | .ok ansi => target.target32Bit == hook.relay.current32Bit &&
        !(hook.relay.detourUpdateProcessWithDll target.process ansi).isOk

/-- The helper's exit code was read, and it is one by which a helper tells what it did. -/
def helperTells (undone : Bool) : Bool :=
  match hook.relay.helperExitCode with
  | .error _ => false
  | .ok exitCode => settles undone exitCode

/-- The relay is in the position to answer for a child: a helper that ends in time tells what it
did, a call that fails to modify the child leaves it as it was, each wherever the child is then
handed over or resumed, and a resume that fails says why and leaves handles to close. -/
structure Dependable (undone : Bool) (call : ChildProcessCreateCall) (creation : Creation) :
    Prop where
  helper : hook.startsHelper creation.info = true → hook.relay.helperWait = .object →
    call.requestsSuspended = true ∨ (hook.resumeThread creation.info.thread).isOk = true →
    hook.helperTells undone = true
  update : hook.failsToUpdate creation.info = true →
    call.requestsSuspended = true ∨ (hook.resumeThread creation.info.thread).isOk = true →
    undone = true
  resume : hook.startsHelper creation.info = false ∨ hook.relay.helperWait = .object →
    call.requestsSuspended = false →
    ∀ error, hook.resumeThread creation.info.thread = .error error →
      error ≠ errorSuccess ∧ creation.info.process ≠ 0 ∧ creation.info.thread ≠ 0

variable {hook}

theorem unsettled_append {undone : Bool} {events events' : List ChildEvent} :
    Unsettled undone (events ++ events') ↔ Unsettled undone events ∨ Unsettled undone events' := by
  unfold Unsettled
  simp only [List.mem_append, or_and_right, exists_or]

theorem awaitHelper_safe :
    hook.relay.awaitHelper.1.disposition ≠ .unsafeToResume ↔ hook.relay.helperWait = .object := by
  unfold RelayProcess.awaitHelper
  cases hook.relay.helperWait with
  | timeout => simp [unsafeToResume]
  | failed error => simp [unsafeToResume]
  | object =>
    cases hook.relay.helperExitCode with
    | error error => simp [relayFailure]
    | ok exitCode =>
      dsimp only
      split
      · simp [injected]
      · cases decodeQuietSkip exitCode <;> simp [quietSkip, relayFailure]

theorem awaitHelper_events (undone : Bool) :
    acts hook.relay.awaitHelper.2 = [] ∧
      (Unsettled undone hook.relay.awaitHelper.2 ↔
        hook.relay.helperWait ≠ .object ∨ hook.helperTells undone = false) := by
  unfold RelayProcess.awaitHelper helperTells
  cases hook.relay.helperWait with
  | timeout => simp [acts, Unsettled, ChildEvent.settled]
  | failed error => simp [acts, Unsettled, ChildEvent.settled]
  | object =>
    cases hook.relay.helperExitCode with
    | error error => simp [acts, Unsettled, ChildEvent.settled]
    | ok exitCode =>
      dsimp only
      split
      · simp [acts, Unsettled, ChildEvent.settled]
      · cases decodeQuietSkip exitCode <;> simp [acts, Unsettled, ChildEvent.settled]

/-- An attempt is unsafe exactly where the relay stopped the helper itself, and of unknown
outcome where a helper or a failed call leaves it open. -/
theorem attempt_spec (undone : Bool) (info : ProcessInformation) :
    let attempted := hook.attempt info
    (attempted.1.disposition = .unsafeToResume ↔
        hook.startsHelper info = true ∧ hook.relay.helperWait ≠ .object) ∧
      (attempted.1.disposition = .unsafeToResume → info.process ≠ 0 ∧ info.thread ≠ 0) ∧
      acts attempted.2 = [] ∧
      (Unsettled undone attempted.2 ↔
        (hook.startsHelper info = true ∧
          (hook.relay.helperWait ≠ .object ∨ hook.helperTells undone = false)) ∨
        (hook.failsToUpdate info = true ∧ undone = false)) := by
  unfold attempt startsHelper failsToUpdate
  cases hcapture : captureVerifiedChild hook.relay.is64Bit info hook.relay.captured with
  | none => simp [relayFailure, acts, Unsettled]
  | some target =>
    have hhandles := handles_of_capture hcapture
    dsimp only
    unfold RelayProcess.injectFixedModule
    cases hadmitted : hook.relay.admittedModule target with
    | error attempt =>
      have hdisposition := RelayProcess.admittedModule_error hadmitted
      have hsafe : attempt.disposition ≠ .unsafeToResume := by
        rcases hdisposition with h | h <;> simp [h]
      simp [hsafe, acts, Unsettled]
    | ok ansi =>
      dsimp only
      by_cases harchitecture : target.target32Bit = hook.relay.current32Bit
      · rw [if_neg (not_not_intro harchitecture)]
        cases hook.relay.detourUpdateProcessWithDll target.process ansi with
        | ok u => simp [injected, harchitecture, acts, Unsettled, ChildEvent.settled, Except.isOk,
            Except.toBool]
        | error error => simp [relayFailure, harchitecture, acts, Unsettled, ChildEvent.settled,
            Except.isOk, Except.toBool]
      · rw [if_pos harchitecture]
        unfold RelayProcess.injectWithMatchingHelper
        cases hstart : hook.relay.startHelper target with
        | error attempt =>
          have hsafe : attempt.disposition ≠ .unsafeToResume := by
            simp [RelayProcess.startHelper_error hstart]
          simp [hsafe, harchitecture, acts, Unsettled, Except.isOk, Except.toBool]
        | ok u =>
          obtain ⟨hacts, hunsettled⟩ := @awaitHelper_events hook undone
          have hwait := not_congr (@awaitHelper_safe hook)
          rw [not_not] at hwait
          simp only [hacts, hunsettled, hwait]
          simp [harchitecture, hhandles, Except.isOk, Except.toBool]

/-- A helper is started for a child of the other architecture only. -/
theorem failsToUpdate_of_startsHelper {info : ProcessInformation}
    (h : hook.startsHelper info = true) : hook.failsToUpdate info = false := by
  revert h
  unfold startsHelper failsToUpdate
  cases captureVerifiedChild hook.relay.is64Bit info hook.relay.captured with
  | none => simp
  | some target =>
    dsimp only
    cases hook.relay.admittedModule target with
    | error attempt => simp
    | ok ansi =>
      intro h
      have harchitecture : target.target32Bit ≠ hook.relay.current32Bit := by
        intro hsame
        simp [hsame] at h
      simp [harchitecture]

/-- A transaction meets one fate at most. -/
theorem Meets.unique {call : ChildProcessCreateCall} {t : Transaction} {fate fate' : Fate}
    (h : hook.Meets call t fate) (h' : hook.Meets call t fate') : fate = fate' := by
  cases fate <;> cases fate' <;> simp only [Meets, Asked] at h h' <;> grind [acts]

theorem acts_append (events events' : List ChildEvent) :
    acts (events ++ events') = acts events ++ acts events' := by
  unfold acts
  rw [List.filter_append]

theorem acts_terminateAndRelease {info : ProcessInformation} (hprocess : info.process ≠ 0)
    (hthread : info.thread ≠ 0) (error : ℕ) : acts (terminateAndRelease info error) =
      [.terminated info.process error, .closed info.thread, .closed info.process] := by
  simp [acts, terminateAndRelease, hprocess, hthread]

/-! ## The fate of a child -/

/-- The transaction of a call that made a child, before the end of the obligation's scope adds
nothing to it. -/
theorem execute_of_child {call : ChildProcessCreateCall} {creation : Creation}
    (h : hook.child call = some creation) :
    let attempted := hook.attempt creation.info
    let done := hook.complete ⟨creation.info, call.requestsSuspended, false⟩ attempted.1
      creation.lastError
    hook.executeVerifiedChildInjection call =
        ⟨done.1, some (call.suspended, creation), some done.2.1.process,
          attempted.2 ++ done.2.2⟩ ∧
      hook.passesThrough call = false ∧ creation.created = true ∧
      ∃ createProcess, hook.createProcess = some createProcess ∧
        creation = createProcess call.suspended := by
  have hcompleted (obligation : SuspendedChildObligation) (attempt : InjectionAttempt)
      (error : ℕ) : (hook.complete obligation attempt error).2.1.completed = true := by
    unfold complete
    dsimp only
    split
    · rfl
    split
    · rfl
    split <;> rfl
  unfold child at h
  cases hcreate : hook.createProcess with
  | none =>
    rw [hcreate] at h
    cases h
  | some createProcess =>
    rw [hcreate] at h
    dsimp only at h
    split at h
    · next hmade =>
      cases h
      rw [Bool.and_eq_true, Bool.not_eq_true'] at hmade
      refine ⟨?_, hmade.1, hmade.2, createProcess, rfl, rfl⟩
      unfold executeVerifiedChildInjection destroy
      rw [hcreate]
      dsimp only
      rw [hmade.1, hmade.2, hcompleted]
      simp
    · cases h

section

variable {obligation : SuspendedChildObligation} {attempt : InjectionAttempt} {creationError : ℕ}

theorem complete_notResumable (h : attempt.disposition = .unsafeToResume) : ∃ result error,
    hook.complete obligation attempt creationError =
        (result, { obligation with process := .cleared, completed := true },
          terminateAndRelease obligation.process error) ∧
      result.createResult = false ∧ result.lastError ≠ errorSuccess := by
  unfold complete
  dsimp only
  rw [if_pos h]
  refine ⟨_, _, rfl, rfl, ?_⟩
  dsimp only
  split
  · decide
  · assumption

theorem complete_suspended (h : attempt.disposition ≠ .unsafeToResume)
    (hsuspended : obligation.callerRequestedSuspended = true) : ∃ result,
    hook.complete obligation attempt creationError =
        (result, { obligation with completed := true }, []) ∧
      result.createResult = true ∧ result.lastError = creationError := by
  unfold complete
  dsimp only
  rw [if_neg h, if_pos hsuspended]
  exact ⟨_, rfl, rfl, rfl⟩

theorem complete_resumed (h : attempt.disposition ≠ .unsafeToResume)
    (hsuspended : obligation.callerRequestedSuspended = false) {count : ℕ}
    (hresume : hook.resumeThread obligation.process.thread = .ok count) : ∃ result,
    hook.complete obligation attempt creationError =
        (result, { obligation with completed := true },
          [.resumed obligation.process.thread true]) ∧
      result.createResult = true ∧ result.lastError = creationError := by
  unfold complete
  dsimp only
  rw [if_neg h, hsuspended, hresume]
  exact ⟨_, rfl, rfl, rfl⟩

theorem complete_resumeFailed (h : attempt.disposition ≠ .unsafeToResume)
    (hsuspended : obligation.callerRequestedSuspended = false) {error : ℕ}
    (hresume : hook.resumeThread obligation.process.thread = .error error) : ∃ result,
    hook.complete obligation attempt creationError =
        (result, { obligation with process := .cleared, completed := true },
          .resumed obligation.process.thread false ::
            terminateAndRelease obligation.process error) ∧
      result.createResult = false ∧ result.lastError = error := by
  unfold complete
  dsimp only
  rw [if_neg h, hsuspended, hresume]
  exact ⟨_, rfl, rfl, rfl⟩

end

theorem mem_acts_resumed {events : List ChildEvent} {thread : Handle} :
    .resumed thread true ∈ acts events ↔ .resumed thread true ∈ events := by
  simp [acts]

/-- The relay keeps its obligation to the child, and withholds one of unknown outcome, exactly
where it is in the position to answer for it. -/
theorem keeps_child_iff (undone : Bool) {call : ChildProcessCreateCall} {creation : Creation}
    (h : hook.child call = some creation) :
    let t := hook.executeVerifiedChildInjection call
    ((∃ fate, hook.Meets call t fate) ∧ Withheld undone t) ↔
      hook.Dependable undone call creation := by
  obtain ⟨hexecute, hpasses, hcreated, hasked⟩ := execute_of_child h
  obtain ⟨hresumable, hhandles, hacts, hunsettled⟩ := @attempt_spec hook undone creation.info
  have hexclusive := @failsToUpdate_of_startsHelper hook creation.info
  dsimp only
  rw [hexecute]
  revert hresumable hhandles hacts hunsettled
  rcases hook.attempt creation.info with ⟨attempt, attempted⟩
  dsimp only
  intro hresumable hhandles hacts hunsettled
  by_cases hdisposition : attempt.disposition = .unsafeToResume
  · -- The relay stopped the helper, so it ends the child.
    obtain ⟨hprocess, hthread⟩ := hhandles hdisposition
    obtain ⟨hstarts, hwait⟩ := hresumable.1 hdisposition
    obtain ⟨result, error, hcomplete, hresult, herror⟩ := @complete_notResumable hook
      ⟨creation.info, call.requestsSuspended, false⟩ attempt creation.lastError hdisposition
    rw [hcomplete]
    have hended : acts (attempted ++ terminateAndRelease creation.info error) =
        [.terminated creation.info.process error, .closed creation.info.thread,
          .closed creation.info.process] := by
      rw [acts_append, hacts, acts_terminateAndRelease hprocess hthread]
      rfl
    refine iff_of_true ⟨⟨.terminated, creation, error, ⟨rfl, hasked⟩, hpasses, hcreated, hprocess,
      hthread, hended, hresult, herror, rfl⟩, fun _ => ⟨hresult, fun thread hresumed => ?_⟩⟩
      ⟨fun _ hobject => absurd hobject hwait, fun hfails => ?_, fun hnot => ?_⟩
    · rw [← mem_acts_resumed, hended] at hresumed
      simp at hresumed
    · rw [hexclusive hstarts] at hfails
      cases hfails
    · rw [hstarts] at hnot
      simp [hwait] at hnot
  · have hwait : hook.startsHelper creation.info = true → hook.relay.helperWait = .object := by
      intro hstarts
      by_contra hwait
      exact hdisposition (hresumable.2 ⟨hstarts, hwait⟩)
    have hsettled : ¬Unsettled undone attempted ↔
        (hook.startsHelper creation.info = true → hook.relay.helperWait = .object →
          hook.helperTells undone = true) ∧
        (hook.failsToUpdate creation.info = true → undone = true) := by
      rw [hunsettled]
      cases hstarts : hook.startsHelper creation.info with
      | false => simp
      | true => simp [hwait hstarts]
    cases hsuspended : call.requestsSuspended with
    | true =>
      obtain ⟨result, hcomplete, hresult, herror⟩ := @complete_suspended hook
        ⟨creation.info, true, false⟩ attempt creation.lastError hdisposition rfl
      rw [hcomplete, List.append_nil]
      have hfate : hook.Meets call ⟨result, some (call.suspended, creation), some creation.info,
          attempted⟩ .leftSuspended :=
        ⟨creation, ⟨rfl, hasked⟩, hpasses, hcreated, hsuspended, hacts, hresult, herror, rfl⟩
      constructor
      · rintro ⟨-, hwithheld⟩
        have hknown : ¬Unsettled undone attempted := by
          intro hunknown
          have hfailed := (hwithheld hunknown).1
          rw [hresult] at hfailed
          cases hfailed
        obtain ⟨htells, hupdates⟩ := hsettled.1 hknown
        refine ⟨fun hstarts hobject _ => htells hstarts hobject, fun hfails _ => hupdates hfails,
          fun _ hnot => ?_⟩
        rw [hsuspended] at hnot
        cases hnot
      · intro hdependable
        refine ⟨⟨_, hfate⟩, fun hunknown => absurd hunknown (hsettled.2 ⟨?_, ?_⟩)⟩
        · exact fun hstarts hobject => hdependable.helper hstarts hobject (Or.inl hsuspended)
        · exact fun hfails => hdependable.update hfails (Or.inl hsuspended)
    | false =>
      cases hresume : hook.resumeThread creation.info.thread with
      | ok count =>
        obtain ⟨result, hcomplete, hresult, herror⟩ := @complete_resumed hook
          ⟨creation.info, false, false⟩ attempt creation.lastError hdisposition rfl count hresume
        rw [hcomplete]
        have hresumes : (hook.resumeThread creation.info.thread).isOk = true := by
          rw [hresume]
          rfl
        have hfate : hook.Meets call ⟨result, some (call.suspended, creation), some creation.info,
            attempted ++ [.resumed creation.info.thread true]⟩ .resumed := by
          refine ⟨creation, ⟨rfl, hasked⟩, hpasses, hcreated, hsuspended, ?_, hresult, herror, rfl⟩
          rw [acts_append, hacts]
          rfl
        constructor
        · rintro ⟨-, hwithheld⟩
          have hknown : ¬Unsettled undone attempted := by
            intro hunknown
            have hfailed := (hwithheld (unsettled_append.2 (Or.inl hunknown))).1
            rw [hresult] at hfailed
            cases hfailed
          obtain ⟨htells, hupdates⟩ := hsettled.1 hknown
          refine ⟨fun hstarts hobject _ => htells hstarts hobject, fun hfails _ => hupdates hfails,
            fun _ _ error hnot => ?_⟩
          rw [hresume] at hnot
          cases hnot
        · intro hdependable
          refine ⟨⟨_, hfate⟩, fun hunknown => ?_⟩
          rcases unsettled_append.1 hunknown with hunknown | ⟨event, hevent, hopen⟩
          · refine absurd hunknown (hsettled.2 ⟨?_, ?_⟩)
            · exact fun hstarts hobject => hdependable.helper hstarts hobject (Or.inr hresumes)
            · exact fun hfails => hdependable.update hfails (Or.inr hresumes)
          · rw [List.mem_singleton.1 hevent] at hopen
            cases hopen
      | error error =>
        obtain ⟨result, hcomplete, hresult, herror⟩ := @complete_resumeFailed hook
          ⟨creation.info, false, false⟩ attempt creation.lastError hdisposition rfl error hresume
        rw [hcomplete]
        have hended : acts (attempted ++ .resumed creation.info.thread false ::
            terminateAndRelease creation.info error) =
            acts (terminateAndRelease creation.info error) := by
          rw [acts_append, hacts]
          rfl
        have hlost : ¬(hook.resumeThread creation.info.thread).isOk = true := by
          rw [hresume]
          simp [Except.isOk, Except.toBool]
        constructor
        · rintro ⟨⟨fate, hfate⟩, -⟩
          refine ⟨fun _ _ hkeeps => absurd hkeeps (by simp [hsuspended, hlost]),
            fun _ hkeeps => absurd hkeeps (by simp [hsuspended, hlost]), fun _ _ error' hfails => ?_⟩
          have hsame : error = error' := Except.error.inj (hresume.symm.trans hfails)
          subst hsame
          cases fate with
          | creationFailed =>
            have hnothing := congrArg List.length hfate.2.1
            simp at hnothing
          | passedThrough =>
            obtain ⟨-, -, hpassed, -⟩ := hfate
            rw [hpasses] at hpassed
            cases hpassed
          | leftSuspended =>
            obtain ⟨-, -, -, -, hrequested, -⟩ := hfate
            rw [hsuspended] at hrequested
            cases hrequested
          | resumed =>
            obtain ⟨-, -, -, -, -, -, hmade, -⟩ := hfate
            rw [hresult] at hmade
            cases hmade
          | terminated =>
            obtain ⟨creation', -, ⟨hrecorded, -⟩, -, -, hprocess, hthread, -, -, hnonzero, -⟩ := hfate
            cases hrecorded
            exact ⟨herror ▸ hnonzero, hprocess, hthread⟩
        · intro hdependable
          obtain ⟨hnonzero, hprocess, hthread⟩ := hdependable.resume (by
            cases hstarts : hook.startsHelper creation.info with
            | false => exact Or.inl rfl
            | true => exact Or.inr (hwait hstarts)) hsuspended error hresume
          rw [acts_terminateAndRelease hprocess hthread] at hended
          refine ⟨⟨.terminated, creation, error, ⟨rfl, hasked⟩, hpasses, hcreated, hprocess, hthread,
            hended, hresult, herror ▸ hnonzero, rfl⟩, fun _ => ⟨hresult, fun thread hresumed => ?_⟩⟩
          rw [← mem_acts_resumed, hended] at hresumed
          simp at hresumed

/-- A call that made no child to answer for has its fate, and modifies nothing. -/
theorem fate_of_no_child (undone : Bool) {call : ChildProcessCreateCall}
    (h : hook.child call = none) :
    let t := hook.executeVerifiedChildInjection call
    (∃ fate, hook.Meets call t fate) ∧ Withheld undone t := by
  have hnothing : ¬Unsettled undone [] := by simp [Unsettled]
  unfold child at h
  unfold executeVerifiedChildInjection
  cases hcreate : hook.createProcess with
  | none => exact ⟨⟨.creationFailed, rfl, rfl, Or.inl ⟨hcreate, rfl, rfl, rfl⟩⟩, (absurd · hnothing)⟩
  | some createProcess =>
    rw [hcreate] at h
    dsimp only at h ⊢
    cases hpasses : hook.passesThrough call with
    | true =>
      exact ⟨⟨.passedThrough, createProcess call, ⟨rfl, createProcess, hcreate, rfl⟩, hpasses, rfl,
        rfl, rfl, rfl⟩, (absurd · hnothing)⟩
    | false =>
      have hfailed : (createProcess call.suspended).created = false := by
        rw [hpasses] at h
        simpa using h
      rw [hfailed]
      exact ⟨⟨.creationFailed, rfl, rfl, Or.inr ⟨_, ⟨rfl, createProcess, hcreate, rfl⟩, hpasses,
        hfailed, rfl, rfl⟩⟩, (absurd · hnothing)⟩

/-- Every intercepted call has one fate, and a child of unknown outcome is withheld, exactly
where the relay is in the position to answer for the child it made, if it made one. -/
theorem one_fate_iff (hook : CreationHook) (call : ChildProcessCreateCall) (undone : Bool) :
    let t := hook.executeVerifiedChildInjection call
    ((∃! fate, hook.Meets call t fate) ∧ Withheld undone t) ↔
      ∀ creation, hook.child call = some creation → hook.Dependable undone call creation := by
  intro t
  have hunique : (∃! fate, hook.Meets call t fate) ↔ ∃ fate, hook.Meets call t fate :=
    ⟨fun ⟨fate, hfate, _⟩ => ⟨fate, hfate⟩, fun ⟨fate, hfate⟩ => ⟨fate, hfate, fun _ h => h.unique hfate⟩⟩
  rw [hunique]
  cases hchild : hook.child call with
  | none => exact iff_of_true (fate_of_no_child undone hchild) fun _ h => by cases h
  | some creation =>
    refine (keeps_child_iff undone hchild).trans ?_
    exact ⟨fun h _ hsame => Option.some.inj hsame ▸ h, fun h => h creation rfl⟩

/-! ## A helper that crashes -/

def statusAccessViolation : ℕ := 0xC0000005

/-- A 64-bit process that creates a 32-bit child, whose helper ends with this exit code. -/
def mixedHook (exitCode : ℕ) : CreationHook :=
  let view : ProcessView :=
    ⟨100, some 1, some 1, .machines (some (imageFileMachineI386, imageFileMachineAmd64))⟩
  let module : ModuleAnswers := ⟨some "C:\\MacType\\MacType64.dll".toList, fun _ => true⟩
  { relay :=
      { is64Bit := true, captured := view, revalidated := view
        target := ⟨some protectionLevelNone, some false, some "C:\\app.exe".toList,
          ⟨true, false, false, true, false, false, false⟩⟩
        admission := ⟨[], [], false, false, false, fun _ _ => false⟩
        module := module, helperModule := module, ansi := some
        detourUpdateProcessWithDll := fun _ _ => .ok ()
        windowsDirectory := some "C:\\Windows".toList
        duplicateHandle := fun _ => .ok 16, attributeList := fun _ => .ok (), memoryForCommand := true
        createHelper := fun _ _ => .ok (), helperWait := .object, helperExitCode := .ok exitCode }
    childRelayBypass := false
    createProcess := some fun _ => ⟨true, errorSuccess, ⟨4, 8, 100, 101⟩⟩
    resumeThread := fun _ => .ok 1 }

def plainCall : ChildProcessCreateCall :=
  ⟨0, some "C:\\app.exe".toList, none, 0, 0, false, 0, 0, none, 0, some .cleared, 0⟩

/-- The helper crashes while it modifies the child, and the child is resumed. -/
theorem crashed_helper_resumes_child :
    let hook := mixedHook statusAccessViolation
    let t := hook.executeVerifiedChildInjection plainCall
    ¬∃ undone, (∃! fate, hook.Meets plainCall t fate) ∧ Withheld undone t := by
  intro hook t
  have hevents : t.events =
      [.helperStarted, .helperExited (some statusAccessViolation), .resumed 8 true] := by
    decide
  rintro ⟨undone, -, hwithheld⟩
  have hunsettled : Unsettled undone t.events := by
    refine ⟨.helperExited (some statusAccessViolation), by rw [hevents]; simp, ?_⟩
    cases undone <;> decide
  have hresumed := (hwithheld hunsettled).2 8
  rw [hevents] at hresumed
  simp at hresumed

end CreationHook

end MacTypeControl.Relay
