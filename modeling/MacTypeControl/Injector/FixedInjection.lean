import MacTypeControl.Checks
import MacTypeControl.Injector.BrokerRequest
import MacTypeControl.Injector.RemoteInjection

/-!
# One request to the injection helper

The target is checked against the request, then for what must not be touched, and only then is the
module loaded. Every way out gives a result for that request.
-/

namespace MacTypeControl.Injector

/-- The error codes of the system are words of 32 bits. -/
structure RemoteTarget.Words (target : RemoteTarget) : Prop where
  virtualAllocEx : ∀ error, target.virtualAllocEx = .error error → error < 2 ^ 32
  writeError : target.writeError < 2 ^ 32
  remoteLoadLibrary : ∀ error, target.remoteLoadLibrary = .error error → error < 2 ^ 32
  createRemoteThread : ∀ error, target.createRemoteThread = .error error → error < 2 ^ 32
  wait_abandoned : ∀ error, target.wait = .abandoned error → error < 2 ^ 32
  wait_failed : ∀ error, target.wait = .failed error → error < 2 ^ 32
  graceWait_failed : ∀ error, target.graceWait = .failed error → error < 2 ^ 32
  getExitCodeThread : ∀ error, target.getExitCodeThread = .error error → error < 2 ^ 32
  virtualFreeEx : ∀ error, target.virtualFreeEx = .error error → error < 2 ^ 32
  inventory : ∀ n, (target.inventory n).lastError < 2 ^ 32

/-- The ways to ask for the machine of a process. The newer one tells the machine of the process,
zero if it is the native one, and the native machine. -/
inductive MachineQuery where
  | noKernel
  | wow64Process2 (answer : Option (ℕ × ℕ))
  | wow64Process (answer : Option Bool) (nativeArchitecture : ℕ)

/-- The process of a request, before anything is written to it. -/
structure TargetProcess where
  processId : ℕ
  processIdError : UInt32
  processIdToSessionId : Except UInt32 ℕ
  protectionLevel : Except UInt32 UInt32
  isProcessCritical : Except UInt32 Bool
  creationTime : Except UInt32 ℕ
  machine : MachineQuery
  machineError : UInt32
  lifecycleFlags : Option UInt32
  fixedModulePath : Option WideText
  isRegularFile : WideText → Bool × UInt32
  inventory : ℕ → InventoryAttempt
  inventory_words : ∀ n, (inventory n).lastError < 2 ^ 32
  verifiedCreationTime : Except UInt32 ℕ
  grantedAccess : Option UInt32
  remote : RemoteTarget
  remote_words : remote.Words

def pointerBits (is64Bit : Bool) : ℕ := if is64Bit then 64 else 32

def imageFileMachineI386 : ℕ := 0x14C

def imageFileMachineAmd64 : ℕ := 0x8664

def expectedMachine (is64Bit : Bool) : ℕ :=
  if is64Bit then imageFileMachineAmd64 else imageFileMachineI386

def processorArchitectureIntel : ℕ := 0

def processorArchitectureAmd64 : ℕ := 9

def MachineQuery.processMachine : MachineQuery → Option ℕ
  | .noKernel => none
  | .wow64Process2 none => none
  | .wow64Process2 (some (process, native)) => some (if process = 0 then native else process)
  | .wow64Process none _ => none
  | .wow64Process (some true) _ => some imageFileMachineI386
  | .wow64Process (some false) native =>
    if native = processorArchitectureAmd64 then some imageFileMachineAmd64
    else if native = processorArchitectureIntel then some imageFileMachineI386
    else none

def protectionLevelNone : UInt32 := 0xFFFFFFFE

def protectionStateAllowsInjection (querySucceeded isUnprotected : Bool) : Bool :=
  querySucceeded && isUnprotected

def decodeProcessLifecycleFlags (flags : UInt32) : ProcessLifecycle :=
  ⟨flags &&& 0x10 != 0, flags &&& 0x04 != 0⟩

/-- The rights to work on memory, to write to it, and to create a thread. -/
def requiredRights : UInt32 := 0x0008 ||| 0x0020 ||| 0x0002

def injectionRightsPresent (granted : UInt32) : Bool := granted &&& requiredRights == requiredRights

def errorInvalidHandle : UInt32 := 6

namespace TargetProcess

variable (target : TargetProcess) (request : BrokerRequest)

def is64Bit : Bool := target.remote.is64Bit

def reply (status : ResultStatus) (code : String) (error : UInt32 := 0) : Result :=
  makeResult request status code (fixedModuleName target.is64Bit) error.toNat

/-- The process is the one that was asked for, in a session of a user. -/
def checkIdentity : Except Result Unit :=
  if request.processHandle = 0 ∨ request.processHandle = 2 ^ pointerBits target.is64Bit - 1 then
    .error (target.reply request .rejected "process-handle-invalid" errorInvalidHandle)
  else if target.processId = 0 then
    .error (target.reply request .rejected "process-handle-invalid" target.processIdError)
  else if target.processId ≠ request.pid then
    .error (target.reply request .rejected "process-handle-pid-mismatch")
  else match target.processIdToSessionId with
    | .error error => .error (target.reply request .failed "session-unavailable" error)
    | .ok sessionId =>
      if sessionId ≠ request.expectedSessionId then
        .error (target.reply request .rejected "session-mismatch")
      else if sessionId = 0 then .error (target.reply request .skipped "session-zero")
      else .ok ()

/-- The process is not one that the system depends on or protects. -/
def checkProtection : Except Result Unit :=
  let (succeeded, unprotected, error) := match target.protectionLevel with
    | .ok level => (true, level == protectionLevelNone, 0)
    | .error error => (false, false, error)
  if !protectionStateAllowsInjection succeeded unprotected then
    .error (target.reply request .skipped
      (if succeeded then "protected-process" else "protection-state-unavailable") error)
  else match target.isProcessCritical with
    | .error error => .error (target.reply request .skipped "critical-state-unavailable" error)
    | .ok true => .error (target.reply request .skipped "critical-process")
    | .ok false => .ok ()

/-- The process still is the one that was asked for, it can take the module, and it is running. -/
def checkProcess : Except Result Unit :=
  match target.creationTime with
  | .error error => .error (target.reply request .failed "identity-unavailable" error)
  | .ok creationTime =>
    if creationTime ≠ request.expectedCreationTime then
      .error (target.reply request .rejected "creation-time-mismatch")
    else match target.machine.processMachine with
      | none => .error (target.reply request .failed "architecture-unavailable" target.machineError)
      | some machine =>
        if machine ≠ expectedMachine target.is64Bit then
          .error (target.reply request .skipped "architecture-mismatch")
        else
          let lifecycle := target.lifecycleFlags.map decodeProcessLifecycleFlags
          if lifecycle.any ProcessLifecycle.deleting then
            .error (target.reply request .skipped "process-exiting")
          else if lifecycle.any ProcessLifecycle.frozen then
            .error (target.reply request .skipped "process-frozen")
          else .ok ()

def findModule : Except Result WideText :=
  match target.fixedModulePath with
  | none => .error (target.reply request .failed "fixed-module-missing")
  | some path =>
    if !(target.isRegularFile path).1 then
      .error (target.reply request .failed "fixed-module-missing" (target.isRegularFile path).2)
    else .ok path

/-- What is done with a target in which the module is in the given state. -/
def proceed (fuel : ℕ) (modulePath : WideText) (state : FixedModuleState) (lastError : ℕ) :
    Option Result :=
  match state with
  | .expectedModuleLoaded => some (target.reply request .skipped "module-already-loaded")
  | .sameBasenameDifferentPath =>
    some (target.reply request .skipped "conflicting-mactype-module-loaded")
  | .inventoryUnavailable =>
    some (makeResult request .failed "module-inventory-unavailable"
      (fixedModuleName target.is64Bit) lastError)
  | .absent =>
    if target.verifiedCreationTime.toOption ≠ some request.expectedCreationTime then
      some (target.reply request .rejected "creation-time-mismatch")
    else if target.grantedAccess.any fun granted => !injectionRightsPresent granted then
      some (target.reply request .skipped "injection-rights-stripped")
    else (target.remote.injectModule fuel request modulePath).1

/-- There is no result while the modules of the target are still to be read again. -/
def injectFixedAdjacentModule (fuel : ℕ) : Option Result :=
  let checked := do
    target.checkIdentity request
    target.checkProtection request
    target.checkProcess request
    target.findModule request
  match checked with
  | .error result => some result
  | .ok modulePath =>
    match (fixedModuleState modulePath target.inventory fuel 0).1 with
    | none => none
    | some (state, lastError) => target.proceed request fuel modulePath state lastError

/-- What the helper prints, and the code it exits with. -/
def wmain (fuel : ℕ) (arguments : List WideText) (newline : String) :
    Option (Except String String × ℤ) :=
  let result := match parseBrokerRequest (pointerBits target.is64Bit) arguments with
    | none => some (target.reply ⟨0, 0, 0, 0, ""⟩ .rejected "invalid-request")
    | some request => target.injectFixedAdjacentModule request fuel
  result.map fun result => ((toJson result).map (· ++ newline), exitCode result.status)

end TargetProcess

/-! ## The results of a request -/

/-- The codes of the results for a request. -/
def resultCodes : List String :=
  ["process-handle-invalid", "process-handle-pid-mismatch", "session-unavailable",
    "session-mismatch", "session-zero", "protected-process", "protection-state-unavailable",
    "critical-state-unavailable", "critical-process", "identity-unavailable",
    "creation-time-mismatch", "architecture-unavailable", "architecture-mismatch",
    "process-exiting", "process-frozen", "fixed-module-missing", "module-already-loaded",
    "conflicting-mactype-module-loaded", "module-inventory-unavailable",
    "injection-rights-stripped", "remote-allocation-failed", "remote-write-failed",
    "loader-address-unavailable", "remote-thread-failed", "remote-load-cleanup-unknown",
    "remote-wait-cleanup-unknown", "remote-memory-cleanup-unknown",
    "post-injection-state-cleanup-unknown", "module-loaded-late", "module-loaded",
    "module-load-failed"]

/-- A result that is made for the request, with a code of the helper and a word of an error. -/
structure Answers (is64Bit : Bool) (request : BrokerRequest) (result : Result) : Prop where
  pid : result.pid = request.pid
  sessionId : result.sessionId = request.expectedSessionId
  generationId : result.generationId = request.generationId
  module : result.module = fixedModuleName is64Bit
  code : result.code ∈ resultCodes
  windowsError : result.windowsError < 2 ^ 32

theorem answers_makeResult {is64Bit : Bool} {request : BrokerRequest} (status : ResultStatus)
    {code : String} {error : ℕ} (cleanupComplete : Bool) (hcode : code ∈ resultCodes)
    (herror : error < 2 ^ 32) :
    Answers is64Bit request
      (makeResult request status code (fixedModuleName is64Bit) error cleanupComplete) :=
  ⟨rfl, rfl, rfl, rfl, hcode, herror⟩

/-- The last error is that of one of the readings. -/
theorem fixedModuleState_lastError {expectedPath : WideText} {attempts : ℕ → InventoryAttempt}
    {state : FixedModuleState} {lastError : ℕ} (hwords : ∀ n, (attempts n).lastError < 2 ^ 32) :
    ∀ {fuel n : ℕ}, (fixedModuleState expectedPath attempts fuel n).1 = some (state, lastError) →
      lastError < 2 ^ 32 := by
  intro fuel
  induction fuel with
  | zero =>
    intro n h
    cases h
  | succ fuel ih =>
    intro n h
    unfold fixedModuleState at h
    dsimp only at h
    split at h
    · rw [← (Prod.mk.inj (Option.some.inj h)).2]
      exact hwords n
    · exact ih h

theorem adjudicateRemoteInjection_code (evidence : RemoteInjectionEvidence) :
    (adjudicateRemoteInjection evidence).code ∈ resultCodes := by
  unfold adjudicateRemoteInjection
  repeat' split
  all_goals decide

namespace RemoteTarget

variable {target : RemoteTarget} {request : BrokerRequest}

theorem answers_makeVerdictResult (evidence : RemoteInjectionEvidence) {error : ℕ}
    (herror : error < 2 ^ 32) :
    Answers target.is64Bit request (target.makeVerdictResult request evidence error) := by
  unfold makeVerdictResult
  dsimp only
  split
  · exact answers_makeResult _ _ (by decide) herror
  · exact answers_makeResult _ _ (adjudicateRemoteInjection_code evidence) herror

theorem evidenceError_lt (hwords : target.Words) : target.evidenceError < 2 ^ 32 := by
  unfold evidenceError
  split
  · next error hcode _ => exact hwords.getExitCodeThread error hcode
  · next error freeError hcode hfree =>
    split
    · exact hwords.virtualFreeEx freeError hfree
    · exact hwords.getExitCodeThread error hcode
  · next freeError _ hfree => exact hwords.virtualFreeEx freeError hfree
  · decide

theorem answers_collectedResult (hwords : target.Words) (completion : RemoteCompletion)
    (memoryReleased : Bool) (state : FixedModuleState) {lastError : ℕ}
    (hlast : lastError < 2 ^ 32) :
    Answers target.is64Bit request
      (target.collectedResult request completion memoryReleased state lastError) := by
  have herror : (inventoryEvidence state lastError target.evidenceError).2 < 2 ^ 32 := by
    cases state with
    | inventoryUnavailable => exact hlast
    | absent => exact evidenceError_lt hwords
    | expectedModuleLoaded => exact evidenceError_lt hwords
    | sameBasenameDifferentPath => exact evidenceError_lt hwords
  unfold collectedResult
  dsimp only
  split
  · exact answers_makeResult _ _ (by decide) herror
  · exact answers_makeVerdictResult _ herror

theorem answers_failBeforeThread {code : String} {error : ℕ} (address : ℕ)
    (hcode : code ∈ resultCodes) (herror : error < 2 ^ 32) {result : Result}
    (h : (target.failBeforeThread request code error address).result = some result) :
    Answers target.is64Bit request result := by
  unfold failBeforeThread at h
  obtain rfl := Option.some.inj h
  exact answers_makeResult _ _ hcode herror

theorem answers_collectEvidence (hwords : target.Words) {fuel : ℕ} {modulePath : WideText}
    (completion : RemoteCompletion) (address : ℕ) {result : Result}
    (h : (target.collectEvidence fuel request modulePath completion address).result =
      some result) : Answers target.is64Bit request result := by
  unfold collectEvidence at h
  obtain ⟨⟨state, lastError⟩, hdecided, rfl⟩ := Option.map_eq_some_iff.1 h
  exact answers_collectedResult hwords _ _ _
    (fixedModuleState_lastError hwords.inventory hdecided)

theorem answers_awaitThread (hwords : target.Words) {fuel : ℕ} {modulePath : WideText}
    (address : ℕ) {result : Result}
    (h : (target.awaitThread fuel request modulePath address).result = some result) :
    Answers target.is64Bit request result := by
  have habandoned {completion : RemoteCompletion} {error : ℕ} (herror : error < 2 ^ 32)
      (h : (target.abandonThread request completion error).result = some result) :
      Answers target.is64Bit request result := by
    obtain rfl := Option.some.inj h
    exact answers_makeVerdictResult _ herror
  unfold awaitThread at h
  split at h
  · exact answers_collectEvidence hwords _ _ h
  · split at h
    · exact answers_collectEvidence hwords _ _ h
    · next error hwait => exact habandoned (hwords.graceWait_failed error hwait) h
    · exact habandoned (by decide) h
    · exact habandoned (by decide) h
  · next error hwait => exact habandoned (hwords.wait_abandoned error hwait) h
  · next error hwait => exact habandoned (hwords.wait_failed error hwait) h

theorem answers_injectModule (hwords : target.Words) {fuel : ℕ} {modulePath : WideText}
    {result : Result} (h : (target.injectModule fuel request modulePath).1 = some result) :
    Answers target.is64Bit request result := by
  unfold injectModule at h
  split at h
  · next error halloc =>
    obtain rfl := Option.some.inj h
    exact answers_makeResult _ _ (by decide) (hwords.virtualAllocEx error halloc)
  next address _ =>
  dsimp only at h
  unfold injectInto at h
  split at h
  · exact answers_failBeforeThread address (by decide) hwords.writeError h
  split at h
  · next error hload =>
    exact answers_failBeforeThread address (by decide) (hwords.remoteLoadLibrary error hload) h
  split at h
  · next error hthread =>
    exact answers_failBeforeThread address (by decide) (hwords.createRemoteThread error hthread) h
  · exact answers_awaitThread hwords address h

end RemoteTarget

namespace TargetProcess

variable {target : TargetProcess} {request : BrokerRequest} {result : Result}

theorem answers_reply (status : ResultStatus) {code : String} (error : UInt32)
    (hcode : code ∈ resultCodes) :
    Answers target.is64Bit request (target.reply request status code error) :=
  answers_makeResult status true hcode error.toNat_lt

theorem answers_checkIdentity (h : target.checkIdentity request = .error result) :
    Answers target.is64Bit request result := by
  unfold checkIdentity at h
  repeat' split at h
  all_goals
    cases h <;> exact answers_reply _ _ (by decide)

theorem answers_checkProtection (h : target.checkProtection request = .error result) :
    Answers target.is64Bit request result := by
  unfold checkProtection at h
  cases hlevel : target.protectionLevel with
  | error error =>
    rw [hlevel] at h
    cases h
    exact answers_reply _ _ (by decide)
  | ok level =>
    rw [hlevel] at h
    dsimp only at h
    split at h
    · cases h
      exact answers_reply _ _ (by decide)
    · repeat' split at h
      all_goals
        cases h <;> exact answers_reply _ _ (by decide)

theorem answers_checkProcess (h : target.checkProcess request = .error result) :
    Answers target.is64Bit request result := by
  unfold checkProcess at h
  dsimp only at h
  repeat' split at h
  all_goals
    cases h <;> exact answers_reply _ _ (by decide)

theorem answers_findModule (h : target.findModule request = .error result) :
    Answers target.is64Bit request result := by
  unfold findModule at h
  repeat' split at h
  all_goals
    cases h <;> exact answers_reply _ _ (by decide)

theorem answers_proceed {fuel : ℕ} {modulePath : WideText} {state : FixedModuleState}
    {lastError : ℕ} (hlast : lastError < 2 ^ 32)
    (h : target.proceed request fuel modulePath state lastError = some result) :
    Answers target.is64Bit request result := by
  unfold proceed at h
  split at h
  · obtain rfl := Option.some.inj h
    exact answers_reply _ _ (by decide)
  · obtain rfl := Option.some.inj h
    exact answers_reply _ _ (by decide)
  · obtain rfl := Option.some.inj h
    exact answers_makeResult _ _ (by decide) hlast
  split at h
  · obtain rfl := Option.some.inj h
    exact answers_reply _ _ (by decide)
  split at h
  · obtain rfl := Option.some.inj h
    exact answers_reply _ _ (by decide)
  · exact RemoteTarget.answers_injectModule target.remote_words h

/-- Whatever the target is like, the result is one for the request. -/
theorem answers_injectFixedAdjacentModule {fuel : ℕ}
    (h : target.injectFixedAdjacentModule request fuel = some result) :
    Answers target.is64Bit request result := by
  unfold injectFixedAdjacentModule at h
  dsimp only at h
  split at h
  · next refused hchecked =>
    obtain rfl := Option.some.inj h
    rcases bind_eq_error.1 hchecked with hidentity | ⟨_, _, hchecked⟩
    · exact answers_checkIdentity hidentity
    rcases bind_eq_error.1 hchecked with hprotection | ⟨_, _, hchecked⟩
    · exact answers_checkProtection hprotection
    rcases bind_eq_error.1 hchecked with hprocess | ⟨_, _, hmodule⟩
    · exact answers_checkProcess hprocess
    · exact answers_findModule hmodule
  · split at h
    · cases h
    · next hdecided =>
      exact answers_proceed (fixedModuleState_lastError target.inventory_words hdecided) h

end TargetProcess

end MacTypeControl.Injector
