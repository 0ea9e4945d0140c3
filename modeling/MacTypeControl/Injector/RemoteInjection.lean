import MacTypeControl.Injector.ModuleInventory
import MacTypeControl.Injector.Result

/-!
# Loading the module in the target

The path of the module is written into the target, and a thread there loads it. The memory
belongs to that thread until it has ended.
-/

namespace MacTypeControl.Injector

/-! ## Reading the modules again -/

def errorPartialCopy : ℕ := 299

def errorInvalidData : ℕ := 13

def inventoryRetryBudget : ℕ := 500

def inventoryRetryStep : ℕ := 10

def inventoryFailureIsTransient (error : ℕ) : Bool := error == errorPartialCopy

inductive InventoryRetry where
  | retry
  | giveUp
  deriving DecidableEq

def inventoryRetryAction (error elapsed : ℕ) (targetSignaled : Bool) : InventoryRetry :=
  if targetSignaled ∨ inventoryFailureIsTransient error = false ∨ inventoryRetryBudget ≤ elapsed then
    .giveUp
  else .retry

/-- What the system answers around one reading of the modules. -/
structure InventoryAttempt where
  listing : ModuleListing
  lastError : ℕ
  elapsed : ℕ
  targetSignaled : Bool

/-- The state that is decided on, with the last error, and the listings that were read for it. There
is no state while the modules are still to be read again. -/
def fixedModuleState (expectedPath : WideText) (attempts : ℕ → InventoryAttempt) :
    (fuel n : ℕ) → Option (FixedModuleState × ℕ) × List ModuleListing
  | 0, _ => (none, [])
  | fuel + 1, n =>
    let attempt := attempts n
    let state := fixedModuleStateOnce expectedPath attempt.listing
    if state ≠ .inventoryUnavailable ∨
        inventoryRetryAction attempt.lastError attempt.elapsed attempt.targetSignaled = .giveUp then
      (some (state, attempt.lastError), [attempt.listing])
    else
      let (decided, listings) := fixedModuleState expectedPath attempts fuel (n + 1)
      (decided, attempt.listing :: listings)

/-- The state is the one of the last listing. -/
theorem fixedModuleState_listings {expectedPath : WideText} {attempts : ℕ → InventoryAttempt}
    {state : FixedModuleState} {lastError : ℕ} {listings : List ModuleListing} :
    ∀ {fuel n : ℕ}, fixedModuleState expectedPath attempts fuel n =
        (some (state, lastError), listings) →
      ∃ earlier listing, listings = earlier ++ [listing] ∧
        fixedModuleStateOnce expectedPath listing = state := by
  intro fuel
  induction fuel generalizing listings with
  | zero =>
    intro n h
    cases h
  | succ fuel ih =>
    intro n h
    unfold fixedModuleState at h
    dsimp only at h
    split at h
    · simp only [Prod.mk.injEq, Option.some.injEq] at h
      exact ⟨[], (attempts n).listing, h.2.symm, h.1.1⟩
    · have hrest : fixedModuleState expectedPath attempts fuel (n + 1) =
          (some (state, lastError), listings.tail) := by
        rw [← (Prod.mk.injEq ..).mp h |>.2]
        exact Prod.ext ((Prod.mk.injEq ..).mp h).1 rfl
      obtain ⟨earlier, listing, hlistings, hstate⟩ := ih hrest
      refine ⟨(attempts n).listing :: earlier, listing, ?_, hstate⟩
      rw [← (Prod.mk.injEq ..).mp h |>.2] at hlistings ⊢
      simpa using hlistings

/-- Every wait between two readings takes its time, so the readings come to an end. -/
theorem fixedModuleState_decides (expectedPath : WideText) {attempts : ℕ → InventoryAttempt}
    (hsleep : ∀ n, (attempts n).elapsed + inventoryRetryStep ≤ (attempts (n + 1)).elapsed) :
    ∀ {fuel n : ℕ}, inventoryRetryBudget ≤ (attempts n).elapsed + fuel * inventoryRetryStep →
      (fixedModuleState expectedPath attempts (fuel + 1) n).1.isSome = true := by
  intro fuel
  induction fuel with
  | zero =>
    intro n h
    have hlate : inventoryRetryBudget ≤ (attempts n).elapsed := by omega
    have hgive : inventoryRetryAction (attempts n).lastError (attempts n).elapsed
        (attempts n).targetSignaled = .giveUp := if_pos (Or.inr (Or.inr hlate))
    unfold fixedModuleState
    dsimp only
    rw [if_pos (Or.inr hgive)]
    rfl
  | succ fuel ih =>
    intro n h
    unfold fixedModuleState
    dsimp only
    split
    · rfl
    · apply ih
      have := hsleep n
      have hstep : (fuel + 1) * inventoryRetryStep = fuel * inventoryRetryStep + inventoryRetryStep :=
        Nat.succ_mul _ _
      omega

/-! ## What is known after the thread -/

inductive RemoteCompletion where
  | completedOnTime
  | completedAfterDeadline
  | graceExhausted
  | waitFailed
  deriving DecidableEq

inductive ThreadResultEvidence where
  | loaded
  | notLoaded
  | unavailable
  deriving DecidableEq

inductive ModuleInventoryEvidence where
  | loaded
  | notLoaded
  | unavailable
  deriving DecidableEq

structure RemoteInjectionEvidence where
  completion : RemoteCompletion
  threadResult : ThreadResultEvidence
  moduleInventory : ModuleInventoryEvidence
  remoteMemoryReleased : Bool

structure RemoteInjectionVerdict where
  status : ResultStatus
  code : String
  cleanupComplete : Bool

def adjudicateRemoteInjection (evidence : RemoteInjectionEvidence) : RemoteInjectionVerdict :=
  if evidence.completion = .graceExhausted then
    ⟨.timedOut, "remote-load-cleanup-unknown", false⟩
  else if evidence.completion = .waitFailed then
    ⟨.failed, "remote-wait-cleanup-unknown", false⟩
  else if !evidence.remoteMemoryReleased then
    ⟨.failed, "remote-memory-cleanup-unknown", false⟩
  else if evidence.threadResult = .unavailable ∨ evidence.moduleInventory = .unavailable then
    ⟨.failed, "post-injection-state-cleanup-unknown", false⟩
  else if evidence.threadResult = .loaded ∧ evidence.moduleInventory = .loaded then
    ⟨.injected,
      if evidence.completion = .completedAfterDeadline then "module-loaded-late" else "module-loaded",
      true⟩
  else if evidence.threadResult = .notLoaded ∧ evidence.moduleInventory = .notLoaded then
    ⟨.failed, "module-load-failed", true⟩
  else ⟨.failed, "post-injection-state-cleanup-unknown", false⟩

/-- A complete cleanup is only found after the thread, and with the memory released. -/
theorem cleanupComplete_of_adjudicate {evidence : RemoteInjectionEvidence}
    (h : (adjudicateRemoteInjection evidence).cleanupComplete = true) :
    evidence.completion ≠ .graceExhausted ∧ evidence.completion ≠ .waitFailed ∧
      evidence.remoteMemoryReleased = true := by
  unfold adjudicateRemoteInjection at h
  split at h
  · cases h
  split at h
  · cases h
  split at h
  · cases h
  next hgrace hwait hreleased => exact ⟨hgrace, hwait, by simpa using hreleased⟩

theorem loaded_of_adjudicate {evidence : RemoteInjectionEvidence}
    (h : (adjudicateRemoteInjection evidence).status = .injected) :
    evidence.threadResult = .loaded ∧ evidence.moduleInventory = .loaded := by
  by_contra hloaded
  unfold adjudicateRemoteInjection at h
  rw [if_neg hloaded] at h
  repeat' split at h
  all_goals cases h

theorem cleanupComplete_of_moduleLoadFailed {evidence : RemoteInjectionEvidence}
    (h : (adjudicateRemoteInjection evidence).code = "module-load-failed") :
    (adjudicateRemoteInjection evidence).cleanupComplete = true := by
  unfold adjudicateRemoteInjection at h ⊢
  repeat' split at h
  all_goals simp_all

structure ProcessLifecycle where
  frozen : Bool
  deleting : Bool

/-! ## The injection -/

inductive WaitAnswer where
  | object
  | abandoned (lastError : ℕ)
  | timeout
  | failed (error : ℕ)

/-- What happens to the memory and to the thread in the target. A wait that is answered by the
thread itself tells that it has ended. -/
inductive RemoteEvent where
  | allocated (address : ℕ)
  | threadCreated
  | threadEnded
  | exitCode (code : Option ℕ)
  | freed (address : ℕ) (succeeded : Bool)
  | modulesRead (listing : ModuleListing)
  deriving DecidableEq

/-- The target of an injection: what the system answers to each call on it. A write that succeeds
answers the number of bytes. -/
structure RemoteTarget where
  is64Bit : Bool
  virtualAllocEx : Except ℕ ℕ
  writeProcessMemory : Option ℕ
  writeError : ℕ
  remoteLoadLibrary : Except ℕ ℕ
  createRemoteThread : Except ℕ Unit
  wait : WaitAnswer
  graceWait : WaitAnswer
  getExitCodeThread : Except ℕ ℕ
  virtualFreeEx : Except ℕ Unit
  virtualFreeExAgain : Except ℕ Unit
  inventory : ℕ → InventoryAttempt
  lifecycle : Option ProcessLifecycle

/-- The address of the memory, while it is owned. -/
abbrev RemoteAllocation := Option ℕ

namespace RemoteAllocation

def release (answer : Except ℕ Unit) :
    RemoteAllocation → Bool × RemoteAllocation × List RemoteEvent
  | none => (true, none, [])
  | some address => match answer with
    | .ok () => (true, none, [.freed address true])
    | .error _ => (false, some address, [.freed address false])

/-- The end of the owner's scope. -/
def destroy (answer : Except ℕ Unit) : RemoteAllocation → List RemoteEvent
  | none => []
  | some address => [.freed address answer.isOk]

end RemoteAllocation

/-- How far an injection has come: its result, if it has one, the memory it still owns, and what it
did in the target. -/
structure InjectionRun where
  result : Option Result
  allocation : RemoteAllocation
  events : List RemoteEvent

def fixedModuleName (is64Bit : Bool) : String :=
  if is64Bit then "MacType64.dll" else "MacType.dll"

def inventoryEvidence (state : FixedModuleState) (lastError error : ℕ) :
    ModuleInventoryEvidence × ℕ :=
  match state with
  | .absent => (.notLoaded, error)
  | .expectedModuleLoaded => (.loaded, error)
  | .sameBasenameDifferentPath => (.unavailable, error)
  | .inventoryUnavailable => (.unavailable, lastError)

namespace RemoteTarget

variable (target : RemoteTarget) (fuel : ℕ) (request : BrokerRequest) (modulePath : WideText)

def makeVerdictResult (evidence : RemoteInjectionEvidence) (windowsError : ℕ) : Result :=
  let verdict := adjudicateRemoteInjection evidence
  if verdict.code = "module-load-failed" ∧ target.lifecycle.any ProcessLifecycle.deleting then
    makeResult request .skipped "process-exiting" (fixedModuleName target.is64Bit) windowsError true
  else
    makeResult request verdict.status verdict.code (fixedModuleName target.is64Bit) windowsError
      verdict.cleanupComplete

/-- No thread was created. -/
def failBeforeThread (code : String) (error address : ℕ) : InjectionRun :=
  let (cleanupComplete, allocation, events) :=
    RemoteAllocation.release target.virtualFreeEx (some address)
  ⟨some (makeResult request .failed code (fixedModuleName target.is64Bit) error cleanupComplete),
    allocation, events⟩

/-- The thread is left with the memory. -/
def abandonThread (completion : RemoteCompletion) (error : ℕ) : InjectionRun :=
  ⟨some (target.makeVerdictResult request ⟨completion, .unavailable, .unavailable, false⟩ error),
    none, []⟩

def threadResult : ThreadResultEvidence :=
  match target.getExitCodeThread with
  | .error _ => .unavailable
  | .ok code => if code = 0 then .notLoaded else .loaded

/-- The error of the exit code, or else the one of the release. -/
def evidenceError : ℕ :=
  match target.getExitCodeThread, target.virtualFreeEx with
  | .error error, .ok () => error
  | .error error, .error freeError => if error = 0 then freeError else error
  | .ok _, .error freeError => freeError
  | .ok _, .ok () => 0

/-- The result after the thread has ended, from the state that was decided on. -/
def collectedResult (completion : RemoteCompletion) (memoryReleased : Bool)
    (state : FixedModuleState) (lastError : ℕ) : Result :=
  let (inventory, error) := inventoryEvidence state lastError target.evidenceError
  if state = .sameBasenameDifferentPath ∧ memoryReleased then
    makeResult request .skipped "conflicting-mactype-module-loaded"
      (fixedModuleName target.is64Bit) error true
  else
    target.makeVerdictResult request ⟨completion, target.threadResult, inventory, memoryReleased⟩
      error

/-- The thread has ended. -/
def collectEvidence (completion : RemoteCompletion) (address : ℕ) : InjectionRun :=
  let (memoryReleased, allocation, freed) :=
    RemoteAllocation.release target.virtualFreeEx (some address)
  let (decided, listings) := fixedModuleState modulePath target.inventory fuel 0
  ⟨decided.map fun (state, lastError) =>
      target.collectedResult request completion memoryReleased state lastError,
    allocation,
    .threadEnded :: .exitCode target.getExitCodeThread.toOption :: freed ++
      listings.map .modulesRead⟩

def awaitThread (address : ℕ) : InjectionRun :=
  match target.wait with
  | .object => target.collectEvidence fuel request modulePath .completedOnTime address
  | .timeout => match target.graceWait with
    | .object => target.collectEvidence fuel request modulePath .completedAfterDeadline address
    | .failed error => target.abandonThread request .graceExhausted error
    | .abandoned _ => target.abandonThread request .graceExhausted 0
    | .timeout => target.abandonThread request .graceExhausted 0
  | .abandoned error => target.abandonThread request .waitFailed error
  | .failed error => target.abandonThread request .waitFailed error

def injectInto (address : ℕ) : InjectionRun :=
  if target.writeProcessMemory ≠ some ((modulePath.length + 1) * 2) then
    target.failBeforeThread request "remote-write-failed" target.writeError address
  else match target.remoteLoadLibrary with
    | .error error => target.failBeforeThread request "loader-address-unavailable" error address
    | .ok _ => match target.createRemoteThread with
      | .error error => target.failBeforeThread request "remote-thread-failed" error address
      | .ok () =>
        let run := target.awaitThread fuel request modulePath address
        { run with events := .threadCreated :: run.events }

/-- The result, and what was done in the target. -/
def injectModule : Option Result × List RemoteEvent :=
  match target.virtualAllocEx with
  | .error error =>
    (some (makeResult request .failed "remote-allocation-failed" (fixedModuleName target.is64Bit)
      error), [])
  | .ok address =>
    let run := target.injectInto fuel request modulePath address
    let destroyed :=
      if run.result.isSome then run.allocation.destroy target.virtualFreeExAgain else []
    (run.result, .allocated address :: run.events ++ destroyed)

end RemoteTarget

/-! ## What a result rests on -/

/-- The memory is only given back where no thread can read it any more. -/
def FreedAfterThread (events : List RemoteEvent) : Prop :=
  ∀ before address succeeded after, events = before ++ .freed address succeeded :: after →
    .threadCreated ∉ events ∨ .threadEnded ∈ before

def RemoteEvent.isRelease : RemoteEvent → Bool
  | .freed _ succeeded => succeeded
  | _ => false

/-- Nothing of the injection is left in the target. -/
def CleanedUp (events : List RemoteEvent) : Prop :=
  (∀ address, .allocated address ∈ events → .freed address true ∈ events) ∧
    (.threadCreated ∈ events → .threadEnded ∈ events)

/-- The thread has loaded a module, and the modules that were read after it show the expected one
alone. -/
def ShownLoaded (modulePath : WideText) (events : List RemoteEvent) : Prop :=
  (∃ code, code ≠ 0 ∧ .exitCode (some code) ∈ events) ∧
    ∃ before modules after, events = before ++ .modulesRead (some modules) :: after ∧
      .threadEnded ∈ before ∧ (∀ listing, .modulesRead listing ∉ after) ∧
      OnlyExpected modulePath modules

/-- Events that begin without a free keep their beginning in front of every free. -/
theorem append_of_freed {start rest before after : List RemoteEvent} {address : ℕ}
    {succeeded : Bool} (hstart : ∀ a b, .freed a b ∉ start)
    (h : start ++ rest = before ++ .freed address succeeded :: after) :
    ∃ more, before = start ++ more := by
  rcases List.append_eq_append_iff.1 h with ⟨more, hbefore, -⟩ | ⟨more, hlead, hrest⟩
  · exact ⟨more, hbefore⟩
  · cases more with
    | nil => exact ⟨[], by simpa using hlead.symm⟩
    | cons first more =>
      rw [List.cons_append, List.cons.injEq] at hrest
      refine absurd ?_ (hstart address succeeded)
      rw [hlead, hrest.1]
      simp

theorem freedAfterThread_of_no_thread {events : List RemoteEvent} (h : .threadCreated ∉ events) :
    FreedAfterThread events :=
  fun _ _ _ _ _ => Or.inl h

theorem freedAfterThread_of_ended {start rest : List RemoteEvent}
    (hstart : ∀ a b, .freed a b ∉ start) (hended : .threadEnded ∈ start) :
    FreedAfterThread (start ++ rest) := by
  intro before address succeeded after h
  obtain ⟨more, rfl⟩ := append_of_freed hstart h
  exact Or.inr (List.mem_append_left _ hended)

namespace RemoteAllocation

/-- The memory is given back, or it is still owned. -/
theorem release_cases (answer : Except ℕ Unit) (address : ℕ) :
    release answer (some address) = (true, none, [.freed address true]) ∨
      release answer (some address) = (false, some address, [.freed address false]) := by
  cases answer with
  | ok u => exact Or.inl rfl
  | error error => exact Or.inr rfl

end RemoteAllocation

namespace RemoteTarget

variable {target : RemoteTarget} {fuel : ℕ} {request : BrokerRequest} {modulePath : WideText}

/-- How an injection goes on with its memory. -/
theorem injectInto_cases (target : RemoteTarget) (fuel : ℕ) (request : BrokerRequest)
    (modulePath : WideText) (address : ℕ) :
    (∃ code error, target.injectInto fuel request modulePath address =
      target.failBeforeThread request code error address) ∨
    (∃ completion error, completion ∈ [.graceExhausted, .waitFailed] ∧
      target.injectInto fuel request modulePath address =
        { target.abandonThread request completion error with events := [.threadCreated] }) ∨
    ∃ completion, target.injectInto fuel request modulePath address =
      { target.collectEvidence fuel request modulePath completion address with
        events := .threadCreated ::
          (target.collectEvidence fuel request modulePath completion address).events } := by
  unfold injectInto
  split
  · exact Or.inl ⟨_, _, rfl⟩
  split
  · exact Or.inl ⟨_, _, rfl⟩
  split
  · exact Or.inl ⟨_, _, rfl⟩
  right
  unfold awaitThread
  split
  · exact Or.inr ⟨_, rfl⟩
  · split
    · exact Or.inr ⟨_, rfl⟩
    all_goals exact Or.inl ⟨.graceExhausted, _, by simp, rfl⟩
  all_goals exact Or.inl ⟨.waitFailed, _, by simp, rfl⟩

/-- The events of an injection that got memory and no thread: the memory is given back. -/
theorem failBeforeThread_events (target : RemoteTarget) (request : BrokerRequest) (code : String)
    (error address : ℕ) :
    ∃ released, (target.failBeforeThread request code error address).events =
        [.freed address released] ∧
      (target.failBeforeThread request code error address).allocation =
        (if released then none else some address) ∧
      ∃ result, (target.failBeforeThread request code error address).result = some result ∧
        result.status = .failed ∧ result.cleanupComplete = released := by
  unfold failBeforeThread
  rcases RemoteAllocation.release_cases target.virtualFreeEx address with hrelease | hrelease
  · rw [hrelease]
    exact ⟨true, rfl, rfl, _, rfl, rfl, rfl⟩
  · rw [hrelease]
    exact ⟨false, rfl, rfl, _, rfl, rfl, rfl⟩

theorem makeVerdictResult_cleanup {evidence : RemoteInjectionEvidence} {error : ℕ}
    (h : (target.makeVerdictResult request evidence error).cleanupComplete = true) :
    (adjudicateRemoteInjection evidence).cleanupComplete = true := by
  unfold makeVerdictResult at h
  dsimp only at h
  split at h
  · next hfailed => exact cleanupComplete_of_moduleLoadFailed hfailed.1
  · exact h

theorem makeVerdictResult_injected {evidence : RemoteInjectionEvidence} {error : ℕ}
    (h : (target.makeVerdictResult request evidence error).status = .injected) :
    (adjudicateRemoteInjection evidence).status = .injected := by
  unfold makeVerdictResult at h
  dsimp only at h
  split at h
  · cases h
  · exact h

/-- A thread that is left behind is never reported as cleaned up, nor as a success. -/
theorem abandonThread_result (target : RemoteTarget) (request : BrokerRequest) {completion : RemoteCompletion} (error : ℕ)
    (h : completion ∈ [.graceExhausted, .waitFailed]) :
    ∃ result, (target.abandonThread request completion error).result = some result ∧
      result.cleanupComplete = false ∧ result.status ≠ .injected := by
  refine ⟨_, rfl, ?_, ?_⟩
  · by_contra hcomplete
    have hended := cleanupComplete_of_adjudicate
      (makeVerdictResult_cleanup (Bool.not_eq_false _ ▸ hcomplete))
    simp only [List.mem_cons, List.not_mem_nil, or_false] at h
    rcases h with rfl | rfl
    · exact hended.1 rfl
    · exact hended.2.1 rfl
  · intro hinjected
    have hloaded := loaded_of_adjudicate (makeVerdictResult_injected hinjected)
    cases hloaded.1

theorem evidence_of_threadResult (h : target.threadResult = .loaded) :
    ∃ code, code ≠ 0 ∧ target.getExitCodeThread = .ok code := by
  unfold threadResult at h
  split at h
  · cases h
  next code hcode =>
  split at h
  · cases h
  next hnonzero => exact ⟨code, hnonzero, hcode⟩

theorem released_of_collectedResult {completion : RemoteCompletion} {memoryReleased : Bool}
    {state : FixedModuleState} {lastError : ℕ}
    (h : (target.collectedResult request completion memoryReleased state lastError).cleanupComplete =
      true) : memoryReleased = true := by
  unfold collectedResult at h
  dsimp only at h
  split at h
  · next hconflict => exact hconflict.2
  · exact (cleanupComplete_of_adjudicate (makeVerdictResult_cleanup h)).2.2

theorem loaded_of_collectedResult {completion : RemoteCompletion} {memoryReleased : Bool}
    {state : FixedModuleState} {lastError : ℕ}
    (h : (target.collectedResult request completion memoryReleased state lastError).status =
      .injected) : target.threadResult = .loaded ∧ state = .expectedModuleLoaded := by
  unfold collectedResult at h
  dsimp only at h
  split at h
  · cases h
  · obtain ⟨hthread, hinventory⟩ := loaded_of_adjudicate (makeVerdictResult_injected h)
    refine ⟨hthread, ?_⟩
    cases state <;> first | rfl | cases hinventory

/-- The events after a thread that has ended, and what its result rests on. -/
theorem collectEvidence_events (target : RemoteTarget) (fuel : ℕ) (request : BrokerRequest)
    (modulePath : WideText) (completion : RemoteCompletion) (address : ℕ) :
    ∃ released listings,
      (target.collectEvidence fuel request modulePath completion address).events =
        [.threadEnded, .exitCode target.getExitCodeThread.toOption, .freed address released] ++
          listings.map .modulesRead ∧
      (target.collectEvidence fuel request modulePath completion address).allocation =
        (if released then none else some address) ∧
      ∀ result, (target.collectEvidence fuel request modulePath completion address).result =
          some result →
        (result.cleanupComplete = true → released = true) ∧
        (result.status = .injected → (∃ code, code ≠ 0 ∧ target.getExitCodeThread = .ok code) ∧
          ∃ earlier modules, listings = earlier ++ [some modules] ∧
            OnlyExpected modulePath modules) := by
  have hrun (released : Bool) (owned : RemoteAllocation)
      (hrelease : RemoteAllocation.release target.virtualFreeEx (some address) =
        (released, owned, [.freed address released])) :
      target.collectEvidence fuel request modulePath completion address =
        ⟨(fixedModuleState modulePath target.inventory fuel 0).1.map fun decided =>
          target.collectedResult request completion released decided.1 decided.2, owned,
        [.threadEnded, .exitCode target.getExitCodeThread.toOption, .freed address released] ++
          (fixedModuleState modulePath target.inventory fuel 0).2.map .modulesRead⟩ := by
    unfold collectEvidence
    rw [hrelease]
  have hresult (released : Bool) (result : Result)
      (h : ((fixedModuleState modulePath target.inventory fuel 0).1.map fun decided =>
        target.collectedResult request completion released decided.1 decided.2) = some result) :
      (result.cleanupComplete = true → released = true) ∧
      (result.status = .injected → (∃ code, code ≠ 0 ∧ target.getExitCodeThread = .ok code) ∧
        ∃ earlier modules,
          (fixedModuleState modulePath target.inventory fuel 0).2 = earlier ++ [some modules] ∧
          OnlyExpected modulePath modules) := by
    obtain ⟨⟨state, lastError⟩, hdecided, rfl⟩ := Option.map_eq_some_iff.1 h
    refine ⟨released_of_collectedResult, fun hinjected => ?_⟩
    obtain ⟨hthread, rfl⟩ := loaded_of_collectedResult hinjected
    refine ⟨evidence_of_threadResult hthread, ?_⟩
    obtain ⟨earlier, listing, hlistings, hstate⟩ :=
      fixedModuleState_listings (Prod.ext hdecided rfl)
    obtain ⟨modules, rfl, honly⟩ := onlyExpected_of_state hstate
    exact ⟨earlier, modules, hlistings, honly⟩
  rcases RemoteAllocation.release_cases target.virtualFreeEx address with hrelease | hrelease
  · rw [hrun true none hrelease]
    exact ⟨true, _, rfl, rfl, hresult true⟩
  · rw [hrun false (some address) hrelease]
    exact ⟨false, _, rfl, rfl, hresult false⟩

/-- What the events of an injection come to, with what its result rests on. -/
structure Evidenced (modulePath : WideText) (result : Option Result) (events : List RemoteEvent) :
    Prop where
  freed_after_thread : FreedAfterThread events
  freed_once : events.countP RemoteEvent.isRelease ≤ 1
  cleanup : ∀ r, result = some r → r.cleanupComplete = true → CleanedUp events
  injected : ∀ r, result = some r → r.status = .injected → ShownLoaded modulePath events

/-- The end of the scope frees no memory that was freed before. -/
theorem countP_destroy (answer : Except ℕ Unit) (released : Bool) (address : ℕ) :
    (RemoteAllocation.destroy answer (if released then none else some address)).countP
      RemoteEvent.isRelease + released.toNat ≤ 1 := by
  cases released with
  | true => exact Nat.le_refl 1
  | false =>
    cases answer with
    | ok u => exact Nat.le_refl 1
    | error error => exact Nat.zero_le 1

theorem mem_destroy {answer : Except ℕ Unit} {allocation : RemoteAllocation} {event : RemoteEvent}
    (h : event ∈ RemoteAllocation.destroy answer allocation) :
    ∃ address succeeded, event = .freed address succeeded := by
  cases allocation with
  | none => cases h
  | some address => exact ⟨address, _, List.mem_singleton.1 h⟩

/-- The memory was never given to a thread. -/
theorem evidenced_failBeforeThread (code : String) (error address : ℕ) :
    Evidenced modulePath (target.failBeforeThread request code error address).result
      (.allocated address :: (target.failBeforeThread request code error address).events ++
        (target.failBeforeThread request code error address).allocation.destroy
          target.virtualFreeExAgain) := by
  obtain ⟨released, hevents, howned, result, hresult, hstatus, hcleanup⟩ :=
    failBeforeThread_events target request code error address
  rw [hevents, howned, hresult]
  have hthread : RemoteEvent.threadCreated ∉ .allocated address :: [.freed address released] ++
      RemoteAllocation.destroy target.virtualFreeExAgain
        (if released then none else some address) := by
    intro hmem
    rcases List.mem_append.1 hmem with hmem | hmem
    · simp at hmem
    · obtain ⟨_, _, h⟩ := mem_destroy hmem
      cases h
  constructor
  · exact freedAfterThread_of_no_thread hthread
  · have hcount := countP_destroy target.virtualFreeExAgain released address
    have hfirst : List.countP RemoteEvent.isRelease [.allocated address, .freed address released] =
        released.toNat := by
      cases released <;> rfl
    show List.countP _ ([RemoteEvent.allocated address, .freed address released] ++ _) ≤ 1
    rw [List.countP_append, hfirst]
    omega
  · intro r hr hcomplete
    cases hr
    rw [hcleanup] at hcomplete
    refine ⟨fun a ha => ?_, fun h => absurd h hthread⟩
    subst hcomplete
    have : a = address := by simpa [RemoteAllocation.destroy] using ha
    simp [this]
  · intro r hr hinjected
    cases hr
    rw [hstatus] at hinjected
    cases hinjected

/-- The memory was left to a thread. -/
theorem evidenced_abandonThread {completion : RemoteCompletion} (error address : ℕ)
    (h : completion ∈ [.graceExhausted, .waitFailed]) :
    Evidenced modulePath (target.abandonThread request completion error).result
      [.allocated address, .threadCreated] := by
  obtain ⟨result, hresult, hcleanup, hstatus⟩ :=
    abandonThread_result target request error h
  rw [hresult]
  constructor
  · intro before a succeeded after hevents
    have hmem : RemoteEvent.freed a succeeded ∈ [.allocated address, .threadCreated] := by
      rw [hevents]
      simp
    simp at hmem
  · exact Nat.zero_le 1
  · intro r hr hcomplete
    cases hr
    rw [hcleanup] at hcomplete
    cases hcomplete
  · intro r hr hinjected
    cases hr
    exact absurd hinjected hstatus

/-- The thread has ended before the memory was freed. -/
theorem evidenced_collectEvidence (target : RemoteTarget) (fuel : ℕ) (request : BrokerRequest)
    (modulePath : WideText) (completion : RemoteCompletion) (address : ℕ)
    (allocation : RemoteAllocation) (hallocation : allocation =
      if (target.collectEvidence fuel request modulePath completion address).result.isSome then
        (target.collectEvidence fuel request modulePath completion address).allocation
      else none) :
    Evidenced modulePath (target.collectEvidence fuel request modulePath completion address).result
      (.allocated address :: .threadCreated ::
        (target.collectEvidence fuel request modulePath completion address).events ++
        allocation.destroy target.virtualFreeExAgain) := by
  obtain ⟨released, listings, hevents, howned, hresult⟩ := collectEvidence_events target fuel
    request modulePath completion address
  -- the thread has ended in front of every free
  have hsplit : .allocated address :: .threadCreated ::
      (target.collectEvidence fuel request modulePath completion address).events ++
        allocation.destroy target.virtualFreeExAgain =
      [.allocated address, .threadCreated, .threadEnded] ++
        ([.exitCode target.getExitCodeThread.toOption, .freed address released] ++
          listings.map .modulesRead ++ allocation.destroy target.virtualFreeExAgain) := by
    rw [hevents]
    rfl
  rw [hsplit]
  have hreads : (listings.map RemoteEvent.modulesRead).countP RemoteEvent.isRelease = 0 := by
    rw [List.countP_map]
    exact List.countP_eq_zero.2 fun listing _ => by simp [RemoteEvent.isRelease]
  have hdestroy : (allocation.destroy target.virtualFreeExAgain).countP RemoteEvent.isRelease +
      released.toNat ≤ 1 := by
    have hcount := countP_destroy target.virtualFreeExAgain released address
    rw [hallocation]
    split
    · rwa [howned]
    · have hnone : (RemoteAllocation.destroy target.virtualFreeExAgain none).countP
          RemoteEvent.isRelease = 0 := rfl
      omega
  constructor
  · exact freedAfterThread_of_ended (by simp) (by simp)
  · have hfirst : List.countP RemoteEvent.isRelease [.allocated address, .threadCreated,
        .threadEnded] = 0 := rfl
    have hfreed : List.countP RemoteEvent.isRelease
        [.exitCode target.getExitCodeThread.toOption, .freed address released] =
          released.toNat := by
      cases released <;> rfl
    rw [List.countP_append, List.countP_append, List.countP_append, hfirst, hfreed, hreads]
    omega
  · intro r hr hcomplete
    obtain rfl := (hresult r hr).1 hcomplete
    refine ⟨fun a ha => ?_, fun _ => by simp⟩
    have hsame : a = address := by
      rcases List.mem_append.1 ha with hstart | hrest
      · simpa using hstart
      rcases List.mem_append.1 hrest with hread | hdestroyed
      · simp at hread
      · obtain ⟨_, _, h⟩ := mem_destroy hdestroyed
        cases h
    simp [hsame]
  · intro r hr hinjected
    obtain ⟨⟨code, hcode, hexit⟩, earlier, modules, hlistings, honly⟩ := (hresult r hr).2 hinjected
    refine ⟨⟨code, hcode, by simp [hexit, Except.toOption]⟩, ?_⟩
    refine ⟨[.allocated address, .threadCreated, .threadEnded,
      .exitCode target.getExitCodeThread.toOption, .freed address released] ++
        earlier.map .modulesRead, modules, allocation.destroy target.virtualFreeExAgain, ?_,
      by simp, ?_, honly⟩
    · rw [hlistings]
      simp
    · intro listing hmem
      obtain ⟨_, _, h⟩ := mem_destroy hmem
      cases h

/-- For every answer of the system to every call: the memory is freed at most once, and never before
the end of the thread that reads it; a complete cleanup leaves neither behind; and an injection is
only reported on the evidence of the thread and of the modules that are read after it. -/
theorem injectModule_evidenced (target : RemoteTarget) (fuel : ℕ) (request : BrokerRequest)
    (modulePath : WideText) :
    Evidenced modulePath (target.injectModule fuel request modulePath).1
      (target.injectModule fuel request modulePath).2 := by
  unfold injectModule
  split
  · constructor
    · exact freedAfterThread_of_no_thread (by simp)
    · exact Nat.zero_le 1
    · intro r hr hcomplete
      exact ⟨fun a ha => by simp at ha, fun h => by simp at h⟩
    · intro r hr hinjected
      cases hr
      cases hinjected
  next address _ =>
  rcases injectInto_cases target fuel request modulePath address with
    ⟨code, error, hrun⟩ | ⟨completion, error, hcompletion, hrun⟩ | ⟨completion, hrun⟩
  · obtain ⟨_, _, _, result, hresult, _⟩ :=
      failBeforeThread_events target request code error address
    have hreturned : (target.failBeforeThread request code error address).result.isSome = true := by
      rw [hresult]
      rfl
    dsimp only
    rw [hrun, if_pos hreturned]
    exact evidenced_failBeforeThread code error address
  · dsimp only
    rw [hrun]
    exact evidenced_abandonThread error address hcompletion
  · dsimp only
    rw [hrun]
    have hcollected := evidenced_collectEvidence target fuel request modulePath
      completion address _ rfl
    dsimp only
    split
    · next hreturned => rwa [if_pos hreturned] at hcollected
    · next hreturned => rwa [if_neg hreturned] at hcollected

/-- The injection returns once the readings of the modules have used up their time. -/
theorem injectModule_returns (target : RemoteTarget) (request : BrokerRequest)
    (modulePath : WideText)
    (hsleep : ∀ n, (target.inventory n).elapsed + inventoryRetryStep ≤
      (target.inventory (n + 1)).elapsed) :
    (target.injectModule (inventoryRetryBudget / inventoryRetryStep + 1) request modulePath).1.isSome =
      true := by
  have hdecided : (fixedModuleState modulePath target.inventory
      (inventoryRetryBudget / inventoryRetryStep + 1) 0).1.isSome = true := by
    apply fixedModuleState_decides modulePath hsleep
    show 500 ≤ _ + 50 * 10
    omega
  unfold injectModule
  split
  · rfl
  next address _ =>
  rcases injectInto_cases target (inventoryRetryBudget / inventoryRetryStep + 1) request modulePath
    address with
    ⟨code, error, hrun⟩ | ⟨completion, error, -, hrun⟩ | ⟨completion, hrun⟩
  · dsimp only
    rw [hrun]
    rfl
  · dsimp only
    rw [hrun]
    rfl
  · dsimp only
    rw [hrun]
    unfold collectEvidence
    simpa using hdecided

end RemoteTarget

end MacTypeControl.Injector
