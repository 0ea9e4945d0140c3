import MacTypeControl.Injection.TargetValidation

/-!
# The injection orchestrator

Every handler takes the session and returns it changed. A handler can stop with
the service error its inspection met, or at the `unreachable!` behind the
attempt loop.
-/

namespace MacTypeControl.Injection

open Tables

variable {ω : Type}

inductive HandlerError where
  | service (error : StructuredServiceError)
  | unreachable (message : String)

def targetVanishedResultCode : String := "injection-target-vanished"

def deferralCapacityExhaustedCode : String := "deferral-capacity-exhausted"

def terminalOutcome (disposition : BrokerDisposition) (finalAttempt : Bool) :
    Option ProcessOutcome :=
  match disposition with
  | .launchFailed | .targetFrozen => none
  | .cancelled => some .cancelled
  | .injected => some .injected
  | .skipped => some .skipped
  | .rejected => some .rejected
  | .retryableFailure => if finalAttempt then some .retryExhausted else none

def safeToRetrySameIdentity (code : String) : Bool :=
  code ∈ ["session-unavailable", "identity-unavailable", "architecture-unavailable",
    "module-inventory-unavailable"]

/-- A failure whose code is not on the list is not retried. -/
def rejectUnsafeRetry (result : BrokerResult) : BrokerResult :=
  if result.disposition = .retryableFailure ∧ !safeToRetrySameIdentity result.code then
    { result with disposition := .rejected }
  else result

namespace InjectionOrchestrator

def attempts (o : InjectionOrchestrator) : ℕ := max o.retryPolicy.maxAttempts 1

def containsIdentity (o : InjectionOrchestrator) (identity : ProcessIdentity) : Bool :=
  identity.key ∈ o.processed.keys || identity.key ∈ o.deferred.keys

def recordInjectionSuccess (o : InjectionOrchestrator) (identity : ProcessIdentity) :
    InjectionOrchestrator :=
  match o.profileDigest with
  | none => o
  | some profileDigest =>
    let success : InjectionSuccess := ⟨identity.pid, identity.creationTime, identity.sessionId,
      o.generationId, profileDigest⟩
    { o with injectionTelemetry :=
      o.injectionTelemetry.recordSuccess identity.architecture success }

end InjectionOrchestrator

namespace Session

def askBroker (env : Environment ω) (s : Session ω) (identity : ProcessIdentity)
    (attempt deferrals : ℕ) : BrokerResult × Session ω :=
  let (result, world) := env.inject s.world ⟨identity, s.orchestrator.generationId⟩
  (result, { s with
    world
    history := .returned identity attempt deferrals result :: .asked identity attempt ::
      s.history })

def probeLiveness (env : Environment ω) (s : Session ω) (identity : ProcessIdentity) :
    TargetLiveness × Session ω :=
  let (liveness, world) := env.probeTargetLiveness s.world identity
  (liveness, { s with world, history := .probed identity liveness :: s.history })

/-- Makes room for one more key in the processed table, if the key is new. -/
def trackKey (s : Session ω) (key : ProcessKey) : Session ω :=
  let o := s.orchestrator
  if key ∈ o.processed.keys then s
  else
    let (processOrder, processed, evicted) :=
      evictOldest maxTrackedProcessResults o.processOrder o.processed
    { s with
      orchestrator := { o with processed, processOrder := processOrder ++ [key] }
      history := evicted.reverse.map Observation.evicted ++ s.history }

def recordResult (env : Environment ω) (s : Session ω) (identity : ProcessIdentity)
    (outcome : ProcessOutcome) (attempts : ℕ) (result : BrokerResult) : Session ω :=
  let s := s.trackKey identity.key
  let record : ProcessAttemptRecord :=
    ⟨identity, s.orchestrator.generationId, outcome, attempts, result.code, result.win32Error⟩
  let (process, world) :=
    if outcome = .rejected ∨ outcome = .retryExhausted then
      let (basename, world) := env.processBasename s.world identity
      (basename.getD ("pid-" ++ toString identity.pid), world)
    else ("", s.world)
  { s with
    world
    events := .injectionResult record process :: s.events
    orchestrator := { s.orchestrator with
      processed := s.orchestrator.processed.insert identity.key record } }

def recordSkip (env : Environment ω) (s : Session ω) (identity : ProcessIdentity)
    (code : String) (win32Error : Option ℕ) : Session ω :=
  s.recordResult env identity .skipped 0 ⟨.skipped, code, win32Error⟩

/-- The loop that makes room for one more deferred target. -/
def evictDeferred (env : Environment ω) (s : Session ω) : List ProcessKey → Session ω
  | [] => { s with orchestrator := { s.orchestrator with deferredOrder := [] } }
  | oldest :: rest =>
    let o := s.orchestrator
    if maxDeferredTargets ≤ o.deferred.size then
      match o.deferred.lookup oldest with
      | some evicted =>
        let o := { o with deferred := o.deferred.erase oldest, deferredOrder := rest }
        { s with orchestrator := o }.recordSkip env evicted.identity
          deferralCapacityExhaustedCode none
      | none => evictDeferred env s rest
    else { s with orchestrator := { o with deferredOrder := oldest :: rest } }

def insertDeferred (env : Environment ω) (s : Session ω) (target : DeferredTarget) :
    Session ω :=
  let key := target.identity.key
  let o := s.orchestrator
  let deferredOrder := o.deferredOrder.filter (· ≠ key)
  let s :=
    if key ∈ o.deferred.keys then
      { s with orchestrator := { o with deferredOrder } }
    else s.evictDeferred env deferredOrder
  { s with orchestrator := { s.orchestrator with
      deferred := s.orchestrator.deferred.insert key target
      deferredOrder := s.orchestrator.deferredOrder ++ [key] } }

/-- A result the helper could not vouch for is a skip when the target is gone. -/
def reclassifyVanishedTarget (env : Environment ω) (s : Session ω)
    (identity : ProcessIdentity) (outcome : ProcessOutcome) (result : BrokerResult) :
    ProcessOutcome × BrokerResult × Session ω :=
  if (outcome ≠ .rejected ∧ outcome ≠ .retryExhausted) ∨
      !"-cleanup-unknown".toList.isSuffixOf result.code.toList then
    (outcome, result, s)
  else match s.probeLiveness env identity with
    | (.vanished, s) => (.skipped, { result with code := targetVanishedResultCode }, s)
    | (.alive, s) => (outcome, result, s)
    | (.unknown, s) => (outcome, result, s)

def handleLaunchFailure (env : Environment ω) (s : Session ω) (identity : ProcessIdentity)
    (deferrals now : ℕ) (result : BrokerResult) (attempt : ℕ) :
    ProcessOutcome × Session ω :=
  let policy := s.orchestrator.deferralPolicy
  match s.probeLiveness env identity with
  | (.vanished, s) =>
    (.skipped, s.recordSkip env identity targetVanishedResultCode result.win32Error)
  | (_, s) =>
    if policy.launchMaxDeferrals ≤ deferrals then
      (.rejected, s.recordResult env identity .rejected attempt result)
    else
      let multiplier := if deferrals < 32 then 2 ^ deferrals else 2 ^ 32 - 1
      let delay := min (saturatingMul policy.launchInitialDelay multiplier) policy.launchMaxDelay
      (.deferred, s.insertDeferred env
        ⟨identity, .helperLaunchFailed, min (deferrals + 1) 255, now + delay⟩)

/-- Records a terminal outcome of a try. -/
def concludeAttempt (env : Environment ω) (s : Session ω) (identity : ProcessIdentity)
    (outcome : ProcessOutcome) (result : BrokerResult) (attempt : ℕ) :
    ProcessOutcome × Session ω :=
  let s := if outcome = .injected then
      { s with orchestrator := s.orchestrator.recordInjectionSuccess identity }
    else s
  let (outcome, result, s) := s.reclassifyVanishedTarget env identity outcome result
  (outcome, s.recordResult env identity outcome attempt result)

/-- What one broker answer means: `none` asks for another attempt. -/
def settleAnswer (env : Environment ω) (s : Session ω) (identity : ProcessIdentity)
    (deferrals now : ℕ) (result : BrokerResult) (attempt : ℕ) (finalAttempt : Bool) :
    Option ProcessOutcome × Session ω :=
  match result.disposition with
  | .launchFailed =>
    let (outcome, s) := s.handleLaunchFailure env identity deferrals now result attempt
    (some outcome, s)
  | .targetFrozen =>
    (some .deferred, s.insertDeferred env ⟨identity, .frozen, deferrals,
      now + s.orchestrator.deferralPolicy.frozenRecheck⟩)
  | disposition =>
    match terminalOutcome disposition finalAttempt with
    | none => (none, s)
    | some outcome =>
      let (outcome, s) := s.concludeAttempt env identity outcome result attempt
      (some outcome, s)

/-- Waits before the next attempt; `false` means the service is stopping. -/
def waitForRetry (env : Environment ω) (s : Session ω) (delay : ℕ) : Bool × Session ω :=
  match env.retryScheduler with
  | none => (true, s)
  | some wait =>
    let (continued, world) := wait s.world delay
    (continued, { s with world })

/-- The attempts that are left, this one included. -/
def attemptLoop (env : Environment ω) (identity : ProcessIdentity) (deferrals now : ℕ) :
    (left attempt delay : ℕ) → Session ω → Except HandlerError ProcessOutcome × Session ω
  | 0, _, _, s => (.error (.unreachable "the bounded attempt loop always returns"), s)
  | left + 1, attempt, delay, s =>
    let (answer, s) := s.askBroker env identity attempt deferrals
    let result := rejectUnsafeRetry answer
    match s.settleAnswer env identity deferrals now result attempt (left == 0) with
    | (some outcome, s) => (.ok outcome, s)
    | (none, s) =>
      match s.waitForRetry env delay with
      | (false, s) => (.ok .cancelled, s.recordResult env identity .cancelled attempt result)
      | (true, s) =>
        attemptLoop env identity deferrals now left (attempt + 1)
          (min (saturatingMul delay 2) s.orchestrator.retryPolicy.maxDelay) s

def attemptInjection (env : Environment ω) (s : Session ω) (identity : ProcessIdentity)
    (deferrals now : ℕ) : Except HandlerError ProcessOutcome × Session ω :=
  attemptLoop env identity deferrals now s.orchestrator.attempts 1
    s.orchestrator.retryPolicy.initialDelay s

def validateTarget (env : Environment ω) (s : Session ω) (pid : ℕ) :
    Except StructuredServiceError ProcessTargetDecision × Session ω :=
  let (decision, world) := validate env s.orchestrator.servicePid pid s.world
  (decision, { s with world })

def setLastHandled (s : Session ω) (creationTime : Option ℕ) : Session ω :=
  { s with orchestrator := { s.orchestrator with lastHandledCreationTime := creationTime } }

def handlePidAt (env : Environment ω) (s : Session ω) (pid now : ℕ) :
    Except HandlerError ProcessOutcome × Session ω :=
  match (s.setLastHandled none).validateTarget env pid with
  | (.error error, s) => (.error (.service error), s)
  | (.ok (.eligible identity), s) =>
    let s := s.setLastHandled identity.creationTime
    if s.orchestrator.containsIdentity identity then (.ok .duplicate, s)
    else s.attemptInjection env identity 0 now
  | (.ok (.deferred identity reason), s) =>
    let s := s.setLastHandled identity.creationTime
    if s.orchestrator.containsIdentity identity then (.ok .duplicate, s)
    else (.ok .deferred, s.insertDeferred env
      ⟨identity, reason, 0, now + s.orchestrator.deferralPolicy.frozenRecheck⟩)
  | (.ok (.skipped reason), s) =>
    (.ok .skipped, { s with events := .injectionSkipped reason.code :: s.events })

def revalidateDeferred (env : Environment ω) (s : Session ω) (target : DeferredTarget)
    (now : ℕ) : Except HandlerError ProcessOutcome × Session ω :=
  match s.validateTarget env target.identity.pid with
  | (.error error, s) => (.error (.service error), s)
  | (.ok (.eligible identity), s) =>
    if identity = target.identity then s.attemptInjection env identity target.deferrals now
    else (.ok .skipped, s.recordSkip env target.identity targetVanishedResultCode none)
  | (.ok (.deferred identity reason), s) =>
    if identity = target.identity then
      (.ok .deferred, s.insertDeferred env ⟨identity, reason, target.deferrals,
        now + s.orchestrator.deferralPolicy.frozenRecheck⟩)
    else (.ok .skipped, s.recordSkip env target.identity targetVanishedResultCode none)
  | (.ok (.skipped _), s) =>
    (.ok .skipped, s.recordSkip env target.identity "process-no-longer-eligible" none)

/-- What becomes of a due target once it has left the queue. -/
def recheckDeferred (env : Environment ω) (s : Session ω) (target : DeferredTarget)
    (now : ℕ) : Except HandlerError ProcessOutcome × Session ω :=
  if target.reason = .frozen then
    let (lifecycle, world) := env.probeTargetLifecycle s.world target.identity
    let s := { s with world }
    match lifecycle with
    | .frozen | .unknown =>
      (.ok .deferred, s.insertDeferred env { target with
        notBefore := now + s.orchestrator.deferralPolicy.frozenRecheck })
    | .exiting => (.ok .skipped, s.recordSkip env target.identity "process-exiting" none)
    | .running => s.revalidateDeferred env target now
  else s.revalidateDeferred env target now

def isDue (o : InjectionOrchestrator) (now : ℕ) (key : ProcessKey) : Bool :=
  match o.deferred.lookup key with
  | some target => target.notBefore ≤ now
  | none => false

def pollDeferred (env : Environment ω) (s : Session ω) (now : ℕ) :
    Except HandlerError (Option ProcessOutcome) × Session ω :=
  let o := s.orchestrator
  match o.deferredOrder.find? (isDue o now) with
  | none => (.ok none, s)
  | some key =>
    let o := { o with deferredOrder := o.deferredOrder.erase key }
    match o.deferred.lookup key with
    | none => (.ok none, { s with orchestrator := o })
    | some target =>
      let s := { s with orchestrator := { o with deferred := o.deferred.erase key } }
      let (outcome, s) := s.recheckDeferred env target now
      (outcome.map some, s)

def handleSessionChange (s : Session ω) (change : SessionChange) : Session ω :=
  let o := s.orchestrator
  let s := { s with history := .sessionChanged change :: s.history }
  if change.isOverflow then
    { s with orchestrator :=
      { o with processed := ∅, processOrder := [], deferred := ∅, deferredOrder := [] } }
  else if change.endsSession then
    let processed := o.processed.retain fun record =>
      record.identity.sessionId != change.sessionId
    let deferred := o.deferred.retain fun target =>
      target.identity.sessionId != change.sessionId
    { s with orchestrator := { o with
        processed
        processOrder := o.processOrder.filter fun key => key ∈ processed.keys
        deferred
        deferredOrder := o.deferredOrder.filter fun key => key ∈ deferred.keys } }
  else s

end Session

/-- What the service feeds the orchestrator. -/
inductive Event where
  | newPid (pid now : ℕ)
  | pollDeferred (now : ℕ)
  | sessionChange (change : SessionChange)

def Session.handle (env : Environment ω) (s : Session ω) : Event → Session ω
  | .newPid pid now => (s.handlePidAt env pid now).2
  | .pollDeferred now => (s.pollDeferred env now).2
  | .sessionChange change => s.handleSessionChange change

def Session.run (env : Environment ω) (s : Session ω) (events : List Event) : Session ω :=
  events.foldl (Session.handle env) s

def InjectionOrchestrator.build (servicePid : ℕ) (generationId : String)
    (profileDigest : Option String) (retryPolicy : RetryPolicy) : InjectionOrchestrator where
  servicePid
  generationId
  profileDigest
  processed := ∅
  processOrder := []
  deferred := ∅
  deferredOrder := []
  deferralPolicy := .default
  retryPolicy
  lastHandledCreationTime := none
  injectionTelemetry := ⟨⟨0, none⟩, ⟨0, none⟩⟩

def Session.start (o : InjectionOrchestrator) (world : ω) : Session ω where
  orchestrator := o
  world
  events := []
  history := []

end MacTypeControl.Injection
