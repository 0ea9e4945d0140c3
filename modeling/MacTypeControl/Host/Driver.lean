import MacTypeControl.Host.Health
import MacTypeControl.Injection.Orchestrator

/-!
# The orchestration driver

The driver polls the deferred targets and the observer in one loop, until it is asked to stop
or fails. `step` is one turn of the loop, and `run` takes so many turns.
-/

namespace MacTypeControl.Host

open Injection

variable {ω : Type}

structure ObserverRecoveryPolicy where
  initialDelay : ℕ
  maxDelay : ℕ
  maxAttempts : ℕ

def ObserverRecoveryPolicy.default : ObserverRecoveryPolicy where
  initialDelay := seconds 1
  maxDelay := seconds 30
  maxAttempts := 12

/-- The stop signal. `takeSessionChanges` takes out all the changes that are waiting. -/
structure StopSignal (ω : Type) where
  wait : ω → Except StructuredServiceError Unit × ω
  waitTimeout : ω → ℕ → Except StructuredServiceError Bool × ω
  stopRequested : ω → Bool × ω
  takeSessionChanges : ω → List SessionChange × ω

structure ProcessEventSource (ω : Type) where
  subscribe : ω → Except StructuredServiceError Unit × ω
  snapshotPids : ω → Except StructuredServiceError (List ℕ) × ω
  nextPid : ω → ℕ → Except StructuredServiceError (Option ℕ) × ω

structure ProcessInspector (ω : Type) where
  inspect : ω → ℕ → Except StructuredServiceError InspectedProcess × ω
  probeTargetLifecycle : ω → ProcessIdentity → TargetLifecycle × ω
  probeTargetLiveness : ω → ProcessIdentity → TargetLiveness × ω
  processBasename : ω → ProcessIdentity → Option String × ω
  imageNameForOrdering : ω → ℕ → Option String × ω

/-- Everything the driver asks of the outside. The clocks are read off the world. -/
structure Surroundings (ω : Type) where
  recovery : ObserverRecoveryPolicy
  stop : StopSignal ω
  source : ProcessEventSource ω
  inspector : ProcessInspector ω
  inject : ω → InjectionRequest → BrokerResult × ω
  report : ω → HealthState → ReadinessReport → InjectionTelemetry →
    Option StructuredServiceError → Except StructuredServiceError Unit × ω
  now : ω → ℕ
  currentFiletime : ω → Option ℕ

/-- What a run of the driver is judged by. -/
inductive Signal where
  | waited (answer : Except StructuredServiceError Bool)
  | reported (state : HealthState) (error : Option StructuredServiceError)
  | untrusted (error : StructuredServiceError)
  | injected
  | resubscribed

/-- The world with the history of the run in it, newest first. -/
structure Attended (ω : Type) where
  world : ω
  history : List Signal

def attend {α : Type} (a : Attended ω) (question : ω → α × ω) : α × Attended ω :=
  ((question a.world).1, { a with world := (question a.world).2 })

/-- `StopRetryScheduler::wait`: the wait continues where it ran out, and only there. -/
def stopRetryWait (host : Surroundings ω) (a : Attended ω) (delay : ℕ) : Bool × Attended ω :=
  let (answer, world) := host.stop.waitTimeout a.world delay
  let continued := match answer with
    | .ok false => true
    | _ => false
  (continued, ⟨world, .waited answer :: a.history⟩)

/-- What the orchestrator of the driver asks. -/
def Surroundings.environment (host : Surroundings ω) : Environment (Attended ω) where
  inspect a pid := attend a (host.inspector.inspect · pid)
  probeTargetLifecycle a identity := attend a (host.inspector.probeTargetLifecycle · identity)
  probeTargetLiveness a identity := attend a (host.inspector.probeTargetLiveness · identity)
  processBasename a identity := attend a (host.inspector.processBasename · identity)
  inject a request := attend a (host.inject · request)
  retryScheduler := some (stopRetryWait host)

structure OrchestrationDriver (ω : Type) where
  session : Session (Attended ω)
  snapshotPids : List ℕ
  consecutiveHealthReportFailures : ℕ

inductive ObserverRecovery where
  | resubscribed
  | stopped
  deriving DecidableEq

def maxToleratedConsecutiveHealthReportFailures : ℕ := 20

def isRelayRoot (imageName : String) : Bool := imageName == "explorer.exe"

def generationHealthCode (code : String) : Option String :=
  if "-cleanup-unknown".toList.isSuffixOf code.toList then some "injection-cleanup-unknown"
  else if code ∈ ["helper-response-invalid", "helper-response-too-large", "helper-exit-mismatch",
      "runtime-generation-mismatch"] then some "injection-helper-response-integrity-unknown"
  else none

def mostRecentResult (o : InjectionOrchestrator) : Option ProcessAttemptRecord :=
  o.processOrder.getLast?.bind o.processed.lookup

/-- What the newest result says about the generation as a whole. -/
def generationHealthError (o : InjectionOrchestrator) : Option StructuredServiceError := do
  let record ← mostRecentResult o
  let code ← generationHealthCode record.code
  some ⟨code, "target result is not trustworthy: pid=" ++ toString record.identity.pid ++
    " creation_time=" ++ toString record.identity.creationTime ++
    " session_id=" ++ toString record.identity.sessionId ++
    " generation=" ++ record.runtimeGenerationId ++ " broker_code=" ++ record.code,
    record.win32Error⟩

def filetimeAgeMillis (now creationTime : ℕ) : Option ℕ :=
  if creationTime ≤ now then some ((now - creationTime) / 10000) else none

namespace OrchestrationDriver

def attended (d : OrchestrationDriver ω) : Attended ω := d.session.world

def ask {α : Type} (d : OrchestrationDriver ω) (question : ω → α × ω) :
    α × OrchestrationDriver ω :=
  let (answer, world) := attend d.session.world question
  (answer, { d with session := { d.session with world } })

def signal (d : OrchestrationDriver ω) (signal : Signal) : OrchestrationDriver ω :=
  { d with session := { d.session with
      world := { d.session.world with history := signal :: d.session.world.history } } }

def record (d : OrchestrationDriver ω) (event : HostEvent) : OrchestrationDriver ω :=
  { d with session := { d.session with events := event :: d.session.events } }

def reportRuntimeHealth (host : Surroundings ω) (d : OrchestrationDriver ω) (state : HealthState)
    (readiness : ReadinessReport) (lastError : Option StructuredServiceError) :
    Except StructuredServiceError Unit × OrchestrationDriver ω :=
  let injection := d.session.orchestrator.injectionTelemetry
  match (d.signal (.reported state lastError)).ask
      (host.report · state readiness injection lastError) with
  | (.ok (), d) => (.ok (), { d with consecutiveHealthReportFailures := 0 })
  | (.error error, d) =>
    let failures := d.consecutiveHealthReportFailures + 1
    let d := { d with consecutiveHealthReportFailures := failures }
    if maxToleratedConsecutiveHealthReportFailures < failures then (.error error, d)
    else (.ok (), d)

/-- Puts a process that started while the subscription was down into the backlog. -/
def addToBacklog (host : Surroundings ω) (d : OrchestrationDriver ω) (pid : ℕ) :
    OrchestrationDriver ω :=
  if pid ∈ d.snapshotPids then d
  else
    let (name, d) := d.ask (host.inspector.imageNameForOrdering · pid)
    if name.any isRelayRoot then { d with snapshotPids := pid :: d.snapshotPids }
    else { d with snapshotPids := d.snapshotPids ++ [pid] }

def resubscribe (host : Surroundings ω) (d : OrchestrationDriver ω) :
    Except StructuredServiceError Unit × OrchestrationDriver ω :=
  match d.ask host.source.subscribe with
  | (.error error, d) => (.error error, d)
  | (.ok (), d) =>
    match d.ask host.source.snapshotPids with
    | (.error error, d) => (.error error, d)
    | (.ok pids, d) => (.ok (), pids.foldl (addToBacklog host) d)

def observerFailed : ReadinessReport := { ReadinessReport.ready with observer := .failed }

/-- The attempts of a recovery that are left. -/
def recoveryLoop (host : Surroundings ω) :
    (left delay : ℕ) → StructuredServiceError → OrchestrationDriver ω →
      Except StructuredServiceError ObserverRecovery × OrchestrationDriver ω
  | 0, _, latestError, d =>
    match d.reportRuntimeHealth host .failed observerFailed (some latestError) with
    | (.error error, d) => (.error error, d)
    | (.ok (), d) => (.error latestError, d)
  | left + 1, delay, _, d =>
    let (continued, world) := stopRetryWait host d.session.world delay
    let d := { d with session := { d.session with world } }
    if !continued then (.ok .stopped, d)
    else
      match d.ask host.stop.stopRequested with
      | (true, d) => (.ok .stopped, d)
      | (false, d) =>
        match d.resubscribe host with
        | (.ok (), d) =>
          match (d.signal .resubscribed).reportRuntimeHealth host .ready .ready none with
          | (.error error, d) => (.error error, d)
          | (.ok (), d) => (.ok .resubscribed, d)
        | (.error error, d) =>
          recoveryLoop host left (min (saturatingMul delay 2) host.recovery.maxDelay) error d

def recoverObserver (host : Surroundings ω) (d : OrchestrationDriver ω)
    (error : StructuredServiceError) :
    Except StructuredServiceError ObserverRecovery × OrchestrationDriver ω :=
  match d.reportRuntimeHealth host .degraded observerFailed (some error) with
  | (.error error, d) => (.error error, d)
  | (.ok (), d) =>
    recoveryLoop host host.recovery.maxAttempts host.recovery.initialDelay error d

/-- How a turn of the loop ends: `none` goes on with the next one. -/
abbrev Turn (ω : Type) := Option (Except HandlerError Unit) × OrchestrationDriver ω

def reportAndContinue (host : Surroundings ω) (d : OrchestrationDriver ω) (state : HealthState)
    (lastError : Option StructuredServiceError) : Turn ω :=
  match d.reportRuntimeHealth host state .ready lastError with
  | (.error error, d) => (some (.error (.service error)), d)
  | (.ok (), d) => (none, d)

/-- What the outcome of a handler does to the loop. -/
def settle (host : Surroundings ω) (d : OrchestrationDriver ω) :
    Except HandlerError ProcessOutcome → Turn ω
  | .ok .injected => (d.signal .injected).reportAndContinue host .ready none
  | .ok .rejected | .ok .retryExhausted =>
    match generationHealthError d.session.orchestrator with
    | some error => (d.signal (.untrusted error)).reportAndContinue host .degraded (some error)
    | none => (none, d)
  | .ok .cancelled => (some (.ok ()), d)
  | .ok _ => (none, d)
  | .error (.service error) => d.reportAndContinue host .degraded (some error)
  | .error (.unreachable message) => (some (.error (.unreachable message)), d)

/-- Handles a process that the source announced, or one from the backlog. -/
def handlePid (host : Surroundings ω) (d : OrchestrationDriver ω) (pid : ℕ) (announced : Bool) :
    Turn ω :=
  let started := host.now d.attended.world
  let handlingBegan := if announced then host.currentFiletime d.attended.world else none
  let (outcome, session) := d.session.handlePidAt host.environment pid started
  let d := { d with session }
  let ageMillis := do
    let now ← handlingBegan
    let created ← session.orchestrator.lastHandledCreationTime
    filetimeAgeMillis now created
  let millis := min ((host.now d.attended.world - started) / 1000000) (2 ^ 64 - 1)
  (d.record (.injectionPipelineSample millis d.snapshotPids.length ageMillis)).settle host outcome

/-- Looks for a process to handle, the deferred ones apart. -/
def handleNext (host : Surroundings ω) (d : OrchestrationDriver ω) : Turn ω :=
  let eventWait := if d.snapshotPids.isEmpty then milliseconds 250 else 0
  match d.ask (host.source.nextPid · eventWait) with
  | (.ok (some pid), d) => d.handlePid host pid true
  | (.ok none, d) =>
    match d.snapshotPids with
    | [] => (none, d)
    | pid :: snapshotPids => { d with snapshotPids }.handlePid host pid false
  | (.error error, d) =>
    match d.recoverObserver host error with
    | (.ok .resubscribed, d) => (none, d)
    | (.ok .stopped, d) => (some (.ok ()), d)
    | (.error error, d) => (some (.error (.service error)), d)

def handleSessionChanges (host : Surroundings ω) (d : OrchestrationDriver ω) :
    OrchestrationDriver ω :=
  let (changes, d) := d.ask host.stop.takeSessionChanges
  { d with session := changes.foldl Session.handleSessionChange d.session }

def pollDeferred (host : Surroundings ω) (d : OrchestrationDriver ω) : Turn ω :=
  match d.session.pollDeferred host.environment (host.now d.attended.world) with
  | (.ok (some outcome), session) =>
    if outcome = .deferred then { d with session }.handleNext host
    else { d with session }.settle host (.ok outcome)
  | (.ok none, session) => { d with session }.handleNext host
  | (.error error, session) => { d with session }.settle host (.error error)

/-- One turn of the loop. -/
def step (host : Surroundings ω) (d : OrchestrationDriver ω) : Turn ω :=
  match d.ask (host.stop.waitTimeout · 0) with
  | (.error error, d) => (some (.error (.service error)), d)
  | (.ok true, d) => (some (.ok ()), d)
  | (.ok false, d) =>
    ((d.handleSessionChanges host).record .flushInjectionSummary).pollDeferred host

/-- So many turns of the loop, or fewer where it ends before. -/
def run (host : Surroundings ω) : ℕ → OrchestrationDriver ω → Turn ω
  | 0, d => (none, d)
  | turns + 1, d =>
    match d.step host with
    | (none, d) => run host turns d
    | ended => ended

/-- The driver as its loop begins. -/
def start (servicePid : ℕ) (generationId profileDigest : String) (snapshotPids : List ℕ)
    (world : ω) : OrchestrationDriver ω where
  session := .start (.build servicePid generationId (some profileDigest) .default) ⟨world, []⟩
  snapshotPids
  consecutiveHealthReportFailures := 0

end OrchestrationDriver

end MacTypeControl.Host
