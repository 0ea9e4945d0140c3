import MacTypeControl.Host.Driver

/-!
# The lifecycle of the service

`run` is the whole life of the service process, and `serve` is what it does once its runtime
is initialized. The event log, which nothing reads, is left out.
-/

namespace MacTypeControl.Host

open Injection

variable {ω : Type}

inductive HostError where
  | os (error : OsError)
  | runtime (error : StructuredServiceError)
  | panicked (message : String)

/-- What the driver was initialized with. -/
structure DriverSetup where
  servicePid : ℕ
  generationId : String
  profileDigest : String
  snapshotPids : List ℕ

structure InitializedRuntime where
  activeProfileDigest : Option String
  readiness : ReadinessReport
  driver : Option DriverSetup

/-- Everything the lifecycle asks of the outside. The driver reports through `publish`. -/
structure ServiceHost (ω : Type) where
  serviceVersion : String
  surroundings : Surroundings ω
  reportStatus : ω → ServiceStatus → Except OsError Unit × ω
  publish : ω → HealthReport → Except OsError Unit × ω
  initializeRuntime : ω → Except StructuredServiceError InitializedRuntime × ω

/-- The service at work: its world, and the statuses it reported with the worlds it did so in,
newest first. -/
structure ServiceRun (ω : Type) where
  world : ω
  statuses : List (ServiceStatus × ω)

def activeProfileAbsentCode : String := "active-profile-absent"

def runtimeProfileAbsentCode : String := "runtime-profile-absent"

def isSupportedStoppedState (error : StructuredServiceError) : Bool :=
  error.code == activeProfileAbsentCode || error.code == runtimeProfileAbsentCode

def errorServiceSpecificError : ℕ := 1066

namespace ServiceHost

variable (host : ServiceHost ω)

def healthReport (health : HealthState) (activeProfileDigest : Option String)
    (readiness : ReadinessReport) (lastError : Option StructuredServiceError) : HealthReport where
  protocolVersion := healthProtocolVersion
  serviceVersion := host.serviceVersion
  health
  activeProfileDigest
  readiness
  injection := InjectionTelemetry.default
  lastError

/-- `RuntimeHealthAdapter`: what the driver reports, checked and published. -/
def runtimeHealth (activeProfileDigest : Option String) (world : ω) (health : HealthState)
    (readiness : ReadinessReport) (injection : InjectionTelemetry)
    (lastError : Option StructuredServiceError) : Except StructuredServiceError Unit × ω :=
  let report := { host.healthReport health activeProfileDigest readiness lastError with injection }
  if !report.validate then
    (.error ⟨"runtime-health-invalid",
      "the runtime attempted to publish an invalid health report", none⟩, world)
  else
    let (published, world) := host.publish world report
    (published.mapError fun error => ⟨"health-publish-failed", error.message, error.rawOsError⟩,
      world)

def driverSurroundings (activeProfileDigest : Option String) : Surroundings ω :=
  { host.surroundings with report := host.runtimeHealth activeProfileDigest }

def report (run : ServiceRun ω) (status : ServiceStatus) : Except OsError Unit × ServiceRun ω :=
  let (answer, world) := host.reportStatus run.world status
  (answer, ⟨world, (status, run.world) :: run.statuses⟩)

def publishHealth (run : ServiceRun ω) (health : HealthReport) :
    Except OsError Unit × ServiceRun ω :=
  let (answer, world) := host.publish run.world health
  (answer, { run with world })

def reportFailure (run : ServiceRun ω) (error : StructuredServiceError) : ServiceRun ω :=
  let (_, run) := host.publishHealth run
    (host.healthReport .failed none .initializing (some error))
  (host.report run (.stoppedWithError errorServiceSpecificError 1)).2

def reportIoFailure (run : ServiceRun ω) (code : String) (error : OsError) :
    Except HostError Unit × ServiceRun ω :=
  (.error (.os error), host.reportFailure run ⟨code, error.message, error.rawOsError⟩)

/-- The last report of a service that stops without a failure. -/
def reportStopped (run : ServiceRun ω) : Except HostError Unit × ServiceRun ω :=
  match host.report run .stopped with
  | (.error error, run) => host.reportIoFailure run "stopped-status-report-failed" error
  | (.ok (), run) => (.ok (), run)

def reportSupportedStop (run : ServiceRun ω) (error : StructuredServiceError) :
    Except HostError Unit × ServiceRun ω :=
  let (_, run) := host.publishHealth run
    (host.healthReport .unknown none .notRequired (some error))
  host.reportStopped run

/-- Runs the driver for so many turns, or waits where there is none. -/
def drive (turns : ℕ) (initialized : InitializedRuntime) (world : ω) :
    Option (Except HandlerError Unit) × ω :=
  match initialized.driver with
  | some setup =>
    let d := OrchestrationDriver.start setup.servicePid setup.generationId setup.profileDigest
      setup.snapshotPids world
    let (ended, d) := OrchestrationDriver.run
      (host.driverSurroundings initialized.activeProfileDigest) turns d
    (ended, d.session.world.world)
  | none =>
    let (waited, world) := host.surroundings.stop.wait world
    (some (waited.mapError .service), world)

def conclude (run : ServiceRun ω) (terminalError : Option StructuredServiceError) :
    Except HostError Unit × ServiceRun ω :=
  let (_, run) := host.publishHealth run
    (host.healthReport .unknown none .notRequired terminalError)
  host.reportStopped run

/-- From the start of the driver to the end of the service. `none` is a driver that goes on. -/
def serve (turns : ℕ) (initialized : InitializedRuntime) (run : ServiceRun ω) :
    Option (Except HostError Unit) × ServiceRun ω :=
  let (ended, world) := host.drive turns initialized run.world
  let run := { run with world }
  match ended with
  | none => (none, run)
  | some (.ok ()) =>
    let (result, run) := host.conclude run none
    (some result, run)
  | some (.error (.service error)) =>
    let (requested, world) := host.surroundings.stop.stopRequested run.world
    let run := { run with world }
    if requested then
      let (result, run) := host.conclude run (some error)
      (some result, run)
    else (some (.error (.runtime error)), host.reportFailure run error)
  | some (.error (.unreachable message)) => (some (.error (.panicked message)), run)

/-- The life of the service process. -/
def run (turns : ℕ) (world : ω) : Option (Except HostError Unit) × ServiceRun ω :=
  let finish := fun (ended : Except HostError Unit × ServiceRun ω) => (some ended.1, ended.2)
  match host.report ⟨world, []⟩ (.startPending 1 10000) with
  | (.error error, run) => finish (host.reportIoFailure run "start-pending-report-failed" error)
  | (.ok (), run) =>
  match host.publishHealth run (host.healthReport .initializing none .initializing none) with
  | (.error error, run) =>
    finish (host.reportIoFailure run "initializing-health-publish-failed" error)
  | (.ok (), run) =>
  match host.initializeRuntime run.world with
  | (.error error, world) =>
    let run := { run with world }
    if isSupportedStoppedState error then finish (host.reportSupportedStop run error)
    else finish (.error (.runtime error), host.reportFailure run error)
  | (.ok initialized, world) =>
  match host.report { run with world } .running with
  | (.error error, run) => finish (host.reportIoFailure run "running-status-report-failed" error)
  | (.ok (), run) =>
  let ready := host.healthReport .ready initialized.activeProfileDigest initialized.readiness none
  if !ready.validate then
    let error : StructuredServiceError :=
      ⟨"readiness-incomplete", "required runtime components are not ready", none⟩
    finish (.error (.runtime error), host.reportFailure run error)
  else
  match host.publishHealth run ready with
  | (.error publishError, run) =>
    let error : StructuredServiceError :=
      ⟨"health-publish-failed", publishError.message, publishError.rawOsError⟩
    finish (.error (.runtime error), host.reportFailure run error)
  | (.ok (), run) => host.serve turns initialized run

end ServiceHost

/-! ## The start of the service -/

namespace ServiceHost

variable (host : ServiceHost ω)

/-- What the initializer answers, and where it has led, if the start gets to ask it. -/
def initialization (world : ω) :
    Option (Except StructuredServiceError InitializedRuntime × ServiceRun ω) :=
  match host.report ⟨world, []⟩ (.startPending 1 10000) with
  | (.error _, _) => none
  | (.ok (), run) =>
  match host.publishHealth run (host.healthReport .initializing none .initializing none) with
  | (.error _, _) => none
  | (.ok (), run) =>
  match host.initializeRuntime run.world with
  | (.error error, world) => some (.error error, { run with world })
  | (.ok initialized, world) => some (.ok initialized, { run with world })

/-- The lifecycle up to the report that the service is ready: how it ended, or what it serves. -/
def startUp (world : ω) :
    Except (Except HostError Unit × ServiceRun ω) (InitializedRuntime × ServiceRun ω) :=
  match host.report ⟨world, []⟩ (.startPending 1 10000) with
  | (.error error, run) => .error (host.reportIoFailure run "start-pending-report-failed" error)
  | (.ok (), run) =>
  match host.publishHealth run (host.healthReport .initializing none .initializing none) with
  | (.error error, run) =>
    .error (host.reportIoFailure run "initializing-health-publish-failed" error)
  | (.ok (), run) =>
  match host.initializeRuntime run.world with
  | (.error error, world) =>
    let run := { run with world }
    if isSupportedStoppedState error then .error (host.reportSupportedStop run error)
    else .error (.error (.runtime error), host.reportFailure run error)
  | (.ok initialized, world) =>
  match host.report { run with world } .running with
  | (.error error, run) => .error (host.reportIoFailure run "running-status-report-failed" error)
  | (.ok (), run) =>
  let ready := host.healthReport .ready initialized.activeProfileDigest initialized.readiness none
  if !ready.validate then
    let error : StructuredServiceError :=
      ⟨"readiness-incomplete", "required runtime components are not ready", none⟩
    .error (.error (.runtime error), host.reportFailure run error)
  else
  match host.publishHealth run ready with
  | (.error publishError, run) =>
    let error : StructuredServiceError :=
      ⟨"health-publish-failed", publishError.message, publishError.rawOsError⟩
    .error (.error (.runtime error), host.reportFailure run error)
  | (.ok (), run) => .ok (initialized, run)

/-- The service where its start has ended or has led. -/
def started {α β : Type} : Except (α × ServiceRun ω) (β × ServiceRun ω) → ServiceRun ω
  | .error ended => ended.2
  | .ok served => served.2

theorem run_eq (turns : ℕ) (world : ω) :
    host.run turns world = match host.startUp world with
      | .error ended => (some ended.1, ended.2)
      | .ok (initialized, run) => host.serve turns initialized run := by
  unfold run startUp
  dsimp only
  rcases host.report ⟨world, []⟩ (.startPending 1 10000) with ⟨_ | _, r₁⟩
  · rfl
  dsimp only
  rcases host.publishHealth r₁ (host.healthReport .initializing none .initializing none) with
    ⟨_ | _, r₂⟩
  · rfl
  dsimp only
  rcases host.initializeRuntime r₂.world with ⟨error | initialized, world₂⟩
  · dsimp only
    cases isSupportedStoppedState error <;> rfl
  dsimp only
  rcases host.report ⟨world₂, r₂.statuses⟩ .running with ⟨_ | _, r₃⟩
  · rfl
  dsimp only
  generalize host.healthReport .ready initialized.activeProfileDigest initialized.readiness none =
    ready
  cases ready.validate with
  | false => rfl
  | true =>
    rcases host.publishHealth r₃ ready with ⟨_ | _, r₄⟩ <;> rfl

end ServiceHost

/-! ## Terminal reports -/

/-- The reports that the service stopped, with the worlds they were made in, newest first. -/
def ServiceRun.terminalReports (r : ServiceRun ω) : List (ServiceStatus × ω) :=
  r.statuses.filter fun reported => reported.1.state = .stopped

namespace ServiceHost

variable {host : ServiceHost ω} {r : ServiceRun ω}

theorem terminalReports_report (status : ServiceStatus) :
    (host.report r status).2.terminalReports =
      if status.state = .stopped then (status, r.world) :: r.terminalReports
      else r.terminalReports := by
  unfold ServiceRun.terminalReports report
  dsimp only
  rw [List.filter_cons]
  simp

theorem terminalReports_publishHealth (report : HealthReport) :
    (host.publishHealth r report).2.terminalReports = r.terminalReports := rfl

/-- Nothing has stopped where the service begins to serve. -/
theorem terminalReports_startUp {world : ω} {initialized : InitializedRuntime}
    (h : host.startUp world = .ok (initialized, r)) : r.terminalReports = [] := by
  unfold startUp at h
  have hpending := @terminalReports_report _ host ⟨world, []⟩ (.startPending 1 10000)
  revert h hpending
  rcases host.report ⟨world, []⟩ (.startPending 1 10000) with ⟨_ | _, r₁⟩ <;> intro h hpending
  · cases h
  have hinitializing := @terminalReports_publishHealth _ host r₁
    (host.healthReport .initializing none .initializing none)
  dsimp only at h
  revert h hinitializing
  rcases host.publishHealth r₁ (host.healthReport .initializing none .initializing none) with
    ⟨_ | _, r₂⟩ <;> intro h hinitializing
  · cases h
  dsimp only at h
  revert h
  rcases host.initializeRuntime r₂.world with ⟨error | initialized, world₂⟩ <;> intro h
  · dsimp only at h
    split at h <;> cases h
  have hrunning := @terminalReports_report _ host { r₂ with world := world₂ } .running
  dsimp only at h
  revert h hrunning
  rcases host.report { r₂ with world := world₂ } .running with ⟨_ | _, r₃⟩ <;> intro h hrunning
  · cases h
  dsimp only at h
  split at h
  · cases h
  have hready := @terminalReports_publishHealth _ host r₃
    (host.healthReport .ready initialized.activeProfileDigest initialized.readiness none)
  revert h hready
  rcases host.publishHealth r₃
    (host.healthReport .ready initialized.activeProfileDigest initialized.readiness none) with
    ⟨_ | _, r₄⟩ <;> intro h hready
  · cases h
  cases h
  calc r.terminalReports = r₃.terminalReports := hready
    _ = r₂.terminalReports := hrunning
    _ = r₁.terminalReports := hinitializing
    _ = [] := hpending

end ServiceHost

end MacTypeControl.Host
