import MacTypeControl.Host.Lifecycle
import MacTypeControl.Host.StopOnRequest
import MacTypeControl.Injection.Capacity

/-!
# A clean stop of the service

The service reports that it stopped without an error exactly where its driver ended without
one, or with one after a stop was asked for.
-/

namespace MacTypeControl.Injection

variable {ω : Type} {env : Environment ω} {s : Session ω}

/-! ## The attempt loop always returns -/

theorem attemptLoop_ok (identity : ProcessIdentity) (deferrals now : ℕ) {left : ℕ}
    (hleft : 0 < left) (attempt delay : ℕ) (s : Session ω) :
    ∃ outcome, (Session.attemptLoop env identity deferrals now left attempt delay s).1 =
      .ok outcome := by
  induction left generalizing attempt delay s with
  | zero => exact absurd hleft (lt_irrefl 0)
  | succ left ih =>
    unfold Session.attemptLoop
    rcases s.askBroker env identity attempt deferrals with ⟨answer, s₁⟩
    dsimp only
    have hsettle := concluded_settleAnswer (s := s₁) env identity deferrals now
      (rejectUnsafeRetry answer) attempt (left == 0)
    revert hsettle
    rcases s₁.settleAnswer env identity deferrals now (rejectUnsafeRetry answer) attempt
      (left == 0) with ⟨_ | outcome, s₂⟩
    · rintro (⟨⟨outcome, houtcome⟩, -⟩ | ⟨-, hmore⟩)
      · cases houtcome
      · have hpos : 0 < left := by
          have hne : left ≠ 0 := by simpa using hmore
          omega
        dsimp only
        rcases s₂.waitForRetry env delay with ⟨_ | _, s₃⟩
        · exact ⟨.cancelled, rfl⟩
        · exact ih hpos _ _ s₃
    · intro _
      exact ⟨outcome, rfl⟩

theorem attemptInjection_ok (identity : ProcessIdentity) (deferrals now : ℕ) :
    ∃ outcome, (s.attemptInjection env identity deferrals now).1 = .ok outcome := by
  have hpos : 0 < s.orchestrator.attempts := by
    unfold InjectionOrchestrator.attempts
    omega
  exact attemptLoop_ok identity deferrals now hpos _ _ s

theorem handlePidAt_reachable (pid now : ℕ) (message : String) :
    (s.handlePidAt env pid now).1 ≠ .error (.unreachable message) := by
  unfold Session.handlePidAt
  rcases (s.setLastHandled none).validateTarget env pid with
    ⟨error | ⟨identity⟩ | ⟨reason⟩ | ⟨identity, reason⟩, s₁⟩ <;> dsimp only
  · simp
  · split
    · simp
    · obtain ⟨outcome, houtcome⟩ := @attemptInjection_ok _ env
        (s₁.setLastHandled identity.creationTime) identity 0 now
      rw [houtcome]
      simp
  · simp
  · split <;> simp

theorem revalidateDeferred_reachable (target : DeferredTarget) (now : ℕ) (message : String) :
    (s.revalidateDeferred env target now).1 ≠ .error (.unreachable message) := by
  unfold Session.revalidateDeferred
  rcases s.validateTarget env target.identity.pid with
    ⟨error | ⟨identity⟩ | ⟨reason⟩ | ⟨identity, reason⟩, s₁⟩ <;> dsimp only
  · simp
  · split
    · obtain ⟨outcome, houtcome⟩ := @attemptInjection_ok _ env s₁ identity
        target.deferrals now
      rw [houtcome]
      simp
    · simp
  · simp
  · split <;> simp

theorem pollDeferred_reachable (now : ℕ) (message : String) :
    (s.pollDeferred env now).1 ≠ .error (.unreachable message) := by
  unfold Session.pollDeferred
  dsimp only
  cases s.orchestrator.deferredOrder.find? (Session.isDue s.orchestrator now) with
  | none => simp
  | some key =>
    dsimp only
    cases s.orchestrator.deferred.lookup key with
    | none => simp
    | some target =>
      have hmap : ∀ {outcome : Except HandlerError ProcessOutcome},
          outcome ≠ .error (.unreachable message) →
          outcome.map some ≠ .error (.unreachable message) := by
        rintro (error | outcome) h
        · exact fun h' => h (congrArg Except.error (Except.error.inj h'))
        · simp [Except.map]
      apply hmap
      unfold Session.recheckDeferred
      split
      · dsimp only
        split
        · simp
        · simp
        · simp
        · exact revalidateDeferred_reachable target now message
      · exact revalidateDeferred_reachable target now message

end MacTypeControl.Injection

namespace MacTypeControl.Host

open Injection

variable {ω : Type}

namespace OrchestrationDriver

variable {host : Surroundings ω} {d : OrchestrationDriver ω}

theorem settle_reachable {outcome : Except HandlerError ProcessOutcome} {message : String}
    (h : outcome ≠ .error (.unreachable message)) :
    (d.settle host outcome).1 ≠ some (.error (.unreachable message)) := by
  have hreport : ∀ {d : OrchestrationDriver ω} {state lastError},
      (d.reportAndContinue host state lastError).1 ≠ some (.error (.unreachable message)) := by
    intro d state lastError
    unfold reportAndContinue
    rcases d.reportRuntimeHealth host state .ready lastError with ⟨_ | _, d₁⟩ <;> simp
  unfold settle
  rcases outcome with (error | other) | outcome
  · exact hreport
  · exact fun h' => h (congrArg Except.error (Except.error.inj (Option.some.inj h')))
  · cases outcome with
    | injected => exact hreport
    | rejected | retryExhausted =>
      dsimp only
      split
      · exact hreport
      · simp
    | skipped | deferred | duplicate | cancelled => simp

theorem handleNext_reachable (message : String) :
    (d.handleNext host).1 ≠ some (.error (.unreachable message)) := by
  have hpid : ∀ {d : OrchestrationDriver ω} {pid announced},
      (d.handlePid host pid announced).1 ≠ some (.error (.unreachable message)) :=
    settle_reachable (handlePidAt_reachable _ _ message)
  unfold handleNext
  dsimp only
  generalize (if d.snapshotPids.isEmpty then milliseconds 250 else 0) = eventWait
  rcases d.ask (host.source.nextPid · eventWait) with ⟨error | _ | pid, d₁⟩ <;> dsimp only
  · rcases d₁.recoverObserver host error with ⟨_ | _ | _, d₂⟩ <;> simp
  · split
    · simp
    · exact hpid
  · exact hpid

theorem step_reachable (message : String) :
    (d.step host).1 ≠ some (.error (.unreachable message)) := by
  unfold step
  rcases d.ask (host.stop.waitTimeout · 0) with ⟨error | _ | _, d₁⟩
  · simp
  · dsimp only
    generalize (d₁.handleSessionChanges host).record .flushInjectionSummary = d₂
    have hpolled := @pollDeferred_reachable _ host.environment d₂.session
      (host.now d₂.attended.world) message
    unfold pollDeferred
    revert hpolled
    rcases d₂.session.pollDeferred host.environment (host.now d₂.attended.world) with
      ⟨error | _ | outcome, session⟩ <;> intro hpolled <;> dsimp only
    · exact settle_reachable fun h => hpolled (congrArg Except.error (Except.error.inj h))
    · exact handleNext_reachable message
    · split
      · exact handleNext_reachable message
      · exact settle_reachable (by simp)
  · simp

theorem run_reachable (turns : ℕ) (message : String) :
    (run host turns d).1 ≠ some (.error (.unreachable message)) := by
  induction turns generalizing d with
  | zero => simp [run]
  | succ turns ih =>
    have hstep := @step_reachable _ host d message
    unfold run
    revert hstep
    rcases d.step host with ⟨_ | _, d₁⟩ <;> intro hstep
    · exact ih
    · exact hstep

end OrchestrationDriver

/-! ## The lifecycle -/

/-- When a stop was asked for, as far as the lifecycle sees it. -/
structure ServiceContract (host : ServiceHost ω) extends StopContract host.surroundings where
  publish : ∀ w report, received w → received (host.publish w report).2

/-- The contract for the driver, which reports through the publisher of the service. -/
def ServiceContract.forDriver {host : ServiceHost ω} (contract : ServiceContract host)
    (activeProfileDigest : Option String) :
    StopContract (host.driverSurroundings activeProfileDigest) where
  received := contract.received
  wait := contract.wait
  waitTimeout := contract.waitTimeout
  stopRequested := contract.stopRequested
  broker := contract.broker

/-- The driver as the lifecycle starts it. -/
def DriverSetup.start (setup : DriverSetup) (world : ω) : OrchestrationDriver ω :=
  .start setup.servicePid setup.generationId setup.profileDigest setup.snapshotPids world

/-- What comes of serving: the driver, or the wait in its place, ends without an error, and a stop
without one is reported, only where a stop was asked for before; another end is reported as a
failure. -/
structure ServesOnRequest (host : ServiceHost ω) (contract : ServiceContract host) (turns : ℕ)
    (initialized : InitializedRuntime) (run : ServiceRun ω) : Prop where
  driver : ∀ world, host.drive turns initialized run.world = (some (.ok ()), world) →
    contract.received world
  lifecycle : ∀ world, (ServiceStatus.stopped, world) ∈ (host.serve turns initialized run).2.statuses →
    (ServiceStatus.stopped, world) ∈ run.statuses ∨ contract.received world
  failure : ∀ error world, host.drive turns initialized run.world = (some (.error error), world) →
    (host.surroundings.stop.stopRequested world).1 = false →
    ∃ structured, (host.serve turns initialized run).1 = some (.error (.runtime structured)) ∧
      (host.serve turns initialized run).2.statuses.head?.map Prod.fst =
        some (.stoppedWithError errorServiceSpecificError 1)

/-- A clean stop only on request, in the whole life of the service: the driver ends without an
error, and the lifecycle reports a stop without one, only where a stop was asked for before; every
other end of the driver is reported as a failure. -/
structure StopsOnRequest (host : ServiceHost ω) (contract : ServiceContract host) (turns : ℕ)
    (world : ω) : Prop where
  driver : ∀ initialized run ended, host.startUp world = .ok (initialized, run) →
    host.drive turns initialized run.world = (some (.ok ()), ended) → contract.received ended
  lifecycle : ∀ reported, (ServiceStatus.stopped, reported) ∈ (host.run turns world).2.statuses →
    contract.received reported
  failure : ∀ initialized run error ended, host.startUp world = .ok (initialized, run) →
    host.drive turns initialized run.world = (some (.error error), ended) →
    (host.surroundings.stop.stopRequested ended).1 = false →
    ∃ structured, (host.run turns world).1 = some (.error (.runtime structured)) ∧
      (host.run turns world).2.statuses.head?.map Prod.fst =
        some (.stoppedWithError errorServiceSpecificError 1)

/-- The initializer finds a profile to serve, and no wait of the retry scheduler fails; or a stop
was asked for by then anyway. -/
structure NothingTakenForStop (host : ServiceHost ω) (contract : ServiceContract host) (turns : ℕ)
    (world : ω) : Prop where
  started : ∀ error run, host.initialization world = some (.error error, run) →
    isSupportedStoppedState error = true →
    contract.received (host.publish run.world
      (host.healthReport .unknown none .notRequired (some error))).2
  waited : ∀ digest readiness setup run,
    host.startUp world = .ok (⟨digest, readiness, some setup⟩, run) →
    let d := (OrchestrationDriver.run (host.driverSurroundings digest) turns
      (setup.start run.world)).2
    NoFailedWait d.history ∨ contract.received d.session.world.world

section

variable {host : ServiceHost ω} {run : ServiceRun ω}

theorem statuses_reportFailure (error : StructuredServiceError) :
    ∃ world, (host.reportFailure run error).statuses =
      (.stoppedWithError errorServiceSpecificError 1, world) :: run.statuses :=
  ⟨_, rfl⟩

theorem mem_reportFailure {world : ω} {error : StructuredServiceError}
    (h : (ServiceStatus.stopped, world) ∈ (host.reportFailure run error).statuses) :
    (ServiceStatus.stopped, world) ∈ run.statuses := by
  have hfailed : ServiceStatus.stopped ≠ .stoppedWithError errorServiceSpecificError 1 := by decide
  obtain ⟨world', hstatuses⟩ := @statuses_reportFailure _ host run error
  rw [hstatuses] at h
  rcases List.mem_cons.1 h with hhead | htail
  · exact absurd (congrArg Prod.fst hhead) hfailed
  · exact htail

/-- A stop is reported in the world that the last health report left. -/
theorem mem_conclude {world : ω} {terminalError : Option StructuredServiceError}
    (h : (ServiceStatus.stopped, world) ∈ (host.conclude run terminalError).2.statuses) :
    (ServiceStatus.stopped, world) ∈ run.statuses ∨ world = (host.publish run.world
      (host.healthReport .unknown none .notRequired terminalError)).2 := by
  unfold ServiceHost.conclude ServiceHost.reportStopped at h
  dsimp only at h
  let health := host.healthReport .unknown none .notRequired terminalError
  let published := (host.publishHealth run health).2
  have hstatuses : (host.report published .stopped).2.statuses =
      (.stopped, published.world) :: run.statuses := rfl
  have hreported : ∀ {world},
      (ServiceStatus.stopped, world) ∈ (host.report published .stopped).2.statuses →
      (ServiceStatus.stopped, world) ∈ run.statuses ∨
        world = (host.publish run.world health).2 := by
    intro world hmem
    rw [hstatuses] at hmem
    rcases List.mem_cons.1 hmem with hhead | htail
    · exact Or.inr (congrArg Prod.snd hhead)
    · exact Or.inl htail
  revert h hreported
  generalize host.report published .stopped = reported
  rcases reported with ⟨_ | _, run'⟩
  · intro h hreported
    exact hreported (mem_reportFailure h)
  · intro h hreported
    exact hreported h

/-- A driver that fails is a failure of the service, unless a stop was asked for. -/
theorem serve_failed {turns : ℕ} {initialized : InitializedRuntime}
    {error : StructuredServiceError} {world : ω}
    (h : host.drive turns initialized run.world = (some (.error (.service error)), world)) :
    let asked : ServiceRun ω :=
      { run with world := (host.surroundings.stop.stopRequested world).2 }
    host.serve turns initialized run =
      if (host.surroundings.stop.stopRequested world).1 then
        (some (host.conclude asked (some error)).1, (host.conclude asked (some error)).2)
      else (some (.error (.runtime error)), host.reportFailure asked error) := by
  unfold ServiceHost.serve
  rw [h]

theorem servesOnRequest {contract : ServiceContract host} {turns : ℕ}
    {initialized : InitializedRuntime}
    (hclean : ∀ world, host.drive turns initialized run.world = (some (.ok ()), world) →
      contract.received world)
    (hreachable : ∀ message,
      (host.drive turns initialized run.world).1 ≠ some (.error (.unreachable message))) :
    ServesOnRequest host contract turns initialized run := by
  rcases hdrive : host.drive turns initialized run.world with ⟨ended, world⟩
  refine ⟨hclean, ?_, ?_⟩
  · intro reported hmem
    rcases ended with _ | (error | message) | ⟨⟩
    · unfold ServiceHost.serve at hmem
      rw [hdrive] at hmem
      exact Or.inl hmem
    · have hrequested := contract.stopRequested world
      rw [serve_failed hdrive] at hmem
      split at hmem
      · next hasked =>
        rcases mem_conclude hmem with hbefore | hworld
        · exact Or.inl hbefore
        · rw [hworld]
          exact Or.inr (contract.publish _ _ (hrequested hasked))
      · have hbefore := mem_reportFailure hmem
        exact Or.inl hbefore
    · exact absurd (congrArg Prod.fst hdrive) (hreachable message)
    · unfold ServiceHost.serve at hmem
      rw [hdrive] at hmem
      rcases mem_conclude hmem with hbefore | hworld
      · exact Or.inl hbefore
      · rw [hworld]
        exact Or.inr (contract.publish _ _ (hclean world hdrive))
  · intro error ended' hended hrequested
    rw [hdrive] at hended
    cases hended
    rcases error with structured | message
    · refine ⟨structured, ?_⟩
      rw [serve_failed hdrive, if_neg (by simp [hrequested])]
      exact ⟨rfl, rfl⟩
    · exact absurd (congrArg Prod.fst hdrive) (hreachable message)

/-- Without a driver the service waits for a stop. -/
theorem servesOnRequest_waiting (contract : ServiceContract host) (turns : ℕ)
    (digest : Option String) (readiness : ReadinessReport) :
    ServesOnRequest host contract turns ⟨digest, readiness, none⟩ run := by
  have hwait := contract.wait run.world
  have hdrive : host.drive turns ⟨digest, readiness, none⟩ run.world =
      (some ((host.surroundings.stop.wait run.world).1.mapError .service),
        (host.surroundings.stop.wait run.world).2) := rfl
  revert hwait hdrive
  rcases host.surroundings.stop.wait run.world with ⟨_ | _, after⟩ <;> intro hwait hdrive
  · apply servesOnRequest
    · intro world hworld
      rw [hdrive] at hworld
      cases hworld
    · intro message hmessage
      rw [hdrive] at hmessage
      cases hmessage
  · apply servesOnRequest
    · intro world hworld
      rw [hdrive] at hworld
      cases hworld
      exact hwait rfl
    · intro message hmessage
      rw [hdrive] at hmessage
      cases hmessage

/-- With a driver the service ends cleanly on request, exactly where no wait of the retry
scheduler failed or a stop was asked for anyway. -/
theorem servesOnRequest_iff (contract : ServiceContract host) (turns : ℕ)
    (digest : Option String) (readiness : ReadinessReport) (setup : DriverSetup) :
    let d := (OrchestrationDriver.run (host.driverSurroundings digest) turns
      (setup.start run.world)).2
    ServesOnRequest host contract turns ⟨digest, readiness, some setup⟩ run ↔
      NoFailedWait d.history ∨ contract.received d.session.world.world := by
  intro d
  have hends := OrchestrationDriver.endsRightly_run (contract.forDriver digest) turns
    (d := setup.start run.world) (fun _ => List.not_mem_nil)
  have hreachable := @OrchestrationDriver.run_reachable _
    (host.driverSurroundings digest) (setup.start run.world) turns
  have hdrive : host.drive turns ⟨digest, readiness, some setup⟩ run.world =
      ((OrchestrationDriver.run (host.driverSurroundings digest) turns
        (setup.start run.world)).1, d.session.world.world) := rfl
  constructor
  · intro h
    rcases hends with ⟨hclean, -⟩ | ⟨-, hnone⟩
    · exact Or.inr (h.driver _ (by rw [hdrive, hclean]))
    · exact Or.inl hnone
  · intro hcondition
    apply servesOnRequest
    · intro world hworld
      rw [hdrive] at hworld
      have hsame : d.session.world.world = world := congrArg Prod.snd hworld
      rcases hends with ⟨-, hreceived | hfailed⟩ | ⟨hother, -⟩
      · exact hsame ▸ hreceived
      · exact hsame ▸ hcondition.resolve_left hfailed
      · exact absurd (congrArg Prod.fst hworld) hother
    · intro message
      rw [hdrive]
      exact hreachable message

/-! ## The start -/

def NoStop (run : ServiceRun ω) : Prop := ∀ world, (ServiceStatus.stopped, world) ∉ run.statuses

theorem NoStop.report {status : ServiceStatus} (h : NoStop run) (hstatus : status ≠ .stopped) :
    NoStop (host.report run status).2 := by
  intro world hmem
  rcases List.mem_cons.1 hmem with hhead | htail
  · exact hstatus (congrArg Prod.fst hhead).symm
  · exact h world htail

theorem NoStop.publishHealth {health : HealthReport} (h : NoStop run) :
    NoStop (host.publishHealth run health).2 := h

theorem NoStop.reportFailure {error : StructuredServiceError} (h : NoStop run) :
    NoStop (host.reportFailure run error) :=
  fun world hmem => h world (mem_reportFailure hmem)

/-- A start has reported no stop without an error, unless it found nothing to serve and ends with
such a report. -/
theorem startUp_cases (host : ServiceHost ω) (world : ω) :
    (∃ error run, host.initialization world = some (.error error, run) ∧ NoStop run ∧
      isSupportedStoppedState error = true ∧
      host.startUp world = .error (host.conclude run (some error))) ∨
      NoStop (ServiceHost.started (host.startUp world)) := by
  unfold ServiceHost.initialization ServiceHost.startUp
  have hpending : NoStop (host.report ⟨world, []⟩ (.startPending 1 10000)).2 := by
    apply NoStop.report (fun _ => List.not_mem_nil)
    decide
  revert hpending
  rcases host.report ⟨world, []⟩ (.startPending 1 10000) with ⟨_ | _, r₁⟩ <;> intro hpending
  · exact Or.inr hpending.reportFailure
  have hinitializing : NoStop (host.publishHealth r₁
      (host.healthReport .initializing none .initializing none)).2 := hpending.publishHealth
  dsimp only
  revert hinitializing
  rcases host.publishHealth r₁ (host.healthReport .initializing none .initializing none) with
    ⟨_ | _, r₂⟩ <;> intro hinitializing
  · exact Or.inr hinitializing.reportFailure
  dsimp only
  rcases host.initializeRuntime r₂.world with ⟨error | initialized, after⟩
  · have hasked : NoStop (⟨after, r₂.statuses⟩ : ServiceRun ω) := hinitializing
    dsimp only
    split
    · next hskipped => exact Or.inl ⟨error, _, rfl, hasked, hskipped, rfl⟩
    · exact Or.inr hasked.reportFailure
  have hrunning : NoStop (host.report { r₂ with world := after } .running).2 := by
    have hasked : NoStop (⟨after, r₂.statuses⟩ : ServiceRun ω) := hinitializing
    apply hasked.report
    decide
  dsimp only
  revert hrunning
  rcases host.report { r₂ with world := after } .running with ⟨_ | _, r₃⟩ <;> intro hrunning
  · exact Or.inr hrunning.reportFailure
  dsimp only
  split
  · exact Or.inr hrunning.reportFailure
  have hready : NoStop (host.publishHealth r₃ (host.healthReport .ready
      initialized.activeProfileDigest initialized.readiness none)).2 := hrunning.publishHealth
  revert hready
  rcases host.publishHealth r₃ (host.healthReport .ready
    initialized.activeProfileDigest initialized.readiness none) with ⟨_ | _, r₄⟩ <;> intro hready
  · exact Or.inr hready.reportFailure
  · exact Or.inr hready

/-- The answer of the initializer that makes a start end without an error is reported as such. -/
theorem startUp_of_skipped {world : ω} {error : StructuredServiceError}
    (h : host.initialization world = some (.error error, run))
    (hskipped : isSupportedStoppedState error = true) :
    host.startUp world = .error (host.conclude run (some error)) := by
  unfold ServiceHost.initialization at h
  unfold ServiceHost.startUp
  revert h
  rcases host.report ⟨world, []⟩ (.startPending 1 10000) with ⟨_ | _, r₁⟩
  · rintro ⟨⟩
  dsimp only
  rcases host.publishHealth r₁ (host.healthReport .initializing none .initializing none) with
    ⟨_ | _, r₂⟩
  · rintro ⟨⟩
  dsimp only
  rcases host.initializeRuntime r₂.world with ⟨found | _, after⟩
  · rintro ⟨⟩
    dsimp only
    rw [if_pos hskipped]
    rfl
  · rintro ⟨⟩

/-- The report of a stop, whether it is taken or refused. -/
theorem stopped_mem_conclude (terminalError : Option StructuredServiceError) :
    (ServiceStatus.stopped, (host.publish run.world
      (host.healthReport .unknown none .notRequired terminalError)).2) ∈
        (host.conclude run terminalError).2.statuses := by
  let published := (host.publishHealth run
    (host.healthReport .unknown none .notRequired terminalError)).2
  have hreported : (ServiceStatus.stopped, published.world) ∈
      (host.report published .stopped).2.statuses := List.mem_cons_self
  unfold ServiceHost.conclude ServiceHost.reportStopped
  dsimp only
  revert hreported
  rcases host.report published .stopped with ⟨_ | _, r⟩ <;> intro hreported
  · exact List.mem_cons_of_mem _ hreported
  · exact hreported

theorem run_of_served {turns : ℕ} {world : ω} {initialized : InitializedRuntime}
    (h : host.startUp world = .ok (initialized, run)) :
    host.run turns world = host.serve turns initialized run := by
  rw [host.run_eq, h]

/-- Over its whole life the service stops without an error only on request, exactly where nothing
else is taken for a request. -/
theorem stops_on_request_iff (host : ServiceHost ω) (contract : ServiceContract host)
    (turns : ℕ) (world : ω) :
    StopsOnRequest host contract turns world ↔ NothingTakenForStop host contract turns world := by
  constructor
  · intro h
    constructor
    · intro error run hinitialized hskipped
      apply h.lifecycle
      rw [host.run_eq, startUp_of_skipped hinitialized hskipped]
      exact stopped_mem_conclude _
    · intro digest readiness setup run hstarted d
      have hrun := @run_of_served _ host _ turns _ _ hstarted
      apply (servesOnRequest_iff contract turns digest readiness setup).1
      refine ⟨fun ended => h.driver _ _ ended hstarted, fun reported hmem => ?_, ?_⟩
      · rw [← hrun] at hmem
        exact Or.inr (h.lifecycle reported hmem)
      · intro error ended
        rw [← hrun]
        exact h.failure _ _ error ended hstarted
  · intro h
    have hserves : ∀ initialized run, host.startUp world = .ok (initialized, run) →
        ServesOnRequest host contract turns initialized run := by
      rintro ⟨digest, readiness, _ | setup⟩ run hstarted
      · exact servesOnRequest_waiting contract turns digest readiness
      · exact (servesOnRequest_iff contract turns digest readiness setup).2
          (h.waited digest readiness setup run hstarted)
    refine ⟨fun initialized run ended hstarted => (hserves initialized run hstarted).driver ended,
      ?_, ?_⟩
    · intro reported hmem
      rcases startUp_cases host world with
        ⟨error, run, hinitialized, hnone, hskipped, hstarted⟩ | hnone
      · rw [host.run_eq, hstarted] at hmem
        rcases mem_conclude hmem with hbefore | hworld
        · exact absurd hbefore (hnone reported)
        · rw [hworld]
          exact h.started error run hinitialized hskipped
      · rw [host.run_eq] at hmem
        revert hmem hnone
        rcases hstarted : host.startUp world with ended | ⟨initialized, run⟩ <;> intro hmem hnone
        · exact absurd hmem (hnone reported)
        · exact ((hserves initialized run hstarted).lifecycle reported hmem).resolve_left
            (hnone reported)
    · intro initialized run error ended hstarted
      rw [run_of_served hstarted]
      exact (hserves initialized run hstarted).failure error ended

end

/-! ## A stop that nobody asked for -/

/-- Every launch of this broker fails before there is a helper. -/
def refusedBroker : FixedHelperBroker Unit where
  assets := ⟨["runtime"], ["runtime", "mactype-injector32.exe"],
    ["runtime", "mactype-injector64.exe"], "generation"⟩
  launch _ _ := (.error ⟨.beforeResume, .other, some 5⟩, ())
  fixedModuleState _ _ _ := (.absent, ())
  record _ _ := ()

/-- The observer fails, and so does the wait before it is asked for again. -/
def failingWait : ServiceHost Unit where
  serviceVersion := "1.0.0"
  surroundings := {
    recovery := .default
    stop := {
      wait := fun _ => (.error ⟨"stop-wait-failed", "waiting for the service stop event failed",
        some 6⟩, ())
      waitTimeout := fun _ delay =>
        (if delay = 0 then .ok false
          else .error ⟨"stop-wait-failed", "waiting for the service stop event failed", some 6⟩, ())
      stopRequested := fun _ => (false, ())
      takeSessionChanges := fun _ => ([], ()) }
    source := {
      subscribe := fun _ => (.ok (), ())
      snapshotPids := fun _ => (.ok [], ())
      nextPid := fun _ _ => (.error ⟨"etw-observer-stopped",
        "the ETW process observer stopped delivering events", none⟩, ()) }
    inspector := {
      inspect := fun _ _ => (.error ⟨"process-protected-or-inaccessible",
        "the observed process cannot be opened for identity verification", none⟩, ())
      probeTargetLifecycle := fun _ _ => (.unknown, ())
      probeTargetLiveness := fun _ _ => (.unknown, ())
      processBasename := fun _ _ => (none, ())
      imageNameForOrdering := fun _ _ => (none, ()) }
    inject := refusedBroker.inject fun _ => none
    report := fun _ _ _ _ _ => (.ok (), ())
    now := fun _ => 0
    currentFiletime := fun _ => none }
  reportStatus _ _ := (.ok (), ())
  publish _ _ := (.ok (), ())
  initializeRuntime _ := (.ok ⟨some
    "sha256:0000000000000000000000000000000000000000000000000000000000000000", .ready,
    some ⟨900, "generation", "digest", []⟩⟩, ())

/-- The system refuses the job of every launch. -/
def refusingJob : LaunchAnswers := { refusing with singleProcessKillOnClose := .error ⟨.other, some 5⟩ }

theorem uninterrupted_ok {α : Type} (a : α) : Uninterrupted (.ok a) := by
  rintro error ⟨⟩

theorem uninterrupted_refused {α : Type} : Uninterrupted (.error ⟨.other, some 5⟩ : Except IoError α) := by
  rintro error ⟨⟩
  decide

theorem refusingJob_uninterrupted : refusingJob.Uninterrupted where
  wait _ _ := uninterrupted_ok _
  singleProcessKillOnClose := uninterrupted_refused
  openTarget := uninterrupted_ok _
  creationTime := uninterrupted_ok _
  anonymousPipe := uninterrupted_ok _
  nullDevice := uninterrupted_ok _
  createProcess _ _ := uninterrupted_ok _
  process _ _ handles h := by
    cases h
    exact uninterrupted_ok _
  thread _ _ handles h := by
    cases h
    exact uninterrupted_ok _
  assign := uninterrupted_refused
  resumeThread := uninterrupted_ok _
  terminateProcess := uninterrupted_refused
  terminateJob := uninterrupted_ok _

/-- No stop is ever asked for. -/
def failingWaitContract : ServiceContract failingWait where
  received _ := False
  wait _ h := by cases h
  waitTimeout _ delay h := by
    dsimp only [failingWait] at h
    split at h <;> cases h
  stopRequested _ h := by cases h
  broker := {
    fromSlice := fun _ => none
    broker := refusedBroker
    answers := fun _ _ => refusingJob
    fuel := fun _ _ => 0
    inject_eq := fun _ _ => rfl
    launch := fun _ _ => ⟨⟨2, none⟩, rfl, by
      rintro ⟨moment, -, hstopped⟩
      cases hstopped⟩
    uninterrupted := fun _ _ => refusingJob_uninterrupted
    record := fun _ _ h => h }
  publish _ _ h := h

/-- The service starts, its driver ends without an error, and it reports that it stopped. -/
theorem failing_wait_stops_cleanly : ¬StopsOnRequest failingWait failingWaitContract 1 () := by
  intro h
  have hstopped : (failingWait.run 1 ()).2.statuses.head? = some (.stopped, ()) := by
    decide +kernel
  exact h.lifecycle () (List.mem_of_mem_head? hstopped)

end MacTypeControl.Host
