import MacTypeControl.Host.Lifecycle
import MacTypeControl.Host.StopOnRequest

/-!
# What the world of the service keeps

What every question to the outside keeps of the world, the driver and the whole lifecycle keep.
-/

namespace MacTypeControl.Host

open Injection

variable {ω : Type} {I : ω → Prop}

/-- Nothing the driver asks of the outside breaks what is said of the world. -/
structure Surroundings.Keeps (host : Surroundings ω) (I : ω → Prop) : Prop where
  wait : ∀ w, I w → I (host.stop.wait w).2
  waitTimeout : ∀ w delay, I w → I (host.stop.waitTimeout w delay).2
  stopRequested : ∀ w, I w → I (host.stop.stopRequested w).2
  takeSessionChanges : ∀ w, I w → I (host.stop.takeSessionChanges w).2
  subscribe : ∀ w, I w → I (host.source.subscribe w).2
  snapshotPids : ∀ w, I w → I (host.source.snapshotPids w).2
  nextPid : ∀ w wait, I w → I (host.source.nextPid w wait).2
  inspect : ∀ w pid, I w → I (host.inspector.inspect w pid).2
  probeTargetLifecycle : ∀ w identity, I w → I (host.inspector.probeTargetLifecycle w identity).2
  probeTargetLiveness : ∀ w identity, I w → I (host.inspector.probeTargetLiveness w identity).2
  processBasename : ∀ w identity, I w → I (host.inspector.processBasename w identity).2
  imageNameForOrdering : ∀ w pid, I w → I (host.inspector.imageNameForOrdering w pid).2
  inject : ∀ w request, I w → I (host.inject w request).2
  report : ∀ w state readiness injection lastError, I w →
    I (host.report w state readiness injection lastError).2

namespace OrchestrationDriver

variable {host : Surroundings ω} {d : OrchestrationDriver ω}

def world (d : OrchestrationDriver ω) : ω := d.session.world.world

section

variable (hkeeps : host.Keeps I)
include hkeeps

theorem respects_kept :
    Respects host.environment fun a a' => I a.world → I a'.world where
  refl _ h := h
  trans h h' h₀ := h' (h h₀)
  inspect a pid := hkeeps.inspect a.world pid
  probeTargetLifecycle a identity := hkeeps.probeTargetLifecycle a.world identity
  probeTargetLiveness a identity := hkeeps.probeTargetLiveness a.world identity
  processBasename a identity := hkeeps.processBasename a.world identity
  inject a request := hkeeps.inject a.world request
  retryScheduler wait hwait a delay _ := by
    cases hwait
    exact hkeeps.waitTimeout a.world delay

theorem kept_of_progress {outcome : Except HandlerError ProcessOutcome} {a a' : Attended ω}
    (h : Progress host.environment (fun a a' => I a.world → I a'.world) a outcome a')
    (ha : I a.world) : I a'.world := by
  rcases h with ⟨-, hhalted⟩ | ⟨-, hreached⟩
  · cases hhalted with
    | broker reached request cancelled => exact hkeeps.inject _ _ (reached ha)
    | wait reached scheduler delay stopped =>
      cases scheduler
      exact hkeeps.waitTimeout _ _ (reached ha)
  · exact hreached ha

theorem kept_reportRuntimeHealth (state : HealthState) (readiness : ReadinessReport)
    (lastError : Option StructuredServiceError) (hd : I d.world) :
    I (d.reportRuntimeHealth host state readiness lastError).2.world := by
  have hasked : I ((d.signal (.reported state lastError)).ask (host.report · state readiness
      d.session.orchestrator.injectionTelemetry lastError)).2.world :=
    hkeeps.report d.world state readiness _ lastError hd
  unfold reportRuntimeHealth
  revert hasked
  dsimp only
  rcases (d.signal (.reported state lastError)).ask
    (host.report · state readiness d.session.orchestrator.injectionTelemetry lastError) with
    ⟨_ | _, d₁⟩ <;> intro hasked <;> dsimp only
  · split <;> exact hasked
  · exact hasked

theorem kept_foldl_addToBacklog (pids : List ℕ) (hd : I d.world) :
    I (pids.foldl (addToBacklog host) d).world := by
  induction pids generalizing d with
  | nil => exact hd
  | cons pid pids ih =>
    rw [List.foldl_cons]
    apply ih
    unfold addToBacklog
    split
    · exact hd
    · have hasked : I (d.ask (host.inspector.imageNameForOrdering · pid)).2.world :=
        hkeeps.imageNameForOrdering d.world pid hd
      dsimp only
      split <;> exact hasked

theorem kept_resubscribe (hd : I d.world) : I (d.resubscribe host).2.world := by
  have hsubscribed : I (d.ask host.source.subscribe).2.world := hkeeps.subscribe d.world hd
  unfold resubscribe
  revert hsubscribed
  rcases d.ask host.source.subscribe with ⟨_ | _, d₁⟩ <;> intro hsubscribed <;> dsimp only
  · exact hsubscribed
  · have hsnapshot : I (d₁.ask host.source.snapshotPids).2.world :=
      hkeeps.snapshotPids d₁.world hsubscribed
    revert hsnapshot
    rcases d₁.ask host.source.snapshotPids with ⟨_ | pids, d₂⟩ <;> intro hsnapshot <;> dsimp only
    · exact hsnapshot
    · exact kept_foldl_addToBacklog hkeeps pids hsnapshot

theorem kept_recoveryLoop (left delay : ℕ) (latestError : StructuredServiceError)
    (hd : I d.world) : I (recoveryLoop host left delay latestError d).2.world := by
  induction left generalizing delay latestError d with
  | zero =>
    have hreported := kept_reportRuntimeHealth hkeeps .failed observerFailed (some latestError) hd
    unfold recoveryLoop
    revert hreported
    rcases d.reportRuntimeHealth host .failed observerFailed (some latestError) with
      ⟨_ | _, d₁⟩ <;> exact id
  | succ left ih =>
    let d₁ : OrchestrationDriver ω :=
      { d with session := { d.session with world := (stopRetryWait host d.session.world delay).2 } }
    have hd₁ : I d₁.world := hkeeps.waitTimeout d.world delay hd
    unfold recoveryLoop
    dsimp only
    split
    · exact hd₁
    · have hasked : I (d₁.ask host.stop.stopRequested).2.world := hkeeps.stopRequested d₁.world hd₁
      revert hasked
      generalize d₁.ask host.stop.stopRequested = asked
      rcases asked with ⟨_ | _, d₂⟩ <;> intro hasked
      · have hresubscribed := kept_resubscribe hkeeps hasked
        dsimp only
        revert hresubscribed
        rcases d₂.resubscribe host with ⟨error | _, d₃⟩ <;> intro hresubscribed
        · exact ih _ _ hresubscribed
        · have hreported := kept_reportRuntimeHealth hkeeps (d := d₃.signal .resubscribed) .ready
            .ready none hresubscribed
          dsimp only
          revert hreported
          rcases (d₃.signal .resubscribed).reportRuntimeHealth host .ready .ready none with
            ⟨_ | _, d₄⟩ <;> exact id
      · exact hasked

theorem kept_recoverObserver (error : StructuredServiceError) (hd : I d.world) :
    I (d.recoverObserver host error).2.world := by
  have hreported := kept_reportRuntimeHealth hkeeps .degraded observerFailed (some error) hd
  unfold recoverObserver
  revert hreported
  rcases d.reportRuntimeHealth host .degraded observerFailed (some error) with ⟨_ | _, d₁⟩ <;>
    intro hreported
  · exact hreported
  · exact kept_recoveryLoop hkeeps _ _ _ hreported

/-! ## One turn -/

theorem kept_reportAndContinue (state : HealthState) (lastError : Option StructuredServiceError)
    (hd : I d.world) : I (d.reportAndContinue host state lastError).2.world := by
  have hreported := kept_reportRuntimeHealth hkeeps state .ready lastError hd
  unfold reportAndContinue
  revert hreported
  rcases d.reportRuntimeHealth host state .ready lastError with ⟨_ | _, d₁⟩ <;> exact id

theorem kept_settle (outcome : Except HandlerError ProcessOutcome) (hd : I d.world) :
    I (d.settle host outcome).2.world := by
  unfold settle
  rcases outcome with (error | message) | outcome
  · exact kept_reportAndContinue hkeeps _ _ hd
  · exact hd
  · cases outcome with
    | injected => exact kept_reportAndContinue hkeeps (d := d.signal .injected) _ _ hd
    | rejected | retryExhausted =>
      dsimp only
      split
      · next error _ =>
        exact kept_reportAndContinue hkeeps (d := d.signal (.untrusted error)) _ _ hd
      · exact hd
    | skipped | deferred | duplicate | cancelled => exact hd

theorem kept_handlePid (pid : ℕ) (announced : Bool) (hd : I d.world) :
    I (d.handlePid host pid announced).2.world := by
  have hprogress := progress_handlePidAt (respects_kept hkeeps) (s := d.session) pid
    (host.now d.attended.world)
  have hhandled := kept_of_progress hkeeps hprogress hd
  unfold handlePid
  exact kept_settle hkeeps _ hhandled

theorem kept_handleNext (hd : I d.world) : I (d.handleNext host).2.world := by
  unfold handleNext
  dsimp only
  generalize (if d.snapshotPids.isEmpty then milliseconds 250 else 0) = eventWait
  have hasked : I (d.ask (host.source.nextPid · eventWait)).2.world :=
    hkeeps.nextPid d.world eventWait hd
  revert hasked
  rcases d.ask (host.source.nextPid · eventWait) with ⟨error | _ | pid, d₁⟩ <;> intro hasked <;>
    dsimp only
  · have hrecovered := kept_recoverObserver hkeeps error hasked
    revert hrecovered
    rcases d₁.recoverObserver host error with ⟨_ | _ | _, d₂⟩ <;> exact id
  · split
    · exact hasked
    · exact kept_handlePid hkeeps _ false hasked
  · exact kept_handlePid hkeeps pid true hasked

theorem kept_handleSessionChanges (hd : I d.world) : I (d.handleSessionChanges host).world := by
  have hasked : I (d.ask host.stop.takeSessionChanges).2.world :=
    hkeeps.takeSessionChanges d.world hd
  unfold handleSessionChanges world
  dsimp only
  rw [world_foldl_handleSessionChange]
  exact hasked

theorem kept_pollDeferred (hd : I d.world) : I (d.pollDeferred host).2.world := by
  have hpolled := progress_pollDeferred (respects_kept hkeeps) (s := d.session)
    (host.now d.attended.world)
  unfold pollDeferred
  revert hpolled
  rcases d.session.pollDeferred host.environment (host.now d.attended.world) with ⟨polled, session⟩
  rintro (⟨rfl, hworld⟩ | ⟨outcome, rfl, hprogress⟩)
  · apply kept_handleNext hkeeps
    unfold world
    rw [hworld]
    exact hd
  · have hkept : I ({ d with session } : OrchestrationDriver ω).world :=
      kept_of_progress hkeeps hprogress hd
    cases outcome with
    | error error => exact kept_settle hkeeps _ hkept
    | ok outcome =>
      dsimp only [Except.map]
      split
      · exact kept_handleNext hkeeps hkept
      · exact kept_settle hkeeps _ hkept

theorem kept_step (hd : I d.world) : I (d.step host).2.world := by
  have hasked : I (d.ask (host.stop.waitTimeout · 0)).2.world := hkeeps.waitTimeout d.world 0 hd
  unfold step
  revert hasked
  rcases d.ask (host.stop.waitTimeout · 0) with ⟨error | _ | _, d₁⟩ <;> intro hasked
  · exact hasked
  · apply kept_pollDeferred hkeeps
    exact kept_handleSessionChanges hkeeps hasked
  · exact hasked

/-- What every question keeps, any number of turns keeps. -/
theorem kept_run (turns : ℕ) (hd : I d.world) : I (run host turns d).2.world := by
  induction turns generalizing d with
  | zero => exact hd
  | succ turns ih =>
    have hstep := kept_step hkeeps hd
    unfold run
    revert hstep
    rcases d.step host with ⟨_ | _, d₁⟩ <;> intro hstep
    · exact ih hstep
    · exact hstep

end

end OrchestrationDriver

/-! ## The lifecycle -/

/-- Nothing the lifecycle asks of the outside breaks what is said of the world. -/
structure ServiceHost.Keeps (host : ServiceHost ω) (I : ω → Prop) : Prop where
  surroundings : host.surroundings.Keeps I
  reportStatus : ∀ w status, I w → I (host.reportStatus w status).2
  publish : ∀ w report, I w → I (host.publish w report).2
  initializeRuntime : ∀ w, I w → I (host.initializeRuntime w).2

namespace ServiceHost

variable {host : ServiceHost ω} {r : ServiceRun ω} (hkeeps : host.Keeps I)
include hkeeps

theorem keeps_driverSurroundings (activeProfileDigest : Option String) :
    (host.driverSurroundings activeProfileDigest).Keeps I :=
  { hkeeps.surroundings with
    report := by
      intro w state readiness injection lastError hw
      unfold driverSurroundings runtimeHealth
      dsimp only
      split
      · exact hw
      · exact hkeeps.publish _ _ hw }

theorem kept_reportFailure (error : StructuredServiceError) (h : I r.world) :
    I (host.reportFailure r error).world :=
  hkeeps.reportStatus _ _ (hkeeps.publish _ _ h)

theorem kept_reportStopped (h : I r.world) : I (host.reportStopped r).2.world := by
  have hreported : I (host.report r .stopped).2.world := hkeeps.reportStatus _ _ h
  unfold reportStopped
  revert hreported
  rcases host.report r .stopped with ⟨error | _, r'⟩ <;> intro hreported
  · exact kept_reportFailure hkeeps _ hreported
  · exact hreported

theorem kept_conclude (terminalError : Option StructuredServiceError) (h : I r.world) :
    I (host.conclude r terminalError).2.world := by
  have hpublished : I (host.publishHealth r
      (host.healthReport .unknown none .notRequired terminalError)).2.world := hkeeps.publish _ _ h
  exact kept_reportStopped hkeeps hpublished

theorem kept_drive (turns : ℕ) (initialized : InitializedRuntime) {world : ω} (h : I world) :
    I (host.drive turns initialized world).2 := by
  unfold drive
  split
  · exact OrchestrationDriver.kept_run (keeps_driverSurroundings hkeeps _) turns h
  · exact hkeeps.surroundings.wait _ h

theorem kept_serve (turns : ℕ) (initialized : InitializedRuntime) (h : I r.world) :
    I (host.serve turns initialized r).2.world := by
  have hdriven := kept_drive hkeeps turns initialized h
  unfold serve
  revert hdriven
  rcases host.drive turns initialized r.world with
    ⟨_ | (error | message) | ⟨⟩, world⟩ <;> intro hdriven
  · exact hdriven
  · have hasked := hkeeps.surroundings.stopRequested world hdriven
    dsimp only
    split
    · exact kept_conclude hkeeps (r := { r with world := _ }) _ hasked
    · exact kept_reportFailure hkeeps (r := { r with world := _ }) _ hasked
  · exact hdriven
  · exact kept_conclude hkeeps (r := { r with world }) _ hdriven

end ServiceHost

end MacTypeControl.Host
