import MacTypeControl.Host.Driver
import MacTypeControl.Host.HelperConfinement
import MacTypeControl.Injection.Cancellation

/-!
# A clean end of the driver

The driver ends without an error where a stop was asked for, and where a wait of its retry
scheduler failed, which the scheduler takes for a stop.
-/

namespace MacTypeControl.Host

open Injection

variable {ω : Type} {host : Surroundings ω} {d d' : OrchestrationDriver ω}

/-- The broker starts its helpers through the launcher. What the system answers a launch is given
by the world in which it starts; none of its calls is interrupted by anything but a stop, and a
launch that has been told of a stop leaves a world in which one was asked for. -/
structure BrokerContract (inject : ω → InjectionRequest → BrokerResult × ω)
    (received : ω → Prop) where
  fromSlice : List UInt8 → Option JsonValue
  broker : FixedHelperBroker ω
  answers : ω → HelperInvocation → LaunchAnswers
  fuel : ω → HelperInvocation → ℕ
  inject_eq : ∀ w request, inject w request = broker.inject fromSlice w request
  launch : ∀ w invocation, ∃ s,
    launchProcess (answers w invocation) (fuel w invocation) invocation launchStart =
        some ((broker.launch w invocation).1, s) ∧
      (StopAnswered (answers w invocation) s → received (broker.launch w invocation).2)
  uninterrupted : ∀ w invocation, (answers w invocation).Uninterrupted
  record : ∀ w failed, received w → received (broker.record w failed)

/-- When a stop was asked for. A wait that is signalled says so, and so does the stop signal. -/
structure StopContract (host : Surroundings ω) where
  received : ω → Prop
  wait : ∀ w, (host.stop.wait w).1 = .ok () → received (host.stop.wait w).2
  waitTimeout : ∀ w delay, (host.stop.waitTimeout w delay).1 = .ok true →
    received (host.stop.waitTimeout w delay).2
  stopRequested : ∀ w, (host.stop.stopRequested w).1 = true → received (host.stop.stopRequested w).2
  broker : BrokerContract host.inject received

/-- The broker answers `cancelled` only where a launch was told of a stop. -/
theorem BrokerContract.cancelled_received {inject : ω → InjectionRequest → BrokerResult × ω}
    {received : ω → Prop} (contract : BrokerContract inject received) (w : ω)
    (request : InjectionRequest) (h : (inject w request).1.disposition = .cancelled) :
    received (inject w request).2 := by
  rw [contract.inject_eq] at h ⊢
  obtain ⟨world, error, after, hlaunch, ⟨hstage, hkind⟩, hafter⟩ :=
    FixedHelperBroker.inject_cancelled h
  obtain ⟨launched, hrun, hstop⟩ := contract.launch world (contract.broker.invocation request)
  rw [hlaunch] at hrun hstop
  have hfounded := wlp_launchProcess_founded (contract.uninterrupted _ _) _ hrun
  have hreceived : received after := hstop (hfounded hstage hkind)
  rw [hafter]
  unfold FixedHelperBroker.recordFailure
  split
  · exact contract.record _ _ hreceived
  · exact hreceived

/-- No wait of the retry scheduler has failed. -/
def NoFailedWait (history : List Signal) : Prop := ∀ error, .waited (.error error) ∉ history

namespace OrchestrationDriver

/-! ## What the steps add to the history -/

def history (d : OrchestrationDriver ω) : List Signal := d.session.world.history

@[simp] theorem history_signal (signal : Signal) :
    (d.signal signal).history = signal :: d.history := rfl

@[simp] theorem history_record (event : HostEvent) : (d.record event).history = d.history := rfl

theorem history_reportRuntimeHealth (state : HealthState) (readiness : ReadinessReport)
    (lastError : Option StructuredServiceError) :
    (d.reportRuntimeHealth host state readiness lastError).2.history =
      .reported state lastError :: d.history := by
  have hasked : ((d.signal (.reported state lastError)).ask
      (host.report · state readiness d.session.orchestrator.injectionTelemetry lastError)).2.history
        = .reported state lastError :: d.history := rfl
  unfold reportRuntimeHealth
  revert hasked
  dsimp only
  rcases (d.signal (.reported state lastError)).ask
    (host.report · state readiness d.session.orchestrator.injectionTelemetry lastError) with
    ⟨_ | _, d₁⟩ <;> intro hasked <;> dsimp only
  · split <;> exact hasked
  · exact hasked

theorem history_foldl_addToBacklog (pids : List ℕ) :
    (pids.foldl (addToBacklog host) d).history = d.history := by
  induction pids generalizing d with
  | nil => rfl
  | cons pid pids ih =>
    rw [List.foldl_cons, ih]
    unfold addToBacklog
    split
    · rfl
    · dsimp only
      split <;> rfl

theorem history_resubscribe : (d.resubscribe host).2.history = d.history := by
  have hsubscribed : (d.ask host.source.subscribe).2.history = d.history := rfl
  unfold resubscribe
  revert hsubscribed
  rcases d.ask host.source.subscribe with ⟨_ | _, d₁⟩ <;> intro hsubscribed <;> dsimp only
  · exact hsubscribed
  · have hsnapshot : (d₁.ask host.source.snapshotPids).2.history = d₁.history := rfl
    revert hsnapshot
    rcases d₁.ask host.source.snapshotPids with ⟨_ | pids, d₂⟩ <;> intro hsnapshot <;> dsimp only
    · rw [hsnapshot, hsubscribed]
    · rw [history_foldl_addToBacklog, hsnapshot, hsubscribed]

theorem world_foldl_handleSessionChange (changes : List SessionChange)
    (s : Session (Attended ω)) :
    (changes.foldl Session.handleSessionChange s).world = s.world := by
  induction changes generalizing s with
  | nil => rfl
  | cons change changes ih =>
    rw [List.foldl_cons, ih]
    unfold Session.handleSessionChange
    dsimp only
    split
    · rfl
    · split <;> rfl

theorem history_handleSessionChanges : (d.handleSessionChanges host).history = d.history := by
  unfold handleSessionChanges history
  dsimp only
  rw [world_foldl_handleSessionChange]
  rfl

end OrchestrationDriver

/-! ## The orchestrator -/

/-- A relation between histories that holds where nothing is added, and across a wait that
continues, is kept by everything the orchestrator asks. -/
theorem respects_environment {R : List Signal → List Signal → Prop} (refl : ∀ h, R h h)
    (trans : ∀ {h h₁ h₂}, R h h₁ → R h₁ h₂ → R h h₂)
    (continued : ∀ h, R h (.waited (.ok false) :: h)) :
    Respects host.environment fun a a' => R a.history a'.history where
  refl a := refl a.history
  trans := trans
  inspect a _ := refl a.history
  probeTargetLifecycle a _ := refl a.history
  probeTargetLiveness a _ := refl a.history
  processBasename a _ := refl a.history
  inject a _ := refl a.history
  retryScheduler wait hwait a delay := by
    cases hwait
    unfold stopRetryWait
    rcases host.stop.waitTimeout a.world delay with ⟨_ | _ | _, world⟩ <;> intro hcontinued
    · cases hcontinued
    · exact continued a.history
    · cases hcontinued

/-! ## Clean ends -/

/-- What ended without an error did so on a request, or at a wait that failed; what goes on,
or ends with an error, has seen no wait fail. -/
def EndsRightly (contract : StopContract host) {α : Type} (ended : α) (clean : α)
    (d : OrchestrationDriver ω) : Prop :=
  (ended = clean ∧ (contract.received d.session.world.world ∨ ¬NoFailedWait d.history)) ∨
    (ended ≠ clean ∧ NoFailedWait d.history)

section

variable (contract : StopContract host)

theorem NoFailedWait.cons {history : List Signal} (h : NoFailedWait history) {signal : Signal}
    (hsignal : ∀ error, signal ≠ .waited (.error error)) : NoFailedWait (signal :: history) := by
  intro error hmem
  rcases List.mem_cons.1 hmem with hhead | htail
  · exact hsignal error hhead.symm
  · exact h error htail

/-- A wait that does not continue was asked to stop, or failed. -/
theorem stopRetryWait_stopped {a : Attended ω} {delay : ℕ}
    (h : (stopRetryWait host a delay).1 = false) :
    contract.received (stopRetryWait host a delay).2.world ∨
      ¬NoFailedWait (stopRetryWait host a delay).2.history := by
  have hsignalled := contract.waitTimeout a.world delay
  unfold stopRetryWait at h ⊢
  revert h hsignalled
  rcases host.stop.waitTimeout a.world delay with ⟨error | _ | _, world⟩ <;> intro h hsignalled
  · exact Or.inr fun hnone => hnone error List.mem_cons_self
  · cases h
  · exact Or.inl (hsignalled rfl)

theorem stopRetryWait_continued {a : Attended ω} {delay : ℕ} (ha : NoFailedWait a.history)
    (h : (stopRetryWait host a delay).1 = true) :
    NoFailedWait (stopRetryWait host a delay).2.history := by
  unfold stopRetryWait at h ⊢
  revert h
  rcases host.stop.waitTimeout a.world delay with ⟨_ | _ | _, world⟩ <;> intro h
  · cases h
  · exact ha.cons (by simp)
  · cases h

/-- The orchestrator ends a handler as cancelled only where it was asked to stop or a wait failed. -/
theorem endsRightly_of_progress {s : Session (Attended ω)} (ha : NoFailedWait s.world.history)
    {outcome : Except HandlerError ProcessOutcome}
    (hd : Progress host.environment (fun a a' => NoFailedWait a.history → NoFailedWait a'.history)
      s.world outcome d.session.world) :
    EndsRightly contract outcome (.ok .cancelled) d := by
  rcases hd with ⟨hcancelled, hhalted⟩ | ⟨hother, hreached⟩
  · refine Or.inl ⟨hcancelled, ?_⟩
    generalize hworld : d.session.world = world at hhalted
    cases hhalted with
    | broker reached request cancelled =>
      exact Or.inl (contract.broker.cancelled_received _ request cancelled)
    | wait reached scheduler delay stopped =>
      cases scheduler
      unfold OrchestrationDriver.history
      rw [hworld]
      exact stopRetryWait_stopped contract stopped
  · exact Or.inr ⟨hother, hreached ha⟩

theorem respects_noFailedWait : Respects host.environment
    fun a a' => NoFailedWait a.history → NoFailedWait a'.history :=
  respects_environment (R := fun h h' => NoFailedWait h → NoFailedWait h') (fun _ h => h)
    (fun h h' h₀ => h' (h h₀)) fun _ h => h.cons (by simp)

namespace OrchestrationDriver

theorem endsRightly_recoveryLoop (left delay : ℕ) (latestError : StructuredServiceError)
    (hd : NoFailedWait d.history) :
    let recovered := recoveryLoop host left delay latestError d
    EndsRightly contract recovered.1 (.ok .stopped) recovered.2 := by
  induction left generalizing delay latestError d with
  | zero =>
    have hreported := @history_reportRuntimeHealth _ host d .failed observerFailed
      (some latestError)
    unfold recoveryLoop
    revert hreported
    rcases d.reportRuntimeHealth host .failed observerFailed (some latestError) with
      ⟨_ | _, d₁⟩ <;> intro hreported
    all_goals
      refine Or.inr ⟨by simp, ?_⟩
      rw [hreported]
      exact hd.cons (by simp)
  | succ left ih =>
    unfold recoveryLoop
    have hstopped := @stopRetryWait_stopped _ host contract d.session.world delay
    have hcontinued := @stopRetryWait_continued _ host _ delay hd
    revert hstopped hcontinued
    rcases stopRetryWait host d.session.world delay with ⟨_ | _, world⟩ <;>
      intro hstopped hcontinued
    · exact Or.inl ⟨rfl, hstopped rfl⟩
    · let d₁ : OrchestrationDriver ω := { d with session := { d.session with world } }
      have hd₁ : NoFailedWait d₁.history := hcontinued rfl
      have hasked := contract.stopRequested d₁.session.world.world
      have hhistory : (d₁.ask host.stop.stopRequested).2.history = d₁.history := rfl
      have hrequested : (d₁.ask host.stop.stopRequested).1 = true →
          contract.received (d₁.ask host.stop.stopRequested).2.session.world.world := hasked
      dsimp only
      rw [if_neg (by simp)]
      revert hhistory hrequested
      rcases d₁.ask host.stop.stopRequested with ⟨_ | _, d₂⟩ <;> intro hhistory hrequested
      · have hd₂ : NoFailedWait d₂.history := hhistory ▸ hd₁
        have hresubscribed := @history_resubscribe _ host d₂
        dsimp only
        revert hresubscribed
        rcases d₂.resubscribe host with ⟨error | _, d₃⟩ <;> intro hresubscribed
        · exact ih _ _ (hresubscribed ▸ hd₂)
        · have hreported := @history_reportRuntimeHealth _ host
            (d₃.signal .resubscribed) .ready .ready none
          dsimp only
          revert hreported
          rcases (d₃.signal .resubscribed).reportRuntimeHealth host .ready .ready none with
            ⟨_ | _, d₄⟩ <;> intro hreported
          all_goals
            refine Or.inr ⟨by simp, ?_⟩
            rw [hreported, history_signal, hresubscribed]
            exact (hd₂.cons (by simp)).cons (by simp)
      · exact Or.inl ⟨rfl, Or.inl (hrequested rfl)⟩

theorem endsRightly_recoverObserver (error : StructuredServiceError)
    (hd : NoFailedWait d.history) :
    let recovered := d.recoverObserver host error
    EndsRightly contract recovered.1 (.ok .stopped) recovered.2 := by
  have hreported := @history_reportRuntimeHealth _ host d .degraded observerFailed
    (some error)
  unfold recoverObserver
  revert hreported
  rcases d.reportRuntimeHealth host .degraded observerFailed (some error) with ⟨_ | _, d₁⟩ <;>
    intro hreported
  · refine Or.inr ⟨by simp, ?_⟩
    rw [hreported]
    exact hd.cons (by simp)
  · apply endsRightly_recoveryLoop
    rw [hreported]
    exact hd.cons (by simp)

theorem endsRightly_reportAndContinue (state : HealthState)
    (lastError : Option StructuredServiceError) (hd : NoFailedWait d.history) :
    let turn := d.reportAndContinue host state lastError
    EndsRightly contract turn.1 (some (.ok ())) turn.2 := by
  have hreported := @history_reportRuntimeHealth _ host d state .ready lastError
  unfold reportAndContinue
  revert hreported
  rcases d.reportRuntimeHealth host state .ready lastError with ⟨_ | _, d₁⟩ <;> intro hreported
  all_goals
    refine Or.inr ⟨by simp, ?_⟩
    rw [hreported]
    exact hd.cons (by simp)

theorem endsRightly_settle {outcome : Except HandlerError ProcessOutcome}
    (hd : EndsRightly contract outcome (.ok .cancelled) d) :
    let turn := d.settle host outcome
    EndsRightly contract turn.1 (some (.ok ())) turn.2 := by
  have hgoOn : NoFailedWait d.history → outcome ≠ .ok .cancelled →
      EndsRightly contract (none : Option (Except HandlerError Unit)) (some (.ok ())) d :=
    fun hd _ => Or.inr ⟨by simp, hd⟩
  rcases hd with ⟨rfl, hended⟩ | ⟨hother, hd⟩
  · exact Or.inl ⟨rfl, hended⟩
  · unfold settle
    rcases outcome with (error | message) | outcome
    · exact endsRightly_reportAndContinue contract _ _ hd
    · exact Or.inr ⟨by simp, hd⟩
    · cases outcome with
      | injected => exact endsRightly_reportAndContinue contract _ _ (hd.cons (by simp))
      | rejected | retryExhausted =>
        dsimp only
        split
        · exact endsRightly_reportAndContinue contract _ _ (hd.cons (by simp))
        · exact hgoOn hd hother
      | cancelled => exact absurd rfl hother
      | skipped | deferred | duplicate => exact hgoOn hd hother

theorem endsRightly_handlePid (pid : ℕ) (announced : Bool) (hd : NoFailedWait d.history) :
    let turn := d.handlePid host pid announced
    EndsRightly contract turn.1 (some (.ok ())) turn.2 := by
  have hprogress := progress_handlePidAt (@respects_noFailedWait _ host) (s := d.session)
    pid (host.now d.attended.world)
  unfold handlePid
  exact endsRightly_settle contract (endsRightly_of_progress contract hd hprogress)

theorem endsRightly_handleNext (hd : NoFailedWait d.history) :
    let turn := d.handleNext host
    EndsRightly contract turn.1 (some (.ok ())) turn.2 := by
  unfold handleNext
  dsimp only
  generalize (if d.snapshotPids.isEmpty then milliseconds 250 else 0) = eventWait
  have hasked : (d.ask (host.source.nextPid · eventWait)).2.history = d.history := rfl
  revert hasked
  rcases d.ask (host.source.nextPid · eventWait) with ⟨error | _ | pid, d₁⟩ <;> intro hasked <;>
    dsimp only
  · have hrecovered := endsRightly_recoverObserver contract (d := d₁) error (hasked ▸ hd)
    revert hrecovered
    rcases d₁.recoverObserver host error with ⟨_ | _ | _, d₂⟩
    · rintro (⟨hstopped, -⟩ | ⟨-, hd₂⟩)
      · cases hstopped
      · exact Or.inr ⟨by simp, hd₂⟩
    · rintro (⟨hstopped, -⟩ | ⟨-, hd₂⟩)
      · cases hstopped
      · exact Or.inr ⟨by simp, hd₂⟩
    · rintro (⟨-, hended⟩ | ⟨hother, -⟩)
      · exact Or.inl ⟨rfl, hended⟩
      · exact absurd rfl hother
  · split
    · exact Or.inr ⟨by simp, hasked ▸ hd⟩
    · exact endsRightly_handlePid contract _ false (hasked ▸ hd)
  · exact endsRightly_handlePid contract pid true (hasked ▸ hd)

theorem endsRightly_pollDeferred (hd : NoFailedWait d.history) :
    let turn := d.pollDeferred host
    EndsRightly contract turn.1 (some (.ok ())) turn.2 := by
  have hpolled := progress_pollDeferred (@respects_noFailedWait _ host) (s := d.session)
    (host.now d.attended.world)
  unfold pollDeferred
  revert hpolled
  rcases d.session.pollDeferred host.environment (host.now d.attended.world) with ⟨polled, session⟩
  rintro (⟨rfl, hworld⟩ | ⟨outcome, rfl, hprogress⟩)
  · apply endsRightly_handleNext
    unfold history
    rw [hworld]
    exact hd
  · have hends := endsRightly_of_progress contract (d := { d with session }) hd hprogress
    cases outcome with
    | error error =>
      have herror : EndsRightly contract (.error error : Except HandlerError ProcessOutcome)
        (.ok .cancelled) { d with session } := hends
      exact endsRightly_settle contract herror
    | ok outcome =>
      dsimp only [Except.map]
      split
      · next hdeferred =>
        rcases hends with ⟨hcancelled, -⟩ | ⟨-, hd'⟩
        · rw [hdeferred] at hcancelled
          cases hcancelled
        · exact endsRightly_handleNext contract hd'
      · exact endsRightly_settle contract hends

theorem endsRightly_step (hd : NoFailedWait d.history) :
    let turn := d.step host
    EndsRightly contract turn.1 (some (.ok ())) turn.2 := by
  have hsignalled := contract.waitTimeout d.session.world.world 0
  have hrequested : (d.ask (host.stop.waitTimeout · 0)).1 = .ok true →
      contract.received (d.ask (host.stop.waitTimeout · 0)).2.session.world.world := hsignalled
  have hasked : (d.ask (host.stop.waitTimeout · 0)).2.history = d.history := rfl
  unfold step
  revert hrequested hasked
  rcases d.ask (host.stop.waitTimeout · 0) with ⟨error | _ | _, d₁⟩ <;> intro hrequested hasked
  · exact Or.inr ⟨by simp, hasked ▸ hd⟩
  · apply endsRightly_pollDeferred
    rw [history_record, history_handleSessionChanges, hasked]
    exact hd
  · exact Or.inl ⟨rfl, Or.inl (hrequested rfl)⟩

theorem endsRightly_run (turns : ℕ) (hd : NoFailedWait d.history) :
    let ended := run host turns d
    EndsRightly contract ended.1 (some (.ok ())) ended.2 := by
  induction turns generalizing d with
  | zero => exact Or.inr ⟨by simp [run], hd⟩
  | succ turns ih =>
    have hstep := endsRightly_step contract hd
    unfold run
    revert hstep
    rcases d.step host with ⟨_ | _, d₁⟩
    · rintro (⟨hended, -⟩ | ⟨-, hd₁⟩)
      · cases hended
      · exact ih hd₁
    · exact id

end OrchestrationDriver

end

end MacTypeControl.Host
