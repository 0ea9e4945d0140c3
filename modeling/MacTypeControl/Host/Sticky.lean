import MacTypeControl.Host.StopOnRequest

/-!
# How long a degradation lasts

Two things make the driver report that it is ready: an injection that succeeds, and an
observer that is subscribed to again. The second knows nothing of the results before it.
-/

namespace MacTypeControl.Host

open Injection

variable {ω : Type} {host : Surroundings ω} {d d' : OrchestrationDriver ω}

/-- A result that cannot be trusted stands: no injection has succeeded after it. -/
def Standing (history : List Signal) : Prop :=
  ∃ between error older, history = between ++ .untrusted error :: older ∧ .injected ∉ between

/-- While such a result stands the driver never reports that it is ready. -/
def StickyDegradation (history : List Signal) : Prop :=
  ∀ newer error older, history = newer ++ .reported .ready error :: older → ¬Standing older

/-- The observer recovered while such a result stood. -/
def RecoveredWhileStanding (history : List Signal) : Prop :=
  ∃ newer older, history = newer ++ .resubscribed :: older ∧ Standing older

/-- The histories the driver makes: it reports that it is ready after an injection and after a
recovery, and after each of them. -/
inductive Published : List Signal → Prop
  | nil : Published []
  | waited {history : List Signal} (answer : Except StructuredServiceError Bool)
      (h : Published history) : Published (.waited answer :: history)
  | untrusted {history : List Signal} (error : StructuredServiceError) (h : Published history) :
      Published (.untrusted error :: history)
  | unready {history : List Signal} {state : HealthState} (hstate : state ≠ .ready)
      (error : Option StructuredServiceError) (h : Published history) :
      Published (.reported state error :: history)
  | injected {history : List Signal} (error : Option StructuredServiceError)
      (h : Published history) : Published (.reported .ready error :: .injected :: history)
  | resubscribed {history : List Signal} (error : Option StructuredServiceError)
      (h : Published history) : Published (.reported .ready error :: .resubscribed :: history)

/-! ## Histories -/

theorem standing_cons {history : List Signal} {signal : Signal} (hinjected : signal ≠ .injected)
    (huntrusted : ∀ error, signal ≠ .untrusted error) :
    Standing (signal :: history) ↔ Standing history := by
  constructor
  · rintro ⟨between, error, older, hhistory, hnone⟩
    cases between with
    | nil => exact absurd (List.cons.inj hhistory).1 (huntrusted error)
    | cons head between =>
      obtain ⟨-, htail⟩ := List.cons.inj hhistory
      exact ⟨between, error, older, htail, fun h => hnone (List.mem_cons_of_mem _ h)⟩
  · rintro ⟨between, error, older, rfl, hnone⟩
    refine ⟨signal :: between, error, older, rfl, fun h => ?_⟩
    rcases List.mem_cons.1 h with hhead | htail
    · exact hinjected hhead.symm
    · exact hnone htail

theorem not_standing_injected (history : List Signal) : ¬Standing (.injected :: history) := by
  rintro ⟨between, error, older, hhistory, hnone⟩
  cases between with
  | nil => cases (List.cons.inj hhistory).1
  | cons head between =>
    obtain ⟨hhead, -⟩ := List.cons.inj hhistory
    exact hnone (hhead ▸ List.mem_cons_self)

theorem sticky_cons {history : List Signal} {signal : Signal} :
    StickyDegradation (signal :: history) ↔
      (∀ error, signal = .reported .ready error → ¬Standing history) ∧
        StickyDegradation history := by
  constructor
  · intro h
    refine ⟨fun error hsignal => h [] error history (by rw [hsignal]; rfl), ?_⟩
    intro newer error older hhistory
    exact h (signal :: newer) error older (by rw [hhistory]; rfl)
  · rintro ⟨hhead, htail⟩ newer error older hhistory
    cases newer with
    | nil =>
      obtain ⟨hsignal, hrest⟩ := List.cons.inj hhistory
      exact hrest ▸ hhead error hsignal
    | cons first newer => exact htail newer error older (List.cons.inj hhistory).2

theorem recovered_cons {history : List Signal} {signal : Signal} :
    RecoveredWhileStanding (signal :: history) ↔
      (signal = .resubscribed ∧ Standing history) ∨ RecoveredWhileStanding history := by
  constructor
  · rintro ⟨newer, older, hhistory, hstanding⟩
    cases newer with
    | nil =>
      obtain ⟨hsignal, hrest⟩ := List.cons.inj hhistory
      exact Or.inl ⟨hsignal, hrest ▸ hstanding⟩
    | cons first newer => exact Or.inr ⟨newer, older, (List.cons.inj hhistory).2, hstanding⟩
  · rintro (⟨rfl, hstanding⟩ | ⟨newer, older, hhistory, hstanding⟩)
    · exact ⟨[], history, rfl, hstanding⟩
    · exact ⟨signal :: newer, older, by rw [hhistory]; rfl, hstanding⟩

/-- The degradation is sticky exactly where the observer never recovered during one. -/
theorem Published.sticky_iff {history : List Signal} (h : Published history) :
    StickyDegradation history ↔ ¬RecoveredWhileStanding history := by
  induction h with
  | nil =>
    refine iff_of_true ?_ ?_
    · rintro newer error older hhistory
      exact absurd hhistory (by simp)
    · rintro ⟨newer, older, hhistory, -⟩
      exact absurd hhistory (by simp)
  | waited answer h ih =>
    rw [sticky_cons, recovered_cons, ih]
    simp
  | untrusted error h ih =>
    rw [sticky_cons, recovered_cons, ih]
    simp
  | unready hstate error h ih =>
    rw [sticky_cons, recovered_cons, ih]
    simp [hstate]
  | @injected history error h ih =>
    have hnot := not_standing_injected history
    rw [sticky_cons, sticky_cons, recovered_cons, recovered_cons, ih]
    simp [hnot]
  | @resubscribed history error h ih =>
    have hstanding : Standing (.resubscribed :: history) ↔ Standing history :=
      standing_cons (by simp) (by simp)
    rw [sticky_cons, sticky_cons, recovered_cons, recovered_cons, ih, hstanding]
    simp

/-! ## The driver -/

/-- Across the orchestrator the history stays one that the driver makes. -/
theorem respects_published : Respects host.environment
    fun a a' => Published a.history → Published a'.history :=
  respects_environment (R := fun h h' => Published h → Published h') (fun _ h => h)
    (fun h h' h₀ => h' (h h₀)) fun _ h => .waited _ h

theorem published_of_progress {s : Session (Attended ω)} (hs : Published s.world.history)
    {outcome : Except HandlerError ProcessOutcome} {a : Attended ω}
    (h : Progress host.environment (fun a a' => Published a.history → Published a'.history)
      s.world outcome a) : Published a.history := by
  rcases h with ⟨-, hhalted⟩ | ⟨-, hreached⟩
  · cases hhalted with
    | broker reached request cancelled => exact reached hs
    | wait reached scheduler delay stopped =>
      cases scheduler
      exact .waited _ (reached hs)
  · exact hreached hs

namespace OrchestrationDriver

theorem published_recoveryLoop (left delay : ℕ) (latestError : StructuredServiceError)
    (hd : Published d.history) :
    Published (recoveryLoop host left delay latestError d).2.history := by
  induction left generalizing delay latestError d with
  | zero =>
    have hreported := @history_reportRuntimeHealth _ host d .failed observerFailed
      (some latestError)
    unfold recoveryLoop
    revert hreported
    rcases d.reportRuntimeHealth host .failed observerFailed (some latestError) with
      ⟨_ | _, d₁⟩ <;> intro hreported
    all_goals
      dsimp only
      rw [hreported]
      exact .unready (by decide) _ hd
  | succ left ih =>
    unfold recoveryLoop
    have hwaited : Published (stopRetryWait host d.session.world delay).2.history := .waited _ hd
    revert hwaited
    rcases stopRetryWait host d.session.world delay with ⟨_ | _, world⟩ <;> intro hwaited
    · exact hwaited
    · let d₁ : OrchestrationDriver ω := { d with session := { d.session with world } }
      have hhistory : (d₁.ask host.stop.stopRequested).2.history = d₁.history := rfl
      have hd₁ : Published d₁.history := hwaited
      dsimp only
      rw [if_neg (by simp)]
      revert hhistory
      rcases d₁.ask host.stop.stopRequested with ⟨_ | _, d₂⟩ <;> intro hhistory <;> dsimp only
      · have hresubscribed := @history_resubscribe _ host d₂
        revert hresubscribed
        rcases d₂.resubscribe host with ⟨error | _, d₃⟩ <;> intro hresubscribed
        · apply ih
          rw [hresubscribed, hhistory]
          exact hd₁
        · have hreported := @history_reportRuntimeHealth _ host
            (d₃.signal .resubscribed) .ready .ready none
          have hd₃ : Published d₃.history := by
            rw [hresubscribed, hhistory]
            exact hd₁
          dsimp only
          revert hreported
          rcases (d₃.signal .resubscribed).reportRuntimeHealth host .ready .ready none with
            ⟨_ | _, d₄⟩ <;> intro hreported
          all_goals
            dsimp only
            rw [hreported, history_signal]
            exact .resubscribed _ hd₃
      · rw [hhistory]
        exact hd₁

theorem published_recoverObserver (error : StructuredServiceError) (hd : Published d.history) :
    Published (d.recoverObserver host error).2.history := by
  have hreported := @history_reportRuntimeHealth _ host d .degraded observerFailed
    (some error)
  unfold recoverObserver
  revert hreported
  rcases d.reportRuntimeHealth host .degraded observerFailed (some error) with ⟨_ | _, d₁⟩ <;>
    intro hreported
  · dsimp only
    rw [hreported]
    exact .unready (by decide) _ hd
  · apply published_recoveryLoop
    rw [hreported]
    exact .unready (by decide) _ hd

theorem history_reportAndContinue (state : HealthState)
    (lastError : Option StructuredServiceError) :
    (d.reportAndContinue host state lastError).2.history = .reported state lastError :: d.history := by
  have hreported := @history_reportRuntimeHealth _ host d state .ready lastError
  unfold reportAndContinue
  revert hreported
  rcases d.reportRuntimeHealth host state .ready lastError with ⟨_ | _, d₁⟩ <;> exact id

theorem published_settle (outcome : Except HandlerError ProcessOutcome)
    (hd : Published d.history) : Published (d.settle host outcome).2.history := by
  unfold settle
  rcases outcome with (error | message) | outcome
  · dsimp only
    rw [history_reportAndContinue]
    exact .unready (by decide) _ hd
  · exact hd
  · cases outcome with
    | injected =>
      dsimp only
      rw [history_reportAndContinue, history_signal]
      exact .injected _ hd
    | rejected | retryExhausted =>
      dsimp only
      split
      · rw [history_reportAndContinue, history_signal]
        exact .unready (by decide) _ (.untrusted _ hd)
      · exact hd
    | skipped | deferred | duplicate | cancelled => exact hd

theorem published_handlePid (pid : ℕ) (announced : Bool) (hd : Published d.history) :
    Published (d.handlePid host pid announced).2.history := by
  have hprogress := progress_handlePidAt (@respects_published _ host) (s := d.session) pid
    (host.now d.attended.world)
  unfold handlePid
  apply published_settle
  exact published_of_progress hd hprogress

theorem published_handleNext (hd : Published d.history) :
    Published (d.handleNext host).2.history := by
  unfold handleNext
  dsimp only
  generalize (if d.snapshotPids.isEmpty then milliseconds 250 else 0) = eventWait
  have hasked : (d.ask (host.source.nextPid · eventWait)).2.history = d.history := rfl
  revert hasked
  rcases d.ask (host.source.nextPid · eventWait) with ⟨error | _ | pid, d₁⟩ <;> intro hasked <;>
    dsimp only
  · have hrecovered := @published_recoverObserver _ host d₁ error (hasked ▸ hd)
    revert hrecovered
    rcases d₁.recoverObserver host error with ⟨_ | _ | _, d₂⟩ <;> exact id
  · split
    · exact hasked ▸ hd
    · exact published_handlePid _ false (hasked ▸ hd)
  · exact published_handlePid pid true (hasked ▸ hd)

theorem published_pollDeferred (hd : Published d.history) :
    Published (d.pollDeferred host).2.history := by
  have hpolled := progress_pollDeferred (@respects_published _ host) (s := d.session)
    (host.now d.attended.world)
  unfold pollDeferred
  revert hpolled
  rcases d.session.pollDeferred host.environment (host.now d.attended.world) with ⟨polled, session⟩
  intro hpolled
  have hsession : Published ({ d with session } : OrchestrationDriver ω).history := by
    rcases hpolled with ⟨-, hworld⟩ | ⟨outcome, -, hprogress⟩
    · unfold history
      rw [hworld]
      exact hd
    · exact published_of_progress hd hprogress
  rcases polled with error | _ | outcome <;> dsimp only
  · exact published_settle _ hsession
  · exact published_handleNext hsession
  · split
    · exact published_handleNext hsession
    · exact published_settle _ hsession

theorem published_step (hd : Published d.history) : Published (d.step host).2.history := by
  have hasked : (d.ask (host.stop.waitTimeout · 0)).2.history = d.history := rfl
  unfold step
  revert hasked
  rcases d.ask (host.stop.waitTimeout · 0) with ⟨error | _ | _, d₁⟩ <;> intro hasked <;> dsimp only
  · exact hasked ▸ hd
  · apply published_pollDeferred
    rw [history_record, history_handleSessionChanges, hasked]
    exact hd
  · exact hasked ▸ hd

theorem published_run (turns : ℕ) (hd : Published d.history) :
    Published (run host turns d).2.history := by
  induction turns generalizing d with
  | zero => exact hd
  | succ turns ih =>
    have hstep := @published_step _ host _ hd
    unfold run
    revert hstep
    rcases d.step host with ⟨_ | _, d₁⟩ <;> intro hstep
    · exact ih hstep
    · exact hstep

/-- In every run of the driver, a result that cannot be trusted keeps it from reporting that it
is ready until an injection succeeds, exactly where the observer does not recover before that. -/
theorem run_sticky_iff (host : Surroundings ω) (servicePid : ℕ)
    (generationId profileDigest : String) (snapshotPids : List ℕ) (world : ω) (turns : ℕ) :
    let d := start servicePid generationId profileDigest snapshotPids world
    let history := (run host turns d).2.history
    StickyDegradation history ↔ ¬RecoveredWhileStanding history := by
  intro d history
  have hrun := @published_run _ host d turns .nil
  exact hrun.sticky_iff

end OrchestrationDriver

/-! ## A degradation that a recovery ends -/

/-- The first process is injected with a result that cannot be trusted; then the observer fails
and is subscribed to again. The world counts the processes the source is asked for. -/
def recoveringObserver : Surroundings ℕ where
  recovery := .default
  stop := {
    wait := fun w => (.ok (), w)
    waitTimeout := fun w _ => (.ok false, w)
    stopRequested := fun w => (false, w)
    takeSessionChanges := fun w => ([], w) }
  source := {
    subscribe := fun w => (.ok (), w)
    snapshotPids := fun w => (.ok [], w)
    nextPid := fun w _ =>
      (if w = 0 then .ok (some 42) else .error ⟨"etw-observer-stopped",
        "the ETW process observer stopped delivering events", none⟩, w + 1) }
  inspector := {
    inspect := fun w pid => (.ok ⟨⟨pid, 100, 2, .x64, false⟩, ⟨false, false, false,
      some "app.exe"⟩⟩, w)
    probeTargetLifecycle := fun w _ => (.running, w)
    probeTargetLiveness := fun w _ => (.alive, w)
    processBasename := fun w _ => (none, w)
    imageNameForOrdering := fun w _ => (none, w) }
  inject := fun w _ => (⟨.rejected, "helper-launch-failed-cleanup-unknown", none⟩, w)
  report := fun w _ _ _ _ => (.ok (), w)
  now := fun _ => 0
  currentFiletime := fun _ => none

/-- After two turns the driver reports that it is ready, with no injection in between. -/
theorem recovery_ends_degradation :
    ¬StickyDegradation (OrchestrationDriver.run recoveringObserver 2
      (.start 900 "generation" "digest" [] 0)).2.history := by
  intro h
  let error : StructuredServiceError := ⟨"injection-cleanup-unknown",
    "target result is not trustworthy: pid=42 creation_time=100 session_id=2 " ++
      "generation=generation broker_code=helper-launch-failed-cleanup-unknown", none⟩
  let lost : StructuredServiceError := ⟨"etw-observer-stopped",
    "the ETW process observer stopped delivering events", none⟩
  have hhistory : (OrchestrationDriver.run recoveringObserver 2
      (.start 900 "generation" "digest" [] 0)).2.history =
      [.reported .ready none, .resubscribed, .waited (.ok false),
        .reported .degraded (some lost), .reported .degraded (some error), .untrusted error] := by
    rfl
  refine h [] none _ hhistory ⟨[.resubscribed, .waited (.ok false),
    .reported .degraded (some lost), .reported .degraded (some error)], error, [], rfl, ?_⟩
  simp

end MacTypeControl.Host
