import MacTypeControl.Injection.Orchestrator

/-!
# What makes a try end as cancelled

A relation between worlds that every question of the orchestrator keeps holds from the start
of a handler to its end. A handler that ends as cancelled stopped at a broker answer or at a
wait, and the world is the one that answer left.
-/

namespace MacTypeControl.Injection

open Tables

variable {ω : Type}

/-- The relation holds across every question, a wait that continues included. -/
structure Respects (env : Environment ω) (R : ω → ω → Prop) : Prop where
  refl : ∀ w, R w w
  trans : ∀ {w w₁ w₂}, R w w₁ → R w₁ w₂ → R w w₂
  inspect : ∀ w pid, R w (env.inspect w pid).2
  probeTargetLifecycle : ∀ w identity, R w (env.probeTargetLifecycle w identity).2
  probeTargetLiveness : ∀ w identity, R w (env.probeTargetLiveness w identity).2
  processBasename : ∀ w identity, R w (env.processBasename w identity).2
  inject : ∀ w request, R w (env.inject w request).2
  retryScheduler : ∀ wait, env.retryScheduler = some wait → ∀ w delay,
    (wait w delay).1 = true → R w (wait w delay).2

/-- The world is what a cancelled answer of the broker left, or a wait that does not continue. -/
inductive HaltedFrom (env : Environment ω) (R : ω → ω → Prop) (w : ω) : ω → Prop
  | broker {w₁ : ω} (reached : R w w₁) (request : InjectionRequest)
      (cancelled : (env.inject w₁ request).1.disposition = .cancelled) :
      HaltedFrom env R w (env.inject w₁ request).2
  | wait {w₁ : ω} (reached : R w w₁) {wait : ω → ℕ → Bool × ω}
      (scheduler : env.retryScheduler = some wait) (delay : ℕ)
      (stopped : (wait w₁ delay).1 = false) : HaltedFrom env R w (wait w₁ delay).2

/-- A handler ends as cancelled where it was halted, and nowhere else. -/
def Progress (env : Environment ω) (R : ω → ω → Prop) (w : ω)
    (outcome : Except HandlerError ProcessOutcome) (w' : ω) : Prop :=
  (outcome = .ok .cancelled ∧ HaltedFrom env R w w') ∨ (outcome ≠ .ok .cancelled ∧ R w w')

section

variable {env : Environment ω} {R : ω → ω → Prop} {s : Session ω}

theorem HaltedFrom.after (hR : Respects env R) {w w₁ w' : ω} (h : R w w₁)
    (h' : HaltedFrom env R w₁ w') : HaltedFrom env R w w' := by
  cases h' with
  | broker reached request cancelled => exact .broker (hR.trans h reached) request cancelled
  | wait reached scheduler delay stopped => exact .wait (hR.trans h reached) scheduler delay stopped

theorem Progress.after (hR : Respects env R) {w w₁ w' : ω}
    {outcome : Except HandlerError ProcessOutcome} (h : R w w₁)
    (h' : Progress env R w₁ outcome w') : Progress env R w outcome w' := by
  rcases h' with ⟨hcancelled, hhalted⟩ | ⟨hother, hreached⟩
  · exact Or.inl ⟨hcancelled, hhalted.after hR h⟩
  · exact Or.inr ⟨hother, hR.trans h hreached⟩

theorem Progress.goOn {w w' : ω} {outcome : ProcessOutcome} (hother : outcome ≠ .cancelled)
    (h : R w w') : Progress env R w (.ok outcome) w' :=
  Or.inr ⟨fun hcancelled => hother (Except.ok.inj hcancelled), h⟩

/-! ## The small steps -/

theorem world_trackKey (key : ProcessKey) : (s.trackKey key).world = s.world := by
  unfold Session.trackKey
  dsimp only
  split <;> rfl

theorem Respects.recordResult (hR : Respects env R) (identity : ProcessIdentity)
    (outcome : ProcessOutcome) (attempts : ℕ) (result : BrokerResult) :
    R s.world (s.recordResult env identity outcome attempts result).world := by
  have hworld := world_trackKey (s := s) identity.key
  unfold Session.recordResult
  dsimp only
  split
  · rw [← hworld]
    exact hR.processBasename _ identity
  · rw [hworld]
    exact hR.refl _

theorem world_recordResult_cancelled (identity : ProcessIdentity) (attempts : ℕ)
    (result : BrokerResult) :
    (s.recordResult env identity .cancelled attempts result).world = s.world := by
  have hworld := world_trackKey (s := s) identity.key
  unfold Session.recordResult
  exact hworld

theorem Respects.recordSkip (hR : Respects env R) (identity : ProcessIdentity) (code : String)
    (win32Error : Option ℕ) : R s.world (s.recordSkip env identity code win32Error).world :=
  hR.recordResult identity .skipped 0 ⟨.skipped, code, win32Error⟩

theorem Respects.evictDeferred (hR : Respects env R) (order : List ProcessKey) :
    R s.world (s.evictDeferred env order).world := by
  induction order with
  | nil => exact hR.refl _
  | cons oldest rest ih =>
    unfold Session.evictDeferred
    dsimp only
    split
    · split
      · next evicted _ =>
        let o := { s.orchestrator with
          deferred := s.orchestrator.deferred.erase oldest, deferredOrder := rest }
        exact hR.recordSkip (s := { s with orchestrator := o }) evicted.identity _ none
      · exact ih
    · exact hR.refl _

theorem Respects.insertDeferred (hR : Respects env R) (target : DeferredTarget) :
    R s.world (s.insertDeferred env target).world := by
  unfold Session.insertDeferred
  dsimp only
  split
  · exact hR.refl _
  · exact hR.evictDeferred _

theorem Respects.validateTarget (hR : Respects env R) (pid : ℕ) :
    R s.world (s.validateTarget env pid).2.world := by
  unfold Session.validateTarget
  have hvalidate : R s.world (validate env s.orchestrator.servicePid pid s.world).2 := by
    unfold validate
    have hinspect := hR.inspect s.world pid
    revert hinspect
    rcases env.inspect s.world pid with ⟨error | inspected, world⟩ <;> intro hinspect <;>
      dsimp only
    · split <;> exact hinspect
    · split
      · exact hinspect
      · split
        · exact hinspect
        · have hprobe := hR.probeTargetLifecycle world inspected.identity
          revert hprobe
          rcases env.probeTargetLifecycle world inspected.identity with ⟨lifecycle, world'⟩
          intro hprobe
          cases lifecycle <;> exact hR.trans hinspect hprobe
  exact hvalidate

/-! ## A try -/

theorem Progress.handleLaunchFailure (hR : Respects env R) (identity : ProcessIdentity)
    (deferrals now : ℕ) (result : BrokerResult) (attempt : ℕ) :
    let tried := s.handleLaunchFailure env identity deferrals now result attempt
    tried.1 ≠ .cancelled ∧ R s.world tried.2.world := by
  have hprobe := hR.probeTargetLiveness s.world identity
  unfold Session.handleLaunchFailure Session.probeLiveness
  revert hprobe
  rcases env.probeTargetLiveness s.world identity with ⟨liveness, world⟩
  intro hprobe
  let s₁ : Session ω := { s with world, history := .probed identity liveness :: s.history }
  have hskip : R s.world (s₁.recordSkip env identity targetVanishedResultCode
      result.win32Error).world := hR.trans hprobe (hR.recordSkip (s := s₁) _ _ _)
  have hreject : R s.world (s₁.recordResult env identity .rejected attempt result).world :=
    hR.trans hprobe (hR.recordResult (s := s₁) _ _ _ _)
  have hdefer : ∀ target, R s.world (s₁.insertDeferred env target).world := fun target =>
    hR.trans hprobe (hR.insertDeferred (s := s₁) target)
  cases liveness with
  | vanished => exact ⟨by simp, hskip⟩
  | alive =>
    dsimp only
    split
    · exact ⟨by simp, hreject⟩
    · exact ⟨by simp, hdefer _⟩
  | unknown =>
    dsimp only
    split
    · exact ⟨by simp, hreject⟩
    · exact ⟨by simp, hdefer _⟩

/-- Looking at a vanished target again neither makes nor undoes a cancellation. -/
theorem Respects.reclassifyVanishedTarget (hR : Respects env R) (identity : ProcessIdentity)
    (outcome : ProcessOutcome) (result : BrokerResult) :
    let again := s.reclassifyVanishedTarget env identity outcome result
    R s.world again.2.2.world ∧ (again.1 = .cancelled ↔ outcome = .cancelled) ∧
      (outcome = .cancelled → again.2.2.world = s.world) := by
  unfold Session.reclassifyVanishedTarget
  split
  · exact ⟨hR.refl _, Iff.rfl, fun _ => rfl⟩
  · next hdoubted =>
    have hother : outcome ≠ .cancelled := by
      rintro rfl
      exact hdoubted (Or.inl ⟨by simp, by simp⟩)
    have hprobe := hR.probeTargetLiveness s.world identity
    unfold Session.probeLiveness
    revert hprobe
    rcases env.probeTargetLiveness s.world identity with ⟨_ | _ | _, world⟩ <;> intro hprobe
    · exact ⟨hprobe, Iff.rfl, fun h => absurd h hother⟩
    · exact ⟨hprobe, iff_of_false (by simp) hother, fun h => absurd h hother⟩
    · exact ⟨hprobe, Iff.rfl, fun h => absurd h hother⟩

theorem world_concludeAttempt (hR : Respects env R) (identity : ProcessIdentity)
    (outcome : ProcessOutcome) (result : BrokerResult) (attempt : ℕ) :
    let concluded := s.concludeAttempt env identity outcome result attempt
    R s.world concluded.2.world ∧ (concluded.1 = .cancelled ↔ outcome = .cancelled) ∧
      (outcome = .cancelled → concluded.2.world = s.world) := by
  unfold Session.concludeAttempt
  let s₁ : Session ω := if outcome = .injected then
    { s with orchestrator := s.orchestrator.recordInjectionSuccess identity } else s
  have hworld : s₁.world = s.world := by
    dsimp only [s₁]
    split <;> rfl
  obtain ⟨hagain, hcancelled, hsame⟩ :=
    hR.reclassifyVanishedTarget (s := s₁) identity outcome result
  rw [hworld] at hagain hsame
  refine ⟨hR.trans hagain (hR.recordResult _ _ _ _), hcancelled, fun h => ?_⟩
  have hstill := hcancelled.2 h
  have hrecorded := @world_recordResult_cancelled _ env
    (s₁.reclassifyVanishedTarget env identity outcome result).2.2 identity attempt
    (s₁.reclassifyVanishedTarget env identity outcome result).2.1
  dsimp only
  rw [hstill, hrecorded, hsame h]

theorem progress_settleAnswer (hR : Respects env R) (identity : ProcessIdentity)
    (deferrals now : ℕ) (result : BrokerResult) (attempt : ℕ) (finalAttempt : Bool) :
    let settled := s.settleAnswer env identity deferrals now result attempt finalAttempt
    R s.world settled.2.world ∧ (settled.1 = some .cancelled ↔ result.disposition = .cancelled) ∧
      (settled.1 = some .cancelled → settled.2.world = s.world) := by
  have hconclude : ∀ outcome,
      let concluded := s.concludeAttempt env identity outcome result attempt
      R s.world concluded.2.world ∧ (some concluded.1 = some .cancelled ↔ outcome = .cancelled) ∧
        (some concluded.1 = some .cancelled → concluded.2.world = s.world) := by
    intro outcome
    obtain ⟨hreached, hcancelled, hsame⟩ := world_concludeAttempt hR (s := s) identity outcome
      result attempt
    refine ⟨hreached, ?_, fun h => hsame (hcancelled.1 (Option.some.inj h))⟩
    rw [Option.some.injEq]
    exact hcancelled
  unfold Session.settleAnswer
  rcases hdisposition : result.disposition with _ | _ | _ | _ | _ | _ | _ <;> dsimp only
  · simpa [terminalOutcome] using hconclude .injected
  · simpa [terminalOutcome] using hconclude .skipped
  · simpa [terminalOutcome] using hconclude .rejected
  · cases finalAttempt with
    | true => simpa [terminalOutcome] using hconclude .retryExhausted
    | false => exact ⟨hR.refl _, by simp [terminalOutcome], by simp [terminalOutcome]⟩
  · obtain ⟨hother, hreached⟩ := Progress.handleLaunchFailure hR (s := s) identity deferrals now
      result attempt
    exact ⟨hreached, by simpa using hother, fun h => absurd (Option.some.inj h) hother⟩
  · exact ⟨hR.insertDeferred _, by simp, by simp⟩
  · simpa [terminalOutcome] using hconclude .cancelled

theorem rejectUnsafeRetry_cancelled (result : BrokerResult) :
    (rejectUnsafeRetry result).disposition = .cancelled ↔ result.disposition = .cancelled := by
  unfold rejectUnsafeRetry
  split
  · next hpresent => exact iff_of_false (by simp) (by rw [hpresent.1]; simp)
  · exact Iff.rfl

/-- A wait for the next attempt, by the relation where it continues. -/
theorem waitForRetry_cases (hR : Respects env R) (delay : ℕ) :
    let waited := s.waitForRetry env delay
    (waited.1 = true ∧ R s.world waited.2.world) ∨
      (waited.1 = false ∧ HaltedFrom env R s.world waited.2.world) := by
  unfold Session.waitForRetry
  cases hscheduler : env.retryScheduler with
  | none => exact Or.inl ⟨rfl, hR.refl _⟩
  | some wait =>
    dsimp only
    cases hcontinued : (wait s.world delay).1 with
    | true => exact Or.inl ⟨rfl, hR.retryScheduler wait hscheduler _ _ hcontinued⟩
    | false => exact Or.inr ⟨rfl, .wait (hR.refl _) hscheduler delay hcontinued⟩

/-- The attempts stop as cancelled at an answer of the broker or at a wait. -/
theorem progress_attemptLoop (hR : Respects env R) (identity : ProcessIdentity)
    (deferrals now left attempt delay : ℕ) (s : Session ω) :
    let tried := Session.attemptLoop env identity deferrals now left attempt delay s
    Progress env R s.world tried.1 tried.2.world := by
  induction left generalizing attempt delay s with
  | zero => exact Or.inr ⟨by simp [Session.attemptLoop], hR.refl _⟩
  | succ left ih =>
    unfold Session.attemptLoop
    let request : InjectionRequest := ⟨identity, s.orchestrator.generationId⟩
    have hasked : R s.world (s.askBroker env identity attempt deferrals).2.world :=
      hR.inject s.world request
    have hbroker : (s.askBroker env identity attempt deferrals).1.disposition = .cancelled →
        HaltedFrom env R s.world (s.askBroker env identity attempt deferrals).2.world :=
      .broker (hR.refl _) request
    revert hasked hbroker
    rcases s.askBroker env identity attempt deferrals with ⟨answer, s₁⟩
    intro hasked hbroker
    dsimp only
    have hsettle := progress_settleAnswer hR (s := s₁) identity deferrals now
      (rejectUnsafeRetry answer) attempt (left == 0)
    revert hsettle
    rcases s₁.settleAnswer env identity deferrals now (rejectUnsafeRetry answer) attempt
      (left == 0) with ⟨_ | outcome, s₂⟩
    · rintro ⟨hsettled, -, -⟩
      refine Progress.after hR (hR.trans hasked hsettled) ?_
      have hwait := waitForRetry_cases hR (s := s₂) delay
      dsimp only
      revert hwait
      rcases s₂.waitForRetry env delay with ⟨_ | _, s₃⟩
      · rintro (⟨hcontinued, -⟩ | ⟨-, hhalted⟩)
        · cases hcontinued
        · refine Or.inl ⟨rfl, ?_⟩
          rw [world_recordResult_cancelled]
          exact hhalted
      · rintro (⟨-, hwaited⟩ | ⟨hstopped, -⟩)
        · exact Progress.after hR hwaited (ih _ _ s₃)
        · cases hstopped
    · rintro ⟨hsettled, hcancelled, hsame⟩
      dsimp only at hsettled hcancelled hsame ⊢
      rw [rejectUnsafeRetry_cancelled] at hcancelled
      by_cases houtcome : outcome = .cancelled
      · subst houtcome
        refine Or.inl ⟨rfl, ?_⟩
        rw [hsame rfl]
        exact hbroker (hcancelled.1 rfl)
      · exact Progress.goOn houtcome (hR.trans hasked hsettled)

theorem progress_attemptInjection (hR : Respects env R) (identity : ProcessIdentity)
    (deferrals now : ℕ) :
    let tried := s.attemptInjection env identity deferrals now
    Progress env R s.world tried.1 tried.2.world :=
  progress_attemptLoop hR identity deferrals now _ _ _ s

/-! ## The handlers -/

theorem progress_handlePidAt (hR : Respects env R) (pid now : ℕ) :
    let handled := s.handlePidAt env pid now
    Progress env R s.world handled.1 handled.2.world := by
  have hvalidated : R s.world ((s.setLastHandled none).validateTarget env pid).2.world :=
    hR.validateTarget (s := s.setLastHandled none) pid
  unfold Session.handlePidAt
  revert hvalidated
  rcases (s.setLastHandled none).validateTarget env pid with
    ⟨error | ⟨identity⟩ | ⟨reason⟩ | ⟨identity, reason⟩, s₁⟩ <;> intro hvalidated <;> dsimp only
  · exact Or.inr ⟨by simp, hvalidated⟩
  · split
    · exact .goOn (by simp) hvalidated
    · exact Progress.after hR hvalidated
        (progress_attemptInjection hR (s := s₁.setLastHandled identity.creationTime) identity 0 now)
  · exact .goOn (by simp) hvalidated
  · split
    · exact .goOn (by simp) hvalidated
    · have hdeferred := hR.insertDeferred (s := s₁.setLastHandled identity.creationTime)
        ⟨identity, reason, 0, now + s₁.orchestrator.deferralPolicy.frozenRecheck⟩
      exact .goOn (by simp) (hR.trans hvalidated hdeferred)

theorem progress_revalidateDeferred (hR : Respects env R) (target : DeferredTarget) (now : ℕ) :
    let again := s.revalidateDeferred env target now
    Progress env R s.world again.1 again.2.world := by
  have hvalidated := hR.validateTarget (s := s) target.identity.pid
  unfold Session.revalidateDeferred
  revert hvalidated
  rcases s.validateTarget env target.identity.pid with
    ⟨error | ⟨identity⟩ | ⟨reason⟩ | ⟨identity, reason⟩, s₁⟩ <;> intro hvalidated <;> dsimp only
  · exact Or.inr ⟨by simp, hvalidated⟩
  · split
    · exact Progress.after hR hvalidated (progress_attemptInjection hR identity _ now)
    · exact .goOn (by simp) (hR.trans hvalidated (hR.recordSkip _ _ _))
  · exact .goOn (by simp) (hR.trans hvalidated (hR.recordSkip _ _ _))
  · split
    · exact .goOn (by simp) (hR.trans hvalidated (hR.insertDeferred _))
    · exact .goOn (by simp) (hR.trans hvalidated (hR.recordSkip _ _ _))

theorem progress_recheckDeferred (hR : Respects env R) (target : DeferredTarget) (now : ℕ) :
    let again := s.recheckDeferred env target now
    Progress env R s.world again.1 again.2.world := by
  unfold Session.recheckDeferred
  split
  · have hprobe := hR.probeTargetLifecycle s.world target.identity
    revert hprobe
    rcases env.probeTargetLifecycle s.world target.identity with ⟨lifecycle, world⟩
    intro hprobe
    have hdefer : ∀ target, R s.world (({ s with world } : Session ω).insertDeferred env
        target).world := fun target => hR.trans hprobe (hR.insertDeferred (s := { s with world }) _)
    cases lifecycle with
    | running =>
      exact Progress.after hR hprobe
        (progress_revalidateDeferred hR (s := { s with world }) target now)
    | frozen => exact .goOn (by simp) (hdefer _)
    | exiting =>
      exact .goOn (by simp) (hR.trans hprobe (hR.recordSkip (s := { s with world }) _ _ _))
    | unknown => exact .goOn (by simp) (hdefer _)
  · exact progress_revalidateDeferred hR target now

/-- A poll ends as a cancelled handler does, or without a cancellation. -/
theorem progress_pollDeferred (hR : Respects env R) (now : ℕ) :
    let polled := s.pollDeferred env now
    (polled.1 = .ok none ∧ polled.2.world = s.world) ∨
      ∃ outcome, polled.1 = outcome.map some ∧ Progress env R s.world outcome polled.2.world := by
  unfold Session.pollDeferred
  dsimp only
  cases s.orchestrator.deferredOrder.find? (Session.isDue s.orchestrator now) with
  | none => exact Or.inl ⟨rfl, rfl⟩
  | some key =>
    dsimp only
    cases s.orchestrator.deferred.lookup key with
    | none => exact Or.inl ⟨rfl, rfl⟩
    | some target =>
      let o := { s.orchestrator with
        deferred := s.orchestrator.deferred.erase key
        deferredOrder := s.orchestrator.deferredOrder.erase key }
      exact Or.inr ⟨_, rfl,
        progress_recheckDeferred hR (s := { s with orchestrator := o }) target now⟩

end

end MacTypeControl.Injection
