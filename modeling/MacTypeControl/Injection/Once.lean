import MacTypeControl.Injection.Invariant

/-!
# At most one terminal injection for each process

The attempt loop and the three handlers keep the invariant, so every run does.
-/

namespace MacTypeControl.Injection

open Tables

variable {ω : Type} {limits : Limits} {s : Session ω} {identity : ProcessIdentity}
  (env : Environment ω)

theorem Sound.withWorld (h : Sound limits s) (world : ω) : Sound limits { s with world } :=
  ⟨h.tidy, h.kept.limits_eq, h.kept.wellKept, h.kept.recorded⟩

theorem Sound.withEvents (h : Sound limits s) (events : List HostEvent) :
    Sound limits { s with events } :=
  ⟨h.tidy, h.kept.limits_eq, h.kept.wellKept, h.kept.recorded⟩

theorem Sound.setLastHandled (h : Sound limits s) (creationTime : Option ℕ) :
    Sound limits (s.setLastHandled creationTime) :=
  ⟨⟨h.tidy.processedIndexed, h.tidy.deferredIndexed, h.tidy.deferredKey, h.tidy.disjoint⟩,
    h.kept.limits_eq, h.kept.wellKept, h.kept.recorded⟩

theorem Sound.validateTarget (h : Sound limits s) (pid : ℕ) :
    Sound limits (s.validateTarget env pid).2 :=
  h.withWorld _

theorem Sound.waitForRetry (h : Sound limits s) (delay : ℕ) :
    Sound limits (s.waitForRetry env delay).2 := by
  unfold Session.waitForRetry
  split
  · exact h
  · exact h.withWorld _

/-! ## One broker answer -/

/-- Probing settles at most the probed process, and only if it is gone. -/
theorem Kept.probeLiveness {exempt : ProcessIdentity → Prop} (h : Kept limits exempt s)
    (identity : ProcessIdentity) :
    Kept limits (fun i => exempt i ∨ (i = identity ∧ (s.probeLiveness env identity).1 = .vanished))
      (s.probeLiveness env identity).2 := by
  refine ⟨h.limits_eq, h.wellKept, fun i hi => ?_⟩
  rcases outstanding_probed hi with hgone | hi
  · exact Or.inl (Or.inr hgone)
  · exact (h.recorded i hi).imp_left Or.inl

theorem sound_handleLaunchFailure {deferrals : ℕ} (htidy : Tidy s.orchestrator)
    (hkept : Kept limits (fun i => i = identity ∧ limits.launchDeferrals ≤ deferrals) s)
    (hnew : Unknown s.orchestrator identity) (now : ℕ) (result : BrokerResult) (attempt : ℕ) :
    Sound limits (s.handleLaunchFailure env identity deferrals now result attempt).2 := by
  have hprobed := hkept.probeLiveness env identity
  have hpolicy : s.orchestrator.deferralPolicy.launchMaxDeferrals = limits.launchDeferrals := by
    rw [← hkept.limits_eq]
    rfl
  have hexempt : ∀ i, (i = identity ∧ limits.launchDeferrals ≤ deferrals) ∨
      (i = identity ∧ (s.probeLiveness env identity).1 = .vanished) → i = identity := by
    rintro i (⟨hi, -⟩ | ⟨hi, -⟩) <;> exact hi
  simp only [Session.handleLaunchFailure, hpolicy]
  rcases hprobe : s.probeLiveness env identity with ⟨liveness, s₁⟩
  have hsame : s₁.orchestrator = s.orchestrator := congrArg (·.2.orchestrator) hprobe.symm
  rw [hprobe] at hprobed hexempt
  rw [← hsame] at htidy hnew
  by_cases hgone : liveness = .vanished
  · subst hgone
    exact sound_recordResult env htidy (hprobed.mono hexempt) hnew _ _ _
  by_cases hlast : limits.launchDeferrals ≤ deferrals
  · have hreject := sound_recordResult env htidy (hprobed.mono hexempt) hnew .rejected attempt
      result
    cases liveness with
    | vanished => exact absurd rfl hgone
    | alive => simpa only [hlast, if_true] using hreject
    | unknown => simpa only [hlast, if_true] using hreject
  · have hs : Sound limits s₁ := by
      refine ⟨htidy, hprobed.mono ?_⟩
      rintro i (⟨-, hle⟩ | ⟨-, hv⟩)
      · exact hlast hle
      · exact hgone hv
    cases liveness with
    | vanished => exact absurd rfl hgone
    | alive =>
      simp only [hlast, if_false]
      exact sound_insertDeferred env hs hnew
    | unknown =>
      simp only [hlast, if_false]
      exact sound_insertDeferred env hs hnew

theorem recordInjectionSuccess_eq (o : InjectionOrchestrator) (identity : ProcessIdentity) :
    ∃ injectionTelemetry,
      o.recordInjectionSuccess identity = { o with injectionTelemetry } := by
  unfold InjectionOrchestrator.recordInjectionSuccess
  split
  · exact ⟨o.injectionTelemetry, rfl⟩
  · exact ⟨_, rfl⟩

/-- What is known of the session while one try is under way. -/
structure Trying (limits : Limits) (identity : ProcessIdentity) (s : Session ω) : Prop where
  tidy : Tidy s.orchestrator
  kept : Kept limits (· = identity) s
  unknown : Unknown s.orchestrator identity

theorem Trying.recordInjectionSuccess (h : Trying limits identity s) :
    Trying limits identity
      { s with orchestrator := s.orchestrator.recordInjectionSuccess identity } := by
  obtain ⟨telemetry, ht⟩ := recordInjectionSuccess_eq s.orchestrator identity
  rw [ht]
  exact ⟨⟨h.tidy.processedIndexed, h.tidy.deferredIndexed, h.tidy.deferredKey, h.tidy.disjoint⟩,
    ⟨h.kept.limits_eq, h.kept.wellKept, h.kept.recorded⟩, h.unknown⟩

theorem Trying.reclassifyVanishedTarget (h : Trying limits identity s) (outcome : ProcessOutcome)
    (result : BrokerResult) :
    Trying limits identity (s.reclassifyVanishedTarget env identity outcome result).2.2 := by
  have hprobed : Trying limits identity (s.probeLiveness env identity).2 := by
    refine ⟨h.tidy, (h.kept.probeLiveness env identity).mono ?_, h.unknown⟩
    rintro i (hi | ⟨hi, -⟩) <;> exact hi
  unfold Session.reclassifyVanishedTarget
  split
  · exact h
  · revert hprobed
    rcases s.probeLiveness env identity with ⟨_ | _ | _, s₁⟩ <;> exact id

/-- A terminal outcome is recorded, whatever a last probe says of the target. -/
theorem sound_concludeAttempt (h : Trying limits identity s) (outcome : ProcessOutcome)
    (result : BrokerResult) (attempt : ℕ) :
    Sound limits (s.concludeAttempt env identity outcome result attempt).2 := by
  have hcredited : Trying limits identity (if outcome = .injected then
      { s with orchestrator := s.orchestrator.recordInjectionSuccess identity } else s) := by
    split
    · exact h.recordInjectionSuccess
    · exact h
  have hlast := hcredited.reclassifyVanishedTarget env outcome result
  exact sound_recordResult env hlast.tidy hlast.kept hlast.unknown _ _ _

theorem rejectUnsafeRetry_cases (answer : BrokerResult) :
    (rejectUnsafeRetry answer = { answer with disposition := .rejected } ∧
      answer.disposition = .retryableFailure ∧ !safeToRetrySameIdentity answer.code) ∨
    (rejectUnsafeRetry answer = answer ∧
      (answer.disposition = .retryableFailure → safeToRetrySameIdentity answer.code)) := by
  unfold rejectUnsafeRetry
  split
  · exact Or.inl ⟨rfl, ‹_›⟩
  · next h =>
    refine Or.inr ⟨rfl, fun hr => ?_⟩
    simpa [hr] using h

/-- After an answer the try is over and sound, or the answer was a failure that
is safe to retry, attempts are left and nothing has changed. -/
theorem settleAnswer_cases {answer : BrokerResult} {attempt deferrals : ℕ} {finalAttempt : Bool}
    (htidy : Tidy s.orchestrator)
    (hkept : Kept limits
      (fun i => i = identity ∧ limits.isTerminal attempt deferrals answer) s)
    (hnew : Unknown s.orchestrator identity) (hfinal : finalAttempt = (attempt == limits.attempts))
    (now : ℕ) :
    let settled := s.settleAnswer env identity deferrals now (rejectUnsafeRetry answer) attempt
      finalAttempt
    ((∃ outcome, settled.1 = some outcome) ∧ Sound limits settled.2) ∨
      (settled = (none, s) ∧ Sound limits s ∧ answer.disposition = .retryableFailure ∧
        safeToRetrySameIdentity answer.code ∧ attempt ≠ limits.attempts) := by
  have htrying : Trying limits identity s := ⟨htidy, hkept.mono fun _ hi => hi.1, hnew⟩
  have hopen : limits.isTerminal attempt deferrals answer = false → Sound limits s := by
    intro hterm
    exact ⟨htidy, hkept.mono fun _ hi => by simp [hterm] at hi⟩
  intro settled
  have hconclude := sound_concludeAttempt env htrying
  rcases rejectUnsafeRetry_cases answer with ⟨hr, -, -⟩ | ⟨hr, hsafe⟩
  · left
    unfold settled
    rw [hr]
    exact ⟨⟨_, rfl⟩, hconclude .rejected _ _⟩
  unfold settled
  rw [hr]
  unfold Session.settleAnswer
  cases hd : answer.disposition with
  | launchFailed =>
    left
    refine ⟨⟨_, rfl⟩, sound_handleLaunchFailure env htidy (hkept.mono ?_) hnew _ _ _⟩
    simp [Limits.isTerminal, hd]
  | targetFrozen =>
    left
    have hs := hopen (by simp [Limits.isTerminal, hd])
    exact ⟨⟨_, rfl⟩, sound_insertDeferred env hs hnew⟩
  | injected => exact Or.inl ⟨⟨_, rfl⟩, hconclude .injected _ _⟩
  | skipped => exact Or.inl ⟨⟨_, rfl⟩, hconclude .skipped _ _⟩
  | rejected => exact Or.inl ⟨⟨_, rfl⟩, hconclude .rejected _ _⟩
  | cancelled => exact Or.inl ⟨⟨_, rfl⟩, hconclude .cancelled _ _⟩
  | retryableFailure =>
    have hsafe := hsafe hd
    by_cases hlast : attempt = limits.attempts
    · left
      have hfinal : finalAttempt = true := by simp [hfinal, hlast]
      subst hfinal
      exact ⟨⟨_, rfl⟩, hconclude .retryExhausted _ _⟩
    · right
      have hfinal : finalAttempt = false := by simp [hfinal, hlast]
      subst hfinal
      have hs := hopen (by simp [Limits.isTerminal, hd, hsafe, hlast])
      exact ⟨rfl, hs, rfl, hsafe, hlast⟩

/-! ## The attempt loop -/

theorem askBroker_kept (hs : Sound limits s) (hnew : Unknown s.orchestrator identity)
    {attempt : ℕ} (hfollows : FollowsRetry limits identity attempt s.history)
    (deferrals : ℕ) :
    let asked := s.askBroker env identity attempt deferrals
    Kept limits (fun i => i = identity ∧ limits.isTerminal attempt deferrals asked.1) asked.2 := by
  refine ⟨hs.kept.limits_eq, ⟨hfollows, ?_, hs.kept.wellKept⟩, fun i hi => ?_⟩
  · intro settled hsettled hkey
    rcases hs.kept.recorded settled hsettled with hfalse | hrec
    · exact hfalse
    · exact hnew.1 (hkey ▸ hrec.mem)
  · rcases outstanding_asked hi with hterm | hold
    · exact Or.inl hterm
    · exact (hs.kept.recorded i hold).imp_left False.elim

theorem sound_attemptLoop (deferrals now : ℕ) {left attempt : ℕ} (delay : ℕ)
    (hs : Sound limits s) (hnew : Unknown s.orchestrator identity)
    (hleft : attempt + left = limits.attempts + 1)
    (hfollows : attempt ≤ limits.attempts → FollowsRetry limits identity attempt s.history) :
    Sound limits (Session.attemptLoop env identity deferrals now left attempt delay s).2 := by
  induction left generalizing attempt delay s with
  | zero => exact hs
  | succ left ih =>
    have hkept := askBroker_kept env hs hnew (hfollows (by omega)) deferrals
    unfold Session.attemptLoop
    rcases hask : s.askBroker env identity attempt deferrals with ⟨answer, s₁⟩
    rw [hask] at hkept
    have hsame : s₁.orchestrator = s.orchestrator := congrArg (·.2.orchestrator) hask.symm
    have hhist : s₁.history = .returned identity attempt deferrals answer ::
        .asked identity attempt :: s.history := by
      rw [show s₁ = (s.askBroker env identity attempt deferrals).2 by rw [hask],
        show answer = (s.askBroker env identity attempt deferrals).1 by rw [hask]]
      rfl
    have htidy₁ : Tidy s₁.orchestrator := hsame ▸ hs.tidy
    have hnew₁ : Unknown s₁.orchestrator identity := hsame ▸ hnew
    have hfinal : (left == 0) = (attempt == limits.attempts) := by
      rw [Bool.eq_iff_iff, beq_iff_eq, beq_iff_eq]
      omega
    dsimp only
    rcases settleAnswer_cases env htidy₁ hkept hnew₁ hfinal now with
      ⟨⟨outcome, houtcome⟩, hsound⟩ | ⟨hnone, hs₁, hretry, hsafe, hlast⟩
    · rcases hsettled : s₁.settleAnswer env identity deferrals now (rejectUnsafeRetry answer)
        attempt (left == 0) with ⟨settled, s₂⟩
      rw [hsettled] at houtcome hsound
      obtain rfl : settled = some outcome := houtcome
      exact hsound
    · rw [hnone]
      dsimp only
      have hwait := hs₁.waitForRetry env delay
      have hsame₂ : (s₁.waitForRetry env delay).2.orchestrator = s₁.orchestrator ∧
          (s₁.waitForRetry env delay).2.history = s₁.history := by
        unfold Session.waitForRetry
        split <;> exact ⟨rfl, rfl⟩
      rcases hw : s₁.waitForRetry env delay with ⟨continued, s₂⟩
      rw [hw] at hwait hsame₂
      dsimp only at hwait hsame₂ ⊢
      have hnew₂ : Unknown s₂.orchestrator identity := hsame₂.1 ▸ hnew₁
      cases continued with
      | false =>
        exact sound_recordResult env hwait.tidy (hwait.kept.mono fun _ => False.elim) hnew₂ _ _ _
      | true =>
        apply ih _ hwait hnew₂ (by omega)
        intro hle
        refine ⟨by omega, hle, fun _ => ⟨deferrals, answer, s.history, ?_, hretry, hsafe⟩⟩
        rw [hsame₂.2, hhist]
        rfl

theorem sound_attemptInjection (hs : Sound limits s) (hnew : Unknown s.orchestrator identity)
    (deferrals now : ℕ) : Sound limits (s.attemptInjection env identity deferrals now).2 := by
  have hattempts : s.orchestrator.attempts = limits.attempts := by
    rw [← hs.kept.limits_eq]
    rfl
  have hpos : 1 ≤ limits.attempts := by
    rw [← hattempts]
    exact le_max_right _ _
  apply sound_attemptLoop env deferrals now _ hs hnew
  · rw [hattempts, Nat.add_comm]
  · intro hle
    exact ⟨le_refl 1, hle, fun h => absurd h (lt_irrefl 1)⟩

/-! ## The handlers -/

theorem sound_handlePidAt (hs : Sound limits s) (pid now : ℕ) :
    Sound limits (s.handlePidAt env pid now).2 := by
  have hvalid := (hs.setLastHandled none).validateTarget env pid
  unfold Session.handlePidAt
  revert hvalid
  rcases (s.setLastHandled none).validateTarget env pid with
    ⟨error | ⟨identity⟩ | ⟨reason⟩ | ⟨identity, reason⟩, s₁⟩ <;> intro hvalid
  · exact hvalid
  · have hlast := hvalid.setLastHandled (some identity.creationTime)
    dsimp only
    split
    · exact hlast
    · exact sound_attemptInjection env hlast (unknown_of_not_contains ‹_›) 0 now
  · exact hvalid.withEvents _
  · have hlast := hvalid.setLastHandled (some identity.creationTime)
    dsimp only
    split
    · exact hlast
    · exact sound_insertDeferred env hlast (unknown_of_not_contains ‹_›)

theorem sound_recordSkip (hs : Sound limits s) (hnew : Unknown s.orchestrator identity)
    (code : String) (win32Error : Option ℕ) :
    Sound limits (s.recordSkip env identity code win32Error) :=
  sound_recordResult env hs.tidy (hs.kept.mono fun _ => False.elim) hnew _ _ _

theorem sound_revalidateDeferred (hs : Sound limits s) {target : DeferredTarget}
    (hnew : Unknown s.orchestrator target.identity) (now : ℕ) :
    Sound limits (s.revalidateDeferred env target now).2 := by
  have hvalid := hs.validateTarget env target.identity.pid
  have hsame : (s.validateTarget env target.identity.pid).2.orchestrator = s.orchestrator := rfl
  unfold Session.revalidateDeferred
  revert hvalid hsame
  rcases s.validateTarget env target.identity.pid with
    ⟨error | ⟨identity⟩ | ⟨reason⟩ | ⟨identity, reason⟩, s₁⟩ <;> intro hvalid hsame
  · exact hvalid
  · rw [← hsame] at hnew
    dsimp only
    split
    · next heq => exact sound_attemptInjection env hvalid (heq ▸ hnew) _ now
    · exact sound_recordSkip env hvalid hnew _ _
  · exact sound_recordSkip env hvalid (hsame ▸ hnew) _ _
  · rw [← hsame] at hnew
    dsimp only
    split
    · next heq => exact sound_insertDeferred env hvalid (heq ▸ hnew)
    · exact sound_recordSkip env hvalid hnew _ _

theorem sound_recheckDeferred (hs : Sound limits s) {target : DeferredTarget}
    (hnew : Unknown s.orchestrator target.identity) (now : ℕ) :
    Sound limits (s.recheckDeferred env target now).2 := by
  unfold Session.recheckDeferred
  split
  · rcases env.probeTargetLifecycle s.world target.identity with ⟨_ | _ | _ | _, world⟩
    · exact sound_revalidateDeferred env (hs.withWorld world) hnew now
    · exact sound_insertDeferred env (hs.withWorld world) hnew
    · exact sound_recordSkip env (hs.withWorld world) hnew _ _
    · exact sound_insertDeferred env (hs.withWorld world) hnew
  · exact sound_revalidateDeferred env hs hnew now

theorem sound_pollDeferred (hs : Sound limits s) (now : ℕ) :
    Sound limits (s.pollDeferred env now).2 := by
  unfold Session.pollDeferred
  dsimp only
  split
  · exact hs
  next key hfind =>
  have hmem : key ∈ s.orchestrator.deferred :=
    (hs.tidy.deferredIndexed.mem_iff key).1 (List.mem_of_find?_eq_some hfind)
  obtain ⟨target, htarget⟩ := Option.isSome_iff_exists.1 (AList.lookup_isSome.2 hmem)
  have hkey := hs.tidy.deferredKey key target htarget
  let s₁ : Session ω := { s with orchestrator := { s.orchestrator with
    deferred := s.orchestrator.deferred.erase key
    deferredOrder := s.orchestrator.deferredOrder.erase key } }
  have hs₁ : Sound limits s₁ :=
    ⟨hs.tidy.dropDeferred (hs.tidy.deferredIndexed.remove key), hs.kept.limits_eq,
      hs.kept.wellKept, hs.kept.recorded⟩
  have hnew : Unknown s₁.orchestrator target.identity := by
    refine ⟨hkey ▸ hs.tidy.disjoint key hmem, ?_⟩
    rw [hkey]
    exact fun h => (AList.mem_erase.1 h).1 rfl
  simp only [htarget]
  exact sound_recheckDeferred env hs₁ hnew now

/-- A session change forgets exactly the identities it clears. -/
theorem sound_handleSessionChange (hs : Sound limits s) (change : SessionChange) :
    Sound limits (s.handleSessionChange change) := by
  have hrecorded : ∀ identity, Outstanding limits identity (.sessionChanged change :: s.history) →
      Recorded s.orchestrator identity ∧ ¬change.Clears identity := by
    intro identity hi
    rw [outstanding_sessionChanged] at hi
    exact ⟨(hs.kept.recorded identity hi.1).resolve_left id, hi.2⟩
  unfold Session.handleSessionChange
  dsimp only
  split
  · next hover =>
    refine ⟨⟨Indexed.empty, Indexed.empty, by simp, by simp⟩, hs.kept.limits_eq,
      hs.kept.wellKept, fun i hi => ?_⟩
    exact absurd (Or.inl hover) (hrecorded i hi).2
  split
  · next hends =>
    refine ⟨⟨hs.tidy.processedIndexed.retain _, hs.tidy.deferredIndexed.retain _, ?_, ?_⟩,
      hs.kept.limits_eq, hs.kept.wellKept, fun i hi => Or.inr ?_⟩
    · intro key target hlookup
      rw [Table.lookup_retain] at hlookup
      exact hs.tidy.deferredKey key target (Option.filter_eq_some_iff.1 hlookup).1
    · intro key hdeferred hprocessed
      exact hs.tidy.disjoint key (Table.mem_of_mem_retain hdeferred)
        (Table.mem_of_mem_retain hprocessed)
    · obtain ⟨⟨record, hlookup, hid⟩, hkeep⟩ := hrecorded i hi
      refine ⟨record, ?_, hid⟩
      rw [Table.lookup_retain, hlookup, Option.filter_eq_some_iff]
      refine ⟨rfl, ?_⟩
      rw [hid]
      simpa using fun h : i.sessionId = change.sessionId => hkeep (Or.inr ⟨hends, h⟩)
  · exact ⟨hs.tidy, hs.kept.limits_eq, hs.kept.wellKept, fun i hi => Or.inr (hrecorded i hi).1⟩

theorem Sound.handle (hs : Sound limits s) (event : Event) : Sound limits (s.handle env event) := by
  cases event with
  | newPid pid now => exact sound_handlePidAt env hs pid now
  | pollDeferred now => exact sound_pollDeferred env hs now
  | sessionChange change => exact sound_handleSessionChange hs change

theorem Sound.run (hs : Sound limits s) (events : List Event) :
    Sound limits (s.run env events) := by
  induction events generalizing s with
  | nil => exact hs
  | cons event events ih => exact ih (hs.handle env event)

theorem sound_start (servicePid : ℕ) (generationId : String) (profileDigest : Option String)
    (retryPolicy : RetryPolicy) (world : ω) :
    let o := InjectionOrchestrator.build servicePid generationId profileDigest retryPolicy
    Sound o.limits (Session.start o world) :=
  ⟨⟨Indexed.empty, Indexed.empty, by simp [InjectionOrchestrator.build, Session.start],
    by simp [InjectionOrchestrator.build, Session.start]⟩, rfl, trivial, fun _ h => h.elim⟩

/-- In every run, an identity with a terminal answer is not asked about again
until it is forgotten, and one try asks again only after a failure that is safe
to retry, at most `max maxAttempts 1` times. -/
theorem run_injects_once (servicePid : ℕ) (generationId : String) (profileDigest : Option String)
    (retryPolicy : RetryPolicy) (world : ω) (events : List Event) :
    let o := InjectionOrchestrator.build servicePid generationId profileDigest retryPolicy
    let limits : Limits := ⟨max retryPolicy.maxAttempts 1, o.deferralPolicy.launchMaxDeferrals⟩
    AtMostOneTerminal limits ((Session.start o world).run env events).history ∧
      RetriesAllowed limits ((Session.start o world).run env events).history := by
  intro o limits
  have hsound : Sound limits ((Session.start o world).run env events) :=
    (sound_start servicePid generationId profileDigest retryPolicy world).run env events
  exact ⟨hsound.kept.wellKept.atMostOneTerminal, hsound.kept.wellKept.retriesAllowed⟩

/-- A world with one ordinary process, whose injection succeeds. -/
def oneProcess (identity : ProcessIdentity) : Environment Unit where
  inspect _ _ := (.ok ⟨identity, ⟨false, false, false, some "target.exe"⟩⟩, ())
  probeTargetLifecycle _ _ := (.running, ())
  probeTargetLiveness _ _ := (.alive, ())
  processBasename _ _ := (none, ())
  inject _ _ := (⟨.injected, "module-loaded", none⟩, ())
  retryScheduler := none

/-- A policy of no attempts still asks the broker once. -/
theorem zero_attempts_ask_once :
    let identity : ProcessIdentity := ⟨42, 142, 1, .x64, false⟩
    let policy : RetryPolicy := { RetryPolicy.default with maxAttempts := 0 }
    let o := InjectionOrchestrator.build 900 "generation" none policy
    let history := ((Session.start o ()).run (oneProcess identity) [.newPid 42 0]).history
    history = [.returned identity 1 0 ⟨.injected, "module-loaded", none⟩, .asked identity 1] ∧
      ¬RetriesAllowed ⟨policy.maxAttempts, o.deferralPolicy.launchMaxDeferrals⟩ history := by
  intro identity policy o history
  have hhistory : history = [.returned identity 1 0 ⟨.injected, "module-loaded", none⟩,
      .asked identity 1] := rfl
  refine ⟨hhistory, fun h => ?_⟩
  have hfollows := h [_] identity 1 [] hhistory
  exact absurd hfollows.2.1 (by decide)

end MacTypeControl.Injection
