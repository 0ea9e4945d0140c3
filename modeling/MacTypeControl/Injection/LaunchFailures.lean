import MacTypeControl.Injection.NoneLost

/-!
# How often a launch failure is reported

The count of a deferred target is that of the launch failures reported for it, through any deferrals
for other reasons, and it bounds them.
-/

namespace MacTypeControl.Injection

open Tables

variable {ω : Type} {identity : ProcessIdentity} (env : Environment ω)

def IsLaunchFailure (identity : ProcessIdentity) : Observation → Bool
  | .returned asked _ _ result => asked = identity ∧ result.disposition = .launchFailed
  | _ => false

def launchFailures (identity : ProcessIdentity) (history : List Observation) : ℕ :=
  history.countP (IsLaunchFailure identity)

def IsRequest (identity : ProcessIdentity) : Observation → Bool
  | .asked asked _ => asked = identity
  | _ => false

def requests (identity : ProcessIdentity) (history : List Observation) : ℕ :=
  history.countP (IsRequest identity)

/-- The delay before a launch is tried again. -/
def launchDelay (policy : DeferralPolicy) (deferrals : ℕ) : ℕ :=
  let multiplier := if deferrals < 32 then 2 ^ deferrals else 2 ^ 32 - 1
  min (saturatingMul policy.launchInitialDelay multiplier) policy.launchMaxDelay

/-- Until the tables change, so many launch failures are reported, all for one identity. -/
structure Reports (identity : ProcessIdentity) (n : ℕ) (s s' : Session ω) : Prop where
  tables : SameTables s s'
  policy : s'.orchestrator.deferralPolicy = s.orchestrator.deferralPolicy
  failures : ∀ other, launchFailures other s'.history =
    launchFailures other s.history + if other = identity then n else 0
  requested : ∀ other, other ≠ identity → requests other s'.history = requests other s.history

/-- How a try ends, with the launch failures that were reported. -/
inductive Tried (identity : ProcessIdentity) (deferrals now : ℕ) (s : Session ω) :
    Session ω → Prop
  | recorded {s₁ : Session ω} {n : ℕ} (reports : Reports identity n s s₁) (atMost : n ≤ 1)
      (outcome : ProcessOutcome) (terminal : outcome.isTerminal = true)
      (failed : n = 1 → outcome = .rejected ∨ outcome = .skipped) (attempts : ℕ)
      (result : BrokerResult) :
      Tried identity deferrals now s (s₁.recordResult env identity outcome attempts result)
  | frozen {s₁ : Session ω} (reports : Reports identity 0 s s₁) (notBefore : ℕ) :
      Tried identity deferrals now s
        (s₁.insertDeferred env ⟨identity, .frozen, deferrals, notBefore⟩)
  | launchFailed {s₁ : Session ω} (reports : Reports identity 1 s s₁)
      (within : deferrals < s₁.orchestrator.deferralPolicy.launchMaxDeferrals) :
      Tried identity deferrals now s (s₁.insertDeferred env ⟨identity, .helperLaunchFailed,
        min (deferrals + 1) 255, now + launchDelay s₁.orchestrator.deferralPolicy deferrals⟩)

section

variable {s s₁ s₂ : Session ω}

theorem Reports.refl (identity : ProcessIdentity) (s : Session ω) : Reports identity 0 s s :=
  ⟨.refl s, rfl, fun _ => by simp, fun _ _ => rfl⟩

theorem Reports.trans {n m : ℕ} (h : Reports identity n s s₁) (h' : Reports identity m s₁ s₂) :
    Reports identity (n + m) s s₂ where
  tables := h.tables.trans h'.tables
  policy := h'.policy.trans h.policy
  failures other := by
    rw [h'.failures, h.failures]
    split_ifs <;> omega
  requested other hother := (h'.requested other hother).trans (h.requested other hother)

/-- A step that only observes what is no answer reports nothing. -/
theorem reports_of_history (identity : ProcessIdentity) (htables : SameTables s s₁)
    (hpolicy : s₁.orchestrator.deferralPolicy = s.orchestrator.deferralPolicy)
    (new : List Observation) (hhistory : s₁.history = new ++ s.history)
    (hnew : ∀ o ∈ new, ∀ other, IsLaunchFailure other o = false ∧ IsRequest other o = false) :
    Reports identity 0 s s₁ where
  tables := htables
  policy := hpolicy
  failures other := by
    have hnone : new.countP (IsLaunchFailure other) = 0 :=
      List.countP_eq_zero.mpr fun o ho => by simp [(hnew o ho other).1]
    simp [launchFailures, hhistory, hnone]
  requested other _ := by
    have hnone : new.countP (IsRequest other) = 0 :=
      List.countP_eq_zero.mpr fun o ho => by simp [(hnew o ho other).2]
    simp [requests, hhistory, hnone]

variable {env} in
theorem Tried.after {deferrals now : ℕ} (h : Reports identity 0 s s₁)
    (h' : Tried env identity deferrals now s₁ s₂) : Tried env identity deferrals now s s₂ := by
  cases h' with
  | recorded reports atMost outcome terminal failed attempts result =>
    exact .recorded (h.trans reports) (by omega) outcome terminal (fun hn => failed (by omega))
      attempts result
  | frozen reports notBefore => exact .frozen (h.trans reports) notBefore
  | launchFailed reports within => exact .launchFailed (h.trans reports) within

/-! ## One try -/

theorem reports_askBroker (identity : ProcessIdentity) (attempt deferrals : ℕ) :
    Reports identity
      (if (s.askBroker env identity attempt deferrals).1.disposition = .launchFailed then 1 else 0) s
      (s.askBroker env identity attempt deferrals).2 := by
  unfold Session.askBroker
  rcases env.inject s.world ⟨identity, s.orchestrator.generationId⟩ with ⟨answer, world⟩
  refine ⟨⟨rfl, rfl, rfl, rfl⟩, rfl, fun other => ?_, fun other hother => ?_⟩
  · simp only [launchFailures, List.countP_cons, IsLaunchFailure, Bool.false_eq_true, if_false,
      Nat.add_zero, decide_eq_true_eq]
    by_cases hother : other = identity
    · simp [hother]
    · simp [hother, Ne.symm hother]
  · simp [requests, IsRequest, Ne.symm hother]

theorem reports_probeLiveness (identity asked : ProcessIdentity) :
    Reports identity 0 s (s.probeLiveness env asked).2 :=
  reports_of_history identity ⟨rfl, rfl, rfl, rfl⟩ rfl [_] rfl
    (by simp [IsLaunchFailure, IsRequest])

theorem reports_waitForRetry (identity : ProcessIdentity) (delay : ℕ) :
    Reports identity 0 s (s.waitForRetry env delay).2 := by
  have htables := sameTables_waitForRetry (s := s) env delay
  unfold Session.waitForRetry at htables ⊢
  split <;> exact reports_of_history identity ⟨rfl, rfl, rfl, rfl⟩ rfl [] rfl (by simp)

theorem reports_reclassifyVanishedTarget (identity asked : ProcessIdentity)
    (outcome : ProcessOutcome) (result : BrokerResult) :
    Reports identity 0 s (s.reclassifyVanishedTarget env asked outcome result).2.2 := by
  unfold Session.reclassifyVanishedTarget
  split
  · exact .refl identity s
  · have hprobed := reports_probeLiveness (s := s) env identity asked
    revert hprobed
    rcases s.probeLiveness env asked with ⟨_ | _ | _, s₁⟩ <;> exact id

theorem tried_concludeAttempt {deferrals now : ℕ} (h : Reports identity 0 s s₁)
    {outcome : ProcessOutcome} (hterminal : outcome.isTerminal = true) (result : BrokerResult)
    (attempt : ℕ) :
    Tried env identity deferrals now s
      (s₁.concludeAttempt env identity outcome result attempt).2 := by
  have hcredited : Reports identity 0 s₁ (if outcome = .injected then
      { s₁ with orchestrator := s₁.orchestrator.recordInjectionSuccess identity } else s₁) := by
    split
    · obtain ⟨telemetry, htelemetry⟩ := recordInjectionSuccess_eq s₁.orchestrator identity
      rw [htelemetry]
      exact reports_of_history identity ⟨rfl, rfl, rfl, rfl⟩ rfl [] rfl (by simp)
    · exact .refl identity s₁
  unfold Session.concludeAttempt
  set s₂ := if outcome = .injected then
    { s₁ with orchestrator := s₁.orchestrator.recordInjectionSuccess identity } else s₁
  have hreclassified := reports_reclassifyVanishedTarget (s := s₂) env identity identity outcome result
  exact .recorded ((h.trans hcredited).trans hreclassified) (by omega) _
    (isTerminal_reclassifyVanishedTarget (s := s₂) env identity result hterminal) (by omega) _ _

theorem tried_handleLaunchFailure {deferrals : ℕ} (now : ℕ) (h : Reports identity 1 s s₁)
    (result : BrokerResult) (attempt : ℕ) :
    Tried env identity deferrals now s
      (s₁.handleLaunchFailure env identity deferrals now result attempt).2 := by
  have hprobed := reports_probeLiveness (s := s₁) env identity identity
  unfold Session.handleLaunchFailure
  revert hprobed
  rcases s₁.probeLiveness env identity with ⟨_ | _ | _, s₂⟩ <;> intro hprobed <;> dsimp only
  · split
    · exact .recorded (h.trans hprobed) le_rfl .rejected rfl (fun _ => Or.inl rfl) _ _
    · next hwithin =>
      have hpolicy : s₂.orchestrator.deferralPolicy = s₁.orchestrator.deferralPolicy :=
        hprobed.policy
      rw [← hpolicy] at hwithin ⊢
      exact .launchFailed (h.trans hprobed) (Nat.lt_of_not_le hwithin)
  · exact .recorded (h.trans hprobed) le_rfl .skipped rfl (fun _ => Or.inr rfl) _ _
  · split
    · exact .recorded (h.trans hprobed) le_rfl .rejected rfl (fun _ => Or.inl rfl) _ _
    · next hwithin =>
      have hpolicy : s₂.orchestrator.deferralPolicy = s₁.orchestrator.deferralPolicy :=
        hprobed.policy
      rw [← hpolicy] at hwithin ⊢
      exact .launchFailed (h.trans hprobed) (Nat.lt_of_not_le hwithin)

/-- An answer ends the try, unless it asks for one more attempt. -/
theorem tried_settleAnswer (deferrals now : ℕ) (result : BrokerResult)
    (h : Reports identity (if result.disposition = .launchFailed then 1 else 0) s s₁)
    (attempt : ℕ) (finalAttempt : Bool) :
    let settled := s₁.settleAnswer env identity deferrals now result attempt finalAttempt
    ((∃ outcome, settled.1 = some outcome) ∧ Tried env identity deferrals now s settled.2) ∨
      (settled = (none, s₁) ∧ finalAttempt = false ∧ Reports identity 0 s s₁) := by
  intro settled
  cases hd : result.disposition with
  | launchFailed =>
    rw [if_pos hd] at h
    left
    unfold settled Session.settleAnswer
    rw [hd]
    exact ⟨⟨_, rfl⟩, tried_handleLaunchFailure env now h result attempt⟩
  | targetFrozen =>
    rw [if_neg (by simp [hd])] at h
    left
    unfold settled Session.settleAnswer
    rw [hd]
    exact ⟨⟨_, rfl⟩, .frozen h _⟩
  | _ =>
    rw [if_neg (by simp [hd])] at h
    have hsettled : settled = settleTerminal env s₁ identity _ result attempt :=
      settleAnswer_terminal env s₁ identity deferrals now attempt finalAttempt (by simp [hd])
        (by simp [hd])
    rw [hsettled, hd]
    cases hterminal : terminalOutcome _ finalAttempt with
    | none =>
      right
      refine ⟨rfl, ?_, h⟩
      cases finalAttempt with
      | false => rfl
      | true => cases hterminal
    | some outcome =>
      left
      exact ⟨⟨_, rfl⟩, tried_concludeAttempt env h (isTerminal_of_terminalOutcome hterminal) result
        attempt⟩

theorem launchFailed_rejectUnsafeRetry (result : BrokerResult) :
    (rejectUnsafeRetry result).disposition = .launchFailed ↔ result.disposition = .launchFailed := by
  unfold rejectUnsafeRetry
  split
  · next hrejected => simp [hrejected.1]
  · exact Iff.rfl

/-- Only the last attempt of a try can report a launch failure. -/
theorem tried_attemptLoop {deferrals : ℕ} (now : ℕ) {left : ℕ} (hleft : 0 < left)
    (attempt delay : ℕ) (s : Session ω) :
    Tried env identity deferrals now s
      (Session.attemptLoop env identity deferrals now left attempt delay s).2 := by
  induction left generalizing attempt delay s with
  | zero => exact absurd hleft (lt_irrefl 0)
  | succ left ih =>
    unfold Session.attemptLoop
    have hasked := reports_askBroker (s := s) env identity attempt deferrals
    revert hasked
    rcases s.askBroker env identity attempt deferrals with ⟨answer, s₁⟩
    intro hasked
    dsimp only at hasked ⊢
    simp only [← launchFailed_rejectUnsafeRetry answer] at hasked
    have hsettle := tried_settleAnswer env deferrals now (rejectUnsafeRetry answer)
      hasked attempt (left == 0)
    revert hsettle
    rcases s₁.settleAnswer env identity deferrals now (rejectUnsafeRetry answer) attempt
      (left == 0) with ⟨_ | outcome, s₂⟩
    · rintro (⟨⟨outcome, houtcome⟩, -⟩ | ⟨hsame, hmore, hnone⟩)
      · cases houtcome
      · cases hsame
        have hpos : 0 < left := by
          have hne : left ≠ 0 := by simpa using hmore
          omega
        have hwait := reports_waitForRetry (s := s₁) env identity delay
        dsimp only
        revert hwait
        rcases s₁.waitForRetry env delay with ⟨_ | _, s₃⟩ <;> intro hwait
        · exact .recorded (hnone.trans hwait) (by omega) .cancelled rfl (by omega) _ _
        · exact Tried.after (hnone.trans hwait) (ih hpos _ _ _)
    · rintro (⟨-, htried⟩ | ⟨hsame, -⟩)
      · exact htried
      · cases hsame

theorem tried_attemptInjection (deferrals now : ℕ) :
    Tried env identity deferrals now s (s.attemptInjection env identity deferrals now).2 := by
  have hpos : 0 < s.orchestrator.attempts := by
    unfold InjectionOrchestrator.attempts
    omega
  exact tried_attemptLoop env now hpos _ _ s

/-! ## One event -/

/-- A validation defers a process that is frozen, and no other. -/
theorem reason_of_validate {servicePid pid : ℕ} {world world' : ω} {reason : DeferralReason}
    (h : validate env servicePid pid world = (.ok (.deferred identity reason), world')) :
    reason = .frozen := by
  unfold validate at h
  split at h
  · split at h <;> simp at h
  · split_ifs at h with hpid
    · exact absurd h (by simp)
    · split at h
      · exact absurd h (by simp)
      · split at h <;> simp at h
        exact h.1.2.symm

theorem reason_of_validateTarget {pid : ℕ} {reason : DeferralReason}
    (h : s.validateTarget env pid = (.ok (.deferred identity reason), s₁)) :
    reason = .frozen := by
  unfold Session.validateTarget at h
  rcases hdecision : validate env s.orchestrator.servicePid pid s.world with ⟨decision, world⟩
  rw [hdecision] at h
  exact reason_of_validate env (hdecision.trans (by rw [(Prod.mk.inj h).1]))

theorem reports_validateTarget (identity : ProcessIdentity) (pid : ℕ) :
    Reports identity 0 s (s.validateTarget env pid).2 :=
  reports_of_history identity ⟨rfl, rfl, rfl, rfl⟩ rfl [] rfl (by simp)

theorem reports_world (identity : ProcessIdentity) (world : ω) :
    Reports identity 0 s { s with world } :=
  reports_of_history identity ⟨rfl, rfl, rfl, rfl⟩ rfl [] rfl (by simp)

/-- A target that is looked at again is tried with its own count, unless the inspection fails. -/
theorem tried_revalidateDeferred (target : DeferredTarget) (now : ℕ) :
    Tried env target.identity target.deferrals now s (s.revalidateDeferred env target now).2 ∨
      (∃ error, (s.validateTarget env target.identity.pid).1 = .error error) ∧
        Reports target.identity 0 s (s.revalidateDeferred env target now).2 := by
  have hvalidated := reports_validateTarget (s := s) env target.identity target.identity.pid
  have hreason (identity : ProcessIdentity) (reason : DeferralReason) (s₁ : Session ω)
      (h : s.validateTarget env target.identity.pid = (.ok (.deferred identity reason), s₁)) :
      reason = .frozen := reason_of_validateTarget env h
  unfold Session.revalidateDeferred
  revert hvalidated hreason
  rcases s.validateTarget env target.identity.pid with
    ⟨error | ⟨identity⟩ | _ | ⟨identity, reason⟩, s₁⟩ <;> intro hvalidated hreason <;> dsimp only
  · exact Or.inr ⟨⟨error, rfl⟩, hvalidated⟩
  · left
    split
    · next heq => exact heq ▸ Tried.after (heq ▸ hvalidated) (tried_attemptInjection env _ now)
    · exact .recorded hvalidated (by omega) .skipped rfl (by omega) _ _
  · exact Or.inl (.recorded hvalidated (by omega) .skipped rfl (by omega) _ _)
  · left
    obtain rfl := hreason identity reason s₁ rfl
    split
    · next heq => exact heq ▸ .frozen (heq ▸ hvalidated) _
    · exact .recorded hvalidated (by omega) .skipped rfl (by omega) _ _

/-- The target is looked at again, and inspecting it fails. -/
def InspectionLost (s : Session ω) (target : DeferredTarget) : Prop :=
  ∃ world error, InspectedAgain env s target world ∧
    (validate env s.orchestrator.servicePid target.identity.pid world).1 = .error error

theorem tried_recheckDeferred (target : DeferredTarget) (now : ℕ) :
    Tried env target.identity target.deferrals now s (s.recheckDeferred env target now).2 ∨
      InspectionLost env s target ∧
        Reports target.identity 0 s (s.recheckDeferred env target now).2 := by
  unfold Session.recheckDeferred
  by_cases hfrozen : target.reason = .frozen
  · rw [if_pos hfrozen]
    cases hlifecycle : env.probeTargetLifecycle s.world target.identity with
    | mk lifecycle world =>
    have hworld := reports_world (s := s) target.identity world
    cases lifecycle with
    | running =>
      rcases tried_revalidateDeferred (s := { s with world }) env target now with
        htried | ⟨⟨error, herror⟩, hreports⟩
      · exact Or.inl (htried.after hworld)
      · refine Or.inr ⟨⟨world, error, ?_, herror⟩, hworld.trans hreports⟩
        unfold InspectedAgain
        rwa [if_pos hfrozen]
    | exiting => exact Or.inl (.recorded hworld (by omega) .skipped rfl (by omega) _ _)
    | frozen | unknown =>
      left
      have hsame : { target with notBefore := now +
          s.orchestrator.deferralPolicy.frozenRecheck } = (⟨target.identity, .frozen,
            target.deferrals, now + s.orchestrator.deferralPolicy.frozenRecheck⟩ :
              DeferredTarget) := by rw [← hfrozen]
      dsimp only
      rw [hsame]
      exact .frozen hworld _
  · rw [if_neg hfrozen]
    rcases tried_revalidateDeferred (s := s) env target now with
      htried | ⟨⟨error, herror⟩, hreports⟩
    · exact Or.inl htried
    · refine Or.inr ⟨⟨s.world, error, ?_, herror⟩, hreports⟩
      unfold InspectedAgain
      rw [if_neg hfrozen]

/-- A new process is passed over, or tried without a deferral before. -/
theorem tried_handlePidAt (pid now : ℕ) :
    (∀ identity, Reports identity 0 s (s.handlePidAt env pid now).2 ∧
      requests identity (s.handlePidAt env pid now).2.history = requests identity s.history) ∨
      ∃ identity, Unknown s.orchestrator identity ∧
        Tried env identity 0 now s (s.handlePidAt env pid now).2 := by
  have hnone {s' : Session ω} (htables : SameTables s s')
      (hpolicy : s'.orchestrator.deferralPolicy = s.orchestrator.deferralPolicy)
      (hhistory : s'.history = s.history) (identity : ProcessIdentity) :
      Reports identity 0 s s' ∧ requests identity s'.history = requests identity s.history :=
    ⟨reports_of_history identity htables hpolicy [] hhistory (by simp), by rw [hhistory]⟩
  have hsame : SameTables s ((s.setLastHandled none).validateTarget env pid).2 :=
    ⟨rfl, rfl, rfl, rfl⟩
  have hpolicy : ((s.setLastHandled none).validateTarget env pid).2.orchestrator.deferralPolicy =
    s.orchestrator.deferralPolicy := rfl
  have hhistory : ((s.setLastHandled none).validateTarget env pid).2.history = s.history := rfl
  have hreason (identity : ProcessIdentity) (reason : DeferralReason) (s₁ : Session ω)
      (h : (s.setLastHandled none).validateTarget env pid =
        (.ok (.deferred identity reason), s₁)) : reason = .frozen :=
    reason_of_validateTarget env h
  unfold Session.handlePidAt
  revert hsame hpolicy hhistory hreason
  rcases (s.setLastHandled none).validateTarget env pid with
    ⟨error | ⟨identity⟩ | ⟨reason⟩ | ⟨identity, reason⟩, s₁⟩ <;>
      intro hsame hpolicy hhistory hreason
  · exact Or.inl (hnone hsame hpolicy hhistory)
  · have hlast : SameTables s (s₁.setLastHandled identity.creationTime) :=
      hsame.trans ⟨rfl, rfl, rfl, rfl⟩
    dsimp only
    split
    · exact Or.inl (hnone hlast hpolicy hhistory)
    · next hfresh =>
      have hnew := unknown_of_not_contains hfresh
      rw [Unknown, hlast.processed, hlast.deferred] at hnew
      exact Or.inr ⟨identity, hnew,
        Tried.after (hnone hlast hpolicy hhistory identity).1 (tried_attemptInjection env 0 now)⟩
  · exact Or.inl (hnone (hsame.trans ⟨rfl, rfl, rfl, rfl⟩) hpolicy hhistory)
  · have hlast : SameTables s (s₁.setLastHandled identity.creationTime) :=
      hsame.trans ⟨rfl, rfl, rfl, rfl⟩
    obtain rfl := hreason identity reason s₁ rfl
    dsimp only
    split
    · exact Or.inl (hnone hlast hpolicy hhistory)
    · next hfresh =>
      have hnew := unknown_of_not_contains hfresh
      rw [Unknown, hlast.processed, hlast.deferred] at hnew
      exact Or.inr ⟨identity, hnew, .frozen (hnone hlast hpolicy hhistory identity).1 _⟩

end

end MacTypeControl.Injection
