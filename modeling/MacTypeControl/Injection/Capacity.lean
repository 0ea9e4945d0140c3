import MacTypeControl.Injection.Once

/-!
# The size of the tables and what an eviction removes

The handling of a target ends in one change of the tables: a result is recorded,
or the target is deferred. Each makes room for itself by dropping the oldest entry.
-/

namespace MacTypeControl.Injection

open Tables

variable {ω : Type} {identity : ProcessIdentity} (env : Environment ω)

structure SameTables (s s' : Session ω) : Prop where
  processed : s'.orchestrator.processed = s.orchestrator.processed
  processOrder : s'.orchestrator.processOrder = s.orchestrator.processOrder
  deferred : s'.orchestrator.deferred = s.orchestrator.deferred
  deferredOrder : s'.orchestrator.deferredOrder = s.orchestrator.deferredOrder

def ProcessOutcome.isTerminal : ProcessOutcome → Bool
  | .injected | .skipped | .rejected | .retryExhausted | .cancelled => true
  | .deferred | .duplicate => false

/-- How the handling of a target ends: with a terminal result, or with a deferral. -/
inductive Concluded (identity : ProcessIdentity) (s : Session ω) : Session ω → Prop
  | recorded {s₁ : Session ω} (same : SameTables s s₁) (outcome : ProcessOutcome)
      (terminal : outcome.isTerminal = true) (attempts : ℕ) (result : BrokerResult) :
      Concluded identity s (s₁.recordResult env identity outcome attempts result)
  | deferred {s₁ : Session ω} (same : SameTables s s₁) (target : DeferredTarget)
      (of_identity : target.identity = identity) :
      Concluded identity s (s₁.insertDeferred env target)

section

variable {s s₁ s₂ : Session ω}

theorem SameTables.refl (s : Session ω) : SameTables s s := ⟨rfl, rfl, rfl, rfl⟩

theorem SameTables.trans (h : SameTables s s₁) (h' : SameTables s₁ s₂) : SameTables s s₂ :=
  ⟨h'.processed.trans h.processed, h'.processOrder.trans h.processOrder,
    h'.deferred.trans h.deferred, h'.deferredOrder.trans h.deferredOrder⟩

variable {env} in
theorem Concluded.after (h : SameTables s s₁) (h' : Concluded env identity s₁ s₂) :
    Concluded env identity s s₂ := by
  cases h' with
  | recorded same outcome terminal attempts result =>
    exact .recorded (h.trans same) outcome terminal attempts result
  | deferred same target of_identity => exact .deferred (h.trans same) target of_identity

theorem sameTables_probeLiveness (identity : ProcessIdentity) :
    SameTables s (s.probeLiveness env identity).2 := ⟨rfl, rfl, rfl, rfl⟩

theorem sameTables_validateTarget (pid : ℕ) : SameTables s (s.validateTarget env pid).2 :=
  ⟨rfl, rfl, rfl, rfl⟩

theorem sameTables_waitForRetry (delay : ℕ) : SameTables s (s.waitForRetry env delay).2 := by
  unfold Session.waitForRetry
  split <;> exact ⟨rfl, rfl, rfl, rfl⟩

theorem sameTables_recordInjectionSuccess (identity : ProcessIdentity) :
    SameTables s { s with orchestrator := s.orchestrator.recordInjectionSuccess identity } := by
  obtain ⟨telemetry, ht⟩ := recordInjectionSuccess_eq s.orchestrator identity
  rw [ht]
  exact ⟨rfl, rfl, rfl, rfl⟩

theorem sameTables_reclassifyVanishedTarget (identity : ProcessIdentity) (outcome : ProcessOutcome) (result : BrokerResult) :
    SameTables s (s.reclassifyVanishedTarget env identity outcome result).2.2 := by
  unfold Session.reclassifyVanishedTarget
  split
  · exact .refl s
  · have hprobed := sameTables_probeLiveness (s := s) env identity
    revert hprobed
    rcases s.probeLiveness env identity with ⟨_ | _ | _, s₁⟩ <;> exact id

theorem isTerminal_reclassifyVanishedTarget (identity : ProcessIdentity)
    {outcome : ProcessOutcome} (result : BrokerResult)
    (h : outcome.isTerminal = true) :
    (s.reclassifyVanishedTarget env identity outcome result).1.isTerminal = true := by
  unfold Session.reclassifyVanishedTarget
  split
  · exact h
  · rcases s.probeLiveness env identity with ⟨_ | _ | _, s₁⟩
    · exact h
    · rfl
    · exact h

/-! ## How the handlers end -/

theorem concluded_concludeAttempt (identity : ProcessIdentity) {outcome : ProcessOutcome}
    (h : outcome.isTerminal = true) (result : BrokerResult) (attempt : ℕ) :
    Concluded env identity s (s.concludeAttempt env identity outcome result attempt).2 := by
  have hcredited : SameTables s (if outcome = .injected then
      { s with orchestrator := s.orchestrator.recordInjectionSuccess identity } else s) := by
    split
    · exact sameTables_recordInjectionSuccess identity
    · exact .refl s
  unfold Session.concludeAttempt
  set s₁ := if outcome = .injected then
    { s with orchestrator := s.orchestrator.recordInjectionSuccess identity } else s
  have hsame := sameTables_reclassifyVanishedTarget (s := s₁) env identity outcome result
  have hterminal := isTerminal_reclassifyVanishedTarget (s := s₁) env identity result h
  exact .recorded (hcredited.trans hsame) _ hterminal _ _

theorem concluded_handleLaunchFailure (deferrals now : ℕ) (result : BrokerResult) (attempt : ℕ) :
    Concluded env identity s
      (s.handleLaunchFailure env identity deferrals now result attempt).2 := by
  have hprobed := sameTables_probeLiveness (s := s) env identity
  unfold Session.handleLaunchFailure
  revert hprobed
  rcases s.probeLiveness env identity with ⟨_ | _ | _, s₁⟩ <;> intro hprobed <;> dsimp only
  · split
    · exact .recorded hprobed .rejected rfl _ _
    · exact .deferred hprobed _ rfl
  · exact .recorded hprobed .skipped rfl _ _
  · split
    · exact .recorded hprobed .rejected rfl _ _
    · exact .deferred hprobed _ rfl

theorem isTerminal_of_terminalOutcome {disposition : BrokerDisposition} {finalAttempt : Bool}
    {outcome : ProcessOutcome} (h : terminalOutcome disposition finalAttempt = some outcome) :
    outcome.isTerminal = true := by
  cases disposition with
  | retryableFailure =>
    cases finalAttempt with
    | false => cases h
    | true =>
      cases h
      rfl
  | launchFailed => cases h
  | targetFrozen => cases h
  | _ =>
    cases h
    rfl

/-- The end of an attempt, where its answer has an outcome. -/
def settleTerminal (env : Environment ω) (s : Session ω) (identity : ProcessIdentity)
    (outcome : Option ProcessOutcome) (result : BrokerResult) (attempt : ℕ) :
    Option ProcessOutcome × Session ω :=
  match outcome with
  | none => (none, s)
  | some outcome => (some (s.concludeAttempt env identity outcome result attempt).1,
      (s.concludeAttempt env identity outcome result attempt).2)

theorem settleAnswer_terminal (env : Environment ω) (s : Session ω) (identity : ProcessIdentity)
    (deferrals now : ℕ) {result : BrokerResult} (attempt : ℕ) (finalAttempt : Bool)
    (hlaunch : result.disposition ≠ .launchFailed) (hfrozen : result.disposition ≠ .targetFrozen) :
    s.settleAnswer env identity deferrals now result attempt finalAttempt =
      settleTerminal env s identity (terminalOutcome result.disposition finalAttempt) result
        attempt := by
  unfold Session.settleAnswer settleTerminal
  cases hd : result.disposition with
  | launchFailed => exact absurd hd hlaunch
  | targetFrozen => exact absurd hd hfrozen
  | _ => rfl

/-- An answer settles the target, unless it asks for one more attempt. -/
theorem concluded_settleAnswer (identity : ProcessIdentity) (deferrals now : ℕ) (result : BrokerResult) (attempt : ℕ)
    (finalAttempt : Bool) :
    let settled := s.settleAnswer env identity deferrals now result attempt finalAttempt
    ((∃ outcome, settled.1 = some outcome) ∧ Concluded env identity s settled.2) ∨
      (settled = (none, s) ∧ finalAttempt = false) := by
  intro settled
  cases hd : result.disposition with
  | launchFailed =>
    left
    unfold settled Session.settleAnswer
    rw [hd]
    exact ⟨⟨_, rfl⟩, concluded_handleLaunchFailure env deferrals now result attempt⟩
  | targetFrozen =>
    left
    unfold settled Session.settleAnswer
    rw [hd]
    exact ⟨⟨_, rfl⟩, .deferred (.refl s) _ rfl⟩
  | _ =>
    have hsettled : settled = settleTerminal env s identity _ result attempt :=
      settleAnswer_terminal env s identity deferrals now attempt finalAttempt (by simp [hd])
        (by simp [hd])
    rw [hsettled, hd]
    cases hterminal : terminalOutcome _ finalAttempt with
    | none =>
      right
      refine ⟨rfl, ?_⟩
      cases finalAttempt with
      | false => rfl
      | true => cases hterminal
    | some outcome =>
      left
      have hc := concluded_concludeAttempt (s := s) env identity
        (isTerminal_of_terminalOutcome hterminal) result attempt
      exact ⟨⟨_, rfl⟩, hc⟩

/-- As long as an attempt is left, the loop ends with a conclusion. -/
theorem concluded_attemptLoop (deferrals now : ℕ) {left : ℕ} (hleft : 0 < left)
    (attempt delay : ℕ) (s : Session ω) :
    Concluded env identity s
      (Session.attemptLoop env identity deferrals now left attempt delay s).2 := by
  induction left generalizing attempt delay s with
  | zero => exact absurd hleft (lt_irrefl 0)
  | succ left ih =>
    unfold Session.attemptLoop
    have hasked : SameTables s (s.askBroker env identity attempt deferrals).2 :=
      ⟨rfl, rfl, rfl, rfl⟩
    revert hasked
    rcases s.askBroker env identity attempt deferrals with ⟨answer, s₁⟩
    intro hasked
    refine Concluded.after hasked ?_
    dsimp only
    have hsettle := concluded_settleAnswer (s := s₁) env identity deferrals now
      (rejectUnsafeRetry answer) attempt (left == 0)
    revert hsettle
    rcases s₁.settleAnswer env identity deferrals now (rejectUnsafeRetry answer) attempt
      (left == 0) with ⟨_ | outcome, s₂⟩
    · rintro (⟨⟨outcome, houtcome⟩, -⟩ | ⟨hsame, hmore⟩)
      · cases houtcome
      · cases hsame
        have hpos : 0 < left := by
          have hne : left ≠ 0 := by simpa using hmore
          omega
        have hwait := sameTables_waitForRetry (s := s₁) env delay
        dsimp only
        revert hwait
        rcases s₁.waitForRetry env delay with ⟨_ | _, s₃⟩ <;> intro hwait
        · exact .recorded hwait .cancelled rfl _ _
        · exact Concluded.after hwait (ih hpos _ _ _)
    · rintro (⟨-, hconcluded⟩ | ⟨hsame, -⟩)
      · exact hconcluded
      · cases hsame

theorem concluded_attemptInjection (deferrals now : ℕ) :
    Concluded env identity s (s.attemptInjection env identity deferrals now).2 := by
  have hpos : 0 < s.orchestrator.attempts := by
    unfold InjectionOrchestrator.attempts
    omega
  exact concluded_attemptLoop env deferrals now hpos _ _ s

/-- Where the target can be inspected, looking at it again concludes it. -/
theorem concluded_revalidateDeferred (target : DeferredTarget) (now : ℕ)
    {decision : ProcessTargetDecision}
    (h : (s.validateTarget env target.identity.pid).1 = .ok decision) :
    Concluded env target.identity s (s.revalidateDeferred env target now).2 := by
  have hsame := sameTables_validateTarget (s := s) env target.identity.pid
  unfold Session.revalidateDeferred
  revert h hsame
  rcases s.validateTarget env target.identity.pid with ⟨_ | ⟨identity⟩ | _ | ⟨identity, reason⟩, s₁⟩
  · intro h
    cases h
  · intro _ hsame
    dsimp only
    split
    · next heq => exact heq ▸ (concluded_attemptInjection env _ now).after hsame
    · exact .recorded hsame .skipped rfl _ _
  · intro _ hsame
    exact .recorded hsame .skipped rfl _ _
  · intro _ hsame
    dsimp only
    split
    · next heq => exact .deferred hsame _ heq
    · exact .recorded hsame .skipped rfl _ _

/-- What looking again at a due target needs of the inspection: where the target was
frozen, it is only inspected once it runs. -/
def InspectedAgain (s : Session ω) (target : DeferredTarget) (world : ω) : Prop :=
  if target.reason = .frozen then
    env.probeTargetLifecycle s.world target.identity = (.running, world)
  else world = s.world

theorem concluded_recheckDeferred (target : DeferredTarget) (now : ℕ)
    (h : ∀ world, InspectedAgain env s target world → ∃ decision,
      (validate env s.orchestrator.servicePid target.identity.pid world).1 = .ok decision) :
    Concluded env target.identity s (s.recheckDeferred env target now).2 := by
  unfold InspectedAgain at h
  unfold Session.recheckDeferred
  split at h
  · next hfrozen =>
    rw [if_pos hfrozen]
    have hworld : ∀ world, SameTables s { s with world } := fun _ => ⟨rfl, rfl, rfl, rfl⟩
    revert h
    rcases env.probeTargetLifecycle s.world target.identity with ⟨_ | _ | _ | _, world⟩ <;>
      intro h <;> dsimp only
    · obtain ⟨decision, hdecision⟩ := h world rfl
      have hagain := concluded_revalidateDeferred (s := { s with world }) env target now hdecision
      exact hagain.after (hworld world)
    · exact .deferred (hworld world) _ rfl
    · exact .recorded (hworld world) .skipped rfl _ _
    · exact .deferred (hworld world) _ rfl
  · next hlaunch =>
    rw [if_neg hlaunch]
    obtain ⟨decision, hdecision⟩ := h s.world rfl
    exact concluded_revalidateDeferred env target now hdecision

/-- An inspection that fails ends the revalidation before anything is recorded. -/
theorem sameTables_revalidateDeferred (target : DeferredTarget) (now : ℕ)
    {error : StructuredServiceError}
    (h : (s.validateTarget env target.identity.pid).1 = .error error) :
    SameTables s (s.revalidateDeferred env target now).2 := by
  have hsame := sameTables_validateTarget (s := s) env target.identity.pid
  unfold Session.revalidateDeferred
  revert h hsame
  rcases s.validateTarget env target.identity.pid with ⟨_ | _, s₁⟩
  · exact fun _ hsame => hsame
  · intro h
    cases h

theorem sameTables_recheckDeferred (target : DeferredTarget) (now : ℕ) {world : ω}
    {error : StructuredServiceError} (hworld : InspectedAgain env s target world)
    (h : (validate env s.orchestrator.servicePid target.identity.pid world).1 = .error error) :
    SameTables s (s.recheckDeferred env target now).2 := by
  unfold InspectedAgain at hworld
  unfold Session.recheckDeferred
  split at hworld
  · next hfrozen =>
    rw [if_pos hfrozen, hworld]
    have hsame := sameTables_revalidateDeferred (s := { s with world }) env target now h
    have hstart : SameTables s { s with world } := ⟨rfl, rfl, rfl, rfl⟩
    exact hstart.trans hsame
  · next hlaunch =>
    rw [if_neg hlaunch]
    subst hworld
    exact sameTables_revalidateDeferred env target now h

theorem concluded_or_same_recheckDeferred (target : DeferredTarget) (now : ℕ) :
    Concluded env target.identity s (s.recheckDeferred env target now).2 ∨
      SameTables s (s.recheckDeferred env target now).2 := by
  by_cases hfails : ∃ world error, InspectedAgain env s target world ∧
      (validate env s.orchestrator.servicePid target.identity.pid world).1 = .error error
  · obtain ⟨world, error, hworld, herror⟩ := hfails
    exact Or.inr (sameTables_recheckDeferred env target now hworld herror)
  · left
    apply concluded_recheckDeferred
    intro world hworld
    cases hdecision : (validate env s.orchestrator.servicePid target.identity.pid world).1 with
    | ok decision => exact ⟨decision, rfl⟩
    | error error => exact absurd ⟨world, error, hworld, hdecision⟩ hfails

end

/-! ## The tables -/

structure Bounded (o : InjectionOrchestrator) : Prop where
  processed : o.processOrder.length ≤ maxTrackedProcessResults
  deferred : o.deferredOrder.length ≤ maxDeferredTargets

/-- Both tables grew at the end of their queues and lost no more than their oldest entries. -/
structure TablesAdvanced (o o' : InjectionOrchestrator) : Prop where
  processed : Advanced maxTrackedProcessResults o.processOrder o.processed o'.processOrder
    o'.processed
  deferred : Advanced maxDeferredTargets o.deferredOrder o.deferred o'.deferredOrder o'.deferred

variable {s s₁ s' : Session ω}

theorem TablesAdvanced.of_same (hb : Bounded s.orchestrator) (h : SameTables s s') :
    TablesAdvanced s.orchestrator s'.orchestrator := by
  constructor
  · rw [h.processOrder, h.processed]
    exact .refl hb.processed
  · rw [h.deferredOrder, h.deferred]
    exact .refl hb.deferred

theorem TablesAdvanced.bounded {o o' : InjectionOrchestrator} (h : TablesAdvanced o o') :
    Bounded o' :=
  ⟨h.processed.length_le, h.deferred.length_le⟩

theorem Tidy.of_same (htidy : Tidy s.orchestrator) (h : SameTables s s₁) :
    Tidy s₁.orchestrator := by
  refine ⟨?_, ?_, ?_, ?_⟩
  · rw [h.processOrder, h.processed]
    exact htidy.processedIndexed
  · rw [h.deferredOrder, h.deferred]
    exact htidy.deferredIndexed
  · rw [h.deferred]
    exact htidy.deferredKey
  · rw [h.deferred, h.processed]
    exact htidy.disjoint

theorem Unknown.of_same (hnew : Unknown s.orchestrator identity) (h : SameTables s s₁) :
    Unknown s₁.orchestrator identity := by
  unfold Unknown
  rw [h.processed, h.deferred]
  exact hnew

theorem Bounded.of_same (hb : Bounded s.orchestrator) (h : SameTables s s₁) :
    Bounded s₁.orchestrator := by
  refine ⟨?_, ?_⟩
  · rw [h.processOrder]
    exact hb.processed
  · rw [h.deferredOrder]
    exact hb.deferred

theorem TablesAdvanced.after (h : SameTables s s₁)
    (h' : TablesAdvanced s₁.orchestrator s'.orchestrator) :
    TablesAdvanced s.orchestrator s'.orchestrator := by
  obtain ⟨hprocessed, hdeferred⟩ := h'
  rw [h.processOrder, h.processed] at hprocessed
  rw [h.deferredOrder, h.deferred] at hdeferred
  exact ⟨hprocessed, hdeferred⟩

theorem lookup_recordResult (identity : ProcessIdentity) (outcome : ProcessOutcome)
    (attempts : ℕ) (result : BrokerResult) :
    ∃ record, (s.recordResult env identity outcome attempts result).orchestrator.processed.lookup
      identity.key = some record ∧ record.identity = identity ∧ record.outcome = outcome :=
  ⟨_, AList.lookup_insert _, rfl, rfl⟩

theorem advanced_recordResult (htidy : Tidy s.orchestrator)
    (hnew : identity.key ∉ s.orchestrator.processed) (outcome : ProcessOutcome) (attempts : ℕ)
    (result : BrokerResult) :
    let s' := s.recordResult env identity outcome attempts result
    Advanced maxTrackedProcessResults s.orchestrator.processOrder s.orchestrator.processed
        s'.orchestrator.processOrder s'.orchestrator.processed ∧
      s'.orchestrator.deferred = s.orchestrator.deferred ∧
      s'.orchestrator.deferredOrder = s.orchestrator.deferredOrder := by
  have hk : identity.key ∉ s.orchestrator.processed.keys := hnew
  have hpos : 0 < maxTrackedProcessResults := by decide
  have hpush := fun v => Advanced.evictOldest_pushBack hpos htidy.processedIndexed hnew v
  simp only [Session.recordResult, Session.trackKey, hk, if_false]
  exact ⟨hpush _, trivial, trivial⟩

/-- A target is deferred behind the others; where there is no room for it, the oldest one is
recorded as skipped and leaves. -/
theorem insertDeferred_cases (htidy : Tidy s.orchestrator) {target : DeferredTarget}
    (hnew : Unknown s.orchestrator target.identity) :
    (s.orchestrator.deferredOrder.length < maxDeferredTargets ∧
      s.insertDeferred env target = { s with orchestrator := { s.orchestrator with
        deferred := s.orchestrator.deferred.insert target.identity.key target
        deferredOrder := s.orchestrator.deferredOrder ++ [target.identity.key] } }) ∨
    ∃ oldest rest evicted, maxDeferredTargets ≤ s.orchestrator.deferredOrder.length ∧
      s.orchestrator.deferredOrder = oldest :: rest ∧
      s.orchestrator.deferred.lookup oldest = some evicted ∧ evicted.identity.key = oldest ∧
      let s₂ : Session ω := { s with orchestrator := { s.orchestrator with
        deferred := s.orchestrator.deferred.erase oldest, deferredOrder := rest } }
      let s₃ := s₂.recordSkip env evicted.identity deferralCapacityExhaustedCode none
      s.insertDeferred env target = { s₃ with orchestrator := { s₃.orchestrator with
        deferred := s₃.orchestrator.deferred.insert target.identity.key target
        deferredOrder := s₃.orchestrator.deferredOrder ++ [target.identity.key] } } := by
  have hidx := htidy.deferredIndexed
  have hkey : target.identity.key ∉ s.orchestrator.deferredOrder := fun h =>
    hnew.2 ((hidx.mem_iff _).1 h)
  have horder : s.orchestrator.deferredOrder.filter (· ≠ target.identity.key) =
      s.orchestrator.deferredOrder := by
    rw [List.filter_eq_self]
    intro key hmem
    simpa using fun he : key = target.identity.key => hkey (he ▸ hmem)
  have hk : target.identity.key ∉ s.orchestrator.deferred.keys := hnew.2
  have hsize := hidx.length_eq
  simp only [Session.insertDeferred, horder, hk, if_false]
  cases hqueue : s.orchestrator.deferredOrder with
  | nil =>
    left
    refine ⟨by decide, ?_⟩
    unfold Session.evictDeferred
    rfl
  | cons oldest rest =>
    rw [hqueue] at hidx hsize
    by_cases hfull : maxDeferredTargets ≤ s.orchestrator.deferred.size
    · right
      have hmem : oldest ∈ s.orchestrator.deferred := (hidx.mem_iff oldest).1 List.mem_cons_self
      obtain ⟨evicted, hevicted⟩ := Option.isSome_iff_exists.1 (AList.lookup_isSome.2 hmem)
      refine ⟨oldest, rest, evicted, by omega, rfl, hevicted,
        htidy.deferredKey oldest evicted hevicted, ?_⟩
      simp only [Session.evictDeferred, hfull, if_true, hevicted]
    · left
      refine ⟨by omega, ?_⟩
      simp only [Session.evictDeferred, hfull, if_false]

theorem advanced_insertDeferred (htidy : Tidy s.orchestrator) (hb : Bounded s.orchestrator)
    {target : DeferredTarget} (hnew : Unknown s.orchestrator target.identity) :
    TablesAdvanced s.orchestrator (s.insertDeferred env target).orchestrator := by
  have hidx := htidy.deferredIndexed
  have hkey : target.identity.key ∉ s.orchestrator.deferredOrder := fun h =>
    hnew.2 ((hidx.mem_iff _).1 h)
  rcases insertDeferred_cases env htidy hnew with
    ⟨hroom, hinsert⟩ | ⟨oldest, rest, evicted, hfull, hqueue, hevicted, holdest, hinsert⟩
  · rw [hinsert]
    exact ⟨.refl hb.processed, .pushBack hroom hkey target⟩
  · have hmem : oldest ∈ s.orchestrator.deferred := Table.mem_of_lookup hevicted
    have hfresh : evicted.identity.key ∉ s.orchestrator.processed :=
      htidy.disjoint _ (holdest ▸ hmem)
    have hexact : s.orchestrator.deferredOrder.length = maxDeferredTargets :=
      le_antisymm hb.deferred hfull
    rw [hqueue] at hidx hkey hexact
    let s₂ : Session ω := { s with orchestrator := { s.orchestrator with
      deferred := s.orchestrator.deferred.erase oldest, deferredOrder := rest } }
    have htidy₂ : Tidy s₂.orchestrator := htidy.dropDeferred hidx.popFront
    obtain ⟨hprocessed, hdeferred, hdeferredOrder⟩ := advanced_recordResult env (s := s₂) htidy₂
      hfresh .skipped 0 ⟨.skipped, deferralCapacityExhaustedCode, none⟩
    rw [hinsert]
    refine ⟨hprocessed, ?_⟩
    dsimp only [Session.recordSkip]
    rw [hdeferred, hdeferredOrder, hqueue]
    exact .popFront_pushBack hidx hexact (fun h => hkey (List.mem_cons_of_mem _ h)) target

theorem Concluded.advanced (h : Concluded env identity s s') (htidy : Tidy s.orchestrator)
    (hb : Bounded s.orchestrator) (hnew : Unknown s.orchestrator identity) :
    TablesAdvanced s.orchestrator s'.orchestrator := by
  cases h with
  | recorded same outcome terminal attempts result =>
    obtain ⟨hprocessed, hdeferred, hdeferredOrder⟩ := advanced_recordResult env
      (htidy.of_same same) (hnew.of_same same).1 outcome attempts result
    refine TablesAdvanced.after same ⟨hprocessed, ?_⟩
    rw [hdeferred, hdeferredOrder]
    exact .refl (hb.of_same same).deferred
  | deferred same target of_identity =>
    refine TablesAdvanced.after same ?_
    exact advanced_insertDeferred env (htidy.of_same same) (hb.of_same same)
      (of_identity ▸ hnew.of_same same)

/-! ## The events -/

theorem advanced_handlePidAt {limits : Limits} (hs : Sound limits s)
    (hb : Bounded s.orchestrator) (pid now : ℕ) :
    TablesAdvanced s.orchestrator (s.handlePidAt env pid now).2.orchestrator := by
  have hsame : SameTables s ((s.setLastHandled none).validateTarget env pid).2 :=
    ⟨rfl, rfl, rfl, rfl⟩
  unfold Session.handlePidAt
  revert hsame
  rcases (s.setLastHandled none).validateTarget env pid with
    ⟨error | ⟨identity⟩ | ⟨reason⟩ | ⟨identity, reason⟩, s₁⟩ <;> intro hsame
  · exact .of_same hb hsame
  · have hlast : SameTables s (s₁.setLastHandled identity.creationTime) :=
      hsame.trans ⟨rfl, rfl, rfl, rfl⟩
    dsimp only
    split
    · exact .of_same hb hlast
    · next hfresh =>
      have hnew := unknown_of_not_contains hfresh
      have hconcluded : Concluded env identity _ _ := concluded_attemptInjection
        (s := s₁.setLastHandled identity.creationTime) env 0 now
      have hattempt := hconcluded.advanced env (hs.tidy.of_same hlast) (hb.of_same hlast) hnew
      exact hattempt.after hlast
  · exact .of_same hb (hsame.trans ⟨rfl, rfl, rfl, rfl⟩)
  · have hlast : SameTables s (s₁.setLastHandled identity.creationTime) :=
      hsame.trans ⟨rfl, rfl, rfl, rfl⟩
    dsimp only
    split
    · exact .of_same hb hlast
    · next hfresh =>
      have hnew := unknown_of_not_contains hfresh
      exact (advanced_insertDeferred env (hs.tidy.of_same hlast) (hb.of_same hlast) hnew).after
        hlast

/-- The tables without the target that is due, if there is one. -/
def InjectionOrchestrator.takeDue (o : InjectionOrchestrator) (now : ℕ) :
    InjectionOrchestrator :=
  match o.deferredOrder.find? (Session.isDue o now) with
  | none => o
  | some key => { o with
      deferred := o.deferred.erase key, deferredOrder := o.deferredOrder.erase key }

/-- What a poll does: nothing is due, or one target is taken out and looked at again. -/
theorem pollDeferred_cases {limits : Limits} (hs : Sound limits s) (now : ℕ) :
    (s.orchestrator.deferredOrder.find? (Session.isDue s.orchestrator now) = none ∧
      (s.pollDeferred env now).2 = s) ∨
    ∃ key target, s.orchestrator.deferredOrder.find? (Session.isDue s.orchestrator now) = some key ∧
      s.orchestrator.deferred.lookup key = some target ∧ target.identity.key = key ∧
      let s₁ := { s with orchestrator := s.orchestrator.takeDue now }
      Tidy s₁.orchestrator ∧ Unknown s₁.orchestrator target.identity ∧
        (s.pollDeferred env now).2 = (s₁.recheckDeferred env target now).2 := by
  unfold Session.pollDeferred InjectionOrchestrator.takeDue
  cases hfind : s.orchestrator.deferredOrder.find? (Session.isDue s.orchestrator now) with
  | none =>
    left
    refine ⟨rfl, ?_⟩
    dsimp only
    rw [hfind]
  | some key =>
    right
    have hmem : key ∈ s.orchestrator.deferred :=
      (hs.tidy.deferredIndexed.mem_iff key).1 (List.mem_of_find?_eq_some hfind)
    obtain ⟨target, htarget⟩ := Option.isSome_iff_exists.1 (AList.lookup_isSome.2 hmem)
    have hkey := hs.tidy.deferredKey key target htarget
    refine ⟨key, target, rfl, htarget, hkey,
      hs.tidy.dropDeferred (hs.tidy.deferredIndexed.remove key), ?_, ?_⟩
    · refine ⟨hkey ▸ hs.tidy.disjoint key hmem, ?_⟩
      rw [hkey]
      exact fun h => (AList.mem_erase.1 h).1 rfl
    · dsimp only
      rw [hfind]
      dsimp only
      rw [htarget]

theorem Bounded.takeDue {o : InjectionOrchestrator} (hb : Bounded o) (now : ℕ) :
    Bounded (o.takeDue now) := by
  unfold InjectionOrchestrator.takeDue
  split
  · exact hb
  · exact ⟨hb.processed, le_trans List.length_erase_le hb.deferred⟩

theorem advanced_pollDeferred {limits : Limits} (hs : Sound limits s)
    (hb : Bounded s.orchestrator) (now : ℕ) :
    TablesAdvanced (s.orchestrator.takeDue now) (s.pollDeferred env now).2.orchestrator := by
  rcases pollDeferred_cases env hs now with
    ⟨hnone, hsame⟩ | ⟨key, target, -, -, -, htidy, hnew, hpoll⟩
  · rw [hsame]
    unfold InjectionOrchestrator.takeDue
    rw [hnone]
    exact .of_same hb (.refl s)
  · rw [hpoll]
    -- An inspection that fails leaves the tables as they are.
    rcases concluded_or_same_recheckDeferred (s := { s with
      orchestrator := s.orchestrator.takeDue now }) env target now with hconcluded | hsame
    · exact hconcluded.advanced env htidy (hb.takeDue now) hnew
    · exact .of_same (s := { s with orchestrator := s.orchestrator.takeDue now })
        (hb.takeDue now) hsame

/-- How an event may change the tables: it can only be a session change that takes entries
out of their middle, apart from the due target that a poll takes. -/
def EventAdvances (o o' : InjectionOrchestrator) : Event → Prop
  | .newPid _ _ => TablesAdvanced o o'
  | .pollDeferred now => TablesAdvanced (o.takeDue now) o'
  | .sessionChange _ => o'.processOrder.Sublist o.processOrder ∧
      o'.deferredOrder.Sublist o.deferredOrder

theorem eventAdvances_handle {limits : Limits} (hs : Sound limits s)
    (hb : Bounded s.orchestrator) (event : Event) :
    EventAdvances s.orchestrator (s.handle env event).orchestrator event := by
  cases event with
  | newPid pid now => exact advanced_handlePidAt env hs hb pid now
  | pollDeferred now => exact advanced_pollDeferred env hs hb now
  | sessionChange change =>
    unfold EventAdvances Session.handle Session.handleSessionChange
    dsimp only
    split
    · exact ⟨List.nil_sublist _, List.nil_sublist _⟩
    split
    · exact ⟨List.filter_sublist, List.filter_sublist⟩
    · exact ⟨List.Sublist.refl _, List.Sublist.refl _⟩

theorem Bounded.handle {limits : Limits} (hs : Sound limits s) (hb : Bounded s.orchestrator)
    (event : Event) : Bounded (s.handle env event).orchestrator := by
  have h := eventAdvances_handle env hs hb event
  cases event with
  | newPid pid now => exact h.bounded
  | pollDeferred now => exact h.bounded
  | sessionChange change =>
    exact ⟨le_trans h.1.length_le hb.processed, le_trans h.2.length_le hb.deferred⟩

theorem Bounded.run {limits : Limits} (hs : Sound limits s) (hb : Bounded s.orchestrator)
    (events : List Event) : Bounded (s.run env events).orchestrator := by
  induction events generalizing s with
  | nil => exact hb
  | cons event events ih => exact ih (hs.handle env event) (hb.handle env hs event)

/-- What holds of the tables between two events. -/
structure TablesInStep (o : InjectionOrchestrator) : Prop where
  processed : Indexed o.processOrder o.processed
  deferred : Indexed o.deferredOrder o.deferred
  disjoint : ∀ key, ¬(key ∈ o.processed ∧ key ∈ o.deferred)
  processedSize : o.processed.size ≤ maxTrackedProcessResults
  deferredSize : o.deferred.size ≤ maxDeferredTargets

theorem tablesInStep_of_sound {limits : Limits} (hs : Sound limits s)
    (hb : Bounded s.orchestrator) : TablesInStep s.orchestrator where
  processed := hs.tidy.processedIndexed
  deferred := hs.tidy.deferredIndexed
  disjoint key h := hs.tidy.disjoint key h.2 h.1
  processedSize := hs.tidy.processedIndexed.length_eq ▸ hb.processed
  deferredSize := hs.tidy.deferredIndexed.length_eq ▸ hb.deferred

/-- In every state a run reaches the tables are in step with their queues and within their
capacity, and the next event evicts only the oldest entries, as many as there is no room for. -/
theorem run_keeps_tables (servicePid : ℕ) (generationId : String)
    (profileDigest : Option String) (retryPolicy : RetryPolicy) (world : ω)
    (events : List Event) :
    let o := InjectionOrchestrator.build servicePid generationId profileDigest retryPolicy
    let s := (Session.start o world).run env events
    TablesInStep s.orchestrator ∧
      ∀ event, EventAdvances s.orchestrator (s.handle env event).orchestrator event := by
  intro o s
  have hstart := sound_start servicePid generationId profileDigest retryPolicy world
  have hempty : Bounded (Session.start o world).orchestrator := ⟨Nat.zero_le _, Nat.zero_le _⟩
  have hs := hstart.run env events
  have hb := hempty.run env hstart events
  exact ⟨tablesInStep_of_sound hs hb, eventAdvances_handle env hs hb⟩

end MacTypeControl.Injection
