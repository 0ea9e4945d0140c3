import MacTypeControl.Injection.Orchestrator

/-!
# What a history says about a process

A broker answer is final when nothing about it can change by asking again, and
an identity with a final answer stays settled until a session change or the
eviction of its key makes the service forget it.
-/

namespace MacTypeControl.Injection

/-- The bounds a history is judged by: attempts for one try, and deferrals
after launch failures. -/
structure Limits where
  attempts : ℕ
  launchDeferrals : ℕ

def InjectionOrchestrator.limits (o : InjectionOrchestrator) : Limits where
  attempts := o.attempts
  launchDeferrals := o.deferralPolicy.launchMaxDeferrals

/-- A terminal answer: injected, skipped, rejected or cancelled, a failure that
may not be retried, the last attempt, or a launch failure with no deferral left. -/
def Limits.isTerminal (limits : Limits) (attempt deferrals : ℕ) (result : BrokerResult) : Bool :=
  match result.disposition with
  | .injected | .skipped | .rejected | .cancelled => true
  | .retryableFailure => !safeToRetrySameIdentity result.code || attempt == limits.attempts
  | .launchFailed => limits.launchDeferrals ≤ deferrals
  | .targetFrozen => false

/-- The identity that the newest observations settle: a terminal answer, or a
launch failure whose target turns out to be gone. -/
def settledBy (limits : Limits) : List Observation → Option ProcessIdentity
  | .returned identity attempt deferrals result :: _ =>
    if limits.isTerminal attempt deferrals result then some identity else none
  | .probed identity .vanished :: .returned asked _ _ result :: _ =>
    if result.disposition = .launchFailed ∧ asked = identity then some identity else none
  | _ => none

def SessionChange.Clears (change : SessionChange) (identity : ProcessIdentity) : Prop :=
  change.isOverflow ∨ (change.endsSession ∧ identity.sessionId = change.sessionId)

def Observation.Forgets (identity : ProcessIdentity) : Observation → Prop
  | .evicted key => key = identity.key
  | .sessionChanged change => change.Clears identity
  | _ => False

/-- The identity got a terminal answer and nothing since made the service forget it. -/
def Outstanding (limits : Limits) (identity : ProcessIdentity) : List Observation → Prop
  | [] => False
  | o :: older =>
    settledBy limits (o :: older) = some identity ∨
      (Outstanding limits identity older ∧ ¬o.Forgets identity)

/-- The request before attempt number `attempt` of the same try: the same
identity answered with a failure that is safe to retry. -/
def FollowsRetry (limits : Limits) (identity : ProcessIdentity) (attempt : ℕ)
    (older : List Observation) : Prop :=
  1 ≤ attempt ∧ attempt ≤ limits.attempts ∧ (1 < attempt →
    ∃ deferrals result oldest,
      older = .returned identity (attempt - 1) deferrals result ::
        .asked identity (attempt - 1) :: oldest ∧
      result.disposition = .retryableFailure ∧ safeToRetrySameIdentity result.code)

/-- Every request of the history was made for an identity that was not settled. -/
def WellKept (limits : Limits) : List Observation → Prop
  | [] => True
  | .asked identity attempt :: older =>
    FollowsRetry limits identity attempt older ∧
      (∀ settled, Outstanding limits settled older → settled.key ≠ identity.key) ∧
      WellKept limits older
  | _ :: older => WellKept limits older

/-- No request follows a terminal answer for the same process, unless the
process was forgotten in between. -/
def AtMostOneTerminal (limits : Limits) (history : List Observation) : Prop :=
  ∀ newer identity attempt between older settled,
    history = newer ++ .asked identity attempt :: (between ++ older) →
    settledBy limits older = some settled → settled.key = identity.key →
    ∃ o ∈ between, o.Forgets settled

/-- The numbered requests of one try: at most `attempts`, each after the first
directly after a failure of the one before that is safe to retry. -/
def RetriesAllowed (limits : Limits) (history : List Observation) : Prop :=
  ∀ newer identity attempt older, history = newer ++ .asked identity attempt :: older →
    FollowsRetry limits identity attempt older

variable {limits : Limits} {identity : ProcessIdentity} {history : List Observation}

theorem outstanding_of_settledBy (h : settledBy limits history = some identity) :
    Outstanding limits identity history := by
  cases history with
  | nil => simp [settledBy] at h
  | cons o older => exact Or.inl h

theorem outstanding_append {between : List Observation}
    (h : Outstanding limits identity history) (hkeep : ∀ o ∈ between, ¬o.Forgets identity) :
    Outstanding limits identity (between ++ history) := by
  induction between with
  | nil => exact h
  | cons o between ih =>
    exact Or.inr ⟨ih fun o' ho' => hkeep o' (List.mem_cons_of_mem o ho'),
      hkeep o List.mem_cons_self⟩

theorem outstanding_evicted {keys : List ProcessKey} :
    Outstanding limits identity (keys.map Observation.evicted ++ history) ↔
      Outstanding limits identity history ∧ identity.key ∉ keys := by
  induction keys with
  | nil => simp
  | cons key keys ih =>
    simp only [List.map_cons, List.cons_append, Outstanding, settledBy, Observation.Forgets, ih,
      List.mem_cons, not_or, reduceCtorEq, false_or]
    rw [and_assoc, and_comm (a := identity.key ∉ keys), eq_comm]

theorem outstanding_asked {asked : ProcessIdentity} {attempt deferrals : ℕ}
    {result : BrokerResult} (h : Outstanding limits identity
      (.returned asked attempt deferrals result :: .asked asked attempt :: history)) :
    (identity = asked ∧ limits.isTerminal attempt deferrals result) ∨
      Outstanding limits identity history := by
  simp only [Outstanding, settledBy, Observation.Forgets, not_false_eq_true, and_true,
    reduceCtorEq, false_or] at h
  rcases h with h | h
  · split at h
    · exact Or.inl ⟨(Option.some.inj h).symm, ‹_›⟩
    · cases h
  · exact Or.inr h

theorem outstanding_probed {probed : ProcessIdentity} {liveness : TargetLiveness}
    (h : Outstanding limits identity (.probed probed liveness :: history)) :
    (identity = probed ∧ liveness = .vanished) ∨ Outstanding limits identity history := by
  simp only [Outstanding, Observation.Forgets, not_false_eq_true, and_true] at h
  rcases h with h | h
  · unfold settledBy at h
    split at h
    · next heq => cases heq
    · next heq =>
      cases heq
      split at h
      · exact Or.inl ⟨(Option.some.inj h).symm, rfl⟩
      · cases h
    · cases h
  · exact Or.inr h

theorem outstanding_sessionChanged {change : SessionChange} :
    Outstanding limits identity (.sessionChanged change :: history) ↔
      Outstanding limits identity history ∧ ¬change.Clears identity := by
  simp [Outstanding, settledBy, Observation.Forgets]

theorem wellKept_evicted {keys : List ProcessKey} :
    WellKept limits (keys.map Observation.evicted ++ history) ↔ WellKept limits history := by
  induction keys with
  | nil => rfl
  | cons key keys ih => exact ih

theorem WellKept.of_append {newer : List Observation} (h : WellKept limits (newer ++ history)) :
    WellKept limits history := by
  induction newer with
  | nil => exact h
  | cons o newer ih =>
    cases o with
    | asked => exact ih h.2.2
    | _ => exact ih h

theorem WellKept.atMostOneTerminal (h : WellKept limits history) :
    AtMostOneTerminal limits history := by
  intro newer identity attempt between older settled hsplit hsettled hkey
  rw [hsplit] at h
  obtain ⟨-, hfresh, -⟩ := h.of_append
  by_contra hnone
  have hkeep : ∀ o ∈ between, ¬o.Forgets settled := fun o ho hf => hnone ⟨o, ho, hf⟩
  exact hfresh settled (outstanding_append (outstanding_of_settledBy hsettled) hkeep) hkey

theorem WellKept.retriesAllowed (h : WellKept limits history) :
    RetriesAllowed limits history := by
  intro newer identity attempt older hsplit
  rw [hsplit] at h
  exact h.of_append.1

end MacTypeControl.Injection
