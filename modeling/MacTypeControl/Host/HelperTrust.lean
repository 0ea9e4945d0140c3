import MacTypeControl.Host.Driver
import MacTypeControl.Host.HelperBroker
import MacTypeControl.Injection.Capacity

/-!
# A response that is not trusted ends the try

The orchestrator asks the broker no more, records the process as rejected unless it is proven to be
gone, and the rejection shows in the health of the generation.
-/

namespace MacTypeControl.Host

open Injection Tables

variable {ω : Type}

/-- What the session has recorded last, and of which process. -/
structure RecordedLast (s : Session ω) (identity : ProcessIdentity) (record : ProcessAttemptRecord) :
    Prop where
  newest : mostRecentResult s.orchestrator = some record
  lookup : s.orchestrator.processed.lookup identity.key = some record
  identity_eq : record.identity = identity

/-- How a try ends after an answer that is not trusted. `newer` is what was observed since. -/
structure EndedUntrusted (identity : ProcessIdentity) (newer : List Observation) (s : Session ω) :
    Prop where
  no_call : ∀ asked attempt, .asked asked attempt ∉ newer
  recorded : ∃ record, RecordedLast s identity record ∧
    ((record.outcome = .rejected ∧ ∃ error, generationHealthError s.orchestrator = some error) ∨
      (record.outcome = .skipped ∧ record.code = targetVanishedResultCode ∧
        .probed identity .vanished ∈ newer))

/-- Every answer among the new observations that is not trusted has ended its try, and it was the
one call of its attempt. -/
def Settles (s : Session ω) (observed : List Observation) : Prop :=
  ∀ newer identity attempt deferrals result older,
    observed = newer ++ .returned identity attempt deferrals result :: older →
    IsUntrusted result → EndedUntrusted identity newer s ∧
      ∃ oldest, older = .asked identity attempt :: oldest ∧
        ∀ n, .asked identity n ∈ oldest → n < attempt

def Handled (s s' : Session ω) : Prop :=
  ∃ observed, s'.history = observed ++ s.history ∧ Settles s' observed

/-- The observation is part of a call of the broker. -/
def isCall : Observation → Bool
  | .asked .. | .returned .. => true
  | _ => false

/-- The handling has not called the broker. -/
def Quiet (s s' : Session ω) : Prop :=
  ∃ observed, s'.history = observed ++ s.history ∧ ∀ o ∈ observed, isCall o = false

/-- One more answer before the rest: it has ended its try unless it is trusted. -/
theorem Settles.before {s : Session ω} {observed : List Observation} (h : Settles s observed)
    {identity : ProcessIdentity} {attempt deferrals : ℕ} {result : BrokerResult}
    (hlater : ∀ i n, .asked i n ∈ observed → attempt < n)
    (hlast : IsUntrusted result → EndedUntrusted identity observed s) :
    Settles s (observed ++ [.returned identity attempt deferrals result,
      .asked identity attempt]) := by
  intro newer identity' attempt' deferrals' result' older hobserved huntrusted
  have hhere : ∀ newer older, [Observation.returned identity attempt deferrals result,
      .asked identity attempt] =
        newer ++ .returned identity' attempt' deferrals' result' :: older →
      newer = [] ∧ identity' = identity ∧ attempt' = attempt ∧ result' = result ∧
        older = [.asked identity attempt] := by
    intro newer older heq
    cases newer with
    | nil =>
      simp only [List.nil_append, List.cons.injEq, Observation.returned.injEq] at heq
      obtain ⟨⟨rfl, rfl, -, rfl⟩, rfl⟩ := heq
      exact ⟨rfl, rfl, rfl, rfl, rfl⟩
    | cons first rest =>
      simp only [List.cons_append, List.cons.injEq] at heq
      have hmem : Observation.returned identity' attempt' deferrals' result' ∈
          [Observation.asked identity attempt] := by
        rw [heq.2]
        simp
      simp at hmem
  have hfinal : newer = observed → result' = result → identity' = identity →
      attempt' = attempt → older = [.asked identity attempt] →
      EndedUntrusted identity' newer s ∧ ∃ oldest, older = .asked identity' attempt' :: oldest ∧
        ∀ n, .asked identity' n ∈ oldest → n < attempt' := by
    rintro rfl rfl rfl rfl rfl
    exact ⟨hlast huntrusted, [], rfl, fun n hn => absurd hn List.not_mem_nil⟩
  rcases List.append_eq_append_iff.1 hobserved with ⟨more, hnewer, hrest⟩ | ⟨more, hsplit, hrest⟩
  · obtain ⟨rfl, hidentity, hattempt, hresult, holder⟩ := hhere more older hrest
    exact hfinal (by simpa using hnewer) hresult hidentity hattempt holder
  · cases more with
    | nil =>
      obtain ⟨-, hidentity, hattempt, hresult, holder⟩ := hhere [] older hrest.symm
      exact hfinal (by simpa using hsplit.symm) hresult hidentity hattempt holder
    | cons first more =>
      obtain ⟨rfl, rfl⟩ := List.cons.inj hrest
      obtain ⟨hended, oldest, rfl, hnumbers⟩ :=
        h newer identity' attempt' deferrals' result' more hsplit huntrusted
      refine ⟨hended, oldest ++ [.returned identity attempt deferrals result,
        .asked identity attempt], rfl, fun n hn => ?_⟩
      rcases List.mem_append.1 hn with hn | hn
      · exact hnumbers n hn
      · simp only [List.mem_cons, reduceCtorEq, Observation.asked.injEq, List.not_mem_nil, or_false,
          false_or] at hn
        rw [hn.2]
        refine hlater identity' attempt' ?_
        rw [hsplit]
        simp

/-! ## What is done without the broker -/

section

variable {s s₁ s₂ : Session ω} {identity : ProcessIdentity} (env : Environment ω)

theorem Quiet.of_history (h : s₁.history = s.history) : Quiet s s₁ :=
  ⟨[], h, fun _ ho => absurd ho List.not_mem_nil⟩

theorem Quiet.trans (h : Quiet s s₁) (h' : Quiet s₁ s₂) : Quiet s s₂ := by
  obtain ⟨observed, hobserved, hquiet⟩ := h
  obtain ⟨more, hmore, hquiet'⟩ := h'
  refine ⟨more ++ observed, by rw [hmore, hobserved, List.append_assoc], fun o ho => ?_⟩
  rcases List.mem_append.1 ho with ho | ho
  · exact hquiet' o ho
  · exact hquiet o ho

theorem Quiet.handled (h : Quiet s s₁) : Handled s s₁ := by
  obtain ⟨observed, hobserved, hquiet⟩ := h
  refine ⟨observed, hobserved, ?_⟩
  intro newer identity attempt deferrals result older hsplit
  have hmem : .returned identity attempt deferrals result ∈ observed := by
    rw [hsplit]
    simp
  have hcall := hquiet _ hmem
  cases hcall

theorem Handled.after (h : s₁.history = s.history) (h' : Handled s₁ s₂) : Handled s s₂ := by
  obtain ⟨observed, hobserved, hsettles⟩ := h'
  exact ⟨observed, h ▸ hobserved, hsettles⟩

theorem quiet_evicted {keys : List ProcessKey}
    (h : s₁.history = keys.map Observation.evicted ++ s.history) : Quiet s s₁ := by
  refine ⟨_, h, fun o ho => ?_⟩
  obtain ⟨key, -, rfl⟩ := List.mem_map.1 ho
  rfl

theorem quiet_trackKey (key : ProcessKey) : Quiet s (s.trackKey key) := by
  unfold Session.trackKey
  dsimp only
  split
  · exact .of_history rfl
  · exact quiet_evicted rfl

theorem quiet_recordResult (outcome : ProcessOutcome) (attempts : ℕ) (result : BrokerResult) :
    Quiet s (s.recordResult env identity outcome attempts result) :=
  (quiet_trackKey identity.key).trans (.of_history rfl)

theorem quiet_evictDeferred (order : List ProcessKey) : Quiet s (s.evictDeferred env order) := by
  induction order with
  | nil => exact .of_history rfl
  | cons oldest rest ih =>
    unfold Session.evictDeferred
    dsimp only
    split
    · split
      · exact Quiet.trans (.of_history rfl) (quiet_recordResult env .skipped 0 _)
      · exact ih
    · exact .of_history rfl

theorem quiet_insertDeferred (target : DeferredTarget) : Quiet s (s.insertDeferred env target) := by
  have hroom : Quiet s (if target.identity.key ∈ s.orchestrator.deferred.keys then
      { s with orchestrator := { s.orchestrator with
        deferredOrder := s.orchestrator.deferredOrder.filter (· ≠ target.identity.key) } }
      else s.evictDeferred env
        (s.orchestrator.deferredOrder.filter (· ≠ target.identity.key))) := by
    split
    · exact .of_history rfl
    · exact quiet_evictDeferred env _
  exact hroom.trans (.of_history rfl)

theorem quiet_probeLiveness (identity : ProcessIdentity) :
    Quiet s (s.probeLiveness env identity).2 :=
  ⟨[.probed identity (s.probeLiveness env identity).1], rfl, by simp [isCall]⟩

theorem quiet_reclassifyVanishedTarget (outcome : ProcessOutcome) (result : BrokerResult) :
    Quiet s (s.reclassifyVanishedTarget env identity outcome result).2.2 := by
  unfold Session.reclassifyVanishedTarget
  split
  · exact .of_history rfl
  · have hprobed := quiet_probeLiveness (s := s) env identity
    revert hprobed
    rcases s.probeLiveness env identity with ⟨_ | _ | _, s₁⟩ <;> exact id

theorem quiet_concludeAttempt (outcome : ProcessOutcome) (result : BrokerResult) (attempt : ℕ) :
    Quiet s (s.concludeAttempt env identity outcome result attempt).2 := by
  have hcredited : Quiet s (if outcome = .injected then
      { s with orchestrator := s.orchestrator.recordInjectionSuccess identity } else s) := by
    split <;> exact .of_history rfl
  have hreclassified := hcredited.trans
    (@quiet_reclassifyVanishedTarget ω _ identity env outcome result)
  exact hreclassified.trans (quiet_recordResult env _ _ _)

theorem quiet_handleLaunchFailure (deferrals now : ℕ) (result : BrokerResult) (attempt : ℕ) :
    Quiet s (s.handleLaunchFailure env identity deferrals now result attempt).2 := by
  have hprobed := quiet_probeLiveness (s := s) env identity
  have hrefused : ∀ s₁ : Session ω, Quiet s s₁ →
      Quiet s (s₁.recordResult env identity .rejected attempt result) :=
    fun s₁ h => h.trans (quiet_recordResult env _ _ _)
  unfold Session.handleLaunchFailure
  revert hprobed
  rcases s.probeLiveness env identity with ⟨_ | _ | _, s₁⟩ <;> intro hprobed <;> dsimp only
  · split
    · exact hrefused s₁ hprobed
    · exact hprobed.trans (quiet_insertDeferred env _)
  · exact hprobed.trans (quiet_recordResult env _ _ _)
  · split
    · exact hrefused s₁ hprobed
    · exact hprobed.trans (quiet_insertDeferred env _)

theorem quiet_settleAnswer (deferrals now : ℕ) (result : BrokerResult) (attempt : ℕ)
    (finalAttempt : Bool) :
    Quiet s (s.settleAnswer env identity deferrals now result attempt finalAttempt).2 := by
  unfold Session.settleAnswer
  split
  · exact quiet_handleLaunchFailure env deferrals now result attempt
  · exact quiet_insertDeferred env _
  · split
    · exact .of_history rfl
    · exact quiet_concludeAttempt env _ result attempt

/-! ## The end of a try -/

/-- A result for a process that has none yet becomes the newest one. -/
theorem recordedLast_recordResult (hnew : identity.key ∉ s.orchestrator.processed)
    (outcome : ProcessOutcome) (attempts : ℕ) (result : BrokerResult) :
    RecordedLast (s.recordResult env identity outcome attempts result) identity
      ⟨identity, s.orchestrator.generationId, outcome, attempts, result.code, result.win32Error⟩ := by
  have hkeys : identity.key ∉ s.orchestrator.processed.keys := hnew
  have hlookup : (s.recordResult env identity outcome attempts result).orchestrator.processed.lookup
      identity.key = some ⟨identity, s.orchestrator.generationId, outcome, attempts, result.code,
        result.win32Error⟩ := by
    simp only [Session.recordResult, Session.trackKey, hkeys, if_false]
    exact AList.lookup_insert _
  have hlast : (s.recordResult env identity outcome attempts result).orchestrator.processOrder.getLast?
      = some identity.key := by
    simp only [Session.recordResult, Session.trackKey, hkeys, if_false]
    exact List.getLast?_concat
  refine ⟨?_, hlookup, rfl⟩
  unfold mostRecentResult
  rw [hlast]
  exact hlookup

theorem generationHealthError_of_code {record : ProcessAttemptRecord} {code : String}
    (h : RecordedLast s identity record) (hcode : generationHealthCode record.code = some code) :
    ∃ error, generationHealthError s.orchestrator = some error := by
  unfold generationHealthError
  rw [h.newest]
  simp only [Option.bind_eq_bind, Option.bind_some, hcode]
  exact ⟨_, rfl⟩

theorem generationHealthCode_of_untrusted {result : BrokerResult} (h : IsUntrusted result) :
    ∃ code, generationHealthCode result.code = some code := by
  unfold generationHealthCode
  split
  · exact ⟨_, rfl⟩
  next hclean =>
  have hcode : result.code ∈ ["helper-response-invalid", "helper-response-too-large",
      "helper-exit-mismatch"] := by
    rcases h with ⟨-, hunknown⟩ | ⟨-, hcode⟩
    · exact absurd hunknown hclean
    · exact hcode
  rw [if_pos (by simp only [List.mem_cons] at hcode ⊢; tauto)]
  exact ⟨_, rfl⟩

/-- A rejection stands, unless a last probe proves that the target is gone. -/
theorem reclassifyVanishedTarget_rejected (result : BrokerResult) :
    (∃ s₁, s.reclassifyVanishedTarget env identity .rejected result = (.rejected, result, s₁) ∧
      s₁.orchestrator = s.orchestrator) ∨
    ∃ s₁, s.reclassifyVanishedTarget env identity .rejected result =
        (.skipped, { result with code := targetVanishedResultCode }, s₁) ∧
      s₁.orchestrator = s.orchestrator ∧
      s₁.history = .probed identity .vanished :: s.history := by
  unfold Session.reclassifyVanishedTarget
  split
  · exact Or.inl ⟨s, rfl, rfl⟩
  · cases hprobe : s.probeLiveness env identity with
    | mk liveness s₁ =>
      have horchestrator : s₁.orchestrator = s.orchestrator :=
        congrArg (·.2.orchestrator) hprobe.symm
      have hhistory : s₁.history = .probed identity liveness :: s.history := by
        rw [show s₁ = (s.probeLiveness env identity).2 by rw [hprobe],
          show liveness = (s.probeLiveness env identity).1 by rw [hprobe]]
        rfl
      cases liveness with
      | vanished => exact Or.inr ⟨s₁, rfl, horchestrator, hhistory⟩
      | alive => exact Or.inl ⟨s₁, rfl, horchestrator⟩
      | unknown => exact Or.inl ⟨s₁, rfl, horchestrator⟩

/-- Concluding an untrusted answer records a rejection, or a skip once the target is proven gone. -/
theorem ended_concludeAttempt (hnew : identity.key ∉ s.orchestrator.processed)
    {result : BrokerResult} (huntrusted : IsUntrusted result) (attempt : ℕ)
    {observed : List Observation} (hobserved :
      (s.concludeAttempt env identity .rejected { result with disposition := .rejected }
        attempt).2.history = observed ++ s.history) :
    EndedUntrusted identity observed (s.concludeAttempt env identity .rejected
      { result with disposition := .rejected } attempt).2 := by
  have hno_call : ∀ asked n, .asked asked n ∉ observed := by
    obtain ⟨more, hmore, hquiet⟩ := quiet_concludeAttempt (s := s) env .rejected
      { result with disposition := .rejected } attempt
    rw [List.append_cancel_right (hobserved.symm.trans hmore)]
    intro asked n hmem
    have hcall := hquiet _ hmem
    cases hcall
  refine ⟨hno_call, ?_⟩
  have hconclude : (s.concludeAttempt env identity .rejected { result with disposition := .rejected }
      attempt).2 = (s.reclassifyVanishedTarget env identity .rejected
        { result with disposition := .rejected }).2.2.recordResult env identity
        (s.reclassifyVanishedTarget env identity .rejected
          { result with disposition := .rejected }).1 attempt
        (s.reclassifyVanishedTarget env identity .rejected
          { result with disposition := .rejected }).2.1 := by
    simp [Session.concludeAttempt]
  rw [hconclude] at hobserved ⊢
  rcases @reclassifyVanishedTarget_rejected ω s identity env
    { result with disposition := .rejected } with ⟨s₁, hsame, horchestrator⟩ |
    ⟨s₁, hgone, horchestrator, hhistory⟩
  · rw [hsame] at hobserved ⊢
    have hlast := recordedLast_recordResult env (horchestrator ▸ hnew) .rejected attempt
      { result with disposition := .rejected }
    obtain ⟨code, hcode⟩ := generationHealthCode_of_untrusted huntrusted
    exact ⟨_, hlast, Or.inl ⟨rfl, generationHealthError_of_code hlast hcode⟩⟩
  · rw [hgone] at hobserved ⊢
    have hlast := recordedLast_recordResult env (horchestrator ▸ hnew) .skipped attempt
      { { result with disposition := .rejected } with code := targetVanishedResultCode }
    refine ⟨_, hlast, Or.inr ⟨rfl, rfl, ?_⟩⟩
    obtain ⟨more, hmore, -⟩ := @quiet_recordResult ω s₁ identity env .skipped attempt
      { { result with disposition := .rejected } with code := targetVanishedResultCode }
    rw [hmore, hhistory, List.append_cons] at hobserved
    rw [← List.append_cancel_right hobserved]
    simp

/-- An answer that is not trusted is settled as a rejection. -/
theorem settleAnswer_untrusted {result : BrokerResult} (h : IsUntrusted result)
    (deferrals now attempt : ℕ) (finalAttempt : Bool) :
    s.settleAnswer env identity deferrals now (rejectUnsafeRetry result) attempt finalAttempt =
      (some (s.concludeAttempt env identity .rejected { result with disposition := .rejected }
          attempt).1,
        (s.concludeAttempt env identity .rejected { result with disposition := .rejected }
          attempt).2) := by
  have hrejected : rejectUnsafeRetry result = { result with disposition := .rejected } := by
    unfold rejectUnsafeRetry
    rcases h with ⟨hdisposition, -⟩ | ⟨hdisposition, hcode⟩
    · rw [hdisposition, if_neg (by simp), ← hdisposition]
    · refine if_pos ⟨hdisposition, ?_⟩
      simp only [List.mem_cons, List.not_mem_nil, or_false] at hcode
      rcases hcode with hcode | hcode | hcode <;> rw [hcode] <;> decide
  rw [hrejected]
  rfl

/-! ## The handlers -/

/-- The handling has settled what it was answered, and its attempts are numbered from `first`. -/
def HandledFrom (first : ℕ) (s s' : Session ω) : Prop :=
  ∃ observed, s'.history = observed ++ s.history ∧ Settles s' observed ∧
    ∀ i n, .asked i n ∈ observed → first ≤ n

theorem Quiet.handledFrom (h : Quiet s s₁) (first : ℕ) : HandledFrom first s s₁ := by
  obtain ⟨observed, hobserved, hsettles⟩ := h.handled
  obtain ⟨observed', hobserved', hcalls⟩ := h
  obtain rfl : observed' = observed := List.append_cancel_right (hobserved'.symm.trans hobserved)
  refine ⟨observed', hobserved, hsettles, fun i n hn => ?_⟩
  have hcall := hcalls _ hn
  cases hcall

theorem HandledFrom.after {first : ℕ} (h : s₁.history = s.history) (h' : HandledFrom first s₁ s₂) :
    HandledFrom first s s₂ := by
  obtain ⟨observed, hobserved, hsettles⟩ := h'
  exact ⟨observed, h ▸ hobserved, hsettles⟩

/-- A call goes before what follows from its answer. -/
theorem HandledFrom.answered {attempt deferrals : ℕ} {answer : BrokerResult}
    (hhistory : s₁.history = [.returned identity attempt deferrals answer,
      .asked identity attempt] ++ s.history)
    (h : HandledFrom (attempt + 1) s₁ s₂)
    (hlast : IsUntrusted answer → ∀ more, s₂.history = more ++ s₁.history →
      EndedUntrusted identity more s₂) : HandledFrom attempt s s₂ := by
  obtain ⟨more, hmore, hsettles, hnumbers⟩ := h
  refine ⟨more ++ [.returned identity attempt deferrals answer, .asked identity attempt], ?_,
    hsettles.before hnumbers fun huntrusted => hlast huntrusted more hmore, fun i n hn => ?_⟩
  · rw [hmore, hhistory, List.append_assoc]
  · rcases List.mem_append.1 hn with hn | hn
    · exact Nat.le_of_succ_le (hnumbers i n hn)
    · simp only [List.mem_cons, reduceCtorEq, Observation.asked.injEq, List.not_mem_nil,
        or_false, false_or] at hn
      exact Nat.le_of_eq hn.2.symm

theorem waitForRetry_same (delay : ℕ) :
    (s.waitForRetry env delay).2.orchestrator = s.orchestrator ∧
      (s.waitForRetry env delay).2.history = s.history := by
  unfold Session.waitForRetry
  split <;> exact ⟨rfl, rfl⟩

/-- The loop asks with rising numbers, and an answer that is not trusted is its last. -/
theorem handled_attemptLoop (deferrals now : ℕ) (left attempt delay : ℕ) (s : Session ω)
    (hnew : identity.key ∉ s.orchestrator.processed) :
    HandledFrom attempt s
      (Session.attemptLoop env identity deferrals now left attempt delay s).2 := by
  induction left generalizing attempt delay s with
  | zero => exact Quiet.handledFrom (.of_history rfl) attempt
  | succ left ih =>
    unfold Session.attemptLoop
    cases hask : s.askBroker env identity attempt deferrals with
    | mk answer s₁ =>
      have hnew₁ : identity.key ∉ s₁.orchestrator.processed := by
        rw [show s₁ = (s.askBroker env identity attempt deferrals).2 by rw [hask]]
        exact hnew
      have hhistory : s₁.history = [.returned identity attempt deferrals answer,
          .asked identity attempt] ++ s.history := by
        rw [show s₁ = (s.askBroker env identity attempt deferrals).2 by rw [hask],
          show answer = (s.askBroker env identity attempt deferrals).1 by rw [hask]]
        rfl
      dsimp only
      by_cases huntrusted : IsUntrusted answer
      · rw [settleAnswer_untrusted env huntrusted]
        have hquiet := @quiet_concludeAttempt ω s₁ identity env .rejected
          { answer with disposition := .rejected } attempt
        exact .answered hhistory (hquiet.handledFrom _) fun _ more hmore =>
          ended_concludeAttempt env hnew₁ huntrusted attempt hmore
      · refine .answered hhistory ?_ fun h => absurd h huntrusted
        have hsettle := concluded_settleAnswer (s := s₁) env identity deferrals now
          (rejectUnsafeRetry answer) attempt (left == 0)
        have hquiet := @quiet_settleAnswer ω s₁ identity env deferrals now
          (rejectUnsafeRetry answer) attempt (left == 0)
        revert hsettle hquiet
        rcases s₁.settleAnswer env identity deferrals now (rejectUnsafeRetry answer) attempt
          (left == 0) with ⟨_ | outcome, s₂⟩
        · rintro (⟨⟨outcome, houtcome⟩, -⟩ | ⟨hnone, -⟩) -
          · cases houtcome
          · cases hnone
            have hwait := waitForRetry_same (s := s₁) env delay
            dsimp only
            revert hwait
            rcases s₁.waitForRetry env delay with ⟨_ | _, s₃⟩ <;> rintro ⟨horchestrator, hsame⟩
            · exact ((Quiet.of_history hsame).trans (quiet_recordResult env _ _ _)).handledFrom _
            · exact .after hsame (ih _ _ s₃ (horchestrator ▸ hnew₁))
        · intro _ hquiet
          exact hquiet.handledFrom _

theorem handled_attemptInjection (hnew : identity.key ∉ s.orchestrator.processed)
    (deferrals now : ℕ) : Handled s (s.attemptInjection env identity deferrals now).2 := by
  obtain ⟨observed, hobserved, hsettles, -⟩ :=
    handled_attemptLoop env deferrals now s.orchestrator.attempts 1
      s.orchestrator.retryPolicy.initialDelay s hnew
  exact ⟨observed, hobserved, hsettles⟩

theorem handled_handlePidAt (pid now : ℕ) : Handled s (s.handlePidAt env pid now).2 := by
  have hsame : ((s.setLastHandled none).validateTarget env pid).2.history = s.history := rfl
  unfold Session.handlePidAt
  revert hsame
  rcases (s.setLastHandled none).validateTarget env pid with
    ⟨error | ⟨identity⟩ | ⟨reason⟩ | ⟨identity, reason⟩, s₁⟩ <;> intro hsame
  · exact Quiet.handled (.of_history hsame)
  · dsimp only
    split
    · exact Quiet.handled (.of_history hsame)
    · next hnew =>
      have hunknown := unknown_of_not_contains hnew
      exact .after hsame (handled_attemptInjection env hunknown.1 0 now)
  · exact Quiet.handled (.of_history hsame)
  · dsimp only
    split
    · exact Quiet.handled (.of_history hsame)
    · exact Handled.after hsame (Quiet.handled (quiet_insertDeferred env _))

theorem quiet_recordSkip (code : String) (win32Error : Option ℕ) :
    Quiet s (s.recordSkip env identity code win32Error) :=
  quiet_recordResult env _ _ _

theorem handled_revalidateDeferred {target : DeferredTarget}
    (hnew : target.identity.key ∉ s.orchestrator.processed) (now : ℕ) :
    Handled s (s.revalidateDeferred env target now).2 := by
  have hsame : (s.validateTarget env target.identity.pid).2.history = s.history := rfl
  have hnew₁ : target.identity.key ∉
      (s.validateTarget env target.identity.pid).2.orchestrator.processed := hnew
  unfold Session.revalidateDeferred
  revert hsame hnew₁
  rcases s.validateTarget env target.identity.pid with
    ⟨error | ⟨identity⟩ | ⟨reason⟩ | ⟨identity, reason⟩, s₁⟩ <;> intro hsame hnew₁
  · exact Quiet.handled (.of_history hsame)
  · dsimp only
    split
    · next heq => exact .after hsame (handled_attemptInjection env (heq ▸ hnew₁) _ now)
    · exact .after hsame (Quiet.handled (quiet_recordSkip env _ _))
  · exact .after hsame (Quiet.handled (quiet_recordSkip env _ _))
  · dsimp only
    split
    · exact .after hsame (Quiet.handled (quiet_insertDeferred env _))
    · exact .after hsame (Quiet.handled (quiet_recordSkip env _ _))

theorem handled_recheckDeferred {target : DeferredTarget}
    (hnew : target.identity.key ∉ s.orchestrator.processed) (now : ℕ) :
    Handled s (s.recheckDeferred env target now).2 := by
  unfold Session.recheckDeferred
  split
  · rcases env.probeTargetLifecycle s.world target.identity with ⟨_ | _ | _ | _, world⟩
    · have hagain := @handled_revalidateDeferred ω { s with world } env target hnew now
      exact Handled.after rfl hagain
    · exact Quiet.handled (quiet_insertDeferred (s := { s with world }) env _)
    · exact Quiet.handled (@quiet_recordSkip ω { s with world } target.identity env _ _)
    · exact Quiet.handled (quiet_insertDeferred (s := { s with world }) env _)
  · exact handled_revalidateDeferred env hnew now

theorem handled_pollDeferred {limits : Limits} (hs : Injection.Sound limits s) (now : ℕ) :
    Handled s (s.pollDeferred env now).2 := by
  unfold Session.pollDeferred
  dsimp only
  split
  · exact Quiet.handled (.of_history rfl)
  next key hfind =>
  have hmem : key ∈ s.orchestrator.deferred :=
    (hs.tidy.deferredIndexed.mem_iff key).1 (List.mem_of_find?_eq_some hfind)
  split
  · exact Quiet.handled (.of_history rfl)
  next target htarget =>
  have hkey := hs.tidy.deferredKey key target htarget
  have hnew : target.identity.key ∉ s.orchestrator.processed :=
    hkey ▸ hs.tidy.disjoint key hmem
  let s₁ : Session ω := { s with orchestrator := { s.orchestrator with
    deferred := s.orchestrator.deferred.erase key
    deferredOrder := s.orchestrator.deferredOrder.erase key } }
  have hagain := @handled_recheckDeferred ω s₁ env target hnew now
  exact Handled.after rfl hagain

theorem quiet_handleSessionChange (change : SessionChange) :
    Quiet s (s.handleSessionChange change) := by
  refine ⟨[.sessionChanged change], ?_, by simp [isCall]⟩
  unfold Session.handleSessionChange
  dsimp only
  split
  · rfl
  · split <;> rfl

theorem handled_handle {limits : Limits} (hs : Injection.Sound limits s) (event : Event) :
    Handled s (s.handle env event) := by
  cases event with
  | newPid pid now => exact handled_handlePidAt env pid now
  | pollDeferred now => exact handled_pollDeferred env hs now
  | sessionChange change => exact (quiet_handleSessionChange change).handled

end

/-- The orchestrator's environment with the fixed helper for a broker. -/
def FixedHelperBroker.serve (fromSlice : List UInt8 → Option JsonValue)
    (broker : FixedHelperBroker ω) (env : Environment ω) : Environment ω :=
  { env with inject := broker.inject fromSlice }

/-- A helper that was started is judged by its output alone. -/
theorem FixedHelperBroker.inject_launched (fromSlice : List UInt8 → Option JsonValue)
    (broker : FixedHelperBroker ω) (world : ω) (request : InjectionRequest) :
    request.generationId = broker.assets.generationId →
    (broker.fixedModuleState world request.identity
      (broker.fixedModule request.identity.architecture)).1 ≠ .loaded →
    ∀ output, (broker.launch (broker.fixedModuleState world request.identity
        (broker.fixedModule request.identity.architecture)).2 (broker.invocation request)).1 =
      .ok output →
    (broker.inject fromSlice world request).1 = parseOutput fromSlice request output := by
  intro hgeneration hmodule output hlaunched
  unfold inject
  rw [if_neg (not_not.2 hgeneration)]
  dsimp only
  rw [if_neg hmodule, hlaunched]

/-- The host trusts a success only on the word of a response that vouches for it, and in every run a
response that vouches for nothing ends its try with a rejection that shows in the generation's
health, unless the target is proven to be gone. -/
theorem untrusted_helper_ends_try (fromSlice : List UInt8 → Option JsonValue)
    (broker : FixedHelperBroker ω) (env : Environment ω) (servicePid : ℕ) (generationId : String)
    (profileDigest : Option String) (retryPolicy : RetryPolicy) (world : ω) (events : List Event)
    (event : Event) :
    let o := InjectionOrchestrator.build servicePid generationId profileDigest retryPolicy
    let env := broker.serve fromSlice env
    let s := (Session.start o world).run env events
    (∀ request output, (parseOutput fromSlice request output).disposition ∈
        [.injected, .skipped, .targetFrozen] →
      Vouched fromSlice request output (parseOutput fromSlice request output).disposition) ∧
    (∀ world request, request.generationId = broker.assets.generationId →
      (broker.fixedModuleState world request.identity
        (broker.fixedModule request.identity.architecture)).1 ≠ .loaded →
      ∀ output, (broker.launch (broker.fixedModuleState world request.identity
          (broker.fixedModule request.identity.architecture)).2 (broker.invocation request)).1 =
        .ok output →
      (env.inject world request).1 = parseOutput fromSlice request output) ∧
    ∃ observed, (s.handle env event).history = observed ++ s.history ∧
      ∀ newer identity attempt deferrals output older,
        observed = newer ++ .returned identity attempt deferrals
          (parseOutput fromSlice ⟨identity, generationId⟩ output) :: older →
        (∀ disposition, ¬Vouched fromSlice ⟨identity, generationId⟩ output disposition) →
        EndedUntrusted identity newer (s.handle env event) ∧
          ∃ oldest, older = .asked identity attempt :: oldest ∧
            ∀ n, .asked identity n ∈ oldest → n < attempt := by
  intro o env s
  have hsound : Injection.Sound o.limits s :=
    (sound_start servicePid generationId profileDigest retryPolicy world).run env events
  obtain ⟨observed, hobserved, hsettles⟩ := handled_handle env hsound event
  refine ⟨vouched_of_trusted fromSlice, broker.inject_launched fromSlice,
    observed, hobserved, ?_⟩
  intro newer identity attempt deferrals output older hsplit hvouched
  exact hsettles newer identity attempt deferrals _ older hsplit (isUntrusted_of_not_vouched hvouched)

end MacTypeControl.Host
