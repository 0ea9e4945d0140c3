import MacTypeControl.Injection.Spared

/-!
# The bound on launch failures

As long as a process is not forgotten, the deferrals of its target are the launch failures that
were reported for it.
-/

namespace MacTypeControl.Injection

open Tables

variable {ω : Type} (env : Environment ω) {process : ProcessIdentity} {policy : DeferralPolicy}
  {s s' : Session ω}

/-- A waiting process counts its launch failures, and none is reported after the last one. -/
structure Counted (policy : DeferralPolicy) (process : ProcessIdentity) (s : Session ω) : Prop where
  policy_eq : s.orchestrator.deferralPolicy = policy
  counts : ∀ target, target.identity = process →
    s.orchestrator.deferred.lookup process.key = some target →
    target.deferrals = launchFailures process s.history ∧
      target.deferrals ≤ policy.launchMaxDeferrals
  bound : launchFailures process s.history ≤ policy.launchMaxDeferrals + 1
  kept : launchFailures process s.history = 0 ∨ Waiting s.orchestrator process.key process ∨
    Finished s.orchestrator process.key process
  ended : launchFailures process s.history = policy.launchMaxDeferrals + 1 →
    ∃ record, s.orchestrator.processed.lookup process.key = some record ∧
      record.identity = process ∧ (record.outcome = .rejected ∨ record.outcome = .skipped)

/-! ## One try -/

theorem Counted.spared (h : Counted policy process s) (hspared : Spared process s s') :
    Counted policy process s' where
  policy_eq := hspared.policy.trans h.policy_eq
  counts target hidentity htarget := by
    rw [hspared.failures]
    exact h.counts target hidentity (hspared.same target hidentity htarget)
  bound := hspared.failures ▸ h.bound
  kept := by
    rw [hspared.failures]
    rcases h.kept with hzero | hwaiting | ⟨record, hrecord, hidentity, hterminal⟩
    · exact Or.inl hzero
    · exact Or.inr (hspared.waiting hwaiting)
    · exact Or.inr (Or.inr
        ⟨record, hspared.finished record hidentity hrecord, hidentity, hterminal⟩)
  ended hlast := by
    rw [hspared.failures] at hlast
    obtain ⟨record, hrecord, hidentity, houtcome⟩ := h.ended hlast
    exact ⟨record, hspared.finished record hidentity hrecord, hidentity, houtcome⟩

/-- A process in no table has no failures. -/
theorem Counted.failures_of_unknown (h : Counted policy process s)
    (hnew : Unknown s.orchestrator process) : launchFailures process s.history = 0 := by
  rcases h.kept with hzero | ⟨target, htarget, -⟩ | ⟨record, hrecord, -⟩
  · exact hzero
  · exact absurd (Table.mem_of_lookup htarget) hnew.2
  · exact absurd (Table.mem_of_lookup hrecord) hnew.1

/-- Where a try ends in a deferral, the target is frozen and keeps its count, or its launch failed
and it counts one more. -/
theorem Tried.deferral {deferrals now : ℕ} (h : Tried env process deferrals now s s')
    (hnew : Unknown s.orchestrator process) {target : DeferredTarget}
    (htarget : s'.orchestrator.deferred.lookup process.key = some target) :
    (target.reason = .frozen ∧ target.deferrals = deferrals ∧
      launchFailures process s'.history = launchFailures process s.history) ∨
    (target.reason = .helperLaunchFailed ∧ target.deferrals = min (deferrals + 1) 255 ∧
      deferrals < s.orchestrator.deferralPolicy.launchMaxDeferrals ∧
      target.notBefore = now + launchDelay s.orchestrator.deferralPolicy deferrals ∧
      launchFailures process s'.history = launchFailures process s.history + 1) := by
  cases h with
  | @recorded s₁ n reports atMost outcome terminal failed attempts result =>
    obtain ⟨hdeferred, -⟩ :=
      deferred_recordResult (s := s₁) env process outcome attempts result
    rw [hdeferred] at htarget
    exact absurd (Table.mem_of_lookup htarget) (hnew.of_same reports.tables).2
  | @frozen s₁ reports notBefore =>
    left
    obtain ⟨-, keys, hhistory⟩ := policy_insertDeferred (s := s₁) env
      ⟨process, .frozen, deferrals, notBefore⟩
    obtain rfl := Option.some.inj ((AList.lookup_insert _).symm.trans htarget)
    refine ⟨rfl, rfl, ?_⟩
    rw [(counts_of_evicted hhistory process).1, reports.failures, if_pos rfl, Nat.add_zero]
  | @launchFailed s₁ reports within =>
    right
    obtain ⟨-, keys, hhistory⟩ := policy_insertDeferred (s := s₁) env
      ⟨process, .helperLaunchFailed, min (deferrals + 1) 255,
        now + launchDelay s₁.orchestrator.deferralPolicy deferrals⟩
    obtain rfl := Option.some.inj ((AList.lookup_insert _).symm.trans htarget)
    rw [reports.policy] at within
    refine ⟨rfl, rfl, within, by rw [reports.policy], ?_⟩
    rw [(counts_of_evicted hhistory process).1, reports.failures, if_pos rfl]

/-- A try is recorded, or its process waits. -/
theorem Tried.settled {deferrals now : ℕ} (h : Tried env process deferrals now s s') :
    (∃ n ≤ 1, launchFailures process s'.history = launchFailures process s.history + n ∧
      ∃ record, s'.orchestrator.processed.lookup process.key = some record ∧
        record.identity = process ∧ record.outcome.isTerminal = true ∧
        (n = 1 → record.outcome = .rejected ∨ record.outcome = .skipped)) ∨
    ∃ target, s'.orchestrator.deferred.lookup process.key = some target ∧
      target.identity = process := by
  cases h with
  | @recorded s₁ n reports atMost outcome terminal failed attempts result =>
    left
    obtain ⟨-, -, keys, hhistory⟩ :=
      deferred_recordResult (s := s₁) env process outcome attempts result
    obtain ⟨record, hrecord, hidentity, houtcome⟩ :=
      lookup_recordResult (s := s₁) env process outcome attempts result
    subst houtcome
    refine ⟨n, atMost, ?_, record, hrecord, hidentity, terminal, failed⟩
    rw [(counts_of_evicted hhistory process).1, reports.failures, if_pos rfl]
  | frozen reports notBefore => exact Or.inr ⟨_, AList.lookup_insert _, rfl⟩
  | launchFailed reports within => exact Or.inr ⟨_, AList.lookup_insert _, rfl⟩

theorem policy_tried {deferrals now : ℕ} (h : Tried env process deferrals now s s') :
    s'.orchestrator.deferralPolicy = s.orchestrator.deferralPolicy := by
  cases h with
  | recorded reports atMost outcome terminal failed attempts result =>
    exact (deferred_recordResult env process outcome attempts result).2.1.trans reports.policy
  | frozen reports notBefore => exact (policy_insertDeferred env _).1.trans reports.policy
  | launchFailed reports within => exact (policy_insertDeferred env _).1.trans reports.policy

/-- A try of a process with so many failures counts on, or finishes it. -/
theorem Tried.counted {now : ℕ} (hpolicy : s.orchestrator.deferralPolicy = policy)
    (hmax : policy.launchMaxDeferrals ≤ 255)
    (h : Tried env process (launchFailures process s.history) now s s')
    (hwithin : launchFailures process s.history ≤ policy.launchMaxDeferrals)
    (hnew : Unknown s.orchestrator process) : Counted policy process s' := by
  have hdeferral : ∀ target, s'.orchestrator.deferred.lookup process.key = some target →
      target.deferrals = launchFailures process s'.history ∧
        target.deferrals ≤ policy.launchMaxDeferrals := by
    intro target htarget
    rcases h.deferral env hnew htarget with
      ⟨-, hcount, hsame⟩ | ⟨-, hcount, hless, -, hmore⟩
    · omega
    · rw [hpolicy] at hless
      omega
  refine ⟨(policy_tried env h).trans hpolicy, fun target _ htarget => hdeferral target htarget,
    ?_, ?_, ?_⟩
  · rcases h.settled env with ⟨n, hn, hfailures, -⟩ | ⟨target, htarget, -⟩
    · omega
    · have hcount := hdeferral target htarget
      omega
  · rcases h.settled env with
      ⟨n, -, -, record, hrecord, hidentity, hterminal, -⟩ | ⟨target, htarget, hidentity⟩
    · exact Or.inr (Or.inr ⟨record, hrecord, hidentity, hterminal⟩)
    · exact Or.inr (Or.inl ⟨target, htarget, hidentity⟩)
  · intro hlast
    rcases h.settled env with
      ⟨n, hn, hfailures, record, hrecord, hidentity, -, houtcome⟩ | ⟨target, htarget, -⟩
    · exact ⟨record, hrecord, hidentity, houtcome (by omega)⟩
    · have hcount := hdeferral target htarget
      omega

/-! ## One event -/

/-- A process is taken up with the count of its failures. -/
theorem Counted.taken (h : Counted policy process s) {event : Event} {now deferrals : ℕ}
    {s₁ : Session ω} (htaken : Taken process s event now deferrals s₁) :
    deferrals = launchFailures process s₁.history ∧
      launchFailures process s₁.history = launchFailures process s.history ∧
      deferrals ≤ policy.launchMaxDeferrals ∧ s₁.orchestrator.deferralPolicy = policy := by
  obtain ⟨hhistory, hpolicy⟩ := htaken.same
  rw [hhistory]
  have hcount : deferrals = launchFailures process s.history ∧
      deferrals ≤ policy.launchMaxDeferrals := by
    cases htaken with
    | new pid now unknown => exact ⟨(h.failures_of_unknown unknown).symm, Nat.zero_le _⟩
    | due now target waits of_process isDue => exact h.counts target of_process waits
  exact ⟨hcount.1, rfl, hcount.2, hpolicy.trans h.policy_eq⟩

theorem Counted.handle {limits : Limits} (hs : Sound limits s) (h : Counted policy process s)
    (hmax : policy.launchMaxDeferrals ≤ 255) {event : Event}
    (hkeeps : KeepsCount env process s event) : Counted policy process (s.handle env event) := by
  rcases handle_cases env hs hkeeps with hspared | ⟨now, deferrals, s₁, htaken, hnew, htried⟩
  · exact h.spared hspared
  · obtain ⟨rfl, -, hwithin, hpolicy⟩ := h.taken htaken
    exact htried.counted env hpolicy hmax hwithin hnew

/-- A target that is deferred as frozen keeps its count. -/
theorem frozen_keeps_count {limits : Limits} (hs : Sound limits s) {event : Event}
    (hkeeps : KeepsCount env process s event) {target target' : DeferredTarget}
    (htarget : s.orchestrator.deferred.lookup process.key = some target)
    (hidentity : target'.identity = process)
    (htarget' : (s.handle env event).orchestrator.deferred.lookup process.key = some target')
    (hfrozen : target'.reason = .frozen) : target'.deferrals = target.deferrals := by
  rcases handle_cases env hs hkeeps with hspared | ⟨now, deferrals, s₁, htaken, hnew, htried⟩
  · have hsame := hspared.same target' hidentity htarget'
    rw [Option.some.inj (hsame.symm.trans htarget)]
  · rcases htried.deferral env hnew htarget' with ⟨-, hcount, -⟩ | ⟨hreason, -⟩
    · rw [hcount]
      cases htaken with
      | new pid now unknown => exact absurd (Table.mem_of_lookup htarget) unknown.2
      | due now other waits of_process isDue =>
        rw [Option.some.inj (waits.symm.trans htarget)]
    · rw [hfrozen] at hreason
      exact absurd hreason (by simp)

/-- The time of an event that takes processes up. -/
def Event.now : Event → Option ℕ
  | .newPid _ now => some now
  | .pollDeferred now => some now
  | .sessionChange _ => none

/-- A deferral after a launch failure waits for its delay. -/
theorem delay_of_failure {limits : Limits} (hs : Sound limits s) (h : Counted policy process s)
    {event : Event} (hkeeps : KeepsCount env process s event) {target : DeferredTarget}
    (hmore : launchFailures process (s.handle env event).history =
      launchFailures process s.history + 1)
    (htarget : (s.handle env event).orchestrator.deferred.lookup process.key = some target) :
    ∃ now, event.now = some now ∧
      target.notBefore = now + launchDelay policy (launchFailures process s.history) := by
  rcases handle_cases env hs hkeeps with hspared | ⟨now, deferrals, s₁, htaken, hnew, htried⟩
  · have hsame := hspared.failures
    omega
  · obtain ⟨hcount, hsame, -, hpolicy⟩ := h.taken htaken
    have hnow : event.now = some now := by
      cases htaken <;> rfl
    rcases htried.deferral env hnew htarget with ⟨-, -, hnone⟩ | ⟨-, -, -, hdelay, -⟩
    · omega
    · exact ⟨now, hnow, by rw [hdelay, hpolicy, hcount, hsame]⟩

/-! ## The wait -/

/-- The process waits as it did, or is finished. -/
def StillWaits (process : ProcessIdentity) (target : DeferredTarget) (o : InjectionOrchestrator) :
    Prop :=
  o.deferred.lookup process.key = some target ∨ Finished o process.key process

/-- An event before its time neither asks for a waiting process nor shortens the wait. -/
theorem stillWaits_handle {limits : Limits} (hs : Sound limits s) {target : DeferredTarget}
    (hidentity : target.identity = process) (h : StillWaits process target s.orchestrator)
    {event : Event} (hkeeps : KeepsCount env process s event)
    (hearly : ∀ now, event = .pollDeferred now → now < target.notBefore) :
    StillWaits process target (s.handle env event).orchestrator ∧
      requests process (s.handle env event).history = requests process s.history := by
  rcases handle_cases env hs hkeeps with hspared | ⟨now, deferrals, s₁, htaken, -⟩
  · refine ⟨?_, hspared.requested⟩
    rcases h with htarget | ⟨record, hrecord, hrecorded, hterminal⟩
    · rcases hspared.waiting ⟨target, htarget, hidentity⟩ with ⟨other, hother, hsame⟩ | hfinished
      · have hbefore := hspared.same other hsame hother
        obtain rfl := Option.some.inj (hbefore.symm.trans htarget)
        exact Or.inl hother
      · exact Or.inr hfinished
    · exact Or.inr ⟨record, hspared.finished record hrecorded hrecord, hrecorded, hterminal⟩
  · exfalso
    cases htaken with
    | new pid now unknown =>
      rcases h with htarget | ⟨record, hrecord, -⟩
      · exact unknown.2 (Table.mem_of_lookup htarget)
      · exact unknown.1 (Table.mem_of_lookup hrecord)
    | due now other waits of_process isDue =>
      have hnow := hearly now rfl
      rcases h with htarget | ⟨record, hrecord, -⟩
      · obtain rfl := Option.some.inj (waits.symm.trans htarget)
        omega
      · exact hs.tidy.disjoint _ (Table.mem_of_lookup waits) (Table.mem_of_lookup hrecord)

/-! ## Whole runs -/

/-- No event of the run makes the service forget what it knows of the process. -/
def Remembers (process : ProcessIdentity) : Session ω → List Event → Prop
  | _, [] => True
  | s, event :: rest => KeepsCount env process s event ∧ Remembers process (s.handle env event) rest

theorem Counted.run {limits : Limits} (hs : Sound limits s) (h : Counted policy process s)
    (hmax : policy.launchMaxDeferrals ≤ 255) {events : List Event}
    (hremembers : Remembers env process s events) : Counted policy process (s.run env events) := by
  induction events generalizing s with
  | nil => exact h
  | cons event rest ih =>
    obtain ⟨hkeeps, hrest⟩ := hremembers
    exact ih (hs.handle env event) (h.handle env hs hmax hkeeps) hrest

theorem stillWaits_run {limits : Limits} (hs : Sound limits s) {target : DeferredTarget}
    (hidentity : target.identity = process) (h : StillWaits process target s.orchestrator)
    {events : List Event} (hremembers : Remembers env process s events)
    (hearly : ∀ now, Event.pollDeferred now ∈ events → now < target.notBefore) :
    StillWaits process target (s.run env events).orchestrator ∧
      requests process (s.run env events).history = requests process s.history := by
  induction events generalizing s with
  | nil => exact ⟨h, rfl⟩
  | cons event rest ih =>
    obtain ⟨hkeeps, hrest⟩ := hremembers
    obtain ⟨hwaits, hrequests⟩ := stillWaits_handle env hs hidentity h hkeeps fun now hevent =>
      hearly now (hevent ▸ List.mem_cons_self)
    obtain ⟨hends, hnone⟩ := ih (hs.handle env event) hwaits hrest fun now hmem =>
      hearly now (List.mem_cons_of_mem event hmem)
    exact ⟨hends, hnone.trans hrequests⟩

theorem counted_start (servicePid : ℕ) (generationId : String) (profileDigest : Option String)
    (retryPolicy : RetryPolicy) (world : ω) :
    Counted .default process (Session.start
      (InjectionOrchestrator.build servicePid generationId profileDigest retryPolicy) world) where
  policy_eq := rfl
  counts target _ htarget := by
    exact absurd htarget (by simp [Session.start, InjectionOrchestrator.build])
  bound := by
    exact Nat.zero_le _
  kept := Or.inl rfl
  ended hlast := by
    exact absurd hlast (by simp [launchFailures, Session.start])

/-- The delay is the initial one doubled as often as launches failed before, up to the longest. -/
theorem launchDelay_default {deferrals : ℕ} (h : deferrals < 32) :
    launchDelay .default deferrals =
      min (DeferralPolicy.default.launchInitialDelay * 2 ^ deferrals)
        DeferralPolicy.default.launchMaxDelay := by
  have hmax : DeferralPolicy.default.launchMaxDelay ≤ maxDuration := by decide
  simp only [launchDelay, saturatingMul, if_pos h]
  omega

/-- As long as the service does not forget a process, launch failures are reported for it once
more than it may be deferred at most, and with the last one it is recorded. A waiting process
counts them, a deferral as frozen leaves the count as it is, and the process is not asked for before
the delay of its last failure is over. -/
theorem launch_failures_bounded (servicePid : ℕ) (generationId : String)
    (profileDigest : Option String) (retryPolicy : RetryPolicy) (world : ω) (events : List Event)
    (hremembers : Remembers env process (Session.start
      (InjectionOrchestrator.build servicePid generationId profileDigest retryPolicy) world) events) :
    let o := InjectionOrchestrator.build servicePid generationId profileDigest retryPolicy
    let s := (Session.start o world).run env events
    let policy := o.deferralPolicy
    let failures := launchFailures process s.history
    failures ≤ policy.launchMaxDeferrals + 1 ∧
    (failures = policy.launchMaxDeferrals + 1 →
      ∃ record, s.orchestrator.processed.lookup process.key = some record ∧
        record.identity = process ∧ (record.outcome = .rejected ∨ record.outcome = .skipped)) ∧
    (∀ target, target.identity = process →
      s.orchestrator.deferred.lookup process.key = some target → target.deferrals = failures) ∧
    ∀ event, KeepsCount env process s event → ∀ target', target'.identity = process →
      let s' := s.handle env event
      s'.orchestrator.deferred.lookup process.key = some target' →
      (∀ target, s.orchestrator.deferred.lookup process.key = some target →
        target'.reason = .frozen → target'.deferrals = target.deferrals) ∧
      (launchFailures process s'.history = failures + 1 →
        ∃ now, event.now = some now ∧ ∀ rest, Remembers env process s' rest →
          (∀ later, Event.pollDeferred later ∈ rest →
            later < now + min (policy.launchInitialDelay * 2 ^ failures) policy.launchMaxDelay) →
          StillWaits process target' (s'.run env rest).orchestrator ∧
            requests process (s'.run env rest).history = requests process s'.history) := by
  intro o s policy failures
  have hstart := sound_start servicePid generationId profileDigest retryPolicy world
  have hs := hstart.run env events
  have hmax : DeferralPolicy.default.launchMaxDeferrals ≤ 255 := by decide
  have hcounted := (counted_start servicePid generationId profileDigest retryPolicy world).run env
    hstart hmax hremembers
  refine ⟨hcounted.bound, hcounted.ended, fun target hidentity htarget =>
    (hcounted.counts target hidentity htarget).1, ?_⟩
  intro event hkeeps target' hidentity s' htarget'
  refine ⟨fun target htarget hfrozen =>
    frozen_keeps_count env hs hkeeps htarget hidentity htarget' hfrozen, fun hmore => ?_⟩
  obtain ⟨now, hnow, hdelay⟩ := delay_of_failure env hs hcounted hkeeps hmore htarget'
  refine ⟨now, hnow, fun rest hrest hearly => ?_⟩
  have hcounted' := hcounted.handle env hs hmax hkeeps
  have hfew : launchFailures process s.history < 32 := by
    have hcount : target'.deferrals = failures + 1 ∧ target'.deferrals ≤ 5 :=
      hmore ▸ hcounted'.counts target' hidentity htarget'
    have hlast : failures + 1 ≤ 5 := hcount.1 ▸ hcount.2
    exact lt_of_lt_of_le (Nat.lt_of_succ_le hlast) (by decide)
  rw [launchDelay_default hfew] at hdelay
  refine stillWaits_run env (hs.handle env event) hidentity (Or.inl htarget') hrest ?_
  rw [hdelay]
  exact hearly

/-! ## A launch that fails -/

def launchedIdentity : ProcessIdentity := ⟨42, 100, 2, .x64, false⟩

/-- The helper of a process cannot be launched, while the process runs. -/
def failingLaunch : Environment ℕ where
  inspect world _ := (.ok ⟨launchedIdentity, false, false, false, some "app.exe"⟩, world)
  probeTargetLifecycle world _ := (.running, world)
  probeTargetLiveness world _ := (.alive, world)
  processBasename world _ := (none, world)
  inject world _ := (⟨.launchFailed, "helper-launch-failed-before-resume", none⟩, world)
  retryScheduler := none

def launchOrchestrator : InjectionOrchestrator := .build 900 "generation" none .default

theorem second_launch_failure_counted :
    let s := (Session.start launchOrchestrator 0).run failingLaunch
      [.newPid 42 0, .pollDeferred (seconds 2)]
    launchFailures launchedIdentity s.history = 2 ∧ ∀ target, target.identity = launchedIdentity →
      s.orchestrator.deferred.lookup launchedIdentity.key = some target → target.deferrals = 2 := by
  have hremembers : Remembers failingLaunch launchedIdentity (Session.start launchOrchestrator 0)
      [.newPid 42 0, .pollDeferred (seconds 2)] := by
    refine ⟨⟨by simp, id, ?_⟩, ⟨by simp, ?_, ?_⟩, trivial⟩
    · rintro (_ | ⟨_, _ | ⟨_, _ | ⟨_, ⟨⟩⟩⟩⟩)
    · rintro ⟨target, -, -, hidentity, world, error, -, herror⟩
      have hok : (validate failingLaunch 900 launchedIdentity.pid world).1 =
        .ok (.eligible launchedIdentity) := rfl
      rw [hidentity] at herror
      cases hok.symm.trans herror
    · rintro (_ | ⟨_, _ | ⟨_, _ | ⟨_, _ | ⟨_, _ | ⟨_, _ | ⟨_, ⟨⟩⟩⟩⟩⟩⟩⟩)
  obtain ⟨-, -, hcounts, -⟩ := launch_failures_bounded failingLaunch 900 "generation" none .default 0
    _ hremembers
  exact ⟨rfl, hcounts⟩

/-! ## A process that is forgotten -/

/-- The helper of process 42 cannot be launched, except that its sixth answer is a skip; every
other process is injected. The world counts the answers about process 42. -/
def crowdedService : Environment ℕ where
  inspect world pid :=
    (.ok ⟨⟨pid, 100, 2, .x64, false⟩, false, false, false, some "app.exe"⟩, world)
  probeTargetLifecycle world _ := (.running, world)
  probeTargetLiveness world _ := (.alive, world)
  processBasename world _ := (none, world)
  inject world request :=
    if request.identity.pid = 42 then
      (if world = 5 then ⟨.skipped, "mactype-already-loaded", none⟩
        else ⟨.launchFailed, "helper-launch-failed-before-resume", none⟩, world + 1)
    else (⟨.injected, "injected", none⟩, world)
  retryScheduler := none

/-- The session with nothing deferred, after process 42 was answered for six times. -/
def crowdedSession (order : List ProcessKey) (table : Table ProcessKey ProcessAttemptRecord)
    (handled : Option ℕ) (events : List HostEvent) (history : List Observation) : Session ℕ where
  orchestrator := { launchOrchestrator with
    processed := table, processOrder := order, lastHandledCreationTime := handled }
  world := 6
  events
  history

def otherIdentity (pid : ℕ) : ProcessIdentity := ⟨pid, 100, 2, .x64, false⟩

def otherKeys (n : ℕ) : List ProcessKey := (List.range n).map fun i => (otherIdentity (1000 + i)).key

theorem otherKeys_succ (n : ℕ) :
    otherKeys (n + 1) = otherKeys n ++ [(otherIdentity (1000 + n)).key] := by
  simp [otherKeys, List.range_succ]

def IsRejection (identity : ProcessIdentity) : HostEvent → Bool
  | .injectionResult record _ => record.identity = identity ∧ record.outcome = .rejected
  | _ => false

/-- How often a process was recorded as rejected. -/
def rejections (identity : ProcessIdentity) (events : List HostEvent) : ℕ :=
  events.countP (IsRejection identity)

theorem first_events : ∃ table events history,
    (Session.start launchOrchestrator 0).run crowdedService [.newPid 42 0,
      .pollDeferred (seconds 2), .pollDeferred (seconds 6), .pollDeferred (seconds 14),
      .pollDeferred (seconds 30), .pollDeferred (seconds 62)] =
        crowdedSession [launchedIdentity.key] table (some 100) events history ∧
      rejections launchedIdentity events = 0 ∧ launchFailures launchedIdentity history = 5 ∧
      table.keys = [launchedIdentity.key] := by
  refine ⟨_, _, _, rfl, ?_, ?_, ?_⟩
  · decide +kernel
  · decide +kernel
  · decide +kernel

/-- Another process is injected, and its result is recorded. -/
theorem handle_other {pid : ℕ} (now : ℕ) (h42 : pid ≠ 42) (h900 : pid ≠ 900)
    (order : List ProcessKey) {table : Table ProcessKey ProcessAttemptRecord} (handled : Option ℕ) (events : List HostEvent)
    (history : List Observation) (hnew : (otherIdentity pid).key ∉ table.keys) :
    let made := evictOldest maxTrackedProcessResults order table
    ∃ record events' history',
      (crowdedSession order table handled events history).handle crowdedService (.newPid pid now) =
        crowdedSession (made.1 ++ [(otherIdentity pid).key])
          (made.2.1.insert (otherIdentity pid).key record) (some 100) events' history' ∧
      rejections launchedIdentity events' = rejections launchedIdentity events ∧
      launchFailures launchedIdentity history' = launchFailures launchedIdentity history := by
  intro made
  have hvalidate : ((crowdedSession order table handled events history).setLastHandled none
      ).validateTarget crowdedService pid = (.ok (.eligible (otherIdentity pid)),
        crowdedSession order table none events history) := by
    have himage : isImportantWindowsProcess "app.exe" = false ∧
      isInstallerControlProcess "app.exe" = false := by decide +kernel
    simp [Session.validateTarget, validate, crowdedService, inspectionSkip, Session.setLastHandled,
      crowdedSession, launchOrchestrator, InjectionOrchestrator.build, h900, himage, otherIdentity]
  have hfresh : ¬((crowdedSession order table none events history).setLastHandled
      (otherIdentity pid).creationTime).orchestrator.containsIdentity (otherIdentity pid) = true := by
    simp [InjectionOrchestrator.containsIdentity, crowdedSession, Session.setLastHandled,
      launchOrchestrator, InjectionOrchestrator.build, hnew]
  let answer : BrokerResult := ⟨.injected, "injected", none⟩
  let asked := crowdedSession order table (some 100) events
    (.returned (otherIdentity pid) 1 0 answer :: .asked (otherIdentity pid) 1 :: history)
  have hasked : (crowdedSession order table (some 100) events history).askBroker crowdedService
      (otherIdentity pid) 1 0 = (answer, asked) := by
    simp [Session.askBroker, crowdedService, crowdedSession, asked, answer, h42, otherIdentity]
  have hattempt : (crowdedSession order table (some 100) events history).attemptInjection
      crowdedService (otherIdentity pid) 0 now =
        (.ok .injected, asked.recordResult crowdedService (otherIdentity pid) .injected 1 answer) := by
    have hattempts : (crowdedSession order table (some 100) events history).orchestrator.attempts =
      3 := rfl
    unfold Session.attemptInjection
    rw [hattempts]
    unfold Session.attemptLoop
    rw [hasked]
    rfl
  have hhandle : (crowdedSession order table handled events history).handle crowdedService
      (.newPid pid now) =
        asked.recordResult crowdedService (otherIdentity pid) .injected 1 answer := by
    unfold Session.handle Session.handlePidAt
    dsimp only
    rw [hvalidate]
    dsimp only
    rw [if_neg hfresh]
    exact congrArg Prod.snd hattempt
  obtain ⟨-, -, keys, hhistory⟩ :=
    deferred_recordResult (s := asked) crowdedService (otherIdentity pid) .injected 1 answer
  have hcounts := (counts_of_evicted hhistory launchedIdentity).1
  let done := asked.recordResult crowdedService (otherIdentity pid) .injected 1 answer
  rw [hhandle]
  have htracked : (otherIdentity pid).key ∉ asked.orchestrator.processed.keys := hnew
  refine ⟨⟨otherIdentity pid, "generation", .injected, 1, "injected", none⟩, done.events,
    done.history, ?_, ?_, hcounts.trans ?_⟩
  · unfold done Session.recordResult Session.trackKey
    dsimp only
    rw [if_neg htracked]
    rfl
  · unfold done Session.recordResult Session.trackKey
    dsimp only
    rw [if_neg htracked]
    simp [rejections, IsRejection, asked, crowdedSession]
  · simp [asked, crowdedSession, launchFailures, IsLaunchFailure, answer]

/-- As long as there is room, the other processes are recorded behind process 42. -/
theorem run_others {n : ℕ} (hn : n < maxTrackedProcessResults) {s : Session ℕ}
    {table : Table ProcessKey ProcessAttemptRecord} {events : List HostEvent}
    {history : List Observation}
    (hs : s = crowdedSession [launchedIdentity.key] table (some 100) events history)
    (hindexed : Indexed [launchedIdentity.key] table) :
    ∃ table' events' history',
      s.run crowdedService ((List.range n).map fun i => .newPid (1000 + i) (seconds 100)) =
        crowdedSession (launchedIdentity.key :: otherKeys n) table' (some 100) events' history' ∧
      Indexed (launchedIdentity.key :: otherKeys n) table' ∧
      rejections launchedIdentity events' = rejections launchedIdentity events ∧
      launchFailures launchedIdentity history' = launchFailures launchedIdentity history := by
  induction n with
  | zero => exact ⟨table, events, history, hs, hindexed, rfl, rfl⟩
  | succ n ih =>
    obtain ⟨table', events', history', hrun, hindexed', hrejections, hfailures⟩ := ih (by omega)
    have hsize : table'.size = n + 1 := by
      rw [← hindexed'.length_eq]
      simp [otherKeys]
    have hnew : (otherIdentity (1000 + n)).key ∉ table'.keys := by
      rw [← AList.mem_keys, ← hindexed'.mem_iff]
      simp [otherKeys, otherIdentity, launchedIdentity, ProcessIdentity.key]
      omega
    obtain ⟨record, events'', history'', hhandle, hnone, hsame⟩ := handle_other (seconds 100)
      (by omega) (by omega) (launchedIdentity.key :: otherKeys n) (some 100) events' history' hnew
    rw [evictOldest_of_room (by omega)] at hhandle
    refine ⟨table'.insert (otherIdentity (1000 + n)).key record, events'', history'', ?_, ?_, hnone.trans hrejections, hsame.trans hfailures⟩
    · unfold Session.run at hrun ⊢
      rw [List.range_succ, List.map_append, List.foldl_append, hrun, otherKeys_succ]
      exact hhandle
    · rw [otherKeys_succ]
      exact hindexed'.pushBack hnew record

/-- The session after one more launch of process 42 failed. -/
def launchedAgain (s : Session ℕ) (deferrals : ℕ) : Session ℕ :=
  { s with
    world := s.world + 1
    history := .probed launchedIdentity .alive ::
      .returned launchedIdentity 1 deferrals
        ⟨.launchFailed, "helper-launch-failed-before-resume", none⟩ ::
      .asked launchedIdentity 1 :: s.history }

theorem failed_attempt {s : Session ℕ} (hworld : s.world ≠ 5) (deferrals : ℕ)
    (hwithin : deferrals < s.orchestrator.deferralPolicy.launchMaxDeferrals) (now : ℕ) :
    (s.attemptInjection crowdedService launchedIdentity deferrals now).2 =
      (launchedAgain s deferrals).insertDeferred crowdedService ⟨launchedIdentity,
        .helperLaunchFailed, min (deferrals + 1) 255,
        now + launchDelay s.orchestrator.deferralPolicy deferrals⟩ := by
  have hattempts : ∃ left, s.orchestrator.attempts = left + 1 :=
    Nat.exists_eq_add_one.mpr (by unfold InjectionOrchestrator.attempts; omega)
  obtain ⟨left, hleft⟩ := hattempts
  let failure : BrokerResult := ⟨.launchFailed, "helper-launch-failed-before-resume", none⟩
  let asked : Session ℕ := { s with
    world := s.world + 1
    history := .returned launchedIdentity 1 deferrals failure :: .asked launchedIdentity 1 ::
      s.history }
  have hasked : s.askBroker crowdedService launchedIdentity 1 deferrals = (failure, asked) := by
    simp [Session.askBroker, crowdedService, hworld, launchedIdentity, failure, asked]
  have hfailed : asked.handleLaunchFailure crowdedService launchedIdentity deferrals now failure 1 =
      (.deferred, (launchedAgain s deferrals).insertDeferred crowdedService ⟨launchedIdentity,
        .helperLaunchFailed, min (deferrals + 1) 255,
        now + launchDelay s.orchestrator.deferralPolicy deferrals⟩) := by
    unfold Session.handleLaunchFailure
    have hprobed : asked.probeLiveness crowdedService launchedIdentity =
      (.alive, launchedAgain s deferrals) := rfl
    rw [hprobed]
    dsimp only
    rw [if_neg (Nat.not_le.mpr hwithin)]
    rfl
  unfold Session.attemptInjection
  rw [hleft]
  unfold Session.attemptLoop
  rw [hasked]
  have hsettled : asked.settleAnswer crowdedService launchedIdentity deferrals now
      (rejectUnsafeRetry failure) 1 (left == 0) =
        (some (asked.handleLaunchFailure crowdedService launchedIdentity deferrals now failure 1).1,
          (asked.handleLaunchFailure crowdedService launchedIdentity deferrals now failure 1).2) := rfl
  dsimp only
  rw [hsettled, hfailed]

theorem failures_of_failed_attempt (s : Session ℕ) (deferrals : ℕ) (target : DeferredTarget) :
    launchFailures launchedIdentity
        ((launchedAgain s deferrals).insertDeferred crowdedService target).history =
      launchFailures launchedIdentity s.history + 1 := by
  obtain ⟨-, keys, hhistory⟩ :=
    policy_insertDeferred (s := launchedAgain s deferrals) crowdedService target
  rw [(counts_of_evicted hhistory launchedIdentity).1]
  simp [launchedAgain, launchFailures, IsLaunchFailure]

/-- Once its result is evicted, process 42 is new again, and two more launches fail. -/
theorem last_events (order : List ProcessKey) {table : Table ProcessKey ProcessAttemptRecord}
    (handled : Option ℕ) (events : List HostEvent) (history : List Observation)
    (hnew : launchedIdentity.key ∉ table.keys) :
    let s := (crowdedSession order table handled events history).run crowdedService
      [.newPid 42 (seconds 200), .pollDeferred (seconds 202)]
    s.events = events ∧
      launchFailures launchedIdentity s.history = launchFailures launchedIdentity history + 2 := by
  intro s
  have hfresh : ¬((crowdedSession order table none events history).setLastHandled
      launchedIdentity.creationTime).orchestrator.containsIdentity launchedIdentity = true := by
    simp [InjectionOrchestrator.containsIdentity, crowdedSession, Session.setLastHandled,
      launchOrchestrator, InjectionOrchestrator.build, hnew]
  let s₀ := crowdedSession order table (some 100) events history
  let target : DeferredTarget := ⟨launchedIdentity, .helperLaunchFailed, 1,
    seconds 200 + launchDelay .default 0⟩
  let s₁ : Session ℕ := { launchedAgain s₀ 0 with orchestrator := { s₀.orchestrator with
    deferred := (∅ : Table ProcessKey DeferredTarget).insert launchedIdentity.key target
    deferredOrder := [launchedIdentity.key] } }
  have hfirst : (crowdedSession order table handled events history).handle crowdedService
      (.newPid 42 (seconds 200)) = s₁ := by
    unfold Session.handle Session.handlePidAt
    dsimp only
    have hvalidate : ((crowdedSession order table handled events history).setLastHandled none
        ).validateTarget crowdedService 42 = (.ok (.eligible launchedIdentity),
          crowdedSession order table none events history) := rfl
    rw [hvalidate]
    dsimp only
    rw [if_neg hfresh]
    have hattempt := failed_attempt (s := s₀) (show (6 : ℕ) ≠ 5 by decide) 0
      (Nat.zero_lt_succ 4)
      (seconds 200)
    exact hattempt
  let s₂ : Session ℕ := { s₁ with orchestrator := { s₁.orchestrator with
    deferred := s₁.orchestrator.deferred.erase launchedIdentity.key
    deferredOrder := [] } }
  have hsecond : s₁.handle crowdedService (.pollDeferred (seconds 202)) =
      (s₂.attemptInjection crowdedService launchedIdentity 1 (seconds 202)).2 := by
    have hdue : seconds 200 + launchDelay .default 0 ≤ seconds 202 := by decide +kernel
    have hlookup : s₁.orchestrator.deferred.lookup launchedIdentity.key = some target :=
      AList.lookup_insert _
    have hready : Session.isDue s₁.orchestrator (seconds 202) launchedIdentity.key = true := by
      unfold Session.isDue
      rw [hlookup]
      exact decide_eq_true hdue
    have hfind : s₁.orchestrator.deferredOrder.find?
        (Session.isDue s₁.orchestrator (seconds 202)) = some launchedIdentity.key :=
      List.find?_cons_of_pos hready
    have hrecheck : s₂.recheckDeferred crowdedService target (seconds 202) =
      s₂.attemptInjection crowdedService launchedIdentity 1 (seconds 202) := rfl
    unfold Session.handle Session.pollDeferred
    dsimp only
    rw [hfind]
    dsimp only
    rw [hlookup]
    exact congrArg Prod.snd hrecheck
  have hrun : s = (s₂.attemptInjection crowdedService launchedIdentity 1 (seconds 202)).2 := by
    rw [← hsecond, ← hfirst]
    rfl
  rw [hrun, failed_attempt (s := s₂) (show (7 : ℕ) ≠ 5 by decide) 1
    (Nat.succ_lt_succ (Nat.zero_lt_succ 3))]
  refine ⟨rfl, ?_⟩
  rw [failures_of_failed_attempt]
  simp [s₂, s₁, s₀, launchedAgain, crowdedSession, launchFailures, IsLaunchFailure]

def crowdedEvents : List Event :=
  [.newPid 42 0, .pollDeferred (seconds 2), .pollDeferred (seconds 6), .pollDeferred (seconds 14),
    .pollDeferred (seconds 30), .pollDeferred (seconds 62)] ++
  (List.range maxTrackedProcessResults).map (fun i => .newPid (1000 + i) (seconds 100)) ++
  [.newPid 42 (seconds 200), .pollDeferred (seconds 202)]

/-- A process whose result is evicted is counted from zero when it is seen again. -/
theorem evicted_result_forgets_failures :
    ¬∀ events : List Event, (∀ change, Event.sessionChange change ∉ events) →
      let s := (Session.start launchOrchestrator 0).run crowdedService events
      rejections launchedIdentity s.events = 0 → launchFailures launchedIdentity s.history ≤
        launchOrchestrator.deferralPolicy.launchMaxDeferrals + 1 := by
  intro h
  obtain ⟨table, events, history, hfirst, hrejections, hfailures, hkeys⟩ := first_events
  have hindexed : Indexed [launchedIdentity.key] table :=
    ⟨List.nodup_singleton _, fun key => by rw [AList.mem_keys, hkeys]⟩
  -- The table is full after one process less than it has room for.
  obtain ⟨table', events', history', hothers, hindexed', hrejections', hfailures'⟩ :=
    run_others (n := 4095) (by decide) hfirst hindexed
  have hsize : table'.size = maxTrackedProcessResults := by
    rw [← hindexed'.length_eq]
    simp [otherKeys, maxTrackedProcessResults]
  have hnew : (otherIdentity (1000 + 4095)).key ∉ table'.keys := by
    rw [← AList.mem_keys, ← hindexed'.mem_iff]
    simp [otherKeys, otherIdentity, launchedIdentity, ProcessIdentity.key]
    omega
  obtain ⟨record, events'', history'', hlast, hnone, hsame⟩ := handle_other (seconds 100)
    (by decide) (by decide) (launchedIdentity.key :: otherKeys 4095) (some 100) events' history' hnew
  rw [hindexed'.evictOldest_of_full hsize] at hlast
  have hforgotten : launchedIdentity.key ∉ ((table'.erase launchedIdentity.key).insert
      (otherIdentity (1000 + 4095)).key record).keys := by
    rw [← AList.mem_keys, AList.mem_insert, not_or]
    exact ⟨by decide, fun hmem => (AList.mem_erase.1 hmem).1 rfl⟩
  have hend := last_events (otherKeys 4095 ++ [(otherIdentity (1000 + 4095)).key]) (some 100) events''
    history'' hforgotten
  have hrun : (Session.start launchOrchestrator 0).run crowdedService crowdedEvents =
      (crowdedSession (otherKeys 4095 ++ [(otherIdentity (1000 + 4095)).key])
        ((table'.erase launchedIdentity.key).insert (otherIdentity (1000 + 4095)).key record)
        (some 100) events'' history'').run crowdedService
          [.newPid 42 (seconds 200), .pollDeferred (seconds 202)] := by
    have hrange : List.range maxTrackedProcessResults = List.range 4095 ++ [4095] :=
      List.range_succ
    unfold Session.run at hothers ⊢
    unfold crowdedEvents
    rw [hrange, List.map_append, List.foldl_append, List.foldl_append, List.foldl_append]
    rw [hothers]
    simp only [List.map_cons, List.map_nil, List.foldl_cons, List.foldl_nil]
    rw [hlast]
  have hcleared : ∀ change, Event.sessionChange change ∉ crowdedEvents := by
    simp [crowdedEvents]
  have hbound := h crowdedEvents hcleared
  rw [hrun] at hbound
  obtain ⟨hevents, hmore⟩ := hend
  dsimp only at hbound
  rw [hevents, hmore, hsame, hfailures', hfailures, hnone, hrejections', hrejections] at hbound
  exact absurd (hbound rfl) (by decide)

end MacTypeControl.Injection
