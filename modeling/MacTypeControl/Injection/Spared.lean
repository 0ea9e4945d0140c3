import MacTypeControl.Injection.LaunchFailures

/-!
# What an event does to one process

An event takes a process up and tries it, or spares it: nothing is asked or reported for the
process, and it keeps its place in the tables.
-/

namespace MacTypeControl.Injection

open Tables

variable {ω : Type} {identity : ProcessIdentity} (env : Environment ω)

/-! ## The tables of another process -/

section

variable {s s₁ s' : Session ω} {process : ProcessIdentity}

/-- Nothing is reported or asked for a process, and it waits as before or is finished. -/
structure Spared (process : ProcessIdentity) (s s' : Session ω) : Prop where
  policy : s'.orchestrator.deferralPolicy = s.orchestrator.deferralPolicy
  failures : launchFailures process s'.history = launchFailures process s.history
  requested : requests process s'.history = requests process s.history
  same : ∀ target, target.identity = process →
    s'.orchestrator.deferred.lookup process.key = some target →
    s.orchestrator.deferred.lookup process.key = some target
  waiting : Waiting s.orchestrator process.key process →
    Waiting s'.orchestrator process.key process ∨ Finished s'.orchestrator process.key process
  finished : ∀ record, record.identity = process →
    s.orchestrator.processed.lookup process.key = some record →
    s'.orchestrator.processed.lookup process.key = some record

theorem Spared.trans (h : Spared process s s₁) (h' : Spared process s₁ s') :
    Spared process s s' where
  policy := h'.policy.trans h.policy
  failures := h'.failures.trans h.failures
  requested := h'.requested.trans h.requested
  same target hidentity htarget := h.same target hidentity (h'.same target hidentity htarget)
  waiting hwaiting := by
    rcases h.waiting hwaiting with hwaits | ⟨record, hrecord, hidentity, hterminal⟩
    · exact h'.waiting hwaits
    · exact Or.inr ⟨record, h'.finished record hidentity hrecord, hidentity, hterminal⟩
  finished record hidentity hrecord :=
    h'.finished record hidentity (h.finished record hidentity hrecord)

theorem spared_of_same (htables : SameTables s s')
    (hpolicy : s'.orchestrator.deferralPolicy = s.orchestrator.deferralPolicy)
    (hfailures : launchFailures process s'.history = launchFailures process s.history)
    (hrequests : requests process s'.history = requests process s.history) :
    Spared process s s' where
  policy := hpolicy
  failures := hfailures
  requested := hrequests
  same target _ htarget := htables.deferred ▸ htarget
  waiting := by
    rintro ⟨target, htarget, hidentity⟩
    exact Or.inl ⟨target, by rw [htables.deferred, htarget], hidentity⟩
  finished record _ hrecord := by rw [htables.processed, hrecord]

/-- What is reported for one process spares every other. -/
theorem Reports.spared {n : ℕ} (h : Reports identity n s s') (hother : process ≠ identity) :
    Spared process s s' := by
  refine spared_of_same h.tables h.policy ?_ (h.requested process hother)
  rw [h.failures, if_neg hother, Nat.add_zero]

theorem deferred_recordResult (identity : ProcessIdentity) (outcome : ProcessOutcome)
    (attempts : ℕ) (result : BrokerResult) :
    let s' := s.recordResult env identity outcome attempts result
    s'.orchestrator.deferred = s.orchestrator.deferred ∧
      s'.orchestrator.deferralPolicy = s.orchestrator.deferralPolicy ∧
      ∃ keys : List ProcessKey, s'.history = keys.map Observation.evicted ++ s.history := by
  unfold Session.recordResult Session.trackKey
  simp only
  split_ifs
  · exact ⟨rfl, rfl, [], rfl⟩
  · exact ⟨rfl, rfl, _, rfl⟩

theorem policy_evictDeferred (order : List ProcessKey) :
    (s.evictDeferred env order).orchestrator.deferralPolicy = s.orchestrator.deferralPolicy ∧
      ∃ keys : List ProcessKey, (s.evictDeferred env order).history =
        keys.map Observation.evicted ++ s.history := by
  induction order with
  | nil => exact ⟨rfl, [], rfl⟩
  | cons oldest rest ih =>
    unfold Session.evictDeferred
    simp only
    split_ifs
    · split
      · next evicted _ =>
        obtain ⟨-, hpolicy, hhistory⟩ := deferred_recordResult (s := { s with
          orchestrator := { s.orchestrator with
            deferred := s.orchestrator.deferred.erase oldest, deferredOrder := rest } })
          env evicted.identity .skipped 0 ⟨.skipped, deferralCapacityExhaustedCode, none⟩
        exact ⟨hpolicy, hhistory⟩
      · exact ih
    · exact ⟨rfl, [], rfl⟩

theorem policy_insertDeferred (target : DeferredTarget) :
    (s.insertDeferred env target).orchestrator.deferralPolicy = s.orchestrator.deferralPolicy ∧
      ∃ keys : List ProcessKey, (s.insertDeferred env target).history =
        keys.map Observation.evicted ++ s.history := by
  unfold Session.insertDeferred
  simp only
  split_ifs
  · exact ⟨rfl, [], rfl⟩
  · exact policy_evictDeferred env _

theorem counts_of_evicted {keys : List ProcessKey}
    (h : s'.history = keys.map Observation.evicted ++ s.history) (process : ProcessIdentity) :
    launchFailures process s'.history = launchFailures process s.history ∧
      requests process s'.history = requests process s.history := by
  have hfailures : (keys.map Observation.evicted).countP (IsLaunchFailure process) = 0 := by
    simp [List.countP_eq_zero, IsLaunchFailure]
  have hrequests : (keys.map Observation.evicted).countP (IsRequest process) = 0 := by
    simp [List.countP_eq_zero, IsRequest]
  simp [launchFailures, requests, h, hfailures, hrequests]

/-- A process neither waits nor is finished under a key that is in no table. -/
theorem spared_of_unknown (hnew : Unknown s.orchestrator process)
    (hpolicy : s'.orchestrator.deferralPolicy = s.orchestrator.deferralPolicy)
    {keys : List ProcessKey} (hhistory : s'.history = keys.map Observation.evicted ++ s.history)
    (hsame : ∀ target, target.identity = process →
      s'.orchestrator.deferred.lookup process.key ≠ some target) : Spared process s s' where
  policy := hpolicy
  failures := (counts_of_evicted hhistory process).1
  requested := (counts_of_evicted hhistory process).2
  same target hidentity htarget := absurd htarget (hsame target hidentity)
  waiting := by
    rintro ⟨target, htarget, -⟩
    exact absurd (Table.mem_of_lookup htarget) hnew.2
  finished record _ hrecord := absurd (Table.mem_of_lookup hrecord) hnew.1

/-- A result for a process that was unknown spares what is known of another. -/
theorem spared_recordResult (htidy : Tidy s.orchestrator) (hnew : Unknown s.orchestrator identity)
    (outcome : ProcessOutcome) (attempts : ℕ) (result : BrokerResult)
    (hkept : Observation.evicted process.key ∉
      (s.recordResult env identity outcome attempts result).history) :
    Spared process s (s.recordResult env identity outcome attempts result) := by
  obtain ⟨hdeferred, hpolicy, -⟩ :=
    deferred_recordResult (s := s) env identity outcome attempts result
  obtain ⟨evicted, hhistory, -, -, hlookup, -⟩ :=
    recordResult_spec env hnew.1 htidy outcome attempts result
  by_cases hkey : process.key = identity.key
  · have hunknown : Unknown s.orchestrator process := by
      unfold Unknown
      rw [hkey]
      exact hnew
    refine spared_of_unknown hunknown hpolicy hhistory fun target _ htarget => ?_
    rw [hdeferred] at htarget
    exact hunknown.2 (Table.mem_of_lookup htarget)
  · have hcounts := counts_of_evicted hhistory process
    have hnot : process.key ∉ evicted := fun hmem => hkept (by
      rw [hhistory]
      exact List.mem_append_left _ (List.mem_map_of_mem hmem))
    refine ⟨hpolicy, hcounts.1, hcounts.2, fun target _ htarget => hdeferred ▸ htarget, ?_, ?_⟩
    · rintro ⟨target, htarget, hidentity⟩
      exact Or.inl ⟨target, by rw [hdeferred, htarget], hidentity⟩
    · intro record _ hrecord
      rw [hlookup _ hkey, if_neg hnot, hrecord]

theorem spared_insertDeferred (htidy : Tidy s.orchestrator) {target : DeferredTarget}
    (hnew : Unknown s.orchestrator target.identity) (hother : process ≠ target.identity)
    (hkept : Observation.evicted process.key ∉ (s.insertDeferred env target).history) :
    Spared process s (s.insertDeferred env target) := by
  obtain ⟨hpolicy, keys, hhistory⟩ := policy_insertDeferred (s := s) env target
  by_cases hkey : process.key = target.identity.key
  · have hunknown : Unknown s.orchestrator process := by
      unfold Unknown
      rw [hkey]
      exact hnew
    refine spared_of_unknown hunknown hpolicy hhistory fun other hidentity hlookup => ?_
    have hinserted : (s.insertDeferred env target).orchestrator.deferred.lookup process.key =
      some target := hkey ▸ AList.lookup_insert _
    obtain rfl := Option.some.inj (hlookup.symm.trans hinserted)
    exact hother hidentity.symm
  have hcounts := counts_of_evicted hhistory process
  have hwaiting : Waiting s.orchestrator process.key process →
      Waiting (s.insertDeferred env target).orchestrator process.key process ∨
        Finished (s.insertDeferred env target).orchestrator process.key process := by
    rintro ⟨other, hlookup, rfl⟩
    exact kept_insertDeferred env htidy hnew hlookup
  rcases insertDeferred_cases env htidy hnew with
    ⟨-, hinsert⟩ | ⟨oldest, rest, evicted, -, hqueue, hevicted, holdest, hinsert⟩
  · refine ⟨hpolicy, hcounts.1, hcounts.2, fun other _ hlookup => ?_, hwaiting, ?_⟩
    · rw [hinsert] at hlookup
      rwa [AList.lookup_insert_ne hkey] at hlookup
    · intro record _ hrecord
      rw [hinsert, hrecord]
  · -- The oldest target is recorded as skipped; it may be the process itself.
    have hmem : oldest ∈ s.orchestrator.deferred := Table.mem_of_lookup hevicted
    have hfresh : evicted.identity.key ∉ s.orchestrator.processed :=
      htidy.disjoint _ (holdest ▸ hmem)
    have hidx := htidy.deferredIndexed
    rw [hqueue] at hidx
    refine ⟨hpolicy, hcounts.1, hcounts.2, fun other _ hlookup => ?_, hwaiting, ?_⟩
    · rw [hinsert] at hlookup
      dsimp only at hlookup
      rw [AList.lookup_insert_ne hkey, Session.recordSkip,
        (deferred_recordResult env evicted.identity .skipped 0 _).1] at hlookup
      by_cases hold : process.key = oldest
      · rw [hold, AList.lookup_erase] at hlookup
        exact absurd hlookup (by simp)
      · rwa [AList.lookup_erase_ne hold] at hlookup
    · intro record hidentity hrecord
      rw [hinsert] at hkept ⊢
      have hapart : process.key ≠ evicted.identity.key := fun he =>
        hfresh (he ▸ Table.mem_of_lookup hrecord)
      obtain ⟨gone, hgone, -, -, hlookup, -⟩ := recordResult_spec (s := { s with
        orchestrator := { s.orchestrator with
          deferred := s.orchestrator.deferred.erase oldest, deferredOrder := rest } }) env hfresh
        (htidy.dropDeferred hidx.popFront) .skipped 0 ⟨.skipped, deferralCapacityExhaustedCode, none⟩
      have hnot : process.key ∉ gone := fun hin => hkept (by
        dsimp only [Session.recordSkip]
        rw [hgone]
        exact List.mem_append_left _ (List.mem_map_of_mem hin))
      dsimp only [Session.recordSkip]
      rw [hlookup _ hapart, if_neg hnot, hrecord]

/-- A try of another process spares this one. -/
theorem Tried.spared {deferrals now : ℕ} (h : Tried env identity deferrals now s s')
    (htidy : Tidy s.orchestrator) (hnew : Unknown s.orchestrator identity)
    (hother : process ≠ identity) (hkept : Observation.evicted process.key ∉ s'.history) :
    Spared process s s' := by
  cases h with
  | recorded reports atMost outcome terminal failed attempts result =>
    exact (reports.spared hother).trans (spared_recordResult env (htidy.of_same reports.tables)
      (hnew.of_same reports.tables) outcome attempts result hkept)
  | frozen reports notBefore =>
    exact (reports.spared hother).trans (spared_insertDeferred env (htidy.of_same reports.tables)
      (hnew.of_same reports.tables) hother hkept)
  | launchFailed reports within =>
    exact (reports.spared hother).trans (spared_insertDeferred env (htidy.of_same reports.tables)
      (hnew.of_same reports.tables) hother hkept)

/-! ## One event -/

/-- The event takes the process up: it is new, or waits and is due. -/
inductive Taken (process : ProcessIdentity) (s : Session ω) : Event → ℕ → ℕ → Session ω → Prop
  | new (pid now : ℕ) (unknown : Unknown s.orchestrator process) :
      Taken process s (.newPid pid now) now 0 s
  | due (now : ℕ) (target : DeferredTarget)
      (waits : s.orchestrator.deferred.lookup process.key = some target)
      (of_process : target.identity = process) (isDue : target.notBefore ≤ now) :
      Taken process s (.pollDeferred now) now target.deferrals
        { s with orchestrator := s.orchestrator.takeDue now }

/-- The event looks again at the process, and inspecting it fails. -/
def InspectionFailsFor (process : ProcessIdentity) (s : Session ω) : Event → Prop
  | .pollDeferred now => ∃ target,
      s.orchestrator.deferredOrder.find? (Session.isDue s.orchestrator now) = some process.key ∧
      s.orchestrator.deferred.lookup process.key = some target ∧ target.identity = process ∧
      InspectionLost env s target
  | _ => False

/-- The event does not make the service forget what it knows of the process. -/
structure KeepsCount (process : ProcessIdentity) (s : Session ω) (event : Event) : Prop where
  uncleared : ∀ change, event = .sessionChange change → ¬change.Clears process
  inspected : ¬InspectionFailsFor env process s event
  unevicted : Observation.evicted process.key ∉ (s.handle env event).history

theorem takeDue_same (o : InjectionOrchestrator) (now : ℕ) :
    (o.takeDue now).deferralPolicy = o.deferralPolicy ∧ (o.takeDue now).servicePid = o.servicePid ∧
      (o.takeDue now).processed = o.processed := by
  unfold InjectionOrchestrator.takeDue
  split <;> exact ⟨rfl, rfl, rfl⟩

theorem Taken.same {event : Event} {now deferrals : ℕ} (h : Taken process s event now deferrals s₁) :
    s₁.history = s.history ∧ s₁.orchestrator.deferralPolicy = s.orchestrator.deferralPolicy := by
  cases h with
  | new pid unknown => exact ⟨rfl, rfl⟩
  | due target waits of_process isDue => exact ⟨rfl, (takeDue_same s.orchestrator now).1⟩

/-- Taking another target out of the queue spares the process. -/
theorem spared_takeDue {now : ℕ} {key : ProcessKey} {target : DeferredTarget}
    (hdue : s.orchestrator.deferredOrder.find? (Session.isDue s.orchestrator now) = some key)
    (htarget : s.orchestrator.deferred.lookup key = some target)
    (hother : target.identity ≠ process) :
    Spared process s { s with orchestrator := s.orchestrator.takeDue now } := by
  have htaken : (s.orchestrator.takeDue now).deferred = s.orchestrator.deferred.erase key := by
    unfold InjectionOrchestrator.takeDue
    rw [hdue]
  obtain ⟨hpolicy, -, hprocessed⟩ := takeDue_same s.orchestrator now
  refine ⟨hpolicy, rfl, rfl, fun other _ hlookup => ?_, ?_, fun record _ hrecord => ?_⟩
  · dsimp only at hlookup
    rw [htaken] at hlookup
    by_cases hkey : process.key = key
    · rw [hkey, AList.lookup_erase] at hlookup
      exact absurd hlookup (by simp)
    · rwa [AList.lookup_erase_ne hkey] at hlookup
  · rintro ⟨other, hlookup, hidentity⟩
    have hkey : process.key ≠ key := by
      rintro rfl
      obtain rfl := Option.some.inj (htarget.symm.trans hlookup)
      exact hother hidentity
    exact Or.inl ⟨other, by dsimp only; rw [htaken, AList.lookup_erase_ne hkey, hlookup], hidentity⟩
  · dsimp only
    rw [hprocessed, hrecord]

theorem spared_sessionChange {change : SessionChange} (h : ¬change.Clears process) :
    Spared process s (s.handleSessionChange change) := by
  have hoverflow : change.isOverflow ≠ true := fun hover => h (Or.inl hover)
  unfold Session.handleSessionChange
  dsimp only
  rw [if_neg hoverflow]
  split
  · next hends =>
    have hsession : (process.sessionId != change.sessionId) = true := by
      simpa using fun hsame => h (Or.inr ⟨hends, hsame⟩)
    refine ⟨rfl, by simp [launchFailures, IsLaunchFailure], by simp [requests, IsRequest], ?_, ?_, ?_⟩
    · intro target hidentity htarget
      dsimp only at htarget
      rw [Table.lookup_retain] at htarget
      exact (Option.filter_eq_some_iff.mp htarget).1
    · rintro ⟨target, htarget, hidentity⟩
      refine Or.inl ⟨target, ?_, hidentity⟩
      dsimp only
      rw [Table.lookup_retain, htarget]
      simp [hidentity, hsession]
    · intro record hidentity hrecord
      dsimp only
      rw [Table.lookup_retain, hrecord]
      simp [hidentity, hsession]
  · exact spared_of_same ⟨rfl, rfl, rfl, rfl⟩ rfl (by simp [launchFailures, IsLaunchFailure])
      (by simp [requests, IsRequest])

/-- What an event does to a process: it is spared, or it is taken up and tried. -/
theorem handle_cases {limits : Limits} (hs : Sound limits s) {event : Event}
    (hkeeps : KeepsCount env process s event) :
    Spared process s (s.handle env event) ∨ ∃ now deferrals s₁,
      Taken process s event now deferrals s₁ ∧ Unknown s₁.orchestrator process ∧
        Tried env process deferrals now s₁ (s.handle env event) := by
  have hunevicted := hkeeps.unevicted
  cases event with
  | newPid pid now =>
    rcases tried_handlePidAt (s := s) env pid now with hnone | ⟨identity, hnew, htried⟩
    · obtain ⟨hreports, hrequests⟩ := hnone process
      have hfailures := hreports.failures process
      rw [ite_self, Nat.add_zero] at hfailures
      exact Or.inl (spared_of_same hreports.tables hreports.policy hfailures hrequests)
    · by_cases hidentity : identity = process
      · subst hidentity
        exact Or.inr ⟨now, 0, s, .new pid now hnew, hnew, htried⟩
      · exact Or.inl (htried.spared env hs.tidy hnew (Ne.symm hidentity) hunevicted)
  | pollDeferred now =>
    have hhandle : s.handle env (.pollDeferred now) = (s.pollDeferred env now).2 := rfl
    rw [hhandle] at hunevicted ⊢
    rcases pollDeferred_cases env hs now with
      ⟨-, hsame⟩ | ⟨key, target, hdue, htarget, hkey, htidy, hnew, hpoll⟩
    · rw [hsame]
      exact Or.inl (spared_of_same (.refl s) rfl rfl rfl)
    · rw [hpoll] at hunevicted ⊢
      have htry := tried_recheckDeferred (s := { s with
        orchestrator := s.orchestrator.takeDue now }) env target now
      by_cases hidentity : target.identity = process
      · subst hidentity
        subst hkey
        rcases htry with htried | ⟨⟨world, error, hagain, herror⟩, -⟩
        · have hready : target.notBefore ≤ now := by
            have hdue' := List.find?_some hdue
            unfold Session.isDue at hdue'
            simpa [htarget] using hdue'
          exact Or.inr ⟨now, _, _, .due now target htarget rfl hready, hnew, htried⟩
        · refine absurd ⟨target, hdue, htarget, rfl, world, error, hagain, ?_⟩ hkeeps.inspected
          rw [← (takeDue_same s.orchestrator now).2.1]
          exact herror
      · refine Or.inl ((spared_takeDue hdue htarget hidentity).trans ?_)
        rcases htry with htried | ⟨-, hreports⟩
        · exact htried.spared env htidy hnew (Ne.symm hidentity) hunevicted
        · exact hreports.spared (Ne.symm hidentity)
  | sessionChange change => exact Or.inl (spared_sessionChange (hkeeps.uncleared change rfl))

end

end MacTypeControl.Injection
