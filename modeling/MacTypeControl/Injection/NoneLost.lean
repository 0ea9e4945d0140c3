import MacTypeControl.Injection.Capacity

/-!
# What becomes of a deferred target

A target leaves the deferred table to be recorded, to be deferred again, or because a
session change clears it; it is lost where looking at it again fails.
-/

namespace MacTypeControl.Injection

open Tables

variable {ω : Type} {identity : ProcessIdentity} (env : Environment ω) {s s' : Session ω}

/-- The target waits under its key. -/
def Waiting (o : InjectionOrchestrator) (key : ProcessKey) (identity : ProcessIdentity) : Prop :=
  ∃ target, o.deferred.lookup key = some target ∧ target.identity = identity

/-- The target has a terminal result under its key. -/
def Finished (o : InjectionOrchestrator) (key : ProcessKey) (identity : ProcessIdentity) : Prop :=
  ∃ record, o.processed.lookup key = some record ∧ record.identity = identity ∧
    record.outcome.isTerminal = true

/-- No deferred target is lost: each waits, is finished, or was cleared by a session change. -/
def NoneLost (o o' : InjectionOrchestrator) (event : Event) : Prop :=
  ∀ key target, o.deferred.lookup key = some target →
    Waiting o' key target.identity ∨ Finished o' key target.identity ∨
      ∃ change, event = .sessionChange change ∧ change.Clears target.identity

/-- The event looks again at a due target, and inspecting it fails. -/
def InspectionFails (s : Session ω) : Event → Prop
  | .pollDeferred now => ∃ key target world error,
      s.orchestrator.deferredOrder.find? (Session.isDue s.orchestrator now) = some key ∧
      s.orchestrator.deferred.lookup key = some target ∧ InspectedAgain env s target world ∧
      (validate env s.orchestrator.servicePid target.identity.pid world).1 = .error error
  | _ => False

/-! ## One conclusion -/

theorem finished_recordResult (identity : ProcessIdentity) (outcome : ProcessOutcome)
    (h : outcome.isTerminal = true) (attempts : ℕ) (result : BrokerResult) :
    Finished (s.recordResult env identity outcome attempts result).orchestrator identity.key
      identity := by
  obtain ⟨record, hrecord, hidentity, houtcome⟩ :=
    lookup_recordResult (s := s) env identity outcome attempts result
  exact ⟨record, hrecord, hidentity, houtcome ▸ h⟩

theorem waiting_insertDeferred (target : DeferredTarget) :
    Waiting (s.insertDeferred env target).orchestrator target.identity.key target.identity :=
  ⟨target, AList.lookup_insert _, rfl⟩

/-- Deferring a target keeps every other one, or finishes it. -/
theorem kept_insertDeferred (htidy : Tidy s.orchestrator) {target : DeferredTarget}
    (hnew : Unknown s.orchestrator target.identity) {key : ProcessKey} {other : DeferredTarget}
    (hother : s.orchestrator.deferred.lookup key = some other) :
    Waiting (s.insertDeferred env target).orchestrator key other.identity ∨
      Finished (s.insertDeferred env target).orchestrator key other.identity := by
  have hne : key ≠ target.identity.key := fun he => hnew.2 (he ▸ Table.mem_of_lookup hother)
  rcases insertDeferred_cases env htidy hnew with
    ⟨-, hinsert⟩ | ⟨oldest, rest, evicted, -, hqueue, hevicted, holdest, hinsert⟩
  · left
    rw [hinsert]
    exact ⟨other, by rw [AList.lookup_insert_ne hne, hother], rfl⟩
  · have hmem : oldest ∈ s.orchestrator.deferred := Table.mem_of_lookup hevicted
    have hfresh : evicted.identity.key ∉ s.orchestrator.processed :=
      htidy.disjoint _ (holdest ▸ hmem)
    have hidx := htidy.deferredIndexed
    rw [hqueue] at hidx
    let s₂ : Session ω := { s with orchestrator := { s.orchestrator with
      deferred := s.orchestrator.deferred.erase oldest, deferredOrder := rest } }
    have htidy₂ : Tidy s₂.orchestrator := htidy.dropDeferred hidx.popFront
    obtain ⟨-, hdeferred, -⟩ := advanced_recordResult env (s := s₂) htidy₂
      hfresh .skipped 0 ⟨.skipped, deferralCapacityExhaustedCode, none⟩
    rw [hinsert]
    by_cases hkey : key = oldest
    · right
      have hsame : other = evicted := Option.some.inj (hother.symm.trans (hkey ▸ hevicted))
      have hskipped := finished_recordResult (s := s₂) env evicted.identity .skipped rfl 0
        ⟨.skipped, deferralCapacityExhaustedCode, none⟩
      rw [holdest] at hskipped
      rw [hsame, hkey]
      exact hskipped
    · left
      refine ⟨other, ?_, rfl⟩
      dsimp only [Session.recordSkip]
      rw [AList.lookup_insert_ne hne, hdeferred, AList.lookup_erase_ne hkey, hother]

/-- A conclusion loses no target, its own included. -/
theorem Concluded.kept (h : Concluded env identity s s') (htidy : Tidy s.orchestrator)
    (hnew : Unknown s.orchestrator identity) :
    (Waiting s'.orchestrator identity.key identity ∨
      Finished s'.orchestrator identity.key identity) ∧
    ∀ key target, s.orchestrator.deferred.lookup key = some target →
      Waiting s'.orchestrator key target.identity ∨
        Finished s'.orchestrator key target.identity := by
  cases h with
  | recorded same outcome terminal attempts result =>
    refine ⟨Or.inr (finished_recordResult env identity outcome terminal attempts result), ?_⟩
    intro key target htarget
    obtain ⟨-, hdeferred, -⟩ := advanced_recordResult env (htidy.of_same same)
      (hnew.of_same same).1 outcome attempts result
    left
    refine ⟨target, ?_, rfl⟩
    rw [hdeferred, same.deferred, htarget]
  | deferred same deferred of_identity =>
    refine ⟨Or.inl (of_identity ▸ waiting_insertDeferred env deferred), ?_⟩
    intro key target htarget
    have hnew' := hnew.of_same same
    rw [← of_identity] at hnew'
    exact kept_insertDeferred env (htidy.of_same same) hnew' (same.deferred ▸ htarget)

/-! ## The events -/

theorem Waiting.of_same {key : ProcessKey} {target : DeferredTarget} (h : SameTables s s')
    (htarget : s.orchestrator.deferred.lookup key = some target) :
    Waiting s'.orchestrator key target.identity :=
  ⟨target, by rw [h.deferred, htarget], rfl⟩

/-- A new process is passed over, or its handling ends in a conclusion. -/
theorem concluded_or_same_handlePidAt (pid now : ℕ) :
    SameTables s (s.handlePidAt env pid now).2 ∨ ∃ identity, Unknown s.orchestrator identity ∧
      Concluded env identity s (s.handlePidAt env pid now).2 := by
  have hsame : SameTables s ((s.setLastHandled none).validateTarget env pid).2 :=
    ⟨rfl, rfl, rfl, rfl⟩
  unfold Session.handlePidAt
  revert hsame
  rcases (s.setLastHandled none).validateTarget env pid with
    ⟨error | ⟨identity⟩ | ⟨reason⟩ | ⟨identity, reason⟩, s₁⟩ <;> intro hsame
  · exact Or.inl hsame
  · have hlast : SameTables s (s₁.setLastHandled identity.creationTime) :=
      hsame.trans ⟨rfl, rfl, rfl, rfl⟩
    dsimp only
    split
    · exact Or.inl hlast
    · next hfresh =>
      have hnew := unknown_of_not_contains hfresh
      rw [Unknown, hlast.processed, hlast.deferred] at hnew
      exact Or.inr ⟨identity, hnew, (concluded_attemptInjection env 0 now).after hlast⟩
  · exact Or.inl (hsame.trans ⟨rfl, rfl, rfl, rfl⟩)
  · have hlast : SameTables s (s₁.setLastHandled identity.creationTime) :=
      hsame.trans ⟨rfl, rfl, rfl, rfl⟩
    dsimp only
    split
    · exact Or.inl hlast
    · next hfresh =>
      have hnew := unknown_of_not_contains hfresh
      rw [Unknown, hlast.processed, hlast.deferred] at hnew
      exact Or.inr ⟨identity, hnew, .deferred hlast _ rfl⟩

theorem noneLost_newPid (hs : Tidy s.orchestrator) (pid now : ℕ) :
    NoneLost s.orchestrator (s.handlePidAt env pid now).2.orchestrator (.newPid pid now) := by
  intro key target htarget
  rcases concluded_or_same_handlePidAt (s := s) env pid now with
    hsame | ⟨identity, hnew, hconcluded⟩
  · exact Or.inl (.of_same hsame htarget)
  · rcases (hconcluded.kept env hs hnew).2 key target htarget with hwaiting | hfinished
    · exact Or.inl hwaiting
    · exact Or.inr (Or.inl hfinished)

theorem noneLost_sessionChange (change : SessionChange) :
    NoneLost s.orchestrator (s.handleSessionChange change).orchestrator
      (.sessionChange change) := by
  intro key target htarget
  by_cases hclears : change.Clears target.identity
  · exact Or.inr (Or.inr ⟨change, rfl, hclears⟩)
  · left
    have hoverflow : change.isOverflow ≠ true := fun h => hclears (Or.inl h)
    unfold Session.handleSessionChange
    dsimp only
    rw [if_neg hoverflow]
    split
    · next hends =>
      have hother : target.identity.sessionId ≠ change.sessionId := fun h =>
        hclears (Or.inr ⟨hends, h⟩)
      refine ⟨target, ?_, rfl⟩
      dsimp only
      rw [Table.lookup_retain, htarget]
      simp [hother]
    · exact ⟨target, htarget, rfl⟩

/-- A poll loses a target exactly where it looks at the due one again and cannot inspect it. -/
theorem noneLost_pollDeferred_iff {limits : Limits} (hs : Sound limits s) (now : ℕ) :
    NoneLost s.orchestrator (s.pollDeferred env now).2.orchestrator (.pollDeferred now) ↔
      ¬InspectionFails env s (.pollDeferred now) := by
  rcases pollDeferred_cases env hs now with
    ⟨hnone, hsame⟩ | ⟨due, target, hdue, htarget, hkey, htidy, hnew, hpoll⟩
  · refine iff_of_true ?_ ?_
    · intro key target htarget
      rw [hsame]
      exact Or.inl ⟨target, htarget, rfl⟩
    · rintro ⟨key, -, -, -, hsome, -⟩
      rw [hnone] at hsome
      exact absurd hsome (by simp)
  let s₁ : Session ω := { s with orchestrator := s.orchestrator.takeDue now }
  have htaken : s₁.orchestrator.deferred = s.orchestrator.deferred.erase due := by
    dsimp only [s₁]
    unfold InjectionOrchestrator.takeDue
    rw [hdue]
  have hpid : s₁.orchestrator.servicePid = s.orchestrator.servicePid := by
    dsimp only [s₁]
    unfold InjectionOrchestrator.takeDue
    rw [hdue]
  rw [hpoll]
  constructor
  · -- The target is out of one table and was never in the other.
    rintro hnot ⟨key, target', world, error, hkey', htarget', hagain, herror⟩
    have hdue' : due = key := Option.some.inj (hdue.symm.trans hkey')
    subst hdue'
    have htarget'' : target = target' := Option.some.inj (htarget.symm.trans htarget')
    subst htarget''
    have hsame : SameTables s₁ (s₁.recheckDeferred env target now).2 :=
      sameTables_recheckDeferred env target now hagain (hpid ▸ herror)
    rcases hnot due target htarget with ⟨other, hother, -⟩ | ⟨record, hrecord, -⟩ | ⟨_, hchange, -⟩
    · rw [hsame.deferred, htaken, AList.lookup_erase] at hother
      exact absurd hother (by simp)
    · rw [hsame.processed] at hrecord
      exact hnew.1 (hkey.symm ▸ Table.mem_of_lookup hrecord)
    · exact absurd hchange (by simp)
  · intro hinspected key other hother
    have hconcluded : Concluded env target.identity s₁ (s₁.recheckDeferred env target now).2 := by
      apply concluded_recheckDeferred
      intro world hagain
      rw [hpid]
      cases hdecision : (validate env s.orchestrator.servicePid target.identity.pid world).1 with
      | ok decision => exact ⟨decision, rfl⟩
      | error error =>
        exact absurd ⟨due, target, world, error, hdue, htarget, hagain, hdecision⟩ hinspected
    obtain ⟨hown, hothers⟩ := hconcluded.kept env htidy hnew
    by_cases hother' : key = due
    · have hsame : other = target := Option.some.inj (hother.symm.trans (hother' ▸ htarget))
      rw [hsame, hother', ← hkey]
      exact hown.elim Or.inl fun h => Or.inr (Or.inl h)
    · have hstays : s₁.orchestrator.deferred.lookup key = some other := by
        rw [htaken, AList.lookup_erase_ne hother', hother]
      exact (hothers key other hstays).elim Or.inl fun h => Or.inr (Or.inl h)

/-- In every state a run reaches, the next event loses no deferred target exactly where it
does not fail to inspect a due one. -/
theorem run_loses_none_iff (servicePid : ℕ) (generationId : String)
    (profileDigest : Option String) (retryPolicy : RetryPolicy) (world : ω)
    (events : List Event) (event : Event) :
    let o := InjectionOrchestrator.build servicePid generationId profileDigest retryPolicy
    let s := (Session.start o world).run env events
    NoneLost s.orchestrator (s.handle env event).orchestrator event ↔
      ¬InspectionFails env s event := by
  intro o s
  have hstart := sound_start servicePid generationId profileDigest retryPolicy world
  have hs := hstart.run env events
  cases event with
  | newPid pid now => exact iff_of_true (noneLost_newPid env hs.tidy pid now) not_false
  | pollDeferred now => exact noneLost_pollDeferred_iff env hs now
  | sessionChange change => exact iff_of_true (noneLost_sessionChange change) not_false

/-! ## A target that is lost -/

def thawedIdentity : ProcessIdentity := ⟨42, 100, 2, .x64, false⟩

/-- The target is frozen when it is first seen and runs afterwards, and the second
inspection fails. The world counts the questions. -/
def failingInspection : Environment ℕ where
  inspect world _ :=
    (if world = 0 then .ok ⟨thawedIdentity, false, false, false, some "app.exe"⟩
      else .error ⟨"inspector-infrastructure-failed", "the inspector adapter failed", some 1722⟩,
      world + 1)
  probeTargetLifecycle world _ := (if world = 1 then .frozen else .running, world + 1)
  probeTargetLiveness world _ := (.alive, world)
  processBasename world _ := (none, world)
  inject world _ := (⟨.injected, "injected", none⟩, world)
  retryScheduler := none

/-- The target is deferred, and the poll that finds it due loses it. -/
theorem failing_inspection_loses_target :
    let o := InjectionOrchestrator.build 900 "generation" none .default
    let s := (Session.start o 0).run failingInspection [.newPid 42 0]
    ¬NoneLost s.orchestrator
      (s.handle failingInspection (.pollDeferred (seconds 2))).orchestrator
      (.pollDeferred (seconds 2)) := by
  intro o s h
  let s' := s.handle failingInspection (.pollDeferred (seconds 2))
  have hdeferred : (s.orchestrator.deferred.lookup ⟨42, 100⟩).isSome = true := by rfl
  have hgone : (s'.orchestrator.deferred.lookup ⟨42, 100⟩).isSome = false := by rfl
  have hunrecorded : (s'.orchestrator.processed.lookup ⟨42, 100⟩).isSome = false := by rfl
  obtain ⟨target, htarget⟩ := Option.isSome_iff_exists.1 hdeferred
  rcases h _ _ htarget with ⟨other, hother, -⟩ | ⟨record, hrecord, -⟩ | ⟨_, hchange, -⟩
  · rw [hother] at hgone
    exact absurd hgone (by simp)
  · rw [hrecord] at hunrecorded
    exact absurd hunrecorded (by simp)
  · exact absurd hchange (by simp)

end MacTypeControl.Injection
