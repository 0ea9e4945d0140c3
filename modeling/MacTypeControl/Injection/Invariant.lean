import MacTypeControl.Injection.History

/-!
# The invariant of the orchestrator

Both tables agree with their queues, no key is in both, and every settled
identity is in the processed table. Each operation keeps the invariant; while a
try is under way its own identity may be settled without being recorded yet.
-/

namespace MacTypeControl.Injection

open Tables

/-- The two tables and their queues. -/
structure Tidy (o : InjectionOrchestrator) : Prop where
  processedIndexed : Indexed o.processOrder o.processed
  deferredIndexed : Indexed o.deferredOrder o.deferred
  deferredKey : ∀ key target, o.deferred.lookup key = some target → target.identity.key = key
  disjoint : ∀ key, key ∈ o.deferred → key ∉ o.processed

def Recorded (o : InjectionOrchestrator) (identity : ProcessIdentity) : Prop :=
  ∃ record, o.processed.lookup identity.key = some record ∧ record.identity = identity

/-- The history is as it should be, and every settled identity that is not
`exempt` is recorded. -/
structure Kept {ω : Type} (limits : Limits) (exempt : ProcessIdentity → Prop) (s : Session ω) :
    Prop where
  limits_eq : s.orchestrator.limits = limits
  wellKept : WellKept limits s.history
  recorded : ∀ identity, Outstanding limits identity s.history →
    exempt identity ∨ Recorded s.orchestrator identity

/-- The invariant between two events. -/
structure Sound {ω : Type} (limits : Limits) (s : Session ω) : Prop where
  tidy : Tidy s.orchestrator
  kept : Kept limits (fun _ => False) s

/-- The process is neither processed nor deferred. -/
def Unknown (o : InjectionOrchestrator) (identity : ProcessIdentity) : Prop :=
  identity.key ∉ o.processed ∧ identity.key ∉ o.deferred

variable {ω : Type} {limits : Limits} {exempt : ProcessIdentity → Prop} {s : Session ω}
  {identity : ProcessIdentity} (env : Environment ω)

theorem Recorded.mem {o : InjectionOrchestrator} (h : Recorded o identity) :
    identity.key ∈ o.processed := by
  obtain ⟨record, hrecord, -⟩ := h
  exact Table.mem_of_lookup hrecord

theorem Kept.mono {exempt' : ProcessIdentity → Prop} (h : Kept limits exempt s)
    (himp : ∀ i, exempt i → exempt' i) : Kept limits exempt' s :=
  ⟨h.limits_eq, h.wellKept, fun i hi => (h.recorded i hi).imp_left (himp i)⟩

theorem unknown_of_not_contains {o : InjectionOrchestrator}
    (h : ¬o.containsIdentity identity = true) : Unknown o identity := by
  simpa [InjectionOrchestrator.containsIdentity, Unknown, ← AList.mem_keys] using h

/-! ## Recording a result -/

/-- What recording a result for a new key does to the memory and the history. -/
theorem recordResult_spec (hnew : identity.key ∉ s.orchestrator.processed)
    (htidy : Tidy s.orchestrator) (outcome : ProcessOutcome) (attempts : ℕ)
    (result : BrokerResult) :
    let s' := s.recordResult env identity outcome attempts result
    ∃ evicted : List ProcessKey,
      s'.history = evicted.map Observation.evicted ++ s.history ∧
      Indexed s'.orchestrator.processOrder s'.orchestrator.processed ∧
      Recorded s'.orchestrator identity ∧
      (∀ key, key ≠ identity.key → s'.orchestrator.processed.lookup key =
        if key ∈ evicted then none else s.orchestrator.processed.lookup key) ∧
      s'.orchestrator.deferred = s.orchestrator.deferred ∧
      s'.orchestrator.deferredOrder = s.orchestrator.deferredOrder ∧
      s'.orchestrator.limits = s.orchestrator.limits := by
  have hk : identity.key ∉ s.orchestrator.processed.keys := hnew
  have hidx := htidy.processedIndexed.evictOldest maxTrackedProcessResults
  set out := evictOldest maxTrackedProcessResults s.orchestrator.processOrder
    s.orchestrator.processed with hout
  have hlookup : ∀ key, out.2.1.lookup key =
      if key ∈ out.2.2 then none else s.orchestrator.processed.lookup key := fun _ =>
    lookup_evictOldest
  have habsent : identity.key ∉ out.2.1 := by
    refine (AList.lookup_eq_none (s := out.2.1)).1 ?_
    rw [hlookup, AList.lookup_eq_none.2 hnew, ite_self]
  simp only [Session.recordResult, Session.trackKey, hk, if_false, ← hout]
  refine ⟨out.2.2.reverse, rfl, hidx.pushBack habsent _, ⟨_, AList.lookup_insert _, rfl⟩, ?_,
    trivial, trivial, rfl⟩
  intro key hkey
  rw [AList.lookup_insert_ne hkey, hlookup]
  simp only [List.mem_reverse]

theorem sound_recordResult (htidy : Tidy s.orchestrator) (hkept : Kept limits (· = identity) s)
    (hnew : Unknown s.orchestrator identity) (outcome : ProcessOutcome) (attempts : ℕ)
    (result : BrokerResult) :
    Sound limits (s.recordResult env identity outcome attempts result) := by
  obtain ⟨evicted, hhist, hidx, hrec, hlookup, hdef, hdefOrder, hlim⟩ :=
    recordResult_spec env hnew.1 htidy outcome attempts result
  refine ⟨⟨hidx, ?_, ?_, ?_⟩, ⟨hlim.trans hkept.limits_eq, ?_, ?_⟩⟩
  · rw [hdef, hdefOrder]
    exact htidy.deferredIndexed
  · rw [hdef]
    exact htidy.deferredKey
  · intro key hkey
    rw [hdef] at hkey
    have hne : key ≠ identity.key := by
      rintro rfl
      exact hnew.2 hkey
    rw [← AList.lookup_eq_none, hlookup key hne,
      AList.lookup_eq_none.2 (htidy.disjoint key hkey), ite_self]
  · rw [hhist, wellKept_evicted]
    exact hkept.wellKept
  · intro i hi
    rw [hhist, outstanding_evicted] at hi
    right
    rcases hkept.recorded i hi.1 with rfl | ⟨record, hrecord, rfl⟩
    · exact hrec
    · by_cases hne : record.identity.key = identity.key
      · rw [hne] at hrecord
        exact absurd (Table.mem_of_lookup hrecord) hnew.1
      · exact ⟨record, by rw [hlookup _ hne, if_neg hi.2, hrecord], rfl⟩

theorem not_mem_recordResult (htidy : Tidy s.orchestrator)
    (hnew : identity.key ∉ s.orchestrator.processed) {key : ProcessKey}
    (hne : key ≠ identity.key) (hkey : key ∉ s.orchestrator.processed)
    (outcome : ProcessOutcome) (attempts : ℕ) (result : BrokerResult) :
    key ∉ (s.recordResult env identity outcome attempts result).orchestrator.processed := by
  obtain ⟨evicted, -, -, -, hlookup, -⟩ :=
    recordResult_spec env hnew htidy outcome attempts result
  rw [← AList.lookup_eq_none, hlookup key hne, AList.lookup_eq_none.2 hkey, ite_self]

/-! ## Deferring a target -/

theorem Tidy.dropDeferred {o : InjectionOrchestrator} {order : List ProcessKey}
    {key : ProcessKey} (h : Tidy o) (hidx : Indexed order (o.deferred.erase key)) :
    Tidy { o with deferred := o.deferred.erase key, deferredOrder := order } := by
  refine ⟨h.processedIndexed, hidx, fun k target hk => ?_, fun k hk => ?_⟩
  · by_cases hne : k = key
    · rw [hne] at hk
      simp [AList.lookup_erase] at hk
    · exact h.deferredKey k target (by rwa [AList.lookup_erase_ne hne] at hk)
  · exact h.disjoint k (AList.mem_erase.1 hk).2

/-- Making room evicts at most one other target, which is recorded as skipped. -/
theorem sound_evictDeferred (hs : Sound limits s) {key : ProcessKey}
    (hprocessed : key ∉ s.orchestrator.processed) (hdeferred : key ∉ s.orchestrator.deferred) :
    Sound limits (s.evictDeferred env s.orchestrator.deferredOrder) ∧
      key ∉ (s.evictDeferred env s.orchestrator.deferredOrder).orchestrator.processed ∧
      key ∉ (s.evictDeferred env s.orchestrator.deferredOrder).orchestrator.deferred := by
  have hidx := hs.tidy.deferredIndexed
  cases horder : s.orchestrator.deferredOrder with
  | nil =>
    have hsame : s.evictDeferred env [] = s := by
      unfold Session.evictDeferred
      rw [← horder]
    rw [hsame]
    exact ⟨hs, hprocessed, hdeferred⟩
  | cons oldest rest =>
    rw [horder] at hidx
    by_cases hfull : maxDeferredTargets ≤ s.orchestrator.deferred.size
    · have hmem : oldest ∈ s.orchestrator.deferred := (hidx.mem_iff oldest).1 List.mem_cons_self
      obtain ⟨target, htarget⟩ := Option.isSome_iff_exists.1 (AList.lookup_isSome.2 hmem)
      have hkey := hs.tidy.deferredKey oldest target htarget
      have hfresh : target.identity.key ∉ s.orchestrator.processed :=
        hs.tidy.disjoint _ (hkey ▸ hmem)
      have hgone : target.identity.key ∉ s.orchestrator.deferred.erase oldest := by
        rw [hkey]
        exact fun h => (AList.mem_erase.1 h).1 rfl
      have hne : key ≠ target.identity.key := by
        rintro rfl
        exact hdeferred (hkey ▸ hmem)
      let s₁ : Session ω := { s with orchestrator := { s.orchestrator with
        deferred := s.orchestrator.deferred.erase oldest, deferredOrder := rest } }
      have htidy : Tidy s₁.orchestrator := hs.tidy.dropDeferred hidx.popFront
      have hkept : Kept limits (· = target.identity) s₁ :=
        ⟨hs.kept.limits_eq, hs.kept.wellKept, fun i hi => (hs.kept.recorded i hi).imp_left
          False.elim⟩
      have hevict : s.evictDeferred env (oldest :: rest) = s₁.recordResult env target.identity
          .skipped 0 ⟨.skipped, deferralCapacityExhaustedCode, none⟩ := by
        simp only [Session.evictDeferred, hfull, if_true, htarget]
        rfl
      obtain ⟨-, -, -, -, -, hdef, -⟩ := recordResult_spec env (s := s₁) hfresh htidy .skipped 0
        ⟨.skipped, deferralCapacityExhaustedCode, none⟩
      rw [hevict]
      refine ⟨sound_recordResult env htidy hkept ⟨hfresh, hgone⟩ _ _ _,
        not_mem_recordResult env (s := s₁) htidy hfresh hne hprocessed _ _ _, ?_⟩
      rw [hdef]
      exact fun h => hdeferred (AList.mem_erase.1 h).2
    · have hsame : s.evictDeferred env (oldest :: rest) = s := by
        simp only [Session.evictDeferred, hfull, if_false]
        rw [← horder]
      rw [hsame]
      exact ⟨hs, hprocessed, hdeferred⟩

theorem sound_insertDeferred (hs : Sound limits s) {target : DeferredTarget}
    (hnew : Unknown s.orchestrator target.identity) :
    Sound limits (s.insertDeferred env target) := by
  have horder : s.orchestrator.deferredOrder.filter (· ≠ target.identity.key) =
      s.orchestrator.deferredOrder := by
    rw [List.filter_eq_self]
    intro key hkey
    have hmem := (hs.tidy.deferredIndexed.mem_iff key).1 hkey
    simpa using fun e : key = target.identity.key => hnew.2 (e ▸ hmem)
  have hk : target.identity.key ∉ s.orchestrator.deferred.keys := hnew.2
  obtain ⟨hs', hprocessed, hdeferred⟩ := sound_evictDeferred env hs hnew.1 hnew.2
  simp only [Session.insertDeferred, horder, hk, if_false]
  set s' := s.evictDeferred env s.orchestrator.deferredOrder
  refine ⟨⟨hs'.tidy.processedIndexed, hs'.tidy.deferredIndexed.pushBack hdeferred target,
    ?_, ?_⟩, ⟨hs'.kept.limits_eq, hs'.kept.wellKept, hs'.kept.recorded⟩⟩
  · intro key other hother
    by_cases hne : key = target.identity.key
    · rw [hne, AList.lookup_insert] at hother
      rw [← Option.some.inj hother, hne]
    · rw [AList.lookup_insert_ne hne] at hother
      exact hs'.tidy.deferredKey key other hother
  · intro key hkey
    rcases (AList.mem_insert _).1 hkey with rfl | hkey
    · exact hprocessed
    · exact hs'.tidy.disjoint key hkey

end MacTypeControl.Injection
