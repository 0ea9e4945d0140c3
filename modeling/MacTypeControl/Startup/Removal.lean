import MacTypeControl.Startup.Custody

/-!
# Disabling keeps custody

A disable removes only what its receipt records exactly, and only after the receipt is
durable.
-/

namespace MacTypeControl.Startup

open Crash Crash.Prog

variable {env : StartupEnvironment} {length : ReceiptLength} {scope : StartupReceiptScope}
  {s t u : StartupMachine} {receipt : LegacyTrayStartupReceipt}
  {artifact : LegacyTrayStartupArtifact}

/-! ## Observing -/

theorem mem_valuesOf {store : StartupStore} {source : LegacyTrayStartupSource}
    {stored : Place × StoredValue} (h : stored ∈ store.valuesOf source) :
    store.value stored.1 = some stored.2 := by
  obtain ⟨place, hplace, hvalue⟩ := List.mem_filterMap.1 h
  obtain ⟨value, hthere, rfl⟩ := Option.map_eq_some_iff.1 hvalue
  exact hthere

theorem observeValue_owned {recordedAt : ℕ} {place : Place} {value : StoredValue}
    (h : observeValue env recordedAt place value = .ok (some (.owned artifact))) :
    artifact.place = place ∧ artifact.value = value := by
  unfold observeValue at h
  split at h
  · split at h
    · obtain ⟨_, _, h⟩ := bind_eq_ok.1 h
      split at h
      · obtain ⟨_, _, h⟩ := bind_eq_ok.1 h
        cases h
      · obtain ⟨command, _, h⟩ := bind_eq_ok.1 h
        split at h
        · cases h
        · split at h <;> cases h
          exact ⟨rfl, rfl⟩
    · cases h
  · unfold observeStartupFile at h
    split at h
    · cases h
    · split at h
      · split at h <;> cases h
      · rename_i hkind
        split at h
        · split at h <;> cases h
        · split at h
          · cases h
          · split at h
            · obtain ⟨_, _, h⟩ := bind_eq_ok.1 h
              cases h
              refine ⟨rfl, ?_⟩
              obtain ⟨kind, bytes⟩ := value
              obtain rfl : kind = 0 := by simpa using hkind
              rfl
            · cases h

theorem mem_observeValues {recordedAt : ℕ} {values : List (Place × StoredValue)}
    {observations : List LegacyTrayStartupObservation} {observation : LegacyTrayStartupObservation}
    (h : observeValues env recordedAt values = .ok observations)
    (hmem : observation ∈ observations) :
    ∃ stored ∈ values, observeValue env recordedAt stored.1 stored.2 = .ok (some observation) := by
  induction values generalizing observations with
  | nil =>
    cases h
    simp at hmem
  | cons stored values ih =>
    obtain ⟨found, hfound, h⟩ := bind_eq_ok.1 h
    obtain ⟨others, hothers, h⟩ := bind_eq_ok.1 h
    cases h
    rcases List.mem_append.1 hmem with hmem | hmem
    · obtain rfl := Option.mem_toList.1 hmem
      exact ⟨stored, by simp, hfound⟩
    · obtain ⟨other, hother, hobserved⟩ := ih hothers hmem
      exact ⟨other, by simp [hother], hobserved⟩

theorem mem_ownedArtifacts {observations : List LegacyTrayStartupObservation}
    {artifacts : List LegacyTrayStartupArtifact} (h : ownedArtifacts observations = .ok artifacts)
    (hmem : artifact ∈ artifacts) : LegacyTrayStartupObservation.owned artifact ∈ observations := by
  induction observations generalizing artifacts with
  | nil =>
    cases h
    simp at hmem
  | cons observation observations ih =>
    cases observation with
    | untrusted => cases h
    | unknown message => cases h
    | owned found =>
      obtain ⟨others, hothers, h⟩ := bind_eq_ok.1 h
      cases h
      rcases List.mem_cons.1 hmem with rfl | hmem
      · simp
      · exact List.mem_cons_of_mem _ (ih hothers hmem)

/-- What is observed is there. -/
theorem mem_observeOwned {recordedAt : ℕ} {store : StartupStore}
    {artifacts : List LegacyTrayStartupArtifact}
    (h : observeOwned env scope recordedAt store = .ok artifacts) (hmem : artifact ∈ artifacts) :
    store.value artifact.place = some artifact.value ∧
      observeValue env recordedAt artifact.place artifact.value = .ok (some (.owned artifact)) := by
  obtain ⟨observations, hobservations, h⟩ := bind_eq_ok.1 h
  obtain ⟨stored, hstored, hobserved⟩ :=
    mem_observeValues hobservations (mem_ownedArtifacts h hmem)
  obtain ⟨hplace, hvalue⟩ := observeValue_owned hobserved
  obtain ⟨source, _, hstored⟩ := List.mem_flatMap.1 hstored
  rw [hplace, hvalue]
  exact ⟨mem_valuesOf hstored, hobserved⟩

/-! ## Disabling -/

/-- What a disable from `s` has decided to record. -/
structure Selected (env : StartupEnvironment) (length : ReceiptLength)
    (scope : StartupReceiptScope) (entries : List LegacyTrayStartupArtifact) (s : StartupMachine)
    (receipt : LegacyTrayStartupReceipt) : Prop where
  observed : observeOwned env scope s.clock s.store = .ok entries
  chosen : ∃ first rest proposed, entries = first :: rest ∧
    buildStartupReceipt env scope first.userSid entries s.clock = .ok proposed ∧
    selectStartupReceiptForDisable s.receipt proposed = .ok receipt
  inScope : ∀ existing, s.receipt = some existing → existing.scope = scope
  valid : validateStartupReceipt env receipt = .ok ()
  fits : length.total receipt ≤ maxReceiptBytes

theorem buildStartupReceipt_ok {userSid : String} {entries : List LegacyTrayStartupArtifact}
    {recordedAt : ℕ} (h : buildStartupReceipt env scope userSid entries recordedAt = .ok receipt) :
    checkEntries env scope userSid [] entries = .ok () ∧
      receipt = ⟨startupReceiptSchema, startupReceiptVersion, scope, userSid, entries, recordedAt,
        .pending⟩ := by
  obtain ⟨_, _, h⟩ := bind_eq_ok.1 h
  obtain ⟨_, hchecked, h⟩ := bind_eq_ok.1 h
  cases h
  exact ⟨hchecked, rfl⟩

/-- A disable goes on with a new receipt, or with the pending one of the same artifacts. -/
theorem selectStartupReceiptForDisable_ok {existing : Option LegacyTrayStartupReceipt}
    {proposed : LegacyTrayStartupReceipt}
    (h : selectStartupReceiptForDisable existing proposed = .ok receipt) :
    receipt = proposed ∧ (∀ found, existing = some found → found.restorationState = .restored) ∨
      existing = some receipt ∧ receipt.restorationState = .pending ∧
        receipt.scope = proposed.scope ∧
        sameArtifactSnapshot receipt.scope receipt.entries proposed.entries = true := by
  unfold selectStartupReceiptForDisable at h
  split at h
  · cases h
    exact Or.inl ⟨rfl, by simp⟩
  · rename_i found
    split at h
    · cases h
    · rename_i hscope
      split at h
      · rename_i hstate
        cases h
        refine Or.inl ⟨rfl, ?_⟩
        rintro _ ⟨⟩
        exact hstate
      · cases h
      · rename_i hstate
        split at h
        · cases h
          exact Or.inr ⟨rfl, hstate, by simpa using hscope, by assumption⟩
        · cases h

theorem sameArtifact_place {candidate expected : LegacyTrayStartupArtifact}
    (h : sameArtifact scope candidate expected = true) :
    candidate.place = expected.place ∧ candidate.value = expected.value := by
  simp only [sameArtifact, Bool.and_eq_true, beq_iff_eq] at h
  obtain ⟨⟨⟨⟨hentry, hlocator⟩, hraw⟩, _⟩, _⟩ := h
  simp only [LegacyTrayStartupArtifact.place, LegacyTrayStartupArtifact.value, hentry, hlocator,
    hraw, and_self]

theorem sameArtifactSnapshot_match {left right : List LegacyTrayStartupArtifact}
    (h : sameArtifactSnapshot scope left right = true) (hmem : artifact ∈ left) :
    ∃ expected ∈ right, sameArtifact scope artifact expected = true := by
  simp only [sameArtifactSnapshot, Bool.and_eq_true, List.all_eq_true, beq_iff_eq] at h
  have hone := h.2 artifact hmem
  obtain ⟨expected, hexpected⟩ : ∃ expected, expected ∈ right.filter (sameArtifact scope artifact) :=
    List.exists_mem_of_length_pos (by omega)
  exact ⟨expected, List.mem_filter.1 hexpected⟩

theorem Selected.pending {entries : List LegacyTrayStartupArtifact}
    (h : Selected env length scope entries s receipt) : receipt.restorationState = .pending := by
  obtain ⟨first, rest, proposed, _, hbuild, hselect⟩ := h.chosen
  rcases selectStartupReceiptForDisable_ok hselect with ⟨rfl, _⟩ | ⟨_, hpending, _⟩
  · rw [(buildStartupReceipt_ok hbuild).2]
  · exact hpending

/-- Everything that is recorded is there. -/
theorem Selected.present {entries : List LegacyTrayStartupArtifact}
    (h : Selected env length scope entries s receipt) : Present receipt s := by
  obtain ⟨first, rest, proposed, _, hbuild, hselect⟩ := h.chosen
  have hproposed : proposed.entries = entries := by rw [(buildStartupReceipt_ok hbuild).2]
  intro artifact hartifact
  rcases selectStartupReceiptForDisable_ok hselect with ⟨rfl, _⟩ | ⟨_, _, _, hsame⟩
  · exact (mem_observeOwned h.observed (hproposed ▸ hartifact)).1
  · obtain ⟨expected, hexpected, hmatch⟩ := sameArtifactSnapshot_match hsame hartifact
    rw [(sameArtifact_place hmatch).1, (sameArtifact_place hmatch).2]
    exact (mem_observeOwned h.observed (hproposed ▸ hexpected)).1

theorem Selected.custody {entries : List LegacyTrayStartupArtifact}
    (h : Selected env length scope entries s receipt) (hs : Custody s) :
    Custody { s with receipt := some receipt } := by
  obtain ⟨first, rest, proposed, _, hbuild, hselect⟩ := h.chosen
  rcases selectStartupReceiptForDisable_ok hselect with ⟨_, hrestored⟩ | ⟨hsame, _⟩
  · have hnone := hs.nothing_outstanding hrestored
    exact ⟨by simp [hnone], by simp [hnone]⟩
  · rw [← hsame]
    exact hs

/-- What a disable that has recorded the receipt does to the machine. -/
structure Disabling (receipt : LegacyTrayStartupReceipt) (s t : StartupMachine) : Prop where
  custody : Custody t
  clock : t.clock = s.clock
  places : t.store.places = s.store.places
  values : ∀ place, t.store.value place = s.store.value place ∨
    t.store.value place = none ∧ ∃ artifact ∈ receipt.entries, artifact.place = place ∧
      s.store.value place = some artifact.value ∧ (place, artifact.value) ∈ t.outstanding

def DisableStop (receipt : LegacyTrayStartupReceipt) (s t : StartupMachine) : Prop :=
  Disabling receipt s t ∧ Marked receipt t

/-- The state of a disable while its receipt is pending. -/
structure DisableOpen (receipt : LegacyTrayStartupReceipt) (s t : StartupMachine) : Prop where
  disabling : Disabling receipt s t
  stored : t.receipt = some receipt
  pending : receipt.restorationState = .pending
  present : Present receipt s

theorem DisableOpen.stop (h : DisableOpen receipt s t) : DisableStop receipt s t :=
  ⟨h.disabling, Marked.of_pending h.stored h.pending⟩

theorem DisableOpen.remove (h : DisableOpen receipt s t) (hmem : artifact ∈ receipt.entries) :
    DisableOpen receipt s { t with
      store := t.store.delete artifact.place
      outstanding := (artifact.place, artifact.value) :: t.outstanding } := by
  refine ⟨⟨⟨?_, ?_⟩, h.disabling.clock, h.disabling.places, ?_⟩, h.stored, h.pending, h.present⟩
  · intro removed hremoved
    rcases List.mem_cons.1 hremoved with rfl | hremoved
    · exact ⟨receipt, h.stored, by simp [h.pending], artifact, hmem, rfl, rfl⟩
    · exact h.disabling.custody.recorded removed hremoved
  · intro removed hremoved
    by_cases hself : removed.1 = artifact.place
    · rw [hself, delete_value_self]
      simp
    · rw [delete_value_of_ne _ hself]
      rcases List.mem_cons.1 hremoved with rfl | hremoved
      · exact absurd rfl hself
      · exact h.disabling.custody.away removed hremoved
  · intro place
    by_cases hself : place = artifact.place
    · subst hself
      refine Or.inr ⟨delete_value_self _ _, artifact, hmem, rfl, ?_, List.mem_cons_self⟩
      exact h.present artifact hmem
    · rcases h.disabling.values place with hsame | ⟨hnone, other, hother, hat, hthere, hout⟩
      · exact Or.inl ((delete_value_of_ne _ hself).trans hsame)
      · exact Or.inr ⟨(delete_value_of_ne _ hself).trans hnone, other, hother, hat, hthere,
          List.mem_cons_of_mem _ hout⟩

/-- A restore undoes what a disable has done. -/
theorem DisableOpen.restoring (h : DisableOpen receipt s t) (hu : Restoring receipt t u) :
    Disabling receipt s u := by
  have hplaces : ∀ artifact ∈ receipt.entries, artifact.place ∈ t.store.places := by
    intro artifact hartifact
    rw [h.disabling.places]
    exact s.store.listed _ (by simp [h.present artifact hartifact])
  refine ⟨hu.custody, hu.clock.trans h.disabling.clock,
    (hu.places hplaces).trans h.disabling.places, fun place => ?_⟩
  cases hvalue : t.store.value place with
  | some value =>
    rcases h.disabling.values place with hsame | ⟨hnone, _⟩
    · exact Or.inl ((hu.kept place value hvalue).trans (hvalue.symm.trans hsame))
    · rw [hvalue] at hnone
      cases hnone
  | none =>
    rcases hu.put place hvalue with hnone | ⟨artifact, hartifact, hat, hput⟩
    · rcases h.disabling.values place with hsame | ⟨_, other, hother, hat, hthere, hout⟩
      · exact Or.inl (hnone.trans (hvalue.symm.trans hsame))
      · refine Or.inr ⟨hnone, other, hother, hat, hthere, ?_⟩
        exact (hu.outstanding _ hout).resolve_left (by simp [hnone])
    · exact Or.inl (hput.trans (hat ▸ (h.present artifact hartifact).symm))

theorem DisableOpen.restoreStep (h : DisableOpen receipt s t) (hu : RestoreStep t u) :
    DisableStop receipt s u := by
  rcases hu with rfl | ⟨found, hfound, _, hrestoring, hmarked⟩
  · exact h.stop
  · rw [h.stored] at hfound
    cases hfound
    exact ⟨h.restoring hrestoring, hmarked⟩

theorem wp_restoreAfterDisableFailure {failure : String} {Q : Unit → StartupMachine → Prop}
    (h : DisableOpen receipt s t) :
    wp (restoreAfterDisableFailure env length scope failure) Q (fun _ => DisableStop receipt s)
      (DisableStop receipt s) t := by
  apply wp_bind
  apply wp_attempt
  refine wp_mono (wp_restoreStartupScope h.disabling.custody) ?_ ?_ fun u hu => h.restoreStep hu
  · exact fun _ u hu => wp_throw (h.restoreStep hu.1)
  · exact fun _ u hu => wp_throw (h.restoreStep hu)

theorem wp_removeEntries (artifacts : List LegacyTrayStartupArtifact)
    (hmem : ∀ artifact ∈ artifacts, artifact ∈ receipt.entries) (h : DisableOpen receipt s t) :
    wp (removeEntries env artifacts) (fun _ => DisableOpen receipt s)
      (fun _ => DisableOpen receipt s) (DisableOpen receipt s) t := by
  induction artifacts generalizing t with
  | nil => exact wp_ret h
  | cons artifact artifacts ih =>
    apply wp_bind
    refine wp_act ?_ (fun _ _ => h) h h
    intro u hu
    cases hstore : removeArtifactExact env t.store artifact with
    | error e => rw [hstore] at hu; cases hu
    | ok store =>
      rw [hstore] at hu
      cases hu
      obtain ⟨_, rfl⟩ := removeArtifactExact_ok hstore
      have hopen := h.remove (hmem artifact (by simp))
      exact ⟨ih (fun other hother => hmem other (by simp [hother])) hopen, hopen, hopen⟩

theorem wp_verifyRemoval (h : DisableOpen receipt s t) :
    wp (verifyRemoval env length scope) (fun _ => DisableStop receipt s)
      (fun _ => DisableStop receipt s) (DisableStop receipt s) t := by
  apply wp_bind
  apply wp_attempt
  refine wp_inspect (fun remaining _ => ?_) (fun _ _ => wp_restoreAfterDisableFailure h)
    (wp_restoreAfterDisableFailure h) h.stop
  dsimp only
  split
  · exact wp_ret h.stop
  · exact wp_restoreAfterDisableFailure h

theorem wp_removeRecorded (h : DisableOpen receipt s t) :
    wp (removeRecorded env length scope receipt) (fun _ => DisableStop receipt s)
      (fun _ => DisableStop receipt s) (DisableStop receipt s) t := by
  apply wp_bind
  refine wp_inspect (fun current _ => ?_) (fun _ _ => h.stop) h.stop h.stop
  split
  · exact wp_restoreAfterDisableFailure h
  · apply wp_bind
    apply wp_handle
    refine wp_mono (wp_removeEntries receipt.entries (fun _ h => h) h) ?_ ?_ fun u hu => hu.stop
    · exact fun _ u hu => wp_verifyRemoval hu
    · exact fun _ u hu => wp_restoreAfterDisableFailure hu

/-- Where a disable may be stopped. -/
def DisableStep (env : StartupEnvironment) (length : ReceiptLength) (scope : StartupReceiptScope)
    (s t : StartupMachine) : Prop :=
  t = s ∨ ∃ entries receipt, Selected env length scope entries s receipt ∧
    DisableStop receipt s t

theorem wp_disableStartupScope (h : Custody s) :
    wp (disableStartupScope env length scope) (fun _ => DisableStep env length scope s)
      (fun _ => DisableStep env length scope s) (DisableStep env length scope s) s := by
  have hsame : DisableStep env length scope s s := Or.inl rfl
  apply wp_bind
  refine wp_inspect (fun entries hentries => ?_) (fun _ _ => hsame) hsame hsame
  cases entries with
  | nil => exact wp_ret hsame
  | cons first rest =>
    apply wp_bind
    apply wp_observe
    apply wp_bind
    refine wp_ofExcept (fun proposed hbuild => ?_) fun _ _ => hsame
    apply wp_bind
    refine wp_readReceiptIfPresent (fun hscope => ?_) (fun _ => hsame) hsame
    apply wp_bind
    refine wp_ofExcept (fun receipt hselect => ?_) fun _ _ => hsame
    apply wp_bind
    refine wp_persistVerifiedReceipt (fun hvalid hfits => ?_) (fun _ => hsame) hsame
    have hselected : Selected env length scope (first :: rest) s receipt :=
      ⟨hentries, ⟨first, rest, proposed, rfl, hbuild, hselect⟩, hscope, hvalid, hfits⟩
    have hopen : DisableOpen receipt s { s with receipt := some receipt } :=
      ⟨⟨hselected.custody h, rfl, rfl, fun _ => Or.inl rfl⟩, rfl, hselected.pending,
        hselected.present⟩
    have hstep : ∀ t, DisableStop receipt s t → DisableStep env length scope s t :=
      fun t ht => Or.inr ⟨_, receipt, hselected, ht⟩
    exact ⟨wp_mono (wp_removeRecorded hopen) (fun _ => hstep) (fun _ => hstep) hstep,
      fun _ => hstep _ hopen.stop, hstep _ hopen.stop⟩

/-! ## Every run -/

/-- A run: from a machine without a receipt, any disables and restores, each stopped or
failed anywhere, and any changes of the entries by others in between. -/
inductive StartupRun (env : StartupEnvironment) (length : ReceiptLength)
    (scope : StartupReceiptScope) : StartupMachine → Prop
  | start (store : StartupStore) (clock : ℕ) : StartupRun env length scope ⟨store, none, clock, []⟩
  | changed {s : StartupMachine} (store : StartupStore) (clock : ℕ) :
      StartupRun env length scope s →
      StartupRun env length scope { s with store, clock }.settle
  | disable {s : StartupMachine} (fs : List Fault) : StartupRun env length scope s →
      StartupRun env length scope ((disableStartupScope env length scope).result fs s).2
  | restore {s : StartupMachine} (fs : List Fault) : StartupRun env length scope s →
      StartupRun env length scope ((restoreStartupScope env length scope).result fs s).2

theorem RestoreStep.custody (hs : Custody s) (h : RestoreStep s t) : Custody t := by
  rcases h with rfl | ⟨_, _, _, h, _⟩
  · exact hs
  · exact h.custody

theorem DisableStep.custody (hs : Custody s) (h : DisableStep env length scope s t) :
    Custody t := by
  rcases h with rfl | ⟨_, _, _, h, _⟩
  · exact hs
  · exact h.custody

theorem disable_step (h : Custody s) (fs : List Fault) :
    DisableStep env length scope s ((disableStartupScope env length scope).result fs s).2 :=
  (wp_disableStartupScope h).final fs

theorem restore_step (h : Custody s) (fs : List Fault) :
    RestoreStep s ((restoreStartupScope env length scope).result fs s).2 :=
  (wp_restoreStartupScope h).leaves (fun _ _ h => h.1) (fun _ _ h => h) (fun _ h => h) fs

/-- In every run everything outstanding is recorded. -/
theorem StartupRun.custody (h : StartupRun env length scope s) : Custody s := by
  induction h with
  | start store clock => exact ⟨by simp, by simp⟩
  | changed store clock _ ih =>
    exact ⟨fun removed hremoved => ih.recorded removed (mem_settle.1 hremoved).1,
      fun removed hremoved => (mem_settle.1 hremoved).2⟩
  | disable fs _ ih => exact (disable_step ih fs).custody ih
  | restore fs _ ih => exact (restore_step ih fs).custody ih

end MacTypeControl.Startup
