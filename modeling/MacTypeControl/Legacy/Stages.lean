import MacTypeControl.Legacy.Backup

/-!
# The stages after the backup

Stop, removal and rollback keep the invariant wherever they are caught, and record
a stage only after it has happened.
-/

namespace MacTypeControl.Legacy

open Crash Crash.Prog Installation

variable {env : Installation} {orig : LegacyService} {activePath : String} {m₀ s t : Machine}
  {files : String → Option Bytes} {extended : ServiceExtendedConfiguration → Prop} {gone : Prop}
  {generation : ℕ} {stages : List MigrationStage}

/-! ## Stage histories -/

theorem validStageHistory_append {expected next : MigrationStage}
    (h : validStageHistory stages = true) (hlast : stages.getLast? = some expected)
    (hnext : next = .rollbackCompleted ∧ expected ≠ .rollbackCompleted ∨
      expected = .backupPrepared ∧ next = .legacyStopped ∨
      expected = .legacyStopped ∧ next = .legacyRemoved) :
    validStageHistory (stages ++ [next]) = true := by
  simp only [validStageHistory, Bool.or_eq_true, decide_eq_true_eq] at h
  rcases h with ((((rfl | rfl) | rfl) | rfl) | rfl) | rfl <;> cases hlast <;>
    rcases hnext with ⟨rfl, h⟩ | ⟨h, rfl⟩ | ⟨h, rfl⟩ <;> first | rfl | cases h | exact absurd rfl h

theorem stages_of_backupPrepared (h : validStageHistory stages = true)
    (hlast : stages.getLast? = some .backupPrepared) : stages = [.backupPrepared] := by
  simp only [validStageHistory, Bool.or_eq_true, decide_eq_true_eq] at h
  rcases h with ((((rfl | rfl) | rfl) | rfl) | rfl) | rfl <;> first | rfl | cases hlast

theorem stages_of_legacyStopped (h : validStageHistory stages = true)
    (hlast : stages.getLast? = some .legacyStopped) :
    stages = [.backupPrepared, .legacyStopped] := by
  simp only [validStageHistory, Bool.or_eq_true, decide_eq_true_eq] at h
  rcases h with ((((rfl | rfl) | rfl) | rfl) | rfl) | rfl <;> first | rfl | cases hlast

theorem stages_of_legacyRemoved (h : validStageHistory stages = true)
    (hlast : stages.getLast? = some .legacyRemoved) :
    stages = [.backupPrepared, .legacyStopped, .legacyRemoved] := by
  simp only [validStageHistory, Bool.or_eq_true, decide_eq_true_eq] at h
  rcases h with ((((rfl | rfl) | rfl) | rfl) | rfl) | rfl <;> first | rfl | cases hlast

theorem rollbackCompleted_last (h : validStageHistory stages = true)
    (hmem : .rollbackCompleted ∈ stages) : stages.getLast? = some .rollbackCompleted := by
  simp only [validStageHistory, Bool.or_eq_true, decide_eq_true_eq] at h
  rcases h with ((((rfl | rfl) | rfl) | rfl) | rfl) | rfl <;> first | rfl | simp at hmem

/-! ## The current receipt -/

theorem Holds.readCurrent (hm : Migratable env orig activePath m₀) (hfiles : s.files = m₀.files)
    (h : Holds env orig activePath m₀.files generation stages s) :
    env.readCurrent s = .ok
      (generation, env.receiptOf orig m₀.files activePath generation stages) := by
  obtain ⟨backups, hdirectory, hbacked⟩ := h.directory
  simp only [Installation.readCurrent, h.current, hdirectory]
  rw [hm.validateReceipt hfiles h.valid hbacked]
  rfl

/-- The receipt that is read is the one the invariant speaks of. -/
theorem Continuable.of_readCurrent (hm : Migratable env orig activePath m₀)
    (h : Continuable env orig activePath m₀.files extended gone s) {read : ℕ × MigrationReceipt}
    (hread : env.readCurrent s = .ok read) :
    ∃ generation stages, Holds env orig activePath m₀.files generation stages s ∧
      read = (generation, env.receiptOf orig m₀.files activePath generation stages) := by
  rcases h.receipt with hnone | ⟨generation, stages, hholds⟩
  · simp [Installation.readCurrent, hnone] at hread
  · rw [hholds.readCurrent hm h.unchanged] at hread
    cases hread
    exact ⟨generation, stages, hholds, rfl⟩

/-- The invariant, with the stages the current receipt has. -/
def Reached (env : Installation) (orig : LegacyService) (activePath : String) (m₀ : Machine)
    (extended : ServiceExtendedConfiguration → Prop) (gone : Prop)
    (allowed : List MigrationStage → Prop) (s : Machine) : Prop :=
  Continuable env orig activePath m₀.files extended gone s ∧
    ∃ generation stages, Holds env orig activePath m₀.files generation stages s ∧ allowed stages

theorem Holds.kept (h : Kept orig extended gone s t)
    (hs : Holds env orig activePath files generation stages s)
    (hopen : .rollbackCompleted ∉ stages) :
    Holds env orig activePath files generation stages t := by
  obtain ⟨backups, hdirectory, hbacked⟩ := hs.directory
  refine ⟨h.current.trans hs.current, h.clock ▸ hs.old, hs.valid, ?_, backups, ?_, hbacked⟩
  · intro stage hstage
    have hhappened := hs.happened stage hstage
    cases stage with
    | backupPrepared => exact h.past _ hhappened
    | legacyStopped =>
      obtain ⟨service, hmem, hparked⟩ := hhappened
      exact ⟨service, h.past _ hmem, hparked⟩
    | legacyRemoved => exact h.past _ hhappened
    | rollbackCompleted => exact absurd hstage hopen
  · rw [h.generations, hdirectory]

/-- A control operation does not leave the stage. -/
theorem Reached.kept {allowed : List MigrationStage → Prop}
    (hs : Continuable env orig activePath m₀.files extended gone s)
    (hholds : Holds env orig activePath m₀.files generation stages s) (hallowed : allowed stages)
    (hopen : .rollbackCompleted ∉ stages) (h : Kept orig extended gone s t) :
    Reached env orig activePath m₀ extended gone allowed t := by
  have ht := hholds.kept h hopen
  exact ⟨⟨h.files.trans hs.unchanged, h.tracked, h.ours, h.present, Or.inr ⟨_, _, ht⟩⟩,
    _, _, ht, hallowed⟩

theorem Continuable.kept (hs : Continuable env orig activePath files extended gone s) :
    Kept orig extended gone s s :=
  Kept.refl hs.ours hs.present hs.tracked

/-- The machine after a stage has been appended. -/
theorem Holds.append {next : MigrationStage}
    (hs : Continuable env orig activePath files extended gone s)
    (h : Holds env orig activePath files generation stages s)
    (hvalid : validStageHistory (stages ++ [next]) = true) (hnext : Happened orig s next) :
    Continuable env orig activePath files extended gone
        (updateGeneration s generation fun d => { d with
          receipt := some (env.receiptOf orig files activePath generation (stages ++ [next])) }) ∧
      Holds env orig activePath files generation (stages ++ [next])
        (updateGeneration s generation fun d => { d with
          receipt := some (env.receiptOf orig files activePath generation (stages ++ [next])) }) := by
  obtain ⟨backups, hdirectory, hbacked⟩ := h.directory
  have hholds : Holds env orig activePath files generation (stages ++ [next])
      (updateGeneration s generation fun d => { d with
        receipt := some (env.receiptOf orig files activePath generation (stages ++ [next])) }) := by
    refine ⟨h.current, h.old, hvalid, ?_, backups, ?_, hbacked⟩
    · intro stage hstage
      rcases List.mem_append.1 hstage with hold | hnew
      · exact (h.happened stage hold).congr rfl rfl
      · obtain rfl := List.mem_singleton.1 hnew
        exact hnext.congr rfl rfl
    · simp [updateGeneration, hdirectory]
  exact ⟨⟨hs.unchanged, hs.tracked, hs.ours, hs.present, Or.inr ⟨_, _, hholds⟩⟩, hholds⟩

theorem wp_appendStage {expected next : MigrationStage}
    (hs : Continuable env orig activePath files extended gone s)
    (h : Holds env orig activePath files generation stages s)
    (hvalid : stages.getLast? = some expected → validStageHistory (stages ++ [next]) = true)
    (hnext : Happened orig s next) {Q : MigrationReceipt → Machine → Prop}
    {E : String → Machine → Prop} {C : Machine → Prop}
    (hok : ∀ receipt t, t.service = s.service →
      Continuable env orig activePath files extended gone t →
      Holds env orig activePath files generation (stages ++ [next]) t → Q receipt t)
    (herr : ∀ e, E e s) (hstop : C s) :
    wp (env.appendStage generation (env.receiptOf orig files activePath generation stages)
      expected next) Q E C s := by
  apply wp_bind
  refine wp_ensure (fun hlast => ?_) fun _ => herr _
  have hlast : stages.getLast? = some expected := of_decide_eq_true hlast
  obtain ⟨hcont, hholds⟩ := h.append hs (hvalid hlast) hnext
  apply wp_bind
  apply wp_atomic _ (fun e _ => herr e) (herr _) hstop
  intro _ t ht
  split at ht
  · cases ht
  · cases ht
    exact wp_ret (hok _ _ rfl hcont hholds)

/-! ## Stop -/

section Reading

variable {E : String → Machine → Prop} {C : Machine → Prop} (herr : ∀ e, E e s) (hstop : C s)
include herr hstop

theorem wp_currentReceipt (hm : Migratable env orig activePath m₀)
    (h : Continuable env orig activePath m₀.files extended gone s)
    {Q : ℕ × MigrationReceipt → Machine → Prop}
    (hok : ∀ generation stages, Holds env orig activePath m₀.files generation stages s →
      Q (generation, env.receiptOf orig m₀.files activePath generation stages) s) :
    wp env.currentReceipt Q E C s := by
  apply wp_inspect _ (fun e _ => herr e) (herr _) hstop
  intro read hread
  obtain ⟨generation, stages, hholds, rfl⟩ := h.of_readCurrent hm hread
  exact hok generation stages hholds

theorem wp_snapshotMatches {Q : LegacyScmSnapshot → Machine → Prop}
    (hok : ∀ service, s.service = some service →
      service.configuration.withStartType orig.configuration.startType = orig.configuration →
      service.extended = orig.extended → Q (env.snapshotOf service) s) :
    wp (env.snapshotMatches (env.receiptOf orig files activePath generation stages)) Q E C s := by
  apply wp_bind
  apply wp_migrationSnapshot herr hstop
  intro service hs _ _ _
  apply wp_bind
  refine wp_ensure (fun hmatch => ?_) fun _ => herr _
  apply wp_bind
  refine wp_ensure (fun _ => ?_) fun _ => herr _
  rw [Bool.and_eq_true, beq_iff_eq, beq_iff_eq] at hmatch
  exact wp_ret (hok service hs hmatch.1 hmatch.2)

theorem wp_migrationRemove {Q : Unit → Machine → Prop}
    (hok : s.service.isSome → Q () (s.setService none) ∧ (∀ e, E e (s.setService none)) ∧
      C (s.setService none)) : wp env.migrationRemove Q E C s := by
  apply wp_bind
  apply wp_query hstop
  · apply wp_bind
    refine wp_ensure (fun howned => ?_) fun _ => herr _
    have hsome : s.service.isSome = true := by
      cases hs : s.service with
      | none => rw [hs] at howned; cases howned
      | some service => rfl
    obtain ⟨hq, he, hc⟩ := hok hsome
    apply wp_act _ (fun e _ => herr e) (herr _) hstop
    rintro t ⟨⟩
    exact ⟨hq, he _, hc⟩
  · exact wp_bind (wp_ensure (fun h => absurd h (by simp [ServicePresence.isOwned])) fun _ => herr _)

end Reading

/-- Parking the service and recording it: the stage is appended to a parked service,
or the stage before it stays. -/
theorem Reached.parkAndRecord (hm : Migratable env orig activePath m₀)
    {allowed : List MigrationStage → Prop}
    (hs : Continuable env orig activePath m₀.files extended gone s)
    (h : Holds env orig activePath m₀.files generation [.backupPrepared] s)
    (hbefore : allowed [.backupPrepared]) (hafter : allowed [.backupPrepared, .legacyStopped]) :
    wp (env.parkAndRecord generation
        (env.receiptOf orig m₀.files activePath generation [.backupPrepared]))
      (fun _ => Reached env orig activePath m₀ extended gone allowed)
      (fun _ => Reached env orig activePath m₀ extended gone allowed)
      (Reached env orig activePath m₀ extended gone allowed) s := by
  have hkeep : ∀ t, Kept orig extended gone s t →
      Reached env orig activePath m₀ extended gone allowed t :=
    fun t ht => Reached.kept hs h hbefore (by simp) ht
  have hpark : Keeps orig extended gone s env.migrationStop
      (fun _ t => Kept orig extended gone s t ∧ Parked orig t) s :=
    kept_migrationStop hs.kept fun t ht hparked => ⟨ht, hparked⟩
  apply wp_bind
  refine wp_mono hpark ?_ (fun _ => hkeep) hkeep
  rintro _ t ⟨ht, service, hservice, hstate, hconfiguration⟩
  have hcont := (hkeep t ht).1
  have hhappened : Happened orig t .legacyStopped :=
    ⟨service, hservice ▸ ht.tracked, hstate, hconfiguration⟩
  apply wp_handle
  refine wp_appendStage hcont (h.kept ht (by simp)) (fun _ => rfl) hhappened ?_ ?_ (hkeep t ht)
  · exact fun _ u _ hu hholds => ⟨hu, _, _, hholds, hafter⟩
  · intro error
    have hrestore : Keeps orig extended gone s
        (env.migrationRestoreRunningState (env.snapshotOf orig))
        (fun _ => Kept orig extended gone s) t :=
      kept_migrationRestoreRunningState ht (Or.inl hm.accepted.startType) fun _ _ _ hu _ => hu
    apply wp_bind
    apply wp_attempt
    exact wp_mono hrestore (fun _ u hu => wp_throw (hkeep u hu))
      (fun _ u hu => wp_throw (hkeep u hu)) hkeep

theorem Reached.stopLegacy (hm : Migratable env orig activePath m₀)
    {allowed : List MigrationStage → Prop}
    (h : Reached env orig activePath m₀ extended gone allowed s)
    (hafter : allowed [.backupPrepared] → allowed [.backupPrepared, .legacyStopped]) :
    wp env.stopLegacy (fun _ => Reached env orig activePath m₀ extended gone allowed)
      (fun _ => Reached env orig activePath m₀ extended gone allowed)
      (Reached env orig activePath m₀ extended gone allowed) s := by
  have hsame := h
  obtain ⟨hs, generation, stages, hholds, hallowed⟩ := h
  apply wp_bind
  apply wp_inspect _ (fun _ _ => hsame) hsame hsame
  intro read hread
  rw [hholds.readCurrent hm hs.unchanged] at hread
  cases hread
  dsimp only
  split
  · exact wp_ret hsame
  apply wp_bind
  refine wp_ensure (fun hlast => ?_) fun _ => hsame
  obtain rfl := stages_of_backupPrepared hholds.valid (of_decide_eq_true hlast)
  apply wp_bind
  apply wp_snapshotMatches (fun _ => hsame) hsame
  intro _ _ _ _
  exact Reached.parkAndRecord hm hs hholds hallowed (hafter hallowed)

/-! ## Removal -/

theorem Reached.removeAfterVerified (hm : Migratable env orig activePath m₀) (hgone : gone)
    {allowed : List MigrationStage → Prop}
    (h : Reached env orig activePath m₀ extended gone allowed s)
    (hafter : allowed [.backupPrepared, .legacyStopped] →
      allowed [.backupPrepared, .legacyStopped, .legacyRemoved])
    (verification : RemovalVerification) :
    wp (env.removeAfterVerified verification)
      (fun _ t => Reached env orig activePath m₀ extended gone allowed t ∧
        (t.service = s.service ∨ t.service = none))
      (fun _ t => Reached env orig activePath m₀ extended gone allowed t ∧
        (t.service = s.service ∨ t.service = none))
      (fun t => Reached env orig activePath m₀ extended gone allowed t ∧
        (t.service = s.service ∨ t.service = none)) s := by
  have hsame : Reached env orig activePath m₀ extended gone allowed s ∧
      (s.service = s.service ∨ s.service = none) := ⟨h, Or.inl rfl⟩
  obtain ⟨hs, generation, stages, hholds, hallowed⟩ := h
  apply wp_bind
  apply wp_attempt
  refine wp_inspect (fun read hread => ?_)
    (fun e _ => wp_bind (wp_ensure (fun hc => ?_) fun _ => hsame))
    (wp_bind (wp_ensure (fun hc => ?_) fun _ => hsame)) hsame
  rotate_left
  · simp [Except.toOption] at hc
  · simp [Except.toOption] at hc
  rw [hholds.readCurrent hm hs.unchanged] at hread
  cases hread
  apply wp_bind
  refine wp_ensure (fun _ => ?_) fun _ => hsame
  apply wp_bind
  apply wp_ret
  dsimp only
  split
  · exact wp_ret hsame
  apply wp_bind
  refine wp_ensure (fun hlast => ?_) fun _ => hsame
  obtain rfl := stages_of_legacyStopped hholds.valid (of_decide_eq_true hlast)
  apply wp_bind
  apply wp_snapshotMatches (fun _ => hsame) hsame
  intro service hservice _ _
  apply wp_bind
  refine wp_ensure (fun _ => ?_) fun _ => hsame
  have hkept : Kept orig extended gone s (s.setService none) :=
    hs.kept.setService (by simp) fun _ => hgone
  have hremoved := Reached.kept hs hholds hallowed (by simp) hkept
  apply wp_bind
  apply wp_mapError
  apply wp_migrationRemove (fun _ => hsame) hsame
  intro _
  refine ⟨?_, fun _ => ⟨hremoved, Or.inr rfl⟩, hremoved, Or.inr rfl⟩
  apply wp_mapError
  refine wp_appendStage hremoved.1 (hholds.kept hkept (by simp)) (fun _ => rfl) ?_ ?_ ?_ ?_
  · exact hkept.tracked
  · exact fun _ t ht hcont hholds => ⟨⟨hcont, _, _, hholds, hafter hallowed⟩, Or.inr ht⟩
  · exact fun _ => ⟨hremoved, Or.inr rfl⟩
  · exact ⟨hremoved, Or.inr rfl⟩

/-! ## Rollback -/

section Restoring

variable {s₀ : Machine} (hacc : Accepted env orig) (h : Kept orig Supported gone s₀ s)
include hacc h

omit hacc in
theorem kept_stopBeforeRestore :
    Keeps orig Supported gone s₀ env.stopBeforeRestore (fun _ => Kept orig Supported gone s₀)
      s := by
  apply wp_bind
  apply kept_query h
  swap
  · exact wp_bind (kept_ensure h fun _ => wp_throw h)
  apply wp_bind
  apply kept_ensure h
  intro _
  rcases env.statusOf s.service with ⟨_ | _ | _ | _ | _ | _, state⟩
  · exact wp_ret h
  · exact kept_migrationStop h fun _ ht _ => ht
  · exact kept_migrationStop h fun _ ht _ => ht
  · exact wp_throw h
  · exact wp_throw h
  · exact wp_throw h

omit hacc in
/-- Restoring a file that was never changed changes nothing. -/
theorem kept_restoreProfileList {backups : List (String × Bytes)} {registry : Option Bytes}
    {written : Option MigrationReceipt}
    (hdirectory : s₀.generations generation = some ⟨backups, registry, written⟩)
    (profiles : List ProfileBackupReceipt)
    (hbacked : ∀ receipt ∈ profiles, Backed env s₀.files backups receipt) :
    Keeps orig Supported gone s₀ (env.restoreProfileList generation profiles)
      (fun _ => Kept orig Supported gone s₀) s := by
  induction profiles generalizing s with
  | nil => exact wp_ret h
  | cons receipt profiles ih =>
    have htail : ∀ t, Kept orig Supported gone s₀ t →
        Keeps orig Supported gone s₀ (env.restoreProfileList generation profiles)
          (fun _ => Kept orig Supported gone s₀) t :=
      fun t ht => ih ht fun r hr => hbacked r (List.mem_cons_of_mem _ hr)
    have hreceipt := hbacked receipt (by simp)
    apply wp_bind
    cases receipt with
    | absent role path =>
      exact wp_inspect (fun _ _ => htail s h) (fun _ _ => h) h h
    | present file =>
      obtain ⟨content, hfile, hlookup, -⟩ := hreceipt
      apply wp_bind
      apply wp_inspect _ (fun _ _ => h) h h
      intro bytes hbytes
      rw [h.generations, hdirectory] at hbytes
      simp only [backupBytes, hlookup] at hbytes
      have hcontent : bytes = content := by
        cases hv : env.validateBackupBytes file content with
        | error e => rw [hv] at hbytes; cases hbytes
        | ok _ => rw [hv] at hbytes; cases hbytes; rfl
      have hunchanged : { s with files := fun path =>
          if path = file.originalPath then some bytes else s.files path } = s := by
        have hfiles : (fun path => if path = file.originalPath then some bytes
            else s.files path) = s.files := by
          funext path
          split
          · rename_i hpath
            rw [hpath, h.files, hfile, hcontent]
          · rfl
        rw [hfiles]
      refine wp_modify ?_ h h
      rw [hunchanged]
      exact htail s h

theorem kept_performRollback (hs₀ : Holds env orig activePath s₀.files generation stages s₀) :
    Keeps orig Supported gone s₀ (env.performRollback generation
        (env.receiptOf orig s₀.files activePath generation stages))
      (fun _ t => Kept orig Supported gone s₀ t ∧ t.service = some orig) s := by
  obtain ⟨backups, hdirectory, hbacked⟩ := hs₀.directory
  apply wp_bind
  refine wp_mono (kept_stopBeforeRestore h) ?_ (fun _ _ h => h) (fun _ h => h)
  intro _ t ht
  apply wp_bind
  have hprofiles : Keeps orig Supported gone s₀ (env.restoreProfiles generation
      (env.receiptOf orig s₀.files activePath generation stages))
      (fun _ => Kept orig Supported gone s₀) t := by
    apply wp_bind
    refine wp_mono (kept_restoreProfileList ht hdirectory _ ?_) ?_
      (fun _ _ h => h) (fun _ h => h)
    · exact fun receipt hreceipt => hbacked receipt (List.mem_filter.1 hreceipt).1
    · exact fun _ u hu => kept_restoreProfileList hu hdirectory _ fun receipt hreceipt =>
        hbacked receipt (List.mem_filter.1 hreceipt).1
  refine wp_mono hprofiles ?_ (fun _ _ h => h) (fun _ h => h)
  intro _ u hu
  apply wp_bind
  apply kept_restoreServiceConfiguration hacc hu
  intro v hv hvs
  apply wp_bind
  refine wp_modify ?_ hv hv
  apply kept_migrationRestoreRunningState hv (Or.inl hacc.startType)
  intro service hservice w hw hws
  change v.service = some service at hservice
  rw [hvs] at hservice
  cases hservice
  exact ⟨hw, hws⟩

end Restoring

/-- A rollback that completes leaves the service as it was before the migration. -/
theorem Continuable.rollback (hm : Migratable env orig activePath m₀)
    (h : Continuable env orig activePath m₀.files Supported gone s) :
    wp env.rollback
      (fun _ t => Continuable env orig activePath m₀.files Supported gone t ∧
        (∃ generation stages, Holds env orig activePath m₀.files generation stages t) ∧
        t.service = some orig)
      (fun _ t => Continuable env orig activePath m₀.files Supported gone t ∧
        ((∃ generation stages, Holds env orig activePath m₀.files generation stages s) →
          ∃ generation stages, Holds env orig activePath m₀.files generation stages t))
      (fun t => Continuable env orig activePath m₀.files Supported gone t ∧
        ((∃ generation stages, Holds env orig activePath m₀.files generation stages s) →
          ∃ generation stages, Holds env orig activePath m₀.files generation stages t)) s := by
  apply wp_bind
  apply wp_currentReceipt (fun _ => ⟨h, id⟩) ⟨h, id⟩ hm h
  intro generation stages hholds
  dsimp only
  split
  · rename_i hlast
    have hmem : MigrationStage.rollbackCompleted ∈ stages := List.mem_of_getLast? hlast
    exact wp_ret ⟨h, ⟨_, _, hholds⟩, hholds.happened _ hmem⟩
  rename_i hlast
  have hopen : .rollbackCompleted ∉ stages := fun hmem =>
    hlast (rollbackCompleted_last hholds.valid hmem)
  have hkeep : ∀ t, Kept orig Supported gone s t →
      Continuable env orig activePath m₀.files Supported gone t ∧
        ((∃ generation stages, Holds env orig activePath m₀.files generation stages s) →
          ∃ generation stages, Holds env orig activePath m₀.files generation stages t) := by
    intro t ht
    have hreached : Reached env orig activePath m₀ Supported gone (fun _ => True) t :=
      Reached.kept h hholds trivial hopen ht
    exact ⟨hreached.1, fun _ => ⟨_, _, hholds.kept ht hopen⟩⟩
  have hperform := kept_performRollback hm.accepted h.kept (h.unchanged ▸ hholds)
  rw [h.unchanged] at hperform
  apply wp_bind
  refine wp_mono hperform ?_ (fun _ => hkeep) hkeep
  rintro _ t ⟨ht, hservice⟩
  have hhappened : Happened orig t .rollbackCompleted := hservice
  split
  · exact wp_throw (hkeep t ht)
  · rename_i expected hexpected
    refine wp_appendStage (hkeep t ht).1 (hholds.kept ht hopen) ?_ hhappened ?_
      (fun _ => hkeep t ht) (hkeep t ht)
    · intro he
      refine validStageHistory_append hholds.valid he (Or.inl ⟨rfl, ?_⟩)
      rintro rfl
      exact hlast he
    · exact fun _ u hu hcont hholds' => ⟨hcont, ⟨_, _, hholds'⟩, hu.trans hservice⟩

end MacTypeControl.Legacy
