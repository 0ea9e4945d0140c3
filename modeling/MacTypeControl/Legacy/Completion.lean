import MacTypeControl.Legacy.Stages

/-!
# Operations that go through

From the states the invariant describes, the operations complete when nothing
disturbs them.
-/

namespace MacTypeControl.Legacy

open Crash Crash.Prog Installation

variable {env : Installation} {orig service : LegacyService} {activePath : String}
  {m₀ s t : Machine} {extended : ServiceExtendedConfiguration → Prop} {gone : Prop}
  {generation : ℕ} {stages : List MigrationStage}

/-! ## Stop and removal -/

/-- The service still has the original configuration, parked or not. -/
def Intact (orig : LegacyService) (s : Machine) : Prop :=
  ∃ service, s.service = some service ∧ Ours orig (· = orig.extended) service

theorem Ours.weaken (hacc : Accepted env orig) (h : Ours orig (· = orig.extended) service) :
    Ours orig Supported service :=
  ⟨h.core, h.startType, h.stable, h.noTriggers, h.extended ▸ hacc.supported⟩

theorem Continuable.intact (h : Continuable env orig activePath m₀.files extended gone s)
    (hs : Intact orig s) :
    Continuable env orig activePath m₀.files (· = orig.extended) False s := by
  obtain ⟨service, hservice, hours⟩ := hs
  refine ⟨h.unchanged, h.tracked, ?_, ?_, h.receipt⟩
  · intro service' hservice'
    rw [hservice] at hservice'
    cases hservice'
    exact hours
  · rw [hservice]
    simp

theorem completes_appendStage (hm : Migratable env orig activePath m₀)
    {expected next : MigrationStage} (hlast : stages.getLast? = some expected)
    (hvalid : validStageHistory (stages ++ [next]) = true) :
    completes (env.appendStage generation
      (env.receiptOf orig m₀.files activePath generation stages) expected next)
      (fun _ _ => True) s := by
  apply completes_bind
  apply completes_ensure (decide_eq_true hlast)
  apply completes_bind
  refine completes_atomic (a := ()) (if_neg (not_lt.2 ?_)) (completes_ret trivial)
  exact hm.fits generation (stages ++ [next]) hvalid

theorem completes_snapshotMatches (hacc : Accepted env orig) (hs : s.service = some service)
    (h : Ours orig (· = orig.extended) service) {Q : LegacyScmSnapshot → Machine → Prop}
    {files : String → Option Bytes} (hq : Q (env.snapshotOf service) s) :
    completes (env.snapshotMatches (env.receiptOf orig files activePath generation stages)) Q
      s := by
  apply completes_bind
  apply completes_migrationSnapshot hacc (h.weaken hacc) hs
  apply completes_bind
  apply completes_ensure
  · rw [Bool.and_eq_true, beq_iff_eq, beq_iff_eq]
    exact ⟨h.core, h.extended⟩
  apply completes_bind
  apply completes_ensure h.stable
  exact completes_ret hq

theorem completes_stopLegacy (hm : Migratable env orig activePath m₀)
    (h : Continuable env orig activePath m₀.files extended gone s)
    (hholds : Holds env orig activePath m₀.files generation stages s)
    (hready : stages = [.backupPrepared, .legacyStopped] ∨
      stages = [.backupPrepared] ∧ Intact orig s) :
    completes env.stopLegacy (fun _ _ => True) s := by
  apply completes_bind
  apply completes_inspect (hholds.readCurrent hm h.unchanged)
  rcases hready with rfl | ⟨rfl, service, hservice, hours⟩
  · exact completes_ret trivial
  apply completes_bind
  apply completes_ensure rfl
  apply completes_bind
  apply completes_snapshotMatches hm.accepted hservice hours
  apply completes_bind
  apply completes_mono (completes_migrationStop hm.accepted hours hservice)
  intro _ t _
  exact completes_handle (completes_appendStage hm rfl rfl)

theorem completes_removeAfterVerified (hm : Migratable env orig activePath m₀)
    (h : Continuable env orig activePath m₀.files extended gone s)
    (hholds : Holds env orig activePath m₀.files generation stages s)
    {verification : RemovalVerification}
    (hverified : (verification.newServiceReady && verification.activeDigestMatch &&
      verification.backupValid) = true)
    (hready : stages = [.backupPrepared, .legacyStopped, .legacyRemoved] ∨
      stages = [.backupPrepared, .legacyStopped] ∧ ∃ service, s.service = some service ∧
        Ours orig (· = orig.extended) service ∧ service.state = .stopped) :
    completes (env.removeAfterVerified verification) (fun _ _ => True) s := by
  apply completes_bind
  apply completes_attempt
  apply completes_inspect (hholds.readCurrent hm h.unchanged)
  apply completes_bind
  apply completes_ensure
  · rw [hverified]
    rfl
  apply completes_bind
  apply completes_ret
  rcases hready with rfl | ⟨rfl, service, hservice, hours, hstopped⟩
  · exact completes_ret trivial
  apply completes_bind
  apply completes_ensure rfl
  apply completes_bind
  apply completes_snapshotMatches hm.accepted hservice hours
  apply completes_bind
  apply completes_ensure (decide_eq_true hstopped)
  apply completes_bind
  apply completes_mapError
  apply completes_mono (completes_migrationRemove hm.accepted hours hservice hstopped)
  intro _ t _
  exact completes_mapError (completes_appendStage hm rfl rfl)

/-! ## Rollback -/

theorem completes_stopBeforeRestore (hacc : Accepted env orig)
    (hours : ∀ service, s.service = some service → Ours orig extended service) :
    completes env.stopBeforeRestore (fun _ _ => True) s := by
  apply completes_bind
  apply completes_query
  apply completes_bind
  apply completes_ensure
  · rw [hacc.noConflict]
    rfl
  cases hservice : s.service with
  | none => exact completes_ret trivial
  | some service =>
    have h := hours service hservice
    have hstop := completes_migrationStop hacc h hservice
    have howned := h.isOwned hacc hservice
    rw [hservice] at howned
    revert howned
    rcases env.statusOf (some service) with ⟨_ | _ | _ | _ | _ | _, state⟩
    · exact fun howned => nomatch howned
    · exact fun _ => hstop
    · exact fun _ => hstop
    · exact fun howned => nomatch howned
    · exact fun howned => nomatch howned
    · exact fun howned => nomatch howned

theorem completes_restoreProfileList {backups : List (String × Bytes)} {registry : Option Bytes}
    {written : Option MigrationReceipt} {files : String → Option Bytes} (hfiles : s.files = files)
    (hdirectory : s.generations generation = some ⟨backups, registry, written⟩)
    (profiles : List ProfileBackupReceipt)
    (hbacked : ∀ receipt ∈ profiles, Backed env files backups receipt) :
    completes (env.restoreProfileList generation profiles) (fun _ _ => True) s := by
  induction profiles generalizing s with
  | nil => exact completes_ret trivial
  | cons receipt profiles ih =>
    have hreceipt := hbacked receipt (by simp)
    apply completes_bind
    cases receipt with
    | absent role path =>
      refine completes_inspect (a := ()) ?_ (ih hfiles hdirectory fun r hr =>
        hbacked r (List.mem_cons_of_mem _ hr))
      change files path = none at hreceipt
      rw [absentRestoreTarget, hfiles, hreceipt]
      rfl
    | present file =>
      obtain ⟨content, hfile, hlookup, -, hlength, hdigest⟩ := hreceipt
      have hread : env.backupBytes ⟨backups, registry, written⟩ file = .ok content := by
        simp [backupBytes, validateBackupBytes, hlookup, hlength, hdigest, require, Except.map]
      apply completes_bind
      refine completes_inspect (a := content) ?_ ?_
      · rw [hdirectory]
        exact hread
      · refine completes_modify (ih ?_ hdirectory fun r hr =>
          hbacked r (List.mem_cons_of_mem _ hr))
        funext path
        dsimp only
        split
        · rename_i hpath
          rw [hpath, hfile]
        · rw [hfiles]

theorem completes_performRollback (hm : Migratable env orig activePath m₀)
    (h : Continuable env orig activePath m₀.files Supported True s)
    (hholds : Holds env orig activePath m₀.files generation stages s) :
    completes (env.performRollback generation
      (env.receiptOf orig m₀.files activePath generation stages)) (fun _ _ => True) s := by
  have hacc := hm.accepted
  obtain ⟨backups, hdirectory, hbacked⟩ := hholds.directory
  rw [← h.unchanged] at hbacked hdirectory ⊢
  apply completes_bind
  refine completes_mono (completes_and_wp (completes_stopBeforeRestore hacc h.ours)
    (kept_stopBeforeRestore h.kept)) ?_
  rintro _ t ⟨-, ht⟩
  have hprofiles : ∀ u, Kept orig Supported True s u → ∀ keep : ProfileBackupReceipt → Bool,
      completes (env.restoreProfileList generation
        ((env.recordedFiles s.files activePath).filter keep))
        (fun _ => Kept orig Supported True s) u := by
    intro u hu keep
    have hsub : ∀ receipt ∈ (env.recordedFiles s.files activePath).filter keep,
        Backed env s.files backups receipt :=
      fun receipt hreceipt => hbacked receipt (List.mem_filter.1 hreceipt).1
    refine completes_mono (completes_and_wp (completes_restoreProfileList hu.files
      (hu.generations ▸ hdirectory) _ hsub)
      (kept_restoreProfileList hu hdirectory _ hsub)) fun _ _ h => h.2
  apply completes_bind
  apply completes_bind
  refine completes_mono (hprofiles t ht _) fun _ u hu => ?_
  refine completes_mono (hprofiles u hu _) fun _ v hv => ?_
  apply completes_bind
  refine completes_mono (completes_and_wp (completes_restoreServiceConfiguration hacc hv.ours)
    (kept_restoreServiceConfiguration hacc hv (Q := fun _ w => Kept orig Supported True s w ∧
      w.service = some { orig with state := .stopped }) fun w hw hservice => ⟨hw, hservice⟩)) ?_
  rintro _ w ⟨-, hw, hservice⟩
  apply completes_bind
  refine completes_modify ?_
  exact completes_migrationRestoreRunningState hacc (hw.ours _ hservice) hservice

theorem completes_rollback (hm : Migratable env orig activePath m₀)
    (h : Continuable env orig activePath m₀.files Supported True s)
    (hholds : Holds env orig activePath m₀.files generation stages s) :
    completes env.rollback (fun _ _ => True) s := by
  apply completes_bind
  apply completes_inspect (hholds.readCurrent hm h.unchanged)
  dsimp only
  split
  · exact completes_ret trivial
  rename_i hlast
  apply completes_bind
  refine completes_mono (completes_performRollback hm h hholds) fun _ t _ => ?_
  split
  · rename_i hnone
    have hempty : stages = [] := List.getLast?_eq_none_iff.1 hnone
    have hvalid := hholds.valid
    rw [hempty] at hvalid
    cases hvalid
  · rename_i expected hexpected
    apply completes_appendStage hm hexpected
    refine validStageHistory_append hholds.valid hexpected (Or.inl ⟨rfl, ?_⟩)
    rintro rfl
    exact hlast hexpected

/-! ## The backup -/

theorem completes_profileBackupReceipt (path : String) (role : BackupRole)
    (content : Option Bytes) :
    completes (env.profileBackupReceipt generation path role content) (fun _ _ => True) s := by
  cases content with
  | none => exact completes_ret trivial
  | some bytes => exact completes_bind (completes_modify (completes_ret trivial))

theorem completes_backupProfiles (configuration active : Option Bytes) :
    completes (env.backupProfiles generation configuration activePath active)
      (fun _ _ => True) s := by
  unfold backupProfiles
  split
  · exact completes_bind (completes_mono (completes_profileBackupReceipt _ _ _)
      fun _ _ _ => completes_ret trivial)
  · exact completes_bind (completes_mono (completes_profileBackupReceipt _ _ _)
      fun _ _ _ => completes_bind (completes_mono (completes_profileBackupReceipt _ _ _)
        fun _ _ _ => completes_ret trivial))

theorem Accepted.required (hacc : Accepted env orig) :
    env.requireOwnedLegacyService (env.statusOf (some orig)) = .ok () := by
  have hstable := hacc.stable
  have htrusted := hacc.trusted
  have howned : (env.statusOf (some orig)).presence.isOwned = true := hacc.owned
  unfold requireOwnedLegacyService
  rw [hacc.noConflict, howned]
  unfold statusOf
  dsimp only
  revert hstable htrusted
  cases orig.state with
  | stopped => exact fun _ _ => rfl
  | running => exact fun _ htrusted => require_true _ (htrusted rfl)
  | _ => exact fun hstable => nomatch hstable

theorem completes_exportServiceRegistry (hm : Migratable env orig activePath m₀)
    (hservice : s.service = some orig) :
    completes (env.exportServiceRegistry generation) (fun _ _ => True) s := by
  apply completes_bind
  refine completes_inspectService hservice rfl ?_
  apply completes_bind
  apply completes_modify
  apply completes_bind
  refine completes_ofExcept (a := ()) ?_ (completes_ret trivial)
  simp [validateRegistryExportBytes, require, hm.exported.1, hm.exported.2]

theorem completes_prepareBackup (hm : Migratable env orig activePath m₀)
    (h : Continuable env orig activePath m₀.files extended gone s)
    (hservice : s.service = some orig) : completes env.prepareBackup (fun _ _ => True) s := by
  have hacc := hm.accepted
  apply completes_bind
  apply completes_query
  rw [hservice]
  apply completes_bind
  apply completes_ofExcept hacc.required
  apply completes_bind
  apply completes_ensure hacc.stable
  apply completes_bind
  apply completes_migrationSnapshot hacc (hacc.ours hacc.supported) hservice
  apply completes_bind
  refine completes_inspect rfl ?_
  apply completes_bind
  apply completes_ofExcept (a := activePath)
  · rw [h.unchanged]
    exact hm.profile
  apply completes_bind
  refine completes_inspect rfl ?_
  apply completes_bind
  apply completes_bind
  apply completes_observe
  apply completes_bind
  apply completes_modify
  apply completes_ret
  have hcreated := Draft.created s
  apply completes_bind
  refine completes_mono (completes_and_wp (completes_backupProfiles _ _)
    (wp_backupProfiles (Q := fun recorded u => recorded = env.recordedFiles s.files activePath ∧
      ∃ backups, Draft s u ⟨backups, none, none⟩ ∧
        ∀ receipt ∈ env.recordedFiles s.files activePath, Backed env s.files backups receipt)
      hcreated fun u backups hu hbacked => ⟨rfl, backups, hu, hbacked⟩)) ?_
  rintro _ t₁ ⟨-, rfl, backups, h₁, hbacked⟩
  apply completes_bind
  refine completes_mono (completes_and_wp
    (completes_exportServiceRegistry hm (h₁.service.trans hservice))
    (wp_exportServiceRegistry (Q := fun recorded u => recorded = env.recordedRegistry orig ∧
      Draft s u ⟨backups, some (env.registryExport orig), none⟩) hservice h₁
      fun u hu => ⟨rfl, hu⟩)) ?_
  rintro _ t₂ ⟨-, rfl, h₂⟩
  have hwritten := h₂.update fun d => { d with
    receipt := some (env.receiptOf orig s.files activePath s.clock [.backupPrepared]) }
  apply completes_bind
  refine completes_atomic (a := ()) (if_neg (not_lt.2 ?_)) ?_
  · rw [h.unchanged]
    exact hm.fits s.clock [.backupPrepared] rfl
  apply completes_bind
  refine completes_inspect (a := ()) ?_ ?_
  · have hdirectory := hwritten.directory
    rw [h.unchanged] at hdirectory hbacked ⊢
    erw [hdirectory]
    exact hm.validateReceipt (h₂.files.trans h.unchanged) rfl hbacked
  · exact completes_bind (completes_modify (completes_ret trivial))

end MacTypeControl.Legacy
