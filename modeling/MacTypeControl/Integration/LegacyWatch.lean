import MacTypeControl.Integration.Migration
import MacTypeControl.Legacy.ControlLogic

/-!
# When the legacy migration starts its service

The legacy migration leaves the new service alone, and starts the legacy service only
where the receipt says it was running.
-/

namespace MacTypeControl.Integration

open Crash Crash.Prog Legacy Legacy.Installation

variable {env : Installation} {I : Machine → Prop}

/-! ## Reading -/

theorem maintains_legacyQuery {P : LegacyServiceStatus → Prop}
    (hP : ∀ s, I s → P (env.statusOf s.service)) (hfail : P ⟨.inaccessible, .unknown⟩) :
    Maintains I env.query P := by
  apply maintains_handle
  · apply maintains_inspect
    rintro s status hs ⟨⟩
    exact hP s hs
  · exact fun _ => maintains_ret hfail

theorem maintains_inspectService {α : Type} {io : String} {f : LegacyService → Except String α} :
    Maintains I (inspectService io f) fun _ => True :=
  maintains_inspect fun _ _ _ _ => trivial

theorem maintains_migrationSnapshot {P : ServiceRuntimeState → Prop}
    (hP : ∀ s, I s → P (env.statusOf s.service).state) (hfail : P .unknown) :
    Maintains I env.migrationSnapshot fun snapshot => P snapshot.state := by
  have hstatus : Maintains I env.query fun status => P status.state :=
    maintains_legacyQuery hP hfail
  apply maintains_bind hstatus
  intro status hstate
  apply maintains_bind maintains_ensure
  intro _ _
  apply maintains_bind maintains_ensure
  intro _ _
  apply maintains_bind maintains_inspectService
  intro _ _
  exact maintains_ret hstate

theorem maintains_snapshotMatches (receipt : MigrationReceipt) :
    Maintains I (env.snapshotMatches receipt) fun _ => True := by
  apply maintains_bind (maintains_migrationSnapshot (P := fun _ => True)
    (fun _ _ => trivial) trivial)
  intro _ _
  apply maintains_bind maintains_ensure
  intro _ _
  apply maintains_bind maintains_ensure
  intro _ _
  exact maintains_ret trivial

theorem maintains_currentReceipt {P : ℕ × MigrationReceipt → Prop}
    (hP : ∀ s read, I s → env.readCurrent s = .ok read → P read) :
    Maintains I env.currentReceipt P :=
  maintains_inspect hP

theorem maintains_backupIsValid : Maintains I env.backupIsValid fun _ => True := by
  apply maintains_bind (maintains_attempt
    (maintains_currentReceipt (P := fun _ => True) fun _ _ _ _ => trivial)
    (R := fun _ => True) (fun _ _ => trivial) fun _ => trivial)
  intro backup _
  cases backup <;> exact maintains_ret trivial

/-! ## What is watched -/

/-- The new service is `service`, every start of the legacy service since `s₀` found the
new service stopped, and the legacy service only runs if it is free to. -/
structure Watched (free : Prop) (service : OpenService) (s₀ t : Machine) : Prop where
  openService : t.openService = service
  starts : ∃ started, t.legacyStarts = started ++ s₀.legacyStarts ∧ ∀ r ∈ started, ¬MayRun r
  legacy : ∀ legacy, t.service = some legacy → legacy.state = .running → free

/-- The current receipt says the legacy service was running only if it is free to. -/
def ReceiptAllows (free : Prop) (t : Machine) : Prop :=
  ∀ generation directory receipt, t.current = some generation →
    t.generations generation = some directory → directory.receipt = some receipt →
    receipt.service.state = .running → free

def Watching (free : Prop) (service : OpenService) (s₀ t : Machine) : Prop :=
  Watched free service s₀ t ∧ ReceiptAllows free t

theorem statusOf_running {service : Option LegacyService}
    (h : (env.statusOf service).state = .running) :
    ∃ legacy, service = some legacy ∧ legacy.state = .running := by
  cases service with
  | none => cases h
  | some legacy => exact ⟨legacy, rfl, h⟩

variable {free : Prop} {service : OpenService} {s₀ s t : Machine}

theorem Watched.running (h : Watched free service s₀ s)
    (hrun : (env.statusOf s.service).state = .running) : free := by
  obtain ⟨legacy, hlegacy, hstate⟩ := statusOf_running hrun
  exact h.legacy legacy hlegacy hstate

theorem Watching.setService (h : Watching free service s₀ s) {legacy : Option LegacyService}
    (hlegacy : ∀ changed, legacy = some changed → changed.state = .running → free) :
    Watching free service s₀ (s.setService legacy) :=
  ⟨⟨h.1.openService, h.1.starts, hlegacy⟩, h.2⟩

theorem readCurrent_cases {read : ℕ × MigrationReceipt} (h : env.readCurrent s = .ok read) :
    s.current = some read.1 ∧ ∃ directory, s.generations read.1 = some directory ∧
      directory.receipt = some read.2 := by
  unfold readCurrent at h
  cases hcurrent : s.current with
  | none => rw [hcurrent] at h; cases h
  | some generation =>
    rw [hcurrent] at h
    dsimp only at h
    cases hdirectory : s.generations generation with
    | none => rw [hdirectory] at h; cases h
    | some directory =>
      rw [hdirectory] at h
      dsimp only at h
      cases hreceipt : directory.receipt with
      | none => rw [hreceipt] at h; cases h
      | some receipt =>
        rw [hreceipt] at h
        dsimp only at h
        cases hvalid : env.validateReceipt s generation directory receipt with
        | error e => rw [hvalid] at h; cases h
        | ok _ =>
          rw [hvalid] at h
          cases h
          exact ⟨rfl, directory, hdirectory, hreceipt⟩

/-- Reading the current receipt tells whether the legacy service is free to run. -/
theorem watching_currentReceipt : Maintains (Watching free service s₀) env.currentReceipt
    fun read => read.2.service.state = .running → free := by
  apply maintains_currentReceipt
  intro s read hs hread hrun
  obtain ⟨hcurrent, directory, hdirectory, hreceipt⟩ := readCurrent_cases hread
  exact hs.2 _ _ _ hcurrent hdirectory hreceipt hrun

/-! ## Changing the legacy service -/

theorem watching_changeService {io : String} {f : LegacyService → Except String LegacyService}
    (hf : ∀ legacy changed, f legacy = .ok changed → changed.state = .running →
      legacy.state = .running) :
    Maintains (Watching free service s₀) (changeService io f) fun _ => True := by
  apply maintains_act
  intro s t hs ht
  cases hlegacy : s.service with
  | none => rw [hlegacy] at ht; cases ht
  | some legacy =>
    rw [hlegacy] at ht
    dsimp only at ht
    cases hchanged : f legacy with
    | error e => rw [hchanged] at ht; cases ht
    | ok changed =>
      rw [hchanged] at ht
      cases ht
      apply hs.setService
      rintro _ ⟨⟩ hrun
      exact hs.1.legacy legacy hlegacy (hf legacy changed hchanged hrun)

theorem watching_stop :
    Maintains (Watching free service s₀) Installation.stop fun _ => True := by
  apply watching_changeService
  rintro legacy changed ⟨⟩ hrun
  cases hrun

theorem watching_setStartType (startType : ℕ) :
    Maintains (Watching free service s₀) (setStartType startType) fun _ => True := by
  apply watching_changeService
  rintro legacy changed ⟨⟩ hrun
  exact hrun

/-- Where the legacy service is free to run, starting it is harmless. -/
theorem watching_start (hfree : free) (hidle : ¬MayRun service.runtime) :
    Maintains (Watching free service s₀) Installation.start fun _ => True := by
  apply maintains_act
  intro s t hs ht
  cases hlegacy : s.service with
  | none => rw [hlegacy] at ht; cases ht
  | some legacy =>
    rw [hlegacy] at ht
    dsimp only at ht
    split at ht
    · cases ht
    cases ht
    obtain ⟨started, hstarts, hstopped⟩ := hs.1.starts
    refine ⟨⟨hs.1.openService, ⟨s.openService.runtime :: started, ?_, ?_⟩, fun _ _ _ => hfree⟩,
      hs.2⟩
    · simp [hstarts]
    · intro r hr
      rcases List.mem_cons.1 hr with rfl | hr
      · rw [hs.1.openService]
        exact hidle
      · exact hstopped r hr

theorem watching_query {P : LegacyServiceStatus → Prop}
    (hP : ∀ status, (status.state = .running → free) → P status) :
    Maintains (Watching free service s₀) env.query P :=
  maintains_legacyQuery (fun _ hs => hP _ hs.1.running) (hP _ fun h => nomatch h)

theorem watching_migrationStop :
    Maintains (Watching free service s₀) env.migrationStop fun _ => True := by
  apply maintains_bind (watching_query (P := fun _ => True) fun _ _ => trivial)
  intro _ _
  apply maintains_bind maintains_ensure
  intro _ _
  apply maintains_bind maintains_ensure
  intro _ _
  apply maintains_bind (maintains_whenever fun _ => watching_stop)
  intro _ _
  exact watching_setStartType _

theorem watching_restoreRunningState {snapshot : LegacyScmSnapshot}
    (hsnapshot : snapshot.state = .running → free) (hidle : free → ¬MayRun service.runtime) :
    Maintains (Watching free service s₀) (env.migrationRestoreRunningState snapshot)
      fun _ => True := by
  apply maintains_bind maintains_ensure
  intro _ _
  apply maintains_bind (watching_query (P := fun _ => True) fun _ _ => trivial)
  intro _ _
  apply maintains_bind maintains_ensure
  intro _ _
  apply maintains_bind maintains_ensure
  intro _ _
  apply maintains_bind (watching_setStartType _)
  intro _ _
  apply maintains_bind (maintains_whenever fun hrun =>
    watching_start (hsnapshot hrun.1) (hidle (hsnapshot hrun.1)))
  intro _ _
  exact maintains_whenever fun _ => watching_stop

/-! ## Recording and stopping -/

theorem watching_writeReceipt {generation : ℕ} {receipt : MigrationReceipt}
    (hreceipt : receipt.service.state = .running → free) :
    Maintains (Watching free service s₀) (env.writeReceipt generation receipt)
      fun _ => True := by
  apply maintains_atomic
  intro s _ t hs ht
  split at ht
  · cases ht
  cases ht
  refine ⟨trivial, ⟨hs.1.openService, hs.1.starts, hs.1.legacy⟩, ?_⟩
  intro g directory written hcurrent hdirectory hwritten hrun
  simp only [updateGeneration] at hdirectory
  split at hdirectory
  · rename_i hg
    cases hold : s.generations g with
    | none => rw [hold] at hdirectory; cases hdirectory
    | some old =>
      rw [hold] at hdirectory
      cases hdirectory
      cases hwritten
      exact hreceipt hrun
  · exact hs.2 g directory written hcurrent hdirectory hwritten hrun

theorem watching_appendStage {generation : ℕ} {receipt : MigrationReceipt}
    {expected next : MigrationStage} (hreceipt : receipt.service.state = .running → free) :
    Maintains (Watching free service s₀) (env.appendStage generation receipt expected next)
      fun _ => True := by
  apply maintains_bind maintains_ensure
  intro _ _
  apply maintains_bind (watching_writeReceipt (by exact hreceipt))
  intro _ _
  exact maintains_ret trivial

theorem watching_parkAndRecord {generation : ℕ} {receipt : MigrationReceipt}
    (hreceipt : receipt.service.state = .running → free)
    (hidle : free → ¬MayRun service.runtime) :
    Maintains (Watching free service s₀) (env.parkAndRecord generation receipt)
      fun _ => True := by
  apply maintains_bind watching_migrationStop
  intro _ _
  apply maintains_handle (watching_appendStage hreceipt)
  intro error
  apply maintains_bind (maintains_attempt (watching_restoreRunningState hreceipt hidle)
    (R := fun _ => True) (fun _ _ => trivial) fun _ => trivial)
  intro restored _
  cases restored <;> exact maintains_throw

theorem watching_stopLegacy (hidle : free → ¬MayRun service.runtime) :
    Maintains (Watching free service s₀) env.stopLegacy fun _ => True := by
  apply maintains_bind watching_currentReceipt
  rintro ⟨generation, receipt⟩ hreceipt
  dsimp only
  split
  · exact maintains_ret trivial
  apply maintains_bind maintains_ensure
  intro _ _
  apply maintains_bind (maintains_snapshotMatches receipt)
  intro _ _
  exact watching_parkAndRecord hreceipt hidle

/-! ## Rolling back -/

theorem watching_restoreStep (snapshot : LegacyScmSnapshot) (step : ServiceRestoreStep) :
    Maintains (Watching free service s₀) (restoreStep snapshot step) fun _ => True := by
  apply watching_changeService
  rintro legacy changed ⟨⟩ hrun
  rw [step.apply_state] at hrun
  exact hrun

theorem watching_perform (snapshot : LegacyScmSnapshot) (steps : List ServiceRestoreStep)
    (failures : List String) :
    Maintains (Watching free service s₀)
      (performServiceConfigurationRestore snapshot steps failures) fun _ => True := by
  induction steps generalizing failures with
  | nil => exact maintains_ensure.trivially
  | cons step steps ih =>
    apply maintains_bind (maintains_attempt (watching_restoreStep snapshot step)
      (R := fun _ => True) (fun _ _ => trivial) fun _ => trivial)
    intro restored _
    cases restored with
    | ok _ => exact ih failures
    | error error =>
      dsimp only
      split
      · exact maintains_ensure.trivially
      · exact ih _

/-- The machine with a service of the configuration, where there was none. -/
def withCreatedService (env : Installation) (configuration : ServiceConfiguration) (m : Machine) :
    Except String Machine :=
  match m.service with
  | some _ => .ok m
  | none => .ok (m.setService (some ⟨configuration, env.freshExtended, false, .stopped⟩))

theorem watching_createServiceConfiguration (configuration : ServiceConfiguration) :
    Maintains (Watching free service s₀) (env.createServiceConfiguration configuration)
      fun _ => True := by
  have hcreate : Maintains (Watching free service s₀)
      (act "CreateServiceW failed" (withCreatedService env configuration)) fun _ => True := by
    apply maintains_act
    intro s t hs ht
    unfold withCreatedService at ht
    cases hlegacy : s.service with
    | some legacy =>
      rw [hlegacy] at ht
      cases ht
      exact hs
    | none =>
      rw [hlegacy] at ht
      cases ht
      apply hs.setService
      rintro _ ⟨⟩ hrun
      cases hrun
  apply maintains_bind hcreate
  intro _ _
  apply maintains_bind (watching_query (P := fun _ => True) fun _ _ => trivial)
  intro _ _
  exact maintains_ensure.trivially

theorem watching_prepareRestoreTarget (snapshot : LegacyScmSnapshot) :
    Maintains (Watching free service s₀) (env.prepareRestoreTarget snapshot) fun _ => True := by
  have howned : ∀ state : ServiceRuntimeState, Maintains (Watching free service s₀) (do
      requireStable state
      let _ ← inspectService "legacy service restore preflight failed" supportedExtended
      Installation.stop.whenever (state ≠ .stopped)) fun _ => True := by
    intro state
    apply maintains_bind maintains_ensure
    intro _ _
    apply maintains_bind maintains_inspectService
    intro _ _
    exact maintains_whenever fun _ => watching_stop
  apply maintains_bind (watching_query (P := fun _ => True) fun _ _ => trivial)
  rintro ⟨_ | _ | _ | _ | _ | _, state⟩ _
  · exact watching_createServiceConfiguration _
  · exact howned state
  · exact howned state
  · exact maintains_throw
  · exact maintains_throw
  · exact maintains_throw

theorem watching_restoreServiceConfiguration (snapshot : LegacyScmSnapshot) :
    Maintains (Watching free service s₀) (env.restoreServiceConfiguration snapshot)
      fun _ => True := by
  apply maintains_bind (maintains_ofExcept (P := fun _ => True) fun _ _ => trivial)
  intro _ _
  apply maintains_bind (watching_prepareRestoreTarget snapshot)
  intro _ _
  apply maintains_bind (watching_query (P := fun _ => True) fun _ _ => trivial)
  intro _ _
  apply maintains_bind maintains_ensure
  intro _ _
  apply maintains_bind maintains_inspectService
  intro _ _
  apply maintains_bind (watching_perform snapshot _ _)
  intro _ _
  exact maintains_inspectService

theorem watching_stopBeforeRestore :
    Maintains (Watching free service s₀) env.stopBeforeRestore fun _ => True := by
  apply maintains_bind (watching_query (P := fun _ => True) fun _ _ => trivial)
  intro status _
  apply maintains_bind maintains_ensure
  intro _ _
  rcases status with ⟨_ | _ | _ | _ | _ | _, state⟩
  · exact maintains_ret trivial
  · exact watching_migrationStop
  · exact watching_migrationStop
  · exact maintains_throw
  · exact maintains_throw
  · exact maintains_throw

theorem watching_restoreProfileList (generation : ℕ) (profiles : List ProfileBackupReceipt) :
    Maintains (Watching free service s₀) (env.restoreProfileList generation profiles)
      fun _ => True := by
  induction profiles with
  | nil => exact maintains_ret trivial
  | cons receipt profiles ih =>
    have hrestore : Maintains (Watching free service s₀) (env.restoreProfile generation receipt)
        fun _ => True := by
      cases receipt with
      | absent role path => exact maintains_inspect fun _ _ _ _ => trivial
      | present file =>
        apply maintains_bind (maintains_inspect (P := fun _ => True) fun _ _ _ _ => trivial)
        intro _ _
        exact maintains_modify fun s hs =>
          ⟨⟨hs.1.openService, hs.1.starts, hs.1.legacy⟩, hs.2⟩
    exact maintains_bind hrestore fun _ _ => ih

theorem watching_performRollback {generation : ℕ} {receipt : MigrationReceipt}
    (hreceipt : receipt.service.state = .running → free)
    (hidle : free → ¬MayRun service.runtime) :
    Maintains (Watching free service s₀) (env.performRollback generation receipt)
      fun _ => True := by
  apply maintains_bind watching_stopBeforeRestore
  intro _ _
  apply maintains_bind (maintains_bind (watching_restoreProfileList generation _)
    fun _ _ => watching_restoreProfileList generation _)
  intro _ _
  apply maintains_bind (watching_restoreServiceConfiguration receipt.service)
  intro _ _
  apply maintains_bind (maintains_modify fun _ hs => hs)
  intro _ _
  exact watching_restoreRunningState hreceipt hidle

theorem watching_rollback (hidle : free → ¬MayRun service.runtime) :
    Maintains (Watching free service s₀) env.rollback fun _ => True := by
  apply maintains_bind watching_currentReceipt
  rintro ⟨generation, receipt⟩ hreceipt
  dsimp only
  split
  · exact maintains_ret trivial
  apply maintains_bind (watching_performRollback hreceipt hidle)
  intro _ _
  split
  · exact maintains_throw
  · exact watching_appendStage hreceipt

end MacTypeControl.Integration
