import MacTypeControl.Legacy.Completion

/-!
# Continuing an interrupted migration

The operations run one after the other, each stopped or failed anywhere, as long as
no backup is taken of a service the migration has already changed and no removal is
repeated that was not recorded.
-/

namespace MacTypeControl.Legacy

open Crash Crash.Prog Installation

inductive Operation where
  | prepareBackup
  | stopLegacy
  | removeAfterVerified (verification : RemovalVerification)
  | rollback

variable {env : Installation} {orig service : LegacyService} {activePath : String}
  {m₀ s t : Machine} {extended : ServiceExtendedConfiguration → Prop} {gone : Prop}
  {generation : ℕ} {stages : List MigrationStage}

def Operation.program (env : Installation) : Operation → Migration MigrationReceipt
  | .prepareBackup => env.prepareBackup
  | .stopLegacy => env.stopLegacy
  | .removeAfterVerified verification => env.removeAfterVerified verification
  | .rollback => env.rollback

/-- The backup taken once more, and the service stopped again. -/
def prepareAndStop (env : Installation) : Migration MigrationReceipt := do
  let _ ← env.prepareBackup
  env.stopLegacy

def recordedStage (env : Installation) (s : Machine) : Option MigrationStage :=
  match env.readCurrent s with
  | .ok (_, receipt) => receipt.currentStage
  | .error _ => none

/-- A backup is not taken of a service the migration has changed, and a removal is not
repeated after a deletion that was not recorded. -/
def Operation.Admissible (env : Installation) (orig : LegacyService) :
    Operation → Machine → Prop
  | .prepareBackup, s => s.service = none ∨ s.service = some orig
  | .removeAfterVerified _, s => s.service = none → recordedStage env s ≠ some .legacyStopped
  | _, _ => True

/-- Any admissible operations, each under any faults. -/
inductive Run (env : Installation) (orig : LegacyService) (m₀ : Machine) : Machine → Prop
  | start : Run env orig m₀ m₀
  | step {s : Machine} (operation : Operation) (fs : List Fault) : Run env orig m₀ s →
      operation.Admissible env orig s →
      Run env orig m₀ ((operation.program env).result fs s).2

/-! ## The invariant along a run -/

theorem Migratable.continuable (hm : Migratable env orig activePath m₀) :
    Continuable env orig activePath m₀.files Supported True m₀ := by
  refine ⟨rfl, ?_, ?_, fun _ => trivial, Or.inl hm.unrecorded⟩
  · rw [hm.service, hm.watched]
    simp
  · intro service hservice
    rw [hm.service] at hservice
    cases hservice
    exact hm.accepted.ours hm.accepted.supported

/-- An operation that needs a receipt fails at once without one. -/
theorem Continuable.step (hm : Migratable env orig activePath m₀)
    (h : Continuable env orig activePath m₀.files Supported True s) (operation : Operation)
    (hadm : operation.Admissible env orig s) :
    wp (operation.program env)
      (fun _ => Continuable env orig activePath m₀.files Supported True)
      (fun _ => Continuable env orig activePath m₀.files Supported True)
      (Continuable env orig activePath m₀.files Supported True) s := by
  have hreached : s.current ≠ none →
      Reached env orig activePath m₀ Supported True (fun _ => True) s := by
    intro hcurrent
    obtain ⟨generation, stages, hholds⟩ := h.receipt.resolve_left hcurrent
    exact ⟨h, generation, stages, hholds, trivial⟩
  have hread : s.current = none → ∀ read, env.readCurrent s ≠ .ok read := by
    intro hcurrent read
    simp [Installation.readCurrent, hcurrent]
  cases operation with
  | prepareBackup =>
    exact wp_mono (h.prepareBackup hm hadm) (fun _ _ ht => ht.1) (fun _ _ ht => ht.continuable h)
      fun _ ht => ht.continuable h
  | stopLegacy =>
    by_cases hcurrent : s.current = none
    · refine wp_bind (wp_inspect (fun read hok => ?_) (fun _ _ => h) h h)
      exact absurd hok (hread hcurrent read)
    · exact wp_mono ((hreached hcurrent).stopLegacy hm fun _ => trivial) (fun _ _ ht => ht.1)
        (fun _ _ ht => ht.1) fun _ ht => ht.1
  | removeAfterVerified verification =>
    by_cases hcurrent : s.current = none
    · refine wp_bind (wp_attempt (wp_inspect (fun read hok => ?_)
        (fun e _ => wp_bind (wp_ensure (fun hc => ?_) fun _ => h))
        (wp_bind (wp_ensure (fun hc => ?_) fun _ => h)) h))
      · exact absurd hok (hread hcurrent read)
      · simp [Except.toOption] at hc
      · simp [Except.toOption] at hc
    · exact wp_mono ((hreached hcurrent).removeAfterVerified hm trivial (fun _ => trivial)
        verification) (fun _ _ ht => ht.1.1) (fun _ _ ht => ht.1.1) fun _ ht => ht.1.1
  | rollback =>
    exact wp_mono (h.rollback hm) (fun _ _ ht => ht.1) (fun _ _ ht => ht.1) fun _ ht => ht.1

theorem Run.continuable (hm : Migratable env orig activePath m₀) (h : Run env orig m₀ s) :
    Continuable env orig activePath m₀.files Supported True s := by
  induction h with
  | start => exact hm.continuable
  | step operation fs _ hadm ih => exact (ih.step hm operation hadm).final fs

/-! ## What a run that would have gone through relies on -/

theorem Continuable.intact_of_matches
    (h : Continuable env orig activePath m₀.files Supported True s)
    (hservice : s.service = some service)
    (hcore : service.configuration.withStartType orig.configuration.startType =
      orig.configuration) (hextended : service.extended = orig.extended) :
    Ours orig (· = orig.extended) service :=
  have hours := h.ours service hservice
  ⟨hcore, hours.startType, hours.stable, hours.noTriggers, hextended⟩

theorem stopLegacy_relies (hm : Migratable env orig activePath m₀)
    (h : Continuable env orig activePath m₀.files Supported True s)
    (hruns : completes env.stopLegacy (fun _ _ => True) s) :
    ∃ generation stages, Holds env orig activePath m₀.files generation stages s ∧
      (stages = [.backupPrepared, .legacyStopped] ∨
        stages = [.backupPrepared] ∧ Intact orig s) := by
  have hw : wp env.stopLegacy (fun _ _ => ∃ generation stages,
      Holds env orig activePath m₀.files generation stages s ∧
        (stages = [.backupPrepared, .legacyStopped] ∨
          stages = [.backupPrepared] ∧ Intact orig s)) (fun _ _ => True) (fun _ => True) s := by
    apply wp_bind
    apply wp_currentReceipt (fun _ => trivial) trivial hm h
    intro generation stages hholds
    dsimp only
    split
    · rename_i hlast
      exact wp_ret ⟨_, _, hholds, Or.inl (stages_of_legacyStopped hholds.valid hlast)⟩
    apply wp_bind
    refine wp_ensure (fun hlast => ?_) fun _ => trivial
    have hlast := stages_of_backupPrepared hholds.valid (of_decide_eq_true hlast)
    apply wp_bind
    apply wp_snapshotMatches (fun _ => trivial) trivial
    intro service hservice hcore hextended
    have hintact : Intact orig s :=
      ⟨service, hservice, h.intact_of_matches hservice hcore hextended⟩
    exact wp_always (fun _ _ => ⟨_, _, hholds, Or.inr ⟨hlast, hintact⟩⟩) (fun _ _ => trivial)
      fun _ => trivial
  obtain ⟨_, _, -, -, hready⟩ := completes_and_wp hruns hw
  exact hready

theorem removeAfterVerified_relies (hm : Migratable env orig activePath m₀)
    (h : Continuable env orig activePath m₀.files Supported True s)
    {verification : RemovalVerification}
    (hruns : completes (env.removeAfterVerified verification) (fun _ _ => True) s) :
    (verification.newServiceReady && verification.activeDigestMatch &&
        verification.backupValid) = true ∧
      ∃ generation stages, Holds env orig activePath m₀.files generation stages s ∧
        (stages = [.backupPrepared, .legacyStopped, .legacyRemoved] ∨
          stages = [.backupPrepared, .legacyStopped] ∧ ∃ service, s.service = some service ∧
            Ours orig (· = orig.extended) service ∧ service.state = .stopped) := by
  have hw : wp (env.removeAfterVerified verification) (fun _ _ =>
      (verification.newServiceReady && verification.activeDigestMatch &&
        verification.backupValid) = true ∧
      ∃ generation stages, Holds env orig activePath m₀.files generation stages s ∧
        (stages = [.backupPrepared, .legacyStopped, .legacyRemoved] ∨
          stages = [.backupPrepared, .legacyStopped] ∧ ∃ service, s.service = some service ∧
            Ours orig (· = orig.extended) service ∧ service.state = .stopped))
      (fun _ _ => True) (fun _ => True) s := by
    have hgiveUp : ∀ e, wp (ensure (verification.newServiceReady &&
        verification.activeDigestMatch && verification.backupValid &&
        (Except.error e : Except String (ℕ × MigrationReceipt)).toOption.isSome)
        "legacy removal requires a ready new service, matching profile digest, and valid backup")
        (fun _ _ => False) (fun _ _ => True) (fun _ => True) s := fun e =>
      wp_ensure (fun hc => by simp [Except.toOption] at hc) fun _ => trivial
    apply wp_bind
    apply wp_attempt
    refine wp_currentReceipt (fun e => wp_bind (wp_mono (hgiveUp e) (fun _ _ hf => hf.elim)
      (fun _ _ h => h) (fun _ h => h))) trivial hm h fun generation stages hholds => ?_
    apply wp_bind
    refine wp_ensure (fun hverified => ?_) fun _ => trivial
    rw [Bool.and_eq_true] at hverified
    apply wp_bind
    apply wp_ret
    dsimp only
    split
    · rename_i hlast
      exact wp_ret ⟨hverified.1, _, _, hholds,
        Or.inl (stages_of_legacyRemoved hholds.valid hlast)⟩
    apply wp_bind
    refine wp_ensure (fun hlast => ?_) fun _ => trivial
    have hlast := stages_of_legacyStopped hholds.valid (of_decide_eq_true hlast)
    apply wp_bind
    apply wp_snapshotMatches (fun _ => trivial) trivial
    intro service hservice hcore hextended
    apply wp_bind
    refine wp_ensure (fun hstopped => ?_) fun _ => trivial
    have hours := h.intact_of_matches hservice hcore hextended
    exact wp_always (fun _ _ => ⟨hverified.1, _, _, hholds, Or.inr ⟨hlast, service, hservice,
      hours, of_decide_eq_true hstopped⟩⟩) (fun _ _ => trivial) fun _ => trivial
  obtain ⟨_, _, -, -, hready⟩ := completes_and_wp hruns hw
  exact hready

theorem rollback_relies (hm : Migratable env orig activePath m₀)
    (h : Continuable env orig activePath m₀.files Supported True s)
    (hruns : completes env.rollback (fun _ _ => True) s) :
    ∃ generation stages, Holds env orig activePath m₀.files generation stages s := by
  have hw : wp env.rollback (fun _ _ => ∃ generation stages,
      Holds env orig activePath m₀.files generation stages s) (fun _ _ => True)
      (fun _ => True) s := by
    apply wp_bind
    apply wp_currentReceipt (fun _ => trivial) trivial hm h
    intro generation stages hholds
    exact wp_always (fun _ _ => ⟨_, _, hholds⟩) (fun _ _ => trivial) fun _ => trivial
  obtain ⟨_, _, -, -, hready⟩ := completes_and_wp hruns hw
  exact hready

/-! ## Interrupted operations go through when they are run again -/

theorem stopLegacy_again (hm : Migratable env orig activePath m₀)
    (h : Continuable env orig activePath m₀.files Supported True s)
    (hruns : completes env.stopLegacy (fun _ _ => True) s) (fs : List Fault) :
    completes env.stopLegacy (fun _ _ => True) (env.stopLegacy.result fs s).2 := by
  obtain ⟨generation, stages, hholds, rfl | ⟨rfl, hintact⟩⟩ := stopLegacy_relies hm h hruns
  · have hreached : Reached env orig activePath m₀ Supported True
        (· = [.backupPrepared, .legacyStopped]) s := ⟨h, generation, _, hholds, rfl⟩
    obtain ⟨hcont, g, _, hafter, rfl⟩ := (hreached.stopLegacy hm (by simp)).final fs
    exact completes_stopLegacy hm hcont hafter (Or.inl rfl)
  · have hreached : Reached env orig activePath m₀ (· = orig.extended) False
        (fun stages => stages = [.backupPrepared, .legacyStopped] ∨ stages = [.backupPrepared])
        s := ⟨h.intact hintact, generation, _, hholds, Or.inr rfl⟩
    obtain ⟨hcont, g, stages, hafter, hstages⟩ :=
      (hreached.stopLegacy hm fun _ => Or.inl rfl).final fs
    apply completes_stopLegacy hm hcont hafter
    refine hstages.imp_right fun hstages => ⟨hstages, ?_⟩
    cases hservice : (env.stopLegacy.result fs s).2.service with
    | none => exact (hcont.present hservice).elim
    | some service => exact ⟨service, hservice, hcont.ours service hservice⟩

theorem Holds.recordedStage (hm : Migratable env orig activePath m₀)
    (h : Continuable env orig activePath m₀.files extended gone s)
    (hholds : Holds env orig activePath m₀.files generation stages s) :
    recordedStage env s = stages.getLast? := by
  unfold Legacy.recordedStage
  rw [hholds.readCurrent hm h.unchanged]
  rfl

theorem removeAfterVerified_again (hm : Migratable env orig activePath m₀)
    (h : Continuable env orig activePath m₀.files Supported True s)
    {verification : RemovalVerification}
    (hruns : completes (env.removeAfterVerified verification) (fun _ _ => True) s)
    (fs : List Fault)
    (hadm : (Operation.removeAfterVerified verification).Admissible env orig
      ((env.removeAfterVerified verification).result fs s).2) :
    completes (env.removeAfterVerified verification) (fun _ _ => True)
      ((env.removeAfterVerified verification).result fs s).2 := by
  obtain ⟨hverified, generation, stages, hholds, hready⟩ := removeAfterVerified_relies hm h hruns
  rcases hready with rfl | ⟨rfl, service, hservice, hours, hstopped⟩
  · have hreached : Reached env orig activePath m₀ Supported True
        (· = [.backupPrepared, .legacyStopped, .legacyRemoved]) s :=
      ⟨h, generation, _, hholds, rfl⟩
    obtain ⟨⟨hcont, g, _, hafter, rfl⟩, -⟩ :=
      (hreached.removeAfterVerified hm trivial (by simp) verification).final fs
    exact completes_removeAfterVerified hm hcont hafter hverified (Or.inl rfl)
  · have hreached : Reached env orig activePath m₀ Supported True
        (fun stages => stages = [.backupPrepared, .legacyStopped, .legacyRemoved] ∨
          stages = [.backupPrepared, .legacyStopped]) s := ⟨h, generation, _, hholds, Or.inr rfl⟩
    obtain ⟨⟨hcont, g, stages, hafter, hstages⟩, hchanged⟩ :=
      (hreached.removeAfterVerified hm trivial (fun _ => Or.inl rfl) verification).final fs
    apply completes_removeAfterVerified hm hcont hafter hverified
    refine hstages.imp_right fun hstages => ⟨hstages, ?_⟩
    rcases hchanged with hsame | hnone
    · exact ⟨service, hsame.trans hservice, hours, hstopped⟩
    · have hstage := hadm hnone
      rw [hafter.recordedStage hm hcont, hstages] at hstage
      exact absurd rfl hstage

theorem rollback_again (hm : Migratable env orig activePath m₀)
    (h : Continuable env orig activePath m₀.files Supported True s)
    (hruns : completes env.rollback (fun _ _ => True) s) (fs : List Fault) :
    completes env.rollback (fun _ _ => True) (env.rollback.result fs s).2 := by
  have hholds := rollback_relies hm h hruns
  refine (h.rollback hm).leaves ?_ ?_ ?_ fs
  · rintro _ t ⟨ht, ⟨_, _, hafter⟩, -⟩
    exact completes_rollback hm ht hafter
  · rintro _ t ⟨ht, hkept⟩
    obtain ⟨_, _, hafter⟩ := hkept hholds
    exact completes_rollback hm ht hafter
  · rintro t ⟨ht, hkept⟩
    obtain ⟨_, _, hafter⟩ := hkept hholds
    exact completes_rollback hm ht hafter

theorem prepareBackup_again (hm : Migratable env orig activePath m₀)
    (h : Continuable env orig activePath m₀.files Supported True s)
    (hadm : s.service = none ∨ s.service = some orig)
    (hruns : completes env.prepareBackup (fun _ _ => True) s) (fs : List Fault) :
    completes env.prepareBackup (fun _ _ => True) (env.prepareBackup.result fs s).2 := by
  have hw := h.prepareBackup hm hadm
  obtain ⟨_, _, -, -, -, hservice, -⟩ := completes_and_wp hruns hw
  refine wp.leaves hw ?_ ?_ ?_ fs
  · exact fun _ t ht => completes_prepareBackup hm ht.1 ht.2.2.1
  · exact fun _ t ht =>
      completes_prepareBackup hm (ht.continuable h) (ht.service.trans hservice)
  · exact fun t ht => completes_prepareBackup hm (ht.continuable h) (ht.service.trans hservice)

theorem completes_prepareAndStop (hm : Migratable env orig activePath m₀)
    (h : Continuable env orig activePath m₀.files Supported True s)
    (hservice : s.service = some orig) :
    completes (prepareAndStop env) (fun _ _ => True) s := by
  apply completes_bind
  refine completes_mono (completes_and_wp (completes_prepareBackup hm h hservice)
    (h.prepareBackup hm (Or.inr hservice))) ?_
  rintro _ t ⟨-, hcont, -, hafter, generation, hholds⟩
  exact completes_stopLegacy hm hcont hholds
    (Or.inr ⟨rfl, orig, hafter, hm.accepted.ours rfl⟩)

/-- In a run of admissible operations every recorded stage has happened, a rollback
that completes restores the service, an operation that would have completed still does
after it was interrupted, and an untouched service can be backed up and stopped. -/
theorem interrupted_migration_continues (hm : Migratable env orig activePath m₀)
    (hrun : Run env orig m₀ s) :
    (∀ generation receipt, env.readCurrent s = .ok (generation, receipt) →
      receipt.service = env.snapshotOf orig ∧
        ∀ stage ∈ receipt.completedStages, Happened orig s stage) ∧
    (∀ fs receipt t, env.rollback.result fs s = (.done receipt, t) → t.service = some orig) ∧
    (∀ (operation : Operation) fs t, operation.Admissible env orig s →
      completes (operation.program env) (fun _ _ => True) s →
      t = ((operation.program env).result fs s).2 → operation.Admissible env orig t →
      completes (operation.program env) (fun _ _ => True) t) ∧
    (s.service = some orig → completes (prepareAndStop env) (fun _ _ => True) s) := by
  have h := hrun.continuable hm
  refine ⟨?_, ?_, ?_, completes_prepareAndStop hm h⟩
  · intro generation receipt hread
    obtain ⟨g, stages, hholds, heq⟩ := h.of_readCurrent hm hread
    cases heq
    exact ⟨rfl, hholds.happened⟩
  · intro fs receipt t hresult
    have ht := h.rollback hm fs
    rw [hresult] at ht
    exact ht.2.2
  · rintro operation fs _ hadm hruns rfl hagain
    cases operation with
    | prepareBackup => exact prepareBackup_again hm h hadm hruns fs
    | stopLegacy => exact stopLegacy_again hm h hruns fs
    | removeAfterVerified verification => exact removeAfterVerified_again hm h hruns fs hagain
    | rollback => exact rollback_again hm h hruns fs

/-! ## A migration of a running service -/

def installedService : LegacyService where
  configuration := ⟨"MacType", "\"C:\\Program Files\\MacType\\MacTray.exe\" -service", 0x10, 2, 1,
    none, 0, "LocalSystem", ["winmgmt"]⟩
  extended := ⟨none, ⟨0, none, none, []⟩, false, false, 0, [], 180000,
    [1, 0, 0, 128, 0, 0, 0, 0, 0, 0, 0, 0, 0, 0, 0, 0, 0, 0, 0, 0]⟩
  hasTriggers := false
  state := .running

/-- A machine without profile files. -/
def installation : Installation where
  root := "C:\\Program Files\\MacType"
  registryConflict := false
  trustedBinaryAvailable := true
  validDescriptor descriptor := descriptor == installedService.extended.securityDescriptor
  freshExtended := installedService.extended
  activeProfile _ := .ok "C:\\Program Files\\MacType\\MacType.ini"
  registryExport _ := [255, 254, 87, 0]
  sha256 _ := "ddc58f78e291dc6d82d802aec9f31d5328d0e25cba26762f51a1a9eb6fb97e4f"
  encodedLength receipt := 2048 + 24 * receipt.completedStages.length

def installedMachine : Machine where
  service := some installedService
  past := [some installedService]
  files _ := none
  generations _ := none
  current := none
  clock := 0
  openService := ⟨.absent, .stopped, none⟩
  legacyStarts := []

theorem installedMachine_migratable : Migratable installation installedService
    "C:\\Program Files\\MacType\\MacType.ini" installedMachine where
  accepted :=
    { noConflict := rfl
      trusted := fun _ => rfl
      owned := by decide +kernel
      configuration := by decide +kernel
      restorable := by decide +kernel
      noTriggers := rfl
      stable := rfl
      supported := ⟨rfl, rfl⟩
      fresh := ⟨rfl, rfl⟩ }
  service := rfl
  watched := rfl
  unrecorded := rfl
  profile := rfl
  ini := Or.inl (by decide +kernel)
  exported := by decide
  fits generation stages hvalid := by
    have hlength : stages.length ≤ 4 := by
      simp only [validStageHistory, Bool.or_eq_true, decide_eq_true_eq] at hvalid
      rcases hvalid with ((((rfl | rfl) | rfl) | rfl) | rfl) | rfl <;> decide
    change 2048 + 24 * stages.length ≤ 256 * 1024
    omega

def preparedMachine : Machine := (installation.prepareBackup.calm installedMachine).2

/-- The machine after `stopLegacy` was stopped at its step number `k`. -/
def stoppedAt (k : ℕ) : Machine :=
  (installation.stopLegacy.result (List.replicate k .none ++ [.crash 1]) preparedMachine).2

/-- A service that was parked by a migration stopped half-way is rolled back as it was. -/
theorem interrupted_migration_rolled_back :
    (installation.rollback.calm (stoppedAt 6)).2.service = some installedService := by
  have hrun : Run installation installedService installedMachine (stoppedAt 6) :=
    (Run.start.step .prepareBackup [] (Or.inr rfl)).step .stopLegacy _ trivial
  obtain ⟨receipt, hdone⟩ : ∃ receipt,
      (installation.rollback.calm (stoppedAt 6)).1 = .done receipt := ⟨_, rfl⟩
  exact (interrupted_migration_continues installedMachine_migratable hrun).2.1 [] receipt _
    (Prod.ext hdone rfl)

/-- The machine after the removal was stopped between the deletion and its record. -/
def removedUnrecorded : Machine :=
  ((installation.removeAfterVerified ⟨true, true, true⟩).result
    (List.replicate 5 .none ++ [.crash 0]) (installation.stopLegacy.calm preparedMachine).2).2

/-- A parked service cannot be backed up again, a backup of a service that was stopped
but not parked makes the rollback leave it stopped, and a removal that was stopped
before its record cannot be repeated. -/
theorem interrupted_stop_is_not_prepared_again :
    ((prepareAndStop installation).calm (stoppedAt 6)).1 =
        .error "legacy migration receipt contains foreign SCM configuration" ∧
      (installation.rollback.calm ((prepareAndStop installation).calm (stoppedAt 5)).2).2.service =
        some { installedService with state := .stopped } ∧
      ((installation.removeAfterVerified ⟨true, true, true⟩).calm removedUnrecorded).1 =
        .error "legacy SCM service is not exactly owned and migration-safe" := by
  decide +kernel

end MacTypeControl.Legacy
