import MacTypeControl.Integration.LegacyWatch
import MacTypeControl.Legacy.Continuation

/-!
# Never both injectors

The legacy service is only started while the new service is stopped, as long as a
rollback that finds the new service running can stop it.
-/

namespace MacTypeControl.Integration

open Crash Crash.Prog Legacy

variable {backend : MigrationBackend} {free : Prop} {service : OpenService} {s₀ s t : Machine}
  {snapshot : OpenServiceStatus}

/-- The two services are not both running. -/
def AtMostOne (s : Machine) : Prop :=
  ∀ legacy, s.service = some legacy → legacy.state = .running → ¬MayRun s.openService.runtime

/-- Every start of the legacy service since `s₀` found the new service stopped. -/
def StartsAlone (s₀ t : Machine) : Prop :=
  ∃ started, t.legacyStarts = started ++ s₀.legacyStarts ∧ ∀ r ∈ started, ¬MayRun r

/-- A rollback that meets these faults stops the new service: if it may be running, it
is installed and running, its status can be read, and stopping it takes effect. -/
def RollbackStops (gs : List Fault) (t : Machine) : Prop :=
  MayRun t.openService.runtime →
    isInstalled t.openService = true ∧ t.openService.runtime = .running ∧
      (∀ k, gs[0]? ≠ some (.fail k)) ∧
      ∀ k, gs[1]? = some (.fail k) →
        (stopping t.openService)[k]? = some { t.openService with runtime := .stopped }

/-! ## The backup -/

theorem Watched.ofMachine (hone : AtMostOne s) :
    Watched (¬MayRun s.openService.runtime) s.openService s s :=
  ⟨rfl, ⟨[], rfl, by simp⟩, hone⟩

theorem watched_modify {io : String} {f : Machine → Machine}
    (hf : ∀ s, (f s).service = s.service ∧ (f s).openService = s.openService ∧
      (f s).legacyStarts = s.legacyStarts) :
    Maintains (Watched free service s₀) (modify io f) fun _ => True := by
  apply maintains_modify
  intro s hs
  obtain ⟨hservice, hopen, hstarts⟩ := hf s
  exact ⟨hopen.trans hs.openService, hstarts.symm ▸ hs.starts, hservice.symm ▸ hs.legacy⟩

theorem watched_backupProfiles {env : Installation} (generation : ℕ)
    (configuration active : Option Bytes) (activePath : String) :
    Maintains (Watched free service s₀)
      (env.backupProfiles generation configuration activePath active) fun _ => True := by
  have hone : ∀ path role content, Maintains (Watched free service s₀)
      (env.profileBackupReceipt generation path role content) fun _ => True := by
    intro path role content
    cases content with
    | none => exact maintains_ret trivial
    | some bytes =>
      refine maintains_bind (watched_modify fun _ => ⟨rfl, rfl, rfl⟩) ?_
      intro _ _
      exact maintains_ret trivial
  unfold Installation.backupProfiles
  split
  · exact maintains_bind (hone _ _ _) fun _ _ => maintains_ret trivial
  · exact maintains_bind (hone _ _ _) fun _ _ =>
      maintains_bind (hone _ _ _) fun _ _ => maintains_ret trivial

theorem watched_exportServiceRegistry {env : Installation} (generation : ℕ) :
    Maintains (Watched free service s₀) (env.exportServiceRegistry generation)
      fun _ => True := by
  apply maintains_bind maintains_inspectService
  intro _ _
  refine maintains_bind (watched_modify fun _ => ⟨rfl, rfl, rfl⟩) ?_
  intro _ _
  apply maintains_bind (maintains_ofExcept (P := fun _ => True) fun _ _ => trivial)
  intro _ _
  exact maintains_ret trivial

/-- A backup that completes has recorded whether the legacy service is free to run. -/
theorem wp_prepareBackup (env : Installation) (h : Watched free service s₀ s) :
    wp env.prepareBackup (fun _ => Watching free service s₀) (fun _ => Watched free service s₀)
      (Watched free service s₀) s := by
  have hread : Maintains (Watched free service s₀) env.migrationSnapshot
      fun snapshot => snapshot.state = .running → free :=
    maintains_migrationSnapshot (P := fun state => state = .running → free)
      (fun _ hs => hs.running) fun h => nomatch h
  apply Maintains.wp_bind (maintains_legacyQuery (P := fun _ => True) (fun _ _ => trivial)
    trivial) h
  intro _ s _ h
  apply Maintains.wp_bind (maintains_ofExcept (P := fun _ => True) fun _ _ => trivial) h
  intro _ s _ h
  apply Maintains.wp_bind maintains_ensure h
  intro _ s _ h
  apply Maintains.wp_bind hread h
  intro snapshot s hsnapshot h
  apply Maintains.wp_bind (maintains_inspect (P := fun _ => True) fun _ _ _ _ => trivial) h
  intro configuration s _ h
  apply Maintains.wp_bind (maintains_ofExcept (P := fun _ => True) fun _ _ => trivial) h
  intro activePath s _ h
  apply Maintains.wp_bind (maintains_inspect (P := fun _ => True) fun _ _ _ _ => trivial) h
  intro active s _ h
  have hcreate : Maintains (Watched free service s₀) Installation.createGeneration
      fun _ => True := by
    apply maintains_bind (maintains_observe (P := fun _ => True) fun _ _ => trivial)
    intro _ _
    refine maintains_bind (watched_modify fun _ => ⟨rfl, rfl, rfl⟩) ?_
    intro _ _
    exact maintains_ret trivial
  apply Maintains.wp_bind hcreate h
  intro generation s _ h
  apply Maintains.wp_bind (watched_backupProfiles generation configuration active activePath) h
  intro files s _ h
  apply Maintains.wp_bind (watched_exportServiceRegistry generation) h
  intro registry s _ h
  apply Prog.wp_bind
  apply wp_atomic _ (fun _ _ => h) h h
  intro _ t ht
  split at ht
  · cases ht
  cases ht
  have hwritten : Watched free service s₀ (Installation.updateGeneration s generation fun d =>
      { d with receipt := some ⟨generation, env.root, snapshot, [.backupPrepared], registry,
        files⟩ }) := ⟨h.openService, h.starts, h.legacy⟩
  apply Prog.wp_bind
  apply wp_inspect _ (fun _ _ => hwritten) hwritten hwritten
  intro _ _
  apply Prog.wp_bind
  refine wp_modify ?_ hwritten hwritten
  apply wp_ret
  refine ⟨⟨h.openService, h.starts, h.legacy⟩, ?_⟩
  rintro _ directory receipt ⟨⟩ hdirectory hreceipt hrun
  simp only [Installation.updateGeneration, if_pos] at hdirectory
  cases hold : s.generations generation with
  | none => rw [hold] at hdirectory; cases hdirectory
  | some old =>
    rw [hold] at hdirectory
    cases hdirectory
    cases hreceipt
    exact hsnapshot hrun

/-! ## The new service -/

/-- The watch on the legacy side, whatever has become of the new service. -/
def WatchingAny (free : Prop) (s₀ t : Machine) : Prop := Watching free t.openService s₀ t

theorem Watching.any (h : Watching free service s₀ t) : WatchingAny free s₀ t :=
  ⟨⟨rfl, h.1.starts, h.1.legacy⟩, h.2⟩

theorem WatchingAny.watching (h : WatchingAny free s₀ t) : Watching free t.openService s₀ t := h

theorem maintains_query {I : Machine → Prop} {P : OpenServiceStatus → Prop}
    (hP : ∀ s, I s → P (status s.openService)) (hfail : P inaccessible) :
    Maintains I query P := by
  apply maintains_handle
  · apply maintains_inspect
    rintro s _ hs ⟨⟩
    exact hP s hs
  · exact fun _ => maintains_ret hfail

theorem maintains_protectedFiles {I : Machine → Prop} {io : String} :
    Maintains I (protectedFiles io) fun _ => True :=
  maintains_modify fun _ hs => hs

theorem watching_runSetup (backend : MigrationBackend) (action : SystemServiceAction) :
    Maintains (WatchingAny free s₀) (runSetup backend action) fun _ => True := by
  have hset : ∀ s service, WatchingAny free s₀ s →
      WatchingAny free s₀ (setOpenService s service) := fun _ _ hs =>
    ⟨⟨rfl, hs.1.starts, hs.1.legacy⟩, hs.2⟩
  apply maintains_step
  · intro s _ t hs ht
    cases heffect : action.effect backend s.openService with
    | error e => rw [heffect] at ht; cases ht
    | ok service =>
      rw [heffect] at ht
      cases ht
      exact hset s service hs
  · intro s hs t ht
    obtain ⟨service, _, rfl⟩ := List.mem_map.1 ht
    exact hset s service hs

theorem watching_ensureUnchanged :
    Maintains (WatchingAny free s₀) (ensureOpenServiceUnchanged snapshot) fun _ => True := by
  apply maintains_bind (maintains_query (P := fun _ => True) (fun _ _ => trivial) trivial)
  intro _ _
  exact maintains_ensure.trivially

theorem watching_combine {operation recording : Migration Unit}
    (hoperation : Maintains (WatchingAny free s₀) operation fun _ => True)
    (hrecording : Maintains (WatchingAny free s₀) recording fun _ => True) :
    Maintains (WatchingAny free s₀) (combineMutationRecording operation recording)
      fun _ => True := by
  apply maintains_bind (maintains_attempt hoperation (R := fun _ => True) (fun _ _ => trivial)
    fun _ => trivial)
  intro operation _
  apply maintains_bind (maintains_attempt hrecording (R := fun _ => True) (fun _ _ => trivial)
    fun _ => trivial)
  intro recording _
  cases operation <;> cases recording <;> first | exact maintains_ret trivial | exact maintains_throw

theorem watching_publishProfile :
    Maintains (WatchingAny free s₀) (publishProfile backend snapshot) fun _ => True := by
  apply maintains_bind watching_ensureUnchanged
  intro _ _
  refine watching_combine ?_ maintains_protectedFiles
  apply maintains_bind (maintains_query (P := fun _ => True) (fun _ _ => trivial) trivial)
  intro _ _
  apply maintains_bind (maintains_whenever fun _ => watching_runSetup backend _)
  intro _ _
  exact watching_runSetup backend _

theorem watching_activateOpenService :
    Maintains (WatchingAny free s₀) (activateOpenService backend snapshot) fun _ => True := by
  have hactions : ∀ actions, Maintains (WatchingAny free s₀) (runActions backend actions)
      fun _ => True := by
    intro actions
    induction actions with
    | nil => exact maintains_ret trivial
    | cons action actions ih => exact maintains_bind (watching_runSetup backend action) fun _ _ => ih
  apply maintains_bind watching_ensureUnchanged
  intro _ _
  refine watching_combine ?_ maintains_protectedFiles
  apply maintains_bind (maintains_ofExcept (P := fun _ => True) fun _ _ => trivial)
  intro actions _
  exact hactions actions

theorem watching_verify (check : Machine → Except String Bool) (message : String) :
    Maintains (WatchingAny free s₀) (verify check message) fun _ => True := by
  apply maintains_bind (maintains_inspect (P := fun _ => True) fun _ _ _ _ => trivial)
  intro _ _
  exact maintains_ensure.trivially

theorem watching_inStage {stage : String} {program : Migration Unit}
    {next : Migration (Option (String × String))}
    (hprogram : Maintains (WatchingAny free s₀) program fun _ => True)
    (hnext : Maintains (WatchingAny free s₀) next fun _ => True) :
    Maintains (WatchingAny free s₀) (inStage stage program next) fun _ => True := by
  apply maintains_bind (maintains_attempt hprogram (R := fun _ => True) (fun _ _ => trivial)
    fun _ => trivial)
  intro done _
  cases done with
  | ok _ => exact hnext
  | error _ => exact maintains_ret trivial

/-! ## The stages -/

theorem Watching.startsAlone (h : Watching free service s₀ t) : StartsAlone s₀ t := h.1.starts

theorem wp_changeMachine (hidle : free → ¬MayRun service.runtime) (profile : Bytes)
    (h : Watching free service s₀ s) :
    wp (changeMachine backend snapshot profile) (fun _ => WatchingAny free s₀)
      (fun _ => WatchingAny free s₀) (WatchingAny free s₀) s := by
  have hstop : Maintains (Watching free service s₀)
      (do let _ ← backend.legacy.stopLegacy; .ret () : Migration Unit) fun _ => True :=
    maintains_bind (watching_stopLegacy hidle) fun _ _ => maintains_ret trivial
  have hlater : Maintains (WatchingAny free s₀)
      (inStage "publish active profile" (publishProfile backend snapshot) <|
        inStage "activate open service" (activateOpenService backend snapshot) <|
        inStage "verify open service readiness"
          (verify (fun m => backend.strictReady m (backend.digest profile))
            "strict Ready or profile digest mismatch") <|
        inStage "verify x86/x64 injection smoke"
          (verify (fun m => backend.injectionSmoke m (backend.digest profile))
            "both fixed-architecture marker processes were not injected") <|
        inStage "complete migration runtime protection"
          (protectedFiles "the migration runtime pin could not be released") <|
        .ret none) fun _ => True :=
    watching_inStage watching_publishProfile <|
    watching_inStage watching_activateOpenService <|
    watching_inStage (watching_verify _ _) <|
    watching_inStage (watching_verify _ _) <|
    watching_inStage maintains_protectedFiles <|
    maintains_ret trivial
  apply Prog.wp_bind
  apply wp_attempt
  refine wp_mono (hstop s h) ?_ ?_ fun _ ht => ht.any
  · rintro _ t ⟨-, ht⟩
    exact wp_mono (hlater t ht.any) (fun _ _ hu => hu.2) (fun _ _ hu => hu) fun _ hu => hu
  · exact fun _ t ht => wp_ret ht.any

/-- Where the legacy service is free to run, the snapshot shows the new one stopped. -/
theorem watching_captureOpenService (hidle : free → ¬MayRun service.runtime) :
    Maintains (Watching free service s₀) captureOpenService
      fun snapshot => free → snapshot.runtime ≠ .running := by
  have hquery : Maintains (Watching free service s₀) query
      fun status => free → status.runtime ≠ .running := by
    apply maintains_query
    · intro s hs hfree
      have hstopped : s.openService.runtime = .stopped := by
        rw [hs.1.openService]
        exact not_not.1 (hidle hfree)
      unfold status
      cases s.openService.installation <;> simp [hstopped]
    · exact fun _ => by simp [inaccessible]
  apply maintains_bind hquery
  intro status hstatus
  apply maintains_bind maintains_ensure
  intro _ _
  apply maintains_bind maintains_protectedFiles
  intro _ _
  exact maintains_ret hstatus

theorem wp_attemptMigration (backend : MigrationBackend) (profile : Bytes) (hone : AtMostOne s) :
    wp (attemptMigration backend profile)
      (fun attempt t => StartsAlone s t ∧ ∀ snapshot failed, attempt = .ok (snapshot, failed) →
        WatchingAny (¬MayRun s.openService.runtime) s t ∧
          (¬MayRun s.openService.runtime → snapshot.runtime ≠ .running))
      (fun _ => StartsAlone s) (StartsAlone s) s := by
  have hstart := Watched.ofMachine hone
  have hprepared := wp_prepareBackup backend.legacy hstart
  apply Prog.wp_bind
  apply wp_attempt
  refine wp_mono hprepared ?_ (fun _ _ ht => wp_ret ⟨ht.starts, by simp⟩) fun _ ht => ht.starts
  intro _ t ht
  apply Prog.wp_bind
  refine wp_mono (maintains_backupIsValid t ht) ?_ (fun _ _ hu => hu.startsAlone)
    fun _ hu => hu.startsAlone
  rintro valid u ⟨-, hu⟩
  cases valid with
  | false => exact wp_ret ⟨hu.startsAlone, by simp⟩
  | true =>
    apply Prog.wp_bind
    apply wp_attempt
    refine wp_mono (watching_captureOpenService id u hu) ?_
      (fun _ _ hv => wp_ret ⟨hv.startsAlone, by simp⟩) fun _ hv => hv.startsAlone
    rintro snapshot v ⟨hsnapshot, hv⟩
    apply Prog.wp_bind
    refine wp_mono (wp_changeMachine id profile hv) ?_ (fun _ _ hw => hw.startsAlone)
      fun _ hw => hw.startsAlone
    intro failed w hw
    apply wp_ret
    refine ⟨hw.startsAlone, ?_⟩
    rintro _ _ ⟨⟩
    exact ⟨hw, hsnapshot⟩

/-! ## The rollback -/

/-- The watch, and the new service is stopped where the legacy service is free to run. -/
def Idle (free : Prop) (s₀ t : Machine) : Prop :=
  WatchingAny free s₀ t ∧ (free → ¬MayRun t.openService.runtime)

theorem idle_runSetup {action : SystemServiceAction} (haction : free →
    ∀ service : OpenService, service.runtime = .stopped →
      (∀ changed, action.effect backend service = .ok changed → changed.runtime = .stopped) ∧
      ∀ changed ∈ action.partials backend service, changed.runtime = .stopped) :
    Maintains (Idle free s₀) (runSetup backend action) fun _ => True := by
  have hset : ∀ s changed, Idle free s₀ s → (free → changed.runtime = .stopped) →
      Idle free s₀ (setOpenService s changed) := fun _ _ hs hstopped =>
    ⟨⟨⟨rfl, hs.1.1.starts, hs.1.1.legacy⟩, hs.1.2⟩, fun hfree => not_not.2 (hstopped hfree)⟩
  have hstopped : ∀ s, Idle free s₀ s → free → s.openService.runtime = .stopped :=
    fun _ hs hfree => not_not.1 (hs.2 hfree)
  apply maintains_step
  · intro s _ t hs ht
    cases heffect : action.effect backend s.openService with
    | error e => rw [heffect] at ht; cases ht
    | ok changed =>
      rw [heffect] at ht
      cases ht
      exact hset s changed hs fun hfree => (haction hfree _ (hstopped s hs hfree)).1 _ heffect
  · intro s hs t ht
    obtain ⟨changed, hchanged, rfl⟩ := List.mem_map.1 ht
    exact hset s changed hs fun hfree => (haction hfree _ (hstopped s hs hfree)).2 _ hchanged

theorem idle_stop (backend : MigrationBackend) :
    Maintains (Idle free s₀) (runSetup backend .stop) fun _ => True := by
  apply idle_runSetup
  intro _ service hstopped
  constructor
  · intro changed hchanged
    simp only [SystemServiceAction.effect] at hchanged
    split at hchanged
    · cases hchanged
      rfl
    · split at hchanged <;> cases hchanged
      exact hstopped
  · simp [SystemServiceAction.partials, stopping, hstopped]

theorem idle_remove : Maintains (Idle free s₀) (runSetup backend .remove) fun _ => True := by
  apply idle_runSetup
  intro _ service hstopped
  constructor
  · rintro changed ⟨⟩
    rfl
  · simp [SystemServiceAction.partials, stopping, hstopped]

theorem idle_restorePinnedRuntime :
    Maintains (Idle free s₀) (runRestorePinnedRuntime backend) fun _ => True := by
  have hset : ∀ s changed, Idle free s₀ s → (free → changed.runtime = .stopped) →
      Idle free s₀ (setOpenService s changed) := fun _ _ hs hstopped =>
    ⟨⟨⟨rfl, hs.1.1.starts, hs.1.1.legacy⟩, hs.1.2⟩, fun hfree => not_not.2 (hstopped hfree)⟩
  apply maintains_step
  · intro s _ t hs ht
    split at ht
    · cases ht
      exact hset s _ hs fun _ => rfl
    · cases ht
  · intro s hs t ht
    obtain ⟨changed, hchanged, rfl⟩ := List.mem_map.1 ht
    refine hset s changed hs fun hfree => ?_
    rw [stopping, if_pos (not_not.1 (hs.2 hfree))] at hchanged
    cases hchanged

theorem maintains_stopForRollback {I : Machine → Prop}
    (hstop : Maintains I (runSetup backend .stop) fun _ => True) :
    Maintains I (stopForRollback backend) fun _ => True := by
  apply maintains_bind (maintains_query (P := fun _ => True) (fun _ _ => trivial) trivial)
  intro _ _
  apply maintains_bind maintains_ensure
  intro _ _
  apply maintains_bind maintains_ensure
  intro _ _
  exact maintains_whenever fun _ => hstop

/-- Once the new service is stopped, restoring it leaves it stopped unless it was
running before. -/
theorem idle_restoreStopped (hsnapshot : free → snapshot.runtime ≠ .running) :
    Maintains (Idle free s₀) (restoreStopped backend snapshot) fun _ => True := by
  have hremove : Maintains (Idle free s₀) (removeNewInstallation backend snapshot)
      fun _ => True := by
    unfold removeNewInstallation
    split
    · apply maintains_bind (maintains_query (P := fun _ => True) (fun _ _ => trivial) trivial)
      intro _ _
      exact maintains_whenever fun _ => idle_remove
    · exact maintains_ret trivial
  have hpinned : Maintains (Idle free s₀) (do
      runRestorePinnedRuntime backend
      (runSetup backend .start).whenever (snapshot.runtime = .running)) fun _ => True := by
    apply maintains_bind idle_restorePinnedRuntime
    intro _ _
    apply maintains_whenever
    intro hrunning
    exact idle_runSetup fun hfree => absurd hrunning (hsnapshot hfree)
  have hrestore : Maintains (Idle free s₀) (restoreOpenService backend snapshot)
      fun _ => True := by
    unfold restoreOpenService
    split
    · exact maintains_ret trivial
    · exact hpinned
    · exact hpinned
    · exact maintains_throw
  apply maintains_bind hremove
  intro _ _
  apply maintains_bind maintains_protectedFiles
  intro _ _
  apply maintains_bind hrestore
  intro _ _
  apply maintains_bind maintains_protectedFiles
  intro _ _
  exact maintains_protectedFiles

theorem status_installed (h : isInstalled service = true) :
    isControllable (status service) = true ∧ (status service).runtime = service.runtime := by
  obtain ⟨installation, runtime, binaryPath⟩ := service
  cases installation <;> simp_all [isInstalled, isControllable, status]

/-- The stop of a running service, met by faults that let it take effect. -/
theorem runSetup_stop_stopped {gs : List Fault} (hinstalled : isInstalled t.openService = true)
    (heffect : ∀ k, gs[0]? = some (.fail k) →
      (stopping t.openService)[k]? = some { t.openService with runtime := .stopped }) :
    match (runSetup backend .stop).run gs t with
    | (.crashed, _) => True
    | (_, u, _) => u.openService.runtime = .stopped := by
  have hfull : (SystemServiceAction.stop).effect backend t.openService =
      .ok { t.openService with runtime := .stopped } := if_pos hinstalled
  match gs with
  | [] => simp [runSetup, step, hfull, Except.map, setOpenService]
  | .none :: _ => simp [runSetup, step, hfull, Except.map, setOpenService]
  | .crash _ :: _ => trivial
  | .fail k :: _ =>
    have hk := heffect k rfl
    simp [runSetup, step, interrupted, SystemServiceAction.partials, hk, setOpenService]

/-- Where the faults allow it, the new service is stopped when its rollback goes on or
gives up. -/
theorem stopForRollback_stopped (backend : MigrationBackend) {gs : List Fault} (h : RollbackStops gs t)
    (hrun : MayRun t.openService.runtime) :
    match (stopForRollback backend).run gs t with
    | (.crashed, _) => True
    | (_, u, _) => u.openService.runtime = .stopped := by
  obtain ⟨hinstalled, hrunning, hread, heffect⟩ := h hrun
  obtain ⟨hcontrollable, hruntime⟩ := status_installed hinstalled
  rw [hrunning] at hruntime
  have hstop : ∀ gs', (∀ k, gs'[0]? = some (.fail k) →
      (stopping t.openService)[k]? = some { t.openService with runtime := .stopped }) →
      match (do
        ensure (isControllable (status t.openService))
          "the fixed service name is foreign or inaccessible"
        ensure (!isTransitional (status t.openService).runtime)
          "the open service is transitional during rollback"
        (runSetup backend .stop).whenever ((status t.openService).runtime = .running)
          : Migration Unit).run gs' t with
      | (.crashed, _) => True
      | (_, u, _) => u.openService.runtime = .stopped := by
    intro gs' heffect
    rw [hcontrollable, hruntime]
    exact runSetup_stop_stopped hinstalled heffect
  match gs with
  | [] => exact hstop [] (by simp)
  | .none :: gs' => exact hstop gs' heffect
  | .fail k :: _ => exact absurd rfl (hread k)
  | .crash _ :: _ => trivial

theorem idle_of_rollbackStops (backend : MigrationBackend) {gs : List Fault} (h : WatchingAny free s₀ t)
    (hstops : RollbackStops gs t) :
    match (stopForRollback backend).run gs t with
    | (.crashed, u, _) => StartsAlone s₀ u
    | (_, u, _) => Idle free s₀ u := by
  by_cases hrun : MayRun t.openService.runtime
  · have hstopped := stopForRollback_stopped backend hstops hrun
    have hwatch := (maintains_stopForRollback (watching_runSetup backend .stop)).final
      h gs
    unfold result at hwatch
    revert hstopped hwatch
    rcases (stopForRollback backend).run gs t with ⟨_ | _ | _, u, gs'⟩
    · exact fun hstopped hwatch => ⟨hwatch, fun _ => not_not.2 hstopped⟩
    · exact fun hstopped hwatch => ⟨hwatch, fun _ => not_not.2 hstopped⟩
    · exact fun _ hwatch => hwatch.watching.startsAlone
  · have hidle := (maintains_stopForRollback (idle_stop backend)).final
      (show Idle free s₀ t from ⟨h, fun _ => hrun⟩) gs
    unfold result at hidle
    revert hidle
    rcases (stopForRollback backend).run gs t with ⟨_ | _ | _, u, gs'⟩
    · exact id
    · exact id
    · exact fun hidle => hidle.1.watching.startsAlone

theorem wp_restoreLegacyAndReport (h : Idle free s₀ t) (stage primary : String)
    (openRollback : Except String Unit) :
    wp (restoreLegacyAndReport backend stage primary openRollback)
      (fun _ => StartsAlone s₀) (fun _ => StartsAlone s₀) (StartsAlone s₀) t := by
  have hrestore : Maintains (Watching free t.openService s₀) (restoreLegacy backend)
      fun _ => True := maintains_bind (watching_rollback h.2) fun _ _ => maintains_ret trivial
  apply Prog.wp_bind
  apply wp_attempt
  exact wp_mono (hrestore t h.1) (fun _ _ hu => wp_ret hu.2.startsAlone)
    (fun _ _ hu => wp_ret hu.startsAlone) fun _ hu => hu.startsAlone

theorem rollbackMigrationFailure_startsAlone (backend : MigrationBackend) {gs : List Fault} (h : WatchingAny free s₀ t)
    (hsnapshot : free → snapshot.runtime ≠ .running) (hstops : RollbackStops gs t)
    (stage primary : String) :
    StartsAlone s₀
      ((rollbackMigrationFailure backend snapshot stage primary).result gs t).2 := by
  have hidle := idle_of_rollbackStops backend h hstops
  have hrest : ∀ u, Idle free s₀ u →
      wp ((restoreStopped backend snapshot).attempt >>= fun openRollback =>
        restoreLegacyAndReport backend stage primary openRollback)
        (fun _ => StartsAlone s₀) (fun _ => StartsAlone s₀) (StartsAlone s₀) u := by
    intro u hu
    apply Prog.wp_bind
    apply wp_attempt
    exact wp_mono (idle_restoreStopped hsnapshot u hu)
      (fun _ _ hv => wp_restoreLegacyAndReport hv.2 stage primary _)
      (fun _ _ hv => wp_restoreLegacyAndReport hv stage primary _)
      fun _ hv => hv.1.watching.startsAlone
  unfold result
  rw [show rollbackMigrationFailure backend snapshot stage primary =
    ((stopForRollback backend >>= fun _ => restoreStopped backend snapshot).attempt >>=
      fun openRollback => restoreLegacyAndReport backend stage primary openRollback) from rfl,
    run_attempt_bind]
  revert hidle
  rcases (stopForRollback backend).run gs t with ⟨_ | _ | _, u, gs'⟩
  · exact fun hidle => wp.final (hrest u hidle) gs'
  · exact fun hidle => wp.final (wp_restoreLegacyAndReport hidle stage primary _) gs'
  · exact id

/-! ## Removal -/

/-- The removal never starts the legacy service. -/
theorem maintains_removeLegacy (started : List RuntimeState) (expected : String) :
    Maintains (fun t => t.legacyStarts = started) (removeLegacy backend expected)
      fun _ => True := by
  have hdelete : Maintains (fun t => t.legacyStarts = started)
      Installation.deleteOwnedService fun _ => True := by
    apply maintains_act
    rintro s t hs ⟨⟩
    exact hs
  have hremove : Maintains (fun t => t.legacyStarts = started)
      backend.legacy.migrationRemove fun _ => True := by
    apply maintains_bind (maintains_legacyQuery (P := fun _ => True) (fun _ _ => trivial) trivial)
    intro _ _
    exact maintains_bind maintains_ensure fun _ _ => hdelete
  have happend : ∀ generation receipt expected next, Maintains (fun t => t.legacyStarts = started)
      (backend.legacy.appendStage generation receipt expected next) fun _ => True := by
    intro generation receipt expected next
    apply maintains_bind maintains_ensure
    intro _ _
    have hwrite : Maintains (fun t => t.legacyStarts = started)
        (backend.legacy.writeReceipt generation
          { receipt with completedStages := receipt.completedStages ++ [next] })
        fun _ => True := by
      apply maintains_atomic
      intro s _ t hs ht
      split at ht
      · cases ht
      · cases ht
        exact ⟨trivial, hs⟩
    exact maintains_bind hwrite fun _ _ => maintains_ret trivial
  have hafter : ∀ verification, Maintains (fun t => t.legacyStarts = started)
      (backend.legacy.removeAfterVerified verification) fun _ => True := by
    intro verification
    apply maintains_bind (maintains_attempt (maintains_currentReceipt (P := fun _ => True)
      fun _ _ _ _ => trivial) (R := fun _ => True) (fun _ _ => trivial) fun _ => trivial)
    intro backup _
    apply maintains_bind maintains_ensure
    intro _ _
    apply maintains_bind (maintains_ofExcept (P := fun _ => True) fun _ _ => trivial)
    rintro ⟨generation, receipt⟩ _
    dsimp only
    split
    · exact maintains_ret trivial
    apply maintains_bind maintains_ensure
    intro _ _
    apply maintains_bind (maintains_snapshotMatches receipt)
    intro _ _
    apply maintains_bind maintains_ensure
    intro _ _
    apply maintains_bind (maintains_mapError hremove)
    intro _ _
    exact maintains_mapError (happend generation receipt _ _)
  apply maintains_bind (maintains_inspect (P := fun _ => True) fun _ _ _ _ => trivial)
  intro verification _
  apply maintains_bind maintains_ensure
  intro _ _
  apply maintains_bind maintains_backupIsValid
  intro valid _
  exact maintains_bind (hafter _) fun _ _ => maintains_ret trivial

theorem maintains_removeLegacyAfterVerification (backend : MigrationBackend) (started : List RuntimeState) (profile : Bytes) :
    Maintains (fun t => t.legacyStarts = started)
      (removeLegacyAfterVerification backend profile) fun _ => True := by
  apply maintains_bind maintains_backupIsValid
  intro valid _
  cases valid with
  | false => exact maintains_ret trivial
  | true =>
    apply maintains_bind (maintains_attempt (maintains_inspect (P := fun _ => True)
      fun _ _ _ _ => trivial) (R := fun _ => True) (fun _ _ => trivial) fun _ => trivial)
    intro verification _
    cases verification with
    | error _ => exact maintains_ret trivial
    | ok verification =>
      dsimp only
      split
      · apply maintains_bind (maintains_attempt (maintains_removeLegacy started _)
          (R := fun _ => True) (fun _ _ => trivial) fun _ => trivial)
        intro removed _
        cases removed <;> exact maintains_ret trivial
      · exact maintains_ret trivial

/-- In every run of the migration whose rollback can stop the new service, and in every
run of the removal, the legacy service is only started while the new one is stopped. -/
theorem legacy_starts_alone (backend : MigrationBackend) (profile : Bytes) (s : Machine)
    (hone : AtMostOne s) (fs : List Fault) :
    ((∀ snapshot failed t gs, (attemptMigration backend profile).run fs s =
        (.done (.ok (snapshot, some failed)), t, gs) → RollbackStops gs t) →
      StartsAlone s ((migrateFromLegacy backend profile).result fs s).2) ∧
    StartsAlone s ((removeLegacyAfterVerification backend profile).result fs s).2 := by
  constructor
  · intro hrollback
    have hattempt := wp_attemptMigration backend profile hone fs
    unfold result at hattempt ⊢
    unfold migrateFromLegacy
    rw [run_bind]
    revert hattempt hrollback
    rcases (attemptMigration backend profile).run fs s with
      ⟨(_ | ⟨snapshot, _ | ⟨stage, primary⟩⟩) | _ | _, t, gs⟩
    · exact fun _ hattempt => hattempt.1
    · exact fun _ hattempt => hattempt.1
    · intro hrollback hattempt
      obtain ⟨hwatch, hsnapshot⟩ := hattempt.2 snapshot _ rfl
      have hstops := hrollback snapshot _ t gs rfl
      have hstarts := rollbackMigrationFailure_startsAlone backend hwatch hsnapshot
        hstops stage primary
      unfold result at hstarts
      dsimp only
      rw [run_bind]
      revert hstarts
      rcases (rollbackMigrationFailure backend snapshot stage primary).run gs t with
        ⟨_ | _ | _, u, gs'⟩ <;> exact id
    · exact fun _ hattempt => hattempt
    · exact fun _ hattempt => hattempt
  · have hremoval := (maintains_removeLegacyAfterVerification backend
      s.legacyStarts profile).final rfl fs
    exact ⟨[], hremoval, by simp⟩

/-! ## A migration whose new service does not get ready -/

def neverReady : MigrationBackend where
  legacy := installation
  digest _ := "sha256:dcc7be985a963f2f4ce674025beb9cd22dd03e2a39e0d35726131f3468b1561a"
  payloadBinary :=
    "C:\\Program Files\\MacType Control Center\\Service\\bin\\2.0.0\\mactype-service.exe"
  pinnedBinary :=
    "C:\\Program Files\\MacType Control Center\\Service\\bin\\2.0.0\\mactype-service.exe"
  strictReady _ _ := .error "strict Ready timed out"
  injectionSmoke _ _ := .ok false
  removalVerification _ _ := .ok ⟨false, false, false⟩

/-- The legacy service runs; the new one is installed and stopped. -/
def migratingMachine : Machine :=
  { installedMachine with openService := ⟨.current, .stopped, some neverReady.payloadBinary⟩ }

def generalProfile : Bytes := [91, 71, 101, 110, 101, 114, 97, 108, 93]

theorem migratingMachine_atMostOne : AtMostOne migratingMachine :=
  fun _ _ _ => not_not.2 rfl

theorem legacy_starts_alone_undisturbed :
    StartsAlone migratingMachine
      ((migrateFromLegacy neverReady generalProfile).result [] migratingMachine).2 := by
  apply (legacy_starts_alone neverReady generalProfile migratingMachine
    migratingMachine_atMostOne []).1
  intro snapshot failed t gs hrun _
  have ht : ((attemptMigration neverReady generalProfile).run [] migratingMachine).2.1 = t := by rw [hrun]
  have hgs : gs = [] := by
    have hexhausted := (attemptMigration neverReady generalProfile).exhausted migratingMachine
    rw [hrun] at hexhausted
    exact hexhausted
  refine ⟨?_, ?_, by simp [hgs], by simp [hgs]⟩
  · rw [← ht]
    decide +kernel
  · rw [← ht]
    decide +kernel

/-- The new service was started and does not get ready; stopping it fails without
effect, and the legacy service is started beside it. -/
theorem failed_stop_starts_both :
    AtMostOne migratingMachine ∧
      ((migrateFromLegacy neverReady generalProfile).result
        (List.replicate 30 .none ++ [.fail 2]) migratingMachine).2.legacyStarts = [.running] := by
  refine ⟨migratingMachine_atMostOne, ?_⟩
  decide +kernel

end MacTypeControl.Integration
