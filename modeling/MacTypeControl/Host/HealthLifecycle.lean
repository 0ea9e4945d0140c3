import MacTypeControl.Host.CleanStop
import MacTypeControl.Host.HealthFormat
import MacTypeControl.Host.KeptWorld

/-!
# The health of a service over its life

Every report that the service persists is one that a reader of the snapshot accepts, whatever the
steps of its life. A service that is asked to stop reports that it stopped without an error, and
nothing more unless that very report is refused.
-/

namespace MacTypeControl.Host

open Crash Injection

variable {ω : Type}

/-! ## A stop that was asked for -/

/-- Once a stop was asked for, every wait is signalled or fails, and the signal says so. -/
structure StopSeen (stop : StopSignal ω) where
  received : ω → Prop
  waitTimeout : ∀ w delay, received w → (stop.waitTimeout w delay).1 ≠ .ok false ∧
    received (stop.waitTimeout w delay).2
  stopRequested : ∀ w, received w → (stop.stopRequested w).1 = true

/-- The one report of a clean stop, and what follows it where it is refused. -/
inductive StopReported (host : ServiceHost ω)
    (result : Option (Except HostError Unit) × ServiceRun ω) : Prop
  | accepted {world : ω} (answer : (host.reportStatus world .stopped).1 = .ok ())
      (ended : result.1 = some (.ok ()))
      (reports : result.2.terminalReports = [(.stopped, world)])
  | refused {world later : ω} {error : OsError}
      (answer : (host.reportStatus world .stopped).1 = .error error)
      (ended : result.1 = some (.error (.os error)))
      (reports : result.2.terminalReports =
        [(.stoppedWithError errorServiceSpecificError 1, later), (.stopped, world)])

theorem OrchestrationDriver.run_succ (host : Surroundings ω) (turns : ℕ)
    (d : OrchestrationDriver ω) :
    run host (turns + 1) d = match run host turns d with
      | (none, d) => d.step host
      | ended => ended := by
  induction turns generalizing d with
  | zero =>
    cases hstep : d.step host with
    | mk ended d₁ =>
      cases ended <;> simp [run, hstep]
  | succ turns ih =>
    cases hstep : d.step host with
    | mk ended d₁ =>
      cases ended with
      | none =>
        have hlater : ∀ n, run host (n + 1) d = run host n d₁ := fun n => by rw [run, hstep]
        rw [hlater, hlater]
        exact ih d₁
      | some result =>
        have hends : ∀ n, run host (n + 1) d = (some result, d₁) := fun n => by rw [run, hstep]
        rw [hends, hends]

/-- A turn that begins after a stop was asked for is the last one. -/
theorem OrchestrationDriver.step_stopped {host : Surroundings ω} (contract : StopSeen host.stop)
    {d : OrchestrationDriver ω} (h : contract.received d.world) :
    (d.step host).1 = some (.ok ()) ∨ ∃ error, (d.step host).1 = some (.error (.service error)) ∧
      contract.received (d.step host).2.world := by
  have hseen := contract.waitTimeout d.world 0 h
  have hasked : (d.ask (host.stop.waitTimeout · 0)).1 ≠ .ok false ∧
      contract.received (d.ask (host.stop.waitTimeout · 0)).2.world := hseen
  unfold step
  revert hasked
  rcases d.ask (host.stop.waitTimeout · 0) with ⟨error | _ | _, d₁⟩ <;> intro hasked
  · exact Or.inr ⟨error, rfl, hasked.2⟩
  · exact absurd rfl hasked.1
  · exact Or.inl rfl

namespace ServiceHost

variable {host : ServiceHost ω} {r : ServiceRun ω}

theorem drive_stopped (contract : StopSeen host.surroundings.stop) {turns : ℕ}
    {initialized : InitializedRuntime} {world : ω}
    (h : contract.received (host.drive turns initialized world).2) :
    (host.drive (turns + 1) initialized world).1 = some (.ok ()) ∨
      ∃ error, (host.drive (turns + 1) initialized world).1 = some (.error (.service error)) ∧
        contract.received (host.drive (turns + 1) initialized world).2 := by
  unfold drive at h ⊢
  cases hdriver : initialized.driver with
  | none =>
    rw [hdriver] at h
    dsimp only at h ⊢
    revert h
    cases (host.surroundings.stop.wait world).1 with
    | error error => exact fun h => Or.inr ⟨error, rfl, h⟩
    | ok _ => exact fun _ => Or.inl rfl
  | some setup =>
    rw [hdriver] at h
    dsimp only at h ⊢
    let d := setup.start world
    let driven := host.driverSurroundings initialized.activeProfileDigest
    have hreachable := @OrchestrationDriver.run_reachable _ driven d turns
    change contract.received (OrchestrationDriver.run driven turns d).2.world at h
    change (OrchestrationDriver.run driven (turns + 1) d).1 = some (.ok ()) ∨ ∃ error,
      (OrchestrationDriver.run driven (turns + 1) d).1 = some (.error (.service error)) ∧
        contract.received (OrchestrationDriver.run driven (turns + 1) d).2.world
    rw [OrchestrationDriver.run_succ]
    revert h hreachable
    rcases OrchestrationDriver.run driven turns d with ⟨_ | (error | message) | ⟨⟩, d₁⟩ <;>
      intro hreachable h
    · let seen : StopSeen driven.stop := contract
      exact OrchestrationDriver.step_stopped seen h
    · exact Or.inr ⟨error, rfl, h⟩
    · exact absurd rfl (hreachable message)
    · exact Or.inl rfl

theorem stopReported_conclude (terminalError : Option StructuredServiceError)
    (h : r.terminalReports = []) :
    StopReported host (some (host.conclude r terminalError).1,
      (host.conclude r terminalError).2) := by
  let published := (host.publishHealth r
    (host.healthReport .unknown none .notRequired terminalError)).2
  have hpublished : published.terminalReports = [] := h
  have hreports : (host.report published .stopped).2.terminalReports =
      [(.stopped, published.world)] := by
    rw [terminalReports_report, hpublished]
    rfl
  have hanswer : (host.report published .stopped).1 =
      (host.reportStatus published.world .stopped).1 := rfl
  change StopReported host (some (host.reportStopped published).1,
    (host.reportStopped published).2)
  unfold reportStopped
  revert hreports hanswer
  rcases host.report published .stopped with ⟨error | ⟨⟩, r₁⟩ <;> intro hreports hanswer
  · have hfailed (failure : StructuredServiceError) :
        (host.reportFailure r₁ failure).terminalReports =
          [(.stoppedWithError errorServiceSpecificError 1, (host.publishHealth r₁
              (host.healthReport .failed none .initializing (some failure))).2.world),
            (.stopped, published.world)] := by
      unfold reportFailure
      dsimp only
      rw [terminalReports_report, terminalReports_publishHealth, hreports]
      rfl
    exact .refused hanswer.symm rfl (hfailed _)
  · exact .accepted hanswer.symm rfl hreports

/-- A service that is asked to stop while it serves ends with the next turn of its driver. -/
theorem stopReported_serve (contract : StopSeen host.surroundings.stop) {turns : ℕ}
    {initialized : InitializedRuntime} (hnone : r.terminalReports = [])
    (h : contract.received (host.drive turns initialized r.world).2) :
    StopReported host (host.serve (turns + 1) initialized r) := by
  have hdriven := drive_stopped contract h
  unfold serve
  revert hdriven
  rcases host.drive (turns + 1) initialized r.world with
    ⟨_ | (error | message) | ⟨⟩, world⟩ <;> intro hdriven
  · simp at hdriven
  · obtain ⟨_, _, hreceived⟩ := hdriven.resolve_left (by simp)
    dsimp only
    rw [contract.stopRequested world hreceived]
    exact stopReported_conclude (some error) hnone
  · obtain ⟨_, hother, _⟩ := hdriven.resolve_left (by simp)
    cases hother
  · exact stopReported_conclude none hnone

/-! ## What the whole life keeps -/

theorem kept_startUp {I : ω → Prop} (hkeeps : host.Keeps I) {world : ω} (h : I world) :
    I (started (host.startUp world)).world := by
  unfold startUp
  have hpending : I (host.report ⟨world, []⟩ (.startPending 1 10000)).2.world :=
    hkeeps.reportStatus _ _ h
  revert hpending
  rcases host.report ⟨world, []⟩ (.startPending 1 10000) with ⟨_ | _, r₁⟩ <;> intro hpending
  · exact kept_reportFailure hkeeps _ hpending
  have hinitializing : I (host.publishHealth r₁
      (host.healthReport .initializing none .initializing none)).2.world :=
    hkeeps.publish _ _ hpending
  dsimp only
  revert hinitializing
  rcases host.publishHealth r₁ (host.healthReport .initializing none .initializing none) with
    ⟨_ | _, r₂⟩ <;> intro hinitializing
  · exact kept_reportFailure hkeeps _ hinitializing
  have hinitialized := hkeeps.initializeRuntime r₂.world hinitializing
  dsimp only
  revert hinitialized
  rcases host.initializeRuntime r₂.world with ⟨error | initialized, world₂⟩ <;> intro hinitialized
  · dsimp only
    split
    · have hpublished : I (host.publishHealth { r₂ with world := world₂ }
          (host.healthReport .unknown none .notRequired (some error))).2.world :=
        hkeeps.publish _ _ hinitialized
      exact kept_reportStopped hkeeps hpublished
    · exact kept_reportFailure hkeeps (r := { r₂ with world := world₂ }) _ hinitialized
  have hrunning : I (host.report { r₂ with world := world₂ } .running).2.world :=
    hkeeps.reportStatus _ _ hinitialized
  dsimp only
  revert hrunning
  rcases host.report { r₂ with world := world₂ } .running with ⟨_ | _, r₃⟩ <;> intro hrunning
  · exact kept_reportFailure hkeeps _ hrunning
  dsimp only
  split
  · exact kept_reportFailure hkeeps _ hrunning
  have hready : I (host.publishHealth r₃ (host.healthReport .ready
      initialized.activeProfileDigest initialized.readiness none)).2.world :=
    hkeeps.publish _ _ hrunning
  revert hready
  rcases host.publishHealth r₃ (host.healthReport .ready
    initialized.activeProfileDigest initialized.readiness none) with ⟨_ | _, r₄⟩ <;> intro hready
  · exact kept_reportFailure hkeeps _ hready
  · exact hready

theorem kept_lifecycle {I : ω → Prop} (hkeeps : host.Keeps I) (turns : ℕ) {world : ω}
    (h : I world) : I (host.run turns world).2.world := by
  have hstarted := kept_startUp hkeeps h
  rw [run_eq]
  revert hstarted
  rcases host.startUp world with ended | ⟨initialized, served⟩ <;> intro hstarted
  · exact hstarted
  · exact kept_serve hkeeps turns initialized hstarted

end ServiceHost

/-! ## Persisted reports -/

/-- A question that leaves what stands beside the world as it is. -/
def aside {α β : Type} (question : ω → α × ω) (w : ω × β) : α × (ω × β) :=
  ((question w.1).1, (question w.1).2, w.2)

def StopSignal.aside (stop : StopSignal ω) (β : Type) : StopSignal (ω × β) where
  wait := Host.aside stop.wait
  waitTimeout w delay := Host.aside (stop.waitTimeout · delay) w
  stopRequested := Host.aside stop.stopRequested
  takeSessionChanges := Host.aside stop.takeSessionChanges

def Surroundings.aside (host : Surroundings ω) (β : Type) : Surroundings (ω × β) where
  recovery := host.recovery
  stop := host.stop.aside β
  source :=
    { subscribe := Host.aside host.source.subscribe
      snapshotPids := Host.aside host.source.snapshotPids
      nextPid := fun w wait => Host.aside (host.source.nextPid · wait) w }
  inspector :=
    { inspect := fun w pid => Host.aside (host.inspector.inspect · pid) w
      probeTargetLifecycle := fun w identity =>
        Host.aside (host.inspector.probeTargetLifecycle · identity) w
      probeTargetLiveness := fun w identity =>
        Host.aside (host.inspector.probeTargetLiveness · identity) w
      processBasename := fun w identity =>
        Host.aside (host.inspector.processBasename · identity) w
      imageNameForOrdering := fun w pid =>
        Host.aside (host.inspector.imageNameForOrdering · pid) w }
  inject w request := Host.aside (host.inject · request) w
  report w state readiness injection lastError :=
    Host.aside (host.report · state readiness injection lastError) w
  now w := host.now w.1
  currentFiletime w := host.currentFiletime w.1

namespace ServiceHost

/-- `CompositeHealthPublisher`: the service with a publication that persists the report before it
shows it. `chance` gives the end of the name of the staging file and what befalls the steps. -/
def persisting (format : HealthFormat) (io : OsError) (chance : ω → (String × List Fault) × ω)
    (service : ServiceHost ω) : ServiceHost (ω × HealthDisk) where
  serviceVersion := service.serviceVersion
  surroundings := service.surroundings.aside HealthDisk
  reportStatus w status := aside (service.reportStatus · status) w
  publish w report :=
    let (((nonce, faults), world), disk) := (chance w.1, w.2)
    match (FileHealthPublisher.publish format io nonce report).result faults disk with
    | (.done (), disk) => aside (service.publish · report) (world, disk)
    | (.error error, disk) => (.error error, world, disk)
    -- a service that was stopped here does nothing more, so that it goes on only adds runs
    | (.crashed, disk) => (.error io, world, disk)
  initializeRuntime := aside service.initializeRuntime

end ServiceHost

theorem Surroundings.keeps_aside (host : Surroundings ω) {β : Type} (J : β → Prop) :
    (host.aside β).Keeps fun w => J w.2 where
  wait _ h := h
  waitTimeout _ _ h := h
  stopRequested _ h := h
  takeSessionChanges _ h := h
  subscribe _ h := h
  snapshotPids _ h := h
  nextPid _ _ h := h
  inspect _ _ h := h
  probeTargetLifecycle _ _ h := h
  probeTargetLiveness _ _ h := h
  processBasename _ _ h := h
  imageNameForOrdering _ _ h := h
  inject _ _ h := h
  report _ _ _ _ _ h := h

def StopSeen.aside {stop : StopSignal ω} (contract : StopSeen stop) (β : Type) :
    StopSeen (stop.aside β) where
  received w := contract.received w.1
  waitTimeout w := contract.waitTimeout w.1
  stopRequested w := contract.stopRequested w.1

namespace ServiceHost

variable {host : ServiceHost ω} {r : ServiceRun ω} {format : HealthFormat} {io : OsError}
  {chance : ω → (String × List Fault) × ω} {service : ServiceHost ω}

theorem keeps_persisting :
    (service.persisting format io chance).Keeps fun w => AllAccepted format w.2 where
  surroundings := service.surroundings.keeps_aside _
  reportStatus _ _ h := h
  initializeRuntime _ h := h
  publish := by
    intro w report h
    unfold persisting
    dsimp only
    have hpublished := (@FileHealthPublisher.maintains_publish format io (chance w.1).1.1 report
      w.2 h).leaves (fun _ _ h => h.2) (fun _ _ h => h) (fun _ h => h) (chance w.1).1.2
    revert hpublished
    rcases (FileHealthPublisher.publish format io (chance w.1).1.1 report).result
      (chance w.1).1.2 w.2 with ⟨⟨⟩ | _ | _, disk⟩ <;> exact id

theorem stopReported_run (contract : StopSeen host.surroundings.stop) {turns : ℕ} {world : ω}
    {initialized : InitializedRuntime} (hstarted : host.startUp world = .ok (initialized, r))
    (h : contract.received (host.drive turns initialized r.world).2) :
    StopReported host (host.run (turns + 1) world) := by
  have hserved : host.run (turns + 1) world = host.serve (turns + 1) initialized r := by
    rw [run_eq, hstarted]
  rw [hserved]
  exact stopReported_serve contract (terminalReports_startUp hstarted) h

/-- Whatever the steps of its life, every report that the service persists is accepted by those who
read it, and a stop that is asked for while it serves ends in its one clean report, after which
only the refusal of that report is reported. -/
theorem accepted_and_stopReported (format : HealthFormat) (io : OsError)
    (chance : ω → (String × List Fault) × ω) (service : ServiceHost ω)
    (contract : StopSeen service.surroundings.stop) (turns : ℕ) (world : ω)
    (folder : HealthFolder) :
    AllAccepted format
        ((service.persisting format io chance).run turns (world, ⟨folder, []⟩)).2.world.2 ∧
      ∀ initialized r, (service.persisting format io chance).startUp (world, ⟨folder, []⟩) =
          .ok (initialized, r) →
        contract.received
          ((service.persisting format io chance).drive turns initialized r.world).2.1 →
        StopReported (service.persisting format io chance)
          ((service.persisting format io chance).run (turns + 1) (world, ⟨folder, []⟩)) := by
  refine ⟨kept_lifecycle keeps_persisting turns (by simp [AllAccepted]), ?_⟩
  intro initialized r hstarted hreceived
  exact stopReported_run (contract.aside HealthDisk) hstarted hreceived

/-- The service is stopped as soon as it serves; `answer` is what the service control manager says
to its statuses. -/
def stopsAtOnce (answer : ServiceStatus → Except OsError Unit) : ServiceHost Unit :=
  { failingWait with
    surroundings := { failingWait.surroundings with
      stop := {
        wait := fun _ => (.ok (), ())
        waitTimeout := fun _ _ => (.ok true, ())
        stopRequested := fun _ => (true, ())
        takeSessionChanges := fun _ => ([], ()) } }
    reportStatus := fun _ status => (answer status, ())
    initializeRuntime := fun _ => (.ok ⟨some
      "sha256:0000000000000000000000000000000000000000000000000000000000000000", .ready,
      some ⟨900, "generation", "digest", []⟩⟩, ()) }

def stopsAtOnceSeen (answer : ServiceStatus → Except OsError Unit) :
    StopSeen (stopsAtOnce answer).surroundings.stop where
  received _ := True
  waitTimeout _ _ _ := ⟨by rintro ⟨⟩, trivial⟩
  stopRequested _ _ := rfl

def takesAll (_ : ServiceStatus) : Except OsError Unit := .ok ()

/-- The handle of the status is no longer good where the service has stopped. -/
def refusesStopped (status : ServiceStatus) : Except OsError Unit :=
  if status = .stopped then .error ⟨"the handle is invalid", some 6⟩ else .ok ()

def emptyRoot : HealthFolder := ⟨false, true, .absent, []⟩

def stoppingHost (answer : ServiceStatus → Except OsError Unit) : ServiceHost (Unit × HealthDisk) :=
  (stopsAtOnce answer).persisting jsonFormat ⟨"i/o", none⟩ fun _ => (("1-2-3", []), ())

theorem exists_served {α β : Type} {startUp : Except α β} (h : startUp.isOk = true) :
    ∃ served, startUp = .ok served := by
  cases startUp with
  | error => cases h
  | ok served => exact ⟨served, rfl⟩

theorem accepted_and_stopReported_stopsAtOnce :
    AllAccepted jsonFormat ((stoppingHost takesAll).run 0 ((), ⟨emptyRoot, []⟩)).2.world.2 ∧
      StopReported (stoppingHost takesAll)
        ((stoppingHost takesAll).run 1 ((), ⟨emptyRoot, []⟩)) := by
  obtain ⟨⟨initialized, r⟩, hserved⟩ :=
    @exists_served _ _ ((stoppingHost takesAll).startUp ((), ⟨emptyRoot, []⟩)) (by decide +kernel)
  have h := accepted_and_stopReported jsonFormat ⟨"i/o", none⟩ (fun _ => (("1-2-3", []), ()))
    (stopsAtOnce takesAll) (stopsAtOnceSeen takesAll) 0 () emptyRoot
  unfold stoppingHost at hserved ⊢
  exact ⟨h.1, h.2 initialized r hserved trivial⟩

/-- Where the service control manager refuses the report of a clean stop, another one follows. -/
theorem refused_stop_is_reported_again :
    ¬∀ (format : HealthFormat) (io : OsError) (chance : Unit → (String × List Fault) × Unit)
      (service : ServiceHost Unit) (contract : StopSeen service.surroundings.stop) (turns : ℕ)
      (world : Unit) (folder : HealthFolder),
      AllAccepted format
          ((service.persisting format io chance).run turns (world, ⟨folder, []⟩)).2.world.2 ∧
        ∀ initialized r, (service.persisting format io chance).startUp (world, ⟨folder, []⟩) =
            .ok (initialized, r) →
          contract.received
            ((service.persisting format io chance).drive turns initialized r.world).2.1 →
          ((service.persisting format io chance).run (turns + 1)
            (world, ⟨folder, []⟩)).2.terminalReports.map Prod.fst = [.stopped] := by
  intro h
  obtain ⟨⟨initialized, r⟩, hserved⟩ :=
    @exists_served _ _ ((stoppingHost refusesStopped).startUp ((), ⟨emptyRoot, []⟩))
      (by decide +kernel)
  have hone : ((stoppingHost refusesStopped).run 1 ((), ⟨emptyRoot, []⟩)).2.terminalReports.map
      Prod.fst = [.stopped] := (h jsonFormat ⟨"i/o", none⟩ (fun _ => (("1-2-3", []), ()))
    (stopsAtOnce refusesStopped) (stopsAtOnceSeen refusesStopped) 0 () emptyRoot).2 initialized r
    hserved trivial
  have hreported := @stopReported_run _ (stoppingHost refusesStopped) r
    ((stopsAtOnceSeen refusesStopped).aside HealthDisk) 0 _ initialized hserved trivial
  cases hreported with
  | accepted answer => cases answer
  | refused answer ended reports =>
    rw [reports] at hone
    cases hone

end ServiceHost

end MacTypeControl.Host
