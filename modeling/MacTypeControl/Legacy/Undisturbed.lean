import MacTypeControl.Legacy.ControlLogic

/-!
# Control operations that nothing disturbs

Without faults every control operation goes through on a service that is ours.
-/

namespace MacTypeControl.Legacy

open Crash Crash.Prog Installation

variable {env : Installation} {orig service : LegacyService} {s : Machine}
  {extended : ServiceExtendedConfiguration → Prop}

theorem completes_query {Q : LegacyServiceStatus → Machine → Prop}
    (hq : Q (env.statusOf s.service) s) : completes env.query Q s :=
  completes_handle (completes_inspect rfl hq)

theorem completes_changeService {io : String} {f : LegacyService → Except String LegacyService}
    {changed : LegacyService} {Q : Unit → Machine → Prop} (hs : s.service = some service)
    (hf : f service = .ok changed) (hq : Q () (s.setService (some changed))) :
    completes (changeService io f) Q s := by
  apply completes_act _ hq
  rw [hs]
  dsimp only
  rw [hf]
  rfl

theorem completes_setStartType {startType : ℕ} {Q : Unit → Machine → Prop}
    (hs : s.service = some service)
    (hq : Q () (s.setService (some { service with
      configuration := service.configuration.withStartType startType }))) :
    completes (setStartType startType) Q s :=
  completes_changeService hs rfl hq

theorem completes_inspectService {α : Type} {io : String} {f : LegacyService → Except String α}
    {a : α} {Q : α → Machine → Prop} (hs : s.service = some service) (hf : f service = .ok a)
    (hq : Q a s) : completes (inspectService io f) Q s := by
  apply completes_inspect _ hq
  rw [hs]
  exact hf

theorem completes_start {Q : Unit → Machine → Prop} (hs : s.service = some service)
    (henabled : service.configuration.startType ≠ serviceDisabled)
    (hq : Q () { s.setService (some { service with state := .running }) with
      legacyStarts := s.openService.runtime :: s.legacyStarts }) :
    completes Installation.start Q s := by
  apply completes_act _ hq
  rw [hs]
  dsimp only
  rw [if_neg henabled]

/-- What a query reports of a service that is ours. -/
theorem Ours.isOwned (hacc : Accepted env orig) (h : Ours orig extended service)
    (hs : s.service = some service) : (env.statusOf s.service).presence.isOwned = true := by
  rw [hs]
  change (classifyConfiguration service.configuration env.root).isOwned = true
  rw [h.classify hacc]
  exact hacc.owned

theorem Ours.isStable (h : Ours orig extended service) (hs : s.service = some service) :
    (env.statusOf s.service).state.isStable = true := by
  rw [hs]
  exact h.stable

theorem Ours.supportedExtended (h : Ours orig Supported service) :
    supportedExtended service = .ok service.extended := by
  unfold Installation.supportedExtended
  rw [require_true _ h.extended.1, require_true _ h.extended.2,
    require_true _ (by rw [h.noTriggers]; rfl)]
  rfl

theorem completes_migrationSnapshot (hacc : Accepted env orig) (h : Ours orig Supported service)
    (hs : s.service = some service) {Q : LegacyScmSnapshot → Machine → Prop}
    (hq : Q (env.snapshotOf service) s) : completes env.migrationSnapshot Q s := by
  apply completes_bind
  apply completes_query
  apply completes_bind
  apply completes_ensure
  · rw [hacc.noConflict, h.isOwned hacc hs]
    rfl
  apply completes_bind
  apply completes_ensure (h.isStable hs)
  apply completes_bind
  apply completes_inspectService (a := (service.configuration, service.extended)) hs
  · rw [h.supportedExtended]
    rfl
  · apply completes_ret
    rw [hs]
    exact hq

theorem completes_migrationStop (hacc : Accepted env orig) (h : Ours orig extended service)
    (hs : s.service = some service) : completes env.migrationStop (fun _ _ => True) s := by
  apply completes_bind
  apply completes_query
  apply completes_bind
  apply completes_ensure (h.isOwned hacc hs)
  apply completes_bind
  apply completes_ensure (h.isStable hs)
  apply completes_bind
  apply completes_whenever
  · intro _
    exact completes_changeService hs rfl (completes_setStartType rfl trivial)
  · intro _
    exact completes_setStartType hs trivial

theorem completes_migrationRemove (hacc : Accepted env orig) (h : Ours orig extended service)
    (hs : s.service = some service) (hstopped : service.state = .stopped) :
    completes env.migrationRemove (fun _ _ => True) s := by
  apply completes_bind
  apply completes_query
  apply completes_bind
  apply completes_ensure
  · rw [h.isOwned hacc hs, hs]
    simp [statusOf, hstopped]
  · exact completes_act rfl trivial

theorem completes_migrationRestoreRunningState (hacc : Accepted env orig)
    (h : Ours orig extended service) (hs : s.service = some service) :
    completes (env.migrationRestoreRunningState (env.snapshotOf orig)) (fun _ _ => True) s := by
  have henabled : orig.configuration.startType ≠ serviceDisabled := by
    rw [hacc.startType]
    decide
  apply completes_bind
  apply completes_ensure hacc.stable
  apply completes_bind
  apply completes_query
  apply completes_bind
  apply completes_ensure (h.isOwned hacc hs)
  apply completes_bind
  apply completes_ensure (h.isStable hs)
  apply completes_bind
  apply completes_setStartType hs
  apply completes_bind
  apply completes_whenever
  · intro _
    refine completes_start rfl ?_ ?_
    · exact henabled
    apply completes_whenever
    · intro _
      exact completes_changeService rfl rfl trivial
    · exact fun _ => trivial
  · intro _
    apply completes_whenever
    · intro _
      exact completes_changeService rfl rfl trivial
    · exact fun _ => trivial

/-! ## Restoring the configuration -/

theorem completes_restoreStep {snapshot : LegacyScmSnapshot} {step : ServiceRestoreStep}
    {Q : Unit → Machine → Prop} (hs : s.service = some service)
    (hq : Q () (s.setService (some (step.apply snapshot service)))) :
    completes (restoreStep snapshot step) Q s :=
  completes_changeService hs rfl hq

theorem completes_perform (snapshot : LegacyScmSnapshot) (hs : s.service = some service)
    (steps : List ServiceRestoreStep) :
    completes (performServiceConfigurationRestore snapshot steps [])
      (fun _ t => t.service =
        some (steps.foldl (fun service step => step.apply snapshot service) service)) s := by
  induction steps generalizing s service with
  | nil =>
    unfold performServiceConfigurationRestore reportRestoreFailures
    exact completes_ensure rfl hs
  | cons step steps ih =>
    apply completes_bind
    apply completes_attempt
    apply completes_restoreStep hs
    exact ih rfl

theorem completes_createServiceConfiguration (hacc : Accepted env orig)
    (hs : s.service = none) :
    completes (env.createServiceConfiguration orig.configuration)
      (fun _ t => t.service = some ⟨orig.configuration, env.freshExtended, false, .stopped⟩)
      s := by
  apply completes_bind
  apply completes_act
  · rw [hs]
  · apply completes_bind
    apply completes_query
    exact completes_ensure hacc.owned rfl

theorem completes_prepareRestoreTarget (hacc : Accepted env orig)
    (hours : ∀ service, s.service = some service → Ours orig Supported service) :
    completes (env.prepareRestoreTarget (env.snapshotOf orig))
      (fun _ t => ∃ service, t.service = some service ∧ Ours orig Supported service ∧
        service.state = .stopped) s := by
  apply completes_bind
  apply completes_query
  cases hs : s.service with
  | none =>
    apply completes_mono (completes_createServiceConfiguration hacc hs)
    intro _ t ht
    exact ⟨_, ht, ⟨rfl, Or.inl hacc.startType, rfl, rfl, hacc.fresh⟩, rfl⟩
  | some service =>
    have h := hours service hs
    have howned : completes (do
        requireStable service.state
        let _ ← inspectService "legacy service restore preflight failed"
          Installation.supportedExtended
        Installation.stop.whenever (service.state ≠ .stopped))
        (fun _ t => ∃ service, t.service = some service ∧ Ours orig Supported service ∧
          service.state = .stopped) s := by
      apply completes_bind
      apply completes_ensure h.stable
      apply completes_bind
      apply completes_inspectService hs h.supportedExtended
      apply completes_whenever
      · intro _
        exact completes_changeService hs rfl ⟨_, rfl, h.setState rfl, rfl⟩
      · intro hstop
        exact ⟨service, hs, h, not_not.1 hstop⟩
    have hpresence := h.isOwned hacc hs
    rw [hs] at hpresence
    change (classifyConfiguration service.configuration env.root).isOwned = true at hpresence
    unfold statusOf
    dsimp only
    revert hpresence
    cases classifyConfiguration service.configuration env.root with
    | owned => exact fun _ => howned
    | compatibleUnquoted => exact fun _ => howned
    | _ => simp [ServicePresence.isOwned]

theorem completes_restoreServiceConfiguration (hacc : Accepted env orig)
    (hours : ∀ service, s.service = some service → Ours orig Supported service) :
    completes (env.restoreServiceConfiguration (env.snapshotOf orig)) (fun _ _ => True) s := by
  apply completes_bind
  apply completes_ofExcept hacc.restorable
  apply completes_bind
  apply completes_mono (completes_prepareRestoreTarget hacc hours)
  rintro _ t ⟨service, hs, h, hstopped⟩
  apply completes_bind
  apply completes_query
  apply completes_bind
  apply completes_ensure
  · rw [h.isOwned hacc hs, hs]
    simp [statusOf, hstopped]
  apply completes_bind
  apply completes_inspectService hs h.supportedExtended
  apply completes_bind
  apply completes_mono (completes_perform (env.snapshotOf orig) hs serviceRestoreOrder)
  intro _ u hu
  rw [restoreOrder_foldl] at hu
  have hrestored : Ours orig Supported
      ⟨orig.configuration, orig.extended, false, service.state⟩ :=
    ⟨rfl, Or.inl hacc.startType, h.stable, rfl, hacc.supported⟩
  apply completes_inspectService (a := ()) hu _ trivial
  have hread := hrestored.supportedExtended
  unfold Installation.snapshotOf
  dsimp only
  rw [hread]
  simp [bind, Except.bind, verifyRestoredConfiguration, require]

end MacTypeControl.Legacy
