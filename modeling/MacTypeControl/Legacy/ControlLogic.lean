import MacTypeControl.Legacy.Control

/-!
# What the control operations keep

The migration only ever starts, stops, parks, deletes and recreates the service.
Whatever is caught on the way, the service that is left is still ours.
-/

namespace MacTypeControl.Legacy

open Crash Crash.Prog Installation

variable {env : Installation} {orig : LegacyService} {s t : Machine}

def Installation.snapshotOf (env : Installation) (service : LegacyService) : LegacyScmSnapshot :=
  ⟨classifyConfiguration service.configuration env.root, service.state, service.configuration,
    service.extended⟩

/-- Extended settings a snapshot can be taken of. -/
def Supported (extended : ServiceExtendedConfiguration) : Prop :=
  extended.failureActions.actions.all supportedAction = true ∧
    supportedSidType extended.serviceSidType = true

/-- A legacy service the migration accepts. -/
structure Accepted (env : Installation) (orig : LegacyService) : Prop where
  noConflict : env.registryConflict = false
  trusted : orig.state = .running → env.trustedBinaryAvailable = true
  owned : (classifyConfiguration orig.configuration env.root).isOwned = true
  configuration : validateServiceConfiguration env.root orig.configuration = .ok ()
  restorable : validateSnapshotForRestore env.validDescriptor (env.snapshotOf orig) = .ok ()
  noTriggers : orig.hasTriggers = false
  stable : orig.state.isStable = true
  supported : Supported orig.extended
  fresh : Supported env.freshExtended

/-- The service up to its start type and its running state; `extended` says which
extended settings it may have. -/
structure Ours (orig : LegacyService) (extended : ServiceExtendedConfiguration → Prop)
    (service : LegacyService) : Prop where
  core : service.configuration.withStartType orig.configuration.startType = orig.configuration
  startType : service.configuration.startType = serviceAutoStart ∨
    service.configuration.startType = serviceDisabled
  stable : service.state.isStable = true
  noTriggers : service.hasTriggers = false
  extended : extended service.extended

/-- What an operation on the service manager leaves alone, and that the service
it leaves is ours. There may be no service only where `gone` allows it. -/
structure Kept (orig : LegacyService) (extended : ServiceExtendedConfiguration → Prop)
    (gone : Prop) (s t : Machine) : Prop where
  files : t.files = s.files
  generations : t.generations = s.generations
  current : t.current = s.current
  clock : t.clock = s.clock
  past : ∀ service ∈ s.past, service ∈ t.past
  tracked : t.service ∈ t.past
  ours : ∀ service, t.service = some service → Ours orig extended service
  present : t.service = none → gone

/-- A service whose extended settings can be read is supported. -/
theorem supportedExtended_eq_ok {service : LegacyService} {read : ServiceExtendedConfiguration}
    (h : supportedExtended service = .ok read) :
    read = service.extended ∧ Supported service.extended ∧ service.hasTriggers = false := by
  unfold supportedExtended at h
  obtain ⟨_, hactions, h⟩ := bind_eq_ok.1 h
  obtain ⟨_, hsid, h⟩ := bind_eq_ok.1 h
  obtain ⟨_, htriggers, h⟩ := bind_eq_ok.1 h
  cases h
  have htriggers := ok_of_require htriggers
  rw [Bool.not_eq_true'] at htriggers
  exact ⟨rfl, ⟨ok_of_require hactions, ok_of_require hsid⟩, htriggers⟩

theorem Accepted.startType (h : Accepted env orig) :
    orig.configuration.startType = serviceAutoStart := by
  have hc := ok_of_require h.configuration
  simp only [Bool.and_eq_true, beq_iff_eq] at hc
  exact hc.1.2

/-! ## The shape of the service -/

theorem Ours.setState {extended : ServiceExtendedConfiguration → Prop} {service : LegacyService}
    (h : Ours orig extended service) {state : ServiceRuntimeState}
    (hstate : state.isStable = true) : Ours orig extended { service with state } :=
  ⟨h.core, h.startType, hstate, h.noTriggers, h.extended⟩

theorem Ours.setStartType {extended : ServiceExtendedConfiguration → Prop}
    {service : LegacyService} (h : Ours orig extended service) {startType : ℕ}
    (hstart : startType = serviceAutoStart ∨ startType = serviceDisabled) :
    Ours orig extended
      { service with configuration := service.configuration.withStartType startType } :=
  ⟨h.core, hstart, h.stable, h.noTriggers, h.extended⟩

/-- Parking the service does not change whose it is. -/
theorem Ours.classify {extended : ServiceExtendedConfiguration → Prop} {service : LegacyService}
    (hacc : Accepted env orig) (h : Ours orig extended service) :
    classifyConfiguration service.configuration env.root =
      classifyConfiguration orig.configuration env.root := by
  have hshape : ownedShape service.configuration = ownedShape orig.configuration := by
    rw [← h.core]
    rfl
  have hpath : service.configuration.binaryPath = orig.configuration.binaryPath := by
    rw [← h.core]
    rfl
  have hauto : (service.configuration.startType == serviceAutoStart ||
      service.configuration.startType == serviceDisabled) =
      (orig.configuration.startType == serviceAutoStart ||
        orig.configuration.startType == serviceDisabled) := by
    rw [hacc.startType]
    rcases h.startType with hs | hs <;> simp [hs]
  unfold classifyConfiguration
  rw [hshape, hpath, hauto]

theorem Accepted.ours {extended : ServiceExtendedConfiguration → Prop} (h : Accepted env orig)
    (hext : extended orig.extended) : Ours orig extended orig :=
  ⟨rfl, Or.inl h.startType, h.stable, h.noTriggers, hext⟩

/-! ## Runs of the control operations

Every operation keeps the invariant `Kept orig extended gone s₀`, whether it
completes, fails or is stopped. -/

variable {extended : ServiceExtendedConfiguration → Prop} {gone : Prop} {s₀ : Machine}

theorem Kept.refl (hours : ∀ service, s.service = some service → Ours orig extended service)
    (hpresent : s.service = none → gone) (htracked : s.service ∈ s.past) :
    Kept orig extended gone s s :=
  ⟨rfl, rfl, rfl, rfl, fun _ h => h, htracked, hours, hpresent⟩

theorem Kept.setService (h : Kept orig extended gone s₀ s) {service : Option LegacyService}
    (hours : ∀ svc, service = some svc → Ours orig extended svc)
    (hpresent : service = none → gone) : Kept orig extended gone s₀ (s.setService service) :=
  ⟨h.files, h.generations, h.current, h.clock, fun x hx => List.mem_cons_of_mem _ (h.past x hx),
    List.mem_cons_self, hours, hpresent⟩

/-- Every run of `m` keeps the invariant, and `Q` holds when it completes. -/
abbrev Keeps (orig : LegacyService) (extended : ServiceExtendedConfiguration → Prop)
    (gone : Prop) (s₀ : Machine) {α : Type} (m : Migration α) (Q : α → Machine → Prop)
    (s : Machine) : Prop :=
  wp m Q (fun _ => Kept orig extended gone s₀) (Kept orig extended gone s₀) s

theorem wp_changeService {io : String} {f : LegacyService → Except String LegacyService}
    {Q : Unit → Machine → Prop} {E : String → Machine → Prop} {C : Machine → Prop}
    (hok : ∀ service changed, s.service = some service → f service = .ok changed →
      Q () (s.setService (some changed)) ∧ E io (s.setService (some changed)) ∧
        C (s.setService (some changed)))
    (herr : ∀ e, E e s) (hstop : C s) : wp (changeService io f) Q E C s := by
  apply wp_act _ (fun e _ => herr e) (herr io) hstop
  intro t ht
  cases hs : s.service with
  | none => rw [hs] at ht; cases ht
  | some service =>
    rw [hs] at ht
    dsimp only at ht
    cases hf : f service with
    | error e => rw [hf] at ht; cases ht
    | ok changed =>
      rw [hf] at ht
      cases ht
      exact hok service changed hs hf

/-- The service is stopped and disabled, and otherwise as it was. -/
def Parked (orig : LegacyService) (t : Machine) : Prop :=
  ∃ service, t.service = some service ∧ service.state = .stopped ∧
    service.configuration = orig.configuration.withStartType serviceDisabled

theorem Ours.withStartType {service : LegacyService} {startType : ℕ}
    (h : Ours orig extended
      { service with configuration := service.configuration.withStartType startType }) :
    service.configuration.withStartType startType =
      orig.configuration.withStartType startType := by
  rw [← h.core]
  rfl

theorem stopped_of_stable {state : ServiceRuntimeState} (hstable : state.isStable = true)
    (hidle : state ≠ .running) : state = .stopped := by
  cases state with
  | stopped => rfl
  | running => exact absurd rfl hidle
  | _ => cases hstable

section Keeping

variable (h : Kept orig extended gone s₀ s)
include h

theorem kept_query {Q : LegacyServiceStatus → Machine → Prop}
    (hok : Q (env.statusOf s.service) s) (hfail : Q ⟨.inaccessible, .unknown⟩ s) :
    Keeps orig extended gone s₀ env.query Q s := by
  apply wp_handle
  apply wp_inspect
  · rintro status ⟨⟩
    exact hok
  · simp
  · exact wp_ret hfail
  · exact h

theorem kept_changeService {io : String} {f : LegacyService → Except String LegacyService}
    {Q : Unit → Machine → Prop}
    (hours : ∀ service changed, Ours orig extended service → f service = .ok changed →
      Ours orig extended changed)
    (hok : ∀ service changed, s.service = some service → f service = .ok changed →
      Kept orig extended gone s₀ (s.setService (some changed)) →
      Q () (s.setService (some changed))) :
    Keeps orig extended gone s₀ (changeService io f) Q s := by
  apply wp_changeService _ (fun _ => h) h
  intro service changed hs hf
  have hkept : Kept orig extended gone s₀ (s.setService (some changed)) :=
    h.setService (fun svc hsvc => Option.some.inj hsvc ▸ hours _ _ (h.ours service hs) hf)
      (by simp)
  exact ⟨hok service changed hs hf hkept, hkept, hkept⟩

theorem kept_setStartType {startType : ℕ}
    (hstart : startType = serviceAutoStart ∨ startType = serviceDisabled)
    {Q : Unit → Machine → Prop}
    (hok : ∀ service, s.service = some service → ∀ t, Kept orig extended gone s₀ t →
      t.service = some { service with
        configuration := service.configuration.withStartType startType } → Q () t) :
    Keeps orig extended gone s₀ (setStartType startType) Q s := by
  apply kept_changeService h
  · rintro service changed hours ⟨⟩
    exact hours.setStartType hstart
  · rintro service changed hs ⟨⟩ hkept
    exact hok service hs _ hkept rfl

theorem kept_stop {Q : Unit → Machine → Prop}
    (hok : ∀ service, s.service = some service → ∀ t, Kept orig extended gone s₀ t →
      t.service = some { service with state := .stopped } → Q () t) :
    Keeps orig extended gone s₀ Installation.stop Q s := by
  apply kept_changeService h
  · rintro service changed hours ⟨⟩
    exact hours.setState rfl
  · rintro service changed hs ⟨⟩ hkept
    exact hok service hs _ hkept rfl

theorem kept_start {Q : Unit → Machine → Prop}
    (hok : ∀ service, s.service = some service → ∀ t, Kept orig extended gone s₀ t →
      t.service = some { service with state := .running } → Q () t) :
    Keeps orig extended gone s₀ Installation.start Q s := by
  apply wp_act _ (fun _ _ => h) h h
  intro t ht
  cases hs : s.service with
  | none => rw [hs] at ht; cases ht
  | some service =>
    rw [hs] at ht
    dsimp only at ht
    split at ht
    · cases ht
    · cases ht
      have hset : Kept orig extended gone s₀
          (s.setService (some { service with state := .running })) :=
        h.setService (fun svc hsvc => Option.some.inj hsvc ▸ (h.ours service hs).setState rfl)
          (by simp)
      have hkept : Kept orig extended gone s₀
          { s.setService (some { service with state := .running }) with
            legacyStarts := s.openService.runtime :: s.legacyStarts } :=
        ⟨hset.files, hset.generations, hset.current, hset.clock, hset.past, hset.tracked,
          hset.ours, hset.present⟩
      exact ⟨hok service hs _ hkept rfl, hkept, hkept⟩

theorem kept_requireStable {state : ServiceRuntimeState} {Q : Unit → Machine → Prop}
    (hok : state.isStable = true → Q () s) :
    Keeps orig extended gone s₀ (requireStable state) Q s :=
  wp_ensure hok fun _ => h

theorem kept_ensure {condition : Bool} {message : String} {Q : Unit → Machine → Prop}
    (hok : condition = true → Q () s) :
    Keeps orig extended gone s₀ (ensure condition message) Q s :=
  wp_ensure hok fun _ => h

theorem kept_inspectService {α : Type} {io : String} {f : LegacyService → Except String α}
    {Q : α → Machine → Prop}
    (hok : ∀ service a, s.service = some service → f service = .ok a → Q a s) :
    Keeps orig extended gone s₀ (inspectService io f) Q s := by
  apply wp_inspect _ (fun _ _ => h) h h
  intro a ha
  cases hs : s.service with
  | none => rw [hs] at ha; cases ha
  | some service =>
    rw [hs] at ha
    exact hok service a hs ha

/-- A parked service: stopped, disabled and otherwise as it was. -/
theorem kept_migrationStop {Q : Unit → Machine → Prop}
    (hok : ∀ t, Kept orig extended gone s₀ t → Parked orig t → Q () t) :
    Keeps orig extended gone s₀ env.migrationStop Q s := by
  have hpark : ∀ u, Kept orig extended gone s₀ u →
      (∀ service, u.service = some service → service.state = .stopped) →
      Keeps orig extended gone s₀ (setStartType serviceDisabled) Q u := by
    intro u hu hstopped
    apply kept_setStartType hu (Or.inr rfl)
    intro service hs t ht hts
    exact hok t ht ⟨_, hts, hstopped service hs, (ht.ours _ hts).withStartType⟩
  apply wp_bind
  apply kept_query h
  · apply wp_bind
    apply kept_ensure h
    intro _
    apply wp_bind
    apply kept_requireStable h
    intro hstable
    apply wp_bind
    apply wp_whenever
    · intro _
      apply kept_stop h
      intro service hs t ht hts
      exact hpark t ht fun svc hsvc => by
        rw [hts] at hsvc
        cases hsvc
        rfl
    · intro hidle
      apply hpark s h
      intro service hs
      rw [hs] at hstable hidle
      exact stopped_of_stable hstable hidle
  · exact wp_bind (kept_ensure h fun hc => absurd hc (by decide))

/-- The start type and the running state of the snapshot are put back. -/
theorem kept_migrationRestoreRunningState {snapshot : LegacyScmSnapshot}
    (hstart : snapshot.configuration.startType = serviceAutoStart ∨
      snapshot.configuration.startType = serviceDisabled)
    {Q : Unit → Machine → Prop}
    (hok : ∀ service, s.service = some service → ∀ t, Kept orig extended gone s₀ t →
      t.service = some { service with
        configuration := service.configuration.withStartType snapshot.configuration.startType
        state := snapshot.state } → Q () t) :
    Keeps orig extended gone s₀ (env.migrationRestoreRunningState snapshot) Q s := by
  apply wp_bind
  apply kept_requireStable h
  intro hsnapshot
  apply wp_bind
  apply kept_query h
  swap
  · exact wp_bind (kept_ensure h fun hc => absurd hc (by decide))
  apply wp_bind
  apply kept_ensure h
  intro _
  apply wp_bind
  apply kept_requireStable h
  intro hcurrent
  apply wp_bind
  apply kept_setStartType h hstart
  intro service hs u hu hus
  rw [hs] at hcurrent ⊢
  change service.state.isStable = true at hcurrent
  apply wp_bind
  apply wp_whenever
  · rintro ⟨hrun, -⟩
    apply kept_start hu
    intro changed hc t ht hts
    rw [hus] at hc
    cases hc
    apply wp_whenever
    · rintro ⟨hstop, -⟩
      rw [hrun] at hstop
      cases hstop
    · intro _
      exact hok service hs t ht (by rw [hts, hrun])
  · intro hnostart
    apply wp_whenever
    · rintro ⟨hstop, -⟩
      apply kept_stop hu
      intro changed hc t ht hts
      rw [hus] at hc
      cases hc
      exact hok service hs t ht (by rw [hts, hstop])
    · intro hnostop
      refine hok service hs u hu ?_
      have hsame : service.state = snapshot.state := by
        change ¬(snapshot.state = .running ∧ service.state = .stopped) at hnostart
        change ¬(snapshot.state = .stopped ∧ service.state = .running) at hnostop
        by_cases hr : service.state = .running
        · by_contra hne
          exact hnostop ⟨stopped_of_stable hsnapshot fun e => hne (hr.trans e.symm), hr⟩
        · have hst := stopped_of_stable hcurrent hr
          by_contra hne
          by_cases hrun : snapshot.state = .running
          · exact hnostart ⟨hrun, hst⟩
          · exact hne (hst.trans (stopped_of_stable hsnapshot hrun).symm)
      rw [hus, ← hsame]

end Keeping

/-! ## Restoring the configuration -/

theorem Ours.restoreStep (hacc : Accepted env orig) {service : LegacyService}
    (h : Ours orig Supported service) (step : ServiceRestoreStep) :
    Ours orig Supported (step.apply (env.snapshotOf orig) service) := by
  cases step with
  | core => exact ⟨rfl, Or.inl hacc.startType, h.stable, h.noTriggers, h.extended⟩
  | failureActions =>
    exact ⟨h.core, h.startType, h.stable, h.noTriggers, hacc.supported.1, h.extended.2⟩
  | serviceSidType =>
    exact ⟨h.core, h.startType, h.stable, h.noTriggers, h.extended.1, hacc.supported.2⟩
  | triggers => exact ⟨h.core, h.startType, h.stable, rfl, h.extended⟩
  | _ => exact ⟨h.core, h.startType, h.stable, h.noTriggers, h.extended⟩

theorem Installation.ServiceRestoreStep.apply_state (snapshot : LegacyScmSnapshot)
    (service : LegacyService) (step : ServiceRestoreStep) :
    (step.apply snapshot service).state = service.state := by
  cases step <;> rfl

/-- All steps together leave the snapshot's configuration and nothing else. -/
theorem restoreOrder_foldl (snapshot : LegacyScmSnapshot) (service : LegacyService) :
    serviceRestoreOrder.foldl (fun service step => step.apply snapshot service) service =
      ⟨snapshot.configuration, snapshot.extended, false, service.state⟩ := by
  simp only [serviceRestoreOrder, List.foldl_cons, List.foldl_nil, ServiceRestoreStep.apply]

def Stopped (t : Machine) : Prop := ∃ service, t.service = some service ∧ service.state = .stopped

theorem kept_perform (hacc : Accepted env orig) (h : Kept orig Supported gone s₀ s)
    (hstop : Stopped s) (steps : List ServiceRestoreStep) (failures : List String) :
    Keeps orig Supported gone s₀
      (performServiceConfigurationRestore (env.snapshotOf orig) steps failures)
      (fun _ t => Kept orig Supported gone s₀ t ∧ Stopped t) s := by
  induction steps generalizing s failures with
  | nil => exact kept_ensure h fun _ => ⟨h, hstop⟩
  | cons step steps ih =>
    have hgiveUp : ∀ u failures, Kept orig Supported gone s₀ u → Stopped u →
        Keeps orig Supported gone s₀ (if step = .core then reportRestoreFailures failures
          else performServiceConfigurationRestore (env.snapshotOf orig) steps failures)
          (fun _ t => Kept orig Supported gone s₀ t ∧ Stopped t) u := by
      intro u failures hu hus
      split
      · exact kept_ensure hu fun _ => ⟨hu, hus⟩
      · exact ih hu hus failures
    apply wp_bind
    apply wp_attempt
    apply wp_changeService _ _ h
    · rintro service changed hs ⟨⟩
      have hours := (h.ours service hs).restoreStep hacc step
      have hkept : Kept orig Supported gone s₀
          (s.setService (some (step.apply (env.snapshotOf orig) service))) :=
        h.setService (fun svc hsvc => Option.some.inj hsvc ▸ hours) (by simp)
      have hstopped : Stopped
          (s.setService (some (step.apply (env.snapshotOf orig) service))) := by
        obtain ⟨service', hs', hst⟩ := hstop
        rw [hs] at hs'
        cases hs'
        exact ⟨_, rfl, (step.apply_state _ _).trans hst⟩
      exact ⟨ih hkept hstopped failures, hgiveUp _ _ hkept hstopped, hkept⟩
    · intro e
      exact hgiveUp s _ h hstop

theorem kept_createServiceConfiguration (hacc : Accepted env orig)
    (h : Kept orig Supported gone s₀ s) :
    Keeps orig Supported gone s₀ (env.createServiceConfiguration orig.configuration)
      (fun _ => Kept orig Supported gone s₀) s := by
  have hafter : ∀ u, Kept orig Supported gone s₀ u →
      Keeps orig Supported gone s₀ (do
        let created ← env.query
        ensure created.presence.isOwned
          "Windows created a MacType service with unexpected configuration")
        (fun _ => Kept orig Supported gone s₀) u := fun u hu =>
    wp_bind (kept_query hu (kept_ensure hu fun _ => hu) (kept_ensure hu fun _ => hu))
  apply wp_bind
  apply wp_act _ (fun _ _ => h) h h
  intro t ht
  cases hs : s.service with
  | some service =>
    rw [hs] at ht
    cases ht
    exact ⟨hafter s h, h, h⟩
  | none =>
    rw [hs] at ht
    cases ht
    have hkept : Kept orig Supported gone s₀
        (s.setService (some ⟨orig.configuration, env.freshExtended, false, .stopped⟩)) := by
      apply h.setService _ (by simp)
      rintro service ⟨⟩
      exact ⟨rfl, Or.inl hacc.startType, rfl, rfl, hacc.fresh⟩
    exact ⟨hafter _ hkept, hkept, hkept⟩

theorem kept_prepareRestoreTarget (hacc : Accepted env orig) (h : Kept orig Supported gone s₀ s) :
    Keeps orig Supported gone s₀ (env.prepareRestoreTarget (env.snapshotOf orig))
      (fun _ => Kept orig Supported gone s₀) s := by
  have howned : ∀ state : ServiceRuntimeState, Keeps orig Supported gone s₀ (do
      requireStable state
      let _ ← inspectService "legacy service restore preflight failed" supportedExtended
      Installation.stop.whenever (state ≠ .stopped)) (fun _ => Kept orig Supported gone s₀) s := by
    intro state
    apply wp_bind
    apply kept_requireStable h
    intro _
    apply wp_bind
    apply kept_inspectService h
    intro service _ _ _
    apply wp_whenever
    · intro _
      exact kept_stop h fun _ _ t ht _ => ht
    · exact fun _ => h
  apply wp_bind
  apply kept_query h
  · rcases env.statusOf s.service with ⟨_ | _ | _ | _ | _ | _, state⟩
    · exact kept_createServiceConfiguration hacc h
    · exact howned state
    · exact howned state
    · exact wp_throw h
    · exact wp_throw h
    · exact wp_throw h
  · exact wp_throw h

/-- A restore that completes leaves exactly the recorded configuration, stopped. -/
theorem kept_restoreServiceConfiguration (hacc : Accepted env orig)
    (h : Kept orig Supported gone s₀ s) {Q : Unit → Machine → Prop}
    (hok : ∀ t, Kept orig Supported gone s₀ t →
      t.service = some { orig with state := .stopped } → Q () t) :
    Keeps orig Supported gone s₀ (env.restoreServiceConfiguration (env.snapshotOf orig)) Q s := by
  apply wp_bind
  apply wp_ofExcept _ (fun _ _ => h)
  intro _ _
  apply wp_bind
  apply wp_mono (kept_prepareRestoreTarget hacc h) _ (fun _ _ h => h) (fun _ h => h)
  intro _ u hu
  apply wp_bind
  apply kept_query hu
  swap
  · exact wp_bind (kept_ensure hu fun hc => absurd hc (by decide))
  apply wp_bind
  apply kept_ensure hu
  intro hverified
  have hstopped : Stopped u := by
    cases hs : u.service with
    | none =>
      rw [hs] at hverified
      cases hverified
    | some service =>
      rw [hs, Bool.and_eq_true, decide_eq_true_eq] at hverified
      exact ⟨service, hs, hverified.2⟩
  apply wp_bind
  apply kept_inspectService hu
  intro _ _ _ _
  apply wp_bind
  apply wp_mono (kept_perform hacc hu hstopped serviceRestoreOrder []) _ (fun _ _ h => h)
    (fun _ h => h)
  rintro _ t ⟨ht, service, hs, hstate⟩
  apply kept_inspectService ht
  rintro service' _ hs' hread
  rw [hs] at hs'
  cases hs'
  apply hok t ht
  obtain ⟨ext, hext, hread⟩ := bind_eq_ok.1 hread
  obtain ⟨_, hconfig, hread⟩ := bind_eq_ok.1 hread
  have hsupported := (supportedExtended_eq_ok hext).1
  have hconfig := ok_of_require hconfig
  have hextended := ok_of_require hread
  rw [beq_iff_eq] at hconfig hextended
  rw [hs]
  obtain ⟨configuration, extended', hasTriggers, state⟩ := service
  have htriggers := (ht.ours _ hs).noTriggers
  dsimp only at hconfig hstate htriggers
  rw [hsupported] at hextended
  dsimp only at hextended
  rw [hconfig, hextended, hstate, htriggers, ← hacc.noTriggers]
  rfl

end MacTypeControl.Legacy
