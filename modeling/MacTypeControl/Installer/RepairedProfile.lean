import MacTypeControl.Installer.RepairedBridge

/-!
# When a recovered repair has the profile beside it

The whole repair of the current generation: the exchange of the directories, the activation that
follows and the retention of older generations. The recovery after it puts the profile back if
the activation has left a receipt, and otherwise leaves the directory that it keeps as it is.
-/

namespace MacTypeControl.Installer

open Crash Crash.Prog Profile Storage

/-! ## Retention -/

section

variable {χ : Type} {env : DeployEnvironment χ} {version : RuntimeVersion} {m : Machine χ}

theorem maintains_finalizeCommitted (previous : Option RuntimeVersion)
    (activated : RuntimeVersion) :
    Maintains (Activating version m) (finalizeCommittedActivation previous activated)
      fun _ => True := by
  unfold finalizeCommittedActivation
  refine maintains_bind (maintains_inspect fun _ _ _ _ => trivial) fun _ _ => ?_
  refine maintains_bind maintains_activating_remove.attempted fun removed _ => ?_
  cases removed with
  | ok _ => exact maintains_ret trivial
  | error _ =>
    exact maintains_bind (maintains_mapError (maintains_inspect fun _ _ _ _ => trivial))
      fun _ _ => maintains_ret trivial

theorem maintains_removeGenerationEntries (name : String) (entries : List RuntimeEntry) :
    Maintains (Activating version m) (removeGenerationEntries name entries) fun _ => True := by
  induction entries with
  | nil => exact maintains_ret trivial
  | cons entry rest ih =>
    exact maintains_bind (maintains_modify fun _ h => h.updateDirectory _ _) fun _ _ => ih

theorem maintains_cleanupStale (retained names : List String) :
    Maintains (Activating version m) (cleanupStaleGenerations env retained names)
      fun _ => True := by
  have hremoved (stale : RuntimeVersion) : Maintains (Activating version m)
      (removeManifestVerifiedGeneration env stale) fun _ => True := by
    refine maintains_bind (maintains_inspect fun _ _ _ _ => trivial) fun entries _ => ?_
    refine maintains_bind (maintains_removeGenerationEntries _ entries) fun _ _ => ?_
    refine maintains_bind (maintains_modify fun _ h => ?_) fun _ _ => maintains_modify fun _ h => ?_
    · exact ⟨h.pointer, h.activeProfile, h.profileGenerations, h.journal⟩
    · exact ⟨h.pointer, h.activeProfile, h.profileGenerations, h.journal⟩
  induction names with
  | nil => exact maintains_ret trivial
  | cons name rest ih =>
    have hpreserved : Maintains (Activating version m) (ret () : Prog (Machine χ) SetupError Unit)
        fun _ => True := maintains_ret trivial
    unfold cleanupStaleGenerations
    dsimp only
    split
    · exact maintains_bind hpreserved fun _ _ => ih
    split
    · exact maintains_bind (maintains_handle (hremoved _) fun _ => hpreserved) fun _ _ => ih
    · exact maintains_bind hpreserved fun _ _ => ih

theorem maintains_retain (oldPointer : Option RuntimeVersion) (currentVersion : RuntimeVersion) :
    Maintains (Activating version m) (retain env oldPointer currentVersion) fun _ => True := by
  have hprevious : Maintains (Activating version m)
      (previousGeneration oldPointer currentVersion) fun _ => True := by
    unfold previousGeneration rememberedGeneration
    split
    · refine maintains_bind (maintains_modify fun _ h => ?_) fun _ _ => maintains_ret trivial
      exact ⟨h.pointer, h.activeProfile, h.profileGenerations, h.journal⟩
    · exact maintains_inspect fun _ _ _ _ => trivial
  unfold retain
  refine maintains_bind hprevious fun previous _ => ?_
  refine maintains_bind (maintains_inspect fun _ _ _ _ => trivial) fun pinned _ => ?_
  refine maintains_bind (maintains_inspect fun _ _ _ _ => trivial) fun listed _ => ?_
  exact maintains_cleanupStale _ listed

theorem maintains_finalize (previous : Option RuntimeVersion) (activated : RuntimeVersion) :
    Maintains (Activating version m) (finalize env previous activated) fun _ => True := by
  refine maintains_bind (maintains_finalizeCommitted previous activated) fun removed _ => ?_
  exact maintains_whenever fun _ => maintains_handle (maintains_retain previous activated)
    fun _ => maintains_ret trivial

end

/-! ## The repair of an installation -/

section

variable {χ : Type} {env : RepairEnvironment} {version : RuntimeVersion} {m : Machine χ}
  {t : Installation χ}

/-- The states that a repair of the current generation and its recovery can be stopped in: the
directories are exchanged, or the generation is activated. -/
structure Underway (env : RepairEnvironment) (version : RuntimeVersion) (m : Machine χ)
    (t : Installation χ) : Prop where
  activating : Activating version m t.machine
  exchanging : t.repairJournal = none ∨ t.machine.activationJournal = none ∧
    ∃ payload old, payload.version = version ∧ Held env payload old (repairPart.get t)

/-- The profile is beside the runtime that the recovery keeps, or the activation has left a
receipt. -/
def BridgeKept (version : RuntimeVersion) (bytes : Bytes) (t : Installation χ) : Prop :=
  t.machine.activationJournal.isSome = true ∨
    (keptDirectory version (repairPart.get t)).bind (·.profile) = some bytes

/-- The current generation is installed, and nothing is pending. -/
structure Installed (version : RuntimeVersion) (old : RuntimeDirectory) (t : Installation χ) :
    Prop where
  pointer : readRuntimePointer t.machine = .ok (some version)
  directory : t.machine.runtimeVersions version.text = some old
  activationJournal : t.machine.activationJournal = none
  repairJournal : t.repairJournal = none

variable {old : RuntimeDirectory}

theorem Installed.underway (h : Installed version old t) : Underway env version t.machine t where
  activating := ⟨h.pointer, rfl, rfl, fun file hfile => by
    rw [h.activationJournal] at hfile
    cases hfile⟩
  exchanging := Or.inl h.repairJournal

theorem Underway.exchange (h : Underway env version m t) (hnone : t.machine.activationJournal = none)
    {u : RepairStorage} (hu : Exchanging env version u) :
    Underway env version m (repairPart.put u t) where
  activating := ⟨h.activating.pointer, h.activating.activeProfile,
    h.activating.profileGenerations, h.activating.journal⟩
  exchanging := by
    rcases hu with hjournal | hheld
    · exact Or.inl hjournal
    · exact Or.inr ⟨hnone, hheld⟩

theorem Underway.activate (hnone : t.repairJournal = none) {s : Machine χ}
    (hs : Activating version m s) : Underway env version m (machinePart.put s t) :=
  ⟨hs, Or.inl hnone⟩

/-- A program over the machine storage that keeps to the receipt, while no repair is pending. -/
theorem wp_zoom_machine {α : Type} {prog : Prog (Machine χ) SetupError α} {P : α → Prop}
    (hprog : Maintains (Activating version m) prog P) (h : Underway env version m t)
    (hnone : t.repairJournal = none) :
    wp (zoom machinePart prog)
      (fun a u => P a ∧ Underway env version m u ∧ u.repairJournal = none)
      (fun _ => Underway env version m) (Underway env version m) t := by
  refine wp_zoom (wp_mono (hprog _ h.activating) (fun _ s hs => ?_) (fun _ s hs => ?_)
    fun s hs => ?_)
  · exact ⟨hs.1, .activate hnone hs.2, hnone⟩
  · exact .activate hnone hs
  · exact .activate hnone hs

/-! ## Recovery -/

/-- The recovery of the repair, and then that of the activation. -/
def recoverBoth (env : RepairEnvironment)
    (recovery : Prog (Machine χ) SetupError (Option RuntimeVersion)) :
    Setup χ (Option RuntimeVersion) := do
  zoom repairPart (recoverInterruptedRepair env)
  zoom machinePart recovery

variable {recovery : Prog (Machine χ) SetupError (Option RuntimeVersion)} {bytes : Bytes}

/-- The recovery of the repair leaves the kept directory in its place. -/
theorem wp_zoom_recoverRepair (h : Underway env version m t) :
    wp (zoom repairPart (recoverInterruptedRepair env))
      (fun _ u => Underway env version m u ∧ u.repairJournal = none ∧
        u.machine.activationJournal = t.machine.activationJournal ∧
        u.machine.runtimeVersions version.text = keptDirectory version (repairPart.get t))
      (fun _ => Underway env version m) (Underway env version m) t := by
  by_cases hnone : t.repairJournal = none
  · refine wp_zoom (wp_mono (wp_recoverRepair_nothing hnone) ?_ (fun _ _ hu => hu.elim)
      fun _ hu => hu.elim)
    rintro _ u rfl
    rw [repairPart.put_get]
    exact ⟨h, hnone, rfl, (keptDirectory_unjournaled (s := repairPart.get t) _ hnone).symm⟩
  · obtain ⟨hactivation, payload, old, rfl, hheld⟩ := h.exchanging.resolve_left hnone
    refine wp_zoom (wp_mono (wp_recoverRepair_keeps hheld) (fun _ u hu => ?_) (fun _ u hu => ?_)
      fun u hu => ?_)
    · exact ⟨h.exchange hactivation (Or.inl hu.2), hu.2, rfl, hu.1⟩
    · exact h.exchange hactivation (Or.inr ⟨payload, old, rfl, hu⟩)
    · exact h.exchange hactivation (Or.inr ⟨payload, old, rfl, hu⟩)

theorem wp_recoverBoth
    (hrecovery : ∀ s, Activating version m s →
      wp recovery (fun _ => ActivationRecovered version bytes m s)
        (fun _ => Activating version m) (Activating version m) s)
    (h : Underway env version m t) :
    wp (recoverBoth env recovery)
      (fun _ u => Underway env version m u ∧
        (u.machine.generatedProfile version.text = some bytes ↔ BridgeKept version bytes t))
      (fun _ => Underway env version m) (Underway env version m) t := by
  refine wp_bind (wp_mono (wp_zoom_recoverRepair h) (fun _ v hv => ?_) (fun _ _ hu => hu)
    fun _ hu => hu)
  obtain ⟨hv, hjournal, hactivation, hkept⟩ := hv
  refine wp_zoom (wp_mono (hrecovery _ hv.activating) (fun _ s hs => ?_) (fun _ s hs => ?_)
    fun s hs => ?_)
  · refine ⟨.activate hjournal hs.activating, ?_⟩
    unfold BridgeKept
    rw [← hactivation, ← hkept]
    cases hreceipt : v.machine.activationJournal with
    | some file =>
      refine iff_of_true (hs.materialized ?_) (Or.inl rfl)
      rw [show (machinePart.get v).activationJournal = some file from hreceipt]
      rfl
    | none =>
      -- Without a receipt nothing is materialized.
      have hsame : s = v.machine := hs.untouched hreceipt
      rw [show (machinePart.put s v).machine = v.machine from hsame]
      exact ⟨Or.inr, fun hright => hright.resolve_left Bool.false_ne_true⟩
  · exact .activate hjournal hs
  · exact .activate hjournal hs

end

/-! ## The repair -/

theorem eq_of_current {χ : Type} {m : Machine χ} {version : RuntimeVersion}
    {found : Option RuntimeVersion} (hpointer : readRuntimePointer m = .ok (some version))
    (hfound : current m = .ok found) : found = some version := by
  obtain ⟨file, hfile, hparse⟩ := readRuntimePointer_iff.1 hpointer
  unfold current at hfound
  rw [hfile] at hfound
  dsimp only at hfound
  rw [hparse] at hfound
  obtain ⟨_, _, hfound⟩ := bind_eq_ok.1 hfound
  exact (Except.ok.inj hfound).symm

section

variable {χ : Type} {env : DeployEnvironment χ} {version : RuntimeVersion}
  {old : RuntimeDirectory} {t : Installation χ} (h : Installed version old t)
include h

/-- Where nothing is pending the recovery only reads. -/
theorem maintains_recover_installed :
    Maintains (fun u => u = t) (recoverInterruptedActivation env.toRepairEnvironment)
      fun found => found = some version := by
  intro s hs
  subst s
  refine wp_bind (wp_zoom (wp_mono (wp_recoverRepair_nothing h.repairJournal) ?_
    (fun _ _ hu => hu.elim) fun _ hu => hu.elim))
  rintro _ u rfl
  rw [repairPart.put_get]
  refine wp_zoom (wp_bind (wp_observe ?_))
  rw [show (machinePart.get t).activationJournal = none from h.activationJournal]
  exact wp_inspect (fun _ hfound => ⟨eq_of_current h.pointer hfound, rfl⟩) (fun _ _ => rfl) rfl rfl

/-- What is asked of the payload once it is known which runtime is in use. -/
def validateFound (loaded : Except SetupError LoadedPayload) (found : Option RuntimeVersion) :
    Setup χ Unit :=
  match found with
  | none => throw (.runtime "no active protected runtime is installed")
  | some current => do
    let payload ← inspect .io fun _ => loaded
    ensure (current = payload.version)
      (.runtime "repair cannot replace an outdated runtime; use upgrade")

theorem maintains_validateRepairPayload (loaded : Except SetupError LoadedPayload)
    (allowGenericRecovery : Bool) :
    Maintains (fun u => u = t) (validateRepairPayload env loaded allowGenericRecovery)
      fun _ => ∀ payload, loaded = .ok payload → payload.version = version := by
  have hcurrent : Maintains (fun u => u = t)
      (zoom machinePart (inspect .io current) : Setup χ (Option RuntimeVersion))
      fun found => found = some version := by
    intro s hs
    subst s
    exact wp_zoom (wp_inspect (fun _ hfound => ⟨eq_of_current h.pointer hfound, rfl⟩)
      (fun _ _ => rfl) rfl rfl)
  have hvalidated (found : Option RuntimeVersion) (hfound : found = some version) :
      Maintains (fun u => u = t) (validateFound loaded found)
        fun _ => ∀ payload, loaded = .ok payload → payload.version = version := by
    subst found
    refine maintains_bind (maintains_inspect (P := fun payload => loaded = .ok payload)
      fun _ _ _ hloaded => hloaded) fun payload hloaded => ?_
    intro s hs
    refine wp_ensure (fun hsame => ⟨fun other hother => ?_, hs⟩) fun _ => hs
    rw [hloaded] at hother
    cases hother
    exact (of_decide_eq_true hsame).symm
  unfold validateRepairPayload
  dsimp only
  split
  · exact maintains_bind (maintains_recover_installed h) hvalidated
  · refine maintains_bind (maintains_inspect fun _ _ _ _ => trivial) fun _ _ => ?_
    exact maintains_bind hcurrent hvalidated

/-- The part of the repair that changes something. -/
theorem wp_stage_installed {payload : LoadedPayload} (hversion : payload.version = version) :
    wp (stage env payload true)
      (fun _ u => Underway env.toRepairEnvironment version t.machine u ∧ u.repairJournal = none)
      (fun _ => Underway env.toRepairEnvironment version t.machine)
      (Underway env.toRepairEnvironment version t.machine) t := by
  subst hversion
  have hstart : Underway env.toRepairEnvironment payload.version t.machine t := h.underway
  have hwritten : Maintains (Activating payload.version t.machine)
      (writeRuntimeReceipt env payload) fun _ => True := maintains_modify fun _ hs =>
    ⟨hs.pointer, hs.activeProfile, hs.profileGenerations, hs.journal⟩
  have hexchanged := fun u => @Underway.exchange _ env.toRepairEnvironment _ _ t hstart
    h.activationJournal u
  refine wp_bind (wp_mono (wp_mapError (wp_zoom (wp_mono
    (wp_stagePayload ⟨h.directory, h.repairJournal⟩) ?_ (fun _ => hexchanged) hexchanged)))
    (fun _ _ hu => hu) (fun _ _ hu => hu) fun _ hu => hu)
  intro _ s hs
  refine wp_mapError (wp_mono (wp_zoom_machine hwritten (hexchanged s (Or.inl hs)) hs)
    (fun _ _ hu => hu.2) (fun _ _ hu => hu) fun _ hu => hu)

theorem wp_deploy_installed {loaded : Except SetupError LoadedPayload}
    (hversion : ∀ payload, loaded = .ok payload → payload.version = version)
    (prepare healthCheck : Prog χ SetupError Unit) (deferExternalRollback : Bool) :
    wp (deploy env loaded prepare healthCheck true deferExternalRollback)
      (fun _ => Underway env.toRepairEnvironment version t.machine)
      (fun _ => Underway env.toRepairEnvironment version t.machine)
      (Underway env.toRepairEnvironment version t.machine) t := by
  have hstart : Underway env.toRepairEnvironment version t.machine t := h.underway
  have hrest : wp (do
      let payload ← inspect .io fun _ => loaded
      stage env payload true
      let previous ← zoom machinePart (activate env.toStorageEnvironment payload.version prepare
        healthCheck deferExternalRollback)
      zoom machinePart (finalize env previous payload.version)
      ret payload.version : Setup χ RuntimeVersion)
      (fun _ => Underway env.toRepairEnvironment version t.machine)
      (fun _ => Underway env.toRepairEnvironment version t.machine)
      (Underway env.toRepairEnvironment version t.machine) t := by
    refine wp_bind (wp_inspect (fun payload hloaded => ?_) (fun _ _ => hstart) hstart hstart)
    obtain rfl := hversion payload hloaded
    refine wp_bind (wp_mono (wp_stage_installed h rfl) (fun _ u hu => ?_) (fun _ _ hu => hu)
      fun _ hu => hu)
    refine wp_bind (wp_mono (wp_zoom_machine (maintains_activate prepare healthCheck
      deferExternalRollback) hu.1 hu.2) (fun previous v hv => ?_) (fun _ _ hv => hv)
      fun _ hv => hv)
    refine wp_bind (wp_mono (wp_zoom_machine (@maintains_finalize _ env _ _ previous _) hv.2.1
      hv.2.2) (fun _ _ hw => wp_ret hw.2.1) (fun _ _ hw => hw) fun _ hw => hw)
  have hunchanged {u : Installation χ} (hu : u = t) :
      Underway env.toRepairEnvironment version t.machine u := by
    rw [hu]
    exact hstart
  unfold deploy
  dsimp only
  split
  · exact wp_bind (wp_inspect (fun _ _ => hrest) (fun _ _ => hstart) hstart hstart)
  · refine wp_bind (wp_mono (maintains_recover_installed h t rfl) (fun _ u hu => ?_)
      (fun _ _ => hunchanged) fun _ => hunchanged)
    rw [hu.2]
    exact wp_bind (wp_ret hrest)

/-- However the repair ends, it leaves the exchange or the activation under way. -/
theorem wp_repairCurrent (loaded : Except SetupError LoadedPayload)
    (prepare healthCheck : Prog χ SetupError Unit) (deferExternalRollback : Bool) :
    wp (repairCurrent env loaded prepare healthCheck deferExternalRollback)
      (fun _ => Underway env.toRepairEnvironment version t.machine)
      (fun _ => Underway env.toRepairEnvironment version t.machine)
      (Underway env.toRepairEnvironment version t.machine) t := by
  have hunchanged {u : Installation χ} (hu : u = t) :
      Underway env.toRepairEnvironment version t.machine u := by
    rw [hu]
    exact h.underway
  refine wp_bind (wp_mono (maintains_validateRepairPayload h loaded _ t rfl) (fun _ u hu => ?_)
    (fun _ _ => hunchanged) fun _ => hunchanged)
  rw [hu.2]
  exact wp_deploy_installed h hu.1 prepare healthCheck deferExternalRollback

end

/-! ## The profile after the recovery -/

/-- The two recoveries: the one of the runtime alone, and the one that is bound to the service. -/
inductive RecoveryKind where
  | generic
  | bound

def recoverInstallation {χ : Type} (env : RepairEnvironment) (calls : ServiceBindingCalls χ) :
    RecoveryKind → Setup (Attended χ) (Option RuntimeVersion)
  | .generic => recoverInterruptedActivation env
  | .bound => recoverInterruptedActivationWithServiceBinding env calls

section

variable {χ : Type} {env : RepairEnvironment} {calls : ServiceBindingCalls χ}
  {version : RuntimeVersion} {m : Machine (Attended χ)} {t : Installation (Attended χ)}
  {generation : GenerationId} {bytes : Bytes}

theorem wp_recoverInstallation (hprofile : ActiveProfile env.toStorageEnvironment m generation bytes)
    (kind : RecoveryKind) (h : Underway env version m t) :
    wp (recoverInstallation env calls kind)
      (fun _ u => Underway env version m u ∧
        (u.machine.generatedProfile version.text = some bytes ↔ BridgeKept version bytes t))
      (fun _ => Underway env version m) (Underway env version m) t := by
  cases kind with
  | generic => exact wp_recoverBoth (fun _ hs => wp_recover_current hprofile hs) h
  | bound => exact wp_recoverBoth (fun _ hs => wp_recoverBound_current hprofile hs) h

end

def deployEnvironment : DeployEnvironment (Attended Unit) where
  toRepairEnvironment := repairEnvironment
  processId := "1"
  listedGenerations _ := .ok ["1.0.0"]
  pinnedVersions _ := .ok []

/-- The lines `[a]` and `b=1`. -/
def bridgedProfile : Bytes := [0x5B, 0x61, 0x5D, 0x0A, 0x62, 0x3D, 0x31]

/-- The files are damaged, and the active profile lies beside them. -/
def bridgedRuntime : RuntimeDirectory := ⟨fun _ => some [0x4E], some bridgedProfile, [], []⟩

def bridgedInstallation : Installation (Attended Unit) where
  machine := {
    runtimePointer := some (.written versionOne)
    previousRuntime := none
    runtimeVersions := fun name => if name = "1.0.0" then some bridgedRuntime else none
    runtimeReceipts := fun _ => none
    activationJournal := none
    activeProfile := some (.written zeroDigest)
    previousProfile := none
    profileGenerations := fun generation =>
      if generation = zeroDigest then some bridgedProfile else none
    profileJournal := none
    surroundings := ⟨(), []⟩ }
  repairJournal := none
  deferredDeletions := []

theorem bridgedInstallation_installed : Installed versionOne bridgedRuntime bridgedInstallation :=
  ⟨rfl, rfl, rfl, rfl⟩

theorem bridgedInstallation_profile : ActiveProfile deployEnvironment.toStorageEnvironment
    bridgedInstallation.machine zeroDigest bridgedProfile :=
  ⟨rfl, rfl⟩

def crashAfter (steps : ℕ) : List Fault := List.replicate steps .none ++ [.crash 0]

/-- The repair, stopped after a number of steps. -/
def stoppedBridgedRepair (steps : ℕ) : Installation (Attended Unit) :=
  ((repairCurrent deployEnvironment (.ok repairPayload) (ret ()) (ret ()) true).result
    (crashAfter steps) bridgedInstallation).2

def recoverBridged : Setup (Attended Unit) (Option RuntimeVersion) :=
  recoverInstallation deployEnvironment.toRepairEnvironment candidateCalls .bound

end MacTypeControl.Installer
