import MacTypeControl.Installer.Deployment

/-!
# The profile beside a repaired runtime

A repair replaces the directory that also holds the generated profile. The profile is only put
back by the activation that follows, or by the recovery of that activation.
-/

namespace MacTypeControl.Installer

open Crash Crash.Prog Profile Storage

/-! ## The activation of the current generation -/

theorem readRuntimePointer_iff {χ : Type} {m : Machine χ} {version : RuntimeVersion} :
    readRuntimePointer m = .ok (some version) ↔
      ∃ file, m.runtimePointer = some file ∧ file.parse = some version := by
  unfold readRuntimePointer
  cases m.runtimePointer with
  | none => simp
  | some file =>
    dsimp only
    cases hparse : file.parse with
    | none => simp [hparse]
    | some found => simp [hparse]

section

variable {χ : Type} {env : StorageEnvironment} {version : RuntimeVersion} {m s : Machine χ}

/-- The current generation is being activated once more, or not any longer. -/
structure Activating (version : RuntimeVersion) (m s : Machine χ) : Prop where
  pointer : readRuntimePointer s = .ok (some version)
  activeProfile : s.activeProfile = m.activeProfile
  profileGenerations : s.profileGenerations = m.profileGenerations
  journal : ∀ file, s.activationJournal = some file →
    ∃ phase, file = activationReceipt phase (some version) version

theorem Activating.updateDirectory (h : Activating version m s) (name : String)
    (f : RuntimeDirectory → RuntimeDirectory) : Activating version m (s.updateDirectory name f) :=
  ⟨h.pointer, h.activeProfile, h.profileGenerations, h.journal⟩

theorem Activating.surround (h : Activating version m s) (surroundings : χ) :
    Activating version m { s with surroundings } :=
  ⟨h.pointer, h.activeProfile, h.profileGenerations, h.journal⟩

theorem Activating.write (h : Activating version m s) (phase : RuntimeActivationPhase) :
    Activating version m
      (setActivationJournal (some (activationReceipt phase (some version) version)) s) where
  pointer := h.pointer
  activeProfile := h.activeProfile
  profileGenerations := h.profileGenerations
  journal _ hfile := ⟨phase, (Option.some.inj hfile).symm⟩

theorem Activating.remove (h : Activating version m s) :
    Activating version m { s with activationJournal := none } where
  pointer := h.pointer
  activeProfile := h.activeProfile
  profileGenerations := h.profileGenerations
  journal file hfile := by cases hfile

theorem maintains_activating_materialize :
    Maintains (Activating version m) (materializeActive env) fun _ => True :=
  Storage.maintains_materializeActive fun _ name f h => h.updateDirectory name f

theorem maintains_activating_remove :
    Maintains (Activating version m) removeActivationJournal fun _ => True :=
  maintains_modify fun _ h => h.remove

theorem maintains_activating_zoom (calls : Prog χ SetupError Unit) :
    Maintains (Activating version m) (zoom surroundingsPart calls) fun _ => True := by
  intro s hs
  exact wp_zoom (wp_always (fun _ u => ⟨trivial, hs.surround u⟩) (fun _ u => hs.surround u)
    fun u => hs.surround u)

theorem maintains_persistPhase (phase : RuntimeActivationPhase) :
    Maintains (Activating version m) (persistActivationPhase (some version) version phase)
      fun _ => True :=
  maintains_bind (maintains_modify fun _ h => h.write phase) fun _ _ =>
    maintains_inspect fun _ _ _ _ => trivial

/-- The pointer is not moved where it was never moved away. -/
theorem maintains_restoreSame :
    Maintains (Activating version m) (restoreRuntimePointer (some version) (some version))
      fun _ => True := by
  intro s hs
  obtain ⟨file, hfile, _⟩ := readRuntimePointer_iff.1 hs.pointer
  refine wp_bind (wp_inspect (fun actual hactual => ?_) (fun _ _ => hs) hs hs)
  cases hactual
  rw [hfile]
  dsimp only [Option.map_some]
  split
  · exact wp_ret ⟨trivial, hs⟩
  split
  · next hother hsame => exact absurd (Option.some.inj hsame).symm hother
  · exact wp_throw hs

theorem maintains_commit :
    Maintains (Activating version m) (commitActivationJournal (some version) version)
      fun _ => True := by
  unfold commitActivationJournal
  refine maintains_bind (maintains_inspect fun _ _ _ _ => trivial) fun _ _ => ?_
  refine maintains_bind (maintains_inspect fun _ _ _ _ => trivial) fun pointer _ => ?_
  cases pointer with
  | none => exact maintains_throw
  | some pointer => exact maintains_bind maintains_ensure fun _ _ => maintains_persistPhase _

theorem maintains_requireRollback :
    Maintains (Activating version m) (requireActivationRollback (some version) version)
      fun _ => True := by
  unfold requireActivationRollback
  refine maintains_bind (maintains_inspect fun _ _ _ _ => trivial) fun actual _ => ?_
  cases actual with
  | none => exact maintains_throw
  | some actual =>
    dsimp only
    split
    · exact maintains_ret trivial
    · exact maintains_bind maintains_ensure fun _ _ => maintains_persistPhase _

theorem maintains_failActivation (deferExternalRollback : Bool) (error : SetupError) :
    Maintains (Activating version m)
      (failActivation env (some version) version deferExternalRollback error)
      fun _ => True := by
  have hrollBack : Maintains (Activating version m)
      (rollBackActivation env (some version) version error) fun _ => True := by
    unfold rollBackActivation
    refine maintains_bind maintains_restoreSame.attempted fun restored _ => ?_
    cases restored with
    | error _ => exact maintains_throw
    | ok _ =>
      refine maintains_bind maintains_activating_materialize.attempted fun materialized _ => ?_
      cases materialized with
      | error _ => exact maintains_throw
      | ok _ =>
        refine maintains_bind maintains_activating_remove.attempted fun removed _ => ?_
        cases removed with
        | error _ => exact maintains_throw
        | ok _ => exact maintains_throw
  unfold failActivation
  refine maintains_bind maintains_requireRollback.attempted fun required _ => ?_
  cases required with
  | error _ => exact maintains_throw
  | ok _ =>
    dsimp only
    split
    · exact maintains_throw
    · exact hrollBack

/-- An activation of the current generation keeps to its receipt. -/
theorem maintains_activate (prepare healthCheck : Prog χ SetupError Unit)
    (deferExternalRollback : Bool) :
    Maintains (Activating version m)
      (activate env version prepare healthCheck deferExternalRollback)
      fun previous => previous = some version := by
  have hread : ∀ (s : Machine χ) previous, Activating version m s →
      readRuntimePointer s = .ok previous → previous = some version := fun s previous hs h =>
    Except.ok.inj (h.symm.trans hs.pointer)
  unfold activate
  refine maintains_bind (maintains_inspect hread) fun previous hprevious => ?_
  subst hprevious
  refine maintains_bind (maintains_mapError (maintains_modify fun _ h => h.write _)) fun _ _ => ?_
  refine maintains_bind (maintains_mapError (maintains_modify fun s h => ?_)) fun _ _ => ?_
  · exact ⟨rfl, h.activeProfile, h.profileGenerations, h.journal⟩
  refine maintains_bind (maintains_handle ?_ fun error =>
    maintains_failActivation deferExternalRollback error) fun _ _ => maintains_ret rfl
  refine maintains_bind (maintains_mapError maintains_activating_materialize) fun _ _ => ?_
  refine maintains_bind (maintains_mapError (maintains_activating_zoom prepare)) fun _ _ => ?_
  refine maintains_bind (maintains_mapError maintains_commit) fun _ _ => ?_
  exact maintains_mapError (maintains_activating_zoom healthCheck)

/-! ## Recovery of the activation -/

/-- The active profile, as it is named and as it is stored. -/
structure ActiveProfile (env : StorageEnvironment) (m : Machine χ) (generation : GenerationId)
    (bytes : Bytes) : Prop where
  named : readOptionalPointer m.activeProfile = .ok (some generation)
  stored : verifiedGenerationBytes env m generation = .ok bytes

variable {generation : GenerationId} {bytes : Bytes}

theorem wp_materializeActive_current (hprofile : ActiveProfile env m generation bytes)
    (h : Activating version m s) :
    wp (materializeActive env)
      (fun _ u => u.generatedProfile version.text = some bytes ∧ Activating version m u)
      (fun _ => Activating version m) (Activating version m) s := by
  have hroot : ∀ found, activeRuntimeRoot s = .ok found → found = some version.text := by
    intro found hfound
    obtain ⟨file, hfile, hparse⟩ := readRuntimePointer_iff.1 h.pointer
    unfold activeRuntimeRoot at hfound
    rw [hfile] at hfound
    dsimp only at hfound
    rw [hparse] at hfound
    obtain ⟨_, _, hfound⟩ := bind_eq_ok.1 hfound
    exact (Except.ok.inj hfound).symm
  have hnamed : readOptionalPointer s.activeProfile = .ok (some generation) := by
    rw [h.activeProfile]
    exact hprofile.named
  have hstored : verifiedGenerationBytes env s generation = .ok bytes := by
    have hsame := hprofile.stored
    unfold verifiedGenerationBytes at hsame ⊢
    rw [h.profileGenerations]
    exact hsame
  exact wp_mono (wp_and (wp_materializeActive_done hroot hstored hnamed)
    (maintains_activating_materialize s h)) (fun _ _ hu => ⟨hu.1, hu.2.2⟩)
    (fun _ _ hu => hu.2) fun _ hu => hu.2

theorem wp_verifyAndMaterialize_current (hprofile : ActiveProfile env m generation bytes)
    (h : Activating version m s) (role : String) :
    wp (verifyAndMaterializeCommittedRuntime env role)
      (fun _ u => u.generatedProfile version.text = some bytes ∧ Activating version m u)
      (fun _ => Activating version m) (Activating version m) s := by
  unfold verifyAndMaterializeCommittedRuntime
  refine wp_bind (wp_inspect (fun found _ => ?_) (fun _ _ => h) h h)
  cases found with
  | none => exact wp_throw h
  | some found =>
    refine wp_bind (wp_mapError (wp_inspect (fun _ _ => ?_) (fun _ _ => h) h h))
    exact wp_bind (wp_mono (wp_materializeActive_current hprofile h) (fun _ _ hu => wp_ret hu)
      (fun _ _ hu => hu) fun _ hu => hu)

theorem wp_finishCommitted_current (hprofile : ActiveProfile env m generation bytes)
    (h : Activating version m s) (phase : RuntimeActivationPhase) :
    wp (finishCommittedActivationRecovery env (.current ⟨phase, some version, version⟩))
      (fun _ u => u.generatedProfile version.text = some bytes ∧ Activating version m u)
      (fun _ => Activating version m) (Activating version m) s := by
  unfold finishCommittedActivationRecovery
  refine wp_bind (wp_inspect (fun actual _ => ?_) (fun _ _ => h) h h)
  split
  · exact wp_verifyAndMaterialize_current hprofile h _
  split
  · exact wp_whenever (fun _ => wp_verifyAndMaterialize_current hprofile h _)
      fun habsent => absurd rfl habsent
  · exact wp_throw h

theorem wp_rollbackActivation_current (hprofile : ActiveProfile env m generation bytes)
    (h : Activating version m s) :
    wp (rollbackActivationPointerAndProfile env (some version) (some version))
      (fun _ u => u.generatedProfile version.text = some bytes ∧ Activating version m u)
      (fun _ => Activating version m) (Activating version m) s := by
  refine maintains_restoreSame.wp_bind h fun _ u _ hu => ?_
  refine wp_whenever (fun _ => ?_) fun habsent => absurd rfl habsent
  exact wp_bind (wp_mono (wp_materializeActive_current hprofile hu) (fun _ _ hv => wp_ret hv)
    (fun _ _ hv => hv) fun _ hv => hv)

/-- What a recovery of the activation leaves where it succeeds: the profile put back if there was
a receipt, and everything as it was if there was none. -/
structure ActivationRecovered (version : RuntimeVersion) (bytes : Bytes) (m s u : Machine χ) :
    Prop where
  activating : Activating version m u
  materialized : s.activationJournal.isSome = true → u.generatedProfile version.text = some bytes
  untouched : s.activationJournal = none → u = s

/-- After the profile the receipt is removed. -/
theorem wp_finishRecovery {file : StoredFile ParsedRuntimeActivationReceipt} {u : Machine χ}
    (hfile : s.activationJournal = some file) (hu : Activating version m u)
    (hprofile : u.generatedProfile version.text = some bytes) :
    wp (do
        let recovered ← inspect .io current
        removeActivationJournal
        ret recovered) (fun _ => ActivationRecovered version bytes m s)
      (fun _ => Activating version m) (Activating version m) u := by
  refine wp_bind (wp_inspect (fun recovered _ => ?_) (fun _ _ => hu) hu hu)
  refine wp_bind (wp_modify (wp_ret ⟨hu.remove, fun _ => hprofile, fun hnone => ?_⟩) hu hu)
  rw [hfile] at hnone
  cases hnone

theorem wp_recover_current (hprofile : ActiveProfile env m generation bytes)
    (h : Activating version m s) :
    wp (recover env) (fun _ => ActivationRecovered version bytes m s)
      (fun _ => Activating version m) (Activating version m) s := by
  unfold recover
  refine wp_bind (wp_observe ?_)
  cases hfile : s.activationJournal with
  | none =>
    refine wp_inspect (fun _ _ => ⟨h, fun hsome => ?_, fun _ => rfl⟩) (fun _ _ => h) h h
    rw [hfile] at hsome
    cases hsome
  | some file =>
    obtain ⟨phase, rfl⟩ := h.journal file hfile
    refine wp_bind (wp_inspect (fun journal hread => ?_) (fun _ _ => h) h h)
    cases hread
    have hrecovered : wp (recoverActivationJournal env (.current ⟨phase, some version, version⟩))
        (fun _ u => u.generatedProfile version.text = some bytes ∧ Activating version m u)
        (fun _ => Activating version m) (Activating version m) s := by
      unfold recoverActivationJournal
      split
      · exact wp_finishCommitted_current hprofile h phase
      · exact wp_rollbackActivation_current hprofile h
    refine wp_bind (wp_mono hrecovered ?_ (fun _ _ hu => hu) fun _ hu => hu)
    exact fun _ u hu => wp_finishRecovery hfile hu.2 hu.1

end

section

variable {χ : Type} {env : StorageEnvironment} {calls : ServiceBindingCalls χ}
  {version : RuntimeVersion} {m s : Machine (Attended χ)} {generation : GenerationId} {bytes : Bytes}

theorem maintains_inspectBinding (failure : String) (candidate previous : Option RuntimeVersion) :
    Maintains (Activating version m) (inspectServiceBinding calls failure candidate previous)
      fun _ => True := by
  refine maintains_mapError (maintains_atomic fun s binding u hs hu => ⟨trivial, ?_⟩)
  split at hu
  · cases hu
  · cases hu
    exact hs.surround _

theorem maintains_settleBinding (candidate previous : Option RuntimeVersion)
    (binding : RuntimeServiceBinding) :
    Maintains (Activating version m) (settleBinding calls candidate previous binding)
      fun _ => True := by
  unfold settleBinding
  split
  · exact maintains_ret trivial
  split
  · cases candidate with
    | none => exact maintains_throw
    | some candidate =>
      refine maintains_bind (P := fun _ => True) ?_ fun _ _ => maintains_inspectBinding _ _ _
      refine maintains_mapError (maintains_atomic fun s _ u hs hu => ⟨trivial, ?_⟩)
      split at hu
      · cases hu
      · cases hu
        exact hs.surround _
  · exact maintains_ret trivial

theorem wp_recoverByPhase_current (hprofile : ActiveProfile env m generation bytes)
    (h : Activating version m s) (phase : RuntimeActivationPhase)
    (binding : RuntimeServiceBinding) :
    wp (recoverByPhase env calls (.current ⟨phase, some version, version⟩) (some version) binding)
      (fun _ u => u.generatedProfile version.text = some bytes ∧ Activating version m u)
      (fun _ => Activating version m) (Activating version m) s := by
  have huncommitted : wp (recoverUncommitted env calls (.current ⟨phase, some version, version⟩)
      (some version) binding)
      (fun _ u => u.generatedProfile version.text = some bytes ∧ Activating version m u)
      (fun _ => Activating version m) (Activating version m) s := by
    refine (maintains_settleBinding _ _ _).wp_bind h fun settled u _ hu => ?_
    exact wp_bind (wp_ensure (fun _ => wp_rollbackActivation_current hprofile hu) fun _ => hu)
  cases phase with
  | committed =>
    refine wp_bind (wp_inspect (fun _ _ => ?_) (fun _ _ => h) h h)
    exact wp_bind (wp_ensure (fun _ => wp_finishCommitted_current hprofile h _) fun _ => h)
  | candidate => exact huncommitted
  | rollbackRequired => exact huncommitted

theorem wp_recoverBound_current (hprofile : ActiveProfile env m generation bytes)
    (h : Activating version m s) :
    wp (recoverWithServiceBinding env calls) (fun _ => ActivationRecovered version bytes m s)
      (fun _ => Activating version m) (Activating version m) s := by
  unfold recoverWithServiceBinding
  refine wp_bind (wp_observe ?_)
  cases hfile : s.activationJournal with
  | none =>
    refine wp_inspect (fun _ _ => ⟨h, fun hsome => ?_, fun _ => rfl⟩) (fun _ _ => h) h h
    rw [hfile] at hsome
    cases hsome
  | some file =>
    obtain ⟨phase, rfl⟩ := h.journal file hfile
    refine wp_bind (wp_inspect (fun journal hread => ?_) (fun _ _ => h) h h)
    cases hread
    refine wp_bind (wp_ret (wp_bind (wp_mapError (wp_inspect (fun _ _ => ?_) (fun _ _ => h) h h))))
    refine wp_bind (wp_mapError (wp_inspect (fun _ _ => ?_) (fun _ _ => h) h h))
    refine (maintains_inspectBinding _ _ _).wp_bind h fun binding t _ ht => ?_
    refine wp_bind (wp_mono (wp_recoverByPhase_current hprofile ht phase binding) ?_
      (fun _ _ hu => hu) fun _ hu => hu)
    exact fun _ u hu => wp_finishRecovery hfile hu.2 hu.1

end

/-! ## The exchange of the directories -/

section

variable {env : RepairEnvironment} {payload : LoadedPayload} {old : RuntimeDirectory}
  {s : RepairStorage}

/-- The directory that the recovery of a repair keeps: the new one once it is verified, else the
old one, which is the backup if there is one. -/
def keptDirectory (version : RuntimeVersion) (s : RepairStorage) : Option RuntimeDirectory :=
  match s.repairJournal.bind (·.parse) with
  | none => s.runtimeVersions version.text
  | some journal =>
    if journal.phase = .newVerified then s.runtimeVersions version.text
    else (s.runtimeVersions journal.backup).or (s.runtimeVersions version.text)

theorem keptDirectory_unjournaled (version : RuntimeVersion) (h : s.repairJournal = none) :
    keptDirectory version s = s.runtimeVersions version.text := by
  unfold keptDirectory
  rw [h]
  rfl

variable {destination staging backup : Option RuntimeDirectory}

theorem StandsAt.kept_old {phase : RuntimeRepairPhase} (hphase : phase ≠ .newVerified)
    (ht : StandsAt env payload old s destination staging backup (some phase)) :
    keptDirectory payload.version s = backup.or destination := by
  unfold keptDirectory
  rw [ht.inJournal]
  dsimp only [Option.map_some, Option.bind_some, StoredFile.parse_written, repairJournal]
  rw [if_neg hphase, ht.inBackup, ht.inDestination]

theorem StandsAt.kept_new
    (ht : StandsAt env payload old s destination staging backup (some .newVerified)) :
    keptDirectory payload.version s = destination := by
  unfold keptDirectory
  rw [ht.inJournal]
  exact ht.inDestination

theorem wp_recoverRepair_nothing (h : s.repairJournal = none) :
    wp (recoverInterruptedRepair env) (fun _ u => u = s) (fun _ _ => False) (fun _ => False) s := by
  unfold recoverInterruptedRepair
  refine wp_bind (wp_observe ?_)
  rw [h]
  exact wp_ret rfl

/-- The recovery of a repair that succeeds leaves the directory it keeps, and no journal. -/
theorem wp_recoverRepair_keeps (h : Held env payload old s) :
    wp (recoverInterruptedRepair env)
      (fun _ u => u.runtimeVersions payload.version.text = keptDirectory payload.version s ∧
        u.repairJournal = none)
      (fun _ => Held env payload old) (Held env payload old) s := by
  have hheld := h
  have hnothing (hnone : s.repairJournal = none) : wp (recoverInterruptedRepair env)
      (fun _ u => u.runtimeVersions payload.version.text = keptDirectory payload.version s ∧
        u.repairJournal = none)
      (fun _ => Held env payload old) (Held env payload old) s := by
    refine wp_mono (wp_recoverRepair_nothing hnone) ?_ (fun _ _ hu => hu.elim) fun _ hu => hu.elim
    rintro _ u rfl
    exact ⟨(keptDirectory_unjournaled _ hnone).symm, hnone⟩
  have hrestored {kept : Option RuntimeDirectory} (hkept : kept = some old) {u : RepairStorage}
      (hu : StandsAt env payload old u (some old) none none none) :
      u.runtimeVersions payload.version.text = kept ∧ u.repairJournal = none :=
    ⟨hu.inDestination.trans hkept.symm, hu.inJournal⟩
  cases h with
  | unjournaled ht => exact hnothing ht.inJournal
  | completed ht => exact hnothing ht.inJournal
  | @staged phase staging hphase hold hstaging ht =>
    have hkept := ht.kept_old hphase
    by_cases hexact : staging = none ∨ staging = some (payloadDirectory payload)
    · exact wp_mono (robust_recover_staged hphase hold ht hexact).1 (fun _ _ => hrestored hkept)
        (fun _ _ hu => hu) fun _ hu => hu
    · -- A staging directory that lost entries is never accepted again.
      cases staging with
      | none => exact absurd (Or.inl rfl) hexact
      | some d =>
        have hthinned : d ≠ payloadDirectory payload := fun hd => hexact (Or.inr (congrArg some hd))
        exact wp_recover_of_phase ht.inJournal hheld (wp_mono (wp_recoverRepairByPhase_thinned hphase
          hold ht (hstaging d rfl) hthinned) (fun _ _ hu => hu.elim) (fun _ _ hu => hu)
          fun _ hu => hu)
  | moved hphase hold ht =>
    exact wp_mono (robust_recover_moved hphase hold ht).1
      (fun _ _ => hrestored (ht.kept_old hphase)) (fun _ _ hu => hu) fun _ hu => hu
  | @placed phase hphase hold ht =>
    have hunverified : phase ≠ .newVerified := by
      rcases hphase with rfl | rfl <;> decide
    exact wp_mono (wp_recover_placed hphase hold ht)
      (fun _ _ => hrestored (ht.kept_old hunverified)) (fun _ _ hu => hu) fun _ hu => hu
  | verified hold hbackup ht =>
    have hkept := ht.kept_new
    refine wp_recover_of_phase ht.inJournal hheld (wp_mono (maintains_recoverVerified s
      ⟨_, ht, hbackup⟩) (fun _ u hu => ?_) (fun _ _ hu => hu.held hold) fun _ hu => hu.held hold)
    obtain ⟨_, hstands, _⟩ := hu.2
    exact ⟨⟨hstands.inDestination.trans hkept.symm, rfl⟩, hu.2.held hold⟩

/-- A repair that succeeds has removed its journal. -/
theorem wp_replaceRuntimePayload_unjournaled :
    wp (replaceRuntimePayload env payload) (fun _ u => u.repairJournal = none) (fun _ _ => True)
      (fun _ => True) s := by
  unfold replaceRuntimePayload
  refine wp_bind_always fun _ _ => wp_bind_always fun _ _ => wp_bind_always fun _ _ =>
    wp_bind_always fun _ _ => wp_bind_always fun _ _ => wp_bind_always fun _ _ => ?_
  unfold exchangeDirectories
  refine wp_bind_always fun _ _ => wp_bind_always fun _ _ => wp_bind_always fun _ _ =>
    wp_bind_always fun _ _ => wp_bind_always fun _ _ => wp_bind_always fun _ _ =>
    wp_bind_always fun _ _ => wp_bind_always fun _ _ => ?_
  exact wp_modify rfl trivial trivial

end

/-! ## The staging of a payload -/

section

variable {χ : Type} {env : DeployEnvironment χ} {payload : LoadedPayload} {old : RuntimeDirectory}
  {s : RepairStorage}

theorem legacyStaging_ne_version : legacyStaging env payload ≠ payload.version.text := by
  intro h
  have hlength := congrArg (fun name => name.toList.length) h
  have hmarks : ".staging-".toList.length = 9 := rfl
  unfold legacyStaging at hlength
  simp only [String.toList_append, List.length_append] at hlength
  omega

/-- The generation is in its place, and no repair has begun. -/
def Untouched (version : RuntimeVersion) (old : RuntimeDirectory) (s : RepairStorage) : Prop :=
  s.runtimeVersions version.text = some old ∧ s.repairJournal = none

theorem Untouched.set {version : RuntimeVersion} {name : String}
    (h : Untouched version old s) (hname : name ≠ version.text) (d : Option RuntimeDirectory) :
    Untouched version old (s.set name d) :=
  ⟨(s.set_of_ne hname.symm d).trans h.1, h.2⟩

theorem maintains_removeLegacyStaging :
    Maintains (Untouched payload.version old) (removeLegacyStagingCollision env payload)
      fun _ => True := by
  unfold removeLegacyStagingCollision
  refine maintains_bind (P := fun _ => True) (maintains_observe fun _ _ => trivial) fun _ _ => ?_
  refine maintains_whenever fun _ => ?_
  refine maintains_bind (maintains_inspect fun _ _ _ _ => trivial) fun entries _ => ?_
  refine maintains_bind (maintains_eachEntry (fun entry => maintains_removeEntry
    (fun u d entry hu _ => hu.set legacyStaging_ne_version _) entry) entries) fun _ _ => ?_
  exact fun u hu => wp_removeDirectory ⟨trivial, hu.set legacyStaging_ne_version none⟩
    (fun _ => hu) hu

/-- Either no repair is under way or it is in one of its states. -/
def Exchanging (env : RepairEnvironment) (version : RuntimeVersion) (u : RepairStorage) : Prop :=
  u.repairJournal = none ∨
    ∃ payload old, payload.version = version ∧ Held env payload old u

theorem wp_stagePayload (h : Untouched payload.version old s) :
    wp (stagePayload env payload true) (fun _ u => u.repairJournal = none)
      (fun _ => Exchanging env.toRepairEnvironment payload.version)
      (Exchanging env.toRepairEnvironment payload.version) s := by
  have hquiet : ∀ u, Untouched payload.version old u →
      Exchanging env.toRepairEnvironment payload.version u := fun u hu => Or.inl hu.2
  have hheld : ∀ u, Held env.toRepairEnvironment payload old u →
      Exchanging env.toRepairEnvironment payload.version u := fun u hu =>
    Or.inr ⟨payload, old, rfl, hu⟩
  unfold stagePayload
  refine wp_bind (wp_mono (maintains_removeLegacyStaging s h) ?_ (fun _ => hquiet) hquiet)
  rintro _ u ⟨_, hu⟩
  refine wp_bind (wp_observe ?_)
  have hinstalled : u.exists payload.version.text = true := by
    rw [u.exists_eq, hu.1]
    rfl
  have hstart : StandsAt env.toRepairEnvironment payload old u (some old)
      (u.runtimeVersions (repairStaging env.toRepairEnvironment payload))
      (u.runtimeVersions (repairBackup env.toRepairEnvironment payload)) none :=
    ⟨hu.1, rfl, rfl, hu.2⟩
  have hreplaced : wp (replaceRuntimePayload env.toRepairEnvironment payload)
      (fun _ v => v.repairJournal = none)
      (fun _ => Exchanging env.toRepairEnvironment payload.version)
      (Exchanging env.toRepairEnvironment payload.version) u :=
    wp_mono (wp_and (wp_replaceRuntimePayload hstart) wp_replaceRuntimePayload_unjournaled)
      (fun _ _ hv => hv.2) (fun _ v hv => hheld v hv.1) fun v hv => hheld v hv.1
  rw [if_pos hinstalled]
  refine wp_bind (wp_attempt (wp_inspect (fun _ _ => wp_ret hu.2) (fun _ _ => ?_) ?_ (hquiet u hu)))
  · exact hreplaced
  · exact hreplaced

end

end MacTypeControl.Installer
