import MacTypeControl.Generations.RuntimePins

/-!
# Uninstalling

The plan of an uninstallation is made twice, before and after the service is taken away, and only
carried out where both agree. Carried out without faults it empties the service root down to the
root itself, since every directory is empty by the time it is removed.
-/

namespace MacTypeControl.Generations

open Crash Crash.Prog Profile Storage Tables
open Installer (RepairEnvironment)

variable {names : FileNames} (env : RepairEnvironment)

/-! ## The removal -/

/-- What cannot be removed is left to the next start of the system, which is no change of the files. -/
def removeRootEntry (operation : String)
    (effect : ServiceRoot names → Except SetupError (ServiceRoot names)) : Store names Unit :=
  ((atomic .io fun m => (effect m).map fun t => ((), t)).handle fun removal =>
    (modify .io id).mapError fun deferral => .cleanupUnknown
      ("verified runtime removal failed (" ++ removal.text ++
        ") and could not be deferred until reboot (" ++ deferral.text ++ ")")).mapError
    (·.atMachinePath operation)

def removedVersionsRoot (m : ServiceRoot names) : Except SetupError (ServiceRoot names) := do
  require (m.versions.map (·.entries.isEmpty) == some true) .io
  .ok { m with versions := none }

def removedReceiptsRoot (m : ServiceRoot names) : Except SetupError (ServiceRoot names) := do
  require (m.receipts.map (·.entries.isEmpty) == some true) .io
  .ok { m with receipts := none }

def removedPinFile (name : FileName) (m : ServiceRoot names) : Except SetupError (ServiceRoot names) := do
  require (m.pinFile name).isSome .io
  .ok (m.removePin name)

def removedPinsRoot (m : ServiceRoot names) : Except SetupError (ServiceRoot names) := do
  require (m.migrationPins.map (·.entries.isEmpty) == some true) .io
  .ok { m with migrationPins := none }

def removedCurrent (m : ServiceRoot names) : Except SetupError (ServiceRoot names) := do
  require m.runtimePointer.isSome .io
  .ok { m with runtimePointer := none }

def removedPrevious (m : ServiceRoot names) : Except SetupError (ServiceRoot names) := do
  require m.previousRuntime.isSome .io
  .ok { m with previousRuntime := none }

def removedHealth (m : ServiceRoot names) : Except SetupError (ServiceRoot names) := do
  require m.health.isSome .io
  .ok { m with health := none }

def removedRoot (m : ServiceRoot names) : Except SetupError (ServiceRoot names) := do
  require (m.present && m.rootEntryCount == 0) .io
  .ok { m with present := false }

def removeGenerations : List String → Store names Unit
  | [] => ret ()
  | version :: rest => do
    removeManifestVerifiedGenerationWithPolicy env true version
    removeGenerations rest

def removePinFiles : List FileName → Store names Unit
  | [] => ret ()
  | name :: rest => do
    removeRootEntry "remove verified migration runtime pin" (removedPinFile name)
    removePinFiles rest

def executeOwnedRemoval (plan : OwnedRemovalPlan) : Store names Bool :=
  if plan.rootExists = false then ret false
  else do
    removeGenerations env plan.versions
    whenever plan.removeVersionsRoot
      (removeRootEntry "remove verified runtime versions directory" removedVersionsRoot)
    whenever plan.removeReceiptsRoot
      (removeRootEntry "remove verified runtime receipts directory" removedReceiptsRoot)
    removePinFiles plan.migrationPins
    whenever plan.removeMigrationPinsRoot
      (removeRootEntry "remove verified migration runtime pins directory" removedPinsRoot)
    whenever plan.removeCurrent (removeRootEntry "remove verified runtime state file" removedCurrent)
    whenever plan.removePrevious (removeRootEntry "remove verified runtime state file" removedPrevious)
    whenever plan.removeHealth (removeRootEntry "remove verified runtime state file" removedHealth)
    removeRootEntry "remove verified service runtime directory" removedRoot
    let left ← inspect .io fun m => .ok m.present
    whenever left ((modify .io id).mapError
      (·.atMachinePath "defer empty application directory cleanup until reboot"))
    ret true

def removeOwned (beforeCleanup : Store names Unit) : Store names Bool := do
  let before ← inspect .io fun m => prepareOwnedRemoval env m
  beforeCleanup
  let after ← inspect .io fun m => prepareOwnedRemoval env m
  ensure (before = after)
    (.cleanupUnknown "service runtime changed while uninstalling; no runtime files were removed")
  executeOwnedRemoval env after

/-! ## A removal that may defer, without faults -/

section Calm

variable {σ ε α β : Type} {s : σ}

theorem completes_of_bind {m : Prog σ ε α} {f : α → Prog σ ε β} {Q : β → σ → Prop}
    (h : completes (m >>= f) Q s) : completes m (fun a => completes (f a) Q) s := by
  obtain ⟨b, u, hrun, hq⟩ := h
  have hex := m.exhausted s
  unfold completes calm result at *
  rw [run_bind] at hrun
  revert hrun hex
  rcases m.run [] s with ⟨_ | _ | _, t, gs⟩ <;> intro hrun hex
  · obtain rfl : gs = [] := hex
    exact ⟨_, t, rfl, b, u, hrun, hq⟩
  · cases hrun
  · cases hrun

theorem completes_of_mapError {m : Prog σ ε α} {g : ε → ε} {Q : α → σ → Prop}
    (h : completes (m.mapError g) Q s) : completes m Q s := by
  obtain ⟨a, t, hrun, hq⟩ := h
  unfold completes calm result at *
  unfold mapError at hrun
  rw [run_handle] at hrun
  revert hrun
  rcases m.run [] s with ⟨_ | _ | _, u, gs⟩ <;> intro hrun
  · cases hrun
    exact ⟨_, u, rfl, hq⟩
  · cases hrun
  · cases hrun

end Calm

variable {env} {m t u : ServiceRoot names} {version : String}

theorem completes_removePath_deferring {path : GenerationPath} {Q : Unit → ServiceRoot names → Prop}
    (h : completes (removePath false version path) Q m) : completes (removePath true version path) Q m :=
  completes_mapError (completes_handle (completes_of_mapError h))

theorem completes_removeFiles_deferring {entries : List RuntimeEntry} :
    ∀ {Q : Unit → ServiceRoot names → Prop} {m : ServiceRoot names},
      completes (removeFiles false version entries) Q m → completes (removeFiles true version entries) Q m := by
  induction entries with
  | nil => exact fun h => h
  | cons entry rest ih =>
      intro Q m h
      refine completes_bind (completes_removePath_deferring (completes_mono (completes_of_bind h) ?_))
      exact fun _ _ hrest => ih hrest

/-- Where nothing fails, nothing is deferred. -/
theorem completes_removal_deferring {Q : Unit → ServiceRoot names → Prop}
    (h : completes (removeManifestVerifiedGeneration env version) Q m) :
    completes (removeManifestVerifiedGenerationWithPolicy env true version) Q m := by
  unfold removeManifestVerifiedGeneration removeManifestVerifiedGenerationWithPolicy at h
  unfold removeManifestVerifiedGenerationWithPolicy
  refine completes_bind (completes_mono (completes_of_bind h) fun _ t ht => ?_)
  refine completes_bind (completes_mono (completes_of_bind ht) fun entries u hu => ?_)
  refine completes_bind (completes_removeFiles_deferring
    (completes_mono (completes_of_bind hu) fun _ v hv => ?_))
  refine completes_bind (completes_removePath_deferring
    (completes_mono (completes_of_bind hv) fun _ w hw => ?_))
  exact completes_removePath_deferring hw

theorem completes_removeRootEntry {operation : String}
    {effect : ServiceRoot names → Except SetupError (ServiceRoot names)}
    {Q : Unit → ServiceRoot names → Prop} (h : effect m = .ok t) (hq : Q () t) :
    completes (removeRootEntry operation effect) Q m := by
  have hnow : completes (atomic SetupError.io fun m => (effect m).map fun t => ((), t)) Q m :=
    completes_atomic (show _ = Except.ok ((), t) by rw [h]; rfl) hq
  exact completes_mapError (completes_handle hnow)

/-! ## The generations -/

/-- What the removal of generations leaves of the service root. -/
structure SameSurroundings (m t : ServiceRoot names) : Prop where
  present : t.present = m.present
  migrationPins : t.migrationPins = m.migrationPins
  runtimePointer : t.runtimePointer = m.runtimePointer
  previousRuntime : t.previousRuntime = m.previousRuntime
  health : t.health = m.health
  pendingTransaction : t.pendingTransaction = m.pendingTransaction
  unexpected : t.unexpected = m.unexpected

theorem SameSurroundings.refl (m : ServiceRoot names) : SameSurroundings m m :=
  ⟨rfl, rfl, rfl, rfl, rfl, rfl, rfl⟩

theorem SameSurroundings.trans (h : SameSurroundings m t) (h' : SameSurroundings t u) :
    SameSurroundings m u where
  present := h'.present.trans h.present
  migrationPins := h'.migrationPins.trans h.migrationPins
  runtimePointer := h'.runtimePointer.trans h.runtimePointer
  previousRuntime := h'.previousRuntime.trans h.previousRuntime
  health := h'.health.trans h.health
  pendingTransaction := h'.pendingTransaction.trans h.pendingTransaction
  unexpected := h'.unexpected.trans h.unexpected

theorem sameSurroundings_of_removedPath {path : GenerationPath}
    (h : removedPath version path m = .ok t) : SameSurroundings m t := by
  rcases removedPath_cases h with ⟨entry, d, -, -, -, rfl⟩ | ⟨d, -, -, -, rfl⟩ | ⟨-, -, rfl⟩
  · exact ⟨rfl, rfl, rfl, rfl, rfl, rfl, rfl⟩
  · exact ⟨rfl, rfl, rfl, rfl, rfl, rfl, rfl⟩
  · exact ⟨rfl, rfl, rfl, rfl, rfl, rfl, rfl⟩

/-- A removal takes away from the generations and receipts, and from nothing else. -/
theorem maintains_removal_within (version : String) :
    Maintains (fun t => Shrunk m t ∧ SameSurroundings m t)
      (removeManifestVerifiedGenerationWithPolicy env true version) fun _ => True := by
  refine maintains_removal true (fun s events hs => ?_) (fun path s u hs hu => ?_)
    fun s deferred hs => ?_
  · exact ⟨hs.1.trans ⟨rfl, rfl, .refl _, .refl _⟩, hs.2.trans ⟨rfl, rfl, rfl, rfl, rfl, rfl, rfl⟩⟩
  · exact ⟨hs.1.trans (shrunk_of_removedPath hu), hs.2.trans (sameSurroundings_of_removedPath hu)⟩
  · exact ⟨hs.1.trans ⟨rfl, rfl, .refl _, .refl _⟩, hs.2.trans ⟨rfl, rfl, rfl, rfl, rfl, rfl, rfl⟩⟩

theorem shrunk_refl (m : ServiceRoot names) : Shrunk m m := ⟨rfl, rfl, .refl _, .refl _⟩

/-- Verified generations are all gone in the end. -/
theorem completes_removeGenerations {versions : List String} :
    ∀ {m : ServiceRoot names}, versions.Pairwise (Apart names) →
      (∀ version ∈ versions, ∃ verified, verify env m version = .ok verified) →
      completes (removeGenerations env versions) (fun _ t => Shrunk m t ∧ SameSurroundings m t ∧
        (∀ version ∈ versions, Gone version t) ∧
        ∀ other, (∀ version ∈ versions, Apart names other version) → SameGeneration other m t) m := by
  induction versions with
  | nil =>
      intro m _ _
      exact completes_ret ⟨shrunk_refl m, .refl m, fun _ h => absurd h List.not_mem_nil,
        fun other _ => .refl other m⟩
  | cons version rest ih =>
      intro m hapart hverified
      rw [List.pairwise_cons] at hapart
      obtain ⟨verified, hfirst⟩ := hverified version List.mem_cons_self
      have hremoved := completes_removal_deferring (completes_removal hfirst)
      have hwithin := completes_and_wp hremoved
        (maintains_removal_within version m ⟨shrunk_refl m, .refl m⟩)
      have hothers : Maintains (SameGenerations (Apart names · version) m)
          (removeManifestVerifiedGenerationWithPolicy env true version) fun _ => True :=
        maintains_removal_other (fun other hother => hother) true
      refine completes_bind (completes_mono
        (completes_and_wp hwithin (hothers m (.refl _ m))) fun _ t ht => ?_)
      obtain ⟨⟨hgone, -, hshrunk, hsurroundings⟩, -, hsame⟩ := ht
      have hrest : ∀ other ∈ rest, ∃ verified, verify env t other = .ok verified := by
        intro other hother
        rw [(hsame other fun heq => hapart.1 other hother heq.symm).verify_eq]
        exact hverified other (List.mem_cons_of_mem _ hother)
      refine completes_mono (ih hapart.2 hrest) fun _ u hu => ?_
      obtain ⟨hshrunk', hsurroundings', hgone', hsame'⟩ := hu
      refine ⟨hshrunk.trans hshrunk', hsurroundings.trans hsurroundings', fun other hother => ?_,
        fun other hother => ?_⟩
      · rcases List.mem_cons.1 hother with rfl | hother
        · -- what is gone stays gone, since the later removals are of other generations
          have hkept := hsame' other hapart.1
          exact ⟨hkept.1.trans hgone.1, hkept.2.trans hgone.2⟩
        · exact hgone' other hother
      · exact (hsame other (hother version List.mem_cons_self)).trans
          (hsame' other fun later hlater => hother later (List.mem_cons_of_mem _ hlater))

/-! ## What the plan says -/

theorem map_of_mapM {ε α β γ : Type} {f : α → Except ε β} {g : β → γ} {k : α → γ}
    (hf : ∀ x y, f x = .ok y → g y = k x) {xs : List α} :
    ∀ {ys : List β}, xs.mapM f = .ok ys → ys.map g = xs.map k := by
  induction xs with
  | nil =>
      intro ys h
      cases h
      rfl
  | cons x rest ih =>
      intro ys h
      rw [List.mapM_cons] at h
      obtain ⟨y, hy, h⟩ := bind_eq_ok.1 h
      obtain ⟨others, hothers, h⟩ := bind_eq_ok.1 h
      cases h
      rw [List.map_cons, List.map_cons, hf x y hy, ih hothers]

/-- The versions of the plan are those of the generations and of the receipts, each verified. -/
structure RemovableVersions (env : RepairEnvironment) (m : ServiceRoot names) (versions : List String) :
    Prop where
  apart : versions.Pairwise (Apart names)
  verified : ∀ version ∈ versions, ∃ verified, verify env m version = .ok verified
  listed : ∀ name ∈ m.generationNames, ∃ version ∈ versions, name = .unicode version
  receipted : ∀ name ∈ m.receiptNames, ∃ version ∈ versions, name = receiptName version

theorem removableVersions_of_ok {versions : List String}
    (h : verifyRemovableGenerations env m = .ok versions) : RemovableVersions env m versions := by
  unfold verifyRemovableGenerations at h
  split at h
  · next hversions hreceipts =>
    cases h
    refine ⟨.nil, fun _ hmem => absurd hmem List.not_mem_nil, fun name hname => ?_, fun name hname => ?_⟩
    · unfold ServiceRoot.generationNames at hname
      rw [hversions] at hname
      exact absurd hname List.not_mem_nil
    · unfold ServiceRoot.receiptNames at hname
      rw [hreceipts] at hname
      exact absurd hname List.not_mem_nil
  · next folder receipts hversions hreceipts =>
    obtain ⟨_, _, h⟩ := bind_eq_ok.1 h
    obtain ⟨removable, hremovable, h⟩ := bind_eq_ok.1 h
    obtain ⟨_, _, h⟩ := bind_eq_ok.1 h
    obtain ⟨stems, hstems, h⟩ := bind_eq_ok.1 h
    obtain ⟨⟨⟩, hsame, h⟩ := bind_eq_ok.1 h
    obtain rfl := Except.ok.inj h
    have hsorted : (removable.mergeSort fun a b => decide (a ≤ b)).Perm removable :=
      List.mergeSort_perm ..
    have hnames : removable.map FileName.unicode = folder.entries.map Prod.fst :=
      map_of_mapM (fun entry version hversion => (removableVersion_ok hversion).1.symm) hremovable
    refine ⟨?_, fun version hversion => ?_, fun name hname => ?_, fun name hname => ?_⟩
    · have hdistinct := folder.distinct
      have hkeys : (folder.entries.map fun entry => names.compared entry.1) =
          removable.map fun version => names.compared (.unicode version) := by
        have hcompared := congrArg (List.map names.compared) hnames
        rw [List.map_map, List.map_map] at hcompared
        exact hcompared.symm
      rw [hkeys, List.Nodup, List.pairwise_map] at hdistinct
      exact (hsorted.pairwise_iff fun hne => Ne.symm hne).2 hdistinct
    · obtain ⟨entry, hentry, hversion⟩ := mem_of_mapM hremovable (hsorted.mem_iff.1 hversion)
      exact (removableVersion_ok hversion).2
    · unfold ServiceRoot.generationNames at hname
      rw [hversions] at hname
      dsimp only at hname
      rw [← hnames] at hname
      obtain ⟨version, hversion, rfl⟩ := List.mem_map.1 hname
      exact ⟨version, hsorted.mem_iff.2 hversion, rfl⟩
    · unfold ServiceRoot.receiptNames at hname
      rw [hreceipts] at hname
      obtain ⟨entry, hentry, rfl⟩ := List.mem_map.1 hname
      obtain ⟨version, hversion, hstem⟩ := ok_of_mem_mapM hstems hentry
      have hsubset := (Bool.and_eq_true_iff.1 (ok_of_require hsame)).1
      have hlisted : version ∈ removable := by
        simpa using List.all_eq_true.1 hsubset version hversion
      exact ⟨version, hsorted.mem_iff.2 hlisted, receiptVersion_ok hstem⟩
  · cases h

/-- What the plan of a service root that is there was made from. -/
structure Planned (env : RepairEnvironment) (m : ServiceRoot names) (plan : OwnedRemovalPlan) : Prop where
  present : m.present = true
  rootExists : plan.rootExists = true
  pendingTransaction : m.pendingTransaction = false
  unexpected : m.unexpected = []
  versions : RemovableVersions env m plan.versions
  migrationPins : plan.migrationPins.Perm (m.pinEntries.map Prod.fst)
  removeCurrent : plan.removeCurrent = m.runtimePointer.isSome
  removePrevious : plan.removePrevious = m.previousRuntime.isSome
  removeHealth : plan.removeHealth = m.health.isSome
  removeVersionsRoot : plan.removeVersionsRoot = m.versions.isSome
  removeReceiptsRoot : plan.removeReceiptsRoot = m.receipts.isSome
  removeMigrationPinsRoot : plan.removeMigrationPinsRoot = m.migrationPins.isSome

theorem pinNames_of_verified {pins : List FileName} (h : verifyMigrationPinsForRemoval env m = .ok pins) :
    pins.Perm (m.pinEntries.map Prod.fst) := by
  unfold verifyMigrationPinsForRemoval at h
  unfold ServiceRoot.pinEntries
  cases hpins : m.migrationPins with
  | none =>
      rw [hpins] at h
      cases h
      exact .nil
  | some folder =>
      rw [hpins] at h
      obtain ⟨_, _, h⟩ := bind_eq_ok.1 h
      cases h
      exact List.mergeSort_perm _ _

theorem planned_of_ok {plan : OwnedRemovalPlan} (hpresent : m.present = true)
    (h : prepareOwnedRemoval env m = .ok plan) : Planned env m plan := by
  unfold prepareOwnedRemoval at h
  rw [hpresent, if_neg (by decide)] at h
  obtain ⟨_, _, h⟩ := bind_eq_ok.1 h
  obtain ⟨⟨⟩, hpending, h⟩ := bind_eq_ok.1 h
  obtain ⟨⟨⟩, hunexpected, h⟩ := bind_eq_ok.1 h
  obtain ⟨versions, hversions, h⟩ := bind_eq_ok.1 h
  obtain ⟨_, _, h⟩ := bind_eq_ok.1 h
  obtain ⟨_, _, h⟩ := bind_eq_ok.1 h
  obtain ⟨_, _, h⟩ := bind_eq_ok.1 h
  obtain ⟨pins, hpins, h⟩ := bind_eq_ok.1 h
  obtain rfl := Except.ok.inj h
  exact {
    present := hpresent
    rootExists := rfl
    pendingTransaction := by simpa using ok_of_require hpending
    unexpected := by simpa using ok_of_require hunexpected
    versions := removableVersions_of_ok hversions
    migrationPins := pinNames_of_verified hpins
    removeCurrent := rfl
    removePrevious := rfl
    removeHealth := rfl
    removeVersionsRoot := rfl
    removeReceiptsRoot := rfl
    removeMigrationPinsRoot := rfl }

/-! ## The rest of the service root -/

variable {plan : OwnedRemovalPlan}

theorem completes_whenever_removed {condition : Prop} [Decidable condition] {operation : String}
    {effect : ServiceRoot names → Except SetupError (ServiceRoot names)}
    {Q : Unit → ServiceRoot names → Prop} (hremoved : condition → effect m = .ok t)
    (habsent : ¬condition → m = t) (hq : Q () t) :
    completes ((removeRootEntry operation effect).whenever condition) Q m :=
  completes_whenever (fun hcondition => completes_removeRootEntry (hremoved hcondition) hq)
    fun hcondition => (habsent hcondition) ▸ hq

/-- Each pin is found under its name, since no two names of the folder are the same. -/
theorem completes_removePinFiles (pins : List FileName) :
    ∀ {m : ServiceRoot names}, pins.Perm (m.pinEntries.map Prod.fst) →
      completes (removePinFiles pins) (fun _ t => t.pinEntries = [] ∧
        ∃ left, t = { m with migrationPins := left } ∧ left.isSome = m.migrationPins.isSome) m := by
  induction pins with
  | nil => exact fun hpins => completes_ret ⟨List.map_eq_nil_iff.1 hpins.nil_eq.symm, _, rfl, rfl⟩
  | cons name rest ih =>
      intro m hpins
      obtain ⟨entry, hentry, rfl⟩ := List.mem_map.1 (hpins.subset List.mem_cons_self)
      have hfolder : ∃ folder, m.migrationPins = some folder ∧ folder.entries = m.pinEntries := by
        unfold ServiceRoot.pinEntries at hentry ⊢
        cases hfound : m.migrationPins with
        | none =>
            rw [hfound] at hentry
            cases hentry
        | some folder => exact ⟨folder, rfl, rfl⟩
      obtain ⟨folder, hfound, hentries⟩ := hfolder
      have hpresent : (m.pinFile entry.1).isSome = true := by
        unfold ServiceRoot.pinFile
        rw [hfound, Option.bind_some,
          Folder.lookup_of_mem (show (entry.1, entry.2) ∈ folder.entries from hentries ▸ hentry)]
        rfl
      have hremoved : removedPinFile entry.1 m = .ok (m.removePin entry.1) :=
        bind_eq_ok.2 ⟨(), require_true _ hpresent, rfl⟩
      have hrest : rest.Perm ((m.removePin entry.1).pinEntries.map Prod.fst) := by
        have hdistinct : ((entry.1 :: rest).map names.compared).Nodup := by
          rw [(hpins.map names.compared).nodup_iff, List.map_map, ← hentries]
          exact folder.distinct
        rw [List.map_cons, List.nodup_cons] at hdistinct
        have hkept : (entry.1 :: rest).filter
            (fun name => decide (names.compared name ≠ names.compared entry.1)) = rest := by
          rw [List.filter_cons_of_neg (by simp), List.filter_eq_self]
          intro other hother
          refine decide_eq_true fun hsame => hdistinct.1 ?_
          rw [← hsame]
          exact List.mem_map_of_mem hother
        have hfiltered := hpins.filter
          fun name => decide (names.compared name ≠ names.compared entry.1)
        rw [hkept, List.filter_map] at hfiltered
        rw [pinEntries_removePin]
        exact hfiltered
      refine completes_bind (completes_removeRootEntry hremoved ?_)
      refine completes_mono (ih hrest) fun _ t ht => ?_
      obtain ⟨hempty, left, rfl, hleft⟩ := ht
      refine ⟨hempty, left, rfl, hleft.trans ?_⟩
      unfold ServiceRoot.removePin
      exact Option.isSome_map ..

/-- With the generations gone, their directories list nothing. -/
theorem names_of_gone (hplan : Planned env m plan) (hshrunk : Shrunk m t)
    (hgone : ∀ version ∈ plan.versions, Gone version t) :
    t.generationNames = [] ∧ t.receiptNames = [] := by
  refine ⟨List.eq_nil_iff_forall_not_mem.2 fun name hname => ?_,
    List.eq_nil_iff_forall_not_mem.2 fun name hname => ?_⟩
  · obtain ⟨version, hversion, rfl⟩ :=
      hplan.versions.listed name (hshrunk.generationNames.subset hname)
    obtain ⟨entry, hentry⟩ := exists_generation_of_mem hname
    rw [(hgone version hversion).1] at hentry
    cases hentry
  · obtain ⟨version, hversion, rfl⟩ :=
      hplan.versions.receipted name (hshrunk.receiptNames.subset hname)
    obtain ⟨file, hfile⟩ := exists_receipt_of_mem hname
    rw [(hgone version hversion).2] at hfile
    cases hfile

theorem removedVersionsRoot_ok (h : t.generationNames = []) (hroot : t.versions.isSome = true) :
    removedVersionsRoot t = .ok { t with versions := none } := by
  refine bind_eq_ok.2 ⟨(), require_true _ ?_, rfl⟩
  unfold ServiceRoot.generationNames at h
  cases hversions : t.versions with
  | none =>
      rw [hversions] at hroot
      cases hroot
  | some folder =>
      rw [hversions] at h
      have hnil : folder.entries = [] := List.map_eq_nil_iff.1 h
      rw [Option.map_some, hnil]
      rfl

theorem removedReceiptsRoot_ok (h : t.receiptNames = []) (hroot : t.receipts.isSome = true) :
    removedReceiptsRoot t = .ok { t with receipts := none } := by
  refine bind_eq_ok.2 ⟨(), require_true _ ?_, rfl⟩
  unfold ServiceRoot.receiptNames at h
  cases hreceipts : t.receipts with
  | none =>
      rw [hreceipts] at hroot
      cases hroot
  | some folder =>
      rw [hreceipts] at h
      have hnil : folder.entries = [] := List.map_eq_nil_iff.1 h
      rw [Option.map_some, hnil]
      rfl

theorem removedPinsRoot_ok (h : t.pinEntries = []) (hroot : t.migrationPins.isSome = true) :
    removedPinsRoot t = .ok { t with migrationPins := none } := by
  refine bind_eq_ok.2 ⟨(), require_true _ ?_, rfl⟩
  unfold ServiceRoot.pinEntries at h
  cases hpins : t.migrationPins with
  | none =>
      rw [hpins] at hroot
      cases hroot
  | some folder =>
      rw [hpins] at h
      rw [Option.map_some, show folder.entries = [] from h]
      rfl

/-- Without faults nothing is left of what the plan was made for. -/
theorem completes_executeOwnedRemoval (hplan : Planned env m plan) :
    completes (executeOwnedRemoval env plan) (fun removed t => removed = true ∧ t.present = false ∧
      t.rootEntryCount = 0) m := by
  unfold executeOwnedRemoval
  rw [hplan.rootExists, if_neg (by decide)]
  refine completes_bind (completes_mono (completes_removeGenerations hplan.versions.apart
    hplan.versions.verified) fun _ t ht => ?_)
  obtain ⟨hshrunk, hsame, hgone, -⟩ := ht
  obtain ⟨hgenerations, hreceipts⟩ := names_of_gone hplan hshrunk hgone
  -- each part is there exactly where the plan has it removed
  refine completes_bind (completes_whenever_removed (t := { t with versions := none })
    (fun hroot => removedVersionsRoot_ok hgenerations ?_) (fun hroot => ?_) ?_)
  · rw [hshrunk.versions, ← hplan.removeVersionsRoot, hroot]
  · rw [hplan.removeVersionsRoot, ← hshrunk.versions, Bool.not_eq_true,
      Option.isSome_eq_false_iff, Option.isNone_iff_eq_none] at hroot
    rw [← hroot]
  refine completes_bind (completes_whenever_removed
    (t := { t with versions := none, receipts := none })
    (fun hroot => removedReceiptsRoot_ok hreceipts ?_) (fun hroot => ?_) ?_)
  · exact hshrunk.receipts.trans (hplan.removeReceiptsRoot.symm.trans hroot)
  · rw [hplan.removeReceiptsRoot, ← hshrunk.receipts, Bool.not_eq_true,
      Option.isSome_eq_false_iff, Option.isNone_iff_eq_none] at hroot
    rw [← hroot]
  have hpins : plan.migrationPins.Perm
      ((ServiceRoot.pinEntries { t with versions := none, receipts := none }).map Prod.fst) := by
    refine hplan.migrationPins.trans (.of_eq ?_)
    unfold ServiceRoot.pinEntries
    rw [← hsame.migrationPins]
  refine completes_bind (completes_mono (completes_removePinFiles _ hpins) fun _ u hu => ?_)
  obtain ⟨hempty, left, rfl, hleft⟩ := hu
  have hleft : left.isSome = plan.removeMigrationPinsRoot := by
    rw [hleft, hplan.removeMigrationPinsRoot, ← hsame.migrationPins]
  refine completes_bind (completes_whenever_removed
    (t := { t with versions := none, receipts := none, migrationPins := none })
    (fun hroot => removedPinsRoot_ok hempty ?_) (fun hroot => ?_) ?_)
  · exact hleft.trans hroot
  · rw [← hleft, Bool.not_eq_true, Option.isSome_eq_false_iff, Option.isNone_iff_eq_none] at hroot
    rw [hroot]
  refine completes_bind (completes_whenever_removed
    (t := { t with
        versions := none
        receipts := none
        migrationPins := none
        runtimePointer := none })
    (fun hfile => bind_eq_ok.2 ⟨(), require_true _ ?_, rfl⟩) (fun hfile => ?_) ?_)
  · rw [hplan.removeCurrent, ← hsame.runtimePointer] at hfile
    exact hfile
  · rw [hplan.removeCurrent, ← hsame.runtimePointer, Bool.not_eq_true, Option.isSome_eq_false_iff,
      Option.isNone_iff_eq_none] at hfile
    rw [hfile]
  refine completes_bind (completes_whenever_removed
    (t := { t with
        versions := none
        receipts := none
        migrationPins := none
        runtimePointer := none
        previousRuntime := none })
    (fun hfile => bind_eq_ok.2 ⟨(), require_true _ ?_, rfl⟩) (fun hfile => ?_) ?_)
  · rw [hplan.removePrevious, ← hsame.previousRuntime] at hfile
    exact hfile
  · rw [hplan.removePrevious, ← hsame.previousRuntime, Bool.not_eq_true, Option.isSome_eq_false_iff,
      Option.isNone_iff_eq_none] at hfile
    rw [hfile]
  refine completes_bind (completes_whenever_removed
    (t := { t with
        versions := none
        receipts := none
        migrationPins := none
        runtimePointer := none
        previousRuntime := none
        health := none })
    (fun hfile => bind_eq_ok.2 ⟨(), require_true _ ?_, rfl⟩) (fun hfile => ?_) ?_)
  · rw [hplan.removeHealth, ← hsame.health] at hfile
    exact hfile
  · rw [hplan.removeHealth, ← hsame.health, Bool.not_eq_true, Option.isSome_eq_false_iff,
      Option.isNone_iff_eq_none] at hfile
    rw [hfile]
  have hcount : ∀ present, @ServiceRoot.rootEntryCount names { t with
        versions := none
        receipts := none
        migrationPins := none
        runtimePointer := none
        previousRuntime := none
        health := none
        present := present } = 0 := by
    intro present
    unfold ServiceRoot.rootEntryCount
    dsimp only
    rw [hsame.pendingTransaction, hplan.pendingTransaction, hsame.unexpected, hplan.unexpected]
    rfl
  refine completes_bind (completes_removeRootEntry (bind_eq_ok.2 ⟨(), require_true _ ?_, rfl⟩) ?_)
  · rw [Bool.and_eq_true, beq_iff_eq]
    exact ⟨hsame.present.trans hplan.present, hcount _⟩
  refine completes_bind (completes_inspect rfl ?_)
  refine completes_bind (completes_whenever (fun hleft => absurd hleft Bool.false_ne_true) fun _ => ?_)
  exact completes_ret ⟨rfl, rfl, hcount false⟩

/-! ## Under faults -/

/-- Files were removed only out of verified generations, and the service root only when it was empty. -/
structure RemovalSafe (env : RepairEnvironment) (m t : ServiceRoot names) : Prop where
  history : HistoryJustified env m t
  emptied : t.present = false → t.rootEntryCount = 0

/-- The service root is still there. -/
structure Removing (env : RepairEnvironment) (m t : ServiceRoot names) : Prop where
  history : HistoryJustified env m t
  present : t.present = true

theorem Removing.safe (h : Removing env m t) : RemovalSafe env m t :=
  ⟨h.history, fun habsent => absurd (habsent.symm.trans h.present) Bool.false_ne_true⟩

theorem maintains_removeRootEntry {I : ServiceRoot names → Prop} {operation : String}
    {effect : ServiceRoot names → Except SetupError (ServiceRoot names)}
    (h : ∀ t u, I t → effect t = .ok u → I u) :
    Maintains I (removeRootEntry operation effect) fun _ => True := by
  have hnow : Maintains I (atomic SetupError.io fun m => (effect m).map fun t => ((), t)) fun _ => True := by
    refine maintains_atomic fun t a u ht hu => ⟨trivial, ?_⟩
    cases heffect : effect t with
    | error e =>
        rw [heffect] at hu
        cases hu
    | ok v =>
        rw [heffect] at hu
        cases hu
        exact h t _ ht heffect
  refine maintains_mapError (maintains_handle hnow fun removal => maintains_mapError ?_)
  exact maintains_modify fun _ ht => ht

theorem maintains_removeGenerations_removing (versions : List String) :
    Maintains (Removing env m) (removeGenerations env versions) fun _ => True := by
  induction versions with
  | nil => exact maintains_ret trivial
  | cons version rest ih =>
      refine maintains_bind (P := fun _ => True) (fun t ht => ?_) fun _ _ => ih
      have hjustified := maintains_removal_justified (m := m) version true t ht.history
      have hwithin := @maintains_removal_within _ env _ version t ⟨shrunk_refl t, .refl t⟩
      exact wp_mono (wp_and hjustified hwithin)
        (fun _ u hu => ⟨trivial, hu.1.2, hu.2.2.2.present.trans ht.present⟩)
        (fun _ u hu => ⟨hu.1, hu.2.2.present.trans ht.present⟩)
        fun u hu => ⟨hu.1, hu.2.2.present.trans ht.present⟩

/-- What takes one part of the service root away and no file of a generation. -/
theorem removing_of_part {c : ServiceRoot names → Bool} {f : ServiceRoot names → ServiceRoot names}
    (hhistory : ∀ t, (f t).history = t.history) (hpresent : ∀ t, (f t).present = t.present)
    (t u : ServiceRoot names) (ht : Removing env m t)
    (h : (do require (c t) SetupError.io; .ok (f t)) = .ok u) : Removing env m u := by
  obtain ⟨_, _, h⟩ := bind_eq_ok.1 h
  obtain rfl := Except.ok.inj h
  obtain ⟨events, hevents, hjustified⟩ := ht.history
  exact ⟨⟨events, (hhistory t).trans hevents, hjustified⟩, (hpresent t).trans ht.present⟩

theorem maintains_removePinFiles (pins : List FileName) :
    Maintains (Removing env m) (removePinFiles pins) fun _ => True := by
  induction pins with
  | nil => exact maintains_ret trivial
  | cons name rest ih =>
      refine maintains_bind (maintains_removeRootEntry fun t u ht hu => ?_) fun _ _ => ih
      exact removing_of_part (c := fun t => (t.pinFile name).isSome) (f := fun t => t.removePin name)
        (fun _ => rfl) (fun _ => rfl) t u ht hu

theorem removalSafe_of_removedRoot (ht : RemovalSafe env m t) (h : removedRoot t = .ok u) :
    RemovalSafe env m u := by
  obtain ⟨⟨⟩, hempty, h⟩ := bind_eq_ok.1 h
  obtain rfl := Except.ok.inj h
  have hempty := ok_of_require hempty
  rw [Bool.and_eq_true, beq_iff_eq] at hempty
  exact ⟨ht.history, fun _ => hempty.2⟩

theorem wp_after {α β : Type} {I : ServiceRoot names → Prop} {p : Store names α}
    {f : α → Store names β} {Q : β → ServiceRoot names → Prop}
    {E : SetupError → ServiceRoot names → Prop} {C : ServiceRoot names → Prop}
    (h : Maintains I p fun _ => True) (hI : I m) (hE : ∀ e t, I t → E e t) (hC : ∀ t, I t → C t)
    (hf : ∀ a t, I t → wp (f a) Q E C t) : wp (p >>= f) Q E C m :=
  wp_bind (wp_mono (h m hI) (fun a t ht => hf a t ht.2) hE hC)

theorem wp_executeOwnedRemoval (ht : Removing env m t) :
    wp (executeOwnedRemoval env plan) (fun _ => RemovalSafe env m) (fun _ => RemovalSafe env m)
      (RemovalSafe env m) t := by
  have hsafe : ∀ u, Removing env m u → RemovalSafe env m u := fun _ hu => hu.safe
  have hpart {check : ServiceRoot names → Bool} {f : ServiceRoot names → ServiceRoot names}
      (condition : Prop) [Decidable condition] (operation : String)
      (hhistory : ∀ t, (f t).history = t.history) (hpresent : ∀ t, (f t).present = t.present) :
      Maintains (Removing env m) (whenever condition (removeRootEntry operation fun t => do
        require (check t) .io; .ok (f t))) fun _ => True :=
    maintains_whenever fun _ => maintains_removeRootEntry (removing_of_part hhistory hpresent)
  unfold executeOwnedRemoval
  split
  · exact wp_ret ht.safe
  refine wp_after (maintains_removeGenerations_removing plan.versions) ht (fun _ => hsafe) hsafe
    fun _ _ ht => ?_
  refine wp_after (hpart (plan.removeVersionsRoot = true) _ (fun _ => rfl) fun _ => rfl) ht (fun _ => hsafe)
    hsafe fun _ _ ht => ?_
  refine wp_after (hpart (plan.removeReceiptsRoot = true) _ (fun _ => rfl) fun _ => rfl) ht (fun _ => hsafe)
    hsafe fun _ _ ht => ?_
  refine wp_after (maintains_removePinFiles plan.migrationPins) ht (fun _ => hsafe) hsafe
    fun _ _ ht => ?_
  refine wp_after (hpart (plan.removeMigrationPinsRoot = true) _ (fun _ => rfl) fun _ => rfl) ht (fun _ => hsafe)
    hsafe fun _ _ ht => ?_
  refine wp_after (hpart (plan.removeCurrent = true) _ (fun _ => rfl) fun _ => rfl) ht (fun _ => hsafe)
    hsafe fun _ _ ht => ?_
  refine wp_after (hpart (plan.removePrevious = true) _ (fun _ => rfl) fun _ => rfl) ht (fun _ => hsafe)
    hsafe fun _ _ ht => ?_
  refine wp_after (hpart (plan.removeHealth = true) _ (fun _ => rfl) fun _ => rfl) ht (fun _ => hsafe)
    hsafe fun _ _ ht => ?_
  -- from here on the service root may be gone
  have hroot : Maintains (RemovalSafe env m)
      (removeRootEntry "remove verified service runtime directory" removedRoot) fun _ => True :=
    maintains_removeRootEntry fun _ _ => removalSafe_of_removedRoot
  have hlook : Maintains (RemovalSafe env m)
      (inspect SetupError.io fun m : ServiceRoot names => .ok m.present) fun _ => True :=
    maintains_inspect fun _ _ _ _ => trivial
  refine hroot.wp_bind ht.safe fun _ _ _ ht => ?_
  refine hlook.wp_bind ht fun left _ _ ht => ?_
  have hdefer : Maintains (RemovalSafe env m) (whenever (left = true)
      ((modify SetupError.io id).mapError (·.atMachinePath
        "defer empty application directory cleanup until reboot"))) fun _ => True :=
    maintains_whenever fun _ => maintains_mapError (maintains_modify fun _ ht => ht)
  exact hdefer.wp_bind ht fun _ _ _ ht => wp_ret ht

/-! ## The whole uninstallation -/

theorem completes_execute_of_plan (h : prepareOwnedRemoval env t = .ok plan) :
    completes (executeOwnedRemoval env plan) (fun removed u => removed = t.present ∧ u.present = false ∧
      (t.present = true → u.rootEntryCount = 0)) t := by
  cases hpresent : t.present with
  | false =>
      unfold prepareOwnedRemoval at h
      rw [if_pos hpresent] at h
      obtain rfl := Except.ok.inj h
      exact completes_ret ⟨rfl, hpresent, fun habsurd => absurd habsurd Bool.false_ne_true⟩
  | true =>
      refine completes_mono (completes_executeOwnedRemoval (planned_of_ok hpresent h)) fun _ u hu => ?_
      exact ⟨hu.1, hu.2.1, fun _ => hu.2.2⟩

theorem reports_removeOwned {before : OwnedRemovalPlan} {cleanup : Store names Unit}
    (hbefore : prepareOwnedRemoval env m = .ok before)
    (hcleanup : completes cleanup (fun _ u => u = t) m)
    (hafter : prepareOwnedRemoval env t ≠ .ok before) :
    reports (removeOwned env cleanup) (fun _ u => u = t) m := by
  refine reports_after (completes_inspect hbefore (reports_after (completes_mono hcleanup ?_)))
  rintro _ u rfl
  cases hplan : prepareOwnedRemoval env u with
  | error e => exact reports_bind (reports_inspect hplan rfl)
  | ok after =>
      have hchanged : decide (before = after) = false :=
        decide_eq_false fun hsame => hafter (hplan.trans (congrArg Except.ok hsame.symm))
      refine reports_after (completes_inspect hplan (reports_bind ?_))
      rw [hchanged]
      exact reports_throw rfl

theorem wp_removeOwned {cleanup : Store names Unit} (hpresent : m.present = true)
    (hcleanup : Maintains (Removing env m) cleanup fun _ => True) :
    wp (removeOwned env cleanup) (fun _ => RemovalSafe env m) (fun _ => RemovalSafe env m)
      (RemovalSafe env m) m := by
  have hstart : Removing env m m := ⟨⟨[], rfl, .nil⟩, hpresent⟩
  have hsafe : ∀ u, Removing env m u → RemovalSafe env m u := fun _ hu => hu.safe
  have hinspect : Maintains (Removing env m)
      (inspect SetupError.io fun m : ServiceRoot names => prepareOwnedRemoval env m) fun _ => True :=
    maintains_inspect fun _ _ _ _ => trivial
  refine wp_after hinspect hstart (fun _ => hsafe) hsafe fun before _ ht => ?_
  refine wp_after hcleanup ht (fun _ => hsafe) hsafe fun _ _ ht => ?_
  refine wp_after hinspect ht (fun _ => hsafe) hsafe fun after _ ht => ?_
  refine wp_after maintains_ensure.trivially ht (fun _ => hsafe) hsafe fun _ _ ht => ?_
  exact wp_executeOwnedRemoval ht

/-- An uninstallation empties the service root where the plan is the same after the service was taken
away, and leaves it as it was then where it is not. Whatever fails, no file goes before its generation
was verified, and the root does not go before what it holds. -/
theorem uninstall_law (env : RepairEnvironment) (cleanup : Store names Unit) {m t : ServiceRoot names}
    {before : OwnedRemovalPlan} (hbefore : prepareOwnedRemoval env m = .ok before)
    (hcleanup : completes cleanup (fun _ u => u = t) m) :
    (prepareOwnedRemoval env t = .ok before →
      completes (removeOwned env cleanup) (fun removed u => removed = t.present ∧ u.present = false ∧
        (t.present = true → u.rootEntryCount = 0)) m) ∧
    (prepareOwnedRemoval env t ≠ .ok before → reports (removeOwned env cleanup) (fun _ u => u = t) m) ∧
    (m.present = true → Maintains (Removing env m) cleanup (fun _ => True) →
      ∀ faults, RemovalSafe env m ((removeOwned env cleanup).result faults m).2) := by
  refine ⟨fun hafter => ?_, reports_removeOwned hbefore hcleanup, fun hpresent hkeeps faults => ?_⟩
  · refine completes_bind (completes_inspect hbefore (completes_bind (completes_mono hcleanup ?_)))
    rintro _ u rfl
    refine completes_bind (completes_inspect hafter (completes_bind ?_))
    exact completes_ensure (decide_eq_true rfl) (completes_execute_of_plan hafter)
  · exact (wp_removeOwned hpresent hkeeps).leaves (fun _ _ hu => hu) (fun _ _ hu => hu)
      (fun _ hu => hu) faults

/-- Taking the service away leaves its files as they are. -/
theorem uninstall_law_smallStore :
    completes (removeOwned storeEnvironment (ret ())) (fun removed u => removed = true ∧
      u.present = false ∧ u.rootEntryCount = 0) smallStore := by
  have hplanned : ∃ plan, prepareOwnedRemoval storeEnvironment smallStore = .ok plan := ⟨_, rfl⟩
  obtain ⟨plan, hplan⟩ := hplanned
  refine completes_mono ((uninstall_law storeEnvironment (ret ()) hplan (completes_ret rfl)).1 hplan) ?_
  exact fun _ u hu => ⟨hu.1, hu.2.1, hu.2.2 rfl⟩

end MacTypeControl.Generations
