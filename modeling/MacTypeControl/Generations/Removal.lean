import MacTypeControl.Generations.Store
import MacTypeControl.Installer.RepairReceipts

/-!
# What the removal of a generation does

The removal of one generation leaves the others alone, takes no file before the whole directory
was verified, and without faults leaves neither the directory nor its receipt.
-/

namespace MacTypeControl.Generations

open Crash Crash.Prog Profile Storage Tables
open Installer (RepairEnvironment verifyRuntimeEntries)

variable {names : FileNames} {env : RepairEnvironment} {m t : ServiceRoot names}

/-! ## Verified generations -/

theorem verify_ok_iff {version : String} {d : RuntimeDirectory} {receipt : RuntimeReceipt} :
    verify env m version = .ok (d, receipt) ↔
      m.generation version = some (.directory d) ∧
        (∃ file, m.receipt version = some file ∧ file.parse = some receipt) ∧
        receipt.version.text = version ∧
        verifyRuntimeEntries env.toStorageEnvironment receipt d = .ok () := by
  constructor
  · intro h
    unfold verify at h
    split at h
    · cases h
    · next directory file hgeneration hreceipt =>
      split at h
      · cases h
      · next parsed hparse =>
        obtain ⟨⟨⟩, hversion, h⟩ := bind_eq_ok.1 h
        obtain ⟨⟨⟩, hentries, h⟩ := bind_eq_ok.1 h
        cases h
        exact ⟨hgeneration, ⟨file, hreceipt, hparse⟩, beq_iff_eq.1 (ok_of_require hversion),
          hentries⟩
    · cases h
  · rintro ⟨hgeneration, ⟨file, hreceipt, hparse⟩, hversion, hentries⟩
    unfold verify
    rw [hgeneration, hreceipt]
    dsimp only
    rw [hparse]
    refine bind_eq_ok.2 ⟨(), require_true _ (beq_iff_eq.2 hversion), ?_⟩
    exact bind_eq_ok.2 ⟨(), hentries, rfl⟩

/-- A directory that a receipt was verified for. -/
structure WholeDirectory (d : RuntimeDirectory) : Prop where
  temporaries : d.temporaries = []
  foreign : d.foreign = []
  files : ∀ file, (d.files file).isSome = true

theorem wholeDirectory_of_entries {storage : StorageEnvironment} {d : RuntimeDirectory}
    {receipt : RuntimeReceipt} (h : verifyRuntimeEntries storage receipt d = .ok ()) :
    WholeDirectory d := by
  unfold verifyRuntimeEntries at h
  obtain ⟨_, _, h⟩ := bind_eq_ok.1 h
  obtain ⟨_, _, h⟩ := bind_eq_ok.1 h
  obtain ⟨⟨⟩, hclean, h⟩ := bind_eq_ok.1 h
  obtain ⟨_, _, h⟩ := bind_eq_ok.1 h
  have hclean := ok_of_require hclean
  simp only [Bool.and_eq_true, beq_iff_eq] at hclean
  refine ⟨hclean.1, hclean.2, fun file => ?_⟩
  have hfile := forM_eq_ok_iff.1 h file (mem_immutableRuntimeFiles file)
  unfold Installer.verifyRuntimeFile at hfile
  split at hfile
  · cases hfile
  · next hbytes => rw [hbytes]; rfl

theorem removableEntries_ok {version : String} {d : RuntimeDirectory}
    (hd : m.generation version = some (.directory d)) (hwhole : WholeDirectory d) :
    removableEntries env m version = .ok (env.listing d) := by
  have hclean : (d.temporaries == [] && d.foreign == []) = true := by
    rw [hwhole.temporaries, hwhole.foreign]
    rfl
  have hfiles : d.runtimeFileCount = immutableRuntimeFiles.length :=
    List.length_filter_eq_length_iff.2 fun file _ => hwhole.files file
  have hcount := RuntimeDirectory.entryCount_le hwhole.temporaries hwhole.foreign
  unfold removableEntries
  rw [hd]
  refine bind_eq_ok.2 ⟨(), require_true _ (decide_eq_true hcount), ?_⟩
  refine bind_eq_ok.2 ⟨(), require_true _ hclean, ?_⟩
  exact bind_eq_ok.2 ⟨(), require_true _ (beq_iff_eq.2 hfiles), rfl⟩

/-! ## One path -/

/-- What the deletion of a path needs and what it leaves. -/
theorem removedPath_cases {version : String} {path : GenerationPath}
    (h : removedPath version path m = .ok t) :
    (∃ entry d, path = .file entry ∧ m.generation version = some (.directory d) ∧
      (d.content entry).isSome = true ∧ t = m.eraseEntry version entry d) ∨
    (∃ d, path = .directory ∧ m.generation version = some (.directory d) ∧ d.entryCount = 0 ∧
      t = m.removeDirectory version) ∨
    (path = .receipt ∧ (m.receipt version).isSome = true ∧ t = m.removeReceipt version) := by
  unfold removedPath at h
  cases path with
  | file entry =>
    dsimp only at h
    split at h
    · next d hd =>
      obtain ⟨⟨⟩, hentry, h⟩ := bind_eq_ok.1 h
      exact Or.inl ⟨entry, d, rfl, hd, ok_of_require hentry, (Except.ok.inj h).symm⟩
    · cases h
  | directory =>
    dsimp only at h
    split at h
    · next d hd =>
      obtain ⟨⟨⟩, hempty, h⟩ := bind_eq_ok.1 h
      exact Or.inr (Or.inl ⟨d, rfl, hd, beq_iff_eq.1 (ok_of_require hempty),
        (Except.ok.inj h).symm⟩)
    · cases h
  | receipt =>
    obtain ⟨⟨⟩, hreceipt, h⟩ := bind_eq_ok.1 h
    exact Or.inr (Or.inr ⟨rfl, ok_of_require hreceipt, (Except.ok.inj h).symm⟩)

theorem generation_eraseEntry {version : String} {entry : RuntimeEntry} {d : RuntimeDirectory}
    (hd : m.generation version = some (.directory d)) :
    (m.eraseEntry version entry d).generation version =
      some (.directory (d.erase entry)) := by
  unfold ServiceRoot.generation ServiceRoot.eraseEntry at *
  cases hversions : m.versions with
  | none => simp [hversions] at hd
  | some folder =>
    rw [hversions] at hd
    simp only [Option.map_some, Option.bind_some] at hd ⊢
    rw [Folder.lookup_adjust_self _ rfl, hd]
    rfl

/-- The file system tells two generations apart. -/
def Apart (names : FileNames) (a b : String) : Prop :=
  names.compared (.unicode a) ≠ names.compared (.unicode b)

theorem Apart.receipts {a b : String} (h : Apart names a b) :
    names.compared (receiptName a) ≠ names.compared (receiptName b) :=
  fun heq => h (names.compared_json a b heq)

/-- The directory and the receipt of a generation are the same in both states. -/
def SameGeneration (version : String) (m t : ServiceRoot names) : Prop :=
  t.generation version = m.generation version ∧ t.receipt version = m.receipt version

theorem SameGeneration.refl (version : String) (m : ServiceRoot names) :
    SameGeneration version m m := ⟨rfl, rfl⟩

theorem SameGeneration.trans {version : String} {u : ServiceRoot names}
    (h : SameGeneration version m t) (h' : SameGeneration version t u) :
    SameGeneration version m u :=
  ⟨h'.1.trans h.1, h'.2.trans h.2⟩

theorem SameGeneration.verify_eq {version : String} (h : SameGeneration version m t) :
    verify env t version = verify env m version := by
  unfold verify
  rw [h.1, h.2]

theorem sameGeneration_of_removedPath {version other : String} {path : GenerationPath}
    (hapart : Apart names other version) (h : removedPath version path m = .ok t) :
    SameGeneration other m t := by
  rcases removedPath_cases h with ⟨entry, d, -, -, -, rfl⟩ | ⟨d, -, -, -, rfl⟩ | ⟨-, -, rfl⟩
  · refine ⟨?_, rfl⟩
    unfold ServiceRoot.generation ServiceRoot.eraseEntry
    cases m.versions with
    | none => rfl
    | some folder => exact Folder.lookup_adjust_of_ne _ hapart
  · refine ⟨?_, rfl⟩
    unfold ServiceRoot.generation ServiceRoot.removeDirectory
    cases m.versions with
    | none => rfl
    | some folder => exact Folder.lookup_remove_of_ne hapart
  · refine ⟨rfl, ?_⟩
    unfold ServiceRoot.receipt ServiceRoot.removeReceipt
    cases m.receipts with
    | none => rfl
    | some folder => exact Folder.lookup_remove_of_ne hapart.receipts

theorem maintains_removePath {I : ServiceRoot names → Prop} {version : String}
    {path : GenerationPath} (deferLockedFiles : Bool)
    (hremoved : ∀ s u, I s → removedPath version path s = .ok u → I u)
    (hdeferred : ∀ s deferred, I s → I { s with deferredDeletions := deferred }) :
    Maintains I (removePath deferLockedFiles version path) fun _ => True := by
  have hnow : Maintains I (removeNow version path) fun _ => True := by
    refine maintains_atomic fun s a u hs hu => ⟨trivial, ?_⟩
    cases hpath : removedPath version path s with
    | error e =>
      rw [hpath] at hu
      cases hu
    | ok v =>
      rw [hpath] at hu
      cases hu
      exact hremoved s _ hs hpath
  unfold removePath
  refine maintains_mapError ?_
  split
  · refine maintains_handle hnow fun removal => maintains_mapError ?_
    exact maintains_modify fun s hs => hdeferred s _ hs
  · exact hnow

theorem maintains_removeFiles {I : ServiceRoot names → Prop} {version : String}
    (deferLockedFiles : Bool)
    (hremoved : ∀ entry s u, I s → removedPath version (.file entry) s = .ok u → I u)
    (hdeferred : ∀ s deferred, I s → I { s with deferredDeletions := deferred })
    (entries : List RuntimeEntry) :
    Maintains I (removeFiles deferLockedFiles version entries) fun _ => True := by
  induction entries with
  | nil => exact maintains_ret trivial
  | cons entry rest ih =>
    exact maintains_bind (maintains_removePath deferLockedFiles (hremoved entry) hdeferred)
      fun _ _ => ih

/-! ## The whole removal -/

theorem verifyBeforeRemoval_ok {version : String} {a : Unit}
    (h : ((verify env m version).map fun verified =>
      ((), { m with history := .verified version verified.1 verified.2 :: m.history })) =
        .ok (a, t)) :
    ∃ d receipt, verify env m version = .ok (d, receipt) ∧
      t = { m with history := .verified version d receipt :: m.history } := by
  cases hverify : verify env m version with
  | error e =>
    rw [hverify] at h
    cases h
  | ok verified =>
    rw [hverify] at h
    cases h
    exact ⟨verified.1, verified.2, rfl, rfl⟩

/-- What every deletion of a path keeps, the removal keeps once the directory is verified. -/
theorem maintains_verifiedRemoval {I : ServiceRoot names → Prop} {version : String}
    (deferLockedFiles : Bool)
    (hremoved : ∀ path s u, I s → removedPath version path s = .ok u → I u)
    (hdeferred : ∀ s deferred, I s → I { s with deferredDeletions := deferred }) :
    Maintains I
      (do
        let entries ← inspect .io fun m => removableEntries env m version
        removeFiles deferLockedFiles version entries
        removePath deferLockedFiles version .directory
        removePath deferLockedFiles version .receipt) fun _ => True := by
  refine maintains_bind (maintains_inspect fun _ _ _ _ => trivial) fun entries _ => ?_
  refine maintains_bind (maintains_removeFiles deferLockedFiles
    (fun entry => hremoved (.file entry)) hdeferred entries) fun _ _ => ?_
  refine maintains_bind (maintains_removePath deferLockedFiles (hremoved .directory) hdeferred)
    fun _ _ => ?_
  exact maintains_removePath deferLockedFiles (hremoved .receipt) hdeferred

theorem maintains_removal {I : ServiceRoot names → Prop} {version : String}
    (deferLockedFiles : Bool) (hhistory : ∀ s events, I s → I { s with history := events })
    (hremoved : ∀ path s u, I s → removedPath version path s = .ok u → I u)
    (hdeferred : ∀ s deferred, I s → I { s with deferredDeletions := deferred }) :
    Maintains I (removeManifestVerifiedGenerationWithPolicy env deferLockedFiles version)
      fun _ => True := by
  unfold removeManifestVerifiedGenerationWithPolicy verifyBeforeRemoval
  refine maintains_bind (P := fun _ => True) ?_ fun _ _ => ?_
  · refine maintains_atomic fun s a u hs hu => ⟨trivial, ?_⟩
    obtain ⟨d, receipt, _, rfl⟩ := verifyBeforeRemoval_ok hu
    exact hhistory s _ hs
  exact maintains_verifiedRemoval deferLockedFiles hremoved hdeferred

/-- The generations are the same in both states. -/
def SameGenerations (kept : String → Prop) (m t : ServiceRoot names) : Prop :=
  ∀ version, kept version → SameGeneration version m t

theorem SameGenerations.refl (kept : String → Prop) (m : ServiceRoot names) :
    SameGenerations kept m m := fun version _ => .refl version m

/-- The removal leaves the other generations as they are. -/
theorem maintains_removal_other {version : String} {kept : String → Prop}
    (hapart : ∀ other, kept other → Apart names other version) (deferLockedFiles : Bool) :
    Maintains (SameGenerations kept m)
      (removeManifestVerifiedGenerationWithPolicy env deferLockedFiles version)
      fun _ => True := by
  have hremoved : ∀ path s u, SameGenerations kept m s → removedPath version path s = .ok u →
      SameGenerations kept m u := fun path s u hs hu other hother =>
    (hs other hother).trans (sameGeneration_of_removedPath (hapart other hother) hu)
  exact maintains_removal deferLockedFiles (fun _ _ hs => hs) hremoved fun _ _ hs => hs

/-- Where the verification fails nothing is removed. -/
theorem wp_removal_unverified {version : String} (deferLockedFiles : Bool)
    (h : ∀ verified, verify env t version ≠ .ok verified) {Q : Unit → ServiceRoot names → Prop} :
    wp (removeManifestVerifiedGenerationWithPolicy env deferLockedFiles version) Q
      (fun _ u => u = t) (fun u => u = t) t := by
  unfold removeManifestVerifiedGenerationWithPolicy verifyBeforeRemoval
  refine wp_bind (wp_atomic (fun a u hu => ?_) (fun _ _ => rfl) rfl rfl)
  obtain ⟨d, receipt, hverify, _⟩ := verifyBeforeRemoval_ok hu
  exact absurd hverify (h _)

theorem reports_removal_unverified {version : String} (deferLockedFiles : Bool) {e : SetupError}
    (h : verify env t version = .error e) :
    reports (removeManifestVerifiedGenerationWithPolicy env deferLockedFiles version)
      (fun _ u => u = t) t := by
  unfold removeManifestVerifiedGenerationWithPolicy verifyBeforeRemoval
  exact reports_bind (reports_atomic (show _ = Except.error e by rw [h]; rfl) rfl)

/-! ## Verification before removal -/

/-- Every removal of a file comes after the verification of its whole directory, with nothing but
removals of files of the same directory between. The newest event is the first. -/
inductive Justified (env : RepairEnvironment) : List RemovalEvent → Prop
  | nil : Justified env []
  | verified {version : String} {d : RuntimeDirectory} {receipt : RuntimeReceipt}
      {events : List RemovalEvent} (hversion : receipt.version.text = version)
      (hentries : verifyRuntimeEntries env.toStorageEnvironment receipt d = .ok ())
      (hevents : Justified env events) : Justified env (.verified version d receipt :: events)
  | removed {version : String} {entry : RuntimeEntry} {last : RemovalEvent}
      {events : List RemovalEvent} (hlast : last.version = version)
      (hevents : Justified env (last :: events)) :
      Justified env (.removed version entry :: last :: events)

/-- What was added to the history is justified. -/
def HistoryJustified (env : RepairEnvironment) (m t : ServiceRoot names) : Prop :=
  ∃ events, t.history = events ++ m.history ∧ Justified env events

/-- The history is justified, and its last event is one of the generation. -/
def RemovalUnderWay (env : RepairEnvironment) (version : String) (m t : ServiceRoot names) :
    Prop :=
  ∃ last events, t.history = last :: events ++ m.history ∧ Justified env (last :: events) ∧
    last.version = version

theorem RemovalUnderWay.justified {version : String} (h : RemovalUnderWay env version m t) :
    HistoryJustified env m t := by
  obtain ⟨last, events, hhistory, hjustified, _⟩ := h
  exact ⟨last :: events, hhistory, hjustified⟩

theorem removalUnderWay_of_removedPath {version : String} {path : GenerationPath}
    {u : ServiceRoot names} (ht : RemovalUnderWay env version m t)
    (h : removedPath version path t = .ok u) : RemovalUnderWay env version m u := by
  obtain ⟨last, events, hhistory, hjustified, hversion⟩ := ht
  rcases removedPath_cases h with ⟨entry, d, -, -, -, rfl⟩ | ⟨d, -, -, -, rfl⟩ | ⟨-, -, rfl⟩
  · have hadded : (t.eraseEntry version entry d).history =
        .removed version entry :: (last :: events) ++ m.history := by
      change RemovalEvent.removed version entry :: t.history = _
      rw [hhistory]
      rfl
    exact ⟨_, last :: events, hadded, .removed hversion hjustified, rfl⟩
  · exact ⟨last, events, hhistory, hjustified, hversion⟩
  · exact ⟨last, events, hhistory, hjustified, hversion⟩

/-- The removal takes no file before the directory was verified. -/
theorem maintains_removal_justified (version : String) (deferLockedFiles : Bool) :
    Maintains (HistoryJustified env m)
      (removeManifestVerifiedGenerationWithPolicy env deferLockedFiles version)
      fun _ => True := by
  intro s hs
  have hremoved : ∀ path (u v : ServiceRoot names), RemovalUnderWay env version m u →
      removedPath version path u = .ok v → RemovalUnderWay env version m v :=
    fun _ _ _ hu hv => removalUnderWay_of_removedPath hu hv
  have hdeferred : ∀ (u : ServiceRoot names) deferred, RemovalUnderWay env version m u →
      RemovalUnderWay env version m { u with deferredDeletions := deferred } := fun _ _ hu => hu
  unfold removeManifestVerifiedGenerationWithPolicy verifyBeforeRemoval
  refine wp_bind (wp_atomic (fun _ u hu => ?_) (fun _ _ => hs) hs hs)
  obtain ⟨d, receipt, hverify, rfl⟩ := verifyBeforeRemoval_ok hu
  obtain ⟨_, _, hversion, hentries⟩ := verify_ok_iff.1 hverify
  obtain ⟨events, hhistory, hjustified⟩ := hs
  have hstart : RemovalUnderWay env version m
      { s with history := .verified version d receipt :: s.history } := by
    refine ⟨_, events, ?_, .verified hversion hentries hjustified, rfl⟩
    rw [hhistory]
    rfl
  have hrest := @maintains_verifiedRemoval names env _ version deferLockedFiles hremoved hdeferred
  exact wp_mono (hrest _ hstart) (fun _ _ hu => ⟨trivial, hu.2.justified⟩)
    (fun _ _ hu => hu.justified) fun _ hu => hu.justified

/-! ## The removal without faults -/

theorem generation_removeDirectory (m : ServiceRoot names) (version : String) :
    (m.removeDirectory version).generation version = none := by
  unfold ServiceRoot.generation ServiceRoot.removeDirectory
  cases m.versions with
  | none => rfl
  | some folder => exact Folder.lookup_remove_self rfl

theorem receipt_removeReceipt (m : ServiceRoot names) (version : String) :
    (m.removeReceipt version).receipt version = none := by
  unfold ServiceRoot.receipt ServiceRoot.removeReceipt
  cases m.receipts with
  | none => rfl
  | some folder => exact Folder.lookup_remove_self rfl

theorem completes_removePath {version : String} {path : GenerationPath}
    {Q : Unit → ServiceRoot names → Prop} (h : removedPath version path m = .ok t) (hq : Q () t) :
    completes (removePath false version path) Q m := by
  have hnow : completes (removeNow version path) Q m :=
    completes_atomic (show _ = Except.ok ((), t) by rw [h]; rfl) hq
  exact completes_mapError hnow

theorem completes_removeFiles {version : String} (entries : List RuntimeEntry) :
    ∀ (t : ServiceRoot names) (d : RuntimeDirectory),
      t.generation version = some (.directory d) → entries.Nodup →
      (∀ entry ∈ entries, (d.content entry).isSome = true) →
      completes (removeFiles false version entries) (fun _ u => ∃ e,
        u.generation version = some (.directory e) ∧ u.receipt version = t.receipt version ∧
        e.temporaries = d.temporaries ∧ e.foreign = d.foreign ∧
        ∀ entry, e.content entry = if entry ∈ entries then none else d.content entry) t := by
  induction entries with
  | nil =>
    intro t d hd _ _
    exact completes_ret ⟨d, hd, rfl, rfl, rfl, fun entry => by simp⟩
  | cons entry rest ih =>
    intro t d hd hnodup hpresent
    rw [List.nodup_cons] at hnodup
    have hremoved : removedPath version (.file entry) t = .ok (t.eraseEntry version entry d) := by
      unfold removedPath
      rw [hd]
      exact bind_eq_ok.2 ⟨(), require_true _ (hpresent entry List.mem_cons_self), rfl⟩
    refine completes_bind (completes_removePath hremoved ?_)
    have hrest : ∀ other ∈ rest, ((d.erase entry).content other).isSome = true := by
      intro other hother
      have hne : other ≠ entry := fun heq => hnodup.1 (heq ▸ hother)
      rw [d.content_erase_of_ne hne]
      exact hpresent other (List.mem_cons_of_mem _ hother)
    refine completes_mono (ih _ _ (generation_eraseEntry hd) hnodup.2 hrest) fun _ u hu => ?_
    obtain ⟨e, he, hreceipt, htemporaries, hforeign, hcontent⟩ := hu
    refine ⟨e, he, hreceipt, ?_, ?_, fun other => ?_⟩
    · rw [htemporaries, d.temporaries_erase]
    · rw [hforeign, d.foreign_erase]
    · rw [hcontent other]
      by_cases hother : other = entry
      · rw [hother, d.content_erase_self]
        simp
      · rw [d.content_erase_of_ne hother]
        simp [hother]

/-- Neither the directory nor the receipt of a generation is left. -/
def Gone (version : String) (t : ServiceRoot names) : Prop :=
  t.generation version = none ∧ t.receipt version = none

theorem completes_removal {version : String} {verified : RuntimeDirectory × RuntimeReceipt}
    (h : verify env t version = .ok verified) :
    completes (removeManifestVerifiedGeneration env version) (fun _ => Gone version) t := by
  obtain ⟨d, receipt⟩ := verified
  obtain ⟨hd, ⟨file, hfile, _⟩, _, hentries⟩ := verify_ok_iff.1 h
  have hwhole := wholeDirectory_of_entries hentries
  unfold removeManifestVerifiedGeneration removeManifestVerifiedGenerationWithPolicy
    verifyBeforeRemoval
  refine completes_bind (completes_atomic (show _ = Except.ok ((), _) by rw [h]; rfl) ?_)
  refine completes_bind (completes_inspect (removableEntries_ok hd hwhole) ?_)
  refine completes_bind (completes_mono (completes_removeFiles (env.listing d) _ d hd
    (env.nodup_listing d) fun entry => (env.mem_listing d entry).1) fun _ u hu => ?_)
  obtain ⟨e, he, hreceipt, htemporaries, hforeign, hcontent⟩ := hu
  have hnone : ∀ entry, e.content entry = none := by
    intro entry
    rw [hcontent entry]
    by_cases hentry : entry ∈ env.listing d
    · exact if_pos hentry
    · rw [if_neg hentry]
      rw [env.mem_listing] at hentry
      simpa using hentry
  have hempty := RuntimeDirectory.entryCount_of_empty hnone (htemporaries.trans hwhole.temporaries)
    (hforeign.trans hwhole.foreign)
  have hdirectory : removedPath version .directory u = .ok (u.removeDirectory version) := by
    unfold removedPath
    rw [he]
    exact bind_eq_ok.2 ⟨(), require_true _ (beq_iff_eq.2 hempty), rfl⟩
  refine completes_bind (completes_removePath hdirectory ?_)
  have hpresent : ((u.removeDirectory version).receipt version).isSome = true := by
    change (u.receipt version).isSome = true
    rw [hreceipt]
    change (t.receipt version).isSome = true
    rw [hfile]
    rfl
  have hreceipts : removedPath version .receipt (u.removeDirectory version) =
      .ok ((u.removeDirectory version).removeReceipt version) :=
    bind_eq_ok.2 ⟨(), require_true _ hpresent, rfl⟩
  refine completes_removePath hreceipts ⟨?_, receipt_removeReceipt _ version⟩
  exact generation_removeDirectory u version

end MacTypeControl.Generations
