import MacTypeControl.Generations.OwnedRemoval
import MacTypeControl.Generations.Retention
import Mathlib.Data.List.Perm.Subperm

/-!
# How many generations a retention leaves

The pins may name as many generations as the contract allows, and the retention lists two more.
After an upgrade there can be three more: the current generation, the one before it, and the one
that was before that until now.
-/

namespace MacTypeControl.Generations

open Crash Crash.Prog Profile Storage Tables
open Installer (RepairEnvironment)

variable {names : FileNames} {env : RepairEnvironment} {m t u : ServiceRoot names}
  {old current : RuntimeVersion}

/-! ## What an upgrade leaves and what a retention has to make of it -/

/-- The names that the directory of the receipts lists. -/
def ServiceRoot.receiptNames (m : ServiceRoot names) : List FileName :=
  match m.receipts with
  | none => []
  | some folder => folder.entries.map Prod.fst

/-- The pins are accepted, every generation is as its receipt says, there is no receipt beside
those, and the pointer was on another generation before. -/
structure Upgraded (env : RepairEnvironment) (m : ServiceRoot names)
    (old current : RuntimeVersion) : Prop where
  replaced : old ≠ current
  pins : ∃ pinned, loadVerifiedMigrationPins env m = .ok pinned
  versions : m.versions.isSome = true
  receipts : m.receipts.isSome = true
  generations : ∀ name ∈ m.generationNames,
    ∃ version, name = .unicode version ∧ ∃ verified, verify env m version = .ok verified
  receipted : ∀ name ∈ m.receiptNames,
    ∃ version, name = receiptName version ∧ .unicode version ∈ m.generationNames

/-- Only generations that have to be spared are left, and an uninstallation accepts them. -/
structure Retained (env : RepairEnvironment) (m : ServiceRoot names)
    (old current : RuntimeVersion) (t : ServiceRoot names) : Prop where
  spared : ∀ name ∈ t.generationNames,
    ∃ version, name = .unicode version ∧ Protected m (some old) current version
  removable : ∃ versions, verifyRemovableGenerations env t = .ok versions

/-! ## Nothing is added -/

/-- What is listed now was listed before. -/
structure Shrunk (m t : ServiceRoot names) : Prop where
  versions : t.versions.isSome = m.versions.isSome
  receipts : t.receipts.isSome = m.receipts.isSome
  generationNames : t.generationNames.Sublist m.generationNames
  receiptNames : t.receiptNames.Sublist m.receiptNames

theorem Shrunk.trans (h : Shrunk m t) (h' : Shrunk t u) : Shrunk m u :=
  ⟨h'.versions.trans h.versions, h'.receipts.trans h.receipts,
    h'.generationNames.trans h.generationNames, h'.receiptNames.trans h.receiptNames⟩

theorem shrunk_of_removedPath {version : String} {path : GenerationPath}
    (h : removedPath version path m = .ok t) : Shrunk m t := by
  rcases removedPath_cases h with ⟨entry, d, -, -, -, rfl⟩ | ⟨d, -, -, -, rfl⟩ | ⟨-, -, rfl⟩
  · refine ⟨Option.isSome_map .., rfl, ?_, .refl _⟩
    unfold ServiceRoot.generationNames ServiceRoot.eraseEntry
    cases m.versions with
    | none => exact .refl _
    | some folder =>
      change ((folder.adjust _ _).entries.map Prod.fst).Sublist _
      rw [Folder.keys_adjust]
  · refine ⟨Option.isSome_map .., rfl, ?_, .refl _⟩
    unfold ServiceRoot.generationNames ServiceRoot.removeDirectory
    cases m.versions with
    | none => exact .refl _
    | some folder => exact List.filter_sublist.map Prod.fst
  · refine ⟨rfl, Option.isSome_map .., .refl _, ?_⟩
    unfold ServiceRoot.receiptNames ServiceRoot.removeReceipt
    cases m.receipts with
    | none => exact .refl _
    | some folder => exact List.filter_sublist.map Prod.fst

theorem maintains_removal_shrunk (version : String) :
    Maintains (Shrunk m) (removeManifestVerifiedGeneration env version) fun _ => True := by
  refine maintains_removal false (fun s events hs => ?_) (fun path s u hs hu => ?_)
    fun s deferred hs => ?_
  · exact hs.trans ⟨rfl, rfl, .refl _, .refl _⟩
  · exact hs.trans (shrunk_of_removedPath hu)
  · exact hs.trans ⟨rfl, rfl, .refl _, .refl _⟩

/-! ## The names of an upgraded store -/

theorem exists_generation_of_mem {version : String}
    (h : .unicode version ∈ m.generationNames) : ∃ entry, m.generation version = some entry := by
  unfold ServiceRoot.generationNames at h
  unfold ServiceRoot.generation
  cases hversions : m.versions with
  | none =>
    rw [hversions] at h
    exact absurd h List.not_mem_nil
  | some folder =>
    rw [hversions] at h
    obtain ⟨⟨name, entry⟩, hmem, rfl⟩ := List.mem_map.1 h
    exact ⟨entry, Folder.lookup_of_mem hmem⟩

theorem exists_mem_of_generation {version : String} {entry : VersionEntry}
    (h : m.generation version = some entry) :
    ∃ name ∈ m.generationNames, names.compared name = names.compared (.unicode version) := by
  unfold ServiceRoot.generation at h
  unfold ServiceRoot.generationNames
  cases hversions : m.versions with
  | none =>
    rw [hversions] at h
    cases h
  | some folder =>
    rw [hversions] at h
    obtain ⟨name, hmem, hname⟩ := Folder.exists_of_lookup h
    exact ⟨name, List.mem_map_of_mem hmem, hname⟩

theorem exists_receipt_of_mem {version : String}
    (h : receiptName version ∈ m.receiptNames) : ∃ file, m.receipt version = some file := by
  unfold ServiceRoot.receiptNames at h
  unfold ServiceRoot.receipt
  cases hreceipts : m.receipts with
  | none =>
    rw [hreceipts] at h
    exact absurd h List.not_mem_nil
  | some folder =>
    rw [hreceipts] at h
    obtain ⟨⟨name, file⟩, hmem, rfl⟩ := List.mem_map.1 h
    exact ⟨file, Folder.lookup_of_mem hmem⟩

theorem exists_mem_of_receipt {version : String} {file : StoredFile RuntimeReceipt}
    (h : m.receipt version = some file) :
    ∃ name ∈ m.receiptNames, names.compared name = names.compared (receiptName version) := by
  unfold ServiceRoot.receipt at h
  unfold ServiceRoot.receiptNames
  cases hreceipts : m.receipts with
  | none =>
    rw [hreceipts] at h
    cases h
  | some folder =>
    rw [hreceipts] at h
    obtain ⟨name, hmem, hname⟩ := Folder.exists_of_lookup h
    exact ⟨name, List.mem_map_of_mem hmem, hname⟩

theorem receiptName_injective : Function.Injective receiptName := by
  intro a b h
  have hstems := congrArg stripJson (FileName.unicode.inj h)
  rw [stripJson_append, stripJson_append] at hstems
  exact Option.some.inj hstems

/-- Two listed names that the file system takes for one are one. -/
theorem eq_of_generationNames {a b : FileName} (ha : a ∈ m.generationNames)
    (hb : b ∈ m.generationNames) (h : names.compared a = names.compared b) : a = b :=
  List.inj_on_of_nodup_map (generationNames_distinct m) ha hb h

theorem receiptNames_distinct (m : ServiceRoot names) :
    (m.receiptNames.map names.compared).Nodup := by
  unfold ServiceRoot.receiptNames
  cases m.receipts with
  | none => exact List.nodup_nil
  | some folder =>
    rw [List.map_map]
    exact folder.distinct

namespace Upgraded

variable (h : Upgraded env m old current)
include h

theorem verified {version : String} (hmem : .unicode version ∈ m.generationNames) :
    ∃ verified, verify env m version = .ok verified := by
  obtain ⟨_, hname, hverified⟩ := h.generations _ hmem
  cases hname
  exact hverified

theorem valid {version : String} (hmem : .unicode version ∈ m.generationNames) :
    validRuntimeVersionComponent version = true := by
  obtain ⟨⟨d, receipt⟩, hverified⟩ := h.verified hmem
  rw [← (verify_ok_iff.1 hverified).2.2.1]
  exact receipt.version.valid

theorem reachesCleanup (hcount : m.generationNames.length ≤ maxPinnedRuntimes + 2) :
    ReachesCleanup env m (some old) current := by
  have hprevious : (some old).filter (· ≠ current) = some old := by simp [h.replaced]
  refine ⟨⟨some old, ?_⟩, h.pins, m.generationNames, ?_⟩
  · unfold previousVersion
    rw [hprevious]
  · unfold listedGenerations
    unfold ServiceRoot.generationNames at hcount ⊢
    cases hversions : m.versions with
    | none => rfl
    | some folder =>
      rw [hversions, List.length_map] at hcount
      exact bind_eq_ok.2 ⟨(), require_true _ (decide_eq_true hcount), rfl⟩

/-- The name of the receipt of a generation. -/
def receiptOf : FileName → FileName
  | .unicode version => receiptName version
  | .other units => .other units

/-- There are no more receipts than generations. -/
theorem receipts_le : m.receiptNames.length ≤ m.generationNames.length := by
  have hsubset : m.receiptNames ⊆ m.generationNames.map receiptOf := by
    intro name hname
    obtain ⟨version, rfl, hversion⟩ := h.receipted name hname
    exact List.mem_map.2 ⟨_, hversion, rfl⟩
  have hnodup : m.receiptNames.Nodup := List.Nodup.of_map _ (receiptNames_distinct m)
  have hlength := (List.subperm_of_subset hnodup hsubset).length_le
  rwa [List.length_map] at hlength

end Upgraded

/-! ## The retention without faults -/

variable {oldPointer : Option RuntimeVersion}

theorem completes_retain (h : ReachesCleanup env m oldPointer current) :
    completes (retain env oldPointer current) (fun _ _ => True) m := by
  obtain ⟨⟨previous, hprevious⟩, ⟨pinned, hpinned⟩, listed, hlisted⟩ := h
  unfold retain
  refine completes_bind (completes_mono (completes_previousGeneration hprevious)
    fun result u hu => ?_)
  obtain ⟨rfl, file, rfl⟩ := hu
  refine completes_bind (completes_inspect hpinned ?_)
  exact completes_bind (completes_inspect hlisted (completes_cleanup _ _ _))

theorem wp_retain_shrunk :
    wp (retain env oldPointer current) (fun _ => Shrunk m) (fun _ => Shrunk m) (Shrunk m) m :=
  wp_retain_of_cleanup (fun _ => ⟨rfl, rfl, .refl _, .refl _⟩) fun _ _ _ _ _ _ =>
    maintains_cleanup fun version _ _ _ => maintains_removal_shrunk version

/-- A listed generation that has to be spared stays as it is. -/
theorem wp_retain_listed {version : String} (hmem : .unicode version ∈ m.generationNames)
    (hspared : Protected m oldPointer current version) :
    wp (retain env oldPointer current) (fun _ => SameGeneration version m)
      (fun _ => SameGeneration version m) (SameGeneration version m) m := by
  refine wp_retain_of_cleanup (fun _ => .refl _ _) fun previous pinned listed hprevious hpinned
    hlisted => ?_
  have hnames := generationNames_of_listed hlisted
  subst hnames
  have hkept : Maintains (SameGenerations (· = version) m) (cleanupGenerations env
      (retainedVersions current previous pinned) m.generationNames) fun _ => True := by
    refine maintains_cleanup fun spelling hspelling hstale _ => ?_
    refine maintains_removal_other (fun other hother hsame => ?_) false
    subst hother
    cases eq_of_generationNames hmem hspelling hsame
    exact hstale ((mem_retainedVersions_iff hprevious hpinned _).2 hspared)
  intro s hs
  have hstart : SameGenerations (· = version) m s := fun other hother => hother ▸ hs
  exact wp_mono (hkept s hstart) (fun _ _ ht => ⟨trivial, ht.2 version rfl⟩)
    (fun _ _ ht => ht version rfl) fun _ ht => ht version rfl

/-- What the store is after the retention: the generations to be spared are as they were, and the
others are gone. -/
structure Swept (m : ServiceRoot names) (old current : RuntimeVersion) (t : ServiceRoot names) :
    Prop where
  shrunk : Shrunk m t
  same : ∀ version, .unicode version ∈ m.generationNames →
    Protected m (some old) current version → SameGeneration version m t
  gone : ∀ version, .unicode version ∈ m.generationNames →
    ¬Protected m (some old) current version → Gone version t

theorem completes_retain_swept (h : Upgraded env m old current)
    (hcount : m.generationNames.length ≤ maxPinnedRuntimes + 2) :
    completes (retain env (some old) current) (fun _ => Swept m old current) m := by
  have hreaches := h.reachesCleanup hcount
  obtain ⟨a, t, hrun, _, hshrunk⟩ := completes_and_wp (completes_retain hreaches) wp_retain_shrunk
  refine ⟨a, t, hrun, hshrunk, fun version hmem hspared => ?_, fun version hmem hstale => ?_⟩
  · obtain ⟨b, u, hrun', _, hsame⟩ :=
      completes_and_wp (completes_retain hreaches) (wp_retain_listed hmem hspared)
    cases hrun.symm.trans hrun'
    exact hsame
  · have hasked : Answers.all.runtimeVersions = true := rfl
    obtain ⟨b, u, hrun', hgone⟩ :=
      completes_retain_removed hasked hreaches hmem hstale (h.valid hmem) (h.verified hmem)
    cases hrun.symm.trans hrun'
    exact hgone

/-! ## What an uninstallation finds -/

namespace Swept

variable (h : Upgraded env m old current) (hswept : Swept m old current t)
include h hswept

/-- A generation that is still listed is one of those to be spared, and still verified. -/
theorem listed {name : FileName} (hname : name ∈ t.generationNames) :
    ∃ version, name = .unicode version ∧ Protected m (some old) current version ∧
      validRuntimeVersionComponent version = true ∧
      ∃ verified, verify env t version = .ok verified := by
  have hmem := hswept.shrunk.generationNames.subset hname
  obtain ⟨version, rfl, hverified⟩ := h.generations name hmem
  have hspared : Protected m (some old) current version := by
    by_contra hstale
    obtain ⟨entry, hentry⟩ := exists_generation_of_mem hname
    rw [(hswept.gone version hmem hstale).1] at hentry
    cases hentry
  refine ⟨version, rfl, hspared, h.valid hmem, ?_⟩
  rw [(hswept.same version hmem hspared).verify_eq]
  exact hverified

/-- A receipt that is still listed is one of a generation that is. -/
theorem receipted {name : FileName} (hname : name ∈ t.receiptNames) :
    ∃ version, name = receiptName version ∧ .unicode version ∈ t.generationNames := by
  obtain ⟨version, rfl, hmem⟩ := h.receipted name (hswept.shrunk.receiptNames.subset hname)
  have hspared : Protected m (some old) current version := by
    by_contra hstale
    obtain ⟨file, hfile⟩ := exists_receipt_of_mem hname
    rw [(hswept.gone version hmem hstale).2] at hfile
    cases hfile
  obtain ⟨entry, hentry⟩ := exists_generation_of_mem hmem
  rw [← (hswept.same version hmem hspared).1] at hentry
  obtain ⟨other, hother, hsame⟩ := exists_mem_of_generation hentry
  cases eq_of_generationNames (hswept.shrunk.generationNames.subset hother) hmem hsame
  exact ⟨version, rfl, hother⟩

/-- Every generation that is still listed has its receipt. -/
theorem receipt_mem {version : String} (hmem : .unicode version ∈ t.generationNames) :
    receiptName version ∈ t.receiptNames := by
  obtain ⟨_, hname, _, _, ⟨d, receipt⟩, hverified⟩ := hswept.listed h hmem
  cases hname
  obtain ⟨file, hfile, _⟩ := (verify_ok_iff.1 hverified).2.1
  obtain ⟨name, hname, hsame⟩ := exists_mem_of_receipt hfile
  obtain ⟨other, rfl, hother⟩ := hswept.receipted h hname
  have hversion := eq_of_generationNames hother hmem (names.compared_json _ _ hsame)
  cases hversion
  exact hname

theorem removableVersion_of_mem {name : FileName} (hname : name ∈ t.generationNames) :
    ∃ version, removableVersion env t name = .ok version := by
  obtain ⟨version, rfl, _, hvalid, verified, hverified⟩ := hswept.listed h hname
  exact ⟨version, bind_eq_ok.2 ⟨(), require_true _ hvalid, bind_eq_ok.2 ⟨verified, hverified, rfl⟩⟩⟩

theorem receiptVersion_of_mem {name : FileName} (hname : name ∈ t.receiptNames) :
    ∃ version, receiptVersion name = .ok version := by
  obtain ⟨version, rfl, hmem⟩ := hswept.receipted h hname
  obtain ⟨_, heq, _, hvalid, _⟩ := hswept.listed h hmem
  cases heq
  refine ⟨version, ?_⟩
  unfold receiptVersion receiptName
  dsimp only
  rw [stripJson_append]
  exact bind_eq_ok.2 ⟨(), require_true _ hvalid, rfl⟩

/-- The uninstallation accepts the generations that are left, and how many they are. -/
theorem removable (hcount : m.generationNames.length ≤ maxPinnedRuntimes + 2) :
    ∃ versions, verifyRemovableGenerations env t = .ok versions := by
  obtain ⟨generations, hgenerations⟩ :=
    Option.isSome_iff_exists.1 (hswept.shrunk.versions.trans h.versions)
  obtain ⟨receipts, hreceipts⟩ :=
    Option.isSome_iff_exists.1 (hswept.shrunk.receipts.trans h.receipts)
  have hnames : t.generationNames = generations.entries.map Prod.fst := by
    unfold ServiceRoot.generationNames
    rw [hgenerations]
  have hreceiptNames : t.receiptNames = receipts.entries.map Prod.fst := by
    unfold ServiceRoot.receiptNames
    rw [hreceipts]
  have hlength : generations.entries.length ≤ maxPinnedRuntimes + 2 := by
    have hle := hswept.shrunk.generationNames.length_le.trans hcount
    rwa [hnames, List.length_map] at hle
  have hreceiptLength : receipts.entries.length ≤ maxPinnedRuntimes + 2 := by
    have hle := hswept.shrunk.receiptNames.length_le.trans (h.receipts_le.trans hcount)
    rwa [hreceiptNames, List.length_map] at hle
  have hversions : ∃ versions, (generations.entries.mapM fun entry =>
      removableVersion env t entry.1) = .ok versions :=
    exists_mapM_eq_ok fun entry hentry =>
      hswept.removableVersion_of_mem h (hnames ▸ List.mem_map_of_mem hentry)
  have hreceipted : ∃ receipted, (receipts.entries.mapM fun entry => receiptVersion entry.1) =
      .ok receipted :=
    exists_mapM_eq_ok fun entry hentry =>
      hswept.receiptVersion_of_mem h (hreceiptNames ▸ List.mem_map_of_mem hentry)
  obtain ⟨versions, hversions⟩ := hversions
  obtain ⟨receipted, hreceipted⟩ := hreceipted
  have hincluded : ∀ version ∈ receipted, version ∈ versions := by
    intro version hversion
    obtain ⟨entry, hentry, hstem⟩ := mem_of_mapM hreceipted hversion
    obtain ⟨other, hname, hmem⟩ :=
      hswept.receipted h (hreceiptNames ▸ List.mem_map_of_mem hentry)
    obtain rfl := receiptName_injective ((receiptVersion_ok hstem).symm.trans hname)
    obtain ⟨generation, hgeneration, hname⟩ := List.mem_map.1 (hnames ▸ hmem)
    obtain ⟨listed, hlisted, hremovable⟩ := ok_of_mem_mapM hversions hgeneration
    cases hname.symm.trans (removableVersion_ok hremovable).1
    exact hlisted
  have hcovered : ∀ version ∈ versions, version ∈ receipted := by
    intro version hversion
    obtain ⟨entry, hentry, hremovable⟩ := mem_of_mapM hversions hversion
    have hmem : .unicode version ∈ t.generationNames := by
      rw [← (removableVersion_ok hremovable).1, hnames]
      exact List.mem_map_of_mem hentry
    obtain ⟨receipt, hreceipt, hname⟩ := List.mem_map.1 (hreceiptNames ▸ hswept.receipt_mem h hmem)
    obtain ⟨listed, hlisted, hstem⟩ := ok_of_mem_mapM hreceipted hreceipt
    obtain rfl := receiptName_injective (hname.symm.trans (receiptVersion_ok hstem))
    exact hlisted
  unfold verifyRemovableGenerations
  rw [hgenerations, hreceipts]
  refine ⟨versions.mergeSort fun a b => decide (a ≤ b), ?_⟩
  refine bind_eq_ok.2 ⟨(), require_true _ (decide_eq_true hlength), ?_⟩
  refine bind_eq_ok.2 ⟨versions, hversions, ?_⟩
  refine bind_eq_ok.2 ⟨(), require_true _ (decide_eq_true hreceiptLength), ?_⟩
  refine bind_eq_ok.2 ⟨receipted, hreceipted, ?_⟩
  refine bind_eq_ok.2 ⟨(), require_true _ ?_, rfl⟩
  rw [Bool.and_eq_true, List.all_eq_true, List.all_eq_true]
  exact ⟨fun version hversion => decide_eq_true (hincluded version hversion),
    fun version hversion => decide_eq_true (hcovered version hversion)⟩

end Swept

/-! ## The limit -/

theorem upgraded_retained (h : Upgraded env m old current)
    (hcount : m.generationNames.length ≤ maxPinnedRuntimes + 2) :
    completes (retain env (some old) current) (fun _ => Retained env m old current) m := by
  refine completes_mono (completes_retain_swept h hcount) fun _ t hswept => ?_
  refine ⟨fun name hname => ?_, hswept.removable h hcount⟩
  obtain ⟨version, heq, hspared, _⟩ := hswept.listed h hname
  exact ⟨version, heq, hspared⟩

/-- With more generations than the retention lists it stops with an error. -/
theorem reports_retain_of_count {oldPointer : Option RuntimeVersion}
    (hprevious : ∃ previous, previousVersion m oldPointer current = .ok previous)
    (hpins : ∃ pinned, loadVerifiedMigrationPins env m = .ok pinned)
    (hcount : maxPinnedRuntimes + 2 < m.generationNames.length) :
    reports (retain env oldPointer current) (fun _ _ => True) m := by
  obtain ⟨previous, hprevious⟩ := hprevious
  obtain ⟨pinned, hpinned⟩ := hpins
  have hlisted : listedGenerations m =
      .error (.runtime "runtime retention generation count exceeds the fixed limit") := by
    unfold listedGenerations
    unfold ServiceRoot.generationNames at hcount
    cases hversions : m.versions with
    | none =>
      rw [hversions] at hcount
      exact absurd hcount (Nat.not_lt_zero _)
    | some folder =>
      rw [hversions, List.length_map] at hcount
      dsimp only
      rw [decide_eq_false (Nat.not_le.2 hcount)]
      rfl
  unfold retain
  refine reports_after (completes_mono (completes_previousGeneration hprevious)
    fun result u hu => ?_)
  obtain ⟨rfl, file, rfl⟩ := hu
  refine reports_after (completes_inspect hpinned ?_)
  exact reports_bind (reports_inspect hlisted trivial)

/-- The retention after an upgrade leaves what it has to spare, few enough for an uninstallation,
if and only if it finds no more generations than it lists. -/
theorem retention_after_upgrade_iff (names : FileNames) (env : RepairEnvironment)
    (m : ServiceRoot names) (old current : RuntimeVersion) (h : Upgraded env m old current) :
    completes (retain env (some old) current) (fun _ => Retained env m old current) m ↔
      m.generationNames.length ≤ maxPinnedRuntimes + 2 := by
  refine ⟨fun hcompletes => ?_, upgraded_retained h⟩
  by_contra hcount
  obtain ⟨a, t, hrun, _⟩ := hcompletes
  have hprevious : previousVersion m (some old) current = .ok (some old) := by
    unfold previousVersion
    rw [show (some old).filter (· ≠ current) = some old by simp [h.replaced]]
  obtain ⟨e, u, hrun', _⟩ :=
    reports_retain_of_count ⟨_, hprevious⟩ h.pins (Nat.not_le.1 hcount)
  cases hrun.symm.trans hrun'

/-! ## Pins that are accepted -/

/-- Distinct generations, each of them as its pin says, are all pinned. -/
theorem foldlM_addPinned {runtimes : List MigrationPinnedRuntime} :
    ∀ pinned : List MigrationPinnedRuntime,
      (∀ runtime ∈ runtimes, verifyPinnedRuntime env m runtime = .ok ()) →
      ((runtimes ++ pinned).map (·.version)).Nodup →
      runtimes.length + pinned.length ≤ maxPinnedRuntimes →
      ∃ result, runtimes.foldlM (addPinned env m) pinned = .ok result := by
  induction runtimes with
  | nil => exact fun pinned _ _ _ => ⟨pinned, rfl⟩
  | cons runtime rest ih =>
    intro pinned hverified hnodup hlength
    rw [List.length_cons] at hlength
    have hperm : (runtime :: rest ++ pinned).Perm (rest ++ runtime :: pinned) :=
      List.perm_middle.symm
    have hrest := (hperm.map (·.version)).nodup_iff.1 hnodup
    have hnew : pinned.find? (fun other => other.version == runtime.version) = none := by
      rw [List.find?_eq_none]
      intro other hother hsame
      rw [List.cons_append, List.map_cons, List.nodup_cons] at hnodup
      refine hnodup.1 (List.mem_map.2 ⟨other, List.mem_append_right _ hother, ?_⟩)
      exact beq_iff_eq.1 hsame
    have hadded : addPinned env m pinned runtime = .ok (runtime :: pinned) := by
      unfold addPinned
      rw [hnew]
      refine bind_eq_ok.2 ⟨(), hverified runtime List.mem_cons_self, ?_⟩
      exact bind_eq_ok.2 ⟨(), require_true _ (decide_eq_true (by omega)), rfl⟩
    obtain ⟨result, hresult⟩ := ih (runtime :: pinned)
      (fun other hother => hverified other (List.mem_cons_of_mem _ hother)) hrest
      (by rw [List.length_cons]; omega)
    exact ⟨result, bind_eq_ok.2 ⟨_, hadded, hresult⟩⟩

/-! ## Stores of pinned generations -/

/-- The file system compares names as they are. -/
def exactNames : FileNames where
  compared name := name
  compared_json a b h := by
    have htext := congrArg String.toList (FileName.unicode.inj h)
    rw [String.toList_append, String.toList_append] at htext
    rw [String.toList_injective (List.append_cancel_right htext)]

def pinName : String := "4d4d4d4d4d4d4d4d4d4d4d4d4d4d4d4d"

def storedPin (version : RuntimeVersion) : MigrationPinnedRuntime :=
  ⟨version.text, fun _ => storedDigest, none⟩

theorem nodup_generationNames {versions : List RuntimeVersion}
    (h : (versions.map (·.text)).Nodup) :
    (versions.map fun version => FileName.unicode version.text).Nodup := by
  have hnames := h.map fun _ _ => FileName.unicode.inj
  rwa [List.map_map] at hnames

theorem nodup_receiptNames {versions : List RuntimeVersion}
    (h : (versions.map (·.text)).Nodup) :
    (versions.map fun version => receiptName version.text).Nodup := by
  have hnames := h.map receiptName_injective
  rwa [List.map_map] at hnames

/-- The generations are all alike, and one migration has pinned some of them. -/
def pinnedStore (versions pinned : List RuntimeVersion)
    (hdistinct : (versions.map (·.text)).Nodup) : ServiceRoot exactNames where
  present := true
  versions := some ⟨versions.map fun version => (.unicode version.text, .directory storedRuntime), by
    rw [List.map_map]
    exact nodup_generationNames hdistinct⟩
  receipts := some ⟨versions.map fun version =>
    (receiptName version.text, .written ⟨version, fun _ => storedDigest⟩), by
    rw [List.map_map]
    exact nodup_receiptNames hdistinct⟩
  migrationPins := some ⟨[(receiptName pinName, .written ⟨pinName, pinned.map storedPin⟩)], by simp⟩
  runtimePointer := none
  previousRuntime := none
  health := none
  pendingTransaction := false
  unexpected := []
  history := []
  deferredDeletions := []

section

variable {versions pinned : List RuntimeVersion} {hdistinct : (versions.map (·.text)).Nodup}
  {version : RuntimeVersion}

theorem pinnedStore_generation (h : version ∈ versions) :
    (pinnedStore versions pinned hdistinct).generation version.text =
      some (.directory storedRuntime) := by
  unfold ServiceRoot.generation pinnedStore
  exact Folder.lookup_of_mem (List.mem_map.2 ⟨version, h, rfl⟩)

theorem pinnedStore_verified (h : version ∈ versions) :
    verify storeEnvironment (pinnedStore versions pinned hdistinct) version.text =
      .ok (storedRuntime, ⟨version, fun _ => storedDigest⟩) := by
  refine verify_ok_iff.2 ⟨pinnedStore_generation h, ⟨_, ?_, StoredFile.parse_written _⟩, rfl, rfl⟩
  unfold ServiceRoot.receipt pinnedStore
  exact Folder.lookup_of_mem (List.mem_map.2 ⟨version, h, rfl⟩)

theorem pinnedStore_pinned (h : version ∈ versions) :
    verifyPinnedRuntime storeEnvironment (pinnedStore versions pinned hdistinct)
      (storedPin version) = .ok () := by
  unfold verifyPinnedRuntime
  rw [show (storedPin version).version = version.text from rfl, pinnedStore_generation h]
  rfl

theorem pinnedStore_pins (hsubset : pinned ⊆ versions) (hnodup : (pinned.map (·.text)).Nodup)
    (hvalid : ∀ version ∈ pinned, validVersion version.text = true) (hnonempty : pinned ≠ [])
    (hlength : pinned.length ≤ maxPinnedRuntimes) :
    ∃ result, loadVerifiedMigrationPins storeEnvironment (pinnedStore versions pinned hdistinct) =
      .ok result := by
  have htexts : (pinned.map storedPin).map (·.version) = pinned.map (·.text) := by
    rw [List.map_map]
    rfl
  have hpin : MigrationRuntimePin.validate ⟨pinName, pinned.map storedPin⟩ = true := by
    have hname : validNonce pinName = true := by decide +kernel
    have hversions : ∀ runtime ∈ pinned.map storedPin, validVersion runtime.version = true := by
      intro runtime hruntime
      obtain ⟨version, hversion, rfl⟩ := List.mem_map.1 hruntime
      exact hvalid version hversion
    unfold MigrationRuntimePin.validate
    simp only [hname, htexts, Bool.and_eq_true, List.length_map, List.isEmpty_map,
      decide_eq_true_iff, List.all_eq_true, true_and]
    exact ⟨⟨⟨by simpa using hnonempty, hlength⟩, hversions⟩, hnodup⟩
  have hread : readPin (receiptName pinName) (.written ⟨pinName, pinned.map storedPin⟩) =
      .ok ⟨pinName, pinned.map storedPin⟩ := by
    unfold readPin
    have hnonce : pinNonce (receiptName pinName) = .ok pinName := by
      unfold pinNonce receiptName
      dsimp only
      rw [stripJson_append]
      exact bind_eq_ok.2 ⟨(), require_true _ (by decide +kernel), rfl⟩
    refine bind_eq_ok.2 ⟨pinName, hnonce, bind_eq_ok.2 ⟨(), require_true _ hpin, ?_⟩⟩
    exact bind_eq_ok.2 ⟨(), require_true _ (beq_self_eq_true _), rfl⟩
  have hruntimes : ∀ runtime ∈ pinned.map storedPin, verifyPinnedRuntime storeEnvironment
      (pinnedStore versions pinned hdistinct) runtime = .ok () := by
    intro runtime hruntime
    obtain ⟨version, hversion, rfl⟩ := List.mem_map.1 hruntime
    exact pinnedStore_pinned (hsubset hversion)
  obtain ⟨result, hresult⟩ := foldlM_addPinned [] hruntimes
    (by rw [List.append_nil, htexts]; exact hnodup)
    (by rw [List.length_map, List.length_nil, Nat.add_zero]; exact hlength)
  have hpins : addPins storeEnvironment (pinnedStore versions pinned hdistinct) []
      (receiptName pinName, .written ⟨pinName, pinned.map storedPin⟩) = .ok result :=
    bind_eq_ok.2 ⟨_, hread, hresult⟩
  refine ⟨result, bind_eq_ok.2 ⟨(), require_true _ rfl, ?_⟩⟩
  exact bind_eq_ok.2 ⟨result, hpins, rfl⟩

theorem pinnedStore_generationNames :
    (pinnedStore versions pinned hdistinct).generationNames =
      versions.map fun version => .unicode version.text := by
  unfold ServiceRoot.generationNames pinnedStore
  exact List.map_map

theorem pinnedStore_upgraded {old current : RuntimeVersion} (hreplaced : old ≠ current)
    (hsubset : pinned ⊆ versions) (hnodup : (pinned.map (·.text)).Nodup)
    (hvalid : ∀ version ∈ pinned, validVersion version.text = true) (hnonempty : pinned ≠ [])
    (hlength : pinned.length ≤ maxPinnedRuntimes) :
    Upgraded storeEnvironment (pinnedStore versions pinned hdistinct) old current where
  replaced := hreplaced
  pins := pinnedStore_pins hsubset hnodup hvalid hnonempty hlength
  versions := rfl
  receipts := rfl
  generations name hname := by
    rw [pinnedStore_generationNames] at hname
    obtain ⟨version, hversion, rfl⟩ := List.mem_map.1 hname
    exact ⟨_, rfl, _, pinnedStore_verified hversion⟩
  receipted name hname := by
    have hnames : (pinnedStore versions pinned hdistinct).receiptNames =
        versions.map fun version => receiptName version.text := by
      unfold ServiceRoot.receiptNames pinnedStore
      exact List.map_map
    rw [hnames] at hname
    obtain ⟨version, hversion, rfl⟩ := List.mem_map.1 hname
    rw [pinnedStore_generationNames]
    exact ⟨_, rfl, List.mem_map.2 ⟨version, hversion, rfl⟩⟩

end

def numberedText (n : ℕ) : String :=
  "1.0." ++ String.ofList [Nat.digitChar (n / 10 + 1), Nat.digitChar (n % 10)]

def numberedVersion (n : Fin 67) : RuntimeVersion := ⟨numberedText n, by revert n; decide +kernel⟩

/-- The number that both digits of the text make. -/
def versionNumber (text : String) : ℕ :=
  match text.toList.drop 4 with
  | [tens, ones] => (tens.toNat - '1'.toNat) * 10 + (ones.toNat - '0'.toNat)
  | _ => 0

theorem numberedVersions_nodup (numbers : List (Fin 67)) (h : numbers.Nodup) :
    ((numbers.map numberedVersion).map (·.text)).Nodup := by
  have hnumber : ∀ n : Fin 67, versionNumber (numberedVersion n).text = n := by decide +kernel
  have hapart : Function.Injective fun n => (numberedVersion n).text := by
    intro a b htext
    exact Fin.ext (((hnumber a).symm.trans (congrArg versionNumber htext)).trans (hnumber b))
  have htexts := h.map hapart
  rwa [List.map_map]

theorem numbered_upgraded (numbers pinned : List (Fin 67)) {old current : Fin 67}
    (hnumbers : numbers.Nodup) (hpinned : pinned.Sublist numbers) (hnonempty : pinned ≠ [])
    (hlength : pinned.length ≤ maxPinnedRuntimes) (hreplaced : old ≠ current) :
    Upgraded storeEnvironment (pinnedStore (numbers.map numberedVersion)
      (pinned.map numberedVersion) (numberedVersions_nodup numbers hnumbers))
      (numberedVersion old) (numberedVersion current) := by
  have hvalid : ∀ n, validVersion (numberedVersion n).text = true := by decide +kernel
  have hversions : numberedVersion old ≠ numberedVersion current := by
    intro heq
    have hnodup := numberedVersions_nodup [old, current] (by simpa using hreplaced)
    simp [heq] at hnodup
  refine pinnedStore_upgraded hversions
    (hpinned.map _).subset (numberedVersions_nodup pinned (hnumbers.sublist hpinned))
    (fun version hversion => ?_) (by simpa using hnonempty) (by simpa using hlength)
  obtain ⟨n, _, rfl⟩ := List.mem_map.1 hversion
  exact hvalid n

/-- One generation is pinned, beside the current one and the one before it. -/
def smallStore : ServiceRoot exactNames :=
  pinnedStore ([0, 1, 2].map numberedVersion) ([0].map numberedVersion)
    (numberedVersions_nodup _ (by decide))

theorem smallStore_retained :
    completes (retain storeEnvironment (some (numberedVersion 1)) (numberedVersion 2))
      (fun _ => Retained storeEnvironment smallStore (numberedVersion 1) (numberedVersion 2))
      smallStore :=
  (retention_after_upgrade_iff exactNames storeEnvironment smallStore (numberedVersion 1)
    (numberedVersion 2) (numbered_upgraded [0, 1, 2] [0] (by decide) (by decide) (by decide)
      (by decide) (by decide))).2 (by decide)

/-- As many generations are pinned as the contract allows, beside the current one, the one before
it and the one that was before that. -/
def fullStore : ServiceRoot exactNames :=
  pinnedStore ((List.finRange 67).map numberedVersion)
    (((List.finRange 67).take 64).map numberedVersion)
    (numberedVersions_nodup _ (List.nodup_finRange 67))

/-- The retention does not get to its cleanup. -/
theorem fullStore_not_retained :
    ¬∀ (names : FileNames) (env : RepairEnvironment) (m : ServiceRoot names)
      (old current : RuntimeVersion), Upgraded env m old current →
      completes (retain env (some old) current) (fun _ => Retained env m old current) m := by
  intro hclaim
  have hupgraded : Upgraded storeEnvironment fullStore (numberedVersion 65) (numberedVersion 66) :=
    numbered_upgraded (List.finRange 67) ((List.finRange 67).take 64) (List.nodup_finRange 67)
      (List.take_sublist 64 _) (by decide) (by decide) (by decide)
  have hprevious : previousVersion fullStore (some (numberedVersion 65)) (numberedVersion 66) =
      .ok (some (numberedVersion 65)) := by decide +kernel
  obtain ⟨a, t, hrun, _⟩ := hclaim _ _ _ _ _ hupgraded
  have hcount : maxPinnedRuntimes + 2 < fullStore.generationNames.length := by
    unfold fullStore
    rw [pinnedStore_generationNames, List.length_map, List.length_map, List.length_finRange]
    decide
  obtain ⟨e, u, hrun', _⟩ := reports_retain_of_count ⟨_, hprevious⟩ hupgraded.pins hcount
  cases hrun.symm.trans hrun'

end MacTypeControl.Generations
