import MacTypeControl.Generations.Removal

/-!
# What retention spares

Retention protects the current generation, the one before it and the pinned ones. It compares
their versions with the names of the directories letter by letter, which is not how a file
system has to compare names, and it takes a file for absent where the system does not answer
whether it is there.
-/

namespace MacTypeControl.Generations

open Crash Crash.Prog Profile Storage Tables
open Installer (RepairEnvironment rememberedGeneration)

variable {names : FileNames} {env : RepairEnvironment} {m t : ServiceRoot names}

/-! ## The protected generations -/

/-- The versions that a retention has to spare. -/
inductive Protected (m : ServiceRoot names) (oldPointer : Option RuntimeVersion)
    (currentVersion : RuntimeVersion) : String → Prop
  | current : Protected m oldPointer currentVersion currentVersion.text
  | old {version : RuntimeVersion} (h : oldPointer.filter (· ≠ currentVersion) = some version) :
      Protected m oldPointer currentVersion version.text
  | previous {file : StoredFile RuntimeVersion} {version : RuntimeVersion}
      (h : oldPointer.filter (· ≠ currentVersion) = none) (hfile : m.previousRuntime = some file)
      (hparse : file.parse = some version) : Protected m oldPointer currentVersion version.text
  | pinned {folder : Folder names.compared (StoredFile MigrationRuntimePin)}
      {entry : FileName × StoredFile MigrationRuntimePin} {pin : MigrationRuntimePin}
      {runtime : MigrationPinnedRuntime} (hfolder : m.migrationPins = some folder)
      (hentry : entry ∈ folder.entries) (hparse : entry.2.parse = some pin)
      (hruntime : runtime ∈ pin.runtimes) :
      Protected m oldPointer currentVersion runtime.version

theorem addPinned_versions {pinned result : List MigrationPinnedRuntime}
    {runtime : MigrationPinnedRuntime} (h : addPinned env m pinned runtime = .ok result)
    (version : String) :
    (∃ other ∈ result, other.version = version) ↔
      (∃ other ∈ pinned, other.version = version) ∨ runtime.version = version := by
  unfold addPinned at h
  obtain ⟨_, _, h⟩ := bind_eq_ok.1 h
  split at h
  · next existing hfind =>
    obtain ⟨_, _, h⟩ := bind_eq_ok.1 h
    cases h
    have hmem := List.mem_of_find?_eq_some hfind
    have hversion : existing.version = runtime.version := by
      simpa using List.find?_some hfind
    refine (or_iff_left_of_imp fun heq => ?_).symm
    exact ⟨existing, hmem, hversion.trans heq⟩
  · obtain ⟨_, _, h⟩ := bind_eq_ok.1 h
    cases h
    simp only [List.mem_cons, exists_eq_or_imp, or_comm]

theorem readPin_parse {name : FileName} {file : StoredFile MigrationRuntimePin}
    {pin : MigrationRuntimePin} (h : readPin name file = .ok pin) : file.parse = some pin := by
  unfold readPin at h
  obtain ⟨nonce, _, h⟩ := bind_eq_ok.1 h
  split at h
  · cases h
  · next parsed hparse =>
    obtain ⟨_, _, h⟩ := bind_eq_ok.1 h
    obtain ⟨_, _, h⟩ := bind_eq_ok.1 h
    cases h
    exact hparse

theorem addPins_versions {pinned result : List MigrationPinnedRuntime}
    {entry : FileName × StoredFile MigrationRuntimePin}
    (h : addPins env m pinned entry = .ok result) (version : String) :
    (∃ other ∈ result, other.version = version) ↔
      (∃ other ∈ pinned, other.version = version) ∨
        ∃ pin, entry.2.parse = some pin ∧ ∃ runtime ∈ pin.runtimes, runtime.version = version := by
  unfold addPins at h
  obtain ⟨pin, hpin, h⟩ := bind_eq_ok.1 h
  have hparse := readPin_parse hpin
  rw [foldlM_collects (f := addPinned env m) (fun _ _ _ => addPinned_versions) h version]
  refine or_congr_right ⟨fun hruntime => ⟨pin, hparse, hruntime⟩, fun hruntime => ?_⟩
  obtain ⟨other, hother, hruntime⟩ := hruntime
  cases hparse.symm.trans hother
  exact hruntime

/-- The pins that are loaded are those of all pin files. -/
theorem loaded_versions {pinned : List MigrationPinnedRuntime}
    (h : loadVerifiedMigrationPins env m = .ok pinned) (version : String) :
    (∃ other ∈ pinned, other.version = version) ↔
      ∃ folder, m.migrationPins = some folder ∧ ∃ entry ∈ folder.entries, ∃ pin,
        entry.2.parse = some pin ∧ ∃ runtime ∈ pin.runtimes, runtime.version = version := by
  unfold loadVerifiedMigrationPins at h
  cases hfolder : m.migrationPins with
  | none =>
    rw [hfolder] at h
    cases h
    simp
  | some folder =>
    rw [hfolder] at h
    obtain ⟨_, _, h⟩ := bind_eq_ok.1 h
    rw [foldlM_collects (f := addPins env m) (fun _ _ _ => addPins_versions) h version]
    simp

/-- The generation that is remembered as the one before. -/
def previousVersion (m : ServiceRoot names) (oldPointer : Option RuntimeVersion)
    (currentVersion : RuntimeVersion) : Except SetupError (Option RuntimeVersion) :=
  match oldPointer.filter (· ≠ currentVersion) with
  | some previous => .ok (some previous)
  | none => match m.previousRuntime with
    | none => .ok none
    | some file => match file.parse with
      | none => .error (.runtime "active runtime pointer is invalid")
      | some previous => .ok (some previous)

variable {oldPointer previous : Option RuntimeVersion} {currentVersion : RuntimeVersion}
  {pinned : List MigrationPinnedRuntime}

/-- What retention retains are the versions it has to spare. -/
theorem mem_retainedVersions_iff
    (hprevious : previousVersion m oldPointer currentVersion = .ok previous)
    (hpinned : loadVerifiedMigrationPins env m = .ok pinned) (version : String) :
    version ∈ retainedVersions currentVersion previous pinned ↔
      Protected m oldPointer currentVersion version := by
  have hpins := loaded_versions hpinned version
  unfold retainedVersions
  rw [List.mem_cons, List.mem_append, List.mem_map, List.mem_map]
  unfold previousVersion at hprevious
  constructor
  · rintro (rfl | ⟨other, hother, rfl⟩ | hruntime)
    · exact .current
    · rw [Option.mem_toList] at hother
      obtain rfl : previous = some other := hother
      split at hprevious
      · next old hold =>
        cases hprevious
        exact .old hold
      · next hold =>
        split at hprevious
        · cases hprevious
        · next file hfile =>
          split at hprevious
          · cases hprevious
          · next hparse =>
            cases hprevious
            exact .previous hold hfile hparse
    · obtain ⟨folder, hfolder, entry, hentry, pin, hparse, runtime, hmem, rfl⟩ :=
        hpins.1 hruntime
      exact .pinned hfolder hentry hparse hmem
  · intro h
    cases h with
    | current => exact Or.inl rfl
    | old hold =>
      rw [hold] at hprevious
      cases hprevious
      exact Or.inr (Or.inl ⟨_, by simp, rfl⟩)
    | previous hold hfile hparse =>
      rw [hold, hfile] at hprevious
      simp only [hparse] at hprevious
      cases hprevious
      exact Or.inr (Or.inl ⟨_, by simp, rfl⟩)
    | pinned hfolder hentry hparse hruntime =>
      exact Or.inr (Or.inr (hpins.2 ⟨_, hfolder, _, hentry, _, hparse, _, hruntime, rfl⟩))

/-! ## The cleanup -/

/-- The file system takes the name for one that is protected. -/
def NamedLike (names : FileNames) (spared : String → Prop) (other : String) : Prop :=
  ∃ version, spared version ∧ names.compared (.unicode other) = names.compared (.unicode version)

theorem maintains_cleanupGeneration {I : ServiceRoot names → Prop} {retained : List String}
    {name : FileName}
    (h : ∀ version, name = .unicode version → version ∉ retained →
      validRuntimeVersionComponent version = true →
      Maintains I (removeManifestVerifiedGeneration env version) fun _ => True) :
    Maintains I (cleanupGeneration env retained name) fun _ => True := by
  cases name with
  | other units => exact maintains_ret trivial
  | unicode version =>
    exact maintains_whenever fun hstale => maintains_handle (h version rfl hstale.1 hstale.2)
      fun _ => maintains_ret trivial

theorem maintains_cleanup {I : ServiceRoot names → Prop} {retained : List String}
    {listed : List FileName}
    (h : ∀ version, .unicode version ∈ listed → version ∉ retained →
      validRuntimeVersionComponent version = true →
      Maintains I (removeManifestVerifiedGeneration env version) fun _ => True) :
    Maintains I (cleanupGenerations env retained listed) fun _ => True := by
  induction listed with
  | nil => exact maintains_ret trivial
  | cons name rest ih =>
    refine maintains_bind (maintains_cleanupGeneration fun version hname =>
      h version (hname ▸ List.mem_cons_self)) fun _ _ => ?_
    exact ih fun version hmem => h version (List.mem_cons_of_mem _ hmem)

/-- A directory that is not verified under its name is left alone, and so is a protected one. -/
theorem maintains_removal_spared {spelling : String} {spared : String → Prop}
    (hunverified : ∀ version, spared version →
      names.compared (.unicode spelling) = names.compared (.unicode version) →
      ∀ verified, verify env m spelling ≠ .ok verified) :
    Maintains (SameGenerations (NamedLike names spared) m)
      (removeManifestVerifiedGeneration env spelling) fun _ => True := by
  intro s hs
  by_cases hnamed : ∃ version, spared version ∧
      names.compared (.unicode spelling) = names.compared (.unicode version)
  · obtain ⟨version, hversion, hsame⟩ := hnamed
    have hverify : verify env s spelling = verify env m spelling :=
      (hs spelling ⟨version, hversion, hsame⟩).verify_eq
    refine wp_mono (wp_removal_unverified (Q := fun _ u => u = s) false ?_)
      (fun _ u hu => ⟨trivial, hu ▸ hs⟩) (fun _ u hu => hu ▸ hs) fun u hu => hu ▸ hs
    rw [hverify]
    exact hunverified version hversion hsame
  · have hapart : ∀ other, NamedLike names spared other → Apart names other spelling := by
      intro other hother heq
      obtain ⟨version, hversion, hsame⟩ := hother
      exact hnamed ⟨version, hversion, heq.symm.trans hsame⟩
    exact maintains_removal_other hapart false s hs

/-- Without faults a generation is removed or passed over. -/
theorem completes_cleanupGeneration (retained : List String) (name : FileName)
    (t : ServiceRoot names) :
    completes (cleanupGeneration env retained name) (fun _ _ => True) t := by
  cases name with
  | other units => exact completes_ret trivial
  | unicode version =>
    refine completes_whenever (fun _ => ?_) fun _ => trivial
    cases hverify : verify env t version with
    | ok verified =>
      exact completes_handle (completes_mono (completes_removal hverify) fun _ _ _ => trivial)
    | error e =>
      obtain ⟨e', u, hrun, _⟩ := reports_removal_unverified false hverify
      exact completes_handle_of_reports ⟨e', u, hrun, completes_ret trivial⟩

theorem completes_cleanup (retained : List String) (listed : List FileName) :
    ∀ t : ServiceRoot names, completes (cleanupGenerations env retained listed)
      (fun _ _ => True) t := by
  induction listed with
  | nil => exact fun t => completes_ret trivial
  | cons name rest ih =>
    exact fun t => completes_bind (completes_mono (completes_cleanupGeneration retained name t)
      fun _ u _ => ih u)

/-- A listed generation that is verified and not retained is removed. -/
theorem completes_cleanup_removed {retained : List String} {listed : List FileName}
    {spelling : String} (hdistinct : (listed.map names.compared).Nodup)
    (hmem : .unicode spelling ∈ listed) (hstale : spelling ∉ retained)
    (hvalid : validRuntimeVersionComponent spelling = true) :
    ∀ t : ServiceRoot names, (∃ verified, verify env t spelling = .ok verified) →
      completes (cleanupGenerations env retained listed) (fun _ => Gone spelling) t := by
  induction listed with
  | nil => exact absurd hmem List.not_mem_nil
  | cons name rest ih =>
    intro t hverified
    obtain ⟨hname, hnodup⟩ := List.nodup_cons.1 hdistinct
    by_cases heq : name = .unicode spelling
    · subst heq
      obtain ⟨verified, hverified⟩ := hverified
      have hremoved : completes (cleanupGeneration env retained (.unicode spelling))
          (fun _ => Gone spelling) t :=
        completes_whenever (fun _ => completes_handle (completes_removal hverified))
          fun h => absurd ⟨hstale, hvalid⟩ h
      refine completes_bind (completes_mono hremoved fun _ u hu => ?_)
      have hkept : Maintains (SameGenerations (· = spelling) u)
          (cleanupGenerations env retained rest) fun _ => True := by
        refine maintains_cleanup fun version hversion _ _ => ?_
        refine maintains_removal_other (fun other hother hsame => ?_) false
        subst hother
        exact hname (List.mem_map.2 ⟨_, hversion, hsame.symm⟩)
      refine completes_mono (completes_and_wp (completes_cleanup retained rest u)
        (hkept u (.refl _ u))) fun _ v hv => ?_
      have hsame := hv.2.2 spelling rfl
      exact ⟨hsame.1.trans hu.1, hsame.2.trans hu.2⟩
    · have hrest : .unicode spelling ∈ rest :=
        (List.mem_cons.1 hmem).resolve_left fun h => heq h.symm
      have hkept : Maintains (SameGenerations (· = spelling) t)
          (cleanupGeneration env retained name) fun _ => True := by
        refine maintains_cleanupGeneration fun version hversion _ _ => ?_
        refine maintains_removal_other (fun other hother hsame => ?_) false
        subst hother
        subst hversion
        exact hname (List.mem_map.2 ⟨_, hrest, hsame⟩)
      refine completes_bind (completes_mono (completes_and_wp
        (completes_cleanupGeneration retained name t) (hkept t (.refl _ t))) fun _ u hu => ?_)
      refine ih hnodup hrest u ?_
      rw [(hu.2.2 spelling rfl).verify_eq]
      exact hverified

/-! ## The whole retention -/

variable {answers : Answers}

theorem wp_previousGeneration :
    wp (previousGeneration answers oldPointer currentVersion) (fun result u =>
      previousVersion (m.seen answers) oldPointer currentVersion = .ok result ∧
        ∃ file, u = { m with previousRuntime := file }) (fun _ u => u = m) (fun u => u = m) m := by
  unfold previousGeneration rememberedGeneration previousVersion
  cases oldPointer.filter (· ≠ currentVersion) with
  | some old => exact wp_bind (wp_modify (wp_ret ⟨rfl, _, rfl⟩) rfl rfl)
  | none =>
    exact wp_inspect (fun result hresult => ⟨hresult, m.previousRuntime, rfl⟩) (fun _ _ => rfl)
      rfl rfl

theorem completes_previousGeneration
    (h : previousVersion (m.seen answers) oldPointer currentVersion = .ok previous) :
    completes (previousGeneration answers oldPointer currentVersion) (fun result u =>
      result = previous ∧ ∃ file, u = { m with previousRuntime := file }) m := by
  unfold previousGeneration rememberedGeneration
  unfold previousVersion at h
  split
  · next old hold =>
    rw [hold] at h
    cases h
    exact completes_bind (completes_modify (completes_ret ⟨rfl, _, rfl⟩))
  · next hold =>
    rw [hold] at h
    exact completes_inspect h ⟨rfl, m.previousRuntime, rfl⟩

/-- The names that the directory of the generations lists. -/
def ServiceRoot.generationNames (m : ServiceRoot names) : List FileName :=
  match m.versions with
  | none => []
  | some folder => folder.entries.map Prod.fst

theorem generationNames_of_listed {listed : List FileName} (h : listedGenerations m = .ok listed) :
    listed = m.generationNames := by
  unfold listedGenerations at h
  unfold ServiceRoot.generationNames
  cases hversions : m.versions with
  | none =>
    rw [hversions] at h
    exact (Except.ok.inj h).symm
  | some folder =>
    rw [hversions] at h
    obtain ⟨_, _, h⟩ := bind_eq_ok.1 h
    exact (Except.ok.inj h).symm

theorem generationNames_distinct (m : ServiceRoot names) :
    (m.generationNames.map names.compared).Nodup := by
  unfold ServiceRoot.generationNames
  cases m.versions with
  | none => exact List.nodup_nil
  | some folder =>
    rw [List.map_map]
    exact folder.distinct

/-- The protected generations are as they were, and no file was removed before its directory was
verified. -/
structure RetentionSafe (env : RepairEnvironment) (m : ServiceRoot names)
    (oldPointer : Option RuntimeVersion) (currentVersion : RuntimeVersion) (t : ServiceRoot names) :
    Prop where
  spared : ∀ version, Protected m oldPointer currentVersion version →
    t.generation version = m.generation version
  justified : HistoryJustified env m t

/-- Nothing keeps the retention from its cleanup. -/
def ReachesCleanup (env : RepairEnvironment) (m : ServiceRoot names)
    (oldPointer : Option RuntimeVersion) (currentVersion : RuntimeVersion) : Prop :=
  (∃ previous, previousVersion m oldPointer currentVersion = .ok previous) ∧
    (∃ pinned, loadVerifiedMigrationPins env m = .ok pinned) ∧
    ∃ listed, listedGenerations m = .ok listed

/-- A verified generation is listed under a name that the retention does not retain, and the file
system takes the name for a protected one. -/
structure Exposed (env : RepairEnvironment) (answers : Answers) (m : ServiceRoot names)
    (oldPointer : Option RuntimeVersion) (currentVersion : RuntimeVersion)
    (spelling version : String) : Prop where
  listed : .unicode spelling ∈ m.generationNames
  unretained : ¬Protected (m.seen answers) oldPointer currentVersion spelling
  valid : validRuntimeVersionComponent spelling = true
  verified : ∃ verified, verify env m spelling = .ok verified
  isProtected : Protected m oldPointer currentVersion version
  sameName : names.compared (.unicode spelling) = names.compared (.unicode version)

theorem generation_congr {a b : String}
    (h : names.compared (.unicode a) = names.compared (.unicode b)) :
    m.generation a = m.generation b := by
  unfold ServiceRoot.generation
  cases m.versions with
  | none => rfl
  | some folder => exact Folder.lookup_congr h

theorem wp_retainAsking_of_cleanup {I : ServiceRoot names → Prop}
    (hstart : ∀ file, I { m with previousRuntime := file })
    (hcleanup : answers.runtimeVersions = true → ∀ previous pinned listed,
      previousVersion (m.seen answers) oldPointer currentVersion = .ok previous →
      loadVerifiedMigrationPins env (m.seen answers) = .ok pinned →
      listedGenerations m = .ok listed →
      Maintains I (cleanupGenerations env (retainedVersions currentVersion previous pinned) listed)
        fun _ => True) :
    wp (retainAsking env answers oldPointer currentVersion) (fun _ => I) (fun _ => I) I m := by
  have hm : I m := hstart m.previousRuntime
  unfold retainAsking
  refine wp_bind (wp_mono wp_previousGeneration (fun previous u hu => ?_) (fun _ u hu => hu ▸ hm)
    fun u hu => hu ▸ hm)
  obtain ⟨hprevious, file, rfl⟩ := hu
  refine wp_bind (wp_inspect (fun pinned hpinned => ?_) (fun _ _ => hstart file) (hstart file)
    (hstart file))
  refine wp_bind (wp_inspect (fun listed hlisted => ?_) (fun _ _ => hstart file) (hstart file)
    (hstart file))
  cases hasked : answers.runtimeVersions with
  | false =>
    rw [hasked] at hlisted
    cases hlisted
    exact wp_ret (hstart file)
  | true =>
    rw [hasked] at hlisted
    exact wp_mono (hcleanup hasked previous pinned listed hprevious hpinned hlisted _ (hstart file))
      (fun _ _ hv => hv.2) (fun _ _ hv => hv) fun _ hv => hv

theorem wp_retain_of_cleanup {I : ServiceRoot names → Prop}
    (hstart : ∀ file, I { m with previousRuntime := file })
    (hcleanup : ∀ previous pinned listed,
      previousVersion m oldPointer currentVersion = .ok previous →
      loadVerifiedMigrationPins env m = .ok pinned → listedGenerations m = .ok listed →
      Maintains I (cleanupGenerations env (retainedVersions currentVersion previous pinned) listed)
        fun _ => True) :
    wp (retain env oldPointer currentVersion) (fun _ => I) (fun _ => I) I m :=
  wp_retainAsking_of_cleanup hstart fun _ => hcleanup

theorem wp_retainAsking_spared
    (h : answers.runtimeVersions = true →
      ReachesCleanup env (m.seen answers) oldPointer currentVersion →
      ∀ spelling version, ¬Exposed env answers m oldPointer currentVersion spelling version) :
    wp (retainAsking env answers oldPointer currentVersion)
      (fun _ => SameGenerations (NamedLike names (Protected m oldPointer currentVersion)) m)
      (fun _ => SameGenerations (NamedLike names (Protected m oldPointer currentVersion)) m)
      (SameGenerations (NamedLike names (Protected m oldPointer currentVersion)) m) m := by
  refine wp_retainAsking_of_cleanup (fun file _ _ => ⟨rfl, rfl⟩) fun hasked previous pinned listed
    hprevious hpinned hlisted => ?_
  refine maintains_cleanup fun spelling hmem hstale hvalid => ?_
  refine maintains_removal_spared fun version hversion hsame verified hverified => ?_
  rw [generationNames_of_listed hlisted] at hmem
  rw [mem_retainedVersions_iff hprevious hpinned] at hstale
  exact h hasked ⟨⟨_, hprevious⟩, ⟨_, hpinned⟩, _, hlisted⟩ spelling version
    ⟨hmem, hstale, hvalid, ⟨_, hverified⟩, hversion, hsame⟩

theorem wp_retainAsking_justified :
    wp (retainAsking env answers oldPointer currentVersion) (fun _ => HistoryJustified env m)
      (fun _ => HistoryJustified env m) (HistoryJustified env m) m :=
  wp_retainAsking_of_cleanup (fun _ => ⟨[], rfl, .nil⟩) fun _ _ _ _ _ _ _ =>
    maintains_cleanup fun spelling _ _ _ => maintains_removal_justified spelling false

/-- Without faults a retention that reaches its cleanup removes every listed generation that is
verified and not retained. -/
theorem completes_retain_removed (hasked : answers.runtimeVersions = true)
    (hreaches : ReachesCleanup env (m.seen answers) oldPointer currentVersion)
    {spelling : String} (hmem : .unicode spelling ∈ m.generationNames)
    (hstale : ¬Protected (m.seen answers) oldPointer currentVersion spelling)
    (hvalid : validRuntimeVersionComponent spelling = true)
    (hverified : ∃ verified, verify env m spelling = .ok verified) :
    completes (retainAsking env answers oldPointer currentVersion) (fun _ => Gone spelling) m := by
  obtain ⟨⟨previous, hprevious⟩, ⟨pinned, hpinned⟩, listed, hlisted⟩ := hreaches
  have hlisted : listedGenerations m = .ok listed := hlisted
  have hnames := generationNames_of_listed hlisted
  rw [← mem_retainedVersions_iff hprevious hpinned] at hstale
  unfold retainAsking
  refine completes_bind (completes_mono (completes_previousGeneration hprevious)
    fun result u hu => ?_)
  obtain ⟨rfl, file, rfl⟩ := hu
  refine completes_bind (completes_inspect hpinned ?_)
  refine completes_bind (completes_inspect (a := listed) ?_ ?_)
  · rw [hasked]
    exact hlisted
  · subst hnames
    exact completes_cleanup_removed (generationNames_distinct m) hmem hstale hvalid _ hverified

/-- Whatever else fails in it and whichever of its questions are answered, a retention spares the
protected generations and removes nothing unverified if and only if no protected generation is
listed under a name that is not among those it has read. -/
theorem retention_safe_iff (names : FileNames) (env : RepairEnvironment) (answers : Answers)
    (m : ServiceRoot names) (oldPointer : Option RuntimeVersion) (currentVersion : RuntimeVersion) :
    (∀ faults, RetentionSafe env m oldPointer currentVersion
      ((retainAsking env answers oldPointer currentVersion).result faults m).2) ↔
    (answers.runtimeVersions = true →
      ReachesCleanup env (m.seen answers) oldPointer currentVersion →
      ∀ spelling version, ¬Exposed env answers m oldPointer currentVersion spelling version) := by
  constructor
  · intro hsafe hasked hreaches spelling version hexposed
    obtain ⟨_, u, hrun, hgone⟩ := completes_retain_removed hasked hreaches hexposed.listed
      hexposed.unretained hexposed.valid hexposed.verified
    have hspared := (hsafe []).spared version hexposed.isProtected
    rw [show (retainAsking env answers oldPointer currentVersion).result [] m = _ from hrun]
      at hspared
    obtain ⟨⟨d, receipt⟩, hverified⟩ := hexposed.verified
    have hthere := (verify_ok_iff.1 hverified).1
    rw [generation_congr hexposed.sameName] at hthere
    rw [hthere, ← generation_congr hexposed.sameName, hgone.1] at hspared
    cases hspared
  · intro h faults
    have hsame := (wp_retainAsking_spared h).final faults
    refine ⟨fun version hversion => ?_, wp_retainAsking_justified.final faults⟩
    exact (hsame version ⟨version, hversion, rfl⟩).1

/-! ## A pointer in another case -/

/-- The file system does not tell letters by their case. -/
def caselessNames : FileNames where
  compared
    | .unicode text => .unicode (String.ofList (text.toList.map Char.toLower))
    | .other units => .other units
  compared_json a b h := by
    have htext := String.ofList_injective (FileName.unicode.inj h)
    rw [String.toList_append, String.toList_append, List.map_append, List.map_append] at htext
    change FileName.unicode (String.ofList (a.toList.map Char.toLower)) = _
    rw [List.append_cancel_right htext]

def candidateVersion : RuntimeVersion := ⟨"1.0.0-RC1", by decide⟩

def spelledVersion : RuntimeVersion := ⟨"1.0.0-rc1", by decide⟩

def storedDigest : Digest :=
  ⟨"sha256:4d4d4d4d4d4d4d4d4d4d4d4d4d4d4d4d4d4d4d4d4d4d4d4d4d4d4d4d4d4d4d4d", by decide⟩

/-- One digest for every content will do where nothing is altered. -/
def storeEnvironment : RepairEnvironment where
  sha256Digest _ := storedDigest
  temporaryNonce := "1-1"
  nonce_owned := ownedTemporary_first
  caughtWrites _ := []
  listing directory := runtimeEntries.filter fun entry => (directory.content entry).isSome
  mem_listing := Installer.mem_presentEntries
  nodup_listing := Installer.nodup_presentEntries
  nonce_length := Installer.firstNonce_length

def storedRuntime : RuntimeDirectory := ⟨fun _ => some [0x4D], none, [], []⟩

/-- The generation and its receipt are spelled in capitals, the pointer is not. -/
def spelledStore : ServiceRoot caselessNames where
  present := true
  versions := some ⟨[(.unicode "1.0.0-RC1", .directory storedRuntime)], by simp⟩
  receipts := some ⟨[(.unicode "1.0.0-RC1.json",
    .written ⟨candidateVersion, fun _ => storedDigest⟩)], by simp⟩
  migrationPins := none
  runtimePointer := some (.written spelledVersion)
  previousRuntime := none
  health := none
  pendingTransaction := false
  unexpected := []
  history := []
  deferredDeletions := []

/-- The current generation is removed. -/
theorem misspelled_generation_removed :
    ¬∀ faults, RetentionSafe storeEnvironment spelledStore none spelledVersion
      ((retain storeEnvironment none spelledVersion).result faults spelledStore).2 := by
  intro hclaim
  have hspared := (hclaim []).spared _ .current
  have hthere : (spelledStore.generation spelledVersion.text).isSome = true := by
    decide +kernel
  have hgone : (((retain storeEnvironment none spelledVersion).result [] spelledStore).2.generation
      spelledVersion.text).isNone = true := by
    decide +kernel
  rw [hspared, Option.isNone_iff_eq_none] at hgone
  rw [hgone] at hthere
  cases hthere

end MacTypeControl.Generations
