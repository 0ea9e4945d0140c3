import MacTypeControl.Generations.OwnedRemoval
import MacTypeControl.Generations.Retention

/-!
# A removal that stops part-way

A stale generation is verified as a whole and then deleted file by file. Where the deletion stops
after its first file, no later retention verifies what is left, and an uninstallation refuses it.
-/

namespace MacTypeControl.Generations

open Crash Crash.Prog Profile Storage Tables
open Installer (RepairEnvironment)

variable {names : FileNames} {env : RepairEnvironment} {m t u : ServiceRoot names}
  {version : String}

/-- Any number of retentions, each stopped or failed anywhere or completed. -/
inductive RetentionRuns (env : RepairEnvironment) (m : ServiceRoot names) : ServiceRoot names → Prop
  | start : RetentionRuns env m m
  | again {t : ServiceRoot names} (oldPointer : Option RuntimeVersion)
      (currentVersion : RuntimeVersion) (faults : List Fault) (h : RetentionRuns env m t) :
      RetentionRuns env m ((retain env oldPointer currentVersion).result faults t).2

/-! ## What a retention leaves of one generation -/

/-- No spelling of the name is verified. -/
def Unverified (env : RepairEnvironment) (version : String) (t : ServiceRoot names) : Prop :=
  ∀ spelling, names.compared (.unicode spelling) = names.compared (.unicode version) →
    ∀ verified, verify env t spelling ≠ .ok verified

/-- What is not verified under any spelling of its name no retention touches. -/
theorem retained_of_unverified (hunverified : Unverified env version t)
    (hruns : RetentionRuns env t u) :
    SameGenerations (NamedLike names (· = version)) t u := by
  induction hruns with
  | start => exact .refl _ t
  | again oldPointer currentVersion faults _ ih =>
    rename_i s _
    have hspelling : ∀ spelling, names.compared (.unicode spelling) =
        names.compared (.unicode version) → ∀ verified, verify env s spelling ≠ .ok verified := by
      intro spelling hsame
      rw [(ih spelling ⟨version, rfl, hsame⟩).verify_eq]
      exact hunverified spelling hsame
    have hrun : wp (retain env oldPointer currentVersion)
        (fun _ => SameGenerations (NamedLike names (· = version)) s)
        (fun _ => SameGenerations (NamedLike names (· = version)) s)
        (SameGenerations (NamedLike names (· = version)) s) s :=
      wp_retain_of_cleanup (fun _ _ _ => ⟨rfl, rfl⟩) fun _ _ _ _ _ _ =>
        maintains_cleanup fun spelling _ _ _ => maintains_removal_spared
          fun other hother hsame => hspelling spelling (hother ▸ hsame)
    exact fun other hother => (ih other hother).trans (hrun.final faults other hother)

/-- A directory that has lost a file of the runtime. -/
def Thinned (version : String) (t : ServiceRoot names) : Prop :=
  ∃ d, t.generation version = some (.directory d) ∧ ∃ file, d.files file = none

theorem Thinned.unverified (h : Thinned version t) : Unverified env version t := by
  intro spelling hsame verified hverified
  obtain ⟨d, hd, file, hfile⟩ := h
  obtain ⟨hd', _, _, hentries⟩ := verify_ok_iff.1 hverified
  rw [generation_congr hsame, hd] at hd'
  cases hd'
  have hthere := (wholeDirectory_of_entries hentries).files file
  rw [hfile] at hthere
  cases hthere

theorem unverified_of_missing (h : t.generation version = none) : Unverified env version t := by
  intro spelling hsame verified hverified
  have hd := (verify_ok_iff.1 hverified).1
  rw [generation_congr hsame, h] at hd
  cases hd

/-- The directory has at most lost some of its entries. -/
def Thinning (m : ServiceRoot names) (version : String) (before : RuntimeDirectory)
    (t : ServiceRoot names) : Prop :=
  ∃ d, t.generation version = some (.directory d) ∧ d.Within before ∧
    t.receipt version = m.receipt version

/-- What the removal of a verified generation can leave of it. -/
inductive Progress (m : ServiceRoot names) (version : String) (t : ServiceRoot names) : Prop
  | directory {before : RuntimeDirectory}
      (hbefore : m.generation version = some (.directory before))
      (hthinning : Thinning m version before t)
  | receipt (hd : t.generation version = none) (hreceipt : t.receipt version = m.receipt version)
  | gone (h : Gone version t)

theorem Progress.congr (h : Progress m version t) (hsame : SameGeneration version t u) :
    Progress m version u := by
  cases h with
  | directory hbefore hthinning =>
    obtain ⟨d, hd, hwithin, hreceipt⟩ := hthinning
    exact .directory hbefore ⟨d, hsame.1.trans hd, hwithin, hsame.2.trans hreceipt⟩
  | receipt hd hreceipt => exact .receipt (hsame.1.trans hd) (hsame.2.trans hreceipt)
  | gone h => exact .gone ⟨hsame.1.trans h.1, hsame.2.trans h.2⟩

theorem wp_removePath {path : GenerationPath} {Q : Unit → ServiceRoot names → Prop}
    {I : ServiceRoot names → Prop} (hremoved : ∀ u, removedPath version path t = .ok u → Q () u)
    (ht : I t) : wp (removePath false version path) Q (fun _ => I) I t := by
  have hnow : wp (removeNow version path) Q (fun _ => I) I t := by
    refine wp_atomic (fun a u hu => ?_) (fun _ _ => ht) ht ht
    cases hpath : removedPath version path t with
    | error e =>
      rw [hpath] at hu
      cases hu
    | ok v =>
      rw [hpath] at hu
      cases hu
      exact hremoved _ hpath
  exact wp_mapError hnow

/-- The generation is deleted in its order: the entries, the directory, the receipt. -/
theorem maintains_removal_progress :
    Maintains (Progress m version) (removeManifestVerifiedGeneration env version)
      fun _ => True := by
  intro s hs
  unfold removeManifestVerifiedGeneration removeManifestVerifiedGenerationWithPolicy
    verifyBeforeRemoval
  refine wp_bind (wp_atomic (fun a u hu => ?_) (fun _ _ => hs) hs hs)
  obtain ⟨d, receipt, hverified, rfl⟩ := verifyBeforeRemoval_ok hu
  have hd := (verify_ok_iff.1 hverified).1
  cases hs with
  | receipt hnone hreceipt =>
    rw [hnone] at hd
    cases hd
  | gone h =>
    rw [h.1] at hd
    cases hd
  | directory hbefore hthinning =>
    rename_i before
    -- While its entries are deleted the directory stays within the one that was verified.
    have hentry : ∀ entry (v w : ServiceRoot names), Thinning m version before v →
        removedPath version (.file entry) v = .ok w → Thinning m version before w := by
      rintro entry v w ⟨e, he, hwithin, hreceipt⟩ hw
      rcases removedPath_cases hw with ⟨other, e', _, he', _, rfl⟩ | ⟨_, hpath, _⟩ | ⟨hpath, _⟩
      · rw [he] at he'
        cases he'
        exact ⟨_, generation_eraseEntry he, hwithin.erase other, hreceipt⟩
      · cases hpath
      · cases hpath
    have hstart : Thinning m version before
        { s with history := .verified version d receipt :: s.history } := hthinning
    have hprogress : ∀ v, Thinning m version before v → Progress m version v :=
      fun _ hv => .directory hbefore hv
    refine wp_bind (wp_inspect (fun entries _ => ?_) (fun _ _ => hprogress _ hstart)
      (hprogress _ hstart) (hprogress _ hstart))
    refine wp_bind (wp_mono (maintains_removeFiles false hentry (fun _ _ hv => hv) entries _
      hstart) (fun _ v hv => ?_) (fun _ v hv => hprogress v hv) fun v hv => hprogress v hv)
    obtain ⟨_, e, he, hwithin, hreceipt⟩ := hv
    refine wp_bind (wp_removePath (fun w hw => ?_) (.directory hbefore ⟨e, he, hwithin, hreceipt⟩))
    rcases removedPath_cases hw with ⟨_, _, hpath, _⟩ | ⟨_, _, _, _, rfl⟩ | ⟨hpath, _⟩
    · cases hpath
    · have hleft : Progress m version (v.removeDirectory version) :=
        .receipt (generation_removeDirectory v version) hreceipt
      refine wp_removePath (fun w hw => ?_) hleft
      rcases removedPath_cases hw with ⟨_, _, hpath, _⟩ | ⟨_, hpath, _⟩ | ⟨_, _, rfl⟩
      · cases hpath
      · cases hpath
      · exact ⟨trivial, .gone ⟨generation_removeDirectory v version, receipt_removeReceipt _ _⟩⟩
    · cases hpath

/-- No other spelling of the name is listed. -/
def OneSpelling (version : String) (t : ServiceRoot names) : Prop :=
  ∀ name ∈ t.generationNames, names.compared name = names.compared (.unicode version) →
    name = .unicode version

theorem generationNames_of_removedPath {other : String} {path : GenerationPath}
    (h : removedPath other path t = .ok u) {name : FileName} (hname : name ∈ u.generationNames) :
    name ∈ t.generationNames := by
  rcases removedPath_cases h with ⟨entry, d, -, -, -, rfl⟩ | ⟨d, -, -, -, rfl⟩ | ⟨-, -, rfl⟩
  · unfold ServiceRoot.generationNames ServiceRoot.eraseEntry at *
    cases hversions : t.versions with
    | none =>
      rw [hversions] at hname
      exact hname
    | some folder =>
      rw [hversions] at hname
      simp only [Option.map_some, Folder.keys_adjust] at hname
      exact hname
  · unfold ServiceRoot.generationNames ServiceRoot.removeDirectory at *
    cases hversions : t.versions with
    | none =>
      rw [hversions] at hname
      exact hname
    | some folder =>
      rw [hversions] at hname
      simp only [Option.map_some] at hname
      obtain ⟨entry, hentry, rfl⟩ := List.mem_map.1 hname
      exact List.mem_map.2 ⟨entry, (List.mem_filter.1 hentry).1, rfl⟩
  · exact hname

theorem maintains_removal_oneSpelling (other : String) :
    Maintains (fun s : ServiceRoot names => OneSpelling version s)
      (removeManifestVerifiedGeneration env other) fun _ => True :=
  maintains_removal false (fun _ _ hs => hs) (fun _ _ _ hs hu name hname =>
    hs name (generationNames_of_removedPath hu hname)) fun _ _ hs => hs

theorem wp_retain_progress {oldPointer : Option RuntimeVersion} {currentVersion : RuntimeVersion}
    (ht : Progress m version t ∧ OneSpelling version t) :
    wp (retain env oldPointer currentVersion)
      (fun _ u => Progress m version u ∧ OneSpelling version u)
      (fun _ u => Progress m version u ∧ OneSpelling version u)
      (fun u => Progress m version u ∧ OneSpelling version u) t := by
  refine wp_retain_of_cleanup (fun file => ⟨ht.1.congr ⟨rfl, rfl⟩, ht.2⟩) fun previous pinned listed
    _ _ hlisted => ?_
  have hnames := generationNames_of_listed hlisted
  refine maintains_cleanup fun spelling hmem _ _ => ?_
  have hprogress : Maintains (Progress m version) (removeManifestVerifiedGeneration env spelling)
      fun _ => True := by
    by_cases heq : spelling = version
    · rw [heq]
      exact maintains_removal_progress
    · have hapart : ∀ other, other = version → Apart names other spelling := by
        rintro other rfl hsame
        exact heq (FileName.unicode.inj (ht.2 _ (hnames ▸ hmem) hsame.symm))
      intro s hs
      exact wp_mono (maintains_removal_other hapart false s (.refl _ s))
        (fun _ u hu => ⟨trivial, hs.congr (hu.2 version rfl)⟩)
        (fun _ u hu => hs.congr (hu version rfl)) fun u hu => hs.congr (hu version rfl)
  exact (hprogress.and (maintains_removal_oneSpelling spelling)).mono fun _ _ => trivial

theorem progress_of_runs {verified : RuntimeDirectory × RuntimeReceipt}
    (hverified : verify env m version = .ok verified)
    (hlisted : .unicode version ∈ m.generationNames) (hruns : RetentionRuns env m t) :
    Progress m version t ∧ OneSpelling version t := by
  induction hruns with
  | start =>
    obtain ⟨d, receipt⟩ := verified
    obtain ⟨hd, _, _, hentries⟩ := verify_ok_iff.1 hverified
    have hwhole := wholeDirectory_of_entries hentries
    refine ⟨.directory hd ⟨d, hd, ?_, rfl⟩, fun name hname hsame => ?_⟩
    · exact ⟨hwhole.temporaries, hwhole.foreign, fun _ => Or.inr rfl⟩
    · exact List.inj_on_of_nodup_map (generationNames_distinct m) hname hlisted hsame
  | again oldPointer currentVersion faults _ ih => exact (wp_retain_progress ih).final faults

/-! ## Recovering from it -/

/-- The generation is complete, or the next retention finishes its removal. -/
def Recovers (env : RepairEnvironment) (version : String) (t : ServiceRoot names) : Prop :=
  (∃ verified, verify env t version = .ok verified) ∨
    ∃ oldPointer currentVersion,
      Gone version ((retain env oldPointer currentVersion).calm t).2

/-- Whatever else the store holds, no retention removes the generation. -/
def NeverRemoved (env : RepairEnvironment) (version : String) (t : ServiceRoot names) : Prop :=
  ∀ s, SameGeneration version t s → ∀ u, RetentionRuns env s u → ¬Gone version u

/-- Whatever else the store holds, an uninstallation refuses it. -/
def BlocksUninstall (env : RepairEnvironment) (version : String) (t : ServiceRoot names) : Prop :=
  ∀ s, s.present = true → SameGeneration version t s → ∀ plan, prepareOwnedRemoval env s ≠ .ok plan

/-- Every file of the runtime is still in the directory. -/
def FilesLeft (version : String) (t : ServiceRoot names) : Prop :=
  ∃ d, t.generation version = some (.directory d) ∧ ∀ file, (d.files file).isSome = true

theorem Progress.cases (h : Progress m version t) :
    FilesLeft version t ∨ Gone version t ∨ Thinned version t ∨
      (t.generation version = none ∧ t.receipt version = m.receipt version) := by
  cases h with
  | directory hbefore hthinning =>
    obtain ⟨d, hd, _, _⟩ := hthinning
    by_cases hfiles : ∀ file, (d.files file).isSome = true
    · exact Or.inl ⟨d, hd, hfiles⟩
    · obtain ⟨file, hfile⟩ := not_forall.1 hfiles
      exact Or.inr (Or.inr (Or.inl ⟨d, hd, file, by simpa using hfile⟩))
  | receipt hd hreceipt => exact Or.inr (Or.inr (Or.inr ⟨hd, hreceipt⟩))
  | gone h => exact Or.inr (Or.inl h)

/-- What is left is neither a generation nor nothing. -/
def Remnant (version : String) (t : ServiceRoot names) : Prop :=
  Thinned version t ∨ (t.generation version = none ∧ (t.receipt version).isSome = true)

theorem Remnant.congr (h : Remnant version t) (hsame : SameGeneration version t u) :
    Remnant version u := by
  rcases h with ⟨d, hd, hfile⟩ | ⟨hd, hreceipt⟩
  · exact Or.inl ⟨d, hsame.1.trans hd, hfile⟩
  · exact Or.inr ⟨hsame.1.trans hd, hsame.2 ▸ hreceipt⟩

theorem Remnant.unverified (h : Remnant version t) : Unverified env version t := by
  rcases h with h | h
  · exact h.unverified
  · exact unverified_of_missing h.1

theorem Remnant.not_gone (h : Remnant version t) : ¬Gone version t := by
  intro hgone
  rcases h with ⟨d, hd, _⟩ | ⟨_, hreceipt⟩
  · rw [hgone.1] at hd
    cases hd
  · rw [hgone.2] at hreceipt
    cases hreceipt

theorem Remnant.neverRemoved (h : Remnant version t) : NeverRemoved env version t := by
  intro s hsame u hruns
  have hs := h.congr hsame
  have hkept := retained_of_unverified hs.unverified hruns version ⟨version, rfl, rfl⟩
  exact (hs.congr hkept).not_gone

theorem Remnant.blocksUninstall (h : Remnant version t) : BlocksUninstall env version t := by
  intro s hpresent hsame plan hplan
  have hs := h.congr hsame
  obtain ⟨versions, hversions⟩ := removable_of_plan hpresent hplan
  rcases hs with hthinned | ⟨hnone, hreceipt⟩
  · obtain ⟨d, hd, _⟩ := id hthinned
    obtain ⟨spelling, hspelling, verified, hverified⟩ := verified_of_removable hversions hd
    exact hthinned.unverified spelling hspelling verified hverified
  · obtain ⟨file, hfile⟩ := Option.isSome_iff_exists.1 hreceipt
    have hthere := generation_of_receipt hversions hfile
    rw [hnone] at hthere
    cases hthere

theorem Remnant.not_recovers (h : Remnant version t) : ¬Recovers env version t := by
  rintro (⟨verified, hverified⟩ | ⟨oldPointer, currentVersion, hgone⟩)
  · exact h.unverified version rfl verified hverified
  · exact h.neverRemoved t (.refl _ t) _ (.again oldPointer currentVersion [] .start) hgone

/-- A generation that has lost its generated profile at most is still verified. -/
theorem verifyEntries_of_within {storage : StorageEnvironment} {receipt : RuntimeReceipt}
    {d before : RuntimeDirectory} (hwithin : d.Within before)
    (hfiles : ∀ file, (d.files file).isSome = true)
    (h : Installer.verifyRuntimeEntries storage receipt before = .ok ()) :
    Installer.verifyRuntimeEntries storage receipt d = .ok () := by
  unfold Installer.verifyRuntimeEntries at h ⊢
  obtain ⟨_, _, h⟩ := bind_eq_ok.1 h
  obtain ⟨_, _, h⟩ := bind_eq_ok.1 h
  obtain ⟨_, _, h⟩ := bind_eq_ok.1 h
  obtain ⟨⟨⟩, hprofile, h⟩ := bind_eq_ok.1 h
  have hcount : d.runtimeFileCount = immutableRuntimeFiles.length :=
    List.length_filter_eq_length_iff.2 fun file _ => hfiles file
  have hmost := RuntimeDirectory.entryCount_le hwithin.temporaries hwithin.foreign
  have hleast : immutableRuntimeFiles.length ≤ d.entryCount := by
    unfold RuntimeDirectory.entryCount
    omega
  have hclean : (d.temporaries == [] && d.foreign == []) = true := by
    rw [hwithin.temporaries, hwithin.foreign]
    rfl
  have hprofile' : (d.profile.all fun bytes =>
      bytes != [] && decide (bytes.length ≤ maxProfileBytes)) = true := by
    rcases hwithin.content .profile with hnone | hsame
    · rw [show d.profile = none from hnone]
      rfl
    · rw [show d.profile = before.profile from hsame]
      exact ok_of_require hprofile
  refine bind_eq_ok.2 ⟨(), require_true _ (decide_eq_true hmost), ?_⟩
  refine bind_eq_ok.2 ⟨(), require_true _ (decide_eq_true hleast), ?_⟩
  refine bind_eq_ok.2 ⟨(), require_true _ hclean, ?_⟩
  refine bind_eq_ok.2 ⟨(), require_true _ hprofile', ?_⟩
  refine forM_eq_ok_iff.2 fun file hfile => ?_
  have hsame : d.files file = before.files file := by
    refine (hwithin.content (.file file)).resolve_left fun hnone => ?_
    have hthere := hfiles file
    rw [show d.files file = none from hnone] at hthere
    cases hthere
  have hbefore := forM_eq_ok_iff.1 h file hfile
  unfold Installer.verifyRuntimeFile at hbefore ⊢
  rw [hsame]
  exact hbefore

theorem verified_of_filesLeft {verified : RuntimeDirectory × RuntimeReceipt}
    (hverified : verify env m version = .ok verified) (hprogress : Progress m version t)
    (hleft : FilesLeft version t) : ∃ verified, verify env t version = .ok verified := by
  obtain ⟨d, hd, hfiles⟩ := hleft
  cases hprogress with
  | directory hbefore hthinning =>
    obtain ⟨d', hd', hwithin, hreceipt⟩ := hthinning
    rw [hd] at hd'
    cases hd'
    obtain ⟨before, receipt⟩ := verified
    obtain ⟨hbefore', ⟨file, hfile, hparse⟩, hversion, hentries⟩ := verify_ok_iff.1 hverified
    rw [hbefore] at hbefore'
    cases hbefore'
    exact ⟨(d, receipt), verify_ok_iff.2 ⟨hd, ⟨file, hreceipt.trans hfile, hparse⟩, hversion,
      verifyEntries_of_within hwithin hfiles hentries⟩⟩
  | receipt hnone _ =>
    rw [hnone] at hd
    cases hd
  | gone h =>
    rw [h.1] at hd
    cases hd

/-- The store with one generation and its receipt. -/
def soleGeneration (names : FileNames) (version : String) (d : RuntimeDirectory)
    (file : StoredFile RuntimeReceipt) : ServiceRoot names where
  present := true
  versions := some ⟨[(.unicode version, .directory d)], List.nodup_singleton _⟩
  receipts := some ⟨[(receiptName version, file)], List.nodup_singleton _⟩
  migrationPins := none
  runtimePointer := none
  previousRuntime := none
  health := none
  pendingTransaction := false
  unexpected := []
  history := []
  deferredDeletions := []

theorem not_blocks_of_verified {verified : RuntimeDirectory × RuntimeReceipt}
    (hverified : verify env t version = .ok verified) : ¬BlocksUninstall env version t := by
  obtain ⟨d, receipt⟩ := verified
  obtain ⟨hd, ⟨file, hfile, hparse⟩, hversion, hentries⟩ := verify_ok_iff.1 hverified
  have hgeneration : (soleGeneration names version d file).generation version =
      some (.directory d) := Folder.lookup_of_mem List.mem_cons_self
  have hreceipt : (soleGeneration names version d file).receipt version = some file :=
    Folder.lookup_of_mem List.mem_cons_self
  have hsame : SameGeneration version t (soleGeneration names version d file) :=
    ⟨hgeneration.trans hd.symm, hreceipt.trans hfile.symm⟩
  have hvalid : validRuntimeVersionComponent version = true := hversion ▸ receipt.version.valid
  have hremovable : removableVersion env (soleGeneration names version d file)
      (.unicode version) = .ok version := by
    refine bind_eq_ok.2 ⟨(), require_true _ hvalid, ?_⟩
    exact bind_eq_ok.2 ⟨_, hsame.verify_eq.trans hverified, rfl⟩
  have hstem : receiptVersion (receiptName version) = .ok version := by
    unfold receiptVersion receiptName
    simp only [stripJson_append]
    exact bind_eq_ok.2 ⟨(), require_true _ hvalid, rfl⟩
  have hgenerations : verifyRemovableGenerations env (soleGeneration names version d file) =
      .ok [version] := by
    unfold verifyRemovableGenerations soleGeneration
    dsimp only
    rw [List.mapM_cons, List.mapM_nil, List.mapM_cons, List.mapM_nil]
    have hcount : 1 ≤ maxPinnedRuntimes + 2 := by decide
    refine bind_eq_ok.2 ⟨(), require_true _ (decide_eq_true hcount), ?_⟩
    refine bind_eq_ok.2 ⟨[version], bind_eq_ok.2 ⟨version, hremovable, rfl⟩, ?_⟩
    refine bind_eq_ok.2 ⟨(), require_true _ (decide_eq_true hcount), ?_⟩
    refine bind_eq_ok.2 ⟨[version], bind_eq_ok.2 ⟨version, hstem, rfl⟩, ?_⟩
    exact bind_eq_ok.2 ⟨(), require_true _ (by simp), by simp⟩
  intro hblocks
  refine hblocks _ rfl hsame _ (?_ : _ = Except.ok (⟨true, [version], [], false, false, false, true,
    true, false⟩ : OwnedRemovalPlan))
  unfold prepareOwnedRemoval
  rw [if_neg (by simp [soleGeneration])]
  have hcount : 2 ≤ maxServiceRuntimeRootEntries := by decide
  refine bind_eq_ok.2 ⟨(), require_true _ (decide_eq_true hcount), ?_⟩
  refine bind_eq_ok.2 ⟨(), require_true _ rfl, ?_⟩
  refine bind_eq_ok.2 ⟨(), require_true _ rfl, ?_⟩
  exact bind_eq_ok.2 ⟨_, hgenerations, rfl⟩

theorem recovers_of_gone (h : Gone version t) (currentVersion : RuntimeVersion) :
    Recovers env version t := by
  have hruns : RetentionRuns env t ((retain env none currentVersion).calm t).2 :=
    .again none currentVersion [] .start
  have hkept := retained_of_unverified (unverified_of_missing h.1) hruns version ⟨version, rfl, rfl⟩
  exact Or.inr ⟨none, currentVersion, hkept.1.trans h.1, hkept.2.trans h.2⟩

/-- However often retentions are stopped, a generation that was verified is complete or its removal
is finished by the next one, and it is not stuck, if and only if none of its runtime files was
deleted or all of it was. -/
theorem stale_removal_recovers_iff {names : FileNames} (env : RepairEnvironment)
    {m t : ServiceRoot names} {version : String} {verified : RuntimeDirectory × RuntimeReceipt}
    (hverified : verify env m version = .ok verified)
    (hlisted : .unicode version ∈ m.generationNames) (hruns : RetentionRuns env m t) :
    (Recovers env version t ∧ ¬(NeverRemoved env version t ∧ BlocksUninstall env version t)) ↔
      FilesLeft version t ∨ Gone version t := by
  have hprogress := (progress_of_runs hverified hlisted hruns).1
  constructor
  · rintro ⟨hrecovers, hfree⟩
    rcases hprogress.cases with hleft | hgone | hthinned | ⟨hnone, hreceipt⟩
    · exact Or.inl hleft
    · exact Or.inr hgone
    · exact absurd hrecovers (Remnant.not_recovers (Or.inl hthinned))
    · have hremnant : Remnant version t := by
        obtain ⟨d, receipt⟩ := verified
        obtain ⟨_, ⟨file, hfile, _⟩, _⟩ := verify_ok_iff.1 hverified
        refine Or.inr ⟨hnone, ?_⟩
        rw [hreceipt, hfile]
        rfl
      exact absurd ⟨hremnant.neverRemoved, hremnant.blocksUninstall⟩ hfree
  · rintro (hleft | hgone)
    · obtain ⟨_, hstill⟩ := verified_of_filesLeft hverified hprogress hleft
      exact ⟨Or.inl ⟨_, hstill⟩, fun h => not_blocks_of_verified hstill h.2⟩
    · exact ⟨recovers_of_gone hgone verified.2.version, fun h =>
        h.1 t (.refl _ t) t .start hgone⟩

/-! ## A file that is in use -/

def nextVersion : RuntimeVersion := ⟨"2.0.0", by decide⟩

/-- The second file of the stale generation could not be deleted. -/
def interruptedStore : ServiceRoot caselessNames :=
  ((retain storeEnvironment none nextVersion).result (List.replicate 6 .none ++ [.fail 0])
    spelledStore).2

theorem interrupted_store_recovers_iff :
    (Recovers storeEnvironment "1.0.0-RC1" interruptedStore ∧
      ¬(NeverRemoved storeEnvironment "1.0.0-RC1" interruptedStore ∧
        BlocksUninstall storeEnvironment "1.0.0-RC1" interruptedStore)) ↔
      FilesLeft "1.0.0-RC1" interruptedStore ∨ Gone "1.0.0-RC1" interruptedStore :=
  stale_removal_recovers_iff storeEnvironment
    (show verify storeEnvironment spelledStore "1.0.0-RC1" =
      .ok (storedRuntime, ⟨candidateVersion, fun _ => storedDigest⟩) from rfl)
    List.mem_cons_self (.again none nextVersion (List.replicate 6 .none ++ [.fail 0]) .start)

/-- One of its files is gone: it is neither removed nor complete any more. -/
theorem interrupted_removal_does_not_recover :
    ¬∀ t, RetentionRuns storeEnvironment spelledStore t →
      Recovers storeEnvironment "1.0.0-RC1" t ∧
        ¬(NeverRemoved storeEnvironment "1.0.0-RC1" t ∧
          BlocksUninstall storeEnvironment "1.0.0-RC1" t) := by
  intro hclaim
  have hthinned : Thinned "1.0.0-RC1" interruptedStore := ⟨_, rfl, .service, rfl⟩
  have hremnant : Remnant "1.0.0-RC1" interruptedStore := Or.inl hthinned
  exact hremnant.not_recovers (hclaim interruptedStore
    (.again none nextVersion (List.replicate 6 .none ++ [.fail 0]) .start)).1

end MacTypeControl.Generations
