import MacTypeControl.Protection.Storage
import Mathlib.Data.List.Sublists

/-!
# The rollback touches only what the migration owns

Whatever happens between the capture and the rollback, the rollback replaces a file
only while it holds what was recorded, and removes a generation only if it is new and
still as recorded.
-/

namespace MacTypeControl.Protection

open Crash Crash.Prog

variable {env : ProtectedEnvironment} {snapshot : ProtectedSnapshot} {profile : Bytes}
  {s t u : Protected} {d disk origin : ProtectedDisk} {receipt : ProtectedMutationReceipt}

/-- A migration: the capture of the disk `origin`, then any changes of the disk, by the
migration or by others, and any recordings, each failed or stopped anywhere. `disks` are
the states the disk has been in. -/
inductive MigrationRun (env : ProtectedEnvironment) (profile : Bytes) (origin : ProtectedDisk)
    (snapshot : ProtectedSnapshot) : List ProtectedDisk → Protected → Prop
  | captured (fs : List Fault) :
      ((captureProtectedState env).result fs ⟨origin, emptyReceipt⟩).1 = .done snapshot →
      MigrationRun env profile origin snapshot [origin] ⟨origin, emptyReceipt⟩
  | changed {disks : List ProtectedDisk} {s : Protected} (disk : ProtectedDisk) :
      MigrationRun env profile origin snapshot disks s →
      MigrationRun env profile origin snapshot (disk :: disks) ⟨disk, s.receipt⟩
  | recorded {disks : List ProtectedDisk} {s : Protected} (fs : List Fault) :
      MigrationRun env profile origin snapshot disks s →
      MigrationRun env profile origin snapshot disks
        ((recordProtectedMutations env snapshot profile).result fs s).2

/-- The snapshot is what was on the disk. -/
structure Captures (disk : ProtectedDisk) (snapshot : ProtectedSnapshot) : Prop where
  runtimePointer : snapshot.runtimePointer = disk.runtimePointer
  activeProfile : snapshot.activeProfilePointer = disk.activeProfile
  previousProfile : snapshot.previousProfilePointer = disk.previousProfile
  runtimeGenerations : snapshot.runtimeGenerations = disk.runtimeVersions.names
  profileGenerations : snapshot.profileGenerations = disk.profileGenerations.names
  adjacentProfile : ∀ version content, snapshot.adjacentProfile = some (version, content) →
    version ∈ disk.runtimeVersions.names ∧ content = disk.read (.adjacentProfile version)

/-! ## What the rollback may do -/

/-- A file is as it was, or it held the recorded content and is as captured. -/
def FileTouched (captured : Option Bytes) (recorded : Option OptionalFileMutation)
    (old new : Option Bytes) : Prop :=
  new = old ∨ recorded = some ⟨old⟩ ∧ new = captured

def SameGeneration (root root' : GenerationRoot) (name : String) : Prop :=
  root'.directory name = root.directory name ∧ (name ∈ root'.names ↔ name ∈ root.names)

/-- The generation is new since the capture and its content is the recorded one. -/
def OwnedGeneration (env : ProtectedEnvironment) (before : List String)
    (receipts : List (String × Manifest)) (root : GenerationRoot) (name : String) : Prop :=
  name ∉ before ∧ ∃ directory recorded manifest, root.directory name = some directory ∧
    receipts.lookup name = some recorded ∧
    directory.mapM (manifestEntry env) = .ok manifest ∧ manifest.isPerm recorded = true

/-- An owned generation is removed, or its removal was caught with some files left. -/
def OwnRemoved (env : ProtectedEnvironment) (before : List String)
    (receipts : List (String × Manifest)) (root root' : GenerationRoot) (name : String) : Prop :=
  OwnedGeneration env before receipts root name ∧
    ∀ rest, root'.directory name = some rest →
      ∃ directory, root.directory name = some directory ∧ rest.Sublist directory

/-- The adjacent profile lay in this generation with its recorded content and is as
captured; nothing else in the generation is changed. -/
def AdjacentRestored (snapshot : ProtectedSnapshot) (recorded : Option OptionalFileMutation)
    (root root' : GenerationRoot) (name : String) : Prop :=
  (name ∈ root'.names ↔ name ∈ root.names) ∧ ∃ captured directory,
    snapshot.adjacentProfile = some (name, captured) ∧ root.directory name = some directory ∧
    recorded = some ⟨directory.lookup adjacentName⟩ ∧
    root'.directory name = some (setEntry directory adjacentName captured)

/-- What a rollback that ends anywhere has done to the disk. -/
structure OnlyOwnTouched (env : ProtectedEnvironment) (snapshot : ProtectedSnapshot)
    (receipt : ProtectedMutationReceipt) (d u : ProtectedDisk) : Prop where
  runtimePointer : FileTouched snapshot.runtimePointer receipt.runtimePointer
    d.runtimePointer u.runtimePointer
  activeProfile : FileTouched snapshot.activeProfilePointer receipt.activeProfilePointer
    d.activeProfile u.activeProfile
  previousProfile : FileTouched snapshot.previousProfilePointer receipt.previousProfilePointer
    d.previousProfile u.previousProfile
  runtimeVersions : ∀ name, SameGeneration d.runtimeVersions u.runtimeVersions name ∨
    OwnRemoved env snapshot.runtimeGenerations receipt.runtimeGenerations d.runtimeVersions
      u.runtimeVersions name ∨
    AdjacentRestored snapshot receipt.adjacentProfile d.runtimeVersions u.runtimeVersions name
  profileGenerations : ∀ name, SameGeneration d.profileGenerations u.profileGenerations name ∨
    OwnRemoved env snapshot.profileGenerations receipt.profileGenerations d.profileGenerations
      u.profileGenerations name

/-- What a rollback that completes has restored. -/
structure Restored (snapshot : ProtectedSnapshot) (d u : ProtectedDisk) : Prop where
  runtimePointer : u.runtimePointer = snapshot.runtimePointer
  activeProfile : u.activeProfile = snapshot.activeProfilePointer
  previousProfile : u.previousProfile = snapshot.previousProfilePointer
  adjacentProfile : ∀ version captured, snapshot.adjacentProfile = some (version, captured) →
    u.read (.adjacentProfile version) = captured
  runtimeVersions : ∀ name, name ∈ u.runtimeVersions.names ↔
    name ∈ d.runtimeVersions.names ∧ name ∈ snapshot.runtimeGenerations
  profileGenerations : ∀ name, name ∈ u.profileGenerations.names ↔
    name ∈ d.profileGenerations.names ∧ name ∈ snapshot.profileGenerations

/-- What the receipt of a migration holds: new generations only, an adjacent profile
only where one was captured, and in each case what was on the disk. -/
structure ReceiptOwned (env : ProtectedEnvironment) (snapshot : ProtectedSnapshot)
    (disks : List ProtectedDisk) (receipt : ProtectedMutationReceipt) : Prop where
  runtimePointer : ∀ mutation, receipt.runtimePointer = some mutation →
    ∃ disk ∈ disks, disk.runtimePointer = mutation.after
  activeProfile : ∀ mutation, receipt.activeProfilePointer = some mutation →
    ∃ disk ∈ disks, disk.activeProfile = mutation.after
  previousProfile : ∀ mutation, receipt.previousProfilePointer = some mutation →
    ∃ disk ∈ disks, disk.previousProfile = mutation.after
  adjacentProfile : ∀ mutation, receipt.adjacentProfile = some mutation →
    ∃ version captured, snapshot.adjacentProfile = some (version, captured) ∧
      ∃ disk ∈ disks, disk.read (.adjacentProfile version) = mutation.after
  runtimeGenerations : ∀ name manifest, (name, manifest) ∈ receipt.runtimeGenerations →
    name ∉ snapshot.runtimeGenerations ∧ ∃ disk ∈ disks,
      generationManifest env disk.runtimeVersions name maxRuntimeGenerationFiles = .ok manifest
  profileGenerations : ∀ name manifest, (name, manifest) ∈ receipt.profileGenerations →
    name ∉ snapshot.profileGenerations ∧ ∃ disk ∈ disks,
      generationManifest env disk.profileGenerations name maxProfileGenerationFiles =
        .ok manifest

theorem OnlyOwnTouched.refl : OnlyOwnTouched env snapshot receipt d d :=
  ⟨Or.inl rfl, Or.inl rfl, Or.inl rfl, fun _ => Or.inl ⟨rfl, Iff.rfl⟩,
    fun _ => Or.inl ⟨rfl, Iff.rfl⟩⟩

/-! ## Files -/

theorem readOptionalFile_ok {file : ProtectedFile} {maximum : ℕ} {content : Option Bytes}
    (h : readOptionalFile d file maximum = .ok content) : content = d.read file := by
  unfold readOptionalFile at h
  cases hread : d.read file with
  | none =>
    rw [hread] at h
    cases h
  | some bytes =>
    rw [hread] at h
    obtain ⟨_, _, h⟩ := bind_eq_ok.1 h
    obtain ⟨_, _, h⟩ := bind_eq_ok.1 h
    cases h
    rfl

theorem wp_pathExists {f : ProtectedDisk → Bool} {Q : Bool → Protected → Prop}
    {E : String → Protected → Prop} {C : Protected → Prop} (hasks : env.questionsFail = false)
    (h : Q (f s.disk) s) : wp (pathExists env f) Q E C s :=
  wp_ask h fun hfail => by rw [hasks] at hfail; cases hfail

/-- A file is read as it is where the question if it exists is answered. -/
theorem wp_snapshotOptionalFile {file : ProtectedFile} {maximum : ℕ}
    {Q : Option Bytes → Protected → Prop} {E : String → Protected → Prop}
    {C : Protected → Prop} (hasks : env.questionsFail = false) (h : Q (s.disk.read file) s)
    (herr : ∀ e, E e s) (hstop : C s) : wp (snapshotOptionalFile env file maximum) Q E C s := by
  apply wp_bind
  apply wp_pathExists hasks
  cases hread : s.disk.read file with
  | none => exact wp_ret (hread ▸ h)
  | some bytes =>
    refine wp_inspect (fun content hcontent => ?_) (fun e _ => herr e) (herr _) hstop
    rw [readOptionalFile_ok hcontent]
    exact h

theorem readGenerationDirectories_ok {root : GenerationRoot} {validName : String → Bool}
    {maximum : ℕ} {names : List String}
    (h : readGenerationDirectories root validName maximum = .ok names) : names = root.names := by
  obtain ⟨_, _, h⟩ := bind_eq_ok.1 h
  obtain ⟨_, _, h⟩ := bind_eq_ok.1 h
  cases h
  rfl

theorem wp_snapshotGenerationDirectories {kind : RootKind} {validName : String → Bool}
    {maximum : ℕ} {Q : List String → Protected → Prop} {E : String → Protected → Prop}
    {C : Protected → Prop} (hasks : env.questionsFail = false)
    (h : Q (s.disk.root kind).names s) (herr : ∀ e, E e s) (hstop : C s) :
    wp (snapshotGenerationDirectories env kind validName maximum) Q E C s := by
  apply wp_bind
  apply wp_pathExists hasks
  cases hpresent : (s.disk.root kind).present with
  | false =>
    have hnone : (s.disk.root kind).names = [] := by
      by_contra hnames
      rw [(s.disk.root kind).present_of_names hnames] at hpresent
      cases hpresent
    exact wp_ret (hnone ▸ h)
  | true =>
    refine wp_inspect (fun names hnames => ?_) (fun e _ => herr e) (herr _) hstop
    rw [readGenerationDirectories_ok hnames]
    exact h

/-- A plan that is not to leave the file alone means to bring back what was captured. -/
theorem planFileRollback_ok {before current : Option Bytes} {recorded : Option (Option Bytes)}
    {action : FileRollbackAction} (h : planFileRollback before recorded current = .ok action) :
    action = .noop ∧ current = before ∨
      current ≠ before ∧ recorded = some current ∧
        (action = .restore ∨ action = .remove ∧ before = none) := by
  unfold planFileRollback at h
  split at h
  · rename_i hsame
    cases h
    exact Or.inl ⟨rfl, hsame⟩
  · rename_i hdifferent
    split at h
    · rename_i hrecorded
      cases h
      refine Or.inr ⟨hdifferent, hrecorded, ?_⟩
      cases before with
      | none => exact Or.inr ⟨rfl, rfl⟩
      | some bytes => exact Or.inl rfl
    · cases h

/-- Restoring a file: it is as captured already, or it is replaced while it holds the
recorded content; otherwise nothing happens. -/
theorem wp_restoreReceiptedOptionalFile {file : ProtectedFile} {before : Option Bytes}
    {recorded : Option OptionalFileMutation} {maximum : ℕ} {Q : Unit → Protected → Prop}
    {E : String → Protected → Prop} {C : Protected → Prop} (hasks : env.questionsFail = false)
    (hnoop : s.disk.read file = before → Q () s)
    (hwrite : ∀ disk, s.disk.read file ≠ before → recorded = some ⟨s.disk.read file⟩ →
      s.disk.write before file = .ok disk → Q () { s with disk })
    (herr : ∀ e, E e s) (hstop : C s) :
    wp (restoreReceiptedOptionalFile env file before recorded maximum) Q E C s := by
  have hreplace : s.disk.read file ≠ before → recorded = some ⟨s.disk.read file⟩ →
      wp (writeFile file before) Q E C s := by
    intro hdifferent hrecorded
    apply wp_atomic _ (fun e _ => herr e) (herr _) hstop
    intro _ t ht
    cases hw : s.disk.write before file with
    | error e => rw [hw] at ht; cases ht
    | ok disk =>
      rw [hw] at ht
      cases ht
      exact hwrite disk hdifferent hrecorded hw
  -- A file that differs from a captured absence is there, so the second question says yes.
  have hrestore : s.disk.read file ≠ before → recorded = some ⟨s.disk.read file⟩ →
      wp (restoreOptionalFile env file before) Q E C s := by
    intro hdifferent hrecorded
    cases before with
    | some bytes => exact hreplace hdifferent hrecorded
    | none =>
      apply wp_bind
      apply wp_pathExists hasks
      rw [Option.isSome_iff_ne_none.2 hdifferent]
      exact hreplace hdifferent hrecorded
  apply wp_bind
  apply wp_snapshotOptionalFile hasks _ herr hstop
  apply wp_bind
  apply wp_ofExcept _ fun e _ => herr e
  intro action haction
  rcases planFileRollback_ok haction with ⟨rfl, hsame⟩ | ⟨hdifferent, hrecorded, haction'⟩
  · exact wp_ret (hnoop hsame)
  · have hrecorded : recorded = some ⟨s.disk.read file⟩ := by
      obtain ⟨mutation, hmutation, hafter⟩ := Option.map_eq_some_iff.1 hrecorded
      rw [hmutation, ← hafter]
    rcases haction' with rfl | ⟨rfl, rfl⟩
    · exact hrestore hdifferent hrecorded
    · exact hrestore hdifferent hrecorded

/-! ## Generations -/

theorem planGenerationCleanup_ok {before : List String} {receipts : List (String × Manifest)}
    {current : List (String × Manifest)} {removable : List String}
    (h : planGenerationCleanup before receipts current = .ok removable) :
    removable = (current.map Prod.fst).filter fun name => !before.contains name := by
  induction current generalizing removable with
  | nil =>
    cases h
    rfl
  | cons entry current ih =>
    obtain ⟨name, manifest⟩ := entry
    unfold planGenerationCleanup at h
    split at h
    · rename_i hbefore
      rw [ih h]
      simp only [List.map_cons, List.filter_cons, hbefore]
      rfl
    · rename_i hnew
      cases hrest : planGenerationCleanup before receipts current with
      | error e =>
        rw [hrest] at h
        split at h
        · split at h <;> cases h
        · cases h
      | ok rest =>
        rw [hrest] at h
        split at h
        · split at h
          · cases h
            rw [ih hrest]
            simp only [List.map_cons, List.filter_cons, hnew]
            rfl
          · cases h
        · cases h

variable {kind : RootKind} {before : List String} {receipts : List (String × Manifest)}
  {maximumFiles : ℕ} {root root' : GenerationRoot} {name : String}

@[simp] theorem root_withRoot (d : ProtectedDisk) (root : GenerationRoot) (kind : RootKind) :
    (d.withRoot root kind).root kind = root := by
  cases kind <;> rfl

@[simp] theorem withRoot_withRoot (d : ProtectedDisk) (root root' : GenerationRoot)
    (kind : RootKind) : (d.withRoot root kind).withRoot root' kind = d.withRoot root' kind := by
  cases kind <;> rfl

theorem withRoot_root (d : ProtectedDisk) (kind : RootKind) : d.withRoot (d.root kind) kind = d := by
  cases kind <;> rfl

/-- Every generation of the root is as it was or an owned one that is removed. -/
def RootTouched (env : ProtectedEnvironment) (before : List String)
    (receipts : List (String × Manifest)) (root root' : GenerationRoot) : Prop :=
  ∀ name, SameGeneration root root' name ∨ OwnRemoved env before receipts root root' name

theorem RootTouched.refl : RootTouched env before receipts root root :=
  fun _ => Or.inl ⟨rfl, Iff.rfl⟩

/-- Changing the directory of an owned generation to a part of what it is now. -/
theorem RootTouched.step (h : RootTouched env before receipts root root')
    {changed : GenerationRoot}
    (howned : SameGeneration root root' name → OwnedGeneration env before receipts root name)
    (hpart : ∀ rest, changed.directory name = some rest →
      ∃ directory, root'.directory name = some directory ∧ rest.Sublist directory)
    (hothers : ∀ other, other ≠ name → SameGeneration root' changed other) :
    RootTouched env before receipts root changed := by
  intro other
  by_cases hother : other = name
  · subst hother
    rcases h other with hsame | ⟨hown, hparts⟩
    · refine Or.inr ⟨howned hsame, fun rest hrest => ?_⟩
      obtain ⟨directory, hdirectory, hsub⟩ := hpart rest hrest
      exact ⟨directory, hsame.1 ▸ hdirectory, hsub⟩
    · refine Or.inr ⟨hown, fun rest hrest => ?_⟩
      obtain ⟨middle, hmiddle, hsub⟩ := hpart rest hrest
      obtain ⟨directory, hdirectory, hsub'⟩ := hparts middle hmiddle
      exact ⟨directory, hdirectory, hsub.trans hsub'⟩
  · obtain ⟨hdirectory, hnames⟩ := hothers other hother
    rcases h other with hsame | ⟨hown, hparts⟩
    · exact Or.inl ⟨hdirectory.trans hsame.1, hnames.trans hsame.2⟩
    · exact Or.inr ⟨hown, fun rest hrest => hparts rest (hdirectory ▸ hrest)⟩

theorem remove_others {other : String} (h : other ≠ name) :
    SameGeneration root (root.remove name) other := by
  refine ⟨Function.update_of_ne h _ _, ?_⟩
  simp [GenerationRoot.remove, h]

theorem update_others {other : String} (h : other ≠ name) (directory : Directory) :
    SameGeneration root (root.update name directory) other :=
  ⟨Function.update_of_ne h _ _, Iff.rfl⟩

theorem generationManifest_ok {manifest : Manifest}
    (h : generationManifest env root name maximumFiles = .ok manifest) :
    ∃ directory, root.directory name = some directory ∧
      directory.mapM (manifestEntry env) = .ok manifest := by
  unfold generationManifest at h
  cases hdirectory : root.directory name with
  | none => rw [hdirectory] at h; cases h
  | some directory =>
    rw [hdirectory] at h
    dsimp only at h
    obtain ⟨_, _, h⟩ := bind_eq_ok.1 h
    exact ⟨directory, rfl, h⟩

/-- What a phase that works on one root leaves: only that root is changed, and only in
its owned generations. -/
def Phase (env : ProtectedEnvironment) (kind : RootKind) (before : List String)
    (receipts : List (String × Manifest)) (s t : Protected) : Prop :=
  ∃ root, t = ⟨s.disk.withRoot root kind, s.receipt⟩ ∧
    RootTouched env before receipts (s.disk.root kind) root

theorem Phase.refl : Phase env kind before receipts s s :=
  ⟨s.disk.root kind, by rw [withRoot_root], RootTouched.refl⟩

theorem wp_removeGenerations (removable : List String) (hnew : ∀ name ∈ removable, name ∉ before)
    (h : Phase env kind before receipts s t) :
    wp (removeGenerations env kind receipts maximumFiles removable)
      (fun _ u => Phase env kind before receipts s u ∧
        ∀ name, name ∈ (u.disk.root kind).names ↔
          name ∈ (t.disk.root kind).names ∧ name ∉ removable)
      (fun _ => Phase env kind before receipts s) (Phase env kind before receipts s) t := by
  induction removable generalizing t with
  | nil => exact wp_ret ⟨h, by simp⟩
  | cons name removable ih =>
    have hself := h
    obtain ⟨root, rfl, htouched⟩ := h
    unfold removeGenerations
    cases hexpected : receipts.lookup name with
    | none => exact wp_throw hself
    | some expected =>
      apply wp_bind
      apply wp_inspect _ (fun _ _ => hself) hself hself
      intro manifest hmanifest
      simp only [root_withRoot] at hmanifest
      obtain ⟨directory, hdirectory, hentries⟩ := generationManifest_ok hmanifest
      apply wp_bind
      refine wp_ensure (fun hperm => ?_) fun _ => hself
      have howned : SameGeneration (s.disk.root kind) root name →
          OwnedGeneration env before receipts (s.disk.root kind) name := fun hsame =>
        ⟨hnew name (by simp), directory, expected, manifest, hsame.1 ▸ hdirectory, hexpected,
          hentries, hperm⟩
      have hremoved : Phase env kind before receipts s
          ⟨s.disk.withRoot (root.remove name) kind, s.receipt⟩ := by
        refine ⟨root.remove name, rfl, htouched.step howned ?_ fun _ => remove_others⟩
        intro rest hrest
        simp [GenerationRoot.remove] at hrest
      apply wp_bind
      apply wp_step
      · rintro _ u ⟨⟩
        simp only [withRoot_withRoot, root_withRoot]
        refine wp_mono (ih (fun other hother => hnew other (by simp [hother])) hremoved) ?_
          (fun _ _ h => h) fun _ h => h
        rintro _ v ⟨hv, hnames⟩
        refine ⟨hv, fun other => ?_⟩
        rw [hnames other]
        simp only [root_withRoot, GenerationRoot.remove, List.mem_filter, List.mem_cons, bne_iff_ne]
        tauto
      · simp
      · exact hself
      · exact hself
      · intro u hu
        simp only [root_withRoot, hdirectory, List.mem_map] at hu
        obtain ⟨rest, hrest, rfl⟩ := hu
        have hpart : Phase env kind before receipts s
            ⟨s.disk.withRoot (root.update name rest) kind, s.receipt⟩ := by
          refine ⟨root.update name rest, rfl,
            htouched.step howned ?_ fun _ hother => update_others hother rest⟩
          intro rest' hrest'
          simp only [GenerationRoot.update, Function.update_self, Option.some.injEq] at hrest'
          exact ⟨directory, hdirectory, hrest' ▸ List.mem_sublists.1 hrest⟩
        simp only [withRoot_withRoot]
        exact ⟨hpart, hpart⟩

theorem wp_currentManifests {E : String → Protected → Prop} {C : Protected → Prop}
    (herr : ∀ e, E e s) (hstop : C s) (names : List String) :
    wp (currentManifests env kind before maximumFiles names)
      (fun current t => t = s ∧ current.map Prod.fst = names) E C s := by
  induction names with
  | nil => exact wp_ret ⟨rfl, rfl⟩
  | cons name names ih =>
    have hone : wp (currentManifest env kind before maximumFiles name) (fun _ t => t = s) E C s := by
      unfold currentManifest
      split
      · exact wp_ret rfl
      · exact wp_inspect (fun _ _ => rfl) (fun e _ => herr e) (herr _) hstop
    apply wp_bind
    refine wp_mono hone ?_ (fun _ _ h => h) fun _ h => h
    rintro manifest _ rfl
    apply wp_bind
    refine wp_mono ih ?_ (fun _ _ h => h) fun _ h => h
    rintro rest _ ⟨rfl, hrest⟩
    exact wp_ret ⟨rfl, by simp [hrest]⟩

/-- Removing the generations of one root: a run that completes leaves exactly those
that existed before. -/
theorem wp_removeReceipted {validName : String → Bool} (hasks : env.questionsFail = false) :
    wp (removeReceiptedGenerationDirectories env kind before receipts validName maximumFiles)
      (fun _ u => Phase env kind before receipts s u ∧
        ∀ name, name ∈ (u.disk.root kind).names ↔
          name ∈ (s.disk.root kind).names ∧ name ∈ before)
      (fun _ => Phase env kind before receipts s) (Phase env kind before receipts s) s := by
  apply wp_bind
  apply wp_snapshotGenerationDirectories hasks _ (fun _ => Phase.refl) Phase.refl
  apply wp_bind
  refine wp_mono (wp_currentManifests (fun _ => Phase.refl) Phase.refl _) ?_
    (fun _ _ h => h) fun _ h => h
  rintro current u ⟨hu, hcurrent⟩
  subst hu
  apply wp_bind
  apply wp_ofExcept _ fun _ _ => Phase.refl
  intro removable hremovable
  have hremovable := planGenerationCleanup_ok hremovable
  rw [hcurrent] at hremovable
  have hmem : ∀ name, name ∈ removable ↔ name ∈ (u.disk.root kind).names ∧ name ∉ before := by
    intro name
    rw [hremovable]
    simp
  refine wp_mono (wp_removeGenerations removable (fun name h => ((hmem name).1 h).2) Phase.refl)
    ?_ (fun _ _ h => h) fun _ h => h
  rintro _ v ⟨hv, hleft⟩
  refine ⟨hv, fun name => ?_⟩
  rw [hleft name, hmem name]
  tauto

end MacTypeControl.Protection
