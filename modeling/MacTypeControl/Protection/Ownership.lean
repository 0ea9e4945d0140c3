import MacTypeControl.Protection.Rollback

/-!
# What a migration records is its own

The receipt of a migration names new generations only, and holds what was on the
disk when it was recorded; with it, the rollback restores or leaves alone.
-/

namespace MacTypeControl.Protection

open Crash Crash.Prog

variable {env : ProtectedEnvironment} {snapshot : ProtectedSnapshot} {profile : Bytes}
  {s t u : Protected} {d disk origin : ProtectedDisk} {disks : List ProtectedDisk}
  {receipt : ProtectedMutationReceipt}

/-! ## The receipt -/

theorem recordOptionalMutation_ok {recorded recorded' : Option OptionalFileMutation}
    {before after : Option Bytes} (h : recordOptionalMutation recorded before after = .ok recorded') :
    recorded' = recorded ∨ recorded' = some ⟨after⟩ := by
  unfold recordOptionalMutation at h
  split at h
  · cases h
    exact Or.inl rfl
  · split at h
    · split at h <;> cases h
      exact Or.inl rfl
    · cases h
      exact Or.inr rfl

theorem recordGenerationReceipt_ok {receipts receipts' : List (String × Manifest)} {name : String}
    {manifest : Manifest} (h : recordGenerationReceipt receipts name manifest = .ok receipts') :
    receipts' = receipts ∨ receipts' = (name, manifest) :: receipts := by
  unfold recordGenerationReceipt at h
  split at h
  · split at h <;> cases h
    exact Or.inl rfl
  · cases h
    exact Or.inr rfl

/-- The recording looks at one state of the disk and keeps the receipt owned. -/
def Recorded (env : ProtectedEnvironment) (snapshot : ProtectedSnapshot)
    (disks : List ProtectedDisk) (d : ProtectedDisk) (s : Protected) : Prop :=
  s.disk = d ∧ ReceiptOwned env snapshot disks s.receipt

theorem maintains_look {α : Type} {f : ProtectedDisk → Except String α} :
    Maintains (Recorded env snapshot disks d) (look f) fun a => f d = .ok a := by
  apply maintains_inspect
  rintro s a ⟨rfl, _⟩ h
  exact h

theorem maintains_snapshotOptionalFile {file : ProtectedFile} {maximum : ℕ}
    (hasks : env.questionsFail = false) :
    Maintains (Recorded env snapshot disks d) (snapshotOptionalFile env file maximum)
      fun content => content = d.read file := by
  rintro s ⟨rfl, howned⟩
  exact wp_snapshotOptionalFile hasks ⟨rfl, rfl, howned⟩ (fun _ => ⟨rfl, howned⟩) ⟨rfl, howned⟩

theorem maintains_snapshotGenerationDirectories {kind : RootKind} {validName : String → Bool}
    {maximum : ℕ} (hasks : env.questionsFail = false) :
    Maintains (Recorded env snapshot disks d)
      (snapshotGenerationDirectories env kind validName maximum)
      fun names => names = (d.root kind).names := by
  rintro s ⟨rfl, howned⟩
  exact wp_snapshotGenerationDirectories hasks ⟨rfl, rfl, howned⟩ (fun _ => ⟨rfl, howned⟩)
    ⟨rfl, howned⟩

theorem maintains_amend {f : ProtectedMutationReceipt → Except String ProtectedMutationReceipt}
    (h : ∀ receipt receipt', ReceiptOwned env snapshot disks receipt → f receipt = .ok receipt' →
      ReceiptOwned env snapshot disks receipt') :
    Maintains (Recorded env snapshot disks d) (amend f) fun _ => True := by
  apply maintains_change
  rintro s t ⟨rfl, howned⟩ ht
  cases hf : f s.receipt with
  | error e => rw [hf] at ht; cases ht
  | ok receipt =>
    rw [hf] at ht
    cases ht
    exact ⟨rfl, h _ _ howned hf⟩

/-- An adjacent profile is recorded only for the generation it was captured in. -/
def Capturable (snapshot : ProtectedSnapshot) : ProtectedFile → Prop
  | .adjacentProfile version => ∃ captured, snapshot.adjacentProfile = some (version, captured)
  | _ => True

theorem maintains_recordFile {file : ProtectedFile} {before after : Option Bytes} (hd : d ∈ disks)
    (hfile : Capturable snapshot file) (hafter : after = d.read file) :
    Maintains (Recorded env snapshot disks d) (recordFile file before after) fun _ => True := by
  subst hafter
  apply maintains_amend
  intro receipt receipt' howned h
  cases file with
  | runtimePointer =>
    cases hrecord : recordOptionalMutation receipt.runtimePointer before (d.read .runtimePointer)
      <;> rw [hrecord] at h <;> cases h
    rcases recordOptionalMutation_ok hrecord with rfl | rfl
    · exact howned
    · exact { howned with runtimePointer := by rintro _ ⟨⟩; exact ⟨d, hd, rfl⟩ }
  | activeProfile =>
    cases hrecord : recordOptionalMutation receipt.activeProfilePointer before
      (d.read .activeProfile) <;> rw [hrecord] at h <;> cases h
    rcases recordOptionalMutation_ok hrecord with rfl | rfl
    · exact howned
    · exact { howned with activeProfile := by rintro _ ⟨⟩; exact ⟨d, hd, rfl⟩ }
  | previousProfile =>
    cases hrecord : recordOptionalMutation receipt.previousProfilePointer before
      (d.read .previousProfile) <;> rw [hrecord] at h <;> cases h
    rcases recordOptionalMutation_ok hrecord with rfl | rfl
    · exact howned
    · exact { howned with previousProfile := by rintro _ ⟨⟩; exact ⟨d, hd, rfl⟩ }
  | adjacentProfile version =>
    obtain ⟨captured, hcaptured⟩ := hfile
    cases hrecord : recordOptionalMutation receipt.adjacentProfile before
      (d.read (.adjacentProfile version)) <;> rw [hrecord] at h <;> cases h
    rcases recordOptionalMutation_ok hrecord with rfl | rfl
    · exact howned
    · exact { howned with
        adjacentProfile := by rintro _ ⟨⟩; exact ⟨version, captured, hcaptured, d, hd, rfl⟩ }

theorem maintains_recordProfileGeneration {name : String} {manifest : Manifest} (hd : d ∈ disks)
    (hnew : name ∉ snapshot.profileGenerations)
    (hmanifest : generationManifest env d.profileGenerations name maxProfileGenerationFiles =
      .ok manifest) :
    Maintains (Recorded env snapshot disks d) (recordProfileGeneration name manifest)
      fun _ => True := by
  apply maintains_amend
  intro receipt receipt' howned h
  cases hrecord : recordGenerationReceipt receipt.profileGenerations name manifest
    <;> rw [hrecord] at h <;> cases h
  rcases recordGenerationReceipt_ok hrecord with rfl | rfl
  · exact howned
  · refine { howned with profileGenerations := ?_ }
    intro other found hfound
    rcases List.mem_cons.1 hfound with heq | hfound
    · cases heq
      exact ⟨hnew, d, hd, hmanifest⟩
    · exact howned.profileGenerations other found hfound

theorem maintains_recordRuntimeGeneration {name : String} {manifest : Manifest} (hd : d ∈ disks)
    (hnew : name ∉ snapshot.runtimeGenerations)
    (hmanifest : generationManifest env d.runtimeVersions name maxRuntimeGenerationFiles =
      .ok manifest) :
    Maintains (Recorded env snapshot disks d) (recordRuntimeGeneration name manifest)
      fun _ => True := by
  apply maintains_amend
  intro receipt receipt' howned h
  cases hrecord : recordGenerationReceipt receipt.runtimeGenerations name manifest
    <;> rw [hrecord] at h <;> cases h
  rcases recordGenerationReceipt_ok hrecord with rfl | rfl
  · exact howned
  · refine { howned with runtimeGenerations := ?_ }
    intro other found hfound
    rcases List.mem_cons.1 hfound with heq | hfound
    · cases heq
      exact ⟨hnew, d, hd, hmanifest⟩
    · exact howned.runtimeGenerations other found hfound

theorem maintains_recordGenerations {expected message : String}
    {manifestOf : String → ProtectedDisk → Except String Manifest}
    {record : String → Manifest → Recording Unit} {names : List String}
    (h : ∀ name manifest, name ∈ names → manifestOf name d = .ok manifest →
      Maintains (Recorded env snapshot disks d) (record name manifest) fun _ => True) :
    Maintains (Recorded env snapshot disks d)
      (recordGenerations expected message manifestOf record names) fun _ => True := by
  induction names with
  | nil => exact maintains_ret trivial
  | cons name names ih =>
    refine maintains_bind maintains_ensure fun _ _ => ?_
    refine maintains_bind maintains_look fun manifest hmanifest => ?_
    refine maintains_bind (h name manifest (by simp) hmanifest) fun _ _ => ?_
    exact ih fun other found hother => h other found (by simp [hother])

theorem profileGenerationManifest_ok {name : String} {manifest : Manifest}
    (h : profileGenerationManifest env profile name d = .ok manifest) :
    generationManifest env d.profileGenerations name maxProfileGenerationFiles = .ok manifest := by
  obtain ⟨found, hfound, h⟩ := bind_eq_ok.1 h
  obtain ⟨_, _, h⟩ := bind_eq_ok.1 h
  cases h
  exact hfound

theorem runtimeGenerationManifest_ok {bundled : BundledRuntimeManifest} {name : String}
    {manifest : Manifest} (h : runtimeGenerationManifest env bundled profile name d = .ok manifest) :
    generationManifest env d.runtimeVersions name maxRuntimeGenerationFiles = .ok manifest := by
  obtain ⟨found, hfound, h⟩ := bind_eq_ok.1 h
  obtain ⟨_, _, h⟩ := bind_eq_ok.1 h
  obtain ⟨_, _, h⟩ := bind_eq_ok.1 h
  cases h
  exact hfound

theorem maintains_readAdjacentProfile (hasks : env.questionsFail = false) :
    Maintains (Recorded env snapshot disks d) (readAdjacentProfile env snapshot) fun after =>
      ∀ version captured content, snapshot.adjacentProfile = some (version, captured) →
        after = some content → content = d.read (.adjacentProfile version) := by
  unfold readAdjacentProfile
  split
  · rename_i hnone
    exact maintains_ret (by simp [hnone])
  · rename_i version captured hsome
    refine maintains_bind (maintains_snapshotOptionalFile hasks) fun content hcontent =>
      maintains_ret ?_
    intro version' captured' content' hsome' hcontent'
    rw [hsome] at hsome'
    cases hsome'
    cases hcontent'
    exact hcontent

theorem maintains_recordAdjacentProfile {after : Option (Option Bytes)} (hd : d ∈ disks)
    (hafter : ∀ version captured content, snapshot.adjacentProfile = some (version, captured) →
      after = some content → content = d.read (.adjacentProfile version)) :
    Maintains (Recorded env snapshot disks d) (recordAdjacentProfile snapshot after)
      fun _ => True := by
  unfold recordAdjacentProfile
  split
  · rename_i version captured content hsome
    exact maintains_recordFile hd ⟨captured, hsome⟩ (hafter version captured content hsome rfl)
  · exact maintains_ret trivial

/-- Recording keeps the receipt owned, wherever it stops. -/
theorem maintains_recordProtectedMutations (hasks : env.questionsFail = false)
    (hd : d ∈ disks) :
    Maintains (Recorded env snapshot disks d) (recordProtectedMutations env snapshot profile)
      fun _ => True := by
  refine maintains_bind (maintains_snapshotOptionalFile hasks) fun runtimePointer hruntime => ?_
  refine maintains_bind (maintains_snapshotOptionalFile hasks) fun activeProfile hactive => ?_
  refine maintains_bind (maintains_snapshotOptionalFile hasks) fun previousProfile hprevious => ?_
  refine maintains_bind (maintains_readAdjacentProfile hasks) fun adjacentProfile hadjacent => ?_
  refine maintains_bind (maintains_snapshotGenerationDirectories hasks)
    fun runtimeGenerations _ => ?_
  refine maintains_bind (maintains_snapshotGenerationDirectories hasks)
    fun profileGenerations _ => ?_
  refine maintains_bind (maintains_recordFile hd trivial hruntime) fun _ _ => ?_
  refine maintains_bind (maintains_recordFile hd trivial hactive) fun _ _ => ?_
  refine maintains_bind (maintains_recordFile hd trivial hprevious) fun _ _ => ?_
  refine maintains_bind (maintains_recordAdjacentProfile hd hadjacent) fun _ _ => ?_
  refine maintains_bind (maintains_recordGenerations ?_) fun _ _ => ?_
  · intro name manifest hname hmanifest
    exact maintains_recordProfileGeneration hd (by simpa using (List.mem_filter.1 hname).2)
      (profileGenerationManifest_ok hmanifest)
  refine maintains_bind (maintains_ofExcept fun _ _ => trivial) fun bundled _ => ?_
  apply maintains_recordGenerations
  intro name manifest hname hmanifest
  exact maintains_recordRuntimeGeneration hd (by simpa using (List.mem_filter.1 hname).2)
    (runtimeGenerationManifest_ok hmanifest)

theorem ReceiptOwned.cons (h : ReceiptOwned env snapshot disks receipt) (disk : ProtectedDisk) :
    ReceiptOwned env snapshot (disk :: disks) receipt where
  runtimePointer mutation hm :=
    let ⟨found, hfound, heq⟩ := h.runtimePointer mutation hm
    ⟨found, by simp [hfound], heq⟩
  activeProfile mutation hm :=
    let ⟨found, hfound, heq⟩ := h.activeProfile mutation hm
    ⟨found, by simp [hfound], heq⟩
  previousProfile mutation hm :=
    let ⟨found, hfound, heq⟩ := h.previousProfile mutation hm
    ⟨found, by simp [hfound], heq⟩
  adjacentProfile mutation hm :=
    let ⟨version, captured, hsnapshot, found, hfound, heq⟩ := h.adjacentProfile mutation hm
    ⟨version, captured, hsnapshot, found, by simp [hfound], heq⟩
  runtimeGenerations name manifest hm :=
    let ⟨hnew, found, hfound, heq⟩ := h.runtimeGenerations name manifest hm
    ⟨hnew, found, by simp [hfound], heq⟩
  profileGenerations name manifest hm :=
    let ⟨hnew, found, hfound, heq⟩ := h.profileGenerations name manifest hm
    ⟨hnew, found, by simp [hfound], heq⟩

theorem ReceiptOwned.empty : ReceiptOwned env snapshot disks emptyReceipt := by
  constructor <;> simp [emptyReceipt]

/-- Whatever happens during a migration, its receipt stays owned. -/
theorem MigrationRun.receiptOwned (hasks : env.questionsFail = false)
    (h : MigrationRun env profile origin snapshot disks s) :
    s.disk ∈ disks ∧ ReceiptOwned env snapshot disks s.receipt := by
  induction h with
  | captured _ _ => exact ⟨by simp, ReceiptOwned.empty⟩
  | changed disk _ ih => exact ⟨by simp, ih.2.cons disk⟩
  | recorded fs _ ih =>
    have hmaintains : Maintains _ (recordProtectedMutations env snapshot profile) _ :=
      maintains_recordProtectedMutations hasks ih.1
    have hfinal := hmaintains.final ⟨rfl, ih.2⟩ fs
    exact ⟨hfinal.1 ▸ ih.1, hfinal.2⟩

/-! ## The rollback -/

/-- An interrupted restoration of a file has not touched it. -/
theorem wp_restoreFile {file : ProtectedFile} {before : Option Bytes}
    {recorded : Option OptionalFileMutation} {maximum : ℕ} (hasks : env.questionsFail = false) :
    wp (restoreReceiptedOptionalFile env file before recorded maximum)
      (fun _ t => t = s ∧ s.disk.read file = before ∨ ∃ disk, t = { s with disk } ∧
        recorded = some ⟨s.disk.read file⟩ ∧ s.disk.write before file = .ok disk)
      (fun _ t => t = s) (fun t => t = s) s := by
  apply wp_restoreReceiptedOptionalFile hasks
  · exact fun hsame => Or.inl ⟨rfl, hsame⟩
  · exact fun disk _ hrecorded hwrite => Or.inr ⟨disk, rfl, hrecorded, hwrite⟩
  · exact fun _ => rfl
  · rfl

/-- Restoring a pointer leaves what was captured. -/
theorem wp_restorePointer {file : ProtectedFile} {before : Option Bytes}
    {recorded : Option OptionalFileMutation} {maximum : ℕ} (hasks : env.questionsFail = false)
    (hpointer : s.disk.write (s.disk.read file) file = .ok s.disk) :
    wp (restoreReceiptedOptionalFile env file before recorded maximum)
      (fun _ t => ∃ disk, t = ⟨disk, s.receipt⟩ ∧ s.disk.write before file = .ok disk ∧
        FileTouched before recorded (s.disk.read file) before)
      (fun _ t => t = s) (fun t => t = s) s := by
  refine wp_mono (wp_restoreFile hasks) ?_ (fun _ _ h => h) fun _ h => h
  rintro _ t (⟨rfl, hsame⟩ | ⟨disk, rfl, hrecorded, hwrite⟩)
  · subst hsame
    exact ⟨t.disk, rfl, hpointer, Or.inl rfl⟩
  · exact ⟨disk, rfl, hwrite, Or.inr ⟨hrecorded, rfl⟩⟩

theorem Phase.runtimeTouched {s t : Protected}
    (hphase : Phase env .runtime snapshot.runtimeGenerations receipt.runtimeGenerations s t)
    (h : OnlyOwnTouched env snapshot receipt d s.disk)
    (hsame : s.disk.runtimeVersions = d.runtimeVersions) :
    OnlyOwnTouched env snapshot receipt d t.disk := by
  obtain ⟨root, rfl, htouched⟩ := hphase
  refine { h with runtimeVersions := fun name => ?_ }
  rw [← hsame]
  exact (htouched name).imp_right Or.inl

theorem Phase.profileTouched {s t : Protected}
    (hphase : Phase env .profile snapshot.profileGenerations receipt.profileGenerations s t)
    (h : OnlyOwnTouched env snapshot receipt d s.disk)
    (hsame : s.disk.profileGenerations = d.profileGenerations) :
    OnlyOwnTouched env snapshot receipt d t.disk := by
  obtain ⟨root, rfl, htouched⟩ := hphase
  refine { h with profileGenerations := fun name => ?_ }
  rw [← hsame]
  exact htouched name

/-- A generation that existed at the capture is still there untouched when the
adjacent profile is restored. -/
theorem OnlyOwnTouched.adjacent (h : OnlyOwnTouched env snapshot receipt d u.disk)
    {version : String} {captured : Option Bytes} {changed : ProtectedDisk}
    (hcaptured : snapshot.adjacentProfile = some (version, captured))
    (hsame : SameGeneration d.runtimeVersions u.disk.runtimeVersions version)
    (hrecorded : receipt.adjacentProfile = some ⟨u.disk.read (.adjacentProfile version)⟩)
    (hwrite : u.disk.write captured (.adjacentProfile version) = .ok changed) :
    OnlyOwnTouched env snapshot receipt d changed := by
  unfold ProtectedDisk.write at hwrite
  dsimp only at hwrite
  cases hdirectory : u.disk.runtimeVersions.directory version with
  | none =>
    rw [hdirectory] at hwrite
    dsimp only at hwrite
    split at hwrite <;> cases hwrite
    exact h
  | some directory =>
    rw [hdirectory] at hwrite
    cases hwrite
    refine { h with runtimeVersions := fun name => ?_ }
    by_cases hname : name = version
    · subst hname
      refine Or.inr (Or.inr ⟨hsame.2, captured, directory, hcaptured, hsame.1 ▸ hdirectory, ?_, ?_⟩)
      · simpa [ProtectedDisk.read, hdirectory] using hrecorded
      · exact Function.update_self _ _ _
    · have hother : SameGeneration u.disk.runtimeVersions
        (u.disk.runtimeVersions.update version (setEntry directory adjacentName captured)) name :=
        update_others hname _
      rcases h.runtimeVersions name with hkept | hremoved | ⟨hnames, other, found, hothers, _⟩
      · exact Or.inl ⟨hother.1.trans hkept.1, hother.2.trans hkept.2⟩
      · exact Or.inr (Or.inl ⟨hremoved.1, fun rest hrest => hremoved.2 rest (hother.1 ▸ hrest)⟩)
      · rw [hcaptured] at hothers
        cases hothers
        exact absurd rfl hname

theorem read_setEntry (directory : Directory) (content : Option Bytes) :
    (setEntry directory adjacentName content).lookup adjacentName = content := by
  unfold setEntry
  cases content with
  | some bytes => simp
  | none =>
    apply List.lookup_eq_none_iff.2
    intro entry hentry
    have hother := (List.mem_filter.1 hentry).2
    simp only [bne_iff_ne] at hother ⊢
    exact hother.symm

/-- Writing the adjacent profile writes it, and names no generation. -/
theorem write_adjacentProfile {version : String} {content : Option Bytes} {changed : ProtectedDisk}
    (h : d.write content (.adjacentProfile version) = .ok changed) :
    changed.read (.adjacentProfile version) = content ∧
      changed = { d with runtimeVersions := changed.runtimeVersions } ∧
      changed.runtimeVersions.names = d.runtimeVersions.names := by
  unfold ProtectedDisk.write at h
  dsimp only at h
  cases hdirectory : d.runtimeVersions.directory version with
  | none =>
    rw [hdirectory] at h
    dsimp only at h
    split at h <;> cases h
    rename_i hnone
    refine ⟨?_, rfl, rfl⟩
    simp only [ProtectedDisk.read, hdirectory]
    exact (Option.isNone_iff_eq_none.1 hnone).symm
  | some directory =>
    rw [hdirectory] at h
    cases h
    refine ⟨?_, rfl, rfl⟩
    simp [ProtectedDisk.read, GenerationRoot.update, read_setEntry]

/-- The rollback, from any state of the disk and with any fault. -/
theorem wp_restoreProtectedSnapshot (hasks : env.questionsFail = false)
    (hcaptured : ∀ version captured, snapshot.adjacentProfile = some (version, captured) →
      version ∈ snapshot.runtimeGenerations) :
    wp (restoreProtectedSnapshot env snapshot)
      (fun _ t => OnlyOwnTouched env snapshot s.receipt s.disk t.disk ∧
        Restored snapshot s.disk t.disk)
      (fun _ t => OnlyOwnTouched env snapshot s.receipt s.disk t.disk)
      (fun t => OnlyOwnTouched env snapshot s.receipt s.disk t.disk) s := by
  have hkept : ∀ (u : Protected) (d : ProtectedDisk), OnlyOwnTouched env snapshot s.receipt d u.disk →
      ∀ t, t = u → OnlyOwnTouched env snapshot s.receipt d t.disk := fun u d h t ht => ht ▸ h
  apply wp_bind
  apply wp_observe
  apply wp_bind
  refine wp_mono (wp_restorePointer hasks rfl) ?_ (fun _ => hkept s s.disk OnlyOwnTouched.refl)
    (hkept s s.disk OnlyOwnTouched.refl)
  rintro _ u ⟨_, rfl, ⟨⟩, hruntime⟩
  have htouched : OnlyOwnTouched env snapshot s.receipt s.disk
      { s.disk with runtimePointer := snapshot.runtimePointer } :=
    { OnlyOwnTouched.refl with runtimePointer := hruntime }
  apply wp_bind
  refine wp_mono (wp_restorePointer hasks rfl) ?_ (fun _ => hkept _ _ htouched) (hkept _ _ htouched)
  rintro _ u ⟨_, rfl, ⟨⟩, hactive⟩
  replace htouched : OnlyOwnTouched env snapshot s.receipt s.disk
      { s.disk with
        runtimePointer := snapshot.runtimePointer, activeProfile := snapshot.activeProfilePointer } :=
    { htouched with activeProfile := hactive }
  apply wp_bind
  refine wp_mono (wp_restorePointer hasks rfl) ?_ (fun _ => hkept _ _ htouched) (hkept _ _ htouched)
  rintro _ u ⟨_, rfl, ⟨⟩, hprevious⟩
  replace htouched : OnlyOwnTouched env snapshot s.receipt s.disk
      { s.disk with
        runtimePointer := snapshot.runtimePointer, activeProfile := snapshot.activeProfilePointer,
        previousProfile := snapshot.previousProfilePointer } :=
    { htouched with previousProfile := hprevious }
  apply wp_bind
  refine wp_mono (wp_removeReceipted hasks) ?_ (fun _ _ h => h.runtimeTouched htouched rfl)
    fun _ h => h.runtimeTouched htouched rfl
  rintro _ t ⟨hphase, hnames⟩
  replace htouched := hphase.runtimeTouched htouched rfl
  -- The generation of the adjacent profile existed at the capture, so it was not removed.
  have hadjacent : ∀ version captured, snapshot.adjacentProfile = some (version, captured) →
      SameGeneration s.disk.runtimeVersions t.disk.runtimeVersions version := by
    intro version captured hversion
    obtain ⟨root, rfl, hroot⟩ := hphase
    exact (hroot version).resolve_right fun howned =>
      howned.1.1 (hcaptured version captured hversion)
  obtain ⟨root, rfl, hroot⟩ := hphase
  apply wp_bind
  refine wp_mono (wp_removeReceipted hasks) ?_ (fun _ _ h => h.profileTouched htouched rfl)
    fun _ h => h.profileTouched htouched rfl
  rintro _ t ⟨hphase', hnames'⟩
  replace htouched := hphase'.profileTouched htouched rfl
  obtain ⟨root', rfl, _⟩ := hphase'
  unfold restoreAdjacentProfile
  split
  · rename_i hnone
    exact wp_ret ⟨htouched, rfl, rfl, rfl, by simp [hnone], hnames, hnames'⟩
  · rename_i version captured hsome
    refine wp_mono (wp_restoreFile hasks) ?_ (fun _ => hkept _ _ htouched) (hkept _ _ htouched)
    rintro _ u (⟨rfl, hread⟩ | ⟨changed, rfl, hrecorded, hwrite⟩)
    · refine ⟨htouched, rfl, rfl, rfl, ?_, hnames, hnames'⟩
      intro version' captured' hsome'
      rw [hsome] at hsome'
      cases hsome'
      exact hread
    · obtain ⟨hread, hchanged, hsamenames⟩ := write_adjacentProfile hwrite
      refine ⟨htouched.adjacent hsome (hadjacent version captured hsome) hrecorded hwrite, ?_⟩
      rw [hchanged]
      refine ⟨rfl, rfl, rfl, ?_, fun name => ?_, hnames'⟩
      · intro version' captured' hsome'
        rw [hsome] at hsome'
        cases hsome'
        exact hread
      · exact (iff_of_eq (congrArg _ hsamenames)).trans (hnames name)

/-! ## The capture -/

theorem requireGeneration_ok {version found : String} (h : requireGeneration version d = .ok found) :
    found ∈ d.runtimeVersions.names := by
  obtain ⟨_, hpresent, h⟩ := bind_eq_ok.1 h
  cases h
  have hpresent := ok_of_require hpresent
  simp only [Bool.and_eq_true, List.contains_iff_mem] at hpresent
  exact hpresent.1

/-- The runtime generation that is in use is one of those on the disk. -/
theorem maintains_activeRuntimeRoot (hasks : env.questionsFail = false) :
    Maintains (Recorded env snapshot disks d) (activeRuntimeRoot env) fun active =>
      ∀ version, active = some version → version ∈ d.runtimeVersions.names := by
  refine maintains_bind (maintains_snapshotOptionalFile hasks) fun pointer _ => ?_
  cases pointer with
  | none => exact maintains_ret (by simp)
  | some bytes =>
    refine maintains_bind (maintains_ofExcept fun _ _ => trivial) fun version _ => ?_
    refine maintains_bind maintains_ensure fun _ _ => ?_
    refine maintains_bind maintains_look fun found hfound => maintains_ret ?_
    rintro _ ⟨⟩
    exact requireGeneration_ok hfound

theorem maintains_captureAdjacentProfile (hasks : env.questionsFail = false) :
    Maintains (Recorded env snapshot disks d) (captureAdjacentProfile env) fun adjacent =>
      ∀ version content, adjacent = some (version, content) →
        version ∈ d.runtimeVersions.names ∧ content = d.read (.adjacentProfile version) := by
  refine maintains_bind (maintains_activeRuntimeRoot hasks) fun active hactive => ?_
  cases active with
  | none => exact maintains_ret (by simp)
  | some version =>
    refine maintains_bind (maintains_snapshotOptionalFile hasks) fun content hcontent =>
      maintains_ret ?_
    rintro _ _ ⟨⟩
    exact ⟨hactive version rfl, hcontent⟩

/-- A capture that completes has captured what is on the disk. -/
theorem maintains_captureProtectedState (hasks : env.questionsFail = false) :
    Maintains (Recorded env snapshot disks d) (captureProtectedState env) (Captures d) := by
  refine maintains_bind (maintains_snapshotOptionalFile hasks) fun runtimePointer hruntime => ?_
  refine maintains_bind (maintains_snapshotOptionalFile hasks) fun activeProfile hactive => ?_
  refine maintains_bind (maintains_snapshotOptionalFile hasks) fun previousProfile hprevious => ?_
  refine maintains_bind (maintains_snapshotGenerationDirectories hasks)
    fun runtimeGenerations hruntimes => ?_
  refine maintains_bind (maintains_snapshotGenerationDirectories hasks)
    fun profileGenerations hprofiles => ?_
  refine maintains_bind (maintains_captureAdjacentProfile hasks) fun adjacent hadjacent => ?_
  exact maintains_ret ⟨hruntime, hactive, hprevious, hruntimes, hprofiles, hadjacent⟩

theorem MigrationRun.captures (hasks : env.questionsFail = false)
    (h : MigrationRun env profile origin snapshot disks s) : Captures origin snapshot := by
  induction h with
  | captured fs hcapture =>
    have hmaintains : Maintains (Recorded env snapshot [] origin) (captureProtectedState env) _ :=
      maintains_captureProtectedState hasks
    have hrun := hmaintains ⟨origin, emptyReceipt⟩ ⟨rfl, ReceiptOwned.empty⟩ fs
    revert hrun hcapture
    rcases (captureProtectedState env).result fs ⟨origin, emptyReceipt⟩ with ⟨outcome, t⟩
    rintro ⟨⟩ hrun
    exact hrun.1
  | changed _ _ ih => exact ih
  | recorded _ _ ih => exact ih

/-! ## The whole -/

/-- Whatever has happened since the capture, and wherever the rollback fails or is stopped, it
has replaced only files that held what was recorded, by what was captured, and removed only
generations that are new and as recorded; and if it completes, everything is restored. This
rests on every question if a path exists being answered. -/
theorem rollback_touches_only_own (hasks : env.questionsFail = false)
    (h : MigrationRun env profile origin snapshot disks s) (fs : List Fault) :
    Captures origin snapshot ∧ ReceiptOwned env snapshot disks s.receipt ∧
      OnlyOwnTouched env snapshot s.receipt s.disk
        ((restoreProtectedSnapshot env snapshot).result fs s).2.disk ∧
      (((restoreProtectedSnapshot env snapshot).result fs s).1 = .done () →
        Restored snapshot s.disk ((restoreProtectedSnapshot env snapshot).result fs s).2.disk) := by
  have hcaptures := h.captures hasks
  refine ⟨hcaptures, (h.receiptOwned hasks).2, ?_⟩
  have hadjacent : ∀ version content, snapshot.adjacentProfile = some (version, content) →
      version ∈ snapshot.runtimeGenerations := by
    intro version content hsome
    rw [hcaptures.runtimeGenerations]
    exact (hcaptures.adjacentProfile version content hsome).1
  have hrun := wp_restoreProtectedSnapshot (s := s) hasks hadjacent fs
  revert hrun
  rcases (restoreProtectedSnapshot env snapshot).result fs s with ⟨⟨⟩ | cause | _, t⟩
  · exact fun hrun => ⟨hrun.1, fun _ => hrun.2⟩
  · exact fun hrun => ⟨hrun, by simp⟩
  · exact fun hrun => ⟨hrun, by simp⟩

def plainEnvironment : ProtectedEnvironment where
  sha256 _ := "sha256:plain"
  pointerVersion _ := .error "no runtime pointer"
  bundledManifest := .ok ⟨"1.0", []⟩
  questionsFail := false

def missingRoot : GenerationRoot := ⟨false, [], fun _ => none, by simp⟩

/-- No runtime, and a profile pointer with this content. -/
def profileDisk (pointer : Bytes) : ProtectedDisk :=
  ⟨none, some pointer, none, missingRoot, missingRoot⟩

def profileSnapshot (pointer : Bytes) : ProtectedSnapshot :=
  ⟨none, some pointer, none, [], [], none⟩

/-- A migration that has published another profile and recorded it. -/
def publishedState : Protected :=
  ((recordProtectedMutations plainEnvironment (profileSnapshot [1]) [2]).result []
    ⟨profileDisk [2], emptyReceipt⟩).2

theorem rollback_touches_only_own_published :
    Captures (profileDisk [1]) (profileSnapshot [1]) ∧
      ReceiptOwned plainEnvironment (profileSnapshot [1]) [profileDisk [2], profileDisk [1]]
        publishedState.receipt ∧
      OnlyOwnTouched plainEnvironment (profileSnapshot [1]) publishedState.receipt
        publishedState.disk
        ((restoreProtectedSnapshot plainEnvironment (profileSnapshot [1])).result []
          publishedState).2.disk ∧
      (((restoreProtectedSnapshot plainEnvironment (profileSnapshot [1])).result []
          publishedState).1 = .done () →
        Restored (profileSnapshot [1]) publishedState.disk
          ((restoreProtectedSnapshot plainEnvironment (profileSnapshot [1])).result []
            publishedState).2.disk) :=
  rollback_touches_only_own rfl (.recorded [] (.changed (profileDisk [2]) (.captured [] rfl))) []

example : ((restoreProtectedSnapshot plainEnvironment (profileSnapshot [1])).calm
    publishedState).2.disk.activeProfile = some [1] := rfl

def bundledFiles : Directory := immutableRuntimeFiles.map fun name => (name, [1])

/-- The bundled runtime is 1.0, and a question if a path exists can fail. -/
def slippingEnvironment : ProtectedEnvironment where
  sha256 _ := "sha256:plain"
  pointerVersion _ := .error "no runtime pointer"
  bundledManifest := .ok ⟨"1.0", bundledFiles.map fun entry => (entry.1, "sha256:plain")⟩
  questionsFail := true

/-- The bundled runtime is there before the migration. -/
def bundledDisk : ProtectedDisk where
  runtimePointer := none
  activeProfile := none
  previousProfile := none
  runtimeVersions := ⟨true, ["1.0"], fun name => if name = "1.0" then some bundledFiles else none,
    fun _ => rfl⟩
  profileGenerations := missingRoot

def nothingCaptured : ProtectedSnapshot := ⟨none, none, none, [], [], none⟩

/-- The recording without faults, after a capture for which the fourth question failed. -/
def misrecorded : Protected :=
  ((recordProtectedMutations slippingEnvironment nothingCaptured [2]).result []
    ⟨bundledDisk, emptyReceipt⟩).2

/-- The question if the runtime generations exist fails in the capture. The generation that
was there is then recorded as a new one, and a rollback without faults removes it. -/
theorem failed_question_loses_generation :
    MigrationRun slippingEnvironment [2] bundledDisk nothingCaptured [bundledDisk] misrecorded ∧
      bundledDisk.runtimeVersions.names = ["1.0"] ∧
      ((restoreProtectedSnapshot slippingEnvironment nothingCaptured).calm misrecorded).1 =
        .done () ∧
      ((restoreProtectedSnapshot slippingEnvironment nothingCaptured).calm
        misrecorded).2.disk.runtimeVersions.names = [] := by
  refine ⟨.recorded [] (.captured [.none, .none, .none, .fail 0] rfl), rfl, ?_, ?_⟩
  · rfl
  · rfl

-- In the rollback, a question that fails lets it complete with the new file in place.
example : ((restoreProtectedSnapshot slippingEnvironment nothingCaptured).result
    [.none, .fail 0] ⟨profileDisk [2],
      { emptyReceipt with activeProfilePointer := some ⟨some [2]⟩ }⟩).1 = .done () := rfl

end MacTypeControl.Protection
