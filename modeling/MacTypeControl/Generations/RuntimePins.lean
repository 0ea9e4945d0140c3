import MacTypeControl.Generations.PartialRemoval
import MacTypeControl.Generations.RetentionBound
import Mathlib.Data.List.Sort

/-!
# The pin of a migration

Before a migration changes anything, it pins every generation that is there: a file with the
digests of all of them, written beside and renamed. While the pin is there, a retention finds
nothing that it may remove.
-/

namespace MacTypeControl.Generations

open Crash Crash.Prog Profile Storage Tables
open Installer (RepairEnvironment maxRuntimeFileBytes)

variable {names : FileNames} (env : RepairEnvironment)

/-! ## What is pinned -/

def maxProtectedGenerationDirectories : ℕ := 4096

def maxMigrationRuntimePinBytes : ℕ := 64 * 1024

/-- The name of a generation, which has to be a directory. -/
def snapshotGeneration : FileName × VersionEntry → Except String String
  | (.other _, _) => .error "protected generation name is not Unicode"
  | (.unicode version, entry) => do
    require (validRuntimeVersionComponent version && entry matches .directory _)
      "protected generation root contains an unexpected entry"
    .ok version

/-- The names in the order of a `BTreeSet`. -/
def snapshotGenerationDirectories (m : ServiceRoot names) : Except String (List String) :=
  match m.versions with
  | none => .ok []
  | some folder => do
    require (folder.entries.length ≤ maxProtectedGenerationDirectories)
      "protected generation directory count exceeds its fixed limit"
    let found ← folder.entries.mapM snapshotGeneration
    .ok (found.insertionSort (· ≤ ·))

def readPinned (bytes : Option Bytes) (maximumBytes : ℕ) (description : String) :
    Except String Unit :=
  match bytes with
  | none => .error "the file cannot be opened"
  | some bytes => require (bytes != [] && bytes.length ≤ maximumBytes)
      (description ++ " is not a bounded regular file")

def readPinnedProfile : Option Bytes → Except String Unit
  | none => .ok ()
  | some bytes => readPinned (some bytes) maxProfileBytes "migration runtime generated profile"

/-- The digests of one generation. -/
def pinRuntime (m : ServiceRoot names) (version : String) : Except String MigrationPinnedRuntime := do
  require (validRuntimeVersionComponent version) "migration runtime generation name is invalid"
  match m.generation version with
  | none => .error "the generation cannot be opened"
  | some .other => .error "migration runtime generation is not a directory"
  | some (.directory directory) => do
    require (directory.entryCount ≤ immutableRuntimeFiles.length + 1)
      "migration runtime filename count exceeds its fixed limit"
    require (immutableRuntimeFiles.length ≤ directory.entryCount &&
        immutableRuntimeFiles.all (fun file => (directory.files file).isSome) &&
        directory.temporaries == [] && directory.foreign == [])
      "migration runtime contains an unexpected file set"
    immutableRuntimeFiles.forM fun file =>
      readPinned (directory.files file) maxRuntimeFileBytes "migration runtime file"
    readPinnedProfile directory.profile
    require (validVersion version) "migration runtime pin violates the fixed contract"
    .ok ⟨version, fun file => env.sha256Digest ((directory.files file).getD []),
      directory.profile.map env.sha256Digest⟩

/-- The pin of all generations, as it fits into its file. -/
def migrationPin (encodedLength : MigrationRuntimePin → ℕ) (nonce : String) (generations : List String)
    (m : ServiceRoot names) : Except String MigrationRuntimePin := do
  let runtimes ← generations.mapM (pinRuntime env m)
  let pin : MigrationRuntimePin := ⟨nonce, runtimes⟩
  require pin.validate "migration runtime pin violates the fixed contract"
  require (encodedLength pin ≤ maxMigrationRuntimePinBytes)
    "migration runtime pin exceeds the fixed size limit"
  .ok pin

/-! ## Writing and releasing the pin -/

instance : DecidableEq MigrationRuntimePin := fun a b =>
  decidable_of_iff (a.nonce = b.nonce ∧ a.runtimes = b.runtimes)
    (by rw [← MigrationRuntimePin.mk.injEq])

abbrev PinStore (names : FileNames) := Prog (ServiceRoot names) String

def pinFileName (nonce : String) : FileName := .unicode (nonce ++ ".json")

def temporaryPinName (nonce : String) : FileName := .unicode ("." ++ nonce ++ ".creating")

namespace ServiceRoot

variable (m : ServiceRoot names)

def pinFile (name : FileName) : Option (StoredFile MigrationRuntimePin) :=
  m.migrationPins.bind (·.lookup name)

def putPin (name : FileName) (file : StoredFile MigrationRuntimePin) : ServiceRoot names :=
  { m with migrationPins := m.migrationPins.map (·.put name file) }

def removePin (name : FileName) : ServiceRoot names :=
  { m with migrationPins := m.migrationPins.map (·.remove name) }

/-- `create_dir_all` of the directory of the pins. -/
def createPinRoot : ServiceRoot names :=
  { m with present := true, migrationPins := some (m.migrationPins.getD ⟨[], List.nodup_nil⟩) }

end ServiceRoot

/-- The file is created, written and renamed. A rename replaces what is there. -/
def writePin (pin : MigrationRuntimePin) : PinStore names Unit := do
  act "create" fun m => do
    require (m.pinFile (temporaryPinName pin.nonce)).isNone "the file exists"
    .ok (m.putPin (temporaryPinName pin.nonce) (.other none))
  act "write" fun m => .ok (m.putPin (temporaryPinName pin.nonce) (.written pin))
  act "rename" fun m => do
    require (m.pinFile (temporaryPinName pin.nonce)).isSome "the file is missing"
    .ok ((m.removePin (temporaryPinName pin.nonce)).putPin (pinFileName pin.nonce) (.written pin))

/-- What could not be renamed is removed, if that goes. -/
def discardTemporary (nonce : String) : PinStore names Unit :=
  (act "remove" fun m => .ok (m.removePin (temporaryPinName nonce))).handle fun _ => ret ()

def createMigrationRuntimePin (encodedLength : MigrationRuntimePin → ℕ) (nonce : String) :
    PinStore names (Option MigrationRuntimePin) := do
  let generations ← inspect "snapshot" fun m => snapshotGenerationDirectories m
  if generations = [] then
    ret none
  else do
    let pin ← inspect "read" fun m => migrationPin env encodedLength nonce generations m
    act "create directory" fun m => .ok m.createPinRoot
    (writePin pin).handle fun error => do
      discardTemporary nonce
      throw error
    ret (some pin)

/-- The pin that was written is removed, and the directory if nothing else is in it. -/
def releaseMigrationRuntimePin (pin : MigrationRuntimePin) : PinStore names Unit := do
  act "remove" fun m => do
    require (m.pinFile (pinFileName pin.nonce) == some (.written pin))
      "migration runtime pin changed before release"
    .ok (m.removePin (pinFileName pin.nonce))
  act "remove directory" fun m => .ok
    (if (m.migrationPins.map (·.entries.isEmpty)).getD false then { m with migrationPins := none } else m)

/-! ## The states of the directory -/

variable {env} {m t u : ServiceRoot names} {pin : MigrationRuntimePin} {nonce : String}
  {generations : List String} {encodedLength : MigrationRuntimePin → ℕ}

def ServiceRoot.pinEntries (m : ServiceRoot names) : List (FileName × StoredFile MigrationRuntimePin) :=
  match m.migrationPins with
  | none => []
  | some folder => folder.entries

/-- The generations and their receipts are as they were. -/
def SameStore (m t : ServiceRoot names) : Prop := t.versions = m.versions ∧ t.receipts = m.receipts

theorem SameStore.refl (m : ServiceRoot names) : SameStore m m := ⟨rfl, rfl⟩

theorem SameStore.trans (h : SameStore m t) (h' : SameStore t u) : SameStore m u :=
  ⟨h'.1.trans h.1, h'.2.trans h.2⟩

theorem pinEntries_createPinRoot (m : ServiceRoot names) : m.createPinRoot.pinEntries = m.pinEntries := by
  unfold ServiceRoot.pinEntries ServiceRoot.createPinRoot
  cases m.migrationPins with
  | none => rfl
  | some folder => rfl

theorem snapshotGeneration_ok {entry : FileName × VersionEntry} {version : String}
    (h : snapshotGeneration entry = .ok version) : entry.1 = .unicode version := by
  obtain ⟨name, content⟩ := entry
  cases name with
  | other units => cases h
  | unicode text =>
      obtain ⟨_, -, hversion⟩ := bind_eq_ok.1 h
      cases hversion
      rfl

/-- Every name in the directory of the generations is that of a generation in the snapshot. -/
theorem mem_snapshot (h : snapshotGenerationDirectories m = .ok generations) {name : FileName}
    (hname : name ∈ m.generationNames) : ∃ version ∈ generations, name = .unicode version := by
  unfold snapshotGenerationDirectories at h
  unfold ServiceRoot.generationNames at hname
  cases hversions : m.versions with
  | none =>
      rw [hversions] at hname
      exact absurd hname List.not_mem_nil
  | some folder =>
      rw [hversions] at h hname
      obtain ⟨_, -, h⟩ := bind_eq_ok.1 h
      obtain ⟨found, hfound, h⟩ := bind_eq_ok.1 h
      cases h
      obtain ⟨entry, hentry, rfl⟩ := List.mem_map.1 hname
      obtain ⟨version, hversion, hok⟩ := ok_of_mem_mapM hfound hentry
      exact ⟨version, (List.perm_insertionSort (· ≤ ·) found).mem_iff.2 hversion, snapshotGeneration_ok hok⟩

/-- What a generation is like that was pinned. -/
structure PinnedDirectory (env : RepairEnvironment) (version : String) (runtime : MigrationPinnedRuntime)
    (d : RuntimeDirectory) : Prop where
  runtime_eq : runtime = ⟨version, fun file => env.sha256Digest ((d.files file).getD []),
    d.profile.map env.sha256Digest⟩
  valid : validVersion version = true
  files : ∀ file, ∃ bytes, d.files file = some bytes ∧ bytes ≠ [] ∧ bytes.length ≤ maxRuntimeFileBytes
  profile : ∀ bytes, d.profile = some bytes → bytes ≠ [] ∧ bytes.length ≤ maxProfileBytes
  temporaries : d.temporaries = []
  foreign : d.foreign = []

theorem readPinned_ok {bytes : Option Bytes} {maximumBytes : ℕ} {description : String}
    (h : readPinned bytes maximumBytes description = .ok ()) :
    ∃ content, bytes = some content ∧ content ≠ [] ∧ content.length ≤ maximumBytes := by
  cases bytes with
  | none => cases h
  | some content =>
      have hbounds := ok_of_require h
      rw [Bool.and_eq_true] at hbounds
      exact ⟨content, rfl, by simpa using hbounds.1, by simpa using hbounds.2⟩

theorem pinRuntime_ok {version : String} {runtime : MigrationPinnedRuntime}
    (h : pinRuntime env m version = .ok runtime) :
    ∃ d, m.generation version = some (.directory d) ∧ PinnedDirectory env version runtime d := by
  unfold pinRuntime at h
  obtain ⟨_, -, h⟩ := bind_eq_ok.1 h
  cases hgeneration : m.generation version with
  | none =>
      rw [hgeneration] at h
      cases h
  | some entry =>
      rw [hgeneration] at h
      cases entry with
      | other => cases h
      | directory d =>
          obtain ⟨_, -, h⟩ := bind_eq_ok.1 h
          obtain ⟨_, hset, h⟩ := bind_eq_ok.1 h
          obtain ⟨_, hfiles, h⟩ := bind_eq_ok.1 h
          obtain ⟨⟨⟩, hprofile, h⟩ := bind_eq_ok.1 h
          obtain ⟨_, hvalid, h⟩ := bind_eq_ok.1 h
          have hparts := ok_of_require hset
          simp only [Bool.and_eq_true] at hparts
          refine ⟨d, rfl, (Except.ok.inj h).symm, ok_of_require hvalid, fun file => ?_,
            fun bytes hbytes => ?_, by simpa using hparts.1.2, by simpa using hparts.2⟩
          · exact readPinned_ok (forM_eq_ok_iff.1 hfiles file (mem_immutableRuntimeFiles file))
          · rw [hbytes] at hprofile
            have hread : readPinned (some bytes) maxProfileBytes
                "migration runtime generated profile" = .ok () := hprofile
            obtain ⟨content, hcontent, hbounds⟩ := readPinned_ok hread
            cases hcontent
            exact hbounds

theorem pinRuntime_version {version : String} {runtime : MigrationPinnedRuntime}
    (h : pinRuntime env m version = .ok runtime) : runtime.version = version := by
  obtain ⟨d, -, hpinned⟩ := pinRuntime_ok h
  rw [hpinned.runtime_eq]

theorem migrationPin_ok (h : migrationPin env encodedLength nonce generations m = .ok pin) :
    pin.nonce = nonce ∧ pin.validate = true ∧
      (∀ version ∈ generations, ∃ runtime ∈ pin.runtimes, runtime.version = version) ∧
      ∀ runtime ∈ pin.runtimes, pinRuntime env m runtime.version = .ok runtime := by
  obtain ⟨runtimes, hruntimes, h⟩ := bind_eq_ok.1 h
  obtain ⟨_, hvalid, h⟩ := bind_eq_ok.1 h
  obtain ⟨_, -, h⟩ := bind_eq_ok.1 h
  cases h
  refine ⟨rfl, ok_of_require hvalid, fun version hversion => ?_, fun runtime hruntime => ?_⟩
  · obtain ⟨runtime, hmem, hok⟩ := ok_of_mem_mapM hruntimes hversion
    exact ⟨runtime, hmem, pinRuntime_version hok⟩
  · obtain ⟨version, -, hok⟩ := mem_of_mapM hruntimes hruntime
    rwa [pinRuntime_version hok]

/-! ## What a stopped creation leaves -/

/-- The pin has every generation that is listed. -/
def PinsAll (m : ServiceRoot names) (pin : MigrationRuntimePin) : Prop :=
  ∀ name ∈ m.generationNames, ∃ runtime ∈ pin.runtimes, name = .unicode runtime.version

/-- No pin was added, or a file that is no pin yet, or the pin of all generations. -/
inductive PinOutcome (m : ServiceRoot names) (nonce : String) (t : ServiceRoot names) : Prop
  | unchanged (h : t.pinEntries.Sublist m.pinEntries)
  | temporary (base : List (FileName × StoredFile MigrationRuntimePin))
      (file : StoredFile MigrationRuntimePin) (hbase : base.Sublist m.pinEntries)
      (h : t.pinEntries = base ++ [(temporaryPinName nonce, file)])
  | pinned (base : List (FileName × StoredFile MigrationRuntimePin)) (pin : MigrationRuntimePin)
      (hbase : base.Sublist m.pinEntries) (hall : PinsAll m pin)
      (h : t.pinEntries = base ++ [(pinFileName nonce, .written pin)])

theorem pinEntries_removePin (t : ServiceRoot names) (name : FileName) :
    (t.removePin name).pinEntries =
      t.pinEntries.filter fun entry => decide (names.compared entry.1 ≠ names.compared name) := by
  unfold ServiceRoot.pinEntries ServiceRoot.removePin
  cases t.migrationPins with
  | none => rfl
  | some folder => rfl

theorem pinEntries_putPin (hroot : t.migrationPins.isSome = true) (name : FileName)
    (file : StoredFile MigrationRuntimePin) :
    (t.putPin name file).pinEntries = (t.removePin name).pinEntries ++ [(name, file)] := by
  unfold ServiceRoot.pinEntries ServiceRoot.removePin ServiceRoot.putPin
  cases hpins : t.migrationPins with
  | none =>
      rw [hpins] at hroot
      cases hroot
  | some folder => rfl

/-- What is left of the temporary file can be removed from every such state. -/
theorem PinOutcome.removeTemporary (h : PinOutcome m nonce t) :
    PinOutcome m nonce (t.removePin (temporaryPinName nonce)) := by
  have hentries := pinEntries_removePin t (temporaryPinName nonce)
  cases h with
  | unchanged h =>
      refine .unchanged ?_
      rw [hentries]
      exact List.filter_sublist.trans h
  | temporary base file hbase h =>
      refine .unchanged ?_
      rw [hentries, h, List.filter_append]
      have hgone : List.filter (fun entry : FileName × StoredFile MigrationRuntimePin =>
          decide (names.compared entry.1 ≠ names.compared (temporaryPinName nonce)))
          [(temporaryPinName nonce, file)] = [] := by simp
      rw [hgone, List.append_nil]
      exact List.filter_sublist.trans hbase
  | pinned base pin hbase hall h =>
      by_cases hname : names.compared (pinFileName nonce) = names.compared (temporaryPinName nonce)
      · refine .unchanged ?_
        rw [hentries, h, List.filter_append]
        simp only [hname, ne_eq, not_true_eq_false, decide_false, Bool.false_eq_true,
          not_false_eq_true, List.filter_cons_of_neg, List.filter_nil, List.append_nil]
        exact List.filter_sublist.trans hbase
      · refine .pinned (base.filter fun entry =>
          decide (names.compared entry.1 ≠ names.compared (temporaryPinName nonce))) pin (List.filter_sublist.trans hbase) hall ?_
        rw [hentries, h, List.filter_append]
        simp [hname]

theorem removePin_putPin (t : ServiceRoot names) (name : FileName) (file : StoredFile MigrationRuntimePin) :
    (t.putPin name file).removePin name = t.removePin name := by
  unfold ServiceRoot.removePin ServiceRoot.putPin
  cases hpins : t.migrationPins with
  | none => rfl
  | some folder => simp only [Option.map_some, Folder.remove_put]

theorem putPin_putPin (t : ServiceRoot names) (name : FileName) (file other : StoredFile MigrationRuntimePin) :
    (t.putPin name file).putPin name other = t.putPin name other := by
  unfold ServiceRoot.putPin
  cases hpins : t.migrationPins with
  | none => rfl
  | some folder => simp only [Option.map_some, Folder.put_put]

theorem removePin_of_absent {name : FileName} (h : t.pinFile name = none) : t.removePin name = t := by
  unfold ServiceRoot.removePin
  unfold ServiceRoot.pinFile at h
  cases hpins : t.migrationPins with
  | none =>
      rw [Option.map_none, ← hpins]
  | some folder =>
      rw [hpins] at h
      rw [Option.map_some, Folder.remove_of_lookup_none h, ← hpins]

theorem wp_writePin (hroot : t.migrationPins.isSome = true) (hsame : SameStore m t)
    (hentries : t.pinEntries.Sublist m.pinEntries) (hall : PinsAll m pin) :
    wp (writePin pin)
      (fun _ u => u = t.putPin (pinFileName pin.nonce) (.written pin))
      (fun _ u => SameStore m u ∧ PinOutcome m pin.nonce u)
      (fun u => SameStore m u ∧ PinOutcome m pin.nonce u) t := by
  have hstart : SameStore m t ∧ PinOutcome m pin.nonce t := ⟨hsame, .unchanged hentries⟩
  have htemporary : ∀ file, SameStore m (t.putPin (temporaryPinName pin.nonce) file) ∧
      PinOutcome m pin.nonce (t.putPin (temporaryPinName pin.nonce) file) := by
    intro file
    refine ⟨hsame, .temporary _ file ?_ (pinEntries_putPin hroot _ file)⟩
    rw [pinEntries_removePin]
    exact List.filter_sublist.trans hentries
  have hpinned : SameStore m (t.putPin (pinFileName pin.nonce) (.written pin)) ∧
      PinOutcome m pin.nonce (t.putPin (pinFileName pin.nonce) (.written pin)) := by
    refine ⟨hsame, .pinned _ pin ?_ hall (pinEntries_putPin hroot _ _)⟩
    rw [pinEntries_removePin]
    exact List.filter_sublist.trans hentries
  refine wp_bind (wp_act (fun u hu => ?_) (fun _ _ => hstart) hstart hstart)
  obtain ⟨_, habsent, hu⟩ := bind_eq_ok.1 hu
  cases hu
  refine ⟨?_, htemporary _, htemporary _⟩
  have hkept : t.removePin (temporaryPinName pin.nonce) = t :=
    removePin_of_absent (by simpa using ok_of_require habsent)
  refine wp_bind (wp_act (fun u hu => ?_) (fun _ _ => htemporary _) (htemporary _) (htemporary _))
  cases hu
  rw [putPin_putPin]
  refine ⟨?_, htemporary _, htemporary _⟩
  refine wp_act (fun u hu => ?_) (fun _ _ => htemporary _) (htemporary _) (htemporary _)
  obtain ⟨_, -, hu⟩ := bind_eq_ok.1 hu
  cases hu
  rw [removePin_putPin, hkept]
  exact ⟨rfl, hpinned, hpinned⟩

theorem wp_discardTemporary (h : SameStore m t ∧ PinOutcome m nonce t) :
    wp (discardTemporary nonce) (fun _ u => SameStore m u ∧ PinOutcome m nonce u)
      (fun _ u => SameStore m u ∧ PinOutcome m nonce u) (fun u => SameStore m u ∧ PinOutcome m nonce u) t := by
  have hremoved : SameStore m (t.removePin (temporaryPinName nonce)) ∧
      PinOutcome m nonce (t.removePin (temporaryPinName nonce)) := ⟨h.1, h.2.removeTemporary⟩
  refine wp_handle (wp_act (fun u hu => ?_) (fun _ _ => wp_ret h) (wp_ret h) h)
  cases hu
  exact ⟨hremoved, wp_ret hremoved, hremoved⟩

/-- What a completed creation has done. -/
def Created (env : RepairEnvironment) (nonce : String) (m : ServiceRoot names) :
    Option MigrationRuntimePin → ServiceRoot names → Prop
  | none, t => t = m
  | some pin, t => pin.nonce = nonce ∧ PinsAll m pin ∧ pin.validate = true ∧
      (∀ runtime ∈ pin.runtimes, pinRuntime env m runtime.version = .ok runtime) ∧
      t = m.createPinRoot.putPin (pinFileName nonce) (.written pin)

/-- Whatever stops the creation, it adds no pin, or leaves its temporary file, or has pinned all. -/
theorem wp_createMigrationRuntimePin :
    wp (createMigrationRuntimePin env encodedLength nonce) (Created env nonce m)
      (fun _ t => SameStore m t ∧ PinOutcome m nonce t) (fun t => SameStore m t ∧ PinOutcome m nonce t) m := by
  have hstart : SameStore m m ∧ PinOutcome m nonce m := ⟨.refl m, .unchanged (List.Sublist.refl _)⟩
  have hroot : SameStore m m.createPinRoot ∧ PinOutcome m nonce m.createPinRoot := by
    refine ⟨⟨rfl, rfl⟩, .unchanged ?_⟩
    rw [pinEntries_createPinRoot]
  unfold createMigrationRuntimePin
  refine wp_bind (wp_inspect (fun generations hgenerations => ?_) (fun _ _ => hstart) hstart hstart)
  by_cases hempty : generations = []
  · rw [if_pos hempty]
    exact wp_ret rfl
  · rw [if_neg hempty]
    refine wp_bind (wp_inspect (fun pin hpin => ?_) (fun _ _ => hstart) hstart hstart)
    obtain ⟨hnonce, hvalid, hversions, hruntimes⟩ := migrationPin_ok hpin
    subst hnonce
    have hall : PinsAll m pin := by
      intro name hname
      obtain ⟨version, hversion, rfl⟩ := mem_snapshot hgenerations hname
      obtain ⟨runtime, hruntime, heq⟩ := hversions version hversion
      exact ⟨runtime, hruntime, by rw [heq]⟩
    refine wp_bind (wp_act (fun t ht => ?_) (fun _ _ => hstart) hstart hstart)
    cases ht
    refine ⟨?_, hroot, hroot⟩
    have hwrite := wp_writePin rfl hroot.1
      (by rw [pinEntries_createPinRoot]) hall
    refine wp_bind (wp_handle (wp_mono hwrite (fun _ u hu => ?_) (fun error u hu => ?_) fun u hu => hu))
    · exact wp_ret ⟨rfl, hall, hvalid, hruntimes, hu⟩
    · exact wp_bind (wp_mono (wp_discardTemporary hu) (fun _ v hv => wp_throw hv) (fun _ _ hv => hv)
        fun _ hv => hv)

/-! ## Retention beside a pin -/

theorem exists_step_of_foldlM {ε α β : Type} {f : β → α → Except ε β} {xs : List α} :
    ∀ {b b' : β}, xs.foldlM f b = .ok b' → ∀ x ∈ xs, ∃ c d, f c x = .ok d := by
  induction xs with
  | nil => exact fun _ x hx => absurd hx List.not_mem_nil
  | cons y ys ih =>
    intro b b' h x hx
    rw [List.foldlM_cons] at h
    obtain ⟨next, hnext, h⟩ := bind_eq_ok.1 h
    rcases List.mem_cons.1 hx with rfl | hx
    · exact ⟨b, next, hnext⟩
    · exact ih h x hx

theorem load_eq_foldlM {pinned : List MigrationPinnedRuntime}
    (h : loadVerifiedMigrationPins env t = .ok pinned) :
    t.pinEntries.length ≤ maxPinnedRuntimes ∧ t.pinEntries.foldlM (addPins env t) [] = .ok pinned := by
  unfold loadVerifiedMigrationPins at h
  unfold ServiceRoot.pinEntries
  cases hpins : t.migrationPins with
  | none =>
      rw [hpins] at h
      exact ⟨Nat.zero_le _, h⟩
  | some folder =>
      rw [hpins] at h
      obtain ⟨_, hcount, h⟩ := bind_eq_ok.1 h
      exact ⟨of_decide_eq_true (ok_of_require hcount), h⟩

theorem stripJson_temporary (nonce : String) : stripJson ("." ++ nonce ++ ".creating") = none := by
  cases h : stripJson ("." ++ nonce ++ ".creating") with
  | none => rfl
  | some stem =>
      -- the two extensions end with different letters
      have hname := congrArg (fun text => text.toList.getLast?) (stripJson_eq_some h)
      simp only [String.toList_append] at hname
      have hread : ".json".toList.getLast? = some 'n' := by decide
      have hwritten : ".creating".toList.getLast? = some 'g' := by decide
      rw [List.getLast?_append, List.getLast?_append, hread, hwritten, Option.some_or, Option.some_or] at hname
      exact absurd hname (by decide)

/-- A file that was not renamed is refused by every reader. -/
theorem load_temporary {pinned : List MigrationPinnedRuntime} {file : StoredFile MigrationRuntimePin}
    (hfile : (temporaryPinName nonce, file) ∈ t.pinEntries) :
    loadVerifiedMigrationPins env t ≠ .ok pinned := by
  intro h
  obtain ⟨before, after, hstep⟩ := exists_step_of_foldlM (load_eq_foldlM h).2 _ hfile
  obtain ⟨pin, hpin, -⟩ := bind_eq_ok.1 hstep
  obtain ⟨found, hfound, -⟩ := bind_eq_ok.1 hpin
  unfold pinNonce temporaryPinName at hfound
  simp only [stripJson_temporary] at hfound
  cases hfound

/-- A file that keeps every retention from its cleanup, or leaves the cleanup nothing to do. -/
def Guarded (nonce : String) (t : ServiceRoot names) : Prop :=
  (∃ file, (temporaryPinName nonce, file) ∈ t.pinEntries) ∨
    ∃ pin, (pinFileName nonce, .written pin) ∈ t.pinEntries ∧ PinsAll t pin

theorem Guarded.congr (h : Guarded nonce t) (hversions : u.versions = t.versions)
    (hpins : u.migrationPins = t.migrationPins) : Guarded nonce u := by
  have hentries : u.pinEntries = t.pinEntries := by
    unfold ServiceRoot.pinEntries
    rw [hpins]
  have hnames : u.generationNames = t.generationNames := by
    unfold ServiceRoot.generationNames
    rw [hversions]
  unfold Guarded PinsAll
  rw [hentries, hnames]
  exact h

/-- One retention beside the file changes no generation, wherever it is stopped. -/
theorem wp_retain_guarded (h : Guarded nonce t) (oldPointer : Option RuntimeVersion)
    (currentVersion : RuntimeVersion) :
    wp (retain env oldPointer currentVersion)
      (fun _ u => SameStore t u ∧ u.migrationPins = t.migrationPins)
      (fun _ u => SameStore t u ∧ u.migrationPins = t.migrationPins)
      (fun u => SameStore t u ∧ u.migrationPins = t.migrationPins) t := by
  refine wp_retain_of_cleanup (I := fun u => SameStore t u ∧ u.migrationPins = t.migrationPins)
    (fun file => ⟨⟨rfl, rfl⟩, rfl⟩) fun previous pinned listed hprevious hpinned hlisted => ?_
  refine maintains_cleanup fun version hmem hstale _ => ?_
  rcases h with ⟨file, hfile⟩ | ⟨pin, hpin, hall⟩
  · exact absurd hpinned (load_temporary hfile)
  · -- a generation that is listed is one of the pin
    refine absurd ?_ hstale
    rw [generationNames_of_listed hlisted] at hmem
    obtain ⟨runtime, hruntime, hname⟩ := hall _ hmem
    rw [FileName.unicode.inj hname, mem_retainedVersions_iff hprevious hpinned]
    unfold ServiceRoot.pinEntries at hpin
    cases hpins : t.migrationPins with
    | none =>
        rw [hpins] at hpin
        exact absurd hpin List.not_mem_nil
    | some folder =>
        rw [hpins] at hpin
        exact .pinned hpins hpin (StoredFile.parse_written pin) hruntime

theorem runs_guarded (h : Guarded nonce t) (hruns : RetentionRuns env t u) :
    SameStore t u ∧ u.migrationPins = t.migrationPins := by
  induction hruns with
  | start => exact ⟨.refl t, rfl⟩
  | again oldPointer currentVersion faults _ ih =>
    have hguarded := h.congr ih.1.1 ih.2
    have hrun := (@wp_retain_guarded _ env _ _ hguarded oldPointer currentVersion).final faults
    exact ⟨ih.1.trans hrun.1, hrun.2.trans ih.2⟩

theorem guarded_of_pinned (hsame : SameStore m t) (hall : PinsAll m pin)
    (hpin : (pinFileName nonce, .written pin) ∈ t.pinEntries) : Guarded nonce t := by
  refine Or.inr ⟨pin, hpin, fun name hname => hall name ?_⟩
  unfold ServiceRoot.generationNames at hname ⊢
  rwa [hsame.1] at hname

theorem Created.pinned (h : Created env nonce m (some pin) t) :
    SameStore m t ∧ PinsAll m pin ∧ (pinFileName nonce, .written pin) ∈ t.pinEntries := by
  obtain ⟨-, hall, -, -, rfl⟩ := h
  refine ⟨⟨rfl, rfl⟩, hall, ?_⟩
  rw [pinEntries_putPin rfl]
  exact List.mem_append_right _ (List.mem_singleton.2 rfl)

theorem Created.runs (h : Created env nonce m (some pin) t) (hruns : RetentionRuns env t u) :
    SameStore m u := by
  obtain ⟨hsame, hall, hpin⟩ := h.pinned
  exact hsame.trans (runs_guarded (guarded_of_pinned hsame hall hpin) hruns).1

theorem PinOutcome.runs (hsame : SameStore m t) (h : PinOutcome m nonce t) :
    t.pinEntries.Sublist m.pinEntries ∨ ∀ u, RetentionRuns env t u → SameStore m u := by
  cases h with
  | unchanged h => exact Or.inl h
  | temporary base file _ h =>
      have hfile : (temporaryPinName nonce, file) ∈ t.pinEntries := by
        rw [h]
        exact List.mem_append_right _ (List.mem_singleton.2 rfl)
      exact Or.inr fun u hu => hsame.trans (runs_guarded (Or.inl ⟨file, hfile⟩) hu).1
  | pinned base pin _ hall h =>
      have hpin : (pinFileName nonce, .written pin) ∈ t.pinEntries := by
        rw [h]
        exact List.mem_append_right _ (List.mem_singleton.2 rfl)
      exact Or.inr fun u hu => hsame.trans (runs_guarded (guarded_of_pinned hsame hall hpin) hu).1

/-- The states in which a creation ends or is stopped. -/
theorem createMigrationRuntimePin_result (encodedLength : MigrationRuntimePin → ℕ) (nonce : String)
    (faults : List Fault) (m : ServiceRoot names) :
    Prog.Meets (Created env nonce m) (fun _ t => SameStore m t ∧ PinOutcome m nonce t)
      (fun t => SameStore m t ∧ PinOutcome m nonce t)
      ((createMigrationRuntimePin env encodedLength nonce).result faults m) :=
  wp_createMigrationRuntimePin faults

theorem foldlM_keeps {ε α β : Type} {f : β → α → Except ε β} {P : β → Prop}
    (hstep : ∀ b a b', f b a = .ok b' → P b → P b') {xs : List α} :
    ∀ {b b' : β}, xs.foldlM f b = .ok b' → P b → P b' := by
  induction xs with
  | nil =>
      intro b b' h hb
      cases h
      exact hb
  | cons x xs ih =>
      intro b b' h hb
      rw [List.foldlM_cons] at h
      obtain ⟨next, hnext, h⟩ := bind_eq_ok.1 h
      exact ih h (hstep b x next hnext hb)

/-- Every generation that was read is as its pin says, and there are not too many. -/
structure PinsVerified (env : RepairEnvironment) (m : ServiceRoot names)
    (pinned : List MigrationPinnedRuntime) : Prop where
  verified : ∀ runtime ∈ pinned, verifyPinnedRuntime env m runtime = .ok ()
  count : pinned.length ≤ maxPinnedRuntimes

theorem PinsVerified.add {pinned result : List MigrationPinnedRuntime} {runtime : MigrationPinnedRuntime}
    (hresult : addPinned env m pinned runtime = .ok result) (h : PinsVerified env m pinned) :
    PinsVerified env m result := by
  unfold addPinned at hresult
  obtain ⟨⟨⟩, hverified, hresult⟩ := bind_eq_ok.1 hresult
  split at hresult
  · obtain ⟨_, -, hresult⟩ := bind_eq_ok.1 hresult
    cases hresult
    exact h
  · obtain ⟨_, hroom, hresult⟩ := bind_eq_ok.1 hresult
    cases hresult
    refine ⟨fun other hother => ?_, of_decide_eq_true (ok_of_require hroom)⟩
    rcases List.mem_cons.1 hother with rfl | hother
    · exact hverified
    · exact h.verified other hother

theorem pinsVerified_of_load {pinned : List MigrationPinnedRuntime}
    (h : loadVerifiedMigrationPins env m = .ok pinned) : PinsVerified env m pinned := by
  refine foldlM_keeps (fun before entry after hstep hbefore => ?_) (load_eq_foldlM h).2
    ⟨fun _ hmem => absurd hmem List.not_mem_nil, Nat.zero_le _⟩
  obtain ⟨pin, -, hstep⟩ := bind_eq_ok.1 hstep
  exact foldlM_keeps (fun _ _ _ hadd hverified => hverified.add hadd) hstep hbefore

/-- A generation that is as its pin says. -/
structure AsPinned (env : RepairEnvironment) (runtime : MigrationPinnedRuntime) (d : RuntimeDirectory) :
    Prop where
  entries : d.entryCount = immutableRuntimeFiles.length + runtime.generatedProfile.toList.length
  files : ∀ file, ∃ bytes, d.files file = some bytes ∧ env.sha256Digest bytes = runtime.files file
  profile : ∀ expected, runtime.generatedProfile = some expected →
    ∃ bytes, d.profile = some bytes ∧ env.sha256Digest bytes = expected

theorem asPinned_of_verified {runtime : MigrationPinnedRuntime}
    (h : verifyPinnedRuntime env m runtime = .ok ()) :
    ∃ d, m.generation runtime.version = some (.directory d) ∧ AsPinned env runtime d := by
  unfold verifyPinnedRuntime at h
  cases hgeneration : m.generation runtime.version with
  | none =>
      rw [hgeneration] at h
      cases h
  | some entry =>
      rw [hgeneration] at h
      cases entry with
      | other => cases h
      | directory d =>
          obtain ⟨_, -, h⟩ := bind_eq_ok.1 h
          obtain ⟨_, hcount, h⟩ := bind_eq_ok.1 h
          obtain ⟨_, hfiles, h⟩ := bind_eq_ok.1 h
          refine ⟨d, rfl, by simpa using ok_of_require hcount, fun file => ?_, fun expected hexpected => ?_⟩
          · have hfile := forM_eq_ok_iff.1 hfiles file (mem_immutableRuntimeFiles file)
            unfold verifyPinnedFile at hfile
            cases hbytes : d.files file with
            | none =>
                rw [hbytes] at hfile
                cases hfile
            | some bytes =>
                rw [hbytes] at hfile
                obtain ⟨content, hread, hdigest⟩ := bind_eq_ok.1 hfile
                obtain ⟨_, -, hcontent⟩ := bind_eq_ok.1 hread
                cases hcontent
                exact ⟨bytes, rfl, by simpa using ok_of_require hdigest⟩
          · rw [hexpected] at h
            unfold verifyPinnedProfile at h
            cases hbytes : d.profile with
            | none =>
                simp only [hbytes] at h
                cases h
            | some bytes =>
                simp only [hbytes] at h
                obtain ⟨content, hread, hdigest⟩ := bind_eq_ok.1 h
                obtain ⟨_, -, hcontent⟩ := bind_eq_ok.1 hread
                cases hcontent
                exact ⟨bytes, rfl, by simpa using ok_of_require hdigest⟩

/-- Two pins of one generation that are both as it is are the same. -/
theorem eq_of_verified {a b : MigrationPinnedRuntime} (hversion : a.version = b.version)
    (ha : verifyPinnedRuntime env m a = .ok ()) (hb : verifyPinnedRuntime env m b = .ok ()) : a = b := by
  obtain ⟨d, hd, hda⟩ := asPinned_of_verified ha
  obtain ⟨d', hd', hdb⟩ := asPinned_of_verified hb
  rw [← hversion, hd] at hd'
  cases hd'
  have hlength : a.generatedProfile.toList.length = b.generatedProfile.toList.length := by
    have hsame := hda.entries.symm.trans hdb.entries
    omega
  refine MigrationPinnedRuntime.ext_files hversion ?_ fun file => ?_
  · cases hpa : a.generatedProfile with
    | none =>
        cases hpb : b.generatedProfile with
        | none => rfl
        | some digest =>
            rw [hpa, hpb] at hlength
            cases hlength
    | some digest =>
        cases hpb : b.generatedProfile with
        | none =>
            rw [hpa, hpb] at hlength
            cases hlength
        | some other =>
            obtain ⟨bytes, hbytes, hdigest⟩ := hda.profile digest hpa
            obtain ⟨bytes', hbytes', hother⟩ := hdb.profile other hpb
            rw [hbytes] at hbytes'
            cases hbytes'
            rw [← hdigest, ← hother]
  · obtain ⟨bytes, hbytes, hdigest⟩ := hda.files file
    obtain ⟨bytes', hbytes', hother⟩ := hdb.files file
    rw [hbytes] at hbytes'
    cases hbytes'
    rw [← hdigest, ← hother]

/-- The generation that was pinned is verified by the reader. -/
theorem verified_of_pinRuntime {runtime : MigrationPinnedRuntime}
    (h : pinRuntime env m runtime.version = .ok runtime) : verifyPinnedRuntime env m runtime = .ok () := by
  obtain ⟨d, hd, hpinned⟩ := pinRuntime_ok h
  have hprofile : runtime.generatedProfile = d.profile.map env.sha256Digest := by rw [hpinned.runtime_eq]
  have hfiles : ∀ file, runtime.files file = env.sha256Digest ((d.files file).getD []) := by
    intro file
    rw [hpinned.runtime_eq]
  have hfileCount : d.runtimeFileCount = immutableRuntimeFiles.length := by
    unfold RuntimeDirectory.runtimeFileCount
    rw [List.filter_eq_self.2]
    intro file _
    obtain ⟨bytes, hbytes, -⟩ := hpinned.files file
    rw [hbytes]
    rfl
  have hcount : d.entryCount = immutableRuntimeFiles.length + runtime.generatedProfile.toList.length := by
    unfold RuntimeDirectory.entryCount
    rw [hfileCount, hpinned.temporaries, hpinned.foreign, hprofile]
    cases d.profile with
    | none => rfl
    | some bytes => rfl
  unfold verifyPinnedRuntime
  rw [hd]
  refine bind_eq_ok.2 ⟨(), require_true _ (decide_eq_true (Nat.le_of_eq hcount)), ?_⟩
  refine bind_eq_ok.2 ⟨(), require_true _ (by simpa using hcount), ?_⟩
  refine bind_eq_ok.2 ⟨(), forM_eq_ok_iff.2 fun file _ => ?_, ?_⟩
  · obtain ⟨bytes, hbytes, hne, hlength⟩ := hpinned.files file
    unfold verifyPinnedFile
    rw [hfiles, hbytes]
    exact bind_eq_ok.2 ⟨bytes, readBoundedRegularFile_ok hne hlength _, require_true _ (by simp)⟩
  · rw [hprofile]
    cases hbytes : d.profile with
    | none => rfl
    | some bytes =>
        obtain ⟨hne, hlength⟩ := hpinned.profile bytes hbytes
        unfold verifyPinnedProfile
        rw [Option.map_some]
        simp only [hbytes]
        exact bind_eq_ok.2 ⟨bytes, readBoundedRegularFile_ok hne hlength _, require_true _ (by simp)⟩

/-- The pinned generations that are not among those already read. -/
def newlyPinned (pinned runtimes : List MigrationPinnedRuntime) : List MigrationPinnedRuntime :=
  runtimes.filter fun runtime => pinned.all fun other => other.version != runtime.version

theorem newlyPinned_cons {pinned rest : List MigrationPinnedRuntime} {runtime : MigrationPinnedRuntime}
    (h : ∀ other ∈ rest, runtime.version ≠ other.version) :
    newlyPinned (runtime :: pinned) rest = newlyPinned pinned rest := by
  refine List.filter_congr fun other hother => ?_
  simp [h other hother]

/-- Verified generations are added as long as there is room for those that are new. -/
theorem foldlM_addPinned_iff {runtimes : List MigrationPinnedRuntime} :
    ∀ {pinned : List MigrationPinnedRuntime}, PinsVerified env m pinned →
      (∀ runtime ∈ runtimes, verifyPinnedRuntime env m runtime = .ok ()) →
      (runtimes.map (·.version)).Nodup →
      ((∃ result, runtimes.foldlM (addPinned env m) pinned = .ok result) ↔
        pinned.length + (newlyPinned pinned runtimes).length ≤ maxPinnedRuntimes) := by
  induction runtimes with
  | nil =>
      intro pinned hpinned _ _
      exact iff_of_true ⟨pinned, rfl⟩ hpinned.count
  | cons runtime rest ih =>
      intro pinned hpinned hverified hnodup
      rw [List.map_cons, List.nodup_cons] at hnodup
      have hrest : ∀ other ∈ rest, verifyPinnedRuntime env m other = .ok () := fun other hother =>
        hverified other (List.mem_cons_of_mem _ hother)
      have hruntime := hverified runtime List.mem_cons_self
      have hstep : ∀ next, addPinned env m pinned runtime = .ok next →
          ((∃ result, (runtime :: rest).foldlM (addPinned env m) pinned = .ok result) ↔
            ∃ result, rest.foldlM (addPinned env m) next = .ok result) := by
        intro next hnext
        rw [List.foldlM_cons, hnext]
        exact Iff.rfl
      cases hfind : pinned.find? fun other => other.version == runtime.version with
      | some existing =>
          -- the generation was read before, from another pin
          have hmem := List.mem_of_find?_eq_some hfind
          have hversion : existing.version = runtime.version := by simpa using List.find?_some hfind
          have hsame := eq_of_verified hversion (hpinned.verified existing hmem) hruntime
          have hadd : addPinned env m pinned runtime = .ok pinned := by
            unfold addPinned
            rw [hruntime, hfind]
            exact bind_eq_ok.2 ⟨(), rfl, bind_eq_ok.2 ⟨(), require_true _ (by simpa using hsame), rfl⟩⟩
          have hknown : newlyPinned pinned (runtime :: rest) = newlyPinned pinned rest := by
            unfold newlyPinned
            rw [List.filter_cons_of_neg]
            simp only [List.all_eq_true, not_forall]
            exact ⟨existing, hmem, by simp [hversion]⟩
          rw [hstep pinned hadd, hknown]
          exact ih hpinned hrest hnodup.2
      | none =>
          have hnew : newlyPinned pinned (runtime :: rest) = runtime :: newlyPinned pinned rest := by
            unfold newlyPinned
            rw [List.filter_cons_of_pos]
            rw [List.find?_eq_none] at hfind
            simpa [List.all_eq_true] using hfind
          rw [hnew, List.length_cons]
          by_cases hroom : pinned.length < maxPinnedRuntimes
          · have hadd : addPinned env m pinned runtime = .ok (runtime :: pinned) := by
              unfold addPinned
              rw [hruntime, hfind]
              exact bind_eq_ok.2 ⟨(), rfl, bind_eq_ok.2 ⟨(), require_true _ (decide_eq_true hroom), rfl⟩⟩
            have happart : ∀ other ∈ rest, runtime.version ≠ other.version := fun other hother heq =>
              hnodup.1 (List.mem_map.2 ⟨other, hother, heq.symm⟩)
            rw [hstep _ hadd, ih (hpinned.add hadd) hrest hnodup.2, newlyPinned_cons happart,
              List.length_cons]
            omega
          · refine iff_of_false ?_ (by omega)
            rintro ⟨result, hresult⟩
            rw [List.foldlM_cons] at hresult
            obtain ⟨next, hnext, -⟩ := bind_eq_ok.1 hresult
            unfold addPinned at hnext
            rw [hruntime, hfind] at hnext
            obtain ⟨_, -, hnext⟩ := bind_eq_ok.1 hnext
            obtain ⟨_, hcheck, -⟩ := bind_eq_ok.1 hnext
            exact hroom (of_decide_eq_true (ok_of_require hcheck))

theorem verifyPinnedRuntime_congr (h : t.versions = m.versions) :
    verifyPinnedRuntime env t = verifyPinnedRuntime env m := by
  funext runtime
  unfold verifyPinnedRuntime ServiceRoot.generation
  rw [h]

theorem addPins_congr (h : t.versions = m.versions) : addPins env t = addPins env m := by
  funext pinned entry
  have hadd : addPinned env t = addPinned env m := by
    funext pinned runtime
    unfold addPinned
    rw [verifyPinnedRuntime_congr h]
  unfold addPins
  rw [hadd]

theorem load_of_foldlM (hroot : t.migrationPins.isSome = true) :
    (∃ pinned, loadVerifiedMigrationPins env t = .ok pinned) ↔
      t.pinEntries.length ≤ maxPinnedRuntimes ∧
        ∃ pinned, t.pinEntries.foldlM (addPins env t) [] = .ok pinned := by
  constructor
  · rintro ⟨pinned, h⟩
    obtain ⟨hcount, hpins⟩ := load_eq_foldlM h
    exact ⟨hcount, pinned, hpins⟩
  · rintro ⟨hcount, pinned, h⟩
    unfold ServiceRoot.pinEntries at hcount h
    unfold loadVerifiedMigrationPins
    cases hpins : t.migrationPins with
    | none =>
        rw [hpins] at hroot
        cases hroot
    | some folder =>
        rw [hpins] at hcount h
        exact ⟨pinned, bind_eq_ok.2 ⟨(), require_true _ (decide_eq_true hcount), h⟩⟩

theorem readPin_written (hvalid : pin.validate = true) :
    readPin (pinFileName pin.nonce) (.written pin) = .ok pin := by
  have hnonce : validNonce pin.nonce = true := by
    unfold MigrationRuntimePin.validate at hvalid
    simp only [Bool.and_eq_true] at hvalid
    exact hvalid.1.1.1.1
  have hname : pinNonce (pinFileName pin.nonce) = .ok pin.nonce := by
    unfold pinNonce pinFileName
    simp only [stripJson_append]
    exact bind_eq_ok.2 ⟨(), require_true _ hnonce, rfl⟩
  refine bind_eq_ok.2 ⟨pin.nonce, hname, ?_⟩
  rw [StoredFile.parse_written]
  exact bind_eq_ok.2 ⟨(), require_true _ hvalid, bind_eq_ok.2 ⟨(), require_true _ (by simp), rfl⟩⟩

theorem nodup_versions (hvalid : pin.validate = true) : (pin.runtimes.map (·.version)).Nodup := by
  unfold MigrationRuntimePin.validate at hvalid
  rw [Bool.and_eq_true] at hvalid
  exact of_decide_eq_true hvalid.2

/-- A new name is added at the end of the directory. -/
theorem pinEntries_of_fresh {name : FileName} (hfresh : m.pinFile name = none)
    (file : StoredFile MigrationRuntimePin) :
    (m.createPinRoot.putPin name file).pinEntries = m.pinEntries ++ [(name, file)] := by
  have habsent : m.createPinRoot.pinFile name = none := by
    unfold ServiceRoot.pinFile ServiceRoot.createPinRoot
    unfold ServiceRoot.pinFile at hfresh
    cases hpins : m.migrationPins with
    | none => rfl
    | some folder =>
        rw [hpins] at hfresh
        exact hfresh
  rw [pinEntries_putPin rfl, removePin_of_absent habsent, pinEntries_createPinRoot]

def pinnedNonce : String := "4a4a4a4a4a4a4a4a4a4a4a4a4a4a4a4a"

/-- One generation, and no pin. -/
def unpinnedStore : ServiceRoot exactNames :=
  { smallStore with migrationPins := none }

def threePin : MigrationRuntimePin :=
  ⟨pinnedNonce, ((List.finRange 67).take 3).map fun n => storedPin (numberedVersion n)⟩

theorem created_threePin :
    ((createMigrationRuntimePin storeEnvironment (fun _ => 1000) pinnedNonce).result [] unpinnedStore).1 =
      .done (some threePin) := by
  rfl

end MacTypeControl.Generations
