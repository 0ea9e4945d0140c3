import MacTypeControl.Installer.RepairConvergence
import Mathlib.Data.List.Nodup

/-!
# A repair that fails before its journal

Until its journal is written, a repair has only a staging directory to take back. It does so where
the staging fails, and nowhere else.
-/

namespace MacTypeControl.Installer

open Crash Crash.Prog Profile Storage

variable (env : RepairEnvironment) (payload : LoadedPayload)

/-- The end of the part that the journal does not cover. -/
def recordRepair : Repair RuntimeDirectoryReceipt := do
  let oldReceipt ← inspect .io fun m =>
    readRuntimeDirectoryReceipt env (m.runtimeVersions payload.version.text)
  writeRepairJournal (repairJournal env payload oldReceipt .prepared)
  ret oldReceipt

/-- The part of a repair that its journal does not cover. -/
def prepareRepair : Repair RuntimeDirectoryReceipt := do
  let collision ← observe fun m =>
    m.exists (repairStaging env payload) || m.exists (repairBackup env payload)
  ensure (!collision) (.runtime "runtime repair staging collision")
  createProtectedDirectory (repairStaging env payload)
  (stageRepairPayload env payload (repairStaging env payload)).handle fun error => do
    let _ ← (removeRepairDirectory env (repairStaging env payload)).attempt
    throw error
  recordRepair env payload

/-- The file whose write is the step of the staging with this number, and as much of its content
as the `caught`-th outcome of a write that fails leaves. The last step is no write. -/
def caughtFile (files : List RuntimeFile) (step caught : ℕ) : Option (RuntimeFile × Bytes) :=
  files[step]?.bind fun file =>
    ((env.caughtWrites (payload.files file))[caught]?).map fun bytes => (file, bytes)

/-- What the staging of the files has written when its step with this number fails. -/
def leftContents (files : List RuntimeFile) (step caught : ℕ) : List (RuntimeFile × Bytes) :=
  (files.take step).map (fun file => (file, payload.files file)) ++
    (caughtFile env payload files step caught).toList

/-- The names collide, or the system does not even create the staging directory, or it refuses a
step of the staging after `step` others and then none of the removal, which looks at what is
left, deletes it file by file, and deletes the directory. -/
def LeavesNothing (faults : List Fault) (m : RepairStorage) : Prop :=
  (m.exists (repairStaging env payload) || m.exists (repairBackup env payload)) = true ∨
  (∃ k rest, faults = .fail (k + 1) :: rest) ∨
  ∃ step caught rest, step ≤ payloadOrder.length ∧
    faults = .replicate (step + 1) .none ++ .fail caught :: rest ∧
    (∀ left ∈ leftContents env payload payloadOrder step caught,
      left.2.length ≤ maxRuntimeFileBytes) ∧
    Quiet ((leftContents env payload payloadOrder step caught).length + 2) rest

variable {env payload} {m t : RepairStorage}

theorem run_replaceRuntimePayload (faults : List Fault) (m : RepairStorage) :
    (replaceRuntimePayload env payload).run faults m =
      (prepareRepair env payload >>= exchangeDirectories env payload).run faults m := by
  unfold replaceRuntimePayload prepareRepair recordRepair
  simp only [run_bind, run_observe]
  rcases (ensure (!(m.exists (repairStaging env payload) ||
    m.exists (repairBackup env payload))) _ : Repair Unit).run faults m with ⟨_ | _ | _, s, r⟩
  · dsimp only
    rcases (createProtectedDirectory (repairStaging env payload)).run r s with ⟨_ | _ | _, t, q⟩
    · dsimp only
      rcases ((stageRepairPayload env payload (repairStaging env payload)).handle _).run q t with
        ⟨_ | _ | _, u, p⟩
      · dsimp only
        rcases (inspect _ _ : Repair RuntimeDirectoryReceipt).run p u with ⟨oldReceipt | _ | _, v, o⟩
        · dsimp only
          rcases (writeRepairJournal (repairJournal env payload oldReceipt .prepared)).run o v with
            ⟨_ | _ | _, w, n⟩ <;> rfl
        · rfl
        · rfl
      · rfl
      · rfl
    · rfl
    · rfl
  · rfl
  · rfl

/-! ## What one run shows -/

theorem error_of_result {α : Type} {program : Repair α} {Q : α → RepairStorage → Prop}
    {E : SetupError → RepairStorage → Prop} {C : RepairStorage → Prop} {faults rest : List Fault}
    {error : SetupError} (h : wp program Q E C m)
    (hrun : program.run faults m = (.error error, t, rest)) : E error t := by
  have hmeets := h faults
  unfold Prog.result at hmeets
  rw [hrun] at hmeets
  exact hmeets

theorem done_of_result {α : Type} {program : Repair α} {Q : α → RepairStorage → Prop}
    {E : SetupError → RepairStorage → Prop} {C : RepairStorage → Prop} {faults rest : List Fault}
    {a : α} (h : wp program Q E C m) (hrun : program.run faults m = (.done a, t, rest)) : Q a t := by
  have hmeets := h faults
  unfold Prog.result at hmeets
  rw [hrun] at hmeets
  exact hmeets

/-! ## What a staging has written -/

/-- The directory with each of the contents put into it. -/
def putAll (d : RuntimeDirectory) (contents : List (RuntimeFile × Bytes)) : RuntimeDirectory :=
  contents.foldl (fun d entry => d.put entry.1 entry.2) d

theorem files_putAll (contents : List (RuntimeFile × Bytes)) :
    ∀ (d : RuntimeDirectory), (contents.map Prod.fst).Nodup →
      (∀ entry ∈ contents, (putAll d contents).files entry.1 = some entry.2) ∧
        ∀ file ∉ contents.map Prod.fst, (putAll d contents).files file = d.files file := by
  induction contents with
  | nil => exact fun d _ => ⟨fun entry h => absurd h List.not_mem_nil, fun _ _ => rfl⟩
  | cons first rest ih =>
    intro d hnodup
    rw [List.map_cons, List.nodup_cons] at hnodup
    obtain ⟨hlisted, hother⟩ := ih (d.put first.1 first.2) hnodup.2
    refine ⟨fun entry hentry => ?_, fun file hfile => ?_⟩
    · rcases List.mem_cons.1 hentry with rfl | hrest
      · exact (hother entry.1 hnodup.1).trans (Function.update_self ..)
      · exact hlisted entry hrest
    · rw [List.map_cons, List.mem_cons, not_or] at hfile
      exact (hother file hfile.2).trans (Function.update_of_ne hfile.1 ..)

/-- A directory of the staging has nothing but files of the runtime. -/
theorem rest_putAll (contents : List (RuntimeFile × Bytes)) (d : RuntimeDirectory) :
    (putAll d contents).profile = d.profile ∧ (putAll d contents).temporaries = d.temporaries ∧
      (putAll d contents).foreign = d.foreign := by
  induction contents generalizing d with
  | nil => exact ⟨rfl, rfl, rfl⟩
  | cons first rest ih => exact ih (d.put first.1 first.2)

theorem putAll_payload : putAll .empty (payloadOrder.map fun file => (file, payload.files file)) =
    payloadDirectory payload := by
  obtain ⟨hfiles, -⟩ := files_putAll (payloadOrder.map fun file => (file, payload.files file))
    .empty (by simp [payloadOrder])
  obtain ⟨hprofile, htemporaries, hforeign⟩ :=
    rest_putAll (payloadOrder.map fun file => (file, payload.files file)) .empty
  refine RuntimeDirectory.eq_of_content (fun entry => ?_) htemporaries hforeign
  cases entry with
  | file file =>
    have hlisted : file ∈ payloadOrder := by cases file <;> decide
    exact hfiles (file, payload.files file) (List.mem_map_of_mem hlisted)
  | profile => exact hprofile

theorem nodup_leftContents {files : List RuntimeFile} (hnodup : files.Nodup) (step caught : ℕ) :
    ((leftContents env payload files step caught).map Prod.fst).Nodup := by
  have hstart : ((leftContents env payload files step caught).map Prod.fst).Sublist
      (files.take (step + 1)) := by
    unfold leftContents caughtFile
    rw [List.map_append, List.map_map, List.take_add_one]
    refine List.Sublist.append (by simp [Function.comp_def]) ?_
    cases files[step]? with
    | none => exact List.nil_sublist _
    | some file =>
      rw [Option.bind_some]
      cases (env.caughtWrites (payload.files file))[caught]? with
      | none => exact List.nil_sublist _
      | some bytes => exact List.Sublist.refl _
  exact (hnodup.sublist (List.take_sublist _ _)).sublist hstart

theorem leftContents_cons (file : RuntimeFile) (rest : List RuntimeFile) (step caught : ℕ) :
    leftContents env payload (file :: rest) (step + 1) caught =
      (file, payload.files file) :: leftContents env payload rest step caught := by
  simp [leftContents, caughtFile]

/-! ## The staging, step by step -/

variable {name : String} {d : RuntimeDirectory}

theorem createdFile_ok {file : RuntimeFile} (habsent : d.files file = none) (bytes : Bytes) :
    createdFile name file (m.set name (some d)) bytes =
      .ok (m.set name (some (d.put file bytes))) := by
  unfold createdFile
  rw [RepairStorage.set_self]
  dsimp only
  rw [require_true _ (by rw [habsent]; rfl), RepairStorage.set_set]
  rfl

theorem straight_writeSynced (rest : List RuntimeFile) {file : RuntimeFile} (habsent : d.files file = none) :
    Straight (writeSynced env name file (payload.files file)) (m.set name (some d)) .io
      [fun caught => m.set name (some (putAll d (leftContents env payload (file :: rest) 0 caught)))]
      ()
      (m.set name (some (d.put file (payload.files file)))) := by
  have hstep : Straight (step SetupError.io
      (fun m => (env.caughtWrites (payload.files file)).filterMap fun content =>
        (createdFile name file m content).toOption)
      (fun m => (createdFile name file m (payload.files file)).map fun t => ((), t)))
      (m.set name (some d)) .io _ () (m.set name (some (d.put file (payload.files file)))) :=
    straight_step (by rw [createdFile_ok habsent]; rfl)
  unfold writeSynced
  convert hstep using 2
  funext caught
  simp only [interrupted, createdFile_ok habsent, Except.toOption, leftContents, caughtFile,
    List.filterMap_eq_map', List.getElem?_map, List.getElem?_cons_zero, Option.bind_some]
  cases (env.caughtWrites (payload.files file))[caught]? with
  | none => rfl
  | some bytes => rfl

theorem straight_writePayloadFiles {files : List RuntimeFile} :
    ∀ {d : RuntimeDirectory}, files.Nodup → (∀ file ∈ files, d.files file = none) →
      Straight (writePayloadFiles env payload name files) (m.set name (some d)) .io
        ((List.range files.length).map fun step caught =>
          m.set name (some (putAll d (leftContents env payload files step caught)))) ()
        (m.set name (some (putAll d (files.map fun file => (file, payload.files file))))) := by
  induction files with
  | nil => exact fun _ _ => straight_ret .io () _
  | cons file rest ih =>
    intro d hnodup habsent
    rw [List.nodup_cons] at hnodup
    have hrest : ∀ other ∈ rest, (d.put file (payload.files file)).files other = none := by
      intro other hother
      have hne : other ≠ file := fun heq => hnodup.1 (heq ▸ hother)
      exact (Function.update_of_ne hne ..).trans (habsent other (List.mem_cons_of_mem _ hother))
    rw [List.length_cons, List.range_succ_eq_map, List.map_cons, List.map_map]
    simp only [Function.comp_def, leftContents_cons]
    exact straight_bind (straight_writeSynced rest (habsent file List.mem_cons_self))
      (ih hnodup.2 hrest)

/-- The staging has one step for each file, and one that verifies the whole. -/
theorem straight_stageRepairPayload :
    Straight (stageRepairPayload env payload name) (m.set name (some .empty)) .io
      ((List.range (payloadOrder.length + 1)).map fun step caught =>
        m.set name (some (putAll .empty (leftContents env payload payloadOrder step caught)))) ()
      (m.set name (some (payloadDirectory payload))) := by
  have hwrite : Straight (writePayloadFiles env payload name payloadOrder)
      (m.set name (some .empty)) .io _ () _ :=
    straight_writePayloadFiles (by decide) fun _ _ => rfl
  rw [putAll_payload] at hwrite
  have hverify : Straight (inspect SetupError.io fun s : RepairStorage =>
      verifyExistingPayload payload (s.runtimeVersions name))
      (m.set name (some (payloadDirectory payload))) .io
      [fun _ => m.set name (some (payloadDirectory payload))] ()
      (m.set name (some (payloadDirectory payload))) :=
    straight_inspect (by rw [RepairStorage.set_self]; exact verify_payloadDirectory)
  have hlast : ∀ caught, leftContents env payload payloadOrder payloadOrder.length caught =
      payloadOrder.map fun file => (file, payload.files file) := by
    intro caught
    simp [leftContents, caughtFile]
  unfold stageRepairPayload
  rw [List.range_succ, List.map_append, List.map_singleton]
  simp only [hlast, putAll_payload]
  exact straight_bind hwrite hverify

/-! ## The removal, step by step -/

variable (m name) in
theorem straight_eachEntry (entries : List RuntimeEntry) :
    ∀ (d : RuntimeDirectory), entries.Nodup →
      (∀ entry ∈ entries, (d.content entry).isSome = true) →
      ∃ left e, left.length = entries.length ∧ e.temporaries = d.temporaries ∧
        e.foreign = d.foreign ∧
        (∀ entry, e.content entry = if entry ∈ entries then none else d.content entry) ∧
        Straight (eachEntry (removeEntry name) entries) (m.set name (some d)) .io left ()
          (m.set name (some e)) := by
  induction entries with
  | nil => exact fun d _ _ => ⟨[], d, rfl, rfl, rfl, fun entry => by simp, straight_ret .io () _⟩
  | cons entry rest ih =>
    intro d hnodup hpresent
    rw [List.nodup_cons] at hnodup
    have hrest : ∀ other ∈ rest, ((d.erase entry).content other).isSome = true := by
      intro other hother
      have hne : other ≠ entry := fun heq => hnodup.1 (heq ▸ hother)
      rw [d.content_erase_of_ne hne]
      exact hpresent other (List.mem_cons_of_mem _ hother)
    obtain ⟨left, e, hlength, htemporaries, hforeign, hcontent, hrun⟩ :=
      ih (d.erase entry) hnodup.2 hrest
    have hfirst : Straight (removeEntry name entry) (m.set name (some d)) .io
        [fun _ => m.set name (some d)] () (m.set name (some (d.erase entry))) := by
      refine straight_atomic ?_
      rw [RepairStorage.set_self]
      dsimp only
      rw [require_true _ (hpresent entry List.mem_cons_self), RepairStorage.set_set]
      rfl
    refine ⟨_ :: left, e, by rw [List.length_cons, List.length_cons, hlength], ?_, ?_, ?_,
      straight_bind hfirst hrun⟩
    · rw [htemporaries, d.temporaries_erase]
    · rw [hforeign, d.foreign_erase]
    · intro other
      rw [hcontent other]
      by_cases hother : other = entry
      · rw [hother, d.content_erase_self]
        simp
      · rw [d.content_erase_of_ne hother]
        simp [hother]

theorem length_listing {contents : List (RuntimeFile × Bytes)}
    (hnodup : (contents.map Prod.fst).Nodup) :
    (env.listing (putAll .empty contents)).length = contents.length := by
  obtain ⟨hfiles, hother⟩ := files_putAll contents .empty hnodup
  obtain ⟨hprofile, -, -⟩ := rest_putAll contents .empty
  have hnames : ((contents.map Prod.fst).map RuntimeEntry.file).Nodup :=
    List.Nodup.map (fun _ _ h => by cases h; rfl) hnodup
  have hsame : (env.listing (putAll .empty contents)).Perm
      ((contents.map Prod.fst).map RuntimeEntry.file) := by
    refine (List.perm_ext_iff_of_nodup (env.nodup_listing _) hnames).2 fun entry => ?_
    rw [env.mem_listing]
    cases entry with
    | file file =>
      by_cases hlisted : file ∈ contents.map Prod.fst
      · obtain ⟨entry, hentry, rfl⟩ := List.mem_map.1 hlisted
        refine iff_of_true ?_ (List.mem_map_of_mem hlisted)
        exact (congrArg Option.isSome (hfiles entry hentry)).trans rfl
      · refine iff_of_false ?_ ?_
        · rw [show (putAll .empty contents).content (.file file) = none from hother file hlisted]
          simp
        · simpa using hlisted
    | profile =>
      refine iff_of_false ?_ (by simp)
      rw [show (putAll .empty contents).content .profile = none from hprofile]
      simp
  rw [hsame.length_eq, List.length_map, List.length_map]

theorem repairEntries_putAll {contents : List (RuntimeFile × Bytes)}
    (hnodup : (contents.map Prod.fst).Nodup) {entries : List RuntimeEntry} :
    repairEntries env (some (putAll .empty contents)) = .ok entries ↔
      (∀ left ∈ contents, left.2.length ≤ maxRuntimeFileBytes) ∧
        env.listing (putAll .empty contents) = entries := by
  obtain ⟨hfiles, hother⟩ := files_putAll contents .empty hnodup
  obtain ⟨hprofile, htemporaries, hforeign⟩ := rest_putAll contents .empty
  have hclean : ((putAll .empty contents).temporaries == [] &&
      (putAll .empty contents).foreign == []) = true := by
    rw [htemporaries, hforeign]
    rfl
  have hsizes : ((env.listing (putAll .empty contents)).all fun entry =>
      ((putAll .empty contents).content entry).all fun bytes =>
        decide (bytes.length ≤ entryLimit entry)) = true ↔
      ∀ left ∈ contents, left.2.length ≤ maxRuntimeFileBytes := by
    rw [List.all_eq_true]
    constructor
    · intro h left hleft
      have hcontent : (putAll .empty contents).content (.file left.1) = some left.2 :=
        hfiles left hleft
      have hfits := h (.file left.1) ((env.mem_listing _ _).2 (by rw [hcontent]; rfl))
      rw [hcontent] at hfits
      exact of_decide_eq_true hfits
    · intro h entry _
      cases entry with
      | file file =>
        by_cases hlisted : file ∈ contents.map Prod.fst
        · obtain ⟨left, hleft, rfl⟩ := List.mem_map.1 hlisted
          rw [show (putAll .empty contents).content (.file left.1) = some left.2 from
            hfiles left hleft]
          exact decide_eq_true (h left hleft)
        · rw [show (putAll .empty contents).content (.file file) = none from hother file hlisted]
          rfl
      | profile =>
        rw [show (putAll .empty contents).content .profile = none from hprofile]
        rfl
  unfold repairEntries
  rw [← hsizes]
  constructor
  · intro h
    obtain ⟨listed, hlisted, h⟩ := bind_eq_ok.1 h
    rw [readBoundedDirectory_ok htemporaries hforeign] at hlisted
    cases hlisted
    obtain ⟨_, _, h⟩ := bind_eq_ok.1 h
    obtain ⟨_, hfits, h⟩ := bind_eq_ok.1 h
    exact ⟨ok_of_require hfits, Except.ok.inj h⟩
  · rintro ⟨hfits, rfl⟩
    refine bind_eq_ok.2 ⟨_, readBoundedDirectory_ok htemporaries hforeign _, ?_⟩
    exact bind_eq_ok.2 ⟨(), require_true _ hclean, bind_eq_ok.2 ⟨(), require_true _ hfits, rfl⟩⟩

variable (env) in
/-- The removal looks at what is there, deletes each file, and deletes the directory. -/
theorem straight_removeStaged {contents : List (RuntimeFile × Bytes)}
    (hnodup : (contents.map Prod.fst).Nodup)
    (hfits : ∀ left ∈ contents, left.2.length ≤ maxRuntimeFileBytes)
    (hfree : m.runtimeVersions name = none) :
    ∃ left, left.length = contents.length + 2 ∧
      Straight (removeRepairDirectory env name) (m.set name (some (putAll .empty contents))) .io
        left () m := by
  obtain ⟨-, htemporaries, hforeign⟩ := rest_putAll contents .empty
  obtain ⟨left, e, hlength, htemporaries', hforeign', hcontent, hrun⟩ :=
    straight_eachEntry m name (env.listing (putAll .empty contents))
      (putAll .empty contents) (env.nodup_listing _) fun entry => (env.mem_listing _ entry).1
  have hnone : ∀ entry, e.content entry = none := by
    intro entry
    rw [hcontent entry]
    by_cases hentry : entry ∈ env.listing (putAll .empty contents)
    · exact if_pos hentry
    · rw [if_neg hentry]
      rw [env.mem_listing] at hentry
      simpa using hentry
  have hempty := RuntimeDirectory.entryCount_of_empty hnone (htemporaries'.trans htemporaries)
    (hforeign'.trans hforeign)
  have hlook : Straight (inspect SetupError.io fun s => repairEntries env (s.runtimeVersions name))
      (m.set name (some (putAll .empty contents))) .io _ _ _ :=
    straight_inspect (by
      rw [RepairStorage.set_self]
      exact (repairEntries_putAll hnodup).2 ⟨hfits, rfl⟩)
  have hlast : Straight (removeDirectory name) (m.set name (some e)) .io
      [fun _ => m.set name (some e)] () m := by
    refine straight_atomic ?_
    rw [RepairStorage.set_self]
    dsimp only
    rw [require_true _ (beq_iff_eq.2 hempty), RepairStorage.set_set,
      RepairStorage.set_eq_self hfree]
    rfl
  refine ⟨_, ?_, straight_bind hlook (straight_bind hrun hlast)⟩
  rw [List.length_append, List.length_append, hlength, length_listing hnodup]
  simp only [List.length_singleton]
  omega

variable (env) in
/-- The removal of what a staging has left completes just when no file of it is too long and none
of its steps fails. -/
theorem removeStaged_done_iff {contents : List (RuntimeFile × Bytes)}
    (hnodup : (contents.map Prod.fst).Nodup) (hfree : m.runtimeVersions name = none)
    {fs gs : List Fault} :
    (removeRepairDirectory env name).run fs (m.set name (some (putAll .empty contents))) =
        (.done (), t, gs) ↔
      (∀ left ∈ contents, left.2.length ≤ maxRuntimeFileBytes) ∧ Quiet (contents.length + 2) fs ∧
        m = t ∧ fs.drop (contents.length + 2) = gs := by
  by_cases hfits : ∀ left ∈ contents, left.2.length ≤ maxRuntimeFileBytes
  · obtain ⟨left, hlength, hrun⟩ := straight_removeStaged env hnodup hfits hfree
    rw [hrun fs, straightRun_done_iff, hlength]
    rw [and_iff_right hfits, and_iff_right rfl]
  · refine iff_of_false (fun hdone => ?_) fun h => hfits h.1
    have hnever : wp (removeRepairDirectory env name) (fun _ _ => False) (fun _ _ => True)
        (fun _ => True) (m.set name (some (putAll .empty contents))) := by
      refine wp_bind (wp_inspect (fun _ hentries => ?_) (fun _ _ => trivial) trivial trivial)
      rw [RepairStorage.set_self] at hentries
      exact absurd ((repairEntries_putAll hnodup).1 hentries).1 hfits
    exact done_of_result hnever hdone

/-! ## What a failed preparation leaves -/

/-- The store with a staging directory beside what it had. -/
def Staged (env : RepairEnvironment) (payload : LoadedPayload) (m t : RepairStorage) : Prop :=
  ∃ d, t = m.set (repairStaging env payload) (some d)

theorem Staged.ne (hfree : m.runtimeVersions (repairStaging env payload) = none)
    (h : Staged env payload m t) : t ≠ m := by
  rintro rfl
  obtain ⟨d, hd⟩ := h
  have hthere := congrArg (·.runtimeVersions (repairStaging env payload)) hd
  rw [RepairStorage.set_self, hfree] at hthere
  cases hthere

theorem Staged.change (h : Staged env payload m t) (d : RuntimeDirectory) :
    Staged env payload m (t.set (repairStaging env payload) (some d)) := by
  obtain ⟨e, rfl⟩ := h
  exact ⟨d, RepairStorage.set_set m _ _ _⟩

/-- A removal that fails leaves the staging directory. -/
theorem wp_removeStaged (h : Staged env payload m t) :
    wp (removeRepairDirectory env (repairStaging env payload)) (fun _ _ => True)
      (fun _ => Staged env payload m) (fun _ => True) t := by
  unfold removeRepairDirectory
  refine wp_bind (wp_inspect (fun entries _ => ?_) (fun _ _ => h) h trivial)
  refine wp_bind (wp_mono ((maintains_eachEntry (maintains_removeEntry fun u d entry hu _ =>
    hu.change _) entries) t h) (fun _ u hu => ?_) (fun _ _ hu => hu) fun _ _ => trivial)
  exact wp_removeDirectory trivial (fun _ => hu.2) trivial

/-- From the staged payload on, an error leaves the staging directory behind. -/
theorem wp_recordRepair (h : Staged env payload m t) :
    wp (recordRepair env payload) (fun _ _ => True) (fun _ => Staged env payload m)
      (fun _ => True) t := by
  unfold recordRepair
  refine wp_bind (wp_inspect (fun _ _ => ?_) (fun _ _ => h) h trivial)
  exact wp_bind (wp_modify (wp_ret trivial) h trivial)

variable (env payload m name) in
theorem stage_error_iff {error : SetupError} {fs gs : List Fault} :
    (stageRepairPayload env payload name).run fs (m.set name (some .empty)) = (.error error, t, gs) ↔
      ∃ step caught, step ≤ payloadOrder.length ∧
        fs = .replicate step .none ++ .fail caught :: gs ∧ .io = error ∧
        m.set name (some (putAll .empty (leftContents env payload payloadOrder step caught))) = t := by
  rw [straight_stageRepairPayload fs, straightRun_error_iff]
  refine exists_congr fun step => exists_congr fun caught => ?_
  rw [List.getElem?_map, Option.map_map, Option.map_eq_some_iff]
  constructor
  · rintro ⟨hfs, hio, last, hlast, hleft⟩
    obtain ⟨hstep, rfl⟩ := List.getElem?_eq_some_iff.1 hlast
    rw [List.length_range] at hstep
    rw [List.getElem_range] at hleft
    exact ⟨Nat.le_of_lt_succ hstep, hfs, hio, hleft⟩
  · rintro ⟨hstep, hfs, hio, hleft⟩
    exact ⟨hfs, hio, step, List.getElem?_range (Nat.lt_succ_of_le hstep), hleft⟩

/-- After its directory is created, a staging is taken back where it fails and its removal does
not, and nothing else is. -/
theorem staged_unchanged_iff {fs rest : List Fault} {error : SetupError}
    (hfree : m.runtimeVersions (repairStaging env payload) = none)
    (h : ((stageRepairPayload env payload (repairStaging env payload)).handle (fun error => do
        let _ ← (removeRepairDirectory env (repairStaging env payload)).attempt
        throw error) >>= fun _ => recordRepair env payload).run fs
      (m.set (repairStaging env payload) (some .empty)) = (.error error, t, rest)) :
    t = m ↔ ∃ step caught gs, step ≤ payloadOrder.length ∧
      fs = .replicate step .none ++ .fail caught :: gs ∧
      (∀ left ∈ leftContents env payload payloadOrder step caught,
        left.2.length ≤ maxRuntimeFileBytes) ∧
      Quiet ((leftContents env payload payloadOrder step caught).length + 2) gs := by
  have hnodup : ∀ step caught,
      ((leftContents env payload payloadOrder step caught).map Prod.fst).Nodup :=
    nodup_leftContents (by decide)
  rw [run_bind, run_handle] at h
  rcases hstage : (stageRepairPayload env payload (repairStaging env payload)).run fs
    (m.set (repairStaging env payload) (some .empty)) with ⟨_ | cause | _, u, q⟩
  · -- the payload is staged, and nothing takes it back
    rw [hstage] at h
    have hdone := hstage
    rw [straight_stageRepairPayload fs, straightRun_done_iff] at hdone
    obtain ⟨-, -, rfl, -⟩ := hdone
    refine iff_of_false ((error_of_result (wp_recordRepair ⟨_, rfl⟩) h).ne hfree) ?_
    rintro ⟨step, caught, gs, hstep, hfs, -⟩
    have herror := (stage_error_iff env payload m (repairStaging env payload)).2
      ⟨step, caught, hstep, hfs, rfl, rfl⟩
    rw [hstage] at herror
    cases herror
  · obtain ⟨step, caught, hstep, hfs, -, rfl⟩ := (stage_error_iff ..).1 hstage
    rw [hstage] at h
    dsimp only at h
    rw [run_bind, run_attempt] at h
    rcases hremove : (removeRepairDirectory env (repairStaging env payload)).run q
      (m.set (repairStaging env payload) (some (putAll .empty
        (leftContents env payload payloadOrder step caught)))) with ⟨_ | failure | _, v, o⟩
    · rw [hremove] at h
      obtain ⟨-, rfl, -⟩ : cause = error ∧ v = t ∧ o = rest := by simpa using h
      obtain ⟨hfits, hquiet, hsame, -⟩ := (removeStaged_done_iff env (hnodup step caught) hfree).1
        hremove
      exact iff_of_true hsame.symm ⟨step, caught, q, hstep, hfs, hfits, hquiet⟩
    · rw [hremove] at h
      obtain ⟨-, rfl, -⟩ : cause = error ∧ v = t ∧ o = rest := by simpa using h
      refine iff_of_false ((error_of_result (wp_removeStaged ⟨_, rfl⟩) hremove).ne hfree) ?_
      rintro ⟨step', caught', gs, hstep', hfs', hfits, hquiet⟩
      -- the script says which step has failed, and so what is to be removed
      have hagain := (stage_error_iff env payload m (repairStaging env payload)).2
        ⟨step', caught', hstep', hfs', rfl, rfl⟩
      rw [hstage] at hagain
      obtain ⟨-, hagain⟩ := Prod.mk.inj hagain
      obtain ⟨hstate, rfl⟩ := Prod.mk.inj hagain
      have hdone := (removeStaged_done_iff env (hnodup step' caught') hfree).2
        ⟨hfits, hquiet, rfl, rfl⟩
      rw [← hstate, hremove] at hdone
      cases hdone
    · rw [hremove] at h
      cases h
  · rw [hstage] at h
    cases h

theorem prepareRepair_unchanged_iff {faults rest : List Fault} {error : SetupError}
    (h : (prepareRepair env payload).run faults m = (.error error, t, rest)) :
    t = m ↔ LeavesNothing env payload faults m := by
  unfold prepareRepair at h
  rw [run_bind, run_observe] at h
  dsimp only at h
  by_cases hcollision : (m.exists (repairStaging env payload) ||
      m.exists (repairBackup env payload)) = true
  · rw [hcollision] at h
    obtain ⟨-, rfl, -⟩ : SetupError.runtime _ = error ∧ m = t ∧ faults = rest := by
      simpa [run_bind, ensure] using h
    exact iff_of_true rfl (Or.inl hcollision)
  have hfree : m.runtimeVersions (repairStaging env payload) = none := by
    rw [Bool.or_eq_true, not_or, RepairStorage.exists_eq] at hcollision
    simpa using hcollision.1
  have hcreated : m.set (repairStaging env payload)
      (some ((m.runtimeVersions (repairStaging env payload)).getD .empty)) =
        m.set (repairStaging env payload) (some .empty) := by
    rw [hfree]
    rfl
  rw [Bool.eq_false_iff.2 hcollision] at h
  change (createProtectedDirectory (repairStaging env payload) >>= _).run faults m = _ at h
  rw [run_bind] at h
  unfold LeavesNothing
  rw [or_iff_right hcollision]
  rcases faults with _ | ⟨_ | k | k, faults⟩
  · have hstaged := staged_unchanged_iff hfree (by rw [← hcreated]; exact h)
    rw [hstaged]
    simp
  · have hstaged := staged_unchanged_iff hfree (by rw [← hcreated]; exact h)
    rw [hstaged]
    simp [List.replicate_succ]
  · have hrun : (createProtectedDirectory (repairStaging env payload)).run (.fail k :: faults) m =
        (.error .io, interrupted (fun m => [m.set (repairStaging env payload)
          (some ((m.runtimeVersions (repairStaging env payload)).getD .empty))]) k m, faults) := rfl
    rw [hrun] at h
    have hleft : SetupError.io = error ∧
        interrupted (fun m => [m.set (repairStaging env payload)
          (some ((m.runtimeVersions (repairStaging env payload)).getD .empty))]) k m = t ∧
        faults = rest := by
      simpa using h
    cases k with
    | zero =>
      refine iff_of_false ((show Staged env payload m t from ⟨_, hleft.2.1.symm⟩).ne hfree) ?_
      simp [List.replicate_succ]
    | succ k => exact iff_of_true hleft.2.1.symm (Or.inl ⟨k, faults, rfl⟩)
  · cases h

/-- An error that a repair returns before its journal is durable changes nothing if and only if
the staging directory was not created or its staging failed and its removal did not. -/
theorem failed_repair_unchanged_iff (env : RepairEnvironment) (payload : LoadedPayload)
    {m t : RepairStorage} {faults : List Fault} {error : SetupError}
    (hresult : (replaceRuntimePayload env payload).result faults m = (.error error, t))
    (hbefore : ∀ oldReceipt u rest,
      (prepareRepair env payload).run faults m ≠ (.done oldReceipt, u, rest)) :
    t = m ↔ LeavesNothing env payload faults m := by
  unfold Prog.result at hresult
  rw [run_replaceRuntimePayload, run_bind] at hresult
  rcases hprepare : (prepareRepair env payload).run faults m with ⟨oldReceipt | cause | _, u, rest⟩
  · exact absurd hprepare (hbefore oldReceipt u rest)
  · rw [hprepare] at hresult
    obtain ⟨-, rfl⟩ : cause = error ∧ u = t := by simpa using hresult
    exact prepareRepair_unchanged_iff hprepare
  · rw [hprepare] at hresult
    cases hresult

/-- The first file of the payload cannot be written. -/
theorem failed_staging_changes_nothing :
    ((replaceRuntimePayload repairEnvironment repairPayload).result [.none, .fail 0]
      damagedStorage).2 = damagedStorage := by
  have hresult : (replaceRuntimePayload repairEnvironment repairPayload).result [.none, .fail 0]
      damagedStorage = (.error .io, _) := rfl
  refine (failed_repair_unchanged_iff repairEnvironment repairPayload hresult ?_).2 ?_
  · intro oldReceipt u rest h
    cases h
  · exact Or.inr (Or.inr ⟨0, 0, [], by decide, rfl, by decide, quiet_nil _⟩)

/-- An unsigned file is in the generation that is to be repaired. -/
def foreignStorage : RepairStorage where
  runtimeVersions name :=
    if name = "1.0.0" then some { damagedRuntime with foreign := ["notes.txt"] } else none
  repairJournal := none
  deferredDeletions := []

theorem unreadable_receipt_leaves_staging :
    ¬∀ (env : RepairEnvironment) (payload : LoadedPayload) (m t : RepairStorage)
      (faults : List Fault) (error : SetupError),
      (replaceRuntimePayload env payload).result faults m = (.error error, t) →
      (∀ oldReceipt u rest,
        (prepareRepair env payload).run faults m ≠ (.done oldReceipt, u, rest)) → t = m := by
  intro h
  have hsame := h repairEnvironment repairPayload foreignStorage _ [] _ rfl
    fun _ _ _ hdone => by cases hdone
  have hstaging := congrArg
    (fun s : RepairStorage => s.exists (repairStaging repairEnvironment repairPayload)) hsame
  revert hstaging
  decide

end MacTypeControl.Installer
