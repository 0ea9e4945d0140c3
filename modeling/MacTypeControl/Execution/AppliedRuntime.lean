import MacTypeControl.Execution.GenerationStore
import Mathlib.Data.List.Basic
import Mathlib.Data.Set.Function

/-!
# The runtime that a call has applied

Every generation holds what an earlier call wanted to apply, however the calls were stopped. Its
name is computed from the profile and the artifacts put one after another, which is the same for
some different contents: the second of them is answered with the generation of the first.
-/

namespace MacTypeControl.Execution

open Crash Crash.Prog Profile

variable {env : Surroundings Unit}

/-! ## Directories -/

namespace Base

variable {s : Base} {name other : String} {value : Option Directory}

theorem directory_setDirectory_of_ne (h : other ≠ name) :
    (s.setDirectory name value).directory other = s.directory other := by
  unfold directory setDirectory
  cases s.generations with
  | none => rfl
  | some directories => exact if_neg h

theorem directory_setDirectory (h : s.generations.isSome = true) :
    (s.setDirectory name value).directory name = value := by
  obtain ⟨directories, hsome⟩ := Option.isSome_iff_exists.1 h
  unfold directory setDirectory
  rw [hsome]
  exact if_pos rfl

theorem isSome_setDirectory :
    (s.setDirectory name value).generations.isSome = s.generations.isSome := by
  unfold setDirectory
  cases s.generations <;> rfl

end Base

/-! ## What a call reads -/

theorem collectArtifacts_names {installation : Installation} :
    ∀ {artifacts : List (String × Bool)} {sources : List (String × Bytes)},
      collectArtifacts installation artifacts = .ok sources →
        (sources.map Prod.fst).Sublist (artifacts.map Prod.fst) := by
  intro artifacts
  induction artifacts with
  | nil =>
    intro sources h
    cases h
    exact List.Sublist.slnil
  | cons artifact rest ih =>
    obtain ⟨name, required⟩ := artifact
    intro sources h
    unfold collectArtifacts at h
    dsimp only at h
    split at h
    · split at h
      · cases h
      · exact (ih h).cons _
    · obtain ⟨_, _, h⟩ := bind_eq_ok.1 h
      obtain ⟨_, _, h⟩ := bind_eq_ok.1 h
      obtain ⟨bytes, _, h⟩ := bind_eq_ok.1 h
      obtain ⟨found, hfound, h⟩ := bind_eq_ok.1 h
      cases h
      exact (ih hfound).cons_cons _

/-- A content as it is read: with artifacts only, each at most once and in their order. -/
def IsRead (content : Content) : Prop :=
  (content.sources.map Prod.fst).Sublist (runtimeArtifacts.map Prod.fst)

theorem isRead_of_readContent {call : Applying} {content : Content}
    (h : readContent call = .ok content) : IsRead content := by
  unfold readContent at h
  obtain ⟨_, _, h⟩ := bind_eq_ok.1 h
  obtain ⟨_, _, h⟩ := bind_eq_ok.1 h
  obtain ⟨_, _, h⟩ := bind_eq_ok.1 h
  obtain ⟨sources, hsources, h⟩ := bind_eq_ok.1 h
  cases h
  exact collectArtifacts_names hsources

/-- A list with names from a list of different names is what it has under them. -/
theorem eq_filterMap_lookup {names : List String} (hnames : names.Nodup) :
    ∀ {sources : List (String × Bytes)}, (sources.map Prod.fst).Sublist names →
      sources = names.filterMap fun name => (sources.lookup name).map (Prod.mk name) := by
  induction names with
  | nil =>
    intro sources h
    rw [List.sublist_nil, List.map_eq_nil_iff] at h
    rw [h]
    rfl
  | cons name names ih =>
    obtain ⟨hfresh, hnodup⟩ := List.nodup_cons.1 hnames
    intro sources h
    rcases List.sublist_cons_iff.1 h with hskip | ⟨rest, hsources, hrest⟩
    · have hnone : sources.lookup name = none := by
        rw [List.lookup_eq_none_iff]
        intro entry hentry
        have hmem : entry.1 ∈ names := hskip.subset (List.mem_map_of_mem hentry)
        have hne : name ≠ entry.1 := fun heq => hfresh (heq ▸ hmem)
        simpa using hne
      rw [List.filterMap_cons, hnone]
      exact ih hnodup hskip
    · obtain ⟨⟨first, bytes⟩, tail, rfl, rfl, rfl⟩ := List.map_eq_cons_iff.1 hsources
      have hlookup : ((first, bytes) :: tail).lookup first = some bytes := by
        rw [List.lookup_cons, beq_self_eq_true]
      rw [List.filterMap_cons, hlookup]
      congr 1
      have htail : names.filterMap (fun name =>
            (((first, bytes) :: tail).lookup name).map (Prod.mk name)) =
          names.filterMap fun name => (tail.lookup name).map (Prod.mk name) := by
        apply List.filterMap_congr
        intro other hother
        have hne : other ≠ first := fun heq => hfresh (heq ▸ hother)
        rw [List.lookup_cons, beq_eq_false_iff_ne.2 hne]
      exact (ih hnodup hrest).trans htail.symm

theorem eq_of_lookup {names : List String} (hnames : names.Nodup)
    {sources sources' : List (String × Bytes)} (h : (sources.map Prod.fst).Sublist names)
    (h' : (sources'.map Prod.fst).Sublist names)
    (hlookup : ∀ name ∈ names, sources.lookup name = sources'.lookup name) :
    sources = sources' := by
  rw [eq_filterMap_lookup hnames h, eq_filterMap_lookup hnames h']
  apply List.filterMap_congr
  intro name hname
  rw [hlookup name hname]

theorem artifactNames_nodup : (runtimeArtifacts.map Prod.fst).Nodup := by decide

/-- The files of a generation have different names. -/
theorem files_nodup {content : Content} (h : IsRead content) :
    (content.files.map Prod.fst).Nodup := by
  have hfiles : (content.files.map Prod.fst).Sublist
      (runtimeArtifacts.map Prod.fst ++ ["profile.ini", "MacType.ini"]) := by
    unfold Content.files
    rw [List.map_append]
    exact h.append_right _
  exact hfiles.nodup (by decide)

theorem lookup_artifact {content : Content} {artifact : String × Bool}
    (h : artifact ∈ runtimeArtifacts) :
    content.files.lookup artifact.1 = content.sources.lookup artifact.1 := by
  have hne : artifact.1 ≠ "profile.ini" ∧ artifact.1 ≠ "MacType.ini" := by
    revert artifact
    decide
  unfold Content.files
  rw [List.lookup_append]
  simp [List.lookup_cons, beq_eq_false_iff_ne.2 hne.1, beq_eq_false_iff_ne.2 hne.2]

theorem lookup_profile {content : Content} (h : IsRead content) :
    content.files.lookup "profile.ini" = some content.profile := by
  have hnone : content.sources.lookup "profile.ini" = none := by
    rw [List.lookup_eq_none_iff]
    intro entry hentry
    have hmem : entry.1 ∈ runtimeArtifacts.map Prod.fst := h.subset (List.mem_map_of_mem hentry)
    have hother : ∀ name ∈ runtimeArtifacts.map Prod.fst, "profile.ini" ≠ name := by decide
    simpa using hother _ hmem
  unfold Content.files
  rw [List.lookup_append, hnone]
  rfl

/-- The directory has exactly the profile and the artifacts of the content. -/
def HasExactly (directory : Directory) (content : Content) : Prop :=
  directory.lookup "profile.ini" = some content.profile ∧
    ∀ artifact ∈ runtimeArtifacts, directory.lookup artifact.1 = content.sources.lookup artifact.1

theorem hasExactly_files {content other : Content} (h : IsRead content) (hother : IsRead other) :
    HasExactly other.files content ↔ other = content := by
  constructor
  · intro ⟨hprofile, hsources⟩
    rw [lookup_profile hother] at hprofile
    have hlookup : ∀ name ∈ runtimeArtifacts.map Prod.fst,
        other.sources.lookup name = content.sources.lookup name := by
      intro name hname
      obtain ⟨artifact, hartifact, rfl⟩ := List.mem_map.1 hname
      rw [← lookup_artifact hartifact, hsources artifact hartifact]
    have hsame := eq_of_lookup artifactNames_nodup hother h hlookup
    cases other
    cases content
    simp_all
  · rintro rfl
    exact ⟨lookup_profile h, fun artifact hartifact => lookup_artifact hartifact⟩

/-! ## Staging -/

section

variable {s t : Base} {staging generation : String}

/-- Only the staging directory has changed. -/
structure OnlyStaging (staging : String) (s t : Base) : Prop where
  isSome : t.generations.isSome = true
  others : ∀ name, name ≠ staging → t.directory name = s.directory name

theorem OnlyStaging.set {value : Option Directory} (h : OnlyStaging staging s t) :
    OnlyStaging staging s (t.setDirectory staging value) where
  isSome := Base.isSome_setDirectory.trans h.isSome
  others name hname := (Base.directory_setDirectory_of_ne hname).trans (h.others name hname)

theorem maintains_removeDirAll :
    Maintains (OnlyStaging staging s) (removeDirAll staging) fun _ => True := by
  apply maintains_step
  · intro t _ u ht hu
    split at hu
    · cases hu
      exact ht.set
    · cases hu
  · intro t ht u hu
    split at hu
    · obtain ⟨rest, _, rfl⟩ := List.mem_map.1 hu
      exact ht.set
    · cases hu

/-- A new staging directory is empty. -/
theorem wp_createDir (h : OnlyStaging staging s t) : wp (createDir staging)
    (fun _ u => OnlyStaging staging s u ∧ u.directory staging = some [])
    (fun _ => OnlyStaging staging s) (OnlyStaging staging s) t := by
  refine wp_act ?_ (fun _ _ => h) h h
  intro u hu
  split at hu
  · cases hu
  · cases hu
    exact ⟨⟨h.set, Base.directory_setDirectory h.isSome⟩, h.set, h.set⟩

theorem putFile_of_fresh {name : String} {bytes : Bytes} {directory : Directory}
    (h : name ∉ directory.map Prod.fst) : putFile name bytes directory = directory ++ [(name, bytes)] := by
  unfold putFile
  rw [List.filter_eq_self.2]
  intro entry hentry
  have hne : entry.1 ≠ name := fun heq => h (heq ▸ List.mem_map_of_mem hentry)
  simpa using hne

theorem wp_writeFile {directory : Directory} {name : String} {bytes : Bytes}
    (h : OnlyStaging staging s t) (hdirectory : t.directory staging = some directory)
    (hfresh : name ∉ directory.map Prod.fst) : wp (writeFile staging name bytes)
    (fun _ u => OnlyStaging staging s u ∧ u.directory staging = some (directory ++ [(name, bytes)]))
    (fun _ => OnlyStaging staging s) (OnlyStaging staging s) t := by
  refine wp_step ?_ (fun _ _ => h) h h ?_
  · intro _ u hu
    rw [hdirectory] at hu
    cases hu
    rw [putFile_of_fresh hfresh]
    exact ⟨h.set, Base.directory_setDirectory h.isSome⟩
  · intro u hu
    obtain ⟨n, _, rfl⟩ := List.mem_map.1 hu
    exact ⟨h.set, h.set⟩

/-- The files are written one after another. -/
theorem wp_writeFiles {files : Directory} : ∀ {directory : Directory} {t : Base},
    OnlyStaging staging s t → t.directory staging = some directory →
      ((directory ++ files).map Prod.fst).Nodup → wp (writeFiles staging files)
        (fun _ u => OnlyStaging staging s u ∧ u.directory staging = some (directory ++ files))
        (fun _ => OnlyStaging staging s) (OnlyStaging staging s) t := by
  induction files with
  | nil =>
    intro directory t h hdirectory _
    rw [List.append_nil]
    exact wp_ret ⟨h, hdirectory⟩
  | cons file files ih =>
    obtain ⟨name, bytes⟩ := file
    intro directory t h hdirectory hnodup
    have hsplit : directory ++ (name, bytes) :: files =
        (directory ++ [(name, bytes)]) ++ files := by simp
    have hfresh : name ∉ directory.map Prod.fst := by
      rw [List.map_append, List.nodup_append] at hnodup
      intro hmem
      exact hnodup.2.2 name hmem name (by simp) rfl
    rw [hsplit] at hnodup ⊢
    refine wp_bind (wp_mono (wp_writeFile h hdirectory hfresh) ?_ (fun _ _ h => h) fun _ h => h)
    intro _ u ⟨hu, hwritten⟩
    exact ih hu hwritten hnodup

/-- The generation is not there yet, or has the files. Nothing else has changed but the staging
directory. -/
structure Staged (staging generation : String) (files : Directory) (s t : Base) : Prop where
  others : ∀ name, name ≠ staging → name ≠ generation → t.directory name = s.directory name
  generation : t.directory generation = none ∨ t.directory generation = some files

theorem OnlyStaging.staged {files : Directory} (h : OnlyStaging staging s t)
    (hne : generation ≠ staging) (hnone : s.directory generation = none) :
    Staged staging generation files s t where
  others name hname _ := h.others name hname
  generation := Or.inl ((h.others generation hne).trans hnone)

/-- The staging directory becomes the generation. -/
theorem wp_renameDir {files : Directory} (h : OnlyStaging staging s t)
    (hne : generation ≠ staging) (hnone : s.directory generation = none)
    (hfiles : t.directory staging = some files) : wp (renameDir staging generation)
    (fun _ u => Staged staging generation files s u ∧ u.directory generation = some files)
    (fun _ u => Staged staging generation files s u ∧
      (u.directory generation = none ∨ u.directory staging = none))
    (Staged staging generation files s) t := by
  have hstart : Staged staging generation files s t := h.staged hne hnone
  have hmissing : t.directory generation = none := (h.others generation hne).trans hnone
  refine wp_act ?_ (fun _ _ => ⟨hstart, Or.inl hmissing⟩) ⟨hstart, Or.inl hmissing⟩ hstart
  intro u hu
  rw [hfiles, hmissing] at hu
  cases hu
  have hmoved : ((t.setDirectory staging none).setDirectory generation (some files)).directory
      generation = some files :=
    Base.directory_setDirectory (Base.isSome_setDirectory.trans h.isSome)
  have hgone : ((t.setDirectory staging none).setDirectory generation (some files)).directory
      staging = none := by
    rw [Base.directory_setDirectory_of_ne hne.symm, Base.directory_setDirectory h.isSome]
  have hstaged : Staged staging generation files s
      ((t.setDirectory staging none).setDirectory generation (some files)) := by
    refine ⟨fun name hname hother => ?_, Or.inr hmoved⟩
    rw [Base.directory_setDirectory_of_ne hother, Base.directory_setDirectory_of_ne hname]
    exact h.others name hname
  exact ⟨⟨hstaged, hmoved⟩, ⟨hstaged, Or.inr hgone⟩, hstaged⟩

/-- However staging ends, it has not left a wrong directory under the name of the generation. -/
theorem wp_stage {files : Directory} (hsome : s.generations.isSome = true)
    (hne : generation ≠ staging) (hnone : s.directory generation = none)
    (hnodup : (files.map Prod.fst).Nodup) : wp (stage staging generation files)
    (fun _ u => Staged staging generation files s u ∧ u.directory generation = some files)
    (fun _ => Staged staging generation files s) (Staged staging generation files s) s := by
  have hstaged (t : Base) (h : OnlyStaging staging s t) : Staged staging generation files s t :=
    h.staged hne hnone
  have hstart : OnlyStaging staging s s := ⟨hsome, fun _ _ => rfl⟩
  have hclean : Maintains (OnlyStaging staging s)
      (whenever ((s.directory staging).isSome = true) (removeDirAll staging)) fun _ => True :=
    maintains_whenever fun _ => maintains_removeDirAll
  unfold stage
  refine wp_bind (wp_observe ?_)
  refine wp_bind (wp_mono (hclean s hstart) ?_ (fun _ t h => hstaged t h) fun t h => hstaged t h)
  intro _ t ⟨_, ht⟩
  refine wp_bind (wp_mono (wp_createDir ht) ?_ (fun _ t h => hstaged t h) fun t h => hstaged t h)
  intro _ u ⟨hu, hempty⟩
  refine wp_bind (wp_mono (wp_writeFiles hu hempty (by simpa using hnodup)) ?_
    (fun _ t h => hstaged t h) fun t h => hstaged t h)
  intro _ v ⟨hv, hwritten⟩
  rw [List.nil_append] at hwritten
  refine wp_handle (wp_mono (wp_renameDir hv hne hnone hwritten) (fun _ _ h => h) ?_ fun _ h => h)
  intro error w ⟨hw, hend⟩
  refine wp_bind (wp_observe ?_)
  cases hrenamed : w.directory generation with
  | none => exact wp_throw hw
  | some directory =>
    -- the rename has taken place after all, and there is nothing left to remove
    have hgone : w.directory staging = none := by
      rcases hend with h | h
      · rw [hrenamed] at h
        cases h
      · exact h
    refine wp_step ?_ (fun _ _ => hw) hw hw ?_
    · intro _ x hx
      rw [hgone] at hx
      cases hx
    · intro x hx
      rw [hgone] at hx
      cases hx

end

/-! ## The whole call -/

/-- The names of staging directories are never those of generations. -/
def IsStaging (name : String) : Prop := ∃ id processId, name = stagingName id processId

theorem nibble_ne_dot {n : ℕ} (h : n < 16) : nibble n ≠ '.' := by
  revert n
  decide

theorem hex_ne_staging {bytes : Bytes} {name : String} (h : IsStaging name) : hex bytes ≠ name := by
  obtain ⟨id, processId, rfl⟩ := h
  intro heq
  have hlist := congrArg String.toList heq
  unfold hex stagingName at hlist
  simp only [String.toList_ofList, String.toList_append] at hlist
  cases bytes with
  | nil => simp at hlist
  | cons byte rest =>
    have hbyte := byte.toNat_lt
    have hhead : nibble (byte.toNat / 16) = '.' := by
      simpa using congrArg List.head? hlist
    exact nibble_ne_dot (by omega) hhead

theorem id_not_staging (content : Content) : ¬IsStaging (content.id env) :=
  fun h => hex_ne_staging h rfl

section

variable {s t : Base} {located : Located env} {call : Applying}

/-- The write of `active.json` leaves the generations as they are. -/
theorem wp_atomicWrite {processId nonce : ℕ} {bytes : Bytes} {s : Base} :
    wp (atomicWrite processId nonce bytes)
      (fun _ t => t.generations = s.generations ∧ t.active = some bytes)
      (fun _ t => t.generations = s.generations) (fun t => t.generations = s.generations) s := by
  have hnew (name : String) : Maintains (fun t : Base => t.generations = s.generations)
      (createNew name) fun _ => True := by
    apply maintains_act
    intro t u ht hu
    split at hu
    · cases hu
    · cases hu
      exact ht
  have hwrite (name : String) : Maintains (fun t : Base => t.generations = s.generations)
      (writeTemporary name bytes) fun _ => True := by
    apply maintains_step
    · intro t _ u ht hu
      cases hu
      exact ht
    · intro t ht u hu
      obtain ⟨n, _, rfl⟩ := List.mem_map.1 hu
      exact ht
  have hremove (name : String) : Maintains (fun t : Base => t.generations = s.generations)
      (removeTemporary name) fun _ => True := by
    apply maintains_act
    intro t u ht hu
    cases hu
    exact ht
  unfold atomicWrite
  refine (hnew _).wp_bind rfl fun _ t _ ht => ?_
  refine (hwrite _).wp_bind ht fun _ u _ hu => ?_
  refine wp_bind (wp_modify ?_ hu hu)
  refine wp_handle (wp_mono (wp_act (Q := fun _ t => t.generations = s.generations ∧
    t.active = some bytes) (E := fun _ t => t.generations = s.generations)
    (C := fun t => t.generations = s.generations) ?_ ?_ hu hu) (fun _ _ h => h) ?_ fun _ h => h)
  · intro v hv
    cases hv
    exact ⟨⟨hu, rfl⟩, hu, hu⟩
  · intro error herror
    cases herror
  · intro error v hv
    exact (hremove _).attempted.wp_bind hv fun _ w _ hw => wp_throw hw

/-- What a call leaves among the generations, however it ends: what was there, its staging
directory, or the whole generation that it wanted. -/
def Leaves (env : Surroundings Unit) (call : Applying) (s t : Base) : Prop :=
  ∀ name, t.directory name = s.directory name ∨ IsStaging name ∨
    ∃ content ∈ wanted call, name = content.id env ∧ s.directory name = none ∧
      t.directory name = some content.files

theorem mem_wanted {content : Content} (h : readContent call = .ok content) :
    content ∈ wanted call := by
  unfold wanted
  rw [h]
  exact List.mem_singleton_self content

theorem leaves_of_staged {content : Content} (hread : readContent call = .ok content) {processId : ℕ}
    (hnone : s.directory (content.id env) = none)
    (h : Staged (stagingName (content.id env) processId) (content.id env) content.files s t) :
    Leaves env call s t := by
  intro name
  by_cases hstaging : name = stagingName (content.id env) processId
  · exact Or.inr (Or.inl ⟨_, _, hstaging⟩)
  · by_cases hgeneration : name = content.id env
    · rw [hgeneration]
      rcases h.generation with hmissing | hfiles
      · exact Or.inl (hmissing.trans hnone.symm)
      · exact Or.inr (Or.inr ⟨content, mem_wanted hread, rfl, hnone, hfiles⟩)
    · exact Or.inl (h.others name hstaging hgeneration)

theorem directory_congr {s t : Base} (h : t.generations = s.generations) (name : String) :
    t.directory name = s.directory name := by
  unfold Base.directory
  rw [h]

theorem Leaves.congr {u : Base} (h : Leaves env call s t) (hu : u.generations = t.generations) :
    Leaves env call s u := by
  intro name
  rw [directory_congr hu]
  exact h name

/-- A call that returns has named the generation of its content, which was there before or has been
made by it. -/
structure Names (located : Located env) (content : Content) (call : Applying) (s t : Base) :
    Prop where
  active : t.active =
    some (env.toVecPretty ⟨env.generationPath (content.id env), call.sourceProfile⟩)
  directory : (s.directory (content.id env)).getD content.files ∈ t.directory (content.id env)

/-- The directory with its folder of generations. -/
def created (s : Base) : Base := { s with generations := some (s.generations.getD fun _ => none) }

theorem wp_prepareAt (located : Located env) (call : Applying) (s : Base) :
    wp (prepareAt located call)
      (fun _ t => Leaves env call s t ∧
        ∃ content, readContent call = .ok content ∧ Names located content call s t)
      (fun _ => Leaves env call s) (Leaves env call s) s := by
  have hstart : Leaves env call s s := fun name => Or.inl rfl
  unfold prepareAt
  refine wp_bind (wp_ofExcept ?_ fun _ _ => hstart)
  intro content hread
  have hcreated (name : String) : (created s).directory name = s.directory name := by
    unfold Base.directory created
    cases s.generations <;> rfl
  have hleaves {t : Base} (h : Leaves env call (created s) t) : Leaves env call s t := by
    intro name
    rw [← hcreated]
    exact h name
  have hcreatedLeaves : Leaves env call (created s) (created s) := fun name => Or.inl rfl
  refine wp_bind (wp_modify (f := created) ?_ hstart hstart)
  refine wp_bind (wp_observe ?_)
  -- the generation is there after the stage, or has been before
  have hstage : wp (whenever ((created s).directory (content.id env) = none)
      (stage (stagingName (content.id env) call.processId) (content.id env) content.files))
      (fun _ t => Leaves env call s t ∧
        (s.directory (content.id env)).getD content.files ∈ t.directory (content.id env))
      (fun _ => Leaves env call s) (Leaves env call s) (created s) := by
    refine wp_whenever (fun hnone => ?_) fun hexists => ?_
    · have hne : content.id env ≠ stagingName (content.id env) call.processId :=
        fun heq => id_not_staging content ⟨_, _, heq⟩
      have hstaged {t : Base} (h : Staged (stagingName (content.id env) call.processId)
          (content.id env) content.files (created s) t) : Leaves env call s t :=
        hleaves (leaves_of_staged hread hnone h)
      refine wp_mono (wp_stage rfl hne hnone (files_nodup (isRead_of_readContent hread))) ?_
        (fun _ _ h => hstaged h) fun _ h => hstaged h
      intro _ t ⟨ht, hfiles⟩
      refine ⟨hstaged ht, ?_⟩
      rw [← hcreated, hnone, hfiles]
      rfl
    · refine ⟨hleaves hcreatedLeaves, ?_⟩
      rw [← hcreated]
      obtain ⟨directory, hdirectory⟩ := Option.ne_none_iff_exists'.1 hexists
      rw [hdirectory]
      rfl
  refine wp_bind (wp_mono hstage ?_ (fun _ _ h => h) fun _ h => h)
  intro _ t ⟨ht, hdirectory⟩
  refine wp_bind (wp_mono wp_atomicWrite ?_ (fun _ _ h => ht.congr h) fun _ h => ht.congr h)
  intro _ u ⟨hgenerations, hactive⟩
  have hu := ht.congr hgenerations
  refine wp_bind (wp_observe (wp_ofExcept ?_ fun _ _ => hu))
  intro _ _
  refine ⟨hu, content, hread, hactive, ?_⟩
  rw [directory_congr hgenerations]
  exact hdirectory

end

/-! ## Any number of calls -/

/-- Every generation has the files of a content that an earlier call wanted. -/
def AllWanted (env : Surroundings Unit) (contents : List Content) (s : Base) : Prop :=
  ∀ name directory, s.directory name = some directory → IsStaging name ∨
    ∃ content ∈ contents, name = content.id env ∧ directory = content.files

theorem AllWanted.after {contents : List Content} {call : Applying} {s t : Base}
    (h : AllWanted env contents s) (hleaves : Leaves env call s t) :
    AllWanted env (wanted call ++ contents) t := by
  intro name directory hdirectory
  rcases hleaves name with hsame | hstaging | ⟨content, hcontent, hname, _, hfiles⟩
  · rw [hsame] at hdirectory
    refine (h name directory hdirectory).imp_right ?_
    intro ⟨content, hcontent, hmade⟩
    exact ⟨content, List.mem_append_right _ hcontent, hmade⟩
  · exact Or.inl hstaging
  · rw [hfiles] at hdirectory
    cases hdirectory
    exact Or.inr ⟨content, List.mem_append_left _ hcontent, hname, rfl⟩

theorem wanted_isRead {call : Applying} {content : Content} (h : content ∈ wanted call) :
    IsRead content := by
  unfold wanted at h
  cases hread : readContent call with
  | error error =>
    rw [hread] at h
    cases h
  | ok found =>
    rw [hread] at h
    obtain rfl := List.mem_singleton.1 h
    exact isRead_of_readContent hread

/-- However the calls were stopped, no wrong directory has come under the name of a generation. -/
theorem Reached.allWanted {located : Located env} {contents : List Content} {s : Base}
    (h : Reached located contents s) :
    AllWanted env contents s ∧ ∀ content ∈ contents, IsRead content := by
  induction h with
  | start =>
    refine ⟨fun name directory hdirectory => ?_, fun content hcontent => ?_⟩
    · cases hdirectory
    · cases hcontent
  | @call contents s call faults _ ih =>
    obtain ⟨hall, hread⟩ := ih
    refine ⟨hall.after ?_, fun content hcontent => ?_⟩
    · exact (wp_prepareAt located call s).leaves (fun _ _ h => h.1) (fun _ _ h => h)
        (fun _ h => h) faults
    · rcases List.mem_append.1 hcontent with hnew | hold
      · exact wanted_isRead hnew
      · exact hread content hold

theorem nibble_injective : ∀ m < 16, ∀ n < 16, nibble m = nibble n → m = n := by decide

theorem hex_injective {bytes bytes' : Bytes} (h : hex bytes = hex bytes') : bytes = bytes' := by
  have hlist := String.ofList_injective h
  clear h
  induction bytes generalizing bytes' with
  | nil =>
    cases bytes' with
    | nil => rfl
    | cons byte rest => simp at hlist
  | cons byte rest ih =>
    cases bytes' with
    | nil => simp at hlist
    | cons byte' rest' =>
      simp only [List.flatMap_cons, List.cons_append, List.nil_append, List.cons.injEq] at hlist
      obtain ⟨hhigh, hlow, hrest⟩ := hlist
      have hbyte := byte.toNat_lt
      have hbyte' := byte'.toNat_lt
      have hdiv := nibble_injective _ (by omega) _ (by omega) hhigh
      have hmod := nibble_injective _ (by omega) _ (by omega) hlow
      have hsame : byte.toNat = byte'.toNat := by omega
      rw [UInt8.toNat_inj.1 hsame, ih hrest]

/-- The truncated digest tells the byte strings apart that it is computed of. -/
def TellsApart (env : Surroundings Unit) (contents : List Content) : Prop :=
  Set.InjOn (fun bytes => (env.sha256 bytes).take 12) {bytes | ∃ content ∈ contents,
    bytes = content.fingerprint}

theorem TellsApart.fingerprint {contents : List Content} (h : TellsApart env contents)
    {content content' : Content} (hcontent : content ∈ contents) (hcontent' : content' ∈ contents)
    (hid : content.id env = content'.id env) : content.fingerprint = content'.fingerprint :=
  h ⟨content, hcontent, rfl⟩ ⟨content', hcontent', rfl⟩ (hex_injective hid)

theorem appliedExactly_of_names {located : Located env} {content : Content} {call : Applying}
    {s t : Base} (h : Names located content call s t) : AppliedExactly located content t ↔
      HasExactly ((s.directory (content.id env)).getD content.files) content := by
  obtain ⟨hactive, hdirectory⟩ := h
  have hparse := located.parse_toVecPretty
    ⟨env.generationPath (content.id env), call.sourceProfile⟩
  constructor
  · intro ⟨bytes, active, name, directory, hbytes, hparsed, hname, hfound, hexactly⟩
    rw [hactive] at hbytes
    cases hbytes
    rw [hparse] at hparsed
    cases hparsed
    rw [located.generationName_path] at hname
    cases hname
    rw [Option.mem_def.1 hdirectory] at hfound
    cases hfound
    exact hexactly
  · intro hexactly
    exact ⟨_, _, _, _, hactive, hparse, located.generationName_path _, hdirectory, hexactly⟩

/-- A call that returns has applied what was read, unless the generation is there already and was
made of different contents that come to the same bytes when they are put one after another. -/
theorem appliedExactly_iff {located : Located env} {contents : List Content} {s t : Base}
    {call : Applying} {content : Content} {faults : List Fault} {applied : ActiveRuntime × Folder}
    (hreached : Reached located contents s) (hread : readContent call = .ok content)
    (hhash : TellsApart env (content :: contents))
    (hresult : (prepareAt located call).result faults s = (.done applied, t)) :
    AppliedExactly located content t ↔ ∀ earlier ∈ contents,
      s.directory (earlier.id env) = some earlier.files →
        earlier.fingerprint = content.fingerprint → earlier = content := by
  obtain ⟨hall, hcontents⟩ := hreached.allWanted
  have hcontent := isRead_of_readContent hread
  have hnames : Names located content call s t := by
    have hends := wp_prepareAt located call s faults
    rw [hresult] at hends
    obtain ⟨_, found, hfound, hnames⟩ := hends
    rw [hread] at hfound
    cases hfound
    exact hnames
  rw [appliedExactly_of_names hnames]
  constructor
  · intro hexactly earlier hearlier hthere hbytes
    have hid : earlier.id env = content.id env := by
      show hex ((env.sha256 earlier.fingerprint).take 12) = hex ((env.sha256 content.fingerprint).take 12)
      rw [hbytes]
    rw [← hid, hthere] at hexactly
    exact (hasExactly_files hcontent (hcontents earlier hearlier)).1 hexactly
  · intro hearlier
    cases hthere : s.directory (content.id env) with
    | none => exact (hasExactly_files hcontent hcontent).2 rfl
    | some directory =>
      rcases hall _ _ hthere with hstaging | ⟨earlier, hmem, hid, hfiles⟩
      · exact absurd hstaging (id_not_staging content)
      · have hbytes : earlier.fingerprint = content.fingerprint :=
          hhash.fingerprint (List.mem_cons_of_mem _ hmem) List.mem_cons_self hid.symm
        have hsame : earlier = content := by
          refine hearlier earlier hmem ?_ hbytes
          rw [← hid, hthere, hfiles]
        rw [hfiles, hsame]
        exact (hasExactly_files hcontent hcontent).2 rfl

/-! ## Two contents of the same bytes -/

/-- Text by four bytes for a character and one for the end. -/
def writeText (text : List Char) : Bytes :=
  text.flatMap (fun c => [1, UInt8.ofNat (c.toNat / 65536), UInt8.ofNat (c.toNat / 256),
    UInt8.ofNat c.toNat]) ++ [0]

def readText : Bytes → Option (List Char × Bytes)
  | [] => none
  | mark :: rest =>
    if mark = 0 then some ([], rest)
    else match rest with
      | high :: middle :: low :: rest =>
        (readText rest).map fun (text, rest) =>
          (Char.ofNat (high.toNat * 65536 + middle.toNat * 256 + low.toNat) :: text, rest)
      | _ => none

theorem readText_writeText (text : List Char) (rest : Bytes) :
    readText (writeText text ++ rest) = some (text, rest) := by
  induction text with
  | nil =>
    show readText (0 :: rest) = some ([], rest)
    unfold readText
    rw [if_pos rfl]
  | cons c text ih =>
    have hsmall : c.toNat < 1114112 := by
      have hvalid := c.valid
      unfold UInt32.isValidChar Nat.isValidChar at hvalid
      show c.val.toNat < 1114112
      omega
    have hsum : (UInt8.ofNat (c.toNat / 65536)).toNat * 65536 +
        (UInt8.ofNat (c.toNat / 256)).toNat * 256 + (UInt8.ofNat c.toNat).toNat = c.toNat := by
      simp only [UInt8.toNat_ofNat']
      omega
    have hsplit : writeText (c :: text) ++ rest = 1 :: UInt8.ofNat (c.toNat / 65536) ::
        UInt8.ofNat (c.toNat / 256) :: UInt8.ofNat c.toNat :: (writeText text ++ rest) := by
      simp [writeText]
    rw [hsplit]
    unfold readText
    rw [if_neg (by decide)]
    dsimp only
    rw [ih, hsum, Char.ofNat_toNat]
    rfl

def writeActive (active : ActiveRuntime) : Bytes :=
  writeText active.runtimeRoot.toList ++ writeText active.sourceProfile.toList

def readActive (bytes : Bytes) : Except String ActiveRuntime :=
  match readText bytes with
  | none => .error "expected value"
  | some (root, rest) => match readText rest with
    | none => .error "expected value"
    | some (source, _) => .ok ⟨String.ofList root, String.ofList source⟩

/-- The formats without what an apply does not come to. -/
def plainSurroundings : Surroundings Unit where
  parse := readActive
  toVecPretty := writeActive
  sha256 bytes := bytes
  legacyDecodes _ := false
  generationPath name := name
  installation := none
  writes := ⟨.ok (), false, .ok (), .ok (), fun _ => .ok (), .ok (), none, .ok (), .ok (), .ok ()⟩
  execute _ _ _ := (.ok (), ())
  designateRunProfile _ _ := (.ok .live, ())

def plainLocated : Located plainSurroundings where
  generationName := some
  generationName_path _ := rfl
  parse_toVecPretty active := by
    show readActive (writeActive active) = .ok active
    have hsource := readText_writeText active.sourceProfile.toList []
    rw [List.append_nil] at hsource
    unfold readActive writeActive
    simp only [readText_writeText, hsource, String.ofList_toList]

def installationOf (files : List (String × Bytes)) : Installation where
  resolves := .ok ()
  artifact name := match files.lookup name with
    | some bytes => ⟨true, .ok true, .ok bytes⟩
    | none => ⟨false, .ok true, .error "file not found"⟩
  default := .absent

def sampleProfile : Bytes := [0x5B, 0x47, 0x5D]

def bothLibraries : List (String × Bytes) :=
  [("MacLoader.exe", [1]), ("MacType.dll", [2]), ("MacType64.dll", [3])]

/-- One library, with the name and the bytes of the other one behind its own. -/
def oneLibrary : List (String × Bytes) :=
  [("MacLoader.exe", [1]), ("MacType.dll", [2, 0x4D, 0x61, 0x63, 0x54, 0x79, 0x70, 0x65, 0x36, 0x34,
    0x2E, 0x64, 0x6C, 0x6C, 3])]

def firstApply : Applying := ⟨installationOf bothLibraries, "ini\\Mine.ini", sampleProfile, 7, 1⟩

def secondApply : Applying := ⟨installationOf oneLibrary, "ini\\Mine.ini", sampleProfile, 7, 2⟩

def firstContent : Content := ⟨sampleProfile, bothLibraries⟩

def secondContent : Content := ⟨sampleProfile, oneLibrary⟩

def afterFirst : Base := ((prepareAt plainLocated firstApply).result [] emptyBase).2

def afterSecond : Base := ((prepareAt plainLocated secondApply).result [] afterFirst).2

theorem reached_afterFirst : Reached plainLocated [firstContent] afterFirst :=
  Reached.call firstApply [] Reached.start

def isDone {ε α : Type} : Outcome ε α → Bool
  | .done _ => true
  | _ => false

theorem exists_done {σ ε α : Type} {m : Prog σ ε α} {faults : List Fault} {s : σ}
    (h : isDone (m.result faults s).1 = true) :
    ∃ a, m.result faults s = (.done a, (m.result faults s).2) := by
  rcases hresult : m.result faults s with ⟨outcome, t⟩
  rw [hresult] at h
  cases outcome with
  | done a => exact ⟨a, rfl⟩
  | error e => cases h
  | crashed => cases h

theorem tellsApart_of_same {contents : List Content} {bytes : Bytes}
    (h : ∀ content ∈ contents, content.fingerprint = bytes) : TellsApart env contents := by
  rintro _ ⟨content, hcontent, rfl⟩ _ ⟨content', hcontent', rfl⟩ _
  rw [h content hcontent, h content' hcontent']

/-- The same contents are applied once more. -/
theorem firstApply_applied : AppliedExactly plainLocated firstContent
    ((prepareAt plainLocated firstApply).result [] afterFirst).2 := by
  have hdone : isDone ((prepareAt plainLocated firstApply).result [] afterFirst).1 = true := by
    decide +kernel
  obtain ⟨applied, hresult⟩ := exists_done hdone
  have hsame : ∀ content ∈ [firstContent, firstContent],
      content.fingerprint = firstContent.fingerprint := by
    simp
  refine (appliedExactly_iff reached_afterFirst rfl (tellsApart_of_same hsame) hresult).2 ?_
  exact fun _ hearlier _ _ => List.mem_singleton.1 hearlier

/-- The second call returns with the generation of the first one: the wrong library, and one more. -/
theorem secondApply_not_applied : ¬∀ contents s t call content faults applied,
    Reached plainLocated contents s → readContent call = .ok content →
      TellsApart plainSurroundings (content :: contents) →
        (prepareAt plainLocated call).result faults s = (.done applied, t) →
          AppliedExactly plainLocated content t := by
  intro h
  have hdone : isDone ((prepareAt plainLocated secondApply).result [] afterFirst).1 = true := by
    decide +kernel
  obtain ⟨applied, hresult⟩ := exists_done hdone
  have hsame : ∀ content ∈ [secondContent, firstContent],
      content.fingerprint = firstContent.fingerprint := by decide +kernel
  have happlied := h _ _ _ _ _ _ _ reached_afterFirst rfl (tellsApart_of_same hsame) hresult
  obtain ⟨bytes, active, name, directory, hactive, hparse, hname, hdirectory, _, hartifacts⟩ :=
    happlied
  have hlookup : directory.lookup "MacType64.dll" = none :=
    hartifacts ("MacType64.dll", false) (by decide)
  have hnamed : (plainSurroundings.parse (afterSecond.active.getD [])).map (·.runtimeRoot) =
      .ok (firstContent.id plainSurroundings) := by decide +kernel
  have hfound : (afterSecond.directory (firstContent.id plainSurroundings)).map
      (·.lookup "MacType64.dll") = some (some [3]) := by decide +kernel
  have hbytes : afterSecond.active = some bytes := hactive
  rw [hbytes, Option.getD_some, hparse] at hnamed
  have hroot : active.runtimeRoot = firstContent.id plainSurroundings := by
    simpa [Except.map] using hnamed
  have hsameName : active.runtimeRoot = name := Option.some.inj hname
  have hthere : afterSecond.directory (firstContent.id plainSurroundings) = some directory := by
    rw [← hroot, hsameName]
    exact hdirectory
  rw [hthere, Option.map_some, hlookup] at hfound
  cases hfound

end MacTypeControl.Execution
