import MacTypeControl.Checks
import MacTypeControl.Histories.Timeline
import MacTypeControl.Editor.Lossless
import MacTypeControl.Editor.Mutation

/-!
# The history of a document

All edits are recorded alike, so undo and redo are those of a timeline of revisions.
-/

namespace MacTypeControl.Editor

open Histories

inductive EditRequest where
  | value (settingId : String) (number : Float64)
  | individuals (entries : List IndividualSetting)
  | list (kind : String) (entries : List Chars)
  | advanced (profile : AdvancedProfile)
  | resetToDefaults

namespace EditRequest

open ProfileDocument

def update (lowercase : Lowercase) : EditRequest → Edit
  | .value settingId number => updateValue settingId number
  | .individuals entries => updateIndividuals lowercase entries
  | .list kind entries => updateList lowercase kind entries
  | .advanced profile => updateAdvanced lowercase profile
  | .resetToDefaults => resetSettingsToDefaults

/-- What is recorded of an edit. -/
def edit (lowercase : Lowercase) : EditRequest → Edit
  | .value settingId number => setValue settingId number
  | .individuals entries => setIndividuals lowercase entries
  | .list kind entries => setList lowercase kind entries
  | .advanced profile => setAdvanced lowercase profile
  | .resetToDefaults => resetSettings settings

theorem update_eq (lowercase : Lowercase) (request : EditRequest) :
    request.update lowercase = recordEdit (request.edit lowercase) := by
  cases request <;> rfl

end EditRequest

namespace ProfileDocument

def timeline (d : ProfileDocument) : Timeline ProfileRevision :=
  ⟨d.undoHistory, d.revision, d.redoHistory⟩

def withTimeline (d : ProfileDocument) (t : Timeline ProfileRevision) : ProfileDocument :=
  { d with
    nodes := t.present.nodes
    dirtyKeys := t.present.dirtyKeys
    undoHistory := t.past
    redoHistory := t.future }

theorem withTimeline_timeline (d : ProfileDocument) : d.withTimeline d.timeline = d := rfl

theorem undo_eq (d : ProfileDocument) :
    d.undo = match d.timeline.undo with
      | none => (false, d)
      | some t => (true, d.withTimeline t) := by
  unfold undo Timeline.undo timeline
  cases d.undoHistory.getLast? <;> rfl

theorem redo_eq (d : ProfileDocument) :
    d.redo = match d.timeline.redo with
      | none => (false, d)
      | some t => (true, d.withTimeline t) := by
  unfold redo Timeline.redo timeline
  cases d.redoHistory.getLast? <;> rfl

/-! ## Edits of the nodes and the dirty keys -/

/-- The documents differ in their nodes and dirty keys only. -/
def SameButRevision (d d' : ProfileDocument) : Prop := d' = d.restoreRevision d'.revision

theorem SameButRevision.refl (d : ProfileDocument) : SameButRevision d d := rfl

theorem SameButRevision.trans {a b c : ProfileDocument} (h : SameButRevision a b)
    (h' : SameButRevision b c) : SameButRevision a c := by
  unfold SameButRevision at *
  rw [h] at h'
  exact h'

theorem sameButRevision_setRawValue (d : ProfileDocument) (sectionName keyName : Chars)
    (value : Option Chars) (dirtyKey : String) :
    SameButRevision d (d.setRawValue sectionName keyName value dirtyKey) := by
  cases value <;> rfl

theorem sameButRevision_replaceListSection (d : ProfileDocument) (name : String)
    (normalized : List Chars) : SameButRevision d (d.replaceListSection name normalized) := rfl

theorem resetSettings_ok {list : List SettingDefinition}
    (h : ∀ setting ∈ list, (renderSettingValue setting.id (.ofRat setting.factory)).isOk = true)
    (d : ProfileDocument) :
    ∃ d', resetSettings list d = (.ok (), d') ∧ SameButRevision d d' := by
  induction list generalizing d with
  | nil => exact ⟨d, rfl, .refl d⟩
  | cons setting rest ih =>
    rw [List.forall_mem_cons] at h
    unfold resetSettings
    cases hrendered : renderSettingValue setting.id (.ofRat setting.factory) with
    | error error => simp [hrendered, Except.isOk, Except.toBool] at h
    | ok rendered =>
      simp only
      split_ifs
      · exact ih h.2 d
      · obtain ⟨d', hd', hsame⟩ := ih h.2
          (d.setRawValue rendered.section rendered.key (some rendered.value) setting.id)
        exact ⟨d', hd', (sameButRevision_setRawValue d _ _ _ _).trans hsame⟩

/-- The edit changes nothing where it fails, and no more than the revision where it succeeds. -/
def ChangesRevision (edit : Edit) : Prop :=
  ∀ d, (∃ error, edit d = (.error error, d)) ∨
    ∃ d', edit d = (.ok (), d') ∧ SameButRevision d d'

theorem changesRevision_setValue (settingId : String) (number : Float64) :
    ChangesRevision (setValue settingId number) := by
  intro d
  unfold setValue
  cases renderSettingValue settingId number with
  | error error => exact Or.inl ⟨error, rfl⟩
  | ok rendered => exact Or.inr ⟨_, rfl, sameButRevision_setRawValue d _ _ _ _⟩

theorem changesRevision_setIndividuals (lowercase : Lowercase) (entries : List IndividualSetting) :
    ChangesRevision (setIndividuals lowercase entries) := by
  intro d
  unfold setIndividuals
  cases validateIndividuals lowercase entries with
  | error error => exact Or.inl ⟨error, rfl⟩
  | ok => exact Or.inr ⟨_, rfl, rfl⟩

theorem changesRevision_setList (lowercase : Lowercase) (kind : String) (entries : List Chars) :
    ChangesRevision (setList lowercase kind entries) := by
  intro d
  unfold setList
  cases listSectionOf kind with
  | none => exact Or.inl ⟨_, rfl⟩
  | some name =>
    cases normalizeListEntries lowercase entries with
    | error error => exact Or.inl ⟨error, rfl⟩
    | ok normalized => exact Or.inr ⟨_, rfl, sameButRevision_replaceListSection d name normalized⟩

theorem changesRevision_setAdvanced (lowercase : Lowercase) (profile : AdvancedProfile) :
    ChangesRevision (setAdvanced lowercase profile) := by
  intro d
  unfold setAdvanced
  cases renderAdvancedProfile lowercase profile with
  | error error => exact Or.inl ⟨error, rfl⟩
  | ok rendered =>
    exact Or.inr ⟨_, rfl, (((sameButRevision_setRawValue _ _ _ _ _).trans
      (sameButRevision_setRawValue _ _ _ _ _)).trans
      (sameButRevision_setRawValue _ _ _ _ _)).trans
      (sameButRevision_replaceListSection _ _ _)⟩

theorem changesRevision_edit (lowercase : Lowercase) (request : EditRequest) :
    ChangesRevision (request.edit lowercase) := by
  cases request with
  | value settingId number => exact changesRevision_setValue settingId number
  | individuals entries => exact changesRevision_setIndividuals lowercase entries
  | list kind entries => exact changesRevision_setList lowercase kind entries
  | advanced profile => exact changesRevision_setAdvanced lowercase profile
  | resetToDefaults => exact fun d => Or.inr (resetSettings_ok factory_rendered d)

/-! ## Recorded edits -/

/-- The document as the edit leaves it, before it is recorded. -/
def edited (lowercase : Lowercase) (request : EditRequest) (d : ProfileDocument) :
    ProfileRevision :=
  (request.edit lowercase d).2.revision

/-- A failed edit changes nothing, and any other one is a step of the timeline. -/
theorem update_cases (lowercase : Lowercase) (request : EditRequest) (d : ProfileDocument) :
    (∃ error, request.edit lowercase d = (.error error, d) ∧
        request.update lowercase d = (.error error, d)) ∨
      (request.edit lowercase d).1 = .ok () ∧
        request.update lowercase d =
          (.ok (), d.withTimeline (d.timeline.record historyLimit (edited lowercase request d))) := by
  rw [EditRequest.update_eq]
  unfold recordEdit
  rcases changesRevision_edit lowercase request d with ⟨error, herror⟩ | ⟨d', hd', hsame⟩
  · exact Or.inl ⟨error, herror, by rw [herror]⟩
  · refine Or.inr ⟨by rw [hd'], ?_⟩
    have hedited : edited lowercase request d = d'.revision := by rw [edited, hd']
    rw [hd', hedited]
    simp only
    by_cases hunchanged : d'.revision = d.revision
    · rw [if_pos hunchanged, hunchanged]
      have hd : d' = d := Eq.trans hsame (congrArg d.restoreRevision hunchanged)
      rw [hd, show d.timeline.record historyLimit d.revision = d.timeline from
        Timeline.record_same d.timeline, withTimeline_timeline]
    · have hother : d'.revision ≠ d.timeline.present := hunchanged
      rw [if_neg hunchanged, Timeline.record_other hother]
      rw [hsame]
      rfl

/-- A successful edit leaves the revision that was recorded. -/
theorem revision_of_update {lowercase : Lowercase} {request : EditRequest} {d d' : ProfileDocument}
    (h : request.update lowercase d = (.ok (), d')) :
    request.edit lowercase d = (.ok (), (request.edit lowercase d).2) ∧
      d'.revision = (request.edit lowercase d).2.revision := by
  rcases update_cases lowercase request d with ⟨error, -, herror⟩ | ⟨hok, hupdate⟩
  · exact absurd (herror.symm.trans h) (by simp)
  · obtain rfl := (congrArg Prod.snd (hupdate.symm.trans h))
    exact ⟨Prod.ext hok rfl, Timeline.present_record d.timeline _⟩

theorem eq_of_update_error {lowercase : Lowercase} {request : EditRequest} {error : String}
    {d d' : ProfileDocument} (h : request.update lowercase d = (.error error, d')) : d' = d := by
  rcases update_cases lowercase request d with ⟨_, -, herror⟩ | ⟨-, hupdate⟩
  · exact (congrArg Prod.snd (herror.symm.trans h)).symm
  · exact absurd (hupdate.symm.trans h) (by simp)

/-! ## Runs -/

inductive Action where
  | edit (request : EditRequest)
  | undo
  | redo

def Action.perform (lowercase : Lowercase) (d : ProfileDocument) : Action → ProfileDocument
  | .edit request => (request.update lowercase d).2
  | .undo => d.undo.2
  | .redo => d.redo.2

def run (lowercase : Lowercase) (d : ProfileDocument) (actions : List Action) : ProfileDocument :=
  actions.foldl (Action.perform lowercase) d

/-- An edit that is accepted leads from one revision to the other. -/
def Follows (lowercase : Lowercase) (u v : ProfileRevision) : Prop :=
  ∃ d request, d.revision = u ∧ (request.edit lowercase d).1 = .ok () ∧
    edited lowercase request d = v

theorem undo_eq_true {d d' : ProfileDocument} :
    d.undo = (true, d') ↔ ∃ t, d.timeline.undo = some t ∧ d' = d.withTimeline t := by
  rw [undo_eq]
  cases d.timeline.undo with
  | none => simp
  | some t => simp [eq_comm]

theorem redo_eq_true {d d' : ProfileDocument} :
    d.redo = (true, d') ↔ ∃ t, d.timeline.redo = some t ∧ d' = d.withTimeline t := by
  rw [redo_eq]
  cases d.timeline.redo with
  | none => simp
  | some t => simp [eq_comm]

theorem redo_eq_true_iff_undo {d d' : ProfileDocument} :
    d'.redo = (true, d) ↔ d.undo = (true, d') := by
  rw [redo_eq_true, undo_eq_true]
  constructor
  · rintro ⟨t, ht, rfl⟩
    exact ⟨d'.timeline, Timeline.redo_eq_some_iff_undo.mp ht, rfl⟩
  · rintro ⟨t, ht, rfl⟩
    exact ⟨d.timeline, Timeline.redo_eq_some_iff_undo.mpr ht, rfl⟩

/-- What every step keeps: the bound, and that each revision follows from the one before it. -/
def Tracked (lowercase : Lowercase) (d : ProfileDocument) : Prop :=
  d.timeline.Bounded historyLimit ∧ d.timeline.Linked (Follows lowercase)

theorem Tracked.perform {lowercase : Lowercase} {d : ProfileDocument} (h : Tracked lowercase d)
    (action : Action) : Tracked lowercase (action.perform lowercase d) := by
  cases action with
  | edit request =>
    change Tracked lowercase (request.update lowercase d).2
    rcases update_cases lowercase request d with ⟨error, -, herror⟩ | ⟨hok, hupdate⟩
    · rw [herror]
      exact h
    · rw [hupdate]
      exact ⟨h.1.record (by decide) _, h.2.record ⟨d, request, rfl, hok, rfl⟩⟩
  | undo =>
    change Tracked lowercase d.undo.2
    rw [undo_eq]
    cases hundo : d.timeline.undo with
    | none => exact h
    | some t => exact ⟨h.1.undo hundo, h.2.undo hundo⟩
  | redo =>
    change Tracked lowercase d.redo.2
    rw [redo_eq]
    cases hredo : d.timeline.redo with
    | none => exact h
    | some t => exact ⟨h.1.redo hredo, h.2.redo hredo⟩

theorem Tracked.run {lowercase : Lowercase} {d : ProfileDocument} (h : Tracked lowercase d)
    (actions : List Action) : Tracked lowercase (d.run lowercase actions) := by
  unfold ProfileDocument.run
  induction actions generalizing d with
  | nil => exact h
  | cons action rest ih => exact ih (h.perform action)

theorem histories_openBytes {pages : CodePages} {hash : Bytes → Bytes} {bytes : Bytes}
    {d : ProfileDocument} (h : openBytes pages hash bytes = .ok d) :
    d.undoHistory = [] ∧ d.redoHistory = [] := by
  unfold openBytes at h
  split_ifs at h
  obtain ⟨⟨text, encoding, bom⟩, -, hd⟩ := bind_eq_ok.mp h
  rw [← Except.ok.inj hd]
  exact ⟨rfl, rfl⟩

theorem tracked_openBytes (lowercase : Lowercase) {pages : CodePages} {hash : Bytes → Bytes}
    {bytes : Bytes} {d : ProfileDocument} (h : openBytes pages hash bytes = .ok d) :
    Tracked lowercase d := by
  obtain ⟨hundo, hredo⟩ := histories_openBytes h
  unfold Tracked timeline Timeline.Bounded Timeline.Linked Timeline.line
  rw [hundo, hredo]
  exact ⟨by simp, .singleton _⟩

/-! ## The laws -/

structure UndoLaws (lowercase : Lowercase) (d : ProfileDocument) : Prop where
  /-- The two histories keep no more than the limit. -/
  bounded : d.undoHistory.length + d.redoHistory.length ≤ historyLimit
  /-- Undo takes back one edit, and redo then restores the document. -/
  undone : ∀ d', d.undo = (true, d') →
    Follows lowercase d'.revision d.revision ∧ d'.redo = (true, d)
  redone : ∀ d', d.redo = (true, d') →
    Follows lowercase d.revision d'.revision ∧ d'.undo = (true, d)
  /-- A failed edit and one without a change leave the histories as well. -/
  failed : ∀ (request : EditRequest) error d', request.update lowercase d = (.error error, d') → d' = d
  unchanged : ∀ (request : EditRequest) d', request.update lowercase d = (.ok (), d') →
    d'.revision = d.revision → d' = d
  /-- Any other edit adds an entry, and undo and redo are its inverse and the edit again. -/
  recorded : ∀ (request : EditRequest) d', request.update lowercase d = (.ok (), d') →
    d'.revision ≠ d.revision →
      ∃ before, d'.undo = (true, before) ∧ d'.undoHistory = before.undoHistory ++ [d.revision] ∧
        before.revision = d.revision ∧ before.redo = (true, d')
  resetOk : (EditRequest.resetToDefaults.update lowercase d).1 = .ok ()

theorem recorded_laws (lowercase : Lowercase) (request : EditRequest) {d d' : ProfileDocument}
    (h : request.update lowercase d = (.ok (), d')) :
    (d'.revision = d.revision → d' = d) ∧
      (d'.revision ≠ d.revision →
        ∃ before, d'.undo = (true, before) ∧ d'.undoHistory = before.undoHistory ++ [d.revision] ∧
          before.revision = d.revision ∧ before.redo = (true, d')) := by
  rcases update_cases lowercase request d with ⟨error, -, herror⟩ | ⟨-, hupdate⟩
  · exact absurd (herror.symm.trans h) (by simp)
  obtain rfl : d.withTimeline (d.timeline.record historyLimit (edited lowercase request d)) = d' :=
    by simpa using hupdate.symm.trans h
  by_cases hsame : edited lowercase request d = d.timeline.present
  · rw [hsame, Timeline.record_same, withTimeline_timeline]
    exact ⟨fun _ => rfl, fun hne => absurd rfl hne⟩
  · rw [Timeline.record_other hsame]
    refine ⟨fun heq => absurd heq hsame, fun _ => ?_⟩
    obtain ⟨before, hundo⟩ : ∃ before, (d.withTimeline (d.timeline.record historyLimit
        (edited lowercase request d))).undo = (true, before) :=
      ⟨_, undo_eq_true.mpr ⟨_, Timeline.undo_record hsame, rfl⟩⟩
    obtain ⟨t, ht, rfl⟩ := undo_eq_true.mp hundo
    rw [Timeline.record_other hsame] at hundo
    obtain rfl := Option.some.inj ((Timeline.undo_record hsame).symm.trans ht)
    exact ⟨_, hundo, rfl, rfl, redo_eq_true_iff_undo.mpr hundo⟩

/-- The laws hold in every document that edits, resets, undo and redo lead to. -/
theorem undo_laws (lowercase : Lowercase) {pages : CodePages} {hash : Bytes → Bytes}
    {bytes : Bytes} {opened : ProfileDocument} (hopen : openBytes pages hash bytes = .ok opened)
    (actions : List Action) : UndoLaws lowercase (opened.run lowercase actions) := by
  obtain ⟨hbounded, hlinked⟩ := (tracked_openBytes lowercase hopen).run actions
  generalize opened.run lowercase actions = d at hbounded hlinked
  constructor
  · exact hbounded
  · intro d' hundo
    obtain ⟨t, ht, rfl⟩ := undo_eq_true.mp hundo
    exact ⟨hlinked.follows_undo ht, redo_eq_true_iff_undo.mpr hundo⟩
  · intro d' hredo
    obtain ⟨t, ht, rfl⟩ := redo_eq_true.mp hredo
    have hundo := redo_eq_true_iff_undo.mp hredo
    exact ⟨(hlinked.redo ht).follows_undo (Timeline.redo_eq_some_iff_undo.mp ht), hundo⟩
  · intro request error d' h
    exact eq_of_update_error h
  · intro request d' h
    exact (recorded_laws lowercase request h).1
  · intro request d' h
    exact (recorded_laws lowercase request h).2
  · rcases update_cases lowercase .resetToDefaults d with ⟨error, herror, -⟩ | ⟨-, hupdate⟩
    · obtain ⟨d', hd', -⟩ := resetSettings_ok factory_rendered d
      exact absurd (hd'.symm.trans herror) (by simp)
    · rw [hupdate]

theorem reset_undo_laws : ∃ opened,
    openBytes westernPages id [0x5B, 0x45, 0x5D, 0x0A] = .ok opened ∧
      UndoLaws id (opened.run id [.edit .resetToDefaults, .undo]) :=
  ⟨_, rfl, undo_laws id (show openBytes westernPages id [0x5B, 0x45, 0x5D, 0x0A] = .ok _ from rfl)
    [.edit .resetToDefaults, .undo]⟩

/-- The second reset of an empty profile changes nothing, so undo takes back the first one. -/
theorem second_reset_undone : ¬∀ (opened : ProfileDocument) (actions : List Action),
    openBytes westernPages id [] = .ok opened →
      let d := opened.run id actions
      (EditRequest.resetToDefaults.update id d).2.undo.2.revision = d.revision := by
  intro h
  have hreset := h _ [.edit .resetToDefaults] rfl
  exact absurd (congrArg (fun revision => revision.nodes.length) hreset) (by decide +kernel)

end ProfileDocument

end MacTypeControl.Editor
