import MacTypeControl.Editor.History

/-!
# Documents without changes

A document without dirty keys is encoded to the bytes that were last opened or saved, whatever was
edited, undone and saved before.
-/

namespace MacTypeControl.Editor

open Histories

namespace ProfileDocument

/-- What the file system does while a document is saved. -/
structure SaveAttempt where
  /-- The content that is read from the file before. -/
  disk : Except String Bytes
  /-- Whether the file is replaced. -/
  replaced : Except String Unit

/-- Saves the document, and gives the bytes that are written. -/
def save (pages : CodePages) (hash : Bytes → Bytes) (attempt : SaveAttempt)
    (d : ProfileDocument) : Except String Bytes × ProfileDocument :=
  let written : Except String Bytes := do
    let disk ← attempt.disk
    if hash disk ≠ d.originalHash then .error "profile changed on disk; reload before saving"
    else do
      let bytes ← d.encoded pages
      attempt.replaced
      .ok bytes
  match written with
  | .error error => (.error error, d)
  | .ok bytes =>
    (.ok bytes, { d with
      originalHash := hash bytes
      originalLegacyLines :=
        Editor.originalLegacyLines pages bytes (d.nodes.map IniNode.raw).flatten d.encoding
      dirtyKeys := ∅
      undoHistory := []
      redoHistory := [] })

def activePayload (pages : CodePages) (d : ProfileDocument) : Except String Bytes :=
  if d.isDirty then .error "save profile changes before applying them to MacType"
  else d.encoded pages

inductive FileAction where
  | act (action : Action)
  | save (attempt : SaveAttempt)

/-- A document, and the bytes that were last opened or saved. -/
structure OpenFile where
  document : ProfileDocument
  saved : Bytes

def FileAction.perform (pages : CodePages) (hash : Bytes → Bytes) (lowercase : Lowercase)
    (file : OpenFile) : FileAction → OpenFile
  | .act action => { file with document := action.perform lowercase file.document }
  | .save attempt =>
    match file.document.save pages hash attempt with
    | (.ok written, document) => ⟨document, written⟩
    | (.error _, document) => { file with document }

def OpenFile.run (pages : CodePages) (hash : Bytes → Bytes) (lowercase : Lowercase)
    (file : OpenFile) (actions : List FileAction) : OpenFile :=
  actions.foldl (FileAction.perform pages hash lowercase) file

/-! ## Encoding with the original lines -/

/-- The original lines are as their code page encodes them. -/
def FaithfulLines (pages : CodePages) (d : ProfileDocument) : Prop :=
  ∀ originals page, d.originalLegacyLines = some originals →
    pages.legacyCodec d.encoding = some page →
      ∀ line ∈ originals, page.encode line.1 = some line.2

theorem useLine_eq_some {raw : Chars} {originals rest : List ((Chars × Bytes) × Bool)}
    {bytes : Bytes} (h : useLine raw originals = some (bytes, rest)) :
    (raw, bytes) ∈ originals.map Prod.fst ∧ rest.map Prod.fst = originals.map Prod.fst := by
  induction originals generalizing rest with
  | nil => exact absurd h (by simp [useLine])
  | cons first originals ih =>
    rcases first with ⟨line, used⟩
    unfold useLine at h
    split_ifs at h with hunused
    · obtain ⟨rfl, rfl⟩ : line.2 = bytes ∧ (line, true) :: originals = rest := by simpa using h
      rw [← hunused.2]
      simp
    · obtain ⟨⟨found, others⟩, hfound, hresult⟩ := Option.map_eq_some_iff.mp h
      obtain ⟨rfl, rfl⟩ : found = bytes ∧ (line, used) :: others = rest := by simpa using hresult
      obtain ⟨hmem, hothers⟩ := ih hfound
      exact ⟨List.mem_cons_of_mem _ hmem, by simp [hothers]⟩

theorem encode_append_eq_none (page : CodePage) {first second : Chars}
    (h : page.encode first = none ∨ page.encode second = none) :
    page.encode (first ++ second) = none := by
  by_contra hsome
  obtain ⟨all, hall⟩ := Option.ne_none_iff_exists'.mp hsome
  obtain ⟨one, other, hone, hother, -⟩ := page.encode_append.mp hall
  rcases h with hnone | hnone
  · exact absurd (hnone.symm.trans hone) (by simp)
  · exact absurd (hnone.symm.trans hother) (by simp)

/-- Lines that are kept and lines that are encoded have the same bytes. -/
theorem encodeLines_eq (page : CodePage) {originals : List ((Chars × Bytes) × Bool)}
    (h : ∀ line ∈ originals.map Prod.fst, page.encode line.1 = some line.2) (raws : List Chars) :
    encodeLines page originals raws =
      match page.encode raws.flatten with
      | some bytes => .ok bytes
      | none => .error notRepresentable := by
  induction raws generalizing originals with
  | nil => rfl
  | cons raw raws ih =>
    have hstep (bytes : Bytes) (rest : List ((Chars × Bytes) × Bool))
        (hrest : ∀ line ∈ rest.map Prod.fst, page.encode line.1 = some line.2)
        (hraw : page.encode raw = some bytes) :
        (encodeLines page rest raws).map (bytes ++ ·) =
          match page.encode (raw :: raws).flatten with
          | some bytes => .ok bytes
          | none => .error notRepresentable := by
      rw [ih hrest, List.flatten_cons]
      cases hraws : page.encode raws.flatten with
      | some others =>
        rw [page.encode_append.mpr ⟨bytes, others, hraw, hraws, rfl⟩]
        rfl
      | none =>
        rw [encode_append_eq_none page (Or.inr hraws)]
        rfl
    unfold encodeLines
    cases huse : useLine raw originals with
    | some found =>
      obtain ⟨hmem, hrest⟩ := useLine_eq_some huse
      exact hstep found.1 found.2 (hrest ▸ h) (h _ hmem)
    | none =>
      cases hraw : page.encode raw with
      | some bytes => exact hstep bytes originals h hraw
      | none =>
        rw [List.flatten_cons, encode_append_eq_none page (Or.inl hraw)]

/-- The bytes of text, if they are within the limit. -/
def encodeText (pages : CodePages) (text : Chars) (encoding : TextEncoding) (bom : BomKind) :
    Except String Bytes := do
  let bytes ← encode pages text encoding bom
  if Profile.maxProfileBytes < bytes.length then .error (exceedsLimit "profile") else .ok bytes

/-- Faithful original lines make no difference. -/
theorem encoded_eq {pages : CodePages} {d : ProfileDocument} (h : d.FaithfulLines pages) :
    d.encoded pages =
      encodeText pages (d.nodes.map IniNode.raw).flatten d.encoding d.bom := by
  unfold encoded encodeText
  cases hlines : d.originalLegacyLines with
  | none => rfl
  | some originals =>
    cases hcodec : pages.legacyCodec d.encoding with
    | none => rfl
    | some page =>
      have hfaithful := h originals page hlines hcodec
      have hencoded : encodePreservingLegacyLines page (d.nodes.map IniNode.raw) originals =
          encode pages (d.nodes.map IniNode.raw).flatten d.encoding d.bom := by
        unfold encodePreservingLegacyLines encode
        rw [hcodec]
        exact encodeLines_eq page (by simpa using hfaithful) _
      simp only [hencoded]

theorem faithfulLines_of_encode {pages : CodePages} {d : ProfileDocument} {text : Chars}
    {bytes : Bytes} (hencode : encode pages text d.encoding d.bom = .ok bytes)
    (hlines : d.originalLegacyLines = Editor.originalLegacyLines pages bytes text d.encoding) :
    d.FaithfulLines pages := by
  intro originals page horiginals hcodec
  have hpage : page.encode text = some bytes := by
    simp only [encode, hcodec] at hencode
    split at hencode
    · next found hfound => rw [hfound, Except.ok.inj hencode]
    · exact absurd hencode (by simp)
  rw [hlines, originalLegacyLines_of_encode hcodec hpage] at horiginals
  obtain rfl := Option.some.inj horiginals
  intro line hline
  exact List.forall₂_zip (page.forall₂_splitLines hpage) hline

/-! ## Edits leave a dirty key -/

/-- Nothing was changed, or there is a dirty key. -/
def UnchangedOrDirty (d d' : ProfileDocument) : Prop := d' = d ∨ d'.dirtyKeys ≠ ∅

theorem UnchangedOrDirty.trans {a b c : ProfileDocument} (h : UnchangedOrDirty a b)
    (h' : UnchangedOrDirty b c) : UnchangedOrDirty a c := by
  rcases h' with rfl | hdirty
  · exact h
  · exact Or.inr hdirty

theorem dirtyKeys_markDirty (d : ProfileDocument) (dirtyKey : String) :
    (d.markDirty dirtyKey).dirtyKeys ≠ ∅ :=
  Finset.ne_empty_of_mem (Finset.mem_insert_self dirtyKey d.dirtyKeys)

theorem dirtyKeys_setRawValue (d : ProfileDocument) (sectionName keyName : Chars)
    (value : Option Chars) (dirtyKey : String) :
    (d.setRawValue sectionName keyName value dirtyKey).dirtyKeys ≠ ∅ := by
  cases value <;> exact dirtyKeys_markDirty _ dirtyKey

theorem unchangedOrDirty_resetSettings (list : List SettingDefinition) (d : ProfileDocument) :
    UnchangedOrDirty d (resetSettings list d).2 := by
  induction list generalizing d with
  | nil => exact Or.inl rfl
  | cons setting rest ih =>
    unfold resetSettings
    cases renderSettingValue setting.id (.ofRat setting.factory) with
    | error error => exact Or.inl rfl
    | ok rendered =>
      simp only
      split_ifs
      · exact ih d
      · exact UnchangedOrDirty.trans (Or.inr (dirtyKeys_setRawValue d _ _ _ _)) (ih _)

theorem unchangedOrDirty_edit (lowercase : Lowercase) (request : EditRequest)
    (d : ProfileDocument) : UnchangedOrDirty d (request.edit lowercase d).2 := by
  cases request with
  | value settingId number =>
    change UnchangedOrDirty d (setValue settingId number d).2
    unfold setValue
    cases renderSettingValue settingId number with
    | error error => exact Or.inl rfl
    | ok rendered => exact Or.inr (dirtyKeys_setRawValue d _ _ _ _)
  | individuals entries =>
    change UnchangedOrDirty d (setIndividuals lowercase entries d).2
    unfold setIndividuals
    cases validateIndividuals lowercase entries with
    | error error => exact Or.inl rfl
    | ok => exact Or.inr (dirtyKeys_markDirty _ _)
  | list kind entries =>
    change UnchangedOrDirty d (setList lowercase kind entries d).2
    unfold setList
    cases listSectionOf kind with
    | none => exact Or.inl rfl
    | some name =>
      cases normalizeListEntries lowercase entries with
      | error error => exact Or.inl rfl
      | ok normalized => exact Or.inr (dirtyKeys_markDirty _ _)
  | advanced profile =>
    change UnchangedOrDirty d (setAdvanced lowercase profile d).2
    unfold setAdvanced
    cases renderAdvancedProfile lowercase profile with
    | error error => exact Or.inl rfl
    | ok rendered => exact Or.inr (dirtyKeys_markDirty _ _)
  | resetToDefaults => exact unchangedOrDirty_resetSettings settings d

/-! ## Clean revisions -/

/-- The revisions without dirty keys are all the one that was opened or saved last. -/
structure CleanAs (pages : CodePages) (base : List IniNode) (file : OpenFile) : Prop where
  faithful : file.document.FaithfulLines pages
  written : encodeText pages (base.map IniNode.raw).flatten file.document.encoding
    file.document.bom = .ok file.saved
  clean : ∀ revision ∈ file.document.timeline.line, revision.dirtyKeys = ∅ → revision.nodes = base

theorem CleanAs.encoded {pages : CodePages} {base : List IniNode} {file : OpenFile}
    (h : CleanAs pages base file) (hclean : file.document.dirtyKeys = ∅) :
    file.document.encoded pages = .ok file.saved := by
  have hnodes : file.document.nodes = base :=
    h.clean file.document.revision (List.mem_append_right _ List.mem_cons_self) hclean
  rw [encoded_eq h.faithful, hnodes, h.written]

/-- A step of the timeline leaves all that the bytes depend on but the nodes. -/
theorem CleanAs.withTimeline {pages : CodePages} {base : List IniNode} {file : OpenFile}
    (h : CleanAs pages base file) {t : Timeline ProfileRevision}
    (ht : ∀ revision ∈ t.line, revision ∈ file.document.timeline.line ∨ revision.dirtyKeys ≠ ∅) :
    CleanAs pages base { file with document := file.document.withTimeline t } where
  faithful := h.faithful
  written := h.written
  clean revision hrevision hclean := by
    rcases ht revision hrevision with hmem | hdirty
    · exact h.clean revision hmem hclean
    · exact absurd hclean hdirty

/-- An action leaves all but the revisions, and of these it adds only the one it leads to. -/
theorem perform_withTimeline (lowercase : Lowercase) (action : Action) (d : ProfileDocument) :
    ∃ t, action.perform lowercase d = d.withTimeline t ∧ ∀ revision ∈ t.line,
      revision ∈ d.timeline.line ∨
        ∃ request, action = .edit request ∧ revision = edited lowercase request d := by
  have hsame : d = d.withTimeline d.timeline := (withTimeline_timeline d).symm
  cases action with
  | edit request =>
    change ∃ t, (request.update lowercase d).2 = _ ∧ _
    rcases update_cases lowercase request d with ⟨error, -, herror⟩ | ⟨-, hupdate⟩
    · rw [herror]
      exact ⟨d.timeline, hsame, fun _ => Or.inl⟩
    · rw [hupdate]
      refine ⟨_, rfl, fun revision hrevision => ?_⟩
      exact (Timeline.mem_line_record hrevision).imp_right fun h => ⟨request, rfl, h⟩
  | undo =>
    change ∃ t, d.undo.2 = _ ∧ _
    rw [undo_eq]
    cases hundo : d.timeline.undo with
    | none => exact ⟨d.timeline, hsame, fun _ => Or.inl⟩
    | some t => exact ⟨t, rfl, fun revision hmem => Or.inl (Timeline.line_undo hundo ▸ hmem)⟩
  | redo =>
    change ∃ t, d.redo.2 = _ ∧ _
    rw [redo_eq]
    cases hredo : d.timeline.redo with
    | none => exact ⟨d.timeline, hsame, fun _ => Or.inl⟩
    | some t => exact ⟨t, rfl, fun revision hmem => Or.inl (Timeline.line_redo hredo ▸ hmem)⟩

theorem CleanAs.act {pages : CodePages} {base : List IniNode} {file : OpenFile}
    (h : CleanAs pages base file) (lowercase : Lowercase) (action : Action) :
    CleanAs pages base { file with document := action.perform lowercase file.document } := by
  obtain ⟨t, hperform, hline⟩ := perform_withTimeline lowercase action file.document
  rw [hperform]
  refine h.withTimeline fun revision hrevision => ?_
  rcases hline revision hrevision with hmem | ⟨request, -, rfl⟩
  · exact Or.inl hmem
  · rcases unchangedOrDirty_edit lowercase request file.document with hsame | hdirty
    · refine Or.inl ?_
      rw [edited, hsame]
      exact List.mem_append_right _ List.mem_cons_self
    · exact Or.inr hdirty

theorem encodeText_eq_ok {pages : CodePages} {text : Chars} {encoding : TextEncoding}
    {bom : BomKind} {bytes : Bytes} (h : encodeText pages text encoding bom = .ok bytes) :
    encode pages text encoding bom = .ok bytes := by
  obtain ⟨found, hfound, h⟩ := bind_eq_ok.mp h
  split_ifs at h
  rw [hfound, Except.ok.inj h]

theorem save_cases (pages : CodePages) (hash : Bytes → Bytes) (attempt : SaveAttempt)
    (d : ProfileDocument) :
    (∃ error, d.save pages hash attempt = (.error error, d)) ∨
      ∃ bytes, d.encoded pages = .ok bytes ∧ d.save pages hash attempt = (.ok bytes, { d with
        originalHash := hash bytes
        originalLegacyLines :=
          Editor.originalLegacyLines pages bytes (d.nodes.map IniNode.raw).flatten d.encoding
        dirtyKeys := ∅
        undoHistory := []
        redoHistory := [] }) := by
  unfold save
  simp only
  split
  · next error _ => exact Or.inl ⟨error, rfl⟩
  · next bytes hwritten =>
    refine Or.inr ⟨bytes, ?_, rfl⟩
    obtain ⟨disk, -, hwritten⟩ := bind_eq_ok.mp hwritten
    split_ifs at hwritten
    obtain ⟨found, hfound, hwritten⟩ := bind_eq_ok.mp hwritten
    obtain ⟨-, -, hbytes⟩ := bind_eq_ok.mp hwritten
    rw [hfound, Except.ok.inj hbytes]

/-- A save leaves the file as it was, or leaves only the present revision with its bytes. -/
theorem CleanAs.save {pages : CodePages} {base : List IniNode} {file : OpenFile}
    (h : CleanAs pages base file) (hash : Bytes → Bytes) (lowercase : Lowercase)
    (attempt : SaveAttempt) {file' : OpenFile}
    (hfile : (FileAction.save attempt).perform pages hash lowercase file = file') :
    file' = file ∨ file.document.encoded pages = .ok file'.saved ∧
      file'.document.timeline.line = [⟨file.document.nodes, ∅⟩] ∧
      CleanAs pages file.document.nodes file' := by
  subst hfile
  unfold FileAction.perform
  rcases save_cases pages hash attempt file.document with ⟨error, herror⟩ | ⟨bytes, hbytes, hsave⟩
  · simp only [herror]
    exact .inl trivial
  · simp only [hsave]
    refine .inr ⟨hbytes, rfl, ?_⟩
    rw [encoded_eq h.faithful] at hbytes
    refine ⟨faithfulLines_of_encode (encodeText_eq_ok hbytes) rfl, hbytes, ?_⟩
    intro revision hrevision _
    -- Only the present revision is left, and it is clean with the nodes that were written.
    obtain rfl := List.mem_singleton.mp hrevision
    rfl

theorem cleanAs_openBytes {pages : CodePages} {hash : Bytes → Bytes} {bytes : Bytes}
    {opened : ProfileDocument} (h : openBytes pages hash bytes = .ok opened) :
    CleanAs pages opened.nodes ⟨opened, bytes⟩ := by
  obtain ⟨hundo, hredo⟩ := histories_openBytes h
  unfold openBytes at h
  split_ifs at h with hsize
  have hencoded := encoded_fromBytes (Nat.not_lt.mp hsize) h
  obtain ⟨⟨text, encoding, bom⟩, hdecode, hopened⟩ := bind_eq_ok.mp h
  have hfaithful : opened.FaithfulLines pages := by
    obtain rfl := Except.ok.inj hopened
    exact faithfulLines_of_encode (encode_of_decode hdecode) rfl
  refine ⟨hfaithful, (encoded_eq hfaithful).symm.trans hencoded, fun revision hrevision _ => ?_⟩
  unfold timeline Timeline.line at hrevision
  rw [hundo, hredo] at hrevision
  obtain rfl := List.mem_singleton.mp hrevision
  rfl

theorem exists_cleanAs_run {pages : CodePages} (hash : Bytes → Bytes) (lowercase : Lowercase)
    (actions : List FileAction) {file : OpenFile} (h : ∃ base, CleanAs pages base file) :
    ∃ base, CleanAs pages base (file.run pages hash lowercase actions) := by
  unfold OpenFile.run
  induction actions generalizing file with
  | nil => exact h
  | cons action rest ih =>
    obtain ⟨base, hbase⟩ := h
    refine ih ?_
    cases action with
    | act action => exact ⟨base, hbase.act lowercase action⟩
    | save attempt =>
      rcases hbase.save hash lowercase attempt rfl with hsame | ⟨-, -, hsaved⟩
      · exact ⟨base, hsame.symm ▸ hbase⟩
      · exact ⟨_, hsaved⟩

/-- After any edits, resets, undos, redos and saves, a document without dirty keys is the content
that was last opened or saved, and so is its payload. -/
theorem clean_document_is_saved {pages : CodePages} {hash : Bytes → Bytes} (lowercase : Lowercase)
    {bytes : Bytes} {opened : ProfileDocument} (hopen : openBytes pages hash bytes = .ok opened)
    (actions : List FileAction) :
    let file := OpenFile.run pages hash lowercase ⟨opened, bytes⟩ actions
    (file.document.isDirty = false → file.document.encoded pages = .ok file.saved) ∧
      file.document.activePayload pages =
        if file.document.isDirty then .error "save profile changes before applying them to MacType"
        else .ok file.saved := by
  intro file
  obtain ⟨base, hbase⟩ := exists_cleanAs_run hash lowercase actions
    ⟨opened.nodes, cleanAs_openBytes hopen⟩
  have hclean (h : file.document.isDirty = false) : file.document.encoded pages = .ok file.saved :=
    hbase.encoded (by simpa [isDirty] using h)
  refine ⟨hclean, ?_⟩
  unfold activePayload
  split_ifs with hdirty
  · rfl
  · exact hclean (by simpa using hdirty)

end ProfileDocument

end MacTypeControl.Editor
