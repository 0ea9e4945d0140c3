import MacTypeControl.Editor.History
import MacTypeControl.Editor.Readings

/-!
# Edits of one value

A setting is written where it is read, and nothing else is read otherwise.
-/

namespace MacTypeControl.Editor

open Text

/-- Names of one value: the keys are the same, and so are two sections that are read for them. -/
def SamePair (sectionName keyName sectionName' keyName' : Chars) : Prop :=
  eqIgnoreAsciiCase keyName keyName' = true ∧
    ∃ a ∈ readSections sectionName, ∃ b ∈ readSections sectionName', eqIgnoreAsciiCase a b = true

def IniNode.isComment : IniNode → Bool
  | .comment _ => true
  | _ => false

/-- One entry has another value, or one entry is added to its section, which may be added too. -/
inductive OneLineEdit (keyName rendered ending : Chars) : List IniNode → List IniNode → Prop
  | changed (target : Chars) (a : List IniNode) (node : IniNode) (b : List IniNode) :
    node.isEntry target keyName = true →
    OneLineEdit keyName rendered ending (a ++ node :: b) (a ++ node.withValue rendered :: b)
  | inserted (target : Chars) (a b : List IniNode) :
    a.any (IniNode.isSection target) = true → b.any (IniNode.belongsTo target) = false →
    OneLineEdit keyName rendered ending (a ++ b)
      (a ++ entryNode target keyName rendered ending :: b)
  | appended (target : Chars) (nodes : List IniNode) :
    nodes.any (IniNode.isSection target) = false →
    OneLineEdit keyName rendered ending nodes
      (nodes ++ [sectionNode target ending, entryNode target keyName rendered ending])

theorem comments_of_oneLineEdit {keyName rendered ending : Chars} {nodes nodes' : List IniNode}
    (h : OneLineEdit keyName rendered ending nodes nodes') :
    nodes'.filter IniNode.isComment = nodes.filter IniNode.isComment := by
  cases h with
  | changed target a node b hnode =>
    cases node with
    | keyValue => simp [IniNode.withValue, IniNode.isComment]
    | _ => exact absurd hnode (by simp [IniNode.isEntry])
  | inserted target a b => simp [entryNode, IniNode.isComment]
  | appended target nodes => simp [entryNode, sectionNode, IniNode.isComment]

/-! ## The section that is written -/

theorem findSome?_eq_of_forall {α β : Type} {f : α → Option β} {v : β} {xs : List α}
    (h : ∀ x ∈ xs, f x = none ∨ f x = some v) {x : α} (hx : x ∈ xs) (hfx : f x = some v) :
    xs.findSome? f = some v := by
  induction xs with
  | nil => exact absurd hx List.not_mem_nil
  | cons first rest ih =>
    rw [List.forall_mem_cons] at h
    rcases h.1 with hnone | hsome
    · rw [List.findSome?_cons_of_isNone (by simp [hnone])]
      refine ih h.2 ?_
      rcases List.mem_cons.mp hx with rfl | hmem
      · exact absurd (hnone.symm.trans hfx) (by simp)
      · exact hmem
    · rw [List.findSome?_cons, hsome]

theorem findSome?_congr_mem {α β : Type} {f g : α → Option β} {xs : List α}
    (h : ∀ x ∈ xs, f x = g x) : xs.findSome? f = xs.findSome? g := by
  induction xs with
  | nil => rfl
  | cons first rest ih =>
    rw [List.forall_mem_cons] at h
    rw [List.findSome?_cons, List.findSome?_cons, h.1, ih h.2]

theorem exists_readSections (sectionName : Chars) :
    ∃ a ∈ readSections sectionName, eqIgnoreAsciiCase sectionName a = true := by
  unfold readSections
  split_ifs with hgeneral
  · exact ⟨"General".toList, by simp, hgeneral⟩
  · exact ⟨sectionName, List.mem_singleton_self _, sameName_refl sectionName⟩

namespace ProfileDocument

/-- The first section that has an entry is written, and the section asked for where none has. -/
theorem targetSection_cases (d : ProfileDocument) (sectionName keyName : Chars) :
    (∃ before after, readSections sectionName =
        before ++ d.targetSection sectionName keyName :: after ∧
      (∀ a ∈ before, d.nodes.any (IniNode.isEntry a keyName) = false) ∧
      d.nodes.any (IniNode.isEntry (d.targetSection sectionName keyName) keyName) = true) ∨
    (d.targetSection sectionName keyName = sectionName ∧
      ∀ a ∈ readSections sectionName, d.nodes.any (IniNode.isEntry a keyName) = false) := by
  unfold targetSection
  cases hfind : (readSections sectionName).find? fun target =>
      d.nodes.any (IniNode.isEntry target keyName) with
  | none => exact Or.inr ⟨rfl, fun a ha => by simpa using List.find?_eq_none.mp hfind a ha⟩
  | some target =>
    obtain ⟨hany, before, after, hsplit, hbefore⟩ := List.find?_eq_some_iff_append.mp hfind
    exact Or.inl ⟨before, after, hsplit, fun a ha => by simpa using hbefore a ha, hany⟩

theorem exists_readSections_target (d : ProfileDocument) (sectionName keyName : Chars) :
    ∃ a ∈ readSections sectionName,
      eqIgnoreAsciiCase (d.targetSection sectionName keyName) a = true := by
  rcases d.targetSection_cases sectionName keyName with ⟨before, after, hsplit, -⟩ | ⟨htarget, -⟩
  · refine ⟨d.targetSection sectionName keyName, ?_, sameName_refl _⟩
    rw [hsplit]
    simp
  · rw [htarget]
    exact exists_readSections sectionName

theorem isEntry_withValue (target keyName rendered : Chars) (node : IniNode) :
    (node.withValue rendered).isEntry target keyName = node.isEntry target keyName := by
  cases node <;> rfl

theorem isEntry_entryNode (target keyName rendered ending : Chars) :
    (entryNode target keyName rendered ending).isEntry target keyName = true := by
  simp [entryNode, IniNode.isEntry, sameName_refl]

theorem any_isEntry_withSection (d : ProfileDocument) (name target keyName : Chars) :
    (d.withSection name).any (IniNode.isEntry target keyName) =
      d.nodes.any (IniNode.isEntry target keyName) := by
  unfold withSection
  split_ifs
  · rfl
  · simp [sectionNode, IniNode.isEntry]

theorem belongsTo_of_isSection {target : Chars} {node : IniNode}
    (h : node.isSection target = true) : node.belongsTo target = true := by
  cases node with
  | «section» name raw => exact h
  | _ => exact absurd h (by simp [IniNode.isSection])

theorem any_isSection_withSection (d : ProfileDocument) (name : Chars) :
    (d.withSection name).any (IniNode.isSection name) = true := by
  unfold withSection
  split_ifs with hany
  · exact hany
  · simp [sectionNode, IniNode.isSection, sameName_refl]

theorem any_belongsTo_withSection (d : ProfileDocument) (name : Chars) :
    (d.withSection name).any (IniNode.belongsTo name) = true := by
  obtain ⟨node, hnode, hsection⟩ := List.any_eq_true.mp (d.any_isSection_withSection name)
  exact List.any_eq_true.mpr ⟨node, hnode, belongsTo_of_isSection hsection⟩

/-- Where there is an entry, the last one of the section is changed. -/
theorem setRawValue_changed {d : ProfileDocument} {sectionName keyName rendered : Chars}
    (dirtyKey : String) {target : Chars} (htarget : d.targetSection sectionName keyName = target)
    (h : d.nodes.any (IniNode.isEntry target keyName) = true) :
    ∃ a node b, d.nodes = a ++ node :: b ∧ b.any (IniNode.isEntry target keyName) = false ∧
      node.isEntry target keyName = true ∧
      (d.setRawValue sectionName keyName (some rendered) dirtyKey).nodes =
        a ++ node.withValue rendered :: b := by
  obtain ⟨a, node, b, hnodes, hb, hnode, hupdate⟩ :=
    updateLast_split (IniNode.withValue rendered) h
  refine ⟨a, node, b, hnodes, hb, hnode, ?_⟩
  rw [← hupdate]
  unfold setRawValue
  simp only [htarget, h, if_true]
  rfl

/-- Where there is none, an entry is added after the last line of the section. -/
theorem setRawValue_inserted {d : ProfileDocument} {sectionName keyName rendered : Chars}
    (dirtyKey : String) {target : Chars} (htarget : d.targetSection sectionName keyName = target)
    (h : d.nodes.any (IniNode.isEntry target keyName) = false) :
    ∃ a b, d.withSection target = a ++ b ∧ b.any (IniNode.belongsTo target) = false ∧
      (∃ last, a.getLast? = some last ∧ last.belongsTo target = true) ∧
      (d.setRawValue sectionName keyName (some rendered) dirtyKey).nodes =
        a ++ entryNode target keyName rendered d.ending :: b := by
  obtain ⟨a, b, hnodes, hb, hlast, hinsert⟩ := insertAfterLast_split (IniNode.belongsTo target)
    (entryNode target keyName rendered d.ending) (d.withSection target)
  refine ⟨a, b, hnodes, hb, hlast (d.any_belongsTo_withSection target), ?_⟩
  rw [← hinsert]
  unfold setRawValue
  simp only [htarget, h, if_false, Bool.false_eq_true]
  rfl

theorem oneLineEdit_setRawValue (d : ProfileDocument) (sectionName keyName rendered : Chars)
    (dirtyKey : String) :
    OneLineEdit keyName rendered d.ending d.nodes
      (d.setRawValue sectionName keyName (some rendered) dirtyKey).nodes := by
  set target := d.targetSection sectionName keyName with htarget
  cases hany : d.nodes.any (IniNode.isEntry target keyName) with
  | true =>
    obtain ⟨a, node, b, hnodes, -, hnode, hresult⟩ :=
      setRawValue_changed dirtyKey htarget.symm hany
    rw [hresult, hnodes]
    exact .changed target a node b hnode
  | false =>
    obtain ⟨a, b, hnodes, hb, -, hresult⟩ := setRawValue_inserted dirtyKey htarget.symm hany
    rw [hresult]
    have hlater : b.any (IniNode.isSection target) = false := by
      rw [List.any_eq_false] at hb ⊢
      exact fun node hnode h => hb node hnode (belongsTo_of_isSection h)
    unfold withSection at hnodes
    split_ifs at hnodes with hsection
    · rw [hnodes]
      refine .inserted target a b ?_ hb
      rwa [hnodes, List.any_append, hlater, Bool.or_false] at hsection
    · -- The new header is the last line of its section, so no line comes after the entry.
      obtain rfl : b = [] := by
        rcases List.eq_nil_or_concat b with hnil | ⟨front, last, rfl⟩
        · exact hnil
        · rw [List.concat_eq_append, ← List.append_assoc, List.append_singleton_inj] at hnodes
          rw [← hnodes.2] at hlater
          simp [sectionNode, IniNode.isSection, sameName_refl] at hlater
      rw [List.append_nil] at hnodes
      rw [← hnodes, List.append_assoc]
      exact .appended target d.nodes (by simpa using hsection)

/-- An entry of the section that is written is the value that is read. -/
theorem rawValue_setRawValue (d : ProfileDocument) (sectionName keyName rendered : Chars)
    (dirtyKey : String) :
    rawValue (d.setRawValue sectionName keyName (some rendered) dirtyKey).nodes sectionName keyName =
      some rendered := by
  unfold rawValue
  rcases d.targetSection_cases sectionName keyName with
    ⟨before, after, hsplit, hbefore, hany⟩ | ⟨htarget, hnone⟩
  · obtain ⟨a, node, b, hnodes, hb, hnode, hresult⟩ := setRawValue_changed dirtyKey rfl hany
    have hearlier : ∀ target ∈ before,
        lastValue (a ++ node.withValue rendered :: b) target keyName = none := by
      intro target htarget
      have hno := hbefore target htarget
      rw [hnodes] at hno
      apply lastValue_eq_none
      simpa [isEntry_withValue] using hno
    have hwritten : lastValue (a ++ node.withValue rendered :: b)
        (d.targetSection sectionName keyName) keyName = some rendered := by
      rw [lastValue_of_entry _ _ a ((isEntry_withValue _ _ _ _).trans hnode) hb]
      cases node with
      | keyValue => rfl
      | _ => exact absurd hnode (by simp [IniNode.isEntry])
    rw [hresult, hsplit, List.findSome?_append, List.findSome?_eq_none_iff.mpr hearlier,
      Option.none_or, List.findSome?_cons, hwritten]
  · have hown : d.nodes.any (IniNode.isEntry (d.targetSection sectionName keyName) keyName) =
        false := by
      obtain ⟨own, hown, hsame⟩ := exists_readSections sectionName
      rw [htarget, funext (isEntry_congr hsame (sameName_refl keyName))]
      exact hnone own hown
    obtain ⟨a, b, hnodes, -, -, hresult⟩ := setRawValue_inserted dirtyKey rfl hown
    rw [hresult, htarget]
    have hread : ∀ target ∈ readSections sectionName,
        (entryNode sectionName keyName rendered d.ending).isEntry target keyName = false ∧
            lastValue (a ++ entryNode sectionName keyName rendered d.ending :: b) target keyName =
              none ∨
          lastValue (a ++ entryNode sectionName keyName rendered d.ending :: b) target keyName =
            some rendered := by
      intro target hmem
      have hno := hnone target hmem
      rw [← any_isEntry_withSection d (d.targetSection sectionName keyName), hnodes] at hno
      cases hentry : (entryNode sectionName keyName rendered d.ending).isEntry target keyName with
      | false =>
        refine Or.inl ⟨rfl, ?_⟩
        rw [lastValue_insert _ _ a b hentry, lastValue_eq_none _ _ hno]
      | true =>
        rw [List.any_append, Bool.or_eq_false_iff] at hno
        exact Or.inr (lastValue_of_entry _ _ a hentry hno.2)
    obtain ⟨own, hmem, hsame⟩ := exists_readSections sectionName
    apply findSome?_eq_of_forall (fun target htarget => (hread target htarget).imp_left And.right)
      hmem
    rcases hread own hmem with ⟨hentry, -⟩ | hvalue
    · rw [← isEntry_congr hsame (sameName_refl keyName), isEntry_entryNode] at hentry
      exact absurd hentry (by simp)
    · exact hvalue

/-- No other value is read otherwise. -/
theorem rawValue_setRawValue_other (d : ProfileDocument) {sectionName keyName : Chars}
    (rendered : Chars) (dirtyKey : String) {sectionName' keyName' : Chars}
    (hother : ¬SamePair sectionName keyName sectionName' keyName') :
    rawValue (d.setRawValue sectionName keyName (some rendered) dirtyKey).nodes sectionName'
      keyName' = rawValue d.nodes sectionName' keyName' := by
  obtain ⟨own, hown, hsame⟩ := d.exists_readSections_target sectionName keyName
  set target := d.targetSection sectionName keyName with htarget
  -- An entry for the key in the section that is written is none of the other pair.
  have hapart (node : IniNode) (hnode : node.isEntry target keyName = true) (target' : Chars)
      (hmem : target' ∈ readSections sectionName') : node.isEntry target' keyName' = false := by
    cases hentry : node.isEntry target' keyName' with
    | false => rfl
    | true =>
      obtain ⟨hsection, hkey⟩ := sameName_of_isEntry hnode hentry
      exact absurd ⟨hkey, own, hown, target', hmem, sameName_trans (sameName_symm hsame) hsection⟩
        hother
  unfold rawValue
  apply findSome?_congr_mem
  intro target' hmem
  cases hany : d.nodes.any (IniNode.isEntry target keyName) with
  | true =>
    obtain ⟨a, node, b, hnodes, -, hnode, hresult⟩ :=
      setRawValue_changed dirtyKey htarget.symm hany
    have hold := hapart node hnode target' hmem
    rw [hresult, hnodes, lastValue_insert _ _ a b hold,
      lastValue_insert _ _ a b ((isEntry_withValue _ _ _ _).trans hold)]
  | false =>
    obtain ⟨a, b, hnodes, -, -, hresult⟩ := setRawValue_inserted dirtyKey htarget.symm hany
    rw [hresult, lastValue_insert _ _ a b
      (hapart _ (isEntry_entryNode target keyName rendered d.ending) target' hmem), ← hnodes]
    unfold withSection
    split_ifs
    · rfl
    · rw [lastValue_append, lastValue_other _ _ rfl, Option.none_or]

/-! ## The edit -/

/-- A setting that is set is read as it was rendered. Every other value, every comment and the order
of the comments are kept, by a change of one line. A refused edit leaves the document as it was.
All this is about the document in memory. -/
theorem scalar_edit_exact (lowercase : Lowercase) (d : ProfileDocument) :
    (∀ settingId number d', updateValue settingId number d = (.ok (), d') →
      ∃ rendered, renderSettingValue settingId number = .ok rendered ∧
        rawValue d'.nodes rendered.section rendered.key = some rendered.value ∧
        (∀ sectionName keyName, ¬SamePair rendered.section rendered.key sectionName keyName →
          rawValue d'.nodes sectionName keyName = rawValue d.nodes sectionName keyName) ∧
        d'.nodes.filter IniNode.isComment = d.nodes.filter IniNode.isComment ∧
        OneLineEdit rendered.key rendered.value d.ending d.nodes d'.nodes) ∧
      (∀ settingId number error d', updateValue settingId number d = (.error error, d') → d' = d) ∧
      ∀ advanced error d', updateAdvanced lowercase advanced d = (.error error, d') → d' = d := by
  refine ⟨fun settingId number d' h => ?_, fun settingId number error d' h => ?_,
    fun advanced error d' h => ?_⟩
  · have hupdate : (EditRequest.value settingId number).update lowercase d = (.ok (), d') := h
    obtain ⟨hedit, hrevision⟩ := revision_of_update hupdate
    have hset : setValue settingId number d = (.ok (), (setValue settingId number d).2) := hedit
    have hnodes : d'.nodes = (setValue settingId number d).2.nodes :=
      congrArg ProfileRevision.nodes hrevision
    rw [hnodes]
    unfold setValue at hset ⊢
    cases hrendered : renderSettingValue settingId number with
    | error error => simp [hrendered] at hset
    | ok rendered =>
      have hline := d.oneLineEdit_setRawValue rendered.section rendered.key rendered.value settingId
      exact ⟨rendered, rfl, d.rawValue_setRawValue _ _ _ _,
        fun sectionName keyName hother => d.rawValue_setRawValue_other _ _ hother,
        comments_of_oneLineEdit hline, hline⟩
  · have hupdate : (EditRequest.value settingId number).update lowercase d = (.error error, d') := h
    exact eq_of_update_error hupdate
  · have hupdate : (EditRequest.advanced advanced).update lowercase d = (.error error, d') := h
    exact eq_of_update_error hupdate

theorem hinting_mode_exact : ∃ opened,
    openBytes westernPages id (encodeUtf8 "[General]\nHintingMode=1\n".toList) = .ok opened ∧
    rawValue (updateValue "hinting_mode" (.ofRat 2) opened).2.nodes "General".toList
      "HintingMode".toList = some ['2'] := by
  have hexact (d : ProfileDocument) (h : (updateValue "hinting_mode" (.ofRat 2) d).1 = .ok ()) :
      rawValue (updateValue "hinting_mode" (.ofRat 2) d).2.nodes "General".toList
        "HintingMode".toList = some ['2'] := by
    obtain ⟨rendered, hrendered, hvalue, -⟩ :=
      (scalar_edit_exact id d).1 "hinting_mode" (.ofRat 2) _ (Prod.ext h rfl)
    have hname : renderSettingValue "hinting_mode" (.ofRat 2) =
      .ok ⟨"General".toList, "HintingMode".toList, ['2']⟩ := by rfl
    obtain rfl := Except.ok.inj (hname.symm.trans hrendered)
    exact hvalue
  exact ⟨_, rfl, hexact _ (by decide +kernel)⟩

end ProfileDocument

end MacTypeControl.Editor
