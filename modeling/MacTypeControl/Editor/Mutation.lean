import MacTypeControl.Editor.Settings

/-!
# The edits of a document

Every edit is recorded with the nodes and the dirty keys before it.
-/

namespace MacTypeControl.Editor

open Text

namespace ProfileDocument

def revision (d : ProfileDocument) : ProfileRevision := ⟨d.nodes, d.dirtyKeys⟩

def restoreRevision (d : ProfileDocument) (revision : ProfileRevision) : ProfileDocument :=
  { d with nodes := revision.nodes, dirtyKeys := revision.dirtyKeys }

def historyLimit : ℕ := 100

/-- An edit of a document. One that fails leaves the document as it has become. -/
abbrev Edit := ProfileDocument → Except String Unit × ProfileDocument

def recordEdit (edit : Edit) : Edit := fun d =>
  let previous := d.revision
  match edit d with
  | (.error error, d) => (.error error, d)
  | (.ok (), d) =>
    if d.revision = previous then (.ok (), d)
    else
      let undoHistory := if d.undoHistory.length = historyLimit then d.undoHistory.tail
        else d.undoHistory
      (.ok (), { d with undoHistory := undoHistory ++ [previous], redoHistory := [] })

def undo (d : ProfileDocument) : Bool × ProfileDocument :=
  match d.undoHistory.getLast? with
  | none => (false, d)
  | some previous =>
    (true, { d with
      undoHistory := d.undoHistory.dropLast
      redoHistory := d.redoHistory ++ [d.revision] }.restoreRevision previous)

def redo (d : ProfileDocument) : Bool × ProfileDocument :=
  match d.redoHistory.getLast? with
  | none => (false, d)
  | some next =>
    (true, { d with
      redoHistory := d.redoHistory.dropLast
      undoHistory := d.undoHistory ++ [d.revision] }.restoreRevision next)

end ProfileDocument

/-! ## Entries -/

def IniNode.isSection (target : Chars) : IniNode → Bool
  | .section name _ => eqIgnoreAsciiCase name target
  | _ => false

def IniNode.isAnySection : IniNode → Bool
  | .section _ _ => true
  | _ => false

/-- The line is the header of the section, or stands in it with a text of its own. -/
def IniNode.belongsTo (target : Chars) : IniNode → Bool
  | .section name _ => eqIgnoreAsciiCase name target
  | .keyValue sec _ _ _ _ _ _ | .unknown sec _ => eqIgnoreAsciiCase sec target
  | _ => false

/-- Puts another value into an entry, and leaves its format. -/
def IniNode.withValue (rendered : Chars) : IniNode → IniNode
  | .keyValue sec key _ lead separator suffix _ =>
    .keyValue sec key rendered lead separator suffix (lead ++ separator ++ rendered ++ suffix)
  | node => node

/-- Changes the first node of which something holds. -/
def updateFirst (p : IniNode → Bool) (f : IniNode → IniNode) : List IniNode → List IniNode
  | [] => []
  | node :: rest => if p node then f node :: rest else node :: updateFirst p f rest

/-- Changes the last node of which something holds. -/
def updateLast (p : IniNode → Bool) (f : IniNode → IniNode) (nodes : List IniNode) :
    List IniNode :=
  (updateFirst p f nodes.reverse).reverse

/-- Inserts a node after the last one of which something holds, or at the end. -/
def insertAfterLast (p : IniNode → Bool) (node : IniNode) (nodes : List IniNode) : List IniNode :=
  match nodes.reverse.findIdx? p with
  | some back => nodes.take (nodes.length - back) ++ node :: nodes.drop (nodes.length - back)
  | none => nodes ++ [node]

def sectionNode (name ending : Chars) : IniNode := .section name ('[' :: name ++ ']' :: ending)

def entryNode (sec key value ending : Chars) : IniNode :=
  .keyValue sec key value key ['='] ending (key ++ '=' :: value ++ ending)

namespace ProfileDocument

def markDirty (d : ProfileDocument) (dirtyKey : String) : ProfileDocument :=
  { d with dirtyKeys := insert dirtyKey d.dirtyKeys }

/-- The section with the entry for the key, or else the section asked for. -/
def targetSection (d : ProfileDocument) (sectionName keyName : Chars) : Chars :=
  ((readSections sectionName).find? fun target =>
    d.nodes.any (IniNode.isEntry target keyName)).getD sectionName

/-- The nodes with a header of the section, which is added at the end where there is none. -/
def withSection (d : ProfileDocument) (name : Chars) : List IniNode :=
  if d.nodes.any (IniNode.isSection name) then d.nodes
  else d.nodes ++ [sectionNode name d.ending]

def setRawValue (d : ProfileDocument) (sectionName keyName : Chars) (value : Option Chars)
    (dirtyKey : String) : ProfileDocument :=
  match value with
  | none =>
    { d with nodes := d.nodes.filter fun node =>
        !(readSections sectionName).any fun target => node.isEntry target keyName }.markDirty dirtyKey
  | some rendered =>
    let target := d.targetSection sectionName keyName
    let nodes :=
      if d.nodes.any (IniNode.isEntry target keyName) then
        updateLast (IniNode.isEntry target keyName) (IniNode.withValue rendered) d.nodes
      else insertAfterLast (IniNode.belongsTo target) (entryNode target keyName rendered d.ending)
        (d.withSection target)
    { d with nodes }.markDirty dirtyKey

def setValue (settingId : String) (value : Float64) : Edit := fun d =>
  match renderSettingValue settingId value with
  | .error error => (.error error, d)
  | .ok rendered =>
    (.ok (), d.setRawValue rendered.section rendered.key (some rendered.value) settingId)

/-! ## Sections -/

/-- The nodes up to the header of a section, the lines under it, and the nodes from the next
header on. -/
def sectionRange (d : ProfileDocument) (name : Chars) :
    List IniNode × List IniNode × List IniNode :=
  let nodes := d.withSection name
  let before := nodes.take (nodes.findIdx (IniNode.isSection name) + 1)
  let after := nodes.drop (nodes.findIdx (IniNode.isSection name) + 1)
  (before, after.takeWhile (!·.isAnySection), after.dropWhile (!·.isAnySection))

/-- The line is an entry or an unknown line of the section. -/
def isListLine (target : Chars) : IniNode → Bool
  | .unknown sec _ | .keyValue sec _ _ _ _ _ _ => eqIgnoreAsciiCase sec target
  | _ => false

def isIndividualLine : IniNode → Bool
  | .keyValue sec _ _ _ _ _ _ => eqIgnoreAsciiCase sec "Individual".toList
  | _ => false

/-- Takes the lines of one kind out of a section, and puts others at its end. -/
def replaceLines (d : ProfileDocument) (name : Chars) (replaced : IniNode → Bool)
    (replacement : List IniNode) : ProfileDocument :=
  let (before, inside, after) := d.sectionRange name
  { d with nodes := before ++ (inside.filter (!replaced ·) ++ replacement) ++ after }

def individualNode (ending : Chars) (entry : IndividualSetting) : IniNode :=
  entryNode "Individual".toList entry.fontFace
    (commaSeparated (entry.values.map fun value => (value.map printInt).getD [])) ending

def setIndividuals (lowercase : Lowercase) (entries : List IndividualSetting) : Edit := fun d =>
  match validateIndividuals lowercase entries with
  | .error error => (.error error, d)
  | .ok () =>
    (.ok (), (d.replaceLines "Individual".toList isIndividualLine
      (entries.map (individualNode d.ending))).markDirty "section:Individual")

def replaceListSection (d : ProfileDocument) (name : String) (normalized : List Chars) :
    ProfileDocument :=
  (d.replaceLines name.toList (isListLine name.toList)
    (normalized.map fun entry => .unknown name.toList (entry ++ d.ending))).markDirty
    ("section:" ++ name)

/-- The lists by their kinds, each with its section. -/
def listSectionOf : String → Option String
  | "excludeFonts" => some "Exclude"
  | "includeFonts" => some "Include"
  | "excludeModules" => some "ExcludeModule"
  | "includeModules" => some "IncludeModule"
  | "unloadDlls" => some "UnloadDLL"
  | "excludeSubstitutionModules" => some "ExcludeSub"
  | "fontSubstitutes" => some "FontSubstitutes"
  | _ => none

def setList (lowercase : Lowercase) (kind : String) (entries : List Chars) : Edit := fun d =>
  match listSectionOf kind with
  | none => (.error ("unknown profile list: " ++ kind), d)
  | some name =>
    match normalizeListEntries lowercase entries with
    | .error error => (.error error, d)
    | .ok normalized => (.ok (), d.replaceListSection name normalized)

def setAdvanced (lowercase : Lowercase) (advanced : AdvancedProfile) : Edit := fun d =>
  match renderAdvancedProfile lowercase advanced with
  | .error error => (.error error, d)
  | .ok rendered =>
    let general := "General".toList
    let d := d.setRawValue general "Shadow".toList rendered.shadow "advanced:shadow"
    let d := d.setRawValue general "LcdFilterWeight".toList rendered.lcdFilterWeight
      "advanced:lcdFilterWeight"
    let d := d.setRawValue general "PixelLayout".toList rendered.pixelLayout "advanced:pixelLayout"
    (.ok (), d.replaceListSection "FontSubstitutes" rendered.fontSubstitutes)

/-! ## The operations -/

def updateValue (settingId : String) (value : Float64) : Edit :=
  recordEdit (setValue settingId value)

def updateIndividuals (lowercase : Lowercase) (entries : List IndividualSetting) : Edit :=
  recordEdit (setIndividuals lowercase entries)

def updateList (lowercase : Lowercase) (kind : String) (entries : List Chars) : Edit :=
  recordEdit (setList lowercase kind entries)

def updateAdvanced (lowercase : Lowercase) (advanced : AdvancedProfile) : Edit :=
  recordEdit (setAdvanced lowercase advanced)

/-- The value that the document has is the factory value of the setting. -/
def hasFactoryValue (d : ProfileDocument) (setting : SettingDefinition)
    (rendered : RenderedSettingValue) : Bool :=
  match rawValue d.nodes rendered.section rendered.key with
  | some value => value = rendered.value
  | none => setting.factory = setting.default

def resetSettings : List SettingDefinition → Edit
  | [], d => (.ok (), d)
  | setting :: rest, d =>
    match renderSettingValue setting.id (.ofRat setting.factory) with
    | .error error => (.error error, d)
    | .ok rendered =>
      if d.hasFactoryValue setting rendered then resetSettings rest d
      else resetSettings rest
        (d.setRawValue rendered.section rendered.key (some rendered.value) setting.id)

def resetSettingsToDefaults : Edit := recordEdit (resetSettings settings)

end ProfileDocument

end MacTypeControl.Editor
