import MacTypeControl.Editor.Lines
import MacTypeControl.Profile.Validation

/-!
# A profile as a document

The document keeps every line of a profile as a node, with the text of the line.
-/

namespace MacTypeControl.Editor

open Text

/-- A line. An entry or an unknown line keeps the section that it stands in. -/
inductive IniNode where
  | blank (raw : Chars)
  | comment (raw : Chars)
  | «section» (name raw : Chars)
  | keyValue («section» key value lead separator suffix raw : Chars)
  | unknown («section» raw : Chars)
  deriving DecidableEq

def IniNode.raw : IniNode → Chars
  | .blank raw | .comment raw | .section _ raw | .keyValue _ _ _ _ _ _ raw | .unknown _ raw => raw

/-- The node of one line in a section, and the section after it. -/
def parseLine (current line : Chars) : IniNode × Chars :=
  let body := line.rdropWhile isLineBreak
  let trimmed := trim body
  if trimmed = [] then (.blank line, current)
  else if trimmed.head? = some ';' ∨ trimmed.head? = some '#' then (.comment line, current)
  else if isBracketed trimmed then
    let name := trim trimmed.tail.dropLast
    (.section name line, name)
  else if !body.contains '=' then (.unknown current line, current)
  else
    let lead := body.takeWhile (· ≠ '=')
    let key := trim lead
    if key = [] then (.unknown current line, current)
    else
      let afterSeparator := (body.dropWhile (· ≠ '=')).tail
      let leading := afterSeparator.takeWhile isWhitespace
      let valueWithSuffix := trimStart afterSeparator
      let value := trimEnd valueWithSuffix
      let suffix := valueWithSuffix.drop value.length ++ line.drop body.length
      (.keyValue current key value lead ('=' :: leading) suffix line, current)

def parseLines (current : Chars) : List Chars → List IniNode
  | [] => []
  | line :: rest => (parseLine current line).1 :: parseLines (parseLine current line).2 rest

def parseNodes (text : Chars) : List IniNode := parseLines [] (splitLines text)

structure ProfileRevision where
  nodes : List IniNode
  dirtyKeys : Finset String
  deriving DecidableEq

/-- An open profile. The hash is that of the bytes last read or saved. -/
structure ProfileDocument where
  encoding : TextEncoding
  bom : BomKind
  lineEnding : LineEnding
  nodes : List IniNode
  originalHash : Bytes
  originalLegacyLines : Option OriginalLegacyLines
  dirtyKeys : Finset String
  undoHistory : List ProfileRevision
  redoHistory : List ProfileRevision

def exceedsLimit (name : String) : String :=
  name ++ " exceeds its " ++ toString Profile.maxProfileBytes ++ "-byte limit"

namespace ProfileDocument

def fromBytes (pages : CodePages) (hash : Bytes → Bytes) (bytes : Bytes) :
    Except String ProfileDocument := do
  let (text, encoding, bom) ← decode pages bytes
  .ok {
    encoding
    bom
    lineEnding := detectLineEnding text
    nodes := parseNodes text
    originalHash := hash bytes
    originalLegacyLines := Editor.originalLegacyLines pages bytes text encoding
    dirtyKeys := ∅
    undoHistory := []
    redoHistory := [] }

/-- Opens the content of a file, which is not read beyond the limit. -/
def openBytes (pages : CodePages) (hash : Bytes → Bytes) (bytes : Bytes) :
    Except String ProfileDocument :=
  if Profile.maxProfileBytes < bytes.length then .error (exceedsLimit "profile")
  else fromBytes pages hash bytes

def isDirty (d : ProfileDocument) : Bool := d.dirtyKeys ≠ ∅

def ending (d : ProfileDocument) : Chars :=
  match d.lineEnding with
  | .crLf => ['\r', '\n']
  | .lf => ['\n']
  | .cr => ['\r']

def encoded (pages : CodePages) (d : ProfileDocument) : Except String Bytes := do
  let raws := d.nodes.map IniNode.raw
  let bytes ← match d.originalLegacyLines, pages.legacyCodec d.encoding with
    | some originals, some page => encodePreservingLegacyLines page raws originals
    | _, _ => encode pages raws.flatten d.encoding d.bom
  if Profile.maxProfileBytes < bytes.length then .error (exceedsLimit "profile") else .ok bytes

end ProfileDocument

/-! ## Readings -/

/-- The sections in which a key is looked for. -/
def readSections (sectionName : Chars) : List Chars :=
  if eqIgnoreAsciiCase sectionName "General".toList then ["FreeType".toList, "General".toList]
  else [sectionName]

/-- The entry is one of the section, in any case. -/
def IniNode.isEntry (target keyName : Chars) : IniNode → Bool
  | .keyValue sec key _ _ _ _ _ => eqIgnoreAsciiCase sec target && eqIgnoreAsciiCase key keyName
  | _ => false

def IniNode.value? : IniNode → Option Chars
  | .keyValue _ _ value _ _ _ _ => some value
  | _ => none

/-- The value of the last entry for the key in the section. -/
def lastValue (nodes : List IniNode) (target keyName : Chars) : Option Chars :=
  (nodes.reverse.find? (IniNode.isEntry target keyName)).bind IniNode.value?

def rawValue (nodes : List IniNode) (sectionName keyName : Chars) : Option Chars :=
  (readSections sectionName).findSome? fun target => lastValue nodes target keyName

structure IndividualSetting where
  fontFace : Chars
  values : List (Option ℤ)
  deriving DecidableEq

/-- `str::parse::<i32>` on a text without white space. -/
def parseI32 (text : Chars) : Option ℤ :=
  let digits (text : Chars) : Option ℕ :=
    if text ≠ [] ∧ text.all Char.isDigit then some (Nat.ofDigitChars 10 text 0) else none
  let value : Option ℤ := match text with
    | '-' :: rest => (digits rest).map fun n : ℕ => -(n : ℤ)
    | '+' :: rest => (digits rest).map Nat.cast
    | text => (digits text).map Nat.cast
  value.filter fun n => -(2 ^ 31) ≤ n ∧ n < 2 ^ 31

/-- The first six values, which are empty or numbers. A missing one is as an empty one. -/
def parseIndividualValues (value : Chars) : List (Option ℤ) :=
  let parts := ((value.splitOn ',').take 6).map fun part => parseI32 (trim part)
  (parts ++ List.replicate 6 none).take 6

def IniNode.individual? : IniNode → Option IndividualSetting
  | .keyValue sec key value _ _ _ _ =>
    if eqIgnoreAsciiCase sec "Individual".toList then some ⟨key, parseIndividualValues value⟩
    else none
  | _ => none

def individuals (nodes : List IniNode) : List IndividualSetting :=
  nodes.filterMap IniNode.individual?

def IniNode.listEntry? (target : Chars) : IniNode → Option Chars
  | .unknown sec raw =>
    if eqIgnoreAsciiCase sec target ∧ trim raw ≠ [] then some (trim raw) else none
  | .keyValue sec key value _ _ _ _ =>
    if eqIgnoreAsciiCase sec target then some (key ++ '=' :: value) else none
  | _ => none

def listEntries (nodes : List IniNode) (target : Chars) : List Chars :=
  nodes.filterMap (IniNode.listEntry? target)

end MacTypeControl.Editor
