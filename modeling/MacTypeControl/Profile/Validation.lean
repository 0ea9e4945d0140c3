import MacTypeControl.Text.Utf16

/-!
# Which bytes are a machine profile
-/

namespace MacTypeControl.Profile

inductive ProfileError where
  | invalidSize
  | invalidIni
  | invalidGenerationId
  | unknownGeneration
  | noPreviousGeneration
  deriving DecidableEq

def ProfileError.debug : ProfileError → String
  | .invalidSize => "InvalidSize"
  | .invalidIni => "InvalidIni"
  | .invalidGenerationId => "InvalidGenerationId"
  | .unknownGeneration => "UnknownGeneration"
  | .noPreviousGeneration => "NoPreviousGeneration"

def maxProfileBytes : ℕ := 4 * 1024 * 1024

def isAsciiWhitespace (byte : UInt8) : Bool :=
  byte == 0x20 || byte == 0x09 || byte == 0x0A || byte == 0x0C || byte == 0x0D

def trimAscii (bytes : Bytes) : Bytes :=
  ((bytes.dropWhile isAsciiWhitespace).reverse.dropWhile isAsciiWhitespace).reverse

def asciiLower (byte : UInt8) : UInt8 := if 65 ≤ byte && byte ≤ 90 then byte + 32 else byte

/-- The sections whose lines need no assignment. -/
def listSections : List String :=
  ["Exclude", "Include", "ExcludeModule", "IncludeModule", "UnloadDLL", "ExcludeSub"]

def isMactypeListSection (line : Bytes) : Bool :=
  let name := (line.drop 1).dropLast
  listSections.any fun candidate =>
    name.map asciiLower == (Text.utf8 candidate.toList).map asciiLower

/-- What has been seen of the lines of a profile so far. -/
structure IniStructure where
  sawSection : Bool
  sawAssignment : Bool
  acceptsBareEntries : Bool

def validateIniLine (seen : IniStructure) (rawLine : Bytes) : Except ProfileError IniStructure :=
  let line := trimAscii rawLine
  if line == [] || line.head? == some 0x3B || line.head? == some 0x23 then .ok seen
  else if 3 ≤ line.length && line.head? == some 0x5B && line.getLast? == some 0x5D then
    .ok { seen with sawSection := true, acceptsBareEntries := isMactypeListSection line }
  else if !line.contains 0x3D then
    if seen.sawSection && seen.acceptsBareEntries then .ok seen else .error .invalidIni
  else if !seen.sawSection || trimAscii (line.takeWhile (· != 0x3D)) == [] then
    .error .invalidIni
  else .ok { seen with sawAssignment := true }

def validateIniStructure (bytes : Bytes) : Except ProfileError Unit := do
  let seen ← (bytes.splitOn 0x0A).foldlM validateIniLine ⟨false, false, false⟩
  if seen.sawSection && seen.sawAssignment then .ok () else .error .invalidIni

def validateUtf16 (units : Bytes → List UInt16) (body : Bytes) : Except ProfileError Unit :=
  if body.length % 2 != 0 then .error .invalidIni
  else match Text.decodeUtf16 (units body) with
    | none => .error .invalidIni
    | some decoded => validateIniStructure (Text.utf8 decoded)

def validateProfile (bytes : Bytes) : Except ProfileError Unit :=
  if bytes == [] || maxProfileBytes < bytes.length then .error .invalidSize
  else if [0xFF, 0xFE].isPrefixOf bytes then validateUtf16 Text.unitsLe (bytes.drop 2)
  else if [0xFE, 0xFF].isPrefixOf bytes then validateUtf16 Text.unitsBe (bytes.drop 2)
  else
    let body := if [0xEF, 0xBB, 0xBF].isPrefixOf bytes then bytes.drop 3 else bytes
    if body.contains 0 then .error .invalidIni else validateIniStructure body

end MacTypeControl.Profile
