import MacTypeControl.Text.Chars
import MacTypeControl.Text.Utf16
import MacTypeControl.Text.Utf8
import Mathlib.Data.List.SplitOn
import Mathlib.Tactic

/-!
# The encodings of a profile

A profile is UTF-8 or UTF-16 text, or text in one of five code pages. A line of a code page that is
not edited keeps its bytes.
-/

namespace MacTypeControl.Editor

open Text

abbrev Chars := List Char

inductive TextEncoding where
  | utf8
  | utf16Le
  | utf16Be
  | eucKr
  | gb18030
  | big5
  | shiftJis
  | windows1252
  deriving DecidableEq

inductive BomKind where
  | none
  | utf8
  | utf16Le
  | utf16Be
  deriving DecidableEq

inductive LineEnding where
  | crLf
  | lf
  | cr
  deriving DecidableEq

/-- A code page without states: each character has its own bytes, and the bytes of line breaks are
in no other character. -/
structure CodePage where
  /-- Decodes without replacing what is malformed. -/
  decode : Bytes → Option Chars
  encodeChar : Char → Option Bytes
  lineFeed : encodeChar '\n' = some [10]
  carriageReturn : encodeChar '\r' = some [13]
  unbroken : ∀ c bytes, encodeChar c = some bytes →
    bytes ≠ [] ∧ (c ≠ '\n' → 10 ∉ bytes) ∧ (c ≠ '\r' → 13 ∉ bytes)

/-- The bytes of text, unless a character has none. -/
def CodePage.encode (page : CodePage) (text : Chars) : Option Bytes :=
  (text.mapM page.encodeChar).map List.flatten

structure CodePages where
  eucKr : CodePage
  gb18030 : CodePage
  big5 : CodePage
  shiftJis : CodePage
  windows1252 : CodePage

def CodePages.legacyCodec (pages : CodePages) : TextEncoding → Option CodePage
  | .eucKr => some pages.eucKr
  | .gb18030 => some pages.gb18030
  | .big5 => some pages.big5
  | .shiftJis => some pages.shiftJis
  | .windows1252 => some pages.windows1252
  | .utf8 | .utf16Le | .utf16Be => none

/-! ## Lines -/

def splitLinesFrom (line : Chars) : Chars → List Chars
  | [] => if line.isEmpty then [] else [line]
  | c :: rest =>
    if c = '\n' ∨ (c = '\r' ∧ rest.head? ≠ some '\n') then
      (line ++ [c]) :: splitLinesFrom [] rest
    else splitLinesFrom (line ++ [c]) rest

def splitLines (text : Chars) : List Chars := splitLinesFrom [] text

def splitByteLinesFrom (line : Bytes) : Bytes → List Bytes
  | [] => if line.isEmpty then [] else [line]
  | byte :: rest =>
    if byte = 13 then
      match rest with
      | [] => [line ++ [13]]
      | next :: rest =>
        if next = 10 then (line ++ [13, 10]) :: splitByteLinesFrom [] rest
        else (line ++ [13]) :: splitByteLinesFrom [] (next :: rest)
    else if byte = 10 then (line ++ [10]) :: splitByteLinesFrom [] rest
    else splitByteLinesFrom (line ++ [byte]) rest

def splitByteLines (bytes : Bytes) : List Bytes := splitByteLinesFrom [] bytes

def containsCrLf : Chars → Bool
  | [] => false
  | c :: rest => (c == '\r' && rest.head? == some '\n') || containsCrLf rest

def detectLineEnding (text : Chars) : LineEnding :=
  if containsCrLf text then .crLf else if '\n' ∈ text then .lf else .cr

/-! ## How likely an encoding is -/

/-- `str::lines`. -/
def lines (text : Chars) : List Chars :=
  let parts := text.splitOn '\n'
  let parts := if parts.getLast? = some [] then parts.dropLast else parts
  parts.map fun line => if line.getLast? = some '\r' then line.dropLast else line

def simplifiedHan : Chars :=
  "简体汉语配置设置默认启用关闭字体进程缓存试验权重过滤阴影".toList

def traditionalHan : Chars :=
  "簡體漢語設定預設啟用關閉字型程序快取試驗權重過濾陰影".toList

def isBracketed (line : Chars) : Bool := line.head? == some '[' && line.getLast? == some ']'

def inRange (low high : ℕ) (c : Char) : Bool := low ≤ c.toNat && c.toNat ≤ high

def isHangul : Char → Bool := inRange 0xAC00 0xD7AF

def isKana : Char → Bool := inRange 0x3040 0x30FF

def isHan : Char → Bool := inRange 0x3400 0x9FFF

def isUnexpectedControl (c : Char) : Bool :=
  (c.toNat < 0x20 || inRange 0x7F 0x9F c) && c != '\r' && c != '\n' && c != '\t'

def legacyScore (text : Chars) (encoding : TextEncoding) : ℤ :=
  let count (p : Char → Bool) : ℤ := text.countP p
  let sections : ℤ := (lines text).countP fun line => isBracketed (trim line)
  let assignments : ℤ := (lines text).countP fun line => line.contains '='
  let hangul := count isHangul
  let kana := count isKana
  let han := count isHan
  let simplified := count simplifiedHan.contains
  let traditional := count traditionalHan.contains
  let some? (n : ℤ) : ℤ := if 0 < n then 1 else 0
  let structured := sections * 100 + assignments * 12 - count isUnexpectedControl * 200
  structured + match encoding with
    | .gb18030 => han * 3 + simplified * 18 - traditional * 3 - hangul * 12 - kana * 12 +
        some? han * 10 + 75
    | .big5 => han * 3 + traditional * 18 - simplified * 3 - hangul * 12 - kana * 12 +
        some? han * 10
    | .shiftJis => kana * 20 + han * 2 - hangul * 12 + some? kana * 10
    | .eucKr => hangul * 20 + han - kana * 12 + some? hangul * 10
    | .windows1252 => -count (0x80 ≤ ·.toNat) * 8 - (hangul + kana + han) * 8
    | .utf8 | .utf16Le | .utf16Be => 0

/-! ## Decoding -/

def loneSurrogate : String := "invalid utf-16: lone surrogate found"

def decodeUnits (units : Bytes → List UInt16) (body : Bytes) (odd : String) :
    Except String Chars :=
  if body.length % 2 ≠ 0 then .error odd
  else match decodeUtf16 (units body) with
    | some text => .ok text
    | none => .error loneSurrogate

/-- What a code page makes of the bytes, if it gives the same bytes back. -/
def legacyCandidate (page : CodePage) (encoding : TextEncoding) (bytes : Bytes) :
    Option (ℤ × Chars × TextEncoding) := do
  let text ← page.decode bytes
  if page.encode text = some bytes then some (legacyScore text encoding, text, encoding) else none

/-- The last of the candidates with the highest score. -/
def lastBest : List (ℤ × Chars × TextEncoding) → Option (ℤ × Chars × TextEncoding)
  | [] => none
  | candidate :: rest =>
    match lastBest rest with
    | none => some candidate
    | some best => if best.1 < candidate.1 then some candidate else some best

def CodePages.candidates (pages : CodePages) : List (TextEncoding × CodePage) :=
  [(.gb18030, pages.gb18030), (.big5, pages.big5), (.shiftJis, pages.shiftJis),
    (.eucKr, pages.eucKr), (.windows1252, pages.windows1252)]

def decode (pages : CodePages) (bytes : Bytes) :
    Except String (Chars × TextEncoding × BomKind) :=
  if [0xEF, 0xBB, 0xBF].isPrefixOf bytes then
    match fromUtf8 (bytes.drop 3) with
    | some text => .ok (text, .utf8, .utf8)
    | none => .error "invalid utf-8 sequence"
  else if [0xFF, 0xFE].isPrefixOf bytes then
    (decodeUnits unitsLe (bytes.drop 2) "UTF-16LE profile has an odd byte length").map
      fun text => (text, .utf16Le, .utf16Le)
  else if [0xFE, 0xFF].isPrefixOf bytes then
    (decodeUnits unitsBe (bytes.drop 2) "UTF-16BE profile has an odd byte length").map
      fun text => (text, .utf16Be, .utf16Be)
  else
    match fromUtf8 bytes with
    | some text => .ok (text, .utf8, .none)
    | none =>
      match lastBest (pages.candidates.filterMap fun (encoding, page) =>
          legacyCandidate page encoding bytes) with
      | some (_, text, encoding) => .ok (text, encoding, .none)
      | none => .error ("profile is not valid UTF-8, UTF-16, GB18030, Big5, Shift-JIS, EUC-KR, " ++
          "or Windows-1252")

/-! ## Encoding -/

def encodeUtf16Char (c : Char) : List UInt16 :=
  if c.toNat < 0x10000 then [UInt16.ofNat c.toNat]
  else [UInt16.ofNat (0xD800 + (c.toNat - 0x10000) / 0x400),
    UInt16.ofNat (0xDC00 + (c.toNat - 0x10000) % 0x400)]

def encodeUtf16 (text : Chars) : List UInt16 := text.flatMap encodeUtf16Char

def unitToLeBytes (unit : UInt16) : Bytes :=
  [UInt8.ofNat (unit.toNat % 256), UInt8.ofNat (unit.toNat / 256)]

def unitToBeBytes (unit : UInt16) : Bytes :=
  [UInt8.ofNat (unit.toNat / 256), UInt8.ofNat (unit.toNat % 256)]

def notRepresentable : String :=
  "profile contains text that cannot be represented in its original encoding"

def encode (pages : CodePages) (text : Chars) (encoding : TextEncoding) (bom : BomKind) :
    Except String Bytes :=
  match pages.legacyCodec encoding with
  | some page =>
    match page.encode text with
    | some bytes => .ok bytes
    | none => .error notRepresentable
  | none =>
    if encoding = .utf8 then
      .ok ((if bom = .utf8 then [0xEF, 0xBB, 0xBF] else []) ++ encodeUtf8 text)
    else
      let mark : Bytes := if bom = .utf16Le then [0xFF, 0xFE]
        else if bom = .utf16Be then [0xFE, 0xFF] else []
      .ok (mark ++ (encodeUtf16 text).flatMap
        (if encoding = .utf16Le then unitToLeBytes else unitToBeBytes))

abbrev OriginalLegacyLines := List (Chars × Bytes)

/-- The lines of a code page with their bytes, if the text and the bytes have as many. -/
def originalLegacyLines (pages : CodePages) (bytes : Bytes) (text : Chars)
    (encoding : TextEncoding) : Option OriginalLegacyLines :=
  match pages.legacyCodec encoding with
  | none => none
  | some _ =>
    if (splitLines text).length = (splitByteLines bytes).length then
      some ((splitLines text).zip (splitByteLines bytes))
    else none

/-- The first unused line with this text, which is then used. -/
def useLine (raw : Chars) :
    List ((Chars × Bytes) × Bool) → Option (Bytes × List ((Chars × Bytes) × Bool))
  | [] => none
  | (line, used) :: rest =>
    if used = false ∧ line.1 = raw then some (line.2, (line, true) :: rest)
    else (useLine raw rest).map fun found => (found.1, (line, used) :: found.2)

def encodeLines (page : CodePage) :
    List ((Chars × Bytes) × Bool) → List Chars → Except String Bytes
  | _, [] => .ok []
  | originals, raw :: rest =>
    match useLine raw originals with
    | some (bytes, originals) => (encodeLines page originals rest).map (bytes ++ ·)
    | none =>
      match page.encode raw with
      | some bytes => (encodeLines page originals rest).map (bytes ++ ·)
      | none => .error notRepresentable

def encodePreservingLegacyLines (page : CodePage) (raws : List Chars)
    (originals : OriginalLegacyLines) : Except String Bytes :=
  encodeLines page (originals.map fun line => (line, false)) raws

end MacTypeControl.Editor
