import MacTypeControl.Engine.Tokenizer
import Mathlib.Data.List.GetD
import Mathlib.Logic.Function.Basic

/-!
# The settings of the renderer

The renderer reads the numbers of a setting with its own functions, and keeps the settings of a font
within their bounds. A font without a value of its own has the common one.
-/

namespace MacTypeControl.Engine

/-! ## Numbers -/

/-- A signed number of 32 bits. -/
def wrapInt (n : ℤ) : ℤ := n.bmod (2 ^ 32)

def isDigit (c : Char) : Bool := '0' ≤ c && c ≤ '9'

def digitValue (c : Char) : ℤ := c.toNat - 48

/-- The sign in front of a number, and what is behind it. -/
def splitSign : Chars → Bool × Chars
  | '-' :: rest => (true, rest)
  | '+' :: rest => (false, rest)
  | text => (false, text)

/-- `_StrToInt`. -/
def strToInt (text : Chars) (default : ℤ) : ℤ :=
  let (negative, text) := splitSign (text.dropWhile isSpace)
  let digits := text.takeWhile isDigit
  if digits = [] then default
  else
    let value := digits.foldl (fun value c => wrapInt (10 * value + digitValue c)) 0
    if negative then wrapInt (-value) else value

def upper (c : Char) : Char := if 'a' ≤ c ∧ c ≤ 'z' then Char.ofNat (c.toNat - 32) else c

def hexDigit (c : Char) : Option ℕ :=
  if '0' ≤ c ∧ c ≤ '9' then some (c.toNat - 48)
  else if 'A' ≤ c ∧ c ≤ 'F' then some (c.toNat - 55)
  else none

def skipHexMark : Chars → Chars
  | '0' :: 'X' :: rest => rest
  | text => text

/-- The loop of `_httoi`. The value is an `int`, of which the bits are given. -/
def readHex (value : ℕ) : Chars → ℕ
  | [] => value
  | c :: rest =>
    match hexDigit c with
    | none => value
    | some digit => readHex ((value <<< 4) % 2 ^ 32 ||| digit) rest

/-- `_httoi`. -/
def httoi (text : Chars) : ℕ := readHex 0 (skipHexMark (text.map upper))

/-! ## Fonts -/

def Bound (n low high : ℤ) : ℤ := if n < low then low else if high < n then high else n

/-- `m_bound`. The parameters without bounds of their own are always zero. -/
def bounds : List (ℤ × ℤ) := [(0, 2), (-1, 6), (-64, 64), (-32, 32), (-32, 32), (0, 1)]

def bound (x : ℕ) : ℤ × ℤ := bounds.getD x (0, 0)

theorem bound_le (x : ℕ) : (bound x).1 ≤ (bound x).2 := by
  unfold bound
  rcases Nat.lt_or_ge x 6 with h | h
  · have hall : ∀ y < 6, (bounds.getD y (0, 0)).1 ≤ (bounds.getD y (0, 0)).2 := by decide
    exact hall x h
  · exact Int.le_of_eq (by rw [List.getD_eq_default _ _ h])

theorem Bound_of_mem {n low high : ℤ} (hlow : low ≤ n) (hhigh : n ≤ high) : Bound n low high = n := by
  rw [Bound, if_neg (by omega), if_neg (by omega)]

theorem low_le_Bound {n low high : ℤ} (h : low ≤ high) : low ≤ Bound n low high := by
  unfold Bound
  split_ifs <;> omega

theorem Bound_le_high {n low high : ℤ} (h : low ≤ high) : Bound n low high ≤ high := by
  unfold Bound
  split_ifs <;> omega

def maxFontSettings : ℕ := 16

/-- `CFontSettings`: the parameters of a font, each within its bounds. -/
structure FontSettings where
  param : ℕ → ℤ
  bounded : ∀ x, (bound x).1 ≤ param x ∧ param x ≤ (bound x).2

namespace FontSettings

/-- `Clear`. -/
def clear : FontSettings where
  param := fun _ => 0
  bounded := fun x => by
    rcases Nat.lt_or_ge x 6 with h | h
    · have hall : ∀ y < 6, (bounds.getD y (0, 0)).1 ≤ 0 ∧ 0 ≤ (bounds.getD y (0, 0)).2 := by decide
      exact hall x h
    · rw [bound, List.getD_eq_default _ _ h]
      exact ⟨Int.le_refl 0, Int.le_refl 0⟩

def setParam (fs : FontSettings) (x : ℕ) (n : ℤ) : FontSettings where
  param := Function.update fs.param x (Bound n (bound x).1 (bound x).2)
  bounded := fun y => by
    by_cases h : y = x
    · subst h
      rw [Function.update_self]
      exact ⟨low_le_Bound (bound_le y), Bound_le_high (bound_le y)⟩
    · rw [Function.update_of_ne h]
      exact fs.bounded y

/-- Reads the arguments from some place on into the parameters. -/
def applyFrom (common : FontSettings) : ℕ → List Chars → FontSettings → FontSettings
  | _, [], fs => fs
  | x, argument :: rest, fs =>
    if x < maxFontSettings then
      applyFrom common (x + 1) rest (fs.setParam x (strToInt argument (common.param x)))
    else fs

end FontSettings

/-- `CFontIndividual`. -/
structure FontIndividual where
  name : Chars
  settings : FontSettings

/-- What the fonts of the system decide: the local name of a font, and the lower case of a letter. -/
structure FontNames where
  localName : Chars → Chars
  lower : Char → ℕ

def faceSize : ℕ := 32

namespace FontNames

variable (names : FontNames)

/-- `StringHashFont` keeps so much of a name. -/
def buffer (name : Chars) : Chars := name.take (faceSize - 1)

/-- `UpdateHash`. -/
def hash (name : Chars) : ℕ :=
  (buffer name).foldl (fun hash c => (hash <<< 3) % 2 ^ 32 ^^^ names.lower c) 0

/-- The equality of two names: their hashes, and then the names without regard to case. -/
def sameFont (a b : Chars) : Bool :=
  names.hash a = names.hash b && (buffer a).map names.lower = (buffer b).map names.lower

end FontNames

/-- One line of the section, `name=value`. There is no result where the tokenizer has none. -/
def readIndividual (names : FontNames) (common : FontSettings) (line : Chars) : Option FontIndividual :=
  let name := names.localName (line.takeWhile (· ≠ '='))
  let arguments := match line.dropWhile (· ≠ '=') with
    | [] => some []
    | _ :: value => parse value
  arguments.map fun arguments =>
    ⟨FontNames.buffer name, FontSettings.applyFrom common 0 arguments common⟩

/-- `AddIndividualFromSection`: a font that is there already is not added again. -/
def addIndividuals (names : FontNames) (common : FontSettings) :
    List Chars → List FontIndividual → Option (List FontIndividual)
  | [], array => some array
  | line :: rest, array =>
    match readIndividual names common line with
    | none => none
    | some individual =>
      addIndividuals names common rest
        (if array.any fun other => names.sameFont other.name individual.name then array
          else array ++ [individual])

/-- The name by which a font is looked up. A vertical font has the settings of the horizontal one. -/
def horizontalName (faceName : Chars) : Chars :=
  if faceName.head? = some '@' then faceName.tail else faceName

/-- `FindIndividual`. -/
def findIndividual (names : FontNames) (common : FontSettings) (harmonyLcd : Bool)
    (array : List FontIndividual) (faceName : Chars) : FontSettings :=
  match array.find? fun individual => names.sameFont individual.name (horizontalName faceName) with
  | none => common
  | some individual =>
    if 2 < individual.settings.param 1 ∧ harmonyLcd then individual.settings.setParam 1 2
    else individual.settings

/-! ## Shadows and vectors -/

/-- The shadow of the text: its offsets and depths, and its two colours. -/
structure Shadow where
  offsetX : ℤ
  offsetY : ℤ
  darkDepth : ℤ
  lightDepth : ℤ
  darkColor : ℕ
  lightColor : ℕ
  deriving DecidableEq

/-- The shadow of `LoadAppSettings`. There is none with fewer than three arguments. -/
def readShadow (arguments : List Chars) : Option Shadow :=
  match arguments with
  | x :: y :: depth :: rest =>
    let darkDepth := strToInt depth 0
    let darkColor := match rest with
      | color :: _ => httoi color
      | [] => 0
    let (lightDepth, lightColor) := match rest with
      | _ :: depth :: color :: _ => (strToInt depth darkDepth, httoi color)
      | _ => (darkDepth, darkColor)
    some ⟨strToInt x 0, strToInt y 0, darkDepth, lightDepth, darkColor, lightColor⟩
  | _ => none

/-- An `unsigned char`. -/
def wrapByte (n : ℤ) : ℤ := n % 2 ^ 8

/-- A `char`. -/
def wrapChar (n : ℤ) : ℤ := n.bmod (2 ^ 8)

/-- Reads as many arguments as the array has elements, and keeps the element where an argument is
empty. With fewer arguments the array is not used. -/
def readVector (wrap : ℤ → ℤ) : List Chars → List ℤ → Option (List ℤ)
  | _, [] => some []
  | [], _ :: _ => none
  | argument :: arguments, element :: elements =>
    (readVector wrap arguments elements).map (wrap (strToInt argument element) :: ·)

end MacTypeControl.Engine
