import MacTypeControl.Editor.Document
import Mathlib.Data.Rat.Floor
import Mathlib.Tactic

/-!
# The settings of a profile and their texts

A setting is a number of a schema. It is checked and rendered before a document is changed.
-/

namespace MacTypeControl.Editor

open Text

inductive SettingValueType where
  | integer
  | float
  deriving DecidableEq

structure SettingDefinition where
  id : String
  «section» : String
  key : String
  valueType : SettingValueType
  min : ℚ
  max : ℚ
  default : ℚ
  factory : ℚ

def settings : List SettingDefinition :=
  [⟨"hinting_mode", "General", "HintingMode", .integer, 0, 2, 0, 1⟩,
    ⟨"enable_kerning", "General", "EnableKerning", .integer, 0, 1, 0, 0⟩,
    ⟨"font_loader", "General", "FontLoader", .integer, 0, 1, 0, 0⟩,
    ⟨"font_link", "General", "FontLink", .integer, 0, 2, 0, 2⟩,
    ⟨"load_on_demand", "General", "LoadOnDemand", .integer, 0, 1, 0, 1⟩,
    ⟨"direct_write", "General", "DirectWrite", .integer, 0, 1, 0, 1⟩,
    ⟨"normal_weight", "General", "NormalWeight", .integer, (-64), 64, 0, 16⟩,
    ⟨"bold_weight", "General", "BoldWeight", .integer, (-32), 32, 0, 2⟩,
    ⟨"italic_slant", "General", "ItalicSlant", .integer, (-32), 32, 0, 0⟩,
    ⟨"bolder_mode", "General", "BolderMode", .integer, 0, 2, 0, 0⟩,
    ⟨"gamma_mode", "General", "GammaMode", .integer, (-1), 2, (-1), 0⟩,
    ⟨"gamma_value", "General", "GammaValue", .float, (1 / 16), 20, 1, (3 / 2)⟩,
    ⟨"contrast", "General", "Contrast", .float, (1 / 16), 10, 1, (17 / 10)⟩,
    ⟨"render_weight", "General", "RenderWeight", .float, (1 / 16), 10, 1, (7 / 5)⟩,
    ⟨"anti_alias_mode", "General", "AntiAliasMode", .integer, (-1), 6, 0, 4⟩,
    ⟨"lcd_filter", "General", "LcdFilter", .integer, 0, 16, 0, 2⟩,
    ⟨"text_tuning", "General", "TextTuning", .integer, (-12), 12, 0, 0⟩,
    ⟨"text_tuning_r", "General", "TextTuningR", .integer, (-12), 12, 0, 4⟩,
    ⟨"text_tuning_g", "General", "TextTuningG", .integer, (-12), 12, 0, 4⟩,
    ⟨"text_tuning_b", "General", "TextTuningB", .integer, (-12), 12, 0, 4⟩,
    ⟨"hint_small_font", "General", "HintSmallFont", .integer, 0, 1, 0, 0⟩,
    ⟨"max_bitmap", "General", "MaxBitmap", .integer, 0, 255, 0, 0⟩,
    ⟨"max_height", "General", "MaxHeight", .integer, 0, 4095, 0, 0⟩,
    ⟨"min_height", "General", "MinHeight", .integer, 0, 4095, 0, 0⟩,
    ⟨"hook_child_processes", "General", "HookChildProcesses", .integer, 0, 1, 0, 1⟩,
    ⟨"use_mapping", "General", "UseMapping", .integer, 0, 1, 0, 0⟩,
    ⟨"use_include", "General", "UseInclude", .integer, 0, 1, 0, 0⟩,
    ⟨"font_substitutes", "General", "FontSubstitutes", .integer, 0, 2, 0, 0⟩,
    ⟨"cache_max_faces", "General", "CacheMaxFaces", .integer, 64, 4096, 64, 256⟩,
    ⟨"cache_max_sizes", "General", "CacheMaxSizes", .integer, 1, 100000, 1200, 6140⟩,
    ⟨"cache_max_bytes", "General", "CacheMaxBytes", .integer, 1048576, 1073741824, 10485760, 20485760⟩,
    ⟨"dw_gamma_value", "DirectWrite", "GammaValue", .float, 0, 20, (7 / 10), (3 / 2)⟩,
    ⟨"dw_contrast", "DirectWrite", "Contrast", .float, (1 / 16), 10, 1, 1⟩,
    ⟨"dw_rendering_mode", "DirectWrite", "RenderingMode", .integer, 0, 6, 5, 6⟩,
    ⟨"dw_cleartype_level", "DirectWrite", "ClearTypeLevel", .float, 0, 1, 1, 1⟩,
    ⟨"experimental_clip_box_fix", "Experimental", "ClipBoxFix", .integer, 0, 1, 1, 1⟩,
    ⟨"experimental_color_font", "Experimental", "ColorFont", .integer, 0, 1, 0, 0⟩,
    ⟨"experimental_invert_color", "Experimental", "InvertColor", .integer, 0, 1, 0, 0⟩]

/-! ## Numbers -/

/-- A floating-point number. A zero keeps its sign. -/
inductive Float64 where
  | finite (negative : Bool) (magnitude : ℚ)
  | infinite (negative : Bool)
  | nan
  deriving DecidableEq

def Float64.ofRat (q : ℚ) : Float64 := .finite (decide (q < 0)) |q|

/-- The nearest number, and the even one of two that are as near. -/
def roundHalfEven (q : ℚ) : ℕ :=
  let low := ⌊q⌋₊
  let rest := q - low
  if rest < 1 / 2 then low
  else if 1 / 2 < rest then low + 1
  else if low % 2 = 0 then low else low + 1

def digits (n : ℕ) : Chars := Nat.toDigits 10 n

def signed (negative : Bool) (text : Chars) : Chars := if negative then '-' :: text else text

def printInt (n : ℤ) : Chars := signed (decide (n < 0)) (digits n.natAbs)

/-- Six places after the point. -/
def sixPlaces (n : ℕ) : Chars :=
  let places := digits (n % 10 ^ 6)
  List.replicate (6 - places.length) '0' ++ places

def renderFloat (negative : Bool) (magnitude : ℚ) : Chars :=
  let scaled := roundHalfEven (magnitude * 10 ^ 6)
  let kept := (sixPlaces scaled).rdropWhile (· == '0')
  signed negative (digits (scaled / 10 ^ 6) ++ '.' :: (if kept.isEmpty then ['0'] else kept))

structure RenderedSettingValue where
  «section» : Chars
  key : Chars
  value : Chars

def schema (settingId : String) : Except String SettingDefinition :=
  match settings.find? fun item => item.id = settingId with
  | some item => .ok item
  | none => .error ("unknown setting id: " ++ settingId)

/-- A bound as it is shown, with no more than six places. -/
def showBound (bound : ℚ) : String :=
  let scaled := ⌊|bound| * 10 ^ 6⌋₊
  let kept := (sixPlaces scaled).rdropWhile (· == '0')
  String.ofList (signed (decide (bound < 0))
    (digits (scaled / 10 ^ 6) ++ if kept.isEmpty then [] else '.' :: kept))

def outOfRange (settingId : String) (setting : SettingDefinition) : String :=
  settingId ++ " must be between " ++ showBound setting.min ++ " and " ++ showBound setting.max

def renderSettingValue (settingId : String) (value : Float64) :
    Except String RenderedSettingValue := do
  let setting ← schema settingId
  match value with
  | .finite negative magnitude =>
    let number := if negative then -magnitude else magnitude
    if number < setting.min ∨ setting.max < number then .error (outOfRange settingId setting)
    else
      match setting.valueType with
      | .integer =>
        if number.den ≠ 1 then .error (settingId ++ " requires an integer")
        else .ok ⟨setting.section.toList, setting.key.toList, printInt number.num⟩
      | .float =>
        .ok ⟨setting.section.toList, setting.key.toList, renderFloat negative magnitude⟩
  | _ => .error (outOfRange settingId setting)

/-! ## Lists and fonts -/

/-- `str::to_lowercase`, with the tables of the standard library as a parameter. -/
abbrev Lowercase := Chars → Chars

def validateEntry (value : Chars) (label : String) : Except String Unit :=
  if trim value = [] ∨ value.any isLineBreak ∨ value.head? ∈ [some '[', some ';', some '#'] then
    .error (label ++ " is empty or contains an unsupported character")
  else .ok ()

/-- The entries without white space around them, each kept where it comes first. -/
def normalizeFrom (lowercase : Lowercase) (seen : List Chars) :
    List Chars → Except String (List Chars)
  | [] => .ok []
  | entry :: rest => do
    let entry := trim entry
    validateEntry entry "list entry"
    if lowercase entry ∈ seen then normalizeFrom lowercase seen rest
    else do
      let others ← normalizeFrom lowercase (lowercase entry :: seen) rest
      .ok (entry :: others)

def normalizeListEntries (lowercase : Lowercase) (entries : List Chars) :
    Except String (List Chars) :=
  normalizeFrom lowercase [] entries

def individualBounds : List (ℤ × ℤ) := [(0, 2), (-1, 6), (-64, 64), (-32, 32), (-32, 32), (0, 1)]

def validateValues (fontFace : Chars) : (index : ℕ) → List (ℤ × ℤ) → List (Option ℤ) →
    Except String Unit
  | index, (low, high) :: bounds, some value :: rest =>
    if value < low ∨ high < value then
      .error (String.ofList fontFace ++ " value " ++ toString (index + 1) ++ " must be between " ++
        toString low ++ " and " ++ toString high)
    else validateValues fontFace (index + 1) bounds rest
  | index, _ :: bounds, none :: rest => validateValues fontFace (index + 1) bounds rest
  | _, _, _ => .ok ()

def validateIndividual (lowercase : Lowercase) (seen : List Chars) (entry : IndividualSetting) :
    Except String Unit := do
  validateEntry entry.fontFace "font face"
  if '=' ∈ entry.fontFace then .error "font face cannot contain '='"
  else if lowercase entry.fontFace ∈ seen then
    .error ("duplicate font face: " ++ String.ofList entry.fontFace)
  else if entry.values.length ≠ 6 then
    .error "individual font settings require exactly six values"
  else validateValues entry.fontFace 0 individualBounds entry.values

def validateIndividualsFrom (lowercase : Lowercase) (seen : List Chars) :
    List IndividualSetting → Except String Unit
  | [] => .ok ()
  | entry :: rest => do
    validateIndividual lowercase seen entry
    validateIndividualsFrom lowercase (lowercase entry.fontFace :: seen) rest

def validateIndividuals (lowercase : Lowercase) (entries : List IndividualSetting) :
    Except String Unit :=
  validateIndividualsFrom lowercase [] entries

/-! ## The structured settings -/

structure ShadowSetting where
  offsetX : ℤ
  offsetY : ℤ
  darkAlpha : ℤ
  darkColor : ℕ
  lightAlpha : ℤ
  lightColor : ℕ

structure AdvancedProfile where
  shadow : Option ShadowSetting
  lcdFilterWeight : Option (List ℤ)
  pixelLayout : Option (List ℤ)
  fontSubstitutes : List Chars

structure RenderedAdvancedProfile where
  shadow : Option Chars
  lcdFilterWeight : Option Chars
  pixelLayout : Option Chars
  fontSubstitutes : List Chars

def commaSeparated (parts : List Chars) : Chars := (parts.intersperse [',']).flatten

def upperHexDigit (n : ℕ) : Char := Char.ofNat (if n < 10 then 48 + n else 55 + n)

/-- Six hexadecimal digits. -/
def sixHexDigits (n : ℕ) : Chars :=
  [20, 16, 12, 8, 4, 0].map fun shift => upperHexDigit (n / 2 ^ shift % 16)

def renderShadow (value : ShadowSetting) : Except String Chars :=
  if value.darkAlpha < 0 ∨ 255 < value.darkAlpha ∨ value.lightAlpha < 0 ∨ 255 < value.lightAlpha ∨
      0xFFFFFF < value.darkColor ∨ 0xFFFFFF < value.lightColor then
    .error "shadow alpha or color is outside its supported range"
  else .ok (commaSeparated [printInt value.offsetX, printInt value.offsetY,
    printInt value.darkAlpha, sixHexDigits value.darkColor, printInt value.lightAlpha,
    sixHexDigits value.lightColor])

def renderVector (values : List ℤ) (length : ℕ) (minimum maximum : ℤ) (name : String) :
    Except String Chars :=
  if values.length ≠ length ∨ values.any fun value => value < minimum ∨ maximum < value then
    .error (name ++ " requires " ++ toString length ++ " values between " ++ toString minimum ++
      " and " ++ toString maximum)
  else .ok (commaSeparated (values.map printInt))

def validateFontSubstitutions : List Chars → Except String Unit
  | [] => .ok ()
  | mapping :: rest =>
    if '=' ∉ mapping then .error "font substitutions must use Source font=Replacement font"
    else if trim (mapping.takeWhile (· ≠ '=')) = [] ∨
        trim (mapping.dropWhile (· ≠ '=')).tail = [] then
      .error "font substitutions require both source and replacement fonts"
    else validateFontSubstitutions rest

/-- Renders what is there. -/
def renderOption {α : Type} (render : α → Except String Chars) :
    Option α → Except String (Option Chars)
  | none => .ok none
  | some value => (render value).map some

def renderAdvancedProfile (lowercase : Lowercase) (profile : AdvancedProfile) :
    Except String RenderedAdvancedProfile := do
  let shadow ← renderOption renderShadow profile.shadow
  let lcdFilterWeight ← renderOption
    (fun values => renderVector values 5 0 255 "LCD filter weight") profile.lcdFilterWeight
  let pixelLayout ← renderOption
    (fun values => renderVector values 6 (-128) 127 "pixel layout") profile.pixelLayout
  let fontSubstitutes ← normalizeListEntries lowercase profile.fontSubstitutes
  validateFontSubstitutions fontSubstitutes
  .ok ⟨shadow, lcdFilterWeight, pixelLayout, fontSubstitutes⟩

/-- Every factory value of the schema is rendered. -/
theorem factory_rendered : ∀ setting ∈ settings,
    (renderSettingValue setting.id (.ofRat setting.factory)).isOk = true := by
  decide +kernel

end MacTypeControl.Editor
