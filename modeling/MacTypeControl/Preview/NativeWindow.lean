import MacTypeControl.Editor.Codec
import MacTypeControl.Preview.JsonDocument
import MacTypeControl.Preview.Requests
import Mathlib.Data.Fintype.Pi

/-!
# The native window of the preview helper

A request is read into a pending state first, the fields of the window are only assigned at the end.
-/

namespace MacTypeControl.Preview

open Text

/-! ## Texts, colours and numbers -/

/-- Text that is not valid UTF-8 is converted to nothing. -/
def utf8ToWide (value : List UInt8) : List UInt16 :=
  match fromUtf8 value with
  | some text => Editor.encodeUtf16 text
  | none => []

structure Color where
  red : UInt8
  green : UInt8
  blue : UInt8
  deriving DecidableEq

def Color.ofWord (color : UInt32) : Color :=
  ⟨(color >>> 16).toUInt8, (color >>> 8).toUInt8, color.toUInt8⟩

def hexDigitValue (b : UInt8) : Option ℕ :=
  if 0x30 ≤ b && b ≤ 0x39 then some (b.toNat - 0x30)
  else if 0x41 ≤ b && b ≤ 0x46 then some (b.toNat - 0x41 + 10)
  else if 0x61 ≤ b && b ≤ 0x66 then some (b.toNat - 0x61 + 10)
  else none

def takeSign : List UInt8 → Bool × List UInt8
  | [] => (false, [])
  | b :: rest =>
    if b = Json.Grammar.minus then (true, rest)
    else if b = Json.Grammar.plus then (false, rest)
    else (false, b :: rest)

def dropBasePrefix : List UInt8 → List UInt8
  | zero :: mark :: rest =>
    if zero = 0x30 ∧ (mark = 0x78 ∨ mark = 0x58) then rest else zero :: mark :: rest
  | text => text

/-- `input >> std::hex >> color` where the stream must end with the number. It passes over white
space, a sign and the mark of the base, and a negative number wraps around. -/
def extractHex (text : List UInt8) : Option UInt32 :=
  let (negative, unsigned) := takeSign (text.dropWhile isspace)
  match dropBasePrefix unsigned with
  | [] => none
  | digits =>
    (digits.mapM hexDigitValue).map fun values =>
      let color := UInt32.ofNat (values.foldl (fun color value => 16 * color + value) 0)
      if negative then -color else color

def parseColor (value : List UInt8) : Option Color :=
  match value with
  | mark :: text =>
    if value.length ≠ 7 ∨ mark ≠ 0x23 then none else (extractHex text).map Color.ofWord
  | [] => none

def parseColorOr (value : List UInt8) (fallback : Color) : Color :=
  (parseColor value).getD fallback

def truncate (value : ℚ) : ℤ := value.num.tdiv value.den

/-- The numbers of C++: the value of the `double` that a text is converted to, the `float` that it
is rounded to, and the `int` that it is cut to. The last is only known where the `int` exists. -/
structure Numbers where
  double : List UInt8 → ℚ
  float : ℚ → ℚ
  int : ℚ → ℤ
  int_eq : ∀ value : ℚ, -2 ^ 31 - 1 < value → value < 2 ^ 31 → int value = truncate value

/-! ## The state -/

inductive DisplayMode where
  | sample
  | ladder
  | compare
  | listing
  deriving DecidableEq

inductive Skin where
  | classic
  deriving DecidableEq

structure SampleState where
  text : List UInt16
  fontFace : List UInt16
  fontSizePt : ℚ
  bold : Bool
  italic : Bool
  deriving DecidableEq

inductive PaletteMember where
  | canvas
  | surface
  | hover
  | border
  | text
  | muted
  | accent
  | onAccent
  deriving DecidableEq

inductive MetricMember where
  | radius
  | controlHeight
  | toolbarHeight
  | statusHeight
  | canvasRadius
  | canvasInset
  deriving DecidableEq

def colorBindings : List (PaletteMember × String) :=
  [(.canvas, "canvas"), (.surface, "surface"), (.hover, "surfaceSubtle"), (.border, "border"),
    (.text, "text"), (.muted, "muted"), (.accent, "accent"), (.onAccent, "onAccent")]

structure MetricBinding where
  key : String
  member : MetricMember
  minimum : ℤ
  maximum : ℤ

def metricBindings : List MetricBinding :=
  [⟨"radius", .radius, 0, 32⟩, ⟨"controlHeight", .controlHeight, 20, 64⟩,
    ⟨"toolbarHeight", .toolbarHeight, 28, 96⟩, ⟨"statusHeight", .statusHeight, 18, 64⟩,
    ⟨"canvasRadius", .canvasRadius, 0, 32⟩, ⟨"canvasInset", .canvasInset, 0, 64⟩]

instance : Fintype PaletteMember where
  elems := (colorBindings.map Prod.fst).toFinset
  complete member := by cases member <;> decide

instance : Fintype MetricMember where
  elems := (metricBindings.map MetricBinding.member).toFinset
  complete member := by cases member <;> decide

structure NativeChrome where
  skin : Skin
  palette : PaletteMember → Color
  metrics : MetricMember → ℤ
  monoStatus : Bool
  deriving DecidableEq

inductive NativeLabelId where
  | title
  | fontFace
  | fontSize
  | bold
  | italic
  | modeSample
  | modeLadder
  | modeCompare
  | modeListing
  | invert
  | loupe
  | zoom
  | topmost
  | editText
  | savePng
  | copy
  | compareMacType
  | compareWindows
  | compareUnavailable
  | engineMacType
  | coreVersion
  | pngFilter
  | saved
  | copied
  deriving DecidableEq

def kNativeLabelBindings : List (NativeLabelId × String) :=
  [(.title, "title"), (.fontFace, "fontFace"), (.fontSize, "fontSize"), (.bold, "bold"),
    (.italic, "italic"), (.modeSample, "modeSample"), (.modeLadder, "modeLadder"),
    (.modeCompare, "modeCompare"), (.modeListing, "modeListing"), (.invert, "invert"),
    (.loupe, "loupe"), (.zoom, "zoom"), (.topmost, "topmost"), (.editText, "editText"),
    (.savePng, "savePng"), (.copy, "copy"), (.compareMacType, "compareMacType"),
    (.compareWindows, "compareWindows"), (.compareUnavailable, "compareUnavailable"),
    (.engineMacType, "engineMacType"), (.coreVersion, "coreVersion"), (.pngFilter, "pngFilter"),
    (.saved, "saved"), (.copied, "copied")]

instance : Fintype NativeLabelId where
  elems := (kNativeLabelBindings.map Prod.fst).toFinset
  complete member := by cases member <;> decide

abbrev NativePreviewLabels := NativeLabelId → List UInt16

structure NativeColors where
  foreground : Color
  background : Color
  inverted : Bool

/-- `std::swap` of the two colours. -/
def NativeColors.swap (colors : NativeColors) : NativeColors :=
  { colors with foreground := colors.background, background := colors.foreground }

structure NativeState where
  displayMode : DisplayMode
  sample : SampleState
  listingText : List UInt16
  topmost : Bool
  darkTheme : Bool
  zoom : ℤ
  ladderSizes : List ℚ
  colors : NativeColors
  labels : NativePreviewLabels
  chrome : Option NativeChrome

/-- What is done to the window itself. -/
inductive WindowCall where
  | recreatePaletteBrushes
  | applyComboTheme
  | setWindowText (text : List UInt16)
  | syncControls
  | relayoutControls
  | invalidateRect

structure PreviewRuntime where
  state : NativeState
  calls : List WindowCall
  retitleCount : UInt32

def kNativeLightPalette : PaletteMember → Color
  | .canvas => ⟨0xF3, 0xF5, 0xF7⟩
  | .surface => ⟨0xFF, 0xFF, 0xFF⟩
  | .hover => ⟨0xE9, 0xED, 0xF1⟩
  | .border => ⟨0xC9, 0xD1, 0xD8⟩
  | .text => ⟨0x17, 0x21, 0x2B⟩
  | .muted => ⟨0x5A, 0x67, 0x73⟩
  | .accent => ⟨0x00, 0x67, 0xC0⟩
  | .onAccent => ⟨0xFF, 0xFF, 0xFF⟩

def kNativeChromeDefault : NativeChrome where
  skin := .classic
  palette := kNativeLightPalette
  metrics
    | .radius => 4
    | .controlHeight => 32
    | .toolbarHeight => 44
    | .statusHeight => 28
    | .canvasRadius => 4
    | .canvasInset => 18
  monoStatus := false

/-! ## The fields of a request -/

def refuse {α : Type} (message : String) : Except Stop α := .error (.failed message)

section

variable {α β : Type}

/-- A field keeps its value where the request has none for it. -/
def assign (value : Option α) (old : β) (read : α → Except Stop β) : Except Stop β :=
  match value with
  | some value => read value
  | none => .ok old

/-- A field that is there must be of its type. -/
def assignTyped (document : JsonDocument) (name type : String) (value : Option α) (old : β)
    (read : α → Except Stop β) : Except Stop β :=
  if document.containsRoot (key name) && value.isNone then refuse (name ++ " must be " ++ type)
  else assign value old read

end

def readDisplayMode (mode : List UInt8) : Except Stop DisplayMode :=
  if mode = key "sample" ∨ mode = key "default" then .ok .sample
  else if mode = key "ladder" then .ok .ladder
  else if mode = key "compare" then .ok .compare
  else if mode = key "listing" then .ok .listing
  else refuse "displayMode is unsupported"

def readText (name : String) (value : List UInt8) : Except Stop (List UInt16) :=
  if 4096 < (utf8ToWide value).length then refuse (name ++ " exceeds 4096 UTF-16 units")
  else .ok (utf8ToWide value)

def readTheme (value : List UInt8) : Except Stop Bool :=
  if value ≠ key "light" ∧ value ≠ key "dark" then refuse "theme is unsupported"
  else .ok (decide (value = key "dark"))

def applyBoolean (document : JsonDocument) (name : String) (destination : Bool) :
    Except Stop Bool :=
  assignTyped document name "a boolean" (document.rootBool (key name)) destination .ok

section

variable (numbers : Numbers)

def readFontSize (token : List UInt8) : Except Stop ℚ :=
  let size := numbers.double token
  if size < 4 ∨ 96 < size then refuse "fontSizePt is outside the supported range"
  else .ok (numbers.float size)

def readZoom (token : List UInt8) : Except Stop ℤ :=
  let zoom := numbers.double token
  let requested := numbers.int zoom
  if zoom ≠ requested ∨ (requested ≠ 1 ∧ requested ≠ 2 ∧ requested ≠ 4) then
    refuse "zoom must be 1, 2, or 4"
  else .ok requested

def readSize (token : List UInt8) : Except Stop ℚ :=
  let size := numbers.double token
  let integerSize := numbers.int size
  if size ≠ integerSize ∨ integerSize < 4 ∨ 96 < integerSize then
    refuse "sizes contains an unsupported value"
  else .ok (numbers.float integerSize)

def readSizes (tokens : List (List UInt8)) : Except Stop (List ℚ) :=
  if tokens = [] ∨ 16 < tokens.length then refuse "sizes must contain between 1 and 16 values"
  else tokens.mapM (readSize numbers)

/-! ## The members of the chrome and of the labels -/

/-- A loop over bindings: each member takes what is read for its binding, if something is. -/
def assignMembers {M α β : Type} [DecidableEq M] (bindings : List β) (member : β → M)
    (read : β → Except Stop (Option α)) (values : M → α) : Except Stop (M → α) :=
  bindings.foldlM (fun values binding => do
    let value ← read binding
    match value with
    | some value => .ok (Function.update values (member binding) value)
    | none => .ok values) values

def readSkin (chrome : JsonObject) : Except Stop Skin :=
  match chrome.jsonString (key "skin") with
  | none => refuse "chrome.skin is required"
  | some skin => if skin = key "classic" then .ok .classic else refuse "chrome.skin is unsupported"

def readColor (chrome : JsonObject) (binding : PaletteMember × String) :
    Except Stop (Option Color) :=
  match chrome.jsonString (key binding.2) with
  | none => refuse ("chrome." ++ binding.2 ++ " is required")
  | some value =>
    match parseColor value with
    | none => refuse ("chrome." ++ binding.2 ++ " must be a #RRGGBB colour")
    | some color => .ok (some color)

def readMetric (chrome : JsonObject) (binding : MetricBinding) : Except Stop (Option ℤ) :=
  match chrome.jsonNumber (key binding.key) with
  | none => refuse ("chrome." ++ binding.key ++ " is outside the supported range")
  | some token =>
    let value := numbers.double token
    if value ≠ numbers.int value ∨ value < binding.minimum ∨ binding.maximum < value then
      refuse ("chrome." ++ binding.key ++ " is outside the supported range")
    else .ok (some (numbers.int value))

def readMonoStatus (chrome : JsonObject) : Except Stop Bool :=
  match chrome.jsonBool (key "monoStatus") with
  | none => refuse "chrome.monoStatus must be a boolean"
  | some mono => .ok mono

def readChrome (object : JsonObject) : Except Stop NativeChrome := do
  let skin ← readSkin object
  let palette ← assignMembers colorBindings Prod.fst (readColor object) kNativeChromeDefault.palette
  let metrics ← assignMembers metricBindings MetricBinding.member (readMetric numbers object)
    kNativeChromeDefault.metrics
  let monoStatus ← readMonoStatus object
  .ok { skin, palette, metrics, monoStatus }

/-- Without a chrome of its own a request resets it. -/
def pendingChrome (document : JsonDocument) : Except Stop (Option NativeChrome) :=
  match document.object (key "chrome") with
  | some object => (readChrome numbers object).map some
  | none => .ok none

end

def readLabel (labels : Option JsonObject) (binding : NativeLabelId × String) :
    Except Stop (Option (List UInt16)) :=
  match labels.bind fun object => object.jsonString (key binding.2) with
  | none => .ok none
  | some value =>
    if 256 < value.length then refuse ("label is too long: " ++ binding.2)
    else .ok (some (utf8ToWide value))

/-! ## The colours -/

/-- The given colours are those of the window that is not inverted. -/
def recolor (foreground background : Option (List UInt8)) (desiredInverted : Bool)
    (pending : NativeColors) : NativeColors :=
  let pending := if (foreground.isSome || background.isSome) && pending.inverted then
      { pending.swap with inverted := false } else pending
  let pending := match foreground with
    | some value => { pending with foreground := parseColorOr value pending.foreground }
    | none => pending
  let pending := match background with
    | some value => { pending with background := parseColorOr value pending.background }
    | none => pending
  if desiredInverted ≠ pending.inverted then { pending.swap with inverted := desiredInverted }
  else pending

def pendingColors (document : JsonDocument) (pending : NativeColors) : Except Stop NativeColors := do
  let foreground := document.rootString (key "foreground")
  let background := document.rootString (key "background")
  let desiredInverted ← applyBoolean document "inverted" pending.inverted
  .ok (recolor foreground background desiredInverted pending)

/-! ## The request -/

section

variable (strtod : Strtod) (numbers : Numbers)

def pendingNativeState (document : JsonDocument) (state : NativeState) :
    Except Stop NativeState := do
  let displayMode ← assign (document.rootString (key "displayMode")) state.displayMode
    readDisplayMode
  let text ← assign (document.rootString (key "text")) state.sample.text (readText "text")
  let listingText ← assign (document.rootString (key "listingText")) state.listingText
    (readText "listingText")
  let fontFace ← assign (document.rootString (key "fontFace")) state.sample.fontFace
    fun value => .ok (utf8ToWide value)
  let fontSizePt ← assignTyped document "fontSizePt" "a number"
    (document.rootNumber (key "fontSizePt")) state.sample.fontSizePt (readFontSize numbers)
  let bold ← applyBoolean document "bold" state.sample.bold
  let italic ← applyBoolean document "italic" state.sample.italic
  let topmost ← applyBoolean document "topmost" state.topmost
  let darkTheme ← assign (document.rootString (key "theme")) state.darkTheme readTheme
  let zoom ← assignTyped document "zoom" "an integer" (document.rootNumber (key "zoom")) state.zoom
    (readZoom numbers)
  let ladderSizes ← assignTyped document "sizes" "an array of integers"
    (document.rootNumberArray (key "sizes")) state.ladderSizes (readSizes numbers)
  let chrome ← pendingChrome numbers document
  let colors ← pendingColors document state.colors
  let labels ← assignMembers kNativeLabelBindings Prod.fst
    (readLabel (document.object (key "labels"))) state.labels
  let sample := { text, fontFace, fontSizePt, bold, italic }
  .ok { displayMode, sample, listingText, topmost, darkTheme, zoom, ladderSizes, colors, labels,
        chrome }

/-- The fields are assigned and the window follows what has changed. -/
def commit (pending : NativeState) (runtime : PreviewRuntime) : PreviewRuntime :=
  let old := runtime.state
  let themeChanged := decide (pending.darkTheme ≠ old.darkTheme)
  let chromeChanged := decide (pending.chrome ≠ old.chrome)
  let labelsChanged := decide (pending.labels ≠ old.labels)
  let titleChanged := decide (pending.labels .title ≠ old.labels .title)
  let controlsChanged := decide (pending.sample ≠ old.sample)
  let layoutChanged := themeChanged || chromeChanged || labelsChanged ||
    decide (pending.zoom ≠ old.zoom)
  { state := pending
    calls := runtime.calls ++
      (if themeChanged || chromeChanged then [.recreatePaletteBrushes, .applyComboTheme] else []) ++
      (if titleChanged then [.setWindowText (pending.labels .title)] else []) ++
      (if controlsChanged then [.syncControls] else []) ++
      [if layoutChanged then .relayoutControls else .invalidateRect]
    retitleCount := if titleChanged then runtime.retitleCount + 1 else runtime.retitleCount }

def applyNativeRequest (json : List UInt8) (runtime : PreviewRuntime) :
    Except Stop Unit × PreviewRuntime :=
  match JsonDocument.parse strtod json with
  | .error stop => (.error stop, runtime)
  | .ok document =>
    match pendingNativeState numbers document runtime.state with
    | .error stop => (.error stop, runtime)
    | .ok pending => (.ok (), commit pending runtime)

end

end MacTypeControl.Preview
