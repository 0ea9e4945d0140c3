import MacTypeControl.Json.PrintedGrammar

/-!
# The preview requests of the control center

The requests as they are serialized. A number that is not finite is printed as `null`, a member
without a value is left out of the options.
-/

namespace MacTypeControl.Preview

open Json Text

/-- A finite `f64` by the decimal text that is printed for it. -/
structure Finite where
  digits : List Char
  number : Grammar.IsNumber (encodeUtf8 digits)
  range : Grammar.InDoubleRange (encodeUtf8 digits)

/-- An `f64`, where `none` is not finite. -/
abbrev F64 := Option Finite

def F64.tree : F64 → Tree
  | some value => .number value.digits
  | none => .null

def unsignedTree (value : ℕ) : Tree := .number (Nat.toDigits 10 value)

/-- The entries of a `BTreeMap` with text keys, in the order of the keys. -/
structure TextMap (α : Type) where
  entries : List (List Char × α)
  sorted : (entries.map Prod.fst).Pairwise (· < ·)

def TextMap.get {α : Type} (map : TextMap α) (name : List Char) : Option α :=
  map.entries.lookup name

/-! ## Rendering -/

structure PreviewSample where
  text : List Char
  fontFace : List Char
  fontSizePt : F64
  widthPx : UInt32
  heightPx : UInt32
  dpi : UInt32
  foreground : List Char
  background : List Char
  bold : Bool
  italic : Bool

def PreviewSample.fields (sample : PreviewSample) : List (List Char × Tree) :=
  [("text".toList, .text sample.text), ("fontFace".toList, .text sample.fontFace),
    ("fontSizePt".toList, sample.fontSizePt.tree),
    ("widthPx".toList, unsignedTree sample.widthPx.toNat),
    ("heightPx".toList, unsignedTree sample.heightPx.toNat),
    ("dpi".toList, unsignedTree sample.dpi.toNat),
    ("foreground".toList, .text sample.foreground),
    ("background".toList, .text sample.background), ("bold".toList, .bool sample.bold),
    ("italic".toList, .bool sample.italic)]

structure RenderRequest where
  requestId : UInt64
  profilePath : List Char
  overrides : TextMap F64
  sample : PreviewSample

def overrideFields (overrides : TextMap F64) : List (List Char × Tree) :=
  overrides.entries.map fun entry => (entry.1, entry.2.tree)

def RenderRequest.fields (request : RenderRequest) : List (List Char × Tree) :=
  [("requestId".toList, unsignedTree request.requestId.toNat),
    ("profilePath".toList, .text request.profilePath),
    ("overrides".toList, .object (overrideFields request.overrides)),
    ("sample".toList, .object request.sample.fields)]

def RenderRequest.tree (request : RenderRequest) : Tree := .object request.fields

/-! ## The native window -/

structure NativePreviewChrome where
  skin : List Char
  canvas : List Char
  surface : List Char
  surfaceSubtle : List Char
  border : List Char
  text : List Char
  muted : List Char
  accent : List Char
  onAccent : List Char
  radius : UInt32
  controlHeight : UInt32
  toolbarHeight : UInt32
  statusHeight : UInt32
  canvasRadius : UInt32
  canvasInset : UInt32
  monoStatus : Bool

def NativePreviewChrome.fields (chrome : NativePreviewChrome) : List (List Char × Tree) :=
  [("skin".toList, .text chrome.skin), ("canvas".toList, .text chrome.canvas),
    ("surface".toList, .text chrome.surface),
    ("surfaceSubtle".toList, .text chrome.surfaceSubtle), ("border".toList, .text chrome.border),
    ("text".toList, .text chrome.text), ("muted".toList, .text chrome.muted),
    ("accent".toList, .text chrome.accent), ("onAccent".toList, .text chrome.onAccent),
    ("radius".toList, unsignedTree chrome.radius.toNat),
    ("controlHeight".toList, unsignedTree chrome.controlHeight.toNat),
    ("toolbarHeight".toList, unsignedTree chrome.toolbarHeight.toNat),
    ("statusHeight".toList, unsignedTree chrome.statusHeight.toNat),
    ("canvasRadius".toList, unsignedTree chrome.canvasRadius.toNat),
    ("canvasInset".toList, unsignedTree chrome.canvasInset.toNat),
    ("monoStatus".toList, .bool chrome.monoStatus)]

structure NativePreviewOptions where
  displayMode : Option (List Char)
  text : Option (List Char)
  listingText : Option (List Char)
  fontFace : Option (List Char)
  fontSizePt : Option UInt32
  bold : Option Bool
  italic : Option Bool
  foreground : Option (List Char)
  background : Option (List Char)
  theme : Option (List Char)
  inverted : Option Bool
  zoom : Option UInt32
  sizes : Option (List UInt32)
  labels : Option (TextMap (List Char))
  chrome : Option NativePreviewChrome

def labelFields (labels : TextMap (List Char)) : List (List Char × Tree) :=
  labels.entries.map fun entry => (entry.1, .text entry.2)

def NativePreviewOptions.fields (options : NativePreviewOptions) : List (List Char × Option Tree) :=
  [("displayMode".toList, options.displayMode.map .text), ("text".toList, options.text.map .text),
    ("listingText".toList, options.listingText.map .text),
    ("fontFace".toList, options.fontFace.map .text),
    ("fontSizePt".toList, options.fontSizePt.map fun value => unsignedTree value.toNat),
    ("bold".toList, options.bold.map .bool), ("italic".toList, options.italic.map .bool),
    ("foreground".toList, options.foreground.map .text),
    ("background".toList, options.background.map .text),
    ("theme".toList, options.theme.map .text), ("inverted".toList, options.inverted.map .bool),
    ("zoom".toList, options.zoom.map fun value => unsignedTree value.toNat),
    ("sizes".toList,
      options.sizes.map fun sizes => .array (sizes.map fun size => unsignedTree size.toNat)),
    ("labels".toList, options.labels.map fun labels => .object (labelFields labels)),
    ("chrome".toList, options.chrome.map fun chrome => .object chrome.fields)]

/-- The fields that have a value. -/
def present (fields : List (List Char × Option Tree)) : List (List Char × Tree) :=
  fields.filterMap fun field => field.2.map fun value => (field.1, value)

def NativePreviewOptions.tree (options : NativePreviewOptions) : Tree :=
  .object (present options.fields)

/-- The bytes that are sent for a value. -/
def payload (tree : Tree) : List UInt8 := encodeUtf8 tree.print

/-! ## What the helper looks up -/

def key (name : String) : List UInt8 := encodeUtf8 name.toList

/-- The settings that may be overridden. -/
def kSettings : List String :=
  ["hinting_mode", "enable_kerning", "font_loader", "font_link", "normal_weight", "bold_weight",
    "italic_slant", "bolder_mode", "gamma_mode", "gamma_value", "contrast", "render_weight",
    "anti_alias_mode", "lcd_filter", "text_tuning", "text_tuning_r", "text_tuning_g",
    "text_tuning_b", "hint_small_font", "max_bitmap"]

def F64.token (value : F64) : Option (List UInt8) := value.map fun value => encodeUtf8 value.digits

def unsignedToken (value : UInt32) : List UInt8 := encodeUtf8 (Nat.toDigits 10 value.toNat)

namespace PreviewSample

variable (sample : PreviewSample)

def strings : List (String × List Char) :=
  [("text", sample.text), ("fontFace", sample.fontFace), ("foreground", sample.foreground),
    ("background", sample.background)]

def numbers : List (String × Option (List UInt8)) :=
  [("fontSizePt", sample.fontSizePt.token), ("widthPx", some (unsignedToken sample.widthPx)),
    ("heightPx", some (unsignedToken sample.heightPx)), ("dpi", some (unsignedToken sample.dpi))]

def bools : List (String × Bool) := [("bold", sample.bold), ("italic", sample.italic)]

end PreviewSample

namespace NativePreviewChrome

variable (chrome : NativePreviewChrome)

def strings : List (String × List Char) :=
  [("skin", chrome.skin), ("canvas", chrome.canvas), ("surface", chrome.surface),
    ("surfaceSubtle", chrome.surfaceSubtle), ("border", chrome.border), ("text", chrome.text),
    ("muted", chrome.muted), ("accent", chrome.accent), ("onAccent", chrome.onAccent)]

def numbers : List (String × UInt32) :=
  [("radius", chrome.radius), ("controlHeight", chrome.controlHeight),
    ("toolbarHeight", chrome.toolbarHeight), ("statusHeight", chrome.statusHeight),
    ("canvasRadius", chrome.canvasRadius), ("canvasInset", chrome.canvasInset)]

end NativePreviewChrome

namespace NativePreviewOptions

variable (options : NativePreviewOptions)

def strings : List (String × Option (List Char)) :=
  [("displayMode", options.displayMode), ("text", options.text),
    ("listingText", options.listingText), ("fontFace", options.fontFace),
    ("foreground", options.foreground), ("background", options.background),
    ("theme", options.theme)]

def numbers : List (String × Option UInt32) :=
  [("fontSizePt", options.fontSizePt), ("zoom", options.zoom)]

/-- The helper takes a flag for the topmost window that the control center never sends. -/
def bools : List (String × Option Bool) :=
  [("bold", options.bold), ("italic", options.italic), ("inverted", options.inverted),
    ("topmost", none)]

end NativePreviewOptions

end MacTypeControl.Preview
