import MacTypeControl.Tables.Ordered
import MacTypeControl.Tables.Counted

/-!
# The glyph cache

A font of one size keeps the glyphs it has drawn. A glyph is one record with a count of
its holders: the cache, and the glyph arrays of the calls that are drawing. The last holder
frees it.
-/

namespace MacTypeControl.Engine

open MacTypeControl.Tables

/-! ## Referenced glyphs -/

/-- `none` is a null pointer. -/
abbrev Pointer := Option ℕ

/-- `FT_GLYPH_FORMAT_NONE`, `FT_GLYPH_FORMAT_BITMAP`, and the formats that are yet to be drawn. -/
inductive Format
  | none
  | bitmap
  | other
  deriving DecidableEq, Repr

/-- `FT_Referenced_GlyphRec`: the format of the glyph, where there is a glyph. -/
structure ReferencedGlyph where
  ft_glyph : Option Format
  refcount : ℤ
  deriving DecidableEq, Repr

/-- Reading through a null pointer, and reading memory that is not allocated. -/
inductive Fault
  | nullRead
  | freedRead
  deriving DecidableEq, Repr

abbrev Glyphs := Memory ReferencedGlyph

def Glyphs.deref (glyphs : Glyphs) : Pointer → Except Fault (ℕ × ReferencedGlyph)
  | none => .error .nullRead
  | some address =>
      match glyphs address with
      | none => .error .freedRead
      | some record => .ok (address, record)

/-- `FT_Glyph_Ref_Copy`: the pointer that the target gets, where it gets one. -/
def FT_Glyph_Ref_Copy (glyphs : Glyphs) (source : Pointer) : Except Fault (Glyphs × Option Pointer) := do
  let (address, record) ← glyphs.deref source
  if record.refcount < 0 then
    .ok (glyphs, none)
  else
    match record.ft_glyph with
    | none => .error .nullRead
    | some .none => .ok (glyphs, none)
    | some _ => .ok (glyphs.set address (some { record with refcount := record.refcount + 1 }), some source)

def FT_Done_Ref_Glyph (glyphs : Glyphs) (glyph : Pointer) : Except Fault Glyphs := do
  let (address, record) ← glyphs.deref glyph
  if record.refcount - 1 = 0 then
    .ok (glyphs.set address none)
  else
    .ok (glyphs.set address (some { record with refcount := record.refcount - 1 }))

/-- `if (glyph) FT_Done_Ref_Glyph(&glyph)` -/
def giveUp (glyphs : Glyphs) (glyph : Pointer) : Except Fault Glyphs :=
  if glyph.isSome then FT_Done_Ref_Glyph glyphs glyph else .ok glyphs

/-! ## Cached characters -/

inductive RenderMode
  | normal
  | light
  | mono
  | lcd
  | lcdV
  deriving DecidableEq, Repr

structure CharData where
  glyphindex : ℕ
  width : ℤ
  gdiWidth : ℤ
  glyph : Pointer
  glyphMono : Pointer
  AAMode : ℤ
  deriving DecidableEq, Repr

namespace CharData

def GetGlyph (data : CharData) (mode : RenderMode) : Pointer :=
  if mode = .mono then data.glyphMono else data.glyph

def withGlyph (data : CharData) (mode : RenderMode) (glyph : Pointer) : CharData :=
  if mode = .mono then { data with glyphMono := glyph } else { data with glyph := glyph }

def SetGlyph (data : CharData) (glyphs : Glyphs) (mode : RenderMode) (glyph : Pointer) :
    Except Fault (Glyphs × CharData) := do
  let glyphs ← giveUp glyphs (data.GetGlyph mode)
  -- the old glyph is gone by now, whatever becomes of the copy
  let (glyphs, target) ← FT_Glyph_Ref_Copy glyphs glyph
  .ok (glyphs, data.withGlyph mode (target.getD none))

/-- `~FreeTypeCharData` -/
def destroy (data : CharData) (glyphs : Glyphs) : Except Fault Glyphs := do
  let glyphs ← giveUp glyphs data.glyph
  giveUp glyphs data.glyphMono

end CharData

/-! ## The cache of a font -/

def FREETYPE_REQCOUNTMAX : ℕ := 2048

def FREETYPE_GC_COUNTER : ℕ := 1024

abbrev CharMap := Ordered ℤ CharData

structure FontCache where
  GlyphCache : CharMap
  addcount : ℕ

/-- The entries in the order of their keys, each with its destructor. -/
def destroyAll : List (ℤ × CharData) → Glyphs → Except Fault Glyphs
  | [], glyphs => .ok glyphs
  | entry :: rest, glyphs => do
      let glyphs ← entry.2.destroy glyphs
      destroyAll rest glyphs

/-- `CompactMap`: from the front of the map, not from what was used least. -/
def CompactMap (entries : CharMap) (glyphs : Glyphs) (reduce : ℕ) : Except Fault (CharMap × Glyphs) := do
  let reducecount := entries.size - reduce
  let glyphs ← destroyAll (entries.entries.take reducecount) glyphs
  .ok (entries.dropFirst reducecount, glyphs)

namespace FontCache

def empty : FontCache := ⟨.empty, 0⟩

def Compact (cache : FontCache) (glyphs : Glyphs) : Except Fault (FontCache × Glyphs) := do
  let (kept, glyphs) ← CompactMap cache.GlyphCache glyphs FREETYPE_GC_COUNTER
  .ok (⟨kept, 0⟩, glyphs)

def Erase (cache : FontCache) (glyphs : Glyphs) : Except Fault (FontCache × Glyphs) := do
  let glyphs ← destroyAll cache.GlyphCache.entries glyphs
  .ok ({ cache with GlyphCache := .empty }, glyphs)

/-- What a drawing call hands over to be kept. -/
structure Drawn where
  glyphindex : ℕ
  width : ℤ
  gdiWidth : ℤ
  glyph : Pointer
  mode : RenderMode
  AAMode : ℤ
  deriving DecidableEq, Repr

/-- The map is cut down before the new entry comes in, so the new entry stays. -/
def makeRoom (cache : FontCache) (glyphs : Glyphs) : Except Fault (FontCache × Glyphs) :=
  if FREETYPE_REQCOUNTMAX ≤ cache.addcount + 1 then cache.Compact glyphs
  else .ok ({ cache with addcount := cache.addcount + 1 }, glyphs)

def putData (cache : FontCache) (glyphs : Glyphs) (key : ℤ) (drawn : Drawn) :
    Except Fault (FontCache × Glyphs) :=
  match cache.GlyphCache.find key with
  | some data => do
      let (glyphs, data) ← data.SetGlyph glyphs drawn.mode drawn.glyph
      let data := { data with width := drawn.width, gdiWidth := drawn.gdiWidth }
      .ok ({ cache with GlyphCache := cache.GlyphCache.insert key data }, glyphs)
  | none => do
      let data : CharData := ⟨drawn.glyphindex, drawn.width, drawn.gdiWidth, none, none, drawn.AAMode⟩
      let (glyphs, data) ← data.SetGlyph glyphs drawn.mode drawn.glyph
      .ok ({ cache with GlyphCache := cache.GlyphCache.insert key data }, glyphs)

/-- What `AddCharData` and `AddGlyphData` do under the key that they take. -/
def addData (cache : FontCache) (glyphs : Glyphs) (key : ℤ) (drawn : Drawn) :
    Except Fault (FontCache × Glyphs) :=
  if 65536 ≤ drawn.glyphindex then .ok (cache, glyphs)
  else do
    let (cache, glyphs) ← cache.makeRoom glyphs
    cache.putData glyphs key drawn

def charKey (wch : ℕ) : ℤ := wch

def glyphKey (glyphindex : ℕ) : ℤ := -glyphindex

def AddCharData (cache : FontCache) (glyphs : Glyphs) (wch : ℕ) (drawn : Drawn) :
    Except Fault (FontCache × Glyphs) :=
  cache.addData glyphs (charKey wch) drawn

def AddGlyphData (cache : FontCache) (glyphs : Glyphs) (drawn : Drawn) :
    Except Fault (FontCache × Glyphs) :=
  cache.addData glyphs (glyphKey drawn.glyphindex) drawn

def FindChar (cache : FontCache) (wch : ℕ) : Option CharData := cache.GlyphCache.find (charKey wch)

def FindGlyphIndex (cache : FontCache) (glyph : ℕ) : Option CharData :=
  if 65536 ≤ glyph then none else cache.GlyphCache.find (glyphKey glyph)

end FontCache

end MacTypeControl.Engine
