import MacTypeControl.Engine.GlyphCache

/-!
# Drawing with the glyph cache

The calls that draw text share the glyph cache of a font. Each has an array with a place
for the glyph of every character; it fills the places one after another and releases them
at its end. What FreeType and the font link do for a character is an input here.
-/

namespace MacTypeControl.Engine

/-- A character that the cache does not have, as FreeType and the font link load it. -/
structure LoadedGlyph where
  glyphindex : ℕ
  gdiWidth : ℤ
  mode : RenderMode
  AAMode : ℤ
  /-- The memory that `New_FT_Ref_Glyph` gets. -/
  address : ℕ
  /-- What `FT_Glyph_Copy` puts into the new record. -/
  copied : Option Format
  /-- Whether the outline can be turned into a bitmap. -/
  rendered : Bool
  deriving DecidableEq, Repr

inductive Loading
  | notFound
  | lookupFailed
  | loaded (glyph : LoadedGlyph)
  deriving DecidableEq, Repr

structure CharRequest where
  isGlyphIndex : Bool
  wch : ℕ
  width : ℤ
  mode : RenderMode
  deriving DecidableEq, Repr

namespace FontCache

def lookupFor (cache : FontCache) (request : CharRequest) : Option CharData :=
  if request.isGlyphIndex then cache.FindGlyphIndex request.wch else cache.FindChar request.wch

def addFor (cache : FontCache) (glyphs : Glyphs) (request : CharRequest) (drawn : Drawn) :
    Except Fault (FontCache × Glyphs) :=
  if request.isGlyphIndex then cache.AddGlyphData glyphs drawn
  else cache.AddCharData glyphs request.wch drawn

end FontCache

/-- The part of the cached character that the call gets, null where there is none. -/
def copyCached (cache : FontCache) (glyphs : Glyphs) (request : CharRequest) :
    Except Fault (Glyphs × Pointer) :=
  match cache.lookupFor request with
  | none => .ok (glyphs, none)
  | some data => do
      let (glyphs, target) ← FT_Glyph_Ref_Copy glyphs (data.GetGlyph request.mode)
      .ok (glyphs, target.getD none)

/-- Turns the glyph into a bitmap, which only its first holder has so far. -/
def renderGlyph (glyphs : Glyphs) (bitmap : Pointer) (rendered : Bool) :
    Except Fault (Glyphs × Pointer) := do
  let (address, record) ← glyphs.deref bitmap
  match record.ft_glyph with
  | none => .error .nullRead
  | some .bitmap => .ok (glyphs, bitmap)
  | some _ =>
      if rendered then
        .ok (glyphs.set address (some { record with ft_glyph := some .bitmap }), bitmap)
      else do
        let glyphs ← FT_Done_Ref_Glyph glyphs bitmap
        .ok (glyphs, none)

/-- The new record is copied to the call's place and then given up by the loop. -/
def loadGlyph (glyphs : Glyphs) (glyph : LoadedGlyph) : Except Fault (Glyphs × Pointer) := do
  let (glyphs, target) ← FT_Glyph_Ref_Copy (glyphs.set glyph.address (some ⟨glyph.copied, 1⟩))
    (some glyph.address)
  let glyphs ← FT_Done_Ref_Glyph glyphs (some glyph.address)
  match target with
  | none => .ok (glyphs, none)
  | some bitmap => renderGlyph glyphs bitmap glyph.rendered

structure World where
  glyphs : Glyphs
  cache : FontCache
  /-- The places of all calls that are drawing. -/
  places : List Pointer
  /-- What the cache was given under each key, newest first. -/
  handed : List (ℤ × FontCache.Drawn)

namespace World

def start : World := ⟨fun _ => none, .empty, [], []⟩

def drawnOf (request : CharRequest) (glyph : LoadedGlyph) (bitmap : Pointer) : FontCache.Drawn :=
  ⟨glyph.glyphindex, request.width, glyph.gdiWidth, bitmap, glyph.mode, glyph.AAMode⟩

/-- The key under which a loaded glyph is kept. -/
def keptKey (request : CharRequest) (glyph : LoadedGlyph) : ℤ :=
  if request.isGlyphIndex then FontCache.glyphKey glyph.glyphindex else FontCache.charKey request.wch

/-- The glyph is kept for the next call, under its number or under the character. -/
def keep (w : World) (request : CharRequest) (glyph : LoadedGlyph) (bitmap : Pointer) :
    Except Fault World :=
  if glyph.glyphindex = 0 then .ok w
  else do
    let drawn := drawnOf request glyph bitmap
    let (cache, glyphs) ← w.cache.addFor w.glyphs request drawn
    .ok { w with cache := cache, glyphs := glyphs, handed := (keptKey request glyph, drawn) :: w.handed }

/-- One round of the loop in `ForEachGetGlyphFT`, taken as one step. The loop of
`ForEachGetGlyphGGO` is left out. -/
def draw (w : World) (place : ℕ) (request : CharRequest) (loading : Loading) : Except Fault World := do
  let (glyphs, bitmap) ← copyCached w.cache w.glyphs request
  if bitmap.isSome then
    .ok { w with glyphs := glyphs, places := w.places.set place bitmap }
  else
    match loading with
    | .notFound => .ok { w with glyphs := glyphs }
    | .lookupFailed => .ok { w with glyphs := glyphs }
    | .loaded glyph => do
        let (glyphs, bitmap) ← loadGlyph glyphs glyph
        let drawn := { w with glyphs := glyphs, places := w.places.set place bitmap }
        if bitmap.isSome then drawn.keep request glyph bitmap else .ok drawn

/-- The end of the call: `if (GlyphArray[i]) FT_Done_Ref_Glyph(&GlyphArray[i])`. -/
def release (w : World) (place : ℕ) : Except Fault World := do
  let glyphs ← giveUp w.glyphs ((w.places[place]?).getD none)
  .ok { w with glyphs := glyphs, places := w.places.set place none }

def erase (w : World) : Except Fault World := do
  let (cache, glyphs) ← w.cache.Erase w.glyphs
  .ok { w with cache := cache, glyphs := glyphs }

end World

inductive DrawEvent
  | begin (cbString : ℕ)
  | draw (place : ℕ) (request : CharRequest) (loading : Loading)
  | release (place : ℕ)
  | erase
  deriving DecidableEq, Repr

namespace World

def step (w : World) : DrawEvent → Except Fault World
  | .begin cbString => .ok { w with places := w.places ++ List.replicate cbString none }
  | .draw place request loading => w.draw place request loading
  | .release place => w.release place
  | .erase => w.erase

def run (w : World) : List DrawEvent → Except Fault World
  | [] => .ok w
  | event :: rest => do
      let next ← w.step event
      next.run rest

/-- New memory is memory that is free, and a call draws into a place it has not filled. -/
def Legal (w : World) : DrawEvent → Prop
  | .draw place _ (.loaded glyph) => w.places[place]? = some none ∧ w.glyphs glyph.address = none
  | .draw place _ _ => w.places[place]? = some none
  | _ => True

def LegalRun (w : World) : List DrawEvent → Prop
  | [] => True
  | event :: rest => w.Legal event ∧ ∀ next, w.step event = .ok next → next.LegalRun rest

/-- A cached character without a bitmap of the kind that is asked for, or a new glyph that
FreeType could not copy. -/
def ReadsNull (w : World) : DrawEvent → Prop
  | .draw _ request loading =>
      (∃ data, w.cache.lookupFor request = some data ∧ data.GetGlyph request.mode = none) ∨
        ∃ glyph, loading = .loaded glyph ∧ glyph.copied = none
  | _ => False

end World

end MacTypeControl.Engine
