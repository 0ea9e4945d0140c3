import MacTypeControl.Checks
import MacTypeControl.Engine.GlyphDrawing

/-!
# Glyph references over whole runs

Drawing calls, releases and the clearing of the cache in any order: every glyph counts
exactly the places and cache entries that hold it, so none is read after it was freed and
none is left over.
-/

namespace MacTypeControl.Engine

open MacTypeControl.Tables

theorem ok_bind {ε α β : Type} (a : α) (f : α → Except ε β) : (Except.ok a >>= f) = f a := rfl

theorem error_bind {ε α β : Type} (e : ε) (f : α → Except ε β) : (Except.error e >>= f) = .error e := rfl

/-! ## References -/

/-- Every record counts its holders and has a glyph that can be copied. -/
structure Accounts (glyphs : Glyphs) (holders : List Pointer) : Prop where
  counted : Counted ReferencedGlyph.refcount glyphs holders
  drawable : ∀ a r, glyphs a = some r → ∃ format, r.ft_glyph = some format ∧ format ≠ .none

section Steps

variable {glyphs : Glyphs} {holders others : List Pointer}

theorem Accounts.congr (h : Accounts glyphs holders)
    (hcount : ∀ a, others.count (some a) = holders.count (some a)) : Accounts glyphs others :=
  ⟨h.counted.congr hcount, h.drawable⟩

theorem Accounts.perm (h : Accounts glyphs holders) (hperm : others.Perm holders) :
    Accounts glyphs others :=
  h.congr fun _ => hperm.count_eq _

theorem Accounts.cons_none (h : Accounts glyphs holders) : Accounts glyphs (none :: holders) :=
  h.congr fun _ => List.count_cons_of_ne (by simp)

theorem Accounts.of_cons_none (h : Accounts glyphs (none :: holders)) : Accounts glyphs holders :=
  h.congr fun _ => (List.count_cons_of_ne (by simp)).symm

theorem drawable_set {a : ℕ} {r : ReferencedGlyph} {format : Format}
    (h : ∀ b s, glyphs b = some s → ∃ format, s.ft_glyph = some format ∧ format ≠ .none)
    (hr : r.ft_glyph = some format) (hformat : format ≠ .none) :
    ∀ b s, Memory.set glyphs a (some r) b = some s → ∃ format, s.ft_glyph = some format ∧ format ≠ .none := by
  intro b s hb
  by_cases hab : b = a
  · subst hab
    rw [Memory.set_self] at hb
    cases hb
    exact ⟨format, hr, hformat⟩
  · rw [Memory.set_of_ne _ _ hab] at hb
    exact h b s hb

theorem drawable_free {a : ℕ}
    (h : ∀ b s, glyphs b = some s → ∃ format, s.ft_glyph = some format ∧ format ≠ .none) :
    ∀ b s, Memory.set glyphs a none b = some s → ∃ format, s.ft_glyph = some format ∧ format ≠ .none := by
  intro b s hb
  by_cases hab : b = a
  · subst hab
    rw [Memory.set_self] at hb
    cases hb
  · rw [Memory.set_of_ne _ _ hab] at hb
    exact h b s hb

theorem deref_some {a : ℕ} {r : ReferencedGlyph} (h : glyphs a = some r) :
    glyphs.deref (some a) = .ok (a, r) := by
  simp only [Glyphs.deref, h]

/-- A glyph that somebody holds can be copied. -/
theorem FT_Glyph_Ref_Copy_spec (h : Accounts glyphs holders) {a : ℕ} (ha : some a ∈ holders) :
    ∃ next, FT_Glyph_Ref_Copy glyphs (some a) = .ok (next, some (some a)) ∧
      Accounts next (some a :: holders) := by
  obtain ⟨r, hr, hpos⟩ := h.counted.exists_of_mem ha
  obtain ⟨format, hformat, hne⟩ := h.drawable a r hr
  refine ⟨Memory.set glyphs a (some { r with refcount := r.refcount + 1 }), ?_,
    h.counted.retain hr rfl, drawable_set h.drawable hformat hne⟩
  simp only [FT_Glyph_Ref_Copy, ok_bind, deref_some hr]
  rw [if_neg (by omega)]
  cases format with
  | none => exact absurd rfl hne
  | bitmap => rw [hformat]
  | other => rw [hformat]

theorem FT_Done_Ref_Glyph_spec {a : ℕ} (h : Accounts glyphs (some a :: holders)) :
    ∃ next, FT_Done_Ref_Glyph glyphs (some a) = .ok next ∧ Accounts next holders := by
  obtain ⟨r, hr, -⟩ := h.counted.exists_of_mem (List.mem_cons_self ..)
  by_cases hlast : r.refcount - 1 = 0
  · refine ⟨Memory.set glyphs a none, ?_, h.counted.release_last hr (by omega), drawable_free h.drawable⟩
    simp only [FT_Done_Ref_Glyph, ok_bind, deref_some hr]
    rw [if_pos hlast]
  · obtain ⟨format, hformat, hne⟩ := h.drawable a r hr
    refine ⟨Memory.set glyphs a (some { r with refcount := r.refcount - 1 }), ?_,
      h.counted.release hr rfl hlast, drawable_set h.drawable hformat hne⟩
    simp only [FT_Done_Ref_Glyph, ok_bind, deref_some hr]
    rw [if_neg hlast]

theorem giveUp_spec {p : Pointer} (h : Accounts glyphs (p :: holders)) :
    ∃ next, giveUp glyphs p = .ok next ∧ Accounts next holders := by
  cases p with
  | none => exact ⟨glyphs, rfl, h.of_cons_none⟩
  | some a => exact FT_Done_Ref_Glyph_spec h

/-! ## Cached characters -/

def CharData.pointers (data : CharData) : List Pointer := [data.glyph, data.glyphMono]

def CharData.otherGlyph (data : CharData) (mode : RenderMode) : Pointer :=
  if mode = .mono then data.glyph else data.glyphMono

theorem CharData.pointers_perm (data : CharData) (mode : RenderMode) :
    data.pointers.Perm [data.GetGlyph mode, data.otherGlyph mode] := by
  unfold CharData.pointers CharData.GetGlyph CharData.otherGlyph
  by_cases hmode : mode = .mono
  · rw [if_pos hmode, if_pos hmode]
    exact List.Perm.swap ..
  · rw [if_neg hmode, if_neg hmode]

@[simp] theorem CharData.GetGlyph_withGlyph (data : CharData) (mode : RenderMode) (p : Pointer) :
    (data.withGlyph mode p).GetGlyph mode = p := by
  unfold CharData.withGlyph CharData.GetGlyph
  by_cases hmode : mode = .mono
  · rw [if_pos hmode, if_pos hmode]
  · rw [if_neg hmode, if_neg hmode]

@[simp] theorem CharData.otherGlyph_withGlyph (data : CharData) (mode : RenderMode) (p : Pointer) :
    (data.withGlyph mode p).otherGlyph mode = data.otherGlyph mode := by
  unfold CharData.withGlyph CharData.otherGlyph
  by_cases hmode : mode = .mono
  · rw [if_pos hmode, if_pos hmode, if_pos hmode]
  · rw [if_neg hmode, if_neg hmode, if_neg hmode]

theorem SetGlyph_spec {data : CharData} (mode : RenderMode) {a : ℕ}
    (h : Accounts glyphs (data.pointers ++ holders)) (ha : some a ∈ holders) :
    ∃ next, data.SetGlyph glyphs mode (some a) = .ok (next, data.withGlyph mode (some a)) ∧
      Accounts next ((data.withGlyph mode (some a)).pointers ++ holders) := by
  have hold := h.perm ((data.pointers_perm mode).symm.append_right holders)
  obtain ⟨given, hgiven, hgivenAccounts⟩ := giveUp_spec hold
  -- the drawing call still holds the new glyph, so giving up an equal old one leaves it there
  have hheld : some a ∈ data.otherGlyph mode :: holders := List.mem_cons_of_mem _ ha
  obtain ⟨next, hnext, hnextAccounts⟩ := FT_Glyph_Ref_Copy_spec hgivenAccounts hheld
  refine ⟨next, ?_, ?_⟩
  · simp only [CharData.SetGlyph, hgiven, ok_bind, hnext]
    rfl
  · refine hnextAccounts.perm ?_
    have hperm := ((data.withGlyph mode (some a)).pointers_perm mode).append_right holders
    rwa [CharData.GetGlyph_withGlyph, CharData.otherGlyph_withGlyph] at hperm

theorem destroy_spec {data : CharData} (h : Accounts glyphs (data.pointers ++ holders)) :
    ∃ next, data.destroy glyphs = .ok next ∧ Accounts next holders := by
  obtain ⟨given, hgiven, hgivenAccounts⟩ := giveUp_spec h
  obtain ⟨next, hnext, hnextAccounts⟩ := giveUp_spec hgivenAccounts
  refine ⟨next, ?_, hnextAccounts⟩
  simp only [CharData.destroy, hgiven, ok_bind]
  exact hnext

/-! ## The map -/

def pointersOf (entries : List (ℤ × CharData)) : List Pointer := entries.flatMap fun e => e.2.pointers

theorem destroyAll_spec : ∀ (entries : List (ℤ × CharData)) {glyphs : Glyphs},
    Accounts glyphs (pointersOf entries ++ holders) →
      ∃ next, destroyAll entries glyphs = .ok next ∧ Accounts next holders
  | [], glyphs, h => ⟨glyphs, rfl, h⟩
  | entry :: rest, glyphs, h => by
      rw [pointersOf, List.flatMap_cons, List.append_assoc] at h
      obtain ⟨given, hgiven, hgivenAccounts⟩ := destroy_spec h
      obtain ⟨next, hnext, hnextAccounts⟩ := destroyAll_spec rest hgivenAccounts
      refine ⟨next, ?_, hnextAccounts⟩
      simp only [destroyAll, hgiven, ok_bind]
      exact hnext

theorem CompactMap_spec {entries : CharMap} (reduce : ℕ)
    (h : Accounts glyphs (pointersOf entries.entries ++ holders)) :
    ∃ next, CompactMap entries glyphs reduce = .ok (entries.dropFirst (entries.size - reduce), next) ∧
      Accounts next (pointersOf (entries.dropFirst (entries.size - reduce)).entries ++ holders) := by
  have hsplit := h
  rw [pointersOf, ← List.take_append_drop (entries.size - reduce) entries.entries, List.flatMap_append,
    List.append_assoc] at hsplit
  obtain ⟨next, hnext, hnextAccounts⟩ := destroyAll_spec _ hsplit
  refine ⟨next, ?_, hnextAccounts⟩
  simp only [CompactMap, hnext, ok_bind]

/-- What a new value changes of the pointers in the map. -/
theorem pointersOf_insert (entries : CharMap) (key : ℤ) :
    ∃ rest, (pointersOf entries.entries).Perm
        (((entries.find key).elim [] CharData.pointers) ++ rest) ∧
      ∀ data, (pointersOf (entries.insert key data).entries).Perm (data.pointers ++ rest) := by
  refine ⟨pointersOf (entries.below key) ++ pointersOf (entries.above key), ?_, ?_⟩
  · cases hfind : entries.find key with
    | none =>
        have hperm := (Ordered.perm_of_find_none hfind).flatMap_right fun e => e.2.pointers
        rwa [List.flatMap_append] at hperm
    | some data =>
        have hperm := (Ordered.perm_of_find_some hfind).flatMap_right fun e => e.2.pointers
        rw [List.flatMap_append, List.flatMap_cons] at hperm
        exact hperm.trans (List.perm_append_comm_assoc ..)
  · intro data
    rw [pointersOf, Ordered.insert, List.flatMap_append, List.flatMap_cons]
    exact List.perm_append_comm_assoc ..

/-- What is left of the map when room has been made. -/
def Room (cache next : FontCache) : Prop :=
  (next.addcount = 0 ∧
      next.GlyphCache = cache.GlyphCache.dropFirst (cache.GlyphCache.size - FREETYPE_GC_COUNTER)) ∨
    (next.addcount = cache.addcount + 1 ∧ next.GlyphCache = cache.GlyphCache ∧
      cache.addcount + 1 < FREETYPE_REQCOUNTMAX)

/-- The entry that an added glyph leaves behind: a bitmap of the other kind comes from the entry that
was there before. -/
structure PutEntry (entries : CharMap) (key : ℤ) (drawn : FontCache.Drawn) (data : CharData) : Prop where
  width : data.width = drawn.width
  gdiWidth : data.gdiWidth = drawn.gdiWidth
  glyph : data.GetGlyph drawn.mode = drawn.glyph
  other : ∀ p, data.otherGlyph drawn.mode = some p →
    ∃ old, entries.find key = some old ∧ old.otherGlyph drawn.mode = some p

theorem makeRoom_spec {cache : FontCache} (h : Accounts glyphs (pointersOf cache.GlyphCache.entries ++ holders)) :
    ∃ next glyphs', cache.makeRoom glyphs = .ok (next, glyphs') ∧
      Accounts glyphs' (pointersOf next.GlyphCache.entries ++ holders) ∧ Room cache next := by
  unfold FontCache.makeRoom
  by_cases hfull : FREETYPE_REQCOUNTMAX ≤ cache.addcount + 1
  · obtain ⟨next, hnext, hnextAccounts⟩ := CompactMap_spec FREETYPE_GC_COUNTER h
    refine ⟨⟨cache.GlyphCache.dropFirst (cache.GlyphCache.size - FREETYPE_GC_COUNTER), 0⟩, next, ?_,
      hnextAccounts, Or.inl ⟨rfl, rfl⟩⟩
    rw [if_pos hfull]
    simp only [FontCache.Compact, hnext, ok_bind]
  · refine ⟨{ cache with addcount := cache.addcount + 1 }, glyphs, by rw [if_neg hfull], h, Or.inr ?_⟩
    exact ⟨rfl, rfl, by omega⟩

theorem putData_spec {cache : FontCache} (key : ℤ) {drawn : FontCache.Drawn} {a : ℕ}
    (h : Accounts glyphs (pointersOf cache.GlyphCache.entries ++ holders))
    (hdrawn : drawn.glyph = some a) (ha : some a ∈ holders) :
    ∃ data glyphs', cache.putData glyphs key drawn =
        .ok ({ cache with GlyphCache := cache.GlyphCache.insert key data }, glyphs') ∧
      Accounts glyphs' (pointersOf (cache.GlyphCache.insert key data).entries ++ holders) ∧
      PutEntry cache.GlyphCache key drawn data := by
  obtain ⟨rest, hrest, hinsert⟩ := pointersOf_insert cache.GlyphCache key
  have hparts := h.perm ((hrest.append_right holders).symm)
  rw [List.append_assoc] at hparts
  have hheld : some a ∈ rest ++ holders := List.mem_append_right rest ha
  unfold FontCache.putData
  cases hfind : cache.GlyphCache.find key with
  | some data =>
      rw [hfind] at hparts
      obtain ⟨next, hnext, hnextAccounts⟩ := SetGlyph_spec drawn.mode hparts hheld
      rw [← hdrawn] at hnext hnextAccounts
      simp only [hnext, ok_bind]
      refine ⟨_, next, rfl, hnextAccounts.perm ?_, rfl, rfl, data.GetGlyph_withGlyph .., ?_⟩
      · rw [← List.append_assoc]
        exact (hinsert _).append_right holders
      · intro p hp
        exact ⟨data, hfind, (data.otherGlyph_withGlyph ..).symm.trans hp⟩
  | none =>
      rw [hfind] at hparts
      have hnew := hparts.cons_none.cons_none
      let fresh : CharData := ⟨drawn.glyphindex, drawn.width, drawn.gdiWidth, none, none, drawn.AAMode⟩
      obtain ⟨next, hnext, hnextAccounts⟩ := SetGlyph_spec drawn.mode
        (show Accounts glyphs (fresh.pointers ++ (rest ++ holders)) from hnew) hheld
      rw [← hdrawn] at hnext hnextAccounts
      simp only [fresh] at hnext
      simp only [hnext, ok_bind]
      refine ⟨_, next, rfl, hnextAccounts.perm ?_, ?_, ?_, fresh.GetGlyph_withGlyph .., ?_⟩
      · rw [← List.append_assoc]
        exact (hinsert _).append_right holders
      · unfold CharData.withGlyph
        split <;> rfl
      · unfold CharData.withGlyph
        split <;> rfl
      · intro p hp
        have hnull : fresh.otherGlyph drawn.mode = none := by
          unfold CharData.otherGlyph
          split <;> rfl
        exact absurd ((fresh.otherGlyph_withGlyph ..).symm.trans hp) (by rw [hnull]; exact nofun)

/-- What an added glyph does to the cache. -/
def Added (cache next : FontCache) (key : ℤ) (drawn : FontCache.Drawn) : Prop :=
  (65536 ≤ drawn.glyphindex ∧ next = cache) ∨
    drawn.glyphindex < 65536 ∧ ∃ roomy data, Room cache roomy ∧
      next = { roomy with GlyphCache := roomy.GlyphCache.insert key data } ∧
      PutEntry roomy.GlyphCache key drawn data

theorem addData_spec {cache : FontCache} (key : ℤ) {drawn : FontCache.Drawn} {a : ℕ}
    (h : Accounts glyphs (pointersOf cache.GlyphCache.entries ++ holders))
    (hdrawn : drawn.glyph = some a) (ha : some a ∈ holders) :
    ∃ next glyphs', cache.addData glyphs key drawn = .ok (next, glyphs') ∧
      Accounts glyphs' (pointersOf next.GlyphCache.entries ++ holders) ∧ Added cache next key drawn := by
  unfold FontCache.addData
  by_cases hwide : 65536 ≤ drawn.glyphindex
  · exact ⟨cache, glyphs, by rw [if_pos hwide], h, Or.inl ⟨hwide, rfl⟩⟩
  · obtain ⟨roomy, glyphs', hroom, hroomAccounts, hleft⟩ := makeRoom_spec h
    obtain ⟨data, final, hput, hfinal, hentry⟩ := putData_spec key hroomAccounts hdrawn ha
    refine ⟨_, final, ?_, hfinal, Or.inr ⟨by omega, roomy, data, hleft, rfl, hentry⟩⟩
    rw [if_neg hwide, hroom]
    exact hput

/-! ## Loading -/

theorem lookupFor_mem {cache : FontCache} {request : CharRequest} {data : CharData}
    (h : cache.lookupFor request = some data) : ∃ key, (key, data) ∈ cache.GlyphCache.entries := by
  unfold FontCache.lookupFor at h
  by_cases hkind : request.isGlyphIndex = true
  · rw [if_pos hkind] at h
    unfold FontCache.FindGlyphIndex at h
    by_cases hwide : 65536 ≤ request.wch
    · rw [if_pos hwide] at h
      cases h
    · rw [if_neg hwide] at h
      exact ⟨_, Ordered.find_eq_some.1 h⟩
  · rw [if_neg hkind] at h
    exact ⟨_, Ordered.find_eq_some.1 h⟩

/-- A cached character gives its bitmap to the call, unless it has none of the kind asked for. -/
theorem copyCached_spec {cache : FontCache} (request : CharRequest)
    (h : Accounts glyphs (pointersOf cache.GlyphCache.entries ++ holders)) :
    (∃ next p, copyCached cache glyphs request = .ok (next, p) ∧
        Accounts next (p :: (pointersOf cache.GlyphCache.entries ++ holders)) ∧
        (p = none → next = glyphs)) ∨
      copyCached cache glyphs request = .error .nullRead ∧
        ∃ data, cache.lookupFor request = some data ∧ data.GetGlyph request.mode = none := by
  unfold copyCached
  cases hlookup : cache.lookupFor request with
  | none => exact Or.inl ⟨glyphs, none, rfl, h.cons_none, fun _ => rfl⟩
  | some data =>
      cases hglyph : data.GetGlyph request.mode with
      | none =>
          refine Or.inr ⟨?_, data, rfl, hglyph⟩
          simp only [hglyph, FT_Glyph_Ref_Copy, Glyphs.deref, error_bind]
      | some a =>
          have hheld : some a ∈ pointersOf cache.GlyphCache.entries ++ holders := by
            refine List.mem_append_left holders (List.mem_flatMap.2 ?_)
            obtain ⟨key, hkey⟩ := lookupFor_mem hlookup
            refine ⟨(key, data), hkey, (data.pointers_perm request.mode).mem_iff.2 ?_⟩
            rw [hglyph]
            exact List.mem_cons_self ..
          obtain ⟨next, hnext, hnextAccounts⟩ := FT_Glyph_Ref_Copy_spec h hheld
          refine Or.inl ⟨next, some a, ?_, hnextAccounts, fun hnone => nomatch hnone⟩
          simp only [hglyph, hnext, ok_bind, Option.getD_some]

theorem renderGlyph_spec {a : ℕ} (rendered : Bool) (h : Accounts glyphs (some a :: holders)) :
    ∃ next p, renderGlyph glyphs (some a) rendered = .ok (next, p) ∧ Accounts next (p :: holders) := by
  obtain ⟨r, hr, -⟩ := h.counted.exists_of_mem (List.mem_cons_self ..)
  obtain ⟨format, hformat, hne⟩ := h.drawable a r hr
  simp only [renderGlyph, deref_some hr, ok_bind]
  rw [hformat]
  cases format with
  | none => exact absurd rfl hne
  | bitmap => exact ⟨glyphs, some a, rfl, h⟩
  | other =>
      cases rendered with
      | true =>
          refine ⟨_, some a, rfl, h.counted.replace hr rfl, ?_⟩
          exact drawable_set h.drawable rfl (by decide)
      | false =>
          obtain ⟨next, hnext, hnextAccounts⟩ := FT_Done_Ref_Glyph_spec h
          refine ⟨next, none, ?_, hnextAccounts.cons_none⟩
          simp only [hnext, ok_bind, Bool.false_eq_true, if_false]

/-- A glyph without a format is freed again; every other one gets the call as its only holder. -/
theorem loadGlyph_spec {glyph : LoadedGlyph} (h : Accounts glyphs holders)
    (hfree : glyphs glyph.address = none) {format : Format} (hcopied : glyph.copied = some format) :
    ∃ next p, loadGlyph glyphs glyph = .ok (next, p) ∧ Accounts next (p :: holders) := by
  have halloc := h.counted.alloc hfree (r := (⟨glyph.copied, 1⟩ : ReferencedGlyph)) rfl
  by_cases hformat : format = .none
  · -- the record that could not be copied is the one that is given up
    have hcopy : FT_Glyph_Ref_Copy (Memory.set glyphs glyph.address (some ⟨glyph.copied, 1⟩))
        (some glyph.address) =
          .ok (Memory.set glyphs glyph.address (some ⟨glyph.copied, 1⟩), none) := by
      simp only [FT_Glyph_Ref_Copy, deref_some (Memory.set_self ..), ok_bind, hcopied, hformat]
      exact if_neg (by decide)
    have hgiven : FT_Done_Ref_Glyph (Memory.set glyphs glyph.address (some ⟨glyph.copied, 1⟩))
        (some glyph.address) = .ok (Memory.set (Memory.set glyphs glyph.address (some ⟨glyph.copied, 1⟩))
          glyph.address none) := by
      simp only [FT_Done_Ref_Glyph, deref_some (Memory.set_self ..), ok_bind]
      exact if_pos (by decide)
    refine ⟨Memory.set (Memory.set glyphs glyph.address (some ⟨glyph.copied, 1⟩)) glyph.address none, none,
      ?_, Accounts.cons_none ⟨halloc.release_last (Memory.set_self ..) rfl, ?_⟩⟩
    · simp only [loadGlyph, hcopy, hgiven, ok_bind]
    · intro b s hb
      by_cases hb' : b = glyph.address
      · rw [hb', Memory.set_self] at hb
        cases hb
      · rw [Memory.set_of_ne _ _ hb', Memory.set_of_ne _ _ hb'] at hb
        exact h.drawable b s hb
  · have hnew : Accounts (Memory.set glyphs glyph.address (some ⟨glyph.copied, 1⟩))
        (some glyph.address :: holders) := ⟨halloc, drawable_set h.drawable hcopied hformat⟩
    obtain ⟨copied, hcopy, hcopyAccounts⟩ := FT_Glyph_Ref_Copy_spec hnew (List.mem_cons_self ..)
    obtain ⟨given, hgiven, hgivenAccounts⟩ := FT_Done_Ref_Glyph_spec hcopyAccounts
    obtain ⟨next, p, hnext, hnextAccounts⟩ := renderGlyph_spec glyph.rendered hgivenAccounts
    refine ⟨next, p, ?_, hnextAccounts⟩
    simp only [loadGlyph, hcopy, hgiven, ok_bind]
    exact hnext

theorem loadGlyph_null {glyph : LoadedGlyph} (hcopied : glyph.copied = none) :
    loadGlyph glyphs glyph = .error .nullRead := by
  simp only [loadGlyph, FT_Glyph_Ref_Copy, deref_some (Memory.set_self ..), ok_bind, hcopied]
  rfl

end Steps

/-! ## Runs -/

namespace World

def holders (w : World) : List Pointer := pointersOf w.cache.GlyphCache.entries ++ w.places

def Accounted (w : World) : Prop := Accounts w.glyphs w.holders

theorem accounted_start : start.Accounted := ⟨Counted.empty, fun _ _ h => nomatch h⟩

/-- Filling an empty place adds one holder. -/
theorem count_set_empty {places : List Pointer} {place : ℕ} (h : places[place]? = some none) (p : Pointer)
    (a : ℕ) : (places.set place p).count (some a) = (p :: places).count (some a) := by
  obtain ⟨hlt, hnone⟩ := List.getElem?_eq_some_iff.1 h
  rw [List.count_set hlt, hnone, List.count_cons]
  simp

theorem Accounts_fill {w : World} {glyphs : Glyphs} {place : ℕ} {p : Pointer}
    (hplace : w.places[place]? = some none) (h : Accounts glyphs (p :: w.holders)) :
    Accounts glyphs (pointersOf w.cache.GlyphCache.entries ++ w.places.set place p) := by
  refine h.congr fun a => ?_
  rw [holders, List.count_append, count_set_empty hplace, List.count_cons, List.count_cons,
    List.count_append]
  omega

theorem addFor_eq (cache : FontCache) (glyphs : Glyphs) (request : CharRequest) (glyph : LoadedGlyph)
    (bitmap : Pointer) :
    cache.addFor glyphs request (drawnOf request glyph bitmap) =
      cache.addData glyphs (keptKey request glyph) (drawnOf request glyph bitmap) := by
  unfold FontCache.addFor keptKey
  by_cases hkind : request.isGlyphIndex = true
  · rw [if_pos hkind, if_pos hkind]
    rfl
  · rw [if_neg hkind, if_neg hkind]
    rfl

/-- What one step does to the cache and to the record of what it was given. -/
def CacheStep (w next : World) : Prop :=
  (next.cache = w.cache ∧ next.handed = w.handed) ∨
    (∃ key drawn, next.handed = (key, drawn) :: w.handed ∧ Added w.cache next.cache key drawn) ∨
    next.cache = { w.cache with GlyphCache := .empty } ∧ next.handed = w.handed

theorem keep_spec {w : World} {request : CharRequest} {glyph : LoadedGlyph} {a : ℕ} (h : w.Accounted)
    (ha : some a ∈ w.places) :
    ∃ next, w.keep request glyph (some a) = .ok next ∧ next.Accounted ∧ w.CacheStep next := by
  unfold keep
  by_cases hzero : glyph.glyphindex = 0
  · exact ⟨w, by rw [if_pos hzero], h, Or.inl ⟨rfl, rfl⟩⟩
  · obtain ⟨cache, glyphs, hadd, haccounts, hadded⟩ := addData_spec (keptKey request glyph) h
      (show (drawnOf request glyph (some a)).glyph = some a from rfl) ha
    rw [if_neg hzero]
    simp only [addFor_eq, hadd, ok_bind]
    exact ⟨_, rfl, haccounts, Or.inr (Or.inl ⟨_, _, rfl, hadded⟩)⟩

theorem draw_spec {w : World} {place : ℕ} {request : CharRequest} {loading : Loading} (h : w.Accounted)
    (hlegal : w.Legal (.draw place request loading)) :
    (∃ next, w.draw place request loading = .ok next ∧ next.Accounted ∧ w.CacheStep next) ∨
      w.draw place request loading = .error .nullRead ∧ w.ReadsNull (.draw place request loading) := by
  have hplace : w.places[place]? = some none := by
    cases loading with
    | notFound => exact hlegal
    | lookupFailed => exact hlegal
    | loaded glyph => exact hlegal.1
  have hlt : place < w.places.length := (List.getElem?_eq_some_iff.1 hplace).1
  have hunread : ∀ {glyphs : Glyphs} {places : List Pointer},
      w.CacheStep { w with glyphs := glyphs, places := places } := Or.inl ⟨rfl, rfl⟩
  unfold draw
  rcases copyCached_spec request h with ⟨glyphs, p, hcopy, haccounts, hsame⟩ | ⟨hfault, hnull⟩
  · rw [hcopy, ok_bind]
    cases p with
    | some a => exact Or.inl ⟨_, rfl, Accounts_fill hplace haccounts, hunread⟩
    | none =>
        have hunchanged := haccounts.of_cons_none
        cases loading with
        | notFound => exact Or.inl ⟨_, rfl, hunchanged, hunread⟩
        | lookupFailed => exact Or.inl ⟨_, rfl, hunchanged, hunread⟩
        | loaded glyph =>
            obtain rfl := hsame rfl
            cases hcopied : glyph.copied with
            | none =>
                refine Or.inr ⟨?_, Or.inr ⟨glyph, rfl, hcopied⟩⟩
                simp only [loadGlyph_null hcopied, error_bind]
                rfl
            | some format =>
                obtain ⟨next, p, hload, hloadAccounts⟩ := loadGlyph_spec hunchanged hlegal.2 hcopied
                have hfilled := Accounts_fill hplace hloadAccounts
                cases p with
                | none =>
                    refine Or.inl ⟨{ w with glyphs := next, places := w.places.set place none }, ?_, hfilled,
                      hunread⟩
                    simp only [hload, ok_bind]
                    rfl
                | some a =>
                    have hheld : some a ∈ w.places.set place (some a) := List.mem_set hlt (some a)
                    obtain ⟨last, hkeep, hlast, hcache⟩ := keep_spec
                      (w := { w with glyphs := next, places := w.places.set place (some a) }) hfilled hheld
                    refine Or.inl ⟨last, ?_, hlast, hcache⟩
                    simp only [hload, ok_bind]
                    exact hkeep
  · refine Or.inr ⟨?_, Or.inl hnull⟩
    rw [hfault]
    rfl

theorem release_spec {w : World} (place : ℕ) (h : w.Accounted) :
    ∃ next, w.release place = .ok next ∧ next.Accounted ∧ w.CacheStep next := by
  unfold release
  cases hplace : w.places[place]? with
  | none =>
      refine ⟨_, rfl, ?_, Or.inl ⟨rfl, rfl⟩⟩
      have hout : w.places.length ≤ place := List.getElem?_eq_none_iff.1 hplace
      show Accounts w.glyphs (_ ++ w.places.set place none)
      rw [List.set_eq_of_length_le hout]
      exact h
  | some p =>
      obtain ⟨hlt, hp⟩ := List.getElem?_eq_some_iff.1 hplace
      have hcount : ∀ a, (p :: (pointersOf w.cache.GlyphCache.entries ++ w.places.set place none)).count
          (some a) = w.holders.count (some a) := by
        intro a
        have hpos : w.places[place] = some a → 0 < w.places.count (some a) := fun heq =>
          List.count_pos_iff.2 (heq ▸ List.getElem_mem hlt)
        rw [holders, List.count_cons, List.count_append, List.count_append, List.count_set hlt, hp]
        rw [hp] at hpos
        by_cases hpa : p = some a
        · have := hpos hpa
          subst hpa
          simp only [beq_self_eq_true, if_true]
          simp
          omega
        · simp [hpa]
      obtain ⟨next, hnext, hnextAccounts⟩ := giveUp_spec (h.congr hcount)
      refine ⟨{ w with glyphs := next, places := w.places.set place none }, ?_, hnextAccounts,
        Or.inl ⟨rfl, rfl⟩⟩
      simp only [Option.getD_some, hnext, ok_bind]

theorem erase_spec {w : World} (h : w.Accounted) :
    ∃ next, w.erase = .ok next ∧ next.Accounted ∧ w.CacheStep next := by
  obtain ⟨next, hnext, hnextAccounts⟩ := destroyAll_spec _ h
  refine ⟨{ w with cache := { w.cache with GlyphCache := .empty }, glyphs := next }, ?_, hnextAccounts,
    Or.inr (Or.inr ⟨rfl, rfl⟩)⟩
  simp only [erase, FontCache.Erase, hnext, ok_bind]

theorem step_spec {w : World} {event : DrawEvent} (h : w.Accounted) (hlegal : w.Legal event) :
    (∃ next, w.step event = .ok next ∧ next.Accounted ∧ w.CacheStep next) ∨
      w.step event = .error .nullRead ∧ w.ReadsNull event := by
  cases event with
  | begin cbString =>
      refine Or.inl ⟨_, rfl, h.congr fun a => ?_, Or.inl ⟨rfl, rfl⟩⟩
      show (_ ++ (w.places ++ List.replicate cbString none)).count (some a) = _
      rw [holders, List.count_append, List.count_append, List.count_append, List.count_replicate]
      simp
  | draw place request loading => exact draw_spec h hlegal
  | release place => exact Or.inl (release_spec place h)
  | erase => exact Or.inl (erase_spec h)

theorem run_spec : ∀ (events : List DrawEvent) {w : World}, w.Accounted → w.LegalRun events →
    (∃ last, w.run events = .ok last ∧ last.Accounted) ∨
      ∃ before event after stopped, events = before ++ event :: after ∧ w.run before = .ok stopped ∧
        stopped.Accounted ∧ stopped.ReadsNull event ∧ w.run events = .error .nullRead
  | [], w, h, _ => Or.inl ⟨w, rfl, h⟩
  | event :: rest, w, h, hlegal => by
      rcases step_spec h hlegal.1 with ⟨next, hnext, hnextAccounted, -⟩ | ⟨hfault, hnull⟩
      · have hrun : ∀ events, w.run (event :: events) = next.run events := by
          intro events
          rw [run, hnext, ok_bind]
        rcases run_spec rest hnextAccounted (hlegal.2 next hnext) with
          ⟨last, hlast, hlastAccounted⟩ | ⟨before, stop, after, stopped, hsplit, hbefore, hstopped, hnull, hfault⟩
        · exact Or.inl ⟨last, (hrun rest).trans hlast, hlastAccounted⟩
        · exact Or.inr ⟨event :: before, stop, after, stopped, congrArg (event :: ·) hsplit,
            (hrun before).trans hbefore, hstopped, hnull, (hrun rest).trans hfault⟩
      · refine Or.inr ⟨[], event, rest, w, rfl, rfl, h, hnull, ?_⟩
        rw [run, hfault, error_bind]

/-- In every legal run each glyph counts exactly the places and cache entries that hold it, and is
freed with the last of them. Nothing is read after it was freed; the one fault there can be is a
null read, where a cached character has no bitmap of the kind asked for or FreeType made no copy. -/
theorem run_accounted (events : List DrawEvent) (hlegal : start.LegalRun events) :
    (∃ w, start.run events = .ok w ∧ w.Accounted ∧
        ((∀ p ∈ w.places, p = none) → w.cache.GlyphCache.entries = [] → ∀ a, w.glyphs a = none)) ∨
      ∃ before event after w, events = before ++ event :: after ∧ start.run before = .ok w ∧
        w.Accounted ∧ w.ReadsNull event ∧ start.run events = .error .nullRead := by
  rcases run_spec events accounted_start hlegal with ⟨w, hrun, h⟩ | hstopped
  · refine Or.inl ⟨w, hrun, h, fun hplaces hentries => h.counted.memory_empty fun p hp => ?_⟩
    rw [holders, hentries] at hp
    exact hplaces p hp
  · exact Or.inr hstopped

/-- A character is loaded, found again by a second call, and given up by everyone. -/
def drawnTwice : List DrawEvent :=
  [.begin 2, .draw 0 ⟨false, 65, 12, .lcd⟩ (.loaded ⟨36, 7, .lcd, 2, 0, some .other, true⟩),
    .draw 1 ⟨false, 65, 12, .lcd⟩ .notFound, .release 0, .erase, .release 1]

theorem legalRun_cons {w next : World} {event : DrawEvent} {rest : List DrawEvent} (hlegal : w.Legal event)
    (hstep : w.step event = .ok next) (hrest : next.LegalRun rest) : w.LegalRun (event :: rest) := by
  refine ⟨hlegal, fun other hother => ?_⟩
  rw [hstep] at hother
  cases hother
  exact hrest

theorem drawnTwice_legal : start.LegalRun drawnTwice := by
  refine legalRun_cons trivial rfl ?_
  refine legalRun_cons ⟨rfl, rfl⟩ rfl ?_
  refine legalRun_cons rfl rfl ?_
  exact legalRun_cons trivial rfl (legalRun_cons trivial rfl (legalRun_cons trivial rfl trivial))

theorem run_accounted_drawn_twice :
    (∃ w, start.run drawnTwice = .ok w ∧ w.Accounted ∧
        ((∀ p ∈ w.places, p = none) → w.cache.GlyphCache.entries = [] → ∀ a, w.glyphs a = none)) ∨
      ∃ before event after w, drawnTwice = before ++ event :: after ∧ start.run before = .ok w ∧
        w.Accounted ∧ w.ReadsNull event ∧ start.run drawnTwice = .error .nullRead :=
  run_accounted drawnTwice drawnTwice_legal

end World

/-! ## What is found -/

/-- The newest glyph the cache was given under a key. -/
def lastHanded (handed : List (ℤ × FontCache.Drawn)) (key : ℤ) : Option FontCache.Drawn :=
  (handed.find? fun e => decide (e.1 = key ∧ e.2.glyphindex < 65536)).map Prod.snd

/-- The newest one of those that are black and white, or of those that are not. -/
def lastGlyph (handed : List (ℤ × FontCache.Drawn)) (key : ℤ) (mode : RenderMode) : Option FontCache.Drawn :=
  (handed.find? fun e =>
    decide (e.1 = key ∧ e.2.glyphindex < 65536 ∧ (e.2.mode = .mono ↔ mode = .mono))).map Prod.snd

theorem CharData.GetGlyph_congr (data : CharData) {mode other : RenderMode}
    (h : mode = .mono ↔ other = .mono) : data.GetGlyph mode = data.GetGlyph other := by
  unfold CharData.GetGlyph
  by_cases hmode : mode = .mono
  · rw [if_pos hmode, if_pos (h.1 hmode)]
  · rw [if_neg hmode, if_neg fun hother => hmode (h.2 hother)]

theorem CharData.GetGlyph_eq_other (data : CharData) {mode other : RenderMode}
    (h : ¬(mode = .mono ↔ other = .mono)) : data.GetGlyph other = data.otherGlyph mode := by
  unfold CharData.GetGlyph CharData.otherGlyph
  by_cases hmode : mode = .mono
  · have hother : other ≠ .mono := fun ho => h ⟨fun _ => ho, fun _ => hmode⟩
    rw [if_pos hmode, if_neg hother]
  · have hother : other = .mono := by
      by_contra ho
      exact h ⟨fun hm => absurd hm hmode, fun hm => absurd hm ho⟩
    rw [if_neg hmode, if_pos hother]

/-- The cache is bounded, and what it holds is the newest it was given. -/
structure Current (cache : FontCache) (handed : List (ℤ × FontCache.Drawn)) : Prop where
  adds : cache.addcount < FREETYPE_REQCOUNTMAX
  size : cache.GlyphCache.size ≤ FREETYPE_GC_COUNTER + 1 + cache.addcount
  widths : ∀ key data, cache.GlyphCache.find key = some data →
    ∃ drawn, lastHanded handed key = some drawn ∧ data.width = drawn.width ∧ data.gdiWidth = drawn.gdiWidth
  glyphs : ∀ key data mode a, cache.GlyphCache.find key = some data → data.GetGlyph mode = some a →
    ∃ drawn, lastGlyph handed key mode = some drawn ∧ drawn.glyph = some a
  newest : ∀ key drawn, handed.head? = some (key, drawn) → drawn.glyphindex < 65536 →
    cache.GlyphCache.entries = [] ∨
      ∃ data, cache.GlyphCache.find key = some data ∧ data.GetGlyph drawn.mode = drawn.glyph

namespace Current

variable {cache next roomy : FontCache} {handed : List (ℤ × FontCache.Drawn)} {key : ℤ}
  {drawn : FontCache.Drawn} {data : CharData}

theorem start : Current .empty [] where
  adds := by decide
  size := Nat.zero_le _
  widths _ _ h := nomatch h
  glyphs _ _ _ _ h := nomatch h
  newest _ _ h := nomatch h

theorem erase (h : Current cache handed) : Current { cache with GlyphCache := .empty } handed where
  adds := h.adds
  size := Nat.zero_le _
  widths _ _ h := nomatch h
  glyphs _ _ _ _ h := nomatch h
  newest _ _ _ _ := Or.inl rfl

theorem find_room (hroom : Room cache roomy) (hfind : roomy.GlyphCache.find key = some data) :
    cache.GlyphCache.find key = some data := by
  rcases hroom with ⟨-, hmap⟩ | ⟨-, hmap, -⟩
  · rw [hmap] at hfind
    exact Ordered.find_of_find_dropFirst hfind
  · rwa [hmap] at hfind

theorem size_room (h : Current cache handed) (hroom : Room cache roomy) :
    roomy.addcount < FREETYPE_REQCOUNTMAX ∧
      roomy.GlyphCache.size ≤ FREETYPE_GC_COUNTER + roomy.addcount := by
  rcases hroom with ⟨hcount, hmap⟩ | ⟨hcount, hmap, hlt⟩
  · rw [hcount, hmap, Ordered.size_dropFirst]
    exact ⟨by decide, by omega⟩
  · have hsize := h.size
    rw [hcount, hmap]
    exact ⟨hlt, by omega⟩

theorem size_insert_le (entries : CharMap) (key : ℤ) (data : CharData) :
    (entries.insert key data).size ≤ entries.size + 1 := by
  cases hfind : entries.find key with
  | none => rw [Ordered.size_insert_of_new hfind]
  | some old =>
      rw [Ordered.size_insert_of_find hfind]
      omega

theorem lastHanded_cons_of_ne {other : ℤ} (hne : other ≠ key) :
    lastHanded ((key, drawn) :: handed) other = lastHanded handed other := by
  unfold lastHanded
  rw [List.find?_cons_of_neg (by simpa using fun h => absurd h.symm hne)]

theorem lastHanded_cons_wide {other : ℤ} (hwide : 65536 ≤ drawn.glyphindex) :
    lastHanded ((key, drawn) :: handed) other = lastHanded handed other := by
  unfold lastHanded
  rw [List.find?_cons_of_neg (by simpa using fun _ => hwide)]

theorem lastHanded_cons_self (hnarrow : drawn.glyphindex < 65536) :
    lastHanded ((key, drawn) :: handed) key = some drawn := by
  unfold lastHanded
  rw [List.find?_cons_of_pos (by simpa using hnarrow)]
  rfl

theorem lastGlyph_cons_skip {other : ℤ} {mode : RenderMode}
    (h : ¬(key = other ∧ drawn.glyphindex < 65536 ∧ (drawn.mode = .mono ↔ mode = .mono))) :
    lastGlyph ((key, drawn) :: handed) other mode = lastGlyph handed other mode := by
  unfold lastGlyph
  rw [List.find?_cons_of_neg (by simpa using h)]

theorem lastGlyph_cons_self {mode : RenderMode} (hnarrow : drawn.glyphindex < 65536)
    (hmode : drawn.mode = .mono ↔ mode = .mono) :
    lastGlyph ((key, drawn) :: handed) key mode = some drawn := by
  unfold lastGlyph
  rw [List.find?_cons_of_pos (by simpa using ⟨hnarrow, hmode⟩)]
  rfl

theorem add (h : Current cache handed) (hadded : Added cache next key drawn) :
    Current next ((key, drawn) :: handed) := by
  rcases hadded with ⟨hwide, rfl⟩ | ⟨hnarrow, roomy, data, hroom, rfl, hentry⟩
  · -- a glyph number beyond 16 bits is not kept
    refine ⟨h.adds, h.size, fun other found hfound => ?_, fun other found mode a hfound hglyph => ?_, ?_⟩
    · rw [lastHanded_cons_wide hwide]
      exact h.widths other found hfound
    · rw [lastGlyph_cons_skip (by omega)]
      exact h.glyphs other found mode a hfound hglyph
    · intro other newest hhead hlt
      cases hhead
      omega
  · obtain ⟨hadds, hsize⟩ := h.size_room hroom
    have hinsert := size_insert_le roomy.GlyphCache key data
    have hbound : (roomy.GlyphCache.insert key data).size ≤ FREETYPE_GC_COUNTER + 1 + roomy.addcount := by
      omega
    refine ⟨hadds, hbound, fun other found hfound => ?_,
      fun other found mode a hfound hglyph => ?_, ?_⟩
    · by_cases hkey : other = key
      · subst hkey
        rw [Ordered.find_insert_self] at hfound
        cases hfound
        exact ⟨drawn, lastHanded_cons_self hnarrow, hentry.width, hentry.gdiWidth⟩
      · rw [Ordered.find_insert_of_ne _ hkey] at hfound
        rw [lastHanded_cons_of_ne hkey]
        exact h.widths other found (find_room hroom hfound)
    · by_cases hkey : other = key
      · subst hkey
        rw [Ordered.find_insert_self] at hfound
        cases hfound
        by_cases hmode : drawn.mode = .mono ↔ mode = .mono
        · refine ⟨drawn, lastGlyph_cons_self hnarrow hmode, ?_⟩
          rw [← hentry.glyph, data.GetGlyph_congr hmode]
          exact hglyph
        · -- the bitmap of the other kind was there before
          rw [data.GetGlyph_eq_other hmode] at hglyph
          obtain ⟨old, hold, hother⟩ := hentry.other a hglyph
          rw [lastGlyph_cons_skip fun hall => hmode hall.2.2]
          rw [← old.GetGlyph_eq_other hmode] at hother
          exact h.glyphs other old mode a (find_room hroom hold) hother
      · rw [Ordered.find_insert_of_ne _ hkey] at hfound
        rw [lastGlyph_cons_skip fun hall => hkey hall.1.symm]
        exact h.glyphs other found mode a (find_room hroom hfound) hglyph
    · intro other newest hhead _
      cases hhead
      exact Or.inr ⟨data, Ordered.find_insert_self .., hentry.glyph⟩

end Current

namespace World

theorem CacheStep.current {w next : World} (hstep : w.CacheStep next) (h : Current w.cache w.handed) :
    Current next.cache next.handed := by
  rcases hstep with ⟨hcache, hhanded⟩ | ⟨key, drawn, hhanded, hadded⟩ | ⟨hcache, hhanded⟩
  · rwa [hcache, hhanded]
  · rw [hhanded]
    exact h.add hadded
  · rw [hcache, hhanded]
    exact h.erase

theorem run_current : ∀ (events : List DrawEvent) {w last : World}, w.Accounted →
    Current w.cache w.handed → w.LegalRun events → w.run events = .ok last →
      last.Accounted ∧ Current last.cache last.handed
  | [], w, last, h, hcurrent, _, hrun => by
      cases hrun
      exact ⟨h, hcurrent⟩
  | event :: rest, w, last, h, hcurrent, hlegal, hrun => by
      rcases step_spec h hlegal.1 with ⟨next, hnext, hnextAccounted, hstep⟩ | ⟨hfault, -⟩
      · rw [run, hnext, ok_bind] at hrun
        exact run_current rest hnextAccounted (hstep.current hcurrent) (hlegal.2 next hnext) hrun
      · rw [run, hfault, error_bind] at hrun
        cases hrun

/-- The key a request is looked up under. -/
def requestKey (request : CharRequest) : ℤ :=
  if request.isGlyphIndex then FontCache.glyphKey request.wch else FontCache.charKey request.wch

theorem find_of_lookupFor {cache : FontCache} {request : CharRequest} {data : CharData}
    (h : cache.lookupFor request = some data) : cache.GlyphCache.find (requestKey request) = some data := by
  unfold FontCache.lookupFor at h
  unfold requestKey
  by_cases hkind : request.isGlyphIndex = true
  · rw [if_pos hkind] at h ⊢
    unfold FontCache.FindGlyphIndex at h
    by_cases hwide : 65536 ≤ request.wch
    · rw [if_pos hwide] at h
      cases h
    · rwa [if_neg hwide] at h
  · rw [if_neg hkind] at h ⊢
    exact h

/-- However long the drawing goes on, the cache stays below 3073 entries. What it finds has the
widths it was last given under that key and the live glyph of the kind it was last given; and the
newest glyph is found, unless the cache was cleared. -/
theorem lookups_current (events : List DrawEvent) {w : World} (hlegal : start.LegalRun events)
    (hrun : start.run events = .ok w) :
    w.cache.GlyphCache.size ≤ 3072 ∧
      (∀ request data, w.cache.lookupFor request = some data →
        (∃ drawn, lastHanded w.handed (requestKey request) = some drawn ∧ data.width = drawn.width ∧
          data.gdiWidth = drawn.gdiWidth) ∧
        ∀ a, data.GetGlyph request.mode = some a →
          (∃ r, w.glyphs a = some r) ∧
            ∃ drawn, lastGlyph w.handed (requestKey request) request.mode = some drawn ∧
              drawn.glyph = some a) ∧
      ∀ key drawn, w.handed.head? = some (key, drawn) → drawn.glyphindex < 65536 →
        w.cache.GlyphCache.entries = [] ∨
          ∃ data, w.cache.GlyphCache.find key = some data ∧ data.GetGlyph drawn.mode = drawn.glyph := by
  obtain ⟨haccounted, hcurrent⟩ := run_current events accounted_start Current.start hlegal hrun
  have hadds := hcurrent.adds
  have hsize := hcurrent.size
  rw [FREETYPE_REQCOUNTMAX] at hadds
  rw [FREETYPE_GC_COUNTER] at hsize
  refine ⟨by omega, fun request data hlookup => ⟨?_, fun a hglyph => ⟨?_, ?_⟩⟩, hcurrent.newest⟩
  · exact hcurrent.widths _ data (find_of_lookupFor hlookup)
  · have hmem : some a ∈ w.holders := by
      refine List.mem_append_left _ (List.mem_flatMap.2 ⟨(requestKey request, data), ?_, ?_⟩)
      · exact Ordered.find_eq_some.1 (find_of_lookupFor hlookup)
      · refine (data.pointers_perm request.mode).mem_iff.2 ?_
        rw [hglyph]
        exact List.mem_cons_self ..
    obtain ⟨r, hr, -⟩ := haccounted.counted.exists_of_mem hmem
    exact ⟨r, hr⟩
  · exact hcurrent.glyphs _ data request.mode a (find_of_lookupFor hlookup) hglyph

theorem drawnOnce_legal : start.LegalRun (drawnTwice.take 2) := by
  refine legalRun_cons trivial rfl ?_
  exact legalRun_cons ⟨rfl, rfl⟩ rfl trivial

theorem lookups_current_drawn_once :
    ∃ w data, start.run (drawnTwice.take 2) = .ok w ∧
      w.cache.lookupFor ⟨false, 65, 12, .lcd⟩ = some data ∧
      ∃ drawn, lastHanded w.handed 65 = some drawn ∧ data.width = drawn.width ∧
        data.gdiWidth = drawn.gdiWidth :=
  ⟨_, ⟨36, 12, 7, some 0, none, 2⟩, rfl, rfl,
    ((lookups_current (drawnTwice.take 2) drawnOnce_legal rfl).2.1 ⟨false, 65, 12, .lcd⟩ _ rfl).1⟩

end World

end MacTypeControl.Engine
