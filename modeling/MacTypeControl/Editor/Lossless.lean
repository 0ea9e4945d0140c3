import MacTypeControl.Checks
import MacTypeControl.Editor.Document

/-!
# What is opened is written back

A document that is not edited is encoded to the bytes that it was opened from.
-/

namespace MacTypeControl.Editor

open Text

/-! ## UTF-16 -/

theorem toNat_unit (low high : UInt8) :
    (low.toUInt16 + high.toUInt16 * 256).toNat = low.toNat + 256 * high.toNat := by
  have hlow := low.toNat_lt
  have hhigh := high.toNat_lt
  simp
  omega

theorem flatMap_unitsLe (bytes : Bytes) (h : bytes.length % 2 = 0) :
    (unitsLe bytes).flatMap unitToLeBytes = bytes := by
  fun_induction unitsLe bytes with
  | case1 low high rest ih =>
    have hlow := low.toNat_lt
    rw [List.flatMap_cons, ih (by simp only [List.length_cons] at h; omega), unitToLeBytes,
      toNat_unit,
      show (low.toNat + 256 * high.toNat) % 256 = low.toNat by omega,
      show (low.toNat + 256 * high.toNat) / 256 = high.toNat by omega]
    simp
  | case2 bytes hshort =>
    match bytes with
    | [] => rfl
    | [_] => simp at h
    | low :: high :: rest => exact absurd rfl (hshort low high rest)

theorem flatMap_unitsBe (bytes : Bytes) (h : bytes.length % 2 = 0) :
    (unitsBe bytes).flatMap unitToBeBytes = bytes := by
  fun_induction unitsBe bytes with
  | case1 high low rest ih =>
    have hlow := low.toNat_lt
    rw [List.flatMap_cons, ih (by simp only [List.length_cons] at h; omega), unitToBeBytes,
      toNat_unit,
      show (low.toNat + 256 * high.toNat) % 256 = low.toNat by omega,
      show (low.toNat + 256 * high.toNat) / 256 = high.toNat by omega]
    simp
  | case2 bytes hshort =>
    match bytes with
    | [] => rfl
    | [_] => simp at h
    | high :: low :: rest => exact absurd rfl (hshort high low rest)

theorem encodeUtf16Char_unit {unit : UInt16} (h : isSurrogate unit = false) :
    encodeUtf16Char (Char.ofNat unit.toNat) = [unit] := by
  have hlt := unit.toNat_lt
  have hvalid : unit.toNat.isValidChar := by
    simp only [isSurrogate, Bool.and_eq_false_iff, decide_eq_false_iff_not, UInt16.le_iff_toNat_le]
      at h
    have hbounds : ¬0xD800 ≤ unit.toNat ∨ ¬unit.toNat ≤ 0xDFFF := h
    unfold Nat.isValidChar
    omega
  rw [encodeUtf16Char, toNat_ofNat hvalid, if_pos hlt, UInt16.ofNat_toNat]

theorem encodeUtf16Char_pair {high low : UInt16} (hsurrogate : isSurrogate high = true)
    (hhigh : isLowSurrogate high = false) (hlow : isLowSurrogate low = true) :
    encodeUtf16Char (ofSurrogates high low) = [high, low] := by
  simp only [isSurrogate, isLowSurrogate, Bool.and_eq_true, Bool.and_eq_false_iff,
    decide_eq_true_eq, decide_eq_false_iff_not, UInt16.le_iff_toNat_le] at hsurrogate hhigh hlow
  have hfirst : 0xD800 ≤ high.toNat ∧ high.toNat ≤ 0xDFFF := hsurrogate
  have hnotlow : ¬0xDC00 ≤ high.toNat ∨ ¬high.toNat ≤ 0xDFFF := hhigh
  have hsecond : 0xDC00 ≤ low.toNat ∧ low.toNat ≤ 0xDFFF := hlow
  have hvalid : (0x10000 + (high.toNat - 0xD800) * 0x400 + (low.toNat - 0xDC00)).isValidChar := by
    unfold Nat.isValidChar
    omega
  have hhighUnit : 0xD800 + (0x10000 + (high.toNat - 0xD800) * 0x400 + (low.toNat - 0xDC00) -
      0x10000) / 0x400 = high.toNat := by omega
  have hlowUnit : 0xDC00 + (0x10000 + (high.toNat - 0xD800) * 0x400 + (low.toNat - 0xDC00) -
      0x10000) % 0x400 = low.toNat := by omega
  rw [encodeUtf16Char, ofSurrogates, toNat_ofNat hvalid, if_neg (by omega), hhighUnit, hlowUnit,
    UInt16.ofNat_toNat, UInt16.ofNat_toNat]

theorem encodeUtf16_of_decodeUtf16 {units : List UInt16} {text : Chars}
    (h : decodeUtf16 units = some text) : encodeUtf16 text = units := by
  fun_induction decodeUtf16 units generalizing text with
  | case1 =>
    obtain rfl := Option.some.inj h
    rfl
  | case2 unit rest hplain ih =>
    obtain ⟨text, hrest, rfl⟩ := Option.map_eq_some_iff.mp h
    have hunit := encodeUtf16Char_unit (by simpa using hplain)
    rw [encodeUtf16, List.flatMap_cons, hunit, ← encodeUtf16, ih hrest, List.singleton_append]
  | case3 => exact absurd h (by simp)
  | case4 unit hsurrogate hhigh low rest hlow ih =>
    obtain ⟨text, hrest, rfl⟩ := Option.map_eq_some_iff.mp h
    have hpair := encodeUtf16Char_pair (by simpa using hsurrogate) (by simpa using hhigh) hlow
    rw [encodeUtf16, List.flatMap_cons, hpair, ← encodeUtf16, ih hrest]
    rfl
  | case5 => exact absurd h (by simp)
  | case6 => exact absurd h (by simp)

/-! ## Decoding and encoding -/

theorem append_drop_of_isPrefixOf {mark bytes : Bytes} (h : mark.isPrefixOf bytes = true) :
    mark ++ bytes.drop mark.length = bytes := by
  obtain ⟨rest, rfl⟩ := List.isPrefixOf_iff_prefix.mp h
  rw [List.drop_left]

theorem decodeUnits_ok {units : Bytes → List UInt16} {body : Bytes} {odd : String} {text : Chars}
    (h : decodeUnits units body odd = .ok text) :
    body.length % 2 = 0 ∧ decodeUtf16 (units body) = some text := by
  unfold decodeUnits at h
  split_ifs at h with hodd
  split at h
  · next found hfound => exact ⟨by omega, by rw [hfound, Except.ok.inj h]⟩
  · exact absurd h (by simp)

theorem mem_of_lastBest {candidates : List (ℤ × Chars × TextEncoding)}
    {best : ℤ × Chars × TextEncoding} (h : lastBest candidates = some best) :
    best ∈ candidates := by
  induction candidates generalizing best with
  | nil => exact absurd h (by simp [lastBest])
  | cons candidate rest ih =>
    unfold lastBest at h
    split at h
    · simp [Option.some.inj h]
    · next found hfound =>
      split_ifs at h
      · simp [Option.some.inj h]
      · exact List.mem_cons_of_mem _ (Option.some.inj h ▸ ih hfound)

theorem legacyCandidate_eq_some {page : CodePage} {encoding : TextEncoding} {bytes : Bytes}
    {found : ℤ × Chars × TextEncoding} (h : legacyCandidate page encoding bytes = some found) :
    page.encode found.2.1 = some bytes ∧ found.2.2 = encoding := by
  simp only [legacyCandidate, Option.bind_eq_bind, Option.bind_eq_some_iff] at h
  obtain ⟨text, -, h⟩ := h
  split_ifs at h with hencode
  obtain rfl := Option.some.inj h
  exact ⟨hencode, rfl⟩

theorem legacyCodec_of_mem {pages : CodePages} {encoding : TextEncoding} {page : CodePage}
    (h : (encoding, page) ∈ pages.candidates) : pages.legacyCodec encoding = some page := by
  simp only [CodePages.candidates, List.mem_cons, List.not_mem_nil, or_false, Prod.mk.injEq] at h
  rcases h with ⟨rfl, rfl⟩ | ⟨rfl, rfl⟩ | ⟨rfl, rfl⟩ | ⟨rfl, rfl⟩ | ⟨rfl, rfl⟩ <;> rfl

/-- Decoded text is encoded to the same bytes, in every encoding and with every mark. -/
theorem encode_of_decode {pages : CodePages} {bytes : Bytes} {text : Chars}
    {encoding : TextEncoding} {bom : BomKind}
    (h : decode pages bytes = .ok (text, encoding, bom)) :
    encode pages text encoding bom = .ok bytes := by
  unfold decode at h
  split_ifs at h with hutf8 hle hbe
  · split at h
    · next found hfound =>
      obtain ⟨rfl, rfl, rfl⟩ : found = text ∧ TextEncoding.utf8 = encoding ∧ BomKind.utf8 = bom :=
        by simpa using h
      have hbody := encodeUtf8_of_fromUtf8 hfound
      simp only [encode, CodePages.legacyCodec, if_true, hbody]
      exact congrArg Except.ok (append_drop_of_isPrefixOf hutf8)
    · exact absurd h (by simp)
  · obtain ⟨found, hfound, hresult⟩ := map_eq_ok.mp h
    obtain ⟨rfl, rfl, rfl⟩ : found = text ∧ TextEncoding.utf16Le = encoding ∧
      BomKind.utf16Le = bom := by simpa using hresult
    obtain ⟨heven, hunits⟩ := decodeUnits_ok hfound
    simp only [encode, CodePages.legacyCodec, reduceCtorEq, if_true, if_false,
      encodeUtf16_of_decodeUtf16 hunits, flatMap_unitsLe _ heven]
    exact congrArg Except.ok (append_drop_of_isPrefixOf hle)
  · obtain ⟨found, hfound, hresult⟩ := map_eq_ok.mp h
    obtain ⟨rfl, rfl, rfl⟩ : found = text ∧ TextEncoding.utf16Be = encoding ∧
      BomKind.utf16Be = bom := by simpa using hresult
    obtain ⟨heven, hunits⟩ := decodeUnits_ok hfound
    simp only [encode, CodePages.legacyCodec, reduceCtorEq, if_true, if_false,
      encodeUtf16_of_decodeUtf16 hunits, flatMap_unitsBe _ heven]
    exact congrArg Except.ok (append_drop_of_isPrefixOf hbe)
  · split at h
    · next found hfound =>
      obtain ⟨rfl, rfl, rfl⟩ : found = text ∧ TextEncoding.utf8 = encoding ∧ BomKind.none = bom :=
        by simpa using h
      simp [encode, CodePages.legacyCodec, encodeUtf8_of_fromUtf8 hfound]
    · split at h
      · next score found foundEncoding hbest =>
        obtain ⟨rfl, rfl, rfl⟩ : found = text ∧ foundEncoding = encoding ∧ BomKind.none = bom := by
          simpa using h
        obtain ⟨⟨candidate, page⟩, hmem, hcandidate⟩ :=
          List.mem_filterMap.mp (mem_of_lastBest hbest)
        obtain ⟨hencode, hencoding⟩ := legacyCandidate_eq_some hcandidate
        have hcodec := legacyCodec_of_mem hmem
        simp only at hencode hencoding
        simp only [encode, hencoding, hcodec, hencode]
      · exact absurd h (by simp)

/-! ## The lines of a code page -/

theorem useLine_next (used rest : OriginalLegacyLines) (line : Chars × Bytes) :
    useLine line.1 (used.map (·, true) ++ (line, false) :: rest.map (·, false)) =
      some (line.2, (used ++ [line]).map (·, true) ++ rest.map (·, false)) := by
  induction used with
  | nil => simp [useLine]
  | cons first used ih => simp [useLine, ih]

/-- Each line finds its own bytes, since those of the lines before it are used. -/
theorem encodeLines_originals (page : CodePage) (used lines : OriginalLegacyLines) :
    encodeLines page (used.map (·, true) ++ lines.map (·, false)) (lines.map Prod.fst) =
      .ok (lines.map Prod.snd).flatten := by
  induction lines generalizing used with
  | nil => rfl
  | cons line rest ih =>
    simp only [List.map_cons, encodeLines, useLine_next, ih, List.flatten_cons]
    rfl

theorem originalLegacyLines_of_encode {pages : CodePages} {page : CodePage} {bytes : Bytes}
    {text : Chars} {encoding : TextEncoding} (hcodec : pages.legacyCodec encoding = some page)
    (h : page.encode text = some bytes) :
    originalLegacyLines pages bytes text encoding =
      some ((splitLines text).zip (splitByteLines bytes)) := by
  have hlength := (page.forall₂_splitLines h).length_eq
  simp only [originalLegacyLines, hcodec, hlength, if_true]

theorem encodePreservingLegacyLines_of_encode {page : CodePage} {bytes : Bytes} {text : Chars}
    (h : page.encode text = some bytes) :
    encodePreservingLegacyLines page (splitLines text)
      ((splitLines text).zip (splitByteLines bytes)) = .ok bytes := by
  have hlength := (page.forall₂_splitLines h).length_eq
  have hencoded := encodeLines_originals page [] ((splitLines text).zip (splitByteLines bytes))
  rw [List.map_fst_zip (le_of_eq hlength), List.map_snd_zip (le_of_eq hlength.symm),
    splitByteLines, flatten_splitByteLinesFrom] at hencoded
  exact hencoded

/-! ## Documents -/

theorem raw_parseLine (current line : Chars) : (parseLine current line).1.raw = line := by
  unfold parseLine
  simp only
  split_ifs <;> rfl

theorem map_raw_parseLines (current : Chars) (lines : List Chars) :
    (parseLines current lines).map IniNode.raw = lines := by
  induction lines generalizing current with
  | nil => rfl
  | cons line rest ih => rw [parseLines, List.map_cons, raw_parseLine, ih]

theorem map_raw_parseNodes (text : Chars) :
    (parseNodes text).map IniNode.raw = splitLines text :=
  map_raw_parseLines [] (splitLines text)

theorem encoded_fromBytes {pages : CodePages} {hash : Bytes → Bytes} {bytes : Bytes}
    {d : ProfileDocument} (hsize : bytes.length ≤ Profile.maxProfileBytes)
    (h : ProfileDocument.fromBytes pages hash bytes = .ok d) : d.encoded pages = .ok bytes := by
  obtain ⟨⟨text, encoding, bom⟩, hdecode, hd⟩ := bind_eq_ok.mp h
  obtain rfl := Except.ok.inj hd
  have hencode := encode_of_decode hdecode
  unfold ProfileDocument.encoded
  simp only [map_raw_parseNodes, flatten_splitLines]
  cases hcodec : pages.legacyCodec encoding with
  | none =>
    simp only [originalLegacyLines, hcodec, hencode]
    exact if_neg (Nat.not_lt.mpr hsize)
  | some page =>
    have hpage : page.encode text = some bytes := by
      simp only [encode, hcodec] at hencode
      split at hencode
      · next found hfound => rw [hfound, Except.ok.inj hencode]
      · exact absurd hencode (by simp)
    simp only [originalLegacyLines_of_encode hcodec hpage,
      encodePreservingLegacyLines_of_encode hpage]
    exact if_neg (Nat.not_lt.mpr hsize)

/-- A file that is decoded is opened, unless it is too long, and is written back as it was. Its
text is cut into lines, and its bytes are cut into the bytes of these lines. -/
theorem opened_lossless (pages : CodePages) (hash : Bytes → Bytes) {bytes : Bytes} {text : Chars}
    {encoding : TextEncoding} {bom : BomKind}
    (hdecode : decode pages bytes = .ok (text, encoding, bom)) :
    (ProfileDocument.openBytes pages hash bytes).bind (·.encoded pages) =
        (if Profile.maxProfileBytes < bytes.length then .error (exceedsLimit "profile")
          else .ok bytes) ∧
      (splitLines text).flatten = text ∧ AreLines (splitLines text) ∧
      (splitByteLines bytes).flatten = bytes ∧
      ∀ page, pages.legacyCodec encoding = some page →
        List.Forall₂ (fun line bytes => page.encode line = some bytes)
          (splitLines text) (splitByteLines bytes) := by
  refine ⟨?_, flatten_splitLines text, areLines_splitLines text,
    flatten_splitByteLinesFrom [] bytes, ?_⟩
  · unfold ProfileDocument.openBytes
    split_ifs with hsize
    · rfl
    · obtain ⟨d, hd⟩ : ∃ d, ProfileDocument.fromBytes pages hash bytes = .ok d :=
        ⟨_, bind_eq_ok.mpr ⟨_, hdecode, rfl⟩⟩
      rw [hd]
      exact encoded_fromBytes (Nat.not_lt.mp hsize) hd
  · intro page hcodec
    have hencode := encode_of_decode hdecode
    simp only [encode, hcodec] at hencode
    split at hencode
    · next found hfound => exact page.forall₂_splitLines (Except.ok.inj hencode ▸ hfound)
    · exact absurd hencode (by simp)

theorem encodeByte_unbroken {limit : ℕ} (hlimit : limit ≤ 256) (c : Char) (bytes : Bytes)
    (h : (if c.toNat < limit then some [UInt8.ofNat c.toNat] else none) = some bytes) :
    bytes ≠ [] ∧ (c ≠ '\n' → 10 ∉ bytes) ∧ (c ≠ '\r' → 13 ∉ bytes) := by
  split_ifs at h with hc
  obtain rfl := Option.some.inj h
  have hvalue : (UInt8.ofNat c.toNat).toNat = c.toNat := UInt8.toNat_ofNat_of_lt'
    (show c.toNat < 256 by omega)
  refine ⟨by simp, fun hfeed hmem => hfeed ?_, fun hreturn hmem => hreturn ?_⟩
  · rw [List.mem_singleton] at hmem
    exact Char.toNat_inj.mp (hvalue.symm.trans (congrArg UInt8.toNat hmem.symm))
  · rw [List.mem_singleton] at hmem
    exact Char.toNat_inj.mp (hvalue.symm.trans (congrArg UInt8.toNat hmem.symm))

/-- The first characters of Unicode, with one byte each. -/
def bytePage (limit : ℕ) (hlow : 13 < limit) (hlimit : limit ≤ 256) : CodePage where
  decode bytes :=
    if bytes.all (·.toNat < limit) then some (bytes.map fun byte => Char.ofNat byte.toNat) else none
  encodeChar c := if c.toNat < limit then some [UInt8.ofNat c.toNat] else none
  lineFeed := if_pos (show ('\n').toNat < limit by simp; omega)
  carriageReturn := if_pos (show ('\r').toNat < limit by simp; omega)
  unbroken := encodeByte_unbroken hlimit

/-- A Western system, without the double bytes of the Eastern pages. -/
def westernPages : CodePages :=
  let ascii := bytePage 128 (by decide) (by decide)
  ⟨ascii, ascii, ascii, ascii, bytePage 256 (by decide) (by decide)⟩

theorem western_file_lossless :
    (ProfileDocument.openBytes westernPages id [0xE9, 13, 10]).bind (·.encoded westernPages) =
      .ok [0xE9, 13, 10] :=
  (opened_lossless westernPages id
    (show decode westernPages [0xE9, 13, 10] = .ok (['é', '\r', '\n'], .windows1252, .none) by
      decide +kernel)).1

end MacTypeControl.Editor
