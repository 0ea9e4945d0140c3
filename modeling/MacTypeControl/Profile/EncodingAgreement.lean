import MacTypeControl.Checks
import MacTypeControl.Profile.TextEncodings

/-!
# One verdict for every encoding

The validation finds the same text behind every mark. Only the UTF-8 branches look for the null
character, and a text that starts with the byte order mark loses it in the UTF-8 branch.
-/

namespace MacTypeControl.Profile

open Text

variable {text : List Char} {bytes : Bytes}

def Accepted (bytes : Bytes) : Prop := validateProfile bytes = .ok ()

instance (bytes : Bytes) : Decidable (Accepted bytes) :=
  decidable_of_iff (validateProfile bytes = .ok ()) Iff.rfl

/-- The structure check takes the text. -/
def WellStructured (text : List Char) : Prop := validateIniStructure (encodeUtf8 text) = .ok ()

instance (text : List Char) : Decidable (WellStructured text) :=
  decidable_of_iff (validateIniStructure (encodeUtf8 text) = .ok ()) Iff.rfl

/-! ## The structure check -/

theorem head_trimAscii {byte : UInt8} (hbyte : isAsciiWhitespace byte = false)
    (rest : Bytes) : (trimAscii (byte :: rest)).head? = some byte := by
  unfold trimAscii
  rw [List.dropWhile_cons_of_neg (by simp [hbyte])]
  rw [List.head?_reverse, List.reverse_cons]
  induction rest.reverse with
  | nil => simp [hbyte]
  | cons last front ih =>
    rw [List.cons_append, List.dropWhile_cons]
    split
    · exact ih
    · rw [← List.cons_append, List.getLast?_concat]

/-- Before the first section a line with other first bytes is an error. -/
theorem validateIniStructure_first {byte : UInt8} (hspace : isAsciiWhitespace byte = false)
    (hfeed : byte ≠ 0x0A) (hmark : byte ≠ 0x3B ∧ byte ≠ 0x23 ∧ byte ≠ 0x5B) (rest : Bytes) :
    validateIniStructure (byte :: rest) = .error .invalidIni := by
  have hlines : ∃ line lines, (byte :: rest).splitOn 0x0A = (byte :: line) :: lines := by
    have hne : (byte == 0x0A) = false := by simpa using hfeed
    unfold List.splitOn
    rw [List.splitOnP_cons_eq_if_modifyHead, hne]
    match hsplit : rest.splitOnP (· == 0x0A) with
    | [] => exact absurd hsplit (List.splitOnP_ne_nil _ rest)
    | line :: lines => exact ⟨line, lines, rfl⟩
  obtain ⟨line, lines, hsplit⟩ := hlines
  have hhead := head_trimAscii hspace line
  have hne : trimAscii (byte :: line) ≠ [] := by
    intro hnil
    rw [hnil] at hhead
    cases hhead
  have hfirst : validateIniLine ⟨false, false, false⟩ (byte :: line) = .error .invalidIni := by
    unfold validateIniLine
    dsimp only
    rw [hhead]
    simp [hne, hmark.1, hmark.2.1, hmark.2.2]
  unfold validateIniStructure
  rw [hsplit, List.foldlM_cons, hfirst]
  rfl

theorem not_wellStructured_mark (rest : List Char) : ¬WellStructured (byteOrderMark :: rest) := by
  unfold WellStructured
  rw [encodeUtf8_cons, utf8EncodeChar_byteOrderMark, List.cons_append,
    validateIniStructure_first (by decide) (by decide) (by decide)]
  simp

theorem not_wellStructured_nil : ¬WellStructured [] := by decide

/-! ## The branches of the validation -/

theorem accepted_utf16_iff {units : Bytes → List UInt16} {body : Bytes}
    (hlength : body.length % 2 = 0) (hdecode : decodeUtf16 (units body) = some text) :
    validateUtf16 units body = .ok () ↔ WellStructured text := by
  unfold validateUtf16
  rw [hlength, hdecode]
  change validateIniStructure (utf8 text) = .ok () ↔ _
  rw [utf8_eq_encodeUtf8]
  rfl

theorem accepted_utf16Le_iff (hsize : (TextEncoding.utf16Le.encode text).length ≤ maxProfileBytes) :
    Accepted (TextEncoding.utf16Le.encode text) ↔ WellStructured text := by
  have hunits : decodeUtf16 (unitsLe ((Editor.encodeUtf16 text).flatMap Editor.unitToLeBytes)) =
      some text := by rw [unitsLe_flatMap, decodeUtf16_encodeUtf16]
  have heven := @even_length_flatMap Editor.unitToLeBytes (fun _ => rfl) (Editor.encodeUtf16 text)
  rw [← accepted_utf16_iff heven hunits]
  unfold Accepted validateProfile
  rw [if_neg (by simpa [TextEncoding.encode] using hsize)]
  rfl

theorem accepted_utf16Be_iff (hsize : (TextEncoding.utf16Be.encode text).length ≤ maxProfileBytes) :
    Accepted (TextEncoding.utf16Be.encode text) ↔ WellStructured text := by
  have hunits : decodeUtf16 (unitsBe ((Editor.encodeUtf16 text).flatMap Editor.unitToBeBytes)) =
      some text := by rw [unitsBe_flatMap, decodeUtf16_encodeUtf16]
  have heven := @even_length_flatMap Editor.unitToBeBytes (fun _ => rfl) (Editor.encodeUtf16 text)
  rw [← accepted_utf16_iff heven hunits]
  unfold Accepted validateProfile
  rw [if_neg (by simpa [TextEncoding.encode] using hsize)]
  rfl

theorem not_utf16_mark {first second : UInt8} (hbytes : ∀ byte ∈ bytes, byte.toNat < 0xF8)
    (hfirst : 0xF8 ≤ first.toNat) : ¬([first, second].isPrefixOf bytes = true) := by
  intro hmark
  obtain ⟨rest, rfl⟩ := List.isPrefixOf_iff_prefix.1 hmark
  exact absurd (hbytes first (List.mem_cons_self ..)) (Nat.not_lt.2 hfirst)

/-- Behind the UTF-8 mark, or without one. -/
theorem accepted_utf8_body_iff {body : List Char} :
    (if (encodeUtf8 body).contains 0 then (.error .invalidIni : Except ProfileError Unit)
      else validateIniStructure (encodeUtf8 body)) = .ok () ↔
      '\x00' ∉ body ∧ WellStructured body := by
  rw [← zero_mem_encodeUtf8]
  split
  · next hnull => exact iff_of_false (by simp) fun h => h.1 (by simpa using hnull)
  · next hnull =>
    rw [and_iff_right (by simpa using hnull)]
    rfl

theorem accepted_bytes_iff (hne : bytes ≠ []) (hsize : bytes.length ≤ maxProfileBytes)
    (hbytes : ∀ byte ∈ bytes, byte.toNat < 0xF8) :
    Accepted bytes ↔
      (if (if [0xEF, 0xBB, 0xBF].isPrefixOf bytes then bytes.drop 3 else bytes).contains 0 then
        (.error .invalidIni : Except ProfileError Unit)
      else validateIniStructure
        (if [0xEF, 0xBB, 0xBF].isPrefixOf bytes then bytes.drop 3 else bytes)) = .ok () := by
  unfold Accepted validateProfile
  rw [if_neg (by simpa [hne] using hsize), if_neg (not_utf16_mark hbytes (by decide)),
    if_neg (not_utf16_mark hbytes (by decide))]

theorem accepted_utf8Bom_iff (hsize : (TextEncoding.utf8Bom.encode text).length ≤ maxProfileBytes) :
    Accepted (TextEncoding.utf8Bom.encode text) ↔ '\x00' ∉ text ∧ WellStructured text := by
  have hbytes : ∀ byte ∈ TextEncoding.utf8Bom.encode text, byte.toNat < 0xF8 := by
    intro byte hbyte
    rcases List.mem_append.1 hbyte with hmark | htext
    · simp only [List.mem_cons, List.not_mem_nil, or_false] at hmark
      rcases hmark with rfl | rfl | rfl <;> decide
    · exact mem_encodeUtf8_lt htext
  have hmark : [0xEF, 0xBB, 0xBF].isPrefixOf (TextEncoding.utf8Bom.encode text) = true :=
    List.isPrefixOf_iff_prefix.2 (List.prefix_append _ _)
  rw [accepted_bytes_iff (by simp [TextEncoding.encode]) hsize hbytes, hmark]
  exact accepted_utf8_body_iff

theorem accepted_utf8_iff (hsize : (TextEncoding.utf8.encode text).length ≤ maxProfileBytes) :
    Accepted (TextEncoding.utf8.encode text) ↔
      ('\x00' ∉ text ∧ WellStructured text) ∨
        ∃ rest, text = byteOrderMark :: rest ∧ '\x00' ∉ rest ∧ WellStructured rest := by
  by_cases hnil : text = []
  · subst hnil
    refine iff_of_false (by decide) ?_
    rintro (⟨-, hstructure⟩ | ⟨rest, htext, -⟩)
    · exact not_wellStructured_nil hstructure
    · cases htext
  have hne : TextEncoding.utf8.encode text ≠ [] := by
    intro h
    have hlength := congrArg List.length h
    match text with
    | [] => exact hnil rfl
    | c :: rest =>
      have hpos := c.utf8Size_pos
      simp only [TextEncoding.encode, encodeUtf8_cons, List.length_append,
        String.length_utf8EncodeChar, List.length_nil] at hlength
      omega
  rw [accepted_bytes_iff hne hsize fun byte hbyte => mem_encodeUtf8_lt hbyte]
  by_cases hhead : text.head? = some byteOrderMark
  · obtain ⟨rest, rfl⟩ := List.head?_eq_some_iff.1 hhead
    have hdrop : (TextEncoding.utf8.encode (byteOrderMark :: rest)).drop 3 = encodeUtf8 rest := by
      rw [TextEncoding.encode, encodeUtf8_cons, utf8EncodeChar_byteOrderMark]
      rfl
    have hmark : [0xEF, 0xBB, 0xBF].isPrefixOf (TextEncoding.utf8.encode (byteOrderMark :: rest)) =
        true := isPrefixOf_encodeUtf8_iff.2 hhead
    rw [if_pos hmark, hdrop, accepted_utf8_body_iff]
    constructor
    · exact fun h => Or.inr ⟨rest, rfl, h⟩
    · rintro (⟨-, hstructure⟩ | ⟨other, hother, h⟩)
      · exact absurd hstructure (not_wellStructured_mark rest)
      · obtain ⟨-, rfl⟩ := List.cons.inj hother
        exact h
  · have hmark : ¬([0xEF, 0xBB, 0xBF].isPrefixOf (TextEncoding.utf8.encode text) = true) :=
      fun h => hhead (isPrefixOf_encodeUtf8_iff.1 h)
    rw [if_neg hmark]
    refine accepted_utf8_body_iff.trans (or_iff_left ?_).symm
    rintro ⟨rest, rfl, -⟩
    exact hhead rfl

/-! ## The verdicts -/

/-- Every encoding of the text has the same verdict, and none is accepted with a null character. -/
def OneVerdict (text : List Char) : Prop :=
  (∀ encoding other : TextEncoding,
    Accepted (encoding.encode text) ↔ Accepted (other.encode text)) ∧
  ('\x00' ∈ text → ∀ encoding : TextEncoding, ¬Accepted (encoding.encode text))

theorem oneVerdict_iff
    (hsize : ∀ encoding : TextEncoding, (encoding.encode text).length ≤ maxProfileBytes) :
    OneVerdict text ↔ ¬('\x00' ∈ text ∧ WellStructured text) ∧
      ¬∃ rest, text = byteOrderMark :: rest ∧ '\x00' ∉ rest ∧ WellStructured rest := by
  have hutf8 := accepted_utf8_iff (hsize .utf8)
  have hbom := accepted_utf8Bom_iff (hsize .utf8Bom)
  have hle := accepted_utf16Le_iff (hsize .utf16Le)
  have hbe := accepted_utf16Be_iff (hsize .utf16Be)
  constructor
  · rintro ⟨hagree, hnull⟩
    refine ⟨fun ⟨hmem, hstructure⟩ => hnull hmem .utf16Le (hle.2 hstructure), ?_⟩
    rintro ⟨rest, rfl, hrest⟩
    have haccepted := (hagree .utf8 .utf16Le).1 (hutf8.2 (Or.inr ⟨rest, rfl, hrest⟩))
    exact not_wellStructured_mark rest (hle.1 haccepted)
  · rintro ⟨hnull, hmark⟩
    have hall : ∀ encoding : TextEncoding, Accepted (encoding.encode text) ↔
        '\x00' ∉ text ∧ WellStructured text := by
      have hplain : WellStructured text ↔ '\x00' ∉ text ∧ WellStructured text :=
        ⟨fun h => ⟨fun hmem => hnull ⟨hmem, h⟩, h⟩, fun h => h.2⟩
      intro encoding
      cases encoding with
      | utf8 => exact hutf8.trans (or_iff_left hmark)
      | utf8Bom => exact hbom
      | utf16Le => exact hle.trans hplain
      | utf16Be => exact hbe.trans hplain
    exact ⟨fun encoding other => (hall encoding).trans (hall other).symm,
      fun hmem encoding haccepted => ((hall encoding).1 haccepted).1 hmem⟩

def plainProfile : List Char := "[General]\nGamma=1\n".toList

theorem plainProfile_oneVerdict : OneVerdict plainProfile := by
  refine (oneVerdict_iff fun encoding => ?_).2 ⟨by decide +kernel, ?_⟩
  · cases encoding <;> decide +kernel
  · rintro ⟨rest, hrest, -⟩
    have hhead : plainProfile.head? = some byteOrderMark := congrArg List.head? hrest
    exact absurd hhead (by decide +kernel)

/-- A profile with a null character in a value. -/
def nullProfile : List Char := "[General]\nGamma=\x00\n".toList

theorem nullProfile_verdicts :
    ¬∀ text : List Char, (∀ encoding : TextEncoding,
      (encoding.encode text).length ≤ maxProfileBytes) → OneVerdict text := by
  intro h
  have hsize : ∀ encoding : TextEncoding,
      (encoding.encode nullProfile).length ≤ maxProfileBytes := by
    intro encoding
    cases encoding <;> decide +kernel
  have haccepted : Accepted (TextEncoding.utf16Le.encode nullProfile) := by decide +kernel
  exact (h nullProfile hsize).2 (by decide +kernel) .utf16Le haccepted

end MacTypeControl.Profile
