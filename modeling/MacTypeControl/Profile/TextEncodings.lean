import MacTypeControl.Editor.Lossless
import MacTypeControl.Profile.Validation
import MacTypeControl.Text.Utf8Bytes

/-!
# The encodings of a profile text

The same text as UTF-8 or UTF-16, and what the validation finds behind the mark of each.
-/

namespace MacTypeControl.Profile

open Text
open Editor (encodeUtf16Char encodeUtf16 unitToLeBytes unitToBeBytes)

inductive TextEncoding where
  | utf8
  | utf8Bom
  | utf16Le
  | utf16Be
  deriving DecidableEq

def TextEncoding.encode (text : List Char) : TextEncoding → Bytes
  | .utf8 => encodeUtf8 text
  | .utf8Bom => [0xEF, 0xBB, 0xBF] ++ encodeUtf8 text
  | .utf16Le => [0xFF, 0xFE] ++ (encodeUtf16 text).flatMap unitToLeBytes
  | .utf16Be => [0xFE, 0xFF] ++ (encodeUtf16 text).flatMap unitToBeBytes

/-! ## UTF-16 is read back -/

theorem decodeUtf16_encodeUtf16Char (c : Char) (rest : List UInt16) :
    decodeUtf16 (encodeUtf16Char c ++ rest) = (decodeUtf16 rest).map (c :: ·) := by
  have hvalid : c.toNat < 0xD800 ∨ (0xDFFF < c.toNat ∧ c.toNat < 0x110000) := c.valid
  unfold encodeUtf16Char
  split
  · next hplain =>
    have hunit : (UInt16.ofNat c.toNat).toNat = c.toNat := by
      rw [UInt16.toNat_ofNat', Nat.mod_eq_of_lt hplain]
    have hsurrogate : isSurrogate (UInt16.ofNat c.toNat) = false := by
      simp only [isSurrogate, Bool.and_eq_false_iff, decide_eq_false_iff_not,
        UInt16.le_iff_toNat_le, hunit]
      change ¬0xD800 ≤ c.toNat ∨ ¬c.toNat ≤ 0xDFFF
      omega
    rw [List.singleton_append, decodeUtf16.eq_def]
    simp [hsurrogate, hunit]
  · next hpair =>
    have hhigh : (UInt16.ofNat (0xD800 + (c.toNat - 0x10000) / 0x400)).toNat =
        0xD800 + (c.toNat - 0x10000) / 0x400 := by
      rw [UInt16.toNat_ofNat', Nat.mod_eq_of_lt (by omega)]
    have hlow : (UInt16.ofNat (0xDC00 + (c.toNat - 0x10000) % 0x400)).toNat =
        0xDC00 + (c.toNat - 0x10000) % 0x400 := by
      rw [UInt16.toNat_ofNat', Nat.mod_eq_of_lt (by omega)]
    generalize UInt16.ofNat (0xD800 + (c.toNat - 0x10000) / 0x400) = high at hhigh
    generalize UInt16.ofNat (0xDC00 + (c.toNat - 0x10000) % 0x400) = low at hlow
    have hsurrogate : isSurrogate high = true := by
      simp only [isSurrogate, Bool.and_eq_true, decide_eq_true_eq, UInt16.le_iff_toNat_le, hhigh]
      change 0xD800 ≤ _ ∧ _ ≤ 0xDFFF
      omega
    have hfirst : isLowSurrogate high = false := by
      simp only [isLowSurrogate, Bool.and_eq_false_iff, decide_eq_false_iff_not,
        UInt16.le_iff_toNat_le, hhigh]
      change ¬0xDC00 ≤ _ ∨ ¬_ ≤ 0xDFFF
      omega
    have hsecond : isLowSurrogate low = true := by
      simp only [isLowSurrogate, Bool.and_eq_true, decide_eq_true_eq, UInt16.le_iff_toNat_le, hlow]
      change 0xDC00 ≤ _ ∧ _ ≤ 0xDFFF
      omega
    have hchar : ofSurrogates high low = c := by
      have hvalue : 0x10000 + (high.toNat - 0xD800) * 0x400 + (low.toNat - 0xDC00) = c.toNat := by
        rw [hhigh, hlow]
        omega
      rw [ofSurrogates, hvalue, Char.ofNat_toNat]
    simp [decodeUtf16, hsurrogate, hfirst, hsecond, hchar]

theorem decodeUtf16_encodeUtf16 (text : List Char) :
    decodeUtf16 (encodeUtf16 text) = some text := by
  induction text with
  | nil => rfl
  | cons c rest ih =>
    rw [encodeUtf16, List.flatMap_cons, ← encodeUtf16, decodeUtf16_encodeUtf16Char, ih]
    rfl

/-- The bytes of a unit, put together again. -/
theorem unit_of_bytes (unit : UInt16) :
    (UInt8.ofNat (unit.toNat % 256)).toUInt16 + (UInt8.ofNat (unit.toNat / 256)).toUInt16 * 256 =
      unit := by
  have hlt := unit.toNat_lt
  refine UInt16.toNat_inj.1 ?_
  rw [Editor.toNat_unit, toNat_ofNat_byte (by omega), toNat_ofNat_byte (by omega)]
  omega

theorem unitsLe_flatMap (units : List UInt16) : unitsLe (units.flatMap unitToLeBytes) = units := by
  induction units with
  | nil => rfl
  | cons unit rest ih =>
    rw [List.flatMap_cons, unitToLeBytes, List.cons_append, List.cons_append, List.nil_append,
      unitsLe, ih, unit_of_bytes]

theorem unitsBe_flatMap (units : List UInt16) : unitsBe (units.flatMap unitToBeBytes) = units := by
  induction units with
  | nil => rfl
  | cons unit rest ih =>
    rw [List.flatMap_cons, unitToBeBytes, List.cons_append, List.cons_append, List.nil_append,
      unitsBe, ih, unit_of_bytes]

theorem even_length_flatMap {toBytes : UInt16 → Bytes} (h : ∀ unit, (toBytes unit).length = 2)
    (units : List UInt16) : (units.flatMap toBytes).length % 2 = 0 := by
  induction units with
  | nil => rfl
  | cons unit rest ih =>
    rw [List.flatMap_cons, List.length_append, h]
    omega

end MacTypeControl.Profile
