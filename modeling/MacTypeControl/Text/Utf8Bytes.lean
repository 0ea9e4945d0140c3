import MacTypeControl.Text.Utf16
import MacTypeControl.Text.Utf8

/-!
# The bytes of UTF-8 text

The ASCII characters are the bytes below 0x80, no byte is above 0xF7, and only the byte order mark
starts with its three bytes.
-/

namespace MacTypeControl.Text

theorem toList_loop (bytes : ByteArray) (i : ℕ) (found : List UInt8) :
    ByteArray.toList.loop bytes i found = found.reverse ++ bytes.data.toList.drop i := by
  fun_induction ByteArray.toList.loop bytes i found with
  | case1 i found hi ih =>
    have hlength : i < bytes.data.toList.length := hi
    rw [ih, List.drop_eq_getElem_cons hlength, List.reverse_cons, List.append_assoc]
    have hbyte : bytes.get! i = bytes.data.toList[i] := by
      change bytes.data[i]! = bytes.data.toList[i]
      rw [getElem!_pos bytes.data i hi, Array.getElem_toList]
    rw [hbyte]
    rfl
  | case2 i found hi =>
    have hlength : bytes.data.toList.length ≤ i := Nat.le_of_not_lt hi
    rw [List.drop_eq_nil_of_le hlength, List.append_nil]

theorem utf8_eq_encodeUtf8 (text : List Char) : utf8 text = encodeUtf8 text := by
  have hbytes : (String.ofList text).toUTF8 = (encodeUtf8 text).toByteArray := rfl
  rw [utf8, hbytes, ByteArray.toList, toList_loop, List.toList_data_toByteArray]
  rfl

theorem utf8EncodeChar_ascii {c : Char} (h : c.toNat < 0x80) :
    String.utf8EncodeChar c = [UInt8.ofNat c.toNat] := by
  have hle : c.val.toNat ≤ 0x7F := Nat.le_of_lt_succ h
  unfold String.utf8EncodeChar
  exact if_pos hle

theorem toNat_ofNat_byte {n : ℕ} (h : n < 256) : (UInt8.ofNat n).toNat = n := by
  rw [UInt8.toNat_ofNat', Nat.mod_eq_of_lt h]

/-- The bytes of a character beyond ASCII. -/
theorem mem_utf8EncodeChar_high {c : Char} (h : 0x80 ≤ c.toNat) {byte : UInt8}
    (hbyte : byte ∈ String.utf8EncodeChar c) : 0x80 ≤ byte.toNat ∧ byte.toNat < 0xF8 := by
  have hvalue : ¬c.val.toNat ≤ 0x7F := Nat.not_le.2 h
  unfold String.utf8EncodeChar at hbyte
  dsimp only at hbyte
  rw [if_neg hvalue] at hbyte
  split at hbyte
  · simp only [List.mem_cons, List.not_mem_nil, or_false] at hbyte
    rcases hbyte with rfl | rfl <;> rw [toNat_ofNat_byte (by omega)] <;> omega
  · split at hbyte
    · simp only [List.mem_cons, List.not_mem_nil, or_false] at hbyte
      rcases hbyte with rfl | rfl | rfl <;> rw [toNat_ofNat_byte (by omega)] <;> omega
    · simp only [List.mem_cons, List.not_mem_nil, or_false] at hbyte
      rcases hbyte with rfl | rfl | rfl | rfl <;> rw [toNat_ofNat_byte (by omega)] <;> omega

theorem mem_utf8EncodeChar_lt {c : Char} {byte : UInt8} (hbyte : byte ∈ String.utf8EncodeChar c) :
    byte.toNat < 0xF8 := by
  by_cases h : c.toNat < 0x80
  · rw [utf8EncodeChar_ascii h, List.mem_singleton] at hbyte
    rw [hbyte, toNat_ofNat_byte (by omega)]
    omega
  · exact (mem_utf8EncodeChar_high (Nat.le_of_not_lt h) hbyte).2

theorem mem_encodeUtf8_lt {text : List Char} {byte : UInt8} (h : byte ∈ encodeUtf8 text) :
    byte.toNat < 0xF8 := by
  obtain ⟨c, -, hbyte⟩ := List.mem_flatMap.1 h
  exact mem_utf8EncodeChar_lt hbyte

/-- The zero byte is the null character. -/
theorem zero_mem_encodeUtf8 {text : List Char} : 0 ∈ encodeUtf8 text ↔ '\x00' ∈ text := by
  constructor
  · intro h
    obtain ⟨c, hc, hbyte⟩ := List.mem_flatMap.1 h
    by_cases hascii : c.toNat < 0x80
    · rw [utf8EncodeChar_ascii hascii, List.mem_singleton] at hbyte
      have hzero := congrArg UInt8.toNat hbyte
      rw [toNat_ofNat_byte (by omega)] at hzero
      have hnull : c = '\x00' := Char.ext (UInt32.toNat_inj.1 hzero.symm)
      exact hnull ▸ hc
    · exact absurd (mem_utf8EncodeChar_high (Nat.le_of_not_lt hascii) hbyte).1 (by decide)
  · intro h
    exact List.mem_flatMap.2 ⟨'\x00', h, by decide⟩

/-- U+FEFF. -/
def byteOrderMark : Char := '\uFEFF'

theorem utf8EncodeChar_byteOrderMark : String.utf8EncodeChar byteOrderMark = [0xEF, 0xBB, 0xBF] := by
  decide

/-- The first two bytes of the mark and one more are those of the mark alone. -/
theorem eq_byteOrderMark {c : Char} {rest more : List UInt8}
    (h : String.utf8EncodeChar c ++ rest = 0xEF :: 0xBB :: 0xBF :: more) : c = byteOrderMark := by
  have hinj : ∀ n : ℕ, n < 256 → ∀ b : UInt8, UInt8.ofNat n = b → n = b.toNat := by
    intro n hn b hb
    rw [← hb, toNat_ofNat_byte hn]
  have hvalue : c.val.toNat = 0xFEFF := by
    unfold String.utf8EncodeChar at h
    dsimp only at h
    split at h
    · have hfirst := hinj _ (by omega) _ (List.cons.inj h).1
      change c.val.toNat = 0xEF at hfirst
      omega
    · split at h
      · have hfirst := hinj _ (by omega) _ (List.cons.inj h).1
        change _ = 0xEF at hfirst
        omega
      · split at h
        · obtain ⟨hfirst, h⟩ := List.cons.inj h
          obtain ⟨hsecond, h⟩ := List.cons.inj h
          have hfirst := hinj _ (by omega) _ hfirst
          have hsecond := hinj _ (by omega) _ hsecond
          have hthird := hinj _ (by omega) _ (List.cons.inj h).1
          change _ = 0xEF at hfirst
          change _ = 0xBB at hsecond
          change _ = 0xBF at hthird
          omega
        · have hfirst := hinj _ (by omega) _ (List.cons.inj h).1
          change _ = 0xEF at hfirst
          omega
  exact Char.ext (UInt32.toNat_inj.1 hvalue)

theorem isPrefixOf_encodeUtf8_iff {text : List Char} :
    [0xEF, 0xBB, 0xBF].isPrefixOf (encodeUtf8 text) = true ↔ text.head? = some byteOrderMark := by
  match text with
  | [] => simp [encodeUtf8]
  | c :: rest =>
    rw [encodeUtf8_cons, List.head?_cons, Option.some_inj]
    constructor
    · intro h
      obtain ⟨more, hmore⟩ := List.isPrefixOf_iff_prefix.1 h
      exact eq_byteOrderMark hmore.symm
    · rintro rfl
      rw [utf8EncodeChar_byteOrderMark]
      exact List.isPrefixOf_iff_prefix.2 (List.prefix_append _ _)

end MacTypeControl.Text
