import Mathlib.Algebra.GroupWithZero.Nat
import Mathlib.Data.List.Basic
import Mathlib.Tactic.Common

/-! # UTF-8 text -/

namespace MacTypeControl.Text

/-- The bytes of text. -/
def encodeUtf8 (text : List Char) : List UInt8 := text.flatMap String.utf8EncodeChar

/-- The text of bytes, where they are the bytes of text. -/
def fromUtf8 (bytes : List UInt8) : Option (List Char) :=
  (ByteArray.utf8Decode? bytes.toByteArray).map Array.toList

theorem encodeUtf8_append (a b : List Char) : encodeUtf8 (a ++ b) = encodeUtf8 a ++ encodeUtf8 b :=
  List.flatMap_append

theorem encodeUtf8_cons (c : Char) (rest : List Char) :
    encodeUtf8 (c :: rest) = String.utf8EncodeChar c ++ encodeUtf8 rest :=
  List.flatMap_cons

theorem length_encodeUtf8 (text : List Char) :
    (encodeUtf8 text).length = (text.map Char.utf8Size).sum := by
  rw [encodeUtf8, List.length_flatMap]
  congr 1
  exact List.map_congr_left fun c _ => String.length_utf8EncodeChar c

theorem toByteArray_encodeUtf8 (text : List Char) :
    (encodeUtf8 text).toByteArray = text.utf8Encode := rfl

theorem fromUtf8_encodeUtf8 (text : List Char) : fromUtf8 (encodeUtf8 text) = some text := by
  rw [fromUtf8, toByteArray_encodeUtf8, List.utf8Decode?_utf8Encode]
  simp

theorem encodeUtf8_of_fromUtf8 {bytes : List UInt8} {text : List Char}
    (h : fromUtf8 bytes = some text) : encodeUtf8 text = bytes := by
  unfold fromUtf8 at h
  obtain ⟨chars, hchars, rfl⟩ := Option.map_eq_some_iff.1 h
  have hsome : (ByteArray.utf8Decode? bytes.toByteArray).isSome = true := by rw [hchars]; rfl
  have hget : (ByteArray.utf8Decode? bytes.toByteArray).get hsome = chars := by simp [hchars]
  have hbytes := ByteArray.utf8Encode_get_utf8Decode? (b := bytes.toByteArray) (h := hsome)
  rw [hget, ← toByteArray_encodeUtf8] at hbytes
  have hlists := congrArg (fun b : ByteArray => b.data.toList) hbytes
  simpa using hlists

end MacTypeControl.Text
