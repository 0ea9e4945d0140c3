import Mathlib.Algebra.GroupWithZero.Nat
import Mathlib.Data.Nat.Notation
import Mathlib.Tactic.Common

/-!
# Little-endian words

A number in so many bytes, the lowest first.
-/

namespace MacTypeControl.Words

def toLeBytes : (width : ℕ) → ℕ → List UInt8
  | 0, _ => []
  | width + 1, value => UInt8.ofNat value :: toLeBytes width (value / 2 ^ 8)

def fromLeBytes : List UInt8 → ℕ
  | [] => 0
  | byte :: rest => byte.toNat + 2 ^ 8 * fromLeBytes rest

theorem length_toLeBytes (width value : ℕ) : (toLeBytes width value).length = width := by
  induction width generalizing value with
  | zero => rfl
  | succ width ih => rw [toLeBytes, List.length_cons, ih]

theorem fromLeBytes_lt (bytes : List UInt8) : fromLeBytes bytes < 2 ^ (8 * bytes.length) := by
  induction bytes with
  | nil => exact Nat.zero_lt_one
  | cons byte rest ih =>
    have hbyte : byte.toNat < 2 ^ 8 := byte.toNat_lt
    have hpow : 2 ^ (8 * (rest.length + 1)) = 2 ^ 8 * 2 ^ (8 * rest.length) := by
      rw [Nat.mul_succ, Nat.add_comm, Nat.pow_add]
    rw [fromLeBytes, List.length_cons, hpow]
    omega

theorem fromLeBytes_toLeBytes {width value : ℕ} (h : value < 2 ^ (8 * width)) :
    fromLeBytes (toLeBytes width value) = value := by
  induction width generalizing value with
  | zero =>
    have hzero : value = 0 := by simpa using h
    rw [hzero]
    rfl
  | succ width ih =>
    have hrest : value / 2 ^ 8 < 2 ^ (8 * width) := by
      rw [Nat.div_lt_iff_lt_mul (by decide), ← Nat.pow_add]
      exact h
    have hbyte : (UInt8.ofNat value).toNat = value % 2 ^ 8 := UInt8.toNat_ofNat'
    rw [toLeBytes, fromLeBytes, ih hrest, hbyte]
    exact Nat.mod_add_div value (2 ^ 8)

/-- Bytes are written as they were read. -/
theorem toLeBytes_fromLeBytes (bytes : List UInt8) :
    toLeBytes bytes.length (fromLeBytes bytes) = bytes := by
  induction bytes with
  | nil => rfl
  | cons byte rest ih =>
    have hbyte : UInt8.ofNat (byte.toNat + 2 ^ 8 * fromLeBytes rest) = byte := by
      apply UInt8.toNat.inj
      have hlt : byte.toNat < 2 ^ 8 := byte.toNat_lt
      rw [UInt8.toNat_ofNat']
      omega
    have hrest : (byte.toNat + 2 ^ 8 * fromLeBytes rest) / 2 ^ 8 = fromLeBytes rest := by
      have hlt : byte.toNat < 2 ^ 8 := byte.toNat_lt
      omega
    rw [List.length_cons, fromLeBytes, toLeBytes, hbyte, hrest, ih]

theorem eq_toLeBytes {bytes : List UInt8} {width value : ℕ} (hwidth : bytes.length = width)
    (hvalue : fromLeBytes bytes = value) : bytes = toLeBytes width value := by
  rw [← hwidth, ← hvalue, toLeBytes_fromLeBytes]

theorem take_toLeBytes (width value : ℕ) (rest : List UInt8) :
    (toLeBytes width value ++ rest).take width = toLeBytes width value :=
  List.take_left' (length_toLeBytes width value)

theorem drop_toLeBytes (width value more : ℕ) (rest : List UInt8) :
    (toLeBytes width value ++ rest).drop (width + more) = rest.drop more := by
  rw [← List.drop_drop, List.drop_left' (length_toLeBytes width value)]

end MacTypeControl.Words
