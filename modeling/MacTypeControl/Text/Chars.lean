import Mathlib.Data.List.Basic
import Mathlib.Data.List.DropRight
import Mathlib.Tactic.Common

/-! # Characters and trimming as the standard library of the source has them -/

namespace MacTypeControl.Text

/-- The characters with the Unicode property `White_Space`. -/
def isWhitespace (c : Char) : Bool :=
  let n := c.toNat
  (9 ≤ n && n ≤ 13) || n == 0x20 || n == 0x85 || n == 0xA0 || n == 0x1680 ||
    (0x2000 ≤ n && n ≤ 0x200A) || n == 0x2028 || n == 0x2029 || n == 0x202F || n == 0x205F ||
    n == 0x3000

def trimStart (text : List Char) : List Char := text.dropWhile isWhitespace

def trimEnd (text : List Char) : List Char := text.rdropWhile isWhitespace

def trim (text : List Char) : List Char := trimEnd (trimStart text)

def toAsciiLowercase (c : Char) : Char :=
  if 'A' ≤ c ∧ c ≤ 'Z' then Char.ofNat (c.toNat + 32) else c

theorem toNat_ofNat {n : ℕ} (h : n.isValidChar) : (Char.ofNat n).toNat = n := by
  unfold Char.ofNat
  rw [dif_pos h]
  rfl

/-- A character keeps itself, or it is a capital letter and gets its small one. -/
theorem toAsciiLowercase_cases (c : Char) :
    (toAsciiLowercase c = c ∧ ¬('A' ≤ c ∧ c ≤ 'Z')) ∨
      (('A' ≤ c ∧ c ≤ 'Z') ∧ (toAsciiLowercase c).toNat = c.toNat + 32) := by
  unfold toAsciiLowercase
  split
  · next hupper =>
    have hrange : 65 ≤ c.toNat ∧ c.toNat ≤ 90 := hupper
    exact Or.inr ⟨hupper, toNat_ofNat (Or.inl (by omega))⟩
  · next hupper => exact Or.inl ⟨rfl, hupper⟩

/-- Only small letters are the lower case of another character. -/
theorem eq_of_toAsciiLowercase {c d : Char} (hd : ¬('a' ≤ d ∧ d ≤ 'z'))
    (h : toAsciiLowercase c = d) : c = d := by
  rcases toAsciiLowercase_cases c with ⟨hsame, -⟩ | ⟨hupper, hvalue⟩
  · rw [← hsame, h]
  · have hrange : 65 ≤ c.toNat ∧ c.toNat ≤ 90 := hupper
    refine absurd ?_ hd
    show 97 ≤ d.toNat ∧ d.toNat ≤ 122
    rw [← h]
    omega

theorem toAsciiLowercase_idem (c : Char) :
    toAsciiLowercase (toAsciiLowercase c) = toAsciiLowercase c := by
  rcases toAsciiLowercase_cases (toAsciiLowercase c) with ⟨hsame, -⟩ | ⟨hupper, -⟩
  · exact hsame
  · have hlow : 65 ≤ (toAsciiLowercase c).toNat ∧ (toAsciiLowercase c).toNat ≤ 90 := hupper
    rcases toAsciiLowercase_cases c with ⟨hsame, hnot⟩ | ⟨hrange, hvalue⟩
    · rw [hsame] at hupper
      exact absurd hupper hnot
    · have hfirst : 65 ≤ c.toNat := hrange.1
      omega

def eqIgnoreAsciiCase (a b : List Char) : Bool :=
  a.map toAsciiLowercase == b.map toAsciiLowercase

theorem eqIgnoreAsciiCase_iff {a b : List Char} :
    eqIgnoreAsciiCase a b = true ↔ a.map toAsciiLowercase = b.map toAsciiLowercase := beq_iff_eq

end MacTypeControl.Text
