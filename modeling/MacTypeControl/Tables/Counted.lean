import Mathlib.Data.List.Count
import Mathlib.Algebra.Order.Ring.Int

/-!
# Counted records

Records in memory that count their holders. A pointer is an address or null; the holders
are all pointers that the program keeps, in any order. `Counted` says that every record
counts exactly its holders, and that a record without holders is not there.
-/

namespace MacTypeControl.Tables

abbrev Memory (ρ : Type) := ℕ → Option ρ

namespace Memory

variable {ρ : Type}

def set (memory : Memory ρ) (address : ℕ) (record : Option ρ) : Memory ρ :=
  fun a => if a = address then record else memory a

@[simp] theorem set_self (memory : Memory ρ) (address : ℕ) (record : Option ρ) :
    memory.set address record address = record := if_pos rfl

theorem set_of_ne (memory : Memory ρ) {address a : ℕ} (record : Option ρ) (h : a ≠ address) :
    memory.set address record a = memory a := if_neg h

end Memory

structure Counted {ρ : Type} (count : ρ → ℤ) (memory : Memory ρ) (holders : List (Option ℕ)) : Prop where
  absent : ∀ a, memory a = none → holders.count (some a) = 0
  present : ∀ a r, memory a = some r → count r = holders.count (some a) ∧ 0 < holders.count (some a)

namespace Counted

variable {ρ : Type} {count : ρ → ℤ} {memory : Memory ρ} {holders others : List (Option ℕ)}

/-- Only the number of holders of each address matters. -/
theorem congr (h : Counted count memory holders)
    (hcount : ∀ a, others.count (some a) = holders.count (some a)) : Counted count memory others where
  absent a ha := by
    rw [hcount]
    exact h.absent a ha
  present a r ha := by
    rw [hcount]
    exact h.present a r ha

theorem empty : Counted count (fun _ => none) ([] : List (Option ℕ)) where
  absent _ _ := List.count_nil
  present _ _ h := nomatch h

theorem memory_empty (h : Counted count memory holders) (hnull : ∀ p ∈ holders, p = none) (a : ℕ) :
    memory a = none := by
  by_contra hne
  obtain ⟨r, hr⟩ := Option.ne_none_iff_exists'.1 hne
  have hmem := List.count_pos_iff.1 (h.present a r hr).2
  exact absurd (hnull _ hmem) (Option.some_ne_none a)

theorem exists_of_mem (h : Counted count memory holders) {a : ℕ} (ha : some a ∈ holders) :
    ∃ r, memory a = some r ∧ 0 < count r := by
  cases hr : memory a with
  | none =>
      have hzero := h.absent a hr
      exact absurd (List.count_pos_iff.2 ha) (by omega)
  | some r =>
      obtain ⟨hcount, hpos⟩ := h.present a r hr
      exact ⟨r, rfl, by omega⟩

theorem alloc (h : Counted count memory holders) {a : ℕ} (ha : memory a = none) {r : ρ}
    (hr : count r = 1) : Counted count (memory.set a (some r)) (some a :: holders) where
  absent b hb := by
    by_cases hab : b = a
    · subst hab
      rw [Memory.set_self] at hb
      cases hb
    · rw [Memory.set_of_ne _ _ hab] at hb
      rw [List.count_cons_of_ne (by simpa using Ne.symm hab)]
      exact h.absent b hb
  present b s hb := by
    by_cases hab : b = a
    · subst hab
      rw [Memory.set_self] at hb
      cases hb
      rw [List.count_cons_self, h.absent b ha, hr]
      exact ⟨rfl, Nat.one_pos⟩
    · rw [Memory.set_of_ne _ _ hab] at hb
      rw [List.count_cons_of_ne (by simpa using Ne.symm hab)]
      exact h.present b s hb

/-- The record changes, and the number it counts follows the number of its holders. -/
theorem update (h : Counted count memory holders) {a : ℕ} {r : ρ}
    (hr : count r = others.count (some a)) (hpos : 0 < others.count (some a))
    (hothers : ∀ b, b ≠ a → others.count (some b) = holders.count (some b)) :
    Counted count (memory.set a (some r)) others where
  absent b hb := by
    by_cases hab : b = a
    · subst hab
      rw [Memory.set_self] at hb
      cases hb
    · rw [Memory.set_of_ne _ _ hab] at hb
      rw [hothers b hab]
      exact h.absent b hb
  present b s hb := by
    by_cases hab : b = a
    · subst hab
      rw [Memory.set_self] at hb
      cases hb
      exact ⟨hr, hpos⟩
    · rw [Memory.set_of_ne _ _ hab] at hb
      rw [hothers b hab]
      exact h.present b s hb

theorem replace (h : Counted count memory holders) {a : ℕ} {r s : ρ} (ha : memory a = some r)
    (hs : count s = count r) : Counted count (memory.set a (some s)) holders := by
  obtain ⟨hcount, hpos⟩ := h.present a r ha
  exact h.update (hs.trans hcount) hpos fun _ _ => rfl

theorem retain (h : Counted count memory holders) {a : ℕ} {r s : ρ} (ha : memory a = some r)
    (hs : count s = count r + 1) : Counted count (memory.set a (some s)) (some a :: holders) := by
  obtain ⟨hcount, hpos⟩ := h.present a r ha
  refine h.update ?_ ?_ fun b hb => List.count_cons_of_ne (by simpa using Ne.symm hb)
  · rw [List.count_cons_self]
    omega
  · rw [List.count_cons_self]
    omega

theorem release (h : Counted count memory (some a :: holders)) {r s : ρ} (ha : memory a = some r)
    (hs : count s = count r - 1) (hmore : count s ≠ 0) :
    Counted count (memory.set a (some s)) holders := by
  obtain ⟨hcount, hpos⟩ := h.present a r ha
  rw [List.count_cons_self] at hcount
  refine h.update (by omega) (by omega) fun b hb => ?_
  rw [List.count_cons_of_ne (by simpa using Ne.symm hb)]

/-- The last holder takes the record with it. -/
theorem release_last (h : Counted count memory (some a :: holders)) {r : ρ} (ha : memory a = some r)
    (hlast : count r = 1) : Counted count (memory.set a none) holders where
  absent b hb := by
    by_cases hab : b = a
    · subst hab
      have hcount := (h.present b r ha).1
      rw [List.count_cons_self] at hcount
      omega
    · rw [Memory.set_of_ne _ _ hab] at hb
      have hzero := h.absent b hb
      rwa [List.count_cons_of_ne (by simpa using Ne.symm hab)] at hzero
  present b s hb := by
    by_cases hab : b = a
    · subst hab
      rw [Memory.set_self] at hb
      cases hb
    · rw [Memory.set_of_ne _ _ hab] at hb
      have hsame := h.present b s hb
      rwa [List.count_cons_of_ne (by simpa using Ne.symm hab)] at hsame

end Counted

end MacTypeControl.Tables
