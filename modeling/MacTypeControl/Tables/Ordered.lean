import Mathlib.Order.Lattice
import Mathlib.Order.Defs.LinearOrder
import Mathlib.Order.Basic
import Mathlib.Data.List.Nodup

/-!
# Maps in the order of their keys

The entries of a map that lists them by rising keys. Putting a value under a key changes
the list at one place only, and dropping the first entries loses the smallest keys.
-/

namespace MacTypeControl.Tables

structure Ordered (κ ν : Type) [LinearOrder κ] where
  entries : List (κ × ν)
  sorted : entries.Pairwise fun a b => a.1 < b.1

namespace Ordered

variable {κ ν : Type} [LinearOrder κ]

def empty : Ordered κ ν := ⟨[], List.Pairwise.nil⟩

def size (m : Ordered κ ν) : ℕ := m.entries.length

def find (m : Ordered κ ν) (k : κ) : Option ν := (m.entries.find? fun e => e.1 = k).map Prod.snd

def below (m : Ordered κ ν) (k : κ) : List (κ × ν) := m.entries.filter fun e => e.1 < k

def above (m : Ordered κ ν) (k : κ) : List (κ × ν) := m.entries.filter fun e => k < e.1

theorem pairwise_split {k : κ} {v : ν} {before after : List (κ × ν)}
    (hbefore : before.Pairwise fun a b => a.1 < b.1) (hafter : after.Pairwise fun a b => a.1 < b.1)
    (hlow : ∀ e ∈ before, e.1 < k) (hhigh : ∀ e ∈ after, k < e.1) :
    (before ++ (k, v) :: after).Pairwise fun a b => a.1 < b.1 := by
  rw [List.pairwise_append, List.pairwise_cons]
  refine ⟨hbefore, ⟨fun e he => hhigh e he, hafter⟩, ?_⟩
  intro e he f hf
  rcases List.mem_cons.1 hf with hself | hrest
  · rw [hself]
    exact hlow e he
  · exact lt_trans (hlow e he) (hhigh f hrest)

/-- The value put under the key replaces the one that is there. -/
def insert (m : Ordered κ ν) (k : κ) (v : ν) : Ordered κ ν where
  entries := m.below k ++ (k, v) :: m.above k
  sorted := pairwise_split (m.sorted.sublist List.filter_sublist) (m.sorted.sublist List.filter_sublist)
    (fun e he => by simpa using (List.mem_filter.1 he).2)
    (fun e he => by simpa using (List.mem_filter.1 he).2)

def dropFirst (m : Ordered κ ν) (n : ℕ) : Ordered κ ν where
  entries := m.entries.drop n
  sorted := m.sorted.sublist (List.drop_sublist n _)

/-! ## What is found -/

variable {m : Ordered κ ν}

theorem nodup_keys : (m.entries.map Prod.fst).Nodup :=
  List.pairwise_map.2 (m.sorted.imp fun h => ne_of_lt h)

theorem find_eq_none {k : κ} : m.find k = none ↔ ∀ e ∈ m.entries, e.1 ≠ k := by
  unfold find
  rw [Option.map_eq_none_iff, List.find?_eq_none]
  simp

theorem find_eq_some {k : κ} {v : ν} : m.find k = some v ↔ (k, v) ∈ m.entries := by
  unfold find
  rw [Option.map_eq_some_iff]
  constructor
  · rintro ⟨e, hfind, rfl⟩
    have hkey : e.1 = k := by simpa using List.find?_some hfind
    rw [← hkey]
    exact List.mem_of_find?_eq_some hfind
  · intro hmem
    have hsome : (m.entries.find? fun e => e.1 = k).isSome := by
      rw [List.find?_isSome]
      exact ⟨(k, v), hmem, by simp⟩
    obtain ⟨e, hfind⟩ := Option.isSome_iff_exists.1 hsome
    have hkey : e.1 = k := by simpa using List.find?_some hfind
    have hsame : e = (k, v) :=
      List.inj_on_of_nodup_map nodup_keys (List.mem_of_find?_eq_some hfind) hmem hkey
    exact ⟨e, hfind, by rw [hsame]⟩

theorem mem_insert {k : κ} {v : ν} {e : κ × ν} :
    e ∈ (m.insert k v).entries ↔ e = (k, v) ∨ e.1 ≠ k ∧ e ∈ m.entries := by
  simp only [insert, below, above, List.mem_append, List.mem_cons, List.mem_filter, decide_eq_true_eq]
  constructor
  · rintro (⟨hmem, hlt⟩ | rfl | ⟨hmem, hlt⟩)
    · exact Or.inr ⟨ne_of_lt hlt, hmem⟩
    · exact Or.inl rfl
    · exact Or.inr ⟨ne_of_gt hlt, hmem⟩
  · rintro (rfl | ⟨hne, hmem⟩)
    · exact Or.inr (Or.inl rfl)
    · rcases lt_or_gt_of_ne hne with hlt | hgt
      · exact Or.inl ⟨hmem, hlt⟩
      · exact Or.inr (Or.inr ⟨hmem, hgt⟩)

@[simp] theorem find_insert_self (k : κ) (v : ν) : (m.insert k v).find k = some v :=
  find_eq_some.2 (mem_insert.2 (Or.inl rfl))

theorem find_insert_of_ne {k other : κ} (v : ν) (h : other ≠ k) :
    (m.insert k v).find other = m.find other := by
  refine Option.ext fun w => ?_
  rw [find_eq_some, find_eq_some, mem_insert]
  constructor
  · rintro (heq | ⟨-, hmem⟩)
    · exact absurd (congrArg Prod.fst heq) h
    · exact hmem
  · exact fun hmem => Or.inr ⟨h, hmem⟩

theorem find_of_find_dropFirst {n : ℕ} {k : κ} {v : ν} (h : (m.dropFirst n).find k = some v) :
    m.find k = some v :=
  find_eq_some.2 (List.mem_of_mem_drop (find_eq_some.1 h))

/-! ## The entries, in parts -/

/-- A new key comes between the smaller keys and the greater ones. -/
theorem perm_of_find_none {k : κ} (h : m.find k = none) : m.entries.Perm (m.below k ++ m.above k) := by
  have hsplit := List.filter_append_perm (fun e => decide (e.1 < k)) m.entries
  have habove : (m.entries.filter fun e => !decide (e.1 < k)) = m.above k := by
    refine List.filter_congr fun e he => ?_
    rcases lt_or_gt_of_ne (find_eq_none.1 h e he) with hlt | hgt
    · simp [hlt, not_lt_of_gt hlt]
    · simp [hgt, not_lt_of_gt hgt]
  rw [habove] at hsplit
  exact hsplit.symm

theorem perm_of_find_some {k : κ} {v : ν} (h : m.find k = some v) :
    m.entries.Perm (m.below k ++ (k, v) :: m.above k) := by
  obtain ⟨before, after, hsplit⟩ := List.append_of_mem (find_eq_some.1 h)
  have hsorted := m.sorted
  rw [hsplit, List.pairwise_append, List.pairwise_cons] at hsorted
  obtain ⟨-, ⟨hafter, -⟩, hacross⟩ := hsorted
  have hbefore : ∀ e ∈ before, e.1 < k := fun e he => hacross e he _ (List.mem_cons_self ..)
  have hbelow : m.below k = before := by
    unfold below
    rw [hsplit, List.filter_append, List.filter_eq_self.2 (fun e he => by simpa using hbefore e he),
      List.filter_eq_nil_iff.2, List.append_nil]
    intro e he
    rcases List.mem_cons.1 he with rfl | he
    · simp
    · simpa using le_of_lt (hafter e he)
  have habove : m.above k = after := by
    unfold above
    rw [hsplit, List.filter_append, List.filter_eq_nil_iff.2 (fun e he => by
      simpa using le_of_lt (hbefore e he)), List.nil_append, List.filter_cons]
    rw [if_neg (by simp), List.filter_eq_self.2 (fun e he => by simpa using hafter e he)]
  rw [hbelow, habove, hsplit]

theorem size_insert_of_find {k : κ} {v w : ν} (h : m.find k = some w) : (m.insert k v).size = m.size := by
  have hlength := (perm_of_find_some h).length_eq
  simp only [size, insert, List.length_append, List.length_cons] at hlength ⊢
  omega

theorem size_insert_of_new {k : κ} {v : ν} (h : m.find k = none) : (m.insert k v).size = m.size + 1 := by
  have hlength := (perm_of_find_none h).length_eq
  simp only [size, insert, List.length_append, List.length_cons] at hlength ⊢
  omega

theorem size_dropFirst (n : ℕ) : (m.dropFirst n).size = m.size - n := List.length_drop ..

end Ordered

end MacTypeControl.Tables
