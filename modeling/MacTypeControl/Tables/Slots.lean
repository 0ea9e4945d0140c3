import Mathlib.Data.List.Basic
import Mathlib.Data.List.Perm.Basic
import Mathlib.Logic.Function.Basic

/-!
# Cells that hold at most one value each

The values held by a family of cells, listed along an enumeration of the cells.
-/

namespace MacTypeControl.Tables

variable {ι α : Type} [DecidableEq ι]

/-- A value put into an empty cell is added to the values held. -/
theorem perm_filterMap_fill {f : ι → Option α} {cells : List ι} (hnodup : cells.Nodup) {i : ι}
    (hi : i ∈ cells) (hempty : f i = none) (x : α) :
    (cells.filterMap (Function.update f i (some x))).Perm (x :: cells.filterMap f) := by
  induction cells with
  | nil => exact absurd hi List.not_mem_nil
  | cons j cells ih =>
    obtain ⟨hj, hrest⟩ := List.nodup_cons.1 hnodup
    by_cases hij : i = j
    · subst hij
      have hsame : cells.filterMap (Function.update f i (some x)) = cells.filterMap f :=
        List.filterMap_congr fun k hk => Function.update_of_ne (ne_of_mem_of_not_mem hk hj) _ _
      rw [List.filterMap_cons, Function.update_self, hsame, List.filterMap_cons, hempty]
    · have htail := ih hrest ((List.mem_cons.1 hi).resolve_left hij)
      rw [List.filterMap_cons, Function.update_of_ne (Ne.symm hij), List.filterMap_cons]
      cases f j with
      | none => exact htail
      | some y => exact (htail.cons y).trans (List.Perm.swap x y _)

/-- A cell that is emptied gives up the one value it held. -/
theorem perm_filterMap_empty {f : ι → Option α} {cells : List ι} (hnodup : cells.Nodup) {i : ι}
    (hi : i ∈ cells) {x : α} (hheld : f i = some x) :
    (cells.filterMap f).Perm (x :: cells.filterMap (Function.update f i none)) := by
  have hfill := perm_filterMap_fill hnodup hi (Function.update_self i none f) x
  rwa [Function.update_idem, ← hheld, Function.update_eq_self] at hfill

end MacTypeControl.Tables
