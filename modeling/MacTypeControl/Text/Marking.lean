import Mathlib.Data.List.Infix
import Mathlib.Tactic.Common

/-!
# Markers in the place of what was taken out

A marker can hide a pattern only where the two share no text: otherwise the pattern may stand
across the marker and what is beside it.
-/

namespace MacTypeControl.Text

variable {α : Type}

/-- The pattern can stand in the marker, around it, or across one of its ends. -/
def SharesText (pattern marker : List α) : Prop :=
  pattern <:+: marker ∨ marker <:+: pattern ∨
    ∃ piece, piece ≠ [] ∧
      ((piece <:+ pattern ∧ piece <+: marker) ∨ (piece <+: pattern ∧ piece <:+ marker))

/-- The second text is the first with markers in the place of some of its parts. -/
inductive Marked (marker : List α) : List α → List α → Prop
  | nil : Marked marker [] []
  | keep (c : α) {text result : List α} :
      Marked marker text result → Marked marker (c :: text) (c :: result)
  | take (removed : List α) {text result : List α} :
      Marked marker text result → Marked marker (removed ++ text) (marker ++ result)

variable {marker pattern text result : List α}

namespace Marked

theorem refl (marker text : List α) : Marked marker text text := by
  induction text with
  | nil => exact Marked.nil
  | cons c rest ih => exact ih.keep c

theorem append {text' result' : List α} (h : Marked marker text result)
    (h' : Marked marker text' result') : Marked marker (text ++ text') (result ++ result') := by
  induction h with
  | nil => exact h'
  | keep c _ ih => exact ih.keep c
  | take removed _ ih =>
    rw [List.append_assoc, List.append_assoc]
    exact ih.take removed

/-- A part that is replaced as a whole. -/
theorem whole (marker removed : List α) : Marked marker removed marker := by
  have h : Marked marker (removed ++ []) (marker ++ []) := Marked.take removed Marked.nil
  rwa [List.append_nil, List.append_nil] at h

theorem mem {c : α} (h : Marked marker text result) (hc : c ∈ result) :
    c ∈ text ∨ c ∈ marker := by
  induction h with
  | nil => exact Or.inl hc
  | keep d _ ih =>
    rcases List.mem_cons.1 hc with rfl | hrest
    · exact Or.inl (List.mem_cons_self ..)
    · exact (ih hrest).imp_left (List.mem_cons_of_mem d)
  | take removed _ ih =>
    rcases List.mem_append.1 hc with hmarker | hrest
    · exact Or.inr hmarker
    · exact (ih hrest).imp_left (List.mem_append_right removed)

/-- What starts the result and ends the pattern stays clear of the markers. -/
theorem prefix_of_suffix (h : Marked marker text result) (hapart : ¬SharesText pattern marker)
    {piece : List α} (hpiece : piece <:+ pattern) (hresult : piece <+: result) :
    piece <+: text := by
  induction h generalizing piece with
  | nil => exact hresult
  | keep c _ ih =>
    rcases List.prefix_cons_iff.1 hresult with rfl | ⟨rest, rfl, hrest⟩
    · exact List.nil_prefix
    · exact List.prefix_cons_iff.2 (Or.inr ⟨rest, rfl,
        ih ((List.suffix_cons c rest).trans hpiece) hrest⟩)
  | take removed _ _ =>
    by_cases hnil : piece = []
    · rw [hnil]
      exact List.nil_prefix
    · rcases List.prefix_or_prefix_of_prefix hresult (List.prefix_append marker _) with
        hinside | haround
      · exact absurd (Or.inr (Or.inr ⟨piece, hnil, Or.inl ⟨hpiece, hinside⟩⟩)) hapart
      · exact absurd (Or.inr (Or.inl (haround.isInfix.trans hpiece.isInfix))) hapart

end Marked

/-- A pattern behind a marker it shares no text with lies wholly behind it. -/
theorem infix_of_infix_marker (hapart : ¬SharesText pattern marker)
    (h : pattern <:+: marker ++ result) : pattern <:+: result := by
  rcases List.infix_append_iff_ne_nil.1 h with
    hinside | hbehind | ⟨front, back, hfront, -, rfl, hends, -⟩
  · exact absurd (Or.inl hinside) hapart
  · exact hbehind
  · exact absurd (Or.inr (Or.inr ⟨front, hfront,
      Or.inr ⟨List.prefix_append front back, hends⟩⟩)) hapart

/-- Markers make no pattern appear that they share no text with. -/
theorem Marked.isInfix (h : Marked marker text result) (hapart : ¬SharesText pattern marker)
    (hresult : pattern <:+: result) : pattern <:+: text := by
  induction h with
  | nil => exact hresult
  | keep c hrest ih =>
    rcases List.infix_cons_iff.1 hresult with hfirst | hlater
    · exact ((hrest.keep c).prefix_of_suffix hapart List.suffix_rfl hfirst).isInfix
    · exact List.infix_cons (ih hlater)
  | take removed _ ih =>
    exact List.infix_append_of_infix_right (ih (infix_of_infix_marker hapart hresult))

end MacTypeControl.Text
