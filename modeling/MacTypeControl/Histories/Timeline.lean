import Mathlib.Data.List.Chain
import Mathlib.Data.List.Basic
import Mathlib.Tactic

/-!
# Undo and redo

A present state has states before it and states that were undone, both with the nearest one last.
-/

namespace MacTypeControl.Histories

structure Timeline (α : Type) where
  past : List α
  present : α
  future : List α

namespace Timeline

variable {α : Type}

/-- Makes another state the present one. The past keeps no more than so many states. -/
def record [DecidableEq α] (limit : ℕ) (next : α) (t : Timeline α) : Timeline α :=
  if next = t.present then t
  else ⟨(if t.past.length = limit then t.past.tail else t.past) ++ [t.present], next, []⟩

def undo (t : Timeline α) : Option (Timeline α) :=
  t.past.getLast?.map fun previous => ⟨t.past.dropLast, previous, t.future ++ [t.present]⟩

def redo (t : Timeline α) : Option (Timeline α) :=
  t.future.getLast?.map fun next => ⟨t.past ++ [t.present], next, t.future.dropLast⟩

theorem undo_eq_some {t t' : Timeline α} :
    t.undo = some t' ↔ t.past = t'.past ++ [t'.present] ∧ t'.future = t.future ++ [t.present] := by
  rcases t with ⟨past, present, future⟩
  rcases t' with ⟨past', present', future'⟩
  rcases List.eq_nil_or_concat past with rfl | ⟨before, last, rfl⟩
  · simp [undo]
  · simp only [undo, List.concat_eq_append, List.getLast?_concat, Option.map_some,
      List.dropLast_concat, Option.some.injEq, Timeline.mk.injEq, List.append_singleton_inj]
    constructor
    · rintro ⟨rfl, rfl, rfl⟩
      exact ⟨⟨rfl, rfl⟩, rfl⟩
    · rintro ⟨⟨rfl, rfl⟩, rfl⟩
      exact ⟨rfl, rfl, rfl⟩

theorem redo_eq_some {t t' : Timeline α} :
    t.redo = some t' ↔ t.future = t'.future ++ [t'.present] ∧ t'.past = t.past ++ [t.present] := by
  rcases t with ⟨past, present, future⟩
  rcases t' with ⟨past', present', future'⟩
  rcases List.eq_nil_or_concat future with rfl | ⟨before, last, rfl⟩
  · simp [redo]
  · simp only [redo, List.concat_eq_append, List.getLast?_concat, Option.map_some,
      List.dropLast_concat, Option.some.injEq, Timeline.mk.injEq, List.append_singleton_inj]
    constructor
    · rintro ⟨rfl, rfl, rfl⟩
      exact ⟨⟨rfl, rfl⟩, rfl⟩
    · rintro ⟨⟨rfl, rfl⟩, rfl⟩
      exact ⟨rfl, rfl, rfl⟩

/-- Undo and redo take back each other. -/
theorem redo_eq_some_iff_undo {t t' : Timeline α} : t'.redo = some t ↔ t.undo = some t' := by
  rw [redo_eq_some, undo_eq_some, and_comm]

/-- The states one after the other. -/
def line (t : Timeline α) : List α := t.past ++ t.present :: t.future.reverse

theorem line_undo {t t' : Timeline α} (h : t.undo = some t') : t'.line = t.line := by
  obtain ⟨hpast, hfuture⟩ := undo_eq_some.mp h
  simp [line, hpast, hfuture]

theorem line_redo {t t' : Timeline α} (h : t.redo = some t') : t'.line = t.line :=
  (line_undo (redo_eq_some_iff_undo.mp h)).symm

/-- Each state of the line follows from the one before it. -/
def Linked (follows : α → α → Prop) (t : Timeline α) : Prop := t.line.IsChain follows

theorem Linked.undo {follows : α → α → Prop} {t t' : Timeline α} (ht : t.Linked follows)
    (h : t.undo = some t') : t'.Linked follows := by
  unfold Linked
  rwa [line_undo h]

theorem Linked.redo {follows : α → α → Prop} {t t' : Timeline α} (ht : t.Linked follows)
    (h : t.redo = some t') : t'.Linked follows := by
  unfold Linked
  rwa [line_redo h]

/-- The present state follows from the one that undo brings back. -/
theorem Linked.follows_undo {follows : α → α → Prop} {t t' : Timeline α} (ht : t.Linked follows)
    (h : t.undo = some t') : follows t'.present t.present := by
  obtain ⟨hpast, -⟩ := undo_eq_some.mp h
  have hline : t.line = t'.past ++ t'.present :: t.present :: t.future.reverse := by
    simp [line, hpast]
  rw [Linked, hline] at ht
  exact (List.isChain_cons_cons.mp ht.right_of_append).1

variable [DecidableEq α] {limit : ℕ}

theorem record_same (t : Timeline α) : t.record limit t.present = t := if_pos rfl

theorem record_other {t : Timeline α} {next : α} (h : next ≠ t.present) :
    t.record limit next =
      ⟨(if t.past.length = limit then t.past.tail else t.past) ++ [t.present], next, []⟩ :=
  if_neg h

theorem present_record (t : Timeline α) (next : α) : (t.record limit next).present = next := by
  by_cases h : next = t.present
  · rw [h, record_same]
  · rw [record_other h]

theorem undo_record {t : Timeline α} {next : α} (h : next ≠ t.present) :
    (t.record limit next).undo =
      some ⟨if t.past.length = limit then t.past.tail else t.past, t.present, [next]⟩ := by
  rw [record_other h, undo_eq_some]
  exact ⟨rfl, rfl⟩

theorem Linked.record {follows : α → α → Prop} {t : Timeline α} (ht : t.Linked follows) {next : α}
    (h : follows t.present next) : (t.record limit next).Linked follows := by
  by_cases hsame : next = t.present
  · rw [hsame, record_same]
    exact ht
  · rw [record_other hsame]
    have hpast : (t.past ++ [t.present]).IsChain follows := by
      rw [Linked, line, List.append_cons] at ht
      exact ht.left_of_append
    have hnext : (t.past ++ [t.present] ++ [next]).IsChain follows :=
      hpast.append (.singleton next) (by simpa using h)
    unfold Linked line
    split_ifs
    · match hp : t.past with
      | [] => simpa [hp] using hnext
      | first :: past =>
        rw [hp] at hnext
        exact hnext.tail
    · exact hnext

theorem mem_line_record {t : Timeline α} {next state : α}
    (h : state ∈ (t.record limit next).line) : state ∈ t.line ∨ state = next := by
  by_cases hsame : next = t.present
  · rw [hsame, record_same] at h
    exact Or.inl h
  · rw [record_other hsame] at h
    simp only [line, List.reverse_nil, List.mem_append, List.mem_cons, List.not_mem_nil,
      or_false] at h ⊢
    have hpast : state ∈ (if t.past.length = limit then t.past.tail else t.past) →
        state ∈ t.past := by
      split_ifs
      · exact List.mem_of_mem_tail
      · exact id
    tauto

/-- All the states but the present one are no more than the limit. -/
def Bounded (limit : ℕ) (t : Timeline α) : Prop := t.past.length + t.future.length ≤ limit

omit [DecidableEq α] in
theorem Bounded.undo {t t' : Timeline α} (ht : t.Bounded limit) (h : t.undo = some t') :
    t'.Bounded limit := by
  obtain ⟨hpast, hfuture⟩ := undo_eq_some.mp h
  unfold Bounded at *
  simp only [hpast, hfuture, List.length_append, List.length_singleton] at *
  omega

omit [DecidableEq α] in
theorem Bounded.redo {t t' : Timeline α} (ht : t.Bounded limit) (h : t.redo = some t') :
    t'.Bounded limit := by
  obtain ⟨hfuture, hpast⟩ := redo_eq_some.mp h
  unfold Bounded at *
  simp only [hpast, hfuture, List.length_append, List.length_singleton] at *
  omega

theorem Bounded.record {t : Timeline α} (hlimit : 0 < limit) (ht : t.Bounded limit) (next : α) :
    (t.record limit next).Bounded limit := by
  by_cases hsame : next = t.present
  · rwa [hsame, record_same]
  · rw [record_other hsame]
    unfold Bounded at *
    split_ifs with hfull
    · simp only [List.length_append, List.length_tail, List.length_singleton, List.length_nil]
      omega
    · simp only [List.length_append, List.length_singleton, List.length_nil]
      omega

end Timeline

end MacTypeControl.Histories
