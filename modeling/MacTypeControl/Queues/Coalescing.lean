import Mathlib.Data.List.Basic
import Mathlib.Tactic.Common

/-!
# Queues in which a later element takes the place of earlier ones

The elements are numbered as they come. An element of the coalescing kind removes those of its kind
that are still waiting. Every element is taken, is waiting, or has been superseded.
-/

namespace MacTypeControl.Queues

/-- What was pushed, what was taken so far, and what is waiting, with the numbers of the pushes. -/
structure Coalescing (α : Type) where
  pushed : List α
  taken : List (ℕ × α)
  waiting : List (ℕ × α)

namespace Coalescing

variable {α : Type}

def empty : Coalescing α := ⟨[], [], []⟩

def push (coalesces : α → Bool) (q : Coalescing α) (a : α) : Coalescing α where
  pushed := q.pushed ++ [a]
  taken := q.taken
  waiting :=
    (if coalesces a then q.waiting.filter (fun e => !coalesces e.2) else q.waiting) ++
      [(q.pushed.length, a)]

def pop (q : Coalescing α) : Option ((ℕ × α) × Coalescing α) :=
  match q.waiting with
  | [] => none
  | first :: rest => some (first, { q with taken := q.taken ++ [first], waiting := rest })

/-- A later element of the coalescing kind has come. -/
def Superseded (coalesces : α → Bool) (pushed : List α) (n : ℕ) : Prop :=
  ∃ a m b, pushed[n]? = some a ∧ coalesces a = true ∧ n < m ∧ pushed[m]? = some b ∧
    coalesces b = true

structure Accounted (coalesces : α → Bool) (q : Coalescing α) : Prop where
  numbered : ∀ e ∈ q.taken ++ q.waiting, q.pushed[e.1]? = some e.2
  rising : (q.taken ++ q.waiting).Pairwise fun e f => e.1 < f.1
  complete : ∀ (n : ℕ) (a : α), q.pushed[n]? = some a →
    (n, a) ∈ q.taken ++ q.waiting ∨ Superseded coalesces q.pushed n

theorem accounted_empty (coalesces : α → Bool) : Accounted coalesces (empty : Coalescing α) := by
  refine ⟨fun e he => absurd he List.not_mem_nil, List.Pairwise.nil, fun n a h => ?_⟩
  simp [empty] at h

variable {coalesces : α → Bool} {q : Coalescing α}

/-- What is already there keeps its number when more is pushed. -/
theorem getElem?_concat {pushed : List α} {n : ℕ} {a b : α} (h : pushed[n]? = some a) :
    (pushed ++ [b])[n]? = some a := by
  obtain ⟨hlt, -⟩ := List.getElem?_eq_some_iff.1 h
  rw [List.getElem?_append_left hlt, h]

theorem Superseded.push {pushed : List α} {n : ℕ} (h : Superseded coalesces pushed n) (b : α) :
    Superseded coalesces (pushed ++ [b]) n := by
  obtain ⟨a, m, c, ha, hcoalesces, hlt, hc, hother⟩ := h
  exact ⟨a, m, c, getElem?_concat ha, hcoalesces, hlt, getElem?_concat hc, hother⟩

theorem Accounted.lt_length (h : Accounted coalesces q) {e : ℕ × α}
    (he : e ∈ q.taken ++ q.waiting) : e.1 < q.pushed.length :=
  (List.getElem?_eq_some_iff.1 (h.numbered e he)).1

/-- What waits after a push is the new element and some of what was waiting. -/
theorem push_waiting_sublist (coalesces : α → Bool) (q : Coalescing α) (a : α) :
    ∃ kept, (q.push coalesces a).waiting = kept ++ [(q.pushed.length, a)] ∧
      kept.Sublist q.waiting := by
  refine ⟨_, rfl, ?_⟩
  by_cases hcoalesces : coalesces a = true
  · rw [if_pos hcoalesces]
    exact List.filter_sublist
  · rw [if_neg hcoalesces]

theorem Accounted.push (h : Accounted coalesces q) (a : α) :
    Accounted coalesces (q.push coalesces a) := by
  obtain ⟨kept, hwaiting, hkept⟩ := push_waiting_sublist coalesces q a
  have hsub : (q.taken ++ kept).Sublist (q.taken ++ q.waiting) := (List.Sublist.refl _).append hkept
  have hall : (q.push coalesces a).taken ++ (q.push coalesces a).waiting =
      (q.taken ++ kept) ++ [(q.pushed.length, a)] := by
    rw [hwaiting, List.append_assoc]
    rfl
  have hlast : (q.pushed ++ [a])[q.pushed.length]? = some a := by simp
  constructor
  case numbered =>
    intro e he
    rw [hall] at he
    rcases List.mem_append.1 he with he | he
    · exact getElem?_concat (h.numbered e (hsub.subset he))
    · rw [List.mem_singleton.1 he]
      exact hlast
  case rising =>
    rw [hall, List.pairwise_append]
    refine ⟨h.rising.sublist hsub, List.pairwise_singleton _ _, fun e he f hf => ?_⟩
    rw [List.mem_singleton.1 hf]
    exact h.lt_length (hsub.subset he)
  case complete =>
    intro n b hb
    rw [hall]
    by_cases hnew : n = q.pushed.length
    · have hsame : (n, b) = (q.pushed.length, a) := by
        change (q.pushed ++ [a])[n]? = some b at hb
        rw [hnew, hlast] at hb
        rw [hnew, Option.some.inj hb]
      exact Or.inl (List.mem_append_right _ (List.mem_singleton.2 hsame))
    · have hold : q.pushed[n]? = some b := by
        change (q.pushed ++ [a])[n]? = some b at hb
        obtain ⟨hlt, -⟩ := List.getElem?_eq_some_iff.1 hb
        rw [List.length_append, List.length_singleton] at hlt
        rwa [List.getElem?_append_left (by omega)] at hb
      rcases h.complete n b hold with hmem | hsuperseded
      · rcases List.mem_append.1 hmem with htaken | hwaits
        · exact Or.inl (List.mem_append_left _ (List.mem_append_left _ htaken))
        -- it still waits, unless it is of the kind of the new element
        · by_cases hboth : coalesces a = true ∧ coalesces b = true
          · obtain ⟨hlt, -⟩ := List.getElem?_eq_some_iff.1 hold
            exact Or.inr ⟨b, q.pushed.length, a, hb, hboth.2, hlt, hlast, hboth.1⟩
          · have hremains : (n, b) ∈ (q.push coalesces a).waiting := by
              refine List.mem_append_left _ ?_
              by_cases hcoalesces : coalesces a = true
              · rw [if_pos hcoalesces]
                have hother : coalesces b = false := by
                  simpa [hcoalesces] using hboth
                exact List.mem_filter.2 ⟨hwaits, by simp [hother]⟩
              · rw [if_neg hcoalesces]
                exact hwaits
            rw [hwaiting] at hremains
            rw [List.append_assoc]
            exact Or.inl (List.mem_append_right _ hremains)
      · exact Or.inr (hsuperseded.push a)

theorem pop_eq_some {first : ℕ × α} {t : Coalescing α} (h : q.pop = some (first, t)) :
    ∃ rest, q.waiting = first :: rest ∧
      t = { q with taken := q.taken ++ [first], waiting := rest } := by
  unfold pop at h
  cases hwaiting : q.waiting with
  | nil =>
    rw [hwaiting] at h
    cases h
  | cons other rest =>
    rw [hwaiting] at h
    cases h
    exact ⟨rest, rfl, rfl⟩

theorem pop_eq_none (h : q.pop = none) : q.waiting = [] := by
  unfold pop at h
  cases hwaiting : q.waiting with
  | nil => rfl
  | cons other rest =>
    rw [hwaiting] at h
    cases h

theorem Accounted.pop (h : Accounted coalesces q) {first : ℕ × α} {t : Coalescing α}
    (hpop : q.pop = some (first, t)) : Accounted coalesces t := by
  obtain ⟨rest, hwaiting, rfl⟩ := pop_eq_some hpop
  have hall : q.taken ++ [first] ++ rest = q.taken ++ q.waiting := by
    rw [hwaiting, List.append_assoc]
    rfl
  refine ⟨?_, ?_, ?_⟩
  · rw [hall]
    exact h.numbered
  · rw [hall]
    exact h.rising
  · rw [hall]
    exact h.complete

end Coalescing

end MacTypeControl.Queues
