import Mathlib.Tactic.Common

/-!
# The active and the previous profile

What publishing and rolling back mean for the two profile pointers, whatever
files carry them.
-/

namespace MacTypeControl.Profile

/-- The generations the two pointers name. -/
structure Pointers (γ : Type) where
  active : Option γ
  previous : Option γ
  deriving DecidableEq

namespace Pointers

variable {γ : Type} [DecidableEq γ]

/-- Making the active generation active again changes nothing. -/
def activate (p : Pointers γ) (generation : γ) : Pointers γ :=
  if p.active = some generation then p
  else ⟨some generation, p.active.or p.previous⟩

/-- Rolling back swaps the two, or withdraws the first profile; without an
active profile there is nothing to roll back. -/
def rollback (p : Pointers γ) : Option (Pointers γ) :=
  match p.active, p.previous with
  | none, _ => none
  | some active, some previous => some ⟨some previous, some active⟩
  | some _, none => some ⟨none, none⟩

/-- What activation and rollback keep: a previous profile stands behind another,
active one. -/
structure Consistent (p : Pointers γ) : Prop where
  first : p.active = none → p.previous = none
  distinct : ∀ generation, p.active = some generation → p.previous ≠ some generation

variable {p : Pointers γ} {generation : γ}

theorem Consistent.activate (h : p.Consistent) (generation : γ) :
    (p.activate generation).Consistent := by
  unfold Pointers.activate
  split
  · exact h
  next hne =>
  refine ⟨by simp, fun g hg => ?_⟩
  obtain rfl := Option.some.inj hg
  cases ha : p.active with
  | none => simp [h.first ha]
  | some a => simpa [ha] using hne

omit [DecidableEq γ] in
theorem Consistent.rollback {q : Pointers γ} (h : p.Consistent) (hq : p.rollback = some q) :
    q.Consistent := by
  unfold Pointers.rollback at hq
  split at hq
  · cases hq
  · next active previous ha hp =>
    cases hq
    refine ⟨by simp, fun g hg he => ?_⟩
    exact h.distinct active ha (hp.trans (hg.trans he.symm))
  · cases hq
    exact ⟨fun _ => rfl, by simp⟩

/-- The pointers of a profile store: nothing published yet, or the result of an
activation or a rollback. -/
inductive Stored : Pointers γ → Prop
  | empty : Stored ⟨none, none⟩
  | activate (generation : γ) {p : Pointers γ} : Stored p → Stored (p.activate generation)
  | rollback {p q : Pointers γ} : Stored p → p.rollback = some q → Stored q

theorem Stored.consistent (h : p.Stored) : p.Consistent := by
  induction h with
  | empty => exact ⟨fun _ => rfl, by simp⟩
  | activate generation _ ih => exact ih.activate generation
  | rollback _ hq ih => exact ih.rollback hq

theorem activate_of_active (h : p.active = some generation) : p.activate generation = p :=
  if_pos h

/-- A rollback after a change of the active profile brings the old one back. -/
theorem rollback_activate (h : p.Consistent) (hne : p.active ≠ some generation) :
    ∃ q, (p.activate generation).rollback = some q ∧ q.active = p.active := by
  have hnew : p.activate generation = ⟨some generation, p.active.or p.previous⟩ := if_neg hne
  rw [hnew]
  cases ha : p.active with
  | none => exact ⟨⟨none, none⟩, by simp [Pointers.rollback, h.first ha], rfl⟩
  | some a => exact ⟨⟨some a, some generation⟩, by simp [Pointers.rollback], rfl⟩

omit [DecidableEq γ] in
/-- A rollback without such a change loses the active profile. -/
theorem rollback_active_ne (h : p.Consistent) {q : Pointers γ} (hq : p.rollback = some q) :
    q.active ≠ p.active := by
  unfold Pointers.rollback at hq
  split at hq
  · cases hq
  · next active previous ha hp =>
    cases hq
    intro he
    exact h.distinct active ha (hp.trans (he.trans ha))
  · next active ha hp =>
    cases hq
    simp [ha]

end Pointers
end MacTypeControl.Profile
