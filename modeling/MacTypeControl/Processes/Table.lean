import Mathlib.Data.List.Count
import Mathlib.Tactic.Common

/-!
# What is seen of a process table

An observer of a process table only ever sees process identifiers. Identifiers are used again, so
that an identifier alone does not say which process is meant. `World` is a course of events that
what was seen can come from, and `allExited_iff` says when every process that was named is known to
have exited.
-/

namespace MacTypeControl.Processes

/-- What is seen, one thing after another: a process is named by its identifier, a process is opened
under an identifier, no process has it, or the process that is held open under it has exited. -/
inductive Sighting where
  | named (pid : ℕ)
  | opened (pid : ℕ)
  | absent (pid : ℕ)
  | exited (pid : ℕ)
  deriving DecidableEq

/-- A course of events that fits what was seen. A process is present from its start until nothing
refers to it any more, which may be after its exit. -/
structure World (seen : List Sighting) where
  Process : Type
  pid : Process → ℕ
  present : ℕ → Process → Prop
  present_between : ∀ {i j k : ℕ} {p : Process}, i ≤ j → j ≤ k → present i p → present k p → present j p
  present_unique : ∀ {i : ℕ} {p q : Process}, present i p → present i q → pid p = pid q → p = q
  /-- The process that was named. It has been started by then, and may be gone. -/
  who : ℕ → Process
  named : ∀ {i x : ℕ}, seen[i]? = some (.named x) →
    pid (who i) = x ∧ ∀ k, i ≤ k → present k (who i) → present i (who i)
  opened : ∀ {i x : ℕ}, seen[i]? = some (.opened x) → ∃ p, present i p ∧ pid p = x
  absent : ∀ {i x : ℕ}, seen[i]? = some (.absent x) → ∀ p, present i p → pid p ≠ x
  /-- The processes that still run in the end. -/
  runs : Process → Prop
  present_of_runs : ∀ {p : Process}, runs p → present seen.length p
  exited : ∀ {i x : ℕ}, seen[i]? = some (.exited x) →
    ∃ p, present seen.length p ∧ pid p = x ∧ ¬runs p

/-- No process that was named runs in the end. -/
def World.AllExited {seen : List Sighting} (world : World seen) : Prop :=
  ∀ i x : ℕ, seen[i]? = some (.named x) → ¬world.runs (world.who i)

/-- Every identifier that was named was found to be absent later, or was held until the exit. -/
def Settled (seen : List Sighting) : Prop :=
  ∀ i x : ℕ, seen[i]? = some (.named x) →
    (∃ j : ℕ, i ≤ j ∧ seen[j]? = some (.absent x)) ∨ ∃ j : ℕ, seen[j]? = some (.exited x)

variable {seen : List Sighting}

theorem allExited_of_settled (h : Settled seen) (world : World seen) : world.AllExited := by
  intro i x hnamed hruns
  obtain ⟨hpid, hstarted⟩ := world.named hnamed
  have hlength : i < seen.length := (List.getElem?_eq_some_iff.1 hnamed).1
  have hend := world.present_of_runs hruns
  rcases h i x hnamed with ⟨j, hij, habsent⟩ | ⟨j, hexited⟩
  · have hj : j < seen.length := (List.getElem?_eq_some_iff.1 habsent).1
    have hstart := hstarted seen.length (Nat.le_of_lt hlength) hend
    exact world.absent habsent _ (world.present_between hij (Nat.le_of_lt hj) hstart hend) hpid
  · obtain ⟨p, hpresent, hp, hexit⟩ := world.exited hexited
    have hsame : world.who i = p := world.present_unique hend hpresent (hpid.trans hp.symm)
    rw [hsame] at hruns
    exact hexit hruns

/-! ## The course of events in which a process goes on -/

/-- How often an identifier has been absent by then. -/
def absences (seen : List Sighting) (moment x : ℕ) : ℕ := (seen.take (moment + 1)).count (.absent x)

theorem absences_mono {i j : ℕ} (h : i ≤ j) (x : ℕ) : absences seen i x ≤ absences seen j x :=
  List.Sublist.count_le _ (List.take_sublist_take_left (by omega))

theorem absences_succ {i x : ℕ} (h : seen[i + 1]? = some (.absent x)) :
    absences seen (i + 1) x = absences seen i x + 1 := by
  unfold absences
  rw [List.take_add_one, h, List.count_append]
  simp

theorem absences_lt {i j x : ℕ} (hij : i < j) (h : seen[j]? = some (.absent x)) :
    absences seen i x < absences seen j x := by
  obtain ⟨k, rfl⟩ : ∃ k, j = k + 1 := ⟨j - 1, by omega⟩
  have hk : absences seen i x ≤ absences seen k x := absences_mono (by omega) x
  have hsucc := absences_succ h
  omega

/-- Without another absence, an identifier has not been used again. -/
theorem absences_eq {i x : ℕ} (h : ∀ j : ℕ, i < j → seen[j]? ≠ some (.absent x)) :
    ∀ j, i ≤ j → absences seen j x = absences seen i x := by
  intro j hij
  induction hij with
  | refl => rfl
  | @step j hij ih =>
    have hlater : i < j + 1 := Nat.lt_succ_of_le hij
    rw [← ih]
    unfold absences
    rw [List.take_add_one, List.count_append]
    cases hj : seen[j + 1]? with
    | none => simp
    | some sighting =>
      have hother : sighting ≠ .absent x := by
        rintro rfl
        exact h (j + 1) hlater hj
      simp [hother]

theorem absences_end {i x : ℕ} (h : ∀ j : ℕ, i ≤ j → seen[j]? ≠ some (.absent x)) :
    absences seen i x = absences seen seen.length x := by
  by_cases hi : i ≤ seen.length
  · exact (absences_eq (fun j hj => h j (Nat.le_of_lt hj)) _ hi).symm
  · unfold absences
    rw [List.take_of_length_le (by omega), List.take_of_length_le (by omega)]

theorem lasting_between {i j k : ℕ} {p : ℕ × ℕ} (hij : i ≤ j) (hjk : j ≤ k)
    (hi : seen[i]? ≠ some (.absent p.1) ∧ p.2 = absences seen i p.1)
    (hk : seen[k]? ≠ some (.absent p.1) ∧ p.2 = absences seen k p.1) :
    seen[j]? ≠ some (.absent p.1) ∧ p.2 = absences seen j p.1 := by
  have hji : absences seen i p.1 ≤ absences seen j p.1 := absences_mono hij p.1
  have hkj : absences seen j p.1 ≤ absences seen k p.1 := absences_mono hjk p.1
  refine ⟨?_, by omega⟩
  intro habsent
  rcases Nat.eq_or_lt_of_le hij with rfl | hlt
  · exact hi.1 habsent
  · have hmore := absences_lt hlt habsent
    omega

theorem lasting_unique {i : ℕ} {p q : ℕ × ℕ}
    (hp : seen[i]? ≠ some (.absent p.1) ∧ p.2 = absences seen i p.1)
    (hq : seen[i]? ≠ some (.absent q.1) ∧ q.2 = absences seen i q.1) (hpid : p.1 = q.1) :
    p = q := by
  apply Prod.ext hpid
  rw [hp.2, hq.2, hpid]

theorem lasting_opened {i x : ℕ} (h : seen[i]? = some (.opened x)) : ∃ p : ℕ × ℕ,
    (seen[i]? ≠ some (.absent p.1) ∧ p.2 = absences seen i p.1) ∧ p.1 = x :=
  ⟨(x, absences seen i x), ⟨by simp [h], rfl⟩, rfl⟩

theorem lasting_absent {i x : ℕ} (h : seen[i]? = some (.absent x)) (p : ℕ × ℕ)
    (hp : seen[i]? ≠ some (.absent p.1) ∧ p.2 = absences seen i p.1) : p.1 ≠ x := by
  rintro rfl
  exact hp.1 h

theorem lasting_runs {i x : ℕ} (hlast : ∀ j : ℕ, i ≤ j → seen[j]? ≠ some (.absent x)) {p : ℕ × ℕ}
    (hp : p = (x, absences seen i x)) :
    seen[seen.length]? ≠ some (.absent p.1) ∧ p.2 = absences seen seen.length p.1 := by
  subst hp
  exact ⟨by simp, absences_end hlast⟩

theorem lasting_exited {i x : ℕ} (hkept : ∀ j : ℕ, seen[j]? ≠ some (.exited x)) {j y : ℕ}
    (hexited : seen[j]? = some (.exited y)) : ∃ p : ℕ × ℕ,
    (seen[seen.length]? ≠ some (.absent p.1) ∧ p.2 = absences seen seen.length p.1) ∧ p.1 = y ∧
      ¬p = (x, absences seen i x) := by
  refine ⟨(y, absences seen seen.length y), ⟨by simp, rfl⟩, rfl, ?_⟩
  intro hsame
  obtain rfl : y = x := congrArg Prod.fst hsame
  exact hkept j hexited

/-- A process for every identifier and every time that it is in use. -/
def lastingWorld (seen : List Sighting) (i x : ℕ)
    (hlast : ∀ j : ℕ, i ≤ j → seen[j]? ≠ some (.absent x))
    (hkept : ∀ j : ℕ, seen[j]? ≠ some (.exited x)) : World seen where
  Process := ℕ × ℕ
  pid := Prod.fst
  present j p := seen[j]? ≠ some (.absent p.1) ∧ p.2 = absences seen j p.1
  present_between := lasting_between
  present_unique := lasting_unique
  who j := match seen[j]? with
    | some (.named y) => (y, absences seen j y)
    | _ => (0, 0)
  named := by
    intro j y hnamed
    simp [hnamed]
  opened := lasting_opened
  absent := lasting_absent
  runs p := p = (x, absences seen i x)
  present_of_runs := lasting_runs hlast
  exited := lasting_exited hkept

/-- Every process that was named has exited, whatever the course of events, just when every
identifier is settled. -/
theorem allExited_iff : (∀ world : World seen, world.AllExited) ↔ Settled seen := by
  constructor
  · intro h i x hnamed
    by_contra hopen
    push Not at hopen
    have hruns := h (lastingWorld seen i x hopen.1 hopen.2) i x hnamed
    apply hruns
    simp [lastingWorld, hnamed]
  · intro h world
    exact allExited_of_settled h world

theorem settled_iff : Settled seen ↔ ∀ before x after, seen = before ++ .named x :: after →
    .absent x ∈ after ∨ .exited x ∈ seen := by
  constructor
  · rintro h before x after rfl
    have hnamed : (before ++ .named x :: after)[before.length]? = some (.named x) := by simp
    rcases h before.length x hnamed with ⟨j, hj, habsent⟩ | ⟨j, hexited⟩
    · left
      rw [List.getElem?_append_right hj] at habsent
      cases hindex : j - before.length with
      | zero => simp [hindex] at habsent
      | succ k =>
        rw [hindex, List.getElem?_cons_succ] at habsent
        exact List.mem_of_getElem? habsent
    · exact Or.inr (List.mem_of_getElem? hexited)
  · intro h i x hnamed
    obtain ⟨hi, hget⟩ := List.getElem?_eq_some_iff.1 hnamed
    have hsplit : seen = seen.take i ++ .named x :: seen.drop (i + 1) := by
      rw [← hget, List.getElem_cons_drop hi, List.take_append_drop]
    rcases h _ x _ hsplit with habsent | hexited
    · left
      obtain ⟨k, hk⟩ := List.mem_iff_getElem?.1 habsent
      rw [List.getElem?_drop] at hk
      exact ⟨i + 1 + k, by omega, hk⟩
    · exact Or.inr (List.mem_iff_getElem?.1 hexited)

end MacTypeControl.Processes
