import Mathlib.Tactic.Common

/-!
# Checks that report an error
-/

namespace MacTypeControl

variable {ε α β : Type}

/-- Reports the error unless the condition holds. -/
def require (condition : Bool) (e : ε) : Except ε Unit :=
  if condition then .ok () else .error e

theorem ok_of_require {condition : Bool} {e : ε} (h : require condition e = .ok ()) :
    condition = true := by
  cases condition with
  | true => rfl
  | false => simp [require] at h

theorem require_true {condition : Bool} (e : ε) (h : condition = true) :
    require condition e = .ok () := by
  rw [h]
  rfl

theorem bind_eq_ok {x : Except ε α} {f : α → Except ε β} {b : β} :
    (x >>= f) = .ok b ↔ ∃ a, x = .ok a ∧ f a = .ok b := by
  cases x with
  | error e => simp [bind, Except.bind]
  | ok a => simp [bind, Except.bind]

theorem map_eq_ok {x : Except ε α} {f : α → β} {b : β} :
    x.map f = .ok b ↔ ∃ a, x = .ok a ∧ f a = b := by
  cases x with
  | error e => simp [Except.map]
  | ok a => simp [Except.map]

theorem bind_eq_error {x : Except ε α} {f : α → Except ε β} {e : ε} :
    (x >>= f) = .error e ↔ x = .error e ∨ ∃ a, x = .ok a ∧ f a = .error e := by
  cases x with
  | error e => simp [bind, Except.bind]
  | ok a => simp [bind, Except.bind]

/-- All checks of a list pass if each of them does, and only then. -/
theorem forM_eq_ok_iff {f : α → Except ε Unit} {xs : List α} :
    xs.forM f = .ok () ↔ ∀ x ∈ xs, f x = .ok () := by
  induction xs with
  | nil => exact iff_of_true rfl fun _ h => absurd h List.not_mem_nil
  | cons x xs ih =>
    change (f x >>= fun _ => xs.forM f) = .ok () ↔ _
    rw [bind_eq_ok, List.forall_mem_cons, ← ih]
    constructor
    · rintro ⟨⟨⟩, hhead, htail⟩
      exact ⟨hhead, htail⟩
    · exact fun h => ⟨(), h.1, h.2⟩

/-- Where every element adds its own members to what is collected, a whole list adds those of all
its elements. -/
theorem foldlM_collects {γ : Type} {f : β → α → Except ε β} {holds : β → γ → Prop}
    {adds : α → γ → Prop}
    (hstep : ∀ b a b', f b a = .ok b' → ∀ c, holds b' c ↔ holds b c ∨ adds a c) {xs : List α}
    {b b' : β} (h : xs.foldlM f b = .ok b') (c : γ) :
    holds b' c ↔ holds b c ∨ ∃ x ∈ xs, adds x c := by
  induction xs generalizing b with
  | nil =>
    cases h
    simp
  | cons x xs ih =>
    rw [List.foldlM_cons] at h
    obtain ⟨next, hnext, h⟩ := bind_eq_ok.1 h
    simp only [ih h, hstep b x next hnext c, List.mem_cons, exists_eq_or_imp, or_assoc]

theorem ok_of_mem_mapM {f : α → Except ε β} {xs : List α} {ys : List β}
    (h : xs.mapM f = .ok ys) {x : α} (hx : x ∈ xs) : ∃ y ∈ ys, f x = .ok y := by
  induction xs generalizing ys with
  | nil => exact absurd hx List.not_mem_nil
  | cons z xs ih =>
    rw [List.mapM_cons] at h
    obtain ⟨y, hy, h⟩ := bind_eq_ok.1 h
    obtain ⟨rest, hrest, h⟩ := bind_eq_ok.1 h
    cases h
    rcases List.mem_cons.1 hx with rfl | hx
    · exact ⟨y, List.mem_cons_self, hy⟩
    · obtain ⟨y', hy', hf⟩ := ih hrest hx
      exact ⟨y', List.mem_cons_of_mem _ hy', hf⟩

theorem mem_of_mapM {f : α → Except ε β} {xs : List α} {ys : List β}
    (h : xs.mapM f = .ok ys) {y : β} (hy : y ∈ ys) : ∃ x ∈ xs, f x = .ok y := by
  induction xs generalizing ys with
  | nil =>
    cases h
    exact absurd hy List.not_mem_nil
  | cons x xs ih =>
    rw [List.mapM_cons] at h
    obtain ⟨first, hfirst, h⟩ := bind_eq_ok.1 h
    obtain ⟨rest, hrest, h⟩ := bind_eq_ok.1 h
    cases h
    rcases List.mem_cons.1 hy with rfl | hy
    · exact ⟨x, List.mem_cons_self, hfirst⟩
    · obtain ⟨x', hx', hf⟩ := ih hrest hy
      exact ⟨x', List.mem_cons_of_mem _ hx', hf⟩

theorem exists_mapM_eq_ok {f : α → Except ε β} {xs : List α} (h : ∀ x ∈ xs, ∃ y, f x = .ok y) :
    ∃ ys, xs.mapM f = .ok ys := by
  induction xs with
  | nil => exact ⟨[], rfl⟩
  | cons x xs ih =>
    obtain ⟨y, hy⟩ := h x List.mem_cons_self
    obtain ⟨ys, hys⟩ := ih fun z hz => h z (List.mem_cons_of_mem _ hz)
    rw [List.mapM_cons]
    exact ⟨y :: ys, bind_eq_ok.2 ⟨y, hy, bind_eq_ok.2 ⟨ys, hys, rfl⟩⟩⟩

end MacTypeControl
