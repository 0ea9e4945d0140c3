import Mathlib.Tactic.Common

/-!
# Calls that ask their environment

A call asks its environment one question after another, and may go on for as long as the answers
keep it going. It changes a state and returns or reports an error; without enough fuel it does
neither. `wlp m Q E s` says what holds if the call ends: `Q` where it returns, `E` where it reports
an error.
-/

namespace MacTypeControl.Calls

/-- A call with what it returns or reports, and the state that it leaves. -/
def Call (σ ε α : Type) := σ → Option (Except ε α × σ)

namespace Call

variable {σ ε ε' α β : Type}

def ret (a : α) : Call σ ε α := fun s => some (.ok a, s)

def throw (e : ε) : Call σ ε α := fun s => some (.error e, s)

def andThen (m : Call σ ε α) (f : α → Call σ ε β) : Call σ ε β := fun s =>
  match m s with
  | none => none
  | some (.error e, t) => some (.error e, t)
  | some (.ok a, t) => f a t

instance : Monad (Call σ ε) where
  pure := ret
  bind := andThen

/-- A question with its answer. The state keeps what has been asked. -/
def ask (question : σ → Except ε α × σ) : Call σ ε α := fun s => some (question s)

/-- A question whose answer does not depend on the state. -/
def answered (x : Except ε α) : Call σ ε α := fun s => some (x, s)

/-- The error of a call as a value. -/
def attempt (m : Call σ ε α) : Call σ ε' (Except ε α) := fun s =>
  (m s).map fun (result, t) => (.ok result, t)

def mapError (f : ε → ε') (m : Call σ ε α) : Call σ ε' α := fun s =>
  (m s).map fun (result, t) => (result.mapError f, t)

/-- A round that is made again until it comes to a value. -/
def loop : ℕ → Call σ ε (Option α) → Call σ ε α
  | 0, _ => fun _ => none
  | fuel + 1, round => do
    match ← round with
    | some a => ret a
    | none => loop fuel round

/-! ## What holds when a call ends -/

def Meets (Q : α → σ → Prop) (E : ε → σ → Prop) : Except ε α × σ → Prop
  | (.ok a, s) => Q a s
  | (.error e, s) => E e s

def wlp (m : Call σ ε α) (Q : α → σ → Prop) (E : ε → σ → Prop) (s : σ) : Prop :=
  ∀ ended, m s = some ended → Meets Q E ended

variable {Q Q' : α → σ → Prop} {E E' : ε → σ → Prop} {s t : σ}

theorem wlp_ret {a : α} (h : Q a s) : wlp (ret a) Q E s := by
  intro ended hended
  cases hended
  exact h

theorem wlp_throw {e : ε} (h : E e s) : wlp (throw e) Q E s := by
  intro ended hended
  cases hended
  exact h

theorem wlp_ask {question : σ → Except ε α × σ} (h : Meets Q E (question s)) :
    wlp (ask question) Q E s := by
  intro ended hended
  cases hended
  exact h

theorem wlp_answered {x : Except ε α} (hok : ∀ a, x = .ok a → Q a s)
    (herror : ∀ e, x = .error e → E e s) : wlp (answered x) Q E s := by
  intro ended hended
  cases hended
  cases x with
  | ok a => exact hok a rfl
  | error e => exact herror e rfl

theorem wlp_bind {m : Call σ ε α} {f : α → Call σ ε β} {Q : β → σ → Prop} :
    wlp (m >>= f) Q E s ↔ wlp m (fun a => wlp (f a) Q E) E s := by
  have hrun : (m >>= f) s = match m s with
      | none => none
      | some (.error e, t) => some (.error e, t)
      | some (.ok a, t) => f a t := rfl
  unfold wlp
  rw [hrun]
  constructor
  · intro h ended hended
    rw [hended] at h
    obtain ⟨result, t⟩ := ended
    cases result with
    | error e => exact h _ rfl
    | ok a => exact h
  · intro h ended hended
    cases hm : m s with
    | none =>
      rw [hm] at hended
      cases hended
    | some first =>
      have hfirst := h first hm
      rw [hm] at hended
      obtain ⟨result, t⟩ := first
      cases result with
      | error e =>
        cases hended
        exact hfirst
      | ok a => exact hfirst ended hended

theorem wlp_mono {m : Call σ ε α} (h : wlp m Q E s) (hQ : ∀ a t, Q a t → Q' a t)
    (hE : ∀ e t, E e t → E' e t) : wlp m Q' E' s := by
  intro ended hended
  have hmeets := h ended hended
  obtain ⟨result, t⟩ := ended
  cases result with
  | error e => exact hE e t hmeets
  | ok a => exact hQ a t hmeets

theorem wlp_attempt {m : Call σ ε α} {Q : Except ε α → σ → Prop} {E : ε' → σ → Prop}
    (h : wlp m (fun a => Q (.ok a)) (fun e => Q (.error e)) s) : wlp (attempt m) Q E s := by
  intro ended hended
  obtain ⟨⟨result, t⟩, hm, rfl⟩ := Option.map_eq_some_iff.1 hended
  have hmeets := h _ hm
  cases result with
  | error e => exact hmeets
  | ok a => exact hmeets

theorem wlp_mapError {m : Call σ ε α} {f : ε → ε'} {E : ε' → σ → Prop}
    (h : wlp m Q (fun e => E (f e)) s) : wlp (mapError f m) Q E s := by
  intro ended hended
  obtain ⟨⟨result, t⟩, hm, rfl⟩ := Option.map_eq_some_iff.1 hended
  have hmeets := h _ hm
  cases result with
  | error e => exact hmeets
  | ok a => exact hmeets

/-- What a round comes to: the invariant again, or the value of the loop. -/
def RoundEnds (invariant : σ → Prop) (Q : α → σ → Prop) : Option α → σ → Prop
  | none, t => invariant t
  | some a, t => Q a t

/-- What every round keeps holds after any number of them. -/
theorem wlp_loop {round : Call σ ε (Option α)} (invariant : σ → Prop) :
    ∀ (fuel : ℕ) {s : σ}, invariant s →
      (∀ s, invariant s → wlp round (RoundEnds invariant Q) E s) →
      wlp (loop fuel round) Q E s := by
  intro fuel
  induction fuel with
  | zero =>
    intro s _ _ ended hended
    cases hended
  | succ fuel ih =>
    intro s hs hround
    unfold loop
    rw [wlp_bind]
    refine wlp_mono (hround s hs) ?_ fun e t h => h
    intro a t h
    cases a with
    | some a => exact wlp_ret h
    | none => exact ih h hround

end Call

end MacTypeControl.Calls
