import Mathlib.Tactic.Common

/-!
# Programs that can stop at any step

A program over durable state is a sequence of steps. The environment may let a
step happen, make it fail, or stop the whole program there; a step that fails
or is stopped may leave one of the partial effects it declares. The faults are
read from a script, so a run is a function and can be evaluated.
-/

namespace MacTypeControl.Crash

/-- What the environment does to one step. The number selects a partial effect. -/
inductive Fault where
  | none
  | fail (partialEffect : ℕ)
  | crash (partialEffect : ℕ)
  deriving DecidableEq

inductive Outcome (ε α : Type) where
  | done (value : α)
  | error (cause : ε)
  | crashed
  deriving DecidableEq

/-- A program consumes one fault for every step and invents none: without
faults it runs without faults. -/
structure Prog (σ ε α : Type) where
  run : List Fault → σ → Outcome ε α × σ × List Fault
  exhausted : ∀ s, (run [] s).2.2 = []

namespace Prog

variable {σ ε α β : Type}

def ret (a : α) : Prog σ ε α where
  run fs s := (.done a, s, fs)
  exhausted _ := rfl

def throw (e : ε) : Prog σ ε α where
  run fs s := (.error e, s, fs)
  exhausted _ := rfl

def andThen (m : Prog σ ε α) (f : α → Prog σ ε β) : Prog σ ε β where
  run fs s := match m.run fs s with
    | (.done a, t, gs) => (f a).run gs t
    | (.error e, t, gs) => (.error e, t, gs)
    | (.crashed, t, gs) => (.crashed, t, gs)
  exhausted s := by
    have hm := m.exhausted s
    revert hm
    rcases m.run [] s with ⟨_ | _ | _, t, gs⟩ <;> intro hm
    · cases hm
      exact (f _).exhausted t
    · exact hm
    · exact hm

instance : Monad (Prog σ ε) where
  pure := ret
  bind := andThen

/-- A look at the state that cannot fail. -/
def observe (f : σ → α) : Prog σ ε α where
  run fs s := (.done (f s), s, fs)
  exhausted _ := rfl

def ofExcept : Except ε α → Prog σ ε α
  | .ok a => ret a
  | .error e => throw e

/-- A change of what the program holds in memory; it is no step and meets no fault. -/
def change (f : σ → Except ε σ) : Prog σ ε Unit where
  run fs s := match f s with
    | .ok t => (.done (), t, fs)
    | .error e => (.error e, s, fs)
  exhausted s := by split <;> rfl

/-- The state a step is left in when it does not complete. -/
def interrupted (partials : σ → List σ) (k : ℕ) (s : σ) : σ := (partials s)[k]?.getD s

def complete (s : σ) : Except ε (α × σ) → Outcome ε α × σ
  | .ok (a, t) => (.done a, t)
  | .error e => (.error e, s)

/-- One step. It either does the whole of `effect`, or reports an error of its
own, or is caught by the environment in one of `partials`. -/
def step (io : ε) (partials : σ → List σ) (effect : σ → Except ε (α × σ)) : Prog σ ε α where
  run
    | [], s => ((complete s (effect s)).1, (complete s (effect s)).2, [])
    | .none :: fs, s => ((complete s (effect s)).1, (complete s (effect s)).2, fs)
    | .fail k :: fs, s => (.error io, interrupted partials k s, fs)
    | .crash k :: fs, s => (.crashed, interrupted partials k s, fs)
  exhausted _ := rfl

/-- A step that happens as a whole or not at all. -/
def atomic (io : ε) (effect : σ → Except ε (α × σ)) : Prog σ ε α :=
  step io (fun _ => []) effect

/-- An unconditional change of the state, as one atomic step. -/
def modify (io : ε) (f : σ → σ) : Prog σ ε Unit :=
  atomic io fun s => .ok ((), f s)

/-- A read that may fail. -/
def inspect (io : ε) (f : σ → Except ε α) : Prog σ ε α :=
  atomic io fun s => (f s).map fun a => (a, s)

/-- Runs the program and hands its error over as a value; a crash goes through. -/
def attempt (m : Prog σ ε α) : Prog σ ε (Except ε α) where
  run fs s := match m.run fs s with
    | (.done a, t, gs) => (.done (.ok a), t, gs)
    | (.error e, t, gs) => (.done (.error e), t, gs)
    | (.crashed, t, gs) => (.crashed, t, gs)
  exhausted s := by
    have hm := m.exhausted s
    revert hm
    rcases m.run [] s with ⟨_ | _ | _, t, gs⟩ <;> exact id

/-- Goes on with `h` where the program reports an error. -/
def handle (m : Prog σ ε α) (h : ε → Prog σ ε α) : Prog σ ε α := do
  match ← m.attempt with
  | .ok a => ret a
  | .error e => h e

def mapError (g : ε → ε) (m : Prog σ ε α) : Prog σ ε α := m.handle fun e => throw (g e)

/-- A question about the state. Where questions can fail, the program takes a failure for a no. -/
def ask (canFail : Bool) (io : ε) (f : σ → Bool) : Prog σ ε Bool :=
  if canFail = true then (inspect io fun s => .ok (f s)).handle fun _ => ret false else observe f

/-- Reports an error unless the condition holds. -/
def ensure (condition : Bool) (e : ε) : Prog σ ε Unit :=
  if condition then ret () else throw e

/-- A step that can be caught before or after its whole effect. -/
def act (io : ε) (effect : σ → Except ε σ) : Prog σ ε Unit :=
  step io (fun s => (effect s).toOption.toList) fun s => (effect s).map fun t => ((), t)

/-- Runs the program only if the condition holds. -/
def whenever (condition : Prop) [Decidable condition] (m : Prog σ ε Unit) : Prog σ ε Unit :=
  if condition then m else ret ()

/-- The outcome and the final state under a fault script. -/
def result (m : Prog σ ε α) (fs : List Fault) (s : σ) : Outcome ε α × σ :=
  ((m.run fs s).1, (m.run fs s).2.1)

/-- The outcome and the final state of a run without faults. -/
def calm (m : Prog σ ε α) (s : σ) : Outcome ε α × σ := m.result [] s

end Prog
end MacTypeControl.Crash
