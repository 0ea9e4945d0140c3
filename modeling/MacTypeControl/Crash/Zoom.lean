import MacTypeControl.Crash.Logic

/-!
# Programs over a part of the state

A part of a state is looked at and put back through two functions. A program over the part is
a program over the whole that leaves the rest alone.
-/

namespace MacTypeControl.Crash

/-- A part `σ` of a state `τ`. -/
structure Part (τ σ : Type) where
  get : τ → σ
  put : σ → τ → τ
  get_put : ∀ s t, get (put s t) = s
  put_get : ∀ t, put (get t) t = t
  put_put : ∀ s s' t, put s (put s' t) = put s t

attribute [simp] Part.get_put Part.put_get Part.put_put

namespace Prog

variable {τ σ ε α : Type} (part : Part τ σ)

/-- The program runs on the part. -/
def zoom (m : Prog σ ε α) : Prog τ ε α where
  run fs t :=
    let r := m.run fs (part.get t)
    (r.1, part.put r.2.1 t, r.2.2)
  exhausted t := m.exhausted (part.get t)

variable {part} {m : Prog σ ε α} {t : τ} {Q : α → τ → Prop} {E : ε → τ → Prop} {C : τ → Prop}

theorem result_zoom (fs : List Fault) (t : τ) :
    (zoom part m).result fs t =
      ((m.result fs (part.get t)).1, part.put (m.result fs (part.get t)).2 t) := rfl

theorem wp_zoom (h : wp m (fun a s => Q a (part.put s t)) (fun e s => E e (part.put s t))
    (fun s => C (part.put s t)) (part.get t)) : wp (zoom part m) Q E C t := by
  intro fs
  have hm := h fs
  rw [result_zoom]
  revert hm
  rcases m.result fs (part.get t) with ⟨_ | _ | _, s⟩ <;> exact id

end Prog
end MacTypeControl.Crash
