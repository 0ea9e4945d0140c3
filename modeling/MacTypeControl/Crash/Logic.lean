import MacTypeControl.Crash.Prog

/-!
# Rules for programs that can stop at any step

`wp m Q E C s` says what holds of the state after every run of `m` from `s`:
`Q` when it completes, `E` when it reports an error, `C` when it is stopped.
-/

namespace MacTypeControl.Crash
namespace Prog

variable {σ ε α β : Type}

def Meets (Q : α → σ → Prop) (E : ε → σ → Prop) (C : σ → Prop) : Outcome ε α × σ → Prop
  | (.done a, s) => Q a s
  | (.error e, s) => E e s
  | (.crashed, s) => C s

def wp (m : Prog σ ε α) (Q : α → σ → Prop) (E : ε → σ → Prop) (C : σ → Prop) (s : σ) : Prop :=
  ∀ fs, Meets Q E C (m.result fs s)

variable {Q Q' : α → σ → Prop} {E E' : ε → σ → Prop} {C C' : σ → Prop} {s : σ}

/-! ## Evaluating a run -/

@[simp] theorem run_ret (a : α) (fs : List Fault) (s : σ) :
    (ret a : Prog σ ε α).run fs s = (.done a, s, fs) := rfl

@[simp] theorem run_throw (e : ε) (fs : List Fault) (s : σ) :
    (throw e : Prog σ ε α).run fs s = (.error e, s, fs) := rfl

@[simp] theorem run_observe (f : σ → α) (fs : List Fault) (s : σ) :
    (observe f : Prog σ ε α).run fs s = (.done (f s), s, fs) := rfl

@[simp] theorem run_atomic_nil (io : ε) (effect : σ → Except ε (α × σ)) (s : σ) :
    (atomic io effect).run [] s = ((complete s (effect s)).1, (complete s (effect s)).2, []) := rfl

@[simp] theorem run_atomic_none (io : ε) (effect : σ → Except ε (α × σ)) (fs : List Fault)
    (s : σ) : (atomic io effect).run (.none :: fs) s =
      ((complete s (effect s)).1, (complete s (effect s)).2, fs) := rfl

@[simp] theorem run_atomic_fail (io : ε) (effect : σ → Except ε (α × σ)) (k : ℕ)
    (fs : List Fault) (s : σ) :
    (atomic io effect).run (.fail k :: fs) s = (.error io, s, fs) := by
  simp [atomic, step, interrupted]

@[simp] theorem complete_ok (a : α) (s t : σ) :
    complete (ε := ε) s (.ok (a, t)) = (.done a, t) := rfl

@[simp] theorem complete_error (e : ε) (s : σ) :
    complete (α := α) s (.error e) = (.error e, s) := rfl

theorem run_bind (m : Prog σ ε α) (f : α → Prog σ ε β) (fs : List Fault) (s : σ) :
    (m >>= f).run fs s = match m.run fs s with
      | (.done a, t, gs) => (f a).run gs t
      | (.error e, t, gs) => (.error e, t, gs)
      | (.crashed, t, gs) => (.crashed, t, gs) := rfl

theorem run_attempt (m : Prog σ ε α) (fs : List Fault) (s : σ) :
    m.attempt.run fs s = match m.run fs s with
      | (.done a, t, gs) => (.done (.ok a), t, gs)
      | (.error e, t, gs) => (.done (.error e), t, gs)
      | (.crashed, t, gs) => (.crashed, t, gs) := rfl

theorem run_handle (m : Prog σ ε α) (h : ε → Prog σ ε α) (fs : List Fault) (s : σ) :
    (m.handle h).run fs s = match m.run fs s with
      | (.done a, t, gs) => (.done a, t, gs)
      | (.error e, t, gs) => (h e).run gs t
      | (.crashed, t, gs) => (.crashed, t, gs) := by
  unfold handle
  rw [run_bind, run_attempt]
  rcases m.run fs s with ⟨_ | _ | _, t, gs⟩ <;> rfl

/-- Where the first part of a guarded program ends decides how the run goes on. -/
theorem run_attempt_bind {γ : Type} (m : Prog σ ε α) (f : α → Prog σ ε β)
    (g : Except ε β → Prog σ ε γ) (fs : List Fault) (s : σ) :
    ((m >>= f).attempt >>= g).run fs s = match m.run fs s with
      | (.done a, t, gs) => ((f a).attempt >>= g).run gs t
      | (.error e, t, gs) => (g (.error e)).run gs t
      | (.crashed, t, gs) => (.crashed, t, gs) := by
  rw [run_bind, run_attempt, run_bind]
  rcases m.run fs s with ⟨_ | _ | _, t, gs⟩
  · dsimp only
    rw [run_bind, run_attempt]
  · rfl
  · rfl

/-! ## Reasoning about all runs -/

theorem Meets.mono {r : Outcome ε α × σ} (hQ : ∀ a t, Q a t → Q' a t)
    (hE : ∀ e t, E e t → E' e t) (hC : ∀ t, C t → C' t) (h : Meets Q E C r) :
    Meets Q' E' C' r := by
  obtain ⟨_ | _ | _, t⟩ := r
  · exact hQ _ _ h
  · exact hE _ _ h
  · exact hC _ h

/-- The rule of consequence. -/
theorem wp_mono {m : Prog σ ε α} (h : wp m Q E C s) (hQ : ∀ a t, Q a t → Q' a t)
    (hE : ∀ e t, E e t → E' e t) (hC : ∀ t, C t → C' t) : wp m Q' E' C' s :=
  fun fs => (h fs).mono hQ hE hC

theorem wp_and {m : Prog σ ε α} (h : wp m Q E C s) (h' : wp m Q' E' C' s) :
    wp m (fun a t => Q a t ∧ Q' a t) (fun e t => E e t ∧ E' e t) (fun t => C t ∧ C' t) s := by
  intro fs
  have a := h fs
  have b := h' fs
  revert a b
  rcases m.result fs s with ⟨_ | _ | _, t⟩ <;> exact fun a b => ⟨a, b⟩

/-- Where every outcome will do, so will every run. -/
theorem wp_always {m : Prog σ ε α} (hQ : ∀ a t, Q a t) (hE : ∀ e t, E e t) (hC : ∀ t, C t) :
    wp m Q E C s := by
  intro fs
  rcases m.result fs s with ⟨_ | _ | _, t⟩
  · exact hQ _ _
  · exact hE _ _
  · exact hC _

theorem wp_ret {a : α} (h : Q a s) : wp (ret a) Q E C s := fun _ => h

theorem wp_throw {e : ε} (h : E e s) : wp (throw e) Q E C s := fun _ => h

theorem wp_observe {f : σ → α} (h : Q (f s) s) : wp (observe f) Q E C s := fun _ => h

theorem wp_bind {m : Prog σ ε α} {f : α → Prog σ ε β} {Q : β → σ → Prop}
    (h : wp m (fun a => wp (f a) Q E C) E C s) : wp (m >>= f) Q E C s := by
  intro fs
  have hm := h fs
  unfold result at *
  rw [run_bind]
  revert hm
  rcases m.run fs s with ⟨_ | _ | _, t, gs⟩
  · exact fun hm => hm gs
  · exact id
  · exact id

/-- What the last part guarantees from anywhere, the whole guarantees. -/
theorem wp_bind_always {m : Prog σ ε α} {f : α → Prog σ ε β} {Q : β → σ → Prop}
    (h : ∀ a t, wp (f a) Q (fun _ _ => True) (fun _ => True) t) :
    wp (m >>= f) Q (fun _ _ => True) (fun _ => True) s :=
  wp_bind (wp_always h (fun _ _ => trivial) fun _ => trivial)

theorem wp_change {f : σ → Except ε σ} {Q : Unit → σ → Prop} (hok : ∀ t, f s = .ok t → Q () t)
    (herr : ∀ e, f s = .error e → E e s) : wp (change f) Q E C s := by
  intro fs
  unfold result change
  dsimp only
  cases hf : f s with
  | ok t => exact hok t hf
  | error e => exact herr e hf

theorem wp_ofExcept {r : Except ε α} (hok : ∀ a, r = .ok a → Q a s)
    (herr : ∀ e, r = .error e → E e s) : wp (ofExcept r) Q E C s := by
  cases r with
  | ok a => exact wp_ret (hok a rfl)
  | error e => exact wp_throw (herr e rfl)

/-- A step: what it leaves when it completes, and that every state it can be
caught in is a good place to fail and to stop. -/
theorem wp_step {io : ε} {partials : σ → List σ} {effect : σ → Except ε (α × σ)}
    (hok : ∀ a t, effect s = .ok (a, t) → Q a t) (herr : ∀ e, effect s = .error e → E e s)
    (hio : E io s) (hstop : C s) (hpart : ∀ t ∈ partials s, E io t ∧ C t) :
    wp (step io partials effect) Q E C s := by
  have hfull : Meets Q E C (complete s (effect s)) := by
    cases h : effect s with
    | ok r => exact hok r.1 r.2 h
    | error e => exact herr e h
  have hcaught : ∀ k, E io (interrupted partials k s) ∧ C (interrupted partials k s) := by
    intro k
    unfold interrupted
    cases h : (partials s)[k]? with
    | none => exact ⟨hio, hstop⟩
    | some t => exact hpart t (List.mem_of_getElem? h)
  intro fs
  match fs with
  | [] => exact hfull
  | .none :: _ => exact hfull
  | .fail k :: _ => exact (hcaught k).1
  | .crash k :: _ => exact (hcaught k).2

theorem wp_atomic {io : ε} {effect : σ → Except ε (α × σ)}
    (hok : ∀ a t, effect s = .ok (a, t) → Q a t) (herr : ∀ e, effect s = .error e → E e s)
    (hio : E io s) (hstop : C s) : wp (atomic io effect) Q E C s :=
  wp_step hok herr hio hstop (by simp)

theorem wp_modify {io : ε} {f : σ → σ} {Q : Unit → σ → Prop} (hok : Q () (f s))
    (hio : E io s) (hstop : C s) : wp (modify io f) Q E C s :=
  wp_atomic (by rintro ⟨⟩ t h; cases h; exact hok) (by simp) hio hstop

theorem wp_inspect {io : ε} {f : σ → Except ε α} (hok : ∀ a, f s = .ok a → Q a s)
    (herr : ∀ e, f s = .error e → E e s) (hio : E io s) (hstop : C s) :
    wp (inspect io f) Q E C s := by
  apply wp_atomic _ _ hio hstop
  · intro a t h
    cases hf : f s with
    | ok b => rw [hf] at h; cases h; exact hok _ hf
    | error e => rw [hf] at h; cases h
  · intro e h
    cases hf : f s with
    | ok b => rw [hf] at h; cases h
    | error e' => rw [hf] at h; cases h; exact herr _ hf

/-- A step that can be caught before or after its effect: both have to be good
places to fail and to stop. -/
theorem wp_act {io : ε} {effect : σ → Except ε σ} {Q : Unit → σ → Prop}
    (hok : ∀ t, effect s = .ok t → Q () t ∧ E io t ∧ C t)
    (herr : ∀ e, effect s = .error e → E e s) (hio : E io s) (hstop : C s) :
    wp (act io effect) Q E C s := by
  apply wp_step _ _ hio hstop
  · intro t ht
    cases h : effect s with
    | ok u =>
      rw [h] at ht
      obtain rfl : t = u := by simpa [Except.toOption] using ht
      exact (hok t h).2
    | error e => simp [h, Except.toOption] at ht
  · intro a t ht
    cases h : effect s with
    | ok u => rw [h] at ht; cases ht; exact (hok _ h).1
    | error e => rw [h] at ht; cases ht
  · intro e he
    cases h : effect s with
    | ok u => rw [h] at he; cases he
    | error e' => rw [h] at he; cases he; exact herr _ h

theorem wp_ensure {condition : Bool} {e : ε} {Q : Unit → σ → Prop}
    (hthen : condition = true → Q () s) (helse : condition = false → E e s) :
    wp (ensure condition e) Q E C s := by
  cases condition with
  | true => exact wp_ret (hthen rfl)
  | false => exact wp_throw (helse rfl)

theorem wp_attempt {m : Prog σ ε α} {Q : Except ε α → σ → Prop}
    (h : wp m (fun a => Q (.ok a)) (fun e => Q (.error e)) C s) : wp m.attempt Q E C s := by
  intro fs
  have hm := h fs
  unfold result at *
  rw [run_attempt]
  revert hm
  rcases m.run fs s with ⟨_ | _ | _, t, gs⟩ <;> exact id

theorem wp_handle {m : Prog σ ε α} {h : ε → Prog σ ε α}
    (hm : wp m Q (fun e => wp (h e) Q E C) C s) : wp (m.handle h) Q E C s := by
  apply wp_bind
  apply wp_attempt
  exact wp_mono hm (fun a t hq => wp_ret hq) (fun e t he => he) (fun _ hc => hc)

theorem wp_ask {canFail : Bool} {io : ε} {f : σ → Bool} {Q : Bool → σ → Prop} (h : Q (f s) s)
    (hno : canFail = true → Q false s ∧ C s) : wp (ask canFail io f) Q E C s := by
  unfold ask
  split
  · obtain ⟨hfailed, hstopped⟩ := hno ‹_›
    refine wp_handle (wp_inspect (fun a ha => ?_) (fun _ _ => wp_ret hfailed) (wp_ret hfailed)
      hstopped)
    cases ha
    exact h
  · exact wp_observe h

theorem wp_mapError {g : ε → ε} {m : Prog σ ε α} (h : wp m Q (fun e => E (g e)) C s) :
    wp (m.mapError g) Q E C s :=
  wp_handle (wp_mono h (fun _ _ hq => hq) (fun _ _ he => wp_throw he) (fun _ hc => hc))

theorem wp_whenever {condition : Prop} [Decidable condition] {m : Prog σ ε Unit}
    {Q : Unit → σ → Prop} (hthen : condition → wp m Q E C s) (helse : ¬condition → Q () s) :
    wp (m.whenever condition) Q E C s := by
  unfold whenever
  split
  · exact hthen ‹_›
  · exact wp_ret (helse ‹_›)

/-! ## Runs without faults

`completes m Q s` says that `m` runs to its end from `s` when nothing fails, and
what holds then. -/

def completes (m : Prog σ ε α) (Q : α → σ → Prop) (s : σ) : Prop :=
  ∃ a t, m.calm s = (.done a, t) ∧ Q a t

theorem completes_mono {m : Prog σ ε α} (h : completes m Q s) (hQ : ∀ a t, Q a t → Q' a t) :
    completes m Q' s := by
  obtain ⟨a, t, hrun, hq⟩ := h
  exact ⟨a, t, hrun, hQ a t hq⟩

/-- What every run guarantees holds after the run without faults. -/
theorem completes_and_wp {m : Prog σ ε α} (h : completes m Q s) (hw : wp m Q' E C s) :
    completes m (fun a t => Q a t ∧ Q' a t) s := by
  obtain ⟨a, t, hrun, hq⟩ := h
  have hm := hw []
  rw [show m.result [] s = m.calm s from rfl, hrun] at hm
  exact ⟨a, t, hrun, hq, hm⟩

theorem completes_ret {a : α} (h : Q a s) : completes (ret a : Prog σ ε α) Q s :=
  ⟨a, s, rfl, h⟩

theorem completes_observe {f : σ → α} (h : Q (f s) s) :
    completes (observe f : Prog σ ε α) Q s :=
  ⟨f s, s, rfl, h⟩

theorem completes_bind {m : Prog σ ε α} {f : α → Prog σ ε β} {Q : β → σ → Prop}
    (h : completes m (fun a => completes (f a) Q) s) : completes (m >>= f) Q s := by
  obtain ⟨a, t, hm, b, u, hf, hq⟩ := h
  refine ⟨b, u, ?_, hq⟩
  have hex := m.exhausted s
  unfold calm result at *
  rw [run_bind]
  revert hm hex
  rcases m.run [] s with ⟨_ | _ | _, t', gs⟩ <;> intro hm hex <;> cases hm
  obtain rfl : gs = [] := hex
  exact hf

theorem completes_atomic {io : ε} {effect : σ → Except ε (α × σ)} {a : α} {t : σ}
    (h : effect s = .ok (a, t)) (hq : Q a t) : completes (atomic io effect) Q s := by
  refine ⟨a, t, ?_, hq⟩
  simp [calm, result, h]

theorem completes_modify {io : ε} {f : σ → σ} {Q : Unit → σ → Prop} (hq : Q () (f s)) :
    completes (modify io f) Q s :=
  completes_atomic rfl hq

theorem completes_inspect {io : ε} {f : σ → Except ε α} {a : α} (h : f s = .ok a)
    (hq : Q a s) : completes (inspect io f) Q s :=
  completes_atomic (by rw [h]; rfl) hq

theorem completes_act {io : ε} {effect : σ → Except ε σ} {t : σ} {Q : Unit → σ → Prop}
    (h : effect s = .ok t) (hq : Q () t) : completes (act io effect) Q s := by
  refine ⟨(), t, ?_, hq⟩
  simp [calm, result, act, step, complete, h, Except.map]

theorem completes_ensure {condition : Bool} {e : ε} {Q : Unit → σ → Prop}
    (h : condition = true) (hq : Q () s) : completes (ensure condition e) Q s := by
  rw [h]
  exact completes_ret hq

theorem completes_ofExcept {r : Except ε α} {a : α} (h : r = .ok a) (hq : Q a s) :
    completes (ofExcept r) Q s := by
  rw [h]
  exact completes_ret hq

theorem completes_whenever {condition : Prop} [Decidable condition] {m : Prog σ ε Unit}
    {Q : Unit → σ → Prop} (hthen : condition → completes m Q s) (helse : ¬condition → Q () s) :
    completes (m.whenever condition) Q s := by
  unfold whenever
  split
  · exact hthen ‹_›
  · exact completes_ret (helse ‹_›)

theorem completes_attempt {m : Prog σ ε α} {Q : Except ε α → σ → Prop}
    (h : completes m (fun a => Q (.ok a)) s) : completes m.attempt Q s := by
  obtain ⟨a, t, hm, hq⟩ := h
  refine ⟨.ok a, t, ?_, hq⟩
  unfold calm result at *
  rw [run_attempt]
  revert hm
  rcases m.run [] s with ⟨_ | _ | _, t', gs⟩ <;> intro hm <;> cases hm
  rfl

theorem completes_handle {m : Prog σ ε α} {h : ε → Prog σ ε α} (hm : completes m Q s) :
    completes (m.handle h) Q s :=
  completes_bind (completes_attempt (completes_mono hm fun _ _ hq => completes_ret hq))

theorem completes_mapError {g : ε → ε} {m : Prog σ ε α} (h : completes m Q s) :
    completes (m.mapError g) Q s :=
  completes_handle h

/-! ## Runs without faults that report an error -/

/-- `m` reports an error with `E` from `s` when nothing fails. -/
def reports (m : Prog σ ε α) (E : ε → σ → Prop) (s : σ) : Prop :=
  ∃ e t, m.calm s = (.error e, t) ∧ E e t

theorem reports_atomic {io : ε} {effect : σ → Except ε (α × σ)} {e : ε}
    (h : effect s = .error e) (he : E e s) : reports (atomic io effect) E s := by
  refine ⟨e, s, ?_, he⟩
  simp [calm, result, h]

theorem reports_inspect {io : ε} {f : σ → Except ε α} {e : ε} (h : f s = .error e)
    (he : E e s) : reports (inspect io f) E s :=
  reports_atomic (by rw [h]; rfl) he

theorem reports_bind {m : Prog σ ε α} {f : α → Prog σ ε β} (h : reports m E s) :
    reports (m >>= f) E s := by
  obtain ⟨e, t, hm, he⟩ := h
  refine ⟨e, t, ?_, he⟩
  unfold calm result at *
  rw [run_bind]
  revert hm
  rcases m.run [] s with ⟨_ | _ | _, t', gs⟩ <;> intro hm <;> cases hm
  rfl

theorem reports_throw {e : ε} (he : E e s) : reports (throw e : Prog σ ε α) E s :=
  ⟨e, s, rfl, he⟩

/-- An error after a part that completes. -/
theorem reports_after {m : Prog σ ε α} {f : α → Prog σ ε β}
    (h : completes m (fun a => reports (f a) E) s) : reports (m >>= f) E s := by
  obtain ⟨a, t, hm, e, u, hf, he⟩ := h
  refine ⟨e, u, ?_, he⟩
  have hex := m.exhausted s
  unfold calm result at *
  rw [run_bind]
  revert hm hex
  rcases m.run [] s with ⟨_ | _ | _, t', gs⟩ <;> intro hm hex <;> cases hm
  obtain rfl : gs = [] := hex
  exact hf

/-- The error of a guarded part is a value to the rest. -/
theorem completes_attempt_of_reports {m : Prog σ ε α} {Q : Except ε α → σ → Prop}
    (h : reports m (fun e => Q (.error e)) s) : completes m.attempt Q s := by
  obtain ⟨e, t, hm, hq⟩ := h
  refine ⟨.error e, t, ?_, hq⟩
  unfold calm result at *
  rw [run_attempt]
  revert hm
  rcases m.run [] s with ⟨_ | _ | _, t', gs⟩ <;> intro hm <;> cases hm
  rfl

/-- The error of a guarded program is dealt with. -/
theorem completes_handle_of_reports {m : Prog σ ε α} {h : ε → Prog σ ε α}
    (hm : reports m (fun e t => completes (h e) Q t) s) : completes (m.handle h) Q s := by
  obtain ⟨e, t, hm, a, u, hh, hq⟩ := hm
  refine ⟨a, u, ?_, hq⟩
  have hex := m.exhausted s
  unfold calm result at *
  rw [run_handle]
  revert hm hex
  rcases m.run [] s with ⟨_ | _ | _, t', gs⟩ <;> intro hm hex <;> cases hm
  obtain rfl : gs = [] := hex
  exact hh

/-! ## Programs that only a fault keeps from completing

`robust m Q I s` says that every run of `m` from `s` either completes with `Q` or is
caught in a state with `I`, and that the run without faults completes. -/

def robust (m : Prog σ ε α) (Q : α → σ → Prop) (I : σ → Prop) (s : σ) : Prop :=
  wp m Q (fun _ => I) I s ∧ completes m Q s

variable {I J : σ → Prop}

theorem robust.mono {m : Prog σ ε α} (h : robust m Q I s) (hQ : ∀ a t, Q a t → Q' a t)
    (hI : ∀ t, I t → J t) : robust m Q' J s :=
  ⟨wp_mono h.1 hQ (fun _ => hI) hI, completes_mono h.2 hQ⟩

theorem robust_ret {a : α} (h : Q a s) : robust (ret a : Prog σ ε α) Q I s :=
  ⟨wp_ret h, completes_ret h⟩

theorem robust_observe {f : σ → α} (h : Q (f s) s) : robust (observe f : Prog σ ε α) Q I s :=
  ⟨wp_observe h, completes_observe h⟩

theorem robust_bind {m : Prog σ ε α} {f : α → Prog σ ε β} {Q : β → σ → Prop}
    (h : robust m (fun a => robust (f a) Q I) I s) : robust (m >>= f) Q I s :=
  ⟨wp_bind (wp_mono h.1 (fun _ _ hq => hq.1) (fun _ _ hi => hi) fun _ hi => hi),
    completes_bind (completes_mono h.2 fun _ _ hq => hq.2)⟩

theorem robust_step {io : ε} {partials : σ → List σ} {effect : σ → Except ε (α × σ)} {a : α}
    {t : σ} (h : effect s = .ok (a, t)) (hq : Q a t) (hI : I s) (hpart : ∀ u ∈ partials s, I u) :
    robust (step io partials effect) Q I s := by
  constructor
  · apply wp_step _ _ hI hI fun u hu => ⟨hpart u hu, hpart u hu⟩
    · intro b u hu
      rw [h] at hu
      cases hu
      exact hq
    · intro e he
      rw [h] at he
      cases he
  · refine ⟨a, t, ?_, hq⟩
    simp [calm, result, step, complete, h]

theorem robust_modify {io : ε} {f : σ → σ} {Q : Unit → σ → Prop} (hq : Q () (f s)) (hI : I s) :
    robust (modify io f) Q I s :=
  robust_step rfl hq hI (by simp)

theorem robust_inspect {io : ε} {f : σ → Except ε α} {a : α} (h : f s = .ok a) (hq : Q a s)
    (hI : I s) : robust (inspect io f) Q I s :=
  robust_step (by rw [h]; rfl) hq hI (by simp)

theorem robust_ensure {condition : Bool} {e : ε} {Q : Unit → σ → Prop} (h : condition = true)
    (hq : Q () s) : robust (ensure condition e) Q I s :=
  ⟨wp_ensure (fun _ => hq) (by simp [h]), completes_ensure h hq⟩

theorem robust_whenever {condition : Prop} [Decidable condition] {m : Prog σ ε Unit}
    {Q : Unit → σ → Prop} (hthen : condition → robust m Q I s) (helse : ¬condition → Q () s) :
    robust (m.whenever condition) Q I s := by
  unfold whenever
  split
  · exact hthen ‹_›
  · exact robust_ret (helse ‹_›)

theorem robust_mapError {g : ε → ε} {m : Prog σ ε α} (h : robust m Q I s) :
    robust (m.mapError g) Q I s :=
  ⟨wp_mapError h.1, completes_mapError h.2⟩

/-! ## Programs that are run again after they stopped -/

/-- `t` is left behind by any number of runs of `m`, each stopped or failed
anywhere or completed. -/
inductive Rerun (m : Prog σ ε α) : σ → σ → Prop
  | start (s : σ) : Rerun m s s
  | again {s t : σ} (fs : List Fault) : Rerun m s t → Rerun m s (m.result fs t).2

theorem Rerun.invariant {m : Prog σ ε α} {I : σ → Prop}
    (hI : ∀ s, I s → wp m (fun _ => I) (fun _ => I) I s) {s t : σ} (h : Rerun m s t)
    (hs : I s) : I t := by
  induction h with
  | start => exact hs
  | again fs _ ih =>
    rename_i u _
    have h := hI u ih fs
    revert h
    rcases m.result fs u with ⟨_ | _ | _, v⟩ <;> exact id

/-- Whatever holds after every interruption holds of the state a run is left in. -/
theorem wp.final {m : Prog σ ε α} {I : σ → Prop}
    (h : wp m (fun _ => I) (fun _ => I) I s) (fs : List Fault) : I (m.result fs s).2 := by
  have h := h fs
  revert h
  rcases m.result fs s with ⟨_ | _ | _, v⟩ <;> exact id

theorem wp.leaves {m : Prog σ ε α} {I : σ → Prop} (h : wp m Q E C s) (hQ : ∀ a t, Q a t → I t)
    (hE : ∀ e t, E e t → I t) (hC : ∀ t, C t → I t) (fs : List Fault) : I (m.result fs s).2 :=
  wp.final (wp_mono h hQ hE hC) fs

/-! ## Invariants of programs

`Maintains I m P` says that every run of `m` keeps `I`, however it ends, and that a
run that completes returns a value with `P`. -/

def Maintains (I : σ → Prop) (m : Prog σ ε α) (P : α → Prop) : Prop :=
  ∀ s, I s → wp m (fun a t => P a ∧ I t) (fun _ => I) I s

variable {P P' : α → Prop}

theorem Maintains.mono {m : Prog σ ε α} (h : Maintains I m P) (hP : ∀ a, P a → P' a) :
    Maintains I m P' :=
  fun s hs => wp_mono (h s hs) (fun a _ ht => ⟨hP a ht.1, ht.2⟩) (fun _ _ ht => ht) fun _ ht => ht

theorem Maintains.and {m : Prog σ ε α} (h : Maintains I m P) (h' : Maintains J m P') :
    Maintains (fun s => I s ∧ J s) m fun a => P a ∧ P' a :=
  fun s hs => wp_mono (wp_and (h s hs.1) (h' s hs.2))
    (fun _ _ ht => ⟨⟨ht.1.1, ht.2.1⟩, ht.1.2, ht.2.2⟩) (fun _ _ ht => ht) fun _ ht => ht

theorem Maintains.trivially {m : Prog σ ε α} (h : Maintains I m P) :
    Maintains I m fun _ => True :=
  h.mono fun _ _ => trivial

theorem maintains_ret {a : α} (h : P a) : Maintains I (ret a : Prog σ ε α) P :=
  fun _ hs => wp_ret ⟨h, hs⟩

theorem maintains_throw {e : ε} : Maintains I (throw e : Prog σ ε α) P :=
  fun _ hs => wp_throw hs

theorem maintains_observe {f : σ → α} (h : ∀ s, I s → P (f s)) :
    Maintains I (observe f : Prog σ ε α) P :=
  fun s hs => wp_observe ⟨h s hs, hs⟩

theorem maintains_change {f : σ → Except ε σ} (h : ∀ s t, I s → f s = .ok t → I t) :
    Maintains I (change f) fun _ => True :=
  fun s hs => wp_change (fun t ht => ⟨trivial, h s t hs ht⟩) fun _ _ => hs

theorem maintains_bind {m : Prog σ ε α} {f : α → Prog σ ε β} {P : α → Prop} {R : β → Prop}
    (hm : Maintains I m P) (hf : ∀ a, P a → Maintains I (f a) R) : Maintains I (m >>= f) R :=
  fun s hs => wp_bind (wp_mono (hm s hs) (fun a t ht => hf a ht.1 t ht.2) (fun _ _ h => h)
    fun _ h => h)

/-- A part that keeps the invariant, followed by one whose completion says more. -/
theorem Maintains.wp_bind {m : Prog σ ε α} {f : α → Prog σ ε β} {Q : β → σ → Prop} {s : σ}
    (hm : Maintains I m P) (hs : I s)
    (hf : ∀ a t, P a → I t → wp (f a) Q (fun _ => I) I t) : wp (m >>= f) Q (fun _ => I) I s :=
  Prog.wp_bind (wp_mono (hm s hs) (fun a t ht => hf a t ht.1 ht.2) (fun _ _ h => h) fun _ h => h)

theorem maintains_attempt {m : Prog σ ε α} {R : Except ε α → Prop} (hm : Maintains I m P)
    (hok : ∀ a, P a → R (.ok a)) (herr : ∀ e, R (.error e)) : Maintains I m.attempt R :=
  fun s hs => wp_attempt (wp_mono (hm s hs) (fun a _ ht => ⟨hok a ht.1, ht.2⟩)
    (fun e _ ht => ⟨herr e, ht⟩) fun _ h => h)

theorem Maintains.attempted {m : Prog σ ε α} (hm : Maintains I m P) :
    Maintains I m.attempt fun _ => True :=
  maintains_attempt hm (fun _ _ => trivial) fun _ => trivial

theorem maintains_handle {m : Prog σ ε α} {h : ε → Prog σ ε α} (hm : Maintains I m P)
    (hh : ∀ e, Maintains I (h e) P) : Maintains I (m.handle h) P :=
  fun s hs => wp_handle (wp_mono (hm s hs) (fun _ _ ht => ht) (fun e t ht => hh e t ht)
    fun _ h => h)

theorem maintains_mapError {g : ε → ε} {m : Prog σ ε α} (hm : Maintains I m P) :
    Maintains I (m.mapError g) P :=
  maintains_handle hm fun _ => maintains_throw

theorem maintains_ensure {condition : Bool} {e : ε} :
    Maintains I (ensure condition e : Prog σ ε Unit) fun _ => condition = true :=
  fun _ hs => wp_ensure (fun h => ⟨h, hs⟩) fun _ => hs

theorem maintains_ofExcept {r : Except ε α} (h : ∀ a, r = .ok a → P a) :
    Maintains I (ofExcept r : Prog σ ε α) P :=
  fun _ hs => wp_ofExcept (fun a ha => ⟨h a ha, hs⟩) fun _ _ => hs

theorem maintains_inspect {io : ε} {f : σ → Except ε α} (h : ∀ s a, I s → f s = .ok a → P a) :
    Maintains I (inspect io f) P :=
  fun s hs => wp_inspect (fun a ha => ⟨h s a hs ha, hs⟩) (fun _ _ => hs) hs hs

theorem maintains_modify {io : ε} {f : σ → σ} (h : ∀ s, I s → I (f s)) :
    Maintains I (modify io f) fun _ => True :=
  fun s hs => wp_modify ⟨trivial, h s hs⟩ hs hs

theorem maintains_atomic {io : ε} {effect : σ → Except ε (α × σ)}
    (h : ∀ s a t, I s → effect s = .ok (a, t) → P a ∧ I t) : Maintains I (atomic io effect) P :=
  fun s hs => wp_atomic (fun a t ht => h s a t hs ht) (fun _ _ => hs) hs hs

theorem maintains_act {io : ε} {effect : σ → Except ε σ}
    (h : ∀ s t, I s → effect s = .ok t → I t) : Maintains I (act io effect) fun _ => True :=
  fun s hs => wp_act (fun t ht => ⟨⟨trivial, h s t hs ht⟩, h s t hs ht, h s t hs ht⟩)
    (fun _ _ => hs) hs hs

theorem maintains_step {io : ε} {partials : σ → List σ} {effect : σ → Except ε (α × σ)}
    (h : ∀ s a t, I s → effect s = .ok (a, t) → I t) (hpart : ∀ s, I s → ∀ t ∈ partials s, I t) :
    Maintains I (step io partials effect) fun _ => True :=
  fun s hs => wp_step (fun a t ht => ⟨trivial, h s a t hs ht⟩) (fun _ _ => hs) hs hs
    fun t ht => ⟨hpart s hs t ht, hpart s hs t ht⟩

theorem maintains_whenever {condition : Prop} [Decidable condition] {m : Prog σ ε Unit}
    (h : condition → Maintains I m fun _ => True) :
    Maintains I (m.whenever condition) fun _ => True :=
  fun s hs => wp_whenever (fun hc => h hc s hs) fun _ => ⟨trivial, hs⟩

theorem Maintains.final {m : Prog σ ε α} (h : Maintains I m P) {s : σ} (hs : I s)
    (fs : List Fault) : I (m.result fs s).2 :=
  (h s hs).leaves (fun _ _ ht => ht.2) (fun _ _ ht => ht) (fun _ ht => ht) fs

/-! ## Straight programs

A straight program has its steps one after the other, and the first that is caught ends it. What
it does under a fault script is then known in full. -/

/-- The first `n` steps happen. -/
def Quiet (n : ℕ) (fs : List Fault) : Prop := ∀ fault ∈ fs.take n, fault = .none

@[simp] theorem quiet_zero (fs : List Fault) : Quiet 0 fs := by
  simp [Quiet]

@[simp] theorem quiet_nil (n : ℕ) : Quiet n [] := by
  simp [Quiet]

@[simp] theorem quiet_cons (n : ℕ) (fault : Fault) (fs : List Fault) :
    Quiet (n + 1) (fault :: fs) ↔ fault = .none ∧ Quiet n fs := by
  simp [Quiet]

/-- The run of a program that has as many steps as `left` has entries and completes with `a` in
`t`. An entry is what its step leaves where it is caught, by the number of the partial effect. -/
def straightRun (io : ε) (a : α) (t : σ) :
    List (ℕ → σ) → List Fault → Outcome ε α × σ × List Fault
  | [], fs => (.done a, t, fs)
  | _ :: left, [] => straightRun io a t left []
  | _ :: left, .none :: fs => straightRun io a t left fs
  | u :: _, .fail k :: fs => (.error io, u k, fs)
  | u :: _, .crash k :: fs => (.crashed, u k, fs)

def Straight (m : Prog σ ε α) (s : σ) (io : ε) (left : List (ℕ → σ)) (a : α) (t : σ) : Prop :=
  ∀ fs, m.run fs s = straightRun io a t left fs

theorem straight_ret (io : ε) (a : α) (s : σ) : Straight (ret a : Prog σ ε α) s io [] a s :=
  fun _ => rfl

theorem straight_step {io : ε} {partials : σ → List σ} {effect : σ → Except ε (α × σ)} {a : α}
    {t : σ} (h : effect s = .ok (a, t)) :
    Straight (step io partials effect) s io [fun k => interrupted partials k s] a t := by
  rintro (_ | ⟨_ | k | k, fs⟩)
  · simp [step, straightRun, h]
  · simp [step, straightRun, h]
  · rfl
  · rfl

theorem straight_atomic {io : ε} {effect : σ → Except ε (α × σ)} {a : α} {t : σ}
    (h : effect s = .ok (a, t)) : Straight (atomic io effect) s io [fun _ => s] a t := by
  have hstep : Straight (step io (fun _ => []) effect) s io
      [fun k => interrupted (fun _ => []) k s] a t := straight_step h
  simpa [interrupted, atomic] using hstep

theorem straight_inspect {io : ε} {f : σ → Except ε α} {a : α} (h : f s = .ok a) :
    Straight (inspect io f) s io [fun _ => s] a s :=
  straight_atomic (by rw [h]; rfl)

theorem straight_bind {m : Prog σ ε α} {f : α → Prog σ ε β} {io : ε} {left next : List (ℕ → σ)}
    {a : α} {b : β} {t u : σ} (hm : Straight m s io left a t) (hf : Straight (f a) t io next b u) :
    Straight (m >>= f) s io (left ++ next) b u := by
  intro fs
  rw [run_bind, hm fs]
  clear hm
  induction left generalizing fs with
  | nil => exact hf fs
  | cons caught left ih =>
    cases fs with
    | nil => exact ih []
    | cons fault fs =>
      cases fault with
      | none => exact ih fs
      | fail k | crash k => rfl

theorem straightRun_done_iff {io : ε} {a b : α} {t u : σ} {left : List (ℕ → σ)}
    {fs gs : List Fault} : straightRun io a t left fs = (.done b, u, gs) ↔
      Quiet left.length fs ∧ a = b ∧ t = u ∧ fs.drop left.length = gs := by
  induction left generalizing fs with
  | nil => simp [straightRun]
  | cons caught left ih =>
    cases fs with
    | nil => simp [straightRun, ih]
    | cons fault fs => cases fault <;> simp [straightRun, ih]

theorem straightRun_error_iff {io e : ε} {a : α} {t u : σ} {left : List (ℕ → σ)}
    {fs gs : List Fault} : straightRun io a t left fs = (.error e, u, gs) ↔
      ∃ step k, fs = .replicate step .none ++ .fail k :: gs ∧ io = e ∧
        left[step]?.map (· k) = some u := by
  induction left generalizing fs with
  | nil => simp [straightRun]
  | cons caught left ih =>
    cases fs with
    | nil => simp [straightRun, ih]
    | cons fault fs =>
      constructor
      · intro h
        cases fault with
        | none =>
          obtain ⟨step, k, rfl, hio, hleft⟩ := ih.1 h
          exact ⟨step + 1, k, rfl, hio, hleft⟩
        | fail k =>
          cases h
          exact ⟨0, k, rfl, rfl, rfl⟩
        | crash k => cases h
      · rintro ⟨_ | step, k, hfs, hio, hleft⟩
        · cases hfs
          cases hio
          cases hleft
          rfl
        · rw [List.replicate_succ, List.cons_append, List.cons.injEq] at hfs
          rw [hfs.1]
          exact ih.2 ⟨step, k, hfs.2, hio, hleft⟩

end Prog
end MacTypeControl.Crash
