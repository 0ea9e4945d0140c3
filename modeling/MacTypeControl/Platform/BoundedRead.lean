import Mathlib.Data.List.Pairwise
import Mathlib.Tactic

/-!
# Bounded reads

System queries that fill a buffer of the caller and report how many bytes they need. A query is any
function of its state and of the capacity that it is given.
-/

namespace MacTypeControl.Platform.BoundedRead

def u32Max : ℕ := 2 ^ 32 - 1

inductive Target where
  | x86
  | x64

def Target.usizeMax : Target → ℕ
  | .x86 => 2 ^ 32 - 1
  | .x64 => 2 ^ 64 - 1

/-- How one call ends, what it reports as the length, and the buffer it leaves. -/
inductive Reply (ε : Type) (capacity : ℕ) where
  | failed (error : ε)
  | complete (filled : UInt32) (buffer : Vector UInt8 capacity)
  | moreData (filled : UInt32)

def Query (σ ε : Type) := (capacity : ℕ) → σ → Reply ε capacity × σ

variable {σ ε : Type}

/-! ## Grow and retry -/

inductive RetryError (ε : Type) where
  | call (error : ε)
  | limitExceeded
  | returnedLengthExceedsCapacity
  | returnedLengthExceedsLimit

inductive Outcome (ε : Type) where
  | returned (bytes : List UInt8)
  | failed (error : RetryError ε)
  | exhausted

/-- The capacities that were tried, and how the last call ended. -/
structure Run (ε : Type) where
  capacities : List ℕ
  outcome : Outcome ε

/-- The capacity after a call that reported that it needs more. -/
def grown (target : Target) (maximum capacity reported : ℕ) : Option ℕ :=
  if maximum < reported ∨ capacity = maximum then none
  else
    let geometric := max (min (capacity * 2) target.usizeMax) 1
    let next := min (max reported geometric) maximum
    if next ≤ capacity then none else some next

def completed {capacity : ℕ} (maximum : ℕ) (filled : UInt32) (buffer : Vector UInt8 capacity) :
    Outcome ε :=
  if maximum < filled.toNat then .failed .returnedLengthExceedsLimit
  else if capacity < filled.toNat then .failed .returnedLengthExceedsCapacity
  else .returned (buffer.toList.take filled.toNat)

def retryFrom (target : Target) (query : Query σ ε) (maximum : ℕ) : (fuel capacity : ℕ) → σ → Run ε
  | 0, _, _ => ⟨[], .exhausted⟩
  | fuel + 1, capacity, s =>
    match query capacity s with
    | (.failed error, _) => ⟨[capacity], .failed (.call error)⟩
    | (.complete filled buffer, _) => ⟨[capacity], completed maximum filled buffer⟩
    | (.moreData reported, s) =>
      match grown target maximum capacity reported.toNat with
      | none => ⟨[capacity], .failed .limitExceeded⟩
      | some next =>
        let later := retryFrom target query maximum fuel next s
        ⟨capacity :: later.capacities, later.outcome⟩

def retryBytes (target : Target) (query : Query σ ε) (initial maximum fuel : ℕ) (s : σ) : Run ε :=
  let maximum := min maximum u32Max
  if maximum < initial then ⟨[], .failed .limitExceeded⟩
  else retryFrom target query maximum fuel initial s

/-! ## One growth -/

section

variable {target : Target} {maximum capacity reported next : ℕ}

theorem u32Max_le_usizeMax (target : Target) : u32Max ≤ target.usizeMax := by
  cases target <;> decide

theorem grown_eq_some (h : grown target maximum capacity reported = some next)
    (hmaximum : maximum ≤ u32Max) :
    capacity < next ∧ next ≤ maximum ∧ min maximum (max 1 (2 * capacity)) ≤ next := by
  have hwide := u32Max_le_usizeMax target
  simp only [grown] at h
  split_ifs at h with hstop hnext
  obtain rfl := Option.some.inj h
  omega

theorem grown_of_lt (hreported : reported ≤ maximum) (hcapacity : capacity < maximum)
    (hmaximum : maximum ≤ u32Max) : ∃ next, grown target maximum capacity reported = some next := by
  have hwide := u32Max_le_usizeMax target
  simp only [grown]
  rw [if_neg (by omega), if_neg (by omega)]
  exact ⟨_, rfl⟩

theorem grown_maximum : grown target maximum maximum reported = none :=
  if_pos (Or.inr rfl)

end

/-! ## Runs -/

section

variable {target : Target} {query : Query σ ε} {maximum : ℕ}

theorem completed_cases {capacity : ℕ} (filled : UInt32) (buffer : Vector UInt8 capacity) :
    (completed maximum filled buffer : Outcome ε) ≠ .exhausted ∧
      ∀ bytes, (completed maximum filled buffer : Outcome ε) = .returned bytes →
        bytes.length ≤ capacity := by
  unfold completed
  split_ifs with hlimit hcapacity
  · exact ⟨nofun, nofun⟩
  · exact ⟨nofun, nofun⟩
  · refine ⟨nofun, ?_⟩
    rintro bytes ⟨⟩
    rw [List.length_take, Vector.length_toList]
    exact Nat.min_le_right _ _

/-- A call ends the run, or it is followed by one with a larger capacity. -/
theorem retryFrom_succ (fuel capacity : ℕ) (s : σ) :
    (∃ outcome, retryFrom target query maximum (fuel + 1) capacity s = ⟨[capacity], outcome⟩ ∧
      outcome ≠ .exhausted ∧ ∀ bytes, outcome = .returned bytes → bytes.length ≤ capacity) ∨
    ∃ reported next s', grown target maximum capacity reported = some next ∧
      retryFrom target query maximum (fuel + 1) capacity s =
        ⟨capacity :: (retryFrom target query maximum fuel next s').capacities,
          (retryFrom target query maximum fuel next s').outcome⟩ := by
  rw [retryFrom]
  rcases query capacity s with ⟨error | ⟨filled, buffer⟩ | reported, s'⟩
  · exact Or.inl ⟨_, rfl, nofun, nofun⟩
  · exact Or.inl ⟨_, rfl, completed_cases filled buffer⟩
  · cases hgrown : grown target maximum capacity reported.toNat with
    | none => exact Or.inl ⟨.failed .limitExceeded, by simp only [hgrown], nofun, nofun⟩
    | some next => exact Or.inr ⟨_, next, s', hgrown, by simp only [hgrown]⟩

/-- The capacities rise under the maximum, and what is returned fits the last of them. -/
theorem capacities_retryFrom (hmaximum : maximum ≤ u32Max) {fuel capacity : ℕ} (s : σ)
    (hcapacity : capacity ≤ maximum) :
    let run := retryFrom target query maximum fuel capacity s
    run.capacities.Pairwise (· < ·) ∧
      (∀ tried ∈ run.capacities, capacity ≤ tried ∧ tried ≤ maximum) ∧
      ∀ bytes, run.outcome = .returned bytes →
        ∃ last, run.capacities.getLast? = some last ∧ bytes.length ≤ last := by
  induction fuel generalizing capacity s with
  | zero => exact ⟨.nil, by simp [retryFrom], nofun⟩
  | succ fuel ih =>
    rcases retryFrom_succ fuel capacity s with
      ⟨outcome, hrun, -, hbytes⟩ | ⟨reported, next, s', hgrown, hrun⟩
    · rw [hrun]
      refine ⟨List.pairwise_singleton _ _, by simp [hcapacity], fun bytes h => ?_⟩
      exact ⟨capacity, rfl, hbytes bytes h⟩
    · obtain ⟨hless, hnext, -⟩ := grown_eq_some hgrown hmaximum
      obtain ⟨hsorted, hbounds, hlast⟩ := ih s' hnext
      rw [hrun]
      refine ⟨List.pairwise_cons.2 ⟨fun tried h => hless.trans_le (hbounds tried h).1, hsorted⟩,
        fun tried h => ?_, fun bytes h => ?_⟩
      · rcases List.mem_cons.1 h with rfl | h
        · exact ⟨le_refl _, hcapacity⟩
        · obtain ⟨hlow, hhigh⟩ := hbounds tried h
          omega
      · obtain ⟨last, hsome, hlength⟩ := hlast bytes h
        exact ⟨last, by rw [List.getLast?_cons, hsome]; rfl, hlength⟩

/-- A capacity that reaches the maximum after so many doublings is followed by at most as many. -/
theorem growths_retryFrom (hmaximum : maximum ≤ u32Max) {growths fuel capacity : ℕ} (s : σ)
    (hcapacity : capacity ≤ maximum) (hgrowths : maximum ≤ 2 ^ growths * capacity) :
    let run := retryFrom target query maximum fuel capacity s
    run.capacities.length ≤ growths + 1 ∧ (growths < fuel → run.outcome ≠ .exhausted) := by
  induction growths generalizing fuel capacity s with
  | zero =>
    obtain rfl : capacity = maximum := by omega
    cases fuel with
    | zero => exact ⟨Nat.zero_le _, fun h => absurd h (Nat.lt_irrefl 0)⟩
    | succ fuel =>
      rcases retryFrom_succ fuel capacity s with
        ⟨outcome, hrun, houtcome, -⟩ | ⟨reported, next, s', hgrown, -⟩
      · rw [hrun]
        exact ⟨le_refl _, fun _ => houtcome⟩
      · rw [grown_maximum] at hgrown
        cases hgrown
  | succ growths ih =>
    cases fuel with
    | zero => exact ⟨Nat.zero_le _, fun h => absurd h (Nat.not_lt_zero _)⟩
    | succ fuel =>
      rcases retryFrom_succ fuel capacity s with
        ⟨outcome, hrun, houtcome, -⟩ | ⟨reported, next, s', hgrown, hrun⟩
      · rw [hrun]
        exact ⟨Nat.le_add_left 1 _, fun _ => houtcome⟩
      · obtain ⟨hless, hnext, hgrowth⟩ := grown_eq_some hgrown hmaximum
        have hlater : maximum ≤ 2 ^ growths * next := by
          by_cases hend : next = maximum
          · rw [hend]
            exact Nat.le_mul_of_pos_left _ (Nat.two_pow_pos growths)
          · have hdouble : 2 * capacity ≤ next := by omega
            calc
              maximum ≤ 2 ^ (growths + 1) * capacity := hgrowths
              _ = 2 ^ growths * (2 * capacity) := by rw [pow_succ, Nat.mul_assoc]
              _ ≤ 2 ^ growths * next := Nat.mul_le_mul_left _ hdouble
        obtain ⟨hlength, houtcome⟩ := @ih fuel next s' hnext hlater
        rw [hrun]
        exact ⟨Nat.succ_le_succ hlength, fun hfuel => houtcome (Nat.lt_of_succ_lt_succ hfuel)⟩

/-- The calls that a run can make: one without a buffer, and one for each power of two up to the
greatest length of 32 bits. -/
def maxCalls : ℕ := 34

theorem calls_retryFrom (hmaximum : maximum ≤ u32Max) {fuel capacity : ℕ} (s : σ)
    (hcapacity : capacity ≤ maximum) :
    let run := retryFrom target query maximum fuel capacity s
    run.capacities.length ≤ maxCalls ∧ (maxCalls ≤ fuel → run.outcome ≠ .exhausted) := by
  have hwide : maximum ≤ 2 ^ 32 := hmaximum.trans (Nat.sub_le _ _)
  by_cases hzero : capacity = 0
  · cases fuel with
    | zero => exact ⟨Nat.zero_le _, fun h => absurd h (by decide)⟩
    | succ fuel =>
      rcases retryFrom_succ fuel capacity s with
        ⟨outcome, hrun, houtcome, -⟩ | ⟨reported, next, s', hgrown, hrun⟩
      · rw [hrun]
        exact ⟨Nat.le_add_left 1 33, fun _ => houtcome⟩
      · obtain ⟨hless, hnext, -⟩ := grown_eq_some hgrown hmaximum
        have hgrowths : maximum ≤ 2 ^ 32 * next := by omega
        obtain ⟨hlength, houtcome⟩ := @growths_retryFrom _ _ _ query _ hmaximum 32 fuel _ s' hnext
          hgrowths
        rw [hrun]
        exact ⟨Nat.succ_le_succ hlength, fun hfuel => houtcome (Nat.lt_of_succ_lt_succ hfuel)⟩
  · have hgrowths : maximum ≤ 2 ^ 32 * capacity := by omega
    obtain ⟨hlength, houtcome⟩ := @growths_retryFrom _ _ _ query _ hmaximum 32 fuel _ s hcapacity
      hgrowths
    exact ⟨hlength.trans (by decide), fun hfuel => houtcome (lt_of_lt_of_le (by decide) hfuel)⟩

/-- From some capacity on the query completes within the buffer, and below it the query completes
or reports a size of at most the maximum. -/
def SucceedsFrom (query : Query σ ε) (enough maximum : ℕ) : Prop :=
  ∀ capacity ≤ maximum, ∀ s, match (query capacity s).1 with
    | .failed _ => False
    | .complete filled _ => filled.toNat ≤ capacity
    | .moreData reported => capacity < enough ∧ reported.toNat ≤ maximum

theorem returned_retryFrom (hmaximum : maximum ≤ u32Max) {enough fuel capacity : ℕ}
    (henough : enough ≤ maximum) (hquery : SucceedsFrom query enough maximum) (s : σ)
    (hcapacity : capacity ≤ maximum)
    (hended : (retryFrom target query maximum fuel capacity s).outcome ≠ .exhausted) :
    ∃ bytes, (retryFrom target query maximum fuel capacity s).outcome = .returned bytes := by
  induction fuel generalizing capacity s with
  | zero => exact absurd rfl hended
  | succ fuel ih =>
    have hreply := hquery capacity hcapacity s
    rw [retryFrom] at hended ⊢
    rcases hcall : query capacity s with ⟨error | ⟨filled, buffer⟩ | reported, s'⟩
    · rw [hcall] at hreply
      exact hreply.elim
    · rw [hcall] at hreply
      have hfilled : filled.toNat ≤ capacity := hreply
      simp only [completed]
      rw [if_neg (by omega), if_neg (by omega)]
      exact ⟨_, rfl⟩
    · rw [hcall] at hreply hended
      obtain ⟨hsmall, hreported⟩ := hreply
      obtain ⟨next, hgrown⟩ := @grown_of_lt target _ _ _ hreported
        (show capacity < maximum by omega) hmaximum
      obtain ⟨-, hnext, -⟩ := grown_eq_some hgrown hmaximum
      simp only [hgrown] at hended ⊢
      exact ih s' hnext hended

/-- A run makes at most so many calls with rising capacities under the maximum, what it returns
fits the last buffer, and it succeeds where the query does. -/
theorem retryBytes_bounded (target : Target) (query : Query σ ε) (initial maximum : ℕ) (s : σ) :
    (∀ fuel, let run := retryBytes target query initial maximum fuel s
      run.capacities.length ≤ maxCalls ∧ run.capacities.Pairwise (· < ·) ∧
      (∀ tried ∈ run.capacities, tried ≤ min maximum u32Max) ∧
      ∀ bytes, run.outcome = .returned bytes →
        ∃ last, run.capacities.getLast? = some last ∧ bytes.length ≤ last) ∧
    (∀ fuel ≥ maxCalls, (retryBytes target query initial maximum fuel s).outcome ≠ .exhausted) ∧
    ∀ enough ≤ min maximum u32Max, initial ≤ min maximum u32Max →
      SucceedsFrom query enough (min maximum u32Max) → ∀ fuel ≥ maxCalls,
        ∃ bytes, (retryBytes target query initial maximum fuel s).outcome = .returned bytes := by
  have hmaximum : min maximum u32Max ≤ u32Max := Nat.min_le_right _ _
  simp only [retryBytes]
  split_ifs with hinitial
  · refine ⟨fun fuel => ⟨Nat.zero_le _, .nil, by simp, nofun⟩, nofun, fun enough _ h => ?_⟩
    exact absurd hinitial (not_lt.2 h)
  · have hcapacity : initial ≤ min maximum u32Max := not_lt.1 hinitial
    refine ⟨fun fuel => ?_, fun fuel hfuel => ?_, fun enough henough _ hquery fuel hfuel => ?_⟩
    · obtain ⟨hsorted, hbounds, hlast⟩ := @capacities_retryFrom _ _ target query _ hmaximum fuel _
        s hcapacity
      exact ⟨(calls_retryFrom hmaximum s hcapacity).1, hsorted, fun tried h => (hbounds tried h).2,
        hlast⟩
    · exact (calls_retryFrom hmaximum s hcapacity).2 hfuel
    · exact returned_retryFrom hmaximum henough hquery s hcapacity
        ((calls_retryFrom hmaximum s hcapacity).2 hfuel)

end

end MacTypeControl.Platform.BoundedRead
