import MacTypeControl.Host.Driver
import Mathlib.Data.List.Perm.Basic
import Mathlib.Tactic

/-!
# The backlog of the driver

The backlog begins as the first snapshot, with the relay roots in front. A new subscription adds the
processes of its snapshot that are not in it.
-/

namespace MacTypeControl.Host

variable {ω : Type}

/-- The pids of a snapshot, each with the answer that the ordering goes by. -/
def relayRootMarks (inspector : ProcessInspector ω) : List ℕ → ω → List (ℕ × Bool) × ω
  | [], world => ([], world)
  | pid :: rest, world =>
    let (name, world) := inspector.imageNameForOrdering world pid
    let (marks, world) := relayRootMarks inspector rest world
    ((pid, name.any isRelayRoot) :: marks, world)

/-- Orders a backlog so that relay roots are drained first. -/
def relayRootsFirst (inspector : ProcessInspector ω) (pids : List ℕ) (world : ω) : List ℕ × ω :=
  let (marks, world) := relayRootMarks inspector pids world
  let (roots, rest) := marks.partition Prod.snd
  ((roots ++ rest).map Prod.fst, world)

theorem pids_relayRootMarks (inspector : ProcessInspector ω) (pids : List ℕ) (world : ω) :
    (relayRootMarks inspector pids world).1.map Prod.fst = pids := by
  induction pids generalizing world with
  | nil => rfl
  | cons pid rest ih =>
    rw [relayRootMarks, List.map_cons, ih]

theorem relayRootsFirst_eq (inspector : ProcessInspector ω) (pids : List ℕ) (world : ω) :
    let marks := (relayRootMarks inspector pids world).1
    (relayRootsFirst inspector pids world).1 =
      (marks.filter Prod.snd).map Prod.fst ++ (marks.filter fun mark => !mark.2).map Prod.fst := by
  simp only [relayRootsFirst, List.partition_eq_filter_filter, List.map_append]
  rfl

theorem relayRootsFirst_perm (inspector : ProcessInspector ω) (pids : List ℕ) (world : ω) :
    (relayRootsFirst inspector pids world).1.Perm pids := by
  have hparts := List.filter_append_perm Prod.snd (relayRootMarks inspector pids world).1
  have hpids := hparts.map Prod.fst
  rw [List.map_append, pids_relayRootMarks] at hpids
  rw [relayRootsFirst_eq]
  exact hpids

namespace OrchestrationDriver

variable (host : Surroundings ω) (d : OrchestrationDriver ω)

/-- How often a pid is in the backlog once a snapshot is in it. -/
def reconciledCount (pending pids : List ℕ) (pid : ℕ) : ℕ :=
  if pid ∈ pending then pending.count pid else if pid ∈ pids then 1 else 0

/-- The snapshot that a new subscription delivers. -/
def deliveredSnapshot :
    Except Injection.StructuredServiceError (List ℕ) :=
  ((d.ask host.source.subscribe).2.ask host.source.snapshotPids).1

/-! ## One pid -/

theorem addToBacklog_cases (pid : ℕ) :
    (pid ∈ d.snapshotPids ∧ d.addToBacklog host pid = d) ∨
    (pid ∉ d.snapshotPids ∧ ((d.addToBacklog host pid).snapshotPids = pid :: d.snapshotPids ∨
      (d.addToBacklog host pid).snapshotPids = d.snapshotPids ++ [pid])) := by
  unfold addToBacklog
  by_cases hmem : pid ∈ d.snapshotPids
  · rw [if_pos hmem]
    exact Or.inl ⟨hmem, rfl⟩
  · rw [if_neg hmem]
    refine Or.inr ⟨hmem, ?_⟩
    dsimp only [ask]
    split
    · exact Or.inl rfl
    · exact Or.inr rfl

theorem sublist_addToBacklog (pid : ℕ) :
    d.snapshotPids.Sublist (d.addToBacklog host pid).snapshotPids := by
  rcases addToBacklog_cases host d pid with ⟨-, hsame⟩ | ⟨-, hfront | hback⟩
  · rw [hsame]
  · rw [hfront]
    exact List.sublist_cons_self pid _
  · rw [hback]
    exact List.sublist_append_left _ _

theorem count_addToBacklog (pid other : ℕ) :
    (d.addToBacklog host pid).snapshotPids.count other =
      reconciledCount d.snapshotPids [pid] other := by
  have hone : pid ∉ d.snapshotPids → d.snapshotPids.count other + [pid].count other =
      reconciledCount d.snapshotPids [pid] other := by
    intro hnew
    unfold reconciledCount
    by_cases hother : other ∈ d.snapshotPids
    · have hne : pid ≠ other := fun he => hnew (he ▸ hother)
      rw [if_pos hother, List.count_singleton, if_neg (by simpa using hne)]
      omega
    · rw [if_neg hother, List.count_eq_zero.2 hother, List.count_singleton]
      by_cases he : other = pid
      · simp [he]
      · simp [he, Ne.symm he]
  rcases addToBacklog_cases host d pid with ⟨hmem, hsame⟩ | ⟨hnew, hfront | hback⟩
  · rw [hsame]
    unfold reconciledCount
    by_cases hother : other ∈ d.snapshotPids
    · rw [if_pos hother]
    · have hne : other ≠ pid := fun he => hother (he ▸ hmem)
      rw [if_neg hother, if_neg (by simpa using hne), List.count_eq_zero.2 hother]
  · rw [hfront, ← hone hnew, ← List.singleton_append, List.count_append, Nat.add_comm]
  · rw [hback, ← hone hnew, List.count_append]

theorem mem_addToBacklog (pid other : ℕ) :
    other ∈ (d.addToBacklog host pid).snapshotPids ↔ other ∈ d.snapshotPids ∨ other = pid := by
  rcases addToBacklog_cases host d pid with ⟨hmem, hsame⟩ | ⟨-, hfront | hback⟩
  · rw [hsame]
    exact ⟨Or.inl, fun h => h.elim id fun he => he ▸ hmem⟩
  · rw [hfront, List.mem_cons, or_comm]
  · rw [hback, List.mem_append, List.mem_singleton]

/-! ## A snapshot -/

theorem sublist_foldl_addToBacklog (pids : List ℕ) :
    d.snapshotPids.Sublist (pids.foldl (addToBacklog host) d).snapshotPids := by
  induction pids generalizing d with
  | nil => exact List.Sublist.refl _
  | cons pid rest ih => exact (sublist_addToBacklog host d pid).trans (ih _)

theorem count_foldl_addToBacklog (pids : List ℕ) (other : ℕ) :
    (pids.foldl (addToBacklog host) d).snapshotPids.count other =
      reconciledCount d.snapshotPids pids other := by
  induction pids generalizing d with
  | nil =>
    unfold reconciledCount
    by_cases hother : other ∈ d.snapshotPids
    · rw [if_pos hother]
      rfl
    · rw [if_neg hother, if_neg List.not_mem_nil]
      exact List.count_eq_zero.2 hother
  | cons pid rest ih =>
    rw [List.foldl_cons, ih]
    have hone := count_addToBacklog host d pid other
    have hmem := mem_addToBacklog host d pid other
    unfold reconciledCount at hone ⊢
    by_cases hother : other ∈ d.snapshotPids
    · rw [if_pos (hmem.2 (Or.inl hother)), hone, if_pos hother, if_pos hother]
    · by_cases he : other = pid
      · rw [if_pos (hmem.2 (Or.inr he)), hone, if_neg hother, if_neg hother]
        simp [he]
      · have hnot : other ∉ (d.addToBacklog host pid).snapshotPids := fun h =>
          (hmem.1 h).elim hother he
        rw [if_neg hnot, if_neg hother]
        simp [he]

/-- A subscription that is not taken again leaves the backlog as it was. -/
theorem resubscribe_cases :
    (∃ error, (d.resubscribe host).1 = .error error ∧
      (d.resubscribe host).2.snapshotPids = d.snapshotPids) ∨
    ∃ pids d', deliveredSnapshot host d = .ok pids ∧ d'.snapshotPids = d.snapshotPids ∧
      d.resubscribe host = (.ok (), pids.foldl (addToBacklog host) d') := by
  have hsubscribed : (d.ask host.source.subscribe).2.snapshotPids = d.snapshotPids := rfl
  unfold resubscribe deliveredSnapshot
  revert hsubscribed
  rcases d.ask host.source.subscribe with ⟨error | _, d₁⟩ <;> intro hsubscribed <;> dsimp only
  · exact Or.inl ⟨error, rfl, hsubscribed⟩
  · have hsnapshot : (d₁.ask host.source.snapshotPids).2.snapshotPids = d₁.snapshotPids := rfl
    revert hsnapshot
    rcases d₁.ask host.source.snapshotPids with ⟨error | pids, d₂⟩ <;> intro hsnapshot <;>
      dsimp only
    · exact Or.inl ⟨error, rfl, hsnapshot.trans hsubscribed⟩
    · exact Or.inr ⟨pids, d₂, rfl, hsnapshot.trans hsubscribed, rfl⟩

/-- What a new subscription does to the backlog. -/
structure Reconciled (d' : OrchestrationDriver ω) (pids : List ℕ) :
    Prop where
  delivered : deliveredSnapshot host d = .ok pids
  ordered : d.snapshotPids.Sublist d'.snapshotPids
  count : ∀ pid, d'.snapshotPids.count pid = reconciledCount d.snapshotPids pids pid

theorem reconciled_resubscribe :
    (∃ error, (d.resubscribe host).1 = .error error ∧
      (d.resubscribe host).2.snapshotPids = d.snapshotPids) ∨
    (d.resubscribe host).1 = .ok () ∧ ∃ pids, Reconciled host d (d.resubscribe host).2 pids := by
  rcases resubscribe_cases host d with hfailed | ⟨pids, d', hpids, hsame, heq⟩
  · exact Or.inl hfailed
  · right
    rw [heq]
    refine ⟨rfl, pids, hpids, ?_, fun pid => ?_⟩
    · rw [← hsame]
      exact sublist_foldl_addToBacklog host d' pids
    · rw [count_foldl_addToBacklog, hsame]

end OrchestrationDriver

open OrchestrationDriver

/-- A new subscription keeps what was pending, as often as it was and in its order, and adds every
other pid of its snapshot once. The first backlog is the snapshot, with the relay roots in front. -/
theorem backlog_loses_nothing (host : Surroundings ω) :
    (∀ d : OrchestrationDriver ω,
      (∃ error, (d.resubscribe host).1 = .error error ∧
        (d.resubscribe host).2.snapshotPids = d.snapshotPids) ∨
      (d.resubscribe host).1 = .ok () ∧
        ∃ pids, Reconciled host d (d.resubscribe host).2 pids) ∧
    ∀ (pids : List ℕ) (world : ω),
      let marks := (relayRootMarks host.inspector pids world).1
      let backlog := (relayRootsFirst host.inspector pids world).1
      marks.map Prod.fst = pids ∧ backlog.Perm pids ∧
        backlog = (marks.filter Prod.snd).map Prod.fst ++
          (marks.filter fun mark => !mark.2).map Prod.fst := by
  refine ⟨fun d => reconciled_resubscribe host d, fun pids world => ?_⟩
  exact ⟨pids_relayRootMarks _ _ _, relayRootsFirst_perm _ _ _, relayRootsFirst_eq _ _ _⟩

/-! ## A pid that is pending twice -/

/-- The source names one process twice in every snapshot. -/
def repeatingSource : Surroundings Unit where
  recovery := .default
  stop := {
    wait := fun _ => (.ok (), ())
    waitTimeout := fun _ _ => (.ok false, ())
    stopRequested := fun _ => (false, ())
    takeSessionChanges := fun _ => ([], ()) }
  source := {
    subscribe := fun _ => (.ok (), ())
    snapshotPids := fun _ => (.ok [7, 7], ())
    nextPid := fun _ _ => (.ok none, ()) }
  inspector := {
    inspect := fun _ _ => (.error ⟨"process-vanished", "the process has exited", none⟩, ())
    probeTargetLifecycle := fun _ _ => (.unknown, ())
    probeTargetLiveness := fun _ _ => (.unknown, ())
    processBasename := fun _ _ => (none, ())
    imageNameForOrdering := fun _ _ => (none, ()) }
  inject := fun _ _ => (⟨.skipped, "already-loaded", none⟩, ())
  report := fun _ _ _ _ _ => (.ok (), ())
  now := fun _ => 0
  currentFiletime := fun _ => none

/-- The first snapshot is taken as it comes, and so the process stays pending twice. -/
theorem repeated_pid_stays_pending_twice :
    ¬∀ (host : Surroundings Unit) (first snapshot : List ℕ) (pid : ℕ),
      let d := OrchestrationDriver.start 900 "generation" "digest"
        (relayRootsFirst host.inspector first ()).1 ()
      (d.resubscribe host).1 = .ok () → deliveredSnapshot host d = .ok snapshot →
        pid ∈ d.snapshotPids ++ snapshot →
          (d.resubscribe host).2.snapshotPids.count pid = 1 := by
  intro h
  have htwice := h repeatingSource [7, 7] [7, 7] 7 rfl rfl (by decide)
  exact absurd htwice (by decide)

end MacTypeControl.Host
