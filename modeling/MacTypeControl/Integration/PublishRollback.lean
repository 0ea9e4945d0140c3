import MacTypeControl.Integration.Publish

/-!
# What a failed publish leaves behind

Whether the profile is rolled back is decided by the digest the service showed
before, what a rollback does by the two pointers of the store. A failed publish
restores the machine exactly when the two views agree about the published profile.
-/

namespace MacTypeControl.Integration

open Crash Crash.Prog Profile

/-- The active profile, whether the service is installed and whether it runs are as before. -/
structure Restored (m t : MachineState) : Prop where
  active : t.pointers.active = m.pointers.active
  installed : t.installation ≠ .absent ↔ m.installation ≠ .absent
  running : t.runtime = .running ↔ m.runtime = .running

/-- A publish that fails without the rollback-failed mark restores the machine. -/
def FailureRestores (backend : MachineBackend) (profile : Bytes) (m : MachineState) : Prop :=
  ∀ fs error t, (backend.publishProfileTransactionWith profile).result fs m = (.error error, t) →
    error.rollback ≠ .failed → Restored m t

/-- A machine the transaction accepts, with a first look that shows the service as it is. -/
structure Startable (backend : MachineBackend) (m : MachineState) : Prop where
  stored : m.pointers.Stored
  absent_stopped : m.installation = .absent → m.runtime = .stopped
  shows_installation : (backend.status 0 m).installation = m.installation
  shows_runtime : (backend.status 0 m).runtime = m.runtime
  accepted : MachineBackend.accepted (backend.status 0 m) = true

variable {backend : MachineBackend} {profile : Bytes} {m s : MachineState}

theorem wp_execute {action : MachineAction} {payload : Option Bytes}
    {Q : Unit → MachineState → Prop} {E : ActionFailure → MachineState → Prop}
    {C : MachineState → Prop}
    (hok : ∀ t, action.effect backend.digest payload s = some t → Q () t)
    (herr : E (backend.failure action) s) (hstop : C s) :
    wp (backend.execute action payload) Q E C s := by
  apply wp_atomic _ _ herr hstop
  · intro a t h
    cases heff : action.effect backend.digest payload s with
    | none => rw [heff] at h; cases h
    | some u => rw [heff] at h; cases h; exact hok _ heff
  · intro e h
    cases heff : action.effect backend.digest payload s with
    | none => rw [heff] at h; cases h; exact herr
    | some u => rw [heff] at h; cases h

/-- As long as no cleanup action has failed, each has had its effect. -/
theorem wp_rollbackStep {label : String} {action : MachineAction} {failures : List String}
    {P : MachineState → Prop}
    (h : failures = [] → ∀ t, action.effect backend.digest none s = some t → P t) :
    wp (backend.rollbackStep label action failures) (fun fs t => fs = [] → P t)
      (fun _ _ => True) (fun _ => True) s := by
  apply wp_bind
  apply wp_attempt
  apply wp_execute
  · intro t ht
    exact wp_ret fun hfs => h hfs t ht
  · exact wp_ret fun hfs => absurd hfs (by simp)
  · trivial

/-- The state a rollback starts from, when it can restore `m`. -/
structure Undoable (m s : MachineState) (profileChanged : Bool) : Prop where
  active : if profileChanged then ∃ q, s.pointers.rollback = some q ∧ q.active = m.pointers.active
    else s.pointers.active = m.pointers.active
  installed : m.installation ≠ .absent → s.installation ≠ .absent

theorem wp_rollbackProfile {profileChanged : Bool} {failures : List String}
    (hs : failures = [] → Undoable m s profileChanged ∧ s.runtime = .stopped) :
    wp (backend.rollbackProfile profileChanged failures)
      (fun fs t => fs = [] → Undoable m t false ∧ t.runtime = .stopped)
      (fun _ _ => True) (fun _ => True) s := by
  cases profileChanged with
  | false => exact wp_ret hs
  | true =>
    apply wp_rollbackStep
    intro hfs t ht
    obtain ⟨q, hq, hactive⟩ := (hs hfs).1.active
    simp only [MachineAction.effect, hq, Option.map_some, Option.some.injEq] at ht
    subst ht
    exact ⟨⟨hactive, (hs hfs).1.installed⟩, (hs hfs).2⟩

theorem wp_restoreService {before : SystemServiceStatus} {failures : List String}
    (habsent : m.installation = .absent → m.runtime = .stopped)
    (hinst : before.installation = m.installation) (hrun : before.runtime = m.runtime)
    (hs : failures = [] → Undoable m s false ∧ s.runtime = .stopped) :
    wp (backend.restoreService before failures) (fun fs t => fs = [] → Restored m t)
      (fun _ _ => True) (fun _ => True) s := by
  unfold MachineBackend.restoreService
  rw [hinst, hrun]
  by_cases habs : m.installation = .absent
  · rw [if_pos habs]
    apply wp_rollbackStep
    rintro hfs t ⟨⟩
    exact ⟨(hs hfs).1.active, by simp [habs], by simp [habsent habs]⟩
  rw [if_neg habs]
  by_cases hrunning : m.runtime = .running
  · rw [if_pos hrunning]
    apply wp_rollbackStep
    intro hfs t ht
    have hinstalled := (hs hfs).1.installed habs
    simp only [MachineAction.effect, hinstalled, if_false, Option.some.injEq] at ht
    subst ht
    exact ⟨(hs hfs).1.active, ⟨fun _ => habs, fun _ => hinstalled⟩, by simp [hrunning]⟩
  · rw [if_neg hrunning]
    apply wp_ret
    intro hfs
    refine ⟨(hs hfs).1.active, ⟨fun _ => habs, fun _ => (hs hfs).1.installed habs⟩, ?_⟩
    simp [(hs hfs).2, hrunning]

theorem wp_rollbackPublishedProfile {before : SystemServiceStatus} {profileChanged : Bool}
    (habsent : m.installation = .absent → m.runtime = .stopped)
    (hinst : before.installation = m.installation) (hrun : before.runtime = m.runtime)
    (hundo : Undoable m s profileChanged) :
    wp (backend.rollbackPublishedProfile before profileChanged) (fun _ t => Restored m t)
      (fun _ _ => True) (fun _ => True) s := by
  have hstop : wp (backend.rollbackStep "stop" .stop [])
      (fun fs t => fs = [] → Undoable m t profileChanged ∧ t.runtime = .stopped)
      (fun _ _ => True) (fun _ => True) s := by
    apply wp_rollbackStep
    rintro - t ⟨⟩
    exact ⟨⟨hundo.active, hundo.installed⟩, rfl⟩
  apply wp_bind
  apply wp_mono hstop _ (fun _ _ h => h) (fun _ h => h)
  intro failures t ht
  apply wp_bind
  apply wp_mono (wp_rollbackProfile ht) _ (fun _ _ h => h) (fun _ h => h)
  intro failures u hu
  apply wp_bind
  apply wp_mono (wp_restoreService habsent hinst hrun hu) _ (fun _ _ h => h) (fun _ h => h)
  intro failures v hv
  by_cases hfs : failures = []
  · rw [if_pos hfs]
    exact wp_ret (hv hfs)
  · rw [if_neg hfs]
    exact wp_throw trivial

theorem wp_failWithRollback {before : SystemServiceStatus} {profileChanged : Bool}
    (habsent : m.installation = .absent → m.runtime = .stopped)
    (hinst : before.installation = m.installation) (hrun : before.runtime = m.runtime)
    (hundo : Undoable m s profileChanged) (error : ActionFailure) :
    wp (backend.failWithRollback before profileChanged error) (fun _ _ => True)
      (fun e t => e.rollback ≠ .failed → Restored m t) (fun _ => True) s := by
  apply wp_bind
  apply wp_attempt
  apply wp_mono (wp_rollbackPublishedProfile habsent hinst hrun hundo) _ _ (fun _ h => h)
  · intro _ t ht
    exact wp_throw fun _ => ht
  · intro cleanup t _
    exact wp_throw fun h => absurd rfl h

/-- Activation only changes the service, and never takes it away. -/
theorem wp_activation {installation : InstallationState} {Q : Unit → MachineState → Prop}
    {E : ActionFailure → MachineState → Prop}
    (hok : ∀ t, t.pointers = s.pointers → t.installation ≠ .absent → Q () t)
    (herr : ∀ e t, t.pointers = s.pointers →
      (s.installation ≠ .absent → t.installation ≠ .absent) → E e t) :
    wp (backend.activation installation) Q E (fun _ => True) s := by
  have hstart : ∀ u, u.pointers = s.pointers →
      (s.installation ≠ .absent → u.installation ≠ .absent) →
      wp (backend.execute .start none) Q E (fun _ => True) u := by
    intro u hp hi
    apply wp_execute _ (herr _ u hp hi) trivial
    intro t ht
    by_cases hu : u.installation = .absent
    · simp [MachineAction.effect, hu] at ht
    · simp only [MachineAction.effect, hu, if_false, Option.some.injEq] at ht
      subst ht
      exact hok _ hp hu
  cases installation with
  | absent =>
    apply wp_bind
    apply wp_execute _ (herr _ s rfl id) trivial
    rintro t ⟨⟩
    exact hstart _ rfl (by simp)
  | outdated =>
    apply wp_bind
    apply wp_execute _ (herr _ s rfl id) trivial
    rintro t ⟨⟩
    exact hstart _ rfl (by simp)
  | current => exact hstart s rfl id
  | _ => exact wp_throw (herr _ s rfl id)

theorem wp_pollPublished {expected : String} {Q : Unit → MachineState → Prop}
    {E : ActionFailure → MachineState → Prop} (hok : Q () s) (herr : ∀ e, E e s)
    (left poll : ℕ) (last : Option SystemServiceStatus) :
    wp (backend.pollPublished expected left poll last) Q E (fun _ => True) s := by
  induction left generalizing poll last with
  | zero => cases last <;> exact wp_throw (herr _)
  | succ left ih =>
    apply wp_bind
    apply wp_observe
    split
    · exact wp_ret hok
    · exact ih _ _

theorem Restored.refl (m : MachineState) : Restored m m := ⟨rfl, Iff.rfl, Iff.rfl⟩

theorem Startable.stopped_or_running (h : Startable backend m) :
    m.runtime = .running ∨ m.runtime = .stopped := by
  have ha := h.accepted
  simp only [MachineBackend.accepted, h.shows_runtime, Bool.and_eq_true, Bool.or_eq_true,
    decide_eq_true_eq] at ha
  exact ha.2

theorem Startable.installation_cases (h : Startable backend m) :
    m.installation = .absent ∨ m.installation = .current ∨ m.installation = .outdated := by
  have ha := h.accepted
  simp only [MachineBackend.accepted, h.shows_installation, Bool.and_eq_true, Bool.or_eq_true,
    decide_eq_true_eq, or_assoc] at ha
  exact ha.1.2

/-- The publish itself failed: the store is untouched, and the service is started again. -/
theorem wp_restartPrior (hstart : Startable backend m) (hp : s.pointers = m.pointers)
    (hi : s.installation = m.installation) (hr : s.runtime = .stopped) (error : ActionFailure) :
    wp (backend.restartPrior (backend.status 0 m) error) (fun _ _ => True)
      (fun e t => e.rollback ≠ .failed → Restored m t) (fun _ => True) s := by
  have hactive : s.pointers.active = m.pointers.active := by rw [hp]
  unfold MachineBackend.restartPrior
  rw [hstart.shows_runtime]
  apply wp_bind
  apply wp_whenever
  · intro hrunning
    have hpresent : m.installation ≠ .absent := by
      intro habs
      simp [hstart.absent_stopped habs] at hrunning
    apply wp_handle
    apply wp_execute
    · intro t ht
      simp only [MachineAction.effect, hi, hpresent, if_false, Option.some.injEq] at ht
      subst ht
      exact wp_throw fun _ => ⟨hactive, Iff.rfl, by simp [hrunning]⟩
    · exact wp_throw fun h => absurd rfl h
    · trivial
  · intro hidle
    exact wp_throw fun _ => ⟨hactive, by rw [hi], by simp [hr, hidle]⟩

theorem undoable_activate (hstart : Startable backend m) {expected : String}
    {shown : Option String} (hagree : shown = some expected ↔ m.pointers.active = some expected)
    (hp : s.pointers = m.pointers.activate expected)
    (hi : m.installation ≠ .absent → s.installation ≠ .absent) :
    Undoable m s (decide (shown ≠ some expected)) := by
  refine ⟨?_, hi⟩
  by_cases hshown : shown = some expected
  · have hactive := hagree.1 hshown
    simp [hshown, hp, Pointers.activate_of_active hactive]
  · have hactive : m.pointers.active ≠ some expected := fun h => hshown (hagree.2 h)
    simpa [hshown, hp] using Pointers.rollback_activate hstart.stored.consistent hactive

theorem wp_publishStopped (hstart : Startable backend m)
    (hagree : (backend.status 0 m).activeProfileDigest = some (backend.digest profile) ↔
      m.pointers.active = some (backend.digest profile))
    (hp : s.pointers = m.pointers) (hi : s.installation = m.installation)
    (hr : s.runtime = .stopped) :
    wp (backend.publishStopped (backend.status 0 m) profile) (fun _ _ => True)
      (fun e t => e.rollback ≠ .failed → Restored m t) (fun _ => True) s := by
  have hrollback : ∀ w : MachineState,
      w.pointers = m.pointers.activate (backend.digest profile) →
      (m.installation ≠ .absent → w.installation ≠ .absent) → ∀ error,
      wp (backend.failWithRollback (backend.status 0 m)
        (decide ((backend.status 0 m).activeProfileDigest ≠ some (backend.digest profile)))
        error) (fun _ _ => True) (fun e t => e.rollback ≠ .failed → Restored m t)
        (fun _ => True) w := fun w hw hwi error =>
    wp_failWithRollback hstart.absent_stopped hstart.shows_installation hstart.shows_runtime
      (undoable_activate hstart hagree hw hwi) error
  apply wp_bind
  apply wp_attempt
  apply wp_execute _ (wp_restartPrior hstart hp hi hr _) trivial
  intro v hv
  simp only [MachineAction.effect, Option.map_some, Option.some.injEq] at hv
  subst hv
  rw [hp]
  apply wp_handle
  apply wp_bind
  apply wp_activation
  · intro w hw hwi
    exact wp_pollPublished trivial (hrollback w hw fun _ => hwi) _ _ _
  · intro e w hw hwi
    exact hrollback w hw (fun h => hwi (hi ▸ h)) e

theorem failureRestores_of_agree (hstart : Startable backend m)
    (hagree : (backend.status 0 m).activeProfileDigest = some (backend.digest profile) ↔
      m.pointers.active = some (backend.digest profile)) :
    FailureRestores backend profile m := by
  suffices h : wp (backend.publishProfileTransactionWith profile) (fun _ _ => True)
      (fun e t => e.rollback ≠ .failed → Restored m t) (fun _ => True) m by
    intro fs error t hrun
    have hfs := h fs
    rw [hrun] at hfs
    exact hfs
  unfold MachineBackend.publishProfileTransactionWith
  by_cases hrange : (!MachineBackend.profileInRange profile) = true
  · rw [if_pos hrange]
    exact wp_throw fun _ => .refl m
  rw [if_neg hrange]
  apply wp_bind
  apply wp_observe
  rw [if_neg (by simp [hstart.accepted])]
  apply wp_bind
  apply wp_whenever
  · intro _
    apply wp_execute _ (fun _ => .refl m) trivial
    rintro u ⟨⟩
    exact wp_publishStopped hstart hagree rfl rfl rfl
  · intro hidle
    rw [hstart.shows_runtime] at hidle
    exact wp_publishStopped hstart hagree rfl rfl (hstart.stopped_or_running.resolve_left hidle)

/-! ## A start that fails once -/

/-- Lets the start of an activation fail and everything else succeed. -/
def startFault : InstallationState → List Fault
  | .current => [.fail 0]
  | _ => [.none, .fail 0]

theorem run_activation_startFault (backend : MachineBackend) {installation : InstallationState}
    (h : installation = .absent ∨ installation = .current ∨ installation = .outdated)
    (s : MachineState) :
    ∃ t, (backend.activation installation).run (startFault installation) s =
        (.error (backend.failure .start), t, []) ∧ t.pointers = s.pointers ∧
      (s.installation ≠ .absent → t.installation ≠ .absent) := by
  rcases h with rfl | rfl | rfl
  · exact ⟨{ s with installation := .current }, by
      simp [MachineBackend.activation, MachineBackend.execute, startFault, run_bind,
        MachineAction.effect], rfl, by simp⟩
  · exact ⟨s, by simp [MachineBackend.activation, MachineBackend.execute, startFault], rfl, id⟩
  · exact ⟨{ s with installation := .current }, by
      simp [MachineBackend.activation, MachineBackend.execute, startFault, run_bind,
        MachineAction.effect], rfl, by simp⟩

theorem run_rollbackStep_nil {label : String} {action : MachineAction} {failures : List String}
    {t : MachineState} (h : action.effect backend.digest none s = some t) :
    (backend.rollbackStep label action failures).run [] s = (.done failures, t, []) := by
  simp [MachineBackend.rollbackStep, MachineBackend.execute, run_bind, run_attempt, h]

/-- A rollback without faults reports the primary failure unmarked. -/
theorem run_failWithRollback_nil (backend : MachineBackend) {before : SystemServiceStatus}
    (profileChanged : Bool) {q : Pointers String} (hq : s.pointers.rollback = some q)
    (hpresent : before.installation ≠ .absent → s.installation ≠ .absent)
    (error : ActionFailure) :
    ∃ t, (backend.failWithRollback before profileChanged error).run [] s =
        (.error error, t, []) ∧ t.pointers = if profileChanged then q else s.pointers := by
  obtain ⟨u, hu, hup, hui⟩ : ∃ u,
      (backend.rollbackProfile profileChanged []).run [] { s with runtime := .stopped } =
        (.done [], u, []) ∧
      u.pointers = (if profileChanged then q else s.pointers) ∧
      u.installation = s.installation := by
    cases profileChanged with
    | true =>
      refine ⟨{ s with runtime := .stopped, pointers := q }, run_rollbackStep_nil ?_, rfl, rfl⟩
      simp [MachineAction.effect, hq]
    | false => exact ⟨_, rfl, rfl, rfl⟩
  obtain ⟨t, ht, htp⟩ : ∃ t, (backend.restoreService before []).run [] u = (.done [], t, []) ∧
      t.pointers = u.pointers := by
    unfold MachineBackend.restoreService
    by_cases habs : before.installation = .absent
    · rw [if_pos habs]
      exact ⟨_, run_rollbackStep_nil rfl, rfl⟩
    rw [if_neg habs]
    by_cases hrunning : before.runtime = .running
    · rw [if_pos hrunning]
      refine ⟨{ u with runtime := .running }, run_rollbackStep_nil ?_, rfl⟩
      simp [MachineAction.effect, hui, hpresent habs]
    · rw [if_neg hrunning]
      exact ⟨u, rfl, rfl⟩
  have hstop : (backend.rollbackStep "stop" .stop []).run [] s =
      (.done [], { s with runtime := .stopped }, []) := run_rollbackStep_nil rfl
  refine ⟨t, ?_, htp.trans hup⟩
  simp [MachineBackend.failWithRollback, MachineBackend.rollbackPublishedProfile, run_bind,
    run_attempt, hstop, hu, ht, MachineBackend.combineRollbackError]

theorem activate_rollback_isSome (p : Pointers String) (generation : String) :
    ∃ q, (p.activate generation).rollback = some q := by
  unfold Pointers.activate
  split
  · next ha => cases hp : p.previous <;> simp [Pointers.rollback, ha, hp]
  · cases hp : p.active.or p.previous <;> simp [Pointers.rollback]

/-- The failed start is reported unmarked, and the profile was rolled back if the
service had not shown it before. -/
theorem start_failure_run (hstart : Startable backend m)
    (hrange : MachineBackend.profileInRange profile = true) :
    ∃ fs t, (backend.publishProfileTransactionWith profile).result fs m =
        (.error (backend.failure .start), t) ∧
      if (backend.status 0 m).activeProfileDigest = some (backend.digest profile) then
        t.pointers = m.pointers.activate (backend.digest profile)
      else (m.pointers.activate (backend.digest profile)).rollback = some t.pointers := by
  obtain ⟨q, hq⟩ := activate_rollback_isSome m.pointers (backend.digest profile)
  have hstopped : ∃ t, (backend.publishStopped (backend.status 0 m) profile).run
        (.none :: startFault m.installation) { m with runtime := .stopped } =
        (.error (backend.failure .start), t, []) ∧
      t.pointers = if decide ((backend.status 0 m).activeProfileDigest ≠
        some (backend.digest profile)) then q
        else m.pointers.activate (backend.digest profile) := by
    let published : MachineState :=
      ⟨m.pointers.activate (backend.digest profile), m.installation, .stopped⟩
    obtain ⟨u, hu, hup, hui⟩ :=
      run_activation_startFault backend hstart.installation_cases published
    have hqu : u.pointers.rollback = some q := by
      rw [hup]
      exact hq
    have hpresent : (backend.status 0 m).installation ≠ .absent → u.installation ≠ .absent := by
      rw [hstart.shows_installation]
      exact hui
    obtain ⟨t, ht, htp⟩ := run_failWithRollback_nil backend (decide
      ((backend.status 0 m).activeProfileDigest ≠ some (backend.digest profile))) hqu hpresent
      (backend.failure .start)
    refine ⟨t, ?_, by rw [htp, hup]⟩
    simp only [MachineBackend.publishStopped, MachineBackend.execute, run_bind, run_attempt,
      run_atomic_none, MachineAction.effect, Option.map_some, complete_ok, run_handle,
      MachineBackend.bringUp, hstart.shows_installation, published] at hu ⊢
    rw [hu]
    exact ht
  obtain ⟨t, ht, htp⟩ := hstopped
  have hprofile : if (backend.status 0 m).activeProfileDigest = some (backend.digest profile) then
        t.pointers = m.pointers.activate (backend.digest profile)
      else (m.pointers.activate (backend.digest profile)).rollback = some t.pointers := by
    split
    · next hd => simpa [hd] using htp
    · next hd => simp [htp, hd, hq]
  rcases hstart.stopped_or_running with hr | hr
  · refine ⟨.none :: .none :: startFault m.installation, t, ?_, hprofile⟩
    simp [MachineBackend.publishProfileTransactionWith, result, hrange, run_bind, hstart.accepted,
      whenever, hstart.shows_runtime, hr, MachineBackend.execute, MachineAction.effect, ht]
  · refine ⟨.none :: startFault m.installation, t, ?_, hprofile⟩
    have hm : { m with runtime := .stopped } = m := by rw [← hr]
    rw [hm] at ht
    simp [MachineBackend.publishProfileTransactionWith, result, hrange, run_bind, hstart.accepted,
      whenever, hstart.shows_runtime, hr, ht]

/-- A failed publish restores the machine, whichever actions fail and whatever
they report, exactly when the service showed the published profile as active if
and only if the store had it active. -/
theorem failure_restores_iff (hstart : Startable backend m)
    (hrange : MachineBackend.profileInRange profile = true) :
    (∀ failure, FailureRestores { backend with failure } profile m) ↔
      ((backend.status 0 m).activeProfileDigest = some (backend.digest profile) ↔
        m.pointers.active = some (backend.digest profile)) := by
  have hany : ∀ failure, Startable { backend with failure } m := fun _ =>
    ⟨hstart.stored, hstart.absent_stopped, hstart.shows_installation, hstart.shows_runtime,
      hstart.accepted⟩
  constructor
  · intro h
    have hunmarked : (ActionFailure.internal "the service did not start").rollback ≠ .failed := by
      decide
    obtain ⟨fs, t, hrun, hprofile⟩ := start_failure_run
      (hany fun _ => .internal "the service did not start") hrange
    have hactive := (h _ fs _ t hrun hunmarked).active
    dsimp only at hprofile
    split at hprofile
    · next hd =>
      rw [hprofile] at hactive
      refine ⟨fun _ => ?_, fun _ => hd⟩
      rw [← hactive]
      unfold Pointers.activate
      split
      · assumption
      · rfl
    · next hd =>
      refine ⟨fun hs => absurd hs hd, fun ha => ?_⟩
      rw [Pointers.activate_of_active ha] at hprofile
      exact absurd hactive (Pointers.rollback_active_ne hstart.stored.consistent hprofile)
  · intro hagree failure
    exact failureRestores_of_agree (hany failure) hagree

/-- A service that is installed but stopped shows no profile digest. -/
def stoppedBackend : MachineBackend where
  digest _ := "published"
  failure _ := .internal "the action failed"
  status _ m := ⟨.openSource, m.installation, m.runtime, .unknown, none, none⟩

/-- The published profile is already active, behind it stands an older one. -/
def stoppedMachine : MachineState where
  pointers := ⟨some "published", some "older"⟩
  installation := .current
  runtime := .stopped

theorem stoppedMachine_startable : Startable stoppedBackend stoppedMachine where
  stored := .activate "published" (.activate "older" .empty)
  absent_stopped := by decide
  shows_installation := rfl
  shows_runtime := rfl
  accepted := rfl

theorem failure_restores_iff_stopped :
    (∀ failure, FailureRestores { stoppedBackend with failure } [1] stoppedMachine) ↔
      ((stoppedBackend.status 0 stoppedMachine).activeProfileDigest =
          some (stoppedBackend.digest [1]) ↔
        stoppedMachine.pointers.active = some (stoppedBackend.digest [1])) :=
  failure_restores_iff stoppedMachine_startable (by decide)

/-- Publishing the profile that is active already, on a stopped service that then
does not start, makes the older profile the active one. -/
theorem stopped_publish_loses_active :
    Startable stoppedBackend stoppedMachine ∧
      MachineBackend.profileInRange [1] = true ∧
      (stoppedBackend.publishProfileTransactionWith [1]).result [.none, .fail 0] stoppedMachine =
        (.error (.internal "the action failed"),
          ⟨⟨some "older", some "published"⟩, .current, .stopped⟩) ∧
      ¬FailureRestores stoppedBackend [1] stoppedMachine := by
  have hrun : (stoppedBackend.publishProfileTransactionWith [1]).result [.none, .fail 0]
      stoppedMachine = (.error (.internal "the action failed"),
        ⟨⟨some "older", some "published"⟩, .current, .stopped⟩) := rfl
  refine ⟨stoppedMachine_startable, by decide, hrun, fun h => ?_⟩
  have hactive := (h _ _ _ hrun (by decide)).active
  exact absurd hactive (by decide)

end MacTypeControl.Integration
