import MacTypeControl.Host.HelperLauncher

/-!
# What a launch leaves behind

Every helper that a launch leaves behind is in the job, or has been terminated, or has exited. Only
a helper that could be neither put into the job nor terminated gets lost.
-/

namespace MacTypeControl.Host

open Calls Call Injection

/-- Nothing of the helper has run. -/
def NotResumed (s : Launch) : Prop := ∀ child, s.child = some child → child.resumed = false

/-- The job is closed as the launch returns: no helper has its handle. -/
def Confined (s : Launch) : Prop := ∀ child, s.child = some child →
  child.exited = true ∨ child.terminated = true ∨ (child.inJob = true ∧ .job ∉ child.inherited)

/-- There is a helper, and it has the property. -/
def HelperIs (p : Child → Prop) (s : Launch) : Prop := ∃ child, s.child = some child ∧ p child

def InJob (child : Child) : Prop :=
  child.inJob = true ∧ .job ∉ child.inherited ∧ child.terminated = false

/-- The helper is in the job and has not been started. -/
def Prepared (child : Child) : Prop := InJob child ∧ child.resumed = false

def Started (child : Child) : Prop := InJob child ∧ child.resumed = true

/-- A helper that is stopped for good, or will be when the job is closed. -/
def Held (child : Child) : Prop :=
  child.exited = true ∨ child.terminated = true ∨ (child.inJob = true ∧ .job ∉ child.inherited)

theorem HelperIs.mono {p q : Child → Prop} {s : Launch} (h : HelperIs p s)
    (hpq : ∀ child, p child → q child) : HelperIs q s := by
  obtain ⟨child, hchild, hp⟩ := h
  exact ⟨child, hchild, hpq child hp⟩

theorem HelperIs.confined {s : Launch} (h : HelperIs Held s) : Confined s := by
  obtain ⟨child, hchild, hheld⟩ := h
  intro other hother
  rw [hchild] at hother
  cases hother
  exact hheld

theorem HelperIs.notResumed {s : Launch} (h : HelperIs (·.resumed = false) s) : NotResumed s := by
  obtain ⟨child, hchild, hresumed⟩ := h
  intro other hother
  rw [hchild] at hother
  cases hother
  exact hresumed

/-! ## The questions -/

section

variable {os : LaunchAnswers} {ε α : Type} {s : Launch} {p q : Child → Prop}
  {Q : α → Launch → Prop} {E : ε → Launch → Prop}

theorem wlp_atMoment {answer : ℕ → α} (h : Q (answer s.asked) { s with asked := s.asked + 1 }) :
    wlp (atMoment answer) Q E s := wlp_ask h

/-- A step on the helper takes place, or it fails and leaves the helper as it is. -/
theorem wlp_onChild_answer {answer : Except IoError Unit} {effect : Child → Child}
    (hs : HelperIs p s) (heffect : ∀ child, p child → q (effect child)) :
    wlp (onChild answer effect) (fun _ t => answer.isOk = true ∧ HelperIs q t)
      (fun _ t => answer.isOk = false ∧ HelperIs p t) s := by
  obtain ⟨child, hchild, hp⟩ := hs
  refine wlp_ask ?_
  cases answer with
  | error error => exact ⟨rfl, child, hchild, hp⟩
  | ok _ => exact ⟨rfl, effect child, by simp [hchild], heffect child hp⟩

theorem wlp_onChild {answer : Except IoError Unit} {effect : Child → Child} (hs : HelperIs p s)
    (heffect : ∀ child, p child → q (effect child)) :
    wlp (onChild answer effect) (fun _ => HelperIs q) (fun _ => HelperIs p) s :=
  wlp_mono (wlp_onChild_answer hs heffect) (fun _ _ h => h.2) fun _ _ h => h.2

/-- An exit does not change what holds of the helper. -/
def KeptByExit (p : Child → Prop) : Prop := ∀ child, p child → p { child with exited := true }

theorem wlp_waitFor {duration : ℕ} (hs : HelperIs p s) (hp : KeptByExit p) :
    wlp (waitFor os duration)
      (fun outcome t => HelperIs p t ∧ (outcome = .signaled → HelperIs (·.exited = true) t))
      (fun _ => HelperIs p) s := by
  unfold waitFor
  rw [wlp_bind]
  refine wlp_atMoment ?_
  have hnext : HelperIs p { s with asked := s.asked + 1 } := hs
  cases os.wait s.asked duration with
  | error error => exact wlp_throw hnext
  | ok outcome =>
    cases outcome with
    | timedOut => exact wlp_ret ⟨hnext, fun h => by cases h⟩
    | abandoned => exact wlp_ret ⟨hnext, fun h => by cases h⟩
    | signaled =>
      refine wlp_bind.2 (wlp_mono (wlp_onChild hnext (q := fun child => p child ∧
        child.exited = true) fun child h => ⟨hp child h, rfl⟩) ?_ fun _ _ h => h)
      intro _ t ht
      exact wlp_ret ⟨ht.mono fun _ h => h.1, fun _ => ht.mono fun _ h => h.2⟩

/-- Waiting for the end of the helper does nothing else to it. -/
theorem wlp_confirmTerminated {fuel deadline : ℕ} (hs : HelperIs p s) (hp : KeptByExit p) :
    wlp (confirmTerminated os fuel deadline) (fun _ => HelperIs p) (fun _ => HelperIs p) s := by
  refine wlp_loop (HelperIs p) fuel hs ?_
  intro s hs
  rw [wlp_bind]
  refine wlp_atMoment ?_
  have hnext : HelperIs p { s with asked := s.asked + 1 } := hs
  dsimp only
  split
  · exact wlp_throw hnext
  · refine wlp_bind.2 (wlp_mono (wlp_waitFor hnext hp) ?_ fun _ _ h => h)
    intro outcome t ⟨ht, _⟩
    cases outcome with
    | signaled => exact wlp_ret ht
    | timedOut => exact wlp_ret ht
    | abandoned => exact wlp_throw ht

/-- A helper of the job is held through any cleanup, whether it succeeds or not. -/
theorem wlp_cleanup {stage : HelperLaunchStage} {fuel deadline : ℕ} {cause : IoError}
    {Q : α → Launch → Prop} (hs : HelperIs q s) (hq : KeptByExit q)
    (hterminated : ∀ child, q child →
      q { child with terminated := child.terminated || child.inJob }) :
    wlp (do
      mapError (.new stage) (jobTerminate os)
      mapError (.new stage) (confirmTerminated os fuel deadline)
      throw (.new stage cause) : Call Launch HelperLaunchError α) Q
      (fun error t => error.stage = stage ∧ HelperIs q t) s := by
  refine wlp_bind.2 (wlp_mapError (wlp_mono (wlp_onChild hs hterminated) ?_ ?_))
  · intro _ t ht
    refine wlp_bind.2 (wlp_mapError (wlp_mono (wlp_confirmTerminated ht hq) ?_ ?_))
    · intro _ u hu
      exact wlp_throw ⟨rfl, hu⟩
    · intro error u hu
      exact ⟨rfl, hu⟩
  · intro error t ht
    exact ⟨rfl, ht⟩

/-- The wait ends with a helper that has exited by itself, or with an error after which the helper
is still held. -/
theorem wlp_waitRound {fuel deadline executionDeadline : ℕ} (hs : HelperIs Started s) :
    wlp (waitRound os fuel deadline executionDeadline)
      (fun ended t => HelperIs Started t ∧ (ended = some () → HelperIs (·.exited = true) t))
      (fun error t => error.stage = .afterResume ∧ HelperIs Held t) s := by
  have hheld (t : Launch) (ht : HelperIs Started t) : HelperIs Held t :=
    ht.mono fun child h => Or.inr (Or.inr ⟨h.1.1, h.1.2.1⟩)
  have hexit : KeptByExit Held := fun child _ => Or.inl rfl
  have hterminated : ∀ child, Held child →
      Held { child with terminated := child.terminated || child.inJob } := by
    intro child h
    rcases h with h | h | h
    · exact Or.inl h
    · exact Or.inr (Or.inl (by simp [h]))
    · exact Or.inr (Or.inr h)
  unfold waitRound
  refine wlp_bind.2 (wlp_atMoment ?_)
  split
  · refine wlp_bind.2 (wlp_atMoment ?_)
    exact wlp_cleanup (hheld _ hs) hexit hterminated
  · refine wlp_bind.2 (wlp_atMoment ?_)
    dsimp only
    split
    · exact wlp_cleanup (hheld _ hs) hexit hterminated
    · have hnext : HelperIs Started { s with asked := s.asked + 1 + 1 } := hs
      refine wlp_bind.2 (wlp_mapError (wlp_mono (wlp_waitFor hnext fun child h => h) ?_ ?_))
      · intro outcome t ⟨ht, hexited⟩
        cases outcome with
        | signaled => exact wlp_ret ⟨ht, fun _ => hexited rfl⟩
        | timedOut => exact wlp_ret ⟨ht, fun h => by cases h⟩
        | abandoned => exact wlp_throw ⟨rfl, hheld t ht⟩
      · intro error t ht
        exact ⟨rfl, hheld t ht⟩

/-- The helper of a launch that has returned has exited by itself. -/
def ExitedByItself (s : Launch) : Prop :=
  HelperIs (fun child => child.resumed = true ∧ child.exited = true ∧ child.terminated = false) s

theorem HelperIs.both {p q : Child → Prop} {s : Launch} (hp : HelperIs p s) (hq : HelperIs q s) :
    HelperIs (fun child => p child ∧ q child) s := by
  obtain ⟨child, hchild, hpchild⟩ := hp
  obtain ⟨other, hother, hqother⟩ := hq
  rw [hchild] at hother
  cases hother
  exact ⟨child, hchild, hpchild, hqother⟩

theorem wlp_waitForHelper {fuel deadline timeout : ℕ} (hs : HelperIs Started s) :
    wlp (waitForHelper os fuel deadline timeout) (fun _ => ExitedByItself)
      (fun error t => error.stage = .afterResume ∧ HelperIs Held t) s := by
  unfold waitForHelper
  refine wlp_bind.2 (wlp_mono (wlp_loop (HelperIs Started) fuel hs ?_ (Q := fun _ => ExitedByItself))
    ?_ fun _ _ h => h)
  · intro s hs
    refine wlp_mono (wlp_waitRound hs) ?_ fun _ _ h => h
    intro ended t ⟨ht, hexited⟩
    cases ended with
    | none => exact ht
    | some _ => exact (ht.both (hexited rfl)).mono fun child h => ⟨h.1.2, h.2, h.1.1.2.2⟩
  intro _ t ht
  have hheld : HelperIs Held t := ht.mono fun child h => Or.inl h.2.1
  refine wlp_bind.2 (wlp_mapError (wlp_answered ?_ fun error _ => ⟨rfl, hheld⟩))
  intro exitCode _
  refine wlp_bind.2 (wlp_mapError (wlp_answered ?_ fun error _ => ⟨rfl, hheld⟩))
  intro stdout _
  exact wlp_ret ht

/-- An error that comes with a helper that is held, and not started unless it says so. -/
def HeldError (error : HelperLaunchError) (t : Launch) : Prop :=
  HelperIs Held t ∧ (error.stage = .beforeResume → HelperIs (·.resumed = false) t)

theorem wlp_startAssigned {fuel deadline : ℕ} {invocation : HelperInvocation}
    (hs : HelperIs Prepared s) :
    wlp (startAssigned os fuel deadline invocation) (fun _ => ExitedByItself) HeldError s := by
  have hcleanup (t : Launch) (ht : HelperIs Prepared t) (cause : IoError) :
      wlp (do
        beforeResume (jobTerminate os)
        beforeResume (confirmTerminated os fuel deadline)
        throw (.new .beforeResume cause) : Call Launch HelperLaunchError HelperOutput)
        (fun _ => ExitedByItself) HeldError t := by
    refine wlp_mono (wlp_cleanup (q := fun child => Held child ∧ child.resumed = false)
      (ht.mono fun child h => ⟨Or.inr (Or.inr ⟨h.1.1, h.1.2.1⟩), h.2⟩)
      (fun child h => ⟨Or.inl rfl, h.2⟩) ?_) (fun _ _ h => h) ?_
    · intro child ⟨hheld, hresumed⟩
      refine ⟨?_, hresumed⟩
      rcases hheld with h | h | h
      · exact Or.inl h
      · exact Or.inr (Or.inl (by simp [h]))
      · exact Or.inr (Or.inr h)
    · intro error u ⟨_, hu⟩
      exact ⟨hu.mono fun _ h => h.1, fun _ => hu.mono fun _ h => h.2⟩
  unfold startAssigned
  refine wlp_bind.2 (wlp_atMoment ?_)
  have hnext : HelperIs Prepared { s with asked := s.asked + 1 } := hs
  split
  · exact hcleanup _ hnext _
  · refine wlp_bind.2 (wlp_attempt (wlp_mono (wlp_onChild hnext (q := Started)
      fun child h => ⟨h.1, rfl⟩) ?_ ?_))
    · intro _ t ht
      refine wlp_mono (wlp_waitForHelper ht) (fun _ _ h => h) ?_
      intro error u ⟨hstage, hu⟩
      exact ⟨hu, fun h => by rw [hstage] at h; cases h⟩
    · intro error t ht
      exact hcleanup t ht error

/-- A helper that has only been created. -/
def Created (child : Child) : Prop :=
  child = ⟨inheritedHandles, false, false, false, false⟩

/-- The helper can be neither put into the job nor terminated. -/
def Unmanageable (os : LaunchAnswers) : Prop :=
  os.assign.isOk = false ∧ os.terminateProcess.isOk = false

theorem wlp_startCreated {fuel deadline : ℕ} {invocation : HelperInvocation}
    (hs : HelperIs Created s) (hmanageable : ¬Unmanageable os) :
    wlp (startCreated os fuel deadline invocation) (fun _ => ExitedByItself) HeldError s := by
  have hprepared : ∀ child, Created child → Prepared { child with inJob := true } := by
    rintro child rfl
    exact ⟨⟨rfl, by decide, rfl⟩, rfl⟩
  unfold startCreated
  refine wlp_bind.2 (wlp_attempt (wlp_mono (wlp_onChild_answer hs hprepared) ?_ ?_))
  · intro _ t ⟨_, ht⟩
    exact wlp_startAssigned ht
  · intro cause t ⟨hassign, ht⟩
    have hunstarted : ∀ child, Created child → child.resumed = false := by
      rintro child rfl
      rfl
    refine wlp_bind.2 (wlp_mapError (wlp_bind.2 (wlp_mono (wlp_onChild_answer ht
      (q := fun child => child.terminated = true ∧ child.resumed = false)
      fun child h => ⟨rfl, hunstarted child h⟩) ?_ ?_)))
    · intro _ u ⟨_, hu⟩
      have hheld (v : Launch) (error : HelperLaunchError)
          (hv : HelperIs (fun child => child.terminated = true ∧ child.resumed = false) v) :
          HeldError error v :=
        ⟨hv.mono fun child h => Or.inr (Or.inl h.1), fun _ => hv.mono fun child h => h.2⟩
      refine wlp_mono (wlp_confirmTerminated hu fun child h => h) ?_ ?_
      · intro _ v hv
        exact wlp_throw (hheld v _ hv)
      · intro error v hv
        exact hheld v _ hv
    · intro error u ⟨hterminate, _⟩
      exact absurd ⟨hassign, hterminate⟩ hmanageable

end

/-! ## The whole launch -/

/-- The launch gets as far as the creation of a helper with these handles. -/
structure Creates (os : LaunchAnswers) (invocation : HelperInvocation) (handles : CreatedHandles) :
    Prop where
  notStopped : os.stopRequested 0 = false
  job : os.singleProcessKillOnClose = .ok ()
  creationTime : os.creationTime = .ok invocation.target.creationTime
  pipe : os.anonymousPipe = .ok ()
  nullDevice : os.nullDevice = .ok ()
  notStoppedLater : os.stopRequested 2 = false
  created : ∃ processHandle, os.openTarget = .ok processHandle ∧
    os.createProcess invocation.executable
      (invocation.argumentsForProcessHandle processHandle) = .ok handles

/-- A helper is created, and one of its handles is invalid or it is unmanageable. -/
def LosesHelper (os : LaunchAnswers) (invocation : HelperInvocation) : Prop :=
  ∃ handles, Creates os invocation handles ∧
    (handles.process.isOk = false ∨ handles.thread.isOk = false ∨ Unmanageable os)

def launchStart : Launch := ⟨0, none⟩

/-- However the system answers: an error from before the resume means that nothing of the helper
has run, only a helper that has exited by itself is returned from, and no helper is left behind. -/
def ConfinesHelper (os : LaunchAnswers) (invocation : HelperInvocation) : Prop :=
  ∀ fuel result s, launchProcess os fuel invocation launchStart = some (result, s) →
    (∀ error, result = .error error → error.stage = .beforeResume → NotResumed s) ∧
      (∀ output, result = .ok output → ExitedByItself s) ∧ Confined s

/-- The end of a launch that has created no helper, or holds it. -/
def GoodError (error : HelperLaunchError) (s : Launch) : Prop := s.child = none ∨ HeldError error s

theorem GoodError.confines {error : HelperLaunchError} {s : Launch} (h : GoodError error s) :
    (error.stage = .beforeResume → NotResumed s) ∧ Confined s := by
  rcases h with hnone | ⟨hheld, hresumed⟩
  · constructor
    · intro _ child hchild
      rw [hnone] at hchild
      cases hchild
    · intro child hchild
      rw [hnone] at hchild
      cases hchild
  · exact ⟨fun hstage => (hresumed hstage).notResumed, hheld.confined⟩

theorem wlp_launchProcess {os : LaunchAnswers} {invocation : HelperInvocation}
    (hkept : ¬LosesHelper os invocation) (fuel : ℕ) :
    wlp (launchProcess os fuel invocation) (fun _ => ExitedByItself) GoodError launchStart := by
  unfold launchProcess
  refine wlp_bind.2 (wlp_atMoment ?_)
  split
  · exact wlp_throw (Or.inl rfl)
  next hnotStopped =>
  refine wlp_bind.2 (wlp_atMoment ?_)
  refine wlp_bind.2 (wlp_mapError (wlp_answered ?_ fun _ _ => Or.inl rfl))
  intro _ hjob
  refine wlp_bind.2 (wlp_mapError (wlp_answered ?_ fun _ _ => Or.inl rfl))
  intro processHandle htarget
  refine wlp_bind.2 (wlp_mapError (wlp_answered ?_ fun _ _ => Or.inl rfl))
  intro creationTime htime
  split
  · exact wlp_throw (Or.inl rfl)
  next hsameTime =>
  refine wlp_bind.2 (wlp_mapError (wlp_answered ?_ fun _ _ => Or.inl rfl))
  intro _ hpipe
  refine wlp_bind.2 (wlp_mapError (wlp_answered ?_ fun _ _ => Or.inl rfl))
  intro _ hnull
  refine wlp_bind.2 (wlp_atMoment ?_)
  split
  · exact wlp_throw (Or.inl rfl)
  next hnotStoppedLater =>
  refine wlp_bind.2 (wlp_mapError (wlp_bind.2 (wlp_ask ?_)))
  cases hcreate : os.createProcess invocation.executable
    (invocation.argumentsForProcessHandle processHandle) with
  | error error => exact Or.inl rfl
  | ok handles =>
    have hcreates : Creates os invocation handles := by
      refine ⟨Bool.eq_false_iff.2 hnotStopped, hjob, ?_, hpipe, hnull,
        Bool.eq_false_iff.2 hnotStoppedLater, processHandle, htarget, hcreate⟩
      rw [htime, not_not.1 hsameTime]
    have hgood : ¬(handles.process.isOk = false ∨ handles.thread.isOk = false ∨ Unmanageable os) :=
      fun h => hkept ⟨handles, hcreates, h⟩
    simp only [not_or, Bool.not_eq_false] at hgood
    obtain ⟨hprocess, hthread, hmanageable⟩ := hgood
    refine wlp_bind.2 (wlp_answered ?_ ?_)
    · intro _ _
      refine wlp_answered ?_ ?_
      · intro _ _
        refine wlp_mono (wlp_startCreated ⟨_, rfl, rfl⟩ hmanageable) (fun _ _ h => h) ?_
        exact fun _ _ h => Or.inr h
      · intro error herror
        rw [herror] at hthread
        cases hthread
    · intro error herror
      rw [herror] at hprocess
      cases hprocess

/-- The start of a launch up to the creation of the helper. -/
theorem launchProcess_of_creates {os : LaunchAnswers} {invocation : HelperInvocation}
    {handles : CreatedHandles} (h : Creates os invocation handles) (fuel : ℕ) :
    launchProcess os fuel invocation launchStart =
      (do
        beforeResume (do
          answered handles.process
          answered handles.thread)
        startCreated os fuel (os.now 1 + invocation.timeout) invocation :
          Call Launch HelperLaunchError HelperOutput)
        ⟨3, some ⟨inheritedHandles, false, false, false, false⟩⟩ := by
  obtain ⟨processHandle, htarget, hcreated⟩ := h.created
  simp [launchProcess, launchStart, bind, andThen, atMoment, ask, beforeResume, mapError, answered,
    createSuspended, Except.mapError, h.notStopped, h.job, h.creationTime, h.pipe, h.nullDevice, h.notStoppedLater,
    htarget, hcreated]

theorem error_of_isOk {ε α : Type} {x : Except ε α} (h : x.isOk = false) : ∃ e, x = .error e := by
  cases x with
  | error e => exact ⟨e, rfl⟩
  | ok a => cases h

/-- A lost helper is left suspended outside of the job. -/
theorem launchProcess_loses {os : LaunchAnswers} {invocation : HelperInvocation}
    (h : LosesHelper os invocation) (fuel : ℕ) :
    ∃ error, launchProcess os fuel invocation launchStart =
      some (.error error, ⟨3, some ⟨inheritedHandles, false, false, false, false⟩⟩) := by
  obtain ⟨handles, hcreates, hlost⟩ := h
  rw [launchProcess_of_creates hcreates]
  cases hprocess : handles.process with
  | error cause =>
    refine ⟨.new .beforeResume cause, ?_⟩
    simp [bind, andThen, beforeResume, mapError, answered, Except.mapError]
  | ok _ =>
    cases hthread : handles.thread with
    | error cause =>
      refine ⟨.new .beforeResume cause, ?_⟩
      simp [bind, andThen, beforeResume, mapError, answered, Except.mapError]
    | ok _ =>
      have hunmanageable : Unmanageable os := by
        rcases hlost with h | h | h
        · rw [hprocess] at h
          cases h
        · rw [hthread] at h
          cases h
        · exact h
      obtain ⟨assignError, hassign⟩ := error_of_isOk hunmanageable.1
      obtain ⟨cause, hterminate⟩ := error_of_isOk hunmanageable.2
      refine ⟨.new .beforeResume cause, ?_⟩
      simp [bind, andThen, beforeResume, mapError, answered, ask, Except.mapError, startCreated,
        attempt, onChild, terminateUnassignedChild, hassign, hterminate]

/-- A launch confines its helper in every case but one: a helper with an invalid handle, or one that
can be neither put into the job nor terminated. -/
theorem confinesHelper_iff (os : LaunchAnswers) (invocation : HelperInvocation) :
    ConfinesHelper os invocation ↔ ¬LosesHelper os invocation := by
  constructor
  · intro hconfines hlost
    obtain ⟨error, hlaunch⟩ := launchProcess_loses hlost 0
    have hconfined := (hconfines 0 _ _ hlaunch).2.2 _ rfl
    simp at hconfined
  · intro hkept fuel result s hlaunch
    have hends := wlp_launchProcess hkept fuel _ hlaunch
    cases result with
    | error error =>
      have hgood := GoodError.confines hends
      refine ⟨?_, ?_, hgood.2⟩
      · intro other hother
        cases hother
        exact hgood.1
      · intro output houtput
        cases houtput
    | ok output =>
      have hexited : ExitedByItself s := hends
      refine ⟨?_, fun _ _ => hexited, ?_⟩
      · intro error herror
        cases herror
      · exact HelperIs.confined (hexited.mono fun child h => Or.inl h.2.1)

/-- A system that refuses both the assignment of the helper to its job and its termination. -/
def refusing : LaunchAnswers where
  stopRequested _ := false
  now moment := moment
  wait _ _ := .ok .timedOut
  singleProcessKillOnClose := .ok ()
  openTarget := .ok 420
  creationTime := .ok 133
  anonymousPipe := .ok ()
  nullDevice := .ok ()
  createProcess _ _ := .ok ⟨.ok (), .ok ()⟩
  assign := .error ⟨.other, some 5⟩
  resumeThread := .ok ()
  terminateProcess := .error ⟨.other, some 5⟩
  terminateJob := .ok ()
  exitCode := .ok 0
  output := .ok []

def refusedInvocation : HelperInvocation where
  executable := ["mactype-injector64.exe"]
  target := ⟨41, 133, 1, .x64, false⟩
  generationId := "generation"
  timeout := helperTimeout

/-- The helper stays behind, suspended, and the error is one from before the resume. -/
theorem refused_helper_left : ¬ConfinesHelper refusing refusedInvocation := by
  intro h
  have hlaunch : launchProcess refusing 0 refusedInvocation launchStart =
      some (.error ⟨.beforeResume, .other, some 5⟩,
        ⟨3, some ⟨inheritedHandles, false, false, false, false⟩⟩) := rfl
  have hconfined := (h 0 _ _ hlaunch).2.2 _ rfl
  simp at hconfined

/-! ## An interrupted launch -/

/-- An error other than an interruption. -/
def Uninterrupted (x : Except IoError α) : Prop := ∀ error, x = .error error → error.kind ≠ .interrupted

/-- No question of a launch up to the resume is interrupted by the system. -/
structure LaunchAnswers.Uninterrupted (os : LaunchAnswers) : Prop where
  wait : ∀ moment duration, Host.Uninterrupted (os.wait moment duration)
  singleProcessKillOnClose : Host.Uninterrupted os.singleProcessKillOnClose
  openTarget : Host.Uninterrupted os.openTarget
  creationTime : Host.Uninterrupted os.creationTime
  anonymousPipe : Host.Uninterrupted os.anonymousPipe
  nullDevice : Host.Uninterrupted os.nullDevice
  createProcess : ∀ executable arguments,
    Host.Uninterrupted (os.createProcess executable arguments)
  process : ∀ executable arguments handles, os.createProcess executable arguments = .ok handles →
    Host.Uninterrupted handles.process
  thread : ∀ executable arguments handles, os.createProcess executable arguments = .ok handles →
    Host.Uninterrupted handles.thread
  assign : Host.Uninterrupted os.assign
  resumeThread : Host.Uninterrupted os.resumeThread
  terminateProcess : Host.Uninterrupted os.terminateProcess
  terminateJob : Host.Uninterrupted os.terminateJob

/-- A question that the launch has asked was answered by a stop. -/
def StopAnswered (os : LaunchAnswers) (s : Launch) : Prop :=
  ∃ moment < s.asked, os.stopRequested moment = true

/-- An interruption from before the resume goes back to a stop. -/
def Founded (os : LaunchAnswers) (error : HelperLaunchError) (s : Launch) : Prop :=
  error.stage = .beforeResume → error.kind = .interrupted → StopAnswered os s

section

variable {n fuel deadline : ℕ} {invocation : HelperInvocation}

theorem founded_of_afterResume {error : HelperLaunchError} (h : error.stage = .afterResume) :
    Founded os error s := by
  intro hstage
  rw [h] at hstage
  cases hstage

theorem founded_of_uninterrupted {error : HelperLaunchError} (h : error.kind ≠ .interrupted) :
    Founded os error s :=
  fun _ hinterrupted => absurd hinterrupted h

theorem wlp_onChild_asked {answer : Except IoError Unit} {effect : Child → Child}
    (hanswer : Uninterrupted answer) (hn : n ≤ s.asked) :
    wlp (onChild answer effect) (fun _ t => n ≤ t.asked)
      (fun error _ => error.kind ≠ .interrupted) s := by
  refine wlp_ask ?_
  cases answer with
  | error error => exact hanswer error rfl
  | ok _ => exact hn

theorem wlp_waitFor_asked {duration : ℕ} (hos : os.Uninterrupted) (hn : n ≤ s.asked) :
    wlp (waitFor os duration) (fun _ t => n ≤ t.asked)
      (fun error _ => error.kind ≠ .interrupted) s := by
  unfold waitFor
  rw [wlp_bind]
  refine wlp_atMoment ?_
  have hnext : n ≤ s.asked + 1 := by omega
  cases houtcome : os.wait s.asked duration with
  | error error => exact wlp_throw (hos.wait _ _ error houtcome)
  | ok outcome =>
    cases outcome with
    | timedOut => exact wlp_ret hnext
    | abandoned => exact wlp_ret hnext
    | signaled =>
      have hsignaled : Uninterrupted (.ok () : Except IoError Unit) := by
        rintro _ ⟨⟩
      refine wlp_bind.2 (wlp_mono (wlp_onChild_asked hsignaled hnext) ?_ fun _ _ h => h)
      intro _ t ht
      exact wlp_ret ht

theorem wlp_confirmTerminated_asked (hos : os.Uninterrupted) (hn : n ≤ s.asked) :
    wlp (confirmTerminated os fuel deadline) (fun _ t => n ≤ t.asked)
      (fun error _ => error.kind ≠ .interrupted) s := by
  refine wlp_loop (fun t => n ≤ t.asked) fuel hn ?_
  intro s hs
  rw [wlp_bind]
  refine wlp_atMoment ?_
  have hnext : n ≤ s.asked + 1 := by omega
  dsimp only
  split
  · exact wlp_throw (by decide)
  · refine wlp_bind.2 (wlp_mono (wlp_waitFor_asked hos hnext) ?_ fun _ _ h => h)
    intro outcome t ht
    cases outcome with
    | signaled => exact wlp_ret ht
    | timedOut => exact wlp_ret ht
    | abandoned => exact wlp_throw (by decide)

/-- What a cleanup before the resume ends with: an error of its own, or its cause. -/
theorem wlp_cleanup_founded {cause : IoError} (hos : os.Uninterrupted)
    (hcause : cause.kind = .interrupted → StopAnswered os s) :
    wlp (do
      beforeResume (jobTerminate os)
      beforeResume (confirmTerminated os fuel deadline)
      throw (.new .beforeResume cause) : Call Launch HelperLaunchError α) (fun _ _ => True)
      (Founded os) s := by
  refine wlp_bind.2 (wlp_mapError (wlp_mono (wlp_onChild_asked hos.terminateJob le_rfl) ?_ ?_))
  · intro _ t ht
    refine wlp_bind.2 (wlp_mapError (wlp_mono (wlp_confirmTerminated_asked hos ht) ?_ ?_))
    · intro _ u hu
      refine wlp_throw fun _ hinterrupted => ?_
      obtain ⟨moment, hmoment, hstopped⟩ := hcause hinterrupted
      exact ⟨moment, by omega, hstopped⟩
    · exact fun error u hu => founded_of_uninterrupted hu
  · exact fun error t ht => founded_of_uninterrupted ht

theorem wlp_afterResume {m : Call Launch IoError α} :
    wlp (afterResume m) (fun _ _ => True) (fun error _ => error.stage = .afterResume) s := by
  apply wlp_mapError
  intro ended hended
  obtain ⟨result, t⟩ := ended
  cases result with
  | error error => rfl
  | ok a => trivial

theorem wlp_cleanup_afterResume {cause : IoError} :
    wlp (do
      afterResume (jobTerminate os)
      afterResume (confirmTerminated os fuel deadline)
      throw (.new .afterResume cause) : Call Launch HelperLaunchError (Option Unit))
      (RoundEnds (fun _ => True) fun _ _ => True) (fun error _ => error.stage = .afterResume) s := by
  refine wlp_bind.2 (wlp_mono wlp_afterResume (fun _ _ _ => ?_) fun _ _ h => h)
  exact wlp_bind.2 (wlp_mono wlp_afterResume (fun _ _ _ => wlp_throw rfl) fun _ _ h => h)

theorem wlp_waitRound_afterResume {executionDeadline : ℕ} :
    wlp (waitRound os fuel deadline executionDeadline) (RoundEnds (fun _ => True) fun _ _ => True)
      (fun error _ => error.stage = .afterResume) s := by
  unfold waitRound
  refine wlp_bind.2 (wlp_atMoment ?_)
  split
  · exact wlp_bind.2 (wlp_atMoment wlp_cleanup_afterResume)
  · refine wlp_bind.2 (wlp_atMoment ?_)
    dsimp only
    split
    · exact wlp_cleanup_afterResume
    · refine wlp_bind.2 (wlp_mono wlp_afterResume (fun outcome _ _ => ?_) fun _ _ h => h)
      cases outcome with
      | signaled => exact wlp_ret trivial
      | timedOut => exact wlp_ret trivial
      | abandoned => exact wlp_throw rfl

/-- Once the helper runs, every error says that it does. -/
theorem wlp_waitForHelper_afterResume {timeout : ℕ} :
    wlp (waitForHelper os fuel deadline timeout) (fun _ _ => True)
      (fun error _ => error.stage = .afterResume) s := by
  unfold waitForHelper
  refine wlp_bind.2 (wlp_mono (wlp_loop (fun _ => True) fuel trivial
    (fun _ _ => wlp_waitRound_afterResume) (Q := fun _ _ => True)) ?_ fun _ _ h => h)
  intro _ _ _
  refine wlp_bind.2 (wlp_mono wlp_afterResume (fun _ _ _ => ?_) fun _ _ h => h)
  exact wlp_bind.2 (wlp_mono wlp_afterResume (fun _ _ _ => wlp_ret trivial) fun _ _ h => h)

theorem wlp_startAssigned_founded (hos : os.Uninterrupted) :
    wlp (startAssigned os fuel deadline invocation) (fun _ _ => True) (Founded os) s := by
  unfold startAssigned
  refine wlp_bind.2 (wlp_atMoment ?_)
  split
  · next hstopped => exact wlp_cleanup_founded hos fun _ => ⟨s.asked, by simp, hstopped⟩
  · refine wlp_bind.2 (wlp_attempt (wlp_mono (wlp_onChild_asked hos.resumeThread le_rfl) ?_ ?_))
    · intro _ t _
      exact wlp_mono wlp_waitForHelper_afterResume (fun _ _ h => h)
        fun _ _ h => founded_of_afterResume h
    · intro error t herror
      exact wlp_cleanup_founded hos fun hinterrupted => absurd hinterrupted herror

theorem wlp_startCreated_founded (hos : os.Uninterrupted) :
    wlp (startCreated os fuel deadline invocation) (fun _ _ => True) (Founded os) s := by
  unfold startCreated
  refine wlp_bind.2 (wlp_attempt (wlp_mono (wlp_onChild_asked hos.assign le_rfl) ?_ ?_))
  · intro _ t _
    exact wlp_startAssigned_founded hos
  · intro cause t hcause
    refine wlp_bind.2 (wlp_mapError (wlp_bind.2 (wlp_mono
      (wlp_onChild_asked hos.terminateProcess le_rfl) ?_ ?_)))
    · intro _ u hu
      refine wlp_mono (wlp_confirmTerminated_asked hos hu) ?_
        fun _ _ h => founded_of_uninterrupted h
      exact fun _ _ _ => wlp_throw (founded_of_uninterrupted hcause)
    · exact fun _ _ h => founded_of_uninterrupted h

/-- A launch that was interrupted before the resume has been told of a stop. -/
theorem wlp_launchProcess_founded (hos : os.Uninterrupted) :
    wlp (launchProcess os fuel invocation) (fun _ _ => True) (Founded os) launchStart := by
  have hanswered : ∀ {α : Type} {x : Except IoError α} {s : Launch}, Uninterrupted x →
      ∀ {f : α → Call Launch HelperLaunchError HelperOutput},
      (∀ a, wlp (f a) (fun _ _ => True) (Founded os) s) →
        wlp (beforeResume (answered x) >>= f) (fun _ _ => True) (Founded os) s := by
    intro α x s hx f hf
    exact wlp_bind.2 (wlp_mapError (wlp_answered (fun a _ => hf a)
      fun error herror => founded_of_uninterrupted (hx error herror)))
  unfold launchProcess
  refine wlp_bind.2 (wlp_atMoment ?_)
  split
  · next hstopped => exact wlp_throw fun _ _ => ⟨0, by simp, hstopped⟩
  refine wlp_bind.2 (wlp_atMoment ?_)
  refine hanswered hos.singleProcessKillOnClose fun _ => ?_
  refine hanswered hos.openTarget fun processHandle => ?_
  refine hanswered hos.creationTime fun creationTime => ?_
  split
  · exact wlp_throw (founded_of_uninterrupted (by decide))
  refine hanswered hos.anonymousPipe fun _ => ?_
  refine hanswered hos.nullDevice fun _ => ?_
  refine wlp_bind.2 (wlp_atMoment ?_)
  split
  · next hstopped => exact wlp_throw fun _ _ => ⟨2, by simp [launchStart], hstopped⟩
  refine wlp_bind.2 (wlp_mapError (wlp_bind.2 (wlp_ask ?_)))
  cases hcreate : os.createProcess invocation.executable
    (invocation.argumentsForProcessHandle processHandle) with
  | error error => exact founded_of_uninterrupted (hos.createProcess _ _ error hcreate)
  | ok handles =>
    refine wlp_bind.2 (wlp_answered (fun _ _ => ?_) ?_)
    · refine wlp_answered (fun _ _ => wlp_startCreated_founded hos) ?_
      exact fun error herror => founded_of_uninterrupted (hos.thread _ _ handles hcreate error herror)
    · exact fun error herror =>
        founded_of_uninterrupted (hos.process _ _ handles hcreate error herror)

end

end MacTypeControl.Host
