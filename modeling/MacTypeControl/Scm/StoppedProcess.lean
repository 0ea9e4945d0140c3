import MacTypeControl.Scm.StopService

/-!
# What a stop has seen when it returns

In its last round the capture names only the process that it holds open or that is gone. A process
that an earlier round named is only gone if something later in the call says so.
-/

namespace MacTypeControl.Scm

open Calls Call Host Processes Storage

/-! ## Reading the events -/

theorem sighting_named {event : StopEvent} {x : ℕ} : event.sighting = some (.named x) ↔
    ∃ status, event = .reported status ∧ status.processId = x ∧ x ≠ 0 := by
  cases event with
  | reported status =>
    by_cases hzero : status.processId = 0
    · simp only [StopEvent.sighting, hzero, if_true]
      constructor
      · intro h
        cases h
      · rintro ⟨_, hstatus, rfl, hx⟩
        cases hstatus
        exact absurd hzero hx
    · simp only [StopEvent.sighting, hzero, if_false, Option.some.injEq, Sighting.named.injEq]
      constructor
      · rintro rfl
        exact ⟨status, rfl, rfl, hzero⟩
      · rintro ⟨_, hstatus, hx, _⟩
        cases hstatus
        exact hx
  | _ => simp [StopEvent.sighting]

theorem sighting_absent {event : StopEvent} {x : ℕ} :
    event.sighting = some (.absent x) ↔ event = .absent x := by
  cases event with
  | reported status => by_cases hzero : status.processId = 0 <;> simp [StopEvent.sighting, hzero]
  | _ => simp [StopEvent.sighting]

theorem sighting_exited {event : StopEvent} {x : ℕ} :
    event.sighting = some (.exited x) ↔ event = .exited x := by
  cases event with
  | reported status => by_cases hzero : status.processId = 0 <;> simp [StopEvent.sighting, hzero]
  | _ => simp [StopEvent.sighting]

theorem absent_mem_sightings {seen : List StopEvent} {x : ℕ} :
    .absent x ∈ sightings seen ↔ .absent x ∈ seen := by
  unfold sightings
  rw [List.mem_filterMap]
  simp only [sighting_absent, exists_eq_right]

theorem exited_mem_sightings {seen : List StopEvent} {x : ℕ} :
    .exited x ∈ sightings seen ↔ .exited x ∈ seen := by
  unfold sightings
  rw [List.mem_filterMap]
  simp only [sighting_exited, exists_eq_right]

/-- Every process that any status named is accounted for. -/
def AllAccountedFor (seen : List StopEvent) : Prop :=
  ∀ before status after, seen = before ++ .reported status :: after → status.processId ≠ 0 →
    AccountedFor seen status after

theorem settled_sightings {seen : List StopEvent} :
    Settled (sightings seen) ↔ AllAccountedFor seen := by
  rw [settled_iff]
  constructor
  · rintro h before status after hseen hpid
    have hsplit : sightings seen =
        sightings before ++ .named status.processId :: sightings after := by
      rw [hseen]
      simp [sightings, StopEvent.sighting, hpid]
    have hsettled := h _ _ _ hsplit
    rwa [absent_mem_sightings, exited_mem_sightings] at hsettled
  · intro h before x after hsplit
    obtain ⟨before', rest, hseen, rfl, hrest⟩ := List.filterMap_eq_append_iff.1 hsplit
    obtain ⟨skipped, event, after', rfl, hskipped, hevent, rfl⟩ :=
      List.filterMap_eq_cons_iff.1 hrest
    obtain ⟨status, rfl, rfl, hpid⟩ := sighting_named.1 hevent
    have haccounted := h (before' ++ skipped) status after' (by rw [hseen, List.append_assoc]) hpid
    rw [exited_mem_sightings]
    exact haccounted.imp_left absent_mem_sightings.2

theorem stoppedAndGone_iff {seen : List StopEvent} : StoppedAndGone seen ↔
    (∀ status, (statuses seen).getLast? = some status → status.state = .stopped) ∧
      AllAccountedFor seen := by
  unfold StoppedAndGone
  rw [allExited_iff, settled_sightings]

/-! ## The rounds of a stop -/

/-- All rounds so far have been given up. -/
def GivenUp (seen : List StopEvent) : Prop := seen = [] ∨ ∃ before, seen = before ++ [.retried]

/-- The events since the last round that was given up. -/
def Since (p : List StopEvent → Prop) (seen : List StopEvent) : Prop :=
  ∃ base last, GivenUp base ∧ seen = base ++ last ∧ p last

/-- Unless it is stopped, the service is always in the process with the identifier. -/
def RunsAs (pid : ℕ) (last : List StopEvent) : Prop :=
  ∀ status, .reported status ∈ last → status.state ≠ .stopped → status.processId = pid

/-- The round has ended with a status that says stopped, and with all its processes gone. -/
structure EndsStopped (last : List StopEvent) : Prop where
  stopped : ∃ before status after, last = before ++ .reported status :: after ∧
    status.state = .stopped ∧ ∀ other, .reported other ∉ after
  gone : ∀ before status after, last = before ++ .reported status :: after →
    status.state ≠ .stopped → AccountedFor last status after

/-- What the capture ends with. -/
def Captured (captured : Option ℕ) (last : List StopEvent) : Prop :=
  match captured with
  | none => EndsStopped last
  | some pid => RunsAs pid last

/-- The service is in the process with the identifier, and has stopped in the end. -/
def StoppedAs (pid : ℕ) (last : List StopEvent) : Prop :=
  RunsAs pid last ∧ ∃ before status, last = before ++ [.reported status] ∧ status.state = .stopped

theorem Since.mono {p q : List StopEvent → Prop} {seen : List StopEvent} (h : Since p seen)
    {events : List StopEvent} (hpq : ∀ last, p last → q (last ++ events)) :
    Since q (seen ++ events) := by
  obtain ⟨base, last, hbase, rfl, hlast⟩ := h
  exact ⟨base, last ++ events, hbase, List.append_assoc _ _ _, hpq last hlast⟩

theorem GivenUp.since {p : List StopEvent → Prop} {seen events : List StopEvent}
    (h : GivenUp seen) (hp : p events) : Since p (seen ++ events) := ⟨seen, events, h, rfl, hp⟩

theorem EndsStopped.of_stopped {status : ServiceStatus} (h : status.state = .stopped) :
    EndsStopped [.reported status] := by
  refine ⟨⟨[], status, [], rfl, h, fun other => List.not_mem_nil⟩, ?_⟩
  intro before other after hsplit hother
  obtain ⟨rfl, hrest⟩ | ⟨_, rfl, hrest⟩ := List.append_eq_cons_iff.1 hsplit.symm
  · cases hrest
    exact absurd h hother
  · simp at hrest

/-- The process that was named first is gone, and the service has not been in another one since. -/
theorem EndsStopped.of_absent {first last : ServiceStatus} (h : last.state = .stopped) :
    EndsStopped [.reported first, .absent first.processId, .reported last] := by
  refine ⟨⟨[.reported first, .absent first.processId], last, [], rfl, h,
    fun other => List.not_mem_nil⟩, ?_⟩
  intro before other after hsplit hother
  match before with
  | [] =>
    simp only [List.nil_append, List.cons.injEq, StopEvent.reported.injEq] at hsplit
    obtain ⟨rfl, rfl⟩ := hsplit
    exact Or.inl List.mem_cons_self
  | [_] => simp at hsplit
  | [_, _] =>
    simp only [List.cons_append, List.nil_append, List.cons.injEq, StopEvent.reported.injEq]
      at hsplit
    exact absurd (hsplit.2.2.1 ▸ h) hother
  | _ :: _ :: _ :: rest => simp at hsplit

/-- A process that was held open until its exit is accounted for. -/
theorem StoppedAs.ends {pid : ℕ} {last : List StopEvent} (h : StoppedAs pid last) :
    EndsStopped (last ++ [.exited pid]) := by
  obtain ⟨hruns, before, status, rfl, hstopped⟩ := h
  refine ⟨⟨before, status, [.exited pid], by simp, hstopped, by simp⟩, ?_⟩
  intro before' other after hsplit hother
  right
  have hmem : .reported other ∈ before ++ [.reported status] ++ [.exited pid] := by
    rw [hsplit]
    simp
  have hreported : .reported other ∈ before ++ [.reported status] := by simpa using hmem
  rw [hruns other hreported hother]
  simp

/-! ## The answers -/

theorem processCaptureTarget_ok {status : ServiceStatus} {target : ProcessCaptureTarget}
    (h : processCaptureTarget status = .ok target) :
    (status.state = .stopped ∧ target = .alreadyStopped) ∨
      (status.state ≠ .stopped ∧ target = .pid status.processId) := by
  unfold processCaptureTarget at h
  split at h
  · next hstopped =>
    cases h
    exact Or.inl ⟨hstopped, rfl⟩
  · next hstate =>
    split at h
    · cases h
    · cases h
      exact Or.inr ⟨hstate, rfl⟩

theorem observeProcessIdentity_ok {pid : ℕ} {status : ServiceStatus}
    {observation : ProcessIdentityObservation}
    (h : observeProcessIdentity pid status = .ok observation) :
    (status.state = .stopped ∧ observation = .stopped) ∨
      (status.processId = pid ∧ observation = .same) ∨ ∃ other, observation = .changed other := by
  unfold observeProcessIdentity at h
  obtain ⟨target, htarget, h⟩ := bind_eq_ok.1 h
  rcases processCaptureTarget_ok htarget with ⟨hstopped, rfl⟩ | ⟨_, rfl⟩
  · cases h
    exact Or.inl ⟨hstopped, rfl⟩
  · dsimp only at h
    split at h
    · next hsame =>
      cases h
      exact Or.inr (Or.inl ⟨hsame, rfl⟩)
    · cases h
      exact Or.inr (Or.inr ⟨_, rfl⟩)

theorem stoppingProcessIsComplete_ok {pid : ℕ} {status : ServiceStatus} {complete : Bool}
    (h : stoppingProcessIsComplete pid status = .ok complete) :
    (complete = true ∧ status.state = .stopped) ∨ (complete = false ∧ status.processId = pid) := by
  unfold stoppingProcessIsComplete at h
  obtain ⟨observation, hobserve, h⟩ := bind_eq_ok.1 h
  rcases observeProcessIdentity_ok hobserve with ⟨hstopped, rfl⟩ | ⟨hsame, rfl⟩ | ⟨other, rfl⟩
  · cases h
    exact Or.inl ⟨rfl, hstopped⟩
  · cases h
    exact Or.inr ⟨rfl, hsame⟩
  · cases h

section

variable {os : StopAnswers} {s : Stopping}

/-- An error of a stop says nothing. -/
def AnyError : SetupError → Stopping → Prop := fun _ _ => True

theorem wlp_queryStatus {Q : ServiceStatus → Stopping → Prop}
    (h : ∀ status, Q status ⟨s.asked + 1, s.seen ++ [.reported status]⟩) :
    wlp (queryStatus os) Q AnyError s := by
  refine wlp_ask ?_
  cases os.status s.asked with
  | none => trivial
  | some status => exact h status

theorem wlp_openProcess {pid : ℕ} {Q : Except OpenError Unit → Stopping → Prop}
    (hopened : Q (.ok ()) ⟨s.asked + 1, s.seen ++ [.opened pid]⟩)
    (habsent : ∀ error : OpenError, error.rawOsError = some errorInvalidParameter →
      Q (.error error) ⟨s.asked + 1, s.seen ++ [.absent pid]⟩)
    (hother : ∀ error : OpenError, error.rawOsError ≠ some errorInvalidParameter →
      Q (.error error) ⟨s.asked + 1, s.seen⟩) : wlp (openProcess os pid) Q AnyError s := by
  refine wlp_ask ?_
  cases os.openProcess s.asked pid with
  | ok _ => exact hopened
  | error error =>
    by_cases h : error.rawOsError = some errorInvalidParameter
    · simpa only [Meets, if_pos h] using habsent error h
    · simpa only [Meets, if_neg h] using hother error h

theorem wlp_remainingUntil {deadline : ℕ} {Q : ℕ → Stopping → Prop}
    (h : ∀ remaining, Q remaining ⟨s.asked + 1, s.seen⟩) :
    wlp (remainingUntil os deadline) Q AnyError s := wlp_ask (h _)

theorem wlp_waitBeforeProcessCaptureRetry {deadline : ℕ} :
    wlp (waitBeforeProcessCaptureRetry os deadline) (fun _ t => GivenUp t.seen) AnyError s := by
  refine wlp_bind.2 (wlp_remainingUntil fun remaining => ?_)
  split
  · exact wlp_throw trivial
  · exact wlp_ask (Or.inr ⟨_, rfl⟩)

/-- A round of the capture is given up, or it is the last one. -/
theorem wlp_captureRound {deadline : ℕ} (hs : GivenUp s.seen) :
    wlp (captureRound os deadline) (RoundEnds (fun t => GivenUp t.seen)
      fun captured t => Since (Captured captured) t.seen) AnyError s := by
  have hretry (u : Stopping) : wlp (do
      waitBeforeProcessCaptureRetry os deadline
      return none : Call Stopping SetupError (Option (Option ℕ)))
        (RoundEnds (fun t => GivenUp t.seen) fun captured t => Since (Captured captured) t.seen)
        AnyError u :=
    wlp_bind.2 (wlp_mono wlp_waitBeforeProcessCaptureRetry (fun _ _ h => wlp_ret h) fun _ _ h => h)
  unfold captureRound
  refine wlp_bind.2 (wlp_queryStatus fun status => ?_)
  refine wlp_bind.2 (wlp_answered ?_ fun _ _ => trivial)
  intro target htarget
  rcases processCaptureTarget_ok htarget with ⟨hstopped, rfl⟩ | ⟨hrunning, rfl⟩
  · exact wlp_ret (hs.since (EndsStopped.of_stopped hstopped))
  dsimp only
  refine wlp_bind.2 (wlp_openProcess ?_ ?_ ?_)
  · refine wlp_bind.2 (wlp_queryStatus fun again => ?_)
    refine wlp_bind.2 (wlp_answered ?_ fun _ _ => trivial)
    intro observation hobserve
    have hruns (h : again.state = .stopped ∨ again.processId = status.processId) :
        Since (RunsAs status.processId)
          (s.seen ++ [.reported status] ++ [.opened status.processId] ++ [.reported again]) := by
      rw [List.append_assoc, List.append_assoc]
      refine hs.since ?_
      intro other hother hstate
      simp only [List.cons_append, List.nil_append, List.mem_cons, StopEvent.reported.injEq,
        reduceCtorEq, false_or, List.not_mem_nil, or_false] at hother
      rcases hother with rfl | rfl
      · rfl
      · exact h.resolve_left hstate
    rcases observeProcessIdentity_ok hobserve with ⟨hstopped, rfl⟩ | ⟨hsame, rfl⟩ | ⟨other, rfl⟩
    · exact wlp_ret (hruns (Or.inl hstopped))
    · exact wlp_ret (hruns (Or.inr hsame))
    · exact hretry _
  · intro error herror
    dsimp only
    rw [if_pos herror]
    refine wlp_bind.2 (wlp_queryStatus fun again => ?_)
    refine wlp_bind.2 (wlp_answered ?_ fun _ _ => trivial)
    intro observation hobserve
    rcases observeProcessIdentity_ok hobserve with ⟨hstopped, rfl⟩ | ⟨_, rfl⟩ | ⟨other, rfl⟩
    · have hends : Captured none
          [.reported status, .absent status.processId, .reported again] :=
        EndsStopped.of_absent hstopped
      have hseen : s.seen ++ [.reported status] ++ [.absent status.processId] ++
          [.reported again] = s.seen ++
          [.reported status, .absent status.processId, .reported again] := by simp
      refine wlp_ret ?_
      show Since (Captured none) _
      rw [hseen]
      exact hs.since hends
    · exact hretry _
    · exact hretry _
  · intro error herror
    dsimp only
    rw [if_neg herror]
    exact wlp_throw trivial

/-- The service stays in the process until it has stopped. -/
theorem wlp_stoppedRound {pid deadline : ℕ} (hs : Since (RunsAs pid) s.seen) :
    wlp (stoppedRound os pid deadline) (RoundEnds (fun t => Since (RunsAs pid) t.seen)
      fun _ t => Since (StoppedAs pid) t.seen) AnyError s := by
  unfold stoppedRound
  refine wlp_bind.2 (wlp_queryStatus fun status => ?_)
  refine wlp_bind.2 (wlp_answered ?_ fun _ _ => trivial)
  intro complete hcomplete
  have hruns (h : status.state = .stopped ∨ status.processId = pid) (last : List StopEvent)
      (hlast : RunsAs pid last) : RunsAs pid (last ++ [.reported status]) := by
    intro other hother hstate
    rcases List.mem_append.1 hother with hother | hother
    · exact hlast other hother hstate
    · simp only [List.mem_singleton, StopEvent.reported.injEq] at hother
      rw [hother] at hstate ⊢
      exact h.resolve_left hstate
  rcases stoppingProcessIsComplete_ok hcomplete with ⟨rfl, hstopped⟩ | ⟨rfl, hsame⟩
  · refine wlp_ret (hs.mono fun last hlast => ?_)
    exact ⟨hruns (Or.inl hstopped) last hlast, last, status, rfl, hstopped⟩
  · refine wlp_bind.2 (wlp_remainingUntil fun remaining => ?_)
    split
    · exact wlp_throw trivial
    · exact wlp_ret (hs.mono (hruns (Or.inr hsame)))

theorem wlp_waitForProcessExit {pid deadline : ℕ} (hs : Since (StoppedAs pid) s.seen) :
    wlp (waitForProcessExit os pid deadline) (fun _ t => Since EndsStopped t.seen) AnyError s := by
  unfold waitForProcessExit
  refine wlp_bind.2 (wlp_remainingUntil fun remaining => ?_)
  refine wlp_bind.2 (wlp_ask ?_)
  dsimp only
  cases os.wait _ _ with
  | none => trivial
  | some outcome =>
    cases outcome with
    | signaled => exact wlp_ret (hs.mono fun last hlast => hlast.ends)
    | timedOut => exact wlp_throw trivial
    | abandoned => exact wlp_throw trivial

/-- A stop that returns has either found no service, or has ended with it stopped. -/
theorem wlp_stop {fuel : ℕ} : wlp (stop os fuel)
    (fun _ t => t.seen = [] ∨ Since EndsStopped t.seen) AnyError stopStart := by
  unfold stop
  refine wlp_bind.2 (wlp_answered ?_ fun _ _ => trivial)
  intro installed _
  cases installed with
  | false => exact wlp_ret (Or.inl rfl)
  | true =>
    refine wlp_bind.2 (wlp_answered ?_ fun _ _ => trivial)
    intro _ _
    refine wlp_bind.2 (wlp_ask ?_)
    refine wlp_bind.2 (wlp_mono (wlp_loop (fun s => GivenUp s.seen) fuel (Or.inl rfl)
      (fun s hs => wlp_captureRound hs) (Q := fun captured t => Since (Captured captured) t.seen))
      ?_ fun _ _ h => h)
    intro captured t ht
    cases captured with
    | none => exact wlp_ret (Or.inr ht)
    | some pid =>
      have hruns : Since (RunsAs pid) t.seen := ht
      refine wlp_bind.2 (wlp_answered ?_ fun _ _ => trivial)
      intro _ _
      refine wlp_bind.2 (wlp_mono (wlp_loop (fun s => Since (RunsAs pid) s.seen) fuel hruns
        (fun s hs => wlp_stoppedRound hs) (Q := fun _ t => Since (StoppedAs pid) t.seen))
        ?_ fun _ _ h => h)
      intro _ u hu
      exact wlp_mono (wlp_waitForProcessExit hu) (fun _ _ h => Or.inr h) fun _ _ h => h

end

/-! ## The stop that has returned -/

theorem statuses_append (seen seen' : List StopEvent) :
    statuses (seen ++ seen') = statuses seen ++ statuses seen' := List.filterMap_append

theorem statuses_eq_nil {seen : List StopEvent} (h : ∀ status, .reported status ∉ seen) :
    statuses seen = [] := by
  unfold statuses
  rw [List.filterMap_eq_nil_iff]
  intro event hevent
  cases event with
  | reported status => exact absurd hevent (h status)
  | _ => rfl

theorem lastStatus_stopped {seen : List StopEvent} (h : Since EndsStopped seen)
    {status : ServiceStatus} (hlast : (statuses seen).getLast? = some status) :
    status.state = .stopped := by
  obtain ⟨base, last, -, rfl, hends⟩ := h
  obtain ⟨before, final, after, rfl, hstopped, hnone⟩ := hends.stopped
  have hfinal : statuses (.reported final :: after) = [final] := by
    show final :: statuses after = [final]
    rw [statuses_eq_nil hnone]
  rw [statuses_append, statuses_append, hfinal, ← List.append_assoc, List.getLast?_concat] at hlast
  cases hlast
  exact hstopped

/-- The processes of the last round are accounted for. -/
theorem accountedFor_of_last {seen before after : List StopEvent} {status : ServiceStatus}
    (h : Since EndsStopped seen) (hseen : seen = before ++ .reported status :: after)
    (hretried : .retried ∉ after) (hrunning : status.state ≠ .stopped) :
    AccountedFor seen status after := by
  obtain ⟨base, last, hbase, rfl, hends⟩ := h
  have hlater (between : List StopEvent) (hlast : last = between ++ .reported status :: after) :
      AccountedFor (base ++ last) status after := by
    rcases hends.gone _ _ _ hlast hrunning with habsent | hexited
    · exact Or.inl habsent
    · exact Or.inr (List.mem_append_right _ hexited)
  rcases List.append_eq_append_iff.1 hseen with ⟨between, -, hlast⟩ | ⟨between, hbefore, hlast⟩
  · exact hlater between hlast
  · cases between with
    | nil => exact hlater [] hlast.symm
    | cons event between =>
      -- a status of a round that was given up has the retry after it
      simp only [List.cons_append, List.cons.injEq] at hlast
      obtain ⟨rfl, rfl⟩ := hlast
      exfalso
      rcases hbase with hempty | ⟨early, hretry⟩
      · rw [hempty] at hbefore
        simp at hbefore
      · have hend : (before ++ .reported status :: between).getLast? = some .retried := by
          rw [← hbefore, hretry, List.getLast?_concat]
        rw [List.getLast?_append_of_ne_nil _ (List.cons_ne_nil _ _)] at hend
        have hmem := List.mem_of_getLast? hend
        simp only [List.mem_cons, reduceCtorEq, false_or] at hmem
        exact hretried (List.mem_append_left _ hmem)

/-- When a stop returns, the service has stopped and its processes are gone just when the processes
of the rounds that were given up are accounted for. -/
theorem stoppedAndGone_iff_of_stop {os : StopAnswers} {fuel : ℕ} {t : Stopping}
    (h : stop os fuel stopStart = some (.ok (), t)) :
    StoppedAndGone t.seen ↔ RetriesAccountedFor t.seen := by
  rw [stoppedAndGone_iff]
  constructor
  · intro ⟨_, hall⟩ before status after hseen hpid _
    exact hall before status after hseen hpid
  · intro hretries
    have hends := wlp_stop _ h
    rcases hends with hempty | hends
    · refine ⟨fun status hlast => ?_, fun before status after hseen => ?_⟩
      · rw [hempty] at hlast
        cases hlast
      · rw [hempty] at hseen
        simp at hseen
    · refine ⟨fun status => lastStatus_stopped hends, fun before status after hseen hpid => ?_⟩
      by_cases hgiven : .retried ∈ after ∨ status.state = .stopped
      · exact hretries before status after hseen hpid hgiven
      · rw [not_or] at hgiven
        exact accountedFor_of_last hends hseen hgiven.1 hgiven.2

/-- A service that runs in one process and stops when it is asked to. -/
def stopping : StopAnswers where
  openService := .ok true
  ensureOwned := .ok ()
  status moment := some (if moment ≤ 3 then ⟨.running, 41⟩ else ⟨.stopped, 0⟩)
  openProcess _ _ := .ok ()
  now _ := 0
  stop := some ()
  wait _ _ := some .signaled

def stoppingSeen : List StopEvent :=
  [.reported ⟨.running, 41⟩, .opened 41, .reported ⟨.running, 41⟩, .reported ⟨.stopped, 0⟩,
    .exited 41]

theorem stopping_gone : StoppedAndGone stoppingSeen := by
  have hstop : stop stopping 1 stopStart = some (.ok (), ⟨7, stoppingSeen⟩) := rfl
  refine (stoppedAndGone_iff_of_stop hstop).2 ?_
  intro before status after hseen hpid hgiven
  change stoppingSeen = _ at hseen
  have hreported : .reported status ∈ stoppingSeen := by
    rw [hseen]
    simp
  have hretried (h : .retried ∈ after) : .retried ∈ stoppingSeen := by
    rw [hseen]
    simp [h]
  rcases hgiven with hretry | hstopped
  · exact absurd (hretried hretry) (by decide)
  · simp only [stoppingSeen, List.mem_cons, StopEvent.reported.injEq, reduceCtorEq, false_or,
      List.not_mem_nil, or_false] at hreported
    rcases hreported with rfl | rfl | rfl
    · cases hstopped
    · cases hstopped
    · exact absurd rfl hpid

/-- A service that is started again in another process while it is captured, and stops then. -/
def restarting : StopAnswers where
  openService := .ok true
  ensureOwned := .ok ()
  status moment := some (if moment ≤ 1 then ⟨.running, 41⟩ else if moment ≤ 3 then ⟨.running, 42⟩
    else ⟨.stopped, 0⟩)
  openProcess _ _ := .ok ()
  now _ := 0
  stop := some ()
  wait _ _ := some .signaled

/-- The stop returns without having waited for either process. -/
theorem restarting_not_gone : ¬∀ os fuel t, stop os fuel stopStart = some (.ok (), t) →
    StoppedAndGone t.seen := by
  intro h
  have hstop : stop restarting 2 stopStart = some (.ok (), ⟨6, [.reported ⟨.running, 41⟩,
      .opened 41, .reported ⟨.running, 42⟩, .retried, .reported ⟨.stopped, 0⟩]⟩) := by rfl
  have hgone := (stoppedAndGone_iff.1 (h _ _ _ hstop)).2
  have haccounted := hgone [] _ _ rfl (by decide)
  unfold AccountedFor at haccounted
  simp at haccounted

end MacTypeControl.Scm
