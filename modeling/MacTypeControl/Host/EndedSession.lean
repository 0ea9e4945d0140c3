import MacTypeControl.Host.EtwObserver

/-!
# A trace session whose consumer has ended

The owner of a session asks it for one identifier after another while the consumer thread
delivers. A session is dead once the thread has ended and the channel is drained.
-/

namespace MacTypeControl.Host

inductive TraceEvent where
  | traced (record : EventRecord)
  | consumerEnded
  | nextProcessId

/-- One session at work. `reports` has what `nextProcessId` returned, in order. -/
structure TraceRun where
  trace : ProcessStartTrace
  reports : List ProcessStartEvent

namespace TraceRun

def step (run : TraceRun) : TraceEvent → TraceRun
  | .traced record => { run with trace := run.trace.onEventRecord record }
  | .consumerEnded => { run with trace := { run.trace with consumerRunning := false } }
  | .nextProcessId =>
    ⟨run.trace.nextProcessId.2, run.reports ++ [run.trace.nextProcessId.1]⟩

def steps (run : TraceRun) (events : List TraceEvent) : TraceRun := events.foldl step run

def start (number : ℕ) : TraceRun := ⟨.start number, []⟩

end TraceRun

namespace ProcessStartTrace

/-- The consumer has ended and every queued identifier was taken. -/
def Dead (trace : ProcessStartTrace) : Prop :=
  trace.consumerRunning = false ∧ trace.sink.identifiers = []

/-- The owner still holds the sender inside the sink, so the channel only looks quiet. -/
theorem Dead.nextProcessId {trace : ProcessStartTrace} (h : trace.Dead) :
    trace.nextProcessId = (.idle, trace) := by
  have hsenders : trace.senders ≠ 0 := by
    unfold senders
    split <;> omega
  unfold ProcessStartTrace.nextProcessId
  rw [h.2]
  dsimp only
  rw [if_neg hsenders]

theorem Dead.onEventRecord {trace : ProcessStartTrace} (h : trace.Dead) (record : EventRecord) :
    trace.onEventRecord record = trace := by
  unfold ProcessStartTrace.onEventRecord
  simp [h.1]

end ProcessStartTrace

namespace TraceRun

/-- Nothing revives a dead session. -/
theorem dead_step {run : TraceRun} (h : run.trace.Dead) (event : TraceEvent) :
    (run.step event).trace.Dead ∧
      ∀ report ∈ (run.step event).reports, report ∈ run.reports ∨ report = .idle := by
  cases event with
  | traced record =>
    have hsame : (run.step (.traced record)).trace = run.trace := h.onEventRecord record
    rw [hsame]
    exact ⟨h, fun report hreport => Or.inl hreport⟩
  | consumerEnded => exact ⟨⟨rfl, h.2⟩, fun report hreport => Or.inl hreport⟩
  | nextProcessId =>
    have hnext : run.step .nextProcessId = ⟨run.trace, run.reports ++ [.idle]⟩ := by
      unfold step
      rw [h.nextProcessId]
    rw [hnext]
    refine ⟨h, fun report hreport => ?_⟩
    rcases List.mem_append.1 hreport with hbefore | hnow
    · exact Or.inl hbefore
    · exact Or.inr (List.mem_singleton.1 hnow)

theorem dead_steps {run : TraceRun} (h : run.trace.Dead) (events : List TraceEvent) :
    (run.steps events).trace.Dead ∧
      ∀ report ∈ (run.steps events).reports, report ∈ run.reports ∨ report = .idle := by
  induction events generalizing run with
  | nil => exact ⟨h, fun report hreport => Or.inl hreport⟩
  | cons event events ih =>
    obtain ⟨hdead, hfirst⟩ := dead_step h event
    obtain ⟨hstill, hlater⟩ := ih hdead
    refine ⟨hstill, fun report hreport => ?_⟩
    rcases hlater report hreport with hbefore | hidle
    · exact hfirst report hbefore
    · exact Or.inr hidle

/-- From the moment the session is dead, `nextProcessId` reports the end, and no later call of the
run reports that the session is idle. -/
def DeathNoticed (number : ℕ) (events : List TraceEvent) : Prop :=
  ∀ earlier later, events = earlier ++ later →
    let run := (start number).steps earlier
    run.trace.Dead → run.trace.nextProcessId.1 = .ended ∧
      .idle ∉ (TraceRun.steps ⟨run.trace, []⟩ later).reports

def NeverDead (number : ℕ) (events : List TraceEvent) : Prop :=
  ∀ earlier later, events = earlier ++ later → ¬((start number).steps earlier).trace.Dead

/-- A dead session reports that it is idle, at once and for ever, so its death is noticed only in
the runs in which it never dies. -/
theorem deathNoticed_iff (number : ℕ) (events : List TraceEvent) :
    (DeathNoticed number events ↔ NeverDead number events) ∧
      ∀ earlier later, events = earlier ++ later →
        ((start number).steps earlier).trace.Dead →
        ∀ report ∈ (TraceRun.steps ⟨((start number).steps earlier).trace, []⟩ later).reports,
          report = .idle := by
  refine ⟨⟨fun hnoticed earlier later hevents hdead => ?_, fun hnever => ?_⟩, ?_⟩
  · have hended := (hnoticed earlier later hevents hdead).1
    rw [hdead.nextProcessId] at hended
    cases hended
  · intro earlier later hevents run hdead
    exact absurd hdead (hnever earlier later hevents)
  · intro earlier later hevents hdead report hreport
    rcases (@dead_steps ⟨_, []⟩ hdead later).2 report hreport with hbefore | hidle
    · exact absurd hbefore List.not_mem_nil
    · exact hidle

/-- One identifier is delivered and taken, then the consumer ends. -/
theorem dead_session_reports_idle :
    ((start 0).steps [.traced ObserverRun.startRecord, .nextProcessId, .consumerEnded,
        .nextProcessId]).reports = [.started 42, .idle] ∧
      ¬DeathNoticed 0 [.traced ObserverRun.startRecord, .nextProcessId, .consumerEnded,
        .nextProcessId] := by
  have hdead : ((start 0).steps [.traced ObserverRun.startRecord, .nextProcessId,
      .consumerEnded]).trace.Dead := ⟨rfl, rfl⟩
  refine ⟨rfl, fun hnoticed => ?_⟩
  have hended := (hnoticed [.traced ObserverRun.startRecord, .nextProcessId, .consumerEnded]
    [.nextProcessId] rfl hdead).1
  rw [hdead.nextProcessId] at hended
  cases hended

end TraceRun

end MacTypeControl.Host
