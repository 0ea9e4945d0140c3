import MacTypeControl.Host.Health

/-!
# The trace session behind the observer

The observer owns at most one trace session. The consumer thread of a session fills a bounded
channel that the observer reads, and `subscribe` decides whether the session is kept.
-/

namespace MacTypeControl.Host

open Injection

/-- A record of the trace. `payload` is `none` where the record carries no user data. -/
structure EventRecord where
  isProcessStart : Bool
  payload : Option (List UInt8)

/-- The identifier is the first little-endian word of the payload, and never zero. -/
def decodeProcessStartId : List UInt8 → Option ℕ
  | b₀ :: b₁ :: b₂ :: b₃ :: _ =>
    let pid := b₀.toNat + 2 ^ 8 * b₁.toNat + 2 ^ 16 * b₂.toNat + 2 ^ 24 * b₃.toNat
    if pid = 0 then none else some pid
  | _ => none

def pendingProcessIdCapacity : ℕ := 4096

structure TraceSink where
  identifiers : List ℕ
  overflowed : Bool

/-- A started session. `number` counts the sessions started before it. -/
structure ProcessStartTrace where
  number : ℕ
  sink : TraceSink
  consumerRunning : Bool

inductive ProcessStartEvent where
  | started (pid : ℕ)
  | idle
  | ended

namespace ProcessStartTrace

def start (number : ℕ) : ProcessStartTrace := ⟨number, ⟨[], false⟩, true⟩

/-- The references to the sink, and with it to the sender of the channel: the owner holds one,
and the consumer thread one while it runs. -/
def senders (trace : ProcessStartTrace) : ℕ := if trace.consumerRunning then 2 else 1

def droppedProcessIds (trace : ProcessStartTrace) : Bool := trace.sink.overflowed

def nextProcessId (trace : ProcessStartTrace) : ProcessStartEvent × ProcessStartTrace :=
  match trace.sink.identifiers with
  | pid :: identifiers => (.started pid, { trace with sink := { trace.sink with identifiers } })
  | [] => (if trace.senders = 0 then .ended else .idle, trace)

/-- The callback of the consumer thread. -/
def onEventRecord (trace : ProcessStartTrace) (record : EventRecord) : ProcessStartTrace :=
  if !trace.consumerRunning || !record.isProcessStart then trace
  else match record.payload.bind decodeProcessStartId with
    | none => trace
    | some pid =>
      if trace.sink.identifiers.length < pendingProcessIdCapacity then
        { trace with sink :=
          { trace.sink with identifiers := trace.sink.identifiers ++ [pid] } }
      else { trace with sink := { trace.sink with overflowed := true } }

end ProcessStartTrace

/-- The observer. `started` counts the sessions that were started. -/
structure EtwProcessEventSource where
  session : Option ProcessStartTrace
  started : ℕ

namespace EtwProcessEventSource

/-- Opens a session, unless the system refuses to start it. -/
def openSession (source : EtwProcessEventSource) (refused : Option OsError) :
    Except StructuredServiceError Unit × EtwProcessEventSource :=
  match refused with
  | some error => (.error ⟨"etw-session-unavailable",
      "a real-time process trace session could not be started", error.rawOsError⟩, source)
  | none => (.ok (), ⟨some (.start source.started), source.started + 1⟩)

def subscribe (source : EtwProcessEventSource) (refused : Option OsError) :
    Except StructuredServiceError Unit × EtwProcessEventSource :=
  if source.session.any (!·.droppedProcessIds) then (.ok (), source)
  else { source with session := none }.openSession refused

def nextPid (source : EtwProcessEventSource) :
    Except StructuredServiceError (Option ℕ) × EtwProcessEventSource :=
  match source.session with
  | none => (.error ⟨"etw-not-subscribed", "the ETW process observer was not subscribed", none⟩,
      source)
  | some trace =>
    if trace.droppedProcessIds then
      (.error ⟨"etw-observer-overflow",
        "the ETW process observer dropped process identifiers while the driver was busy", none⟩,
        source)
    else match trace.nextProcessId with
      | (.started pid, trace) => (.ok (some pid), { source with session := some trace })
      | (.idle, trace) => (.ok none, { source with session := some trace })
      | (.ended, trace) => (.error ⟨"etw-observer-stopped",
          "the ETW process observer stopped delivering events", none⟩,
          { source with session := some trace })

end EtwProcessEventSource

inductive ObserverEvent where
  | traced (record : EventRecord)
  | consumerEnded
  | nextPid
  | subscribe (refused : Option OsError)

/-- The observer at work. `erred` has, for each error of `nextPid`, how many sessions had been
started by then. -/
structure ObserverRun where
  source : EtwProcessEventSource
  erred : List ℕ

namespace ObserverRun

def withSession (run : ObserverRun) (session : Option ProcessStartTrace) : ObserverRun :=
  { run with source := { run.source with session } }

def step (run : ObserverRun) : ObserverEvent → ObserverRun
  | .traced record => run.withSession (run.source.session.map (·.onEventRecord record))
  | .consumerEnded =>
    run.withSession (run.source.session.map fun trace => { trace with consumerRunning := false })
  | .nextPid =>
    match run.source.nextPid with
    | (.ok _, source) => { run with source }
    | (.error _, source) => ⟨source, run.source.started :: run.erred⟩
  | .subscribe refused => { run with source := (run.source.subscribe refused).2 }

def steps (run : ObserverRun) (events : List ObserverEvent) : ObserverRun :=
  events.foldl step run

/-- The observer as `EtwProcessEventSource::start` makes it, with its first session. -/
def start : ObserverRun := ⟨⟨some (.start 0), 1⟩, []⟩

/-! ## Sessions and errors -/

/-- The session that the observer holds is the last one that was started, and one that has
dropped nothing was started after every error. -/
structure Sound (run : ObserverRun) : Prop where
  erred : ∀ n ∈ run.erred, n ≤ run.source.started
  session : ∀ trace, run.source.session = some trace → trace.number < run.source.started ∧
    (trace.droppedProcessIds = false → ∀ n ∈ run.erred, n ≤ trace.number)

theorem sound_start : Sound start where
  erred n hn := absurd hn List.not_mem_nil
  session trace htrace := by
    cases htrace
    exact ⟨Nat.zero_lt_one, fun _ n hn => absurd hn List.not_mem_nil⟩

/-- A session that is changed in place keeps its number, and what it dropped stays dropped. -/
theorem Sound.change {run : ObserverRun} (h : Sound run) {f : ProcessStartTrace → ProcessStartTrace}
    (hnumber : ∀ trace, (f trace).number = trace.number)
    (hdropped : ∀ trace, trace.droppedProcessIds = true → (f trace).droppedProcessIds = true) :
    Sound (run.withSession (run.source.session.map f)) where
  erred := h.erred
  session trace htrace := by
    obtain ⟨before, hbefore, rfl⟩ := Option.map_eq_some_iff.1 htrace
    obtain ⟨hstarted, hafter⟩ := h.session before hbefore
    rw [hnumber]
    refine ⟨hstarted, fun hkept => hafter ?_⟩
    rw [← Bool.not_eq_true]
    intro hlost
    rw [hdropped before hlost] at hkept
    cases hkept

theorem number_onEventRecord (trace : ProcessStartTrace) (record : EventRecord) :
    (trace.onEventRecord record).number = trace.number := by
  unfold ProcessStartTrace.onEventRecord
  split
  · rfl
  · split
    · rfl
    · split <;> rfl

theorem dropped_onEventRecord (trace : ProcessStartTrace) (record : EventRecord)
    (h : trace.droppedProcessIds = true) :
    (trace.onEventRecord record).droppedProcessIds = true := by
  unfold ProcessStartTrace.onEventRecord
  split
  · exact h
  · split
    · exact h
    · split
      · exact h
      · rfl

/-- The owner of a session holds a sender itself, so its channel never disconnects. -/
theorem nextProcessId_ne_ended (trace : ProcessStartTrace) :
    trace.nextProcessId.1 ≠ .ended := by
  have hsenders : trace.senders ≠ 0 := by
    unfold ProcessStartTrace.senders
    split <;> omega
  unfold ProcessStartTrace.nextProcessId
  split
  · simp
  · simp [hsenders]

/-- `nextPid` fails only without a session, or with one that has dropped something. -/
theorem nextPid_cases (source : EtwProcessEventSource) :
    (∃ error, source.nextPid = (.error error, source) ∧
      ∀ trace, source.session = some trace → trace.droppedProcessIds = true) ∨
    ∃ pid trace trace', source.nextPid = (.ok pid, { source with session := some trace' }) ∧
      source.session = some trace ∧ trace'.number = trace.number ∧
      trace'.droppedProcessIds = trace.droppedProcessIds := by
  unfold EtwProcessEventSource.nextPid
  cases hsession : source.session with
  | none => exact Or.inl ⟨_, rfl, fun trace h => by cases h⟩
  | some trace =>
    dsimp only
    by_cases hdropped : trace.droppedProcessIds = true
    · left
      rw [if_pos hdropped]
      refine ⟨_, rfl, fun trace' h => ?_⟩
      cases h
      exact hdropped
    · right
      rw [if_neg hdropped]
      have hnever := nextProcessId_ne_ended trace
      unfold ProcessStartTrace.nextProcessId at hnever ⊢
      cases hidentifiers : trace.sink.identifiers with
      | cons pid identifiers => exact ⟨_, trace, _, rfl, rfl, rfl, rfl⟩
      | nil =>
        rw [hidentifiers] at hnever
        dsimp only at hnever ⊢
        by_cases hsenders : trace.senders = 0
        · rw [if_pos hsenders] at hnever
          exact absurd rfl hnever
        · rw [if_neg hsenders]
          exact ⟨_, trace, trace, rfl, rfl, rfl, rfl⟩

theorem Sound.nextPid {run : ObserverRun} (h : Sound run) : Sound (run.step .nextPid) := by
  unfold step
  rcases nextPid_cases run.source with
    ⟨error, hnext, hdropped⟩ | ⟨pid, trace, trace', hnext, hsession, hnumber, hsame⟩
  · rw [hnext]
    refine ⟨?_, fun trace htrace => ⟨(h.session trace htrace).1, fun hkept => ?_⟩⟩
    · intro n hn
      rcases List.mem_cons.1 hn with rfl | hn
      · exact le_refl _
      · exact h.erred n hn
    · rw [hdropped trace htrace] at hkept
      cases hkept
  · rw [hnext]
    refine ⟨h.erred, fun now hnow => ?_⟩
    cases hnow
    obtain ⟨hstarted, hafter⟩ := h.session trace hsession
    rw [hnumber, hsame]
    exact ⟨hstarted, hafter⟩

/-- `subscribe` keeps the session, opens the next one, or is left without one. -/
theorem subscribe_cases (source : EtwProcessEventSource) (refused : Option OsError) :
    (∃ trace, source.session = some trace ∧ trace.droppedProcessIds = false ∧
      source.subscribe refused = (.ok (), source)) ∨
    (source.session.any (!·.droppedProcessIds) = false ∧
      ((∃ error, source.subscribe refused = (.error error, { source with session := none })) ∨
        source.subscribe refused =
          (.ok (), ⟨some (.start source.started), source.started + 1⟩))) := by
  unfold EtwProcessEventSource.subscribe
  by_cases hkept : source.session.any (!·.droppedProcessIds) = true
  · left
    rw [if_pos hkept]
    obtain ⟨trace, hsession, hlive⟩ := (Option.any_eq_true _ _).1 hkept
    exact ⟨trace, hsession, by simpa using hlive, rfl⟩
  · right
    refine ⟨by simpa using hkept, ?_⟩
    rw [if_neg hkept]
    cases refused with
    | some error => exact Or.inl ⟨_, rfl⟩
    | none => exact Or.inr rfl

theorem Sound.subscribe {run : ObserverRun} (h : Sound run) (refused : Option OsError) :
    Sound (run.step (.subscribe refused)) := by
  dsimp only [step]
  rcases subscribe_cases run.source refused with
    ⟨trace, -, -, hkept⟩ | ⟨-, ⟨error, hrefused⟩ | hopened⟩
  · rw [hkept]
    exact h
  · rw [hrefused]
    exact ⟨h.erred, fun trace htrace => by cases htrace⟩
  · rw [hopened]
    refine ⟨fun n hn => le_trans (h.erred n hn) (Nat.le_succ _), fun trace htrace => ?_⟩
    cases htrace
    exact ⟨Nat.lt_succ_self _, fun _ => h.erred⟩

theorem Sound.step {run : ObserverRun} (h : Sound run) (event : ObserverEvent) :
    Sound (run.step event) := by
  cases event with
  | traced record =>
    exact h.change (number_onEventRecord · record) (dropped_onEventRecord · record)
  | consumerEnded => exact h.change (fun _ => rfl) (fun _ h => h)
  | nextPid => exact h.nextPid
  | subscribe refused => exact h.subscribe refused

theorem Sound.steps {run : ObserverRun} (h : Sound run) (events : List ObserverEvent) :
    Sound (run.steps events) := by
  induction events generalizing run with
  | nil => exact h
  | cons event events ih => exact ih (h.step event)

/-! ## What a subscription leaves -/

/-- The observer holds a session whose consumer runs, started after every error. -/
def BoundLive (run : ObserverRun) : Prop :=
  ∃ trace, run.source.session = some trace ∧ trace.consumerRunning = true ∧
    ∀ n ∈ run.erred, n ≤ trace.number

/-- The observer holds a session that dropped nothing and whose consumer has ended. -/
def HoldsEnded (source : EtwProcessEventSource) : Prop :=
  ∃ trace, source.session = some trace ∧ trace.droppedProcessIds = false ∧
    trace.consumerRunning = false

theorem Sound.boundLive_subscribe_iff {run : ObserverRun} (h : Sound run) (refused : Option OsError) :
    ((run.source.subscribe refused).1 = .ok () → BoundLive (run.step (.subscribe refused))) ↔
      ¬HoldsEnded run.source := by
  have hstep : run.step (.subscribe refused) =
      { run with source := (run.source.subscribe refused).2 } := rfl
  rw [hstep]
  rcases subscribe_cases run.source refused with
    ⟨trace, hsession, hkept, hsubscribed⟩ | ⟨hlost, hopened⟩
  · -- The session is kept, so it is live exactly where its consumer runs.
    rw [hsubscribed]
    constructor
    · rintro hlive ⟨ended, hended, -, hstopped⟩
      obtain ⟨trace', htrace', hrunning, -⟩ := hlive rfl
      have hsame : trace' = ended := Option.some.inj (htrace'.symm.trans hended)
      rw [hsame, hstopped] at hrunning
      cases hrunning
    · intro hnot _
      have hrunning : trace.consumerRunning = true := by
        rw [← Bool.not_eq_false]
        exact fun hstopped => hnot ⟨trace, hsession, hkept, hstopped⟩
      exact ⟨trace, hsession, hrunning, (h.session trace hsession).2 hkept⟩
  · have hnot : ¬HoldsEnded run.source := by
      rintro ⟨trace, hsession, hkept, -⟩
      rw [hsession] at hlost
      simp [hkept] at hlost
    refine iff_of_true ?_ hnot
    rcases hopened with ⟨error, hrefused⟩ | hfresh
    · intro hok
      rw [hrefused] at hok
      cases hok
    · intro _
      rw [hfresh]
      exact ⟨.start run.source.started, rfl, rfl, h.erred⟩

/-- After an error of `nextPid`, a subscription leaves the observer with a session that runs and
that was started after the error, exactly where it does not find one whose consumer has ended
without dropping anything. -/
theorem subscribe_live_iff (events : List ObserverEvent) (refused : Option OsError) :
    let run := start.steps events
    (run.erred ≠ [] → (run.source.subscribe refused).1 = .ok () →
        BoundLive (run.step (.subscribe refused))) ↔
      run.erred = [] ∨ ¬HoldsEnded run.source := by
  intro run
  have hsound : Sound run := sound_start.steps events
  rw [← hsound.boundLive_subscribe_iff refused]
  by_cases herred : run.erred = []
  · simp [herred]
  · simp [herred]

/-! ## A session that is kept after it ended -/

def startRecord : EventRecord := ⟨true, some [42, 0, 0, 0]⟩

theorem onEventRecord_startRecord (number : ℕ) (identifiers : List ℕ) (overflowed : Bool) :
    (ProcessStartTrace.mk number ⟨identifiers, overflowed⟩ true).onEventRecord startRecord =
      if identifiers.length < pendingProcessIdCapacity then
        ⟨number, ⟨identifiers ++ [42], overflowed⟩, true⟩
      else ⟨number, ⟨identifiers, true⟩, true⟩ := by
  have hdecoded : startRecord.payload.bind decodeProcessStartId = some 42 := by decide
  unfold ProcessStartTrace.onEventRecord
  rw [hdecoded]
  rfl

theorem steps_startRecord (n : ℕ) (h : n ≤ pendingProcessIdCapacity) :
    start.steps (List.replicate n (.traced startRecord)) =
      ⟨⟨some ⟨0, ⟨List.replicate n 42, false⟩, true⟩, 1⟩, []⟩ := by
  induction n with
  | zero => rfl
  | succ n ih =>
    have hroom : (List.replicate n 42).length < pendingProcessIdCapacity := by
      rw [List.length_replicate]
      omega
    unfold steps at ih ⊢
    rw [List.replicate_succ', List.foldl_append, ih (by omega), List.replicate_succ']
    simp only [List.foldl_cons, List.foldl_nil, step, withSession, Option.map_some]
    rw [onEventRecord_startRecord, if_pos hroom]

/-- The channel overflows, the observer is told so and subscribes again; then the new consumer
ends, and the next subscription keeps its session. -/
theorem ended_session_is_kept :
    let run := start.steps (List.replicate pendingProcessIdCapacity (.traced startRecord) ++
      [.traced startRecord, .nextPid, .subscribe none, .consumerEnded])
    run.erred ≠ [] ∧ (run.source.subscribe none).1 = .ok () ∧
      ¬BoundLive (run.step (.subscribe none)) := by
  have hfull := steps_startRecord pendingProcessIdCapacity (le_refl _)
  have hrun : start.steps
      (List.replicate pendingProcessIdCapacity (.traced startRecord) ++
        [.traced startRecord, .nextPid, .subscribe none, .consumerEnded]) =
      ⟨⟨some ⟨1, ⟨[], false⟩, false⟩, 2⟩, [1]⟩ := by
    have hover : ¬(List.replicate pendingProcessIdCapacity 42).length < pendingProcessIdCapacity := by
      rw [List.length_replicate]
      omega
    unfold steps at hfull ⊢
    rw [List.foldl_append, hfull, List.foldl_cons]
    generalize List.replicate pendingProcessIdCapacity 42 = identifiers at hover
    simp only [step, withSession, Option.map_some]
    rw [onEventRecord_startRecord, if_neg hover]
    rfl
  rw [hrun]
  refine ⟨by simp, rfl, ?_⟩
  rintro ⟨trace, htrace, hrunning, -⟩
  cases htrace
  cases hrunning

end ObserverRun

end MacTypeControl.Host
