import MacTypeControl.Events.EventLog
import MacTypeControl.Host.Health
import Mathlib.Tactic

/-!
# The event log of the service

The logger counts injection results and skips, and writes a summary of them for each window of a
minute. The writer of the log can refuse any entry. Instants are counted in nanoseconds.
-/

namespace MacTypeControl.Host

open Injection Events

def summaryWindow : ℕ := seconds 60

def dedupeWindow : ℕ := seconds (10 * 60)

inductive LiveObserver where
  | etw
  | wmi
  deriving DecidableEq

def LiveObserver.name : LiveObserver → String
  | .etw => "etw"
  | .wmi => "wmi"

/-- An event for the log: one that the orchestrator records, or one of the service. -/
inductive LoggedEvent where
  | orchestrated (event : HostEvent)
  | serviceStarted (version : String)
  | serviceStartSkipped (error : StructuredServiceError)
  | serviceStopped
  | healthChanged (state : HealthState) (error : Option StructuredServiceError)
  | liveObserverSelected (observer : LiveObserver)
  | helperBrokerFailed (architecture : ProcessArchitecture) (code : String)
      (detail : Option (List Char))

/-- What `write` hands to the writer of the log. -/
structure LogEntry where
  severity : EventSeverity
  area : EventArea
  code : String
  params : List (String × String)
  detail : Option (List Char)
  deriving DecidableEq

structure InjectionCounts where
  injected : ℕ
  failed : ℕ
  skipped : ℕ
  deriving DecidableEq

def InjectionCounts.zero : InjectionCounts := ⟨0, 0, 0⟩

/-- Counts by reason. -/
abbrev Tally := List (String × ℕ)

def Tally.bump (reason : String) : Tally → Tally
  | [] => [(reason, 1)]
  | (other, count) :: rest =>
    if other = reason then (other, count + 1) :: rest else (other, count) :: bump reason rest

def Tally.total (tally : Tally) : ℕ := (tally.map Prod.snd).sum

def Tally.count (tally : Tally) (reason : String) : ℕ :=
  ((tally.filter fun entry => entry.1 = reason).map Prod.snd).sum

structure PipelineSamples where
  count : ℕ
  millisSum : ℕ
  millisMax : ℕ
  backlogMax : ℕ
  ageCount : ℕ
  ageSum : ℕ
  ageMax : ℕ
  deriving DecidableEq

namespace PipelineSamples

def empty : PipelineSamples := ⟨0, 0, 0, 0, 0, 0, 0⟩

def saturatingAdd (a b : ℕ) : ℕ := min (a + b) (2 ^ 64 - 1)

def record (samples : PipelineSamples) (millis backlog : ℕ) (ageMillis : Option ℕ) :
    PipelineSamples :=
  let samples := { samples with
    count := samples.count + 1
    millisSum := saturatingAdd samples.millisSum millis
    millisMax := max samples.millisMax millis
    backlogMax := max samples.backlogMax backlog }
  match ageMillis with
  | none => samples
  | some age => { samples with
      ageCount := samples.ageCount + 1
      ageSum := saturatingAdd samples.ageSum age
      ageMax := max samples.ageMax age }

def averageMillis (samples : PipelineSamples) : ℕ := samples.millisSum / samples.count

def averageAgeMillis (samples : PipelineSamples) : ℕ := samples.ageSum / samples.ageCount

end PipelineSamples

structure InjectionSummary where
  windowStart : ℕ
  counts : InjectionCounts
  skipReasons : Tally
  pipeline : PipelineSamples

/-- The keys that were let through, each with the instant. -/
structure EventThrottle where
  entries : List (String × ℕ)

def maxThrottleEntries : ℕ := 256

/-- Lets a key through once in each window. The oldest key makes room for a new one. -/
def EventThrottle.allow (throttle : EventThrottle) (key : String) (now window : ℕ) :
    Bool × EventThrottle :=
  let put (entries : List (String × ℕ)) : EventThrottle :=
    ⟨entries.filter (fun entry => entry.1 ≠ key) ++ [(key, now)]⟩
  match throttle.entries.lookup key with
  | some previous =>
    if now - previous < window then (false, throttle) else (true, put throttle.entries)
  | none =>
    match throttle.entries.argmin Prod.snd with
    | some oldest =>
      if maxThrottleEntries ≤ throttle.entries.length then
        (true, put (throttle.entries.filter fun entry => entry.1 ≠ oldest.1))
      else (true, put throttle.entries)
    | none => (true, put throttle.entries)

/-! ## The texts -/

def number (n : ℕ) : List Char := (toString n).toList

/-- The pipeline numbers, where there are samples. -/
def pipelineDetail (pipeline : PipelineSamples) : List Char :=
  if 0 < pipeline.count then
    "handle_avg_ms=".toList ++ number pipeline.averageMillis ++
      " handle_max_ms=".toList ++ number pipeline.millisMax ++
      (if 0 < pipeline.ageCount then
        " age_avg_ms=".toList ++ number pipeline.averageAgeMillis ++
          " age_max_ms=".toList ++ number pipeline.ageMax
      else []) ++
      " backlog_max=".toList ++ number pipeline.backlogMax ++ " n=".toList ++ number pipeline.count
  else []

/-- The reasons with the most frequent first, and by name where they are as frequent. -/
def Tally.ranked (reasons : Tally) : Tally :=
  reasons.mergeSort fun left right =>
    right.2 < left.2 || (left.2 == right.2 && decide (left.1 ≤ right.1))

def separated (detail separator : List Char) : List Char :=
  if detail.isEmpty then detail else detail ++ separator

/-- The detail of a summary before it is cut. -/
def fullDetail (reasons : Tally) (pipeline : PipelineSamples) (observer : Option LiveObserver) :
    List Char :=
  let detail := pipelineDetail pipeline
  let detail := match observer with
    | none => detail
    | some observer => separated detail [' '] ++ "observer=".toList ++ observer.name.toList
  if reasons.isEmpty then detail
  else separated detail " | ".toList ++ "skip:".toList ++
    reasons.ranked.flatMap fun entry =>
      ' ' :: entry.1.toList ++ '=' :: number entry.2

def ellipsis : List Char := "...".toList

def cutDetail (detail : List Char) : List Char :=
  if maxEventDetailBytes < utf8Length detail then
    startWithin (maxEventDetailBytes - utf8Length ellipsis) detail ++ ellipsis
  else detail

def summaryDetail (reasons : Tally) (pipeline : PipelineSamples) (observer : Option LiveObserver) :
    Option (List Char) :=
  let detail := fullDetail reasons pipeline observer
  if detail.isEmpty then none else some (cutDetail detail)

def outcomeDebug : ProcessOutcome → String
  | .injected => "Injected"
  | .skipped => "Skipped"
  | .deferred => "Deferred"
  | .duplicate => "Duplicate"
  | .rejected => "Rejected"
  | .retryExhausted => "RetryExhausted"
  | .cancelled => "Cancelled"

def diagnosticDetail (record : ProcessAttemptRecord) : List Char :=
  let win32 := match record.win32Error with
    | none => "None"
    | some code => "Some(" ++ toString code ++ ")"
  let detail := "pid=" ++ toString record.identity.pid ++
    " creation_time=" ++ toString record.identity.creationTime ++
    " session_id=" ++ toString record.identity.sessionId ++
    " disposition=" ++ outcomeDebug record.outcome ++
    " attempts=" ++ toString record.attempts ++
    " reason=" ++ record.code ++ " win32=" ++ win32
  sanitizeText detail.toList [] maxEventDetailBytes

/-- A summary that was written, with the counters that it was written from. -/
structure EmittedSummary where
  counts : InjectionCounts
  reasons : Tally
  pipeline : PipelineSamples
  observer : Option LiveObserver

def EmittedSummary.detail (summary : EmittedSummary) : Option (List Char) :=
  summaryDetail summary.reasons summary.pipeline summary.observer

def EmittedSummary.entry (summary : EmittedSummary) : LogEntry where
  severity := .info
  area := .injection
  code := "injection-summary"
  params := [("failed", toString summary.counts.failed),
    ("injected", toString summary.counts.injected), ("skipped", toString summary.counts.skipped)]
  detail := summary.detail

/-! ## The logger -/

/-- The logger, with what it has handed to the writer on record: the entries and summaries that
were appended, and the summaries that the writer refused. -/
structure HostEventLogger where
  writeErrorReported : Bool
  health : Option HealthState
  observer : Option LiveObserver
  summary : InjectionSummary
  injectionThrottle : EventThrottle
  helperThrottle : EventThrottle
  /-- How often the writer was called. -/
  calls : ℕ
  written : List LogEntry
  summaries : List EmittedSummary
  lost : List EmittedSummary
  /-- The lines on standard error. -/
  reported : List String

namespace HostEventLogger

def newAt (now : ℕ) : HostEventLogger where
  writeErrorReported := false
  health := none
  observer := none
  summary := ⟨now, .zero, [], .empty⟩
  injectionThrottle := ⟨[]⟩
  helperThrottle := ⟨[]⟩
  calls := 0
  written := []
  summaries := []
  lost := []
  reported := []

/-- What the writer answers to each of its calls: an append can fail at any of them. -/
abbrev Appends := ℕ → Except String Unit

variable (appends : Appends)

def oneLine (error : String) : String :=
  String.ofList (error.toList.map fun c => if c = '\r' ∨ c = '\n' then ' ' else c)

/-- Hands an entry to the writer. A failure is reported once, and nothing is tried again. -/
def hand (logger : HostEventLogger) (entry : LogEntry) : HostEventLogger :=
  match appends logger.calls with
  | .ok () => { logger with calls := logger.calls + 1, written := logger.written ++ [entry] }
  | .error error =>
    if logger.writeErrorReported then { logger with calls := logger.calls + 1 }
    else { logger with
      calls := logger.calls + 1
      writeErrorReported := true
      reported := logger.reported ++
        ["recording the service event log failed: " ++ oneLine error] }

def write (logger : HostEventLogger) (severity : EventSeverity) (area : EventArea) (code : String)
    (params : List (String × String)) (detail : Option (List Char)) : HostEventLogger :=
  logger.hand appends ⟨severity, area, code, params, detail⟩

/-- Begins a new window, and writes the summary of the old one unless nothing was counted in it.
The counters are taken first, so the summary is lost where the writer refuses it. -/
def flushSummary (logger : HostEventLogger) (now : ℕ) : HostEventLogger :=
  let emitted : EmittedSummary := ⟨logger.summary.counts, logger.summary.skipReasons,
    logger.summary.pipeline, logger.observer⟩
  let logger := { logger with summary := ⟨now, .zero, [], .empty⟩ }
  if emitted.counts = .zero then logger
  else match appends logger.calls with
    | .ok () => { logger.hand appends emitted.entry with
        summaries := logger.summaries ++ [emitted] }
    | .error _ => { logger.hand appends emitted.entry with lost := logger.lost ++ [emitted] }

def flushElapsedSummary (logger : HostEventLogger) (now : ℕ) : HostEventLogger :=
  if summaryWindow ≤ now - logger.summary.windowStart then logger.flushSummary appends now
  else logger

def countSkip (logger : HostEventLogger) (reason : String) : HostEventLogger :=
  { logger with summary := { logger.summary with
      counts := { logger.summary.counts with skipped := logger.summary.counts.skipped + 1 }
      skipReasons := logger.summary.skipReasons.bump reason } }

def injectionSkipped (logger : HostEventLogger) (reason : String) (now : ℕ) : HostEventLogger :=
  (logger.flushElapsedSummary appends now).countSkip reason

def injectionResult (logger : HostEventLogger) (record : ProcessAttemptRecord) (process : String)
    (detail : List Char) (now : ℕ) : HostEventLogger :=
  let logger := logger.flushElapsedSummary appends now
  let counts := logger.summary.counts
  match record.outcome with
  | .injected => { logger with summary := { logger.summary with
      counts := { counts with injected := counts.injected + 1 } } }
  | .skipped => logger.countSkip record.code
  | .rejected | .retryExhausted =>
    let logger := { logger with summary := { logger.summary with
      counts := { counts with failed := counts.failed + 1 } } }
    let (allowed, throttle) := logger.injectionThrottle.allow (process ++ "|" ++ record.code) now
      dedupeWindow
    let logger := { logger with injectionThrottle := throttle }
    if allowed then
      logger.write appends .warning .injection "injection-failed"
        [("process", process), ("reason", record.code)] (some detail)
    else logger
  | .deferred | .duplicate | .cancelled => logger

def healthName : HealthState → String
  | .unknown => "unknown"
  | .initializing => "initializing"
  | .ready => "ready"
  | .degraded => "degraded"
  | .failed => "failed"

def healthChanged (logger : HostEventLogger) (state : HealthState)
    (error : Option StructuredServiceError) : HostEventLogger :=
  if logger.health = some state then logger
  else
    let recovered := state = .ready ∧
      (logger.health = some .degraded ∨ logger.health = some .failed)
    let logger := { logger with health := some state }
    let report (severity : EventSeverity) : HostEventLogger :=
      let params := match error with
        | none => [("state", healthName state)]
        | some error => [("code", error.code), ("message", error.message),
            ("state", healthName state)]
      logger.write appends severity .service "service-health-changed" params none
    match state with
    | .degraded => report .notice
    | .failed => report .error
    | .ready => if recovered then report .info else logger
    | .unknown | .initializing => logger

def helperBrokerFailed (logger : HostEventLogger) (architecture : ProcessArchitecture)
    (code : String) (detail : Option (List Char)) (now : ℕ) : HostEventLogger :=
  let architecture := match architecture with
    | .x86 => "x86"
    | .x64 => "x64"
  let (allowed, throttle) := logger.helperThrottle.allow architecture now dedupeWindow
  let logger := { logger with helperThrottle := throttle }
  if allowed then
    logger.write appends .error .injection "helper-broker-failed"
      [("architecture", architecture), ("code", code)] detail
  else logger

def recordAt (logger : HostEventLogger) (event : LoggedEvent) (now : ℕ) : HostEventLogger :=
  match event with
  | .serviceStarted version =>
    { logger.write appends .info .service "service-started" [("version", version)] none with
      health := some .ready }
  | .serviceStartSkipped error =>
    logger.write appends .info .service "service-start-skipped"
      [("message", error.message), ("reason", error.code)] none
  | .serviceStopped =>
    (logger.flushSummary appends now).write appends .info .service "service-stopped" [] none
  | .healthChanged state error => logger.healthChanged appends state error
  | .orchestrated (.injectionResult record process) =>
    let detail := match record.outcome with
      | .rejected | .retryExhausted => diagnosticDetail record
      | _ => []
    logger.injectionResult appends record process detail now
  | .orchestrated (.injectionSkipped reason) => logger.injectionSkipped appends reason now
  | .orchestrated (.injectionPipelineSample millis backlog ageMillis) =>
    { logger with summary := { logger.summary with
        pipeline := logger.summary.pipeline.record millis backlog ageMillis } }
  | .orchestrated .flushInjectionSummary => logger.flushElapsedSummary appends now
  | .liveObserverSelected observer => { logger with observer := some observer }
  | .helperBrokerFailed architecture code detail =>
    logger.helperBrokerFailed appends architecture code detail now

/-- The events of a run, each with the instant at which it is recorded. -/
def run (logger : HostEventLogger) (events : List (LoggedEvent × ℕ)) : HostEventLogger :=
  events.foldl (fun logger event => logger.recordAt appends event.1 event.2) logger

end HostEventLogger

end MacTypeControl.Host
