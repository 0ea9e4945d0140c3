import MacTypeControl.Host.EventLogger

/-!
# The accounts of the summaries

Every counted result is in one summary or is still pending, under every order of the events. A
summary that the writer of the log refuses takes its counts with it.
-/

namespace MacTypeControl.Host

open Injection Events

inductive CountedClass where
  | injected
  | failed
  | skipped
  deriving DecidableEq

def InjectionCounts.of (counts : InjectionCounts) : CountedClass → ℕ
  | .injected => counts.injected
  | .failed => counts.failed
  | .skipped => counts.skipped

/-- The class in which an event is a result. -/
def LoggedEvent.class? : LoggedEvent → Option CountedClass
  | .orchestrated (.injectionResult record _) =>
    match record.outcome with
    | .injected => some .injected
    | .skipped => some .skipped
    | .rejected | .retryExhausted => some .failed
    | .deferred | .duplicate | .cancelled => none
  | .orchestrated (.injectionSkipped _) => some .skipped
  | _ => none

/-- The reason for which an event is a skip. -/
def LoggedEvent.skipReason? : LoggedEvent → Option String
  | .orchestrated (.injectionResult record _) =>
    if record.outcome = .skipped then some record.code else none
  | .orchestrated (.injectionSkipped reason) => some reason
  | _ => none

/-! ## Tallies -/

theorem total_bump (reason : String) (tally : Tally) :
    (tally.bump reason).total = tally.total + 1 := by
  induction tally with
  | nil => rfl
  | cons entry rest ih =>
    obtain ⟨other, count⟩ := entry
    unfold Tally.bump
    by_cases hsame : other = reason
    · rw [if_pos hsame]
      simp only [Tally.total, List.map_cons, List.sum_cons]
      omega
    · rw [if_neg hsame]
      simp only [Tally.total, List.map_cons, List.sum_cons] at ih ⊢
      omega

theorem count_bump (reason asked : String) (tally : Tally) :
    (tally.bump reason).count asked = tally.count asked + if reason = asked then 1 else 0 := by
  induction tally with
  | nil =>
    by_cases hasked : reason = asked
    · simp [Tally.bump, Tally.count, hasked]
    · simp [Tally.bump, Tally.count, hasked]
  | cons entry rest ih =>
    obtain ⟨other, count⟩ := entry
    unfold Tally.bump
    by_cases hsame : other = reason
    · rw [if_pos hsame]
      by_cases hasked : reason = asked
      · simp only [Tally.count, hsame, hasked, List.filter_cons, decide_true, if_true,
          List.map_cons, List.sum_cons]
        omega
      · simp [Tally.count, hsame, hasked]
    · rw [if_neg hsame]
      by_cases hasked : other = asked
      · simp only [Tally.count, hasked, List.filter_cons, decide_true, if_true, List.map_cons,
          List.sum_cons] at ih ⊢
        omega
      · simpa [Tally.count, hasked] using ih

theorem count_le_total (reason : String) (tally : Tally) : tally.count reason ≤ tally.total :=
  (List.filter_sublist.map Prod.snd).sum_le_sum fun _ _ => Nat.zero_le _

/-! ## Details -/

theorem utf8Length_cutDetail (detail : List Char) :
    utf8Length (cutDetail detail) ≤ maxEventDetailBytes := by
  unfold cutDetail
  by_cases hlong : maxEventDetailBytes < utf8Length detail
  · have hstart := utf8Length_startWithin (maxEventDetailBytes - utf8Length ellipsis) detail
    have hellipsis : utf8Length ellipsis ≤ maxEventDetailBytes := by decide
    rw [if_pos hlong, utf8Length_append]
    omega
  · rw [if_neg hlong]
    omega

theorem startWithin_isPrefix (room : ℕ) (text : List Char) : startWithin room text <+: text := by
  induction text generalizing room with
  | nil => exact List.nil_prefix
  | cons c rest ih =>
    unfold startWithin
    by_cases hroom : c.utf8Size ≤ room
    · rw [if_pos hroom]
      exact (List.prefix_cons_inj c).2 (ih _)
    · rw [if_neg hroom]
      exact List.nil_prefix

/-- A detail is whole, or it is a start of the whole one with an ellipsis. -/
structure WellCut (detail full : List Char) : Prop where
  length : utf8Length detail ≤ maxEventDetailBytes
  boundary : detail = full ∨ ∃ start, start <+: full ∧ detail = start ++ ellipsis

theorem wellCut_cutDetail (full : List Char) : WellCut (cutDetail full) full := by
  refine ⟨utf8Length_cutDetail full, ?_⟩
  unfold cutDetail
  by_cases hlong : maxEventDetailBytes < utf8Length full
  · rw [if_pos hlong]
    exact Or.inr ⟨_, startWithin_isPrefix _ full, rfl⟩
  · rw [if_neg hlong]
    exact Or.inl rfl

theorem EmittedSummary.wellCut (summary : EmittedSummary) :
    ∀ detail ∈ summary.detail,
      WellCut detail (fullDetail summary.reasons summary.pipeline summary.observer) := by
  intro detail hdetail
  unfold EmittedSummary.detail summaryDetail at hdetail
  dsimp only at hdetail
  split at hdetail
  · cases hdetail
  · rw [← Option.some.inj hdetail]
    exact wellCut_cutDetail _

/-! ## The invariant -/

/-- The summary that would be taken now. -/
def HostEventLogger.pending (logger : HostEventLogger) : EmittedSummary :=
  ⟨logger.summary.counts, logger.summary.skipReasons, logger.summary.pipeline, logger.observer⟩

/-- The counters of a logger after the events of its history. -/
structure Conserved (appends : HostEventLogger.Appends) (logger : HostEventLogger)
    (history : List LoggedEvent) : Prop where
  counts : ∀ kind, (logger.summaries.map (·.counts.of kind)).sum +
    (logger.lost.map (·.counts.of kind)).sum + logger.summary.counts.of kind =
      history.countP (·.class? = some kind)
  reasons : ∀ reason, (logger.summaries.map (·.reasons.count reason)).sum +
    (logger.lost.map (·.reasons.count reason)).sum + logger.summary.skipReasons.count reason =
      history.countP (·.skipReason? = some reason)
  pendingTotal : logger.summary.skipReasons.total = logger.summary.counts.skipped
  takenTotal : ∀ summary ∈ logger.summaries ++ logger.lost,
    summary.reasons.total = summary.counts.skipped
  entries : logger.written.filter (·.code = "injection-summary") =
    logger.summaries.map EmittedSummary.entry
  /-- Each lost summary is one append that failed. -/
  lost : logger.lost.length ≤
    (List.range logger.calls).countP fun call => (appends call).toOption.isNone

namespace Conserved

variable {appends : HostEventLogger.Appends} {logger other : HostEventLogger}
  {history : List LoggedEvent} {event : LoggedEvent}

theorem newAt (now : ℕ) : Conserved appends (.newAt now) [] := by
  refine ⟨fun kind => ?_, fun reason => rfl, rfl, fun summary h => absurd h List.not_mem_nil, rfl,
    Nat.le_refl 0⟩
  cases kind with
  | injected => rfl
  | failed => rfl
  | skipped => rfl

/-- The counters, the summaries and the calls of the writer are all that the accounts are about. -/
theorem of_same (h : Conserved appends logger history)
    (hcounts : other.summary.counts = logger.summary.counts)
    (hreasons : other.summary.skipReasons = logger.summary.skipReasons)
    (hsummaries : other.summaries = logger.summaries) (hlost : other.lost = logger.lost)
    (hwritten : other.written.filter (·.code = "injection-summary") =
      logger.written.filter (·.code = "injection-summary"))
    (hcalls : logger.calls ≤ other.calls) : Conserved appends other history := by
  constructor
  · rw [hcounts, hsummaries, hlost]
    exact h.counts
  · rw [hreasons, hsummaries, hlost]
    exact h.reasons
  · rw [hcounts, hreasons]
    exact h.pendingTotal
  · rw [hsummaries, hlost]
    exact h.takenTotal
  · rw [hwritten, hsummaries]
    exact h.entries
  · rw [hlost]
    exact h.lost.trans ((List.range_sublist.2 hcalls).countP_le)

/-- An event that is not counted. -/
theorem uncounted (h : Conserved appends logger history) (hclass : event.class? = none)
    (hreason : event.skipReason? = none) : Conserved appends logger (history ++ [event]) := by
  refine ⟨fun kind => ?_, fun reason => ?_, h.pendingTotal, h.takenTotal, h.entries, h.lost⟩
  · rw [List.countP_append, h.counts, List.countP_singleton, hclass]
    simp
  · rw [List.countP_append, h.reasons, List.countP_singleton, hreason]
    simp

/-- What the writer is handed, be it appended or refused, changes no counter. -/
theorem hand (h : Conserved appends logger history) {entry : LogEntry}
    (hcode : entry.code ≠ "injection-summary") :
    Conserved appends (logger.hand appends entry) history := by
  unfold HostEventLogger.hand
  cases appends logger.calls with
  | ok =>
    refine h.of_same rfl rfl rfl rfl ?_ (Nat.le_succ _)
    dsimp only
    rw [List.filter_append, List.filter_singleton]
    simp [hcode]
  | error error =>
    dsimp only
    split
    · exact h.of_same rfl rfl rfl rfl rfl (Nat.le_succ _)
    · exact h.of_same rfl rfl rfl rfl rfl (Nat.le_succ _)

theorem write (h : Conserved appends logger history) (severity : EventSeverity) (area : EventArea)
    {code : String} (hcode : code ≠ "injection-summary") (params : List (String × String))
    (detail : Option (List Char)) :
    Conserved appends (logger.write appends severity area code params detail) history :=
  h.hand hcode

/-- Beginning a new window where nothing was counted in the old one. -/
theorem dropped (h : Conserved appends logger history) (hzero : logger.summary.counts = .zero)
    (now : ℕ) : Conserved appends { logger with summary := ⟨now, .zero, [], .empty⟩ } history := by
  have htotal : logger.summary.skipReasons.total = 0 := by
    rw [h.pendingTotal, hzero]
    rfl
  refine ⟨fun kind => ?_, fun reason => ?_, rfl, h.takenTotal, h.entries, h.lost⟩
  · rw [← h.counts, hzero]
  · have hle := count_le_total reason logger.summary.skipReasons
    have hnone : logger.summary.skipReasons.count reason = 0 := by omega
    rw [← h.reasons, hnone]
    rfl

/-- The summary that is taken holds what was pending, whichever list it goes to. -/
theorem taken (h : Conserved appends logger history) {summaries lost : List EmittedSummary}
    (hto : (summaries = logger.summaries ++ [logger.pending] ∧ lost = logger.lost) ∨
      (summaries = logger.summaries ∧ lost = logger.lost ++ [logger.pending])) :
    (∀ kind, (summaries.map (·.counts.of kind)).sum + (lost.map (·.counts.of kind)).sum +
      InjectionCounts.zero.of kind = history.countP (·.class? = some kind)) ∧
    (∀ reason : String, (summaries.map (·.reasons.count reason)).sum +
      (lost.map (·.reasons.count reason)).sum + Tally.count [] reason =
        history.countP (·.skipReason? = some reason)) ∧
    ∀ summary ∈ summaries ++ lost, summary.reasons.total = summary.counts.skipped := by
  have hsum (weight : EmittedSummary → ℕ) : (summaries.map weight).sum + (lost.map weight).sum =
      (logger.summaries.map weight).sum + (logger.lost.map weight).sum + weight logger.pending := by
    rcases hto with ⟨rfl, rfl⟩ | ⟨rfl, rfl⟩
    · rw [List.map_append, List.sum_append, List.map_singleton, List.sum_singleton]
      omega
    · rw [List.map_append, List.sum_append, List.map_singleton, List.sum_singleton]
      omega
  refine ⟨fun kind => ?_, fun reason => ?_, fun summary hmem => ?_⟩
  · rw [hsum, ← h.counts kind]
    cases kind with
    | injected => rfl
    | failed => rfl
    | skipped => rfl
  · rw [hsum, ← h.reasons reason]
    rfl
  · have hcases : summary ∈ logger.summaries ++ logger.lost ∨ summary = logger.pending := by
      rcases hto with ⟨rfl, rfl⟩ | ⟨rfl, rfl⟩
      · simp only [List.mem_append, List.mem_singleton] at hmem ⊢
        tauto
      · simp only [List.mem_append, List.mem_singleton] at hmem ⊢
        tauto
    rcases hcases with hold | rfl
    · exact h.takenTotal summary hold
    · exact h.pendingTotal

/-- A flush moves the pending counters into a summary that is written or lost, or drops counters
that are all zero. -/
theorem flushSummary (h : Conserved appends logger history) (now : ℕ) :
    Conserved appends (logger.flushSummary appends now) history := by
  unfold HostEventLogger.flushSummary
  dsimp only
  by_cases hzero : logger.summary.counts = .zero
  · rw [if_pos hzero]
    exact h.dropped hzero now
  rw [if_neg hzero]
  cases happend : appends logger.calls with
  | ok =>
    obtain ⟨hcounts, hreasons, htotal⟩ := h.taken (Or.inl ⟨rfl, rfl⟩)
    have hsummary : ∀ emitted : EmittedSummary, emitted.entry.code = "injection-summary" :=
      fun _ => rfl
    simp only [HostEventLogger.hand, happend]
    refine ⟨hcounts, hreasons, rfl, htotal, ?_, ?_⟩
    · rw [List.filter_append, List.filter_singleton, List.map_append, h.entries]
      simp [hsummary]
    · exact h.lost.trans ((List.range_sublist.2 (Nat.le_succ _)).countP_le)
  | error error =>
    obtain ⟨hcounts, hreasons, htotal⟩ := h.taken (Or.inr ⟨rfl, rfl⟩)
    have hlost : (logger.lost ++ [logger.pending]).length ≤
        (List.range (logger.calls + 1)).countP fun call => (appends call).toOption.isNone := by
      have hfailed : (appends logger.calls).toOption.isNone = true := by rw [happend]; rfl
      rw [List.range_succ, List.countP_append, List.length_append, List.countP_singleton,
        if_pos hfailed]
      exact Nat.succ_le_succ h.lost
    simp only [HostEventLogger.hand, happend]
    split
    · exact ⟨hcounts, hreasons, rfl, htotal, h.entries, hlost⟩
    · exact ⟨hcounts, hreasons, rfl, htotal, h.entries, hlost⟩

theorem flushElapsedSummary (h : Conserved appends logger history) (now : ℕ) :
    Conserved appends (logger.flushElapsedSummary appends now) history := by
  unfold HostEventLogger.flushElapsedSummary
  by_cases helapsed : summaryWindow ≤ now - logger.summary.windowStart
  · rw [if_pos helapsed]
    exact h.flushSummary now
  · rw [if_neg helapsed]
    exact h

theorem countSkip (h : Conserved appends logger history) {reason : String}
    (hclass : event.class? = some .skipped) (hreason : event.skipReason? = some reason) :
    Conserved appends (logger.countSkip reason) (history ++ [event]) := by
  refine ⟨fun kind => ?_, fun asked => ?_, ?_, h.takenTotal, h.entries, h.lost⟩
  · have hcounts := h.counts kind
    rw [List.countP_append, ← hcounts, List.countP_singleton, hclass]
    cases kind with
    | injected => simp [HostEventLogger.countSkip, InjectionCounts.of]
    | failed => simp [HostEventLogger.countSkip, InjectionCounts.of]
    | skipped =>
      simp only [HostEventLogger.countSkip, InjectionCounts.of, decide_true, if_true]
      omega
  · have hreasons := h.reasons asked
    rw [List.countP_append, ← hreasons, List.countP_singleton, hreason]
    dsimp only [HostEventLogger.countSkip]
    rw [count_bump]
    simp only [Option.some.injEq, decide_eq_true_eq]
    omega
  · dsimp only [HostEventLogger.countSkip]
    rw [total_bump, h.pendingTotal]

theorem injectionResult (h : Conserved appends logger history) (record : ProcessAttemptRecord)
    (process : String) (detail : List Char) (now : ℕ) :
    Conserved appends (logger.injectionResult appends record process detail now)
      (history ++ [.orchestrated (.injectionResult record process)]) := by
  have hflushed := h.flushElapsedSummary now
  unfold HostEventLogger.injectionResult
  generalize logger.flushElapsedSummary appends now = flushed at hflushed ⊢
  let result : LoggedEvent := .orchestrated (.injectionResult record process)
  -- a failure and an injection are counted in one field, and have no reason
  have hcounted : ∀ kind (counts : InjectionCounts), result.class? = some kind →
      result.skipReason? = none → counts.skipped = flushed.summary.counts.skipped →
      (∀ asked, counts.of asked = flushed.summary.counts.of asked + if kind = asked then 1 else 0) →
      Conserved appends { flushed with summary := { flushed.summary with counts } }
        (history ++ [result]) := by
    intro kind counts hclass hreason hskipped hof
    refine ⟨fun asked => ?_, fun reason => ?_, hflushed.pendingTotal.trans hskipped.symm,
      hflushed.takenTotal, hflushed.entries, hflushed.lost⟩
    · rw [List.countP_append, ← hflushed.counts, List.countP_singleton, hclass]
      dsimp only
      rw [hof]
      simp only [Option.some.injEq, decide_eq_true_eq]
      omega
    · rw [List.countP_append, ← hflushed.reasons, List.countP_singleton, hreason]
      simp
  have hfailed : result.class? = some .failed → result.skipReason? = none →
      Conserved appends { flushed with summary := { flushed.summary with counts :=
        { flushed.summary.counts with failed := flushed.summary.counts.failed + 1 } } }
        (history ++ [result]) := by
    intro hclass hreason
    refine hcounted .failed _ hclass hreason rfl fun asked => ?_
    cases asked with
    | injected => rfl
    | failed => rfl
    | skipped => rfl
  cases houtcome : record.outcome with
  | injected =>
    refine hcounted .injected _ (by simp [result, LoggedEvent.class?, houtcome])
      (by simp [result, LoggedEvent.skipReason?, houtcome]) rfl fun asked => ?_
    cases asked with
    | injected => rfl
    | failed => rfl
    | skipped => rfl
  | skipped =>
    exact hflushed.countSkip (by simp [LoggedEvent.class?, houtcome])
      (by simp [LoggedEvent.skipReason?, houtcome])
  | rejected | retryExhausted =>
    have hcount := hfailed (by simp [result, LoggedEvent.class?, houtcome])
      (by simp [result, LoggedEvent.skipReason?, houtcome])
    dsimp only
    split
    · refine write ?_ _ _ (by decide) _ _
      exact hcount.of_same rfl rfl rfl rfl rfl le_rfl
    · exact hcount.of_same rfl rfl rfl rfl rfl le_rfl
  | deferred | duplicate | cancelled =>
    exact hflushed.uncounted (by simp [LoggedEvent.class?, houtcome])
      (by simp [LoggedEvent.skipReason?, houtcome])

theorem healthChanged (h : Conserved appends logger history) (state : HealthState)
    (error : Option StructuredServiceError) :
    Conserved appends (logger.healthChanged appends state error) history := by
  unfold HostEventLogger.healthChanged
  by_cases hsame : logger.health = some state
  · rw [if_pos hsame]
    exact h
  · have hnext : Conserved appends { logger with health := some state } history :=
      h.of_same rfl rfl rfl rfl rfl le_rfl
    rw [if_neg hsame]
    cases state with
    | degraded => exact hnext.write _ _ (by decide) _ _
    | failed => exact hnext.write _ _ (by decide) _ _
    | ready =>
      dsimp only
      split
      · exact hnext.write _ _ (by decide) _ _
      · exact hnext
    | unknown => exact hnext
    | initializing => exact hnext

theorem helperBrokerFailed (h : Conserved appends logger history)
    (architecture : ProcessArchitecture) (code : String) (detail : Option (List Char)) (now : ℕ) :
    Conserved appends (logger.helperBrokerFailed appends architecture code detail now) history := by
  unfold HostEventLogger.helperBrokerFailed
  cases architecture with
  | x86 | x64 =>
    dsimp only
    split
    · refine write ?_ _ _ (by decide) _ _
      exact h.of_same rfl rfl rfl rfl rfl le_rfl
    · exact h.of_same rfl rfl rfl rfl rfl le_rfl

/-- What one event does to the accounts. -/
theorem recordAt (h : Conserved appends logger history) (event : LoggedEvent) (now : ℕ) :
    Conserved appends (logger.recordAt appends event now) (history ++ [event]) := by
  cases event with
  | orchestrated event =>
    cases event with
    | injectionResult record process => exact h.injectionResult record process _ now
    | injectionSkipped reason => exact (h.flushElapsedSummary now).countSkip rfl rfl
    | flushInjectionSummary => exact (h.flushElapsedSummary now).uncounted rfl rfl
    | injectionPipelineSample millis backlog ageMillis =>
      refine uncounted ?_ rfl rfl
      exact h.of_same rfl rfl rfl rfl rfl le_rfl
  | serviceStarted version =>
    refine uncounted ?_ rfl rfl
    have hwritten : Conserved appends (logger.write appends .info .service "service-started"
        [("version", version)] none) history := h.write _ _ (by decide) _ _
    exact hwritten.of_same rfl rfl rfl rfl rfl le_rfl
  | serviceStartSkipped error => exact (h.write _ _ (by decide) _ _).uncounted rfl rfl
  | serviceStopped =>
    exact ((h.flushSummary now).write _ _ (by decide) _ _).uncounted rfl rfl
  | healthChanged state error => exact (h.healthChanged state error).uncounted rfl rfl
  | liveObserverSelected observer =>
    refine uncounted ?_ rfl rfl
    exact h.of_same rfl rfl rfl rfl rfl le_rfl
  | helperBrokerFailed architecture code detail =>
    exact (h.helperBrokerFailed architecture code detail now).uncounted rfl rfl

theorem run (h : Conserved appends logger history) (events : List (LoggedEvent × ℕ)) :
    Conserved appends (logger.run appends events) (history ++ events.map Prod.fst) := by
  induction events generalizing logger history with
  | nil => simpa [HostEventLogger.run] using h
  | cons event rest ih =>
    have hnext := ih (h.recordAt event.1 event.2)
    rw [List.append_assoc] at hnext
    exact hnext

end Conserved

/-- After any events, and whatever the writer of the log answers, the summaries that were written,
the ones that it refused and what is pending account for every counted result, the skips by their
reasons as well. No more summaries are lost than appends failed, and every detail is short enough
and cut between two characters. -/
theorem summaries_conserve_counts (appends : HostEventLogger.Appends) (start : ℕ)
    (events : List (LoggedEvent × ℕ)) :
    Conserved appends ((HostEventLogger.newAt start).run appends events) (events.map Prod.fst) ∧
      ∀ summary ∈ ((HostEventLogger.newAt start).run appends events).summaries,
        ∀ detail ∈ summary.detail,
          WellCut detail (fullDetail summary.reasons summary.pipeline summary.observer) :=
  ⟨(Conserved.newAt start).run events, fun summary _ => summary.wellCut⟩

/-- The full disk: an injection is counted, and the summary of the last window is refused. -/
theorem refused_summary_loses_counts :
    ¬ ∀ (appends : HostEventLogger.Appends) (start : ℕ) (events : List (LoggedEvent × ℕ)),
      ∀ kind, (((HostEventLogger.newAt start).run appends events).summaries.map
          (·.counts.of kind)).sum +
          ((HostEventLogger.newAt start).run appends events).summary.counts.of kind =
        (events.map Prod.fst).countP (·.class? = some kind) := by
  intro h
  let record : ProcessAttemptRecord :=
    ⟨⟨42, 1, 1, .x64, false⟩, "1.0.0", .injected, 1, "injected", none⟩
  exact absurd (h (fun _ => .error "no space left on device") 0
    [(.orchestrated (.injectionResult record "notepad.exe"), 1), (.serviceStopped, 2)] .injected)
    (by decide)

end MacTypeControl.Host
