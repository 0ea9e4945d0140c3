import Mathlib.Data.List.Induction
import MacTypeControl.Preview.HelperLoop

/-!
# What the preview helper answers

For every order of the steps of the two threads, the responses come in the order of the requests,
and a request without a response is accounted for. The event is a flag that is set and not a count,
and still no request is left behind when the helper waits.
-/

namespace MacTypeControl.Preview

open Queues

variable {ρ : Type} {runtime : Runtime ρ}

/-! ## Responses -/

/-- The kind of the response to a request that is not refused. -/
def answerKind (kind : ℕ) : ℕ :=
  if kind = MessageKind.hello then MessageKind.helloAck
  else if kind = MessageKind.renderPreview then MessageKind.previewRendered
  else if kind = MessageKind.showNativePreview ∨ kind = MessageKind.hideNativePreview then
    MessageKind.nativePreviewState
  else if kind = MessageKind.shutdown then MessageKind.shutdown
  else MessageKind.error

/-- A frame has the number of the request, and is of the kind that answers it or an error. -/
def Responds (request response : Frame) : Prop :=
  response.requestId = request.requestId ∧
    (response.kind = answerKind request.kind ∨ response.kind = MessageKind.error)

theorem responds_error (request : Frame) (code : String) (message : Bytes) :
    Responds request (errorFrame request.requestId code message) := ⟨rfl, Or.inr rfl⟩

theorem responds_renderFrame (r : ρ) {request : Frame}
    (hkind : request.kind = MessageKind.renderPreview) :
    Responds request (runtime.renderFrame r request).2 := by
  unfold Runtime.renderFrame
  rcases runtime.render r request.json with ⟨next, ⟨code, message⟩ | ⟨json, png⟩⟩
  · exact responds_error request code message
  · refine ⟨rfl, Or.inl ?_⟩
    rw [hkind]
    rfl

theorem responds_showNativePreview (r : ρ) {request : Frame} (visible : Bool)
    (hkind : request.kind = MessageKind.showNativePreview ∨
      request.kind = MessageKind.hideNativePreview) :
    Responds request (runtime.showNativePreview r request visible).2 := by
  have hanswer : answerKind request.kind = MessageKind.nativePreviewState := by
    rcases hkind with hkind | hkind <;> rw [hkind] <;> rfl
  unfold Runtime.showNativePreview
  by_cases hvisible : visible = true
  · rw [if_pos hvisible]
    rcases runtime.applyNativeRequest r request.json with ⟨next, error | _⟩
    · exact responds_error request _ error
    · exact ⟨rfl, Or.inl hanswer.symm⟩
  · rw [if_neg hvisible]
    exact ⟨rfl, Or.inl hanswer.symm⟩

theorem responds_respond (r : ρ) (request : Frame) : Responds request (runtime.respond r request).2 := by
  unfold Runtime.respond
  by_cases hhello : request.kind = MessageKind.hello
  · rw [if_pos hhello]
    exact ⟨rfl, Or.inl (by rw [hhello]; rfl)⟩
  rw [if_neg hhello]
  by_cases hrender : request.kind = MessageKind.renderPreview
  · rw [if_pos hrender]
    exact responds_renderFrame r hrender
  rw [if_neg hrender]
  by_cases hshow : request.kind = MessageKind.showNativePreview
  · rw [if_pos hshow]
    exact responds_showNativePreview r true (Or.inl hshow)
  rw [if_neg hshow]
  by_cases hhide : request.kind = MessageKind.hideNativePreview
  · rw [if_pos hhide]
    exact responds_showNativePreview r false (Or.inr hhide)
  rw [if_neg hhide]
  by_cases hshutdown : request.kind = MessageKind.shutdown
  · rw [if_pos hshutdown]
    exact ⟨rfl, Or.inl (by rw [hshutdown]; rfl)⟩
  · rw [if_neg hshutdown]
    exact ⟨rfl, Or.inr rfl⟩

/-- The response of a runtime to a request, in some state of the runtime. -/
def Runtime.Gives (runtime : Runtime ρ) (request response : Frame) : Prop :=
  ∃ r, (runtime.respond r request).2 = response

theorem Runtime.Gives.responds {request response : Frame} (h : runtime.Gives request response) :
    Responds request response := by
  obtain ⟨r, rfl⟩ := h
  exact responds_respond r request

/-- The request that the reader receives in a step. -/
def Action.request? : Action ρ → Option Frame
  | .receive request => some request
  | _ => none

namespace Helper

/-! ## The requests that are taken -/

/-- The request that the main thread has in hand. -/
def inHand : Main → List ℕ
  | .answering n _ => [n]
  | .replying n _ => [n]
  | _ => []

/-- The request with this number still has a response to come. -/
def Owes (h : Helper ρ) (n : ℕ) : Prop :=
  n ∈ inHand h.main ∨ n ∈ h.queue.waiting.map Prod.fst

def Answered (h : Helper ρ) (n : ℕ) : Prop := n ∈ h.answers.map Prod.fst

/-- What the main thread has in hand is a request as it has come, or the response to one. -/
def HandFits (runtime : Runtime ρ) (taken : List (ℕ × Frame)) : Main → Prop
  | .answering n request => (n, request) ∈ taken
  | .replying n response => ∃ request, (n, request) ∈ taken ∧ runtime.Gives request response
  | _ => True

/-- What has been taken is answered, in hand, or the request whose response failed. -/
structure Ledger (runtime : Runtime ρ) (queue : Coalescing Frame) (answers : List (ℕ × Frame))
    (failed : Option ℕ) (main : Main) : Prop where
  accounted : queue.Accounted isRender
  taken : queue.taken.map Prod.fst = answers.map Prod.fst ++ (failed.toList ++ inHand main)
  fits : ∀ e ∈ answers, ∃ request, (e.1, request) ∈ queue.taken ∧ runtime.Gives request e.2
  hand : HandFits runtime queue.taken main
  ends : failed ≠ none → main = .checking ∨ main = .exited

/-- The main thread stops for a reason. -/
structure Stopping (taken : List (ℕ × Frame)) (failed : Option ℕ) (running : Bool) (main : Main) :
    Prop where
  failing : failed ≠ none → running = false
  waits : main = .waiting → running = true
  told : running = false → failed = none → ∃ e ∈ taken, e.2.kind = MessageKind.shutdown

/-- Whenever the main thread is about to wait with requests in the queue, something will wake it. -/
structure Waking (h : Helper ρ) : Prop where
  closes : h.inputClosed = true ↔ h.reader = .closed ∨ h.reader = .finished
  woken : h.main = .waiting ∨ h.main = .checking → h.queue.waiting ≠ [] →
    h.signaled = true ∨ h.reader = .pushed ∨ h.running = false
  finished : h.main = .waiting → h.reader = .finished → h.signaled = true
  exits : h.main = .exited → (h.inputClosed = true ∧ h.queue.waiting = []) ∨ h.exitCode = 7 ∨
    h.running = false

/-- The invariant of the two threads. -/
structure Kept (runtime : Runtime ρ) (h : Helper ρ) : Prop where
  ledger : Ledger runtime h.queue h.answers h.failed h.main
  stopping : Stopping h.queue.taken h.failed h.running h.main
  waking : Waking h

theorem kept_start (r : ρ) : Kept runtime (start r) where
  ledger := ⟨Coalescing.accounted_empty isRender, rfl, fun _ he => absurd he List.not_mem_nil,
    trivial, fun h => absurd rfl h⟩
  stopping := ⟨fun h => absurd rfl h, fun _ => rfl, fun h => by cases h⟩
  waking := ⟨by simp [start], fun _ h => absurd rfl h, fun _ h => (by cases h), fun h => by cases h⟩

/-! ## The steps of the reader -/

theorem Ledger.push {queue : Coalescing Frame} {answers : List (ℕ × Frame)} {failed : Option ℕ}
    {main : Main} (k : Ledger runtime queue answers failed main) (request : Frame) :
    Ledger runtime (queue.push isRender request) answers failed main :=
  ⟨k.accounted.push request, k.taken, k.fits, k.hand, k.ends⟩

theorem kept_receive {h : Helper ρ} (k : Kept runtime h) (hreading : h.reader = .reading) (request : Frame) :
    Kept runtime (h.receive request) := by
  have hopen : h.inputClosed ≠ true := fun hclosed => by
    rcases k.waking.closes.1 hclosed with hreader | hreader <;> rw [hreading] at hreader <;>
      cases hreader
  refine ⟨k.ledger.push request, k.stopping, ?_, ?_, ?_, ?_⟩
  · change h.inputClosed = true ↔ _
    simp [receive, hopen]
  · exact fun _ _ => Or.inr (Or.inl rfl)
  · intro _ hfinished
    cases hfinished
  -- the main thread may have ended while the reader goes on, but not for the end of the input
  · intro hexited
    rcases k.waking.exits hexited with hclosed | hother
    · exact absurd hclosed.1 hopen
    · exact Or.inr hother

theorem kept_closeInput {h : Helper ρ} (k : Kept runtime h) (hreading : h.reader = .reading) (atEnd : Bool) :
    Kept runtime (h.closeInput atEnd) := by
  refine ⟨k.ledger, k.stopping, by simp [closeInput], ?_, ?_, ?_⟩
  · intro hmain hwaiting
    rcases k.waking.woken hmain hwaiting with hsignaled | hpushed | hstops
    · exact Or.inl hsignaled
    · rw [hreading] at hpushed
      cases hpushed
    · exact Or.inr (Or.inr hstops)
  · intro _ hfinished
    cases hfinished
  · intro hexited
    rcases k.waking.exits hexited with hclosed | hother
    · exact Or.inl ⟨rfl, hclosed.2⟩
    · exact Or.inr hother

/-- The event is set, whether after a request or at the end of the input. -/
theorem kept_signal {h : Helper ρ} (k : Kept runtime h) (next : Reader)
    (hnext : (h.reader = .pushed ∧ next = .reading) ∨ (h.reader = .closed ∧ next = .finished)) :
    Kept runtime { h with signaled := true, reader := next } := by
  refine ⟨k.ledger, k.stopping, ?_, fun _ _ => Or.inl rfl, fun _ _ => rfl, k.waking.exits⟩
  change h.inputClosed = true ↔ _
  rw [k.waking.closes]
  rcases hnext with ⟨hreader, rfl⟩ | ⟨hreader, rfl⟩ <;> simp [hreader]

/-! ## What surrounds the threads -/

theorem kept_emit {h : Helper ρ} (k : Kept runtime h) (json : Bytes) : Kept runtime (h.emit json) := by
  unfold emit
  by_cases hwrites : h.writes ⟨MessageKind.nativePreviewState, 0, json, []⟩ = true
  · have hanswers : (h.output ++ [Written.event ⟨MessageKind.nativePreviewState, 0, json, []⟩]).filterMap
        Written.answer? = h.answers := by
      rw [List.filterMap_append]
      exact List.append_nil _
    rw [if_pos hwrites]
    refine ⟨?_, k.stopping, k.waking.closes, k.waking.woken, k.waking.finished, k.waking.exits⟩
    change Ledger runtime h.queue ((h.output ++ _).filterMap Written.answer?) h.failed h.main
    rw [hanswers]
    exact k.ledger
  · rw [if_neg hwrites]
    exact ⟨k.ledger, k.stopping, k.waking.closes, fun _ _ => Or.inl rfl, fun _ _ => rfl,
      k.waking.exits⟩

theorem kept_pump {h : Helper ρ} (k : Kept runtime h) (r : ρ) (events : List Bytes) :
    Kept runtime (h.pump r events) := by
  have hstart : Kept runtime { h with runtime := r } :=
    ⟨k.ledger, k.stopping, k.waking.closes, k.waking.woken, k.waking.finished, k.waking.exits⟩
  unfold pump
  generalize ({ h with runtime := r } : Helper ρ) = h' at hstart
  induction events generalizing h' with
  | nil => exact hstart
  | cons json rest ih => exact ih _ (kept_emit hstart json)

theorem kept_breakOutput {h : Helper ρ} (k : Kept runtime h) : Kept runtime { h with good := false } :=
  ⟨k.ledger, k.stopping, k.waking.closes, k.waking.woken, k.waking.finished, k.waking.exits⟩

/-! ## The steps of the main thread -/

/-- With nothing in hand the main thread may go to any state in which it has nothing in hand. -/
theorem Ledger.move {queue : Coalescing Frame} {answers : List (ℕ × Frame)} {failed : Option ℕ}
    {main next : Main} (k : Ledger runtime queue answers failed main) (hhand : inHand main = [])
    (hnext : inHand next = []) (hends : failed ≠ none → next = .checking ∨ next = .exited) :
    Ledger runtime queue answers failed next := by
  refine ⟨k.accounted, by rw [k.taken, hhand, hnext], k.fits, ?_, hends⟩
  cases next with
  | answering n request => cases hnext
  | replying n response => cases hnext
  | _ => trivial

theorem kept_failWait {h : Helper ρ} (k : Kept runtime h) (hmain : h.main = .waiting) :
    Kept runtime { h with exitCode := 7, main := .exited } := by
  refine ⟨k.ledger.move (by rw [hmain]; rfl) rfl fun _ => Or.inr rfl,
    ⟨k.stopping.failing, fun h => (by cases h), k.stopping.told⟩, k.waking.closes, ?_, ?_, ?_⟩
  · intro hother
    rcases hother with hother | hother <;> cases hother
  · intro hother
    cases hother
  · exact fun _ => Or.inr (Or.inl rfl)

theorem failed_eq_none_of_waiting {h : Helper ρ} (k : Kept runtime h) (hmain : h.main = .waiting) :
    h.failed = none := by
  by_contra hfailed
  rcases k.ledger.ends hfailed with hother | hother <;> rw [hmain] at hother <;> cases hother

theorem kept_wake {h : Helper ρ} (k : Kept runtime h) (hmain : h.main = .waiting) :
    Kept runtime { h with signaled := false, main := .draining } := by
  have hfailed := failed_eq_none_of_waiting k hmain
  refine ⟨k.ledger.move (by rw [hmain]; rfl) rfl fun h => absurd hfailed h,
    ⟨k.stopping.failing, fun h => (by cases h), k.stopping.told⟩, k.waking.closes, ?_, ?_, ?_⟩
  · intro hother
    rcases hother with hother | hother <;> cases hother
  · intro hother
    cases hother
  · intro hother
    cases hother

theorem failed_eq_none {queue : Coalescing Frame} {answers : List (ℕ × Frame)} {failed : Option ℕ}
    {main : Main} (k : Ledger runtime queue answers failed main) (hchecking : main ≠ .checking)
    (hexited : main ≠ .exited) : failed = none := by
  by_contra hfailed
  rcases k.ends hfailed with hother | hother
  · exact hchecking hother
  · exact hexited hother

theorem kept_take {h : Helper ρ} (k : Kept runtime h) (hmain : h.main = .draining) : Kept runtime h.take := by
  have hfailed : h.failed = none :=
    failed_eq_none k.ledger (by rw [hmain]; decide) (by rw [hmain]; decide)
  have hnothing : inHand h.main = [] := by rw [hmain]; rfl
  unfold take
  cases hpop : h.queue.pop with
  | none =>
    have hempty : h.queue.waiting = [] := Coalescing.pop_eq_none hpop
    refine ⟨k.ledger.move hnothing rfl fun h => absurd hfailed h,
      ⟨k.stopping.failing, fun h => (by cases h), k.stopping.told⟩, k.waking.closes, ?_, ?_, ?_⟩
    · exact fun _ hwaiting => absurd hempty hwaiting
    · intro hother
      cases hother
    · intro hother
      cases hother
  | some popped =>
    obtain ⟨⟨n, request⟩, queue⟩ := popped
    have haccounted := k.ledger.accounted.pop hpop
    obtain ⟨rest, hwaiting, rfl⟩ := Coalescing.pop_eq_some hpop
    refine ⟨⟨haccounted, ?_, ?_, ?_, fun h => absurd hfailed h⟩,
      ⟨k.stopping.failing, fun h => (by cases h), ?_⟩, k.waking.closes, ?_, ?_, ?_⟩
    · change (h.queue.taken ++ [(n, request)]).map Prod.fst = _
      rw [List.map_append, k.ledger.taken, hnothing, hfailed]
      simp [inHand, answers]
    · intro e he
      obtain ⟨earlier, htaken, hgives⟩ := k.ledger.fits e he
      exact ⟨earlier, List.mem_append_left _ htaken, hgives⟩
    · exact List.mem_append_right _ (List.mem_singleton.2 rfl)
    · intro hstops hnone
      obtain ⟨e, he, hkind⟩ := k.stopping.told hstops hnone
      exact ⟨e, List.mem_append_left _ he, hkind⟩
    · intro hother
      rcases hother with hother | hother <;> cases hother
    · intro hother
      cases hother
    · intro hother
      cases hother

theorem kept_handle {h : Helper ρ} (k : Kept runtime h) {n : ℕ} {request : Frame}
    (hmain : h.main = .answering n request) : Kept runtime (h.handle runtime n request) := by
  have hfailed : h.failed = none :=
    failed_eq_none k.ledger (by rw [hmain]; simp) (by rw [hmain]; simp)
  have htaken : (n, request) ∈ h.queue.taken := by
    have hhand := k.ledger.hand
    rwa [hmain] at hhand
  have hledger := k.ledger.taken
  rw [hmain] at hledger
  refine ⟨⟨k.ledger.accounted, hledger, k.ledger.fits,
      ⟨request, htaken, h.runtime, rfl⟩, fun h => absurd hfailed h⟩,
    ⟨fun h => absurd hfailed h, fun h => (by cases h), ?_⟩, k.waking.closes, ?_, ?_, ?_⟩
  · intro hstops _
    change (h.running && !decide (request.kind = MessageKind.shutdown)) = false at hstops
    rcases Bool.and_eq_false_iff.1 hstops with hbefore | hnow
    · exact k.stopping.told hbefore hfailed
    · exact ⟨(n, request), htaken, by simpa using hnow⟩
  · intro hother
    rcases hother with hother | hother <;> cases hother
  · intro hother
    cases hother
  · intro hother
    cases hother

theorem kept_reply {h : Helper ρ} (k : Kept runtime h) {n : ℕ} {response : Frame}
    (hmain : h.main = .replying n response) : Kept runtime (h.reply n response) := by
  have hfailed : h.failed = none :=
    failed_eq_none k.ledger (by rw [hmain]; simp) (by rw [hmain]; simp)
  have hhand := k.ledger.hand
  rw [hmain] at hhand
  have hledger := k.ledger.taken
  rw [hmain, hfailed] at hledger
  unfold reply
  by_cases hwrites : h.writes response = true
  · have hanswers : (h.output ++ [Written.answer n response]).filterMap Written.answer? =
        h.answers ++ [(n, response)] := by
      rw [List.filterMap_append]
      rfl
    rw [if_pos hwrites]
    refine ⟨?_, ⟨k.stopping.failing, fun h => (by cases h), k.stopping.told⟩, k.waking.closes, ?_, ?_, ?_⟩
    · change Ledger runtime h.queue ((h.output ++ _).filterMap Written.answer?) h.failed .draining
      rw [hanswers, hfailed]
      refine ⟨k.ledger.accounted, ?_, ?_, trivial, fun h => absurd rfl h⟩
      · rw [hledger, List.map_append]
        simp [inHand]
      · intro e he
        rcases List.mem_append.1 he with he | he
        · exact k.ledger.fits e he
        · rw [List.mem_singleton.1 he]
          exact hhand
    · intro hother
      rcases hother with hother | hother <;> cases hother
    · intro hother
      cases hother
    · intro hother
      cases hother
  -- the response is lost, and the requests behind it are not looked at
  · rw [if_neg hwrites]
    refine ⟨⟨k.ledger.accounted, ?_, k.ledger.fits, trivial, fun _ => Or.inl rfl⟩,
      ⟨fun _ => rfl, fun h => (by cases h), fun _ h => (by cases h)⟩, k.waking.closes,
      fun _ _ => Or.inr (Or.inr rfl), ?_, ?_⟩
    · rw [hledger]
      simp [inHand, answers]
    · intro hother
      cases hother
    · intro hother
      cases hother

theorem kept_check {h : Helper ρ} (k : Kept runtime h) (hmain : h.main = .checking) : Kept runtime h.check := by
  have hnothing : inHand h.main = [] := by rw [hmain]; rfl
  unfold check
  by_cases hends : h.inputClosed = true ∧ h.queue.waiting = []
  · rw [if_pos hends]
    refine ⟨k.ledger.move hnothing rfl fun _ => Or.inr rfl,
      ⟨k.stopping.failing, fun h => (by cases h), k.stopping.told⟩, k.waking.closes, ?_, ?_, ?_⟩
    · intro hother
      rcases hother with hother | hother <;> cases hother
    · intro hother
      cases hother
    · exact fun _ => Or.inl hends
  rw [if_neg hends]
  by_cases hrunning : h.running = true
  · rw [if_pos hrunning]
    have hfailed : h.failed = none := by
      by_contra hfailed
      rw [k.stopping.failing hfailed] at hrunning
      cases hrunning
    refine ⟨k.ledger.move hnothing rfl fun h => absurd hfailed h,
      ⟨k.stopping.failing, fun _ => hrunning, k.stopping.told⟩, k.waking.closes,
      fun _ => k.waking.woken (Or.inr hmain), ?_, ?_⟩
    -- at the end of the input the queue is not empty, and the event of its last request is set
    · intro _ hfinished
      have hwaiting : h.queue.waiting ≠ [] := fun hempty =>
        hends ⟨k.waking.closes.2 (Or.inr hfinished), hempty⟩
      rcases k.waking.woken (Or.inr hmain) hwaiting with hsignaled | hpushed | hstops
      · exact hsignaled
      · rw [show h.reader = .finished from hfinished] at hpushed
        cases hpushed
      · rw [hrunning] at hstops
        cases hstops
    · intro hother
      cases hother
  · rw [if_neg hrunning]
    refine ⟨k.ledger.move hnothing rfl fun _ => Or.inr rfl,
      ⟨k.stopping.failing, fun h => (by cases h), k.stopping.told⟩, k.waking.closes, ?_, ?_, ?_⟩
    · intro hother
      rcases hother with hother | hother <;> cases hother
    · intro hother
      cases hother
    · exact fun _ => Or.inr (Or.inr (Bool.eq_false_iff.2 hrunning))

/-! ## Runs -/

/-- What a step is, and when it can be taken. -/
theorem step_cases {h next : Helper ρ} {action : Action ρ} (hstep : h.step runtime action = some next) :
    match action with
    | .receive request => h.reader = .reading ∧ h.receive request = next
    | .closeInput atEnd => h.reader = .reading ∧ h.closeInput atEnd = next
    | .signal => (h.reader = .pushed ∧ { h with signaled := true, reader := .reading } = next) ∨
        (h.reader = .closed ∧ { h with signaled := true, reader := .finished } = next)
    | .breakOutput => { h with good := false } = next
    | .pump r events => h.main = .waiting ∧ h.pump r events = next
    | .failWait => h.main = .waiting ∧ { h with exitCode := 7, main := .exited } = next
    | .wake => (h.main = .waiting ∧ h.signaled = true) ∧
        { h with signaled := false, main := .draining } = next
    | .take => h.main = .draining ∧ h.take = next
    | .handle => ∃ n request, h.main = .answering n request ∧ h.handle runtime n request = next
    | .reply => ∃ n response, h.main = .replying n response ∧ h.reply n response = next
    | .check => h.main = .checking ∧ h.check = next := by
  cases action with
  | signal =>
    simp only [step] at hstep
    split_ifs at hstep with hpushed hclosed
    · exact Or.inl ⟨hpushed, Option.some.inj hstep⟩
    · exact Or.inr ⟨hclosed, Option.some.inj hstep⟩
  | handle =>
    cases hmain : h.main <;> simp only [step, hmain] at hstep
    · cases hstep
    · cases hstep
    · exact ⟨_, _, rfl, Option.some.inj hstep⟩
    all_goals cases hstep
  | reply =>
    cases hmain : h.main <;> simp only [step, hmain] at hstep
    · cases hstep
    · cases hstep
    · cases hstep
    · exact ⟨_, _, rfl, Option.some.inj hstep⟩
    all_goals cases hstep
  | breakOutput => exact Option.some.inj hstep
  | _ => simpa only [step, Option.ite_none_right_eq_some, Option.some.injEq] using hstep

theorem kept_step {h next : Helper ρ} {action : Action ρ} (k : Kept runtime h)
    (hstep : h.step runtime action = some next) : Kept runtime next := by
  have hcases := step_cases hstep
  cases action with
  | receive request =>
    obtain ⟨hreading, rfl⟩ := hcases
    exact kept_receive k hreading request
  | closeInput atEnd =>
    obtain ⟨hreading, rfl⟩ := hcases
    exact kept_closeInput k hreading atEnd
  | signal =>
    obtain ⟨hpushed, rfl⟩ | ⟨hclosed, rfl⟩ := hcases
    · exact kept_signal k .reading (Or.inl ⟨hpushed, rfl⟩)
    · exact kept_signal k .finished (Or.inr ⟨hclosed, rfl⟩)
  | breakOutput =>
    cases hcases
    exact kept_breakOutput k
  | pump r events =>
    obtain ⟨-, rfl⟩ := hcases
    exact kept_pump k r events
  | failWait =>
    obtain ⟨hmain, rfl⟩ := hcases
    exact kept_failWait k hmain
  | wake =>
    obtain ⟨⟨hmain, -⟩, rfl⟩ := hcases
    exact kept_wake k hmain
  | take =>
    obtain ⟨hmain, rfl⟩ := hcases
    exact kept_take k hmain
  | handle =>
    obtain ⟨n, request, hmain, rfl⟩ := hcases
    exact kept_handle k hmain
  | reply =>
    obtain ⟨n, response, hmain, rfl⟩ := hcases
    exact kept_reply k hmain
  | check =>
    obtain ⟨hmain, rfl⟩ := hcases
    exact kept_check k hmain

theorem kept_run {h final : Helper ρ} {actions : List (Action ρ)} (k : Kept runtime h)
    (hrun : h.run runtime actions = some final) : Kept runtime final := by
  induction actions generalizing h with
  | nil =>
    cases hrun
    exact k
  | cons action rest ih =>
    obtain ⟨next, hstep, hrest⟩ := Option.bind_eq_some_iff.1 hrun
    exact ih (kept_step k hstep) hrest

theorem kept_of_run {h : Helper ρ} {r : ρ} {actions : List (Action ρ)}
    (hrun : (start r).run runtime actions = some h) : Kept runtime h :=
  kept_run (kept_start r) hrun

theorem run_append {h final : Helper ρ} {first second : List (Action ρ)}
    (hrun : h.run runtime (first ++ second) = some final) :
    ∃ middle, h.run runtime first = some middle ∧ middle.run runtime second = some final := by
  induction first generalizing h with
  | nil => exact ⟨h, rfl, hrun⟩
  | cons action rest ih =>
    obtain ⟨next, hstep, hrest⟩ := Option.bind_eq_some_iff.1 hrun
    obtain ⟨middle, hmiddle, hfinal⟩ := ih hrest
    exact ⟨middle, by rw [run, hstep]; exact hmiddle, hfinal⟩

/-- Events reach the output and what tells of a failure, and nothing else. -/
theorem foldl_emit_eq (events : List Bytes) (h : Helper ρ) :
    ∃ (added : List Frame) (failed signaled : Bool), events.foldl emit h =
        { h with
          output := h.output ++ added.map .event, protocolFailed := failed, signaled := signaled } ∧
      ∀ f ∈ added, f.requestId = 0 := by
  induction events generalizing h with
  | nil => exact ⟨[], h.protocolFailed, h.signaled, by simp, by simp⟩
  | cons json rest ih =>
    obtain ⟨added, failed, signaled, heq, hevents⟩ := ih (h.emit json)
    rw [List.foldl_cons, heq, emit]
    split_ifs
    · refine ⟨⟨MessageKind.nativePreviewState, 0, json, []⟩ :: added, failed, signaled, by simp, ?_⟩
      exact List.forall_mem_cons.2 ⟨rfl, hevents⟩
    · exact ⟨added, failed, signaled, rfl, hevents⟩

/-- What a step does to the queue, to the output, and to the response that is due. -/
structure Changes (runtime : Runtime ρ) (action : Action ρ) (h next : Helper ρ) : Prop where
  queue : (action.request? = none ∧ next.queue = h.queue) ∨
    (∃ request, action.request? = some request ∧ next.queue = h.queue.push isRender request) ∨
    (action.request? = none ∧ ∃ first, h.queue.pop = some (first, next.queue))
  output : ∃ added, next.output = h.output ++ added ∧ (∀ f, .event f ∈ added → f.requestId = 0) ∧
    ∀ n f, .answer n f ∈ added → h.main = .replying n f
  due : ∀ n f, next.main = .replying n f → h.main = .replying n f ∨
    (action = .handle ∧ ∃ request, h.main = .answering n request ∧
      (runtime.respond h.runtime request).2 = f)

/-- Most steps neither touch the queue nor write. -/
theorem Changes.silent {h next : Helper ρ} {action : Action ρ} (hrequest : action.request? = none)
    (hqueue : next.queue = h.queue) (houtput : next.output = h.output)
    (hdue : ∀ n f, next.main = .replying n f → h.main = .replying n f) :
    Changes runtime action h next where
  queue := Or.inl ⟨hrequest, hqueue⟩
  output := ⟨[], by rw [houtput, List.append_nil], by simp, by simp⟩
  due := fun n f hmain => Or.inl (hdue n f hmain)

theorem changes_step {h next : Helper ρ} {action : Action ρ}
    (hstep : h.step runtime action = some next) : Changes runtime action h next := by
  have hcases := step_cases hstep
  cases action with
  | receive request =>
    obtain ⟨-, rfl⟩ := hcases
    exact ⟨Or.inr (Or.inl ⟨request, rfl, rfl⟩), ⟨[], by simp [receive], by simp, by simp⟩,
      fun n f hmain => Or.inl hmain⟩
  | pump r events =>
    obtain ⟨-, rfl⟩ := hcases
    obtain ⟨added, failed, signaled, heq, hevents⟩ := foldl_emit_eq events { h with runtime := r }
    rw [pump, heq]
    exact ⟨Or.inl ⟨rfl, rfl⟩, ⟨added.map .event, rfl, by simpa using hevents, by simp⟩,
      fun n f hmain => Or.inl hmain⟩
  | take =>
    obtain ⟨-, rfl⟩ := hcases
    unfold take
    cases hpop : h.queue.pop with
    | none => exact .silent rfl rfl rfl fun _ _ hmain => by cases hmain
    | some popped =>
      exact ⟨Or.inr (Or.inr ⟨rfl, popped.1, hpop⟩), ⟨[], by simp, by simp, by simp⟩,
        fun _ _ hmain => by cases hmain⟩
  | handle =>
    obtain ⟨n, request, hmain, rfl⟩ := hcases
    refine ⟨Or.inl ⟨rfl, rfl⟩, ⟨[], by simp [handle], by simp, by simp⟩, fun m f hdue => ?_⟩
    cases hdue
    exact Or.inr ⟨rfl, request, hmain, rfl⟩
  | reply =>
    obtain ⟨n, response, hmain, rfl⟩ := hcases
    unfold reply
    split_ifs
    · refine ⟨Or.inl ⟨rfl, rfl⟩, ⟨_, rfl, by simp, fun m f hanswer => ?_⟩,
        fun _ _ hdue => by cases hdue⟩
      cases List.mem_singleton.1 hanswer
      exact hmain
    · exact .silent rfl rfl rfl fun _ _ hdue => by cases hdue
  | check =>
    obtain ⟨-, rfl⟩ := hcases
    unfold check
    split_ifs <;> exact .silent rfl rfl rfl fun _ _ hdue => by cases hdue
  | signal =>
    obtain ⟨-, rfl⟩ | ⟨-, rfl⟩ := hcases <;> exact .silent rfl rfl rfl fun _ _ hmain => hmain
  | closeInput atEnd =>
    obtain ⟨-, rfl⟩ := hcases
    exact .silent rfl rfl rfl fun _ _ hmain => hmain
  | breakOutput =>
    cases hcases
    exact .silent rfl rfl rfl fun _ _ hmain => hmain
  | failWait | wake =>
    obtain ⟨-, rfl⟩ := hcases
    exact .silent rfl rfl rfl fun _ _ hmain => by cases hmain

theorem arrived_step {h next : Helper ρ} {action : Action ρ}
    (hstep : h.step runtime action = some next) :
    next.arrived = h.arrived ++ action.request?.toList := by
  unfold arrived
  rcases (changes_step hstep).queue with ⟨hrequest, hqueue⟩ | ⟨request, hrequest, hqueue⟩ |
    ⟨hrequest, first, hpop⟩
  · rw [hqueue, hrequest, Option.toList_none, List.append_nil]
  · rw [hqueue, hrequest]
    rfl
  · obtain ⟨rest, -, hqueue⟩ := Coalescing.pop_eq_some hpop
    rw [hqueue, hrequest, Option.toList_none, List.append_nil]

/-- What has arrived is what the reader has received, in this order. -/
theorem arrived_run {h final : Helper ρ} {actions : List (Action ρ)}
    (hrun : h.run runtime actions = some final) :
    final.arrived = h.arrived ++ actions.filterMap Action.request? := by
  induction actions generalizing h with
  | nil =>
    cases hrun
    exact (List.append_nil _).symm
  | cons action rest ih =>
    obtain ⟨next, hstep, hrest⟩ := Option.bind_eq_some_iff.1 hrun
    rw [ih hrest, arrived_step hstep, List.append_assoc]
    cases hrequest : action.request? <;> simp [hrequest]

theorem event_unnumbered {h : Helper ρ} {r : ρ} {actions : List (Action ρ)}
    (hrun : (start r).run runtime actions = some h) {f : Frame} (hf : .event f ∈ h.output) :
    f.requestId = 0 := by
  have hall : ∀ (h₀ : Helper ρ), (∀ g, .event g ∈ h₀.output → g.requestId = 0) →
      h₀.run runtime actions = some h → ∀ g, .event g ∈ h.output → g.requestId = 0 := by
    clear hrun hf
    induction actions with
    | nil =>
      intro h₀ hstart hrun
      cases hrun
      exact hstart
    | cons action rest ih =>
      intro h₀ hstart hrun
      obtain ⟨next, hstep, hrest⟩ := Option.bind_eq_some_iff.1 hrun
      obtain ⟨added, hadded, hevents, -⟩ := (changes_step hstep).output
      refine ih next (fun g hg => ?_) hrest
      rw [hadded] at hg
      exact (List.mem_append.1 hg).elim (hstart g) (hevents g)
  exact hall _ (fun g hg => absurd hg List.not_mem_nil) hrun f hf

theorem Kept.numbered {h : Helper ρ} (k : Kept runtime h) {n : ℕ} {request : Frame}
    (htaken : (n, request) ∈ h.queue.taken) : h.arrived[n]? = some request :=
  k.ledger.accounted.numbered (n, request) (List.mem_append_left _ htaken)

/-- The response was made in a step of the run, with the request in the hand of the main thread. -/
def Computed (runtime : Runtime ρ) (r : ρ) (actions : List (Action ρ)) (n : ℕ) (request response : Frame) :
    Prop :=
  ∃ before after h, actions = before ++ .handle :: after ∧ (start r).run runtime before = some h ∧
    h.main = .answering n request ∧ (runtime.respond h.runtime request).2 = response

theorem Computed.later {r : ρ} {actions : List (Action ρ)} {n : ℕ} {request response : Frame}
    (h : Computed runtime r actions n request response) (action : Action ρ) :
    Computed runtime r (actions ++ [action]) n request response := by
  obtain ⟨before, after, h, rfl, hcomputed⟩ := h
  exact ⟨before, after ++ [action], h, by rw [List.append_assoc]; rfl, hcomputed⟩

theorem Computed.responds {r : ρ} {actions : List (Action ρ)} {n : ℕ} {request response : Frame}
    (h : Computed runtime r actions n request response) : Responds request response := by
  obtain ⟨-, -, h, -, -, -, rfl⟩ := h
  exact responds_respond h.runtime request

/-- A response that is written or due was computed from the request with its number. -/
theorem answer_computed {h : Helper ρ} {r : ρ} {actions : List (Action ρ)}
    (hrun : (start r).run runtime actions = some h) {n : ℕ} {f : Frame}
    (hf : .answer n f ∈ h.output ∨ h.main = .replying n f) :
    ∃ request, h.arrived[n]? = some request ∧ Computed runtime r actions n request f := by
  induction actions using List.reverseRecOn generalizing h with
  | nil =>
    cases hrun
    rcases hf with hf | hf
    · exact absurd hf List.not_mem_nil
    · cases hf
  | append_singleton actions action ih =>
    obtain ⟨earlier, hearlier, hlast⟩ := run_append hrun
    obtain ⟨next, hstep, hsame⟩ := Option.bind_eq_some_iff.1 hlast
    cases hsame
    have changes := changes_step hstep
    have hkeeps : ∀ request, earlier.arrived[n]? = some request → h.arrived[n]? = some request := by
      intro request hn
      rw [arrived_step hstep, List.getElem?_append_left (List.getElem?_eq_some_iff.1 hn).1, hn]
    have hbefore : (.answer n f ∈ earlier.output ∨ earlier.main = .replying n f) ∨
        (action = .handle ∧ ∃ request, earlier.main = .answering n request ∧
          (runtime.respond earlier.runtime request).2 = f) := by
      rcases hf with hwritten | hdue
      · obtain ⟨added, hadded, -, hanswers⟩ := changes.output
        rw [hadded, List.mem_append] at hwritten
        exact Or.inl (hwritten.imp_right (hanswers n f))
      · exact (changes.due n f hdue).imp_left Or.inr
    rcases hbefore with hknown | ⟨rfl, request, hmain, hcomputed⟩
    · obtain ⟨request, hn, hcomputed⟩ := ih hearlier hknown
      exact ⟨request, hkeeps request hn, hcomputed.later action⟩
    · have k := kept_of_run hearlier
      have htaken := k.ledger.hand
      rw [hmain] at htaken
      exact ⟨request, hkeeps request (k.numbered htaken), actions, [], earlier, rfl, hearlier, hmain,
        hcomputed⟩

/-! ## Every request is accounted for -/

theorem Kept.mem_taken {h : Helper ρ} (k : Kept runtime h) {n : ℕ} (hn : n ∈ h.queue.taken.map Prod.fst) :
    h.Answered n ∨ h.failed = some n ∨ n ∈ inHand h.main := by
  rw [k.ledger.taken] at hn
  rcases List.mem_append.1 hn with hanswered | hn
  · exact Or.inl hanswered
  rcases List.mem_append.1 hn with hfailed | hhand
  · exact Or.inr (Or.inl (Option.mem_toList.1 hfailed))
  · exact Or.inr (Or.inr hhand)

/-- The request has left the queue without being taken. -/
def Dropped (h : Helper ρ) (n : ℕ) : Prop :=
  n < h.arrived.length ∧ n ∉ (h.queue.taken ++ h.queue.waiting).map Prod.fst

theorem Dropped.step {h next : Helper ρ} {action : Action ρ} {n : ℕ} (hdropped : h.Dropped n)
    (hstep : h.step runtime action = some next) : next.Dropped n := by
  obtain ⟨hlt, hgone⟩ := hdropped
  refine ⟨?_, ?_⟩
  · rw [arrived_step hstep, List.length_append]
    omega
  rcases (changes_step hstep).queue with ⟨-, hqueue⟩ | ⟨request, -, hqueue⟩ | ⟨-, first, hpop⟩
  · rwa [hqueue]
  · obtain ⟨kept, hwaiting, hkept⟩ := Coalescing.push_waiting_sublist isRender h.queue request
    have hsub : (h.queue.taken ++ kept).map Prod.fst ⊆ (h.queue.taken ++ h.queue.waiting).map Prod.fst :=
      (((List.Sublist.refl _).append hkept).map Prod.fst).subset
    rw [hqueue, hwaiting, ← List.append_assoc, List.map_append, List.mem_append]
    rintro (hold | hnew)
    · exact hgone (hsub hold)
    · rw [List.map_singleton, List.mem_singleton] at hnew
      exact absurd hlt (by rw [hnew]; exact Nat.lt_irrefl _)
  · obtain ⟨rest, hwaiting, hqueue⟩ := Coalescing.pop_eq_some hpop
    rw [hqueue]
    dsimp only
    rwa [List.append_assoc, List.singleton_append, ← hwaiting]

theorem Dropped.run {h final : Helper ρ} {actions : List (Action ρ)} {n : ℕ} (hdropped : h.Dropped n)
    (hrun : h.run runtime actions = some final) : final.Dropped n := by
  induction actions generalizing h with
  | nil =>
    cases hrun
    exact hdropped
  | cons action rest ih =>
    obtain ⟨next, hstep, hrest⟩ := Option.bind_eq_some_iff.1 hrun
    exact ih (hdropped.step hstep) hrest

theorem Kept.not_answered {h : Helper ρ} (k : Kept runtime h) {n : ℕ} (hdropped : h.Dropped n) :
    ¬h.Answered n := by
  intro hanswered
  apply hdropped.2
  rw [List.map_append, k.ledger.taken]
  exact List.mem_append_left _ (List.mem_append_left _ hanswered)

theorem Kept.accounts {h : Helper ρ} (k : Kept runtime h) {n : ℕ} {request : Frame}
    (hn : h.arrived[n]? = some request) :
    h.Answered n ∨ h.Owes n ∨ h.failed = some n ∨
      (Coalescing.Superseded isRender h.arrived n ∧ h.Dropped n) := by
  by_cases hthere : n ∈ (h.queue.taken ++ h.queue.waiting).map Prod.fst
  · rw [List.map_append, List.mem_append] at hthere
    rcases hthere with htaken | hwaits
    · rcases k.mem_taken htaken with hanswered | hfailed | hhand
      · exact Or.inl hanswered
      · exact Or.inr (Or.inr (Or.inl hfailed))
      · exact Or.inr (Or.inl (Or.inl hhand))
    · exact Or.inr (Or.inl (Or.inr hwaits))
  · have hsuperseded := (k.ledger.accounted.complete n request hn).resolve_left
      fun hmem => hthere (List.mem_map_of_mem (f := Prod.fst) hmem)
    exact Or.inr (Or.inr (Or.inr ⟨hsuperseded, (List.getElem?_eq_some_iff.1 hn).1, hthere⟩))

theorem Kept.answers_rising {h : Helper ρ} (k : Kept runtime h) :
    (h.answers.map Prod.fst).Pairwise (· < ·) := by
  have hrising := (List.pairwise_append.1 k.ledger.accounted.rising).1
  have htaken : (h.queue.taken.map Prod.fst).Pairwise (· < ·) := List.pairwise_map.2 hrising
  rw [k.ledger.taken] at htaken
  exact (List.pairwise_append.1 htaken).1

/-- In every order of the steps, the responses are to requests that have come, in the order in which
they have come and none twice. A request without a response is still to be answered, or is the one
whose response could not be written, or was superseded by a later render request while it waited, and
then it is never answered. -/
theorem answers_in_order {h : Helper ρ} {r : ρ} {actions : List (Action ρ)}
    (hrun : (start r).run runtime actions = some h) :
    h.arrived = actions.filterMap Action.request? ∧
    (h.answers.map Prod.fst).Pairwise (· < ·) ∧
    (∀ e ∈ h.answers, ∃ request, h.arrived[e.1]? = some request ∧ runtime.Gives request e.2 ∧
      Responds request e.2) ∧
    ∀ n request, h.arrived[n]? = some request →
      h.Answered n ∨ h.Owes n ∨ h.failed = some n ∨
        (Coalescing.Superseded isRender h.arrived n ∧
          ∀ more final, h.run runtime more = some final → ¬final.Answered n) := by
  have k := kept_of_run hrun
  refine ⟨?_, k.answers_rising, ?_, fun n request hn => ?_⟩
  · rw [arrived_run hrun]
    rfl
  · intro e he
    obtain ⟨request, htaken, hgives⟩ := k.ledger.fits e he
    exact ⟨request, k.numbered htaken, hgives, hgives.responds⟩
  · refine (k.accounts hn).imp_right (Or.imp_right (Or.imp_right fun h => ⟨h.1, ?_⟩))
    exact fun more final hmore => (kept_run k hmore).not_answered (h.2.run hmore)

/-- Draws nothing and answers at once. -/
def quietRuntime : Runtime Unit where
  helloJson := fun _ => []
  render := fun r _ => (r, .ok ([], []))
  applyNativeRequest := fun r _ => (r, .ok ())
  showNativeWindow := id
  hideNativeWindow := id
  nativeStateJson := fun _ _ => []

/-- A greeting, and two render requests of which the second comes before the first is taken. -/
def twoRenders : List (Action Unit) :=
  [.receive ⟨MessageKind.hello, 5, [], []⟩, .signal, .wake, .take,
    .receive ⟨MessageKind.renderPreview, 6, [], []⟩, .signal, .handle,
    .receive ⟨MessageKind.renderPreview, 7, [], []⟩, .reply, .signal]

theorem answers_in_order_two_renders : ∃ h : Helper Unit,
    (start ()).run quietRuntime twoRenders = some h ∧ h.arrived.length = 3 ∧
      (h.answers.map Prod.fst).Pairwise (· < ·) ∧
      ∀ n request, h.arrived[n]? = some request →
        h.Answered n ∨ h.Owes n ∨ h.failed = some n ∨
          (Coalescing.Superseded isRender h.arrived n ∧
            ∀ more final, h.run quietRuntime more = some final → ¬final.Answered n) := by
  refine ⟨_, rfl, rfl, ?_⟩
  have hlaw := answers_in_order (r := ()) (rfl : (start ()).run quietRuntime twoRenders = some _)
  exact ⟨hlaw.2.1, hlaw.2.2.2⟩

/-! ## The steps that the two threads take by themselves -/

/-- A step of one of the threads, for which it waits for nothing outside. -/
def IsOwn : Action ρ → Prop
  | .signal | .wake | .take | .handle | .reply | .check => True
  | _ => False

def mainWork : Main → ℕ
  | .waiting => 0
  | .draining => 2
  | .answering _ _ => 4
  | .replying _ _ => 3
  | .checking => 1
  | .exited => 0

def readerWork : Reader → ℕ
  | .pushed => 4
  | .closed => 4
  | _ => 0

/-- A bound of the steps that can be taken before something comes from outside. -/
def work (h : Helper ρ) : ℕ :=
  readerWork h.reader + (if h.signaled then 3 else 0) + 3 * h.queue.waiting.length + mainWork h.main

theorem work_take {h : Helper ρ} (hmain : h.main = .draining) : h.take.work + 1 ≤ h.work := by
  unfold take
  cases hpop : h.queue.pop with
  | none => simp only [work, hmain, mainWork]; omega
  | some popped =>
    obtain ⟨⟨n, request⟩, queue⟩ := popped
    obtain ⟨rest, hwaiting, rfl⟩ := Coalescing.pop_eq_some hpop
    simp only [work, hmain, mainWork, hwaiting, List.length_cons]
    omega

theorem work_step {h next : Helper ρ} {action : Action ρ} (hown : IsOwn action)
    (hstep : h.step runtime action = some next) : next.work + 1 ≤ h.work := by
  have hcases := step_cases hstep
  cases action with
  | signal =>
    obtain ⟨hreader, rfl⟩ | ⟨hreader, rfl⟩ := hcases <;>
      (simp only [work, hreader, readerWork, if_true]; omega)
  | wake =>
    obtain ⟨⟨hmain, hsignaled⟩, rfl⟩ := hcases
    simp only [work, hmain, hsignaled, mainWork, if_true, Bool.false_eq_true, if_false]
    omega
  | take =>
    obtain ⟨hmain, rfl⟩ := hcases
    exact work_take hmain
  | handle =>
    obtain ⟨n, request, hmain, rfl⟩ := hcases
    change readerWork h.reader + (if h.signaled then 3 else 0) + 3 * h.queue.waiting.length + 3 + 1 ≤ _
    simp only [work, hmain, mainWork]
    omega
  | reply =>
    obtain ⟨n, response, hmain, rfl⟩ := hcases
    unfold reply
    split_ifs <;> simp only [work, hmain, mainWork] <;> omega
  | check =>
    obtain ⟨hmain, rfl⟩ := hcases
    unfold check
    split_ifs <;> simp only [work, hmain, mainWork] <;> omega
  | _ => exact hown.elim

theorem length_le_work {h final : Helper ρ} {own : List (Action ρ)} (hown : ∀ a ∈ own, IsOwn a)
    (hrun : h.run runtime own = some final) : own.length ≤ h.work := by
  induction own generalizing h with
  | nil => exact Nat.zero_le _
  | cons action rest ih =>
    obtain ⟨next, hstep, hrest⟩ := Option.bind_eq_some_iff.1 hrun
    have hless := work_step (hown action List.mem_cons_self) hstep
    have hlength := ih (fun a ha => hown a (List.mem_cons_of_mem _ ha)) hrest
    rw [List.length_cons]
    omega

/-- A helper that can take no step of its own is at rest. In particular it never waits for an event
that was already there. -/
theorem Kept.atRest {h : Helper ρ} (k : Kept runtime h)
    (hstuck : ∀ a : Action ρ, IsOwn a → h.step runtime a = none) : h.AtRest := by
  have hsignal := hstuck .signal trivial
  cases hmain : h.main with
  | exited => exact Or.inl hmain
  | waiting =>
    have hsignaled : h.signaled = false := by
      have hwake := hstuck .wake trivial
      by_contra hset
      simp [step, hmain, hset] at hwake
    refine Or.inr ⟨hmain, hsignaled, ?_⟩
    cases hreader : h.reader with
    | reading => rfl
    | pushed => simp [step, hreader] at hsignal
    | closed => simp [step, hreader] at hsignal
    | finished =>
      have hset := k.waking.finished hmain hreader
      rw [hsignaled] at hset
      cases hset
  | draining =>
    have htake := hstuck .take trivial
    simp [step, hmain] at htake
  | answering n request =>
    have hhandle := hstuck .handle trivial
    simp [step, hmain] at hhandle
  | replying n response =>
    have hreply := hstuck .reply trivial
    simp [step, hmain] at hreply
  | checking =>
    have hcheck := hstuck .check trivial
    simp [step, hmain] at hcheck

/-- The main thread has ended over the request or over something before it: its wait failed, a
response could not be written, or it was told to shut down. -/
def EndedBefore (h : Helper ρ) (n : ℕ) : Prop :=
  h.main = .exited ∧ (h.exitCode = 7 ∨ (∃ k ≤ n, h.failed = some k) ∨
    ∃ k < n, ∃ request, h.arrived[k]? = some request ∧ request.kind = MessageKind.shutdown)

/-- What was taken has come before what waits. -/
theorem Kept.taken_lt {h : Helper ρ} (k : Kept runtime h) {m n : ℕ} (hm : m ∈ h.queue.taken.map Prod.fst)
    (hn : n ∈ h.queue.waiting.map Prod.fst) : m < n := by
  obtain ⟨e, he, rfl⟩ := List.mem_map.1 hm
  obtain ⟨f, hf, rfl⟩ := List.mem_map.1 hn
  exact (List.pairwise_append.1 k.ledger.accounted.rising).2.2 e he f hf

theorem Kept.owes_nothing {h : Helper ρ} (k : Kept runtime h) (hrest : h.AtRest) {n : ℕ} (howes : h.Owes n) :
    h.EndedBefore n := by
  rcases hrest with hexited | ⟨hmain, hsignaled, hreader⟩
  · rw [Owes, hexited] at howes
    have hwaits : n ∈ h.queue.waiting.map Prod.fst := howes.resolve_left List.not_mem_nil
    have hwaiting : h.queue.waiting ≠ [] := fun hempty => by simp [hempty] at hwaits
    refine ⟨hexited, ?_⟩
    rcases k.waking.exits hexited with hclosed | hfailedWait | hstops
    · exact absurd hclosed.2 hwaiting
    · exact Or.inl hfailedWait
    · cases hfailed : h.failed with
      | none =>
        obtain ⟨e, he, hkind⟩ := k.stopping.told hstops hfailed
        have hearlier := k.taken_lt (List.mem_map_of_mem (f := Prod.fst) he) hwaits
        exact Or.inr (Or.inr ⟨e.1, hearlier, e.2, k.numbered he, hkind⟩)
      | some lost =>
        have htaken : lost ∈ h.queue.taken.map Prod.fst := by
          rw [k.ledger.taken, hfailed]
          simp
        exact Or.inr (Or.inl ⟨lost, Nat.le_of_lt (k.taken_lt htaken hwaits), rfl⟩)
  -- a waiting main thread with requests in the queue would have been woken
  · exfalso
    rw [Owes, hmain] at howes
    have hwaits : n ∈ h.queue.waiting.map Prod.fst := howes.resolve_left List.not_mem_nil
    have hwaiting : h.queue.waiting ≠ [] := fun hempty => by simp [hempty] at hwaits
    rcases k.waking.woken (Or.inl hmain) hwaiting with hset | hpushed | hstops
    · rw [hsignaled] at hset
      cases hset
    · rw [hreader] at hpushed
      cases hpushed
    · rw [k.stopping.waits hmain] at hstops
      cases hstops

/-- From every state that can be reached, the threads take a bounded number of steps of their own.
When they can take no more, each request has its response or was superseded by a later render
request, unless the helper has ended over it or over an earlier one. So every request that comes
before a shutdown is answered or superseded, if no wait and no write fails. -/
theorem requests_settle {h final : Helper ρ} {r : ρ} {actions own : List (Action ρ)}
    (hrun : (start r).run runtime actions = some h) (hown : ∀ a ∈ own, IsOwn a)
    (hgo : h.run runtime own = some final) :
    own.length ≤ h.work ∧
    ((∀ a : Action ρ, IsOwn a → final.step runtime a = none) →
      final.AtRest ∧ ∀ n request, final.arrived[n]? = some request →
        final.Answered n ∨ Coalescing.Superseded isRender final.arrived n ∨ final.EndedBefore n) := by
  have k := kept_run (kept_of_run hrun) hgo
  refine ⟨length_le_work hown hgo, fun hstuck => ⟨k.atRest hstuck, fun n request hn => ?_⟩⟩
  rcases k.accounts hn with hanswered | howes | hfailed | hsuperseded
  · exact Or.inl hanswered
  · exact Or.inr (Or.inr (k.owes_nothing (k.atRest hstuck) howes))
  · rcases k.atRest hstuck with hexited | ⟨hmain, -, -⟩
    · exact Or.inr (Or.inr ⟨hexited, Or.inr (Or.inl ⟨n, Nat.le_refl n, hfailed⟩)⟩)
    · have hnone := failed_eq_none_of_waiting k hmain
      rw [hfailed] at hnone
      cases hnone
  · exact Or.inr (Or.inl hsuperseded.1)

theorem requests_settle_two_renders : ∃ h : Helper Unit,
    (start ()).run quietRuntime (twoRenders ++ [.take, .handle, .reply, .take, .check, .wake, .take,
      .check]) = some h ∧ h.AtRest ∧ h.answers.map Prod.fst = [0, 2] ∧
      ∀ n request, h.arrived[n]? = some request →
        h.Answered n ∨ Coalescing.Superseded isRender h.arrived n ∨ h.EndedBefore n := by
  have hrun : (start ()).run quietRuntime twoRenders = some _ := rfl
  have hown : ∀ a ∈ [.take, .handle, .reply, .take, .check, .wake, .take, (.check : Action Unit)],
      IsOwn a := by simp [IsOwn]
  have hsettled := (requests_settle hrun hown rfl).2 ?_
  · exact ⟨_, rfl, hsettled.1, rfl, hsettled.2⟩
  intro a ha
  cases a with
  | signal => rfl
  | wake => rfl
  | take => rfl
  | handle => rfl
  | reply => rfl
  | check => rfl
  | _ => exact ha.elim

end Helper

end MacTypeControl.Preview
