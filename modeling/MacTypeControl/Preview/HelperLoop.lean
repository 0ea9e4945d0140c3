import MacTypeControl.Preview.Frames
import MacTypeControl.Queues.Coalescing

/-!
# The loop of the preview helper

A reader thread puts requests on a queue and sets an event. The main thread waits for the event or
for window messages, and answers the requests of the queue. The steps of the two threads come in
any order.
-/

namespace MacTypeControl.Preview

open Queues

def ascii (text : String) : Bytes := text.toList.map fun c => c.toNat.toUInt8

/-- What draws the previews. `ρ` is its state, the window and the messages for it included. -/
structure Runtime (ρ : Type) where
  helloJson : ρ → Bytes
  /-- A rendered preview is its json and its png. An error is its code and its message. -/
  render : ρ → Bytes → ρ × Except (String × Bytes) (Bytes × Bytes)
  applyNativeRequest : ρ → Bytes → ρ × Except Bytes Unit
  showNativeWindow : ρ → ρ
  hideNativeWindow : ρ → ρ
  nativeStateJson : ρ → Bool → Bytes

def errorFrame (requestId : ℕ) (code : String) (message : Bytes) : Frame :=
  let safe := message.map fun byte => if byte = 34 then 39 else byte
  ⟨MessageKind.error, requestId, ascii "\x7b\"code\":\"" ++ ascii code ++ ascii "\",\"message\":\"" ++ safe ++
    ascii "\",\"recoverable\":true\x7d", []⟩

namespace Runtime

variable {ρ : Type} (runtime : Runtime ρ)

def renderFrame (r : ρ) (request : Frame) : ρ × Frame :=
  match runtime.render r request.json with
  | (r, .error (code, message)) => (r, errorFrame request.requestId code message)
  | (r, .ok (json, png)) => (r, ⟨MessageKind.previewRendered, request.requestId, json, png⟩)

def showNativePreview (r : ρ) (request : Frame) (visible : Bool) : ρ × Frame :=
  let state (r : ρ) : ρ × Frame :=
    (r, ⟨MessageKind.nativePreviewState, request.requestId, runtime.nativeStateJson r visible, []⟩)
  if visible then
    match runtime.applyNativeRequest r request.json with
    | (r, .error error) => (r, errorFrame request.requestId "invalid_native_preview" error)
    | (r, .ok ()) => state (runtime.showNativeWindow r)
  else state (runtime.hideNativeWindow r)

/-- The response to a request. -/
def respond (r : ρ) (request : Frame) : ρ × Frame :=
  if request.kind = MessageKind.hello then (r, ⟨MessageKind.helloAck, request.requestId, runtime.helloJson r, []⟩)
  else if request.kind = MessageKind.renderPreview then runtime.renderFrame r request
  else if request.kind = MessageKind.showNativePreview then runtime.showNativePreview r request true
  else if request.kind = MessageKind.hideNativePreview then runtime.showNativePreview r request false
  else if request.kind = MessageKind.shutdown then
    (r, ⟨MessageKind.shutdown, request.requestId, ascii "\x7b\"shutdown\":true\x7d", []⟩)
  else
    (r, ⟨MessageKind.error, request.requestId,
      ascii "\x7b\"code\":\"unsupported_message\",\"recoverable\":true\x7d", []⟩)

end Runtime

/-- What the reader does next. -/
inductive Reader where
  | reading
  | pushed
  | closed
  | finished
  deriving DecidableEq

/-- What the main thread does next. A request keeps the number under which it came. -/
inductive Main where
  | waiting
  | draining
  | answering (n : ℕ) (request : Frame)
  | replying (n : ℕ) (response : Frame)
  | checking
  | exited
  deriving DecidableEq

/-- A frame of the output. -/
inductive Written where
  | event (frame : Frame)
  | answer (n : ℕ) (frame : Frame)
  deriving DecidableEq

def Written.answer? : Written → Option (ℕ × Frame)
  | .event _ => none
  | .answer n frame => some (n, frame)

/-- The two threads and what they share. `good` is the state of the output stream, and `failed` is
the request whose response could not be written. -/
structure Helper (ρ : Type) where
  queue : Coalescing Frame
  signaled : Bool
  inputClosed : Bool
  protocolFailed : Bool
  running : Bool
  reader : Reader
  main : Main
  runtime : ρ
  good : Bool
  output : List Written
  failed : Option ℕ
  exitCode : ℕ

/-- The steps of the reader, of the main thread, and of what surrounds them. -/
inductive Action (ρ : Type) where
  | receive (request : Frame)
  | closeInput (atEnd : Bool)
  | signal
  | breakOutput
  | pump (runtime : ρ) (events : List Bytes)
  | failWait
  | wake
  | take
  | handle
  | reply
  | check

def isRender (frame : Frame) : Bool := frame.kind = MessageKind.renderPreview

namespace Helper

variable {ρ : Type}

def start (r : ρ) : Helper ρ where
  queue := .empty
  signaled := false
  inputClosed := false
  protocolFailed := false
  running := true
  reader := .reading
  main := .waiting
  runtime := r
  good := true
  output := []
  failed := none
  exitCode := 0

/-- `write_frame` on the standard output. -/
def writes (h : Helper ρ) (frame : Frame) : Bool := !frame.tooLarge && h.good

/-- The state sink. -/
def emit (h : Helper ρ) (json : Bytes) : Helper ρ :=
  let event : Frame := ⟨MessageKind.nativePreviewState, 0, json, []⟩
  if h.writes event then { h with output := h.output ++ [.event event] }
  else { h with protocolFailed := true, signaled := true }

def receive (h : Helper ρ) (request : Frame) : Helper ρ :=
  { h with queue := h.queue.push isRender request, reader := .pushed }

def closeInput (h : Helper ρ) (atEnd : Bool) : Helper ρ :=
  { h with
    protocolFailed := h.protocolFailed || !atEnd
    inputClosed := true
    reader := .closed }

def pump (h : Helper ρ) (r : ρ) (events : List Bytes) : Helper ρ :=
  events.foldl emit { h with runtime := r }

def take (h : Helper ρ) : Helper ρ :=
  match h.queue.pop with
  | none => { h with main := .checking }
  | some ((n, request), queue) => { h with queue := queue, main := .answering n request }

def handle (runtime : Runtime ρ) (h : Helper ρ) (n : ℕ) (request : Frame) : Helper ρ :=
  let (r, response) := runtime.respond h.runtime request
  { h with
    runtime := r
    running := h.running && !decide (request.kind = MessageKind.shutdown)
    main := .replying n response }

def reply (h : Helper ρ) (n : ℕ) (response : Frame) : Helper ρ :=
  if h.writes response then
    { h with output := h.output ++ [.answer n response], main := .draining }
  else { h with exitCode := 4, running := false, failed := some n, main := .checking }

def check (h : Helper ρ) : Helper ρ :=
  if h.inputClosed ∧ h.queue.waiting = [] then
    { h with exitCode := if h.protocolFailed then 3 else h.exitCode, main := .exited }
  else { h with main := if h.running then .waiting else .exited }

/-- One step, if the thread whose step it is has come to it. -/
def step (runtime : Runtime ρ) (h : Helper ρ) : Action ρ → Option (Helper ρ)
  | .receive request => if h.reader = .reading then some (h.receive request) else none
  | .closeInput atEnd => if h.reader = .reading then some (h.closeInput atEnd) else none
  | .signal =>
    if h.reader = .pushed then some { h with signaled := true, reader := .reading }
    else if h.reader = .closed then some { h with signaled := true, reader := .finished }
    else none
  | .breakOutput => some { h with good := false }
  | .pump r events => if h.main = .waiting then some (h.pump r events) else none
  | .failWait => if h.main = .waiting then some { h with exitCode := 7, main := .exited } else none
  | .wake =>
    if h.main = .waiting ∧ h.signaled then some { h with signaled := false, main := .draining }
    else none
  | .take => if h.main = .draining then some h.take else none
  | .handle =>
    match h.main with
    | .answering n request => some (h.handle runtime n request)
    | _ => none
  | .reply =>
    match h.main with
    | .replying n response => some (h.reply n response)
    | _ => none
  | .check => if h.main = .checking then some h.check else none

def run (runtime : Runtime ρ) (h : Helper ρ) : List (Action ρ) → Option (Helper ρ)
  | [] => some h
  | action :: rest => (h.step runtime action).bind fun next => next.run runtime rest

/-- The requests by number, in the order in which they have come. -/
def arrived (h : Helper ρ) : List Frame := h.queue.pushed

/-- The responses in the output, each with the number of its request. -/
def answers (h : Helper ρ) : List (ℕ × Frame) := h.output.filterMap Written.answer?

/-- No thread has a step to take of its own accord. -/
def AtRest (h : Helper ρ) : Prop :=
  h.main = .exited ∨ (h.main = .waiting ∧ h.signaled = false ∧ h.reader = .reading)

end Helper

end MacTypeControl.Preview
