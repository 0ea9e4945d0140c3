import MacTypeControl.Preview.Frames

/-!
# Requests to the preview helpers

The control center runs at most one helper for each engine. A helper is started when a request
needs it, a request has a new number, and its response is the next message of the channel in which
the reader of the helper puts what it reads.
-/

namespace MacTypeControl.Preview

inductive PreviewEngine where
  | mactype
  | plain
  deriving DecidableEq

structure HelloMetadata where
  protocolVersion : ℕ
  loadsMacType : Bool
  coreVersion : ℕ

def validHello (engine : PreviewEngine) (metadata : HelloMetadata) : Bool :=
  metadata.protocolVersion = version && match engine with
    | .mactype => metadata.coreVersion ≠ 0
    | .plain => !metadata.loadsMacType && metadata.coreVersion = 0

def diagnosticLimit : ℕ := 100

def pushDiagnostic {α : Type} (entries : List α) (entry : α) : List α :=
  (if entries.length = diagnosticLimit then entries.tail else entries) ++ [entry]

/-- What a process does from the sending of a request until its response or the end of the wait:
the error with which it takes the request, the frames it writes, the error that ends its output, and
the lines of its error output. -/
structure Turn where
  refusal : Option String
  frames : List Frame
  ending : Option String
  lines : List String

structure HelperProcess where
  number : ℕ
  responses : List (Except String Frame)
  readerEnded : Bool
  diagnostics : List String

structure EngineProcess where
  helper : Option HelperProcess
  installRoot : Option String
  coreVersion : Option ℕ

/-- What happens to the processes, which have numbers in the order of their start. A process is told
to end, and the answer to this is not in the log. -/
inductive Entry where
  | spawned (process : ℕ)
  | sent (process : ℕ) (frame : Frame)
  | output (process : ℕ) (frame : Frame)
  | killed (process : ℕ)

/-- What the manager does not decide. The starts, the turns and the ends that are waited for are
numbered by its clock. -/
structure Surroundings (σ : Type) where
  spawn : ℕ → Except String Unit
  turn : ℕ → Turn
  kill : ℕ → Except String Unit
  readHello : Bytes → Except String HelloMetadata
  readState : Bytes → Except String σ
  jsonText : Bytes → Except String String

/-- The manager, with a clock and a log of what has happened so far. -/
structure PreviewManager (σ : Type) where
  mactype : EngineProcess
  plain : EngineProcess
  nextRequestId : ℕ
  diagnostics : List (PreviewEngine × String)
  attached : Bool
  emitted : List σ
  clock : ℕ
  idsTaken : ℕ
  spawns : ℕ
  log : List Entry

namespace PreviewManager

variable {σ : Type}

def empty : PreviewManager σ where
  mactype := ⟨none, none, none⟩
  plain := ⟨none, none, none⟩
  nextRequestId := 0
  diagnostics := []
  attached := false
  emitted := []
  clock := 0
  idsTaken := 0
  spawns := 0
  log := []

def slot (m : PreviewManager σ) : PreviewEngine → EngineProcess
  | .mactype => m.mactype
  | .plain => m.plain

def setSlot (m : PreviewManager σ) (engine : PreviewEngine) (process : EngineProcess) :
    PreviewManager σ :=
  match engine with
  | .mactype => { m with mactype := process }
  | .plain => { m with plain := process }

/-- The number of the next request, which is not zero. -/
def nextId (m : PreviewManager σ) : PreviewManager σ :=
  { m with nextRequestId := max ((m.nextRequestId + 1) % 2 ^ 64) 1, idsTaken := m.idsTaken + 1 }

def recordDiagnostic (m : PreviewManager σ) (engine : PreviewEngine) (message : String) :
    PreviewManager σ :=
  { m with diagnostics := pushDiagnostic m.diagnostics (engine, message) }

def attachApp (m : PreviewManager σ) : PreviewManager σ := { m with attached := true }

variable (env : Surroundings σ)

def parseNativePreviewEvent (frame : Frame) : Except String σ :=
  if frame.kind ≠ MessageKind.nativePreviewState then
    .error s!"ignored unsolicited preview frame with kind {frame.kind}"
  else
    match env.readState frame.json with
    | .ok state => .ok state
    | .error error => .error s!"ignored malformed unsolicited native preview state: {error}"

/-- The event callback. -/
def onEvent (engine : PreviewEngine) (m : PreviewManager σ) (frame : Frame) : PreviewManager σ :=
  match parseNativePreviewEvent env frame with
  | .ok state => if m.attached then { m with emitted := m.emitted ++ [state] } else m
  | .error line => m.recordDiagnostic engine line

/-- The reader of a process: a frame without a number is an event, any other is put in the channel.
The reader ends with the first error. -/
def deliver (m : PreviewManager σ) (engine : PreviewEngine) (process : HelperProcess) (turn : Turn) :
    PreviewManager σ × HelperProcess :=
  let lines := turn.lines.foldl pushDiagnostic process.diagnostics
  if process.readerEnded then (m, { process with diagnostics := lines })
  else
    let m := (turn.frames.filter fun frame => frame.requestId = 0).foldl (onEvent env engine) m
    ({ m with log := m.log ++ turn.frames.map (Entry.output process.number) },
      { process with
        responses := process.responses ++
          ((turn.frames.filter fun frame => frame.requestId ≠ 0).map .ok ++
            turn.ending.toList.map .error)
        readerEnded := turn.ending.isSome
        diagnostics := lines })

/-- What is made of the next message of the channel. -/
def received (expectedId : ℕ) (readerEnded : Bool) :
    List (Except String Frame) → List (Except String Frame) × Except String Frame
  | [] => ([], .error (if readerEnded then "preview helper stopped before responding"
      else "preview helper did not respond within 2 seconds"))
  | .error error :: rest => (rest, .error error)
  | .ok response :: rest =>
    (rest,
      if response.requestId ≠ expectedId then .error "preview helper returned a mismatched request id"
      else if response.kind = MessageKind.error then
        match env.jsonText response.json with
        | .ok text => .error ("preview helper error: " ++ text)
        | .error error => .error error
      else .ok response)

/-- `HelperProcess::request`. -/
def request (m : PreviewManager σ) (engine : PreviewEngine) (process : HelperProcess) (frame : Frame) :
    PreviewManager σ × HelperProcess × Except String Frame :=
  if frame.tooLarge then (m, process, .error "preview request exceeds the size limit")
  else
    let turn := env.turn m.clock
    let m := { m with clock := m.clock + 1, log := m.log ++ [Entry.sent process.number frame] }
    let (m, process) := m.deliver env engine process turn
    match turn.refusal with
    | some error => (m, process, .error error)
    | none =>
      let (responses, result) := received env frame.requestId process.readerEnded process.responses
      (m, { process with responses := responses }, result)

/-- `HelperProcess::stop`. -/
def stopProcess (m : PreviewManager σ) (engine : PreviewEngine) (process : HelperProcess)
    (requestId : ℕ) : PreviewManager σ :=
  let (m, process, _) := m.request env engine process ⟨MessageKind.shutdown, requestId, [], []⟩
  { m with log := m.log ++ [Entry.killed process.number] }

def helloJson : Bytes :=
  "\x7b\"client\":\"mactype-control-center\",\"protocolVersion\":1\x7d".toList.map
    fun c => c.toNat.toUInt8

/-- A process that does not greet as it should is stopped again. -/
def abandon (m : PreviewManager σ) (engine : PreviewEngine) (process : HelperProcess) (error : String) :
    PreviewManager σ × Except String Unit :=
  let m := m.nextId
  (m.stopProcess env engine process m.nextRequestId, .error error)

def start (m : PreviewManager σ) (installRoot : String) (engine : PreviewEngine) :
    PreviewManager σ × Except String Unit :=
  match env.spawn m.clock with
  | .error error => ({ m with clock := m.clock + 1 }, .error error)
  | .ok () =>
    let process : HelperProcess := ⟨m.spawns, [], false, []⟩
    let m := { m with
      clock := m.clock + 1
      spawns := m.spawns + 1
      log := m.log ++ [Entry.spawned m.spawns] }
    let m := m.nextId
    let (m, process, result) :=
      m.request env engine process ⟨MessageKind.hello, m.nextRequestId, helloJson, []⟩
    match result with
    | .error error => m.abandon env engine process error
    | .ok hello =>
      if hello.kind ≠ MessageKind.helloAck then
        m.abandon env engine process "preview helper did not acknowledge the protocol"
      else
        match env.readHello hello.json with
        | .error error => m.abandon env engine process error
        | .ok metadata =>
          if validHello engine metadata then
            (m.setSlot engine ⟨some process, some installRoot, some metadata.coreVersion⟩, .ok ())
          else m.abandon env engine process "preview helper returned invalid core metadata"

def stopEngine (m : PreviewManager σ) (engine : PreviewEngine) : PreviewManager σ :=
  let m := m.nextId
  let id := m.nextRequestId
  match (m.slot engine).helper with
  | none => m.setSlot engine ⟨none, none, none⟩
  | some process =>
    let m := m.setSlot engine ⟨none, none, none⟩
    let m := process.diagnostics.foldl (fun m entry => m.recordDiagnostic engine entry) m
    m.stopProcess env engine process id

/-- Starts the helper of the engine unless it runs for this installation. -/
def ensure (m : PreviewManager σ) (installRoot : String) (engine : PreviewEngine) :
    PreviewManager σ × Except String Unit :=
  let slot := m.slot engine
  if slot.installRoot ≠ some installRoot ∨ slot.helper.isNone then
    (m.stopEngine env engine).start env installRoot engine
  else (m, .ok ())

/-- The attempts of `request_built`. -/
def attempts (installRoot : String) (engine : PreviewEngine) (kind : ℕ)
    (buildJson : ℕ → Except String Bytes) (m : PreviewManager σ) :
    List ℕ → PreviewManager σ × Except String Frame
  | [] => (m, .error "preview helper retry loop ended unexpectedly")
  | attempt :: rest =>
    match m.ensure env installRoot engine with
    | (m, .error error) => (m, .error error)
    | (m, .ok ()) =>
      let m := m.nextId
      match buildJson m.nextRequestId with
      | .error error => (m, .error error)
      | .ok json =>
        let slot := m.slot engine
        match slot.helper with
        | none => (m, .error "preview helper is unavailable after startup")
        | some process =>
          let (m, process, result) := m.request env engine process ⟨kind, m.nextRequestId, json, []⟩
          let m := m.setSlot engine { slot with helper := some process }
          match result with
          | .ok response => (m, .ok response)
          | .error error =>
            if attempt = 0 then
              attempts installRoot engine kind buildJson
                ((m.recordDiagnostic engine ("helper restart after request failure: " ++ error)).stopEngine
                  env engine) rest
            else (m, .error error)

def requestBuilt (m : PreviewManager σ) (installRoot : String) (engine : PreviewEngine) (kind : ℕ)
    (buildJson : ℕ → Except String Bytes) : PreviewManager σ × Except String Frame :=
  m.attempts env installRoot engine kind buildJson [0, 1]

def probeCoreVersion (m : PreviewManager σ) (installRoot : String) :
    PreviewManager σ × Except String ℕ :=
  match m.ensure env installRoot .mactype with
  | (m, .error error) => (m, .error error)
  | (m, .ok ()) =>
    match m.mactype.coreVersion with
    | some coreVersion => (m, .ok coreVersion)
    | none => (m, .error "preview helper did not report a core version")

def reconnect (m : PreviewManager σ) (installRoot : String) : PreviewManager σ × Except String ℕ :=
  (m.stopEngine env .mactype).probeCoreVersion env installRoot

def forceTerminateForCi (m : PreviewManager σ) : PreviewManager σ × Except String Unit :=
  match m.mactype.helper with
  | none => (m, .error "preview helper is not running")
  | some process =>
    ({ m with clock := m.clock + 1, log := m.log ++ [Entry.killed process.number] }, env.kill m.clock)

/-- What the control center asks of the manager. -/
inductive Call where
  | requestBuilt (installRoot : String) (engine : PreviewEngine) (kind : ℕ)
      (buildJson : ℕ → Except String Bytes)
  | probeCoreVersion (installRoot : String)
  | reconnect (installRoot : String)
  | stopEngine (engine : PreviewEngine)
  | forceTerminateForCi
  | attachApp

def answer (m : PreviewManager σ) : Call → PreviewManager σ
  | .requestBuilt installRoot engine kind buildJson =>
    (m.requestBuilt env installRoot engine kind buildJson).1
  | .probeCoreVersion installRoot => (m.probeCoreVersion env installRoot).1
  | .reconnect installRoot => (m.reconnect env installRoot).1
  | .stopEngine engine => m.stopEngine env engine
  | .forceTerminateForCi => (m.forceTerminateForCi env).1
  | .attachApp => m.attachApp

def session (m : PreviewManager σ) (calls : List Call) : PreviewManager σ := calls.foldl (answer env) m

end PreviewManager

end MacTypeControl.Preview
