import MacTypeControl.Broker.TransferFrame

/-!
# Receiving a frame from a pipe

The pipe hands over the bytes that were sent in pieces of any size. A loop puts them together, takes
the total from the start of the frame, and decodes the frame once it has all of it.
-/

namespace MacTypeControl.Broker.Transfer

open Format

/-! ## Pipes -/

/-- A failure of the pipe, with the code of the system, and its text where the text is shown. -/
inductive PipeError where
  | peerExited
  | timedOut
  | peerCheck (code : ℤ)
  | io (code : ℤ) (text : String)
  | noProgress
  | cancel (code : ℤ)

def mapPipeError (error : PipeError) (operation noProgress : String) : String :=
  match error with
  | .peerExited => "the elevated broker exited while " ++ operation
  | .timedOut => operation ++ " timed out"
  | .peerCheck code =>
    "checking the elevated broker while " ++ operation ++ " failed with " ++ toString code
  | .io code _ => operation ++ " failed with " ++ toString code
  | .noProgress => noProgress
  | .cancel code => "cancelling the profile pipe operation failed with " ++ toString code

/-- How connecting ends, which process is at the other end, what it sends before it closes the pipe,
and what each read does: it fails, or it hands over so many bytes as far as they are there and were
asked for. A read after these runs into the deadline. -/
structure Pipe where
  connected : Except PipeError Unit
  process : Except ℤ UInt32
  sent : List UInt8
  reads : List (Except PipeError ℕ)

structure ProfileTransferToken where
  serverPid : UInt32
  nonce : Vector UInt8 16

/-! ## Transcripts -/

/-- A read: how much had been received, the total if it was known, the bytes asked for and got. -/
structure ReadCall where
  received : ℕ
  announced : Option ℕ
  asked : ℕ
  got : ℕ

inductive Outcome (α : Type) where
  | returned (value : α)
  | failed (error : String)
  | underflow

structure Transcript (α : Type) where
  calls : List ReadCall
  outcome : Outcome α

namespace Transcript

variable {α : Type}

def refused (error : String) : Transcript α := ⟨[], .failed error⟩

/-- How many bytes were read. -/
def received (run : Transcript α) : ℕ := (run.calls.map ReadCall.got).sum

end Transcript

/-! ## The loop -/

structure Receiver where
  format : Format
  chunk : ℕ
  chunk_pos : 0 < chunk
  operation : String
  noProgress : String
  oversized : String
  closed : String
  trailing : String

inductive Progress (α : Type) where
  | ended (outcome : Outcome α)
  | more (expectedTotal : Option ℕ)

/-- What is left to receive, unless it is negative. -/
def Format.remaining (format : Format) (expectedTotal : Option ℕ) (received : ℕ) : Option ℕ :=
  let total := expectedTotal.getD (headerBytes + format.maximum)
  if received ≤ total then some (total - received) else none

/-- The total, once enough of the frame is there to know it. -/
def Format.announce (format : Format) (expectedTotal : Option ℕ) (frame : List UInt8) :
    Except String (Option ℕ) :=
  if expectedTotal.isNone ∧ 12 ≤ frame.length then
    if ¬format.Starts frame then .error format.invalidHeader
    else
      let payloadLen := payloadLength frame
      if payloadLen = 0 ∨ format.maximum < payloadLen then .error format.invalidLength
      else .ok (some (headerBytes + payloadLen))
  else .ok expectedTotal

namespace Receiver

variable (receiver : Receiver) {α : Type} (decode : List UInt8 → Except String α)

def afterRead (frame : List UInt8) (expectedTotal : Option ℕ) : Progress α :=
  match receiver.format.announce expectedTotal frame with
  | .error error => .ended (.failed error)
  | .ok expectedTotal =>
    if expectedTotal.any (· < frame.length) then .ended (.failed receiver.trailing)
    else if expectedTotal = some frame.length then
      match decode frame with
      | .error error => .ended (.failed error)
      | .ok value => .ended (.returned value)
    else .more expectedTotal

def receiveFrom : (reads : List (Except PipeError ℕ)) → (frame : List UInt8) →
    (expectedTotal : Option ℕ) → (left : List UInt8) → Transcript α
  | reads, frame, expectedTotal, left =>
    match receiver.format.remaining expectedTotal frame.length with
    | none => ⟨[], .underflow⟩
    | some 0 => ⟨[], .failed receiver.oversized⟩
    | some remaining =>
      let asked := min remaining receiver.chunk
      let call (got : ℕ) : ReadCall := ⟨frame.length, expectedTotal, asked, got⟩
      let failed (error : PipeError) : Transcript α :=
        ⟨[call 0], .failed (mapPipeError error receiver.operation receiver.noProgress)⟩
      match reads with
      | [] => failed .timedOut
      | .error error :: _ => failed error
      | .ok count :: reads =>
        let chunk := left.take (min count asked)
        if chunk.isEmpty then ⟨[call 0], .failed receiver.closed⟩
        else
          match receiver.afterRead decode (frame ++ chunk) expectedTotal with
          | .ended outcome => ⟨[call chunk.length], outcome⟩
          | .more expectedTotal =>
            let later := receiveFrom reads (frame ++ chunk) expectedTotal (left.drop chunk.length)
            ⟨call chunk.length :: later.calls, later.outcome⟩

def receive (pipe : Pipe) : Transcript α := receiver.receiveFrom decode pipe.reads [] none pipe.sent

end Receiver

/-! ## The profile -/

def profileReceiver : Receiver where
  format := profileTransfer
  chunk := 64 * 1024
  chunk_pos := by decide
  operation := "receiving the profile pipe frame"
  noProgress := "reading the profile pipe made no progress"
  oversized := "the profile pipe frame exceeds the fixed size limit"
  closed := "the profile pipe closed before sending a complete frame"
  trailing := "profile transfer frame has trailing bytes"

def receiveProfileFromPipeBounded (sha256 : List UInt8 → Vector UInt8 32)
    (token : ProfileTransferToken) (timeout : ℕ) (pipe : Pipe) : Transcript (List UInt8) :=
  if token.serverPid = 0 ∨ timeout = 0 then
    .refused "the profile pipe token or timeout is invalid"
  else
    match pipe.connected with
    | .error .timedOut => .refused "connecting to the profile pipe timed out"
    | .error (.io _ text) => .refused text
    | .error other =>
      .refused (mapPipeError other "connecting to the profile pipe"
        "connecting to the profile pipe made no progress")
    | .ok () =>
      match pipe.process with
      | .error code =>
        .refused ("querying the profile pipe server failed with " ++ toString code)
      | .ok actualServerPid =>
        if actualServerPid ≠ token.serverPid then
          .refused "the profile pipe server PID does not match the broker token"
        else
          profileReceiver.receive
            (fun frame => decodeProfileTransferFrame sha256 frame token.nonce) pipe

/-! ## The result -/

def resultReceiver : Receiver where
  format := brokerResult
  chunk := 16 * 1024
  chunk_pos := by decide
  operation := "receiving the broker result frame"
  noProgress := "reading the broker result pipe made no progress"
  oversized := "the broker result frame exceeds the fixed size limit"
  closed := "the broker result pipe closed before sending a complete frame"
  trailing := "broker result frame has trailing bytes"

/-- `BrokerResultPipeServer::receive_from`. -/
def receiveResultFrom (sha256 : List UInt8 → Vector UInt8 32) (token : ProfileTransferToken)
    (expectedClientPid : UInt32) (timeout : ℕ) (pipe : Pipe) : Transcript BrokerResultMessage :=
  if expectedClientPid = 0 ∨ timeout = 0 then
    .refused "the broker result pipe peer or timeout is invalid"
  else
    match pipe.connected with
    | .error error =>
      .refused (mapPipeError error "waiting for the broker result pipe client"
        "connecting the broker result pipe made no progress")
    | .ok () =>
      match pipe.process with
      | .error code =>
        .refused ("querying the broker result pipe client failed with " ++ toString code)
      | .ok actualClientPid =>
        if actualClientPid ≠ expectedClientPid then
          .refused "the first broker result pipe client is not the elevated broker"
        else
          resultReceiver.receive
            (fun frame => decodeBrokerResultFrame sha256 frame token.nonce) pipe

end MacTypeControl.Broker.Transfer
