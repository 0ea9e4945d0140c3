import Mathlib.Algebra.GroupWithZero.Nat
import Mathlib.Data.Int.Notation
import Mathlib.Tactic.Common

/-!
# The result of the injection helper

One request gives one result, which is printed as one line and repeated in the exit code.
-/

namespace MacTypeControl.Injector

structure BrokerRequest where
  processHandle : ℕ
  pid : ℕ
  expectedCreationTime : ℕ
  expectedSessionId : ℕ
  generationId : String
  deriving DecidableEq

inductive ResultStatus where
  | injected
  | skipped
  | rejected
  | failed
  | timedOut
  deriving DecidableEq

structure Result where
  status : ResultStatus
  code : String
  pid : ℕ
  sessionId : ℕ
  generationId : String
  module : String
  windowsError : ℕ
  cleanupComplete : Bool
  deriving DecidableEq

def makeResult (request : BrokerRequest) (status : ResultStatus) (code module : String)
    (windowsError : ℕ := 0) (cleanupComplete : Bool := true) : Result :=
  ⟨status, code, request.pid, request.expectedSessionId, request.generationId, module,
    windowsError, cleanupComplete⟩

def statusName : ResultStatus → String
  | .injected => "injected"
  | .skipped => "skipped"
  | .rejected => "rejected"
  | .failed => "failed"
  | .timedOut => "timeout"

def jsonText (result : Result) : String :=
  "\x7b\"schemaVersion\":1,\"status\":\"" ++ statusName result.status ++
    "\",\"code\":\"" ++ result.code ++
    "\",\"pid\":" ++ toString result.pid ++
    ",\"sessionId\":" ++ toString result.sessionId ++
    ",\"generationId\":\"" ++ result.generationId ++
    "\",\"module\":\"" ++ result.module ++
    "\",\"windowsError\":" ++ toString result.windowsError ++
    ",\"cleanupComplete\":" ++ (if result.cleanupComplete then "true\x7d" else "false\x7d")

def utf8 (text : String) : List UInt8 := text.toList.flatMap String.utf8EncodeChar

/-- There is no text for a result that is over the public bound. -/
def toJson (result : Result) : Except String String :=
  let json := jsonText result
  if 1024 < (utf8 json).length then .error "injector result exceeded its public bound" else .ok json

def exitCode : ResultStatus → ℤ
  | .injected => 0
  | .skipped => 0
  | .rejected => 2
  | .failed => 3
  | .timedOut => 4

end MacTypeControl.Injector
