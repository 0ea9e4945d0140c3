import MacTypeControl.Injection.Orchestrator
import Mathlib.Algebra.Group.Int.Defs
import Mathlib.Data.List.Perm.Subperm

/-!
# The broker that starts the fixed helper

The helper prints one line and exits. `parseOutput` decides what the line is worth. The JSON
parser is a parameter, with the values it can return.
-/

namespace MacTypeControl.Host

open Injection

/-- A parsed JSON value. The parser keeps the last of several members of one name. -/
inductive JsonValue where
  | null
  | bool (value : Bool)
  | posInt (value : ℕ)
  | negInt (value : ℤ)
  | float (text : String)
  | string (value : String)
  | array (elements : List JsonValue)
  | object (members : List (String × JsonValue))

namespace JsonValue

def asObject : JsonValue → Option (List (String × JsonValue))
  | .object members => some members
  | _ => none

def asStr : JsonValue → Option String
  | .string value => some value
  | _ => none

def asU64 : JsonValue → Option ℕ
  | .posInt value => some value
  | _ => none

def asBool : JsonValue → Option Bool
  | .bool value => some value
  | _ => none

theorem asStr_eq_some {value : JsonValue} {text : String} :
    value.asStr = some text ↔ value = .string text := by
  cases value <;> simp [asStr]

theorem asU64_eq_some {value : JsonValue} {n : ℕ} : value.asU64 = some n ↔ value = .posInt n := by
  cases value <;> simp [asU64]

theorem asBool_eq_some {value : JsonValue} {b : Bool} :
    value.asBool = some b ↔ value = .bool b := by
  cases value <;> simp [asBool]

end JsonValue

/-- The components of a path. -/
abbrev RuntimePath := List String

structure ProtectedRuntimeAssets where
  root : RuntimePath
  injector32 : RuntimePath
  injector64 : RuntimePath
  generationId : String

structure HelperInvocation where
  executable : RuntimePath
  target : ProcessIdentity
  generationId : String
  timeout : ℕ

structure HelperOutput where
  exitCode : ℤ
  stdout : List UInt8

inductive HelperLaunchStage where
  | beforeResume
  | afterResume
  deriving DecidableEq

inductive ErrorKind where
  | interrupted
  | timedOut
  | other
  deriving DecidableEq

structure HelperLaunchError where
  stage : HelperLaunchStage
  kind : ErrorKind
  rawOsError : Option ℤ

inductive FixedModuleState where
  | loaded
  | absent
  | unknown
  deriving DecidableEq

structure HelperBrokerFailed where
  architecture : ProcessArchitecture
  code : String
  detail : Option String

/-- The broker over a world in which helpers are started and events recorded. -/
structure FixedHelperBroker (ω : Type) where
  assets : ProtectedRuntimeAssets
  launch : ω → HelperInvocation → Except HelperLaunchError HelperOutput × ω
  fixedModuleState : ω → ProcessIdentity → RuntimePath → FixedModuleState × ω
  record : ω → HelperBrokerFailed → ω

def helperTimeout : ℕ := seconds 20

def maxHelperOutputBytes : ℕ := 1024

def moduleAlreadyLoadedCode : String := "module-already-loaded"

def expectedModule : ProcessArchitecture → String
  | .x86 => "MacType.dll"
  | .x64 => "MacType64.dll"

def invalidResponse (code : String) (win32Error : Option ℕ) : BrokerResult :=
  ⟨.retryableFailure, code, win32Error⟩

def isCleanupUnknown (code : String) : Bool := "-cleanup-unknown".toList.isSuffixOf code.toList

/-- What a status stands for, and the exit code that goes with it. -/
def expectedExit (status : Option String) (code : String) : Option (BrokerDisposition × ℤ) :=
  match status with
  | some "injected" => some (.injected, 0)
  | some "skipped" => if code = "process-frozen" then some (.targetFrozen, 0) else some (.skipped, 0)
  | some "rejected" => some (.rejected, 2)
  | some "failed" => some (.retryableFailure, 3)
  | some "timeout" => some (.retryableFailure, 4)
  | _ => none

/-- The members that must be those of the request. -/
def answersRequest (request : InjectionRequest) (object : List (String × JsonValue)) : Bool :=
  (object.lookup "schemaVersion").bind JsonValue.asU64 == some 1 &&
    (object.lookup "pid").bind JsonValue.asU64 == some request.identity.pid &&
    (object.lookup "sessionId").bind JsonValue.asU64 == some request.identity.sessionId &&
    (object.lookup "generationId").bind JsonValue.asStr == some request.generationId &&
    (object.lookup "module").bind JsonValue.asStr ==
      some (expectedModule request.identity.architecture) &&
    ((object.lookup "windowsError").bind JsonValue.asU64).any (· ≤ 2 ^ 32 - 1) &&
    ((object.lookup "cleanupComplete").bind JsonValue.asBool).isSome

/-- The result of a well-formed response with the given code. -/
def reportedResult (object : List (String × JsonValue)) (code : String)
    (disposition : BrokerDisposition) : BrokerResult :=
  let cleanup := (object.lookup "cleanupComplete").bind JsonValue.asBool
  let windowsError := (object.lookup "windowsError").bind JsonValue.asU64
  { disposition := if cleanup = some false then .rejected else disposition
    code :=
      if cleanup = some false then
        if isCleanupUnknown code then code else "helper-reported-cleanup-unknown"
      else code
    win32Error := windowsError.filter (· ≠ 0) }

def parseObject (request : InjectionRequest) (exitCode : ℤ) (object : List (String × JsonValue)) :
    BrokerResult :=
  match ((object.lookup "code").bind JsonValue.asStr).filter (!·.isEmpty) with
  | none => invalidResponse "helper-response-invalid" none
  | some code =>
    if !answersRequest request object then invalidResponse "helper-response-invalid" none
    else match expectedExit ((object.lookup "status").bind JsonValue.asStr) code with
      | none => invalidResponse "helper-response-invalid" none
      | some (disposition, expected) =>
        if exitCode ≠ expected then invalidResponse "helper-exit-mismatch" none
        else reportedResult object code disposition

def parseOutput (fromSlice : List UInt8 → Option JsonValue) (request : InjectionRequest)
    (output : HelperOutput) : BrokerResult :=
  if maxHelperOutputBytes < output.stdout.length then
    invalidResponse "helper-response-too-large" none
  else match (fromSlice output.stdout).bind JsonValue.asObject with
    | none => invalidResponse "helper-response-invalid" none
    | some object =>
      if object.length = 9 then parseObject request output.exitCode object
      else invalidResponse "helper-response-invalid" none

/-- The code of the system as the unsigned word it is reported as. -/
def HelperLaunchError.win32Error (error : HelperLaunchError) : Option ℕ :=
  error.rawOsError.map fun code => (code % 2 ^ 32).toNat

def launchFailure (error : HelperLaunchError) : BrokerResult :=
  if error.stage = .beforeResume ∧ error.kind = .interrupted then
    ⟨.cancelled, "helper-cancelled-service-stop", error.win32Error⟩
  else if error.stage = .beforeResume then
    ⟨.launchFailed, "helper-launch-failed-before-resume", error.win32Error⟩
  else
    ⟨.rejected,
      match error.kind with
      | .interrupted => "helper-service-stop-cleanup-unknown"
      | .timedOut => "helper-absolute-timeout-cleanup-unknown"
      | .other => "helper-launch-failed-cleanup-unknown",
      error.win32Error⟩

namespace FixedHelperBroker

variable {ω : Type}

def invocation (broker : FixedHelperBroker ω) (request : InjectionRequest) : HelperInvocation where
  executable := match request.identity.architecture with
    | .x86 => broker.assets.injector32
    | .x64 => broker.assets.injector64
  target := request.identity
  generationId := request.generationId
  timeout := helperTimeout

def fixedModule (broker : FixedHelperBroker ω) (architecture : ProcessArchitecture) :
    RuntimePath :=
  broker.assets.root ++ [expectedModule architecture]

/-- A result that cannot be relied on is recorded as a failure of the broker. -/
def recordFailure (broker : FixedHelperBroker ω) (request : InjectionRequest)
    (result : BrokerResult) (world : ω) : ω :=
  if isCleanupUnknown result.code ∨ result.code ∈ ["helper-response-invalid",
      "helper-response-too-large", "helper-exit-mismatch"] then
    broker.record world ⟨request.identity.architecture, result.code,
      some ("pid=" ++ toString request.identity.pid ++ " creation_time=" ++
        toString request.identity.creationTime ++ " win32=" ++
        match result.win32Error with
        | none => "None"
        | some code => "Some(" ++ toString code ++ ")")⟩
  else world

def inject (fromSlice : List UInt8 → Option JsonValue) (broker : FixedHelperBroker ω) (world : ω)
    (request : InjectionRequest) : BrokerResult × ω :=
  if request.generationId ≠ broker.assets.generationId then
    (invalidResponse "runtime-generation-mismatch" none, world)
  else
    let module := broker.fixedModule request.identity.architecture
    let (state, world) := broker.fixedModuleState world request.identity module
    if state = .loaded then (⟨.skipped, moduleAlreadyLoadedCode, none⟩, world)
    else
      let (answer, world) := broker.launch world (broker.invocation request)
      let result := match answer with
        | .ok output => parseOutput fromSlice request output
        | .error error => launchFailure error
      (result, broker.recordFailure request result world)

end FixedHelperBroker

/-! ## What a trusted answer rests on -/

def protocolFields : List String :=
  ["schemaVersion", "status", "code", "pid", "sessionId", "generationId", "module",
    "windowsError", "cleanupComplete"]

/-- The response is one object with the nine fields of the protocol and no other, made for this
request. -/
structure Tied (fromSlice : List UInt8 → Option JsonValue) (request : InjectionRequest)
    (output : HelperOutput) (status code : String) (windowsError : ℕ) (cleanupComplete : Bool) :
    Prop where
  size : output.stdout.length ≤ maxHelperOutputBytes
  object : ∃ members, fromSlice output.stdout = some (.object members) ∧
    (members.map Prod.fst).Perm protocolFields ∧
    members.lookup "schemaVersion" = some (.posInt 1) ∧
    members.lookup "status" = some (.string status) ∧
    members.lookup "code" = some (.string code) ∧
    members.lookup "pid" = some (.posInt request.identity.pid) ∧
    members.lookup "sessionId" = some (.posInt request.identity.sessionId) ∧
    members.lookup "generationId" = some (.string request.generationId) ∧
    members.lookup "module" = some (.string (expectedModule request.identity.architecture)) ∧
    members.lookup "windowsError" = some (.posInt windowsError) ∧
    members.lookup "cleanupComplete" = some (.bool cleanupComplete)
  code_nonempty : code.isEmpty = false
  windowsError_le : windowsError ≤ 2 ^ 32 - 1

/-- A response that vouches for its result: it is tied to the request, its status goes with the exit
code, and the cleanup is complete. -/
def Vouched (fromSlice : List UInt8 → Option JsonValue) (request : InjectionRequest)
    (output : HelperOutput) (disposition : BrokerDisposition) : Prop :=
  ∃ status code windowsError, Tied fromSlice request output status code windowsError true ∧
    expectedExit (some status) code = some (disposition, output.exitCode)

/-- The results that the host makes of a response it does not trust. -/
def IsUntrusted (result : BrokerResult) : Prop :=
  (result.disposition = .rejected ∧ isCleanupUnknown result.code = true) ∨
    (result.disposition = .retryableFailure ∧ result.code ∈ ["helper-response-invalid",
      "helper-response-too-large", "helper-exit-mismatch"])

theorem isUntrusted_invalidResponse {code : String} (win32Error : Option ℕ)
    (h : code ∈ ["helper-response-invalid", "helper-response-too-large", "helper-exit-mismatch"]) :
    IsUntrusted (invalidResponse code win32Error) :=
  Or.inr ⟨rfl, h⟩

/-- Nine members in which all nine fields are found are these fields and no other. -/
theorem perm_protocolFields {members : List (String × JsonValue)} (hlength : members.length = 9)
    (hfound : ∀ field ∈ protocolFields, ∃ value, members.lookup field = some value) :
    (members.map Prod.fst).Perm protocolFields := by
  have hnodup : protocolFields.Nodup := by decide
  have hsub : protocolFields ⊆ members.map Prod.fst := by
    intro field hfield
    obtain ⟨value, hvalue⟩ := hfound field hfield
    obtain ⟨before, after, hmembers, -⟩ := List.lookup_eq_some_iff.1 hvalue
    rw [hmembers]
    simp
  have hperm := (hnodup.subperm hsub).perm_of_length_le (by simp [hlength, protocolFields])
  exact hperm.symm

theorem bind_lookup_eq_some {α : Type} {object : List (String × JsonValue)} {field : String}
    {read : JsonValue → Option α} {a : α} (h : (object.lookup field).bind read = some a) :
    ∃ value, object.lookup field = some value ∧ read value = some a :=
  Option.bind_eq_some_iff.1 h

/-- A string member is found under its name. -/
theorem lookup_of_asStr {object : List (String × JsonValue)} {field text : String}
    (h : (object.lookup field).bind JsonValue.asStr = some text) :
    object.lookup field = some (.string text) := by
  obtain ⟨value, hlookup, hread⟩ := bind_lookup_eq_some h
  rw [hlookup, JsonValue.asStr_eq_some.1 hread]

theorem lookup_of_asU64 {object : List (String × JsonValue)} {field : String} {n : ℕ}
    (h : (object.lookup field).bind JsonValue.asU64 = some n) :
    object.lookup field = some (.posInt n) := by
  obtain ⟨value, hlookup, hread⟩ := bind_lookup_eq_some h
  rw [hlookup, JsonValue.asU64_eq_some.1 hread]

theorem lookup_of_asBool {object : List (String × JsonValue)} {field : String} {b : Bool}
    (h : (object.lookup field).bind JsonValue.asBool = some b) :
    object.lookup field = some (.bool b) := by
  obtain ⟨value, hlookup, hread⟩ := bind_lookup_eq_some h
  rw [hlookup, JsonValue.asBool_eq_some.1 hread]

theorem status_of_expectedExit {status : Option String} {code : String}
    {expected : BrokerDisposition × ℤ} (h : expectedExit status code = some expected) :
    ∃ text, status = some text := by
  cases status with
  | none => cases h
  | some text => exact ⟨text, rfl⟩

variable {fromSlice : List UInt8 → Option JsonValue} {request : InjectionRequest}
  {output : HelperOutput}

/-- The checks of the members leave nothing of the protocol open. -/
theorem tied_of_answersRequest {members : List (String × JsonValue)} {status code : String}
    (hsize : output.stdout.length ≤ maxHelperOutputBytes)
    (hobject : fromSlice output.stdout = some (.object members)) (hlength : members.length = 9)
    (hstatus : members.lookup "status" = some (.string status))
    (hcode : members.lookup "code" = some (.string code)) (hnonempty : code.isEmpty = false)
    (hanswers : answersRequest request members = true) :
    ∃ windowsError cleanupComplete,
      Tied fromSlice request output status code windowsError cleanupComplete ∧
      (members.lookup "cleanupComplete").bind JsonValue.asBool = some cleanupComplete := by
  simp only [answersRequest, Bool.and_eq_true, beq_iff_eq, Option.any_eq_true,
    Option.isSome_iff_exists, decide_eq_true_eq] at hanswers
  obtain ⟨⟨⟨⟨⟨⟨hschema, hpid⟩, hsession⟩, hgeneration⟩, hmodule⟩, windowsError, hwindows, hword⟩,
    cleanupComplete, hcleanup⟩ := hanswers
  have hschema := lookup_of_asU64 hschema
  have hpid := lookup_of_asU64 hpid
  have hsession := lookup_of_asU64 hsession
  have hgeneration := lookup_of_asStr hgeneration
  have hmodule := lookup_of_asStr hmodule
  have hwindows := lookup_of_asU64 hwindows
  have hperm : (members.map Prod.fst).Perm protocolFields := by
    refine perm_protocolFields hlength fun field hfield => ?_
    simp only [protocolFields, List.mem_cons, List.not_mem_nil, or_false] at hfield
    rcases hfield with rfl | rfl | rfl | rfl | rfl | rfl | rfl | rfl | rfl
    · exact ⟨_, hschema⟩
    · exact ⟨_, hstatus⟩
    · exact ⟨_, hcode⟩
    · exact ⟨_, hpid⟩
    · exact ⟨_, hsession⟩
    · exact ⟨_, hgeneration⟩
    · exact ⟨_, hmodule⟩
    · exact ⟨_, hwindows⟩
    · exact ⟨_, lookup_of_asBool hcleanup⟩
  exact ⟨windowsError, cleanupComplete, ⟨hsize, ⟨members, hobject, hperm, hschema, hstatus, hcode,
    hpid, hsession, hgeneration, hmodule, hwindows, lookup_of_asBool hcleanup⟩, hnonempty, hword⟩,
    hcleanup⟩

/-- A response is refused with one of three codes, or it is tied to the request and reported. -/
theorem parseOutput_cases (fromSlice : List UInt8 → Option JsonValue) (request : InjectionRequest)
    (output : HelperOutput) :
    IsUntrusted (parseOutput fromSlice request output) ∨
      ∃ status code windowsError cleanupComplete disposition,
        Tied fromSlice request output status code windowsError cleanupComplete ∧
        expectedExit (some status) code = some (disposition, output.exitCode) ∧
        (parseOutput fromSlice request output).disposition =
          (if cleanupComplete = false then .rejected else disposition) ∧
        (cleanupComplete = false →
          isCleanupUnknown (parseOutput fromSlice request output).code = true) := by
  unfold parseOutput
  split
  · exact Or.inl (isUntrusted_invalidResponse none (by simp))
  next hsize =>
  split
  · exact Or.inl (isUntrusted_invalidResponse none (by simp))
  next object hobject =>
  split
  case isFalse => exact Or.inl (isUntrusted_invalidResponse none (by simp))
  next hlength =>
  unfold parseObject
  split
  · exact Or.inl (isUntrusted_invalidResponse none (by simp))
  next code hcode =>
  split
  · exact Or.inl (isUntrusted_invalidResponse none (by simp))
  next hanswers =>
  split
  · exact Or.inl (isUntrusted_invalidResponse none (by simp))
  next disposition expected hexpected =>
  split
  · exact Or.inl (isUntrusted_invalidResponse none (by simp))
  next hexit =>
  right
  obtain ⟨members, hparsed, hmembers⟩ := Option.bind_eq_some_iff.1 hobject
  have hvalue : fromSlice output.stdout = some (.object object) := by
    cases members <;> simp_all [JsonValue.asObject]
  obtain ⟨hcode, hnonempty⟩ := Option.filter_eq_some_iff.1 hcode
  obtain ⟨status, hstatus⟩ := status_of_expectedExit hexpected
  rw [hstatus, ← Decidable.not_not.1 hexit] at hexpected
  obtain ⟨windowsError, cleanupComplete, htied, hcleanup⟩ := tied_of_answersRequest
    (Nat.le_of_not_lt hsize) hvalue hlength (lookup_of_asStr hstatus) (lookup_of_asStr hcode)
    (by simpa using hnonempty) (by simpa using hanswers)
  refine ⟨status, code, windowsError, cleanupComplete, disposition, htied, hexpected, ?_, ?_⟩
  · simp [reportedResult, hcleanup]
  · rintro rfl
    unfold reportedResult
    rw [hcleanup]
    dsimp only
    rw [if_pos rfl]
    by_cases hown : isCleanupUnknown code = true
    · rw [if_pos hown]
      exact hown
    · rw [if_neg hown]
      decide

theorem expectedExit_ne_cancelled (status : Option String) (code : String) (expected : ℤ) :
    expectedExit status code ≠ some (.cancelled, expected) := by
  unfold expectedExit
  split
  case h_2 => split <;> simp
  all_goals simp

/-- No response of a helper cancels an attempt. -/
theorem parseOutput_ne_cancelled (fromSlice : List UInt8 → Option JsonValue)
    (request : InjectionRequest) (output : HelperOutput) :
    (parseOutput fromSlice request output).disposition ≠ .cancelled := by
  rcases parseOutput_cases fromSlice request output with huntrusted |
    ⟨status, code, windowsError, cleanupComplete, disposition, -, hexpected, hresult, -⟩
  · rcases huntrusted with ⟨hrejected, -⟩ | ⟨hfailed, -⟩
    · simp [hrejected]
    · simp [hfailed]
  · rw [hresult]
    split
    · simp
    · rintro rfl
      exact expectedExit_ne_cancelled _ _ _ hexpected

/-- Injected, skipped and frozen are only reported on the word of a response that is tied to the
request and vouches for a complete cleanup. -/
theorem vouched_of_trusted (fromSlice : List UInt8 → Option JsonValue) (request : InjectionRequest)
    (output : HelperOutput) (h : (parseOutput fromSlice request output).disposition ∈
      [.injected, .skipped, .targetFrozen]) :
    Vouched fromSlice request output (parseOutput fromSlice request output).disposition := by
  rcases parseOutput_cases fromSlice request output with huntrusted |
    ⟨status, code, windowsError, cleanupComplete, disposition, htied, hexpected, hresult, -⟩
  · rcases huntrusted with ⟨hrejected, -⟩ | ⟨hfailed, -⟩
    · rw [hrejected] at h
      simp at h
    · rw [hfailed] at h
      simp at h
  · cases cleanupComplete with
    | false =>
      rw [hresult, if_pos rfl] at h
      simp at h
    | true =>
      have hsame : (parseOutput fromSlice request output).disposition = disposition := by
        rw [hresult]
        exact if_neg (by decide)
      rw [hsame]
      exact ⟨status, code, windowsError, htied, hexpected⟩

/-- A response that does not vouch for any result is not trusted. -/
theorem isUntrusted_of_not_vouched (h : ∀ disposition, ¬Vouched fromSlice request output disposition) :
    IsUntrusted (parseOutput fromSlice request output) := by
  rcases parseOutput_cases fromSlice request output with huntrusted |
    ⟨status, code, windowsError, cleanupComplete, disposition, htied, hexpected, hresult, hcode⟩
  · exact huntrusted
  · cases cleanupComplete with
    | false =>
      rw [if_pos rfl] at hresult
      exact Or.inl ⟨hresult, hcode rfl⟩
    | true => exact absurd ⟨status, code, windowsError, htied, hexpected⟩ (h disposition)

theorem launchFailure_cancelled {error : HelperLaunchError}
    (h : (launchFailure error).disposition = .cancelled) :
    error.stage = .beforeResume ∧ error.kind = .interrupted := by
  unfold launchFailure at h
  split at h
  · assumption
  · split at h <;> cases h

/-- The broker answers `cancelled` only where its launch was interrupted before the resume. -/
theorem FixedHelperBroker.inject_cancelled {ω : Type} {broker : FixedHelperBroker ω} {w : ω}
    (h : (broker.inject fromSlice w request).1.disposition = .cancelled) :
    ∃ world error after, broker.launch world (broker.invocation request) = (.error error, after) ∧
      (error.stage = .beforeResume ∧ error.kind = .interrupted) ∧
      (broker.inject fromSlice w request).2 =
        broker.recordFailure request (launchFailure error) after := by
  obtain ⟨assets, launch, fixedModuleState, record⟩ := broker
  unfold inject at h ⊢
  revert h
  split
  · simp [invalidResponse]
  dsimp only
  split
  · simp
  generalize (fixedModuleState w request.identity _).2 = world
  rcases hlaunch : launch world _ with ⟨error | output, after⟩ <;> intro h
  · exact ⟨world, error, after, hlaunch, launchFailure_cancelled h, rfl⟩
  · exact absurd h (parseOutput_ne_cancelled _ _ _)

end MacTypeControl.Host
