import MacTypeControl.Host.HelperLauncher
import MacTypeControl.Injector.FixedInjection
import MacTypeControl.Json.Flat
import MacTypeControl.Storage.Machine

/-!
# The protocol of the fixed helper

The service writes a request as arguments, the helper writes its result as one line of JSON, and
each reads what the other wrote.
-/

namespace MacTypeControl.Host

open Injection
open Injector (BrokerRequest ResultStatus TargetProcess WideText wide parseBrokerRequest
  parseDecimal_toString pointerBits resultCodes utf8)
open Json
open Storage (isLowerHexDigit)

/-- A request that the service can make. A handle of the system has 32 significant bits, whatever
the width of a pointer is in the helper. -/
structure ServiceRequest where
  identity : ProcessIdentity
  generationId : String
  processHandle : ℕ
  pid_pos : 0 < identity.pid
  pid_lt : identity.pid < 2 ^ 32
  creationTime_pos : 0 < identity.creationTime
  creationTime_lt : identity.creationTime < 2 ^ 64
  sessionId_lt : identity.sessionId < 2 ^ 32
  generation_length : generationId.toList.length = 64
  generation_digits : ∀ c ∈ generationId.toList, isLowerHexDigit c = true
  processHandle_pos : 0 < processHandle
  processHandle_lt : processHandle < 2 ^ pointerBits (identity.architecture == .x64)

namespace ServiceRequest

def injectionRequest (request : ServiceRequest) : InjectionRequest :=
  ⟨request.identity, request.generationId⟩

def brokerRequest (request : ServiceRequest) : BrokerRequest :=
  ⟨request.processHandle, request.identity.pid, request.identity.creationTime,
    request.identity.sessionId, request.generationId⟩

/-- Whether the helper for the target is the one of 64 bits. -/
def is64Bit (request : ServiceRequest) : Bool := request.identity.architecture == .x64

end ServiceRequest

/-! ## The arguments -/

theorem range_of_isLowerHexDigit {c : Char} (h : isLowerHexDigit c = true) :
    (48 ≤ c.toNat ∧ c.toNat ≤ 57) ∨ (97 ≤ c.toNat ∧ c.toNat ≤ 102) := by
  simpa [isLowerHexDigit, Char.le_def, UInt32.le_iff_toNat_le] using h

theorem isGenerationId_wide {generationId : String} (hlength : generationId.toList.length = 64)
    (hdigits : ∀ c ∈ generationId.toList, isLowerHexDigit c = true) :
    Injector.isGenerationId (wide generationId) = true := by
  have hall : (wide generationId).all Injector.isLowerHex = true := by
    rw [wide, List.all_map, List.all_eq_true]
    intro c hc
    have hrange := range_of_isLowerHexDigit (hdigits c hc)
    have hunit : (UInt16.ofNat c.toNat).toNat = c.toNat := by
      rw [UInt16.toNat_ofNat']
      omega
    simp only [Function.comp_apply, Injector.isLowerHex, Injector.isDecimalDigit,
      Bool.or_eq_true, Bool.and_eq_true, decide_eq_true_eq, UInt16.le_iff_toNat_le, hunit]
    exact hrange
  have hunits : (wide generationId).length = 64 := by
    rw [wide, List.length_map, hlength]
  rw [Injector.isGenerationId, hall, hunits]
  rfl

/-- The helper takes the digits of the generation as they are. -/
theorem narrow_wide {text : String} (htext : ∀ c ∈ text.toList, c.toNat < 0x80) :
    String.ofList ((wide text).map fun unit => Char.ofNat unit.toNat) = text := by
  have hsame : (wide text).map (fun unit => Char.ofNat unit.toNat) = text.toList := by
    rw [wide, List.map_map]
    calc text.toList.map ((fun unit : UInt16 => Char.ofNat unit.toNat) ∘ fun c => UInt16.ofNat c.toNat)
        = text.toList.map id := by
          refine List.map_congr_left fun c hc => ?_
          have hunit : (UInt16.ofNat c.toNat).toNat = c.toNat := by
            have := htext c hc
            rw [UInt16.toNat_ofNat']
            omega
          rw [Function.comp_apply, hunit, Char.ofNat_toNat, id]
      _ = text.toList := List.map_id _
  rw [hsame, String.ofList_toList]

theorem parseBrokerRequest_arguments {ω : Type} (broker : FixedHelperBroker ω)
    (request : ServiceRequest) (program : WideText) :
    parseBrokerRequest (pointerBits request.is64Bit)
      (program :: ((broker.invocation request.injectionRequest).argumentsForProcessHandle
        request.processHandle).map wide) = some request.brokerRequest := by
  have hbits : 2 ^ pointerBits request.is64Bit ≤ 2 ^ 64 := by
    cases request.is64Bit with
    | false => decide
    | true => decide
  have hhandle : Injector.parseDecimal (2 ^ pointerBits request.is64Bit - 1)
      (wide (toString request.processHandle)) = some request.processHandle :=
    parseDecimal_toString (Nat.le_sub_one_of_lt request.processHandle_lt) (by omega)
  have hpid := parseDecimal_toString (Nat.le_sub_one_of_lt request.pid_lt) (by decide)
  have hcreation := parseDecimal_toString (Nat.le_sub_one_of_lt request.creationTime_lt) (by decide)
  have hsession := parseDecimal_toString (Nat.le_sub_one_of_lt request.sessionId_lt) (by decide)
  have hgeneration := isGenerationId_wide request.generation_length request.generation_digits
  have hname : String.ofList ((wide request.generationId).map fun unit => Char.ofNat unit.toNat) =
      request.generationId := narrow_wide fun c hc => by
    have := range_of_isLowerHexDigit (request.generation_digits c hc)
    omega
  have hpositive : ¬(request.processHandle = 0 ∨ request.identity.pid = 0 ∨
      request.identity.creationTime = 0) := by
    have := request.pid_pos
    have := request.creationTime_pos
    have := request.processHandle_pos
    omega
  simp only [FixedHelperBroker.invocation, HelperInvocation.argumentsForProcessHandle,
    ServiceRequest.injectionRequest, List.map_cons, List.map_nil, parseBrokerRequest, ne_eq,
    not_true_eq_false, false_or, hgeneration, hhandle, hpid, hcreation, hsession, hname, hpositive,
    Bool.not_true, Bool.false_eq_true, if_false, ServiceRequest.brokerRequest]

/-! ## The results -/

/-- What a status stands for. A frozen target is skipped with a code of its own. -/
def statusDisposition (status : ResultStatus) (code : String) : BrokerDisposition :=
  match status with
  | .injected => .injected
  | .skipped => if code = "process-frozen" then .targetFrozen else .skipped
  | .rejected => .rejected
  | .failed => .retryableFailure
  | .timedOut => .retryableFailure

/-- What the service is to make of a result of the helper. -/
def reported (result : Injector.Result) : BrokerResult where
  disposition :=
    if result.cleanupComplete then statusDisposition result.status result.code else .rejected
  code :=
    if result.cleanupComplete ∨ isCleanupUnknown result.code then result.code
    else "helper-reported-cleanup-unknown"
  win32Error := if result.windowsError = 0 then none else some result.windowsError

def members (result : Injector.Result) : List Member :=
  [("schemaVersion", .nat 1),
    ("status", .text (Injector.statusName result.status)),
    ("code", .text result.code),
    ("pid", .nat result.pid),
    ("sessionId", .nat result.sessionId),
    ("generationId", .text result.generationId),
    ("module", .text result.module),
    ("windowsError", .nat result.windowsError),
    ("cleanupComplete", .bool result.cleanupComplete)]

/-- The helper prints its result as a flat object. -/
theorem toList_jsonText (result : Injector.Result) :
    (Injector.jsonText result).toList = printObject (members result) := by
  have hstatus : "\x7b\"schemaVersion\":1,\"status\":\"".toList =
      opening :: quoted "schemaVersion" ++ ':' :: (Scalar.nat 1).print ++ ',' :: quoted "status" ++
        [':', quote] := by decide +kernel
  have hcode : "\",\"code\":\"".toList = quote :: ',' :: quoted "code" ++ [':', quote] := by
    decide +kernel
  have hpid : "\",\"pid\":".toList = quote :: ',' :: quoted "pid" ++ [':'] := by decide +kernel
  have hsession : ",\"sessionId\":".toList = ',' :: quoted "sessionId" ++ [':'] := by
    decide +kernel
  have hgeneration : ",\"generationId\":\"".toList = ',' :: quoted "generationId" ++ [':', quote] := by
    decide +kernel
  have hmodule : "\",\"module\":\"".toList = quote :: ',' :: quoted "module" ++ [':', quote] := by
    decide +kernel
  have hwindows : "\",\"windowsError\":".toList = quote :: ',' :: quoted "windowsError" ++ [':'] := by
    decide +kernel
  have hcleanup : ",\"cleanupComplete\":".toList = ',' :: quoted "cleanupComplete" ++ [':'] := by
    decide +kernel
  have hanswer : (if result.cleanupComplete then "true\x7d" else "false\x7d").toList =
      (Scalar.bool result.cleanupComplete).print ++ [closing] := by
    cases result.cleanupComplete with
    | false => decide +kernel
    | true => decide +kernel
  have hnumber (value : ℕ) : (toString value).toList = Nat.toDigits 10 value := by
    rw [Nat.toString_eq_ofList_toDigits, String.toList_ofList]
  unfold Injector.jsonText
  simp only [String.toList_append]
  rw [hstatus, hcode, hpid, hsession, hgeneration, hmodule, hwindows, hcleanup, hanswer, hnumber,
    hnumber, hnumber]
  simp only [members, printObject, printMembers, printMember, quoted, Scalar.print,
    List.append_assoc, List.cons_append, List.nil_append]

def ofScalar : Scalar → JsonValue
  | .nat value => .posInt value
  | .text value => .string value
  | .bool value => .bool value

def ofMember (member : Member) : String × JsonValue := (member.1, ofScalar member.2)

/-- What a reader of JSON makes of a flat object: its members, in an order of its own. -/
def ReadsFlatObjects (fromSlice : List UInt8 → Option JsonValue) : Prop :=
  ∀ (members : List Member) (space : String), members ≠ [] →
    (∀ member ∈ members, PlainMember member) → (members.map Prod.fst).Nodup →
    space.toList.all isSpace = true →
    ∃ object, object.Perm (members.map ofMember) ∧
      fromSlice (utf8 (String.ofList (printObject members ++ space.toList))) =
        some (.object object)

theorem lookup_of_mem {β : Type} {object : List (String × β)} {field : String} {value : β}
    (hnames : (object.map Prod.fst).Nodup) (h : (field, value) ∈ object) :
    object.lookup field = some value := by
  induction object with
  | nil => cases h
  | cons first object ih =>
    obtain ⟨hfirst, hnames⟩ := List.nodup_cons.1 hnames
    rcases List.mem_cons.1 h with rfl | hmem
    · exact List.lookup_cons_self
    · have hother : (field == first.1) = false := by
        rw [beq_eq_false_iff_ne]
        intro hsame
        exact hfirst (hsame ▸ List.mem_map_of_mem hmem)
      rw [List.lookup_cons, hother]
      exact ih hnames hmem

theorem expectedExit_statusName (status : ResultStatus) (code : String) :
    expectedExit (some (Injector.statusName status)) code =
      some (statusDisposition status code, Injector.exitCode status) := by
  cases status with
  | skipped =>
    by_cases hfrozen : code = "process-frozen"
    · simp [expectedExit, Injector.statusName, statusDisposition, Injector.exitCode, hfrozen]
    · simp [expectedExit, Injector.statusName, statusDisposition, Injector.exitCode, hfrozen]
  | injected => rfl
  | rejected => rfl
  | failed => rfl
  | timedOut => rfl

theorem resultCodes_plain : ∀ code ∈ resultCodes, PlainText code ∧ code.toList.length ≤ 40 ∧
    code.isEmpty = false ∧ code ∉ ["helper-response-invalid", "helper-response-too-large",
      "helper-exit-mismatch"] := by
  decide +kernel

theorem fixedModuleName_eq (architecture : ProcessArchitecture) :
    Injector.fixedModuleName (architecture == .x64) = expectedModule architecture := by
  cases architecture with
  | x86 => rfl
  | x64 => rfl

theorem reportedResult_eq {result : Injector.Result} {object : List (String × JsonValue)}
    (hwindows : object.lookup "windowsError" = some (.posInt result.windowsError))
    (hcleanup : object.lookup "cleanupComplete" = some (.bool result.cleanupComplete)) :
    reportedResult object result.code (statusDisposition result.status result.code) =
      reported result := by
  have hword : (some result.windowsError).filter (· ≠ 0) =
      if result.windowsError = 0 then none else some result.windowsError := by
    by_cases hzero : result.windowsError = 0
    · simp [Option.filter, hzero]
    · simp [Option.filter, hzero]
  simp only [reportedResult, reported, hwindows, hcleanup, Option.bind_some, JsonValue.asU64,
    JsonValue.asBool, hword]
  cases hcomplete : result.cleanupComplete with
  | true => simp
  | false => simp

/-- The members of a result are found in whatever order they are given. -/
theorem parseObject_members {request : ServiceRequest} {result : Injector.Result}
    {object : List (String × JsonValue)}
    (hresult : Injector.Answers request.is64Bit request.brokerRequest result)
    (hobject : object.Perm ((members result).map ofMember)) :
    parseObject request.injectionRequest (Injector.exitCode result.status) object =
      reported result := by
  have hnames : (object.map Prod.fst).Nodup := by
    rw [(hobject.map Prod.fst).nodup_iff]
    show (["schemaVersion", "status", "code", "pid", "sessionId", "generationId", "module",
      "windowsError", "cleanupComplete"] : List String).Nodup
    decide
  have hfound (field : String) (value : Scalar) (h : (field, value) ∈ members result) :
      object.lookup field = some (ofScalar value) :=
    lookup_of_mem hnames (hobject.mem_iff.2 (List.mem_map_of_mem h))
  have hcode : object.lookup "code" = some (.string result.code) :=
    hfound "code" (.text result.code) (by simp [members])
  have hstatus : object.lookup "status" = some (.string (Injector.statusName result.status)) :=
    hfound "status" (.text (Injector.statusName result.status)) (by simp [members])
  have hwindows : object.lookup "windowsError" = some (.posInt result.windowsError) :=
    hfound "windowsError" (.nat result.windowsError) (by simp [members])
  have hcleanup : object.lookup "cleanupComplete" = some (.bool result.cleanupComplete) :=
    hfound "cleanupComplete" (.bool result.cleanupComplete) (by simp [members])
  have hanswers : answersRequest request.injectionRequest object = true := by
    have hschema : object.lookup "schemaVersion" = some (.posInt 1) :=
      hfound "schemaVersion" (.nat 1) (by simp [members])
    have hpid : object.lookup "pid" = some (.posInt request.identity.pid) :=
      hfound "pid" (.nat request.identity.pid)
        (by simp [members, hresult.pid, ServiceRequest.brokerRequest])
    have hsession : object.lookup "sessionId" = some (.posInt request.identity.sessionId) :=
      hfound "sessionId" (.nat request.identity.sessionId)
        (by simp [members, hresult.sessionId, ServiceRequest.brokerRequest])
    have hgeneration : object.lookup "generationId" = some (.string request.generationId) :=
      hfound "generationId" (.text request.generationId)
        (by simp [members, hresult.generationId, ServiceRequest.brokerRequest])
    have hmodule : object.lookup "module" =
        some (.string (expectedModule request.identity.architecture)) := by
      rw [← fixedModuleName_eq]
      exact hfound "module" (.text (Injector.fixedModuleName request.is64Bit))
        (by simp [members, hresult.module])
    have hword := hresult.windowsError
    simp [answersRequest, hschema, hpid, hsession, hgeneration, hmodule, hwindows, hcleanup,
      JsonValue.asU64, JsonValue.asStr, JsonValue.asBool, ServiceRequest.injectionRequest]
    omega
  have hnonempty := (resultCodes_plain result.code hresult.code).2.2.1
  have hfilter : ((some (JsonValue.string result.code)).bind JsonValue.asStr).filter (!·.isEmpty) =
      some result.code := by
    simp [JsonValue.asStr, Option.filter, hnonempty]
  have hexit := expectedExit_statusName result.status result.code
  unfold parseObject
  rw [hcode, hfilter]
  dsimp only
  rw [hanswers, hstatus]
  simp only [Bool.not_true, Bool.false_eq_true, if_false, Option.bind_some, JsonValue.asStr, hexit,
    ne_eq, not_true_eq_false]
  exact reportedResult_eq hwindows hcleanup

/-! ## The bytes -/

theorem utf8_of_ascii {text : String} (htext : Ascii text.toList) :
    utf8 text = text.toList.map fun c => c.val.toUInt8 := by
  have hchar : ∀ c ∈ text.toList, String.utf8EncodeChar c = [c.val.toUInt8] := by
    intro c hc
    have hsize : c.utf8Size = 1 := by
      have := htext c hc
      rw [Char.utf8Size_eq_one_iff, UInt32.le_iff_toNat_le]
      show c.toNat ≤ 127
      omega
    exact String.utf8EncodeChar_eq_singleton hsize
  rw [utf8, List.flatMap_congr hchar, List.map_eq_flatMap]

theorem statusName_plain (status : ResultStatus) :
    PlainText (Injector.statusName status) ∧ (Injector.statusName status).toList.length ≤ 8 := by
  cases status <;> decide

theorem fixedModuleName_plain (is64Bit : Bool) :
    PlainText (Injector.fixedModuleName is64Bit) ∧
      (Injector.fixedModuleName is64Bit).toList.length ≤ 13 := by
  cases is64Bit <;> decide

theorem plainText_generationId (request : ServiceRequest) : PlainText request.generationId := by
  intro c hc
  have hrange := range_of_isLowerHexDigit (request.generation_digits c hc)
  refine ⟨by omega, by omega, ?_, ?_⟩
  · rintro rfl
    revert hrange
    decide
  · rintro rfl
    revert hrange
    decide

section

variable {request : ServiceRequest} {result : Injector.Result}

theorem plain_members (hresult : Injector.Answers request.is64Bit request.brokerRequest result) :
    ∀ member ∈ members result, PlainMember member := by
  have hpid : result.pid < 2 ^ 32 := hresult.pid ▸ request.pid_lt
  have hsession : result.sessionId < 2 ^ 32 := hresult.sessionId ▸ request.sessionId_lt
  have hwindows := hresult.windowsError
  have hword {value : ℕ} (h : value < 2 ^ 32) : (Scalar.nat value).Plain :=
    Nat.lt_trans h (show 2 ^ 32 < 2 ^ 64 by decide)
  have hgeneration : PlainText result.generationId := by
    rw [hresult.generationId]
    exact plainText_generationId request
  have hmodule : PlainText result.module := by
    rw [hresult.module]
    exact (fixedModuleName_plain request.is64Bit).1
  have hnames : ∀ field ∈ protocolFields, PlainText field := by decide +kernel
  intro member hmember
  refine ⟨hnames member.1 ?_, ?_⟩
  · have hfields : (members result).map Prod.fst = protocolFields := rfl
    exact hfields ▸ List.mem_map_of_mem hmember
  simp only [members, List.mem_cons, List.not_mem_nil, or_false] at hmember
  rcases hmember with rfl | rfl | rfl | rfl | rfl | rfl | rfl | rfl | rfl
  · exact hword (by decide)
  · exact (statusName_plain result.status).1
  · exact (resultCodes_plain result.code hresult.code).1
  · exact hword hpid
  · exact hword hsession
  · exact hgeneration
  · exact hmodule
  · exact hword hwindows
  · trivial

theorem length_jsonText (hresult : Injector.Answers request.is64Bit request.brokerRequest result) :
    (Injector.jsonText result).toList.length ≤ 1000 := by
  have hnames : ∀ field ∈ protocolFields, field.toList.length ≤ 15 := by decide +kernel
  have hword {value : ℕ} (h : value < 2 ^ 32) : (Nat.toDigits 10 value).length ≤ 66 := by
    rw [Nat.length_toDigits_le_iff (by decide) (by decide)]
    exact Nat.lt_trans h (by decide)
  have hvalue : ∀ member ∈ members result, member.2.print.length ≤ 66 := by
    intro member hmember
    simp only [members, List.mem_cons, List.not_mem_nil, or_false] at hmember
    rcases hmember with rfl | rfl | rfl | rfl | rfl | rfl | rfl | rfl | rfl
    · exact hword (by decide)
    · have := (statusName_plain result.status).2
      simp only [Scalar.print, length_quoted]
      omega
    · have := (resultCodes_plain result.code hresult.code).2.1
      simp only [Scalar.print, length_quoted]
      omega
    · exact hword (hresult.pid ▸ request.pid_lt)
    · exact hword (hresult.sessionId ▸ request.sessionId_lt)
    · simp only [Scalar.print, length_quoted, hresult.generationId]
      exact Nat.le_of_eq (congrArg (· + 2) request.generation_length)
    · have := (fixedModuleName_plain request.is64Bit).2
      simp only [Scalar.print, length_quoted, hresult.module]
      omega
    · exact hword hresult.windowsError
    · cases result.cleanupComplete <;> decide
  have hmember : ∀ member ∈ members result, (printMember member).length ≤ 84 := by
    intro member hmember
    have hname := hnames member.1 (List.mem_map_of_mem hmember : member.1 ∈ protocolFields)
    have := hvalue member hmember
    simp only [printMember, List.length_append, List.length_cons, length_quoted]
    omega
  have hmembers := length_printMembers_le hmember
  have hnine : (members result).length = 9 := rfl
  rw [toList_jsonText, printObject, List.length_append, List.length_cons, List.length_singleton]
  omega

/-! ## What the service makes of a result -/

theorem isCleanupUnknown_reported (hincomplete : result.cleanupComplete = false) :
    isCleanupUnknown (reported result).code = true := by
  unfold reported
  by_cases hown : isCleanupUnknown result.code = true
  · simp [hown]
  · simp [hincomplete, hown]
    decide

theorem reported_code_trusted
    (hresult : Injector.Answers request.is64Bit request.brokerRequest result) :
    (reported result).code ∉ ["helper-response-invalid", "helper-response-too-large",
      "helper-exit-mismatch"] := by
  unfold reported
  dsimp only
  split
  · exact (resultCodes_plain result.code hresult.code).2.2.2
  · decide

/-- The line of a result is read as that result. -/
theorem parseOutput_jsonText {fromSlice : List UInt8 → Option JsonValue}
    (hreads : ReadsFlatObjects fromSlice)
    (hresult : Injector.Answers request.is64Bit request.brokerRequest result) {newline : String}
    (hnewline : newline ∈ ["\n", "\r\n"]) :
    parseOutput fromSlice request.injectionRequest
      ⟨Injector.exitCode result.status, utf8 (Injector.jsonText result ++ newline)⟩ =
        reported result := by
  have hplain := plain_members hresult
  have hspace : ∀ line ∈ ["\n", "\r\n"], line.toList.all isSpace = true ∧
      line.toList.length ≤ 2 := by
    decide +kernel
  obtain ⟨hspace, hshort⟩ := hspace newline hnewline
  have hascii := ascii_of_isSpace hspace
  have hline : (Injector.jsonText result ++ newline).toList =
      printObject (members result) ++ newline.toList := by
    rw [String.toList_append, toList_jsonText]
  have hsize : (utf8 (Injector.jsonText result ++ newline)).length ≤ maxHelperOutputBytes := by
    have hlength := length_jsonText hresult
    rw [toList_jsonText] at hlength
    rw [utf8_of_ascii (hline ▸ (ascii_printObject hplain).append hascii), List.length_map, hline,
      List.length_append]
    show _ ≤ 1024
    omega
  have hnames : ((members result).map Prod.fst).Nodup := by
    show protocolFields.Nodup
    decide
  obtain ⟨object, hobject, hparsed⟩ := hreads (members result) newline (List.cons_ne_nil _ _)
    hplain hnames hspace
  rw [← hline, String.ofList_toList] at hparsed
  have hnine : object.length = 9 := by
    rw [hobject.length_eq]
    rfl
  rw [parseOutput, if_neg (Nat.not_lt.2 hsize), hparsed]
  show (if object.length = 9 then _ else _) = _
  rw [if_pos hnine]
  exact parseObject_members hresult hobject

theorem toJson_eq (hresult : Injector.Answers request.is64Bit request.brokerRequest result) :
    Injector.toJson result = .ok (Injector.jsonText result) := by
  have hascii : Ascii (Injector.jsonText result).toList := by
    rw [toList_jsonText]
    exact ascii_printObject (plain_members hresult)
  have hsize : ¬1024 < (utf8 (Injector.jsonText result)).length := by
    have hlength := length_jsonText hresult
    rw [utf8_of_ascii hascii, List.length_map]
    omega
  unfold Injector.toJson
  rw [if_neg hsize]

end

/-- A run of the helper that returns tells the service what the helper has found. -/
theorem parseOutput_wmain {ω : Type} (broker : FixedHelperBroker ω)
    {fromSlice : List UInt8 → Option JsonValue} (hreads : ReadsFlatObjects fromSlice)
    {request : ServiceRequest} {program : WideText} {target : TargetProcess} {fuel : ℕ}
    {newline : String} {printed : Except String String} {exitCode : ℤ}
    (htarget : target.is64Bit = request.is64Bit) (hnewline : newline ∈ ["\n", "\r\n"])
    (hrun : target.wmain fuel (program ::
      ((broker.invocation request.injectionRequest).argumentsForProcessHandle
        request.processHandle).map wide) newline = some (printed, exitCode)) :
    ∃ result line, target.injectFixedAdjacentModule request.brokerRequest fuel = some result ∧
      printed = .ok line ∧
      parseOutput fromSlice request.injectionRequest ⟨exitCode, utf8 line⟩ = reported result := by
  unfold TargetProcess.wmain at hrun
  rw [htarget, parseBrokerRequest_arguments] at hrun
  obtain ⟨result, hresult, hprinted⟩ := Option.map_eq_some_iff.1 hrun
  have hanswers : Injector.Answers request.is64Bit request.brokerRequest result := by
    rw [← htarget]
    exact TargetProcess.answers_injectFixedAdjacentModule hresult
  obtain ⟨rfl, rfl⟩ := Prod.mk.inj hprinted
  refine ⟨result, Injector.jsonText result ++ newline, hresult, ?_,
    parseOutput_jsonText hreads hanswers hnewline⟩
  rw [toJson_eq hanswers]
  rfl

/-! ## A reader of flat objects -/

def readFlat (bytes : List UInt8) : Option JsonValue :=
  (readObject (bytes.map fun byte => Char.ofNat byte.toNat)).map fun members =>
    .object (members.map ofMember)

theorem readsFlatObjects_readFlat : ReadsFlatObjects readFlat := by
  intro members space hmembers hplain _ hspace
  have hascii : Ascii (printObject members ++ space.toList) :=
    (ascii_printObject hplain).append (ascii_of_isSpace hspace)
  have hback : (utf8 (String.ofList (printObject members ++ space.toList))).map
      (fun byte => Char.ofNat byte.toNat) = printObject members ++ space.toList := by
    rw [utf8_of_ascii (by rwa [String.toList_ofList]), String.toList_ofList, List.map_map]
    refine (List.map_congr_left fun c hc => ?_).trans (List.map_id _)
    have hbyte : c.val.toUInt8.toNat = c.toNat := by
      have := hascii c hc
      rw [UInt32.toNat_toUInt8]
      show c.toNat % 2 ^ 8 = c.toNat
      omega
    rw [Function.comp_apply, hbyte, Char.ofNat_toNat, id]
  refine ⟨members.map ofMember, List.Perm.refl _, ?_⟩
  rw [readFlat, hback, readObject_printObject hmembers hplain hspace]
  rfl

/-! ## A frozen target -/

def sampleIdentity : ProcessIdentity := ⟨4711, 133700000000000000, 1, .x64, false⟩

def sampleRequest : ServiceRequest where
  identity := sampleIdentity
  generationId := String.ofList (List.replicate 64 'a')
  processHandle := 512
  pid_pos := by decide
  pid_lt := by decide
  creationTime_pos := by decide
  creationTime_lt := by decide
  sessionId_lt := by decide
  generation_length := by decide +kernel
  generation_digits := List.all_eq_true.1 (by decide +kernel)
  processHandle_pos := by decide
  processHandle_lt := by decide

def idleRemote : Injector.RemoteTarget where
  is64Bit := true
  virtualAllocEx := .error 5
  writeProcessMemory := none
  writeError := 0
  remoteLoadLibrary := .error 127
  createRemoteThread := .error 5
  wait := .timeout
  graceWait := .timeout
  getExitCodeThread := .error 6
  virtualFreeEx := .ok ()
  virtualFreeExAgain := .ok ()
  inventory _ := ⟨none, 0, 0, false⟩
  lifecycle := none

theorem idleRemote_words : idleRemote.Words := by
  constructor
  case writeError => decide
  case inventory => exact fun _ => Nat.two_pow_pos 32
  all_goals
    intro error h
    cases h <;> decide

def frozenTarget : TargetProcess where
  processId := sampleIdentity.pid
  processIdError := 0
  processIdToSessionId := .ok 1
  protectionLevel := .ok Injector.protectionLevelNone
  isProcessCritical := .ok false
  creationTime := .ok sampleIdentity.creationTime
  machine := .wow64Process2 (some (0, Injector.imageFileMachineAmd64))
  machineError := 0
  lifecycleFlags := some 0x10
  fixedModulePath := none
  isRegularFile _ := (false, 2)
  inventory _ := ⟨none, 0, 0, false⟩
  inventory_words _ := by decide
  verifiedCreationTime := .ok sampleIdentity.creationTime
  grantedAccess := none
  remote := idleRemote
  remote_words := idleRemote_words

def sampleBroker : FixedHelperBroker Unit where
  assets := ⟨[], ["injector32"], ["injector64"], sampleRequest.generationId⟩
  launch _ _ := (.error ⟨.beforeResume, .other, none⟩, ())
  fixedModuleState _ _ _ := (.unknown, ())
  record _ _ := ()

def frozenResult : Injector.Result :=
  Injector.makeResult sampleRequest.brokerRequest .skipped "process-frozen" "MacType64.dll"

/-- The helper reads the request that the service wrote, and the service reads every result that the
helper can have for it: its status, its code and its error. -/
theorem helper_protocol_agrees {ω : Type} (broker : FixedHelperBroker ω)
    {fromSlice : List UInt8 → Option JsonValue} (hreads : ReadsFlatObjects fromSlice)
    (request : ServiceRequest) (program : WideText) :
    parseBrokerRequest (pointerBits request.is64Bit)
        (program :: ((broker.invocation request.injectionRequest).argumentsForProcessHandle
          request.processHandle).map wide) = some request.brokerRequest ∧
      ∀ (target : TargetProcess) (fuel : ℕ) (result : Injector.Result) (newline : String),
        target.is64Bit = request.is64Bit → newline ∈ ["\n", "\r\n"] →
        target.injectFixedAdjacentModule request.brokerRequest fuel = some result →
        ∃ json, Injector.toJson result = .ok json ∧
          parseOutput fromSlice request.injectionRequest
            ⟨Injector.exitCode result.status, utf8 (json ++ newline)⟩ = reported result ∧
          (result.cleanupComplete = false → isCleanupUnknown (reported result).code = true) ∧
          (reported result).code ∉ ["helper-response-invalid", "helper-response-too-large",
            "helper-exit-mismatch"] := by
  refine ⟨parseBrokerRequest_arguments broker request program, ?_⟩
  intro target fuel result newline htarget hnewline hrun
  have hresult : Injector.Answers request.is64Bit request.brokerRequest result := by
    rw [← htarget]
    exact TargetProcess.answers_injectFixedAdjacentModule hrun
  exact ⟨Injector.jsonText result, toJson_eq hresult, parseOutput_jsonText hreads hresult hnewline,
    isCleanupUnknown_reported, reported_code_trusted hresult⟩

theorem helper_protocol_frozen :
    ∃ json, Injector.toJson frozenResult = .ok json ∧
      parseOutput readFlat sampleRequest.injectionRequest
        ⟨Injector.exitCode .skipped, utf8 (json ++ "\r\n")⟩ =
          ⟨.targetFrozen, "process-frozen", none⟩ := by
  obtain ⟨json, hjson, hparsed, -⟩ := (helper_protocol_agrees sampleBroker readsFlatObjects_readFlat
    sampleRequest (wide "injector64")).2 frozenTarget 0 frozenResult "\r\n" rfl (by decide) rfl
  exact ⟨json, hjson, hparsed⟩

end MacTypeControl.Host
