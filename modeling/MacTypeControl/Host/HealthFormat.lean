import MacTypeControl.Host.HealthFile
import MacTypeControl.Json.Tree

/-!
# The persisted health as JSON

The members of a report in the order in which they are written, and the reading of them.
-/

namespace MacTypeControl.Host

open Injection Json Text

/-! ## Members -/

def natTree (n : ℕ) : Tree := .number (Nat.toDigits 10 n)

def readNat : Tree → Option ℕ
  | .number digits => some (Nat.ofDigitChars 10 digits 0)
  | _ => none

def textTree (text : String) : Tree := .text text.toList

def readString : Tree → Option String
  | .text value => some (String.ofList value)
  | _ => none

def optionTree {α : Type} (tree : α → Tree) : Option α → Tree
  | none => .null
  | some a => tree a

def readOption {α : Type} (read : Tree → Option α) : Tree → Option (Option α)
  | .null => some none
  | tree => (read tree).map some

def structTree (fields : List (String × Tree)) : Tree :=
  .object (fields.map fun field => (field.1.toList, field.2))

/-- The values of an object that has these members in this order. -/
def readStruct (names : List String) : Tree → Option (List Tree)
  | .object fields =>
    if fields.map Prod.fst = names.map String.toList then some (fields.map Prod.snd) else none
  | _ => none

theorem readNat_natTree (n : ℕ) : readNat (natTree n) = some n := by
  show some (Nat.ofDigitChars 10 (Nat.toDigits 10 n) 0) = some n
  rw [Nat.ofDigitChars_ten_toDigits]

theorem readString_textTree (text : String) : readString (textTree text) = some text := by
  show some (String.ofList text.toList) = some text
  rw [String.ofList_toList]

theorem readStruct_structTree {names : List String} {fields : List (String × Tree)}
    (h : fields.map Prod.fst = names) :
    readStruct names (structTree fields) = some (fields.map Prod.snd) := by
  subst h
  simp [readStruct, structTree, Function.comp_def]

theorem readOption_optionTree {α : Type} {tree : α → Tree} {read : Tree → Option α}
    (hread : ∀ a, read (tree a) = some a) (hnull : ∀ a, tree a ≠ .null) (value : Option α) :
    readOption read (optionTree tree value) = some value := by
  cases value with
  | none => rfl
  | some a =>
    have hne := hnull a
    have ha := hread a
    unfold optionTree readOption
    dsimp only
    revert hne ha
    cases tree a with
    | null => exact fun hne => absurd rfl hne
    | bool | number | text | array | object =>
      intro _ ha
      dsimp only
      rw [ha]
      rfl

/-! ## The parts of a report -/

def stateNames : List (HealthState × String) :=
  [(.unknown, "unknown"), (.initializing, "initializing"), (.ready, "ready"),
    (.degraded, "degraded"), (.failed, "failed")]

def readinessNames : List (ComponentReadiness × String) :=
  [(.notRequired, "not_required"), (.initializing, "initializing"), (.ready, "ready"),
    (.failed, "failed")]

def stateTree (state : HealthState) : Tree := textTree ((stateNames.lookup state).getD "")

def readState (tree : Tree) : Option HealthState := do
  let name ← readString tree
  (stateNames.find? fun entry => entry.2 = name).map Prod.fst

def componentTree (readiness : ComponentReadiness) : Tree :=
  textTree ((readinessNames.lookup readiness).getD "")

def readComponent (tree : Tree) : Option ComponentReadiness := do
  let name ← readString tree
  (readinessNames.find? fun entry => entry.2 = name).map Prod.fst

def readinessTree (report : ReadinessReport) : Tree :=
  structTree [("profile", componentTree report.profile), ("observer", componentTree report.observer),
    ("injector32", componentTree report.injector32),
    ("injector64", componentTree report.injector64)]

def readReadiness (tree : Tree) : Option ReadinessReport := do
  match ← readStruct ["profile", "observer", "injector32", "injector64"] tree with
  | [profile, observer, injector32, injector64] =>
    some ⟨← readComponent profile, ← readComponent observer, ← readComponent injector32,
      ← readComponent injector64⟩
  | _ => none

def successTree (success : InjectionSuccess) : Tree :=
  structTree [("pid", natTree success.pid), ("creationTime", natTree success.creationTime),
    ("sessionId", natTree success.sessionId),
    ("runtimeGenerationId", textTree success.runtimeGenerationId),
    ("profileDigest", textTree success.profileDigest)]

def readSuccess (tree : Tree) : Option InjectionSuccess := do
  match ← readStruct ["pid", "creationTime", "sessionId", "runtimeGenerationId", "profileDigest"]
    tree with
  | [pid, creationTime, sessionId, runtimeGenerationId, profileDigest] =>
    some ⟨← readNat pid, ← readNat creationTime, ← readNat sessionId,
      ← readString runtimeGenerationId, ← readString profileDigest⟩
  | _ => none

def architectureTree (telemetry : ArchitectureInjectionTelemetry) : Tree :=
  structTree [("successCount", natTree telemetry.successCount),
    ("lastSuccess", optionTree successTree telemetry.lastSuccess)]

def readArchitecture (tree : Tree) : Option ArchitectureInjectionTelemetry := do
  match ← readStruct ["successCount", "lastSuccess"] tree with
  | [successCount, lastSuccess] =>
    some ⟨← readNat successCount, ← readOption readSuccess lastSuccess⟩
  | _ => none

def telemetryTree (telemetry : InjectionTelemetry) : Tree :=
  structTree [("x86", architectureTree telemetry.x86), ("x64", architectureTree telemetry.x64)]

def readTelemetry (tree : Tree) : Option InjectionTelemetry := do
  match ← readStruct ["x86", "x64"] tree with
  | [x86, x64] => some ⟨← readArchitecture x86, ← readArchitecture x64⟩
  | _ => none

def errorTree (error : StructuredServiceError) : Tree :=
  structTree [("code", textTree error.code), ("message", textTree error.message),
    ("win32_error", optionTree natTree error.win32Error)]

def readError (tree : Tree) : Option StructuredServiceError := do
  match ← readStruct ["code", "message", "win32_error"] tree with
  | [code, message, win32Error] =>
    some ⟨← readString code, ← readString message, ← readOption readNat win32Error⟩
  | _ => none

/-! ## The report -/

def reportTree (report : HealthReport) : Tree :=
  structTree [("protocolVersion", natTree report.protocolVersion),
    ("serviceVersion", textTree report.serviceVersion), ("health", stateTree report.health),
    ("activeProfileDigest", optionTree textTree report.activeProfileDigest),
    ("readiness", readinessTree report.readiness), ("injection", telemetryTree report.injection),
    ("lastError", optionTree errorTree report.lastError)]

def readReport (tree : Tree) : Option HealthReport := do
  match ← readStruct ["protocolVersion", "serviceVersion", "health", "activeProfileDigest",
    "readiness", "injection", "lastError"] tree with
  | [protocolVersion, serviceVersion, health, activeProfileDigest, readiness, injection,
      lastError] =>
    some ⟨← readNat protocolVersion, ← readString serviceVersion, ← readState health,
      ← readOption readString activeProfileDigest, ← readReadiness readiness,
      ← readTelemetry injection, ← readOption readError lastError⟩
  | _ => none

def toJson (report : HealthReport) : List UInt8 := encodeUtf8 (reportTree report).print

def fromJson (bytes : List UInt8) : Option HealthReport := do
  let text ← fromUtf8 bytes
  let tree ← readDocument text
  readReport tree

/-! ## Reading what was written -/

theorem readState_stateTree (state : HealthState) : readState (stateTree state) = some state := by
  unfold readState stateTree
  rw [readString_textTree]
  cases state <;> rfl

theorem readComponent_componentTree (readiness : ComponentReadiness) :
    readComponent (componentTree readiness) = some readiness := by
  unfold readComponent componentTree
  rw [readString_textTree]
  cases readiness <;> rfl

theorem readReadiness_readinessTree (report : ReadinessReport) :
    readReadiness (readinessTree report) = some report := by
  unfold readReadiness readinessTree
  refine Option.bind_eq_some_iff.2 ⟨_, readStruct_structTree rfl, ?_⟩
  simp [readComponent_componentTree]

theorem readSuccess_successTree (success : InjectionSuccess) :
    readSuccess (successTree success) = some success := by
  unfold readSuccess successTree
  refine Option.bind_eq_some_iff.2 ⟨_, readStruct_structTree rfl, ?_⟩
  simp [readNat_natTree, readString_textTree]

theorem readArchitecture_architectureTree (telemetry : ArchitectureInjectionTelemetry) :
    readArchitecture (architectureTree telemetry) = some telemetry := by
  have hsuccess := readOption_optionTree readSuccess_successTree (fun _ => Tree.noConfusion)
    telemetry.lastSuccess
  unfold readArchitecture architectureTree
  refine Option.bind_eq_some_iff.2 ⟨_, readStruct_structTree rfl, ?_⟩
  simp [readNat_natTree, hsuccess]

theorem readTelemetry_telemetryTree (telemetry : InjectionTelemetry) :
    readTelemetry (telemetryTree telemetry) = some telemetry := by
  unfold readTelemetry telemetryTree
  refine Option.bind_eq_some_iff.2 ⟨_, readStruct_structTree rfl, ?_⟩
  simp [readArchitecture_architectureTree]

theorem readError_errorTree (error : StructuredServiceError) :
    readError (errorTree error) = some error := by
  have hwin32 := readOption_optionTree readNat_natTree (fun _ => Tree.noConfusion) error.win32Error
  unfold readError errorTree
  refine Option.bind_eq_some_iff.2 ⟨_, readStruct_structTree rfl, ?_⟩
  simp [readString_textTree, hwin32]

theorem readReport_reportTree (report : HealthReport) :
    readReport (reportTree report) = some report := by
  have hdigest := readOption_optionTree readString_textTree (fun _ => Tree.noConfusion)
    report.activeProfileDigest
  have herror := readOption_optionTree readError_errorTree (fun _ => Tree.noConfusion)
    report.lastError
  unfold readReport reportTree
  refine Option.bind_eq_some_iff.2 ⟨_, readStruct_structTree rfl, ?_⟩
  simp [readNat_natTree, readString_textTree, readState_stateTree, readReadiness_readinessTree,
    readTelemetry_telemetryTree, hdigest, herror]

/-! ## The format -/

theorem numberText_toDigits (n : ℕ) : NumberText (Nat.toDigits 10 n) := by
  refine ⟨Nat.toDigits_ne_nil, fun c hc => ?_⟩
  have hdigit := Nat.isDigit_of_mem_toDigits (Nat.succ_pos 9) (Nat.le_refl 10) hc
  simp [isNumberChar, hdigit]

theorem plain_optionTree {α : Type} {tree : α → Tree} (h : ∀ a, (tree a).Plain)
    (value : Option α) : (optionTree tree value).Plain := by
  cases value with
  | none => trivial
  | some a => exact h a

theorem plain_successTree (success : InjectionSuccess) : (successTree success).Plain :=
  ⟨numberText_toDigits _, numberText_toDigits _, numberText_toDigits _, trivial, trivial, trivial⟩

theorem plain_architectureTree (telemetry : ArchitectureInjectionTelemetry) :
    (architectureTree telemetry).Plain :=
  ⟨numberText_toDigits _, plain_optionTree plain_successTree _, trivial⟩

theorem plain_errorTree (error : StructuredServiceError) : (errorTree error).Plain :=
  ⟨trivial, trivial, plain_optionTree numberText_toDigits _, trivial⟩

theorem plain_reportTree (report : HealthReport) : (reportTree report).Plain := by
  have htext : ∀ text, (textTree text).Plain := fun _ => trivial
  exact ⟨numberText_toDigits _, trivial, trivial, plain_optionTree htext _,
    ⟨trivial, trivial, trivial, trivial, trivial⟩,
    ⟨plain_architectureTree _, plain_architectureTree _, trivial⟩,
    plain_optionTree plain_errorTree _, trivial⟩

theorem fromJson_toJson (report : HealthReport) :
    fromJson (toJson report ++ [newline]) = some report := by
  have hbytes : toJson report ++ [newline] = encodeUtf8 ((reportTree report).print ++ ['\n']) := by
    rw [encodeUtf8_append]
    rfl
  unfold fromJson
  rw [hbytes, fromUtf8_encodeUtf8, Option.bind_eq_bind, Option.bind_some,
    readDocument_print (plain_reportTree report) (by decide), Option.bind_eq_bind,
    Option.bind_some, readReport_reportTree]

def jsonFormat : HealthFormat where
  serialize := toJson
  parse := fromJson
  parse_serialize := fromJson_toJson

end MacTypeControl.Host
