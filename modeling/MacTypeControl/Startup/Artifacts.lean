import MacTypeControl.Checks
import MacTypeControl.Integration.Status
import MacTypeControl.Text.Chars

/-!
# Startup entries of the legacy tray

Where Windows keeps them, which of them are ours, and how one is described so that it
can be removed and put back exactly.
-/

namespace MacTypeControl.Startup

open Text

inductive LegacyTrayStartupSource where
  | currentUserRun32
  | currentUserRun64
  | localMachineRun32
  | localMachineRun64
  | currentUserStartup
  deriving DecidableEq

inductive StartupReceiptScope where
  | currentUser
  | localMachine
  deriving DecidableEq

/-- Where an entry is kept: a value of a Run key or a file of the Startup folder. -/
inductive Place where
  | runValue (source : LegacyTrayStartupSource) (name : String)
  | startupFile (stem extension : String)
  deriving DecidableEq

def Place.source : Place → LegacyTrayStartupSource
  | .runValue source _ => source
  | .startupFile _ _ => .currentUserStartup

/-- The type and the bytes of a Run value. A regular file has the type 0. -/
structure StoredValue where
  kind : ℕ
  bytes : Bytes
  deriving DecidableEq

/-- The Run keys and the Startup folder. `places` lists the places in their order. -/
@[ext] structure StartupStore where
  places : List Place
  value : Place → Option StoredValue
  listed : ∀ place, (value place).isSome → place ∈ places

structure LegacyTrayStartupEntry where
  sourceKind : LegacyTrayStartupSource
  displayName : String
  targetPath : String
  deriving DecidableEq

inductive LegacyTrayStartupLocator where
  | registry (hive : String) (view : ℕ) (subkey valueName : String) (valueType : ℕ)
  | file (folder stem extension : String)
  deriving DecidableEq

structure LegacyTrayStartupArtifact where
  entry : LegacyTrayStartupEntry
  locator : LegacyTrayStartupLocator
  rawBytes : Bytes
  normalizedTargetPath : String
  userSid : String
  recordedAt : ℕ
  deriving DecidableEq

/-- The surroundings: the user, the fixed paths, and what Windows makes of the bytes of
a Run value and of a shortcut (its target and its arguments). -/
structure StartupEnvironment where
  userSid : String
  expectedPath : String
  startupFolder : String
  decodeUtf16 : Bytes → Except String String
  expandEnvironment : String → Except String String
  readShortcut : Bytes → Option (String × String)

def runSubkey : String := "Software\\Microsoft\\Windows\\CurrentVersion\\Run"

def regSz : ℕ := 1

def regExpandSz : ℕ := 2

def maxRegistryValueBytes : ℕ := 65536

def maxLinkBytes : ℕ := 1048576

/-! ## The store -/

def StartupStore.put (store : StartupStore) (place : Place) (value : StoredValue) :
    StartupStore where
  places := if place ∈ store.places then store.places else place :: store.places
  value := Function.update store.value place (some value)
  listed other h := by
    by_cases hother : other = place
    · subst hother
      split <;> simp [*]
    · rw [Function.update_of_ne hother] at h
      have hlisted := store.listed other h
      split
      · exact hlisted
      · exact List.mem_cons_of_mem _ hlisted

def StartupStore.delete (store : StartupStore) (place : Place) : StartupStore where
  places := store.places
  value := Function.update store.value place none
  listed other h := by
    by_cases hother : other = place
    · subst hother
      simp at h
    · rw [Function.update_of_ne hother] at h
      exact store.listed other h

/-- The values of one Run key, or the files of the Startup folder. -/
def StartupStore.valuesOf (store : StartupStore) (source : LegacyTrayStartupSource) :
    List (Place × StoredValue) :=
  (store.places.filter fun place => place.source = source).filterMap fun place =>
    (store.value place).map fun value => (place, value)

def StartupReceiptScope.sources : StartupReceiptScope → List LegacyTrayStartupSource
  | .currentUser => [.currentUserRun64, .currentUserStartup]
  | .localMachine => [.localMachineRun32, .localMachineRun64]

/-! ## Classification -/

/-- The path in one spelling: backslashes, no verbatim marker, none at the end. -/
def normalizeWindowsPath (path : String) : List Char :=
  let path := path.toList.map fun c => if c = '/' then '\\' else c
  let path := if "\\\\?\\".toList.isPrefixOf path then path.drop 4 else path
  path.rdropWhile (· == '\\')

def sameWindowsPath (left right : String) : Bool :=
  eqIgnoreAsciiCase (normalizeWindowsPath left) (normalizeWindowsPath right)

def containsText (needle text : List Char) : Bool := text.tails.any needle.isPrefixOf

def isAsciiAlphanumeric (c : Char) : Bool :=
  ('0' ≤ c && c ≤ '9') || ('a' ≤ c && c ≤ 'z') || ('A' ≤ c && c ≤ 'Z')

def isLegacyTrayStartupCandidate (displayName command : String) : Bool :=
  let name := (displayName.toList.filter isAsciiAlphanumeric).map toAsciiLowercase
  containsText "mactray".toList name || containsText "mactypetray".toList name ||
    containsText "mactray.exe".toList (command.toList.map toAsciiLowercase)

def suspiciousTrayName (name : String) : Bool := isLegacyTrayStartupCandidate name ""

/-- The target of a command that is nothing but one quoted path. -/
def exactlyQuotedTarget (command : String) : Option String :=
  let text := command.toList
  if text.length < 3 || text.head? != some '"' || text.getLast? != some '"' then none
  else
    let target := (text.drop 1).dropLast
    if target.any fun c => c == '"' || c == '\x00' || c == '\r' || c == '\n' then none
    else some (String.ofList target)

inductive StartupTargetClassification where
  | owned (path : String)
  | untrusted
  deriving DecidableEq

def classifyStartupCommand (command expectedPath : String) : StartupTargetClassification :=
  match exactlyQuotedTarget command with
  | none => .untrusted
  | some target => if sameWindowsPath target expectedPath then .owned expectedPath else .untrusted

/-- The last component of a path. -/
def fileName (path : String) : List Char :=
  (path.toList.rdropWhile fun c => c == '\\' || c == '/').rtakeWhile fun c => c != '\\' && c != '/'

/-! ## Observation -/

inductive LegacyTrayStartupObservation where
  | owned (artifact : LegacyTrayStartupArtifact)
  | untrusted
  | unknown (message : String)

/-- The hive and the view of a Run key. -/
def registrySource : LegacyTrayStartupSource → Option (String × ℕ)
  | .currentUserRun32 => some ("HKCU", 32)
  | .currentUserRun64 => some ("HKCU", 64)
  | .localMachineRun32 => some ("HKLM", 32)
  | .localMachineRun64 => some ("HKLM", 64)
  | .currentUserStartup => none

variable (env : StartupEnvironment)

def decodeRegistryString (raw : Bytes) : Except String String := do
  require (raw != [] && raw.length % 2 == 0 && raw.length ≤ maxRegistryValueBytes)
    "a Run string has an invalid bounded UTF-16 byte sequence"
  env.decodeUtf16 raw

def registryCommand (kind : ℕ) (raw : Bytes) : Except String String := do
  let decoded ← decodeRegistryString env raw
  if kind = regExpandSz then env.expandEnvironment decoded else .ok decoded

/-- The target an owned command names. -/
def startupTargetHint (command : String) : String :=
  String.ofList ((command.toList.drop 1).takeWhile (· != '"'))

def classifyRegistryValue (recordedAt : ℕ) (source : LegacyTrayStartupSource) (hive : String)
    (view : ℕ) (displayName : String) (value : StoredValue) : Except String (Option LegacyTrayStartupObservation) := do
  require (value.bytes.length ≤ maxRegistryValueBytes)
    "a Run value exceeds the bounded startup inventory"
  if value.kind ≠ regSz ∧ value.kind ≠ regExpandSz then
    require (!suspiciousTrayName displayName)
      "a MacTray-named Run value is not a supported string type"
    .ok none
  else
    let command ← registryCommand env value.kind value.bytes
    if !isLegacyTrayStartupCandidate displayName command then .ok none
    else match classifyStartupCommand command env.expectedPath with
      | .owned normalizedTargetPath => .ok (some (.owned {
          entry := ⟨source, displayName, startupTargetHint command⟩
          locator := .registry hive view runSubkey displayName value.kind
          rawBytes := value.bytes
          normalizedTargetPath
          userSid := env.userSid
          recordedAt }))
      | .untrusted => .ok (some .untrusted)

def isLink (extension : String) : Bool := eqIgnoreAsciiCase extension.toList "lnk".toList

def observeStartupFile (recordedAt : ℕ) (displayName extension : String) (value : StoredValue) :
    Except String (Option LegacyTrayStartupObservation) :=
  if !isLink extension then .ok none
  else if value.kind ≠ 0 then
    .ok (if suspiciousTrayName displayName then some (.unknown "the shortcut is not regular")
      else none)
  else match env.readShortcut value.bytes with
    | none => .ok (if suspiciousTrayName displayName then
        some (.unknown "the Startup shortcut cannot be read") else none)
    | some (target, arguments) =>
      if !eqIgnoreAsciiCase (fileName target) "MacTray.exe".toList &&
          !suspiciousTrayName displayName then .ok none
      else if sameWindowsPath target env.expectedPath && arguments == "" then do
        require (value.bytes.length ≤ maxLinkBytes)
          "the Startup shortcut is not a bounded regular file"
        .ok (some (.owned {
          entry := ⟨.currentUserStartup, displayName, target⟩
          locator := .file env.startupFolder displayName extension
          rawBytes := value.bytes
          normalizedTargetPath := env.expectedPath
          userSid := env.userSid
          recordedAt }))
      else .ok (some .untrusted)

def observeValue (recordedAt : ℕ) (place : Place) (value : StoredValue) :
    Except String (Option LegacyTrayStartupObservation) :=
  match place with
  | .runValue source name =>
    match registrySource source with
    | some (hive, view) => classifyRegistryValue env recordedAt source hive view name value
    | none => .ok none
  | .startupFile stem extension => observeStartupFile env recordedAt stem extension value

def observeValues (recordedAt : ℕ) :
    List (Place × StoredValue) → Except String (List LegacyTrayStartupObservation)
  | [] => .ok []
  | (place, value) :: values => do
    let found ← observeValue env recordedAt place value
    let others ← observeValues recordedAt values
    .ok (found.toList ++ others)

def ownedArtifacts : List LegacyTrayStartupObservation →
    Except String (List LegacyTrayStartupArtifact)
  | [] => .ok []
  | .owned artifact :: observations => do
    let others ← ownedArtifacts observations
    .ok (artifact :: others)
  | .untrusted :: _ => .error "an untrusted MacTray startup entry exists in the requested scope"
  | .unknown message :: _ => .error message

def observeOwned (scope : StartupReceiptScope) (recordedAt : ℕ) (store : StartupStore) :
    Except String (List LegacyTrayStartupArtifact) := do
  let observations ← observeValues env recordedAt (scope.sources.flatMap store.valuesOf)
  ownedArtifacts observations

/-! ## Reading and changing a recorded artifact -/

def LegacyTrayStartupArtifact.place (artifact : LegacyTrayStartupArtifact) : Place :=
  match artifact.locator with
  | .registry _ _ _ valueName _ => .runValue artifact.entry.sourceKind valueName
  | .file _ stem extension => .startupFile stem extension

def LegacyTrayStartupArtifact.value (artifact : LegacyTrayStartupArtifact) : StoredValue :=
  match artifact.locator with
  | .registry _ _ _ _ valueType => ⟨valueType, artifact.rawBytes⟩
  | .file _ _ _ => ⟨0, artifact.rawBytes⟩

def startupSourceRequiresCurrentUserSid : LegacyTrayStartupSource → Bool
  | .currentUserRun32 | .currentUserRun64 | .currentUserStartup => true
  | _ => false

def validateArtifact (artifact : LegacyTrayStartupArtifact) : Except String Unit := do
  require (artifact.rawBytes != [] && artifact.rawBytes.length ≤ maxLinkBytes &&
      sameWindowsPath artifact.normalizedTargetPath env.expectedPath &&
      sameWindowsPath artifact.entry.targetPath env.expectedPath)
    "the startup receipt artifact is not an exact bounded MacTray target"
  require (!startupSourceRequiresCurrentUserSid artifact.entry.sourceKind ||
      artifact.userSid == env.userSid)
    "the startup receipt does not belong to the current user"
  match artifact.locator with
  | .registry hive view subkey valueName valueType => do
    require (subkey == runSubkey && valueName == artifact.entry.displayName &&
        (valueType == regSz || valueType == regExpandSz) &&
        artifact.rawBytes.length ≤ maxRegistryValueBytes)
      "the startup receipt does not name a supported fixed Run value"
    require (registrySource artifact.entry.sourceKind == some (hive, view))
      "the Run locator does not match its fixed hive, view, and subkey"
    let command ← registryCommand env valueType artifact.rawBytes
    require (classifyStartupCommand command env.expectedPath == .owned env.expectedPath)
      "the receipt Run bytes do not encode the fixed MacTray command"
  | .file folder stem extension => do
    require (artifact.entry.sourceKind == .currentUserStartup)
      "a Run source cannot name a Startup shortcut"
    require (sameWindowsPath folder env.startupFolder && isLink extension &&
        stem == artifact.entry.displayName)
      "the Startup shortcut locator is not a direct .lnk child of its fixed folder"

def Place.limit : Place → ℕ
  | .runValue _ _ => maxRegistryValueBytes
  | .startupFile _ _ => maxLinkBytes

/-- The bytes at the place of an artifact, if there is anything. -/
def readArtifactBytes (store : StartupStore) (artifact : LegacyTrayStartupArtifact) :
    Except String (Option Bytes) := do
  validateArtifact env artifact
  match store.value artifact.place with
  | none => .ok none
  | some value => do
    require (value.bytes.length ≤ artifact.place.limit)
      "the Run value exceeds the bounded startup receipt"
    require (value.kind == artifact.value.kind)
      "the receipt-named Run value type no longer matches the receipt"
    .ok (some value.bytes)

def removeArtifactExact (store : StartupStore) (artifact : LegacyTrayStartupArtifact) :
    Except String StartupStore := do
  validateArtifact env artifact
  require (store.value artifact.place == some artifact.value)
    "the Run value changed before exact removal"
  .ok (store.delete artifact.place)

def restoreArtifactIfAbsent (store : StartupStore) (artifact : LegacyTrayStartupArtifact) :
    Except String StartupStore := do
  validateArtifact env artifact
  require (store.value artifact.place).isNone "the Run value is no longer absent before restore"
  .ok (store.put artifact.place artifact.value)

inductive StartupRestoreAction where
  | noop
  | restore
  deriving DecidableEq

def planStartupRestore (original : Bytes) : Option Bytes → Except String StartupRestoreAction
  | some current =>
    if current = original then .ok .noop
    else .error "legacy MacTray startup changed after migration"
  | none => .ok .restore

end MacTypeControl.Startup
