import MacTypeControl.Checks
import MacTypeControl.Profile.Validation

/-!
# The managed runtime of the control center

`active.json` names the generation of the runtime whose profile the user applied. Starting the
service, activating it and applying from the tray all read the profile through it, and fall
back to the bundled default profile where that does not come through.
-/

namespace MacTypeControl.Execution

open Profile

structure ActiveRuntime where
  runtimeRoot : String
  sourceProfile : String
  deriving DecidableEq

/-- A file as an operation finds it: whether it is a regular file, its length and its content,
each of which may be impossible to learn. -/
structure FoundFile where
  isFile : Bool
  length : Except String ℕ
  content : Except String Bytes

def FoundFile.holding (bytes : Bytes) : FoundFile := ⟨true, .ok bytes.length, .ok bytes⟩

def FoundFile.absent : FoundFile := ⟨false, .error "file not found", .error "file not found"⟩

/-- A directory whose path can be resolved, and whether it lies among the generations. -/
structure Folder where
  managed : Bool
  file : String → FoundFile

/-- The managed directory with the marker and the machine beside it. What `applied` records is
every profile that was made the active one. -/
structure Managed (μ : Type) where
  pointer : Option FoundFile
  generations : Except String Unit
  folder : String → Except String Folder
  paused : Bool
  machine : μ
  applied : List Bytes

structure Artifact where
  isFile : Bool
  insideInstallation : Except String Bool
  content : Except String Bytes

structure Installation where
  resolves : Except String Unit
  artifact : String → Artifact
  default : FoundFile

/-- What becomes of each change of the directory that is tried. -/
structure Writes where
  createGenerations : Except String Unit
  stagingExists : Bool
  removeStaleStaging : Except String Unit
  createStaging : Except String Unit
  writeStaged : String → Except String Unit
  rename : Except String Unit
  /-- The generation that another process has made by then. -/
  madeMeanwhile : Option Folder
  removeStaging : Except String Unit
  replacePointer : Except String Unit
  recordChoice : Except String Unit

inductive MachineAction where
  | start
  | publishProfile
  deriving DecidableEq

inductive DesignationEffect where
  | live
  | nextStart

/-- The formats, the installation, the machine and the outcome of every change. -/
structure Surroundings (μ : Type) where
  parse : Bytes → Except String ActiveRuntime
  toVecPretty : ActiveRuntime → Bytes
  sha256 : Bytes → Bytes
  legacyDecodes : Bytes → Bool
  generationPath : String → String
  installation : Option Installation
  writes : Writes
  execute : MachineAction → Bytes → μ → Except String Unit × μ
  designateRunProfile : Bytes → μ → Except String DesignationEffect × μ

def maxActiveRuntimeBytes : ℕ := 512 * 1024

def maxRuntimeFileBytes : ℕ := 32 * 1024 * 1024

/-- The artifacts of a runtime, and whether it has to have them. -/
def runtimeArtifacts : List (String × Bool) :=
  [("MacLoader.exe", true), ("MacType.dll", true), ("MacLoader64.exe", false),
    ("MacType64.dll", false)]

def readBounded (content : Except String Bytes) (maximumBytes : ℕ) (description : String) :
    Except String Bytes := do
  let bytes ← content
  require (bytes.length ≤ maximumBytes)
    (description ++ " exceeds its " ++ toString maximumBytes ++ "-byte limit")
  return bytes

/-! ## The bundled default -/

/-- The bytes can be decoded, as a profile document needs them to be. -/
def decodes (legacyDecodes : Bytes → Bool) (bytes : Bytes) : Except String Unit :=
  if [0xEF, 0xBB, 0xBF].isPrefixOf bytes then
    require (ByteArray.validateUTF8 ⟨(bytes.drop 3).toArray⟩) "invalid utf-8 sequence"
  else if [0xFF, 0xFE].isPrefixOf bytes then do
    require (bytes.length % 2 == 0) "UTF-16LE profile has an odd byte length"
    require (Text.decodeUtf16 (Text.unitsLe (bytes.drop 2))).isSome "invalid utf-16"
  else if [0xFE, 0xFF].isPrefixOf bytes then do
    require (bytes.length % 2 == 0) "UTF-16BE profile has an odd byte length"
    require (Text.decodeUtf16 (Text.unitsBe (bytes.drop 2))).isSome "invalid utf-16"
  else
    require (ByteArray.validateUTF8 ⟨bytes.toArray⟩ || legacyDecodes bytes)
      ("profile is not valid UTF-8, UTF-16, GB18030, Big5, Shift-JIS, EUC-KR, or Windows-1252")

def defaultReference : String := "ini\\Default.ini"

section

variable {μ : Type} (env : Surroundings μ)

def bundledDefaultProfileAt (installation : Installation) : Except String (Option Bytes) :=
  if !installation.default.isFile then .ok none
  else do
    let bytes ← readBounded installation.default.content maxProfileBytes "default profile"
    decodes env.legacyDecodes bytes
    return some bytes

def bundledDefaultProfilePayload (installation : Installation) : Except String Bytes :=
  match bundledDefaultProfileAt env installation with
  | .error error => .error ("control-center-default-profile-invalid: no profile is applied and " ++
      "ini\\Default.ini could not be validated: " ++ error)
  | .ok none => .error ("control-center-default-profile-missing: no profile is applied and " ++
      "ini\\Default.ini was not found; apply a profile first")
  | .ok (some bytes) => .ok bytes

/-! ## The active runtime -/

/-- The active runtime with its directory. -/
def activeRuntimeFrom (s : Managed μ) : Except String (ActiveRuntime × Folder) := do
  let bytes ← readBounded (s.pointer.getD .absent).content maxActiveRuntimeBytes
    "active runtime pointer"
  let active ← env.parse bytes
  s.generations
  let root ← s.folder active.runtimeRoot
  require (root.managed && (root.file "MacLoader.exe").isFile && (root.file "MacType.dll").isFile &&
      (root.file "MacType.ini").isFile && (root.file "profile.ini").isFile)
    "active MacType runtime is incomplete or outside the managed directory"
  return (active, root)

def activeProfilePayloadAt (profile : FoundFile) : Except String Bytes := do
  let bytes ← readBounded profile.content maxProfileBytes "active system profile"
  require (bytes != []) "active system profile is outside the allowed range"
  return bytes

def activeSystemProfilePayload (s : Managed μ) : Except String Bytes := do
  let (_, root) ← activeRuntimeFrom env s
  let length ← (root.file "profile.ini").length
  require (length != 0 && length ≤ maxProfileBytes)
    "active system profile must be between 1 byte and 4 MiB"
  activeProfilePayloadAt (root.file "profile.ini")

/-! ## Preparing a runtime -/

def collectArtifacts (installation : Installation) :
    List (String × Bool) → Except String (List (String × Bytes))
  | [] => .ok []
  | (name, required) :: rest =>
    let artifact := installation.artifact name
    if !artifact.isFile then
      if required then .error (name ++ " was not found in the selected installation")
      else collectArtifacts installation rest
    else do
      let inside ← artifact.insideInstallation
      require inside (name ++ " resolves outside the selected installation")
      let bytes ← readBounded artifact.content maxRuntimeFileBytes ("runtime artifact " ++ name)
      let sources ← collectArtifacts installation rest
      return (name, bytes) :: sources

def nibble (n : ℕ) : Char := if n < 10 then Char.ofNat (48 + n) else Char.ofNat (87 + n)

def hex (bytes : Bytes) : String :=
  String.ofList (bytes.flatMap fun byte => [nibble (byte.toNat / 16), nibble (byte.toNat % 16)])

/-- The name of the generation: the first twelve bytes of the digest of what is in it. -/
def generationId (profileBytes : Bytes) (sources : List (String × Bytes)) : String :=
  let fingerprint := profileBytes ++
    sources.flatMap fun source => Text.utf8 source.1.toList ++ source.2
  hex ((env.sha256 fingerprint).take 12)

def runtimeIni : Bytes := Text.utf8 "[General]\r\nAlternativeFile=profile.ini\r\n".toList

/-- The directory of a new generation. -/
def generationFolder (profileBytes : Bytes) (sources : List (String × Bytes)) : Folder where
  managed := true
  file name :=
    if name = "profile.ini" then .holding profileBytes
    else if name = "MacType.ini" then .holding runtimeIni
    else match sources.lookup name with
      | some bytes => .holding bytes
      | none => .absent

/-- The staged directory becomes the generation, unless there is one by now. -/
def stageGeneration (names : List String) : Except String (Option Folder) := do
  bif env.writes.stagingExists then env.writes.removeStaleStaging else .ok ()
  env.writes.createStaging
  names.forM env.writes.writeStaged
  match env.writes.rename with
  | .ok () => return none
  | .error error =>
    if env.writes.madeMeanwhile.isSome then do
      env.writes.removeStaging
      return env.writes.madeMeanwhile
    else .error error

/-- What goes into a generation beside the profile. -/
def collectSources (installation : Installation) (profileBytes : Bytes) :
    Except String (List (String × Bytes)) := do
  require (profileBytes != []) "runtime profile must not be empty"
  require (profileBytes.length ≤ maxProfileBytes)
    ("runtime profile exceeds its " ++ toString maxProfileBytes ++ "-byte limit")
  installation.resolves
  collectArtifacts installation runtimeArtifacts

/-- Everything up to the write of `active.json`, which is to name the generation that is given. -/
def prepareGeneration (installation : Installation) (profileBytes : Bytes) (s : Managed μ) :
    Except String String × Managed μ :=
  match collectSources installation profileBytes with
  | .error error => (.error error, s)
  | .ok sources =>
    match env.writes.createGenerations with
    | .error error => (.error error, s)
    | .ok () =>
      let s := { s with generations := .ok () }
      let generation := env.generationPath (generationId env profileBytes sources)
      if (s.folder generation).isOk then (.ok generation, s)
      else match stageGeneration env (sources.map Prod.fst ++ ["profile.ini", "MacType.ini"]) with
        | .error error => (.error error, s)
        | .ok meanwhile =>
          let folder := fun path =>
            if path = generation then .ok (meanwhile.getD (generationFolder profileBytes sources))
            else s.folder path
          (.ok generation, { s with folder })

/-- The runtime for a profile, which becomes the active one. -/
def prepareRuntimeAt (installation : Installation) (sourceProfile : String) (profileBytes : Bytes)
    (s : Managed μ) : Except String (ActiveRuntime × Folder) × Managed μ :=
  match prepareGeneration env installation profileBytes s with
  | (.error error, s) => (.error error, s)
  | (.ok generation, s) =>
    match env.writes.replacePointer with
    | .error error => (.error error, s)
    | .ok () =>
      let active := env.toVecPretty ⟨generation, sourceProfile⟩
      let s := { s with
        pointer := some (.holding active)
        applied := profileBytes :: s.applied }
      (activeRuntimeFrom env s, s)

/-! ## The operations -/

def installationMissing : String := "MacType installation was not found"

/-- Whether the bundled default had to be applied. -/
def ensureActiveRuntime (s : Managed μ) : Except String Bool × Managed μ :=
  if (activeRuntimeFrom env s).isOk then (.ok false, s)
  else match env.installation with
    | none => (.error installationMissing, s)
    | some installation =>
      match bundledDefaultProfilePayload env installation with
      | .error error => (.error error, s)
      | .ok bytes =>
        match prepareRuntimeAt env installation defaultReference bytes s with
        | (.error error, s) => (.error error, s)
        | (.ok _, s) => (.ok true, s)

def serviceStartProfileAt (installation : Installation) (s : Managed μ) :
    Except String Bytes × Managed μ :=
  match activeRuntimeFrom env s with
  | .ok (_, root) => (activeProfilePayloadAt (root.file "profile.ini"), s)
  | .error _ =>
    match bundledDefaultProfilePayload env installation with
    | .error error => (.error error, s)
    | .ok bytes =>
      match prepareRuntimeAt env installation defaultReference bytes s with
      | (.error error, s) => (.error error, s)
      | (.ok (_, root), s) => (activeProfilePayloadAt (root.file "profile.ini"), s)

inductive Operation where
  | serviceStart
  | activate
  | trayApply
  deriving DecidableEq

/-- The profile that an operation hands to the machine. -/
def profileFor (operation : Operation) (s : Managed μ) : Except String Bytes × Managed μ :=
  match operation with
  | .serviceStart =>
    match env.installation with
    | none => (.error installationMissing, s)
    | some installation => serviceStartProfileAt env installation s
  | .activate =>
    match ensureActiveRuntime env s with
    | (.error error, s) => (.error error, s)
    | (.ok _, s) => (activeSystemProfilePayload env s, s)
  | .trayApply =>
    if s.paused then (.error "system injection is paused", s)
    else match ensureActiveRuntime env s with
      | (.error error, s) => (.error error, s)
      | (.ok _, s) => (activeSystemProfilePayload env s, s)

/-- What the machine does with the profile. -/
def handOver (operation : Operation) (profile : Bytes) (m : μ) : Except String Unit × μ :=
  match operation with
  | .serviceStart => env.execute .start profile m
  | .activate => env.execute .publishProfile profile m
  | .trayApply =>
    match env.designateRunProfile profile m with
    | (.error error, m) => (.error error, m)
    | (.ok _, m) => (env.writes.recordChoice, m)

def perform (operation : Operation) (s : Managed μ) : Except String Unit × Managed μ :=
  match profileFor env operation s with
  | (.error error, s) => (.error error, s)
  | (.ok profile, s) =>
    let handed := handOver env operation profile s.machine
    (handed.1, { s with machine := handed.2 })

end

end MacTypeControl.Execution
