import MacTypeControl.Crash.Logic
import MacTypeControl.Execution.Runtime

/-!
# The generations of the managed runtime

A generation is staged in a directory of its own and then renamed to the name that its contents
have. A call can be stopped at any step, and leaves what it has written so far. A generation that is
already there under the name is taken as it is.
-/

namespace MacTypeControl.Execution

open Crash Crash.Prog Profile

/-- The files of a directory. -/
abbrev Directory := List (String × Bytes)

/-- The directory `runtime` with its generations, if there are any, with `active.json` and with the
temporary files beside it. -/
structure Base where
  generations : Option (String → Option Directory)
  active : Option Bytes
  temporary : String → Option Bytes

/-- The paths of the generations lead to them, and what is written as `active.json` is read back. -/
structure Located (env : Surroundings Unit) where
  generationName : String → Option String
  generationName_path : ∀ name, generationName (env.generationPath name) = some name
  parse_toVecPretty : ∀ active, env.parse (env.toVecPretty active) = .ok active

/-- What a call is given, and what tells its temporary files apart. -/
structure Applying where
  installation : Installation
  sourceProfile : String
  profileBytes : Bytes
  processId : ℕ
  nonce : ℕ

namespace Base

def directory (s : Base) (name : String) : Option Directory := s.generations.bind (· name)

def setDirectory (s : Base) (name : String) (value : Option Directory) : Base :=
  { s with generations := s.generations.map fun directories other =>
      if other = name then value else directories other }

def setTemporary (s : Base) (name : String) (value : Option Bytes) : Base :=
  { s with temporary := fun other => if other = name then value else s.temporary other }

/-- What is found on the way from `active.json` to a runtime. -/
def managed {env : Surroundings Unit} (located : Located env) (s : Base) : Managed Unit where
  pointer := s.active.map .holding
  generations := if s.generations.isSome then .ok () else .error "directory not found"
  folder path := match (located.generationName path).bind s.directory with
    | some directory => .ok ⟨true, fun name => (directory.lookup name).elim .absent .holding⟩
    | none => .error "directory not found"
  paused := false
  machine := ()
  applied := []

end Base

def putFile (name : String) (bytes : Bytes) (directory : Directory) : Directory :=
  directory.filter (·.1 ≠ name) ++ [(name, bytes)]

def ioError : String := "the operation could not be completed"

/-! ## The steps on the directory -/

abbrev BaseProg := Prog Base String

def createGenerations : BaseProg Unit :=
  modify ioError fun s => { s with generations := some (s.generations.getD fun _ => none) }

/-- The files of a directory go one after another. -/
def removeDirAll (name : String) : BaseProg Unit :=
  step ioError
    (fun s => match s.directory name with
      | some directory => directory.tails.map fun rest => s.setDirectory name (some rest)
      | none => [])
    fun s => match s.directory name with
      | some _ => .ok ((), s.setDirectory name none)
      | none => .error ioError

def createDir (name : String) : BaseProg Unit :=
  act ioError fun s => match s.directory name with
    | some _ => .error ioError
    | none => .ok (s.setDirectory name (some []))

/-- A file is created before it is filled. -/
def writeFile (folder name : String) (bytes : Bytes) : BaseProg Unit :=
  step ioError
    (fun s => (List.range (bytes.length + 1)).map fun n => s.setDirectory folder
      ((s.directory folder).map (putFile name (bytes.take n))))
    fun s => match s.directory folder with
      | some directory => .ok ((), s.setDirectory folder (some (putFile name bytes directory)))
      | none => .error ioError

def renameDir (source destination : String) : BaseProg Unit :=
  act ioError fun s => match s.directory source, s.directory destination with
    | some directory, none =>
      .ok ((s.setDirectory source none).setDirectory destination (some directory))
    | _, _ => .error ioError

def createNew (name : String) : BaseProg Unit :=
  act ioError fun s => match s.temporary name with
    | some _ => .error ioError
    | none => .ok (s.setTemporary name (some []))

def writeTemporary (name : String) (bytes : Bytes) : BaseProg Unit :=
  step ioError
    (fun s => (List.range (bytes.length + 1)).map fun n => s.setTemporary name (some (bytes.take n)))
    fun s => .ok ((), s.setTemporary name (some bytes))

def replaceActive (name : String) (bytes : Bytes) : BaseProg Unit :=
  act ioError fun s => .ok { s.setTemporary name none with active := some bytes }

def removeTemporary (name : String) : BaseProg Unit :=
  act ioError fun s => .ok (s.setTemporary name none)

/-! ## The call -/

def temporaryName (processId nonce : ℕ) : String :=
  "active.tmp-" ++ toString processId ++ "-" ++ toString nonce

def atomicWrite (processId nonce : ℕ) (bytes : Bytes) : BaseProg Unit := do
  let temporary := temporaryName processId nonce
  createNew temporary
  writeTemporary temporary bytes
  -- the file is synced
  modify ioError id
  (replaceActive temporary bytes).handle fun error => do
    let _ ← (removeTemporary temporary).attempt
    throw error

/-- What goes into a generation. -/
structure Content where
  profile : Bytes
  sources : List (String × Bytes)

namespace Content

def files (content : Content) : Directory :=
  content.sources ++ [("profile.ini", content.profile), ("MacType.ini", runtimeIni)]

/-- The bytes that the name of the generation is computed from. -/
def fingerprint (content : Content) : Bytes :=
  content.profile ++
    content.sources.flatMap fun source => Text.utf8 source.1.toList ++ source.2

def id (env : Surroundings Unit) (content : Content) : String :=
  generationId env content.profile content.sources

end Content

/-- What is read for a call. -/
def readContent (call : Applying) : Except String Content := do
  require (call.profileBytes != []) "runtime profile must not be empty"
  require (call.profileBytes.length ≤ maxProfileBytes)
    ("runtime profile exceeds its " ++ toString maxProfileBytes ++ "-byte limit")
  call.installation.resolves
  let sources ← collectArtifacts call.installation runtimeArtifacts
  return ⟨call.profileBytes, sources⟩

def stagingName (id : String) (processId : ℕ) : String :=
  ".stage-" ++ id ++ "-" ++ toString processId

def writeFiles (folder : String) : Directory → BaseProg Unit
  | [] => ret ()
  | (name, bytes) :: rest => do
    writeFile folder name bytes
    writeFiles folder rest

def stage (staging generation : String) (files : Directory) : BaseProg Unit := do
  let stale ← observe fun s => s.directory staging
  whenever (stale.isSome = true) (removeDirAll staging)
  createDir staging
  writeFiles staging files
  (renameDir staging generation).handle fun error => do
    let renamed ← observe fun s => s.directory generation
    match renamed with
    | some _ => removeDirAll staging
    | none => throw error

def prepareAt {env : Surroundings Unit} (located : Located env) (call : Applying) :
    BaseProg (ActiveRuntime × Folder) := do
  let content ← ofExcept (readContent call)
  createGenerations
  let generation := content.id env
  let existing ← observe fun s => s.directory generation
  whenever (existing = none) (stage (stagingName generation call.processId) generation content.files)
  atomicWrite call.processId call.nonce
    (env.toVecPretty ⟨env.generationPath generation, call.sourceProfile⟩)
  let found ← observe fun s => activeRuntimeFrom env (s.managed located)
  ofExcept found

/-! ## The calls of the past -/

def emptyBase : Base := ⟨none, none, fun _ => none⟩

/-- What a call wants to apply, if it comes to that. -/
def wanted (call : Applying) : List Content := (readContent call).toOption.toList

/-- The base directories that calls lead to, each possibly stopped, with what they wanted. -/
inductive Reached {env : Surroundings Unit} (located : Located env) : List Content → Base → Prop
  | start : Reached located [] emptyBase
  | call {contents : List Content} {s : Base} (call : Applying) (faults : List Fault) :
    Reached located contents s →
    Reached located (wanted call ++ contents) ((prepareAt located call).result faults s).2

/-- The generation that `active.json` names has exactly the profile and the artifacts. -/
def AppliedExactly {env : Surroundings Unit} (located : Located env) (content : Content)
    (s : Base) : Prop :=
  ∃ bytes active name directory, s.active = some bytes ∧ env.parse bytes = .ok active ∧
    located.generationName active.runtimeRoot = some name ∧ s.directory name = some directory ∧
    directory.lookup "profile.ini" = some content.profile ∧
    ∀ artifact ∈ runtimeArtifacts, directory.lookup artifact.1 = content.sources.lookup artifact.1

end MacTypeControl.Execution
