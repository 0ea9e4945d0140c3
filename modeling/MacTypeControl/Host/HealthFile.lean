import MacTypeControl.Checks
import MacTypeControl.Crash.Logic
import MacTypeControl.Host.Health

/-!
# The persisted health of the service

A report is checked, written beside the snapshot and moved over it. What a reader of the snapshot
accepts is checked again, so a report that was persisted is read back as it was.
-/

namespace MacTypeControl.Host

open Crash Crash.Prog Injection

/-! ## The folder of the snapshot -/

/-- What the name of the snapshot leads to. -/
inductive HealthPath where
  | absent
  | file (bytes : List UInt8)
  | directory
  | reparse

/-- Another entry of the service root. Its name may not be Unicode. -/
structure ServiceRootEntry where
  name : Option String
  isReparse : Bool
  isFile : Bool
  content : List UInt8

structure HealthFolder where
  reparseAbove : Bool
  exists_ : Bool
  health : HealthPath
  entries : List ServiceRootEntry

/-- The folder, and every report that was moved over the snapshot with the folder it was left in,
newest first. -/
structure HealthDisk where
  folder : HealthFolder
  persisted : List (HealthReport × HealthFolder)

def HealthPath.isReparse : HealthPath → Bool
  | .reparse => true
  | _ => false

def HealthPath.isAbsent : HealthPath → Bool
  | .absent => true
  | _ => false

namespace HealthFolder

def hasReparseAncestor (folder : HealthFolder) : Bool :=
  folder.reparseAbove || folder.health.isReparse

def entryCount (folder : HealthFolder) : ℕ :=
  folder.entries.length + (if folder.health.isAbsent then 0 else 1)

def find (folder : HealthFolder) (name : String) : Option ServiceRootEntry :=
  folder.entries.find? fun entry => entry.name = some name

def erase (folder : HealthFolder) (name : String) : HealthFolder :=
  { folder with entries := folder.entries.filter fun entry => entry.name ≠ some name }

/-- The file of that name with other content. -/
def write (folder : HealthFolder) (name : String) (content : List UInt8) : HealthFolder :=
  { folder with entries := folder.entries.map fun entry =>
      if entry.name = some name then { entry with content } else entry }

end HealthFolder

/-! ## The format of the snapshot -/

def newline : UInt8 := 0x0A

/-- The serializer of the reports and the parser that goes with it, which gives a report back and
takes white space behind it. -/
structure HealthFormat where
  serialize : HealthReport → List UInt8
  parse : List UInt8 → Option HealthReport
  parse_serialize : ∀ report, parse (serialize report ++ [newline]) = some report

def maxHealthSnapshotBytes : ℕ := 16 * 1024

def maxServiceRootEntries : ℕ := 4096

def invalidData (message : String) : OsError := ⟨message, none⟩

def rejectReparse (found : Bool) : Except OsError Unit :=
  require (!found) (invalidData "health snapshot path contains a reparse point")

def readBoundedContents (bytes : List UInt8) (maximumBytes : ℕ) :
    Except OsError (List UInt8) := do
  require (bytes.length != 0 && bytes.length ≤ maximumBytes)
    (invalidData "protected file is outside the bounded size")
  .ok bytes

namespace FileHealthPublisher

variable (format : HealthFormat)

def read (folder : HealthFolder) : Except OsError HealthReport := do
  rejectReparse folder.hasReparseAncestor
  match folder.health with
  | .absent => .error ⟨"the system cannot find the file specified", some 2⟩
  | .directory | .reparse =>
    .error (invalidData "persisted health snapshot is not a bounded regular file")
  | .file bytes => do
    require (bytes.length != 0 && bytes.length ≤ maxHealthSnapshotBytes)
      (invalidData "persisted health snapshot is not a bounded regular file")
    let bytes ← readBoundedContents bytes maxHealthSnapshotBytes
    match format.parse bytes with
    | none => .error (invalidData "the persisted health snapshot is not valid JSON")
    | some report => do
      require report.validate (invalidData "unsupported or malformed service health report")
      .ok report

/-! ## Staging -/

def stagingPrefix : String := ".health.json.new-"

/-- The name of a file that a publication has left: three numbers follow the fixed beginning. -/
def isOwnedStaging (name : String) : Bool :=
  let parts := (name.toList.drop stagingPrefix.toList.length).splitOn '-'
  stagingPrefix.toList.isPrefixOf name.toList && parts.length == 3 &&
    parts.all fun part => part != [] && part.all fun c => '0' ≤ c && c ≤ '9'

/-- The names of the files to remove. -/
def removableStaging (folder : HealthFolder) : Except OsError (List String) := do
  require (folder.entryCount ≤ maxServiceRootEntries) (invalidData
    "health staging cleanup is unknown: service root entry count exceeds its fixed limit")
  let owned := folder.entries.filter fun entry => entry.name.any isOwnedStaging
  owned.forM fun entry => do
    rejectReparse (folder.reparseAbove || entry.isReparse)
    require (entry.isFile && entry.content.length ≤ maxHealthSnapshotBytes)
      (invalidData "owned health staging residue is not a bounded regular file")
  .ok (owned.filterMap (·.name))

abbrev Publishing := Prog HealthDisk OsError

variable (io : OsError)

def modifyFolder (f : HealthFolder → HealthFolder) : Publishing Unit :=
  modify io fun disk => { disk with folder := f disk.folder }

def inspectFolder {α : Type} (f : HealthFolder → Except OsError α) : Publishing α :=
  inspect io fun disk => f disk.folder

def removeStaging : List String → Publishing Unit
  | [] => ret ()
  | name :: rest => do
    modifyFolder io (·.erase name)
    removeStaging rest

def cleanupOwnedStaging : Publishing Unit := do
  let names ← inspectFolder io removableStaging
  removeStaging io names

/-! ## Publication -/

def createNew (name : String) : Publishing Unit :=
  atomic io fun disk => match disk.folder.find name with
    | some _ => .error ⟨"the file exists", some 80⟩
    | none => .ok ((), { disk with folder := { disk.folder with
        entries := ⟨some name, false, true, []⟩ :: disk.folder.entries } })

/-- A write that is caught half-way leaves the beginning of the file. -/
def writeAll (name : String) (bytes : List UInt8) : Publishing Unit :=
  step io (fun disk => (List.range bytes.length).map fun n =>
      { disk with folder := disk.folder.write name (bytes.take n) })
    fun disk => .ok ((), { disk with folder := disk.folder.write name bytes })

def syncAll : Publishing Unit := modifyFolder io id

/-- Moves the file over the snapshot. -/
def replaceFile (name : String) (report : HealthReport) : Publishing Unit :=
  atomic io fun disk => match disk.folder.health, disk.folder.find name with
    | .directory, _ => .error ⟨"access is denied", some 5⟩
    | _, none => .error ⟨"the system cannot find the file specified", some 2⟩
    | _, some entry =>
      let folder := { disk.folder.erase name with health := .file entry.content }
      .ok ((), ⟨folder, (report, folder) :: disk.persisted⟩)

def persist (name : String) (bytes : List UInt8) (report : HealthReport) : Publishing Unit := do
  createNew io name
  writeAll io name bytes
  syncAll io
  replaceFile io name report

/-- `io` is what a step reports that fails, and `nonce` ends the name of the staging file. -/
def publish (nonce : String) (report : HealthReport) : Publishing Unit := do
  ensure report.validate (invalidData "unsupported or malformed service health report")
  let bytes := format.serialize report ++ [newline]
  ensure (bytes.length ≤ maxHealthSnapshotBytes)
    (invalidData "health snapshot exceeds its fixed bound")
  inspectFolder io fun folder => rejectReparse folder.reparseAbove
  modifyFolder io fun folder => { folder with exists_ := true }
  inspectFolder io fun folder => rejectReparse folder.hasReparseAncestor
  cleanupOwnedStaging io
  let name := stagingPrefix ++ nonce
  (persist io name bytes report).handle fun error => do
    let _ ← (modifyFolder io (·.erase name)).attempt
    throw error

end FileHealthPublisher

/-! ## What is persisted -/

/-- A reader of the snapshot accepts the report, and a report that says that the service is ready
says it of everything. -/
structure Accepted (format : HealthFormat) (report : HealthReport) (folder : HealthFolder) :
    Prop where
  read : FileHealthPublisher.read format folder = .ok report
  valid : report.validate = true
  ready : report.health = .ready → report.activeProfileDigest.isSome = true ∧
    report.readiness.allRequiredReady = true ∧ report.lastError = none

theorem ready_of_validate {report : HealthReport} (h : report.validate = true)
    (hready : report.health = .ready) : report.activeProfileDigest.isSome = true ∧
      report.readiness.allRequiredReady = true ∧ report.lastError = none := by
  unfold HealthReport.validate HealthReport.stateIsConsistent at h
  simp only [hready, Bool.and_eq_true, Bool.or_eq_true, bne_self_eq_false, Bool.false_eq_true,
    false_or, Option.isNone_iff_eq_none] at h
  obtain ⟨⟨⟨⟨⟨_, hcomponents⟩, _⟩, herror, hdigest⟩, _⟩, _⟩ := h
  exact ⟨hdigest, hcomponents, herror⟩

def AllAccepted (format : HealthFormat) (disk : HealthDisk) : Prop :=
  ∀ snapshot ∈ disk.persisted, Accepted format snapshot.1 snapshot.2

namespace FileHealthPublisher

variable {format : HealthFormat} {io : OsError} {disk : HealthDisk} {name nonce : String}
  {report : HealthReport}

theorem read_serialize (hvalid : report.validate = true) {folder : HealthFolder}
    (hlength : (format.serialize report ++ [newline]).length ≤ maxHealthSnapshotBytes)
    (hreparse : folder.reparseAbove = false)
    (hhealth : folder.health = .file (format.serialize report ++ [newline])) :
    read format folder = .ok report := by
  have hbounded : ((format.serialize report ++ [newline]).length != 0 &&
      decide ((format.serialize report ++ [newline]).length ≤ maxHealthSnapshotBytes)) = true := by
    simpa using hlength
  unfold read
  refine bind_eq_ok.2 ⟨(), ?_, ?_⟩
  · unfold rejectReparse HealthFolder.hasReparseAncestor
    rw [hreparse, hhealth]
    rfl
  · rw [hhealth]
    refine bind_eq_ok.2 ⟨(), require_true _ hbounded, ?_⟩
    refine bind_eq_ok.2 ⟨_, bind_eq_ok.2 ⟨(), require_true _ hbounded, rfl⟩, ?_⟩
    rw [format.parse_serialize]
    exact bind_eq_ok.2 ⟨(), require_true _ hvalid, rfl⟩

/-- Every accepted report stays one, and there is no reparse point in the way. -/
structure Clear (format : HealthFormat) (disk : HealthDisk) : Prop where
  accepted : AllAccepted format disk
  clear : disk.folder.hasReparseAncestor = false

theorem maintains_removeStaging (names : List String) :
    Maintains (Clear format) (removeStaging io names) fun _ => True := by
  induction names with
  | nil => exact maintains_ret trivial
  | cons name rest ih =>
    exact maintains_bind (maintains_modify fun _ h => ⟨h.accepted, h.clear⟩) fun _ _ => ih

theorem maintains_cleanup : Maintains (Clear format) (cleanupOwnedStaging io) fun _ => True :=
  maintains_bind (maintains_inspect fun _ _ _ _ => trivial) fun names _ =>
    maintains_removeStaging names

theorem find_write {folder : HealthFolder} {entry : ServiceRootEntry} {content : List UInt8}
    (h : folder.find name = some entry) :
    (folder.write name content).find name = some { entry with content } := by
  unfold HealthFolder.find HealthFolder.write at *
  dsimp only
  rw [List.find?_map]
  have hname : ((fun entry : ServiceRootEntry => decide (entry.name = some name)) ∘ fun entry =>
      if entry.name = some name then { entry with content } else entry) =
      fun entry => decide (entry.name = some name) := by
    funext other
    by_cases hother : other.name = some name <;> simp [hother]
  rw [hname, h]
  have hentry : entry.name = some name := by simpa using List.find?_some h
  simp [hentry]

/-- The staging file has the content. -/
structure Staged (format : HealthFormat) (name : String) (content : List UInt8)
    (disk : HealthDisk) : Prop extends Clear format disk where
  staged : ∃ entry, disk.folder.find name = some entry ∧ entry.content = content

theorem wp_replaceFile (hvalid : report.validate = true)
    (hlength : (format.serialize report ++ [newline]).length ≤ maxHealthSnapshotBytes)
    (h : Staged format name (format.serialize report ++ [newline]) disk) :
    wp (replaceFile io name report) (fun _ => AllAccepted format) (fun _ => AllAccepted format)
      (AllAccepted format) disk := by
  refine wp_atomic (fun _ moved hmoved => ?_) (fun _ _ => h.accepted) h.accepted h.accepted
  obtain ⟨staged, hstaged, hcontent⟩ := h.staged
  have hreparse : disk.folder.reparseAbove = false := (Bool.or_eq_false_iff.1 h.clear).1
  dsimp only at hmoved
  split at hmoved
  · cases hmoved
  · cases hmoved
  · next entry hentry _ =>
    cases hmoved
    obtain rfl : staged = entry := Option.some.inj (hstaged.symm.trans hentry)
    have hread : read format { disk.folder.erase name with health := .file staged.content } =
        .ok report := read_serialize hvalid hlength hreparse (by rw [hcontent])
    intro snapshot hsnapshot
    rcases List.mem_cons.1 hsnapshot with rfl | hbefore
    · exact ⟨hread, hvalid, ready_of_validate hvalid⟩
    · exact h.accepted snapshot hbefore

/-- What is moved over the snapshot is the whole report. -/
theorem wp_persist (hvalid : report.validate = true)
    (hlength : (format.serialize report ++ [newline]).length ≤ maxHealthSnapshotBytes)
    (h : Clear format disk) :
    wp (persist io name (format.serialize report ++ [newline]) report)
      (fun _ => AllAccepted format) (fun _ => AllAccepted format) (AllAccepted format) disk := by
  unfold persist
  refine wp_bind (wp_atomic (fun _ created hcreated => ?_) (fun _ _ => h.accepted) h.accepted
    h.accepted)
  have hcreated : Staged format name [] created := by
    dsimp only at hcreated
    split at hcreated
    · cases hcreated
    · cases hcreated
      refine ⟨⟨h.accepted, h.clear⟩, ⟨some name, false, true, []⟩, ?_, rfl⟩
      unfold HealthFolder.find
      exact List.find?_cons_of_pos (by simp)
  refine wp_bind (wp_step (fun _ written hwritten => ?_) (fun _ _ => hcreated.accepted)
    hcreated.accepted hcreated.accepted fun partly hpartly => ?_)
  · cases hwritten
    obtain ⟨entry, hentry, _⟩ := hcreated.staged
    have hwritten : Staged format name (format.serialize report ++ [newline])
        { created with
          folder := created.folder.write name (format.serialize report ++ [newline]) } :=
      ⟨⟨hcreated.accepted, hcreated.clear⟩, _, find_write hentry, rfl⟩
    exact wp_bind (wp_modify (wp_replaceFile hvalid hlength hwritten) hwritten.accepted
      hwritten.accepted)
  · obtain ⟨n, _, rfl⟩ := List.mem_map.1 hpartly
    exact ⟨hcreated.accepted, hcreated.accepted⟩

/-- Whatever fails in a publication and wherever it stops, what it has moved over the snapshot is
accepted. -/
theorem maintains_publish :
    Maintains (AllAccepted format) (publish format io nonce report) fun _ => True := by
  intro disk h
  unfold publish
  refine wp_bind (wp_ensure (fun hvalid => ?_) fun _ => h)
  refine wp_bind (wp_ensure (fun hlength => ?_) fun _ => h)
  refine wp_bind (wp_inspect (fun _ _ => ?_) (fun _ _ => h) h h)
  refine wp_bind (wp_modify ?_ h h)
  refine wp_bind (wp_inspect (fun _ hclear => ?_) (fun _ _ => h) h h)
  have hstart : Clear format
      { disk with folder := { disk.folder with exists_ := true } } := by
    refine ⟨h, ?_⟩
    have hclear := ok_of_require hclear
    simpa using hclear
  refine wp_bind (wp_mono (maintains_cleanup _ hstart) (fun _ cleaned hcleaned => ?_)
    (fun _ _ h => h.accepted) fun _ h => h.accepted)
  have hpersist := @wp_persist format io _ (stagingPrefix ++ nonce) _ hvalid
    (decide_eq_true_iff.1 hlength) hcleaned.2
  refine wp_handle (wp_mono hpersist (fun _ _ h => ⟨trivial, h⟩) (fun error left hleft => ?_)
    fun _ h => h)
  have herased : Maintains (AllAccepted format)
      (modifyFolder io (·.erase (stagingPrefix ++ nonce))).attempt fun _ => True := by
    refine Maintains.attempted (P := fun _ => True) (maintains_modify fun _ h => ?_)
    exact h
  exact wp_bind (wp_mono (herased left hleft) (fun _ _ h => wp_throw h.2) (fun _ _ h => h)
    fun _ h => h)

end FileHealthPublisher

end MacTypeControl.Host
