import MacTypeControl.Events.EventLog
import MacTypeControl.Files.Shared

/-!
# Two kinds of writers of one log

The writer of events holds a lock, measures the base file and rotates it. The record of the end of
the session is appended without the lock, after a look at the length of the file it has opened.
Every call to the file system is one step, and the steps of different calls come in any order.
-/

namespace MacTypeControl.Events

open Files

/-- A call that appends one record. -/
inductive AppendCall where
  | append (record : EventRecord)
  | appendSynchronouslyAt (record : EventRecord)

def AppendCall.record : AppendCall → EventRecord
  | .append record => record
  | .appendSynchronouslyAt record => record

/-- Where the line of a record has been written. -/
structure Place where
  file : ℕ
  offset : ℕ
  deriving DecidableEq

/-- How far a call has come. A call that is to write has the length that it `seen` for its file. -/
inductive Phase where
  | ready
  | measuring
  | checking (index : ℕ)
  | removing (index : ℕ)
  | moving (index : ℕ)
  | opening (seen : ℕ)
  | writing (file seen : ℕ)
  | measuringOpened (file : ℕ)
  | writingSynchronously (file seen : ℕ)
  | syncing (place : Place)
  | returned (place : Option Place)
  deriving DecidableEq

/-- The files of the log, and the calls on them. The files that rotation has removed are kept on
record, with the number that they had. -/
structure Writers (ι : Type) where
  files : Shared ℕ UInt8
  holder : Option ι
  phase : ι → Phase
  removed : List (ℕ × ℕ)

/-- The files by number, as a reader finds them. -/
def Writers.log {ι : Type} (s : Writers ι) : EventLog :=
  ⟨fun index => (s.files.link index).map s.files.content⟩

def Writers.length {ι : Type} (s : Writers ι) (file : ℕ) : ℕ := (s.files.content file).length

/-- A line that is not the first of its file is written after a line break. -/
def leadingBreak (seen : ℕ) (line : List UInt8) : List UInt8 :=
  if seen ≠ 0 then newline :: line else line

section

variable {ι : Type} [DecidableEq ι]

namespace Writers

def enter (s : Writers ι) (id : ι) (phase : Phase) : Writers ι :=
  { s with phase := Function.update s.phase id phase }

/-- The writer returns, and gives up the lock. -/
def release (s : Writers ι) (id : ι) (place : Option Place) : Writers ι :=
  { s with holder := none }.enter id (.returned place)

/-- Removes a backup. -/
def removeFile (s : Writers ι) (index : ℕ) : Writers ι :=
  { s with
    files := s.files.remove index
    removed := (s.files.link index).toList.map (index, ·) ++ s.removed }

/-- Moves a file one number on, over a backup of that number. -/
def renameFile (s : Writers ι) (index : ℕ) : Writers ι :=
  { s with
    files := s.files.rename (index - 1) index
    removed :=
      if (s.files.link (index - 1)).isSome then
        (s.files.link index).toList.map (index, ·) ++ s.removed
      else s.removed }

def openBase (s : Writers ι) (next : ℕ → Phase) (id : ι) : Writers ι :=
  let (file, files) := s.files.openOrCreate 0
  { s with files }.enter id (next file)

/-- Appends to a file, and says where. The place is that of the line, after a leading break. -/
def write (s : Writers ι) (file : ℕ) (lead line : List UInt8) : Place × Writers ι :=
  (⟨file, s.length file + lead.length⟩,
    { s with files := s.files.append file (lead ++ line) })

/-- One step of `EventLogWriter::append`. The length of a base file that is not there is zero. -/
def stepAppend (s : Writers ι) (line : List UInt8) (id : ι) (fails : Bool) : Option (Writers ι) :=
  match s.phase id with
  | .ready =>
    if s.holder.isSome then none
    else if maxEventLogBytes < line.length || fails then some (s.enter id (.returned none))
    else some ({ s with holder := some id }.enter id .measuring)
  | .measuring =>
    let current := s.log.currentLength
    if fails then some (s.release id none)
    else if current + line.length ≤ maxEventLogBytes then some (s.enter id (.opening current))
    else some (s.enter id (.checking eventLogBackups))
  | .checking index =>
    -- `exists` answers no for a file that it cannot look at
    if (s.files.link index).isSome && !fails then some (s.enter id (.removing index))
    else some (s.enter id (.moving index))
  | .removing index =>
    if fails then some (s.release id none)
    else some ((s.removeFile index).enter id (.moving index))
  | .moving index =>
    if fails then some (s.release id none)
    else some ((s.renameFile index).enter id
      (if index = 1 then .opening 0 else .checking (index - 1)))
  | .opening seen =>
    if fails then some (s.release id none) else some (s.openBase (.writing · seen) id)
  | .writing file _ =>
    if fails then some (s.release id none)
    else
      let (place, s) := s.write file [] line
      some (s.release id (some place))
  | _ => none

/-- One step of `append_synchronously_at`. -/
def stepSynchronously (s : Writers ι) (line : List UInt8) (id : ι) (fails : Bool) :
    Option (Writers ι) :=
  match s.phase id with
  | .ready =>
    if fails then some (s.enter id (.returned none)) else some (s.openBase .measuringOpened id)
  | .measuringOpened file =>
    let current := s.length file
    if maxEventLogBytes < current + (leadingBreak current line).length || fails then
      some (s.enter id (.returned none))
    else some (s.enter id (.writingSynchronously file current))
  | .writingSynchronously file seen =>
    if fails then some (s.enter id (.returned none))
    else
      let (place, s) := s.write file (if seen ≠ 0 then [newline] else []) line
      some (s.enter id (.syncing place))
  | .syncing place => some (s.enter id (.returned (if fails then none else some place)))
  | _ => none

/-- One step of a call, which the system may refuse. There is none while the lock is held by another
call, nor after the call has returned. -/
def step (format : RecordFormat) (calls : ι → AppendCall) (s : Writers ι) (id : ι) (fails : Bool) :
    Option (Writers ι) :=
  match calls id with
  | .append record => s.stepAppend (format.line record) id fails
  | .appendSynchronouslyAt record => s.stepSynchronously (format.line record) id fails

/-- What a call is about to write: the file, the length it had for the call, and the bytes. -/
def pending (format : RecordFormat) (calls : ι → AppendCall) (s : Writers ι) (id : ι) :
    Option (ℕ × ℕ × List UInt8) :=
  match calls id, s.phase id with
  | .append record, .writing file seen => some (file, seen, format.line record)
  | .appendSynchronouslyAt record, .writingSynchronously file seen =>
    some (file, seen, leadingBreak seen (format.line record))
  | _, _ => none

/-- The log as it is before the first of the calls. -/
def start (log : EventLog) : Writers ι where
  files :=
    { content := fun file => if file ≤ eventLogBackups then (log.file file).getD [] else []
      link := fun index =>
        if index ≤ eventLogBackups then (log.file index).map fun _ => index else none
      next := eventLogBackups + 1 }
  holder := none
  phase _ := .ready
  removed := []

/-- The states that runs lead to, whose every step meets the condition. -/
inductive Reaches (format : RecordFormat) (calls : ι → AppendCall)
    (condition : Writers ι → ι → Prop) (s : Writers ι) : Writers ι → Prop
  | refl : Reaches format calls condition s s
  | next {t u : Writers ι} {id : ι} {fails : Bool} (before : Reaches format calls condition s t)
      (holds : condition t id) (moves : t.step format calls id fails = some u) :
      Reaches format calls condition s u

end Writers

end

/-! ## Reading the log of the control center -/

/-- How the reader makes a record of a line: an event, or a line of an older format, which is
converted. -/
structure LineReader where
  event : List UInt8 → Option EventRecord
  older : List UInt8 → Option EventRecord

def LineReader.read (reader : LineReader) (line : List UInt8) : Option EventRecord :=
  match (reader.event line).filter validRecord with
  | some record => some record
  | none => reader.older line

/-- The lines of a text, which need not end in a line break. -/
def textLines (content : List UInt8) : List (List UInt8) :=
  let pieces := content.splitOn newline
  if pieces.getLast? = some [] then pieces.dropLast else pieces

def Collected.add (reader : LineReader) (collected : Collected) (line : List UInt8) : Collected where
  entries := collected.entries ++ (reader.read line).toList.map (·, collected.order)
  order := min (collected.order + 1) (2 ^ 64 - 1)

def readAllAt (reader : LineReader) (log : EventLog) : List EventRecord :=
  let lines := EventLog.order.flatMap fun index =>
    match log.file index with
    | some bytes => if bytes.length ≤ maxEventLogBytes then textLines bytes else []
    | none => []
  let collected := lines.foldl (Collected.add reader) ⟨[], 0⟩
  (collected.entries.mergeSort keyLE).map Prod.fst

end MacTypeControl.Events
