import MacTypeControl.Events.Sanitize
import Mathlib.Tactic

/-!
# The rotating event log

The log is a base file and numbered backups. A record is one line, and a line that does not fit
moves every file one place on. The serializer is a parameter.
-/

namespace MacTypeControl.Events

def eventLogSchemaVersion : ℕ := 1

def maxEventLogBytes : ℕ := 512 * 1024

def eventLogBackups : ℕ := 4

def maxEventCodeBytes : ℕ := 64

def maxEventParams : ℕ := 8

def maxEventParamBytes : ℕ := 260

def maxEventDetailBytes : ℕ := 24 * 1024

inductive EventSeverity where
  | info
  | notice
  | warning
  | error
  deriving DecidableEq

inductive EventArea where
  | service
  | setup
  | profile
  | preview
  | injection
  | controlCenter
  | tray
  deriving DecidableEq

inductive EventSource where
  | serviceHost
  | serviceSetup
  | controlCenter
  deriving DecidableEq

/-- The parameters of a record, in the order of their keys. -/
abbrev EventParams := List (List Char × List Char)

structure EventRecord where
  v : ℕ
  ts : ℕ
  severity : EventSeverity
  area : EventArea
  code : List Char
  params : EventParams
  detail : Option (List Char)
  source : EventSource
  deriving DecidableEq

def EventParams.insert (params : EventParams) (key value : List Char) : EventParams :=
  match params with
  | [] => [(key, value)]
  | (k, v) :: rest =>
    if key < k then (key, value) :: (k, v) :: rest
    else if key = k then (key, value) :: rest
    else (k, v) :: EventParams.insert rest key value

def EventParams.collect (entries : List (List Char × List Char)) : EventParams :=
  entries.foldl (fun params entry => params.insert entry.1 entry.2) []

def validCode (code : List Char) : Bool :=
  !code.isEmpty && utf8Length code ≤ maxEventCodeBytes &&
    code.all fun c => c.isLower || c.isDigit || c == '-'

def validRecord (record : EventRecord) : Bool :=
  record.v == eventLogSchemaVersion && validCode record.code &&
    record.params.length ≤ maxEventParams &&
    (record.params.all fun entry =>
      utf8Length entry.1 ≤ maxEventParamBytes && utf8Length entry.2 ≤ maxEventParamBytes) &&
    record.detail.all (utf8Length · ≤ maxEventDetailBytes)

/-- One call of `record`. `ts` is the time of the call. -/
structure RecordCall where
  ts : ℕ
  source : EventSource
  severity : EventSeverity
  area : EventArea
  code : List Char
  params : List (List Char × List Char)
  detail : Option (List Char)
  redactions : List (List Char)

/-- The record that a call appends. -/
def RecordCall.record (call : RecordCall) : EventRecord where
  v := eventLogSchemaVersion
  ts := call.ts
  severity := call.severity
  area := call.area
  code := if validCode call.code then call.code else "invalid-code".toList
  params := .collect ((call.params.take maxEventParams).map fun entry =>
    (sanitizeText entry.1 call.redactions maxEventParamBytes,
      sanitizeText entry.2 call.redactions maxEventParamBytes))
  detail := call.detail.map (sanitizeText · call.redactions maxEventDetailBytes)
  source := call.source

/-- The serializer of records. -/
structure RecordFormat where
  toVec : EventRecord → List UInt8
  fromSlice : List UInt8 → Option EventRecord

def newline : UInt8 := 10

def RecordFormat.line (format : RecordFormat) (record : EventRecord) : List UInt8 :=
  format.toVec record ++ [newline]

/-- The files of one log by number: the base file is 0. -/
structure EventLog where
  file : ℕ → Option (List UInt8)

namespace EventLog

def empty : EventLog := ⟨fun _ => none⟩

def set (log : EventLog) (index : ℕ) (content : Option (List UInt8)) : EventLog :=
  ⟨Function.update log.file index content⟩

/-- Removes the backup and moves the file before it into its place. -/
def moveUp (log : EventLog) (index : ℕ) : EventLog :=
  let log := log.set index none
  match log.file (index - 1) with
  | none => log
  | some content => (log.set (index - 1) none).set index (some content)

def currentLength (log : EventLog) : ℕ := (log.file 0).elim 0 List.length

def rotateIfNeeded (log : EventLog) (incoming : ℕ) : EventLog :=
  if log.currentLength + incoming ≤ maxEventLogBytes then log
  else ((List.range' 1 eventLogBackups).reverse).foldl moveUp log

/-- Appends one record, unless its line is longer than a whole log. -/
def append (format : RecordFormat) (log : EventLog) (record : EventRecord) : Option EventLog :=
  let line := format.line record
  if maxEventLogBytes < line.length then none
  else
    let log := log.rotateIfNeeded line.length
    some (log.set 0 (some ((log.file 0).getD [] ++ line)))

def record (format : RecordFormat) (log : EventLog) (call : RecordCall) : Option EventLog :=
  log.append format call.record

/-- The calls all succeed, one after another. -/
def recordAll (format : RecordFormat) (log : EventLog) (calls : List RecordCall) :
    Option EventLog :=
  calls.foldlM (record format) log

/-- The numbers of the files, from the oldest backup to the base file. -/
def order : List ℕ := [4, 3, 2, 1, 0]

end EventLog

/-! ## Reading -/

/-- What the reader has collected, and the number of the next line. -/
structure Collected where
  entries : List (EventRecord × ℕ)
  order : ℕ

/-- One more line, which may not hold a valid record. -/
def Collected.read (format : RecordFormat) (collected : Collected) (line : List UInt8) :
    Collected where
  entries := match format.fromSlice line with
    | some record =>
      if validRecord record then collected.entries ++ [(record, collected.order)]
      else collected.entries
    | none => collected.entries
  order := min (collected.order + 1) (2 ^ 64 - 1)

/-- The lines of one file. A file that is missing or too long has none. -/
def readableLines (content : Option (List UInt8)) : List (List UInt8) :=
  match content with
  | some bytes => if bytes.length ≤ maxEventLogBytes then bytes.splitOn newline else []
  | none => []

def keyLE (a b : EventRecord × ℕ) : Bool :=
  a.1.ts < b.1.ts || (a.1.ts == b.1.ts && a.2 ≤ b.2)

def readEvents (format : RecordFormat) (logs : List EventLog) (limit : ℕ) : List EventRecord :=
  if limit = 0 then []
  else
    let lines := logs.flatMap fun log => EventLog.order.flatMap fun i => readableLines (log.file i)
    let collected := lines.foldl (Collected.read format) ⟨[], 0⟩
    let entries := collected.entries.mergeSort keyLE
    (entries.drop (entries.length - limit)).map Prod.fst

/-! ## What a call records is valid -/

theorem length_insert_le (params : EventParams) (key value : List Char) :
    (params.insert key value).length ≤ params.length + 1 := by
  induction params with
  | nil => simp [EventParams.insert]
  | cons entry rest ih =>
    unfold EventParams.insert
    split
    · simp
    · split
      · simp
      · simpa using ih

theorem mem_insert {params : EventParams} {key value : List Char} {entry : List Char × List Char}
    (h : entry ∈ params.insert key value) : entry = (key, value) ∨ entry ∈ params := by
  induction params with
  | nil => simpa [EventParams.insert] using h
  | cons first rest ih =>
    unfold EventParams.insert at h
    split at h
    · exact List.mem_cons.1 h
    · split at h
      · rcases List.mem_cons.1 h with hnew | hold
        · exact Or.inl hnew
        · exact Or.inr (List.mem_cons_of_mem first hold)
      · rcases List.mem_cons.1 h with hfirst | hlater
        · exact Or.inr (hfirst ▸ List.mem_cons_self)
        · exact (ih hlater).imp_right (List.mem_cons_of_mem first)

theorem foldl_insert (entries : List (List Char × List Char)) (params : EventParams) :
    (entries.foldl (fun params entry => params.insert entry.1 entry.2) params).length ≤
        params.length + entries.length ∧
      ∀ entry ∈ entries.foldl (fun params entry => params.insert entry.1 entry.2) params,
        entry ∈ params ∨ entry ∈ entries := by
  induction entries generalizing params with
  | nil => exact ⟨le_refl _, fun entry h => Or.inl h⟩
  | cons first rest ih =>
    obtain ⟨hlength, hmem⟩ := ih (params.insert first.1 first.2)
    have hinsert := length_insert_le params first.1 first.2
    refine ⟨?_, fun entry hentry => ?_⟩
    · rw [List.foldl_cons, List.length_cons]
      omega
    · rcases hmem entry hentry with hnew | hlater
      · rcases mem_insert hnew with rfl | hold
        · exact Or.inr List.mem_cons_self
        · exact Or.inl hold
      · exact Or.inr (List.mem_cons_of_mem first hlater)

theorem length_collect_le (entries : List (List Char × List Char)) :
    (EventParams.collect entries).length ≤ entries.length := by
  have hlength := (foldl_insert entries []).1
  rwa [List.length_nil, Nat.zero_add] at hlength

theorem mem_of_mem_collect {entries : List (List Char × List Char)}
    {entry : List Char × List Char} (h : entry ∈ EventParams.collect entries) :
    entry ∈ entries :=
  ((foldl_insert entries []).2 entry h).resolve_left List.not_mem_nil

theorem validCode_recorded (code : List Char) :
    validCode (if validCode code then code else "invalid-code".toList) = true := by
  by_cases hcode : validCode code = true
  · rw [if_pos hcode]
    exact hcode
  · rw [if_neg hcode]
    decide

/-- The reader accepts whatever a call records. -/
theorem validRecord_record (call : RecordCall) : validRecord call.record = true := by
  have hcode : validCode call.record.code = true := validCode_recorded call.code
  have hparams : call.record.params.length ≤ maxEventParams := by
    refine le_trans (length_collect_le _) ?_
    rw [List.length_map]
    exact List.length_take_le _ _
  have hentries : ∀ entry ∈ call.record.params,
      utf8Length entry.1 ≤ maxEventParamBytes ∧ utf8Length entry.2 ≤ maxEventParamBytes := by
    intro entry hentry
    obtain ⟨given, -, rfl⟩ := List.mem_map.1 (mem_of_mem_collect hentry)
    exact ⟨utf8Length_sanitizeText _ _ _, utf8Length_sanitizeText _ _ _⟩
  have hdetail : ∀ detail ∈ call.record.detail, utf8Length detail ≤ maxEventDetailBytes := by
    intro detail hmem
    obtain ⟨given, -, rfl⟩ := Option.map_eq_some_iff.1 hmem
    exact utf8Length_sanitizeText _ _ _
  have hversion : call.record.v = eventLogSchemaVersion := rfl
  simp only [validRecord, hversion, hcode, Bool.and_eq_true, beq_self_eq_true, decide_eq_true_eq,
    List.all_eq_true, Option.all_eq_true]
  exact ⟨⟨⟨⟨trivial, trivial⟩, hparams⟩, hentries⟩, hdetail⟩

end MacTypeControl.Events
