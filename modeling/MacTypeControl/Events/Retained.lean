import MacTypeControl.Events.EventLog

/-!
# What the event log retains

The files hold whole lines, in order the last of those recorded, and what rotation drops is the
oldest backup.
-/

namespace MacTypeControl.Events

/-- What the log relies on of the serializer, for the records that it is given: a record comes back
from its line, a line holds no line break, and an empty line is no record. -/
structure RecordFormat.Faithful (format : RecordFormat) (records : List EventRecord) : Prop where
  roundTrip : ∀ record ∈ records, format.fromSlice (format.toVec record) = some record
  oneLine : ∀ record ∈ records, newline ∉ format.toVec record
  empty : format.fromSlice [] = none

/-- The terminated lines of a file. -/
def fileLines (content : List UInt8) : List (List UInt8) := (content.splitOn newline).dropLast

def EventLog.lines (log : EventLog) : List (List UInt8) :=
  EventLog.order.flatMap fun i => (log.file i).elim [] fileLines

/-- The records of the lines that the log holds, from the oldest backup to the base file. -/
def EventLog.retained (format : RecordFormat) (log : EventLog) : List EventRecord :=
  log.lines.filterMap format.fromSlice

variable {format : RecordFormat}

theorem RecordFormat.Faithful.mono {records records' : List EventRecord}
    (h : format.Faithful records) (hsub : ∀ record ∈ records', record ∈ records) :
    format.Faithful records' :=
  ⟨fun record hmem => h.roundTrip record (hsub record hmem),
    fun record hmem => h.oneLine record (hsub record hmem), h.empty⟩

/-- A file of whole lines splits into these lines and an empty rest. -/
theorem splitOn_flatMap_line {records : List EventRecord}
    (h : ∀ record ∈ records, newline ∉ format.toVec record) :
    (records.flatMap format.line).splitOn newline = records.map format.toVec ++ [[]] := by
  induction records with
  | nil => rfl
  | cons record records ih =>
    obtain ⟨hfirst, hrest⟩ := List.forall_mem_cons.1 h
    have hcons : (record :: records).flatMap format.line =
        format.toVec record ++ newline :: records.flatMap format.line := by
      simp [RecordFormat.line]
    rw [hcons, List.splitOn_append_cons_self_of_not_mem hfirst, ih hrest]
    rfl

theorem fileLines_flatMap_line {records : List EventRecord}
    (h : ∀ record ∈ records, newline ∉ format.toVec record) :
    fileLines (records.flatMap format.line) = records.map format.toVec := by
  unfold fileLines
  rw [splitOn_flatMap_line h, List.dropLast_concat]

/-! ## Rotation -/

namespace EventLog

@[simp] theorem file_set (log : EventLog) (index : ℕ) (content : Option (List UInt8)) (i : ℕ) :
    (log.set index content).file i = if i = index then content else log.file i :=
  Function.update_apply log.file index content i

theorem file_moveUp (log : EventLog) {index : ℕ} (h : 0 < index) (i : ℕ) :
    (log.moveUp index).file i =
      if i = index then log.file (index - 1)
      else if i = index - 1 then none else log.file i := by
  have hne : index - 1 ≠ index := by omega
  unfold moveUp
  dsimp only
  rw [file_set, if_neg hne]
  cases hcontent : log.file (index - 1) with
  | none =>
    rw [file_set]
    by_cases hi : i = index
    · rw [if_pos hi, if_pos hi]
    · rw [if_neg hi, if_neg hi]
      split
      · next hbefore => rw [hbefore, hcontent]
      · rfl
  | some content =>
    rw [file_set, file_set, file_set]
    split
    · rfl
    · split
      · rfl
      · rfl

def rotate (log : EventLog) : EventLog :=
  ((List.range' 1 eventLogBackups).reverse).foldl moveUp log

/-- Rotation moves every file one place on and drops the last. -/
theorem file_rotate (log : EventLog) {i : ℕ} (h : i ≤ eventLogBackups) :
    log.rotate.file i = if i = 0 then none else log.file (i - 1) := by
  have hsteps : log.rotate = (((log.moveUp 4).moveUp 3).moveUp 2).moveUp 1 := rfl
  rw [hsteps]
  have hbound : i = 0 ∨ i = 1 ∨ i = 2 ∨ i = 3 ∨ i = 4 := by
    unfold eventLogBackups at h
    omega
  rcases hbound with rfl | rfl | rfl | rfl | rfl <;> simp [file_moveUp]

theorem rotateIfNeeded_cases (log : EventLog) (incoming : ℕ) :
    (log.rotateIfNeeded incoming = log ∧ log.currentLength + incoming ≤ maxEventLogBytes) ∨
      (log.rotateIfNeeded incoming = log.rotate ∧
        maxEventLogBytes < log.currentLength + incoming) := by
  unfold rotateIfNeeded
  split
  · exact Or.inl ⟨rfl, ‹_›⟩
  · exact Or.inr ⟨rfl, by omega⟩

end EventLog

/-! ## The records of the files -/

/-- The file holds exactly the lines of the records. -/
def FileHolds (format : RecordFormat) (content : Option (List UInt8)) (records : List EventRecord) :
    Prop :=
  content.getD [] = records.flatMap format.line ∧ ∀ bytes ∈ content, bytes.length ≤ maxEventLogBytes

/-- `chunks` has the records of each file. -/
def LogHolds (format : RecordFormat) (log : EventLog) (chunks : ℕ → List EventRecord) : Prop :=
  ∀ i ≤ eventLogBackups, FileHolds format (log.file i) (chunks i)

def inOrder (chunks : ℕ → List EventRecord) : List EventRecord := EventLog.order.flatMap chunks

/-- The chunks after one more record: it joins the base file, or all files move on. -/
inductive Advanced (chunks : ℕ → List EventRecord) (record : EventRecord) :
    (ℕ → List EventRecord) → List EventRecord → Prop where
  | joined : Advanced chunks record
      (Function.update chunks 0 (chunks 0 ++ [record])) []
  | rotated : Advanced chunks record
      (fun i => if i = 0 then [record] else chunks (i - 1)) (chunks eventLogBackups)

theorem Advanced.inOrder {chunks chunks' : ℕ → List EventRecord} {record : EventRecord}
    {gone : List EventRecord} (h : Advanced chunks record chunks' gone) :
    inOrder chunks ++ [record] = gone ++ inOrder chunks' := by
  cases h with
  | joined => simp [Events.inOrder, EventLog.order, Function.update]
  | rotated => simp [Events.inOrder, EventLog.order, eventLogBackups]

theorem LogHolds.append {log log' : EventLog} {chunks : ℕ → List EventRecord}
    {record : EventRecord} (h : LogHolds format log chunks)
    (happend : log.append format record = some log') :
    ∃ chunks' gone, Advanced chunks record chunks' gone ∧ LogHolds format log' chunks' := by
  unfold EventLog.append at happend
  dsimp only at happend
  split at happend
  · cases happend
  next hline =>
  have hlog' := Option.some.inj happend
  have hbase := h 0 (Nat.zero_le _)
  rcases log.rotateIfNeeded_cases (format.line record).length with ⟨hsame, hroom⟩ | ⟨hmoved, -⟩
  · refine ⟨_, _, .joined, fun i hi => ?_⟩
    rw [← hlog', hsame, EventLog.file_set]
    by_cases hi0 : i = 0
    · subst hi0
      rw [if_pos rfl, Function.update_self]
      have hlength : log.currentLength = ((log.file 0).getD []).length := by
        unfold EventLog.currentLength
        cases log.file 0 <;> rfl
      refine ⟨?_, fun bytes hbytes => ?_⟩
      · rw [Option.getD_some, hbase.1]
        simp
      · rw [← Option.some.inj hbytes, List.length_append]
        omega
    · rw [if_neg hi0, Function.update_of_ne hi0]
      exact h i hi
  · refine ⟨_, _, .rotated, fun i hi => ?_⟩
    rw [← hlog', hmoved, EventLog.file_set, EventLog.file_rotate log (Nat.zero_le _)]
    by_cases hi0 : i = 0
    · rw [if_pos hi0, if_pos rfl, if_pos hi0]
      refine ⟨by simp, fun bytes hbytes => ?_⟩
      rw [← Option.some.inj hbytes]
      simpa using Nat.le_of_not_lt hline
    · rw [if_neg hi0, if_neg hi0, EventLog.file_rotate log hi, if_neg hi0]
      exact h (i - 1) (by omega)

theorem logHolds_empty : LogHolds format .empty fun _ => [] :=
  fun _ _ => ⟨rfl, fun _ h => by cases h⟩

/-- The log holds the last of the recorded records, each file those of its chunk. -/
theorem holds_recordAll {calls : List RecordCall} {log : EventLog}
    (h : EventLog.recordAll format .empty calls = some log) :
    ∃ chunks dropped, LogHolds format log chunks ∧
      calls.map RecordCall.record = dropped ++ inOrder chunks := by
  induction calls using List.reverseRecOn generalizing log with
  | nil =>
    cases h
    exact ⟨_, [], logHolds_empty, rfl⟩
  | append_singleton calls call ih =>
    unfold EventLog.recordAll at h ih
    rw [List.foldlM_append] at h
    obtain ⟨before, hbefore, hlast⟩ := Option.bind_eq_some_iff.1 h
    obtain ⟨chunks, dropped, hholds, hcalls⟩ := ih hbefore
    rw [List.foldlM_cons] at hlast
    obtain ⟨after, hrecord, hafter⟩ := Option.bind_eq_some_iff.1 hlast
    cases hafter
    obtain ⟨chunks', gone, hadvanced, hholds'⟩ := hholds.append hrecord
    refine ⟨chunks', dropped ++ gone, hholds', ?_⟩
    rw [List.map_append, hcalls, List.append_assoc, List.append_assoc, ← hadvanced.inOrder]
    rfl

end MacTypeControl.Events
