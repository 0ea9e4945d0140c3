import MacTypeControl.Events.MixedRuns

/-!
# The records that readers find

A file that is within the limit is read line by line. The limit holds in every run in which no call
writes more than was left when it looked.
-/

namespace MacTypeControl.Events

open Files

/-! ## The reader -/

theorem foldl_add (reader : LineReader) (lines : List (List UInt8)) (collected : Collected) :
    (lines.foldl (Collected.add reader) collected).entries.map Prod.fst =
      collected.entries.map Prod.fst ++ lines.filterMap reader.read := by
  induction lines generalizing collected with
  | nil => simp
  | cons line lines ih =>
    have hadded : (collected.add reader line).entries.map Prod.fst =
        collected.entries.map Prod.fst ++ (reader.read line).toList := by
      cases hread : reader.read line with
      | none => simp [Collected.add, hread]
      | some record => simp [Collected.add, hread]
    rw [List.foldl_cons, ih, hadded, List.filterMap_cons]
    cases reader.read line with
    | none => simp
    | some record => simp

theorem fileLines_subset_textLines (content : List UInt8) : fileLines content ⊆ textLines content := by
  intro line hline
  unfold textLines
  dsimp only
  split
  · exact hline
  · exact List.mem_of_mem_dropLast hline

/-- The record of a line is returned, if the file of the line is within the limit. -/
theorem mem_readAllAt {reader : LineReader} {log : EventLog} {index : ℕ} {bytes line : List UInt8}
    {record : EventRecord} (hindex : index ≤ eventLogBackups)
    (hfile : log.file index = some bytes) (hlength : bytes.length ≤ maxEventLogBytes)
    (hline : line ∈ fileLines bytes) (hread : reader.read line = some record) :
    record ∈ readAllAt reader log := by
  have horder : index ∈ EventLog.order := by
    have hle : index ≤ 4 := hindex
    simp only [EventLog.order, List.mem_cons, List.not_mem_nil, or_false]
    omega
  unfold readAllAt
  dsimp only
  rw [((List.mergeSort_perm _ _).map Prod.fst).mem_iff, foldl_add]
  refine List.mem_append_right _ (List.mem_filterMap.2 ⟨line, List.mem_flatMap.2 ?_, hread⟩)
  refine ⟨index, horder, ?_⟩
  rw [hfile]
  dsimp only
  rw [if_pos hlength]
  exact fileLines_subset_textLines bytes hline

/-! ## The limit -/

section

variable {ι : Type} [DecidableEq ι]

/-- What other calls have appended to its file, since a call measured it, leaves room for what the
call is about to write. -/
def LeavesRoom (format : RecordFormat) (calls : ι → AppendCall) (s : Writers ι) (id : ι) : Prop :=
  ∀ file seen text, s.pending format calls id = some (file, seen, text) →
    seen + (s.length file - seen) + text.length ≤ maxEventLogBytes

def Within (s : Writers ι) : Prop := ∀ file, s.length file ≤ maxEventLogBytes

variable {format : RecordFormat} {calls : ι → AppendCall} {s t : Writers ι} {id : ι}

/-- A step writes what was pending, or no file gets longer. -/
theorem length_step {fails : Bool} (h : s.step format calls id fails = some t) :
    (∀ file, t.length file ≤ s.length file) ∨
      ∃ file seen text, s.pending format calls id = some (file, seen, text) ∧
        t.files = s.files.append file text := by
  have hopened (next : ℕ → Phase) (file : ℕ) :
      (s.openBase next id).length file ≤ s.length file := by
    show ((s.files.openOrCreate 0).2.content file).length ≤ _
    rcases Shared.openOrCreate_content (s := s.files) 0 file with hsame | ⟨-, hempty⟩
    · rw [hsame]
      exact Nat.le_refl _
    · rw [hempty]
      exact Nat.zero_le _
  have hrenamed (index file : ℕ) : (s.renameFile index).length file = s.length file := by
    show ((s.files.rename (index - 1) index).content file).length = _
    rw [(Shared.rename_content _ _).1]
    rfl
  have hquiet {u : Writers ι} (hu : u.files = s.files) (file : ℕ) : u.length file ≤ s.length file := by
    rw [Writers.length, hu]
    exact Nat.le_refl _
  cases hcall : calls id with
  | append record =>
    rw [Writers.step, hcall] at h
    unfold Writers.stepAppend at h
    cases hphase : s.phase id with
    | opening seen =>
      rw [hphase] at h
      dsimp only at h
      split at h
      · exact Or.inl (hquiet (Option.some.inj h ▸ rfl))
      · exact Or.inl (Option.some.inj h ▸ hopened _)
    | moving index =>
      rw [hphase] at h
      dsimp only at h
      split at h
      · exact Or.inl (hquiet (Option.some.inj h ▸ rfl))
      · exact Or.inl (Option.some.inj h ▸ fun file => Nat.le_of_eq (hrenamed index file))
    | removing index =>
      rw [hphase] at h
      dsimp only at h
      split at h
      · exact Or.inl (hquiet (Option.some.inj h ▸ rfl))
      · exact Or.inl (Option.some.inj h ▸ fun file => Nat.le_refl _)
    | writing file seen =>
      rw [hphase] at h
      dsimp only at h
      split at h
      · exact Or.inl (hquiet (Option.some.inj h ▸ rfl))
      · refine Or.inr ⟨file, seen, format.line record, ?_, Option.some.inj h ▸ rfl⟩
        rw [Writers.pending, hcall, hphase]
    | ready =>
      rw [hphase] at h
      dsimp only at h
      split at h
      · cases h
      split at h
      · exact Or.inl (hquiet (Option.some.inj h ▸ rfl))
      · exact Or.inl (hquiet (Option.some.inj h ▸ rfl))
    | measuring =>
      rw [hphase] at h
      dsimp only at h
      split at h
      · exact Or.inl (hquiet (Option.some.inj h ▸ rfl))
      split at h
      · exact Or.inl (hquiet (Option.some.inj h ▸ rfl))
      · exact Or.inl (hquiet (Option.some.inj h ▸ rfl))
    | checking index =>
      rw [hphase] at h
      dsimp only at h
      split at h
      · exact Or.inl (hquiet (Option.some.inj h ▸ rfl))
      · exact Or.inl (hquiet (Option.some.inj h ▸ rfl))
    | _ =>
      rw [hphase] at h
      cases h
  | appendSynchronouslyAt record =>
    rw [Writers.step, hcall] at h
    unfold Writers.stepSynchronously at h
    cases hphase : s.phase id with
    | ready =>
      rw [hphase] at h
      dsimp only at h
      split at h
      · exact Or.inl (hquiet (Option.some.inj h ▸ rfl))
      · exact Or.inl (Option.some.inj h ▸ hopened _)
    | measuringOpened file =>
      rw [hphase] at h
      dsimp only at h
      split at h
      · exact Or.inl (hquiet (Option.some.inj h ▸ rfl))
      · exact Or.inl (hquiet (Option.some.inj h ▸ rfl))
    | writingSynchronously file seen =>
      rw [hphase] at h
      dsimp only at h
      split at h
      · exact Or.inl (hquiet (Option.some.inj h ▸ rfl))
      · refine Or.inr ⟨file, seen, leadingBreak seen (format.line record), ?_, ?_⟩
        · rw [Writers.pending, hcall, hphase]
        · have hfiles := congrArg Writers.files (Option.some.inj h)
          rw [← hfiles]
          show s.files.append file _ = _
          unfold leadingBreak
          by_cases hseen : seen ≠ 0
          · rw [if_pos hseen, if_pos hseen]
            rfl
          · rw [if_neg hseen, if_neg hseen]
            rfl
    | syncing place =>
      rw [hphase] at h
      exact Or.inl (hquiet (Option.some.inj h ▸ rfl))
    | _ =>
      rw [hphase] at h
      cases h

theorem within_step (hwithin : Within s) (hroom : LeavesRoom format calls s id) {fails : Bool}
    (h : s.step format calls id fails = some t) : Within t := by
  intro other
  rcases length_step h with hsame | ⟨file, seen, text, hpending, hfiles⟩
  · exact Nat.le_trans (hsame other) (hwithin other)
  · rw [Writers.length, hfiles]
    by_cases hother : other = file
    · have := hroom file seen text hpending
      rw [hother, Shared.append_content_self, List.length_append]
      show s.length file + text.length ≤ maxEventLogBytes
      omega
    · rw [Shared.append_content_of_ne text hother]
      exact hwithin other

theorem within_reaches (hwithin : Within s)
    (h : s.Reaches format calls (LeavesRoom format calls) t) : Within t := by
  induction h with
  | refl => exact hwithin
  | next before holds moves ih => exact within_step ih holds moves

end

/-! ## From a log of whole lines -/

section

variable {ι : Type} {format : RecordFormat} {calls : ι → AppendCall} {s t : Writers ι}

/-- The files of the log are whole lines, and within the limit. -/
def EventLog.Proper (log : EventLog) : Prop :=
  ∀ index ≤ eventLogBackups, ∀ bytes, log.file index = some bytes →
    Whole bytes ∧ bytes.length ≤ maxEventLogBytes

theorem start_content (log : EventLog) (file : ℕ) :
    (Writers.start log : Writers ι).files.content file = [] ∨
      file ≤ eventLogBackups ∧
        log.file file = some ((Writers.start log : Writers ι).files.content file) := by
  show (if file ≤ eventLogBackups then (log.file file).getD [] else []) = [] ∨
    _ ∧ log.file file = some (if file ≤ eventLogBackups then (log.file file).getD [] else [])
  by_cases hfile : file ≤ eventLogBackups
  · rw [if_pos hfile]
    cases hbytes : log.file file with
    | none => exact Or.inl rfl
    | some bytes => exact Or.inr ⟨hfile, rfl⟩
  · rw [if_neg hfile]
    exact Or.inl rfl

theorem sound_start {log : EventLog} (hlog : log.Proper) (format : RecordFormat)
    (calls : ι → AppendCall) : Sound format calls (Writers.start log) := by
  refine ⟨?_, fun file => ?_, fun id => trivial, ?_⟩
  · intro index file hlink
    change (if index ≤ eventLogBackups then (log.file index).map fun _ => index else none) =
      some file at hlink
    split at hlink
    · next hindex =>
      obtain ⟨_, -, rfl⟩ := Option.map_eq_some_iff.1 hlink
      exact Nat.lt_succ_of_le hindex
    · cases hlink
  · rcases start_content log file with hempty | ⟨hfile, hbytes⟩
    · exact Or.inl hempty
    · exact (hlog file hfile _ hbytes).1
  · intro id other p q _ hp
    cases hp

theorem within_start {log : EventLog} (hlog : log.Proper) :
    Within (Writers.start log : Writers ι) := by
  intro file
  rcases start_content (ι := ι) log file with hempty | ⟨hfile, hbytes⟩
  · rw [Writers.length, hempty]
    exact Nat.zero_le _
  · exact (hlog file hfile _ hbytes).2

/-- What becomes of the records of calls that have returned without an error: each is a line of its
own, no file is over the limit, and the reader returns what is in the files. -/
structure RecordsKept (format : RecordFormat) (reader : LineReader) (calls : ι → AppendCall)
    (s : Writers ι) : Prop where
  placed : ∀ id place, s.phase id = .returned (some place) →
    Placed s (format.line (calls id).record) place ∧
      format.toVec (calls id).record ∈ fileLines (s.files.content place.file)
  apart : ∀ id other place, id ≠ other → s.phase id = .returned (some place) →
    s.phase other ≠ .returned (some place)
  within : ∀ index bytes, s.log.file index = some bytes → bytes.length ≤ maxEventLogBytes
  read : ∀ index ≤ eventLogBackups, ∀ bytes, s.log.file index = some bytes →
    ∀ line ∈ fileLines bytes, ∀ record, reader.read line = some record →
      record ∈ readAllAt reader s.log
  found : ∀ id place index, s.phase id = .returned (some place) → index ≤ eventLogBackups →
    s.files.link index = some place.file → validRecord (calls id).record = true →
      (calls id).record ∈ readAllAt reader s.log

/-- The lines of calls that have returned are in their places, whatever the order of the steps. -/
theorem Sound.placed (hsound : Sound format calls s)
    (hline : ∀ id, newline ∉ format.toVec (calls id).record) {id : ι} {place : Place}
    (h : s.phase id = .returned (some place)) :
    Placed s (format.line (calls id).record) place ∧
      format.toVec (calls id).record ∈ fileLines (s.files.content place.file) := by
  have hplaced : Placed s (format.line (calls id).record) place := by
    have hphase := hsound.phase id
    rw [h] at hphase
    exact hphase
  obtain ⟨before, after, hcontent, -, hwhole⟩ := hplaced.2
  refine ⟨hplaced, ?_⟩
  rw [hcontent]
  exact mem_fileLines hwhole (hline id)

theorem Sound.returned_apart (hsound : Sound format calls s) {id other : ι} {place : Place}
    (hne : id ≠ other) (h : s.phase id = .returned (some place)) :
    s.phase other ≠ .returned (some place) := by
  intro hother
  exact hsound.apart id other place place hne (congrArg Phase.place h)
    (congrArg Phase.place hother) rfl

theorem recordsKept_of_within {reader : LineReader} (hsound : Sound format calls s)
    (hwithin : Within s) (hline : ∀ id, newline ∉ format.toVec (calls id).record)
    (hreader : ∀ id, reader.event (format.toVec (calls id).record) = some (calls id).record) :
    RecordsKept format reader calls s := by
  have hlength : ∀ index bytes, s.log.file index = some bytes →
      bytes.length ≤ maxEventLogBytes := by
    intro index bytes hfile
    obtain ⟨file, -, rfl⟩ := Option.map_eq_some_iff.1 hfile
    exact hwithin file
  constructor
  case placed => exact fun id place h => hsound.placed hline h
  case apart => exact fun id other place hne h => hsound.returned_apart hne h
  case within => exact hlength
  case read =>
    intro index hindex bytes hfile line hmem record hread
    exact mem_readAllAt hindex hfile (hlength index bytes hfile) hmem hread
  case found =>
    intro id place index h hindex hlink hvalid
    have hfile : s.log.file index = some (s.files.content place.file) := by
      show (s.files.link index).map s.files.content = _
      rw [hlink]
      rfl
    refine mem_readAllAt hindex hfile (hlength index _ hfile) (hsound.placed hline h).2 ?_
    simp [LineReader.read, hreader id, Option.filter, hvalid]

end

section

variable {ι : Type} [DecidableEq ι]

end

/-! ## A write that is overtaken -/

/-- The log that has nothing but a base file. -/
def baseOnly (bytes : List UInt8) : EventLog := EventLog.empty.set 0 (some bytes)

/-- One call of each kind. -/
def twoCalls (record : EventRecord) : Bool → AppendCall
  | false => .append record
  | true => .appendSynchronouslyAt record

section

variable (format : RecordFormat) (record : EventRecord) (bytes : List UInt8)

/-- The writer has measured the file when the session ends, and writes after the last record. -/
theorem overtaken_run (hbytes : bytes ≠ [])
    (hroom : bytes.length + (format.line record).length + 1 ≤ maxEventLogBytes) :
    ∃ s, (Writers.start (baseOnly bytes)).Reaches format (twoCalls record) (fun _ _ => True) s ∧
      (∃ place, s.phase false = .returned (some place)) ∧
      (∃ place, s.phase true = .returned (some place)) ∧ s.files.link 0 = some 0 ∧
      s.length 0 = bytes.length + 2 * (format.line record).length + 1 := by
  let line := format.line record
  let n := bytes.length
  let s₀ : Writers Bool := Writers.start (baseOnly bytes)
  let s₁ := { s₀ with holder := some false }.enter false .measuring
  let s₂ := s₁.enter false (.opening n)
  let s₃ := s₂.openBase (.writing · n) false
  let s₄ := s₃.openBase .measuringOpened true
  let s₅ := s₄.enter true (.writingSynchronously 0 n)
  let s₆ := (s₅.write 0 [newline] line).2.enter true (.syncing (s₅.write 0 [newline] line).1)
  let s₇ := s₆.enter true (.returned (some (s₅.write 0 [newline] line).1))
  let s₈ := (s₇.write 0 [] line).2.release false (some (s₇.write 0 [] line).1)
  have hn : n ≠ 0 := fun h => hbytes (List.length_eq_zero_iff.1 h)
  have hroom : n + line.length + 1 ≤ maxEventLogBytes := hroom
  have h₁ : s₀.step format (twoCalls record) false false = some s₁ := by
    show (if maxEventLogBytes < line.length || false then _ else _) = _
    rw [if_neg (by simp; omega)]
  have h₂ : s₁.step format (twoCalls record) false false = some s₂ := by
    show (if n + line.length ≤ maxEventLogBytes then _ else _) = _
    rw [if_pos (by omega)]
    rfl
  have h₃ : s₂.step format (twoCalls record) false false = some s₃ := rfl
  have h₄ : s₃.step format (twoCalls record) true false = some s₄ := rfl
  have h₅ : s₄.step format (twoCalls record) true false = some s₅ := by
    show (if maxEventLogBytes < n + (leadingBreak n line).length || false then _ else _) = _
    rw [leadingBreak, if_pos hn, List.length_cons, if_neg (by simp; omega)]
    rfl
  have h₆ : s₅.step format (twoCalls record) true false = some s₆ := by
    show some ((s₅.write 0 (if n ≠ 0 then [newline] else []) line).2.enter true
      (.syncing (s₅.write 0 (if n ≠ 0 then [newline] else []) line).1)) = some s₆
    rw [if_pos hn]
  have h₇ : s₆.step format (twoCalls record) true false = some s₇ := rfl
  have h₈ : s₇.step format (twoCalls record) false false = some s₈ := rfl
  have hrun : s₀.Reaches format (twoCalls record) (fun _ _ => True) s₈ :=
    (((((((Writers.Reaches.refl.next trivial h₁).next trivial h₂).next trivial h₃).next trivial
      h₄).next trivial h₅).next trivial h₆).next trivial h₇).next trivial h₈
  have hcontent : s₈.files.content 0 = bytes ++ ([newline] ++ line) ++ ([] ++ line) := rfl
  refine ⟨s₈, hrun, ⟨_, rfl⟩, ⟨_, rfl⟩, rfl, ?_⟩
  rw [Writers.length, hcontent]
  show (bytes ++ ([newline] ++ line) ++ ([] ++ line)).length = n + 2 * line.length + 1
  simp only [List.length_append, List.length_singleton, List.length_nil]
  omega

end

theorem toVec_formatOf (line : List UInt8) (record given : EventRecord) :
    (formatOf line record).toVec given = line := rfl

/-- A reader as it treats one record. -/
def readerOf (line : List UInt8) (record : EventRecord) : LineReader :=
  ⟨fun given => if given = line then some record else none, fun _ => none⟩

theorem event_readerOf (line : List UInt8) (record : EventRecord) :
    (readerOf line record).event line = some record := if_pos rfl

def startedReader : LineReader := readerOf startedLine startedCall.record

/-- A base file of blank lines that has room for one more record at a time. -/
def nearlyFull : List UInt8 :=
  List.replicate (maxEventLogBytes - (startedLine.length + 2)) newline

theorem overtaken_record_lost :
    ¬ ∀ s, (Writers.start (baseOnly nearlyFull)).Reaches startedFormat
        (twoCalls startedCall.record) (fun _ _ => True) s →
      RecordsKept startedFormat startedReader (twoCalls startedCall.record) s := by
  intro hall
  have hline : (startedFormat.line startedCall.record).length = startedLine.length + 1 := by
    rw [startedFormat, line_formatOf, List.length_append, List.length_singleton]
  have hlength : nearlyFull.length = maxEventLogBytes - (startedLine.length + 2) :=
    List.length_replicate
  have hshort : startedLine.length + 2 < maxEventLogBytes := by decide +kernel
  have hlong : 0 < startedLine.length := by decide +kernel
  obtain ⟨s, hrun, -, -, hlink, htotal⟩ := overtaken_run startedFormat startedCall.record nearlyFull
    (List.ne_nil_of_length_pos (by omega)) (by omega)
  have hwithin := (hall s hrun).within 0 (s.files.content 0) (by
    show (s.files.link 0).map s.files.content = _
    rw [hlink]
    rfl)
  have hsame : (s.files.content 0).length = s.length 0 := rfl
  omega

/-! ## Writes that are not overtaken -/

/-- The record of the end of the session is the first of its log. -/
theorem single_run (format : RecordFormat) (record : EventRecord)
    (hroom : (format.line record).length ≤ maxEventLogBytes) :
    ∃ s, (Writers.start EventLog.empty).Reaches format
        (fun _ : Unit => .appendSynchronouslyAt record)
        (LeavesRoom format fun _ => .appendSynchronouslyAt record) s ∧
      ∃ place, s.phase () = .returned (some place) ∧ s.files.link 0 = some place.file := by
  let line := format.line record
  let calls : Unit → AppendCall := fun _ => .appendSynchronouslyAt record
  let s₀ : Writers Unit := Writers.start EventLog.empty
  let s₁ := s₀.openBase .measuringOpened ()
  let s₂ := s₁.enter () (.writingSynchronously 5 0)
  let s₃ := (s₂.write 5 [] line).2.enter () (.syncing (s₂.write 5 [] line).1)
  let s₄ := s₃.enter () (.returned (some (s₂.write 5 [] line).1))
  have hnone {s : Writers Unit} (h : s.pending format calls () = none) :
      LeavesRoom format calls s () := by
    intro file seen text hpending
    rw [h] at hpending
    cases hpending
  have hwrites : LeavesRoom format calls s₂ () := by
    rintro file seen text ⟨⟩
    show 0 + (0 - 0) + line.length ≤ maxEventLogBytes
    rw [Nat.sub_self, Nat.add_zero, Nat.zero_add]
    exact hroom
  have h₁ : s₀.step format calls () false = some s₁ := rfl
  have h₂ : s₁.step format calls () false = some s₂ := by
    show (if maxEventLogBytes < 0 + line.length || false then _ else _) = _
    rw [if_neg (by simpa using hroom)]
    rfl
  have h₃ : s₂.step format calls () false = some s₃ := rfl
  have h₄ : s₃.step format calls () false = some s₄ := rfl
  exact ⟨s₄, (((Writers.Reaches.refl.next (hnone rfl) h₁).next (hnone rfl) h₂).next hwrites
    h₃).next (hnone rfl) h₄, _, rfl, rfl⟩

theorem proper_empty : EventLog.empty.Proper := by
  intro index _ bytes hfile
  cases hfile

section

variable {ι : Type} [DecidableEq ι]

/-- In every run in which no write is overtaken by more than it had left room for, the records are
kept and found. -/
theorem mixed_writers_keep_records (format : RecordFormat) (reader : LineReader)
    (calls : ι → AppendCall) {log : EventLog} (hlog : log.Proper)
    (hline : ∀ id, newline ∉ format.toVec (calls id).record)
    (hreader : ∀ id, reader.event (format.toVec (calls id).record) = some (calls id).record)
    {s : Writers ι}
    (hrun : (Writers.start log).Reaches format calls (LeavesRoom format calls) s) :
    RecordsKept format reader calls s :=
  recordsKept_of_within (sound_reaches (sound_start hlog format calls) hrun)
    (within_reaches (within_start hlog) hrun) hline hreader

end

theorem session_end_record_found :
    ∃ s, (Writers.start EventLog.empty).Reaches startedFormat
        (fun _ : Unit => .appendSynchronouslyAt startedCall.record)
        (LeavesRoom startedFormat fun _ => .appendSynchronouslyAt startedCall.record) s ∧
      startedCall.record ∈ readAllAt startedReader s.log := by
  have hshort : (startedFormat.line startedCall.record).length ≤ maxEventLogBytes := by
    rw [startedFormat, line_formatOf]
    exact startedLine_facts.2.2
  obtain ⟨s, hrun, place, hphase, hlink⟩ := single_run startedFormat startedCall.record hshort
  have hvec : startedFormat.toVec startedCall.record = startedLine := by
    rw [startedFormat, toVec_formatOf]
  have hline : newline ∉ startedFormat.toVec startedCall.record := by
    rw [hvec]
    exact startedLine_facts.1
  have hreader : startedReader.event (startedFormat.toVec startedCall.record) =
      some startedCall.record := by
    rw [hvec, startedReader, event_readerOf]
  have hkept := mixed_writers_keep_records startedFormat startedReader
    (fun _ : Unit => .appendSynchronouslyAt startedCall.record) proper_empty (fun _ => hline)
    (fun _ => hreader) hrun
  exact ⟨s, hrun, hkept.found () place 0 hphase (Nat.zero_le _) hlink (validRecord_record _)⟩

end MacTypeControl.Events
