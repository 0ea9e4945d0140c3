import MacTypeControl.Events.Retained

/-!
# What the reader returns

The reader merges the files of the logs, and the newest of the records that they retain come back.
A record is newer for its time, and at one time for its place in the files.
-/

namespace MacTypeControl.Events

variable {format : RecordFormat}

/-! ## The lines of a log -/

theorem FileHolds.lines {content : Option (List UInt8)} {records : List EventRecord}
    (h : FileHolds format content records)
    (hline : ∀ record ∈ records, newline ∉ format.toVec record) :
    content.elim [] fileLines = records.map format.toVec := by
  have hlines := fileLines_flatMap_line hline
  rw [← h.1] at hlines
  cases content with
  | none =>
    have hnone : fileLines [] = [] := rfl
    rw [← hlines]
    exact hnone.symm
  | some bytes => exact hlines

theorem LogHolds.lines {log : EventLog} {chunks : ℕ → List EventRecord}
    (h : LogHolds format log chunks)
    (hline : ∀ record ∈ inOrder chunks, newline ∉ format.toVec record) :
    log.lines = (inOrder chunks).map format.toVec := by
  unfold EventLog.lines inOrder
  rw [List.map_flatMap]
  refine List.flatMap_congr fun i hi => ?_
  have hbound : ∀ i ∈ EventLog.order, i ≤ eventLogBackups := by decide
  exact (h i (hbound i hi)).lines fun record hrecord =>
    hline record (List.mem_flatMap.2 ⟨i, hi, hrecord⟩)

theorem filterMap_toVec {records : List EventRecord} (h : format.Faithful records) :
    (records.map format.toVec).filterMap format.fromSlice = records := by
  rw [List.filterMap_map]
  have hsame : ∀ record ∈ records, (format.fromSlice ∘ format.toVec) record = some record :=
    h.roundTrip
  rw [List.filterMap_congr hsame, List.filterMap_some]

/-! ## One log -/

/-- What a log keeps of the records it was given. -/
structure Keeps (format : RecordFormat) (records : List EventRecord) (log : EventLog) : Prop where
  suffix : log.retained format <:+ records
  lines : log.lines = (log.retained format).map format.toVec
  whole : ∀ i ∈ EventLog.order, ∀ content ∈ log.file i,
    content = (fileLines content).flatMap (· ++ [newline])
  bounded : ∀ i ∈ EventLog.order, ∀ content ∈ log.file i, content.length ≤ maxEventLogBytes
  accepted : ∀ record ∈ log.retained format, validRecord record = true

theorem mem_order {i : ℕ} (h : i ∈ EventLog.order) : i ≤ eventLogBackups := by
  have hbound : ∀ i ∈ EventLog.order, i ≤ eventLogBackups := by decide
  exact hbound i h

theorem LogHolds.retained {log : EventLog} {chunks : ℕ → List EventRecord}
    (h : LogHolds format log chunks) (hformat : format.Faithful (inOrder chunks)) :
    log.retained format = inOrder chunks := by
  unfold EventLog.retained
  rw [h.lines hformat.oneLine, filterMap_toVec hformat]

/-- The log after a run keeps the last of the records. -/
theorem keeps_recordAll {calls : List RecordCall} {log : EventLog}
    (hlog : EventLog.recordAll format .empty calls = some log)
    (hformat : format.Faithful (calls.map RecordCall.record)) :
    Keeps format (calls.map RecordCall.record) log := by
  obtain ⟨chunks, dropped, hholds, hcalls⟩ := holds_recordAll hlog
  have hsub : ∀ record ∈ inOrder chunks, record ∈ calls.map RecordCall.record := by
    intro record hrecord
    rw [hcalls]
    exact List.mem_append_right dropped hrecord
  have hkept := hformat.mono hsub
  have hretained := hholds.retained hkept
  refine ⟨⟨dropped, ?_⟩, ?_, fun i hi content hcontent => ?_,
    fun i hi content hcontent => (hholds i (mem_order hi)).2 content hcontent,
    fun record hrecord => ?_⟩
  · rw [hretained, hcalls]
  · rw [hretained]
    exact hholds.lines hkept.oneLine
  · have hchunk : content = (chunks i).flatMap format.line := by
      have hfile := (hholds i (mem_order hi)).1
      rwa [hcontent] at hfile
    have hlines : fileLines content = (chunks i).map format.toVec := by
      rw [hchunk]
      exact fileLines_flatMap_line fun record hrecord =>
        hkept.oneLine record (List.mem_flatMap.2 ⟨i, hi, hrecord⟩)
    rw [hlines, List.flatMap_map]
    exact hchunk
  · rw [hretained] at hrecord
    obtain ⟨call, -, rfl⟩ := List.mem_map.1 (hsub record hrecord)
    exact validRecord_record call

/-- One more record adds its line, and at most the lines of the oldest backup go. -/
theorem lines_record {calls : List RecordCall} {log log' : EventLog} {call : RecordCall}
    (hlog : EventLog.recordAll format .empty calls = some log)
    (hcall : EventLog.record format log call = some log')
    (hformat : format.Faithful ((calls ++ [call]).map RecordCall.record)) :
    ∃ gone, (gone = [] ∨ gone = (log.file eventLogBackups).elim [] fileLines) ∧
      log.lines ++ [format.toVec call.record] = gone ++ log'.lines := by
  obtain ⟨chunks, dropped, hholds, hcalls⟩ := holds_recordAll hlog
  obtain ⟨chunks', gone, hadvanced, hholds'⟩ := hholds.append hcall
  have horder := hadvanced.inOrder
  have hsub : ∀ record ∈ inOrder chunks ++ [call.record],
      record ∈ (calls ++ [call]).map RecordCall.record := by
    intro record hrecord
    rw [List.map_append, hcalls]
    rcases List.mem_append.1 hrecord with hold | hnew
    · exact List.mem_append_left _ (List.mem_append_right dropped hold)
    · exact List.mem_append_right _ hnew
  have hall := hformat.mono hsub
  have hbefore := hholds.lines (hall.mono fun r hr => List.mem_append_left _ hr).oneLine
  have hafter := hholds'.lines
    (hall.mono fun r hr => horder ▸ List.mem_append_right gone hr).oneLine
  refine ⟨gone.map format.toVec, ?_, ?_⟩
  · cases hadvanced with
    | joined => exact Or.inl rfl
    | rotated =>
      right
      refine ((hholds eventLogBackups (le_refl _)).lines fun record hrecord => ?_).symm
      exact hall.oneLine record (horder ▸ List.mem_append_left _ hrecord)
  · rw [hbefore, hafter, ← List.map_append, ← horder, List.map_append]
    rfl

/-! ## The reader -/

/-- Of two records at their places in the files, the first is the older one. -/
def Before (a b : EventRecord × ℕ) : Prop := a.1.ts < b.1.ts ∨ (a.1.ts = b.1.ts ∧ a.2 < b.2)

/-- The result has the newest records, as many as the limit allows, oldest first. -/
def Newest (limit : ℕ) (records result : List EventRecord) : Prop :=
  ∃ older newer : List (EventRecord × ℕ), (older ++ newer).Perm records.zipIdx ∧
    (older ++ newer).Pairwise Before ∧ newer.length = min limit records.length ∧
    result = newer.map Prod.fst

theorem keyLE_trans (a b c : EventRecord × ℕ) : keyLE a b → keyLE b c → keyLE a c := by
  simp only [keyLE, Bool.or_eq_true, Bool.and_eq_true, decide_eq_true_eq, beq_iff_eq]
  omega

theorem keyLE_total (a b : EventRecord × ℕ) : keyLE a b || keyLE b a := by
  simp only [keyLE, Bool.or_eq_true, Bool.and_eq_true, decide_eq_true_eq, beq_iff_eq]
  omega

/-- The numbers of the lines rise along the entries, so they order the entries as the places do. -/
theorem before_of_zipIdxLE {entries : List (EventRecord × ℕ)}
    (hrising : entries.Pairwise fun a b => a.2 ≤ b.2) {a b : (EventRecord × ℕ) × ℕ}
    (ha : a ∈ entries.zipIdx) (hb : b ∈ entries.zipIdx) (hne : a.2 ≠ b.2)
    (hle : List.zipIdxLE keyLE a b = true) : Before (a.1.1, a.2) (b.1.1, b.2) := by
  rw [List.mem_zipIdx_iff_getElem?] at ha hb
  obtain ⟨hia, haa⟩ := List.getElem?_eq_some_iff.1 ha
  obtain ⟨hib, hbb⟩ := List.getElem?_eq_some_iff.1 hb
  have hlater : b.2 < a.2 → b.1.2 ≤ a.1.2 := by
    intro hlt
    rw [← haa, ← hbb]
    exact List.pairwise_iff_getElem.1 hrising b.2 a.2 hib hia hlt
  simp only [List.zipIdxLE, keyLE, Bool.or_eq_true, Bool.and_eq_true, decide_eq_true_eq,
    beq_iff_eq] at hle
  unfold Before
  dsimp only
  split at hle
  · split at hle
    · have hplace : a.2 ≤ b.2 := by simpa using hle
      omega
    · omega
  · cases hle

/-- The last entries in the stable order of their keys are the newest records. -/
theorem newest_of_rising {entries : List (EventRecord × ℕ)}
    (hrising : entries.Pairwise fun a b => a.2 ≤ b.2) (limit : ℕ) :
    Newest limit (entries.map Prod.fst)
      (((entries.mergeSort keyLE).drop ((entries.mergeSort keyLE).length - limit)).map
        Prod.fst) := by
  set sorted := entries.zipIdx.mergeSort (List.zipIdxLE keyLE) with hsorted
  have hperm : sorted.Perm entries.zipIdx := List.mergeSort_perm _ _
  have hfst : sorted.map Prod.fst = entries.mergeSort keyLE := List.mergeSort_zipIdx
  have hlength : (entries.mergeSort keyLE).length = entries.length := List.length_mergeSort _
  have hplaces : (sorted.map Prod.snd).Nodup := by
    rw [(hperm.map Prod.snd).nodup_iff, List.zipIdx_map_snd]
    exact List.nodup_range'
  have hle : sorted.Pairwise fun a b => List.zipIdxLE keyLE a b = true :=
    List.pairwise_mergeSort (List.zipIdxLE_trans keyLE_trans) (List.zipIdxLE_total keyLE_total) _
  have hbefore : sorted.Pairwise fun a b => Before (a.1.1, a.2) (b.1.1, b.2) := by
    have hne : sorted.Pairwise fun a b => a.2 ≠ b.2 := List.pairwise_map.1 hplaces
    refine List.Pairwise.imp_of_mem ?_ (hle.and hne)
    intro a b ha hb h
    exact before_of_zipIdxLE hrising (hperm.mem_iff.1 ha) (hperm.mem_iff.1 hb) h.2 h.1
  let place : (EventRecord × ℕ) × ℕ → EventRecord × ℕ := fun e => (e.1.1, e.2)
  refine ⟨(sorted.map place).take (sorted.length - limit),
    (sorted.map place).drop (sorted.length - limit), ?_, ?_, ?_, ?_⟩
  · rw [List.take_append_drop, List.zipIdx_map]
    exact hperm.map place
  · rw [List.take_append_drop]
    exact List.pairwise_map.2 hbefore
  · rw [List.length_drop, List.length_map, List.length_map, hperm.length_eq, List.length_zipIdx]
    omega
  · have hsame : sorted.length = (entries.mergeSort keyLE).length := by
      rw [hlength, hperm.length_eq, List.length_zipIdx]
    rw [← hfst, ← List.map_drop, ← List.map_drop, List.map_map, List.map_map, List.length_map]
    rfl

/-- What the reader has collected is numbered in rising order. -/
structure Collected.Rising (collected : Collected) : Prop where
  bound : collected.order ≤ 2 ^ 64 - 1
  below : ∀ entry ∈ collected.entries, entry.2 ≤ collected.order
  rising : collected.entries.Pairwise fun a b => a.2 ≤ b.2

/-- The valid record of a line. -/
def readable (format : RecordFormat) (line : List UInt8) : Option EventRecord :=
  (format.fromSlice line).filter validRecord

theorem Collected.Rising.read {collected : Collected} (h : collected.Rising)
    (line : List UInt8) : (collected.read format line).Rising := by
  have hbound := h.bound
  have horder : (collected.read format line).order = min (collected.order + 1) (2 ^ 64 - 1) := rfl
  have hentries : (collected.read format line).entries = collected.entries ∨
      ∃ record, (collected.read format line).entries =
        collected.entries ++ [(record, collected.order)] := by
    unfold Collected.read
    dsimp only
    split
    · split
      · exact Or.inr ⟨_, rfl⟩
      · exact Or.inl rfl
    · exact Or.inl rfl
  refine ⟨by omega, fun entry hentry => ?_, ?_⟩
  · have hold : entry.2 ≤ collected.order := by
      rcases hentries with hsame | ⟨record, hadded⟩
      · exact h.below entry (hsame ▸ hentry)
      · rw [hadded] at hentry
        rcases List.mem_append.1 hentry with hentry | hentry
        · exact h.below entry hentry
        · rw [List.mem_singleton.1 hentry]
    omega
  · rcases hentries with hsame | ⟨record, hadded⟩
    · rw [hsame]
      exact h.rising
    · rw [hadded, List.pairwise_append]
      refine ⟨h.rising, List.pairwise_singleton _ _, fun a ha b hb => ?_⟩
      rw [List.mem_singleton.1 hb]
      exact h.below a ha

theorem map_fst_read (collected : Collected) (line : List UInt8) :
    (collected.read format line).entries.map Prod.fst =
      collected.entries.map Prod.fst ++ (readable format line).toList := by
  unfold Collected.read readable
  dsimp only
  cases format.fromSlice line with
  | none => simp
  | some record =>
    by_cases hvalid : validRecord record = true
    · simp [hvalid, Option.filter]
    · simp [hvalid, Option.filter]

theorem foldl_read (lines : List (List UInt8)) {collected : Collected} (h : collected.Rising) :
    (lines.foldl (Collected.read format) collected).Rising ∧
      (lines.foldl (Collected.read format) collected).entries.map Prod.fst =
        collected.entries.map Prod.fst ++ lines.filterMap (readable format) := by
  induction lines generalizing collected with
  | nil => exact ⟨h, by simp⟩
  | cons line lines ih =>
    obtain ⟨hrising, hentries⟩ := ih (h.read line)
    refine ⟨hrising, ?_⟩
    rw [List.foldl_cons, hentries, map_fst_read, List.filterMap_cons]
    cases readable format line <;> simp

theorem FileHolds.nil_of_none {records : List EventRecord} (h : FileHolds format none records) :
    records = [] := by
  cases records with
  | nil => rfl
  | cons record records =>
    have hempty : [] = format.line record ++ records.flatMap format.line := h.1
    simp [RecordFormat.line] at hempty

/-- The reader finds the records of a file among its lines, and nothing else. -/
theorem FileHolds.filterMap_readable {content : Option (List UInt8)} {records : List EventRecord}
    (h : FileHolds format content records) (hformat : format.Faithful records)
    (hvalid : ∀ record ∈ records, validRecord record = true) :
    (readableLines content).filterMap (readable format) = records := by
  cases content with
  | none =>
    rw [h.nil_of_none]
    rfl
  | some bytes =>
    have hbytes : bytes = records.flatMap format.line := h.1
    have hread : ∀ record ∈ records, (readable format ∘ format.toVec) record = some record := by
      intro record hrecord
      simp [readable, hformat.roundTrip record hrecord, hvalid record hrecord]
    have hrest : readable format [] = none := by simp [readable, hformat.empty]
    unfold readableLines
    dsimp only
    rw [if_pos (h.2 bytes rfl), hbytes, splitOn_flatMap_line hformat.oneLine,
      List.filterMap_append, List.filterMap_map, List.filterMap_congr hread, List.filterMap_some]
    simp [hrest]

theorem LogHolds.filterMap_readable {log : EventLog} {chunks : ℕ → List EventRecord}
    (h : LogHolds format log chunks) (hformat : format.Faithful (inOrder chunks))
    (hvalid : ∀ record ∈ inOrder chunks, validRecord record = true) :
    (EventLog.order.flatMap fun i => readableLines (log.file i)).filterMap (readable format) =
      inOrder chunks := by
  unfold inOrder
  rw [List.filterMap_flatMap]
  refine List.flatMap_congr fun i hi => ?_
  have hmem : ∀ record ∈ chunks i, record ∈ inOrder chunks :=
    fun record hrecord => List.mem_flatMap.2 ⟨i, hi, hrecord⟩
  exact (h i (mem_order hi)).filterMap_readable (hformat.mono hmem)
    fun record hrecord => hvalid record (hmem record hrecord)

/-- A limit of zero is no exception. -/
theorem readEvents_eq (logs : List EventLog) (limit : ℕ) :
    readEvents format logs limit =
      let lines := logs.flatMap fun log =>
        EventLog.order.flatMap fun i => readableLines (log.file i)
      let entries := (lines.foldl (Collected.read format) ⟨[], 0⟩).entries.mergeSort keyLE
      (entries.drop (entries.length - limit)).map Prod.fst := by
  unfold readEvents
  by_cases hlimit : limit = 0
  · rw [if_pos hlimit, hlimit]
    simp
  · rw [if_neg hlimit]

/-- The logs as runs of calls from empty directories have left them. -/
structure Recorded (format : RecordFormat) (run : List RecordCall × EventLog) : Prop where
  recorded : EventLog.recordAll format .empty run.1 = some run.2
  faithful : format.Faithful (run.1.map RecordCall.record)

theorem Recorded.filterMap_readable {run : List RecordCall × EventLog}
    (h : Recorded format run) :
    (EventLog.order.flatMap fun i => readableLines (run.2.file i)).filterMap (readable format) =
      run.2.retained format := by
  obtain ⟨chunks, dropped, hholds, hcalls⟩ := holds_recordAll h.recorded
  have hsub : ∀ record ∈ inOrder chunks, record ∈ run.1.map RecordCall.record := by
    intro record hrecord
    rw [hcalls]
    exact List.mem_append_right dropped hrecord
  have hkept := h.faithful.mono hsub
  rw [hholds.retained hkept]
  refine hholds.filterMap_readable hkept fun record hrecord => ?_
  obtain ⟨call, -, rfl⟩ := List.mem_map.1 (hsub record hrecord)
  exact validRecord_record call

/-- Every log keeps whole lines, the last of those it was given, each further call drops at most the
oldest backup, and the reader returns the newest of what the logs retain. -/
theorem event_logs_keep_newest (format : RecordFormat) (runs : List (List RecordCall × EventLog))
    (h : ∀ run ∈ runs, Recorded format run) :
    (∀ run ∈ runs, Keeps format (run.1.map RecordCall.record) run.2 ∧
      ∀ record ∈ run.1.map RecordCall.record, validRecord record = true) ∧
    (∀ run ∈ runs, ∀ earlier call later, run.1 = earlier ++ call :: later →
      ∃ before after, EventLog.recordAll format .empty earlier = some before ∧
        EventLog.record format before call = some after ∧
        ∃ gone, (gone = [] ∨ gone = (before.file eventLogBackups).elim [] fileLines) ∧
          before.lines ++ [format.toVec call.record] = gone ++ after.lines) ∧
    ∀ limit, Newest limit (runs.flatMap fun run => run.2.retained format)
      (readEvents format (runs.map Prod.snd) limit) := by
  refine ⟨fun run hrun => ⟨keeps_recordAll (h run hrun).recorded (h run hrun).faithful, ?_⟩,
    fun run hrun earlier call later hcalls => ?_, fun limit => ?_⟩
  · intro record hrecord
    obtain ⟨call, -, rfl⟩ := List.mem_map.1 hrecord
    exact validRecord_record call
  · have hrecorded := (h run hrun).recorded
    unfold EventLog.recordAll at hrecorded
    rw [hcalls, List.foldlM_append] at hrecorded
    obtain ⟨before, hbefore, hrest⟩ := Option.bind_eq_some_iff.1 hrecorded
    rw [List.foldlM_cons] at hrest
    obtain ⟨after, hafter, -⟩ := Option.bind_eq_some_iff.1 hrest
    have hsub : ∀ record ∈ (earlier ++ [call]).map RecordCall.record,
        record ∈ run.1.map RecordCall.record := by
      rw [hcalls]
      intro record hrecord
      simp only [List.map_append, List.mem_append, List.map_cons, List.mem_cons, List.map_nil,
        List.not_mem_nil, or_false] at hrecord ⊢
      tauto
    exact ⟨before, after, hbefore, hafter,
      lines_record hbefore hafter ((h run hrun).faithful.mono hsub)⟩
  · have hstart : (Collected.mk [] 0).Rising :=
      ⟨Nat.zero_le _, fun _ hentry => absurd hentry List.not_mem_nil, List.Pairwise.nil⟩
    obtain ⟨hrising, hentries⟩ := @foldl_read format
      ((runs.map Prod.snd).flatMap fun log =>
        EventLog.order.flatMap fun i => readableLines (log.file i)) _ hstart
    have hretained : ((runs.map Prod.snd).flatMap fun log => EventLog.order.flatMap fun i =>
        readableLines (log.file i)).filterMap (readable format) =
          runs.flatMap fun run => run.2.retained format := by
      rw [List.filterMap_flatMap, List.flatMap_map]
      exact List.flatMap_congr fun run hrun => (h run hrun).filterMap_readable
    rw [readEvents_eq, ← hretained, ← List.nil_append (List.filterMap _ _), ← List.map_nil,
      ← hentries]
    exact newest_of_rising hrising.rising limit

/-! ## A log of one record -/

def startedCall : RecordCall :=
  ⟨1700000000000, .serviceHost, .info, .service, "service-started".toList,
    [("pid".toList, "42".toList)], none, []⟩

def startedLine : List UInt8 :=
  ("\x7b\"v\":1,\"ts\":1700000000000,\"severity\":\"info\",\"area\":\"service\"," ++
    "\"code\":\"service-started\",\"params\":\x7b\"pid\":\"42\"\x7d," ++
    "\"source\":\"service-host\"\x7d").toList.map fun c => c.toNat.toUInt8

/-- A serializer as it treats one record. -/
def formatOf (line : List UInt8) (record : EventRecord) : RecordFormat :=
  ⟨fun _ => line, fun given => if given = line then some record else none⟩

theorem faithful_formatOf {line : List UInt8} (record : EventRecord) (hline : newline ∉ line)
    (hne : line ≠ []) : (formatOf line record).Faithful [record] where
  roundTrip given hgiven := by
    rw [List.mem_singleton.1 hgiven]
    exact if_pos rfl
  oneLine _ _ := hline
  empty := if_neg hne.symm

theorem line_formatOf (line : List UInt8) (record given : EventRecord) :
    (formatOf line record).line given = line ++ [newline] := rfl

/-- The first record makes the base file. -/
theorem recordAll_single {call : RecordCall}
    (hshort : (format.line call.record).length ≤ maxEventLogBytes) :
    EventLog.recordAll format .empty [call] =
      some (EventLog.empty.set 0 (some (format.line call.record))) := by
  have hroom : EventLog.empty.rotateIfNeeded (format.line call.record).length = .empty := by
    rcases EventLog.empty.rotateIfNeeded_cases (format.line call.record).length with
      ⟨hsame, -⟩ | ⟨-, hlong⟩
    · exact hsame
    · have hzero : EventLog.empty.currentLength = 0 := rfl
      omega
  have hrecord : EventLog.record format .empty call =
      some (EventLog.empty.set 0 (some (format.line call.record))) := by
    unfold EventLog.record EventLog.append
    dsimp only
    rw [if_neg (Nat.not_lt.2 hshort), hroom]
    rfl
  unfold EventLog.recordAll
  rw [List.foldlM_cons, hrecord]
  rfl

theorem startedLine_facts : newline ∉ startedLine ∧ startedLine ≠ [] ∧
    (startedLine ++ [newline]).length ≤ maxEventLogBytes := by
  decide +kernel

def startedFormat : RecordFormat := formatOf startedLine startedCall.record

def startedLog : EventLog := EventLog.empty.set 0 (some (startedFormat.line startedCall.record))

theorem event_logs_keep_newest_started :
    Keeps startedFormat [startedCall.record] startedLog ∧
      Newest 1 (startedLog.retained startedFormat ++ (startedLog.retained startedFormat ++ []))
        (readEvents startedFormat [startedLog, startedLog] 1) := by
  have hrun : ∀ run ∈ [([startedCall], startedLog), ([startedCall], startedLog)],
      Recorded startedFormat run := by
    intro run hrun
    obtain rfl : run = ([startedCall], startedLog) := by simpa using hrun
    refine ⟨recordAll_single ?_, faithful_formatOf _ startedLine_facts.1 startedLine_facts.2.1⟩
    rw [startedFormat, line_formatOf]
    exact startedLine_facts.2.2
  have hkept := event_logs_keep_newest startedFormat _ hrun
  exact ⟨(hkept.1 _ List.mem_cons_self).1, hkept.2.2 1⟩

end MacTypeControl.Events
