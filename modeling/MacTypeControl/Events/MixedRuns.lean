import MacTypeControl.Events.MixedWriters
import MacTypeControl.Events.Reading

/-!
# What mixed writers leave in the log

The lines of the calls stay whole in every order of their steps. The bound on the length of a file
also needs that what others append between a look at the length and the write leaves room for it.
-/

namespace MacTypeControl.Events

open Files

/-! ## Files of whole lines -/

/-- Nothing is left open at the end. -/
def Whole (content : List UInt8) : Prop := content = [] ∨ content.getLast? = some newline

theorem whole_concat_newline (content : List UInt8) : Whole (content ++ [newline]) :=
  Or.inr (by simp)

theorem whole_append_line (format : RecordFormat) (content : List UInt8) (record : EventRecord) :
    Whole (content ++ format.line record) := by
  rw [RecordFormat.line, ← List.append_assoc]
  exact whole_concat_newline _

/-- A line that stands after whole lines is one of the lines of its file. -/
theorem mem_fileLines {before after line : List UInt8} (hbefore : Whole before)
    (hline : newline ∉ line) : line ∈ fileLines (before ++ (line ++ [newline]) ++ after) := by
  have hafter : line ∈ ((line ++ newline :: after).splitOn newline).dropLast := by
    rw [List.splitOn_append_cons_self_of_not_mem hline, List.dropLast_cons_of_ne_nil (by simp)]
    exact List.mem_cons_self
  have hsplit : before ++ (line ++ [newline]) ++ after = before ++ (line ++ newline :: after) := by
    simp
  rw [fileLines, hsplit]
  rcases hbefore with rfl | hlast
  · exact hafter
  · obtain ⟨lead, rfl⟩ : ∃ lead, before = lead ++ [newline] := by
      rw [List.getLast?_eq_some_iff] at hlast
      exact hlast
    rw [List.append_assoc, List.singleton_append, List.splitOn_append_cons_self]
    rw [List.dropLast_append_of_ne_nil (by simp)]
    exact List.mem_append_right _ hafter

/-! ## What holds between the steps -/

def Phase.place : Phase → Option Place
  | .syncing place => some place
  | .returned place => place
  | _ => none

section

variable {ι : Type}

/-- The file is in the log, or it has been rotated away as the oldest backup. -/
def Kept (s : Writers ι) (file : ℕ) : Prop :=
  file < s.files.next ∧ ((∃ index ≤ eventLogBackups, s.files.link index = some file) ∨
    (eventLogBackups, file) ∈ s.removed)

/-- The line is a whole line of its own in its file. -/
def Placed (s : Writers ι) (line : List UInt8) (place : Place) : Prop :=
  Kept s place.file ∧ ∃ before after, s.files.content place.file = before ++ line ++ after ∧
    before.length = place.offset ∧ Whole before

/-- The holder of the lock has come to a backup, and has made room for the one before it. -/
structure Rotating (s : Writers ι) (id : ι) (index : ℕ) : Prop where
  holder : s.holder = some id
  pos : 1 ≤ index
  le : index ≤ eventLogBackups
  vacant : index < eventLogBackups → s.files.link index = none

def PhaseSound (s : Writers ι) (line : List UInt8) (id : ι) : Phase → Prop
  | .ready => True
  | .measuring => s.holder = some id
  | .checking index => Rotating s id index
  | .removing index => Rotating s id index ∧ index = eventLogBackups
  | .moving index => Rotating s id index
  | .opening _ => s.holder = some id
  | .writing file _ => s.holder = some id ∧ Kept s file
  | .measuringOpened file => Kept s file
  | .writingSynchronously file _ => Kept s file
  | .syncing place => Placed s line place
  | .returned none => True
  | .returned (some place) => Placed s line place

structure Sound (format : RecordFormat) (calls : ι → AppendCall) (s : Writers ι) : Prop where
  allocated : s.files.Allocated
  whole : ∀ file, Whole (s.files.content file)
  phase : ∀ id, PhaseSound s (format.line (calls id).record) id (s.phase id)
  apart : ∀ id other p q, id ≠ other → (s.phase id).place = some p →
    (s.phase other).place = some q → p ≠ q

/-- What the other calls rely on when one of them takes a step. -/
structure Frame (s t : Writers ι) (id : ι) : Prop where
  grows : s.files.Grows t.files
  allocated : t.files.Allocated
  whole : ∀ file, Whole (t.files.content file)
  kept : ∀ file, Kept s file → Kept t file
  holder : ∀ other, other ≠ id → s.holder = some other → t.holder = some other
  backups : ∀ other, other ≠ id → s.holder = some other →
    ∀ index, 1 ≤ index → t.files.link index = s.files.link index

variable {format : RecordFormat} {calls : ι → AppendCall} {s t : Writers ι} {id : ι}

theorem Placed.later {line : List UInt8} {place : Place} (h : Placed s line place)
    (hgrows : s.files.Grows t.files) (hkept : ∀ file, Kept s file → Kept t file) :
    Placed t line place := by
  obtain ⟨hfile, before, after, hcontent, hoffset, hwhole⟩ := h
  obtain ⟨more, hmore⟩ := hgrows.content place.file hfile.1
  refine ⟨hkept place.file hfile, before, after ++ more, ?_, hoffset, hwhole⟩
  rw [← hmore, hcontent, List.append_assoc]

/-- A step keeps the promises that the other calls have made. -/
theorem PhaseSound.frame {line : List UInt8} {other : ι} {phase : Phase}
    (h : PhaseSound s line other phase) (hframe : Frame s t id) (hother : other ≠ id) :
    PhaseSound t line other phase := by
  have hrotating {index : ℕ} (h : Rotating s other index) : Rotating t other index := by
    refine ⟨hframe.holder other hother h.holder, h.pos, h.le, fun hlt => ?_⟩
    rw [hframe.backups other hother h.holder index h.pos, h.vacant hlt]
  cases phase with
  | ready => trivial
  | measuring => exact hframe.holder other hother h
  | checking index => exact hrotating h
  | removing index => exact ⟨hrotating h.1, h.2⟩
  | moving index => exact hrotating h
  | opening seen => exact hframe.holder other hother h
  | writing file seen => exact ⟨hframe.holder other hother h.1, hframe.kept file h.2⟩
  | measuringOpened file => exact hframe.kept file h
  | writingSynchronously file seen => exact hframe.kept file h
  | syncing place => exact h.later hframe.grows hframe.kept
  | returned place =>
    cases place with
    | none => trivial
    | some place => exact h.later hframe.grows hframe.kept

/-- A line that is in its place ends before the end of its file. -/
theorem Placed.offset_lt {record : EventRecord} {place : Place}
    (h : Placed s (format.line record) place) : place.offset < s.length place.file := by
  obtain ⟨-, before, after, hcontent, hoffset, -⟩ := h
  rw [Writers.length, hcontent, ← hoffset]
  simp only [RecordFormat.line, List.length_append, List.length_singleton]
  omega

theorem placed_of_place {line : List UInt8} {phase : Phase} {place : Place}
    (h : PhaseSound s line id phase) (hplace : phase.place = some place) :
    Placed s line place := by
  cases phase with
  | syncing p =>
    cases hplace
    exact h
  | returned p =>
    cases hplace
    exact h
  | _ => cases hplace

/-! ## What is done to the files -/

theorem Frame.refl (hsound : Sound format calls s) : Frame s s id :=
  ⟨Shared.Grows.refl _, hsound.allocated, hsound.whole, fun _ h => h, fun _ _ h => h,
    fun _ _ _ _ _ => rfl⟩

theorem Frame.lock (hsound : Sound format calls s) (hfree : s.holder = none) :
    Frame s { s with holder := some id } id := by
  refine ⟨Shared.Grows.refl _, hsound.allocated, hsound.whole, fun _ h => h, ?_,
    fun _ _ _ _ _ => rfl⟩
  intro other _ hheld
  rw [hfree] at hheld
  cases hheld

/-- Only the holder of the lock changes the files that are not the base file. -/
theorem backups_of_holder (hholder : s.holder = some id) {link : ℕ → Option ℕ} :
    ∀ other, other ≠ id → s.holder = some other →
      ∀ index, 1 ≤ index → link index = s.files.link index := by
  intro other hother hheld
  rw [hholder] at hheld
  exact absurd (Option.some.inj hheld).symm hother

theorem Frame.removeFile (hsound : Sound format calls s) (hholder : s.holder = some id) :
    Frame s (s.removeFile eventLogBackups) id := by
  refine ⟨Shared.grows_remove _, Shared.allocated_remove hsound.allocated _, hsound.whole, ?_,
    fun _ _ h => h, backups_of_holder hholder⟩
  rintro file ⟨hfile, ⟨index, hindex, hlink⟩ | hremoved⟩
  · by_cases holdest : index = eventLogBackups
    · refine ⟨hfile, Or.inr (List.mem_append_left _ ?_)⟩
      rw [holdest] at hlink
      rw [hlink]
      exact List.mem_singleton_self _
    · refine ⟨hfile, Or.inl ⟨index, hindex, ?_⟩⟩
      show (s.files.remove eventLogBackups).link index = some file
      rw [Shared.link_remove_of_ne holdest, hlink]
  · exact ⟨hfile, Or.inr (List.mem_append_right _ hremoved)⟩

theorem Frame.renameFile (hsound : Sound format calls s) {index : ℕ}
    (hrotating : Rotating s id index) : Frame s (s.renameFile index) id := by
  have hpos := hrotating.pos
  have hne : index - 1 ≠ index := by omega
  obtain ⟨hcontent, hnext⟩ := Shared.rename_content (s := s.files) (index - 1) index
  refine ⟨Shared.grows_rename _ _, Shared.allocated_rename hsound.allocated hne, ?_, ?_,
    fun _ _ h => h, backups_of_holder hrotating.holder⟩
  · intro file
    show Whole ((s.files.rename (index - 1) index).content file)
    rw [hcontent]
    exact hsound.whole file
  rintro file ⟨hfile, ⟨a, ha, hlink⟩ | hremoved⟩
  · have hfile' : file < (s.renameFile index).files.next := hnext.symm ▸ hfile
    cases hsource : s.files.link (index - 1) with
    | none =>
      have hsame : (s.renameFile index).files = s.files := by
        show s.files.rename (index - 1) index = s.files
        rw [Shared.rename, hsource]
      exact ⟨hfile', Or.inl ⟨a, ha, by rw [hsame, hlink]⟩⟩
    | some source =>
      by_cases hmoved : a = index - 1
      · rw [hmoved] at hlink
        exact ⟨hfile', Or.inl ⟨index, hrotating.le, Shared.link_rename_destination hlink⟩⟩
      by_cases hdisplaced : a = index
      · -- a backup that is in the way is the oldest one
        rw [hdisplaced] at hlink
        have holdest : index = eventLogBackups := by
          by_contra hyounger
          have hvacant := hrotating.vacant (Nat.lt_of_le_of_ne hrotating.le hyounger)
          rw [hlink] at hvacant
          cases hvacant
        refine ⟨hfile', Or.inr ?_⟩
        show _ ∈ if (s.files.link (index - 1)).isSome then _ else _
        rw [hsource, hlink, holdest]
        exact List.mem_cons_self
      · exact ⟨hfile', Or.inl ⟨a, ha, by
          show (s.files.rename (index - 1) index).link a = some file
          rw [Shared.link_rename_of_ne hmoved hdisplaced, hlink]⟩⟩
  · refine ⟨hnext.symm ▸ hfile, Or.inr ?_⟩
    show _ ∈ if (s.files.link (index - 1)).isSome then _ else _
    split
    · exact List.mem_append_right _ hremoved
    · exact hremoved

theorem Frame.write (hsound : Sound format calls s) {file : ℕ} (lead : List UInt8)
    (record : EventRecord) : Frame s (s.write file lead (format.line record)).2 id := by
  refine ⟨Shared.grows_append file _, Shared.allocated_append hsound.allocated file _, ?_,
    fun _ h => h, fun _ _ h => h, fun _ _ _ _ _ => rfl⟩
  intro other
  show Whole ((s.files.append file (lead ++ format.line record)).content other)
  by_cases hsame : other = file
  · rw [hsame, Shared.append_content_self, ← List.append_assoc]
    exact whole_append_line format _ record
  · rw [Shared.append_content_of_ne _ hsame]
    exact hsound.whole other

/-- What was written after whole lines is in its place. -/
theorem placed_write {file : ℕ} {lead line : List UInt8} (hkept : Kept s file)
    (hwhole : Whole (s.files.content file ++ lead)) :
    Placed (s.write file lead line).2 line (s.write file lead line).1 := by
  refine ⟨hkept, s.files.content file ++ lead, [], ?_, ?_, hwhole⟩
  · show (s.files.append file (lead ++ line)).content file = _
    rw [Shared.append_content_self, List.append_assoc, List.append_assoc, List.append_nil]
  · rw [List.length_append]
    rfl

/-! ## The calls -/

variable [DecidableEq ι]

theorem Frame.enter (h : Frame s t id) (phase : Phase) : Frame s (t.enter id phase) id :=
  ⟨h.grows, h.allocated, h.whole, h.kept, h.holder, h.backups⟩

/-- The lock is given up by the one that holds it. -/
theorem Frame.release (h : Frame s t id) (hholder : s.holder = some id) (place : Option Place) :
    Frame s (t.release id place) id := by
  refine ⟨h.grows, h.allocated, h.whole, h.kept, fun other hother hheld => ?_, h.backups⟩
  rw [hholder] at hheld
  exact absurd (Option.some.inj hheld).symm hother

theorem Frame.openBase (hsound : Sound format calls s) (next : ℕ → Phase) :
    Frame s (s.openBase next id) id := by
  refine ⟨Shared.grows_openOrCreate 0, Shared.allocated_openOrCreate hsound.allocated 0, ?_, ?_,
    fun _ _ h => h, fun _ _ _ index hindex => ?_⟩
  · intro file
    show Whole ((s.files.openOrCreate 0).2.content file)
    rcases Shared.openOrCreate_content (s := s.files) 0 file with hsame | ⟨-, hempty⟩
    · rw [hsame]
      exact hsound.whole file
    · rw [hempty]
      exact Or.inl rfl
  · rintro file ⟨hfile, ⟨a, ha, hlink⟩ | hremoved⟩
    · exact ⟨Nat.lt_of_lt_of_le hfile (Shared.grows_openOrCreate 0).next,
        Or.inl ⟨a, ha, Shared.link_openOrCreate hlink⟩⟩
    · exact ⟨Nat.lt_of_lt_of_le hfile (Shared.grows_openOrCreate 0).next, Or.inr hremoved⟩
  · exact Shared.link_openOrCreate_of_ne (by omega)

/-- A call that takes a step has its own promise to keep, and a new place at the end of a file. -/
theorem Sound.advance (hsound : Sound format calls s) {phase : Phase}
    (hphase : t.phase = Function.update s.phase id phase) (hframe : Frame s t id)
    (hown : PhaseSound t (format.line (calls id).record) id phase)
    (hnew : ∀ place, phase.place = some place →
      (s.phase id).place = some place ∨ s.length place.file ≤ place.offset) :
    Sound format calls t := by
  -- a new place lies behind those of the other calls
  have hbehind : ∀ other p q, other ≠ id → phase.place = some p →
      (s.phase other).place = some q → p ≠ q := by
    intro other p q hother hp hq hsame
    rcases hnew p hp with hold | hend
    · exact hsound.apart id other p q (Ne.symm hother) hold hq hsame
    · have := (placed_of_place (hsound.phase other) hq).offset_lt
      rw [← hsame] at this
      omega
  refine ⟨hframe.allocated, hframe.whole, fun other => ?_, fun a b p q hne hp hq => ?_⟩
  · by_cases hother : other = id
    · rw [hother, hphase, Function.update_self]
      exact hown
    · rw [hphase, Function.update_of_ne hother]
      exact (hsound.phase other).frame hframe hother
  · rw [hphase] at hp hq
    by_cases ha : a = id
    · have hb : b ≠ id := fun hb => hne (ha.trans hb.symm)
      rw [ha, Function.update_self] at hp
      rw [Function.update_of_ne hb] at hq
      exact hbehind b p q hb hp hq
    · rw [Function.update_of_ne ha] at hp
      by_cases hb : b = id
      · rw [hb, Function.update_self] at hq
        exact Ne.symm (hbehind a q p ha hq hp)
      · rw [Function.update_of_ne hb] at hq
        exact hsound.apart a b p q hne hp hq

/-- A step that does not write makes no place. -/
theorem Sound.enter (hsound : Sound format calls s) {phase : Phase} (hsame : t.phase = s.phase)
    (hframe : Frame s t id)
    (hown : PhaseSound (t.enter id phase) (format.line (calls id).record) id phase)
    (hplace : phase.place = none) : Sound format calls (t.enter id phase) := by
  refine hsound.advance ?_ (hframe.enter phase) hown fun place h => ?_
  · show Function.update t.phase id phase = _
    rw [hsame]
  · rw [hplace] at h
    cases h

theorem Sound.giveUp (hsound : Sound format calls s) (hholder : s.holder = some id) :
    Sound format calls (s.release id none) := by
  refine hsound.advance rfl ((Frame.refl hsound).release hholder none) trivial fun place h => ?_
  cases h

/-- The base file is opened, and the call goes on with it. -/
theorem Sound.openBase (hsound : Sound format calls s) {next : ℕ → Phase}
    (hown : ∀ t : Writers ι, t.holder = s.holder → Kept t (s.files.openOrCreate 0).1 →
      PhaseSound t (format.line (calls id).record) id (next (s.files.openOrCreate 0).1))
    (hplace : (next (s.files.openOrCreate 0).1).place = none) :
    Sound format calls (s.openBase next id) := by
  have hkept : Kept (s.openBase next id) (s.files.openOrCreate 0).1 :=
    ⟨Shared.openOrCreate_lt hsound.allocated 0,
      Or.inl ⟨0, Nat.zero_le _, Shared.openOrCreate_link 0⟩⟩
  have hphase : (s.openBase next id).phase =
      Function.update s.phase id (next (s.files.openOrCreate 0).1) := rfl
  refine hsound.advance hphase (Frame.openBase hsound next) (hown _ rfl hkept) fun place h => ?_
  rw [hplace] at h
  cases h

theorem sound_stepAppend (hsound : Sound format calls s) {record : EventRecord}
    (hcall : calls id = .append record) {fails : Bool}
    (h : s.stepAppend (format.line record) id fails = some t) : Sound format calls t := by
  have hown := hsound.phase id
  unfold Writers.stepAppend at h
  cases hphase : s.phase id with
  | ready =>
    rw [hphase] at h
    dsimp only at h
    split at h
    · cases h
    next hfree =>
    have hfree : s.holder = none := by simpa using hfree
    split at h
    · obtain rfl := Option.some.inj h
      exact hsound.enter rfl (Frame.refl hsound) trivial rfl
    · obtain rfl := Option.some.inj h
      exact hsound.enter rfl (Frame.lock hsound hfree) rfl rfl
  | measuring =>
    rw [hphase] at h hown
    dsimp only at h
    split at h
    · obtain rfl := Option.some.inj h
      exact hsound.giveUp hown
    split at h
    · obtain rfl := Option.some.inj h
      exact hsound.enter rfl (Frame.refl hsound) hown rfl
    · obtain rfl := Option.some.inj h
      exact hsound.enter rfl (Frame.refl hsound)
        ⟨hown, by decide, Nat.le_refl _, fun hlt => absurd hlt (Nat.lt_irrefl _)⟩ rfl
  | checking index =>
    rw [hphase] at h hown
    dsimp only at h
    split at h
    · next hfound =>
      obtain rfl := Option.some.inj h
      -- a younger backup has been moved on
      have holdest : index = eventLogBackups := by
        by_contra hyounger
        have hvacant := hown.vacant (Nat.lt_of_le_of_ne hown.le hyounger)
        simp [hvacant] at hfound
      exact hsound.enter rfl (Frame.refl hsound) ⟨⟨hown.holder, hown.pos, hown.le, hown.vacant⟩,
        holdest⟩ rfl
    · obtain rfl := Option.some.inj h
      exact hsound.enter rfl (Frame.refl hsound) ⟨hown.holder, hown.pos, hown.le, hown.vacant⟩ rfl
  | removing index =>
    rw [hphase] at h hown
    dsimp only at h
    obtain ⟨hrotating, rfl⟩ := hown
    split at h
    · obtain rfl := Option.some.inj h
      exact hsound.giveUp hrotating.holder
    · obtain rfl := Option.some.inj h
      exact hsound.enter rfl (Frame.removeFile hsound hrotating.holder)
        ⟨hrotating.holder, hrotating.pos, hrotating.le, fun hlt => absurd hlt (Nat.lt_irrefl _)⟩ rfl
  | moving index =>
    rw [hphase] at h hown
    dsimp only at h
    split at h
    · obtain rfl := Option.some.inj h
      exact hsound.giveUp hown.holder
    · obtain rfl := Option.some.inj h
      have hframe := Frame.renameFile hsound hown
      have hpos := hown.pos
      by_cases hfirst : index = 1
      · rw [if_pos hfirst]
        exact hsound.enter rfl hframe hown.holder rfl
      · rw [if_neg hfirst]
        have hle := hown.le
        refine hsound.enter rfl hframe ⟨hown.holder, by omega, by omega, fun _ => ?_⟩ rfl
        exact Shared.link_rename_source (by omega)
  | opening seen =>
    rw [hphase] at h hown
    dsimp only at h
    split at h
    · obtain rfl := Option.some.inj h
      exact hsound.giveUp hown
    · obtain rfl := Option.some.inj h
      exact hsound.openBase (fun _ hheld hkept => ⟨hheld.trans hown, hkept⟩) rfl
  | writing file seen =>
    rw [hphase] at h hown
    dsimp only at h
    split at h
    · obtain rfl := Option.some.inj h
      exact hsound.giveUp hown.1
    · obtain rfl := Option.some.inj h
      have hplaced : Placed (s.write file [] (format.line record)).2 (format.line record)
          (s.write file [] (format.line record)).1 := by
        refine placed_write hown.2 ?_
        rw [List.append_nil]
        exact hsound.whole file
      refine hsound.advance rfl ((Frame.write hsound [] record).release hown.1 _) ?_ ?_
      · rw [hcall]
        exact hplaced
      · rintro place ⟨⟩
        exact Or.inr (Nat.le_add_right _ _)
  | measuringOpened file =>
    rw [hphase] at h
    cases h
  | writingSynchronously file seen =>
    rw [hphase] at h
    cases h
  | syncing place =>
    rw [hphase] at h
    cases h
  | returned place =>
    rw [hphase] at h
    cases h

theorem sound_stepSynchronously (hsound : Sound format calls s) {record : EventRecord}
    (hcall : calls id = .appendSynchronouslyAt record) {fails : Bool}
    (h : s.stepSynchronously (format.line record) id fails = some t) : Sound format calls t := by
  have hown := hsound.phase id
  have hrefused : Sound format calls (s.enter id (.returned none)) :=
    hsound.enter rfl (Frame.refl hsound) trivial rfl
  unfold Writers.stepSynchronously at h
  cases hphase : s.phase id with
  | ready =>
    rw [hphase] at h
    dsimp only at h
    split at h
    · obtain rfl := Option.some.inj h
      exact hrefused
    · obtain rfl := Option.some.inj h
      exact hsound.openBase (fun _ _ hkept => hkept) rfl
  | measuringOpened file =>
    rw [hphase] at h hown
    dsimp only at h
    split at h
    · obtain rfl := Option.some.inj h
      exact hrefused
    · obtain rfl := Option.some.inj h
      exact hsound.enter rfl (Frame.refl hsound) hown rfl
  | writingSynchronously file seen =>
    rw [hphase] at h hown
    dsimp only at h
    split at h
    · obtain rfl := Option.some.inj h
      exact hrefused
    · obtain rfl := Option.some.inj h
      have hwhole : Whole (s.files.content file ++ if seen ≠ 0 then [newline] else []) := by
        by_cases hseen : seen ≠ 0
        · rw [if_pos hseen]
          exact whole_concat_newline _
        · rw [if_neg hseen, List.append_nil]
          exact hsound.whole file
      refine hsound.advance rfl ((Frame.write hsound _ record).enter _) ?_ ?_
      · rw [hcall]
        exact placed_write hown hwhole
      · rintro place ⟨⟩
        exact Or.inr (Nat.le_add_right _ _)
  | syncing place =>
    rw [hphase] at h hown
    dsimp only at h
    obtain rfl := Option.some.inj h
    cases fails with
    | true => exact hrefused
    | false =>
      refine hsound.advance rfl ((Frame.refl hsound).enter _) hown fun p hp => ?_
      rw [hphase]
      exact Or.inl hp
  | measuring =>
    rw [hphase] at h
    cases h
  | checking index =>
    rw [hphase] at h
    cases h
  | removing index =>
    rw [hphase] at h
    cases h
  | moving index =>
    rw [hphase] at h
    cases h
  | opening seen =>
    rw [hphase] at h
    cases h
  | writing file seen =>
    rw [hphase] at h
    cases h
  | returned place =>
    rw [hphase] at h
    cases h

/-- Every step of every call keeps the lines whole and the files in the log. -/
theorem sound_step (hsound : Sound format calls s) {fails : Bool}
    (h : s.step format calls id fails = some t) : Sound format calls t := by
  unfold Writers.step at h
  cases hcall : calls id with
  | append record =>
    rw [hcall] at h
    exact sound_stepAppend hsound hcall h
  | appendSynchronouslyAt record =>
    rw [hcall] at h
    exact sound_stepSynchronously hsound hcall h

theorem sound_reaches {condition : Writers ι → ι → Prop} (hsound : Sound format calls s)
    (h : s.Reaches format calls condition t) : Sound format calls t := by
  induction h with
  | refl => exact hsound
  | next before holds moves ih => exact sound_step ih moves

end

end MacTypeControl.Events
