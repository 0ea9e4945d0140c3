import Mathlib.Logic.Function.Basic
import Mathlib.Tactic.Common

/-!
# Files that are shared by handle

Names lead to files. Who has opened a file keeps it, whatever becomes of its name, and files that
are only appended to keep what they hold.
-/

namespace MacTypeControl.Files

/-- Names lead to files, whose numbers are below `next`. -/
structure Shared (ν β : Type) where
  content : ℕ → List β
  link : ν → Option ℕ
  next : ℕ

namespace Shared

variable {ν β : Type}

def append (s : Shared ν β) (file : ℕ) (text : List β) : Shared ν β :=
  { s with content := Function.update s.content file (s.content file ++ text) }

/-- Every name leads to a file that there is. -/
def Allocated (s : Shared ν β) : Prop := ∀ name file, s.link name = some file → file < s.next

/-- No file is lost, and none loses anything that it holds. -/
structure Grows (s t : Shared ν β) : Prop where
  next : s.next ≤ t.next
  content : ∀ file < s.next, s.content file <+: t.content file

theorem Grows.refl (s : Shared ν β) : s.Grows s :=
  ⟨Nat.le_refl _, fun _ _ => List.prefix_refl _⟩

variable {s : Shared ν β}

theorem append_content_self (file : ℕ) (text : List β) :
    (s.append file text).content file = s.content file ++ text :=
  Function.update_self ..

theorem append_content_of_ne {file other : ℕ} (text : List β) (h : other ≠ file) :
    (s.append file text).content other = s.content other :=
  Function.update_of_ne h ..

theorem grows_append (file : ℕ) (text : List β) : s.Grows (s.append file text) := by
  refine ⟨Nat.le_refl _, fun other _ => ?_⟩
  by_cases hsame : other = file
  · rw [hsame, append_content_self]
    exact List.prefix_append _ _
  · exact (append_content_of_ne (s := s) text hsame).symm ▸ List.prefix_refl _

theorem allocated_append (h : s.Allocated) (file : ℕ) (text : List β) :
    (s.append file text).Allocated := h

/-! ## Names -/

section

variable [DecidableEq ν]

/-- Opens the file of that name, which is created if there is none. -/
def openOrCreate (s : Shared ν β) (name : ν) : ℕ × Shared ν β :=
  match s.link name with
  | some file => (file, s)
  | none => (s.next,
      { content := Function.update s.content s.next []
        link := Function.update s.link name (some s.next)
        next := s.next + 1 })

def remove (s : Shared ν β) (name : ν) : Shared ν β :=
  { s with link := Function.update s.link name none }

/-- Moves the file of a name to another name, over a file that has that name. -/
def rename (s : Shared ν β) (source destination : ν) : Shared ν β :=
  match s.link source with
  | none => s
  | some file =>
    { s with link :=
        Function.update (Function.update s.link source none) destination (some file) }

theorem grows_openOrCreate (name : ν) : s.Grows (s.openOrCreate name).2 := by
  unfold openOrCreate
  split
  · exact Grows.refl s
  · refine ⟨Nat.le_succ _, fun file hfile => ?_⟩
    have hold : Function.update s.content s.next [] file = s.content file :=
      Function.update_of_ne (Nat.ne_of_lt hfile) ..
    exact hold.symm ▸ List.prefix_refl _

theorem grows_remove (name : ν) : s.Grows (s.remove name) :=
  ⟨Nat.le_refl _, fun _ _ => List.prefix_refl _⟩

theorem rename_content (source destination : ν) :
    (s.rename source destination).content = s.content ∧
      (s.rename source destination).next = s.next := by
  unfold rename
  split
  · exact ⟨rfl, rfl⟩
  · exact ⟨rfl, rfl⟩

theorem grows_rename (source destination : ν) : s.Grows (s.rename source destination) := by
  obtain ⟨hcontent, hnext⟩ := rename_content (s := s) source destination
  exact ⟨Nat.le_of_eq hnext.symm, fun file _ => hcontent ▸ List.prefix_refl _⟩

theorem openOrCreate_link (name : ν) :
    (s.openOrCreate name).2.link name = some (s.openOrCreate name).1 := by
  unfold openOrCreate
  split
  · assumption
  · exact Function.update_self ..

theorem openOrCreate_lt (h : s.Allocated) (name : ν) :
    (s.openOrCreate name).1 < (s.openOrCreate name).2.next := by
  unfold openOrCreate
  split
  · next file hlink => exact h name file hlink
  · exact Nat.lt_succ_self _

/-- A file that is new has nothing in it. -/
theorem openOrCreate_content (name : ν) (file : ℕ) :
    (s.openOrCreate name).2.content file = s.content file ∨
      (file = s.next ∧ (s.openOrCreate name).2.content file = []) := by
  unfold openOrCreate
  split
  · exact Or.inl rfl
  · by_cases hnew : file = s.next
    · exact Or.inr ⟨hnew, by rw [hnew]; exact Function.update_self ..⟩
    · exact Or.inl (Function.update_of_ne hnew ..)

theorem link_openOrCreate_of_ne {name other : ν} (h : other ≠ name) :
    (s.openOrCreate name).2.link other = s.link other := by
  unfold openOrCreate
  split
  · rfl
  · exact Function.update_of_ne h ..

/-- A name that leads to a file goes on leading to it. -/
theorem link_openOrCreate {name other : ν} {file : ℕ} (h : s.link other = some file) :
    (s.openOrCreate name).2.link other = some file := by
  by_cases hsame : other = name
  · unfold openOrCreate
    rw [← hsame, h]
    exact h
  · rw [link_openOrCreate_of_ne hsame, h]

theorem link_remove (name : ν) : (s.remove name).link name = none := Function.update_self ..

theorem link_remove_of_ne {name other : ν} (h : other ≠ name) :
    (s.remove name).link other = s.link other :=
  Function.update_of_ne h ..

theorem link_rename_of_ne {source destination other : ν} (hsource : other ≠ source)
    (hdestination : other ≠ destination) :
    (s.rename source destination).link other = s.link other := by
  unfold rename
  split
  · rfl
  · show Function.update _ _ _ other = _
    rw [Function.update_of_ne hdestination, Function.update_of_ne hsource]

theorem link_rename_destination {source destination : ν} {file : ℕ}
    (h : s.link source = some file) :
    (s.rename source destination).link destination = some file := by
  unfold rename
  rw [h]
  exact Function.update_self ..

theorem link_rename_source {source destination : ν} (h : source ≠ destination) :
    (s.rename source destination).link source = none := by
  unfold rename
  split
  · assumption
  · show Function.update _ _ _ source = _
    rw [Function.update_of_ne h, Function.update_self]

theorem allocated_openOrCreate (h : s.Allocated) (name : ν) :
    (s.openOrCreate name).2.Allocated := by
  intro other file hlink
  by_cases hsame : other = name
  · have hopened := openOrCreate_link (s := s) name
    rw [hsame, hopened] at hlink
    exact Option.some.inj hlink ▸ openOrCreate_lt h name
  · rw [link_openOrCreate_of_ne hsame] at hlink
    exact Nat.lt_of_lt_of_le (h other file hlink) (grows_openOrCreate name).next

theorem allocated_remove (h : s.Allocated) (name : ν) : (s.remove name).Allocated := by
  intro other file hlink
  by_cases hsame : other = name
  · rw [hsame, link_remove] at hlink
    cases hlink
  · rw [link_remove_of_ne hsame] at hlink
    exact h other file hlink

theorem allocated_rename (h : s.Allocated) {source destination : ν}
    (hne : source ≠ destination) : (s.rename source destination).Allocated := by
  intro other file hlink
  rw [(rename_content source destination).2]
  by_cases hsource : other = source
  · rw [hsource, link_rename_source hne] at hlink
    cases hlink
  by_cases hdestination : other = destination
  · cases hmoved : s.link source with
    | none =>
      rw [rename, hmoved] at hlink
      exact h other file hlink
    | some moved =>
      rw [hdestination, link_rename_destination hmoved] at hlink
      exact Option.some.inj hlink ▸ h source moved hmoved
  · rw [link_rename_of_ne hsource hdestination] at hlink
    exact h other file hlink

end

end Shared

end MacTypeControl.Files
