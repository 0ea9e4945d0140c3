import Mathlib.Data.List.Nodup

/-!
# Folders

The entries of a folder in the order in which they are listed. A file system may take
different spellings for the same name, and a folder has no two entries under one name.
-/

namespace MacTypeControl.Tables

/-- `key` is what the file system compares of a name. -/
structure Folder {ν κ : Type} (key : ν → κ) (α : Type) where
  entries : List (ν × α)
  distinct : (entries.map fun entry => key entry.1).Nodup

namespace Folder

variable {ν κ α : Type} [DecidableEq κ] {key : ν → κ} (folder : Folder key α)

def lookup (name : ν) : Option α :=
  (folder.entries.find? fun entry => key entry.1 = key name).map Prod.snd

def remove (name : ν) : Folder key α where
  entries := folder.entries.filter fun entry => key entry.1 ≠ key name
  distinct := folder.distinct.sublist (List.filter_sublist.map _)

/-- A new entry at the end, in place of the one that is there under the name. -/
def put (name : ν) (a : α) : Folder key α where
  entries := (folder.remove name).entries ++ [(name, a)]
  distinct := by
    have hothers : key name ∉ (folder.remove name).entries.map fun entry => key entry.1 := by
      rintro hmem
      obtain ⟨entry, hentry, hkey⟩ := List.mem_map.1 hmem
      have hne := (List.mem_filter.1 hentry).2
      simp [hkey] at hne
    rw [List.map_append, List.nodup_append]
    refine ⟨(folder.remove name).distinct, List.nodup_singleton _, ?_⟩
    rintro other hother _ hname rfl
    rw [List.map_singleton, List.mem_singleton] at hname
    exact hothers (hname ▸ hother)

def adjust (name : ν) (f : α → α) : Folder key α where
  entries := folder.entries.map fun entry =>
    if key entry.1 = key name then (entry.1, f entry.2) else entry
  distinct := by
    have hkeys : (fun entry : ν × α => key entry.1) ∘
        (fun entry => if key entry.1 = key name then (entry.1, f entry.2) else entry) =
        fun entry => key entry.1 := by
      funext entry
      by_cases h : key entry.1 = key name <;> simp [h]
    rw [List.map_map, hkeys]
    exact folder.distinct

variable {folder}

theorem lookup_congr {name other : ν} (h : key name = key other) :
    folder.lookup name = folder.lookup other := by
  unfold lookup
  rw [h]

theorem exists_of_lookup {name : ν} {a : α} (h : folder.lookup name = some a) :
    ∃ spelling, (spelling, a) ∈ folder.entries ∧ key spelling = key name := by
  obtain ⟨entry, hfind, rfl⟩ := Option.map_eq_some_iff.1 h
  exact ⟨entry.1, List.mem_of_find?_eq_some hfind, by simpa using List.find?_some hfind⟩

/-- A listed entry is the one that its name leads to. -/
theorem lookup_of_mem {name : ν} {a : α} (h : (name, a) ∈ folder.entries) :
    folder.lookup name = some a := by
  have hfound : (folder.entries.find? fun entry => key entry.1 = key name).isSome := by
    rw [List.find?_isSome]
    exact ⟨(name, a), h, by simp⟩
  obtain ⟨entry, hfind⟩ := Option.isSome_iff_exists.1 hfound
  have hkey : key entry.1 = key name := by simpa using List.find?_some hfind
  have hentry := List.inj_on_of_nodup_map folder.distinct (List.mem_of_find?_eq_some hfind) h hkey
  unfold lookup
  rw [hfind, hentry]
  rfl

theorem lookup_remove_self {name other : ν} (h : key other = key name) :
    (folder.remove name).lookup other = none := by
  unfold lookup remove
  rw [Option.map_eq_none_iff, List.find?_eq_none]
  intro entry hentry
  have hne := (List.mem_filter.1 hentry).2
  simpa [h] using hne

theorem lookup_remove_of_ne {name other : ν} (h : key other ≠ key name) :
    (folder.remove name).lookup other = folder.lookup other := by
  unfold lookup remove
  rw [List.find?_filter]
  congr 2
  funext entry
  by_cases hentry : key entry.1 = key other
  · simp [hentry, h]
  · simp [hentry]

omit [DecidableEq κ] in
theorem ext_entries {other : Folder key α} (h : folder.entries = other.entries) : folder = other := by
  cases folder
  cases other
  cases h
  rfl

/-- A name that is not there is not taken out. -/
theorem remove_of_lookup_none {name : ν} (h : folder.lookup name = none) :
    folder.remove name = folder := by
  refine ext_entries (List.filter_eq_self.2 fun entry hentry => ?_)
  unfold lookup at h
  rw [Option.map_eq_none_iff, List.find?_eq_none] at h
  simpa using h entry hentry

theorem lookup_put_self (name : ν) (a : α) : (folder.put name a).lookup name = some a :=
  lookup_of_mem (List.mem_append_right _ (List.mem_singleton.2 rfl))

/-- A new entry can be taken out again. -/
theorem remove_put {name : ν} (a : α) : (folder.put name a).remove name = folder.remove name := by
  refine ext_entries ?_
  have hnew : List.filter (fun entry => decide (key entry.1 ≠ key name)) [(name, a)] = [] := by simp
  unfold put remove
  dsimp only
  rw [List.filter_append, hnew, List.append_nil, List.filter_filter]
  simp

theorem put_put {name : ν} (a b : α) : (folder.put name a).put name b = folder.put name b := by
  refine ext_entries ?_
  change ((folder.put name a).remove name).entries ++ _ = _
  rw [remove_put]
  rfl

theorem lookup_adjust_self (f : α → α) {name other : ν} (h : key other = key name) :
    (folder.adjust name f).lookup other = (folder.lookup other).map f := by
  unfold lookup adjust
  rw [List.find?_map, Option.map_map, Option.map_map, h]
  have hkey : ((fun entry : ν × α => decide (key entry.1 = key name)) ∘ fun entry =>
      if key entry.1 = key name then (entry.1, f entry.2) else entry) =
      fun entry => decide (key entry.1 = key name) := by
    funext entry
    by_cases hentry : key entry.1 = key name <;> simp [hentry]
  rw [hkey]
  cases hfind : folder.entries.find? fun entry => decide (key entry.1 = key name) with
  | none => rfl
  | some entry =>
    have hentry : key entry.1 = key name := by simpa using List.find?_some hfind
    simp [hentry]

theorem lookup_adjust_of_ne (f : α → α) {name other : ν} (h : key other ≠ key name) :
    (folder.adjust name f).lookup other = folder.lookup other := by
  unfold lookup adjust
  rw [List.find?_map, Option.map_map]
  have hkey : ((fun entry : ν × α => decide (key entry.1 = key other)) ∘ fun entry =>
      if key entry.1 = key name then (entry.1, f entry.2) else entry) =
      fun entry => decide (key entry.1 = key other) := by
    funext entry
    by_cases hentry : key entry.1 = key name <;> simp [hentry]
  rw [hkey]
  cases hfind : folder.entries.find? fun entry => decide (key entry.1 = key other) with
  | none => rfl
  | some entry =>
    have hentry : key entry.1 = key other := by simpa using List.find?_some hfind
    simp [hentry, h]

theorem keys_adjust (name : ν) (f : α → α) :
    (folder.adjust name f).entries.map Prod.fst = folder.entries.map Prod.fst := by
  unfold adjust
  rw [List.map_map]
  refine List.map_congr_left fun entry _ => ?_
  by_cases hentry : key entry.1 = key name <;> simp [hentry]

end Folder
end MacTypeControl.Tables
