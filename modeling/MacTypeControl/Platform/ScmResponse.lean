import MacTypeControl.Profile.TextEncodings
import MacTypeControl.Relay.UninstallerNames
import Mathlib.Tactic

/-!
# Responses of the service manager

A response is a block of bytes with pointers into itself. A pointer is checked against the block
before anything is read through it, and what is read ends at the first terminator.
-/

namespace MacTypeControl.Platform

open Editor (encodeUtf16 encodeUtf16Char unitToLeBytes)
open Text

/-! ## Multi-strings -/

/-- Strings that end in a zero each, and a zero after the last. -/
def multiString (values : List (List Char)) : List UInt16 :=
  if values.isEmpty then [0, 0]
  else values.flatMap (fun value => encodeUtf16 value ++ [0]) ++ [0]

/-! ## Responses -/

/-- How a reader ends. The last three ways are a read outside the block, a failed assertion and a
loop that goes on. -/
inductive Reading (α : Type) where
  | done (value : α)
  | invalidData (message : String)
  | outside
  | panicked
  | unfinished

/-- The bytes that were reported, at the address of their storage, which is aligned to words. -/
structure ScmResponse where
  start : ℕ
  start_pos : 0 < start
  aligned : 4 ∣ start
  bytes : List UInt8

namespace ScmResponse

variable (response : ScmResponse)

def endAddress : ℕ := response.start + response.bytes.length

/-- The units at an address, where all of them are in the block. -/
def unitsAt (address count : ℕ) : Option (List UInt16) :=
  if response.start ≤ address ∧ address + 2 * count ≤ response.endAddress then
    some (unitsLe ((response.bytes.drop (address - response.start)).take (2 * count)))
  else none

def wideUnits (pointer : ℕ) : Reading (Option (List UInt16)) :=
  if pointer = 0 then .done none
  else if pointer < response.start ∨ response.endAddress ≤ pointer then
    .invalidData "UTF-16 pointer is outside the SCM response"
  else if ¬2 ∣ pointer then .invalidData "UTF-16 pointer is misaligned"
  else
    let available := (response.endAddress - pointer) / 2
    match response.unitsAt pointer available with
    | none => .outside
    | some units =>
      match units.findIdx? (· == 0) with
      | none => .invalidData "UTF-16 string is not terminated inside the SCM response"
      | some length => .done (some (units.take length))

def multiUnitsFrom (maxEntries : ℕ) : (fuel current : ℕ) → (entries : List (List UInt16)) →
    Reading (List (List UInt16))
  | 0, _, _ => .unfinished
  | fuel + 1, current, entries =>
    if response.endAddress ≤ current then .invalidData "MULTI_SZ terminator is missing"
    else
      match response.wideUnits current with
      | .invalidData message => .invalidData message
      | .outside => .outside
      | .panicked => .panicked
      | .unfinished => .unfinished
      -- A pointer that is not null is read.
      | .done none => .panicked
      | .done (some units) =>
        if units.isEmpty then .done entries
        else if maxEntries ≤ entries.length then .invalidData "MULTI_SZ has too many entries"
        else
          multiUnitsFrom maxEntries fuel (current + 2 * (units.length + 1)) (entries ++ [units])

def multiUnits (fuel pointer maxEntries : ℕ) : Reading (List (List UInt16)) :=
  if pointer = 0 then .done [] else response.multiUnitsFrom maxEntries fuel pointer []

/-- The strings of a block as the required privileges are read. -/
def requiredStrings (fuel pointer maxEntries : ℕ) : Reading (List (List Char)) :=
  match response.multiUnits fuel pointer maxEntries with
  | .done entries =>
    match entries.mapM decodeUtf16 with
    | some values => .done values
    | none => .invalidData "required privilege is not valid UTF-16"
  | .invalidData message => .invalidData message
  | .outside => .outside
  | .panicked => .panicked
  | .unfinished => .unfinished

/-- The strings of a block as the dependencies are read. -/
def dependencyStrings (fuel pointer maxEntries : ℕ) : Reading (List (List Char)) :=
  match response.multiUnits fuel pointer maxEntries with
  | .done entries => .done (entries.map Relay.decodeUtf16Lossy)
  | .invalidData message => .invalidData message
  | .outside => .outside
  | .panicked => .panicked
  | .unfinished => .unfinished

/-! ## Units of the block -/

/-- The units from an address to the end of the block. -/
def unitsFrom (address : ℕ) : List UInt16 :=
  unitsLe (response.bytes.drop (address - response.start))

/-- These units are in the block at an address. -/
def Holds (address : ℕ) (units : List UInt16) : Prop :=
  response.unitsAt address units.length = some units

end ScmResponse

theorem length_unitsLe (bytes : List UInt8) : (unitsLe bytes).length = bytes.length / 2 := by
  fun_induction unitsLe bytes with
  | case1 low high rest ih =>
    rw [List.length_cons, ih, List.length_cons, List.length_cons]
    omega
  | case2 bytes hshort =>
    rcases bytes with _ | ⟨low, _ | ⟨high, rest⟩⟩
    · rfl
    · simp
    · exact absurd rfl (hshort low high rest)

theorem unitsLe_take (bytes : List UInt8) (count : ℕ) :
    unitsLe (bytes.take (2 * count)) = (unitsLe bytes).take count := by
  induction count generalizing bytes with
  | zero => simp [unitsLe]
  | succ count ih =>
    rcases bytes with _ | ⟨low, _ | ⟨high, rest⟩⟩
    · simp [unitsLe]
    · simp [unitsLe, Nat.mul_succ]
    · rw [Nat.mul_succ, List.take_succ_cons, List.take_succ_cons, unitsLe, unitsLe, ih,
        List.take_succ_cons]

theorem unitsLe_drop (bytes : List UInt8) (count : ℕ) :
    unitsLe (bytes.drop (2 * count)) = (unitsLe bytes).drop count := by
  induction count generalizing bytes with
  | zero => rfl
  | succ count ih =>
    match bytes with
    | [] => simp [unitsLe]
    | [_] => simp [unitsLe, Nat.mul_succ]
    | low :: high :: rest =>
      rw [Nat.mul_succ, List.drop_succ_cons, List.drop_succ_cons, ih, unitsLe, List.drop_succ_cons]

namespace ScmResponse

section

variable {response : ScmResponse} {address pointer : ℕ} {units entry : List UInt16}

theorem length_unitsFrom (haddress : response.start ≤ address) :
    (response.unitsFrom address).length = (response.endAddress - address) / 2 := by
  unfold unitsFrom endAddress
  rw [length_unitsLe, List.length_drop]
  congr 1
  omega

theorem unitsFrom_add (haddress : response.start ≤ address) (count : ℕ) :
    response.unitsFrom (address + 2 * count) = (response.unitsFrom address).drop count := by
  unfold unitsFrom
  rw [← unitsLe_drop, List.drop_drop]
  congr 2
  omega

/-- The block holds what its units from the address start with. -/
theorem holds_iff : response.Holds address units ↔
    response.start ≤ address ∧ address + 2 * units.length ≤ response.endAddress ∧
      units <+: response.unitsFrom address := by
  unfold Holds unitsAt
  rw [Option.ite_none_right_eq_some, and_assoc, unitsLe_take, Option.some.injEq]
  constructor
  · rintro ⟨hstart, hend, hunits⟩
    exact ⟨hstart, hend, hunits ▸ List.take_prefix _ _⟩
  · rintro ⟨hstart, hend, hunits⟩
    exact ⟨hstart, hend, (List.prefix_iff_eq_take.1 hunits).symm⟩

theorem unitsAt_available (hstart : response.start ≤ address)
    (hend : address < response.endAddress) :
    response.unitsAt address ((response.endAddress - address) / 2) =
      some (response.unitsFrom address) := by
  unfold unitsAt
  rw [if_pos ⟨hstart, by omega⟩, unitsLe_take, ← length_unitsFrom hstart]
  exact congrArg some (List.take_length)

theorem Holds.left {more : List UInt16} (h : response.Holds address (units ++ more)) :
    response.Holds address units := by
  obtain ⟨hstart, hend, hunits⟩ := holds_iff.1 h
  rw [List.length_append] at hend
  exact holds_iff.2 ⟨hstart, by omega, (List.prefix_append _ _).trans hunits⟩

theorem holds_append {more : List UInt16} : response.Holds address (units ++ more) ↔
    response.Holds address units ∧ response.Holds (address + 2 * units.length) more := by
  constructor
  · intro h
    refine ⟨h.left, ?_⟩
    obtain ⟨hstart, hend, rest, hunits⟩ := holds_iff.1 h
    rw [List.length_append] at hend
    refine holds_iff.2 ⟨by omega, by omega, rest, ?_⟩
    rw [unitsFrom_add hstart, ← hunits, List.append_assoc, List.drop_left]
  · rintro ⟨h, hmore⟩
    obtain ⟨hstart, -, rest, hunits⟩ := holds_iff.1 h
    obtain ⟨-, hend, rest', hmore⟩ := holds_iff.1 hmore
    refine holds_iff.2 ⟨hstart, ?_, rest', ?_⟩
    · rw [List.length_append]
      omega
    · rw [unitsFrom_add hstart, ← hunits, List.drop_left] at hmore
      rw [List.append_assoc, hmore, hunits]

/-! ## Single strings -/

theorem findIdx?_eq_some_zero {length : ℕ} (h : units.findIdx? (· == 0) = some length) :
    units.take length ++ [0] <+: units ∧ 0 ∉ units.take length := by
  obtain ⟨hlength, hzero, hbefore⟩ := List.findIdx?_eq_some_iff_getElem.1 h
  constructor
  · refine ⟨units.drop (length + 1), ?_⟩
    have hunit : units[length] = 0 := by simpa using hzero
    rw [List.append_assoc, List.singleton_append, ← hunit, ← List.drop_eq_getElem_cons hlength,
      List.take_append_drop]
  · intro hmem
    obtain ⟨i, hi, hunit⟩ := List.mem_iff_getElem.1 hmem
    rw [List.length_take] at hi
    rw [List.getElem_take] at hunit
    exact hbefore i (by omega) (by simpa using hunit)

theorem findIdx?_append_zero (h : 0 ∉ entry) (rest : List UInt16) :
    (entry ++ [0] ++ rest).findIdx? (· == 0) = some entry.length := by
  have hnone : entry.findIdx? (· == 0) = none := by
    rw [List.findIdx?_eq_none_iff]
    rintro unit hunit
    exact beq_eq_false_iff_ne.2 fun hzero => h (hzero ▸ hunit)
  rw [List.append_assoc, List.findIdx?_append, hnone]
  simp [List.findIdx?_cons]

theorem wideUnits_inside (hpointer : pointer ≠ 0) (hstart : response.start ≤ pointer)
    (hend : pointer < response.endAddress) (heven : 2 ∣ pointer) :
    response.wideUnits pointer =
      match (response.unitsFrom pointer).findIdx? (· == 0) with
      | none => .invalidData "UTF-16 string is not terminated inside the SCM response"
      | some length => .done (some ((response.unitsFrom pointer).take length)) := by
  unfold wideUnits
  rw [if_neg hpointer, if_neg (by omega), if_neg (not_not.2 heven)]
  simp only [unitsAt_available hstart hend]

theorem wideUnits_refused (hpointer : pointer ≠ 0)
    (h : ¬(response.start ≤ pointer ∧ pointer < response.endAddress ∧ 2 ∣ pointer)) :
    ∃ message, response.wideUnits pointer = .invalidData message := by
  unfold wideUnits
  rw [if_neg hpointer]
  by_cases houtside : pointer < response.start ∨ response.endAddress ≤ pointer
  · exact ⟨_, if_pos houtside⟩
  · rw [if_neg houtside]
    exact ⟨_, if_pos fun heven => h ⟨by omega, by omega, heven⟩⟩

/-- A pointer is read, or it is refused. -/
theorem wideUnits_cases (response : ScmResponse) (hpointer : pointer ≠ 0) :
    (∃ message, response.wideUnits pointer = .invalidData message) ∨
      ∃ entry, response.wideUnits pointer = .done (some entry) := by
  by_cases hinside : response.start ≤ pointer ∧ pointer < response.endAddress ∧ 2 ∣ pointer
  · rw [wideUnits_inside hpointer hinside.1 hinside.2.1 hinside.2.2]
    cases (response.unitsFrom pointer).findIdx? (· == 0) with
    | none => exact Or.inl ⟨_, rfl⟩
    | some length => exact Or.inr ⟨_, rfl⟩
  · exact Or.inl (wideUnits_refused hpointer hinside)

/-- What is read at a pointer is what the block holds there up to the first zero. -/
theorem wideUnits_eq_done (hpointer : pointer ≠ 0) :
    response.wideUnits pointer = .done (some entry) ↔
      2 ∣ pointer ∧ 0 ∉ entry ∧ response.Holds pointer (entry ++ [0]) := by
  by_cases hinside : response.start ≤ pointer ∧ pointer < response.endAddress ∧ 2 ∣ pointer
  · rw [wideUnits_inside hpointer hinside.1 hinside.2.1 hinside.2.2]
    constructor
    · intro h
      cases hfound : (response.unitsFrom pointer).findIdx? (· == 0) with
      | none =>
        rw [hfound] at h
        cases h
      | some length =>
        rw [hfound] at h
        simp only [Reading.done.injEq, Option.some.injEq] at h
        obtain ⟨hnonzero, hzero⟩ := findIdx?_eq_some_zero hfound
        rw [h] at hnonzero hzero
        refine ⟨hinside.2.2, hzero, holds_iff.2 ⟨hinside.1, ?_, hnonzero⟩⟩
        have hlength := hnonzero.length_le
        rw [length_unitsFrom hinside.1] at hlength
        omega
    · rintro ⟨-, hzero, hholds⟩
      obtain ⟨-, -, rest, hunits⟩ := holds_iff.1 hholds
      rw [← hunits, findIdx?_append_zero hzero]
      simp only [List.append_assoc, List.take_left]
  · obtain ⟨message, hrefused⟩ := wideUnits_refused hpointer hinside
    rw [hrefused]
    refine ⟨nofun, ?_⟩
    rintro ⟨heven, -, hholds⟩
    obtain ⟨hstart, hend, -⟩ := holds_iff.1 hholds
    rw [List.length_append, List.length_singleton] at hend
    exact absurd ⟨hstart, by omega, heven⟩ hinside

/-! ## Blocks of strings -/

/-- The units of strings that end in a zero each, with a zero after the last. -/
def blockOf (entries : List (List UInt16)) : List UInt16 :=
  entries.flatMap (· ++ [0]) ++ [0]

def AreEntries (entries : List (List UInt16)) : Prop := ∀ entry ∈ entries, entry ≠ [] ∧ 0 ∉ entry

variable {entries found : List (List UInt16)} {maxEntries fuel : ℕ}

theorem blockOf_cons (entry : List UInt16) (entries : List (List UInt16)) :
    blockOf (entry :: entries) = entry ++ [0] ++ blockOf entries := by
  unfold blockOf
  rw [List.flatMap_cons, List.append_assoc]

theorem length_blockOf (h : AreEntries entries) : 2 * entries.length + 1 ≤ (blockOf entries).length := by
  induction entries with
  | nil => exact le_refl _
  | cons entry entries ih =>
    have hentry : 0 < entry.length := List.length_pos_iff.2 (h entry List.mem_cons_self).1
    have hrest := ih fun other hother => h other (List.mem_cons_of_mem _ hother)
    rw [blockOf_cons, List.length_append, List.length_append, List.length_cons,
      List.length_singleton]
    omega

/-- A round of the loop: it fails, it ends with the strings so far, or it takes one more. -/
theorem multiUnitsFrom_succ (hpointer : pointer ≠ 0) (fuel : ℕ) (found : List (List UInt16)) :
    (∃ message, response.multiUnitsFrom maxEntries (fuel + 1) pointer found =
      .invalidData message) ∨
    (response.multiUnitsFrom maxEntries (fuel + 1) pointer found = .done found ∧
      2 ∣ pointer ∧ response.Holds pointer [0]) ∨
    ∃ entry, response.multiUnitsFrom maxEntries (fuel + 1) pointer found =
        response.multiUnitsFrom maxEntries fuel (pointer + 2 * (entry.length + 1))
          (found ++ [entry]) ∧
      2 ∣ pointer ∧ entry ≠ [] ∧ 0 ∉ entry ∧ found.length < maxEntries ∧
      response.Holds pointer (entry ++ [0]) := by
  rw [multiUnitsFrom]
  by_cases hend : response.endAddress ≤ pointer
  · exact Or.inl ⟨_, if_pos hend⟩
  rw [if_neg hend]
  rcases wideUnits_cases response hpointer with ⟨message, hread⟩ | ⟨entry, hread⟩
  · rw [hread]
    exact Or.inl ⟨message, rfl⟩
  obtain ⟨heven, hzero, hholds⟩ := (wideUnits_eq_done hpointer).1 hread
  rw [hread]
  by_cases hempty : entry = []
  · subst hempty
    exact Or.inr (Or.inl ⟨rfl, heven, hholds⟩)
  · have hsome : ¬entry.isEmpty = true := by simpa using hempty
    simp only [if_neg hsome]
    by_cases hmany : maxEntries ≤ found.length
    · exact Or.inl ⟨_, if_pos hmany⟩
    · rw [if_neg hmany]
      exact Or.inr (Or.inr ⟨entry, rfl, heven, hempty, hzero, not_le.1 hmany, hholds⟩)

/-- What the loop returns is what the block holds from the pointer on. -/
theorem holds_of_multiUnitsFrom (hpointer : pointer ≠ 0) (hfound : found.length ≤ maxEntries)
    {result : List (List UInt16)}
    (h : response.multiUnitsFrom maxEntries fuel pointer found = .done result) :
    ∃ entries, result = found ++ entries ∧ AreEntries entries ∧ result.length ≤ maxEntries ∧
      2 ∣ pointer ∧ response.Holds pointer (blockOf entries) := by
  induction fuel generalizing pointer found with
  | zero => cases h
  | succ fuel ih =>
    rcases multiUnitsFrom_succ hpointer fuel found with
      ⟨message, hround⟩ | ⟨hround, heven, hholds⟩ |
        ⟨entry, hround, heven, hempty, hzero, hroom, hholds⟩
    · rw [hround] at h
      cases h
    · rw [hround] at h
      obtain rfl := Reading.done.inj h
      exact ⟨[], (List.append_nil _).symm, nofun, hfound, heven, hholds⟩
    · rw [hround] at h
      have hmore : (found ++ [entry]).length ≤ maxEntries := by
        rw [List.length_append, List.length_singleton]
        omega
      obtain ⟨entries, rfl, hentries, hresult, -, hrest⟩ := ih (by omega) hmore h
      refine ⟨entry :: entries, by simp, ?_, hresult, heven, ?_⟩
      · rintro other hother
        rcases List.mem_cons.1 hother with rfl | hother
        · exact ⟨hempty, hzero⟩
        · exact hentries other hother
      · rw [blockOf_cons]
        refine holds_append.2 ⟨hholds, ?_⟩
        rwa [List.length_append, List.length_singleton]

/-- What the block holds from the pointer on is what the loop returns. -/
theorem multiUnitsFrom_of_holds (hpointer : pointer ≠ 0) (hentries : AreEntries entries)
    (hroom : found.length + entries.length ≤ maxEntries) (heven : 2 ∣ pointer)
    (hholds : response.Holds pointer (blockOf entries)) (hfuel : entries.length < fuel) :
    response.multiUnitsFrom maxEntries fuel pointer found = .done (found ++ entries) := by
  induction entries generalizing pointer found fuel with
  | nil =>
    obtain ⟨fuel, rfl⟩ : ∃ rest, fuel = rest + 1 := ⟨fuel - 1, by omega⟩
    have hread : response.wideUnits pointer = .done (some []) :=
      (wideUnits_eq_done hpointer).2 ⟨heven, nofun, hholds⟩
    obtain ⟨-, hend, -⟩ := holds_iff.1 hholds
    have hinside : ¬response.endAddress ≤ pointer := by
      have hone : (blockOf []).length = 1 := rfl
      omega
    rw [multiUnitsFrom, if_neg hinside, hread, List.append_nil]
    rfl
  | cons entry entries ih =>
    obtain ⟨fuel, rfl⟩ : ∃ rest, fuel = rest + 1 := ⟨fuel - 1, by omega⟩
    obtain ⟨hempty, hzero⟩ := hentries entry List.mem_cons_self
    rw [blockOf_cons] at hholds
    obtain ⟨hentry, hrest⟩ := holds_append.1 hholds
    have hread : response.wideUnits pointer = .done (some entry) :=
      (wideUnits_eq_done hpointer).2 ⟨heven, hzero, hentry⟩
    obtain ⟨-, hend, -⟩ := holds_iff.1 hentry
    rw [List.length_append, List.length_singleton] at hend hrest
    rw [List.length_cons] at hroom hfuel
    have hsome : ¬entry.isEmpty = true := by simpa using hempty
    have hmore : (found ++ [entry]).length + entries.length ≤ maxEntries := by
      rw [List.length_append, List.length_singleton]
      omega
    rw [multiUnitsFrom, if_neg (by omega), hread]
    simp only [if_neg hsome]
    rw [if_neg (by omega), ih (by omega) (fun other h => hentries other (List.mem_cons_of_mem _ h))
      hmore (by omega) hrest (by omega), List.append_assoc, List.singleton_append]

/-- With a round for every four bytes that are left, the loop ends. -/
theorem multiUnitsFrom_ends (hpointer : pointer ≠ 0)
    (hfuel : (response.endAddress - pointer) / 4 < fuel) :
    (∃ message, response.multiUnitsFrom maxEntries fuel pointer found = .invalidData message) ∨
      ∃ result, response.multiUnitsFrom maxEntries fuel pointer found = .done result := by
  induction fuel generalizing pointer found with
  | zero => exact absurd hfuel (Nat.not_lt_zero _)
  | succ fuel ih =>
    rcases @multiUnitsFrom_succ response pointer maxEntries hpointer fuel found with
      ⟨message, hround⟩ | ⟨hround, -⟩ | ⟨entry, hround, -, hempty, -, -, hholds⟩
    · exact Or.inl ⟨message, hround⟩
    · exact Or.inr ⟨found, hround⟩
    · have hentry : 0 < entry.length := List.length_pos_iff.2 hempty
      obtain ⟨-, hend, -⟩ := holds_iff.1 hholds
      rw [List.length_append, List.length_singleton] at hend
      rw [hround]
      exact ih (by omega) (by omega)

/-- With enough rounds the loop returns exactly the strings that the block holds. -/
theorem multiUnits_eq_done (hpointer : pointer ≠ 0) (hfuel : response.bytes.length / 4 < fuel) :
    response.multiUnits fuel pointer maxEntries = .done entries ↔
      AreEntries entries ∧ entries.length ≤ maxEntries ∧ 2 ∣ pointer ∧
        response.Holds pointer (blockOf entries) := by
  unfold multiUnits
  rw [if_neg hpointer]
  constructor
  · intro h
    obtain ⟨found, rfl, hentries, hroom, heven, hholds⟩ :=
      holds_of_multiUnitsFrom hpointer (Nat.zero_le _) h
    exact ⟨hentries, hroom, heven, hholds⟩
  · rintro ⟨hentries, hroom, heven, hholds⟩
    have hlength := length_blockOf hentries
    obtain ⟨hstart, hend, -⟩ := holds_iff.1 hholds
    unfold endAddress at hend
    refine multiUnitsFrom_of_holds hpointer hentries ?_ heven hholds (by omega)
    rw [List.length_nil, Nat.zero_add]
    exact hroom

theorem multiUnits_ends (response : ScmResponse) {fuel : ℕ}
    (hfuel : response.bytes.length / 4 < fuel) (pointer maxEntries : ℕ) :
    (∃ message, response.multiUnits fuel pointer maxEntries = .invalidData message) ∨
      ∃ entries, response.multiUnits fuel pointer maxEntries = .done entries := by
  unfold multiUnits
  by_cases hpointer : pointer = 0
  · exact Or.inr ⟨[], if_pos hpointer⟩
  rw [if_neg hpointer]
  by_cases hstart : pointer < response.start
  · obtain ⟨fuel, rfl⟩ : ∃ rest, fuel = rest + 1 := ⟨fuel - 1, by omega⟩
    obtain ⟨message, hrefused⟩ :=
      @wideUnits_refused response _ hpointer fun hinside => absurd hinside.1 (not_le.2 hstart)
    have hinside : ¬response.endAddress ≤ pointer := by
      unfold endAddress
      omega
    refine Or.inl ⟨message, ?_⟩
    rw [multiUnitsFrom, if_neg hinside, hrefused]
  · refine multiUnitsFrom_ends hpointer ?_
    have hwithin : response.endAddress - pointer ≤ response.bytes.length := by
      unfold endAddress
      omega
    exact lt_of_le_of_lt (Nat.div_le_div_right hwithin) hfuel

/-! ## Strings -/

theorem zero_mem_encodeUtf16Char {c : Char} (h : 0 ∈ encodeUtf16Char c) : c = '\x00' := by
  have hvalid : c.toNat < 0xD800 ∨ (0xDFFF < c.toNat ∧ c.toNat < 0x110000) := c.valid
  unfold encodeUtf16Char at h
  split_ifs at h with hplain
  · have hunit := congrArg UInt16.toNat (List.mem_singleton.1 h)
    rw [UInt16.toNat_ofNat', Nat.mod_eq_of_lt hplain] at hunit
    exact Char.toNat_inj.1 hunit.symm
  · rcases List.mem_pair.1 h with hhigh | hlow
    · have hunit := congrArg UInt16.toNat hhigh
      rw [UInt16.toNat_ofNat', Nat.mod_eq_of_lt (by omega)] at hunit
      have hzero : (0 : UInt16).toNat = 0 := rfl
      omega
    · have hunit := congrArg UInt16.toNat hlow
      rw [UInt16.toNat_ofNat', Nat.mod_eq_of_lt (by omega)] at hunit
      have hzero : (0 : UInt16).toNat = 0 := rfl
      omega

theorem areEntries_encodeUtf16 {values : List (List Char)}
    (h : ∀ value ∈ values, value ≠ [] ∧ '\x00' ∉ value) : AreEntries (values.map encodeUtf16) := by
  rintro entry hentry
  obtain ⟨value, hvalue, rfl⟩ := List.mem_map.1 hentry
  obtain ⟨hempty, hnul⟩ := h value hvalue
  constructor
  · intro hnil
    have hback := Profile.decodeUtf16_encodeUtf16 value
    rw [hnil] at hback
    exact hempty (Option.some.inj hback).symm
  · intro hzero
    obtain ⟨c, hc, hunit⟩ := List.mem_flatMap.1 hzero
    exact hnul (zero_mem_encodeUtf16Char hunit ▸ hc)

theorem decodeUtf16Lossy_eq {text : List Char} (h : decodeUtf16 units = some text) :
    Relay.decodeUtf16Lossy units = text := by
  fun_induction decodeUtf16 units generalizing text with
  | case1 =>
    obtain rfl := Option.some.inj h
    rfl
  | case2 unit rest hplain ih =>
    obtain ⟨more, hmore, rfl⟩ := Option.map_eq_some_iff.1 h
    rw [Relay.decodeUtf16Lossy.eq_def]
    simp only [hplain, if_true, ih hmore]
  | case3 unit rest hplain hlow => cases h
  | case4 unit hplain hhigh low rest hlow ih =>
    obtain ⟨more, hmore, rfl⟩ := Option.map_eq_some_iff.1 h
    rw [Relay.decodeUtf16Lossy.eq_def]
    simp only [hplain, hhigh, hlow, if_true, ih hmore]
    rfl
  | case5 unit hplain hhigh low rest hlow => cases h
  | case6 unit hplain hhigh => cases h

theorem length_flatMap_unitToLeBytes (units : List UInt16) :
    (units.flatMap unitToLeBytes).length = 2 * units.length := by
  induction units with
  | nil => rfl
  | cons unit units ih =>
    rw [List.flatMap_cons, List.length_append, ih, List.length_cons]
    have htwo : (unitToLeBytes unit).length = 2 := rfl
    omega

theorem holds_of_bytes {before after : List UInt8}
    (hbytes : response.bytes = before ++ (units.flatMap unitToLeBytes ++ after)) :
    response.Holds (response.start + before.length) units := by
  have hlength := length_flatMap_unitToLeBytes units
  have hinside : response.start + before.length + 2 * units.length ≤ response.endAddress := by
    unfold endAddress
    rw [hbytes, List.length_append, List.length_append, hlength]
    omega
  unfold Holds unitsAt
  rw [if_pos ⟨Nat.le_add_right _ _, hinside⟩, Nat.add_sub_cancel_left, hbytes, List.drop_left,
    List.take_left' hlength, Profile.unitsLe_flatMap]

/-- A multi-string starts with the block of its strings. -/
theorem blockOf_prefix_multiString (values : List (List Char)) :
    blockOf (values.map encodeUtf16) <+: multiString values := by
  cases values with
  | nil => exact ⟨[0], rfl⟩
  | cons value values =>
    unfold blockOf multiString
    rw [List.flatMap_map]
    exact List.prefix_rfl

theorem mapM_decodeUtf16 (values : List (List Char)) :
    (values.map encodeUtf16).mapM decodeUtf16 = some values := by
  induction values with
  | nil => rfl
  | cons value values ih =>
    rw [List.map_cons, List.mapM_cons, Profile.decodeUtf16_encodeUtf16, ih]
    rfl

/-- Strings without a zero are read back from their multi-string, wherever in the block it is. -/
theorem strings_of_multiString {before after : List UInt8} {values : List (List Char)}
    (hbytes : response.bytes =
      before ++ ((multiString values).flatMap unitToLeBytes ++ after))
    (heven : 2 ∣ before.length) (hvalues : ∀ value ∈ values, value ≠ [] ∧ '\x00' ∉ value)
    (hroom : values.length ≤ maxEntries) (hfuel : response.bytes.length / 4 < fuel) :
    response.requiredStrings fuel (response.start + before.length) maxEntries = .done values ∧
      response.dependencyStrings fuel (response.start + before.length) maxEntries =
        .done values := by
  have hstart := response.start_pos
  have haligned := response.aligned
  obtain ⟨more, hmore⟩ := blockOf_prefix_multiString values
  have hholds : response.Holds (response.start + before.length)
      (blockOf (values.map encodeUtf16)) := by
    have hwhole := holds_of_bytes hbytes
    rw [← hmore] at hwhole
    exact hwhole.left
  have hread : response.multiUnits fuel (response.start + before.length) maxEntries =
      .done (values.map encodeUtf16) := by
    refine (multiUnits_eq_done (by omega) hfuel).2
      ⟨areEntries_encodeUtf16 hvalues, ?_, by omega, hholds⟩
    rw [List.length_map]
    exact hroom
  have hlossy : (values.map encodeUtf16).map Relay.decodeUtf16Lossy = values := by
    rw [List.map_map]
    exact List.map_id'' (fun value => decodeUtf16Lossy_eq (Profile.decodeUtf16_encodeUtf16 value)) _
  constructor
  · unfold requiredStrings
    rw [hread]
    simp only [mapM_decodeUtf16]
  · unfold dependencyStrings
    rw [hread]
    simp only [hlossy]

/-- The readers of a response end with an error or with the units that the block holds from the
pointer to the first terminator, and they read back the multi-strings that are built. -/
theorem response_decoded (response : ScmResponse) :
    (∀ pointer, (∃ message, response.wideUnits pointer = .invalidData message) ∨
      ∃ value, response.wideUnits pointer = .done value) ∧
    (∀ pointer, response.wideUnits pointer = .done none ↔ pointer = 0) ∧
    (∀ pointer entry, response.wideUnits pointer = .done (some entry) ↔ pointer ≠ 0 ∧ 2 ∣ pointer ∧
      0 ∉ entry ∧ response.Holds pointer (entry ++ [0])) ∧
    (∀ fuel > response.bytes.length / 4, ∀ pointer maxEntries,
      ((∃ message, response.multiUnits fuel pointer maxEntries = .invalidData message) ∨
        ∃ entries, response.multiUnits fuel pointer maxEntries = .done entries) ∧
      ∀ entries, response.multiUnits fuel pointer maxEntries = .done entries ↔
        (pointer = 0 ∧ entries = []) ∨
        (pointer ≠ 0 ∧ AreEntries entries ∧ entries.length ≤ maxEntries ∧ 2 ∣ pointer ∧
          response.Holds pointer (blockOf entries))) ∧
    ∀ before values after, response.bytes =
        before ++ ((multiString values).flatMap unitToLeBytes ++ after) → 2 ∣ before.length →
      (∀ value ∈ values, value ≠ [] ∧ '\x00' ∉ value) →
      ∀ maxEntries ≥ values.length, ∀ fuel > response.bytes.length / 4,
        response.requiredStrings fuel (response.start + before.length) maxEntries = .done values ∧
        response.dependencyStrings fuel (response.start + before.length) maxEntries =
          .done values := by
  have hnull : response.wideUnits 0 = .done none := if_pos rfl
  refine ⟨fun pointer => ?_, fun pointer => ?_, fun pointer entry => ?_,
    fun fuel hfuel pointer maxEntries => ⟨multiUnits_ends response hfuel pointer maxEntries, ?_⟩,
    fun before values after hbytes heven hvalues maxEntries hroom fuel hfuel =>
      strings_of_multiString hbytes heven hvalues hroom hfuel⟩
  · by_cases hpointer : pointer = 0
    · exact Or.inr ⟨none, hpointer ▸ hnull⟩
    · rcases wideUnits_cases response hpointer with hrefused | ⟨entry, hread⟩
      · exact Or.inl hrefused
      · exact Or.inr ⟨some entry, hread⟩
  · constructor
    · intro hread
      by_contra hpointer
      rcases wideUnits_cases response hpointer with ⟨message, h⟩ | ⟨entry, h⟩
      · rw [h] at hread
        cases hread
      · rw [h] at hread
        cases hread
    · rintro rfl
      exact hnull
  · by_cases hpointer : pointer = 0
    · rw [hpointer, hnull]
      exact ⟨nofun, fun h => absurd rfl h.1⟩
    · rw [wideUnits_eq_done hpointer]
      exact (and_iff_right hpointer).symm
  · intro entries
    by_cases hpointer : pointer = 0
    · have hempty : response.multiUnits fuel pointer maxEntries = .done [] := if_pos hpointer
      rw [hempty, Reading.done.injEq, eq_comm]
      constructor
      · exact fun h => Or.inl ⟨hpointer, h⟩
      · rintro (⟨-, h⟩ | ⟨h, -⟩)
        · exact h
        · exact absurd hpointer h
    · rw [multiUnits_eq_done hpointer hfuel]
      constructor
      · exact fun h => Or.inr ⟨hpointer, h⟩
      · rintro (⟨h, -⟩ | ⟨-, h⟩)
        · exact absurd h hpointer
        · exact h

end

end ScmResponse

end MacTypeControl.Platform
