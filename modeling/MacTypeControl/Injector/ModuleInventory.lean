import Mathlib.Algebra.GroupWithZero.Nat
import Mathlib.Data.List.Basic
import Mathlib.Tactic.Common

/-!
# The modules of a target

The injection helper lists the modules of its target and compares their paths with the one of the
fixed module. Paths are normalized lexically, and letters are compared without their case.
-/

namespace MacTypeControl.Injector

/-- The code units of wide text. -/
abbrev WideText := List UInt16

def wide (text : String) : WideText := text.toList.map fun c => UInt16.ofNat c.toNat

/-! ## Comparing without case -/

def towlower (unit : UInt16) : UInt16 := if 0x41 ≤ unit ∧ unit ≤ 0x5A then unit + 0x20 else unit

/-- Whether two texts are the same but for the case of their ASCII letters. -/
def wcsicmp (left right : WideText) : Bool := left.map towlower == right.map towlower

def startsWithCaseInsensitive (text lead : WideText) : Bool :=
  lead.length ≤ text.length && wcsicmp (text.take lead.length) lead

/-! ## Paths -/

def isSlash (unit : UInt16) : Bool := unit == 0x5C || unit == 0x2F

def isDriveLetter (unit : UInt16) : Bool :=
  (0x41 ≤ unit && unit ≤ 0x5A) || (0x61 ≤ unit && unit ≤ 0x7A)

def hasDriveLetter : WideText → Bool
  | letter :: colon :: _ => isDriveLetter letter && colon == 0x3A
  | _ => false

/-- The length of the root name: a drive, a device namespace, or a server. -/
def rootNameLength (path : WideText) : ℕ :=
  if hasDriveLetter path then 2
  else match path with
    | first :: second :: third :: rest =>
      if !isSlash first then 0
      else if (rest.head?.any isSlash && !(rest.tail.head?.any isSlash)) &&
          ((isSlash second && (third == 0x3F || third == 0x2E)) ||
            (second == 0x3F && third == 0x3F)) then 3
      else if isSlash second && !isSlash third then
        2 + (third :: rest).findIdx isSlash
      else 0
    | _ => 0

/-- A drive needs a root directory, any other root name is absolute by itself. -/
def isAbsolute (path : WideText) : Bool :=
  if hasDriveLetter path then (path.drop 2).head?.any isSlash else rootNameLength path != 0

/-- A path by its parts. -/
structure LexicalPath where
  rootName : WideText
  rootDirectory : Bool
  filenames : List WideText
  /-- Whether the last separator stands after the last file name. -/
  trailingSeparator : Bool

def separator : UInt16 := 0x5C

def dot : WideText := [0x2E]

def dotDot : WideText := [0x2E, 0x2E]

/-- The filenames before the last one, in the order in which they are to be read back. -/
def normalFilenames (rooted : Bool) : List WideText → List WideText → List WideText
  | kept, [] => kept.reverse
  | kept, name :: rest =>
    if name = dot then normalFilenames rooted kept rest
    else if name = dotDot then
      match kept with
      | [] => if rooted then normalFilenames rooted [] rest
        else normalFilenames rooted [dotDot] rest
      | last :: before =>
        if last = dotDot then normalFilenames rooted (dotDot :: kept) rest
        else normalFilenames rooted before rest
    else normalFilenames rooted (name :: kept) rest

/-- The normal form of a path: no dots, no names that are gone up from again, no dot-dots at the
root, and one separator at a time. -/
def lexicallyNormal (path : WideText) : LexicalPath :=
  let length := rootNameLength path
  let rootName := (path.take length).map fun unit => if isSlash unit then separator else unit
  let relative := path.drop length
  let rooted := relative.head?.any isSlash
  let pieces := relative.splitOnP isSlash
  let names := pieces.filter (· ≠ [])
  let last := pieces.getLast?.getD []
  let filenames := normalFilenames rooted [] names
  { rootName
    rootDirectory := rooted
    filenames
    trailingSeparator := filenames != [] && filenames.getLast? != some dotDot &&
      (last == [] || last == dot || last == dotDot) }

namespace LexicalPath

def native (path : LexicalPath) : WideText :=
  path.rootName ++ (if path.rootDirectory then [separator] else []) ++
    [separator].intercalate path.filenames ++ (if path.trailingSeparator then [separator] else [])

/-- The last file name; there is none after a separator. -/
def filename (path : LexicalPath) : WideText :=
  if path.trailingSeparator then [] else path.filenames.getLast?.getD []

end LexicalPath

def verbatimUnc : WideText := wide "\\\\?\\UNC\\"

def deviceUnc : WideText := wide "\\??\\UNC\\"

def verbatim : WideText := wide "\\\\?\\"

def device : WideText := wide "\\??\\"

/-- The path without the two spellings of the device namespace. -/
def withoutNamespace (input : WideText) : WideText :=
  if startsWithCaseInsensitive input verbatimUnc || startsWithCaseInsensitive input deviceUnc then
    wide "\\\\" ++ input.drop 8
  else if startsWithCaseInsensitive input verbatim || startsWithCaseInsensitive input device then
    input.drop 4
  else input

def normalizedModulePath (input : WideText) : Option LexicalPath :=
  if input = [] ∨ 0 ∈ input then none
  else
    let path := withoutNamespace input
    if isAbsolute path then some (lexicallyNormal path) else none

/-! ## The state of the fixed module -/

inductive FixedModuleState where
  | absent
  | expectedModuleLoaded
  | sameBasenameDifferentPath
  | inventoryUnavailable
  deriving DecidableEq

/-- What one listing of the modules has answered. A path that could not be read is absent. -/
abbrev ModuleListing := Option (List (Option WideText))

/-- The modules that have been looked at. -/
structure ModulesSeen where
  expectedModuleLoaded : Bool
  conflictingModuleLoaded : Bool

def lookAtModule (expected : LexicalPath) (seen : ModulesSeen) (path : Option WideText) :
    Option ModulesSeen := do
  let current ← normalizedModulePath (← path)
  if !wcsicmp current.filename expected.filename then some seen
  else if wcsicmp current.native expected.native then
    some { seen with expectedModuleLoaded := true }
  else some { seen with conflictingModuleLoaded := true }

def lookAtModules (expected : LexicalPath) (seen : ModulesSeen) :
    List (Option WideText) → Option ModulesSeen
  | [] => some seen
  | path :: rest => do
    let seen ← lookAtModule expected seen path
    lookAtModules expected seen rest

def stateOfModules (seen : ModulesSeen) : FixedModuleState :=
  if seen.conflictingModuleLoaded then .sameBasenameDifferentPath
  else if seen.expectedModuleLoaded then .expectedModuleLoaded
  else .absent

def fixedModuleStateOnce (expectedPath : WideText) (listing : ModuleListing) :
    FixedModuleState :=
  match normalizedModulePath expectedPath with
  | none => .inventoryUnavailable
  | some expected => match listing with
    | none => .inventoryUnavailable
    | some modules =>
      if expected.filename = [] then .inventoryUnavailable
      else match lookAtModules expected ⟨false, false⟩ modules with
        | none => .inventoryUnavailable
        | some seen => stateOfModules seen

/-- The module is the expected one. -/
def isExpected (expected current : LexicalPath) : Bool :=
  wcsicmp current.filename expected.filename && wcsicmp current.native expected.native

/-- Another module has the name of the expected one. -/
def isConflicting (expected current : LexicalPath) : Bool :=
  wcsicmp current.filename expected.filename && !wcsicmp current.native expected.native

/-- The normal forms of the paths of a listing. -/
def NormalForms (modules : List (Option WideText)) (paths : List LexicalPath) : Prop :=
  List.Forall₂ (fun path normal => path.bind normalizedModulePath = some normal) modules paths

theorem lookAtModule_eq_some {expected : LexicalPath} {seen seen' : ModulesSeen}
    {path : Option WideText} :
    lookAtModule expected seen path = some seen' ↔
      ∃ current, path.bind normalizedModulePath = some current ∧
        seen' = ⟨seen.expectedModuleLoaded || isExpected expected current,
          seen.conflictingModuleLoaded || isConflicting expected current⟩ := by
  have hbind : lookAtModule expected seen path =
      (path.bind normalizedModulePath).map fun current =>
        (⟨seen.expectedModuleLoaded || isExpected expected current,
          seen.conflictingModuleLoaded || isConflicting expected current⟩ : ModulesSeen) := by
    unfold lookAtModule isExpected isConflicting
    cases path with
    | none => rfl
    | some path =>
      cases hcurrent : normalizedModulePath path with
      | none => simp [hcurrent]
      | some current =>
        simp only [Option.bind_eq_bind, Option.bind_some, hcurrent, Option.map_some]
        cases wcsicmp current.filename expected.filename <;>
          cases wcsicmp current.native expected.native <;> simp
  rw [hbind, Option.map_eq_some_iff]
  constructor
  · intro ⟨current, hcurrent, hseen⟩
    exact ⟨current, hcurrent, hseen.symm⟩
  · intro ⟨current, hcurrent, hseen⟩
    exact ⟨current, hcurrent, hseen.symm⟩

/-- All the modules are looked at, whatever the first ones are. -/
theorem lookAtModules_eq_some {expected : LexicalPath} {modules : List (Option WideText)} :
    ∀ {seen seen' : ModulesSeen}, lookAtModules expected seen modules = some seen' ↔
      ∃ paths, NormalForms modules paths ∧
        seen' = ⟨seen.expectedModuleLoaded || paths.any (isExpected expected),
          seen.conflictingModuleLoaded || paths.any (isConflicting expected)⟩ := by
  induction modules with
  | nil =>
    intro seen seen'
    constructor
    · intro h
      refine ⟨[], List.Forall₂.nil, ?_⟩
      simp only [lookAtModules, Option.some.injEq] at h
      simp [h]
    · intro ⟨paths, hpaths, hseen⟩
      cases hpaths
      simp [lookAtModules, hseen]
  | cons path rest ih =>
    intro seen seen'
    have hlook : lookAtModules expected seen (path :: rest) =
        (lookAtModule expected seen path).bind fun seen => lookAtModules expected seen rest := rfl
    rw [hlook, Option.bind_eq_some_iff]
    constructor
    · intro ⟨seen₁, hfirst, hrest⟩
      obtain ⟨current, hcurrent, rfl⟩ := lookAtModule_eq_some.1 hfirst
      obtain ⟨paths, hpaths, rfl⟩ := ih.1 hrest
      exact ⟨current :: paths, List.Forall₂.cons hcurrent hpaths, by simp [Bool.or_assoc]⟩
    · intro ⟨paths, hpaths, hseen⟩
      cases hpaths with
      | cons hcurrent hrest =>
        refine ⟨_, lookAtModule_eq_some.2 ⟨_, hcurrent, rfl⟩, ih.2 ⟨_, hrest, ?_⟩⟩
        simp [hseen, Bool.or_assoc]

/-- The decision is made on all the modules of the listing. -/
theorem expectedModuleLoaded_iff {expectedPath : WideText} {listing : ModuleListing} :
    fixedModuleStateOnce expectedPath listing = .expectedModuleLoaded ↔
      ∃ expected modules paths, normalizedModulePath expectedPath = some expected ∧
        listing = some modules ∧ expected.filename ≠ [] ∧ NormalForms modules paths ∧
        (∃ path ∈ paths, isExpected expected path = true) ∧
        ∀ path ∈ paths, isConflicting expected path = false := by
  constructor
  · intro h
    unfold fixedModuleStateOnce at h
    split at h
    · cases h
    next expected hexpected =>
    split at h
    · cases h
    next modules =>
    split at h
    · cases h
    next hfilename =>
    split at h
    · cases h
    next seen hseen =>
    obtain ⟨paths, hpaths, rfl⟩ := lookAtModules_eq_some.1 hseen
    simp only [stateOfModules, Bool.false_or] at h
    split at h
    · cases h
    next hconflict =>
    split at h
    case isFalse => cases h
    next hloaded =>
    refine ⟨expected, modules, paths, hexpected, rfl, hfilename, hpaths,
      List.any_eq_true.1 hloaded, ?_⟩
    intro path hpath
    by_contra hconflicting
    exact hconflict (List.any_eq_true.2 ⟨path, hpath, by simpa using hconflicting⟩)
  · intro ⟨expected, modules, paths, hexpected, hlisting, hfilename, hpaths, hloaded, hclear⟩
    have hseen : lookAtModules expected ⟨false, false⟩ modules = some ⟨true, false⟩ := by
      refine lookAtModules_eq_some.2 ⟨paths, hpaths, ?_⟩
      rw [List.any_eq_true.2 hloaded, List.any_eq_false.2 fun path hpath => by simp [hclear path hpath]]
      rfl
    unfold fixedModuleStateOnce
    rw [hexpected, hlisting]
    dsimp only
    rw [if_neg hfilename, hseen]
    rfl

/-- The expected module is loaded, and no other one of its name. -/
def OnlyExpected (expectedPath : WideText) (modules : List (Option WideText)) : Prop :=
  ∃ expected paths, normalizedModulePath expectedPath = some expected ∧
    NormalForms modules paths ∧ (∃ path ∈ paths, wcsicmp path.native expected.native = true) ∧
    ∀ path ∈ paths, wcsicmp path.filename expected.filename = true →
      wcsicmp path.native expected.native = true

theorem onlyExpected_of_state {expectedPath : WideText} {listing : ModuleListing}
    (h : fixedModuleStateOnce expectedPath listing = .expectedModuleLoaded) :
    ∃ modules, listing = some modules ∧ OnlyExpected expectedPath modules := by
  obtain ⟨expected, modules, paths, hexpected, hlisting, -, hpaths, ⟨path, hpath, hloaded⟩, hclear⟩ :=
    expectedModuleLoaded_iff.1 h
  refine ⟨modules, hlisting, expected, paths, hexpected, hpaths, ⟨path, hpath, ?_⟩, ?_⟩
  · exact (Bool.and_eq_true_iff.1 hloaded).2
  · intro other hother hname
    by_contra hdifferent
    have hconflicting : isConflicting expected other = true := by
      unfold isConflicting
      rw [hname, Bool.eq_false_iff.2 hdifferent]
      rfl
    rw [hclear other hother] at hconflicting
    cases hconflicting

end MacTypeControl.Injector
