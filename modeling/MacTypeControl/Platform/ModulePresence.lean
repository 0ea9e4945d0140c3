import MacTypeControl.Injector.ModuleInventory
import MacTypeControl.Platform.PathSpelling
import MacTypeControl.Text.Utf16
import Mathlib.Data.List.Forall2

/-!
# The probe of the service and the decision of the helper

The service looks for the module itself before it starts a helper, and stops at the first path that
is the module's. The helper looks at all of them.
-/

namespace MacTypeControl.Platform

open Injector Text

inductive ModulePresence where
  | loaded
  | absent
  | unknown
  deriving DecidableEq

/-- What the system answers about a process. -/
structure ProcessAnswers where
  opened : Bool
  creationTime : Option ℕ
  modules : Option (List WideText)

def presenceAmong (tables : CaseTables) (expected : List Char) :
    List (List Char) → Except Panic ModulePresence
  | [] => return .absent
  | path :: rest => do
    match ← normalizedModulePath tables path with
    | none => return .unknown
    | some normalized =>
      if normalized = expected then return .loaded else presenceAmong tables expected rest

/-- The paths that are text; a path that is not makes the list unreadable. -/
def textPaths : List WideText → Option (List (List Char))
  | [] => some []
  | path :: rest => do
    let path ← decodeUtf16 path
    let rest ← textPaths rest
    return path :: rest

def processModulePresence (tables : CaseTables) (process : ProcessAnswers) (creationTime : ℕ)
    (module : WideText) : Except Panic ModulePresence := do
  match decodeUtf16 module with
  | none => return .unknown
  | some module =>
    match ← normalizedModulePath tables module with
    | none => return .unknown
    | some expected =>
      if process.opened = false ∨ process.creationTime ≠ some creationTime then return .unknown
      else match process.modules.bind textPaths with
        | none => return .unknown
        | some paths => presenceAmong tables expected paths

/-! ## When the two answers agree -/

section

variable {tables : CaseTables} {expected : List Char} {paths : List (List Char)}

/-- The path can be compared, and it is another one. -/
def IsOther (tables : CaseTables) (expected path : List Char) : Prop :=
  ∃ normalized, normalizedModulePath tables path = .ok (some normalized) ∧ normalized ≠ expected

theorem presenceAmong_other {path : List Char} (h : IsOther tables expected path) :
    presenceAmong tables expected (path :: paths) = presenceAmong tables expected paths := by
  obtain ⟨normalized, hnormalized, hne⟩ := h
  show (normalizedModulePath tables path >>= _) = _
  rw [hnormalized]
  exact if_neg hne

/-- The look at the first path ends the search, unless the path is another one. -/
theorem presenceAmong_cons (path : List Char) : IsOther tables expected path ∨
    (normalizedModulePath tables path = .ok (some expected) ∧
      presenceAmong tables expected (path :: paths) = .ok .loaded) ∨
    (normalizedModulePath tables path ≠ .ok (some expected) ∧
      presenceAmong tables expected (path :: paths) ≠ .ok .loaded ∧
      presenceAmong tables expected (path :: paths) ≠ .ok .absent) := by
  have hstep : presenceAmong tables expected (path :: paths) =
      (normalizedModulePath tables path >>= fun normalized => match normalized with
        | none => pure .unknown
        | some normalized =>
          if normalized = expected then pure .loaded
          else presenceAmong tables expected paths) := rfl
  rw [hstep]
  cases hpath : normalizedModulePath tables path with
  | error panic =>
    right
    right
    exact ⟨nofun, nofun, nofun⟩
  | ok form =>
    cases form with
    | none =>
      right
      right
      exact ⟨nofun, nofun, nofun⟩
    | some normalized =>
      by_cases hsame : normalized = expected
      · right
        left
        exact ⟨by rw [hsame], if_pos hsame⟩
      · left
        exact ⟨normalized, hpath, hsame⟩

theorem presenceAmong_loaded_iff : presenceAmong tables expected paths = .ok .loaded ↔
    ∃ before path after, paths = before ++ path :: after ∧
      (∀ other ∈ before, IsOther tables expected other) ∧
      normalizedModulePath tables path = .ok (some expected) := by
  induction paths with
  | nil =>
    constructor
    · intro h
      cases h
    · rintro ⟨before, path, after, hpaths, _⟩
      simp at hpaths
  | cons first rest ih =>
    have hsame (hfirst : IsOther tables expected first) :
        normalizedModulePath tables first ≠ .ok (some expected) := by
      obtain ⟨normalized, hnormalized, hne⟩ := hfirst
      rw [hnormalized]
      intro h
      cases h
      exact hne rfl
    constructor
    · intro h
      rcases presenceAmong_cons first with hother | ⟨hfound, _⟩ | ⟨_, hloaded, _⟩
      · rw [presenceAmong_other hother, ih] at h
        obtain ⟨before, path, after, rfl, hbefore, hpath⟩ := h
        exact ⟨first :: before, path, after, rfl, List.forall_mem_cons.2 ⟨hother, hbefore⟩, hpath⟩
      · exact ⟨[], first, rest, rfl, by simp, hfound⟩
      · exact absurd h hloaded
    · rintro ⟨before, path, after, hpaths, hbefore, hpath⟩
      cases before with
      | nil =>
        simp only [List.nil_append, List.cons.injEq] at hpaths
        obtain ⟨rfl, rfl⟩ := hpaths
        rcases presenceAmong_cons first with hother | ⟨_, hloaded⟩ | ⟨hne, _⟩
        · exact absurd hpath (hsame hother)
        · exact hloaded
        · exact absurd hpath hne
      | cons other before =>
        simp only [List.cons_append, List.cons.injEq] at hpaths
        obtain ⟨rfl, hrest⟩ := hpaths
        rw [List.forall_mem_cons] at hbefore
        rw [presenceAmong_other hbefore.1, ih]
        exact ⟨before, path, after, hrest, hbefore.2, hpath⟩

theorem presenceAmong_absent_iff : presenceAmong tables expected paths = .ok .absent ↔
    ∀ path ∈ paths, IsOther tables expected path := by
  induction paths with
  | nil => exact iff_of_true rfl fun _ h => absurd h List.not_mem_nil
  | cons first rest ih =>
    rw [List.forall_mem_cons, ← ih]
    constructor
    · intro h
      rcases presenceAmong_cons first with hother | ⟨_, hloaded⟩ | ⟨_, _, habsent⟩
      · exact ⟨hother, presenceAmong_other hother ▸ h⟩
      · rw [hloaded] at h
        cases h
      · exact absurd h habsent
    · intro ⟨hother, h⟩
      rw [presenceAmong_other hother, h]

end

/-- What the service compares: the normal form of the module, and the paths of the process. -/
structure Compared (tables : CaseTables) (module : WideText) (paths : List WideText)
    (expected : List Char) (texts : List (List Char)) : Prop where
  module_form : ∃ text, decodeUtf16 module = some text ∧
    normalizedModulePath tables text = .ok (some expected)
  paths_text : textPaths paths = some texts

/-- The process can be asked, and these are its modules. -/
def Lists (process : ProcessAnswers) (creationTime : ℕ) (paths : List WideText) : Prop :=
  process.opened = true ∧ process.creationTime = some creationTime ∧ process.modules = some paths

theorem processModulePresence_of_lists {tables : CaseTables} {process : ProcessAnswers}
    {creationTime : ℕ} {module : WideText} {paths : List WideText}
    (h : Lists process creationTime paths) {presence : ModulePresence}
    (hpresence : presence ≠ .unknown) :
    processModulePresence tables process creationTime module = .ok presence ↔
      ∃ expected texts, Compared tables module paths expected texts ∧
        presenceAmong tables expected texts = .ok presence := by
  obtain ⟨hopened, htime, hmodules⟩ := h
  have hasked : ¬(process.opened = false ∨ process.creationTime ≠ some creationTime) := by
    simp [hopened, htime]
  have hunknown : (.ok .unknown : Except Panic ModulePresence) ≠ .ok presence := by
    intro heq
    cases heq
    exact hpresence rfl
  unfold processModulePresence
  simp only [if_neg hasked, hmodules, Option.bind_some]
  cases htext : decodeUtf16 module with
  | none =>
    refine iff_of_false hunknown ?_
    rintro ⟨expected, texts, ⟨⟨text, hdecoded, _⟩, _⟩, _⟩
    rw [htext] at hdecoded
    cases hdecoded
  | some text =>
    have hform (expected : List Char) (texts : List (List Char)) :
        Compared tables module paths expected texts ↔
          normalizedModulePath tables text = .ok (some expected) ∧
            textPaths paths = some texts := by
      constructor
      · rintro ⟨⟨text', hdecoded, hform⟩, hpaths⟩
        rw [htext] at hdecoded
        cases hdecoded
        exact ⟨hform, hpaths⟩
      · rintro ⟨hform, hpaths⟩
        exact ⟨⟨text, htext, hform⟩, hpaths⟩
    simp only [hform]
    cases normalizedModulePath tables text with
    | error panic => simp [bind, Except.bind]
    | ok form =>
      cases form with
      | none => simpa [bind, Except.bind, pure, Except.pure] using hunknown
      | some expected =>
        cases hpaths : textPaths paths with
        | none => simpa [bind, Except.bind, pure, Except.pure] using hunknown
        | some texts => simp [bind, Except.bind]

/-! ## What each side makes of a path -/

/-- The service can compare the path, and this is its form: the path is text that the service can
cut, it is absolute, and it does not go up beyond its root. -/
def ServiceForm (tables : CaseTables) (path : WideText) (form : List Char) : Prop :=
  ∃ text, decodeUtf16 path = some text ∧ PathSliceable text ∧ normalForm tables text = some form

/-- The helper can compare the path: it is not empty, has no NUL, and is absolute. -/
def HelperCompares (path : WideText) : Prop :=
  path ≠ [] ∧ 0 ∉ path ∧ isAbsolute (Injector.withoutNamespace path) = true

def helperForm (path : WideText) : LexicalPath := lexicallyNormal (Injector.withoutNamespace path)

/-- For the helper the path is another spelling of the module's. -/
def SpellsModule (module path : WideText) : Prop :=
  isExpected (helperForm module) (helperForm path) = true

/-- For the helper the path is that of a module with the same file name at another place. -/
def IsNamesake (module path : WideText) : Prop :=
  isConflicting (helperForm module) (helperForm path) = true

theorem normalizedModulePath_eq_some {tables : CaseTables} {text form : List Char} :
    normalizedModulePath tables text = .ok (some form) ↔
      PathSliceable text ∧ normalForm tables text = some form := by
  constructor
  · intro h
    exact ⟨normalizedModulePath_isOk.1 (by rw [h]; rfl), (normalizedModulePath_ok h).symm⟩
  · rintro ⟨hslice, hform⟩
    have hok : (normalizedModulePath tables text).isOk = true := normalizedModulePath_isOk.2 hslice
    obtain ⟨answer, hanswer⟩ := ok_of_isOk hok
    rw [hanswer, normalizedModulePath_ok hanswer, hform]

theorem helperForm_iff {path : WideText} {form : LexicalPath} :
    Injector.normalizedModulePath path = some form ↔ HelperCompares path ∧ helperForm path = form := by
  unfold Injector.normalizedModulePath HelperCompares helperForm
  by_cases hempty : path = [] ∨ 0 ∈ path
  · rw [if_pos hempty]
    refine iff_of_false nofun fun h => ?_
    exact hempty.elim h.1.1 h.1.2.1
  · rw [not_or] at hempty
    rw [if_neg (not_or.2 hempty)]
    dsimp only
    by_cases habsolute : isAbsolute (Injector.withoutNamespace path) = true
    · rw [if_pos habsolute, Option.some.injEq, and_iff_right ⟨hempty.1, hempty.2, habsolute⟩]
    · rw [if_neg habsolute]
      exact iff_of_false nofun fun h => habsolute h.1.2.2

theorem textPaths_iff {paths : List WideText} {texts : List (List Char)} :
    textPaths paths = some texts ↔
      List.Forall₂ (fun path text => decodeUtf16 path = some text) paths texts := by
  induction paths generalizing texts with
  | nil =>
    rw [List.forall₂_nil_left_iff]
    exact ⟨fun h => (Option.some.inj h).symm, fun h => by rw [h]; rfl⟩
  | cons path rest ih =>
    have hstep : textPaths (path :: rest) = (decodeUtf16 path).bind fun path =>
        (textPaths rest).bind fun rest => some (path :: rest) := rfl
    rw [hstep, List.forall₂_cons_left_iff, Option.bind_eq_some_iff]
    constructor
    · rintro ⟨text, htext, h⟩
      obtain ⟨others, hothers, h⟩ := Option.bind_eq_some_iff.1 h
      cases h
      exact ⟨text, others, htext, ih.1 hothers, rfl⟩
    · rintro ⟨text, others, htext, hothers, rfl⟩
      exact ⟨text, htext, Option.bind_eq_some_iff.2 ⟨others, ih.2 hothers, rfl⟩⟩

/-! ## What the service finds -/

/-- The service comes to a path that is the module's for it: it can compare all paths before. -/
structure Reaches (tables : CaseTables) (module : WideText) (paths : List WideText) : Prop where
  text : ∀ path ∈ paths, (decodeUtf16 path).isSome = true
  reached : ∃ form before path after, paths = before ++ path :: after ∧
    ServiceForm tables module form ∧ ServiceForm tables path form ∧
    ∀ other ∈ before, ∃ otherForm, ServiceForm tables other otherForm ∧ otherForm ≠ form

/-- The service can compare all paths, and none of them is the module's for it. -/
def PassesAll (tables : CaseTables) (module : WideText) (paths : List WideText) : Prop :=
  ∃ form, ServiceForm tables module form ∧
    ∀ path ∈ paths, ∃ otherForm, ServiceForm tables path otherForm ∧ otherForm ≠ form

/-- A path of the list and its text. -/
theorem isOther_iff {tables : CaseTables} {path : WideText} {text form : List Char}
    (htext : decodeUtf16 path = some text) : IsOther tables form text ↔
      ∃ otherForm, ServiceForm tables path otherForm ∧ otherForm ≠ form := by
  unfold IsOther ServiceForm
  simp only [normalizedModulePath_eq_some, htext, Option.some.injEq, exists_eq_left', and_assoc]

theorem forall_isOther_iff {tables : CaseTables} {paths : List WideText}
    {texts : List (List Char)} {form : List Char}
    (htexts : List.Forall₂ (fun path text => decodeUtf16 path = some text) paths texts) :
    (∀ text ∈ texts, IsOther tables form text) ↔
      ∀ path ∈ paths, ∃ otherForm, ServiceForm tables path otherForm ∧ otherForm ≠ form := by
  induction htexts with
  | nil => exact iff_of_true (fun _ h => absurd h List.not_mem_nil) fun _ h => absurd h List.not_mem_nil
  | cons htext _ ih => rw [List.forall_mem_cons, List.forall_mem_cons, isOther_iff htext, ih]

theorem forall₂_of_isSome {paths : List WideText}
    (h : ∀ path ∈ paths, (decodeUtf16 path).isSome = true) :
    ∃ texts, List.Forall₂ (fun path text => decodeUtf16 path = some text) paths texts := by
  induction paths with
  | nil => exact ⟨[], .nil⟩
  | cons path rest ih =>
    obtain ⟨hpath, hrest⟩ := List.forall_mem_cons.1 h
    obtain ⟨text, htext⟩ := Option.isSome_iff_exists.1 hpath
    obtain ⟨texts, htexts⟩ := ih hrest
    exact ⟨text :: texts, .cons htext htexts⟩

theorem isSome_of_forall₂ {paths : List WideText} {texts : List (List Char)}
    (h : List.Forall₂ (fun path text => decodeUtf16 path = some text) paths texts) :
    ∀ path ∈ paths, (decodeUtf16 path).isSome = true := by
  induction h with
  | nil => exact fun _ h => absurd h List.not_mem_nil
  | cons htext _ ih => exact List.forall_mem_cons.2 ⟨by rw [htext]; rfl, ih⟩

theorem forall₂_append_left {α β : Type} {R : α → β → Prop} {before after : List α}
    {values : List β} (h : List.Forall₂ R (before ++ after) values) :
    ∃ left right, List.Forall₂ R before left ∧ List.Forall₂ R after right ∧
      left ++ right = values := by
  refine ⟨values.take before.length, values.drop before.length, ?_, ?_,
    List.take_append_drop _ values⟩
  · simpa using List.forall₂_take before.length h
  · simpa using List.forall₂_drop before.length h

theorem serviceForm_of_text {tables : CaseTables} {path : WideText} {text form : List Char}
    (htext : decodeUtf16 path = some text) :
    normalizedModulePath tables text = .ok (some form) ↔ ServiceForm tables path form := by
  unfold ServiceForm
  simp only [normalizedModulePath_eq_some, htext, Option.some.injEq, exists_eq_left']

theorem loaded_iff_reaches {tables : CaseTables} {process : ProcessAnswers} {creationTime : ℕ}
    {module : WideText} {paths : List WideText} (h : Lists process creationTime paths) :
    processModulePresence tables process creationTime module = .ok .loaded ↔
      Reaches tables module paths := by
  rw [processModulePresence_of_lists h (by decide)]
  constructor
  · rintro ⟨form, texts, ⟨⟨text, htext, hform⟩, htexts⟩, hloaded⟩
    have htexts := textPaths_iff.1 htexts
    obtain ⟨before, found, after, rfl, hbefore, hfound⟩ := presenceAmong_loaded_iff.1 hloaded
    obtain ⟨left, right, hleft, hright, rfl⟩ := forall₂_append_left htexts.flip
    obtain ⟨path, rest, hpath, hrest, rfl⟩ := List.forall₂_cons_left_iff.1 hright
    exact ⟨isSome_of_forall₂ htexts, form, left, path, rest, rfl,
      (serviceForm_of_text htext).1 hform, (serviceForm_of_text hpath).1 hfound,
      (forall_isOther_iff hleft.flip).1 hbefore⟩
  · rintro ⟨htext, form, before, path, after, rfl, hmodule, hpath, hbefore⟩
    obtain ⟨texts, htexts⟩ := forall₂_of_isSome htext
    obtain ⟨left, right, hleft, hright, rfl⟩ := forall₂_append_left htexts
    obtain ⟨found, rest, hfound, hrest, rfl⟩ := List.forall₂_cons_left_iff.1 hright
    obtain ⟨text, htext, hform⟩ := hmodule
    refine ⟨form, _, ⟨⟨text, htext, normalizedModulePath_eq_some.2 hform⟩, textPaths_iff.2 htexts⟩,
      presenceAmong_loaded_iff.2 ⟨left, found, rest, rfl, ?_, ?_⟩⟩
    · exact (forall_isOther_iff hleft).2 hbefore
    · exact (serviceForm_of_text hfound).2 hpath

theorem absent_iff_passesAll {tables : CaseTables} {process : ProcessAnswers} {creationTime : ℕ}
    {module : WideText} {paths : List WideText} (h : Lists process creationTime paths) :
    processModulePresence tables process creationTime module = .ok .absent ↔
      PassesAll tables module paths := by
  rw [processModulePresence_of_lists h (by decide)]
  constructor
  · rintro ⟨form, texts, ⟨⟨text, htext, hform⟩, htexts⟩, habsent⟩
    refine ⟨form, (serviceForm_of_text htext).1 hform, ?_⟩
    exact (forall_isOther_iff (textPaths_iff.1 htexts)).1 (presenceAmong_absent_iff.1 habsent)
  · rintro ⟨form, ⟨text, htext, hform⟩, hothers⟩
    have hsome : ∀ path ∈ paths, (decodeUtf16 path).isSome = true := by
      intro path hpath
      obtain ⟨_, ⟨text, htext, _⟩, _⟩ := hothers path hpath
      rw [htext]
      rfl
    obtain ⟨texts, htexts⟩ := forall₂_of_isSome hsome
    exact ⟨form, texts, ⟨⟨text, htext, normalizedModulePath_eq_some.2 hform⟩,
      textPaths_iff.2 htexts⟩, presenceAmong_absent_iff.2 ((forall_isOther_iff htexts).2 hothers)⟩

/-! ## What the helper finds -/

/-- The helper can compare all paths, one is the module's, and no other has its file name. -/
structure HelperFinds (module : WideText) (paths : List WideText) : Prop where
  compares : ∀ path ∈ module :: paths, HelperCompares path
  named : (helperForm module).filename ≠ []
  found : ∃ path ∈ paths, SpellsModule module path
  no_namesake : ∀ path ∈ paths, ¬IsNamesake module path

theorem normalForms_iff {paths : List WideText} {forms : List LexicalPath} :
    NormalForms (paths.map some) forms ↔
      (∀ path ∈ paths, HelperCompares path) ∧ paths.map helperForm = forms := by
  unfold NormalForms
  rw [List.forall₂_map_left_iff]
  induction paths generalizing forms with
  | nil =>
    rw [List.forall₂_nil_left_iff]
    exact ⟨fun h => ⟨fun _ hmem => absurd hmem List.not_mem_nil, h.symm⟩, fun h => h.2.symm⟩
  | cons path rest ih =>
    rw [List.forall₂_cons_left_iff, List.forall_mem_cons, List.map_cons]
    constructor
    · rintro ⟨form, others, hform, hothers, rfl⟩
      obtain ⟨hcompares, rfl⟩ := helperForm_iff.1 hform
      obtain ⟨hrest, rfl⟩ := ih.1 hothers
      exact ⟨⟨hcompares, hrest⟩, rfl⟩
    · rintro ⟨⟨hcompares, hrest⟩, rfl⟩
      exact ⟨_, _, helperForm_iff.2 ⟨hcompares, rfl⟩, ih.2 ⟨hrest, rfl⟩, rfl⟩

theorem helperFinds_iff {module : WideText} {paths : List WideText} :
    fixedModuleStateOnce module (some (paths.map some)) = .expectedModuleLoaded ↔
      HelperFinds module paths := by
  rw [expectedModuleLoaded_iff]
  constructor
  · rintro ⟨expected, modules, forms, hmodule, hlisting, hname, hforms, ⟨form, hform, hfound⟩, hclear⟩
    cases hlisting
    obtain ⟨hcompares, rfl⟩ := helperForm_iff.1 hmodule
    obtain ⟨hpaths, rfl⟩ := normalForms_iff.1 hforms
    obtain ⟨path, hpath, rfl⟩ := List.mem_map.1 hform
    refine ⟨List.forall_mem_cons.2 ⟨hcompares, hpaths⟩, hname, ⟨path, hpath, hfound⟩, ?_⟩
    intro other hother
    exact Bool.eq_false_iff.1 (hclear _ (List.mem_map_of_mem hother))
  · rintro ⟨hcompares, hname, ⟨path, hpath, hfound⟩, hclear⟩
    obtain ⟨hmodule, hpaths⟩ := List.forall_mem_cons.1 hcompares
    refine ⟨helperForm module, _, paths.map helperForm, helperForm_iff.2 ⟨hmodule, rfl⟩, rfl, hname,
      normalForms_iff.2 ⟨hpaths, rfl⟩, ⟨_, List.mem_map_of_mem hpath, hfound⟩, fun form hform => ?_⟩
    obtain ⟨other, hother, rfl⟩ := List.mem_map.1 hform
    exact Bool.eq_false_iff.2 (hclear other hother)

/-! ## When the two differ -/

/-- What the service says of a list of modules is what the helper would find in it. -/
def ProbeAgrees (tables : CaseTables) (module : WideText) (paths : List WideText) : Prop :=
  ∀ process creationTime, Lists process creationTime paths →
    (processModulePresence tables process creationTime module = .ok .loaded →
      fixedModuleStateOnce module (some (paths.map some)) = .expectedModuleLoaded) ∧
    (processModulePresence tables process creationTime module = .ok .absent →
      fixedModuleStateOnce module (some (paths.map some)) ≠ .expectedModuleLoaded)

/-- The lists about which the service and the helper differ. -/
inductive Disagreement (tables : CaseTables) (module : WideText) (paths : List WideText) : Prop where
  /-- The service stops at the module, and somewhere in the list is another one of its name. -/
  | namesake (hreaches : Reaches tables module paths) {path : WideText} (hpath : path ∈ paths)
    (hnamesake : IsNamesake module path)
  /-- The service stops at the module, and the list has a path that is empty, has a NUL or is
  relative, which the helper gives up on. -/
  | incomparable (hreaches : Reaches tables module paths) {path : WideText}
    (hpath : path ∈ module :: paths) (hincomparable : ¬HelperCompares path)
  /-- The module is a directory by its spelling. -/
  | nameless (hreaches : Reaches tables module paths) (hname : (helperForm module).filename = [])
  /-- The service stops at a path that is the module's in its normal form only. -/
  | spelledForService (hreaches : Reaches tables module paths)
    (hpaths : ∀ path ∈ paths, ¬SpellsModule module path)
  /-- The service passes a path that is the module's in the normal form of the helper only. -/
  | spelledForHelper (hpasses : PassesAll tables module paths) {path : WideText}
    (hpath : path ∈ paths) (hspells : SpellsModule module path)
    (hcompares : ∀ path ∈ module :: paths, HelperCompares path)
    (hname : (helperForm module).filename ≠ [])
    (hclear : ∀ path ∈ paths, ¬IsNamesake module path)

def fixedModule : WideText := wide "C:\\mt\\MacType64.dll"

def otherModule : WideText := wide "C:\\other\\MacType64.dll"

end MacTypeControl.Platform
