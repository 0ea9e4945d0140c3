import MacTypeControl.Platform.ModulePath

/-!
# The spellings of a path

An absolute path has many spellings. They have one normal form, where the normalization does not
panic and does not take the path of a share for a relative one.
-/

namespace MacTypeControl.Platform

open Text

/-! ## Spellings -/

/-- A component that stands for itself. -/
def IsName (component : List Char) : Prop :=
  component ≠ [] ∧ component ≠ ['.'] ∧ component ≠ ['.', '.']

/-- The components resolve to these names. -/
inductive Resolves : List (List Char) → List (List Char) → Prop where
  | names {names : List (List Char)} (h : ∀ name ∈ names, IsName name) : Resolves names names
  | empty {before after names : List (List Char)} :
    Resolves (before ++ after) names → Resolves (before ++ [] :: after) names
  | dot {before after names : List (List Char)} :
    Resolves (before ++ after) names → Resolves (before ++ ['.'] :: after) names
  | dotDot {before after names : List (List Char)} {name : List Char} (h : IsName name) :
    Resolves (before ++ after) names → Resolves (before ++ name :: ['.', '.'] :: after) names

/-- What an absolute path is relative to: a drive, by its small letter, or the network. -/
inductive PathRoot where
  | drive (letter : Char)
  | network
  deriving DecidableEq

/-- The spellings of a root. `first` is the component that follows it. -/
inductive SpellsRoot : PathRoot → List Char → List Char → Prop where
  | drive {lead first : List Char} {letter separator : Char} (hlead : lead ∈ [[], verbatim, device])
    (hletter : isAsciiAlphabetic letter = true) (hseparator : isSeparator separator = true) :
    SpellsRoot (.drive (toAsciiLowercase letter)) (lead ++ [letter, ':', separator]) first
  | network {first : List Char} {left right : Char} (hleft : isSeparator left = true)
    (hright : isSeparator right = true) (hserver : first ≠ ['?'] ∧ first ≠ ['.']) :
    SpellsRoot .network [left, right] first
  | namespaced {lead first unc : List Char} (hlead : lead ∈ [verbatim, device])
    (hunc : eqIgnoreAsciiCase unc "UNC".toList = true) :
    SpellsRoot .network (lead ++ (unc ++ ['\\'])) first

/-- The text is a spelling of the path with this root and these names. -/
structure Spells (text : List Char) (root : PathRoot) (names : List (List Char)) : Prop where
  no_nul : '\x00' ∉ text
  parts : ∃ rootText rest, text = rootText ++ rest ∧
    SpellsRoot root rootText (rest.takeWhile fun c => !isSeparator c) ∧
    Resolves (rest.splitOnP isSeparator) names

/-- Two spellings of one absolute path. -/
def SameAbsolutePath (text other : List Char) : Prop :=
  ∃ root names others, Spells text root names ∧ Spells other root others ∧
    names.map (·.map toAsciiLowercase) = others.map (·.map toAsciiLowercase)

/-! ## Components -/

theorem resolveComponents_append {kept before after after' : List (List Char)}
    (h : ∀ kept, resolveComponents kept after = resolveComponents kept after') :
    resolveComponents kept (before ++ after) = resolveComponents kept (before ++ after') := by
  induction before generalizing kept with
  | nil => exact h kept
  | cons component before ih =>
    simp only [List.cons_append, resolveComponents]
    split
    · exact ih
    split
    · cases kept with
      | nil => rfl
      | cons last kept => exact ih
    · exact ih

theorem resolveComponents_names {names : List (List Char)} (h : ∀ name ∈ names, IsName name) :
    ∀ kept, resolveComponents kept names = some (kept.reverse ++ names) := by
  induction names with
  | nil =>
    intro kept
    simp [resolveComponents]
  | cons name names ih =>
    intro kept
    obtain ⟨hnonempty, hdot, hdots⟩ := h name List.mem_cons_self
    unfold resolveComponents
    rw [if_neg (by simp [hnonempty, hdot]), if_neg hdots,
      ih fun other hother => h other (List.mem_cons_of_mem name hother)]
    simp

theorem resolveComponents_of_resolves {components names : List (List Char)}
    (h : Resolves components names) : resolveComponents [] components = some names := by
  induction h with
  | names hnames => exact resolveComponents_names hnames []
  | empty _ ih =>
    rw [← ih]
    exact resolveComponents_append fun kept => by simp [resolveComponents]
  | dot _ ih =>
    rw [← ih]
    exact resolveComponents_append fun kept => by simp [resolveComponents]
  | dotDot hname _ ih =>
    rw [← ih]
    refine resolveComponents_append fun kept => ?_
    obtain ⟨hnonempty, hdot, hdots⟩ := hname
    simp [resolveComponents, hnonempty, hdot, hdots]

/-! ## The root -/

/-- The path of a share that begins with a forward slash. -/
def SlashShare (text : List Char) : Prop :=
  ∃ left right rest, text = left :: right :: rest ∧ isSeparator left = true ∧
    isSeparator right = true ∧ ¬(left = '\\' ∧ right = '\\')

theorem isSeparator_iff {c : Char} : isSeparator c = true ↔ c = '\\' ∨ c = '/' := by
  simp [isSeparator]

theorem not_separator_of_letter {c : Char} (h : isAsciiAlphabetic c = true) :
    isSeparator c = false := by
  by_contra hseparator
  rcases isSeparator_iff.1 (by simpa using hseparator) with rfl | rfl <;> exact absurd h (by decide)

theorem splitRoot_drive {letter separator : Char} (hletter : isAsciiAlphabetic letter = true)
    (hseparator : isSeparator separator = true) (rest : List Char) :
    splitRoot (letter :: ':' :: separator :: rest) = some ([letter, ':', '\\'], rest) := by
  simp [splitRoot, hletter, hseparator]

/-- Each character of a lead is found in text that starts with it. -/
theorem char_of_matchesLead {text lead : List Char} (h : matchesLead text lead = true) {n : ℕ}
    {d : Char} (hlead : lead[n]? = some d) :
    ∃ c, text[n]? = some c ∧ toAsciiLowercase c = toAsciiLowercase d := by
  have hlower := eqIgnoreAsciiCase_iff.1 h
  have hlength : n < lead.length := by
    by_contra hlong
    rw [List.getElem?_eq_none (by omega)] at hlead
    cases hlead
  have hchar : ((text.take lead.length).map toAsciiLowercase)[n]? =
      (lead.map toAsciiLowercase)[n]? := by rw [hlower]
  rw [List.getElem?_map, List.getElem?_map, List.getElem?_take_of_lt hlength, hlead] at hchar
  exact Option.map_eq_some_iff.1 hchar

/-- A lead is missed where one character differs. -/
theorem not_matchesLead {text lead : List Char} (n : ℕ) {c d : Char} (htext : text[n]? = some c)
    (hlead : lead[n]? = some d) (h : toAsciiLowercase c ≠ toAsciiLowercase d) :
    matchesLead text lead = false := by
  by_contra hmatches
  obtain ⟨found, hfound, hsame⟩ := char_of_matchesLead (by simpa using hmatches) hlead
  rw [htext, Option.some.injEq] at hfound
  rw [hfound] at h
  exact h hsame

theorem lower_ne_backslash {letter : Char} (h : isAsciiAlphabetic letter = true) :
    toAsciiLowercase letter ≠ toAsciiLowercase '\\' := by
  intro hsame
  obtain rfl := eq_of_toAsciiLowercase (d := '\\') (by decide) hsame
  exact absurd h (by decide)

/-- A drive keeps its letter and gets a backslash, in whatever namespace it is given. -/
theorem splitRoot_of_drive {lead : List Char} {letter separator : Char}
    (hlead : lead ∈ [[], verbatim, device]) (hletter : isAsciiAlphabetic letter = true)
    (hseparator : isSeparator separator = true) (rest : List Char) :
    splitRoot (withoutNamespace (lead ++ [letter, ':', separator] ++ rest)) =
      some ([letter, ':', '\\'], rest) := by
  have hcolon : toAsciiLowercase ':' ≠ toAsciiLowercase 'N' := by decide
  have hquestion : toAsciiLowercase '?' ≠ toAsciiLowercase '\\' := by decide
  have hbackslash : toAsciiLowercase '\\' ≠ toAsciiLowercase '?' := by decide
  simp only [List.mem_cons, List.not_mem_nil, or_false] at hlead
  rcases hlead with rfl | rfl | rfl
  · have hfirst : toAsciiLowercase letter ≠ toAsciiLowercase '\\' := lower_ne_backslash hletter
    have hmiss (lead : List Char) (hlead : lead[0]? = some '\\') :
        matchesLead (letter :: ':' :: separator :: rest) lead = false :=
      not_matchesLead 0 rfl hlead hfirst
    have hplain : withoutNamespace (letter :: ':' :: separator :: rest) =
        letter :: ':' :: separator :: rest := by
      simp [withoutNamespace, hmiss verbatimUnc rfl, hmiss deviceUnc rfl, hmiss verbatim rfl,
        hmiss device rfl]
    show splitRoot (withoutNamespace (letter :: ':' :: separator :: rest)) = _
    rw [hplain, splitRoot_drive hletter hseparator]
  · have hunc : matchesLead (verbatim ++ [letter, ':', separator] ++ rest) verbatimUnc = false :=
      not_matchesLead 5 rfl rfl hcolon
    have hdeviceUnc : matchesLead (verbatim ++ [letter, ':', separator] ++ rest) deviceUnc = false :=
      not_matchesLead 1 rfl rfl hbackslash
    have hverbatim : matchesLead (verbatim ++ [letter, ':', separator] ++ rest) verbatim = true :=
      rfl
    have hplain : withoutNamespace (verbatim ++ [letter, ':', separator] ++ rest) =
        letter :: ':' :: separator :: rest := by
      simp only [withoutNamespace, List.find?_cons, hunc, hdeviceUnc, hverbatim, List.find?_nil]
      rfl
    rw [hplain, splitRoot_drive hletter hseparator]
  · have hunc : matchesLead (device ++ [letter, ':', separator] ++ rest) verbatimUnc = false :=
      not_matchesLead 1 rfl rfl hquestion
    have hdeviceUnc : matchesLead (device ++ [letter, ':', separator] ++ rest) deviceUnc = false :=
      not_matchesLead 5 rfl rfl hcolon
    have hverbatim : matchesLead (device ++ [letter, ':', separator] ++ rest) verbatim = false :=
      not_matchesLead 1 rfl rfl hquestion
    have hdevice : matchesLead (device ++ [letter, ':', separator] ++ rest) device = true := rfl
    have hplain : withoutNamespace (device ++ [letter, ':', separator] ++ rest) =
        letter :: ':' :: separator :: rest := by
      simp only [withoutNamespace, List.find?_cons, hunc, hdeviceUnc, hverbatim, hdevice,
        List.find?_nil]
      rfl
    rw [hplain, splitRoot_drive hletter hseparator]

/-- A share in a namespace gets two backslashes. -/
theorem splitRoot_of_namespaced {lead unc : List Char} (hlead : lead ∈ [verbatim, device])
    (hunc : eqIgnoreAsciiCase unc "UNC".toList = true) (rest : List Char) :
    splitRoot (withoutNamespace (lead ++ (unc ++ ['\\']) ++ rest)) = some (['\\', '\\'], rest) := by
  have hlower := eqIgnoreAsciiCase_iff.1 hunc
  obtain ⟨u, n, c, rfl⟩ := List.length_eq_three.1 (length_of_lower hlower)
  have hquestion : toAsciiLowercase '?' ≠ toAsciiLowercase '\\' := by decide
  simp only [List.mem_cons, List.not_mem_nil, or_false] at hlead
  rcases hlead with rfl | rfl
  · have hfound : matchesLead (verbatim ++ ([u, n, c] ++ ['\\']) ++ rest) verbatimUnc = true := by
      apply eqIgnoreAsciiCase_iff.2
      show ("\\\\?\\".toList ++ ([u, n, c] ++ ['\\'])).map toAsciiLowercase =
        ("\\\\?\\".toList ++ ("UNC".toList ++ ['\\'])).map toAsciiLowercase
      rw [List.map_append, List.map_append, hlower, ← List.map_append, ← List.map_append]
    have hplain : withoutNamespace (verbatim ++ ([u, n, c] ++ ['\\']) ++ rest) =
        '\\' :: '\\' :: rest := by
      simp only [withoutNamespace, List.find?_cons, hfound]
      rfl
    rw [hplain]
    rfl
  · have hmiss : matchesLead (device ++ ([u, n, c] ++ ['\\']) ++ rest) verbatimUnc = false :=
      not_matchesLead 1 rfl rfl hquestion
    have hfound : matchesLead (device ++ ([u, n, c] ++ ['\\']) ++ rest) deviceUnc = true := by
      apply eqIgnoreAsciiCase_iff.2
      show ("\\??\\".toList ++ ([u, n, c] ++ ['\\'])).map toAsciiLowercase =
        ("\\??\\".toList ++ ("UNC".toList ++ ['\\'])).map toAsciiLowercase
      rw [List.map_append, List.map_append, hlower, ← List.map_append, ← List.map_append]
    have hplain : withoutNamespace (device ++ ([u, n, c] ++ ['\\']) ++ rest) =
        '\\' :: '\\' :: rest := by
      simp only [withoutNamespace, List.find?_cons, hmiss, hfound]
      rfl
    rw [hplain]
    rfl

/-- A share without a namespace is taken as it is. -/
theorem withoutNamespace_of_network {left right : Char} (hright : isSeparator right = true)
    {rest : List Char} (hserver : (rest.takeWhile fun c => !isSeparator c) ≠ ['?']) :
    withoutNamespace ([left, right] ++ rest) = [left, right] ++ rest := by
  have hsecond : toAsciiLowercase right ≠ toAsciiLowercase '?' := by
    rcases isSeparator_iff.1 hright with rfl | rfl <;> decide
  have hdeviceUnc : matchesLead ([left, right] ++ rest) deviceUnc = false :=
    not_matchesLead 1 rfl rfl hsecond
  have hdevice : matchesLead ([left, right] ++ rest) device = false :=
    not_matchesLead 1 rfl rfl hsecond
  -- a verbatim path has the question mark for its first component
  have hmiss (lead : List Char) (hmark : lead[2]? = some '?') (hend : lead[3]? = some '\\') :
      matchesLead ([left, right] ++ rest) lead = false := by
    by_contra hmatches
    obtain ⟨mark, hmark, hsame⟩ := char_of_matchesLead (by simpa using hmatches) hmark
    obtain ⟨separator, hseparator, hsame'⟩ := char_of_matchesLead (by simpa using hmatches) hend
    obtain rfl := eq_of_toAsciiLowercase (d := '?') (by decide) hsame
    obtain rfl := eq_of_toAsciiLowercase (d := '\\') (by decide) hsame'
    apply hserver
    cases rest with
    | nil => cases hmark
    | cons first rest =>
      cases rest with
      | nil => cases hseparator
      | cons second rest =>
        obtain rfl : first = '?' := by simpa using hmark
        obtain rfl : second = '\\' := by simpa using hseparator
        rfl
  simp only [withoutNamespace, List.find?_cons, hmiss verbatimUnc rfl rfl, hdeviceUnc,
    hmiss verbatim rfl rfl, hdevice, List.find?_nil]

theorem splitRoot_of_network {left right : Char} (hleft : isSeparator left = true)
    (hright : isSeparator right = true) (rest : List Char) :
    splitRoot ([left, right] ++ rest) =
      if left = '\\' ∧ right = '\\' then some (['\\', '\\'], rest) else none := by
  rcases isSeparator_iff.1 hleft with rfl | rfl <;>
    rcases isSeparator_iff.1 hright with rfl | rfl
  · rfl
  all_goals
    cases rest <;> rfl

/-! ## The normal form of a spelling -/

/-- The root as it stands in a normal form. -/
def PathRoot.text : PathRoot → List Char
  | drive letter => [letter, ':', '\\']
  | network => ['\\', '\\']

/-- The second character of a namespace is a backslash as the first one is, or no separator. -/
theorem not_slashShare_of_namespace {lead : List Char} (hlead : lead ∈ [verbatim, device])
    (rest : List Char) : ¬SlashShare (lead ++ rest) := by
  rintro ⟨left, right, others, htext, -, hright, hslash⟩
  simp only [List.mem_cons, List.not_mem_nil, or_false] at hlead
  rcases hlead with rfl | rfl
  · apply hslash
    simp only [verbatim, String.reduceToList, List.cons_append, List.cons.injEq] at htext
    exact ⟨htext.1.symm, htext.2.1.symm⟩
  · simp only [device, String.reduceToList, List.cons_append, List.cons.injEq] at htext
    rw [← htext.2.1] at hright
    exact absurd hright (by decide)

/-- What the root of a spelling is split into, unless it is the slashes of a share. -/
theorem splitRoot_of_spellsRoot {root : PathRoot} {rootText rest : List Char}
    (h : SpellsRoot root rootText (rest.takeWhile fun c => !isSeparator c)) :
    (SlashShare (rootText ++ rest) ∧ splitRoot (withoutNamespace (rootText ++ rest)) = none) ∨
      (¬SlashShare (rootText ++ rest) ∧ ∃ found, found.map toAsciiLowercase = root.text ∧
        splitRoot (withoutNamespace (rootText ++ rest)) = some (found, rest)) := by
  cases h with
  | @drive lead _ letter separator hlead hletter hseparator =>
    right
    refine ⟨?_, [letter, ':', '\\'], rfl,
      splitRoot_of_drive hlead hletter hseparator rest⟩
    rw [List.append_assoc]
    rw [List.mem_cons] at hlead
    rcases hlead with rfl | hlead
    · rintro ⟨left, right, others, htext, hleft, -⟩
      obtain ⟨rfl, -⟩ : left = letter ∧ right = ':' := by
        simp only [List.nil_append, List.cons_append, List.cons.injEq] at htext
        exact ⟨htext.1.symm, htext.2.1.symm⟩
      rw [not_separator_of_letter hletter] at hleft
      cases hleft
    · exact not_slashShare_of_namespace hlead _
  | @network _ left right hleft hright hserver =>
    rw [withoutNamespace_of_network hright hserver.1, splitRoot_of_network hleft hright]
    by_cases hplain : left = '\\' ∧ right = '\\'
    · right
      rw [if_pos hplain]
      refine ⟨?_, _, rfl, rfl⟩
      intro ⟨left', right', others, htext, _, _, hslash⟩
      apply hslash
      simp only [List.cons_append, List.nil_append, List.cons.injEq] at htext
      rw [← htext.1, ← htext.2.1]
      exact hplain
    · left
      rw [if_neg hplain]
      exact ⟨⟨left, right, rest, rfl, hleft, hright, hplain⟩, rfl⟩
  | @namespaced lead _ unc hlead hunc =>
    right
    refine ⟨?_, _, rfl, splitRoot_of_namespaced hlead hunc rest⟩
    rw [List.append_assoc]
    exact not_slashShare_of_namespace hlead _

theorem map_joinComponents (names : List (List Char)) :
    (joinComponents names).map toAsciiLowercase =
      joinComponents (names.map (·.map toAsciiLowercase)) := by
  unfold joinComponents
  induction names with
  | nil => rfl
  | cons name names ih =>
    cases names with
    | nil => simp
    | cons next names =>
      rw [List.intercalate_cons_cons, List.map_append, List.map_append, ih]
      simp only [List.map_cons, List.intercalate_cons_cons, List.map_nil]
      rfl

/-- The normal form of a spelling comes from the path that it spells, unless it is a share that
begins with a forward slash. -/
theorem normalForm_of_spells (tables : CaseTables) {text : List Char} {root : PathRoot}
    {names : List (List Char)} (h : Spells text root names) :
    (SlashShare text ∧ normalForm tables text = none) ∨
      (¬SlashShare text ∧ ∃ found, found.map toAsciiLowercase = root.text ∧
        normalForm tables text = some (tables.toLowercase (found ++ joinComponents names))) := by
  obtain ⟨rootText, rest, rfl, hroot, hnames⟩ := h.parts
  have hnonempty : rootText ++ rest ≠ [] := by
    cases hroot <;> simp
  unfold normalForm
  rw [if_neg (not_or_intro hnonempty h.no_nul)]
  rcases splitRoot_of_spellsRoot hroot with ⟨hslash, hsplit⟩ | ⟨hslash, found, hfound, hsplit⟩
  · left
    rw [hsplit]
    exact ⟨hslash, rfl⟩
  · right
    refine ⟨hslash, found, hfound, ?_⟩
    rw [hsplit]
    simp only [Option.bind_eq_bind, Option.bind_some, resolveComponents_of_resolves hnames]
    rfl

/-- Two spellings of one path have the same normal form when both or neither of them is a share
that begins with a forward slash. -/
theorem normalForm_eq_iff (tables : CaseTables) {text other : List Char}
    (h : SameAbsolutePath text other) :
    normalForm tables text = normalForm tables other ↔ (SlashShare text ↔ SlashShare other) := by
  obtain ⟨root, names, others, hnames, hothers, hsame⟩ := h
  rcases normalForm_of_spells tables hnames with ⟨hslash, hform⟩ | ⟨hslash, found, hfound, hform⟩ <;>
    rcases normalForm_of_spells tables hothers with
      ⟨hslash', hform'⟩ | ⟨hslash', found', hfound', hform'⟩ <;> rw [hform, hform']
  · exact ⟨fun _ => iff_of_true hslash hslash', fun _ => rfl⟩
  · exact ⟨fun h => (by cases h), fun h => absurd (h.1 hslash) hslash'⟩
  · exact ⟨fun h => (by cases h), fun h => absurd (h.2 hslash') hslash⟩
  · refine ⟨fun _ => iff_of_false hslash hslash', fun _ => ?_⟩
    congr 1
    apply tables.toLowercase_eq_of_lower
    rw [List.map_append, List.map_append, hfound, hfound', map_joinComponents, map_joinComponents,
      hsame]

/-- The comparison of two paths does not panic, and finds two spellings of one path equal. -/
def ComparesPaths (tables : CaseTables) (text other : List Char) : Prop :=
  (normalizedModulePath tables text).isOk = true ∧
    (normalizedModulePath tables other).isOk = true ∧
    (SameAbsolutePath text other →
      normalizedModulePath tables text = normalizedModulePath tables other)

/-- Tables for text of ASCII letters only. -/
def asciiTables : CaseTables where
  toLower c := [toAsciiLowercase c]
  cased := isAsciiAlphabetic
  caseIgnorable _ := false
  toLower_ascii _ _ := rfl
  cased_letter c h := by
    simpa [isAsciiAlphabetic] using h
  caseIgnorable_letter _ _ := rfl

/-- A folder whose name begins with a character of two bytes. -/
def accentedModule : List Char := "C:\\é\\MacType.dll".toList

def shareModule : List Char := "\\\\server\\share\\MacType.dll".toList

def slashShareModule : List Char := "//server/share/MacType.dll".toList

def shareNames : List (List Char) := ["server".toList, "share".toList, "MacType.dll".toList]

theorem shareModule_spellings : SameAbsolutePath shareModule slashShareModule := by
  have hnames : Resolves shareNames shareNames := by
    refine Resolves.names fun name hname => ?_
    simp only [shareNames, List.mem_cons, List.not_mem_nil, or_false] at hname
    rcases hname with rfl | rfl | rfl <;> exact ⟨by decide, by decide, by decide⟩
  have hshare : Spells shareModule .network shareNames := by
    refine ⟨by decide, ['\\', '\\'], "server\\share\\MacType.dll".toList, rfl, ?_, hnames⟩
    exact SpellsRoot.network rfl rfl ⟨by decide, by decide⟩
  have hslash : Spells slashShareModule .network shareNames := by
    refine ⟨by decide, ['/', '/'], "server/share/MacType.dll".toList, rfl, ?_, hnames⟩
    exact SpellsRoot.network rfl rfl ⟨by decide, by decide⟩
  exact ⟨.network, shareNames, shareNames, hshare, hslash, rfl⟩

end MacTypeControl.Platform
