import MacTypeControl.Text.Chars
import Mathlib.Algebra.GroupWithZero.Nat
import Mathlib.Tactic.Common

/-!
# Comparing module paths

A module path is reduced to a form in which two paths can be compared. Its beginning is cut out of
the text by byte positions, and a position inside a character panics.
-/

namespace MacTypeControl.Platform

open Text

/-! ## Bytes -/

/-- The length of text in bytes. -/
def byteLength (text : List Char) : ℕ := (text.map Char.utf8Size).sum

inductive Panic where
  | notACharBoundary
  deriving DecidableEq

/-- The text up to a byte position, and the text after it. -/
def splitAtByte : ℕ → List Char → Except Panic (List Char × List Char)
  | 0, text => .ok ([], text)
  | _ + 1, [] => .error .notACharBoundary
  | n + 1, c :: rest =>
    if c.utf8Size ≤ n + 1 then
      (splitAtByte (n + 1 - c.utf8Size) rest).map fun (head, tail) => (c :: head, tail)
    else .error .notACharBoundary

def IsCharBoundary (n : ℕ) (text : List Char) : Prop :=
  ∃ head tail, text = head ++ tail ∧ byteLength head = n

theorem byteLength_cons (c : Char) (text : List Char) :
    byteLength (c :: text) = c.utf8Size + byteLength text := rfl

theorem byteLength_append (text rest : List Char) :
    byteLength (text ++ rest) = byteLength text + byteLength rest := by
  simp [byteLength]

theorem splitAtByte_append (head tail : List Char) :
    splitAtByte (byteLength head) (head ++ tail) = .ok (head, tail) := by
  induction head with
  | nil => cases tail <;> rfl
  | cons c head ih =>
    have hsize := c.utf8Size_pos
    obtain ⟨n, hn⟩ : ∃ n, byteLength (c :: head) = n + 1 :=
      ⟨byteLength (c :: head) - 1, by rw [byteLength_cons]; omega⟩
    have hrest : n + 1 - c.utf8Size = byteLength head := by
      rw [← hn, byteLength_cons]
      omega
    have hle : c.utf8Size ≤ n + 1 := by
      rw [← hn, byteLength_cons]
      omega
    rw [hn, List.cons_append]
    unfold splitAtByte
    rw [if_pos hle, hrest, ih]
    rfl

theorem splitAtByte_ok : ∀ {n : ℕ} {text head tail : List Char},
    splitAtByte n text = .ok (head, tail) → text = head ++ tail ∧ byteLength head = n := by
  intro n text
  fun_induction splitAtByte n text with
  | case1 text =>
    intro head tail h
    cases h
    exact ⟨rfl, rfl⟩
  | case2 n =>
    intro head tail h
    cases h
  | case3 n c rest hle ih =>
    intro head tail h
    cases hrest : splitAtByte (n + 1 - c.utf8Size) rest with
    | error panic =>
      rw [hrest] at h
      cases h
    | ok parts =>
      obtain ⟨before, after⟩ := parts
      obtain ⟨htext, hlength⟩ := ih hrest
      rw [hrest] at h
      cases h
      refine ⟨by rw [htext]; rfl, ?_⟩
      rw [byteLength_cons, hlength]
      omega
  | case4 n c rest hlt =>
    intro head tail h
    cases h

/-- A position can be cut at just when it is between two characters. -/
theorem splitAtByte_isOk {n : ℕ} {text : List Char} :
    (splitAtByte n text).isOk = true ↔ IsCharBoundary n text := by
  constructor
  · intro h
    cases hsplit : splitAtByte n text with
    | error panic =>
      rw [hsplit] at h
      cases h
    | ok parts => exact ⟨parts.1, parts.2, splitAtByte_ok hsplit⟩
  · intro ⟨head, tail, htext, hlength⟩
    rw [htext, ← hlength, splitAtByte_append]
    rfl

/-! ## Lower case -/

/-- The tables of the standard library that text is put into lower case with. -/
structure CaseTables where
  toLower : Char → List Char
  cased : Char → Bool
  caseIgnorable : Char → Bool
  toLower_ascii : ∀ c, c.toNat < 0x80 → toLower c = [toAsciiLowercase c]
  cased_letter : ∀ c, ('A' ≤ c ∧ c ≤ 'Z') ∨ ('a' ≤ c ∧ c ≤ 'z') → cased c = true
  caseIgnorable_letter :
    ∀ c, ('A' ≤ c ∧ c ≤ 'Z') ∨ ('a' ≤ c ∧ c ≤ 'z') → caseIgnorable c = false

namespace CaseTables

variable (tables : CaseTables)

def caseIgnorableThenCased (text : List Char) : Bool :=
  match text.dropWhile tables.caseIgnorable with
  | [] => false
  | c :: _ => tables.cased c

/-- The lower case of the sigma depends on whether it ends a word. -/
def mapUppercaseSigma (before rest : List Char) : Char :=
  if tables.caseIgnorableThenCased before && !tables.caseIgnorableThenCased rest then 'ς' else 'σ'

def lowercaseAfter (before : List Char) : List Char → List Char
  | [] => []
  | c :: rest =>
    (if c = 'Σ' then [tables.mapUppercaseSigma before rest] else tables.toLower c) ++
      lowercaseAfter (c :: before) rest

def toLowercase (text : List Char) : List Char := tables.lowercaseAfter [] text

/-- The case of an ASCII letter does not change what the tables say about it. -/
theorem caseIgnorable_lower (c : Char) :
    tables.caseIgnorable (toAsciiLowercase c) = tables.caseIgnorable c ∧
      tables.cased (toAsciiLowercase c) = tables.cased c := by
  rcases toAsciiLowercase_cases c with ⟨hsame, -⟩ | ⟨hupper, hvalue⟩
  · rw [hsame]
    exact ⟨rfl, rfl⟩
  · have hrange : 65 ≤ c.toNat ∧ c.toNat ≤ 90 := hupper
    have hlower : 'a' ≤ toAsciiLowercase c ∧ toAsciiLowercase c ≤ 'z' := by
      show 97 ≤ (toAsciiLowercase c).toNat ∧ (toAsciiLowercase c).toNat ≤ 122
      omega
    rw [tables.caseIgnorable_letter c (Or.inl hupper), tables.cased_letter c (Or.inl hupper),
      tables.caseIgnorable_letter _ (Or.inr hlower), tables.cased_letter _ (Or.inr hlower)]
    exact ⟨rfl, rfl⟩

theorem caseIgnorableThenCased_lower (text : List Char) :
    tables.caseIgnorableThenCased (text.map toAsciiLowercase) =
      tables.caseIgnorableThenCased text := by
  induction text with
  | nil => rfl
  | cons c rest ih =>
    obtain ⟨hignorable, hcased⟩ := tables.caseIgnorable_lower c
    unfold caseIgnorableThenCased at ih ⊢
    rw [List.map_cons, List.dropWhile_cons, List.dropWhile_cons, hignorable]
    cases tables.caseIgnorable c with
    | true => exact ih
    | false => exact hcased

theorem toLower_lower (c : Char) : tables.toLower (toAsciiLowercase c) = tables.toLower c := by
  rcases toAsciiLowercase_cases c with ⟨hsame, -⟩ | ⟨hupper, hvalue⟩
  · rw [hsame]
  · have hrange : 65 ≤ c.toNat ∧ c.toNat ≤ 90 := hupper
    rw [tables.toLower_ascii c (by omega), tables.toLower_ascii _ (by omega), toAsciiLowercase_idem]

theorem lower_eq_sigma {c : Char} : toAsciiLowercase c = 'Σ' ↔ c = 'Σ' := by
  constructor
  · exact eq_of_toAsciiLowercase (by decide)
  · rintro rfl
    rfl

/-- The lower case of text does not depend on the case of its ASCII letters. -/
theorem lowercaseAfter_lower (text : List Char) : ∀ before : List Char,
    tables.lowercaseAfter (before.map toAsciiLowercase) (text.map toAsciiLowercase) =
      tables.lowercaseAfter before text := by
  induction text with
  | nil =>
    intro before
    rfl
  | cons c rest ih =>
    intro before
    have hrest := ih (c :: before)
    rw [List.map_cons] at hrest
    have hsigma : tables.mapUppercaseSigma (before.map toAsciiLowercase)
        (rest.map toAsciiLowercase) = tables.mapUppercaseSigma before rest := by
      unfold mapUppercaseSigma
      rw [caseIgnorableThenCased_lower, caseIgnorableThenCased_lower]
    rw [List.map_cons]
    unfold lowercaseAfter
    rw [hrest, toLower_lower, hsigma]
    simp only [lower_eq_sigma]

theorem toLowercase_eq_of_lower {text other : List Char}
    (h : text.map toAsciiLowercase = other.map toAsciiLowercase) :
    tables.toLowercase text = tables.toLowercase other := by
  unfold toLowercase
  rw [← tables.lowercaseAfter_lower text [], ← tables.lowercaseAfter_lower other [], h]

end CaseTables

/-! ## The normal form -/

def isSeparator (c : Char) : Bool := c == '\\' || c == '/'

/-- The namespaces that a path of the system may begin with. -/
def verbatim : List Char := "\\\\?\\".toList

def device : List Char := "\\??\\".toList

def verbatimUnc : List Char := "\\\\?\\UNC\\".toList

def deviceUnc : List Char := "\\??\\UNC\\".toList

def startsWithIgnoreCase (text lead : List Char) : Except Panic Bool :=
  if byteLength lead ≤ byteLength text then do
    let (head, _) ← splitAtByte (byteLength lead) text
    return eqIgnoreAsciiCase head lead
  else return false

/-- The text after the first lead that it starts with. -/
def afterLead (text : List Char) : List (List Char) → Except Panic (Option (List Char))
  | [] => return none
  | lead :: leads => do
    if ← startsWithIgnoreCase text lead then
      let (_, tail) ← splitAtByte (byteLength lead) text
      return some tail
    else afterLead text leads

def stripNamespacePrefix (path : List Char) : Except Panic (List Char) := do
  match ← afterLead path [verbatimUnc, deviceUnc] with
  | some rest => return '\\' :: '\\' :: rest
  | none =>
    match ← afterLead path [verbatim, device] with
    | some rest => return rest
    | none => return path

def isAsciiAlphabetic (c : Char) : Bool := ('A' ≤ c && c ≤ 'Z') || ('a' ≤ c && c ≤ 'z')

/-- The root of an absolute path and the rest. -/
def splitRoot : List Char → Option (List Char × List Char)
  | '\\' :: '\\' :: rest => some (['\\', '\\'], rest)
  | letter :: ':' :: separator :: rest =>
    if isAsciiAlphabetic letter && isSeparator separator then some ([letter, ':', '\\'], rest)
    else none
  | _ => none

/-- The components, kept in reverse, with the dots resolved. -/
def resolveComponents : List (List Char) → List (List Char) → Option (List (List Char))
  | kept, [] => some kept.reverse
  | kept, component :: rest =>
    if component = [] ∨ component = ['.'] then resolveComponents kept rest
    else if component = ['.', '.'] then
      match kept with
      | [] => none
      | _ :: kept => resolveComponents kept rest
    else resolveComponents (component :: kept) rest

def joinComponents (components : List (List Char)) : List Char :=
  ['\\'].intercalate components

def normalizedModulePath (tables : CaseTables) (path : List Char) :
    Except Panic (Option (List Char)) := do
  if path = [] ∨ '\x00' ∈ path then return none
  else
    let stripped ← stripNamespacePrefix path
    return do
      let (root, rest) ← splitRoot stripped
      let components ← resolveComponents [] (rest.splitOnP isSeparator)
      return tables.toLowercase (root ++ joinComponents components)

/-! ## Where the normalization panics -/

/-- The text can be cut at the position, if it is that long. -/
def Sliceable (n : ℕ) (text : List Char) : Prop := n ≤ byteLength text → IsCharBoundary n text

theorem isOk_bind {ε α β : Type} {x : Except ε α} {f : α → Except ε β} :
    (x >>= f).isOk = true ↔ ∃ a, x = .ok a ∧ (f a).isOk = true := by
  cases x with
  | error e =>
    constructor
    · intro h
      cases h
    · intro ⟨a, ha, _⟩
      cases ha
  | ok a =>
    constructor
    · intro h
      exact ⟨a, rfl, h⟩
    · intro ⟨b, hb, h⟩
      cases hb
      exact h

theorem startsWithIgnoreCase_isOk {text lead : List Char} :
    (startsWithIgnoreCase text lead).isOk = true ↔ Sliceable (byteLength lead) text := by
  unfold startsWithIgnoreCase Sliceable
  split
  · next hle =>
    rw [isOk_bind]
    constructor
    · intro ⟨parts, hparts, _⟩ _
      rw [← splitAtByte_isOk, hparts]
      rfl
    · intro h
      have hsplit := splitAtByte_isOk.2 (h hle)
      cases hparts : splitAtByte (byteLength lead) text with
      | error panic =>
        rw [hparts] at hsplit
        cases hsplit
      | ok parts => exact ⟨parts, rfl, rfl⟩
  · next hlt => exact ⟨fun _ hle => absurd hle hlt, fun _ => rfl⟩

def IsAsciiText (text : List Char) : Prop := ∀ c ∈ text, c.toNat < 0x80

instance (text : List Char) : Decidable (IsAsciiText text) :=
  List.decidableBAll (fun c : Char => c.toNat < 0x80) text

theorem utf8Size_ascii {c : Char} (h : c.toNat < 0x80) : c.utf8Size = 1 := by
  unfold Char.utf8Size
  rw [if_pos]
  show c.val.toNat ≤ 0x7F
  exact Nat.le_of_lt_succ h

theorem byteLength_ascii {text : List Char} (h : IsAsciiText text) :
    byteLength text = text.length := by
  induction text with
  | nil => rfl
  | cons c rest ih =>
    rw [byteLength_cons, utf8Size_ascii (h c List.mem_cons_self),
      ih fun d hd => h d (List.mem_cons_of_mem c hd), List.length_cons]
    omega

theorem ascii_of_lower {c : Char} (h : (toAsciiLowercase c).toNat < 0x80) : c.toNat < 0x80 := by
  rcases toAsciiLowercase_cases c with ⟨hsame, -⟩ | ⟨hupper, hvalue⟩
  · rwa [hsame] at h
  · have hrange : c.toNat ≤ 90 := hupper.2
    omega

/-- Text that matches an ASCII lead is ASCII too. -/
theorem isAsciiText_of_lower {head lead : List Char} (hascii : IsAsciiText lead)
    (h : head.map toAsciiLowercase = lead.map toAsciiLowercase) : IsAsciiText head := by
  intro c hc
  have hmem : toAsciiLowercase c ∈ lead.map toAsciiLowercase := by
    rw [← h]
    exact List.mem_map_of_mem hc
  obtain ⟨d, hd, hsame⟩ := List.mem_map.1 hmem
  apply ascii_of_lower
  rw [← hsame]
  have hsmall := hascii d hd
  rcases toAsciiLowercase_cases d with ⟨hsame, -⟩ | ⟨hupper, hvalue⟩
  · rwa [hsame]
  · have hrange : d.toNat ≤ 90 := hupper.2
    omega

/-- The text starts with the lead, but for the case of its letters. -/
def matchesLead (text lead : List Char) : Bool :=
  eqIgnoreAsciiCase (text.take lead.length) lead

theorem length_of_lower {a b : List Char}
    (h : a.map toAsciiLowercase = b.map toAsciiLowercase) : a.length = b.length := by
  have hlength : (a.map toAsciiLowercase).length = (b.map toAsciiLowercase).length := by rw [h]
  simpa using hlength

/-- Without a panic, the comparison of bytes is one of characters. -/
theorem startsWithIgnoreCase_ok {text lead : List Char} {answer : Bool} (hascii : IsAsciiText lead)
    (h : startsWithIgnoreCase text lead = .ok answer) : answer = matchesLead text lead := by
  have hmatch : matchesLead text lead = true →
      text = text.take lead.length ++ text.drop lead.length ∧
        byteLength (text.take lead.length) = byteLength lead := by
    intro hmatch
    have hlower := eqIgnoreAsciiCase_iff.1 hmatch
    refine ⟨(List.take_append_drop _ _).symm, ?_⟩
    rw [byteLength_ascii (isAsciiText_of_lower hascii hlower), byteLength_ascii hascii,
      length_of_lower hlower]
  unfold startsWithIgnoreCase at h
  split at h
  · next hle =>
    cases hsplit : splitAtByte (byteLength lead) text with
    | error panic =>
      rw [hsplit] at h
      cases h
    | ok parts =>
      obtain ⟨head, tail⟩ := parts
      rw [hsplit] at h
      obtain ⟨htext, hlength⟩ := splitAtByte_ok hsplit
      have hanswer : answer = eqIgnoreAsciiCase head lead := by
        cases h
        rfl
      rw [hanswer, Bool.eq_iff_iff]
      constructor
      · intro hsame
        unfold matchesLead
        rw [← length_of_lower (eqIgnoreAsciiCase_iff.1 hsame), htext, List.take_left]
        exact hsame
      · intro hmatches
        obtain ⟨htake, hbytes⟩ := hmatch hmatches
        have hagain := splitAtByte_append (text.take lead.length) (text.drop lead.length)
        rw [← htake, hbytes, hsplit] at hagain
        cases hagain
        exact hmatches
  · next hlt =>
    cases h
    by_contra hmatches
    obtain ⟨htake, hbytes⟩ := hmatch (by simpa using hmatches)
    apply hlt
    rw [htake, byteLength_append, hbytes]
    omega

theorem ok_of_isOk {ε α : Type} {x : Except ε α} (h : x.isOk = true) : ∃ a, x = .ok a := by
  cases x with
  | error e => cases h
  | ok a => exact ⟨a, rfl⟩

theorem startsWithIgnoreCase_true {text lead : List Char}
    (h : startsWithIgnoreCase text lead = .ok true) : byteLength lead ≤ byteLength text := by
  unfold startsWithIgnoreCase at h
  split at h
  · next hle => exact hle
  · cases h

theorem afterLead_isOk {text : List Char} {n : ℕ} (hslice : Sliceable n text) :
    ∀ {leads : List (List Char)}, (∀ lead ∈ leads, byteLength lead = n) →
      (afterLead text leads).isOk = true := by
  intro leads
  induction leads with
  | nil =>
    intro _
    rfl
  | cons lead leads ih =>
    intro hlengths
    have hlength := hlengths lead List.mem_cons_self
    obtain ⟨answer, hanswer⟩ := ok_of_isOk (startsWithIgnoreCase_isOk.2 (hlength ▸ hslice))
    unfold afterLead
    refine isOk_bind.2 ⟨answer, hanswer, ?_⟩
    cases answer with
    | false => exact ih fun other hother => hlengths other (List.mem_cons_of_mem lead hother)
    | true =>
      have hle := startsWithIgnoreCase_true hanswer
      have hboundary := hslice (hlength ▸ hle)
      obtain ⟨parts, hparts⟩ := ok_of_isOk (splitAtByte_isOk.2 (hlength ▸ hboundary))
      exact isOk_bind.2 ⟨parts, hparts, rfl⟩

theorem sliceable_of_afterLead {text lead : List Char} {leads : List (List Char)}
    (h : (afterLead text (lead :: leads)).isOk = true) : Sliceable (byteLength lead) text := by
  unfold afterLead at h
  obtain ⟨answer, hanswer, -⟩ := isOk_bind.1 h
  rw [← startsWithIgnoreCase_isOk, hanswer]
  rfl

/-- Without a panic, a lead is found and taken off by its characters. -/
theorem afterLead_ok {text : List Char} : ∀ {leads : List (List Char)} {rest : Option (List Char)},
    (∀ lead ∈ leads, IsAsciiText lead) → afterLead text leads = .ok rest →
      rest = (leads.find? (matchesLead text)).map fun lead => text.drop lead.length := by
  intro leads
  induction leads with
  | nil =>
    intro rest _ h
    cases h
    rfl
  | cons lead leads ih =>
    intro rest hascii h
    have hlead := hascii lead List.mem_cons_self
    unfold afterLead at h
    cases hanswer : startsWithIgnoreCase text lead with
    | error panic =>
      rw [hanswer] at h
      cases h
    | ok answer =>
      have hmatches := startsWithIgnoreCase_ok hlead hanswer
      rw [hanswer] at h
      cases answer with
      | false =>
        rw [List.find?_cons_of_neg (by simp [← hmatches])]
        exact ih (fun other hother => hascii other (List.mem_cons_of_mem lead hother)) h
      | true =>
        rw [List.find?_cons_of_pos (by simp [← hmatches])]
        have hlower := eqIgnoreAsciiCase_iff.1 hmatches.symm
        have hbytes : byteLength (text.take lead.length) = byteLength lead := by
          rw [byteLength_ascii (isAsciiText_of_lower hlead hlower), byteLength_ascii hlead,
            length_of_lower hlower]
        have hsplit := splitAtByte_append (text.take lead.length) (text.drop lead.length)
        rw [List.take_append_drop, hbytes] at hsplit
        change (splitAtByte (byteLength lead) text >>= fun parts => pure (some parts.2)) = _ at h
        rw [hsplit] at h
        cases h
        rfl

/-- The path without the lead of its namespace. -/
def withoutNamespace (path : List Char) : List Char :=
  match [verbatimUnc, deviceUnc].find? (matchesLead path) with
  | some lead => '\\' :: '\\' :: path.drop lead.length
  | none =>
    match [verbatim, device].find? (matchesLead path) with
    | some lead => path.drop lead.length
    | none => path

theorem stripNamespacePrefix_ok {path stripped : List Char}
    (h : stripNamespacePrefix path = .ok stripped) : stripped = withoutNamespace path := by
  unfold stripNamespacePrefix at h
  unfold withoutNamespace
  cases hunc : afterLead path [verbatimUnc, deviceUnc] with
  | error panic =>
    rw [hunc] at h
    cases h
  | ok rest =>
    have hfound := afterLead_ok (by decide) hunc
    rw [hunc] at h
    cases hlead : [verbatimUnc, deviceUnc].find? (matchesLead path) with
    | some lead =>
      rw [hlead] at hfound
      subst hfound
      cases h
      rfl
    | none =>
      rw [hlead] at hfound
      subst hfound
      change (afterLead path [verbatim, device] >>= _) = _ at h
      cases hplain : afterLead path [verbatim, device] with
      | error panic =>
        rw [hplain] at h
        cases h
      | ok rest =>
        have hfound := afterLead_ok (by decide) hplain
        rw [hplain] at h
        cases hlead : [verbatim, device].find? (matchesLead path) with
        | some lead =>
          rw [hlead] at hfound
          subst hfound
          cases h
          rfl
        | none =>
          rw [hlead] at hfound
          subst hfound
          cases h
          rfl

/-- Text that begins with ASCII characters can be cut after any of them. -/
theorem isCharBoundary_of_ascii {text : List Char} {n m : ℕ} (hle : n ≤ m)
    (hascii : IsAsciiText (text.take m)) (hlength : m ≤ text.length) : IsCharBoundary n text := by
  refine ⟨text.take n, text.drop n, (List.take_append_drop n text).symm, ?_⟩
  have htake : text.take n = (text.take m).take n := by
    rw [List.take_take, Nat.min_eq_left hle]
  have hhead : IsAsciiText (text.take n) := by
    intro c hc
    rw [htake] at hc
    exact hascii c (List.mem_of_mem_take hc)
  rw [byteLength_ascii hhead, List.length_take]
  omega

/-- The beginning of a path can be cut off where its fourth and its eighth byte begin characters. -/
theorem stripNamespacePrefix_isOk {path : List Char} :
    (stripNamespacePrefix path).isOk = true ↔ Sliceable 8 path ∧ Sliceable 4 path := by
  have hunc : byteLength verbatimUnc = 8 := by decide
  have hplain : byteLength verbatim = 4 := by decide
  constructor
  · intro h
    unfold stripNamespacePrefix at h
    obtain ⟨rest, hrest, hnext⟩ := isOk_bind.1 h
    have hslice : Sliceable 8 path := by
      rw [← hunc]
      apply sliceable_of_afterLead
      rw [hrest]
      rfl
    refine ⟨hslice, ?_⟩
    cases rest with
    | none =>
      rw [← hplain]
      obtain ⟨found, hfound, -⟩ := isOk_bind.1 hnext
      apply sliceable_of_afterLead
      rw [hfound]
      rfl
    | some tail =>
      -- the text starts with eight ASCII characters
      intro _
      have hfound := (afterLead_ok (by decide) hrest).symm
      obtain ⟨lead, hlead, -⟩ := Option.map_eq_some_iff.1 hfound
      have hmatches : matchesLead path lead = true := List.find?_some hlead
      have hlower := eqIgnoreAsciiCase_iff.1 hmatches
      obtain ⟨hascii, hlength⟩ : IsAsciiText lead ∧ lead.length = 8 := by
        have hmem := List.mem_of_find?_eq_some hlead
        simp only [List.mem_cons, List.not_mem_nil, or_false] at hmem
        rcases hmem with rfl | rfl <;> decide
      have htake := length_of_lower hlower
      rw [hlength, List.length_take] at htake
      refine isCharBoundary_of_ascii (m := 8) (by omega) ?_ (by omega)
      rw [← hlength]
      exact isAsciiText_of_lower hascii hlower
  · intro ⟨hslice, hslice'⟩
    unfold stripNamespacePrefix
    obtain ⟨rest, hrest⟩ := ok_of_isOk
      (afterLead_isOk hslice (by decide : ∀ lead ∈ [verbatimUnc, deviceUnc], byteLength lead = 8))
    refine isOk_bind.2 ⟨rest, hrest, ?_⟩
    cases rest with
    | some tail => rfl
    | none =>
      obtain ⟨found, hfound⟩ := ok_of_isOk
        (afterLead_isOk hslice' (by decide : ∀ lead ∈ [verbatim, device], byteLength lead = 4))
      refine isOk_bind.2 ⟨found, hfound, ?_⟩
      cases found <;> rfl

/-- What a path has to be for its normalization not to panic. -/
def PathSliceable (path : List Char) : Prop :=
  path = [] ∨ '\x00' ∈ path ∨ (Sliceable 8 path ∧ Sliceable 4 path)

theorem normalizedModulePath_isOk {tables : CaseTables} {path : List Char} :
    (normalizedModulePath tables path).isOk = true ↔ PathSliceable path := by
  unfold normalizedModulePath PathSliceable
  split
  · next hempty =>
    exact ⟨fun _ => hempty.elim Or.inl fun h => Or.inr (Or.inl h), fun _ => rfl⟩
  · next hempty =>
    rw [isOk_bind]
    constructor
    · intro ⟨stripped, hstripped, _⟩
      refine Or.inr (Or.inr (stripNamespacePrefix_isOk.1 ?_))
      rw [hstripped]
      rfl
    · rintro (h | h | h)
      · exact absurd (Or.inl h) hempty
      · exact absurd (Or.inr h) hempty
      · obtain ⟨stripped, hstripped⟩ := ok_of_isOk (stripNamespacePrefix_isOk.2 h)
        exact ⟨stripped, hstripped, rfl⟩

/-- The normal form by the characters of the path. -/
def normalForm (tables : CaseTables) (path : List Char) : Option (List Char) :=
  if path = [] ∨ '\x00' ∈ path then none
  else do
    let (root, rest) ← splitRoot (withoutNamespace path)
    let components ← resolveComponents [] (rest.splitOnP isSeparator)
    return tables.toLowercase (root ++ joinComponents components)

theorem normalizedModulePath_ok {tables : CaseTables} {path : List Char} {form : Option (List Char)}
    (h : normalizedModulePath tables path = .ok form) : form = normalForm tables path := by
  unfold normalizedModulePath at h
  unfold normalForm
  split at h
  · next hempty =>
    cases h
    rw [if_pos hempty]
  · next hempty =>
    rw [if_neg hempty]
    cases hstripped : stripNamespacePrefix path with
    | error panic =>
      rw [hstripped] at h
      cases h
    | ok stripped =>
      rw [hstripped] at h
      cases h
      rw [stripNamespacePrefix_ok hstripped]

end MacTypeControl.Platform
