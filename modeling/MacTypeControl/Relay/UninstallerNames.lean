import MacTypeControl.Injection.TargetValidation
import MacTypeControl.Relay.Classification
import MacTypeControl.Text.Chars
import MacTypeControl.Text.Utf16
import Mathlib.Data.List.TakeDrop

/-!
# Names of uninstallers

The service and the relay have a matcher each, over text that they read from the same units. Both
match the same names.
-/

namespace MacTypeControl.Relay

open Injection Text

/-! ## Characters -/

def replacementCharacter : Char := Char.ofNat 0xFFFD

/-- A unit as the relay reads it. Half of a surrogate pair is like no character of its tables. -/
def wideChar (unit : UInt16) : Char :=
  if isSurrogate unit then replacementCharacter else Char.ofNat unit.toNat

/-- UTF-16 text with a replacement for each unpaired surrogate. -/
def decodeUtf16Lossy : List UInt16 → List Char
  | [] => []
  | unit :: rest =>
    if !isSurrogate unit then Char.ofNat unit.toNat :: decodeUtf16Lossy rest
    else if isLowSurrogate unit then replacementCharacter :: decodeUtf16Lossy rest
    else match rest with
      | [] => [replacementCharacter]
      | low :: others =>
        if isLowSurrogate low then ofSurrogates unit low :: decodeUtf16Lossy others
        else replacementCharacter :: decodeUtf16Lossy (low :: others)

def IsAscii (text : List Char) : Prop := ∀ c ∈ text, c.toNat < 0x80

theorem not_isAscii_cons {c : Char} {text : List Char} (h : 0x80 ≤ c.toNat) :
    ¬IsAscii (c :: text) := by
  intro hascii
  have := hascii c List.mem_cons_self
  omega

theorem IsAscii.tail {c : Char} {text : List Char} (h : IsAscii (c :: text)) : IsAscii text :=
  fun d hd => h d (List.mem_cons_of_mem c hd)

theorem wideChar_of_surrogate {unit : UInt16} (h : isSurrogate unit = true) :
    wideChar unit = replacementCharacter := if_pos h

theorem ofSurrogates_nonascii {high low : UInt16} (hsurrogate : isSurrogate high = true)
    (hhigh : ¬isLowSurrogate high = true) (hlow : isLowSurrogate low = true) :
    0x80 ≤ (ofSurrogates high low).toNat := by
  simp only [isSurrogate, isLowSurrogate, Bool.and_eq_true, decide_eq_true_eq,
    UInt16.le_iff_toNat_le, UInt16.reduceToNat] at hsurrogate hhigh hlow
  unfold ofSurrogates
  rw [toNat_ofNat]
  · omega
  · unfold Nat.isValidChar
    omega

/-- ASCII text is read alike, and nothing else is read as ASCII text. -/
theorem decodeUtf16Lossy_of_ascii : ∀ {text : List UInt16},
    IsAscii (decodeUtf16Lossy text) ∨ IsAscii (text.map wideChar) →
      decodeUtf16Lossy text = text.map wideChar := by
  intro text
  have hreplacement : 0x80 ≤ replacementCharacter.toNat := by decide
  fun_induction decodeUtf16Lossy text with
  | case1 => exact fun _ => rfl
  | case2 unit rest hplain ih =>
    intro h
    have hunit : wideChar unit = Char.ofNat unit.toNat := if_neg (by simpa using hplain)
    rw [List.map_cons, hunit] at h ⊢
    rw [ih (h.imp IsAscii.tail IsAscii.tail)]
  | case3 unit rest hsurrogate hlow ih =>
    intro h
    rw [List.map_cons, wideChar_of_surrogate (by simpa using hsurrogate)] at h
    rcases h with h | h <;> exact absurd h (not_isAscii_cons hreplacement)
  | case4 unit hsurrogate hhigh =>
    intro h
    rw [List.map_cons, wideChar_of_surrogate (by simpa using hsurrogate)] at h
    rcases h with h | h <;> exact absurd h (not_isAscii_cons hreplacement)
  | case5 unit hsurrogate hhigh low others hlow ih =>
    intro h
    have hunit : isSurrogate unit = true := by simpa using hsurrogate
    rw [List.map_cons, wideChar_of_surrogate hunit] at h
    rcases h with h | h
    · exact absurd h (not_isAscii_cons (ofSurrogates_nonascii hunit hhigh hlow))
    · exact absurd h (not_isAscii_cons hreplacement)
  | case6 unit hsurrogate hhigh low others hlow ih =>
    intro h
    rw [List.map_cons, wideChar_of_surrogate (by simpa using hsurrogate)] at h
    rcases h with h | h <;> exact absurd h (not_isAscii_cons hreplacement)

theorem toLower_eq (c : Char) : c.toLower = toAsciiLowercase c := by
  unfold Char.toLower toAsciiLowercase
  by_cases h : 'A' ≤ c ∧ c ≤ 'Z'
  · have hval : c.val ≥ 'A'.val ∧ c.val ≤ 'Z'.val := h
    rw [dif_pos hval, if_pos h]
    have hrange : 65 ≤ c.toNat ∧ c.toNat ≤ 90 := h
    apply Char.ext
    apply UInt32.toNat_inj.1
    have hright : (Char.ofNat (c.toNat + 32)).val.toNat = c.toNat + 32 :=
      toNat_ofNat (Or.inl (by omega))
    rw [hright, UInt32.toNat_add]
    show (c.toNat + 32) % 2 ^ 32 = c.toNat + 32
    omega
  · have hval : ¬(c.val ≥ 'A'.val ∧ c.val ≤ 'Z'.val) := h
    rw [dif_neg hval, if_neg h]

/-! ## Names of uninstallers -/

/-- The names, in lower case, that both matchers are for. -/
def IsUninstallerName (name : List Char) : Prop :=
  ∃ lead digits extension : List Char, (lead = [] ∨ lead = ['_']) ∧
    (∀ c ∈ digits, c.isDigit = true) ∧ (extension = "exe".toList ∨ extension = "tmp".toList) ∧
    name = lead ++ ("unins".toList ++ (digits ++ '.' :: extension))

theorem rsplitOnce_eq_some {c : Char} {text before after : List Char} :
    rsplitOnce c text = some (before, after) ↔ text = before ++ c :: after ∧ c ∉ after := by
  unfold rsplitOnce
  rw [List.span_eq_takeWhile_dropWhile]
  constructor
  · intro h
    have hreverse := List.takeWhile_append_dropWhile (p := fun x => decide (x ≠ c)) (l := text.reverse)
    cases hdrop : text.reverse.dropWhile fun x => decide (x ≠ c) with
    | nil =>
      rw [hdrop] at h
      cases h
    | cons first rest =>
      rw [hdrop] at h hreverse
      simp only [Option.some.injEq, Prod.mk.injEq] at h
      have hfirst : first = c := by
        have hnonempty : text.reverse.dropWhile (fun x => decide (x ≠ c)) ≠ [] := by
          rw [hdrop]
          exact List.cons_ne_nil first rest
        have hhead := List.head_dropWhile_not (fun x => decide (x ≠ c)) hnonempty
        simpa only [hdrop, List.head_cons, decide_eq_false_iff_not, Decidable.not_not] using hhead
      subst hfirst
      refine ⟨?_, ?_⟩
      · rw [← List.reverse_reverse text, ← hreverse, ← h.1, ← h.2]
        simp
      · rw [← h.2]
        intro hmem
        have := List.mem_takeWhile_imp (List.mem_reverse.1 hmem)
        simp at this
  · intro ⟨htext, hnot⟩
    have hafter : ∀ x ∈ after.reverse, decide (x ≠ c) = true := by
      intro x hx
      refine decide_eq_true fun h => hnot ?_
      rw [← h]
      exact List.mem_reverse.1 hx
    have hreverse : text.reverse = after.reverse ++ c :: before.reverse := by
      rw [htext]
      simp
    rw [hreverse, List.takeWhile_append_of_pos hafter, List.dropWhile_append_of_pos hafter]
    simp

theorem stripPrefix_eq_some {lead text rest : List Char} :
    stripPrefix lead text = some rest ↔ text = lead ++ rest := by
  unfold stripPrefix
  constructor
  · intro h
    split at h
    · next hlead =>
      obtain ⟨others, rfl⟩ := List.isPrefixOf_iff_prefix.1 hlead
      simpa using h
    · cases h
  · intro h
    subst h
    simp

/-- The matcher of the service. -/
theorem uninstaller_of_service {name : List Char} :
    Injection.isInnoUninstaller (String.ofList name) = true ↔ IsUninstallerName name := by
  unfold Injection.isInnoUninstaller
  rw [String.toList_ofList]
  constructor
  · intro h
    split at h
    · cases h
    next stem extension hsplit =>
    split at h
    case isFalse => cases h
    next hextension =>
    split at h
    case h_2 => cases h
    next sequence hsequence =>
    obtain ⟨hname, -⟩ := rsplitOnce_eq_some.1 hsplit
    have hstem := stripPrefix_eq_some.1 hsequence
    have hdigits : ∀ c ∈ sequence, c.isDigit = true := by simpa using h
    cases hlead : stripPrefix ['_'] stem with
    | none =>
      rw [hlead] at hstem
      refine ⟨[], sequence, extension, Or.inl rfl, hdigits, hextension, ?_⟩
      rw [hname, show stem = _ from hstem]
      simp
    | some rest =>
      rw [hlead] at hstem
      refine ⟨['_'], sequence, extension, Or.inr rfl, hdigits, hextension, ?_⟩
      rw [hname, stripPrefix_eq_some.1 hlead, show rest = _ from hstem]
      simp
  · intro ⟨lead, digits, extension, hlead, hdigits, hextension, hname⟩
    have hdot : '.' ∉ extension := by
      rcases hextension with rfl | rfl <;> decide
    have hsplit : rsplitOnce '.' name =
        some (lead ++ ("unins".toList ++ digits), extension) := by
      refine rsplitOnce_eq_some.2 ⟨?_, hdot⟩
      rw [hname]
      simp
    have hstem : stripPrefix "unins".toList ((stripPrefix ['_']
        (lead ++ ("unins".toList ++ digits))).getD (lead ++ ("unins".toList ++ digits))) =
          some digits := by
      refine stripPrefix_eq_some.2 ?_
      rcases hlead with rfl | rfl
      · rfl
      · rfl
    rw [hsplit]
    dsimp only
    rw [if_pos hextension, hstem]
    simpa using hdigits

theorem fromLast_eq_none {c : Char} {text : List Char} : fromLast c text = none ↔ c ∉ text := by
  induction text with
  | nil => simp [fromLast]
  | cons x xs ih =>
    unfold fromLast
    cases hrest : fromLast c xs with
    | none =>
      have hxs := ih.1 hrest
      by_cases hx : x = c
      · simp [hx]
      · simp [hx, Ne.symm hx, hxs]
    | some rest =>
      have hxs : c ∈ xs := by
        by_contra hnot
        rw [ih.2 hnot] at hrest
        cases hrest
      simp [hxs]

theorem fromLast_append {c : Char} {after : List Char} (h : c ∉ after) (before : List Char) :
    fromLast c (before ++ c :: after) = some (c :: after) := by
  induction before with
  | nil => simp [fromLast, fromLast_eq_none.2 h]
  | cons x before ih => simp [fromLast, ih]

theorem fromLast_eq_some {c : Char} {text rest : List Char} (h : fromLast c text = some rest) :
    ∃ before after, rest = c :: after ∧ text = before ++ c :: after ∧ c ∉ after := by
  have hmem : c ∈ text := by
    by_contra hnot
    rw [fromLast_eq_none.2 hnot] at h
    cases h
  obtain ⟨after, before, hreverse, hafter⟩ :=
    List.eq_append_cons_of_mem (List.mem_reverse.2 hmem)
  have htext : text = before.reverse ++ c :: after.reverse := by
    rw [← List.reverse_reverse text, hreverse]
    simp
  have hlast : c ∉ after.reverse := by simpa using hafter
  refine ⟨before.reverse, after.reverse, ?_, htext, hlast⟩
  rw [htext, fromLast_append hlast, Option.some.injEq] at h
  exact h.symm

theorem sameIgnoringCase_iff {a b : List Char} :
    sameIgnoringCase a b = true ↔ a.map Char.toLower = b.map Char.toLower := beq_iff_eq

theorem eq_of_toLower {c d : Char} (hd : ¬('a' ≤ d ∧ d ≤ 'z')) (h : c.toLower = d) : c = d :=
  eq_of_toAsciiLowercase hd (toLower_eq c ▸ h)

theorem isDigit_iff {c : Char} : c.isDigit = true ↔ '0' ≤ c ∧ c ≤ '9' := by
  unfold Char.isDigit
  rw [Bool.and_eq_true, decide_eq_true_eq, decide_eq_true_eq]
  exact Iff.rfl

theorem toLower_of_isDigit {c : Char} (h : c.isDigit = true) : c.toLower = c := by
  have hrange : 48 ≤ c.toNat ∧ c.toNat ≤ 57 := isDigit_iff.1 h
  rcases toAsciiLowercase_cases c with ⟨hsame, -⟩ | ⟨hupper, -⟩
  · rw [toLower_eq, hsame]
  · have hlow : 65 ≤ c.toNat := hupper.1
    omega

/-- A digit has no case. -/
theorem toLower_digit {c : Char} : c.toLower.isDigit = true ↔ c.isDigit = true := by
  constructor
  · intro h
    have hrange : 48 ≤ c.toLower.toNat ∧ c.toLower.toNat ≤ 57 := isDigit_iff.1 h
    have hletter : ¬('a' ≤ c.toLower ∧ c.toLower ≤ 'z') := by
      intro hletter
      have hlow : 97 ≤ c.toLower.toNat := hletter.1
      omega
    rwa [← eq_of_toLower hletter rfl] at h
  · intro h
    rwa [toLower_of_isDigit h]

/-- The relay skips one underscore. -/
theorem stem_cases (name : List Char) :
    (name.head? ≠ some '_' ∧ (if name.head? = some '_' then name.tail else name) = name) ∨
      ∃ stem, name = '_' :: stem ∧ (if name.head? = some '_' then name.tail else name) = stem := by
  by_cases h : name.head? = some '_'
  · cases name with
    | nil => cases h
    | cons first stem =>
      have hfirst : first = '_' := by simpa using h
      subst hfirst
      exact Or.inr ⟨stem, rfl, rfl⟩
  · exact Or.inl ⟨h, if_neg h⟩

/-- The part of the matcher of the relay after the underscore. -/
theorem uninstaller_stem (lead : List Char) {stem before after : List Char} (hlead : '.' ∉ lead)
    (hname : lead ++ stem = before ++ '.' :: after)
    (hunins : (stem.take 5).map Char.toLower = "unins".toList)
    (hdigits : ((stem.drop 5).take ((stem.drop 5).length - ('.' :: after).length)).all
      (fun c => '0' ≤ c && c ≤ '9') = true) :
    ∃ digits, (∀ c ∈ digits, c.isDigit = true) ∧
      stem.map Char.toLower =
        "unins".toList ++ (digits ++ '.' :: after.map Char.toLower) := by
  have hdot : '.' ∉ lead ++ stem.take 5 := by
    intro hmem
    rcases List.mem_append.1 hmem with hmem | hmem
    · exact hlead hmem
    · have hlower : '.'.toLower ∈ (stem.take 5).map Char.toLower := List.mem_map_of_mem hmem
      rw [hunins] at hlower
      exact absurd hlower (by decide)
  have hsplit : (lead ++ stem.take 5) ++ stem.drop 5 = before ++ '.' :: after := by
    rw [List.append_assoc, List.take_append_drop, hname]
  obtain ⟨digits, hdrop⟩ : ∃ digits, stem.drop 5 = digits ++ '.' :: after := by
    rcases List.append_eq_append_iff.1 hsplit with ⟨more, -, hdrop⟩ | ⟨more, hstart, hrest⟩
    · exact ⟨more, hdrop⟩
    · cases more with
      | nil => exact ⟨[], by simpa using hrest.symm⟩
      | cons first more =>
        rw [List.cons_append, List.cons.injEq] at hrest
        refine absurd ?_ hdot
        rw [hstart, ← hrest.1]
        simp
  have htake : (stem.drop 5).take ((stem.drop 5).length - ('.' :: after).length) = digits := by
    rw [hdrop, List.length_append, Nat.add_sub_cancel]
    simp
  rw [htake] at hdigits
  have hall : ∀ c ∈ digits, c.isDigit = true := by
    intro c hc
    have hdigit := List.all_eq_true.1 hdigits c hc
    exact isDigit_iff.2 (by simpa using hdigit)
  have hlower : digits.map Char.toLower = digits :=
    (List.map_congr_left fun c hc => toLower_of_isDigit (hall c hc)).trans (List.map_id' digits)
  refine ⟨digits, hall, ?_⟩
  have hmap : stem.map Char.toLower =
      (stem.take 5).map Char.toLower ++ (stem.drop 5).map Char.toLower := by
    rw [← List.map_append, List.take_append_drop]
  rw [hmap, hunins, hdrop, List.map_append, hlower, List.map_cons]
  rfl

/-- What the relay finds after the underscore of such a name. -/
theorem stem_of_uninstaller (after : List Char) {unins sequence : List Char}
    (hunins : unins.map Char.toLower = "unins".toList)
    (hdigits : ∀ c ∈ sequence, c.isDigit = true) :
    sameIgnoringCase ((unins ++ (sequence ++ '.' :: after)).take 5) "unins".toList = true ∧
      (((unins ++ (sequence ++ '.' :: after)).drop 5).take
        (((unins ++ (sequence ++ '.' :: after)).drop 5).length - ('.' :: after).length)).all
          (fun c => '0' ≤ c && c ≤ '9') = true := by
  have hlength : unins.length = 5 := by
    have hsame : (unins.map Char.toLower).length = "unins".toList.length := by rw [hunins]
    simpa using hsame
  have htake : (unins ++ (sequence ++ '.' :: after)).take 5 = unins := by
    rw [← hlength, List.take_left]
  have hdrop : (unins ++ (sequence ++ '.' :: after)).drop 5 = sequence ++ '.' :: after := by
    rw [← hlength, List.drop_left]
  constructor
  · rw [htake]
    exact sameIgnoringCase_iff.2 (hunins.trans (by decide))
  · rw [hdrop, List.length_append, Nat.add_sub_cancel, List.take_left]
    refine List.all_eq_true.2 fun c hc => ?_
    simpa using isDigit_iff.1 (hdigits c hc)

/-- The matcher of the relay. -/
theorem uninstaller_of_relay {name : List Char} :
    Relay.isInnoUninstaller name = true ↔ IsUninstallerName (name.map Char.toLower) := by
  constructor
  · intro h
    unfold Relay.isInnoUninstaller at h
    split at h
    · cases h
    next extension hlast =>
    obtain ⟨before, after, rfl, hname, hafter⟩ := fromLast_eq_some hlast
    split at h
    · cases h
    next hextension =>
    have hextension : after.map Char.toLower = "exe".toList ∨
        after.map Char.toLower = "tmp".toList := by
      simp only [Bool.and_eq_true, Bool.not_eq_true', not_and, Bool.not_eq_false] at hextension
      by_cases hexe : sameIgnoringCase ('.' :: after) ".exe".toList = true
      · left
        simpa using sameIgnoringCase_iff.1 hexe
      · right
        simpa using sameIgnoringCase_iff.1 (hextension (Bool.eq_false_iff.2 hexe))
    dsimp only at h
    rcases stem_cases name with ⟨-, hstem⟩ | ⟨stem, hlead, hstem⟩
    · rw [hstem] at h
      split at h
      · cases h
      next hunins =>
      have hsame : sameIgnoringCase (name.take 5) "unins".toList = true := by simpa using hunins
      have hunins : (name.take 5).map Char.toLower = "unins".toList :=
        (sameIgnoringCase_iff.1 hsame).trans (by decide)
      obtain ⟨digits, hdigits, hmap⟩ :=
        uninstaller_stem [] (by simp) (by simpa using hname) hunins h
      exact ⟨[], digits, _, Or.inl rfl, hdigits, hextension, hmap⟩
    · rw [hstem] at h
      split at h
      · cases h
      next hunins =>
      have hsame : sameIgnoringCase (stem.take 5) "unins".toList = true := by simpa using hunins
      have hunins : (stem.take 5).map Char.toLower = "unins".toList :=
        (sameIgnoringCase_iff.1 hsame).trans (by decide)
      obtain ⟨digits, hdigits, hmap⟩ :=
        uninstaller_stem ['_'] (by decide) (by rw [← hname, hlead]; rfl) hunins h
      refine ⟨['_'], digits, _, Or.inr rfl, hdigits, hextension, ?_⟩
      rw [hlead, List.map_cons, hmap]
      rfl
  · intro ⟨lead, digits, extension, hlead, hdigits, hextension, hname⟩
    obtain ⟨start, stem, rfl, hstart, hstem⟩ := List.map_eq_append_iff.1 hname
    obtain ⟨unins, rest, rfl, hunins, hrest⟩ := List.map_eq_append_iff.1 hstem
    obtain ⟨sequence, ending, rfl, hsequence, hending⟩ := List.map_eq_append_iff.1 hrest
    obtain ⟨dot, after, rfl, hdot, hafter⟩ := List.map_eq_cons_iff.1 hending
    obtain rfl := eq_of_toLower (by decide) hdot
    have hnot : '.' ∉ after := by
      intro hmem
      have hlower : '.'.toLower ∈ after.map Char.toLower := List.mem_map_of_mem hmem
      rw [hafter] at hlower
      rcases hextension with rfl | rfl <;> exact absurd hlower (by decide)
    have hlast : fromLast '.' (start ++ (unins ++ (sequence ++ '.' :: after))) =
        some ('.' :: after) := by
      have hassoc : start ++ (unins ++ (sequence ++ '.' :: after)) =
          (start ++ (unins ++ sequence)) ++ '.' :: after := by simp
      rw [hassoc]
      exact fromLast_append hnot _
    have hending : (!sameIgnoringCase ('.' :: after) ".exe".toList &&
        !sameIgnoringCase ('.' :: after) ".tmp".toList) = false := by
      rw [← hafter] at hextension
      rcases hextension with hexe | htmp
      · have hsame : sameIgnoringCase ('.' :: after) ".exe".toList = true := by
          rw [sameIgnoringCase_iff, List.map_cons, hexe]
          decide
        rw [hsame]
        rfl
      · have hsame : sameIgnoringCase ('.' :: after) ".tmp".toList = true := by
          rw [sameIgnoringCase_iff, List.map_cons, htmp]
          decide
        rw [hsame]
        exact Bool.and_false _
    have hsequence : ∀ c ∈ sequence, c.isDigit = true := by
      intro c hc
      apply toLower_digit.1
      apply hdigits
      rw [← hsequence]
      exact List.mem_map_of_mem hc
    obtain ⟨hsame, hall⟩ := stem_of_uninstaller after hunins hsequence
    unfold Relay.isInnoUninstaller
    rw [hlast]
    dsimp only
    rw [hending]
    have hstem : (if (start ++ (unins ++ (sequence ++ '.' :: after))).head? = some '_' then
        (start ++ (unins ++ (sequence ++ '.' :: after))).tail
        else start ++ (unins ++ (sequence ++ '.' :: after))) =
          unins ++ (sequence ++ '.' :: after) := by
      rcases hlead with rfl | rfl
      · obtain rfl := List.map_eq_nil_iff.1 hstart
        refine if_neg fun hhead => ?_
        cases unins with
        | nil => cases hunins
        | cons first others =>
          have hfirst : first = '_' := by simpa using hhead
          rw [hfirst] at hunins
          cases hunins
      · obtain ⟨underscore, rfl, hunderscore⟩ := List.map_eq_singleton_iff.1 hstart
        obtain rfl := eq_of_toLower (by decide) hunderscore
        rfl
    rw [hstem, hsame]
    exact hall

end MacTypeControl.Relay
