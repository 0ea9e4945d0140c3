import MacTypeControl.Events.SanitizedText

/-!
# Nonces in a sanitised text

A nonce is a run of exactly 32 hexadecimal digits. The redaction leaves no such run, but the cut
that follows it can make one out of a longer run.
-/

namespace MacTypeControl.Events

open Text

/-- Exactly 32 hexadecimal digits between other characters or the ends. -/
def NonceShape (text : List Char) : Prop :=
  ∃ before run after, text = before ++ run ++ after ∧ run.length = 32 ∧
    (∀ c ∈ run, isAsciiHexdigit c = true) ∧
    (∀ c, before.getLast? = some c → isAsciiHexdigit c = false) ∧
    ∀ c, after.head? = some c → isAsciiHexdigit c = false

/-- The same by counting: `digits` digits stand right before the text. -/
def hasNonce (digits : ℕ) : List Char → Bool
  | [] => digits == 32
  | c :: rest =>
    if isAsciiHexdigit c then hasNonce (digits + 1) rest else digits == 32 || hasNonce 0 rest

variable {run text : List Char}

theorem nonceShape_digits_iff (hrun : ∀ c ∈ run, isAsciiHexdigit c = true) :
    NonceShape run ↔ run.length = 32 := by
  constructor
  · rintro ⟨before, digits, after, rfl, hlength, -, hbefore, hafter⟩
    have hnone : before = [] := by
      rcases List.eq_nil_or_concat before with hnil | ⟨front, c, rfl⟩
      · exact hnil
      · have hdigit := hrun c (by simp)
        rw [hbefore c (by simp)] at hdigit
        cases hdigit
    have hlast : after = [] := by
      match after with
      | [] => rfl
      | c :: rest =>
        have hdigit := hrun c (by simp)
        rw [hafter c rfl] at hdigit
        cases hdigit
    rw [hnone, hlast, List.nil_append, List.append_nil]
    exact hlength
  · intro hlength
    exact ⟨[], run, [], by simp, hlength, hrun, by simp, by simp⟩

/-- A character that is no digit parts the runs before it from those behind it. -/
theorem nonceShape_append_cons_iff {c : Char} {front back : List Char}
    (hc : isAsciiHexdigit c = false) :
    NonceShape (front ++ c :: back) ↔ NonceShape front ∨ NonceShape back := by
  constructor
  · rintro ⟨before, run, after, htext, hlength, hrun, hbefore, hafter⟩
    have hout : c ∉ run := fun hmem => by
      rw [hrun c hmem] at hc
      cases hc
    rw [List.append_assoc] at htext
    rcases List.append_eq_append_iff.1 htext with ⟨gap, hgap, hback⟩ | ⟨gap, hgap, hrest⟩
    · -- the run starts behind the character
      match gap with
      | [] =>
        match run with
        | [] => cases hlength
        | d :: digits =>
          rw [List.nil_append, List.cons_append] at hback
          exact absurd (List.mem_cons.2 (Or.inl (List.cons.inj hback).1)) hout
      | d :: gap =>
        obtain ⟨rfl, hbehind⟩ := List.cons.inj hback
        have hsplit := hbehind.trans (List.append_assoc gap run after).symm
        refine Or.inr ⟨gap, run, after, hsplit, hlength, hrun, ?_, hafter⟩
        intro d hd
        refine hbefore d ?_
        rw [hgap, List.getLast?_append, List.getLast?_cons, hd]
        rfl
    · -- the run starts before the character
      rcases List.append_eq_append_iff.1 hrest with ⟨rest, hend, hafterEq⟩ | ⟨rest, hend, hafterEq⟩
      · refine Or.inl ⟨before, run, rest, ?_, hlength, hrun, hbefore, ?_⟩
        · rw [hgap, hend, List.append_assoc]
        · intro d hd
          refine hafter d ?_
          rw [hafterEq, List.head?_append, hd]
          rfl
      · match rest with
        | [] =>
          refine Or.inl ⟨before, run, [], ?_, hlength, hrun, hbefore, by simp⟩
          rw [hgap, hend, List.append_nil, List.append_nil]
        | d :: rest =>
          obtain ⟨rfl, -⟩ := List.cons.inj hafterEq
          exact absurd (hend ▸ List.mem_append_right gap (List.mem_cons_self ..)) hout
  · rintro (⟨before, run, after, rfl, hlength, hrun, hbefore, hafter⟩ |
      ⟨before, run, after, rfl, hlength, hrun, hbefore, hafter⟩)
    · refine ⟨before, run, after ++ c :: back, by simp, hlength, hrun, hbefore, fun d hd => ?_⟩
      match after with
      | [] =>
        obtain rfl := Option.some.inj hd
        exact hc
      | e :: after => exact hafter d hd
    · refine ⟨front ++ c :: before, run, after, by simp, hlength, hrun, fun d hd => ?_, hafter⟩
      rw [List.getLast?_append, List.getLast?_cons] at hd
      cases hlast : before.getLast? with
      | none =>
        rw [hlast] at hd
        obtain rfl := Option.some.inj hd
        exact hc
      | some e =>
        rw [hlast] at hd
        obtain rfl := Option.some.inj hd
        exact hbefore e hlast

theorem nonceShape_iff_hasNonce (hrun : ∀ c ∈ run, isAsciiHexdigit c = true) :
    NonceShape (run ++ text) ↔ hasNonce run.length text = true := by
  induction text generalizing run with
  | nil =>
    rw [List.append_nil, nonceShape_digits_iff hrun]
    exact beq_iff_eq.symm
  | cons c rest ih =>
    unfold hasNonce
    split
    · next hc =>
      have hmore : ∀ d ∈ run ++ [c], isAsciiHexdigit d = true := by
        intro d hd
        rcases List.mem_append.1 hd with hold | hnew
        · exact hrun d hold
        · rw [List.mem_singleton.1 hnew]
          exact hc
      have h := ih hmore
      rwa [List.append_assoc, List.length_append] at h
    · next hc =>
      have hrest : NonceShape rest ↔ hasNonce 0 rest = true :=
        @ih [] (fun _ hd => absurd hd List.not_mem_nil)
      rw [nonceShape_append_cons_iff (Bool.eq_false_iff.2 hc), nonceShape_digits_iff hrun, hrest,
        Bool.or_eq_true, beq_iff_eq]

theorem hasNonce_iff : NonceShape text ↔ hasNonce 0 text = true :=
  @nonceShape_iff_hasNonce [] text (fun _ hc => absurd hc List.not_mem_nil)

/-! ## The redaction leaves no nonce -/

theorem not_nonceShape_redactRun (hrun : ∀ c ∈ run, isAsciiHexdigit c = true) :
    ¬NonceShape (redactRun run) := by
  unfold redactRun
  split
  · rw [hasNonce_iff]
    decide +kernel
  · next hlength => rwa [nonceShape_digits_iff hrun]

theorem not_nonceShape_redactFrom (hrun : ∀ c ∈ run, isAsciiHexdigit c = true) :
    ¬NonceShape (redactFrom run text) := by
  induction text generalizing run with
  | nil => exact not_nonceShape_redactRun hrun
  | cons c rest ih =>
    unfold redactFrom
    split
    · next hc =>
      refine ih fun d hd => ?_
      rcases List.mem_append.1 hd with hold | hnew
      · exact hrun d hold
      · rw [List.mem_singleton.1 hnew]
        exact hc
    · next hc =>
      rw [nonceShape_append_cons_iff (Bool.eq_false_iff.2 hc), not_or]
      exact ⟨not_nonceShape_redactRun hrun, ih fun _ hd => absurd hd List.not_mem_nil⟩

theorem not_nonceShape_redactNonceCandidates (text : List Char) :
    ¬NonceShape (redactNonceCandidates text) :=
  not_nonceShape_redactFrom fun _ hc => absurd hc List.not_mem_nil

/-! ## The cut -/

/-- The text is too long, and what is kept of it ends right behind the first 32 digits of a longer
run. -/
def CutsRun (text : List Char) (maximumBytes : ℕ) : Prop :=
  maximumBytes < utf8Length text ∧
    ∃ before run c after, text = before ++ run ++ c :: after ∧ run.length = 32 ∧
      (∀ d ∈ run, isAsciiHexdigit d = true) ∧
      (∀ d, before.getLast? = some d → isAsciiHexdigit d = false) ∧
      isAsciiHexdigit c = true ∧
      utf8Length (before ++ run) + utf8Length truncatedSuffix = maximumBytes

theorem utf8Size_of_digit {c : Char} (h : isAsciiHexdigit c = true) : c.utf8Size = 1 := by
  have hvalue : c.val ≤ 127 := by
    simp only [isAsciiHexdigit, Char.isDigit, Bool.or_eq_true, Bool.and_eq_true,
      decide_eq_true_eq] at h
    rcases h with (h | h) | h
    · exact UInt32.le_trans h.2 (by decide)
    · exact UInt32.le_trans h.2 (by decide)
    · exact UInt32.le_trans h.2 (by decide)
  unfold Char.utf8Size
  exact if_pos hvalue

theorem startWithin_append {front back : List Char} {room : ℕ} (h : utf8Length front = room) :
    startWithin room (front ++ back) = front := by
  induction front generalizing room with
  | nil =>
    subst h
    match back with
    | [] => rfl
    | c :: back =>
      have hpos := c.utf8Size_pos
      exact if_neg (Nat.not_le.2 hpos)
  | cons c front ih =>
    have hsize : utf8Length (c :: front) = c.utf8Size + utf8Length front := by
      simp [utf8Length]
    rw [List.cons_append, startWithin, if_pos (by omega), ih (by omega)]

/-- The character behind the kept part had no room. -/
theorem startWithin_full {room : ℕ} {c : Char} {rest : List Char}
    (h : text = startWithin room text ++ c :: rest) :
    room < utf8Length (startWithin room text) + c.utf8Size := by
  induction text generalizing room with
  | nil => cases (List.append_eq_nil_iff.1 h.symm).2
  | cons first text ih =>
    unfold startWithin at h ⊢
    split
    · next hroom =>
      rw [if_pos hroom] at h
      have hrest := ih (List.cons.inj h).2
      simp only [utf8Length, List.map_cons, List.sum_cons] at hrest ⊢
      omega
    · next hroom =>
      rw [if_neg hroom] at h
      obtain ⟨rfl, -⟩ := List.cons.inj h
      simp only [utf8Length, List.map_nil, List.sum_nil]
      omega

theorem nonceShape_truncated (kept : List Char) :
    NonceShape (kept ++ truncatedSuffix) ↔ NonceShape kept := by
  have hspace : isAsciiHexdigit ' ' = false := by decide
  have hrest : ¬NonceShape "[truncated]".toList := by
    rw [hasNonce_iff]
    decide +kernel
  change NonceShape (kept ++ ' ' :: "[truncated]".toList) ↔ _
  rw [nonceShape_append_cons_iff hspace]
  exact or_iff_left hrest

/-- A nonce at the end of the kept part was the start of a longer run. -/
theorem nonceShape_startWithin_iff {room : ℕ} (h : ¬NonceShape text) :
    NonceShape (startWithin room text) ↔
      ∃ before run c after, text = before ++ run ++ c :: after ∧ run.length = 32 ∧
        (∀ d ∈ run, isAsciiHexdigit d = true) ∧
        (∀ d, before.getLast? = some d → isAsciiHexdigit d = false) ∧
        isAsciiHexdigit c = true ∧ utf8Length (before ++ run) = room := by
  constructor
  · rintro ⟨before, run, after, hkept, hlength, hrun, hbefore, hafter⟩
    obtain ⟨rest, htext⟩ := startWithin_prefix room text
    match after with
    | d :: after =>
      refine absurd ⟨before, run, d :: after ++ rest, ?_, hlength, hrun, hbefore, ?_⟩ h
      · rw [← htext, hkept, List.append_assoc]
      · exact fun e he => hafter e he
    | [] =>
      rw [List.append_nil] at hkept
      match rest with
      | [] =>
        refine absurd ⟨before, run, [], ?_, hlength, hrun, hbefore, hafter⟩ h
        rw [← htext, hkept]
      | c :: rest =>
        have hdigit : isAsciiHexdigit c = true := by
          by_contra hc
          refine h ⟨before, run, c :: rest, ?_, hlength, hrun, hbefore, ?_⟩
          · rw [← htext, hkept]
          · intro d hd
            obtain rfl := Option.some.inj hd
            exact Bool.eq_false_iff.2 hc
        have hroom := startWithin_full htext.symm
        have hwithin := utf8Length_startWithin room text
        rw [hkept] at hroom hwithin
        rw [utf8Size_of_digit hdigit] at hroom
        refine ⟨before, run, c, rest, ?_, hlength, hrun, hbefore, hdigit, by omega⟩
        rw [← htext, hkept]
  · rintro ⟨before, run, c, after, htext, hlength, hrun, hbefore, -, hroom⟩
    rw [htext, startWithin_append hroom]
    exact ⟨before, run, [], (List.append_nil _).symm, hlength, hrun, hbefore, by simp⟩

theorem nonceShape_boundedText_iff {maximumBytes : ℕ} (h : ¬NonceShape text) :
    NonceShape (boundedText text maximumBytes) ↔ CutsRun text maximumBytes := by
  unfold boundedText CutsRun
  split
  · next hfits => exact iff_of_false h fun hcut => absurd hcut.1 (Nat.not_lt.2 hfits)
  · next hlong =>
    split
    · next hshort =>
      refine iff_of_false ?_ ?_
      · rintro ⟨before, run, after, htext, hlength, -⟩
        have hlong := congrArg List.length htext
        have htake := List.length_take_le' maximumBytes truncatedSuffix
        have hsuffix : truncatedSuffix.length = 12 := by decide +kernel
        simp only [List.length_append] at hlong
        omega
      · rintro ⟨-, before, run, c, after, -, hlength, hrun, -, -, hroom⟩
        have hsize : utf8Length run = 32 := by
          rw [← hlength]
          unfold utf8Length
          rw [List.map_congr_left fun d hd => utf8Size_of_digit (hrun d hd)]
          simp
        rw [utf8Length_append] at hroom
        omega
    · next hroom =>
      rw [nonceShape_truncated, nonceShape_startWithin_iff h, and_iff_right (Nat.lt_of_not_le hlong)]
      refine exists_congr fun before => exists_congr fun run => exists_congr fun c =>
        exists_congr fun after => ?_
      have heq : utf8Length (before ++ run) = maximumBytes - utf8Length truncatedSuffix ↔
          utf8Length (before ++ run) + utf8Length truncatedSuffix = maximumBytes := by omega
      rw [heq]

end MacTypeControl.Events
