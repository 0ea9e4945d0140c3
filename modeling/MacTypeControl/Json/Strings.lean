import MacTypeControl.Json.Flat
import MacTypeControl.Text.Utf8

/-!
# JSON objects of texts

The text of an object whose members are texts of any characters, and a reader that gives the members
back. A quote, a backslash and the control characters are escaped.
-/

namespace MacTypeControl.Json

open Text

def hexDigit (n : ℕ) : Char := Char.ofNat (if n < 10 then 48 + n else 87 + n)

def hexValue (c : Char) : Option ℕ :=
  if c.isDigit then some (c.toNat - 48)
  else if 'a' ≤ c ∧ c ≤ 'f' then some (c.toNat - 87)
  else if 'A' ≤ c ∧ c ≤ 'F' then some (c.toNat - 55)
  else none

/-- The characters that have an escape of two characters, each with its letter. -/
def shortEscapes : List (Char × Char) :=
  [(quote, quote), (backslash, backslash), (Char.ofNat 8, 'b'), (Char.ofNat 9, 't'),
    (Char.ofNat 10, 'n'), (Char.ofNat 12, 'f'), (Char.ofNat 13, 'r')]

def escapeChar (c : Char) : List Char :=
  match shortEscapes.lookup c with
  | some letter => [backslash, letter]
  | none =>
    if c.toNat < 0x20 then
      [backslash, 'u', '0', '0', hexDigit (c.toNat / 16), hexDigit (c.toNat % 16)]
    else [c]

def escape (text : List Char) : List Char := text.flatMap escapeChar

def printText (text : List Char) : List Char := quote :: (escape text ++ [quote])

/-- The character that stands behind a backslash. -/
def unescapeLetter (letter : Char) : Option Char :=
  if letter = '/' then some '/'
  else (shortEscapes.find? fun entry => entry.2 = letter).map Prod.fst

def readHex (digits : List Char) : Option ℕ :=
  digits.foldlM (fun value digit => (hexValue digit).map (16 * value + ·)) 0

/-- The rest of a text up to its closing quote, and what follows it. -/
def readText : List Char → Option (List Char × List Char)
  | [] => none
  | c :: rest =>
    if c = quote then some ([], rest)
    else if c = backslash then
      match rest with
      | [] => none
      | letter :: rest =>
        if letter = 'u' then
          match rest with
          | d₁ :: d₂ :: d₃ :: d₄ :: rest =>
            match readHex [d₁, d₂, d₃, d₄] with
            | none => none
            | some unit =>
              if unit < 0xD800 ∨ 0xDFFF < unit then
                (readText rest).map fun read => (Char.ofNat unit :: read.1, read.2)
              else
                match rest with
                | b :: u :: e₁ :: e₂ :: e₃ :: e₄ :: rest =>
                  match readHex [e₁, e₂, e₃, e₄] with
                  | none => none
                  | some low =>
                    if b = backslash ∧ u = 'u' ∧ unit < 0xDC00 ∧ 0xDC00 ≤ low ∧ low ≤ 0xDFFF then
                      (readText rest).map fun read =>
                        (Char.ofNat (0x10000 + (unit - 0xD800) * 0x400 + (low - 0xDC00)) :: read.1,
                          read.2)
                    else none
                | _ => none
          | _ => none
        else
          match unescapeLetter letter with
          | none => none
          | some c => (readText rest).map fun read => (c :: read.1, read.2)
    else if c.toNat < 0x20 then none
    else (readText rest).map fun read => (c :: read.1, read.2)

theorem mem_shortEscapes {entry : Char × Char} (h : entry ∈ shortEscapes) :
    escapeChar entry.1 = [backslash, entry.2] ∧ entry.2 ≠ 'u' ∧
      unescapeLetter entry.2 = some entry.1 ∧
      ((escapeChar entry.1).map Char.utf8Size).sum = entry.1.utf8Size + 1 := by
  have hall : shortEscapes.all (fun entry => escapeChar entry.1 == [backslash, entry.2] &&
      entry.2 != 'u' && unescapeLetter entry.2 == some entry.1 &&
      ((escapeChar entry.1).map Char.utf8Size).sum == entry.1.utf8Size + 1) = true := by
    decide
  simpa [and_assoc] using List.all_eq_true.1 hall entry h

theorem lookup_shortEscapes {c : Char} (h : c ∉ shortEscapes.map Prod.fst) :
    shortEscapes.lookup c = none := by
  rw [List.lookup_eq_none_iff]
  intro entry hentry
  have hne : c ≠ entry.1 := fun he => h (he ▸ List.mem_map_of_mem hentry)
  simpa using hne

/-- A control character is read back from its four digits, of one byte each. -/
theorem readHex_hexDigit {n : ℕ} (h : n < 0x20) :
    readHex ['0', '0', hexDigit (n / 16), hexDigit (n % 16)] = some n ∧
      (hexDigit (n / 16)).utf8Size = 1 ∧ (hexDigit (n % 16)).utf8Size = 1 := by
  have hall : (List.range 0x20).all (fun n =>
      readHex ['0', '0', hexDigit (n / 16), hexDigit (n % 16)] == some n &&
      (hexDigit (n / 16)).utf8Size == 1 && (hexDigit (n % 16)).utf8Size == 1) = true := by
    decide
  simpa [and_assoc] using List.all_eq_true.1 hall n (List.mem_range.2 h)

/-- What an escaped character reads as. -/
theorem readText_escapeChar (c : Char) (rest : List Char) :
    readText (escapeChar c ++ rest) = (readText rest).map fun read => (c :: read.1, read.2) := by
  have hslash : backslash ≠ quote := by decide
  by_cases hshort : c ∈ shortEscapes.map Prod.fst
  · obtain ⟨entry, hentry, rfl⟩ := List.mem_map.1 hshort
    obtain ⟨hescape, hletter, hunescape, -⟩ := mem_shortEscapes hentry
    rw [hescape, List.cons_append, List.cons_append, List.nil_append, readText.eq_def]
    simp only [if_neg hslash, if_true, if_neg hletter, hunescape]
  · have hquote : c ≠ quote := fun he => hshort (he ▸ by decide)
    have hbackslash : c ≠ backslash := fun he => hshort (he ▸ by decide)
    unfold escapeChar
    rw [lookup_shortEscapes hshort]
    by_cases hcontrol : c.toNat < 0x20
    · have hhex := (readHex_hexDigit hcontrol).1
      have hscalar : c.toNat < 0xD800 ∨ 0xDFFF < c.toNat := Or.inl (by omega)
      simp only [if_pos hcontrol, List.cons_append, List.nil_append]
      rw [readText.eq_def]
      simp only [if_neg hslash, if_true, hhex, if_pos hscalar, Char.ofNat_toNat]
    · simp only [if_neg hcontrol, List.cons_append, List.nil_append]
      rw [readText.eq_def]
      simp only [if_neg hquote, if_neg hbackslash, if_neg hcontrol]

theorem readText_escape (text rest : List Char) :
    readText (escape text ++ quote :: rest) = some (text, rest) := by
  induction text with
  | nil =>
    show readText (quote :: rest) = some ([], rest)
    rw [readText.eq_def]
    simp only [if_true]
  | cons c text ih =>
    have hsplit : escape (c :: text) ++ quote :: rest =
        escapeChar c ++ (escape text ++ quote :: rest) := by
      simp [escape]
    rw [hsplit, readText_escapeChar, ih]
    rfl

/-! ## Objects -/

abbrev TextMember := List Char × List Char

def printTextMember (member : TextMember) : List Char :=
  printText member.1 ++ ':' :: printText member.2

def printTextMembers : List TextMember → List Char
  | [] => []
  | [member] => printTextMember member
  | member :: rest => printTextMember member ++ ',' :: printTextMembers rest

def printTextObject (members : List TextMember) : List Char :=
  opening :: (printTextMembers members ++ [closing])

def skipSpace (text : List Char) : List Char := text.dropWhile isSpace

/-- A text with its quotes, after white space. -/
def readQuotedText (text : List Char) : Option (List Char × List Char) :=
  if (skipSpace text).head? = some quote then readText (skipSpace text).tail else none

def readTextMember (text : List Char) : Option (TextMember × List Char) := do
  let (name, rest) ← readQuotedText text
  if (skipSpace rest).head? = some ':' then
    let (value, rest) ← readQuotedText (skipSpace rest).tail
    some ((name, value), skipSpace rest)
  else none

def readTextMembers : (fuel : ℕ) → List Char → Option (List TextMember × List Char)
  | 0, _ => none
  | fuel + 1, text => do
    let (member, rest) ← readTextMember text
    if rest.head? = some ',' then
      let (members, rest) ← readTextMembers fuel rest.tail
      some (member :: members, rest)
    else if rest.head? = some closing then some ([member], rest.tail)
    else none

/-- The members of an object that has some, with white space around it. -/
def readTextObject (text : List Char) : Option (List TextMember) :=
  if (skipSpace text).head? = some opening then do
    let (members, rest) ← readTextMembers text.length (skipSpace text).tail
    if rest.all isSpace then some members else none
  else none

theorem skipSpace_cons {c : Char} (h : isSpace c = false) (rest : List Char) :
    skipSpace (c :: rest) = c :: rest := by
  rw [skipSpace, List.dropWhile_cons, h]
  rfl

theorem readQuotedText_printText (text rest : List Char) :
    readQuotedText (printText text ++ rest) = some (text, rest) := by
  have hsplit : printText text ++ rest = quote :: (escape text ++ quote :: rest) := by
    simp [printText]
  rw [hsplit, readQuotedText, skipSpace_cons (by decide), List.head?_cons, if_pos rfl,
    List.tail_cons, readText_escape]

theorem readTextMember_printTextMember (member : TextMember) (rest : List Char) :
    readTextMember (printTextMember member ++ rest) = some (member, skipSpace rest) := by
  have hsplit : printTextMember member ++ rest =
      printText member.1 ++ (':' :: (printText member.2 ++ rest)) := by
    simp [printTextMember]
  rw [hsplit, readTextMember, readQuotedText_printText]
  simp [skipSpace_cons (show isSpace ':' = false by decide), readQuotedText_printText]

theorem readTextMembers_printTextMembers {rest : List Char} :
    ∀ {members : List TextMember} {fuel : ℕ}, members ≠ [] → members.length ≤ fuel →
      readTextMembers fuel (printTextMembers members ++ closing :: rest) = some (members, rest) := by
  intro members
  induction members with
  | nil => exact fun hmembers => absurd rfl hmembers
  | cons member members ih =>
    intro fuel _ hfuel
    cases fuel with
    | zero => simp at hfuel
    | succ fuel =>
      cases members with
      | nil =>
        rw [readTextMembers, printTextMembers, readTextMember_printTextMember,
          skipSpace_cons (by decide)]
        simp [show closing ≠ ',' by decide]
      | cons second members =>
        have hsplit : printTextMembers (member :: second :: members) ++ closing :: rest =
            printTextMember member ++
              (',' :: (printTextMembers (second :: members) ++ closing :: rest)) := by
          simp [printTextMembers]
        have hothers := ih (List.cons_ne_nil second members) (Nat.le_of_succ_le_succ hfuel)
        rw [readTextMembers, hsplit, readTextMember_printTextMember, skipSpace_cons (by decide)]
        simp [hothers]

theorem length_le_printTextMembers (members : List TextMember) :
    members.length ≤ (printTextMembers members).length := by
  induction members with
  | nil => exact Nat.le_refl 0
  | cons member members ih =>
    have hquoted : 1 ≤ (printTextMember member).length := by simp [printTextMember, printText]
    cases members with
    | nil => simpa [printTextMembers] using hquoted
    | cons second members =>
      simp only [printTextMembers, List.length_append, List.length_cons] at ih ⊢
      omega

/-- A printed object is read back. -/
theorem readTextObject_printTextObject {members : List TextMember} (hmembers : members ≠ []) :
    readTextObject (printTextObject members) = some members := by
  have hfuel : members.length ≤ (printTextObject members).length := by
    have := length_le_printTextMembers members
    simp only [printTextObject, List.length_cons, List.length_append]
    omega
  have hskip : skipSpace (printTextObject members) = printTextObject members :=
    skipSpace_cons (by decide) _
  have hhead : (printTextObject members).head? = some opening := rfl
  have htail : (printTextObject members).tail = printTextMembers members ++ closing :: [] := rfl
  rw [readTextObject, hskip, if_pos hhead, htail, readTextMembers_printTextMembers hmembers hfuel]
  rfl

/-! ## Sizes -/

/-- The bytes that escaping a character adds. -/
def escapeCost (c : Char) : ℕ :=
  if c ∈ shortEscapes.map Prod.fst then 1 else if c.toNat < 0x20 then 5 else 0

/-- The bytes of the text once it is escaped. -/
def escapedSize (text : List Char) : ℕ := (text.map fun c => c.utf8Size + escapeCost c).sum

theorem utf8Size_eq_one {c : Char} (h : c.toNat < 0x80) : c.utf8Size = 1 := by
  have hle : c.val ≤ 0x7F := by
    rw [UInt32.le_iff_toNat_le]
    show c.toNat ≤ 127
    omega
  exact if_pos hle

theorem length_escapeChar (c : Char) :
    (encodeUtf8 (escapeChar c)).length = c.utf8Size + escapeCost c := by
  rw [length_encodeUtf8]
  unfold escapeCost
  by_cases hshort : c ∈ shortEscapes.map Prod.fst
  · obtain ⟨entry, hentry, rfl⟩ := List.mem_map.1 hshort
    rw [if_pos hshort, (mem_shortEscapes hentry).2.2.2]
  · unfold escapeChar
    rw [if_neg hshort, lookup_shortEscapes hshort]
    by_cases hcontrol : c.toNat < 0x20
    · have hfour : (List.map Char.utf8Size [backslash, 'u', '0', '0']).sum = 4 := by decide
      obtain ⟨-, hhigh, hlow⟩ := readHex_hexDigit hcontrol
      dsimp only
      rw [if_pos hcontrol, if_pos hcontrol, utf8Size_eq_one (by omega)]
      simp only [List.map_cons, List.map_nil, List.sum_cons, List.sum_nil] at hfour ⊢
      omega
    · dsimp only
      rw [if_neg hcontrol, if_neg hcontrol]
      simp

theorem length_escape (text : List Char) :
    (encodeUtf8 (escape text)).length = escapedSize text := by
  induction text with
  | nil => rfl
  | cons c text ih =>
    have hsplit : escape (c :: text) = escapeChar c ++ escape text := by simp [escape]
    rw [hsplit, encodeUtf8_append, List.length_append, length_escapeChar, ih]
    simp [escapedSize]

theorem length_printText (text : List Char) :
    (encodeUtf8 (printText text)).length = escapedSize text + 2 := by
  have hquote : (encodeUtf8 [quote]).length = 1 := rfl
  have hsplit : printText text = [quote] ++ (escape text ++ [quote]) := rfl
  rw [hsplit, encodeUtf8_append, encodeUtf8_append, List.length_append, List.length_append, hquote,
    length_escape]
  omega

theorem length_printTextMember (member : TextMember) :
    (encodeUtf8 (printTextMember member)).length =
      escapedSize member.1 + escapedSize member.2 + 5 := by
  have hcolon : (encodeUtf8 [':']).length = 1 := rfl
  have hsplit : printTextMember member = printText member.1 ++ ([':'] ++ printText member.2) := rfl
  rw [hsplit, encodeUtf8_append, encodeUtf8_append, List.length_append, List.length_append, hcolon,
    length_printText, length_printText]
  omega

theorem length_printTextMembers {members : List TextMember} (h : members ≠ []) :
    (encodeUtf8 (printTextMembers members)).length + 1 =
      (members.map fun member => escapedSize member.1 + escapedSize member.2 + 6).sum := by
  induction members with
  | nil => exact absurd rfl h
  | cons member members ih =>
    cases members with
    | nil =>
      rw [printTextMembers, length_printTextMember]
      simp
    | cons second members =>
      have hcomma : (encodeUtf8 [',']).length = 1 := rfl
      have hsplit : printTextMembers (member :: second :: members) =
          printTextMember member ++ ([','] ++ printTextMembers (second :: members)) := rfl
      have hrest := ih (List.cons_ne_nil second members)
      rw [hsplit, encodeUtf8_append, encodeUtf8_append, List.length_append, List.length_append,
        hcomma, length_printTextMember, List.map_cons, List.sum_cons, ← hrest]
      omega

/-- Each member takes six bytes besides its texts, and the object one more. -/
theorem length_printTextObject {members : List TextMember} (h : members ≠ []) :
    (encodeUtf8 (printTextObject members)).length =
      (members.map fun member => escapedSize member.1 + escapedSize member.2 + 6).sum + 1 := by
  have hbraces : (encodeUtf8 [opening]).length = 1 ∧ (encodeUtf8 [closing]).length = 1 :=
    ⟨rfl, rfl⟩
  have hsplit : printTextObject members = [opening] ++ (printTextMembers members ++ [closing]) := rfl
  rw [hsplit, encodeUtf8_append, encodeUtf8_append, List.length_append, List.length_append,
    hbraces.1, hbraces.2, ← length_printTextMembers h]
  omega

end MacTypeControl.Json
