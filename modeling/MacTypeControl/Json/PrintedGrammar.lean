import MacTypeControl.Json.Grammar
import MacTypeControl.Json.Tree
import MacTypeControl.Text.Utf8Bytes

/-!
# Printed values in the grammar

The bytes of a printed value are a text of the grammar exactly where no text in it needs a Unicode
escape.
-/

namespace MacTypeControl.Json

open Text

/-! ## What a printed value stands for -/

mutual

def Tree.value : Tree → Grammar.Value
  | .null => .null
  | .bool value => .bool value
  | .number digits => .number (encodeUtf8 digits)
  | .text value => .string (encodeUtf8 value)
  | .array items => .array (valuesOfTrees items)
  | .object members => .object (valuesOfFields members)

def valuesOfTrees : List Tree → List Grammar.Value
  | [] => []
  | item :: rest => item.value :: valuesOfTrees rest

def valuesOfFields : List (List Char × Tree) → List (List UInt8 × Grammar.Value)
  | [] => []
  | (name, value) :: rest => (encodeUtf8 name, value.value) :: valuesOfFields rest

end

mutual

/-- All texts of a value, the names of members too. -/
def Tree.texts : Tree → List (List Char)
  | .text value => [value]
  | .array items => textsOfTrees items
  | .object members => textsOfFields members
  | _ => []

def textsOfTrees : List Tree → List (List Char)
  | [] => []
  | item :: rest => item.texts ++ textsOfTrees rest

def textsOfFields : List (List Char × Tree) → List (List Char)
  | [] => []
  | (name, value) :: rest => name :: (value.texts ++ textsOfFields rest)

end

mutual

def Tree.numbers : Tree → List (List Char)
  | .number digits => [digits]
  | .array items => numbersOfTrees items
  | .object members => numbersOfFields members
  | _ => []

def numbersOfTrees : List Tree → List (List Char)
  | [] => []
  | item :: rest => item.numbers ++ numbersOfTrees rest

def numbersOfFields : List (List Char × Tree) → List (List Char)
  | [] => []
  | (_, value) :: rest => value.numbers ++ numbersOfFields rest

end

/-- The character is printed without a Unicode escape. -/
def Short (c : Char) : Prop := 0x20 ≤ c.toNat ∨ c ∈ shortEscapes.map Prod.fst

instance : DecidablePred Short := fun c =>
  inferInstanceAs (Decidable (0x20 ≤ c.toNat ∨ c ∈ shortEscapes.map Prod.fst))

def ShortText (text : List Char) : Prop := ∀ c ∈ text, Short c

instance : DecidablePred ShortText := List.decidableBAll Short

/-! ## Texts -/

theorem encodeUtf8_ascii {c : Char} (h : c.toNat < 0x80) (rest : List Char) :
    encodeUtf8 (c :: rest) = UInt8.ofNat c.toNat :: encodeUtf8 rest := by
  rw [encodeUtf8_cons, utf8EncodeChar_ascii h, List.singleton_append]

theorem isText_append {front back content content' : List UInt8}
    (hfront : Grammar.IsText front content) (hback : Grammar.IsText back content') :
    Grammar.IsText (front ++ back) (content ++ content') := by
  induction hfront with
  | nil => exact hback
  | plain hcontrol hquote hbackslash _ ih => exact .plain hcontrol hquote hbackslash ih
  | escape hletter _ ih => exact .escape hletter ih

theorem isText_plain {text : List UInt8} (h : ∀ b ∈ text, 0x20 ≤ b ∧ b ≠ Grammar.quote ∧
    b ≠ Grammar.backslash) : Grammar.IsText text text := by
  induction text with
  | nil => exact .nil
  | cons b text ih =>
    obtain ⟨hcontrol, hquote, hbackslash⟩ := h b List.mem_cons_self
    exact .plain hcontrol hquote hbackslash (ih fun c hc => h c (List.mem_cons_of_mem b hc))

theorem shortEscapes_bytes {entry : Char × Char} (h : entry ∈ shortEscapes) :
    entry.1.toNat < 0x80 ∧ entry.2.toNat < 0x80 ∧
      (UInt8.ofNat entry.2.toNat, UInt8.ofNat entry.1.toNat) ∈ Grammar.escapes := by
  have hall : shortEscapes.all (fun entry => decide (entry.1.toNat < 0x80) &&
      decide (entry.2.toNat < 0x80) &&
      decide ((UInt8.ofNat entry.2.toNat, UInt8.ofNat entry.1.toNat) ∈ Grammar.escapes)) = true := by
    decide
  simpa [and_assoc] using List.all_eq_true.1 hall entry h

theorem escapeChar_plain {c : Char} (h : c ∉ shortEscapes.map Prod.fst) (hc : 0x20 ≤ c.toNat) :
    escapeChar c = [c] := by
  unfold escapeChar
  rw [lookup_shortEscapes h]
  exact if_neg (Nat.not_lt.2 hc)

/-- The bytes of a character that is printed as it is. -/
theorem plain_bytes {c : Char} (h : c ∉ shortEscapes.map Prod.fst) (hc : 0x20 ≤ c.toNat) :
    ∀ b ∈ encodeUtf8 [c], 0x20 ≤ b ∧ b ≠ Grammar.quote ∧ b ≠ Grammar.backslash := by
  intro b hb
  rw [encodeUtf8_cons, show encodeUtf8 [] = [] from rfl, List.append_nil] at hb
  have hquote : c.toNat ≠ 0x22 := by
    rintro hvalue
    rw [← Char.ofNat_toNat c, hvalue] at h
    exact h (by decide)
  have hbackslash : c.toNat ≠ 0x5C := by
    rintro hvalue
    rw [← Char.ofNat_toNat c, hvalue] at h
    exact h (by decide)
  have hvalue : b.toNat = c.toNat ∨ 0x80 ≤ b.toNat := by
    by_cases hascii : c.toNat < 0x80
    · rw [utf8EncodeChar_ascii hascii, List.mem_singleton] at hb
      rw [hb, toNat_ofNat_byte (by omega)]
      exact Or.inl rfl
    · exact Or.inr (mem_utf8EncodeChar_high (Nat.le_of_not_lt hascii) hb).1
  refine ⟨UInt8.le_iff_toNat_le.2 (show 0x20 ≤ b.toNat by omega), ?_, ?_⟩
  · rintro rfl
    have hbyte : Grammar.quote.toNat = 0x22 := rfl
    omega
  · rintro rfl
    have hbyte : Grammar.backslash.toNat = 0x5C := rfl
    omega

theorem isText_escapeChar {c : Char} (h : Short c) :
    Grammar.IsText (encodeUtf8 (escapeChar c)) (encodeUtf8 [c]) := by
  by_cases hmem : c ∈ shortEscapes.map Prod.fst
  · obtain ⟨entry, hentry, rfl⟩ := List.mem_map.1 hmem
    obtain ⟨hvalue, hletter, hescape⟩ := shortEscapes_bytes hentry
    rw [(mem_shortEscapes hentry).1, encodeUtf8_ascii (by decide), encodeUtf8_ascii hletter,
      encodeUtf8_ascii hvalue]
    exact .escape hescape .nil
  · have hc := h.resolve_right hmem
    rw [escapeChar_plain hmem hc]
    exact isText_plain (plain_bytes hmem hc)

theorem isText_escape {text : List Char} (h : ShortText text) :
    Grammar.IsText (encodeUtf8 (escape text)) (encodeUtf8 text) := by
  induction text with
  | nil => exact .nil
  | cons c text ih =>
    have hlater := ih fun d hd => h d (List.mem_cons_of_mem c hd)
    rw [← List.singleton_append, encodeUtf8_append, escape, List.flatMap_append, encodeUtf8_append]
    refine isText_append ?_ hlater
    rw [List.flatMap_singleton]
    exact isText_escapeChar (h c List.mem_cons_self)

theorem encode_printText (text : List Char) : encodeUtf8 (printText text) =
    Grammar.quote :: (encodeUtf8 (escape text) ++ [Grammar.quote]) := by
  rw [printText, encodeUtf8_ascii (by decide), encodeUtf8_append]
  rfl

/-! ## Values -/

variable {dialect : Grammar.Dialect}

/-- The numbers are numbers of the dialect. -/
def NumbersIn (dialect : Grammar.Dialect) (numbers : List (List Char)) : Prop :=
  ∀ digits ∈ numbers, Grammar.IsNumber (encodeUtf8 digits) ∧ dialect.inRange (encodeUtf8 digits)

theorem space_nil : dialect.Space [] := fun _ h => absurd h List.not_mem_nil

mutual

theorem derives_print (tree : Tree) (htexts : ∀ text ∈ tree.texts, ShortText text)
    (hnumbers : NumbersIn dialect tree.numbers) :
    Grammar.Derives dialect (.value tree.value) (encodeUtf8 tree.print) := by
  cases tree with
  | null => exact .null
  | bool value =>
    cases value
    · exact .isFalse
    · exact .isTrue
  | number digits =>
    obtain ⟨hnumber, hrange⟩ := hnumbers digits (List.mem_singleton_self digits)
    exact .number hnumber hrange
  | text value =>
    rw [Tree.print, encode_printText]
    exact .string (isText_escape (htexts value (List.mem_singleton_self value)))
  | array items =>
    rw [Tree.print, encodeUtf8_ascii (by decide)]
    by_cases hne : items = []
    · subst hne
      exact .emptyArray space_nil
    · have hitems := derives_printTrees items hne htexts hnumbers
      exact .array space_nil hitems
  | object members =>
    rw [Tree.print, encodeUtf8_ascii (by decide)]
    by_cases hne : members = []
    · subst hne
      exact .emptyObject space_nil
    · have hmembers := derives_printFields members hne htexts hnumbers
      exact .object space_nil hmembers

theorem derives_printTrees (items : List Tree) (hne : items ≠ [])
    (htexts : ∀ text ∈ textsOfTrees items, ShortText text)
    (hnumbers : NumbersIn dialect (numbersOfTrees items)) :
    Grammar.Derives dialect (.items (valuesOfTrees items))
      (encodeUtf8 (printTrees items ++ [']'])) := by
  match items, hne with
  | [item], _ =>
    have hitem := derives_print item (fun text h => htexts text (List.mem_append_left _ h))
      fun digits h => hnumbers digits (List.mem_append_left _ h)
    have hlast := Grammar.Derives.lastItem hitem space_nil
    rw [List.append_nil] at hlast
    rw [printTrees, encodeUtf8_append]
    exact hlast
  | item :: second :: rest, _ =>
    have hitem := derives_print item (fun text h => htexts text (List.mem_append_left _ h))
      fun digits h => hnumbers digits (List.mem_append_left _ h)
    have hothers := derives_printTrees (second :: rest) (List.cons_ne_nil _ _)
      (fun text h => htexts text (List.mem_append_right _ h))
      fun digits h => hnumbers digits (List.mem_append_right _ h)
    have hmore := Grammar.Derives.moreItems hitem space_nil space_nil hothers
    rw [List.append_nil] at hmore
    rw [printTrees, List.append_assoc, List.cons_append, encodeUtf8_append,
      encodeUtf8_ascii (by decide)]
    exact hmore

theorem derives_printFields (members : List (List Char × Tree)) (hne : members ≠ [])
    (htexts : ∀ text ∈ textsOfFields members, ShortText text)
    (hnumbers : NumbersIn dialect (numbersOfFields members)) :
    Grammar.Derives dialect (.members (valuesOfFields members))
      (encodeUtf8 (printFields members ++ [closing])) := by
  match members, hne with
  | [(name, value)], _ =>
    have hname := isText_escape (htexts name List.mem_cons_self)
    have hvalue := derives_print value
      (fun text h => htexts text (List.mem_cons_of_mem _ (List.mem_append_left _ h)))
      fun digits h => hnumbers digits (List.mem_append_left _ h)
    have hlast := Grammar.Derives.lastMember hname space_nil space_nil hvalue space_nil
    simp only [List.append_nil, List.nil_append] at hlast
    rw [printFields, encodeUtf8_append, encodeUtf8_append, encode_printText,
      encodeUtf8_ascii (by decide)]
    exact hlast
  | (name, value) :: second :: rest, _ =>
    have hname := isText_escape (htexts name List.mem_cons_self)
    have hvalue := derives_print value
      (fun text h => htexts text (List.mem_cons_of_mem _ (List.mem_append_left _ h)))
      fun digits h => hnumbers digits (List.mem_append_left _ h)
    have hothers := derives_printFields (second :: rest) (List.cons_ne_nil _ _)
      (fun text h => htexts text (List.mem_cons_of_mem _ (List.mem_append_right _ h)))
      fun digits h => hnumbers digits (List.mem_append_right _ h)
    have hmore :=
      Grammar.Derives.moreMembers hname space_nil space_nil hvalue space_nil space_nil hothers
    simp only [List.append_nil, List.nil_append, List.append_assoc, List.cons_append] at hmore
    rw [printFields, List.append_assoc, List.cons_append, List.append_assoc, List.cons_append,
      encodeUtf8_append, encode_printText, encodeUtf8_ascii (by decide), encodeUtf8_append,
      encodeUtf8_ascii (by decide), List.cons_append, List.append_assoc, List.cons_append]
    exact hmore

end

/-! ## Texts that need a Unicode escape -/

/-- Every backslash has a letter of that kind behind it. -/
inductive Escaped (ok : UInt8 → Prop) : List UInt8 → Prop
  | nil : Escaped ok []
  | plain {b : UInt8} {text : List UInt8} : b ≠ Grammar.backslash → Escaped ok text →
    Escaped ok (b :: text)
  | escape {letter : UInt8} {text : List UInt8} : ok letter → Escaped ok text →
    Escaped ok (Grammar.backslash :: letter :: text)

namespace Escaped

variable {ok ok' : UInt8 → Prop} {a b : List UInt8}

theorem append (ha : Escaped ok a) (hb : Escaped ok b) : Escaped ok (a ++ b) := by
  induction ha with
  | nil => exact hb
  | plain hb _ ih => exact .plain hb ih
  | escape hletter _ ih => exact .escape hletter ih

theorem of_plain (h : Grammar.backslash ∉ a) : Escaped ok a := by
  induction a with
  | nil => exact .nil
  | cons c a ih =>
    rw [List.mem_cons, not_or] at h
    exact .plain (Ne.symm h.1) (ih h.2)

theorem of_cons {c : UInt8} (hc : c ≠ Grammar.backslash) (h : Escaped ok (c :: a)) :
    Escaped ok a := by
  cases h with
  | plain _ h => exact h
  | escape => exact absurd rfl hc

theorem of_pair {letter : UInt8} (h : Escaped ok (Grammar.backslash :: letter :: a)) :
    ok letter ∧ Escaped ok a := by
  cases h with
  | plain hc _ => exact absurd rfl hc
  | escape hletter h => exact ⟨hletter, h⟩

theorem split (h : Escaped ok (a ++ b)) (ha : Escaped ok' a) : Escaped ok a ∧ Escaped ok b := by
  induction ha with
  | nil => exact ⟨.nil, h⟩
  | plain hc _ ih =>
    obtain ⟨hfront, hback⟩ := ih (h.of_cons hc)
    exact ⟨.plain hc hfront, hback⟩
  | escape _ _ ih =>
    obtain ⟨hletter, h⟩ := h.of_pair
    obtain ⟨hfront, hback⟩ := ih h
    exact ⟨.escape hletter hfront, hback⟩

theorem mono (hok : ∀ letter, ok letter → ok' letter) (h : Escaped ok a) : Escaped ok' a := by
  induction h with
  | nil => exact .nil
  | plain hc _ ih => exact .plain hc ih
  | escape hletter _ ih => exact .escape (hok _ hletter) ih

end Escaped

/-- The letter is not the one of a Unicode escape. -/
def ShortLetter (letter : UInt8) : Prop := letter ≠ 0x75

theorem escaped_isText {text content : List UInt8} (h : Grammar.IsText text content) :
    Escaped ShortLetter text := by
  induction h with
  | nil => exact .nil
  | plain _ _ hbackslash _ ih => exact .plain hbackslash ih
  | @escape letter value _ _ hmem _ ih =>
    have hall : Grammar.escapes.all (fun entry => entry.1 != 0x75) = true := by decide
    have hletter : letter ≠ 0x75 := by simpa using List.all_eq_true.1 hall _ hmem
    exact .escape hletter ih

theorem backslash_not_mem_digits {text : List UInt8} (h : Grammar.Digits text) :
    Grammar.backslash ∉ text := fun hmem => absurd (h.2 _ hmem) (by decide)

theorem backslash_not_mem_number {token : List UInt8} (h : Grammar.IsNumber token) :
    Grammar.backslash ∉ token := by
  obtain ⟨sign, hsign, integer, fraction, exponent, rfl, hinteger, hfraction, hexponent⟩ := h.parts
  simp only [List.mem_append, not_or]
  refine ⟨⟨⟨?_, ?_⟩, ?_⟩, ?_⟩
  · have hall : ∀ sign ∈ [[], [Grammar.minus]], Grammar.backslash ∉ sign := by decide
    exact hall sign hsign
  · rcases hinteger with rfl | ⟨hdigits, -⟩
    · decide
    · exact backslash_not_mem_digits hdigits
  · rcases hfraction with rfl | ⟨digits, rfl, hdigits⟩
    · exact List.not_mem_nil
    · rw [List.mem_cons, not_or]
      exact ⟨by decide, backslash_not_mem_digits hdigits⟩
  · rcases hexponent with rfl | ⟨mark, hmark, sign, hsign, digits, rfl, hdigits⟩
    · exact List.not_mem_nil
    · have hmarks : Grammar.backslash ∉ Grammar.exponentMarks := by decide
      have hsigns : ∀ sign ∈ [[], [Grammar.plus], [Grammar.minus]], Grammar.backslash ∉ sign := by
        decide
      rw [List.mem_cons, not_or, List.mem_append, not_or]
      exact ⟨fun h => hmarks (h ▸ hmark), hsigns sign hsign, backslash_not_mem_digits hdigits⟩

theorem escaped_space {space : List UInt8} (hbackslash : dialect.isSpace Grammar.backslash = false)
    (h : dialect.Space space) : Escaped ShortLetter space := by
  refine .of_plain fun hmem => ?_
  rw [h _ hmem] at hbackslash
  cases hbackslash

/-- A text of the grammar has no Unicode escape. -/
theorem escaped_derives {shape : Grammar.Shape} {text : List UInt8}
    (hbackslash : dialect.isSpace Grammar.backslash = false)
    (h : Grammar.Derives dialect shape text) : Escaped ShortLetter text := by
  have hspaced {space : List UInt8} (h : dialect.Space space) := escaped_space hbackslash h
  have hquoted {text content : List UInt8} (h : Grammar.IsText text content) :
      Escaped ShortLetter (Grammar.quote :: (text ++ [Grammar.quote])) :=
    .plain (by decide) ((escaped_isText h).append (.of_plain (by decide)))
  induction h with
  | null | isTrue | isFalse => exact .of_plain (by decide)
  | number hnumber _ => exact .of_plain (backslash_not_mem_number hnumber)
  | string htext => exact hquoted htext
  | emptyArray hspace | emptyObject hspace =>
    exact .plain (by decide) ((hspaced hspace).append (.of_plain (by decide)))
  | array hspace _ ih | object hspace _ ih => exact .plain (by decide) ((hspaced hspace).append ih)
  | lastItem _ hspace ih => exact (ih.append (hspaced hspace)).append (.of_plain (by decide))
  | moreItems _ hspace hspace' _ ih ih' =>
    exact (ih.append (hspaced hspace)).append (.plain (by decide) ((hspaced hspace').append ih'))
  | lastMember hkey hspace₁ hspace₂ _ hspace ih =>
    exact ((((hquoted hkey).append (hspaced hspace₁)).append
      (.plain (by decide) ((hspaced hspace₂).append ih))).append (hspaced hspace)).append
        (.of_plain (by decide))
  | moreMembers hkey hspace₁ hspace₂ _ hspace hspace' _ ih ih' =>
    exact ((((hquoted hkey).append (hspaced hspace₁)).append
      (.plain (by decide) ((hspaced hspace₂).append ih))).append (hspaced hspace)).append
        (.plain (by decide) ((hspaced hspace').append ih'))

/-- Printed texts keep their backslashes apart, and show whether they are all short. -/
structure Reveals (text : List UInt8) (texts : List (List Char)) : Prop where
  escaped : Escaped (fun _ => True) text
  short : Escaped ShortLetter text → ∀ text ∈ texts, ShortText text

namespace Reveals

variable {a b : List UInt8} {texts texts' : List (List Char)}

theorem append (ha : Reveals a texts) (hb : Reveals b texts') :
    Reveals (a ++ b) (texts ++ texts') where
  escaped := ha.escaped.append hb.escaped
  short h := by
    obtain ⟨h, h'⟩ := h.split ha.escaped
    exact List.forall_mem_append.2 ⟨ha.short h, hb.short h'⟩

theorem of_plain (h : Grammar.backslash ∉ a) : Reveals a [] where
  escaped := .of_plain h
  short _ _ hmem := absurd hmem List.not_mem_nil

theorem cons {c : UInt8} (hc : c ≠ Grammar.backslash) (ha : Reveals a texts) :
    Reveals (c :: a) texts :=
  (of_plain fun h => hc (List.mem_singleton.1 h).symm).append ha

theorem snoc {c : UInt8} (hc : c ≠ Grammar.backslash) (ha : Reveals a texts) :
    Reveals (a ++ [c]) texts := by
  have h := ha.append (of_plain fun h => hc (List.mem_singleton.1 h).symm)
  rwa [List.append_nil] at h

end Reveals

theorem escapeChar_unicode {c : Char} (h : ¬Short c) : escapeChar c =
    [backslash, 'u', '0', '0', hexDigit (c.toNat / 16), hexDigit (c.toNat % 16)] := by
  obtain ⟨hcontrol, hmem⟩ := not_or.1 h
  unfold escapeChar
  rw [lookup_shortEscapes hmem]
  exact if_pos (Nat.not_le.1 hcontrol)

theorem backslash_not_mem_hex {n : ℕ} (h : n < 0x20) :
    Grammar.backslash ∉ encodeUtf8 ['0', '0', hexDigit (n / 16), hexDigit (n % 16)] := by
  have hall : (List.range 0x20).all (fun n => decide (Grammar.backslash ∉
      encodeUtf8 ['0', '0', hexDigit (n / 16), hexDigit (n % 16)])) = true := by
    decide
  simpa using List.all_eq_true.1 hall n (List.mem_range.2 h)

theorem reveals_escapeChar (c : Char) : Reveals (encodeUtf8 (escapeChar c)) [[c]] := by
  by_cases hshort : Short c
  · refine ⟨(escaped_isText (isText_escapeChar hshort)).mono fun _ _ => trivial, fun _ => ?_⟩
    simpa [ShortText] using hshort
  · have hcontrol : c.toNat < 0x20 := Nat.not_le.1 (not_or.1 hshort).1
    have hdigits := backslash_not_mem_hex hcontrol
    rw [escapeChar_unicode hshort, encodeUtf8_ascii (by decide), encodeUtf8_ascii (by decide)]
    exact ⟨.escape trivial (.of_plain hdigits), fun h => absurd rfl h.of_pair.1⟩

theorem reveals_escape (text : List Char) : Reveals (encodeUtf8 (escape text)) [text] := by
  induction text with
  | nil => exact ⟨.nil, fun _ => by simp [ShortText]⟩
  | cons c text ih =>
    have h := (reveals_escapeChar c).append ih
    rw [escape, List.flatMap_cons, encodeUtf8_append]
    refine ⟨h.escaped, fun hshort => ?_⟩
    have hboth := h.short hshort
    simpa [ShortText] using hboth

theorem reveals_printText (text : List Char) : Reveals (encodeUtf8 (printText text)) [text] := by
  rw [encode_printText]
  exact ((reveals_escape text).snoc (by decide)).cons (by decide)

mutual

theorem reveals_print (tree : Tree) (hnumbers : NumbersIn dialect tree.numbers) :
    Reveals (encodeUtf8 tree.print) tree.texts := by
  cases tree with
  | null => exact .of_plain (by decide)
  | bool value =>
    cases value
    · exact .of_plain (by decide)
    · exact .of_plain (by decide)
  | number digits =>
    exact .of_plain (backslash_not_mem_number (hnumbers digits (List.mem_singleton_self digits)).1)
  | text value => exact reveals_printText value
  | array items =>
    rw [Tree.print, encodeUtf8_ascii (by decide), encodeUtf8_append]
    exact ((reveals_printTrees items hnumbers).snoc (by decide)).cons (by decide)
  | object members =>
    rw [Tree.print, encodeUtf8_ascii (by decide), encodeUtf8_append]
    exact ((reveals_printFields members hnumbers).snoc (by decide)).cons (by decide)

theorem reveals_printTrees (items : List Tree)
    (hnumbers : NumbersIn dialect (numbersOfTrees items)) :
    Reveals (encodeUtf8 (printTrees items)) (textsOfTrees items) := by
  match items with
  | [] => exact .of_plain List.not_mem_nil
  | [item] =>
    have hitem := reveals_print item fun digits h => hnumbers digits (List.mem_append_left _ h)
    rw [printTrees, textsOfTrees, textsOfTrees, List.append_nil]
    exact hitem
  | item :: second :: rest =>
    have hitem := reveals_print item fun digits h => hnumbers digits (List.mem_append_left _ h)
    have hothers := reveals_printTrees (second :: rest)
      fun digits h => hnumbers digits (List.mem_append_right _ h)
    rw [printTrees, encodeUtf8_append, encodeUtf8_ascii (by decide)]
    exact hitem.append (hothers.cons (by decide))

theorem reveals_printFields (members : List (List Char × Tree))
    (hnumbers : NumbersIn dialect (numbersOfFields members)) :
    Reveals (encodeUtf8 (printFields members)) (textsOfFields members) := by
  match members with
  | [] => exact .of_plain List.not_mem_nil
  | [(name, value)] =>
    have hvalue := reveals_print value fun digits h => hnumbers digits (List.mem_append_left _ h)
    rw [printFields, encodeUtf8_append, encodeUtf8_ascii (by decide), textsOfFields, textsOfFields,
      List.append_nil]
    exact (reveals_printText name).append (hvalue.cons (by decide))
  | (name, value) :: second :: rest =>
    have hvalue := reveals_print value fun digits h => hnumbers digits (List.mem_append_left _ h)
    have hothers := reveals_printFields (second :: rest)
      fun digits h => hnumbers digits (List.mem_append_right _ h)
    rw [printFields, encodeUtf8_append, encodeUtf8_ascii (by decide), encodeUtf8_append,
      encodeUtf8_ascii (by decide)]
    exact (reveals_printText name).append ((hvalue.append (hothers.cons (by decide))).cons
      (by decide))

end

theorem isDocument_of_derives {value : Grammar.Value} {text : List UInt8}
    (h : Grammar.Derives dialect (.value value) text) : Grammar.IsDocument dialect value text :=
  ⟨[], text, [], space_nil, h, space_nil, by simp⟩

/-- A printed value is a document exactly where all its texts are short. -/
theorem isDocument_print_iff {tree : Tree} (hnumbers : NumbersIn dialect tree.numbers)
    (hbackslash : dialect.isSpace Grammar.backslash = false) :
    (∃ value, Grammar.IsDocument dialect value (encodeUtf8 tree.print)) ↔
      ∀ text ∈ tree.texts, ShortText text := by
  constructor
  · rintro ⟨value, space, text, space', hspace, hderives, hspace', hdocument⟩
    refine (reveals_print tree hnumbers).short ?_
    rw [hdocument]
    exact ((escaped_space hbackslash hspace).append (escaped_derives hbackslash hderives)).append
      (escaped_space hbackslash hspace')
  · intro htexts
    exact ⟨tree.value, isDocument_of_derives (derives_print tree htexts hnumbers)⟩

end MacTypeControl.Json
