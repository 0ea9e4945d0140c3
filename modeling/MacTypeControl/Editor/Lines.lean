import MacTypeControl.Editor.Codec

/-!
# The lines of a text and of its bytes

The text and the bytes of a code page are cut at the same places.
-/

namespace MacTypeControl.Editor

open Text

def isLineBreak (c : Char) : Bool := c == '\r' || c == '\n'

/-! ## Lines of characters -/

/-- A text is read one line break or one other character at a time. -/
theorem lineInduction {motive : Chars → Prop} (nil : motive [])
    (plain : ∀ c rest, c ≠ '\n' → c ≠ '\r' → motive rest → motive (c :: rest))
    (lineFeed : ∀ rest, motive rest → motive ('\n' :: rest))
    (pair : ∀ rest, motive rest → motive ('\r' :: '\n' :: rest))
    (carriageReturn : ∀ rest : Chars, rest.head? ≠ some '\n' → motive rest → motive ('\r' :: rest)) :
    ∀ text, motive text
  | [] => nil
  | c :: rest => by
    have hrest := lineInduction nil plain lineFeed pair carriageReturn rest
    by_cases hfeed : c = '\n'
    · exact hfeed ▸ lineFeed rest hrest
    by_cases hreturn : c = '\r'
    · subst hreturn
      match rest with
      | [] => exact carriageReturn [] (by simp) hrest
      | next :: rest =>
        by_cases hnext : next = '\n'
        · -- The pair is one break, so what holds of the text after it is used.
          subst hnext
          exact pair rest (lineInduction nil plain lineFeed pair carriageReturn rest)
        · exact carriageReturn (next :: rest) (by simpa using hnext) hrest
    · exact plain c rest hfeed hreturn hrest

theorem splitLinesFrom_plain (line rest : Chars) {c : Char} (hfeed : c ≠ '\n')
    (hreturn : c ≠ '\r') :
    splitLinesFrom line (c :: rest) = splitLinesFrom (line ++ [c]) rest := by
  simp [splitLinesFrom, hfeed, hreturn]

theorem splitLinesFrom_lineFeed (line rest : Chars) :
    splitLinesFrom line ('\n' :: rest) = (line ++ ['\n']) :: splitLinesFrom [] rest := by
  simp [splitLinesFrom]

theorem splitLinesFrom_pair (line rest : Chars) :
    splitLinesFrom line ('\r' :: '\n' :: rest) =
      (line ++ ['\r', '\n']) :: splitLinesFrom [] rest := by
  simp [splitLinesFrom]

theorem splitLinesFrom_carriageReturn (line : Chars) {rest : Chars}
    (h : rest.head? ≠ some '\n') :
    splitLinesFrom line ('\r' :: rest) = (line ++ ['\r']) :: splitLinesFrom [] rest := by
  simp [splitLinesFrom, h]

theorem flatten_splitLinesFrom (line text : Chars) :
    (splitLinesFrom line text).flatten = line ++ text := by
  induction text using lineInduction generalizing line with
  | nil => cases line <;> simp [splitLinesFrom]
  | plain c rest hfeed hreturn ih => simp [splitLinesFrom_plain line rest hfeed hreturn, ih]
  | lineFeed rest ih => simp [splitLinesFrom_lineFeed, ih]
  | pair rest ih => simp [splitLinesFrom_pair, ih]
  | carriageReturn rest h ih => simp [splitLinesFrom_carriageReturn line h, ih]

theorem flatten_splitLines (text : Chars) : (splitLines text).flatten = text :=
  flatten_splitLinesFrom [] text

def lineBreaks : List Chars := [['\n'], ['\r', '\n'], ['\r']]

/-- A text without line breaks and then one line break. -/
def IsEndedLine (line : Chars) : Prop :=
  ∃ body ending, line = body ++ ending ∧ (∀ c ∈ body, ¬isLineBreak c) ∧ ending ∈ lineBreaks

/-- All lines but the last end with a line break, and the last one may lack it. -/
inductive AreLines : List Chars → Prop
  | nil : AreLines []
  | last {line : Chars} : line ≠ [] → (∀ c ∈ line, ¬isLineBreak c) → AreLines [line]
  | cons {line : Chars} {rest : List Chars} :
    IsEndedLine line → AreLines rest → AreLines (line :: rest)

theorem areLines_splitLinesFrom (text : Chars) {line : Chars}
    (hline : ∀ c ∈ line, ¬isLineBreak c) : AreLines (splitLinesFrom line text) := by
  induction text using lineInduction generalizing line with
  | nil =>
    match line with
    | [] => exact .nil
    | c :: line => exact .last (List.cons_ne_nil c line) hline
  | plain c rest hfeed hreturn ih =>
    rw [splitLinesFrom_plain line rest hfeed hreturn]
    apply ih
    intro d hd
    rw [List.mem_append, List.mem_singleton] at hd
    rcases hd with hd | rfl
    · exact hline d hd
    · simp [isLineBreak, hfeed, hreturn]
  | lineFeed rest ih =>
    rw [splitLinesFrom_lineFeed]
    exact .cons ⟨line, ['\n'], rfl, hline, by simp [lineBreaks]⟩ (ih (by simp))
  | pair rest ih =>
    rw [splitLinesFrom_pair]
    exact .cons ⟨line, ['\r', '\n'], rfl, hline, by simp [lineBreaks]⟩ (ih (by simp))
  | carriageReturn rest h ih =>
    rw [splitLinesFrom_carriageReturn line h]
    exact .cons ⟨line, ['\r'], rfl, hline, by simp [lineBreaks]⟩ (ih (by simp))

theorem areLines_splitLines (text : Chars) : AreLines (splitLines text) :=
  areLines_splitLinesFrom text (by simp)

/-! ## Lines of bytes -/

theorem splitByteLinesFrom_plain (line bytes rest : Bytes) (hfeed : 10 ∉ bytes)
    (hreturn : 13 ∉ bytes) :
    splitByteLinesFrom line (bytes ++ rest) = splitByteLinesFrom (line ++ bytes) rest := by
  induction bytes generalizing line with
  | nil => simp
  | cons byte bytes ih =>
    have hbyte : byte ≠ 10 ∧ byte ≠ 13 :=
      ⟨fun h => hfeed (by simp [h]), fun h => hreturn (by simp [h])⟩
    rw [List.cons_append, splitByteLinesFrom.eq_def]
    simp only [if_neg hbyte.1, if_neg hbyte.2]
    rw [ih (line ++ [byte]) (fun h => hfeed (by simp [h])) (fun h => hreturn (by simp [h]))]
    simp

theorem splitByteLinesFrom_lineFeed (line rest : Bytes) :
    splitByteLinesFrom line (10 :: rest) = (line ++ [10]) :: splitByteLinesFrom [] rest := by
  rw [splitByteLinesFrom.eq_def]
  simp

theorem splitByteLinesFrom_pair (line rest : Bytes) :
    splitByteLinesFrom line (13 :: 10 :: rest) =
      (line ++ [13, 10]) :: splitByteLinesFrom [] rest := by
  rw [splitByteLinesFrom.eq_def]
  simp

theorem splitByteLinesFrom_carriageReturn (line : Bytes) {rest : Bytes}
    (h : rest.head? ≠ some 10) :
    splitByteLinesFrom line (13 :: rest) = (line ++ [13]) :: splitByteLinesFrom [] rest := by
  rw [splitByteLinesFrom.eq_def]
  match rest with
  | [] => simp [splitByteLinesFrom]
  | next :: rest => simp [show next ≠ 10 by simpa using h]

theorem flatten_splitByteLinesFrom (line bytes : Bytes) :
    (splitByteLinesFrom line bytes).flatten = line ++ bytes := by
  fun_induction splitByteLinesFrom line bytes <;> simp_all

/-! ## Code pages -/

namespace CodePage

variable (page : CodePage)

theorem encode_nil : page.encode [] = some [] := rfl

theorem encode_cons {c : Char} {text : Chars} {bytes : Bytes} :
    page.encode (c :: text) = some bytes ↔
      ∃ first others, page.encodeChar c = some first ∧ page.encode text = some others ∧
        bytes = first ++ others := by
  simp only [encode, List.mapM_cons, Option.pure_def, Option.bind_eq_bind, Option.map_eq_some_iff,
    Option.bind_eq_some_iff, Option.some.injEq]
  constructor
  · rintro ⟨_, ⟨first, hfirst, parts, hparts, rfl⟩, rfl⟩
    exact ⟨first, parts.flatten, hfirst, ⟨parts, hparts, rfl⟩, rfl⟩
  · rintro ⟨first, _, hfirst, ⟨parts, hparts, rfl⟩, rfl⟩
    exact ⟨first :: parts, ⟨first, hfirst, parts, hparts, rfl⟩, rfl⟩

theorem encode_append {a b : Chars} {bytes : Bytes} :
    page.encode (a ++ b) = some bytes ↔
      ∃ first others, page.encode a = some first ∧ page.encode b = some others ∧
        bytes = first ++ others := by
  induction a generalizing bytes with
  | nil => simp [encode_nil]
  | cons c a ih =>
    simp only [List.cons_append, encode_cons, ih]
    constructor
    · rintro ⟨one, _, hone, ⟨first, others, hfirst, hothers, rfl⟩, rfl⟩
      exact ⟨one ++ first, others, ⟨one, first, hone, hfirst, rfl⟩, hothers, by simp⟩
    · rintro ⟨_, others, ⟨one, first, hone, hfirst, rfl⟩, hothers, rfl⟩
      exact ⟨one, first ++ others, hone, ⟨first, others, hfirst, hothers, rfl⟩, by simp⟩

theorem encode_lineFeed : page.encode ['\n'] = some [10] :=
  (page.encode_cons).mpr ⟨[10], [], page.lineFeed, page.encode_nil, rfl⟩

theorem encode_carriageReturn : page.encode ['\r'] = some [13] :=
  (page.encode_cons).mpr ⟨[13], [], page.carriageReturn, page.encode_nil, rfl⟩

/-- No bytes of other text begin with a line feed. -/
theorem head_encode {text : Chars} {bytes : Bytes} (h : page.encode text = some bytes)
    (htext : text.head? ≠ some '\n') : bytes.head? ≠ some 10 := by
  match text with
  | [] => simp [Option.some.inj (page.encode_nil.symm.trans h).symm]
  | c :: text =>
    obtain ⟨first, others, hfirst, -, rfl⟩ := page.encode_cons.mp h
    obtain ⟨hne, hfeed, -⟩ := page.unbroken c first hfirst
    have hnot := hfeed (by simpa using htext)
    match first with
    | [] => exact absurd rfl hne
    | byte :: first =>
      intro hbyte
      exact hnot (by simp [show byte = 10 by simpa using hbyte])

/-- The lines of the bytes are the bytes of the lines. -/
theorem forall₂_splitLinesFrom (text : Chars) {line : Chars} {lineBytes bytes : Bytes}
    (hline : page.encode line = some lineBytes) (htext : page.encode text = some bytes) :
    List.Forall₂ (fun line bytes => page.encode line = some bytes)
      (splitLinesFrom line text) (splitByteLinesFrom lineBytes bytes) := by
  induction text using lineInduction generalizing line lineBytes bytes with
  | nil =>
    obtain rfl : [] = bytes := Option.some.inj (page.encode_nil.symm.trans htext)
    match line with
    | [] =>
      obtain rfl : [] = lineBytes := Option.some.inj (page.encode_nil.symm.trans hline)
      exact .nil
    | c :: line =>
      obtain ⟨first, others, hfirst, -, rfl⟩ := page.encode_cons.mp hline
      have hne := (page.unbroken c first hfirst).1
      simpa [splitLinesFrom, splitByteLinesFrom, hne] using hline
  | plain c rest hfeed hreturn ih =>
    obtain ⟨first, others, hfirst, hothers, rfl⟩ := page.encode_cons.mp htext
    obtain ⟨-, hnofeed, hnoreturn⟩ := page.unbroken c first hfirst
    rw [splitLinesFrom_plain line rest hfeed hreturn,
      splitByteLinesFrom_plain lineBytes first others (hnofeed hfeed) (hnoreturn hreturn)]
    refine ih (page.encode_append.mpr ⟨lineBytes, first, hline, ?_, rfl⟩) hothers
    exact page.encode_cons.mpr ⟨first, [], hfirst, page.encode_nil, by simp⟩
  | lineFeed rest ih =>
    obtain ⟨first, others, hfirst, hothers, rfl⟩ := page.encode_cons.mp htext
    obtain rfl : [10] = first := Option.some.inj (page.lineFeed.symm.trans hfirst)
    rw [splitLinesFrom_lineFeed, List.singleton_append, splitByteLinesFrom_lineFeed]
    exact .cons (page.encode_append.mpr ⟨lineBytes, [10], hline, page.encode_lineFeed, rfl⟩)
      (ih page.encode_nil hothers)
  | pair rest ih =>
    obtain ⟨first, rest', hfirst, hrest, rfl⟩ := page.encode_cons.mp htext
    obtain ⟨second, others, hsecond, hothers, rfl⟩ := page.encode_cons.mp hrest
    obtain rfl : [13] = first := Option.some.inj (page.carriageReturn.symm.trans hfirst)
    obtain rfl : [10] = second := Option.some.inj (page.lineFeed.symm.trans hsecond)
    rw [splitLinesFrom_pair, List.singleton_append, List.singleton_append, splitByteLinesFrom_pair]
    have hpair : page.encode ['\r', '\n'] = some [13, 10] :=
      page.encode_cons.mpr ⟨[13], [10], page.carriageReturn, page.encode_lineFeed, rfl⟩
    exact .cons (page.encode_append.mpr ⟨lineBytes, [13, 10], hline, hpair, rfl⟩)
      (ih page.encode_nil hothers)
  | carriageReturn rest h ih =>
    obtain ⟨first, others, hfirst, hothers, rfl⟩ := page.encode_cons.mp htext
    obtain rfl : [13] = first := Option.some.inj (page.carriageReturn.symm.trans hfirst)
    rw [splitLinesFrom_carriageReturn line h, List.singleton_append,
      splitByteLinesFrom_carriageReturn lineBytes (page.head_encode hothers h)]
    exact .cons (page.encode_append.mpr ⟨lineBytes, [13], hline, page.encode_carriageReturn, rfl⟩)
      (ih page.encode_nil hothers)

theorem forall₂_splitLines {text : Chars} {bytes : Bytes} (h : page.encode text = some bytes) :
    List.Forall₂ (fun line bytes => page.encode line = some bytes)
      (splitLines text) (splitByteLines bytes) :=
  page.forall₂_splitLinesFrom text page.encode_nil h

end CodePage

end MacTypeControl.Editor
