import MacTypeControl.Json.Strings

/-!
# JSON values

The text of a whole value, objects in objects and all, and a reader that gives it back. A number is
its decimal text.
-/

namespace MacTypeControl.Json

inductive Tree where
  | null
  | bool (value : Bool)
  | number (digits : List Char)
  | text (value : List Char)
  | array (items : List Tree)
  | object (members : List (List Char × Tree))

/-! ## Printing -/

mutual

def Tree.print : Tree → List Char
  | .null => "null".toList
  | .bool true => "true".toList
  | .bool false => "false".toList
  | .number digits => digits
  | .text value => printText value
  | .array items => '[' :: (printTrees items ++ [']'])
  | .object members => opening :: (printFields members ++ [closing])

def printTrees : List Tree → List Char
  | [] => []
  | [item] => item.print
  | item :: second :: rest => item.print ++ ',' :: printTrees (second :: rest)

def printFields : List (List Char × Tree) → List Char
  | [] => []
  | [(name, value)] => printText name ++ ':' :: value.print
  | (name, value) :: second :: rest =>
    printText name ++ ':' :: (value.print ++ ',' :: printFields (second :: rest))

end

/-! ## Reading -/

def isNumberChar (c : Char) : Bool := c.isDigit || c ∈ ['-', '+', '.', 'e', 'E']

/-- What a reader makes of the characters of a number, whatever their order. -/
def NumberText (digits : List Char) : Prop := digits ≠ [] ∧ ∀ c ∈ digits, isNumberChar c = true

mutual

def readTree : (fuel : ℕ) → List Char → Option (Tree × List Char)
  | 0, _ => none
  | fuel + 1, text =>
    if text.head? = some quote then
      (readText text.tail).map fun read => (.text read.1, read.2)
    else if text.head? = some '[' then
      if text.tail.head? = some ']' then some (.array [], text.tail.tail)
      else (readTrees fuel text.tail).map fun read => (.array read.1, read.2)
    else if text.head? = some opening then
      if text.tail.head? = some closing then some (.object [], text.tail.tail)
      else (readFields fuel text.tail).map fun read => (.object read.1, read.2)
    else if "null".toList.isPrefixOf text then some (.null, text.drop 4)
    else if "true".toList.isPrefixOf text then some (.bool true, text.drop 4)
    else if "false".toList.isPrefixOf text then some (.bool false, text.drop 5)
    else if text.head?.any isNumberChar then
      some (.number (text.takeWhile isNumberChar), text.dropWhile isNumberChar)
    else none

def readTrees : (fuel : ℕ) → List Char → Option (List Tree × List Char)
  | 0, _ => none
  | fuel + 1, text => do
    let (item, rest) ← readTree fuel text
    if rest.head? = some ',' then
      let (items, rest) ← readTrees fuel rest.tail
      some (item :: items, rest)
    else if rest.head? = some ']' then some ([item], rest.tail)
    else none

def readFields : (fuel : ℕ) → List Char → Option (List (List Char × Tree) × List Char)
  | 0, _ => none
  | fuel + 1, text => do
    let (name, rest) ← readQuotedText text
    if rest.head? = some ':' then
      let (value, rest) ← readTree fuel rest.tail
      if rest.head? = some ',' then
        let (fields, rest) ← readFields fuel rest.tail
        some ((name, value) :: fields, rest)
      else if rest.head? = some closing then some ([(name, value)], rest.tail)
      else none
    else none

end

/-- A value with white space after it. -/
def readDocument (text : List Char) : Option Tree := do
  let (tree, rest) ← readTree (2 * text.length) text
  if rest.all isSpace then some tree else none

/-! ## Reading what was printed -/

mutual

/-- The numbers are made of the characters of numbers. -/
def Tree.Plain : Tree → Prop
  | .number digits => NumberText digits
  | .array items => PlainTrees items
  | .object members => PlainFields members
  | _ => True

def PlainTrees : List Tree → Prop
  | [] => True
  | item :: rest => item.Plain ∧ PlainTrees rest

def PlainFields : List (List Char × Tree) → Prop
  | [] => True
  | (_, value) :: rest => value.Plain ∧ PlainFields rest

end

theorem readText_printText (text rest : List Char) :
    readText ((printText text ++ rest).tail) = some (text, rest) := by
  have hsplit : (printText text ++ rest).tail = escape text ++ quote :: rest := by
    simp [printText]
  rw [hsplit, readText_escape]

/-- What follows a value does not go on with its number. -/
def EndsNumber (rest : List Char) : Prop := ∀ c ∈ rest.head?, isNumberChar c = false

theorem readTree_number {digits rest : List Char} (hdigits : NumberText digits)
    (hrest : EndsNumber rest) (fuel : ℕ) :
    readTree (fuel + 1) (digits ++ rest) = some (.number digits, rest) := by
  obtain ⟨hne, hall⟩ := hdigits
  have htake : rest.takeWhile isNumberChar = [] := by
    cases rest with
    | nil => rfl
    | cons c rest => simp [hrest c rfl]
  have hdrop : rest.dropWhile isNumberChar = rest := by
    cases rest with
    | nil => rfl
    | cons c rest => simp [hrest c rfl]
  cases digits with
  | nil => exact absurd rfl hne
  | cons first digits =>
    have hfirst := hall first List.mem_cons_self
    have hother : ∀ {c : Char}, isNumberChar c = false → first ≠ c := by
      rintro c hc rfl
      rw [hc] at hfirst
      cases hfirst
    have hquote := hother (show isNumberChar quote = false by decide)
    have hbracket := hother (show isNumberChar '[' = false by decide)
    have hopening := hother (show isNumberChar opening = false by decide)
    have hn := (hother (show isNumberChar 'n' = false by decide)).symm
    have ht := (hother (show isNumberChar 't' = false by decide)).symm
    have hf := (hother (show isNumberChar 'f' = false by decide)).symm
    have hnull : "null".toList.isPrefixOf (first :: digits ++ rest) = false := by
      simp [List.isPrefixOf, hn]
    have htrue : "true".toList.isPrefixOf (first :: digits ++ rest) = false := by
      simp [List.isPrefixOf, ht]
    have hfalse : "false".toList.isPrefixOf (first :: digits ++ rest) = false := by
      simp [List.isPrefixOf, hf]
    have hhead : (first :: digits ++ rest).head? = some first := rfl
    rw [readTree, hhead, if_neg (by simpa using hquote), if_neg (by simpa using hbracket),
      if_neg (by simpa using hopening), hnull, htrue, hfalse, if_neg (by decide),
      if_neg (by decide), if_neg (by decide), if_pos (by simpa using hfirst),
      List.takeWhile_append_of_pos hall, List.dropWhile_append_of_pos hall, htake, hdrop,
      List.append_nil]

theorem print_ne_nil {tree : Tree} (h : tree.Plain) : tree.print ≠ [] := by
  cases tree with
  | number digits => exact h.1
  | bool value => cases value <;> decide
  | null => decide
  | text value | array value | object value => simp [Tree.print, printText]

/-- A value begins with no bracket or brace that ends one. -/
theorem head_print_ne {tree : Tree} (h : tree.Plain) (rest : List Char) :
    (tree.print ++ rest).head? ≠ some ']' := by
  cases tree with
  | number digits =>
    obtain ⟨hne, hall⟩ := h
    cases digits with
    | nil => exact absurd rfl hne
    | cons first digits =>
      have hfirst := hall first List.mem_cons_self
      rintro ⟨⟩
      exact absurd hfirst (by decide)
  | bool value => cases value <;> simp [Tree.print]
  | null => simp [Tree.print]
  | text value =>
    simp only [Tree.print, printText, List.cons_append, List.head?_cons]
    decide
  | array items => simp [Tree.print]
  | object members =>
    simp only [Tree.print, List.cons_append, List.head?_cons]
    decide

theorem head_printTrees_ne {items : List Tree} (hne : items ≠ []) (h : PlainTrees items)
    (rest : List Char) : (printTrees items ++ rest).head? ≠ some ']' := by
  match items, h with
  | [item], h => exact head_print_ne h.1 rest
  | item :: second :: more, h =>
    have hsplit : printTrees (item :: second :: more) ++ rest =
        item.print ++ (',' :: printTrees (second :: more) ++ rest) := by
      simp [printTrees]
    rw [hsplit]
    exact head_print_ne h.1 _

theorem head_printFields {fields : List (List Char × Tree)} (hne : fields ≠ [])
    (rest : List Char) : (printFields fields ++ rest).head? = some quote := by
  match fields with
  | [(name, value)] => rfl
  | (name, value) :: second :: more => rfl

mutual

theorem readTree_print (tree : Tree) (hplain : tree.Plain) {fuel : ℕ} {rest : List Char}
    (hfuel : 2 * tree.print.length ≤ fuel) (hrest : EndsNumber rest) :
    readTree fuel (tree.print ++ rest) = some (tree, rest) := by
  have hlength := List.length_pos_iff.2 (print_ne_nil hplain)
  obtain ⟨fuel, rfl⟩ : ∃ more, fuel = more + 1 := ⟨fuel - 1, by omega⟩
  cases tree with
  | null => rfl
  | bool value => cases value <;> rfl
  | number digits => exact readTree_number hplain hrest fuel
  | text value =>
    have hhead : (printText value ++ rest).head? = some quote := rfl
    rw [Tree.print, readTree, hhead, if_pos rfl, readText_printText]
    rfl
  | array items =>
    have hsplit : (Tree.array items).print ++ rest = '[' :: (printTrees items ++ ']' :: rest) := by
      simp [Tree.print]
    rw [hsplit, readTree, List.head?_cons, List.tail_cons, if_neg (by decide), if_pos rfl]
    by_cases hitems : items = []
    · subst hitems
      rfl
    · have hinner : 2 * (printTrees items).length + 1 ≤ fuel := by
        simp only [Tree.print, List.length_cons, List.length_append] at hfuel
        omega
      rw [if_neg (head_printTrees_ne hitems hplain _), readTrees_print items hitems hplain hinner]
      rfl
  | object fields =>
    have hsplit : (Tree.object fields).print ++ rest =
        opening :: (printFields fields ++ closing :: rest) := by
      simp [Tree.print]
    rw [hsplit, readTree, List.head?_cons, List.tail_cons, if_neg (by decide), if_neg (by decide),
      if_pos rfl]
    by_cases hfields : fields = []
    · subst hfields
      rfl
    · have hinner : 2 * (printFields fields).length + 1 ≤ fuel := by
        simp only [Tree.print, List.length_cons, List.length_append] at hfuel
        omega
      rw [head_printFields hfields, if_neg (by decide),
        readFields_print fields hfields hplain hinner]
      rfl

theorem readTrees_print (items : List Tree) (hne : items ≠ []) (hplain : PlainTrees items)
    {fuel : ℕ} {rest : List Char} (hfuel : 2 * (printTrees items).length + 1 ≤ fuel) :
    readTrees fuel (printTrees items ++ ']' :: rest) = some (items, rest) := by
  obtain ⟨fuel, rfl⟩ : ∃ more, fuel = more + 1 := ⟨fuel - 1, by omega⟩
  match items, hplain with
  | [item], hplain =>
    have hitem : readTree fuel (item.print ++ ']' :: rest) = some (item, ']' :: rest) :=
      readTree_print item hplain.1 (by simp only [printTrees] at hfuel; omega)
        (by rintro c ⟨⟩; decide)
    rw [readTrees, printTrees, hitem]
    rfl
  | item :: second :: more, hplain =>
    have hsplit : printTrees (item :: second :: more) ++ ']' :: rest =
        item.print ++ ',' :: (printTrees (second :: more) ++ ']' :: rest) := by
      simp [printTrees]
    simp only [printTrees, List.length_append, List.length_cons] at hfuel
    have hitem : readTree fuel (item.print ++ ',' :: (printTrees (second :: more) ++ ']' :: rest)) =
        some (item, ',' :: (printTrees (second :: more) ++ ']' :: rest)) :=
      readTree_print item hplain.1 (by omega) (by rintro c ⟨⟩; decide)
    have hothers : readTrees fuel (printTrees (second :: more) ++ ']' :: rest) =
        some (second :: more, rest) :=
      readTrees_print (second :: more) (List.cons_ne_nil _ _) hplain.2 (by omega)
    rw [readTrees, hsplit, hitem]
    simp [hothers]

theorem readFields_print (fields : List (List Char × Tree)) (hne : fields ≠ [])
    (hplain : PlainFields fields) {fuel : ℕ} {rest : List Char}
    (hfuel : 2 * (printFields fields).length + 1 ≤ fuel) :
    readFields fuel (printFields fields ++ closing :: rest) = some (fields, rest) := by
  obtain ⟨fuel, rfl⟩ : ∃ more, fuel = more + 1 := ⟨fuel - 1, by omega⟩
  match fields, hplain with
  | [(name, value)], hplain =>
    simp only [printFields, List.length_append, List.length_cons] at hfuel
    have hvalue : readTree fuel (value.print ++ closing :: rest) = some (value, closing :: rest) :=
      readTree_print value hplain.1 (by omega) (by rintro c ⟨⟩; decide)
    have hsplit : printFields [(name, value)] ++ closing :: rest =
        printText name ++ ':' :: (value.print ++ closing :: rest) := by
      simp [printFields]
    rw [readFields, hsplit, readQuotedText_printText]
    simp [hvalue, show closing ≠ ',' by decide]
  | (name, value) :: second :: more, hplain =>
    simp only [printFields, List.length_append, List.length_cons] at hfuel
    have hvalue : readTree fuel
        (value.print ++ ',' :: (printFields (second :: more) ++ closing :: rest)) =
        some (value, ',' :: (printFields (second :: more) ++ closing :: rest)) :=
      readTree_print value hplain.1 (by omega) (by rintro c ⟨⟩; decide)
    have hothers : readFields fuel (printFields (second :: more) ++ closing :: rest) =
        some (second :: more, rest) :=
      readFields_print (second :: more) (List.cons_ne_nil _ _) hplain.2 (by omega)
    have hsplit : printFields ((name, value) :: second :: more) ++ closing :: rest =
        printText name ++ ':' ::
          (value.print ++ ',' :: (printFields (second :: more) ++ closing :: rest)) := by
      simp [printFields]
    rw [readFields, hsplit, readQuotedText_printText]
    simp [hvalue, hothers]

end

/-- A printed value is read back. -/
theorem readDocument_print {tree : Tree} (hplain : tree.Plain) {space : List Char}
    (hspace : space.all isSpace = true) : readDocument (tree.print ++ space) = some tree := by
  have hends : EndsNumber space := by
    intro c hc
    have hsome := List.all_eq_true.1 hspace c (List.mem_of_mem_head? hc)
    simp only [isSpace, decide_eq_true_eq, List.mem_cons, List.not_mem_nil, or_false] at hsome
    have hnumber : ∀ n, n = 0x20 ∨ n = 0x09 ∨ n = 0x0A ∨ n = 0x0D →
        isNumberChar (Char.ofNat n) = false := by
      rintro n (rfl | rfl | rfl | rfl) <;> decide
    have hchar := hnumber c.toNat hsome
    rwa [Char.ofNat_toNat] at hchar
  have hread : readTree (2 * (tree.print ++ space).length) (tree.print ++ space) =
      some (tree, space) :=
    readTree_print tree hplain (by rw [List.length_append]; omega) hends
  rw [readDocument, hread]
  show (if space.all isSpace = true then some tree else none) = some tree
  rw [if_pos hspace]

end MacTypeControl.Json
