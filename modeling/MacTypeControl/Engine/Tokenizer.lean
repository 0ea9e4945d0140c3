import Mathlib.Algebra.Group.Int.Defs
import Mathlib.Algebra.GroupWithZero.Nat
import Mathlib.Data.List.DropRight
import Mathlib.Tactic.Common

/-!
# The arguments of a setting

The renderer takes the text of a setting apart at its commas. A text that is written in quotation
marks keeps its commas. The numbers are read from what the tokenizer returns.
-/

namespace MacTypeControl.Engine

abbrev Chars := List Char

def isSpace (c : Char) : Bool := c = '\t' || c = ' '

def maxArguments : ℕ := 16

/-- An argument without the space behind it. Its first character stays. -/
def trimArgument (first : Char) (word : Chars) : Chars := first :: word.rdropWhile isSpace

/-- `CStringTokenizer::Parse` from some place on, with so many arguments to come. There is no result
where it reads behind the end of its text. -/
def parseFrom : ℕ → Chars → Option (List Chars)
  | 0, _ => some []
  | _ + 1, [] => some [[]]
  | slots + 1, text =>
    match text.dropWhile isSpace with
    | [] => some []
    | ',' :: rest => (parseFrom slots rest).map ([] :: ·)
    -- the character after an opening quotation mark is not looked at
    | ['"'] => none
    | '"' :: first :: rest =>
      let argument := first :: rest.takeWhile (· ≠ '"')
      match rest.dropWhile (· ≠ '"') with
      | [] => some [argument]
      | _ :: after =>
        match after.dropWhile (· ≠ ',') with
        | [] => some [argument]
        | _ :: rest => (parseFrom slots rest).map (argument :: ·)
    | first :: rest =>
      match rest.dropWhile (· ≠ ',') with
      | [] => some [first :: rest]
      | _ :: after => (parseFrom slots after).map (trimArgument first (rest.takeWhile (· ≠ ',')) :: ·)

def parse (text : Chars) : Option (List Chars) :=
  if text = [] then some [] else parseFrom maxArguments text

/-! ## The fields of a text without quotation marks -/

/-- The field before a comma, without the space around it. -/
def innerField (field : Chars) : Chars :=
  match field.dropWhile isSpace with
  | [] => []
  | first :: word => trimArgument first word

/-- The field at the end keeps the space behind it, and is left out if it is nothing but space. -/
def lastField (field : Chars) : List Chars :=
  if field = [] then [[]]
  else
    match field.dropWhile isSpace with
    | [] => []
    | word => [word]

/-- The fields between the commas. -/
def fieldsOf : List Chars → List Chars
  | [] => []
  | [field] => lastField field
  | field :: rest => innerField field :: fieldsOf rest

def fields (text : Chars) : List Chars := fieldsOf (text.splitOn ',')

theorem parseFrom_space {slots : ℕ} {text : Chars} (hne : text ≠ []) (h : text.dropWhile isSpace = []) :
    parseFrom (slots + 1) text = some [] := by
  cases text with
  | nil => exact absurd rfl hne
  | cons c rest => simp only [parseFrom, h]

theorem parseFrom_comma {slots : ℕ} {text rest : Chars} (h : text.dropWhile isSpace = ',' :: rest) :
    parseFrom (slots + 1) text = (parseFrom slots rest).map ([] :: ·) := by
  cases text with
  | nil => cases h
  | cons c others => simp only [parseFrom, h]

theorem parseFrom_word {slots : ℕ} {text rest : Chars} {first : Char}
    (h : text.dropWhile isSpace = first :: rest) (hcomma : first ≠ ',') (hquote : first ≠ '"') :
    parseFrom (slots + 1) text =
      match rest.dropWhile (· ≠ ',') with
      | [] => some [first :: rest]
      | _ :: after => (parseFrom slots after).map (trimArgument first (rest.takeWhile (· ≠ ',')) :: ·) := by
  cases text with
  | nil => cases h
  | cons c others =>
    simp only [parseFrom, h]
    split
    · next heq => cases heq
    · next heq => exact absurd (List.cons.inj heq).1 hcomma
    · next heq => exact absurd (List.cons.inj heq).1 hquote
    · next heq => exact absurd (List.cons.inj heq).1 hquote
    · next heq =>
      obtain ⟨rfl, rfl⟩ := List.cons.inj heq
      rfl

theorem fieldsOf_inner {field : Chars} {rest : List Chars} (h : rest ≠ []) :
    fieldsOf (field :: rest) = innerField field :: fieldsOf rest := by
  cases rest with
  | nil => exact absurd rfl h
  | cons other others => rfl

/-- A text without a quotation mark gives its fields, as many as there is room for. -/
theorem parseFrom_eq_fields {slots : ℕ} {text : Chars} (hquote : '"' ∉ text) :
    parseFrom slots text = some ((fields text).take slots) := by
  induction slots generalizing text with
  | zero => rfl
  | succ slots ih =>
    by_cases hempty : text = []
    · subst hempty
      rw [parseFrom, fields, List.splitOn_nil, fieldsOf, lastField, if_pos rfl]
      cases slots <;> rfl
    have hmem : ∀ {part : Chars} {first rest}, part.dropWhile isSpace = first :: rest →
        first ∈ part ∧ ∀ c ∈ rest, c ∈ part := fun {part} _ _ h => by
      have hsub : part.dropWhile isSpace ⊆ part := (List.dropWhile_suffix isSpace).subset
      exact ⟨hsub (h ▸ List.mem_cons_self), fun c hc => hsub (h ▸ List.mem_cons_of_mem _ hc)⟩
    by_cases hcomma : ',' ∈ text
    -- the first comma ends a field
    · obtain ⟨field, after, rfl, hfield⟩ := List.eq_append_cons_of_mem hcomma
      have hrest := ih (fun h => hquote (List.mem_append_right _ (List.mem_cons_of_mem _ h)))
      have hfields : fields (field ++ ',' :: after) = innerField field :: fields after := by
        rw [fields, List.splitOn_append_cons_self_of_not_mem hfield, fieldsOf_inner (List.splitOn_ne_nil _ _),
          fields]
      rw [hfields, List.take_succ_cons]
      cases hword : field.dropWhile isSpace with
      | nil =>
        have hall := List.dropWhile_eq_nil_iff.1 hword
        have hdrop : (field ++ ',' :: after).dropWhile isSpace = ',' :: after := by
          rw [List.dropWhile_append_of_pos hall]
          rfl
        rw [parseFrom_comma hdrop, hrest, innerField, hword]
        rfl
      | cons first word =>
        have hdrop : (field ++ ',' :: after).dropWhile isSpace = first :: (word ++ ',' :: after) := by
          rw [List.dropWhile_append, hword]
          rfl
        obtain ⟨hfirst, hword'⟩ := hmem hword
        have hplain : ∀ c ∈ word, decide (c ≠ ',') = true := fun c hc =>
          decide_eq_true fun h => hfield (h ▸ hword' c hc)
        rw [parseFrom_word hdrop (fun h => hfield (h ▸ hfirst))
          (fun h => hquote (List.mem_append_left _ (h ▸ hfirst)))]
        have hend : (word ++ ',' :: after).dropWhile (· ≠ ',') = ',' :: after := by
          rw [List.dropWhile_append_of_pos hplain]
          rfl
        have htake : (word ++ ',' :: after).takeWhile (· ≠ ',') = word := by
          rw [List.takeWhile_append_of_pos hplain]
          exact List.append_nil _
        simp only [hend, htake, hrest, innerField, hword, Option.map_some]
    · have hfields : fields text = lastField text := by
        rw [fields, List.splitOn_eq_singleton hcomma]
        rfl
      rw [hfields, lastField, if_neg hempty]
      cases hword : text.dropWhile isSpace with
      | nil => exact parseFrom_space hempty hword
      | cons first rest =>
        obtain ⟨hfirst, hrest⟩ := hmem hword
        rw [parseFrom_word hword (fun h => hcomma (h ▸ hfirst)) (fun h => hquote (h ▸ hfirst))]
        have hend : rest.dropWhile (· ≠ ',') = [] := by
          rw [List.dropWhile_eq_nil_iff]
          intro c hc
          exact decide_eq_true fun h => hcomma (h ▸ hrest c hc)
        rw [hend]
        cases slots <;> rfl

/-! ## Every text -/

theorem last_of_suffix {rest text : Chars} (h : rest <:+ text) {c : Char} (hlast : rest.getLast? = some c) :
    text.getLast? = some c := by
  obtain ⟨before, rfl⟩ := h
  rw [List.getLast?_append, hlast]
  rfl

/-- What the tokenizer does from some place on: it stops, it goes on behind a comma further to the
right, or an opening quotation mark is the last character. -/
theorem parseFrom_cases (slots : ℕ) (text : Chars) :
    (∃ arguments, parseFrom (slots + 1) text = some arguments ∧ arguments.length ≤ 1) ∨
    (∃ argument rest, rest <:+ text ∧ parseFrom (slots + 1) text = (parseFrom slots rest).map (argument :: ·)) ∨
    (parseFrom (slots + 1) text = none ∧ text.getLast? = some '"') := by
  by_cases hempty : text = []
  · exact Or.inl ⟨[[]], by rw [hempty, parseFrom], Nat.le_refl _⟩
  have hsuffix : text.dropWhile isSpace <:+ text := List.dropWhile_suffix isSpace
  have hbehind : ∀ {a : Char} {rest after : Chars}, text.dropWhile isSpace = a :: rest → after <:+ rest →
      after <:+ text := fun h hafter => by
    rw [h] at hsuffix
    exact (hafter.trans (List.suffix_cons _ _)).trans hsuffix
  cases hword : text.dropWhile isSpace with
  | nil => exact Or.inl ⟨[], parseFrom_space hempty hword, Nat.zero_le _⟩
  | cons first rest =>
    by_cases hcomma : first = ','
    · subst hcomma
      exact Or.inr (Or.inl ⟨[], rest, hbehind hword (List.suffix_refl _), parseFrom_comma hword⟩)
    by_cases hquote : first = '"'
    · subst hquote
      cases rest with
      | nil =>
        refine Or.inr (Or.inr ⟨?_, last_of_suffix hsuffix (by rw [hword]; rfl)⟩)
        cases text with
        | nil => exact absurd rfl hempty
        | cons c others => simp only [parseFrom, hword]
      | cons second rest =>
        have hparse : parseFrom (slots + 1) text =
            match rest.dropWhile (· ≠ '"') with
            | [] => some [second :: rest.takeWhile (· ≠ '"')]
            | _ :: after =>
              match after.dropWhile (· ≠ ',') with
              | [] => some [second :: rest.takeWhile (· ≠ '"')]
              | _ :: rest' => (parseFrom slots rest').map ((second :: rest.takeWhile (· ≠ '"')) :: ·) := by
          cases text with
          | nil => exact absurd rfl hempty
          | cons c others => simp only [parseFrom, hword]
        cases hclosed : rest.dropWhile (· ≠ '"') with
        | nil => exact Or.inl ⟨_, by rw [hparse, hclosed], Nat.le_refl _⟩
        | cons mark after =>
          have hafter : after <:+ second :: rest := by
            have h := List.dropWhile_suffix (l := rest) (· ≠ '"')
            rw [hclosed] at h
            exact ((List.suffix_cons mark after).trans h).trans (List.suffix_cons second rest)
          cases hnext : after.dropWhile (· ≠ ',') with
          | nil => exact Or.inl ⟨_, by rw [hparse, hclosed]; simp only [hnext]; rfl, Nat.le_refl _⟩
          | cons comma rest' =>
            have hrest' : rest' <:+ after := by
              have h := List.dropWhile_suffix (l := after) (· ≠ ',')
              rw [hnext] at h
              exact (List.suffix_cons comma rest').trans h
            exact Or.inr (Or.inl ⟨_, rest', hbehind hword (hrest'.trans hafter), by
              rw [hparse, hclosed]; simp only [hnext]; rfl⟩)
    · have hparse := @parseFrom_word slots _ _ _ hword hcomma hquote
      cases hend : rest.dropWhile (· ≠ ',') with
      | nil => exact Or.inl ⟨_, by rw [hparse, hend], Nat.le_refl _⟩
      | cons comma after =>
        have hafter : after <:+ rest := by
          have h := List.dropWhile_suffix (l := rest) (· ≠ ',')
          rw [hend] at h
          exact (List.suffix_cons comma after).trans h
        exact Or.inr (Or.inl ⟨_, after, hbehind hword hafter, by rw [hparse, hend]⟩)

theorem length_parseFrom {slots : ℕ} {text : Chars} {arguments : List Chars}
    (h : parseFrom slots text = some arguments) : arguments.length ≤ slots := by
  induction slots generalizing text arguments with
  | zero =>
    cases h
    exact Nat.le_refl _
  | succ slots ih =>
    rcases parseFrom_cases slots text with ⟨found, hparse, hlength⟩ | ⟨argument, rest, -, hparse⟩ | ⟨hparse, -⟩
    · rw [h] at hparse
      cases hparse
      omega
    · rw [h] at hparse
      obtain ⟨others, hothers, rfl⟩ := Option.map_eq_some_iff.1 hparse.symm
      exact Nat.succ_le_succ (ih hothers)
    · rw [h] at hparse
      cases hparse

theorem last_of_parseFrom_none {slots : ℕ} {text : Chars} (h : parseFrom slots text = none) :
    text.getLast? = some '"' := by
  induction slots generalizing text with
  | zero => cases h
  | succ slots ih =>
    rcases parseFrom_cases slots text with ⟨found, hparse, -⟩ | ⟨argument, rest, hrest, hparse⟩ | ⟨-, hlast⟩
    · rw [h] at hparse
      cases hparse
    · rw [h] at hparse
      exact last_of_suffix hrest (ih (Option.map_eq_none_iff.1 hparse.symm))
    · exact hlast

/-- An opening quotation mark at the end is such a text. -/
example : parse "1,\"".toList = none := rfl

end MacTypeControl.Engine
