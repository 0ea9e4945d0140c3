import Mathlib.Algebra.GroupWithZero.Nat
import Mathlib.Tactic.Common

/-!
# Flat JSON objects

The text of an object whose members are numbers, plain texts and truth values, and a reader that
gives the members back. A plain text has no character that would have to be escaped.
-/

namespace MacTypeControl.Json

inductive Scalar where
  | nat (value : ℕ)
  | text (value : String)
  | bool (value : Bool)
  deriving DecidableEq

abbrev Member := String × Scalar

def quote : Char := Char.ofNat 0x22

def backslash : Char := Char.ofNat 0x5C

def opening : Char := Char.ofNat 0x7B

def closing : Char := Char.ofNat 0x7D

/-- A character of ASCII that stands for itself in a quoted text. -/
def IsPlain (c : Char) : Prop :=
  0x20 ≤ c.toNat ∧ c.toNat < 0x7F ∧ c ≠ quote ∧ c ≠ backslash

instance : DecidablePred IsPlain := fun c => by
  unfold IsPlain
  infer_instance

def PlainText (text : String) : Prop := ∀ c ∈ text.toList, IsPlain c

instance (text : String) : Decidable (PlainText text) :=
  List.decidableBAll IsPlain text.toList

/-- A number fits a word of 64 bits. -/
def Scalar.Plain : Scalar → Prop
  | .nat value => value < 2 ^ 64
  | .text value => PlainText value
  | .bool _ => True

/-- The white space between the parts of a text. -/
def isSpace (c : Char) : Bool := c.toNat ∈ [0x20, 0x09, 0x0A, 0x0D]

/-! ## Printing -/

def quoted (text : String) : List Char := quote :: text.toList ++ [quote]

def Scalar.print : Scalar → List Char
  | .nat value => Nat.toDigits 10 value
  | .text value => quoted value
  | .bool true => "true".toList
  | .bool false => "false".toList

def printMember (member : Member) : List Char := quoted member.1 ++ ':' :: member.2.print

def printMembers : List Member → List Char
  | [] => []
  | [member] => printMember member
  | member :: rest => printMember member ++ ',' :: printMembers rest

def printObject (members : List Member) : List Char :=
  opening :: printMembers members ++ [closing]

/-! ## Reading -/

def readQuoted : List Char → Option (String × List Char)
  | [] => none
  | first :: rest =>
    if first = quote then
      match rest.dropWhile (· ≠ quote) with
      | [] => none
      | _ :: after => some (String.ofList (rest.takeWhile (· ≠ quote)), after)
    else none

def readScalar (text : List Char) : Option (Scalar × List Char) :=
  if text.head? = some quote then
    (readQuoted text).map fun (value, rest) => (.text value, rest)
  else if text.head?.any Char.isDigit then
    some (.nat (Nat.ofDigitChars 10 (text.takeWhile Char.isDigit) 0), text.dropWhile Char.isDigit)
  else if "true".toList.isPrefixOf text then some (.bool true, text.drop 4)
  else if "false".toList.isPrefixOf text then some (.bool false, text.drop 5)
  else none

def readMember (text : List Char) : Option (Member × List Char) := do
  let (name, rest) ← readQuoted text
  if rest.head? = some ':' then
    let (value, rest) ← readScalar rest.tail
    some ((name, value), rest)
  else none

def readMembers : (fuel : ℕ) → List Char → Option (List Member × List Char)
  | 0, _ => none
  | fuel + 1, text => do
    let (member, rest) ← readMember text
    if rest.head? = some ',' then
      let (members, rest) ← readMembers fuel rest.tail
      some (member :: members, rest)
    else if rest.head? = some closing then some ([member], rest.tail)
    else none

/-- The members of an object that has some, with white space after it. -/
def readObject (text : List Char) : Option (List Member) :=
  if text.head? = some opening then do
    let (members, rest) ← readMembers text.length text.tail
    if rest.all isSpace then some members else none
  else none

@[simp] theorem length_quoted (text : String) : (quoted text).length = text.toList.length + 2 := by
  simp [quoted]

/-- Members of which each takes up to `n` characters, with the separators between them. -/
theorem length_printMembers_le {n : ℕ} : ∀ {members : List Member},
    (∀ member ∈ members, (printMember member).length ≤ n) →
    (printMembers members).length ≤ members.length * (n + 1) := by
  intro members
  induction members with
  | nil => exact fun _ => Nat.zero_le _
  | cons member members ih =>
    intro hlength
    obtain ⟨hfirst, hothers⟩ := List.forall_mem_cons.1 hlength
    have hrest := ih hothers
    cases members with
    | nil =>
      simp only [printMembers, List.length_cons, List.length_nil]
      omega
    | cons second members =>
      have hsplit : printMembers (member :: second :: members) =
          printMember member ++ ',' :: printMembers (second :: members) := rfl
      rw [hsplit, List.length_append, List.length_cons, List.length_cons, Nat.succ_mul]
      omega

/-! ## What is printed is ASCII -/

def Ascii (text : List Char) : Prop := ∀ c ∈ text, c.toNat < 0x80

instance (text : List Char) : Decidable (Ascii text) :=
  List.decidableBAll (fun c : Char => c.toNat < 0x80) text

theorem Ascii.append {head tail : List Char} (hhead : Ascii head) (htail : Ascii tail) :
    Ascii (head ++ tail) := by
  intro c hc
  rcases List.mem_append.1 hc with hc | hc
  · exact hhead c hc
  · exact htail c hc

theorem Ascii.cons {c : Char} {text : List Char} (hc : c.toNat < 0x80) (htext : Ascii text) :
    Ascii (c :: text) :=
  List.forall_mem_cons.2 ⟨hc, htext⟩

theorem ascii_nil : Ascii [] := fun _ h => absurd h List.not_mem_nil

theorem ascii_of_plainText {text : String} (h : PlainText text) : Ascii text.toList := by
  intro c hc
  have := (h c hc).2.1
  omega

theorem ascii_quoted {text : String} (h : PlainText text) : Ascii (quoted text) :=
  Ascii.append (Ascii.cons (by decide) (ascii_of_plainText h)) (Ascii.cons (by decide) ascii_nil)

theorem ascii_of_isSpace {text : List Char} (h : text.all isSpace = true) : Ascii text := by
  intro c hc
  have hspace := List.all_eq_true.1 h c hc
  simp only [isSpace, decide_eq_true_eq, List.mem_cons, List.not_mem_nil, or_false] at hspace
  omega

theorem toNat_lt_of_isDigit {c : Char} (h : c.isDigit = true) : c.toNat < 0x80 := by
  have hrange : 48 ≤ c.toNat ∧ c.toNat ≤ 57 := by
    simpa [Char.isDigit, UInt32.le_iff_toNat_le] using h
  omega

theorem ascii_toDigits (value : ℕ) : Ascii (Nat.toDigits 10 value) := fun _ hc =>
  toNat_lt_of_isDigit (Nat.isDigit_of_mem_toDigits (Nat.succ_pos 9) (Nat.le_refl 10) hc)

theorem ascii_printScalar {value : Scalar} (h : value.Plain) : Ascii value.print := by
  cases value with
  | nat value => exact ascii_toDigits value
  | text value => exact ascii_quoted h
  | bool value =>
    cases value
    · show Ascii "false".toList
      decide
    · show Ascii "true".toList
      decide

/-- Members that are printed as they are. -/
def PlainMember (member : Member) : Prop := PlainText member.1 ∧ member.2.Plain

theorem ascii_printMembers : ∀ {members : List Member},
    (∀ member ∈ members, PlainMember member) → Ascii (printMembers members) := by
  intro members
  have hmember {member : Member} (h : PlainMember member) : Ascii (printMember member) :=
    Ascii.append (ascii_quoted h.1) (Ascii.cons (by decide) (ascii_printScalar h.2))
  induction members with
  | nil => exact fun _ => ascii_nil
  | cons member members ih =>
    intro hplain
    obtain ⟨hfirst, hothers⟩ := List.forall_mem_cons.1 hplain
    cases members with
    | nil => exact hmember hfirst
    | cons second members => exact (hmember hfirst).append (Ascii.cons (by decide) (ih hothers))

theorem ascii_printObject {members : List Member} (h : ∀ member ∈ members, PlainMember member) :
    Ascii (printObject members) :=
  Ascii.append (Ascii.cons (by decide) (ascii_printMembers h)) (Ascii.cons (by decide) ascii_nil)

/-! ## Reading what was printed -/

theorem isPlain_ne_quote {c : Char} (h : IsPlain c) : c ≠ quote := h.2.2.1

theorem readQuoted_quoted {text : String} (htext : PlainText text) (rest : List Char) :
    readQuoted (quoted text ++ rest) = some (text, rest) := by
  have hplain : ∀ c ∈ text.toList, decide (c ≠ quote) = true := fun c hc =>
    decide_eq_true (isPlain_ne_quote (htext c hc))
  have hsplit : quoted text ++ rest = quote :: (text.toList ++ quote :: rest) := by
    simp [quoted]
  rw [hsplit, readQuoted, if_pos rfl, List.dropWhile_append_of_pos hplain,
    List.takeWhile_append_of_pos hplain]
  simp

/-- Printing starts a number with a digit. -/
theorem head_toDigits (value : ℕ) :
    ∃ first digits, Nat.toDigits 10 value = first :: digits ∧ first.isDigit = true := by
  cases h : Nat.toDigits 10 value with
  | nil => exact absurd h Nat.toDigits_ne_nil
  | cons first digits =>
    refine ⟨first, digits, rfl, Nat.isDigit_of_mem_toDigits (Nat.succ_pos 9) (Nat.le_refl 10)
      (?_ : first ∈ Nat.toDigits 10 value)⟩
    rw [h]
    exact List.mem_cons_self

theorem readScalar_print {value : Scalar} (hvalue : value.Plain) {rest : List Char}
    (hrest : ∀ c ∈ rest.head?, c.isDigit = false) :
    readScalar (value.print ++ rest) = some (value, rest) := by
  cases value with
  | text value =>
    have hhead : (quoted value ++ rest).head? = some quote := rfl
    rw [Scalar.print, readScalar, if_pos hhead, readQuoted_quoted hvalue]
    rfl
  | bool value =>
    cases value
    · rfl
    · rfl
  | nat value =>
    obtain ⟨first, digits, hdigits, hfirst⟩ := head_toDigits value
    have hall : ∀ c ∈ Nat.toDigits 10 value, c.isDigit = true := fun c hc =>
      Nat.isDigit_of_mem_toDigits (by decide) (by decide) hc
    have hhead : (Nat.toDigits 10 value ++ rest).head? = some first := by
      rw [hdigits]
      rfl
    have hquote : first ≠ quote := by
      rintro rfl
      exact absurd hfirst (by decide)
    have htake : rest.takeWhile Char.isDigit = [] := by
      cases rest with
      | nil => rfl
      | cons c rest => simp [hrest c rfl]
    have hdrop : rest.dropWhile Char.isDigit = rest := by
      cases rest with
      | nil => rfl
      | cons c rest => simp [hrest c rfl]
    rw [Scalar.print, readScalar, hhead, if_neg (by simpa using hquote), if_pos (by simpa using hfirst),
      List.takeWhile_append_of_pos hall, List.dropWhile_append_of_pos hall, htake, hdrop,
      List.append_nil, Nat.ofDigitChars_ten_toDigits]

theorem readMember_printMember {member : Member} (hmember : PlainMember member) {rest : List Char}
    (hrest : ∀ c ∈ rest.head?, c.isDigit = false) :
    readMember (printMember member ++ rest) = some (member, rest) := by
  have hsplit : printMember member ++ rest =
      quoted member.1 ++ (':' :: (member.2.print ++ rest)) := by
    simp [printMember]
  rw [hsplit, readMember, readQuoted_quoted hmember.1]
  simp [readScalar_print hmember.2 hrest]

theorem readMembers_printMembers {rest : List Char} :
    ∀ {members : List Member} {fuel : ℕ}, members ≠ [] → members.length ≤ fuel →
      (∀ member ∈ members, PlainMember member) →
      readMembers fuel (printMembers members ++ closing :: rest) = some (members, rest) := by
  intro members
  induction members with
  | nil => exact fun hmembers => absurd rfl hmembers
  | cons member members ih =>
    intro fuel _ hfuel hplain
    cases fuel with
    | zero => simp at hfuel
    | succ fuel =>
      have hfirst := hplain member List.mem_cons_self
      cases members with
      | nil =>
        have hclosing : ∀ c ∈ (closing :: rest).head?, c.isDigit = false := by
          rintro c ⟨⟩
          decide
        rw [readMembers, printMembers, readMember_printMember hfirst hclosing]
        simp [show closing ≠ ',' by decide]
      | cons second members =>
        have hcomma : ∀ c ∈ (',' :: (printMembers (second :: members) ++ closing :: rest)).head?,
            c.isDigit = false := by
          rintro c ⟨⟩
          decide
        have hsplit : printMembers (member :: second :: members) ++ closing :: rest =
            printMember member ++ (',' :: (printMembers (second :: members) ++ closing :: rest)) := by
          simp [printMembers]
        rw [readMembers, hsplit, readMember_printMember hfirst hcomma]
        have hothers := ih (List.cons_ne_nil second members) (Nat.le_of_succ_le_succ hfuel)
          fun other hother => hplain other (List.mem_cons_of_mem member hother)
        simp [hothers]

theorem length_le_printMembers (members : List Member) :
    members.length ≤ (printMembers members).length := by
  induction members with
  | nil => exact Nat.le_refl 0
  | cons member members ih =>
    have hquoted : 1 ≤ (printMember member).length := by simp [printMember, quoted]
    cases members with
    | nil => simpa [printMembers] using hquoted
    | cons second members =>
      simp only [printMembers, List.length_append, List.length_cons] at ih ⊢
      omega

/-- A printed object is read back. -/
theorem readObject_printObject {members : List Member} {space : List Char} (hmembers : members ≠ [])
    (hplain : ∀ member ∈ members, PlainMember member) (hspace : space.all isSpace = true) :
    readObject (printObject members ++ space) = some members := by
  have hfuel : members.length ≤ (printObject members ++ space).length := by
    have := length_le_printMembers members
    simp only [printObject, List.length_append, List.length_cons]
    omega
  have htail : (printObject members ++ space).tail = printMembers members ++ closing :: space := by
    simp [printObject]
  have hhead : (printObject members ++ space).head? = some opening := rfl
  rw [readObject, if_pos hhead, htail, readMembers_printMembers hmembers hfuel hplain]
  show (if space.all isSpace = true then some members else none) = some members
  rw [if_pos hspace]

end MacTypeControl.Json
