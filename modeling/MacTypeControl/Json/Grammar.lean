import Mathlib.Data.List.Basic
import Mathlib.Data.Rat.Cast.Order
import Mathlib.Tactic

/-!
# The grammar of JSON over bytes

The grammar of a document without Unicode escapes, for any bytes that count as white space and any
range of numbers. A number is kept as its text.
-/

namespace MacTypeControl.Json.Grammar

inductive Value where
  | null
  | bool (value : Bool)
  | number (token : List UInt8)
  | string (content : List UInt8)
  | array (items : List Value)
  | object (members : List (List UInt8 × Value))

/-! ## Values -/

mutual

/-- The levels of a value: what stands in an array or an object is one level deeper. -/
def Value.depth : Value → ℕ
  | .array items => depthOfItems items + 1
  | .object members => depthOfMembers members + 1
  | _ => 1

def depthOfItems : List Value → ℕ
  | [] => 0
  | item :: rest => max item.depth (depthOfItems rest)

def depthOfMembers : List (List UInt8 × Value) → ℕ
  | [] => 0
  | (_, value) :: rest => max value.depth (depthOfMembers rest)

end

mutual

/-- The members of all objects of a value in document order, each before those in its value. -/
def Value.allMembers : Value → List (List UInt8 × Value)
  | .array items => allOfItems items
  | .object members => allOfMembers members
  | _ => []

def allOfItems : List Value → List (List UInt8 × Value)
  | [] => []
  | item :: rest => item.allMembers ++ allOfItems rest

def allOfMembers : List (List UInt8 × Value) → List (List UInt8 × Value)
  | [] => []
  | (name, value) :: rest => (name, value) :: (value.allMembers ++ allOfMembers rest)

end

/-- The value of the first member of that name. -/
def firstNamed (name : List UInt8) (members : List (List UInt8 × Value)) : Option Value :=
  (members.find? fun member => member.1 = name).map Prod.snd

/-! ## Bytes -/

def quote : UInt8 := 0x22
def backslash : UInt8 := 0x5C
def slash : UInt8 := 0x2F
def comma : UInt8 := 0x2C
def colon : UInt8 := 0x3A
def openBracket : UInt8 := 0x5B
def closeBracket : UInt8 := 0x5D
def openBrace : UInt8 := 0x7B
def closeBrace : UInt8 := 0x7D
def minus : UInt8 := 0x2D
def plus : UInt8 := 0x2B
def point : UInt8 := 0x2E
def zero : UInt8 := 0x30

/-- The letters `e` and `E`. -/
def exponentMarks : List UInt8 := [0x65, 0x45]

def isDigit (b : UInt8) : Bool := 0x30 ≤ b && b ≤ 0x39

def nullText : List UInt8 := [0x6E, 0x75, 0x6C, 0x6C]
def trueText : List UInt8 := [0x74, 0x72, 0x75, 0x65]
def falseText : List UInt8 := [0x66, 0x61, 0x6C, 0x73, 0x65]

/-- The letters that may follow a backslash, each with the byte that the two stand for. -/
def escapes : List (UInt8 × UInt8) :=
  [(quote, quote), (backslash, backslash), (slash, slash), (0x62, 0x08), (0x66, 0x0C),
    (0x6E, 0x0A), (0x72, 0x0D), (0x74, 0x09)]

/-! ## Tokens -/

/-- The text between the quotes of a string, and its content. -/
inductive IsText : List UInt8 → List UInt8 → Prop
  | nil : IsText [] []
  | plain {b : UInt8} {text content : List UInt8} : 0x20 ≤ b → b ≠ quote → b ≠ backslash →
    IsText text content → IsText (b :: text) (b :: content)
  | escape {letter value : UInt8} {text content : List UInt8} : (letter, value) ∈ escapes →
    IsText text content → IsText (backslash :: letter :: text) (value :: content)

def Digits (text : List UInt8) : Prop := text ≠ [] ∧ ∀ b ∈ text, isDigit b = true

/-- Digits without a zero in front of others. -/
def IsInteger (text : List UInt8) : Prop :=
  text = [zero] ∨ Digits text ∧ text.head? ≠ some zero

def IsFraction (text : List UInt8) : Prop := text = [] ∨ ∃ digits, text = point :: digits ∧ Digits digits

def IsExponent (text : List UInt8) : Prop :=
  text = [] ∨ ∃ mark ∈ exponentMarks, ∃ sign ∈ [[], [plus], [minus]], ∃ digits,
    text = mark :: (sign ++ digits) ∧ Digits digits

structure IsNumber (token : List UInt8) : Prop where
  parts : ∃ sign ∈ [[], [minus]], ∃ integer fraction exponent,
    token = sign ++ integer ++ fraction ++ exponent ∧ IsInteger integer ∧ IsFraction fraction ∧
      IsExponent exponent

/-! ## Documents -/

/-- What a dialect leaves open. -/
structure Dialect where
  isSpace : UInt8 → Bool
  inRange : List UInt8 → Prop

def Dialect.Space (dialect : Dialect) (text : List UInt8) : Prop :=
  ∀ b ∈ text, dialect.isSpace b = true

/-- What a text is derived from: a value, or the rest of an array or an object from its first item
or member to its bracket. -/
inductive Shape where
  | value (value : Value)
  | items (items : List Value)
  | members (members : List (List UInt8 × Value))

inductive Derives (dialect : Dialect) : Shape → List UInt8 → Prop
  | null : Derives dialect (.value .null) nullText
  | isTrue : Derives dialect (.value (.bool true)) trueText
  | isFalse : Derives dialect (.value (.bool false)) falseText
  | number {token : List UInt8} : IsNumber token → dialect.inRange token →
    Derives dialect (.value (.number token)) token
  | string {text content : List UInt8} : IsText text content →
    Derives dialect (.value (.string content)) (quote :: (text ++ [quote]))
  | emptyArray {space : List UInt8} : dialect.Space space →
    Derives dialect (.value (.array [])) (openBracket :: (space ++ [closeBracket]))
  | array {space text : List UInt8} {items : List Value} : dialect.Space space →
    Derives dialect (.items items) text →
    Derives dialect (.value (.array items)) (openBracket :: (space ++ text))
  | emptyObject {space : List UInt8} : dialect.Space space →
    Derives dialect (.value (.object [])) (openBrace :: (space ++ [closeBrace]))
  | object {space text : List UInt8} {members : List (List UInt8 × Value)} :
    dialect.Space space → Derives dialect (.members members) text →
    Derives dialect (.value (.object members)) (openBrace :: (space ++ text))
  | lastItem {text space : List UInt8} {item : Value} : Derives dialect (.value item) text →
    dialect.Space space → Derives dialect (.items [item]) (text ++ space ++ [closeBracket])
  | moreItems {text space space' rest : List UInt8} {item : Value} {items : List Value} :
    Derives dialect (.value item) text → dialect.Space space → dialect.Space space' →
    Derives dialect (.items items) rest →
    Derives dialect (.items (item :: items)) (text ++ space ++ comma :: (space' ++ rest))
  | lastMember {key name space₁ space₂ text space : List UInt8} {value : Value} :
    IsText key name → dialect.Space space₁ → dialect.Space space₂ →
    Derives dialect (.value value) text → dialect.Space space →
    Derives dialect (.members [(name, value)])
      (quote :: (key ++ [quote]) ++ space₁ ++ colon :: (space₂ ++ text) ++ space ++ [closeBrace])
  | moreMembers {key name space₁ space₂ text space space' rest : List UInt8} {value : Value}
    {members : List (List UInt8 × Value)} :
    IsText key name → dialect.Space space₁ → dialect.Space space₂ →
    Derives dialect (.value value) text → dialect.Space space → dialect.Space space' →
    Derives dialect (.members members) rest →
    Derives dialect (.members ((name, value) :: members))
      (quote :: (key ++ [quote]) ++ space₁ ++ colon :: (space₂ ++ text) ++ space ++
        comma :: (space' ++ rest))

/-- A value with nothing but white space around it. -/
def IsDocument (dialect : Dialect) (value : Value) (document : List UInt8) : Prop :=
  ∃ space text space', dialect.Space space ∧ Derives dialect (.value value) text ∧
    dialect.Space space' ∧ document = space ++ text ++ space'

/-! ## Numbers -/

def digitsValue (text : List UInt8) : ℕ :=
  text.foldl (fun value b => 10 * value + (b.toNat - 0x30)) 0

/-- The number that a token stands for. -/
def numberValue (token : List UInt8) : ℚ :=
  let sign : ℚ := if token.head? = some minus then -1 else 1
  let magnitude := if token.head? = some minus then token.tail else token
  let integer := magnitude.takeWhile isDigit
  let later := magnitude.dropWhile isDigit
  let fraction := if later.head? = some point then later.tail.takeWhile isDigit else []
  let last := if later.head? = some point then later.tail.dropWhile isDigit else later
  let power : ℤ := match last with
    | _ :: b :: digits =>
      if b = minus then -(digitsValue digits : ℤ)
      else if b = plus then digitsValue digits
      else digitsValue (b :: digits)
    | _ => 0
  sign * digitsValue (integer ++ fraction) * (10 : ℚ) ^ (power - fraction.length)

/-- The number is rounded to a finite double: it lies below the middle between the greatest double
and the next power of two. -/
def InDoubleRange (token : List UInt8) : Prop := |numberValue token| < 2 ^ 1024 - 2 ^ 970

end MacTypeControl.Json.Grammar
