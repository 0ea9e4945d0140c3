import MacTypeControl.Json.Grammar

/-!
# The JSON documents of the preview helper

The parser reads its input by position. A read outside the input and a loop that does not end are
outcomes of their own.
-/

namespace MacTypeControl.Preview

open Json.Grammar

/-- Why a parser stops: its message, or what must never happen. -/
inductive Stop where
  | failed (message : String)
  | outside
  | exhausted
  deriving DecidableEq

/-- A part of the parser, from a position of the input to the next. -/
def Parsing (α : Type) := ℕ → Except Stop (α × ℕ)

namespace Parsing

variable {α β : Type}

def ret (a : α) : Parsing α := fun position => .ok (a, position)

def andThen (m : Parsing α) (f : α → Parsing β) : Parsing β := fun position =>
  match m position with
  | .error stop => .error stop
  | .ok (a, position) => f a position

instance : Monad Parsing where
  pure := ret
  bind := andThen

end Parsing

def kJsonDocumentMaxLength : ℕ := 64 * 1024

def kJsonDocumentMaxDepth : ℕ := 32

def isspace (b : UInt8) : Bool := b == 0x20 || (0x09 ≤ b && b ≤ 0x0D)

/-- `std::strtod` on the text from a position on: how many bytes it converts, and whether the result
is finite. It converts a number up to a byte that cannot continue it, and a number that it converts
whole is finite exactly in the range of a double. -/
structure Strtod where
  ending : List UInt8 → ℕ
  finite : List UInt8 → Bool
  ending_number : ∀ token rest, IsNumber token →
    (∀ b ∈ rest.head?, isspace b = true ∨ b ∈ [comma, closeBracket, closeBrace]) →
    ending (token ++ rest) = token.length
  finite_number : ∀ token rest, IsNumber token → ending (token ++ rest) = token.length →
    (finite (token ++ rest) = true ↔ InDoubleRange token)

namespace JsonParser

variable (strtod : Strtod) (input : List UInt8)

def fail {α : Type} (message : String) : Parsing α := fun _ => .error (.failed message)

/-- There is input left. -/
def more : Parsing Bool := fun position => .ok (decide (position < input.length), position)

/-- The whole input is read. -/
def finished : Parsing Bool := fun position => .ok (decide (position = input.length), position)

/-- `input_[position_]`, which is only read where there is input left. -/
def current : Parsing UInt8 := fun position =>
  match input[position]? with
  | some b => .ok (b, position)
  | none => .error .outside

def advance (count : ℕ) : Parsing Unit := fun position => .ok ((), position + count)

/-- The byte at the position is there and is one of those wanted. -/
def currentIs (wanted : UInt8 → Bool) : Parsing Bool := do
  if ← more input then
    let b ← current input
    pure (wanted b)
  else pure false

def advanceWhile (wanted : UInt8 → Bool) : (fuel : ℕ) → Parsing Unit
  | 0 => fun _ => .error .exhausted
  | fuel + 1 => do
    if ← currentIs input wanted then
      advance 1
      advanceWhile wanted fuel
    else pure ()

def skipSpace : Parsing Unit := advanceWhile input isspace (input.length + 1)

def skipDigits : Parsing Unit := advanceWhile input isDigit (input.length + 1)

def consumeOneOf (characters : List UInt8) : Parsing Bool := do
  if ← currentIs input (· ∈ characters) then
    advance 1
    pure true
  else pure false

def consume (character : UInt8) : Parsing Bool := consumeOneOf input [character]

/-! ## Scalars -/

def parseLiteral (literal : List UInt8) (value : Value) : Parsing Value := fun position =>
  if input.length < position then .error .outside
  else if (input.drop position).take literal.length = literal then
    .ok (value, position + literal.length)
  else .error (.failed "invalid JSON value")

/-- The rest of a string behind its quote. -/
def parseCharacters : (fuel : ℕ) → Parsing (List UInt8)
  | 0 => fun _ => .error .exhausted
  | fuel + 1 => do
    if ← more input then
      let character ← current input
      advance 1
      if character = quote then pure []
      else if character < 0x20 then fail "JSON string contains an unescaped control character"
      else if character ≠ backslash then
        let output ← parseCharacters fuel
        pure (character :: output)
      else if ← more input then
        let letter ← current input
        advance 1
        match escapes.lookup letter with
        | none => fail "JSON string contains an unsupported escape"
        | some escaped =>
          let output ← parseCharacters fuel
          pure (escaped :: output)
      else fail "JSON string ends after an escape marker"
    else fail "unterminated JSON string"

def parseString : Parsing (List UInt8) := do
  advance 1
  parseCharacters input (input.length + 1)

def parseDigits (message : String) : Parsing Unit := do
  if ← currentIs input isDigit then skipDigits input else fail message

def parseInteger : Parsing Unit := do
  if ← consume input zero then
    if ← currentIs input isDigit then fail "JSON number has a leading zero" else pure ()
  else parseDigits input "invalid JSON value"

def parseFraction : Parsing Unit := do
  if ← consume input point then parseDigits input "JSON fraction is missing digits" else pure ()

def parseExponent : Parsing Unit := do
  if ← consumeOneOf input exponentMarks then
    let _ ← consumeOneOf input [plus, minus]
    parseDigits input "JSON exponent is missing digits"
  else pure ()

/-- The text of a number, which `strtod` must convert whole. -/
def convert (start : ℕ) : Parsing Value := fun position =>
  if strtod.finite (input.drop start) = false ∨
      start + strtod.ending (input.drop start) ≠ position then
    .error (.failed "JSON number is outside the supported range")
  else .ok (.number ((input.drop start).take (position - start)), position)

def tell : Parsing ℕ := fun position => .ok (position, position)

def scanNumber : Parsing Unit := do
  let negative ← consume input minus
  if negative && !(← more input) then fail "incomplete JSON number"
  else
    parseInteger input
    parseFraction input
    parseExponent input

def parseNumber : Parsing Value := do
  let start ← tell
  scanNumber input
  convert strtod input start

/-! ## Values -/

/-- `parseMembers` reads on from the first key. -/
def parseObject (parseMembers : Parsing (List (List UInt8 × Value))) : Parsing Value := do
  advance 1
  skipSpace input
  if ← consume input closeBrace then pure (.object [])
  else
    let members ← parseMembers
    pure (.object members)

def parseArray (parseItems : Parsing (List Value)) : Parsing Value := do
  advance 1
  skipSpace input
  if ← consume input closeBracket then pure (.array [])
  else
    let items ← parseItems
    pure (.array items)

section

variable (maxDepth : ℕ)

mutual

def parseValue : (fuel depth : ℕ) → Parsing Value
  | 0, _ => fun _ => .error .exhausted
  | fuel + 1, depth =>
    if maxDepth < depth then fail "JSON nesting exceeds the supported depth"
    else do
      if ← more input then
        let b ← current input
        if b = openBrace then parseObject input (parseMembers fuel depth)
        else if b = openBracket then parseArray input (parseItems fuel depth)
        else if b = quote then
          let content ← parseString input
          pure (.string content)
        else if b = 0x74 then parseLiteral input trueText (.bool true)
        else if b = 0x66 then parseLiteral input falseText (.bool false)
        else if b = 0x6E then parseLiteral input nullText .null
        else parseNumber strtod input
      else fail "unexpected end of JSON input"

def parseMembers : (fuel depth : ℕ) → Parsing (List (List UInt8 × Value))
  | 0, _ => fun _ => .error .exhausted
  | fuel + 1, depth => do
    if ← currentIs input (· == quote) then
      let key ← parseString input
      skipSpace input
      if ← consume input colon then
        skipSpace input
        let child ← parseValue fuel (depth + 1)
        skipSpace input
        if ← consume input closeBrace then pure [(key, child)]
        else if ← consume input comma then
          skipSpace input
          let members ← parseMembers fuel depth
          pure ((key, child) :: members)
        else fail "JSON object entries must be separated by commas"
      else fail "JSON object key is missing a colon"
    else fail "JSON object key must be a string"

def parseItems : (fuel depth : ℕ) → Parsing (List Value)
  | 0, _ => fun _ => .error .exhausted
  | fuel + 1, depth => do
    let child ← parseValue fuel (depth + 1)
    skipSpace input
    if ← consume input closeBracket then pure [child]
    else if ← consume input comma then
      skipSpace input
      let items ← parseItems fuel depth
      pure (child :: items)
    else fail "JSON array entries must be separated by commas"

end

end

def parse : Parsing Value := do
  skipSpace input
  let value ← parseValue strtod input kJsonDocumentMaxDepth (2 * input.length + 3) 1
  skipSpace input
  if ← finished input then
    match value with
    | .object _ => pure value
    | _ => fail "JSON document root must be an object"
  else fail "unexpected data after JSON value"

end JsonParser

/-! ## Lookups -/

def objectValue (key : List UInt8) : Value → Option Value
  | .object members => members.findSome? fun member => if member.1 = key then some member.2 else none
  | _ => none

mutual

def recursiveValue (key : List UInt8) : Value → Option Value
  | .object members => recursiveMember key members
  | .array items => recursiveItem key items
  | _ => none

def recursiveMember (key : List UInt8) : List (List UInt8 × Value) → Option Value
  | [] => none
  | (candidate, child) :: rest =>
    if candidate = key then some child
    else match recursiveValue key child with
      | some nested => some nested
      | none => recursiveMember key rest

def recursiveItem (key : List UInt8) : List Value → Option Value
  | [] => none
  | child :: rest =>
    match recursiveValue key child with
    | some nested => some nested
    | none => recursiveItem key rest

end

def stringValue : Option Value → Option (List UInt8)
  | some (.string content) => some content
  | _ => none

/-- The text of the number stands for the double that it was converted to. -/
def numberToken : Option Value → Option (List UInt8)
  | some (.number token) => some token
  | _ => none

def boolValue : Option Value → Option Bool
  | some (.bool value) => some value
  | _ => none

structure JsonObject where
  value : Value

namespace JsonObject

variable (object : JsonObject) (key : List UInt8)

def jsonString : Option (List UInt8) := stringValue (objectValue key object.value)

def jsonNumber : Option (List UInt8) := numberToken (objectValue key object.value)

def jsonBool : Option Bool := boolValue (objectValue key object.value)

def contains : Bool := (objectValue key object.value).isSome

end JsonObject

structure JsonDocument where
  root : Value

namespace JsonDocument

def parse (strtod : Strtod) (json : List UInt8) : Except Stop JsonDocument :=
  if kJsonDocumentMaxLength < json.length then
    .error (.failed "JSON document exceeds the supported length")
  else
    match JsonParser.parse strtod json 0 with
    | .error stop => .error stop
    | .ok (root, _) => .ok ⟨root⟩

variable (document : JsonDocument) (key : List UInt8)

def jsonString : Option (List UInt8) := stringValue (recursiveValue key document.root)

def jsonNumber : Option (List UInt8) := numberToken (recursiveValue key document.root)

def jsonBool : Option Bool := boolValue (recursiveValue key document.root)

def rootString : Option (List UInt8) := stringValue (objectValue key document.root)

def rootNumber : Option (List UInt8) := numberToken (objectValue key document.root)

def rootBool : Option Bool := boolValue (objectValue key document.root)

def rootNumberArray : Option (List (List UInt8)) :=
  match objectValue key document.root with
  | some (.array items) => items.mapM fun item => numberToken (some item)
  | _ => none

def object : Option JsonObject :=
  match objectValue key document.root with
  | some (.object members) => some ⟨.object members⟩
  | _ => none

def containsRoot : Bool := (objectValue key document.root).isSome

end JsonDocument

end MacTypeControl.Preview
