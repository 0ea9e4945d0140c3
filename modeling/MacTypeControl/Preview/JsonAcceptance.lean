import MacTypeControl.Preview.JsonReading

/-!
# What the parser of the helper accepts

A document of the grammar is read to its end, so the parser accepts exactly the documents, and each
has one value.
-/

namespace MacTypeControl.Preview

open Json.Grammar

/-- What may follow a value. -/
def Delimited (rest : List UInt8) : Prop :=
  ∀ b ∈ rest.head?, isspace b = true ∨ b ∈ [comma, closeBracket, closeBrace]

namespace JsonParser

open Parsing

variable {input rest : List UInt8} {position : ℕ}

theorem forall_head_append {P : UInt8 → Prop} {a b : List UInt8} (ha : ∀ c ∈ a.head?, P c)
    (hb : ∀ c ∈ b.head?, P c) : ∀ c ∈ (a ++ b).head?, P c := by
  cases a with
  | nil => exact hb
  | cons first a => exact ha

/-! ## Strings -/

theorem lookup_escapes {letter value : UInt8} (h : (letter, value) ∈ escapes) :
    escapes.lookup letter = some value := by
  have hall : escapes.all (fun entry => escapes.lookup entry.1 == some entry.2) = true := by decide
  simpa using List.all_eq_true.1 hall _ h

theorem parseCharacters_eq {text content : List UInt8} (htext : IsText text content) {fuel : ℕ}
    (hat : At input position (text ++ quote :: rest)) (hfuel : text.length < fuel) :
    parseCharacters input fuel position = .ok (content, position + text.length + 1) := by
  induction htext generalizing position fuel with
  | nil =>
    obtain ⟨fuel, rfl⟩ : ∃ n, fuel = n + 1 := ⟨fuel - 1, by simp at hfuel; omega⟩
    unfold parseCharacters
    rw [bind_ok (more_eq hat)]
    simp only [List.nil_append, ne_eq, reduceCtorEq, not_false_eq_true, decide_true, if_true]
    rw [bind_ok (current_eq hat)]
    rfl
  | @plain b text content hcontrol hquote hplain htext ih =>
    obtain ⟨fuel, rfl⟩ : ∃ n, fuel = n + 1 := ⟨fuel - 1, by simp at hfuel; omega⟩
    have hnext : At input (position + 1) (text ++ quote :: rest) := hat.step [b]
    have hlater := ih hnext (by simpa using hfuel)
    unfold parseCharacters
    rw [bind_ok (more_eq hat)]
    simp only [List.cons_append, ne_eq, reduceCtorEq, not_false_eq_true, decide_true, if_true]
    rw [bind_ok (current_eq hat),
      bind_ok (show advance 1 position = .ok ((), position + 1) from rfl), if_neg hquote,
      if_neg (UInt8.not_lt.mpr hcontrol), if_pos hplain, bind_ok hlater]
    simp only [pure_apply, List.length_cons]
    congr 2
    omega
  | @escape letter value text content hmem htext ih =>
    obtain ⟨fuel, rfl⟩ : ∃ n, fuel = n + 1 := ⟨fuel - 1, by simp at hfuel; omega⟩
    have hnext : At input (position + 1) (letter :: (text ++ quote :: rest)) :=
      hat.step [backslash]
    have hlast : At input (position + 1 + 1) (text ++ quote :: rest) := hnext.step [letter]
    have hlater := ih hlast (show text.length < fuel by
      simp only [List.length_cons] at hfuel
      omega)
    unfold parseCharacters
    rw [bind_ok (more_eq hat)]
    simp only [List.cons_append, ne_eq, reduceCtorEq, not_false_eq_true, decide_true, if_true]
    rw [bind_ok (current_eq hat),
      bind_ok (show advance 1 position = .ok ((), position + 1) from rfl), if_neg (by decide),
      if_neg (by decide), if_neg (by decide), bind_ok (more_eq hnext)]
    simp only [ne_eq, reduceCtorEq, not_false_eq_true, decide_true, if_true]
    rw [bind_ok (current_eq hnext),
      bind_ok (show advance 1 (position + 1) = .ok ((), position + 1 + 1) from rfl)]
    simp only [lookup_escapes hmem]
    rw [bind_ok hlater]
    simp only [pure_apply, List.length_cons]
    congr 2
    omega

theorem parseString_eq {text content : List UInt8} (htext : IsText text content)
    (hat : At input position (quote :: (text ++ quote :: rest))) :
    parseString input position = .ok (content, position + text.length + 2) := by
  have hnext : At input (position + 1) (text ++ quote :: rest) := hat.step [quote]
  have hlength := hnext.length
  rw [List.length_append] at hlength
  unfold parseString
  rw [bind_ok (show advance 1 position = .ok ((), position + 1) from rfl),
    parseCharacters_eq htext hnext (by omega)]
  congr 2
  omega

/-! ## Numbers -/

theorem delimiter_facts {b : UInt8} (h : isspace b = true ∨ b ∈ [comma, closeBracket, closeBrace]) :
    isDigit b = false ∧ b ≠ point ∧ b ∉ exponentMarks := by
  have hall : ∀ n < 256, isspace (UInt8.ofNat n) = true ∨
      UInt8.ofNat n ∈ [comma, closeBracket, closeBrace] →
      isDigit (UInt8.ofNat n) = false ∧ UInt8.ofNat n ≠ point ∧
        UInt8.ofNat n ∉ exponentMarks := by
    decide +kernel
  have hb := hall b.toNat b.toNat_lt
  rw [UInt8.ofNat_toNat] at hb
  exact hb h

theorem consume_true {character : UInt8} (hat : At input position (character :: rest)) :
    consume input character position = .ok (true, position + 1) :=
  consumeOneOf_true hat (List.mem_singleton_self character)

theorem consume_false {character : UInt8} (hat : At input position rest)
    (h : rest.head? ≠ some character) : consume input character position = .ok (false, position) := by
  refine consumeOneOf_false hat fun b hb hmem => h ?_
  rw [← List.mem_singleton.mp hmem]
  exact hb

theorem parseDigits_eq (message : String) {digits : List UInt8}
    (hat : At input position (digits ++ rest)) (hdigits : Digits digits)
    (hrest : ∀ b ∈ rest.head?, isDigit b = false) :
    parseDigits input message position = .ok ((), position + digits.length) := by
  obtain ⟨hne, hall⟩ := hdigits
  have hfirst : (digits ++ rest).head?.any isDigit = true := by
    cases digits with
    | nil => exact absurd rfl hne
    | cons b digits => exact hall b List.mem_cons_self
  unfold parseDigits
  rw [bind_ok (currentIs_eq isDigit hat), hfirst, if_pos rfl]
  exact advanceWhile_run isDigit hat hall hrest

theorem parseInteger_eq {integer : List UInt8} (hinteger : IsInteger integer)
    (hat : At input position (integer ++ rest)) (hrest : ∀ b ∈ rest.head?, isDigit b = false) :
    parseInteger input position = .ok ((), position + integer.length) := by
  unfold parseInteger
  rcases hinteger with rfl | ⟨hdigits, hzero⟩
  · have hnext : At input (position + 1) rest := hat.step [zero]
    have hnone : rest.head?.any isDigit = false := by
      cases rest with
      | nil => rfl
      | cons b tail => exact hrest b rfl
    rw [bind_ok (consume_true hat), if_pos rfl, bind_ok (currentIs_eq isDigit hnext), hnone]
    rfl
  · have hfirst : (integer ++ rest).head? ≠ some zero := by
      cases integer with
      | nil => exact absurd rfl hdigits.1
      | cons c integer => exact hzero
    rw [bind_ok (consume_false hat hfirst)]
    exact parseDigits_eq _ hat hdigits hrest

theorem parseFraction_eq {fraction : List UInt8} (hfraction : IsFraction fraction)
    (hat : At input position (fraction ++ rest))
    (hrest : ∀ b ∈ rest.head?, isDigit b = false ∧ b ≠ point) :
    parseFraction input position = .ok ((), position + fraction.length) := by
  unfold parseFraction
  rcases hfraction with rfl | ⟨digits, rfl, hdigits⟩
  · have hother : rest.head? ≠ some point := fun h => (hrest point h).2 rfl
    rw [bind_ok (consume_false hat hother)]
    rfl
  · have hat : At input position (point :: (digits ++ rest)) := hat
    have hnext : At input (position + 1) (digits ++ rest) := hat.step [point]
    rw [bind_ok (consume_true hat), if_pos rfl, parseDigits_eq _ hnext hdigits fun b hb => (hrest b hb).1,
      List.length_cons, Nat.add_assoc, Nat.add_comm 1]

theorem parseExponent_eq {exponent : List UInt8} (hexponent : IsExponent exponent)
    (hat : At input position (exponent ++ rest))
    (hrest : ∀ b ∈ rest.head?, isDigit b = false ∧ b ∉ exponentMarks) :
    parseExponent input position = .ok ((), position + exponent.length) := by
  unfold parseExponent
  rcases hexponent with rfl | ⟨mark, hmark, sign, hsign, digits, rfl, hdigits⟩
  · rw [bind_ok (consumeOneOf_false hat fun b hb => (hrest b hb).2)]
    rfl
  · have hat : At input position (mark :: (sign ++ (digits ++ rest))) := by simpa using hat
    have hnext : At input (position + 1) (sign ++ (digits ++ rest)) := hat.step [mark]
    have hsigned : ∃ signed, consumeOneOf input [plus, minus] (position + 1) =
        .ok (signed, position + 1 + sign.length) := by
      simp only [List.mem_cons, List.not_mem_nil, or_false] at hsign
      rcases hsign with rfl | rfl | rfl
      · refine ⟨false, consumeOneOf_false hnext fun b hb => ?_⟩
        obtain ⟨hne, hall⟩ := hdigits
        cases digits with
        | nil => exact absurd rfl hne
        | cons c digits =>
          obtain rfl : c = b := Option.some.inj hb
          have hdigit := hall c List.mem_cons_self
          rintro hsign
          rcases List.mem_cons.mp hsign with rfl | hsign
          · exact absurd hdigit (by decide)
          · rw [List.mem_singleton.mp hsign] at hdigit
            exact absurd hdigit (by decide)
      · exact ⟨true, consumeOneOf_true hnext (by decide)⟩
      · exact ⟨true, consumeOneOf_true hnext (by decide)⟩
    obtain ⟨signed, hsigned⟩ := hsigned
    rw [bind_ok (consumeOneOf_true hat hmark), if_pos rfl, bind_ok hsigned,
      parseDigits_eq _ (hnext.step sign) hdigits fun b hb => (hrest b hb).1]
    simp only [List.length_cons, List.length_append]
    congr 2
    omega

theorem head_integer {integer : List UInt8} (h : IsInteger integer) :
    ∃ b tail, integer = b :: tail ∧ isDigit b = true := by
  rcases h with rfl | ⟨⟨hne, hall⟩, -⟩
  · exact ⟨zero, [], rfl, by decide⟩
  · cases integer with
    | nil => exact absurd rfl hne
    | cons b tail => exact ⟨b, tail, rfl, hall b List.mem_cons_self⟩

theorem head_fraction {fraction : List UInt8} (h : IsFraction fraction) :
    ∀ b ∈ fraction.head?, isDigit b = false := by
  rcases h with rfl | ⟨digits, rfl, -⟩
  · simp
  · rintro b ⟨⟩
    decide

theorem head_exponent {exponent : List UInt8} (h : IsExponent exponent) :
    ∀ b ∈ exponent.head?, isDigit b = false ∧ b ≠ point := by
  rcases h with rfl | ⟨mark, hmark, sign, -, digits, rfl, -⟩
  · simp
  · rintro b ⟨⟩
    have hall : exponentMarks.all (fun mark => !isDigit mark && mark != point) = true := by decide
    simpa using List.all_eq_true.1 hall mark hmark

theorem scanNumber_eq {token : List UInt8} (htoken : IsNumber token)
    (hat : At input position (token ++ rest)) (hrest : Delimited rest) :
    scanNumber input position = .ok ((), position + token.length) := by
  obtain ⟨sign, hsign, integer, fraction, exponent, rfl, hinteger, hfraction, hexponent⟩ :=
    htoken.parts
  simp only [List.append_assoc] at hat
  obtain ⟨first, others, hfirst, hdigit⟩ := head_integer hinteger
  have hdelimiter : ∀ b ∈ rest.head?, isDigit b = false ∧ b ≠ point ∧ b ∉ exponentMarks :=
    fun b hb => delimiter_facts (hrest b hb)
  have hafterFraction : ∀ b ∈ (exponent ++ rest).head?, isDigit b = false ∧ b ≠ point :=
    forall_head_append (head_exponent hexponent)
      fun b hb => ⟨(hdelimiter b hb).1, (hdelimiter b hb).2.1⟩
  have hafterInteger : ∀ b ∈ (fraction ++ (exponent ++ rest)).head?, isDigit b = false :=
    forall_head_append (head_fraction hfraction) fun b hb => (hafterFraction b hb).1
  have hnegative : ∃ negative, consume input minus position =
      .ok (negative, position + sign.length) := by
    simp only [List.mem_cons, List.not_mem_nil, or_false] at hsign
    rcases hsign with rfl | rfl
    · refine ⟨false, consume_false hat ?_⟩
      rw [hfirst]
      rintro ⟨⟩
      exact absurd hdigit (by decide)
    · exact ⟨true, consume_true hat⟩
  obtain ⟨negative, hnegative⟩ := hnegative
  have hat₁ := hat.step sign
  have hne : integer ++ (fraction ++ (exponent ++ rest)) ≠ [] := by
    rw [hfirst]
    exact List.cons_ne_nil _ _
  unfold scanNumber
  rw [bind_ok hnegative, bind_ok (more_eq hat₁), decide_eq_true hne]
  simp only [Bool.not_true, Bool.and_false, Bool.false_eq_true, if_false]
  rw [bind_ok (parseInteger_eq hinteger hat₁ hafterInteger),
    bind_ok (parseFraction_eq hfraction (hat₁.step integer) hafterFraction),
    parseExponent_eq hexponent ((hat₁.step integer).step fraction)
      fun b hb => ⟨(hdelimiter b hb).1, (hdelimiter b hb).2.2⟩]
  simp only [List.length_append, Nat.add_assoc]

theorem parseNumber_eq (strtod : Strtod) {token : List UInt8} (htoken : IsNumber token)
    (hrange : InDoubleRange token) (hat : At input position (token ++ rest))
    (hrest : Delimited rest) :
    parseNumber strtod input position = .ok (.number token, position + token.length) := by
  have hending := strtod.ending_number token rest htoken hrest
  have hfinite := (strtod.finite_number token rest htoken hending).mpr hrange
  unfold parseNumber
  rw [bind_ok (show tell position = .ok (position, position) from rfl),
    bind_ok (scanNumber_eq htoken hat hrest)]
  unfold convert
  rw [hat.drop, hfinite, hending, if_neg (by simp), Nat.add_sub_cancel_left, List.take_left]

instance (token : List UInt8) : Decidable (InDoubleRange token) :=
  inferInstanceAs (Decidable (_ < _))

def scannedLength (text : List UInt8) : ℕ :=
  match scanNumber text 0 with
  | .ok (_, next) => next
  | .error _ => 0

/-- A conversion that scans the number as the parser does. -/
def scannedStrtod : Strtod where
  ending := scannedLength
  finite text := decide (InDoubleRange (text.take (scannedLength text)))
  ending_number token rest htoken hrest := by
    unfold scannedLength
    rw [scanNumber_eq htoken (At.start _) hrest, Nat.zero_add]
  finite_number token rest _ hending := by
    rw [hending, List.take_left, decide_eq_true_eq]

/-! ## Values -/

theorem skipSpace_eq {space : List UInt8} (hat : At input position (space ++ rest))
    (hspace : helperDialect.Space space) (hrest : ∀ b ∈ rest.head?, isspace b = false) :
    skipSpace input position = .ok ((), position + space.length) :=
  advanceWhile_run isspace hat hspace hrest

/-- The first bytes of the values. -/
def beginsValue (b : UInt8) : Bool :=
  b ∈ [openBrace, openBracket, quote, 0x74, 0x66, 0x6E, minus] || isDigit b

theorem not_isspace_of_beginsValue {b : UInt8} (h : beginsValue b = true) :
    isspace b = false ∧ b ≠ closeBracket := by
  have hall : ∀ n < 256, beginsValue (UInt8.ofNat n) = true →
      isspace (UInt8.ofNat n) = false ∧ UInt8.ofNat n ≠ closeBracket := by
    decide +kernel
  have hb := hall b.toNat b.toNat_lt
  rw [UInt8.ofNat_toNat] at hb
  exact hb h

theorem head_number {token : List UInt8} (h : IsNumber token) :
    ∃ b tail, token = b :: tail ∧ (b = minus ∨ isDigit b = true) := by
  obtain ⟨sign, hsign, integer, fraction, exponent, rfl, hinteger, -⟩ := h.parts
  obtain ⟨first, others, rfl, hdigit⟩ := head_integer hinteger
  simp only [List.mem_cons, List.not_mem_nil, or_false] at hsign
  rcases hsign with rfl | rfl
  · exact ⟨first, _, rfl, Or.inr hdigit⟩
  · exact ⟨minus, _, rfl, Or.inl rfl⟩

theorem head_value {value : Value} {text : List UInt8}
    (h : Derives helperDialect (.value value) text) :
    ∃ b tail, text = b :: tail ∧ beginsValue b = true := by
  cases h with
  | null | isTrue | isFalse => exact ⟨_, _, rfl, by decide⟩
  | number hnumber _ =>
    obtain ⟨b, tail, rfl, hb⟩ := head_number hnumber
    refine ⟨b, tail, rfl, ?_⟩
    rcases hb with rfl | hdigit
    · decide
    · simp [beginsValue, hdigit]
  | string | emptyArray | array | emptyObject | object => exact ⟨_, _, rfl, by decide⟩

theorem delimited_space {space : List UInt8} {b : UInt8} (hspace : helperDialect.Space space)
    (hb : b ∈ [comma, closeBracket, closeBrace]) : Delimited (space ++ b :: rest) := by
  refine forall_head_append (fun c hc => Or.inl (hspace c (List.mem_of_mem_head? hc))) ?_
  rintro c ⟨⟩
  exact Or.inr hb

theorem head_space {P : UInt8 → Prop} {b : UInt8} {tail : List UInt8} (hb : P b) :
    ∀ c ∈ (b :: tail).head?, P c := by
  rintro c ⟨⟩
  exact hb

/-- The reader reads the text of the value, whatever it has left for it. -/
def ReadsValue (strtod : Strtod) (maxDepth : ℕ) (value : Value) (text : List UInt8) : Prop :=
  ∀ {input position rest fuel depth}, At input position (text ++ rest) → Delimited rest →
    depth + value.depth ≤ maxDepth + 1 → 2 * (text ++ rest).length + 1 ≤ fuel →
    parseValue strtod input maxDepth fuel depth position = .ok (value, position + text.length)

def ReadsItems (strtod : Strtod) (maxDepth : ℕ) (items : List Value) (text : List UInt8) : Prop :=
  ∀ {input position rest fuel depth}, At input position (text ++ rest) →
    depth + depthOfItems items ≤ maxDepth → 2 * (text ++ rest).length + 2 ≤ fuel →
    parseItems strtod input maxDepth fuel depth position = .ok (items, position + text.length)

def ReadsMembers (strtod : Strtod) (maxDepth : ℕ) (members : List (List UInt8 × Value)) (text : List UInt8) :
    Prop :=
  ∀ {input position rest fuel depth}, At input position (text ++ rest) →
    depth + depthOfMembers members ≤ maxDepth → 2 * (text ++ rest).length + 2 ≤ fuel →
    parseMembers strtod input maxDepth fuel depth position = .ok (members, position + text.length)

def ReadsShape (strtod : Strtod) (maxDepth : ℕ) : Shape → List UInt8 → Prop
  | .value value => ReadsValue strtod maxDepth value
  | .items items => ReadsItems strtod maxDepth items
  | .members members => ReadsMembers strtod maxDepth members

variable {strtod : Strtod} {maxDepth : ℕ}

/-- What `parseValue` does at a byte. -/
theorem parseValue_cons {fuel depth : ℕ} {b : UInt8} {tail : List UInt8}
    (hat : At input position (b :: tail)) (hdepth : depth ≤ maxDepth) :
    parseValue strtod input maxDepth (fuel + 1) depth position =
      (if b = openBrace then parseObject input (parseMembers strtod input maxDepth fuel depth)
      else if b = openBracket then parseArray input (parseItems strtod input maxDepth fuel depth)
      else if b = quote then do
        let content ← parseString input
        pure (.string content)
      else if b = 0x74 then parseLiteral input trueText (.bool true)
      else if b = 0x66 then parseLiteral input falseText (.bool false)
      else if b = 0x6E then parseLiteral input nullText .null
      else parseNumber strtod input) position := by
  rw [parseValue, if_neg (not_lt.mpr hdepth), bind_ok (more_eq hat),
    decide_eq_true (List.cons_ne_nil b tail), if_pos rfl, bind_ok (current_eq hat)]

theorem exists_succ {bound fuel : ℕ} (h : bound + 1 ≤ fuel) : ∃ n, fuel = n + 1 :=
  ⟨fuel - 1, by omega⟩

theorem readsValue_literal {literal : List UInt8} {value : Value} {b : UInt8} {tail : List UInt8}
    (hliteral : literal = b :: tail) (hdepth : value.depth = 1)
    (hparse : ∀ {input fuel depth position rest}, At input position (b :: rest) →
      depth ≤ maxDepth → parseValue strtod input maxDepth (fuel + 1) depth position =
        parseLiteral input literal value position) :
    ReadsValue strtod maxDepth value literal := by
  intro input position rest fuel depth hat _ hlimit hfuel
  obtain ⟨fuel, rfl⟩ := exists_succ hfuel
  rw [hdepth] at hlimit
  have hfirst : At input position (b :: (tail ++ rest)) := by
    rw [hliteral] at hat
    exact hat
  rw [hparse hfirst (by omega), parseLiteral_eq _ _ hat, List.take_left, if_pos rfl]

theorem readsValue_number {token : List UInt8} (hnumber : IsNumber token)
    (hrange : InDoubleRange token) : ReadsValue strtod maxDepth (.number token) token := by
  intro input position rest fuel depth hat hrest hlimit hfuel
  obtain ⟨fuel, rfl⟩ := exists_succ hfuel
  obtain ⟨b, tail, hfirst, hb⟩ := head_number hnumber
  have hcons : At input position (b :: (tail ++ rest)) := by
    rw [hfirst] at hat
    exact hat
  have hother : ∀ c ∈ [openBrace, openBracket, quote, 0x74, 0x66, 0x6E], b ≠ c := by
    rintro c hc rfl
    simp only [List.mem_cons, List.not_mem_nil, or_false] at hc
    rcases hb with hb | hb
    · rcases hc with h | h | h | h | h | h <;> exact absurd (h.symm.trans hb) (by decide)
    · rcases hc with rfl | rfl | rfl | rfl | rfl | rfl <;> exact absurd hb (by decide)
  simp only [List.forall_mem_cons] at hother
  obtain ⟨h₁, h₂, h₃, h₄, h₅, h₆, -⟩ := hother
  rw [parseValue_cons hcons (by simp only [Value.depth] at hlimit; omega), if_neg h₁, if_neg h₂,
    if_neg h₃, if_neg h₄, if_neg h₅, if_neg h₆]
  exact parseNumber_eq strtod hnumber hrange hat hrest

theorem readsValue_string {text content : List UInt8} (htext : IsText text content) :
    ReadsValue strtod maxDepth (.string content) (quote :: (text ++ [quote])) := by
  intro input position rest fuel depth hat _ hlimit hfuel
  obtain ⟨fuel, rfl⟩ := exists_succ hfuel
  have hat : At input position (quote :: (text ++ quote :: rest)) := by simpa using hat
  rw [parseValue_cons hat (by simp only [Value.depth] at hlimit; omega), if_neg (by decide),
    if_neg (by decide), if_pos rfl, bind_ok (parseString_eq htext hat)]
  simp only [pure_apply, List.length_cons, List.length_append, List.length_nil]
  congr 2

theorem head_items {items : List Value} {text : List UInt8}
    (h : Derives helperDialect (.items items) text) :
    ∃ b tail, text = b :: tail ∧ isspace b = false ∧ b ≠ closeBracket := by
  cases h with
  | lastItem hitem _ | moreItems hitem _ _ _ =>
    obtain ⟨b, tail, rfl, hb⟩ := head_value hitem
    exact ⟨b, _, rfl, not_isspace_of_beginsValue hb⟩

theorem head_members {members : List (List UInt8 × Value)} {text : List UInt8}
    (h : Derives helperDialect (.members members) text) : ∃ tail, text = quote :: tail := by
  cases h with
  | lastMember | moreMembers => exact ⟨_, rfl⟩

theorem readsValue_emptyArray {space : List UInt8} (hspace : helperDialect.Space space) :
    ReadsValue strtod maxDepth (.array []) (openBracket :: (space ++ [closeBracket])) := by
  intro input position rest fuel depth hat _ hlimit hfuel
  obtain ⟨fuel, rfl⟩ := exists_succ hfuel
  have hat : At input position (openBracket :: (space ++ closeBracket :: rest)) := by
    simpa using hat
  have hnext : At input (position + 1) (space ++ closeBracket :: rest) := hat.step [openBracket]
  rw [parseValue_cons hat (by simp only [Value.depth] at hlimit; omega), if_neg (by decide),
    if_pos rfl, parseArray, bind_ok (show advance 1 position = .ok ((), position + 1) from rfl),
    bind_ok (skipSpace_eq hnext hspace (head_space (by decide))),
    bind_ok (consume_true (hnext.step space)), if_pos rfl]
  simp only [pure_apply, List.length_cons, List.length_append, List.length_nil]
  congr 2
  omega

theorem readsValue_array {space text : List UInt8} {items : List Value}
    (hspace : helperDialect.Space space) (hderives : Derives helperDialect (.items items) text)
    (hitems : ReadsItems strtod maxDepth items text) :
    ReadsValue strtod maxDepth (.array items) (openBracket :: (space ++ text)) := by
  intro input position rest fuel depth hat _ hlimit hfuel
  obtain ⟨fuel, rfl⟩ := exists_succ hfuel
  simp only [List.length_cons, List.length_append] at hfuel
  have hat : At input position (openBracket :: (space ++ (text ++ rest))) := by simpa using hat
  have hnext : At input (position + 1) (space ++ (text ++ rest)) := hat.step [openBracket]
  obtain ⟨b, tail, hfirst, hother, hclose⟩ := head_items hderives
  have hhead : ∀ c ∈ (text ++ rest).head?, isspace c = false := by
    rw [hfirst]
    exact head_space hother
  have hmore : (text ++ rest).head? ≠ some closeBracket := by
    rw [hfirst]
    simpa using hclose
  have hread := hitems (hnext.step space) (show depth + depthOfItems items ≤ _ by
    simp only [Value.depth] at hlimit
    omega) (show 2 * (text ++ rest).length + 2 ≤ fuel by
      rw [List.length_append]
      omega)
  rw [parseValue_cons hat (by simp only [Value.depth] at hlimit; omega), if_neg (by decide),
    if_pos rfl, parseArray, bind_ok (show advance 1 position = .ok ((), position + 1) from rfl),
    bind_ok (skipSpace_eq hnext hspace hhead), bind_ok (consume_false (hnext.step space) hmore)]
  simp only [Bool.false_eq_true, if_false]
  rw [bind_ok hread]
  simp only [pure_apply, List.length_cons, List.length_append]
  congr 2
  omega

theorem readsValue_emptyObject {space : List UInt8} (hspace : helperDialect.Space space) :
    ReadsValue strtod maxDepth (.object []) (openBrace :: (space ++ [closeBrace])) := by
  intro input position rest fuel depth hat _ hlimit hfuel
  obtain ⟨fuel, rfl⟩ := exists_succ hfuel
  have hat : At input position (openBrace :: (space ++ closeBrace :: rest)) := by simpa using hat
  have hnext : At input (position + 1) (space ++ closeBrace :: rest) := hat.step [openBrace]
  rw [parseValue_cons hat (by simp only [Value.depth] at hlimit; omega), if_pos rfl, parseObject,
    bind_ok (show advance 1 position = .ok ((), position + 1) from rfl),
    bind_ok (skipSpace_eq hnext hspace (head_space (by decide))),
    bind_ok (consume_true (hnext.step space)), if_pos rfl]
  simp only [pure_apply, List.length_cons, List.length_append, List.length_nil]
  congr 2
  omega

theorem readsValue_object {space text : List UInt8} {members : List (List UInt8 × Value)}
    (hspace : helperDialect.Space space) (hderives : Derives helperDialect (.members members) text)
    (hmembers : ReadsMembers strtod maxDepth members text) :
    ReadsValue strtod maxDepth (.object members) (openBrace :: (space ++ text)) := by
  intro input position rest fuel depth hat _ hlimit hfuel
  obtain ⟨fuel, rfl⟩ := exists_succ hfuel
  simp only [List.length_cons, List.length_append] at hfuel
  have hat : At input position (openBrace :: (space ++ (text ++ rest))) := by simpa using hat
  have hnext : At input (position + 1) (space ++ (text ++ rest)) := hat.step [openBrace]
  obtain ⟨tail, hfirst⟩ := head_members hderives
  have hhead : ∀ c ∈ (text ++ rest).head?, isspace c = false := by
    rw [hfirst]
    exact head_space (by decide)
  have hmore : (text ++ rest).head? ≠ some closeBrace := by
    rw [hfirst]
    rintro ⟨⟩
  have hread := hmembers (hnext.step space) (show depth + depthOfMembers members ≤ _ by
    simp only [Value.depth] at hlimit
    omega) (show 2 * (text ++ rest).length + 2 ≤ fuel by
      rw [List.length_append]
      omega)
  rw [parseValue_cons hat (by simp only [Value.depth] at hlimit; omega), if_pos rfl, parseObject,
    bind_ok (show advance 1 position = .ok ((), position + 1) from rfl),
    bind_ok (skipSpace_eq hnext hspace hhead), bind_ok (consume_false (hnext.step space) hmore)]
  simp only [Bool.false_eq_true, if_false]
  rw [bind_ok hread]
  simp only [pure_apply, List.length_cons, List.length_append]
  congr 2
  omega

theorem readsItems_last {text space : List UInt8} {item : Value} (hitem : ReadsValue strtod maxDepth item text)
    (hspace : helperDialect.Space space) :
    ReadsItems strtod maxDepth [item] (text ++ space ++ [closeBracket]) := by
  intro input position rest fuel depth hat hlimit hfuel
  obtain ⟨fuel, rfl⟩ := exists_succ hfuel
  have hrest : text ++ space ++ [closeBracket] ++ rest = text ++ (space ++ closeBracket :: rest) := by
    simp
  rw [hrest] at hat hfuel
  have hafter := hat.step text
  simp only [depthOfItems] at hlimit
  have hread := hitem hat (delimited_space hspace (by decide)) (show depth + 1 + item.depth ≤ _ by
    omega) (Nat.le_of_succ_le_succ hfuel)
  rw [parseItems, bind_ok hread,
    bind_ok (skipSpace_eq hafter hspace (head_space (by decide))),
    bind_ok (consume_true (hafter.step space)), if_pos rfl]
  simp only [pure_apply, List.length_append, List.length_cons, List.length_nil]
  congr 2
  omega

theorem readsItems_more {text space space' later : List UInt8} {item : Value} {items : List Value}
    (hitem : ReadsValue strtod maxDepth item text) (hspace : helperDialect.Space space)
    (hspace' : helperDialect.Space space') (hderives : Derives helperDialect (.items items) later)
    (hitems : ReadsItems strtod maxDepth items later) :
    ReadsItems strtod maxDepth (item :: items) (text ++ space ++ comma :: (space' ++ later)) := by
  intro input position rest fuel depth hat hlimit hfuel
  obtain ⟨fuel, rfl⟩ := exists_succ hfuel
  have hrest : text ++ space ++ comma :: (space' ++ later) ++ rest =
      text ++ (space ++ comma :: (space' ++ (later ++ rest))) := by
    simp
  rw [hrest] at hat hfuel
  have hafter := hat.step text
  have hcomma := hafter.step space
  have hnext : At input (position + text.length + space.length + 1) (space' ++ (later ++ rest)) :=
    hcomma.step [comma]
  obtain ⟨b, tail, hfirst, hother, -⟩ := head_items hderives
  have hhead : ∀ c ∈ (later ++ rest).head?, isspace c = false := by
    rw [hfirst]
    exact head_space hother
  simp only [depthOfItems] at hlimit
  have hread := hitem hat (delimited_space hspace (by decide)) (show depth + 1 + item.depth ≤ _ by
    omega) (Nat.le_of_succ_le_succ hfuel)
  have hothers := hitems (hnext.step space') (show depth + depthOfItems items ≤ _ by omega)
    (show 2 * (later ++ rest).length + 2 ≤ fuel by
      simp only [List.length_append, List.length_cons] at hfuel ⊢
      omega)
  rw [parseItems, bind_ok hread, bind_ok (skipSpace_eq hafter hspace (head_space (by decide))),
    bind_ok (consume_false hcomma (by rintro ⟨⟩))]
  simp only [Bool.false_eq_true, if_false]
  rw [bind_ok (consume_true hcomma), if_pos rfl, bind_ok (skipSpace_eq hnext hspace' hhead),
    bind_ok hothers]
  simp only [pure_apply, List.length_append, List.length_cons]
  congr 2
  omega

theorem position_unique {position' : ℕ} (hat : At input position rest)
    (hat' : At input position' rest) : position = position' := by
  have h := hat.length
  have h' := hat'.length
  omega

/-- The parser at a member, up to what follows its value. -/
theorem parseMembers_cons {key name space₁ space₂ text space later : List UInt8} {value : Value}
    {fuel depth : ℕ} {b : UInt8} (hkey : IsText key name) (hspace₁ : helperDialect.Space space₁)
    (hspace₂ : helperDialect.Space space₂) (hderives : Derives helperDialect (.value value) text)
    (hvalue : ReadsValue strtod maxDepth value text) (hspace : helperDialect.Space space)
    (hb : b ∈ [comma, closeBrace])
    (hat : At input position (quote :: (key ++ [quote]) ++ space₁ ++ colon :: (space₂ ++ text) ++
      space ++ b :: later))
    (hlimit : depth + value.depth ≤ maxDepth)
    (hfuel : 2 * (text ++ (space ++ b :: later)).length + 1 ≤ fuel) :
    ∃ next, At input next (b :: later) ∧
      parseMembers strtod input maxDepth (fuel + 1) depth position =
        (do
          if ← consume input closeBrace then pure [(name, value)]
          else if ← consume input comma then
            skipSpace input
            let members ← parseMembers strtod input maxDepth fuel depth
            pure ((name, value) :: members)
          else fail "JSON object entries must be separated by commas") next := by
  have hkeyed : At input position (quote :: (key ++ quote :: (space₁ ++ colon :: (space₂ ++
      (text ++ (space ++ b :: later)))))) := by simpa using hat
  have hcolon : At input (position + key.length + 2)
      (space₁ ++ colon :: (space₂ ++ (text ++ (space ++ b :: later)))) := by
    have hquoted : At input position ((quote :: (key ++ [quote])) ++
        (space₁ ++ colon :: (space₂ ++ (text ++ (space ++ b :: later))))) := by simpa using hat
    simpa [Nat.add_assoc] using hquoted.step _
  have hafterColon : At input (position + key.length + 2 + space₁.length + 1)
      (space₂ ++ (text ++ (space ++ b :: later))) := (hcolon.step space₁).step [colon]
  have hchild := hafterColon.step space₂
  have hafter := hchild.step text
  obtain ⟨first, tail, hfirst, hbegins⟩ := head_value hderives
  have hhead : ∀ c ∈ (text ++ (space ++ b :: later)).head?, isspace c = false := by
    rw [hfirst]
    exact head_space (not_isspace_of_beginsValue hbegins).1
  have hclosing : b ∈ [comma, closeBracket, closeBrace] ∧ isspace b = false := by
    have hall : [comma, closeBrace].all (fun b => decide (b ∈ [comma, closeBracket, closeBrace]) &&
        !isspace b) = true := by decide
    simpa using List.all_eq_true.1 hall b hb
  have hread := hvalue hchild (delimited_space hspace hclosing.1)
    (show depth + 1 + value.depth ≤ _ by omega) hfuel
  refine ⟨_, hafter.step space, ?_⟩
  rw [parseMembers, bind_ok (currentIs_eq _ hkeyed), List.head?_cons, Option.any_some,
    beq_self_eq_true, if_pos rfl, bind_ok (parseString_eq hkey hkeyed),
    bind_ok (skipSpace_eq hcolon hspace₁ (head_space (by decide))),
    bind_ok (consume_true (hcolon.step space₁)), if_pos rfl,
    bind_ok (skipSpace_eq hafterColon hspace₂ hhead), bind_ok hread,
    bind_ok (skipSpace_eq hafter hspace (head_space hclosing.2))]

theorem readsMembers_last {key name space₁ space₂ text space : List UInt8} {value : Value}
    (hkey : IsText key name) (hspace₁ : helperDialect.Space space₁)
    (hspace₂ : helperDialect.Space space₂) (hderives : Derives helperDialect (.value value) text)
    (hvalue : ReadsValue strtod maxDepth value text) (hspace : helperDialect.Space space) :
    ReadsMembers strtod maxDepth [(name, value)]
      (quote :: (key ++ [quote]) ++ space₁ ++ colon :: (space₂ ++ text) ++ space ++
        [closeBrace]) := by
  intro input position rest fuel depth hat hlimit hfuel
  obtain ⟨fuel, rfl⟩ := exists_succ hfuel
  have hend := hat.step _
  rw [List.append_assoc, List.singleton_append] at hat
  simp only [depthOfMembers] at hlimit
  have hless : 2 * (text ++ (space ++ closeBrace :: rest)).length + 1 ≤ fuel := by
    simp only [List.length_append, List.length_cons, List.length_nil] at hfuel ⊢
    omega
  obtain ⟨next, hnext, hparse⟩ := parseMembers_cons hkey hspace₁ hspace₂ hderives hvalue hspace
    (List.mem_cons_of_mem _ List.mem_cons_self) hat (show depth + value.depth ≤ _ by omega) hless
  have hposition : next + 1 = _ := position_unique (hnext.step [closeBrace]) hend
  rw [hparse, bind_ok (consume_true hnext), if_pos rfl, hposition]
  rfl

theorem readsMembers_more {key name space₁ space₂ text space space' later : List UInt8}
    {value : Value} {members : List (List UInt8 × Value)}
    (hkey : IsText key name) (hspace₁ : helperDialect.Space space₁)
    (hspace₂ : helperDialect.Space space₂) (hderives : Derives helperDialect (.value value) text)
    (hvalue : ReadsValue strtod maxDepth value text) (hspace : helperDialect.Space space)
    (hspace' : helperDialect.Space space') (hlater : Derives helperDialect (.members members) later)
    (hmembers : ReadsMembers strtod maxDepth members later) :
    ReadsMembers strtod maxDepth ((name, value) :: members)
      (quote :: (key ++ [quote]) ++ space₁ ++ colon :: (space₂ ++ text) ++ space ++
        comma :: (space' ++ later)) := by
  intro input position rest fuel depth hat hlimit hfuel
  obtain ⟨fuel, rfl⟩ := exists_succ hfuel
  have hend := hat.step _
  have hrest : quote :: (key ++ [quote]) ++ space₁ ++ colon :: (space₂ ++ text) ++ space ++
      comma :: (space' ++ later) ++ rest = quote :: (key ++ [quote]) ++ space₁ ++
        colon :: (space₂ ++ text) ++ space ++ comma :: (space' ++ (later ++ rest)) := by
    simp
  rw [hrest] at hat
  simp only [depthOfMembers] at hlimit
  have hless : 2 * (text ++ (space ++ comma :: (space' ++ (later ++ rest)))).length + 1 ≤ fuel := by
    simp only [List.length_append, List.length_cons] at hfuel ⊢
    omega
  obtain ⟨next, hnext, hparse⟩ := parseMembers_cons hkey hspace₁ hspace₂ hderives hvalue hspace
    List.mem_cons_self hat (show depth + value.depth ≤ _ by omega) hless
  have hafter : At input (next + 1) (space' ++ (later ++ rest)) := hnext.step [comma]
  have hothers := hmembers (hafter.step space') (show depth + depthOfMembers members ≤ _ by omega)
    (show 2 * (later ++ rest).length + 2 ≤ fuel by
      simp only [List.length_append, List.length_cons] at hfuel ⊢
      omega)
  obtain ⟨tail, hfirst⟩ := head_members hlater
  have hhead : ∀ c ∈ (later ++ rest).head?, isspace c = false := by
    rw [hfirst]
    exact head_space (by decide)
  rw [hparse, bind_ok (consume_false hnext (by rintro ⟨⟩))]
  simp only [Bool.false_eq_true, if_false]
  rw [bind_ok (consume_true hnext), if_pos rfl, bind_ok (skipSpace_eq hafter hspace' hhead),
    bind_ok hothers, position_unique ((hafter.step space').step later) hend]
  rfl

theorem readsShape_of_derives (strtod : Strtod) (maxDepth : ℕ) {shape : Shape} {text : List UInt8}
    (h : Derives helperDialect shape text) : ReadsShape strtod maxDepth shape text := by
  induction h with
  | null =>
    refine readsValue_literal rfl rfl fun hat hdepth => ?_
    rw [parseValue_cons hat hdepth]
    rfl
  | isTrue =>
    refine readsValue_literal rfl rfl fun hat hdepth => ?_
    rw [parseValue_cons hat hdepth]
    rfl
  | isFalse =>
    refine readsValue_literal rfl rfl fun hat hdepth => ?_
    rw [parseValue_cons hat hdepth]
    rfl
  | number hnumber hrange => exact readsValue_number hnumber hrange
  | string htext => exact readsValue_string htext
  | emptyArray hspace => exact readsValue_emptyArray hspace
  | array hspace hitems ih => exact readsValue_array hspace hitems ih
  | emptyObject hspace => exact readsValue_emptyObject hspace
  | object hspace hmembers ih => exact readsValue_object hspace hmembers ih
  | lastItem _ hspace ih => exact readsItems_last ih hspace
  | moreItems _ hspace hspace' hitems ih ih' =>
    exact readsItems_more ih hspace hspace' hitems ih'
  | lastMember hkey hspace₁ hspace₂ hvalue hspace ih =>
    exact readsMembers_last hkey hspace₁ hspace₂ hvalue ih hspace
  | moreMembers hkey hspace₁ hspace₂ hvalue hspace hspace' hmembers ih ih' =>
    exact readsMembers_more hkey hspace₁ hspace₂ hvalue ih hspace hspace' hmembers ih'

/-! ## Documents -/

/-- The value of a document is read with any limit that it fits under. -/
theorem parseValue_document (strtod : Strtod) {maxDepth : ℕ} {value : Value}
    (hdocument : IsDocument helperDialect value input) (hdepth : value.depth ≤ maxDepth) :
    ∃ start next space, helperDialect.Space space ∧ At input next space ∧
      skipSpace input 0 = .ok ((), start) ∧
      parseValue strtod input maxDepth (2 * input.length + 3) 1 start = .ok (value, next) := by
  obtain ⟨space, text, space', hspace, hvalue, hspace', rfl⟩ := hdocument
  have hsplit : space ++ text ++ space' = space ++ (text ++ space') := List.append_assoc _ _ _
  have hstart := At.start (space ++ text ++ space')
  rw [hsplit] at hstart
  have hat := hstart.step space
  obtain ⟨b, tail, hfirst, hbegins⟩ := head_value hvalue
  have hhead : ∀ c ∈ (text ++ space').head?, isspace c = false := by
    rw [hfirst]
    exact head_space (not_isspace_of_beginsValue hbegins).1
  have hrest : Delimited space' := fun c hc => Or.inl (hspace' c (List.mem_of_mem_head? hc))
  have hread := readsShape_of_derives strtod maxDepth hvalue hat hrest
    (show 1 + value.depth ≤ maxDepth + 1 by omega)
    (show 2 * (text ++ space').length + 1 ≤ 2 * (space ++ (text ++ space')).length + 3 by
      simp only [List.length_append]
      omega)
  rw [hsplit]
  exact ⟨_, _, space', hspace', hat.step text, skipSpace_eq hstart hspace hhead, hread⟩

/-- A document has one value. -/
theorem document_unique {value value' : Value}
    (h : IsDocument helperDialect value input) (h' : IsDocument helperDialect value' input) :
    value = value' := by
  obtain ⟨start, _, _, -, -, hskip, hread⟩ :=
    parseValue_document scannedStrtod h (le_max_left _ value'.depth)
  obtain ⟨start', _, _, -, -, hskip', hread'⟩ :=
    parseValue_document scannedStrtod h' (le_max_right value.depth _)
  have hstart : start = start' := congrArg Prod.snd (Except.ok.inj (hskip.symm.trans hskip'))
  rw [← hstart, hread] at hread'
  exact congrArg Prod.fst (Except.ok.inj hread')

theorem parse_document (strtod : Strtod) {members : List (List UInt8 × Value)}
    (hdocument : IsDocument helperDialect (.object members) input)
    (hdepth : (Value.object members).depth ≤ kJsonDocumentMaxDepth) :
    ∃ next, parse strtod input 0 = .ok (.object members, next) := by
  obtain ⟨start, next, space, hspace, hat, hskip, hread⟩ :=
    parseValue_document strtod hdocument hdepth
  have hat' : At input next (space ++ []) := by rwa [List.append_nil]
  have hend := hat'.step space
  refine ⟨next + space.length, ?_⟩
  unfold parse
  rw [bind_ok hskip, bind_ok hread, bind_ok (skipSpace_eq hat' hspace (by rintro c ⟨⟩)),
    bind_ok (finished_eq hend), decide_eq_true rfl, if_pos rfl]
  rfl

end JsonParser

open JsonParser Parsing

/-- The parser stops with a message or with the one value of an object in its limits. -/
theorem parse_cases (strtod : Strtod) (json : List UInt8) :
    (∃ message, JsonDocument.parse strtod json = .error (.failed message)) ∨
    ∃ members, JsonDocument.parse strtod json = .ok ⟨.object members⟩ ∧
      json.length ≤ kJsonDocumentMaxLength ∧ IsDocument helperDialect (.object members) json ∧
      (Value.object members).depth ≤ kJsonDocumentMaxDepth := by
  unfold JsonDocument.parse
  split_ifs with hlength
  · exact Or.inl ⟨_, rfl⟩
  · rcases reads_parse strtod json with ⟨stops⟩ | ⟨value, text, rest, reads, split, holds⟩
    · exact Or.inl ⟨_, by rw [stops]⟩
    · obtain ⟨rfl, hdocument, hdepth, members, rfl⟩ := holds
      rw [List.append_nil] at split
      rw [← split] at hdocument
      exact Or.inr ⟨members, by rw [reads], not_lt.mp hlength, hdocument, hdepth⟩

theorem parse_of_document (strtod : Strtod) {json : List UInt8}
    {members : List (List UInt8 × Value)} (hlength : json.length ≤ kJsonDocumentMaxLength)
    (hdocument : IsDocument helperDialect (.object members) json)
    (hdepth : (Value.object members).depth ≤ kJsonDocumentMaxDepth) :
    JsonDocument.parse strtod json = .ok ⟨.object members⟩ := by
  obtain ⟨next, hparse⟩ := parse_document strtod hdocument hdepth
  unfold JsonDocument.parse
  rw [if_neg (not_lt.mpr hlength), hparse]

end MacTypeControl.Preview
