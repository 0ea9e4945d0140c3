import MacTypeControl.Preview.JsonDocument
import Mathlib.Data.List.TakeWhile

/-!
# What the parser of the helper reads

Every part of the parser reads a text from the front of what is left of the input, or fails with a
message. It never reads outside the input, and its loops end.
-/

namespace MacTypeControl.Preview

open Json.Grammar

/-- The input is read up to the position, and the rest is left. -/
def At (input : List UInt8) (position : ℕ) (rest : List UInt8) : Prop :=
  ∃ before, input = before ++ rest ∧ before.length = position

namespace At

variable {input rest : List UInt8} {position : ℕ}

theorem start (input : List UInt8) : At input 0 input := ⟨[], rfl, rfl⟩

theorem step (text : List UInt8) (h : At input position (text ++ rest)) :
    At input (position + text.length) rest := by
  obtain ⟨before, rfl, rfl⟩ := h
  exact ⟨before ++ text, by rw [List.append_assoc], by rw [List.length_append]⟩

theorem length (h : At input position rest) : position + rest.length = input.length := by
  obtain ⟨before, rfl, rfl⟩ := h
  rw [List.length_append]

theorem drop (h : At input position rest) : input.drop position = rest := by
  obtain ⟨before, rfl, rfl⟩ := h
  exact List.drop_left

theorem getElem? (h : At input position rest) : input[position]? = rest.head? := by
  obtain ⟨before, rfl, rfl⟩ := h
  rw [List.getElem?_append_right (le_refl _), Nat.sub_self, List.head?_eq_getElem?]

end At

namespace Parsing

variable {α β : Type}

@[simp] theorem pure_apply (a : α) (position : ℕ) :
    (pure a : Parsing α) position = .ok (a, position) := rfl

theorem bind_ok {m : Parsing α} {f : α → Parsing β} {position next : ℕ} {a : α}
    (h : m position = .ok (a, next)) : (m >>= f) position = f a next := by
  show andThen m f position = f a next
  unfold andThen
  rw [h]

theorem bind_error {m : Parsing α} {f : α → Parsing β} {position : ℕ} {stop : Stop}
    (h : m position = .error stop) : (m >>= f) position = .error stop := by
  show andThen m f position = .error stop
  unfold andThen
  rw [h]

/-- The part reads a text with that property, or fails with a message. -/
inductive Reads (m : Parsing α) (position : ℕ) (rest : List UInt8)
    (R : α → List UInt8 → List UInt8 → Prop) : Prop
  | failed {message : String} (stops : m position = .error (.failed message))
  | read (a : α) (text rest' : List UInt8) (reads : m position = .ok (a, position + text.length))
      (split : rest = text ++ rest') (holds : R a text rest')

variable {m : Parsing α} {position : ℕ} {rest : List UInt8}
  {R R' : α → List UInt8 → List UInt8 → Prop}

theorem reads_pure {a : α} (h : R a [] rest) : Reads (pure a) position rest R :=
  .read a [] rest rfl rfl h

theorem reads_fail {message : String} : Reads (JsonParser.fail message) position rest R :=
  .failed rfl

theorem Reads.mono (h : Reads m position rest R)
    (hR : ∀ a text rest', rest = text ++ rest' → R a text rest' → R' a text rest') :
    Reads m position rest R' := by
  cases h with
  | failed stops => exact .failed stops
  | read a text rest' reads split holds => exact .read _ _ _ reads split (hR _ _ _ split holds)

theorem reads_bind {input : List UInt8} {f : α → Parsing β}
    {S : β → List UInt8 → List UInt8 → Prop} (hat : At input position rest)
    (hm : Reads m position rest R)
    (hf : ∀ a text rest', rest = text ++ rest' → R a text rest' →
      At input (position + text.length) rest' →
      Reads (f a) (position + text.length) rest' fun b text' => S b (text ++ text')) :
    Reads (m >>= f) position rest S := by
  cases hm with
  | failed stops => exact .failed (bind_error stops)
  | read a text rest' reads split holds =>
    cases hf _ _ _ split holds (by rw [split] at hat; exact hat.step _) with
    | failed stops => exact .failed ((bind_ok reads).trans stops)
    | read b text' rest'' reads' split' holds' =>
      refine .read b (text ++ text') rest'' ((bind_ok reads).trans ?_) (by rw [split, split', List.append_assoc]) holds'
      rw [reads', List.length_append, Nat.add_assoc]

/-- A part that only looks at the input. -/
theorem reads_look {f : α → Parsing β} {S : β → List UInt8 → List UInt8 → Prop} {a : α}
    (hm : m position = .ok (a, position)) (hf : Reads (f a) position rest S) :
    Reads (m >>= f) position rest S := by
  cases hf with
  | failed stops => exact .failed ((bind_ok hm).trans stops)
  | read a text rest' reads split holds => exact .read _ _ _ ((bind_ok hm).trans reads) split holds

theorem reads_advance {b : UInt8} {tail : List UInt8} {f : Unit → Parsing β}
    {S : β → List UInt8 → List UInt8 → Prop}
    (h : Reads (f ()) (position + 1) tail fun c text' => S c (b :: text')) :
    Reads (JsonParser.advance 1 >>= f) position (b :: tail) S := by
  have hstep : JsonParser.advance 1 position = .ok ((), position + 1) := rfl
  cases h with
  | failed stops => exact .failed ((bind_ok hstep).trans stops)
  | read c text rest' reads split holds =>
    refine .read c (b :: text) rest' ((bind_ok hstep).trans ?_) (by rw [split]; rfl) holds
    rw [reads, List.length_cons, Nat.add_assoc, Nat.add_comm 1]

end Parsing

namespace JsonParser

open Parsing

variable {input rest : List UInt8} {position : ℕ}

/-! ## Single bytes -/

theorem more_eq (hat : At input position rest) :
    more input position = .ok (decide (rest ≠ []), position) := by
  have hlength := hat.length
  have hmore : position < input.length ↔ rest ≠ [] := by
    rw [← List.length_pos_iff]
    omega
  unfold more
  simp only [hmore]

theorem current_eq {b : UInt8} (hat : At input position (b :: rest)) :
    current input position = .ok (b, position) := by
  unfold current
  rw [hat.getElem?]
  rfl

theorem currentIs_eq (wanted : UInt8 → Bool) (hat : At input position rest) :
    currentIs input wanted position = .ok (rest.head?.any wanted, position) := by
  unfold currentIs
  rw [bind_ok (more_eq hat)]
  cases rest with
  | nil => rfl
  | cons b tail =>
    rw [decide_eq_true (List.cons_ne_nil b tail), if_pos rfl, bind_ok (current_eq hat)]
    rfl

theorem consumeOneOf_true {characters : List UInt8} {b : UInt8} (hat : At input position (b :: rest))
    (h : b ∈ characters) : consumeOneOf input characters position = .ok (true, position + 1) := by
  unfold consumeOneOf
  rw [bind_ok (currentIs_eq _ hat)]
  simp only [List.head?_cons, Option.any_some, decide_eq_true h, if_true]
  rfl

theorem consumeOneOf_false {characters : List UInt8} (hat : At input position rest)
    (h : ∀ b ∈ rest.head?, b ∉ characters) :
    consumeOneOf input characters position = .ok (false, position) := by
  have hnone : rest.head?.any (fun b => decide (b ∈ characters)) = false := by
    cases rest with
    | nil => rfl
    | cons b tail => simpa using h b rfl
  unfold consumeOneOf
  rw [bind_ok (currentIs_eq _ hat), hnone]
  rfl

theorem reads_consumeOneOf (characters : List UInt8) (hat : At input position rest) :
    Reads (consumeOneOf input characters) position rest fun consumed text rest' =>
      (consumed = true ∧ ∃ b ∈ characters, text = [b]) ∨
        (consumed = false ∧ text = [] ∧ ∀ b ∈ rest'.head?, b ∉ characters) := by
  cases rest with
  | nil =>
    exact .read false [] [] (consumeOneOf_false hat (by simp)) rfl
      (Or.inr ⟨rfl, rfl, by simp⟩)
  | cons b tail =>
    by_cases hb : b ∈ characters
    · exact .read true [b] tail (consumeOneOf_true hat hb) rfl (Or.inl ⟨rfl, b, hb, rfl⟩)
    · have hhead : ∀ c ∈ (b :: tail).head?, c ∉ characters := by
        rintro c ⟨⟩
        exact hb
      exact .read false [] (b :: tail) (consumeOneOf_false hat hhead) rfl (Or.inr ⟨rfl, rfl, hhead⟩)

/-! ## Runs of bytes -/

theorem advanceWhile_eq (wanted : UInt8 → Bool) {fuel : ℕ} (hat : At input position rest)
    (hfuel : rest.length < fuel) :
    advanceWhile input wanted fuel position =
      .ok ((), position + (rest.takeWhile wanted).length) := by
  induction fuel generalizing position rest with
  | zero => exact absurd hfuel (Nat.not_lt_zero _)
  | succ fuel ih =>
    unfold advanceWhile
    rw [bind_ok (currentIs_eq wanted hat)]
    cases rest with
    | nil => rfl
    | cons b tail =>
      cases hb : wanted b with
      | false => simp [hb]
      | true =>
        have hnext : At input (position + 1) tail := hat.step [b]
        have hlater := ih hnext (by simpa using hfuel)
        rw [List.head?_cons, Option.any_some, hb, if_pos rfl,
          bind_ok (show advance 1 position = .ok ((), position + 1) from rfl), hlater,
          List.takeWhile_cons_of_pos hb, List.length_cons, Nat.add_assoc, Nat.add_comm 1]

theorem reads_advanceWhile (wanted : UInt8 → Bool) (hat : At input position rest) :
    Reads (advanceWhile input wanted (input.length + 1)) position rest fun _ text rest' =>
      (∀ b ∈ text, wanted b = true) ∧ ∀ b ∈ rest'.head?, wanted b = false := by
  have hlength := hat.length
  refine .read () (rest.takeWhile wanted) (rest.dropWhile wanted)
    (advanceWhile_eq wanted hat (by omega)) List.takeWhile_append_dropWhile.symm
    ⟨fun b => List.mem_takeWhile_imp, ?_⟩
  intro b hb
  have hhead := List.head?_dropWhile_not wanted rest
  rw [hb] at hhead
  simpa using hhead

/-- A run is read to its end where what follows does not belong to it. -/
theorem advanceWhile_run (wanted : UInt8 → Bool) {text rest : List UInt8}
    (hat : At input position (text ++ rest)) (htext : ∀ b ∈ text, wanted b = true)
    (hrest : ∀ b ∈ rest.head?, wanted b = false) :
    advanceWhile input wanted (input.length + 1) position = .ok ((), position + text.length) := by
  have hlength := hat.length
  have hnone : rest.takeWhile wanted = [] := by
    cases rest with
    | nil => rfl
    | cons b tail => exact List.takeWhile_cons_of_neg (by simp [hrest b rfl])
  rw [advanceWhile_eq wanted hat (by omega), List.takeWhile_append_of_pos htext, hnone,
    List.append_nil]

/-! ## Strings -/

theorem reads_parseCharacters {fuel : ℕ} (hat : At input position rest)
    (hfuel : rest.length < fuel) :
    Reads (parseCharacters input fuel) position rest fun content text _ =>
      ∃ characters, text = characters ++ [quote] ∧ IsText characters content := by
  induction fuel generalizing position rest with
  | zero => exact absurd hfuel (Nat.not_lt_zero _)
  | succ fuel ih =>
    unfold parseCharacters
    refine reads_look (more_eq hat) ?_
    cases rest with
    | nil => exact reads_fail
    | cons b tail =>
      rw [decide_eq_true (List.cons_ne_nil b tail), if_pos rfl]
      refine reads_look (current_eq hat) ?_
      have hnext : At input (position + 1) tail := hat.step [b]
      rw [List.length_cons] at hfuel
      refine reads_advance ?_
      split_ifs with hquote hcontrol hplain
      · exact reads_pure ⟨[], by rw [hquote]; rfl, .nil⟩
      · exact reads_fail
      · refine reads_bind hnext (ih hnext (by omega)) fun content text _ _ hread _ => ?_
        obtain ⟨characters, rfl, htext⟩ := hread
        refine reads_pure ⟨b :: characters, by simp, ?_⟩
        exact .plain (UInt8.not_lt.mp hcontrol) hquote hplain htext
      · rw [not_not] at hplain
        subst hplain
        refine reads_look (more_eq hnext) ?_
        cases tail with
        | nil => exact reads_fail
        | cons letter tail =>
          rw [decide_eq_true (List.cons_ne_nil letter tail), if_pos rfl]
          refine reads_look (current_eq hnext) (reads_advance ?_)
          have hlast : At input (position + 1 + 1) tail := hnext.step [letter]
          cases hlookup : escapes.lookup letter with
          | none => exact reads_fail
          | some escaped =>
            rw [List.length_cons] at hfuel
            refine reads_bind hlast (ih hlast (by omega)) fun content text _ _ hread _ => ?_
            obtain ⟨characters, rfl, htext⟩ := hread
            refine reads_pure ⟨backslash :: letter :: characters, by simp, ?_⟩
            obtain ⟨front, back, hescapes, -⟩ := List.lookup_eq_some_iff.mp hlookup
            exact .escape (by rw [hescapes]; simp) htext

theorem reads_parseString {tail : List UInt8} (hat : At input position (quote :: tail)) :
    Reads (parseString input) position (quote :: tail) fun content text _ =>
      ∃ characters, text = quote :: (characters ++ [quote]) ∧ IsText characters content := by
  have hnext : At input (position + 1) tail := hat.step [quote]
  have hlength := hnext.length
  refine reads_advance ((reads_parseCharacters hnext (by omega)).mono ?_)
  rintro content text _ - ⟨characters, rfl, htext⟩
  exact ⟨characters, rfl, htext⟩

/-! ## Literals -/

theorem parseLiteral_eq (literal : List UInt8) (value : Value) (hat : At input position rest) :
    parseLiteral input literal value position =
      if rest.take literal.length = literal then .ok (value, position + literal.length)
      else .error (.failed "invalid JSON value") := by
  have hlength := hat.length
  unfold parseLiteral
  rw [if_neg (by omega), hat.drop]

theorem reads_parseLiteral (literal : List UInt8) (value : Value) (hat : At input position rest) :
    Reads (parseLiteral input literal value) position rest fun read text _ =>
      read = value ∧ text = literal := by
  have hparse := parseLiteral_eq literal value hat
  by_cases hsame : rest.take literal.length = literal
  · rw [if_pos hsame] at hparse
    refine .read value literal (rest.drop literal.length) hparse ?_ ⟨rfl, rfl⟩
    conv_lhs => rw [← List.take_append_drop literal.length rest, hsame]
  · rw [if_neg hsame] at hparse
    exact .failed hparse

/-! ## Numbers -/

theorem reads_parseDigits (message : String) (hat : At input position rest) :
    Reads (parseDigits input message) position rest fun _ text _ =>
      Digits text ∧ text.head? = rest.head? := by
  refine reads_look (currentIs_eq isDigit hat) ?_
  cases rest with
  | nil => exact reads_fail
  | cons b tail =>
    cases hb : isDigit b with
    | false =>
      simp only [List.head?_cons, Option.any_some, hb, Bool.false_eq_true, if_false]
      exact reads_fail
    | true =>
      simp only [List.head?_cons, Option.any_some, hb, if_true]
      refine (reads_advanceWhile isDigit hat).mono fun _ text rest' hsplit hread => ?_
      cases text with
      | nil =>
        rw [List.nil_append] at hsplit
        subst hsplit
        exact absurd (hread.2 b rfl) (by simp [hb])
      | cons c text =>
        obtain ⟨rfl, -⟩ := List.cons.inj hsplit
        exact ⟨⟨List.cons_ne_nil _ _, hread.1⟩, rfl⟩

theorem reads_parseInteger (hat : At input position rest) :
    Reads (parseInteger input) position rest fun _ text _ => IsInteger text := by
  refine reads_bind hat (reads_consumeOneOf [zero] hat) ?_
  rintro _ text _ hsplit (⟨rfl, b, hb, rfl⟩ | ⟨rfl, rfl, hother⟩) hnext
  · obtain rfl := List.mem_singleton.mp hb
    rw [if_pos rfl]
    refine reads_look (currentIs_eq isDigit hnext) ?_
    split_ifs
    · exact reads_fail
    · exact reads_pure (Or.inl rfl)
  · refine (reads_parseDigits _ hnext).mono fun _ text _ hsplit' hread => Or.inr ⟨hread.1, ?_⟩
    rw [List.nil_append, hread.2]
    intro hzero
    exact hother zero hzero (List.mem_singleton_self _)

theorem reads_parseFraction (hat : At input position rest) :
    Reads (parseFraction input) position rest fun _ text _ => IsFraction text := by
  refine reads_bind hat (reads_consumeOneOf [point] hat) ?_
  rintro _ text rest' hsplit (⟨rfl, b, hb, rfl⟩ | ⟨rfl, rfl, -⟩) hnext
  · obtain rfl := List.mem_singleton.mp hb
    exact (reads_parseDigits _ hnext).mono fun _ text _ _ hread => Or.inr ⟨text, rfl, hread.1⟩
  · exact reads_pure (Or.inl rfl)

theorem reads_parseExponent (hat : At input position rest) :
    Reads (parseExponent input) position rest fun _ text _ => IsExponent text := by
  refine reads_bind hat (reads_consumeOneOf exponentMarks hat) ?_
  rintro _ text rest' hsplit (⟨rfl, mark, hmark, rfl⟩ | ⟨rfl, rfl, -⟩) hnext
  · refine reads_bind hnext (reads_consumeOneOf [plus, minus] hnext) ?_
    intro _ sign _ _ hsign hlast
    have hsigned : sign ∈ [[], [plus], [minus]] := by
      rcases hsign with ⟨-, b, hb, rfl⟩ | ⟨-, rfl, -⟩
      · simpa using hb
      · exact List.mem_cons_self
    refine (reads_parseDigits _ hlast).mono fun _ text _ _ hread => ?_
    exact Or.inr ⟨mark, hmark, sign, hsigned, text, rfl, hread.1⟩
  · exact reads_pure (Or.inl rfl)

theorem reads_scanNumber (hat : At input position rest) :
    Reads (scanNumber input) position rest fun _ text _ => IsNumber text := by
  refine reads_bind hat (reads_consumeOneOf [minus] hat) ?_
  intro negative sign rest' _ hsign hnext
  have hsigned : sign ∈ [[], [minus]] := by
    rcases hsign with ⟨-, b, hb, rfl⟩ | ⟨-, rfl, -⟩
    · simpa using hb
    · exact List.mem_cons_self
  refine reads_look (more_eq hnext) ?_
  split_ifs
  · exact reads_fail
  · refine reads_bind hnext (reads_parseInteger hnext) fun _ integer _ _ hinteger hnext => ?_
    refine reads_bind hnext (reads_parseFraction hnext) fun _ fraction _ _ hfraction hnext => ?_
    refine (reads_parseExponent hnext).mono fun _ exponent _ _ hexponent => ?_
    refine ⟨sign, hsigned, integer, fraction, exponent, ?_, hinteger, hfraction, hexponent⟩
    simp only [List.append_assoc]

theorem reads_parseNumber (strtod : Strtod) (hat : At input position rest) :
    Reads (parseNumber strtod input) position rest fun value text _ =>
      value = .number text ∧ IsNumber text ∧ InDoubleRange text := by
  refine reads_look (show tell position = .ok (position, position) from rfl) ?_
  cases reads_scanNumber hat with
  | failed stops => exact .failed (bind_error stops)
  | read _ text rest' reads split holds =>
    by_cases hstop : strtod.finite rest = false ∨
        position + strtod.ending rest ≠ position + text.length
    · have hrange : convert strtod input position (position + text.length) =
          .error (.failed "JSON number is outside the supported range") := by
        unfold convert
        rw [hat.drop, if_pos hstop]
      exact .failed ((bind_ok reads).trans hrange)
    · rw [not_or, not_not, Bool.not_eq_false, Nat.add_left_cancel_iff] at hstop
      obtain ⟨hfinite, hending⟩ := hstop
      have htoken : rest.take text.length = text := by rw [split, List.take_left]
      rw [split] at hfinite hending
      refine .read (.number text) text rest' ((bind_ok reads).trans ?_) split
        ⟨rfl, holds, (strtod.finite_number text rest' holds hending).mp hfinite⟩
      unfold convert
      rw [hat.drop, Nat.add_sub_cancel_left, htoken, split, hfinite, hending, if_neg (by simp)]

/-! ## Values -/

/-- The dialect that the helper takes. -/
def helperDialect : Dialect := ⟨isspace, InDoubleRange⟩

theorem reads_skipSpace (hat : At input position rest) :
    Reads (skipSpace input) position rest fun _ text _ => helperDialect.Space text :=
  (reads_advanceWhile isspace hat).mono fun _ _ _ _ h => h.1

theorem reads_consume (character : UInt8) (hat : At input position rest) :
    Reads (consume input character) position rest fun consumed text _ =>
      (consumed = true ∧ text = [character]) ∨ (consumed = false ∧ text = []) := by
  refine (reads_consumeOneOf [character] hat).mono ?_
  rintro consumed text _ - (⟨hconsumed, b, hb, htext⟩ | ⟨hconsumed, htext, -⟩)
  · rw [List.mem_singleton.mp hb] at htext
    exact Or.inl ⟨hconsumed, htext⟩
  · exact Or.inr ⟨hconsumed, htext⟩

/-- What is read derives the value, which fits under the limit from this depth on. -/
def ValueRead (maxDepth depth : ℕ) (value : Value) (text : List UInt8) : Prop :=
  Derives helperDialect (.value value) text ∧ depth + value.depth ≤ maxDepth + 1

def MembersRead (maxDepth depth : ℕ) (members : List (List UInt8 × Value)) (text : List UInt8) : Prop :=
  Derives helperDialect (.members members) text ∧
    depth + depthOfMembers members ≤ maxDepth

def ItemsRead (maxDepth depth : ℕ) (items : List Value) (text : List UInt8) : Prop :=
  Derives helperDialect (.items items) text ∧ depth + depthOfItems items ≤ maxDepth

section

variable {strtod : Strtod} {maxDepth depth : ℕ}

theorem reads_parseObject {parseMembers : Parsing (List (List UInt8 × Value))}
    {tail : List UInt8} (hat : At input position (openBrace :: tail))
    (hdepth : depth ≤ maxDepth)
    (hmembers : ∀ {position rest}, At input position rest → rest.length ≤ tail.length →
      Reads parseMembers position rest fun members text _ => MembersRead maxDepth depth members text) :
    Reads (parseObject input parseMembers) position (openBrace :: tail) fun value text _ =>
      ValueRead maxDepth depth value text := by
  have hnext : At input (position + 1) tail := hat.step [openBrace]
  refine reads_advance (reads_bind hnext (reads_skipSpace hnext) ?_)
  intro _ space rest hsplit hspace hnext
  refine reads_bind hnext (reads_consume closeBrace hnext) ?_
  rintro _ text rest' hsplit' (⟨rfl, rfl⟩ | ⟨rfl, rfl⟩) hnext
  · rw [if_pos rfl]
    refine reads_pure ⟨?_, by simpa [Value.depth, depthOfMembers] using hdepth⟩
    simpa using Derives.emptyObject hspace
  · have hlength : rest'.length ≤ tail.length := by
      rw [hsplit, hsplit', List.length_append, List.nil_append]
      omega
    refine reads_bind hnext (hmembers hnext hlength) fun members text _ _ hread _ => ?_
    refine reads_pure ⟨?_, ?_⟩
    · simpa using Derives.object hspace hread.1
    · have hbound := hread.2
      simp only [Value.depth]
      omega

theorem reads_parseArray {parseItems : Parsing (List Value)}
    {tail : List UInt8} (hat : At input position (openBracket :: tail))
    (hdepth : depth ≤ maxDepth)
    (hitems : ∀ {position rest}, At input position rest → rest.length ≤ tail.length →
      Reads parseItems position rest fun items text _ => ItemsRead maxDepth depth items text) :
    Reads (parseArray input parseItems) position (openBracket :: tail) fun value text _ =>
      ValueRead maxDepth depth value text := by
  have hnext : At input (position + 1) tail := hat.step [openBracket]
  refine reads_advance (reads_bind hnext (reads_skipSpace hnext) ?_)
  intro _ space rest hsplit hspace hnext
  refine reads_bind hnext (reads_consume closeBracket hnext) ?_
  rintro _ text rest' hsplit' (⟨rfl, rfl⟩ | ⟨rfl, rfl⟩) hnext
  · rw [if_pos rfl]
    refine reads_pure ⟨?_, by simpa [Value.depth, depthOfItems] using hdepth⟩
    simpa using Derives.emptyArray hspace
  · have hlength : rest'.length ≤ tail.length := by
      rw [hsplit, hsplit', List.length_append, List.nil_append]
      omega
    refine reads_bind hnext (hitems hnext hlength) fun items text _ _ hread _ => ?_
    refine reads_pure ⟨?_, ?_⟩
    · simpa using Derives.array hspace hread.1
    · have hbound := hread.2
      simp only [Value.depth]
      omega

theorem reads_parseValue_succ {fuel : ℕ} (hat : At input position rest)
    (hmembers : ∀ {position rest'}, At input position rest' → rest'.length < rest.length →
      Reads (parseMembers strtod input maxDepth fuel depth) position rest' fun members text _ =>
        MembersRead maxDepth depth members text)
    (hitems : ∀ {position rest'}, At input position rest' → rest'.length < rest.length →
      Reads (parseItems strtod input maxDepth fuel depth) position rest' fun items text _ =>
        ItemsRead maxDepth depth items text) :
    Reads (parseValue strtod input maxDepth (fuel + 1) depth) position rest fun value text _ =>
      ValueRead maxDepth depth value text := by
  unfold parseValue
  split_ifs with hlimit
  · exact reads_fail
  have hdepth : depth ≤ maxDepth := not_lt.mp hlimit
  have hscalar : depth + 1 ≤ maxDepth + 1 := Nat.succ_le_succ hdepth
  refine reads_look (more_eq hat) ?_
  cases rest with
  | nil => exact reads_fail
  | cons b tail =>
    rw [decide_eq_true (List.cons_ne_nil b tail), if_pos rfl]
    refine reads_look (current_eq hat) ?_
    have hshorter {rest' : List UInt8} (h : rest'.length ≤ tail.length) :
        rest'.length < (b :: tail).length := Nat.lt_succ_of_le h
    split_ifs with hbrace hbracket hquote
    · subst hbrace
      exact reads_parseObject hat hdepth fun hnext hlength => hmembers hnext (hshorter hlength)
    · subst hbracket
      exact reads_parseArray hat hdepth fun hnext hlength => hitems hnext (hshorter hlength)
    · subst hquote
      refine reads_bind hat (reads_parseString hat) ?_
      rintro content _ _ - ⟨characters, rfl, htext⟩ -
      exact reads_pure ⟨by simpa using Derives.string htext, hscalar⟩
    · refine (reads_parseLiteral trueText _ hat).mono ?_
      rintro _ _ _ - ⟨rfl, rfl⟩
      exact ⟨.isTrue, hscalar⟩
    · refine (reads_parseLiteral falseText _ hat).mono ?_
      rintro _ _ _ - ⟨rfl, rfl⟩
      exact ⟨.isFalse, hscalar⟩
    · refine (reads_parseLiteral nullText _ hat).mono ?_
      rintro _ _ _ - ⟨rfl, rfl⟩
      exact ⟨.null, hscalar⟩
    · refine (reads_parseNumber strtod hat).mono ?_
      rintro _ token _ - ⟨rfl, hnumber, hrange⟩
      exact ⟨.number hnumber hrange, hscalar⟩

theorem reads_parseItems_succ {fuel : ℕ} (hat : At input position rest)
    (hvalue : Reads (parseValue strtod input maxDepth fuel (depth + 1)) position rest
      fun value text _ => ValueRead maxDepth (depth + 1) value text)
    (hitems : ∀ {position rest'}, At input position rest' → rest'.length < rest.length →
      Reads (parseItems strtod input maxDepth fuel depth) position rest' fun items text _ =>
        ItemsRead maxDepth depth items text) :
    Reads (parseItems strtod input maxDepth (fuel + 1) depth) position rest fun items text _ =>
      ItemsRead maxDepth depth items text := by
  unfold parseItems
  refine reads_bind hat hvalue ?_
  rintro child text rest₁ hsplit ⟨hchild, hdepth⟩ hat
  refine reads_bind hat (reads_skipSpace hat) ?_
  intro _ space rest₂ hsplit₂ hspace hat
  refine reads_bind hat (reads_consume closeBracket hat) ?_
  rintro _ text₃ rest₃ hsplit₃ (⟨rfl, rfl⟩ | ⟨rfl, rfl⟩) hat
  · refine reads_pure ⟨by simpa using Derives.lastItem hchild hspace, ?_⟩
    simp only [depthOfItems]
    omega
  refine reads_bind hat (reads_consume comma hat) ?_
  rintro _ text₄ rest₄ hsplit₄ (⟨rfl, rfl⟩ | ⟨rfl, rfl⟩) hat
  · refine reads_bind hat (reads_skipSpace hat) ?_
    intro _ space' rest₅ hsplit₅ hspace' hat
    have hshorter : rest₅.length < rest.length := by
      rw [hsplit, hsplit₂, hsplit₃, hsplit₄, hsplit₅]
      simp only [List.length_append, List.length_cons]
      omega
    refine reads_bind hat (hitems hat hshorter) ?_
    rintro items text₆ _ - ⟨hothers, hbound⟩ -
    refine reads_pure ⟨by simpa using Derives.moreItems hchild hspace hspace' hothers, ?_⟩
    simp only [depthOfItems]
    omega
  · exact reads_fail

theorem reads_parseMembers_succ {fuel : ℕ} (hat : At input position rest)
    (hvalue : ∀ {position rest'}, At input position rest' → rest'.length < rest.length →
      Reads (parseValue strtod input maxDepth fuel (depth + 1)) position rest' fun value text _ =>
        ValueRead maxDepth (depth + 1) value text)
    (hmembers : ∀ {position rest'}, At input position rest' → rest'.length < rest.length →
      Reads (parseMembers strtod input maxDepth fuel depth) position rest' fun members text _ =>
        MembersRead maxDepth depth members text) :
    Reads (parseMembers strtod input maxDepth (fuel + 1) depth) position rest fun members text _ =>
      MembersRead maxDepth depth members text := by
  unfold parseMembers
  refine reads_look (currentIs_eq _ hat) ?_
  cases rest with
  | nil => exact reads_fail
  | cons b tail =>
    by_cases hquote : b = quote
    case neg =>
      have hother : (b == quote) = false := by simpa using hquote
      simp only [List.head?_cons, Option.any_some, hother, Bool.false_eq_true, if_false]
      exact reads_fail
    subst hquote
    refine reads_bind hat (reads_parseString hat) ?_
    rintro name _ rest₁ hsplit₁ ⟨key, rfl, hkey⟩ hat
    refine reads_bind hat (reads_skipSpace hat) ?_
    intro _ space₁ rest₂ hsplit₂ hspace₁ hat
    refine reads_bind hat (reads_consume colon hat) ?_
    rintro _ text₃ rest₃ hsplit₃ (⟨rfl, rfl⟩ | ⟨rfl, rfl⟩) hat
    case inr => exact reads_fail
    refine reads_bind hat (reads_skipSpace hat) ?_
    intro _ space₂ rest₄ hsplit₄ hspace₂ hat
    have hshorter {rest' : List UInt8} (h : rest'.length ≤ rest₄.length) :
        rest'.length < (quote :: tail).length := by
      rw [hsplit₁, hsplit₂, hsplit₃, hsplit₄]
      simp only [List.length_append, List.length_cons]
      omega
    refine reads_bind hat (hvalue hat (hshorter le_rfl)) ?_
    rintro child text rest₅ hsplit₅ ⟨hchild, hdepth⟩ hat
    refine reads_bind hat (reads_skipSpace hat) ?_
    intro _ space rest₆ hsplit₆ hspace hat
    refine reads_bind hat (reads_consume closeBrace hat) ?_
    rintro _ text₇ rest₇ hsplit₇ (⟨rfl, rfl⟩ | ⟨rfl, rfl⟩) hat
    · refine reads_pure ⟨by simpa using Derives.lastMember hkey hspace₁ hspace₂ hchild hspace, ?_⟩
      simp only [depthOfMembers]
      omega
    refine reads_bind hat (reads_consume comma hat) ?_
    rintro _ text₈ rest₈ hsplit₈ (⟨rfl, rfl⟩ | ⟨rfl, rfl⟩) hat
    · refine reads_bind hat (reads_skipSpace hat) ?_
      intro _ space' rest₉ hsplit₉ hspace' hat
      have hlater : rest₉.length ≤ rest₄.length := by
        rw [hsplit₅, hsplit₆, hsplit₇, hsplit₈, hsplit₉]
        simp only [List.length_append, List.length_cons]
        omega
      refine reads_bind hat (hmembers hat (hshorter hlater)) ?_
      rintro members text₁₀ _ - ⟨hothers, hbound⟩ -
      refine reads_pure ⟨by
        simpa using Derives.moreMembers hkey hspace₁ hspace₂ hchild hspace hspace' hothers, ?_⟩
      simp only [depthOfMembers]
      omega
    · exact reads_fail

theorem reads_values (strtod : Strtod) (input : List UInt8) (maxDepth fuel : ℕ) :
    (∀ depth {position rest}, At input position rest → 2 * rest.length + 1 ≤ fuel →
      Reads (parseValue strtod input maxDepth fuel depth) position rest fun value text _ =>
        ValueRead maxDepth depth value text) ∧
    (∀ depth {position rest}, At input position rest → 2 * rest.length + 2 ≤ fuel →
      Reads (parseMembers strtod input maxDepth fuel depth) position rest fun members text _ =>
        MembersRead maxDepth depth members text) ∧
    ∀ depth {position rest}, At input position rest → 2 * rest.length + 2 ≤ fuel →
      Reads (parseItems strtod input maxDepth fuel depth) position rest fun items text _ =>
        ItemsRead maxDepth depth items text := by
  induction fuel with
  | zero =>
    exact ⟨fun _ _ _ _ h => absurd h (by omega), fun _ _ _ _ h => absurd h (by omega),
      fun _ _ _ _ h => absurd h (by omega)⟩
  | succ fuel ih =>
    obtain ⟨hvalue, hmembers, hitems⟩ := ih
    refine ⟨fun depth position rest hat hfuel => ?_, fun depth position rest hat hfuel => ?_,
      fun depth position rest hat hfuel => ?_⟩
    · exact reads_parseValue_succ hat (fun hnext h => hmembers depth hnext (by omega))
        fun hnext h => hitems depth hnext (by omega)
    · exact reads_parseMembers_succ hat (fun hnext h => hvalue (depth + 1) hnext (by omega))
        fun hnext h => hmembers depth hnext (by omega)
    · exact reads_parseItems_succ hat (hvalue (depth + 1) hat (by omega))
        fun hnext h => hitems depth hnext (by omega)

end

theorem finished_eq (hat : At input position rest) :
    finished input position = .ok (decide (rest = []), position) := by
  have hlength := hat.length
  have hend : position = input.length ↔ rest = [] := by
    rw [← List.length_eq_zero_iff]
    omega
  unfold finished
  simp only [hend]

/-- The whole input is read, and it is the text of one object. -/
theorem reads_parse (strtod : Strtod) (input : List UInt8) :
    Reads (parse strtod input) 0 input fun value text rest => rest = [] ∧
      IsDocument helperDialect value text ∧ value.depth ≤ kJsonDocumentMaxDepth ∧
      ∃ members, value = .object members := by
  have hstart := At.start input
  unfold parse
  refine reads_bind hstart (reads_skipSpace hstart) ?_
  intro _ space rest hsplit hspace hat
  have hfuel : 2 * rest.length + 1 ≤ 2 * input.length + 3 := by
    rw [hsplit, List.length_append]
    omega
  refine reads_bind hat ((reads_values strtod input _ _).1 1 hat hfuel) ?_
  rintro value text rest' - ⟨hvalue, hdepth⟩ hat
  refine reads_bind hat (reads_skipSpace hat) ?_
  rintro _ space' rest'' - hspace' hat
  refine reads_look (finished_eq hat) ?_
  by_cases hend : rest'' = []
  · rw [decide_eq_true hend, if_pos rfl]
    cases value with
    | object members =>
      refine reads_pure ⟨hend, ⟨space, text, space', hspace, hvalue, hspace', ?_⟩, by omega,
        members, rfl⟩
      simp
    | null | bool | number | string | array => exact reads_fail
  · rw [decide_eq_false hend]
    exact reads_fail

end JsonParser

end MacTypeControl.Preview
