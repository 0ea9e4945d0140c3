import MacTypeControl.Editor.Advanced
import MacTypeControl.Engine.Settings

/-!
# What the renderer reads of an edited profile

The editor writes the values of a setting with commas between them, and the renderer takes them
apart again. It applies the values that were edited, and the common ones where none was given.
-/

namespace MacTypeControl.Engine

open Editor Text

/-! ## Arguments -/

/-- A part of a setting that is one argument as it stands. -/
def Plain (part : Chars) : Prop := ∀ c ∈ part, c ≠ ',' ∧ c ≠ '"' ∧ isSpace c = false

theorem rdropWhile_of_none {p : Char → Bool} {text : Chars} (h : ∀ c ∈ text, p c = false) :
    text.rdropWhile p = text := by
  rcases List.eq_nil_or_concat text with rfl | ⟨before, last, rfl⟩
  · rfl
  · rw [List.concat_eq_append] at h ⊢
    have hlast := h last (List.mem_append_right _ (List.mem_singleton.2 rfl))
    exact List.rdropWhile_concat_neg p before last (by rw [hlast]; exact Bool.false_ne_true)

theorem innerField_plain {part : Chars} (h : Plain part) : innerField part = part := by
  cases part with
  | nil => rfl
  | cons first word =>
    have hfirst := (h first List.mem_cons_self).2.2
    rw [innerField, List.dropWhile_cons_of_neg (by rw [hfirst]; exact Bool.false_ne_true)]
    simp only [trimArgument]
    rw [rdropWhile_of_none fun c hc => (h c (List.mem_cons_of_mem _ hc)).2.2]

theorem lastField_plain {part : Chars} (h : Plain part) : lastField part = [part] := by
  cases part with
  | nil => rfl
  | cons first word =>
    have hfirst := (h first List.mem_cons_self).2.2
    rw [lastField, if_neg (List.cons_ne_nil _ _),
      List.dropWhile_cons_of_neg (by rw [hfirst]; exact Bool.false_ne_true)]

theorem fieldsOf_plain {parts : List Chars} (h : ∀ part ∈ parts, Plain part) : fieldsOf parts = parts := by
  induction parts with
  | nil => rfl
  | cons part rest ih =>
    have hpart := h part List.mem_cons_self
    have hrest := ih fun other hother => h other (List.mem_cons_of_mem _ hother)
    by_cases hempty : rest = []
    · rw [hempty]
      exact lastField_plain hpart
    · rw [fieldsOf_inner hempty, hrest, innerField_plain hpart]

theorem mem_commaSeparated {parts : List Chars} {c : Char} (h : c ∈ commaSeparated parts) :
    c = ',' ∨ ∃ part ∈ parts, c ∈ part := by
  induction parts with
  | nil => exact absurd h List.not_mem_nil
  | cons first rest ih =>
    cases rest with
    | nil => exact Or.inr ⟨first, List.mem_cons_self, by simpa [commaSeparated] using h⟩
    | cons second rest =>
      have hcomma : commaSeparated (first :: second :: rest) =
          first ++ ',' :: commaSeparated (second :: rest) := by simp [commaSeparated]
      rw [hcomma] at h
      rcases List.mem_append.1 h with hfirst | h
      · exact Or.inr ⟨first, List.mem_cons_self, hfirst⟩
      rcases List.mem_cons.1 h with hc | h
      · exact Or.inl hc
      rcases ih h with hc | ⟨part, hpart, hc⟩
      · exact Or.inl hc
      · exact Or.inr ⟨part, List.mem_cons_of_mem _ hpart, hc⟩

/-- What was put together with commas is taken apart again. -/
theorem parse_commaSeparated {parts : List Chars} (h : ∀ part ∈ parts, Plain part) (hmany : 2 ≤ parts.length)
    (hroom : parts.length ≤ maxArguments) : parse (commaSeparated parts) = some parts := by
  have hcomma : ∀ part ∈ parts, ',' ∉ part := fun part hpart hmem => (h part hpart ',' hmem).1 rfl
  have hne : parts ≠ [] := fun hnil => by simp [hnil] at hmany
  have hsplit : (commaSeparated parts).splitOn ',' = parts := List.splitOn_intercalate ',' hcomma hne
  have hquote : '"' ∉ commaSeparated parts := by
    intro hmem
    rcases mem_commaSeparated hmem with hc | ⟨part, hpart, hc⟩
    · cases hc
    · exact (h part hpart '"' hc).2.1 rfl
  have hnonempty : commaSeparated parts ≠ [] := by
    intro hnil
    rw [hnil, List.splitOn_nil] at hsplit
    rw [← hsplit] at hmany
    simp at hmany
  have hfields : fields (commaSeparated parts) = parts := by
    rw [fields, hsplit, fieldsOf_plain h]
  rw [parse, if_neg hnonempty, parseFrom_eq_fields hquote, hfields, List.take_of_length_le hroom]

theorem isSpace_eq_false {c : Char} (h : isWhitespace c = false) : isSpace c = false := by
  by_contra hspace
  rw [Bool.not_eq_false] at hspace
  have hcases : c = '\t' ∨ c = ' ' := by simpa [isSpace] using hspace
  rcases hcases with rfl | rfl <;> exact absurd h (by decide)

theorem isDigit_of_isDigit {c : Char} (h : c.isDigit = true) : isDigit c = true := by
  simpa [isDigit, Char.isDigit, Char.le_def] using h

theorem plain_number (n : ℤ) : Plain (printInt n) := by
  intro c hc
  obtain ⟨hcomma, hspace⟩ := plain_printInt n c hc
  refine ⟨hcomma, fun hquote => ?_, isSpace_eq_false hspace⟩
  rcases mem_printInt hc with rfl | hdigit
  · cases hquote
  · rw [hquote] at hdigit
    exact absurd hdigit (by decide)

theorem plain_color (n : ℕ) : Plain (sixHexDigits n) := by
  have hquote : ∀ k < 16, upperHexDigit k ≠ '"' := by decide
  intro c hc
  obtain ⟨hcomma, hspace⟩ := plain_sixHexDigits n c hc
  obtain ⟨shift, -, rfl⟩ := List.mem_map.1 hc
  exact ⟨hcomma, hquote _ (Nat.mod_lt _ (by decide)), isSpace_eq_false hspace⟩

/-! ## Numbers -/

/-- The digits may be put together before the number is cut to its width. -/
theorem wrapInt_foldl (digits : Chars) (value : ℤ) :
    digits.foldl (fun value c => wrapInt (10 * value + digitValue c)) (wrapInt value) =
      wrapInt (digits.foldl (fun value c => 10 * value + digitValue c) value) := by
  induction digits generalizing value with
  | nil => rfl
  | cons c rest ih =>
    have hstep : wrapInt (10 * wrapInt value + digitValue c) = wrapInt (10 * value + digitValue c) := by
      unfold wrapInt
      rw [← Int.bmod_add_bmod, Int.mul_bmod_bmod, Int.bmod_add_bmod]
    rw [List.foldl_cons, List.foldl_cons, hstep]
    exact ih _

theorem foldl_digits {digits : Chars} (h : ∀ c ∈ digits, c.isDigit = true) (value : ℕ) :
    digits.foldl (fun value c => 10 * value + digitValue c) (value : ℤ) = Nat.ofDigitChars 10 digits value := by
  induction digits generalizing value with
  | nil => simp
  | cons c rest ih =>
    have hrange : 48 ≤ c.toNat ∧ c.toNat ≤ 57 := by
      simpa [Char.isDigit, UInt32.le_iff_toNat_le] using h c List.mem_cons_self
    have hvalue : (10 * (value : ℤ) + digitValue c) = ((10 * value + (c.toNat - 48) : ℕ) : ℤ) := by
      unfold digitValue
      omega
    rw [List.foldl_cons, hvalue, ih fun d hd => h d (List.mem_cons_of_mem _ hd), Nat.ofDigitChars_cons]
    rfl

theorem wrapInt_of_isI32 {n : ℤ} (h : IsI32 n) : wrapInt n = n := by
  obtain ⟨hlow, hhigh⟩ := h
  exact Int.bmod_eq_of_le_mul_two (by omega) (by omega)

/-- The renderer reads the number that was written, whatever its default is. -/
theorem strToInt_printInt {n : ℤ} (h : IsI32 n) (default : ℤ) : strToInt (printInt n) default = n := by
  have hdigits : ∀ c ∈ Nat.toDigits 10 n.natAbs, isDigit c = true := fun c hc =>
    isDigit_of_isDigit (isDigit_of_mem_digits hc)
  have htake : (Nat.toDigits 10 n.natAbs).takeWhile isDigit = Nat.toDigits 10 n.natAbs :=
    List.takeWhile_eq_self_iff.2 hdigits
  have hvalue : (Nat.toDigits 10 n.natAbs).foldl (fun value c => wrapInt (10 * value + digitValue c)) 0 =
      wrapInt n.natAbs := by
    have hfold := wrapInt_foldl (Nat.toDigits 10 n.natAbs) 0
    have hplain := foldl_digits (fun c hc => isDigit_of_mem_digits (n := n.natAbs) hc) 0
    rw [Nat.ofDigitChars_ten_toDigits] at hplain
    rw [show wrapInt 0 = 0 from rfl] at hfold
    rw [hfold]
    exact congrArg wrapInt hplain
  rcases printInt_cases n with ⟨hsign, hprint⟩ | ⟨hsign, hprint⟩
  · obtain ⟨first, others, hsplit, -⟩ := Json.head_toDigits n.natAbs
    have hfirst : isDigit first = true := hdigits first (hsplit ▸ List.mem_cons_self)
    have hspace : isSpace first = false := by
      by_contra hs
      rw [Bool.not_eq_false] at hs
      have hcases : first = '\t' ∨ first = ' ' := by simpa [isSpace] using hs
      rcases hcases with rfl | rfl <;> exact absurd hfirst (by decide)
    have hdrop : (Nat.toDigits 10 n.natAbs).dropWhile isSpace = Nat.toDigits 10 n.natAbs := by
      rw [hsplit, List.dropWhile_cons_of_neg (by rw [hspace]; exact Bool.false_ne_true)]
    have hunsigned : splitSign (Nat.toDigits 10 n.natAbs) = (false, Nat.toDigits 10 n.natAbs) := by
      rw [hsplit]
      unfold splitSign
      split
      · next heq => rw [(List.cons.inj heq).1] at hfirst; exact absurd hfirst (by decide)
      · next heq => rw [(List.cons.inj heq).1] at hfirst; exact absurd hfirst (by decide)
      · rfl
    rw [strToInt, hprint, hdrop, hunsigned]
    simp only [htake, if_neg Nat.toDigits_ne_nil, hvalue, Bool.false_eq_true, if_false]
    rw [show (n.natAbs : ℤ) = n by omega]
    exact wrapInt_of_isI32 h
  · have hneg : wrapInt (-wrapInt n.natAbs) = n := by
      unfold wrapInt
      rw [Int.bmod_neg_bmod, show -(n.natAbs : ℤ) = n by omega]
      exact wrapInt_of_isI32 h
    have hdrop : ('-' :: Nat.toDigits 10 n.natAbs).dropWhile isSpace = '-' :: Nat.toDigits 10 n.natAbs := rfl
    have hsigned : splitSign ('-' :: Nat.toDigits 10 n.natAbs) = (true, Nat.toDigits 10 n.natAbs) := rfl
    rw [strToInt, hprint, hdrop, hsigned]
    simp only [htake, if_neg Nat.toDigits_ne_nil, hvalue, if_true]
    exact hneg

theorem readHex_cons {c : Char} {digit value : ℕ} (hdigit : hexDigit c = some digit) (hlt : digit < 16)
    (hvalue : value < 2 ^ 28) (rest : Chars) :
    readHex value (c :: rest) = readHex (16 * value + digit) rest := by
  have hshift : value <<< 4 = 16 * value := by rw [Nat.shiftLeft_eq, Nat.mul_comm]
  have hor : (value <<< 4) % 2 ^ 32 ||| digit = 16 * value + digit := by
    rw [Nat.mod_eq_of_lt (by rw [hshift]; omega), ← Nat.shiftLeft_add_eq_or_of_lt (i := 4) hlt, hshift]
  rw [readHex, hdigit]
  exact congrArg (readHex · rest) hor

theorem upperHexDigit_read : ∀ k < 16, upper (upperHexDigit k) = upperHexDigit k ∧
    hexDigit (upperHexDigit k) = some k ∧ upperHexDigit k ≠ 'X' := by
  decide

/-- A colour is read as it was written. -/
theorem httoi_sixHexDigits {n : ℕ} (h : n ≤ 0xFFFFFF) : httoi (sixHexDigits n) = n := by
  have hread : ∀ shift, upper (upperHexDigit (n / 2 ^ shift % 16)) = upperHexDigit (n / 2 ^ shift % 16) ∧
      hexDigit (upperHexDigit (n / 2 ^ shift % 16)) = some (n / 2 ^ shift % 16) ∧
      upperHexDigit (n / 2 ^ shift % 16) ≠ 'X' :=
    fun shift => upperHexDigit_read _ (Nat.mod_lt _ (by decide))
  have hlt : ∀ shift, n / 2 ^ shift % 16 < 16 := fun shift => Nat.mod_lt _ (by decide)
  have hupper : (sixHexDigits n).map upper = sixHexDigits n := by
    simp only [sixHexDigits, List.map_cons, List.map_nil, (hread _).1]
  have hmark : skipHexMark (sixHexDigits n) = sixHexDigits n := by
    simp only [sixHexDigits, List.map_cons, List.map_nil]
    unfold skipHexMark
    split
    · next heq => exact absurd (List.cons.inj (List.cons.inj heq).2).1 (hread 16).2.2
    · rfl
  rw [httoi, hupper, hmark, sixHexDigits]
  simp only [List.map_cons, List.map_nil]
  have h20 := hlt 20
  have h16 := hlt 16
  have h12 := hlt 12
  have h8 := hlt 8
  have h4 := hlt 4
  have h0 := hlt 0
  rw [readHex_cons (hread 20).2.1 h20 (by decide), readHex_cons (hread 16).2.1 h16 (by omega),
    readHex_cons (hread 12).2.1 h12 (by omega), readHex_cons (hread 8).2.1 h8 (by omega),
    readHex_cons (hread 4).2.1 h4 (by omega), readHex_cons (hread 0).2.1 h0 (by omega), readHex]
  omega

/-! ## Advanced settings -/

/-- The renderer finds the six values of the shadow where the editor has put them. -/
theorem readShadow_written {value : ShadowSetting} {rendered : Chars}
    (h : renderShadow value = .ok rendered) (hx : IsI32 value.offsetX) (hy : IsI32 value.offsetY) :
    ∃ arguments, parse rendered = some arguments ∧ readShadow arguments =
      some ⟨value.offsetX, value.offsetY, value.darkAlpha, value.lightAlpha, value.darkColor,
        value.lightColor⟩ := by
  unfold renderShadow at h
  split_ifs at h with hinvalid
  have hdark : IsI32 value.darkAlpha := ⟨by omega, by omega⟩
  have hlight : IsI32 value.lightAlpha := ⟨by omega, by omega⟩
  obtain rfl := Except.ok.inj h
  refine ⟨_, parse_commaSeparated ?_ (by simp) (by simp [maxArguments]), ?_⟩
  · intro part hpart
    simp only [List.mem_cons, List.not_mem_nil, or_false] at hpart
    rcases hpart with rfl | rfl | rfl | rfl | rfl | rfl
    · exact plain_number _
    · exact plain_number _
    · exact plain_number _
    · exact plain_color _
    · exact plain_number _
    · exact plain_color _
  · simp only [readShadow, strToInt_printInt hx, strToInt_printInt hy, strToInt_printInt hdark,
      strToInt_printInt hlight, httoi_sixHexDigits (n := value.darkColor) (by omega),
      httoi_sixHexDigits (n := value.lightColor) (by omega)]

theorem readVector_numbers {wrap : ℤ → ℤ} {values : List ℤ} (hwrap : ∀ n ∈ values, wrap n = n)
    (hrange : ∀ n ∈ values, IsI32 n) {elements : List ℤ} (hlength : elements.length = values.length) :
    readVector wrap (values.map printInt) elements = some values := by
  induction values generalizing elements with
  | nil =>
    rw [List.length_eq_zero_iff.1 hlength]
    rfl
  | cons n rest ih =>
    cases elements with
    | nil => simp at hlength
    | cons element elements =>
      have hrest := ih (fun m hm => hwrap m (List.mem_cons_of_mem _ hm))
        (fun m hm => hrange m (List.mem_cons_of_mem _ hm)) (by simpa using hlength)
      rw [List.map_cons, readVector, hrest, strToInt_printInt (hrange n List.mem_cons_self),
        hwrap n List.mem_cons_self]
      rfl

/-- A vector that the editor accepts is the vector that the renderer uses, if its elements hold the
range of the editor. -/
theorem readVector_written {values : List ℤ} {length : ℕ} {minimum maximum : ℤ} {name : String}
    {rendered : Chars} (h : renderVector values length minimum maximum name = .ok rendered)
    (hlength : 2 ≤ length ∧ length ≤ maxArguments) (hminimum : IsI32 minimum) (hmaximum : IsI32 maximum)
    {wrap : ℤ → ℤ} (hwrap : ∀ n, minimum ≤ n → n ≤ maximum → wrap n = n) {elements : List ℤ}
    (helements : elements.length = length) :
    ∃ arguments, parse rendered = some arguments ∧ readVector wrap arguments elements = some values := by
  unfold renderVector at h
  split_ifs at h with hinvalid
  simp only [not_or, not_not, List.any_eq_true, not_exists, not_and, decide_eq_true_eq, not_lt] at hinvalid
  obtain ⟨rfl, hbounds⟩ := hinvalid
  obtain rfl := Except.ok.inj h
  refine ⟨_, parse_commaSeparated ?_ (by simpa using hlength.1) (by simpa using hlength.2),
    readVector_numbers (fun n hn => hwrap n (hbounds n hn).1 (hbounds n hn).2) (fun n hn => ?_) helements⟩
  · intro part hpart
    obtain ⟨n, -, rfl⟩ := List.mem_map.1 hpart
    exact plain_number n
  · obtain ⟨hlow, hhigh⟩ := hbounds n hn
    exact ⟨hminimum.1.trans hlow, hhigh.trans_lt hmaximum.2⟩

theorem wrapByte_of_mem (n : ℤ) (hlow : 0 ≤ n) (hhigh : n ≤ 255) : wrapByte n = n :=
  Int.emod_eq_of_lt hlow (by omega)

theorem wrapChar_of_mem (n : ℤ) (hlow : -128 ≤ n) (hhigh : n ≤ 127) : wrapChar n = n :=
  Int.bmod_eq_of_le_mul_two (by omega) (by omega)

/-- A shadow with the values that were edited. -/
def editedShadow (value : ShadowSetting) : Shadow :=
  ⟨value.offsetX, value.offsetY, value.darkAlpha, value.lightAlpha, value.darkColor, value.lightColor⟩

/-- The renderer draws the shadow and uses the filter and the pixel layout that were edited,
whatever values were there before. -/
theorem advanced_applied {lowercase : Lowercase} {given : AdvancedProfile}
    {rendered : RenderedAdvancedProfile} (h : renderAdvancedProfile lowercase given = .ok rendered)
    (hoffsets : ProfileDocument.HasI32Offsets given) {weights layout : List ℤ} (hweights : weights.length = 5)
    (hlayout : layout.length = 6) :
    rendered.shadow.map (fun text => (parse text).bind readShadow) =
        given.shadow.map (fun value => some (editedShadow value)) ∧
      rendered.lcdFilterWeight.map (fun text => (parse text).bind fun a => readVector wrapByte a weights) =
        given.lcdFilterWeight.map some ∧
      rendered.pixelLayout.map (fun text => (parse text).bind fun a => readVector wrapChar a layout) =
        given.pixelLayout.map some := by
  unfold renderAdvancedProfile at h
  obtain ⟨shadow, hshadow, h⟩ := bind_eq_ok.1 h
  obtain ⟨lcd, hlcd, h⟩ := bind_eq_ok.1 h
  obtain ⟨pixels, hpixels, h⟩ := bind_eq_ok.1 h
  obtain ⟨substitutes, -, h⟩ := bind_eq_ok.1 h
  obtain ⟨-, -, h⟩ := bind_eq_ok.1 h
  cases h
  refine ⟨?_, ?_, ?_⟩
  · rcases ProfileDocument.renderOption_cases hshadow with ⟨hgiven, rfl⟩ | ⟨value, text, hgiven, rfl, hrender⟩
    · rw [hgiven]
      rfl
    · obtain ⟨hx, hy⟩ := hoffsets value hgiven
      obtain ⟨arguments, hparse, hread⟩ := readShadow_written hrender hx hy
      rw [hgiven, Option.map_some, Option.map_some, hparse, Option.bind_some, hread, editedShadow]
  · rcases ProfileDocument.renderOption_cases hlcd with ⟨hgiven, rfl⟩ | ⟨values, text, hgiven, rfl, hrender⟩
    · rw [hgiven]
      rfl
    · obtain ⟨arguments, hparse, hread⟩ := readVector_written hrender (by decide) (by decide) (by decide)
        wrapByte_of_mem hweights
      rw [hgiven, Option.map_some, Option.map_some, hparse, Option.bind_some, hread]
  · rcases ProfileDocument.renderOption_cases hpixels with ⟨hgiven, rfl⟩ | ⟨values, text, hgiven, rfl, hrender⟩
    · rw [hgiven]
      rfl
    · obtain ⟨arguments, hparse, hread⟩ := readVector_written hrender (by decide) (by decide) (by decide)
        wrapChar_of_mem hlayout
      rw [hgiven, Option.map_some, Option.map_some, hparse, Option.bind_some, hread]

def shadowAndFilter : AdvancedProfile :=
  ⟨some ⟨-3, 2, 40, 0x102030, 8, 0xFFFFFF⟩, some [8, 77, 86, 77, 8], none, []⟩

theorem advanced_applied_shadow : ∃ rendered, renderAdvancedProfile id shadowAndFilter = .ok rendered ∧
    rendered.shadow.map (fun text => (parse text).bind readShadow) =
      some (some (editedShadow ⟨-3, 2, 40, 0x102030, 8, 0xFFFFFF⟩)) := by
  have hoffsets : ProfileDocument.HasI32Offsets shadowAndFilter := by
    intro value hvalue
    cases hvalue
    decide
  exact ⟨_, rfl, (advanced_applied (rfl : renderAdvancedProfile id shadowAndFilter = .ok _) hoffsets
    (rfl : ([0, 0, 0, 0, 0] : List ℤ).length = 5) (rfl : ([0, 0, 0, 0, 0, 0] : List ℤ).length = 6)).1⟩

/-! ## Fonts of their own -/

/-- A line of the section as the editor writes it, without its ending. -/
def individualLine (entry : IndividualSetting) : Chars :=
  entry.fontFace ++ '=' :: commaSeparated (entry.values.map fun value => (value.map printInt).getD [])

namespace FontSettings

theorem param_setParam_self (fs : FontSettings) {x : ℕ} {n : ℤ} (hlow : (bound x).1 ≤ n)
    (hhigh : n ≤ (bound x).2) : (fs.setParam x n).param x = n := by
  change Function.update fs.param x _ x = n
  rw [Function.update_self, Bound_of_mem hlow hhigh]

theorem param_setParam_of_ne (fs : FontSettings) {x y : ℕ} (n : ℤ) (h : y ≠ x) :
    (fs.setParam x n).param y = fs.param y := Function.update_of_ne h _ _

/-- Each argument goes to its own parameter, and the rest stays. -/
theorem param_applyFrom (common : FontSettings) (values : List (Option ℤ)) (start : ℕ) (fs : FontSettings)
    (hstart : start + values.length ≤ maxFontSettings)
    (hrange : ∀ i n, values[i]? = some (some n) →
      IsI32 n ∧ (bound (start + i)).1 ≤ n ∧ n ≤ (bound (start + i)).2)
    (hsame : ∀ y, start ≤ y → fs.param y = common.param y) (x : ℕ) :
    (applyFrom common start (values.map fun value => (value.map printInt).getD []) fs).param x =
      if x < start then fs.param x else (values.getD (x - start) none).getD (common.param x) := by
  induction values generalizing start fs with
  | nil =>
    rw [List.map_nil, applyFrom]
    by_cases hx : x < start
    · rw [if_pos hx]
    · rw [if_neg hx, hsame x (Nat.not_lt.1 hx)]
      rfl
  | cons value rest ih =>
    rw [List.length_cons] at hstart
    rw [List.map_cons, applyFrom, if_pos (by omega)]
    -- the argument of this parameter is its value, or empty
    have hread : (bound start).1 ≤ strToInt ((value.map printInt).getD []) (common.param start) ∧
        strToInt ((value.map printInt).getD []) (common.param start) ≤ (bound start).2 ∧
        strToInt ((value.map printInt).getD []) (common.param start) = value.getD (common.param start) := by
      cases value with
      | none => exact ⟨(common.bounded start).1, (common.bounded start).2, rfl⟩
      | some n =>
        obtain ⟨hn, hlow, hhigh⟩ := hrange 0 n rfl
        rw [Option.map_some, Option.getD_some, strToInt_printInt hn]
        exact ⟨hlow, hhigh, rfl⟩
    have hnext := ih (start + 1) (fs.setParam start (strToInt ((value.map printInt).getD []) (common.param start)))
      (by omega) (fun i n hi => by
        have h := hrange (i + 1) n hi
        rwa [show start + (i + 1) = start + 1 + i by omega] at h)
      (fun y hy => by rw [param_setParam_of_ne _ _ (by omega), hsame y (by omega)])
    rw [hnext]
    rcases Nat.lt_trichotomy x start with hx | rfl | hx
    · rw [if_pos (by omega), if_pos hx, param_setParam_of_ne _ _ (by omega)]
    · rw [if_pos (by omega), if_neg (Nat.lt_irrefl _), param_setParam_self _ hread.1 hread.2.1, hread.2.2,
        Nat.sub_self]
      rfl
    · rw [if_neg (by omega), if_neg (by omega), show x - start = (x - (start + 1)) + 1 by omega]
      rfl

end FontSettings

/-- The value of a parameter: that of the font, or the common one. -/
def appliedParam (common : FontSettings) (entry : IndividualSetting) (x : ℕ) : ℤ :=
  (entry.values.getD x none).getD (common.param x)

theorem validateValues_bound {fontFace : Chars} {index : ℕ} {limits : List (ℤ × ℤ)}
    {values : List (Option ℤ)} (h : validateValues fontFace index limits values = .ok ())
    (hlength : values.length = limits.length) {i : ℕ} {n : ℤ} (hi : values[i]? = some (some n)) :
    (limits.getD i (0, 0)).1 ≤ n ∧ n ≤ (limits.getD i (0, 0)).2 := by
  induction values generalizing index limits i with
  | nil => cases hi
  | cons value rest ih =>
    cases limits with
    | nil => cases hlength
    | cons limit limits =>
      have hrest : validateValues fontFace (index + 1) limits rest = .ok () := by
        cases value with
        | none => exact h
        | some n =>
          unfold validateValues at h
          split_ifs at h
          exact h
      cases i with
      | zero =>
        obtain rfl : value = some n := Option.some.inj hi
        unfold validateValues at h
        split_ifs at h with hrange
        rw [not_or, not_lt, not_lt] at hrange
        exact hrange
      | succ i => exact ih hrest (Nat.succ.inj hlength) hi

/-- What the renderer makes of a line that the editor has accepted. -/
theorem readIndividual_written (names : FontNames) (common : FontSettings) {lowercase : Lowercase}
    {seen : List Chars} {entry : IndividualSetting} (h : validateIndividual lowercase seen entry = .ok ()) :
    ∃ settings, readIndividual names common (individualLine entry) =
        some ⟨FontNames.buffer (names.localName entry.fontFace), settings⟩ ∧
      ∀ x, settings.param x = appliedParam common entry x := by
  obtain ⟨⟨⟩, -, h⟩ := bind_eq_ok.1 h
  split_ifs at h with hequals hseen hlength
  rw [not_not] at hlength
  have hplain : ∀ c ∈ entry.fontFace, decide (c ≠ '=') = true := fun c hc =>
    decide_eq_true fun heq => hequals (heq ▸ hc)
  have htake : (individualLine entry).takeWhile (· ≠ '=') = entry.fontFace := by
    rw [individualLine, List.takeWhile_append_of_pos hplain]
    exact List.append_nil _
  have hdrop : (individualLine entry).dropWhile (· ≠ '=') =
      '=' :: commaSeparated (entry.values.map fun value => (value.map printInt).getD []) := by
    rw [individualLine, List.dropWhile_append_of_pos hplain]
    rfl
  have hparts : ∀ part ∈ entry.values.map fun value => (value.map printInt).getD [], Plain part := by
    intro part hpart
    obtain ⟨value, -, rfl⟩ := List.mem_map.1 hpart
    cases value with
    | none => exact fun c hc => absurd hc List.not_mem_nil
    | some n => exact plain_number n
  have hparse := parse_commaSeparated hparts (by simp [hlength]) (by simp [hlength, maxArguments])
  refine ⟨FontSettings.applyFrom common 0 (entry.values.map fun value => (value.map printInt).getD [])
    common, ?_, fun x => ?_⟩
  · rw [readIndividual, htake, hdrop]
    simp only [hparse, Option.map_some]
  · rw [FontSettings.param_applyFrom common entry.values 0 common (by rw [hlength]; decide) ?_
      (fun y _ => rfl) x, if_neg (Nat.not_lt_zero x)]
    · rfl
    · intro i n hi
      rw [Nat.zero_add]
      have hrange := validateValues_bound h hlength hi
      have hlimits : ∀ y, -64 ≤ (bound y).1 ∧ (bound y).2 ≤ 64 := by
        intro y
        rcases Nat.lt_or_ge y 6 with hy | hy
        · have hall : ∀ y < 6, -64 ≤ (bounds.getD y (0, 0)).1 ∧ (bounds.getD y (0, 0)).2 ≤ 64 := by decide
          exact hall y hy
        · rw [bound, List.getD_eq_default _ _ hy]
          decide
      have hlimit := hlimits i
      exact ⟨⟨by have := hrange.1; change (bound i).1 ≤ n at this; omega,
        by have := hrange.2; change n ≤ (bound i).2 at this; omega⟩, hrange⟩

/-! ## Finding a font -/

/-- The hashes say nothing that the names do not. -/
theorem sameFont_iff (names : FontNames) (a b : Chars) : names.sameFont a b = true ↔
    (FontNames.buffer a).map names.lower = (FontNames.buffer b).map names.lower := by
  rw [FontNames.sameFont, Bool.and_eq_true, decide_eq_true_eq, decide_eq_true_eq]
  refine ⟨And.right, fun h => ⟨?_, h⟩⟩
  have hfold : ∀ name, names.hash name = ((FontNames.buffer name).map names.lower).foldl
      (fun hash c => (hash <<< 3) % 2 ^ 32 ^^^ c) 0 := fun name => by
    rw [FontNames.hash, List.foldl_map]
  rw [hfold, hfold, h]

theorem sameFont_buffer (names : FontNames) (a b : Chars) :
    names.sameFont (FontNames.buffer a) b = names.sameFont a b := by
  have hbuffer : FontNames.buffer (FontNames.buffer a) = FontNames.buffer a := by
    rw [FontNames.buffer, FontNames.buffer, List.take_take, Nat.min_self]
  rw [Bool.eq_iff_iff, sameFont_iff, sameFont_iff, hbuffer]

/-- A font that is not added again would not have been found anyway. -/
theorem find_addIndividuals (names : FontNames) (common : FontSettings) (faceName : Chars)
    {lines : List Chars} {individuals : List FontIndividual}
    (hread : lines.mapM (readIndividual names common) = some individuals) (array : List FontIndividual) :
    ∃ result, addIndividuals names common lines array = some result ∧
      result.find? (fun individual => names.sameFont individual.name faceName) =
        (array ++ individuals).find? fun individual => names.sameFont individual.name faceName := by
  induction lines generalizing individuals array with
  | nil =>
    have hnone : individuals = [] := by simpa using hread.symm
    exact ⟨array, rfl, by rw [hnone, List.append_nil]⟩
  | cons line rest ih =>
    rw [List.mapM_cons] at hread
    obtain ⟨individual, hindividual, hread⟩ := Option.bind_eq_some_iff.1 hread
    obtain ⟨others, hothers, hread⟩ := Option.bind_eq_some_iff.1 hread
    cases hread
    rw [addIndividuals, hindividual]
    simp only
    by_cases hthere : (array.any fun other => names.sameFont other.name individual.name) = true
    · rw [if_pos hthere]
      obtain ⟨result, hresult, hfind⟩ := ih hothers array
      refine ⟨result, hresult, hfind.trans ?_⟩
      obtain ⟨other, hother, hsame⟩ := List.any_eq_true.1 hthere
      rw [List.find?_append, List.find?_append, List.find?_cons]
      by_cases hfound : names.sameFont individual.name faceName = true
      -- a font of this name is found earlier
      · have hearlier : (array.find? fun individual => names.sameFont individual.name faceName).isSome :=
          List.find?_isSome.2 ⟨other, hother, by
            rw [sameFont_iff] at hsame hfound ⊢
            exact hsame.trans hfound⟩
        obtain ⟨first, hfirst⟩ := Option.isSome_iff_exists.1 hearlier
        rw [hfirst]
        rfl
      · rw [Bool.not_eq_true] at hfound
        rw [hfound]
    · rw [if_neg hthere]
      obtain ⟨result, hresult, hfind⟩ := ih hothers (array ++ [individual])
      exact ⟨result, hresult, by rw [hfind, List.append_assoc]; rfl⟩

theorem readIndividuals_written (names : FontNames) (common : FontSettings) {lowercase : Lowercase}
    {seen : List Chars} {entries : List IndividualSetting}
    (h : validateIndividualsFrom lowercase seen entries = .ok ()) :
    ∃ individuals, (entries.map individualLine).mapM (readIndividual names common) = some individuals ∧
      List.Forall₂ (fun entry individual =>
        individual.name = FontNames.buffer (names.localName entry.fontFace) ∧
          ∀ x, individual.settings.param x = appliedParam common entry x) entries individuals := by
  induction entries generalizing seen with
  | nil => exact ⟨[], rfl, List.Forall₂.nil⟩
  | cons entry rest ih =>
    obtain ⟨⟨⟩, hentry, hrest⟩ := bind_eq_ok.1 h
    obtain ⟨settings, hread, hparams⟩ := readIndividual_written names common hentry
    obtain ⟨individuals, hreads, hall⟩ := ih hrest
    refine ⟨⟨FontNames.buffer (names.localName entry.fontFace), settings⟩ :: individuals, ?_,
      List.Forall₂.cons ⟨rfl, hparams⟩ hall⟩
    rw [List.map_cons, List.mapM_cons, hread, hreads]
    rfl

/-- The entry that the editor shows for a font: the first of those with its local name. -/
def entryFor (names : FontNames) (entries : List IndividualSetting) (faceName : Chars) :
    Option IndividualSetting :=
  entries.find? fun entry => names.sameFont (names.localName entry.fontFace) faceName

/-- The anti-aliasing that is used on a panel whose pixels are not the usual ones. -/
def harmonyParam (harmonyLcd : Bool) (x : ℕ) (n : ℤ) : ℤ :=
  if x = 1 ∧ harmonyLcd ∧ 2 < n then 2 else n

/-- The renderer draws every font with the values that were edited for its horizontal name, and with
the common value where none was given. A font without an entry has the common settings. -/
theorem individuals_applied (names : FontNames) (common : FontSettings) (harmonyLcd : Bool)
    {lowercase : Lowercase} {entries : List IndividualSetting}
    (h : validateIndividuals lowercase entries = .ok ()) (faceName : Chars) :
    ∃ array, addIndividuals names common (entries.map individualLine) [] = some array ∧
      ∀ x, (findIndividual names common harmonyLcd array faceName).param x =
        match entryFor names entries (horizontalName faceName) with
        | none => common.param x
        | some entry => harmonyParam harmonyLcd x (appliedParam common entry x) := by
  obtain ⟨individuals, hread, hall⟩ := readIndividuals_written names common h
  unfold findIndividual
  generalize horizontalName faceName = asked
  obtain ⟨array, harray, hfind⟩ := find_addIndividuals names common asked hread []
  refine ⟨array, harray, fun x => ?_⟩
  rw [List.nil_append] at hfind
  -- the same place of both lists is found
  have hfound : (∃ entry individual, entryFor names entries asked = some entry ∧
        individuals.find? (fun individual => names.sameFont individual.name asked) = some individual ∧
        ∀ x, individual.settings.param x = appliedParam common entry x) ∨
      (entryFor names entries asked = none ∧
        individuals.find? (fun individual => names.sameFont individual.name asked) = none) := by
    clear hread harray hfind h
    induction hall with
    | nil => exact Or.inr ⟨rfl, rfl⟩
    | @cons entry individual entries individuals hpair _ ih =>
      obtain ⟨hname, hparams⟩ := hpair
      by_cases hsame : names.sameFont (names.localName entry.fontFace) asked = true
      · refine Or.inl ⟨entry, individual,
          List.find?_cons_of_pos (p := fun e : IndividualSetting => names.sameFont (names.localName e.fontFace) asked) hsame,
          List.find?_cons_of_pos (p := fun i : FontIndividual => names.sameFont i.name asked) ?_, hparams⟩
        rw [hname, sameFont_buffer]
        exact hsame
      · have hother : ¬names.sameFont individual.name asked = true := by
          rw [hname, sameFont_buffer]
          exact hsame
        have hentries : entryFor names (entry :: entries) asked = entryFor names entries asked :=
          List.find?_cons_of_neg (p := fun e : IndividualSetting => names.sameFont (names.localName e.fontFace) asked) hsame
        rw [hentries, List.find?_cons_of_neg (p := fun i : FontIndividual => names.sameFont i.name asked) hother]
        exact ih
  simp only [hfind]
  rcases hfound with ⟨entry, individual, hentry, hindividual, hparams⟩ | ⟨hentry, hindividual⟩
  · simp only [hentry, hindividual]
    by_cases hharmony : 2 < individual.settings.param 1 ∧ harmonyLcd = true
    · rw [if_pos hharmony]
      by_cases hx : x = 1
      · subst hx
        rw [FontSettings.param_setParam_self _ (by decide) (by decide), harmonyParam, ← hparams,
          if_pos ⟨rfl, hharmony.2, hharmony.1⟩]
      · rw [FontSettings.param_setParam_of_ne _ _ hx, hparams, harmonyParam, if_neg fun h => hx h.1]
    · rw [if_neg hharmony, hparams, harmonyParam, if_neg]
      rintro ⟨rfl, hpanel, hmode⟩
      exact hharmony ⟨by rw [hparams]; exact hmode, hpanel⟩
  · simp only [hentry, hindividual]

def plainNames : FontNames := ⟨id, Char.toNat⟩

def arial : List IndividualSetting :=
  [⟨"Arial".toList, [some 1, none, some 5, none, none, none]⟩]

theorem individuals_applied_arial : ∃ array,
    addIndividuals plainNames .clear (arial.map individualLine) [] = some array ∧
      (findIndividual plainNames .clear false array "Arial".toList).param 2 = 5 := by
  obtain ⟨array, harray, hparams⟩ := individuals_applied plainNames .clear false
    (rfl : validateIndividuals id arial = .ok ()) "Arial".toList
  exact ⟨array, harray, hparams 2⟩

end MacTypeControl.Engine
