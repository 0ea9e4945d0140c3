import MacTypeControl.Preview.JsonLookups
import MacTypeControl.Preview.Requests

/-!
# What the helper reads of a preview request

The helper takes a request that is not too long exactly where no text in it needs a Unicode escape.
Of one that it takes, its lookups give the values that the control center put in, a name of the
sample that is also the name of an override left out.
-/

namespace MacTypeControl.Preview

open Json Text JsonParser

/-! ## Unsigned numbers -/

theorem isDigit_byte {c : Char} (h : c.isDigit = true) :
    c.toNat < 0x80 ∧ Grammar.isDigit (UInt8.ofNat c.toNat) = true := by
  have hascii := toNat_lt_of_isDigit h
  refine ⟨hascii, ?_⟩
  simp only [Char.isDigit, Bool.and_eq_true, decide_eq_true_eq, ge_iff_le] at h
  simp only [Grammar.isDigit, Bool.and_eq_true, decide_eq_true_eq, UInt8.le_iff_toNat_le,
    toNat_ofNat_byte (show c.toNat < 256 by omega)]
  exact ⟨UInt32.le_iff_toNat_le.1 h.1, UInt32.le_iff_toNat_le.1 h.2⟩

theorem encode_digits {digits : List Char} (h : ∀ c ∈ digits, c.isDigit = true) :
    (∀ b ∈ encodeUtf8 digits, Grammar.isDigit b = true) ∧
      (encodeUtf8 digits).length = digits.length := by
  induction digits with
  | nil => exact ⟨fun _ hb => absurd hb List.not_mem_nil, rfl⟩
  | cons c digits ih =>
    obtain ⟨hascii, hdigit⟩ := isDigit_byte (h c List.mem_cons_self)
    obtain ⟨hall, hlength⟩ := ih fun d hd => h d (List.mem_cons_of_mem c hd)
    rw [encodeUtf8_ascii hascii]
    exact ⟨List.forall_mem_cons.2 ⟨hdigit, hall⟩, by rw [List.length_cons, hlength, List.length_cons]⟩

theorem toDigits_head {value : ℕ} (h : value ≠ 0) :
    (Nat.toDigits 10 value).head? ≠ some '0' := by
  induction value using Nat.strongRecOn with
  | ind value ih =>
    by_cases hsmall : value < 10
    · rw [Nat.toDigits_of_lt_base hsmall]
      interval_cases value <;> simp_all [Nat.digitChar]
    · have hlarge : 10 ≤ value := Nat.le_of_not_lt hsmall
      rw [Nat.toDigits_of_base_le (by omega) hlarge, List.head?_append_of_ne_nil _ Nat.toDigits_ne_nil]
      exact ih (value / 10) (by omega) (by omega)

theorem isDigit_toNat {b : UInt8} (h : Grammar.isDigit b = true) : b.toNat - 0x30 ≤ 9 := by
  simp only [Grammar.isDigit, Bool.and_eq_true, decide_eq_true_eq, UInt8.le_iff_toNat_le] at h
  have hle : b.toNat ≤ 0x39 := h.2
  omega

theorem foldl_digits_lt {token : List UInt8} (h : ∀ b ∈ token, Grammar.isDigit b = true)
    (value : ℕ) : token.foldl (fun value b => 10 * value + (b.toNat - 0x30)) value <
      (value + 1) * 10 ^ token.length := by
  induction token generalizing value with
  | nil => simp
  | cons b token ih =>
    have hdigit := isDigit_toNat (h b List.mem_cons_self)
    have hlater := ih (fun c hc => h c (List.mem_cons_of_mem b hc)) (10 * value + (b.toNat - 0x30))
    have hstep : 10 * value + (b.toNat - 0x30) + 1 ≤ (value + 1) * 10 := by omega
    rw [List.foldl_cons, List.length_cons]
    calc
      _ < (10 * value + (b.toNat - 0x30) + 1) * 10 ^ token.length := hlater
      _ ≤ (value + 1) * 10 * 10 ^ token.length := Nat.mul_le_mul_right _ hstep
      _ = (value + 1) * 10 ^ (token.length + 1) := by rw [pow_succ]; ring

theorem numberValue_digits {token : List UInt8} (h : ∀ b ∈ token, Grammar.isDigit b = true) :
    Grammar.numberValue token = Grammar.digitsValue token := by
  have hsign : token.head? ≠ some Grammar.minus := by
    intro hhead
    exact absurd (h _ (List.mem_of_mem_head? hhead)) (by decide)
  have hall : token.takeWhile Grammar.isDigit = token := List.takeWhile_eq_self_iff.2 h
  have hnone : token.dropWhile Grammar.isDigit = [] := List.dropWhile_eq_nil_iff.2 h
  simp [Grammar.numberValue, hsign, hall, hnone]

theorem lt_double_bound : (10 : ℚ) ^ 20 < 2 ^ 1024 - 2 ^ 970 := by
  have hsplit : (2 : ℚ) ^ 1024 = 2 ^ 970 * 2 ^ 54 := by rw [← pow_add]
  have hlarge : (2 : ℚ) ^ 70 ≤ 2 ^ 970 := pow_le_pow_right₀ (by norm_num) (by norm_num)
  have hsmall : (10 : ℚ) ^ 20 < 2 ^ 70 := by norm_num
  rw [hsplit]
  generalize (2 : ℚ) ^ 970 = large at hlarge ⊢
  norm_num at hlarge hsmall ⊢
  linarith

theorem inDoubleRange_digits {token : List UInt8} (h : ∀ b ∈ token, Grammar.isDigit b = true)
    (hlength : token.length ≤ 20) : Grammar.InDoubleRange token := by
  have hvalue : Grammar.digitsValue token < 10 ^ 20 := by
    have hlt := foldl_digits_lt h 0
    rw [Nat.zero_add, Nat.one_mul] at hlt
    exact hlt.trans_le (Nat.pow_le_pow_right (by omega) hlength)
  have hcast : (Grammar.digitsValue token : ℚ) < 10 ^ 20 := by exact_mod_cast hvalue
  unfold Grammar.InDoubleRange
  rw [numberValue_digits h, abs_of_nonneg (Nat.cast_nonneg _)]
  exact hcast.trans lt_double_bound

/-- The text of an unsigned number of 64 bits. -/
theorem number_toDigits {value : ℕ} (h : value < 2 ^ 64) :
    Grammar.IsNumber (encodeUtf8 (Nat.toDigits 10 value)) ∧
      helperDialect.inRange (encodeUtf8 (Nat.toDigits 10 value)) := by
  have hchars : ∀ c ∈ Nat.toDigits 10 value, c.isDigit = true := fun c hc =>
    Nat.isDigit_of_mem_toDigits (by omega) (by omega) hc
  obtain ⟨hdigits, hlength⟩ := encode_digits hchars
  have hshort : (Nat.toDigits 10 value).length ≤ 20 :=
    (Nat.length_toDigits_le_iff (by omega) (by omega)).2 (h.trans (by norm_num))
  have hinteger : Grammar.IsInteger (encodeUtf8 (Nat.toDigits 10 value)) := by
    by_cases hzero : value = 0
    · rw [hzero]
      exact Or.inl rfl
    · obtain ⟨first, digits, hcons, hfirst⟩ := head_toDigits value
      have hne := toDigits_head hzero
      obtain ⟨hascii, -⟩ := isDigit_byte hfirst
      refine Or.inr ⟨⟨?_, hdigits⟩, ?_⟩
      · rw [hcons, encodeUtf8_ascii hascii]
        exact List.cons_ne_nil _ _
      · rw [hcons] at hne
        rw [hcons, encodeUtf8_ascii hascii, List.head?_cons]
        intro hbyte
        have hnat := congrArg UInt8.toNat (Option.some.inj hbyte)
        rw [toNat_ofNat_byte (by omega)] at hnat
        have hchar : first = '0' := by
          rw [← Char.ofNat_toNat first, hnat]
          rfl
        exact hne (by rw [hchar]; rfl)
  refine ⟨⟨[], by simp, _, [], [], ?_, hinteger, Or.inl rfl, Or.inl rfl⟩,
    inDoubleRange_digits hdigits (by omega)⟩
  simp

theorem numbersIn_nil : NumbersIn helperDialect [] := fun _ h => absurd h List.not_mem_nil

theorem numbersIn_append {numbers later : List (List Char)} (h : NumbersIn helperDialect numbers)
    (h' : NumbersIn helperDialect later) : NumbersIn helperDialect (numbers ++ later) :=
  List.forall_mem_append.2 ⟨h, h'⟩

theorem numbersIn_unsigned {value : ℕ} (h : value < 2 ^ 64) :
    NumbersIn helperDialect (unsignedTree value).numbers := by
  intro digits hdigits
  rw [List.mem_singleton.1 hdigits]
  exact number_toDigits h

theorem numbersIn_f64 (value : F64) : NumbersIn helperDialect value.tree.numbers := by
  cases value with
  | none => exact numbersIn_nil
  | some value =>
    intro digits hdigits
    rw [List.mem_singleton.1 hdigits]
    exact ⟨value.number, value.range⟩

/-! ## Members by name -/

theorem encodeUtf8_inj {text text' : List Char} (h : encodeUtf8 text = encodeUtf8 text') :
    text = text' := by
  have hboth := fromUtf8_encodeUtf8 text
  rw [h, fromUtf8_encodeUtf8] at hboth
  exact (Option.some.inj hboth).symm

theorem firstNamed_fields (name : List Char) (fields : List (List Char × Tree)) :
    Grammar.firstNamed (encodeUtf8 name) (valuesOfFields fields) =
      (fields.lookup name).map Tree.value := by
  induction fields with
  | nil => rfl
  | cons field fields ih =>
    obtain ⟨name', value⟩ := field
    rw [valuesOfFields, firstNamed_cons, List.lookup_cons, ih]
    by_cases hname : name' = name
    · subst hname
      simp
    · have hbytes : encodeUtf8 name' ≠ encodeUtf8 name := fun h => hname (encodeUtf8_inj h)
      have hother : (name == name') = false := by simpa using Ne.symm hname
      simp [hbytes, hother]

theorem lookup_of_mem {α : Type} {fields : List (List Char × α)} {name : List Char} {value : α}
    (hnames : (fields.map Prod.fst).Nodup) (h : (name, value) ∈ fields) :
    fields.lookup name = some value := by
  induction fields with
  | nil => exact absurd h List.not_mem_nil
  | cons field fields ih =>
    rw [List.map_cons, List.nodup_cons] at hnames
    rcases List.mem_cons.1 h with rfl | h
    · exact List.lookup_cons_self
    · have hother : name ≠ field.1 := fun he =>
        hnames.1 (he ▸ List.mem_map_of_mem h)
      have hbeq : (name == field.1) = false := by simpa using hother
      rw [List.lookup_cons, hbeq]
      exact ih hnames.2 h

theorem lookup_map_snd {α β : Type} (f : α → β) (entries : List (List Char × α))
    (name : List Char) : (entries.map fun entry => (entry.1, f entry.2)).lookup name =
      (entries.lookup name).map f := by
  induction entries with
  | nil => rfl
  | cons entry entries ih =>
    rw [List.map_cons, List.lookup_cons, List.lookup_cons, ih]
    cases name == entry.1 <;> rfl

theorem lookup_present (fields : List (List Char × Option Tree))
    (hnames : (fields.map Prod.fst).Nodup) (name : List Char) :
    (present fields).lookup name = (fields.lookup name).join := by
  induction fields with
  | nil => rfl
  | cons field fields ih =>
    obtain ⟨name', value⟩ := field
    rw [List.map_cons, List.nodup_cons] at hnames
    have hlater := ih hnames.2
    unfold present at hlater ⊢
    rw [List.filterMap_cons, List.lookup_cons]
    by_cases hname : name = name'
    · subst hname
      cases value with
      | some value => simp
      | none =>
        have hnone : fields.lookup name = none := by
          rw [List.lookup_eq_none_iff]
          intro entry hentry
          have hmem : entry.1 ∈ fields.map Prod.fst := List.mem_map_of_mem hentry
          have hother : name ≠ entry.1 := by
            rintro rfl
            exact hnames.1 hmem
          simpa using hother
        simpa [hnone] using hlater
    · have hother : (name == name') = false := by simpa using hname
      rw [hother]
      cases value with
      | none => exact hlater
      | some value =>
        rw [Option.map_some, List.lookup_cons, hother]
        exact hlater

/-! ## Requests that are taken -/

/-- A payload is taken where it is not too long and its texts are short, and then for its value. -/
theorem parse_payload (strtod : Strtod) {fields : List (List Char × Tree)}
    (hnumbers : NumbersIn helperDialect (Tree.object fields).numbers)
    (hdepth : (Tree.object fields).value.depth ≤ kJsonDocumentMaxDepth)
    (hlength : (payload (.object fields)).length ≤ kJsonDocumentMaxLength) :
    ((∃ document, JsonDocument.parse strtod (payload (.object fields)) = .ok document) ↔
      ∀ text ∈ (Tree.object fields).texts, ShortText text) ∧
    ∀ document, JsonDocument.parse strtod (payload (.object fields)) = .ok document →
      document = ⟨.object (valuesOfFields fields)⟩ := by
  have hiff := isDocument_print_iff hnumbers (show helperDialect.isSpace Grammar.backslash = false by
    decide)
  have hshort (htexts : ∀ text ∈ (Tree.object fields).texts, ShortText text) :
      Grammar.IsDocument helperDialect (.object (valuesOfFields fields))
        (payload (.object fields)) :=
    isDocument_of_derives (derives_print _ htexts hnumbers)
  rcases parse_cases strtod (payload (.object fields)) with
    ⟨message, hparse⟩ | ⟨members, hparse, -, hdocument, -⟩
  · rw [hparse]
    refine ⟨⟨nofun, fun htexts => ?_⟩, nofun⟩
    rw [parse_of_document strtod hlength (hshort htexts) hdepth] at hparse
    cases hparse
  · have htexts := hiff.1 ⟨_, hdocument⟩
    rw [hparse]
    refine ⟨⟨fun _ => htexts, fun _ => ⟨_, rfl⟩⟩, ?_⟩
    rintro document ⟨⟩
    rw [document_unique hdocument (hshort htexts)]

/-! ## Rendering -/

/-- The lookups of a request to render find the values of the control center. -/
structure RenderAgreement (request : RenderRequest) (document : JsonDocument) : Prop where
  profilePath : document.jsonString (key "profilePath") = some (encodeUtf8 request.profilePath)
  settings : ∀ name ∈ kSettings,
    document.jsonNumber (key name) = (request.overrides.get name.toList).bind F64.token
  strings : ∀ field ∈ request.sample.strings, request.overrides.get field.1.toList = none →
    document.jsonString (key field.1) = some (encodeUtf8 field.2)
  numbers : ∀ field ∈ request.sample.numbers, request.overrides.get field.1.toList = none →
    document.jsonNumber (key field.1) = field.2
  bools : ∀ field ∈ request.sample.bools, request.overrides.get field.1.toList = none →
    document.jsonBool (key field.1) = some field.2

/-- The members of a request and of the objects in it in document order. -/
def RenderRequest.allFields (request : RenderRequest) : List (List Char × Tree) :=
  [("requestId".toList, unsignedTree request.requestId.toNat),
    ("profilePath".toList, .text request.profilePath),
    ("overrides".toList, .object (overrideFields request.overrides))] ++
    (overrideFields request.overrides ++
      [("sample".toList, .object request.sample.fields)] ++ request.sample.fields)

theorem allMembers_f64 (value : F64) : value.tree.value.allMembers = [] := by
  cases value <;> rfl

theorem valuesOfFields_append (fields later : List (List Char × Tree)) :
    valuesOfFields (fields ++ later) = valuesOfFields fields ++ valuesOfFields later := by
  induction fields with
  | nil => rfl
  | cons field fields ih =>
    obtain ⟨name, value⟩ := field
    rw [List.cons_append, valuesOfFields, ih, valuesOfFields, List.cons_append]

theorem allMembers_overrides (overrides : TextMap F64) :
    Grammar.allOfMembers (valuesOfFields (overrideFields overrides)) =
      valuesOfFields (overrideFields overrides) := by
  unfold overrideFields
  induction overrides.entries with
  | nil => rfl
  | cons entry entries ih =>
    rw [List.map_cons, valuesOfFields, Grammar.allOfMembers, ih, allMembers_f64, List.nil_append]

theorem allMembers_request (request : RenderRequest) :
    (Grammar.Value.object (valuesOfFields request.fields)).allMembers =
      valuesOfFields request.allFields := by
  have hsample : Grammar.allOfMembers (valuesOfFields request.sample.fields) =
      valuesOfFields request.sample.fields := by
    cases hsize : request.sample.fontSizePt <;>
      simp [PreviewSample.fields, hsize, valuesOfFields, Grammar.allOfMembers, Tree.value,
        Grammar.Value.allMembers, F64.tree, unsignedTree]
  simp only [RenderRequest.fields, RenderRequest.allFields, valuesOfFields_append]
  simp [valuesOfFields, Grammar.allOfMembers, Grammar.Value.allMembers, Tree.value, unsignedTree,
    allMembers_overrides, hsample]

theorem recursiveValue_request (request : RenderRequest) (name : String) :
    recursiveValue (key name) (.object (valuesOfFields request.fields)) =
      (request.allFields.lookup name.toList).map Tree.value := by
  rw [recursiveValue_eq, allMembers_request, key, firstNamed_fields]

/-- The names of a request that the overrides cannot hide. -/
def outerNames : List (List Char) :=
  ["requestId".toList, "profilePath".toList, "overrides".toList, "sample".toList]

theorem lookup_allFields (request : RenderRequest) {name : List Char} (h : name ∉ outerNames) :
    request.allFields.lookup name = ((request.overrides.get name).map F64.tree).or
      (request.sample.fields.lookup name) := by
  simp only [outerNames, List.mem_cons, List.not_mem_nil, or_false, not_or] at h
  obtain ⟨hid, hpath, hoverrides, hsample⟩ := h
  have hother {literal : List Char} (h : name ≠ literal) : (name == literal) = false := by
    simpa using h
  rw [RenderRequest.allFields, List.lookup_append, List.lookup_append, List.lookup_append,
    overrideFields, lookup_map_snd, TextMap.get]
  simp only [List.lookup_cons, List.lookup_nil, hother hid, hother hpath, hother hoverrides,
    hother hsample, Option.none_or, Option.or_none]

theorem sampleNames_nodup (sample : PreviewSample) : (sample.fields.map Prod.fst).Nodup := by
  show ["text".toList, "fontFace".toList, "fontSizePt".toList, "widthPx".toList,
    "heightPx".toList, "dpi".toList, "foreground".toList, "background".toList, "bold".toList,
    "italic".toList].Nodup
  decide

theorem sampleNames_inner (sample : PreviewSample) :
    ∀ name ∈ sample.fields.map Prod.fst, name ∉ outerNames := by
  have hall : ["text".toList, "fontFace".toList, "fontSizePt".toList, "widthPx".toList,
      "heightPx".toList, "dpi".toList, "foreground".toList, "background".toList, "bold".toList,
      "italic".toList].all (fun name => decide (name ∉ outerNames)) = true := by decide
  intro name hname
  simpa using List.all_eq_true.1 hall name hname

theorem lookup_sample (request : RenderRequest) {name : String} {value : Tree}
    (hmem : (name.toList, value) ∈ request.sample.fields)
    (hfree : request.overrides.get name.toList = none) :
    recursiveValue (key name) (.object (valuesOfFields request.fields)) = some value.value := by
  have hname := sampleNames_inner request.sample _ (List.mem_map_of_mem hmem)
  rw [recursiveValue_request, lookup_allFields request hname, hfree,
    lookup_of_mem (sampleNames_nodup request.sample) hmem]
  rfl

theorem settings_names {name : String} (h : name ∈ kSettings) (sample : PreviewSample) :
    name.toList ∉ outerNames ∧ name.toList ∉ sample.fields.map Prod.fst := by
  have hall : kSettings.all (fun name => decide (name.toList ∉ outerNames) &&
      decide (name.toList ∉ ["text".toList, "fontFace".toList, "fontSizePt".toList,
        "widthPx".toList, "heightPx".toList, "dpi".toList, "foreground".toList,
        "background".toList, "bold".toList, "italic".toList])) = true := by decide
  have hname := List.all_eq_true.1 hall name h
  rw [Bool.and_eq_true, decide_eq_true_eq, decide_eq_true_eq] at hname
  exact hname

theorem numberToken_f64 (value : F64) : numberToken (some value.tree.value) = value.token := by
  cases value <;> rfl

theorem renderAgreement (request : RenderRequest) :
    RenderAgreement request ⟨.object (valuesOfFields request.fields)⟩ where
  profilePath := by
    rw [JsonDocument.jsonString, recursiveValue_request]
    rfl
  settings name hname := by
    obtain ⟨houter, hsample⟩ := settings_names hname request.sample
    have hnone : request.sample.fields.lookup name.toList = none := by
      rw [List.lookup_eq_none_iff]
      intro entry hentry
      have hmem : entry.1 ∈ request.sample.fields.map Prod.fst := List.mem_map_of_mem hentry
      have hother : name.toList ≠ entry.1 := fun he => hsample (he ▸ hmem)
      simpa using hother
    rw [JsonDocument.jsonNumber, recursiveValue_request, lookup_allFields request houter, hnone,
      Option.or_none]
    cases request.overrides.get name.toList with
    | none => rfl
    | some value => exact numberToken_f64 value
  strings := by
    have hmem : ∀ field ∈ request.sample.strings,
        (field.1.toList, Tree.text field.2) ∈ request.sample.fields := by
      simp [PreviewSample.strings, PreviewSample.fields]
    intro field hfield hfree
    rw [JsonDocument.jsonString, lookup_sample request (hmem field hfield) hfree]
    rfl
  numbers := by
    have hmem : ∀ field ∈ request.sample.numbers, ∃ value,
        (field.1.toList, value) ∈ request.sample.fields ∧
          numberToken (some value.value) = field.2 := by
      simp only [PreviewSample.numbers, List.forall_mem_cons, List.not_mem_nil, false_implies,
        implies_true, and_true]
      refine ⟨⟨_, ?_, numberToken_f64 _⟩, ⟨unsignedTree request.sample.widthPx.toNat, ?_, rfl⟩,
        ⟨unsignedTree request.sample.heightPx.toNat, ?_, rfl⟩,
        ⟨unsignedTree request.sample.dpi.toNat, ?_, rfl⟩⟩ <;>
        simp [PreviewSample.fields]
    intro field hfield hfree
    obtain ⟨value, hvalue, htoken⟩ := hmem field hfield
    rw [JsonDocument.jsonNumber, lookup_sample request hvalue hfree, htoken]
  bools := by
    have hmem : ∀ field ∈ request.sample.bools,
        (field.1.toList, Tree.bool field.2) ∈ request.sample.fields := by
      simp [PreviewSample.bools, PreviewSample.fields]
    intro field hfield hfree
    rw [JsonDocument.jsonBool, lookup_sample request (hmem field hfield) hfree]
    rfl

/-! ## The native window -/

/-- The chrome is found with all its values. -/
structure ChromeAgreement (chrome : NativePreviewChrome) (object : JsonObject) : Prop where
  strings : ∀ field ∈ chrome.strings, object.jsonString (key field.1) = some (encodeUtf8 field.2)
  numbers : ∀ field ∈ chrome.numbers, object.jsonNumber (key field.1) = some (unsignedToken field.2)
  monoStatus : object.jsonBool (key "monoStatus") = some chrome.monoStatus

/-- The lookups of a request for the native window find the values of the control center, and
nothing for those left out. -/
structure NativeAgreement (options : NativePreviewOptions) (document : JsonDocument) : Prop where
  strings : ∀ field ∈ options.strings,
    document.rootString (key field.1) = field.2.map encodeUtf8
  numbers : ∀ field ∈ options.numbers,
    document.rootNumber (key field.1) = field.2.map unsignedToken ∧
      document.containsRoot (key field.1) = field.2.isSome
  bools : ∀ field ∈ options.bools, document.rootBool (key field.1) = field.2 ∧
    document.containsRoot (key field.1) = field.2.isSome
  sizes : document.rootNumberArray (key "sizes") = options.sizes.map (·.map unsignedToken) ∧
    document.containsRoot (key "sizes") = options.sizes.isSome
  chrome : match options.chrome with
    | none => document.object (key "chrome") = none
    | some chrome => ∃ object, document.object (key "chrome") = some object ∧
      ChromeAgreement chrome object
  labels : match options.labels with
    | none => document.object (key "labels") = none
    | some labels => ∃ object, document.object (key "labels") = some object ∧
      ∀ name : String, object.jsonString (key name) = (labels.get name.toList).map encodeUtf8

theorem objectValue_fields (fields : List (List Char × Tree)) (name : String) :
    objectValue (key name) (.object (valuesOfFields fields)) =
      (fields.lookup name.toList).map Tree.value := by
  rw [objectValue_object, key, firstNamed_fields]

theorem optionNames_nodup (options : NativePreviewOptions) :
    (options.fields.map Prod.fst).Nodup := by
  show ["displayMode".toList, "text".toList, "listingText".toList, "fontFace".toList,
    "fontSizePt".toList, "bold".toList, "italic".toList, "foreground".toList,
    "background".toList, "theme".toList, "inverted".toList, "zoom".toList, "sizes".toList,
    "labels".toList, "chrome".toList].Nodup
  decide

theorem objectValue_options (options : NativePreviewOptions) {name : String} {value : Option Tree}
    (h : (name.toList, value) ∈ options.fields) :
    objectValue (key name) (.object (valuesOfFields (present options.fields))) =
      value.map Tree.value := by
  rw [objectValue_fields, lookup_present _ (optionNames_nodup options),
    lookup_of_mem (optionNames_nodup options) h]
  rfl

theorem chromeAgreement (chrome : NativePreviewChrome) :
    ChromeAgreement chrome ⟨.object (valuesOfFields chrome.fields)⟩ := by
  have hnames : (chrome.fields.map Prod.fst).Nodup := by
    show ["skin".toList, "canvas".toList, "surface".toList, "surfaceSubtle".toList,
      "border".toList, "text".toList, "muted".toList, "accent".toList, "onAccent".toList,
      "radius".toList, "controlHeight".toList, "toolbarHeight".toList, "statusHeight".toList,
      "canvasRadius".toList, "canvasInset".toList, "monoStatus".toList].Nodup
    decide
  have hfind {name : String} {value : Tree} (h : (name.toList, value) ∈ chrome.fields) :
      objectValue (key name) (.object (valuesOfFields chrome.fields)) = some value.value := by
    rw [objectValue_fields, lookup_of_mem hnames h]
    rfl
  have hstrings : ∀ field ∈ chrome.strings, (field.1.toList, Tree.text field.2) ∈ chrome.fields := by
    simp [NativePreviewChrome.strings, NativePreviewChrome.fields]
  have hnumbers : ∀ field ∈ chrome.numbers,
      (field.1.toList, unsignedTree field.2.toNat) ∈ chrome.fields := by
    simp [NativePreviewChrome.numbers, NativePreviewChrome.fields]
  have hmono : ("monoStatus".toList, Tree.bool chrome.monoStatus) ∈ chrome.fields := by
    simp [NativePreviewChrome.fields]
  constructor
  · intro field hfield
    rw [JsonObject.jsonString, hfind (hstrings field hfield)]
    rfl
  · intro field hfield
    rw [JsonObject.jsonNumber, hfind (hnumbers field hfield)]
    rfl
  · rw [JsonObject.jsonBool, hfind hmono]
    rfl

theorem mapM_sizes (sizes : List UInt32) :
    (valuesOfTrees (sizes.map fun size => unsignedTree size.toNat)).mapM
      (fun item => numberToken (some item)) = some (sizes.map unsignedToken) := by
  rw [mapM_numberToken]
  induction sizes with
  | nil => rfl
  | cons size sizes ih =>
    rw [List.map_cons, valuesOfTrees, ih]
    rfl

theorem nativeAgreement (options : NativePreviewOptions) :
    NativeAgreement options ⟨.object (valuesOfFields (present options.fields))⟩ where
  strings := by
    have hmem : ∀ field ∈ options.strings,
        (field.1.toList, field.2.map Tree.text) ∈ options.fields := by
      simp [NativePreviewOptions.strings, NativePreviewOptions.fields]
    intro field hfield
    rw [JsonDocument.rootString, objectValue_options options (hmem field hfield)]
    cases field.2 <;> rfl
  numbers := by
    have hmem : ∀ field ∈ options.numbers,
        (field.1.toList, field.2.map fun value => unsignedTree value.toNat) ∈ options.fields := by
      simp [NativePreviewOptions.numbers, NativePreviewOptions.fields]
    intro field hfield
    rw [JsonDocument.rootNumber, JsonDocument.containsRoot,
      objectValue_options options (hmem field hfield)]
    cases field.2 <;> exact ⟨rfl, rfl⟩
  bools := by
    have hmem : ∀ field ∈ [("bold", options.bold), ("italic", options.italic),
        ("inverted", options.inverted)], (field.1.toList, field.2.map Tree.bool) ∈ options.fields := by
      simp [NativePreviewOptions.fields]
    have htopmost : objectValue (key "topmost")
        (.object (valuesOfFields (present options.fields))) = none := by
      rw [objectValue_fields, lookup_present _ (optionNames_nodup options)]
      rfl
    intro field hfield
    have hcases : field ∈ [("bold", options.bold), ("italic", options.italic),
        ("inverted", options.inverted)] ++ [("topmost", none)] := hfield
    rcases List.mem_append.1 hcases with hfield | hfield
    · rw [JsonDocument.rootBool, JsonDocument.containsRoot,
        objectValue_options options (hmem field hfield)]
      cases field.2 <;> exact ⟨rfl, rfl⟩
    · rw [List.mem_singleton.1 hfield, JsonDocument.rootBool, JsonDocument.containsRoot, htopmost]
      exact ⟨rfl, rfl⟩
  sizes := by
    have hmem : ("sizes".toList, options.sizes.map fun sizes =>
        Tree.array (sizes.map fun size => unsignedTree size.toNat)) ∈ options.fields := by
      simp [NativePreviewOptions.fields]
    rw [JsonDocument.rootNumberArray, JsonDocument.containsRoot, objectValue_options options hmem]
    cases options.sizes with
    | none => exact ⟨rfl, rfl⟩
    | some sizes => exact ⟨mapM_sizes sizes, rfl⟩
  chrome := by
    have hmem : ("chrome".toList, options.chrome.map fun chrome =>
        Tree.object chrome.fields) ∈ options.fields := by
      simp [NativePreviewOptions.fields]
    rw [JsonDocument.object, objectValue_options options hmem]
    cases options.chrome with
    | none => rfl
    | some chrome => exact ⟨_, rfl, chromeAgreement chrome⟩
  labels := by
    have hmem : ("labels".toList, options.labels.map fun labels =>
        Tree.object (labelFields labels)) ∈ options.fields := by
      simp [NativePreviewOptions.fields]
    rw [JsonDocument.object, objectValue_options options hmem]
    cases options.labels with
    | none => rfl
    | some labels =>
      refine ⟨_, rfl, fun name => ?_⟩
      rw [JsonObject.jsonString]
      show stringValue (objectValue (key name) (.object (valuesOfFields (labelFields labels)))) = _
      rw [objectValue_fields, labelFields, lookup_map_snd, TextMap.get]
      cases labels.entries.lookup name.toList <;> rfl

/-! ## Numbers and depth of the requests -/

/-- The numbers are read, and the value has at most so many levels. -/
def Fits (levels : ℕ) (tree : Tree) : Prop :=
  NumbersIn helperDialect tree.numbers ∧ tree.value.depth ≤ levels

section

variable {levels : ℕ}

theorem fits_text (text : List Char) : Fits (levels + 1) (.text text) :=
  ⟨numbersIn_nil, Nat.le_add_left 1 levels⟩

theorem fits_bool (value : Bool) : Fits (levels + 1) (.bool value) :=
  ⟨numbersIn_nil, Nat.le_add_left 1 levels⟩

theorem fits_unsigned {value : ℕ} (h : value < 2 ^ 64) : Fits (levels + 1) (unsignedTree value) :=
  ⟨numbersIn_unsigned h, Nat.le_add_left 1 levels⟩

theorem fits_u32 (value : UInt32) : Fits (levels + 1) (unsignedTree value.toNat) :=
  fits_unsigned (value.toNat_lt.trans (by norm_num))

theorem fits_f64 (value : F64) : Fits (levels + 1) value.tree := by
  refine ⟨numbersIn_f64 value, ?_⟩
  cases value <;> exact Nat.le_add_left 1 levels

theorem fits_object {fields : List (List Char × Tree)}
    (h : ∀ field ∈ fields, Fits levels field.2) : Fits (levels + 1) (.object fields) := by
  have hall : NumbersIn helperDialect (numbersOfFields fields) ∧
      Grammar.depthOfMembers (valuesOfFields fields) ≤ levels := by
    induction fields with
    | nil => exact ⟨numbersIn_nil, Nat.zero_le _⟩
    | cons field fields ih =>
      obtain ⟨name, value⟩ := field
      obtain ⟨hnumbers, hdepth⟩ := h (name, value) List.mem_cons_self
      obtain ⟨hlater, hbound⟩ := ih fun field hfield => h field (List.mem_cons_of_mem _ hfield)
      exact ⟨numbersIn_append hnumbers hlater, max_le hdepth hbound⟩
  exact ⟨hall.1, Nat.succ_le_succ hall.2⟩

theorem fits_array {items : List Tree} (h : ∀ item ∈ items, Fits levels item) :
    Fits (levels + 1) (.array items) := by
  have hall : NumbersIn helperDialect (numbersOfTrees items) ∧
      Grammar.depthOfItems (valuesOfTrees items) ≤ levels := by
    induction items with
    | nil => exact ⟨numbersIn_nil, Nat.zero_le _⟩
    | cons item items ih =>
      obtain ⟨hnumbers, hdepth⟩ := h item List.mem_cons_self
      obtain ⟨hlater, hbound⟩ := ih fun item hitem => h item (List.mem_cons_of_mem _ hitem)
      exact ⟨numbersIn_append hnumbers hlater, max_le hdepth hbound⟩
  exact ⟨hall.1, Nat.succ_le_succ hall.2⟩

end

theorem fits_request (request : RenderRequest) : Fits 3 (.object request.fields) := by
  refine fits_object ?_
  simp only [RenderRequest.fields, List.forall_mem_cons]
  refine ⟨fits_unsigned request.requestId.toNat_lt, fits_text _, fits_object ?_, fits_object ?_,
    by simp⟩
  · intro field hfield
    obtain ⟨entry, -, rfl⟩ := List.mem_map.1 hfield
    exact fits_f64 entry.2
  · simp only [PreviewSample.fields, List.forall_mem_cons]
    exact ⟨fits_text _, fits_text _, fits_f64 _, fits_u32 _, fits_u32 _, fits_u32 _, fits_text _,
      fits_text _, fits_bool _, fits_bool _, by simp⟩

theorem fits_chrome (chrome : NativePreviewChrome) : Fits 2 (.object chrome.fields) := by
  refine fits_object ?_
  simp only [NativePreviewChrome.fields, List.forall_mem_cons]
  exact ⟨fits_text _, fits_text _, fits_text _, fits_text _, fits_text _, fits_text _,
    fits_text _, fits_text _, fits_text _, fits_u32 _, fits_u32 _, fits_u32 _, fits_u32 _,
    fits_u32 _, fits_u32 _, fits_bool _, by simp⟩

theorem fits_options (options : NativePreviewOptions) :
    Fits 3 (.object (present options.fields)) := by
  have hmap {α : Type} {f : α → Tree} (h : ∀ value, Fits 2 (f value)) (given : Option α) :
      ∀ value ∈ given.map f, Fits 2 value := by
    rintro value hvalue
    obtain ⟨a, -, rfl⟩ := Option.map_eq_some_iff.1 hvalue
    exact h a
  have hall : ∀ field ∈ options.fields, ∀ value ∈ field.2, Fits 2 value := by
    simp only [NativePreviewOptions.fields, List.forall_mem_cons]
    refine ⟨hmap fits_text _, hmap fits_text _, hmap fits_text _, hmap fits_text _,
      hmap (fun value => fits_u32 value) _, hmap fits_bool _, hmap fits_bool _, hmap fits_text _,
      hmap fits_text _, hmap fits_text _, hmap fits_bool _, hmap (fun value => fits_u32 value) _,
      hmap (fun sizes => fits_array ?_) _, hmap (fun labels => fits_object ?_) _,
      hmap fits_chrome _, by simp⟩
    · intro item hitem
      obtain ⟨size, -, rfl⟩ := List.mem_map.1 hitem
      exact fits_u32 size
    · intro field hfield
      obtain ⟨entry, -, rfl⟩ := List.mem_map.1 hfield
      exact fits_text entry.2
  refine fits_object fun field hfield => ?_
  obtain ⟨given, hgiven, hvalue⟩ := List.mem_filterMap.1 hfield
  obtain ⟨value, hsome, rfl⟩ := Option.map_eq_some_iff.1 hvalue
  exact hall given hgiven value hsome

/-! ## Agreement -/

/-- All texts are printed without a Unicode escape. -/
def ShortTree (tree : Tree) : Prop := ∀ text ∈ tree.texts, ShortText text

/-- The helper takes exactly the payloads without Unicode escapes, and reads the values in them. -/
theorem previewRequest_agreement (strtod : Strtod) :
    (∀ request : RenderRequest, (payload request.tree).length ≤ kJsonDocumentMaxLength →
      ((∃ document, JsonDocument.parse strtod (payload request.tree) = .ok document) ↔
        ShortTree request.tree) ∧
      ∀ document, JsonDocument.parse strtod (payload request.tree) = .ok document →
        RenderAgreement request document) ∧
    ∀ options : NativePreviewOptions, (payload options.tree).length ≤ kJsonDocumentMaxLength →
      ((∃ document, JsonDocument.parse strtod (payload options.tree) = .ok document) ↔
        ShortTree options.tree) ∧
      ∀ document, JsonDocument.parse strtod (payload options.tree) = .ok document →
        NativeAgreement options document := by
  have hlimit : 3 ≤ kJsonDocumentMaxDepth := by decide
  constructor
  · intro request hlength
    obtain ⟨hnumbers, hdepth⟩ := fits_request request
    obtain ⟨htaken, hvalue⟩ := parse_payload strtod hnumbers (hdepth.trans hlimit) hlength
    refine ⟨htaken, fun document hparse => ?_⟩
    rw [hvalue document hparse]
    exact renderAgreement request
  · intro options hlength
    obtain ⟨hnumbers, hdepth⟩ := fits_options options
    obtain ⟨htaken, hvalue⟩ := parse_payload strtod hnumbers (hdepth.trans hlimit) hlength
    refine ⟨htaken, fun document hparse => ?_⟩
    rw [hvalue document hparse]
    exact nativeAgreement options

/-- The number 14.0. -/
def fourteen : Finite where
  digits := "14.0".toList
  number := ⟨[], by simp, [0x31, 0x34], [Grammar.point, Grammar.zero], [], rfl,
    Or.inr ⟨by simp [Grammar.Digits, Grammar.isDigit], by simp [Grammar.zero]⟩,
    Or.inr ⟨[Grammar.zero], rfl, by simp [Grammar.Digits, Grammar.isDigit, Grammar.zero]⟩,
    Or.inl rfl⟩
  range := by
    have hparts : Grammar.numberValue (encodeUtf8 "14.0".toList) =
        1 * (140 : ℕ) * 10 ^ ((0 : ℤ) - (1 : ℕ)) := rfl
    have hvalue : Grammar.numberValue (encodeUtf8 "14.0".toList) = 14 := by
      rw [hparts]
      norm_num
    unfold Grammar.InDoubleRange
    rw [hvalue]
    exact lt_trans (by norm_num) lt_double_bound

/-- A request of that text and with those overrides. -/
def plainRequest (text : List Char) (overrides : TextMap F64) : RenderRequest where
  requestId := 1
  profilePath := []
  overrides := overrides
  sample := {
    text := text
    fontFace := "Segoe UI".toList
    fontSizePt := some fourteen
    widthPx := 640
    heightPx := 96
    dpi := 96
    foreground := "#181D23".toList
    background := "#EEF1F4".toList
    bold := false
    italic := false }

/-- A vertical tab in the text makes the helper refuse a request, and an override of the name
hides the text of a sample. -/
theorem previewRequest_disagreement :
    ((payload (plainRequest [Char.ofNat 11] ⟨[], .nil⟩).tree).length ≤ kJsonDocumentMaxLength ∧
      ¬∃ document, JsonDocument.parse scannedStrtod
        (payload (plainRequest [Char.ofNat 11] ⟨[], .nil⟩).tree) = .ok document) ∧
    (payload (plainRequest ['a'] ⟨[("text".toList, some fourteen)], by simp⟩).tree).length ≤
      kJsonDocumentMaxLength ∧
    ∃ document, JsonDocument.parse scannedStrtod
        (payload (plainRequest ['a'] ⟨[("text".toList, some fourteen)], by simp⟩).tree) =
          .ok document ∧ document.jsonString (key "text") = none := by
  have hlength : (payload (plainRequest [Char.ofNat 11] ⟨[], .nil⟩).tree).length ≤
      kJsonDocumentMaxLength := by decide +kernel
  have hlength' : (payload (plainRequest ['a'] ⟨[("text".toList, some fourteen)], by simp⟩).tree
      ).length ≤ kJsonDocumentMaxLength := by decide +kernel
  have hrefused := parse_payload scannedStrtod
    (fits_request (plainRequest [Char.ofNat 11] ⟨[], .nil⟩)).1
    ((fits_request _).2.trans (by decide)) hlength
  have htaken := parse_payload scannedStrtod
    (fits_request (plainRequest ['a'] ⟨[("text".toList, some fourteen)], by simp⟩)).1
    ((fits_request _).2.trans (by decide)) hlength'
  have hshort : (Tree.object (plainRequest ['a'] ⟨[("text".toList, some fourteen)], by simp⟩).fields
      ).texts.all (fun text => decide (ShortText text)) = true := by decide
  refine ⟨⟨hlength, fun h => ?_⟩, hlength', ?_⟩
  · have htext := hrefused.1.1 h [Char.ofNat 11] (by decide)
    exact absurd (htext _ (List.mem_singleton_self _)) (by decide)
  · obtain ⟨document, hparse⟩ := htaken.1.2 fun text htext =>
      of_decide_eq_true (List.all_eq_true.1 hshort text htext)
    refine ⟨document, hparse, ?_⟩
    rw [htaken.2 document hparse, JsonDocument.jsonString, recursiveValue_request]
    rfl

end MacTypeControl.Preview
