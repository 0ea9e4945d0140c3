import MacTypeControl.Editor.ListEdits
import MacTypeControl.Json.Strings

/-!
# The structured settings and their readings

The shadow and the two vectors are each the value of one key, and the font substitutions are a list.
All of them are rendered before the first is written.
-/

namespace MacTypeControl.Editor

open Text

/-! ## Readings -/

/-- The parts of a value between commas and white space. -/
def valueParts (raw : Chars) : List Chars :=
  (raw.splitOnP fun c => c == ',' || isWhitespace c).filter (· ≠ [])

def parseVector (nodes : List IniNode) (sectionName keyName : Chars) (length : ℕ) :
    Option (List ℤ) := do
  let raw ← rawValue nodes sectionName keyName
  let values ← (valueParts raw).mapM fun part => parseI32 (trim part)
  if values.length = length then some values else none

def trimHexMarks : Chars → Chars
  | '0' :: 'x' :: rest => trimHexMarks rest
  | text => text

def trimPlus : Chars → Chars
  | '+' :: rest => rest
  | text => text

/-- `u32::from_str_radix` with the radix sixteen. -/
def parseHexU32 (text : Chars) : Option ℕ :=
  if trimPlus text = [] then none else (Json.readHex (trimPlus text)).filter (· < 2 ^ 32)

def parseColor (text : Chars) : Option ℕ := parseHexU32 (trimHexMarks text)

def shadow (nodes : List IniNode) : Option ShadowSetting := do
  let raw ← rawValue nodes "General".toList "Shadow".toList
  match valueParts raw with
  | offsetX :: offsetY :: alpha :: rest =>
    let darkAlpha ← parseI32 alpha
    some {
      offsetX := ← parseI32 offsetX
      offsetY := ← parseI32 offsetY
      darkAlpha
      darkColor := (rest[0]?.bind parseColor).getD 0
      lightAlpha := (rest[1]?.bind parseI32).getD darkAlpha
      lightColor := (rest[2]?.bind parseColor).getD 0 }
  | _ => none

def advanced (nodes : List IniNode) : AdvancedProfile where
  shadow := shadow nodes
  lcdFilterWeight := parseVector nodes "General".toList "LcdFilterWeight".toList 5
  pixelLayout := parseVector nodes "General".toList "PixelLayout".toList 6
  fontSubstitutes := listEntries nodes "FontSubstitutes".toList

/-! ## Values that are read back -/

theorem valueParts_commaSeparated {parts : List Chars} (hne : ∀ part ∈ parts, part ≠ [])
    (h : ∀ part ∈ parts, ∀ c ∈ part, c ≠ ',' ∧ isWhitespace c = false) :
    valueParts (commaSeparated parts) = parts := by
  induction parts with
  | nil => rfl
  | cons first rest ih =>
    rw [List.forall_mem_cons] at hne h
    have hfirst : ∀ c ∈ first, (c == ',' || isWhitespace c) = false := by
      intro c hc
      simp [h.1 c hc]
    cases rest with
    | nil =>
      have hsingle : commaSeparated [first] = first := by simp [commaSeparated]
      rw [hsingle, valueParts, List.splitOnP_eq_singleton hfirst]
      simp [hne.1]
    | cons second rest =>
      have hcomma : commaSeparated (first :: second :: rest) =
          first ++ ',' :: commaSeparated (second :: rest) := by simp [commaSeparated]
      have hlater := ih hne.2 h.2
      unfold valueParts at hlater ⊢
      rw [hcomma, List.splitOnP_append_cons_of_forall_mem hfirst ',' (by decide),
        List.filter_cons_of_pos (by simpa using hne.1), hlater]

theorem printInt_ne_nil (n : ℤ) : printInt n ≠ [] := by
  rcases printInt_cases n with ⟨-, h⟩ | ⟨-, h⟩ <;> rw [h]
  · exact Nat.toDigits_ne_nil
  · exact List.cons_ne_nil _ _

theorem plain_printInt (n : ℤ) : ∀ c ∈ printInt n, c ≠ ',' ∧ isWhitespace c = false := by
  intro c hc
  rcases mem_printInt hc with rfl | hdigit
  · decide
  · refine ⟨?_, isWhitespace_of_isDigit hdigit⟩
    rintro rfl
    exact absurd hdigit (by decide)

/-- The range of `i32`. -/
def IsI32 (n : ℤ) : Prop := -(2 ^ 31) ≤ n ∧ n < 2 ^ 31

instance (n : ℤ) : Decidable (IsI32 n) := inferInstanceAs (Decidable (_ ∧ _))

theorem parseVector_written {nodes : List IniNode} {sectionName keyName : Chars} {values : List ℤ}
    (hraw : rawValue nodes sectionName keyName = some (commaSeparated (values.map printInt)))
    (h : ∀ n ∈ values, IsI32 n) :
    parseVector nodes sectionName keyName values.length = some values := by
  have hparts : valueParts (commaSeparated (values.map printInt)) = values.map printInt := by
    refine valueParts_commaSeparated ?_ ?_ <;> intro part hpart <;>
      obtain ⟨n, -, rfl⟩ := List.mem_map.mp hpart
    · exact printInt_ne_nil n
    · exact plain_printInt n
  have hread : (values.map printInt).mapM (fun part => parseI32 (trim part)) = some values := by
    clear hraw hparts
    induction values with
    | nil => rfl
    | cons n rest ih =>
      rw [List.forall_mem_cons] at h
      rw [List.map_cons, List.mapM_cons, trim_printInt, parseI32_printInt h.1.1 h.1.2, ih h.2]
      rfl
  simp [parseVector, hraw, hparts, hread]

/-! ## Colors -/

theorem upperHexDigit_cases : ∀ k < 16, Json.hexValue (upperHexDigit k) = some k ∧
    upperHexDigit k ≠ ',' ∧ upperHexDigit k ≠ 'x' ∧ upperHexDigit k ≠ '+' ∧
      isWhitespace (upperHexDigit k) = false := by
  decide

theorem plain_sixHexDigits (n : ℕ) : ∀ c ∈ sixHexDigits n, c ≠ ',' ∧ isWhitespace c = false := by
  intro c hc
  obtain ⟨shift, -, rfl⟩ := List.mem_map.mp hc
  have hdigit := upperHexDigit_cases (n / 2 ^ shift % 16) (Nat.mod_lt _ (by decide))
  exact ⟨hdigit.2.1, hdigit.2.2.2.2⟩

theorem trimHexMarks_sixHexDigits (n : ℕ) : trimHexMarks (sixHexDigits n) = sixHexDigits n := by
  have hmark : upperHexDigit (n / 2 ^ 16 % 16) ≠ 'x' :=
    (upperHexDigit_cases _ (Nat.mod_lt _ (by decide))).2.2.1
  unfold sixHexDigits
  simp only [List.map_cons]
  unfold trimHexMarks
  split
  · next h => exact absurd (List.cons.inj (List.cons.inj h).2).1 hmark
  · rfl

theorem parseColor_sixHexDigits {n : ℕ} (h : n ≤ 0xFFFFFF) :
    parseColor (sixHexDigits n) = some n := by
  have hfirst : upperHexDigit (n / 2 ^ 20 % 16) ≠ '+' :=
    (upperHexDigit_cases _ (Nat.mod_lt _ (by decide))).2.2.2.1
  have hplus : trimPlus (sixHexDigits n) = sixHexDigits n := by
    unfold trimPlus
    split
    · next h => exact absurd (List.cons.inj h).1 hfirst
    · rfl
  have hdigit (shift : ℕ) : Json.hexValue (upperHexDigit (n / 2 ^ shift % 16)) =
      some (n / 2 ^ shift % 16) := (upperHexDigit_cases _ (Nat.mod_lt _ (by decide))).1
  have hread : Json.readHex (sixHexDigits n) = some n := by
    simp only [Json.readHex, sixHexDigits, List.map_cons, List.map_nil, List.foldlM_cons,
      List.foldlM_nil, hdigit, Option.map_some, Option.bind_eq_bind, Option.bind_some,
      Option.pure_def]
    congr 1
    omega
  unfold parseColor parseHexU32
  rw [trimHexMarks_sixHexDigits, hplus, if_neg (by simp [sixHexDigits]), hread,
    Option.filter_some_pos (by simp; omega)]

theorem shadow_written {nodes : List IniNode} {value : ShadowSetting} {rendered : Chars}
    (hrendered : renderShadow value = .ok rendered) (hx : IsI32 value.offsetX)
    (hy : IsI32 value.offsetY)
    (hraw : rawValue nodes "General".toList "Shadow".toList = some rendered) :
    shadow nodes = some value := by
  unfold renderShadow at hrendered
  split_ifs at hrendered with hrange
  simp only [not_or, not_lt] at hrange
  obtain ⟨hdark, hdark', hlight, hlight', hdarkColor, hlightColor⟩ := hrange
  obtain rfl := Except.ok.inj hrendered
  have hsplit := @valueParts_commaSeparated [printInt value.offsetX, printInt value.offsetY,
    printInt value.darkAlpha, sixHexDigits value.darkColor, printInt value.lightAlpha,
    sixHexDigits value.lightColor]
    (by simp [printInt_ne_nil, sixHexDigits])
    (by
      simp only [List.forall_mem_cons, List.not_mem_nil, false_imp_iff, implies_true, and_true]
      exact ⟨plain_printInt _, plain_printInt _, plain_printInt _, plain_sixHexDigits _,
        plain_printInt _, plain_sixHexDigits _⟩)
  unfold shadow
  rw [hraw, Option.bind_eq_bind, Option.bind_some, hsplit]
  simp [parseI32_printInt hx.1 hx.2, parseI32_printInt hy.1 hy.2,
    parseI32_printInt (n := value.darkAlpha) (by omega) (by omega),
    parseI32_printInt (n := value.lightAlpha) (by omega) (by omega),
    parseColor_sixHexDigits hdarkColor, parseColor_sixHexDigits hlightColor]

/-! ## Font substitutions -/

/-- The entries without white space around them, each the first of its name. -/
theorem normalizeFrom_eq_ok {lowercase : Lowercase} (kept : List Chars)
    {entries normalized : List Chars}
    (h : normalizeFrom lowercase (kept.map lowercase) entries = .ok normalized) :
    List.eraseDupsBy.loop (fun a b => lowercase a == lowercase b) (entries.map trim) kept =
      kept.reverse ++ normalized := by
  induction entries generalizing kept normalized with
  | nil =>
    obtain rfl := Except.ok.inj h
    simp [List.eraseDupsBy.loop]
  | cons entry rest ih =>
    obtain ⟨⟨⟩, -, h⟩ := bind_eq_ok.mp h
    have hseen : kept.any (fun other => lowercase (trim entry) == lowercase other) =
        decide (lowercase (trim entry) ∈ kept.map lowercase) := by
      rw [Bool.eq_iff_iff, List.any_eq_true, decide_eq_true_eq, List.mem_map]
      simp only [beq_iff_eq]
      exact exists_congr fun _ => and_congr_right fun _ => eq_comm
    rw [List.map_cons, List.eraseDupsBy.loop, hseen]
    split_ifs at h with hmem
    · rw [decide_eq_true hmem]
      exact ih kept h
    · obtain ⟨others, hothers, hresult⟩ := bind_eq_ok.mp h
      obtain rfl := Except.ok.inj hresult
      rw [decide_eq_false hmem]
      have hlater := ih (trim entry :: kept) hothers
      simpa using hlater

theorem normalizeListEntries_eq_ok {lowercase : Lowercase} {entries normalized : List Chars}
    (h : normalizeListEntries lowercase entries = .ok normalized) :
    normalized = (entries.map trim).eraseDupsBy fun a b => lowercase a == lowercase b :=
  (normalizeFrom_eq_ok [] h).symm

/-! ## A value that is written or removed -/

namespace ProfileDocument

theorem rawValue_removed (d : ProfileDocument) (sectionName keyName : Chars) (dirtyKey : String) :
    rawValue (d.setRawValue sectionName keyName none dirtyKey).nodes sectionName keyName = none := by
  unfold rawValue
  rw [List.findSome?_eq_none_iff]
  intro target htarget
  apply lastValue_eq_none
  rw [List.any_eq_false]
  intro node hnode hentry
  have hkept := (List.mem_filter.mp hnode).2
  rw [Bool.not_eq_true', List.any_eq_false] at hkept
  exact hkept target htarget hentry

theorem rawValue_written (d : ProfileDocument) (sectionName keyName : Chars)
    (value : Option Chars) (dirtyKey : String) :
    rawValue (d.setRawValue sectionName keyName value dirtyKey).nodes sectionName keyName =
      value := by
  cases value with
  | none => exact d.rawValue_removed _ _ _
  | some rendered => exact d.rawValue_setRawValue _ _ _ _

theorem rawValue_unwritten (d : ProfileDocument) {sectionName keyName : Chars}
    (value : Option Chars) (dirtyKey : String) {keyName' : Chars}
    (hother : eqIgnoreAsciiCase keyName keyName' = false) :
    rawValue (d.setRawValue sectionName keyName value dirtyKey).nodes sectionName keyName' =
      rawValue d.nodes sectionName keyName' := by
  cases value with
  | some rendered =>
    apply d.rawValue_setRawValue_other
    rintro ⟨hsame, -⟩
    exact absurd hsame (by simp [hother])
  | none =>
    unfold rawValue
    apply findSome?_congr_mem
    intro target _
    apply lastValue_eq_of_filter (p := fun node : IniNode =>
      (readSections sectionName).any fun target => node.isEntry target keyName)
    · intro node hnode
      obtain ⟨_, -, hentry⟩ := List.any_eq_true.mp hnode
      cases hentry' : node.isEntry target keyName' with
      | false => rfl
      | true => exact absurd (sameName_of_isEntry hentry hentry').2 (by simp [hother])
    · unfold setRawValue markDirty
      dsimp only
      rw [List.filter_filter]
      simp only [Bool.and_self]

end ProfileDocument

/-! ## Lines outside the section of a list -/

/-- The entries of a list outside the first section of its name. -/
def outsideEntries (name : Chars) : List IniNode → List Chars
  | [] => []
  | node :: rest =>
    if node.isSection name then listEntries (rest.dropWhile (!·.isAnySection)) name
    else (node.listEntry? name).toList ++ outsideEntries name rest

theorem listEntries_cons (name : Chars) (node : IniNode) (rest : List IniNode) :
    listEntries (node :: rest) name = (node.listEntry? name).toList ++ listEntries rest name := by
  unfold listEntries
  rw [List.filterMap_cons]
  cases node.listEntry? name <;> rfl

theorem listEntry?_of_isSection {name target : Chars} {node : IniNode}
    (h : node.isSection target = true) : node.listEntry? name = none := by
  cases node with
  | «section» => rfl
  | _ => exact absurd h (by simp [IniNode.isSection])

theorem outsideEntries_split (name : Chars) (nodes : List IniNode) :
    listEntries (nodes.take (nodes.findIdx (IniNode.isSection name) + 1) ++
        (nodes.drop (nodes.findIdx (IniNode.isSection name) + 1)).dropWhile (!·.isAnySection))
        name =
      outsideEntries name nodes := by
  induction nodes with
  | nil => rfl
  | cons node rest ih =>
    rw [List.findIdx_cons, outsideEntries]
    cases hnode : node.isSection name with
    | true =>
      simp only [cond_true, zero_add, List.take_succ_cons, List.take_zero, List.drop_succ_cons,
        List.drop_zero, List.singleton_append, if_true]
      rw [listEntries_cons, listEntry?_of_isSection hnode, Option.toList_none, List.nil_append]
    | false =>
      simp only [cond_false, List.take_succ_cons, List.drop_succ_cons, List.cons_append,
        Bool.false_eq_true, if_false]
      rw [listEntries_cons, ih]

/-- A header at the end is the beginning of no entry. -/
theorem outsideEntries_header (name target raw : Chars) (nodes : List IniNode) :
    outsideEntries name (nodes ++ [IniNode.section target raw]) = outsideEntries name nodes := by
  have hinside (rest : List IniNode) :
      listEntries ((rest ++ [IniNode.section target raw]).dropWhile (!·.isAnySection)) name =
        listEntries (rest.dropWhile (!·.isAnySection)) name := by
    induction rest with
    | nil => rfl
    | cons node rest ih =>
      rw [List.cons_append, List.dropWhile_cons, List.dropWhile_cons]
      split_ifs
      · exact ih
      · simp [listEntries, List.filterMap_cons, IniNode.listEntry?]
  induction nodes with
  | nil =>
    simp [outsideEntries, listEntries, IniNode.listEntry?]
  | cons node rest ih =>
    rw [List.cons_append, outsideEntries, outsideEntries, hinside, ih]

/-- The line neither begins a section nor is an entry of the list. -/
def Neutral (name : Chars) (node : IniNode) : Prop :=
  node.isAnySection = false ∧ node.listEntry? name = none

theorem outsideEntries_insert {name : Chars} (a : List IniNode) {node : IniNode}
    (b : List IniNode) (h : Neutral name node) :
    outsideEntries name (a ++ node :: b) = outsideEntries name (a ++ b) := by
  have hinside (a : List IniNode) :
      listEntries ((a ++ node :: b).dropWhile (!·.isAnySection)) name =
        listEntries ((a ++ b).dropWhile (!·.isAnySection)) name := by
    induction a with
    | nil => rw [List.nil_append, List.nil_append, List.dropWhile_cons_of_pos (by simp [h.1])]
    | cons first a ih =>
      rw [List.cons_append, List.cons_append, List.dropWhile_cons, List.dropWhile_cons]
      split_ifs
      · exact ih
      · simp [listEntries, List.filterMap_cons, h.2]
  have hsection : node.isSection name = false := by
    cases hnode : node.isSection name with
    | false => rfl
    | true =>
      cases node with
      | «section» => exact absurd h.1 (by simp [IniNode.isAnySection])
      | _ => exact absurd hnode (by simp [IniNode.isSection])
  induction a with
  | nil =>
    rw [List.nil_append, outsideEntries, hsection, h.2]
    rfl
  | cons first a ih =>
    rw [List.cons_append, List.cons_append, outsideEntries, outsideEntries, hinside, ih]

theorem outsideEntries_filter {name : Chars} {keep : IniNode → Bool}
    (h : ∀ node, keep node = false → Neutral name node) (a nodes : List IniNode) :
    outsideEntries name (a ++ nodes.filter keep) = outsideEntries name (a ++ nodes) := by
  induction nodes generalizing a with
  | nil => rfl
  | cons node rest ih =>
    cases hkeep : keep node with
    | true =>
      rw [List.filter_cons_of_pos hkeep, List.append_cons, ih, ← List.append_cons]
    | false =>
      rw [List.filter_cons_of_neg (by simp [hkeep]), ih, outsideEntries_insert _ _ (h node hkeep)]

theorem neutral_of_isEntry {name target keyName : Chars} {node : IniNode}
    (h : node.isEntry target keyName = true) (hother : eqIgnoreAsciiCase target name = false) :
    Neutral name node := by
  cases node with
  | keyValue =>
    rw [IniNode.isEntry, Bool.and_eq_true] at h
    exact ⟨rfl, if_neg (ne_true_of_eq_false (otherName h.1 hother))⟩
  | _ => exact absurd h (by simp [IniNode.isEntry])

namespace ProfileDocument

theorem listEntries_outside (d : ProfileDocument) (name : Chars) :
    listEntries (d.outside name) name = outsideEntries name d.nodes := by
  have hheader : outsideEntries name (d.withSection name) = outsideEntries name d.nodes := by
    unfold withSection
    split_ifs
    · rfl
    · exact outsideEntries_header _ _ _ _
  rw [← hheader]
  exact outsideEntries_split name (d.withSection name)

/-- A value of another section stands in no list. -/
theorem outsideEntries_setRawValue (d : ProfileDocument) {sectionName : Chars} (keyName : Chars)
    (value : Option Chars) (dirtyKey : String) {name : Chars}
    (hother : ∀ a ∈ readSections sectionName, eqIgnoreAsciiCase a name = false) :
    outsideEntries name (d.setRawValue sectionName keyName value dirtyKey).nodes =
      outsideEntries name d.nodes := by
  cases value with
  | none =>
    refine outsideEntries_filter (fun node hnode => ?_) [] d.nodes
    rw [Bool.not_eq_false', List.any_eq_true] at hnode
    obtain ⟨target, htarget, hentry⟩ := hnode
    exact neutral_of_isEntry hentry (hother target htarget)
  | some rendered =>
    obtain ⟨own, hown, hsame⟩ := d.exists_readSections_target sectionName keyName
    set target := d.targetSection sectionName keyName with htarget
    have hname : eqIgnoreAsciiCase target name = false := otherName hsame (hother own hown)
    cases hany : d.nodes.any (IniNode.isEntry target keyName) with
    | true =>
      obtain ⟨a, node, b, hnodes, -, hnode, hresult⟩ :=
        setRawValue_changed dirtyKey htarget.symm hany
      have hchanged : (node.withValue rendered).isEntry target keyName = true :=
        (isEntry_withValue _ _ _ _).trans hnode
      rw [hresult, hnodes, outsideEntries_insert a b (neutral_of_isEntry hchanged hname),
        outsideEntries_insert a b (neutral_of_isEntry hnode hname)]
    | false =>
      obtain ⟨a, b, hnodes, -, -, hresult⟩ := setRawValue_inserted dirtyKey htarget.symm hany
      have hentry := isEntry_entryNode target keyName rendered d.ending
      rw [hresult, outsideEntries_insert a b (neutral_of_isEntry hentry hname), ← hnodes]
      unfold withSection
      split_ifs
      · rfl
      · exact outsideEntries_header _ _ _ _

/-! ## The edit -/

/-- The structured settings of a document are read as they were given, and the substitutions as they
were normalized where none of them stood outside the first section of the name. -/
structure ReadsBack (lowercase : Lowercase) (given : AdvancedProfile) (d d' : ProfileDocument) :
    Prop where
  shadow : (advanced d'.nodes).shadow = given.shadow
  lcdFilterWeight : (advanced d'.nodes).lcdFilterWeight = given.lcdFilterWeight
  pixelLayout : (advanced d'.nodes).pixelLayout = given.pixelLayout
  fontSubstitutes : listEntries (d.outside "FontSubstitutes".toList) "FontSubstitutes".toList = [] →
    (advanced d'.nodes).fontSubstitutes =
      (given.fontSubstitutes.map trim).eraseDupsBy fun a b => lowercase a == lowercase b

/-- The offsets are numbers of their type; all else is checked. -/
def HasI32Offsets (given : AdvancedProfile) : Prop :=
  ∀ value ∈ given.shadow, IsI32 value.offsetX ∧ IsI32 value.offsetY

theorem renderOption_cases {α : Type} {render : α → Except String Chars} {value : Option α}
    {rendered : Option Chars} (h : renderOption render value = .ok rendered) :
    (value = none ∧ rendered = none) ∨
      ∃ a text, value = some a ∧ rendered = some text ∧ render a = .ok text := by
  cases value with
  | none => exact Or.inl ⟨rfl, (Except.ok.inj h).symm⟩
  | some a =>
    change (render a).map some = .ok rendered at h
    cases hrender : render a with
    | error error => rw [hrender] at h; cases h
    | ok text =>
      rw [hrender] at h
      exact Or.inr ⟨a, text, rfl, (Except.ok.inj h).symm, hrender⟩

theorem parseVector_of_render {nodes : List IniNode} {keyName : Chars} {length : ℕ}
    {minimum maximum : ℤ} {name : String} {given : Option (List ℤ)} {rendered : Option Chars}
    (h : renderOption (fun values => renderVector values length minimum maximum name) given =
      .ok rendered) (hminimum : IsI32 minimum) (hmaximum : IsI32 maximum)
    (hraw : rawValue nodes "General".toList keyName = rendered) :
    parseVector nodes "General".toList keyName length = given := by
  rcases renderOption_cases h with ⟨rfl, rfl⟩ | ⟨values, text, rfl, rfl, hrender⟩
  · unfold parseVector
    rw [hraw]
    rfl
  · unfold renderVector at hrender
    split_ifs at hrender with hinvalid
    simp only [not_or, not_not, List.any_eq_true, not_exists, not_and, decide_eq_true_eq,
      not_lt] at hinvalid
    obtain ⟨rfl, hbounds⟩ := hinvalid
    obtain rfl := Except.ok.inj hrender
    refine parseVector_written hraw fun n hn => ?_
    obtain ⟨hlow, hhigh⟩ := hbounds n hn
    exact ⟨hminimum.1.trans hlow, hhigh.trans_lt hmaximum.2⟩

theorem shadow_of_render {nodes : List IniNode} {given : Option ShadowSetting}
    {rendered : Option Chars} (h : renderOption renderShadow given = .ok rendered)
    (hoffsets : ∀ value ∈ given, IsI32 value.offsetX ∧ IsI32 value.offsetY)
    (hraw : rawValue nodes "General".toList "Shadow".toList = rendered) :
    shadow nodes = given := by
  rcases renderOption_cases h with ⟨rfl, rfl⟩ | ⟨value, text, rfl, rfl, hrender⟩
  · unfold shadow
    rw [hraw]
    rfl
  · obtain ⟨hx, hy⟩ := hoffsets value rfl
    exact shadow_written hrender hx hy hraw

/-- The document with everything written that was rendered. -/
def setRendered (d : ProfileDocument) (rendered : RenderedAdvancedProfile) : ProfileDocument :=
  let general := "General".toList
  let d := d.setRawValue general "Shadow".toList rendered.shadow "advanced:shadow"
  let d := d.setRawValue general "LcdFilterWeight".toList rendered.lcdFilterWeight
    "advanced:lcdFilterWeight"
  let d := d.setRawValue general "PixelLayout".toList rendered.pixelLayout "advanced:pixelLayout"
  d.replaceListSection "FontSubstitutes" rendered.fontSubstitutes

theorem general_apart : ∀ a ∈ readSections "General".toList,
    eqIgnoreAsciiCase a "FontSubstitutes".toList = false := by
  decide

theorem rawValue_replaceListSection (d : ProfileDocument) (normalized : List Chars)
    (keyName : Chars) :
    rawValue (d.replaceListSection "FontSubstitutes" normalized).nodes "General".toList keyName =
      rawValue d.nodes "General".toList keyName :=
  (d.keepsOthers_replaceLines "FontSubstitutes".toList (fun _ => belongsTo_of_isListLine)
    (by simp [IniNode.belongsTo, sameName_refl])).values _ _ general_apart

theorem rawValues_setRendered (d : ProfileDocument) (rendered : RenderedAdvancedProfile) :
    rawValue (d.setRendered rendered).nodes "General".toList "Shadow".toList = rendered.shadow ∧
      rawValue (d.setRendered rendered).nodes "General".toList "LcdFilterWeight".toList =
        rendered.lcdFilterWeight ∧
      rawValue (d.setRendered rendered).nodes "General".toList "PixelLayout".toList =
        rendered.pixelLayout := by
  unfold setRendered
  dsimp only
  simp only [rawValue_replaceListSection]
  refine ⟨?_, ?_, rawValue_written ..⟩
  · rw [rawValue_unwritten _ _ _ (by decide), rawValue_unwritten _ _ _ (by decide),
      rawValue_written]
  · rw [rawValue_unwritten _ _ _ (by decide), rawValue_written]

theorem listEntries_setRendered (d : ProfileDocument) {rendered : RenderedAdvancedProfile}
    (hentries : ∀ entry ∈ rendered.fontSubstitutes, IsTrimmed entry ∧ entry ≠ [])
    (houtside : listEntries (d.outside "FontSubstitutes".toList) "FontSubstitutes".toList = []) :
    listEntries (d.setRendered rendered).nodes "FontSubstitutes".toList =
      rendered.fontSubstitutes := by
  unfold setRendered replaceListSection
  dsimp only
  refine (filterMap_replaceLines _ "FontSubstitutes".toList
    (fun _ => listEntry?_of_not_isListLine)
    (listEntries_written _ "FontSubstitutes".toList hentries)).mpr ?_
  change listEntries (ProfileDocument.outside _ _) "FontSubstitutes".toList = []
  rw [listEntries_outside] at houtside ⊢
  rw [outsideEntries_setRawValue _ _ _ _ general_apart,
    outsideEntries_setRawValue _ _ _ _ general_apart,
    outsideEntries_setRawValue _ _ _ _ general_apart, houtside]

theorem readsBack_setAdvanced {lowercase : Lowercase} {given : AdvancedProfile}
    {d d' : ProfileDocument} (hoffsets : HasI32Offsets given)
    (h : setAdvanced lowercase given d = (.ok (), d')) : ReadsBack lowercase given d d' := by
  obtain ⟨rendered, hrendered, hwritten⟩ : ∃ rendered,
      renderAdvancedProfile lowercase given = .ok rendered ∧
      (d.setRendered rendered) = d' := by
    unfold setAdvanced at h
    cases hrendered : renderAdvancedProfile lowercase given with
    | error error => simp [hrendered] at h
    | ok rendered =>
      rw [hrendered] at h
      exact ⟨rendered, rfl, congrArg Prod.snd h⟩
  obtain ⟨shadowText, hshadow, hrendered⟩ := bind_eq_ok.mp hrendered
  obtain ⟨lcdText, hlcd, hrendered⟩ := bind_eq_ok.mp hrendered
  obtain ⟨pixelText, hpixel, hrendered⟩ := bind_eq_ok.mp hrendered
  obtain ⟨normalized, hnormalized, hrendered⟩ := bind_eq_ok.mp hrendered
  obtain ⟨⟨⟩, -, hrendered⟩ := bind_eq_ok.mp hrendered
  obtain rfl := Except.ok.inj hrendered
  obtain ⟨hshadowRaw, hlcdRaw, hpixelRaw⟩ := rawValues_setRendered d
    ⟨shadowText, lcdText, pixelText, normalized⟩
  rw [hwritten] at hshadowRaw hlcdRaw hpixelRaw
  constructor
  · exact shadow_of_render hshadow hoffsets hshadowRaw
  · exact parseVector_of_render hlcd (by decide) (by decide) hlcdRaw
  · exact parseVector_of_render hpixel (by decide) (by decide) hpixelRaw
  · intro houtside
    rw [← normalizeListEntries_eq_ok hnormalized, ← hwritten]
    exact listEntries_setRendered d (normalized_entry hnormalized) houtside

/-- The structured settings that are accepted are read back, the substitutions as they were
normalized, from the document in memory. Where any part is refused, the document is as it was,
with its dirty keys and its histories. -/
theorem advanced_round_trip (lowercase : Lowercase) (d : ProfileDocument) (given : AdvancedProfile)
    (hoffsets : HasI32Offsets given) :
    (∀ d', setAdvanced lowercase given d = (.ok (), d') → ReadsBack lowercase given d d') ∧
      (∀ d', updateAdvanced lowercase given d = (.ok (), d') → ReadsBack lowercase given d d') ∧
      (∀ error d', setAdvanced lowercase given d = (.error error, d') → d' = d) ∧
      ∀ error d', updateAdvanced lowercase given d = (.error error, d') → d' = d := by
  refine ⟨fun d' h => readsBack_setAdvanced hoffsets h, fun d' h => ?_, fun error d' h => ?_,
    fun error d' h => ?_⟩
  · have hupdate : (EditRequest.advanced given).update lowercase d = (.ok (), d') := h
    obtain ⟨hedit, hrevision⟩ := revision_of_update hupdate
    have hset : setAdvanced lowercase given d = (.ok (), (setAdvanced lowercase given d).2) := hedit
    have hnodes : d'.nodes = (setAdvanced lowercase given d).2.nodes :=
      congrArg ProfileRevision.nodes hrevision
    obtain ⟨hshadow, hlcd, hpixel, hsubstitutes⟩ := readsBack_setAdvanced hoffsets hset
    rw [← hnodes] at hshadow hlcd hpixel hsubstitutes
    exact ⟨hshadow, hlcd, hpixel, hsubstitutes⟩
  · unfold setAdvanced at h
    cases hrendered : renderAdvancedProfile lowercase given with
    | error _ =>
      rw [hrendered] at h
      exact (congrArg Prod.snd h).symm
    | ok _ => simp [hrendered] at h
  · have hupdate : (EditRequest.advanced given).update lowercase d = (.error error, d') := h
    exact eq_of_update_error hupdate

def spacedSubstitute : AdvancedProfile :=
  ⟨some ⟨2, -3, 64, 0xFFFFFF, 0, 0x0A0B0C⟩, some [0, 16, 255, 16, 0], none, [" A=B".toList]⟩

theorem spaced_substitute_round_trip : ∃ opened, openBytes westernPages id [] = .ok opened ∧
    ∃ d', setAdvanced id spacedSubstitute opened = (.ok (), d') ∧
      ReadsBack id spacedSubstitute opened d' := by
  have haccepted (d : ProfileDocument) : (setAdvanced id spacedSubstitute d).1 = .ok () := by rfl
  have hoffsets : HasI32Offsets spacedSubstitute := by
    rintro value ⟨⟩
    decide
  exact ⟨_, rfl, _, Prod.ext (haccepted _) rfl,
    (advanced_round_trip id _ spacedSubstitute hoffsets).1 _ (Prod.ext (haccepted _) rfl)⟩

/-- White space around a substitution is not kept. -/
theorem spaced_substitute_is_trimmed : ¬∀ opened d',
    openBytes westernPages id [] = .ok opened →
      setAdvanced id spacedSubstitute opened = (.ok (), d') →
        (advanced d'.nodes).fontSubstitutes = spacedSubstitute.fontSubstitutes := by
  intro h
  exact absurd (h _ _ rfl (Prod.ext (by rfl) rfl)) (by decide +kernel)

end ProfileDocument

end MacTypeControl.Editor
