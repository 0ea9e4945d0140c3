import MacTypeControl.Editor.ScalarEdits
import MacTypeControl.Json.Flat
import MacTypeControl.Text.Trimming

/-!
# Edits of lists

A list is read from the whole document and written to its first section, so an edit is exact where
the list has no entries elsewhere.
-/

namespace MacTypeControl.Editor

open Text

/-! ## Lines of other sections -/

theorem belongsTo_of_isListLine {name : Chars} {node : IniNode}
    (h : ProfileDocument.isListLine name node = true) : node.belongsTo name = true := by
  cases node with
  | keyValue | unknown => exact h
  | _ => exact absurd h (by simp [ProfileDocument.isListLine])

/-- What is read from lines of other sections only is read alike. -/
theorem filterMap_eq_of_filter {α : Type} {p : IniNode → Bool} {read : IniNode → Option α}
    (hread : ∀ node, p node = true → read node = none) {nodes nodes' : List IniNode}
    (h : nodes'.filter (!p ·) = nodes.filter (!p ·)) :
    nodes'.filterMap read = nodes.filterMap read := by
  have hfilter (nodes : List IniNode) :
      (nodes.filter (!p ·)).filterMap read = nodes.filterMap read := by
    induction nodes with
    | nil => rfl
    | cons node rest ih =>
      cases hp : p node with
      | true => simp [hp, ih, hread node hp]
      | false => simp [hp, ih, List.filterMap_cons]
  rw [← hfilter nodes', h, hfilter nodes]

theorem filter_eq_of_filter {p q : IniNode → Bool} (hq : ∀ node, p node = true → q node = false)
    {nodes nodes' : List IniNode} (h : nodes'.filter (!p ·) = nodes.filter (!p ·)) :
    nodes'.filter q = nodes.filter q := by
  have hfilter (nodes : List IniNode) : (nodes.filter (!p ·)).filter q = nodes.filter q := by
    rw [List.filter_filter]
    apply List.filter_congr
    intro node _
    cases hp : p node with
    | true => simp [hq node hp]
    | false => simp
  rw [← hfilter nodes', h, hfilter nodes]

theorem lastValue_eq_of_filter {p : IniNode → Bool} {target keyName : Chars}
    (hp : ∀ node, p node = true → node.isEntry target keyName = false)
    {nodes nodes' : List IniNode} (h : nodes'.filter (!p ·) = nodes.filter (!p ·)) :
    lastValue nodes' target keyName = lastValue nodes target keyName := by
  have hfilter (nodes : List IniNode) :
      lastValue (nodes.filter (!p ·)) target keyName = lastValue nodes target keyName := by
    induction nodes with
    | nil => rfl
    | cons node rest ih =>
      cases hnode : p node with
      | true =>
        have hskip := lastValue_insert target keyName [] rest (hp node hnode)
        rw [List.nil_append, List.nil_append] at hskip
        rw [List.filter_cons_of_neg (by simp [hnode]), ih, hskip]
      | false =>
        have happend (tail : List IniNode) := lastValue_append target keyName [node] tail
        simp only [List.singleton_append] at happend
        rw [List.filter_cons_of_pos (by simp [hnode]), happend, ih, ← happend]
  rw [← hfilter nodes', h, hfilter nodes]

/-! ## What an edit of a list keeps -/

/-- Every other list, value, comment and section is as it was. -/
structure KeepsOthers (name : Chars) (d d' : ProfileDocument) : Prop where
  lists : ∀ target, eqIgnoreAsciiCase target name = false →
    listEntries d'.nodes target = listEntries d.nodes target
  individuals : eqIgnoreAsciiCase name "Individual".toList = false →
    individuals d'.nodes = individuals d.nodes
  values : ∀ sectionName keyName,
    (∀ a ∈ readSections sectionName, eqIgnoreAsciiCase a name = false) →
      rawValue d'.nodes sectionName keyName = rawValue d.nodes sectionName keyName
  comments : d'.nodes.filter IniNode.isComment = d.nodes.filter IniNode.isComment
  lines : d'.nodes.filter (!·.belongsTo name) = d.nodes.filter (!·.belongsTo name)

theorem keepsOthers_of_filter {name : Chars} {d d' : ProfileDocument}
    (h : d'.nodes.filter (!·.belongsTo name) = d.nodes.filter (!·.belongsTo name)) :
    KeepsOthers name d d' where
  lists target hother := by
    apply filterMap_eq_of_filter _ h
    intro node hnode
    have hnot {sec : Chars} (hsec : eqIgnoreAsciiCase sec name = true) :
        eqIgnoreAsciiCase sec target = false := otherName hsec (otherName_symm hother)
    cases node with
    | keyValue | unknown => simp [IniNode.listEntry?, hnot hnode]
    | _ => rfl
  individuals hother := by
    apply filterMap_eq_of_filter _ h
    intro node hnode
    cases node with
    | keyValue => simp only [IniNode.individual?, otherName hnode hother, Bool.false_eq_true, if_false]
    | _ => rfl
  values sectionName keyName hother := by
    unfold rawValue
    apply findSome?_congr_mem
    intro target htarget
    apply lastValue_eq_of_filter _ h
    intro node hnode
    cases node with
    | keyValue =>
      simp [IniNode.isEntry, otherName hnode (otherName_symm (hother target htarget))]
    | _ => rfl
  comments := by
    apply filter_eq_of_filter _ h
    intro node hnode
    cases node with
    | comment raw => exact absurd hnode (by simp [IniNode.belongsTo])
    | _ => rfl
  lines := h

namespace ProfileDocument

/-! ## The lines that are replaced -/

theorem sectionRange_append (d : ProfileDocument) (name : Chars) :
    (d.sectionRange name).1 ++ ((d.sectionRange name).2.1 ++ (d.sectionRange name).2.2) =
      d.withSection name := by
  unfold sectionRange
  simp only [List.takeWhile_append_dropWhile, List.take_append_drop]

theorem filter_withSection (d : ProfileDocument) (name : Chars) :
    (d.withSection name).filter (!·.belongsTo name) = d.nodes.filter (!·.belongsTo name) := by
  unfold withSection
  split_ifs
  · rfl
  · simp [sectionNode, IniNode.belongsTo, sameName_refl]

theorem nodes_replaceLines (d : ProfileDocument) (name : Chars) (replaced : IniNode → Bool)
    (replacement : List IniNode) :
    (d.replaceLines name replaced replacement).nodes = (d.sectionRange name).1 ++
      ((d.sectionRange name).2.1.filter (!replaced ·) ++ replacement) ++ (d.sectionRange name).2.2 :=
  rfl

theorem keepsOthers_replaceLines (d : ProfileDocument) (name : Chars) {replaced : IniNode → Bool}
    {replacement : List IniNode} (hreplaced : ∀ node, replaced node = true →
      node.belongsTo name = true) (hreplacement : ∀ node ∈ replacement, node.belongsTo name = true) :
    KeepsOthers name d (d.replaceLines name replaced replacement) := by
  apply keepsOthers_of_filter
  rw [← filter_withSection d name, ← sectionRange_append d name]
  have hkept (nodes : List IniNode) : (nodes.filter (!replaced ·)).filter (!·.belongsTo name) =
      nodes.filter (!·.belongsTo name) := by
    rw [List.filter_filter]
    apply List.filter_congr
    intro node _
    cases hnode : replaced node with
    | true => simp [hreplaced node hnode]
    | false => simp
  have hnone : replacement.filter (!·.belongsTo name) = [] := by
    rw [List.filter_eq_nil_iff]
    exact fun node hnode => by simp [hreplacement node hnode]
  rw [nodes_replaceLines]
  simp only [List.filter_append, hkept, hnone, List.nil_append, List.append_assoc]

/-- The lines outside the first section of the name. -/
def outside (d : ProfileDocument) (name : Chars) : List IniNode :=
  (d.sectionRange name).1 ++ (d.sectionRange name).2.2

/-- What is read afterwards is what stands outside the section, around what was written. -/
theorem filterMap_replaceLines {α : Type} (d : ProfileDocument) (name : Chars)
    {replaced : IniNode → Bool} {replacement : List IniNode} {read : IniNode → Option α}
    (hread : ∀ node, replaced node = false → read node = none) {written : List α}
    (hwritten : replacement.filterMap read = written) :
    (d.replaceLines name replaced replacement).nodes.filterMap read = written ↔
      (d.outside name).filterMap read = [] := by
  have hnone (nodes : List IniNode) : (nodes.filter (!replaced ·)).filterMap read = [] := by
    rw [List.filterMap_eq_nil_iff]
    intro node hnode
    exact hread node (by simpa using (List.mem_filter.mp hnode).2)
  rw [nodes_replaceLines]
  simp only [outside, List.filterMap_append, hnone, hwritten, List.nil_append, List.append_eq_nil_iff]
  constructor
  · intro h
    have hlength := congrArg List.length h
    simp only [List.length_append] at hlength
    have hbefore : ((d.sectionRange name).1.filterMap read).length = 0 := by omega
    have hafter : ((d.sectionRange name).2.2.filterMap read).length = 0 := by omega
    exact ⟨List.eq_nil_of_length_eq_zero hbefore, List.eq_nil_of_length_eq_zero hafter⟩
  · rintro ⟨hbefore, hafter⟩
    rw [hbefore, hafter, List.nil_append, List.append_nil]

end ProfileDocument

/-! ## Texts that are read back -/

theorem validateEntry_eq_ok {value : Chars} {label : String}
    (h : validateEntry value label = .ok ()) :
    trim value ≠ [] ∧ value.head? ∉ [some '[', some ';', some '#'] := by
  unfold validateEntry at h
  split_ifs at h with hinvalid
  simp only [not_or] at hinvalid
  exact ⟨hinvalid.1, hinvalid.2.2⟩

/-- The entries that are kept are valid, and each is one of those that were given. -/
theorem normalized_valid {lowercase : Lowercase} {seen entries normalized : List Chars}
    (h : normalizeFrom lowercase seen entries = .ok normalized) :
    ∀ entry ∈ normalized, (∃ given ∈ entries, entry = trim given) ∧ entry ≠ [] ∧
      entry.head? ∉ [some '[', some ';', some '#'] := by
  induction entries generalizing seen normalized with
  | nil =>
    obtain rfl := Except.ok.inj h
    simp
  | cons first rest ih =>
    have hlater {seen normalized : List Chars}
        (h : normalizeFrom lowercase seen rest = .ok normalized) (entry : Chars)
        (hentry : entry ∈ normalized) :
        (∃ given ∈ first :: rest, entry = trim given) ∧ entry ≠ [] ∧
          entry.head? ∉ [some '[', some ';', some '#'] := by
      obtain ⟨⟨given, hgiven, rfl⟩, hvalid⟩ := ih h entry hentry
      exact ⟨⟨given, List.mem_cons_of_mem _ hgiven, rfl⟩, hvalid⟩
    obtain ⟨⟨⟩, hvalid, h⟩ := bind_eq_ok.mp h
    split_ifs at h with hseen
    · exact hlater h
    · obtain ⟨others, hothers, hresult⟩ := bind_eq_ok.mp h
      obtain rfl := Except.ok.inj hresult
      obtain ⟨hne, hhead⟩ := validateEntry_eq_ok hvalid
      rw [trim_trim] at hne
      exact List.forall_mem_cons.mpr
        ⟨⟨⟨first, List.mem_cons_self, rfl⟩, hne, hhead⟩, hlater hothers⟩

theorem normalized_entry {lowercase : Lowercase} {seen entries normalized : List Chars}
    (h : normalizeFrom lowercase seen entries = .ok normalized) :
    ∀ entry ∈ normalized, IsTrimmed entry ∧ entry ≠ [] := by
  intro entry hentry
  obtain ⟨⟨given, -, rfl⟩, hne, -⟩ := normalized_valid h entry hentry
  exact ⟨isTrimmed_trim given, hne⟩

theorem isWhitespace_ending (d : ProfileDocument) : ∀ c ∈ d.ending, isWhitespace c = true := by
  have hreturn : isWhitespace '\r' = true := by decide
  have hfeed : isWhitespace '\n' = true := by decide
  unfold ProfileDocument.ending
  cases d.lineEnding <;> simp [hreturn, hfeed]

theorem listEntries_written (d : ProfileDocument) (name : Chars) {normalized : List Chars}
    (h : ∀ entry ∈ normalized, IsTrimmed entry ∧ entry ≠ []) :
    (normalized.map fun entry => IniNode.unknown name (entry ++ d.ending)).filterMap
      (IniNode.listEntry? name) = normalized := by
  rw [List.filterMap_map]
  conv_rhs => rw [← List.filterMap_some (l := normalized)]
  apply List.filterMap_congr
  intro entry hentry
  obtain ⟨htrimmed, hne⟩ := h entry hentry
  have hread := trim_append_whitespace htrimmed hne (isWhitespace_ending d)
  simp [IniNode.listEntry?, sameName_refl, hread, hne]

theorem isWhitespace_of_isDigit {c : Char} (h : c.isDigit = true) : isWhitespace c = false := by
  have hrange : 48 ≤ c.toNat ∧ c.toNat ≤ 57 := by simpa [Char.isDigit, UInt32.le_iff_toNat_le] using h
  simp [isWhitespace]
  omega

theorem printInt_cases (n : ℤ) :
    (0 ≤ n ∧ printInt n = Nat.toDigits 10 n.natAbs) ∨
      (n < 0 ∧ printInt n = '-' :: Nat.toDigits 10 n.natAbs) := by
  unfold printInt signed digits
  by_cases h : n < 0
  · exact Or.inr ⟨h, by simp [h]⟩
  · exact Or.inl ⟨by omega, by simp [h]⟩

theorem isDigit_of_mem_digits {n : ℕ} {c : Char} (h : c ∈ Nat.toDigits 10 n) : c.isDigit = true :=
  Nat.isDigit_of_mem_toDigits (Nat.succ_pos 9) (Nat.le_refl 10) h

theorem mem_printInt {n : ℤ} {c : Char} (h : c ∈ printInt n) : c = '-' ∨ c.isDigit = true := by
  rcases printInt_cases n with ⟨-, hprint⟩ | ⟨-, hprint⟩
  · exact Or.inr (isDigit_of_mem_digits (hprint ▸ h))
  · rw [hprint, List.mem_cons] at h
    exact h.imp_right isDigit_of_mem_digits

theorem trim_printInt (n : ℤ) : trim (printInt n) = printInt n := by
  have hspace : ∀ c ∈ printInt n, isWhitespace c = false := by
    intro c hc
    rcases mem_printInt hc with rfl | hdigit
    · decide
    · exact isWhitespace_of_isDigit hdigit
  exact trim_of_isTrimmed ⟨fun c hc => hspace c (List.mem_of_head? hc),
    fun c hc => hspace c (List.mem_of_getLast? hc)⟩

theorem parseI32_printInt {n : ℤ} (hlow : -(2 ^ 31) ≤ n) (hhigh : n < 2 ^ 31) :
    parseI32 (printInt n) = some n := by
  have hdigits : Nat.toDigits 10 n.natAbs ≠ [] ∧ (Nat.toDigits 10 n.natAbs).all Char.isDigit = true :=
    ⟨Nat.toDigits_ne_nil, List.all_eq_true.mpr fun c hc => isDigit_of_mem_digits hc⟩
  rcases printInt_cases n with ⟨hsign, hprint⟩ | ⟨hsign, hprint⟩
  · obtain ⟨first, others, hsplit, hfirst⟩ := Json.head_toDigits n.natAbs
    have hvalue : (n.natAbs : ℤ) = n := by omega
    rw [hprint]
    unfold parseI32
    split
    · next hminus => rw [hsplit] at hminus; obtain ⟨rfl, -⟩ := List.cons.inj hminus; simp at hfirst
    · next hplus => rw [hsplit] at hplus; obtain ⟨rfl, -⟩ := List.cons.inj hplus; simp at hfirst
    · dsimp only
      rw [if_pos hdigits, Nat.ofDigitChars_ten_toDigits, Option.map_some, hvalue,
        Option.filter_some_pos (by simp only [decide_eq_true_eq]; exact ⟨hlow, hhigh⟩)]
  · have hvalue : -(n.natAbs : ℤ) = n := by omega
    rw [hprint]
    unfold parseI32
    change Option.filter _ (Option.map (fun n : ℕ => -(n : ℤ)) (ite _ _ _)) = some n
    rw [if_pos hdigits, Nat.ofDigitChars_ten_toDigits, Option.map_some, hvalue,
      Option.filter_some_pos (by simp only [decide_eq_true_eq]; exact ⟨hlow, hhigh⟩)]

theorem parseIndividualValues_print {values : List (Option ℤ)} (hlength : values.length = 6)
    (h : ∀ n, some n ∈ values → -(2 ^ 31) ≤ n ∧ n < 2 ^ 31) :
    parseIndividualValues
      (commaSeparated (values.map fun value => (value.map printInt).getD [])) = values := by
  set parts := values.map fun value => (value.map printInt).getD [] with hparts
  have hcomma : ∀ part ∈ parts, ',' ∉ part := by
    intro part hpart hmem
    obtain ⟨value, -, rfl⟩ := List.mem_map.mp hpart
    cases value with
    | none => exact absurd hmem List.not_mem_nil
    | some n => rcases mem_printInt hmem with hc | hc <;> exact absurd hc (by decide)
  have hne : parts ≠ [] := by
    intro hnil
    rw [hparts, List.map_eq_nil_iff] at hnil
    simp [hnil] at hlength
  have hsplit : (commaSeparated parts).splitOn ',' = parts := List.splitOn_intercalate ',' hcomma hne
  have hread : (parts.take 6).map (fun part => parseI32 (trim part)) = values := by
    rw [List.take_of_length_le (by simp [hparts, hlength]), hparts, List.map_map]
    conv_rhs => rw [← List.map_id values]
    apply List.map_congr_left
    intro value hvalue
    cases value with
    | none => rfl
    | some n =>
      obtain ⟨hlow, hhigh⟩ := h n hvalue
      simp only [Function.comp_apply, Option.map_some, Option.getD_some, trim_printInt, id_eq]
      exact parseI32_printInt hlow hhigh
  unfold parseIndividualValues
  rw [hsplit, hread, List.take_left' hlength]

theorem validateValues_eq_ok {fontFace : Chars} {index : ℕ} {bounds : List (ℤ × ℤ)}
    {values : List (Option ℤ)} (hlength : values.length = bounds.length)
    (h : validateValues fontFace index bounds values = .ok ()) :
    ∀ n, some n ∈ values → ∃ bound ∈ bounds, bound.1 ≤ n ∧ n ≤ bound.2 := by
  induction values generalizing index bounds with
  | nil => simp
  | cons value rest ih =>
    match bounds with
    | [] => simp at hlength
    | bound :: bounds =>
      have hlength : rest.length = bounds.length := by simpa using hlength
      have hlater (h : validateValues fontFace (index + 1) bounds rest = .ok ()) (n : ℤ)
          (hn : some n ∈ rest) : ∃ bound' ∈ bound :: bounds, bound'.1 ≤ n ∧ n ≤ bound'.2 := by
        obtain ⟨found, hfound, hbound⟩ := ih hlength h n hn
        exact ⟨found, List.mem_cons_of_mem _ hfound, hbound⟩
      intro n hn
      cases value with
      | none =>
        unfold validateValues at h
        exact hlater h n (by simpa using hn)
      | some value =>
        unfold validateValues at h
        split_ifs at h with hrange
        rw [not_or, not_lt, not_lt] at hrange
        rcases List.mem_cons.mp hn with hsame | hn
        · obtain rfl := Option.some.inj hsame
          exact ⟨bound, List.mem_cons_self, hrange⟩
        · exact hlater h n hn

theorem validateIndividual_eq_ok {lowercase : Lowercase} {seen : List Chars}
    {entry : IndividualSetting} (h : validateIndividual lowercase seen entry = .ok ()) :
    parseIndividualValues (commaSeparated
      (entry.values.map fun value => (value.map printInt).getD [])) = entry.values := by
  obtain ⟨⟨⟩, -, h⟩ := bind_eq_ok.mp h
  split_ifs at h with hequals hseen hlength
  rw [not_not] at hlength
  apply parseIndividualValues_print hlength
  intro n hn
  obtain ⟨bound, hbound, hlow, hhigh⟩ := validateValues_eq_ok hlength h n hn
  have hlimits : ∀ bound ∈ individualBounds, -64 ≤ bound.1 ∧ bound.2 ≤ 64 := by decide
  have hlimit := hlimits bound hbound
  constructor <;> omega

theorem individuals_written {lowercase : Lowercase} (ending : Chars) {seen : List Chars}
    {entries : List IndividualSetting}
    (h : validateIndividualsFrom lowercase seen entries = .ok ()) :
    (entries.map (ProfileDocument.individualNode ending)).filterMap IniNode.individual? =
      entries := by
  induction entries generalizing seen with
  | nil => rfl
  | cons entry rest ih =>
    obtain ⟨⟨⟩, hentry, hrest⟩ := bind_eq_ok.mp h
    have hread : (ProfileDocument.individualNode ending entry).individual? = some entry := by
      simp only [ProfileDocument.individualNode, entryNode, IniNode.individual?, sameName_refl,
        if_true, validateIndividual_eq_ok hentry]
    rw [List.map_cons, List.filterMap_cons, hread, ih hrest]

/-! ## The edits -/

namespace ProfileDocument

theorem belongsTo_of_isIndividualLine {node : IniNode} (h : isIndividualLine node = true) :
    node.belongsTo "Individual".toList = true := by
  cases node with
  | keyValue => exact h
  | _ => exact absurd h (by simp [isIndividualLine])

theorem individual?_of_not_isIndividualLine {node : IniNode} (h : isIndividualLine node = false) :
    node.individual? = none := by
  cases node with
  | keyValue => exact if_neg (ne_true_of_eq_false h)
  | _ => rfl

theorem listEntry?_of_not_isListLine {name : Chars} {node : IniNode}
    (h : isListLine name node = false) : node.listEntry? name = none := by
  cases node with
  | keyValue => exact if_neg (ne_true_of_eq_false h)
  | unknown => exact if_neg fun hentry => ne_true_of_eq_false h hentry.1
  | _ => rfl

/-- A list that is updated is read as it was normalized, and fonts as they were given, with all
else as it was in the document in memory, exactly where no entry stood outside the first section
of the name. -/
theorem list_edit_exact_iff (lowercase : Lowercase) (d : ProfileDocument) :
    (∀ kind entries d', updateList lowercase kind entries d = (.ok (), d') →
      ∃ name normalized, listSectionOf kind = some name ∧
        normalizeListEntries lowercase entries = .ok normalized ∧
        ((listEntries d'.nodes name.toList = normalized ∧ KeepsOthers name.toList d d') ↔
          listEntries (d.outside name.toList) name.toList = [])) ∧
      ∀ entries d', updateIndividuals lowercase entries d = (.ok (), d') →
        ((individuals d'.nodes = entries ∧ KeepsOthers "Individual".toList d d') ↔
          individuals (d.outside "Individual".toList) = []) := by
  constructor
  · intro kind entries d' h
    have hupdate : (EditRequest.list kind entries).update lowercase d = (.ok (), d') := h
    obtain ⟨hedit, hrevision⟩ := revision_of_update hupdate
    have hset : setList lowercase kind entries d = (.ok (), (setList lowercase kind entries d).2) :=
      hedit
    have hnodes : d'.nodes = (setList lowercase kind entries d).2.nodes :=
      congrArg ProfileRevision.nodes hrevision
    unfold setList at hset hnodes
    cases hkind : listSectionOf kind with
    | none => simp [hkind] at hset
    | some name =>
      cases hnormalized : normalizeListEntries lowercase entries with
      | error error => simp [hkind, hnormalized] at hset
      | ok normalized =>
        simp only [hkind, hnormalized] at hnodes
        have hkeeps : KeepsOthers name.toList d d' := by
          apply keepsOthers_of_filter
          rw [hnodes]
          exact (d.keepsOthers_replaceLines name.toList (fun _ => belongsTo_of_isListLine)
            (by simp [IniNode.belongsTo, sameName_refl])).lines
        have hiff := filterMap_replaceLines d name.toList
          (fun _ => listEntry?_of_not_isListLine)
          (listEntries_written d name.toList (normalized_entry hnormalized))
        refine ⟨name, normalized, rfl, rfl, ?_⟩
        rw [and_iff_left hkeeps, hnodes]
        exact hiff
  · intro entries d' h
    have hupdate : (EditRequest.individuals entries).update lowercase d = (.ok (), d') := h
    obtain ⟨hedit, hrevision⟩ := revision_of_update hupdate
    have hset : setIndividuals lowercase entries d =
        (.ok (), (setIndividuals lowercase entries d).2) := hedit
    have hnodes : d'.nodes = (setIndividuals lowercase entries d).2.nodes :=
      congrArg ProfileRevision.nodes hrevision
    unfold setIndividuals at hset hnodes
    cases hvalid : validateIndividuals lowercase entries with
    | error error => simp [hvalid] at hset
    | ok =>
      simp only [hvalid] at hnodes
      have hkeeps : KeepsOthers "Individual".toList d d' := by
        apply keepsOthers_of_filter
        rw [hnodes]
        refine (d.keepsOthers_replaceLines _ (fun _ => belongsTo_of_isIndividualLine) ?_).lines
        intro node hnode
        obtain ⟨entry, -, rfl⟩ := List.mem_map.mp hnode
        exact sameName_refl _
      have hiff := filterMap_replaceLines d "Individual".toList
        (fun _ => individual?_of_not_isIndividualLine)
        (individuals_written d.ending hvalid)
      rw [and_iff_left hkeeps, hnodes]
      exact hiff

def twoExcludeSections : Bytes := encodeUtf8 "[Exclude]\na\n[O]\n[Exclude]\nb\n".toList

/-- What a list is read as after a file is opened and the list is updated. -/
def updatedList (bytes : Bytes) (entries : List Chars) : Option (List Chars) :=
  match openBytes westernPages id bytes with
  | .error _ => none
  | .ok opened =>
    match updateList id "excludeFonts" entries opened with
    | (.error _, _) => none
    | (.ok (), d') => some (listEntries d'.nodes "Exclude".toList)

theorem updatedList_eq_some {bytes : Bytes} {entries list : List Chars}
    (h : updatedList bytes entries = some list) :
    ∃ opened d', openBytes westernPages id bytes = .ok opened ∧
      updateList id "excludeFonts" entries opened = (.ok (), d') ∧
      listEntries d'.nodes "Exclude".toList = list := by
  unfold updatedList at h
  cases hopen : openBytes westernPages id bytes with
  | error error => simp [hopen] at h
  | ok opened =>
    simp only [hopen] at h
    split at h
    · exact absurd h (by simp)
    · next d' hupdate => exact ⟨opened, d', rfl, hupdate, Option.some.inj h⟩

/-- The second section of the name keeps its entry. -/
theorem entry_of_second_section_stays : ¬∀ opened d',
    openBytes westernPages id twoExcludeSections = .ok opened →
      updateList id "excludeFonts" [['c']] opened = (.ok (), d') →
        listEntries d'.nodes "Exclude".toList = [['c']] := by
  intro h
  obtain ⟨opened, d', hopen, hupdate, hlist⟩ := updatedList_eq_some
    (show updatedList twoExcludeSections [['c']] = some [['c'], ['b']] by decide +kernel)
  exact absurd (hlist.symm.trans (h opened d' hopen hupdate)) (by decide)

def oneExcludeSection : Bytes := encodeUtf8 "[Exclude]\nb\n".toList

/-- With one section of the name, the entries are replaced. -/
theorem single_section_exact : ∃ opened d',
    openBytes westernPages id oneExcludeSection = .ok opened ∧
      updateList id "excludeFonts" [['c']] opened = (.ok (), d') ∧
      ∃ name normalized, listSectionOf "excludeFonts" = some name ∧
        normalizeListEntries id [['c']] = .ok normalized ∧
        ((listEntries d'.nodes name.toList = normalized ∧ KeepsOthers name.toList opened d') ↔
          listEntries (opened.outside name.toList) name.toList = []) := by
  obtain ⟨opened, d', hopen, hupdate, -⟩ := updatedList_eq_some
    (show updatedList oneExcludeSection [['c']] = some [['c']] by decide +kernel)
  exact ⟨opened, d', hopen, hupdate,
    (list_edit_exact_iff id opened).1 "excludeFonts" [['c']] d' hupdate⟩

end ProfileDocument

end MacTypeControl.Editor
