import MacTypeControl.Editor.Advanced
import MacTypeControl.Editor.CleanState

/-!
# Saved profiles that are read back

The bytes that are saved are read again where the profile is applied. What is read is what the
editor shows as long as the text is cut into the lines of the document.
-/

namespace MacTypeControl.Editor

open Text Histories

/-! ## What the editor shows -/

structure ShownProfile where
  values : List (Option Chars)
  individuals : List IndividualSetting
  lists : List (List Chars)
  advanced : AdvancedProfile

def shownLists : List Chars :=
  ["Exclude", "Include", "ExcludeModule", "IncludeModule", "UnloadDLL", "ExcludeSub"].map
    String.toList

/-- What a snapshot holds of the nodes. -/
def shown (nodes : List IniNode) : ShownProfile where
  values := settings.map fun setting => rawValue nodes setting.section.toList setting.key.toList
  individuals := individuals nodes
  lists := shownLists.map (listEntries nodes)
  advanced := advanced nodes

def valueSections : List Chars :=
  ["General", "FreeType", "DirectWrite", "Experimental"].map String.toList

def listSections : List Chars := "FontSubstitutes".toList :: shownLists

def IniNode.entryValue? (target keyName : Chars) (node : IniNode) : Option Chars :=
  if node.isEntry target keyName then node.value? else none

/-- Two lines that show the same. -/
structure ReadsAs (node' node : IniNode) : Prop where
  entry : ∀ target ∈ valueSections, ∀ keyName,
    node'.entryValue? target keyName = node.entryValue? target keyName
  individual : node'.individual? = node.individual?
  listEntry : ∀ target ∈ listSections, node'.listEntry? target = node.listEntry? target

theorem ReadsAs.refl (node : IniNode) : ReadsAs node node := ⟨fun _ _ _ => rfl, rfl, fun _ _ => rfl⟩

theorem lastValue_eq_findSome? (nodes : List IniNode) (target keyName : Chars) :
    lastValue nodes target keyName = nodes.reverse.findSome? (IniNode.entryValue? target keyName) := by
  unfold lastValue
  induction nodes.reverse with
  | nil => rfl
  | cons node rest ih =>
    rw [List.find?_cons, List.findSome?_cons, IniNode.entryValue?]
    cases hentry : node.isEntry target keyName with
    | false => simpa using ih
    | true =>
      obtain ⟨value, hvalue⟩ := exists_value_of_isEntry hentry
      simp [hvalue]

theorem findSome?_eq_of_forall₂ {f : IniNode → Option Chars} {nodes' nodes : List IniNode}
    (h : List.Forall₂ (fun node' node => f node' = f node) nodes' nodes) :
    nodes'.findSome? f = nodes.findSome? f := by
  induction h with
  | nil => rfl
  | cons hnode _ ih => rw [List.findSome?_cons, List.findSome?_cons, hnode, ih]

theorem filterMap_eq_of_forall₂ {β : Type} {f : IniNode → Option β} {nodes' nodes : List IniNode}
    (h : List.Forall₂ (fun node' node => f node' = f node) nodes' nodes) :
    nodes'.filterMap f = nodes.filterMap f := by
  induction h with
  | nil => rfl
  | cons hnode _ ih => rw [List.filterMap_cons, List.filterMap_cons, hnode, ih]

/-- Lines that show the same one by one show the same together. -/
theorem shown_eq_of_forall₂ {nodes' nodes : List IniNode}
    (h : List.Forall₂ ReadsAs nodes' nodes) : shown nodes' = shown nodes := by
  have hlast (target : Chars) (htarget : target ∈ valueSections) (keyName : Chars) :
      lastValue nodes' target keyName = lastValue nodes target keyName := by
    rw [lastValue_eq_findSome?, lastValue_eq_findSome?]
    apply findSome?_eq_of_forall₂
    rw [List.forall₂_reverse_iff]
    exact h.imp fun _ _ hnode => hnode.entry target htarget keyName
  have hraw (sectionName : Chars) (hsection : ∀ target ∈ readSections sectionName,
      target ∈ valueSections) (keyName : Chars) :
      rawValue nodes' sectionName keyName = rawValue nodes sectionName keyName :=
    findSome?_congr_mem fun target htarget => hlast target (hsection target htarget) keyName
  have hlist (target : Chars) (htarget : target ∈ listSections) :
      listEntries nodes' target = listEntries nodes target :=
    filterMap_eq_of_forall₂ (h.imp fun _ _ hnode => hnode.listEntry target htarget)
  have hsettings : ∀ setting ∈ settings, ∀ target ∈ readSections setting.section.toList,
      target ∈ valueSections := by decide +kernel
  have hgeneral : ∀ target ∈ readSections "General".toList, target ∈ valueSections := by decide
  have hindividuals : individuals nodes' = individuals nodes :=
    filterMap_eq_of_forall₂ (h.imp fun _ _ hnode => hnode.individual)
  have hadvanced : advanced nodes' = advanced nodes := by
    unfold advanced shadow parseVector
    simp only [hraw _ hgeneral, hlist _ List.mem_cons_self]
  unfold shown
  rw [hindividuals, hadvanced,
    List.map_congr_left fun setting hsetting => hraw _ (hsettings setting hsetting) _,
    List.map_congr_left fun target htarget => hlist target (List.mem_cons_of_mem _ htarget)]

/-! ## Lines that are read back one by one -/

theorem rdropWhile_append_cons {p : Char → Bool} {c : Char} (hc : p c = false) (a b : Chars) :
    (a ++ c :: b).rdropWhile p = a ++ c :: b.rdropWhile p := by
  induction b using List.reverseRecOn with
  | nil => rw [List.rdropWhile_concat_neg _ _ _ (by simp [hc]), List.rdropWhile_nil]
  | append_singleton b last ih =>
    rw [← List.cons_append, ← List.append_assoc]
    cases hlast : p last with
    | true => rw [List.rdropWhile_concat_pos _ _ _ hlast, List.rdropWhile_concat_pos _ _ _ hlast, ih]
    | false =>
      rw [List.rdropWhile_concat_neg _ _ _ (by simp [hlast]),
        List.rdropWhile_concat_neg _ _ _ (by simp [hlast])]
      simp

theorem isWhitespace_of_isLineBreak {c : Char} (h : isLineBreak c = true) :
    isWhitespace c = true := by
  unfold isLineBreak at h
  rw [Bool.or_eq_true, beq_iff_eq, beq_iff_eq] at h
  rcases h with rfl | rfl <;> decide

/-- What is dropped at the end of a line. -/
theorem exists_lineBreaks (line : Chars) : ∃ breaks, line = line.rdropWhile isLineBreak ++ breaks ∧
    ∀ c ∈ breaks, isWhitespace c = true := by
  refine ⟨line.rtakeWhile isLineBreak, List.rdropWhile_append_rtakeWhile.symm, ?_⟩
  exact fun c hc => isWhitespace_of_isLineBreak (List.mem_rtakeWhile_imp hc)

theorem trimStart_append_cons (a b : Chars) {c : Char} (hc : isWhitespace c = false) :
    trimStart (a ++ c :: b) = trimStart a ++ c :: b := by
  unfold trimStart
  rw [List.dropWhile_append]
  split_ifs with hempty
  · rw [List.dropWhile_cons_of_neg (by simp [hc]), List.isEmpty_iff.mp hempty, List.nil_append]
  · rfl

theorem trim_append_space (text : Chars) {space : Chars} (h : ∀ c ∈ space, isWhitespace c = true) :
    trim (text ++ space) = trim text := by
  unfold trim trimStart
  rw [List.dropWhile_append]
  split_ifs with hempty
  · rw [List.isEmpty_iff.mp hempty, List.dropWhile_eq_nil_iff.mpr h]
  · exact trimEnd_append_whitespace _ h

theorem isWhitespace_equals : isWhitespace '=' = false := by decide

/-- The mark of an entry splits it, whatever is around it. -/
theorem trim_entry (lead tail : Chars) :
    trim (lead ++ '=' :: tail) = trimStart lead ++ '=' :: trimEnd tail := by
  rw [trim, trimStart_append_cons _ _ isWhitespace_equals, trimEnd,
    rdropWhile_append_cons isWhitespace_equals, ← trimEnd]

theorem head_trim {text : Chars} (h : trim text ≠ []) (rest : Chars) :
    (trimStart text ++ rest).head? = (trim text).head? := by
  obtain ⟨more, hmore⟩ := trimEnd_prefix (trimStart text)
  change trim text ++ more = trimStart text at hmore
  rw [← hmore]
  cases htrim : trim text with
  | nil => exact absurd htrim h
  | cons c text => rfl

/-- A text with a mark is split at the first one. -/
theorem split_mark {text : Chars} (h : '=' ∈ text) :
    ∃ tail, text.dropWhile (· ≠ '=') = '=' :: tail ∧
      text = text.takeWhile (· ≠ '=') ++ '=' :: tail := by
  have hne : text.dropWhile (· ≠ '=') ≠ [] := fun hnil => by
    simpa using List.dropWhile_eq_nil_iff.mp hnil '=' h
  have hfirst : (text.dropWhile (· ≠ '=')).head hne = '=' := by
    simpa using List.head_dropWhile_not (· ≠ '=') hne
  have hdrop := (List.cons_head_tail hne).symm.trans (congrArg (· :: _) hfirst)
  exact ⟨_, hdrop, by rw [← hdrop, List.takeWhile_append_dropWhile]⟩

/-- A text before the first mark that the line of an entry can begin with. -/
structure IsLead (lead : Chars) : Prop where
  unmarked : '=' ∉ lead
  named : trim lead ≠ []
  plain : (trim lead).head? ≠ some ';' ∧ (trim lead).head? ≠ some '#'

theorem parseLine_entry (current : Chars) {lead : Chars} (hlead : IsLead lead) (tail : Chars)
    (hbracket : (trim lead).head? = some '[' → (trimEnd tail).getLast? ≠ some ']') :
    ∃ separator suffix, parseLine current (lead ++ '=' :: tail) =
      (.keyValue current (trim lead) (trim tail) lead separator suffix (lead ++ '=' :: tail),
        current) := by
  obtain ⟨breaks, hbreaks, hspace⟩ := exists_lineBreaks tail
  set body := tail.rdropWhile isLineBreak with hbody
  have hline : (lead ++ '=' :: tail).rdropWhile isLineBreak = lead ++ '=' :: body :=
    rdropWhile_append_cons (by decide) lead tail
  have hend : trimEnd body = trimEnd tail := by
    rw [hbreaks, trimEnd_append_whitespace _ hspace]
  have hvalue : trimEnd (trimStart body) = trim tail := by
    rw [hbreaks, trim_append_space _ hspace]
    rfl
  have hhead : (trim (lead ++ '=' :: body)).head? = (trim lead).head? := by
    rw [trim_entry, head_trim hlead.named]
  have hunbracketed : isBracketed (trim (lead ++ '=' :: body)) = false := by
    unfold isBracketed
    rw [hhead, trim_entry, hend, Bool.and_eq_false_iff, beq_eq_false_iff_ne, beq_eq_false_iff_ne,
      ← not_and_or]
    rintro ⟨hopen, hclose⟩
    -- The last character is the mark itself where nothing comes after it.
    rw [List.append_cons, List.getLast?_append] at hclose
    cases hlast : (trimEnd tail).getLast? with
    | none => simp [hlast] at hclose
    | some c => exact hbracket hopen (hlast.trans (by simpa [hlast] using hclose))
  have hother : ∀ c ∈ lead, decide (c ≠ '=') = true := by
    intro c hc
    exact decide_eq_true fun h => hlead.unmarked (h ▸ hc)
  have hbefore : (lead ++ '=' :: body).takeWhile (· ≠ '=') = lead := by
    rw [List.takeWhile_append_of_pos hother]
    simp
  have hafter : (lead ++ '=' :: body).dropWhile (· ≠ '=') = '=' :: body := by
    rw [List.dropWhile_append_of_pos hother]
    simp
  have hnonempty : trim (lead ++ '=' :: body) ≠ [] := by
    rw [trim_entry]
    simp
  unfold parseLine
  simp only [hline, hhead, hunbracketed, hbefore, hafter, List.tail_cons, hvalue]
  rw [if_neg hnonempty, if_neg (not_or.mpr hlead.plain), if_neg (by simp), if_neg (by simp),
    if_neg hlead.named]
  exact ⟨_, _, rfl⟩

/-! ## Lines that stay readable -/

def sectionAfter (current : Chars) : IniNode → Chars
  | .section name _ => name
  | _ => current

/-- The line is read in the section as its node shows it. -/
structure Reads (current : Chars) (node : IniNode) : Prop where
  after : (parseLine current node.raw).2 = sectionAfter current node
  reads : ReadsAs (parseLine current node.raw).1 node

def IsSolidChar (c : Char) : Prop := isWhitespace c = false ∧ c ≠ ']'

instance (c : Char) : Decidable (IsSolidChar c) := inferInstanceAs (Decidable (_ ∧ _))

/-- What a value that is written looks like. -/
def IsSolid (value : Chars) : Prop := value ≠ [] ∧ ∀ c ∈ value, IsSolidChar c

/-- The line is readable in its section, and stays so when its value is changed. -/
structure Formed (current : Chars) (node : IniNode) : Prop where
  reads : Reads current node
  editable : ∀ value, IsSolid value → Reads current (node.withValue value)
  within : ∀ target, node.belongsTo target = true →
    eqIgnoreAsciiCase (sectionAfter current node) target = true

theorem sameName_congr {a b : Chars} (h : eqIgnoreAsciiCase a b = true) (target : Chars) :
    eqIgnoreAsciiCase a target = eqIgnoreAsciiCase b target := by
  simp only [eqIgnoreAsciiCase, eqIgnoreAsciiCase_iff.mp h]

theorem readsAs_entry {sec sec' : Chars} (h : eqIgnoreAsciiCase sec' sec = true)
    (key value lead separator suffix raw lead' separator' suffix' raw' : Chars) :
    ReadsAs (.keyValue sec' key value lead' separator' suffix' raw')
      (.keyValue sec key value lead separator suffix raw) := by
  refine ⟨fun target _ keyName => ?_, ?_, fun target _ => ?_⟩
  · simp only [IniNode.entryValue?, IniNode.isEntry, IniNode.value?, sameName_congr h]
    rfl
  · simp only [IniNode.individual?, sameName_congr h]
  · simp only [IniNode.listEntry?, sameName_congr h]

theorem solid_last {value : Chars} (h : IsSolid value) (front : Chars) :
    (∀ c, (front ++ value).getLast? = some c → isWhitespace c = false ∧ c ≠ ']') := by
  intro c hc
  rw [List.getLast?_append_of_ne_nil _ h.1] at hc
  exact h.2 c (List.mem_of_getLast? hc)

theorem reads_entry {current sec lead leading value suffix : Chars}
    (hsec : eqIgnoreAsciiCase current sec = true) (hlead : IsLead lead) (hvalue : IsSolid value)
    (hleading : ∀ c ∈ leading, isWhitespace c = true)
    (hsuffix : ∀ c ∈ suffix, isWhitespace c = true) :
    Reads current (.keyValue sec (trim lead) value lead ('=' :: leading) suffix
      (lead ++ '=' :: leading ++ value ++ suffix)) := by
  have hend : trimEnd (leading ++ value ++ suffix) = leading ++ value := by
    rw [trimEnd_append_whitespace _ hsuffix]
    exact trimEnd_of_last fun c hc => (solid_last hvalue leading c hc).1
  have hread : trim (leading ++ value ++ suffix) = value := by
    have hhead : ∀ c, value.head? = some c → isWhitespace c = false :=
      fun c hc => (hvalue.2 c (List.mem_of_head? hc)).1
    rw [trim_append_space _ hsuffix, trim, trimStart, List.dropWhile_append_of_pos hleading,
      ← trimStart, trimStart_of_head hhead]
    exact trimEnd_of_last fun c hc => (solid_last hvalue [] c (by simpa using hc)).1
  have hbracket : (trim lead).head? = some '[' →
      (trimEnd (leading ++ value ++ suffix)).getLast? ≠ some ']' := by
    intro _ hclose
    rw [hend] at hclose
    exact (solid_last hvalue leading _ hclose).2 rfl
  obtain ⟨separator, suffix', hparse⟩ := parseLine_entry current hlead _ hbracket
  have hraw : lead ++ '=' :: leading ++ value ++ suffix =
      lead ++ '=' :: (leading ++ value ++ suffix) := by simp
  constructor
  · rw [IniNode.raw, hraw, hparse]
    rfl
  · rw [IniNode.raw, hraw, hparse, hread]
    exact readsAs_entry hsec ..

/-- What is written for a key that is not there. -/
theorem formed_entryNode {current sec key value ending : Chars}
    (hsec : eqIgnoreAsciiCase current sec = true) (hkey : IsLead key) (htrimmed : trim key = key)
    (hvalue : IsSolid value) (hending : ∀ c ∈ ending, isWhitespace c = true) :
    Formed current (entryNode sec key value ending) := by
  have hreads (value : Chars) (hvalue : IsSolid value) :
      Reads current ((entryNode sec key value ending).withValue value) := by
    have hentry := reads_entry hsec hkey hvalue (List.forall_mem_nil _) hending
    rw [htrimmed] at hentry
    exact hentry
  have hsame : (entryNode sec key value ending).withValue value = entryNode sec key value ending := by
    simp [entryNode, IniNode.withValue]
  exact ⟨hsame ▸ hreads value hvalue, hreads,
    fun target htarget => sameName_trans hsec htarget⟩

theorem drop_rdropWhile (p : Char → Bool) (text : Chars) :
    text.drop (text.rdropWhile p).length = text.rtakeWhile p := by
  have hsplit : text.rdropWhile p ++ text.rtakeWhile p = text := List.rdropWhile_append_rtakeWhile
  calc text.drop (text.rdropWhile p).length
      = (text.rdropWhile p ++ text.rtakeWhile p).drop (text.rdropWhile p).length := by rw [hsplit]
    _ = text.rtakeWhile p := List.drop_left

/-- Every line of a text that is opened. -/
theorem formed_parseLine (current line : Chars) :
    Formed current (parseLine current line).1 ∧
      (parseLine current line).2 = sectionAfter current (parseLine current line).1 := by
  have hafter : (parseLine current line).2 = sectionAfter current (parseLine current line).1 := by
    unfold parseLine
    simp only
    split_ifs <;> rfl
  have hreads : Reads current (parseLine current line).1 := by
    constructor
    · rw [raw_parseLine, hafter]
    · rw [raw_parseLine]
      exact .refl _
  refine ⟨⟨hreads, ?_, ?_⟩, hafter⟩
  · intro value hvalue
    unfold parseLine at hreads ⊢
    simp only at hreads ⊢
    split_ifs at hreads ⊢ with hblank hcomment hheader hmark hnamed
    · exact hreads
    · exact hreads
    · exact hreads
    · exact hreads
    · exact hreads
    · -- The parts of the line are put together again around the other value.
      set body := line.rdropWhile isLineBreak with hbody
      set lead := body.takeWhile (· ≠ '=') with hlead
      obtain ⟨tail, htail, hsplit⟩ := split_mark (show '=' ∈ body by simpa using hmark)
      have hhead : (trim body).head? = (trim lead).head? := by
        rw [hsplit, trim_entry, head_trim hnamed]
      refine reads_entry (sameName_refl current) ⟨fun h => ?_, hnamed, ?_⟩ hvalue ?_ ?_
      · simpa using List.mem_takeWhile_imp h
      · rw [← hhead]
        exact not_or.mp hcomment
      · exact fun c hc => List.mem_takeWhile_imp hc
      · rw [trimEnd, drop_rdropWhile, hbody, drop_rdropWhile]
        intro c hc
        rcases List.mem_append.mp hc with hc | hc
        · exact List.mem_rtakeWhile_imp hc
        · exact isWhitespace_of_isLineBreak (List.mem_rtakeWhile_imp hc)
  · intro target htarget
    unfold parseLine at htarget ⊢
    simp only at htarget ⊢
    split_ifs at htarget ⊢ <;> first | exact htarget | exact absurd htarget (by simp [IniNode.belongsTo])

theorem body_of_line {text ending : Chars} (htext : trim text = text)
    (hending : ∀ c ∈ ending, isLineBreak c = true) :
    (text ++ ending).rdropWhile isLineBreak = text := by
  have hnone : ending.rdropWhile isLineBreak = [] := List.rdropWhile_eq_nil_iff.mpr hending
  rcases List.eq_nil_or_concat text with rfl | ⟨front, last, rfl⟩
  · exact hnone
  · have hlast : isLineBreak last = false := by
      have hspace := (htext ▸ isTrimmed_trim (front.concat last)).2 last (by simp)
      cases hbreak : isLineBreak last with
      | false => rfl
      | true => exact absurd (isWhitespace_of_isLineBreak hbreak) (by simp [hspace])
    rw [List.concat_eq_append, List.append_assoc, List.singleton_append,
      rdropWhile_append_cons hlast, hnone]

theorem formed_sectionNode (current : Chars) {name ending : Chars} (hname : trim name = name)
    (hending : ∀ c ∈ ending, isLineBreak c = true) : Formed current (sectionNode name ending) := by
  have hlast : ('[' :: name ++ [']']).getLast? = some ']' := List.getLast?_concat
  have htrimmed : trim ('[' :: name ++ [']']) = '[' :: name ++ [']'] := by
    apply trim_of_isTrimmed
    constructor <;> intro c hc
    · obtain rfl : '[' = c := by simpa using hc
      decide
    · obtain rfl : ']' = c := Option.some.inj (hlast.symm.trans hc)
      decide
  have hbody := body_of_line htrimmed hending
  have hparse : parseLine current ('[' :: name ++ ']' :: ending) =
      (.section name ('[' :: name ++ ']' :: ending), name) := by
    have hbracketed : isBracketed ('[' :: name ++ [']']) = true := by
      rw [isBracketed, hlast]
      rfl
    have hinside : ('[' :: name ++ [']']).tail.dropLast = name := by simp
    rw [← List.append_cons] at hbody
    unfold parseLine
    simp only [hbody, htrimmed, hbracketed, hinside, hname]
    simp
  have hreads : Reads current (sectionNode name ending) := by
    constructor
    · rw [sectionNode, IniNode.raw, hparse]
      rfl
    · rw [sectionNode, IniNode.raw, hparse]
      exact .refl _
  exact ⟨hreads, fun _ _ => hreads, fun _ h => h⟩

/-- No white space stands around the first mark of the entry. -/
def Tight (entry : Chars) : Prop :=
  trim (entry.takeWhile (· ≠ '=')) = entry.takeWhile (· ≠ '=') ∧
    trim (entry.dropWhile (· ≠ '=')).tail = (entry.dropWhile (· ≠ '=')).tail

/-- An entry of a list as it is kept. -/
structure IsListEntry (entry : Chars) : Prop where
  trimmed : trim entry = entry
  nonempty : entry ≠ []
  plain : entry.head? ∉ [some '[', some ';', some '#']
  tight : Tight entry

theorem otherSections : ∀ name ∈ listSections,
    eqIgnoreAsciiCase name "Individual".toList = false ∧
      ∀ target ∈ valueSections, eqIgnoreAsciiCase name target = false := by
  decide

/-- An entry of a list is read again as it is, also where it has a mark. -/
theorem reads_listEntry {current name entry ending : Chars}
    (hname : eqIgnoreAsciiCase current name = true) (hlist : name ∈ listSections)
    (h : IsListEntry entry) (hending : ∀ c ∈ ending, isLineBreak c = true) :
    Reads current (.unknown name (entry ++ ending)) := by
  have hspace : ∀ c ∈ ending, isWhitespace c = true :=
    fun c hc => isWhitespace_of_isLineBreak (hending c hc)
  have hread : trim (entry ++ ending) = entry := by rw [trim_append_space _ hspace, h.trimmed]
  have hplain : entry.head? ≠ some '[' ∧ entry.head? ≠ some ';' ∧ entry.head? ≠ some '#' := by
    simpa using h.plain
  have hunknown (hparse : parseLine current (entry ++ ending) =
      (.unknown current (entry ++ ending), current)) :
      Reads current (.unknown name (entry ++ ending)) := by
    constructor
    · rw [IniNode.raw, hparse]
      rfl
    · rw [IniNode.raw, hparse]
      refine ⟨fun _ _ _ => rfl, rfl, fun target _ => ?_⟩
      simp only [IniNode.listEntry?, sameName_congr hname]
  have hbracket : isBracketed entry = false := by simp [isBracketed, hplain.1]
  set lead := entry.takeWhile (· ≠ '=') with hlead
  by_cases hmark : '=' ∈ entry
  · obtain ⟨tail, hsplit, hentry⟩ := split_mark hmark
    rw [← hlead] at hentry
    obtain ⟨htrimLead, htrimTail⟩ : trim lead = lead ∧ trim tail = tail := by
      have htight := h.tight
      unfold Tight at htight
      rwa [hsplit] at htight
    by_cases hnamed : lead = []
    · apply hunknown
      unfold parseLine
      simp only [body_of_line h.trimmed hending, h.trimmed, hbracket, ← hlead, hnamed]
      rw [if_neg h.nonempty, if_neg (not_or.mpr hplain.2), if_neg (by simp), if_neg (by simpa using hmark),
        if_pos (by rfl)]
    · have hhead : lead.head? = entry.head? := by
        rw [hentry]
        cases hlead : lead with
        | nil => exact absurd hlead hnamed
        | cons c rest => rfl
      have hunmarked : '=' ∉ lead := fun h => by simpa using List.mem_takeWhile_imp h
      have hvalue : trim (tail ++ ending) = tail := by rw [trim_append_space _ hspace, htrimTail]
      obtain ⟨separator, suffix, hparse⟩ := parseLine_entry current
        ⟨hunmarked, by rwa [htrimLead], by rw [htrimLead, hhead]; exact hplain.2⟩
        (tail ++ ending)
        (fun hopen => absurd (htrimLead ▸ hopen) (by rw [hhead]; exact hplain.1))
      rw [htrimLead, hvalue] at hparse
      have hraw : entry ++ ending = lead ++ '=' :: (tail ++ ending) := by
        rw [hentry, List.append_assoc, List.cons_append]
      obtain ⟨hindividual, hvalues⟩ := otherSections name hlist
      constructor
      · rw [IniNode.raw, hraw, hparse]
        rfl
      · rw [IniNode.raw, hraw, hparse, ← hraw]
        refine ⟨fun target htarget keyName => ?_, ?_, fun target _ => ?_⟩
        · simp [IniNode.entryValue?, IniNode.isEntry, sameName_congr hname, hvalues target htarget]
        · simp only [IniNode.individual?, sameName_congr hname, hindividual]
          rfl
        · simp [IniNode.listEntry?, sameName_congr hname, hread, h.nonempty, ← hentry]
  · apply hunknown
    unfold parseLine
    simp only [body_of_line h.trimmed hending, h.trimmed, hbracket]
    rw [if_neg h.nonempty, if_neg (not_or.mpr hplain.2), if_neg (by simp), if_pos (by simpa using hmark)]

/-! ## Documents that stay readable -/

def FormedFrom (current : Chars) : List IniNode → Prop
  | [] => True
  | node :: rest => Formed current node ∧ FormedFrom (sectionAfter current node) rest

theorem formedFrom_append {current : Chars} {a b : List IniNode} :
    FormedFrom current (a ++ b) ↔
      FormedFrom current a ∧ FormedFrom (a.foldl sectionAfter current) b := by
  induction a generalizing current with
  | nil => simp [FormedFrom]
  | cons node a ih => simp [FormedFrom, ih, and_assoc]

theorem formedFrom_parseLines (current : Chars) (lines : List Chars) :
    FormedFrom current (parseLines current lines) := by
  induction lines generalizing current with
  | nil => trivial
  | cons line rest ih =>
    obtain ⟨hformed, hafter⟩ := formed_parseLine current line
    exact ⟨hformed, hafter ▸ ih _⟩

/-- The lines of the document are read again as it shows them. -/
theorem forall₂_parseLines {current : Chars} {nodes : List IniNode} (h : FormedFrom current nodes) :
    List.Forall₂ ReadsAs (parseLines current (nodes.map IniNode.raw)) nodes := by
  induction nodes generalizing current with
  | nil => exact .nil
  | cons node rest ih =>
    obtain ⟨⟨hreads, -, -⟩, hrest⟩ := h
    rw [List.map_cons, parseLines, hreads.after]
    exact .cons hreads.reads (ih hrest)

theorem foldl_sectionAfter {current : Chars} {nodes : List IniNode}
    (h : ∀ node ∈ nodes, node.isAnySection = false) :
    nodes.foldl sectionAfter current = current := by
  induction nodes with
  | nil => rfl
  | cons node rest ih =>
    rw [List.forall_mem_cons] at h
    have hnode : sectionAfter current node = current := by
      cases node with
      | «section» => exact absurd h.1 (by simp [IniNode.isAnySection])
      | _ => rfl
    rw [List.foldl_cons, hnode, ih h.2]

theorem FormedFrom.filter {current : Chars} {nodes : List IniNode} {keep : IniNode → Bool}
    (h : FormedFrom current nodes) (hkeep : ∀ node, node.isAnySection = true → keep node = true) :
    FormedFrom current (nodes.filter keep) := by
  induction nodes generalizing current with
  | nil => trivial
  | cons node rest ih =>
    cases hnode : keep node with
    | true =>
      rw [List.filter_cons_of_pos hnode]
      exact ⟨h.1, ih h.2⟩
    | false =>
      rw [List.filter_cons_of_neg (by simp [hnode])]
      cases node with
      | «section» name raw => exact absurd ((hkeep (.section name raw) rfl).symm.trans hnode) (by simp)
      | _ => exact ih h.2

theorem formedFrom_of_forall {current : Chars} {nodes : List IniNode}
    (h : ∀ node ∈ nodes, node.isAnySection = false ∧ Formed current node) :
    FormedFrom current nodes := by
  induction nodes with
  | nil => trivial
  | cons node rest ih =>
    rw [List.forall_mem_cons] at h
    refine ⟨h.1.2, ?_⟩
    have hsame : [node].foldl sectionAfter current = current :=
      foldl_sectionAfter (List.forall_mem_singleton.mpr h.1.1)
    rw [List.foldl_cons, List.foldl_nil] at hsame
    exact hsame.symm ▸ ih h.2

/-- A name that a key or a font can have where it is written. -/
def IsKey (key : Chars) : Prop :=
  trim key = key ∧ '=' ∉ key ∧ key.head? ∉ [none, some ';', some '#']

instance (key : Chars) : Decidable (IsKey key) := inferInstanceAs (Decidable (_ ∧ _ ∧ _))

theorem IsKey.lead {key : Chars} (h : IsKey key) : IsLead key := by
  obtain ⟨htrimmed, hmark, hhead⟩ := h
  have hplain : key ≠ [] ∧ key.head? ≠ some ';' ∧ key.head? ≠ some '#' := by simpa using hhead
  exact ⟨hmark, htrimmed.symm ▸ hplain.1, htrimmed.symm ▸ hplain.2⟩

namespace ProfileDocument

theorem isLineBreak_ending (d : ProfileDocument) : ∀ c ∈ d.ending, isLineBreak c = true := by
  unfold ending
  cases d.lineEnding <;> simp [isLineBreak]

/-- Every line reads as its node shows it. -/
def Readable (d : ProfileDocument) : Prop := FormedFrom [] d.nodes

variable {d : ProfileDocument}

theorem Readable.withSection (h : d.Readable) {name : Chars} (hname : trim name = name) :
    FormedFrom [] (d.withSection name) := by
  unfold ProfileDocument.withSection
  split_ifs
  · exact h
  · exact formedFrom_append.mpr ⟨h, formed_sectionNode _ hname d.isLineBreak_ending, trivial⟩

theorem Readable.setRawValue (h : d.Readable) {sectionName keyName : Chars} {value : Option Chars}
    (dirtyKey : String) (hkey : IsKey keyName)
    (hsections : ∀ target ∈ sectionName :: readSections sectionName, trim target = target)
    (hvalue : ∀ rendered, value = some rendered → IsSolid rendered) :
    (d.setRawValue sectionName keyName value dirtyKey).Readable := by
  unfold Readable
  cases value with
  | none =>
    refine FormedFrom.filter h fun node hnode => ?_
    cases node with
    | «section» => simp [IniNode.isEntry]
    | _ => exact absurd hnode (by simp [IniNode.isAnySection])
  | some rendered =>
    have hsolid := hvalue rendered rfl
    have htarget : trim (d.targetSection sectionName keyName) =
        d.targetSection sectionName keyName := by
      apply hsections
      rcases d.targetSection_cases sectionName keyName with ⟨_, _, hsplit, -⟩ | ⟨hsame, -⟩
      · rw [List.mem_cons, hsplit]
        exact .inr (by simp)
      · rw [hsame]
        exact List.mem_cons_self
    cases hany : d.nodes.any
        (IniNode.isEntry (d.targetSection sectionName keyName) keyName) with
    | true =>
      obtain ⟨a, node, b, hnodes, -, -, hresult⟩ :=
        @setRawValue_changed d _ _ rendered dirtyKey _ rfl hany
      unfold Readable at h
      rw [hnodes, formedFrom_append] at h
      obtain ⟨ha, ⟨-, heditable, hwithin⟩, hb⟩ := h
      rw [hresult, formedFrom_append]
      cases node with
      | keyValue =>
        exact ⟨ha, ⟨heditable rendered hsolid, fun value hvalue => heditable value hvalue, hwithin⟩,
          hb⟩
      | _ => exact ⟨ha, ⟨heditable rendered hsolid, heditable, hwithin⟩, hb⟩
    | false =>
      obtain ⟨a, b, hnodes, -, ⟨last, hlast, hbelongs⟩, hresult⟩ :=
        @setRawValue_inserted d _ _ rendered dirtyKey _ rfl hany
      have hall := h.withSection htarget
      rw [hnodes, formedFrom_append] at hall
      obtain ⟨ha, hb⟩ := hall
      -- The line before the new entry stands in its section.
      have hsection : eqIgnoreAsciiCase (a.foldl sectionAfter [])
          (d.targetSection sectionName keyName) = true := by
        obtain ⟨front, rfl⟩ := List.getLast?_eq_some_iff.mp hlast
        rw [List.foldl_append]
        exact (formedFrom_append.mp ha).2.1.within _ hbelongs
      rw [hresult, formedFrom_append]
      exact ⟨ha, formed_entryNode hsection hkey.lead hkey.1 hsolid
        (isWhitespace_ending d), hb⟩

theorem Readable.replaceLines (h : d.Readable) {name : Chars} (hname : trim name = name)
    {replaced : IniNode → Bool} (hreplaced : ∀ node, node.isAnySection = true → replaced node = false)
    {replacement : List IniNode} (hreplacement : ∀ node ∈ replacement, node.isAnySection = false ∧
      ∀ current, eqIgnoreAsciiCase current name = true → Formed current node) :
    (d.replaceLines name replaced replacement).Readable := by
  have hall := h.withSection hname
  rw [← sectionRange_append, formedFrom_append, formedFrom_append] at hall
  obtain ⟨hbefore, hinside, hafter⟩ := hall
  have hplain : ∀ node ∈ (d.sectionRange name).2.1, node.isAnySection = false := by
    intro node hnode
    simpa using List.mem_takeWhile_imp hnode
  have hsection : eqIgnoreAsciiCase ((d.sectionRange name).1.foldl sectionAfter []) name = true := by
    have hlt := List.findIdx_lt_length_of_exists
      (List.any_eq_true.mp (d.any_isSection_withSection name))
    have hheader := List.findIdx_getElem (w := hlt)
    unfold sectionRange
    dsimp only
    rw [List.take_succ_eq_append_getElem hlt, List.foldl_append]
    revert hheader
    cases (d.withSection name)[(d.withSection name).findIdx (IniNode.isSection name)] with
    | «section» header raw => exact id
    | _ => exact fun h => absurd h (by simp [IniNode.isSection])
  unfold Readable
  rw [nodes_replaceLines, formedFrom_append, formedFrom_append, formedFrom_append,
    List.foldl_append, List.foldl_append]
  have hkept : ∀ node ∈ (d.sectionRange name).2.1.filter (!replaced ·), node.isAnySection = false :=
    fun node hnode => hplain node (List.mem_of_mem_filter hnode)
  rw [foldl_sectionAfter hkept, foldl_sectionAfter fun node hnode => (hreplacement node hnode).1]
  rw [foldl_sectionAfter hplain] at hafter
  refine ⟨⟨hbefore, hinside.filter fun node hnode => by simp [hreplaced node hnode], ?_⟩, hafter⟩
  exact formedFrom_of_forall fun node hnode =>
    ⟨(hreplacement node hnode).1, (hreplacement node hnode).2 _ hsection⟩

end ProfileDocument

/-! ## Values that are written -/

theorem solid_printInt (n : ℤ) : ∀ c ∈ printInt n, IsSolidChar c := by
  intro c hc
  refine ⟨(plain_printInt n c hc).2, ?_⟩
  rintro rfl
  rcases mem_printInt hc with h | h <;> exact absurd h (by decide)

theorem solid_digits (n : ℕ) : ∀ c ∈ digits n, IsSolidChar c := by
  intro c hc
  have hdigit := isDigit_of_mem_digits hc
  refine ⟨isWhitespace_of_isDigit hdigit, ?_⟩
  rintro rfl
  exact absurd hdigit (by decide)

theorem solid_sixHexDigits (n : ℕ) : ∀ c ∈ sixHexDigits n, IsSolidChar c := by
  intro c hc
  refine ⟨(plain_sixHexDigits n c hc).2, ?_⟩
  obtain ⟨shift, -, rfl⟩ := List.mem_map.mp hc
  have hdigit : ∀ k < 16, upperHexDigit k ≠ ']' := by decide
  exact hdigit _ (Nat.mod_lt _ (by decide))

theorem solid_commaSeparated {parts : List Chars} (hlength : 2 ≤ parts.length)
    (h : ∀ part ∈ parts, ∀ c ∈ part, IsSolidChar c) : IsSolid (commaSeparated parts) := by
  constructor
  · match parts with
    | first :: second :: rest => simp [commaSeparated]
  · clear hlength
    induction parts with
    | nil => simp [commaSeparated]
    | cons first rest ih =>
      rw [List.forall_mem_cons] at h
      cases rest with
      | nil => simpa [commaSeparated] using h.1
      | cons second rest =>
        have hcomma : commaSeparated (first :: second :: rest) =
            first ++ ',' :: commaSeparated (second :: rest) := by simp [commaSeparated]
        rw [hcomma, List.forall_mem_append]
        exact ⟨h.1, List.forall_mem_cons.mpr ⟨by decide, ih h.2⟩⟩

theorem solid_renderFloat (negative : Bool) (magnitude : ℚ) :
    IsSolid (renderFloat negative magnitude) := by
  have hplaces (n : ℕ) : ∀ c ∈ sixPlaces n, IsSolidChar c := by
    intro c hc
    rcases List.mem_append.mp hc with hc | hc
    · rw [List.eq_of_mem_replicate hc]
      decide
    · exact solid_digits _ c hc
  have hsigned {text : Chars} (h : ∀ c ∈ text, IsSolidChar c) :
      ∀ c ∈ signed negative text, IsSolidChar c := by
    cases negative with
    | false => exact h
    | true => exact List.forall_mem_cons.mpr ⟨by decide, h⟩
  constructor
  · cases negative <;> simp [renderFloat, signed]
  · apply hsigned
    intro c hc
    rcases List.mem_append.mp hc with hc | hc
    · exact solid_digits _ c hc
    · rcases List.mem_cons.mp hc with rfl | hc
      · decide
      · split_ifs at hc
        · rw [List.mem_singleton.mp hc]
          decide
        · exact hplaces _ c ((List.rdropWhile_prefix _ _).subset hc)

/-- What is written for a setting. -/
theorem solid_renderSettingValue {settingId : String} {value : Float64}
    {rendered : RenderedSettingValue} (h : renderSettingValue settingId value = .ok rendered) :
    (∃ setting ∈ settings, rendered.section = setting.section.toList ∧
      rendered.key = setting.key.toList) ∧ IsSolid rendered.value := by
  obtain ⟨setting, hschema, h⟩ := bind_eq_ok.mp h
  have hmem : setting ∈ settings := by
    unfold schema at hschema
    split at hschema
    · next found hfound => exact Except.ok.inj hschema ▸ List.mem_of_find?_eq_some hfound
    · exact absurd hschema (by simp)
  cases value with
  | finite negative magnitude =>
    dsimp only at h
    generalize (if negative = true then -magnitude else magnitude) = number at h
    by_cases hrange : number < setting.min ∨ setting.max < number
    · rw [if_pos hrange] at h
      exact absurd h (by simp)
    rw [if_neg hrange] at h
    split at h
    · split_ifs at h
      obtain rfl := Except.ok.inj h
      exact ⟨⟨setting, hmem, rfl, rfl⟩, printInt_ne_nil _, solid_printInt _⟩
    · obtain rfl := Except.ok.inj h
      exact ⟨⟨setting, hmem, rfl, rfl⟩, solid_renderFloat _ _⟩
  | infinite => exact absurd h (by simp)
  | nan => exact absurd h (by simp)

theorem solid_of_rendered {lowercase : Lowercase} {profile : AdvancedProfile}
    {rendered : RenderedAdvancedProfile}
    (h : renderAdvancedProfile lowercase profile = .ok rendered) :
    (∀ value ∈ [rendered.shadow, rendered.lcdFilterWeight, rendered.pixelLayout], ∀ text,
      value = some text → IsSolid text) ∧
      normalizeListEntries lowercase profile.fontSubstitutes = .ok rendered.fontSubstitutes := by
  obtain ⟨shadow, hshadow, h⟩ := bind_eq_ok.mp h
  obtain ⟨weight, hweight, h⟩ := bind_eq_ok.mp h
  obtain ⟨layout, hlayout, h⟩ := bind_eq_ok.mp h
  obtain ⟨substitutes, hsubstitutes, h⟩ := bind_eq_ok.mp h
  obtain ⟨⟨⟩, -, h⟩ := bind_eq_ok.mp h
  obtain rfl := Except.ok.inj h
  have hoption {α : Type} {render : α → Except String Chars} {value : Option α}
      {text : Option Chars} (hrender : renderOption render value = .ok text)
      (hsolid : ∀ value text, render value = .ok text → IsSolid text) (found : Chars)
      (hfound : text = some found) : IsSolid found := by
    subst hfound
    cases value with
    | none => exact absurd hrender (by simp [renderOption])
    | some value =>
      obtain ⟨found, hvalue, hsome⟩ := map_eq_ok.mp hrender
      exact Option.some.inj hsome ▸ hsolid value found hvalue
  have hvector {length : ℕ} (hlength : 2 ≤ length) {minimum maximum : ℤ} {name : String}
      (values : List ℤ) (text : Chars)
      (hrender : renderVector values length minimum maximum name = .ok text) : IsSolid text := by
    unfold renderVector at hrender
    split_ifs at hrender with hvalid
    rw [not_or, not_not] at hvalid
    obtain rfl := Except.ok.inj hrender
    refine solid_commaSeparated (by simpa [hvalid.1] using hlength) fun part hpart => ?_
    obtain ⟨n, -, rfl⟩ := List.mem_map.mp hpart
    exact solid_printInt n
  refine ⟨?_, hsubstitutes⟩
  simp only [List.forall_mem_cons]
  refine ⟨hoption hshadow fun value text hrender => ?_, hoption hweight (hvector (by decide)),
    hoption hlayout (hvector (by decide)), by simp⟩
  unfold renderShadow at hrender
  split_ifs at hrender
  obtain rfl := Except.ok.inj hrender
  refine solid_commaSeparated (by simp) ?_
  simp only [List.forall_mem_cons]
  exact ⟨solid_printInt _, solid_printInt _, solid_printInt _, solid_sixHexDigits _,
    solid_printInt _, solid_sixHexDigits _, by simp⟩

theorem key_setting : ∀ setting ∈ settings, IsKey setting.key.toList ∧
    ∀ target ∈ setting.section.toList :: readSections setting.section.toList,
      trim target = target := by
  decide +kernel

theorem key_advanced : (∀ key ∈ ["Shadow", "LcdFilterWeight", "PixelLayout"].map String.toList,
    IsKey key) ∧
      ∀ target ∈ "General".toList :: readSections "General".toList, trim target = target := by
  decide +kernel

theorem validIndividual {lowercase : Lowercase} {seen : List Chars}
    {entries : List IndividualSetting}
    (h : validateIndividualsFrom lowercase seen entries = .ok ()) :
    ∀ entry ∈ entries, trim entry.fontFace = entry.fontFace →
      IsKey entry.fontFace ∧ entry.values.length = 6 := by
  induction entries generalizing seen with
  | nil => simp
  | cons entry rest ih =>
    obtain ⟨⟨⟩, hentry, hrest⟩ := bind_eq_ok.mp h
    refine List.forall_mem_cons.mpr ⟨fun htrimmed => ?_, ih hrest⟩
    obtain ⟨⟨⟩, hface, hentry⟩ := bind_eq_ok.mp hentry
    split_ifs at hentry with hmark hseen hlength
    obtain ⟨hne, hhead⟩ := validateEntry_eq_ok hface
    rw [htrimmed] at hne
    refine ⟨⟨htrimmed, hmark, ?_⟩, not_not.mp hlength⟩
    simp only [List.mem_cons, not_or, List.not_mem_nil, not_false_eq_true, and_true] at hhead ⊢
    exact ⟨by simpa using hne, hhead.2⟩

/-! ## The edits -/

/-- Names without white space around them, and none around the mark of an entry. -/
def EditRequest.IsPlain : EditRequest → Prop
  | .individuals entries => ∀ entry ∈ entries, trim entry.fontFace = entry.fontFace
  | .list _ entries => ∀ entry ∈ entries, Tight (trim entry)
  | .advanced profile => ∀ entry ∈ profile.fontSubstitutes, Tight (trim entry)
  | .value _ _ | .resetToDefaults => True

namespace ProfileDocument

variable {d : ProfileDocument}

theorem Readable.setSetting (h : d.Readable) {settingId : String} {value : Float64}
    {rendered : RenderedSettingValue} (hrendered : renderSettingValue settingId value = .ok rendered) :
    (d.setRawValue rendered.section rendered.key (some rendered.value) settingId).Readable := by
  obtain ⟨⟨setting, hmem, hsection, hkey⟩, hsolid⟩ := solid_renderSettingValue hrendered
  obtain ⟨hsettingKey, hsections⟩ := key_setting setting hmem
  rw [hsection, hkey]
  refine h.setRawValue _ hsettingKey hsections ?_
  rintro _ ⟨⟩
  exact hsolid

theorem Readable.replaceListSection (h : d.Readable) {lowercase : Lowercase} {name : String}
    (hname : name.toList ∈ listSections) {entries normalized : List Chars}
    (hnormalized : normalizeListEntries lowercase entries = .ok normalized)
    (htight : ∀ entry ∈ entries, Tight (trim entry)) :
    (d.replaceListSection name normalized).Readable := by
  have htrim : ∀ name ∈ listSections, trim name = name := by decide
  change (d.replaceLines _ _ _).Readable
  refine h.replaceLines (htrim _ hname) (fun node hnode => ?_) fun node hnode => ?_
  · cases node with
    | «section» => rfl
    | _ => exact absurd hnode (by simp [IniNode.isAnySection])
  · obtain ⟨entry, hentry, rfl⟩ := List.mem_map.mp hnode
    obtain ⟨⟨given, hgiven, rfl⟩, hne, hhead⟩ := normalized_valid hnormalized entry hentry
    refine ⟨rfl, fun current hcurrent => ?_⟩
    have hreads := reads_listEntry hcurrent hname
      ⟨trim_trim given, hne, hhead, htight given hgiven⟩ d.isLineBreak_ending
    exact ⟨hreads, fun _ _ => hreads, fun target htarget => sameName_trans hcurrent htarget⟩

theorem Readable.setIndividuals (h : d.Readable) (lowercase : Lowercase)
    {entries : List IndividualSetting}
    (hplain : ∀ entry ∈ entries, trim entry.fontFace = entry.fontFace) :
    (setIndividuals lowercase entries d).2.Readable := by
  unfold ProfileDocument.setIndividuals
  cases hvalid : validateIndividuals lowercase entries with
  | error error => exact h
  | ok =>
    change (d.replaceLines _ _ _).Readable
    refine h.replaceLines (by decide) (fun node hnode => ?_) fun node hnode => ?_
    · cases node with
      | «section» => rfl
      | _ => exact absurd hnode (by simp [IniNode.isAnySection])
    · obtain ⟨entry, hentry, rfl⟩ := List.mem_map.mp hnode
      obtain ⟨hkey, hlength⟩ := validIndividual hvalid entry hentry (hplain entry hentry)
      refine ⟨rfl, fun current hcurrent => formed_entryNode hcurrent hkey.lead hkey.1
        (solid_commaSeparated (by simp [hlength]) fun part hpart => ?_) (isWhitespace_ending d)⟩
      obtain ⟨value, -, rfl⟩ := List.mem_map.mp hpart
      cases value with
      | none => simp
      | some n => exact solid_printInt n

theorem Readable.resetSettings (h : d.Readable) (list : List SettingDefinition) :
    (resetSettings list d).2.Readable := by
  induction list generalizing d with
  | nil => exact h
  | cons setting rest ih =>
    unfold ProfileDocument.resetSettings
    cases hrendered : renderSettingValue setting.id (.ofRat setting.factory) with
    | error error => exact h
    | ok rendered =>
      dsimp only
      split_ifs
      · exact ih h
      · exact ih (h.setSetting hrendered)

theorem Readable.edit (h : d.Readable) (lowercase : Lowercase) {request : EditRequest}
    (hplain : request.IsPlain) : (request.edit lowercase d).2.Readable := by
  cases request with
  | value settingId number =>
    change (setValue settingId number d).2.Readable
    unfold setValue
    cases hrendered : renderSettingValue settingId number with
    | error error => exact h
    | ok rendered => exact h.setSetting hrendered
  | individuals entries => exact h.setIndividuals lowercase hplain
  | list kind entries =>
    change (setList lowercase kind entries d).2.Readable
    unfold setList
    cases hkind : listSectionOf kind with
    | none => exact h
    | some name =>
      cases hnormalized : normalizeListEntries lowercase entries with
      | error error => exact h
      | ok normalized =>
        have hname : name.toList ∈ listSections := by
          unfold listSectionOf at hkind
          split at hkind <;> cases hkind <;> decide
        exact h.replaceListSection hname hnormalized hplain
  | advanced profile =>
    change (setAdvanced lowercase profile d).2.Readable
    unfold setAdvanced
    cases hrendered : renderAdvancedProfile lowercase profile with
    | error error => exact h
    | ok rendered =>
      obtain ⟨hsolid, hnormalized⟩ := solid_of_rendered hrendered
      obtain ⟨hkeys, hsections⟩ := key_advanced
      have hshadow := h.setRawValue "advanced:shadow" (hkeys "Shadow".toList (by decide)) hsections
        (hsolid rendered.shadow (by simp))
      have hweight := hshadow.setRawValue "advanced:lcdFilterWeight"
        (hkeys "LcdFilterWeight".toList (by decide)) hsections
        (hsolid rendered.lcdFilterWeight (by simp))
      have hlayout := hweight.setRawValue "advanced:pixelLayout"
        (hkeys "PixelLayout".toList (by decide)) hsections
        (hsolid rendered.pixelLayout (by simp))
      exact hlayout.replaceListSection List.mem_cons_self hnormalized hplain
  | resetToDefaults => exact h.resetSettings settings

/-! ## Runs -/

/-- The text of the document is cut into the lines of the document. -/
def LinesApart (d : ProfileDocument) : Prop :=
  splitLines (d.nodes.map IniNode.raw).flatten = d.nodes.map IniNode.raw

/-- The bytes of the document are decoded to its text. -/
def Recognised (pages : CodePages) (d : ProfileDocument) : Prop :=
  ∀ bytes, d.encoded pages = .ok bytes → ∃ encoding bom,
    decode pages bytes = .ok ((d.nodes.map IniNode.raw).flatten, encoding, bom)

instance (d : ProfileDocument) : Decidable d.LinesApart := inferInstanceAs (Decidable (_ = _))

/-- What a step may be: an edit with plain names, and a save of a document whose lines stay apart. -/
def FileAction.Admissible (pages : CodePages) (file : OpenFile) : FileAction → Prop
  | .act (.edit request) => request.IsPlain
  | .act .undo | .act .redo => True
  | .save _ => file.document.LinesApart ∧ file.document.Recognised pages

/-- All steps of the run are admissible. -/
def OpenFile.Admits (pages : CodePages) (hash : Bytes → Bytes) (lowercase : Lowercase)
    (file : OpenFile) : List FileAction → Prop
  | [] => True
  | action :: rest => action.Admissible pages file ∧
    OpenFile.Admits pages hash lowercase (action.perform pages hash lowercase file) rest

/-- The bytes are opened again as a profile that shows what the nodes show. -/
def ReadBack (pages : CodePages) (hash : Bytes → Bytes) (nodes : List IniNode) (bytes : Bytes) :
    Prop :=
  ∃ reopened, openBytes pages hash bytes = .ok reopened ∧ shown reopened.nodes = shown nodes

/-- Between two saves, with the nodes that were opened or saved last. -/
structure KeptReadable (pages : CodePages) (hash : Bytes → Bytes) (base : List IniNode)
    (file : OpenFile) : Prop where
  clean : CleanAs pages base file
  readable : ∀ revision ∈ file.document.timeline.line, FormedFrom [] revision.nodes
  readBack : ReadBack pages hash base file.saved

variable {pages : CodePages} {hash : Bytes → Bytes} {lowercase : Lowercase}

theorem recognised_of_mark {d : ProfileDocument} (hencoding : d.encoding = .utf8)
    (hbom : d.bom = .utf8) : d.Recognised pages := by
  intro bytes hencoded
  have hencode : encodeText pages (d.nodes.map IniNode.raw).flatten d.encoding d.bom = .ok bytes := by
    rw [← hencoded, encoded_eq]
    intro _ _ _ hcodec
    exact absurd (hencoding ▸ hcodec) nofun
  have hwritten := encodeText_eq_ok hencode
  simp only [hencoding, hbom, CodePages.legacyCodec, encode, if_true, Except.ok.injEq] at hwritten
  subst hwritten
  exact ⟨.utf8, .utf8, by simp [decode, fromUtf8_encodeUtf8]⟩

theorem readBack_encoded {d : ProfileDocument} {bytes : Bytes} (h : d.Readable)
    (hlines : d.LinesApart) (hrecognised : d.Recognised pages)
    (hencoded : d.encoded pages = .ok bytes) : ReadBack pages hash d.nodes bytes := by
  obtain ⟨encoding, bom, hdecode⟩ := hrecognised bytes hencoded
  have hsize : ¬Profile.maxProfileBytes < bytes.length := by
    unfold encoded at hencoded
    split at hencoded
    all_goals
      obtain ⟨found, -, hlimit⟩ := bind_eq_ok.mp hencoded
      dsimp only at hlimit
      split_ifs at hlimit with hlong
      rwa [Except.ok.inj hlimit] at hlong
  obtain ⟨reopened, hopen, hnodes⟩ : ∃ reopened, fromBytes pages hash bytes = .ok reopened ∧
      reopened.nodes = parseNodes (d.nodes.map IniNode.raw).flatten :=
    ⟨_, bind_eq_ok.mpr ⟨_, hdecode, rfl⟩, rfl⟩
  refine ⟨reopened, by rw [openBytes, if_neg hsize, hopen], ?_⟩
  rw [hnodes, parseNodes, hlines]
  exact shown_eq_of_forall₂ (forall₂_parseLines h)

theorem KeptReadable.perform {base : List IniNode} {file : OpenFile}
    (h : KeptReadable pages hash base file) {action : FileAction}
    (hadmissible : action.Admissible pages file) :
    ∃ base, KeptReadable pages hash base (action.perform pages hash lowercase file) := by
  have hpresent : file.document.Readable :=
    h.readable file.document.revision (List.mem_append_right _ List.mem_cons_self)
  cases action with
  | act action =>
    refine ⟨base, h.clean.act lowercase action, fun revision hrevision => ?_, h.readBack⟩
    obtain ⟨t, hperform, hline⟩ := perform_withTimeline lowercase action file.document
    change revision ∈ (action.perform lowercase file.document).timeline.line at hrevision
    rw [hperform] at hrevision
    rcases hline revision hrevision with hmem | ⟨request, rfl, rfl⟩
    · exact h.readable revision hmem
    · exact hpresent.edit lowercase hadmissible
  | save attempt =>
    rcases h.clean.save hash lowercase attempt rfl with hsame | ⟨hencoded, hline, hsaved⟩
    · exact ⟨base, hsame.symm ▸ h⟩
    · refine ⟨file.document.nodes, hsaved, fun revision hrevision => ?_,
        readBack_encoded hpresent hadmissible.1 hadmissible.2 hencoded⟩
      rw [hline, List.mem_singleton] at hrevision
      exact hrevision ▸ hpresent

theorem keptReadable_openBytes {bytes : Bytes} {opened : ProfileDocument}
    (hopen : openBytes pages hash bytes = .ok opened) :
    KeptReadable pages hash opened.nodes ⟨opened, bytes⟩ := by
  refine ⟨cleanAs_openBytes hopen, fun revision hrevision => ?_, opened, hopen, rfl⟩
  obtain ⟨hundo, hredo⟩ := histories_openBytes hopen
  unfold timeline Timeline.line at hrevision
  rw [hundo, hredo] at hrevision
  obtain rfl := List.mem_singleton.mp hrevision
  unfold openBytes at hopen
  split_ifs at hopen
  obtain ⟨⟨text, encoding, bom⟩, -, hopened⟩ := bind_eq_ok.mp hopen
  rw [← Except.ok.inj hopened]
  exact formedFrom_parseLines [] (splitLines text)

theorem exists_keptReadable_run (actions : List FileAction) {file : OpenFile}
    (h : ∃ base, KeptReadable pages hash base file)
    (hadmits : file.Admits pages hash lowercase actions) :
    ∃ base, KeptReadable pages hash base (file.run pages hash lowercase actions) := by
  unfold OpenFile.run
  induction actions generalizing file with
  | nil => exact h
  | cons action rest ih =>
    obtain ⟨base, hbase⟩ := h
    exact ih (hbase.perform hadmits.1) hadmits.2

/-- After any admissible steps, the payload of a document without dirty keys is what was opened or
saved last, and is read as what the editor shows. -/
theorem clean_payload_is_shown (lowercase : Lowercase) {bytes : Bytes} {opened : ProfileDocument}
    (hopen : openBytes pages hash bytes = .ok opened) (actions : List FileAction)
    (hadmits : OpenFile.Admits pages hash lowercase ⟨opened, bytes⟩ actions) :
    let file := OpenFile.run pages hash lowercase ⟨opened, bytes⟩ actions
    file.document.isDirty = false →
      file.document.encoded pages = .ok file.saved ∧
      file.document.activePayload pages = .ok file.saved ∧
      ReadBack pages hash file.document.nodes file.saved := by
  intro file hclean
  obtain ⟨hencoded, hpayload⟩ := clean_document_is_saved lowercase hopen actions
  rw [if_neg (ne_true_of_eq_false hclean)] at hpayload
  obtain ⟨base, hbase⟩ := exists_keptReadable_run actions
    ⟨opened.nodes, keptReadable_openBytes hopen⟩ hadmits
  have hkeys : file.document.dirtyKeys = ∅ := by simpa [isDirty] using hclean
  have hnodes : file.document.nodes = base :=
    hbase.clean.clean file.document.revision (List.mem_append_right _ List.mem_cons_self) hkeys
  exact ⟨hencoded hclean, hpayload, hnodes ▸ hbase.readBack⟩

/-- Sets the hinting mode and saves. -/
def savedHinting (bytes : Bytes) : List FileAction :=
  [.act (.edit (.value "hinting_mode" (.ofRat 2))), .save ⟨.ok bytes, .ok ()⟩]

def endedProfile : Bytes :=
  [0xEF, 0xBB, 0xBF] ++ encodeUtf8 "[General]\nNormalWeight=16\n".toList

/-- The new entry is a line of its own. -/
theorem ended_line_read_back : ∃ opened, openBytes westernPages id endedProfile = .ok opened ∧
    let file := OpenFile.run westernPages id id ⟨opened, endedProfile⟩ (savedHinting endedProfile)
    file.document.isDirty = false ∧
      file.document.activePayload westernPages = .ok file.saved ∧
      ReadBack westernPages id file.document.nodes file.saved := by
  refine ⟨_, rfl, ?_⟩
  intro file
  have hclean : file.document.isDirty = false := by decide +kernel
  exact ⟨hclean, (clean_payload_is_shown id rfl (savedHinting endedProfile)
    ⟨trivial, ⟨by decide +kernel, recognised_of_mark rfl rfl⟩, trivial⟩ hclean).2⟩

def unendedProfile : Bytes := encodeUtf8 "[General]\nNormalWeight=16".toList

/-- The weight that is shown without dirty keys after a run, and the one that is read again. -/
def weights (bytes : Bytes) (actions : List FileAction) : Option (Option Chars × Option Chars) :=
  match openBytes westernPages id bytes with
  | .error _ => none
  | .ok opened =>
    let file := OpenFile.run westernPages id id ⟨opened, bytes⟩ actions
    match openBytes westernPages id file.saved with
    | .error _ => none
    | .ok reopened =>
      if file.document.isDirty then none
      else some (rawValue file.document.nodes "General".toList "NormalWeight".toList,
        rawValue reopened.nodes "General".toList "NormalWeight".toList)

/-- The last line has no end, so the new entry is written behind it. -/
theorem unended_line_continued : ¬∀ bytes opened actions,
    openBytes westernPages id bytes = .ok opened →
      let file := OpenFile.run westernPages id id ⟨opened, bytes⟩ actions
      file.document.isDirty = false →
        ReadBack westernPages id file.document.nodes file.saved := by
  intro h
  have hweights : weights unendedProfile (savedHinting unendedProfile) =
      some (some "16".toList, some "16HintingMode=2".toList) := by decide +kernel
  unfold weights at hweights
  split at hweights
  · exact absurd hweights nofun
  · next opened hopen =>
    dsimp only at hweights
    split at hweights
    · exact absurd hweights nofun
    · next reopened hreopened =>
      split_ifs at hweights with hdirty
      obtain ⟨found, hfound, hshown⟩ := h unendedProfile opened (savedHinting unendedProfile) hopen
        (by simpa using hdirty)
      obtain rfl := Except.ok.inj (hfound.symm.trans hreopened)
      obtain ⟨hshows, hreads⟩ := Prod.mk.inj (Option.some.inj hweights)
      have hsame := congrArg (fun profile => profile.values[6]?) hshown
      exact absurd (hreads.symm.trans ((Option.some.inj hsame).trans hshows)) (by decide)

end ProfileDocument

end MacTypeControl.Editor
