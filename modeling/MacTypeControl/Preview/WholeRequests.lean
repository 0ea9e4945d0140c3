import MacTypeControl.Checks
import MacTypeControl.Preview.NativeWindow

/-!
# A native request is applied whole or not at all

What a request must hold for each field, exactly as it is checked, and the colours that any sequence
of requests leaves.
-/

namespace MacTypeControl.Preview

open Text

/-! ## Single fields -/

section

variable {α β : Type}

/-- A field is what is read from the value for it, or as it was. -/
def Given (value : Option α) (old new : β) (reads : α → β → Prop) : Prop :=
  match value with
  | some value => reads value new
  | none => new = old

/-- What a request has under the name is a value of the type. -/
def Typed (document : JsonDocument) (name : String) (value : Option α) : Prop :=
  document.containsRoot (key name) = true → value.isSome = true

theorem ok_eq_ok (a b : α) : (.ok a : Except Stop α) = .ok b ↔ b = a :=
  ⟨fun h => (Except.ok.inj h).symm, fun h => congrArg Except.ok h.symm⟩

theorem refuse_eq_ok (bad : Prop) [Decidable bad] (message : String) (a b : α) :
    (if bad then refuse message else .ok a) = .ok b ↔ ¬bad ∧ b = a := by
  split_ifs with hbad
  · exact ⟨nofun, fun h => absurd hbad h.1⟩
  · rw [ok_eq_ok]
    exact (and_iff_right hbad).symm

theorem assign_eq_ok {value : Option α} {old new : β} {read : α → Except Stop β}
    {reads : α → β → Prop} (hread : ∀ a b, read a = .ok b ↔ reads a b) :
    assign value old read = .ok new ↔ Given value old new reads := by
  cases value with
  | some a => exact hread a new
  | none => exact ok_eq_ok old new

theorem assignTyped_eq_ok {document : JsonDocument} {name type : String} {value : Option α}
    {old new : β} {read : α → Except Stop β} {reads : α → β → Prop}
    (hread : ∀ a b, read a = .ok b ↔ reads a b) :
    assignTyped document name type value old read = .ok new ↔
      Typed document name value ∧ Given value old new reads := by
  rw [← assign_eq_ok hread, assignTyped, Typed]
  cases hcontains : document.containsRoot (key name) <;> cases value <;> simp [refuse]

end

theorem key_injective : Function.Injective key := fun a b h => by
  have htext : some a.toList = some b.toList := by
    rw [← fromUtf8_encodeUtf8 a.toList, ← fromUtf8_encodeUtf8 b.toList]
    exact congrArg fromUtf8 h
  exact String.toList_injective (Option.some.inj htext)

def DisplayMode.names : DisplayMode → List String
  | .sample => ["sample", "default"]
  | .ladder => ["ladder"]
  | .compare => ["compare"]
  | .listing => ["listing"]

theorem readDisplayMode_eq_ok (name : List UInt8) (mode : DisplayMode) :
    readDisplayMode name = .ok mode ↔ name ∈ mode.names.map key := by
  unfold readDisplayMode
  split_ifs with hsample hladder hcompare hlisting
  · rcases hsample with rfl | rfl <;> cases mode <;>
      simp [DisplayMode.names, key_injective.eq_iff]
  · subst hladder
    cases mode <;> simp [DisplayMode.names, key_injective.eq_iff]
  · subst hcompare
    cases mode <;> simp [DisplayMode.names, key_injective.eq_iff]
  · subst hlisting
    cases mode <;> simp [DisplayMode.names, key_injective.eq_iff]
  · rw [not_or] at hsample
    cases mode <;> simp [DisplayMode.names, refuse, hsample, hladder, hcompare, hlisting]

def ReadsText (value : List UInt8) (text : List UInt16) : Prop :=
  text = utf8ToWide value ∧ text.length ≤ 4096

theorem readText_eq_ok (name : String) (value : List UInt8) (text : List UInt16) :
    readText name value = .ok text ↔ ReadsText value text := by
  rw [readText, refuse_eq_ok, ReadsText, not_lt, and_comm]
  constructor
  · rintro ⟨rfl, hlength⟩
    exact ⟨rfl, hlength⟩
  · rintro ⟨rfl, hlength⟩
    exact ⟨rfl, hlength⟩

def ReadsTheme (value : List UInt8) (darkTheme : Bool) : Prop :=
  value = if darkTheme then key "dark" else key "light"

theorem readTheme_eq_ok (value : List UInt8) (darkTheme : Bool) :
    readTheme value = .ok darkTheme ↔ ReadsTheme value darkTheme := by
  have hne : key "light" ≠ key "dark" := fun h => absurd (key_injective h) (by decide)
  rw [readTheme, ReadsTheme]
  by_cases hlight : value = key "light"
  · subst hlight
    cases darkTheme <;> simp [hne]
  · by_cases hdark : value = key "dark"
    · subst hdark
      cases darkTheme <;> simp [hlight]
    · cases darkTheme <;> simp [hlight, hdark, refuse]

theorem applyBoolean_eq_ok {document : JsonDocument} {name : String} {old new : Bool} :
    applyBoolean document name old = .ok new ↔
      Typed document name (document.rootBool (key name)) ∧
        Given (document.rootBool (key name)) old new fun value flag => flag = value :=
  assignTyped_eq_ok fun a b => ok_eq_ok a b

/-! ## Numbers -/

section

variable (numbers : Numbers)

/-- A whole number of the range of an `int` is cut to itself. -/
theorem int_cast {n : ℤ} (hlow : -2 ^ 31 ≤ n) (hhigh : n < 2 ^ 31) :
    numbers.int (n : ℚ) = n := by
  have hlow' : (-2 ^ 31 : ℚ) ≤ n := by exact_mod_cast hlow
  have hhigh' : (n : ℚ) < 2 ^ 31 := by exact_mod_cast hhigh
  rw [numbers.int_eq n (by linarith) hhigh', truncate, Rat.num_intCast, Rat.den_intCast]
  exact Int.tdiv_one n

/-- A value that its cut does not change, and whose cut is good, is a good whole number. -/
theorem cut_iff (good : ℤ → Prop) (hgood : ∀ n, good n → -2 ^ 31 ≤ n ∧ n < 2 ^ 31) (value : ℚ)
    (n : ℤ) : (value = numbers.int value ∧ good (numbers.int value)) ∧ n = numbers.int value ↔
      good n ∧ value = n := by
  constructor
  · rintro ⟨⟨hvalue, hcut⟩, rfl⟩
    exact ⟨hcut, hvalue⟩
  · rintro ⟨hn, rfl⟩
    rw [int_cast numbers (hgood n hn).1 (hgood n hn).2]
    exact ⟨⟨rfl, hn⟩, rfl⟩

def ReadsFontSize (token : List UInt8) (size : ℚ) : Prop :=
  4 ≤ numbers.double token ∧ numbers.double token ≤ 96 ∧ size = numbers.float (numbers.double token)

theorem readFontSize_eq_ok (token : List UInt8) (size : ℚ) :
    readFontSize numbers token = .ok size ↔ ReadsFontSize numbers token size := by
  rw [readFontSize, refuse_eq_ok, ReadsFontSize, not_or, not_lt, not_lt, and_assoc]

def ReadsZoom (token : List UInt8) (zoom : ℤ) : Prop :=
  (zoom = 1 ∨ zoom = 2 ∨ zoom = 4) ∧ numbers.double token = zoom

theorem readZoom_eq_ok (token : List UInt8) (zoom : ℤ) :
    readZoom numbers token = .ok zoom ↔ ReadsZoom numbers token zoom := by
  rw [readZoom, refuse_eq_ok, ReadsZoom, not_or, not_not,
    ← cut_iff numbers (fun n => n = 1 ∨ n = 2 ∨ n = 4) (by omega)]
  refine and_congr_left fun _ => and_congr_right fun _ => ?_
  omega

def ReadsSize (token : List UInt8) (size : ℚ) : Prop :=
  ∃ n : ℤ, (4 ≤ n ∧ n ≤ 96) ∧ numbers.double token = n ∧ size = numbers.float n

theorem readSize_eq_ok (token : List UInt8) (size : ℚ) :
    readSize numbers token = .ok size ↔ ReadsSize numbers token size := by
  rw [readSize, refuse_eq_ok, ReadsSize, not_or, not_not, not_or, not_lt, not_lt]
  constructor
  · rintro ⟨⟨hwhole, hrange⟩, rfl⟩
    exact ⟨_, hrange, hwhole, rfl⟩
  · rintro ⟨n, hrange, hvalue, rfl⟩
    obtain ⟨hcut, hn⟩ :=
      (cut_iff numbers (fun n => 4 ≤ n ∧ n ≤ 96) (by omega) _ n).mpr ⟨hrange, hvalue⟩
    exact ⟨hcut, by rw [← hn]⟩

/-- Every size is the whole number for it. -/
def ReadsSizes (tokens : List (List UInt8)) (sizes : List ℚ) : Prop :=
  1 ≤ tokens.length ∧ tokens.length ≤ 16 ∧ List.Forall₂ (ReadsSize numbers) tokens sizes

theorem mapM_eq_ok {α β : Type} {read : α → Except Stop β} {reads : α → β → Prop}
    (hread : ∀ a b, read a = .ok b ↔ reads a b) (xs : List α) (ys : List β) :
    xs.mapM read = .ok ys ↔ List.Forall₂ reads xs ys := by
  induction xs generalizing ys with
  | nil => exact (ok_eq_ok [] ys).trans (by rw [List.forall₂_nil_left_iff])
  | cons x xs ih =>
    rw [List.mapM_cons, bind_eq_ok, List.forall₂_cons_left_iff]
    constructor
    · rintro ⟨y, hy, h⟩
      obtain ⟨rest, hrest, h⟩ := bind_eq_ok.mp h
      exact ⟨y, rest, (hread x y).mp hy, (ih rest).mp hrest, (ok_eq_ok _ _).mp h⟩
    · rintro ⟨y, rest, hy, hrest, rfl⟩
      exact ⟨y, (hread x y).mpr hy, bind_eq_ok.mpr ⟨rest, (ih rest).mpr hrest, rfl⟩⟩

theorem readSizes_eq_ok (tokens : List (List UInt8)) (sizes : List ℚ) :
    readSizes numbers tokens = .ok sizes ↔ ReadsSizes numbers tokens sizes := by
  rw [readSizes, ReadsSizes, ← mapM_eq_ok (readSize_eq_ok numbers)]
  split_ifs with h
  · refine ⟨nofun, ?_⟩
    rintro ⟨hpositive, hlength, -⟩
    rcases h with rfl | h
    · exact absurd hpositive (by decide)
    · exact absurd h (Nat.not_lt.mpr hlength)
  · obtain ⟨hne, hlength⟩ := not_or.mp h
    exact ⟨fun hsizes => ⟨List.length_pos_iff.mpr hne, Nat.not_lt.mp hlength, hsizes⟩,
      fun hsizes => hsizes.2.2⟩

end

/-! ## Members -/

section

variable {M α β : Type} [DecidableEq M] {member : β → M} {read : β → Except Stop (Option α)}

/-- Each member has what is read for its binding, or its old value where nothing is. -/
theorem assignMembers_eq_ok {bindings : List β} (hdistinct : (bindings.map member).Nodup)
    {old new : M → α} : assignMembers bindings member read old = .ok new ↔
      (∀ binding ∈ bindings, ∃ found, read binding = .ok found ∧
        new (member binding) = found.getD (old (member binding))) ∧
      ∀ m, m ∉ bindings.map member → new m = old m := by
  unfold assignMembers
  induction bindings generalizing old with
  | nil =>
    rw [List.foldlM_nil]
    refine (ok_eq_ok old new).trans ?_
    simp [funext_iff]
  | cons binding bindings ih =>
    rw [List.map_cons, List.nodup_cons] at hdistinct
    obtain ⟨hfirst, hrest⟩ := hdistinct
    rw [List.foldlM_cons, bind_eq_ok, List.forall_mem_cons]
    -- one turn of the loop is one update of the member of the binding
    have hturn (values : M → α) : (do
        let value ← read binding
        match value with
        | some value => .ok (Function.update old (member binding) value)
        | none => .ok old) = (.ok values : Except Stop (M → α)) ↔
        ∃ found, read binding = .ok found ∧ values =
          Function.update old (member binding) (found.getD (old (member binding))) := by
      rw [bind_eq_ok]
      refine exists_congr fun found => and_congr_right fun _ => ?_
      cases found with
      | some value => exact ok_eq_ok _ _
      | none => rw [Option.getD_none, Function.update_eq_self]; exact ok_eq_ok _ _
    constructor
    · rintro ⟨values, hvalues, h⟩
      obtain ⟨found, hread, rfl⟩ := (hturn values).mp hvalues
      obtain ⟨hothers, hkept⟩ := (ih hrest).mp h
      refine ⟨⟨⟨found, hread, ?_⟩, fun other hother => ?_⟩, fun m hm => ?_⟩
      · rw [hkept _ hfirst, Function.update_self]
      · obtain ⟨value, hvalue, hnew⟩ := hothers other hother
        refine ⟨value, hvalue, ?_⟩
        rw [hnew, Function.update_of_ne]
        exact fun heq => hfirst (heq ▸ List.mem_map_of_mem hother)
      · rw [List.map_cons, List.mem_cons, not_or] at hm
        rw [hkept m hm.2, Function.update_of_ne hm.1]
    · rintro ⟨⟨⟨found, hread, hnew⟩, hothers⟩, hkept⟩
      refine ⟨_, (hturn _).mpr ⟨found, hread, rfl⟩, (ih hrest).mpr ⟨fun other hother => ?_, ?_⟩⟩
      · obtain ⟨value, hvalue, hother'⟩ := hothers other hother
        refine ⟨value, hvalue, ?_⟩
        rw [hother', Function.update_of_ne]
        exact fun heq => hfirst (heq ▸ List.mem_map_of_mem hother)
      · intro m hm
        by_cases heq : m = member binding
        · rw [heq, hnew, Function.update_self]
        · rw [Function.update_of_ne heq]
          exact hkept m (by simp [heq, hm])

/-- Where every member has a binding none keeps its value unseen. -/
theorem assignMembers_total {bindings : List β} (hdistinct : (bindings.map member).Nodup)
    (hall : ∀ m, m ∈ bindings.map member) {old new : M → α} :
    assignMembers bindings member read old = .ok new ↔ ∀ binding ∈ bindings, ∃ found,
      read binding = .ok found ∧ new (member binding) = found.getD (old (member binding)) := by
  rw [assignMembers_eq_ok hdistinct]
  exact and_iff_left fun m hm => absurd (hall m) hm

end

/-! ## The chrome -/

section

variable (numbers : Numbers)

/-- The chrome that a request asks for: every member has its value. -/
structure ChromeOf (object : JsonObject) (chrome : NativeChrome) : Prop where
  skin : object.jsonString (key "skin") = some (key "classic")
  palette : ∀ binding ∈ colorBindings, ∃ value, object.jsonString (key binding.2) = some value ∧
    parseColor value = some (chrome.palette binding.1)
  metrics : ∀ binding ∈ metricBindings, ∃ token,
    object.jsonNumber (key binding.key) = some token ∧
    (binding.minimum ≤ chrome.metrics binding.member ∧
      chrome.metrics binding.member ≤ binding.maximum) ∧
    numbers.double token = chrome.metrics binding.member
  monoStatus : object.jsonBool (key "monoStatus") = some chrome.monoStatus

theorem readSkin_eq_ok {object : JsonObject} {skin : Skin} :
    readSkin object = .ok skin ↔ object.jsonString (key "skin") = some (key "classic") := by
  rw [readSkin]
  cases object.jsonString (key "skin") with
  | none => exact iff_of_false nofun nofun
  | some name =>
    cases skin
    by_cases hname : name = key "classic"
    · simp [hname]
    · simp [hname, refuse]

theorem readColor_eq_ok {object : JsonObject} {binding : PaletteMember × String}
    {old new : Color} :
    (∃ found, readColor object binding = .ok found ∧ new = found.getD old) ↔
      ∃ value, object.jsonString (key binding.2) = some value ∧ parseColor value = some new := by
  rw [readColor]
  cases object.jsonString (key binding.2) with
  | none => simp [refuse]
  | some value =>
    cases hcolor : parseColor value with
    | none => simp [hcolor, refuse]
    | some color => simp [hcolor, eq_comm]

theorem metricBindings_small : ∀ binding ∈ metricBindings,
    -2 ^ 31 ≤ binding.minimum ∧ binding.maximum < 2 ^ 31 := by
  decide

theorem readMetric_eq_ok {object : JsonObject} {binding : MetricBinding}
    (hbinding : binding ∈ metricBindings) {old new : ℤ} :
    (∃ found, readMetric numbers object binding = .ok found ∧ new = found.getD old) ↔
      ∃ token, object.jsonNumber (key binding.key) = some token ∧
        (binding.minimum ≤ new ∧ new ≤ binding.maximum) ∧ numbers.double token = new := by
  obtain ⟨hminimum, hmaximum⟩ := metricBindings_small binding hbinding
  rw [readMetric]
  cases object.jsonNumber (key binding.key) with
  | none => simp [refuse]
  | some token =>
    have hcut := cut_iff numbers (fun n => binding.minimum ≤ n ∧ n ≤ binding.maximum)
      (fun n hn => ⟨by omega, by omega⟩) (numbers.double token) new
    simp only [refuse_eq_ok, Option.some.injEq, exists_eq_left']
    rw [← hcut]
    constructor
    · rintro ⟨found, ⟨hgood, rfl⟩, rfl⟩
      obtain ⟨hwhole, hrange⟩ := not_or.mp hgood
      have hvalue := not_not.mp hwhole
      rw [not_or, not_lt, not_lt, hvalue, Int.cast_le, Int.cast_le] at hrange
      exact ⟨⟨hvalue, hrange⟩, rfl⟩
    · rintro ⟨⟨hvalue, hrange⟩, rfl⟩
      refine ⟨_, ⟨?_, rfl⟩, rfl⟩
      rw [not_or, not_or, not_not, not_lt, not_lt]
      refine ⟨hvalue, ?_, ?_⟩
      · rw [hvalue]
        exact_mod_cast hrange.1
      · rw [hvalue]
        exact_mod_cast hrange.2

theorem readMonoStatus_eq_ok {object : JsonObject} {mono : Bool} :
    readMonoStatus object = .ok mono ↔ object.jsonBool (key "monoStatus") = some mono := by
  rw [readMonoStatus]
  cases object.jsonBool (key "monoStatus") with
  | none => exact iff_of_false nofun nofun
  | some value => simp

theorem readPalette_eq_ok {object : JsonObject} {old new : PaletteMember → Color} :
    assignMembers colorBindings Prod.fst (readColor object) old = .ok new ↔
      ∀ binding ∈ colorBindings, ∃ value, object.jsonString (key binding.2) = some value ∧
        parseColor value = some (new binding.1) := by
  rw [assignMembers_total (by decide) (by decide)]
  exact forall₂_congr fun _ _ => readColor_eq_ok

theorem readMetrics_eq_ok {object : JsonObject} {old new : MetricMember → ℤ} :
    assignMembers metricBindings MetricBinding.member (readMetric numbers object) old = .ok new ↔
      ∀ binding ∈ metricBindings, ∃ token, object.jsonNumber (key binding.key) = some token ∧
        (binding.minimum ≤ new binding.member ∧ new binding.member ≤ binding.maximum) ∧
        numbers.double token = new binding.member := by
  rw [assignMembers_total (by decide) (by decide)]
  exact forall₂_congr fun _ hbinding => readMetric_eq_ok numbers hbinding

theorem readChrome_eq_ok {object : JsonObject} {chrome : NativeChrome} :
    readChrome numbers object = .ok chrome ↔ ChromeOf numbers object chrome := by
  simp only [readChrome, bind_eq_ok, readSkin_eq_ok, readPalette_eq_ok, readMetrics_eq_ok,
    readMonoStatus_eq_ok]
  constructor
  · rintro ⟨skin, hskin, palette, hpalette, metrics, hmetrics, mono, hmono, h⟩
    obtain rfl := (ok_eq_ok _ _).mp h
    exact ⟨hskin, hpalette, hmetrics, hmono⟩
  · intro h
    exact ⟨chrome.skin, h.skin, chrome.palette, h.palette, chrome.metrics, h.metrics,
      chrome.monoStatus, h.monoStatus, rfl⟩

/-- The chrome is the one of the request, or none. -/
def ChromeGiven (document : JsonDocument) (new : Option NativeChrome) : Prop :=
  match document.object (key "chrome") with
  | some object => ∃ chrome, new = some chrome ∧ ChromeOf numbers object chrome
  | none => new = none

theorem pendingChrome_eq_ok {document : JsonDocument} {new : Option NativeChrome} :
    pendingChrome numbers document = .ok new ↔ ChromeGiven numbers document new := by
  rw [pendingChrome, ChromeGiven]
  cases document.object (key "chrome") with
  | none => exact ok_eq_ok none new
  | some object =>
    refine map_eq_ok.trans (exists_congr fun chrome => ?_)
    rw [readChrome_eq_ok, and_comm, eq_comm]

end

/-! ## The labels -/

def ReadsLabel (value : List UInt8) (label : List UInt16) : Prop :=
  value.length ≤ 256 ∧ label = utf8ToWide value

def labelValue (document : JsonDocument) (name : String) : Option (List UInt8) :=
  (document.object (key "labels")).bind fun object => object.jsonString (key name)

def LabelsGiven (document : JsonDocument) (old new : NativePreviewLabels) : Prop :=
  ∀ binding ∈ kNativeLabelBindings,
    Given (labelValue document binding.2) (old binding.1) (new binding.1) ReadsLabel

theorem readLabels_eq_ok {document : JsonDocument} {old new : NativePreviewLabels} :
    assignMembers kNativeLabelBindings Prod.fst
      (readLabel (document.object (key "labels"))) old = .ok new ↔
      LabelsGiven document old new := by
  rw [assignMembers_total (by decide) (by decide)]
  refine forall₂_congr fun binding _ => ?_
  rw [readLabel, ← labelValue]
  cases labelValue document binding.2 with
  | none => simp [Given]
  | some value =>
    simp only [refuse_eq_ok, Given, ReadsLabel]
    constructor
    · rintro ⟨found, ⟨hlength, rfl⟩, hnew⟩
      exact ⟨Nat.not_lt.mp hlength, hnew⟩
    · rintro ⟨hlength, hnew⟩
      exact ⟨_, ⟨Nat.not_lt.mpr hlength, rfl⟩, hnew⟩

/-! ## The colours -/

/-- The foreground and the background of the window that is not inverted. -/
def NativeColors.base (colors : NativeColors) : Color × Color :=
  if colors.inverted then (colors.background, colors.foreground)
  else (colors.foreground, colors.background)

def givenColor (document : JsonDocument) (name : String) : Option Color :=
  (document.rootString (key name)).bind parseColor

structure ColorsGiven (document : JsonDocument) (old new : NativeColors) : Prop where
  inverted_typed : Typed document "inverted" (document.rootBool (key "inverted"))
  inverted : new.inverted = (document.rootBool (key "inverted")).getD old.inverted
  foreground : new.base.1 = (givenColor document "foreground").getD old.base.1
  background : new.base.2 = (givenColor document "background").getD old.base.2

theorem NativeColors.ext_base {colors other : NativeColors} (hbase : colors.base = other.base)
    (hinverted : colors.inverted = other.inverted) : colors = other := by
  obtain ⟨foreground, background, inverted⟩ := colors
  obtain ⟨foreground', background', inverted'⟩ := other
  obtain rfl : inverted = inverted' := hinverted
  cases inverted <;> cases hbase <;> rfl

/-- Swapping for the change and swapping back leaves the pair that is not inverted. -/
theorem recolor_base (foreground background : Option (List UInt8)) (desired : Bool)
    (colors : NativeColors) : (recolor foreground background desired colors).base =
      ((foreground.bind parseColor).getD colors.base.1,
        (background.bind parseColor).getD colors.base.2) := by
  obtain ⟨old, oldBackground, inverted⟩ := colors
  cases foreground <;> cases background <;> cases inverted <;> cases desired <;>
    simp [recolor, NativeColors.base, NativeColors.swap, parseColorOr]

theorem recolor_inverted (foreground background : Option (List UInt8)) (desired : Bool)
    (colors : NativeColors) : (recolor foreground background desired colors).inverted = desired := by
  unfold recolor
  dsimp only
  split_ifs with hswapped hdesired hdesired
  · rfl
  · exact (not_not.mp hdesired).symm
  · rfl
  · exact (not_not.mp hdesired).symm

theorem pendingColors_eq_ok {document : JsonDocument} {old new : NativeColors} :
    pendingColors document old = .ok new ↔ ColorsGiven document old new := by
  have hflag (flag : Bool) : Given (document.rootBool (key "inverted")) old.inverted flag
      (fun value flag => flag = value) ↔
      flag = (document.rootBool (key "inverted")).getD old.inverted := by
    cases document.rootBool (key "inverted") <;> rfl
  simp only [pendingColors, bind_eq_ok, applyBoolean_eq_ok, hflag, ok_eq_ok]
  constructor
  · rintro ⟨desired, ⟨htyped, rfl⟩, rfl⟩
    exact ⟨htyped, recolor_inverted _ _ _ _, congrArg Prod.fst (recolor_base _ _ _ _),
      congrArg Prod.snd (recolor_base _ _ _ _)⟩
  · intro h
    refine ⟨_, ⟨h.inverted_typed, rfl⟩, NativeColors.ext_base ?_ ?_⟩
    · rw [recolor_base]
      exact Prod.ext h.foreground h.background
    · rw [recolor_inverted, h.inverted]

/-! ## The request -/

section

variable (numbers : Numbers)

/-- What an accepted request makes of the state: each field of the request is of its type, within
its range and applied, and the fields that it does not give are as they were. -/
structure Applied (document : JsonDocument) (old new : NativeState) : Prop where
  displayMode : Given (document.rootString (key "displayMode")) old.displayMode new.displayMode
    fun name mode => name ∈ mode.names.map key
  text : Given (document.rootString (key "text")) old.sample.text new.sample.text ReadsText
  listingText : Given (document.rootString (key "listingText")) old.listingText new.listingText
    ReadsText
  fontFace : Given (document.rootString (key "fontFace")) old.sample.fontFace new.sample.fontFace
    fun value face => face = utf8ToWide value
  fontSizePt : Typed document "fontSizePt" (document.rootNumber (key "fontSizePt")) ∧
    Given (document.rootNumber (key "fontSizePt")) old.sample.fontSizePt new.sample.fontSizePt
      (ReadsFontSize numbers)
  bold : Typed document "bold" (document.rootBool (key "bold")) ∧
    Given (document.rootBool (key "bold")) old.sample.bold new.sample.bold
      fun value flag => flag = value
  italic : Typed document "italic" (document.rootBool (key "italic")) ∧
    Given (document.rootBool (key "italic")) old.sample.italic new.sample.italic
      fun value flag => flag = value
  topmost : Typed document "topmost" (document.rootBool (key "topmost")) ∧
    Given (document.rootBool (key "topmost")) old.topmost new.topmost fun value flag => flag = value
  theme : Given (document.rootString (key "theme")) old.darkTheme new.darkTheme ReadsTheme
  zoom : Typed document "zoom" (document.rootNumber (key "zoom")) ∧
    Given (document.rootNumber (key "zoom")) old.zoom new.zoom (ReadsZoom numbers)
  sizes : Typed document "sizes" (document.rootNumberArray (key "sizes")) ∧
    Given (document.rootNumberArray (key "sizes")) old.ladderSizes new.ladderSizes
      (ReadsSizes numbers)
  chrome : ChromeGiven numbers document new.chrome
  colors : ColorsGiven document old.colors new.colors
  labels : LabelsGiven document old.labels new.labels

theorem pendingNativeState_eq_ok {document : JsonDocument} {old new : NativeState} :
    pendingNativeState numbers document old = .ok new ↔ Applied numbers document old new := by
  simp only [pendingNativeState, bind_eq_ok, assign_eq_ok readDisplayMode_eq_ok,
    assign_eq_ok (readText_eq_ok _), assign_eq_ok fun value face => ok_eq_ok (utf8ToWide value) face,
    assignTyped_eq_ok (readFontSize_eq_ok numbers), applyBoolean_eq_ok,
    assign_eq_ok readTheme_eq_ok, assignTyped_eq_ok (readZoom_eq_ok numbers),
    assignTyped_eq_ok (readSizes_eq_ok numbers), pendingChrome_eq_ok, pendingColors_eq_ok,
    readLabels_eq_ok]
  constructor
  · rintro ⟨mode, hmode, text, htext, listing, hlisting, face, hface, size, hsize, bold, hbold,
      italic, hitalic, topmost, htopmost, dark, hdark, zoom, hzoom, sizes, hsizes, chrome, hchrome,
      colors, hcolors, labels, hlabels, h⟩
    obtain rfl := (ok_eq_ok _ _).mp h
    exact ⟨hmode, htext, hlisting, hface, hsize, hbold, hitalic, htopmost, hdark, hzoom, hsizes,
      hchrome, hcolors, hlabels⟩
  · intro h
    exact ⟨_, h.displayMode, _, h.text, _, h.listingText, _, h.fontFace, _, h.fontSizePt, _, h.bold,
      _, h.italic, _, h.topmost, _, h.theme, _, h.zoom, _, h.sizes, _, h.chrome, _, h.colors, _,
      h.labels, rfl⟩

end

end MacTypeControl.Preview
