import MacTypeControl.Relay.ImagePath
import MacTypeControl.Relay.UninstallerNames

/-!
# The relay and the service leave the same processes alone

Both ask the system the same questions about a process. Their tables of names and their matchers
for uninstallers are written apart.
-/

namespace MacTypeControl.Relay

open Injection Text

/-! ## The observation -/

structure DynamicCodePolicy where
  prohibitDynamicCode : Bool
  allowThreadOptOut : Bool

structure BinarySignaturePolicy where
  microsoftSignedOnly : Bool
  storeSignedOnly : Bool
  mitigationOptIn : Bool

/-- What the system answers about a process, to either of them. A query that fails has no answer. -/
structure TargetObservation where
  pid : ℕ
  creationTime : ℕ
  sessionId : ℕ
  architecture : ProcessArchitecture
  protectionLevel : Option ℕ
  critical : Option Bool
  image : Option ImagePath
  dynamicCode : Option DynamicCodePolicy
  signature : Option BinarySignaturePolicy

namespace TargetObservation

variable (o : TargetObservation)

def queryHookCompatibility : HookCompatibilityEvidence where
  dynamicCodeQuerySucceeded := o.dynamicCode.isSome
  prohibitDynamicCode := o.dynamicCode.any (·.prohibitDynamicCode)
  allowThreadOptOut := o.dynamicCode.any (·.allowThreadOptOut)
  signatureQuerySucceeded := o.signature.isSome
  microsoftSignedOnly := o.signature.any (·.microsoftSignedOnly)
  storeSignedOnly := o.signature.any (·.storeSignedOnly)
  mitigationOptIn := o.signature.any (·.mitigationOptIn)

/-- The observation as the relay makes it. -/
def answers : TargetAnswers where
  protectionLevel := o.protectionLevel
  critical := o.critical
  image := o.image.map fun path => path.text.map wideChar
  mitigations := o.queryHookCompatibility

def isProtectedOrUnknown : Bool :=
  match o.protectionLevel with
  | none => true
  | some level => level != protectionLevelNone

def isCriticalOrUnknown : Bool :=
  match o.critical with
  | none => true
  | some critical => critical

/-- The image name of the service, in lower case. -/
def serviceImageName : Option String :=
  (o.image.bind fun path => fileName path.text).map fun name =>
    String.ofList ((decodeUtf16Lossy name).map toAsciiLowercase)

/-- The observation as the service makes it. -/
def inspected : InspectedProcess where
  identity := ⟨o.pid, o.creationTime, o.sessionId, o.architecture, o.isProtectedOrUnknown⟩
  facts :=
    { criticalOrUnknown := o.isCriticalOrUnknown
      prohibitsDynamicCode := o.dynamicCode.any fun policy =>
        policy.prohibitDynamicCode && !policy.allowThreadOptOut
      restrictsBinarySignature := o.signature.any fun policy =>
        policy.microsoftSignedOnly || policy.storeSignedOnly || policy.mitigationOptIn
      imageName := o.serviceImageName }

end TargetObservation

/-- The names, in lower case, that are in the tables of both. -/
def sharedNames : List String :=
  ["smss.exe", "csrss.exe", "wininit.exe", "winlogon.exe", "services.exe", "lsass.exe",
    "fontdrvhost.exe", "mactype-service-setup.exe"]

/-- The binaries that only the relay has in its table. -/
def ownBinaries : List String :=
  ["mactype-service.exe", "mactype-injector32.exe", "mactype-injector64.exe"]

/-- The name, in lower case, is one that neither of them touches. -/
def IsExcludedName (name : List Char) : Prop :=
  (∃ excluded ∈ sharedNames, name = excluded.toList) ∨ IsUninstallerName name

def IsOwnBinary (name : List Char) : Prop := ∃ own ∈ ownBinaries, name = own.toList

theorem ofList_mem {name : List Char} {names : List String} :
    String.ofList name ∈ names ↔ ∃ listed ∈ names, name = listed.toList := by
  constructor
  · intro h
    exact ⟨_, h, String.toList_ofList.symm⟩
  · intro ⟨listed, hlisted, hname⟩
    rwa [hname, String.ofList_toList]

theorem isExcludedName_of_service {name : List Char} :
    (isImportantWindowsProcess (String.ofList name) ||
      isInstallerControlProcess (String.ofList name)) = true ↔ IsExcludedName name := by
  have hshared : (isImportantWindowsProcess (String.ofList name) ||
      String.ofList name == "mactype-service-setup.exe") = true ↔
        String.ofList name ∈ sharedNames := by
    simp [isImportantWindowsProcess, sharedNames, or_assoc]
  unfold isInstallerControlProcess IsExcludedName
  rw [← Bool.or_assoc, Bool.or_eq_true, hshared, uninstaller_of_service, ofList_mem]

theorem excluded_of_relay {name : List Char} (hname : name ≠ []) :
    isPolicyExcludedImage name = true ↔
      IsExcludedName (name.map Char.toLower) ∨ IsOwnBinary (name.map Char.toLower) := by
  have hperm : exactNames.Perm (sharedNames ++ ownBinaries) := by decide
  have hlower : ∀ excluded ∈ exactNames, excluded.toList.map Char.toLower = excluded.toList := by
    decide
  have hexact : exactNames.any (fun excluded => sameIgnoringCase name excluded.toList) = true ↔
      (∃ excluded ∈ sharedNames, name.map Char.toLower = excluded.toList) ∨
        IsOwnBinary (name.map Char.toLower) := by
    rw [List.any_eq_true]
    unfold IsOwnBinary
    constructor
    · intro ⟨excluded, hmem, hsame⟩
      have hlowered := (sameIgnoringCase_iff.1 hsame).trans (hlower excluded hmem)
      rcases List.mem_append.1 (hperm.mem_iff.1 hmem) with hshared | hown
      · exact Or.inl ⟨excluded, hshared, hlowered⟩
      · exact Or.inr ⟨excluded, hown, hlowered⟩
    · intro h
      obtain ⟨excluded, hmem, hlowered⟩ : ∃ excluded ∈ sharedNames ++ ownBinaries,
          name.map Char.toLower = excluded.toList := by
        rcases h with ⟨excluded, hmem, hlowered⟩ | ⟨excluded, hmem, hlowered⟩
        · exact ⟨excluded, List.mem_append_left _ hmem, hlowered⟩
        · exact ⟨excluded, List.mem_append_right _ hmem, hlowered⟩
      have hexcluded := hperm.mem_iff.2 hmem
      exact ⟨excluded, hexcluded,
        sameIgnoringCase_iff.2 (hlowered.trans (hlower excluded hexcluded).symm)⟩
  unfold isPolicyExcludedImage IsExcludedName
  rw [Bool.and_eq_true, bne_iff_ne, and_iff_right hname, Bool.or_eq_true, hexact,
    uninstaller_of_relay]
  exact or_right_comm

/-! ### The name is read alike -/

theorem isAscii_of_lower {text : List Char} (h : IsAscii (text.map toAsciiLowercase)) :
    IsAscii text := by
  intro c hc
  have hlower := h _ (List.mem_map_of_mem hc)
  unfold toAsciiLowercase at hlower
  split at hlower
  · next hupper =>
    have hrange : c.toNat ≤ 90 := hupper.2
    omega
  · exact hlower

theorem isAscii_toList {names : List String} (hnames : ∀ name ∈ names, IsAscii name.toList)
    {text : List Char} (h : ∃ name ∈ names, text = name.toList) : IsAscii text := by
  obtain ⟨name, hname, rfl⟩ := h
  exact hnames name hname

instance (text : List Char) : Decidable (IsAscii text) :=
  List.decidableBAll (fun c : Char => c.toNat < 0x80) text

theorem isAscii_of_uninstallerName {text : List Char} (h : IsUninstallerName text) :
    IsAscii text := by
  obtain ⟨lead, digits, extension, hlead, hdigits, hextension, rfl⟩ := h
  intro c hc
  simp only [List.mem_append, List.mem_cons] at hc
  have hleadAscii : IsAscii lead := by
    rcases hlead with rfl | rfl <;> decide
  have hextensionAscii : IsAscii extension := by
    rcases hextension with rfl | rfl <;> decide
  have huninsAscii : IsAscii "unins".toList := by decide
  rcases hc with hc | hc | hc | rfl | hc
  · exact hleadAscii c hc
  · exact huninsAscii c hc
  · have hrange : c.toNat ≤ 57 := (isDigit_iff.1 (hdigits c hc)).2
    omega
  · decide
  · exact hextensionAscii c hc

theorem isAscii_of_excludedName {text : List Char} (h : IsExcludedName text) : IsAscii text := by
  rcases h with h | h
  · exact isAscii_toList (by decide) h
  · exact isAscii_of_uninstallerName h

/-- A name is excluded by the service when it is excluded by the relay. -/
theorem isExcludedName_iff (name : Units) :
    IsExcludedName ((decodeUtf16Lossy name).map toAsciiLowercase) ↔
      IsExcludedName ((name.map wideChar).map Char.toLower) := by
  have hlower : (name.map wideChar).map Char.toLower =
      (name.map wideChar).map toAsciiLowercase := List.map_congr_left fun c _ => toLower_eq c
  rw [hlower]
  constructor
  · intro h
    rwa [← decodeUtf16Lossy_of_ascii (Or.inl (isAscii_of_lower (isAscii_of_excludedName h)))]
  · intro h
    rwa [decodeUtf16Lossy_of_ascii (Or.inr (isAscii_of_lower (isAscii_of_excludedName h)))]

theorem wideChar_ne_backslash {unit : UInt16} (h : unit ≠ backslash) : wideChar unit ≠ '\\' := by
  unfold wideChar
  split
  · decide
  · next hplain =>
    intro hsame
    apply h
    have hvalid : unit.toNat.isValidChar := by
      simp only [isSurrogate, Bool.and_eq_true, decide_eq_true_eq, UInt16.le_iff_toNat_le,
        UInt16.reduceToNat] at hplain
      have := unit.toNat_lt
      unfold Nat.isValidChar
      omega
    apply UInt16.toNat_inj.1
    rw [← toNat_ofNat hvalid, hsame]
    rfl

/-- The relay reads the name of an image too. -/
theorem imageName_text (path : ImagePath) :
    imageName (path.text.map wideChar) = some (path.name.map wideChar) := by
  have hlength : 0 < path.text.length ∧ path.text.length < 32768 := by
    refine ⟨?_, path.length_lt⟩
    unfold ImagePath.text
    rw [List.length_append, List.length_cons]
    omega
  have hnot : '\\' ∉ path.name.map wideChar := by
    intro hmem
    obtain ⟨unit, hunit, hsame⟩ := List.mem_map.1 hmem
    refine wideChar_ne_backslash ?_ hsame
    rintro rfl
    have := path.name_name.not_separator backslash hunit
    cases this
  have hlast : fromLast '\\' (path.text.map wideChar) = some ('\\' :: path.name.map wideChar) := by
    unfold ImagePath.text
    rw [List.map_append, List.map_cons]
    exact fromLast_append hnot _
  have hname : path.name.map wideChar ≠ [] := by
    simpa using path.name_name.nonempty
  unfold imageName
  rw [List.length_map, if_neg (by omega)]
  simp only [hlast, List.tail_cons]
  exact if_neg hname

/-! ### The decisions -/

namespace TargetObservation

variable (o : TargetObservation)

/-- The image of the process has a name that is excluded by both. -/
def HasExcludedName : Prop :=
  ∃ path, o.image = some path ∧ IsExcludedName ((path.name.map wideChar).map Char.toLower)

/-- The process is one of the binaries that only the relay has in its table. -/
def HasOwnName : Prop :=
  ∃ path, o.image = some path ∧ IsOwnBinary ((path.name.map wideChar).map Char.toLower)

/-- What keeps both away from a process, whatever its name is. -/
def IsKeptAway : Prop :=
  o.sessionId = 0 ∨ o.isProtectedOrUnknown = true ∨ o.isCriticalOrUnknown = true ∨
    o.image = none ∨
    (o.dynamicCode.any fun policy => policy.prohibitDynamicCode && !policy.allowThreadOptOut) ∨
    (o.signature.any fun policy =>
      policy.microsoftSignedOnly || policy.storeSignedOnly || policy.mitigationOptIn)

variable {o}

theorem serviceImageName_of_image {path : ImagePath} (himage : o.image = some path) :
    o.serviceImageName =
      some (String.ofList ((decodeUtf16Lossy path.name).map toAsciiLowercase)) := by
  unfold serviceImageName
  rw [himage, Option.bind_some, fileName_text]
  rfl

theorem isSome_ite_some {α : Type} {c : Prop} [Decidable c] {a : α} {x : Option α} :
    (if c then some a else x).isSome = true ↔ c ∨ x.isSome = true := by
  by_cases h : c <;> simp [h]

/-- The service skips a process by its own number, by what keeps both away, or by its name. -/
theorem inspectionSkip_iff (o : TargetObservation) (servicePid : ℕ) :
    (∃ reason, inspectionSkip servicePid o.inspected = some reason) ↔
      o.pid = servicePid ∨ o.IsKeptAway ∨ o.HasExcludedName := by
  rw [← Option.isSome_iff_exists]
  cases himage : o.image with
  | none =>
    have hname : o.serviceImageName = none := by
      unfold serviceImageName
      rw [himage]
      rfl
    have haway : o.IsKeptAway := Or.inr (Or.inr (Or.inr (Or.inl himage)))
    have hskip : (inspectionSkip servicePid o.inspected).isSome = true := by
      unfold inspectionSkip
      simp only [inspected, hname]
      split_ifs <;> rfl
    exact ⟨fun _ => Or.inr (Or.inl haway), fun _ => hskip⟩
  | some path =>
    have hname := serviceImageName_of_image himage
    have hexcluded : o.HasExcludedName ↔ (isImportantWindowsProcess
        (String.ofList ((decodeUtf16Lossy path.name).map toAsciiLowercase)) ||
          isInstallerControlProcess
            (String.ofList ((decodeUtf16Lossy path.name).map toAsciiLowercase))) = true := by
      rw [isExcludedName_of_service, isExcludedName_iff]
      constructor
      · intro ⟨other, hother, hexcluded⟩
        rw [himage, Option.some.injEq] at hother
        rwa [hother]
      · intro hexcluded
        exact ⟨path, himage, hexcluded⟩
    have haway : o.IsKeptAway ↔ o.sessionId = 0 ∨ o.isProtectedOrUnknown = true ∨
        o.isCriticalOrUnknown = true ∨ o.inspected.facts.prohibitsDynamicCode = true ∨
          o.inspected.facts.restrictsBinarySignature = true := by
      unfold IsKeptAway
      rw [himage]
      simp [inspected]
    rw [hexcluded, haway]
    unfold inspectionSkip
    have hfacts : o.inspected.facts.imageName = some (String.ofList
        ((decodeUtf16Lossy path.name).map toAsciiLowercase)) := hname
    dsimp only
    rw [hfacts, Bool.or_eq_true]
    simp only [isSome_ite_some, Option.isSome_none, Bool.false_eq_true, or_false, or_assoc]
    rfl

theorem classifyHookCompatibility_iff (o : TargetObservation) :
    classifyHookCompatibility o.queryHookCompatibility = .compatible ↔
      o.inspected.facts.prohibitsDynamicCode = false ∧
        o.inspected.facts.restrictsBinarySignature = false := by
  have hsignature : ∀ signature : Option BinarySignaturePolicy,
      (signature.isSome && (signature.any (·.microsoftSignedOnly) ||
        signature.any (·.storeSignedOnly) || signature.any (·.mitigationOptIn))) =
      signature.any fun policy =>
        policy.microsoftSignedOnly || policy.storeSignedOnly || policy.mitigationOptIn := by
    intro signature
    cases signature <;> rfl
  have hdynamic : ∀ dynamicCode : Option DynamicCodePolicy,
      (dynamicCode.isSome && dynamicCode.any (·.prohibitDynamicCode) &&
        !dynamicCode.any (·.allowThreadOptOut)) =
      dynamicCode.any fun policy => policy.prohibitDynamicCode && !policy.allowThreadOptOut := by
    intro dynamicCode
    cases dynamicCode <;> rfl
  unfold classifyHookCompatibility
  simp only [queryHookCompatibility, hsignature, hdynamic, inspected]
  by_cases hrestricted : (o.signature.any fun policy =>
      policy.microsoftSignedOnly || policy.storeSignedOnly || policy.mitigationOptIn) = true
  · simp [hrestricted]
  by_cases hprohibited : (o.dynamicCode.any fun policy =>
      policy.prohibitDynamicCode && !policy.allowThreadOptOut) = true
  · simp [hrestricted, hprohibited]
  · simp [hrestricted, hprohibited]

/-- What the relay has to find of a process that it does not refuse. -/
theorem classifyTarget_eq_none {answers : TargetAnswers} {excluded : List Char → Bool}
    {sessionId : ℕ} : classifyTarget answers excluded sessionId = .none ↔
      sessionId ≠ 0 ∧ answers.protectionLevel = some protectionLevelNone ∧
        answers.critical = some false ∧
        (∃ name, answers.image.bind imageName = some name ∧
          (isPolicyExcludedImage name || excluded name) = false) ∧
        classifyHookCompatibility answers.mitigations = .compatible := by
  constructor
  · intro h
    unfold classifyTarget at h
    split at h
    · cases h
    next hsession =>
    split at h
    · cases h
    next level hlevel =>
    split at h
    · cases h
    next hnone =>
    split at h
    · cases h
    · cases h
    next hcritical =>
    split at h
    · cases h
    next name hname =>
    split at h
    · cases h
    next hexcluded =>
    split at h
    · next hcompatible =>
      refine ⟨hsession, ?_, hcritical, ⟨name, hname, Bool.eq_false_iff.2 hexcluded⟩, hcompatible⟩
      rw [hlevel, Decidable.not_not.1 hnone]
    · cases h
    · cases h
  · intro ⟨hsession, hlevel, hcritical, ⟨name, hname, hexcluded⟩, hcompatible⟩
    unfold classifyTarget
    rw [if_neg hsession, hlevel]
    dsimp only
    rw [if_neg (not_not_intro rfl), hcritical]
    dsimp only
    rw [hname]
    dsimp only
    rw [hexcluded, hcompatible]
    rfl

/-- The relay refuses a process by what keeps both away, or by its name. -/
theorem classifyTarget_iff (o : TargetObservation) :
    classifyTarget o.answers (fun _ => false) o.sessionId ≠ .none ↔
      o.IsKeptAway ∨ o.HasExcludedName ∨ o.HasOwnName := by
  have hlevel : o.protectionLevel = some protectionLevelNone ↔ o.isProtectedOrUnknown = false := by
    unfold isProtectedOrUnknown
    cases o.protectionLevel <;> simp
  have hcritical : o.critical = some false ↔ o.isCriticalOrUnknown = false := by
    unfold isCriticalOrUnknown
    cases o.critical <;> simp
  have hname : (∃ name, o.answers.image.bind imageName = some name ∧
      (isPolicyExcludedImage name || false) = false) ↔
        o.image ≠ none ∧ ¬(o.HasExcludedName ∨ o.HasOwnName) := by
    unfold answers HasExcludedName HasOwnName
    cases himage : o.image with
    | none => simp
    | some path =>
      have hnonempty : path.name.map wideChar ≠ [] := by
        simpa using path.name_name.nonempty
      have hpolicy := excluded_of_relay hnonempty
      simp only [Option.map_some, Option.bind_some, imageName_text, Option.some.injEq,
        exists_eq_left', Bool.or_false]
      rw [← Bool.not_eq_true, hpolicy]
      simp
  rw [ne_eq, classifyTarget_eq_none, hname]
  show ¬(_ ∧ o.protectionLevel = _ ∧ o.critical = _ ∧ _ ∧
    classifyHookCompatibility o.queryHookCompatibility = _) ↔ _
  rw [hlevel, hcritical, classifyHookCompatibility_iff]
  have hdynamic : (o.dynamicCode.any fun policy =>
      policy.prohibitDynamicCode && !policy.allowThreadOptOut) =
        o.inspected.facts.prohibitsDynamicCode := rfl
  have hsignature : (o.signature.any fun policy => policy.microsoftSignedOnly ||
      policy.storeSignedOnly || policy.mitigationOptIn) =
        o.inspected.facts.restrictsBinarySignature := rfl
  unfold IsKeptAway
  rw [hdynamic, hsignature, ← Bool.not_eq_true, ← Bool.not_eq_true, ← Bool.not_eq_true,
    ← Bool.not_eq_true]
  grind

end TargetObservation

/-- The service and the world it asks, where the process is as it was observed. -/
def answering {ω : Type} (env : Environment ω) (o : TargetObservation)
    (probe : ω → ProcessIdentity → TargetLifecycle × ω) : Environment ω :=
  { env with inspect := fun world _ => (.ok o.inspected, world), probeTargetLifecycle := probe }

/-- The service skips the process whatever a probe of its lifecycle would answer. -/
def SkippedBeforeProbe {ω : Type} (env : Environment ω) (servicePid : ℕ) (o : TargetObservation)
    (world : ω) : Prop :=
  ∃ reason, ∀ probe, validate (answering env o probe) servicePid o.pid world =
    (.ok (.skipped reason), world)

theorem validate_of_skip {ω : Type} (env : Environment ω) {servicePid : ℕ} {o : TargetObservation}
    {reason : SkipReason} (h : inspectionSkip servicePid o.inspected = some reason)
    (probe : ω → ProcessIdentity → TargetLifecycle × ω) (world : ω) :
    validate (answering env o probe) servicePid o.pid world = (.ok (.skipped reason), world) := by
  unfold validate
  have hpid : o.inspected.identity.pid = o.pid := rfl
  dsimp only [answering]
  rw [if_neg (not_not_intro hpid), h]

theorem validate_of_running {ω : Type} (env : Environment ω) {servicePid : ℕ}
    {o : TargetObservation} (h : inspectionSkip servicePid o.inspected = none) (world : ω) :
    validate (answering env o fun world _ => (.running, world)) servicePid o.pid world =
      (.ok (.eligible o.inspected.identity), world) := by
  unfold validate
  have hpid : o.inspected.identity.pid = o.pid := rfl
  dsimp only [answering]
  rw [if_neg (not_not_intro hpid), h]

theorem skippedBeforeProbe_iff {ω : Type} (env : Environment ω) (servicePid : ℕ)
    (o : TargetObservation) (world : ω) : SkippedBeforeProbe env servicePid o world ↔
      ∃ reason, inspectionSkip servicePid o.inspected = some reason := by
  unfold SkippedBeforeProbe
  constructor
  · rintro ⟨reason, hskipped⟩
    have hrunning := hskipped fun world _ => (.running, world)
    cases hskip : inspectionSkip servicePid o.inspected with
    | some skip => exact ⟨skip, rfl⟩
    | none =>
      rw [validate_of_running env hskip] at hrunning
      cases hrunning
  · rintro ⟨reason, hskip⟩
    exact ⟨reason, fun probe => validate_of_skip env hskip probe world⟩

/-- Of every process but its own, the service skips before the probe just those that the relay
refuses, and the relay refuses its own binaries besides. -/
theorem skippedBeforeProbe_iff_refused {ω : Type} (env : Environment ω) (servicePid : ℕ)
    (o : TargetObservation) (world : ω) :
    (SkippedBeforeProbe env servicePid o world ∨ o.HasOwnName) ↔
      (classifyTarget o.answers (fun _ => false) o.sessionId ≠ .none ∨ o.pid = servicePid) := by
  rw [skippedBeforeProbe_iff, o.inspectionSkip_iff servicePid, o.classifyTarget_iff]
  grind

end MacTypeControl.Relay
