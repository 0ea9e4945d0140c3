import MacTypeControl.Preview.JsonAcceptance

/-!
# What the lookups of the helper find

A lookup in the root takes its own members, a recursive one all members in document order.
-/

namespace MacTypeControl.Preview

open Json.Grammar JsonParser

section

variable {key : List UInt8}

theorem firstNamed_cons (name : List UInt8) (value : Value) (members : List (List UInt8 × Value)) :
    firstNamed key ((name, value) :: members) =
      if name = key then some value else firstNamed key members := by
  unfold firstNamed
  by_cases hname : name = key
  · simp [hname]
  · simp [hname]

theorem firstNamed_append (members later : List (List UInt8 × Value)) :
    firstNamed key (members ++ later) = (firstNamed key members).or (firstNamed key later) := by
  unfold firstNamed
  rw [List.find?_append]
  cases members.find? fun member => member.1 = key <;> rfl

theorem objectValue_object (members : List (List UInt8 × Value)) :
    objectValue key (.object members) = firstNamed key members := by
  rw [objectValue]
  induction members with
  | nil => rfl
  | cons member members ih =>
    obtain ⟨name, value⟩ := member
    rw [List.findSome?_cons, firstNamed_cons, ← ih]
    by_cases hname : name = key
    · simp [hname]
    · simp [hname]

mutual

theorem recursiveValue_eq : ∀ value, recursiveValue key value = firstNamed key value.allMembers
  | .null | .bool _ | .number _ | .string _ => by
    simp [recursiveValue, Value.allMembers, firstNamed]
  | .array items => by
    rw [recursiveValue, Value.allMembers, recursiveItem_eq items]
  | .object members => by
    rw [recursiveValue, Value.allMembers, recursiveMember_eq members]

theorem recursiveItem_eq : ∀ items, recursiveItem key items = firstNamed key (allOfItems items)
  | [] => rfl
  | item :: items => by
    rw [recursiveItem, allOfItems, firstNamed_append, recursiveValue_eq item,
      recursiveItem_eq items]
    cases firstNamed key item.allMembers <;> rfl

theorem recursiveMember_eq :
    ∀ members, recursiveMember key members = firstNamed key (allOfMembers members)
  | [] => rfl
  | (name, value) :: members => by
    rw [recursiveMember, allOfMembers, firstNamed_cons, firstNamed_append,
      recursiveValue_eq value, recursiveMember_eq members]
    cases firstNamed key value.allMembers <;> rfl

end

theorem stringValue_eq_some {found : Option Value} {content : List UInt8} :
    stringValue found = some content ↔ found = some (.string content) := by
  rcases found with _ | value
  · simp [stringValue]
  · cases value <;> simp [stringValue]

theorem numberToken_eq_some {found : Option Value} {token : List UInt8} :
    numberToken found = some token ↔ found = some (.number token) := by
  rcases found with _ | value
  · simp [numberToken]
  · cases value <;> simp [numberToken]

theorem boolValue_eq_some {found : Option Value} {flag : Bool} :
    boolValue found = some flag ↔ found = some (.bool flag) := by
  rcases found with _ | value
  · simp [boolValue]
  · cases value <;> simp [boolValue]

theorem mapM_numberToken {items : List Value} {tokens : List (List UInt8)} :
    items.mapM (fun item => numberToken (some item)) = some tokens ↔
      items = tokens.map .number := by
  induction items generalizing tokens with
  | nil => cases tokens <;> simp
  | cons item items ih =>
    rw [List.mapM_cons]
    constructor
    · intro h
      obtain ⟨token, htoken, h⟩ := Option.bind_eq_some_iff.mp h
      obtain ⟨others, hothers, h⟩ := Option.bind_eq_some_iff.mp h
      obtain rfl := Option.some.inj h
      rw [List.map_cons, ih.mp hothers, Option.some.inj (numberToken_eq_some.mp htoken)]
    · intro h
      cases tokens with
      | nil => exact absurd h (List.cons_ne_nil _ _)
      | cons token tokens =>
        obtain ⟨rfl, hothers⟩ := List.cons.inj h
        rw [ih.mpr hothers]
        rfl

end

/-! ## The lookups of a document -/

/-- The lookups of a string, a number and a truth value find the first member of the name. -/
structure FindsFirst (members : List (List UInt8 × Value))
    (string number : List UInt8 → Option (List UInt8)) (bool : List UInt8 → Option Bool) :
    Prop where
  string : ∀ key content, string key = some content ↔
    firstNamed key members = some (.string content)
  number : ∀ key token, number key = some token ↔ firstNamed key members = some (.number token)
  bool : ∀ key value, bool key = some value ↔ firstNamed key members = some (.bool value)

structure ObjectLookups (object : JsonObject) (members : List (List UInt8 × Value)) : Prop where
  scalars : FindsFirst members object.jsonString object.jsonNumber object.jsonBool
  contains : ∀ key, object.contains key = (firstNamed key members).isSome

structure RootLookups (document : JsonDocument) (members : List (List UInt8 × Value)) : Prop where
  scalars : FindsFirst members document.rootString document.rootNumber document.rootBool
  contains : ∀ key, document.containsRoot key = (firstNamed key members).isSome
  array : ∀ key tokens, document.rootNumberArray key = some tokens ↔
    firstNamed key members = some (.array (tokens.map .number))
  object : ∀ key, match firstNamed key members with
    | some (.object inner) => ∃ object, document.object key = some object ∧
      ObjectLookups object inner
    | _ => document.object key = none

def RecursiveLookups (document : JsonDocument) (members : List (List UInt8 × Value)) : Prop :=
  FindsFirst members document.jsonString document.jsonNumber document.jsonBool

theorem objectLookups (members : List (List UInt8 × Value)) :
    ObjectLookups ⟨.object members⟩ members where
  scalars := by
    constructor
    · intro key content
      rw [JsonObject.jsonString, objectValue_object, stringValue_eq_some]
    · intro key token
      rw [JsonObject.jsonNumber, objectValue_object, numberToken_eq_some]
    · intro key value
      rw [JsonObject.jsonBool, objectValue_object, boolValue_eq_some]
  contains key := by rw [JsonObject.contains, objectValue_object]

theorem rootLookups (members : List (List UInt8 × Value)) :
    RootLookups ⟨.object members⟩ members where
  scalars := by
    constructor
    · intro key content
      rw [JsonDocument.rootString, objectValue_object, stringValue_eq_some]
    · intro key token
      rw [JsonDocument.rootNumber, objectValue_object, numberToken_eq_some]
    · intro key value
      rw [JsonDocument.rootBool, objectValue_object, boolValue_eq_some]
  contains key := by rw [JsonDocument.containsRoot, objectValue_object]
  array key tokens := by
    rw [JsonDocument.rootNumberArray, objectValue_object]
    rcases firstNamed key members with _ | value
    · simp
    · cases value <;> simp [mapM_numberToken]
  object key := by
    rw [JsonDocument.object, objectValue_object]
    rcases firstNamed key members with _ | value
    · rfl
    · cases value with
      | object inner => exact ⟨_, rfl, objectLookups inner⟩
      | null | bool | number | string | array => rfl

theorem recursiveLookups (root : Value) : RecursiveLookups ⟨root⟩ root.allMembers := by
  constructor
  · intro key content
    rw [JsonDocument.jsonString, recursiveValue_eq, stringValue_eq_some]
  · intro key token
    rw [JsonDocument.jsonNumber, recursiveValue_eq, numberToken_eq_some]
  · intro key value
    rw [JsonDocument.jsonBool, recursiveValue_eq, boolValue_eq_some]

/-- The parser ends and stays inside the input, it accepts exactly the documents within the limits,
and in the one value of a document that it accepts each lookup finds the first member of the
name. -/
theorem document_parse_exact (strtod : Strtod) (json : List UInt8) :
    (JsonDocument.parse strtod json ≠ .error .outside ∧
      JsonDocument.parse strtod json ≠ .error .exhausted) ∧
    ((∃ document, JsonDocument.parse strtod json = .ok document) ↔
      json.length ≤ kJsonDocumentMaxLength ∧ ∃ members,
        IsDocument helperDialect (.object members) json ∧
        (Value.object members).depth ≤ kJsonDocumentMaxDepth) ∧
    ∀ document, JsonDocument.parse strtod json = .ok document → ∃ members,
      (∀ value, IsDocument helperDialect value json ↔ value = .object members) ∧
      RootLookups document members ∧
      RecursiveLookups document (Value.object members).allMembers := by
  rcases parse_cases strtod json with ⟨message, hparse⟩ | ⟨members, hparse, hlength, hdocument, hdepth⟩
  · rw [hparse]
    refine ⟨⟨nofun, nofun⟩, ⟨nofun, ?_⟩, nofun⟩
    rintro ⟨hlength, members, hdocument, hdepth⟩
    rw [parse_of_document strtod hlength hdocument hdepth] at hparse
    cases hparse
  · rw [hparse]
    refine ⟨⟨nofun, nofun⟩, ⟨fun _ => ⟨hlength, members, hdocument, hdepth⟩, fun _ => ⟨_, rfl⟩⟩, ?_⟩
    rintro document ⟨⟩
    refine ⟨members, fun value => ⟨fun h => document_unique h hdocument, ?_⟩, rootLookups members,
      recursiveLookups _⟩
    rintro rfl
    exact hdocument

theorem document_parse_exact_two : ∃ members, IsDocument helperDialect (.object members)
    [openBrace, quote, quote, colon, 0x32, closeBrace] := by
  have haccepted : (JsonDocument.parse scannedStrtod
      [openBrace, quote, quote, colon, 0x32, closeBrace]).isOk = true := by
    decide +kernel
  cases hparse : JsonDocument.parse scannedStrtod
      [openBrace, quote, quote, colon, 0x32, closeBrace] with
  | error stop => simp [hparse, Except.isOk, Except.toBool] at haccepted
  | ok document =>
    obtain ⟨-, members, hdocument, -⟩ :=
      (document_parse_exact scannedStrtod _).2.1.mp ⟨document, hparse⟩
    exact ⟨members, hdocument⟩

end MacTypeControl.Preview
