import MacTypeControl.Preview.JsonAcceptance
import MacTypeControl.Preview.WholeRequests

/-!
# Sequences of native requests

Whether a request is accepted does not depend on the state, and the colours that a sequence of
requests leaves are those that its accepted requests gave last.
-/

namespace MacTypeControl.Preview

/-! ## The verdict on a request -/

section

variable {α β γ : Type}

/-- Whether a check passes, and its message where it does not. -/
def verdict (x : Except Stop α) : Except Stop Unit := x.map fun _ => ()

theorem verdict_bind {x x' : Except Stop α} {f f' : α → Except Stop β}
    (hx : verdict x = verdict x') (hf : ∀ a a', verdict (f a) = verdict (f' a')) :
    verdict (x >>= f) = verdict (x' >>= f') := by
  cases x with
  | error stop =>
    cases x' with
    | error stop' => exact congrArg Except.error (Except.error.inj hx)
    | ok a' => cases hx
  | ok a =>
    cases x' with
    | error stop' => cases hx
    | ok a' => exact hf a a'

theorem verdict_assign (value : Option α) (old old' : β) (read : α → Except Stop β) :
    verdict (assign value old read) = verdict (assign value old' read) := by
  cases value <;> rfl

theorem verdict_assignTyped (document : JsonDocument) (name type : String) (value : Option α)
    (old old' : β) (read : α → Except Stop β) :
    verdict (assignTyped document name type value old read) =
      verdict (assignTyped document name type value old' read) := by
  unfold assignTyped
  split_ifs
  · rfl
  · exact verdict_assign value old old' read

theorem verdict_assignMembers {M : Type} [DecidableEq M] (bindings : List β) (member : β → M)
    (read : β → Except Stop (Option α)) (values values' : M → α) :
    verdict (assignMembers bindings member read values) =
      verdict (assignMembers bindings member read values') := by
  unfold assignMembers
  induction bindings generalizing values values' with
  | nil => rfl
  | cons binding bindings ih =>
    rw [List.foldlM_cons, List.foldlM_cons]
    refine verdict_bind (verdict_bind rfl fun found found' => ?_) fun values values' => ih values values'
    cases found <;> cases found' <;> rfl

end

section

variable (numbers : Numbers)

theorem verdict_pendingColors (document : JsonDocument) (colors colors' : NativeColors) :
    verdict (pendingColors document colors) = verdict (pendingColors document colors') :=
  verdict_bind (verdict_assignTyped _ _ _ _ _ _ _) fun _ _ => rfl

/-- The checks of a request read the request alone. -/
theorem verdict_pendingNativeState (document : JsonDocument) (state state' : NativeState) :
    verdict (pendingNativeState numbers document state) =
      verdict (pendingNativeState numbers document state') := by
  have hflag (name : String) (flag flag' : Bool) :
      verdict (applyBoolean document name flag) = verdict (applyBoolean document name flag') :=
    verdict_assignTyped _ _ _ _ _ _ _
  unfold pendingNativeState
  refine verdict_bind (verdict_assign _ _ _ _) fun _ _ => ?_
  refine verdict_bind (verdict_assign _ _ _ _) fun _ _ => ?_
  refine verdict_bind (verdict_assign _ _ _ _) fun _ _ => ?_
  refine verdict_bind (verdict_assign _ _ _ _) fun _ _ => ?_
  refine verdict_bind (verdict_assignTyped _ _ _ _ _ _ _) fun _ _ => ?_
  refine verdict_bind (hflag "bold" _ _) fun _ _ => ?_
  refine verdict_bind (hflag "italic" _ _) fun _ _ => ?_
  refine verdict_bind (hflag "topmost" _ _) fun _ _ => ?_
  refine verdict_bind (verdict_assign _ _ _ _) fun _ _ => ?_
  refine verdict_bind (verdict_assignTyped _ _ _ _ _ _ _) fun _ _ => ?_
  refine verdict_bind (verdict_assignTyped _ _ _ _ _ _ _) fun _ _ => ?_
  refine verdict_bind rfl fun _ _ => ?_
  refine verdict_bind (verdict_pendingColors document _ _) fun _ _ => ?_
  exact verdict_bind (verdict_assignMembers _ _ _ _ _) fun _ _ => rfl

variable (strtod : Strtod)

theorem applyNativeRequest_verdict (json : List UInt8) (runtime runtime' : PreviewRuntime) :
    (applyNativeRequest strtod numbers json runtime).1 =
      (applyNativeRequest strtod numbers json runtime').1 := by
  unfold applyNativeRequest
  cases JsonDocument.parse strtod json with
  | error stop => rfl
  | ok document =>
    have hverdict := verdict_pendingNativeState numbers document runtime.state runtime'.state
    cases hpending : pendingNativeState numbers document runtime.state <;>
      cases hpending' : pendingNativeState numbers document runtime'.state <;>
      simp [hpending, hpending', verdict, Except.map] at hverdict ⊢
    exact hverdict

/-! ## One request -/

/-- A request fails and leaves everything as it was, or passes and is applied. It fails only where
it asks for a state that there is not. -/
theorem applyNativeRequest_cases (json : List UInt8) (runtime : PreviewRuntime) :
    ((∃ stop, applyNativeRequest strtod numbers json runtime = (.error stop, runtime)) ∧
      ∀ document new, JsonDocument.parse strtod json = .ok document →
        ¬Applied numbers document runtime.state new) ∨
    ∃ document next, JsonDocument.parse strtod json = .ok document ∧
      applyNativeRequest strtod numbers json runtime = (.ok (), next) ∧
      Applied numbers document runtime.state next.state := by
  unfold applyNativeRequest
  cases hparse : JsonDocument.parse strtod json with
  | error stop => exact .inl ⟨⟨stop, rfl⟩, fun _ _ h => by cases h⟩
  | ok document =>
    dsimp only
    cases hpending : pendingNativeState numbers document runtime.state with
    | error stop =>
      refine .inl ⟨⟨stop, rfl⟩, ?_⟩
      rintro document new ⟨⟩ happlied
      rw [(pendingNativeState_eq_ok numbers).mpr happlied] at hpending
      cases hpending
    | ok pending =>
      have happlied := (pendingNativeState_eq_ok numbers).mp hpending
      exact .inr ⟨document, commit pending runtime, rfl, rfl, happlied⟩

/-! ## Runs -/

def applyAll (requests : List (List UInt8)) (runtime : PreviewRuntime) : PreviewRuntime :=
  requests.foldl (fun runtime json => (applyNativeRequest strtod numbers json runtime).2) runtime

/-- The document of a request that is accepted. -/
def acceptedDocument (runtime : PreviewRuntime) (json : List UInt8) : Option JsonDocument :=
  match applyNativeRequest strtod numbers json runtime with
  | (.ok (), _) => (JsonDocument.parse strtod json).toOption
  | (.error _, _) => none

def acceptedDocuments (requests : List (List UInt8)) (runtime : PreviewRuntime) :
    List JsonDocument :=
  requests.filterMap (acceptedDocument numbers strtod runtime)

/-- What the last document that gives something gives. -/
def lastGiven {α : Type} (gives : JsonDocument → Option α) (documents : List JsonDocument) :
    Option α :=
  (documents.filterMap gives).getLast?

theorem lastGiven_append {α : Type} (gives : JsonDocument → Option α)
    (documents : List JsonDocument) (document : JsonDocument) :
    lastGiven gives (documents ++ [document]) = (gives document).or (lastGiven gives documents) := by
  rw [lastGiven, lastGiven, List.filterMap_append, List.getLast?_append]
  cases hgives : gives document <;> simp [hgives]

/-- The colours of a window whose colours were given. -/
def NativeColors.ofBase (foreground background : Color) (inverted : Bool) : NativeColors :=
  if inverted then ⟨background, foreground, true⟩ else ⟨foreground, background, false⟩

theorem NativeColors.eq_ofBase {colors : NativeColors} {foreground background : Color}
    {inverted : Bool} : colors = .ofBase foreground background inverted ↔
      colors.base.1 = foreground ∧ colors.base.2 = background ∧ colors.inverted = inverted := by
  obtain ⟨foreground', background', inverted'⟩ := colors
  cases inverted <;> cases inverted' <;> simp [ofBase, base, and_comm]

/-- What a sequence of requests leaves of colours: the last that were given. -/
def lastColors (documents : List JsonDocument) (colors : NativeColors) : NativeColors :=
  .ofBase ((lastGiven (givenColor · "foreground") documents).getD colors.base.1)
    ((lastGiven (givenColor · "background") documents).getD colors.base.2)
    ((lastGiven (·.rootBool (key "inverted")) documents).getD colors.inverted)

theorem acceptedDocument_of_applied {json : List UInt8} {runtime runtime' next : PreviewRuntime}
    {document : JsonDocument} (hparse : JsonDocument.parse strtod json = .ok document)
    (happly : applyNativeRequest strtod numbers json runtime' = (.ok (), next)) :
    acceptedDocument numbers strtod runtime json = some document := by
  have hverdict := applyNativeRequest_verdict numbers strtod json runtime runtime'
  rw [happly] at hverdict
  unfold acceptedDocument
  rw [hparse]
  generalize applyNativeRequest strtod numbers json runtime = outcome at hverdict
  obtain ⟨result, state⟩ := outcome
  obtain rfl : result = .ok () := hverdict
  rfl

theorem acceptedDocument_of_refused {json : List UInt8} {runtime runtime' next : PreviewRuntime}
    {stop : Stop} (happly : applyNativeRequest strtod numbers json runtime' = (.error stop, next)) :
    acceptedDocument numbers strtod runtime json = none := by
  have hverdict := applyNativeRequest_verdict numbers strtod json runtime runtime'
  rw [happly] at hverdict
  unfold acceptedDocument
  generalize applyNativeRequest strtod numbers json runtime = outcome at hverdict
  obtain ⟨result, state⟩ := outcome
  obtain rfl : result = .error stop := hverdict
  rfl

theorem getD_or {α : Type} (x y : Option α) (a : α) : (x.or y).getD a = x.getD (y.getD a) := by
  cases x <;> rfl

theorem applyAll_colors (requests : List (List UInt8)) (runtime : PreviewRuntime) :
    (applyAll numbers strtod requests runtime).state.colors =
      lastColors (acceptedDocuments numbers strtod requests runtime) runtime.state.colors := by
  induction requests using List.reverseRecOn with
  | nil => exact NativeColors.eq_ofBase.mpr ⟨rfl, rfl, rfl⟩
  | append_singleton requests json ih =>
    obtain ⟨hforeground, hbackground, hinverted⟩ := NativeColors.eq_ofBase.mp ih
    have hlast : applyAll numbers strtod (requests ++ [json]) runtime =
        (applyNativeRequest strtod numbers json (applyAll numbers strtod requests runtime)).2 :=
      List.foldl_concat ..
    rw [hlast, acceptedDocuments, List.filterMap_append, ← acceptedDocuments]
    rcases applyNativeRequest_cases numbers strtod json (applyAll numbers strtod requests runtime) with
      ⟨⟨stop, happly⟩, -⟩ | ⟨document, next, hparse, happly, happlied⟩
    · rw [happly, List.filterMap_cons_none (acceptedDocument_of_refused numbers strtod happly),
        List.filterMap_nil, List.append_nil]
      exact ih
    · rw [happly,
        List.filterMap_cons_some (acceptedDocument_of_applied numbers strtod hparse happly),
        List.filterMap_nil]
      have hcolors := happlied.colors
      refine NativeColors.eq_ofBase.mpr ⟨?_, ?_, ?_⟩
      · rw [lastGiven_append, getD_or, hcolors.foreground, hforeground]
      · rw [lastGiven_append, getD_or, hcolors.background, hbackground]
      · rw [lastGiven_append, getD_or, hcolors.inverted, hinverted]

/-- A request is applied whole or not at all, whether it is accepted depends on the request alone,
and a sequence of requests leaves the colours that its accepted requests gave last. -/
theorem applyNativeRequest_whole :
    (∀ json runtime,
      ((∃ stop, applyNativeRequest strtod numbers json runtime = (.error stop, runtime)) ∧
        ∀ document new, JsonDocument.parse strtod json = .ok document →
          ¬Applied numbers document runtime.state new) ∨
      ∃ document next, JsonDocument.parse strtod json = .ok document ∧
        applyNativeRequest strtod numbers json runtime = (.ok (), next) ∧
        Applied numbers document runtime.state next.state) ∧
    (∀ json runtime runtime', (applyNativeRequest strtod numbers json runtime).1 =
      (applyNativeRequest strtod numbers json runtime').1) ∧
    ∀ requests runtime, (applyAll numbers strtod requests runtime).state.colors =
      lastColors (acceptedDocuments numbers strtod requests runtime) runtime.state.colors :=
  ⟨applyNativeRequest_cases numbers strtod, applyNativeRequest_verdict numbers strtod,
    applyAll_colors numbers strtod⟩

end

/-- Numbers that are computed without rounding. -/
def exactNumbers : Numbers where
  double := Json.Grammar.numberValue
  float := id
  int := truncate
  int_eq _ _ _ := rfl

def blankRuntime : PreviewRuntime where
  state :=
    { displayMode := .sample, sample := ⟨[], [], 12, false, false⟩, listingText := []
      topmost := false, darkTheme := false, zoom := 1, ladderSizes := [12]
      colors := ⟨⟨0, 0, 0⟩, ⟨255, 255, 255⟩, false⟩, labels := fun _ => [], chrome := none }
  calls := []
  retitleCount := 0

/-- The second request is refused, and the colours of the first stay. -/
theorem applyNativeRequest_whole_inverted :
    (applyAll exactNumbers JsonParser.scannedStrtod
      [key "\x7b\"inverted\":true\x7d", key "\x7b\"inverted\":1\x7d"]
      blankRuntime).state.colors.foreground = ⟨255, 255, 255⟩ := by
  rw [(applyNativeRequest_whole exactNumbers JsonParser.scannedStrtod).2.2]
  decide +kernel

end MacTypeControl.Preview
