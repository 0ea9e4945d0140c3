import MacTypeControl.Installer.Generation

/-!
# Recovering an activation that is bound to the service

An activation that was interrupted left its receipt. The recovery asks to which side of the
receipt the service is registered, and asks again after the registration was taken back, before
the current pointer is put on that side. Questions whether the receipt or a pointer exists are
taken to be answered.
-/

namespace MacTypeControl.Installer

open Crash Crash.Prog Storage

inductive RuntimeServiceBinding where
  | candidate
  | previous
  | absent
  deriving DecidableEq

/-- The surroundings with every binding that was reported so far, the last one first. -/
structure Attended (χ : Type) where
  surroundings : χ
  bindings : List RuntimeServiceBinding

/-- How the service registration is inspected and taken back. A generation stands for the path
of its service binary. -/
structure ServiceBindingCalls (χ : Type) where
  inspectServiceBinding : Option RuntimeVersion → Option RuntimeVersion → χ →
    Except SetupError RuntimeServiceBinding × χ
  restorePreviousServiceBinding : RuntimeVersion → Option RuntimeVersion → χ →
    Except SetupError Unit × χ

variable {χ : Type} (env : StorageEnvironment) (calls : ServiceBindingCalls χ)

abbrev Recovery (χ : Type) := Prog (Machine (Attended χ)) SetupError

def Machine.surround (m : Machine (Attended χ)) (surroundings : Attended χ) :
    Machine (Attended χ) := { m with surroundings }

/-! ## The pointer -/

def currentPointerForCommittedRecovery (m : Machine χ) :
    Except SetupError (Option RuntimeVersion) :=
  match m.runtimePointer with
  | none => .ok none
  | some file => match file.parse with
    | none => .error (.cleanupUnknown
        "active runtime pointer is invalid during committed recovery")
    | some version => .ok (some version)

def deriveLegacyCandidate (previous : Option RuntimeVersion) (m : Machine χ) :
    Except SetupError (Option RuntimeVersion) := do
  match ← currentPointerForCommittedRecovery m, previous with
  | some active, some previous => if active = previous then .ok none else .ok (some active)
  | some active, none => .ok (some active)
  | none, none => .ok none
  | none, some _ => .error (.cleanupUnknown
      "legacy runtime activation lost its active pointer after a possible switch")

def requireActivationPointer (expected : RuntimeVersion) (role : String) (m : Machine χ) :
    Except SetupError Unit := do
  let actual ← currentPointerForCommittedRecovery m
  require (actual == some expected)
    (.cleanupUnknown ("runtime activation pointer does not match the " ++ role))

def setRuntimePointer (content : Option (StoredFile RuntimeVersion)) (m : Machine χ) : Machine χ :=
  { m with runtimePointer := content }

/-- Deletes the pointer if it is the expected one. The result of the deletion can stay unknown. -/
def removeExactRuntimePointer (expected : StoredFile RuntimeVersion) :
    Prog (Machine χ) SetupError Unit :=
  act (.cleanupUnknown "owned runtime pointer exact deletion result is unknown") fun m =>
    if m.runtimePointer = some expected then .ok (setRuntimePointer none m)
    else .error (.cleanupUnknown "owned runtime pointer changed before exact deletion")

def restoreRuntimePointer (previous activated : Option RuntimeVersion) :
    Prog (Machine χ) SetupError Unit := do
  let actual ← inspect
    (.cleanupUnknown "active runtime pointer could not be verified during rollback")
    fun m => .ok m.runtimePointer
  match actual, previous.map StoredFile.written, activated.map StoredFile.written with
  | none, some previous, _ => modify .io (setRuntimePointer (some previous))
  | none, none, _ => ret ()
  | some actual, some previous, activated =>
    if actual = previous then ret ()
    else if activated = some actual then modify .io (setRuntimePointer (some previous))
    else throw (.cleanupUnknown
      "active runtime pointer no longer matches the activation transaction receipt")
  | some actual, none, activated =>
    if activated = some actual then removeExactRuntimePointer actual
    else throw (.cleanupUnknown
      "active runtime pointer no longer matches the activation transaction receipt")

def rollbackActivationPointerAndProfile (previous activated : Option RuntimeVersion) :
    Prog (Machine χ) SetupError Unit := do
  restoreRuntimePointer previous activated
  whenever (previous.isSome = true) do
    let _ ← materializeActive env
    ret ()

/-! ## The recovery -/

def verifyAndMaterializeCommittedRuntime (role : String) : Prog (Machine χ) SetupError Unit := do
  match ← inspect .io current with
  | none => throw (.cleanupUnknown
      ("committed runtime activation " ++ role ++ " disappeared during recovery"))
  | some version =>
    (inspect .io fun m => verify env m version).mapError fun error => .cleanupUnknown
      ("committed runtime activation " ++ role ++ " could not be verified: " ++ error.text)
    let _ ← materializeActive env
    ret ()

def finishCommittedActivationRecovery (journal : ParsedRuntimeActivationReceipt) :
    Prog (Machine χ) SetupError Unit :=
  match Receipt.activated journal with
  | none => throw (.cleanupUnknown
      "committed runtime activation receipt has no candidate pointer")
  | some activated => do
    let actual ← inspect
      (.cleanupUnknown "active runtime pointer could not be read during committed recovery")
      currentPointerForCommittedRecovery
    if actual = some activated then verifyAndMaterializeCommittedRuntime env "candidate"
    else if actual = Receipt.previous journal then
      whenever ((Receipt.previous journal).isSome = true)
        (verifyAndMaterializeCommittedRuntime env "previous generation")
    else throw (.cleanupUnknown
      "active runtime pointer matches neither side of the committed activation receipt")

/-- The generation is verified, so that its service binary can be asked for. -/
def verifiedActivationServiceBinary (role : String) : Option RuntimeVersion →
    Prog (Machine χ) SetupError Unit
  | none => ret ()
  | some version => (inspect .io fun m => verify env m version).mapError fun error =>
      .cleanupUnknown ("runtime activation " ++ role ++
        " generation could not be verified for SCM recovery: " ++ error.text)

def inspectServiceBinding (failure : String) (candidate previous : Option RuntimeVersion) :
    Recovery χ RuntimeServiceBinding :=
  (atomic .io fun m =>
    match calls.inspectServiceBinding candidate previous m.surroundings.surroundings with
    | (.error error, _) => .error error
    | (.ok binding, surroundings) =>
      .ok (binding, Machine.surround m ⟨surroundings, binding :: m.surroundings.bindings⟩)).mapError
    fun error => .cleanupUnknown (failure ++ error.text)

def restorePreviousServiceBinding (candidate : RuntimeVersion) (previous : Option RuntimeVersion) :
    Recovery χ Unit :=
  (atomic .io fun m =>
    match calls.restorePreviousServiceBinding candidate previous m.surroundings.surroundings with
    | (.error error, _) => .error error
    | (.ok (), surroundings) =>
      .ok ((), Machine.surround m ⟨surroundings, m.surroundings.bindings⟩)).mapError
    fun error => .cleanupUnknown
      ("SCM rollback did not complete before pointer recovery: " ++ error.text)

def recoverCommitted (journal : ParsedRuntimeActivationReceipt) (activated : Option RuntimeVersion)
    (binding : RuntimeServiceBinding) : Recovery χ Unit :=
  match activated with
  | none => throw (.cleanupUnknown "committed runtime activation has no candidate pointer")
  | some activated => do
    inspect (.cleanupUnknown "active runtime pointer could not be read during committed recovery")
      (requireActivationPointer activated "committed candidate")
    ensure (binding == .candidate) (.cleanupUnknown
      "committed runtime activation is not bound to the candidate SCM image")
    finishCommittedActivationRecovery env journal

/-- The binding that an uncommitted activation is brought to. -/
def settleBinding (candidate previous : Option RuntimeVersion) (binding : RuntimeServiceBinding) :
    Recovery χ RuntimeServiceBinding :=
  if binding = .candidate ∧ candidate.isSome = true ∧ candidate = previous then ret .previous
  else if binding = .candidate then
    match candidate with
    | none => throw (.cleanupUnknown ("uncommitted runtime activation has a candidate service " ++
        "binding but no candidate pointer"))
    | some candidate => do
      restorePreviousServiceBinding calls candidate previous
      inspectServiceBinding calls "SCM rollback result could not be verified: " (some candidate)
        previous
  else ret binding

def recoverUncommitted (journal : ParsedRuntimeActivationReceipt)
    (activated : Option RuntimeVersion) (binding : RuntimeServiceBinding) : Recovery χ Unit := do
  let previous := Receipt.previous journal
  let binding ← settleBinding calls activated previous binding
  ensure ((binding == .previous && previous.isSome) || (binding == .absent && previous.isNone))
    (.cleanupUnknown
      "uncommitted runtime activation did not reach the exact previous SCM binding")
  rollbackActivationPointerAndProfile env previous activated

def recoverByPhase (journal : ParsedRuntimeActivationReceipt) (activated : Option RuntimeVersion)
    (binding : RuntimeServiceBinding) : Recovery χ Unit :=
  match Receipt.phase journal with
  | some .committed => recoverCommitted env journal activated binding
  | _ => recoverUncommitted env calls journal activated binding

def removeActivationJournal : Prog (Machine χ) SetupError Unit :=
  modify .io fun m => { m with activationJournal := none }

def readActivationJournal (file : StoredFile ParsedRuntimeActivationReceipt) :
    Prog (Machine χ) SetupError ParsedRuntimeActivationReceipt :=
  inspect .io fun _ => match file.parse with
    | none => .error (.runtime "runtime activation journal is invalid")
    | some journal => .ok journal

def activatedCandidate (journal : ParsedRuntimeActivationReceipt) :
    Prog (Machine χ) SetupError (Option RuntimeVersion) :=
  match Receipt.activated journal with
  | some activated => ret (some activated)
  | none => inspect
    (.cleanupUnknown "active runtime pointer could not be read during committed recovery")
    (deriveLegacyCandidate (Receipt.previous journal))

def recoverWithServiceBinding : Recovery χ (Option RuntimeVersion) := do
  match ← observe (·.activationJournal) with
  | none => inspect .io current
  | some file =>
    let journal ← readActivationJournal file
    let activated ← activatedCandidate journal
    verifiedActivationServiceBinary env "candidate" activated
    verifiedActivationServiceBinary env "previous" (Receipt.previous journal)
    let binding ← inspectServiceBinding calls
      "SCM binding could not be classified during runtime recovery: " activated
      (Receipt.previous journal)
    recoverByPhase env calls journal activated binding
    let recovered ← inspect .io current
    removeActivationJournal
    ret recovered

/-! ## What the recovery does to the pointer -/

variable {env} {calls}

/-- The pointer is what it was, or there was none, or it was the one of the candidate. -/
def PointerOwned (before : Option (StoredFile RuntimeVersion)) (candidate : Option RuntimeVersion)
    (after : Option (StoredFile RuntimeVersion)) : Prop :=
  after = before ∨ before = none ∨ before = candidate.map .written

/-- The receipt and the surroundings are kept, and the pointer is handled as its owner may. -/
def Handled (m : Machine χ) (candidate : Option RuntimeVersion) (t : Machine χ) : Prop :=
  t.activationJournal = m.activationJournal ∧ t.surroundings = m.surroundings ∧
    PointerOwned m.runtimePointer candidate t.runtimePointer

theorem Handled.refl (m : Machine χ) (candidate : Option RuntimeVersion) :
    Handled m candidate m := ⟨rfl, rfl, Or.inl rfl⟩

theorem Handled.andThen {m t u : Machine χ} {candidate : Option RuntimeVersion}
    (h : Handled m candidate t) (hsame : SameTransaction t u) : Handled m candidate u :=
  ⟨hsame.2.1.trans h.1, hsame.2.2.trans h.2.1, hsame.1 ▸ h.2.2⟩

theorem wp_restoreRuntimePointer (m : Machine χ) (previous activated : Option RuntimeVersion) :
    wp (restoreRuntimePointer previous activated)
      (fun _ t => Handled m activated t ∧ t.runtimePointer = previous.map .written)
      (fun _ t => Handled m activated t) (Handled m activated) m := by
  have hkept : Handled m activated m := .refl m activated
  have hset (content : Option (StoredFile RuntimeVersion))
      (hold : m.runtimePointer = none ∨ m.runtimePointer = activated.map .written) :
      Handled m activated (setRuntimePointer content m) := ⟨rfl, rfl, Or.inr hold⟩
  unfold restoreRuntimePointer
  refine wp_bind (wp_inspect (fun actual hactual => ?_) (fun _ _ => hkept) hkept hkept)
  cases hactual
  cases hpointer : m.runtimePointer with
  | none =>
    cases previous with
    | none => exact wp_ret ⟨hkept, hpointer⟩
    | some previous =>
      exact wp_modify ⟨hset _ (Or.inl hpointer), rfl⟩ hkept hkept
  | some actual =>
    cases previous with
    | none =>
      dsimp only [Option.map_none]
      split
      · next hactivated =>
        have howned : m.runtimePointer = activated.map .written := hpointer.trans hactivated.symm
        refine wp_act (fun t ht => ?_) (fun _ _ => hkept) hkept hkept
        rw [if_pos hpointer] at ht
        cases ht
        exact ⟨⟨hset none (Or.inr howned), rfl⟩, hset none (Or.inr howned),
          hset none (Or.inr howned)⟩
      · exact wp_throw hkept
    | some previous =>
      dsimp only [Option.map_some]
      split
      · next hprevious => exact wp_ret ⟨hkept, hpointer.trans (congrArg some hprevious)⟩
      split
      · next hactivated =>
        have howned : m.runtimePointer = activated.map .written := hpointer.trans hactivated.symm
        exact wp_modify ⟨hset _ (Or.inr howned), rfl⟩ hkept hkept
      · exact wp_throw hkept

theorem wp_rollbackActivationPointerAndProfile (m : Machine χ)
    (previous activated : Option RuntimeVersion) :
    wp (rollbackActivationPointerAndProfile env previous activated)
      (fun _ t => Handled m activated t ∧ t.runtimePointer = previous.map .written)
      (fun _ t => Handled m activated t) (Handled m activated) m := by
  unfold rollbackActivationPointerAndProfile
  refine wp_bind (wp_mono (wp_restoreRuntimePointer m previous activated) (fun _ t ht => ?_)
    (fun _ _ h => h) fun _ h => h)
  refine wp_whenever (fun _ => wp_bind (wp_mono (maintains_materializeActive env t t (.refl t))
    (fun _ u hu => wp_ret ?_) (fun _ u hu => ht.1.andThen hu) fun u hu => ht.1.andThen hu))
    fun _ => ht
  exact ⟨ht.1.andThen hu.2, hu.2.1.trans ht.2⟩

theorem maintains_verifyAndMaterialize (m : Machine χ) (role : String) :
    Maintains (SameTransaction m) (verifyAndMaterializeCommittedRuntime env role)
      fun _ => True := by
  unfold verifyAndMaterializeCommittedRuntime
  refine maintains_bind (maintains_inspect fun _ _ _ _ => trivial) fun version _ => ?_
  cases version with
  | none => exact maintains_throw
  | some version =>
    refine maintains_bind (maintains_mapError (maintains_inspect fun _ _ _ _ => trivial))
      fun _ _ => ?_
    exact maintains_bind (maintains_materializeActive env m) fun _ _ => maintains_ret trivial

theorem maintains_finishCommitted (m : Machine χ) (journal : ParsedRuntimeActivationReceipt) :
    Maintains (SameTransaction m) (finishCommittedActivationRecovery env journal)
      fun _ => True := by
  unfold finishCommittedActivationRecovery
  cases Receipt.activated journal with
  | none => exact maintains_throw
  | some activated =>
    refine maintains_bind (maintains_inspect fun _ _ _ _ => trivial) fun actual _ => ?_
    split
    · exact maintains_verifyAndMaterialize m _
    split
    · exact maintains_whenever fun _ => maintains_verifyAndMaterialize m _
    · exact maintains_throw

/-! ## The service binding -/

/-- The service was asked, and reported these bindings, the last one first. -/
def Asked (m : Machine (Attended χ)) (reported : List RuntimeServiceBinding)
    (t : Machine (Attended χ)) : Prop :=
  t.runtimePointer = m.runtimePointer ∧ t.activationJournal = m.activationJournal ∧
    t.surroundings.bindings = reported ++ m.surroundings.bindings

theorem Asked.nothing (m : Machine (Attended χ)) : Asked m [] m := ⟨rfl, rfl, rfl⟩

theorem Asked.andThen {m t u : Machine (Attended χ)} {reported reported' : List RuntimeServiceBinding}
    (h : Asked m reported t) (h' : Asked t reported' u) : Asked m (reported' ++ reported) u :=
  ⟨h'.1.trans h.1, h'.2.1.trans h.2.1, by rw [h'.2.2, h.2.2, List.append_assoc]⟩

theorem wp_inspectServiceBinding (m : Machine (Attended χ)) (failure : String)
    (candidate previous : Option RuntimeVersion) :
    wp (inspectServiceBinding calls failure candidate previous) (fun binding t => Asked m [binding] t)
      (fun _ t => t = m) (· = m) m := by
  refine wp_mapError (wp_atomic (fun binding t ht => ?_) (fun _ _ => rfl) rfl rfl)
  revert ht
  rcases calls.inspectServiceBinding candidate previous m.surroundings.surroundings with
    ⟨_ | _, surroundings⟩ <;> intro ht <;> cases ht
  exact ⟨rfl, rfl, rfl⟩

theorem wp_restorePreviousServiceBinding (m : Machine (Attended χ)) (candidate : RuntimeVersion)
    (previous : Option RuntimeVersion) :
    wp (restorePreviousServiceBinding calls candidate previous) (fun _ t => Asked m [] t)
      (fun _ t => t = m) (· = m) m := by
  refine wp_mapError (wp_atomic (fun _ t ht => ?_) (fun _ _ => rfl) rfl rfl)
  revert ht
  rcases calls.restorePreviousServiceBinding candidate previous m.surroundings.surroundings with
    ⟨_ | _, surroundings⟩ <;> intro ht <;> cases ht
  exact ⟨rfl, rfl, rfl⟩

/-- The binding that is settled is the last one reported, unless both sides are one. -/
theorem wp_settleBinding (m : Machine (Attended χ)) (candidate previous : Option RuntimeVersion)
    (binding : RuntimeServiceBinding) :
    wp (settleBinding calls candidate previous binding)
      (fun settled t => ∃ reported, Asked m reported t ∧
        ((reported = [] ∧ settled = binding) ∨ reported = [settled] ∨
          (reported = [] ∧ settled = .previous ∧ binding = .candidate ∧ candidate.isSome = true ∧
            candidate = previous)))
      (fun _ t => Asked m [] t) (Asked m []) m := by
  have hnothing := Asked.nothing m
  unfold settleBinding
  split
  · next hboth =>
    exact wp_ret ⟨[], hnothing, Or.inr (Or.inr ⟨rfl, rfl, hboth⟩)⟩
  split
  · cases candidate with
    | none => exact wp_throw hnothing
    | some candidate =>
      refine wp_bind (wp_mono (wp_restorePreviousServiceBinding m candidate previous)
        (fun _ t ht => ?_) (fun _ _ h => h ▸ hnothing) fun _ h => h ▸ hnothing)
      refine wp_mono (wp_inspectServiceBinding t _ _ _) (fun settled u hu => ?_)
        (fun _ _ h => h ▸ ht) fun _ h => h ▸ ht
      exact ⟨[settled], ht.andThen hu, Or.inr (Or.inl rfl)⟩
  · exact wp_ret ⟨[], hnothing, Or.inl ⟨rfl, rfl⟩⟩

/-! ## The whole recovery -/

/-- The candidate of a receipt. A legacy receipt has the one the current pointer names. -/
def candidateOf (journal : ParsedRuntimeActivationReceipt) (m : Machine χ) :
    Option RuntimeVersion :=
  match Receipt.activated journal with
  | some activated => some activated
  | none => (deriveLegacyCandidate (Receipt.previous journal) m).toOption.join

/-- The current pointer is on the side of the receipt to which the service is bound. -/
def PointerMatches (journal : ParsedRuntimeActivationReceipt) (candidate : Option RuntimeVersion)
    (pointer : Option (StoredFile RuntimeVersion)) : RuntimeServiceBinding → Prop
  | .candidate => ∃ version, candidate = some version ∧
      pointer.bind StoredFile.parse = some version ∧
      (Receipt.phase journal = some .committed ∨ Receipt.previous journal = some version)
  | .previous => ∃ version, Receipt.previous journal = some version ∧
      pointer.bind StoredFile.parse = some version
  | .absent => Receipt.previous journal = none ∧ pointer = none

/-- The last binding that was reported since `m` matches the pointer. -/
def Agrees (m : Machine (Attended χ)) (journal : ParsedRuntimeActivationReceipt)
    (t : Machine (Attended χ)) : Prop :=
  ∃ binding earlier,
    t.surroundings.bindings = binding :: (earlier ++ m.surroundings.bindings) ∧
      PointerMatches journal (candidateOf journal m) t.runtimePointer binding

/-- The receipt is still there, and the pointer was handled as its owner may. -/
def Safe (m : Machine (Attended χ)) (candidate : Option RuntimeVersion)
    (t : Machine (Attended χ)) : Prop :=
  t.activationJournal = m.activationJournal ∧
    PointerOwned m.runtimePointer candidate t.runtimePointer

theorem Asked.safe {m t : Machine (Attended χ)} {reported : List RuntimeServiceBinding}
    (h : Asked m reported t) (candidate : Option RuntimeVersion) : Safe m candidate t :=
  ⟨h.2.1, Or.inl h.1⟩

theorem Asked.safe_of_handled {m t u : Machine (Attended χ)}
    {reported : List RuntimeServiceBinding} {candidate : Option RuntimeVersion}
    (h : Asked m reported t) (hu : Handled t candidate u) : Safe m candidate u :=
  ⟨hu.1.trans h.2.1, h.1 ▸ hu.2.2⟩

theorem wp_recoverUncommitted {m t : Machine (Attended χ)}
    {journal : ParsedRuntimeActivationReceipt} {binding : RuntimeServiceBinding}
    (ht : Asked m [binding] t) :
    wp (recoverUncommitted env calls journal (candidateOf journal m) binding)
      (fun _ u => Safe m (candidateOf journal m) u ∧ Agrees m journal u)
      (fun _ u => Safe m (candidateOf journal m) u) (Safe m (candidateOf journal m)) t := by
  unfold recoverUncommitted
  refine wp_bind (wp_mono (wp_settleBinding t _ _ binding) (fun settled u hu => ?_)
    (fun _ _ h => (ht.andThen h).safe _) fun _ h => (ht.andThen h).safe _)
  obtain ⟨reported, hasked, hsettled⟩ := hu
  have hu := ht.andThen hasked
  refine wp_bind (wp_ensure (fun hexact => ?_) fun _ => hu.safe _)
  refine wp_mono (wp_rollbackActivationPointerAndProfile u _ _) (fun _ v hv => ?_)
    (fun _ _ h => hu.safe_of_handled h) fun _ h => hu.safe_of_handled h
  obtain ⟨hhandled, hpointer⟩ := hv
  refine ⟨hu.safe_of_handled hhandled, ?_⟩
  have hbindings : v.surroundings.bindings = (reported ++ [binding]) ++ m.surroundings.bindings := by
    rw [hhandled.2.1, hu.2.2]
  -- The side the service was brought to is the previous one.
  have hmatches : PointerMatches journal (candidateOf journal m) v.runtimePointer settled := by
    rw [hpointer]
    cases settled with
    | candidate => cases hexact
    | previous =>
      cases hprevious : Receipt.previous journal with
      | none => simp [hprevious] at hexact
      | some version => exact ⟨version, hprevious, rfl⟩
    | absent =>
      cases hprevious : Receipt.previous journal with
      | none => exact ⟨hprevious, rfl⟩
      | some version => simp [hprevious] at hexact
  rcases hsettled with ⟨rfl, rfl⟩ | rfl | ⟨rfl, rfl, rfl, hsome, hsame⟩
  · exact ⟨settled, [], hbindings, hmatches⟩
  · exact ⟨settled, [binding], hbindings, hmatches⟩
  · obtain ⟨version, hprevious, hparsed⟩ := hmatches
    exact ⟨.candidate, [], hbindings, version, hsame.trans hprevious, hparsed, Or.inr hprevious⟩

theorem wp_recoverCommitted {m t : Machine (Attended χ)}
    {journal : ParsedRuntimeActivationReceipt} {binding : RuntimeServiceBinding}
    (ht : Asked m [binding] t) (hcommitted : Receipt.phase journal = some .committed) :
    wp (recoverCommitted env journal (candidateOf journal m) binding)
      (fun _ u => Safe m (candidateOf journal m) u ∧ Agrees m journal u)
      (fun _ u => Safe m (candidateOf journal m) u) (Safe m (candidateOf journal m)) t := by
  have hsafe {u : Machine (Attended χ)} (hsame : SameTransaction t u) :
      Safe m (candidateOf journal m) u :=
    ht.safe_of_handled ((Handled.refl t _).andThen hsame)
  have hhere := hsafe (.refl t)
  unfold recoverCommitted
  cases hcandidate : candidateOf journal m with
  | none => exact wp_throw (hcandidate ▸ hhere)
  | some activated =>
    rw [hcandidate] at hsafe hhere
    refine wp_bind (wp_inspect (fun _ hrequired => ?_) (fun _ _ => hhere) hhere hhere)
    refine wp_bind (wp_ensure (fun hbinding => ?_) fun _ => hhere)
    refine wp_mono (maintains_finishCommitted t journal t (.refl t)) (fun _ u hu => ?_)
      (fun _ _ hu => hsafe hu) fun _ hu => hsafe hu
    refine ⟨hsafe hu.2, ?_⟩
    obtain rfl : binding = .candidate := eq_of_beq hbinding
    refine ⟨.candidate, [], ?_, activated, hcandidate, ?_, Or.inl hcommitted⟩
    · rw [hu.2.2.2, ht.2.2]
      rfl
    · rw [hu.2.1]
      unfold requireActivationPointer at hrequired
      obtain ⟨actual, hactual, hrequired⟩ := bind_eq_ok.1 hrequired
      have hexpected : actual = some activated := eq_of_beq (ok_of_require hrequired)
      unfold currentPointerForCommittedRecovery at hactual
      cases hpointer : t.runtimePointer with
      | none =>
        rw [hpointer] at hactual
        cases hactual
        cases hexpected
      | some file =>
        rw [hpointer] at hactual
        dsimp only at hactual
        cases hparse : file.parse with
        | none =>
          rw [hparse] at hactual
          cases hactual
        | some version =>
          rw [hparse] at hactual
          cases hactual
          exact hparse.trans hexpected

theorem wp_activatedCandidate (m : Machine χ) (journal : ParsedRuntimeActivationReceipt) :
    wp (activatedCandidate journal) (fun activated t => t = m ∧ activated = candidateOf journal m)
      (fun _ t => t = m) (· = m) m := by
  unfold activatedCandidate candidateOf
  cases Receipt.activated journal with
  | some activated => exact wp_ret ⟨rfl, rfl⟩
  | none =>
    refine wp_inspect (fun activated h => ⟨rfl, ?_⟩) (fun _ _ => rfl) rfl rfl
    rw [h]
    rfl

theorem maintains_verifiedActivationServiceBinary (m : Machine χ) (role : String)
    (version : Option RuntimeVersion) :
    Maintains (· = m) (verifiedActivationServiceBinary env role version) fun _ => True := by
  unfold verifiedActivationServiceBinary
  cases version with
  | none => exact maintains_ret trivial
  | some version => exact maintains_mapError (maintains_inspect fun _ _ _ _ => trivial)

/-- Every way in which the recovery of a receipt can end. -/
theorem wp_recoverWithServiceBinding (m : Machine (Attended χ))
    {file : StoredFile ParsedRuntimeActivationReceipt} (hjournal : m.activationJournal = some file) :
    let candidate := file.parse.bind (candidateOf · m)
    wp (recoverWithServiceBinding env calls)
      (fun _ t => PointerOwned m.runtimePointer candidate t.runtimePointer ∧
        ∃ journal, file.parse = some journal ∧ Agrees m journal t)
      (fun _ t => Safe m candidate t)
      (fun t => PointerOwned m.runtimePointer candidate t.runtimePointer) m := by
  intro candidate
  have hhere : Safe m candidate m := ⟨rfl, Or.inl rfl⟩
  unfold recoverWithServiceBinding
  refine wp_bind (wp_observe ?_)
  rw [hjournal]
  refine wp_bind (wp_inspect (fun journal hread => ?_) (fun _ _ => hhere) hhere hhere.2)
  have hparse : file.parse = some journal := by
    revert hread
    cases file.parse with
    | none => intro hread; cases hread
    | some journal' => intro hread; cases hread; rfl
  have hcandidate : candidateOf journal m = candidate := by
    dsimp only [candidate]
    rw [hparse]
    rfl
  have hstill {t : Machine (Attended χ)} (h : t = m) : Safe m candidate t := h ▸ hhere
  refine wp_bind (wp_mono (wp_activatedCandidate m journal) (fun activated t ht => ?_)
    (fun _ _ h => hstill h) fun _ h => (hstill h).2)
  obtain ⟨rfl, rfl⟩ := ht
  refine wp_bind (wp_mono (maintains_verifiedActivationServiceBinary t "candidate" _ t rfl)
    (fun _ t₁ h₁ => ?_) (fun _ _ h => hstill h) fun _ h => (hstill h).2)
  obtain rfl := h₁.2
  refine wp_bind (wp_mono (maintains_verifiedActivationServiceBinary t₁ "previous" _ t₁ rfl)
    (fun _ t₂ h₂ => ?_) (fun _ _ h => hstill h) fun _ h => (hstill h).2)
  obtain rfl := h₂.2
  refine wp_bind (wp_mono (wp_inspectServiceBinding t₂ _ _ _) (fun binding u hu => ?_)
    (fun _ _ h => hstill h) fun _ h => (hstill h).2)
  refine wp_bind (wp_mono (Q := fun _ v => Safe t₂ candidate v ∧ Agrees t₂ journal v)
    (E := fun _ v => Safe t₂ candidate v) (C := Safe t₂ candidate) ?_ (fun _ v hv => ?_)
    (fun _ _ h => h) fun _ h => h.2)
  · rw [← hcandidate]
    unfold recoverByPhase
    split
    · next hcommitted => exact wp_recoverCommitted hu hcommitted
    · exact wp_recoverUncommitted hu
  · refine wp_bind (wp_inspect (fun recovered _ => ?_) (fun _ _ => hv.1) hv.1 hv.1.2)
    refine wp_bind (wp_modify (wp_ret ?_) hv.1 hv.1.2)
    exact ⟨hv.1.2, journal, hparse, hv.2⟩

def versionOne : RuntimeVersion := ⟨"1.0.0", validRuntimeVersionComponent_one⟩

def zeroDigest : Digest :=
  ⟨"sha256:0000000000000000000000000000000000000000000000000000000000000000",
    canonicalDigest_zeros⟩

def quietEnvironment : StorageEnvironment where
  sha256Digest _ := zeroDigest
  temporaryNonce := "1-1"
  nonce_owned := ownedTemporary_first
  caughtWrites _ := []

/-- The service is registered with the binary that is asked for first. -/
def candidateCalls : ServiceBindingCalls Unit where
  inspectServiceBinding _ _ _ := (.ok .candidate, ())
  restorePreviousServiceBinding _ _ _ := (.ok (), ())

/-- The generation in use was being activated once more. -/
def reinstalling : Machine (Attended Unit) where
  runtimePointer := some (.written versionOne)
  previousRuntime := none
  runtimeVersions _ := some ⟨fun _ => some [0x4D], none, [], []⟩
  runtimeReceipts _ := some (.written ⟨versionOne, fun _ => zeroDigest⟩)
  activationJournal := some (.written (.current ⟨.candidate, some versionOne, versionOne⟩))
  activeProfile := none
  previousProfile := none
  profileGenerations _ := none
  profileJournal := none
  surroundings := ⟨(), []⟩

theorem reinstalling_recovers :
    let run := (recoverWithServiceBinding quietEnvironment candidateCalls).result [] reinstalling
    run.1 = .done (some versionOne) ∧ run.2.surroundings.bindings = [.candidate] := by
  exact ⟨by rfl, by rfl⟩

end MacTypeControl.Installer
