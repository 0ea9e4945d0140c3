import MacTypeControl.Execution.Runtime

/-!
# The profile that the user designated

An operation that finds the runtime of `active.json` hands its profile to the machine and
changes nothing else. Any reason for not finding it is taken for the absence of `active.json`, so
the designated profile is kept only where the fallback cannot be carried out.
-/

namespace MacTypeControl.Execution

open Profile

variable {μ : Type} {env : Surroundings μ} {s : Managed μ}

/-- `active.json` names a complete runtime with this profile. -/
def Designates (env : Surroundings μ) (s : Managed μ) (payload : Bytes) : Prop :=
  ∃ active root, activeRuntimeFrom env s = .ok (active, root) ∧
    (root.file "profile.ini").content = .ok payload

/-- The active profile stays what it was: in `active.json`, and in that no profile was made the
active one. -/
def SameActive (s s' : Managed μ) : Prop := s'.pointer = s.pointer ∧ s'.applied = s.applied

/-- Where there is an `active.json`, the operation keeps it, chooses no profile of its own, and
hands over the designated profile or fails without the machine. -/
def KeepsDesignated (env : Surroundings μ) (operation : Operation) (s : Managed μ) : Prop :=
  s.pointer.isSome = true →
    SameActive s (perform env operation s).2 ∧
      ((∃ payload, Designates env s payload ∧
          (perform env operation s).1 = (handOver env operation payload s.machine).1 ∧
          (perform env operation s).2.machine = (handOver env operation payload s.machine).2) ∨
        ((perform env operation s).1.isOk = false ∧
          (perform env operation s).2.machine = s.machine))

/-- The directory of a new generation can be staged, and takes its place or finds it taken. -/
structure Stages (writes : Writes) (names : List String) : Prop where
  stale : writes.stagingExists = true → writes.removeStaleStaging = .ok ()
  created : writes.createStaging = .ok ()
  written : ∀ name ∈ names, writes.writeStaged name = .ok ()
  placed : writes.rename = .ok () ∨
    (writes.madeMeanwhile.isSome = true ∧ writes.removeStaging = .ok ())

/-- A runtime can be prepared for the profile: its artifacts are read, and its generation is there
already or can be staged. -/
def Preparable (env : Surroundings μ) (installation : Installation) (profileBytes : Bytes)
    (s : Managed μ) : Prop :=
  profileBytes ≠ [] ∧ profileBytes.length ≤ maxProfileBytes ∧ installation.resolves = .ok () ∧
    ∃ sources, collectArtifacts installation runtimeArtifacts = .ok sources ∧
      env.writes.createGenerations = .ok () ∧
      ((s.folder (env.generationPath (generationId env profileBytes sources))).isOk = true ∨
        Stages env.writes (sources.map Prod.fst ++ ["profile.ini", "MacType.ini"]))

/-- There is a bundled default, a runtime can be prepared for it, and the write of `active.json`
comes through. -/
def DefaultApplies (env : Surroundings μ) (s : Managed μ) : Prop :=
  ∃ installation bytes, env.installation = some installation ∧
    bundledDefaultProfilePayload env installation = .ok bytes ∧
    Preparable env installation bytes s ∧ env.writes.replacePointer = .ok ()

/-- The operation comes to its fallback, and the fallback to its end. -/
def FallbackWrites (env : Surroundings μ) (operation : Operation) (s : Managed μ) : Prop :=
  (operation = .trayApply → s.paused = false) ∧ DefaultApplies env s

/-! ## One call -/

theorem SameActive.trans {s₁ s₂ s₃ : Managed μ} (h : SameActive s₁ s₂) (h' : SameActive s₂ s₃) :
    SameActive s₁ s₃ := ⟨h'.1.trans h.1, h'.2.trans h.2⟩

/-- Preparing a generation changes the directories only. -/
theorem prepareGeneration_state (installation : Installation) (bytes : Bytes) :
    SameActive s (prepareGeneration env installation bytes s).2 ∧
      (prepareGeneration env installation bytes s).2.machine = s.machine := by
  unfold prepareGeneration
  dsimp only
  split
  · exact ⟨⟨rfl, rfl⟩, rfl⟩
  split
  · exact ⟨⟨rfl, rfl⟩, rfl⟩
  split
  · exact ⟨⟨rfl, rfl⟩, rfl⟩
  split <;> exact ⟨⟨rfl, rfl⟩, rfl⟩

theorem stageGeneration_ok (names : List String) :
    (∃ meanwhile, stageGeneration env names = .ok meanwhile) ↔ Stages env.writes names := by
  unfold stageGeneration
  simp only [bind_eq_ok]
  constructor
  · rintro ⟨meanwhile, ⟨⟩, hstale, ⟨⟩, hcreated, ⟨⟩, hwritten, hplaced⟩
    refine ⟨fun hexists => by rwa [hexists] at hstale, hcreated, forM_eq_ok_iff.1 hwritten, ?_⟩
    cases hrename : env.writes.rename with
    | ok _ => exact Or.inl rfl
    | error error =>
      rw [hrename] at hplaced
      dsimp only at hplaced
      split_ifs at hplaced with hmade
      obtain ⟨⟨⟩, hremoved, -⟩ := bind_eq_ok.1 hplaced
      exact Or.inr ⟨hmade, hremoved⟩
  · intro h
    have hstale : (bif env.writes.stagingExists then env.writes.removeStaleStaging else .ok ()) =
        .ok () := by
      cases hexists : env.writes.stagingExists with
      | true => exact h.stale hexists
      | false => rfl
    cases hrename : env.writes.rename with
    | ok _ => exact ⟨none, (), hstale, (), h.created, (), forM_eq_ok_iff.2 h.written, rfl⟩
    | error error =>
      obtain ⟨hmade, hremoved⟩ := h.placed.resolve_left (by rw [hrename]; simp)
      refine ⟨env.writes.madeMeanwhile, (), hstale, (), h.created, (), forM_eq_ok_iff.2 h.written, ?_⟩
      dsimp only
      rw [if_pos hmade]
      exact bind_eq_ok.2 ⟨(), hremoved, rfl⟩

theorem collectSources_ok {installation : Installation} {bytes : Bytes}
    {sources : List (String × Bytes)} :
    collectSources installation bytes = .ok sources ↔ bytes ≠ [] ∧ bytes.length ≤ maxProfileBytes ∧
      installation.resolves = .ok () ∧ collectArtifacts installation runtimeArtifacts = .ok sources := by
  unfold collectSources
  simp only [bind_eq_ok]
  constructor
  · rintro ⟨⟨⟩, hne, ⟨⟩, hlength, ⟨⟩, hresolves, hcollected⟩
    exact ⟨by simpa using ok_of_require hne, of_decide_eq_true (ok_of_require hlength), hresolves,
      hcollected⟩
  · rintro ⟨hne, hlength, hresolves, hcollected⟩
    exact ⟨(), require_true _ (by simpa using hne), (), require_true _ (decide_eq_true hlength), (),
      hresolves, hcollected⟩

theorem prepareGeneration_ok (installation : Installation) (bytes : Bytes) :
    (∃ generation, (prepareGeneration env installation bytes s).1 = .ok generation) ↔
      Preparable env installation bytes s := by
  unfold prepareGeneration Preparable
  cases hsources : collectSources installation bytes with
  | error error =>
    refine iff_of_false (fun h => by cases h.choose_spec) ?_
    rintro ⟨hne, hlength, hresolves, sources, hcollected, -⟩
    rw [collectSources_ok.2 ⟨hne, hlength, hresolves, hcollected⟩] at hsources
    cases hsources
  | ok sources =>
    obtain ⟨hne, hlength, hresolves, hcollected⟩ := collectSources_ok.1 hsources
    simp only [hne, hlength, hresolves, hcollected, ne_eq, not_false_eq_true, true_and,
      Except.ok.injEq, exists_eq_left']
    cases env.writes.createGenerations with
    | error error => simp
    | ok _ =>
      dsimp only
      split_ifs with hthere
      · simp [hthere]
      · rw [← stageGeneration_ok]
        cases stageGeneration env (sources.map Prod.fst ++ ["profile.ini", "MacType.ini"]) <;>
          simp [hthere]

/-- A runtime is prepared up to the write of `active.json` or beyond it. -/
theorem prepareRuntimeAt_cases (installation : Installation) (reference : String) (bytes : Bytes) :
    let prepared := prepareRuntimeAt env installation reference bytes s
    let writes := Preparable env installation bytes s ∧ env.writes.replacePointer = .ok ()
    (¬writes ∧ prepared.1.isOk = false ∧ SameActive s prepared.2 ∧
        prepared.2.machine = s.machine) ∨
      (writes ∧ prepared.2.applied = bytes :: s.applied) := by
  obtain ⟨hsame, hmachine⟩ := @prepareGeneration_state _ env s installation bytes
  rw [← prepareGeneration_ok]
  unfold prepareRuntimeAt
  revert hsame hmachine
  rcases prepareGeneration env installation bytes s with ⟨error | generation, s₁⟩ <;>
    intro hsame hmachine <;> dsimp only
  · exact Or.inl ⟨(fun h => by cases h.1.choose_spec), rfl, hsame, hmachine⟩
  · cases hreplace : env.writes.replacePointer with
    | error error => exact Or.inl ⟨(fun h => by cases h.2), rfl, hsame, hmachine⟩
    | ok u =>
      refine Or.inr ⟨⟨⟨generation, rfl⟩, rfl⟩, ?_⟩
      rw [← hsame.2]

/-- The runtime that is there is used as it is. -/
theorem profileFor_of_active {active : ActiveRuntime} {root : Folder} (operation : Operation)
    (h : activeRuntimeFrom env s = .ok (active, root)) :
    (profileFor env operation s).2 = s ∧
      ∀ profile, (profileFor env operation s).1 = .ok profile →
        (root.file "profile.ini").content = .ok profile := by
  have hpayload {profile : Bytes} (hread : activeProfilePayloadAt (root.file "profile.ini") =
      .ok profile) : (root.file "profile.ini").content = .ok profile := by
    unfold activeProfilePayloadAt readBounded at hread
    obtain ⟨bytes, hbytes, hread⟩ := bind_eq_ok.1 hread
    obtain ⟨content, hcontent, hbytes⟩ := bind_eq_ok.1 hbytes
    obtain ⟨-, -, hbytes⟩ := bind_eq_ok.1 hbytes
    obtain ⟨-, -, hread⟩ := bind_eq_ok.1 hread
    cases hbytes
    cases hread
    exact hcontent
  have hsystem {profile : Bytes} (hread : activeSystemProfilePayload env s = .ok profile) :
      (root.file "profile.ini").content = .ok profile := by
    unfold activeSystemProfilePayload at hread
    rw [h] at hread
    obtain ⟨found, hfound, hread⟩ := bind_eq_ok.1 hread
    cases hfound
    obtain ⟨length, -, hread⟩ := bind_eq_ok.1 hread
    obtain ⟨-, -, hread⟩ := bind_eq_ok.1 hread
    exact hpayload hread
  have hensure : ensureActiveRuntime env s = (.ok false, s) := by
    unfold ensureActiveRuntime
    rw [h]
    rfl
  cases operation with
  | serviceStart =>
    unfold profileFor
    dsimp only
    cases env.installation with
    | none => exact ⟨rfl, fun _ hread => by cases hread⟩
    | some installation =>
      dsimp only
      unfold serviceStartProfileAt
      rw [h]
      exact ⟨rfl, fun _ hread => hpayload hread⟩
  | activate =>
    unfold profileFor
    dsimp only
    rw [hensure]
    exact ⟨rfl, fun _ hread => hsystem hread⟩
  | trayApply =>
    unfold profileFor
    dsimp only
    split
    · exact ⟨rfl, fun _ hread => by cases hread⟩
    · rw [hensure]
      exact ⟨rfl, fun _ hread => hsystem hread⟩

/-- Nothing was done to the active profile or to the machine, and nothing is handed over. -/
def Refused {α : Type} (s : Managed μ) (outcome : Except String α × Managed μ) : Prop :=
  outcome.1.isOk = false ∧ SameActive s outcome.2 ∧ outcome.2.machine = s.machine

theorem Refused.here {α : Type} (error : String) :
    Refused s ((.error error : Except String α), s) := ⟨rfl, ⟨rfl, rfl⟩, rfl⟩

theorem ensureActiveRuntime_cases (h : (activeRuntimeFrom env s).isOk = false) :
    (¬DefaultApplies env s ∧ Refused s (ensureActiveRuntime env s)) ∨
      (DefaultApplies env s ∧
        ∃ bytes, (ensureActiveRuntime env s).2.applied = bytes :: s.applied) := by
  unfold ensureActiveRuntime DefaultApplies
  rw [h, if_neg Bool.false_ne_true]
  cases env.installation with
  | none => exact Or.inl ⟨by simp, .here _⟩
  | some installation =>
    dsimp only
    cases hdefault : bundledDefaultProfilePayload env installation with
    | error error =>
      refine Or.inl ⟨?_, .here _⟩
      rintro ⟨_, bytes, hsame, hbytes, -⟩
      cases hsame
      rw [hdefault] at hbytes
      cases hbytes
    | ok bytes =>
      have hprepared := @prepareRuntimeAt_cases _ env s installation defaultReference bytes
      dsimp only at hprepared ⊢
      revert hprepared
      rcases prepareRuntimeAt env installation defaultReference bytes s with ⟨error | found, s₁⟩ <;>
        intro hprepared <;> dsimp only at hprepared ⊢
      · rcases hprepared with ⟨hnot, -, hsame, hmachine⟩ | ⟨hwrites, happlied⟩
        · refine Or.inl ⟨?_, rfl, hsame, hmachine⟩
          rintro ⟨_, bytes', hinstallation, hbytes, hwrites⟩
          cases hinstallation
          rw [hdefault] at hbytes
          cases hbytes
          exact hnot hwrites
        · exact Or.inr ⟨⟨installation, bytes, rfl, hdefault, hwrites⟩, bytes, happlied⟩
      · rcases hprepared with ⟨-, hfailed, -⟩ | ⟨hwrites, happlied⟩
        · cases hfailed
        · exact Or.inr ⟨⟨installation, bytes, rfl, hdefault, hwrites⟩, bytes, happlied⟩

/-- Starting the service falls back as the other operations do. -/
theorem serviceStartProfileAt_fallback {installation : Installation}
    (hinstallation : env.installation = some installation)
    (h : (activeRuntimeFrom env s).isOk = false) :
    (serviceStartProfileAt env installation s).2 = (ensureActiveRuntime env s).2 ∧
      ((ensureActiveRuntime env s).1.isOk = false →
        (serviceStartProfileAt env installation s).1.isOk = false) := by
  unfold serviceStartProfileAt ensureActiveRuntime
  rw [h, hinstallation, if_neg Bool.false_ne_true]
  cases hactive : activeRuntimeFrom env s with
  | ok found =>
    rw [hactive] at h
    cases h
  | error error =>
    dsimp only
    cases bundledDefaultProfilePayload env installation with
    | error error => exact ⟨rfl, id⟩
    | ok bytes =>
      dsimp only
      rcases prepareRuntimeAt env installation defaultReference bytes s with ⟨error | found, s₁⟩
      · exact ⟨rfl, id⟩
      · exact ⟨rfl, fun hfailed => by cases hfailed⟩

/-- The payload of the active system profile, once there is an active runtime. -/
def ensuredSystemPayload (env : Surroundings μ) (s : Managed μ) :
    Except String Bytes × Managed μ :=
  match ensureActiveRuntime env s with
  | (.error error, s) => (.error error, s)
  | (.ok _, s) => (activeSystemProfilePayload env s, s)

/-- Where the runtime is not found, the operation fails as if nothing had happened, or it has
made the bundled default the active profile. -/
theorem profileFor_of_no_active (operation : Operation)
    (h : (activeRuntimeFrom env s).isOk = false) :
    (¬FallbackWrites env operation s ∧ Refused s (profileFor env operation s)) ∨
      (FallbackWrites env operation s ∧
        ∃ bytes, (profileFor env operation s).2.applied = bytes :: s.applied) := by
  have hensure := ensureActiveRuntime_cases h
  have hsystem : (¬DefaultApplies env s ∧ Refused s (ensuredSystemPayload env s)) ∨
      (DefaultApplies env s ∧
        ∃ bytes, (ensuredSystemPayload env s).2.applied = bytes :: s.applied) := by
    unfold ensuredSystemPayload
    revert hensure
    rcases ensureActiveRuntime env s with ⟨error | applied, s₁⟩ <;> intro hensure
    · exact hensure.imp id id
    · rcases hensure with ⟨-, hrefused⟩ | happlied
      · cases hrefused.1
      · exact Or.inr happlied
  unfold FallbackWrites profileFor
  cases operation with
  | serviceStart =>
    dsimp only
    cases hinstallation : env.installation with
    | none =>
      refine Or.inl ⟨?_, .here _⟩
      rintro ⟨-, installation, -, hsome, -⟩
      rw [hinstallation] at hsome
      cases hsome
    | some installation =>
      obtain ⟨hstate, hfails⟩ := serviceStartProfileAt_fallback hinstallation h
      rcases hensure with ⟨hnot, hrefused⟩ | ⟨happlies, hbytes⟩
      · exact Or.inl ⟨fun hwrites => hnot hwrites.2, hfails hrefused.1, hstate ▸ hrefused.2.1,
          hstate ▸ hrefused.2.2⟩
      · exact Or.inr ⟨⟨(fun hother => by cases hother), happlies⟩, hstate ▸ hbytes⟩
  | activate =>
    rcases hsystem with ⟨hnot, hrefused⟩ | ⟨happlies, hbytes⟩
    · exact Or.inl ⟨fun hwrites => hnot hwrites.2, hrefused⟩
    · exact Or.inr ⟨⟨(fun hother => by cases hother), happlies⟩, hbytes⟩
  | trayApply =>
    dsimp only
    cases hpaused : s.paused with
    | true => exact Or.inl ⟨(fun hwrites => by cases hwrites.1 rfl), .here _⟩
    | false =>
      rw [if_neg Bool.false_ne_true]
      rcases hsystem with ⟨hnot, hrefused⟩ | ⟨happlies, hbytes⟩
      · exact Or.inl ⟨fun hwrites => hnot hwrites.2, hrefused⟩
      · exact Or.inr ⟨⟨fun _ => rfl, happlies⟩, hbytes⟩

/-- The machine's part changes nothing of the managed directory. -/
theorem perform_state (operation : Operation) :
    SameActive (profileFor env operation s).2 (perform env operation s).2 := by
  unfold perform
  rcases profileFor env operation s with ⟨error | profile, s₁⟩ <;> exact ⟨rfl, rfl⟩

/-- The designated profile is kept exactly where there is none, where the runtime that
`active.json` names is found, or where the fallback does not come to its end. -/
theorem keepsDesignated_iff (env : Surroundings μ) (operation : Operation) (s : Managed μ) :
    KeepsDesignated env operation s ↔
      s.pointer = none ∨ (activeRuntimeFrom env s).isOk = true ∨
        ¬FallbackWrites env operation s := by
  have hstate := @perform_state _ env s operation
  constructor
  · intro hkeeps
    by_cases hpointer : s.pointer = none
    · exact Or.inl hpointer
    · refine Or.inr (or_iff_not_imp_left.2 fun hinactive hwrites => ?_)
      obtain ⟨⟨-, happlied⟩, -⟩ := hkeeps (Option.isSome_iff_ne_none.2 hpointer)
      rw [Bool.not_eq_true] at hinactive
      rcases profileFor_of_no_active operation hinactive with ⟨hnot, -⟩ | ⟨-, bytes, hbytes⟩
      · exact hnot hwrites
      · -- The default was made the active profile, so one more profile was.
        have hlength := congrArg List.length (happlied.symm.trans (hstate.2.trans hbytes))
        rw [List.length_cons] at hlength
        omega
  · rintro hwhen hpointer
    cases hactive : activeRuntimeFrom env s with
    | ok found =>
      obtain ⟨active, root⟩ := found
      obtain ⟨hsame, hprofile⟩ := profileFor_of_active operation hactive
      rw [hsame] at hstate
      refine ⟨hstate, ?_⟩
      unfold perform
      revert hsame hprofile
      rcases profileFor env operation s with ⟨error | profile, s₁⟩ <;> intro hsame hprofile
      · exact Or.inr ⟨rfl, congrArg Managed.machine hsame⟩
      · obtain rfl : s₁ = s := hsame
        exact Or.inl ⟨profile, ⟨active, root, hactive, hprofile profile rfl⟩, rfl, rfl⟩
    | error error =>
      have hinactive : (activeRuntimeFrom env s).isOk = false := by
        rw [hactive]
        rfl
      rcases profileFor_of_no_active operation hinactive with ⟨-, hrefused⟩ | ⟨hwrites, -⟩
      · refine ⟨hrefused.2.1.trans hstate, Or.inr ?_⟩
        revert hrefused
        unfold perform
        rcases profileFor env operation s with ⟨error | profile, s₁⟩ <;> intro hrefused
        · exact ⟨rfl, hrefused.2.2⟩
        · cases hrefused.1
      · rcases hwhen with hnone | hok | hnot
        · rw [hnone] at hpointer
          cases hpointer
        · rw [hinactive] at hok
          cases hok
        · exact absurd hwrites hnot

/-! ## A pointer that is malformed -/

/-- A profile in UTF-16: `[A]` and `b=1`. -/
def defaultProfile : Bytes :=
  [0xFF, 0xFE, 0x5B, 0, 0x41, 0, 0x5D, 0, 0x0A, 0, 0x62, 0, 0x3D, 0, 0x31, 0]

/-- An installation that works, and a machine that holds the profile it was handed. -/
def workingSurroundings : Surroundings Bytes where
  parse bytes := if bytes = [0x31] then .ok ⟨"generations\\new", defaultReference⟩
    else .error "expected value"
  toVecPretty _ := [0x31]
  sha256 bytes := bytes
  legacyDecodes _ := false
  generationPath _ := "generations\\new"
  installation := some
    { resolves := .ok ()
      artifact := fun name => if name = "MacLoader.exe" ∨ name = "MacType.dll"
        then ⟨true, .ok true, .ok [0x4D]⟩ else ⟨false, .ok true, .error "file not found"⟩
      default := .holding defaultProfile }
  writes := ⟨.ok (), false, .ok (), .ok (), fun _ => .ok (), .ok (), none, .ok (), .ok (), .ok ()⟩
  execute _ profile _ := (.ok (), profile)
  designateRunProfile profile _ := (.ok .live, profile)

/-- `active.json` is there and is no JSON. -/
def malformedPointer : Managed Bytes where
  pointer := some (.holding [0x6E, 0x6F])
  generations := .ok ()
  folder _ := .error "file not found"
  paused := false
  machine := [0x75]
  applied := []

/-- Starting the service replaces a designation it cannot read by the bundled default. -/
theorem malformed_pointer_is_replaced :
    ¬KeepsDesignated workingSurroundings .serviceStart malformedPointer := by
  intro hkeeps
  obtain ⟨⟨-, happlied⟩, -⟩ := hkeeps rfl
  have hdefault : (perform workingSurroundings .serviceStart malformedPointer).2.applied =
      [defaultProfile] := by rfl
  rw [hdefault] at happlied
  cases happlied

end MacTypeControl.Execution
