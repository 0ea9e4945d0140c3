import MacTypeControl.Storage.BridgeLogic
import MacTypeControl.ProfileStore.Store

/-!
# The journal of an interrupted activation

How the store stands while its journal is there, and the state that recovery is to lead to.
-/

namespace MacTypeControl.ProfileStore

open Crash Crash.Prog Profile Storage

variable {χ : Type} {env : StorageEnvironment}

/-! ## Generations that are there -/

/-- The generation, if one is named, is there with its bytes. -/
def Verified (env : StorageEnvironment) (m : Machine χ) (generation : Option GenerationId) :
    Prop :=
  ∀ g, generation = some g → ∃ bytes, verifiedGenerationBytes env m g = .ok bytes

theorem verifiedGenerationBytes_congr {m u : Machine χ}
    (h : u.profileGenerations = m.profileGenerations) (generation : GenerationId) :
    verifiedGenerationBytes env u generation = verifiedGenerationBytes env m generation := by
  unfold verifiedGenerationBytes
  rw [h]

theorem Verified.congr {m u : Machine χ} {generation : Option GenerationId}
    (h : Verified env m generation) (hsame : u.profileGenerations = m.profileGenerations) :
    Verified env u generation := by
  intro g hg
  obtain ⟨bytes, hbytes⟩ := h g hg
  exact ⟨bytes, (verifiedGenerationBytes_congr hsame g).trans hbytes⟩

theorem verifyGeneration_eq_ok {m : Machine χ} {g : GenerationId} :
    verifyGeneration env m g = .ok () ↔ ∃ bytes, verifiedGenerationBytes env m g = .ok bytes := by
  unfold verifyGeneration
  cases verifiedGenerationBytes env m g with
  | ok bytes => exact ⟨fun _ => ⟨bytes, rfl⟩, fun _ => rfl⟩
  | error e => exact ⟨(fun h => by cases h), (fun ⟨_, h⟩ => by cases h)⟩

theorem verifyOptionalGeneration_eq_ok {m : Machine χ} {generation : Option GenerationId} :
    verifyOptionalGeneration env m generation = .ok () ↔ Verified env m generation := by
  cases generation with
  | none => exact ⟨(fun _ g hg => by cases hg), fun _ => rfl⟩
  | some g =>
    refine verifyGeneration_eq_ok.trans ⟨fun h other hother => ?_, fun h => h g rfl⟩
    rw [← Option.some.inj hother]
    exact h

/-! ## The invariant -/

/-- The runtime that is active can be found, and its directory holds nothing foreign. -/
structure RuntimeStands (root : Option String) (m : Machine χ) : Prop where
  active : activeRuntimeRoot m = .ok root
  tidy : ∀ name d, root = some name → m.runtimeVersions name = some d → Tidy d

/-- How the store stands while a journal is there. -/
structure JournalLeft (env : StorageEnvironment) (root : Option String)
    (journal : ProfileActivationJournal) (t : Machine χ) : Prop where
  written : t.profileJournal = some (.written (.current journal))
  runtime : RuntimeStands root t
  activeBefore : Verified env t journal.activeBefore
  previousBefore : Verified env t journal.previousBefore
  active : ∃ generation, readPointer t .active = .ok generation ∧ Verified env t generation
  /-- Only a first profile can have been on its way out of the runtime. -/
  named : journal.phase ≠ .pointerTransition → journal.activeBefore.isSome
  untouched : journal.phase = .firstRollbackDeletePending →
    readPointer t .active = .ok journal.activeBefore ∧
      readPointer t .previous = .ok journal.previousBefore

/-- Whether recovery replaces the generated profile whatever it holds. -/
def replacesProfile (journal : ProfileActivationJournal) : Bool :=
  journal.phase = .pointerTransition ∧ journal.activeBefore.isSome

/-! ## Where recovery leads -/

def settleDirectory (env : StorageEnvironment) (m : Machine χ)
    (journal : ProfileActivationJournal) (d : RuntimeDirectory) : RuntimeDirectory :=
  let settled := d.setProfile
    (journal.activeBefore.bind fun g => (verifiedGenerationBytes env m g).toOption)
  if replacesProfile journal then settled.setTemporaries [] else settled

def settlePointer (journal : ProfileActivationJournal) (before : Option GenerationId)
    (now : Option (StoredFile GenerationId)) : Option (StoredFile GenerationId) :=
  if journal.phase = .firstRollbackDeletePending then now else before.map .written

structure PointersSettled (journal : ProfileActivationJournal) (m : Machine χ) : Prop where
  active : settlePointer journal journal.activeBefore m.activeProfile = m.activeProfile
  previous : settlePointer journal journal.previousBefore m.previousProfile = m.previousProfile

def settleDirectories (env : StorageEnvironment) (root : Option String)
    (journal : ProfileActivationJournal) (m : Machine χ) : String → Option RuntimeDirectory :=
  match root with
  | none => m.runtimeVersions
  | some name => Function.update m.runtimeVersions name
      ((m.runtimeVersions name).map (settleDirectory env m journal))

/-- The state before the activation that the journal belongs to. -/
def settle (env : StorageEnvironment) (root : Option String) (journal : ProfileActivationJournal)
    (m : Machine χ) : Machine χ :=
  { m with
    activeProfile := settlePointer journal journal.activeBefore m.activeProfile
    previousProfile := settlePointer journal journal.previousBefore m.previousProfile
    profileJournal := none
    runtimeVersions := settleDirectories env root journal m }

/-- A state that recovery passes through on its way to `s`. -/
structure Recovering (env : StorageEnvironment) (root : Option String)
    (journal : ProfileActivationJournal) (s t : Machine χ) : Prop where
  left : JournalLeft env root journal t
  leads : settle env root journal t = s

/-- Recovery is at `s`, but for the journal. -/
structure Arrived (env : StorageEnvironment) (root : Option String)
    (journal : ProfileActivationJournal) (s t : Machine χ) : Prop where
  recovering : Recovering env root journal s t
  reached : { t with profileJournal := none } = s

variable {root : Option String} {journal : ProfileActivationJournal} {s t : Machine χ}
  {name : String} {d : RuntimeDirectory}

theorem settlePointer_of_ne (h : journal.phase ≠ .firstRollbackDeletePending)
    (before : Option GenerationId) (now : Option (StoredFile GenerationId)) :
    settlePointer journal before now = before.map .written := if_neg h

theorem settle_setDirectory (hroot : root = some name) (hd : t.runtimeVersions name = some d)
    {d' : RuntimeDirectory} (h : settleDirectory env t journal d' = settleDirectory env t journal d) :
    settle env root journal (t.setDirectory name d') = settle env root journal t := by
  subst hroot
  have hsame : settleDirectory env (t.setDirectory name d') journal d' =
      settleDirectory env t journal d := h
  have hversions : settleDirectories env (some name) journal (t.setDirectory name d') =
      settleDirectories env (some name) journal t := by
    unfold settleDirectories
    dsimp only
    rw [Machine.setDirectory_self, hd, Option.map_some, Option.map_some, hsame]
    exact Function.update_idem ..
  unfold settle
  rw [hversions]
  rfl

theorem RuntimeStands.setDirectory (h : RuntimeStands root t) (hroot : root = some name)
    (hd : t.runtimeVersions name = some d) {d' : RuntimeDirectory} (htidy : Tidy d') :
    RuntimeStands root (t.setDirectory name d') where
  active := (activeRuntimeRoot_setDirectory hd d').trans h.active
  tidy other e hother he := by
    have hname : other = name := Option.some.inj (hother.symm.trans hroot)
    rw [hname, Machine.setDirectory_self] at he
    exact Option.some.inj he ▸ htidy

theorem JournalLeft.setDirectory (h : JournalLeft env root journal t) (hroot : root = some name)
    (hd : t.runtimeVersions name = some d) {d' : RuntimeDirectory} (htidy : Tidy d') :
    JournalLeft env root journal (t.setDirectory name d') where
  written := h.written
  runtime := h.runtime.setDirectory hroot hd htidy
  activeBefore := h.activeBefore
  previousBefore := h.previousBefore
  active := h.active
  named := h.named
  untouched := h.untouched

theorem JournalLeft.setPointer (h : JournalLeft env root journal t)
    (hphase : journal.phase ≠ .firstRollbackDeletePending) {generation : Option GenerationId}
    (hverified : Verified env t generation) (pointer : ProfilePointer) :
    JournalLeft env root journal (setPointer t (generation.map .written) pointer) := by
  have hread : readOptionalPointer (generation.map .written) = .ok generation := by
    cases generation <;> rfl
  cases pointer with
  | active =>
    exact ⟨h.written, ⟨h.runtime.active, h.runtime.tidy⟩, h.activeBefore, h.previousBefore,
      ⟨generation, hread, hverified⟩, h.named, fun hpending => absurd hpending hphase⟩
  | previous =>
    exact ⟨h.written, ⟨h.runtime.active, h.runtime.tidy⟩, h.activeBefore, h.previousBefore,
      h.active, h.named, fun hpending => absurd hpending hphase⟩

namespace Recovering

variable (h : Recovering env root journal s t)
include h

theorem setProfile (hroot : root = some name) (hd : t.runtimeVersions name = some d)
    (profile : Option Bytes) :
    Recovering env root journal s (t.setDirectory name (d.setProfile profile)) where
  left := h.left.setDirectory hroot hd ((h.left.runtime.tidy name d hroot hd).setProfile profile)
  leads := by
    have hsame : settleDirectory env t journal (d.setProfile profile) =
        settleDirectory env t journal d := rfl
    exact (settle_setDirectory hroot hd hsame).trans h.leads

theorem setTemporaries (hreplaces : replacesProfile journal = true) (hroot : root = some name)
    (hd : t.runtimeVersions name = some d) {temporaries : List String}
    (hleft : LeftTemporaries env d temporaries) :
    Recovering env root journal s (t.setDirectory name (d.setTemporaries temporaries)) where
  left := h.left.setDirectory hroot hd
    ((h.left.runtime.tidy name d hroot hd).setTemporaries hleft)
  leads := by
    refine (settle_setDirectory hroot hd ?_).trans h.leads
    unfold settleDirectory
    rw [if_pos hreplaces, if_pos hreplaces]
    rfl

theorem setPointer (hphase : journal.phase ≠ .firstRollbackDeletePending)
    {generation : Option GenerationId} (hverified : Verified env t generation)
    (pointer : ProfilePointer) :
    Recovering env root journal s
      (ProfileStore.setPointer t (generation.map .written) pointer) where
  left := h.left.setPointer hphase hverified pointer
  leads := by
    have hsame : settle env root journal
        (ProfileStore.setPointer t (generation.map .written) pointer) =
        settle env root journal t := by
      unfold settle
      simp only [settlePointer_of_ne hphase]
      cases pointer <;> rfl
    exact hsame.trans h.leads

/-- Recovery is where it leads once the pointers and the directory are. -/
theorem arrives (hpointers : PointersSettled journal t)
    (hdirectory : ∀ name, root = some name →
      ∃ d, t.runtimeVersions name = some (settleDirectory env t journal d)) :
    Arrived env root journal s t := by
  refine ⟨h, ?_⟩
  have hversions : settleDirectories env root journal t = t.runtimeVersions := by
    cases root with
    | none => rfl
    | some name =>
      obtain ⟨d, hd⟩ := hdirectory name rfl
      have hagain : settleDirectory env t journal (settleDirectory env t journal d) =
          settleDirectory env t journal d := by
        unfold settleDirectory
        split <;> rfl
      unfold settleDirectories
      dsimp only
      rw [hd, Option.map_some, hagain, ← hd, Function.update_eq_self]
  rw [← h.leads]
  unfold settle
  rw [hpointers.active, hpointers.previous, hversions]

end Recovering

/-! ## What recovery accepts -/

/-- The generation whose bytes can be beside the DLLs while the journal is there. -/
def expectedGeneration (m : Machine χ) (journal : ProfileActivationJournal) :
    Option GenerationId :=
  match journal.phase, readPointer m .active with
  | .pointerTransition, .ok activeAfter => activeAfter
  | .pointerTransition, .error _ => none
  | _, _ => journal.activeBefore

/-- Nothing is beside the DLLs, or exactly the bytes of the generation are. -/
def HoldsGeneration (env : StorageEnvironment) (m : Machine χ) (generation : Option GenerationId)
    (profile : Option Bytes) : Prop :=
  profile = none ∨ ∃ g bytes, generation = some g ∧
    verifiedGenerationBytes env m g = .ok bytes ∧ profile = some bytes

/-- What recovery can deal with beside the DLLs: anything within bounds where it replaces the
profile, otherwise only what it knows. -/
def Accepts (env : StorageEnvironment) (journal : ProfileActivationJournal) (m : Machine χ)
    (name : String) : Prop :=
  if replacesProfile journal then BoundedProfile (m.generatedProfile name)
  else HoldsGeneration env m (expectedGeneration m journal) (m.generatedProfile name)

theorem accepts_replaced {m : Machine χ} (h : replacesProfile journal = true) :
    Accepts env journal m name ↔ BoundedProfile (m.generatedProfile name) := by
  unfold Accepts
  rw [if_pos h]

theorem accepts_kept {m : Machine χ} (h : replacesProfile journal = false) :
    Accepts env journal m name ↔
      HoldsGeneration env m (expectedGeneration m journal) (m.generatedProfile name) := by
  unfold Accepts
  rw [if_neg (by simp [h])]

theorem expectedGeneration_of_ne {m : Machine χ} (h : journal.phase ≠ .pointerTransition) :
    expectedGeneration m journal = journal.activeBefore := by
  unfold expectedGeneration
  cases hphase : journal.phase with
  | pointerTransition => exact absurd hphase h
  | firstRollbackDeletePending => rfl
  | firstRollbackDeleteConfirmed => rfl

/-- During a transition the bytes can be those of the generation that is active now. -/
theorem expectedGeneration_of_read {m : Machine χ} {activeAfter : Option GenerationId}
    (hphase : journal.phase = .pointerTransition)
    (hread : readPointer m .active = .ok activeAfter) :
    expectedGeneration m journal = activeAfter := by
  unfold expectedGeneration
  rw [hphase, hread]

/-- The generated profile is accounted for by the journal, if there is one. -/
def ProfileAccounted (env : StorageEnvironment) (m : Machine χ) : Prop :=
  ∀ journal name, m.profileJournal = some (.written (.current journal)) →
    activeRuntimeRoot m = .ok (some name) → Accepts env journal m name

theorem JournalLeft.profileAccounted_iff (h : JournalLeft env root journal t) :
    ProfileAccounted env t ↔ ∀ name, root = some name → Accepts env journal t name := by
  constructor
  · rintro haccounted name rfl
    exact haccounted journal name h.written h.runtime.active
  · intro haccepts other name hother hname
    have hsame : other = journal := by
      have hwritten := hother.symm.trans h.written
      injections
    have hroot : root = some name := Except.ok.inj (h.runtime.active.symm.trans hname)
    rw [hsame]
    exact haccepts name hroot

theorem holdsGeneration_some {g : GenerationId} {bytes : Bytes} {profile : Option Bytes}
    (hbytes : verifiedGenerationBytes env t g = .ok bytes) :
    HoldsGeneration env t (some g) profile ↔ Holds profile bytes := by
  refine or_congr_right ⟨?_, fun h => ⟨g, bytes, rfl, hbytes, h⟩⟩
  rintro ⟨g', bytes', hg, hbytes', h⟩
  cases Option.some.inj hg
  rw [h, Except.ok.inj (hbytes'.symm.trans hbytes)]

theorem holdsGeneration_none {profile : Option Bytes} :
    HoldsGeneration env t none profile ↔ profile = none := by
  refine ⟨?_, Or.inl⟩
  rintro (h | ⟨_, _, hnone, _⟩)
  · exact h
  · cases hnone

end MacTypeControl.ProfileStore
