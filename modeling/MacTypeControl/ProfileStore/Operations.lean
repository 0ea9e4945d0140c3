import MacTypeControl.ProfileStore.Recovery

/-!
# What the operations of the profile store leave

Every operation, stopped or failed anywhere, leaves either no journal or one from which the
store can be recovered.
-/

namespace MacTypeControl.ProfileStore

open Crash Crash.Prog Profile Storage

variable {χ : Type} {env : StorageEnvironment} {root : Option String}
  {journal : ProfileActivationJournal} {m t : Machine χ}

/-- A store on which no activation is in progress. -/
structure Sound (env : StorageEnvironment) (m : Machine χ) : Prop where
  journal : m.profileJournal = none
  runtime : ∃ root, RuntimeStands root m
  active : ∃ generation, readPointer m .active = .ok generation ∧ Verified env m generation
  previous : ∃ generation, readPointer m .previous = .ok generation ∧ Verified env m generation

inductive ProfileOperation where
  | publishAndActivate (profileBytes : Bytes) (sourceMetadata : SourceMetadata)
  | activate (generation : GenerationId)
  | rollback

def ProfileOperation.program (env : StorageEnvironment) :
    ProfileOperation → Prog (Machine χ) SetupError Unit
  | .publishAndActivate profileBytes sourceMetadata => do
    let _ ← ProfileStore.publishAndActivate env profileBytes sourceMetadata
    ret ()
  | .activate generation => ProfileStore.activate env generation
  | .rollback => do
    let _ ← ProfileStore.rollback env
    ret ()

/-! ## Under a journal -/

/-- The journal is there, and so is the generation that is to become active. -/
structure Moving (env : StorageEnvironment) (root : Option String)
    (journal : ProfileActivationJournal) (generation : Option GenerationId) (t : Machine χ) :
    Prop where
  left : JournalLeft env root journal t
  verified : Verified env t generation

theorem Moving.setDirectory {generation : Option GenerationId} {name : String}
    {d d' : RuntimeDirectory} (h : Moving env root journal generation t)
    (hroot : root = some name) (hd : t.runtimeVersions name = some d) (htidy : Tidy d') :
    Moving env root journal generation (t.setDirectory name d') :=
  ⟨h.left.setDirectory hroot hd htidy, h.verified⟩

theorem maintains_restorePointer {generation target : Option GenerationId}
    (hphase : journal.phase ≠ .firstRollbackDeletePending) (pointer : ProfilePointer)
    (htarget : ∀ u : Machine χ, Moving env root journal generation u → Verified env u target) :
    Maintains (Moving env root journal generation)
      (restorePointer pointer target : Prog (Machine χ) SetupError Unit) fun _ => True := by
  rw [restorePointer_eq]
  refine maintains_modify fun u hu =>
    ⟨hu.left.setPointer hphase (htarget u hu) pointer, hu.verified.congr ?_⟩
  cases pointer <;> rfl

theorem maintains_materialize {generation : GenerationId} :
    Maintains (Moving env root journal (some generation))
      (materializeGeneration env generation : Prog (Machine χ) SetupError Bool)
      fun _ => True := by
  intro u hu
  obtain ⟨bytes, hbytes⟩ := hu.verified generation rfl
  cases root with
  | none =>
    refine wp_mono (robust_materializeGeneration_none hu.left.runtime.active).1 ?_ ?_ ?_
    · rintro _ v rfl
      exact ⟨trivial, hu⟩
    · rintro _ v rfl
      exact hu
    · rintro v rfl
      exact hu
  | some name =>
    obtain ⟨d, hd⟩ := directory_of_activeRuntimeRoot hu.left.runtime.active
    have htidy := hu.left.runtime.tidy name d rfl hd
    refine wp_mono (wp_materializeGeneration hu.left.runtime.active hd htidy hbytes) ?_ ?_ ?_
    · rintro _ v ⟨_, rfl⟩
      have hcleared : Tidy ((d.setProfile (some bytes)).setTemporaries []) :=
        ⟨htidy.foreign, (fun suffix hsuffix => by cases hsuffix), by
          change 0 + 6 ≤ maxRuntimeEntriesDuringProfileRecovery
          decide⟩
      exact ⟨trivial, hu.setDirectory rfl hd hcleared⟩
    · rintro _ v ⟨left, hleft, rfl⟩
      exact hu.setDirectory rfl hd (htidy.setTemporaries hleft)
    · rintro v ⟨left, hleft, rfl⟩
      exact hu.setDirectory rfl hd (htidy.setTemporaries hleft)

theorem maintains_switchTo {generation : GenerationId}
    (hphase : journal.phase ≠ .firstRollbackDeletePending) :
    Maintains (Moving env root journal (some generation)) (do
        writePointer .active generation
        let _ ← materializeGeneration env generation
        ret () : Prog (Machine χ) SetupError Unit) fun _ => True :=
  maintains_bind (maintains_restorePointer hphase .active fun _ hu => hu.verified) fun _ _ =>
    maintains_bind maintains_materialize fun _ _ => maintains_ret trivial

/-- A transition is followed by the removal of its journal, or by recovery. -/
theorem wp_finishActivation {generation : Option GenerationId}
    {transition : Prog (Machine χ) SetupError Unit}
    (htransition : Maintains (Moving env root journal generation) transition fun _ => True)
    (h : Moving env root journal generation t) :
    wp (finishActivationTransaction env transition) (fun _ => Left env) (fun _ => Left env)
      (Left env) t := by
  have hinterrupted : ∀ u : Machine χ, Moving env root journal generation u → Left env u :=
    fun u hu => .interrupted hu.left
  unfold finishActivationTransaction
  refine wp_bind (wp_attempt (wp_mono (htransition t h) ?_ ?_ hinterrupted))
  · rintro _ u ⟨_, hu⟩
    exact wp_modify (.settled rfl) (hinterrupted u hu) (hinterrupted u hu)
  · intro e u hu
    have hstart : Recovering env root journal (settle env root journal u) u := ⟨hu.left, rfl⟩
    refine wp_bind (wp_attempt (wp_mono (wp_recoverInterruptedActivation hstart) ?_ ?_ ?_))
    · rintro recovered v ⟨rfl, _⟩
      exact wp_throw (.settled rfl)
    · exact fun _ v hv => wp_throw (.interrupted hv.left)
    · exact fun v hv => .interrupted hv.left

/-! ## Activation -/

def withJournal (m : Machine χ) (journal : ProfileActivationJournal) : Machine χ :=
  { m with profileJournal := some (.written (.current journal)) }

/-- The journal of a transition that has only begun. -/
theorem Sound.begin (h : Sound env m) (phase : ProfileActivationPhase)
    {activeBefore previousBefore : Option GenerationId} (hroot : RuntimeStands root m)
    (hactive : readPointer m .active = .ok activeBefore)
    (hprevious : readPointer m .previous = .ok previousBefore)
    (hnamed : phase ≠ .pointerTransition → activeBefore.isSome) :
    JournalLeft env root ⟨phase, activeBefore, previousBefore⟩
      (withJournal m ⟨phase, activeBefore, previousBefore⟩) := by
  obtain ⟨active, hreadActive, hverifiedActive⟩ := h.active
  obtain ⟨previous, hreadPrevious, hverifiedPrevious⟩ := h.previous
  cases hactive.symm.trans hreadActive
  cases hprevious.symm.trans hreadPrevious
  exact ⟨rfl, ⟨hroot.active, hroot.tidy⟩, hverifiedActive, hverifiedPrevious,
    ⟨activeBefore, hactive, hverifiedActive⟩, hnamed, fun _ => ⟨hactive, hprevious⟩⟩

theorem wp_activate (h : Sound env m) (generation : GenerationId) :
    wp (activate env generation) (fun _ => Left env) (fun _ => Left env) (Left env) m := by
  have hm : Left env m := .settled h.journal
  unfold activate
  refine wp_bind (wp_mono (wp_recover_settled h.journal) ?_ (fun _ _ hu => hu.elim)
    fun _ hu => hu.elim)
  rintro _ u rfl
  refine wp_bind (wp_inspect (fun _ hverify => ?_) (fun _ _ => hm) hm hm)
  have hverified : Verified env u (some generation) :=
    verifyOptionalGeneration_eq_ok.1 hverify
  refine wp_bind (wp_inspect (fun active hactive => ?_) (fun _ _ => hm) hm hm)
  obtain ⟨root, hroot⟩ := h.runtime
  split
  · -- Nothing but the directories is touched where the generation is already active.
    have hkept : Maintains (fun v : Machine χ => v.profileJournal = none)
        (materializeGeneration env generation) fun _ => True :=
      maintains_materializeGeneration (fun _ _ _ hv => hv) generation
    exact wp_bind (wp_mono (hkept u h.journal)
      (fun _ _ hv => wp_ret (.settled hv.2)) (fun _ _ hv => .settled hv) fun _ hv => .settled hv)
  · refine wp_bind (wp_inspect (fun previousBefore hprevious => ?_) (fun _ _ => hm) hm hm)
    have hbegun := h.begin .pointerTransition hroot hactive hprevious
      fun hne => absurd rfl hne
    have hphase : ProfileActivationPhase.pointerTransition ≠ .firstRollbackDeletePending := by
      decide
    refine wp_bind (wp_modify (wp_finishActivation ?_ ⟨hbegun, hverified⟩) hm hm)
    cases active with
    | none =>
      exact maintains_bind (P := fun _ => True) (maintains_ret trivial) fun _ _ =>
        maintains_switchTo hphase
    | some active =>
      have hprevious : Maintains (Moving env root ⟨.pointerTransition, some active,
          previousBefore⟩ (some generation))
          (writePointer .previous active : Prog (Machine χ) SetupError Unit) fun _ => True :=
        maintains_restorePointer hphase .previous fun _ hv => hv.left.activeBefore
      exact maintains_bind (P := fun _ => True) (maintains_inspect fun _ _ _ _ => trivial)
        fun _ _ => maintains_bind hprevious fun _ _ => maintains_switchTo hphase

/-! ## Publishing -/

def withGeneration (m : Machine χ) (published : GenerationId) (profileBytes : Bytes) :
    Machine χ :=
  { m with profileGenerations :=
      Function.update m.profileGenerations published (some profileBytes) }

/-- A generation that is new leaves what is named as it was. -/
theorem Verified.publish {generation : Option GenerationId} (h : Verified env m generation)
    {published : GenerationId} (hnew : m.profileGenerations published = none)
    (profileBytes : Bytes) :
    Verified env (withGeneration m published profileBytes) generation := by
  intro g hg
  obtain ⟨bytes, hbytes⟩ := h g hg
  have hother : g ≠ published := by
    rintro rfl
    unfold verifiedGenerationBytes at hbytes
    rw [hnew] at hbytes
    cases hbytes
  refine ⟨bytes, ?_⟩
  unfold verifiedGenerationBytes withGeneration at *
  dsimp only
  rw [Function.update_of_ne hother]
  exact hbytes

theorem Sound.publish (h : Sound env m) {published : GenerationId}
    (hnew : m.profileGenerations published = none) (profileBytes : Bytes) :
    Sound env (withGeneration m published profileBytes) where
  journal := h.journal
  runtime := by
    obtain ⟨root, hroot⟩ := h.runtime
    exact ⟨root, hroot.active, hroot.tidy⟩
  active := by
    obtain ⟨generation, hread, hverified⟩ := h.active
    exact ⟨generation, hread, hverified.publish hnew profileBytes⟩
  previous := by
    obtain ⟨generation, hread, hverified⟩ := h.previous
    exact ⟨generation, hread, hverified.publish hnew profileBytes⟩

theorem wp_publishGeneration (h : Sound env m) (generation : GenerationId)
    (profileBytes : Bytes) :
    wp (publishGeneration env generation profileBytes) (fun _ => Sound env)
      (fun _ => Sound env) (Sound env) m := by
  unfold publishGeneration
  refine wp_bind (wp_observe ?_)
  cases hstored : m.profileGenerations generation with
  | some stored =>
    refine wp_bind (wp_inspect (fun _ _ => ?_) (fun _ _ => h) h h)
    refine wp_bind (wp_ofExcept (fun _ _ => ?_) fun _ _ => h)
    exact wp_ensure (fun _ => h) fun _ => h
  | none =>
    have hpublished := h.publish hstored profileBytes
    refine wp_bind (wp_inspect (fun _ _ => ?_) (fun _ _ => h) h h)
    refine wp_bind (wp_modify ?_ h h)
    exact wp_inspect (fun _ _ => hpublished) (fun _ _ => hpublished) hpublished hpublished

theorem wp_publishAndActivate (h : Sound env m) (profileBytes : Bytes)
    (sourceMetadata : SourceMetadata) :
    wp (publishAndActivate env profileBytes sourceMetadata) (fun _ => Left env)
      (fun _ => Left env) (Left env) m := by
  have hleft : ∀ u : Machine χ, Sound env u → Left env u := fun u hu => .settled hu.journal
  unfold publishAndActivate
  refine wp_bind (wp_mono (wp_recover_settled h.journal) ?_ (fun _ _ hu => hu.elim)
    fun _ hu => hu.elim)
  rintro _ u rfl
  refine wp_bind (wp_ensure (fun _ => ?_) fun _ => hleft u h)
  refine wp_bind (wp_ofExcept (fun generation _ => ?_) fun _ _ => hleft u h)
  refine wp_bind (wp_mono (wp_publishGeneration h generation profileBytes) ?_
    (fun _ v hv => hleft v hv) fun v hv => hleft v hv)
  intro _ v hv
  exact wp_bind (wp_mono (wp_activate hv generation) (fun _ _ hw => wp_ret hw)
    (fun _ _ hw => hw) fun _ hw => hw)

/-! ## Rolling back -/

theorem wp_clearFirstProfile {active : GenerationId}
    (h : JournalLeft env root ⟨.firstRollbackDeletePending, some active, none⟩ t) :
    wp (clearFirstProfile env active)
      (fun _ => JournalLeft env root ⟨.firstRollbackDeleteConfirmed, some active, none⟩)
      (fun _ => Left env) (Left env) t := by
  have hclear : wp (clearMaterializedGeneration env active)
      (fun _ => JournalLeft env root ⟨.firstRollbackDeletePending, some active, none⟩)
      (fun _ _ => False)
      (JournalLeft env root ⟨.firstRollbackDeletePending, some active, none⟩) t := by
    obtain ⟨bytes, hbytes⟩ := h.activeBefore active rfl
    cases root with
    | none =>
      refine wp_mono (wp_clearMaterialized_none h.runtime.active) ?_ (fun _ _ hu => hu) ?_
      · rintro _ u rfl
        exact h
      · rintro u rfl
        exact h
    | some name =>
      obtain ⟨d, hd⟩ := directory_of_activeRuntimeRoot h.runtime.active
      have hcleared := h.setDirectory rfl hd ((h.runtime.tidy name d rfl hd).setProfile none)
      refine wp_mono (wp_clearMaterialized h.runtime.active hd hbytes) ?_ (fun _ _ hu => hu) ?_
      · rintro ((e | e) | cleared) u hu
        · exact hu ▸ h
        · obtain ⟨_, rfl | rfl⟩ := hu
          · exact h
          · exact hcleared
        · exact hu.2 ▸ hcleared
      · rintro u (rfl | ⟨_, rfl⟩)
        · exact h
        · exact hcleared
  unfold clearFirstProfile
  refine wp_bind (wp_mono hclear ?_ (fun _ _ hu => hu.elim) fun u hu => .interrupted hu)
  intro result u hu
  have hleft : Left env u := .interrupted hu
  rcases result with (e | e) | cleared
  · refine wp_bind (wp_attempt (wp_modify ?_ ?_ hleft))
    · exact wp_bind (wp_throw (.settled rfl))
    · exact wp_bind (wp_throw hleft)
  · exact wp_bind (wp_throw hleft)
  · refine wp_bind (wp_ret (wp_bind (wp_inspect (fun _ _ => ?_) (fun _ _ => hleft) hleft hleft)))
    refine wp_mapError (wp_modify ?_ hleft hleft)
    exact ⟨rfl, ⟨hu.runtime.active, hu.runtime.tidy⟩, hu.activeBefore, hu.previousBefore,
      hu.active, fun _ => rfl, fun hpending => by cases hpending⟩

theorem wp_rollback (h : Sound env m) :
    wp (rollback env) (fun _ => Left env) (fun _ => Left env) (Left env) m := by
  have hm : Left env m := .settled h.journal
  obtain ⟨root, hroot⟩ := h.runtime
  unfold rollback
  refine wp_bind (wp_mono (wp_recover_settled h.journal) ?_ (fun _ _ hu => hu.elim)
    fun _ hu => hu.elim)
  rintro _ u rfl
  refine wp_bind (wp_inspect (fun active hactive => ?_) (fun _ _ => hm) hm hm)
  refine wp_bind (wp_ofExcept (fun generation hnamed => ?_) fun _ _ => hm)
  refine wp_bind (wp_inspect (fun previous hprevious => ?_) (fun _ _ => hm) hm hm)
  refine wp_bind (wp_inspect (fun _ hverifyActive => ?_) (fun _ _ => hm) hm hm)
  refine wp_bind (wp_inspect (fun _ hverifyPrevious => ?_) (fun _ _ => hm) hm hm)
  obtain ⟨active', rfl, rfl⟩ : ∃ active', active = some active' ∧ generation = active' := by
    cases active with
    | none => cases hnamed
    | some active' => exact ⟨active', rfl, (Except.ok.inj hnamed).symm⟩
  cases previous with
  | none =>
    have hbegun := h.begin .firstRollbackDeletePending hroot hactive hprevious
      fun _ => rfl
    have hphase : ProfileActivationPhase.firstRollbackDeleteConfirmed ≠
        .firstRollbackDeletePending := by decide
    refine wp_bind (wp_modify (wp_bind ?_) hm hm)
    refine wp_mono (wp_clearFirstProfile hbegun) ?_ (fun _ _ hv => hv) fun _ hv => hv
    intro _ v hv
    have hnothing : ∀ w : Machine χ, Verified env w none := fun w g hg => by cases hg
    have hrestore : ∀ pointer, Maintains
        (Moving env root ⟨.firstRollbackDeleteConfirmed, some generation, none⟩ none)
        (restorePointer pointer none : Prog (Machine χ) SetupError Unit) fun _ => True :=
      fun pointer => maintains_restorePointer hphase pointer fun w _ => hnothing w
    exact wp_bind (wp_mono (wp_finishActivation (maintains_bind (hrestore .active) fun _ _ =>
      hrestore .previous) ⟨hv, hnothing v⟩) (fun _ _ hw => wp_ret hw) (fun _ _ hw => hw)
      fun _ hw => hw)
  | some previous =>
    have hbegun := h.begin .pointerTransition hroot hactive hprevious
      fun hne => absurd rfl hne
    have hphase : ProfileActivationPhase.pointerTransition ≠ .firstRollbackDeletePending := by
      decide
    have hback : Maintains (Moving env root ⟨.pointerTransition, some generation, some previous⟩
        (some previous))
        (writePointer .previous generation : Prog (Machine χ) SetupError Unit) fun _ => True :=
      maintains_restorePointer hphase .previous fun _ hv => hv.left.activeBefore
    refine wp_bind (wp_modify (wp_bind ?_) hm hm)
    exact wp_mono (wp_finishActivation (maintains_bind hback fun _ _ => maintains_switchTo hphase)
      ⟨hbegun, verifyOptionalGeneration_eq_ok.1 hverifyPrevious⟩) (fun _ _ hv => wp_ret hv)
      (fun _ _ hv => hv) fun _ hv => hv

/-- Whatever stops an operation, the store can be recovered from what it leaves. -/
theorem ProfileOperation.leaves (h : Sound env m) (operation : ProfileOperation) :
    wp (operation.program env) (fun _ => Left env) (fun _ => Left env) (Left env) m := by
  cases operation with
  | publishAndActivate profileBytes sourceMetadata =>
    exact wp_bind (wp_mono (wp_publishAndActivate h profileBytes sourceMetadata)
      (fun _ _ hu => wp_ret hu) (fun _ _ hu => hu) fun _ hu => hu)
  | activate generation => exact wp_activate h generation
  | rollback =>
    exact wp_bind (wp_mono (wp_rollback h) (fun _ _ hu => wp_ret hu) (fun _ _ hu => hu)
      fun _ hu => hu)

/-! ## Recovery after an operation -/

/-- Every profile has one digest, and a write can be caught after its first byte. -/
def byteAtATime : StorageEnvironment where
  sha256Digest _ :=
    ⟨"sha256:0000000000000000000000000000000000000000000000000000000000000000",
      canonicalDigest_zeros⟩
  temporaryNonce := "1-1"
  nonce_owned := ownedTemporary_first
  caughtWrites bytes := [bytes.take 1]

/-- The lines `[a]` and `b=1`. -/
def smallProfile : Bytes := [0x5B, 0x61, 0x5D, 0x0A, 0x62, 0x3D, 0x31]

/-- The first profile is active and lies beside the DLLs. -/
def firstProfileActive : Machine Unit where
  runtimePointer := some (.written ⟨"1.0.0", validRuntimeVersionComponent_one⟩)
  previousRuntime := none
  runtimeVersions _ := some ⟨fun _ => some [0x4D], some smallProfile, [], []⟩
  runtimeReceipts _ := none
  activationJournal := none
  activeProfile := some (.written (byteAtATime.sha256Digest smallProfile))
  previousProfile := none
  profileGenerations _ := some smallProfile
  profileJournal := none
  surroundings := ()

theorem firstProfileActive_sound : Sound byteAtATime firstProfileActive where
  journal := rfl
  runtime := ⟨some "1.0.0", rfl, fun name d _ hd => by
    obtain rfl : (⟨fun _ => some [0x4D], some smallProfile, [], []⟩ : RuntimeDirectory) = d :=
      Option.some.inj hd
    exact ⟨rfl, (fun suffix hsuffix => by cases hsuffix), by decide⟩⟩
  active := ⟨some _, rfl, fun g hg => ⟨smallProfile, by cases hg; rfl⟩⟩
  previous := ⟨none, rfl, fun g hg => by cases hg⟩

/-- The program is stopped at the step after so many others. -/
def stoppedAfter (steps : ℕ) : List Fault := List.replicate steps .none ++ [.crash 0]

/-- The rollback of the first profile, stopped once its deletion is on record. -/
def deletionConfirmed : Machine Unit :=
  ((ProfileOperation.rollback.program byteAtATime).result (stoppedAfter 12) firstProfileActive).2

/-- Recovery, stopped while it writes the profile again. -/
def partlyRewritten : Machine Unit :=
  ((recoverInterruptedActivation byteAtATime).result (stoppedAfter 8) deletionConfirmed).2

end MacTypeControl.ProfileStore
