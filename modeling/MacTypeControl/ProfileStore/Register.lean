import MacTypeControl.ProfileStore.Operations

/-!
# The profile store as a register

Seen from its readers the store holds two generations, the active one and the one before it.
An operation changes both at once if it succeeds. Stopped or failed anywhere it changes neither,
once what it has left is recovered.
-/

namespace MacTypeControl.ProfileStore

open Crash Crash.Prog Profile Storage

/-- The generation that is active, and the one that was before it. -/
structure Register where
  active : Option GenerationId
  previous : Option GenerationId

namespace Register

def activate (r : Register) (generation : GenerationId) : Register :=
  if r.active = some generation then r else ⟨some generation, r.active.or r.previous⟩

def rollback (r : Register) : Register :=
  match r.previous with
  | none => ⟨none, none⟩
  | some previous => ⟨some previous, r.active⟩

end Register

def ProfileOperation.apply (env : StorageEnvironment) (r : Register) :
    ProfileOperation → Register
  | .publishAndActivate profileBytes _ => r.activate (env.sha256Digest profileBytes)
  | .activate generation => r.activate generation
  | .rollback => r.rollback

variable {χ : Type} {env : StorageEnvironment} {root : String} {r r' : Register}
  {phase : ProfileActivationPhase} {m t : Machine χ}

/-! ## The store at rest -/

/-- The store holds what the register does, and the active generation lies beside the DLLs. -/
structure Settled (env : StorageEnvironment) (root : String) (r : Register) (t : Machine χ) :
    Prop where
  journal : t.profileJournal = none
  runtime : RuntimeStands (some root) t
  active : readPointer t .active = .ok r.active
  previous : readPointer t .previous = .ok r.previous
  activeVerified : Verified env t r.active
  previousVerified : Verified env t r.previous
  materialized : t.generatedProfile root =
    r.active.bind fun g => (verifiedGenerationBytes env t g).toOption

theorem Settled.sound (h : Settled env root r t) : Sound env t :=
  ⟨h.journal, ⟨some root, h.runtime⟩, ⟨r.active, h.active, h.activeVerified⟩,
    ⟨r.previous, h.previous, h.previousVerified⟩⟩

/-- Which runtime is active is no concern of the profile store. -/
structure SameRuntime (m t : Machine χ) : Prop where
  pointer : t.runtimePointer = m.runtimePointer
  journal : t.activationJournal = m.activationJournal

/-- The store at rest, or with a journal from which it can be put back. -/
inductive Stands (env : StorageEnvironment) (root : String) (r : Register) (m t : Machine χ) :
    Prop
  | settled (h : Settled env root r t) (same : SameRuntime m t)
  | interrupted {phase : ProfileActivationPhase}
      (h : JournalLeft env (some root) ⟨phase, r.active, r.previous⟩ t) (same : SameRuntime m t)

theorem SameRuntime.refl (m : Machine χ) : SameRuntime m m := ⟨rfl, rfl⟩

theorem SameRuntime.setPointer (h : SameRuntime m t) (content : Option (StoredFile GenerationId))
    (pointer : ProfilePointer) : SameRuntime m (setPointer t content pointer) := by
  cases pointer <;> exact ⟨h.pointer, h.journal⟩

theorem readPointer_setPointer (t : Machine χ) (generation : Option GenerationId)
    (pointer : ProfilePointer) :
    readPointer (setPointer t (generation.map .written) pointer) pointer = .ok generation := by
  cases pointer <;> cases generation <;> rfl

/-! ## Recovery -/

theorem settle_eq {journal : ProfileActivationJournal} {d : RuntimeDirectory}
    (hd : t.runtimeVersions root = some d) :
    settle env (some root) journal t =
      { t.setDirectory root (settleDirectory env t journal d) with
        activeProfile := settlePointer journal journal.activeBefore t.activeProfile
        previousProfile := settlePointer journal journal.previousBefore t.previousProfile
        profileJournal := none } := by
  unfold settle settleDirectories Machine.setDirectory
  dsimp only
  rw [hd]
  rfl

theorem tidy_cleared {d : RuntimeDirectory} (h : Tidy d) (profile : Option Bytes) :
    Tidy ((d.setProfile profile).setTemporaries []) :=
  ⟨h.foreign, (fun suffix hsuffix => by cases hsuffix), by
    change 0 + 6 ≤ maxRuntimeEntriesDuringProfileRecovery
    decide⟩

theorem tidy_settleDirectory {d : RuntimeDirectory} (h : Tidy d)
    (journal : ProfileActivationJournal) : Tidy (settleDirectory env t journal d) := by
  unfold settleDirectory
  split
  · exact tidy_cleared h _
  · exact h.setProfile _

theorem profile_settleDirectory (journal : ProfileActivationJournal) (d : RuntimeDirectory) :
    (settleDirectory env t journal d).profile =
      journal.activeBefore.bind fun g => (verifiedGenerationBytes env t g).toOption := by
  unfold settleDirectory
  split <;> rfl

theorem readOptionalPointer_settled (before : Option GenerationId)
    (now : Option (StoredFile GenerationId)) {journal : ProfileActivationJournal}
    (h : journal.phase = .firstRollbackDeletePending → readOptionalPointer now = .ok before) :
    readOptionalPointer (settlePointer journal before now) = .ok before := by
  unfold settlePointer
  split
  · next hphase => exact h hphase
  · cases before <;> rfl

/-- Where recovery leads, the store is at rest with what the journal has. -/
theorem JournalLeft.settled (h : JournalLeft env (some root) ⟨phase, r.active, r.previous⟩ t) :
    Settled env root r (settle env (some root) ⟨phase, r.active, r.previous⟩ t) := by
  obtain ⟨d, hd⟩ := directory_of_activeRuntimeRoot h.runtime.active
  have htidy := h.runtime.tidy root d rfl hd
  rw [settle_eq hd]
  refine ⟨rfl, ⟨(activeRuntimeRoot_setDirectory hd _).trans h.runtime.active, ?_⟩, ?_, ?_,
    h.activeBefore, h.previousBefore, ?_⟩
  · intro name e hname he
    rw [← Option.some.inj hname] at he
    have hsettled := Machine.setDirectory_self t root
      (settleDirectory env t ⟨phase, r.active, r.previous⟩ d)
    obtain rfl := Option.some.inj (hsettled.symm.trans he)
    exact tidy_settleDirectory htidy _
  · exact readOptionalPointer_settled _ _ fun hphase => (h.untouched hphase).1
  · exact readOptionalPointer_settled _ _ fun hphase => (h.untouched hphase).2
  · change (t.setDirectory root _).generatedProfile root = _
    rw [Machine.generatedProfile_setDirectory, profile_settleDirectory]
    rfl

theorem Stands.of_recovering {s : Machine χ}
    (h : Recovering env (some root) ⟨phase, r.active, r.previous⟩ s t) (hsame : SameRuntime m s) :
    Stands env root r m t := by
  have hpointer : s.runtimePointer = t.runtimePointer := by
    rw [← h.leads]
    rfl
  have hjournal : s.activationJournal = t.activationJournal := by
    rw [← h.leads]
    rfl
  exact .interrupted h.left ⟨hpointer.symm.trans hsame.pointer, hjournal.symm.trans hsame.journal⟩

theorem wp_recover (h : Stands env root r m t) :
    wp (recoverInterruptedActivation env) (fun _ u => Settled env root r u ∧ SameRuntime m u)
      (fun _ => Stands env root r m) (Stands env root r m) t := by
  cases h with
  | settled h same =>
    refine wp_mono (wp_recover_settled h.journal) ?_ (fun _ _ hu => hu.elim) fun _ hu => hu.elim
    rintro _ u rfl
    exact ⟨h, same⟩
  | @interrupted phase h same =>
    have hsettled : SameRuntime m (settle env (some root) ⟨phase, r.active, r.previous⟩ t) :=
      ⟨same.pointer, same.journal⟩
    refine wp_mono (wp_recoverInterruptedActivation ⟨h, rfl⟩) ?_
      (fun _ _ hu => .of_recovering hu hsettled) fun _ hu => .of_recovering hu hsettled
    rintro _ u ⟨rfl, -⟩
    exact ⟨h.settled, hsettled⟩

/-! ## Under a journal -/

/-- A transition from the register, as it goes on under its journal. -/
structure Transit (env : StorageEnvironment) (root : String) (r : Register)
    (phase : ProfileActivationPhase) (m t : Machine χ) : Prop where
  left : JournalLeft env (some root) ⟨phase, r.active, r.previous⟩ t
  same : SameRuntime m t
  generations : t.profileGenerations = m.profileGenerations

theorem Transit.stands (h : Transit env root r phase m t) : Stands env root r m t :=
  .interrupted h.left h.same

theorem Transit.setPointer (h : Transit env root r phase m t)
    (hphase : phase ≠ .firstRollbackDeletePending) {generation : Option GenerationId}
    (hverified : Verified env m generation) (pointer : ProfilePointer) :
    Transit env root r phase m (setPointer t (generation.map .written) pointer) where
  left := h.left.setPointer hphase (hverified.congr h.generations) pointer
  same := h.same.setPointer _ pointer
  generations := by
    rw [← h.generations]
    cases pointer <;> rfl

theorem Transit.setDirectory {d d' : RuntimeDirectory} (h : Transit env root r phase m t)
    (hd : t.runtimeVersions root = some d) (htidy : Tidy d') :
    Transit env root r phase m (t.setDirectory root d') :=
  ⟨h.left.setDirectory rfl hd htidy, ⟨h.same.pointer, h.same.journal⟩, h.generations⟩

def withoutJournal (t : Machine χ) : Machine χ := { t with profileJournal := none }

/-- A transition that leaves nothing to do but to remove the journal. -/
theorem Transit.settled (h : Transit env root r phase m t)
    (hactive : readPointer t .active = .ok r'.active)
    (hprevious : readPointer t .previous = .ok r'.previous)
    (hactiveVerified : Verified env m r'.active) (hpreviousVerified : Verified env m r'.previous)
    (hmaterialized : t.generatedProfile root =
      r'.active.bind fun g => (verifiedGenerationBytes env m g).toOption) :
    Settled env root r' (withoutJournal t) where
  journal := rfl
  runtime := ⟨h.left.runtime.active, h.left.runtime.tidy⟩
  active := hactive
  previous := hprevious
  activeVerified := hactiveVerified.congr h.generations
  previousVerified := hpreviousVerified.congr h.generations
  materialized := by
    have hsame : ∀ g, verifiedGenerationBytes env (withoutJournal t) g =
        verifiedGenerationBytes env m g := verifiedGenerationBytes_congr h.generations
    simp only [hsame]
    exact hmaterialized

/-- A transition that is through is followed by the removal of the journal, any other one by
recovery. -/
theorem wp_finishTransit {transition : Prog (Machine χ) SetupError Unit}
    (h : wp transition
      (fun _ u => Transit env root r phase m u ∧ Settled env root r' (withoutJournal u))
      (fun _ => Transit env root r phase m) (Transit env root r phase m) t) :
    wp (finishActivationTransaction env transition)
      (fun _ u => Settled env root r' u ∧ SameRuntime m u) (fun _ => Stands env root r m)
      (Stands env root r m) t := by
  unfold finishActivationTransaction
  refine wp_bind (wp_attempt (wp_mono h ?_ ?_ fun _ hu => hu.stands))
  · rintro _ u ⟨hu, hsettled⟩
    exact wp_modify ⟨hsettled, ⟨hu.same.pointer, hu.same.journal⟩⟩ hu.stands hu.stands
  · intro e u hu
    refine wp_bind (wp_attempt (wp_mono (wp_recover hu.stands) ?_ ?_ fun _ hv => hv))
    · rintro _ v ⟨hsettled, hsame⟩
      exact wp_throw (.settled hsettled hsame)
    · exact fun _ v hv => wp_throw hv

theorem verified_bind_toOption {generation : GenerationId} {bytes : Bytes}
    (h : verifiedGenerationBytes env m generation = .ok bytes) :
    ((some generation).bind fun g => (verifiedGenerationBytes env m g).toOption) = some bytes := by
  rw [Option.bind_some, h]
  rfl

/-- The generation becomes active, whatever is beside the DLLs. -/
theorem wp_switchTo (h : Transit env root r phase m t)
    (hphase : phase ≠ .firstRollbackDeletePending) {generation : GenerationId}
    (hverified : Verified env m (some generation)) {previous : Option GenerationId}
    (hprevious : readPointer t .previous = .ok previous)
    (hpreviousVerified : Verified env m previous) :
    wp (do
        writePointer .active generation
        let _ ← materializeGeneration env generation
        ret () : Prog (Machine χ) SetupError Unit)
      (fun _ u => Transit env root r phase m u ∧
        Settled env root ⟨some generation, previous⟩ (withoutJournal u))
      (fun _ => Transit env root r phase m) (Transit env root r phase m) t := by
  have hmoved := h.setPointer hphase hverified .active
  obtain ⟨bytes, hbytes⟩ := hverified generation rfl
  obtain ⟨d, hd⟩ := directory_of_activeRuntimeRoot hmoved.left.runtime.active
  have htidy := hmoved.left.runtime.tidy root d rfl hd
  refine wp_bind (wp_modify ?_ h h)
  refine wp_bind (wp_mono (wp_materializeGeneration hmoved.left.runtime.active hd htidy
    ((verifiedGenerationBytes_congr hmoved.generations generation).trans hbytes)) ?_ ?_ ?_)
  · rintro _ u ⟨_, rfl⟩
    have hwritten := hmoved.setDirectory hd (tidy_cleared htidy (some bytes))
    refine wp_ret ⟨hwritten, hwritten.settled rfl hprevious hverified hpreviousVerified ?_⟩
    rw [Machine.generatedProfile_setDirectory, verified_bind_toOption hbytes]
    rfl
  · rintro _ u ⟨left, hleft, rfl⟩
    exact hmoved.setDirectory hd (htidy.setTemporaries hleft)
  · rintro u ⟨left, hleft, rfl⟩
    exact hmoved.setDirectory hd (htidy.setTemporaries hleft)

/-- As before, once the generation that was active has become the one before. -/
theorem wp_moveOn (h : Transit env root r phase m t)
    (hphase : phase ≠ .firstRollbackDeletePending) {active generation : GenerationId}
    (hactive : Verified env m (some active)) (hverified : Verified env m (some generation)) :
    wp (do
        writePointer .previous active
        writePointer .active generation
        let _ ← materializeGeneration env generation
        ret () : Prog (Machine χ) SetupError Unit)
      (fun _ u => Transit env root r phase m u ∧
        Settled env root ⟨some generation, some active⟩ (withoutJournal u))
      (fun _ => Transit env root r phase m) (Transit env root r phase m) t := by
  have hmoved := h.setPointer hphase hactive .previous
  exact wp_bind (wp_modify (wp_switchTo hmoved hphase hverified
    (readPointer_setPointer t (some active) .previous) hactive) h h)

/-- The transition has only begun. -/
theorem Settled.begin (h : Settled env root r m) (phase : ProfileActivationPhase)
    (hnamed : phase ≠ .pointerTransition → r.active.isSome) :
    Transit env root r phase m (withJournal m ⟨phase, r.active, r.previous⟩) :=
  ⟨h.sound.begin phase h.runtime h.active h.previous hnamed, ⟨rfl, rfl⟩, rfl⟩

/-! ## Every operation -/

/-- What interrupted writes have left beside the profile does not matter. -/
theorem Settled.setTemporaries (h : Settled env root r t) {d : RuntimeDirectory}
    (hd : t.runtimeVersions root = some d) {temporaries : List String}
    (htidy : Tidy (d.setTemporaries temporaries)) :
    Settled env root r (t.setDirectory root (d.setTemporaries temporaries)) where
  journal := h.journal
  runtime := h.runtime.setDirectory rfl hd htidy
  active := h.active
  previous := h.previous
  activeVerified := h.activeVerified
  previousVerified := h.previousVerified
  materialized := by
    rw [Machine.generatedProfile_setDirectory]
    exact (Machine.generatedProfile_eq hd).symm.trans h.materialized

/-- The generation that is active is written again, which changes nothing. -/
theorem wp_rematerialize (h : Settled env root r t) (same : SameRuntime m t)
    {generation : GenerationId} (hactive : r.active = some generation) :
    wp (materializeGeneration env generation)
      (fun _ u => Settled env root r u ∧ SameRuntime m u) (fun _ => Stands env root r m)
      (Stands env root r m) t := by
  obtain ⟨bytes, hbytes⟩ := h.activeVerified generation hactive
  obtain ⟨d, hd⟩ := directory_of_activeRuntimeRoot h.runtime.active
  have htidy := h.runtime.tidy root d rfl hd
  have hprofile : d.profile = some bytes := by
    rw [← Machine.generatedProfile_eq hd, h.materialized, hactive]
    exact verified_bind_toOption hbytes
  have hleft : ∀ left, LeftTemporaries env d left →
      Stands env root r m (t.setDirectory root (d.setTemporaries left)) := fun left hleft =>
    .settled (h.setTemporaries hd (htidy.setTemporaries hleft)) ⟨same.pointer, same.journal⟩
  refine wp_mono (wp_materializeGeneration h.runtime.active hd htidy hbytes) ?_ ?_ ?_
  · rintro _ u ⟨_, rfl⟩
    rw [RuntimeDirectory.setProfile_eq_self hprofile]
    refine ⟨h.setTemporaries hd ?_, ⟨same.pointer, same.journal⟩⟩
    have hcleared := tidy_cleared htidy (some bytes)
    rwa [RuntimeDirectory.setProfile_eq_self hprofile] at hcleared
  · rintro _ u ⟨left, htemporaries, rfl⟩
    exact hleft left htemporaries
  · rintro u ⟨left, htemporaries, rfl⟩
    exact hleft left htemporaries

theorem Stands.trans {u : Machine χ} (h : Stands env root r t u) (same : SameRuntime m t) :
    Stands env root r m u := by
  cases h with
  | settled h hsame =>
    exact .settled h ⟨hsame.pointer.trans same.pointer, hsame.journal.trans same.journal⟩
  | interrupted h hsame =>
    exact .interrupted h ⟨hsame.pointer.trans same.pointer, hsame.journal.trans same.journal⟩

/-- What is left by a program that started from the register, in the terms of its caller. -/
theorem wp_from {α : Type} {program : Prog (Machine χ) SetupError α} (same : SameRuntime m t)
    (h : wp program (fun _ u => Settled env root r' u ∧ SameRuntime t u)
      (fun _ => Stands env root r t) (Stands env root r t) t) :
    wp program (fun _ u => Settled env root r' u ∧ SameRuntime m u)
      (fun _ => Stands env root r m) (Stands env root r m) t :=
  wp_mono h
    (fun _ _ hu => ⟨hu.1, ⟨hu.2.pointer.trans same.pointer, hu.2.journal.trans same.journal⟩⟩)
    (fun _ _ hu => hu.trans same) fun _ hu => hu.trans same

theorem wp_activate_settled (h : Settled env root r t) (generation : GenerationId) :
    wp (activate env generation)
      (fun _ u => Settled env root (r.activate generation) u ∧ SameRuntime t u)
      (fun _ => Stands env root r t) (Stands env root r t) t := by
  have ht : Stands env root r t t := .settled h (.refl t)
  unfold activate
  refine wp_bind (wp_mono (wp_recover_settled h.journal) ?_ (fun _ _ hu => hu.elim)
    fun _ hu => hu.elim)
  rintro _ u rfl
  refine wp_bind (wp_inspect (fun _ hverify => ?_) (fun _ _ => ht) ht ht)
  have hverified : Verified env u (some generation) := verifyOptionalGeneration_eq_ok.1 hverify
  refine wp_bind (wp_inspect (fun active hactive => ?_) (fun _ _ => ht) ht ht)
  obtain rfl : active = r.active := Except.ok.inj (hactive.symm.trans h.active)
  by_cases hsame : r.active = some generation
  · have hregister : r.activate generation = r := if_pos hsame
    rw [if_pos hsame, hregister]
    exact wp_bind (wp_mono (wp_rematerialize h (.refl u) hsame) (fun _ _ hv => wp_ret hv)
      (fun _ _ hv => hv) fun _ hv => hv)
  · have hregister : r.activate generation = ⟨some generation, r.active.or r.previous⟩ :=
      if_neg hsame
    rw [if_neg hsame, hregister]
    refine wp_bind (wp_inspect (fun previous hprevious => ?_) (fun _ _ => ht) ht ht)
    obtain rfl : previous = r.previous := Except.ok.inj (hprevious.symm.trans h.previous)
    have hphase : ProfileActivationPhase.pointerTransition ≠ .firstRollbackDeletePending := by
      decide
    have hbegun := h.begin .pointerTransition fun hne => absurd rfl hne
    refine wp_bind (wp_modify
      (@wp_finishTransit χ env root r _ .pointerTransition u _ _ ?_) ht ht)
    cases hactive : r.active with
    | none =>
      rw [hactive] at hbegun
      exact wp_bind (wp_ret (wp_switchTo hbegun hphase hverified h.previous h.previousVerified))
    | some active =>
      rw [hactive] at hbegun
      have hbefore : Verified env u (some active) := hactive ▸ h.activeVerified
      exact wp_bind (wp_inspect
        (fun _ _ => wp_moveOn hbegun hphase hbefore hverified)
        (fun _ _ => hbegun) hbegun hbegun)

theorem verifiedGenerationBytes_publish {published : GenerationId}
    (hnew : t.profileGenerations published = none) (profileBytes : Bytes) {g : GenerationId}
    (h : Verified env t (some g)) :
    verifiedGenerationBytes env (withGeneration t published profileBytes) g =
      verifiedGenerationBytes env t g := by
  obtain ⟨bytes, hbytes⟩ := h g rfl
  have hother : g ≠ published := by
    rintro rfl
    unfold verifiedGenerationBytes at hbytes
    rw [hnew] at hbytes
    cases hbytes
  unfold verifiedGenerationBytes withGeneration
  dsimp only
  rw [Function.update_of_ne hother]

theorem Settled.publish (h : Settled env root r t) {published : GenerationId}
    (hnew : t.profileGenerations published = none) (profileBytes : Bytes) :
    Settled env root r (withGeneration t published profileBytes) where
  journal := h.journal
  runtime := ⟨h.runtime.active, h.runtime.tidy⟩
  active := h.active
  previous := h.previous
  activeVerified := h.activeVerified.publish hnew profileBytes
  previousVerified := h.previousVerified.publish hnew profileBytes
  materialized := by
    refine h.materialized.trans ?_
    cases hactive : r.active with
    | none => rfl
    | some g =>
      have hsame := verifiedGenerationBytes_publish hnew profileBytes (hactive ▸ h.activeVerified)
      rw [Option.bind_some, Option.bind_some, hsame]

/-- Storing a generation leaves the register as it is, whether it completes or not. -/
theorem wp_publishGeneration_settled (h : Settled env root r t) (generation : GenerationId)
    (profileBytes : Bytes) :
    wp (publishGeneration env generation profileBytes)
      (fun _ u => Settled env root r u ∧ SameRuntime t u)
      (fun _ => Stands env root r t) (Stands env root r t) t := by
  have ht : Stands env root r t t := .settled h (.refl t)
  unfold publishGeneration
  refine wp_bind (wp_observe ?_)
  cases hstored : t.profileGenerations generation with
  | some stored =>
    refine wp_bind (wp_inspect (fun _ _ => ?_) (fun _ _ => ht) ht ht)
    refine wp_bind (wp_ofExcept (fun _ _ => ?_) fun _ _ => ht)
    exact wp_ensure (fun _ => ⟨h, .refl t⟩) fun _ => ht
  | none =>
    have hpublished := h.publish hstored profileBytes
    have hsame : SameRuntime t (withGeneration t generation profileBytes) := ⟨rfl, rfl⟩
    have hstands : Stands env root r t (withGeneration t generation profileBytes) :=
      .settled hpublished hsame
    refine wp_bind (wp_inspect (fun _ _ => ?_) (fun _ _ => ht) ht ht)
    refine wp_bind (wp_modify ?_ ht ht)
    exact wp_inspect (fun _ _ => ⟨hpublished, hsame⟩) (fun _ _ => hstands) hstands hstands

theorem wp_publishAndActivate_settled (h : Settled env root r t) (profileBytes : Bytes)
    (sourceMetadata : SourceMetadata) :
    wp (publishAndActivate env profileBytes sourceMetadata)
      (fun _ u => Settled env root (r.activate (env.sha256Digest profileBytes)) u ∧
        SameRuntime t u)
      (fun _ => Stands env root r t) (Stands env root r t) t := by
  have ht : Stands env root r t t := .settled h (.refl t)
  unfold publishAndActivate
  refine wp_bind (wp_mono (wp_recover_settled h.journal) ?_ (fun _ _ hu => hu.elim)
    fun _ hu => hu.elim)
  rintro _ u rfl
  refine wp_bind (wp_ensure (fun _ => ?_) fun _ => ht)
  refine wp_bind (wp_ofExcept (fun generation hgeneration => ?_) fun _ _ => ht)
  have hdigest : generation = env.sha256Digest profileBytes := by
    unfold publishMachineProfile at hgeneration
    split at hgeneration
    · exact (Except.ok.inj hgeneration).symm
    · cases hgeneration
  rw [← hdigest]
  refine wp_bind (wp_mono (wp_publishGeneration_settled h generation profileBytes) ?_
    (fun _ _ hv => hv) fun _ hv => hv)
  rintro _ v ⟨hv, hsame⟩
  exact wp_bind (wp_mono (wp_from hsame (wp_activate_settled hv generation))
    (fun _ _ hw => wp_ret hw) (fun _ _ hw => hw) fun _ hw => hw)

/-! ## Rolling back -/

/-- A first profile is gone from beside the DLLs before that is put on record. -/
theorem wp_clearFirstProfile_settled {active : GenerationId} (h : Settled env root r m)
    (hactive : r.active = some active) (hprevious : r.previous = none) :
    wp (clearFirstProfile env active)
      (fun _ u => Transit env root r .firstRollbackDeleteConfirmed m u ∧
        u.generatedProfile root = none)
      (fun _ => Stands env root r m) (Stands env root r m)
      (withJournal m ⟨.firstRollbackDeletePending, r.active, r.previous⟩) := by
  have hbegun := h.begin .firstRollbackDeletePending fun _ => by rw [hactive]; rfl
  obtain ⟨bytes, hbytes⟩ := hbegun.left.activeBefore active hactive
  obtain ⟨d, hd⟩ := directory_of_activeRuntimeRoot hbegun.left.runtime.active
  have htidy := (hbegun.left.runtime.tidy root d rfl hd).setProfile none
  have hcleared := hbegun.setDirectory hd htidy
  unfold clearFirstProfile
  refine wp_bind (wp_mono (wp_clearMaterialized hbegun.left.runtime.active hd hbytes) ?_
    (fun _ _ hu => hu.elim) ?_)
  · rintro ((e | e) | cleared) u hu
    · -- Nothing was deleted, so without the journal the store is as it was.
      obtain rfl := hu
      have hunchanged : Settled env root r
          (withoutJournal (withJournal m ⟨.firstRollbackDeletePending, r.active, r.previous⟩)) :=
        hbegun.settled h.active h.previous h.activeVerified h.previousVerified h.materialized
      refine wp_bind (wp_attempt (wp_modify ?_ ?_ hbegun.stands))
      · exact wp_bind (wp_throw (.settled hunchanged ⟨rfl, rfl⟩))
      · exact wp_bind (wp_throw hbegun.stands)
    · obtain ⟨_, rfl | rfl⟩ := hu
      · exact wp_bind (wp_throw hbegun.stands)
      · exact wp_bind (wp_throw hcleared.stands)
    · obtain ⟨_, rfl⟩ := hu
      have hstands := hcleared.stands
      refine wp_bind (wp_ret (wp_bind (wp_inspect (fun _ habsent => ?_) (fun _ _ => hstands)
        hstands hstands)))
      refine wp_mapError (wp_modify ?_ hstands hstands)
      have hnone := (ensureAbsent_eq_ok hcleared.left.runtime.active).1 habsent
      have hconfirmed : JournalLeft env (some root)
          ⟨.firstRollbackDeleteConfirmed, r.active, r.previous⟩
          (withJournal ((withJournal m ⟨.firstRollbackDeletePending, r.active,
            r.previous⟩).setDirectory root (d.setProfile none))
            ⟨.firstRollbackDeleteConfirmed, r.active, r.previous⟩) :=
        ⟨rfl, ⟨hcleared.left.runtime.active, hcleared.left.runtime.tidy⟩,
          hcleared.left.activeBefore, hcleared.left.previousBefore, hcleared.left.active,
          fun _ => (by rw [hactive]; rfl), fun hpending => by cases hpending⟩
      rw [← hactive, ← hprevious]
      exact ⟨⟨hconfirmed, ⟨rfl, rfl⟩, rfl⟩, hnone⟩
  · rintro u (rfl | ⟨_, rfl⟩)
    · exact hbegun.stands
    · exact hcleared.stands

theorem wp_rollback_settled (h : Settled env root r t) :
    wp (rollback env) (fun _ u => Settled env root r.rollback u ∧ SameRuntime t u)
      (fun _ => Stands env root r t) (Stands env root r t) t := by
  have ht : Stands env root r t t := .settled h (.refl t)
  unfold rollback
  refine wp_bind (wp_mono (wp_recover_settled h.journal) ?_ (fun _ _ hu => hu.elim)
    fun _ hu => hu.elim)
  rintro _ u rfl
  refine wp_bind (wp_inspect (fun active hread => ?_) (fun _ _ => ht) ht ht)
  obtain rfl : active = r.active := Except.ok.inj (hread.symm.trans h.active)
  refine wp_bind (wp_ofExcept (fun active hnamed => ?_) fun _ _ => ht)
  refine wp_bind (wp_inspect (fun previous hread => ?_) (fun _ _ => ht) ht ht)
  obtain rfl : previous = r.previous := Except.ok.inj (hread.symm.trans h.previous)
  refine wp_bind (wp_inspect (fun _ _ => ?_) (fun _ _ => ht) ht ht)
  refine wp_bind (wp_inspect (fun _ _ => ?_) (fun _ _ => ht) ht ht)
  have hactive : r.active = some active := by
    revert hnamed
    cases r.active with
    | none => exact fun hnamed => by cases hnamed
    | some found => exact fun hnamed => congrArg some (Except.ok.inj hnamed)
  cases hprevious : r.previous with
  | none =>
    have hregister : r.rollback = ⟨none, none⟩ := by
      unfold Register.rollback
      rw [hprevious]
    have hphase : ProfileActivationPhase.firstRollbackDeleteConfirmed ≠
        .firstRollbackDeletePending := by decide
    have hnothing : Verified env u none := fun g hg => by cases hg
    have hclear := wp_clearFirstProfile_settled h hactive hprevious
    rw [hactive, hprevious] at hclear
    rw [hregister]
    refine wp_bind (wp_modify (wp_bind ?_) ht ht)
    refine wp_mono hclear ?_ (fun _ _ hv => hv) fun _ hv => hv
    rintro _ v ⟨hv, hgone⟩
    have hactiveGone := hv.setPointer hphase hnothing .active
    have hbothGone := hactiveGone.setPointer hphase hnothing .previous
    have hsettled : Settled env root ⟨none, none⟩ (withoutJournal
        (setPointer (setPointer v none .active) none .previous)) :=
      hbothGone.settled rfl rfl hnothing hnothing hgone
    refine wp_bind (wp_mono (@wp_finishTransit χ env root r _ .firstRollbackDeleteConfirmed u _ _
      ?_) (fun _ _ hw => wp_ret hw) (fun _ _ hw => hw) fun _ hw => hw)
    exact wp_bind (wp_modify (wp_modify ⟨hbothGone, hsettled⟩ hactiveGone hactiveGone) hv hv)
  | some previous =>
    have hregister : r.rollback = ⟨some previous, some active⟩ := by
      unfold Register.rollback
      rw [hprevious, hactive]
    have hphase : ProfileActivationPhase.pointerTransition ≠ .firstRollbackDeletePending := by
      decide
    have hbegun := h.begin .pointerTransition fun hne => absurd rfl hne
    rw [hactive, hprevious] at hbegun
    rw [hregister]
    refine wp_bind (wp_modify (wp_bind ?_) ht ht)
    exact wp_mono (@wp_finishTransit χ env root r _ .pointerTransition u _ _
      (wp_moveOn hbegun hphase (hactive ▸ h.activeVerified) (hprevious ▸ h.previousVerified)))
      (fun _ _ hw => wp_ret hw) (fun _ _ hw => hw) fun _ hw => hw

/-! ## Runs -/

/-- Where there is no journal, what follows recovery starts at once. -/
theorem wp_of_recovered {α : Type} {rest : Prog (Machine χ) SetupError α} {Q : α → Machine χ → Prop}
    {E : SetupError → Machine χ → Prop} {C : Machine χ → Prop} (hjournal : t.profileJournal = none)
    (h : wp (do
        let _ ← recoverInterruptedActivation env
        rest) Q E C t) : wp rest Q E C t := by
  have hrun : ∀ faults, (recoverInterruptedActivation env).run faults t = (.done false, t, faults) := by
    intro faults
    unfold recoverInterruptedActivation
    rw [run_bind, run_observe, hjournal]
    rfl
  intro faults
  have hresult := h faults
  unfold result at hresult ⊢
  rw [run_bind, hrun] at hresult
  exact hresult

/-- What a program does after recovery it does wherever the store can be recovered. -/
theorem wp_recovering {α : Type} {rest : Prog (Machine χ) SetupError α}
    (h : ∀ u, Settled env root r u → wp (do
        let _ ← recoverInterruptedActivation env
        rest) (fun _ v => Settled env root r' v ∧ SameRuntime u v)
        (fun _ => Stands env root r u) (Stands env root r u) u)
    (ht : Stands env root r m t) :
    wp (do
        let _ ← recoverInterruptedActivation env
        rest) (fun _ u => Settled env root r' u ∧ SameRuntime m u)
      (fun _ => Stands env root r m) (Stands env root r m) t := by
  refine wp_bind (wp_mono (wp_recover ht) ?_ (fun _ _ hu => hu) fun _ hu => hu)
  rintro _ u ⟨hu, hsame⟩
  exact wp_of_recovered hu.journal (wp_from hsame (h u hu))

theorem ProfileOperation.applies_standing (h : Stands env root r m t)
    (operation : ProfileOperation) :
    wp (operation.program env)
      (fun _ u => Settled env root (operation.apply env r) u ∧ SameRuntime m u)
      (fun _ => Stands env root r m) (Stands env root r m) t := by
  cases operation with
  | publishAndActivate profileBytes sourceMetadata =>
    refine wp_bind (wp_mono (wp_recovering
      (fun u hu => wp_publishAndActivate_settled hu profileBytes sourceMetadata) h)
      (fun _ _ hu => wp_ret hu) (fun _ _ hu => hu) fun _ hu => hu)
  | activate generation => exact wp_recovering (fun u hu => wp_activate_settled hu generation) h
  | rollback =>
    exact wp_bind (wp_mono (wp_recovering (fun u hu => wp_rollback_settled hu) h)
      (fun _ _ hu => wp_ret hu) (fun _ _ hu => hu) fun _ hu => hu)

inductive ProfileCommand where
  | operation (operation : ProfileOperation)
  | recover

def ProfileCommand.program (env : StorageEnvironment) :
    ProfileCommand → Prog (Machine χ) SetupError Unit
  | .operation requested => requested.program env
  | .recover => do
    let _ ← recoverInterruptedActivation env
    ret ()

/-- What a command makes of the register, which is nothing unless it is done. -/
def ProfileCommand.next (env : StorageEnvironment) (r : Register) :
    ProfileCommand → Outcome SetupError Unit → Register
  | .operation requested, .done _ => requested.apply env r
  | _, _ => r

theorem ProfileCommand.next_error (r : Register) (command : ProfileCommand) (e : SetupError) :
    command.next env r (.error e) = r := by
  cases command <;> rfl

theorem ProfileCommand.next_crashed (r : Register) (command : ProfileCommand) :
    command.next env r .crashed = r := by
  cases command <;> rfl

/-- A command, with what the environment does to it, on the machine and on the register. -/
def carryOut (env : StorageEnvironment) (s : Machine χ × Register)
    (command : ProfileCommand × List Fault) : Machine χ × Register :=
  let ended := (command.1.program env).result command.2 s.1
  (ended.2, command.1.next env s.2 ended.1)

def afterCommands (env : StorageEnvironment) (commands : List (ProfileCommand × List Fault))
    (s : Machine χ × Register) : Machine χ × Register := commands.foldl (carryOut env) s

theorem ProfileCommand.obeys (h : Stands env root r m t) (command : ProfileCommand) :
    wp (command.program env)
      (fun value u => Settled env root (command.next env r (.done value)) u ∧ SameRuntime m u)
      (fun _ => Stands env root r m) (Stands env root r m) t := by
  cases command with
  | operation requested => exact requested.applies_standing h
  | recover =>
    exact wp_bind (wp_mono (wp_recover h) (fun _ _ hu => wp_ret hu) (fun _ _ hu => hu)
      fun _ hu => hu)

theorem stands_carryOut (h : Stands env root r m t) (command : ProfileCommand × List Fault) :
    Stands env root (carryOut env (t, r) command).2 m (carryOut env (t, r) command).1 := by
  have hobeys := command.1.obeys h command.2
  unfold carryOut
  dsimp only
  revert hobeys
  rcases (command.1.program env).result command.2 t with ⟨_ | e | _, u⟩
  · exact fun hdone => .settled hdone.1 hdone.2
  · intro hstands
    rw [ProfileCommand.next_error]
    exact hstands
  · intro hstands
    rw [ProfileCommand.next_crashed]
    exact hstands

/-- Commands that are stopped anywhere keep the store in step with the register. -/
theorem stands_commands (commands : List (ProfileCommand × List Fault))
    (h : Stands env root r m t) :
    Stands env root (afterCommands env commands (t, r)).2 m
      (afterCommands env commands (t, r)).1 := by
  induction commands generalizing t r with
  | nil => exact h
  | cons command rest ih => exact ih (stands_carryOut h command)

end MacTypeControl.ProfileStore
