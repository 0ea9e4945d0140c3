import MacTypeControl.ProfileStore.Interrupted

/-!
# Recovery of an interrupted activation

Recovery can be stopped and run again at any step. Whenever it completes it has led to the
state before the activation, and it completes where the generated profile is accounted for.
-/

namespace MacTypeControl.ProfileStore

open Crash Crash.Prog Profile Storage

variable {χ : Type} {env : StorageEnvironment} {root : Option String}
  {journal : ProfileActivationJournal} {s t : Machine χ}

/-! ## The pointers -/

theorem restorePointer_eq (pointer : ProfilePointer) (generation : Option GenerationId) :
    (restorePointer pointer generation : Prog (Machine χ) SetupError Unit) =
      modify .io fun m => setPointer m (generation.map .written) pointer := by
  cases generation <;> rfl

/-- Both pointers as the journal has them. -/
def pointersBefore (journal : ProfileActivationJournal) (m : Machine χ) : Machine χ :=
  setPointer (setPointer m (journal.activeBefore.map .written) .active)
    (journal.previousBefore.map .written) .previous

section Moved

variable (hphase : journal.phase ≠ .firstRollbackDeletePending)
include hphase

theorem recovering_pointersBefore (h : Recovering env root journal s t) :
    Recovering env root journal s (pointersBefore journal t) := by
  have hactive := h.setPointer hphase h.left.activeBefore .active
  exact hactive.setPointer hphase h.left.previousBefore .previous

theorem wp_restorePointers {Q : Unit → Machine χ → Prop} {rest : Prog (Machine χ) SetupError Unit}
    (h : Recovering env root journal s t)
    (hrest : wp rest Q (fun _ => Recovering env root journal s) (Recovering env root journal s)
      (pointersBefore journal t)) :
    wp (do
        restorePointer .active journal.activeBefore
        restorePointer .previous journal.previousBefore
        rest) Q (fun _ => Recovering env root journal s) (Recovering env root journal s) t := by
  have hactive := h.setPointer hphase h.left.activeBefore .active
  rw [restorePointer_eq, restorePointer_eq]
  exact wp_bind (wp_modify (wp_bind (wp_modify hrest hactive hactive)) h h)

theorem pointersSettled_before (m : Machine χ) :
    PointersSettled journal (pointersBefore journal m) :=
  ⟨settlePointer_of_ne hphase _ _, settlePointer_of_ne hphase _ _⟩

end Moved

/-! ## The directory -/

theorem settleDirectory_kept (h : replacesProfile journal = false) (d : RuntimeDirectory)
    {g : GenerationId} {bytes : Bytes} (hbefore : journal.activeBefore = some g)
    (hbytes : verifiedGenerationBytes env t g = .ok bytes) :
    settleDirectory env t journal d = d.setProfile (some bytes) := by
  unfold settleDirectory
  rw [h, hbefore, Option.bind_some, hbytes]
  rfl

theorem settleDirectory_replaced (h : replacesProfile journal = true) (d : RuntimeDirectory)
    {g : GenerationId} {bytes : Bytes} (hbefore : journal.activeBefore = some g)
    (hbytes : verifiedGenerationBytes env t g = .ok bytes) :
    settleDirectory env t journal d = (d.setProfile (some bytes)).setTemporaries [] := by
  unfold settleDirectory
  rw [h, hbefore, Option.bind_some, hbytes]
  rfl

theorem settleDirectory_none (d : RuntimeDirectory) (hbefore : journal.activeBefore = none) :
    settleDirectory env t journal d = d.setProfile none := by
  have hkept : replacesProfile journal = false := by
    unfold replacesProfile
    rw [hbefore]
    simp
  unfold settleDirectory
  rw [hkept, hbefore]
  rfl

theorem RuntimeDirectory.setProfile_eq_self {d : RuntimeDirectory} {profile : Option Bytes}
    (h : d.profile = profile) : d.setProfile profile = d := by
  unfold Storage.RuntimeDirectory.setProfile
  rw [← h]

/-! ## The profile of the activation before -/

theorem Recovering.arrives_nowhere (h : Recovering env none journal s t)
    (hpointers : PointersSettled journal t) : Arrived env none journal s t :=
  h.arrives hpointers fun name hname => by cases hname

/-- With a runtime, the directory is what is left to settle. -/
theorem Recovering.arrives_at {name : String} {d e : RuntimeDirectory}
    (h : Recovering env (some name) journal s (t.setDirectory name e))
    (hpointers : PointersSettled journal t) (hsettled : settleDirectory env t journal d = e) :
    Arrived env (some name) journal s (t.setDirectory name e) := by
  refine h.arrives ⟨hpointers.active, hpointers.previous⟩ fun other hother => ⟨d, ?_⟩
  rw [← Option.some.inj hother, Machine.setDirectory_self]
  exact congrArg some hsettled.symm

section Active

variable {active : GenerationId} (hbefore : journal.activeBefore = some active)
include hbefore

/-- Restoring a profile that was cleared leads to the end, where nothing foreign is. -/
theorem wp_restoreActive (hkept : replacesProfile journal = false)
    (h : Recovering env root journal s t) (hpointers : PointersSettled journal t) :
    wp (restoreGenerationAfterConfirmedClear env active)
      (fun _ u => Arrived env root journal s u ∧ ∀ name, root = some name →
        HoldsGeneration env t journal.activeBefore (t.generatedProfile name))
      (fun _ => Recovering env root journal s) (Recovering env root journal s) t := by
  obtain ⟨bytes, hbytes⟩ := h.left.activeBefore active hbefore
  cases root with
  | none =>
    refine wp_mono (robust_restoreGeneration_none h.left.runtime.active).1 ?_ ?_ ?_
    · rintro _ u rfl
      exact ⟨h.arrives_nowhere hpointers, fun name hname => by cases hname⟩
    · rintro _ u rfl
      exact h
    · rintro u rfl
      exact h
  | some name =>
    obtain ⟨d, hd⟩ := directory_of_activeRuntimeRoot h.left.runtime.active
    have hset := h.setProfile rfl hd
    refine wp_mono (wp_restoreGeneration h.left.runtime.active hd hbytes) ?_ ?_ ?_
    · rintro _ u ⟨hholds, rfl⟩
      refine ⟨(hset (some bytes)).arrives_at hpointers
        (settleDirectory_kept hkept d hbefore hbytes), fun other hother => ?_⟩
      rw [← Option.some.inj hother, hbefore, Machine.generatedProfile_eq hd]
      exact (holdsGeneration_some hbytes).2 hholds
    · rintro _ u ⟨profile, rfl⟩
      exact hset profile
    · rintro u ⟨profile, rfl⟩
      exact hset profile

/-- Materializing a profile leads to the end, whatever is there within bounds. -/
theorem wp_materializeBefore (hreplaces : replacesProfile journal = true)
    (h : Recovering env root journal s t) (hpointers : PointersSettled journal t) :
    wp (materializeGeneration env active)
      (fun _ u => Arrived env root journal s u ∧ ∀ name, root = some name →
        BoundedProfile (t.generatedProfile name))
      (fun _ => Recovering env root journal s) (Recovering env root journal s) t := by
  obtain ⟨bytes, hbytes⟩ := h.left.activeBefore active hbefore
  cases root with
  | none =>
    refine wp_mono (robust_materializeGeneration_none h.left.runtime.active).1 ?_ ?_ ?_
    · rintro _ u rfl
      exact ⟨h.arrives_nowhere hpointers, fun name hname => by cases hname⟩
    · rintro _ u rfl
      exact h
    · rintro u rfl
      exact h
  | some name =>
    obtain ⟨d, hd⟩ := directory_of_activeRuntimeRoot h.left.runtime.active
    have htidy := h.left.runtime.tidy name d rfl hd
    refine wp_mono (wp_materializeGeneration h.left.runtime.active hd htidy hbytes) ?_ ?_ ?_
    · rintro _ u ⟨hbounded, rfl⟩
      have hreached := (h.setProfile rfl hd (some bytes)).setTemporaries hreplaces rfl
        (Machine.setDirectory_self ..) (Or.inl (List.nil_sublist _))
      rw [Machine.setDirectory_setDirectory] at hreached
      refine ⟨hreached.arrives_at hpointers (settleDirectory_replaced hreplaces d hbefore hbytes),
        fun other hother => ?_⟩
      rw [← Option.some.inj hother, Machine.generatedProfile_eq hd]
      exact hbounded
    · rintro _ u ⟨left, hleft, rfl⟩
      exact h.setTemporaries hreplaces rfl hd hleft
    · rintro u ⟨left, hleft, rfl⟩
      exact h.setTemporaries hreplaces rfl hd hleft

end Active

/-! ## Every phase -/

/-- After the pointers, the profile of the activation before is put back, if there was one. -/
theorem wp_recoverPointers (h : Recovering env root journal s t)
    (hphase : journal.phase ≠ .firstRollbackDeletePending)
    (hwithdrawn : journal.activeBefore = none →
      ∀ name d, root = some name → t.runtimeVersions name = some d → d.profile = none) :
    wp (recoverPointers env journal)
      (fun _ u => Arrived env root journal s u ∧ (journal.activeBefore.isSome →
        ∀ name, root = some name → Accepts env journal t name))
      (fun _ => Recovering env root journal s) (Recovering env root journal s) t := by
  have hmoved := recovering_pointersBefore hphase h
  have hpointers := pointersSettled_before hphase t
  unfold recoverPointers
  refine wp_restorePointers hphase h ?_
  cases hbefore : journal.activeBefore with
  | none =>
    refine wp_ret ⟨hmoved.arrives hpointers fun name hname => ?_, fun hsome => by cases hsome⟩
    obtain ⟨d, hd⟩ := directory_of_activeRuntimeRoot (hname ▸ h.left.runtime.active)
    refine ⟨d, hd.trans (congrArg some ?_)⟩
    rw [settleDirectory_none d hbefore,
      RuntimeDirectory.setProfile_eq_self (hwithdrawn hbefore name d hname hd)]
  | some active =>
    by_cases hconfirmed : journal.phase = .firstRollbackDeleteConfirmed
    · have hkept : replacesProfile journal = false := by
        unfold replacesProfile
        rw [hconfirmed]
        rfl
      dsimp only
      rw [if_pos hconfirmed]
      refine wp_bind (wp_mono (wp_restoreActive hbefore hkept hmoved hpointers) ?_
        (fun _ _ hu => hu) fun _ hu => hu)
      rintro _ u ⟨harrived, hheld⟩
      refine wp_ret ⟨harrived, fun _ name hname => (accepts_kept hkept).2 ?_⟩
      rw [expectedGeneration_of_ne (by rw [hconfirmed]; decide)]
      exact hheld name hname
    · have htransition : journal.phase = .pointerTransition := by
        cases hp : journal.phase with
        | pointerTransition => rfl
        | firstRollbackDeletePending => exact absurd hp hphase
        | firstRollbackDeleteConfirmed => exact absurd hp hconfirmed
      have hreplaces : replacesProfile journal = true := by
        unfold replacesProfile
        rw [htransition, hbefore]
        rfl
      dsimp only
      rw [if_neg hconfirmed]
      refine wp_bind (wp_mono (wp_materializeBefore hbefore hreplaces hmoved hpointers) ?_
        (fun _ _ hu => hu) fun _ hu => hu)
      rintro _ u ⟨harrived, hbounded⟩
      exact wp_ret ⟨harrived, fun _ name hname => (accepts_replaced hreplaces).2
        (hbounded name hname)⟩

theorem observeMaterialized_eq_ok {name : String} {d : RuntimeDirectory} {active : GenerationId}
    {bytes : Bytes} {observation : MaterializedProfileObservation}
    (hroot : activeRuntimeRoot t = .ok (some name)) (hd : t.runtimeVersions name = some d)
    (hbytes : verifiedGenerationBytes env t active = .ok bytes)
    (h : observeMaterializedGeneration env t active = .ok observation) :
    match observation with
      | .absent => d.profile = none
      | .exactGeneration => d.profile = some bytes := by
  unfold observeMaterializedGeneration at h
  obtain ⟨found, hfound, h⟩ := bind_eq_ok.1 h
  cases hroot.symm.trans hfound
  obtain ⟨expected, hexpected, h⟩ := bind_eq_ok.1 h
  cases hbytes.symm.trans hexpected
  rw [Machine.generatedProfile_eq hd] at h
  cases hprofile : d.profile with
  | none =>
    rw [hprofile] at h
    cases h
    rfl
  | some actual =>
    rw [hprofile] at h
    obtain ⟨⟨⟩, _, h⟩ := bind_eq_ok.1 h
    obtain ⟨⟨⟩, hsame, h⟩ := bind_eq_ok.1 h
    cases h
    exact congrArg some (beq_iff_eq.1 (ok_of_require hsame))

/-- While the deletion is unsure the profile stays, and is written again where it has gone. -/
theorem wp_recoverDeletePending (h : Recovering env root journal s t)
    (hphase : journal.phase = .firstRollbackDeletePending) :
    wp (recoverDeletePending env journal)
      (fun _ u => Arrived env root journal s u ∧ ∀ name, root = some name → Accepts env journal t name)
      (fun _ => Recovering env root journal s) (Recovering env root journal s) t := by
  have hne : journal.phase ≠ .pointerTransition := by rw [hphase]; decide
  obtain ⟨active, hbefore⟩ := Option.isSome_iff_exists.1 (h.left.named hne)
  have hkept : replacesProfile journal = false := by
    unfold replacesProfile
    rw [hphase]
    rfl
  have hpointers : PointersSettled journal t := ⟨if_pos hphase, if_pos hphase⟩
  have haccepts : (∀ name, root = some name →
      HoldsGeneration env t journal.activeBefore (t.generatedProfile name)) →
      ∀ name, root = some name → Accepts env journal t name := by
    intro hheld name hname
    rw [accepts_kept hkept, expectedGeneration_of_ne hne]
    exact hheld name hname
  unfold recoverDeletePending
  rw [hbefore]
  refine wp_bind (wp_ret (wp_bind (wp_inspect (fun _ _ => ?_) (fun _ _ => h) h h)))
  refine wp_bind (wp_inspect (fun _ _ => ?_) (fun _ _ => h) h h)
  refine wp_bind (wp_ensure (fun _ => ?_) fun _ => h)
  refine wp_bind (wp_inspect (fun observation hobserved => ?_) (fun _ _ => h) h h)
  cases observation with
  | exactGeneration =>
    obtain ⟨bytes, hbytes⟩ := h.left.activeBefore active hbefore
    cases root with
    | none =>
      exact wp_ret ⟨h.arrives_nowhere hpointers, haccepts fun name hname => by cases hname⟩
    | some name =>
      obtain ⟨d, hd⟩ := directory_of_activeRuntimeRoot h.left.runtime.active
      have hexact := observeMaterialized_eq_ok h.left.runtime.active hd hbytes hobserved
      dsimp only at hexact
      refine wp_ret ⟨h.arrives hpointers fun other hother => ⟨d, ?_⟩, haccepts fun other hother => ?_⟩
      · rw [← Option.some.inj hother, hd, settleDirectory_kept hkept d hbefore hbytes,
          RuntimeDirectory.setProfile_eq_self hexact]
      · rw [← Option.some.inj hother, hbefore, Machine.generatedProfile_eq hd]
        exact (holdsGeneration_some hbytes).2 (Or.inr hexact)
  | absent =>
    refine wp_bind (wp_mono (wp_restoreActive hbefore hkept h hpointers) ?_ (fun _ _ hu => hu)
      fun _ hu => hu)
    rintro _ u ⟨harrived, hheld⟩
    exact wp_ret ⟨harrived, haccepts hheld⟩

/-- A first profile is only taken out of the runtime where nothing foreign is. -/
theorem wp_withdrawFirstProfile (h : Recovering env root journal s t)
    {activeAfter : Option GenerationId} (hverified : Verified env t activeAfter) :
    wp (withdrawFirstProfile env activeAfter)
      (fun _ u => Recovering env root journal s u ∧
        (∀ name, root = some name → u.generatedProfile name = none) ∧
        ∀ name, root = some name → HoldsGeneration env t activeAfter (t.generatedProfile name))
      (fun _ => Recovering env root journal s) (Recovering env root journal s) t := by
  cases activeAfter with
  | none =>
    refine wp_inspect (fun found habsent => ?_) (fun _ _ => h) h h
    have hnone : ∀ name, root = some name → t.generatedProfile name = none := by
      rintro name rfl
      exact (ensureAbsent_eq_ok h.left.runtime.active).1 habsent
    exact ⟨h, hnone, fun name hname => Or.inl (hnone name hname)⟩
  | some g =>
    unfold withdrawFirstProfile
    cases root with
    | none =>
      refine wp_bind (wp_mono (wp_clearMaterialized_none h.left.runtime.active) ?_
        (fun _ _ hu => hu.elim) ?_)
      · rintro (e | cleared) u rfl
        · exact wp_throw h
        · exact wp_ret ⟨h, (fun name hname => by cases hname), fun name hname => by cases hname⟩
      · rintro u rfl
        exact h
    | some name =>
      obtain ⟨bytes, hbytes⟩ := hverified g rfl
      obtain ⟨d, hd⟩ := directory_of_activeRuntimeRoot h.left.runtime.active
      have hcleared := h.setProfile rfl hd none
      refine wp_bind (wp_mono (wp_clearMaterialized h.left.runtime.active hd hbytes) ?_
        (fun _ _ hu => hu.elim) ?_)
      · rintro ((e | e) | cleared) u hu
        · cases hu
          exact wp_throw h
        · obtain ⟨_, rfl | rfl⟩ := hu
          · exact wp_throw h
          · exact wp_throw hcleared
        · obtain ⟨hholds, rfl⟩ := hu
          refine wp_ret ⟨hcleared, fun other hother => ?_, fun other hother => ?_⟩
          · rw [← Option.some.inj hother, Machine.generatedProfile_setDirectory]
            rfl
          · rw [← Option.some.inj hother, Machine.generatedProfile_eq hd]
            exact (holdsGeneration_some hbytes).2 hholds
      · rintro u (rfl | ⟨_, rfl⟩)
        · exact h
        · exact hcleared

theorem wp_recoverJournal (h : Recovering env root journal s t) :
    wp (recoverJournal env journal)
      (fun _ u => Arrived env root journal s u ∧ ∀ name, root = some name → Accepts env journal t name)
      (fun _ => Recovering env root journal s) (Recovering env root journal s) t := by
  unfold recoverJournal
  refine wp_bind (wp_inspect (fun _ _ => ?_) (fun _ _ => h) h h)
  refine wp_bind (wp_inspect (fun _ _ => ?_) (fun _ _ => h) h h)
  cases hphase : journal.phase with
  | firstRollbackDeletePending => exact wp_recoverDeletePending h hphase
  | firstRollbackDeleteConfirmed =>
    have hne : journal.phase ≠ .pointerTransition := by rw [hphase]; decide
    have hnamed := h.left.named hne
    have hnotPending : journal.phase ≠ .firstRollbackDeletePending := by rw [hphase]; decide
    refine wp_mono (wp_recoverPointers h hnotPending ?_) ?_ (fun _ _ hu => hu) fun _ hu => hu
    · intro hnone
      rw [hnone] at hnamed
      cases hnamed
    · rintro _ u ⟨harrived, haccepts⟩
      exact ⟨harrived, haccepts hnamed⟩
  | pointerTransition =>
    have hnotPending : journal.phase ≠ .firstRollbackDeletePending := by rw [hphase]; decide
    refine wp_bind (wp_inspect (fun activeAfter hread => ?_) (fun _ _ => h) h h)
    refine wp_bind (wp_inspect (fun _ hverify => ?_) (fun _ _ => h) h h)
    have hverified := verifyOptionalGeneration_eq_ok.1 hverify
    refine wp_bind (wp_whenever (fun hnone => ?_) fun hsome => ?_)
    · have hkept : replacesProfile journal = false := by
        unfold replacesProfile
        rw [hnone]
        simp
      refine wp_mono (wp_withdrawFirstProfile h hverified) ?_ (fun _ _ hu => hu) fun _ hu => hu
      rintro _ u ⟨hu, hwithdrawn, hheld⟩
      refine wp_mono (wp_recoverPointers hu hnotPending fun _ name d hname hd => ?_) ?_
        (fun _ _ hv => hv) fun _ hv => hv
      · rw [← Machine.generatedProfile_eq hd]
        exact hwithdrawn name hname
      · rintro _ v ⟨harrived, _⟩
        refine ⟨harrived, fun name hname => (accepts_kept hkept).2 ?_⟩
        rw [expectedGeneration_of_read hphase hread]
        exact hheld name hname
    · refine wp_mono (wp_recoverPointers h hnotPending fun hnone => absurd hnone hsome) ?_
        (fun _ _ hu => hu) fun _ hu => hu
      rintro _ u ⟨harrived, haccepts⟩
      exact ⟨harrived, haccepts (Option.isSome_iff_ne_none.2 hsome)⟩

/-- Every run of recovery goes on to the same state, however it is stopped. -/
theorem wp_recoverInterruptedActivation (h : Recovering env root journal s t) :
    wp (recoverInterruptedActivation env) (fun _ u => u = s ∧ ProfileAccounted env t)
      (fun _ => Recovering env root journal s) (Recovering env root journal s) t := by
  unfold recoverInterruptedActivation
  refine wp_bind (wp_observe ?_)
  rw [h.left.written]
  refine wp_bind (wp_inspect (fun parsed hparsed => ?_) (fun _ _ => h) h h)
  cases hparsed
  refine wp_bind (wp_mono (wp_recoverJournal h) ?_ (fun _ _ hu => hu) fun _ hu => hu)
  rintro _ u ⟨harrived, haccepts⟩
  exact wp_bind (wp_modify (wp_ret ⟨harrived.reached, h.left.profileAccounted_iff.2 haccepts⟩)
    harrived.recovering harrived.recovering)

/-! ## Recovery that completes -/

theorem completes_restorePointers {Q : Unit → Machine χ → Prop}
    {rest : Prog (Machine χ) SetupError Unit} (hrest : completes rest Q (pointersBefore journal t)) :
    completes (do
        restorePointer .active journal.activeBefore
        restorePointer .previous journal.previousBefore
        rest) Q t := by
  rw [restorePointer_eq, restorePointer_eq]
  exact completes_bind (completes_modify (completes_bind (completes_modify hrest)))

theorem completes_restoreActive (h : JournalLeft env root journal t) {active : GenerationId}
    (hbefore : journal.activeBefore = some active)
    (hheld : ∀ name, root = some name →
      HoldsGeneration env t journal.activeBefore (t.generatedProfile name)) :
    completes (restoreGenerationAfterConfirmedClear env active) (fun _ _ => True) t := by
  obtain ⟨bytes, hbytes⟩ := h.activeBefore active hbefore
  cases root with
  | none =>
    exact completes_mono (robust_restoreGeneration_none h.runtime.active).2 fun _ _ _ => trivial
  | some name =>
    obtain ⟨d, hd⟩ := directory_of_activeRuntimeRoot h.runtime.active
    have hholds := hheld name rfl
    rw [hbefore, Machine.generatedProfile_eq hd, holdsGeneration_some hbytes] at hholds
    exact completes_mono (robust_restoreGeneration h.runtime.active hd hbytes hholds).2
      fun _ _ _ => trivial

theorem completes_materializeBefore (h : JournalLeft env root journal t) {active : GenerationId}
    (hbefore : journal.activeBefore = some active)
    (hbounded : ∀ name, root = some name → BoundedProfile (t.generatedProfile name)) :
    completes (materializeGeneration env active) (fun _ _ => True) t := by
  obtain ⟨bytes, hbytes⟩ := h.activeBefore active hbefore
  cases root with
  | none =>
    exact completes_mono (robust_materializeGeneration_none h.runtime.active).2
      fun _ _ _ => trivial
  | some name =>
    obtain ⟨d, hd⟩ := directory_of_activeRuntimeRoot h.runtime.active
    have hwithin := hbounded name rfl
    rw [Machine.generatedProfile_eq hd] at hwithin
    have htidy := h.runtime.tidy name d rfl hd
    exact completes_mono
      (robust_materializeGeneration h.runtime.active hd htidy hwithin hbytes).2 fun _ _ _ => trivial

theorem completes_recoverPointers (h : JournalLeft env root journal t)
    (hphase : journal.phase ≠ .firstRollbackDeletePending)
    (haccepts : journal.activeBefore.isSome → ∀ name, root = some name →
      Accepts env journal t name) :
    completes (recoverPointers env journal) (fun _ _ => True) t := by
  have hmoved : JournalLeft env root journal (pointersBefore journal t) :=
    (h.setPointer hphase h.activeBefore .active).setPointer hphase h.previousBefore .previous
  unfold recoverPointers
  refine completes_restorePointers ?_
  cases hbefore : journal.activeBefore with
  | none => exact completes_ret trivial
  | some active =>
    have haccepts := haccepts (by rw [hbefore]; rfl)
    by_cases hconfirmed : journal.phase = .firstRollbackDeleteConfirmed
    · have hkept : replacesProfile journal = false := by
        unfold replacesProfile
        rw [hconfirmed]
        rfl
      have hheld : ∀ name, root = some name →
          HoldsGeneration env t journal.activeBefore (t.generatedProfile name) := by
        intro name hname
        have hexpected : expectedGeneration t journal = journal.activeBefore :=
          expectedGeneration_of_ne (by rw [hconfirmed]; decide)
        rw [← hexpected]
        exact (accepts_kept hkept).1 (haccepts name hname)
      dsimp only
      rw [if_pos hconfirmed]
      exact completes_bind (completes_mono (completes_restoreActive hmoved hbefore hheld)
        fun _ _ _ => completes_ret trivial)
    · have hreplaces : replacesProfile journal = true := by
        unfold replacesProfile
        rw [hbefore]
        cases hp : journal.phase with
        | pointerTransition => rfl
        | firstRollbackDeletePending => exact absurd hp hphase
        | firstRollbackDeleteConfirmed => exact absurd hp hconfirmed
      have hbounded : ∀ name, root = some name → BoundedProfile (t.generatedProfile name) :=
        fun name hname => (accepts_replaced hreplaces).1 (haccepts name hname)
      dsimp only
      rw [if_neg hconfirmed]
      exact completes_bind (completes_mono (completes_materializeBefore hmoved hbefore hbounded)
        fun _ _ _ => completes_ret trivial)

/-- What is beside the DLLs is known where nothing or exactly the expected bytes are. -/
theorem observeMaterialized_ok {name : String} {d : RuntimeDirectory} {active : GenerationId}
    {bytes : Bytes} (hroot : activeRuntimeRoot t = .ok (some name))
    (hd : t.runtimeVersions name = some d)
    (hbytes : verifiedGenerationBytes env t active = .ok bytes) (hholds : Holds d.profile bytes) :
    ∃ observation, observeMaterializedGeneration env t active = .ok observation := by
  have hprofile := Machine.generatedProfile_eq hd
  unfold observeMaterializedGeneration
  rcases hholds with hnone | hexact
  · refine ⟨.absent, bind_eq_ok.2 ⟨some name, hroot, bind_eq_ok.2 ⟨bytes, hbytes, ?_⟩⟩⟩
    rw [hprofile, hnone]
  · have hbounded := bounded_of_verified hbytes
    refine ⟨.exactGeneration, bind_eq_ok.2 ⟨some name, hroot, bind_eq_ok.2 ⟨bytes, hbytes, ?_⟩⟩⟩
    rw [hprofile, hexact]
    refine bind_eq_ok.2 ⟨(), require_true _ ?_, bind_eq_ok.2 ⟨(), require_true _ ?_, rfl⟩⟩
    · simp [hbounded.1, hbounded.2]
    · exact beq_iff_eq.2 rfl

theorem completes_recoverDeletePending (h : JournalLeft env root journal t)
    (hphase : journal.phase = .firstRollbackDeletePending)
    (haccepts : ∀ name, root = some name → Accepts env journal t name) :
    completes (recoverDeletePending env journal) (fun _ _ => True) t := by
  have hne : journal.phase ≠ .pointerTransition := by rw [hphase]; decide
  obtain ⟨active, hbefore⟩ := Option.isSome_iff_exists.1 (h.named hne)
  obtain ⟨bytes, hbytes⟩ := h.activeBefore active hbefore
  obtain ⟨hactive, hprevious⟩ := h.untouched hphase
  have hkept : replacesProfile journal = false := by
    unfold replacesProfile
    rw [hphase]
    rfl
  have hheld : ∀ name, root = some name →
      HoldsGeneration env t journal.activeBefore (t.generatedProfile name) := by
    intro name hname
    have hexpected : expectedGeneration t journal = journal.activeBefore :=
      expectedGeneration_of_ne hne
    rw [← hexpected]
    exact (accepts_kept hkept).1 (haccepts name hname)
  have hobserved : ∃ observation,
      observeMaterializedGeneration env t active = .ok observation := by
    cases root with
    | none => exact ⟨.absent, bind_eq_ok.2 ⟨none, h.runtime.active, rfl⟩⟩
    | some name =>
      obtain ⟨d, hd⟩ := directory_of_activeRuntimeRoot h.runtime.active
      have hholds := hheld name rfl
      rw [hbefore, Machine.generatedProfile_eq hd, holdsGeneration_some hbytes] at hholds
      exact observeMaterialized_ok h.runtime.active hd hbytes hholds
  obtain ⟨observation, hobserved⟩ := hobserved
  rw [hbefore] at hactive
  unfold recoverDeletePending
  rw [hbefore]
  refine completes_bind (completes_ret (completes_bind (completes_inspect hactive ?_)))
  refine completes_bind (completes_inspect hprevious (completes_bind (completes_ensure ?_ ?_)))
  · simp
  refine completes_bind (completes_inspect hobserved ?_)
  cases observation with
  | exactGeneration => exact completes_ret trivial
  | absent =>
    exact completes_bind (completes_mono (completes_restoreActive h hbefore hheld)
      fun _ _ _ => completes_ret trivial)

theorem completes_withdrawFirstProfile (h : JournalLeft env root journal t)
    {activeAfter : Option GenerationId} (hverified : Verified env t activeAfter)
    (hheld : ∀ name, root = some name →
      HoldsGeneration env t activeAfter (t.generatedProfile name)) :
    completes (withdrawFirstProfile env activeAfter) (fun _ _ => True) t := by
  cases activeAfter with
  | none =>
    refine completes_inspect (a := ()) ?_ trivial
    cases root with
    | none => exact bind_eq_ok.2 ⟨none, h.runtime.active, rfl⟩
    | some name =>
      exact (ensureAbsent_eq_ok h.runtime.active).2 (holdsGeneration_none.1 (hheld name rfl))
  | some g =>
    obtain ⟨bytes, hbytes⟩ := hverified g rfl
    have hcleared : completes (clearMaterializedGeneration env g)
        (fun result _ => ∃ cleared, result = .ok cleared) t := by
      cases root with
      | none =>
        exact completes_bind (completes_attempt (completes_inspect h.runtime.active
          (completes_ret ⟨false, rfl⟩)))
      | some name =>
        obtain ⟨d, hd⟩ := directory_of_activeRuntimeRoot h.runtime.active
        have hholds := hheld name rfl
        rw [Machine.generatedProfile_eq hd, holdsGeneration_some hbytes] at hholds
        refine completes_mono (completes_clearMaterialized h.runtime.active hd hbytes) ?_
        rintro result u (⟨_, hresult⟩ | ⟨hforeign, _⟩)
        · exact hresult
        · exact absurd hholds hforeign
    refine completes_bind (completes_mono hcleared ?_)
    rintro result u ⟨cleared, rfl⟩
    exact completes_ret trivial

theorem completes_recoverJournal (h : JournalLeft env root journal t)
    (haccepts : ∀ name, root = some name → Accepts env journal t name) :
    completes (recoverJournal env journal) (fun _ _ => True) t := by
  unfold recoverJournal
  refine completes_bind (completes_inspect (verifyOptionalGeneration_eq_ok.2 h.activeBefore) ?_)
  refine completes_bind (completes_inspect (verifyOptionalGeneration_eq_ok.2 h.previousBefore) ?_)
  cases hphase : journal.phase with
  | firstRollbackDeletePending => exact completes_recoverDeletePending h hphase haccepts
  | firstRollbackDeleteConfirmed =>
    exact completes_recoverPointers h (by rw [hphase]; decide) fun _ => haccepts
  | pointerTransition =>
    have hnotPending : journal.phase ≠ .firstRollbackDeletePending := by rw [hphase]; decide
    obtain ⟨activeAfter, hread, hverified⟩ := h.active
    refine completes_bind (completes_inspect hread ?_)
    refine completes_bind (completes_inspect (verifyOptionalGeneration_eq_ok.2 hverified) ?_)
    refine completes_bind (completes_whenever (fun hnone => ?_) fun _ => ?_)
    · have hkept : replacesProfile journal = false := by
        unfold replacesProfile
        rw [hnone]
        simp
      have hheld : ∀ name, root = some name →
          HoldsGeneration env t activeAfter (t.generatedProfile name) := by
        intro name hname
        rw [← expectedGeneration_of_read hphase hread]
        exact (accepts_kept hkept).1 (haccepts name hname)
      -- What withdrawing the profile leaves still has the journal.
      refine completes_mono (completes_and_wp (completes_withdrawFirstProfile h hverified hheld)
        (wp_withdrawFirstProfile ⟨h, rfl⟩ hverified)) ?_
      rintro _ u ⟨_, hu, _⟩
      refine completes_recoverPointers hu.left hnotPending fun hsome => ?_
      rw [hnone] at hsome
      cases hsome
    · exact completes_recoverPointers h hnotPending fun _ => haccepts

/-- Where the generated profile is accounted for, nothing but a fault stops recovery. -/
theorem completes_recoverInterruptedActivation (h : JournalLeft env root journal t)
    (haccounted : ProfileAccounted env t) :
    completes (recoverInterruptedActivation env) (fun _ _ => True) t := by
  unfold recoverInterruptedActivation
  refine completes_bind (completes_observe ?_)
  rw [h.written]
  refine completes_bind (completes_inspect (a := journal) rfl ?_)
  refine completes_bind (completes_mono
    (completes_recoverJournal h (h.profileAccounted_iff.1 haccounted)) fun _ u _ => ?_)
  exact completes_bind (completes_modify (completes_ret trivial))

/-! ## Recovery that is run again -/

/-- Without a journal, or with one that an activation has left. -/
inductive Left (env : StorageEnvironment) (m : Machine χ) : Prop
  | settled (h : m.profileJournal = none)
  | interrupted {root : Option String} {journal : ProfileActivationJournal}
      (h : JournalLeft env root journal m)

/-- Recovery without faults from either state reports success and ends in the same state. -/
def RecoversAlike (env : StorageEnvironment) (m u : Machine χ) : Prop :=
  ∃ s recoveredM recoveredU,
    (recoverInterruptedActivation env).calm m = (.done recoveredM, s) ∧
      (recoverInterruptedActivation env).calm u = (.done recoveredU, s)

theorem wp_recover_settled (h : t.profileJournal = none) :
    wp (recoverInterruptedActivation env) (fun _ u => u = t) (fun _ _ => False) (fun _ => False)
      t := by
  unfold recoverInterruptedActivation
  refine wp_bind (wp_observe ?_)
  rw [h]
  exact wp_ret rfl

/-- A state that recovery was run on from `s₀`, and where it leads. -/
theorem Recovering.rerun (h : Recovering env root journal s t) {u : Machine χ}
    (hrerun : Rerun (recoverInterruptedActivation env) t u) :
    Recovering env root journal s u ∨ (u.profileJournal = none ∧ u = s) := by
  have hgone : s.profileJournal = none := by
    rw [← h.leads]
    rfl
  refine hrerun.invariant (I := fun u => Recovering env root journal s u ∨
    (u.profileJournal = none ∧ u = s)) (fun u hu => ?_) (Or.inl h)
  rcases hu with hu | ⟨hnone, rfl⟩
  · refine wp_mono (wp_recoverInterruptedActivation hu) ?_ (fun _ _ hv => Or.inl hv)
      fun _ hv => Or.inl hv
    rintro _ v ⟨rfl, _⟩
    exact Or.inr ⟨hgone, rfl⟩
  · refine wp_mono (wp_recover_settled hnone) ?_ (fun _ _ hv => hv.elim) fun _ hv => hv.elim
    rintro _ v rfl
    exact Or.inr ⟨hnone, rfl⟩

theorem recovers_of_accounted (h : Recovering env root journal s t)
    (haccounted : ProfileAccounted env t) :
    ∃ recovered, (recoverInterruptedActivation env).calm t = (.done recovered, s) := by
  have hcomplete := completes_and_wp (completes_recoverInterruptedActivation h.left haccounted)
    (wp_recoverInterruptedActivation h)
  obtain ⟨recovered, u, hrun, _, rfl, _⟩ := hcomplete
  exact ⟨recovered, hrun⟩

theorem accounted_of_recovers (h : Recovering env root journal s t) {recovered : Bool}
    {u : Machine χ} (hrun : (recoverInterruptedActivation env).calm t = (.done recovered, u)) :
    ProfileAccounted env t := by
  have hresult := wp_recoverInterruptedActivation h []
  rw [show (recoverInterruptedActivation env).result [] t = _ from hrun] at hresult
  exact hresult.2

theorem recovers_settled (h : t.profileJournal = none) :
    (recoverInterruptedActivation env).calm t = (.done false, t) := by
  unfold recoverInterruptedActivation calm result
  rw [run_bind, run_observe, h]
  rfl

theorem profileAccounted_settled (h : t.profileJournal = none) : ProfileAccounted env t := by
  intro journal name hwritten _
  rw [h] at hwritten
  cases hwritten

/-- However often recovery was stopped, it leads to where it would have led at once, if and only
if the generated profile is accounted for before the first run and before the last. -/
theorem Left.recoversAlike_iff (h : Left env t) {u : Machine χ}
    (hrerun : Rerun (recoverInterruptedActivation env) t u) :
    RecoversAlike env t u ↔ ProfileAccounted env t ∧ ProfileAccounted env u := by
  cases h with
  | settled hnone =>
    have hsame : u = t := by
      refine hrerun.invariant (I := fun v => v = t) (fun v hv => ?_) rfl
      subst hv
      exact wp_mono (wp_recover_settled hnone) (fun _ _ hw => hw) (fun _ _ hw => hw.elim)
        fun _ hw => hw.elim
    subst hsame
    have haccounted : ProfileAccounted env u := profileAccounted_settled hnone
    exact iff_of_true ⟨u, false, false, recovers_settled hnone, recovers_settled hnone⟩
      ⟨haccounted, haccounted⟩
  | interrupted hleft =>
    have hstart : Recovering env _ _ (settle env _ _ t) t := ⟨hleft, rfl⟩
    rcases hstart.rerun hrerun with hu | ⟨hnone, hsettled⟩
    · constructor
      · rintro ⟨s, recoveredT, recoveredU, hT, hU⟩
        exact ⟨accounted_of_recovers hstart hT, accounted_of_recovers hu hU⟩
      · rintro ⟨hT, hU⟩
        obtain ⟨recoveredT, hrunT⟩ := recovers_of_accounted hstart hT
        obtain ⟨recoveredU, hrunU⟩ := recovers_of_accounted hu hU
        exact ⟨_, recoveredT, recoveredU, hrunT, hrunU⟩
    · constructor
      · rintro ⟨s, recoveredT, recoveredU, hT, hU⟩
        exact ⟨accounted_of_recovers hstart hT, profileAccounted_settled hnone⟩
      · rintro ⟨hT, _⟩
        obtain ⟨recoveredT, hrunT⟩ := recovers_of_accounted hstart hT
        rw [← hsettled] at hrunT
        exact ⟨u, recoveredT, false, hrunT, recovers_settled hnone⟩

end MacTypeControl.ProfileStore
