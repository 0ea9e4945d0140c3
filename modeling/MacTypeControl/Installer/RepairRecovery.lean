import MacTypeControl.Installer.RepairReceipts

/-!
# What an interrupted repair leaves

The states that a repair and its recovery can be stopped in, and which of them a recovery
without faults takes to the old or to the new generation.
-/

namespace MacTypeControl.Installer

open Crash Crash.Prog Profile Storage

namespace RepairStorage

@[simp] theorem set_self (m : RepairStorage) (name : String) (d : Option RuntimeDirectory) :
    (m.set name d).runtimeVersions name = d := Function.update_self ..

theorem set_of_ne (m : RepairStorage) {name other : String} (h : other ≠ name)
    (d : Option RuntimeDirectory) :
    (m.set name d).runtimeVersions other = m.runtimeVersions other := Function.update_of_ne h ..

theorem set_set (m : RepairStorage) (name : String) (d e : Option RuntimeDirectory) :
    (m.set name d).set name e = m.set name e := by
  unfold set
  rw [Function.update_idem]

theorem set_eq_self {m : RepairStorage} {name : String} {d : Option RuntimeDirectory}
    (h : m.runtimeVersions name = d) : m.set name d = m := by
  unfold set
  rw [← h, Function.update_eq_self]

theorem exists_eq (m : RepairStorage) (name : String) :
    m.exists name = (m.runtimeVersions name).isSome := rfl

end RepairStorage

/-! ## Where the directories stand -/

section

variable (env : RepairEnvironment) (payload : LoadedPayload) (old : RuntimeDirectory)

/-- What the three directories of a repair hold, and the phase its journal is in. -/
structure StandsAt (t : RepairStorage) (destination staging backup : Option RuntimeDirectory)
    (phase : Option RuntimeRepairPhase) : Prop where
  inDestination : t.runtimeVersions payload.version.text = destination
  inStaging : t.runtimeVersions (repairStaging env payload) = staging
  inBackup : t.runtimeVersions (repairBackup env payload) = backup
  inJournal : t.repairJournal =
    phase.map fun phase => .written (repairJournal env payload (receiptOf env old) phase)

/-- The states that a repair of `old` and its recovery can be stopped in. -/
inductive Held (t : RepairStorage) : Prop
  | unjournaled {staging backup : Option RuntimeDirectory}
      (ht : StandsAt env payload old t (some old) staging backup none)
  | staged {phase : RuntimeRepairPhase} {staging : Option RuntimeDirectory}
      (hphase : phase ≠ .newVerified) (hold : Receiptable old)
      (hstaging : ∀ d, staging = some d → d.Within (payloadDirectory payload))
      (ht : StandsAt env payload old t (some old) staging none (some phase))
  | moved {phase : RuntimeRepairPhase} (hphase : phase ≠ .newVerified) (hold : Receiptable old)
      (ht : StandsAt env payload old t none (some (payloadDirectory payload)) (some old)
        (some phase))
  | placed {phase : RuntimeRepairPhase} (hphase : phase = .oldMoved ∨ phase = .newPlacedUnverified)
      (hold : Receiptable old)
      (ht : StandsAt env payload old t (some (payloadDirectory payload)) none (some old)
        (some phase))
  | verified {backup : Option RuntimeDirectory} (hold : Receiptable old)
      (hbackup : ∀ d, backup = some d → d.Within old)
      (ht : StandsAt env payload old t (some (payloadDirectory payload)) none backup
        (some .newVerified))
  | completed {backup : Option RuntimeDirectory}
      (ht : StandsAt env payload old t (some (payloadDirectory payload)) none backup none)

/-- The staging directory is there as a whole or not at all, and without a journal there is
neither a staging nor a backup directory. -/
def Accounted (t : RepairStorage) : Prop :=
  if t.repairJournal = none then
    t.runtimeVersions (repairStaging env payload) = none ∧
      t.runtimeVersions (repairBackup env payload) = none
  else t.runtimeVersions (repairStaging env payload) = none ∨
    t.runtimeVersions (repairStaging env payload) = some (payloadDirectory payload)

/-- A recovery without faults succeeds. It leaves the old or the new generation and nothing of
the repair. -/
def Converges (t : RepairStorage) : Prop :=
  ∃ u, (recoverInterruptedRepair env).calm t = (.done (), u) ∧
    (u.runtimeVersions payload.version.text = some old ∨
      u.runtimeVersions payload.version.text = some (payloadDirectory payload) ∧
        verifyExistingPayload payload (u.runtimeVersions payload.version.text) = .ok ()) ∧
    u.runtimeVersions (repairStaging env payload) = none ∧
    u.runtimeVersions (repairBackup env payload) = none ∧ u.repairJournal = none

end

variable {env : RepairEnvironment} {payload : LoadedPayload} {old : RuntimeDirectory}
  {t : RepairStorage} {destination staging backup : Option RuntimeDirectory}
  {phase : Option RuntimeRepairPhase}

namespace StandsAt

variable (h : StandsAt env payload old t destination staging backup phase)
include h

theorem exists_destination : t.exists payload.version.text = destination.isSome := by
  rw [t.exists_eq, h.inDestination]

theorem exists_staging : t.exists (repairStaging env payload) = staging.isSome := by
  rw [t.exists_eq, h.inStaging]

theorem exists_backup : t.exists (repairBackup env payload) = backup.isSome := by
  rw [t.exists_eq, h.inBackup]

theorem setDestination (d : Option RuntimeDirectory) :
    StandsAt env payload old (t.set payload.version.text d) d staging backup phase where
  inDestination := t.set_self ..
  inStaging := (t.set_of_ne staging_ne_version d).trans h.inStaging
  inBackup := (t.set_of_ne backup_ne_version d).trans h.inBackup
  inJournal := h.inJournal

theorem setStaging (d : Option RuntimeDirectory) :
    StandsAt env payload old (t.set (repairStaging env payload) d) destination d backup phase where
  inDestination := (t.set_of_ne staging_ne_version.symm d).trans h.inDestination
  inStaging := t.set_self ..
  inBackup := (t.set_of_ne staging_ne_backup.symm d).trans h.inBackup
  inJournal := h.inJournal

theorem setBackup (d : Option RuntimeDirectory) :
    StandsAt env payload old (t.set (repairBackup env payload) d) destination staging d phase where
  inDestination := (t.set_of_ne backup_ne_version.symm d).trans h.inDestination
  inStaging := (t.set_of_ne staging_ne_backup d).trans h.inStaging
  inBackup := t.set_self ..
  inJournal := h.inJournal

theorem write (phase : RuntimeRepairPhase) : StandsAt env payload old
    (t.setJournal (some (.written (repairJournal env payload (receiptOf env old) phase))))
    destination staging backup (some phase) :=
  ⟨h.inDestination, h.inStaging, h.inBackup, rfl⟩

theorem removeJournal : StandsAt env payload old (t.setJournal none)
    destination staging backup none :=
  ⟨h.inDestination, h.inStaging, h.inBackup, rfl⟩

theorem defer (deferred : List (String × Option RuntimeEntry)) :
    StandsAt env payload old { t with deferredDeletions := deferred }
      destination staging backup phase :=
  ⟨h.inDestination, h.inStaging, h.inBackup, h.inJournal⟩

end StandsAt

/-! ## The single steps -/

section

variable {Q : Unit → RepairStorage → Prop} {E : SetupError → RepairStorage → Prop}
  {C I : RepairStorage → Prop} {name source target : String} {d : RuntimeDirectory}

theorem renamed_eq (hsource : t.runtimeVersions source = some d)
    (htarget : t.runtimeVersions target = none) :
    renamed source target t = .ok ((), (t.set source none).set target (some d)) := by
  unfold renamed
  rw [hsource]
  dsimp only
  rw [require_true _ (by rw [t.exists_eq, htarget]; rfl)]
  rfl

theorem robust_rename (hsource : t.runtimeVersions source = some d)
    (htarget : t.runtimeVersions target = none)
    (hq : Q () ((t.set source none).set target (some d))) (hI : I t) :
    robust (renameDirectory source target) Q I t :=
  robust_step (renamed_eq hsource htarget) hq hI (by simp)

theorem wp_rename (hsource : t.runtimeVersions source = some d)
    (htarget : t.runtimeVersions target = none)
    (hq : Q () ((t.set source none).set target (some d))) (hE : E .io t) (hC : C t) :
    wp (renameDirectory source target) Q E C t := by
  refine wp_atomic (fun a u hu => ?_) (fun error he => ?_) hE hC
  · rw [renamed_eq hsource htarget] at hu
    cases hu
    exact hq
  · rw [renamed_eq hsource htarget] at he
    cases he

theorem robust_verify (hd : t.runtimeVersions name = some d) (hreceiptable : Receiptable d)
    {expected : RuntimeDirectoryReceipt} (hexpected : receiptOf env d = expected) (hq : Q () t)
    (hI : I t) :
    robust (inspect .io fun m => verifyRuntimeDirectoryReceipt env (m.runtimeVersions name) expected)
      Q I t :=
  robust_inspect (verifyReceipt_ok_iff.2 ⟨d, hd, hreceiptable, hexpected⟩) hq hI

theorem maintains_eachEntry {action : RuntimeEntry → Repair Unit}
    (h : ∀ entry, Maintains I (action entry) fun _ => True) (entries : List RuntimeEntry) :
    Maintains I (eachEntry action entries) fun _ => True := by
  induction entries with
  | nil => exact maintains_ret trivial
  | cons entry rest ih => exact maintains_bind (h entry) fun _ _ => ih

/-- Each listed entry is taken out of the directory, and the others stay. -/
theorem completes_eachEntry {action : RuntimeEntry → Repair Unit}
    (haction : ∀ u entry d, u.runtimeVersions name = some d → (d.content entry).isSome = true →
      completes (action entry) (fun _ v => v = u.set name (some (d.erase entry))) u)
    (entries : List RuntimeEntry) :
    ∀ (t : RepairStorage) (d : RuntimeDirectory), t.runtimeVersions name = some d →
      entries.Nodup → (∀ entry ∈ entries, (d.content entry).isSome = true) →
      completes (eachEntry action entries) (fun _ u => ∃ e, u = t.set name (some e) ∧
        e.temporaries = d.temporaries ∧ e.foreign = d.foreign ∧
        ∀ entry, e.content entry = if entry ∈ entries then none else d.content entry) t := by
  induction entries with
  | nil =>
    intro t d hd _ _
    exact completes_ret ⟨d, (t.set_eq_self hd).symm, rfl, rfl, fun entry => by simp⟩
  | cons entry rest ih =>
    intro t d hd hnodup hpresent
    rw [List.nodup_cons] at hnodup
    refine completes_bind (completes_mono
      (haction t entry d hd (hpresent entry List.mem_cons_self)) fun _ u hu => ?_)
    subst hu
    have hrest : ∀ other ∈ rest, ((d.erase entry).content other).isSome = true := by
      intro other hother
      have hne : other ≠ entry := fun heq => hnodup.1 (heq ▸ hother)
      rw [d.content_erase_of_ne hne]
      exact hpresent other (List.mem_cons_of_mem _ hother)
    refine completes_mono (ih _ _ (t.set_self ..) hnodup.2 hrest) fun _ v hv => ?_
    obtain ⟨e, rfl, htemporaries, hforeign, hcontent⟩ := hv
    refine ⟨e, t.set_set .., ?_, ?_, fun other => ?_⟩
    · rw [htemporaries, d.temporaries_erase]
    · rw [hforeign, d.foreign_erase]
    · rw [hcontent other]
      by_cases hother : other = entry
      · rw [hother, d.content_erase_self]
        simp
      · rw [d.content_erase_of_ne hother]
        simp [hother]

theorem completes_removeEntry {u : RepairStorage} {entry : RuntimeEntry}
    (hd : u.runtimeVersions name = some d) (hentry : (d.content entry).isSome = true) :
    completes (removeEntry name entry) (fun _ v => v = u.set name (some (d.erase entry))) u := by
  refine completes_atomic (a := ()) (t := u.set name (some (d.erase entry))) ?_ rfl
  rw [hd]
  dsimp only
  rw [require_true _ hentry]
  rfl

theorem completes_removeDirectory (hd : t.runtimeVersions name = some d)
    (hempty : d.entryCount = 0) :
    completes (removeDirectory name) (fun _ u => u = t.set name none) t := by
  refine completes_atomic (a := ()) (t := t.set name none) ?_ rfl
  rw [hd]
  dsimp only
  rw [require_true _ (beq_iff_eq.2 hempty)]
  rfl

/-- All entries of a directory and the directory itself. -/
theorem completes_emptied {action : RuntimeEntry → Repair Unit} {removal : Repair Unit}
    (haction : ∀ u entry d, u.runtimeVersions name = some d → (d.content entry).isSome = true →
      completes (action entry) (fun _ v => v = u.set name (some (d.erase entry))) u)
    (hremoval : ∀ u d, u.runtimeVersions name = some d → d.entryCount = 0 →
      completes removal (fun _ v => v = u.set name none) u)
    (hd : t.runtimeVersions name = some d) (htemporaries : d.temporaries = [])
    (hforeign : d.foreign = []) :
    completes (eachEntry action (env.listing d) >>= fun _ => removal)
      (fun _ u => u = t.set name none) t := by
  refine completes_bind (completes_mono (completes_eachEntry haction (env.listing d) t d hd
    (env.nodup_listing d) fun entry => (env.mem_listing d entry).1) fun _ u hu => ?_)
  obtain ⟨e, rfl, htemporaries', hforeign', hcontent⟩ := hu
  have hnone : ∀ entry, e.content entry = none := by
    intro entry
    rw [hcontent entry]
    by_cases hentry : entry ∈ env.listing d
    · exact if_pos hentry
    · rw [if_neg hentry]
      rw [env.mem_listing] at hentry
      simpa using hentry
  have hempty := RuntimeDirectory.entryCount_of_empty hnone (htemporaries'.trans htemporaries)
    (hforeign'.trans hforeign)
  refine completes_mono (hremoval _ e (t.set_self ..) hempty) fun _ v hv => ?_
  rw [hv, t.set_set]

end

/-! ## Removing a directory -/

section

variable {name : String} {d : RuntimeDirectory}

theorem repairEntries_ok (htemporaries : d.temporaries = []) (hforeign : d.foreign = [])
    (hbounded : ∀ entry, boundedEntry d entry = true) :
    repairEntries env (some d) = .ok (env.listing d) := by
  have hclean : (d.temporaries == [] && d.foreign == []) = true := by
    rw [htemporaries, hforeign]
    rfl
  have hsizes : ((env.listing d).all fun entry =>
      (d.content entry).all fun bytes => decide (bytes.length ≤ entryLimit entry)) = true := by
    rw [List.all_eq_true]
    intro entry _
    have hentry := hbounded entry
    unfold boundedEntry at hentry
    cases hcontent : d.content entry with
    | none => rfl
    | some bytes =>
      rw [hcontent] at hentry
      simp only [Option.all_some, Bool.and_eq_true] at hentry ⊢
      exact hentry.2
  unfold repairEntries
  refine bind_eq_ok.2 ⟨_, readBoundedDirectory_ok htemporaries hforeign _, ?_⟩
  refine bind_eq_ok.2 ⟨(), require_true _ hclean, ?_⟩
  exact bind_eq_ok.2 ⟨(), require_true _ hsizes, rfl⟩

theorem completes_removeRepairDirectory (hd : t.runtimeVersions name = some d)
    (hreceiptable : Receiptable d) :
    completes (removeRepairDirectory env name) (fun _ u => u = t.set name none) t := by
  have hentries := @repairEntries_ok env _ hreceiptable.temporaries hreceiptable.foreign
    hreceiptable.bounded
  unfold removeRepairDirectory
  refine completes_bind (completes_inspect (a := env.listing d) (by rw [hd]; exact hentries) ?_)
  exact completes_emptied (fun _ _ _ => completes_removeEntry)
    (fun _ _ => completes_removeDirectory) hd hreceiptable.temporaries hreceiptable.foreign

theorem maintains_removeEntry {I : RepairStorage → Prop}
    (h : ∀ u d entry, I u → u.runtimeVersions name = some d →
      I (u.set name (some (d.erase entry)))) (entry : RuntimeEntry) :
    Maintains I (removeEntry name entry) fun _ => True := by
  refine maintains_atomic fun u _ v hu hv => ⟨trivial, ?_⟩
  cases hd : u.runtimeVersions name with
  | none =>
    rw [hd] at hv
    cases hv
  | some d =>
    rw [hd] at hv
    obtain ⟨_, _, hv⟩ := bind_eq_ok.1 hv
    cases hv
    exact h u d entry hu hd

theorem wp_removeDirectory {Q : Unit → RepairStorage → Prop} {E : SetupError → RepairStorage → Prop}
    {C : RepairStorage → Prop} (hq : Q () (t.set name none)) (hE : ∀ error, E error t) (hC : C t) :
    wp (removeDirectory name) Q E C t := by
  refine wp_atomic (fun _ u hu => ?_) (fun _ _ => hE _) (hE _) hC
  cases hd : t.runtimeVersions name with
  | none =>
    rw [hd] at hu
    cases hu
  | some d =>
    rw [hd] at hu
    obtain ⟨_, _, hu⟩ := bind_eq_ok.1 hu
    cases hu
    exact hq

end

/-! ## The staging directory -/

/-- The old generation is in place, and `P` holds of the staging directory if it is there. -/
def StagingLeft (env : RepairEnvironment) (payload : LoadedPayload) (old : RuntimeDirectory)
    (phase : Option RuntimeRepairPhase) (P : RuntimeDirectory → Prop) (t : RepairStorage) : Prop :=
  ∃ staging, StandsAt env payload old t (some old) staging none phase ∧
    ∀ d, staging = some d → P d

theorem wp_removeStaging {P : RuntimeDirectory → Prop} (hP : ∀ d entry, P d → P (d.erase entry))
    (ht : StagingLeft env payload old phase P t) :
    wp (removeRepairDirectory env (repairStaging env payload))
      (fun _ u => StandsAt env payload old u (some old) none none phase)
      (fun _ => StagingLeft env payload old phase P) (StagingLeft env payload old phase P) t := by
  unfold removeRepairDirectory
  refine wp_bind (wp_inspect (fun entries _ => ?_) (fun _ _ => ht) ht ht)
  refine (maintains_eachEntry (maintains_removeEntry fun u d entry hu hd => ?_) entries).wp_bind
    ht fun _ u _ hu => ?_
  · obtain ⟨staging, hstands, hstaging⟩ := hu
    have hd : staging = some d := hstands.inStaging.symm.trans hd
    refine ⟨_, hstands.setStaging _, fun e he => ?_⟩
    cases he
    exact hP d entry (hstaging d hd)
  · obtain ⟨staging, hstands, hstaging⟩ := hu
    exact wp_removeDirectory (hstands.setStaging none) (fun _ => ⟨staging, hstands, hstaging⟩)
      ⟨staging, hstands, hstaging⟩

theorem StagingLeft.held {phase : RuntimeRepairPhase} (hphase : phase ≠ .newVerified)
    (hold : Receiptable old) (h : StagingLeft env payload old (some phase)
      (fun d => d.Within (payloadDirectory payload)) t) : Held env payload old t := by
  obtain ⟨staging, hstands, hstaging⟩ := h
  exact .staged hphase hold hstaging hstands

/-- The whole staging directory is deleted, as long as nothing fails. -/
theorem robust_removeReceipted {phase : RuntimeRepairPhase} (hphase : phase ≠ .newVerified)
    (hold : Receiptable old)
    (ht : StandsAt env payload old t (some old) (some (payloadDirectory payload)) none (some phase)) :
    robust (removeReceiptedRuntimeDirectory env (repairStaging env payload)
        (receiptOf env (payloadDirectory payload)))
      (fun _ u => StandsAt env payload old u (some old) none none (some phase))
      (Held env payload old) t := by
  have hleft : StagingLeft env payload old (some phase)
      (fun d => d.Within (payloadDirectory payload)) t :=
    ⟨_, ht, fun d hd => by cases hd; exact receiptable_payload.within⟩
  have hremoved := wp_removeStaging (fun _ entry hd => hd.erase entry) hleft
  unfold removeReceiptedRuntimeDirectory
  refine robust_bind (robust_verify ht.inStaging receiptable_payload rfl ⟨?_, ?_⟩
    (hleft.held hphase hold))
  · exact wp_mono hremoved (fun _ _ hu => hu) (fun _ _ hu => hu.held hphase hold)
      fun _ hu => hu.held hphase hold
  · refine completes_mono (completes_removeRepairDirectory ht.inStaging receiptable_payload)
      fun _ u hu => ?_
    rw [hu]
    exact ht.setStaging none

theorem robust_removeStagingIfPresent {phase : RuntimeRepairPhase} (hphase : phase ≠ .newVerified)
    (hold : Receiptable old)
    (ht : StandsAt env payload old t (some old) staging none (some phase))
    (hstaging : staging = none ∨ staging = some (payloadDirectory payload)) :
    robust (removeStagingIfPresent env (repairStaging env payload)
        (receiptOf env (payloadDirectory payload)))
      (fun _ u => StandsAt env payload old u (some old) none none (some phase))
      (Held env payload old) t := by
  unfold removeStagingIfPresent
  refine robust_bind (robust_observe (robust_whenever (fun _ => ?_) fun habsent => ?_))
  · rcases hstaging with rfl | rfl
    · next hpresent =>
      rw [ht.exists_staging] at hpresent
      cases hpresent
    · exact robust_removeReceipted hphase hold ht
  · rcases hstaging with rfl | rfl
    · exact ht
    · rw [ht.exists_staging] at habsent
      exact absurd rfl habsent

/-- A staging directory that lost an entry is not deleted, and nothing else is done to it. -/
theorem wp_removeStagingIfPresent_thinned {d : RuntimeDirectory}
    (hd : t.runtimeVersions (repairStaging env payload) = some d)
    (hwithin : d.Within (payloadDirectory payload)) (hthinned : d ≠ payloadDirectory payload)
    {E : SetupError → RepairStorage → Prop} {C : RepairStorage → Prop} (hE : ∀ error, E error t)
    (hC : C t) :
    wp (removeStagingIfPresent env (repairStaging env payload)
      (receiptOf env (payloadDirectory payload))) (fun _ _ => False) E C t := by
  unfold removeStagingIfPresent
  refine wp_bind (wp_observe (wp_whenever (fun _ => ?_) fun habsent => ?_))
  · unfold removeReceiptedRuntimeDirectory
    refine wp_bind (wp_inspect (fun _ hverified => ?_) (fun _ _ => hE _) (hE _) hC)
    obtain ⟨e, he, _, hreceipt⟩ := verifyReceipt_ok_iff.1 hverified
    rw [hd] at he
    cases he
    exact absurd (eq_of_within_of_receipt hwithin rfl rfl hreceipt) hthinned
  · rw [t.exists_eq, hd] at habsent
    exact absurd rfl habsent

/-! ## The recovery of one phase -/

/-- A staging directory that is whole or absent holds nothing but the new generation. -/
theorem within_of_staged (hstaging : staging = none ∨ staging = some (payloadDirectory payload))
    (d : RuntimeDirectory) (hd : staging = some d) : d.Within (payloadDirectory payload) := by
  rcases hstaging with rfl | rfl
  · cases hd
  · cases hd
    exact receiptable_payload.within

section

variable {phase : RuntimeRepairPhase} (hphase : phase ≠ .newVerified) (hold : Receiptable old)
include hphase hold

/-- The old generation is back in its place. -/
theorem robust_finishRestored
    (ht : StandsAt env payload old t (some old) staging none (some phase))
    (hstaging : staging = none ∨ staging = some (payloadDirectory payload)) :
    robust (do
        inspect .io fun m => verifyRuntimeDirectoryReceipt env
          (m.runtimeVersions payload.version.text) (receiptOf env old)
        removeStagingIfPresent env (repairStaging env payload)
          (receiptOf env (payloadDirectory payload)))
      (fun _ u => StandsAt env payload old u (some old) none none (some phase))
      (Held env payload old) t := by
  exact robust_bind (robust_verify ht.inDestination hold rfl
    (robust_removeStagingIfPresent hphase hold ht hstaging) (.staged hphase hold (within_of_staged hstaging) ht))

omit hphase in
theorem robust_recoverPrepared_staged
    (ht : StandsAt env payload old t (some old) staging none (some phase))
    (hphase : phase = .prepared)
    (hstaging : staging = none ∨ staging = some (payloadDirectory payload)) :
    robust (recoverPreparedRepair env (repairJournal env payload (receiptOf env old) phase))
      (fun _ u => StandsAt env payload old u (some old) none none (some phase))
      (Held env payload old) t := by
  unfold recoverPreparedRepair
  refine robust_bind (robust_observe (robust_bind (robust_whenever (fun hmoved => ?_) fun _ => ?_)))
  · have hbackup : (t.runtimeVersions (repairBackup env payload)).isSome = true := hmoved
    rw [ht.inBackup] at hbackup
    cases hbackup
  · exact robust_finishRestored (by rw [hphase]; decide) hold ht hstaging

theorem robust_recoverPrepared_moved
    (ht : StandsAt env payload old t none (some (payloadDirectory payload)) (some old)
      (some phase)) :
    robust (recoverPreparedRepair env (repairJournal env payload (receiptOf env old) phase))
      (fun _ u => StandsAt env payload old u (some old) none none (some phase))
      (Held env payload old) t := by
  have hheld : Held env payload old t := .moved hphase hold ht
  have habsent : (!(t.runtimeVersions payload.version.text).isSome) = true := by
    rw [ht.inDestination]
    rfl
  unfold recoverPreparedRepair
  refine robust_bind (robust_observe (robust_bind (robust_whenever (fun _ => ?_) fun hnone => ?_)))
  · refine robust_bind (robust_verify ht.inBackup hold rfl ?_ hheld)
    refine robust_bind (robust_observe (robust_bind (robust_ensure habsent ?_)))
    refine robust_rename ht.inBackup ht.inDestination ?_ hheld
    exact robust_finishRestored hphase hold ((ht.setBackup none).setDestination _) (Or.inr rfl)
  · have hbackup : ¬(t.runtimeVersions (repairBackup env payload)).isSome = true := hnone
    rw [ht.inBackup] at hbackup
    exact absurd rfl hbackup

theorem robust_recoverUnverified_moved
    (ht : StandsAt env payload old t none (some (payloadDirectory payload)) (some old)
      (some phase)) :
    robust (recoverUnverifiedRepair env (repairJournal env payload (receiptOf env old) phase))
      (fun _ u => StandsAt env payload old u (some old) none none (some phase))
      (Held env payload old) t := by
  have hheld : Held env payload old t := .moved hphase hold ht
  have habsent : ¬t.exists payload.version.text = true := by
    rw [ht.exists_destination]
    exact Bool.false_ne_true
  unfold recoverUnverifiedRepair
  refine robust_bind (robust_observe ?_)
  rw [if_neg (show ¬t.exists
    (repairJournal env payload (receiptOf env old) phase).version = true from habsent)]
  unfold recoverMissingDestination
  refine robust_bind (robust_verify ht.inBackup hold rfl ?_ hheld)
  refine robust_bind (robust_rename ht.inBackup ht.inDestination ?_ hheld)
  exact robust_finishRestored hphase hold ((ht.setBackup none).setDestination _) (Or.inr rfl)

omit hphase hold in
/-- Where a generation stands, the recovery asks whether it is the old one. -/
theorem wp_recoverUnverified_present {Q : Unit → RepairStorage → Prop} {d : RuntimeDirectory}
    (ht : StandsAt env payload old t (some d) staging backup (some phase)) (hd : Receiptable d)
    (hheld : Held env payload old t)
    (h : wp (if receiptOf env d = receiptOf env old
        then recoverOldDestination env (repairJournal env payload (receiptOf env old) phase)
        else recoverNewDestination env (repairJournal env payload (receiptOf env old) phase))
      Q (fun _ => Held env payload old) (Held env payload old) t) :
    wp (recoverUnverifiedRepair env (repairJournal env payload (receiptOf env old) phase)) Q
      (fun _ => Held env payload old) (Held env payload old) t := by
  have hmatches : runtimeDirectoryMatches env (t.runtimeVersions payload.version.text)
      (receiptOf env old) = .ok (decide (receiptOf env d = receiptOf env old)) := by
    rw [ht.inDestination, runtimeDirectoryMatches_eq hd]
  unfold recoverUnverifiedRepair
  refine wp_bind (wp_observe ?_)
  rw [if_pos (show t.exists (repairJournal env payload (receiptOf env old) phase).version = true
    from ht.exists_destination)]
  unfold recoverPresentDestination
  refine wp_bind (wp_inspect (fun isOld hisOld => ?_) (fun _ _ => hheld) hheld hheld)
  obtain rfl : isOld = decide (receiptOf env d = receiptOf env old) :=
    Except.ok.inj (hisOld.symm.trans hmatches)
  simpa only [decide_eq_true_eq] using h

omit hphase hold in
theorem robust_recoverUnverified_present {Q : Unit → RepairStorage → Prop} {d : RuntimeDirectory}
    (ht : StandsAt env payload old t (some d) staging backup (some phase)) (hd : Receiptable d)
    (hheld : Held env payload old t)
    (h : robust (if receiptOf env d = receiptOf env old
        then recoverOldDestination env (repairJournal env payload (receiptOf env old) phase)
        else recoverNewDestination env (repairJournal env payload (receiptOf env old) phase))
      Q (Held env payload old) t) :
    robust (recoverUnverifiedRepair env (repairJournal env payload (receiptOf env old) phase)) Q
      (Held env payload old) t := by
  have hmatches : runtimeDirectoryMatches env (t.runtimeVersions payload.version.text)
      (receiptOf env old) = .ok (decide (receiptOf env d = receiptOf env old)) := by
    rw [ht.inDestination, runtimeDirectoryMatches_eq hd]
  refine ⟨wp_recoverUnverified_present ht hd hheld h.1, ?_⟩
  unfold recoverUnverifiedRepair
  refine completes_bind (completes_observe ?_)
  rw [if_pos (show t.exists (repairJournal env payload (receiptOf env old) phase).version = true
    from ht.exists_destination)]
  unfold recoverPresentDestination
  refine completes_bind (completes_inspect hmatches ?_)
  simpa only [decide_eq_true_eq] using h.2

theorem robust_recoverUnverified_staged
    (ht : StandsAt env payload old t (some old) staging none (some phase))
    (hstaging : staging = none ∨ staging = some (payloadDirectory payload)) :
    robust (recoverUnverifiedRepair env (repairJournal env payload (receiptOf env old) phase))
      (fun _ u => StandsAt env payload old u (some old) none none (some phase))
      (Held env payload old) t := by
  have hbackup : (!t.exists (repairBackup env payload)) = true := by
    rw [ht.exists_backup]
    rfl
  refine robust_recoverUnverified_present ht hold
    (.staged hphase hold (within_of_staged hstaging) ht) ?_
  rw [if_pos rfl]
  unfold recoverOldDestination
  refine robust_bind (robust_observe (robust_bind (robust_ensure hbackup ?_)))
  exact robust_removeStagingIfPresent hphase hold ht hstaging

/-- The new generation is taken out of its place and the old one is put back. -/
theorem robust_recoverUnverified_placed
    (hplaced : phase = .oldMoved ∨ phase = .newPlacedUnverified)
    (hdistinct : receiptOf env (payloadDirectory payload) ≠ receiptOf env old)
    (ht : StandsAt env payload old t (some (payloadDirectory payload)) none (some old)
      (some phase)) :
    robust (recoverUnverifiedRepair env (repairJournal env payload (receiptOf env old) phase))
      (fun _ u => StandsAt env payload old u (some old) none none (some phase))
      (Held env payload old) t := by
  have hheld : Held env payload old t := .placed hplaced hold ht
  have hisNew : runtimeDirectoryMatches env (t.runtimeVersions payload.version.text)
      (receiptOf env (payloadDirectory payload)) = .ok true := by
    rw [ht.inDestination, runtimeDirectoryMatches_eq receiptable_payload, decide_eq_true rfl]
  have hsafe : (t.exists (repairBackup env payload) && !t.exists (repairStaging env payload)) =
      true := by
    rw [ht.exists_backup, ht.exists_staging]
    rfl
  refine robust_recoverUnverified_present ht receiptable_payload hheld ?_
  rw [if_neg hdistinct]
  unfold recoverNewDestination
  refine robust_bind (robust_inspect hisNew ?_ hheld)
  refine robust_bind (robust_ensure rfl ?_)
  refine robust_bind (robust_observe (robust_bind (robust_ensure hsafe ?_)))
  refine robust_bind (robust_verify ht.inBackup hold rfl ?_ hheld)
  refine robust_bind (robust_rename ht.inDestination ht.inStaging ?_ hheld)
  -- From here on the journal describes an old generation that was moved away.
  have hmoved := (ht.setDestination none).setStaging (some (payloadDirectory payload))
  have hheld' := Held.moved hphase hold hmoved
  refine robust_bind (robust_verify hmoved.inStaging receiptable_payload rfl ?_ hheld')
  refine robust_bind (robust_mapError (robust_rename hmoved.inBackup hmoved.inDestination ?_ hheld'))
  have hrestored := (hmoved.setBackup none).setDestination (some old)
  have hleft : Held env payload old _ := .staged hphase hold
    (fun d hd => by cases hd; exact receiptable_payload.within) hrestored
  refine robust_bind (robust_verify hrestored.inDestination hold rfl ?_ hleft)
  exact robust_removeReceipted hphase hold hrestored

omit hphase hold in
/-- A new generation with the receipt of the old one passes for it, and the backup is in the way. -/
theorem wp_recoverUnverified_ambiguous
    (hsame : receiptOf env (payloadDirectory payload) = receiptOf env old)
    (ht : StandsAt env payload old t (some (payloadDirectory payload)) none (some old)
      (some phase))
    (hheld : Held env payload old t) :
    wp (recoverUnverifiedRepair env (repairJournal env payload (receiptOf env old) phase))
      (fun _ _ => False) (fun _ => Held env payload old) (Held env payload old) t := by
  have hmoved : (!t.exists (repairBackup env payload)) = false := by
    rw [ht.exists_backup]
    rfl
  refine wp_recoverUnverified_present ht receiptable_payload hheld ?_
  rw [if_pos hsame]
  unfold recoverOldDestination
  refine wp_bind (wp_observe (wp_bind (wp_ensure (fun hsafe => ?_) fun _ => hheld)))
  have hsafe : (!t.exists (repairBackup env payload)) = true := hsafe
  rw [hmoved] at hsafe
  cases hsafe

/-- A staging directory that lost an entry is in the way of every later recovery. -/
theorem wp_recoverRepairByPhase_thinned {d : RuntimeDirectory}
    (ht : StandsAt env payload old t (some old) (some d) none (some phase))
    (hwithin : d.Within (payloadDirectory payload)) (hthinned : d ≠ payloadDirectory payload) :
    wp (recoverRepairByPhase env (repairJournal env payload (receiptOf env old) phase))
      (fun _ _ => False) (fun _ => Held env payload old) (Held env payload old) t := by
  have hheld : Held env payload old t :=
    .staged hphase hold (fun e he => by cases he; exact hwithin) ht
  have hstuck := @wp_removeStagingIfPresent_thinned env payload t d ht.inStaging hwithin hthinned
    (fun _ => Held env payload old) (Held env payload old) (fun _ => hheld) hheld
  have hbackup : ¬t.exists (repairBackup env payload) = true := by
    rw [ht.exists_backup]
    exact Bool.false_ne_true
  have hunverified : wp (recoverUnverifiedRepair env
      (repairJournal env payload (receiptOf env old) phase)) (fun _ _ => False)
      (fun _ => Held env payload old) (Held env payload old) t := by
    refine wp_recoverUnverified_present ht hold hheld ?_
    rw [if_pos rfl]
    unfold recoverOldDestination
    exact wp_bind (wp_observe (wp_bind (wp_ensure (fun _ => hstuck) fun _ => hheld)))
  unfold recoverRepairByPhase
  cases hjournal : (repairJournal env payload (receiptOf env old) phase).phase with
  | prepared =>
    dsimp only
    unfold recoverPreparedRepair
    refine wp_bind (wp_observe (wp_bind (wp_whenever (fun hmoved => absurd hmoved hbackup)
      fun _ => ?_)))
    exact wp_bind (wp_inspect (fun _ _ => hstuck) (fun _ _ => hheld) hheld hheld)
  | oldMoved => exact hunverified
  | newPlacedUnverified => exact hunverified
  | newVerified => exact absurd hjournal hphase

end

end MacTypeControl.Installer
