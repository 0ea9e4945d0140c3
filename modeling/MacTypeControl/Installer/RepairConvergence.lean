import MacTypeControl.Installer.RepairRecovery
import MacTypeControl.Installer.BoundRecovery

/-!
# When the recovery of a repair converges

Every state that a repair and its recovery can be stopped in is one of the states of the
exchange, and a recovery without faults brings the exchange to its end exactly if the staging
directory is accounted for.
-/

namespace MacTypeControl.Installer

open Crash Crash.Prog Profile Storage

variable {env : RepairEnvironment} {payload : LoadedPayload} {old : RuntimeDirectory}
  {t : RepairStorage} {staging backup : Option RuntimeDirectory}

/-! ## The backup directory -/

/-- The new generation is in place and verified. The backup may have lost entries. -/
def BackupLeft (env : RepairEnvironment) (payload : LoadedPayload) (old : RuntimeDirectory)
    (t : RepairStorage) : Prop :=
  ∃ backup, StandsAt env payload old t (some (payloadDirectory payload)) none backup
      (some .newVerified) ∧ ∀ d, backup = some d → d.Within old

theorem BackupLeft.held (h : BackupLeft env payload old t) (hold : Receiptable old) :
    Held env payload old t := by
  obtain ⟨backup, hstands, hbackup⟩ := h
  exact .verified hold hbackup hstands

theorem BackupLeft.completed (h : BackupLeft env payload old t) :
    Held env payload old (t.setJournal none) := by
  obtain ⟨backup, hstands, _⟩ := h
  exact .completed hstands.removeJournal

theorem maintains_removeOrDefer (entry : Option RuntimeEntry) :
    Maintains (BackupLeft env payload old)
      (removeOrDeferAfterReboot (repairBackup env payload) entry) fun _ => True := by
  unfold removeOrDeferAfterReboot
  refine maintains_handle ?_ fun _ => maintains_mapError (maintains_modify fun u hu => ?_)
  · cases entry with
    | none =>
      intro u hu
      obtain ⟨backup, hstands, hbackup⟩ := hu
      exact wp_removeDirectory ⟨trivial, none, hstands.setBackup none, fun _ h => by cases h⟩
        (fun _ => ⟨backup, hstands, hbackup⟩) ⟨backup, hstands, hbackup⟩
    | some entry =>
      refine maintains_removeEntry (fun u d entry hu hd => ?_) entry
      obtain ⟨backup, hstands, hbackup⟩ := hu
      have hd : backup = some d := hstands.inBackup.symm.trans hd
      refine ⟨_, hstands.setBackup _, fun e he => ?_⟩
      cases he
      exact (hbackup d hd).erase entry
  · obtain ⟨backup, hstands, hbackup⟩ := hu
    exact ⟨backup, hstands.defer _, hbackup⟩

theorem maintains_removeVerifiedBackup (expected : RuntimeDirectoryReceipt) :
    Maintains (BackupLeft env payload old)
      (removeVerifiedBackupDirectory env (repairBackup env payload) expected) fun _ => True := by
  unfold removeVerifiedBackupDirectory
  refine maintains_bind (maintains_inspect fun _ _ _ _ => trivial) fun entries _ => ?_
  exact maintains_bind (maintains_eachEntry (fun entry => maintains_removeOrDefer _) entries)
    fun _ _ => maintains_removeOrDefer none

/-- Whatever the backup has lost, the rest of it is recognised. -/
theorem verifiedBackupEntries_ok {d : RuntimeDirectory} (hold : Receiptable old)
    (hwithin : d.Within old) :
    verifiedBackupEntries env (receiptOf env old) (some d) = .ok (env.listing d) := by
  have hbounded : (env.listing d).all (boundedEntry d) = true :=
    all_listing_bounded_iff.2 fun entry => boundedEntry_of_within hwithin (hold.bounded entry)
  have hsame : ∀ entry ∈ env.listing d, d.content entry = old.content entry := by
    intro entry hentry
    rw [env.mem_listing] at hentry
    rcases hwithin.content entry with hnone | hsame
    · rw [hnone] at hentry
      cases hentry
    · exact hsame
  have hexpected : (d.temporaries == [] && d.foreign == [] &&
      (env.listing d).all fun entry => ((receiptOf env old).files entry).isSome) = true := by
    rw [hwithin.temporaries, hwithin.foreign]
    refine List.all_eq_true.2 fun entry hentry => ?_
    have hpresent := (env.mem_listing d entry).1 hentry
    rw [hsame entry hentry] at hpresent
    simpa [receiptOf] using hpresent
  have hdigests : ((env.listing d).all fun entry =>
      (receiptOf env d).files entry == (receiptOf env old).files entry) = true := by
    refine List.all_eq_true.2 fun entry hentry => ?_
    simp [receiptOf, hsame entry hentry]
  unfold verifiedBackupEntries
  refine bind_eq_ok.2 ⟨_, readBoundedDirectory_ok hwithin.temporaries hwithin.foreign _, ?_⟩
  refine bind_eq_ok.2 ⟨(), require_true _ hexpected, ?_⟩
  refine bind_eq_ok.2 ⟨(), require_true _ hbounded, ?_⟩
  exact bind_eq_ok.2 ⟨(), require_true _ hdigests, rfl⟩

theorem completes_removeVerifiedBackup {d : RuntimeDirectory} (hold : Receiptable old)
    (hwithin : d.Within old) {name : String} (hd : t.runtimeVersions name = some d) :
    completes (removeVerifiedBackupDirectory env name (receiptOf env old))
      (fun _ u => u = t.set name none) t := by
  have hentries := @verifiedBackupEntries_ok env old d hold hwithin
  unfold removeVerifiedBackupDirectory
  refine completes_bind (completes_inspect (a := env.listing d) (by rw [hd]; exact hentries) ?_)
  exact completes_emptied
    (fun _ _ _ hu hentry => completes_handle (completes_removeEntry hu hentry))
    (fun _ _ hu hempty => completes_handle (completes_removeDirectory hu hempty)) hd
    hwithin.temporaries hwithin.foreign

theorem maintains_recoverVerified :
    Maintains (BackupLeft env payload old) (recoverVerifiedRepair env
      (repairJournal env payload (receiptOf env old) .newVerified)) fun _ => True := by
  unfold recoverVerifiedRepair
  refine maintains_bind (P := fun _ => True) (maintains_observe fun _ _ => trivial) fun _ _ => ?_
  refine maintains_bind maintains_ensure fun _ _ => ?_
  refine maintains_bind (maintains_inspect fun _ _ _ _ => trivial) fun _ _ => ?_
  refine maintains_bind (P := fun _ => True) (maintains_observe fun _ _ => trivial) fun _ _ => ?_
  exact maintains_whenever fun _ => maintains_removeVerifiedBackup _

theorem completes_recoverVerified (hold : Receiptable old)
    (hbackup : ∀ d, backup = some d → d.Within old)
    (ht : StandsAt env payload old t (some (payloadDirectory payload)) none backup
      (some .newVerified)) :
    completes (recoverVerifiedRepair env
        (repairJournal env payload (receiptOf env old) .newVerified))
      (fun _ u => StandsAt env payload old u (some (payloadDirectory payload)) none none
        (some .newVerified)) t := by
  have hretained : (!t.exists (repairStaging env payload)) = true := by
    rw [ht.exists_staging]
    rfl
  unfold recoverVerifiedRepair
  refine completes_bind (completes_observe (completes_bind (completes_ensure hretained ?_)))
  refine completes_bind (completes_inspect (verifyReceipt_ok_iff.2
    ⟨_, ht.inDestination, receiptable_payload, rfl⟩) ?_)
  refine completes_bind (completes_observe (completes_whenever (fun hpresent => ?_)
    fun habsent => ?_))
  · cases backup with
    | none =>
      have hpresent : (t.runtimeVersions (repairBackup env payload)).isSome = true := hpresent
      rw [ht.inBackup] at hpresent
      cases hpresent
    | some d =>
      refine completes_mono (completes_removeVerifiedBackup hold (hbackup d rfl) ht.inBackup)
        fun _ u hu => ?_
      rw [hu]
      exact ht.setBackup none
  · cases backup with
    | none => exact ht
    | some d =>
      have habsent : ¬(t.runtimeVersions (repairBackup env payload)).isSome = true := habsent
      rw [ht.inBackup] at habsent
      exact absurd rfl habsent

/-! ## The whole recovery -/

section

variable {Q : Unit → RepairStorage → Prop} {phase : RuntimeRepairPhase}
  (hjournal : t.repairJournal =
    some (.written (repairJournal env payload (receiptOf env old) phase)))
include hjournal

theorem wp_recover_of_phase (hheld : Held env payload old t)
    (h : wp (recoverRepairByPhase env (repairJournal env payload (receiptOf env old) phase))
      (fun _ u => Q () (u.setJournal none) ∧ Held env payload old u)
      (fun _ => Held env payload old) (Held env payload old) t) :
    wp (recoverInterruptedRepair env) Q (fun _ => Held env payload old)
      (Held env payload old) t := by
  unfold recoverInterruptedRepair
  refine wp_bind (wp_observe ?_)
  rw [hjournal]
  unfold recoverRepairJournal
  refine wp_bind (wp_inspect (fun journal hread => ?_) (fun _ _ => hheld) hheld hheld)
  obtain ⟨_, _, hread⟩ := bind_eq_ok.1 hread
  cases hread
  exact wp_bind (wp_mono h (fun _ _ hu => wp_modify hu.1 hu.2 hu.2) (fun _ _ hu => hu)
    fun _ hu => hu)

theorem completes_recover_of_phase (hold : Receiptable old)
    (h : completes (recoverRepairByPhase env (repairJournal env payload (receiptOf env old) phase))
      (fun _ u => Q () (u.setJournal none)) t) :
    completes (recoverInterruptedRepair env) Q t := by
  have hread : readRepairJournal (.written (repairJournal env payload (receiptOf env old) phase)) =
      .ok (repairJournal env payload (receiptOf env old) phase) :=
    bind_eq_ok.2 ⟨(), require_true _ (validRepairJournal_journal hold phase), rfl⟩
  unfold recoverInterruptedRepair
  refine completes_bind (completes_observe ?_)
  rw [hjournal]
  unfold recoverRepairJournal
  refine completes_bind (completes_inspect hread ?_)
  exact completes_bind (completes_mono h fun _ _ hu => completes_modify hu)

end

/-- The recovery of a phase that ends with the old generation in its place. -/
theorem robust_recover_of_phase {phase : RuntimeRepairPhase} (hphase : phase ≠ .newVerified)
    (hold : Receiptable old) (hheld : Held env payload old t)
    (hjournal : t.repairJournal =
      some (.written (repairJournal env payload (receiptOf env old) phase)))
    (h : robust (recoverRepairByPhase env (repairJournal env payload (receiptOf env old) phase))
      (fun _ u => StandsAt env payload old u (some old) none none (some phase))
      (Held env payload old) t) :
    robust (recoverInterruptedRepair env)
      (fun _ u => StandsAt env payload old u (some old) none none none) (Held env payload old) t := by
  constructor
  · refine wp_recover_of_phase hjournal hheld (wp_mono h.1 (fun _ u hu => ?_)
      (fun _ _ hu => hu) fun _ hu => hu)
    exact ⟨hu.removeJournal, .staged hphase hold (fun _ hd => by cases hd) hu⟩
  · exact completes_recover_of_phase hjournal hold
      (completes_mono h.2 fun _ _ hu => hu.removeJournal)

theorem robust_recover_staged {phase : RuntimeRepairPhase} (hphase : phase ≠ .newVerified)
    (hold : Receiptable old) (ht : StandsAt env payload old t (some old) staging none (some phase))
    (hstaging : staging = none ∨ staging = some (payloadDirectory payload)) :
    robust (recoverInterruptedRepair env)
      (fun _ u => StandsAt env payload old u (some old) none none none) (Held env payload old) t := by
  refine robust_recover_of_phase hphase hold (.staged hphase hold (within_of_staged hstaging) ht)
    ht.inJournal ?_
  cases phase with
  | prepared => exact robust_recoverPrepared_staged hold ht rfl hstaging
  | oldMoved => exact robust_recoverUnverified_staged hphase hold ht hstaging
  | newPlacedUnverified => exact robust_recoverUnverified_staged hphase hold ht hstaging
  | newVerified => exact absurd rfl hphase

theorem robust_recover_moved {phase : RuntimeRepairPhase} (hphase : phase ≠ .newVerified)
    (hold : Receiptable old)
    (ht : StandsAt env payload old t none (some (payloadDirectory payload)) (some old)
      (some phase)) :
    robust (recoverInterruptedRepair env)
      (fun _ u => StandsAt env payload old u (some old) none none none) (Held env payload old) t := by
  refine robust_recover_of_phase hphase hold (.moved hphase hold ht) ht.inJournal ?_
  cases phase with
  | prepared => exact robust_recoverPrepared_moved hphase hold ht
  | oldMoved => exact robust_recoverUnverified_moved hphase hold ht
  | newPlacedUnverified => exact robust_recoverUnverified_moved hphase hold ht
  | newVerified => exact absurd rfl hphase

theorem robust_recover_placed {phase : RuntimeRepairPhase}
    (hphase : phase = .oldMoved ∨ phase = .newPlacedUnverified) (hold : Receiptable old)
    (hdistinct : receiptOf env (payloadDirectory payload) ≠ receiptOf env old)
    (ht : StandsAt env payload old t (some (payloadDirectory payload)) none (some old)
      (some phase)) :
    robust (recoverInterruptedRepair env)
      (fun _ u => StandsAt env payload old u (some old) none none none) (Held env payload old) t := by
  have hunverified : phase ≠ .newVerified := by
    rcases hphase with rfl | rfl <;> decide
  refine robust_recover_of_phase hunverified hold (.placed hphase hold ht) ht.inJournal ?_
  have hrecovered := robust_recoverUnverified_placed hunverified hold hphase hdistinct ht
  rcases hphase with rfl | rfl
  · exact hrecovered
  · exact hrecovered

/-- A recovery from there can only succeed with the old generation put back. -/
theorem wp_recover_placed {phase : RuntimeRepairPhase}
    (hphase : phase = .oldMoved ∨ phase = .newPlacedUnverified) (hold : Receiptable old)
    (ht : StandsAt env payload old t (some (payloadDirectory payload)) none (some old)
      (some phase)) :
    wp (recoverInterruptedRepair env)
      (fun _ u => StandsAt env payload old u (some old) none none none)
      (fun _ => Held env payload old) (Held env payload old) t := by
  have hheld : Held env payload old t := .placed hphase hold ht
  by_cases hsame : receiptOf env (payloadDirectory payload) = receiptOf env old
  · have hrefused : wp (recoverRepairByPhase env (repairJournal env payload (receiptOf env old) phase))
        (fun _ _ => False) (fun _ => Held env payload old) (Held env payload old) t := by
      have hambiguous := wp_recoverUnverified_ambiguous hsame ht hheld
      rcases hphase with rfl | rfl
      · exact hambiguous
      · exact hambiguous
    exact wp_recover_of_phase ht.inJournal hheld (wp_mono hrefused (fun _ _ hu => hu.elim)
      (fun _ _ hu => hu) fun _ hu => hu)
  · exact (robust_recover_placed hphase hold hsame ht).1

/-! ## The payload in its place -/

theorem verify_payloadDirectory :
    verifyExistingPayload payload (some (payloadDirectory payload)) = .ok () := by
  have hfile : ∀ file ∈ immutableRuntimeFiles,
      verifyPayloadFile payload (payloadDirectory payload) file = .ok () := by
    intro file _
    have hbounded := payload.bounded file
    exact bind_eq_ok.2 ⟨_, readBoundedRegularFile_ok hbounded.1 hbounded.2 _,
      require_true _ (beq_self_eq_true _)⟩
  unfold verifyExistingPayload
  refine bind_eq_ok.2 ⟨(), require_true _ rfl, bind_eq_ok.2 ⟨(), require_true _ rfl, ?_⟩⟩
  refine bind_eq_ok.2 ⟨(), require_true _ rfl, bind_eq_ok.2 ⟨(), require_true _ rfl, ?_⟩⟩
  exact bind_eq_ok.2 ⟨(), forM_eq_ok_iff.2 hfile, require_true _ rfl⟩

/-- The installed files are not those of the payload, and their digests tell it. -/
theorem not_receipts_eq_of_invalid
    (hinvalid : verifyExistingPayload payload (some old) ≠ .ok ())
    (hdigests : ∀ file bytes, old.files file = some bytes →
      env.sha256Digest bytes = env.sha256Digest (payload.files file) → bytes = payload.files file)
    (hold : Receiptable old) : receiptOf env (payloadDirectory payload) ≠ receiptOf env old := by
  intro hreceipts
  have hentries : ∀ entry, ((payloadDirectory payload).content entry).map env.sha256Digest =
      (old.content entry).map env.sha256Digest := fun entry =>
    congrFun (congrArg RuntimeDirectoryReceipt.files hreceipts) entry
  have hsame : payloadDirectory payload = old := by
    refine RuntimeDirectory.eq_of_content (fun entry => ?_) hold.temporaries.symm
      hold.foreign.symm
    have hentry := hentries entry
    cases entry with
    | profile =>
      cases hprofile : old.content .profile with
      | none => rfl
      | some bytes =>
        rw [hprofile] at hentry
        cases hentry
    | file file =>
      cases hfile : old.content (.file file) with
      | none =>
        rw [hfile] at hentry
        cases hentry
      | some bytes =>
        rw [hfile] at hentry
        have hdigest : env.sha256Digest (payload.files file) = env.sha256Digest bytes :=
          Option.some.inj hentry
        exact congrArg some (hdigests file bytes hfile hdigest.symm).symm
  exact hinvalid (hsame ▸ verify_payloadDirectory)

theorem wp_recoverInterruptedRepair (h : Held env payload old t) :
    wp (recoverInterruptedRepair env) (fun _ => Held env payload old)
      (fun _ => Held env payload old) (Held env payload old) t := by
  have hnothing (hnone : t.repairJournal = none) : wp (recoverInterruptedRepair env)
      (fun _ => Held env payload old) (fun _ => Held env payload old) (Held env payload old) t := by
    unfold recoverInterruptedRepair
    refine wp_bind (wp_observe ?_)
    rw [hnone]
    exact wp_ret h
  have hheld := h
  have hrestored {u : RepairStorage} (hu : StandsAt env payload old u (some old) none none none) :
      Held env payload old u := .unjournaled hu
  cases h with
  | unjournaled ht => exact hnothing ht.inJournal
  | completed ht => exact hnothing ht.inJournal
  | @staged phase staging hphase hold hstaging ht =>
    by_cases hexact : staging = none ∨ staging = some (payloadDirectory payload)
    · exact wp_mono (robust_recover_staged hphase hold ht hexact).1 (fun _ _ => hrestored)
        (fun _ _ hu => hu) fun _ hu => hu
    · cases staging with
      | none => exact absurd (Or.inl rfl) hexact
      | some d =>
        have hthinned : d ≠ payloadDirectory payload := fun hd => hexact (Or.inr (congrArg some hd))
        refine wp_recover_of_phase ht.inJournal hheld (wp_mono (wp_recoverRepairByPhase_thinned hphase
          hold ht (hstaging d rfl) hthinned) (fun _ _ hu => hu.elim) (fun _ _ hu => hu)
          fun _ hu => hu)
  | moved hphase hold ht =>
    exact wp_mono (robust_recover_moved hphase hold ht).1 (fun _ _ => hrestored)
      (fun _ _ hu => hu) fun _ hu => hu
  | placed hphase hold ht =>
    exact wp_mono (wp_recover_placed hphase hold ht) (fun _ _ => hrestored) (fun _ _ hu => hu)
      fun _ hu => hu
  | verified hold hbackup ht =>
    refine wp_recover_of_phase ht.inJournal hheld (wp_mono (maintains_recoverVerified t
      ⟨_, ht, hbackup⟩) (fun _ u hu => ?_) (fun _ _ hu => hu.held hold) fun _ hu => hu.held hold)
    exact ⟨hu.2.completed, hu.2.held hold⟩

theorem converges_of_completes
    (h : completes (recoverInterruptedRepair env) (fun _ u =>
      StandsAt env payload old u (some old) none none none ∨
        StandsAt env payload old u (some (payloadDirectory payload)) none none none) t) :
    Converges env payload old t := by
  obtain ⟨_, u, hrun, hu⟩ := h
  refine ⟨u, hrun, ?_⟩
  rcases hu with hold | hnew
  · exact ⟨Or.inl hold.inDestination, hold.inStaging, hold.inBackup, hold.inJournal⟩
  · refine ⟨Or.inr ⟨hnew.inDestination, ?_⟩, hnew.inStaging, hnew.inBackup, hnew.inJournal⟩
    rw [hnew.inDestination]
    exact verify_payloadDirectory

/-- In a state of the exchange a recovery without faults converges exactly if the staging
directory is accounted for. -/
theorem converges_iff_of_held
    (hdistinct : Receiptable old → receiptOf env (payloadDirectory payload) ≠ receiptOf env old)
    (h : Held env payload old t) : Converges env payload old t ↔ Accounted env payload t := by
  have hrestored : completes (recoverInterruptedRepair env)
      (fun _ u => StandsAt env payload old u (some old) none none none) t →
      Converges env payload old t := fun hcompletes =>
    converges_of_completes (completes_mono hcompletes fun _ _ => Or.inl)
  -- Without a journal the recovery does nothing.
  have hnothing {destination staging backup : Option RuntimeDirectory}
      (ht : StandsAt env payload old t destination staging backup none)
      (hdestination : destination = some old ∨ destination = some (payloadDirectory payload)) :
      Converges env payload old t ↔ Accounted env payload t := by
    have hjournal : t.repairJournal = none := ht.inJournal
    have hcalm : (recoverInterruptedRepair env).calm t = (.done (), t) := by
      unfold calm result recoverInterruptedRepair
      rw [run_bind, run_observe]
      dsimp only
      rw [hjournal]
      rfl
    unfold Accounted
    rw [if_pos hjournal]
    constructor
    · rintro ⟨u, hrun, _, hstaging, hbackup, _⟩
      rw [hcalm] at hrun
      cases hrun
      exact ⟨hstaging, hbackup⟩
    · rintro ⟨hstaging, hbackup⟩
      refine ⟨t, hcalm, ?_, hstaging, hbackup, hjournal⟩
      rw [ht.inDestination]
      rcases hdestination with rfl | rfl
      · exact Or.inl rfl
      · exact Or.inr ⟨rfl, verify_payloadDirectory⟩
  have haccounted {destination staging backup : Option RuntimeDirectory}
      {phase : RuntimeRepairPhase}
      (ht : StandsAt env payload old t destination staging backup (some phase)) :
      Accounted env payload t ↔ staging = none ∨ staging = some (payloadDirectory payload) := by
    have hjournal : t.repairJournal ≠ none := by
      rw [ht.inJournal]
      exact Option.some_ne_none _
    unfold Accounted
    rw [if_neg hjournal, ht.inStaging]
  cases h with
  | unjournaled ht => exact hnothing ht (Or.inl rfl)
  | completed ht => exact hnothing ht (Or.inr rfl)
  | @staged phase staging hphase hold hstaging ht =>
    rw [haccounted ht]
    constructor
    · rintro ⟨u, hrun, _⟩
      by_contra hexact
      cases staging with
      | none => exact hexact (Or.inl rfl)
      | some d =>
        have hthinned : d ≠ payloadDirectory payload := fun hd => hexact (Or.inr (congrArg some hd))
        have hstuck : wp (recoverInterruptedRepair env) (fun _ _ => False)
            (fun _ => Held env payload old) (Held env payload old) t :=
          wp_recover_of_phase ht.inJournal (.staged hphase hold hstaging ht)
            (wp_mono (wp_recoverRepairByPhase_thinned hphase hold ht (hstaging d rfl) hthinned)
              (fun _ _ hu => hu.elim) (fun _ _ hu => hu) fun _ hu => hu)
        have hmeets := hstuck []
        rw [show (recoverInterruptedRepair env).result [] t = (.done (), u) from hrun] at hmeets
        exact hmeets
    · exact fun hexact => hrestored (robust_recover_staged hphase hold ht hexact).2
  | moved hphase hold ht =>
    rw [haccounted ht]
    exact iff_of_true (hrestored (robust_recover_moved hphase hold ht).2) (Or.inr rfl)
  | placed hphase hold ht =>
    rw [haccounted ht]
    exact iff_of_true (hrestored (robust_recover_placed hphase hold (hdistinct hold) ht).2)
      (Or.inl rfl)
  | verified hold hbackup ht =>
    rw [haccounted ht]
    refine iff_of_true (converges_of_completes ?_) (Or.inl rfl)
    exact completes_recover_of_phase ht.inJournal hold
      (completes_mono (completes_recoverVerified hold hbackup ht)
        fun _ _ hu => Or.inr hu.removeJournal)

/-! ## The repair -/

/-- The old generation is in place and the payload is being written beside it. -/
def BeingStaged (env : RepairEnvironment) (payload : LoadedPayload) (old : RuntimeDirectory)
    (t : RepairStorage) : Prop :=
  ∃ d, StandsAt env payload old t (some old) (some d) none none ∧ d.profile = none ∧
    d.temporaries = [] ∧ d.foreign = []

theorem BeingStaged.held (h : BeingStaged env payload old t) : Held env payload old t := by
  obtain ⟨d, hstands, _⟩ := h
  exact .unjournaled hstands

theorem BeingStaged.createdFile (h : BeingStaged env payload old t) {file : RuntimeFile}
    {bytes : Bytes} {u : RepairStorage}
    (hu : createdFile (repairStaging env payload) file t bytes = .ok u) :
    BeingStaged env payload old u := by
  obtain ⟨d, hstands, hprofile, htemporaries, hforeign⟩ := h
  unfold Installer.createdFile at hu
  rw [hstands.inStaging] at hu
  obtain ⟨_, _, hu⟩ := bind_eq_ok.1 hu
  cases hu
  exact ⟨_, hstands.setStaging _, hprofile, htemporaries, hforeign⟩

theorem maintains_writePayloadFiles (files : List RuntimeFile) :
    Maintains (BeingStaged env payload old)
      (writePayloadFiles env payload (repairStaging env payload) files) fun _ => True := by
  induction files with
  | nil => exact maintains_ret trivial
  | cons file rest ih =>
    refine maintains_bind (maintains_step (fun s _ u hs hu => ?_) fun s hs u hu => ?_)
      fun _ _ => ih
    · cases hcreated : createdFile (repairStaging env payload) file s (payload.files file) with
      | error error =>
        rw [hcreated] at hu
        cases hu
      | ok v =>
        rw [hcreated] at hu
        cases hu
        exact hs.createdFile hcreated
    · obtain ⟨content, _, hcontent⟩ := List.mem_filterMap.1 hu
      cases hcreated : createdFile (repairStaging env payload) file s content with
      | error error =>
        rw [hcreated] at hcontent
        cases hcontent
      | ok v =>
        rw [hcreated] at hcontent
        cases hcontent
        exact hs.createdFile hcreated

/-- A directory that passes for the payload has its files. -/
theorem files_of_verified {d : RuntimeDirectory}
    (h : verifyExistingPayload payload (some d) = .ok ()) (file : RuntimeFile) :
    d.files file = some (payload.files file) := by
  unfold verifyExistingPayload at h
  obtain ⟨_, _, h⟩ := bind_eq_ok.1 h
  obtain ⟨_, _, h⟩ := bind_eq_ok.1 h
  obtain ⟨_, _, h⟩ := bind_eq_ok.1 h
  obtain ⟨_, _, h⟩ := bind_eq_ok.1 h
  obtain ⟨⟨⟩, hfiles, h⟩ := bind_eq_ok.1 h
  have hpresent := List.length_filter_eq_length_iff.1 (beq_iff_eq.1 (ok_of_require h)) file
    (mem_immutableRuntimeFiles file)
  have hfile := forM_eq_ok_iff.1 hfiles file (mem_immutableRuntimeFiles file)
  unfold verifyPayloadFile at hfile
  cases hbytes : d.files file with
  | none =>
    rw [hbytes] at hpresent
    cases hpresent
  | some bytes =>
    rw [hbytes] at hfile
    obtain ⟨_, hread, hsame⟩ := bind_eq_ok.1 hfile
    obtain ⟨_, _, hread⟩ := bind_eq_ok.1 hread
    have hsame := beq_iff_eq.1 (ok_of_require hsame)
    rw [← hsame, Except.ok.inj hread]

theorem wp_stageRepairPayload (ht : BeingStaged env payload old t) :
    wp (stageRepairPayload env payload (repairStaging env payload))
      (fun _ u => StandsAt env payload old u (some old) (some (payloadDirectory payload)) none none)
      (fun _ => BeingStaged env payload old) (BeingStaged env payload old) t := by
  unfold stageRepairPayload
  refine (maintains_writePayloadFiles payloadOrder).wp_bind ht fun _ u _ hu => ?_
  refine wp_inspect (fun _ hverified => ?_) (fun _ _ => hu) hu hu
  obtain ⟨d, hstands, hprofile, htemporaries, hforeign⟩ := hu
  rw [hstands.inStaging] at hverified
  have hd : d = payloadDirectory payload := by
    refine RuntimeDirectory.eq_of_content (fun entry => ?_) htemporaries hforeign
    cases entry with
    | file file => exact files_of_verified hverified file
    | profile => exact hprofile
  exact hd ▸ hstands

theorem wp_failRepairAndRecover (h : Held env payload old t) (operation : SetupError)
    {Q : Unit → RepairStorage → Prop} :
    wp (failRepairAndRecover env operation) Q (fun _ => Held env payload old)
      (Held env payload old) t := by
  unfold failRepairAndRecover
  refine wp_bind (wp_attempt (wp_mono (wp_recoverInterruptedRepair h)
    (fun _ _ hu => wp_throw hu) (fun _ _ hu => wp_throw hu) fun _ hu => hu))

/-- A step of the exchange. Where it fails the repair is recovered. -/
theorem wp_exchangeStep {m : Repair Unit} {Q : Unit → RepairStorage → Prop}
    (h : wp m Q (fun _ => Held env payload old) (Held env payload old) t) :
    wp (m.handle (failRepairAndRecover env)) Q (fun _ => Held env payload old)
      (Held env payload old) t :=
  wp_handle (wp_mono h (fun _ _ hq => hq)
    (fun error _ hu => wp_failRepairAndRecover hu error) fun _ hu => hu)

theorem wp_exchangeDirectories (hold : Receiptable old)
    (ht : StandsAt env payload old t (some old) (some (payloadDirectory payload)) none
      (some .prepared)) :
    wp (exchangeDirectories env payload (receiptOf env old)) (fun _ => Held env payload old)
      (fun _ => Held env payload old) (Held env payload old) t := by
  have hwhole : ∀ d, some (payloadDirectory payload) = some d →
      d.Within (payloadDirectory payload) := by
    intro d hd
    cases hd
    exact receiptable_payload.within
  have hstaged : Held env payload old t := .staged (by decide) hold hwhole ht
  have hmoved := (ht.setDestination none).setBackup (some old)
  have hmovedHeld := Held.moved (by decide) hold hmoved
  unfold exchangeDirectories
  refine wp_bind (wp_exchangeStep (wp_rename ht.inDestination ht.inBackup ?_ hstaged
    hstaged))
  have hrecorded := hmoved.write .oldMoved
  have hrecordedHeld := Held.moved (by decide) hold hrecorded
  refine wp_bind (wp_exchangeStep (wp_modify ?_ hmovedHeld hmovedHeld))
  have hplaced := (hrecorded.setStaging none).setDestination (some (payloadDirectory payload))
  have hplacedHeld := Held.placed (Or.inl rfl) hold hplaced
  refine wp_bind (wp_exchangeStep (wp_rename hrecorded.inStaging
    hrecorded.inDestination ?_ hrecordedHeld hrecordedHeld))
  have hunverified := hplaced.write .newPlacedUnverified
  have hunverifiedHeld := Held.placed (Or.inr rfl) hold hunverified
  refine wp_bind (wp_exchangeStep (wp_modify ?_ hplacedHeld hplacedHeld))
  refine wp_bind (wp_exchangeStep (wp_inspect (fun _ _ => ?_)
    (fun _ _ => hunverifiedHeld) hunverifiedHeld hunverifiedHeld))
  -- The old generation is in the backup as a whole until its removal starts.
  have hverified : BackupLeft env payload old _ :=
    ⟨_, hunverified.write .newVerified, fun d hd => by cases hd; exact hold.within⟩
  have hverifiedHeld := hverified.held hold
  refine wp_bind (wp_exchangeStep (wp_modify ?_ hunverifiedHeld hunverifiedHeld))
  refine wp_bind (wp_inspect (fun _ _ => ?_) (fun _ _ => hverifiedHeld) hverifiedHeld
    hverifiedHeld)
  refine wp_bind (wp_mono (maintains_removeVerifiedBackup _ _ hverified) (fun _ u hu => ?_)
    (fun _ _ hu => hu.held hold) fun _ hu => hu.held hold)
  exact wp_modify hu.2.completed (hu.2.held hold) (hu.2.held hold)

theorem wp_replaceRuntimePayload
    (ht : StandsAt env payload old t (some old) staging backup none) :
    wp (replaceRuntimePayload env payload) (fun _ => Held env payload old)
      (fun _ => Held env payload old) (Held env payload old) t := by
  have hheld : Held env payload old t := .unjournaled ht
  unfold replaceRuntimePayload
  refine wp_bind (wp_observe (wp_bind (wp_ensure (fun hfree => ?_) fun _ => hheld)))
  have hfree : staging = none ∧ backup = none := by
    rw [ht.exists_staging, ht.exists_backup] at hfree
    simpa using hfree
  obtain ⟨rfl, rfl⟩ := hfree
  have hcreated : BeingStaged env payload old (t.set (repairStaging env payload)
      (some ((t.runtimeVersions (repairStaging env payload)).getD .empty))) := by
    rw [ht.inStaging]
    exact ⟨_, ht.setStaging _, rfl, rfl, rfl⟩
  refine wp_bind (wp_act (fun u hu => ?_) (fun _ hu => by cases hu) hheld hheld)
  cases hu
  refine ⟨?_, hcreated.held, hcreated.held⟩
  refine wp_bind (wp_handle (wp_mono (wp_stageRepairPayload hcreated) (fun _ u hu => ?_)
    (fun error u hu => ?_) fun _ hu => hu.held))
  · have huheld : Held env payload old u := .unjournaled hu
    refine wp_bind (wp_inspect (fun receipt hread => ?_) (fun _ _ => huheld) huheld huheld)
    obtain ⟨d, hd, hold, rfl⟩ := readReceipt_ok_iff.1 hread
    rw [hu.inDestination] at hd
    cases hd
    refine wp_bind (wp_modify ?_ huheld huheld)
    exact wp_exchangeDirectories hold (hu.write .prepared)
  · -- What was staged is deleted again, as far as that goes.
    obtain ⟨d, hstands, _⟩ := hu
    have hleft : StagingLeft env payload old none (fun _ => True) u :=
      ⟨_, hstands, fun _ _ => trivial⟩
    have hstill {v : RepairStorage} (hv : StagingLeft env payload old none (fun _ => True) v) :
        Held env payload old v := by
      obtain ⟨_, hv, _⟩ := hv
      exact .unjournaled hv
    refine wp_bind (wp_attempt (wp_mono (wp_removeStaging (fun _ _ _ => trivial) hleft)
      (fun _ _ hv => wp_throw (.unjournaled hv)) (fun _ _ hv => wp_throw (hstill hv))
      fun _ hv => hstill hv))

/-- However often a repair and its recovery are stopped, a recovery without faults leaves the old
or the new generation and nothing of the repair if and only if the staging directory is accounted
for. -/
theorem repair_recovery_converges_iff (env : RepairEnvironment) (payload : LoadedPayload)
    {m t : RepairStorage} (faults : List Fault)
    (hinstalled : m.runtimeVersions payload.version.text = some old)
    (hjournal : m.repairJournal = none)
    (hinvalid : verifyExistingPayload payload (some old) ≠ .ok ())
    (hdigests : ∀ file bytes, old.files file = some bytes →
      env.sha256Digest bytes = env.sha256Digest (payload.files file) → bytes = payload.files file)
    (hrun : Rerun (recoverInterruptedRepair env)
      ((replaceRuntimePayload env payload).result faults m).2 t) :
    Converges env payload old t ↔ Accounted env payload t := by
  have hdistinct : Receiptable old →
      receiptOf env (payloadDirectory payload) ≠ receiptOf env old :=
    not_receipts_eq_of_invalid hinvalid hdigests
  have hstart : StandsAt env payload old m (some old) (m.runtimeVersions (repairStaging env payload))
      (m.runtimeVersions (repairBackup env payload)) none := ⟨hinstalled, rfl, rfl, hjournal⟩
  have hstopped := (wp_replaceRuntimePayload hstart).final faults
  exact converges_iff_of_held hdistinct (hrun.invariant
    (fun _ hs => wp_recoverInterruptedRepair hs) hstopped)

/-! ## A removal that is stopped -/

def oneDigest : Digest :=
  ⟨"sha256:1111111111111111111111111111111111111111111111111111111111111111", by decide⟩

/-- The digests tell the two contents below apart, and a directory is listed in one order. -/
def repairEnvironment : RepairEnvironment where
  sha256Digest bytes := if bytes = [0x4D] then oneDigest else zeroDigest
  temporaryNonce := "1-1"
  nonce_owned := ownedTemporary_first
  caughtWrites _ := []
  listing directory := runtimeEntries.filter fun entry => (directory.content entry).isSome
  mem_listing := mem_presentEntries
  nodup_listing := nodup_presentEntries
  nonce_length := firstNonce_length

def repairPayload : LoadedPayload := ⟨versionOne, fun _ => [0x4D], fun _ => by decide⟩

def damagedRuntime : RuntimeDirectory := ⟨fun _ => some [0x4E], none, [], []⟩

def damagedStorage : RepairStorage where
  runtimeVersions name := if name = "1.0.0" then some damagedRuntime else none
  repairJournal := none
  deferredDeletions := []

/-- Stopped when the payload was put in its place. -/
def stoppedRepair : RepairStorage :=
  ((replaceRuntimePayload repairEnvironment repairPayload).result
    (List.replicate 12 .none ++ [.crash 0]) damagedStorage).2

theorem stopped_repair_converges :
    Converges repairEnvironment repairPayload damagedRuntime stoppedRepair := by
  have hdigests : ∀ file bytes, damagedRuntime.files file = some bytes →
      repairEnvironment.sha256Digest bytes =
        repairEnvironment.sha256Digest (repairPayload.files file) →
      bytes = repairPayload.files file := by
    intro file bytes hbytes hdigest
    cases hbytes
    have hother : zeroDigest ≠ oneDigest := by decide
    exact absurd hdigest hother
  refine (@repair_recovery_converges_iff damagedRuntime repairEnvironment repairPayload
    damagedStorage _ (List.replicate 12 .none ++ [.crash 0]) rfl rfl (by decide) hdigests
    (.start _)).2 ?_
  exact Or.inl rfl

/-- The recovery is stopped in turn, when it has deleted the first file of the staging directory.
No later recovery succeeds. -/
theorem stopped_removal_is_not_recovered :
    ¬∀ t, Rerun (recoverInterruptedRepair repairEnvironment) stoppedRepair t →
      Converges repairEnvironment repairPayload damagedRuntime t := by
  intro hclaim
  obtain ⟨u, hrun, _⟩ := hclaim _ (.again (List.replicate 11 .none ++ [.crash 0]) (.start _))
  have herror : ((recoverInterruptedRepair repairEnvironment).calm
      ((recoverInterruptedRepair repairEnvironment).result
        (List.replicate 11 .none ++ [.crash 0]) stoppedRepair).2).1 =
      .error (.cleanupUnknown
        "runtime directory no longer matches its transaction receipt") := by rfl
  rw [hrun] at herror
  cases herror

end MacTypeControl.Installer
