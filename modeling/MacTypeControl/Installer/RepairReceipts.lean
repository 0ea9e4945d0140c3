import MacTypeControl.Installer.Repair

/-!
# The receipts of a repair

Which directories have a receipt, that a receipt tells a whole directory from one that lost
entries, and that the journal a repair writes is one that its recovery accepts.
-/

namespace MacTypeControl.Storage

namespace RuntimeDirectory

theorem eq_of_content {d e : RuntimeDirectory} (hcontent : ∀ entry, d.content entry = e.content entry)
    (htemporaries : d.temporaries = e.temporaries) (hforeign : d.foreign = e.foreign) : d = e := by
  obtain ⟨files, profile, temporaries, foreign⟩ := d
  obtain ⟨files', profile', temporaries', foreign'⟩ := e
  have hfiles : files = files' := funext fun file => hcontent (.file file)
  have hprofile : profile = profile' := hcontent .profile
  rw [RuntimeDirectory.mk.injEq]
  exact ⟨hfiles, hprofile, htemporaries, hforeign⟩

@[simp] theorem content_erase_self (d : RuntimeDirectory) (entry : RuntimeEntry) :
    (d.erase entry).content entry = none := by
  cases entry with
  | file file => exact Function.update_self ..
  | profile => rfl

@[simp] theorem content_erase_of_ne (d : RuntimeDirectory) {entry other : RuntimeEntry}
    (h : other ≠ entry) : (d.erase entry).content other = d.content other := by
  rcases entry with file | _ <;> rcases other with file' | _
  · exact Function.update_of_ne (fun hfile => h (congrArg RuntimeEntry.file hfile)) ..
  · rfl
  · rfl
  · exact absurd rfl h

@[simp] theorem temporaries_erase (d : RuntimeDirectory) (entry : RuntimeEntry) :
    (d.erase entry).temporaries = d.temporaries := by cases entry <;> rfl

@[simp] theorem foreign_erase (d : RuntimeDirectory) (entry : RuntimeEntry) :
    (d.erase entry).foreign = d.foreign := by cases entry <;> rfl

/-- What the deletion of some of its entries can leave of a directory. -/
structure Within (d e : RuntimeDirectory) : Prop where
  temporaries : d.temporaries = []
  foreign : d.foreign = []
  content : ∀ entry, d.content entry = none ∨ d.content entry = e.content entry

theorem Within.erase {d e : RuntimeDirectory} (h : d.Within e) (entry : RuntimeEntry) :
    (d.erase entry).Within e where
  temporaries := by rw [temporaries_erase, h.temporaries]
  foreign := by rw [foreign_erase, h.foreign]
  content other := by
    by_cases hother : other = entry
    · rw [hother, content_erase_self]
      exact Or.inl rfl
    · rw [content_erase_of_ne d hother]
      exact h.content other

/-- A directory has at most the files of the runtime and the profile, if nothing else is in it. -/
theorem entryCount_le {d : RuntimeDirectory} (htemporaries : d.temporaries = [])
    (hforeign : d.foreign = []) : d.entryCount ≤ immutableRuntimeFiles.length + 1 := by
  have hfiles := d.runtimeFileCount_le
  have hprofile : d.profile.toList.length ≤ 1 := by cases d.profile <;> simp
  have hlength : immutableRuntimeFiles.length = 5 := rfl
  unfold entryCount
  rw [htemporaries, hforeign]
  simp only [List.length_nil]
  omega

theorem entryCount_of_empty {d : RuntimeDirectory} (hcontent : ∀ entry, d.content entry = none)
    (htemporaries : d.temporaries = []) (hforeign : d.foreign = []) : d.entryCount = 0 := by
  have hfiles : d.runtimeFileCount = 0 := by
    unfold runtimeFileCount
    rw [List.length_eq_zero_iff, List.filter_eq_nil_iff]
    intro file _ hfile
    rw [show d.files file = none from hcontent (.file file)] at hfile
    cases hfile
  have hprofile : d.profile = none := hcontent .profile
  unfold entryCount
  rw [hfiles, hprofile, htemporaries, hforeign]
  rfl

end RuntimeDirectory
end MacTypeControl.Storage

namespace MacTypeControl.Installer

open Crash Crash.Prog Profile Storage

variable {env : RepairEnvironment}

/-! ## Receipts -/

/-- A directory of which a receipt can be taken. -/
structure Receiptable (d : RuntimeDirectory) : Prop where
  temporaries : d.temporaries = []
  foreign : d.foreign = []
  bounded : ∀ entry, boundedEntry d entry = true
  nonempty : ∃ entry, (d.content entry).isSome = true

theorem Receiptable.within {d : RuntimeDirectory} (h : Receiptable d) : d.Within d :=
  ⟨h.temporaries, h.foreign, fun _ => Or.inr rfl⟩

theorem boundedEntry_of_within {d e : RuntimeDirectory} (h : d.Within e) {entry : RuntimeEntry}
    (hbounded : boundedEntry e entry = true) : boundedEntry d entry = true := by
  unfold boundedEntry at hbounded ⊢
  rcases h.content entry with hnone | hsame
  · rw [hnone]
    rfl
  · rw [hsame]
    exact hbounded

theorem readBoundedDirectory_ok {d : RuntimeDirectory} (htemporaries : d.temporaries = [])
    (hforeign : d.foreign = []) (description : String) :
    readBoundedDirectory env d description = .ok (env.listing d) := by
  unfold readBoundedDirectory
  rw [require_true _ (decide_eq_true (RuntimeDirectory.entryCount_le htemporaries hforeign))]
  rfl

theorem eq_listing_of_read {d : RuntimeDirectory} {description : String}
    {entries : List RuntimeEntry} (h : readBoundedDirectory env d description = .ok entries) :
    entries = env.listing d := by
  unfold readBoundedDirectory at h
  obtain ⟨_, _, h⟩ := bind_eq_ok.1 h
  exact (Except.ok.inj h).symm

theorem valid_receiptOf_iff {d : RuntimeDirectory} :
    validRuntimeDirectoryReceipt (receiptOf env d) = true ↔
      ∃ entry, (d.content entry).isSome = true := by
  unfold validRuntimeDirectoryReceipt receiptOf
  rw [List.any_eq_true]
  constructor
  · rintro ⟨entry, _, hsome⟩
    exact ⟨entry, by simpa using hsome⟩
  · rintro ⟨entry, hsome⟩
    exact ⟨entry, mem_runtimeEntries entry, by simpa using hsome⟩

theorem all_listing_bounded_iff {d : RuntimeDirectory} :
    (env.listing d).all (boundedEntry d) = true ↔ ∀ entry, boundedEntry d entry = true := by
  rw [List.all_eq_true]
  constructor
  · intro h entry
    by_cases hentry : entry ∈ env.listing d
    · exact h entry hentry
    · have hnone : d.content entry = none := by
        rw [env.mem_listing] at hentry
        simpa using hentry
      unfold boundedEntry
      rw [hnone]
      rfl
  · exact fun h entry _ => h entry

/-- A receipt is read of exactly the directories that can have one. -/
theorem readReceipt_ok_iff {directory : Option RuntimeDirectory}
    {receipt : RuntimeDirectoryReceipt} :
    readRuntimeDirectoryReceipt env directory = .ok receipt ↔
      ∃ d, directory = some d ∧ Receiptable d ∧ receipt = receiptOf env d := by
  cases directory with
  | none => simp [readRuntimeDirectoryReceipt]
  | some d =>
    unfold readRuntimeDirectoryReceipt
    dsimp only
    constructor
    · intro h
      obtain ⟨entries, hentries, h⟩ := bind_eq_ok.1 h
      obtain ⟨⟨⟩, hclean, h⟩ := bind_eq_ok.1 h
      obtain ⟨⟨⟩, hbounded, h⟩ := bind_eq_ok.1 h
      obtain ⟨⟨⟩, hvalid, h⟩ := bind_eq_ok.1 h
      rw [eq_listing_of_read hentries] at hbounded
      have hclean := ok_of_require hclean
      simp only [Bool.and_eq_true, beq_iff_eq] at hclean
      exact ⟨d, rfl, ⟨hclean.1, hclean.2, all_listing_bounded_iff.1 (ok_of_require hbounded),
        valid_receiptOf_iff.1 (ok_of_require hvalid)⟩, (Except.ok.inj h).symm⟩
    · rintro ⟨_, hd, hreceiptable, rfl⟩
      cases hd
      have hclean : (d.temporaries == [] && d.foreign == []) = true := by
        rw [hreceiptable.temporaries, hreceiptable.foreign]
        rfl
      refine bind_eq_ok.2 ⟨_, readBoundedDirectory_ok hreceiptable.temporaries
        hreceiptable.foreign _, ?_⟩
      refine bind_eq_ok.2 ⟨(), require_true _ hclean, ?_⟩
      refine bind_eq_ok.2 ⟨(), require_true _ (all_listing_bounded_iff.2 hreceiptable.bounded), ?_⟩
      exact bind_eq_ok.2 ⟨(), require_true _ (valid_receiptOf_iff.2 hreceiptable.nonempty), rfl⟩

theorem verifyReceipt_ok_iff {directory : Option RuntimeDirectory}
    {expected : RuntimeDirectoryReceipt} :
    verifyRuntimeDirectoryReceipt env directory expected = .ok () ↔
      ∃ d, directory = some d ∧ Receiptable d ∧ receiptOf env d = expected := by
  unfold verifyRuntimeDirectoryReceipt
  cases hread : readRuntimeDirectoryReceipt env directory with
  | error error =>
    refine iff_of_false (fun h => by cases h) fun h => ?_
    obtain ⟨d, hd, hreceiptable, _⟩ := h
    have hok := (@readReceipt_ok_iff env _ _).2 ⟨d, hd, hreceiptable, rfl⟩
    rw [hread] at hok
    cases hok
  | ok actual =>
    obtain ⟨d, hd, hreceiptable, rfl⟩ := readReceipt_ok_iff.1 hread
    constructor
    · exact fun h => ⟨d, hd, hreceiptable, of_decide_eq_true (ok_of_require h)⟩
    · rintro ⟨d', hd', _, hexpected⟩
      rw [hd] at hd'
      cases hd'
      exact require_true _ (decide_eq_true hexpected)

theorem runtimeDirectoryMatches_eq {d : RuntimeDirectory} (h : Receiptable d)
    (expected : RuntimeDirectoryReceipt) :
    runtimeDirectoryMatches env (some d) expected =
      .ok (decide (receiptOf env d = expected)) := by
  unfold runtimeDirectoryMatches
  rw [readReceipt_ok_iff.2 ⟨d, rfl, h, rfl⟩]
  rfl

/-- A directory that lost an entry does not have the receipt of the whole any more. -/
theorem eq_of_within_of_receipt {d e : RuntimeDirectory} (h : d.Within e)
    (htemporaries : e.temporaries = []) (hforeign : e.foreign = [])
    (hreceipt : receiptOf env d = receiptOf env e) : d = e := by
  refine RuntimeDirectory.eq_of_content (fun entry => ?_)
    (h.temporaries.trans htemporaries.symm) (h.foreign.trans hforeign.symm)
  rcases h.content entry with hnone | hsame
  · have hfiles : (d.content entry).map env.sha256Digest =
        (e.content entry).map env.sha256Digest :=
      congrFun (congrArg RuntimeDirectoryReceipt.files hreceipt) entry
    rw [hnone] at hfiles ⊢
    cases he : e.content entry with
    | none => rfl
    | some bytes =>
      rw [he] at hfiles
      cases hfiles
  · exact hsame

/-! ## Names -/

theorem mem_splitOn {c : Char} {l : List Char} (h : c ∈ l) :
    c = '-' ∨ ∃ part ∈ l.splitOn '-', c ∈ part := by
  induction l with
  | nil => cases h
  | cons x l ih =>
    rw [List.splitOn_cons_eq_if_modifyHead]
    by_cases hx : x = '-'
    · rw [if_pos (beq_iff_eq.2 hx)]
      rcases List.mem_cons.1 h with rfl | hl
      · exact Or.inl hx
      · rcases ih hl with hdash | ⟨part, hpart, hc⟩
        · exact Or.inl hdash
        · exact Or.inr ⟨part, List.mem_cons_of_mem _ hpart, hc⟩
    · rw [if_neg (by simpa using hx)]
      cases hsplit : l.splitOn '-' with
      | nil => exact absurd hsplit (List.splitOn_ne_nil _ _)
      | cons first rest =>
        rw [hsplit] at ih
        rw [List.modifyHead_cons]
        rcases List.mem_cons.1 h with rfl | hl
        · exact Or.inr ⟨_, List.mem_cons_self, List.mem_cons_self⟩
        · rcases ih hl with hdash | ⟨part, hpart, hc⟩
          · exact Or.inl hdash
          · rcases List.mem_cons.1 hpart with rfl | hrest
            · exact Or.inr ⟨_, List.mem_cons_self, List.mem_cons_of_mem _ hc⟩
            · exact Or.inr ⟨part, List.mem_cons_of_mem _ hrest, hc⟩

theorem isRepairNameCharacter_of_owned {suffix : String} (h : ownedTemporary suffix = true) :
    suffix.toList.all isRepairNameCharacter = true := by
  unfold ownedTemporary at h
  simp only [Bool.and_eq_true, List.all_eq_true] at h
  rw [List.all_eq_true]
  intro c hc
  unfold isRepairNameCharacter Protection.isAsciiAlphanumeric
  rcases mem_splitOn hc with rfl | ⟨part, hpart, hc⟩
  · decide
  · have hdigit := (h.2 part hpart).2 c hc
    rw [hdigit.1, hdigit.2]
    rfl

theorem nonempty_of_owned {suffix : String} (h : ownedTemporary suffix = true) :
    0 < suffix.toList.length := by
  by_contra hlength
  have hnil : suffix.toList = [] := List.length_eq_zero_iff.1 (by omega)
  unfold ownedTemporary at h
  rw [hnil] at h
  revert h
  decide

theorem safeRepairEntry_name {start version nonce : String}
    (hstart : start.toList.all isRepairNameCharacter = true) (hlength : start.toList.length = 12)
    (hversion : validRuntimeVersionComponent version = true) (hnonce : ownedTemporary nonce = true)
    (hnonceLength : nonce.toList.length ≤ 100) :
    safeRepairEntry (start ++ version ++ "-" ++ nonce) start version = true := by
  have hcharacters : version.toList.all isRepairNameCharacter = true := by
    unfold validRuntimeVersionComponent at hversion
    simp only [Bool.and_eq_true] at hversion
    exact hversion.1.1.2
  have hversionLength : version.toList.length ≤ 64 := by
    unfold validRuntimeVersionComponent at hversion
    simp only [Bool.and_eq_true, decide_eq_true_eq] at hversion
    exact hversion.1.1.1.2
  have hpositive := nonempty_of_owned hnonce
  unfold safeRepairEntry
  simp only [String.toList_append, List.length_append, List.all_append, Bool.and_eq_true,
    decide_eq_true_eq, hstart, hcharacters, isRepairNameCharacter_of_owned hnonce, hlength,
    List.isPrefixOf_iff_prefix]
  have hdash : "-".toList.length = 1 := rfl
  refine ⟨⟨⟨List.prefix_append _ _, by omega⟩, by omega⟩, ⟨⟨trivial, trivial⟩, by decide⟩, trivial⟩

variable {payload : LoadedPayload}

theorem length_repairStaging : (repairStaging env payload).toList.length =
    13 + payload.version.text.toList.length + env.temporaryNonce.toList.length := by
  unfold repairStaging
  have hstart : ".repair-new-".toList.length = 12 := rfl
  have hdash : "-".toList.length = 1 := rfl
  simp only [String.toList_append, List.length_append]
  omega

theorem length_repairBackup : (repairBackup env payload).toList.length =
    13 + payload.version.text.toList.length + env.temporaryNonce.toList.length := by
  unfold repairBackup
  have hstart : ".repair-old-".toList.length = 12 := rfl
  have hdash : "-".toList.length = 1 := rfl
  simp only [String.toList_append, List.length_append]
  omega

theorem staging_ne_version : repairStaging env payload ≠ payload.version.text := by
  intro h
  have hlength := @length_repairStaging env payload
  rw [h] at hlength
  omega

theorem backup_ne_version : repairBackup env payload ≠ payload.version.text := by
  intro h
  have hlength := @length_repairBackup env payload
  rw [h] at hlength
  omega

theorem staging_ne_backup : repairStaging env payload ≠ repairBackup env payload := by
  intro h
  have hlist := congrArg String.toList h
  unfold repairStaging repairBackup at hlist
  simp only [String.toList_append, List.append_assoc] at hlist
  have htake := congrArg (List.take 12) hlist
  rw [List.take_append_of_le_length (by decide), List.take_append_of_le_length (by decide)] at htake
  revert htake
  decide

/-! ## Payloads and their receipts -/

theorem receiptable_payload : Receiptable (payloadDirectory payload) where
  temporaries := rfl
  foreign := rfl
  bounded entry := by
    cases entry with
    | file file =>
      have hbounded := payload.bounded file
      simp [boundedEntry, RuntimeDirectory.content, payloadDirectory, entryLimit, hbounded.1,
        hbounded.2]
    | profile => rfl
  nonempty := ⟨.file .service, rfl⟩

theorem validRepairJournal_journal {old : RuntimeDirectory} (hold : Receiptable old)
    (phase : RuntimeRepairPhase) :
    validRepairJournal (repairJournal env payload (receiptOf env old) phase) = true := by
  have hstaging : safeRepairEntry (repairStaging env payload) ".repair-new-" payload.version.text =
      true :=
    safeRepairEntry_name (by decide) rfl payload.version.valid env.nonce_owned env.nonce_length
  have hbackup : safeRepairEntry (repairBackup env payload) ".repair-old-" payload.version.text =
      true :=
    safeRepairEntry_name (by decide) rfl payload.version.valid env.nonce_owned env.nonce_length
  unfold validRepairJournal repairJournal
  dsimp only
  rw [hstaging, hbackup, payload.version.valid, valid_receiptOf_iff.2 hold.nonempty,
    valid_receiptOf_iff.2 receiptable_payload.nonempty, bne_iff_ne.2 staging_ne_backup]
  rfl

end MacTypeControl.Installer
