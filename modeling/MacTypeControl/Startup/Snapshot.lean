import MacTypeControl.Startup.Removal
import Mathlib.Data.List.Nodup
import Mathlib.Data.List.Perm.Subperm

/-!
# Comparing what is recorded with what is there

The entries of a receipt and the entries that are observed describe the same places one
to one, and every recorded entry can be read, removed and put back.
-/

namespace MacTypeControl.Startup

variable {env : StartupEnvironment} {length : ReceiptLength} {scope : StartupReceiptScope}
  {s t : StartupMachine} {receipt : LegacyTrayStartupReceipt}
  {artifact : LegacyTrayStartupArtifact}
  {entries left right : List LegacyTrayStartupArtifact}

/-! ## The checks of a receipt -/

theorem checkEntries_ok {userSid : String} {previous : List LegacyTrayStartupArtifact}
    (h : checkEntries env scope userSid previous entries = .ok ()) :
    (∀ artifact ∈ entries, isReceiptable env scope userSid artifact = true) ∧
      (entries.map LegacyTrayStartupArtifact.locator).Nodup ∧
      ∀ artifact ∈ entries, ∀ other ∈ previous, other.locator ≠ artifact.locator := by
  induction entries generalizing previous with
  | nil => simp
  | cons artifact entries ih =>
    obtain ⟨_, hreceiptable, h⟩ := bind_eq_ok.1 h
    obtain ⟨_, hfresh, h⟩ := bind_eq_ok.1 h
    obtain ⟨hall, hnodup, hdisjoint⟩ := ih h
    have hreceiptable := ok_of_require hreceiptable
    have hfresh : ∀ other ∈ previous, other.locator ≠ artifact.locator := by
      simpa using ok_of_require hfresh
    refine ⟨?_, ?_, ?_⟩
    · simpa using ⟨hreceiptable, hall⟩
    · refine List.nodup_cons.2 ⟨?_, hnodup⟩
      intro hmem
      obtain ⟨other, hother, hlocator⟩ := List.mem_map.1 hmem
      exact hdisjoint other hother artifact (by simp) hlocator.symm
    · intro found hfound other hother
      rcases List.mem_cons.1 hfound with rfl | hfound
      · exact hfresh other hother
      · exact hdisjoint found hfound other (by simp [hother])

theorem validateStartupReceipt_nodup (h : validateStartupReceipt env receipt = .ok ()) :
    (receipt.entries.map LegacyTrayStartupArtifact.locator).Nodup := by
  obtain ⟨_, _, h⟩ := bind_eq_ok.1 h
  obtain ⟨rebuilt, hrebuilt, _⟩ := bind_eq_ok.1 h
  exact (checkEntries_ok (buildStartupReceipt_ok hrebuilt).1).2.1

/-- A built receipt is valid. -/
theorem validate_of_build {userSid : String} {recordedAt : ℕ}
    (h : buildStartupReceipt env scope userSid entries recordedAt = .ok receipt) :
    validateStartupReceipt env receipt = .ok () := by
  obtain ⟨_, rfl⟩ := buildStartupReceipt_ok h
  unfold validateStartupReceipt
  rw [require_true _ (by simp)]
  refine bind_eq_ok.2 ⟨(), rfl, bind_eq_ok.2 ⟨_, h, ?_⟩⟩
  exact require_true _ (by simp)

/-- Marking a valid receipt as restored keeps it valid. -/
theorem validate_restored (h : validateStartupReceipt env receipt = .ok ()) :
    validateStartupReceipt env { receipt with restorationState := .restored } = .ok () := by
  obtain ⟨_, hheader, h⟩ := bind_eq_ok.1 h
  have hheader := ok_of_require hheader
  simp only [Bool.and_eq_true] at hheader
  refine bind_eq_ok.2 ⟨(), require_true _ ?_, h⟩
  simp [hheader.1.1, hheader.1.2]

/-! ## The same artifacts -/

theorem sameArtifact_locator {candidate expected : LegacyTrayStartupArtifact}
    (h : sameArtifact scope candidate expected = true) : candidate.locator = expected.locator := by
  simp only [sameArtifact, Bool.and_eq_true, beq_iff_eq] at h
  exact h.1.1.1.2

theorem sameArtifact_refl : sameArtifact scope artifact artifact = true := by
  simp [sameArtifact]

theorem sameArtifact_symm {candidate expected : LegacyTrayStartupArtifact}
    (h : sameArtifact scope candidate expected = true) :
    sameArtifact scope expected candidate = true := by
  simp only [sameArtifact, Bool.and_eq_true, Bool.or_eq_true, beq_iff_eq] at h ⊢
  obtain ⟨⟨⟨⟨hentry, hlocator⟩, hraw⟩, htarget⟩, hsid⟩ := h
  exact ⟨⟨⟨⟨hentry.symm, hlocator.symm⟩, hraw.symm⟩, htarget.symm⟩, hsid.imp_right Eq.symm⟩

/-- Among artifacts at different locators at most one is the same as a given one. -/
theorem length_filter_sameArtifact {expected : LegacyTrayStartupArtifact}
    (hnodup : (right.map LegacyTrayStartupArtifact.locator).Nodup) (hmem : expected ∈ right)
    (hmatch : sameArtifact scope artifact expected = true) :
    (right.filter (sameArtifact scope artifact)).length = 1 := by
  induction right with
  | nil => simp at hmem
  | cons first right ih =>
    obtain ⟨hfirst, hnodup⟩ := List.nodup_cons.1 hnodup
    by_cases hsame : sameArtifact scope artifact first = true
    · have hothers : right.filter (sameArtifact scope artifact) = [] := by
        apply List.filter_eq_nil_iff.2
        intro other hother hsame'
        refine hfirst (List.mem_map.2 ⟨other, hother, ?_⟩)
        rw [← sameArtifact_locator hsame', sameArtifact_locator hsame]
      simp [hsame, hothers]
    · rcases List.mem_cons.1 hmem with rfl | hmem
      · exact absurd hmatch hsame
      · simpa [List.filter_cons, hsame] using ih hnodup hmem

theorem sameArtifactSnapshot_of_match (hlength : left.length = right.length)
    (hnodup : (right.map LegacyTrayStartupArtifact.locator).Nodup)
    (hmatch : ∀ artifact ∈ left, ∃ expected ∈ right, sameArtifact scope artifact expected = true) :
    sameArtifactSnapshot scope left right = true := by
  simp only [sameArtifactSnapshot, Bool.and_eq_true, List.all_eq_true, beq_iff_eq]
  refine ⟨hlength, fun artifact hartifact => ?_⟩
  obtain ⟨expected, hexpected, hsame⟩ := hmatch artifact hartifact
  exact length_filter_sameArtifact hnodup hexpected hsame

theorem sameArtifactSnapshot_refl
    (hnodup : (entries.map LegacyTrayStartupArtifact.locator).Nodup) :
    sameArtifactSnapshot scope entries entries = true :=
  sameArtifactSnapshot_of_match rfl hnodup fun artifact hmem => ⟨artifact, hmem, sameArtifact_refl⟩

/-- Snapshots of equal length that match one way match the other way too. -/
theorem sameArtifactSnapshot_symm (h : sameArtifactSnapshot scope left right = true)
    (hleft : (left.map LegacyTrayStartupArtifact.locator).Nodup)
    (hright : (right.map LegacyTrayStartupArtifact.locator).Nodup) :
    sameArtifactSnapshot scope right left = true := by
  have hlength : left.length = right.length := by
    simp only [sameArtifactSnapshot, Bool.and_eq_true, beq_iff_eq] at h
    exact h.1
  have hsub : left.map LegacyTrayStartupArtifact.locator ⊆
      right.map LegacyTrayStartupArtifact.locator := by
    intro locator hlocator
    obtain ⟨artifact, hartifact, rfl⟩ := List.mem_map.1 hlocator
    obtain ⟨expected, hexpected, hsame⟩ := sameArtifactSnapshot_match h hartifact
    exact List.mem_map.2 ⟨expected, hexpected, (sameArtifact_locator hsame).symm⟩
  have hperm : (left.map LegacyTrayStartupArtifact.locator).Perm
      (right.map LegacyTrayStartupArtifact.locator) :=
    (List.Nodup.subperm hleft hsub).perm_of_length_le (by simp [hlength])
  apply sameArtifactSnapshot_of_match hlength.symm hleft
  intro expected hexpected
  have hmem : expected.locator ∈ left.map LegacyTrayStartupArtifact.locator :=
    hperm.mem_iff.2 (List.mem_map.2 ⟨expected, hexpected, rfl⟩)
  obtain ⟨artifact, hartifact, hlocator⟩ := List.mem_map.1 hmem
  obtain ⟨found, hfound, hsame⟩ := sameArtifactSnapshot_match h hartifact
  obtain rfl : found = expected := by
    refine List.inj_on_of_nodup_map hright hfound hexpected ?_
    rw [← sameArtifact_locator hsame, hlocator]
  exact ⟨artifact, hartifact, sameArtifact_symm hsame⟩

/-! ## What is selected is what is observed -/

theorem Selected.nodup (h : Selected env length scope entries s receipt) :
    (entries.map LegacyTrayStartupArtifact.locator).Nodup := by
  obtain ⟨first, rest, proposed, rfl, hbuild, _⟩ := h.chosen
  exact (checkEntries_ok (buildStartupReceipt_ok hbuild).1).2.1

theorem Selected.scope_eq (h : Selected env length scope entries s receipt) :
    receipt.scope = scope := by
  obtain ⟨first, rest, proposed, _, hbuild, hselect⟩ := h.chosen
  have hproposed : proposed.scope = scope := by rw [(buildStartupReceipt_ok hbuild).2]
  rcases selectStartupReceiptForDisable_ok hselect with ⟨rfl, _⟩ | ⟨_, _, hscope, _⟩
  · exact hproposed
  · exact hscope.trans hproposed

theorem Selected.same (h : Selected env length scope entries s receipt) :
    sameArtifactSnapshot scope receipt.entries entries = true := by
  obtain ⟨first, rest, proposed, _, hbuild, hselect⟩ := h.chosen
  have hproposed : proposed.entries = entries := by rw [(buildStartupReceipt_ok hbuild).2]
  rcases selectStartupReceiptForDisable_ok hselect with ⟨rfl, _⟩ | ⟨_, _, _, hsame⟩
  · rw [hproposed]
    exact sameArtifactSnapshot_refl h.nodup
  · rw [h.scope_eq, hproposed] at hsame
    exact hsame

theorem Selected.same' (h : Selected env length scope entries s receipt) :
    sameArtifactSnapshot scope entries receipt.entries = true :=
  sameArtifactSnapshot_symm h.same (validateStartupReceipt_nodup h.valid) h.nodup

/-- Observed artifacts at one place are one artifact. -/
theorem observed_unique {recordedAt : ℕ} {store : StartupStore}
    (h : observeOwned env scope recordedAt store = .ok entries)
    {other : LegacyTrayStartupArtifact} (hmem : artifact ∈ entries) (hother : other ∈ entries)
    (hplace : artifact.place = other.place) : artifact = other := by
  obtain ⟨hvalue, hobserved⟩ := mem_observeOwned h hmem
  obtain ⟨hvalue', hobserved'⟩ := mem_observeOwned h hother
  rw [hplace] at hvalue hobserved
  have hsame : artifact.value = other.value := by simpa using hvalue.symm.trans hvalue'
  rw [hsame, hobserved'] at hobserved
  simpa using hobserved.symm

theorem Selected.nodup_places (h : Selected env length scope entries s receipt) :
    (receipt.entries.map LegacyTrayStartupArtifact.place).Nodup := by
  have hnodup := validateStartupReceipt_nodup h.valid
  refine List.Nodup.map_on ?_ hnodup.of_map
  intro artifact hartifact other hother hplace
  obtain ⟨found, hfound, hsame⟩ := sameArtifactSnapshot_match h.same hartifact
  obtain ⟨found', hfound', hsame'⟩ := sameArtifactSnapshot_match h.same hother
  have hfounds : found = found' := by
    apply observed_unique h.observed hfound hfound'
    rw [← (sameArtifact_place hsame).1, ← (sameArtifact_place hsame').1, hplace]
  refine List.inj_on_of_nodup_map hnodup hartifact hother ?_
  rw [sameArtifact_locator hsame, sameArtifact_locator hsame', hfounds]

/-! ## Recorded artifacts pass their own check -/

theorem sameWindowsPath_symm {left right : String} (h : sameWindowsPath left right = true) :
    sameWindowsPath right left = true := by
  simp only [sameWindowsPath, Text.eqIgnoreAsciiCase, beq_iff_eq] at h ⊢
  exact h.symm

theorem sameWindowsPath_refl (path : String) : sameWindowsPath path path = true := by
  simp [sameWindowsPath, Text.eqIgnoreAsciiCase]

theorem classifyStartupCommand_owned {command expectedPath path : String}
    (h : classifyStartupCommand command expectedPath = .owned path) : path = expectedPath := by
  unfold classifyStartupCommand at h
  split at h
  · cases h
  · split at h <;> cases h
    rfl

theorem receiptable_userSid {userSid : String}
    (h : isReceiptable env scope userSid artifact = true) :
    artifact.rawBytes ≠ [] ∧ artifact.rawBytes.length ≤ maxStartupArtifactBytes ∧
      sourceBelongsToScope artifact.entry.sourceKind scope = true ∧
      sameWindowsPath artifact.entry.targetPath env.expectedPath = true ∧
      sameWindowsPath artifact.normalizedTargetPath env.expectedPath = true ∧
      locatorMatchesSource artifact = true := by
  simp only [isReceiptable, Bool.and_eq_true, bne_iff_ne, decide_eq_true_eq, ne_eq] at h
  obtain ⟨⟨⟨⟨⟨⟨⟨_, _⟩, hraw⟩, hlength⟩, hsource⟩, htarget⟩, hnormalized⟩, hlocator⟩ := h
  exact ⟨hraw, hlength, hsource, sameWindowsPath_symm htarget, sameWindowsPath_symm hnormalized,
    hlocator⟩

/-- An observed artifact that a receipt accepts can be read, removed and restored. -/
theorem validate_observed {recordedAt : ℕ} {userSid : String}
    (hobserved : observeValue env recordedAt artifact.place artifact.value =
      .ok (some (.owned artifact)))
    (hreceiptable : isReceiptable env scope userSid artifact = true) :
    artifact.userSid = env.userSid ∧ validateArtifact env artifact = .ok () := by
  obtain ⟨hraw, hlength, _, htarget, hnormalized, hmatches⟩ := receiptable_userSid hreceiptable
  have hheader : (artifact.rawBytes != [] && artifact.rawBytes.length ≤ maxLinkBytes &&
      sameWindowsPath artifact.normalizedTargetPath env.expectedPath &&
      sameWindowsPath artifact.entry.targetPath env.expectedPath) = true := by
    simp only [Bool.and_eq_true, bne_iff_ne, decide_eq_true_eq]
    exact ⟨⟨⟨hraw, hlength⟩, hnormalized⟩, htarget⟩
  obtain ⟨⟨source, displayName, targetPath⟩, locator, rawBytes, normalizedTargetPath, userSid,
    recordedAt'⟩ := artifact
  cases locator with
  | registry hive view subkey valueName valueType =>
    simp only [observeValue, LegacyTrayStartupArtifact.place,
      LegacyTrayStartupArtifact.value] at hobserved
    split at hobserved
    · rename_i hive' view' hsource
      obtain ⟨_, hbound, hobserved⟩ := bind_eq_ok.1 hobserved
      split at hobserved
      · obtain ⟨_, _, hobserved⟩ := bind_eq_ok.1 hobserved
        cases hobserved
      · obtain ⟨command, hcommand, hobserved⟩ := bind_eq_ok.1 hobserved
        split at hobserved
        · cases hobserved
        · split at hobserved
          · rename_i hclass
            cases hobserved
            obtain rfl := classifyStartupCommand_owned hclass
            have hbound := ok_of_require hbound
            simp only [locatorMatchesSource, hsource, beq_self_eq_true, Bool.true_and] at hmatches
            refine ⟨rfl, ?_⟩
            unfold validateArtifact
            rw [require_true _ hheader]
            refine bind_eq_ok.2 ⟨(), rfl, bind_eq_ok.2 ⟨(), require_true _ (by simp), ?_⟩⟩
            refine bind_eq_ok.2 ⟨(), require_true _ ?_, ?_⟩
            · simp only [beq_self_eq_true, Bool.true_and, Bool.and_eq_true]
              exact ⟨hmatches, hbound⟩
            · refine bind_eq_ok.2 ⟨(), require_true _ (by simp [hsource]), ?_⟩
              refine bind_eq_ok.2 ⟨command, hcommand, require_true _ ?_⟩
              simp [hclass]
          · cases hobserved
    · cases hobserved
  | file folder stem extension =>
    change observeStartupFile env recordedAt stem extension ⟨0, rawBytes⟩ = _ at hobserved
    unfold observeStartupFile at hobserved
    split at hobserved
    · cases hobserved
    · rename_i hlink
      rw [if_neg fun h => h rfl] at hobserved
      split at hobserved
      · split at hobserved <;> cases hobserved
      · split at hobserved
        · cases hobserved
        · split at hobserved
          · obtain ⟨_, _, hobserved⟩ := bind_eq_ok.1 hobserved
            cases hobserved
            refine ⟨rfl, ?_⟩
            unfold validateArtifact
            rw [require_true _ hheader]
            refine bind_eq_ok.2 ⟨(), rfl, bind_eq_ok.2 ⟨(), require_true _ (by simp), ?_⟩⟩
            refine bind_eq_ok.2 ⟨(), require_true _ (by simp), require_true _ ?_⟩
            simp only [sameWindowsPath_refl, beq_self_eq_true, Bool.true_and, Bool.and_true]
            simpa using hlink
          · cases hobserved

theorem requiresSid_of_localMachine {source : LegacyTrayStartupSource}
    (h : sourceBelongsToScope source .localMachine = true) :
    startupSourceRequiresCurrentUserSid source = false := by
  cases source <;> first | rfl | cases h

/-- The check of an artifact does not depend on when it was taken. -/
theorem validateArtifact_congr {candidate : LegacyTrayStartupArtifact}
    (h : sameArtifact scope candidate artifact = true)
    (hsource : sourceBelongsToScope artifact.entry.sourceKind scope = true) :
    validateArtifact env candidate = validateArtifact env artifact := by
  simp only [sameArtifact, Bool.and_eq_true, Bool.or_eq_true, beq_iff_eq] at h
  obtain ⟨⟨⟨⟨hentry, hlocator⟩, hraw⟩, htarget⟩, hsid⟩ := h
  have hsid : (!startupSourceRequiresCurrentUserSid artifact.entry.sourceKind ||
      candidate.userSid == env.userSid) = (!startupSourceRequiresCurrentUserSid
        artifact.entry.sourceKind || artifact.userSid == env.userSid) := by
    rcases hsid with rfl | hsid
    · simp [requiresSid_of_localMachine hsource]
    · rw [hsid]
  unfold validateArtifact
  simp only [hentry, hlocator, hraw, htarget, hsid]

theorem Selected.validates (h : Selected env length scope entries s receipt)
    (hmem : artifact ∈ receipt.entries) : validateArtifact env artifact = .ok () := by
  obtain ⟨expected, hexpected, hsame⟩ := sameArtifactSnapshot_match h.same hmem
  obtain ⟨first, rest, proposed, _, hbuild, _⟩ := h.chosen
  have hreceiptable := (checkEntries_ok (buildStartupReceipt_ok hbuild).1).1 expected hexpected
  rw [validateArtifact_congr hsame (receiptable_userSid hreceiptable).2.2.1]
  exact (validate_observed (mem_observeOwned h.observed hexpected).2 hreceiptable).2

end MacTypeControl.Startup
