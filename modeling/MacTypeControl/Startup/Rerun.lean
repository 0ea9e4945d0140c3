import MacTypeControl.Startup.Snapshot

/-!
# Running a disable again

A disable that was stopped before it removed anything, or after it removed everything,
completes when it is run again. In between it is refused until a restore has completed.
-/

namespace MacTypeControl.Startup

open Crash Crash.Prog

variable {env : StartupEnvironment} {length : ReceiptLength} {scope : StartupReceiptScope}
  {s t u : StartupMachine} {receipt : LegacyTrayStartupReceipt}
  {artifact : LegacyTrayStartupArtifact} {entries : List LegacyTrayStartupArtifact}

/-! ## What is observed once entries are removed -/

theorem valuesOf_removed {store store' : StartupStore} (hplaces : store'.places = store.places)
    (hvalues : ∀ place, store'.value place = store.value place ∨ store'.value place = none)
    (source : LegacyTrayStartupSource) :
    store'.valuesOf source =
      (store.valuesOf source).filter fun stored => (store'.value stored.1).isSome := by
  unfold StartupStore.valuesOf
  rw [hplaces]
  induction store.places.filter fun place => place.source = source with
  | nil => rfl
  | cons place places ih =>
    simp only [List.filterMap_cons]
    cases hvalue : store'.value place with
    | none =>
      cases store.value place with
      | none => exact ih
      | some value =>
        simp only [Option.map_none, Option.map_some, List.filter_cons, hvalue]
        exact ih
    | some value =>
      have hsame := (hvalues place).resolve_right (by simp [hvalue])
      rw [← hsame, hvalue]
      simp only [Option.map_some, List.filter_cons, hvalue]
      rw [ih]
      rfl

theorem observeValues_filter {recordedAt : ℕ} {values : List (Place × StoredValue)}
    {observations : List LegacyTrayStartupObservation} (keep : Place → Bool)
    (hobserve : observeValues env recordedAt values = .ok observations)
    (howned : ownedArtifacts observations = .ok entries) :
    ∃ observations', observeValues env recordedAt (values.filter fun stored => keep stored.1) =
        .ok observations' ∧
      ownedArtifacts observations' = .ok (entries.filter fun artifact => keep artifact.place) := by
  induction values generalizing observations entries with
  | nil =>
    cases hobserve
    cases howned
    exact ⟨[], rfl, rfl⟩
  | cons stored values ih =>
    obtain ⟨place, value⟩ := stored
    obtain ⟨found, hfound, hobserve⟩ := bind_eq_ok.1 hobserve
    obtain ⟨others, hothers, hobserve⟩ := bind_eq_ok.1 hobserve
    cases hobserve
    cases found with
    | none =>
      obtain ⟨observations', hobserve', howned'⟩ := ih hothers howned
      refine ⟨observations', ?_, howned'⟩
      rw [List.filter_cons]
      split
      · exact bind_eq_ok.2 ⟨none, hfound, bind_eq_ok.2 ⟨observations', hobserve', rfl⟩⟩
      · exact hobserve'
    | some observation =>
      cases observation with
      | untrusted => cases howned
      | unknown message => cases howned
      | owned artifact =>
        obtain ⟨artifacts, hartifacts, howned⟩ := bind_eq_ok.1 howned
        cases howned
        obtain ⟨observations', hobserve', howned'⟩ := ih hothers hartifacts
        have hplace : artifact.place = place := (observeValue_owned hfound).1
        rw [List.filter_cons, List.filter_cons]
        dsimp only
        rw [hplace]
        split
        · refine ⟨.owned artifact :: observations', ?_, ?_⟩
          · exact bind_eq_ok.2 ⟨_, hfound, bind_eq_ok.2 ⟨observations', hobserve', rfl⟩⟩
          · exact bind_eq_ok.2 ⟨_, howned', rfl⟩
        · exact ⟨observations', hobserve', howned'⟩

/-- After a removal the remaining artifacts are observed. -/
theorem observeOwned_removed {recordedAt : ℕ} {store store' : StartupStore}
    (h : observeOwned env scope recordedAt store = .ok entries)
    (hplaces : store'.places = store.places)
    (hvalues : ∀ place, store'.value place = store.value place ∨ store'.value place = none) :
    observeOwned env scope recordedAt store' =
      .ok (entries.filter fun artifact => (store'.value artifact.place).isSome) := by
  obtain ⟨observations, hobserve, howned⟩ := bind_eq_ok.1 h
  obtain ⟨observations', hobserve', howned'⟩ :=
    observeValues_filter (fun place => (store'.value place).isSome) hobserve howned
  refine bind_eq_ok.2 ⟨observations', ?_, howned'⟩
  rw [← hobserve', List.filter_flatMap, funext (valuesOf_removed hplaces hvalues)]

theorem Disabling.observed (h : Disabling receipt s t)
    (hobserved : observeOwned env scope s.clock s.store = .ok entries) :
    observeOwned env scope t.clock t.store =
      .ok (entries.filter fun artifact => (t.store.value artifact.place).isSome) := by
  rw [h.clock]
  exact observeOwned_removed hobserved h.places fun place => (h.values place).imp_right And.left

/-- Where everything recorded is at its place, nothing has changed. -/
theorem Disabling.store_eq (h : Disabling receipt s t) (hpresent : Present receipt t) :
    t.store = s.store := by
  apply StartupStore.ext h.places
  funext place
  rcases h.values place with hsame | ⟨hnone, artifact, hartifact, rfl, _⟩
  · exact hsame
  · rw [hpresent artifact hartifact] at hnone
    cases hnone

/-! ## A disable that is not disturbed -/

theorem completes_readReceiptIfPresent {Q : Option LegacyTrayStartupReceipt → StartupMachine → Prop}
    (hstored : ∀ existing, t.receipt = some existing →
      validateStartupReceipt env existing = .ok () ∧ existing.scope = scope)
    (hq : Q t.receipt t) : completes (readReceiptIfPresent env scope) Q t := by
  refine completes_inspect ?_ hq
  cases hreceipt : t.receipt with
  | none => rfl
  | some existing =>
    obtain ⟨hvalid, hscope⟩ := hstored existing hreceipt
    refine bind_eq_ok.2 ⟨(), hvalid, bind_eq_ok.2 ⟨(), require_true _ ?_, rfl⟩⟩
    simp [hscope]

theorem completes_persistVerifiedReceipt {Q : Unit → StartupMachine → Prop}
    (hvalid : validateStartupReceipt env receipt = .ok ())
    (hfits : length.total receipt ≤ maxReceiptBytes)
    (hq : Q () { t with receipt := some receipt }) :
    completes (persistVerifiedReceipt env length receipt) Q t := by
  apply completes_bind
  refine completes_ofExcept hvalid ?_
  apply completes_bind
  refine completes_ensure (by simpa using hfits) ?_
  apply completes_bind
  refine completes_act rfl ?_
  exact completes_inspect (require_true _ (by simp)) hq

/-- What a removal of these artifacts leaves. -/
structure Removed (artifacts : List LegacyTrayStartupArtifact) (t u : StartupMachine) : Prop where
  clock : u.clock = t.clock
  places : u.store.places = t.store.places
  values : ∀ place, u.store.value place = t.store.value place ∨ u.store.value place = none
  gone : ∀ artifact ∈ artifacts, u.store.value artifact.place = none

theorem completes_removeEntries (artifacts : List LegacyTrayStartupArtifact)
    (hnodup : (artifacts.map LegacyTrayStartupArtifact.place).Nodup)
    (hvalid : ∀ artifact ∈ artifacts, validateArtifact env artifact = .ok ())
    (hpresent : ∀ artifact ∈ artifacts, t.store.value artifact.place = some artifact.value) :
    completes (removeEntries env artifacts) (fun _ => Removed artifacts t) t := by
  induction artifacts generalizing t with
  | nil => exact completes_ret ⟨rfl, rfl, fun _ => Or.inl rfl, by simp⟩
  | cons artifact artifacts ih =>
    obtain ⟨hfirst, hnodup⟩ := List.nodup_cons.1 hnodup
    have hremove : removeArtifactExact env t.store artifact =
        .ok (t.store.delete artifact.place) :=
      bind_eq_ok.2 ⟨(), hvalid artifact (by simp), bind_eq_ok.2
        ⟨(), require_true _ (by simp [hpresent artifact]), rfl⟩⟩
    have hothers : ∀ other ∈ artifacts, other.place ≠ artifact.place := by
      intro other hother heq
      exact hfirst (List.mem_map.2 ⟨other, hother, heq⟩)
    apply completes_bind
    refine completes_act (by rw [hremove]; rfl) ?_
    refine completes_mono (ih hnodup (fun other hother => hvalid other (by simp [hother])) ?_) ?_
    · intro other hother
      rw [delete_value_of_ne _ (hothers other hother)]
      exact hpresent other (by simp [hother])
    · rintro _ u ⟨hclock, hplaces, hvalues, hgone⟩
      have hself : u.store.value artifact.place = none := by
        rcases hvalues artifact.place with hsame | hnone
        · rw [hsame]
          exact delete_value_self _ _
        · exact hnone
      refine ⟨hclock, hplaces, fun place => ?_, ?_⟩
      · by_cases hplace : place = artifact.place
        · exact Or.inr (hplace ▸ hself)
        · rw [← delete_value_of_ne t.store hplace]
          exact hvalues place
      · intro other hother
        rcases List.mem_cons.1 hother with rfl | hother
        · exact hself
        · exact hgone other hother

theorem completes_removeRecorded (h : Selected env length scope entries s receipt)
    (hclock : t.clock = s.clock) (hstore : t.store = s.store) :
    completes (removeRecorded env length scope receipt) (fun _ _ => True) t := by
  have hobserved : observeOwned env scope t.clock t.store = .ok entries := by
    rw [hclock, hstore]
    exact h.observed
  apply completes_bind
  refine completes_inspect hobserved ?_
  rw [h.same']
  apply completes_bind
  apply completes_handle
  refine completes_mono (completes_removeEntries receipt.entries h.nodup_places
    (fun _ => h.validates) (hstore ▸ h.present)) ?_
  rintro _ u ⟨hclock', hplaces, hvalues, hgone⟩
  have hnothing : observeOwned env scope u.clock u.store = .ok [] := by
    rw [hclock', observeOwned_removed hobserved hplaces hvalues]
    congr 1
    apply List.filter_eq_nil_iff.2
    intro artifact hartifact
    obtain ⟨expected, hexpected, hsame⟩ := sameArtifactSnapshot_match h.same' hartifact
    rw [(sameArtifact_place hsame).1, hgone expected hexpected]
    simp
  apply completes_bind
  apply completes_attempt
  refine completes_inspect hnothing ?_
  exact completes_ret trivial

/-- A disable that knows what to record completes. -/
theorem completes_disable (h : Selected env length scope entries t receipt)
    (hstored : ∀ existing, t.receipt = some existing →
      validateStartupReceipt env existing = .ok ()) :
    completes (disableStartupScope env length scope) (fun _ _ => True) t := by
  obtain ⟨first, rest, proposed, hentries, hbuild, hselect⟩ := h.chosen
  apply completes_bind
  refine completes_inspect h.observed ?_
  rw [hentries]
  dsimp only
  rw [← hentries]
  apply completes_bind
  apply completes_observe
  apply completes_bind
  refine completes_ofExcept hbuild ?_
  apply completes_bind
  refine completes_readReceiptIfPresent
    (fun existing hexisting => ⟨hstored existing hexisting, h.inScope existing hexisting⟩) ?_
  apply completes_bind
  refine completes_ofExcept hselect ?_
  apply completes_bind
  refine completes_persistVerifiedReceipt h.valid h.fits ?_
  exact completes_removeRecorded h rfl rfl

theorem completes_disable_nothing (h : observeOwned env scope t.clock t.store = .ok []) :
    completes (disableStartupScope env length scope) (fun _ _ => True) t := by
  apply completes_bind
  refine completes_inspect h ?_
  exact completes_ret trivial

/-! ## A restore that is not disturbed -/

theorem limit_of_validates (h : validateArtifact env artifact = .ok ()) :
    artifact.value.bytes.length ≤ artifact.place.limit := by
  obtain ⟨_, hheader, h⟩ := bind_eq_ok.1 h
  obtain ⟨_, _, h⟩ := bind_eq_ok.1 h
  have hheader := ok_of_require hheader
  simp only [Bool.and_eq_true, decide_eq_true_eq] at hheader
  unfold LegacyTrayStartupArtifact.value LegacyTrayStartupArtifact.place
  split
  · rename_i hlocator
    rw [hlocator] at h
    obtain ⟨_, hvalue, _⟩ := bind_eq_ok.1 h
    have hvalue := ok_of_require hvalue
    simp only [Bool.and_eq_true, decide_eq_true_eq] at hvalue
    exact hvalue.2
  · exact hheader.1.1.2

/-- The place is empty or holds the artifact. -/
def Restorable (s : StartupMachine) (artifact : LegacyTrayStartupArtifact) : Prop :=
  s.store.value artifact.place = none ∨ s.store.value artifact.place = some artifact.value

theorem read_restorable (hvalid : validateArtifact env artifact = .ok ())
    (h : Restorable t artifact) :
    ∃ current action, readArtifactBytes env t.store artifact = .ok current ∧
      planStartupRestore artifact.rawBytes current = .ok action ∧
      (action = .restore → t.store.value artifact.place = none) := by
  rcases h with hnone | hsome
  · refine ⟨none, .restore, bind_eq_ok.2 ⟨(), hvalid, ?_⟩, rfl, fun _ => hnone⟩
    rw [hnone]
  · have hraw : artifact.value.bytes = artifact.rawBytes := by
      unfold LegacyTrayStartupArtifact.value
      split <;> rfl
    refine ⟨some artifact.rawBytes, .noop, bind_eq_ok.2 ⟨(), hvalid, ?_⟩, ?_, by simp⟩
    · rw [hsome]
      refine bind_eq_ok.2 ⟨(), require_true _ ?_, bind_eq_ok.2 ⟨(), require_true _ ?_, ?_⟩⟩
      · simpa using limit_of_validates hvalid
      · simp
      · rw [hraw]
    · simp [planStartupRestore]

theorem completes_planRestore (artifacts : List LegacyTrayStartupArtifact)
    (hvalid : ∀ artifact ∈ artifacts, validateArtifact env artifact = .ok ())
    (h : ∀ artifact ∈ artifacts, Restorable t artifact) :
    completes (planRestore env length receipt artifacts)
      (fun actions u => u = t ∧ actions.length = artifacts.length ∧
        ∀ entry ∈ artifacts.zip actions, entry.2 = .restore →
          t.store.value entry.1.place = none) t := by
  induction artifacts with
  | nil => exact completes_ret ⟨rfl, rfl, by simp⟩
  | cons artifact artifacts ih =>
    obtain ⟨current, action, hread, hplan, hrestore⟩ :=
      read_restorable (hvalid artifact (by simp)) (h artifact (by simp))
    apply completes_bind
    refine completes_inspect hread ?_
    rw [hplan]
    apply completes_bind
    refine completes_mono (ih (fun other hother => hvalid other (by simp [hother]))
      fun other hother => h other (by simp [hother])) ?_
    rintro actions u ⟨hu, hlength, hactions⟩
    refine completes_ret ⟨hu, by simp [hlength], ?_⟩
    intro entry hentry hentryrestore
    rcases List.mem_cons.1 hentry with rfl | hentry
    · exact hrestore hentryrestore
    · exact hactions entry hentry hentryrestore

theorem completes_restoreEntries
    (pairs : List (LegacyTrayStartupArtifact × StartupRestoreAction))
    (hnodup : (pairs.map fun entry => entry.1.place).Nodup)
    (hvalid : ∀ entry ∈ pairs, validateArtifact env entry.1 = .ok ())
    (habsent : ∀ entry ∈ pairs, entry.2 = .restore → t.store.value entry.1.place = none) :
    completes (restoreEntries env length receipt pairs) (fun _ _ => True) t := by
  induction pairs generalizing t with
  | nil => exact completes_ret trivial
  | cons entry pairs ih =>
    obtain ⟨artifact, action⟩ := entry
    obtain ⟨hfirst, hnodup⟩ := List.nodup_cons.1 hnodup
    have hrest : ∀ other ∈ pairs, validateArtifact env other.1 = .ok () :=
      fun other hother => hvalid other (by simp [hother])
    apply completes_bind
    refine completes_whenever (fun hrestore => ?_) fun _ =>
      ih hnodup hrest fun other hother => habsent other (by simp [hother])
    have hput : restoreArtifactIfAbsent env t.store artifact =
        .ok (t.store.put artifact.place artifact.value) := by
      refine bind_eq_ok.2 ⟨(), hvalid (artifact, action) (by simp), bind_eq_ok.2 ⟨(), ?_, rfl⟩⟩
      refine require_true _ ?_
      rw [habsent (artifact, action) (by simp) hrestore]
      rfl
    apply completes_handle
    apply completes_bind
    refine completes_act (by rw [hput]; rfl) ?_
    refine completes_inspect (require_true _ (by simp)) ?_
    refine ih hnodup hrest fun other hother hrestore' => ?_
    rw [settle_store, put_value_of_ne _ _ fun heq => hfirst (List.mem_map.2 ⟨other, hother, heq⟩)]
    exact habsent other (by simp [hother]) hrestore'

theorem completes_restoreStartupScope (hstored : t.receipt = some receipt)
    (hpending : receipt.restorationState = .pending) (hscope : receipt.scope = scope)
    (hreceipt : validateStartupReceipt env receipt = .ok ())
    (hfits : length.total { receipt with restorationState := .restored } ≤ maxReceiptBytes)
    (hnodup : (receipt.entries.map LegacyTrayStartupArtifact.place).Nodup)
    (hvalid : ∀ artifact ∈ receipt.entries, validateArtifact env artifact = .ok ())
    (h : ∀ artifact ∈ receipt.entries, Restorable t artifact) :
    completes (restoreStartupScope env length scope) (fun _ _ => True) t := by
  apply completes_bind
  refine completes_readReceiptIfPresent ?_ ?_
  · rw [hstored]
    rintro _ ⟨⟩
    exact ⟨hreceipt, hscope⟩
  rw [hstored]
  dsimp only
  rw [hpending]
  apply completes_bind
  refine completes_mono (completes_planRestore receipt.entries hvalid h) ?_
  rintro actions u ⟨rfl, hlength, hactions⟩
  apply completes_bind
  refine completes_mono (completes_restoreEntries _ ?_
    (fun entry hentry => hvalid entry.1 (List.of_mem_zip hentry).1) hactions) ?_
  · have hfst : (receipt.entries.zip actions).map Prod.fst = receipt.entries :=
      List.map_fst_zip (by omega)
    rw [← hfst, List.map_map] at hnodup
    exact hnodup
  · rintro _ v _
    exact completes_persistVerifiedReceipt (validate_restored hreceipt) hfits trivial

/-! ## Running a disable again -/

/-- Some of the recorded entries are removed and some are not. -/
def PartlyRemoved (s : StartupMachine) : Prop :=
  ∃ receipt, s.receipt = some receipt ∧ receipt.restorationState = .pending ∧
    (∃ artifact ∈ receipt.entries, s.store.value artifact.place = none) ∧
    ∃ artifact ∈ receipt.entries, s.store.value artifact.place = some artifact.value

/-- A receipt of what is there now would be within its limit. -/
def Roomy (env : StartupEnvironment) (length : ReceiptLength) (scope : StartupReceiptScope)
    (s : StartupMachine) : Prop :=
  ∀ first rest proposed, observeOwned env scope s.clock s.store = .ok (first :: rest) →
    buildStartupReceipt env scope first.userSid (first :: rest) s.clock = .ok proposed →
    length.total proposed ≤ maxReceiptBytes

/-- Once its receipt is marked as restored, the disable can start afresh. -/
theorem Selected.afresh (h : Selected env length scope entries s receipt)
    (hroom : Roomy env length scope s) (hclock : t.clock = s.clock) (hstore : t.store = s.store)
    (hreceipt : t.receipt = some { receipt with restorationState := .restored }) :
    completes (disableStartupScope env length scope) (fun _ _ => True) t := by
  obtain ⟨first, rest, proposed, rfl, hbuild, hselect⟩ := h.chosen
  have hproposed : proposed.scope = scope := by rw [(buildStartupReceipt_ok hbuild).2]
  have hfresh : Selected env length scope (first :: rest) t proposed := by
    refine ⟨?_, ⟨first, rest, proposed, rfl, ?_, ?_⟩, ?_, validate_of_build hbuild, ?_⟩
    · rw [hclock, hstore]
      exact h.observed
    · rw [hclock]
      exact hbuild
    · rw [hreceipt]
      unfold selectStartupReceiptForDisable
      dsimp only
      rw [if_neg (by simp [h.scope_eq, hproposed])]
    · rw [hreceipt]
      rintro _ ⟨⟩
      exact h.scope_eq
    · exact hroom first rest proposed h.observed hbuild
  apply completes_disable hfresh
  rw [hreceipt]
  rintro _ ⟨⟩
  exact validate_restored h.valid

/-- While its receipt is pending and everything is there, the disable continues with it. -/
theorem Selected.continued (h : Selected env length scope entries s receipt)
    (hclock : t.clock = s.clock) (hstore : t.store = s.store)
    (hreceipt : t.receipt = some receipt) :
    completes (disableStartupScope env length scope) (fun _ _ => True) t := by
  obtain ⟨first, rest, proposed, rfl, hbuild, hselect⟩ := h.chosen
  have hproposed : proposed.scope = scope ∧ proposed.entries = first :: rest := by
    rw [(buildStartupReceipt_ok hbuild).2]
    exact ⟨rfl, rfl⟩
  have hagain : Selected env length scope (first :: rest) t receipt := by
    refine ⟨?_, ⟨first, rest, proposed, rfl, ?_, ?_⟩, ?_, h.valid, h.fits⟩
    · rw [hclock, hstore]
      exact h.observed
    · rw [hclock]
      exact hbuild
    · rw [hreceipt]
      unfold selectStartupReceiptForDisable
      dsimp only
      rw [if_neg (by simp [h.scope_eq, hproposed.1]), h.pending, h.scope_eq, hproposed.2]
      exact if_pos h.same
    · rw [hreceipt]
      rintro _ ⟨⟩
      exact h.scope_eq
  apply completes_disable hagain
  rw [hreceipt]
  rintro _ ⟨⟩
  exact h.valid

/-- A disable of a partly removed scope is refused, whatever happens, without a change. -/
theorem wp_disable_refused (h : Selected env length scope entries s receipt)
    (ht : Disabling receipt s t) (hreceipt : t.receipt = some receipt)
    (hgone : ∃ artifact ∈ receipt.entries, t.store.value artifact.place = none)
    (hthere : ∃ artifact ∈ receipt.entries, t.store.value artifact.place = some artifact.value) :
    wp (disableStartupScope env length scope) (fun _ _ => False) (fun _ u => u = t)
      (fun u => u = t) t := by
  have hobserved := ht.observed h.observed
  apply wp_bind
  refine wp_inspect (fun found hfound => ?_) (fun _ _ => rfl) rfl rfl
  rw [hobserved] at hfound
  cases hfound
  obtain ⟨artifact, hartifact, hvalue⟩ := hthere
  obtain ⟨expected, hexpected, hsame⟩ := sameArtifactSnapshot_match h.same hartifact
  have hleft : expected ∈ entries.filter fun artifact => (t.store.value artifact.place).isSome := by
    refine List.mem_filter.2 ⟨hexpected, ?_⟩
    rw [← (sameArtifact_place hsame).1, hvalue]
    rfl
  split
  · rename_i hnil
    rw [hnil] at hleft
    simp at hleft
  · apply wp_bind
    apply wp_observe
    apply wp_bind
    refine wp_ofExcept (fun proposed hbuild => ?_) fun _ _ => rfl
    apply wp_bind
    refine wp_readReceiptIfPresent (fun _ => ?_) (fun _ => rfl) rfl
    apply wp_bind
    refine wp_ofExcept (fun chosen hselect => ?_) fun _ _ => rfl
    -- The pending receipt records an artifact that is no longer observed.
    exfalso
    rw [hreceipt] at hselect
    have hproposed : proposed.entries =
        entries.filter fun artifact => (t.store.value artifact.place).isSome := by
      rw [(buildStartupReceipt_ok hbuild).2]
    rcases selectStartupReceiptForDisable_ok hselect with ⟨_, hrestored⟩ | ⟨heq, _, _, hmatch⟩
    · have hstate := hrestored receipt rfl
      rw [h.pending] at hstate
      cases hstate
    · cases heq
      obtain ⟨removed, hremoved, hnone⟩ := hgone
      rw [hproposed] at hmatch
      obtain ⟨other, hother, hsame'⟩ := sameArtifactSnapshot_match hmatch hremoved
      have hsome := (List.mem_filter.1 hother).2
      rw [← (sameArtifact_place hsame').1, hnone] at hsome
      cases hsome

theorem Disabling.restorable (h : Disabling receipt s t) (hpresent : Present receipt s)
    (hmem : artifact ∈ receipt.entries) : Restorable t artifact := by
  rcases h.values artifact.place with hsame | ⟨hnone, _⟩
  · exact Or.inr (hsame.trans (hpresent artifact hmem))
  · exact Or.inl hnone

theorem calm_of_completes {m : Handling Unit} {Q : Unit → StartupMachine → Prop}
    (h : completes m Q t) : (m.calm t).1 = .done () := by
  obtain ⟨_, u, hrun, _⟩ := h
  rw [hrun]

/-- Run from here without faults, the disable completes, or it is refused because some of
its entries are removed and some are not; then it completes after a restore. -/
def CompletesAgain (env : StartupEnvironment) (length : ReceiptLength)
    (scope : StartupReceiptScope) (t : StartupMachine) : Prop :=
  ((disableStartupScope env length scope).calm t).1 = .done () ∨
    PartlyRemoved t ∧
    (∀ gs, ((disableStartupScope env length scope).result gs t).1 ≠ .done () ∧
      ((disableStartupScope env length scope).result gs t).2 = t) ∧
    ((∀ receipt, t.receipt = some receipt →
        length.total { receipt with restorationState := .restored } ≤ maxReceiptBytes) →
      ((restoreStartupScope env length scope).calm t).1 = .done () ∧
      ((disableStartupScope env length scope).calm
        ((restoreStartupScope env length scope).calm t).2).1 = .done ())

/-- A disable that was stopped or failed anywhere, unless it is left to be finished by
hand, can be run again. -/
theorem disable_again (hs : Custody s) (hroom : Roomy env length scope s) (fs : List Fault)
    (hcalm : ((disableStartupScope env length scope).calm s).1 = .done ())
    (ht : ((disableStartupScope env length scope).result fs s).2 = t)
    (hmanual : ∀ receipt, t.receipt = some receipt → receipt.restorationState ≠ .manualRequired) :
    CompletesAgain env length scope t := by
  have hstep : DisableStep env length scope s t := ht ▸ disable_step hs fs
  rcases hstep with rfl | ⟨entries, receipt, hselected, hdisabling, state, hreceipt, hrestored⟩
  · exact Or.inl hcalm
  cases state with
  | manualRequired => exact absurd rfl (hmanual _ hreceipt)
  | restored =>
    have hstore := hdisabling.store_eq (hrestored rfl)
    exact Or.inl (calm_of_completes
      (hselected.afresh hroom hdisabling.clock hstore hreceipt))
  | pending =>
    have hreceipt : t.receipt = some receipt := by
      rw [hreceipt, ← hselected.pending]
    by_cases hall : Present receipt t
    · exact Or.inl (calm_of_completes
        (hselected.continued hdisabling.clock (hdisabling.store_eq hall) hreceipt))
    obtain ⟨gone, hgone, habsent⟩ : ∃ artifact ∈ receipt.entries,
        t.store.value artifact.place = none := by
      by_contra hnone
      refine hall fun artifact hartifact => ?_
      exact (hdisabling.restorable hselected.present hartifact).resolve_left
        fun h => hnone ⟨artifact, hartifact, h⟩
    by_cases hany : ∃ artifact ∈ receipt.entries,
        t.store.value artifact.place = some artifact.value
    · have hrefused := wp_disable_refused hselected hdisabling hreceipt ⟨gone, hgone, habsent⟩ hany
      refine Or.inr ⟨⟨receipt, hreceipt, hselected.pending, ⟨gone, hgone, habsent⟩, hany⟩, ?_, ?_⟩
      · intro gs
        have hrun := hrefused gs
        revert hrun
        rcases (disableStartupScope env length scope).result gs t with ⟨_ | _ | _, u⟩
        · exact False.elim
        · exact fun hrun => ⟨by simp, hrun⟩
        · exact fun hrun => ⟨by simp, hrun⟩
      · intro hfits
        have hrestore : completes (restoreStartupScope env length scope) (fun _ _ => True) t :=
          completes_restoreStartupScope hreceipt hselected.pending hselected.scope_eq
            hselected.valid (hfits receipt hreceipt) hselected.nodup_places
            (fun _ => hselected.validates) fun _ => hdisabling.restorable hselected.present
        refine ⟨calm_of_completes hrestore, ?_⟩
        obtain ⟨_, u, hrun, _, hu, _, hback⟩ :=
          completes_and_wp hrestore (wp_restoreStartupScope hdisabling.custody)
        rw [hrun]
        obtain ⟨hpresent, hmarked⟩ := hback receipt hreceipt hselected.pending
        have hopen : DisableOpen receipt s t :=
          ⟨hdisabling, hreceipt, hselected.pending, hselected.present⟩
        have hu : Disabling receipt s u := (hopen.restoreStep hu).1
        exact calm_of_completes
          (hselected.afresh hroom hu.clock (hu.store_eq hpresent) hmarked)
    · have hnothing : observeOwned env scope t.clock t.store = .ok [] := by
        rw [hdisabling.observed hselected.observed]
        congr 1
        apply List.filter_eq_nil_iff.2
        intro expected hexpected hsome
        obtain ⟨artifact, hartifact, hsame⟩ := sameArtifactSnapshot_match hselected.same' hexpected
        rw [(sameArtifact_place hsame).1] at hsome
        rcases hdisabling.restorable hselected.present hartifact with hnone | hthere
        · rw [hnone] at hsome
          cases hsome
        · exact hany ⟨artifact, hartifact, hthere⟩
      exact Or.inl (calm_of_completes (completes_disable_nothing hnothing))

/-! ## No entry is lost -/

/-- A disable takes away only entries that are then recorded as outstanding. -/
def RemovesRecorded (s t : StartupMachine) : Prop :=
  ∀ place, t.store.value place = s.store.value place ∨
    t.store.value place = none ∧
      ∃ value, s.store.value place = some value ∧ (place, value) ∈ t.outstanding

/-- A restore puts what its receipt records where nothing is. -/
def FillsAbsent (s t : StartupMachine) : Prop :=
  ∀ place, t.store.value place = s.store.value place ∨
    s.store.value place = none ∧ ∃ receipt artifact, s.receipt = some receipt ∧
      artifact ∈ receipt.entries ∧ artifact.place = place ∧
      t.store.value place = some artifact.value

theorem DisableStep.removesRecorded (h : DisableStep env length scope s t) :
    RemovesRecorded s t := by
  rcases h with rfl | ⟨_, receipt, _, hdisabling, _⟩
  · exact fun place => Or.inl rfl
  · intro place
    rcases hdisabling.values place with hsame | ⟨hnone, artifact, _, _, hthere, hout⟩
    · exact Or.inl hsame
    · exact Or.inr ⟨hnone, artifact.value, hthere, hout⟩

theorem RestoreStep.fillsAbsent (h : RestoreStep s t) : FillsAbsent s t := by
  rcases h with rfl | ⟨receipt, hreceipt, _, hrestoring, _⟩
  · exact fun place => Or.inl rfl
  · intro place
    cases hvalue : s.store.value place with
    | some value => exact Or.inl (hrestoring.kept place value hvalue)
    | none =>
      rcases hrestoring.put place hvalue with hnone | ⟨artifact, hartifact, hat, hput⟩
      · exact Or.inl hnone
      · exact Or.inr ⟨rfl, receipt, artifact, hreceipt, hartifact, hat, hput⟩

theorem RestoreStep.back (h : RestoreStep s t) (hnone : t.outstanding = [])
    {removed : Place × StoredValue} (hremoved : removed ∈ s.outstanding) :
    t.store.value removed.1 = some removed.2 := by
  rcases h with rfl | ⟨_, _, _, hrestoring, _⟩
  · simp [hnone] at hremoved
  · exact (hrestoring.outstanding removed hremoved).resolve_right (by simp [hnone])

/-- What holds of a machine in a run, and of each operation from it, wherever it stops. -/
structure NothingLost (env : StartupEnvironment) (length : ReceiptLength)
    (scope : StartupReceiptScope) (s : StartupMachine) : Prop where
  recorded : ∀ removed ∈ s.outstanding, ∃ receipt, s.receipt = some receipt ∧
    receipt.restorationState ≠ .restored ∧
    ∃ artifact ∈ receipt.entries, artifact.place = removed.1 ∧ artifact.value = removed.2
  disable : ∀ fs, RemovesRecorded s ((disableStartupScope env length scope).result fs s).2
  restore : ∀ fs, FillsAbsent s ((restoreStartupScope env length scope).result fs s).2
  restored : ∀ fs, ((restoreStartupScope env length scope).result fs s).1 = .done () →
    ∀ removed ∈ s.outstanding,
      ((restoreStartupScope env length scope).result fs s).2.store.value removed.1 =
        some removed.2
  again : Roomy env length scope s →
    ((disableStartupScope env length scope).calm s).1 = .done () →
    ∀ fs t, ((disableStartupScope env length scope).result fs s).2 = t →
      (∀ receipt, t.receipt = some receipt → receipt.restorationState ≠ .manualRequired) →
      CompletesAgain env length scope t

/-- Every Run value is the command of the tray. -/
def trayEnvironment : StartupEnvironment where
  userSid := "S"
  expectedPath := "C:\\MacTray.exe"
  startupFolder := "C:\\Startup"
  decodeUtf16 _ := .ok "\"C:\\MacTray.exe\""
  expandEnvironment text := .ok text
  readShortcut _ := none

def plainLength : ReceiptLength := ⟨fun _ _ _ _ => 1, fun _ => 1⟩

def trayPlaces : List Place :=
  [.runValue .localMachineRun32 "MacTray", .runValue .localMachineRun64 "MacTray"]

/-- The tray is started from both Run keys of the machine. -/
def trayStore : StartupStore where
  places := trayPlaces
  value place := if place ∈ trayPlaces then some ⟨regSz, [1, 2]⟩ else none
  listed place h := by
    by_contra hother
    simp [hother] at h

def trayMachine : StartupMachine := ⟨trayStore, none, 1, []⟩

/-- The disable is stopped before it removes the second entry. -/
def stoppedBetween : List Fault := List.replicate 6 .none ++ [.crash 1]

end MacTypeControl.Startup
