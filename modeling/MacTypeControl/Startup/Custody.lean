import MacTypeControl.Startup.Receipt

/-!
# What is removed stays recorded

Wherever a disable or a restore is stopped, everything it has removed and not put back
is in a receipt that is not marked as restored, with its exact bytes.
-/

namespace MacTypeControl.Startup

open Crash Crash.Prog

variable {env : StartupEnvironment} {length : ReceiptLength} {scope : StartupReceiptScope}
  {s t u : StartupMachine} {receipt : LegacyTrayStartupReceipt}
  {artifact : LegacyTrayStartupArtifact}

/-- Everything outstanding is recorded, and is not at its place. -/
structure Custody (s : StartupMachine) : Prop where
  recorded : ∀ removed ∈ s.outstanding, ∃ receipt, s.receipt = some receipt ∧
    receipt.restorationState ≠ .restored ∧
    ∃ artifact ∈ receipt.entries, artifact.place = removed.1 ∧ artifact.value = removed.2
  away : ∀ removed ∈ s.outstanding, s.store.value removed.1 ≠ some removed.2

def Present (receipt : LegacyTrayStartupReceipt) (s : StartupMachine) : Prop :=
  ∀ artifact ∈ receipt.entries, s.store.value artifact.place = some artifact.value

/-- The durable receipt is this one in some state; marked as restored, it is. -/
def Marked (receipt : LegacyTrayStartupReceipt) (s : StartupMachine) : Prop :=
  ∃ state, s.receipt = some { receipt with restorationState := state } ∧
    (state = .restored → Present receipt s)

/-- What a restore of the receipt does to the machine. -/
structure Restoring (receipt : LegacyTrayStartupReceipt) (s t : StartupMachine) : Prop where
  custody : Custody t
  clock : t.clock = s.clock
  kept : ∀ place value, s.store.value place = some value → t.store.value place = some value
  put : ∀ place, s.store.value place = none → t.store.value place = none ∨
    ∃ artifact ∈ receipt.entries, artifact.place = place ∧
      t.store.value place = some artifact.value
  places : (∀ artifact ∈ receipt.entries, artifact.place ∈ s.store.places) →
    t.store.places = s.store.places
  outstanding : ∀ removed ∈ s.outstanding,
    t.store.value removed.1 = some removed.2 ∨ removed ∈ t.outstanding

@[simp] theorem put_value_self (store : StartupStore) (place : Place) (value : StoredValue) :
    (store.put place value).value place = some value := by
  simp [StartupStore.put]

theorem put_value_of_ne (store : StartupStore) {place other : Place} (value : StoredValue)
    (h : other ≠ place) : (store.put place value).value other = store.value other := by
  simp [StartupStore.put, h]

@[simp] theorem delete_value_self (store : StartupStore) (place : Place) :
    (store.delete place).value place = none := by
  simp [StartupStore.delete]

theorem delete_value_of_ne (store : StartupStore) {place other : Place} (h : other ≠ place) :
    (store.delete place).value other = store.value other := by
  simp [StartupStore.delete, h]

@[simp] theorem settle_store (s : StartupMachine) : s.settle.store = s.store := rfl

theorem mem_settle {removed : Place × StoredValue} :
    removed ∈ s.settle.outstanding ↔
      removed ∈ s.outstanding ∧ s.store.value removed.1 ≠ some removed.2 := by
  simp [StartupMachine.settle]

/-! ## Restoring -/

theorem Restoring.refl (h : Custody s) : Restoring receipt s s :=
  ⟨h, rfl, fun _ _ h => h, fun _ h => Or.inl h, fun _ => rfl, fun _ h => Or.inr h⟩

/-- A recorded artifact is put where nothing is. -/
theorem Restoring.restore (h : Restoring receipt s t)
    (hmem : artifact ∈ receipt.entries) (habsent : t.store.value artifact.place = none) :
    Restoring receipt s { t with store := t.store.put artifact.place artifact.value }.settle := by
  have hsame : ∀ place value, t.store.value place = some value →
      (t.store.put artifact.place artifact.value).value place = some value := by
    intro place value hvalue
    rw [put_value_of_ne]
    · exact hvalue
    · rintro rfl
      rw [habsent] at hvalue
      cases hvalue
  constructor
  · constructor
    · intro removed hremoved
      exact h.custody.recorded removed (mem_settle.1 hremoved).1
    · intro removed hremoved
      exact (mem_settle.1 hremoved).2
  · exact h.clock
  · exact fun place value hvalue => hsame place value (h.kept place value hvalue)
  · intro place hplace
    rcases h.put place hplace with hnone | ⟨other, hother, hat, hvalue⟩
    · by_cases hself : place = artifact.place
      · subst hself
        exact Or.inr ⟨artifact, hmem, rfl, put_value_self _ _ _⟩
      · exact Or.inl ((put_value_of_ne _ _ hself).trans hnone)
    · exact Or.inr ⟨other, hother, hat, hsame place _ hvalue⟩
  · intro hplaces
    simp [StartupStore.put, h.places hplaces, hplaces artifact hmem]
  · intro removed hremoved
    by_cases hback : (t.store.put artifact.place artifact.value).value removed.1 = some removed.2
    · exact Or.inl hback
    · refine Or.inr (mem_settle.2 ⟨?_, hback⟩)
      exact (h.outstanding removed hremoved).resolve_left fun hvalue =>
        hback (hsame _ _ hvalue)

theorem Custody.mark (h : Custody t) (hreceipt : t.receipt = some receipt)
    {state : StartupRestorationState} (hpresent : state = .restored → Present receipt t) :
    Custody { t with receipt := some { receipt with restorationState := state } } := by
  refine ⟨fun removed hremoved => ?_, h.away⟩
  obtain ⟨found, hfound, _, artifact, hmem, hplace, hvalue⟩ := h.recorded removed hremoved
  rw [hreceipt] at hfound
  cases hfound
  refine ⟨_, rfl, ?_, artifact, hmem, hplace, hvalue⟩
  intro hrestored
  refine h.away removed hremoved ?_
  rw [← hplace, ← hvalue]
  exact hpresent hrestored artifact hmem

theorem Restoring.mark (h : Restoring receipt s t) (hreceipt : t.receipt = some receipt)
    {state : StartupRestorationState} (hpresent : state = .restored → Present receipt t) :
    Restoring receipt s { t with receipt := some { receipt with restorationState := state } } :=
  { h with custody := h.custody.mark hreceipt hpresent }

theorem Marked.of_pending (hreceipt : t.receipt = some receipt)
    (hpending : receipt.restorationState = .pending) : Marked receipt t := by
  refine ⟨.pending, ?_, by simp⟩
  rw [hreceipt, ← hpending]

/-- The receipt is replaced as a whole, and only by a valid one that fits. -/
theorem wp_persistVerifiedReceipt {Q : Unit → StartupMachine → Prop}
    {E : String → StartupMachine → Prop} {C : StartupMachine → Prop}
    (hdone : validateStartupReceipt env receipt = .ok () →
      length.total receipt ≤ maxReceiptBytes →
      Q () { s with receipt := some receipt } ∧
        (∀ e, E e { s with receipt := some receipt }) ∧ C { s with receipt := some receipt })
    (herr : ∀ e, E e s) (hstop : C s) :
    wp (persistVerifiedReceipt env length receipt) Q E C s := by
  apply wp_bind
  refine wp_ofExcept (fun _ hvalid => ?_) fun e _ => herr e
  apply wp_bind
  refine wp_ensure (fun hfits => ?_) fun _ => herr _
  obtain ⟨hQ, hE, hC⟩ := hdone hvalid (by simpa using hfits)
  apply wp_bind
  refine wp_act ?_ (fun e _ => herr e) (herr _) hstop
  rintro t ⟨⟩
  exact ⟨wp_inspect (fun _ _ => hQ) (fun e _ => hE e) (hE _) hC, hE _, hC⟩

theorem wp_markRestoration {state : StartupRestorationState} {Q : Unit → StartupMachine → Prop}
    {E : String → StartupMachine → Prop} {C : StartupMachine → Prop}
    (hdone : Q () { s with receipt := some { receipt with restorationState := state } })
    (herr' : ∀ e, E e { s with receipt := some { receipt with restorationState := state } })
    (hstop' : C { s with receipt := some { receipt with restorationState := state } })
    (herr : ∀ e, E e s) (hstop : C s) :
    wp (markRestoration env length receipt state) Q E C s :=
  wp_persistVerifiedReceipt (fun _ _ => ⟨hdone, herr', hstop'⟩) herr hstop

theorem restoreArtifactIfAbsent_ok {store store' : StartupStore}
    (h : restoreArtifactIfAbsent env store artifact = .ok store') :
    store.value artifact.place = none ∧ store' = store.put artifact.place artifact.value := by
  obtain ⟨_, _, h⟩ := bind_eq_ok.1 h
  obtain ⟨_, habsent, h⟩ := bind_eq_ok.1 h
  cases h
  exact ⟨Option.isNone_iff_eq_none.1 (ok_of_require habsent), rfl⟩

theorem removeArtifactExact_ok {store store' : StartupStore}
    (h : removeArtifactExact env store artifact = .ok store') :
    store.value artifact.place = some artifact.value ∧ store' = store.delete artifact.place := by
  obtain ⟨_, _, h⟩ := bind_eq_ok.1 h
  obtain ⟨_, hvalue, h⟩ := bind_eq_ok.1 h
  cases h
  exact ⟨by simpa using ok_of_require hvalue, rfl⟩

/-- The state of a restore of a receipt from `s`, which may be stopped here. -/
def RestoreStop (receipt : LegacyTrayStartupReceipt) (s t : StartupMachine) : Prop :=
  Restoring receipt s t ∧ Marked receipt t

/-- The state of a restore while its receipt is still the pending one. -/
structure RestoreOpen (receipt : LegacyTrayStartupReceipt) (s t : StartupMachine) : Prop where
  restoring : Restoring receipt s t
  stored : t.receipt = some receipt
  pending : receipt.restorationState = .pending

theorem RestoreOpen.stop (h : RestoreOpen receipt s t) : RestoreStop receipt s t :=
  ⟨h.restoring, Marked.of_pending h.stored h.pending⟩

theorem RestoreOpen.mark (h : RestoreOpen receipt s t) {state : StartupRestorationState}
    (hpresent : state = .restored → Present receipt t) :
    RestoreStop receipt s { t with receipt := some { receipt with restorationState := state } } :=
  ⟨h.restoring.mark h.stored hpresent, state, rfl, hpresent⟩

theorem wp_giveUp {α : Type} {e : String} {Q : α → StartupMachine → Prop}
    (h : RestoreOpen receipt s t) :
    wp (giveUp env length receipt e) Q (fun _ => RestoreStop receipt s) (RestoreStop receipt s)
      t := by
  have hmarked : RestoreStop receipt s
      { t with receipt := some { receipt with restorationState := .manualRequired } } :=
    h.mark (by simp)
  apply wp_bind
  exact wp_markRestoration (wp_throw hmarked) (fun _ => hmarked) hmarked (fun _ => h.stop) h.stop

/-- A plan to leave an artifact alone means that it is at its place. -/
theorem planned_noop {current : Option Bytes}
    (hread : readArtifactBytes env s.store artifact = .ok current)
    (hplan : planStartupRestore artifact.rawBytes current = .ok .noop) :
    s.store.value artifact.place = some artifact.value := by
  obtain ⟨_, _, hread⟩ := bind_eq_ok.1 hread
  cases hvalue : s.store.value artifact.place with
  | none =>
    rw [hvalue] at hread
    cases hread
    cases hplan
  | some value =>
    rw [hvalue] at hread
    obtain ⟨_, _, hread⟩ := bind_eq_ok.1 hread
    obtain ⟨_, hkind, hread⟩ := bind_eq_ok.1 hread
    cases hread
    have hkind : value.kind = artifact.value.kind := by simpa using ok_of_require hkind
    have hbytes : value.bytes = artifact.rawBytes := by
      unfold planStartupRestore at hplan
      dsimp only at hplan
      split at hplan
      · assumption
      · cases hplan
    have hraw : artifact.value.bytes = artifact.rawBytes := by
      unfold LegacyTrayStartupArtifact.value
      split <;> rfl
    obtain ⟨kind, bytes⟩ := value
    cases hartifact : artifact.value
    simp_all

/-- Planning leaves the machine alone; an artifact that is not to be restored is at its place. -/
theorem wp_planRestore (h : RestoreOpen receipt s t) (artifacts : List LegacyTrayStartupArtifact) :
    wp (planRestore env length receipt artifacts)
      (fun actions u => u = t ∧ actions.length = artifacts.length ∧
        ∀ entry ∈ artifacts.zip actions, entry.2 = .noop →
          t.store.value entry.1.place = some entry.1.value)
      (fun _ => RestoreStop receipt s) (RestoreStop receipt s) t := by
  induction artifacts with
  | nil => exact wp_ret ⟨rfl, rfl, by simp⟩
  | cons artifact artifacts ih =>
    apply wp_bind
    refine wp_inspect (fun current hread => ?_) (fun _ _ => h.stop) h.stop h.stop
    cases hplan : planStartupRestore artifact.rawBytes current with
    | error e => exact wp_giveUp h
    | ok action =>
      apply wp_bind
      refine wp_mono ih ?_ (fun _ _ h => h) fun _ h => h
      rintro actions u ⟨hu, hlength, hnoop⟩
      refine wp_ret ⟨hu, by simp [hlength], ?_⟩
      intro entry hentry hentrynoop
      rcases List.mem_cons.1 hentry with rfl | hentry
      · dsimp only at hentrynoop
        subst hentrynoop
        exact planned_noop hread hplan
      · exact hnoop entry hentry hentrynoop

theorem wp_restoreOriginal (h : RestoreOpen receipt s t) (hmem : artifact ∈ receipt.entries) :
    wp (restoreOriginal env artifact)
      (fun _ u => RestoreOpen receipt s u ∧ Restoring receipt t u ∧
        u.store.value artifact.place = some artifact.value)
      (fun _ => RestoreOpen receipt s) (RestoreOpen receipt s) t := by
  apply wp_bind
  refine wp_act ?_ (fun _ _ => h) h h
  intro u hu
  cases hstore : restoreArtifactIfAbsent env t.store artifact with
  | error e => rw [hstore] at hu; cases hu
  | ok store =>
    rw [hstore] at hu
    cases hu
    obtain ⟨habsent, rfl⟩ := restoreArtifactIfAbsent_ok hstore
    have hopen : RestoreOpen receipt s
        { t with store := t.store.put artifact.place artifact.value }.settle :=
      ⟨h.restoring.restore hmem habsent, h.stored, h.pending⟩
    refine ⟨wp_inspect (fun _ _ => ⟨hopen, ?_, put_value_self _ _ _⟩) (fun _ _ => hopen) hopen
      hopen, hopen, hopen⟩
    exact (Restoring.refl h.restoring.custody).restore hmem habsent

theorem wp_restoreEntries (entries : List (LegacyTrayStartupArtifact × StartupRestoreAction))
    (h : RestoreOpen receipt s t) (hmem : ∀ entry ∈ entries, entry.1 ∈ receipt.entries)
    (hnoop : ∀ entry ∈ entries, entry.2 = .noop →
      t.store.value entry.1.place = some entry.1.value) :
    wp (restoreEntries env length receipt entries)
      (fun _ u => RestoreOpen receipt s u ∧ (∀ place value, t.store.value place = some value →
          u.store.value place = some value) ∧
        ∀ entry ∈ entries, u.store.value entry.1.place = some entry.1.value)
      (fun _ => RestoreStop receipt s) (RestoreStop receipt s) t := by
  induction entries generalizing t with
  | nil => exact wp_ret ⟨h, fun _ _ h => h, by simp⟩
  | cons entry entries ih =>
    obtain ⟨artifact, action⟩ := entry
    -- The rest of the entries, once the first is at its place.
    have hrest : ∀ u, RestoreOpen receipt s u → (∀ place value,
        t.store.value place = some value → u.store.value place = some value) →
        u.store.value artifact.place = some artifact.value →
        wp (restoreEntries env length receipt entries)
          (fun _ v => RestoreOpen receipt s v ∧ (∀ place value,
              t.store.value place = some value → v.store.value place = some value) ∧
            ∀ entry ∈ (artifact, action) :: entries,
              v.store.value entry.1.place = some entry.1.value)
          (fun _ => RestoreStop receipt s) (RestoreStop receipt s) u := by
      intro u hu hkept hpresent
      refine wp_mono (ih hu (fun entry hentry => hmem entry (by simp [hentry])) ?_) ?_
        (fun _ _ h => h) fun _ h => h
      · exact fun entry hentry hnone => hkept _ _ (hnoop entry (by simp [hentry]) hnone)
      · rintro _ v ⟨hv, hkept', hpresent'⟩
        refine ⟨hv, fun place value hvalue => hkept' _ _ (hkept _ _ hvalue), ?_⟩
        intro entry hentry
        rcases List.mem_cons.1 hentry with rfl | hentry
        · exact hkept' _ _ hpresent
        · exact hpresent' entry hentry
    apply wp_bind
    refine wp_whenever (fun _ => ?_) fun hkeep => ?_
    · apply wp_handle
      refine wp_mono (wp_restoreOriginal h (hmem (artifact, action) (by simp))) ?_
        (fun _ u hu => wp_giveUp hu) fun _ hu => hu.stop
      rintro _ u ⟨hu, hrestoring, hpresent⟩
      exact hrest u hu hrestoring.kept hpresent
    · refine hrest t h (fun _ _ h => h) (hnoop (artifact, action) (by simp) ?_)
      cases action with
      | noop => rfl
      | restore => exact absurd rfl hkeep

/-- A restore of a pending receipt, wherever it stops. -/
theorem wp_restoreStartupWith (h : RestoreOpen receipt s s) :
    wp (restoreStartupWith env length receipt)
      (fun _ u => RestoreStop receipt s u ∧ Present receipt u ∧
        u.receipt = some { receipt with restorationState := .restored })
      (fun _ => RestoreStop receipt s) (RestoreStop receipt s) s := by
  apply wp_bind
  refine wp_mono (wp_planRestore h receipt.entries) ?_ (fun _ _ h => h) fun _ h => h
  rintro actions t ⟨rfl, hlength, hnoop⟩
  apply wp_bind
  refine wp_mono (wp_restoreEntries _ h (fun entry hentry => (List.of_mem_zip hentry).1) hnoop) ?_
    (fun _ _ h => h) fun _ h => h
  rintro _ u ⟨hu, _, hpresent⟩
  have hpresent : Present receipt u := by
    intro artifact hartifact
    obtain ⟨i, hi, rfl⟩ := List.mem_iff_getElem.1 hartifact
    have hi' : i < actions.length := hlength ▸ hi
    refine hpresent (receipt.entries[i], actions[i]) ?_
    exact List.mem_iff_getElem.2 ⟨i, by rw [List.length_zip]; omega, List.getElem_zip⟩
  have hmarked : RestoreStop receipt t
      { u with receipt := some { receipt with restorationState := .restored } } :=
    hu.mark fun _ => hpresent
  exact wp_markRestoration ⟨hmarked, hpresent, rfl⟩ (fun _ => hmarked) hmarked
    (fun _ => hu.stop) hu.stop

/-- Where a restore may be stopped: it has done nothing yet, or it is restoring. -/
def RestoreStep (s t : StartupMachine) : Prop :=
  t = s ∨ ∃ receipt, s.receipt = some receipt ∧ receipt.restorationState = .pending ∧
    RestoreStop receipt s t

theorem checkStoredReceipt_ok {found : Option LegacyTrayStartupReceipt}
    (h : checkStoredReceipt env scope receipt = .ok found) :
    validateStartupReceipt env receipt = .ok () ∧ receipt.scope = scope ∧ found = some receipt := by
  obtain ⟨_, hvalid, h⟩ := bind_eq_ok.1 h
  obtain ⟨_, hscope, h⟩ := bind_eq_ok.1 h
  cases h
  exact ⟨hvalid, by simpa using ok_of_require hscope, rfl⟩

/-- The receipt that is read is the stored one. -/
theorem wp_readReceiptIfPresent {Q : Option LegacyTrayStartupReceipt → StartupMachine → Prop}
    {E : String → StartupMachine → Prop} {C : StartupMachine → Prop}
    (hdone : (∀ receipt, s.receipt = some receipt → receipt.scope = scope) → Q s.receipt s)
    (herr : ∀ e, E e s) (hstop : C s) : wp (readReceiptIfPresent env scope) Q E C s := by
  refine wp_inspect (fun found hfound => ?_) (fun e _ => herr e) (herr _) hstop
  cases hreceipt : s.receipt with
  | none =>
    rw [hreceipt] at hfound hdone
    cases hfound
    exact hdone (by simp)
  | some receipt =>
    rw [hreceipt] at hfound hdone
    obtain ⟨_, hscope, rfl⟩ := checkStoredReceipt_ok hfound
    exact hdone (by rintro _ ⟨⟩; exact hscope)

theorem Custody.nothing_outstanding (h : Custody s)
    (hdone : ∀ receipt, s.receipt = some receipt → receipt.restorationState = .restored) :
    s.outstanding = [] := by
  apply List.eq_nil_iff_forall_not_mem.2
  intro removed hremoved
  obtain ⟨receipt, hreceipt, hstate, _⟩ := h.recorded removed hremoved
  exact hstate (hdone receipt hreceipt)

/-- A restore that completes leaves nothing outstanding. -/
theorem wp_restoreStartupScope (h : Custody s) :
    wp (restoreStartupScope env length scope)
      (fun _ t => RestoreStep s t ∧ t.outstanding = [] ∧ ∀ receipt, s.receipt = some receipt →
        receipt.restorationState = .pending → Present receipt t ∧
          t.receipt = some { receipt with restorationState := .restored })
      (fun _ => RestoreStep s) (RestoreStep s) s := by
  apply wp_bind
  refine wp_readReceiptIfPresent (fun _ => ?_) (fun _ => Or.inl rfl) (Or.inl rfl)
  cases hreceipt : s.receipt with
  | none => exact wp_ret ⟨Or.inl rfl, h.nothing_outstanding (by simp [hreceipt]), by simp⟩
  | some receipt =>
    cases hstate : receipt.restorationState with
    | restored =>
      dsimp only
      rw [hstate]
      refine wp_ret ⟨Or.inl rfl, h.nothing_outstanding ?_, ?_⟩
      · rw [hreceipt]
        rintro _ ⟨⟩
        exact hstate
      · rintro _ ⟨⟩ hpending
        rw [hstate] at hpending
        cases hpending
    | manualRequired =>
      dsimp only
      rw [hstate]
      exact wp_throw (Or.inl rfl)
    | pending =>
      dsimp only
      rw [hstate]
      have hopen : RestoreOpen receipt s s := ⟨Restoring.refl h, hreceipt, hstate⟩
      have hstep : ∀ t, RestoreStop receipt s t → RestoreStep s t :=
        fun t ht => Or.inr ⟨receipt, hreceipt, hstate, ht⟩
      refine wp_mono (wp_restoreStartupWith hopen) ?_ (fun _ => hstep) hstep
      rintro _ t ⟨ht, hpresent, hstored⟩
      refine ⟨hstep t ht, ht.1.custody.nothing_outstanding ?_, ?_⟩
      · rw [hstored]
        rintro _ ⟨⟩
        rfl
      · rintro _ ⟨⟩ _
        exact ⟨hpresent, hstored⟩

end MacTypeControl.Startup
