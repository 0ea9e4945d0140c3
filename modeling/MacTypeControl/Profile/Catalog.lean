import MacTypeControl.Profile.Pointers
import MacTypeControl.ProfileStore.Store
import MacTypeControl.Tables.Indexed

/-!
# The profile catalog

The published profiles in memory, with the active and the previous one. Whatever was published,
activated and rolled back, the catalog is coherent, and a rollback undoes a rollback.
-/

namespace MacTypeControl.Profile

open Storage Tables
open ProfileStore (SourceMetadata)

structure PublishedProfile where
  bytes : Bytes
  source : SourceMetadata

structure ProfileCatalog where
  generations : Table GenerationId PublishedProfile
  active : Option GenerationId
  previous : Option GenerationId

namespace ProfileCatalog

variable (sha256Digest : Bytes → Digest)

def new : ProfileCatalog := ⟨∅, none, none⟩

def publishMachineProfile (catalog : ProfileCatalog) (profileBytes : Bytes)
    (sourceMetadata : SourceMetadata) : Except ProfileError (GenerationId × ProfileCatalog) := do
  validateProfile profileBytes
  let generation := sha256Digest profileBytes
  match catalog.generations.lookup generation with
  | some _ => .ok (generation, catalog)
  | none => .ok (generation, { catalog with
      generations := catalog.generations.insert generation ⟨profileBytes, sourceMetadata⟩ })

def activateMachineGeneration (catalog : ProfileCatalog) (generation : GenerationId) :
    Except ProfileError ProfileCatalog :=
  if (catalog.generations.lookup generation).isNone then .error .unknownGeneration
  else if catalog.active = some generation then .ok catalog
  else .ok { catalog with active := some generation, previous := catalog.active }

def rollbackMachineGeneration (catalog : ProfileCatalog) :
    Except ProfileError (GenerationId × ProfileCatalog) :=
  match catalog.previous with
  | none => .error .noPreviousGeneration
  | some previous =>
    .ok (previous, { catalog with active := some previous, previous := catalog.active })

end ProfileCatalog

/-! ## Sequences of calls -/

inductive CatalogOperation where
  | publish (profileBytes : Bytes) (sourceMetadata : SourceMetadata)
  | activate (generation : GenerationId)
  | rollback

namespace ProfileCatalog

variable (sha256Digest : Bytes → Digest)

/-- The catalog after a call, which leaves it alone where it fails. -/
def apply (catalog : ProfileCatalog) : CatalogOperation → ProfileCatalog
  | .publish profileBytes sourceMetadata =>
    match catalog.publishMachineProfile sha256Digest profileBytes sourceMetadata with
    | .ok (_, published) => published
    | .error _ => catalog
  | .activate generation =>
    match catalog.activateMachineGeneration generation with
    | .ok activated => activated
    | .error _ => catalog
  | .rollback =>
    match catalog.rollbackMachineGeneration with
    | .ok (_, rolledBack) => rolledBack
    | .error _ => catalog

def after (operations : List CatalogOperation) : ProfileCatalog :=
  operations.foldl (apply sha256Digest) new

def pointers (catalog : ProfileCatalog) : Pointers GenerationId :=
  ⟨catalog.active, catalog.previous⟩

/-- What every sequence of calls leaves. -/
structure Coherent (catalog : ProfileCatalog) : Prop where
  active : ∀ generation, catalog.active = some generation →
    ∃ profile, catalog.generations.lookup generation = some profile
  previous : ∀ generation, catalog.previous = some generation →
    ∃ profile, catalog.generations.lookup generation = some profile
  hashed : ∀ generation profile, catalog.generations.lookup generation = some profile →
    sha256Digest profile.bytes = generation ∧ validateProfile profile.bytes = .ok ()
  pointers : catalog.pointers.Consistent

variable {sha256Digest} {catalog catalog' : ProfileCatalog} {generation : GenerationId}

/-! ## What a call does -/

theorem publishMachineProfile_ok {profileBytes : Bytes} {sourceMetadata : SourceMetadata}
    (h : catalog.publishMachineProfile sha256Digest profileBytes sourceMetadata =
      .ok (generation, catalog')) :
    validateProfile profileBytes = .ok () ∧ generation = sha256Digest profileBytes ∧
      ((∃ profile, catalog.generations.lookup generation = some profile ∧ catalog' = catalog) ∨
        (catalog.generations.lookup generation = none ∧
          catalog' = { catalog with
            generations := catalog.generations.insert generation ⟨profileBytes, sourceMetadata⟩ })) := by
  unfold publishMachineProfile at h
  obtain ⟨⟨⟩, hvalid, h⟩ := bind_eq_ok.1 h
  dsimp only at h
  refine ⟨hvalid, ?_⟩
  cases hlookup : catalog.generations.lookup (sha256Digest profileBytes) with
  | some profile =>
    rw [hlookup] at h
    obtain ⟨rfl, rfl⟩ := Prod.mk.inj (Except.ok.inj h)
    exact ⟨rfl, Or.inl ⟨profile, hlookup, rfl⟩⟩
  | none =>
    rw [hlookup] at h
    obtain ⟨rfl, rfl⟩ := Prod.mk.inj (Except.ok.inj h)
    exact ⟨rfl, Or.inr ⟨hlookup, rfl⟩⟩

theorem activateMachineGeneration_ok
    (h : catalog.activateMachineGeneration generation = .ok catalog') :
    (∃ profile, catalog.generations.lookup generation = some profile) ∧
      ((catalog.active = some generation ∧ catalog' = catalog) ∨
        (catalog.active ≠ some generation ∧
          catalog' = { catalog with active := some generation, previous := catalog.active })) := by
  unfold activateMachineGeneration at h
  split at h
  · cases h
  · next hstored =>
    refine ⟨Option.ne_none_iff_exists'.1 (by simpa using hstored), ?_⟩
    split at h
    · next hactive => exact Or.inl ⟨hactive, (Except.ok.inj h).symm⟩
    · next hactive => exact Or.inr ⟨hactive, (Except.ok.inj h).symm⟩

theorem rollbackMachineGeneration_ok
    (h : catalog.rollbackMachineGeneration = .ok (generation, catalog')) :
    catalog.previous = some generation ∧
      catalog' = { catalog with active := some generation, previous := catalog.active } := by
  unfold rollbackMachineGeneration at h
  split at h
  · cases h
  · next previous hprevious =>
    obtain ⟨rfl, rfl⟩ := Prod.mk.inj (Except.ok.inj h)
    exact ⟨hprevious, rfl⟩

/-! ## The pointers -/

/-- Activation moves the pointers as it does in a profile store. -/
theorem pointers_activate (hpointers : catalog.pointers.Consistent)
    (h : catalog.activateMachineGeneration generation = .ok catalog') :
    catalog'.pointers = catalog.pointers.activate generation := by
  obtain ⟨-, ⟨hactive, rfl⟩ | ⟨hactive, rfl⟩⟩ := activateMachineGeneration_ok h
  · exact (Pointers.activate_of_active hactive).symm
  · have hnew : catalog.pointers.activate generation =
        ⟨some generation, catalog.active.or catalog.previous⟩ := if_neg hactive
    rw [hnew]
    cases hold : catalog.active with
    | none =>
      have hfirst : catalog.previous = none := hpointers.first hold
      simp [pointers, hfirst]
    | some active => rfl

/-- Behind a previous profile there is an active one, and the two change places. -/
theorem pointers_rollback (hpointers : catalog.pointers.Consistent)
    (h : catalog.rollbackMachineGeneration = .ok (generation, catalog')) :
    ∃ active, catalog.active = some active ∧
      catalog.pointers.rollback = some catalog'.pointers := by
  obtain ⟨hprevious, rfl⟩ := rollbackMachineGeneration_ok h
  cases hactive : catalog.active with
  | none =>
    have hfirst : catalog.previous = none := hpointers.first hactive
    rw [hfirst] at hprevious
    cases hprevious
  | some active =>
    refine ⟨active, rfl, ?_⟩
    unfold Pointers.rollback pointers
    dsimp only
    rw [hactive, hprevious]

/-! ## Coherence -/

theorem coherent_new : new.Coherent sha256Digest where
  active _ h := by cases h
  previous _ h := by cases h
  hashed _ _ h := by cases h
  pointers := Pointers.Stored.empty.consistent

theorem Coherent.publish (h : catalog.Coherent sha256Digest) {profileBytes : Bytes}
    {sourceMetadata : SourceMetadata}
    (hpublish : catalog.publishMachineProfile sha256Digest profileBytes sourceMetadata =
      .ok (generation, catalog')) : catalog'.Coherent sha256Digest := by
  obtain ⟨hvalid, rfl, ⟨-, -, rfl⟩ | ⟨hnew, rfl⟩⟩ := publishMachineProfile_ok hpublish
  · exact h
  have hkept : ∀ old, (∃ profile, catalog.generations.lookup old = some profile) →
      ∃ profile, (catalog.generations.insert (sha256Digest profileBytes)
        ⟨profileBytes, sourceMetadata⟩).lookup old = some profile := by
    rintro old ⟨profile, hold⟩
    have hne : old ≠ sha256Digest profileBytes := by
      rintro rfl
      cases hnew.symm.trans hold
    exact ⟨profile, by rw [AList.lookup_insert_ne hne, hold]⟩
  refine ⟨fun old hold => hkept old (h.active old hold),
    fun old hold => hkept old (h.previous old hold), fun old profile hold => ?_, h.pointers⟩
  by_cases heq : old = sha256Digest profileBytes
  · subst heq
    dsimp only at hold
    rw [AList.lookup_insert] at hold
    obtain rfl := Option.some.inj hold
    exact ⟨rfl, hvalid⟩
  · dsimp only at hold
    rw [AList.lookup_insert_ne heq] at hold
    exact h.hashed old profile hold

theorem Coherent.activate (h : catalog.Coherent sha256Digest)
    (hactivate : catalog.activateMachineGeneration generation = .ok catalog') :
    catalog'.Coherent sha256Digest := by
  have hpointers : catalog'.pointers.Consistent := by
    rw [pointers_activate h.pointers hactivate]
    exact h.pointers.activate generation
  obtain ⟨hstored, ⟨-, rfl⟩ | ⟨-, rfl⟩⟩ := activateMachineGeneration_ok hactivate
  · exact h
  · refine ⟨fun active hactive => ?_, h.active, h.hashed, hpointers⟩
    obtain rfl := Option.some.inj hactive
    exact hstored

theorem Coherent.rollback (h : catalog.Coherent sha256Digest)
    (hrollback : catalog.rollbackMachineGeneration = .ok (generation, catalog')) :
    catalog'.Coherent sha256Digest := by
  have hpointers : catalog'.pointers.Consistent := by
    obtain ⟨-, -, hmoved⟩ := pointers_rollback h.pointers hrollback
    exact h.pointers.rollback hmoved
  obtain ⟨hprevious, rfl⟩ := rollbackMachineGeneration_ok hrollback
  refine ⟨fun active hactive => ?_, h.active, h.hashed, hpointers⟩
  obtain rfl := Option.some.inj hactive
  exact h.previous _ hprevious

theorem Coherent.apply (h : catalog.Coherent sha256Digest) (operation : CatalogOperation) :
    (catalog.apply sha256Digest operation).Coherent sha256Digest := by
  cases operation with
  | publish profileBytes sourceMetadata =>
    unfold ProfileCatalog.apply
    dsimp only
    split
    · next hok => exact h.publish hok
    · exact h
  | activate generation =>
    unfold ProfileCatalog.apply
    dsimp only
    split
    · next hok => exact h.activate hok
    · exact h
  | rollback =>
    unfold ProfileCatalog.apply
    dsimp only
    split
    · next hok => exact h.rollback hok
    · exact h

theorem coherent_after (operations : List CatalogOperation) :
    (after sha256Digest operations).Coherent sha256Digest := by
  induction operations using List.reverseRecOn with
  | nil => exact coherent_new
  | append_singleton operations operation ih =>
    unfold after
    rw [List.foldl_append]
    exact ih.apply operation

/-- Bytes that are stored are published without a change, whatever their new metadata. -/
theorem Coherent.publish_stored (h : catalog.Coherent sha256Digest) {profile : PublishedProfile}
    (hstored : catalog.generations.lookup generation = some profile)
    (sourceMetadata : SourceMetadata) :
    catalog.publishMachineProfile sha256Digest profile.bytes sourceMetadata =
      .ok (generation, catalog) := by
  obtain ⟨hdigest, hvalid⟩ := h.hashed generation profile hstored
  unfold publishMachineProfile
  refine bind_eq_ok.2 ⟨(), hvalid, ?_⟩
  dsimp only
  rw [hdigest, hstored]

theorem Coherent.rollback_rollback (h : catalog.Coherent sha256Digest)
    (hprevious : catalog.previous = some generation) :
    ∃ active rolledBack, catalog.active = some active ∧
      catalog.rollbackMachineGeneration = .ok (generation, rolledBack) ∧
      rolledBack.rollbackMachineGeneration = .ok (active, catalog) := by
  have hfirst : catalog.rollbackMachineGeneration = .ok (generation,
      { catalog with active := some generation, previous := catalog.active }) := by
    unfold rollbackMachineGeneration
    rw [hprevious]
  obtain ⟨active, hactive, -⟩ := pointers_rollback h.pointers hfirst
  refine ⟨active, _, hactive, hfirst, ?_⟩
  unfold rollbackMachineGeneration
  dsimp only
  rw [hactive]
  dsimp only
  rw [← hprevious, ← hactive]

end ProfileCatalog

/-- The catalog after any sequence of calls. -/
theorem catalog_law (sha256Digest : Bytes → Digest) (operations : List CatalogOperation) :
    let catalog := ProfileCatalog.after sha256Digest operations
    (∀ generation, catalog.active = some generation ∨ catalog.previous = some generation →
      ∃ profile, catalog.generations.lookup generation = some profile) ∧
    (∀ generation profile, catalog.generations.lookup generation = some profile →
      sha256Digest profile.bytes = generation) ∧
    (∀ generation, catalog.previous = some generation → catalog.active ≠ some generation) ∧
    (∀ generation profile sourceMetadata,
      catalog.generations.lookup generation = some profile →
        catalog.publishMachineProfile sha256Digest profile.bytes sourceMetadata =
          .ok (generation, catalog)) ∧
    ∀ generation, catalog.previous = some generation →
      ∃ active rolledBack, catalog.active = some active ∧
        catalog.rollbackMachineGeneration = .ok (generation, rolledBack) ∧
        rolledBack.rollbackMachineGeneration = .ok (active, catalog) := by
  intro catalog
  have h : catalog.Coherent sha256Digest := ProfileCatalog.coherent_after operations
  refine ⟨fun generation hpointer => hpointer.elim (h.active generation) (h.previous generation),
    fun generation profile hstored => (h.hashed generation profile hstored).1,
    fun generation hprevious hactive => h.pointers.distinct generation hactive hprevious,
    fun generation profile sourceMetadata hstored => h.publish_stored hstored sourceMetadata,
    fun generation hprevious => h.rollback_rollback hprevious⟩

end MacTypeControl.Profile
