import MacTypeControl.Storage.Bridge

/-!
# What the bridge leaves in a generation directory

Every step of the bridge, stopped anywhere, changes nothing but the generated profile and the
interrupted writes in the directory of the active runtime.
-/

namespace MacTypeControl.Storage

open Crash Crash.Prog Profile

variable {χ : Type} {env : StorageEnvironment}

/-! ## Directories -/

def Machine.setDirectory (m : Machine χ) (name : String) (d : RuntimeDirectory) : Machine χ :=
  { m with runtimeVersions := Function.update m.runtimeVersions name (some d) }

namespace Machine

variable (m : Machine χ) (name : String) (d e : RuntimeDirectory)

@[simp] theorem setDirectory_self : (m.setDirectory name d).runtimeVersions name = some d :=
  Function.update_self ..

@[simp] theorem setDirectory_setDirectory :
    (m.setDirectory name d).setDirectory name e = m.setDirectory name e := by
  unfold setDirectory
  rw [Function.update_idem]

@[simp] theorem generatedProfile_setDirectory :
    (m.setDirectory name d).generatedProfile name = d.profile := by
  unfold generatedProfile
  rw [setDirectory_self]
  rfl

variable {m name d}

theorem setDirectory_eq_self (h : m.runtimeVersions name = some d) : m.setDirectory name d = m := by
  unfold setDirectory
  rw [← h, Function.update_eq_self]

theorem updateDirectory_eq (h : m.runtimeVersions name = some d)
    (f : RuntimeDirectory → RuntimeDirectory) :
    m.updateDirectory name f = m.setDirectory name (f d) := by
  unfold updateDirectory setDirectory
  rw [h]
  rfl

theorem generatedProfile_eq (h : m.runtimeVersions name = some d) :
    m.generatedProfile name = d.profile := by
  unfold generatedProfile
  rw [h]
  rfl

end Machine

/-- What is found in the directory of an active runtime: nothing foreign, and no more interrupted
writes than leave room for a runtime and its profile. -/
structure Tidy (d : RuntimeDirectory) : Prop where
  foreign : d.foreign = []
  owned : ∀ suffix ∈ d.temporaries, ownedTemporary suffix = true
  room : d.temporaries.length + 6 ≤ maxRuntimeEntriesDuringProfileRecovery

def RuntimeDirectory.setProfile (d : RuntimeDirectory) (profile : Option Bytes) :
    RuntimeDirectory := { d with profile }

def RuntimeDirectory.setTemporaries (d : RuntimeDirectory) (temporaries : List String) :
    RuntimeDirectory := { d with temporaries }

@[simp] theorem RuntimeDirectory.profile_setTemporaries (d : RuntimeDirectory)
    (temporaries : List String) : (d.setTemporaries temporaries).profile = d.profile := rfl

theorem Tidy.setProfile {d : RuntimeDirectory} (h : Tidy d) (profile : Option Bytes) :
    Tidy (d.setProfile profile) := ⟨h.foreign, h.owned, h.room⟩

/-- What the bridge can have left of interrupted writes. -/
def LeftTemporaries (env : StorageEnvironment) (d : RuntimeDirectory) (temporaries : List String) :
    Prop :=
  temporaries.Sublist d.temporaries ∨ temporaries = [env.temporaryNonce]

theorem Tidy.setTemporaries {d : RuntimeDirectory} (h : Tidy d) {temporaries : List String}
    (hleft : LeftTemporaries env d temporaries) : Tidy (d.setTemporaries temporaries) := by
  rcases hleft with hsublist | rfl
  · have hlength := hsublist.length_le
    have hroom := h.room
    refine ⟨h.foreign, fun suffix hsuffix => h.owned suffix (hsublist.subset hsuffix), ?_⟩
    change temporaries.length + 6 ≤ _
    omega
  · refine ⟨h.foreign, fun suffix hsuffix => ?_, ?_⟩
    · rw [List.mem_singleton.1 hsuffix]
      exact env.nonce_owned
    · change 1 + 6 ≤ maxRuntimeEntriesDuringProfileRecovery
      decide

theorem Tidy.entryCount_le {d : RuntimeDirectory} (h : Tidy d) :
    d.entryCount ≤ maxRuntimeEntriesDuringProfileRecovery := by
  have hfiles := d.runtimeFileCount_le
  have hprofile : d.profile.toList.length ≤ 1 := by cases d.profile <;> simp
  have hroom := h.room
  unfold RuntimeDirectory.entryCount
  rw [h.foreign]
  simp only [List.length_nil]
  omega

/-! ## What is read -/

variable {m : Machine χ} {root : String} {d : RuntimeDirectory} {generation : GenerationId}
  {bytes : Bytes}

theorem activeRuntimeRoot_setDirectory (hd : m.runtimeVersions root = some d)
    (e : RuntimeDirectory) : activeRuntimeRoot (m.setDirectory root e) = activeRuntimeRoot m := by
  have hsome : ∀ name, ((m.setDirectory root e).runtimeVersions name).isSome =
      (m.runtimeVersions name).isSome := by
    intro name
    by_cases hname : name = root
    · rw [hname, Machine.setDirectory_self, hd]
      rfl
    · exact congrArg Option.isSome (Function.update_of_ne hname ..)
  have hpointer : (m.setDirectory root e).runtimePointer = m.runtimePointer := rfl
  unfold activeRuntimeRoot
  rw [hpointer]
  cases m.runtimePointer with
  | none => rfl
  | some file =>
    dsimp only
    cases file.parse with
    | none => rfl
    | some version =>
      dsimp only
      rw [hsome]

theorem directory_of_activeRuntimeRoot (h : activeRuntimeRoot m = .ok (some root)) :
    ∃ d, m.runtimeVersions root = some d := by
  unfold activeRuntimeRoot at h
  split at h
  · cases h
  · split at h
    · cases h
    · next version _ =>
      obtain ⟨⟨⟩, hsome, h⟩ := bind_eq_ok.1 h
      cases h
      exact Option.isSome_iff_exists.1 (ok_of_require hsome)

/-- A profile that can be read from beside the DLLs. -/
def BoundedProfile (profile : Option Bytes) : Prop :=
  ∀ bytes, profile = some bytes → bytes ≠ [] ∧ bytes.length ≤ maxProfileBytes

theorem bounded_of_verified (h : verifiedGenerationBytes env m generation = .ok bytes) :
    bytes ≠ [] ∧ bytes.length ≤ maxProfileBytes := by
  unfold verifiedGenerationBytes at h
  split at h
  · cases h
  · obtain ⟨⟨⟩, hbounded, h⟩ := bind_eq_ok.1 h
    obtain ⟨_, _, h⟩ := bind_eq_ok.1 h
    obtain ⟨_, _, h⟩ := bind_eq_ok.1 h
    cases h
    simpa using ok_of_require hbounded

/-! ## Materializing -/

theorem robust_removeOwnedTemporaries (temporaries : List String) :
    ∀ (m : Machine χ) (d : RuntimeDirectory), m.runtimeVersions root = some d →
      d.temporaries = temporaries → (∀ suffix ∈ temporaries, ownedTemporary suffix = true) →
      robust (removeOwnedTemporaries root temporaries)
        (fun _ u => u = m.setDirectory root (d.setTemporaries []))
        (fun u => ∃ left, left.Sublist temporaries ∧
          u = m.setDirectory root (d.setTemporaries left)) m := by
  induction temporaries with
  | nil =>
    intro m d hd hnone _
    have hsame : d.setTemporaries [] = d := by
      unfold RuntimeDirectory.setTemporaries
      rw [← hnone]
    refine robust_ret ?_
    rw [hsame, Machine.setDirectory_eq_self hd]
  | cons suffix rest ih =>
    intro m d hd htemporaries howned
    have hm : m = m.setDirectory root (d.setTemporaries (suffix :: rest)) := by
      have hsame : d.setTemporaries (suffix :: rest) = d := by
        unfold RuntimeDirectory.setTemporaries
        rw [← htemporaries]
      rw [hsame, Machine.setDirectory_eq_self hd]
    have herased : m.updateDirectory root (fun directory =>
        { directory with temporaries := directory.temporaries.erase suffix }) =
        m.setDirectory root (d.setTemporaries rest) := by
      rw [Machine.updateDirectory_eq hd]
      unfold RuntimeDirectory.setTemporaries
      rw [htemporaries, List.erase_cons_head]
    refine robust_bind (robust_ensure (howned suffix List.mem_cons_self) ?_)
    refine robust_bind (robust_modify ?_ ⟨suffix :: rest, List.Sublist.refl _, hm⟩)
    rw [herased]
    refine (ih _ (d.setTemporaries rest) (Machine.setDirectory_self ..) rfl
      fun other hother => howned other (List.mem_cons_of_mem _ hother)).mono ?_ ?_
    · rintro _ u rfl
      exact Machine.setDirectory_setDirectory ..
    · rintro u ⟨left, hsublist, rfl⟩
      exact ⟨left, hsublist.cons suffix, Machine.setDirectory_setDirectory ..⟩

theorem robust_removeInterruptedWrites (hd : m.runtimeVersions root = some d) (htidy : Tidy d) :
    robust (removeInterruptedGeneratedProfileWrites root)
      (fun _ u => u = m.setDirectory root (d.setTemporaries []))
      (fun u => ∃ left, left.Sublist d.temporaries ∧
        u = m.setDirectory root (d.setTemporaries left)) m := by
  have hread : interruptedProfileWrites m root = .ok d.temporaries := by
    unfold interruptedProfileWrites
    rw [hd]
    exact bind_eq_ok.2 ⟨(), require_true _ (decide_eq_true htidy.entryCount_le), rfl⟩
  have hm : m = m.setDirectory root (d.setTemporaries d.temporaries) :=
    (Machine.setDirectory_eq_self hd).symm
  exact robust_bind (robust_inspect hread
    (robust_removeOwnedTemporaries d.temporaries m d hd rfl htidy.owned)
    ⟨d.temporaries, List.Sublist.refl _, hm⟩)

theorem robust_atomicWrite (hd : m.runtimeVersions root = some d) (bytes : Bytes) :
    robust (atomicWriteGeneratedProfile env root bytes)
      (fun _ u => u = m.setDirectory root (d.setProfile (some bytes)))
      (fun u => u = m ∨ u = m.setDirectory root
        (d.setTemporaries (env.temporaryNonce :: d.temporaries))) m := by
  refine robust_step rfl ?_ (Or.inl rfl) fun u hu => Or.inr ?_
  · unfold Machine.setGeneratedProfile
    rw [Machine.updateDirectory_eq hd]
    rfl
  · rw [List.mem_singleton.1 hu, Machine.updateDirectory_eq hd]
    rfl

/-- Materializing a verified generation only fails with the environment. -/
theorem robust_materializeGeneration (hroot : activeRuntimeRoot m = .ok (some root))
    (hd : m.runtimeVersions root = some d) (htidy : Tidy d) (hbounded : BoundedProfile d.profile)
    (hbytes : verifiedGenerationBytes env m generation = .ok bytes) :
    robust (materializeGeneration env generation)
      (fun _ u => u = m.setDirectory root ((d.setProfile (some bytes)).setTemporaries []))
      (fun u => ∃ left, LeftTemporaries env d left ∧
        u = m.setDirectory root (d.setTemporaries left)) m := by
  have hm : m = m.setDirectory root (d.setTemporaries d.temporaries) :=
    (Machine.setDirectory_eq_self hd).symm
  have hleft : ∃ left, LeftTemporaries env d left ∧
      m = m.setDirectory root (d.setTemporaries left) :=
    ⟨d.temporaries, Or.inl (List.Sublist.refl _), hm⟩
  unfold materializeGeneration
  refine robust_bind (robust_inspect hroot ?_ hleft)
  refine robust_bind ((robust_removeInterruptedWrites hd htidy).mono ?_ ?_)
  · rintro _ u rfl
    have hcleared : ∃ left, LeftTemporaries env d left ∧
        m.setDirectory root (d.setTemporaries []) =
          m.setDirectory root (d.setTemporaries left) :=
      ⟨[], Or.inl (List.nil_sublist _), rfl⟩
    refine robust_bind (robust_inspect hbytes ?_ hcleared)
    have hwritten : ∀ u : Machine χ, u = (m.setDirectory root (d.setTemporaries [])).setDirectory
        root ((d.setTemporaries []).setProfile (some bytes)) →
        u = m.setDirectory root ((d.setProfile (some bytes)).setTemporaries []) := by
      rintro u rfl
      exact Machine.setDirectory_setDirectory ..
    cases hprofile : d.profile with
    | none =>
      have hpresent : alreadyMaterialized (m.setDirectory root (d.setTemporaries [])) root bytes =
          .ok false := by
        unfold alreadyMaterialized
        rw [Machine.generatedProfile_setDirectory, RuntimeDirectory.profile_setTemporaries,
          hprofile]
      refine robust_bind (robust_inspect hpresent ?_ hcleared)
      refine robust_bind (robust_whenever (fun _ => (robust_atomicWrite
        (Machine.setDirectory_self ..) bytes).mono (fun _ u hu => robust_ret (hwritten u hu)) ?_)
        fun h => absurd rfl h)
      rintro u (rfl | rfl)
      · exact hcleared
      · exact ⟨[env.temporaryNonce], Or.inr rfl, Machine.setDirectory_setDirectory ..⟩
    | some actual =>
      have hpresent : alreadyMaterialized (m.setDirectory root (d.setTemporaries [])) root bytes =
          .ok (actual == bytes) := by
        unfold alreadyMaterialized
        rw [Machine.generatedProfile_setDirectory, RuntimeDirectory.profile_setTemporaries,
          hprofile]
        have hread := hbounded actual hprofile
        exact bind_eq_ok.2 ⟨actual, readBoundedRegularFile_ok hread.1 hread.2 _, rfl⟩
      refine robust_bind (robust_inspect hpresent ?_ hcleared)
      refine robust_bind (robust_whenever (fun _ => (robust_atomicWrite
        (Machine.setDirectory_self ..) bytes).mono (fun _ u hu => robust_ret (hwritten u hu)) ?_)
        fun h => robust_ret ?_)
      · rintro u (rfl | rfl)
        · exact hcleared
        · exact ⟨[env.temporaryNonce], Or.inr rfl, Machine.setDirectory_setDirectory ..⟩
      · -- The bytes are already in place.
        have hsame : actual = bytes := by simpa using h
        have hsetProfile : d.setProfile (some bytes) = d := by
          unfold RuntimeDirectory.setProfile
          rw [← hsame, ← hprofile]
        rw [hsetProfile]
  · rintro u ⟨left, hsublist, rfl⟩
    exact ⟨left, Or.inl hsublist, rfl⟩

/-- A destination out of bounds is not replaced. -/
theorem wp_materializeGeneration_refused (hroot : activeRuntimeRoot m = .ok (some root))
    (hd : m.runtimeVersions root = some d) (htidy : Tidy d) (hbounded : ¬BoundedProfile d.profile)
    (hbytes : verifiedGenerationBytes env m generation = .ok bytes) :
    wp (materializeGeneration env generation) (fun _ _ => False)
      (fun _ u => ∃ left, LeftTemporaries env d left ∧
        u = m.setDirectory root (d.setTemporaries left))
      (fun u => ∃ left, LeftTemporaries env d left ∧
        u = m.setDirectory root (d.setTemporaries left)) m := by
  have hleft : ∃ left, LeftTemporaries env d left ∧
      m = m.setDirectory root (d.setTemporaries left) :=
    ⟨d.temporaries, Or.inl (List.Sublist.refl _), (Machine.setDirectory_eq_self hd).symm⟩
  have hcleared : ∃ left, LeftTemporaries env d left ∧ m.setDirectory root (d.setTemporaries []) =
      m.setDirectory root (d.setTemporaries left) :=
    ⟨[], Or.inl (List.nil_sublist _), rfl⟩
  have hrefused : ∀ present, alreadyMaterialized (m.setDirectory root (d.setTemporaries []))
      root bytes ≠ .ok present := by
    intro present hpresent
    unfold alreadyMaterialized at hpresent
    rw [Machine.generatedProfile_setDirectory, RuntimeDirectory.profile_setTemporaries]
      at hpresent
    refine hbounded fun actual hactual => ?_
    rw [hactual] at hpresent
    obtain ⟨_, hread, _⟩ := bind_eq_ok.1 hpresent
    obtain ⟨⟨⟩, hwithin, _⟩ := bind_eq_ok.1 hread
    simpa using ok_of_require hwithin
  unfold materializeGeneration
  refine wp_bind (wp_inspect (fun found hfound => ?_) (fun _ _ => hleft) hleft hleft)
  cases hroot.symm.trans hfound
  refine wp_bind (wp_mono (robust_removeInterruptedWrites hd htidy).1 ?_ ?_ ?_)
  · rintro _ u rfl
    refine wp_bind (wp_inspect (fun expected hexpected => ?_) (fun _ _ => hcleared)
      hcleared hcleared)
    cases hbytes.symm.trans hexpected
    exact wp_bind (wp_inspect (fun present hpresent => absurd hpresent (hrefused present))
      (fun _ _ => hcleared) hcleared hcleared)
  · rintro _ u ⟨left, hsublist, rfl⟩
    exact ⟨left, Or.inl hsublist, rfl⟩
  · rintro u ⟨left, hsublist, rfl⟩
    exact ⟨left, Or.inl hsublist, rfl⟩

/-- What a run that materializes a generation has met, and what it leaves. -/
theorem wp_materializeGeneration (hroot : activeRuntimeRoot m = .ok (some root))
    (hd : m.runtimeVersions root = some d) (htidy : Tidy d)
    (hbytes : verifiedGenerationBytes env m generation = .ok bytes) :
    wp (materializeGeneration env generation)
      (fun _ u => BoundedProfile d.profile ∧
        u = m.setDirectory root ((d.setProfile (some bytes)).setTemporaries []))
      (fun _ u => ∃ left, LeftTemporaries env d left ∧
        u = m.setDirectory root (d.setTemporaries left))
      (fun u => ∃ left, LeftTemporaries env d left ∧
        u = m.setDirectory root (d.setTemporaries left)) m := by
  by_cases hbounded : BoundedProfile d.profile
  · exact wp_mono (robust_materializeGeneration hroot hd htidy hbounded hbytes).1
      (fun _ _ hu => ⟨hbounded, hu⟩) (fun _ _ hu => hu) fun _ hu => hu
  · exact wp_mono (wp_materializeGeneration_refused hroot hd htidy hbounded hbytes)
      (fun _ _ hu => hu.elim) (fun _ _ hu => hu) fun _ hu => hu

theorem robust_materializeGeneration_none (hroot : activeRuntimeRoot m = .ok none) :
    robust (materializeGeneration env generation) (fun _ u => u = m) (fun u => u = m) m :=
  robust_bind (robust_inspect hroot (robust_ret rfl) rfl)

/-! ## Materializing, whatever is found -/

section

variable {I : Machine χ → Prop}
  (hI : ∀ m name (f : RuntimeDirectory → RuntimeDirectory), I m → I (m.updateDirectory name f))
include hI

/-- The bridge changes nothing but directories. -/
theorem maintains_interruptedWrites (root : String) :
    Maintains I (removeInterruptedGeneratedProfileWrites root) fun _ => True := by
  have hremove : ∀ temporaries : List String,
      Maintains I (removeOwnedTemporaries root temporaries) fun _ => True := by
    intro temporaries
    induction temporaries with
    | nil => exact maintains_ret trivial
    | cons suffix rest ih =>
      exact maintains_bind maintains_ensure fun _ _ =>
        maintains_bind (maintains_modify fun m hm => hI m _ _ hm) fun _ _ => ih
  exact maintains_bind (P := fun _ => True) (maintains_inspect fun _ _ _ _ => trivial)
    fun temporaries _ => hremove temporaries

theorem maintains_atomicWrite (root : String) (bytes : Bytes) :
    Maintains I (atomicWriteGeneratedProfile env root bytes) fun _ => True := by
  refine maintains_step (fun m _ t hm ht => ?_) fun m hm t ht => ?_
  · cases ht
    exact hI m _ _ hm
  · rw [List.mem_singleton.1 ht]
    exact hI m _ _ hm

theorem maintains_materializeGeneration (generation : GenerationId) :
    Maintains I (materializeGeneration env generation) fun _ => True := by
  unfold materializeGeneration
  refine maintains_bind (maintains_inspect fun _ _ _ _ => trivial) fun found _ => ?_
  cases found with
  | none => exact maintains_ret trivial
  | some root =>
    refine maintains_bind (maintains_interruptedWrites hI root) fun _ _ => ?_
    refine maintains_bind (maintains_inspect fun _ _ _ _ => trivial) fun bytes _ => ?_
    refine maintains_bind (maintains_inspect fun _ _ _ _ => trivial) fun present _ => ?_
    exact maintains_bind (maintains_whenever fun _ => maintains_atomicWrite hI root bytes)
      fun _ _ => maintains_ret trivial

theorem maintains_materializeActive :
    Maintains I (materializeActive env) fun _ => True := by
  unfold materializeActive
  refine maintains_bind (maintains_inspect fun _ _ _ _ => trivial) fun generation _ => ?_
  cases generation with
  | none => exact maintains_ret trivial
  | some generation =>
    exact maintains_bind (maintains_materializeGeneration hI generation) fun _ _ =>
      maintains_ret trivial

end

/-- The active runtime, and the generation whose bytes are to be beside its DLLs. -/
structure Bridges (env : StorageEnvironment) (root : String) (generation : GenerationId)
    (bytes : Bytes) (m : Machine χ) : Prop where
  runtime : activeRuntimeRoot m = .ok (some root)
  profile : verifiedGenerationBytes env m generation = .ok bytes

theorem activeRuntimeRoot_updateDirectory (m : Machine χ) (name : String)
    (f : RuntimeDirectory → RuntimeDirectory) :
    activeRuntimeRoot (m.updateDirectory name f) = activeRuntimeRoot m := by
  cases hd : m.runtimeVersions name with
  | some d => rw [Machine.updateDirectory_eq hd, activeRuntimeRoot_setDirectory hd]
  | none =>
    have hsame : m.updateDirectory name f = m := by
      unfold Machine.updateDirectory
      rw [hd, Option.map_none, ← hd, Function.update_eq_self]
    rw [hsame]

theorem Bridges.updateDirectory (h : Bridges env root generation bytes m) (name : String)
    (f : RuntimeDirectory → RuntimeDirectory) :
    Bridges env root generation bytes (m.updateDirectory name f) :=
  ⟨(activeRuntimeRoot_updateDirectory m name f).trans h.runtime, h.profile⟩

/-- Once a generation is materialized, its bytes are beside the DLLs. -/
theorem wp_materializeGeneration_done
    (hroot : ∀ found, activeRuntimeRoot m = .ok found → found = some root)
    (hbytes : verifiedGenerationBytes env m generation = .ok bytes) :
    wp (materializeGeneration env generation)
      (fun _ u => u.generatedProfile root = some bytes) (fun _ _ => True) (fun _ => True) m := by
  have hkept : ∀ (s : Machine χ) name f, Bridges env root generation bytes s →
      Bridges env root generation bytes (s.updateDirectory name f) :=
    fun _ name f hs => hs.updateDirectory name f
  unfold materializeGeneration
  refine wp_bind (wp_inspect (fun found hfound => ?_) (fun _ _ => trivial) trivial trivial)
  obtain rfl := hroot found hfound
  have hm : Bridges env root generation bytes m := ⟨hfound, hbytes⟩
  refine wp_bind (wp_mono (maintains_interruptedWrites hkept root m hm) ?_ (fun _ _ _ => trivial)
    fun _ _ => trivial)
  rintro _ t ⟨_, ht⟩
  refine wp_bind (wp_inspect (fun expected hexpected => ?_) (fun _ _ => trivial) trivial trivial)
  cases ht.profile.symm.trans hexpected
  refine wp_bind (wp_inspect (fun present hpresent => ?_) (fun _ _ => trivial) trivial trivial)
  refine wp_bind (wp_whenever (fun _ => ?_) fun hpresent' => wp_ret ?_)
  · obtain ⟨d, hd⟩ := directory_of_activeRuntimeRoot ht.runtime
    refine wp_step (fun _ u hu => wp_ret ?_) (fun _ _ => trivial) trivial trivial fun _ _ =>
      ⟨trivial, trivial⟩
    cases hu
    unfold Machine.setGeneratedProfile
    rw [Machine.updateDirectory_eq hd, Machine.generatedProfile_setDirectory]
  · unfold alreadyMaterialized at hpresent
    cases hprofile : t.generatedProfile root with
    | none =>
      rw [hprofile] at hpresent
      cases hpresent
      exact absurd rfl hpresent'
    | some actual =>
      rw [hprofile] at hpresent
      obtain ⟨read, hread, hpresent⟩ := bind_eq_ok.1 hpresent
      obtain ⟨_, _, hread⟩ := bind_eq_ok.1 hread
      cases hread
      cases hpresent
      exact congrArg some (by simpa using hpresent')

theorem wp_materializeActive_done
    (hroot : ∀ found, activeRuntimeRoot m = .ok found → found = some root)
    (hbytes : verifiedGenerationBytes env m generation = .ok bytes)
    (hactive : readOptionalPointer m.activeProfile = .ok (some generation)) :
    wp (materializeActive env) (fun _ u => u.generatedProfile root = some bytes)
      (fun _ _ => True) (fun _ => True) m := by
  unfold materializeActive
  refine wp_bind (wp_inspect (fun found hfound => ?_) (fun _ _ => trivial) trivial trivial)
  cases hactive.symm.trans hfound
  exact wp_bind (wp_mono (wp_materializeGeneration_done hroot hbytes) (fun _ _ hu => wp_ret hu)
    (fun _ _ _ => trivial) fun _ _ => trivial)

/-! ## Clearing -/

/-- Nothing is beside the DLLs, or exactly the given bytes are. -/
def Holds (profile : Option Bytes) (bytes : Bytes) : Prop :=
  profile = none ∨ profile = some bytes

/-- The state a clearing leaves, by its result. -/
def ClearLeaves (m cleared : Machine χ) (clearable : Prop) :
    Except MaterializedProfileClearError Bool → Machine χ → Prop
  | .ok _, u => clearable ∧ u = cleared
  | .error (.unchanged _), u => u = m
  | .error (.unknown _), u => clearable ∧ (u = m ∨ u = cleared)

/-- The deletion of exact bytes, by its result. -/
theorem wp_removeExact (hd : m.runtimeVersions root = some d) {actual : Bytes}
    (hprofile : d.profile = some actual) :
    wp (removeExactMaterializedProfile root bytes)
      (fun result u => ClearLeaves m (m.setDirectory root (d.setProfile none)) (actual = bytes)
        (result.map fun _ => true) u)
      (fun _ _ => False)
      (fun u => u = m ∨ (actual = bytes ∧ u = m.setDirectory root (d.setProfile none))) m := by
  have hcleared : m.setGeneratedProfile root none = m.setDirectory root (d.setProfile none) :=
    Machine.updateDirectory_eq hd _
  unfold removeExactMaterializedProfile
  refine wp_bind (wp_attempt (wp_inspect (fun checked hchecked => ?_) (fun _ _ => wp_ret rfl)
    (wp_ret rfl) (Or.inl rfl)))
  rw [Machine.generatedProfile_eq hd, hprofile] at hchecked
  obtain ⟨_, _, hchecked⟩ := bind_eq_ok.1 hchecked
  have hsame : actual = bytes := beq_iff_eq.1 (ok_of_require hchecked)
  refine wp_bind (wp_attempt (wp_act (fun u hu => ?_) (fun e he => by cases he) ?_ (Or.inl rfl)))
  · cases hu
    rw [hcleared]
    exact ⟨wp_ret ⟨hsame, rfl⟩, wp_ret ⟨hsame, Or.inr rfl⟩, Or.inr ⟨hsame, rfl⟩⟩
  · exact wp_ret ⟨hsame, Or.inl rfl⟩

theorem wp_clearMaterialized (hroot : activeRuntimeRoot m = .ok (some root))
    (hd : m.runtimeVersions root = some d)
    (hbytes : verifiedGenerationBytes env m generation = .ok bytes) :
    wp (clearMaterializedGeneration env generation)
      (ClearLeaves m (m.setDirectory root (d.setProfile none)) (Holds d.profile bytes))
      (fun _ _ => False)
      (fun u => u = m ∨
        (Holds d.profile bytes ∧ u = m.setDirectory root (d.setProfile none))) m := by
  unfold clearMaterializedGeneration
  refine wp_bind (wp_attempt (wp_inspect (fun found hfound => ?_) (fun _ _ => wp_ret rfl)
    (wp_ret rfl) (Or.inl rfl)))
  cases hroot.symm.trans hfound
  refine wp_bind (wp_attempt (wp_inspect (fun present hpresent => ?_) (fun _ _ => wp_ret rfl)
    (wp_ret rfl) (Or.inl rfl)))
  rw [Machine.generatedProfile_eq hd] at hpresent
  cases hpresent
  cases hprofile : d.profile with
  | none =>
    have hsame : m.setDirectory root (d.setProfile none) = m := by
      have hd' : d.setProfile none = d := by
        unfold RuntimeDirectory.setProfile
        rw [← hprofile]
      rw [hd', Machine.setDirectory_eq_self hd]
    exact wp_ret ⟨Or.inl rfl, hsame.symm⟩
  | some actual =>
    refine wp_bind (wp_attempt (wp_inspect (fun expected hexpected => ?_) (fun _ _ => wp_ret rfl)
      (wp_ret rfl) (Or.inl rfl)))
    cases hbytes.symm.trans hexpected
    have hholds : actual = bytes → Holds (some actual) bytes := fun h => Or.inr (congrArg some h)
    refine wp_bind (wp_mono (wp_removeExact hd hprofile) (fun result u hu => ?_)
      (fun _ _ h => h.elim) fun u hu => ?_)
    · rcases result with (e | e) | _
      · exact wp_ret hu
      · exact wp_ret ⟨hholds hu.1, hu.2⟩
      · exact wp_ret ⟨hholds hu.1, hu.2⟩
    · exact hu.imp_right fun h => ⟨hholds h.1, h.2⟩

theorem wp_clearMaterialized_none (hroot : activeRuntimeRoot m = .ok none) :
    wp (clearMaterializedGeneration env generation) (fun _ u => u = m) (fun _ _ => False)
      (fun u => u = m) m := by
  unfold clearMaterializedGeneration
  refine wp_bind (wp_attempt (wp_inspect (fun found hfound => ?_) (fun _ _ => wp_ret rfl)
    (wp_ret rfl) rfl))
  cases hroot.symm.trans hfound
  exact wp_ret rfl

/-- The absence is only reported where there is nothing, or no runtime. -/
theorem ensureAbsent_eq_ok (hroot : activeRuntimeRoot m = .ok (some root)) :
    ensureMaterializedProfileAbsent m = .ok () ↔ m.generatedProfile root = none := by
  unfold ensureMaterializedProfileAbsent
  rw [bind_eq_ok]
  constructor
  · rintro ⟨found, hfound, habsent⟩
    cases hroot.symm.trans hfound
    exact Option.isNone_iff_eq_none.1 (ok_of_require habsent)
  · intro hnone
    exact ⟨some root, hroot, require_true _ (Option.isNone_iff_eq_none.2 hnone)⟩

/-- Without faults exact bytes are cleared, and others are refused. -/
theorem completes_clearMaterialized (hroot : activeRuntimeRoot m = .ok (some root))
    (hd : m.runtimeVersions root = some d)
    (hbytes : verifiedGenerationBytes env m generation = .ok bytes) :
    completes (clearMaterializedGeneration env generation) (fun result u =>
      (Holds d.profile bytes ∧ ∃ cleared, result = .ok cleared) ∨
        (¬Holds d.profile bytes ∧ ∃ e, result = .error (.unchanged e) ∧ u = m)) m := by
  unfold clearMaterializedGeneration
  refine completes_bind (completes_attempt (completes_inspect hroot ?_))
  refine completes_bind (completes_attempt (completes_inspect (a := d.profile.isSome) ?_ ?_))
  · rw [Machine.generatedProfile_eq hd]
  cases hprofile : d.profile with
  | none => exact completes_ret (Or.inl ⟨Or.inl rfl, false, rfl⟩)
  | some actual =>
    refine completes_bind (completes_attempt (completes_inspect hbytes ?_))
    unfold removeExactMaterializedProfile
    by_cases hsame : actual = bytes
    · have hexact := bounded_of_verified hbytes
      have hchecked : (do
          require (actual != [] && decide (actual.length ≤ maxProfileBytes)) (.cleanupUnknown
            "generated runtime profile is not a bounded regular file")
          require (actual == bytes) (.cleanupUnknown
            "generated runtime profile differs from the active generation") :
          Except SetupError Unit) = .ok () := by
        subst hsame
        refine bind_eq_ok.2 ⟨(), require_true _ ?_, require_true _ (beq_iff_eq.2 rfl)⟩
        simp [hexact.1, hexact.2]
      refine completes_bind (completes_bind (completes_attempt (completes_inspect (a := ()) ?_ ?_)))
      · rw [Machine.generatedProfile_eq hd, hprofile]
        exact hchecked
      refine completes_bind (completes_attempt (completes_act rfl (completes_ret ?_)))
      exact completes_ret (Or.inl ⟨Or.inr (congrArg some hsame), true, rfl⟩)
    · have hunlike : (actual == bytes) = false := beq_eq_false_iff_ne.2 hsame
      have hnot : ¬Holds (some actual) bytes := by
        rintro (h | h)
        · cases h
        · exact hsame (Option.some.inj h)
      obtain ⟨e, hrefused⟩ : ∃ e, (do
          require (actual != [] && decide (actual.length ≤ maxProfileBytes)) (.cleanupUnknown
            "generated runtime profile is not a bounded regular file")
          require (actual == bytes) (.cleanupUnknown
            "generated runtime profile differs from the active generation") :
          Except SetupError Unit) = .error e := by
        rw [hunlike]
        cases actual != [] && decide (actual.length ≤ maxProfileBytes) <;> exact ⟨_, rfl⟩
      refine completes_bind (completes_bind (completes_attempt_of_reports
        (reports_inspect (e := e) ?_ ?_)))
      · rw [Machine.generatedProfile_eq hd, hprofile]
        exact hrefused
      · exact completes_ret (completes_ret (Or.inr ⟨hnot, e, rfl, rfl⟩))

/-! ## Restoring -/

/-- A confirmed clearing is undone where nothing foreign has taken the place since. The
write can be caught with part of the content. -/
theorem robust_restoreGeneration (hroot : activeRuntimeRoot m = .ok (some root))
    (hd : m.runtimeVersions root = some d)
    (hbytes : verifiedGenerationBytes env m generation = .ok bytes)
    (hholds : Holds d.profile bytes) :
    robust (restoreGenerationAfterConfirmedClear env generation)
      (fun _ u => u = m.setDirectory root (d.setProfile (some bytes)))
      (fun u => ∃ profile, u = m.setDirectory root (d.setProfile profile)) m := by
  have hsame : ∀ profile, d.profile = profile →
      m = m.setDirectory root (d.setProfile profile) := by
    rintro profile rfl
    exact (Machine.setDirectory_eq_self hd).symm
  have hstart : ∃ profile, m = m.setDirectory root (d.setProfile profile) :=
    ⟨d.profile, hsame _ rfl⟩
  unfold restoreGenerationAfterConfirmedClear
  refine robust_bind (robust_inspect hroot ?_ hstart)
  refine robust_bind (robust_inspect hbytes ?_ hstart)
  refine robust_bind (robust_inspect (a := d.profile) ?_ ?_ hstart)
  · rw [Machine.generatedProfile_eq hd]
  rcases hholds with hnone | hexact
  · rw [hnone]
    refine robust_bind (robust_step rfl (robust_ret (Machine.updateDirectory_eq hd _)) hstart
      fun u hu => ?_)
    obtain ⟨content, _, rfl⟩ := List.mem_map.1 hu
    exact ⟨some content, Machine.updateDirectory_eq hd _⟩
  · have hbounded := bounded_of_verified hbytes
    rw [hexact]
    refine robust_bind (robust_ensure ?_ (robust_bind (robust_ensure (beq_iff_eq.2 rfl)
      (robust_ret (hsame _ hexact)))))
    simp [hbounded.1, hbounded.2]

/-- Foreign bytes are left alone. -/
theorem wp_restoreGeneration_refused (hroot : activeRuntimeRoot m = .ok (some root))
    (hd : m.runtimeVersions root = some d)
    (hbytes : verifiedGenerationBytes env m generation = .ok bytes)
    (hholds : ¬Holds d.profile bytes) :
    wp (restoreGenerationAfterConfirmedClear env generation) (fun _ _ => False)
      (fun _ u => u = m) (fun u => u = m) m := by
  unfold restoreGenerationAfterConfirmedClear
  refine wp_bind (wp_inspect (fun found hfound => ?_) (fun _ _ => rfl) rfl rfl)
  cases hroot.symm.trans hfound
  refine wp_bind (wp_inspect (fun expected hexpected => ?_) (fun _ _ => rfl) rfl rfl)
  cases hbytes.symm.trans hexpected
  refine wp_bind (wp_inspect (fun present hpresent => ?_) (fun _ _ => rfl) rfl rfl)
  rw [Machine.generatedProfile_eq hd] at hpresent
  cases hpresent
  cases hprofile : d.profile with
  | none => exact absurd (Or.inl hprofile) hholds
  | some actual =>
    refine wp_bind (wp_ensure (fun _ => ?_) fun _ => rfl)
    refine wp_bind (wp_ensure (fun hsame => absurd (Or.inr ?_) hholds) fun _ => rfl)
    rw [hprofile, beq_iff_eq.1 hsame]

/-- What a run that restores a generation has met, and what it leaves. -/
theorem wp_restoreGeneration (hroot : activeRuntimeRoot m = .ok (some root))
    (hd : m.runtimeVersions root = some d)
    (hbytes : verifiedGenerationBytes env m generation = .ok bytes) :
    wp (restoreGenerationAfterConfirmedClear env generation)
      (fun _ u => Holds d.profile bytes ∧ u = m.setDirectory root (d.setProfile (some bytes)))
      (fun _ u => ∃ profile, u = m.setDirectory root (d.setProfile profile))
      (fun u => ∃ profile, u = m.setDirectory root (d.setProfile profile)) m := by
  have hsame : m = m.setDirectory root (d.setProfile d.profile) :=
    (Machine.setDirectory_eq_self hd).symm
  by_cases hholds : Holds d.profile bytes
  · exact wp_mono (robust_restoreGeneration hroot hd hbytes hholds).1
      (fun _ _ hu => ⟨hholds, hu⟩) (fun _ _ hu => hu) fun _ hu => hu
  · refine wp_mono (wp_restoreGeneration_refused hroot hd hbytes hholds)
      (fun _ _ hu => hu.elim) ?_ ?_
    · rintro _ u rfl
      exact ⟨d.profile, hsame⟩
    · rintro u rfl
      exact ⟨d.profile, hsame⟩

theorem robust_restoreGeneration_none (hroot : activeRuntimeRoot m = .ok none) :
    robust (restoreGenerationAfterConfirmedClear env generation) (fun _ u => u = m)
      (fun u => u = m) m :=
  robust_bind (robust_inspect hroot (robust_ret rfl) rfl)

end MacTypeControl.Storage
