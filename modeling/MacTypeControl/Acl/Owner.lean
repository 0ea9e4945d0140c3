import Mathlib.Data.List.Induction
import MacTypeControl.Acl.Harden

/-!
# Who can write the hardened tree

A verified list leaves nothing to write to anybody but the two writers. The owner is neither
reset nor verified, so the tree has no other writer exactly where its entries had none for owner.
-/

namespace MacTypeControl.Acl

namespace System

variable {system : System} {tree : Tree} {n n' : ℕ} {path : Path}

/-! ## The calls in their order -/

theorem gone_mono {m : ℕ} (hle : n ≤ m) (h : system.gone n path = true) :
    system.gone m path = true := by
  induction hle with
  | refl => exact h
  | step _ ih => exact system.stays _ _ ih

/-- The entry is in the tree, and it is not gone by call number `n`. -/
def Live (system : System) (tree : Tree) (n : ℕ) (path : Path) : Prop :=
  (tree.entry path).isSome = true ∧ system.gone n path = false

theorem Live.earlier (h : system.Live tree n' path) (hle : n ≤ n') : system.Live tree n path := by
  refine ⟨h.1, ?_⟩
  rw [← Bool.not_eq_true]
  intro hgone
  have hlater := gone_mono hle hgone
  rw [h.2] at hlater
  cases hlater

theorem Live.present (h : system.Live tree n path) :
    system.present tree n path = tree.entry path := by
  unfold System.present
  rw [h.2]
  rfl

theorem Live.dropName {name : String} (h : system.Live tree n (path ++ [name])) :
    system.Live tree n path := by
  obtain ⟨entry, hentry, -⟩ := tree.parent path name h.1
  refine ⟨by rw [hentry]; rfl, ?_⟩
  rw [← Bool.not_eq_true]
  intro hgone
  have hbelow := system.subtree n path name hgone
  rw [h.2] at hbelow
  cases hbelow

theorem Live.ofPrefix {whole : Path} (h : system.Live tree n whole) (hbelow : path <+: whole) :
    system.Live tree n path := by
  obtain ⟨suffix, rfl⟩ := hbelow
  induction suffix using List.reverseRecOn with
  | nil => rwa [List.append_nil] at h
  | append_singleton suffix name ih =>
    rw [← List.append_assoc] at h
    exact ih h.dropName

theorem le_rejectReparse (paths : List Path) : n ≤ (system.rejectReparse tree n paths).2 := by
  induction paths generalizing n with
  | nil => exact Nat.le_refl n
  | cons ancestor rest ih =>
    unfold rejectReparse
    split
    · rcases system.isReparsePoint tree (n + 1) ancestor with _ | _ | _ <;> dsimp only
      · omega
      · have hrest := ih (n := n + 2)
        omega
      · omega
    · have hrest := ih (n := n + 1)
      omega

/-- A child that is confirmed to be gone was looked for and not found. -/
theorem confirmsDisappearedChild_true {error : SetupError}
    (h : system.confirmsDisappearedChild tree n path error = (true, n')) :
    n ≤ n' ∧ system.present tree n path = none := by
  unfold confirmsDisappearedChild at h
  rcases error with code | _ | _ | _
  · dsimp only at h
    split at h
    · revert h
      unfold symlinkMetadata call
      cases hfault : system.fault n with
      | some code' =>
        intro h
        have hfound := system.found n code' hfault
        dsimp only at h
        rw [hfound] at h
        cases congrArg Prod.fst h
      | none =>
        cases hpresent : system.present tree n path with
        | none =>
          intro h
          have hn : n + 1 = n' := congrArg Prod.snd h
          exact ⟨by omega, rfl⟩
        | some entry =>
          intro h
          cases congrArg Prod.fst h
    · cases congrArg Prod.fst h
  all_goals cases congrArg Prod.fst h

theorem le_confirmsDisappearedChild (error : SetupError) :
    n ≤ (system.confirmsDisappearedChild tree n path error).2 := by
  unfold confirmsDisappearedChild
  rcases error with code | _ | _ | _
  · dsimp only
    split
    · rcases system.symlinkMetadata tree n path with _ | _ <;> exact Nat.le_succ n
    · exact Nat.le_refl n
  all_goals exact Nat.le_refl n

/-! ## Listing -/

/-- What becomes of a path where a call for it fails. -/
def passOver (system : System) (tree : Tree) (path : Path) (m : ℕ) (error : SetupError) :
    Except SetupError (Option (List Path)) × ℕ :=
  if path ≠ [] then
    match system.confirmsDisappearedChild tree m path error with
    | (true, n) => (.ok none, n)
    | (false, n) => (.error error, n)
  else (.error error, m)

theorem passOver_ok {m : ℕ} {error : SetupError} {listed : Option (List Path)}
    (h : system.passOver tree path m error = (.ok listed, n')) :
    m ≤ n' ∧ listed = none ∧ ∃ k, k ≤ n' ∧ system.present tree k path = none := by
  unfold passOver at h
  split at h
  · cases hconfirmed : system.confirmsDisappearedChild tree m path error with
    | mk confirmed m' =>
      rw [hconfirmed] at h
      cases confirmed with
      | true =>
        obtain ⟨hm, hgone⟩ := confirmsDisappearedChild_true hconfirmed
        cases h
        exact ⟨hm, rfl, m, hm, hgone⟩
      | false => cases congrArg Prod.fst h
  · cases congrArg Prod.fst h

theorem le_passOver {m : ℕ} {error : SetupError} :
    m ≤ (system.passOver tree path m error).2 := by
  unfold passOver
  split
  · have hconfirms := @le_confirmsDisappearedChild system tree m path error
    revert hconfirms
    rcases system.confirmsDisappearedChild tree m path error with ⟨_ | _, m'⟩ <;> exact id
  · exact Nat.le_refl m

/-- What a path is looked at for: it is confirmed to be gone, or its children are listed. -/
theorem inspectPath_ok {listed : Option (List Path)}
    (h : system.inspectPath tree n path = (.ok listed, n')) :
    n ≤ n' ∧
      ((listed = none ∧ ∃ m, m ≤ n' ∧ system.present tree m path = none) ∨
        ∃ children, listed = some children ∧
          ∀ name, system.Live tree n' (path ++ [name]) → path ++ [name] ∈ children) := by
  unfold inspectPath at h
  have hle := @le_rejectReparse system tree n (ancestors path)
  unfold rejectReparseAncestors at h
  revert h hle
  rcases system.rejectReparse tree n (ancestors path) with ⟨error | _, m⟩
  · intro h hle
    have hpass : system.passOver tree path m error = (.ok listed, n') := h
    obtain ⟨hn, hlisted, hgone⟩ := passOver_ok hpass
    exact ⟨Nat.le_trans hle hn, Or.inl ⟨hlisted, hgone⟩⟩
  · intro h hle
    dsimp only at h hle
    cases hmetadata : system.metadata tree m path with
    | error code =>
      rw [hmetadata] at h
      have hpass : system.passOver tree path (m + 1) (.io code) = (.ok listed, n') := h
      obtain ⟨hn, hlisted, hgone⟩ := passOver_ok hpass
      exact ⟨by omega, Or.inl ⟨hlisted, hgone⟩⟩
    | ok isDirectory =>
      rw [hmetadata] at h
      cases isDirectory with
      | false =>
        cases h
        refine ⟨by omega, Or.inr ⟨[], rfl, ?_⟩⟩
        -- Something that lies in it would make it a directory.
        intro name hchild
        obtain ⟨entry, hentry, hkind⟩ := tree.parent path name hchild.1
        have hlive := (hchild.dropName.earlier (Nat.le_succ m)).present
        exfalso
        revert hmetadata
        unfold metadata call
        cases system.fault m with
        | some code => simp
        | none =>
          dsimp only
          rw [hlive, hentry]
          simp [hkind]
      | true =>
        dsimp only at h
        cases hread : system.readDir tree (m + 1) path with
        | error code =>
          rw [hread] at h
          have hpass : system.passOver tree path (m + 2) (.io code) = (.ok listed, n') := h
          obtain ⟨hn, hlisted, hgone⟩ := passOver_ok hpass
          exact ⟨by omega, Or.inl ⟨hlisted, hgone⟩⟩
        | ok children =>
          rw [hread] at h
          cases h
          refine ⟨by omega, Or.inr ⟨children, rfl, ?_⟩⟩
          intro name hchild
          have hnow := hchild.earlier (show m + 1 ≤ m + 2 by omega)
          revert hread
          unfold readDir call
          cases system.fault (m + 1) with
          | some code => simp
          | none =>
            dsimp only
            cases system.present tree (m + 1) path with
            | none => simp
            | some entry =>
              intro hread
              have hchildren := Except.ok.inj hread
              rw [← hchildren, List.mem_filter, hnow.2]
              refine ⟨List.mem_map.2 ⟨name, ?_, rfl⟩, rfl⟩
              exact (tree.mem_children path name).2 hchild.1

theorem le_inspectPath : n ≤ (system.inspectPath tree n path).2 := by
  have hle := @le_rejectReparse system tree n (ancestors path)
  unfold inspectPath rejectReparseAncestors
  revert hle
  rcases system.rejectReparse tree n (ancestors path) with ⟨error | _, m⟩ <;> intro hle
  · exact Nat.le_trans hle le_passOver
  · dsimp only at hle ⊢
    rcases system.metadata tree m path with code | _ | _
    · exact Nat.le_trans (Nat.le_trans hle (Nat.le_succ m)) le_passOver
    · exact Nat.le_trans hle (Nat.le_succ m)
    · dsimp only
      have hread : n ≤ m + 2 := by omega
      rcases system.readDir tree (m + 1) path with code | children
      · exact Nat.le_trans hread le_passOver
      · exact hread

theorem mem_discover {children pending pending' : List Path} {discovered discovered' : ℕ}
    (h : discover children pending discovered = .ok (pending', discovered')) (p : Path) :
    p ∈ pending' ↔ p ∈ pending ∨ p ∈ children := by
  induction children generalizing pending discovered with
  | nil =>
    cases h
    simp
  | cons child children ih =>
    unfold discover at h
    split at h
    · cases h
    · rw [ih h, List.mem_cons, List.mem_cons]
      tauto

theorem le_collectLoop (fuel : ℕ) (pending : List Path) (discovered : ℕ) (result : List Path) :
    n ≤ (system.collectLoop tree fuel n pending discovered result).2 := by
  induction fuel generalizing n pending discovered result with
  | zero => cases pending <;> exact Nat.le_refl n
  | succ fuel ih =>
    cases pending with
    | nil => exact Nat.le_refl n
    | cons path pending =>
      unfold collectLoop
      have hinspect := @le_inspectPath system tree n path
      revert hinspect
      rcases system.inspectPath tree n path with ⟨_ | _ | children, m⟩ <;> intro hinspect <;>
        dsimp only at hinspect ⊢
      · exact hinspect
      · exact Nat.le_trans hinspect (ih _ _ _)
      · cases discover children pending discovered with
        | error _ => exact hinspect
        | ok found => exact Nat.le_trans hinspect (ih _ _ _)

/-- Every path that lies below one of the stack and stays to the end of the listing is listed. -/
theorem collectLoop_complete {last fuel discovered : ℕ} {pending result paths : List Path}
    (h : system.collectLoop tree fuel n pending discovered result = (.ok paths, n'))
    (hn' : n' ≤ last) {p : Path} (hlive : system.Live tree last p)
    (hp : p ∈ result ∨ ∃ q ∈ pending, q <+: p) : p ∈ paths := by
  induction fuel generalizing n pending discovered result with
  | zero =>
    cases pending with
    | nil =>
      cases h
      rcases hp with hresult | ⟨q, hq, -⟩
      · exact List.mem_reverse.2 hresult
      · exact absurd hq List.not_mem_nil
    | cons path pending => cases congrArg Prod.fst h
  | succ fuel ih =>
    cases pending with
    | nil =>
      cases h
      rcases hp with hresult | ⟨q, hq, -⟩
      · exact List.mem_reverse.2 hresult
      · exact absurd hq List.not_mem_nil
    | cons path pending =>
      unfold collectLoop at h
      cases hinspect : system.inspectPath tree n path with
      | mk inspected m =>
        rw [hinspect] at h
        rcases inspected with error | listed
        · cases congrArg Prod.fst h
        · obtain ⟨-, hcases⟩ := inspectPath_ok hinspect
          rcases hcases with ⟨rfl, k, hk, hgone⟩ | ⟨children, rfl, hchildren⟩
          · -- The path that is gone is no prefix of one that stays.
            have hloop := @le_collectLoop system tree m fuel pending
              discovered result
            dsimp only at h
            rw [h] at hloop
            apply ih h
            rcases hp with hresult | ⟨q, hq, hbelow⟩
            · exact Or.inl hresult
            · rcases List.mem_cons.1 hq with rfl | hq
              · have hhere := (hlive.ofPrefix hbelow).earlier
                  (show k ≤ last from Nat.le_trans hk (Nat.le_trans hloop hn'))
                have hthere := hhere.1
                rw [← hhere.present, hgone] at hthere
                cases hthere
              · exact Or.inr ⟨q, hq, hbelow⟩
          · dsimp only at h
            cases hdiscover : discover children pending discovered with
            | error error =>
              rw [hdiscover] at h
              cases congrArg Prod.fst h
            | ok found =>
              rw [hdiscover] at h
              have hloop := @le_collectLoop system tree m fuel found.1
                found.2 (path :: result)
              dsimp only at h
              rw [h] at hloop
              apply ih h
              rcases hp with hresult | ⟨q, hq, hbelow⟩
              · exact Or.inl (List.mem_cons_of_mem _ hresult)
              · rcases List.mem_cons.1 hq with rfl | hq
                · obtain ⟨suffix, hsuffix⟩ := hbelow
                  cases suffix with
                  | nil =>
                    left
                    rw [List.append_nil] at hsuffix
                    exact hsuffix ▸ List.mem_cons_self
                  | cons name suffix =>
                    right
                    have hbelow : q ++ [name] <+: p :=
                      ⟨suffix, by rw [← hsuffix, List.append_assoc]; rfl⟩
                    have hchild := (hlive.ofPrefix hbelow).earlier (Nat.le_trans hloop hn')
                    exact ⟨q ++ [name], (mem_discover hdiscover _).2 (Or.inr (hchildren name hchild)),
                      hbelow⟩
                · exact Or.inr ⟨q, (mem_discover hdiscover _).2 (Or.inl hq), hbelow⟩

/-! ## Verifying -/

/-- An entry for a writer, or one to read and execute only. -/
def Approved (ace : Ace) : Prop :=
  ace.trustee = systemSid ∨ ace.trustee = administratorsSid ∨
    (isReadExecuteMask ace.mask = true ∧ (ace.trustee = usersSid ∨
      ace.trustee = allApplicationPackagesSid ∨
      ace.trustee = allRestrictedApplicationPackagesSid))

theorem checkReader_ok {trustee : String} {ace : Ace} {saw saw' : Bool}
    (h : system.checkReader path trustee ace saw = .ok saw') : isReadExecuteMask ace.mask = true := by
  unfold checkReader at h
  split at h
  · cases h
  · next hmask => simpa using hmask

theorem checkAce_ok {seen seen' : Seen} {ace : Ace} (h : system.checkAce path seen ace = .ok seen') :
    Approved ace := by
  unfold checkAce at h
  split at h
  · next hsystem => exact Or.inl hsystem
  split at h
  · next hadministrators => exact Or.inr (Or.inl hadministrators)
  split at h
  · next husers =>
    obtain ⟨saw, hsaw, -⟩ := bind_eq_ok.1 h
    exact Or.inr (Or.inr ⟨checkReader_ok hsaw, Or.inl husers⟩)
  split at h
  · next hpackages =>
    obtain ⟨saw, hsaw, -⟩ := bind_eq_ok.1 h
    exact Or.inr (Or.inr ⟨checkReader_ok hsaw, Or.inr (Or.inl hpackages)⟩)
  split at h
  · next hrestricted =>
    obtain ⟨saw, hsaw, -⟩ := bind_eq_ok.1 h
    exact Or.inr (Or.inr ⟨checkReader_ok hsaw, Or.inr (Or.inr hrestricted)⟩)
  · cases h

theorem checkAces_ok {seen seen' : Seen} {aces : List Ace}
    (h : system.checkAces path seen aces = .ok seen') : ∀ ace ∈ aces, Approved ace := by
  induction aces generalizing seen with
  | nil => exact fun ace hace => absurd hace List.not_mem_nil
  | cons first aces ih =>
    unfold checkAces at h
    obtain ⟨seen₁, hfirst, hrest⟩ := bind_eq_ok.1 h
    intro ace hace
    rcases List.mem_cons.1 hace with rfl | hace
    · exact checkAce_ok hfirst
    · exact ih hrest ace hace

/-- The list has only entries that the verification approves. -/
def ApprovedDacl (descriptor : Descriptor) : Prop :=
  ∃ aces, descriptor.dacl = some aces ∧ ∀ ace ∈ aces, Approved ace

theorem verifyDescriptor_ok {descriptor : Descriptor} {requireProtected : Bool}
    (h : system.verifyDescriptor path descriptor requireProtected = .ok ()) :
    ApprovedDacl descriptor := by
  unfold verifyDescriptor at h
  obtain ⟨-, -, h⟩ := bind_eq_ok.1 h
  obtain ⟨aces, hdacl, h⟩ := bind_eq_ok.1 h
  obtain ⟨seen, haces, -⟩ := bind_eq_ok.1 h
  unfold validatedDacl at hdacl
  revert hdacl
  cases hlist : descriptor.dacl with
  | none => intro hdacl; cases hdacl
  | some list =>
    dsimp only
    split
    · intro hdacl
      cases hdacl
      exact ⟨aces, hlist, checkAces_ok haces⟩
    · intro hdacl
      cases hdacl

theorem le_verifyAll (paths : List Path) : n ≤ (system.verifyAll tree n paths).2 := by
  induction paths generalizing n with
  | nil => exact Nat.le_refl n
  | cons path paths ih =>
    unfold verifyAll
    rcases system.verifyProtectedAcl tree n path (path == []) with error | _ <;> dsimp only
    · split
      · have hconfirms := @le_confirmsDisappearedChild system tree (n + 1) path error
        revert hconfirms
        rcases system.confirmsDisappearedChild tree (n + 1) path error with ⟨_ | _, m⟩ <;>
          intro hconfirms <;> dsimp only at hconfirms ⊢
        · omega
        · have hrest := ih (n := m)
          omega
      · exact Nat.le_succ n
    · have hrest := ih (n := n + 1)
      omega

/-- An entry that stays is verified as it is. -/
theorem verifyAll_ok {last : ℕ} {paths : List Path}
    (h : system.verifyAll tree n paths = (.ok (), n')) (hn' : n' ≤ last) {entry : Entry}
    (hentry : tree.entry path = some entry) (hlive : system.Live tree last path)
    (hpath : path ∈ paths) : ApprovedDacl entry.descriptor := by
  induction paths generalizing n with
  | nil => exact absurd hpath List.not_mem_nil
  | cons first paths ih =>
    unfold verifyAll at h
    cases hverified : system.verifyProtectedAcl tree n first (first == []) with
    | ok _ =>
      rw [hverified] at h
      have hloop := @le_verifyAll system tree (n + 1) paths
      dsimp only at h
      rw [h] at hloop
      rcases List.mem_cons.1 hpath with rfl | hpath
      · have hhere := hlive.earlier (show n ≤ last by dsimp only at hloop; omega)
        unfold verifyProtectedAcl queryNamedFile call at hverified
        rw [hhere.present, hentry] at hverified
        revert hverified
        cases system.fault n with
        | some code => intro hverified; cases hverified
        | none => exact verifyDescriptor_ok
      · exact ih h hpath
    | error error =>
      rw [hverified] at h
      dsimp only at h
      split at h
      · cases hconfirmed : system.confirmsDisappearedChild tree (n + 1) first error with
        | mk confirmed m =>
          rw [hconfirmed] at h
          cases confirmed with
          | false => cases congrArg Prod.fst h
          | true =>
            obtain ⟨hm, hgone⟩ := confirmsDisappearedChild_true hconfirmed
            have hloop := @le_verifyAll system tree m paths
            dsimp only at h
            rw [h] at hloop
            rcases List.mem_cons.1 hpath with rfl | hpath
            · have hhere := hlive.earlier (show n + 1 ≤ last by dsimp only at hloop; omega)
              have hthere := hhere.1
              rw [← hhere.present, hgone] at hthere
              cases hthere
            · exact ih h hpath
      · cases congrArg Prod.fst h

end System

/-! ## Writers -/

/-- The two principals that may write. -/
def TrustedWriter (sid : Sid) : Prop := sid = systemSid ∨ sid = administratorsSid

/-- Someone other than the system and the administrators can write what the descriptor guards. -/
def HasUntrustedWriter (descriptor : Descriptor) : Prop :=
  ∃ token : Token, token systemSid = false ∧ token administratorsSid = false ∧
    descriptor.WritableBy token

/-- To read and to execute is no right of a writer. -/
theorem readExecute_writes_nothing {mask : Mask} (h : isReadExecuteMask mask = true) {right : ℕ}
    (hright : right ∈ writerRights) : (effective mask).getLsbD right = false := by
  have hmasks : mask = genericRead ||| genericExecute ∨ mask = fileGenericRead ||| fileGenericExecute := by
    simpa [isReadExecuteMask] using h
  have hgeneric : ∀ right ∈ writerRights,
      (effective (genericRead ||| genericExecute)).getLsbD right = false := by decide
  have hfile : ∀ right ∈ writerRights,
      (effective (fileGenericRead ||| fileGenericExecute)).getLsbD right = false := by decide
  rcases hmasks with rfl | rfl
  · exact hgeneric right hright
  · exact hfile right hright

theorem Approved.ne_ownerRights {ace : Ace} (h : System.Approved ace) :
    ace.trustee ≠ ownerRightsSid := by
  rcases h with htrustee | htrustee | ⟨-, htrustee | htrustee | htrustee⟩ <;> rw [htrustee] <;> decide

/-- With an approved list, only the owner can be an untrusted writer. -/
theorem hasUntrustedWriter_iff {descriptor : Descriptor} (h : System.ApprovedDacl descriptor) :
    HasUntrustedWriter descriptor ↔ ¬TrustedWriter descriptor.owner := by
  obtain ⟨aces, hdacl, happroved⟩ := h
  constructor
  · rintro ⟨token, hsystem, hadministrators, right, hright, hgrants⟩ howner
    have hother : token descriptor.owner = false := by
      rcases howner with howner | howner <;> rw [howner] <;> assumption
    have hnone := @Descriptor.not_grants _ _ right _ hdacl hother (by
      intro ace hace hconcerns
      rcases happroved ace hace with htrustee | htrustee | ⟨hmask, -⟩
      · rw [htrustee, hsystem] at hconcerns
        cases hconcerns
      · rw [htrustee, hadministrators] at hconcerns
        cases hconcerns
      · exact readExecute_writes_nothing hmask hright)
    rw [hnone] at hgrants
    cases hgrants
  · intro howner
    -- The owner alone can rewrite the list.
    refine ⟨fun sid => sid == descriptor.owner, ?_, ?_, writeDac, by decide, ?_⟩
    · exact beq_false_of_ne fun h => howner (Or.inl h.symm)
    · exact beq_false_of_ne fun h => howner (Or.inr h.symm)
    · exact Descriptor.grants_writeDac_of_owner hdacl (beq_self_eq_true _)
        fun ace hace => Approved.ne_ownerRights (happroved ace hace)

/-- No entry that is there after so many calls has an untrusted writer. -/
def NoUntrustedWriter (system : System) (tree : Tree) (n : ℕ) : Prop :=
  ∀ path entry, system.present tree n path = some entry → ¬HasUntrustedWriter entry.descriptor

/-- A tree that was hardened was listed, and what was listed was verified after the reset. -/
theorem System.hardenMachineDirectory_ok {system : System} {tree after : Tree} {n : ℕ}
    (h : system.hardenMachineDirectory tree = (.ok (), after, n)) :
    after = system.reset tree ∧ ∃ n₀ n₁ paths,
      system.collectLoop tree maxProtectedTreeEntries n₀ [[]] 1 [] = (.ok paths, n₁) ∧
      system.verifyAll (system.reset tree) (n₁ + 3) paths = (.ok (), n) := by
  unfold System.hardenMachineDirectory System.collectProtectedTree at h
  revert h
  rcases system.rejectReparseAncestors tree 0 [] with ⟨_ | _, n₀⟩
  · intro h
    cases congrArg Prod.fst h
  intro h
  dsimp only at h
  cases hlisted : system.collectLoop tree maxProtectedTreeEntries n₀ [[]] 1 [] with
  | mk listed n₁ =>
    rw [hlisted] at h
    rcases listed with _ | paths
    · cases congrArg Prod.fst h
    dsimp only at h
    revert h
    cases system.fault n₁ with
    | some code =>
      intro h
      cases congrArg Prod.fst h
    | none =>
      rcases system.call tree (n₁ + 1) [] fun _ => .ok () with code | _
      · intro h
        cases congrArg Prod.fst h
      cases system.fault (n₁ + 2) with
      | some code =>
        intro h
        cases congrArg Prod.fst h
      | none =>
        intro h
        dsimp only at h
        rw [Prod.mk.injEq, Prod.mk.injEq] at h
        exact ⟨h.2.1.symm, n₀, n₁, paths, hlisted, Prod.ext h.1 h.2.2⟩

/-- A hardened tree has no untrusted writer exactly where every entry that stayed was owned by
the system or the administrators before. -/
theorem harden_no_untrusted_writer_iff (system : System) (tree : Tree) {after : Tree} {n : ℕ}
    (h : system.hardenMachineDirectory tree = (.ok (), after, n)) :
    NoUntrustedWriter system after n ↔
      ∀ path entry, system.present tree n path = some entry →
        TrustedWriter entry.descriptor.owner := by
  obtain ⟨rfl, n₀, n₁, paths, hlisted, hverified⟩ := System.hardenMachineDirectory_ok h
  have hcalls := @System.le_verifyAll system (system.reset tree) (n₁ + 3)
    paths
  rw [hverified] at hcalls
  have hreset : ∀ {path entry}, system.present tree n path = some entry →
      ∃ entry', system.present (system.reset tree) n path = some entry' ∧
        entry'.descriptor.owner = entry.descriptor.owner ∧
        System.ApprovedDacl entry'.descriptor := by
    intro path entry hpresent
    unfold System.present at hpresent ⊢
    split at hpresent
    · cases hpresent
    · next hthere =>
      have hgone : system.gone n path = false := by simpa using hthere
      have hentry : (system.reset tree).entry path = (tree.entry path).map _ := rfl
      rw [hpresent] at hentry
      have hlive : system.Live tree n path := ⟨by rw [hpresent]; rfl, hgone⟩
      have hlive' : system.Live (system.reset tree) n path := ⟨by rw [hentry]; rfl, hgone⟩
      have hcollected : path ∈ paths := System.collectLoop_complete hlisted
        (show n₁ ≤ n by dsimp only at hcalls; omega) hlive
        (Or.inr ⟨[], List.mem_singleton_self _, List.nil_prefix⟩)
      rw [if_neg hthere]
      exact ⟨_, hentry, rfl,
        System.verifyAll_ok hverified (Nat.le_refl n) hentry hlive' hcollected⟩
  constructor
  · intro hnone path entry hpresent
    obtain ⟨entry', hpresent', howner, happroved⟩ := hreset hpresent
    have hnot := hnone path entry' hpresent'
    rw [hasUntrustedWriter_iff happroved, not_not] at hnot
    exact howner ▸ hnot
  · intro howners path entry' hpresent'
    have hbefore : ∃ entry, system.present tree n path = some entry := by
      unfold System.present System.reset at hpresent'
      unfold System.present
      split at hpresent'
      · cases hpresent'
      · next hthere =>
        rw [if_neg hthere]
        obtain ⟨entry, hentry, -⟩ := Option.map_eq_some_iff.1 hpresent'
        exact ⟨entry, hentry⟩
    obtain ⟨entry, hpresent⟩ := hbefore
    obtain ⟨entry'', hpresent'', howner, happroved⟩ := hreset hpresent
    have hsame : entry'' = entry' := Option.some.inj (hpresent''.symm.trans hpresent')
    subst hsame
    rw [hasUntrustedWriter_iff happroved, not_not, howner]
    exact howners path entry hpresent

/-! ## A file that keeps its owner -/

/-- The list of the machine tree as the root has it, and as it is inherited by a file. -/
def machineAces (inherited : Bool) : List Ace :=
  let flags : BitVec 8 := if inherited then 0x10 else 0x03
  let readExecute :=
    if inherited then fileGenericRead ||| fileGenericExecute else genericRead ||| genericExecute
  [⟨.allowed, flags, fileAllAccess, systemSid⟩, ⟨.allowed, flags, fileAllAccess, administratorsSid⟩,
    ⟨.allowed, flags, readExecute, usersSid⟩,
    ⟨.allowed, flags, readExecute, allApplicationPackagesSid⟩,
    ⟨.allowed, flags, readExecute, allRestrictedApplicationPackagesSid⟩]

/-- Nothing disappears and no call fails. -/
def quietSystem : System where
  gone _ _ := false
  stays _ _ h := by cases h
  subtree _ _ _ h := by cases h
  fault _ := none
  found _ _ h := by cases h
  aboveRoot := .ok ()
  resetDacl path _ := (some (machineAces (path != [])), path == [])
  display path := "\\".intercalate path

/-- A directory with one file in it, which has the given owner. -/
def oneFile (owner : Sid) : Tree where
  entry path :=
    if path = [] then some ⟨.directory, ⟨administratorsSid, none, false⟩⟩
    else if path = ["mactype.dll"] then some ⟨.file, ⟨owner, none, false⟩⟩
    else none
  children path := if path = [] then ["mactype.dll"] else []
  mem_children path name := by
    cases path with
    | nil => by_cases hname : name = "mactype.dll" <;> simp [hname]
    | cons first rest => simp
  parent path name h := by
    cases path with
    | nil => exact ⟨_, rfl, rfl⟩
    | cons first rest => simp at h

theorem harden_oneFile (owner : Sid) :
    quietSystem.hardenMachineDirectory (oneFile owner) =
      (.ok (), quietSystem.reset (oneFile owner), 16) := by
  rfl

/-- A file that an administrator owns has no untrusted writer. -/
theorem harden_no_untrusted_writer_administrators :
    NoUntrustedWriter quietSystem (quietSystem.reset (oneFile administratorsSid)) 16 := by
  refine (harden_no_untrusted_writer_iff quietSystem (oneFile administratorsSid)
    (harden_oneFile administratorsSid)).2 ?_
  intro path entry hpresent
  have hentry : (oneFile administratorsSid).entry path = some entry := hpresent
  unfold oneFile at hentry
  dsimp only at hentry
  split at hentry
  · cases hentry
    exact Or.inr rfl
  split at hentry
  · cases hentry
    exact Or.inr rfl
  · cases hentry

/-- The user who owns a file of the tree can still write it after the tree was hardened. -/
theorem owner_writes_hardened_file :
    quietSystem.hardenMachineDirectory (oneFile "S-1-5-21-1-2-3-1001") =
        (.ok (), quietSystem.reset (oneFile "S-1-5-21-1-2-3-1001"), 16) ∧
      ¬NoUntrustedWriter quietSystem (quietSystem.reset (oneFile "S-1-5-21-1-2-3-1001")) 16 := by
  refine ⟨by rfl, fun hnone => ?_⟩
  apply hnone ["mactype.dll"] _ rfl
  refine ⟨fun sid => sid == "S-1-5-21-1-2-3-1001", by decide, by decide, writeDac, by decide, ?_⟩
  decide

end MacTypeControl.Acl
