import Mathlib.Data.List.Basic
import Mathlib.Tactic.Common

/-!
# Access to an object with a descriptor

A descriptor names an owner and a discretionary list of entries. The first entry that applies
to a token and has a right decides about it, and the owner may rewrite the list whatever it says.
-/

namespace MacTypeControl.Acl

/-- A security identifier in its string form. -/
abbrev Sid := String

abbrev Mask := BitVec 32

inductive AceKind where
  | allowed
  | denied
  | other
  deriving DecidableEq

structure Ace where
  kind : AceKind
  flags : BitVec 8
  mask : Mask
  trustee : Sid
  deriving DecidableEq

structure Descriptor where
  owner : Sid
  dacl : Option (List Ace)
  daclProtected : Bool
  deriving DecidableEq

/-- The identifiers a principal carries. -/
abbrev Token := Sid → Bool

def inheritOnlyAce : BitVec 8 := 0x08

def Ace.appliesToCurrentObject (ace : Ace) : Bool := ace.flags &&& inheritOnlyAce == 0

def fileGenericRead : Mask := 0x00120089

def fileGenericWrite : Mask := 0x00120116

def fileGenericExecute : Mask := 0x001200A0

def fileAllAccess : Mask := 0x001F01FF

def genericRead : Mask := 0x80000000

def genericWrite : Mask := 0x40000000

def genericExecute : Mask := 0x20000000

def genericAll : Mask := 0x10000000

/-- The rights of a mask on a file, with the generic ones mapped to what they mean there. -/
def effective (mask : Mask) : Mask :=
  mask ||| (if mask &&& genericRead == 0 then 0 else fileGenericRead) |||
    (if mask &&& genericWrite == 0 then 0 else fileGenericWrite) |||
    (if mask &&& genericExecute == 0 then 0 else fileGenericExecute) |||
    (if mask &&& genericAll == 0 then 0 else fileAllAccess)

def readControl : ℕ := 17

def writeDac : ℕ := 18

/-- The rights to write an object (its data, its attributes, its children), to delete it and to
change its permissions or its owner, as bits of a mask. -/
def writerRights : List ℕ := [1, 2, 4, 6, 8, 16, writeDac, 19]

/-- The identifier that stands for the owner in an entry. An entry for it replaces what the
owner may do by itself. -/
def ownerRightsSid : Sid := "S-1-3-4"

namespace Descriptor

/-- The trustees an entry can have to concern a token. -/
def concerns (descriptor : Descriptor) (token : Token) (trustee : Sid) : Bool :=
  token trustee || (trustee == ownerRightsSid && token descriptor.owner)

def grantedBy (descriptor : Descriptor) (token : Token) (right : ℕ) (aces : List Ace) : Bool :=
  match aces.find? fun ace => ace.appliesToCurrentObject &&
      descriptor.concerns token ace.trustee && (effective ace.mask).getLsbD right with
  | some ace => ace.kind == .allowed
  | none => false

def grantedToOwner (descriptor : Descriptor) (token : Token) (right : ℕ) (aces : List Ace) : Bool :=
  token descriptor.owner && (right == readControl || right == writeDac) &&
    !aces.any fun ace => ace.appliesToCurrentObject && ace.trustee == ownerRightsSid

/-- Whether the token has a right on the object. Without a list everything is granted. -/
def grants (descriptor : Descriptor) (token : Token) (right : ℕ) : Bool :=
  match descriptor.dacl with
  | none => true
  | some aces => descriptor.grantedBy token right aces || descriptor.grantedToOwner token right aces

/-- The token has one of the rights of a writer. -/
def WritableBy (descriptor : Descriptor) (token : Token) : Prop :=
  ∃ right ∈ writerRights, descriptor.grants token right = true

section

variable {descriptor : Descriptor} {token : Token} {right : ℕ} {aces : List Ace}

/-- A right that the list grants comes from an entry of the list. -/
theorem exists_of_grantedBy (h : descriptor.grantedBy token right aces = true) :
    ∃ ace ∈ aces, descriptor.concerns token ace.trustee = true ∧
      (effective ace.mask).getLsbD right = true := by
  unfold grantedBy at h
  revert h
  cases hfound : aces.find? fun ace => ace.appliesToCurrentObject &&
      descriptor.concerns token ace.trustee && (effective ace.mask).getLsbD right with
  | none => intro h; cases h
  | some ace =>
    intro _
    have hsome := List.find?_some hfound
    simp only [Bool.and_eq_true] at hsome
    exact ⟨ace, List.mem_of_find?_eq_some hfound, hsome.1.2, hsome.2⟩

/-- The owner can rewrite the list, unless the list has an entry for the owner. -/
theorem grants_writeDac_of_owner (hdacl : descriptor.dacl = some aces)
    (howner : token descriptor.owner = true) (hnone : ∀ ace ∈ aces, ace.trustee ≠ ownerRightsSid) :
    descriptor.grants token writeDac = true := by
  have hany : (aces.any fun ace => ace.appliesToCurrentObject && ace.trustee == ownerRightsSid) =
      false := by
    rw [List.any_eq_false]
    intro ace hace
    simp [hnone ace hace]
  unfold grants grantedToOwner
  rw [hdacl]
  dsimp only
  rw [howner, hany]
  simp

/-- A token that no entry of the list concerns with a right, and that is not the owner, has
the right from nowhere. -/
theorem not_grants (hdacl : descriptor.dacl = some aces) (howner : token descriptor.owner = false)
    (hnone : ∀ ace ∈ aces, token ace.trustee = true → (effective ace.mask).getLsbD right = false) :
    descriptor.grants token right = false := by
  have hlist : descriptor.grantedBy token right aces = false := by
    rw [← Bool.not_eq_true]
    intro hgranted
    obtain ⟨ace, hace, hconcerns, hright⟩ := exists_of_grantedBy hgranted
    unfold concerns at hconcerns
    rw [howner, Bool.and_false, Bool.or_false] at hconcerns
    rw [hnone ace hace hconcerns] at hright
    cases hright
  unfold grants grantedToOwner
  rw [hdacl]
  dsimp only
  rw [hlist, howner]
  simp

end

end Descriptor

end MacTypeControl.Acl
