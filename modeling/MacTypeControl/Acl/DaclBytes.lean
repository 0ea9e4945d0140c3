import MacTypeControl.Platform.BoundedRead
import MacTypeControl.Words.LittleEndian
import Mathlib.Tactic

/-!
# The bytes of a list of access entries

A list of access entries comes as bytes whose sizes nobody has checked. The parser walks the entries
by the sizes that they state, and each size is bounded by the one around it.
-/

namespace MacTypeControl.Acl.DaclBytes

open Platform.BoundedRead (Target)
open Words

/-! ## Failures -/

inductive AclValidationError where
  | descriptorRange
  | missingDacl
  | missingOwner
  | aclTooShort
  | invalidAclSize
  | truncatedAceHeader
  | invalidAceSize
  | aceOutOfRange
  | unsupportedAceType
  | truncatedSid
  | invalidSid
  deriving DecidableEq

/-- A refusal, or an index out of range or an assertion that fails. -/
inductive Fault where
  | invalid (error : AclValidationError)
  | panicked
  deriving DecidableEq

def byteAt (bytes : List UInt8) (index : ℕ) : Except Fault UInt8 :=
  match bytes[index]? with
  | some byte => .ok byte
  | none => .error .panicked

def slice (bytes : List UInt8) (first last : ℕ) : Except Fault (List UInt8) :=
  if first ≤ last ∧ last ≤ bytes.length then .ok ((bytes.drop first).take (last - first))
  else .error .panicked

/-- An addition or a multiplication that fits a `usize`. -/
def checked (target : Target) (value : ℕ) : Option ℕ :=
  if value ≤ target.usizeMax then some value else none

/-! ## Identifiers -/

/-- `IsValidSid` and `GetLengthSid`, and the revisions that the first knows. -/
structure SidRoutines where
  isValidSid : List UInt8 → Bool
  getLengthSid : List UInt8 → ℕ
  knownRevision : UInt8 → Bool

def sidFixedBytes : ℕ := 8

def sidSubAuthorityBytes : ℕ := 4

/-- The number of sub-authorities that an identifier states. -/
def subAuthorities (sid : List UInt8) : ℕ := (sid.getD 1 0).toNat

structure ValidatedSid where
  bytes : List UInt8
  deriving DecidableEq

def ValidatedSid.fromBoundedBytes (windows : SidRoutines) (target : Target) (bytes : List UInt8) :
    Except Fault ValidatedSid :=
  if bytes.length < sidFixedBytes then .error (.invalid .truncatedSid)
  else do
    let count ← byteAt bytes 1
    match (checked target (count.toNat * sidSubAuthorityBytes)).bind
      (fun tail => checked target (sidFixedBytes + tail)) with
    | none => .error (.invalid .truncatedSid)
    | some length =>
      if bytes.length < length then .error (.invalid .truncatedSid)
      else do
        let copied ← slice bytes 0 length
        -- The copy fills whole words.
        let sid := copied ++ List.replicate (4 * ((length + 3) / 4) - length) 0
        if windows.isValidSid sid = false then .error (.invalid .invalidSid)
        else if windows.getLengthSid sid ≠ length then .error (.invalid .invalidSid)
        else .ok ⟨copied⟩

/-! ## Lists -/

structure AllowedAce where
  flags : UInt8
  mask : UInt32
  trustee : ValidatedSid
  deriving DecidableEq

structure ValidatedDacl where
  allowedAces : List AllowedAce
  deriving DecidableEq

def aclHeaderBytes : ℕ := 8

def aceHeaderBytes : ℕ := 4

def accessAllowedAceKind : UInt8 := 0

def accessAllowedMaskOffset : ℕ := 4

def accessAllowedSidOffset : ℕ := 8

/-- One round of the loop: the entry at an offset, and where it ends. -/
def aceAt (windows : SidRoutines) (target : Target) (bytes : List UInt8) (offset : ℕ) :
    Except Fault (AllowedAce × ℕ) :=
  match (checked target (offset + aceHeaderBytes)).filter (· ≤ bytes.length) with
  | none => .error (.invalid .truncatedAceHeader)
  | some headerEnd => do
    let aceType ← byteAt bytes offset
    let flags ← byteAt bytes (offset + 1)
    let low ← byteAt bytes (offset + 2)
    let high ← byteAt bytes (offset + 3)
    let aceSize := fromLeBytes [low, high]
    if aceSize < aceHeaderBytes ∨ aceSize % 4 ≠ 0 then .error (.invalid .invalidAceSize)
    else
      match (checked target (offset + aceSize)).filter (· ≤ bytes.length) with
      | none => .error (.invalid .aceOutOfRange)
      | some aceEnd =>
        if aceEnd < headerEnd then .error .panicked
        else if aceType ≠ accessAllowedAceKind then .error (.invalid .unsupportedAceType)
        else if aceSize < accessAllowedSidOffset + sidFixedBytes then
          .error (.invalid .invalidAceSize)
        else do
          let maskOffset := offset + accessAllowedMaskOffset
          let mask ← slice bytes maskOffset (maskOffset + 4)
          let sid ← slice bytes (offset + accessAllowedSidOffset) aceEnd
          let trustee ← ValidatedSid.fromBoundedBytes windows target sid
          .ok (⟨flags, UInt32.ofNat (fromLeBytes mask), trustee⟩, aceEnd)

def acesFrom (windows : SidRoutines) (target : Target) (bytes : List UInt8) :
    (count offset : ℕ) → Except Fault (List AllowedAce)
  | 0, _ => .ok []
  | count + 1, offset => do
    let (ace, aceEnd) ← aceAt windows target bytes offset
    let aces ← acesFrom windows target bytes count aceEnd
    .ok (ace :: aces)

def ValidatedDacl.fromBytes (windows : SidRoutines) (target : Target) (bytes : List UInt8) :
    Except Fault ValidatedDacl :=
  if bytes.length < aclHeaderBytes then .error (.invalid .aclTooShort)
  else do
    let sizeLow ← byteAt bytes 2
    let sizeHigh ← byteAt bytes 3
    let aclSize := fromLeBytes [sizeLow, sizeHigh]
    if aclSize < aclHeaderBytes ∨ bytes.length < aclSize then .error (.invalid .invalidAclSize)
    else do
      let countLow ← byteAt bytes 4
      let countHigh ← byteAt bytes 5
      let aceCount := fromLeBytes [countLow, countHigh]
      let bytes ← slice bytes 0 aclSize
      if bytes.length < aclHeaderBytes then .error .panicked
      else if (bytes.length - aclHeaderBytes) / aceHeaderBytes < aceCount then
        .error (.invalid .truncatedAceHeader)
      else do
        let aces ← acesFrom windows target bytes aceCount aclHeaderBytes
        .ok ⟨aces⟩

/-! ## Layout -/

/-- The documented behaviour of the two routines on the bytes of an identifier. -/
structure SidRoutines.Documented (windows : SidRoutines) : Prop where
  isValidSid_iff : ∀ sid, sid.length = sidFixedBytes + sidSubAuthorityBytes * subAuthorities sid →
    (windows.isValidSid sid = true ↔
      windows.knownRevision (sid.headD 0) = true ∧ subAuthorities sid ≤ 15)
  getLengthSid_eq : ∀ sid, windows.isValidSid sid = true →
    windows.getLengthSid sid = sidFixedBytes + sidSubAuthorityBytes * subAuthorities sid

/-- The routines where revision one is the only known one. -/
def SidRoutines.revisionOne : SidRoutines where
  isValidSid sid := sid.headD 0 == 1 && decide (subAuthorities sid ≤ 15)
  getLengthSid sid := sidFixedBytes + sidSubAuthorityBytes * subAuthorities sid
  knownRevision revision := revision == 1

theorem SidRoutines.revisionOne_documented : SidRoutines.revisionOne.Documented where
  isValidSid_iff sid _ := by
    simp only [revisionOne, Bool.and_eq_true, decide_eq_true_iff]
  getLengthSid_eq _ _ := rfl

/-- An identifier has a known revision, at most fifteen sub-authorities, and all of them. -/
def WellFormedSid (windows : SidRoutines) (sid : List UInt8) : Prop :=
  windows.knownRevision (sid.headD 0) = true ∧ subAuthorities sid ≤ 15 ∧
    sid.length = sidFixedBytes + sidSubAuthorityBytes * subAuthorities sid

/-- An entry that allows access, with the bytes behind its identifier. -/
structure AceEntry (windows : SidRoutines) where
  flags : UInt8
  mask : UInt32
  sid : List UInt8
  padding : List UInt8
  wellFormed : WellFormedSid windows sid
  aligned : 4 ∣ accessAllowedSidOffset + sid.length + padding.length
  short : accessAllowedSidOffset + sid.length + padding.length < 2 ^ 16

namespace AceEntry

variable {windows : SidRoutines} (entry : AceEntry windows)

def size : ℕ := accessAllowedSidOffset + entry.sid.length + entry.padding.length

def bytes : List UInt8 :=
  [accessAllowedAceKind, entry.flags] ++ (toLeBytes 2 entry.size ++
    (toLeBytes 4 entry.mask.toNat ++ (entry.sid ++ entry.padding)))

def ace : AllowedAce := ⟨entry.flags, entry.mask, ⟨entry.sid⟩⟩

end AceEntry

/-- The bytes start with a list of these entries, one behind the other, whose stated size fits. -/
def IsDacl {windows : SidRoutines} (bytes : List UInt8) (entries : List (AceEntry windows)) : Prop :=
  ∃ revision reserved size count reserved' slack trailing,
    bytes = [revision, reserved] ++ (toLeBytes 2 size ++ (toLeBytes 2 count ++ (reserved' ++
      (entries.flatMap AceEntry.bytes ++ (slack ++ trailing))))) ∧
    reserved'.length = 2 ∧ count = entries.length ∧ count < 2 ^ 16 ∧
    size = aclHeaderBytes + (entries.flatMap AceEntry.bytes).length + slack.length ∧ size < 2 ^ 16

end MacTypeControl.Acl.DaclBytes
