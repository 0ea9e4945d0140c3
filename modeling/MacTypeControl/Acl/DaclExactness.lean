import MacTypeControl.Acl.DaclBytes
import MacTypeControl.Checks

/-!
# Which bytes are a list of access entries

The parser accepts exactly the bytes that are laid out as a list of entries that allow access, and
it yields their flags, masks and identifiers in order.
-/

namespace MacTypeControl.Acl.DaclBytes

open Platform.BoundedRead (Target)
open Words

/-! ## Reading -/

section

variable {target : Target} {before tail : List UInt8}

theorem byteAt_append (before tail : List UInt8) (index : ℕ) :
    byteAt (before ++ tail) (before.length + index) = byteAt tail index := by
  unfold byteAt
  rw [List.getElem?_append_right (Nat.le_add_right _ _), Nat.add_sub_cancel_left]

theorem slice_append (before tail : List UInt8) (first last : ℕ) :
    slice (before ++ tail) (before.length + first) (before.length + last) =
      slice tail first last := by
  have hrange : before.length + first ≤ before.length + last ∧
      before.length + last ≤ (before ++ tail).length ↔ first ≤ last ∧ last ≤ tail.length := by
    rw [List.length_append]
    omega
  unfold slice
  rw [if_congr hrange rfl rfl, ← List.drop_drop, List.drop_left, Nat.add_sub_add_left]

theorem checked_of_lt {value : ℕ} (h : value < 2 ^ 16) : checked target value = some value := by
  refine if_pos ?_
  cases target <;> simp only [Target.usizeMax] <;> omega

end

/-! ## Identifiers -/

section

variable {windows : SidRoutines} {target : Target} {bytes : List UInt8}

theorem subAuthorities_lt (sid : List UInt8) : subAuthorities sid < 2 ^ 8 := (sid.getD 1 0).toNat_lt

theorem subAuthorities_take {length : ℕ} (h : 2 ≤ length) :
    subAuthorities (bytes.take length) = subAuthorities bytes := by
  unfold subAuthorities
  rw [List.getD_eq_getElem?_getD, List.getD_eq_getElem?_getD, List.getElem?_take, if_pos (by omega)]

theorem fromBoundedBytes_eq (hfixed : sidFixedBytes ≤ bytes.length) :
    ValidatedSid.fromBoundedBytes windows target bytes =
      let length := sidFixedBytes + sidSubAuthorityBytes * subAuthorities bytes
      if bytes.length < length then .error (.invalid .truncatedSid)
      else if windows.isValidSid (bytes.take length) = false then .error (.invalid .invalidSid)
      else if windows.getLengthSid (bytes.take length) ≠ length then .error (.invalid .invalidSid)
      else .ok ⟨bytes.take length⟩ := by
  have hcount := subAuthorities_lt bytes
  have hbyte : byteAt bytes 1 = .ok (bytes.getD 1 0) := by
    unfold byteAt
    have hone : 1 < bytes.length := lt_of_lt_of_le (by decide) hfixed
    rw [List.getElem?_eq_getElem hone, List.getD_eq_getElem?_getD, List.getElem?_eq_getElem hone]
    rfl
  have hlength : (checked target ((bytes.getD 1 0).toNat * sidSubAuthorityBytes)).bind
      (fun tail => checked target (sidFixedBytes + tail)) =
      some (sidFixedBytes + sidSubAuthorityBytes * subAuthorities bytes) := by
    have htail : (bytes.getD 1 0).toNat * sidSubAuthorityBytes =
        sidSubAuthorityBytes * subAuthorities bytes := Nat.mul_comm _ _
    have hsmall : sidFixedBytes + sidSubAuthorityBytes * subAuthorities bytes < 2 ^ 16 := by
      show 8 + 4 * subAuthorities bytes < 2 ^ 16
      omega
    rw [htail, checked_of_lt (by omega), Option.bind_some, checked_of_lt hsmall]
  have hpadding : 4 * ((sidFixedBytes + sidSubAuthorityBytes * subAuthorities bytes + 3) / 4) -
      (sidFixedBytes + sidSubAuthorityBytes * subAuthorities bytes) = 0 := by
    show 4 * ((8 + 4 * subAuthorities bytes + 3) / 4) - (8 + 4 * subAuthorities bytes) = 0
    omega
  unfold ValidatedSid.fromBoundedBytes
  rw [if_neg (not_lt.2 hfixed), hbyte]
  simp only [bind, Except.bind, hlength, hpadding, List.replicate_zero, List.append_nil]
  generalize sidFixedBytes + sidSubAuthorityBytes * subAuthorities bytes = length
  by_cases hshort : bytes.length < length
  · rw [if_pos hshort, if_pos hshort]
  · have hslice : slice bytes 0 length = .ok (bytes.take length) :=
      if_pos ⟨Nat.zero_le _, not_lt.1 hshort⟩
    rw [if_neg hshort, if_neg hshort, hslice]

/-- The parser of identifiers accepts what starts with a well-formed one. -/
theorem fromBoundedBytes_eq_ok (h : windows.Documented) {sid : ValidatedSid} :
    ValidatedSid.fromBoundedBytes windows target bytes = .ok sid ↔
      WellFormedSid windows sid.bytes ∧ sid.bytes <+: bytes := by
  by_cases hfixed : sidFixedBytes ≤ bytes.length
  · rw [fromBoundedBytes_eq hfixed]
    dsimp only
    constructor
    · intro hparsed
      have hcount := @subAuthorities_take bytes
        (sidFixedBytes + sidSubAuthorityBytes * subAuthorities bytes)
        (le_trans (by decide) (Nat.le_add_right sidFixedBytes _))
      split_ifs at hparsed with hshort hvalid hlength
      obtain rfl := Except.ok.inj hparsed
      rw [Bool.not_eq_false] at hvalid
      have hbytes := List.length_take_of_le (not_lt.1 hshort)
      obtain ⟨hknown, hmany⟩ := (h.isValidSid_iff _ (by rw [hcount, hbytes])).1 hvalid
      exact ⟨⟨hknown, hmany, by rw [hcount, hbytes]⟩, List.take_prefix _ _⟩
    · rintro ⟨⟨hknown, hmany, hlength⟩, hprefix⟩
      have htake := List.prefix_iff_eq_take.1 hprefix
      have htwo : 2 ≤ sid.bytes.length := by
        rw [hlength]
        exact le_trans (by decide) (Nat.le_add_right sidFixedBytes _)
      have hcount : subAuthorities sid.bytes = subAuthorities bytes := by
        rw [htake, subAuthorities_take htwo]
      have hvalid : windows.isValidSid sid.bytes = true :=
        (h.isValidSid_iff _ hlength).2 ⟨hknown, hmany⟩
      have hreported := h.getLengthSid_eq _ hvalid
      rw [← hcount, ← hlength, if_neg (not_lt.2 hprefix.length_le), ← htake, hvalid,
        if_neg (by decide), hreported, if_neg (not_not.2 hlength.symm)]
  · unfold ValidatedSid.fromBoundedBytes
    rw [if_pos (not_le.1 hfixed)]
    refine ⟨nofun, ?_⟩
    rintro ⟨⟨-, -, hlength⟩, hprefix⟩
    have hless := hprefix.length_le
    rw [hlength] at hless
    exact absurd ((Nat.le_add_right _ _).trans hless) hfixed

theorem fromBoundedBytes_ne_panicked :
    ValidatedSid.fromBoundedBytes windows target bytes ≠ .error .panicked := by
  by_cases hfixed : sidFixedBytes ≤ bytes.length
  · rw [fromBoundedBytes_eq hfixed]
    dsimp only
    split_ifs <;> exact nofun
  · unfold ValidatedSid.fromBoundedBytes
    rw [if_pos (not_le.1 hfixed)]
    exact nofun

/-! ## Entries -/

variable {before tail rest : List UInt8}

theorem checked_end {target : Target} {value length : ℕ} (hlength : length < 2 ^ 16) :
    (checked target value).filter (· ≤ length) = if value ≤ length then some value else none := by
  by_cases hvalue : value ≤ length
  · rw [checked_of_lt (hvalue.trans_lt hlength), if_pos hvalue]
    simp [Option.filter, hvalue]
  · rw [if_neg hvalue, Option.filter_eq_none_iff]
    intro other hother
    have hsame : other = value := by
      unfold checked at hother
      split_ifs at hother
      exact (Option.some.inj hother).symm
    simpa [hsame] using hvalue

/-- An entry behind other bytes, as long as its first four bytes are there. -/
theorem aceAt_eq {kind flags low high : UInt8} (htail : tail = kind :: flags :: low :: high :: rest)
    (hshort : (before ++ tail).length < 2 ^ 16) :
    aceAt windows target (before ++ tail) before.length =
      let size := fromLeBytes [low, high]
      if size < aceHeaderBytes ∨ size % 4 ≠ 0 then .error (.invalid .invalidAceSize)
      else if tail.length < size then .error (.invalid .aceOutOfRange)
      else if kind ≠ accessAllowedAceKind then .error (.invalid .unsupportedAceType)
      else if size < accessAllowedSidOffset + sidFixedBytes then
        .error (.invalid .invalidAceSize)
      else
        (ValidatedSid.fromBoundedBytes windows target ((rest.drop 4).take (size - 8))).map
          fun trustee =>
            (⟨flags, UInt32.ofNat (fromLeBytes (rest.take 4)), trustee⟩, before.length + size) := by
  have hlength : (before ++ tail).length = before.length + tail.length := List.length_append
  have hfour : tail.length = 4 + rest.length := by
    rw [htail]
    simp only [List.length_cons]
    omega
  have hheader : (checked target (before.length + aceHeaderBytes)).filter
      (· ≤ (before ++ tail).length) = some (before.length + aceHeaderBytes) := by
    rw [checked_end hshort, if_pos]
    show before.length + 4 ≤ _
    omega
  have hkind : byteAt (before ++ tail) before.length = .ok kind := by
    rw [htail]
    exact byteAt_append before _ 0
  have hbyte (index : ℕ) : byteAt (before ++ tail) (before.length + index) = byteAt tail index :=
    byteAt_append before tail index
  unfold aceAt
  rw [hheader]
  simp only [hkind, hbyte, bind, Except.bind]
  rw [htail]
  simp only [byteAt, List.getElem?_cons_succ, List.getElem?_cons_zero]
  rw [← htail]
  generalize fromLeBytes [low, high] = size
  by_cases hsize : size < aceHeaderBytes ∨ size % 4 ≠ 0
  · rw [if_pos hsize, if_pos hsize]
  rw [if_neg hsize, if_neg hsize, checked_end hshort]
  by_cases hroom : tail.length < size
  · rw [if_neg (by omega), if_pos hroom]
  rw [if_pos (by omega), if_neg hroom]
  have hends : ¬before.length + size < before.length + aceHeaderBytes := by
    rw [not_or, not_lt] at hsize
    omega
  simp only [if_neg hends]
  by_cases hallowed : kind = accessAllowedAceKind
  · rw [if_neg (not_not.2 hallowed), if_neg (not_not.2 hallowed)]
    by_cases hsmall : size < accessAllowedSidOffset + sidFixedBytes
    · rw [if_pos hsmall, if_pos hsmall]
    · have hlarge : 16 ≤ size := not_lt.1 hsmall
      have hmask : slice (before ++ tail) (before.length + accessAllowedMaskOffset)
          (before.length + accessAllowedMaskOffset + 4) = .ok (rest.take 4) := by
        rw [Nat.add_assoc, slice_append]
        have hdrop : tail.drop accessAllowedMaskOffset = rest := by rw [htail]; rfl
        unfold slice
        rw [if_pos ⟨by decide, by show 4 + 4 ≤ tail.length; omega⟩, hdrop]
        rfl
      have hsid : slice (before ++ tail) (before.length + accessAllowedSidOffset)
          (before.length + size) = .ok ((rest.drop 4).take (size - 8)) := by
        rw [slice_append]
        have hdrop : tail.drop accessAllowedSidOffset = rest.drop 4 := by rw [htail]; rfl
        unfold slice
        rw [if_pos ⟨by show 8 ≤ size; omega, by omega⟩, hdrop]
        rfl
      rw [if_neg hsmall, if_neg hsmall, hmask, hsid]
      dsimp only
      cases ValidatedSid.fromBoundedBytes windows target ((rest.drop 4).take (size - 8)) <;> rfl
  · rw [if_pos hallowed, if_pos hallowed]

theorem AceEntry.length_bytes (entry : AceEntry windows) : entry.bytes.length = entry.size := by
  simp only [AceEntry.bytes, AceEntry.size, List.length_append, length_toLeBytes, List.length_cons,
    List.length_nil, accessAllowedSidOffset]
  omega

theorem AceEntry.size_ge (entry : AceEntry windows) : 16 ≤ entry.size := by
  have hsid : entry.sid.length = 8 + 4 * subAuthorities entry.sid := entry.wellFormed.2.2
  show 16 ≤ 8 + entry.sid.length + entry.padding.length
  omega

theorem aceAt_truncated (hshort : (before ++ tail).length < 2 ^ 16) (hfew : tail.length < 4) :
    aceAt windows target (before ++ tail) before.length =
      .error (.invalid .truncatedAceHeader) := by
  unfold aceAt
  rw [checked_end hshort, if_neg]
  rw [List.length_append]
  show ¬before.length + 4 ≤ _
  omega

/-- An entry is read where the bytes of one start, and only there. -/
theorem aceAt_eq_ok (h : windows.Documented) (hshort : (before ++ tail).length < 2 ^ 16)
    {ace : AllowedAce} {next : ℕ} :
    aceAt windows target (before ++ tail) before.length = .ok (ace, next) ↔
      ∃ (entry : AceEntry windows) (rest : List UInt8), tail = entry.bytes ++ rest ∧
        ace = entry.ace ∧ next = before.length + entry.size := by
  constructor
  · intro hread
    match htail : tail with
    | [] | [_] | [_, _] | [_, _, _] =>
      rw [aceAt_truncated hshort (by simp)] at hread
      cases hread
    | kind :: flags :: low :: high :: rest =>
      rw [aceAt_eq rfl hshort] at hread
      have hsizeBytes : [low, high] = toLeBytes 2 (fromLeBytes [low, high]) := eq_toLeBytes rfl rfl
      have hsizeLt : fromLeBytes [low, high] < 2 ^ 16 := fromLeBytes_lt [low, high]
      generalize fromLeBytes [low, high] = size at hread hsizeBytes hsizeLt
      dsimp only at hread
      by_cases hsize : size < aceHeaderBytes ∨ size % 4 ≠ 0
      · rw [if_pos hsize] at hread
        cases hread
      rw [if_neg hsize] at hread
      by_cases hroom : (kind :: flags :: low :: high :: rest).length < size
      · rw [if_pos hroom] at hread
        cases hread
      rw [if_neg hroom] at hread
      by_cases hkind : kind = accessAllowedAceKind
      · rw [if_neg (not_not.2 hkind)] at hread
        by_cases hsmall : size < accessAllowedSidOffset + sidFixedBytes
        · rw [if_pos hsmall] at hread
          cases hread
        rw [if_neg hsmall] at hread
        obtain ⟨trustee, htrustee, hace⟩ := map_eq_ok.1 hread
        obtain ⟨rfl, rfl⟩ := Prod.mk.inj hace
        obtain ⟨hwell, padding, hpadding⟩ := (fromBoundedBytes_eq_ok h).1 htrustee
        rw [not_or, not_lt, not_not] at hsize
        rw [not_lt] at hsmall
        simp only [List.length_cons, not_lt] at hroom
        have hlarge : 16 ≤ size := hsmall
        have hsize' : accessAllowedSidOffset + trustee.bytes.length + padding.length = size := by
          have hlengths := congrArg List.length hpadding
          rw [List.length_append, List.length_take, List.length_drop] at hlengths
          show 8 + trustee.bytes.length + padding.length = size
          omega
        have hmaskBytes : rest.take 4 =
            toLeBytes 4 (UInt32.ofNat (fromLeBytes (rest.take 4))).toNat := by
          have hfour : (rest.take 4).length = 4 := List.length_take_of_le (by omega)
          have hlt := fromLeBytes_lt (rest.take 4)
          rw [hfour] at hlt
          rw [UInt32.toNat_ofNat', Nat.mod_eq_of_lt hlt]
          exact eq_toLeBytes hfour rfl
        have hrest : rest = rest.take 4 ++ ((rest.drop 4).take (size - 8) ++
            (rest.drop 4).drop (size - 8)) := by
          rw [List.take_append_drop, List.take_append_drop]
        let entry : AceEntry windows := ⟨flags, UInt32.ofNat (fromLeBytes (rest.take 4)),
          trustee.bytes, padding, hwell, by omega, by omega⟩
        refine ⟨entry, (rest.drop 4).drop (size - 8), ?_, rfl, by rw [← hsize']; rfl⟩
        have hentry : entry.bytes = [accessAllowedAceKind, flags] ++ ([low, high] ++
            (rest.take 4 ++ (rest.drop 4).take (size - 8))) := by
          rw [hsizeBytes, hmaskBytes, ← hpadding, ← hsize']
          rfl
        rw [hentry, hkind]
        simp only [List.append_assoc, List.cons_append, List.nil_append]
        rw [← hrest]
      · rw [if_pos hkind] at hread
        cases hread
  · rintro ⟨entry, rest, rfl, rfl, rfl⟩
    have hsize := entry.size_ge
    have hlength := entry.length_bytes
    have hsizeRead : fromLeBytes [UInt8.ofNat entry.size, UInt8.ofNat (entry.size / 2 ^ 8)] =
        entry.size := @fromLeBytes_toLeBytes 2 entry.size entry.short
    have hparts : entry.bytes ++ rest = accessAllowedAceKind :: entry.flags ::
        UInt8.ofNat entry.size :: UInt8.ofNat (entry.size / 2 ^ 8) ::
          (toLeBytes 4 entry.mask.toNat ++ (entry.sid ++ entry.padding ++ rest)) := by
      simp only [AceEntry.bytes, toLeBytes, List.append_assoc, List.cons_append, List.nil_append]
    rw [aceAt_eq hparts hshort, hsizeRead, List.length_append, hlength]
    have haligned : ¬(entry.size < aceHeaderBytes ∨ entry.size % 4 ≠ 0) := by
      have hmultiple : 4 ∣ entry.size := entry.aligned
      rw [not_or, not_lt, not_not]
      exact ⟨le_trans (by decide) hsize, Nat.mod_eq_zero_of_dvd hmultiple⟩
    have hlarge : ¬entry.size < accessAllowedSidOffset + sidFixedBytes := not_lt.2 hsize
    have hmask : (toLeBytes 4 entry.mask.toNat).length = 4 := length_toLeBytes _ _
    have hsid : (entry.sid ++ entry.padding).length = entry.size - 8 := by
      have hdefinition : entry.size = 8 + entry.sid.length + entry.padding.length := rfl
      rw [List.length_append]
      omega
    have htrustee := (@fromBoundedBytes_eq_ok windows target _ h ⟨entry.sid⟩).2
      ⟨entry.wellFormed, List.prefix_append entry.sid entry.padding⟩
    dsimp only
    rw [if_neg haligned, if_neg (by omega), if_neg (not_not.2 rfl), if_neg hlarge,
      List.take_left' hmask, List.drop_left' hmask, List.take_left' hsid,
      fromLeBytes_toLeBytes entry.mask.toNat_lt, UInt32.ofNat_toNat, htrustee]
    rfl

theorem map_ne_panicked {α β : Type} {x : Except Fault α} (h : x ≠ .error .panicked) (f : α → β) :
    x.map f ≠ .error .panicked := by
  cases x with
  | error fault => exact fun hmap => h (congrArg _ (Except.error.inj hmap))
  | ok value => exact nofun

theorem aceAt_ne_panicked (hshort : (before ++ tail).length < 2 ^ 16) :
    aceAt windows target (before ++ tail) before.length ≠ .error .panicked := by
  match htail : tail with
  | [] | [_] | [_, _] | [_, _, _] =>
    rw [aceAt_truncated hshort (by simp)]
    exact nofun
  | kind :: flags :: low :: high :: rest =>
    rw [aceAt_eq rfl hshort]
    dsimp only
    split_ifs
    · exact nofun
    · exact nofun
    · exact nofun
    · exact nofun
    · exact map_ne_panicked fromBoundedBytes_ne_panicked _

/-! ## Lists -/

/-- The loop yields the entries that follow each other, as many as were stated. -/
theorem acesFrom_eq_ok (h : windows.Documented) (hshort : (before ++ tail).length < 2 ^ 16)
    {count : ℕ} {aces : List AllowedAce} :
    acesFrom windows target (before ++ tail) count before.length = .ok aces ↔
      ∃ (entries : List (AceEntry windows)) (rest : List UInt8), entries.length = count ∧
        tail = entries.flatMap AceEntry.bytes ++ rest ∧ aces = entries.map AceEntry.ace := by
  induction count generalizing before tail aces with
  | zero =>
    rw [acesFrom, Except.ok.injEq]
    constructor
    · rintro rfl
      exact ⟨[], tail, rfl, rfl, rfl⟩
    · rintro ⟨entries, rest, hcount, -, rfl⟩
      rw [List.length_eq_zero_iff.1 hcount]
      rfl
  | succ count ih =>
    have hnext {entry : AceEntry windows} {rest : List UInt8} (htail : tail = entry.bytes ++ rest)
        (aces : List AllowedAce) :
        acesFrom windows target (before ++ tail) count (before.length + entry.size) = .ok aces ↔
          ∃ (entries : List (AceEntry windows)) (rest' : List UInt8), entries.length = count ∧
            rest = entries.flatMap AceEntry.bytes ++ rest' ∧ aces = entries.map AceEntry.ace := by
      rw [htail, ← List.append_assoc] at hshort ⊢
      rw [← entry.length_bytes, ← List.length_append]
      exact ih hshort
    rw [acesFrom, bind_eq_ok]
    constructor
    · rintro ⟨⟨ace, next⟩, hread, hlater⟩
      obtain ⟨entry, rest, htail, rfl, rfl⟩ := (aceAt_eq_ok h hshort).1 hread
      obtain ⟨others, hothers, hresult⟩ := bind_eq_ok.1 hlater
      obtain rfl := Except.ok.inj hresult
      obtain ⟨entries, rest', rfl, rfl, rfl⟩ := (hnext htail others).1 hothers
      refine ⟨entry :: entries, rest', rfl, ?_, rfl⟩
      rw [htail, List.flatMap_cons, List.append_assoc]
    · rintro ⟨entries, rest', hcount, htail, rfl⟩
      obtain ⟨entry, entries, rfl⟩ := List.exists_cons_of_length_eq_add_one hcount
      rw [List.flatMap_cons, List.append_assoc] at htail
      refine ⟨(entry.ace, before.length + entry.size),
        (aceAt_eq_ok h hshort).2 ⟨entry, _, htail, rfl, rfl⟩, ?_⟩
      have hlater := (hnext htail _).2 ⟨entries, rest', Nat.succ.inj hcount, rfl, rfl⟩
      exact bind_eq_ok.2 ⟨_, hlater, rfl⟩

theorem acesFrom_ne_panicked (h : windows.Documented) (hshort : (before ++ tail).length < 2 ^ 16)
    (count : ℕ) :
    acesFrom windows target (before ++ tail) count before.length ≠ .error .panicked := by
  induction count generalizing before tail with
  | zero => exact nofun
  | succ count ih =>
    intro hpanicked
    rw [acesFrom, bind_eq_error] at hpanicked
    rcases hpanicked with hpanicked | ⟨⟨ace, next⟩, hread, hpanicked⟩
    · exact aceAt_ne_panicked hshort hpanicked
    · obtain ⟨entry, rest, rfl, -, rfl⟩ := (aceAt_eq_ok h hshort).1 hread
      rw [bind_eq_error] at hpanicked
      rcases hpanicked with hpanicked | ⟨aces, -, hpanicked⟩
      · rw [← List.append_assoc, ← entry.length_bytes, ← List.length_append] at hpanicked
        exact ih (by rwa [List.append_assoc]) hpanicked
      · cases hpanicked

/-- The header of a list behind which the loop starts. -/
theorem fromBytes_eq {revision reserved sizeLow sizeHigh countLow countHigh : UInt8}
    (hbytes : bytes = revision :: reserved :: sizeLow :: sizeHigh :: countLow :: countHigh :: rest)
    (hheader : aclHeaderBytes ≤ bytes.length) :
    ValidatedDacl.fromBytes windows target bytes =
      let size := fromLeBytes [sizeLow, sizeHigh]
      let count := fromLeBytes [countLow, countHigh]
      if size < aclHeaderBytes ∨ bytes.length < size then .error (.invalid .invalidAclSize)
      else if (size - aclHeaderBytes) / aceHeaderBytes < count then
        .error (.invalid .truncatedAceHeader)
      else (acesFrom windows target (bytes.take size) count aclHeaderBytes).map
        ValidatedDacl.mk := by
  unfold ValidatedDacl.fromBytes
  rw [if_neg (not_lt.2 hheader)]
  rw [hbytes]
  simp only [byteAt, List.getElem?_cons_succ, List.getElem?_cons_zero, bind, Except.bind]
  rw [← hbytes]
  generalize fromLeBytes [sizeLow, sizeHigh] = size
  generalize fromLeBytes [countLow, countHigh] = count
  by_cases hsize : size < aclHeaderBytes ∨ bytes.length < size
  · rw [if_pos hsize, if_pos hsize]
  · rw [if_neg hsize, if_neg hsize]
    rw [not_or, not_lt, not_lt] at hsize
    have hslice : slice bytes 0 size = .ok (bytes.take size) := if_pos ⟨Nat.zero_le _, hsize.2⟩
    have hlength : (bytes.take size).length = size := List.length_take_of_le hsize.2
    rw [hslice]
    simp only [hlength, if_neg (not_lt.2 hsize.1)]
    by_cases hcount : (size - aclHeaderBytes) / aceHeaderBytes < count
    · rw [if_pos hcount, if_pos hcount]
    · rw [if_neg hcount, if_neg hcount]
      cases acesFrom windows target (bytes.take size) count aclHeaderBytes <;> rfl

theorem exists_header (hheader : aclHeaderBytes ≤ bytes.length) :
    ∃ revision reserved sizeLow sizeHigh countLow countHigh reservedLow reservedHigh rest,
      bytes = revision :: reserved :: sizeLow :: sizeHigh :: countLow :: countHigh ::
        reservedLow :: reservedHigh :: rest := by
  match bytes with
  | [] | [_] | [_, _] | [_, _, _] | [_, _, _, _] | [_, _, _, _, _] | [_, _, _, _, _, _]
  | [_, _, _, _, _, _, _] => simp [aclHeaderBytes] at hheader
  | _ :: _ :: _ :: _ :: _ :: _ :: _ :: _ :: rest => exact ⟨_, _, _, _, _, _, _, _, rest, rfl⟩

theorem take_header {header : List UInt8} {size : ℕ} (hheader : header.length = 8)
    (hsize : 8 ≤ size) : (header ++ rest).take size = header ++ rest.take (size - 8) := by
  rw [List.take_append, hheader, List.take_of_length_le (by omega)]

theorem fromBytes_short (hshort : bytes.length < aclHeaderBytes) :
    ValidatedDacl.fromBytes windows target bytes = .error (.invalid .aclTooShort) := if_pos hshort

theorem length_flatMap_bytes (entries : List (AceEntry windows)) :
    16 * entries.length ≤ (entries.flatMap AceEntry.bytes).length := by
  induction entries with
  | nil => exact Nat.zero_le _
  | cons entry entries ih =>
    have hentry := entry.size_ge
    rw [List.flatMap_cons, List.length_append, entry.length_bytes, List.length_cons]
    omega

/-- What the parser accepts is laid out as a list. -/
theorem isDacl_of_fromBytes (h : windows.Documented) {dacl : ValidatedDacl}
    (hparsed : ValidatedDacl.fromBytes windows target bytes = .ok dacl) :
    ∃ entries : List (AceEntry windows), IsDacl bytes entries ∧
      dacl.allowedAces = entries.map AceEntry.ace := by
  by_cases hheader : aclHeaderBytes ≤ bytes.length
  · obtain ⟨revision, reserved, sizeLow, sizeHigh, countLow, countHigh, reservedLow, reservedHigh,
      rest, hbytes⟩ := exists_header hheader
    rw [fromBytes_eq hbytes hheader] at hparsed
    have hsizeBytes : [sizeLow, sizeHigh] = toLeBytes 2 (fromLeBytes [sizeLow, sizeHigh]) :=
      eq_toLeBytes rfl rfl
    have hcountBytes : [countLow, countHigh] = toLeBytes 2 (fromLeBytes [countLow, countHigh]) :=
      eq_toLeBytes rfl rfl
    have hsizeLt : fromLeBytes [sizeLow, sizeHigh] < 2 ^ 16 := fromLeBytes_lt [sizeLow, sizeHigh]
    have hcountLt : fromLeBytes [countLow, countHigh] < 2 ^ 16 :=
      fromLeBytes_lt [countLow, countHigh]
    generalize fromLeBytes [sizeLow, sizeHigh] = size at hparsed hsizeBytes hsizeLt
    generalize fromLeBytes [countLow, countHigh] = count at hparsed hcountBytes hcountLt
    dsimp only at hparsed
    split_ifs at hparsed with hsize hcount
    rw [not_or, not_lt, not_lt] at hsize
    have hsmall : 8 ≤ size := hsize.1
    have hlength : bytes.length = 8 + rest.length := by
      rw [hbytes]
      simp only [List.length_cons]
      omega
    have htake : bytes.take size = [revision, reserved, sizeLow, sizeHigh, countLow, countHigh,
        reservedLow, reservedHigh] ++ rest.take (size - 8) := by
      rw [hbytes]
      exact @take_header rest [_, _, _, _, _, _, _, _] size rfl hsmall
    rw [htake] at hparsed
    obtain ⟨aces, haces, rfl⟩ := map_eq_ok.1 hparsed
    obtain ⟨entries, slack, rfl, htail, rfl⟩ := (acesFrom_eq_ok h (by
      rw [← htake, List.length_take]
      omega)).1 haces
    refine ⟨entries, ⟨revision, reserved, size, entries.length, [reservedLow, reservedHigh], slack,
      rest.drop (size - 8), ?_, rfl, rfl, hcountLt, ?_, hsizeLt⟩, rfl⟩
    · rw [← hsizeBytes, ← hcountBytes, hbytes, ← List.append_assoc _ slack, ← htail,
        List.take_append_drop]
      rfl
    · have hlengths := congrArg List.length htail
      rw [List.length_take, List.length_append] at hlengths
      show size = 8 + _ + _
      omega
  · rw [fromBytes_short (not_le.1 hheader)] at hparsed
    cases hparsed

/-- What is laid out as a list is accepted, and its entries are yielded. -/
theorem fromBytes_of_isDacl (h : windows.Documented) {entries : List (AceEntry windows)}
    (hdacl : IsDacl bytes entries) :
    ValidatedDacl.fromBytes windows target bytes = .ok ⟨entries.map AceEntry.ace⟩ := by
  obtain ⟨revision, reserved, size, count, reserved', slack, trailing, hbytes, hreserved, rfl,
    hcountLt, hsize, hsizeLt⟩ := hdacl
  obtain ⟨reservedLow, reservedHigh, rfl⟩ := List.length_eq_two.1 hreserved
  have hentries := length_flatMap_bytes entries
  have hsizeRead : fromLeBytes [UInt8.ofNat size, UInt8.ofNat (size / 2 ^ 8)] = size :=
    @fromLeBytes_toLeBytes 2 size hsizeLt
  have hcountRead : fromLeBytes [UInt8.ofNat entries.length, UInt8.ofNat (entries.length / 2 ^ 8)] =
      entries.length := @fromLeBytes_toLeBytes 2 _ hcountLt
  have hsize' : size = 8 + (entries.flatMap AceEntry.bytes).length + slack.length := hsize
  have happend : bytes = [revision, reserved, UInt8.ofNat size, UInt8.ofNat (size / 2 ^ 8),
      UInt8.ofNat entries.length, UInt8.ofNat (entries.length / 2 ^ 8), reservedLow,
      reservedHigh] ++ ((entries.flatMap AceEntry.bytes ++ slack) ++ trailing) := by
    rw [hbytes, List.append_assoc]
    rfl
  have hlength : bytes.length = size + trailing.length := by
    rw [happend, List.length_append, List.length_append, List.length_append]
    show 8 + _ = _
    omega
  have hheader : aclHeaderBytes ≤ bytes.length := by
    show 8 ≤ _
    omega
  have htake : bytes.take size = [revision, reserved, UInt8.ofNat size, UInt8.ofNat (size / 2 ^ 8),
      UInt8.ofNat entries.length, UInt8.ofNat (entries.length / 2 ^ 8), reservedLow,
      reservedHigh] ++ (entries.flatMap AceEntry.bytes ++ slack) := by
    rw [happend, ← List.append_assoc]
    refine List.take_left' ?_
    rw [List.length_append, List.length_append]
    show 8 + _ = _
    omega
  have hshort : ([revision, reserved, UInt8.ofNat size, UInt8.ofNat (size / 2 ^ 8),
      UInt8.ofNat entries.length, UInt8.ofNat (entries.length / 2 ^ 8), reservedLow,
      reservedHigh] ++ (entries.flatMap AceEntry.bytes ++ slack)).length < 2 ^ 16 := by
    rw [← htake]
    exact lt_of_le_of_lt (List.length_take_le _ _) hsizeLt
  have haces := (@acesFrom_eq_ok windows target _ _ h hshort entries.length _).2
    ⟨entries, slack, rfl, rfl, rfl⟩
  have hfits : ¬(size < aclHeaderBytes ∨ bytes.length < size) := by
    rw [not_or, not_lt, not_lt]
    exact ⟨by show 8 ≤ size; omega, by omega⟩
  have hcount : ¬(size - aclHeaderBytes) / aceHeaderBytes < entries.length := by
    show ¬(size - 8) / 4 < entries.length
    omega
  rw [fromBytes_eq happend hheader, hsizeRead, hcountRead]
  dsimp only
  rw [if_neg hfits, if_neg hcount, htake]
  exact map_eq_ok.2 ⟨_, haces, rfl⟩

/-- No index of the parser is out of range, and no assertion fails. -/
theorem fromBytes_ne_panicked (h : windows.Documented) :
    ValidatedDacl.fromBytes windows target bytes ≠ .error .panicked := by
  by_cases hheader : aclHeaderBytes ≤ bytes.length
  · obtain ⟨revision, reserved, sizeLow, sizeHigh, countLow, countHigh, reservedLow, reservedHigh,
      rest, hbytes⟩ := exists_header hheader
    have hsizeLt : fromLeBytes [sizeLow, sizeHigh] < 2 ^ 16 := fromLeBytes_lt [sizeLow, sizeHigh]
    rw [fromBytes_eq hbytes hheader]
    generalize fromLeBytes [sizeLow, sizeHigh] = size at hsizeLt
    dsimp only
    split_ifs with hsize hcount
    · exact nofun
    · exact nofun
    · rw [not_or, not_lt] at hsize
      have htake : bytes.take size = [revision, reserved, sizeLow, sizeHigh, countLow, countHigh,
          reservedLow, reservedHigh] ++ rest.take (size - 8) := by
        rw [hbytes]
        exact @take_header rest [_, _, _, _, _, _, _, _] size rfl hsize.1
      have hshort : (bytes.take size).length < 2 ^ 16 :=
        lt_of_le_of_lt (List.length_take_le _ _) hsizeLt
      rw [htake] at hshort ⊢
      exact map_ne_panicked (acesFrom_ne_panicked h hshort _) _
  · rw [fromBytes_short (not_le.1 hheader)]
    exact nofun

/-- The parser of lists never reads outside the bytes. It accepts exactly what is laid out as a list
of entries that allow access, and yields the flags, masks and identifiers of these in order. -/
theorem fromBytes_exact (windows : SidRoutines) (h : windows.Documented) (target : Target)
    (bytes : List UInt8) :
    ValidatedDacl.fromBytes windows target bytes ≠ .error .panicked ∧
      ∀ dacl, ValidatedDacl.fromBytes windows target bytes = .ok dacl ↔
        ∃ entries : List (AceEntry windows), IsDacl bytes entries ∧
          dacl.allowedAces = entries.map AceEntry.ace := by
  refine ⟨fromBytes_ne_panicked h, fun dacl => ⟨isDacl_of_fromBytes h, ?_⟩⟩
  rintro ⟨entries, hdacl, haces⟩
  rw [fromBytes_of_isDacl h hdacl, ← haces]

end

/-- A list with one entry, which is for the system. -/
theorem fromBytes_exact_system :
    let bytes : List UInt8 := [2, 0, 28, 0, 1, 0, 0, 0, 0, 16, 20, 0, 1, 0, 31, 0, 1, 1, 0, 0, 0, 0, 0,
      5, 18, 0, 0, 0]
    ∃ entries : List (AceEntry SidRoutines.revisionOne), IsDacl bytes entries ∧
      [⟨16, 0x001F0001, ⟨[1, 1, 0, 0, 0, 0, 0, 5, 18, 0, 0, 0]⟩⟩] = entries.map AceEntry.ace :=
  ((fromBytes_exact SidRoutines.revisionOne SidRoutines.revisionOne_documented .x64 _).2
    ⟨[⟨16, 0x001F0001, ⟨[1, 1, 0, 0, 0, 0, 0, 5, 18, 0, 0, 0]⟩⟩]⟩).1 (by rfl)

end MacTypeControl.Acl.DaclBytes
