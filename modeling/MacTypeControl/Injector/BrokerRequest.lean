import MacTypeControl.Injector.ModuleInventory
import MacTypeControl.Injector.Result

/-!
# The request to the injection helper

The arguments of the helper name one process, by a handle and by its identity. `bits` is the width
of a pointer in the helper.
-/

namespace MacTypeControl.Injector

def isDecimalDigit (unit : UInt16) : Bool := 0x30 ≤ unit && unit ≤ 0x39

def isLowerHex (unit : UInt16) : Bool := isDecimalDigit unit || (0x61 ≤ unit && unit ≤ 0x66)

def digitsValue (text : WideText) : ℕ :=
  text.foldl (fun value unit => 10 * value + (unit.toNat - 0x30)) 0

/-- The number that digits stand for, unless it is out of the range of the conversion. -/
def wcstoull (text : WideText) : Option ℕ :=
  if digitsValue text < 2 ^ 64 then some (digitsValue text) else none

def parseDecimal (maximum : ℕ) (text : WideText) : Option ℕ :=
  if text.isEmpty ∨ text.head? = some 0x2D ∨ 20 < text.length then none
  else if !text.all isDecimalDigit then none
  else match wcstoull text with
    | none => none
    | some parsed => if maximum < parsed then none else some parsed

def isGenerationId (value : WideText) : Bool := value.length == 64 && value.all isLowerHex

def parseBrokerRequest (bits : ℕ) (arguments : List WideText) : Option BrokerRequest :=
  match arguments with
  | [_, flagHandle, handle, flagPid, pid, flagCreation, creation, flagSession, session,
      flagGeneration, generation] =>
    if flagHandle ≠ wide "--process-handle" ∨ flagPid ≠ wide "--pid" ∨
        flagCreation ≠ wide "--creation-time" ∨ flagSession ≠ wide "--session-id" ∨
        flagGeneration ≠ wide "--generation-id" ∨ !isGenerationId generation then none
    else match parseDecimal (2 ^ bits - 1) handle, parseDecimal (2 ^ 32 - 1) pid,
        parseDecimal (2 ^ 64 - 1) creation, parseDecimal (2 ^ 32 - 1) session with
      | some processHandle, some pid, some creationTime, some sessionId =>
        if processHandle = 0 ∨ pid = 0 ∨ creationTime = 0 then none
        else some ⟨processHandle, pid, creationTime, sessionId,
          String.ofList (generation.map fun unit => Char.ofNat unit.toNat)⟩
      | _, _, _, _ => none
  | _ => none

/-! ## Numbers -/

/-- A digit of ASCII is the same digit as a wide character. -/
theorem wideDigit {c : Char} (h : c.isDigit = true) :
    isDecimalDigit (UInt16.ofNat c.toNat) = true ∧
      (UInt16.ofNat c.toNat).toNat - 0x30 = c.toNat - '0'.toNat := by
  have hrange : 48 ≤ c.toNat ∧ c.toNat ≤ 57 := by
    simpa [Char.isDigit, UInt32.le_iff_toNat_le] using h
  have hunit : (UInt16.ofNat c.toNat).toNat = c.toNat := by
    rw [UInt16.toNat_ofNat']
    omega
  refine ⟨?_, by rw [hunit]; rfl⟩
  simp only [isDecimalDigit, Bool.and_eq_true, decide_eq_true_eq, UInt16.le_iff_toNat_le, hunit]
  exact hrange

theorem digitsValue_wide {digits : List Char} (hdigits : ∀ c ∈ digits, c.isDigit = true) :
    digitsValue (digits.map fun c => UInt16.ofNat c.toNat) = Nat.ofDigitChars 10 digits 0 := by
  unfold digitsValue Nat.ofDigitChars
  rw [List.foldl_map]
  refine List.foldl_ext _ _ _ fun value c hc => ?_
  rw [(wideDigit (hdigits c hc)).2]

/-- A number that is printed in decimal is read back, where it fits. -/
theorem parseDecimal_toString {value maximum : ℕ} (hvalue : value ≤ maximum)
    (hmaximum : maximum < 2 ^ 64) : parseDecimal maximum (wide (toString value)) = some value := by
  have hdigits : ∀ c ∈ Nat.toDigits 10 value, c.isDigit = true := fun c hc =>
    Nat.isDigit_of_mem_toDigits (Nat.succ_pos 9) (Nat.le_refl 10) hc
  have hwide : wide (toString value) =
      (Nat.toDigits 10 value).map fun c => UInt16.ofNat c.toNat := by
    rw [wide, Nat.toString_eq_ofList_toDigits, String.toList_ofList]
  have hall : (wide (toString value)).all isDecimalDigit = true := by
    rw [hwide, List.all_map, List.all_eq_true]
    exact fun c hc => (wideDigit (hdigits c hc)).1
  have hempty : wide (toString value) ≠ [] := by
    rw [hwide]
    simp [Nat.toDigits_ne_nil]
  have hlength : (wide (toString value)).length ≤ 20 := by
    rw [hwide, List.length_map, Nat.length_toDigits_le_iff (by decide) (by decide)]
    omega
  have hminus : (wide (toString value)).head? ≠ some 0x2D := by
    intro hhead
    have := List.all_eq_true.1 hall 0x2D (List.mem_of_mem_head? hhead)
    exact absurd this (by decide)
  have hread : wcstoull (wide (toString value)) = some value := by
    have hsame : digitsValue (wide (toString value)) = value := by
      rw [hwide, digitsValue_wide hdigits, Nat.ofDigitChars_ten_toDigits]
    rw [wcstoull, hsame, if_pos (by omega)]
  have hproper : ¬((wide (toString value)).isEmpty = true ∨
      (wide (toString value)).head? = some 0x2D ∨ 20 < (wide (toString value)).length) := by
    rintro (hnil | hhead | hlong)
    · exact hempty (List.isEmpty_iff.1 hnil)
    · exact hminus hhead
    · omega
  rw [parseDecimal, if_neg hproper, hall, hread]
  simp [hvalue]

end MacTypeControl.Injector
