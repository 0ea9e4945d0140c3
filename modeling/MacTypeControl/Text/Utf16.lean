import MacTypeControl.Integration.Status

/-! # UTF-16 text -/

namespace MacTypeControl.Text

def isSurrogate (unit : UInt16) : Bool := 0xD800 ≤ unit && unit ≤ 0xDFFF

def isLowSurrogate (unit : UInt16) : Bool := 0xDC00 ≤ unit && unit ≤ 0xDFFF

/-- The character of a surrogate pair. -/
def ofSurrogates (high low : UInt16) : Char :=
  Char.ofNat (0x10000 + (high.toNat - 0xD800) * 0x400 + (low.toNat - 0xDC00))

/-- The characters of UTF-16 text; an unpaired surrogate is refused. -/
def decodeUtf16 : List UInt16 → Option (List Char)
  | [] => some []
  | unit :: rest =>
    if !isSurrogate unit then (decodeUtf16 rest).map (Char.ofNat unit.toNat :: ·)
    else if isLowSurrogate unit then none
    else match rest with
      | low :: rest =>
        if isLowSurrogate low then (decodeUtf16 rest).map (ofSurrogates unit low :: ·) else none
      | [] => none

/-- The units of little-endian bytes; a last single byte is dropped. -/
def unitsLe : Bytes → List UInt16
  | low :: high :: rest => (low.toUInt16 + high.toUInt16 * 256) :: unitsLe rest
  | _ => []

def unitsBe : Bytes → List UInt16
  | high :: low :: rest => (low.toUInt16 + high.toUInt16 * 256) :: unitsBe rest
  | _ => []

/-- The UTF-8 bytes of text. -/
def utf8 (text : List Char) : Bytes := (String.ofList text).toUTF8.toList

end MacTypeControl.Text
