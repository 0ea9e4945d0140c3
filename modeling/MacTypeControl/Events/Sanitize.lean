import Mathlib.Algebra.GroupWithZero.Nat
import Mathlib.Data.List.Basic
import Mathlib.Data.List.Infix
import Mathlib.Tactic.Common

/-!
# The texts of an event record

A text loses its line breaks, its secrets and its nonces, and is cut at a character boundary when
it is too long. Lengths count the bytes of the UTF-8 encoding.
-/

namespace MacTypeControl.Events

def utf8Length (text : List Char) : ℕ := (text.map Char.utf8Size).sum

/-- Line breaks become spaces. -/
def flattenLines (text : List Char) : List Char :=
  text.map fun c => if c = '\r' ∨ c = '\n' then ' ' else c

/-- Replaces the matches of a pattern from left to right. `skip` characters still belong to the
last match. -/
def replaceFrom (pattern replacement : List Char) (skip : ℕ) : List Char → List Char
  | [] => []
  | c :: rest =>
    if 0 < skip then replaceFrom pattern replacement (skip - 1) rest
    else if pattern.isPrefixOf (c :: rest) then
      replacement ++ replaceFrom pattern replacement (pattern.length - 1) rest
    else c :: replaceFrom pattern replacement 0 rest

def replaceAll (pattern replacement text : List Char) : List Char :=
  replaceFrom pattern replacement 0 text

def isAsciiHexdigit (c : Char) : Bool :=
  c.isDigit || ('a' ≤ c && c ≤ 'f') || ('A' ≤ c && c ≤ 'F')

/-- A run of 32 digits may be a nonce. -/
def redactRun (run : List Char) : List Char :=
  if run.length = 32 then "[redacted-nonce]".toList else run

def redactFrom (run : List Char) : List Char → List Char
  | [] => redactRun run
  | c :: rest =>
    if isAsciiHexdigit c then redactFrom (run ++ [c]) rest
    else redactRun run ++ c :: redactFrom [] rest

def redactNonceCandidates (text : List Char) : List Char := redactFrom [] text

/-- The longest start of the text within so many bytes. -/
def startWithin : ℕ → List Char → List Char
  | _, [] => []
  | room, c :: rest =>
    if c.utf8Size ≤ room then c :: startWithin (room - c.utf8Size) rest else []

def truncatedSuffix : List Char := " [truncated]".toList

def boundedText (text : List Char) (maximumBytes : ℕ) : List Char :=
  if utf8Length text ≤ maximumBytes then text
  else if maximumBytes ≤ utf8Length truncatedSuffix then truncatedSuffix.take maximumBytes
  else startWithin (maximumBytes - utf8Length truncatedSuffix) text ++ truncatedSuffix

def redactSecret (text secret : List Char) : List Char :=
  replaceAll (flattenLines secret) "[redacted-profile]".toList text

def sanitizeText (value : List Char) (redactions : List (List Char)) (maximumBytes : ℕ) :
    List Char :=
  let sanitized := (redactions.filter (!·.isEmpty)).foldl redactSecret (flattenLines value)
  boundedText (redactNonceCandidates sanitized) maximumBytes

theorem utf8Length_append (a b : List Char) :
    utf8Length (a ++ b) = utf8Length a + utf8Length b := by
  simp [utf8Length]

theorem utf8Length_startWithin (room : ℕ) (text : List Char) :
    utf8Length (startWithin room text) ≤ room := by
  induction text generalizing room with
  | nil => simp [startWithin, utf8Length]
  | cons c rest ih =>
    unfold startWithin
    split
    · have hrest := ih (room - c.utf8Size)
      simp only [utf8Length, List.map_cons, List.sum_cons] at hrest ⊢
      omega
    · simp [utf8Length]

/-- The suffix is plain ASCII, so it has as many bytes as characters. -/
theorem utf8Length_truncatedSuffix_take (n : ℕ) :
    utf8Length (truncatedSuffix.take n) ≤ n := by
  have hall : truncatedSuffix.all (·.utf8Size == 1) = true := by decide +kernel
  have hascii : ∀ c ∈ truncatedSuffix.take n, c.utf8Size = 1 := by
    intro c hc
    exact beq_iff_eq.1 (List.all_eq_true.1 hall c (List.mem_of_mem_take hc))
  have hcount : utf8Length (truncatedSuffix.take n) = (truncatedSuffix.take n).length := by
    unfold utf8Length
    rw [List.map_congr_left hascii]
    simp
  rw [hcount]
  exact List.length_take_le n truncatedSuffix

theorem utf8Length_boundedText (text : List Char) (maximumBytes : ℕ) :
    utf8Length (boundedText text maximumBytes) ≤ maximumBytes := by
  unfold boundedText
  split
  · assumption
  · split
    · exact utf8Length_truncatedSuffix_take maximumBytes
    · have hstart := utf8Length_startWithin (maximumBytes - utf8Length truncatedSuffix) text
      rw [utf8Length_append]
      omega

theorem utf8Length_sanitizeText (value : List Char) (redactions : List (List Char))
    (maximumBytes : ℕ) : utf8Length (sanitizeText value redactions maximumBytes) ≤ maximumBytes :=
  utf8Length_boundedText _ _

example : redactNonceCandidates "id 0123456789abcdef0123456789ABCDEF.".toList =
    "id [redacted-nonce].".toList := by decide

end MacTypeControl.Events
