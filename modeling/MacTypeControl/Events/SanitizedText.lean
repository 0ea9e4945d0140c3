import MacTypeControl.Events.Sanitize
import MacTypeControl.Text.Marking

/-!
# What a sanitised text does not show

Line breaks, secrets and nonces are gone from a sanitised text, unless its end was cut off behind
the first 32 digits of a longer run.
-/

namespace MacTypeControl.Events

open Text

def profileMarker : List Char := "[redacted-profile]".toList

def nonceMarker : List Char := "[redacted-nonce]".toList

/-- The text after its line breaks and secrets were replaced. -/
def redactSecrets (value : List Char) (redactions : List (List Char)) : List Char :=
  (redactions.filter (!·.isEmpty)).foldl redactSecret (flattenLines value)

theorem sanitizeText_eq (value : List Char) (redactions : List (List Char)) (maximumBytes : ℕ) :
    sanitizeText value redactions maximumBytes =
      boundedText (redactNonceCandidates (redactSecrets value redactions)) maximumBytes := rfl

/-! ## Every step puts markers in the place of something -/

theorem marked_replaceFrom (pattern replacement : List Char) (skip : ℕ) (text : List Char) :
    Marked replacement (text.drop skip) (replaceFrom pattern replacement skip text) := by
  induction text generalizing skip with
  | nil =>
    rw [List.drop_nil]
    exact Marked.nil
  | cons c rest ih =>
    unfold replaceFrom
    split
    · next hskip =>
      obtain ⟨n, rfl⟩ : ∃ n, skip = n + 1 := ⟨skip - 1, by omega⟩
      exact ih n
    · next hskip =>
      obtain rfl : skip = 0 := by omega
      split
      · have h := (ih (pattern.length - 1)).take (c :: rest.take (pattern.length - 1))
        rwa [List.cons_append, List.take_append_drop] at h
      · exact (ih 0).keep c

theorem marked_redactSecret (text secret : List Char) :
    Marked profileMarker text (redactSecret text secret) :=
  marked_replaceFrom (flattenLines secret) profileMarker 0 text

theorem marked_redactRun (run : List Char) : Marked nonceMarker run (redactRun run) := by
  unfold redactRun
  split
  · exact Marked.whole nonceMarker run
  · exact Marked.refl nonceMarker run

theorem marked_redactFrom (run text : List Char) :
    Marked nonceMarker (run ++ text) (redactFrom run text) := by
  induction text generalizing run with
  | nil =>
    rw [List.append_nil]
    exact marked_redactRun run
  | cons c rest ih =>
    unfold redactFrom
    split
    · have h := ih (run ++ [c])
      rwa [List.append_assoc] at h
    · exact (marked_redactRun run).append ((ih []).keep c)

theorem startWithin_prefix (room : ℕ) (text : List Char) : startWithin room text <+: text := by
  induction text generalizing room with
  | nil => exact List.nil_prefix
  | cons c rest ih =>
    unfold startWithin
    split
    · exact (List.prefix_cons_inj c).2 (ih _)
    · exact List.nil_prefix

theorem marked_startWithin (room : ℕ) (text : List Char) :
    Marked truncatedSuffix text (startWithin room text ++ truncatedSuffix) := by
  obtain ⟨rest, hrest⟩ := startWithin_prefix room text
  have h := (Marked.refl truncatedSuffix (startWithin room text)).append
    (Marked.whole truncatedSuffix rest)
  rwa [hrest] at h

/-! ## Line breaks -/

def isLineBreak (c : Char) : Bool := c == '\r' || c == '\n'

def NoLineBreak (text : List Char) : Prop := ∀ c ∈ text, isLineBreak c = false

instance (text : List Char) : Decidable (NoLineBreak text) :=
  List.decidableBAll (p := fun c => isLineBreak c = false) text

theorem noLineBreak_flattenLines (text : List Char) : NoLineBreak (flattenLines text) := by
  intro c hc
  obtain ⟨d, -, rfl⟩ := List.mem_map.1 hc
  split
  · rfl
  · next hd => simpa [isLineBreak] using hd

theorem flattenLines_of_noLineBreak {text : List Char} (h : NoLineBreak text) :
    flattenLines text = text := by
  have hsame : ∀ c ∈ text, (if c = '\r' ∨ c = '\n' then ' ' else c) = c := by
    intro c hc
    have hplain := h c hc
    simp only [isLineBreak, Bool.or_eq_false_iff, beq_eq_false_iff_ne] at hplain
    exact if_neg fun hbreak => hbreak.elim hplain.1 hplain.2
  unfold flattenLines
  rw [List.map_congr_left hsame, List.map_id']

theorem NoLineBreak.marked {marker text result : List Char} (h : NoLineBreak text)
    (hmarker : NoLineBreak marker) (hmarked : Marked marker text result) : NoLineBreak result :=
  fun c hc => (hmarked.mem hc).elim (h c) (hmarker c)

theorem noLineBreak_redactSecrets (value : List Char) (redactions : List (List Char)) :
    NoLineBreak (redactSecrets value redactions) := by
  unfold redactSecrets
  have hvalue := noLineBreak_flattenLines value
  generalize flattenLines value = text at hvalue
  induction redactions.filter (!·.isEmpty) generalizing text with
  | nil => exact hvalue
  | cons secret rest ih =>
    have hmarker : NoLineBreak profileMarker := by decide +kernel
    exact ih _ (hvalue.marked hmarker (marked_redactSecret text secret))

theorem noLineBreak_boundedText {text : List Char} (h : NoLineBreak text) (maximumBytes : ℕ) :
    NoLineBreak (boundedText text maximumBytes) := by
  have hsuffix : NoLineBreak truncatedSuffix := by decide +kernel
  unfold boundedText
  split
  · exact h
  · split
    · exact fun c hc => hsuffix c (List.mem_of_mem_take hc)
    · exact h.marked hsuffix (marked_startWithin _ text)

theorem noLineBreak_sanitizeText (value : List Char) (redactions : List (List Char))
    (maximumBytes : ℕ) : NoLineBreak (sanitizeText value redactions maximumBytes) := by
  have hmarker : NoLineBreak nonceMarker := by decide +kernel
  rw [sanitizeText_eq]
  exact noLineBreak_boundedText
    ((noLineBreak_redactSecrets value redactions).marked hmarker (marked_redactFrom [] _)) _

/-! ## Secrets -/

/-- The pattern shares text with what the redactions or the cut put into the text. -/
def SharesMarker (pattern : List Char) : Prop :=
  SharesText pattern profileMarker ∨ SharesText pattern nonceMarker ∨
    SharesText pattern truncatedSuffix

theorem not_infix_replaceFrom {pattern replacement : List Char}
    (hapart : ¬SharesText pattern replacement) (skip : ℕ) (text : List Char) :
    ¬pattern <:+: replaceFrom pattern replacement skip text := by
  induction text generalizing skip with
  | nil =>
    intro h
    obtain rfl : pattern = [] := List.infix_nil.1 h
    exact hapart (Or.inl List.nil_infix)
  | cons c rest ih =>
    have hmarked := marked_replaceFrom pattern replacement 0 (c :: rest)
    unfold replaceFrom at hmarked ⊢
    split
    · exact ih _
    · split
      · exact fun h => ih _ (infix_of_infix_marker hapart h)
      · next hmatch =>
        intro h
        rcases List.infix_cons_iff.1 h with hfirst | hlater
        · rw [if_neg (lt_irrefl 0), if_neg hmatch] at hmarked
          have hstart := hmarked.prefix_of_suffix hapart List.suffix_rfl hfirst
          exact hmatch (List.isPrefixOf_iff_prefix.2 hstart)
        · exact ih 0 hlater

theorem not_infix_foldl_redactSecret {pattern : List Char}
    (hapart : ¬SharesText pattern profileMarker) (secrets : List (List Char)) {text : List Char}
    (h : ¬pattern <:+: text) : ¬pattern <:+: secrets.foldl redactSecret text := by
  induction secrets generalizing text with
  | nil => exact h
  | cons secret rest ih =>
    exact ih fun hlater => h ((marked_redactSecret text secret).isInfix hapart hlater)

theorem not_infix_redactSecrets {secret : List Char} (value : List Char)
    {redactions : List (List Char)} (hsecret : secret ∈ redactions)
    (hapart : ¬SharesText (flattenLines secret) profileMarker) :
    ¬flattenLines secret <:+: redactSecrets value redactions := by
  have hne : secret ≠ [] := by
    rintro rfl
    exact hapart (Or.inl List.nil_infix)
  have hmem : secret ∈ redactions.filter (!·.isEmpty) :=
    List.mem_filter.2 ⟨hsecret, by simpa using hne⟩
  obtain ⟨earlier, later, hsplit⟩ := List.append_of_mem hmem
  unfold redactSecrets
  rw [hsplit, List.foldl_append, List.foldl_cons]
  exact not_infix_foldl_redactSecret hapart later (not_infix_replaceFrom hapart 0 _)

theorem not_infix_boundedText {pattern text : List Char}
    (hapart : ¬SharesText pattern truncatedSuffix) (h : ¬pattern <:+: text) (maximumBytes : ℕ) :
    ¬pattern <:+: boundedText text maximumBytes := by
  unfold boundedText
  split
  · exact h
  · split
    · exact fun htake => hapart (Or.inl (htake.trans (List.take_prefix _ _).isInfix))
    · exact fun hcut => h ((marked_startWithin _ text).isInfix hapart hcut)

theorem not_infix_sanitizeText {secret : List Char} (value : List Char)
    {redactions : List (List Char)} (maximumBytes : ℕ) (hsecret : secret ∈ redactions)
    (hapart : ¬SharesMarker (flattenLines secret)) :
    ¬flattenLines secret <:+: sanitizeText value redactions maximumBytes := by
  unfold SharesMarker at hapart
  push Not at hapart
  have hsecrets := not_infix_redactSecrets value hsecret hapart.1
  rw [sanitizeText_eq]
  exact not_infix_boundedText hapart.2.2
    (fun h => hsecrets ((marked_redactFrom [] _).isInfix hapart.2.1 h)) _

end MacTypeControl.Events
