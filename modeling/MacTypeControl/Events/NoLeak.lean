import MacTypeControl.Events.NonceRuns

/-!
# Sanitised texts leak nothing

Everything that sanitising promises holds of its result, and a second round changes nothing,
exactly when the cut does not fall inside a long run of digits.
-/

namespace MacTypeControl.Events

open Text

variable {value text : List Char} {redactions : List (List Char)} {maximumBytes : ℕ}

/-- What sanitising promises. Secrets that share text with a marker may stand in the result, and
a second round is only promised to change nothing where none does. -/
structure Sanitised (redactions : List (List Char)) (maximumBytes : ℕ) (text : List Char) :
    Prop where
  bounded : utf8Length text ≤ maximumBytes
  lines : NoLineBreak text
  secrets : ∀ secret ∈ redactions, ¬SharesMarker (flattenLines secret) →
    ¬flattenLines secret <:+: text
  nonces : ¬NonceShape text
  again : (∀ secret ∈ redactions, secret ≠ [] → SharesMarker (flattenLines secret) →
    ¬flattenLines secret <:+: text) → sanitizeText text redactions maximumBytes = text

/-! ## The second round -/

theorem replaceFrom_of_not_infix {pattern replacement : List Char} (h : ¬pattern <:+: text) :
    replaceFrom pattern replacement 0 text = text := by
  induction text with
  | nil => rfl
  | cons c rest ih =>
    have hfirst : ¬(pattern.isPrefixOf (c :: rest) = true) :=
      fun hmatch => h (List.isPrefixOf_iff_prefix.1 hmatch).isInfix
    have hrest : ¬pattern <:+: rest := fun hlater => h (List.infix_cons hlater)
    rw [replaceFrom, if_neg (lt_irrefl 0), if_neg hfirst, ih hrest]

theorem redactSecrets_of_not_infix (hlines : NoLineBreak text)
    (h : ∀ secret ∈ redactions, secret ≠ [] → ¬flattenLines secret <:+: text) :
    redactSecrets text redactions = text := by
  have hall : ∀ secret ∈ redactions.filter (!·.isEmpty), ¬flattenLines secret <:+: text := by
    intro secret hsecret
    obtain ⟨hmem, hne⟩ := List.mem_filter.1 hsecret
    exact h secret hmem (by simpa using hne)
  unfold redactSecrets
  rw [flattenLines_of_noLineBreak hlines]
  generalize redactions.filter (!·.isEmpty) = secrets at hall ⊢
  induction secrets with
  | nil => rfl
  | cons secret rest ih =>
    have hsame : redactSecret text secret = text :=
      replaceFrom_of_not_infix (hall secret (List.mem_cons_self ..))
    rw [List.foldl_cons, hsame]
    exact ih fun later hlater => hall later (List.mem_cons_of_mem secret hlater)

theorem redactFrom_of_not_nonceShape {run : List Char}
    (hrun : ∀ c ∈ run, isAsciiHexdigit c = true) (h : ¬NonceShape (run ++ text)) :
    redactFrom run text = run ++ text := by
  induction text generalizing run with
  | nil =>
    rw [List.append_nil, nonceShape_digits_iff hrun] at h
    rw [List.append_nil]
    exact if_neg h
  | cons c rest ih =>
    unfold redactFrom
    split
    · next hc =>
      have hmore : ∀ d ∈ run ++ [c], isAsciiHexdigit d = true := by
        intro d hd
        rcases List.mem_append.1 hd with hold | hnew
        · exact hrun d hold
        · rw [List.mem_singleton.1 hnew]
          exact hc
      rw [ih hmore (by rwa [List.append_assoc]), List.append_assoc]
      rfl
    · next hc =>
      rw [nonceShape_append_cons_iff (Bool.eq_false_iff.2 hc), not_or,
        nonceShape_digits_iff hrun] at h
      have hnone : ∀ d ∈ ([] : List Char), isAsciiHexdigit d = true :=
        fun _ hd => absurd hd List.not_mem_nil
      rw [redactRun, if_neg h.1, ih hnone h.2]
      rfl

theorem sanitizeText_of_clean (hbounded : utf8Length text ≤ maximumBytes)
    (hlines : NoLineBreak text) (hnonces : ¬NonceShape text)
    (h : ∀ secret ∈ redactions, secret ≠ [] → ¬flattenLines secret <:+: text) :
    sanitizeText text redactions maximumBytes = text := by
  have hnone : ∀ c ∈ ([] : List Char), isAsciiHexdigit c = true :=
    fun _ hc => absurd hc List.not_mem_nil
  have hsame : redactNonceCandidates text = text := redactFrom_of_not_nonceShape hnone hnonces
  rw [sanitizeText_eq, redactSecrets_of_not_infix hlines h, hsame]
  exact if_pos hbounded

/-! ## The law of sanitising -/

theorem sanitised_sanitizeText_iff (value : List Char) (redactions : List (List Char))
    (maximumBytes : ℕ) :
    Sanitised redactions maximumBytes (sanitizeText value redactions maximumBytes) ↔
      ¬CutsRun (redactNonceCandidates (redactSecrets value redactions)) maximumBytes := by
  have hclean := not_nonceShape_redactNonceCandidates (redactSecrets value redactions)
  rw [← nonceShape_boundedText_iff hclean, ← sanitizeText_eq]
  constructor
  · exact fun h => h.nonces
  · intro hnonces
    have hbounded := utf8Length_sanitizeText value redactions maximumBytes
    have hlines := noLineBreak_sanitizeText value redactions maximumBytes
    have hsecrets : ∀ secret ∈ redactions, ¬SharesMarker (flattenLines secret) →
        ¬flattenLines secret <:+: sanitizeText value redactions maximumBytes :=
      fun _ hsecret hapart => not_infix_sanitizeText value maximumBytes hsecret hapart
    refine ⟨hbounded, hlines, hsecrets, hnonces, fun hshared => ?_⟩
    refine sanitizeText_of_clean hbounded hlines hnonces fun secret hsecret hne => ?_
    by_cases hapart : SharesMarker (flattenLines secret)
    · exact hshared secret hsecret hne hapart
    · exact hsecrets secret hsecret hapart

/-- A parameter of an event whose last 45 characters are digits. -/
def cutValue : List Char := List.replicate 216 'x' ++ List.replicate 45 'a'

theorem cut_makes_nonce :
    ¬∀ (value : List Char) (redactions : List (List Char)) (maximumBytes : ℕ),
      Sanitised redactions maximumBytes (sanitizeText value redactions maximumBytes) := by
  intro h
  have hshape : NonceShape (sanitizeText cutValue [] 260) := by
    rw [hasNonce_iff]
    decide +kernel
  exact (h cutValue [] 260).nonces hshape

end MacTypeControl.Events
