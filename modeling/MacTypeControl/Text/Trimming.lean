import MacTypeControl.Text.Chars

/-!
# Trimmed texts

A trimmed text neither starts nor ends with white space.
-/

namespace MacTypeControl.Text

/-- A text that trimming leaves as it is. -/
def IsTrimmed (text : List Char) : Prop :=
  (∀ c, text.head? = some c → isWhitespace c = false) ∧
    ∀ c, text.getLast? = some c → isWhitespace c = false

theorem trimStart_of_head {text : List Char}
    (h : ∀ c, text.head? = some c → isWhitespace c = false) : trimStart text = text := by
  match text with
  | [] => rfl
  | c :: rest =>
    unfold trimStart
    rw [List.dropWhile_cons_of_neg]
    simp [h c rfl]

theorem trimEnd_of_last {text : List Char}
    (h : ∀ c, text.getLast? = some c → isWhitespace c = false) : trimEnd text = text := by
  rcases List.eq_nil_or_concat text with rfl | ⟨front, last, rfl⟩
  · rfl
  · unfold trimEnd
    rw [List.concat_eq_append, List.rdropWhile_concat_neg]
    simp [h last (by simp)]

theorem trim_of_isTrimmed {text : List Char} (h : IsTrimmed text) : trim text = text := by
  rw [trim, trimStart_of_head h.1, trimEnd_of_last h.2]

theorem head_trimStart (text : List Char) {c : Char} (h : (trimStart text).head? = some c) :
    isWhitespace c = false := by
  unfold trimStart at h
  match hdrop : text.dropWhile isWhitespace with
  | [] => simp [hdrop] at h
  | first :: rest =>
    have hfirst := List.head?_dropWhile_not isWhitespace text
    rw [hdrop] at h hfirst
    obtain rfl := Option.some.inj h
    simpa using hfirst

theorem last_trimEnd (text : List Char) {c : Char} (h : (trimEnd text).getLast? = some c) :
    isWhitespace c = false := by
  unfold trimEnd List.rdropWhile at h
  rw [List.getLast?_reverse] at h
  exact head_trimStart text.reverse h

theorem trimEnd_prefix (text : List Char) : trimEnd text <+: text := List.rdropWhile_prefix _ text

theorem isTrimmed_trim (text : List Char) : IsTrimmed (trim text) := by
  refine ⟨fun c hc => ?_, fun c hc => last_trimEnd _ hc⟩
  obtain ⟨rest, hrest⟩ := trimEnd_prefix (trimStart text)
  apply head_trimStart text
  rw [← hrest, List.head?_append]
  change (trimEnd (trimStart text)).head? = some c at hc
  rw [hc]
  rfl

theorem trim_trim (text : List Char) : trim (trim text) = trim text :=
  trim_of_isTrimmed (isTrimmed_trim text)

theorem trimEnd_append_whitespace (text : List Char) {space : List Char}
    (h : ∀ c ∈ space, isWhitespace c = true) : trimEnd (text ++ space) = trimEnd text := by
  induction space using List.reverseRecOn with
  | nil => rw [List.append_nil]
  | append_singleton space c ih =>
    have hc : isWhitespace c = true := h c (by simp)
    rw [← List.append_assoc, trimEnd, List.rdropWhile_concat_pos _ _ _ hc]
    exact ih fun d hd => h d (by simp [hd])

/-- White space after a trimmed text is taken off again. -/
theorem trim_append_whitespace {text space : List Char} (htext : IsTrimmed text) (hne : text ≠ [])
    (h : ∀ c ∈ space, isWhitespace c = true) : trim (text ++ space) = text := by
  match text with
  | [] => exact absurd rfl hne
  | c :: rest =>
    have hstart : trimStart (c :: rest ++ space) = c :: rest ++ space :=
      trimStart_of_head fun d hd => htext.1 d (by simpa using hd)
    rw [trim, hstart, trimEnd_append_whitespace _ h, trimEnd_of_last htext.2]

end MacTypeControl.Text
