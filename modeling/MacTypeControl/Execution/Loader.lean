import MacTypeControl.Platform.CommandLine

/-!
# The arguments of a program that is started through the loader

The loader reads its own command line and writes one for the target. It puts quotes around what
holds a space and writes all else as it is, so only some arguments reach the target unchanged.
-/

namespace MacTypeControl.Platform.CommandLine

def tab : UInt16 := 0x09

/-! ## The weight of arguments

No command line is read as arguments that weigh more than its units cost. A backslash weighs two,
so that one in front of a quote pays for the quote.
-/

def unitWeight (unit : UInt16) : ℕ := if unit = backslash ∨ unit = tab then 2 else 1

def weight (argument : List UInt16) : ℕ := (argument.map unitWeight).sum

def totalWeight (arguments : List (List UInt16)) : ℕ :=
  (arguments.map fun argument => weight argument + 1).sum

/-- What a unit of a command line costs. Quotes are free. -/
def unitCost (unit : UInt16) : ℕ := if unit = quote then 0 else unitWeight unit

def cost (text : List UInt16) : ℕ := (text.map unitCost).sum

@[simp] theorem weight_nil : weight [] = 0 := rfl

@[simp] theorem weight_append (front back : List UInt16) :
    weight (front ++ back) = weight front + weight back := by
  simp [weight]

@[simp] theorem weight_replicate (count : ℕ) :
    weight (List.replicate count backslash) = 2 * count := by
  have hunit : unitWeight backslash = 2 := rfl
  simp [weight, hunit, Nat.mul_comm]

@[simp] theorem weight_singleton (unit : UInt16) : weight [unit] = unitWeight unit := by
  simp [weight]

@[simp] theorem cost_append (front back : List UInt16) :
    cost (front ++ back) = cost front + cost back := by
  simp [cost]

@[simp] theorem cost_cons (unit : UInt16) (text : List UInt16) :
    cost (unit :: text) = unitCost unit + cost text := by
  simp [cost]

@[simp] theorem cost_nil : cost [] = 0 := rfl

@[simp] theorem totalWeight_append (front back : List (List UInt16)) :
    totalWeight (front ++ back) = totalWeight front + totalWeight back := by
  simp [totalWeight]

@[simp] theorem totalWeight_cons (argument : List UInt16) (rest : List (List UInt16)) :
    totalWeight (argument :: rest) = weight argument + 1 + totalWeight rest := by
  simp [totalWeight]

@[simp] theorem totalWeight_nil : totalWeight [] = 0 := rfl

theorem unitCost_le (unit : UInt16) : unitCost unit ≤ unitWeight unit := by
  unfold unitCost
  split <;> omega

theorem cost_le_weight (text : List UInt16) : cost text ≤ weight text := by
  induction text with
  | nil => exact Nat.le_refl 0
  | cons unit text ih =>
    have hunit := unitCost_le unit
    have hcons : weight (unit :: text) = unitWeight unit + weight text := by simp [weight]
    rw [cost_cons, hcons]
    omega

/-- Quotes weigh something and cost nothing. -/
theorem cost_lt_weight {text : List UInt16} (h : quote ∈ text) : cost text < weight text := by
  obtain ⟨front, back, rfl⟩ := List.append_of_mem h
  have hfront := cost_le_weight front
  have hback := cost_le_weight back
  have hcost : unitCost quote = 0 := rfl
  have hweight : weight (quote :: back) = 1 + weight back := by
    have hunit : unitWeight quote = 1 := rfl
    simp [weight, hunit]
  rw [cost_append, weight_append, cost_cons, hcost, hweight]
  omega

namespace Reader

/-- The weight of all that is read so far. -/
def potential (reader : Reader) : ℕ :=
  totalWeight reader.done + weight (reader.argument.getD []) + 2 * reader.slashes

theorem potential_quote (reader : Reader) :
    (reader.step quote).potential + reader.slashes ≤ reader.potential := by
  have hunit : unitWeight quote = 1 := rfl
  unfold step potential
  rw [if_neg (show ¬quote = backslash by decide), if_pos rfl]
  dsimp only
  split
  · simp only [Option.getD_some, weight_append, weight_replicate]
    omega
  · simp only [Option.getD_some, weight_append, weight_replicate, weight_singleton, hunit]
    omega

theorem potential_step (reader : Reader) (unit : UInt16) :
    (reader.step unit).potential ≤ reader.potential + unitCost unit := by
  by_cases hquote : unit = quote
  · have hpotential := potential_quote reader
    rw [hquote]
    omega
  · have hcost : unitCost unit = unitWeight unit := if_neg hquote
    have hpositive : 1 ≤ unitWeight unit := by
      unfold unitWeight
      split <;> omega
    obtain ⟨done, argument, slashes, inQuotes⟩ := reader
    unfold step potential
    dsimp only
    split_ifs with hbackslash hblank
    · have hunit : unitWeight unit = 2 := if_pos (.inl hbackslash)
      rw [hcost, hunit]
      simp only [Option.getD_some]
      omega
    · cases argument with
      | none =>
        dsimp only
        omega
      | some argument =>
        simp only [totalWeight_append, totalWeight_cons, totalWeight_nil, weight_append,
          weight_replicate, Option.getD_none, Option.getD_some, weight_nil]
        omega
    · simp only [Option.getD_some, weight_append, weight_replicate, weight_singleton]
      omega

theorem potential_foldl (text : List UInt16) (reader : Reader) :
    (text.foldl step reader).potential ≤ reader.potential + cost text := by
  induction text generalizing reader with
  | nil => exact Nat.le_refl _
  | cons unit text ih =>
    have hfirst := potential_step reader unit
    have hrest := ih (reader.step unit)
    rw [List.foldl_cons, cost_cons]
    omega

theorem totalWeight_finish (reader : Reader) :
    totalWeight reader.finish ≤ reader.potential + 1 := by
  unfold finish potential
  cases reader.argument with
  | none =>
    dsimp only
    omega
  | some argument =>
    simp only [totalWeight_append, totalWeight_cons, totalWeight_nil, weight_append,
      weight_replicate, Option.getD_some]
    omega

/-- The reader between two arguments. -/
def between (done : List (List UInt16)) : Reader := ⟨done, none, 0, false⟩

variable {done : List (List UInt16)} {text : List UInt16}

theorem potential_between : (between done).potential = totalWeight done := rfl

/-- A text without quotes, and without blanks that end an argument, is one argument. -/
theorem foldl_plain {inQuotes : Bool} (hquote : quote ∉ text)
    (hblank : ∀ unit ∈ text, (isBlank unit && !inQuotes) = false) (argument : List UInt16)
    (slashes : ℕ) :
    ∃ read count, text.foldl step ⟨done, some argument, slashes, inQuotes⟩ =
        ⟨done, some read, count, inQuotes⟩ ∧
      read ++ List.replicate count backslash =
        argument ++ List.replicate slashes backslash ++ text := by
  induction text generalizing argument slashes with
  | nil => exact ⟨argument, slashes, rfl, by simp⟩
  | cons unit text ih =>
    rw [List.mem_cons, not_or] at hquote
    have hrest := fun unit' h => hblank unit' (List.mem_cons_of_mem unit h)
    rw [List.foldl_cons]
    by_cases hbackslash : unit = backslash
    · obtain ⟨read, count, hread, hunits⟩ := ih hquote.2 hrest argument (slashes + 1)
      rw [hbackslash, step_backslash]
      refine ⟨read, count, hread, hunits.trans ?_⟩
      rw [List.replicate_succ']
      simp
    · have hother : step ⟨done, some argument, slashes, inQuotes⟩ unit =
          ⟨done, some (argument ++ List.replicate slashes backslash ++ [unit]), 0, inQuotes⟩ := by
        simp only [step]
        rw [if_neg hbackslash, if_neg (Ne.symm hquote.1),
          if_neg (by simp [hblank unit List.mem_cons_self])]
        simp
      obtain ⟨read, count, hread, hunits⟩ := ih hquote.2 hrest _ 0
      rw [hother]
      refine ⟨read, count, hread, hunits.trans ?_⟩
      simp

theorem step_between {unit : UInt16} (hblank : isBlank unit = false) :
    step (between done) unit = step ⟨done, some [], 0, false⟩ unit := by
  simp [step, between, hblank]

/-- Outside quotes nothing but a quote leads into them. -/
theorem inQuotes_foldl (hquote : quote ∉ text) (reader : Reader)
    (hreader : reader.inQuotes = false) : (text.foldl step reader).inQuotes = false := by
  induction text generalizing reader with
  | nil => exact hreader
  | cons unit text ih =>
    rw [List.mem_cons, not_or] at hquote
    refine ih hquote.2 _ ?_
    unfold step
    dsimp only
    rw [if_neg (Ne.symm hquote.1)]
    split_ifs
    · exact hreader
    · cases reader.argument <;> exact hreader
    · exact hreader

/-- A blank between arguments costs as much as the end of an argument weighs, a tab more. -/
theorem potential_tab {reader : Reader} (hreader : reader.inQuotes = false) :
    (reader.step tab).potential ≤ reader.potential + 1 := by
  obtain ⟨done, argument, slashes, inQuotes⟩ := reader
  obtain rfl : inQuotes = false := hreader
  cases argument with
  | none =>
    have hstep : step ⟨done, none, slashes, false⟩ tab = ⟨done, none, slashes, false⟩ := rfl
    rw [hstep]
    omega
  | some argument =>
    have hstep : step ⟨done, some argument, slashes, false⟩ tab =
        ⟨done ++ [argument ++ List.replicate slashes backslash], none, 0, false⟩ := rfl
    rw [hstep]
    unfold potential
    simp only [totalWeight_append, totalWeight_cons, totalWeight_nil, weight_append,
      weight_replicate, Option.getD_none, Option.getD_some, weight_nil]
    omega

/-- What is read already has no influence on what is read next. -/
theorem finish_foldl_done (front : List (List UInt16)) (reader : Reader) :
    (text.foldl step { reader with done := front ++ reader.done }).finish =
      front ++ (text.foldl step reader).finish := by
  induction text generalizing reader with
  | nil =>
    obtain ⟨done, argument, slashes, inQuotes⟩ := reader
    cases argument <;> simp [finish]
  | cons unit text ih =>
    have hstep : step { reader with done := front ++ reader.done } unit =
        { reader.step unit with done := front ++ (reader.step unit).done } := by
      obtain ⟨done, argument, slashes, inQuotes⟩ := reader
      unfold step
      dsimp only
      split_ifs
      · rfl
      · rfl
      · rfl
      · cases argument <;> simp
      · rfl
    rw [List.foldl_cons, List.foldl_cons, hstep, ih]

end Reader

/-- `CommandLineToArgvW` on a text that is not empty. -/
def argumentsOf (text : List UInt16) : List (List UInt16) :=
  (splitProgram text).1 :: splitArguments (splitProgram text).2

end MacTypeControl.Platform.CommandLine

namespace MacTypeControl.Execution.Loader

open Platform.CommandLine

/-! ## The command line of the target -/

/-- What is written of the command line, and the room that is left in its buffer. -/
structure CommandBuffer where
  text : List UInt16
  length : ℕ

namespace CommandBuffer

def put (buffer : CommandBuffer) (unit : UInt16) : CommandBuffer :=
  ⟨buffer.text ++ [unit], buffer.length - 1⟩

/-- `StringCchCopyExW` with `STRSAFE_NO_TRUNCATION`: all of the argument with its terminator fits,
or none of it is written. -/
def copy (buffer : CommandBuffer) (argument : List UInt16) : CommandBuffer :=
  if argument.length < buffer.length then
    ⟨buffer.text ++ argument, buffer.length - argument.length⟩
  else buffer

def append (buffer : CommandBuffer) (argument : List UInt16) : CommandBuffer :=
  let dq := argument.contains space
  let buffer := if dq then buffer.put quote else buffer
  let buffer := buffer.copy argument
  let buffer := if dq then buffer.put quote else buffer
  buffer.put space

end CommandBuffer

def bufferLength (arguments : List (List UInt16)) : ℕ :=
  1 + (arguments.map fun argument => argument.length + 3).sum

/-- The command line that the loader writes. The space behind the last argument is taken away. -/
def commandText (arguments : List (List UInt16)) : List UInt16 :=
  (arguments.foldl CommandBuffer.append ⟨[], bufferLength arguments⟩).text.dropLast

/-- An argument as it stands in the command line. -/
def quoted (argument : List UInt16) : List UInt16 :=
  if space ∈ argument then quote :: (argument ++ [quote]) else argument

theorem append_fits {buffer : CommandBuffer} {argument : List UInt16}
    (h : argument.length + 3 < buffer.length) :
    (buffer.append argument).text = buffer.text ++ (quoted argument ++ [space]) ∧
      buffer.length ≤ (buffer.append argument).length + (argument.length + 3) := by
  unfold CommandBuffer.append quoted
  by_cases hspace : space ∈ argument
  · have hdq : argument.contains space = true := List.contains_iff_mem.2 hspace
    have hroom : argument.length < buffer.length - 1 := by omega
    rw [hdq, if_pos hspace]
    simp only [if_true, CommandBuffer.copy, CommandBuffer.put, if_pos hroom]
    refine ⟨by simp, by omega⟩
  · have hdq : argument.contains space = false := by
      rw [Bool.eq_false_iff]
      exact fun h => hspace (List.contains_iff_mem.1 h)
    have hroom : argument.length < buffer.length := by omega
    rw [hdq, if_neg hspace]
    simp only [Bool.false_eq_true, if_false, CommandBuffer.copy, CommandBuffer.put, if_pos hroom]
    refine ⟨by simp, by omega⟩

/-- The buffer has room for every argument, so nothing is left out. -/
theorem foldl_append (arguments : List (List UInt16)) (buffer : CommandBuffer)
    (h : (arguments.map fun argument => argument.length + 3).sum < buffer.length) :
    (arguments.foldl CommandBuffer.append buffer).text =
      buffer.text ++ arguments.flatMap fun argument => quoted argument ++ [space] := by
  induction arguments generalizing buffer with
  | nil => simp
  | cons argument rest ih =>
    rw [List.map_cons, List.sum_cons] at h
    obtain ⟨htext, hlength⟩ := @append_fits buffer argument (by omega)
    rw [List.foldl_cons, ih _ (by omega), htext, List.flatMap_cons]
    simp

theorem commandText_eq (arguments : List (List UInt16)) :
    commandText arguments =
      (arguments.flatMap fun argument => quoted argument ++ [space]).dropLast := by
  unfold commandText
  rw [foldl_append arguments _ (by unfold bufferLength; dsimp only; omega), List.nil_append]

theorem commandText_singleton (argument : List UInt16) :
    commandText [argument] = quoted argument := by
  rw [commandText_eq, List.flatMap_cons, List.flatMap_nil, List.append_nil, List.dropLast_concat]

theorem commandText_cons (argument : List UInt16) {rest : List (List UInt16)} (h : rest ≠ []) :
    commandText (argument :: rest) = quoted argument ++ [space] ++ commandText rest := by
  have hne : (rest.flatMap fun argument => quoted argument ++ [space]) ≠ [] := by
    obtain ⟨first, later, rfl⟩ := List.exists_cons_of_ne_nil h
    simp
  rw [commandText_eq, commandText_eq, List.flatMap_cons, List.dropLast_append_of_ne_nil hne]

/-! ## What is read of it -/

/-- An argument that the loader hands on as it is. -/
def Passes (argument : List UInt16) : Prop :=
  quote ∉ argument ∧
    if space ∈ argument then argument.getLast? ≠ some backslash
    else argument ≠ [] ∧ tab ∉ argument

instance (argument : List UInt16) : Decidable (Passes argument) := by
  unfold Passes
  exact inferInstance

/-- What the next program makes of the command line. -/
def relayed (arguments : List (List UInt16)) : List (List UInt16) :=
  splitArguments (commandText arguments)

variable {done : List (List UInt16)} {argument : List UInt16} {arguments : List (List UInt16)}

theorem not_blank_of_passes (hspace : space ∉ argument) (htab : tab ∉ argument) :
    ∀ unit ∈ argument, (isBlank unit && !false) = false := by
  intro unit hunit
  have hneSpace : unit ≠ space := fun h => hspace (h ▸ hunit)
  have hneTab : unit ≠ 0x09 := by
    rintro rfl
    exact htab hunit
  simp [isBlank, hneSpace, hneTab]

/-- The reader is behind an argument that passes, and out of its quotes. -/
theorem foldl_quoted (h : Passes argument) :
    ∃ read count, (quoted argument).foldl Reader.step (.between done) =
        ⟨done, some read, count, false⟩ ∧
      read ++ List.replicate count backslash = argument := by
  obtain ⟨hquote, hwhole⟩ := h
  unfold quoted
  by_cases hspace : space ∈ argument
  · rw [if_pos hspace] at hwhole ⊢
    obtain ⟨read, count, hread, hunits⟩ := @Reader.foldl_plain done argument true hquote
      (fun unit _ => by simp) [] 0
    have hcount : count = 0 := by
      cases count with
      | zero => rfl
      | succ count =>
        rw [List.replicate_succ', ← List.append_assoc] at hunits
        have hlast := congrArg List.getLast? hunits
        rw [List.getLast?_concat] at hlast
        exact absurd hlast.symm (by simpa using hwhole)
    refine ⟨argument, 0, ?_, by simp⟩
    have hopened : Reader.step (.between done) quote = ⟨done, some [], 0, true⟩ := Reader.step_open
    rw [List.foldl_cons, hopened, List.foldl_append, hread, hcount, List.foldl_cons,
      List.foldl_nil, Reader.step_quote, if_pos rfl]
    rw [hcount] at hunits
    simpa using hunits
  · rw [if_neg hspace] at hwhole ⊢
    obtain ⟨hne, htab⟩ := hwhole
    have hblank := not_blank_of_passes hspace htab
    obtain ⟨read, count, hread, hunits⟩ := @Reader.foldl_plain done argument false hquote
      hblank [] 0
    obtain ⟨unit, rest, rfl⟩ := List.exists_cons_of_ne_nil hne
    have hfirst : isBlank unit = false := by simpa using hblank unit List.mem_cons_self
    refine ⟨read, count, ?_, by simpa using hunits⟩
    rw [List.foldl_cons, Reader.step_between hfirst, ← List.foldl_cons]
    exact hread

theorem foldl_quoted_space (h : Passes argument) :
    (quoted argument ++ [space]).foldl Reader.step (.between done) =
      .between (done ++ [argument]) := by
  obtain ⟨read, count, hread, hunits⟩ := @foldl_quoted done argument h
  have hstep : Reader.step ⟨done, some read, count, false⟩ space =
      .between (done ++ [read ++ List.replicate count backslash]) := rfl
  rw [List.foldl_append, hread, List.foldl_cons, List.foldl_nil, hstep, hunits]

theorem finish_quoted (h : Passes argument) :
    ((quoted argument).foldl Reader.step (.between done)).finish = done ++ [argument] := by
  obtain ⟨read, count, hread, hunits⟩ := @foldl_quoted done argument h
  rw [hread]
  unfold Reader.finish
  dsimp only
  rw [hunits]

theorem finish_commandText (h : ∀ argument ∈ arguments, Passes argument) :
    ((commandText arguments).foldl Reader.step (.between done)).finish = done ++ arguments := by
  induction arguments generalizing done with
  | nil => simp [commandText_eq, Reader.between, Reader.finish]
  | cons argument rest ih =>
    have hfirst := h argument List.mem_cons_self
    have hrest := fun later hlater => h later (List.mem_cons_of_mem argument hlater)
    by_cases hempty : rest = []
    · rw [hempty, commandText_singleton, finish_quoted hfirst]
    · rw [commandText_cons argument hempty, List.foldl_append, foldl_quoted_space hfirst,
        ih hrest, List.append_assoc, List.singleton_append]

/-! ## Arguments that do not pass -/

theorem cost_quoted_le (argument : List UInt16) : cost (quoted argument) = cost argument := by
  have hfree : unitCost quote = 0 := rfl
  unfold quoted
  split
  · rw [cost_cons, cost_append, cost_cons, cost_nil, hfree]
    omega
  · rfl

/-- Less is read of an argument that does not pass than the argument weighs. -/
theorem potential_lt_of_not_passes (h : ¬Passes argument) : argument = [] ∨
    ((quoted argument).foldl Reader.step (.between done)).potential <
      totalWeight done + weight argument := by
  have hpotential := Reader.potential_foldl (quoted argument) (.between done)
  rw [Reader.potential_between, cost_quoted_le] at hpotential
  have hcost := cost_le_weight argument
  by_cases hquote : quote ∈ argument
  · have hlighter := cost_lt_weight hquote
    exact .inr (by omega)
  by_cases hspace : space ∈ argument
  · -- A backslash in front of the closing quote is read as part of the quote.
    have hlast : argument.getLast? = some backslash := by
      by_contra hother
      exact h ⟨hquote, by rwa [if_pos hspace]⟩
    obtain ⟨front, rfl⟩ := List.getLast?_eq_some_iff.1 hlast
    right
    have hopened := Reader.potential_foldl (quote :: (front ++ [backslash])) (.between done)
    have hfree : unitCost quote = 0 := rfl
    rw [Reader.potential_between, cost_cons, hfree] at hopened
    have hslashes : 0 < ((quote :: (front ++ [backslash])).foldl Reader.step
        (.between done)).slashes := by
      rw [← List.cons_append, List.foldl_append]
      exact Nat.succ_pos _
    have hclosed := Reader.potential_quote
      ((quote :: (front ++ [backslash])).foldl Reader.step (.between done))
    unfold quoted
    rw [if_pos hspace, ← List.cons_append, List.foldl_append, List.foldl_cons, List.foldl_nil]
    omega
  · by_cases hne : argument = []
    · exact .inl hne
    -- A tab outside quotes ends an argument, which is lighter than the tab.
    have htab : tab ∈ argument := by
      by_contra hother
      exact h ⟨hquote, by rw [if_neg hspace]; exact ⟨hne, hother⟩⟩
    obtain ⟨front, back, rfl⟩ := List.append_of_mem htab
    right
    have hfront : quote ∉ front := fun hmem => hquote (List.mem_append_left _ hmem)
    have houtside := Reader.inQuotes_foldl hfront (.between done) rfl
    have hread := Reader.potential_foldl front (.between done)
    have hended := Reader.potential_tab houtside
    have hlater := Reader.potential_foldl back
      ((front.foldl Reader.step (.between done)).step tab)
    have hcostTab : unitCost tab = 2 := rfl
    rw [Reader.potential_between] at hread
    rw [cost_append, cost_cons, hcostTab] at hcost
    unfold quoted
    rw [if_neg hspace, List.foldl_append, List.foldl_cons]
    omega

theorem cost_commandText (h : arguments ≠ []) :
    cost (commandText arguments) + 1 ≤ totalWeight arguments := by
  induction arguments with
  | nil => exact absurd rfl h
  | cons argument rest ih =>
    have hfirst := cost_le_weight argument
    by_cases hempty : rest = []
    · rw [hempty, commandText_singleton, cost_quoted_le, totalWeight_cons, totalWeight_nil]
      omega
    · have hrest := ih hempty
      have hcostSpace : unitCost space = 1 := rfl
      rw [commandText_cons argument hempty, cost_append, cost_append, cost_quoted_le, cost_cons,
        cost_nil, hcostSpace, totalWeight_cons]
      omega

/-- What is read behind a command line is no heavier than its arguments. -/
theorem totalWeight_finish_le (reader : Reader) (h : arguments ≠ []) :
    totalWeight ((commandText arguments).foldl Reader.step reader).finish ≤
      reader.potential + totalWeight arguments := by
  have hread := Reader.potential_foldl (commandText arguments) reader
  have hended := Reader.totalWeight_finish ((commandText arguments).foldl Reader.step reader)
  have hcost := cost_commandText h
  omega

/-- Arguments that do not all pass become lighter. -/
theorem totalWeight_lt (h : ∃ argument ∈ arguments, ¬Passes argument) :
    totalWeight ((commandText arguments).foldl Reader.step (.between done)).finish <
      totalWeight done + totalWeight arguments := by
  induction arguments generalizing done with
  | nil =>
    obtain ⟨_, hmem, _⟩ := h
    cases hmem
  | cons argument rest ih =>
    rw [totalWeight_cons]
    by_cases hpasses : Passes argument
    · have hlater : ∃ argument ∈ rest, ¬Passes argument := by
        obtain ⟨other, hmem, hfails⟩ := h
        rcases List.mem_cons.1 hmem with rfl | hmem
        · exact absurd hpasses hfails
        · exact ⟨other, hmem, hfails⟩
      have hempty : rest ≠ [] := by
        rintro rfl
        obtain ⟨_, hmem, _⟩ := hlater
        cases hmem
      have hrest := @ih (done ++ [argument]) hlater
      rw [totalWeight_append, totalWeight_cons, totalWeight_nil] at hrest
      rw [commandText_cons argument hempty, List.foldl_append, foldl_quoted_space hpasses]
      omega
    · have hlighter := @potential_lt_of_not_passes done argument hpasses
      by_cases hempty : rest = []
      · rw [hempty, commandText_singleton, totalWeight_nil]
        rcases hlighter with rfl | hlighter
        · exact Nat.lt_succ_self _
        · have hended := Reader.totalWeight_finish
            ((quoted argument).foldl Reader.step (.between done))
          omega
      · have hrest := totalWeight_finish_le
          (((quoted argument ++ [space]).foldl Reader.step (.between done))) hempty
        rw [commandText_cons argument hempty, List.foldl_append]
        rcases hlighter with rfl | hlighter
        · have hnothing : (quoted [] ++ [space]).foldl Reader.step (.between done) =
              .between done := rfl
          rw [hnothing, Reader.potential_between] at hrest
          rw [hnothing, weight_nil]
          omega
        · have hspace := Reader.potential_step
            ((quoted argument).foldl Reader.step (.between done)) space
          have hcostSpace : unitCost space = 1 := rfl
          rw [List.foldl_append, List.foldl_cons, List.foldl_nil] at hrest ⊢
          omega

theorem totalWeight_relayed (arguments : List (List UInt16)) :
    (∀ argument ∈ arguments, Passes argument) ∧ relayed arguments = arguments ∨
      totalWeight (relayed arguments) < totalWeight arguments := by
  by_cases h : ∀ argument ∈ arguments, Passes argument
  · exact .inl ⟨h, @finish_commandText [] arguments h⟩
  · have hfails : ∃ argument ∈ arguments, ¬Passes argument := by
      simpa only [not_forall, exists_prop] using h
    have hlighter := @totalWeight_lt [] arguments hfails
    rw [totalWeight_nil, Nat.zero_add] at hlighter
    exact .inr hlighter

/-! ## The program -/

/-- The path of a program as the system spells it. -/
structure ProgramPath (target : List UInt16) : Prop where
  nonempty : target ≠ []
  unquoted : quote ∉ target
  untabbed : tab ∉ target
  file : target.getLast? ≠ some backslash

variable {target : List UInt16}

theorem ProgramPath.passes (h : ProgramPath target) : Passes target := by
  refine ⟨h.unquoted, ?_⟩
  split
  · exact h.file
  · exact ⟨h.nonempty, h.untabbed⟩

theorem relayed_cons (h : Passes target) (arguments : List (List UInt16)) :
    relayed (target :: arguments) = target :: relayed arguments := by
  by_cases hempty : arguments = []
  · rw [hempty]
    exact @finish_commandText [] [target] fun argument hmem => by
      rwa [List.mem_singleton.1 hmem]
  · unfold relayed splitArguments
    rw [commandText_cons target hempty, List.foldl_append]
    have hread : (quoted target ++ [space]).foldl Reader.step Reader.start =
        { Reader.start with done := [target] ++ Reader.start.done } := foldl_quoted_space h
    rw [hread, Reader.finish_foldl_done, List.singleton_append]

/-- The rule for the program of a command line reads it as the rule for arguments does. -/
theorem argumentsOf_commandText (h : ProgramPath target) (arguments : List (List UInt16)) :
    argumentsOf (commandText (target :: arguments)) = target :: relayed arguments := by
  obtain ⟨later, htext, hlater⟩ : ∃ later,
      commandText (target :: arguments) = quoted target ++ later ∧
        (later = [] ∧ arguments = [] ∨ later = space :: commandText arguments) := by
    by_cases hempty : arguments = []
    · exact ⟨[], by rw [hempty, commandText_singleton, List.append_nil], .inl ⟨rfl, hempty⟩⟩
    · refine ⟨_, ?_, .inr rfl⟩
      rw [commandText_cons target hempty, List.append_assoc, List.singleton_append]
  have hsplit : splitProgram (quoted target ++ later) = (target, later) := by
    unfold quoted
    by_cases hspace : space ∈ target
    · have hplain : ∀ unit ∈ target, decide (unit ≠ quote) = true := by
        intro unit hunit
        rw [decide_eq_true_eq]
        rintro rfl
        exact h.unquoted hunit
      unfold splitProgram
      rw [if_pos hspace, List.cons_append, List.head?_cons, if_pos rfl, List.tail_cons,
        List.append_assoc, List.takeWhile_append_of_pos hplain,
        List.dropWhile_append_of_pos hplain]
      simp
    · have hplain : ∀ unit ∈ target, (!isBlank unit) = true := by
        intro unit hunit
        simpa using not_blank_of_passes hspace h.untabbed unit hunit
      have hhead : (target ++ later).head? ≠ some quote := by
        obtain ⟨unit, rest, rfl⟩ := List.exists_cons_of_ne_nil h.nonempty
        intro hquote
        exact h.unquoted (List.mem_cons.2 (.inl (Option.some.inj hquote).symm))
      have hblank : later.takeWhile (fun unit => !isBlank unit) = [] ∧
          later.dropWhile (fun unit => !isBlank unit) = later := by
        rcases hlater with ⟨rfl, -⟩ | rfl
        · exact ⟨rfl, rfl⟩
        · exact ⟨rfl, rfl⟩
      unfold splitProgram
      rw [if_neg hspace, if_neg hhead, List.takeWhile_append_of_pos hplain,
        List.dropWhile_append_of_pos hplain, hblank.1, hblank.2, List.append_nil]
  unfold argumentsOf
  rw [htext, hsplit]
  rcases hlater with ⟨rfl, rfl⟩ | rfl
  · rfl
  · rfl

/-! ## The two loaders -/

inductive LoaderBitness where
  | x86
  | x64
  deriving DecidableEq

def LoaderBitness.other : LoaderBitness → LoaderBitness
  | .x86 => .x64
  | .x64 => .x86

/-- Each loader starts what it can inject its own library into. -/
def LoaderBitness.hooks : LoaderBitness → Bool → Bool
  | .x86, isX64 => !isX64
  | .x64, isX64 => isX64

inductive LoaderEnding where
  | usage
  | process (commandLine : List UInt16)

/-- The loader with the arguments behind its own name. It starts the target, or the other loader
with the command line as its parameters. -/
def hookAndExecute (isX64PE : List UInt16 → Bool) :
    ℕ → LoaderBitness → List (List UInt16) → Option LoaderEnding
  | 0, _, _ => none
  | _ + 1, _, [] => some .usage
  | loaders + 1, loader, target :: arguments =>
    let commandLine := commandText (target :: arguments)
    if loader.hooks (isX64PE target) then some (.process commandLine)
    else hookAndExecute isX64PE loaders loader.other (splitArguments commandLine)

theorem LoaderBitness.hooks_other (loader : LoaderBitness) (isX64 : Bool)
    (h : loader.hooks isX64 = false) : loader.other.hooks isX64 = true := by
  cases loader <;> cases isX64 <;> first | rfl | cases h

theorem relayed_eq_iff : relayed arguments = arguments ↔
    ∀ argument ∈ arguments, Passes argument := by
  rcases totalWeight_relayed arguments with ⟨hpasses, hsame⟩ | hlighter
  · exact iff_of_true hsame hpasses
  · constructor
    · intro hsame
      rw [hsame] at hlighter
      exact absurd hlighter (Nat.lt_irrefl _)
    · intro hpasses
      exact @finish_commandText [] arguments hpasses

/-- What one loader has changed, the next does not put right. -/
theorem relayed_relayed_eq_iff : relayed (relayed arguments) = arguments ↔
    ∀ argument ∈ arguments, Passes argument := by
  constructor
  · intro htwice
    rcases totalWeight_relayed arguments with ⟨hpasses, -⟩ | hlighter
    · exact hpasses
    · rcases totalWeight_relayed (relayed arguments) with ⟨-, hsame⟩ | hagain
      · exact relayed_eq_iff.1 (hsame.symm.trans htwice)
      · rw [htwice] at hagain
        exact absurd (hagain.trans hlighter) (Nat.lt_irrefl _)
  · intro hpasses
    have hsame := relayed_eq_iff.2 hpasses
    rw [hsame, hsame]

/-- After two loaders at most the target runs, under its own path, and it gets the arguments that
were given exactly if each of them is one that passes. -/
theorem target_receives_iff (isX64PE : List UInt16 → Bool) (loader : LoaderBitness)
    (target : List UInt16) (htarget : ProgramPath target) (arguments : List (List UInt16)) :
    ∃ commandLine, hookAndExecute isX64PE 2 loader (target :: arguments) =
        some (.process commandLine) ∧
      (argumentsOf commandLine).head? = some target ∧
      (argumentsOf commandLine = target :: arguments ↔
        ∀ argument ∈ arguments, Passes argument) := by
  have htail : ∀ given : List (List UInt16), target :: given = target :: arguments ↔
      given = arguments := fun given => by simp
  cases hhooks : loader.hooks (isX64PE target) with
  | true =>
    refine ⟨commandText (target :: arguments), ?_, ?_, ?_⟩
    · simp only [hookAndExecute]
      rw [if_pos hhooks]
    · rw [argumentsOf_commandText htarget]
      rfl
    · rw [argumentsOf_commandText htarget, htail]
      exact relayed_eq_iff
  | false =>
    have hread : splitArguments (commandText (target :: arguments)) =
        target :: relayed arguments := relayed_cons htarget.passes arguments
    have hother := loader.hooks_other (isX64PE target) hhooks
    refine ⟨commandText (target :: relayed arguments), ?_, ?_, ?_⟩
    · simp only [hookAndExecute]
      rw [if_neg (by rw [hhooks]; exact Bool.false_ne_true), hread]
      simp only [hookAndExecute]
      rw [if_pos hother]
    · rw [argumentsOf_commandText htarget]
      rfl
    · rw [argumentsOf_commandText htarget, htail]
      exact relayed_relayed_eq_iff

/-- `a b.exe` with the arguments `x y\` and `"`, of which neither passes. -/
theorem target_receives_iff_spaced :
    ∃ commandLine, hookAndExecute (fun _ => true) 2 .x86
        [[0x61, 0x20, 0x62, 0x2E, 0x65, 0x78, 0x65], [0x78, 0x20, 0x79, 0x5C], [0x22]] =
        some (.process commandLine) ∧
      (argumentsOf commandLine).head? = some [0x61, 0x20, 0x62, 0x2E, 0x65, 0x78, 0x65] ∧
      (argumentsOf commandLine =
          [[0x61, 0x20, 0x62, 0x2E, 0x65, 0x78, 0x65], [0x78, 0x20, 0x79, 0x5C], [0x22]] ↔
        ∀ argument ∈ [[0x78, 0x20, 0x79, 0x5C], [0x22]], Passes argument) :=
  target_receives_iff (fun _ => true) .x86 [0x61, 0x20, 0x62, 0x2E, 0x65, 0x78, 0x65]
    ⟨by decide, by decide, by decide, by decide⟩ [[0x78, 0x20, 0x79, 0x5C], [0x22]]

end MacTypeControl.Execution.Loader
