import Mathlib.Data.List.Basic
import Mathlib.Data.List.TakeWhile
import Mathlib.Tactic

/-!
# Command lines

The command line of a child process, and how the child splits it into its arguments.
-/

namespace MacTypeControl.Platform.CommandLine

def quote : UInt16 := 0x22

def backslash : UInt16 := 0x5C

def space : UInt16 := 0x20

/-! ## Quoting -/

/-- The units that are written, and the backslashes that are still to be written. -/
def quoteStep (state : List UInt16 × ℕ) (value : UInt16) : List UInt16 × ℕ :=
  let (output, slashes) := state
  if value = backslash then (output, slashes + 1)
  else if value = quote then
    (output ++ List.replicate (slashes * 2 + 1) backslash ++ [value], 0)
  else (output ++ List.replicate slashes backslash ++ [value], 0)

def appendQuoted (output argument : List UInt16) : List UInt16 :=
  let (output, slashes) := argument.foldl quoteStep (output ++ [quote], 0)
  output ++ List.replicate (slashes * 2) backslash ++ [quote]

def commandLine (executable : List UInt16) (arguments : List (List UInt16)) : List UInt16 :=
  arguments.foldl (fun result argument => appendQuoted (result ++ [space]) argument)
    (appendQuoted [] executable) ++ [0]

/-! ## Splitting -/

def isBlank (unit : UInt16) : Bool := unit = space || unit = 0x09

/-- The arguments that are read, the one that is being read without its last backslashes, and the
number of these. -/
structure Reader where
  done : List (List UInt16)
  argument : Option (List UInt16)
  slashes : ℕ
  inQuotes : Bool

namespace Reader

def start : Reader := ⟨[], none, 0, false⟩

/-- Backslashes in front of a quote stand for half as many, and one left over makes it literal. -/
def step (reader : Reader) (unit : UInt16) : Reader :=
  let argument := reader.argument.getD []
  if unit = backslash then { reader with argument := some argument, slashes := reader.slashes + 1 }
  else if unit = quote then
    let argument := argument ++ List.replicate (reader.slashes / 2) backslash
    if reader.slashes % 2 = 0 then
      { reader with argument := some argument, slashes := 0, inQuotes := !reader.inQuotes }
    else { reader with argument := some (argument ++ [quote]), slashes := 0 }
  else if isBlank unit && !reader.inQuotes then
    match reader.argument with
    | none => reader
    | some argument =>
      { reader with
        done := reader.done ++ [argument ++ List.replicate reader.slashes backslash]
        argument := none
        slashes := 0 }
  else
    { reader with
      argument := some (argument ++ List.replicate reader.slashes backslash ++ [unit])
      slashes := 0 }

def finish (reader : Reader) : List (List UInt16) :=
  match reader.argument with
  | none => reader.done
  | some argument => reader.done ++ [argument ++ List.replicate reader.slashes backslash]

end Reader

def splitArguments (text : List UInt16) : List (List UInt16) :=
  (text.foldl Reader.step Reader.start).finish

/-- The name of the program ends at the next quote, or at a blank where it is not quoted. -/
def splitProgram (text : List UInt16) : List UInt16 × List UInt16 :=
  if text.head? = some quote then
    (text.tail.takeWhile (· ≠ quote), (text.tail.dropWhile (· ≠ quote)).tail)
  else (text.takeWhile fun unit => !isBlank unit, text.dropWhile fun unit => !isBlank unit)

/-- `CommandLineToArgvW` on a line up to its terminator; of an empty one it gives the path of the
current program. -/
def commandLineToArgv (current line : List UInt16) : List (List UInt16) :=
  let text := line.takeWhile (· ≠ 0)
  if text = [] then [current]
  else
    let (program, rest) := splitProgram text
    program :: splitArguments rest

/-! ## The reader at quoted text -/

namespace Reader

/-- The reader inside a quoted argument, with no backslashes left. -/
def inside (done : List (List UInt16)) (argument : List UInt16) : Reader :=
  ⟨done, some argument, 0, true⟩

variable {done : List (List UInt16)} {argument : List UInt16}

theorem step_backslash (slashes : ℕ) (inQuotes : Bool) :
    step ⟨done, some argument, slashes, inQuotes⟩ backslash =
      ⟨done, some argument, slashes + 1, inQuotes⟩ := rfl

theorem step_quote (slashes : ℕ) (inQuotes : Bool) :
    step ⟨done, some argument, slashes, inQuotes⟩ quote =
      if slashes % 2 = 0 then
        ⟨done, some (argument ++ List.replicate (slashes / 2) backslash), 0, !inQuotes⟩
      else
        ⟨done, some (argument ++ List.replicate (slashes / 2) backslash ++ [quote]), 0, inQuotes⟩ :=
  rfl

theorem step_open : step ⟨done, none, 0, false⟩ quote = inside done [] := by
  unfold step
  rw [if_neg (show ¬quote = backslash by decide), if_pos rfl]
  simp [inside]

theorem step_other {unit : UInt16} (hbackslash : unit ≠ backslash) (hquote : unit ≠ quote)
    (slashes : ℕ) : step ⟨done, some argument, slashes, true⟩ unit =
      ⟨done, some (argument ++ List.replicate slashes backslash ++ [unit]), 0, true⟩ := by
  simp only [step]
  rw [if_neg hbackslash, if_neg hquote]
  simp

theorem foldl_backslashes (slashes pending : ℕ) (inQuotes : Bool) :
    (List.replicate slashes backslash).foldl step ⟨done, some argument, pending, inQuotes⟩ =
      ⟨done, some argument, pending + slashes, inQuotes⟩ := by
  induction slashes generalizing pending with
  | zero => rfl
  | succ slashes ih =>
    rw [List.replicate_succ, List.foldl_cons, step_backslash, ih, Nat.add_assoc, Nat.add_comm 1]

/-- An odd number of backslashes and a quote. -/
theorem inside_literalQuote (slashes : ℕ) :
    (List.replicate (slashes * 2 + 1) backslash ++ [quote]).foldl step (inside done argument) =
      inside done (argument ++ List.replicate slashes backslash ++ [quote]) := by
  have hodd : (0 + (slashes * 2 + 1)) % 2 ≠ 0 := by omega
  have hhalf : (0 + (slashes * 2 + 1)) / 2 = slashes := by omega
  rw [inside, List.foldl_append, foldl_backslashes, List.foldl_cons, List.foldl_nil, step_quote,
    if_neg hodd, hhalf, inside]

/-- An even number of backslashes and the closing quote. -/
theorem inside_closingQuote (slashes : ℕ) :
    (List.replicate (slashes * 2) backslash ++ [quote]).foldl step (inside done argument) =
      ⟨done, some (argument ++ List.replicate slashes backslash), 0, false⟩ := by
  have heven : (0 + slashes * 2) % 2 = 0 := by omega
  have hhalf : (0 + slashes * 2) / 2 = slashes := by omega
  rw [inside, List.foldl_append, foldl_backslashes, List.foldl_cons, List.foldl_nil, step_quote,
    if_pos heven, hhalf, Bool.not_true]

theorem inside_other {unit : UInt16} (hbackslash : unit ≠ backslash) (hquote : unit ≠ quote)
    (slashes : ℕ) :
    (List.replicate slashes backslash ++ [unit]).foldl step (inside done argument) =
      inside done (argument ++ List.replicate slashes backslash ++ [unit]) := by
  rw [inside, List.foldl_append, foldl_backslashes, List.foldl_cons, List.foldl_nil,
    step_other hbackslash hquote, Nat.zero_add, inside]

/-- What the quoting loop has written is read up to the backslashes that it still holds back. -/
theorem foldl_quoteStep (reader : Reader) (quoted : List UInt16) {output read : List UInt16}
    {slashes : ℕ} (hread : output.foldl step reader = inside done read) :
    ∃ read', (quoted.foldl quoteStep (output, slashes)).1.foldl step reader = inside done read' ∧
      read' ++ List.replicate (quoted.foldl quoteStep (output, slashes)).2 backslash =
        read ++ List.replicate slashes backslash ++ quoted := by
  induction quoted generalizing output read slashes with
  | nil => exact ⟨read, hread, by simp⟩
  | cons unit quoted ih =>
    rw [List.foldl_cons]
    by_cases hbackslash : unit = backslash
    · have hstep : quoteStep (output, slashes) unit = (output, slashes + 1) := if_pos hbackslash
      obtain ⟨read', hlater, hunits⟩ := @ih output read (slashes + 1) hread
      rw [hstep]
      refine ⟨read', hlater, hunits.trans ?_⟩
      rw [hbackslash, List.replicate_succ']
      simp
    · by_cases hquote : unit = quote
      · have hstep : quoteStep (output, slashes) unit =
            (output ++ (List.replicate (slashes * 2 + 1) backslash ++ [quote]), 0) := by
          rw [hquote, ← List.append_assoc]
          rfl
        have hwritten : (output ++ (List.replicate (slashes * 2 + 1) backslash ++ [quote])).foldl
            step reader = inside done (read ++ List.replicate slashes backslash ++ [quote]) := by
          rw [List.foldl_append, hread, inside_literalQuote]
        obtain ⟨read', hlater, hunits⟩ := @ih _ _ 0 hwritten
        rw [hstep]
        refine ⟨read', hlater, hunits.trans ?_⟩
        rw [hquote]
        simp
      · have hstep : quoteStep (output, slashes) unit =
            (output ++ (List.replicate slashes backslash ++ [unit]), 0) := by
          simp only [quoteStep]
          rw [if_neg hbackslash, if_neg hquote, List.append_assoc]
        have hwritten : (output ++ (List.replicate slashes backslash ++ [unit])).foldl step reader =
            inside done (read ++ List.replicate slashes backslash ++ [unit]) := by
          rw [List.foldl_append, hread, inside_other hbackslash hquote]
        obtain ⟨read', hlater, hunits⟩ := @ih _ _ 0 hwritten
        rw [hstep]
        refine ⟨read', hlater, hunits.trans ?_⟩
        simp

/-- The reader behind a quoted argument. -/
def behind (done : List (List UInt16)) (argument : List UInt16) : Reader :=
  ⟨done, some argument, 0, false⟩

/-- A quoted argument is read as it is, where the reader is between two arguments. -/
theorem foldl_appendQuoted (reader : Reader) {output : List UInt16}
    (hread : output.foldl step reader = ⟨done, none, 0, false⟩) (quoted : List UInt16) :
    (appendQuoted output quoted).foldl step reader = behind done quoted := by
  have hopened : (output ++ [quote]).foldl step reader = inside done [] := by
    rw [List.foldl_append, hread, List.foldl_cons, List.foldl_nil, step_open]
  obtain ⟨read, hloop, hunits⟩ := @foldl_quoteStep done reader quoted _ _ 0 hopened
  simp only [appendQuoted]
  rw [List.append_assoc, List.foldl_append, hloop, inside_closingQuote, hunits]
  simp [behind]

theorem step_space : step (behind done argument) space = ⟨done ++ [argument], none, 0, false⟩ := by
  unfold step
  rw [if_neg (show ¬space = backslash by decide), if_neg (show ¬space = quote by decide),
    if_pos (show (isBlank space && !(behind done argument).inQuotes) = true from rfl)]
  simp [behind]

theorem finish_behind : finish (behind done argument) = done ++ [argument] := by
  simp [finish, behind]

end Reader

/-! ## Whole lines -/

/-- The arguments behind what is written so far, each with a blank in front of it. -/
def appendArguments (output : List UInt16) (arguments : List (List UInt16)) : List UInt16 :=
  arguments.foldl (fun result argument => appendQuoted (result ++ [space]) argument) output

theorem splitArguments_append (arguments : List (List UInt16)) {output : List UInt16}
    {done : List (List UInt16)} (hfinish : splitArguments output = done)
    (hspace : (output ++ [space]).foldl Reader.step Reader.start = ⟨done, none, 0, false⟩) :
    splitArguments (appendArguments output arguments) = done ++ arguments := by
  induction arguments generalizing output done with
  | nil => rw [List.append_nil, ← hfinish]; rfl
  | cons argument arguments ih =>
    have hread := Reader.foldl_appendQuoted Reader.start hspace argument
    have hfinished : splitArguments (appendQuoted (output ++ [space]) argument) =
        done ++ [argument] := by
      rw [splitArguments, hread, Reader.finish_behind]
    have hspaced : (appendQuoted (output ++ [space]) argument ++ [space]).foldl Reader.step
        Reader.start = ⟨done ++ [argument], none, 0, false⟩ := by
      rw [List.foldl_append, hread, List.foldl_cons, List.foldl_nil, Reader.step_space]
    have hlater := ih hfinished hspaced
    rw [List.append_assoc, List.singleton_append] at hlater
    exact hlater

theorem foldl_quoteStep_append (front output argument : List UInt16) (slashes : ℕ) :
    argument.foldl quoteStep (front ++ output, slashes) =
      (front ++ (argument.foldl quoteStep (output, slashes)).1,
        (argument.foldl quoteStep (output, slashes)).2) := by
  induction argument generalizing output slashes with
  | nil => rfl
  | cons unit argument ih =>
    rw [List.foldl_cons, List.foldl_cons]
    simp only [quoteStep]
    split_ifs
    · exact ih output (slashes + 1)
    · rw [List.append_assoc, List.append_assoc, ← List.append_assoc output]
      exact ih _ 0
    · rw [List.append_assoc, List.append_assoc, ← List.append_assoc output]
      exact ih _ 0

theorem appendQuoted_append (front output argument : List UInt16) :
    appendQuoted (front ++ output) argument = front ++ appendQuoted output argument := by
  simp only [appendQuoted]
  rw [List.append_assoc front, foldl_quoteStep_append]
  simp only [List.append_assoc]

theorem appendArguments_append (front output : List UInt16) (arguments : List (List UInt16)) :
    appendArguments (front ++ output) arguments = front ++ appendArguments output arguments := by
  induction arguments generalizing output with
  | nil => rfl
  | cons argument arguments ih =>
    have hstep : appendQuoted (front ++ output ++ [space]) argument =
        front ++ appendQuoted (output ++ [space]) argument := by
      rw [List.append_assoc, appendQuoted_append]
    show appendArguments (appendQuoted (front ++ output ++ [space]) argument) arguments = _
    rw [hstep, ih]
    rfl

/-- The loop writes units without a quote as they are, and holds back what it counts at the end. -/
theorem foldl_quoteStep_plain {argument : List UInt16} (hquote : quote ∉ argument)
    (output : List UInt16) (slashes : ℕ) :
    (argument.foldl quoteStep (output, slashes)).1 ++
        List.replicate (argument.foldl quoteStep (output, slashes)).2 backslash =
      output ++ List.replicate slashes backslash ++ argument := by
  induction argument generalizing output slashes with
  | nil => simp
  | cons unit argument ih =>
    rw [List.mem_cons, not_or] at hquote
    rw [List.foldl_cons]
    simp only [quoteStep]
    split_ifs with hbackslash hunit
    · rw [ih hquote.2, hbackslash, List.replicate_succ']
      simp
    · exact absurd hunit.symm hquote.1
    · rw [ih hquote.2]
      simp

/-- A path without quotes that does not end in a backslash is only put between quotes. -/
theorem appendQuoted_plain {executable : List UInt16} (hquote : quote ∉ executable)
    (hend : executable.getLast? ≠ some backslash) :
    appendQuoted [] executable = quote :: (executable ++ [quote]) := by
  have hplain := foldl_quoteStep_plain hquote [quote] 0
  rw [List.replicate_zero, List.append_nil] at hplain
  have hnone : (executable.foldl quoteStep ([quote], 0)).2 = 0 := by
    cases hcount : (executable.foldl quoteStep ([quote], 0)).2 with
    | zero => rfl
    | succ count =>
      have hlast := congrArg List.getLast? hplain
      rw [hcount, List.replicate_succ', ← List.append_assoc, List.getLast?_concat,
        List.getLast?_append] at hlast
      cases hexecutable : executable.getLast? with
      | none =>
        rw [hexecutable] at hlast
        exact absurd (Option.some.inj hlast) (by decide)
      | some unit =>
        rw [hexecutable] at hlast hend
        exact absurd hlast.symm hend
  rw [hnone, List.replicate_zero, List.append_nil] at hplain
  simp only [appendQuoted]
  rw [List.nil_append, hnone, hplain]
  simp

theorem mem_appendQuoted {output argument : List UInt16} {unit : UInt16}
    (h : unit ∈ appendQuoted output argument) :
    unit ∈ output ∨ unit ∈ argument ∨ unit = backslash ∨ unit = quote := by
  have hloop : ∀ (argument output : List UInt16) (slashes : ℕ),
      unit ∈ (argument.foldl quoteStep (output, slashes)).1 →
        unit ∈ output ∨ unit ∈ argument ∨ unit = backslash ∨ unit = quote := by
    intro argument
    induction argument with
    | nil => exact fun _ _ h => Or.inl h
    | cons first argument ih =>
      intro output slashes h
      rw [List.foldl_cons] at h
      simp only [quoteStep] at h
      split_ifs at h
      · rcases ih _ _ h with h | h | h <;> simp [h]
      · rcases ih _ _ h with h | h | h
        · simp only [List.mem_append, List.mem_replicate, List.mem_singleton] at h
          grind
        · simp [h]
        · simp [h]
      · rcases ih _ _ h with h | h | h
        · simp only [List.mem_append, List.mem_replicate, List.mem_singleton] at h
          grind
        · simp [h]
        · simp [h]
  simp only [appendQuoted, List.mem_append, List.mem_replicate, List.mem_singleton] at h
  rcases h with (h | ⟨-, h⟩) | h
  · rcases hloop _ _ _ h with h | h
    · rcases List.mem_append.1 h with h | h
      · exact Or.inl h
      · exact Or.inr (Or.inr (Or.inr (List.mem_singleton.1 h)))
    · exact Or.inr h
  · exact Or.inr (Or.inr (Or.inl h))
  · exact Or.inr (Or.inr (Or.inr h))

theorem zero_not_mem_appendArguments {arguments : List (List UInt16)} {output : List UInt16}
    (houtput : 0 ∉ output) (harguments : ∀ argument ∈ arguments, 0 ∉ argument) :
    0 ∉ appendArguments output arguments := by
  induction arguments generalizing output with
  | nil => exact houtput
  | cons argument arguments ih =>
    refine ih (fun h => ?_) fun later h => harguments later (List.mem_cons_of_mem _ h)
    rcases mem_appendQuoted h with h | h | h | h
    · rcases List.mem_append.1 h with h | h
      · exact houtput h
      · exact absurd (List.mem_singleton.1 h) (by decide)
    · exact harguments argument List.mem_cons_self h
    · exact absurd h (by decide)
    · exact absurd h (by decide)

/-- The child reads the program and the arguments back unit for unit, whether or not it reads the
program by the rules of arguments. -/
theorem commandLine_roundtrip (current executable : List UInt16) (arguments : List (List UInt16))
    (hquote : quote ∉ executable) (hend : executable.getLast? ≠ some backslash)
    (hexecutable : 0 ∉ executable) (harguments : ∀ argument ∈ arguments, 0 ∉ argument) :
    commandLineToArgv current (commandLine executable arguments) = executable :: arguments ∧
      splitArguments ((commandLine executable arguments).takeWhile (· ≠ 0)) =
        executable :: arguments := by
  have hzero : 0 ∉ appendArguments (appendQuoted [] executable) arguments := by
    refine zero_not_mem_appendArguments (fun h => ?_) harguments
    rcases mem_appendQuoted h with h | h | h | h
    · exact List.not_mem_nil h
    · exact hexecutable h
    · exact absurd h (by decide)
    · exact absurd h (by decide)
  have htext : (commandLine executable arguments).takeWhile (· ≠ 0) =
      appendArguments (appendQuoted [] executable) arguments := by
    have hall : ∀ unit ∈ appendArguments (appendQuoted [] executable) arguments,
        decide (unit ≠ 0) = true := by
      intro unit hunit
      rw [decide_eq_true_eq]
      rintro rfl
      exact hzero hunit
    show (appendArguments (appendQuoted [] executable) arguments ++ [0]).takeWhile _ = _
    rw [List.takeWhile_append_of_pos hall]
    simp
  have hprogram : appendArguments (appendQuoted [] executable) arguments =
      quote :: (executable ++ quote :: appendArguments [] arguments) := by
    have happend := appendArguments_append (quote :: (executable ++ [quote])) [] arguments
    rw [List.append_nil] at happend
    rw [appendQuoted_plain hquote hend, happend]
    simp
  have hblank : [space].foldl Reader.step Reader.start = ⟨[], none, 0, false⟩ := rfl
  constructor
  · have hrest : splitArguments (appendArguments [] arguments) = arguments :=
      splitArguments_append arguments rfl hblank
    have hplain : ∀ unit ∈ executable, decide (unit ≠ quote) = true := by
      intro unit hunit
      rw [decide_eq_true_eq]
      rintro rfl
      exact hquote hunit
    have hsplit : splitProgram (quote :: (executable ++ quote :: appendArguments [] arguments)) =
        (executable, appendArguments [] arguments) := by
      unfold splitProgram
      rw [List.head?_cons, if_pos rfl, List.tail_cons, List.takeWhile_append_of_pos hplain,
        List.dropWhile_append_of_pos hplain]
      simp
    simp only [commandLineToArgv]
    rw [htext, hprogram, if_neg (List.cons_ne_nil _ _), hsplit, hrest]
  · have hread := Reader.foldl_appendQuoted Reader.start (show [].foldl Reader.step Reader.start =
      ⟨[], none, 0, false⟩ from rfl) executable
    have hfinish : splitArguments (appendQuoted [] executable) = [executable] := by
      rw [splitArguments, hread, Reader.finish_behind]
      rfl
    have hspace : (appendQuoted [] executable ++ [space]).foldl Reader.step Reader.start =
        ⟨[executable], none, 0, false⟩ := by
      rw [List.foldl_append, hread, List.foldl_cons, List.foldl_nil, Reader.step_space]
      rfl
    rw [htext]
    exact splitArguments_append arguments hfinish hspace

theorem commandLine_roundtrip_quotes :
    commandLineToArgv [] (commandLine [0x61] [[], [0x20, 0x22, 0x5C]]) =
        [[0x61], [], [0x20, 0x22, 0x5C]] ∧
      splitArguments ((commandLine [0x61] [[], [0x20, 0x22, 0x5C]]).takeWhile (· ≠ 0)) =
        [[0x61], [], [0x20, 0x22, 0x5C]] :=
  commandLine_roundtrip [] [0x61] [[], [0x20, 0x22, 0x5C]] (by decide) (by decide) (by decide)
    (by simp)

end MacTypeControl.Platform.CommandLine
