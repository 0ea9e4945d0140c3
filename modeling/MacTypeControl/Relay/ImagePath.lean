import Mathlib.Data.List.Basic
import Mathlib.Tactic.Common

/-!
# The path of an image

The system gives the path of an image by its root, its directories and its name. The file name of
such a path is its name, whatever its root is.
-/

namespace MacTypeControl.Relay

/-! ## The path of an image -/

abbrev Units := List UInt16

def units (text : String) : Units := text.toList.map fun c => UInt16.ofNat c.toNat

def backslash : UInt16 := 0x5C

def slash : UInt16 := 0x2F

def isSeparator (verbatim : Bool) (unit : UInt16) : Bool :=
  unit == backslash || (!verbatim && unit == slash)

/-- A name in a path. -/
structure IsPathName (name : Units) : Prop where
  nonempty : name ≠ []
  not_separator : ∀ unit ∈ name, isSeparator false unit = false
  not_dots : name ≠ units "." ∧ name ≠ units ".."

/-- What an absolute path begins with. -/
inductive ImageRoot where
  | drive (letter : UInt16)
  | share (server name : Units)
  | volume (name : Units)

def isAsciiAlphabetic (unit : UInt16) : Bool :=
  (0x41 ≤ unit && unit ≤ 0x5A) || (0x61 ≤ unit && unit ≤ 0x7A)

namespace ImageRoot

def text : ImageRoot → Units
  | .drive letter => [letter, 0x3A]
  | .share server name => backslash :: backslash :: server ++ backslash :: name
  | .volume name => units "\\\\?\\" ++ name

def WellFormed : ImageRoot → Prop
  | .drive letter => isAsciiAlphabetic letter = true
  | .share server name => IsPathName server ∧ server ≠ units "?" ∧ IsPathName name
  | .volume name => IsPathName name ∧ name ≠ units "UNC"

end ImageRoot

/-- The path of an image as the system gives it. -/
structure ImagePath where
  root : ImageRoot
  directories : List Units
  name : Units
  root_wellFormed : root.WellFormed
  directories_names : ∀ directory ∈ directories, IsPathName directory
  name_name : IsPathName name
  length_lt : (root.text ++ (directories.flatMap fun directory => backslash :: directory) ++
    backslash :: name).length < 32768

namespace ImagePath

def directory (path : ImagePath) : Units :=
  path.root.text ++ path.directories.flatMap fun directory => backslash :: directory

def text (path : ImagePath) : Units := path.directory ++ backslash :: path.name

end ImagePath

/-! ## The file name of a path -/

/-- The first component of a path, up to a separator. -/
def firstComponent (verbatim : Bool) (path : Units) : Units :=
  path.takeWhile fun unit => !isSeparator verbatim unit

def afterFirstComponent (verbatim : Bool) (path : Units) : Units :=
  (path.drop (firstComponent verbatim path).length).tail

/-- The lengths of a server and its share. -/
def serverLength (verbatim : Bool) (path : Units) : ℕ × ℕ :=
  ((firstComponent verbatim path).length,
    (firstComponent verbatim (afterFirstComponent verbatim path)).length)

/-- The length of the prefix of a path, and whether it is verbatim. -/
def parsePrefix (path : Units) : ℕ × Bool :=
  match path with
  | first :: second :: rest =>
    if isSeparator false first && isSeparator false second then
      if path.take 4 = units "\\\\?\\" then
        if path.take 7 = units "\\\\?\\UNC" && (path.drop 7).head?.any (isSeparator false) then
          let (server, share) := serverLength true (path.drop 8)
          (8 + server + (if 0 < share then 1 + share else 0), true)
        else (4 + (firstComponent true (path.drop 4)).length, true)
      else if rest.head? = some 0x2E && rest.tail.head?.any (isSeparator false) then
        (4 + (firstComponent false (path.drop 4)).length, false)
      else
        let (server, share) := serverLength false rest
        (if 0 < server ∧ 0 < share then 2 + server + 1 + share else 0, false)
    else if isAsciiAlphabetic first && second == 0x3A then (2, false)
    else (0, false)
  | _ => (0, false)

/-- The last component of a path, where it is a normal one. -/
def fileName (path : Units) : Option Units :=
  let (length, verbatim) := parsePrefix path
  let components := ((path.drop length).splitOnP (isSeparator verbatim)).filter fun component =>
    component != [] && (verbatim || component != units ".")
  components.getLast?.filter fun component => component != units "." && component != units ".."

theorem isSeparator_backslash (verbatim : Bool) : isSeparator verbatim backslash = true := by
  cases verbatim <;> rfl

/-- No separator stands in a name, in verbatim paths either. -/
theorem IsPathName.no_separator {name : Units} (h : IsPathName name) (verbatim : Bool) :
    ∀ unit ∈ name, isSeparator verbatim unit = false := by
  intro unit hunit
  have hplain := h.not_separator unit hunit
  cases verbatim with
  | false => exact hplain
  | true =>
    simp only [isSeparator, Bool.or_eq_false_iff] at hplain ⊢
    exact ⟨hplain.1, rfl⟩

theorem IsPathName.length_pos {name : Units} (h : IsPathName name) : 0 < name.length :=
  List.length_pos_iff.2 h.nonempty

theorem firstComponent_append {name : Units} (h : IsPathName name) (verbatim : Bool)
    (rest : Units) : firstComponent verbatim (name ++ backslash :: rest) = name := by
  have hname : ∀ unit ∈ name, (!isSeparator verbatim unit) = true := by
    intro unit hunit
    rw [h.no_separator verbatim unit hunit]
    rfl
  unfold firstComponent
  rw [List.takeWhile_append_of_pos hname, List.takeWhile_cons_of_neg, List.append_nil]
  rw [isSeparator_backslash]
  decide

theorem afterFirstComponent_append {name : Units} (h : IsPathName name) (verbatim : Bool)
    (rest : Units) : afterFirstComponent verbatim (name ++ backslash :: rest) = rest := by
  unfold afterFirstComponent
  rw [firstComponent_append h]
  simp

def ImageRoot.isVerbatim : ImageRoot → Bool
  | .volume _ => true
  | _ => false

/-- No separator follows the first unit of a longer name. -/
theorem second_of_name {name : Units} (h : IsPathName name) {unit : UInt16} (hname : name ≠ [unit])
    (rest : Units) (hhead : (name ++ backslash :: rest).head? = some unit) :
    ((name ++ backslash :: rest).tail.head?).any (isSeparator false) = false := by
  cases name with
  | nil => exact absurd rfl h.nonempty
  | cons first others =>
    have hfirst : first = unit := by simpa using hhead
    cases others with
    | nil => exact absurd (by rw [hfirst]) hname
    | cons second others => simpa using h.not_separator second (by simp)

/-- A volume is not taken for a server in the verbatim spelling. -/
theorem not_unc_of_name {name : Units} (h : IsPathName name) (hunc : name ≠ units "UNC")
    (rest : Units) : ((name ++ backslash :: rest).take 3 = units "UNC" &&
      (((name ++ backslash :: rest).drop 3).head?).any (isSeparator false)) = false := by
  by_contra hcontra
  simp only [Bool.not_eq_false, Bool.and_eq_true, decide_eq_true_eq] at hcontra
  obtain ⟨htake, hnext⟩ := hcontra
  match name, h, hunc, htake, hnext with
  | [], h, _, _, _ => exact h.nonempty rfl
  | [a], _, _, htake, _ => simp [units, backslash] at htake
  | [a, b], _, _, htake, _ => simp [units, backslash] at htake
  | [a, b, c], _, hunc, htake, _ => exact hunc (by simpa using htake)
  | a :: b :: c :: d :: others, h, _, _, hnext =>
    have hd := h.not_separator d (by simp)
    simp [hd] at hnext

/-- The prefix of a path is its root. -/
theorem parsePrefix_root {root : ImageRoot} (h : root.WellFormed) (rest : Units) :
    parsePrefix (root.text ++ backslash :: rest) = (root.text.length, root.isVerbatim) := by
  cases root with
  | drive letter =>
    have hletter : isAsciiAlphabetic letter = true := h
    have hseparator : isSeparator false letter = false := by
      by_contra hcontra
      simp only [isSeparator, Bool.not_eq_false, Bool.or_eq_true, beq_iff_eq, Bool.and_eq_true] at hcontra
      rcases hcontra with rfl | ⟨-, rfl⟩ <;> exact absurd hletter (by decide)
    simp [parsePrefix, ImageRoot.text, ImageRoot.isVerbatim, hletter, hseparator]
  | share server name =>
    obtain ⟨hserver, hquestion, hname⟩ := h
    have htext : (ImageRoot.share server name).text ++ backslash :: rest =
        backslash :: backslash :: (server ++ backslash :: (name ++ backslash :: rest)) := by
      simp [ImageRoot.text]
    have hlengths : serverLength false (server ++ backslash :: (name ++ backslash :: rest)) =
        (server.length, name.length) := by
      unfold serverLength
      rw [firstComponent_append hserver, afterFirstComponent_append hserver,
        firstComponent_append hname]
    have hverbatim : (backslash :: backslash ::
        (server ++ backslash :: (name ++ backslash :: rest))).take 4 ≠ units "\\\\?\\" := by
      intro htake
      have htail : (server ++ backslash :: (name ++ backslash :: rest)).take 2 =
          [0x3F, backslash] := by
        simpa [units, backslash] using htake
      obtain ⟨others, hothers⟩ : ∃ others,
          server ++ backslash :: (name ++ backslash :: rest) = 0x3F :: backslash :: others :=
        ⟨(server ++ backslash :: (name ++ backslash :: rest)).drop 2, by
          rw [← List.take_append_drop 2 (server ++ backslash :: (name ++ backslash :: rest)), htail]
          simp⟩
      have hsecond := second_of_name hserver hquestion (name ++ backslash :: rest) (by rw [hothers]; rfl)
      rw [hothers] at hsecond
      cases hsecond
    have hdevice : ((server ++ backslash :: (name ++ backslash :: rest)).head? = some 0x2E &&
        (server ++ backslash :: (name ++ backslash :: rest)).tail.head?.any
          (isSeparator false)) = false := by
      by_cases hdot : (server ++ backslash :: (name ++ backslash :: rest)).head? = some 0x2E
      · rw [second_of_name hserver hserver.not_dots.1 _ hdot, Bool.and_false]
      · rw [decide_eq_false hdot, Bool.false_and]
    have hlong : 0 < server.length ∧ 0 < name.length := ⟨hserver.length_pos, hname.length_pos⟩
    rw [htext]
    unfold parsePrefix
    simp only [isSeparator_backslash, Bool.and_self, if_true]
    rw [if_neg hverbatim, hdevice, hlengths]
    simp only [Bool.false_eq_true, if_false, if_pos hlong]
    simp [ImageRoot.text, ImageRoot.isVerbatim]
    omega
  | volume name =>
    obtain ⟨hname, hunc⟩ := h
    have htext : (ImageRoot.volume name).text ++ backslash :: rest =
        backslash :: backslash :: 0x3F :: backslash :: (name ++ backslash :: rest) := by
      simp [ImageRoot.text, units, backslash]
    have hshare := not_unc_of_name hname hunc rest
    have htake : (backslash :: backslash :: 0x3F :: backslash :: (name ++ backslash :: rest)).take 7 =
        units "\\\\?\\UNC" ↔ (name ++ backslash :: rest).take 3 = units "UNC" := by
      simp [units, backslash]
    rw [htext]
    unfold parsePrefix
    simp only [isSeparator_backslash, Bool.and_self, if_true]
    rw [if_pos (by rfl)]
    have hcondition : (decide ((backslash :: backslash :: 0x3F :: backslash ::
        (name ++ backslash :: rest)).take 7 = units "\\\\?\\UNC") &&
        ((backslash :: backslash :: 0x3F :: backslash ::
          (name ++ backslash :: rest)).drop 7).head?.any (isSeparator false)) = false := by
      rw [decide_eq_decide.2 htake]
      exact hshare
    rw [hcondition]
    have hlength : firstComponent true (name ++ backslash :: rest) = name :=
      firstComponent_append hname true rest
    simp [hlength, ImageRoot.text, ImageRoot.isVerbatim, units]
    omega

theorem ImagePath.text_eq (path : ImagePath) :
    ∃ rest, path.text = path.root.text ++ backslash :: rest := by
  unfold ImagePath.text ImagePath.directory
  cases path.directories with
  | nil => exact ⟨path.name, by simp⟩
  | cons directory directories =>
    exact ⟨directory ++ directories.flatMap (fun directory => backslash :: directory) ++
      backslash :: path.name, by simp⟩

/-- The file name of an image is its name. -/
theorem fileName_text (path : ImagePath) : fileName path.text = some path.name := by
  obtain ⟨rest, htext⟩ := path.text_eq
  have hparse : parsePrefix path.text = (path.root.text.length, path.root.isVerbatim) := by
    rw [htext]
    exact parsePrefix_root path.root_wellFormed rest
  have hbody : path.text.drop path.root.text.length =
      (path.directories.flatMap fun directory => backslash :: directory) ++
        backslash :: path.name := by
    unfold ImagePath.text ImagePath.directory
    rw [List.append_assoc, List.drop_left]
  have hsplit : (path.text.drop path.root.text.length).splitOnP
      (isSeparator path.root.isVerbatim) =
        (path.directories.flatMap fun directory => backslash :: directory).splitOnP
          (isSeparator path.root.isVerbatim) ++ [path.name] := by
    rw [hbody, List.splitOnP_append_cons _ _ (isSeparator_backslash _),
      List.splitOnP_eq_singleton (path.name_name.no_separator _)]
  obtain ⟨hdot, hdots⟩ := path.name_name.not_dots
  have hkept : (path.name != [] && (path.root.isVerbatim || path.name != units ".")) = true := by
    simp [path.name_name.nonempty, hdot]
  unfold fileName
  rw [hparse]
  dsimp only
  rw [hsplit, List.filter_append, List.filter_singleton, hkept]
  simp [hdot, hdots]

end MacTypeControl.Relay
