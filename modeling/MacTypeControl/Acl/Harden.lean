import MacTypeControl.Acl.Access
import MacTypeControl.Checks

/-!
# Hardening the machine tree

`harden_machine_directory` lists the tree, resets its lists of entries and verifies each entry
it listed. Children may disappear at any call, and a child that is confirmed to be gone is
passed over.
-/

namespace MacTypeControl.Acl

/-- A path below the root, which is the empty one. -/
abbrev Path := List String

inductive EntryKind where
  | file
  | directory
  | reparsePoint (targetExists : Bool)
  deriving DecidableEq

structure Entry where
  kind : EntryKind
  descriptor : Descriptor
  deriving DecidableEq

/-- A directory tree: whatever is in it lies in a directory. -/
structure Tree where
  entry : Path → Option Entry
  children : Path → List String
  mem_children : ∀ path name, name ∈ children path ↔ (entry (path ++ [name])).isSome = true
  parent : ∀ path name, (entry (path ++ [name])).isSome = true →
    ∃ entry', entry path = some entry' ∧ entry'.kind = .directory

inductive SetupError where
  | io (code : ℕ)
  | reparsePoint (path : Path)
  | runtime (message : String)
  | machineOperation (operation : String) (path : Path) (source : SetupError)

def errorFileNotFound : ℕ := 2

def errorPathNotFound : ℕ := 3

def isWindowsNotFound (code : ℕ) : Bool := code == errorFileNotFound || code == errorPathNotFound

/-- The system under the calls, which are numbered: what is gone by each call, and which calls
fail for a reason of their own. The reset of the tree replaces the list of each entry, but
neither an owner nor an entry. -/
structure System where
  gone : ℕ → Path → Bool
  stays : ∀ n path, gone n path = true → gone (n + 1) path = true
  subtree : ∀ n path name, gone n path = true → gone n (path ++ [name]) = true
  fault : ℕ → Option ℕ
  found : ∀ n code, fault n = some code → isWindowsNotFound code = false
  aboveRoot : Except SetupError Unit
  resetDacl : Path → Entry → Option (List Ace) × Bool
  display : Path → String

def systemSid : Sid := "S-1-5-18"

def administratorsSid : Sid := "S-1-5-32-544"

def usersSid : Sid := "S-1-5-32-545"

def allApplicationPackagesSid : Sid := "S-1-15-2-1"

def allRestrictedApplicationPackagesSid : Sid := "S-1-15-2-2"

def maxProtectedTreeEntries : ℕ := 100000

def isReadExecuteMask (mask : Mask) : Bool :=
  mask == genericRead ||| genericExecute || mask == fileGenericRead ||| fileGenericExecute

/-! ## The calls -/

namespace System

variable (system : System)

/-- What is at a path when call number `n` is made. -/
def present (tree : Tree) (n : ℕ) (path : Path) : Option Entry :=
  if system.gone n path then none else tree.entry path

/-- A call that needs the entry, and answers with its own failure or that there is none. -/
def call {α : Type} (tree : Tree) (n : ℕ) (path : Path) (answer : Entry → Except ℕ α) :
    Except ℕ α :=
  match system.fault n with
  | some code => .error code
  | none => match system.present tree n path with
    | none => .error errorFileNotFound
    | some entry => answer entry

/-- `Path::exists`, which follows a reparse point. -/
def pathExists (tree : Tree) (n : ℕ) (path : Path) : Bool :=
  match system.present tree n path with
  | none => false
  | some entry => entry.kind != .reparsePoint false

/-- `fs::metadata`, reduced to whether the path is a directory. The tree has no reparse point
left when it is asked for. -/
def metadata (tree : Tree) (n : ℕ) (path : Path) : Except ℕ Bool :=
  system.call tree n path fun entry =>
    if entry.kind = .reparsePoint false then .error errorFileNotFound
    else .ok (entry.kind == .directory)

def readDir (tree : Tree) (n : ℕ) (path : Path) : Except ℕ (List Path) :=
  system.call tree n path fun _ => .ok (((tree.children path).map fun name => path ++ [name]).filter
    fun child => !system.gone n child)

def symlinkMetadata (tree : Tree) (n : ℕ) (path : Path) : Except ℕ Unit :=
  system.call tree n path fun _ => .ok ()

def isReparsePoint (tree : Tree) (n : ℕ) (path : Path) : Except ℕ Bool :=
  system.call tree n path fun entry => match entry.kind with
    | .reparsePoint _ => .ok true
    | _ => .ok false

def queryNamedFile (tree : Tree) (n : ℕ) (path : Path) : Except ℕ Descriptor :=
  system.call tree n path fun entry => .ok entry.descriptor

/-- `TreeSetNamedSecurityInfoW` with a list and no owner. -/
def reset (tree : Tree) : Tree where
  entry path := (tree.entry path).map fun entry => { entry with descriptor :=
    { entry.descriptor with
      dacl := (system.resetDacl path entry).1
      daclProtected := (system.resetDacl path entry).2 } }
  children := tree.children
  mem_children path name := by
    rw [tree.mem_children, Option.isSome_map]
  parent path name h := by
    rw [Option.isSome_map] at h
    obtain ⟨entry, hentry, hkind⟩ := tree.parent path name h
    exact ⟨_, congrArg _ hentry, hkind⟩

/-! ## Listing the tree -/

/-- The paths from a path up to the root, itself first. -/
def ancestors (path : Path) : List Path := path.inits.reverse

/-- Each ancestor is asked for twice: whether it is there, and whether it is a reparse point. -/
def rejectReparse (tree : Tree) : ℕ → List Path → Except SetupError Unit × ℕ
  | n, [] => (system.aboveRoot, n)
  | n, ancestor :: rest =>
    if system.pathExists tree n ancestor then
      match system.isReparsePoint tree (n + 1) ancestor with
      | .error code => (.error (.io code), n + 2)
      | .ok true => (.error (.reparsePoint ancestor), n + 2)
      | .ok false => rejectReparse tree (n + 2) rest
    else rejectReparse tree (n + 1) rest

def rejectReparseAncestors (tree : Tree) (n : ℕ) (path : Path) : Except SetupError Unit × ℕ :=
  system.rejectReparse tree n (ancestors path)

/-- Whether a call that failed did so because the child is gone. -/
def confirmsDisappearedChild (tree : Tree) (n : ℕ) (path : Path) : SetupError → Bool × ℕ
  | .io code =>
    if isWindowsNotFound code then
      match system.symlinkMetadata tree n path with
      | .error code => (isWindowsNotFound code, n + 1)
      | .ok () => (false, n + 1)
    else (false, n)
  | _ => (false, n)

/-- The children of a directory, each counted before it is put on the stack. -/
def discover : List Path → List Path → ℕ → Except SetupError (List Path × ℕ)
  | [], pending, discovered => .ok (pending, discovered)
  | child :: children, pending, discovered =>
    if discovered = maxProtectedTreeEntries then
      .error (.runtime "protected machine tree exceeds the fixed ACL verification bound")
    else discover children (child :: pending) (discovered + 1)

/-- What becomes of one path of the stack: it is gone, or it is listed with its children. -/
def inspectPath (tree : Tree) (n : ℕ) (path : Path) :
    Except SetupError (Option (List Path)) × ℕ :=
  let passOver := fun (n : ℕ) (error : SetupError) =>
    if path ≠ [] then
      match system.confirmsDisappearedChild tree n path error with
      | (true, n) => ((.ok none, n) : Except SetupError (Option (List Path)) × ℕ)
      | (false, n) => (.error error, n)
    else (.error error, n)
  match system.rejectReparseAncestors tree n path with
  | (.error error, n) => passOver n error
  | (.ok (), n) =>
    match system.metadata tree n path with
    | .error code => passOver (n + 1) (.io code)
    | .ok false => (.ok (some []), n + 1)
    | .ok true =>
      match system.readDir tree (n + 1) path with
      | .error code => passOver (n + 2) (.io code)
      | .ok children => (.ok (some children), n + 2)

/-- The stack of paths, its top first. At most so many paths are looked at as may be discovered. -/
def collectLoop (tree : Tree) : (fuel n : ℕ) → (pending : List Path) → (discovered : ℕ) →
    (result : List Path) → Except SetupError (List Path) × ℕ
  | _, n, [], _, result => (.ok result.reverse, n)
  | 0, n, _ :: _, _, _ => (.error (.runtime "more paths than were discovered"), n)
  | fuel + 1, n, path :: pending, discovered, result =>
    match system.inspectPath tree n path with
    | (.error error, n) => (.error error, n)
    | (.ok none, n) => collectLoop tree fuel n pending discovered result
    | (.ok (some children), n) =>
      match discover children pending discovered with
      | .error error => (.error error, n)
      | .ok (pending, discovered) =>
        collectLoop tree fuel n pending discovered (path :: result)

def collectProtectedTree (tree : Tree) (n : ℕ) : Except SetupError (List Path) × ℕ :=
  match system.rejectReparseAncestors tree n [] with
  | (.error error, n) => (.error error, n)
  | (.ok (), n) => system.collectLoop tree maxProtectedTreeEntries n [[]] 1 []

/-! ## Verifying one entry -/

/-- Digits of a number in base 16, in upper case and so many at least. -/
def upperHex (width value : ℕ) : String :=
  let digits := (Nat.toDigits 16 value).map Char.toUpper
  String.ofList (List.replicate (width - digits.length) '0' ++ digits)

def invalidAclAce (path : Path) (trustee : String) (ace : Ace) : SetupError :=
  .runtime ("protected machine ACL has invalid " ++ trustee ++ " rights (mask=0x" ++
    upperHex 8 ace.mask.toNat ++ ", flags=0x" ++ upperHex 2 ace.flags.toNat ++ ", expected=0x" ++
    upperHex 8 (genericRead ||| genericExecute).toNat ++ " or 0x" ++
    upperHex 8 (fileGenericRead ||| fileGenericExecute).toNat ++ "): " ++ system.display path)

def invalidAcl (path : Path) : SetupError :=
  .runtime ("protected machine ACL does not match SYSTEM/Admin Full, Users Read+Execute, ALL " ++
    "APPLICATION PACKAGES Read+Execute, and ALL RESTRICTED APPLICATION PACKAGES Read+Execute: " ++
    system.display path)

structure Seen where
  system : Bool
  administrators : Bool
  users : Bool
  allApplicationPackages : Bool
  allRestrictedApplicationPackages : Bool

def Seen.none : Seen := ⟨false, false, false, false, false⟩

def Seen.all (seen : Seen) : Bool :=
  seen.system && seen.administrators && seen.users && seen.allApplicationPackages &&
    seen.allRestrictedApplicationPackages

/-- An entry for one of the two writers: full access, and once for the object itself. -/
def checkWriter (path : Path) (ace : Ace) (saw : Bool) : Except SetupError Bool :=
  if ace.mask ≠ fileAllAccess then .error (system.invalidAcl path)
  else if ace.appliesToCurrentObject then
    if saw then .error (system.invalidAcl path) else .ok true
  else .ok saw

/-- An entry for one of the readers: to read and execute, and nothing else. -/
def checkReader (path : Path) (trustee : String) (ace : Ace) (saw : Bool) :
    Except SetupError Bool :=
  if !isReadExecuteMask ace.mask then .error (system.invalidAclAce path trustee ace)
  else .ok (saw || ace.appliesToCurrentObject)

def checkAce (path : Path) (seen : Seen) (ace : Ace) : Except SetupError Seen := do
  if ace.trustee = systemSid then
    let saw ← system.checkWriter path ace seen.system
    return { seen with system := saw }
  else if ace.trustee = administratorsSid then
    let saw ← system.checkWriter path ace seen.administrators
    return { seen with administrators := saw }
  else if ace.trustee = usersSid then
    let saw ← system.checkReader path "Users" ace seen.users
    return { seen with users := saw }
  else if ace.trustee = allApplicationPackagesSid then
    let saw ← system.checkReader path "AllApplicationPackages" ace seen.allApplicationPackages
    return { seen with allApplicationPackages := saw }
  else if ace.trustee = allRestrictedApplicationPackagesSid then
    let saw ← system.checkReader path "AllRestrictedApplicationPackages" ace
      seen.allRestrictedApplicationPackages
    return { seen with allRestrictedApplicationPackages := saw }
  else
    .error (.runtime ("protected machine ACL contains an unapproved allow ACE: " ++
      system.display path))

def checkAces (path : Path) : Seen → List Ace → Except SetupError Seen
  | seen, [] => .ok seen
  | seen, ace :: aces => do
    let seen ← system.checkAce path seen ace
    checkAces path seen aces

/-- The entries of a list that has only entries that allow something. -/
def validatedDacl (path : Path) (descriptor : Descriptor) : Except SetupError (List Ace) :=
  match descriptor.dacl with
  | none => .error (system.invalidAcl path)
  | some aces =>
    if aces.all fun ace => ace.kind == .allowed then .ok aces
    else .error (.runtime ("protected machine ACL contains a non-allow ACE: " ++
      system.display path))

def verifyDescriptor (path : Path) (descriptor : Descriptor) (requireProtected : Bool) :
    Except SetupError Unit := do
  require (!requireProtected || descriptor.daclProtected)
    (.runtime ("protected machine ACL still permits inheritance: " ++ system.display path))
  let aces ← system.validatedDacl path descriptor
  let seen ← system.checkAces path .none aces
  if seen.all then .ok () else .error (system.invalidAcl path)

def verifyProtectedAcl (tree : Tree) (n : ℕ) (path : Path) (requireProtected : Bool) :
    Except SetupError Unit :=
  match system.queryNamedFile tree n path with
  | .error code => .error (.io code)
  | .ok descriptor => system.verifyDescriptor path descriptor requireProtected

/-! ## Hardening -/

def verifyAll (tree : Tree) : ℕ → List Path → Except SetupError Unit × ℕ
  | n, [] => (.ok (), n)
  | n, path :: paths =>
    match system.verifyProtectedAcl tree n path (path == []) with
    | .ok () => verifyAll tree (n + 1) paths
    | .error error =>
      let failed : SetupError := .machineOperation "verify protected ACL entry" path error
      if path ≠ [] then
        match system.confirmsDisappearedChild tree (n + 1) path error with
        | (true, n) => verifyAll tree n paths
        | (false, n) => (.error failed, n)
      else (.error failed, n + 1)

/-- The outcome, the tree that is left and the number of calls that were made. Building the
descriptor, the reset and building the trustees take a call each. -/
def hardenMachineDirectory (tree : Tree) : Except SetupError Unit × Tree × ℕ :=
  match system.collectProtectedTree tree 0 with
  | (.error error, n) =>
    (.error (.machineOperation "enumerate protected ACL tree" [] error), tree, n)
  | (.ok paths, n) =>
    match system.fault n with
    | some code =>
      (.error (.machineOperation "build protected ACL descriptor" [] (.io code)), tree, n + 1)
    | none =>
      match system.call tree (n + 1) [] fun _ => .ok () with
      | .error code =>
        (.error (.machineOperation "reset protected ACL tree" [] (.io code)), tree, n + 2)
      | .ok () =>
        let tree := system.reset tree
        match system.fault (n + 2) with
        | some code =>
          (.error (.machineOperation "build protected ACL trustees" [] (.io code)), tree, n + 3)
        | none =>
          let (verified, n) := system.verifyAll tree (n + 3) paths
          (verified, tree, n)

end System

end MacTypeControl.Acl
