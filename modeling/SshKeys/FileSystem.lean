import SshKeys.Bytes
import SshKeys.Failure

/-!
# Files and folders

The tree of files that commands work on, as a list of the files and folders in
it.  A path is a text; `resolve` walks it name by name from the root or from the
current folder.  `get?` is the view of the tree: `get?_put` says that
writing at one place leaves every other place alone.
-/

namespace SshKeys

/-- The names from the root to a place in the tree. -/
abbrev Location := List String

inductive Entry where
  | file (content : Bytes) (mode : Nat)
  | folder
  deriving DecidableEq, Repr

/-- Who may read a file. -/
inductive Access where
  | ownerOnly
  | everyone
  deriving DecidableEq, Repr

/-- The permissions of a new file. -/
def Access.mode : Access → Nat
  | ownerOnly => 0o600
  | everyone => 0o644

namespace Path

/-- The pieces of a path between its slashes, some of which may be empty. -/
def pieces (path : String) : List String :=
  (path.toList.splitOn '/').map String.ofList

/-- The names of a path.  Repeated slashes count as one. -/
def names (path : String) : List String :=
  (pieces path).filter (· ≠ "")

def isAbsolute (path : String) : Bool :=
  path.toList.head? = some '/'

/-- Whether a path can only mean a folder, because it ends with a slash. -/
def endsWithSlash (path : String) : Bool :=
  path.toList.getLast? = some '/'

/-- The pieces of a path without those at the end that lead nowhere. -/
def trimPieces (pieces : List String) : List String :=
  (pieces.reverse.dropWhile fun p => p = "" || p = ".").reverse

/-- The path of the folder a path is in; empty for a name alone.  Slashes and dots are dropped
where they end the path or the folder, and kept inside. -/
def parent (path : String) : String :=
  match pieces path with
  | [] => ""
  | first :: rest =>
    match trimPieces rest with
    | [] => ""
    | rest =>
      let folder := trimPieces rest.dropLast
      if first = "" ∧ folder = [] then "/" else String.intercalate "/" (first :: folder)

/-- The path of a name in a folder. -/
def join (folder name : String) : String :=
  if endsWithSlash folder then folder ++ name else folder ++ "/" ++ name

/-- The path of the public key that belongs to a private key. -/
def publicKey (path : String) : String :=
  path ++ ".pub"

/-- The most bytes a path may have. -/
def maxLength : Nat := 4095

/-- The most bytes a name may have. -/
def maxNameLength : Nat := 255

end Path

structure FileSystem where
  entries : List (Location × Entry) := []
  current : Location := []
  deriving DecidableEq, Repr

namespace FileSystem

/-! ## Entries -/

/-- What is at a place; the root is a folder. -/
def get? (fs : FileSystem) (place : Location) : Option Entry :=
  if place = [] then some .folder else fs.entries.lookup place

def put (fs : FileSystem) (place : Location) (e : Entry) : FileSystem :=
  { fs with entries := (place, e) :: fs.entries.filter fun x => x.1 ≠ place }

theorem lookup_filter_ne {place other : Location} (h : other ≠ place)
    (entries : List (Location × Entry)) :
    (entries.filter fun x => x.1 ≠ place).lookup other = entries.lookup other := by
  induction entries with
  | nil => rfl
  | cons x rest ih =>
    obtain ⟨p, e⟩ := x
    by_cases hp : p = place
    · subst hp
      have hb : (other == p) = false := beq_eq_false_iff_ne.2 h
      simpa [List.lookup_cons, hb] using ih
    · by_cases ho : other = p
      · subst ho; simp [hp]
      · have hb : (other == p) = false := beq_eq_false_iff_ne.2 ho
        simpa [List.lookup_cons, hp, hb] using ih

/-- Writing at one place leaves every other place alone. -/
theorem get?_put (fs : FileSystem) (place other : Location) (e : Entry) :
    (fs.put place e).get? other =
      if other ≠ [] ∧ other = place then some e else fs.get? other := by
  unfold get? put
  by_cases hroot : other = []
  · simp [hroot]
  · by_cases h : other = place
    · subst h; simp [hroot]
    · have hb : (other == place) = false := beq_eq_false_iff_ne.2 h
      simpa [hroot, h, List.lookup_cons, hb] using lookup_filter_ne h fs.entries

/-! ## Paths -/

/-- The place one name further on.  Only a folder leads anywhere, and only there does the length
of the name matter. -/
def enter (fs : FileSystem) (here : Location) (name : String) : Except IoFault Location :=
  match fs.get? here with
  | none => .error .notFound
  | some (.file ..) => .error .notFolder
  | some .folder =>
    if name = "." then .ok here
    else if name = ".." then .ok here.dropLast
    else if Path.maxNameLength < name.utf8ByteSize then .error .nameTooLong
    else .ok (here ++ [name])

/-- The place where the walk along a path begins; a path that is empty or too long leads
nowhere. -/
def start (fs : FileSystem) (path : String) : Except IoFault Location :=
  if path = "" then .error .notFound
  else if Path.maxLength < path.utf8ByteSize then .error .nameTooLong
  else .ok (if Path.isAbsolute path then [] else fs.current)

/-- The place a path leads to; nothing need be there. -/
def resolve (fs : FileSystem) (path : String) : Except IoFault Location := do
  (Path.names path).foldlM fs.enter (← fs.start path)

def find (fs : FileSystem) (path : String) : Except IoFault Entry := do
  match fs.get? (← fs.resolve path) with
  | none => throw .notFound
  | some .folder => pure .folder
  | some (.file content mode) =>
    if Path.endsWithSlash path then throw .notFolder else pure (.file content mode)

/-! ## Reading and writing -/

def pathExists (fs : FileSystem) (path : String) : Bool :=
  (fs.find path).isOk

def read (fs : FileSystem) (path : String) : Except IoFault Bytes := do
  match ← fs.find path with
  | .file content _ => pure content
  | .folder => throw .isFolder

/-- The place a file may be written to.  Of a path that ends with a slash, the last name is not
looked up. -/
def target (fs : FileSystem) (path : String) : Except IoFault Location :=
  if Path.endsWithSlash path then do
    let _ ← ((Path.names path).dropLast ++ ["."]).foldlM fs.enter (← fs.start path)
    throw .isFolder
  else do
    let place ← fs.resolve path
    if fs.get? place = some .folder then throw .isFolder
    pure place

/-- The permissions a file has after it was written.  A file that everyone may read keeps those
it had. -/
def modeAfter (access : Access) : Option Entry → Nat
  | some (.file _ mode) => if access = .ownerOnly then access.mode else mode
  | _ => access.mode

def write (fs : FileSystem) (access : Access) (path : String) (content : Bytes) :
    Except IoFault FileSystem := do
  let place ← fs.target path
  pure (fs.put place (.file content (modeAfter access (fs.get? place))))

/-- Enters a folder, which is made if it is missing. -/
def enterOrMake (now : FileSystem × Location) (name : String) :
    Except IoFault (FileSystem × Location) := do
  let (fs, here) := now
  let place ← fs.enter here name
  match fs.get? place with
  | none => pure (fs.put place .folder, place)
  | some .folder => pure (fs, place)
  | some (.file ..) => throw .fileExists

/-- Makes every folder on a path that is missing.  A path that already leads through a file is
refused before anything is made. -/
def createFolders (fs : FileSystem) (path : String) : Except IoFault FileSystem := do
  match fs.resolve path with
  | .error .notFound | .ok _ =>
    pure (← (Path.names path).foldlM enterOrMake (fs, ← fs.start path)).1
  | .error fault => throw fault

/-- The files of a tree that are not the same in another. -/
def changedFrom (before after : FileSystem) : List (Location × Bytes × Nat) :=
  after.entries.filterMap fun (place, e) =>
    match e with
    | .folder => none
    | .file content mode => if before.get? place = some e then none else some (place, content, mode)

end FileSystem

end SshKeys
