import AdmissionGate.Files.Error
import AdmissionGate.Files.Path

/-!
# Files/Tree — directories and files as a value

A tree maps lists of names to what stands there; the root is always a directory.  A path is followed
name by name from the root or from a working directory: each name but the last has to lead to a
directory, a dot stays there, and two dots go back, at the root to the root itself.  Names have a
limited length.
-/

namespace AdmissionGate

/-- What kind of thing stands at a path. -/
inductive EntryKind where
  | directory
  | file
deriving DecidableEq

/-- What stands at a path. -/
inductive Entry where
  | directory
  | file (text : String)
  /-- A file that can be run and is no text. -/
  | program
deriving DecidableEq

def Entry.kind : Entry → EntryKind
  | .directory => .directory
  | .file _ | .program => .file

/-- What stands below the root; of several entries under the same names the first counts. -/
structure FileTree where
  entries : List (List String × Entry)
deriving DecidableEq

namespace FileTree

def empty : FileTree := ⟨[]⟩

/-- What stands under a list of names. -/
def get? (t : FileTree) (names : List String) : Option Entry :=
  if names = [] then some .directory else t.entries.lookup names

/-- Puts an entry under a list of names, in the place of an earlier one. -/
def insert (t : FileTree) (names : List String) (entry : Entry) : FileTree :=
  ⟨(names, entry) :: t.entries.filter (·.1 ≠ names)⟩

/-- Where a name leads from a directory. -/
def step (directory : List String) (name : String) : List String :=
  if name = "." then directory
  else if name = ".." then directory.dropLast
  else directory ++ [name]

/-- The number of bytes that a name may have. -/
def maxNameBytes : Nat := 255

/-- Follows names from a directory. -/
def follow (t : FileTree) (start : List String) : List String → Except FileError (List String)
  | [] => .ok start
  | name :: rest =>
    match t.get? start with
    | some .directory =>
      if maxNameBytes < name.utf8ByteSize then .error .nameTooLong
      else t.follow (step start name) rest
    | some _ => .error .notADirectory
    | none => .error .notFound

/-- Follows a path from a working directory. -/
def locate (t : FileTree) (current : List String) (path : String) :
    Except FileError (List String) :=
  if path.isEmpty then .error .notFound
  else t.follow (if Path.isAbsolute path then [] else current) (Path.names path)

/-- What stands at a path; a slash at its end asks for a directory. -/
def find (t : FileTree) (current : List String) (path : String) : Except FileError Entry := do
  let names ← t.locate current path
  match t.get? names with
  | none => .error .notFound
  | some .directory => .ok .directory
  | some file => if Path.endsInSlash path then .error .notADirectory else .ok file

def read (t : FileTree) (current : List String) (path : String) : Except FileError String := do
  match ← t.find current path with
  | .file text => .ok text
  | .program => .error .notText
  | .directory => .error .isADirectory

/-- The names inside the directory at a path. -/
def list (t : FileTree) (current : List String) (path : String) :
    Except FileError (List String) := do
  match ← t.find current path with
  | .directory =>
    let names ← t.locate current path
    .ok (t.entries.filterMap fun (entry, _) =>
      if entry.length = names.length + 1 ∧ names <+: entry then entry.getLast? else none)
  | _ => .error .notADirectory

/-- Makes a directory at a path where nothing stands. -/
def makeDirectory (t : FileTree) (current : List String) (path : String) :
    Except FileError FileTree := do
  let names ← t.locate current path
  match t.get? names with
  | some _ => .error .alreadyExists
  | none => .ok (t.insert names .directory)

/-- Writes a text to the file at a path, new or not. -/
def write (t : FileTree) (current : List String) (path text : String) :
    Except FileError FileTree := do
  let names ← t.locate current path
  if Path.endsInSlash path then .error .isADirectory
  else match t.get? names with
    -- A directory around it has been found by `locate`.
    | some .directory => .error .isADirectory
    | _ => .ok (t.insert names (.file text))

end FileTree

end AdmissionGate
