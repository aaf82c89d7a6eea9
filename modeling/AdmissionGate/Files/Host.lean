import AdmissionGate.Files.Tree
import AdmissionGate.Timestamp

/-!
# Files/Host — what commands ask of the machine they run on

Commands are written over any monad with these operations, so that the same commands run on real
files and on a `Session`, which holds everything as a value.
-/

namespace AdmissionGate

/-- Files, streams and the clock. -/
class Host (m : Type → Type) where
  /-- The kind of what stands at a path, if anything does. -/
  kind? : (path : String) → m (Option EntryKind)
  /-- Whether the file at a path may be run. -/
  canRun : (path : String) → m Bool
  /-- The text of a file. -/
  read : (path : String) → m (Except FileError String)
  /-- The names inside a directory. -/
  list : (path : String) → m (Except FileError (List String))
  makeDirectory : (path : String) → m (Except FileError Unit)
  write : (path text : String) → m (Except FileError Unit)
  input : m (Except FileError String)
  print : (text : String) → m Unit
  printError : (text : String) → m Unit
  now : m Timestamp

namespace Host

variable {m : Type → Type} [Monad m] [Host m]

def isFile (path : String) : m Bool := do
  return (← kind? path) == some .file

def isDirectory (path : String) : m Bool := do
  return (← kind? path) == some .directory

def isPresent (path : String) : m Bool := do
  return (← kind? path).isSome

/-- Makes a directory unless one stands there. -/
def ensureDirectory (path : String) : m (Except FileError Unit) := do
  match ← makeDirectory path with
  | .ok () => return .ok ()
  | .error e => if ← isDirectory path then return .ok () else return .error e

/-- Makes a directory and those around it that are missing.  The list has its path first and goes on
with the directories around it, nearest first. -/
def makeDirectories : List String → m (Except FileError Unit)
  | [] => return .ok ()
  | path :: around => do
    match ← makeDirectory path with
    | .ok () => return .ok ()
    | .error .notFound =>
      match ← makeDirectories around with
      | .ok () => ensureDirectory path
      | .error e => return .error e
    | .error e => if ← isDirectory path then return .ok () else return .error e

end Host

end AdmissionGate
