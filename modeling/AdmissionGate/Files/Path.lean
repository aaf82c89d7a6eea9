/-!
# Files/Path — paths as texts

A path is a text of names with slashes between them.  Empty names and single dots say nothing,
except that a path may start with either.
-/

namespace AdmissionGate.Path

/-- The pieces of a path between its slashes. -/
def pieces (path : String) : List String := (path.toList.splitOn '/').map String.ofList

def isAbsolute (path : String) : Bool := path.toList.head? == some '/'

def endsInSlash (path : String) : Bool := path.toList.getLast? == some '/'

/-- The names of a path, dots included. -/
def names (path : String) : List String := (pieces path).filter (!·.isEmpty)

/-- The path of a name inside a directory; the empty path is the working directory. -/
def join (directory name : String) : String :=
  if directory.isEmpty || endsInSlash directory then directory ++ name
  else directory ++ "/" ++ name

/-- The path of pieces that stand last one first. -/
def ofReversed : List String → String
  | [""] => "/"
  | pieces => "/".intercalate pieces.reverse

/-- A path, given by its pieces last one first, and the directories around it, nearest first. -/
def ancestorsOfReversed : List String → List String
  | [] => []
  | piece :: rest =>
    if (piece = "" ∨ piece = ".") ∧ rest ≠ [] then ancestorsOfReversed rest
    else ofReversed (piece :: rest) :: ancestorsOfReversed rest

/-- The directories that a path names around its last name, nearest first. -/
def parents (path : String) : List String :=
  if path.isEmpty then [] else (ancestorsOfReversed (pieces path).reverse).tail

end AdmissionGate.Path
