import AdmissionGate.Files.Host

/-!
# Files/Session — a machine as a value

A session holds the files, the working directory, the input, the outputs so far and a clock, which
moves on with each reading while it has a later time to show.  Commands that run on it are pure
functions from session to session.
-/

namespace AdmissionGate

/-- A machine with everything that commands can see of it. -/
structure Session where
  files : FileTree
  workingDirectory : List String := []
  input : String := ""
  /-- Why the input cannot be read, if it cannot. -/
  inputError : Option FileError := none
  clock : Timestamp
  /-- The times that the clock shows after its first reading. -/
  later : List Timestamp := []
  output : String := ""
  errorOutput : String := ""
deriving DecidableEq

namespace Session

/-- Puts changed files into a session; an error leaves it as it is. -/
def update (result : Except FileError FileTree) (s : Session) : Except FileError Unit × Session :=
  match result with
  | .ok files => (.ok (), { s with files })
  | .error e => (.error e, s)

def readInput (s : Session) : Except FileError String :=
  match s.inputError with
  | none => .ok s.input
  | some e => .error e

def readClock (s : Session) : Timestamp × Session :=
  match s.later with
  | [] => (s.clock, s)
  | time :: rest => (s.clock, { s with clock := time, later := rest })

instance : Host (StateM Session) where
  kind? path := return ((← get).files.find (← get).workingDirectory path).toOption.map Entry.kind
  canRun path := return ((← get).files.find (← get).workingDirectory path).toOption == some .program
  read path := return (← get).files.read (← get).workingDirectory path
  list path := return (← get).files.list (← get).workingDirectory path
  makeDirectory path := modifyGet fun s =>
    s.update (s.files.makeDirectory s.workingDirectory path)
  write path text := modifyGet fun s => s.update (s.files.write s.workingDirectory path text)
  input := return (← get).readInput
  print text := modify fun s => { s with output := s.output ++ text }
  printError text := modify fun s => { s with errorOutput := s.errorOutput ++ text }
  now := modifyGet readClock

end Session

end AdmissionGate
