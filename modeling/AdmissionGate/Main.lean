import AdmissionGate.Command.Maintenance
import Std.Time.DateTime.Timestamp

/-!
# Main — the programs

Commands run here on real files, streams and the clock.  The program goes by two names: under the
name of the maintenance tasks it runs those on the working directory, and under any other name it
is the gate.
-/

namespace AdmissionGate

/-- The number of a system error; some operations report its negative. -/
def systemNumber (code : UInt32) : UInt32 := if code < 0x80000000 then code else -code

/-- The file error of a number, if it is one of those told apart by number. -/
def FileError.ofNumber? (code : UInt32) : Option FileError :=
  match systemNumber code with
  | 20 => some .notADirectory
  | 21 => some .isADirectory
  | 36 => some .nameTooLong
  | _ => none

/-- The file error for a failed operation. -/
def FileError.ofIOError (failure : IO.Error) : FileError :=
  match failure with
  | .noFileOrDirectory _ _ _ => .notFound
  | .permissionDenied _ _ _ => .permissionDenied
  | .alreadyExists _ _ _ => .alreadyExists
  | .userError _ => .notText
  | .inappropriateType _ code _ | .invalidArgument _ code _ =>
    (ofNumber? code).getD (.other (toString failure))
  | failure => .other (toString failure)

/-- The result of an operation, with its failure as a file error. -/
def attempt {α : Type} (operation : IO α) : IO (Except FileError α) := do
  match ← operation.toBaseIO with
  | .ok a => return .ok a
  | .error e => return .error (.ofIOError e)

/-- The kind of what stands at a path, neither for a stream or device. -/
def kindAt? (path : String) : IO (Option EntryKind) := do
  match ← attempt (System.mkFilePath [path]).metadata with
  | .ok data =>
    return match data.type with
      | .dir => some .directory
      | .file => some .file
      | _ => none
  | .error _ => return none

def clockTime : IO Timestamp := do
  let nanoseconds := (← Std.Time.Timestamp.now).toNanosecondsSinceUnixEpoch.val
  let whole := nanoseconds / 1000000000
  match Timestamp.ofUnix? whole (nanoseconds % 1000000000).toNat 0 with
  | some time => return time
  | none => throw (IO.userError "the clock is out of range")

instance : Host IO where
  kind? := kindAt?
  canRun path := return (← kindAt? path) == some .file
  read path := attempt (IO.FS.readFile path)
  list path := attempt do
    return (← (System.mkFilePath [path]).readDir).toList.map (·.fileName)
  makeDirectory path := attempt (IO.FS.createDir path)
  write path text := attempt (IO.FS.writeFile path text)
  input := attempt do (← IO.getStdin).readToEnd
  print text := IO.print text
  printError text := IO.eprint text
  now := clockTime

end AdmissionGate

open AdmissionGate in
def main (arguments : List String) : IO UInt32 := do
  if (← IO.appPath).fileStem == some "xtask" then
    Maintenance.run "." arguments
  else CommandLine.run arguments
