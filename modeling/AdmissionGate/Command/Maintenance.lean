import AdmissionGate.Command.Gate
import AdmissionGate.Conformance.Error
import AdmissionGate.Conformance.Fixture
import AdmissionGate.Policy.FileSchema
import AdmissionGate.Schema.Writer

/-!
# Command/Maintenance — tasks for those who maintain the gate

Schemas are published and compared with what is published, recorded receipts are validated, checks
are run again on their fixtures, and explanations are counted.  All paths are under the directory of
the project.
-/

namespace AdmissionGate

open Conformance (TaskError Fixture Fault)

namespace Maintenance

structure PublishedSchema where
  /-- The name of the form; the file has it with an ending. -/
  form : String
  value : Json

namespace PublishedSchema

def fileName (s : PublishedSchema) : String := s.form ++ ".json"

def text (s : PublishedSchema) : String := s.value.pretty ++ "\n"

def all : List PublishedSchema := [
  ⟨Receipt.schemaName, Receipt.publishedSchema.publish Receipt.schemaTitle⟩,
  ⟨Policy.schemaName, PolicyFile.publishedSchema.publish PolicyFile.schemaTitle⟩]

end PublishedSchema

/-- Texts as lines with a dash. -/
def bullets (texts : List String) : String :=
  String.join (texts.map fun text => "  - " ++ text ++ "\n")

variable {m : Type → Type} [Monad m] [Host m]

def print (text : String) : ExceptT TaskError m Unit := Host.print (m := m) text

def printError (text : String) : ExceptT TaskError m Unit := Host.printError (m := m) text

/-- The value of a file operation, or the error of the task. -/
def require {α : Type} (error : FileError → TaskError) (operation : m (Except FileError α)) :
    ExceptT TaskError m α := do
  match ← operation with
  | .ok a => return a
  | .error e => throw (error e)

def schemaDirectory (project : String) : String := Path.join project "schemas"

def fixtureDirectory (project : String) : String :=
  Path.join (Path.join project "tests") "fixtures"

/-- The path of the program that the full run needs. -/
def programPath (project : String) : String :=
  Path.join (Path.join (Path.join project "target") "debug") "fogguard"

/-! ## Schemas -/

def publishSchemas (project : String) : ExceptT TaskError m Unit := do
  let directory := schemaDirectory project
  require .schemaDirectory
    (Host.makeDirectories (m := m) (directory :: Path.parents directory))
  for schema in PublishedSchema.all do
    let path := Path.join directory schema.fileName
    require (.schemaFile path) (Host.write (m := m) path schema.text)
    print ("Wrote " ++ path ++ "\n")
  print "\nSchemas emitted successfully.\n"

/-- The files that are missing and those whose text is not what would be published. -/
def outdated (directory : String) :
    List PublishedSchema → ExceptT TaskError m (List String × List String)
  | [] => return ([], [])
  | schema :: rest => do
    let path := Path.join directory schema.fileName
    if ← Host.isPresent (m := m) path then
      let text ← require (.unreadable path) (Host.read (m := m) path)
      let (missing, different) ← outdated directory rest
      return (missing, if text = schema.text then different else schema.fileName :: different)
    else
      let (missing, different) ← outdated directory rest
      return (schema.fileName :: missing, different)

def compareSchemas (project : String) : ExceptT TaskError m Unit := do
  let (missing, different) ← outdated (schemaDirectory project) PublishedSchema.all
  if missing.isEmpty && different.isEmpty then
    print "All schemas are up to date.\n"
  else
    if !missing.isEmpty then printError ("Missing schemas:\n" ++ bullets missing)
    if !different.isEmpty then printError ("Schemas out of date:\n" ++ bullets different)
    printError "\nRun `cargo xtask emit-schemas` to regenerate.\n"
    throw .outdatedSchemas

def listForms : ExceptT TaskError m Unit :=
  print (String.join (PublishedSchema.all.map (·.form ++ "\n")))

/-! ## Fixtures -/

/-- Reads the fixture of a name, if its directory holds one. -/
def readFixture (project name : String) : ExceptT TaskError m (Option Fixture) := do
  let directory := Path.join (fixtureDirectory project) name
  let path := Path.join directory "expected.json"
  if !(← Host.isDirectory (m := m) directory) || !(← Host.isPresent (m := m) path) then
    return none
  let text ← require (.unreadable path) (Host.read (m := m) path)
  match Json.ofText? text with
  | some expected => return some { name, directory, expected }
  | none => throw (.fixtureSyntax name)

/-- Reads all fixtures, in the order of their names. -/
def readFixtures (project : String) : ExceptT TaskError m (List Fixture) := do
  let directory := fixtureDirectory project
  let names ← require .fixtureDirectory (Host.list (m := m) directory)
  let fixtures ← (Allowlist.ofList names).names.filterMapM (readFixture project)
  if fixtures.isEmpty then throw (.noFixtures directory)
  return fixtures

/-- Prints faults under a heading and fails, if there are any. -/
def refuse (heading : String) (error : Nat → TaskError) (faults : List String) :
    ExceptT TaskError m Unit := do
  if !faults.isEmpty then
    printError ("\n" ++ heading ++ ":\n" ++ bullets faults)
    throw (error faults.length)

/-- Validates the receipt of a fixture; gives whether it has one, and what is wrong. -/
def judgeRecorded (f : Fixture) : ExceptT TaskError m (Bool × List String) := do
  match f.golden? with
  | none =>
    print ("  - " ++ f.name ++ " is an error fixture (no receipt)\n")
    return (false, [])
  | some receipt =>
    print ("  ✓ " ++ f.name ++ " validates\n")
    return (true, (Fixture.receiptFaults receipt).map (Fault.message f.name))

def conform (project : String) : ExceptT TaskError m Unit := do
  print ("✓ " ++ Receipt.schemaName ++ " schema compiles\n")
  let judged ← (← readFixtures project).mapM judgeRecorded
  refuse "Conformance errors" .faults (judged.flatMap Prod.snd)
  print ("\n✓ All " ++ Text.decimal (judged.countP Prod.fst) ++
    " fixture receipts pass conformance checks!\n")

def fixtureArguments (f : Fixture) : CheckArguments where
  policy := Path.join f.directory "policy.toml"
  request := .file (Path.join f.directory "request.json")

/-- The exit code of a check and the text of its receipt, if it has one. -/
def rerun (f : Fixture) : ExceptT TaskError m (UInt32 × Option String) := do
  match ← (Gate.settle (m := m) false (fixtureArguments f)).run with
  | .ok output => return (output.receipt.verdict.exitCode, output.receipt.serialize?)
  | .error _ => return (errorExitCode, none)

/-- Compares a fresh receipt with the recorded one. -/
def compareReceipts (f : Fixture) (text : Option String) (golden : Json) :
    ExceptT TaskError m (List Fault) := do
  match text with
  | none => throw (.receiptMissing f.name .notFound)
  | some text =>
    match Json.ofText? text with
    | none => throw (.receiptSyntax f.name)
    | some receipt =>
      if Fixture.matchesGolden receipt golden then
        print ("  ✓ " ++ f.name ++ " matches golden receipt\n")
        return Fixture.schemaFaults receipt
      else return Fixture.schemaFaults receipt ++ [.differs]

/-- Runs the check of a fixture again and judges the outcome. -/
def judgeFresh (f : Fixture) : ExceptT TaskError m (List String) := do
  let (code, text) ← rerun f
  if f.exitCode?.map Int64.toInt ≠ some (code.toNat : Int) then
    return [(Fault.exitCode code f.exitCode?).message f.name]
  match f.golden? with
  | none =>
    print ("  ✓ " ++ f.name ++ " fails as expected\n")
    return []
  | some golden => return (← compareReceipts f text golden).map (Fault.message f.name)

/-- Runs the check of a fixture, which needs a program that can be run. -/
def judgeWithProgram (program : String) (f : Fixture) : ExceptT TaskError m (List String) := do
  if ← Host.canRun (m := m) program then judgeFresh f
  else throw (.programRefused f.name .permissionDenied)

/-- Validates all recorded receipts, then runs all checks again. -/
def conformFully (project : String) : ExceptT TaskError m Unit := do
  conform project
  print "\n--- Full conformance: fogguard binary output ---\n\n"
  let program := programPath project
  if !(← Host.isPresent (m := m) program) then throw (.programMissing program)
  let faults ← (← readFixtures project).mapM (judgeWithProgram program)
  refuse "Full conformance errors" .fullFaults faults.flatten
  print "\n✓ Full conformance checks passed!\n"

/-! ## Explanations -/

/-- Checks that every predicate and code is explained. -/
def coverExplanations : ExceptT TaskError m Unit := do
  let gaps := Explanation.allGaps
  if gaps.isEmpty then
    print ("✓ " ++ Text.decimal Predicate.ids.length ++ " predicates have explanations\n" ++
      "✓ " ++ Text.decimal Code.names.length ++ " codes have explanations\n" ++
      "\n✓ All explain coverage checks passed!\n")
  else
    printError (bullets gaps)
    throw (.coverageGaps gaps.length)

/-! ## The tasks -/

def help : String :=
  "xtask commands:\n" ++
  "  help              Show this message\n" ++
  "  emit-schemas      Generate JSON schemas from Rust types to schemas/\n" ++
  "  validate-schemas  Check if schemas/ matches generated output (for CI)\n" ++
  "  conform           Validate fixture receipts against the decision schema\n" ++
  "  conform-full      conform + run the built fogguard binary against every fixture\n" ++
  "  explain-coverage  Validate all predicate IDs and codes have explanations\n"

def task (project : String) : String → ExceptT TaskError m Unit
  | "help" | "--help" | "-h" => printError help
  | "emit-schemas" => publishSchemas project
  | "validate-schemas" => compareSchemas project
  | "conform" => conform project
  | "conform-full" => conformFully project
  | "explain-coverage" => coverExplanations
  | "print-schema-ids" => listForms
  | other => throw (.unknownTask other)

/-- Runs the task that the first argument names; without one, lists the tasks. -/
def run (project : String) (arguments : List String) : m UInt32 := do
  match ← (task (m := m) project (arguments.head?.getD "help")).run with
  | .ok () => return 0
  | .error e =>
    Host.printError e.report
    return errorExitCode

end Maintenance

end AdmissionGate
