import AdmissionGate.Files.Error
import AdmissionGate.Text.Digits

/-!
# Conformance/Error — why a maintenance task fails
-/

namespace AdmissionGate.Conformance

/-- Why a maintenance task fails. -/
inductive TaskError where
  | unknownTask (name : String)
  | schemaDirectory (error : FileError)
  | schemaFile (path : String) (error : FileError)
  | unreadable (path : String) (error : FileError)
  | outdatedSchemas
  | fixtureDirectory (error : FileError)
  | fixtureSyntax (name : String)
  | noFixtures (directory : String)
  | faults (count : Nat)
  | programMissing (path : String)
  | programRefused (fixture : String) (error : FileError)
  | receiptMissing (fixture : String) (error : FileError)
  | receiptSyntax (fixture : String)
  | fullFaults (count : Nat)
  | coverageGaps (count : Nat)
deriving DecidableEq

namespace TaskError

def chain : TaskError → List String
  | .unknownTask name =>
    ["unknown xtask command: " ++ name ++ "\n\nRun `cargo xtask help` for usage."]
  | .schemaDirectory error => ["Failed to create schemas directory", error.message]
  | .schemaFile path error => ["Failed to write schema to " ++ path, error.message]
  | .unreadable path error => ["Failed to read " ++ path, error.message]
  | .outdatedSchemas => ["Schema validation failed"]
  | .fixtureDirectory error => ["Failed to read tests/fixtures/", error.message]
  | .fixtureSyntax name => ["Failed to parse " ++ name ++ "/expected.json", "*"]
  | .noFixtures directory => ["No fixtures found in " ++ directory]
  | .faults count => ["Conformance validation failed with " ++ Text.decimal count ++ " errors"]
  | .programMissing path =>
    ["fogguard binary not found at " ++ path ++ "\n\nRun `cargo build -p fogguard-cli` first."]
  | .programRefused fixture error =>
    ["Failed to run fogguard on fixture '" ++ fixture ++ "'", error.message]
  | .receiptMissing fixture error =>
    ["fixture '" ++ fixture ++ "': receipt not written", error.message]
  | .receiptSyntax fixture => ["fixture '" ++ fixture ++ "': receipt is not JSON", "*"]
  | .fullFaults count =>
    ["Full conformance validation failed with " ++ Text.decimal count ++ " errors"]
  | .coverageGaps count =>
    ["Explain coverage validation failed with " ++ Text.decimal count ++ " errors"]

/-- A text with blanks before each of its lines but the first. -/
def hang (blanks : String) (text : String) : String :=
  ("\n" ++ blanks).intercalate (text.splitOn "\n")

/-- The causes under an error: a single one set in, several of them numbered. -/
def causesText : List String → String
  | [] => ""
  | [cause] => "\n\nCaused by:\n    " ++ hang "    " cause
  | causes =>
    "\n\nCaused by:" ++ String.join (causes.mapIdx fun i cause =>
      "\n    " ++ Text.decimal i ++ ": " ++ hang "       " cause)

/-- What is reported of an error.  A task that is not known is reported by itself, other errors as
causes of a failed run. -/
def report (e : TaskError) : String :=
  "Error: " ++ (match e with
    | .unknownTask _ => "\n".intercalate e.chain
    | _ => "xtask failed" ++ causesText e.chain) ++ "\n"

end TaskError

end AdmissionGate.Conformance
