import AdmissionGate.Conformance.Golden
import AdmissionGate.Conformance.Vocabulary
import AdmissionGate.Receipt.Schema

/-!
# Conformance/Fixture — recorded outcomes and how they are judged

A fixture is a policy, a request and the outcome that is expected of their check: an exit code and,
unless the check is to fail, a receipt.
-/

namespace AdmissionGate.Conformance

/-- A fixture: a directory with its name and the value of what is expected. -/
structure Fixture where
  name : String
  directory : String
  expected : Json
deriving DecidableEq

/-- What is wrong with an outcome. -/
inductive Fault where
  | invalid (violation : Schema.Violation)
  | vocabulary (fault : VocabularyFault)
  | exitCode (found : UInt32) (expected : Option Int64)
  | differs
deriving DecidableEq

namespace Fault

def codeText : Option Int → String
  | some code => "Some(" ++ Text.signedDecimal code ++ ")"
  | none => "None"

def message (fixture : String) : Fault → String
  | .invalid violation => fixture ++ ": schema validation: " ++ violation.message
  | .vocabulary fault => fault.message fixture
  | .exitCode found expected =>
    "fixture '" ++ fixture ++ "': exit code " ++ codeText (some found.toNat) ++ ", expected " ++
      codeText (expected.map Int64.toInt)
  | .differs => fixture ++ ": receipt differs from golden"

end Fault

namespace Fixture

/-- The receipt that a fixture expects, unless it expects an error. -/
def golden? (f : Fixture) : Option Json := f.expected.get? "receipt"

def exitCode? (f : Fixture) : Option Int64 :=
  match f.expected.get? "exit_code" with
  | some (.number n) => n.toInt64?
  | _ => none

def schemaFaults (receipt : Json) : List Fault :=
  (Receipt.publishedSchema.violations receipt).map .invalid

def receiptFaults (receipt : Json) : List Fault :=
  schemaFaults receipt ++ (vocabularyFaults receipt).map .vocabulary

/-- Whether a receipt is a recorded one, but for what differs from run to run. -/
def matchesGolden (receipt golden : Json) : Bool :=
  decide (receipt.normalized = golden.normalized)

end Fixture

end AdmissionGate.Conformance
