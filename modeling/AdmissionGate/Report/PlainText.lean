import AdmissionGate.Report
import AdmissionGate.Text.Digits

/-!
# Report/PlainText — reports for terminals

Two header lines always stand.  An explained report goes on with one line for each entry and one for
its help, or with a note when there is no entry.
-/

namespace AdmissionGate.Report

/-- The decision and the policy, a line each. -/
def headerText (r : Report) : String :=
  "Policy Decision: " ++ r.verdict.label ++ "\nPolicy: " ++ r.summary.policy ++ "\n"

def Entry.toText (e : Entry) : String :=
  "  - " ++ e.predicate ++ ": " ++ e.message ++ "\n" ++
    match e.help with
    | some help => "    help: " ++ help ++ "\n"
    | none => ""

/-- What explains the decision. -/
def explanationText (r : Report) : String :=
  if r.entries.isEmpty then
    "\nAll " ++ Text.decimal r.summary.predicatesEvaluated.toNat ++ " predicates passed.\n"
  else "\nFailed predicates:\n" ++ String.join (r.entries.map Entry.toText)

def toText (r : Report) (explain : Bool) : String :=
  r.headerText ++ if explain then r.explanationText else ""

end AdmissionGate.Report
