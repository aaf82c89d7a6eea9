import AdmissionGate.Json.Record
import AdmissionGate.Receipt
import AdmissionGate.Timestamp.Rfc3339

/-!
# Receipt/Decode — reading receipts

A receipt is read field by field.  Help, fingerprint, data and profile may be absent.  The data of a
finding is free-form and has the nesting that the three levels around it leave.
-/

namespace AdmissionGate

open Json (Document Record)

/-- Reads a verdict: its name, or an object with the name as its one key and null under it. -/
def Verdict.ofDocument? : Document → Option Verdict
  | .string (some "allow") | .object [(some "allow", .null)] => some .allow
  | .string (some "deny") | .object [(some "deny", .null)] => some .deny
  | _ => none

def Timestamp.ofDocument? (d : Document) : Option Timestamp :=
  d.text?.bind Timestamp.ofRfc3339?

def Finding.ofDocument? (d : Document) : Option Finding := do
  let r ← d.record? ["predicate", "code", "message", "help", "fingerprint", "data"]
  let predicate ← r.required? "predicate" Document.text?
  let code ← r.required? "code" Document.text?
  let message ← r.required? "message" Document.text?
  let help ← r.nullable? "help" Document.text?
  let fingerprint ← r.nullable? "fingerprint" Document.text?
  let data ← r.defaulted? "data" (Json.ofDocument? (Json.maxNesting - 3)) .null
  return { predicate, code, message, help, fingerprint, data }

namespace Receipt

def Tool.ofDocument? (d : Document) : Option Tool := do
  let r ← d.record? ["name", "version"]
  let name ← r.required? "name" Document.text?
  let version ← r.required? "version" Document.text?
  return { name, version }

def Summary.ofDocument? (d : Document) : Option Summary := do
  let r ← d.record? ["policy", "profile", "enforce_encoded_payload", "predicates_evaluated"]
  let policy ← r.required? "policy" Document.text?
  let profile ← r.nullable? "profile" Document.text?
  let enforceEncodedPayload ← r.required? "enforce_encoded_payload" Document.boolean?
  let predicatesEvaluated ← r.required? "predicates_evaluated" Document.uint32?
  return { policy, profile, enforceEncodedPayload, predicatesEvaluated }

def ofDocument? (d : Document) : Option Receipt := do
  let r ← d.record? ["schema", "tool", "started_at", "finished_at", "verdict", "allow",
    "failed_predicates", "findings", "data"]
  let schema ← r.required? "schema" Document.text?
  let tool ← r.required? "tool" Tool.ofDocument?
  let startedAt ← r.required? "started_at" Timestamp.ofDocument?
  let finishedAt ← r.required? "finished_at" Timestamp.ofDocument?
  let verdict ← r.required? "verdict" Verdict.ofDocument?
  let allow ← r.required? "allow" Document.boolean?
  let failed ← r.required? "failed_predicates" (Document.items? Document.text?)
  let findings ← r.required? "findings" (Document.items? Finding.ofDocument?)
  let summary ← r.required? "data" Summary.ofDocument?
  return {
    schema, tool, startedAt, finishedAt, verdict, allow, failed, findings, summary }

def ofText? (text : String) : Option Receipt :=
  (Document.ofText? text).bind ofDocument?

end Receipt

end AdmissionGate
