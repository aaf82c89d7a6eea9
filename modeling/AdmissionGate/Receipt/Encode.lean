import AdmissionGate.Json.Writer
import AdmissionGate.Receipt
import AdmissionGate.Timestamp.Rfc3339

/-!
# Receipt/Encode — receipts in JSON

Fields stand in their declared order.  An absent help text, fingerprint or profile is left out, and
so is data that is null.  A receipt can be encoded when both its times have a text.
-/

namespace AdmissionGate

/-- The text of a verdict in receipts. -/
def Verdict.name : Verdict → String
  | .allow => "allow"
  | .deny => "deny"

/-- A member for a value that is there, and none for one that is absent. -/
def Json.optionalMember (key : String) : Option String → List (String × Json)
  | some text => [(key, .string text)]
  | none => []

def Finding.toJson (f : Finding) : Json :=
  .object (
    [("predicate", .string f.predicate), ("code", .string f.code),
      ("message", .string f.message)] ++
    Json.optionalMember "help" f.help ++ Json.optionalMember "fingerprint" f.fingerprint ++
    (if f.data = .null then [] else [("data", f.data)]))

namespace Receipt

def Tool.toJson (t : Tool) : Json :=
  .object [("name", .string t.name), ("version", .string t.version)]

def Summary.toJson (s : Summary) : Json :=
  .object (
    ("policy", .string s.policy) :: Json.optionalMember "profile" s.profile ++
    [("enforce_encoded_payload", .boolean s.enforceEncodedPayload),
      ("predicates_evaluated", .number (.ofUInt32 s.predicatesEvaluated))])

/-- A receipt in JSON, with its times given as texts. -/
def toJson (r : Receipt) (startedAt finishedAt : String) : Json :=
  .object [
    ("schema", .string r.schema),
    ("tool", r.tool.toJson),
    ("started_at", .string startedAt),
    ("finished_at", .string finishedAt),
    ("verdict", .string r.verdict.name),
    ("allow", .boolean r.allow),
    ("failed_predicates", .ofStrings r.failed),
    ("findings", .array (r.findings.map Finding.toJson)),
    ("data", r.summary.toJson)]

/-- A receipt in JSON, if both its times have a text. -/
def toJson? (r : Receipt) : Option Json := do
  let startedAt ← r.startedAt.toRfc3339?
  let finishedAt ← r.finishedAt.toRfc3339?
  return r.toJson startedAt finishedAt

/-- The indented JSON text of a receipt, without a line break at its end. -/
def serialize? (r : Receipt) : Option String := r.toJson?.map Json.pretty

end Receipt

end AdmissionGate
