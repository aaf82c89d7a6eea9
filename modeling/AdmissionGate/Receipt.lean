import AdmissionGate.Evaluation
import AdmissionGate.Policy.Resolve
import AdmissionGate.Timestamp

/-!
# Receipt — the record of one decision

A receipt wraps a decision in an envelope that names its form, the tool, the times and the policy.
Predicates and codes are texts here: a receipt may be read from a file that knows others.
-/

namespace AdmissionGate

namespace Receipt

structure Tool where
  name : String
  version : String
deriving DecidableEq

/-- What a receipt says about the policy and the evaluation. -/
structure Summary where
  /-- Display name of the policy. -/
  policy : String
  /-- Preset that the policy inherits from. -/
  profile : Option String := none
  enforceEncodedPayload : Bool
  predicatesEvaluated : UInt32
deriving DecidableEq

/-- The name that receipts give to their own form. -/
def schemaName : String := "fogguard.decision.v1"

def thisTool : Tool := ⟨"fogguard", "0.1.0"⟩

end Receipt

/-- The record of one decision. -/
structure Receipt where
  schema : String
  tool : Receipt.Tool
  startedAt : Timestamp
  finishedAt : Timestamp
  verdict : Verdict
  allow : Bool
  failed : List String
  findings : List Finding
  summary : Receipt.Summary
deriving DecidableEq

namespace Receipt

def ofDecision (d : Decision) (policy : ResolvedPolicy) (startedAt finishedAt : Timestamp) :
    Receipt where
  schema := schemaName
  tool := thisTool
  startedAt := startedAt
  finishedAt := finishedAt
  verdict := d.verdict
  allow := d.allow
  failed := d.failed.map Predicate.id
  findings := d.findings
  summary := {
    policy := policy.name
    profile := policy.profile
    enforceEncodedPayload := policy.policy.enforceEncodedPayload
    predicatesEvaluated := d.evaluated }

end Receipt

end AdmissionGate
