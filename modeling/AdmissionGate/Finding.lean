import AdmissionGate.Json.Basic

/-!
# Finding — what a failed predicate reports

A finding names its predicate and code by their texts, since findings are also read from receipts
that may name others.  Its data is a free-form value with all keys in order.
-/

namespace AdmissionGate

/-- One failed predicate, with enough context to explain the denial. -/
structure Finding where
  predicate : String
  code : String
  message : String
  help : Option String := none
  /-- A stable identity: the digest of predicate, code and the values looked at. -/
  fingerprint : Option String := none
  /-- Values behind the finding; null when there are none. -/
  data : Json := .null
deriving DecidableEq

/-- The outcome of an evaluation. -/
inductive Verdict where
  | allow
  | deny
deriving DecidableEq

namespace Verdict

def ofAllow (allow : Bool) : Verdict := if allow then .allow else .deny

end Verdict

end AdmissionGate
