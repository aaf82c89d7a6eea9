import AdmissionGate.Binary64.Basic

/-!
# Policy/File — what a policy file says

Every part of a policy file may be absent; what is required is settled when the file is resolved
against a preset.
-/

namespace AdmissionGate

namespace PolicyFile

structure Limits where
  maxTtl : Option Int64 := none
  maxChildren : Option Int64 := none
  maxConcurrency : Option Int64 := none
  maxRate : Option Binary64 := none
deriving DecidableEq

/-- The features that a file switches. -/
structure Features where
  enforceEncodedPayload : Option Bool := none
deriving DecidableEq

end PolicyFile

structure PolicyFile where
  /-- The form that the file says it has. -/
  schema : Option String := none
  /-- Display name of the policy. -/
  name : Option String := none
  /-- Preset that supplies what the file leaves out. -/
  profile : Option String := none
  intents : Option (List String) := none
  domains : Option (List String) := none
  limits : Option PolicyFile.Limits := none
  features : Option PolicyFile.Features := none
deriving DecidableEq

end AdmissionGate
