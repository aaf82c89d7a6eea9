import AdmissionGate.Binary64.Basic
import AdmissionGate.Policy.Allowlist

/-!
# Policy — what a gate admits

A policy names the intents and domains that it admits, bounds the amounts of a request, and says
whether encoded payloads are refused.  It is a plain value: putting another policy in force never
changes this one.
-/

namespace AdmissionGate

/-- Upper bounds on the amounts of a request; a request at a bound is within it. -/
structure Limits where
  maxTtl : Int64 := 0
  maxChildren : Int64 := 0
  maxConcurrency : Int64 := 0
  maxRate : Binary64 := .zero
deriving DecidableEq

/-- The rules that requests are evaluated under. -/
structure Policy where
  intents : Allowlist := .empty
  domains : Allowlist := .empty
  limits : Limits := {}
  /-- Refuse payloads that look encoded. -/
  enforceEncodedPayload : Bool := false
deriving DecidableEq

instance : Inhabited Policy := ⟨{}⟩

end AdmissionGate
