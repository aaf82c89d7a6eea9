import AdmissionGate.Binary64.Basic
import AdmissionGate.Text.Blank

/-!
# Request — one proposed action

A request says what an agent wants to do and for which limits it asks.  The default request has
empty names, zero amounts and no attestation; every policy denies it.
-/

namespace AdmissionGate

/-- One proposed action of an agent. -/
structure Request where
  /-- Declared purpose of the action. -/
  intent : String := ""
  /-- Network domain that the action targets. -/
  domain : String := ""
  /-- Propagation hops that remain. -/
  ttl : Int64 := 0
  /-- Child actions that the action would spawn. -/
  children : Int64 := 0
  /-- Operations that the action runs at once. -/
  concurrency : Int64 := 0
  /-- Actions per minute. -/
  rate : Binary64 := .zero
  /-- Content that the action carries. -/
  payload : Option String := none
  /-- The caller attests that it paused for review. -/
  pauseAttested : Bool := false
deriving DecidableEq

namespace Request

/-- The payload, when it has anything to inspect; a blank payload counts as none. -/
def inspectablePayload (r : Request) : Option String :=
  r.payload.filter fun payload => !Text.allBlank payload

end Request

end AdmissionGate
