import AdmissionGate.Json.Record
import AdmissionGate.Policy.File

/-!
# Policy/FileJson — policy files in JSON

Every key may be absent or null, and what a key of the file does not name is passed over.
-/

namespace AdmissionGate.PolicyFile

open Json (Document Record)

/-- Reads a field that may be null or absent. -/
def field? {α : Type} (r : Record) (name : String) (read : Document → Option α) :
    Option (Option α) :=
  r.defaulted? name (Document.nullable? read) none

def Limits.ofDocument? (d : Document) : Option Limits := do
  let r ← d.record? ["max_ttl", "max_children", "max_concurrency", "max_rate_per_minute"]
  let maxTtl ← field? r "max_ttl" Document.int64?
  let maxChildren ← field? r "max_children" Document.int64?
  let maxConcurrency ← field? r "max_concurrency" Document.int64?
  let maxRate ← field? r "max_rate_per_minute" Document.binary64?
  return { maxTtl, maxChildren, maxConcurrency, maxRate }

def Features.ofDocument? (d : Document) : Option Features := do
  let r ← d.record? ["enforce_encoded_payload"]
  let enforceEncodedPayload ← field? r "enforce_encoded_payload" Document.boolean?
  return { enforceEncodedPayload }

def ofDocument? (d : Document) : Option PolicyFile := do
  let r ← d.record? ["schema", "name", "profile", "wholesome_intents", "safe_domains", "limits",
    "features"]
  let schema ← field? r "schema" Document.text?
  let name ← field? r "name" Document.text?
  let profile ← field? r "profile" Document.text?
  let intents ← field? r "wholesome_intents" (Document.items? Document.text?)
  let domains ← field? r "safe_domains" (Document.items? Document.text?)
  let limits ← field? r "limits" Limits.ofDocument?
  let features ← field? r "features" Features.ofDocument?
  return { schema, name, profile, intents, domains, limits, features }

def ofJsonText? (text : String) : Option PolicyFile :=
  (Document.ofText? text).bind ofDocument?

end AdmissionGate.PolicyFile
