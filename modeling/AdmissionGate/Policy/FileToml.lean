import AdmissionGate.Policy.File
import AdmissionGate.Toml.Reader

/-!
# Policy/FileToml — policy files in TOML

Every key may be absent, and what a key of the file does not name is passed over.  An array may
stand for a table: its items are the fields in their declared order.  A date says nothing about any
field.
-/

namespace AdmissionGate

namespace Toml.Value

def text? : Value → Option String
  | .string s => some s
  | _ => none

def boolean? : Value → Option Bool
  | .boolean b => some b
  | _ => none

def int64? : Value → Option Int64
  | .integer i =>
    if Int64.minValue.toInt ≤ i ∧ i ≤ Int64.maxValue.toInt then some (Int64.ofInt i) else none
  | _ => none

/-- A float within range, or an integer within signed or unsigned 64 bits as the nearest double. -/
def binary64? : Value → Option Binary64
  | .integer i =>
    if Int64.minValue.toInt ≤ i ∧ i < UInt64.size then some (Binary64.ofInt i) else none
  | .float x => x
  | _ => none

/-- The items of an array, each read in the same way. -/
def items? {α : Type} (read : Value → Option α) : Value → Option (List α)
  | .array items => items.mapM read
  | _ => none

/-- The fields of a record with these names. -/
def record? (names : List String) : Value → Option (List (String × Value))
  | .table members => some members
  | .array items => some (names.zip items)
  | .datetime => some []
  | _ => none

end Toml.Value

namespace PolicyFile

/-- Reads a field that may be absent. -/
def tomlField? {α : Type} (fields : List (String × Toml.Value)) (name : String)
    (read : Toml.Value → Option α) : Option (Option α) :=
  match fields.lookup name with
  | some value => (read value).map some
  | none => some none

def Limits.ofToml? (value : Toml.Value) : Option Limits := do
  let r ← value.record? ["max_ttl", "max_children", "max_concurrency", "max_rate_per_minute"]
  let maxTtl ← tomlField? r "max_ttl" Toml.Value.int64?
  let maxChildren ← tomlField? r "max_children" Toml.Value.int64?
  let maxConcurrency ← tomlField? r "max_concurrency" Toml.Value.int64?
  let maxRate ← tomlField? r "max_rate_per_minute" Toml.Value.binary64?
  return { maxTtl, maxChildren, maxConcurrency, maxRate }

def Features.ofToml? (value : Toml.Value) : Option Features := do
  let r ← value.record? ["enforce_encoded_payload"]
  let enforceEncodedPayload ← tomlField? r "enforce_encoded_payload" Toml.Value.boolean?
  return { enforceEncodedPayload }

def ofToml? (r : List (String × Toml.Value)) : Option PolicyFile := do
  let schema ← tomlField? r "schema" Toml.Value.text?
  let name ← tomlField? r "name" Toml.Value.text?
  let profile ← tomlField? r "profile" Toml.Value.text?
  let intents ← tomlField? r "wholesome_intents" (Toml.Value.items? Toml.Value.text?)
  let domains ← tomlField? r "safe_domains" (Toml.Value.items? Toml.Value.text?)
  let limits ← tomlField? r "limits" Limits.ofToml?
  let features ← tomlField? r "features" Features.ofToml?
  return { schema, name, profile, intents, domains, limits, features }

def ofTomlText? (text : String) : Option PolicyFile :=
  (Toml.ofText? text).bind ofToml?

end PolicyFile

end AdmissionGate
