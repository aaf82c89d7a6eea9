import AdmissionGate.Binary64.Layout

/-!
# Policy/Error — why a policy cannot be put together

Errors are causes; `Policy.Error.message` gives each its text.  What exactly is wrong with a text
that does not parse is not reported, and a star stands in its place.
-/

namespace AdmissionGate

/-- The two ways to write a policy file. -/
inductive PolicyFormat where
  | toml
  | json
deriving DecidableEq

namespace PolicyFormat

def label : PolicyFormat → String
  | .toml => "TOML"
  | .json => "JSON"

/-- A file is JSON when its name ends in `.json`, in any case of ASCII letters, else TOML. -/
def ofFileName (name : String) : PolicyFormat :=
  if ".json".toList <:+ name.toList.map Char.toLower then .json else .toml

end PolicyFormat

namespace Policy

/-- The name that policy files give to their own form. -/
def schemaName : String := "fogguard.policy.v1"

/-- Sections that a policy has to get from its file or from a preset. -/
inductive Section where
  | intents
  | domains
  | limits
deriving DecidableEq

def Section.key : Section → String
  | .intents => "wholesome_intents"
  | .domains => "safe_domains"
  | .limits => "limits"

/-- The four bounds of a policy, in the order in which they are checked. -/
inductive Bound where
  | ttl
  | children
  | concurrency
  | rate
deriving DecidableEq

def Bound.key : Bound → String
  | .ttl => "max_ttl"
  | .children => "max_children"
  | .concurrency => "max_concurrency"
  | .rate => "max_rate_per_minute"

/-- What is wrong with the value of a bound. -/
inductive BoundFault where
  | negative (value : Int64)
  | notFinite (value : Binary64)
  | belowZero (value : Binary64)
deriving DecidableEq

def BoundFault.message : BoundFault → String
  | .negative value => "must not be negative, got " ++ Text.signedDecimal value.toInt
  | .notFinite value => "must be a finite number, got " ++ value.plain
  | .belowZero value => "must not be negative, got " ++ value.plain

/-- The two spellings of the feature flag in a flags object, in the order of reading. -/
inductive FlagSpelling where
  | snakeCase
  | camelCase
deriving DecidableEq

def FlagSpelling.key : FlagSpelling → String
  | .snakeCase => "enforce_encoded_payload"
  | .camelCase => "enforceEncodedPayload"

/-- What is wrong with a text of feature flags. -/
inductive FlagsFault where
  | notJson
  | notAnObject
  | notBoolean (spelling : FlagSpelling)
  | disagreement
deriving DecidableEq

def FlagsFault.message : FlagsFault → String
  | .notJson => "*"
  | .notAnObject => "expected a JSON object"
  | .notBoolean spelling => "`" ++ spelling.key ++ "` must be a boolean"
  | .disagreement =>
    "`" ++ FlagSpelling.snakeCase.key ++ "` and `" ++ FlagSpelling.camelCase.key ++ "` disagree"

/-- Why there is no policy.  An unknown profile carries the names that are known. -/
inductive Error where
  | parse (format : PolicyFormat)
  | unsupportedSchema (found : String)
  | unknownProfile (name : String) (known : List String)
  | missingSection (missing : Section)
  | missingBound (bound : Bound)
  | invalidBound (bound : Bound) (fault : BoundFault)
  | invalidFlags (fault : FlagsFault)
deriving DecidableEq

def Error.message : Error → String
  | .parse format => "failed to parse policy " ++ format.label ++ ": *"
  | .unsupportedSchema found =>
    "unsupported policy schema `" ++ found ++ "` (expected `" ++ schemaName ++ "`)"
  | .unknownProfile name known =>
    "unknown profile `" ++ name ++ "` (expected one of: " ++ ", ".intercalate known ++ ")"
  | .missingSection missing => "policy is missing required section `" ++ missing.key ++ "`"
  | .missingBound bound =>
    "policy section `" ++ Section.limits.key ++ "` is missing required key `" ++ bound.key ++ "`"
  | .invalidBound bound fault => "invalid limit `" ++ bound.key ++ "`: " ++ fault.message
  | .invalidFlags fault => "invalid feature flags: " ++ fault.message

end Policy

end AdmissionGate
