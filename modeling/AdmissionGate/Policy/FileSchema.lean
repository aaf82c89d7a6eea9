import AdmissionGate.Policy.File
import AdmissionGate.Schema

/-!
# Policy/FileSchema — the published schema of policy files
-/

namespace AdmissionGate.PolicyFile

open Schema (Kind)

/-- A text or null, with a note. -/
def optionalText (note : String) : Schema := .described note (.kinds [.string, .null])

/-- A list of names or null, with a note. -/
def optionalNames (note : String) : Schema :=
  .described note (.items [.array, .null] (.kinds [.string]))

def optionalSection (schema : Schema) : Schema := .anyOf [schema, .kinds [.null]]

/-- An integer bound or null. -/
def optionalBound : Schema := .numeric [.integer, .null] "int64" none

def Features.publishedSchema : Schema :=
  .named "FeaturesConfig" (.record
    [("enforce_encoded_payload", .described
      "Deny payloads that look base64-, URL-, or data-URI-encoded."
      (.kinds [.boolean, .null]))]
    [])

def Limits.publishedSchema : Schema :=
  .named "LimitsConfig" (.described
    "Inclusive upper bounds. All four keys are required unless a `profile` supplies them."
    (.record
      [("max_children", optionalBound),
        ("max_concurrency", optionalBound),
        ("max_rate_per_minute", .numeric [.number, .null] "double" none),
        ("max_ttl", optionalBound)]
      []))

def schemaTitle : String := "PolicyFileV1"

def publishedSchema : Schema :=
  .described
    ("Policy file schema v1 (`fogguard.policy.v1`).\n\n" ++
      "This is a *user-facing* model: every section is optional here so that a file can\n" ++
      "inherit from a preset. Required-ness is enforced during resolution.")
    (.record
      [("features", optionalSection Features.publishedSchema),
        ("limits", optionalSection Limits.publishedSchema),
        ("name", optionalText "Display name reported in decisions."),
        ("profile", optionalText
          "Preset to inherit omitted sections from: `default` or `strict`."),
        ("safe_domains", optionalNames "Exact-match allowlist of target domains."),
        ("schema", optionalText "Optional schema string for tooling (`fogguard.policy.v1`)."),
        ("wholesome_intents", optionalNames "Exact-match allowlist of declared intents.")]
      [])

end AdmissionGate.PolicyFile
