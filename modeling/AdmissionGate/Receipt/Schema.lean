import AdmissionGate.Schema

/-!
# Receipt/Schema — the published schema of receipts
-/

namespace AdmissionGate

open Schema (Kind)

namespace Schema

def text : Schema := .kinds [.string]

def nullableText : Schema := .kinds [.string, .null]

end Schema

def Verdict.publishedSchema : Schema :=
  .named "Verdict" (.described
    "Admission outcome. There is no third state: errors never become a verdict."
    (.texts ["allow", "deny"]))

def Finding.publishedSchema : Schema :=
  .named "Finding" (.described
    "One failed predicate, with enough context to explain the denial."
    (.record
      [("code", .text),
        ("data", .described
          "Predicate-specific structured payload (kept open-ended for forward compatibility)."
          .anything),
        ("fingerprint", .described
          ("Stable identifier intended for dedup and trending. A hash of:\n" ++
            "`predicate + code + salient request values`.")
          .nullableText),
        ("help", .nullableText),
        ("message", .text),
        ("predicate", .text)]
      ["predicate", "code", "message"]))

namespace Receipt

def Tool.publishedSchema : Schema :=
  .named "ToolMeta" (.record [("name", .text), ("version", .text)] ["name", "version"])

def Summary.publishedSchema : Schema :=
  .named "DecisionData" (.described
    "Fogguard-specific summary payload for the receipt."
    (.record
      [("enforce_encoded_payload", .kinds [.boolean]),
        ("policy", .described "Display name of the policy that was applied." .text),
        ("predicates_evaluated", .numeric [.integer] "uint32" (some 0)),
        ("profile", .described "Preset the policy inherited from, if any." .nullableText)]
      ["policy", "enforce_encoded_payload", "predicates_evaluated"]))

def schemaTitle : String := "DecisionReceipt"

def publishedSchema : Schema :=
  .described "The receipt emitted for one admission decision."
    (.record
      [("allow", .kinds [.boolean]),
        ("data", Summary.publishedSchema),
        ("failed_predicates", .described
          "Predicate IDs that evaluated false, in evaluation order."
          (.items [.array] .text)),
        ("findings", .items [.array] Finding.publishedSchema),
        ("finished_at", .text),
        ("schema", .described "Versioned schema identifier for the receipt shape." .text),
        ("started_at", .text),
        ("tool", Tool.publishedSchema),
        ("verdict", Verdict.publishedSchema)]
      ["schema", "tool", "started_at", "finished_at", "verdict", "allow", "failed_predicates",
        "findings", "data"])

end Receipt

end AdmissionGate
