import AdmissionGate.Report
import AdmissionGate.Text.Digits

/-!
# Report/Markdown — reports for documents

A list of the verdict and the circumstances, then a section for each entry, or a note when there is
none.
-/

namespace AdmissionGate.Report

/-- The title and the list of circumstances. -/
def markdownHeader (r : Report) : String :=
  "# Fogguard decision\n\n- Verdict: **" ++ r.verdict.label ++ "**\n- Policy: `" ++
    r.summary.policy ++ "`\n" ++
    (match r.summary.profile with
      | some profile => "- Profile: `" ++ profile ++ "`\n"
      | none => "") ++
    "- Encoded payload check: " ++
    (if r.summary.enforceEncodedPayload then "enforced" else "off") ++
    "\n- Predicates evaluated: " ++ Text.decimal r.summary.predicatesEvaluated.toNat ++ "\n\n"

/-- The note that stands for the sections when there is no entry. -/
def markdownNote : Verdict → String
  | .allow => "All predicates passed.\n"
  | .deny => "Denied without findings.\n"

/-- The section of an entry. -/
def Entry.toMarkdown (e : Entry) : String :=
  "### `" ++ e.predicate ++ "`\n\n- code: `" ++ e.code ++ "`\n- " ++ e.message ++ "\n" ++
    (match e.help with
      | some help => "- help: " ++ help ++ "\n"
      | none => "") ++
    "\n"

def toMarkdown (r : Report) : String :=
  r.markdownHeader ++
    if r.entries.isEmpty then markdownNote r.verdict
    else "## Failed predicates\n\n" ++ String.join (r.entries.map Entry.toMarkdown)

end AdmissionGate.Report
