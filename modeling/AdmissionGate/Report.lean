import AdmissionGate.Receipt

/-!
# Report — what people read of a decision

A report holds the parts of a receipt that are shown in text and Markdown.
-/

namespace AdmissionGate

namespace Report

/-- A finding as it is shown. -/
structure Entry where
  predicate : String
  code : String
  message : String
  help : Option String := none
deriving DecidableEq

end Report

/-- A decision as it is shown. -/
structure Report where
  verdict : Verdict
  failed : List String
  entries : List Report.Entry
  summary : Receipt.Summary
deriving DecidableEq

def Report.ofReceipt (r : Receipt) : Report where
  verdict := r.verdict
  failed := r.failed
  entries := r.findings.map fun f => ⟨f.predicate, f.code, f.message, f.help⟩
  summary := r.summary

/-- The word that reports use for a verdict. -/
def Verdict.label : Verdict → String
  | .allow => "ALLOW"
  | .deny => "DENY"

end AdmissionGate
