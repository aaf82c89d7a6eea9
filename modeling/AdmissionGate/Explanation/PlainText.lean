import AdmissionGate.Explanation.Worked
import AdmissionGate.Json.Writer

/-!
# Explanation/PlainText — explanations for terminals

Headings are underlined to their length.  A name that is not known is answered with the suggestions,
if there are any, and with the list of all predicates and their codes.
-/

namespace AdmissionGate.Explanation

/-- A line with a line of the same length under it. -/
def underlined (mark : Char) (line : String) : String :=
  line ++ "\n" ++ String.ofList (List.replicate line.length mark) ++ "\n"

/-- One line for each text, set in and with a dash. -/
def bullets (texts : List String) : String :=
  String.join (texts.map fun text => "  - " ++ text ++ "\n")

def WorkedRequest.outcome (w : WorkedRequest) : String :=
  if w.failed.isEmpty then "allow"
  else "deny (" ++ ", ".intercalate (w.failed.map Predicate.id) ++ ")"

/-- An example under its label, with its outcome. -/
def WorkedRequest.toText (label : String) (w : WorkedRequest) : String :=
  "\n" ++ label ++ ":\n" ++ w.request.pretty ++ "\n=> " ++ w.outcome ++ "\n"

/-- The place of the predicate, on two lines. -/
def Slot.toText (s : Slot) : String :=
  "Predicate: " ++ s.predicate.id ++ " (" ++ Text.decimal s.position ++ " of " ++
    Text.decimal Predicate.listing.length ++ ")\nCodes: " ++ ", ".intercalate s.codes ++ "\n"

def heuristicsText (heuristics : List Heuristic) : String :=
  if heuristics.isEmpty then ""
  else "\n" ++ underlined '-' "Heuristics (the first match names the code)" ++
    bullets (heuristics.map fun h => h.name ++ " -> " ++ h.code.name)

def examplesText (denied admitted : Option WorkedRequest) : String :=
  if denied.isNone && admitted.isNone then ""
  else "\n" ++ underlined '-' "Worked example (default preset, encoded-payload check on)" ++
    (denied.map (WorkedRequest.toText "Denied")).getD "" ++
    (admitted.map (WorkedRequest.toText "Admitted")).getD ""

def Worked.toText (w : Worked) : String :=
  underlined '=' w.explanation.title ++ "\n" ++ w.slot.toText ++ "\n" ++
    w.explanation.description ++ "\n\n" ++ underlined '-' "Remediation" ++
    w.explanation.remediation ++ "\n" ++ heuristicsText w.heuristics ++
    examplesText w.denied w.admitted

def unknownText (name : String) (suggestions : List String) : String :=
  "Unknown predicate or code: " ++ name ++ "\n\n" ++
    (if suggestions.isEmpty then "" else "Did you mean:\n" ++ bullets suggestions ++ "\n") ++
    "Known predicates, in evaluation order:\n" ++
    String.join (Predicate.codeTable.mapIdx fun i (predicate, codes) =>
      "  " ++ Text.decimal (i + 1) ++ ". " ++ predicate.id ++ " [" ++
        ", ".intercalate (codes.map Code.name) ++ "]\n")

def Answer.toText : Answer → String
  | .found worked => worked.toText
  | .unknown name suggestions => unknownText name suggestions

end AdmissionGate.Explanation
