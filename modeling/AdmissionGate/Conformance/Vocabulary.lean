import AdmissionGate.Json.Basic
import AdmissionGate.Predicate

/-!
# Conformance/Vocabulary — receipts that use unknown names or contradict themselves

The check works on the JSON value of a receipt and is lenient about its shape: what is absent or of
another type counts as empty, and failed predicates that are no strings are passed over.
-/

namespace AdmissionGate.Conformance

/-- What a receipt gets wrong. -/
inductive VocabularyFault where
  | unknownPredicate (id : String)
  | countMismatch (findings failed : Nat)
  | unknownCode (index : Nat) (code : String)
  | wrongAllow
deriving DecidableEq

def VocabularyFault.message (receipt : String) : VocabularyFault → String
  | .unknownPredicate id => receipt ++ ": unknown predicate '" ++ id ++ "'"
  | .countMismatch findings failed =>
    receipt ++ ": " ++ Text.decimal findings ++ " findings for " ++ Text.decimal failed ++
      " failed predicates"
  | .unknownCode index code =>
    receipt ++ ": findings[" ++ Text.decimal index ++ "] has unknown code '" ++ code ++ "'"
  | .wrongAllow => receipt ++ ": allow must be true iff nothing failed"

/-- The items of an array under a key; none when there is no array. -/
def itemsUnder (key : String) (value : Json) : List Json :=
  match value.get? key with
  | some (.array items) => items
  | _ => []

def textOf : Json → Option String
  | .string text => some text
  | _ => none

/-- The code of a finding; the empty text when it has none. -/
def codeOf (finding : Json) : String := ((finding.get? "code").bind textOf).getD ""

def allowOf (receipt : Json) : Option Bool :=
  match receipt.get? "allow" with
  | some (.boolean allow) => some allow
  | _ => none

/-- What a receipt gets wrong, in the order of its fields. -/
def vocabularyFaults (receipt : Json) : List VocabularyFault :=
  let failed := itemsUnder "failed_predicates" receipt
  let findings := itemsUnder "findings" receipt
  ((failed.filterMap textOf).filter (· ∉ Predicate.ids)).map .unknownPredicate ++
    (if findings.length = failed.length then []
      else [.countMismatch findings.length failed.length]) ++
    (findings.zipIdx.filterMap fun (finding, index) =>
      if codeOf finding ∈ Code.names then none else some (.unknownCode index (codeOf finding))) ++
    (if allowOf receipt = some failed.isEmpty then [] else [.wrongAllow])

end AdmissionGate.Conformance
