import AdmissionGate.Explanation
import AdmissionGate.Evaluation
import AdmissionGate.Policy.Resolve
import AdmissionGate.Request.Decode

/-!
# Explanation/Worked — explanations with their place and their examples decided

An explanation under a name is shown with the slot of its predicate in the order of evaluation and
with its two examples decided as a check would decide them.  Names match character for character; a
name that is not known is answered with the known names that contain it.
-/

namespace AdmissionGate

open Json (insertMember)

namespace Explanation

/-- The place of a predicate in the order of evaluation. -/
structure Slot where
  predicate : Predicate
  /-- Counted from one. -/
  position : Nat
  /-- Names of the codes that the predicate can report. -/
  codes : List String
deriving DecidableEq

/-- The slot under a name: that of the listed predicate with this name or reporting under it. -/
def Slot.ofName? (name : String) : Option Slot := do
  let id := ((Predicate.reporting? name).map Predicate.id).getD name
  let index ← Predicate.listing.findFinIdx? (·.id = id)
  return ⟨Predicate.listing.get index, index + 1, Predicate.codesOf id⟩

/-- A complete request with the outcome of its evaluation. -/
structure WorkedRequest where
  request : Json
  failed : List Predicate
  /-- The explained predicate is among those that fail. -/
  trips : Bool
deriving DecidableEq

/-- The request that every example starts from; the example policy allows it. -/
def baseline : List (String × Json) :=
  Json.sortMembers [
    ("pauseBeforePropagate", .boolean true),
    ("intent", .string "creative"),
    ("domain", .string "github.com"),
    ("ttl", .ofInt64 3),
    ("children", .ofInt64 5),
    ("concurrency", .ofInt64 2),
    ("rate", .ofInt64 30)]

/-- The policy that examples are decided under: the standard preset, which here refuses encoded
payloads. -/
def examplePolicy : Policy :=
  FeatureFlags.apply ⟨some true⟩ Preset.standard.policy

/-- Decides the baseline request with the members of an example put in. -/
def work? (predicate : Predicate) (fragment : String) : Option WorkedRequest :=
  match Json.ofText? fragment with
  | some (.object overrides) =>
    let members := overrides.foldl (fun all (key, value) => insertMember key value all) baseline
    match Request.ofMembers members with
    | .ok request => some {
        request := .object members
        failed := (evaluate request examplePolicy).failed
        trips := (Predicate.ofId? predicate.id).any fun q => !q.holds request examplePolicy }
    | .error _ => none
  | _ => none

/-- Everything that is shown under a name. -/
structure Worked where
  name : String
  explanation : Explanation
  slot : Slot
  /-- The ways in which the predicate fails, where it has several. -/
  heuristics : List Heuristic
  denied : Option WorkedRequest
  admitted : Option WorkedRequest
deriving DecidableEq

/-- The answer to a name. -/
inductive Answer where
  | found (worked : Worked)
  | unknown (name : String) (suggestions : List String)
deriving DecidableEq

/-- The names that contain a name, blanks at its ends aside; none for a blank name. -/
def suggestions (name : String) : List String :=
  let part := Text.trim name
  if part.isEmpty then []
  else (Predicate.ids ++ Code.names).filter (Text.occursIn part)

def heuristicsOf : Predicate → List Heuristic
  | .notEncodedPayload => Heuristic.all
  | _ => []

end Explanation

open Explanation in
/-- Explains a predicate or code. -/
def explain (name : String) : Explanation.Answer :=
  match Explanation.ofName? name, Slot.ofName? name with
  | some explanation, some slot =>
    .found {
      name, explanation, slot
      heuristics := heuristicsOf slot.predicate
      denied := work? slot.predicate explanation.denied
      admitted := work? slot.predicate explanation.admitted }
  | _, _ => .unknown name (suggestions name)

end AdmissionGate
