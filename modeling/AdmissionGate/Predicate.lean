/-!
# Predicate — the names of predicates and finding codes

Nine predicates are evaluated in a fixed order.  Each reports under codes of its own that say why it
failed; only the encoded-payload predicate has more than one, a code for each of its heuristics.

The order of evaluation, the order in which names are listed, the table of codes and the list of all
codes are written out apart, since they are read by different parts of the gate.
-/

namespace AdmissionGate

/-- The admission predicates. -/
inductive Predicate where
  | pauseBeforePropagate
  | intentAllowed
  | domainAllowed
  | ttlWithinLimit
  | childrenWithinLimit
  | concurrencyWithinLimit
  | rateWithinLimit
  | ttlPositive
  | notEncodedPayload
deriving DecidableEq

inductive Code where
  | pauseMissing
  | intentNotAllowlisted
  | domainNotAllowlisted
  | ttlExceedsLimit
  | childrenExceedLimit
  | concurrencyExceedsLimit
  | rateExceedsLimit
  | ttlNotPositive
  | base64Payload
  | urlEncodedPayload
  | dataUriPayload
deriving DecidableEq

/-- The ways in which a payload can look encoded. -/
inductive Heuristic where
  | base64Like
  | urlEncoded
  | dataUri
deriving DecidableEq

namespace Predicate

/-- Every predicate, in the order of evaluation. -/
def all : List Predicate :=
  [.pauseBeforePropagate, .intentAllowed, .domainAllowed, .ttlWithinLimit, .childrenWithinLimit,
    .concurrencyWithinLimit, .rateWithinLimit, .ttlPositive, .notEncodedPayload]

def id : Predicate → String
  | .pauseBeforePropagate => "pause_before_propagate"
  | .intentAllowed => "intent_allowed"
  | .domainAllowed => "domain_allowed"
  | .ttlWithinLimit => "within_limits.ttl"
  | .childrenWithinLimit => "within_limits.children"
  | .concurrencyWithinLimit => "within_limits.concurrency"
  | .rateWithinLimit => "within_limits.rate"
  | .ttlPositive => "ttl_positive"
  | .notEncodedPayload => "not_encoded_payload"

/-- The predicate that is evaluated under a name. -/
def ofId? (text : String) : Option Predicate := all.find? (·.id = text)

/-- Every predicate, in the order in which positions are counted and names are listed. -/
def listing : List Predicate :=
  [.pauseBeforePropagate, .intentAllowed, .domainAllowed, .ttlWithinLimit, .childrenWithinLimit,
    .concurrencyWithinLimit, .rateWithinLimit, .ttlPositive, .notEncodedPayload]

/-- The names of all predicates, as they are listed. -/
def ids : List String := listing.map id

end Predicate

namespace Code

/-- Every code, in the order in which codes are listed. -/
def all : List Code :=
  [.pauseMissing, .intentNotAllowlisted, .domainNotAllowlisted, .ttlExceedsLimit,
    .childrenExceedLimit, .concurrencyExceedsLimit, .rateExceedsLimit, .ttlNotPositive,
    .base64Payload, .urlEncodedPayload, .dataUriPayload]

def name : Code → String
  | .pauseMissing => "pause_missing"
  | .intentNotAllowlisted => "intent_not_allowlisted"
  | .domainNotAllowlisted => "domain_not_allowlisted"
  | .ttlExceedsLimit => "ttl_exceeds_limit"
  | .childrenExceedLimit => "children_exceed_limit"
  | .concurrencyExceedsLimit => "concurrency_exceeds_limit"
  | .rateExceedsLimit => "rate_exceeds_limit"
  | .ttlNotPositive => "ttl_not_positive"
  | .base64Payload => "base64_payload"
  | .urlEncodedPayload => "url_encoded_payload"
  | .dataUriPayload => "data_uri_payload"

def names : List String := all.map name

end Code

namespace Predicate

/-- The predicates with the codes that each can report. -/
def codeTable : List (Predicate × List Code) :=
  [(.pauseBeforePropagate, [.pauseMissing]),
    (.intentAllowed, [.intentNotAllowlisted]),
    (.domainAllowed, [.domainNotAllowlisted]),
    (.ttlWithinLimit, [.ttlExceedsLimit]),
    (.childrenWithinLimit, [.childrenExceedLimit]),
    (.concurrencyWithinLimit, [.concurrencyExceedsLimit]),
    (.rateWithinLimit, [.rateExceedsLimit]),
    (.ttlPositive, [.ttlNotPositive]),
    (.notEncodedPayload, [.base64Payload, .urlEncodedPayload, .dataUriPayload])]

/-- The names of the codes that the predicate of a name can report; none for another name. -/
def codesOf (id : String) : List String :=
  match codeTable.find? (·.1.id = id) with
  | some (_, codes) => codes.map Code.name
  | none => []

/-- The predicate that reports under the code of a name. -/
def reporting? (code : String) : Option Predicate :=
  (codeTable.find? fun entry => code ∈ entry.2.map Code.name).map Prod.fst

end Predicate

namespace Heuristic

/-- Every heuristic; of several that fire, the first in this order names the code. -/
def all : List Heuristic := [.base64Like, .urlEncoded, .dataUri]

/-- The name of a heuristic in findings. -/
def name : Heuristic → String
  | .base64Like => "base64_like"
  | .urlEncoded => "url_encoded"
  | .dataUri => "data_uri"

def code : Heuristic → Code
  | .base64Like => .base64Payload
  | .urlEncoded => .urlEncodedPayload
  | .dataUri => .dataUriPayload

end Heuristic

end AdmissionGate
