import AdmissionGate.Fingerprint
import AdmissionGate.Finding
import AdmissionGate.Payload
import AdmissionGate.Policy
import AdmissionGate.Request

/-!
# Evaluation — deciding a request under a policy

Every predicate is evaluated, in the fixed order, and each failure leaves a finding.  A request is
allowed only if nothing failed.
-/

namespace AdmissionGate

namespace Predicate

/-- Whether a request satisfies a predicate under a policy.  The bound on the rate compares as
IEEE 754 does, so a rate that is not a number is above every bound. -/
def holds (r : Request) (p : Policy) : Predicate → Bool
  | .pauseBeforePropagate => r.pauseAttested
  | .intentAllowed => decide (r.intent ∈ p.intents)
  | .domainAllowed => decide (r.domain ∈ p.domains)
  | .ttlWithinLimit => decide (r.ttl ≤ p.limits.maxTtl)
  | .childrenWithinLimit => decide (r.children ≤ p.limits.maxChildren)
  | .concurrencyWithinLimit => decide (r.concurrency ≤ p.limits.maxConcurrency)
  | .rateWithinLimit => decide (r.rate ≤ p.limits.maxRate)
  | .ttlPositive => decide (0 < r.ttl)
  -- Without a payload to inspect there is nothing to refuse.
  | .notEncodedPayload =>
    !p.enforceEncodedPayload ||
      match r.inspectablePayload with
      | some payload => !Payload.isEncoded payload
      | none => true

/-- A finding under one of the known codes, with its fingerprint over the values looked at. -/
def report (predicate : Predicate) (code : Code) (message help : String) (values : List String)
    (data : Json) : Finding where
  predicate := predicate.id
  code := code.name
  message := message
  help := some help
  fingerprint := some (Fingerprint.compute predicate.id code.name values)
  data := data

/-- The finding of an amount over its bound. -/
def reportExcess (predicate : Predicate) (code : Code) (field bound value limit : String)
    (valueData limitData : Json) : Finding :=
  predicate.report code (field ++ " " ++ value ++ " exceeds " ++ bound ++ " " ++ limit)
    "Lower the requested value to the policy limit or below." [value, limit]
    (.object [("field", .string field), ("limit", limitData), ("value", valueData)])

def reportIntegerExcess (predicate : Predicate) (code : Code) (field bound : String)
    (value limit : Int64) : Finding :=
  predicate.reportExcess code field bound (Text.signedDecimal value.toInt)
    (Text.signedDecimal limit.toInt) (.ofInt64 value) (.ofInt64 limit)

/-- The finding of a payload that looks encoded. -/
def reportEncoded (r : Request) : Finding :=
  -- The predicate fails only where a payload was inspected and a test was met.
  let payload := r.inspectablePayload.getD ""
  let signals := Payload.detect payload
  let names := signals.fired.map Heuristic.name
  Predicate.notEncodedPayload.report (signals.primaryCode.getD .base64Payload)
    ("payload looks encoded (" ++ ", ".intercalate names ++ ")")
    "Send payloads as plain, reviewable text." [payload]
    (.object [("heuristics", .ofStrings names),
      ("payload_len", .ofNat payload.length)])

/-- What a predicate reports of a request that it fails on. -/
def finding (r : Request) (p : Policy) : Predicate → Finding
  | .pauseBeforePropagate =>
    Predicate.pauseBeforePropagate.report .pauseMissing
      "request did not attest a pause before propagating"
      "Pause for review, then set pauseBeforePropagate to true." []
      (.object [("pause_before_propagate", .boolean false)])
  | .intentAllowed =>
    Predicate.intentAllowed.report .intentNotAllowlisted
      ("intent '" ++ r.intent ++ "' is not in the wholesome intents allowlist")
      "Declare an allowlisted intent, or ask the policy owner to add this one." [r.intent]
      (.object [("intent", .string r.intent)])
  | .domainAllowed =>
    Predicate.domainAllowed.report .domainNotAllowlisted
      ("domain '" ++ r.domain ++ "' is not in the safe domains allowlist")
      "Target an allowlisted domain exactly as written; no normalization is applied." [r.domain]
      (.object [("domain", .string r.domain)])
  | .ttlWithinLimit =>
    Predicate.ttlWithinLimit.reportIntegerExcess .ttlExceedsLimit "ttl" "max_ttl" r.ttl
      p.limits.maxTtl
  | .childrenWithinLimit =>
    Predicate.childrenWithinLimit.reportIntegerExcess .childrenExceedLimit "children"
      "max_children" r.children p.limits.maxChildren
  | .concurrencyWithinLimit =>
    Predicate.concurrencyWithinLimit.reportIntegerExcess .concurrencyExceedsLimit "concurrency"
      "max_concurrency" r.concurrency p.limits.maxConcurrency
  | .rateWithinLimit =>
    Predicate.rateWithinLimit.reportExcess .rateExceedsLimit "rate" "max_rate_per_minute"
      r.rate.plain p.limits.maxRate.plain (.ofBinary64 r.rate) (.ofBinary64 p.limits.maxRate)
  | .ttlPositive =>
    let ttl := Text.signedDecimal r.ttl.toInt
    Predicate.ttlPositive.report .ttlNotPositive
      ("ttl " ++ ttl ++ " is not positive; the action has no hops left")
      "Stop propagating once the TTL is exhausted." [ttl] (.object [("ttl", .ofInt64 r.ttl)])
  | .notEncodedPayload => reportEncoded r

end Predicate

/-- The result of one evaluation. -/
structure Decision where
  /-- True only if every predicate held. -/
  allow : Bool
  /-- The predicates that failed, in the order of evaluation. -/
  failed : List Predicate
  /-- One finding for each failed predicate, in the same order. -/
  findings : List Finding
  evaluated : UInt32
deriving DecidableEq

def Decision.verdict (d : Decision) : Verdict := .ofAllow d.allow

/-- Evaluates every predicate and collects every failure. -/
def evaluate (r : Request) (p : Policy) : Decision :=
  let failed := Predicate.all.filter fun predicate => !predicate.holds r p
  { allow := failed.isEmpty
    failed := failed
    findings := failed.map (Predicate.finding r p)
    evaluated := UInt32.ofNat Predicate.all.length }

/-- Whether every predicate holds; stops at the first one that does not. -/
def isAllowed (r : Request) (p : Policy) : Bool :=
  Predicate.all.all (Predicate.holds r p)

/-- Whether all four amounts of a request are within their bounds. -/
def withinLimits (r : Request) (p : Policy) : Bool :=
  Predicate.ttlWithinLimit.holds r p && Predicate.childrenWithinLimit.holds r p &&
    Predicate.concurrencyWithinLimit.holds r p && Predicate.rateWithinLimit.holds r p

end AdmissionGate
