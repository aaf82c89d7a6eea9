import AdmissionGate.Predicate

/-!
# Explanation — what a predicate or code means

Each predicate and each code has an explanation with a pair of examples: members of a request that
make the predicate fail, and members that let it pass.  The three codes of the encoded-payload
predicate share its text and have titles of their own.
-/

namespace AdmissionGate

/-- What people are told of a predicate or code. -/
structure Explanation where
  /-- A short name. -/
  title : String
  /-- What is required, and why. -/
  description : String
  /-- How to get a request admitted. -/
  remediation : String
  /-- Members of a request that is denied, as the text of a JSON object. -/
  denied : String
  /-- Members of a request that passes the predicate, as the text of a JSON object. -/
  admitted : String
deriving DecidableEq

namespace Explanation

/-- Lines as one text. -/
def paragraph (lines : List String) : String := "\n".intercalate lines

/-- The text of a JSON object with one member. -/
def member (key value : String) : String := "\x7b \"" ++ key ++ "\": " ++ value ++ " \x7d"

/-- The text of a JSON object with an intent and an attestation. -/
def attestation (value : String) : String :=
  "\x7b \"intent\": \"creative\", \"pauseBeforePropagate\": " ++ value ++ " \x7d"

end Explanation

open Explanation (paragraph member attestation)

def Predicate.explanation : Predicate → Explanation
  | .pauseBeforePropagate => {
      title := "Pause Before Propagate"
      description := paragraph [
        "Requires the caller to attest that it paused for review before issuing the request.",
        "",
        "Propagation, replication, and outbound contact all create load on the network.",
        "An agent that fires them without a review pause is exactly the runaway behavior",
        "the gate exists to stop, so a missing or false attestation is always denied."]
      remediation := paragraph [
        "Insert the review pause in the agent loop, then set `pauseBeforePropagate` to",
        "`true` on the request. Do not set the flag without actually pausing."]
      denied := attestation "false"
      admitted := attestation "true" }
  | .intentAllowed => {
      title := "Wholesome Intent"
      description := paragraph [
        "The request's declared `intent` must appear in the policy's `wholesome_intents`",
        "allowlist.",
        "",
        "Matching is exact and case-sensitive: `Creative` does not match `creative`."]
      remediation := paragraph [
        "Declare one of the allowlisted intents, or have the policy owner add the new",
        "intent to `wholesome_intents` after review."]
      denied := member "intent" "\"exfiltrate\""
      admitted := member "intent" "\"creative\"" }
  | .domainAllowed => {
      title := "Safe Domain"
      description := paragraph [
        "The request's target `domain` must appear in the policy's `safe_domains`",
        "allowlist.",
        "",
        "Matching is exact, byte-for-byte. No case folding, punycode conversion, or",
        "wildcard expansion is performed. A look-alike domain that differs from an",
        "allowlisted entry by a single code point (for example `githüb.com`) is denied."]
      remediation := paragraph [
        "Target an allowlisted domain exactly as written in the policy, or request that",
        "the domain be added to `safe_domains`."]
      denied := member "domain" "\"githüb.com\""
      admitted := member "domain" "\"github.com\"" }
  | .ttlWithinLimit => {
      title := "TTL Within Limit"
      description := paragraph [
        "The remaining hop budget `ttl` must be less than or equal to `limits.max_ttl`.",
        "",
        "A TTL above the limit would let the action propagate further than the policy",
        "allows."]
      remediation := "Lower the request's `ttl` to at most `max_ttl`."
      denied := member "ttl" "4"
      admitted := member "ttl" "3" }
  | .childrenWithinLimit => {
      title := "Children Within Limit"
      description := paragraph [
        "The number of child actions or agents the request would spawn must be less",
        "than or equal to `limits.max_children`."]
      remediation := paragraph [
        "Spawn fewer children per action, or split the work across separately admitted",
        "requests."]
      denied := member "children" "6"
      admitted := member "children" "5" }
  | .concurrencyWithinLimit => {
      title := "Concurrency Within Limit"
      description := paragraph [
        "The number of concurrent operations the request needs must be less than or",
        "equal to `limits.max_concurrency`."]
      remediation := "Reduce the requested concurrency."
      denied := member "concurrency" "3"
      admitted := member "concurrency" "2" }
  | .rateWithinLimit => {
      title := "Rate Within Limit"
      description := paragraph [
        "The requested rate (actions per minute) must be less than or equal to",
        "`limits.max_rate_per_minute`.",
        "",
        "The gate does not measure rates itself. The caller supplies the figure."]
      remediation := "Throttle the action so the declared rate is at or below the limit."
      denied := member "rate" "31"
      admitted := member "rate" "30" }
  | .ttlPositive => {
      title := "TTL Positive"
      description := paragraph [
        "The remaining hop budget `ttl` must be strictly greater than zero.",
        "",
        "An action with no hops left must not propagate, regardless of `max_ttl`."]
      remediation := "Stop propagating once the TTL is exhausted. Never reset or negate it."
      denied := member "ttl" "0"
      admitted := member "ttl" "1" }
  | .notEncodedPayload => {
      title := "No Encoded Payload"
      description := paragraph [
        "When `enforce_encoded_payload` is enabled, payloads that look encoded are denied.",
        "",
        "Three heuristics are applied to non-blank payloads; any one of them flags it:",
        "- base64-like: the whole payload is 4+ characters from `[A-Za-z0-9+/]` with up",
        "  to two `=` padding characters. Plain alphanumeric words of 4+ characters",
        "  also match.",
        "- URL-encoded: the payload contains `%` followed by two hex digits anywhere.",
        "- data URI: the payload starts with `data:`.",
        "",
        "Empty or whitespace-only payloads are never inspected. With the flag disabled",
        "this predicate always passes."]
      remediation := paragraph [
        "Send payloads as plain, reviewable text. If a payload must carry binary data,",
        "route it through a channel that is not gated by this policy."]
      denied := member "payload" "\"aGVsbG8gd29ybGQ=\""
      admitted := member "payload" "\"hello world\"" }

def Code.explanation : Code → Explanation
  | .pauseMissing => Predicate.pauseBeforePropagate.explanation
  | .intentNotAllowlisted => Predicate.intentAllowed.explanation
  | .domainNotAllowlisted => Predicate.domainAllowed.explanation
  | .ttlExceedsLimit => Predicate.ttlWithinLimit.explanation
  | .childrenExceedLimit => Predicate.childrenWithinLimit.explanation
  | .concurrencyExceedsLimit => Predicate.concurrencyWithinLimit.explanation
  | .rateExceedsLimit => Predicate.rateWithinLimit.explanation
  | .ttlNotPositive => Predicate.ttlPositive.explanation
  | .base64Payload =>
    { Predicate.notEncodedPayload.explanation with title := "Base64-like Payload" }
  | .urlEncodedPayload =>
    { Predicate.notEncodedPayload.explanation with
      title := "URL-encoded Payload"
      denied := member "payload" "\"test%20string\""
      admitted := member "payload" "\"test string\"" }
  | .dataUriPayload =>
    { Predicate.notEncodedPayload.explanation with
      title := "Data URI Payload"
      denied := member "payload" "\"data:text/plain;base64,SGk=\""
      admitted := member "payload" "\"Hi there\"" }

namespace Explanation

def predicateEntry (q : Predicate) : String × Explanation := (q.id, q.explanation)

def codeEntry (c : Code) : String × Explanation := (c.name, c.explanation)

/-- The names that are explained, a table apart from the lists of predicates and of codes. -/
def table : List (String × Explanation) :=
  [predicateEntry .pauseBeforePropagate,
    predicateEntry .intentAllowed,
    predicateEntry .domainAllowed,
    predicateEntry .ttlWithinLimit,
    predicateEntry .childrenWithinLimit,
    predicateEntry .concurrencyWithinLimit,
    predicateEntry .rateWithinLimit,
    predicateEntry .ttlPositive,
    predicateEntry .notEncodedPayload,
    codeEntry .pauseMissing,
    codeEntry .intentNotAllowlisted,
    codeEntry .domainNotAllowlisted,
    codeEntry .ttlExceedsLimit,
    codeEntry .childrenExceedLimit,
    codeEntry .concurrencyExceedsLimit,
    codeEntry .rateExceedsLimit,
    codeEntry .ttlNotPositive,
    codeEntry .base64Payload,
    codeEntry .urlEncodedPayload,
    codeEntry .dataUriPayload]

/-- The explanation under a name, that of a predicate or of a code. -/
def ofName? (name : String) : Option Explanation := table.lookup name

/-- What is missing from the explanation under a name that is known as one of a kind. -/
def gaps (kind name : String) : List String :=
  let subject := kind ++ " '" ++ name ++ "' has "
  match ofName? name with
  | none => [subject ++ "no explanation"]
  | some e =>
    [(e.title, "title"), (e.description, "description"), (e.remediation, "remediation")].filterMap
      fun (text, part) => if text.isEmpty then some (subject ++ "empty " ++ part) else none

/-- What is missing from the explanations of all predicates and codes. -/
def allGaps : List String :=
  Predicate.ids.flatMap (gaps "Predicate") ++ Code.names.flatMap (gaps "Code")

end Explanation

end AdmissionGate
