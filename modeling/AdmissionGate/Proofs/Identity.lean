import AdmissionGate.Proofs.Evidence
import AdmissionGate.Proofs.Fingerprint

/-!
# Proofs/Identity — what fingerprints tell apart

A fingerprint is the digest of a predicate, a code and the values that the predicate looked at.  The
bytes that are digested agree for two findings exactly when these three agree, so failures are
neither merged nor split, short of a collision of digests.
-/

namespace AdmissionGate

/-- Two messages that SHA-256 does not tell apart. -/
def Sha256.Collide (message message' : List UInt8) : Prop :=
  message ≠ message' ∧ digest message = digest message'

namespace Predicate

/-! ## 1. The values that predicates look at -/

/-- Holds when a predicate looks at the same values of two requests under two policies.  Rates are
looked at as they are printed. -/
def SameValues (r : Request) (p : Policy) (r' : Request) (p' : Policy) : Predicate → Prop
  | .pauseBeforePropagate => True
  | .intentAllowed => r.intent = r'.intent
  | .domainAllowed => r.domain = r'.domain
  | .ttlWithinLimit => r.ttl = r'.ttl ∧ p.limits.maxTtl = p'.limits.maxTtl
  | .childrenWithinLimit => r.children = r'.children ∧ p.limits.maxChildren = p'.limits.maxChildren
  | .concurrencyWithinLimit =>
    r.concurrency = r'.concurrency ∧ p.limits.maxConcurrency = p'.limits.maxConcurrency
  | .rateWithinLimit =>
    r.rate.plain = r'.rate.plain ∧ p.limits.maxRate.plain = p'.limits.maxRate.plain
  | .ttlPositive => r.ttl = r'.ttl
  | .notEncodedPayload => r.payload = r'.payload

/-- The texts of the values that a predicate looks at, in the order in which they are framed. -/
def valueTexts (r : Request) (p : Policy) : Predicate → List String
  | .pauseBeforePropagate => []
  | .intentAllowed => [r.intent]
  | .domainAllowed => [r.domain]
  | .ttlWithinLimit =>
    [Text.signedDecimal r.ttl.toInt, Text.signedDecimal p.limits.maxTtl.toInt]
  | .childrenWithinLimit =>
    [Text.signedDecimal r.children.toInt, Text.signedDecimal p.limits.maxChildren.toInt]
  | .concurrencyWithinLimit =>
    [Text.signedDecimal r.concurrency.toInt, Text.signedDecimal p.limits.maxConcurrency.toInt]
  | .rateWithinLimit => [r.rate.plain, p.limits.maxRate.plain]
  | .ttlPositive => [Text.signedDecimal r.ttl.toInt]
  | .notEncodedPayload => [r.inspectablePayload.getD ""]

/-- The bytes that are digested for the finding of a predicate. -/
def digested (r : Request) (p : Policy) (q : Predicate) : List UInt8 :=
  Fingerprint.message q.id (q.finding r p).code (q.valueTexts r p)

variable {r r' : Request} {p p' : Policy} {q q' : Predicate}

theorem fingerprint_finding :
    (q.finding r p).fingerprint = some (Sha256.hexDigest (q.digested r p)) := by
  cases q <;> rfl

/-- Where a predicate fails, the texts of the values tell the values apart. -/
theorem valueTexts_eq_iff (h : ¬ q.Condition r p) (h' : ¬ q.Condition r' p') :
    q.valueTexts r p = q.valueTexts r' p' ↔ q.SameValues r p r' p' := by
  have hnumeral (i j : Int64) :
      Text.signedDecimal i.toInt = Text.signedDecimal j.toInt ↔ i = j := by
    constructor
    · intro htext
      exact Int64.toInt_inj.mp (Text.signedDecimal_injective htext)
    · rintro rfl
      rfl
  cases q with
  | pauseBeforePropagate => exact iff_of_true rfl trivial
  | intentAllowed | domainAllowed => exact List.singleton_inj
  | ttlWithinLimit | childrenWithinLimit | concurrencyWithinLimit | ttlPositive =>
    simp only [valueTexts, SameValues, List.cons.injEq, and_true, hnumeral]
  | rateWithinLimit => simp only [valueTexts, SameValues, List.cons.injEq, and_true]
  | notEncodedPayload =>
    obtain ⟨_, payload, hpayload, _, hinspected, _⟩ := payload_of_not_condition h
    obtain ⟨_, payload', hpayload', _, hinspected', _⟩ := payload_of_not_condition h'
    unfold valueTexts SameValues
    rw [hinspected, hinspected', hpayload, hpayload']
    simp only [Option.getD_some, List.singleton_inj, Option.some_inj]

/-- The digested bytes of two findings agree just when predicate, code and values do. -/
theorem digested_eq_iff (h : ¬ q.Condition r p) (h' : ¬ q'.Condition r' p') :
    q.digested r p = q'.digested r' p' ↔
      q.id = q'.id ∧ (q.finding r p).code = (q'.finding r' p').code ∧ q.SameValues r p r' p' := by
  constructor
  · intro hbytes
    obtain ⟨hid, hcode, hvalues⟩ := Fingerprint.message_inj.mp hbytes
    obtain rfl := id_injective hid
    exact ⟨hid, hcode, (valueTexts_eq_iff h h').mp hvalues⟩
  · rintro ⟨hid, hcode, hvalues⟩
    obtain rfl := id_injective hid
    unfold digested
    rw [hcode, (valueTexts_eq_iff h h').mpr hvalues]

end Predicate

/-! ## 2. Findings of evaluations -/

/-- The digested bytes of any two findings of evaluations agree exactly when predicate, code and
values looked at do.  Findings of the same bytes have the same fingerprint, and others only where
the bytes collide. -/
theorem fingerprints_identify_failures (r r' : Request) (p p' : Policy) :
    ∀ f ∈ (evaluate r p).findings, ∀ g ∈ (evaluate r' p').findings, ∃ q q' : Predicate,
      f = q.finding r p ∧ g = q'.finding r' p' ∧
      f.fingerprint = some (Sha256.hexDigest (q.digested r p)) ∧
      g.fingerprint = some (Sha256.hexDigest (q'.digested r' p')) ∧
      (q.digested r p = q'.digested r' p' ↔
        f.predicate = g.predicate ∧ f.code = g.code ∧ q.SameValues r p r' p') ∧
      (q.digested r p = q'.digested r' p' → f.fingerprint = g.fingerprint) ∧
      (f.fingerprint = g.fingerprint → q.digested r p = q'.digested r' p' ∨
        Sha256.Collide (q.digested r p) (q'.digested r' p')) := by
  intro f hf g hg
  obtain ⟨q, rfl, hq⟩ := exists_of_mem_findings hf
  obtain ⟨q', rfl, hq'⟩ := exists_of_mem_findings hg
  refine ⟨q, q', rfl, rfl, Predicate.fingerprint_finding, Predicate.fingerprint_finding, ?_, ?_, ?_⟩
  · rw [finding_predicate, finding_predicate]
    exact Predicate.digested_eq_iff hq hq'
  · intro hbytes
    rw [Predicate.fingerprint_finding, Predicate.fingerprint_finding, hbytes]
  · intro hfingerprint
    rw [Predicate.fingerprint_finding, Predicate.fingerprint_finding] at hfingerprint
    have hdigest := Sha256.digest_eq_of_hexDigest_eq (Option.some.inj hfingerprint)
    by_cases hbytes : q.digested r p = q'.digested r' p'
    · exact .inl hbytes
    · exact .inr ⟨hbytes, hdigest⟩

/-- A request whose intent is the frame of another intent. -/
def framedRequest : Request := { intent := "4:spam" }

def spamRequest : Request := { intent := "spam" }

theorem framed_intent_is_told_apart :
    (Predicate.intentAllowed.finding framedRequest {} ∈ (evaluate framedRequest {}).findings ∧
      Predicate.intentAllowed.finding spamRequest {} ∈ (evaluate spamRequest {}).findings) ∧
    ∃ q q' : Predicate,
      Predicate.intentAllowed.finding framedRequest {} = q.finding framedRequest {} ∧
      Predicate.intentAllowed.finding spamRequest {} = q'.finding spamRequest {} ∧
      q.digested framedRequest {} ≠ q'.digested spamRequest {} := by
  have hmem (r : Request) (h : ¬ Predicate.intentAllowed.Condition r {}) :
      Predicate.intentAllowed.finding r {} ∈ (evaluate r {}).findings :=
    List.mem_map_of_mem (mem_failed_iff.mpr h)
  have hframed := hmem framedRequest (by decide)
  have hspam := hmem spamRequest (by decide)
  obtain ⟨q, q', hq, hq', _, _, hiff, _⟩ :=
    fingerprints_identify_failures _ _ _ _ _ hframed _ hspam
  refine ⟨⟨hframed, hspam⟩, q, q', hq, hq', fun hbytes => ?_⟩
  have hid : Predicate.intentAllowed.id = q.id := by
    rw [← finding_predicate (r := framedRequest) (p := {}), hq, finding_predicate]
  obtain rfl := Predicate.id_injective hid
  have hintent : framedRequest.intent = spamRequest.intent := (hiff.mp hbytes).2.2
  exact absurd hintent (by decide)

end AdmissionGate
