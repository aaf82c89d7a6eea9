import AdmissionGate.Proofs.Evaluation

/-!
# Proofs/Evidence — what the data of findings bear out

The test of a predicate and the report on its failure are written apart.  `Predicate.Evidence` says
what the data of a finding have to tell about the request and the policy, and that this is a
failure.  Every finding of an evaluation is such evidence on the predicate that it names.
-/

namespace AdmissionGate

/-! ## Payloads -/

namespace Payload

/-- Whether the test of a heuristic is met. -/
def Signals.fires (s : Signals) : Heuristic → Bool
  | .base64Like => s.base64Like
  | .urlEncoded => s.urlEncoded
  | .dataUri => s.dataUri

/-- Heuristics are reported in the order of their table. -/
theorem Signals.fired_eq_filter (s : Signals) : s.fired = Heuristic.all.filter s.fires := by
  obtain ⟨base64Like, urlEncoded, dataUri⟩ := s
  cases base64Like <;> cases urlEncoded <;> cases dataUri <;> rfl

/-- Holds of payloads that meet the test of a heuristic. -/
def Meets (payload : String) : Heuristic → Prop
  | .base64Like => looksBase64 payload = true
  | .urlEncoded => hasUrlEscape payload = true
  | .dataUri => isDataUri payload = true

variable {payload : String} {h : Heuristic}

theorem mem_fired_detect_iff : h ∈ (detect payload).fired ↔ Meets payload h := by
  have hall : h ∈ Heuristic.all := by cases h <;> decide
  rw [Signals.fired_eq_filter, List.mem_filter, and_iff_right hall]
  cases h <;> rfl

theorem fired_detect_ne_nil (h : isEncoded payload = true) : (detect payload).fired ≠ [] := by
  have hmeets : ∃ h, Meets payload h := by
    unfold isEncoded at h
    rw [Bool.or_eq_true, Bool.or_eq_true] at h
    rcases h with (h | h) | h
    · exact ⟨.base64Like, h⟩
    · exact ⟨.urlEncoded, h⟩
    · exact ⟨.dataUri, h⟩
  obtain ⟨h, hh⟩ := hmeets
  exact List.ne_nil_of_mem (mem_fired_detect_iff.mpr hh)

/-- The order of the codes is that of the heuristics. -/
theorem Signals.primaryCode_eq_head (s : Signals) :
    s.primaryCode = s.fired.head?.map Heuristic.code := by
  obtain ⟨base64Like, urlEncoded, dataUri⟩ := s
  cases base64Like <;> cases urlEncoded <;> cases dataUri <;> rfl

end Payload

/-! ## Evidence -/

/-- Evidence that an amount is above its bound: the finding names the amount and holds both. -/
def Finding.Exceeds (f : Finding) (field : String) (value limit : Int64) : Prop :=
  f.predicate = "within_limits." ++ field ∧
  f.data = .object [("field", .string field), ("limit", .ofInt64 limit),
    ("value", .ofInt64 value)] ∧
  limit.toInt < value.toInt

/-- Evidence that a payload looks encoded: the finding lists the heuristics that the whole payload
meets, the first of which gives the code, and counts its characters, in 64 bits. -/
def Finding.ShowsEncoding (f : Finding) (payload : String) : Prop :=
  ∃ (first : Heuristic) (others : List Heuristic) (count : UInt64),
    (first :: others).Sublist [.base64Like, .urlEncoded, .dataUri] ∧
    (∀ h, h ∈ first :: others ↔ Payload.Meets payload h) ∧
    f.code = first.code.name ∧
    (Payload.detect payload).primaryCode = some first.code ∧
    f.data = .object [("heuristics", .ofStrings ((first :: others).map Heuristic.name)),
      ("payload_len", .number (.ofUInt64 count))] ∧
    count.toNat = payload.length % UInt64.size

namespace Predicate

/-- What a finding has to tell to bear out that a predicate fails. -/
def Evidence (r : Request) (p : Policy) (f : Finding) : Predicate → Prop
  | .pauseBeforePropagate =>
    f.data = .object [("pause_before_propagate", .boolean false)] ∧ r.pauseAttested = false
  | .intentAllowed => f.data = .object [("intent", .string r.intent)] ∧ r.intent ∉ p.intents.names
  | .domainAllowed => f.data = .object [("domain", .string r.domain)] ∧ r.domain ∉ p.domains.names
  | .ttlWithinLimit => f.Exceeds "ttl" r.ttl p.limits.maxTtl
  | .childrenWithinLimit => f.Exceeds "children" r.children p.limits.maxChildren
  | .concurrencyWithinLimit => f.Exceeds "concurrency" r.concurrency p.limits.maxConcurrency
  | .rateWithinLimit =>
    f.predicate = "within_limits." ++ "rate" ∧
    f.data = .object [("field", .string "rate"), ("limit", .ofBinary64 p.limits.maxRate),
      ("value", .ofBinary64 r.rate)] ∧
    ¬ r.rate ≤ p.limits.maxRate
  | .ttlPositive => f.data = .object [("ttl", .ofInt64 r.ttl)] ∧ r.ttl.toInt ≤ 0
  | .notEncodedPayload =>
    p.enforceEncodedPayload = true ∧
    ∃ payload, r.payload = some payload ∧ ¬ Text.Blank payload ∧ f.ShowsEncoding payload

variable {r : Request} {p : Policy} {q : Predicate}

/-- The predicate on payloads fails on an encoded payload only, which it inspects as it stands. -/
theorem payload_of_not_condition (h : ¬ notEncodedPayload.Condition r p) :
    p.enforceEncodedPayload = true ∧ ∃ payload, r.payload = some payload ∧
      ¬ Text.Blank payload ∧ r.inspectablePayload = some payload ∧
      Payload.isEncoded payload = true := by
  obtain ⟨henforces, hpayload⟩ := not_or.mp h
  push Not at hpayload
  obtain ⟨payload, hpayload, hblank, hencoded⟩ := hpayload
  exact ⟨Bool.eq_true_of_not_eq_false henforces, payload, hpayload, hblank,
    inspectablePayload_eq_some_iff.mpr ⟨hpayload, hblank⟩, Bool.eq_true_of_not_eq_false hencoded⟩

/-- Some test is met where the predicate on payloads fails, so that the report never falls back on
a code. -/
theorem evidence_notEncodedPayload (h : ¬ notEncodedPayload.Condition r p) :
    notEncodedPayload.Evidence r p (reportEncoded r) := by
  obtain ⟨henforces, payload, hpayload, hblank, hinspect, hencoded⟩ := payload_of_not_condition h
  refine ⟨henforces, payload, hpayload, hblank, ?_⟩
  have hfired := Payload.fired_detect_ne_nil hencoded
  obtain ⟨first, others, hcons⟩ := List.exists_cons_of_ne_nil hfired
  have hcode := (Payload.detect payload).primaryCode_eq_head
  rw [hcons, List.head?_cons, Option.map_some] at hcode
  unfold reportEncoded
  rw [hinspect, Option.getD_some]
  dsimp only
  rw [hcode, hcons]
  refine ⟨first, others, _, ?_, fun h => ?_, rfl, hcode, rfl, UInt64.toNat_ofNat'⟩
  · rw [← hcons, Payload.Signals.fired_eq_filter]
    exact List.filter_sublist
  · rw [← hcons]
    exact Payload.mem_fired_detect_iff

/-- A finding on a predicate that fails bears out the failure. -/
theorem evidence_finding (h : ¬ q.Condition r p) : q.Evidence r p (q.finding r p) := by
  cases q with
  | pauseBeforePropagate => exact ⟨rfl, Bool.eq_false_iff.mpr h⟩
  | intentAllowed => exact ⟨rfl, h⟩
  | domainAllowed => exact ⟨rfl, h⟩
  | ttlWithinLimit => exact ⟨rfl, rfl, Int.not_le.mp h⟩
  | childrenWithinLimit => exact ⟨rfl, rfl, Int.not_le.mp h⟩
  | concurrencyWithinLimit => exact ⟨rfl, rfl, Int.not_le.mp h⟩
  | rateWithinLimit => exact ⟨rfl, rfl, mt Binary64.le_iff_extended.mp h⟩
  | ttlPositive => exact ⟨rfl, Int.not_lt.mp h⟩
  | notEncodedPayload => exact evidence_notEncodedPayload h

end Predicate

theorem exists_of_mem_findings {r : Request} {p : Policy} {f : Finding}
    (h : f ∈ (evaluate r p).findings) :
    ∃ q : Predicate, f = q.finding r p ∧ ¬ q.Condition r p := by
  obtain ⟨q, hq, rfl⟩ := List.mem_map.mp h
  exact ⟨q, rfl, mem_failed_iff.mp hq⟩

/-- Every finding of an evaluation names a predicate that fails, and its data bear that out. -/
theorem findings_bear_out_failures (r : Request) (p : Policy) :
    ∀ f ∈ (evaluate r p).findings, ∃ q : Predicate, f.predicate = q.id ∧
      ¬ q.Condition r p ∧ q.Evidence r p f := by
  intro f hf
  obtain ⟨q, rfl, hq⟩ := exists_of_mem_findings hf
  exact ⟨q, finding_predicate, hq, Predicate.evidence_finding hq⟩

/-- A request whose payload starts with a blank: the test on its first characters is not met, since
nothing is trimmed, and the test for escapes is. -/
def paddedRequest : Request := { payload := some " data:%41" }

def refusingPolicy : Policy := { enforceEncodedPayload := true }

theorem padded_payload_bears_out_failure :
    Predicate.reportEncoded paddedRequest ∈ (evaluate paddedRequest refusingPolicy).findings ∧
      ∃ q : Predicate, (Predicate.reportEncoded paddedRequest).predicate = q.id ∧
        ¬ q.Condition paddedRequest refusingPolicy ∧
        q.Evidence paddedRequest refusingPolicy (Predicate.reportEncoded paddedRequest) := by
  have hfails : ¬ Predicate.notEncodedPayload.Condition paddedRequest refusingPolicy := by decide
  have hmem : Predicate.reportEncoded paddedRequest ∈
      (evaluate paddedRequest refusingPolicy).findings :=
    List.mem_map.mpr ⟨.notEncodedPayload, mem_failed_iff.mpr hfails, rfl⟩
  exact ⟨hmem, findings_bear_out_failures _ _ _ hmem⟩

end AdmissionGate
