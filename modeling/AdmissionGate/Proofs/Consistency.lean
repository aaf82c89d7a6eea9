import AdmissionGate.Check
import AdmissionGate.Explanation.Worked
import AdmissionGate.Proofs.Conformance.Vocabulary
import AdmissionGate.Proofs.Evidence

/-!
# Proofs/Consistency — receipts and the tables of names

The order of predicates, the codes of each, the list of all codes, the explanations and the check on
the vocabulary of receipts are kept apart.  Each agrees with what evaluations report, so a receipt
of an evaluation is consistent with all of them.
-/

namespace AdmissionGate

/-! ## Predicates, codes and explanations -/

namespace Predicate

variable {q : Predicate} {code : String}

/-- The codes that the findings of a predicate can bear. -/
def codes : Predicate → List Code
  | .pauseBeforePropagate => [.pauseMissing]
  | .intentAllowed => [.intentNotAllowlisted]
  | .domainAllowed => [.domainNotAllowlisted]
  | .ttlWithinLimit => [.ttlExceedsLimit]
  | .childrenWithinLimit => [.childrenExceedLimit]
  | .concurrencyWithinLimit => [.concurrencyExceedsLimit]
  | .rateWithinLimit => [.rateExceedsLimit]
  | .ttlPositive => [.ttlNotPositive]
  | .notEncodedPayload => [.base64Payload, .urlEncodedPayload, .dataUriPayload]

/-- The table of codes has the predicates in their order, each with the codes of its findings. -/
theorem codeTable_eq_map : codeTable = all.map fun q => (q, q.codes) := rfl

/-- A code that a predicate can report is listed, and no other predicate reports it. -/
theorem listed_of_mem_codes (h : code ∈ q.codes.map Code.name) :
    code ∈ Code.names ∧ reporting? code = some q := by
  have hall : ∀ c ∈ q.codes.map Code.name, c ∈ Code.names ∧ reporting? c = some q := by
    cases q <;> decide
  exact hall code h

theorem code_mem_codes (r : Request) (p : Policy) :
    (q.finding r p).code ∈ q.codes.map Code.name := by
  cases q with
  | notEncodedPayload =>
    have hcode (c : Code) (h : c ∈ notEncodedPayload.codes) :
        c.name ∈ notEncodedPayload.codes.map Code.name := List.mem_map_of_mem h
    apply hcode
    -- The fallback is one of the three codes too.
    unfold Payload.Signals.primaryCode
    split_ifs <;> decide
  | _ => exact List.mem_singleton.mpr rfl

end Predicate

namespace Explanation

variable {q : Predicate} {name : String}

theorem slot_of_id (q : Predicate) : (Slot.ofName? q.id).map Slot.predicate = some q := by
  cases q <;> decide

theorem slot_of_code (h : Predicate.reporting? name = some q) :
    (Slot.ofName? name).map Slot.predicate = some q := by
  unfold Slot.ofName?
  rw [h, Option.map_some, Option.getD_some]
  cases q <;> rfl

theorem explain_of_slot {e : Explanation} (hname : ofName? name = some e)
    (hslot : (Slot.ofName? name).map Slot.predicate = some q) :
    ∃ worked, explain name = .found worked ∧ worked.slot.predicate = q := by
  obtain ⟨slot, hfound, rfl⟩ := Option.map_eq_some_iff.mp hslot
  unfold explain
  rw [hname, hfound]
  exact ⟨_, rfl, rfl⟩

theorem explain_id (q : Predicate) :
    ∃ worked, explain q.id = .found worked ∧ worked.slot.predicate = q := by
  have hname : ofName? q.id = some q.explanation := by
    cases q <;> rfl
  exact explain_of_slot hname (slot_of_id q)

theorem explain_code {c : Code} (h : Predicate.reporting? c.name = some q) :
    ∃ worked, explain c.name = .found worked ∧ worked.slot.predicate = q := by
  have hname : ofName? c.name = some c.explanation := by
    cases c <;> rfl
  exact explain_of_slot hname (slot_of_code h)

end Explanation

/-! ## Receipts of evaluations -/

/-- Holds of a receipt whose parts agree with each other, with the tables of names and with the
policy that it is about. -/
structure Receipt.Consistent (r : Receipt) (policy : ResolvedPolicy) : Prop where
  verdict : r.verdict = .allow ↔ r.allow = true
  allow : r.allow = true ↔ r.failed = []
  exitCode : r.verdict.exitCode = if r.failed = [] then 0 else 2
  /-- The findings name the failed predicates, one each. -/
  findings : r.findings.map Finding.predicate = r.failed
  /-- Failed predicates are listed in the order of evaluation, none of them twice. -/
  order : r.failed.Pairwise fun a b => Predicate.ids.idxOf a < Predicate.ids.idxOf b
  known : ∀ id ∈ r.failed, id ∈ Predicate.ids
  /-- The code of a finding is listed and leads to the predicate that the finding names, and so do
  the explanations of both. -/
  codes : ∀ f ∈ r.findings, ∃ q : Predicate, f.predicate = q.id ∧ f.code ∈ Code.names ∧
    Predicate.reporting? f.code = some q ∧
    (∃ worked, explain f.predicate = .found worked ∧ worked.slot.predicate = q) ∧
    ∃ worked, explain f.code = .found worked ∧ worked.slot.predicate = q
  summary : r.summary.policy = policy.name ∧ r.summary.profile = policy.profile ∧
    r.summary.enforceEncodedPayload = policy.policy.enforceEncodedPayload

section

variable {r : Request} {p : Policy}

theorem findings_predicates :
    (evaluate r p).findings.map Finding.predicate = (evaluate r p).failed.map Predicate.id := by
  show ((evaluate r p).failed.map (Predicate.finding r p)).map Finding.predicate = _
  rw [List.map_map]
  exact List.map_congr_left fun _ _ => finding_predicate

theorem pairwise_failed_ids : ((evaluate r p).failed.map Predicate.id).Pairwise
    fun a b => Predicate.ids.idxOf a < Predicate.ids.idxOf b := by
  have hids : Predicate.ids.Pairwise
      fun a b => Predicate.ids.idxOf a < Predicate.ids.idxOf b := by
    decide
  exact hids.sublist failed_ids_sublist

theorem verdict_eq_allow_iff {d : Decision} : d.verdict = .allow ↔ d.allow = true := by
  unfold Decision.verdict
  cases d.allow <;> decide

/-- The explanations of a finding's predicate and of its code both lead to the predicate. -/
theorem codes_of_finding (q : Predicate) :
    (q.finding r p).code ∈ Code.names ∧ Predicate.reporting? (q.finding r p).code = some q ∧
      (∃ worked, explain (q.finding r p).predicate = .found worked ∧
        worked.slot.predicate = q) ∧
      ∃ worked, explain (q.finding r p).code = .found worked ∧ worked.slot.predicate = q := by
  have hmem := q.code_mem_codes r p
  obtain ⟨hlisted, hreporting⟩ := Predicate.listed_of_mem_codes hmem
  obtain ⟨c, _, hc⟩ := List.mem_map.mp hmem
  rw [← hc] at hreporting hlisted ⊢
  rw [finding_predicate]
  exact ⟨hlisted, hreporting, Explanation.explain_id q, Explanation.explain_code hreporting⟩

theorem consistent_ofDecision (r : Request) (policy : ResolvedPolicy)
    (startedAt finishedAt : Timestamp) :
    (Receipt.ofDecision (evaluate r policy.policy) policy startedAt finishedAt).Consistent
      policy := by
  have hallow : (evaluate r policy.policy).allow = true ↔
      (evaluate r policy.policy).failed.map Predicate.id = [] := by
    rw [allow_iff_failed_nil, List.map_eq_nil_iff]
  refine {
    verdict := verdict_eq_allow_iff
    allow := hallow
    exitCode := ?_
    findings := findings_predicates
    order := pairwise_failed_ids
    known := fun id hid => failed_ids_sublist.subset hid
    codes := fun f hf => ?_
    summary := ⟨rfl, rfl, rfl⟩ }
  · show (evaluate r policy.policy).verdict.exitCode =
      if (evaluate r policy.policy).failed.map Predicate.id = [] then 0 else 2
    rw [← if_congr hallow rfl rfl, Decision.verdict]
    cases (evaluate r policy.policy).allow <;> rfl
  · obtain ⟨q, rfl, _⟩ := exists_of_mem_findings hf
    exact ⟨q, finding_predicate, codes_of_finding q⟩

theorem vocabularyFaults_ofDecision (r : Request) (policy : ResolvedPolicy)
    (startedAt finishedAt : Timestamp) {value : Json}
    (h : (Receipt.ofDecision (evaluate r policy.policy) policy startedAt finishedAt).toJson? =
      some value) : Conformance.vocabularyFaults value.sorted = [] := by
  obtain ⟨_, _, _, _, rfl⟩ := Receipt.texts_of_toJson? h
  have hconsistent := consistent_ofDecision r policy startedAt finishedAt
  refine Receipt.vocabularyFaults_eq_nil_iff.mpr {
    failed := hconsistent.known
    codes := fun f hf => ?_
    counts := ?_
    allow := hconsistent.allow }
  · obtain ⟨_, _, hlisted, _⟩ := hconsistent.codes f hf
    exact hlisted
  · rw [← hconsistent.findings, List.length_map]

end

/-- A receipt of an evaluation agrees with itself, its policy and every table of names, and passes
the check on its vocabulary whenever its times have a text. -/
theorem receipts_are_consistent (r : Request) (policy : ResolvedPolicy)
    (startedAt finishedAt : Timestamp) :
    (Receipt.ofDecision (evaluate r policy.policy) policy startedAt finishedAt).Consistent
      policy ∧
    (startedAt.Writable ∧ finishedAt.Writable →
      ∃ value, (Receipt.ofDecision (evaluate r policy.policy) policy startedAt
          finishedAt).toJson? = some value ∧
        ∀ name, (Conformance.vocabularyFaults value.sorted).map
          (Conformance.VocabularyFault.message name) = []) := by
  refine ⟨consistent_ofDecision r policy startedAt finishedAt, fun hwritable => ?_⟩
  cases h : (Receipt.ofDecision (evaluate r policy.policy) policy startedAt finishedAt).toJson? with
  | none => exact absurd hwritable (Receipt.toJson?_eq_none_iff.mp h)
  | some value =>
    refine ⟨value, rfl, fun name => ?_⟩
    rw [vocabularyFaults_ofDecision r policy startedAt finishedAt h, List.map_nil]

/-- A moment on a leap day, on a clock that is an hour ahead. -/
def leapDay : Timestamp := ⟨⟨2000, 2, 29, by decide⟩, ⟨23, 59, 59, 999999999, by decide⟩, 3600⟩

/-- The default request is denied on four counts, and its receipt passes the check. -/
theorem default_request_receipt_is_consistent :
    (leapDay.Writable ∧ leapDay.Writable) ∧
      ∃ value, (Receipt.ofDecision (evaluate {} {}) ⟨"empty", none, {}⟩ leapDay
          leapDay).toJson? = some value ∧
        ∀ name, (Conformance.vocabularyFaults value.sorted).map
          (Conformance.VocabularyFault.message name) = [] := by
  have hwritable : leapDay.Writable ∧ leapDay.Writable := by decide
  exact ⟨hwritable, (receipts_are_consistent {} ⟨"empty", none, {}⟩ leapDay leapDay).2 hwritable⟩

end AdmissionGate
