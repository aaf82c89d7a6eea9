import AdmissionGate.Evaluation
import AdmissionGate.Proofs.Binary64.Order

/-!
# Proofs/Evaluation — which predicates an evaluation reports

`Predicate.Condition` says in terms of the fields of a request and a policy what each predicate
asks.  `Predicate.holds_iff` ties the tests to it, and `evaluate_reports_failures` says that an
evaluation reports the predicates whose condition is false, all of them, once each and in order, and
that the short forms of an evaluation agree with it.
-/

namespace AdmissionGate

namespace Predicate

/-- What a predicate asks of a request under a policy. -/
def Condition (r : Request) (p : Policy) : Predicate → Prop
  | .pauseBeforePropagate => r.pauseAttested = true
  | .intentAllowed => r.intent ∈ p.intents.names
  | .domainAllowed => r.domain ∈ p.domains.names
  | .ttlWithinLimit => r.ttl.toInt ≤ p.limits.maxTtl.toInt
  | .childrenWithinLimit => r.children.toInt ≤ p.limits.maxChildren.toInt
  | .concurrencyWithinLimit => r.concurrency.toInt ≤ p.limits.maxConcurrency.toInt
  | .rateWithinLimit =>
    ∃ rate bound, r.rate.extended? = some rate ∧ p.limits.maxRate.extended? = some bound ∧
      rate ≤ bound
  | .ttlPositive => 0 < r.ttl.toInt
  | .notEncodedPayload =>
    p.enforceEncodedPayload = false ∨
      ∀ payload, r.payload = some payload →
        Text.Blank payload ∨ Payload.isEncoded payload = false

/-! ## The tests decide the conditions -/

/-- A payload is inspected unless it is absent or blank. -/
theorem inspectablePayload_eq_some_iff {r : Request} {payload : String} :
    r.inspectablePayload = some payload ↔ r.payload = some payload ∧ ¬ Text.Blank payload := by
  unfold Request.inspectablePayload
  rw [Option.filter_eq_some_iff, Bool.not_eq_true', ← Bool.not_eq_true, Text.allBlank_iff]

theorem holds_notEncodedPayload_iff {r : Request} {p : Policy} :
    notEncodedPayload.holds r p = true ↔ notEncodedPayload.Condition r p := by
  unfold holds Condition
  rw [Bool.or_eq_true, Bool.not_eq_true']
  apply or_congr_right
  -- The test inspects a payload, the condition speaks of any: a blank one meets it either way.
  cases hinspect : r.inspectablePayload with
  | some payload =>
    obtain ⟨hpayload, hblank⟩ := inspectablePayload_eq_some_iff.mp hinspect
    show (!Payload.isEncoded payload) = true ↔ _
    rw [Bool.not_eq_true', hpayload]
    constructor
    · rintro hplain _ ⟨rfl⟩
      exact .inr hplain
    · intro h
      exact (h payload rfl).resolve_left hblank
  | none =>
    refine iff_of_true rfl ?_
    intro payload hpayload
    refine .inl (by_contra fun hblank => ?_)
    rw [inspectablePayload_eq_some_iff.mpr ⟨hpayload, hblank⟩] at hinspect
    cases hinspect

theorem holds_iff {r : Request} {p : Policy} {q : Predicate} :
    q.holds r p = true ↔ q.Condition r p := by
  cases q with
  | pauseBeforePropagate => exact Iff.rfl
  | intentAllowed => exact decide_eq_true_iff
  | domainAllowed => exact decide_eq_true_iff
  | ttlWithinLimit => exact decide_eq_true_iff.trans Int64.le_iff_toInt_le
  | childrenWithinLimit => exact decide_eq_true_iff.trans Int64.le_iff_toInt_le
  | concurrencyWithinLimit => exact decide_eq_true_iff.trans Int64.le_iff_toInt_le
  | rateWithinLimit => exact decide_eq_true_iff.trans Binary64.le_iff_extended
  | ttlPositive => exact decide_eq_true_iff.trans Int64.lt_iff_toInt_lt
  | notEncodedPayload => exact holds_notEncodedPayload_iff

instance (r : Request) (p : Policy) (q : Predicate) : Decidable (q.Condition r p) :=
  decidable_of_iff (q.holds r p = true) holds_iff

/-! ## Names of predicates -/

theorem id_injective {q q' : Predicate} (h : q.id = q'.id) : q = q' := by
  cases q <;> cases q' <;> first | rfl | exact absurd h (by decide)

theorem mem_all (q : Predicate) : q ∈ all := by
  cases q <;> decide

/-- Predicates are listed in the order in which they are evaluated. -/
theorem listing_eq_all : listing = all := rfl

theorem nodup_ids : ids.Nodup := by decide

theorem ofId?_eq_some_iff {text : String} {q : Predicate} : ofId? text = some q ↔ q.id = text := by
  constructor
  · intro h
    have hid := List.find?_some h
    exact of_decide_eq_true hid
  · rintro rfl
    cases q <;> rfl

/-- The predicates that bound the amounts of a request. -/
def bounding : List Predicate :=
  [.ttlWithinLimit, .childrenWithinLimit, .concurrencyWithinLimit, .rateWithinLimit]

end Predicate

/-! ## Evaluation -/

section

variable {r : Request} {p : Policy} {q : Predicate}

theorem mem_failed_iff : q ∈ (evaluate r p).failed ↔ ¬ q.Condition r p := by
  unfold evaluate
  rw [List.mem_filter, Bool.not_eq_true', ← Bool.not_eq_true, Predicate.holds_iff]
  exact and_iff_right q.mem_all

theorem id_mem_failed_iff : q.id ∈ (evaluate r p).failed.map Predicate.id ↔ ¬ q.Condition r p := by
  rw [List.mem_map, ← mem_failed_iff]
  constructor
  · rintro ⟨q', hmem, hid⟩
    rwa [← Predicate.id_injective hid]
  · intro hmem
    exact ⟨q, hmem, rfl⟩

theorem failed_ids_sublist : ((evaluate r p).failed.map Predicate.id).Sublist Predicate.ids := by
  unfold Predicate.ids
  rw [Predicate.listing_eq_all]
  exact List.filter_sublist.map Predicate.id

/-- A finding bears the name of the predicate that it reports. -/
theorem finding_predicate : (q.finding r p).predicate = q.id := by
  cases q <;> rfl

theorem getElem?_findings (i : Nat) :
    (evaluate r p).findings[i]?.map Finding.predicate =
      (evaluate r p).failed[i]?.map Predicate.id := by
  -- Findings are made from the failed predicates one by one, so the places agree.
  show ((evaluate r p).failed.map (Predicate.finding r p))[i]?.map Finding.predicate = _
  rw [List.getElem?_map, Option.map_map]
  exact congrArg (Option.map · _) (funext fun _ => finding_predicate)

theorem allow_iff_failed_nil : (evaluate r p).allow = true ↔ (evaluate r p).failed = [] :=
  List.isEmpty_iff

/-- Stopping at the first failure does not change whether there is one. -/
theorem isAllowed_eq_allow : isAllowed r p = (evaluate r p).allow := by
  rw [Bool.eq_iff_iff, allow_iff_failed_nil, List.eq_nil_iff_forall_not_mem]
  unfold isAllowed
  rw [List.all_eq_true]
  constructor
  · intro h q
    rw [mem_failed_iff, Decidable.not_not, ← Predicate.holds_iff]
    exact h q q.mem_all
  · intro h q _
    rw [Predicate.holds_iff, ← Decidable.not_not (p := q.Condition r p), ← mem_failed_iff]
    exact h q

theorem withinLimits_iff :
    withinLimits r p = true ↔
      ∀ q ∈ Predicate.bounding, q.id ∉ (evaluate r p).failed.map Predicate.id := by
  unfold withinLimits Predicate.bounding
  simp only [id_mem_failed_iff, Decidable.not_not, ← Predicate.holds_iff, Bool.and_eq_true,
    List.forall_mem_cons, List.not_mem_nil, false_implies, implies_true, and_true, and_assoc]

end

/-- An evaluation reports the predicates whose condition is false, all of them, once each and in the
order of evaluation, with a finding for each.  It allows a request when nothing failed, the form
that stops at the first failure agrees, and the four bounds taken together hold when none of them is
reported. -/
theorem evaluate_reports_failures (r : Request) (p : Policy) :
    ((evaluate r p).failed.map Predicate.id).Sublist Predicate.ids ∧
    ((evaluate r p).failed.map Predicate.id).Nodup ∧
    (∀ q : Predicate, q.id ∈ (evaluate r p).failed.map Predicate.id ↔ ¬ q.Condition r p) ∧
    (evaluate r p).findings.length = (evaluate r p).failed.length ∧
    (∀ i : Nat, (evaluate r p).findings[i]?.map Finding.predicate =
      (evaluate r p).failed[i]?.map Predicate.id) ∧
    ((evaluate r p).allow = true ↔ (evaluate r p).failed = []) ∧
    isAllowed r p = (evaluate r p).allow ∧
    (withinLimits r p = true ↔
      ∀ q ∈ Predicate.bounding, q.id ∉ (evaluate r p).failed.map Predicate.id) ∧
    (∀ (text : String) (q : Predicate), Predicate.ofId? text = some q ↔ q.id = text) := by
  refine ⟨failed_ids_sublist, failed_ids_sublist.nodup Predicate.nodup_ids,
    fun q => id_mem_failed_iff, ?_, getElem?_findings, allow_iff_failed_nil, isAllowed_eq_allow,
    withinLimits_iff, fun text q => Predicate.ofId?_eq_some_iff⟩
  exact List.length_map _

end AdmissionGate
