import AdmissionGate.Conformance.Vocabulary
import AdmissionGate.Proofs.Receipt.RoundTrip

/-!
# Proofs/Conformance/Vocabulary — what the check on names finds in a receipt

The check is lenient about the shape of a value, but a receipt is written in one shape only, so
every entry of its lists is looked at.  What it finds is what the receipt gets wrong, with one gap:
the predicates that findings name are not looked up.
-/

namespace AdmissionGate

namespace Receipt

open Conformance (itemsUnder allowOf codeOf textOf vocabularyFaults VocabularyFault)

variable {r : Receipt} {startedAt finishedAt : String}

/-! ## 1. The value of a receipt -/

theorem nodup_keys_toJson (r : Receipt) (startedAt finishedAt : String) :
    ∃ members, r.toJson startedAt finishedAt = .object members ∧
      (members.map Prod.fst).Nodup := by
  refine ⟨_, rfl, ?_⟩
  show ["schema", "tool", "started_at", "finished_at", "verdict", "allow", "failed_predicates",
    "findings", "data"].Nodup
  decide

/-- The value that is checked has the keys of every object in order, which a receipt is not written
in; the check looks things up by their keys. -/
theorem get?_toJson_sorted (key : String) :
    (r.toJson startedAt finishedAt).sorted.get? key =
      ((r.toJson startedAt finishedAt).get? key).map Json.sorted := by
  obtain ⟨members, hmembers, hkeys⟩ := nodup_keys_toJson r startedAt finishedAt
  rw [hmembers]
  exact Json.get?_sorted hkeys key

theorem itemsUnder_toJson_sorted {key : String} {items : List Json}
    (h : (r.toJson startedAt finishedAt).get? key = some (.array items)) :
    itemsUnder key (r.toJson startedAt finishedAt).sorted = items.map Json.sorted := by
  unfold itemsUnder
  rw [get?_toJson_sorted, h, ← Json.sortedItems_eq_map]
  rfl

theorem itemsUnder_failed :
    itemsUnder "failed_predicates" (r.toJson startedAt finishedAt).sorted =
      r.failed.map Json.string := by
  have hitems : (r.toJson startedAt finishedAt).get? "failed_predicates" =
      some (.ofStrings r.failed) := rfl
  rw [itemsUnder_toJson_sorted hitems, List.map_map]
  rfl

theorem itemsUnder_findings :
    itemsUnder "findings" (r.toJson startedAt finishedAt).sorted =
      r.findings.map fun f => f.toJson.sorted := by
  have hitems : (r.toJson startedAt finishedAt).get? "findings" =
      some (.array (r.findings.map Finding.toJson)) := rfl
  rw [itemsUnder_toJson_sorted hitems, List.map_map]
  rfl

theorem allowOf_toJson : allowOf (r.toJson startedAt finishedAt).sorted = some r.allow := by
  unfold allowOf
  rw [get?_toJson_sorted]
  rfl

theorem codeOf_finding (f : Finding) : codeOf f.toJson.sorted = f.code := by
  have hkeys := Finding.sublist_keys_members (f := f).nodup (by decide)
  have hcode : f.toJson.sorted.get? "code" = some (.string f.code) := Json.get?_sorted hkeys "code"
  unfold codeOf
  rw [hcode]
  rfl

/-! ## 2. Faults -/

/-- Holds of a fault that the receipt has. -/
def GetsWrong (r : Receipt) : VocabularyFault → Prop
  | .unknownPredicate id => id ∈ r.failed ∧ id ∉ Predicate.ids
  | .countMismatch findings failed =>
    r.findings.length ≠ r.failed.length ∧ findings = r.findings.length ∧ failed = r.failed.length
  | .unknownCode index code =>
    ∃ f, r.findings[index]? = some f ∧ f.code ∉ Code.names ∧ f.code = code
  | .wrongAllow => r.allow ≠ r.failed.isEmpty

/-- What the check reports on a receipt as it is written, told by the fields of the receipt. -/
theorem vocabularyFaults_toJson : vocabularyFaults (r.toJson startedAt finishedAt).sorted =
    (r.failed.filter (· ∉ Predicate.ids)).map .unknownPredicate ++
      (if r.findings.length = r.failed.length then []
        else [.countMismatch r.findings.length r.failed.length]) ++
      (r.findings.zipIdx.filterMap fun (f, index) =>
        if f.code ∈ Code.names then none else some (.unknownCode index f.code)) ++
      (if r.allow = r.failed.isEmpty then [] else [.wrongAllow]) := by
  have htexts : (r.failed.map Json.string).filterMap textOf = r.failed := by
    rw [List.filterMap_map]
    exact List.filterMap_some
  unfold vocabularyFaults
  rw [itemsUnder_failed, itemsUnder_findings, allowOf_toJson]
  dsimp only
  rw [htexts, List.length_map, List.length_map, List.isEmpty_map, List.zipIdx_map,
    List.filterMap_map]
  simp only [Function.comp_def, Prod.map, id_eq, codeOf_finding, Option.some.injEq]

/-- The check reports what a receipt gets wrong, and nothing else. -/
theorem mem_vocabularyFaults_iff {fault : VocabularyFault} :
    fault ∈ vocabularyFaults (r.toJson startedAt finishedAt).sorted ↔ r.GetsWrong fault := by
  have hcodes : fault ∈ (r.findings.zipIdx.filterMap fun (f, index) =>
      if f.code ∈ Code.names then none else some (.unknownCode index f.code)) ↔
      ∃ f index, r.findings[index]? = some f ∧ f.code ∉ Code.names ∧
        .unknownCode index f.code = fault := by
    rw [List.mem_filterMap]
    constructor
    · rintro ⟨⟨f, index⟩, hf, hfault⟩
      obtain ⟨hunknown, hfault⟩ := Option.ite_none_left_eq_some.mp hfault
      exact ⟨f, index, List.mem_zipIdx_iff_getElem?.mp hf, hunknown, Option.some.inj hfault⟩
    · rintro ⟨f, index, hf, hunknown, rfl⟩
      exact ⟨(f, index), List.mem_zipIdx_iff_getElem?.mpr hf, if_neg hunknown⟩
  rw [vocabularyFaults_toJson, List.mem_append, List.mem_append, List.mem_append, hcodes,
    List.mem_map, List.mem_ite_nil_left, List.mem_ite_nil_left, List.mem_singleton,
    List.mem_singleton]
  -- Each part of the report makes faults of one kind.
  cases fault <;> simp [GetsWrong]

/-! ## 3. Receipts that pass -/

/-- Holds of a receipt that the check finds nothing in. -/
structure KeepsVocabulary (r : Receipt) : Prop where
  failed : ∀ id ∈ r.failed, id ∈ Predicate.ids
  codes : ∀ f ∈ r.findings, f.code ∈ Code.names
  counts : r.findings.length = r.failed.length
  allow : r.allow = true ↔ r.failed = []

/-- Holds of a receipt that takes every name from the registry, the predicates of findings among
them. -/
structure UsesRegistry (r : Receipt) : Prop extends r.KeepsVocabulary where
  predicates : ∀ f ∈ r.findings, f.predicate ∈ Predicate.ids

theorem vocabularyFaults_eq_nil_iff :
    vocabularyFaults (r.toJson startedAt finishedAt).sorted = [] ↔ r.KeepsVocabulary := by
  have hallow : r.allow = r.failed.isEmpty ↔ (r.allow = true ↔ r.failed = []) := by
    rw [Bool.eq_iff_iff, List.isEmpty_iff]
  rw [List.eq_nil_iff_forall_not_mem]
  simp only [mem_vocabularyFaults_iff]
  -- Each condition is the absence of one kind of fault.
  constructor
  · intro hnone
    refine ⟨fun id hid => ?_, fun f hf => ?_, ?_, hallow.mp ?_⟩
    · exact not_not.mp fun hunknown => hnone (.unknownPredicate id) ⟨hid, hunknown⟩
    · obtain ⟨index, hindex⟩ := List.mem_iff_getElem?.mp hf
      exact not_not.mp fun hunknown => hnone (.unknownCode index f.code) ⟨f, hindex, hunknown, rfl⟩
    · exact not_not.mp fun hcounts => hnone (.countMismatch _ _) ⟨hcounts, rfl, rfl⟩
    · exact not_not.mp (hnone .wrongAllow)
  · intro hkeeps fault hfault
    cases fault with
    | unknownPredicate id => exact hfault.2 (hkeeps.failed id hfault.1)
    | countMismatch findings failed => exact hfault.1 hkeeps.counts
    | unknownCode index code =>
      obtain ⟨f, hindex, hunknown, _⟩ := hfault
      exact hunknown (hkeeps.codes f (List.mem_iff_getElem?.mpr ⟨index, hindex⟩))
    | wrongAllow => exact hfault (hallow.mpr hkeeps.allow)

theorem messages_eq_nil_iff {name : String} :
    (vocabularyFaults (r.toJson startedAt finishedAt).sorted).map (VocabularyFault.message name) =
      [] ↔ r.KeepsVocabulary :=
  List.map_eq_nil_iff.trans vocabularyFaults_eq_nil_iff

/-- The check reports exactly what a receipt gets wrong.  It is silent on every receipt that uses
the registry, and on no other whose findings name known predicates; it never looks at those. -/
theorem vocabulary_check_finds_what_is_wrong (r : Receipt)
    (h : r.startedAt.Writable ∧ r.finishedAt.Writable) :
    ∃ value, r.toJson? = some value ∧
      (∀ fault, fault ∈ vocabularyFaults value.sorted ↔ r.GetsWrong fault) ∧
      ∀ name,
        ((vocabularyFaults value.sorted).map (VocabularyFault.message name) = [] ↔
          r.KeepsVocabulary) ∧
        (r.UsesRegistry → (vocabularyFaults value.sorted).map (VocabularyFault.message name) = []) ∧
        ((∀ f ∈ r.findings, f.predicate ∈ Predicate.ids) →
          ((vocabularyFaults value.sorted).map (VocabularyFault.message name) = [] ↔
            r.UsesRegistry)) := by
  cases hvalue : r.toJson? with
  | none => exact absurd h (toJson?_eq_none_iff.mp hvalue)
  | some value =>
    obtain ⟨startedAt, finishedAt, _, _, rfl⟩ := texts_of_toJson? hvalue
    refine ⟨_, rfl, fun fault => mem_vocabularyFaults_iff, fun name => ?_⟩
    refine ⟨messages_eq_nil_iff, fun huses => messages_eq_nil_iff.mpr huses.toKeepsVocabulary,
      fun hpredicates => messages_eq_nil_iff.trans ?_⟩
    exact ⟨fun hkeeps => ⟨hkeeps, hpredicates⟩, UsesRegistry.toKeepsVocabulary⟩

/-- A denial whose one finding is said to be of `predicate`. -/
def denialNaming (predicate : String) : Receipt where
  schema := schemaName
  tool := thisTool
  startedAt := ⟨⟨2026, 1, 2, by decide⟩, ⟨3, 4, 5, 0, by decide⟩, 0⟩
  finishedAt := ⟨⟨2026, 1, 2, by decide⟩, ⟨3, 4, 6, 0, by decide⟩, 0⟩
  verdict := .deny
  allow := false
  failed := ["ttl_positive"]
  findings := [{ predicate := predicate, code := "ttl_not_positive", message := "m" }]
  summary := { policy := "p", enforceEncodedPayload := false, predicatesEvaluated := 9 }

theorem denialNaming_keepsVocabulary (predicate : String) :
    (denialNaming predicate).KeepsVocabulary where
  failed := List.forall_mem_singleton.mpr (show "ttl_positive" ∈ Predicate.ids by decide)
  codes := List.forall_mem_singleton.mpr (show "ttl_not_positive" ∈ Code.names by decide)
  counts := rfl
  allow := iff_of_false nofun nofun

/-- A finding of the predicate that failed passes, as the registry asks. -/
theorem known_finding_passes :
    ((denialNaming "ttl_positive").startedAt.Writable ∧
      (denialNaming "ttl_positive").finishedAt.Writable) ∧
    (∀ f ∈ (denialNaming "ttl_positive").findings, f.predicate ∈ Predicate.ids) ∧
    ∃ value, (denialNaming "ttl_positive").toJson? = some value ∧
      ∀ name, (vocabularyFaults value.sorted).map (VocabularyFault.message name) = [] ∧
        (denialNaming "ttl_positive").UsesRegistry := by
  have hwritable : (denialNaming "ttl_positive").startedAt.Writable ∧
      (denialNaming "ttl_positive").finishedAt.Writable := by
    decide
  have hpredicates : ∀ f ∈ (denialNaming "ttl_positive").findings,
      f.predicate ∈ Predicate.ids := by
    decide
  obtain ⟨value, hvalue, _, hsilent⟩ := vocabulary_check_finds_what_is_wrong _ hwritable
  refine ⟨hwritable, hpredicates, value, hvalue, fun name => ?_⟩
  have hpasses := (hsilent name).1.mpr (denialNaming_keepsVocabulary _)
  exact ⟨hpasses, ((hsilent name).2.2 hpredicates).mp hpasses⟩

/-- A finding of a predicate that does not exist passes too, so that a silent check does not mean
that the registry is used. -/
theorem unknown_finding_passes :
    ∃ value, (denialNaming "made_up").toJson? = some value ∧
      ∀ name, ¬ ((vocabularyFaults value.sorted).map (VocabularyFault.message name) = [] ↔
        (denialNaming "made_up").UsesRegistry) := by
  cases hvalue : (denialNaming "made_up").toJson? with
  | none => exact absurd (by decide) (toJson?_eq_none_iff.mp hvalue)
  | some value =>
    obtain ⟨startedAt, finishedAt, _, _, rfl⟩ := texts_of_toJson? hvalue
    refine ⟨_, rfl, fun name hiff => ?_⟩
    have huses := hiff.mp (messages_eq_nil_iff.mpr (denialNaming_keepsVocabulary "made_up"))
    exact absurd huses.predicates (by decide)

end Receipt

end AdmissionGate
