import AdmissionGate.Conformance.Fixture
import AdmissionGate.Proofs.Conformance.Vocabulary
import AdmissionGate.Proofs.Schema.Document

/-!
# Proofs/Receipt/Schema — receipts and their published schema

The schema of receipts and the way in which they are written are declared apart.  Every receipt with
times that have a text is valid under the published schema, whatever its texts, findings and data
are and whichever of its optional fields are absent, in the order in which it is written and in that
in which it is read back.
-/

namespace AdmissionGate

/-! ## 1. The published form -/

open Schema (Valid)

/-- The published schema of receipts. -/
def Receipt.schemaDocument : Json := Receipt.publishedSchema.publish Receipt.schemaTitle

theorem Receipt.publishedSchema_writtenIn :
    publishedSchema.WrittenIn schemaDocument := by
  have hsummary : Summary.publishedSchema.WrittenIn schemaDocument := by
    have hleast (least : Int) (h : some 0 = some least) : (Int64.ofInt least).toInt = least := by
      cases h
      rfl
    exact ⟨rfl, rfl, trivial, trivial, ⟨by decide, hleast⟩, trivial, trivial⟩
  have hfinding : Finding.publishedSchema.WrittenIn schemaDocument :=
    ⟨rfl, rfl, trivial, trivial, trivial, trivial, trivial, trivial, trivial⟩
  have htool : Tool.publishedSchema.WrittenIn schemaDocument :=
    ⟨rfl, rfl, trivial, trivial, trivial⟩
  have hverdict : Verdict.publishedSchema.WrittenIn schemaDocument :=
    ⟨rfl, rfl, trivial⟩
  exact ⟨trivial, hsummary, trivial, hfinding, trivial, trivial, trivial, htool, hverdict, trivial⟩

/-! ## 2. Values in another order -/

/-- Holds of a map of values that changes nothing but the order of keys. -/
structure Json.Rearranges (g : Json → Json) : Prop where
  boolean : ∀ b, g (.boolean b) = .boolean b
  number : ∀ n, g (.number n) = .number n
  string : ∀ text, g (.string text) = .string text
  array : ∀ items, g (.array items) = .array (items.map g)
  object : ∀ members, (members.map Prod.fst).Nodup → ∃ rearranged,
    g (.object members) = .object rearranged ∧
      ∀ key, rearranged.lookup key = (members.lookup key).map g

theorem Json.rearranges_id : Rearranges id where
  boolean _ := rfl
  number _ := rfl
  string _ := rfl
  array items := congrArg array (List.map_id items).symm
  object members _ := ⟨members, rfl, fun _ => (Option.map_id_apply).symm⟩

theorem Json.rearranges_sorted : Rearranges sorted where
  boolean _ := rfl
  number _ := rfl
  string _ := rfl
  array items := congrArg array (sortedItems_eq_map items)
  object _ h := ⟨_, rfl, get?_sorted h⟩

namespace Schema

variable {g : Json → Json} {members : List (String × Json)} {key : String} {schema : Schema}
  {w : Json}

/-- Holds when a schema accepts what stands under its key after a change, if anything does. -/
def AcceptsUnder (g : Json → Json) (members : List (String × Json)) (p : String × Schema) : Prop :=
  ∀ w, members.lookup p.1 = some w → p.2.violations (g w) = []

theorem acceptsUnder_of_lookup (h : members.lookup key = some w)
    (hw : schema.violations (g w) = []) : AcceptsUnder g members (key, schema) := by
  intro w' hw'
  rw [h] at hw'
  cases hw'
  exact hw

theorem acceptsUnder_text (hg : Json.Rearranges g) {text : String}
    (h : members.lookup key = some (.string text)) : AcceptsUnder g members (key, .text) := by
  refine acceptsUnder_of_lookup h ?_
  rw [hg.string]
  rfl

theorem acceptsUnder_boolean (hg : Json.Rearranges g) {b : Bool}
    (h : members.lookup key = some (.boolean b)) :
    AcceptsUnder g members (key, .kinds [.boolean]) := by
  refine acceptsUnder_of_lookup h ?_
  rw [hg.boolean]
  rfl

theorem acceptsUnder_nullableText (hg : Json.Rearranges g) {text? : Option String}
    (h : members.lookup key = text?.map .string) :
    AcceptsUnder g members (key, .nullableText) := by
  intro w hw
  rw [h] at hw
  -- A text that is absent is left out, so that there is nothing to accept.
  obtain ⟨text, _, rfl⟩ := Option.map_eq_some_iff.mp hw
  rw [hg.string]
  rfl

theorem violations_items_rearranged (hg : Json.Rearranges g) {item : Schema} {values : List Json}
    (h : ∀ value ∈ values, item.violations (g value) = []) :
    (Schema.items [.array] item).violations (g (.array values)) = [] := by
  rw [hg.array]
  refine violations_items_eq_nil_iff.mpr ⟨rfl, ?_⟩
  rintro _ ⟨rfl⟩ value hvalue
  obtain ⟨value, hmem, rfl⟩ := List.mem_map.mp hvalue
  exact h value hmem

theorem violations_record_rearranged (hg : Json.Rearranges g)
    {properties : List (String × Schema)} {required : List String}
    (hkeys : (members.map Prod.fst).Nodup)
    (hproperties : ∀ p ∈ properties, AcceptsUnder g members p)
    (hrequired : ∀ key ∈ required, (members.lookup key).isSome = true) :
    (Schema.record properties required).violations (g (.object members)) = [] := by
  -- Properties and required keys are looked up, so the order of the members does not matter.
  obtain ⟨rearranged, hobject, hlookup⟩ := hg.object members hkeys
  rw [hobject]
  refine violations_record_eq_nil_iff.mpr
    ⟨rfl, fun p hp w hw => ?_, checkRequired_eq_nil_iff.mpr ?_⟩
  · have hw : rearranged.lookup p.1 = some w := hw
    rw [hlookup] at hw
    obtain ⟨w, hmember, rfl⟩ := Option.map_eq_some_iff.mp hw
    exact hproperties p hp w hmember
  · rintro key hkey _ ⟨rfl⟩
    rw [hlookup, Option.isSome_map]
    exact hrequired key hkey

end Schema

/-! ## 3. The records of a receipt -/

section

open Schema

variable {g : Json → Json}

theorem Verdict.violations_name (hg : Json.Rearranges g) (v : Verdict) :
    Verdict.publishedSchema.violations (g (.string v.name)) = [] := by
  rw [hg.string]
  cases v <;> rfl

theorem Finding.violations_toJson (hg : Json.Rearranges g) (f : Finding) :
    Finding.publishedSchema.violations (g f.toJson) = [] := by
  rw [toJson_eq_object]
  refine violations_record_rearranged hg (sublist_keys_members.nodup (by decide)) ?_ ?_
  · simp only [List.forall_mem_cons]
    refine ⟨acceptsUnder_text hg rfl, fun _ _ => rfl, ?_, ?_, acceptsUnder_text hg rfl,
      acceptsUnder_text hg rfl, List.forall_mem_nil _⟩
    · exact acceptsUnder_nullableText hg lookup_fingerprint
    · exact acceptsUnder_nullableText hg lookup_help
  · simp only [List.forall_mem_cons]
    exact ⟨rfl, rfl, rfl, List.forall_mem_nil _⟩

namespace Receipt

theorem Tool.violations_toJson (hg : Json.Rearranges g) (t : Tool) :
    Tool.publishedSchema.violations (g t.toJson) = [] := by
  refine violations_record_rearranged hg (by decide : ["name", "version"].Nodup) ?_ ?_
  · simp only [List.forall_mem_cons]
    exact ⟨acceptsUnder_text hg rfl, acceptsUnder_text hg rfl, List.forall_mem_nil _⟩
  · simp only [List.forall_mem_cons]
    exact ⟨rfl, rfl, List.forall_mem_nil _⟩

theorem Summary.violations_toJson (hg : Json.Rearranges g) (s : Summary) :
    Summary.publishedSchema.violations (g s.toJson) = [] := by
  have hevaluated : (Schema.numeric [.integer] "uint32" (some 0)).violations
      (g (.number (.ofUInt32 s.predicatesEvaluated))) = [] := by
    have hnonneg : isAtLeast 0 (.number (.ofUInt32 s.predicatesEvaluated)) = true :=
      decide_eq_true (Int.natCast_nonneg s.predicatesEvaluated.toNat)
    rw [hg.number]
    exact checkMinimum_eq_nil_iff.mpr hnonneg
  rw [toJson_eq_object]
  refine violations_record_rearranged hg (sublist_keys_members.nodup (by decide)) ?_ ?_
  · simp only [List.forall_mem_cons]
    refine ⟨acceptsUnder_boolean hg lookup_enforce, acceptsUnder_text hg rfl,
      acceptsUnder_of_lookup lookup_evaluated hevaluated, ?_, List.forall_mem_nil _⟩
    exact acceptsUnder_nullableText hg lookup_profile
  · simp only [List.forall_mem_cons]
    rw [lookup_enforce, lookup_evaluated]
    exact ⟨rfl, rfl, rfl, List.forall_mem_nil _⟩

/-! ## 4. Receipts -/

theorem violations_toJson (hg : Json.Rearranges g) (r : Receipt) (startedAt finishedAt : String) :
    publishedSchema.violations (g (r.toJson startedAt finishedAt)) = [] := by
  obtain ⟨members, hmembers, hkeys⟩ := nodup_keys_toJson r startedAt finishedAt
  cases hmembers
  have hfailed : (Schema.items [.array] .text).violations (g (.ofStrings r.failed)) = [] := by
    refine violations_items_rearranged hg fun value hvalue => ?_
    obtain ⟨id, _, rfl⟩ := List.mem_map.mp hvalue
    rw [hg.string]
    rfl
  have hfindings : (Schema.items [.array] Finding.publishedSchema).violations
      (g (.array (r.findings.map Finding.toJson))) = [] := by
    refine violations_items_rearranged hg fun value hvalue => ?_
    obtain ⟨f, _, rfl⟩ := List.mem_map.mp hvalue
    exact Finding.violations_toJson hg f
  refine violations_record_rearranged hg hkeys ?_ ?_
  · simp only [List.forall_mem_cons]
    exact ⟨acceptsUnder_boolean hg rfl,
      acceptsUnder_of_lookup rfl (Summary.violations_toJson hg r.summary),
      acceptsUnder_of_lookup rfl hfailed, acceptsUnder_of_lookup rfl hfindings,
      acceptsUnder_text hg rfl, acceptsUnder_text hg rfl, acceptsUnder_text hg rfl,
      acceptsUnder_of_lookup rfl (Tool.violations_toJson hg r.tool),
      acceptsUnder_of_lookup rfl (Verdict.violations_name hg r.verdict), List.forall_mem_nil _⟩
  · simp only [List.forall_mem_cons]
    exact ⟨rfl, rfl, rfl, rfl, rfl, rfl, rfl, rfl, rfl, List.forall_mem_nil _⟩

/-- What is published asks the same of a value as validation does.  Every receipt whose times have
a text is written as a value that is valid under it, and so is that value with its keys in order. -/
theorem written_receipts_are_valid :
    (∀ v, Valid schemaDocument schemaDocument v ↔ publishedSchema.violations v = []) ∧
    ∀ r : Receipt, r.startedAt.Writable ∧ r.finishedAt.Writable →
      ∃ value, r.toJson? = some value ∧ Valid schemaDocument schemaDocument value ∧
        Valid schemaDocument schemaDocument value.sorted := by
  have hvalid := valid_publish_iff publishedSchema_writtenIn
  refine ⟨hvalid, fun r hwritable => ?_⟩
  cases hvalue : r.toJson? with
  | none => exact absurd hwritable (toJson?_eq_none_iff.mp hvalue)
  | some value =>
    obtain ⟨startedAt, finishedAt, _, _, rfl⟩ := texts_of_toJson? hvalue
    refine ⟨_, rfl, (hvalid _).mpr ?_, (hvalid _).mpr ?_⟩
    · exact violations_toJson Json.rearranges_id r startedAt finishedAt
    · exact violations_toJson Json.rearranges_sorted r startedAt finishedAt

/-- Absent texts, free-form data and unknown names are no obstacle. -/
theorem oddReceipt_is_valid :
    (oddReceipt.startedAt.Writable ∧ oddReceipt.finishedAt.Writable) ∧
      ∃ value, oddReceipt.toJson? = some value ∧ Valid schemaDocument schemaDocument value := by
  have hwritable : oddReceipt.startedAt.Writable ∧ oddReceipt.finishedAt.Writable := by decide
  obtain ⟨value, hvalue, hvalid, _⟩ := written_receipts_are_valid.2 oddReceipt hwritable
  exact ⟨hwritable, value, hvalue, hvalid⟩

end Receipt

end

end AdmissionGate
