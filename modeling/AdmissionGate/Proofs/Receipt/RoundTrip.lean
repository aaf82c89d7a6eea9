import AdmissionGate.Proofs.Json.Record
import AdmissionGate.Proofs.Timestamp.Rfc3339
import AdmissionGate.Receipt.Decode
import AdmissionGate.Receipt.Render

/-!
# Proofs/Receipt/RoundTrip — receipts survive being written and read

Every record of a receipt is read back from its own document, and so the receipt from its text.
The data of findings is free-form: it has to be in key order, as such values are kept, and must not
be nested deeper than readers go.
-/

namespace AdmissionGate

open Json (Document Record)

/-! ## Optional texts -/

namespace Json

variable {members : List (String × Json)} {key name : String} {text? : Option String}

theorem sublist_keys_optionalMember (key : String) (text? : Option String) :
    ((optionalMember key text?).map Prod.fst).Sublist [key] := by
  cases text? with
  | none => exact List.nil_sublist _
  | some text => exact List.Sublist.refl _

theorem lookup_optionalMember :
    (optionalMember key text?).lookup name = if name = key then text?.map .string else none := by
  cases text? with
  | none =>
    split_ifs <;> rfl
  | some text => exact lookup_cons_ite name (key, Json.string text) []

theorem nullable?_optionalMember (h : members.lookup name = text?.map .string) :
    (Record.ofMembers members).nullable? name Document.text? = some text? := by
  unfold Record.nullable?
  rw [lookup_ofMembers, h]
  cases text? <;> rfl

theorem uint32?_ofUInt32 (n : UInt32) :
    (Json.number (.ofUInt32 n)).toDocument.uint32? = some n := by
  have hrange : (0 : Int) ≤ n.toNat ∧ (n.toNat : Int) < UInt32.size :=
    ⟨Int.natCast_nonneg _, Int.ofNat_lt.mpr n.toNat_lt⟩
  unfold Document.uint32?
  rw [toDocument, Document.number?, toNumber?_numeral]
  show (if _ then some (UInt32.ofNat (n.toNat : Int).toNat) else none) = _
  rw [if_pos hrange, Int.toNat_natCast, UInt32.ofNat_toNat]

end Json

/-! ## Findings -/

namespace Finding

/-- Holds of a finding whose data can be read: in key order, and nested as deep as the levels of
the receipt around it leave room for. -/
def Readable (f : Finding) : Prop := f.data.Ordered ∧ f.data.depth ≤ Json.maxNesting - 3

def members (f : Finding) : List (String × Json) :=
  [("predicate", .string f.predicate), ("code", .string f.code), ("message", .string f.message)] ++
    Json.optionalMember "help" f.help ++ Json.optionalMember "fingerprint" f.fingerprint ++
    (if f.data = .null then [] else [("data", f.data)])

theorem toJson_eq_object (f : Finding) : f.toJson = .object f.members := rfl

theorem sublist_keys_members {f : Finding} : (f.members.map Prod.fst).Sublist
    ["predicate", "code", "message", "help", "fingerprint", "data"] := by
  have hdata : ((if f.data = .null then [] else [("data", f.data)]).map Prod.fst).Sublist
      ["data"] := by
    split_ifs
    · exact List.nil_sublist _
    · exact List.Sublist.refl _
  have hoptional := (Json.sublist_keys_optionalMember "help" f.help).append
    ((Json.sublist_keys_optionalMember "fingerprint" f.fingerprint).append hdata)
  unfold members
  simp only [List.map_append, List.append_assoc]
  exact (List.Sublist.refl ["predicate", "code", "message"]).append hoptional

theorem lookup_help {f : Finding} : f.members.lookup "help" = f.help.map .string := by
  unfold members
  split_ifs <;> simp [List.lookup_append, List.lookup_cons, Json.lookup_optionalMember]

theorem lookup_fingerprint {f : Finding} :
    f.members.lookup "fingerprint" = f.fingerprint.map .string := by
  unfold members
  split_ifs <;> simp [List.lookup_append, List.lookup_cons, Json.lookup_optionalMember]

theorem lookup_data {f : Finding} :
    f.members.lookup "data" = if f.data = .null then none else some f.data := by
  unfold members
  split_ifs <;> simp [List.lookup_append, List.lookup_cons, Json.lookup_optionalMember]

/-- The document of a finding reads as that finding. -/
theorem ofDocument?_toJson {f : Finding} (h : f.Readable) :
    ofDocument? f.toJson.toDocument = some f := by
  have hdata := lookup_data (f := f)
  rw [toJson_eq_object]
  unfold ofDocument?
  refine Option.bind_eq_some_iff.mpr ⟨_, Json.record?_object sublist_keys_members (by decide), ?_⟩
  refine Option.bind_eq_some_iff.mpr ⟨_, Json.required?_ofMembers rfl rfl, ?_⟩
  refine Option.bind_eq_some_iff.mpr ⟨_, Json.required?_ofMembers rfl rfl, ?_⟩
  refine Option.bind_eq_some_iff.mpr ⟨_, Json.required?_ofMembers rfl rfl, ?_⟩
  refine Option.bind_eq_some_iff.mpr ⟨_, Json.nullable?_optionalMember lookup_help, ?_⟩
  refine Option.bind_eq_some_iff.mpr ⟨_, Json.nullable?_optionalMember lookup_fingerprint, ?_⟩
  refine Option.bind_eq_some_iff.mpr ⟨f.data, ?_, rfl⟩
  -- Null is left out when it is written, and stands for what is absent when it is read.
  by_cases hnull : f.data = .null
  · rw [if_pos hnull] at hdata
    rw [hnull]
    exact Json.defaulted?_ofMembers_of_absent hdata Json.null
  · rw [if_neg hnull] at hdata
    exact Json.defaulted?_ofMembers hdata
      (Json.ofDocument?_toDocument_of_ordered h.1 h.2) Json.null

theorem readable_of_ofDocument? {d : Document} {f : Finding} (h : ofDocument? d = some f) :
    f.Readable := by
  unfold ofDocument? at h
  obtain ⟨r, _, h⟩ := Option.bind_eq_some_iff.mp h
  obtain ⟨predicate, _, h⟩ := Option.bind_eq_some_iff.mp h
  obtain ⟨code, _, h⟩ := Option.bind_eq_some_iff.mp h
  obtain ⟨message, _, h⟩ := Option.bind_eq_some_iff.mp h
  obtain ⟨help, _, h⟩ := Option.bind_eq_some_iff.mp h
  obtain ⟨fingerprint, _, h⟩ := Option.bind_eq_some_iff.mp h
  obtain ⟨data, hdata, h⟩ := Option.bind_eq_some_iff.mp h
  cases h
  unfold Record.defaulted? at hdata
  split at hdata
  · exact Json.ordered_of_ofDocument? _ hdata
  · cases hdata
    exact ⟨trivial, Nat.zero_le _⟩

end Finding

/-! ## The other records -/

theorem Verdict.ofDocument?_name (v : Verdict) :
    Verdict.ofDocument? (Json.string v.name).toDocument = some v := by
  cases v <;> rfl

theorem Timestamp.ofDocument?_toRfc3339? {t : Timestamp} {text : String}
    (h : t.toRfc3339? = some text) : Timestamp.ofDocument? (Json.string text).toDocument = some t :=
  Timestamp.ofRfc3339?_toRfc3339? h

namespace Receipt

theorem Tool.ofDocument?_toJson (t : Tool) : Tool.ofDocument? t.toJson.toDocument = some t := by
  unfold Tool.ofDocument?
  refine Option.bind_eq_some_iff.mpr
    ⟨_, Json.record?_object (List.Sublist.refl _) (by decide), ?_⟩
  refine Option.bind_eq_some_iff.mpr ⟨_, Json.required?_ofMembers rfl rfl, ?_⟩
  exact Option.bind_eq_some_iff.mpr ⟨_, Json.required?_ofMembers rfl rfl, rfl⟩

def Summary.members (s : Summary) : List (String × Json) :=
  ("policy", .string s.policy) :: Json.optionalMember "profile" s.profile ++
    [("enforce_encoded_payload", .boolean s.enforceEncodedPayload),
      ("predicates_evaluated", .number (.ofUInt32 s.predicatesEvaluated))]

theorem Summary.toJson_eq_object (s : Summary) : s.toJson = .object s.members := rfl

theorem Summary.sublist_keys_members {s : Summary} : (s.members.map Prod.fst).Sublist
    ["policy", "profile", "enforce_encoded_payload", "predicates_evaluated"] := by
  unfold members
  rw [List.cons_append, List.map_cons, List.map_append]
  exact ((Json.sublist_keys_optionalMember "profile" s.profile).append
    (List.Sublist.refl _)).cons_cons "policy"

theorem Summary.lookup_profile {s : Summary} :
    s.members.lookup "profile" = s.profile.map .string := by
  simp [members, List.lookup_append, List.lookup_cons, Json.lookup_optionalMember]

theorem Summary.lookup_enforce {s : Summary} :
    s.members.lookup "enforce_encoded_payload" = some (.boolean s.enforceEncodedPayload) := by
  simp [members, List.lookup_append, List.lookup_cons, Json.lookup_optionalMember]

theorem Summary.lookup_evaluated {s : Summary} :
    s.members.lookup "predicates_evaluated" =
      some (.number (.ofUInt32 s.predicatesEvaluated)) := by
  simp [members, List.lookup_append, List.lookup_cons, Json.lookup_optionalMember]

theorem Summary.ofDocument?_toJson (s : Summary) :
    Summary.ofDocument? s.toJson.toDocument = some s := by
  rw [toJson_eq_object]
  unfold Summary.ofDocument?
  refine Option.bind_eq_some_iff.mpr
    ⟨_, Json.record?_object sublist_keys_members (by decide), ?_⟩
  refine Option.bind_eq_some_iff.mpr ⟨_, Json.required?_ofMembers rfl rfl, ?_⟩
  refine Option.bind_eq_some_iff.mpr ⟨_, Json.nullable?_optionalMember lookup_profile, ?_⟩
  refine Option.bind_eq_some_iff.mpr ⟨_, Json.required?_ofMembers lookup_enforce rfl, ?_⟩
  exact Option.bind_eq_some_iff.mpr
    ⟨_, Json.required?_ofMembers lookup_evaluated (Json.uint32?_ofUInt32 _), rfl⟩

/-! ## Receipts -/

/-- The document of a receipt reads as that receipt. -/
theorem ofDocument?_toJson {r : Receipt} {startedAt finishedAt : String}
    (hstarted : r.startedAt.toRfc3339? = some startedAt)
    (hfinished : r.finishedAt.toRfc3339? = some finishedAt)
    (hfindings : ∀ f ∈ r.findings, f.Readable) :
    ofDocument? (r.toJson startedAt finishedAt).toDocument = some r := by
  unfold ofDocument?
  refine Option.bind_eq_some_iff.mpr
    ⟨_, Json.record?_object (List.Sublist.refl _) (by decide), ?_⟩
  refine Option.bind_eq_some_iff.mpr ⟨_, Json.required?_ofMembers rfl rfl, ?_⟩
  refine Option.bind_eq_some_iff.mpr
    ⟨_, Json.required?_ofMembers rfl (Tool.ofDocument?_toJson _), ?_⟩
  refine Option.bind_eq_some_iff.mpr
    ⟨_, Json.required?_ofMembers rfl (Timestamp.ofDocument?_toRfc3339? hstarted), ?_⟩
  refine Option.bind_eq_some_iff.mpr
    ⟨_, Json.required?_ofMembers rfl (Timestamp.ofDocument?_toRfc3339? hfinished), ?_⟩
  refine Option.bind_eq_some_iff.mpr
    ⟨_, Json.required?_ofMembers rfl (Verdict.ofDocument?_name _), ?_⟩
  refine Option.bind_eq_some_iff.mpr ⟨_, Json.required?_ofMembers rfl rfl, ?_⟩
  refine Option.bind_eq_some_iff.mpr
    ⟨_, Json.required?_ofMembers rfl (Json.items?_array fun _ _ => rfl), ?_⟩
  refine Option.bind_eq_some_iff.mpr
    ⟨_, Json.required?_ofMembers rfl
      (Json.items?_array fun f hf => Finding.ofDocument?_toJson (hfindings f hf)), ?_⟩
  exact Option.bind_eq_some_iff.mpr
    ⟨_, Json.required?_ofMembers rfl (Summary.ofDocument?_toJson _), rfl⟩

theorem toJson?_eq_none_iff {r : Receipt} :
    r.toJson? = none ↔ ¬ (r.startedAt.Writable ∧ r.finishedAt.Writable) := by
  have hwritten (t : Timestamp) : t.Writable ↔ t.toRfc3339?.isSome = true := by
    rw [← Option.ne_none_iff_isSome, Ne, Timestamp.toRfc3339?_eq_none_iff, not_not]
  unfold toJson?
  rw [hwritten, hwritten]
  cases r.startedAt.toRfc3339? with
  | none => exact iff_of_true rfl fun h => nomatch h.1
  | some startedAt =>
    cases r.finishedAt.toRfc3339? with
    | none => exact iff_of_true rfl fun h => nomatch h.2
    | some finishedAt => exact iff_of_false nofun (not_not_intro ⟨rfl, rfl⟩)

theorem serialize?_eq_none_iff {r : Receipt} :
    r.serialize? = none ↔ ¬ (r.startedAt.Writable ∧ r.finishedAt.Writable) :=
  Option.map_eq_none_iff.trans toJson?_eq_none_iff

theorem texts_of_toJson? {r : Receipt} {value : Json} (h : r.toJson? = some value) :
    ∃ startedAt finishedAt, r.startedAt.toRfc3339? = some startedAt ∧
      r.finishedAt.toRfc3339? = some finishedAt ∧ value = r.toJson startedAt finishedAt := by
  obtain ⟨startedAt, hstarted, h⟩ := Option.bind_eq_some_iff.mp h
  obtain ⟨finishedAt, hfinished, h⟩ := Option.bind_eq_some_iff.mp h
  exact ⟨startedAt, finishedAt, hstarted, hfinished, (Option.some.inj h).symm⟩

/-- The text of a receipt reads as that receipt. -/
theorem ofText?_serialize? {r : Receipt} {text : String} (hfindings : ∀ f ∈ r.findings, f.Readable)
    (h : r.serialize? = some text) : ofText? text = some r := by
  obtain ⟨value, hvalue, rfl⟩ := Option.map_eq_some_iff.mp h
  obtain ⟨startedAt, finishedAt, hstarted, hfinished, rfl⟩ := texts_of_toJson? hvalue
  unfold ofText?
  rw [Json.Document.ofText?_pretty]
  exact ofDocument?_toJson hstarted hfinished hfindings

/-- A receipt that is read can be written, and its data can be read again. -/
theorem of_ofDocument? {d : Document} {r : Receipt} (h : ofDocument? d = some r) :
    r.startedAt.Writable ∧ r.finishedAt.Writable ∧ ∀ f ∈ r.findings, f.Readable := by
  have hwritable {fields : Record} {name : String} {t : Timestamp}
      (h : fields.required? name Timestamp.ofDocument? = some t) : t.Writable := by
    obtain ⟨value, _, h⟩ := Option.bind_eq_some_iff.mp h
    obtain ⟨text, _, h⟩ := Option.bind_eq_some_iff.mp h
    exact Timestamp.writable_of_ofRfc3339? h
  -- Only the times and the findings matter; the other fields are passed over.
  unfold ofDocument? at h
  obtain ⟨fields, _, h⟩ := Option.bind_eq_some_iff.mp h
  obtain ⟨schema, _, h⟩ := Option.bind_eq_some_iff.mp h
  obtain ⟨tool, _, h⟩ := Option.bind_eq_some_iff.mp h
  obtain ⟨startedAt, hstarted, h⟩ := Option.bind_eq_some_iff.mp h
  obtain ⟨finishedAt, hfinished, h⟩ := Option.bind_eq_some_iff.mp h
  obtain ⟨verdict, _, h⟩ := Option.bind_eq_some_iff.mp h
  obtain ⟨allow, _, h⟩ := Option.bind_eq_some_iff.mp h
  obtain ⟨failed, _, h⟩ := Option.bind_eq_some_iff.mp h
  obtain ⟨findings, hfindings, h⟩ := Option.bind_eq_some_iff.mp h
  obtain ⟨summary, _, h⟩ := Option.bind_eq_some_iff.mp h
  cases h
  refine ⟨hwritable hstarted, hwritable hfinished, ?_⟩
  obtain ⟨items, _, hitems⟩ := Option.bind_eq_some_iff.mp hfindings
  intro f hf
  obtain ⟨item, hitem⟩ := Json.exists_of_mem_items? hitems f hf
  exact Finding.readable_of_ofDocument? hitem

theorem render_json_fails_iff {r : Receipt} {explain : Bool} :
    (∃ e, r.render explain .json = .error e) ↔ r.serialize? = none := by
  unfold render
  cases r.serialize? with
  | none => exact iff_of_true ⟨_, rfl⟩ rfl
  | some text => exact iff_of_false (fun ⟨_, h⟩ => nomatch h) nofun

theorem render_yaml_fails_iff {r : Receipt} {explain : Bool} :
    (∃ e, r.render explain .yaml = .error e) ↔ r.serialize? = none := by
  unfold render toYaml? serialize?
  cases r.toJson? with
  | none => exact iff_of_true ⟨_, rfl⟩ rfl
  | some value => exact iff_of_false (fun ⟨_, h⟩ => nomatch h) nofun

/-- A receipt that can be written is read back from its text.  A receipt that is read can be
written, and its text gives the same receipt and the same text again.  JSON and YAML fail just when
one of the times has no text, and the other formats never fail.  Decimals are assumed to be read as
the nearest doubles, by which the digits of a finite double give it back. -/
theorem writing_and_reading_agree :
    (∀ (r : Receipt) (text : String), (∀ f ∈ r.findings, f.Readable) →
      r.serialize? = some text → ofText? text = some r) ∧
    (∀ (text : String) (r : Receipt), ofText? text = some r →
      ∃ written, r.serialize? = some written ∧ ofText? written = some r ∧
        (ofText? written).bind serialize? = some written) ∧
    ∀ (r : Receipt) (explain : Bool),
      (r.serialize? = none ↔ ¬ (r.startedAt.Writable ∧ r.finishedAt.Writable)) ∧
      ((∃ e, r.render explain .json = .error e) ↔ r.serialize? = none) ∧
      ((∃ e, r.render explain .yaml = .error e) ↔ r.serialize? = none) ∧
      (∃ text, r.render explain .text = .ok text) ∧
      ∃ text, r.render explain .markdown = .ok text := by
  refine ⟨fun r text => ofText?_serialize?, fun text r hread => ?_, fun r explain => ?_⟩
  · obtain ⟨d, _, hd⟩ := Option.bind_eq_some_iff.mp hread
    obtain ⟨hstarted, hfinished, hfindings⟩ := of_ofDocument? hd
    cases hwritten : r.serialize? with
    | none => exact absurd ⟨hstarted, hfinished⟩ (serialize?_eq_none_iff.mp hwritten)
    | some written =>
      have hagain := ofText?_serialize? hfindings hwritten
      refine ⟨written, rfl, hagain, ?_⟩
      rw [hagain, Option.bind_some, hwritten]
  · exact ⟨serialize?_eq_none_iff, render_json_fails_iff, render_yaml_fails_iff, ⟨_, rfl⟩, _, rfl⟩

/-- A receipt with absent and present options, control characters, a negative zero in its data, and
a verdict that its findings do not bear out. -/
def oddReceipt : Receipt where
  schema := ""
  tool := ⟨"gate", "0"⟩
  startedAt := ⟨⟨2024, 2, 29, by decide⟩, ⟨23, 59, 59, 120000000, by decide⟩, -19800⟩
  finishedAt := ⟨⟨0, 1, 1, by decide⟩, ⟨0, 0, 0, 1, by decide⟩, 0⟩
  verdict := .allow
  allow := false
  failed := ["ttl_positive", "ttl_positive"]
  findings := [
    { predicate := "p", code := "\x01\t\"\\", message := "é", help := some "",
      data := .object [
        ("a", .array [.number (.fraction ⟨true, 0, Binary64.representable_zero⟩), .null]),
        ("b", .object [])] },
    { predicate := "", code := "", message := "", fingerprint := some "f" }]
  summary := { policy := "", enforceEncodedPayload := true, predicatesEvaluated := 4294967295 }

theorem oddReceipt_round_trip :
    ∃ text, oddReceipt.serialize? = some text ∧ ofText? text = some oddReceipt := by
  have hfindings : ∀ f ∈ oddReceipt.findings, f.Readable := by
    intro f hf
    rcases List.mem_pair.mp hf with rfl | rfl
    · refine ⟨⟨by decide, ⟨trivial, trivial, trivial⟩, ⟨.nil, trivial⟩, trivial⟩, by decide⟩
    · exact ⟨trivial, Nat.zero_le _⟩
  have hwritable : oddReceipt.startedAt.Writable ∧ oddReceipt.finishedAt.Writable := by decide
  cases h : oddReceipt.serialize? with
  | none =>
    exact absurd hwritable ((writing_and_reading_agree.2.2 oddReceipt false).1.mp h)
  | some text => exact ⟨text, rfl, writing_and_reading_agree.1 oddReceipt text hfindings h⟩

end Receipt

end AdmissionGate
