import AdmissionGate.Proofs.Json.Value
import AdmissionGate.Proofs.Request.Decode
import AdmissionGate.Schema.Writer

/-!
# Proofs/Schema/Document — what a published schema asks of values

A published schema is a JSON value.  `Valid` gives it the meaning that draft 7 of JSON Schema does,
for the keywords that schemas are published with.  The main statement is that validation finds
nothing wrong with a value just when the value is valid under the published form, so that what is
published and what is checked cannot drift apart.
-/

namespace AdmissionGate.Schema

/-! ## 1. Draft 7 -/

/-- The keywords of published schemas; those that ask nothing of a value are one. -/
inductive Keyword where
  | note
  | format
  | type
  | enum
  | minimum
  | properties
  | required
  | items
  | anyOf

def Keyword.ofName? : String → Option Keyword
  | "$schema" | "$defs" | "title" | "description" => some .note
  | "format" => some .format
  | "type" => some .type
  | "enum" => some .enum
  | "minimum" => some .minimum
  | "properties" => some .properties
  | "required" => some .required
  | "items" => some .items
  | "anyOf" => some .anyOf
  | _ => none

/-- The formats with a meaning of their own; others are passed over. -/
def knownFormats : List String :=
  ["date-time", "date", "time", "email", "idn-email", "hostname", "idn-hostname", "ipv4", "ipv6",
    "uri", "uri-reference", "iri", "iri-reference", "uri-template", "json-pointer",
    "relative-json-pointer", "regex"]

/-- Names that stand for themselves in a reference: nothing in them is an escape or a separator. -/
def IsPlainName (name : String) : Prop := name.toList.all Char.isAlphanum = true

/-- The schema that a document defines under a name. -/
def definition? (root : Json) (name : String) : Option Json :=
  (root.get? "$defs").bind (Json.get? name)

/-- The value of a type keyword names a type: as a text, or as one of several. -/
def NamesKind (value : Json) (kind : Kind) : Prop :=
  value = .string kind.name ∨ ∃ names, value = .array names ∧ .string kind.name ∈ names

mutual

/-- Holds of a value that is valid under a schema of a document.  A schema with a keyword that is
not known here accepts nothing. -/
inductive Valid (root : Json) : Json → Json → Prop where
  /-- A reference hides all that stands beside it. -/
  | reference {members : List (String × Json)} {name : String} {schema v : Json}
    (href : members.lookup "$ref" = some (.string ("#/$defs/" ++ name)))
    (hname : IsPlainName name) (hschema : definition? root name = some schema)
    (hvalid : Valid root schema v) : Valid root (.object members) v
  | keywords {members : List (String × Json)} {v : Json} (href : members.lookup "$ref" = none)
    (hknown : ∀ m ∈ members, (Keyword.ofName? m.1).isSome = true)
    (hmeets : ∀ m ∈ members, ∀ keyword, Keyword.ofName? m.1 = some keyword →
      Meets root keyword m.2 v) : Valid root (.object members) v

/-- Holds of a value that meets what a keyword with a value asks. -/
inductive Meets (root : Json) : Keyword → Json → Json → Prop where
  | note {value v : Json} : Meets root .note value v
  | format {format : String} {v : Json} (h : format ∉ knownFormats) :
    Meets root .format (.string format) v
  | type {value v : Json} {kind : Kind} (hkind : NamesKind value kind)
    (h : kind.admits v = true) : Meets root .type value v
  | enum {listed : List Json} {v : Json} (h : v ∈ listed) : Meets root .enum (.array listed) v
  | minimum {n : Json.Number} {least : Int64} {v : Json} (hleast : n.toInt64? = some least)
    (h : isAtLeast least.toInt v = true) : Meets root .minimum (.number n) v
  | properties {properties : List (String × Json)} {v : Json}
    (h : ∀ p ∈ properties, ∀ w, v.get? p.1 = some w → Valid root p.2 w) :
    Meets root .properties (.object properties) v
  | required {keys : List Json} {v : Json}
    (h : ∀ key, .string key ∈ keys → ∀ members, v = .object members →
      (members.lookup key).isSome = true) : Meets root .required (.array keys) v
  | items {schema v : Json} (h : ∀ items, v = .array items → ∀ item ∈ items,
      Valid root schema item) : Meets root .items schema v
  | anyOf {options : List Json} {option v : Json} (hoption : option ∈ options)
    (h : Valid root option v) : Meets root .anyOf (.array options) v

end

section

variable {root v value : Json} {members : List (String × Json)} {name key : String}
  {keyword : Keyword}

/-- Holds of a value that meets the keyword of a member of a schema. -/
def MeetsMember (root v : Json) (m : String × Json) : Prop :=
  ∃ keyword, Keyword.ofName? m.1 = some keyword ∧ Meets root keyword m.2 v

theorem meetsMember_iff (h : Keyword.ofName? key = some keyword) :
    MeetsMember root v (key, value) ↔ Meets root keyword value v := by
  constructor
  · rintro ⟨keyword', hkeyword, hmeets⟩
    rw [h] at hkeyword
    cases hkeyword
    exact hmeets
  · exact fun hmeets => ⟨keyword, h, hmeets⟩

theorem meetsMember_of_note (h : Keyword.ofName? key = some .note) :
    MeetsMember root v (key, value) :=
  (meetsMember_iff h).mpr .note

theorem valid_keywords_iff (h : members.lookup "$ref" = none) :
    Valid root (.object members) v ↔ ∀ m ∈ members, MeetsMember root v m := by
  constructor
  · intro hvalid m hm
    cases hvalid with
    | reference href =>
      rw [h] at href
      cases href
    | keywords _ hknown hmeets =>
      obtain ⟨keyword, hkeyword⟩ := Option.isSome_iff_exists.mp (hknown m hm)
      exact ⟨keyword, hkeyword, hmeets m hm keyword hkeyword⟩
  · intro hmeets
    refine .keywords h (fun m hm => ?_) (fun m hm keyword hkeyword => ?_)
    · obtain ⟨keyword, hkeyword, _⟩ := hmeets m hm
      exact Option.isSome_iff_exists.mpr ⟨keyword, hkeyword⟩
    · exact (meetsMember_iff hkeyword).mp (hmeets m hm)

theorem valid_reference_iff (h : members.lookup "$ref" = some (.string ("#/$defs/" ++ name)))
    (hname : IsPlainName name) {schema : Json} (hschema : definition? root name = some schema) :
    Valid root (.object members) v ↔ Valid root schema v := by
  constructor
  · intro hvalid
    cases hvalid with
    | reference href _ hschema' hvalid =>
      rw [h] at href
      have hnames := Json.string.inj (Option.some.inj href)
      rw [String.append_right_inj] at hnames
      rw [← hnames, hschema] at hschema'
      cases hschema'
      exact hvalid
    | keywords href =>
      rw [h] at href
      cases href
  · exact .reference h hname hschema

/-- A member that asks nothing can stand anywhere in a schema or be left out. -/
theorem valid_note_iff (hkey : Keyword.ofName? key = some .note)
    (before after : List (String × Json)) :
    Valid root (.object (before ++ (key, value) :: after)) v ↔
      Valid root (.object (before ++ after)) v := by
  have hne : "$ref" ≠ key := by
    rintro rfl
    cases hkey
  have hlookup : (before ++ (key, value) :: after).lookup "$ref" =
      (before ++ after).lookup "$ref" := by
    rw [List.lookup_append, List.lookup_append, Json.lookup_cons_ite, if_neg hne]
  by_cases hkeywords : (before ++ after).lookup "$ref" = none
  · rw [valid_keywords_iff (hlookup.trans hkeywords), valid_keywords_iff hkeywords]
    simp only [List.forall_mem_append, List.forall_mem_cons, meetsMember_of_note hkey, true_and]
  -- Beside a reference nothing is looked at.
  · constructor
    · intro hvalid
      cases hvalid with
      | reference href hname hschema hvalid =>
        exact .reference (hlookup.symm.trans href) hname hschema hvalid
      | keywords href => exact absurd (hlookup.symm.trans href) hkeywords
    · intro hvalid
      cases hvalid with
      | reference href hname hschema hvalid =>
        exact .reference (hlookup.trans href) hname hschema hvalid
      | keywords href => exact absurd href hkeywords

/-! ## 2. What the checks ask -/

/-- A check with one violation to report finds nothing just when its condition holds. -/
theorem check_eq_nil_iff {condition : Prop} [Decidable condition] {violation : Violation} :
    (if condition then [] else [violation]) = [] ↔ condition := by
  by_cases h : condition
  · rw [if_pos h, iff_true_intro h, eq_self]
  · rw [if_neg h]
    exact iff_of_false (List.cons_ne_nil _ _) h

theorem checkKinds_eq_nil_iff {expected : List Kind} :
    checkKinds expected v = [] ↔ ∃ kind ∈ expected, kind.admits v = true := by
  unfold checkKinds
  rw [check_eq_nil_iff, List.any_eq_true]

theorem checkMinimum_eq_nil_iff {least : Int} :
    checkMinimum (some least) v = [] ↔ isAtLeast least v = true :=
  check_eq_nil_iff

theorem checkRequired_eq_nil_iff {required : List String} :
    checkRequired required v = [] ↔ ∀ key ∈ required, ∀ members, v = .object members →
      (members.lookup key).isSome = true := by
  cases v with
  | object members => simp [checkRequired]
  | _ => simp [checkRequired]

theorem violations_items_eq_nil_iff {expected : List Kind} {item : Schema} :
    (Schema.items expected item).violations v = [] ↔ checkKinds expected v = [] ∧
      ∀ values, v = .array values → ∀ value ∈ values, item.violations value = [] := by
  cases v with
  | array values =>
    show checkKinds expected (.array values) ++ values.flatMap item.violations = [] ↔ _
    rw [List.append_eq_nil_iff, List.flatMap_eq_nil_iff]
    refine and_congr_right fun _ => ⟨?_, fun h => h values rfl⟩
    rintro h _ ⟨rfl⟩
    exact h
  | _ =>
    -- Other values have no items to look at.
    show checkKinds expected _ ++ [] = [] ↔ _
    rw [List.append_nil]
    exact (and_iff_left fun _ hvalues => nomatch hvalues).symm

theorem propertyViolations_eq_nil_iff {properties : List (String × Schema)} :
    propertyViolations properties v = [] ↔
      ∀ p ∈ properties, ∀ w, v.get? p.1 = some w → p.2.violations w = [] := by
  induction properties with
  | nil => exact iff_of_true rfl (List.forall_mem_nil _)
  | cons p rest ih =>
    rw [propertyViolations, List.append_eq_nil_iff, ih, List.forall_mem_cons]
    refine and_congr_left fun _ => ?_
    cases v.get? p.1 with
    | none => exact iff_of_true rfl fun _ hw => nomatch hw
    | some w => exact ⟨fun h w' hw => Option.some.inj hw ▸ h, fun h => h w rfl⟩

theorem violations_record_eq_nil_iff {properties : List (String × Schema)}
    {required : List String} : (Schema.record properties required).violations v = [] ↔
      checkKinds [.object] v = [] ∧
        (∀ p ∈ properties, ∀ w, v.get? p.1 = some w → p.2.violations w = []) ∧
        checkRequired required v = [] := by
  rw [violations, List.append_eq_nil_iff, List.append_eq_nil_iff, propertyViolations_eq_nil_iff,
    and_assoc]

theorem Kind.name_inj {kind kind' : Kind} : kind.name = kind'.name ↔ kind = kind' := by
  cases kind <;> cases kind' <;> decide

theorem namesKind_kindsMember {expected : List Kind} {kind : Kind} :
    NamesKind (kindsMember expected).2 kind ↔ kind ∈ expected := by
  unfold NamesKind kindsMember
  dsimp only
  -- A single type is written as a text, several as an array of texts.
  split
  · simp [Kind.name_inj, eq_comm]
  · simp [Json.ofStrings, Kind.name_inj]

theorem meets_kindsMember_iff {expected : List Kind} :
    MeetsMember root v (kindsMember expected) ↔ checkKinds expected v = [] := by
  have htype : Keyword.ofName? "type" = some .type := rfl
  have hmember : MeetsMember root v (kindsMember expected) ↔
      Meets root .type (kindsMember expected).2 v :=
    meetsMember_iff htype
  rw [hmember, checkKinds_eq_nil_iff]
  constructor
  · intro hmeets
    cases hmeets with
    | type hkind h => exact ⟨_, namesKind_kindsMember.mp hkind, h⟩
  · rintro ⟨kind, hkind, h⟩
    exact .type (namesKind_kindsMember.mpr hkind) h

theorem meets_minimum_iff {least : Int} (h : (Int64.ofInt least).toInt = least) :
    Meets root .minimum (.ofInt64 (Int64.ofInt least)) v ↔ checkMinimum (some least) v = [] := by
  have hread : (Json.Number.ofInt64 (Int64.ofInt least)).toInt64? = some (Int64.ofInt least) :=
    Json.Number.toInt64?_eq_some_iff.mpr ⟨_, rfl⟩
  rw [checkMinimum_eq_nil_iff]
  constructor
  · intro hmeets
    cases hmeets with
    | minimum hleast hatLeast =>
      rw [hread] at hleast
      rwa [← Option.some.inj hleast, h] at hatLeast
  · intro hatLeast
    rw [← h] at hatLeast
    exact .minimum hread hatLeast

theorem meets_enum_iff {listed : List String} : Meets root .enum (.ofStrings listed) v ↔
    (listed.any fun text => v = .string text) = true := by
  have hmem : v ∈ listed.map Json.string ↔ (listed.any fun text => v = .string text) = true := by
    rw [List.mem_map, List.any_eq_true]
    refine exists_congr fun text => and_congr_right fun _ => ?_
    rw [decide_eq_true_iff, eq_comm]
  rw [← hmem]
  constructor
  · intro hmeets
    cases hmeets with
    | enum h => exact h
  · exact .enum

theorem meets_required_iff {required : List String} :
    Meets root .required (.ofStrings required) v ↔ checkRequired required v = [] := by
  have hmem (key : String) : .string key ∈ required.map Json.string ↔ key ∈ required := by simp
  rw [checkRequired_eq_nil_iff]
  constructor
  · intro hmeets
    cases hmeets with
    | required h => exact fun key hkey => h key ((hmem key).mpr hkey)
  · exact fun h => .required fun key hkey => h key ((hmem key).mp hkey)

theorem meets_items_iff {schema : Json} : Meets root .items schema v ↔
    ∀ items, v = .array items → ∀ item ∈ items, Valid root schema item := by
  constructor
  · intro hmeets
    cases hmeets with
    | items h => exact h
  · exact .items

theorem meets_properties_iff {properties : List (String × Json)} :
    Meets root .properties (.object properties) v ↔
      ∀ p ∈ properties, ∀ w, v.get? p.1 = some w → Valid root p.2 w := by
  constructor
  · intro hmeets
    cases hmeets with
    | properties h => exact h
  · exact .properties

theorem meets_anyOf_iff {options : List Json} :
    Meets root .anyOf (.array options) v ↔ ∃ option ∈ options, Valid root option v := by
  constructor
  · intro hmeets
    cases hmeets with
    | anyOf hoption h => exact ⟨_, hoption, h⟩
  · rintro ⟨option, hoption, h⟩
    exact .anyOf hoption h

end

/-! ## 3. Published schemas -/

mutual

/-- Holds of schemas whose written form can be read in a document: every name is plain and defined
there as the schema that bears it, every format is one that asks nothing, and every least value is
an integer of 64 bits. -/
def WrittenIn (root : Json) : Schema → Prop
  | .numeric _ width minimum =>
    width ∉ knownFormats ∧ ∀ least, minimum = some least → (Int64.ofInt least).toInt = least
  | .items _ item => WrittenIn root item
  | .record properties _ => PropertiesWrittenIn root properties
  | .anyOf options => OptionsWrittenIn root options
  | .named name schema =>
    IsPlainName name ∧ definition? root name = some (.object schema.members) ∧
      WrittenIn root schema
  | .described _ schema => WrittenIn root schema
  | _ => True

def PropertiesWrittenIn (root : Json) : List (String × Schema) → Prop
  | [] => True
  | (_, schema) :: rest => WrittenIn root schema ∧ PropertiesWrittenIn root rest

def OptionsWrittenIn (root : Json) : List Schema → Prop
  | [] => True
  | schema :: rest => WrittenIn root schema ∧ OptionsWrittenIn root rest

end

section

variable {root v : Json}

theorem valid_numeric_iff {expected : List Kind} {width : String} {minimum : Option Int}
    (h : (Schema.numeric expected width minimum).WrittenIn root) :
    Valid root (.object (Schema.numeric expected width minimum).members) v ↔
      (Schema.numeric expected width minimum).violations v = [] := by
  have hformat : MeetsMember root v ("format", .string width) :=
    (meetsMember_iff rfl).mpr (.format h.1)
  have hkinds : (∀ m ∈ [kindsMember expected, ("format", .string width)],
      MeetsMember root v m) ↔ checkKinds expected v = [] := by
    rw [List.forall_mem_cons, List.forall_mem_singleton, meets_kindsMember_iff,
      and_iff_left hformat]
  cases minimum with
  | none =>
    rw [valid_keywords_iff rfl, violations, checkMinimum, List.append_nil]
    exact hkinds
  | some least =>
    rw [valid_keywords_iff rfl, members, List.forall_mem_append, hkinds,
      List.forall_mem_singleton, meetsMember_iff rfl, violations, List.append_eq_nil_iff]
    exact and_congr_right fun _ => meets_minimum_iff (h.2 least rfl)

theorem valid_record_iff {properties : List (String × Schema)} {required : List String} :
    Valid root (.object (Schema.record properties required).members) v ↔
      checkKinds [.object] v = [] ∧
        (∀ p ∈ propertyMembers properties, ∀ w, v.get? p.1 = some w → Valid root p.2 w) ∧
        checkRequired required v = [] := by
  have hrequired : (∀ m ∈ (if required.isEmpty then [] else
      [("required", Json.ofStrings required)]), MeetsMember root v m) ↔
        checkRequired required v = [] := by
    -- Without required keys the keyword is left out.
    split_ifs with hempty
    · rw [List.isEmpty_iff.mp hempty, checkRequired_eq_nil_iff]
      exact iff_of_true (List.forall_mem_nil _) (List.forall_mem_nil _)
    · rw [List.forall_mem_singleton, meetsMember_iff rfl, meets_required_iff]
  have hkeywords : (Schema.record properties required).members.lookup "$ref" = none := by
    rw [members]
    cases required <;> rfl
  rw [valid_keywords_iff hkeywords, members, List.forall_mem_append, List.forall_mem_cons,
    List.forall_mem_singleton, meets_kindsMember_iff, meetsMember_iff rfl, meets_properties_iff,
    hrequired, and_assoc]

end

variable {root : Json}

mutual

/-- A value is valid under the written form of a schema just when nothing is wrong with it under
the schema. -/
theorem valid_members_iff (schema : Schema) (h : schema.WrittenIn root) (v : Json) :
    Valid root (.object schema.members) v ↔ schema.violations v = [] := by
  match schema with
  | .anything =>
    rw [valid_keywords_iff rfl]
    exact iff_of_true (List.forall_mem_nil _) rfl
  | .kinds expected =>
    rw [valid_keywords_iff rfl, members, List.forall_mem_singleton]
    exact meets_kindsMember_iff
  | .numeric expected width minimum => exact valid_numeric_iff h
  | .texts listed =>
    rw [valid_keywords_iff rfl, members, List.forall_mem_cons, List.forall_mem_singleton,
      meets_kindsMember_iff, meetsMember_iff rfl, meets_enum_iff, violations,
      List.append_eq_nil_iff, check_eq_nil_iff]
  | .items expected item =>
    rw [valid_keywords_iff rfl, members, List.forall_mem_cons, List.forall_mem_singleton,
      meets_kindsMember_iff, meetsMember_iff rfl, meets_items_iff, violations_items_eq_nil_iff]
    exact and_congr_right fun _ => forall₂_congr fun _ _ => forall₂_congr fun value _ =>
      valid_members_iff item h value
  | .record properties required =>
    rw [valid_record_iff, valid_properties_iff properties h v, propertyViolations_eq_nil_iff,
      violations_record_eq_nil_iff]
  | .anyOf options =>
    rw [valid_keywords_iff rfl, members, violations, check_eq_nil_iff, List.forall_mem_singleton,
      meetsMember_iff rfl, meets_anyOf_iff]
    exact valid_options_iff options h v
  | .named name schema =>
    -- The reference stands for what the document defines, which is the schema as it is written.
    exact (valid_reference_iff rfl h.1 h.2.1).trans (valid_members_iff schema h.2.2 v)
  | .described note schema =>
    exact (valid_note_iff rfl [] schema.members).trans (valid_members_iff schema h v)

theorem valid_properties_iff (properties : List (String × Schema))
    (h : PropertiesWrittenIn root properties) (v : Json) :
    (∀ p ∈ propertyMembers properties, ∀ w, v.get? p.1 = some w → Valid root p.2 w) ↔
      propertyViolations properties v = [] := by
  match properties with
  | [] => exact iff_of_true (List.forall_mem_nil _) rfl
  | (key, schema) :: rest =>
    have hrest := valid_properties_iff rest h.2 v
    rw [propertyViolations_eq_nil_iff] at hrest ⊢
    rw [propertyMembers, List.forall_mem_cons, List.forall_mem_cons, hrest]
    exact and_congr_left fun _ => forall₂_congr fun w _ => valid_members_iff schema h.1 w

theorem valid_options_iff (options : List Schema) (h : OptionsWrittenIn root options) (v : Json) :
    (∃ option ∈ optionValues options, Valid root option v) ↔
      isValidUnderAny options v = true := by
  match options with
  | [] => exact iff_of_false (by rintro ⟨_, hoption, _⟩; cases hoption) Bool.false_ne_true
  | schema :: rest =>
    rw [optionValues, List.exists_mem_cons_iff, valid_options_iff rest h.2 v, isValidUnderAny,
      Bool.or_eq_true, List.isEmpty_iff, valid_members_iff schema h.1 v]

end

/-- A value is valid under what is published of a schema just when nothing is wrong with it under
the schema. -/
theorem valid_publish_iff {title : String} {schema : Schema}
    (h : schema.WrittenIn (schema.publish title)) (v : Json) :
    Valid (schema.publish title) (schema.publish title) v ↔ schema.violations v = [] := by
  rw [← valid_members_iff schema h v]
  refine (valid_note_iff rfl [] _).trans ((valid_note_iff rfl [] _).trans ?_)
  -- The definitions stand at the end, where there are any.
  show Valid _ (.object (schema.members ++ _)) v ↔ _
  split
  · rw [List.append_nil]
  · refine (valid_note_iff rfl schema.members []).trans ?_
    rw [List.append_nil]

end AdmissionGate.Schema
