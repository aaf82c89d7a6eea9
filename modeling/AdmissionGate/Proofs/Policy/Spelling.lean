import AdmissionGate.Policy.Load
import AdmissionGate.Proofs.Json.Number
import AdmissionGate.Proofs.Request.Decode
import Mathlib.Data.List.Forall2

/-!
# Proofs/Policy/Spelling — how trees spell policy files

Both formats write a policy file as a tree: tables with keys, lists, strings, numbers and truth
values.  What a tree has to be in order to say the same as a file is stated once, over what a format
takes for each of these; each format then reads such a tree as the file.
-/

namespace AdmissionGate

/-- What a format with these trees takes for tables, lists and the values in them. -/
structure Spelling (Tree : Type) where
  text : Tree → String → Prop
  boolean : Tree → Bool → Prop
  integer : Tree → Int64 → Prop
  rate : Tree → Binary64 → Prop
  items : Tree → List Tree → Prop
  members : Tree → List (String × Tree) → Prop

namespace Spelling

variable {Tree α : Type}

/-- Holds when a key has a value that spells what it should, or is absent when nothing is said. -/
def Says (members : List (String × Tree)) (key : String) (spells : Tree → α → Prop) :
    Option α → Prop
  | some a => ∃ value, members.lookup key = some value ∧ spells value a
  | none => members.lookup key = none

def SaysTexts (s : Spelling Tree) (value : Tree) (texts : List String) : Prop :=
  ∃ items, s.items value items ∧ List.Forall₂ s.text items texts

structure LimitsIn (s : Spelling Tree) (l : PolicyFile.Limits) (members : List (String × Tree)) :
    Prop where
  maxTtl : Says members "max_ttl" s.integer l.maxTtl
  maxChildren : Says members "max_children" s.integer l.maxChildren
  maxConcurrency : Says members "max_concurrency" s.integer l.maxConcurrency
  maxRate : Says members "max_rate_per_minute" s.rate l.maxRate

def SaysLimits (s : Spelling Tree) (value : Tree) (l : PolicyFile.Limits) : Prop :=
  ∃ members, s.members value members ∧ s.LimitsIn l members

def SaysFeatures (s : Spelling Tree) (value : Tree) (f : PolicyFile.Features) : Prop :=
  ∃ members, s.members value members ∧
    Says members "enforce_encoded_payload" s.boolean f.enforceEncodedPayload

/-- Holds of the members of a tree that says what a policy file says: each key that is present has
the same value, in any order and among any other keys. -/
structure FileIn (s : Spelling Tree) (f : PolicyFile) (members : List (String × Tree)) : Prop where
  schema : Says members "schema" s.text f.schema
  name : Says members "name" s.text f.name
  profile : Says members "profile" s.text f.profile
  intents : Says members "wholesome_intents" s.SaysTexts f.intents
  domains : Says members "safe_domains" s.SaysTexts f.domains
  limits : Says members "limits" s.SaysLimits f.limits
  features : Says members "features" s.SaysFeatures f.features

theorem mapM_of_forall₂ {spells : Tree → α → Prop} {read : Tree → Option α}
    (hread : ∀ value a, spells value a → read value = some a) {items : List Tree} {as : List α}
    (h : List.Forall₂ spells items as) : items.mapM read = some as := by
  induction h with
  | nil => rfl
  | cons hfirst _ ih =>
    rw [List.mapM_cons, hread _ _ hfirst, ih]
    rfl

end Spelling

/-! ## 1. JSON -/

namespace Json.Document

/-- JSON trees.  Numbers are numerals: a rate is any numeral whose nearest double it is. -/
def spelling : Spelling Document where
  text d text := d = .string (some text)
  boolean d b := d = .boolean b
  integer d i := d = .number (.integer (i.toInt < 0) i.toInt.natAbs)
  rate d x := ∃ numeral number, d = .number numeral ∧ numeral.toNumber? = some number ∧
    number.toBinary64 = x
  items d items := d = .array items
  members d members := d = .object (members.map fun m => (some m.1, m.2)) ∧
    (members.map Prod.fst).Nodup

variable {α : Type} {d : Document} {names : List String} {members : List (String × Document)}

theorem int64?_of_spelling {i : Int64} (h : spelling.integer d i) : d.int64? = some i := by
  have hnumber : (Number.ofInt64 i).numeral.toNumber? = some (.ofInt64 i) :=
    toNumber?_numeral (.ofInt64 i)
  have hinteger : ∃ hrange, Number.ofInt64 i = .integer i.toInt hrange := ⟨_, rfl⟩
  rw [show d = .number (Number.ofInt64 i).numeral from h]
  show ((Number.ofInt64 i).numeral.toNumber?).bind Number.toInt64? = some i
  rw [hnumber]
  exact Number.toInt64?_eq_some_iff.mpr hinteger

theorem binary64?_of_spelling {x : Binary64} (h : spelling.rate d x) : d.binary64? = some x := by
  obtain ⟨numeral, number, rfl, hnumber, rfl⟩ := h
  show (numeral.toNumber?).map Number.toBinary64 = _
  rw [hnumber]
  rfl

theorem items?_of_spelling {texts : List String} (h : spelling.SaysTexts d texts) :
    d.items? text? = some texts := by
  obtain ⟨items, rfl, hitems⟩ := h
  refine Spelling.mapM_of_forall₂ ?_ hitems
  rintro _ text rfl
  rfl

theorem lookup_filter_of_mem {name : String} (h : name ∈ names)
    (members : List (String × Document)) :
    (members.filter fun m => decide (m.1 ∈ names)).lookup name = members.lookup name := by
  induction members with
  | nil => rfl
  | cons m rest ih =>
    by_cases hkey : m.1 ∈ names
    · rw [List.filter_cons_of_pos (by simpa using hkey), List.lookup_cons, List.lookup_cons, ih]
    · have hne : (name == m.1) = false := beq_eq_false_iff_ne.mpr fun heq => hkey (heq ▸ h)
      rw [List.filter_cons_of_neg (by simpa using hkey), List.lookup_cons, hne, ih]

/-- The fields of an object without repeated keys are found under their names. -/
theorem exists_record? (h : spelling.members d members) (names : List String) :
    ∃ r, d.record? names = some r ∧
      ∀ name ∈ names, r.fields.lookup name = members.lookup name := by
  obtain ⟨rfl, hnodup⟩ := h
  -- All keys can be read, and those that are known stand there once.
  have hkeys : (members.map fun m => (some m.1, m.2)).mapM
      (fun m : Option String × Document => m.1.map (·, m.2)) = some members := by
    clear hnodup
    induction members with
    | nil => rfl
    | cons m rest ih =>
      rw [List.map_cons, List.mapM_cons, ih]
      rfl
  have hknown : ((members.filter fun m => decide (m.1 ∈ names)).map Prod.fst).Nodup :=
    (List.filter_sublist.map Prod.fst).nodup hnodup
  refine ⟨⟨false, members.filter fun m => decide (m.1 ∈ names)⟩, ?_, fun name hname => ?_⟩
  · refine Option.bind_eq_some_iff.mpr ⟨members, hkeys, ?_⟩
    exact if_pos hknown
  · exact lookup_filter_of_mem hname members

theorem field?_of_lookup {r : Record} {key : String} {read : Document → Option α}
    (h : r.fields.lookup key = some d) (hnull : d ≠ .null) :
    PolicyFile.field? r key read = (read d).map some := by
  unfold PolicyFile.field? Record.defaulted?
  rw [h]
  cases d with
  | null => exact absurd rfl hnull
  | _ => rfl

/-- What a key says is what its field is read as. -/
theorem field?_of_says {r : Record} {key : String}
    (hlookup : r.fields.lookup key = members.lookup key) {spells : Document → α → Prop}
    {read : Document → Option α} (hnull : read .null = none)
    (hread : ∀ value a, spells value a → read value = some a) {field : Option α}
    (h : Spelling.Says members key spells field) : PolicyFile.field? r key read = some field := by
  cases field with
  | none =>
    unfold PolicyFile.field? Record.defaulted?
    rw [hlookup, show members.lookup key = none from h]
  | some a =>
    obtain ⟨value, hvalue, hspells⟩ := h
    have ha := hread value a hspells
    have hpresent : value ≠ .null := by
      rintro rfl
      cases hnull.symm.trans ha
    rw [field?_of_lookup (hlookup.trans hvalue) hpresent, ha]
    rfl

end Json.Document

namespace PolicyFile

open Json (Document)
open Json.Document (spelling field?_of_says exists_record?)

variable {d : Document}

theorem Limits.ofDocument?_of_spelling {l : Limits} (h : spelling.SaysLimits d l) :
    Limits.ofDocument? d = some l := by
  obtain ⟨members, hmembers, hl⟩ := h
  obtain ⟨r, hr, hlookup⟩ := exists_record? hmembers
    ["max_ttl", "max_children", "max_concurrency", "max_rate_per_minute"]
  have hint64 (value : Document) (i : Int64) : spelling.integer value i → value.int64? = some i :=
    Document.int64?_of_spelling
  have hbinary64 (value : Document) (x : Binary64) : spelling.rate value x →
      value.binary64? = some x := Document.binary64?_of_spelling
  unfold Limits.ofDocument?
  rw [hr]
  simp only [Option.bind_eq_bind, Option.bind_some,
    field?_of_says (hlookup "max_ttl" (by decide)) rfl hint64 hl.maxTtl,
    field?_of_says (hlookup "max_children" (by decide)) rfl hint64 hl.maxChildren,
    field?_of_says (hlookup "max_concurrency" (by decide)) rfl hint64 hl.maxConcurrency,
    field?_of_says (hlookup "max_rate_per_minute" (by decide)) rfl hbinary64 hl.maxRate]
  rfl

theorem Features.ofDocument?_of_spelling {f : Features} (h : spelling.SaysFeatures d f) :
    Features.ofDocument? d = some f := by
  obtain ⟨members, hmembers, hf⟩ := h
  obtain ⟨r, hr, hlookup⟩ := exists_record? hmembers ["enforce_encoded_payload"]
  have hboolean (value : Document) (b : Bool) : spelling.boolean value b →
      value.boolean? = some b := fun heq => heq ▸ rfl
  unfold Features.ofDocument?
  rw [hr]
  simp only [Option.bind_eq_bind, Option.bind_some,
    field?_of_says (hlookup "enforce_encoded_payload" (by decide)) rfl hboolean hf]
  rfl

theorem ofDocument?_of_spelling {f : PolicyFile} {members : List (String × Document)}
    (hmembers : spelling.members d members) (h : spelling.FileIn f members) :
    ofDocument? d = some f := by
  obtain ⟨r, hr, hlookup⟩ := exists_record? hmembers ["schema", "name", "profile",
    "wholesome_intents", "safe_domains", "limits", "features"]
  have htext (value : Document) (text : String) : spelling.text value text →
      value.text? = some text := fun heq => heq ▸ rfl
  have htexts (value : Document) (texts : List String) : spelling.SaysTexts value texts →
      value.items? Document.text? = some texts := Document.items?_of_spelling
  have hlimits (value : Document) (l : Limits) : spelling.SaysLimits value l →
      Limits.ofDocument? value = some l := Limits.ofDocument?_of_spelling
  have hfeatures (value : Document) (f : Features) : spelling.SaysFeatures value f →
      Features.ofDocument? value = some f := Features.ofDocument?_of_spelling
  unfold ofDocument?
  rw [hr]
  simp only [Option.bind_eq_bind, Option.bind_some,
    field?_of_says (hlookup "schema" (by decide)) rfl htext h.schema,
    field?_of_says (hlookup "name" (by decide)) rfl htext h.name,
    field?_of_says (hlookup "profile" (by decide)) rfl htext h.profile,
    field?_of_says (hlookup "wholesome_intents" (by decide)) rfl htexts h.intents,
    field?_of_says (hlookup "safe_domains" (by decide)) rfl htexts h.domains,
    field?_of_says (hlookup "limits" (by decide)) rfl hlimits h.limits,
    field?_of_says (hlookup "features" (by decide)) rfl hfeatures h.features]
  rfl

end PolicyFile

/-! ## 2. TOML -/

namespace Toml.Value

/-- TOML trees.  A rate is a float, or an integer of 64 bits, signed or unsigned, whose nearest
double it is. -/
def spelling : Spelling Value where
  text v text := v = .string text
  boolean v b := v = .boolean b
  integer v i := v = .integer i.toInt
  rate v x := v = .float (some x) ∨
    ∃ i : Int, -9223372036854775808 ≤ i ∧ i < 18446744073709551616 ∧ v = .integer i ∧
      Binary64.ofInt i = x
  items v items := v = .array items
  members v members := v = .table members

variable {α : Type} {v : Value} {members : List (String × Value)}

theorem int64?_of_spelling {i : Int64} (h : spelling.integer v i) : v.int64? = some i := by
  have hrange : Int64.minValue.toInt ≤ i.toInt ∧ i.toInt ≤ Int64.maxValue.toInt :=
    ⟨Int64.le_iff_toInt_le.mp i.minValue_le, Int64.le_iff_toInt_le.mp i.le_maxValue⟩
  rw [show v = .integer i.toInt from h, int64?, if_pos hrange, Int64.ofInt_toInt]

theorem binary64?_of_spelling {x : Binary64} (h : spelling.rate v x) : v.binary64? = some x := by
  obtain rfl | ⟨i, hlow, hhigh, rfl, rfl⟩ := h
  · rfl
  · exact if_pos ⟨hlow, hhigh⟩

theorem items?_of_spelling {texts : List String} (h : spelling.SaysTexts v texts) :
    v.items? text? = some texts := by
  obtain ⟨items, rfl, hitems⟩ := h
  refine Spelling.mapM_of_forall₂ ?_ hitems
  rintro _ text rfl
  rfl

theorem tomlField?_of_lookup {key : String} {read : Value → Option α}
    (h : members.lookup key = some v) :
    PolicyFile.tomlField? members key read = (read v).map some := by
  unfold PolicyFile.tomlField?
  rw [h]

theorem tomlField?_of_says {key : String} {spells : Value → α → Prop} {read : Value → Option α}
    (hread : ∀ value a, spells value a → read value = some a) {field : Option α}
    (h : Spelling.Says members key spells field) :
    PolicyFile.tomlField? members key read = some field := by
  cases field with
  | none =>
    unfold PolicyFile.tomlField?
    rw [show members.lookup key = none from h]
  | some a =>
    obtain ⟨value, hvalue, hspells⟩ := h
    rw [tomlField?_of_lookup hvalue, hread value a hspells]
    rfl

end Toml.Value

namespace PolicyFile

open Toml (Value)
open Toml.Value (spelling tomlField?_of_says)

theorem Limits.ofToml?_of_spelling {v : Value} {l : Limits} (h : spelling.SaysLimits v l) :
    Limits.ofToml? v = some l := by
  obtain ⟨members, rfl, hl⟩ := h
  have hint64 (value : Value) (i : Int64) : spelling.integer value i → value.int64? = some i :=
    Value.int64?_of_spelling
  have hbinary64 (value : Value) (x : Binary64) : spelling.rate value x →
      value.binary64? = some x := Value.binary64?_of_spelling
  unfold Limits.ofToml? Value.record?
  simp only [Option.bind_eq_bind, Option.bind_some, tomlField?_of_says hint64 hl.maxTtl,
    tomlField?_of_says hint64 hl.maxChildren, tomlField?_of_says hint64 hl.maxConcurrency,
    tomlField?_of_says hbinary64 hl.maxRate]
  rfl

theorem Features.ofToml?_of_spelling {v : Value} {f : Features} (h : spelling.SaysFeatures v f) :
    Features.ofToml? v = some f := by
  obtain ⟨members, rfl, hf⟩ := h
  have hboolean (value : Value) (b : Bool) : spelling.boolean value b →
      value.boolean? = some b := fun heq => heq ▸ rfl
  unfold Features.ofToml? Value.record?
  simp only [Option.bind_eq_bind, Option.bind_some, tomlField?_of_says hboolean hf]
  rfl

theorem ofToml?_of_spelling {f : PolicyFile} {members : List (String × Value)}
    (h : spelling.FileIn f members) : ofToml? members = some f := by
  have htext (value : Value) (text : String) : spelling.text value text →
      value.text? = some text := fun heq => heq ▸ rfl
  have htexts (value : Value) (texts : List String) : spelling.SaysTexts value texts →
      value.items? Value.text? = some texts := Value.items?_of_spelling
  have hlimits (value : Value) (l : Limits) : spelling.SaysLimits value l →
      Limits.ofToml? value = some l := Limits.ofToml?_of_spelling
  have hfeatures (value : Value) (f : Features) : spelling.SaysFeatures value f →
      Features.ofToml? value = some f := Features.ofToml?_of_spelling
  unfold ofToml?
  simp only [Option.bind_eq_bind, Option.bind_some, tomlField?_of_says htext h.schema,
    tomlField?_of_says htext h.name, tomlField?_of_says htext h.profile,
    tomlField?_of_says htexts h.intents, tomlField?_of_says htexts h.domains,
    tomlField?_of_says hlimits h.limits, tomlField?_of_says hfeatures h.features]
  rfl

/-! ## 3. Texts -/

section

variable {text : String} {file : PolicyFile}

theorem parse_json_eq_ok : parse text .json = .ok file ↔ ofJsonText? text = some file := by
  unfold parse
  cases ofJsonText? text <;> simp

theorem parse_toml_eq_ok : parse text .toml = .ok file ↔ ofTomlText? text = some file := by
  unfold parse
  cases ofTomlText? text <;> simp

end

end PolicyFile

end AdmissionGate
