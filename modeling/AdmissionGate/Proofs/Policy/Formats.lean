import AdmissionGate.Json.Writer
import AdmissionGate.Proofs.Json.Record
import AdmissionGate.Proofs.Policy.Spelling
import AdmissionGate.Proofs.Toml.Reader

/-!
# Proofs/Policy/Formats — the two formats of policy files say the same

A text writes a policy file when it is read as a tree that spells the file.  Any two such texts, one
in each format, are taken for the same file and resolve alike, and every file can be written in
both.  The rate is written as a number, that is as an integer of 64 bits or as a finite double.
-/

namespace AdmissionGate

/-! ## 1. Fields that may be absent -/

section Present

variable {Value : Type} {fields : List (String × Option Value)} {key : String}

def presentMembers (fields : List (String × Option Value)) : List (String × Value) :=
  fields.filterMap fun field => field.2.map (field.1, ·)

theorem sublist_keys_presentMembers (fields : List (String × Option Value)) :
    ((presentMembers fields).map Prod.fst).Sublist (fields.map Prod.fst) := by
  induction fields with
  | nil => exact List.Sublist.refl []
  | cons field rest ih =>
    obtain ⟨name, value?⟩ := field
    cases value? with
    | none => exact ih.cons name
    | some value => exact ih.cons_cons name

/-- A key is looked up as its own field, where no other field has that key. -/
theorem lookup_presentMembers (hkeys : (fields.map Prod.fst).Nodup) {value? : Option Value}
    (hmem : (key, value?) ∈ fields) : (presentMembers fields).lookup key = value? := by
  induction fields with
  | nil => cases hmem
  | cons field rest ih =>
    obtain ⟨name, first?⟩ := field
    obtain ⟨hname, hrest⟩ := List.nodup_cons.mp hkeys
    rcases List.mem_cons.mp hmem with heq | hin
    · cases heq
      cases value? with
      | none =>
        -- The key is not found further on either, since no other field has it.
        refine List.lookup_eq_none_iff.mpr fun m hm => bne_iff_ne.mpr fun heq => hname ?_
        rw [heq]
        exact (sublist_keys_presentMembers rest).subset (List.mem_map_of_mem hm)
      | some value => exact List.lookup_cons_self
    · have hkey : key ∈ rest.map Prod.fst := List.mem_map_of_mem (f := Prod.fst) hin
      have hne : key ≠ name := fun heq => hname (heq ▸ hkey)
      cases first? with
      | none => exact ih hrest hin
      | some first =>
        show List.lookup key ((name, first) :: presentMembers rest) = _
        rw [Json.lookup_cons_ite, if_neg hne, ih hrest hin]

end Present

/-! ## 2. Writing files -/

namespace PolicyFile

def rate? (f : PolicyFile) : Option Binary64 := f.limits.bind (·.maxRate)

/-- How a format writes values, and the trees that they are read as. -/
structure Writer (Value Tree : Type) where
  text : String → Value
  boolean : Bool → Value
  integer : Int64 → Value
  number : Json.Number → Value
  list : List Value → Value
  table : List (String × Value) → Value
  tree : Value → Tree

namespace Writer

variable {Value Tree : Type} (w : Writer Value Tree)

def limitFields (l : Limits) (rate? : Option Json.Number) : List (String × Option Value) :=
  [("max_ttl", l.maxTtl.map w.integer), ("max_children", l.maxChildren.map w.integer),
    ("max_concurrency", l.maxConcurrency.map w.integer),
    ("max_rate_per_minute", rate?.map w.number)]

def featureFields (f : Features) : List (String × Option Value) :=
  [("enforce_encoded_payload", f.enforceEncodedPayload.map w.boolean)]

def texts (texts : List String) : Value := w.list (texts.map w.text)

/-- The fields of a file, whose rate is written as a number if there is one. -/
def fields (f : PolicyFile) (rate? : Option Json.Number) : List (String × Option Value) :=
  [("schema", f.schema.map w.text), ("name", f.name.map w.text), ("profile", f.profile.map w.text),
    ("wholesome_intents", f.intents.map w.texts), ("safe_domains", f.domains.map w.texts),
    ("limits", f.limits.map fun l => w.table (presentMembers (w.limitFields l rate?))),
    ("features", f.features.map fun f => w.table (presentMembers (w.featureFields f)))]

def trees (fields : List (String × Option Value)) : List (String × Tree) :=
  (presentMembers fields).map fun m => (m.1, w.tree m.2)

/-- What is written spells what it should. -/
structure Faithful (s : Spelling Tree) : Prop where
  text : ∀ text, s.text (w.tree (w.text text)) text
  boolean : ∀ b, s.boolean (w.tree (w.boolean b)) b
  integer : ∀ i, s.integer (w.tree (w.integer i)) i
  rate : ∀ n, s.rate (w.tree (w.number n)) n.toBinary64
  list : ∀ values, s.items (w.tree (w.list values)) (values.map w.tree)
  table : ∀ members, (members.map Prod.fst).Nodup →
    s.members (w.tree (w.table members)) (members.map fun m => (m.1, w.tree m.2))

theorem nodup_limitFields (l : Limits) (rate? : Option Json.Number) :
    ((w.limitFields l rate?).map Prod.fst).Nodup := by
  show ["max_ttl", "max_children", "max_concurrency", "max_rate_per_minute"].Nodup
  decide

theorem nodup_fields (f : PolicyFile) (rate? : Option Json.Number) :
    ((w.fields f rate?).map Prod.fst).Nodup := by
  show ["schema", "name", "profile", "wholesome_intents", "safe_domains", "limits",
    "features"].Nodup
  decide

variable {w} {s : Spelling Tree} {α : Type} {fields : List (String × Option Value)} {key : String}

/-- A field says what its value spells, or that nothing is said when it is absent. -/
theorem says_trees (hkeys : (fields.map Prod.fst).Nodup) {a? : Option α} {write : α → Value}
    (hmem : (key, a?.map write) ∈ fields) {spells : Tree → α → Prop}
    (hspells : ∀ a ∈ a?, spells (w.tree (write a)) a) :
    Spelling.Says (w.trees fields) key spells a? := by
  have hlookup : (w.trees fields).lookup key = (a?.map write).map w.tree := by
    rw [trees, Json.lookup_map_snd, lookup_presentMembers hkeys hmem]
  cases a? with
  | none => exact hlookup
  | some a => exact ⟨_, hlookup, hspells a rfl⟩

theorem saysTexts_texts (hw : w.Faithful s) (texts : List String) :
    s.SaysTexts (w.tree (w.texts texts)) texts := by
  refine ⟨_, hw.list _, ?_⟩
  rw [List.map_map]
  exact List.forall₂_map_left_iff.mpr (List.forall₂_same.mpr fun text _ => hw.text text)

theorem members_table (hw : w.Faithful s) (hkeys : (fields.map Prod.fst).Nodup) :
    s.members (w.tree (w.table (presentMembers fields))) (w.trees fields) :=
  hw.table _ ((sublist_keys_presentMembers fields).nodup hkeys)

theorem saysLimits_table (hw : w.Faithful s) {l : Limits} {rate? : Option Json.Number}
    (hrate : l.maxRate = rate?.map Json.Number.toBinary64) :
    s.SaysLimits (w.tree (w.table (presentMembers (w.limitFields l rate?)))) l := by
  have hkeys := w.nodup_limitFields l rate?
  -- What is written is a number, what is said its double.
  have hrates : Spelling.Says (w.trees (w.limitFields l rate?)) "max_rate_per_minute"
      (fun tree n => s.rate tree n.toBinary64) rate? :=
    says_trees hkeys (by simp [limitFields]) fun n _ => hw.rate n
  refine ⟨_, members_table hw hkeys, ?_, ?_, ?_, ?_⟩
  · exact says_trees hkeys (by simp [limitFields]) fun i _ => hw.integer i
  · exact says_trees hkeys (by simp [limitFields]) fun i _ => hw.integer i
  · exact says_trees hkeys (by simp [limitFields]) fun i _ => hw.integer i
  · rw [hrate]
    cases rate? <;> exact hrates

theorem saysFeatures_table (hw : w.Faithful s) (f : Features) :
    s.SaysFeatures (w.tree (w.table (presentMembers (w.featureFields f)))) f := by
  have hkeys : ((w.featureFields f).map Prod.fst).Nodup := List.nodup_singleton _
  exact ⟨_, members_table hw hkeys,
    says_trees hkeys (List.mem_singleton.mpr rfl) fun b _ => hw.boolean b⟩

theorem fileIn_trees (hw : w.Faithful s) {f : PolicyFile} {rate? : Option Json.Number}
    (hrate : f.rate? = rate?.map Json.Number.toBinary64) :
    s.FileIn f (w.trees (w.fields f rate?)) := by
  have hkeys := w.nodup_fields f rate?
  have hlimits (l : Limits) (hl : l ∈ f.limits) :
      s.SaysLimits (w.tree (w.table (presentMembers (w.limitFields l rate?)))) l := by
    refine saysLimits_table hw ?_
    rw [← hrate, PolicyFile.rate?, hl]
    rfl
  refine ⟨?_, ?_, ?_, ?_, ?_, ?_, ?_⟩
  · exact says_trees hkeys (by simp [Writer.fields]) fun text _ => hw.text text
  · exact says_trees hkeys (by simp [Writer.fields]) fun text _ => hw.text text
  · exact says_trees hkeys (by simp [Writer.fields]) fun text _ => hw.text text
  · exact says_trees hkeys (by simp [Writer.fields]) fun texts _ => saysTexts_texts hw texts
  · exact says_trees hkeys (by simp [Writer.fields]) fun texts _ => saysTexts_texts hw texts
  · exact says_trees hkeys (by simp [Writer.fields]) hlimits
  · exact says_trees hkeys (by simp [Writer.fields]) fun f _ => saysFeatures_table hw f

end Writer

/-! ## 3. Files in JSON and in TOML -/

/-- Holds of JSON texts that write a file: they have its present keys with the same values. -/
def WrittenInJson (f : PolicyFile) (text : String) : Prop :=
  ∃ d members, Json.Document.ofText? text = some d ∧ Json.Document.spelling.members d members ∧
    Json.Document.spelling.FileIn f members

/-- Holds of TOML texts that write a file: they have its present keys with the same values. -/
def WrittenInToml (f : PolicyFile) (text : String) : Prop :=
  ∃ members, Toml.ofText? text = some members ∧ Toml.Value.spelling.FileIn f members

theorem parse_of_writtenInJson {f : PolicyFile} {text : String} (h : f.WrittenInJson text) :
    parse text .json = .ok f := by
  obtain ⟨d, members, hd, hmembers, hf⟩ := h
  refine parse_json_eq_ok.mpr ?_
  unfold ofJsonText?
  rw [hd]
  exact ofDocument?_of_spelling hmembers hf

theorem parse_of_writtenInToml {f : PolicyFile} {text : String} (h : f.WrittenInToml text) :
    parse text .toml = .ok f := by
  obtain ⟨members, hmembers, hf⟩ := h
  refine parse_toml_eq_ok.mpr ?_
  unfold ofTomlText?
  rw [hmembers]
  exact ofToml?_of_spelling hf

def jsonWriter : Writer Json Json.Document where
  text := .string
  boolean := .boolean
  integer i := .number (.ofInt64 i)
  number := .number
  list := .array
  table := .object
  tree := Json.toDocument

def jsonText (f : PolicyFile) (rate? : Option Json.Number) : String :=
  (Json.object (presentMembers (jsonWriter.fields f rate?))).pretty

theorem faithful_jsonWriter : jsonWriter.Faithful Json.Document.spelling where
  text _ := rfl
  boolean _ := rfl
  integer _ := rfl
  rate n := ⟨n.numeral, n, rfl, Json.toNumber?_numeral n, rfl⟩
  list values := congrArg Json.Document.array (Json.itemDocuments_eq_map values)
  table members hkeys := by
    refine ⟨?_, ?_⟩
    · show Json.Document.object (Json.memberDocuments members) = _
      rw [Json.memberDocuments_eq_map, List.map_map]
      rfl
    · rw [List.map_map]
      exact hkeys

def tomlWriter : Writer Toml.Value Toml.Value where
  text := .string
  boolean := .boolean
  integer i := .integer i.toInt
  number
    | .integer i _ => .integer i
    | .fraction x => .float (some (.finite x))
  list := .array
  table := .table
  tree := id

def tomlText (f : PolicyFile) (rate? : Option Json.Number) : String :=
  Toml.text (presentMembers (tomlWriter.fields f rate?))

theorem faithful_tomlWriter : tomlWriter.Faithful Toml.Value.spelling where
  text _ := rfl
  boolean _ := rfl
  integer _ := rfl
  rate
    | .integer i hrange => .inr ⟨i, hrange.1, hrange.2, rfl, rfl⟩
    | .fraction _ => .inl rfl
  list values := congrArg Toml.Value.array (List.map_id values).symm
  table members _ := congrArg Toml.Value.table (List.map_id members).symm

theorem writtenInJson_jsonText {f : PolicyFile} {rate? : Option Json.Number}
    (hrate : f.rate? = rate?.map Json.Number.toBinary64) :
    f.WrittenInJson (f.jsonText rate?) := by
  have hkeys := jsonWriter.nodup_fields f rate?
  exact ⟨_, _, Json.Document.ofText?_pretty _, Writer.members_table faithful_jsonWriter hkeys,
    Writer.fileIn_trees faithful_jsonWriter hrate⟩

section Plain

open Toml (MembersPlain ItemsPlain Value)

variable {fields : List (String × Option Value)} {room : Nat}

theorem membersPlain_presentMembers (h : ∀ field ∈ fields, ∀ value ∈ field.2, value.Plain room) :
    MembersPlain room (presentMembers fields) := by
  induction fields with
  | nil => trivial
  | cons field rest ih =>
    obtain ⟨name, value?⟩ := field
    obtain ⟨hfirst, hrest⟩ := List.forall_mem_cons.mp h
    cases value? with
    | none => exact ih hrest
    | some value => exact ⟨hfirst value rfl, ih hrest⟩

theorem forall_plain_map {α : Type} {a? : Option α} {write : α → Value}
    (h : ∀ a, (write a).Plain room) : ∀ value ∈ a?.map write, value.Plain room := by
  rintro value hvalue
  obtain ⟨a, -, rfl⟩ := Option.map_eq_some_iff.mp hvalue
  exact h a

theorem itemsPlain_texts (texts : List String) :
    ItemsPlain 0 (texts.map Value.string) := by
  induction texts with
  | nil => trivial
  | cons text rest ih => exact ⟨trivial, ih⟩

theorem membersPlain_limitFields (l : Limits) (rate? : Option Json.Number) :
    MembersPlain 0 (presentMembers (tomlWriter.limitFields l rate?)) := by
  have hinteger (i? : Option Int64) : ∀ value ∈ i?.map tomlWriter.integer, value.Plain 0 :=
    forall_plain_map fun _ => trivial
  have hnumber : ∀ value ∈ rate?.map tomlWriter.number, value.Plain 0 := by
    refine forall_plain_map fun n => ?_
    cases n with
    | integer => trivial
    | fraction => exact Option.some_ne_none _
  refine membersPlain_presentMembers ?_
  simp only [Writer.limitFields, List.forall_mem_cons]
  exact ⟨hinteger _, hinteger _, hinteger _, hnumber, List.forall_mem_nil _⟩

/-- What is written for a file has tables and arrays in the table of the file only. -/
theorem membersPlain_fields (f : PolicyFile) (rate? : Option Json.Number) :
    MembersPlain 1 (presentMembers (tomlWriter.fields f rate?)) := by
  have htext (text? : Option String) : ∀ value ∈ text?.map tomlWriter.text, value.Plain 1 :=
    forall_plain_map fun _ => trivial
  have htexts (texts? : Option (List String)) :
      ∀ value ∈ texts?.map tomlWriter.texts, value.Plain 1 := forall_plain_map itemsPlain_texts
  -- Limits and features are tables inside of the table of the file, and no deeper.
  have hlimits : ∀ value ∈ f.limits.map fun l =>
      tomlWriter.table (presentMembers (tomlWriter.limitFields l rate?)), value.Plain 1 :=
    forall_plain_map fun l =>
      ⟨(sublist_keys_presentMembers _).nodup (tomlWriter.nodup_limitFields l rate?),
        membersPlain_limitFields l rate?⟩
  have hfeatures : ∀ value ∈ f.features.map fun f =>
      tomlWriter.table (presentMembers (tomlWriter.featureFields f)), value.Plain 1 := by
    refine forall_plain_map fun f =>
      ⟨(sublist_keys_presentMembers _).nodup (List.nodup_singleton _), ?_⟩
    refine membersPlain_presentMembers (List.forall_mem_singleton.mpr ?_)
    exact forall_plain_map fun _ => trivial
  refine membersPlain_presentMembers ?_
  simp only [Writer.fields, List.forall_mem_cons]
  exact ⟨htext _, htext _, htext _, htexts _, htexts _, hlimits, hfeatures, List.forall_mem_nil _⟩

end Plain

theorem writtenInToml_tomlText {f : PolicyFile} {rate? : Option Json.Number}
    (hrate : f.rate? = rate?.map Json.Number.toBinary64) :
    f.WrittenInToml (f.tomlText rate?) := by
  have hkeys := (sublist_keys_presentMembers _).nodup (tomlWriter.nodup_fields f rate?)
  have hread := Toml.ofText?_text hkeys (membersPlain_fields f rate?) (by decide)
  have htrees : tomlWriter.trees (tomlWriter.fields f rate?) =
      presentMembers (tomlWriter.fields f rate?) := List.map_id _
  exact ⟨_, hread, htrees ▸ Writer.fileIn_trees faithful_tomlWriter hrate⟩

end PolicyFile

/-! ## 4. The formats agree -/

/-- Texts that write the same file, one in each format, are both taken for that file and give the
same policy or the same error, whatever the flags are.  A file can be written in both formats with
its rate as any number that it is the double of: as a finite double or as an integer of 64 bits.
Both readers are assumed to take a decimal for the nearest double. -/
theorem policy_formats_agree (f : PolicyFile) :
    (∀ json toml, f.WrittenInJson json → f.WrittenInToml toml →
      PolicyFile.parse json .json = .ok f ∧ PolicyFile.parse toml .toml = .ok f ∧
        ∀ flags, ResolvedPolicy.load json .json flags = ResolvedPolicy.load toml .toml flags) ∧
    ∀ rate? : Option Json.Number, f.rate? = rate?.map Json.Number.toBinary64 →
      f.WrittenInJson (f.jsonText rate?) ∧ f.WrittenInToml (f.tomlText rate?) := by
  refine ⟨fun json toml hjson htoml => ?_, fun rate? hrate => ?_⟩
  · have hj := PolicyFile.parse_of_writtenInJson hjson
    have ht := PolicyFile.parse_of_writtenInToml htoml
    refine ⟨hj, ht, fun flags => ?_⟩
    unfold ResolvedPolicy.load
    rw [hj, ht]
  · exact ⟨PolicyFile.writtenInJson_jsonText hrate, PolicyFile.writtenInToml_tomlText hrate⟩

theorem integer_rate_is_read_in_both_formats :
    let f : PolicyFile :=
      { profile := some "default", limits := some { maxRate := some (.ofInt 30) } }
    let rate : Json.Number := .integer 30 (by decide)
    PolicyFile.parse (f.jsonText (some rate)) .json = .ok f ∧
      PolicyFile.parse (f.tomlText (some rate)) .toml = .ok f ∧
      ∀ flags, ResolvedPolicy.load (f.jsonText (some rate)) .json flags =
        ResolvedPolicy.load (f.tomlText (some rate)) .toml flags := by
  intro f rate
  obtain ⟨hagree, hwritten⟩ := policy_formats_agree f
  obtain ⟨hjson, htoml⟩ := hwritten (some rate) rfl
  exact hagree _ _ hjson htoml

/-- JSON takes an integer beyond 64 bits for the nearest double; TOML takes no such integer for a
rate. -/
theorem wide_integer_rate_is_read_in_json_only :
    let f : PolicyFile :=
      { profile := some "default", limits := some { maxRate := some (.ofInt (10 ^ 20)) } }
    let json := "\x7b\"profile\":\"default\"," ++
      "\"limits\":\x7b\"max_rate_per_minute\":100000000000000000000\x7d\x7d"
    let toml := "\"profile\"=\"default\"\n" ++
      "\"limits\"=\x7b\"max_rate_per_minute\"=100000000000000000000\x7d\n"
    (Binary64.ofInt (10 ^ 20)).isFinite = true ∧ f.WrittenInJson json ∧
      Toml.ofText? toml = some [("profile", .string "default"),
        ("limits", .table [("max_rate_per_minute", .integer (10 ^ 20))])] ∧
      PolicyFile.parse json .json = .ok f ∧
      PolicyFile.parse toml .toml = .error (.parse .toml) := by
  intro f json toml
  have hjson : f.WrittenInJson json := by
    have hread : Json.Document.ofText? json = some (.object
        [(some "profile", .string (some "default")), (some "limits", .object
          [(some "max_rate_per_minute", .number (.integer false (10 ^ 20)))])]) := by
      refine Json.Document.ofText?_of_tokens? ?_
      unfold json
      cbv
    have hrate : (Json.Numeral.integer false (10 ^ 20)).toNumber?.map Json.Number.toBinary64 =
        some (.ofInt (10 ^ 20)) := by decide +kernel
    obtain ⟨number, hnumber, hdouble⟩ := Option.map_eq_some_iff.mp hrate
    have hlimits : Json.Document.spelling.SaysLimits (.object
        [(some "max_rate_per_minute", .number (.integer false (10 ^ 20)))])
        { maxRate := some (.ofInt (10 ^ 20)) } :=
      ⟨[("max_rate_per_minute", _)], ⟨rfl, List.nodup_singleton _⟩,
        rfl, rfl, rfl, _, rfl, _, _, rfl, hnumber, hdouble⟩
    exact ⟨_, [("profile", _), ("limits", _)], hread, ⟨rfl, by decide⟩, rfl, rfl, ⟨_, rfl, rfl⟩,
      rfl, rfl, ⟨_, rfl, hlimits⟩, rfl⟩
  have hmembers : Toml.ofText? toml = some [("profile", .string "default"),
      ("limits", .table [("max_rate_per_minute", .integer (10 ^ 20))])] := by
    have hplain : Toml.MembersPlain 1 [("profile", .string "default"),
        ("limits", .table [("max_rate_per_minute", .integer (10 ^ 20))])] :=
      ⟨trivial, ⟨List.nodup_singleton _, trivial, trivial⟩, trivial⟩
    refine Toml.ofText?_of_tokens? ?_ (by decide) hplain (by decide)
    unfold toml
    cbv
  have htoml : PolicyFile.parse toml .toml = .error (.parse .toml) := by
    have hnone : PolicyFile.ofTomlText? toml = none := by
      unfold PolicyFile.ofTomlText?
      rw [hmembers]
      rfl
    unfold PolicyFile.parse
    simp only [hnone]
  exact ⟨by decide +kernel, hjson, hmembers, PolicyFile.parse_of_writtenInJson hjson, htoml⟩

end AdmissionGate
