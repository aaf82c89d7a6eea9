import AdmissionGate.Proofs.Binary64.Monotone
import AdmissionGate.Proofs.Json.Document
import AdmissionGate.Proofs.Policy.Spelling
import AdmissionGate.Proofs.Ranges

/-!
# Proofs/RateBound — the limit on the rate, from its text to the decision

The limit and the rate may both be written as integers, but they are held and compared as doubles.
The limit is inclusive, no rate within it is reported, and a rate above it is reported unless both
round to the same double.
-/

namespace AdmissionGate

/-! ## 1. The limit in a file -/

namespace PolicyFile

open Json (Document)
open Json.Document (field?_of_lookup)
open Toml.Value (tomlField?_of_lookup)

variable {m : Int64}

/-- The keys of a file and those of its limits, in the order in which a list stands for a table. -/
def keys : List String :=
  ["schema", "name", "profile", "wholesome_intents", "safe_domains", "limits", "features"]

def Limits.keys : List String :=
  ["max_ttl", "max_children", "max_concurrency", "max_rate_per_minute"]

/-- The limit on the rate in a text that gives it as an integer. -/
def integerLimit? (text : String) : PolicyFormat → Option Int64
  | .json => do
    let file ← (← Document.ofText? text).record? keys
    let limits ← (← file.fields.lookup "limits").record? Limits.keys
    (← limits.fields.lookup "max_rate_per_minute").int64?
  | .toml => do
    let limits ← (← (← Toml.ofText? text).lookup "limits").record? Limits.keys
    (← limits.lookup "max_rate_per_minute").int64?

theorem binary64?_of_int64? {d : Document} (h : d.int64? = some m) :
    d.binary64? = some (.ofInt m.toInt) := by
  obtain ⟨n, hn, hm⟩ := Option.bind_eq_some_iff.mp h
  obtain ⟨_, rfl⟩ := Json.Number.toInt64?_eq_some_iff.mp hm
  unfold Document.binary64?
  rw [hn]
  rfl

theorem toml_binary64?_of_int64? {v : Toml.Value} (h : v.int64? = some m) :
    v.binary64? = some (.ofInt m.toInt) := by
  cases v with
  | integer i =>
    obtain ⟨hrange, hm⟩ := Option.ite_none_right_eq_some.mp h
    have hback : m.toInt = i := by
      rw [← Option.some.inj hm]
      exact Int64.toInt_ofInt_of_le hrange.1 (Int.lt_of_le_of_lt hrange.2 (by decide))
    rw [hback]
    exact if_pos ⟨hrange.1, Int.lt_of_le_of_lt hrange.2 (by decide)⟩
  | _ => cases h

theorem Limits.maxRate_of_ofDocument? {d : Document} {l : Limits}
    (h : Limits.ofDocument? d = some l) {r : Json.Record} (hr : d.record? Limits.keys = some r)
    {value : Document} (hvalue : r.fields.lookup "max_rate_per_minute" = some value)
    (hm : value.int64? = some m) : l.maxRate = some (.ofInt m.toInt) := by
  simp only [Limits.ofDocument?, Option.bind_eq_bind, Option.bind_eq_some_iff] at h
  obtain ⟨r', hr', _, _, _, _, _, _, rate, hfield, hl⟩ := h
  obtain rfl : r = r' := Option.some.inj (hr.symm.trans hr')
  have hnull : value ≠ .null := by
    rintro rfl
    cases hm
  rw [field?_of_lookup hvalue hnull, binary64?_of_int64? hm] at hfield
  cases hfield
  cases hl
  rfl

theorem Limits.maxRate_of_ofToml? {v : Toml.Value} {l : Limits} (h : Limits.ofToml? v = some l)
    {r : List (String × Toml.Value)} (hr : v.record? Limits.keys = some r)
    {value : Toml.Value} (hvalue : r.lookup "max_rate_per_minute" = some value)
    (hm : value.int64? = some m) : l.maxRate = some (.ofInt m.toInt) := by
  simp only [Limits.ofToml?, Option.bind_eq_bind, Option.bind_eq_some_iff] at h
  obtain ⟨r', hr', _, _, _, _, _, _, rate, hfield, hl⟩ := h
  obtain rfl : r = r' := Option.some.inj (hr.symm.trans hr')
  rw [tomlField?_of_lookup hvalue, toml_binary64?_of_int64? hm] at hfield
  cases hfield
  cases hl
  rfl

theorem maxRate_of_ofJsonText? {text : String} {file : PolicyFile}
    (hfile : ofJsonText? text = some file) (hgiven : integerLimit? text .json = some m) :
    file.limits.bind (·.maxRate) = some (.ofInt m.toInt) := by
  simp only [integerLimit?, Option.bind_eq_bind, Option.bind_eq_some_iff] at hgiven
  obtain ⟨d, hd, r, hr, value, hvalue, limits, hlimits, rate, hrate, hm⟩ := hgiven
  unfold ofJsonText? at hfile
  rw [hd, Option.bind_some] at hfile
  -- Of the fields of the file only the limits matter.
  simp only [ofDocument?, Option.bind_eq_bind, Option.bind_eq_some_iff] at hfile
  obtain ⟨r', hr', _, _, _, _, _, _, _, _, _, _, l?, hfield, _, _, hfile⟩ := hfile
  obtain rfl : r = r' := Option.some.inj (hr.symm.trans hr')
  -- A null stands for absent limits, but then there is no key to give a limit.
  have hnull : value ≠ .null := by
    rintro rfl
    cases hlimits
  rw [field?_of_lookup hvalue hnull] at hfield
  obtain ⟨l, hl, rfl⟩ := Option.map_eq_some_iff.mp hfield
  cases hfile
  exact Limits.maxRate_of_ofDocument? hl hlimits hrate hm

theorem maxRate_of_ofTomlText? {text : String} {file : PolicyFile}
    (hfile : ofTomlText? text = some file) (hgiven : integerLimit? text .toml = some m) :
    file.limits.bind (·.maxRate) = some (.ofInt m.toInt) := by
  simp only [integerLimit?, Option.bind_eq_bind, Option.bind_eq_some_iff] at hgiven
  obtain ⟨members, hmembers, value, hvalue, limits, hlimits, rate, hrate, hm⟩ := hgiven
  unfold ofTomlText? at hfile
  rw [hmembers, Option.bind_some] at hfile
  simp only [ofToml?, Option.bind_eq_bind, Option.bind_eq_some_iff] at hfile
  obtain ⟨_, _, _, _, _, _, _, _, _, _, l?, hfield, _, _, hfile⟩ := hfile
  rw [tomlField?_of_lookup hvalue] at hfield
  obtain ⟨l, hl, rfl⟩ := Option.map_eq_some_iff.mp hfield
  cases hfile
  exact Limits.maxRate_of_ofToml? hl hlimits hrate hm

/-- The limit of a file is the double of the integer that its text gives. -/
theorem maxRate_of_parse {text : String} {format : PolicyFormat} {file : PolicyFile}
    (hparse : parse text format = .ok file) (hgiven : integerLimit? text format = some m) :
    file.limits.bind (·.maxRate) = some (.ofInt m.toInt) := by
  cases format with
  | json => exact maxRate_of_ofJsonText? (parse_json_eq_ok.mp hparse) hgiven
  | toml => exact maxRate_of_ofTomlText? (parse_toml_eq_ok.mp hparse) hgiven

theorem Resolves.maxRate {file : PolicyFile} {flags : FeatureFlags} {r : ResolvedPolicy}
    (h : file.Resolves flags r) {rate : Binary64}
    (hrate : file.limits.bind (·.maxRate) = some rate) : r.policy.limits.maxRate = rate := by
  have hbound : file.bounds.maxRate = some r.policy.limits.maxRate := by
    rw [h.limits]
    rfl
  unfold bounds at hbound
  rw [hrate, Option.some_or] at hbound
  exact (Option.some.inj hbound).symm

end PolicyFile

/-! ## 2. The rate of a request -/

namespace Request

variable {members : Members} {n : Json.Number}

/-- An object whose other fields are in order is a request with any number for a rate. -/
theorem exists_ofJson_of_rate (hrate : members.lookup "rate" = some (.number n))
    (hrest : ∀ field ≠ .rate, ∀ e, ¬ Offends members field e) :
    ∃ r, ofJson (.object members) = .ok r ∧ r.rate = n.toBinary64 := by
  have hread {value : Json} (h : ReadFrom members .rate value) : value = .number n := by
    rw [readFrom_of_ne (by decide)] at h
    exact Option.some.inj (h.symm.trans hrate)
  -- The rate is there and is a number, whatever the other fields are.
  have hnone : ∀ e, ¬ Offends members .rate e := by
    rintro e (⟨_, ⟨hmain, _⟩, _⟩ | ⟨value, hvalue, htakes, _⟩)
    · cases hmain.symm.trans hrate
    · exact htakes (.inl ⟨n, hread hvalue⟩)
  have hfields : NoFault (Field.order.map (Offends members)) := by
    intro kind hkind
    obtain ⟨field, _, rfl⟩ := List.mem_map.mp hkind
    by_cases hfield : field = .rate
    · exact hfield ▸ hnone
    · exact hrest field hfield
  obtain ⟨r, hr⟩ := ofMembers_reports.exists_ok_iff.mpr hfields
  obtain ⟨n', hn', hdouble⟩ := (ofMembers_eq_ok_iff.mp hr).rate
  rw [hrate] at hn'
  cases hn'
  exact ⟨r, hr, hdouble⟩

end Request

/-! ## 3. The comparison -/

namespace CheckInput

/-- Holds of an input that sets the integer `n` as a rate against the integer `m` as a limit on it,
with nothing wrong in its flags, its policy and the other fields of its request. -/
structure SetsRate (input : CheckInput) (n : Int) (m : Int64) : Prop where
  policy : ∃ text format, input.policy = .text text format ∧
    PolicyFile.integerLimit? text format = some m
  limit : 0 ≤ m.toInt
  config : NoFault input.configFaults
  request : ∃ members h, Json.ofText? input.request = some (.object members) ∧
    members.lookup "rate" = some (.number (.integer n h)) ∧
    ∀ field ≠ .rate, ∀ e, ¬ Request.Offends members field e

variable {input : CheckInput} {n : Int} {m : Int64}

theorem SetsRate.noFault (h : input.SetsRate n m) : NoFault input.faults := by
  obtain ⟨members, _, htext, hrate, hrest⟩ := h.request
  obtain ⟨r, hr, _⟩ := Request.exists_ofJson_of_rate hrate hrest
  have hrequest : NoFault input.requestFaults := by
    apply checkRequest_reports.noFault (a := r)
    exact checkRequest_eq_ok.mpr ⟨Json.not_blank_of_ofText? htext, _, htext, hr⟩
  intro kind hkind
  rcases List.mem_append.mp hkind with hkind | hkind
  · exact h.config kind hkind
  · exact hrequest kind hkind

theorem SetsRate.exists_output (h : input.SetsRate n m) (startedAt finishedAt : Timestamp) :
    ∃ output, runCheck input startedAt finishedAt = .ok output ∧
      (Predicate.rateWithinLimit.id ∈ output.receipt.failed ↔
        ¬ Binary64.ofInt n ≤ Binary64.ofInt m.toInt) := by
  obtain ⟨output, hrun⟩ := runCheck_reports.exists_ok_iff.mpr h.noFault
  obtain ⟨flags, value, request, _, hresolves, htext, hvalue, hreceipt⟩ := decides_of_runCheck hrun
  obtain ⟨members, _, htext', hrate, hrest⟩ := h.request
  obtain ⟨r, hr, hdouble⟩ := Request.exists_ofJson_of_rate hrate hrest
  obtain rfl : value = .object members := Option.some.inj (htext.symm.trans htext')
  obtain rfl : request = r := Except.ok.inj (hvalue.symm.trans hr)
  obtain ⟨text, format, hpolicy, hgiven⟩ := h.policy
  rw [hpolicy] at hresolves
  obtain ⟨file, hparse, hfile⟩ := hresolves
  have hmax := hfile.maxRate (PolicyFile.maxRate_of_parse hparse hgiven)
  refine ⟨output, hrun, ?_⟩
  -- Both sides of the comparison are doubles by now.
  have hholds : Predicate.rateWithinLimit.holds request output.policy.policy = true ↔
      Binary64.ofInt n ≤ Binary64.ofInt m.toInt := by
    show decide (request.rate ≤ output.policy.policy.limits.maxRate) = true ↔ _
    rw [hdouble, hmax, decide_eq_true_eq]
    rfl
  rw [← hholds, Predicate.holds_iff, ← id_mem_failed_iff, hreceipt]
  rfl

end CheckInput

/-- A check of an integer rate against an integer limit decides, and reports the rate exactly when
it is above the limit and does not round to the same double.  Limits below `2 ^ 53` are exact. -/
theorem rate_limit_is_exact_up_to_rounding (input : CheckInput) (startedAt finishedAt : Timestamp)
    {n : Int} {m : Int64} (h : input.SetsRate n m) :
    ∃ output, runCheck input startedAt finishedAt = .ok output ∧
      (Predicate.rateWithinLimit.id ∈ output.receipt.failed ↔
        m.toInt < n ∧ Binary64.ofInt n ≠ Binary64.ofInt m.toInt) ∧
      (m.toInt < 9007199254740992 →
        (Predicate.rateWithinLimit.id ∈ output.receipt.failed ↔ m.toInt < n)) := by
  obtain ⟨output, hrun, hlisted⟩ := h.exists_output startedAt finishedAt
  obtain ⟨_, hn, _⟩ := h.request
  have hm : 0 ≤ m.toInt ∧ m.toInt < 18446744073709551616 :=
    ⟨h.limit, Int.lt_trans m.toInt_lt (by decide)⟩
  have hrounded : Predicate.rateWithinLimit.id ∈ output.receipt.failed ↔
      m.toInt < n ∧ Binary64.ofInt n ≠ Binary64.ofInt m.toInt := by
    rw [hlisted, Binary64.ofInt_le_ofInt_iff hn hm, not_or, Int.not_le]
  refine ⟨output, hrun, hrounded, fun hsmall => ?_⟩
  rw [hrounded, and_iff_left_iff_imp]
  exact Binary64.ofInt_ne_of_lt hn ⟨hm.1, hsmall⟩

/-- The members of a request that is in order but for its rate. -/
def membersAtRate (rate : Json.Number) : Request.Members :=
  [("children", .ofInt64 0), ("concurrency", .ofInt64 0), ("domain", .string "github.com"),
    ("intent", .string "creative"), ("pauseBeforePropagate", .boolean true),
    ("rate", .number rate), ("ttl", .ofInt64 1)]

def inputAtRate (policy : String) (format : PolicyFormat) (rate : String) : CheckInput where
  policy := .text policy format
  request := "\x7b\"intent\":\"creative\",\"domain\":\"github.com\",\"ttl\":1,\"children\":0," ++
    "\"concurrency\":0,\"rate\":" ++ rate ++ ",\"pauseBeforePropagate\":true\x7d"

theorem setsRate_inputAtRate {policy rate : String} {format : PolicyFormat} {n : Int} {m : Int64}
    {h : -9223372036854775808 ≤ n ∧ n < 18446744073709551616}
    (hpolicy : (checkPolicy (.text policy format) {}).toOption.isSome = true)
    (hgiven : PolicyFile.integerLimit? policy format = some m) (hlimit : 0 ≤ m.toInt)
    (hrequest : Json.ofText? (inputAtRate policy format rate).request =
      some (.object (membersAtRate (.integer n h)))) :
    (inputAtRate policy format rate).SetsRate n m where
  policy := ⟨policy, format, rfl, hgiven⟩
  limit := hlimit
  config := by
    obtain ⟨r, hr⟩ := exists_ok_of_isSome hpolicy
    have hflags : checkFlags (inputAtRate policy format rate).flags = .ok {} := rfl
    have hgood : ∀ e, ¬ (inputAtRate policy format rate).PolicyFault e :=
      (checkPolicy_eq_ok.mp hr).1
    exact noFault_cons.mpr ⟨(checkFlags_eq_ok.mp hflags).1, noFault_cons.mpr ⟨hgood, noFault_nil⟩⟩
  request := by
    refine ⟨_, h, hrequest, rfl, fun field _ => ?_⟩
    have hfields := Request.ofMembers_reports.noFault
      (show Request.ofMembers (membersAtRate (.integer n h)) = .ok _ from rfl)
    refine hfields _ (List.mem_map_of_mem ?_)
    cases field <;> decide

/-- A rate just above the largest limit for which every integer counts. -/
def exactInput : CheckInput :=
  inputAtRate "profile = \"default\"\n[limits]\nmax_rate_per_minute = 9007199254740991" .toml
    "9007199254740992"

theorem rate_above_exact_limit_is_reported :
    exactInput.SetsRate 9007199254740992 9007199254740991 ∧
      ∃ output, runCheck exactInput newYear newYear = .ok output ∧
        Predicate.rateWithinLimit.id ∈ output.receipt.failed := by
  have hsets : exactInput.SetsRate 9007199254740992 9007199254740991 := by
    unfold exactInput
    exact setsRate_inputAtRate (h := by decide) (by decide +kernel) (by decide +kernel) (by decide)
      (by decide +kernel)
  obtain ⟨output, hrun, _, hexact⟩ :=
    rate_limit_is_exact_up_to_rounding exactInput newYear newYear hsets
  exact ⟨hsets, output, hrun, (hexact (by decide)).mpr (by decide)⟩

/-- The next limit and the next rate, which is no double and is rounded down to the limit. -/
def roundedInput : CheckInput :=
  inputAtRate ("\x7b\"profile\":\"default\"," ++
    "\"limits\":\x7b\"max_rate_per_minute\":9007199254740992\x7d\x7d") .json "9007199254740993"

theorem rate_rounded_to_limit_is_not_reported :
    roundedInput.SetsRate 9007199254740993 9007199254740992 ∧
      ∃ output, runCheck roundedInput newYear newYear = .ok output ∧
        ¬ (Predicate.rateWithinLimit.id ∈ output.receipt.failed ↔
          (9007199254740992 : Int64).toInt < 9007199254740993) := by
  have hsets : roundedInput.SetsRate 9007199254740993 9007199254740992 := by
    unfold roundedInput
    exact setsRate_inputAtRate (h := by decide) (by decide +kernel) (by decide +kernel) (by decide)
      (by decide +kernel)
  obtain ⟨output, hrun, hlisted⟩ := hsets.exists_output newYear newYear
  have hle : Binary64.ofInt 9007199254740993 ≤
      Binary64.ofInt (9007199254740992 : Int64).toInt := by
    decide +kernel
  refine ⟨hsets, output, hrun, fun hiff => ?_⟩
  exact hlisted.mp (hiff.mpr (by decide)) hle

end AdmissionGate
