import Mathlib.Data.List.Basic
import AdmissionGate.Request.Decode
import AdmissionGate.Proofs.FirstFault

/-!
# Proofs/Request/Decode — which JSON values are requests

`Request.Spells` says when the members of an object spell a request, and `Request.Offends` what each
field can be refused for.  `ofJson_reports_first_offence` says that decoding gives the spelled
request and otherwise reports the first field that offends, under its main spelling.
-/

namespace AdmissionGate

/-! ## Numbers held as integers -/

namespace Json

variable {i : Int64} {n : Number}

theorem Number.toInt64?_integer {v : Int} {h} : (Number.integer v h).toInt64? =
    if v ≤ 9223372036854775807 then some (Int64.ofInt v) else none :=
  rfl

/-- A number is a signed 64-bit integer when it is held as an integer in that range. -/
theorem Number.toInt64?_eq_some_iff :
    n.toInt64? = some i ↔ ∃ h, n = .integer i.toInt h := by
  cases n with
  | fraction x => simp [Number.toInt64?]
  | integer v hv =>
    rw [Number.toInt64?_integer]
    constructor
    · intro h
      by_cases hle : v ≤ 9223372036854775807
      · rw [if_pos hle] at h
        have hback : i.toInt = v := by
          rw [← Option.some.inj h]
          exact Int64.toInt_ofInt_of_le hv.1 (by omega)
        subst hback
        exact ⟨hv, rfl⟩
      · rw [if_neg hle] at h
        cases h
    · rintro ⟨h, heq⟩
      have hle : i.toInt ≤ 9223372036854775807 := i.toInt_le
      rw [Number.integer.inj heq, if_pos hle, Int64.ofInt_toInt]

theorem Numeral.finite?_ne_integer {negative : Bool} {significand : Nat} {exponent v : Int} {h} :
    Numeral.finite? negative significand exponent ≠ some (.integer v h) := by
  unfold Numeral.finite?
  split
  · intro heq
    cases heq
  · intro heq
    cases heq

/-- A numeral denotes an integer when it has digits alone and is not minus zero: a point or an
exponent makes a double of it, whatever its value. -/
theorem Numeral.toNumber?_eq_integer_iff {numeral : Numeral} {v : Int} {h} :
    numeral.toNumber? = some (.integer v h) ↔ ∃ negative magnitude,
      numeral = .integer negative magnitude ∧ (negative = true → 0 < magnitude) ∧
      v = if negative = true then -(magnitude : Int) else magnitude := by
  cases numeral with
  | decimal negative significand exponent =>
    refine iff_of_false Numeral.finite?_ne_integer ?_
    rintro ⟨_, _, heq, _⟩
    cases heq
  | integer negative magnitude =>
    -- Each sign has a range of its own, beyond which the numeral is read as a double.
    cases negative with
    | false =>
      simp only [Numeral.toNumber?]
      by_cases hlt : magnitude < 18446744073709551616
      · rw [dif_pos hlt]
        simp [eq_comm]
      · rw [dif_neg hlt]
        refine iff_of_false Numeral.finite?_ne_integer ?_
        rintro ⟨_, _, ⟨rfl, rfl⟩, _, hv⟩
        simp only [Bool.false_eq_true, if_false] at hv
        omega
    | true =>
      simp only [Numeral.toNumber?]
      by_cases hle : 0 < magnitude ∧ magnitude ≤ 9223372036854775808
      · rw [dif_pos hle]
        simp [hle.1, eq_comm]
      · rw [dif_neg hle]
        refine iff_of_false Numeral.finite?_ne_integer ?_
        rintro ⟨_, _, ⟨rfl, rfl⟩, hpos, hv⟩
        have hpos := hpos rfl
        simp only [if_true] at hv
        omega

theorem Numeral.toInt64?_iff {numeral : Numeral} (h : numeral.toNumber? = some n) :
    n.toInt64? = some i ↔ ∃ negative magnitude, numeral = .integer negative magnitude ∧
      (negative = true → 0 < magnitude) ∧
      i.toInt = if negative = true then -(magnitude : Int) else magnitude := by
  have hrange : -9223372036854775808 ≤ i.toInt ∧ i.toInt < 18446744073709551616 :=
    ⟨i.le_toInt, Int.lt_trans i.toInt_lt (by decide)⟩
  rw [Number.toInt64?_eq_some_iff, ← Numeral.toNumber?_eq_integer_iff (h := hrange), h]
  constructor
  · rintro ⟨_, rfl⟩
    rfl
  · intro heq
    exact ⟨hrange, Option.some.inj heq⟩

end Json

namespace Request

/-! ## What the members of an object spell -/

/-- The fields in the order in which they are read. -/
def Field.order : List Field :=
  [.intent, .domain, .ttl, .children, .concurrency, .rate, .payload, .pauseAttested]

def Field.expected : Field → Expected
  | .intent | .domain | .payload => .string
  | .ttl | .children | .concurrency => .integer
  | .rate => .number
  | .pauseAttested => .boolean

/-- A value of the expected kind; integers are numbers held as integers within signed 64 bits. -/
def Expected.Fits : Expected → Json → Prop
  | .string, value => ∃ text, value = .string text
  | .integer, value => ∃ i h, value = .number (.integer i h) ∧
      -9223372036854775808 ≤ i ∧ i ≤ 9223372036854775807
  | .number, value => ∃ n, value = .number n
  | .boolean, value => ∃ b, value = .boolean b

/-- A value that a field takes.  The payload may be null. -/
def Field.Takes (field : Field) (value : Json) : Prop :=
  field.expected.Fits value ∨ field = .payload ∧ value = .null

variable (members : Members)

/-- A field is read from its main spelling if that stands there at all. -/
def ReadFrom (field : Field) (value : Json) : Prop :=
  members.lookup field.name = some value ∨
    members.lookup field.name = none ∧ members.lookup field.otherName = some value

def Absent (field : Field) : Prop :=
  members.lookup field.name = none ∧ members.lookup field.otherName = none

/-- What a field is refused for: it is missing, the payload apart, or holds a value of the wrong
kind. -/
def Offends (field : Field) (e : Error) : Prop :=
  field ≠ .payload ∧ Absent members field ∧ e = .missingField field ∨
    ∃ value, ReadFrom members field value ∧ ¬ field.Takes value ∧
      e = .invalidType field field.expected value.kind

/-- The members spell a request, whatever else they are. -/
structure Spells (r : Request) : Prop where
  intent : members.lookup "intent" = some (.string r.intent)
  domain : members.lookup "domain" = some (.string r.domain)
  ttl : ∃ h, members.lookup "ttl" = some (.number (.integer r.ttl.toInt h))
  children : ∃ h, members.lookup "children" = some (.number (.integer r.children.toInt h))
  concurrency : ∃ h, members.lookup "concurrency" = some (.number (.integer r.concurrency.toInt h))
  rate : ∃ n, members.lookup "rate" = some (.number n) ∧ r.rate = n.toBinary64
  payload : (∃ text, r.payload = some text ∧ members.lookup "payload" = some (.string text)) ∨
    r.payload = none ∧ (members.lookup "payload" = none ∨ members.lookup "payload" = some .null)
  pauseAttested : members.lookup "pauseBeforePropagate" = some (.boolean r.pauseAttested) ∨
    members.lookup "pauseBeforePropagate" = none ∧
      members.lookup "pause_before_propagate" = some (.boolean r.pauseAttested)

/-! ## Reading one field -/

section

variable {members} {field : Field} {value : Json} {e : Error}

theorem lookup_eq_some_iff : lookup members field = some value ↔ ReadFrom members field value := by
  unfold lookup ReadFrom
  exact Option.or_eq_some_iff

theorem lookup_eq_none_iff : lookup members field = none ↔ Absent members field := by
  unfold lookup Absent
  exact Option.or_eq_none_iff

/-- Only the attestation has a second spelling. -/
theorem lookup_of_ne (h : field ≠ .pauseAttested) :
    lookup members field = members.lookup field.name := by
  unfold lookup
  cases field with
  | pauseAttested => exact absurd rfl h
  | _ => exact Option.or_self

theorem readFrom_of_ne (h : field ≠ .pauseAttested) :
    ReadFrom members field value ↔ members.lookup field.name = some value := by
  rw [← lookup_eq_some_iff, lookup_of_ne h]

theorem readText_eq_some_iff {text : String} :
    readText value = some text ↔ value = .string text := by
  cases value <;> simp [readText]

theorem readNumber_eq_some_iff {x : Binary64} :
    readNumber value = some x ↔ ∃ n, value = .number n ∧ x = n.toBinary64 := by
  cases value <;> simp [readNumber, eq_comm]

theorem readBoolean_eq_some_iff {b : Bool} : readBoolean value = some b ↔ value = .boolean b := by
  cases value <;> simp [readBoolean]

theorem readInteger_eq_some_iff {i : Int64} :
    readInteger value = some i ↔ ∃ h, value = .number (.integer i.toInt h) := by
  cases value with
  | number n => simp [readInteger, Json.Number.toInt64?_eq_some_iff]
  | _ => simp [readInteger]

theorem readInteger_fits : (∃ i, readInteger value = some i) ↔ Expected.integer.Fits value := by
  constructor
  · rintro ⟨i, hi⟩
    obtain ⟨h, rfl⟩ := readInteger_eq_some_iff.mp hi
    exact ⟨i.toInt, h, rfl, i.le_toInt, i.toInt_le⟩
  · rintro ⟨v, h, rfl, hlo, hhi⟩
    have hback := Int64.toInt_ofInt_of_le hlo (by omega)
    refine ⟨Int64.ofInt v, readInteger_eq_some_iff.mpr ?_⟩
    simpa only [hback, exists_prop, and_true] using h

theorem readText_fits : (∃ text, readText value = some text) ↔ Expected.string.Fits value :=
  exists_congr fun _ => readText_eq_some_iff

theorem readNumber_fits : (∃ x, readNumber value = some x) ↔ Expected.number.Fits value := by
  cases value <;> simp [readNumber, Expected.Fits]

theorem readBoolean_fits : (∃ b, readBoolean value = some b) ↔ Expected.boolean.Fits value :=
  exists_congr fun _ => readBoolean_eq_some_iff

variable {α : Type} {read : Json → Option α}

theorem required_eq_ok {expected : Expected} {a : α} :
    required members field expected read = .ok a ↔
      ∃ value, ReadFrom members field value ∧ read value = some a := by
  simp only [← lookup_eq_some_iff]
  unfold required
  cases lookup members field with
  | none => simp
  | some value => cases hread : read value <;> simp [hread]

theorem required_reports (hfits : ∀ value, (∃ a, read value = some a) ↔ field.expected.Fits value)
    (hfield : field ≠ .payload) :
    Reports (required members field field.expected read) [Offends members field] := by
  -- Null is taken for the payload alone, which is not a required field.
  have htakes : ∀ value, ¬ field.Takes value ↔ read value = none := by
    intro value
    unfold Field.Takes
    rw [← hfits value, Option.eq_none_iff_forall_ne_some]
    simp [hfield]
  apply Reports.single
  intro e
  simp only [Offends, htakes, ← lookup_eq_some_iff, ← lookup_eq_none_iff]
  unfold required
  cases lookup members field with
  | none => simp [hfield, eq_comm]
  | some value => cases hread : read value <;> simp [hread, eq_comm]

theorem optionalText_reports :
    Reports (optionalText members .payload) [Offends members .payload] := by
  apply Reports.single
  intro e
  simp only [Offends, ← lookup_eq_some_iff]
  unfold optionalText
  cases lookup members .payload with
  | none => simp
  | some value =>
    cases value <;> simp [Field.Takes, Field.expected, Expected.Fits, eq_comm]

theorem optionalText_eq_ok {text : Option String} :
    optionalText members .payload = .ok text ↔
      (∃ s, text = some s ∧ members.lookup "payload" = some (.string s)) ∨
      text = none ∧ (members.lookup "payload" = none ∨ members.lookup "payload" = some .null) := by
  have hlookup : lookup members .payload = members.lookup "payload" := lookup_of_ne (by decide)
  unfold optionalText
  rw [hlookup]
  cases members.lookup "payload" with
  | none => simp [eq_comm]
  | some value => cases value <;> simp [eq_comm]

end

/-! ## Reading all fields -/

variable {members}

theorem ofMembers_reports : Reports (ofMembers members) (Field.order.map (Offends members)) := by
  unfold ofMembers
  refine (required_reports (fun _ => readText_fits) (by decide)).bind fun _ _ =>
    (required_reports (fun _ => readText_fits) (by decide)).bind fun _ _ =>
    (required_reports (fun _ => readInteger_fits) (by decide)).bind fun _ _ =>
    (required_reports (fun _ => readInteger_fits) (by decide)).bind fun _ _ =>
    (required_reports (fun _ => readInteger_fits) (by decide)).bind fun _ _ =>
    (required_reports (fun _ => readNumber_fits) (by decide)).bind fun _ _ =>
    optionalText_reports.bind fun _ _ =>
    (required_reports (fun _ => readBoolean_fits) (by decide)).bind fun _ _ => Reports.pure _

theorem ofMembers_eq_ok_iff {r : Request} : ofMembers members = .ok r ↔ Spells members r := by
  simp only [ofMembers, bind_eq_ok, pure_eq_ok, required_eq_ok, optionalText_eq_ok,
    readText_eq_some_iff, readInteger_eq_some_iff, readNumber_eq_some_iff, readBoolean_eq_some_iff]
  constructor
  · rintro ⟨intent, ⟨_, hintent, rfl⟩, domain, ⟨_, hdomain, rfl⟩, ttl, ⟨_, httl, h, rfl⟩,
      children, ⟨_, hchildren, h', rfl⟩, concurrency, ⟨_, hconcurrency, h'', rfl⟩,
      rate, ⟨_, hrate, n, rfl, hx⟩, payload, hpayload, pause, ⟨_, hpause, rfl⟩, rfl⟩
    -- Only for the attestation does it matter which spelling the value stands under.
    rw [readFrom_of_ne (by decide)] at hintent hdomain httl hchildren hconcurrency hrate
    exact ⟨hintent, hdomain, ⟨h, httl⟩, ⟨h', hchildren⟩, ⟨h'', hconcurrency⟩, ⟨n, hrate, hx⟩,
      hpayload, hpause⟩
  · rintro ⟨hintent, hdomain, ⟨h, httl⟩, ⟨h', hchildren⟩, ⟨h'', hconcurrency⟩, ⟨n, hrate, hx⟩,
      hpayload, hpause⟩
    exact ⟨_, ⟨_, .inl hintent, rfl⟩, _, ⟨_, .inl hdomain, rfl⟩, _, ⟨_, .inl httl, h, rfl⟩,
      _, ⟨_, .inl hchildren, h', rfl⟩, _, ⟨_, .inl hconcurrency, h'', rfl⟩,
      _, ⟨_, .inl hrate, n, rfl, hx⟩, _, hpayload, _, ⟨_, hpause, rfl⟩, rfl⟩

/-- Fields that are read from the same values give the same request, whatever else stands there. -/
theorem ofMembers_congr {members' : Members}
    (h : ∀ field : Field, lookup members' field = lookup members field) :
    ofMembers members' = ofMembers members := by
  unfold ofMembers required optionalText
  simp only [h]

theorem ofJson_eq_ok_iff {value : Json} {r : Request} :
    ofJson value = .ok r ↔ ∃ members, value = .object members ∧ Spells members r := by
  cases value <;> simp [ofJson, ofMembers_eq_ok_iff]

theorem ofJson_eq_error_iff {value : Json} {e : Error} : ofJson value = .error e ↔
    (∀ members, value ≠ .object members) ∧ e = .notAnObject value.kind ∨
    ∃ members, value = .object members ∧ FirstFault (Field.order.map (Offends members)) e := by
  cases value with
  | object members =>
    rw [show ofJson (.object members) = ofMembers members from rfl, ofMembers_reports e]
    simp
  | _ => simp [ofJson, eq_comm]

/-- The keys that a request is read from. -/
def keys : List String := Field.order.map Field.name ++ Field.order.map Field.otherName

theorem ofMembers_congr_of_keys {members' : Members}
    (h : ∀ key ∈ keys, members'.lookup key = members.lookup key) :
    ofMembers members' = ofMembers members := by
  apply ofMembers_congr
  intro field
  have hname : field.name ∈ keys := by cases field <;> decide
  have hother : field.otherName ∈ keys := by cases field <;> decide
  unfold lookup
  rw [h _ hname, h _ hother]

/-- A lone attestation may be spelled either way. -/
theorem ofMembers_congr_of_renamed {members' : Members}
    (h : ∀ field : Field, field ≠ .pauseAttested →
      members'.lookup field.name = members.lookup field.name)
    (hlone : members.lookup "pause_before_propagate" = none)
    (hgone : members'.lookup "pauseBeforePropagate" = none)
    (hmoved : members'.lookup "pause_before_propagate" = members.lookup "pauseBeforePropagate") :
    ofMembers members' = ofMembers members := by
  apply ofMembers_congr
  intro field
  by_cases hfield : field = .pauseAttested
  · subst hfield
    show (members'.lookup "pauseBeforePropagate").or (members'.lookup "pause_before_propagate") =
      (members.lookup "pauseBeforePropagate").or (members.lookup "pause_before_propagate")
    rw [hgone, hmoved, hlone, Option.none_or, Option.or_none]
  · rw [lookup_of_ne hfield, lookup_of_ne hfield]
    exact h field hfield

/-- Decoding gives the request that the members of an object spell, and for every other value an
error: the kind of what is no object, or the first field that offends.  Numerals count as integers
by their spelling, other keys are not looked at, and a lone attestation may be spelled either
way. -/
theorem ofJson_reports_first_offence (value : Json) :
    (∀ r, ofJson value = .ok r ↔ ∃ members, value = .object members ∧ Spells members r) ∧
    (∀ e, ofJson value = .error e ↔
      (∀ members, value ≠ .object members) ∧ e = .notAnObject value.kind ∨
      ∃ members, value = .object members ∧ FirstFault (Field.order.map (Offends members)) e) ∧
    (∀ (numeral : Json.Numeral) (n : Json.Number), numeral.toNumber? = some n →
      ∀ i : Int64, n.toInt64? = some i ↔ ∃ negative magnitude,
        numeral = .integer negative magnitude ∧ (negative = true → 0 < magnitude) ∧
        i.toInt = if negative = true then -(magnitude : Int) else magnitude) ∧
    (∀ members members' : Members, value = .object members →
      (∀ key ∈ keys, members'.lookup key = members.lookup key) →
      ofJson (.object members') = ofJson value) ∧
    (∀ members members' : Members, value = .object members →
      (∀ field : Field, field ≠ .pauseAttested →
        members'.lookup field.name = members.lookup field.name) →
      members.lookup "pause_before_propagate" = none →
      members'.lookup "pauseBeforePropagate" = none →
      members'.lookup "pause_before_propagate" = members.lookup "pauseBeforePropagate" →
      ofJson (.object members') = ofJson value) := by
  refine ⟨fun r => ofJson_eq_ok_iff, fun e => ofJson_eq_error_iff,
    fun numeral n h i => Json.Numeral.toInt64?_iff h, ?_, ?_⟩
  · rintro members members' rfl h
    exact ofMembers_congr_of_keys h
  · rintro members members' rfl h hlone hgone hmoved
    exact ofMembers_congr_of_renamed h hlone hgone hmoved

end Request

end AdmissionGate
