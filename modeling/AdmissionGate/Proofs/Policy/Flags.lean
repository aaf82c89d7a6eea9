import AdmissionGate.Policy.Flags
import AdmissionGate.Proofs.FirstFault

/-!
# Proofs/Policy/Flags — which texts are feature flags

A text of flags is refused for the first of five kinds of faults, and one without faults sets the
flag to the boolean that stands under either spelling.
-/

namespace AdmissionGate.FeatureFlags

open Policy (FlagSpelling FlagsFault)

variable (text : String)

/-! ## The faults of a text -/

def NotJson (e : FlagsFault) : Prop := Json.ofText? text = none ∧ e = .notJson

def NotAnObject (e : FlagsFault) : Prop :=
  ∃ value, Json.ofText? text = some value ∧ (∀ members, value ≠ .object members) ∧ e = .notAnObject

def NotBoolean (spelling : FlagSpelling) (e : FlagsFault) : Prop :=
  ∃ members value, Json.ofText? text = some (.object members) ∧
    members.lookup spelling.key = some value ∧ (∀ b, value ≠ .boolean b) ∧ e = .notBoolean spelling

def Disagreement (e : FlagsFault) : Prop :=
  ∃ members snake camel, Json.ofText? text = some (.object members) ∧
    members.lookup FlagSpelling.snakeCase.key = some (.boolean snake) ∧
    members.lookup FlagSpelling.camelCase.key = some (.boolean camel) ∧ snake ≠ camel ∧
    e = .disagreement

/-- The kinds of faults that a text of flags can have, in the order of reporting. -/
def faults : List (FlagsFault → Prop) :=
  [NotJson text, NotAnObject text, NotBoolean text .snakeCase, NotBoolean text .camelCase,
    Disagreement text]

/-- What a faultless text sets the flag to: a boolean that stands under either spelling. -/
def Sets (flags : FeatureFlags) : Prop :=
  ∃ members, Json.ofText? text = some (.object members) ∧
    ∀ b, flags.enforceEncodedPayload = some b ↔
      ∃ spelling : FlagSpelling, members.lookup spelling.key = some (.boolean b)

/-- A text that is refused: it is no JSON object, one of the spellings stands there with something
else than a boolean, or the two spellings disagree. -/
def Malformed : Prop :=
  (∀ members, Json.ofText? text ≠ some (.object members)) ∨
    ∃ members, Json.ofText? text = some (.object members) ∧
      ((∃ (spelling : FlagSpelling) (value : Json),
          members.lookup spelling.key = some value ∧ ∀ b, value ≠ .boolean b) ∨
        ∃ snake camel, members.lookup FlagSpelling.snakeCase.key = some (.boolean snake) ∧
          members.lookup FlagSpelling.camelCase.key = some (.boolean camel) ∧ snake ≠ camel)

/-! ## Reading flags -/

variable {text} {members : List (String × Json)} {spelling : FlagSpelling}

theorem read_eq_error {e : FlagsFault} : read members spelling = .error e ↔
    ∃ value, members.lookup spelling.key = some value ∧ (∀ b, value ≠ .boolean b) ∧
      e = .notBoolean spelling := by
  unfold read
  cases members.lookup spelling.key with
  | none => simp
  | some value => cases value <;> simp [eq_comm]

theorem read_eq_ok {b? : Option Bool} (h : read members spelling = .ok b?) (b : Bool) :
    b? = some b ↔ members.lookup spelling.key = some (.boolean b) := by
  unfold read at h
  cases hlookup : members.lookup spelling.key with
  | none =>
    rw [hlookup] at h
    cases h
    simp
  | some value =>
    rw [hlookup] at h
    cases value with
    | boolean b' =>
      cases h
      simp
    | _ => cases h

theorem ofMembers_reports (htext : Json.ofText? text = some (.object members)) :
    Reports (ofMembers members)
      [NotBoolean text .snakeCase, NotBoolean text .camelCase, Disagreement text] := by
  have hread : ∀ spelling, Reports (read members spelling) [NotBoolean text spelling] := by
    intro spelling
    apply Reports.single
    intro e
    rw [read_eq_error]
    unfold NotBoolean
    simp [htext]
  unfold ofMembers
  refine (hread .snakeCase).bind fun snake hsnake => (hread .camelCase).bind fun camel hcamel =>
    Reports.single fun e => ?_
  -- Where both spellings were read, they stand there with the booleans that were read.
  simp only [Disagreement, htext, Option.some.injEq, Json.object.injEq, exists_and_left,
    exists_eq_left', ← read_eq_ok hsnake, ← read_eq_ok hcamel]
  cases snake with
  | none => simp
  | some a =>
    cases camel with
    | none => simp
    | some b =>
      by_cases hab : a = b
      · simp [hab]
      · simp [hab, eq_comm]

theorem ofText_reports : Reports (ofText text) (faults text) := by
  unfold ofText
  cases htext : Json.ofText? text with
  | none =>
    have hrest : NoFault [NotAnObject text, NotBoolean text .snakeCase, NotBoolean text .camelCase,
        Disagreement text] := by
      simp [NoFault, NotAnObject, NotBoolean, Disagreement, htext]
    have hfirst : Reports (.error .notJson : Except FlagsFault FeatureFlags) [NotJson text] :=
      Reports.single fun e => by simp [NotJson, htext, eq_comm]
    exact hfirst.append_of_none hrest
  | some value =>
    apply Reports.cons_of_none (by simp [NotJson, htext])
    cases value with
    | object members =>
      apply Reports.cons_of_none (by simp [NotAnObject, htext])
      exact ofMembers_reports htext
    | _ =>
      have hrest : NoFault [NotBoolean text .snakeCase, NotBoolean text .camelCase,
          Disagreement text] := by
        simp [NoFault, NotBoolean, Disagreement, htext]
      have hfirst : Reports (.error .notAnObject : Except FlagsFault FeatureFlags)
          [NotAnObject text] :=
        Reports.single fun e => by simp [NotAnObject, htext, eq_comm]
      exact hfirst.append_of_none hrest

theorem exists_spelling_iff {p : FlagSpelling → Prop} :
    (∃ spelling, p spelling) ↔ p .snakeCase ∨ p .camelCase := by
  constructor
  · rintro ⟨spelling, h⟩
    cases spelling with
    | snakeCase => exact .inl h
    | camelCase => exact .inr h
  · rintro (h | h)
    · exact ⟨_, h⟩
    · exact ⟨_, h⟩

theorem exists_notBoolean_iff (htext : Json.ofText? text = some (.object members)) :
    (∃ e, NotBoolean text spelling e) ↔
      ∃ value, members.lookup spelling.key = some value ∧ ∀ b, value ≠ .boolean b := by
  constructor
  · rintro ⟨_, members', value, htext', hlookup, hvalue, _⟩
    obtain rfl := Json.object.inj (Option.some.inj (htext.symm.trans htext'))
    exact ⟨value, hlookup, hvalue⟩
  · rintro ⟨value, hlookup, hvalue⟩
    exact ⟨_, members, value, htext, hlookup, hvalue, rfl⟩

theorem exists_disagreement_iff (htext : Json.ofText? text = some (.object members)) :
    (∃ e, Disagreement text e) ↔ ∃ snake camel,
      members.lookup FlagSpelling.snakeCase.key = some (.boolean snake) ∧
      members.lookup FlagSpelling.camelCase.key = some (.boolean camel) ∧ snake ≠ camel := by
  constructor
  · rintro ⟨_, members', snake, camel, htext', hsnake, hcamel, hne, _⟩
    obtain rfl := Json.object.inj (Option.some.inj (htext.symm.trans htext'))
    exact ⟨snake, camel, hsnake, hcamel, hne⟩
  · rintro ⟨snake, camel, hsnake, hcamel, hne⟩
    exact ⟨_, members, snake, camel, htext, hsnake, hcamel, hne, rfl⟩

theorem exists_error_iff_malformed : (∃ e, ofText text = .error e) ↔ Malformed text := by
  rw [ofText_reports.exists_error_iff]
  unfold faults Malformed
  simp only [exists_spelling_iff, List.mem_cons, exists_eq_or_imp]
  cases htext : Json.ofText? text with
  | none => simp [NotJson, htext]
  | some value =>
    cases value with
    | object members =>
      rw [exists_notBoolean_iff htext, exists_notBoolean_iff htext, exists_disagreement_iff htext]
      simp [NotJson, NotAnObject, htext, or_assoc]
    | _ => simp [NotAnObject, htext]

/-- A text that is accepted sets the flag to the boolean that stands there, if any. -/
theorem sets_of_ofText {flags : FeatureFlags} (h : ofText text = .ok flags) : Sets text flags := by
  unfold ofText at h
  cases htext : Json.ofText? text with
  | none =>
    rw [htext] at h
    cases h
  | some value =>
    rw [htext] at h
    cases value with
    | object members =>
      refine ⟨members, htext, fun b => ?_⟩
      have hmembers : ofMembers members = .ok flags := h
      unfold ofMembers at hmembers
      simp only [bind_eq_ok] at hmembers
      obtain ⟨snake, hsnake, camel, hcamel, hflags⟩ := hmembers
      rw [exists_spelling_iff, ← read_eq_ok hsnake, ← read_eq_ok hcamel]
      cases snake with
      | none =>
        cases hflags
        simp
      | some a =>
        cases camel with
        | none =>
          cases hflags
          simp
        | some a' =>
          -- Only spellings that agree are accepted.
          by_cases hagree : a = a'
          · subst hagree
            rw [show flags = ⟨some a⟩ by simpa [eq_comm] using hflags, or_self]
          · simp [hagree] at hflags
    | _ => cases h

theorem sets_unique {flags flags' : FeatureFlags} (h : Sets text flags) (h' : Sets text flags') :
    flags = flags' := by
  obtain ⟨members, htext, hflag⟩ := h
  obtain ⟨members', htext', hflag'⟩ := h'
  obtain rfl : members = members' := Json.object.inj (Option.some.inj (htext.symm.trans htext'))
  obtain ⟨flag⟩ := flags
  obtain ⟨flag'⟩ := flags'
  congr 1
  apply Option.ext
  intro b
  rw [hflag b, hflag' b]

theorem ofText_eq_ok_iff {flags : FeatureFlags} :
    ofText text = .ok flags ↔ NoFault (faults text) ∧ Sets text flags := by
  constructor
  · intro h
    exact ⟨ofText_reports.noFault h, sets_of_ofText h⟩
  · rintro ⟨hnone, hflags⟩
    obtain ⟨flags', h'⟩ := ofText_reports.exists_ok_iff.mpr hnone
    rw [h', sets_unique (sets_of_ofText h') hflags]

end AdmissionGate.FeatureFlags
