import AdmissionGate.Proofs.Evidence
import AdmissionGate.Proofs.Json.Token

/-!
# Proofs/Payload/Grammar — the payloads that each test takes

The tests on payloads are scans: a run is measured, a list is searched, a beginning is compared.
Each takes the words of a grammar, with nothing before or after a word unless the grammar says so.
No word of the grammars is blank, so the predicate on payloads refuses the same payloads whether or
not blank ones are set aside first.
-/

namespace AdmissionGate

namespace Payload

/-! ## 1. Grammars -/

def Base64Letter (c : Char) : Prop :=
  ('A' ≤ c ∧ c ≤ 'Z') ∨ ('a' ≤ c ∧ c ≤ 'z') ∨ ('0' ≤ c ∧ c ≤ '9') ∨ c = '+' ∨ c = '/'

def HexDigit (c : Char) : Prop :=
  ('0' ≤ c ∧ c ≤ '9') ∨ ('a' ≤ c ∧ c ≤ 'f') ∨ ('A' ≤ c ∧ c ≤ 'F')

/-- Four letters or more, then at most two equals signs. -/
def Base64Word (payload : String) : Prop :=
  ∃ letters padding : String, payload = letters ++ padding ∧ 4 ≤ letters.length ∧
    (∀ c ∈ letters.toList, Base64Letter c) ∧ padding ∈ ["", "=", "=="]

/-- A percent sign and two digits of base sixteen, with anything around them. -/
def Escaped (payload : String) : Prop :=
  ∃ (before after : String) (c d : Char), HexDigit c ∧ HexDigit d ∧
    payload = before ++ "%" ++ String.singleton c ++ String.singleton d ++ after

def DataUri (payload : String) : Prop := ∃ rest : String, payload = "data:" ++ rest

section

variable {payload : String} {c : Char} {cs : List Char}

/-! ## 2. Characters -/

theorem isBase64Char_iff : isBase64Char c = true ↔ Base64Letter c := by
  simp [isBase64Char, Base64Letter, Char.isAlphanum, Char.isAlpha, Char.isUpper, Char.isLower,
    Char.isDigit, Char.le_def, or_assoc]

theorem isHexDigit_iff : Text.isHexDigit c = true ↔ HexDigit c := by
  unfold Text.isHexDigit Text.hexValue? HexDigit
  split_ifs with hdecimal hlower hupper
  · exact iff_of_true rfl (.inl hdecimal)
  · exact iff_of_true rfl (.inr (.inl hlower))
  · exact iff_of_true rfl (.inr (.inr hupper))
  · exact iff_of_false Bool.false_ne_true (not_or.mpr ⟨hdecimal, not_or.mpr ⟨hlower, hupper⟩⟩)

instance : DecidablePred Base64Letter := fun _ => decidable_of_iff _ isBase64Char_iff

instance : DecidablePred HexDigit := fun _ => decidable_of_iff _ isHexDigit_iff

/-- The letters are printable characters of ASCII, of which none is blank. -/
theorem not_isBlank_of_base64Letter (h : Base64Letter c) : Text.isBlank c = false := by
  have hrange : 0x20 < c.toNat ∧ c.toNat < 0x85 := by
    simp only [Base64Letter, Char.le_def, UInt32.le_iff_toNat_le] at h
    change (65 ≤ c.toNat ∧ c.toNat ≤ 90) ∨ (97 ≤ c.toNat ∧ c.toNat ≤ 122) ∨
      (48 ≤ c.toNat ∧ c.toNat ≤ 57) ∨ c = '+' ∨ c = '/' at h
    rcases h with h | h | h | rfl | rfl
    · omega
    · omega
    · omega
    · decide
    · decide
  refine Bool.eq_false_iff.mpr fun hblank => ?_
  have := Json.Scanner.toNat_of_isBlank hblank
  omega

/-! ## 3. What the tests take -/

theorem span_base64 {letters padding : List Char} (hletters : ∀ c ∈ letters, isBase64Char c = true)
    (hpadding : ∀ c ∈ padding, c = '=') :
    (letters ++ padding).takeWhile isBase64Char = letters ∧
      (letters ++ padding).dropWhile isBase64Char = padding := by
  rw [List.takeWhile_append_of_pos hletters, List.dropWhile_append_of_pos hletters]
  -- The run of letters ends where the padding starts, since an equals sign is no letter.
  cases padding with
  | nil => exact ⟨List.append_nil _, rfl⟩
  | cons c rest =>
    have hc : isBase64Char c ≠ true := by
      rw [hpadding c List.mem_cons_self]
      decide
    rw [List.takeWhile_cons_of_neg hc, List.dropWhile_cons_of_neg hc]
    exact ⟨List.append_nil _, rfl⟩

theorem looksBase64_iff : looksBase64 payload = true ↔ Base64Word payload := by
  unfold looksBase64
  simp only [Bool.and_eq_true, Bool.or_eq_true, decide_eq_true_eq, beq_iff_eq]
  constructor
  -- The scan itself finds the letters and the padding.
  · rintro ⟨hlength, hrest⟩
    refine ⟨String.ofList (payload.toList.takeWhile isBase64Char),
      String.ofList (payload.toList.dropWhile isBase64Char), ?_, ?_, ?_, ?_⟩
    · rw [← String.ofList_append, List.takeWhile_append_dropWhile, String.ofList_toList]
    · rwa [← String.length_toList, String.toList_ofList]
    · rw [String.toList_ofList]
      exact fun c hc => isBase64Char_iff.mp (List.mem_takeWhile_imp hc)
    · rcases hrest with (hrest | hrest) | hrest <;> rw [hrest] <;> decide
  · rintro ⟨letters, padding, rfl, hlength, hletters, hpadding⟩
    have hrest : (padding.toList = [] ∨ padding.toList = ['=']) ∨ padding.toList = ['=', '='] := by
      simp only [List.mem_cons, List.not_mem_nil, or_false] at hpadding
      rcases hpadding with rfl | rfl | rfl
      · exact .inl (.inl rfl)
      · exact .inl (.inr rfl)
      · exact .inr rfl
    have hequals : ∀ c ∈ padding.toList, c = '=' := by
      rcases hrest with (hrest | hrest) | hrest <;> simp [hrest]
    obtain ⟨htake, hdrop⟩ := span_base64 (fun c hc => isBase64Char_iff.mpr (hletters c hc)) hequals
    rw [String.toList_append, htake, hdrop, String.length_toList]
    exact ⟨hlength, hrest⟩

theorem hasEscape_iff : hasEscape cs = true ↔
    ∃ c d, HexDigit c ∧ HexDigit d ∧ ['%', c, d] <:+: cs := by
  fun_induction hasEscape cs with
  | case1 c d rest ih =>
    rw [Bool.or_eq_true, Bool.and_eq_true, isHexDigit_iff, isHexDigit_iff, ih]
    -- Where this percent sign starts no escape, the next character may: only one is passed over.
    constructor
    · rintro (⟨hc, hd⟩ | ⟨c', d', hc', hd', hinfix⟩)
      · exact ⟨c, d, hc, hd, List.infix_cons_iff.mpr (.inl ⟨rest, rfl⟩)⟩
      · exact ⟨c', d', hc', hd', List.infix_cons_iff.mpr (.inr hinfix)⟩
    · rintro ⟨c', d', hc', hd', hinfix⟩
      rcases List.infix_cons_iff.mp hinfix with ⟨after, hafter⟩ | hinfix
      · cases hafter
        exact .inl ⟨hc', hd'⟩
      · exact .inr ⟨c', d', hc', hd', hinfix⟩
  | case2 first rest h ih =>
    rw [ih]
    refine exists₂_congr fun c d => and_congr_right fun _ => and_congr_right fun _ => ?_
    rw [List.infix_cons_iff, or_iff_right]
    rintro ⟨after, hafter⟩
    cases hafter
    exact h c d after rfl rfl
  | case3 =>
    refine iff_of_false Bool.false_ne_true ?_
    rintro ⟨c, d, _, _, hinfix⟩
    cases List.infix_nil.mp hinfix

theorem hasUrlEscape_iff : hasUrlEscape payload = true ↔ Escaped payload := by
  unfold hasUrlEscape
  rw [hasEscape_iff]
  constructor
  · rintro ⟨c, d, hc, hd, before, after, hcs⟩
    refine ⟨String.ofList before, String.ofList after, c, d, hc, hd, ?_⟩
    apply String.toList_injective
    simp [String.toList_append, ← hcs]
  · rintro ⟨before, after, c, d, hc, hd, rfl⟩
    refine ⟨c, d, hc, hd, before.toList, after.toList, ?_⟩
    simp [String.toList_append]

theorem isDataUri_iff : isDataUri payload = true ↔ DataUri payload := by
  unfold isDataUri DataUri
  rw [List.isPrefixOf_iff_prefix]
  constructor
  · rintro ⟨rest, hrest⟩
    refine ⟨String.ofList rest, String.toList_injective ?_⟩
    rw [String.toList_append, String.toList_ofList (l := rest)]
    exact hrest.symm
  · rintro ⟨rest, rfl⟩
    exact ⟨rest.toList, String.toList_append.symm⟩

/-! ## 4. Blank payloads -/

theorem not_blank_of_mem (hmem : c ∈ payload.toList) (hc : Text.isBlank c = false) :
    ¬ Text.Blank payload := by
  intro hblank
  rw [hblank c hmem] at hc
  cases hc

theorem not_blank_of_base64Word (h : Base64Word payload) : ¬ Text.Blank payload := by
  obtain ⟨letters, padding, rfl, hlength, hletters, _⟩ := h
  rw [← String.length_toList] at hlength
  obtain ⟨c, hc⟩ := List.exists_mem_of_length_pos (Nat.lt_of_lt_of_le (by decide) hlength)
  refine not_blank_of_mem ?_ (not_isBlank_of_base64Letter (hletters c hc))
  rw [String.toList_append]
  exact List.mem_append_left _ hc

theorem percent_mem_of_escaped (h : Escaped payload) : '%' ∈ payload.toList := by
  obtain ⟨before, after, c, d, _, _, rfl⟩ := h
  simp [String.toList_append]

theorem colon_mem_of_dataUri (h : DataUri payload) : ':' ∈ payload.toList := by
  obtain ⟨rest, rfl⟩ := h
  simp [String.toList_append]

theorem isEncoded_iff :
    isEncoded payload = true ↔ Base64Word payload ∨ Escaped payload ∨ DataUri payload := by
  unfold isEncoded
  rw [Bool.or_eq_true, Bool.or_eq_true, looksBase64_iff, hasUrlEscape_iff, isDataUri_iff, or_assoc]

theorem not_blank_of_isEncoded (h : isEncoded payload = true) : ¬ Text.Blank payload := by
  rcases isEncoded_iff.mp h with h | h | h
  · exact not_blank_of_base64Word h
  · exact not_blank_of_mem (percent_mem_of_escaped h) (by decide)
  · exact not_blank_of_mem (colon_mem_of_dataUri h) (by decide)

end

end Payload

/-! ## 5. The predicate on payloads -/

section

variable {r : Request} {p : Policy}

/-- Setting blank payloads aside before the tests are run changes no outcome. -/
theorem Predicate.holds_notEncodedPayload_eq : Predicate.notEncodedPayload.holds r p =
    (!p.enforceEncodedPayload || r.payload.all fun payload => !Payload.isEncoded payload) := by
  rw [Bool.eq_iff_iff, holds_iff, Bool.or_eq_true, Bool.not_eq_true', Option.all_eq_true]
  refine or_congr_right (forall₂_congr fun payload _ => ?_)
  rw [Bool.not_eq_true', or_iff_right_of_imp]
  intro hblank
  exact Bool.eq_false_iff.mpr fun hencoded => Payload.not_blank_of_isEncoded hencoded hblank

theorem Predicate.holds_notEncodedPayload_eq_false_iff (h : p.enforceEncodedPayload = true) :
    Predicate.notEncodedPayload.holds r p = false ↔ ∃ payload, r.payload = some payload ∧
      (Payload.Base64Word payload ∨ Payload.Escaped payload ∨ Payload.DataUri payload) := by
  simp only [holds_notEncodedPayload_eq, h, Bool.not_true, Bool.false_or, Option.all_eq_false,
    Bool.not_eq_false', Payload.isEncoded_iff]

end

/-- Each test takes the payloads of its grammar and no others, and none of them takes a blank one.
Where payloads are checked, the predicate fails just on a payload of one of the grammars, exactly as
if blank payloads were tested too. -/
theorem payload_tests_take_grammars :
    (∀ payload : String,
      (Payload.looksBase64 payload = true ↔ Payload.Base64Word payload) ∧
      (Payload.hasUrlEscape payload = true ↔ Payload.Escaped payload) ∧
      (Payload.isDataUri payload = true ↔ Payload.DataUri payload)) ∧
    (∀ payload : String, Text.Blank payload → Payload.looksBase64 payload = false ∧
      Payload.hasUrlEscape payload = false ∧ Payload.isDataUri payload = false) ∧
    ∀ (r : Request) (p : Policy),
      (p.enforceEncodedPayload = true →
        (Predicate.notEncodedPayload.holds r p = false ↔ ∃ payload, r.payload = some payload ∧
          (Payload.Base64Word payload ∨ Payload.Escaped payload ∨ Payload.DataUri payload))) ∧
      Predicate.notEncodedPayload.holds r p =
        (!p.enforceEncodedPayload || r.payload.all fun payload => !Payload.isEncoded payload) := by
  refine ⟨fun payload => ⟨Payload.looksBase64_iff, Payload.hasUrlEscape_iff, Payload.isDataUri_iff⟩,
    fun payload hblank => ?_, fun r p =>
      ⟨Predicate.holds_notEncodedPayload_eq_false_iff, Predicate.holds_notEncodedPayload_eq⟩⟩
  have hplain : Payload.isEncoded payload = false :=
    Bool.eq_false_iff.mpr fun hencoded => Payload.not_blank_of_isEncoded hencoded hblank
  unfold Payload.isEncoded at hplain
  rw [Bool.or_eq_false_iff, Bool.or_eq_false_iff, and_assoc] at hplain
  exact hplain

/-- An escape that starts right after a percent sign is found; an ideographic space is blank. -/
theorem overlapping_escape_is_refused :
    Text.Blank "\u3000\n" ∧ refusingPolicy.enforceEncodedPayload = true ∧
      Payload.hasUrlEscape "\u3000\n" = false ∧
      Predicate.notEncodedPayload.holds { payload := some "%4%41" } refusingPolicy = false := by
  obtain ⟨_, hblank, hholds⟩ := payload_tests_take_grammars
  have hspace : Text.Blank "\u3000\n" := Text.allBlank_iff.mp (by decide)
  have henforces : refusingPolicy.enforceEncodedPayload = true := rfl
  have hescaped : Payload.Escaped "%4%41" :=
    ⟨"%4", "", '4', '1', by decide, by decide, by decide⟩
  exact ⟨hspace, henforces, (hblank _ hspace).2.1,
    ((hholds _ _).1 henforces).mpr ⟨_, rfl, .inr (.inl hescaped)⟩⟩

end AdmissionGate
