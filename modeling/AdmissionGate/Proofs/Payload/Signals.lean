import AdmissionGate.Proofs.Consistency
import AdmissionGate.Proofs.Payload.Grammar

/-!
# Proofs/Payload/Signals — the tests that a payload meets together

A word of the base64 grammar has no percent sign and no colon, so it meets neither of the other two
tests.  That leaves five lists of heuristics, and on these the first heuristic, the code and the
short forms of the test say the same.
-/

namespace AdmissionGate

namespace Heuristic

/-- The code that the table of heuristics pairs with a name. -/
def codeOfName? (name : String) : Option Code := (all.map fun h => (h.name, h.code)).lookup name

theorem codeOfName?_name (h : Heuristic) : codeOfName? h.name = some h.code := by
  cases h <;> rfl

end Heuristic

namespace Payload

variable {payload : String} {c : Char}

/-! ## 1. Base64 words meet no other test -/

theorem letter_of_base64Word (h : Base64Word payload) (hc : c ∈ payload.toList) :
    Base64Letter c ∨ c = '=' := by
  obtain ⟨letters, padding, rfl, _, hletters, hpadding⟩ := h
  rw [String.toList_append] at hc
  refine (List.mem_append.mp hc).imp (hletters c) fun hc => ?_
  simp only [List.mem_cons, List.not_mem_nil, or_false] at hpadding
  rcases hpadding with rfl | rfl | rfl
  · cases hc
  · exact List.mem_singleton.mp hc
  · exact (List.mem_cons.mp hc).elim id List.mem_singleton.mp

theorem excludes_of_looksBase64 (h : looksBase64 payload = true) :
    hasUrlEscape payload = false ∧ isDataUri payload = false := by
  have hword := looksBase64_iff.mp h
  constructor
  · refine Bool.eq_false_iff.mpr fun hescape => ?_
    have hpercent := percent_mem_of_escaped (hasUrlEscape_iff.mp hescape)
    exact absurd (letter_of_base64Word hword hpercent) (by decide)
  · refine Bool.eq_false_iff.mpr fun huri => ?_
    have hcolon := colon_mem_of_dataUri (isDataUri_iff.mp huri)
    exact absurd (letter_of_base64Word hword hcolon) (by decide)

/-! ## 2. The lists of heuristics -/

/-- The lists of heuristics whose tests some payload meets. -/
def firedLists : List (List Heuristic) :=
  [[], [.base64Like], [.urlEncoded], [.dataUri], [.urlEncoded, .dataUri]]

theorem fired_mem_firedLists : (detect payload).fired ∈ firedLists := by
  unfold detect
  cases hbase64 : looksBase64 payload with
  | true =>
    obtain ⟨hescape, huri⟩ := excludes_of_looksBase64 hbase64
    rw [hescape, huri]
    decide
  | false => cases hasUrlEscape payload <;> cases isDataUri payload <;> decide

theorem exists_fired_eq {fired : List Heuristic} (h : fired ∈ firedLists) :
    ∃ payload, (detect payload).fired = fired := by
  simp only [firedLists, List.mem_cons, List.not_mem_nil, or_false] at h
  rcases h with rfl | rfl | rfl | rfl | rfl
  · exact ⟨"", by decide⟩
  · exact ⟨"word", by decide⟩
  · exact ⟨"%41", by decide⟩
  · exact ⟨"data:", by decide⟩
  · exact ⟨"data:%41", by decide⟩

theorem Signals.any_iff_fired (s : Signals) : s.any = true ↔ s.fired ≠ [] := by
  obtain ⟨base64Like, urlEncoded, dataUri⟩ := s
  cases base64Like <;> cases urlEncoded <;> cases dataUri <;> decide

theorem Signals.primaryCode_eq_codeOfName? (s : Signals) :
    s.primaryCode = (s.fired.map Heuristic.name).head?.bind Heuristic.codeOfName? := by
  rw [s.primaryCode_eq_head, List.head?_map]
  cases s.fired.head? with
  | none => rfl
  | some h => exact h.codeOfName?_name.symm

theorem Signals.any_iff_primaryCode (s : Signals) : s.any = true ↔ s.primaryCode.isSome = true := by
  rw [s.any_iff_fired, s.primaryCode_eq_head, Option.isSome_map, List.isSome_head?]

/-- The code of base64 payloads stands for its test alone. -/
theorem primaryCode_eq_base64Payload_iff :
    (detect payload).primaryCode = some .base64Payload ↔
      (detect payload).fired = [.base64Like] := by
  have hlists : ∀ fired ∈ firedLists,
      (fired.head?.map Heuristic.code = some .base64Payload ↔ fired = [.base64Like]) := by
    decide
  rw [Signals.primaryCode_eq_head]
  exact hlists _ fired_mem_firedLists

end Payload

/-! ## 3. Reports -/

section

variable {r : Request} {p : Policy} {payload : String}

theorem code_reportEncoded (h : r.inspectablePayload = some payload) {code : Code}
    (hcode : (Payload.detect payload).primaryCode = some code) :
    (Predicate.reportEncoded r).code = code.name := by
  unfold Predicate.reportEncoded
  rw [h, Option.getD_some]
  dsimp only
  rw [hcode]
  rfl

theorem base64Payload_reported_iff :
    (∃ f ∈ (evaluate r p).findings, f.code = Code.base64Payload.name) ↔
      p.enforceEncodedPayload = true ∧
        ∃ payload, r.payload = some payload ∧ (Payload.detect payload).fired = [.base64Like] := by
  constructor
  · rintro ⟨f, hf, hcode⟩
    obtain ⟨q, rfl, hq⟩ := exists_of_mem_findings hf
    -- The code tells the predicate, which reports the code of the payload that it refuses.
    obtain ⟨_, hreporting⟩ := Predicate.listed_of_mem_codes (q.code_mem_codes r p)
    rw [hcode] at hreporting
    obtain rfl : Predicate.notEncodedPayload = q := Option.some.inj hreporting
    obtain ⟨henforces, payload, hpayload, _, first, _, _, _, _, hfirst, hprimary, _⟩ :=
      Predicate.evidence_finding hq
    have hbase64 : first.code = .base64Payload := by
      rw [hfirst] at hcode
      revert hcode
      cases first <;> decide
    rw [hbase64] at hprimary
    exact ⟨henforces, payload, hpayload, Payload.primaryCode_eq_base64Payload_iff.mp hprimary⟩
  · rintro ⟨henforces, payload, hpayload, hfired⟩
    have hencoded : Payload.isEncoded payload = true := by
      refine (Payload.detect payload).any_iff_fired.mpr ?_
      rw [hfired]
      exact List.cons_ne_nil _ _
    -- A payload that meets a test is not blank, so it is one that the report looks at.
    have hinspect : r.inspectablePayload = some payload :=
      Predicate.inspectablePayload_eq_some_iff.mpr
        ⟨hpayload, Payload.not_blank_of_isEncoded hencoded⟩
    have hfails : ¬ Predicate.notEncodedPayload.Condition r p := by
      rw [← Predicate.holds_iff, Bool.not_eq_true,
        Predicate.holds_notEncodedPayload_eq_false_iff henforces]
      exact ⟨payload, hpayload, Payload.isEncoded_iff.mp hencoded⟩
    refine ⟨_, List.mem_map.mpr ⟨_, mem_failed_iff.mpr hfails, rfl⟩, ?_⟩
    exact code_reportEncoded hinspect (Payload.primaryCode_eq_base64Payload_iff.mpr hfired)

end

/-- A payload that meets the base64 test meets no other, so five lists of heuristics occur and no
others do.  The signals, their list, the test and the code agree on whether a payload looks encoded;
the code is that of the first heuristic listed, and it is the one for base64 just when that test
alone is met, in reports too. -/
theorem base64_test_excludes_others :
    (∀ payload : String,
      (Payload.looksBase64 payload = true →
        Payload.hasUrlEscape payload = false ∧ Payload.isDataUri payload = false) ∧
      ((Payload.detect payload).any = true ↔ Payload.isEncoded payload = true) ∧
      ((Payload.detect payload).any = true ↔ (Payload.detect payload).fired ≠ []) ∧
      ((Payload.detect payload).any = true ↔ (Payload.detect payload).primaryCode.isSome = true) ∧
      (Payload.detect payload).primaryCode =
        ((Payload.detect payload).fired.map Heuristic.name).head?.bind Heuristic.codeOfName? ∧
      ((Payload.detect payload).primaryCode = some .base64Payload ↔
        (Payload.detect payload).fired = [.base64Like])) ∧
    (∀ fired : List Heuristic, (∃ payload, (Payload.detect payload).fired = fired) ↔
      fired = [] ∨ fired = [.base64Like] ∨ fired = [.urlEncoded] ∨ fired = [.dataUri] ∨
        fired = [.urlEncoded, .dataUri]) ∧
    ∀ (r : Request) (p : Policy),
      (∃ f ∈ (evaluate r p).findings, f.code = Code.base64Payload.name) ↔
        p.enforceEncodedPayload = true ∧
          ∃ payload, r.payload = some payload ∧
            (Payload.detect payload).fired = [.base64Like] := by
  refine ⟨fun payload => ⟨Payload.excludes_of_looksBase64, Iff.rfl, Payload.Signals.any_iff_fired _,
    Payload.Signals.any_iff_primaryCode _, Payload.Signals.primaryCode_eq_codeOfName? _,
    Payload.primaryCode_eq_base64Payload_iff⟩, fun fired => ?_,
    fun r p => base64Payload_reported_iff⟩
  have hlists : fired ∈ Payload.firedLists ↔ fired = [] ∨ fired = [.base64Like] ∨
      fired = [.urlEncoded] ∨ fired = [.dataUri] ∨ fired = [.urlEncoded, .dataUri] := by
    simp only [Payload.firedLists, List.mem_cons, List.not_mem_nil, or_false]
  rw [← hlists]
  constructor
  · rintro ⟨payload, rfl⟩
    exact Payload.fired_mem_firedLists
  · exact Payload.exists_fired_eq

/-- Padding is part of a base64 word and no sign of another encoding. -/
theorem padded_word_meets_base64_test_only :
    Payload.looksBase64 "aGVsbG8=" = true ∧
      Payload.hasUrlEscape "aGVsbG8=" = false ∧ Payload.isDataUri "aGVsbG8=" = false := by
  have hbase64 : Payload.looksBase64 "aGVsbG8=" = true := by decide
  exact ⟨hbase64, (base64_test_excludes_others.1 "aGVsbG8=").1 hbase64⟩

end AdmissionGate
