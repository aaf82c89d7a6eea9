import Mathlib
import AdmissionGate.Text.Digits

/-!
# Proofs/Text/Digits — numerals under zeros and powers of ten

How long a numeral is, what zeros before and after it do to its value, that a numeral does not start
with a zero unless it is that of zero, numerals of a fixed width and with a sign, and what numerals
of base sixteen stand for.
-/

namespace AdmissionGate.Text

/-! ## Values of runs of digits -/

theorem ofDecimalChars_append (a b : List Char) :
    ofDecimalChars (a ++ b) = 10 ^ b.length * ofDecimalChars a + ofDecimalChars b := by
  unfold ofDecimalChars
  rw [Nat.ofDigitChars_append, Nat.ofDigitChars_eq_ofDigitChars_zero]

theorem ofDecimalChars_zeros (k : Nat) : ofDecimalChars (List.replicate k '0') = 0 := by
  unfold ofDecimalChars
  rw [Nat.ofDigitChars_replicate_zero, Nat.mul_zero]

theorem ofDecimalChars_zeros_append (k : Nat) (a : List Char) :
    ofDecimalChars (List.replicate k '0' ++ a) = ofDecimalChars a := by
  rw [ofDecimalChars_append, ofDecimalChars_zeros, Nat.mul_zero, Nat.zero_add]

theorem ofDecimalChars_append_zeros (a : List Char) (k : Nat) :
    ofDecimalChars (a ++ List.replicate k '0') = ofDecimalChars a * 10 ^ k := by
  rw [ofDecimalChars_append, ofDecimalChars_zeros, Nat.add_zero, List.length_replicate,
    Nat.mul_comm]

/-! ## Numerals -/

theorem decimalChars_ne_nil (n : Nat) : decimalChars n ≠ [] := Nat.toDigits_ne_nil

theorem length_decimalChars_pos (n : Nat) : 0 < (decimalChars n).length := Nat.length_toDigits_pos

theorem length_decimalChars_le_iff {n k : Nat} (hk : 0 < k) :
    (decimalChars n).length ≤ k ↔ n < 10 ^ k :=
  Nat.length_toDigits_le_iff (by decide) hk

/-- The numeral of a positive number starts with no zero. -/
theorem decimalChars_eq_cons {n : Nat} (hn : 0 < n) :
    ∃ c cs, decimalChars n = c :: cs ∧ c.isDigit = true ∧ c ≠ '0' := by
  induction n using Nat.strong_induction_on with
  | h n ih =>
    unfold decimalChars at ih ⊢
    rw [Nat.toDigits_eq_if (by decide)]
    by_cases hlt : n < 10
    · rw [if_pos hlt]
      refine ⟨n.digitChar, [], rfl, Nat.isDigit_digitChar.trans (decide_eq_true hlt), ?_⟩
      interval_cases n <;> decide
    · -- The leading digits are the numeral of the tenth part.
      obtain ⟨c, cs, hcs, hc⟩ := ih (n / 10) (by omega) (by omega)
      rw [if_neg hlt, hcs]
      exact ⟨c, cs ++ [(n % 10).digitChar], rfl, hc⟩

theorem decimalChars_mul_ten {n : Nat} (hn : 0 < n) :
    decimalChars (n * 10) = decimalChars n ++ ['0'] := by
  have h := Nat.toDigits_append_toDigits (b := 10) (n := n) (d := 0) (by decide) hn (by decide)
  rw [Nat.toDigits_zero, Nat.add_zero, Nat.mul_comm] at h
  exact h.symm

theorem length_decimalChars_mul_ten {n : Nat} (hn : 0 < n) :
    (decimalChars (n * 10)).length = (decimalChars n).length + 1 := by
  rw [decimalChars_mul_ten hn, List.length_append]
  rfl

/-! ## Numerals of a fixed width -/

section Padded

variable {width n : Nat}

theorem length_paddedDecimal (hwidth : 0 < width) (h : n < 10 ^ width) :
    (paddedDecimal width n).toList.length = width := by
  have hlength := (length_decimalChars_le_iff hwidth).mpr h
  unfold paddedDecimal
  rw [String.toList_ofList, List.length_append, List.length_replicate]
  omega

theorem ofDecimalChars_paddedDecimal : ofDecimalChars (paddedDecimal width n).toList = n := by
  unfold paddedDecimal
  rw [String.toList_ofList, ofDecimalChars_zeros_append, ofDecimalChars_decimalChars]

theorem isDigit_of_mem_paddedDecimal {c : Char} (h : c ∈ (paddedDecimal width n).toList) :
    c.isDigit = true := by
  unfold paddedDecimal at h
  rw [String.toList_ofList] at h
  rcases List.mem_append.mp h with h | h
  · rw [(List.mem_replicate.mp h).2]
    rfl
  · exact isDigit_of_mem_decimalChars h

end Padded

/-! ## Numerals with a sign -/

theorem signedDecimal_injective {i j : Int} (h : signedDecimal i = signedDecimal j) : i = j := by
  have hsign (n : Nat) : '-' ∉ (decimal n).toList := by
    rw [toList_decimal]
    intro hmem
    exact absurd (isDigit_of_mem_decimalChars hmem) (by decide)
  have hdecimal {m n : Nat} (h : (decimal m).toList = (decimal n).toList) : m = n := by
    rw [toList_decimal, toList_decimal] at h
    exact decimalChars_injective h
  have hnegative (n : Nat) : (signedDecimal (.negSucc n)).toList = '-' :: (decimal (n + 1)).toList :=
    String.toList_append
  have hlist := congrArg String.toList h
  cases i with
  | ofNat m =>
    cases j with
    | ofNat n => rw [hdecimal hlist]
    | negSucc n =>
      -- Only one of the numerals has a sign.
      rw [hnegative] at hlist
      exact absurd (hlist ▸ List.mem_cons_self) (hsign m)
  | negSucc m =>
    rw [hnegative] at hlist
    cases j with
    | ofNat n => exact absurd (hlist ▸ List.mem_cons_self) (hsign n)
    | negSucc n =>
      rw [hnegative] at hlist
      have hsucc := hdecimal (List.tail_eq_of_cons_eq hlist)
      omega

/-! ## Digits of base sixteen -/

theorem hexValue?_digitChar {n : Nat} (h : n < 16) : hexValue? (Nat.digitChar n) = some n := by
  interval_cases n <;> rfl

theorem isHexDigit_digitChar {n : Nat} (h : n < 16) : isHexDigit (Nat.digitChar n) = true := by
  unfold isHexDigit
  rw [hexValue?_digitChar h]
  rfl

theorem ofHexChars?_append {a b : List Char} {n : Nat} (h : ofHexChars? a = some n) :
    ofHexChars? (a ++ b) = b.foldlM (fun n c => (hexValue? c).map (16 * n + ·)) n := by
  unfold ofHexChars? at h ⊢
  rw [List.foldlM_append, h]
  rfl

theorem ofHexChars?_zeros (k : Nat) : ofHexChars? (List.replicate k '0') = some 0 := by
  induction k with
  | zero => rfl
  | succ k ih => exact ih

theorem ofHexChars?_toDigits (n : Nat) : ofHexChars? (Nat.toDigits 16 n) = some n := by
  induction n using Nat.strong_induction_on with
  | h n ih =>
    rw [Nat.toDigits_eq_if (by decide)]
    by_cases hlt : n < 16
    · rw [if_pos hlt]
      unfold ofHexChars?
      rw [List.foldlM_cons, hexValue?_digitChar hlt, Option.map_some, Nat.mul_zero, Nat.zero_add]
      rfl
    · -- All digits but the last are the numeral of the sixteenth part.
      have hlast : n % 16 < 16 := Nat.mod_lt n (by decide)
      rw [if_neg hlt, ofHexChars?_append (ih (n / 16) (by omega)), List.foldlM_cons,
        hexValue?_digitChar hlast, Option.map_some, Nat.div_add_mod]
      rfl

theorem ofHexChars?_paddedHex (width n : Nat) :
    ofHexChars? (paddedHex width n).toList = some n := by
  unfold paddedHex
  rw [String.toList_ofList, ofHexChars?_append (ofHexChars?_zeros _)]
  exact ofHexChars?_toDigits n

theorem length_paddedHex {width n : Nat} (hwidth : 0 < width) (h : n < 16 ^ width) :
    (paddedHex width n).toList.length = width := by
  have hlength := (Nat.length_toDigits_le_iff (b := 16) (by decide) hwidth).mpr h
  unfold paddedHex
  rw [String.toList_ofList, List.length_append, List.length_replicate]
  omega

end AdmissionGate.Text
