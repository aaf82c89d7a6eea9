import AdmissionGate.Proofs.Binary64.Rounding

/-!
# Proofs/Binary64/Monotone — rounding keeps the order

Counts that are rounded in the same steps keep their order, and between two counts with different
steps lies a power of two that neither is rounded across.  So integers compare as their doubles do,
except that a larger one may round to the same double, which happens from `2 ^ 53` on only.
-/

namespace AdmissionGate.Binary64

/-! ## Rounding in steps -/

section

variable {a b num den unit : Nat}

/-- The quotient rounded to an integer, ties to even. -/
def halfEven (num unit : Nat) : Nat :=
  if 2 * (num % unit) < unit ∨ (2 * (num % unit) = unit ∧ num / unit % 2 = 0) then num / unit
  else num / unit + 1

theorem halfEven_bounds : num / unit ≤ halfEven num unit ∧ halfEven num unit ≤ num / unit + 1 := by
  unfold halfEven
  split
  · exact ⟨Nat.le_refl _, Nat.le_succ _⟩
  · exact ⟨Nat.le_succ _, Nat.le_refl _⟩

theorem halfEven_mono (h : a ≤ b) : halfEven a unit ≤ halfEven b unit := by
  rcases Nat.lt_or_eq_of_le (Nat.div_le_div_right (c := unit) h) with hlt | heq
  · exact halfEven_bounds.2.trans (Nat.le_trans hlt halfEven_bounds.1)
  · -- With the same quotient the larger number has the larger remainder.
    have hmod : a % unit ≤ b % unit := by
      have ha := Nat.div_add_mod a unit
      have hb := Nat.div_add_mod b unit
      rw [heq] at ha
      omega
    unfold halfEven
    rw [heq]
    split_ifs <;> omega

theorem nearestUnits_eq_halfEven : nearestUnits num den =
    halfEven num (den * 2 ^ ((num / den).log2 - 52)) * 2 ^ ((num / den).log2 - 52) := by
  unfold nearestUnits halfEven
  simp only [Nat.pow_eq]
  rw [ite_mul]

theorem pow_le_nearestUnits (h : num / den ≠ 0) :
    2 ^ (num / den).log2 ≤ nearestUnits num den := by
  rw [nearestUnits_eq_halfEven]
  have hself := Nat.log2_self_le h
  generalize (num / den).log2 = size at hself
  have hsplit : 2 ^ size = 2 ^ (size - (size - 52)) * 2 ^ (size - 52) := by
    rw [← pow_add, Nat.sub_add_cancel (Nat.sub_le _ _)]
  have hquotient : 2 ^ (size - (size - 52)) ≤ num / (den * 2 ^ (size - 52)) := by
    rw [← Nat.div_div_eq_div_mul, Nat.le_div_iff_mul_le (Nat.two_pow_pos _), ← hsplit]
    exact hself
  rw [hsplit]
  exact Nat.mul_le_mul_right _ (hquotient.trans halfEven_bounds.1)

theorem nearestUnits_le_pow : nearestUnits num den ≤ 2 ^ ((num / den).log2 + 1) := by
  rw [nearestUnits_eq_halfEven]
  have hself : num / den < 2 ^ ((num / den).log2 + 1) := Nat.lt_log2_self
  generalize (num / den).log2 = size at hself
  have hsplit : 2 ^ (size + 1) = 2 ^ (size + 1 - (size - 52)) * 2 ^ (size - 52) := by
    rw [← pow_add, Nat.sub_add_cancel (by omega)]
  have hquotient : num / (den * 2 ^ (size - 52)) < 2 ^ (size + 1 - (size - 52)) := by
    rw [← Nat.div_div_eq_div_mul, Nat.div_lt_iff_lt_mul (Nat.two_pow_pos _), ← hsplit]
    exact hself
  rw [hsplit]
  exact Nat.mul_le_mul_right _ (halfEven_bounds.2.trans hquotient)

theorem nearestUnits_mono (h : a ≤ b) : nearestUnits a den ≤ nearestUnits b den := by
  have hsizes : (a / den).log2 ≤ (b / den).log2 := by
    rw [Nat.log2_eq_log_two, Nat.log2_eq_log_two]
    exact Nat.log_mono_right (Nat.div_le_div_right h)
  rcases Nat.lt_or_eq_of_le hsizes with hlt | heq
  · -- The power of two that the larger quotient starts from is not rounded across by either.
    have hpos : b / den ≠ 0 := by
      intro hzero
      rw [hzero] at hlt
      exact absurd hlt (Nat.not_lt_zero _)
    calc nearestUnits a den ≤ 2 ^ ((a / den).log2 + 1) := nearestUnits_le_pow
      _ ≤ 2 ^ (b / den).log2 := Nat.pow_le_pow_right (by decide) hlt
      _ ≤ nearestUnits b den := pow_le_nearestUnits hpos
  · rw [nearestUnits_eq_halfEven, nearestUnits_eq_halfEven, heq]
    exact Nat.mul_le_mul_right _ (halfEven_mono h)

end

/-! ## Integers as doubles -/

section

variable {i j : Int}

/-- The units of the double of an integer, with its sign. -/
def roundedUnits (i : Int) : Int :=
  if i < 0 then -(nearestUnits (i.natAbs * unitsPerOne) 1 : Int)
  else nearestUnits (i.natAbs * unitsPerOne) 1

theorem ofInt_eq_finite_roundedUnits
    (h : -9223372036854775808 ≤ i ∧ i < 18446744073709551616) :
    ∃ x : Finite, ofInt i = .finite x ∧ x.negative = decide (i < 0) ∧
      x.toUnits = roundedUnits i := by
  obtain ⟨hunits, hfinite⟩ := ofInt_eq_finite h
  refine ⟨_, hfinite, rfl, ?_⟩
  unfold Finite.toUnits roundedUnits
  simp only [decide_eq_true_eq]

theorem roundedUnits_mono (h : i ≤ j) : roundedUnits i ≤ roundedUnits j := by
  have hmono {a b : Nat} (hab : a ≤ b) :
      (nearestUnits (a * unitsPerOne) 1 : Int) ≤ nearestUnits (b * unitsPerOne) 1 :=
    Int.ofNat_le.mpr (nearestUnits_mono (Nat.mul_le_mul_right _ hab))
  unfold roundedUnits
  by_cases hi : i < 0
  · rw [if_pos hi]
    by_cases hj : j < 0
    · rw [if_pos hj]
      exact Int.neg_le_neg (hmono (by omega))
    · rw [if_neg hj]
      omega
  · rw [if_neg hi, if_neg (by omega)]
    exact hmono (by omega)

/-- Integers of 53 bits are held exactly. -/
theorem roundedUnits_exact (h : 0 ≤ i ∧ i ≤ 9007199254740992) :
    roundedUnits i = i * unitsPerOne := by
  have hrepresentable : Representable (i.natAbs * unitsPerOne) := by
    rw [unitsPerOne_eq]
    exact representable_mul_pow (by omega) (by decide)
  have hexact := nearestUnits_exact Nat.one_pos hrepresentable
  rw [Nat.mul_one] at hexact
  unfold roundedUnits
  rw [if_neg (by omega), hexact, Int.natCast_mul, Int.natAbs_of_nonneg h.1]

theorem Finite.eq_of_toUnits {x y : Finite} (hsign : x.negative = y.negative)
    (hunits : x.toUnits = y.toUnits) : x = y := by
  obtain ⟨negative, units, _⟩ := x
  obtain ⟨negative', units', _⟩ := y
  obtain rfl : negative = negative' := hsign
  have hsame : units = units' := by
    unfold toUnits at hunits
    dsimp only at hunits
    split_ifs at hunits <;> omega
  subst hsame
  rfl

variable (hi : -9223372036854775808 ≤ i ∧ i < 18446744073709551616)
include hi

/-- The double of an integer is at most that of another when the integer is, or when both integers
round to the same double. -/
theorem ofInt_le_ofInt_iff (hj : 0 ≤ j ∧ j < 18446744073709551616) :
    ofInt i ≤ ofInt j ↔ i ≤ j ∨ ofInt i = ofInt j := by
  obtain ⟨x, hx, hnegative, hunits⟩ := ofInt_eq_finite_roundedUnits hi
  obtain ⟨y, hy, hnegative', hunits'⟩ := ofInt_eq_finite_roundedUnits ⟨by omega, hj.2⟩
  rw [hx, hy, finite_le_finite, hunits, hunits', Binary64.finite.injEq]
  -- Rounding never reverses the order, so the two are the same where it is not kept.
  constructor
  · intro hle
    rcases le_or_gt i j with hij | hji
    · exact .inl hij
    · have hsign : x.negative = y.negative := by
        rw [hnegative, hnegative', decide_eq_decide]
        omega
      have hge : roundedUnits j ≤ roundedUnits i := roundedUnits_mono (Int.le_of_lt hji)
      exact .inr (Finite.eq_of_toUnits hsign (by omega))
  · rintro (hij | rfl)
    · exact roundedUnits_mono hij
    · omega

/-- Below `2 ^ 53` no larger integer rounds to the same double. -/
theorem ofInt_ne_of_lt (hj : 0 ≤ j ∧ j < 9007199254740992) (hlt : j < i) : ofInt i ≠ ofInt j := by
  intro heq
  obtain ⟨x, hx, _, hunits⟩ := ofInt_eq_finite_roundedUnits hi
  obtain ⟨y, hy, _, hunits'⟩ := ofInt_eq_finite_roundedUnits (i := j) ⟨by omega, by omega⟩
  rw [hx, hy, Binary64.finite.injEq] at heq
  subst heq
  -- The integer in between is held exactly, and so is the lower one.
  have hnext : roundedUnits (j + 1) ≤ roundedUnits j := by
    rw [← hunits', hunits]
    exact roundedUnits_mono (by omega)
  rw [roundedUnits_exact ⟨by omega, by omega⟩, roundedUnits_exact ⟨hj.1, by omega⟩] at hnext
  have hpos : (0 : Int) < unitsPerOne := Int.natCast_pos.mpr unitsPerOne_pos
  have hle := Int.le_of_mul_le_mul_right hnext hpos
  omega

end

end AdmissionGate.Binary64
