import AdmissionGate.Binary64.Rounding
import AdmissionGate.Proofs.Text.Digits

/-!
# Proofs/Binary64/Rounding — what rounding keeps

Rounding gives a count of units that a double can hold, leaves a count alone that is one already,
and depends on the quotient only, not on how it is written.  So integers of 64 bits round to finite
doubles, and a decimal denotes the same double after zeros are moved into its exponent.
-/

namespace AdmissionGate.Binary64

/-! ## Counts of units that doubles hold -/

theorem unitsPerOne_eq : unitsPerOne = 2 ^ 1074 := by
  unfold unitsPerOne
  generalize 1074 = n
  rfl

theorem unitsPerOne_pos : 0 < unitsPerOne := by
  rw [unitsPerOne_eq]
  exact pow_pos two_pos _

theorem log2_mul_pow {q : Nat} (hq : q ≠ 0) (k : Nat) : (q * 2 ^ k).log2 = q.log2 + k := by
  have hpow : 0 < 2 ^ k := Nat.two_pow_pos k
  rw [Nat.log2_eq_iff (Nat.mul_ne_zero hq hpow.ne'), pow_add, Nat.add_right_comm, pow_add _ _ k]
  exact ⟨Nat.mul_le_mul_right _ (Nat.log2_self_le hq),
    Nat.mul_lt_mul_of_pos_right Nat.lt_log2_self hpow⟩

/-- A significand of 53 bits, or the next power of two, in steps that are not too large. -/
theorem representable_mul_pow {q k : Nat} (hq : q ≤ 2 ^ 53) (hk : k + 53 ≤ 2097) :
    Representable (q * 2 ^ k) := by
  rcases Nat.eq_zero_or_pos q with rfl | hpos
  · rw [Nat.zero_mul]
    exact representable_zero
  unfold Representable
  rw [log2_mul_pow hpos.ne', Nat.pow_eq]
  rcases Nat.lt_or_eq_of_le hq with hlt | rfl
  · have hlog : q.log2 < 53 := (Nat.log2_lt hpos.ne').mpr hlt
    have hdvd : 2 ^ (q.log2 + k - 52) ∣ 2 ^ k := pow_dvd_pow 2 (by omega)
    exact ⟨by omega, hdvd.mul_left q⟩
  · rw [Nat.log2_two_pow, ← pow_add]
    exact ⟨by omega, pow_dvd_pow 2 (by omega)⟩

/-! ## Rounding a quotient -/

section

variable {num den : Nat}

/-- A quotient of at most 2097 bits rounds to a count that a double holds. -/
theorem representable_nearestUnits (h : (num / den).log2 < 2097) :
    Representable (nearestUnits num den) := by
  unfold nearestUnits
  simp only [Nat.pow_eq]
  generalize hk : (num / den).log2 - 52 = k
  -- The step is chosen so that 53 bits are left above it.
  have hquotient : num / (den * 2 ^ k) < 2 ^ 53 := by
    rw [← Nat.div_div_eq_div_mul, Nat.div_lt_iff_lt_mul (Nat.two_pow_pos k), ← pow_add]
    have hself : num / den < 2 ^ ((num / den).log2 + 1) := Nat.lt_log2_self
    have hmono : 2 ^ ((num / den).log2 + 1) ≤ 2 ^ (53 + k) :=
      Nat.pow_le_pow_right (by omega) (by omega)
    omega
  split
  · exact representable_mul_pow (by omega) (by omega)
  · exact representable_mul_pow (by omega) (by omega)

/-- Only the quotient counts: a common factor of both sides does not. -/
theorem nearestUnits_mul_left {c : Nat} (hc : 0 < c) :
    nearestUnits (c * num) (c * den) = nearestUnits num den := by
  unfold nearestUnits
  dsimp only
  rw [Nat.mul_div_mul_left num den hc]
  generalize Nat.pow 2 ((num / den).log2 - 52) = step
  have hlt : 2 * (c * (num % (den * step))) < c * (den * step) ↔
      2 * (num % (den * step)) < den * step := by
    rw [Nat.mul_left_comm, Nat.mul_lt_mul_left hc]
  have heq : 2 * (c * (num % (den * step))) = c * (den * step) ↔
      2 * (num % (den * step)) = den * step := by
    rw [Nat.mul_left_comm, Nat.mul_right_inj hc.ne']
  rw [Nat.mul_assoc c den step, Nat.mul_mod_mul_left, Nat.mul_div_mul_left _ _ hc]
  simp only [hlt, heq]

/-- A count of units that a double holds is its own nearest one. -/
theorem nearestUnits_exact {units : Nat} (hden : 0 < den) (h : Representable units) :
    nearestUnits (units * den) den = units := by
  unfold nearestUnits
  rw [Nat.mul_div_cancel _ hden]
  obtain ⟨q, hq⟩ := h.2
  generalize hstep : Nat.pow 2 (units.log2 - 52) = step at hq
  have hpos : 0 < step := hstep ▸ Nat.two_pow_pos _
  have hproduct : units * den = q * (den * step) := by
    rw [hq, Nat.mul_comm step q, Nat.mul_assoc, Nat.mul_comm step den]
  simp only [hproduct, Nat.mul_mod_left, Nat.mul_div_cancel _ (Nat.mul_pos hden hpos)]
  rw [if_pos (.inl (Nat.mul_pos hden hpos)), hq, Nat.mul_comm]

end

/-! ## Integers -/

theorem ofUnits_of_representable {units : Nat} (negative : Bool) (h : Representable units) :
    ofUnits negative units = .finite ⟨negative, units, h⟩ := dif_pos h

/-- An integer that fits 64 bits is within the range of finite doubles. -/
theorem ofInt_eq_finite {i : Int} (h : -9223372036854775808 ≤ i ∧ i < 18446744073709551616) :
    ∃ h, ofInt i = .finite ⟨i < 0, nearestUnits (i.natAbs * unitsPerOne) 1, h⟩ := by
  have hrepresentable : Representable (nearestUnits (i.natAbs * unitsPerOne) 1) := by
    apply representable_nearestUnits
    rw [Nat.div_one]
    rcases Nat.eq_zero_or_pos i.natAbs with hzero | hpos
    · rw [hzero, Nat.zero_mul]
      decide
    · have hlog : i.natAbs.log2 < 65 := (Nat.log2_lt hpos.ne').mpr (by omega)
      rw [unitsPerOne_eq, log2_mul_pow hpos.ne']
      omega
  exact ⟨hrepresentable, ofUnits_of_representable _ hrepresentable⟩

/-! ## Decimals -/

section

variable {negative : Bool} {significand : Nat} {exponent : Int}

theorem ofUnitRatio_eq_finite_of_sign {num den units : Nat} {h : Representable units}
    (negative' : Bool) (heq : ofUnitRatio negative num den = .finite ⟨negative, units, h⟩) :
    ofUnitRatio negative' num den = .finite ⟨negative', units, h⟩ := by
  unfold ofUnitRatio ofUnits at heq ⊢
  by_cases hrange : Representable (nearestUnits num den)
  · rw [dif_pos hrange] at heq ⊢
    cases heq
    rfl
  · rw [dif_neg hrange] at heq
    cases heq

/-- The sign of a decimal is that of its double, which is otherwise the same. -/
theorem ofDecimal_eq_finite_of_sign {units : Nat} {h : Representable units} (negative' : Bool)
    (heq : ofDecimal negative significand exponent = .finite ⟨negative, units, h⟩) :
    ofDecimal negative' significand exponent = .finite ⟨negative', units, h⟩ := by
  unfold ofDecimal at heq ⊢
  dsimp only at heq ⊢
  split_ifs at heq ⊢ with hsmall hlarge
  · cases heq
    rfl
  · cases exponent with
    | ofNat e => exact ofUnitRatio_eq_finite_of_sign negative' heq
    | negSucc e => exact ofUnitRatio_eq_finite_of_sign negative' heq

/-- A zero at the end of the significand may be moved into the exponent. -/
theorem ofDecimal_mul_ten (hpos : 0 < significand) :
    ofDecimal negative (significand * 10) exponent =
      ofDecimal negative significand (exponent + 1) := by
  -- Both sides have as many digits before the point, and denote one ratio.
  have hsize : ((Text.decimalChars (significand * 10)).length : Int) + exponent =
      (Text.decimalChars significand).length + (exponent + 1) := by
    rw [Text.length_decimalChars_mul_ten hpos]
    push_cast
    ring
  have hzero : significand * 10 = 0 ↔ significand = 0 := by omega
  unfold ofDecimal ofUnitRatio
  generalize unitsPerOne = one
  dsimp only
  simp only [hsize, hzero]
  congr 2
  cases exponent with
  | ofNat e =>
    rw [show (Int.ofNat e + 1 : Int) = Int.ofNat (e + 1) from rfl]
    dsimp only
    rw [Nat.pow_eq, Nat.pow_eq, Nat.mul_assoc significand 10, ← pow_succ']
  | negSucc e =>
    cases e with
    | zero =>
      rw [show (Int.negSucc 0 + 1 : Int) = Int.ofNat 0 from rfl]
      dsimp only
      have hnum : significand * 10 * one = 10 * (significand * one) := by ring
      have hfactor : nearestUnits (10 * (significand * one)) (10 * 1) =
          nearestUnits (significand * one) 1 := nearestUnits_mul_left (by decide)
      rw [Nat.mul_one] at hfactor
      rw [hnum, Nat.pow_eq, Nat.pow_eq, pow_zero, Nat.mul_one, pow_one, hfactor]
    | succ e =>
      rw [show (Int.negSucc (e + 1) + 1 : Int) = Int.negSucc e from rfl]
      dsimp only
      have hnum : significand * 10 * one = 10 * (significand * one) := by ring
      rw [hnum, Nat.pow_eq, Nat.pow_eq, pow_succ' 10 (e + 1), nearestUnits_mul_left (by decide)]

theorem ofDecimal_mul_pow (hpos : 0 < significand) (k : Nat) :
    ofDecimal negative (significand * 10 ^ k) exponent =
      ofDecimal negative significand (exponent + k) := by
  induction k generalizing exponent with
  | zero => rw [pow_zero, Nat.mul_one, Int.natCast_zero, Int.add_zero]
  | succ k ih =>
    rw [pow_succ, ← Nat.mul_assoc, ofDecimal_mul_ten (Nat.mul_pos hpos (by positivity)), ih]
    congr 1
    omega

end

end AdmissionGate.Binary64
