import AdmissionGate.Binary64.Shortest
import AdmissionGate.Proofs.Binary64.Rounding

/-!
# Proofs/Binary64/Shortest — shortest decimals read back

Whatever decimal is found for a positive finite double denotes that double: the search only accepts
such decimals, the exact expansion is one, and stripping zeros does not change what is denoted.
-/

namespace AdmissionGate.Binary64

variable {units : Nat} {d : Decimal} {tie : Tie}

theorem readsAs_iff (h : Representable units) :
    d.readsAs units = true ↔
      ofDecimal false d.significand d.exponent = .finite ⟨false, units, h⟩ := by
  unfold Decimal.readsAs
  rw [beq_iff_eq, ofUnits_of_representable false h]

theorem readsAs_of_nearestOnGrid {exponent : Int}
    (h : nearestOnGrid tie units exponent = some d) : d.readsAs units = true := by
  unfold nearestOnGrid at h
  dsimp only at h
  split at h
  case h_1 hbelow habove =>
    split at h
    · cases h
      exact hbelow
    · cases h
      exact habove
  case h_2 hbelow _ =>
    cases h
    exact hbelow
  case h_3 _ habove =>
    cases h
    exact habove
  case h_4 => cases h

/-- A decimal that is read as a positive double has a digit other than zero. -/
theorem significand_pos_of_readsAs (hpos : 0 < units) (h : Representable units)
    (hd : d.readsAs units = true) : 0 < d.significand := by
  rw [readsAs_iff h] at hd
  rcases Nat.eq_zero_or_pos d.significand with hzero | hsignificand
  · rw [hzero] at hd
    unfold ofDecimal at hd
    rw [if_pos (.inl rfl)] at hd
    cases hd
    exact absurd hpos (Nat.lt_irrefl 0)
  · exact hsignificand

/-- Five and two to the same power make a power of ten, so the expansion is exact. -/
theorem pow_five_mul_unitsPerOne : Nat.pow 5 1074 * unitsPerOne = Nat.pow 10 1074 := by
  rw [unitsPerOne_eq]
  generalize 1074 = n
  exact (Nat.mul_pow 5 2 n).symm

/-- The exact expansion has 744 to 1384 digits, 1074 of them after the point. -/
theorem length_exactDecimal (hpos : 0 < units) (h : Representable units) :
    743 < (Text.decimalChars (units * Nat.pow 5 1074)).length ∧
      (Text.decimalChars (units * Nat.pow 5 1074)).length ≤ 1384 := by
  rw [← Nat.not_le, Text.length_decimalChars_le_iff (by decide),
    Text.length_decimalChars_le_iff (by decide), Nat.not_lt]
  have hlow : 10 ^ 743 ≤ Nat.pow 5 1074 := by decide +kernel
  have hhigh : Nat.pow 2 2098 * Nat.pow 5 1074 < 10 ^ 1384 := by decide +kernel
  have hlog : units.log2 + 1 ≤ 2098 := Nat.succ_le_succ h.1
  generalize Nat.pow 5 1074 = five at hlow hhigh ⊢
  generalize 2098 = k at hhigh hlog
  have hunits : units < Nat.pow 2 k :=
    Nat.lt_log2_self.trans_le (Nat.pow_le_pow_right (by decide) hlog)
  constructor
  · exact hlow.trans (Nat.le_mul_of_pos_left five hpos)
  · exact (Nat.mul_le_mul_right five hunits.le).trans_lt hhigh

/-- A count of units written out with as many places as its powers of five is read exactly, unless
its digits are too many or start too late to be multiplied out. -/
theorem readsAs_expansion {places : Nat} (hpos : 0 < units) (h : Representable units)
    (hplaces : 0 < places) (hexact : Nat.pow 5 places * unitsPerOne = Nat.pow 10 places)
    (hlow : places ≤ (Text.decimalChars (units * Nat.pow 5 places)).length + 330)
    (hhigh : (Text.decimalChars (units * Nat.pow 5 places)).length ≤ places + 310) :
    Decimal.readsAs ⟨units * Nat.pow 5 places, -places⟩ units = true := by
  have hfive : 0 < Nat.pow 5 places := Nat.pow_pos (by decide)
  have hten : 0 < Nat.pow 10 places := Nat.pow_pos (by decide)
  have hsignificand := (Nat.mul_pos hpos hfive).ne'
  rw [readsAs_iff h]
  unfold ofDecimal
  dsimp only
  rw [if_neg (by omega), if_neg (by omega)]
  obtain ⟨e, rfl⟩ := Nat.exists_eq_succ_of_ne_zero hplaces.ne'
  show ofUnits false
    (nearestUnits (units * Nat.pow 5 (e + 1) * unitsPerOne) (Nat.pow 10 (e + 1))) = _
  rw [Nat.mul_assoc, hexact, nearestUnits_exact hten h, ofUnits_of_representable false h]

theorem readsAs_exactDecimal (hpos : 0 < units) (h : Representable units) :
    (exactDecimal units).readsAs units = true := by
  obtain ⟨hlow, hhigh⟩ := length_exactDecimal hpos h
  have hexact := pow_five_mul_unitsPerOne
  have hexponent : (-1074 : Int) = -(1074 : Nat) := rfl
  unfold exactDecimal
  rw [hexponent]
  -- The number of places is made a variable, so that no power of it is worked out.
  generalize hplaces : 1074 = places at hlow hhigh hexact ⊢
  exact readsAs_expansion hpos h (by omega) hexact (by omega) (by omega)

theorem readsAs_stripZeros (fuel : Nat) (h : Representable units)
    (hd : d.readsAs units = true) : (d.stripZeros fuel).readsAs units = true := by
  induction fuel generalizing d with
  | zero => exact hd
  | succ fuel ih =>
    rw [Decimal.stripZeros]
    split
    next hzero =>
      apply ih
      have hten : d.significand = d.significand / 10 * 10 := by omega
      rw [readsAs_iff h] at hd ⊢
      rw [hten, ofDecimal_mul_ten (by omega)] at hd
      exact hd
    next => exact hd

theorem readsAs_shortestDecimal (tie : Tie) (hpos : 0 < units) (h : Representable units) :
    (shortestDecimal tie units).readsAs units = true := by
  unfold shortestDecimal
  apply readsAs_stripZeros _ h
  generalize (List.range 17).map _ = grids
  cases hfound : grids.findSome? (nearestOnGrid tie units) with
  | none => exact readsAs_exactDecimal hpos h
  | some d =>
    obtain ⟨exponent, _, hgrid⟩ := List.exists_of_findSome?_eq_some hfound
    exact readsAs_of_nearestOnGrid hgrid

end AdmissionGate.Binary64
