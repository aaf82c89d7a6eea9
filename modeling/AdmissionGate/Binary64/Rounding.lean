import AdmissionGate.Binary64.Basic
import AdmissionGate.Text.Digits

/-!
# Binary64/Rounding — from ratios, integers and decimals to doubles

`nearestUnits num den` rounds the quotient `num / den` to 53 significant bits, the nearer neighbour
winning and a tie going to the even one.  A rounded count of units beyond the finite range becomes
an infinity.  Decimals are rounded once, from their exact value.
-/

namespace AdmissionGate.Binary64

def unitsPerOne : Nat := Nat.pow 2 1074

/-- The quotient `num / den` rounded to at most 53 significant bits, ties to even. -/
def nearestUnits (num den : Nat) : Nat :=
  -- The last of the 53 bits that are kept; small quotients keep all of theirs.
  let step := Nat.pow 2 ((num / den).log2 - 52)
  let quotient := num / (den * step)
  let remainder := num % (den * step)
  if 2 * remainder < den * step ∨ (2 * remainder = den * step ∧ quotient % 2 = 0) then
    quotient * step
  else (quotient + 1) * step

/-- The double of a sign and a count of units, infinite when no finite double holds the count. -/
def ofUnits (negative : Bool) (units : Nat) : Binary64 :=
  if h : Representable units then .finite ⟨negative, units, h⟩ else .infinite negative

/-- The double nearest to `num / den` units. -/
def ofUnitRatio (negative : Bool) (num den : Nat) : Binary64 :=
  ofUnits negative (nearestUnits num den)

def ofInt (i : Int) : Binary64 :=
  ofUnitRatio (i < 0) (i.natAbs * unitsPerOne) 1

/-- The double nearest to `significand * 10 ^ exponent`.  A decimal of 310 integer digits or more
is above every finite double, and one that starts after the 330th place is nearer to zero than to
any other double, so neither is multiplied out. -/
def ofDecimal (negative : Bool) (significand : Nat) (exponent : Int) : Binary64 :=
  let size : Int := (Text.decimalChars significand).length
  -- `size + exponent` counts the digits before the point.
  if significand = 0 ∨ size + exponent < -330 then .finite ⟨negative, 0, representable_zero⟩
  else if 310 < size + exponent then .infinite negative
  else match exponent with
    | .ofNat e => ofUnitRatio negative (significand * Nat.pow 10 e * unitsPerOne) 1
    | .negSucc e => ofUnitRatio negative (significand * unitsPerOne) (Nat.pow 10 (e + 1))

end AdmissionGate.Binary64
