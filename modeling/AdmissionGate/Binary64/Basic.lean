/-!
# Binary64/Basic — double-precision numbers

Every finite double is a whole multiple of `2 ^ (-1074)`, so a finite double is kept as a sign and
the number of such units.  A count of units is representable when it has at most 53 significant
bits and lies below `2 ^ 2098`.  The two zeros differ in sign only.  Comparison follows IEEE 754:
nothing is less than or equal to NaN, nor NaN to anything.
-/

namespace AdmissionGate

namespace Binary64

/-- Counts of `2 ^ (-1074)` units that a double can hold exactly. -/
def Representable (units : Nat) : Prop :=
  units.log2 ≤ 2097 ∧ Nat.pow 2 (units.log2 - 52) ∣ units

instance (units : Nat) : Decidable (Representable units) :=
  inferInstanceAs (Decidable (_ ∧ _))

/-- A finite double: a sign and a magnitude in units of `2 ^ (-1074)`. -/
structure Finite where
  negative : Bool
  units : Nat
  representable : Representable units
deriving DecidableEq

/-- The value of a finite double as a signed count of units; both zeros count zero. -/
def Finite.toUnits (x : Finite) : Int :=
  if x.negative then -(x.units : Int) else x.units

end Binary64

/-- A double: not a number, an infinity, or a finite value.  All NaNs are one. -/
inductive Binary64 where
  | nan
  | infinite (negative : Bool)
  | finite (value : Binary64.Finite)
deriving DecidableEq

namespace Binary64

/-- The IEEE 754 comparison `x ≤ y`; false as soon as one side is NaN. -/
def ble : Binary64 → Binary64 → Bool
  | .nan, _ => false
  | _, .nan => false
  | .infinite true, _ => true
  | _, .infinite false => true
  | .infinite false, _ => false
  | _, .infinite true => false
  | .finite x, .finite y => decide (x.toUnits ≤ y.toUnits)

instance : LE Binary64 := ⟨fun x y => x.ble y = true⟩

instance (x y : Binary64) : Decidable (x ≤ y) :=
  inferInstanceAs (Decidable (x.ble y = true))

def isFinite : Binary64 → Bool
  | .finite _ => true
  | _ => false

/-- The IEEE 754 comparison `x < 0`: true below zero only, so of neither zero and not of NaN. -/
def isBelowZero : Binary64 → Bool
  | .nan => false
  | .infinite negative => negative
  | .finite x => decide (x.toUnits < 0)

theorem representable_zero : Representable 0 := by decide

def zero : Binary64 := .finite ⟨false, 0, representable_zero⟩

instance : Inhabited Binary64 := ⟨zero⟩

/-- Finite doubles compare by their values, so the two zeros are below one another. -/
theorem finite_le_finite {x y : Finite} : finite x ≤ finite y ↔ x.toUnits ≤ y.toUnits := by
  simp [LE.le, ble]

end Binary64

end AdmissionGate
