import Mathlib
import AdmissionGate.Binary64.Basic

/-!
# Proofs/Binary64/Order — comparison as the order of values

Doubles other than NaN have a value on the integers, in units of `2 ^ (-1074)`, with an infinity at
either end.  The IEEE 754 comparison is the order of these values, and whatever involves NaN is
false.
-/

namespace AdmissionGate.Binary64

/-- The value of a double in units of `2 ^ (-1074)`, between the two infinities; NaN has none. -/
def extended? : Binary64 → Option (WithBot (WithTop Int))
  | .nan => none
  | .infinite true => some ⊥
  | .infinite false => some ((⊤ : WithTop Int) : WithBot (WithTop Int))
  | .finite x => some (((x.toUnits : Int) : WithTop Int) : WithBot (WithTop Int))

theorem le_iff_ble {x y : Binary64} : x ≤ y ↔ x.ble y = true := Iff.rfl

/-- `x ≤ y` says that both sides have a value and that the values compare so. -/
theorem le_iff_extended {x y : Binary64} :
    x ≤ y ↔ ∃ a b, x.extended? = some a ∧ y.extended? = some b ∧ a ≤ b := by
  rw [le_iff_ble]
  -- An infinity compares by its sign alone, so each pair of kinds is settled by the definitions.
  cases x with
  | nan => simp [ble, extended?]
  | infinite negative =>
    cases y with
    | nan => cases negative <;> simp [ble, extended?]
    | infinite negative' => cases negative <;> cases negative' <;> simp [ble, extended?]
    | finite y => cases negative <;> simp [ble, extended?]
  | finite x =>
    cases y with
    | nan => simp [ble, extended?]
    | infinite negative => cases negative <;> simp [ble, extended?]
    | finite y => simp [ble, extended?]

/-- The comparison is transitive, since NaN stands on neither side of one that holds. -/
protected theorem le_trans {x y z : Binary64} (hxy : x ≤ y) (hyz : y ≤ z) : x ≤ z := by
  obtain ⟨a, b, ha, hb, hab⟩ := le_iff_extended.mp hxy
  obtain ⟨b', c, hb', hc, hbc⟩ := le_iff_extended.mp hyz
  obtain rfl : b = b' := Option.some.inj (hb.symm.trans hb')
  exact le_iff_extended.mpr ⟨a, c, ha, hc, hab.trans hbc⟩

end AdmissionGate.Binary64
