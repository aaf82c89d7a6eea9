import AdmissionGate.Binary64.Rounding

/-!
# Binary64/Shortest — the fewest digits that read back

The decimal of a positive finite double has as few digits as possible among the decimals that
`ofDecimal` reads back as that double, and among those it is the nearest to the value.  A tie
between two nearest ones is settled by the caller.  Seventeen digits always suffice; the exact
expansion, which needs no search, stands behind them.
-/

namespace AdmissionGate.Binary64

structure Decimal where
  significand : Nat
  exponent : Int
deriving DecidableEq

inductive Tie where
  | even
  | away
deriving DecidableEq

/-- The number `e` with `10 ^ (e - 1) ≤ value < 10 ^ e`, for a positive count of units. -/
def decimalMagnitude (units : Nat) : Int :=
  if unitsPerOne ≤ units then (Text.decimalChars (units / unitsPerOne)).length
  else 1 - ((Text.decimalChars (unitsPerOne / units)).length : Int)

/-- Holds when the decimal is read as exactly this count of units. -/
def Decimal.readsAs (d : Decimal) (units : Nat) : Bool :=
  ofDecimal false d.significand d.exponent == ofUnits false units

/-- The nearest decimal on the grid of multiples of `10 ^ exponent` that reads back, if either
neighbour of the value does. -/
def nearestOnGrid (tie : Tie) (units : Nat) (exponent : Int) : Option Decimal :=
  -- One of the two powers is one, so `num / den` is the value in steps of the grid.
  let num := units * Nat.pow 10 (-exponent).toNat
  let den := unitsPerOne * Nat.pow 10 exponent.toNat
  let below : Decimal := ⟨num / den, exponent⟩
  let above : Decimal := ⟨num / den + 1, exponent⟩
  let remainder := num % den
  let preferBelow := 2 * remainder < den ||
    (2 * remainder == den && tie == .even && num / den % 2 == 0)
  -- A neighbour that is not nearest may still be the only one that reads back.
  match below.readsAs units, above.readsAs units with
  | true, true => some (if preferBelow then below else above)
  | true, false => some below
  | false, true => some above
  | false, false => none

/-- Moves trailing zeros of the significand into the exponent, `fuel` of them at most. -/
def Decimal.stripZeros : Nat → Decimal → Decimal
  | 0, d => d
  | fuel + 1, d =>
    if d.significand ≠ 0 ∧ d.significand % 10 = 0 then
      stripZeros fuel ⟨d.significand / 10, d.exponent + 1⟩
    else d

def exactDecimal (units : Nat) : Decimal :=
  ⟨units * Nat.pow 5 1074, -1074⟩

/-- The shortest decimal that reads back as a positive count of units. -/
def shortestDecimal (tie : Tie) (units : Nat) : Decimal :=
  let magnitude := decimalMagnitude units
  -- The coarsest grid comes first: one digit, then two, and so on.
  let grids := (List.range 17).map fun (k : Nat) => magnitude - ((k : Int) + 1)
  let found := (grids.findSome? (nearestOnGrid tie units)).getD (exactDecimal units)
  -- The upper neighbour may be a power of ten, and the exact expansion ends in zeros.
  found.stripZeros (Text.decimalChars found.significand).length

end AdmissionGate.Binary64
