import AdmissionGate.Binary64.Shortest

/-!
# Binary64/Layout — how a finite double is written

The digits are the shortest that read back; a layout decides where they are written positionally,
how an exponent looks, whether a whole number keeps `.0`, and which way a tie between two shortest
decimals goes.
-/

namespace AdmissionGate.Binary64

/-- The choices of a text form for finite doubles. -/
structure Layout where
  /-- Magnitudes `e`, with `10 ^ (e - 1) ≤ value < 10 ^ e`, that are written without exponent. -/
  positional : Int → Bool
  /-- Whole numbers written positionally end in `.0`. -/
  keepsPoint : Bool
  /-- What stands between the `e` and the digits of an exponent that is not negative. -/
  exponentSign : String
  /-- Which of two equally short and equally near decimals is written. -/
  tie : Tie

/-- Digits with a point after the first `before` of them, zeros filled in where digits lack. -/
def placePoint (keepsPoint : Bool) (digits : List Char) (before : Int) : List Char :=
  if before ≤ 0 then
    '0' :: '.' :: (List.replicate (-before).toNat '0' ++ digits)
  else if digits.length ≤ before.toNat then
    digits ++ List.replicate (before.toNat - digits.length) '0' ++
      (if keepsPoint then ['.', '0'] else [])
  else digits.take before.toNat ++ '.' :: digits.drop before.toNat

/-- Digits with a point after the first one, and a power of ten. -/
def withExponent (sign : String) (digits : List Char) (exponent : Int) : List Char :=
  let mantissa := match digits with
    | d :: e :: rest => d :: '.' :: e :: rest
    | short => short
  mantissa ++ 'e' :: ((if 0 ≤ exponent then sign else "").toList ++
    (Text.signedDecimal exponent).toList)

/-- The characters of a finite double in a layout. -/
def Finite.chars (layout : Layout) (x : Finite) : List Char :=
  let sign := if x.negative then ['-'] else []
  -- Zero has no shortest decimal; it keeps its sign.
  if x.units = 0 then sign ++ placePoint layout.keepsPoint ['0'] 1
  else
    let decimal := shortestDecimal layout.tie x.units
    let digits := Text.decimalChars decimal.significand
    let before := digits.length + decimal.exponent
    sign ++ (if layout.positional before then placePoint layout.keepsPoint digits before
      else withExponent layout.exponentSign digits (before - 1))

def Finite.write (layout : Layout) (x : Finite) : String :=
  String.ofList (x.chars layout)

/-- Messages write numbers positionally whatever their size, whole numbers without a point, and of
two equally near decimals the larger. -/
def plainLayout : Layout := ⟨fun _ => true, false, "", .away⟩

/-- The plain text of a double: `30`, `0.1`, `-0`, `NaN`, `inf`, `-inf`. -/
def plain : Binary64 → String
  | .nan => "NaN"
  | .infinite false => "inf"
  | .infinite true => "-inf"
  | .finite x => x.write plainLayout

end AdmissionGate.Binary64
