import AdmissionGate.Binary64.Layout

/-!
# Json/Number — numerals and the numbers they denote

A numeral is the spelling of a number taken apart: sign, digits, and a power of ten when there is a
point or an exponent.  It denotes an integer when it is a plain integer between `-2 ^ 63` and
`2 ^ 64 - 1`, and otherwise the nearest double, which has to be finite.  The numeral `-0` denotes
the double minus zero.

That a decimal is taken for the nearest double is assumed of whatever reads the text.  A reader that
rounds the digits first and then scales them rounds twice: it agrees where digits and power of ten
are doubles themselves, up to `2 ^ 53` and `10 ^ 22`, and elsewhere it may give a neighbour, so that
`30.000000000000002` becomes `30.0`, or refuse a number near the largest.  Under such a reader, what
is said here of fractions holds where it gives the nearest double.
-/

namespace AdmissionGate.Json

/-- A number in a JSON value: an integer that fits 64 bits, signed or unsigned, or a finite
double. -/
inductive Number where
  | integer (value : Int)
    (inRange : -9223372036854775808 ≤ value ∧ value < 18446744073709551616)
  | fraction (value : Binary64.Finite)
deriving DecidableEq

namespace Number

def ofInt64 (i : Int64) : Number :=
  .integer i.toInt ⟨i.le_toInt, Int.lt_trans i.toInt_lt (by decide)⟩

def ofUInt32 (n : UInt32) : Number :=
  .integer n.toNat ⟨by omega, by have := n.toNat_lt; omega⟩

def ofUInt64 (n : UInt64) : Number :=
  .integer n.toNat ⟨by omega, by have := n.toNat_lt; omega⟩

/-- A signed 64-bit integer, when the number is one. -/
def toInt64? : Number → Option Int64
  | .integer i _ => if i ≤ Int64.maxValue.toInt then some (Int64.ofInt i) else none
  | .fraction _ => none

/-- The number as a double, rounded when an integer has more than 53 significant bits. -/
def toBinary64 : Number → Binary64
  | .integer i _ => Binary64.ofInt i
  | .fraction x => .finite x

/-- JSON numbers are positional for magnitudes from `10 ^ (-5)` to below `10 ^ 16`, whole doubles
keep their point, and a positive exponent has a plus sign. -/
def layout : Binary64.Layout := ⟨fun e => -5 < e && e ≤ 16, true, "+", .even⟩

def write : Number → String
  | .integer i _ => Text.signedDecimal i
  | .fraction x => x.write layout

end Number

/-- The spelling of a number, taken apart. -/
inductive Numeral where
  /-- Digits alone, with or without a minus sign. -/
  | integer (negative : Bool) (magnitude : Nat)
  /-- Digits with a point or an exponent: `significand * 10 ^ exponent`. -/
  | decimal (negative : Bool) (significand : Nat) (exponent : Int)
deriving DecidableEq

namespace Numeral

/-- The exponent after the mark `e`: a sign, which may lack, and digits. -/
def exponentOf? (cs : List Char) : Option Int :=
  let (negative, digits) := match cs with
    | '-' :: rest => (true, rest)
    | '+' :: rest => (false, rest)
    | rest => (false, rest)
  if digits.isEmpty || !digits.all Char.isDigit then none
  else
    let n : Int := Text.ofDecimalChars digits
    some (if negative then -n else n)

/-- Takes the part after the integer digits apart: a fraction, an exponent, both or nothing. -/
def withTail? (negative : Bool) (whole tail : List Char) : Option Numeral :=
  match tail with
  | [] => some (.integer negative (Text.ofDecimalChars whole))
  | '.' :: rest =>
    let places := rest.takeWhile Char.isDigit
    if places.isEmpty then none
    else
      let significand := Text.ofDecimalChars (whole ++ places)
      match rest.dropWhile Char.isDigit with
      | [] => some (.decimal negative significand (-places.length))
      | c :: exponent =>
        if c = 'e' ∨ c = 'E' then
          (exponentOf? exponent).map fun e => .decimal negative significand (e - places.length)
        else none
  | c :: exponent =>
    if c = 'e' ∨ c = 'E' then
      (exponentOf? exponent).map fun e => .decimal negative (Text.ofDecimalChars whole) e
    else none

/-- Reads the spelling of a number.  An integer part of more than one digit does not start with a
zero, and a point and an exponent mark are followed by digits. -/
def ofChars? (cs : List Char) : Option Numeral :=
  let (negative, rest) := match cs with
    | '-' :: rest => (true, rest)
    | rest => (false, rest)
  let whole := rest.takeWhile Char.isDigit
  let tail := rest.dropWhile Char.isDigit
  match whole with
  | [] => none
  | '0' :: _ :: _ => none
  | _ => withTail? negative whole tail

/-- The finite double nearest to a decimal, if there is one.  The decimal is rounded once, which is an
assumption on readers. -/
def finite? (negative : Bool) (significand : Nat) (exponent : Int) : Option Number :=
  match Binary64.ofDecimal negative significand exponent with
  | .finite x => some (.fraction x)
  | _ => none

/-- The number that a numeral denotes, unless it is beyond the range of doubles. -/
def toNumber? : Numeral → Option Number
  | .integer false n =>
    if h : n < 18446744073709551616 then some (.integer n ⟨by omega, by omega⟩)
    else finite? false n 0
  -- Minus zero is a double, since an integer has no sign at zero.
  | .integer true n =>
    if h : 0 < n ∧ n ≤ 9223372036854775808 then some (.integer (-n) ⟨by omega, by omega⟩)
    else finite? true n 0
  | .decimal negative significand exponent => finite? negative significand exponent

end Numeral

end AdmissionGate.Json
