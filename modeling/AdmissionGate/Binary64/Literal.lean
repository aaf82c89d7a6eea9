import AdmissionGate.Binary64.Rounding

/-!
# Binary64/Literal — doubles from decimal text

A literal is an optional sign and either a word for infinity or for not-a-number, in any case, or a
decimal: digits before or after a point, with an exponent or without.  A decimal beyond the finite
range denotes an infinity.
-/

namespace AdmissionGate.Binary64

/-- A sign, if one stands there, and what follows it. -/
def splitSign : List Char → Bool × List Char
  | '-' :: rest => (true, rest)
  | '+' :: rest => (false, rest)
  | rest => (false, rest)

/-- The exponent that ends a decimal: nothing, or a mark, a sign and digits. -/
def literalExponent? : List Char → Option Int
  | [] => some 0
  | c :: rest =>
    if c = 'e' ∨ c = 'E' then
      let (negative, digits) := splitSign rest
      if digits.isEmpty || !digits.all Char.isDigit then none
      else
        let n : Int := Text.ofDecimalChars digits
        some (if negative then -n else n)
    else none

def unsignedLiteral? (negative : Bool) (cs : List Char) : Option Binary64 :=
  let whole := cs.takeWhile Char.isDigit
  let rest := cs.dropWhile Char.isDigit
  let (places, tail) := match rest with
    | '.' :: rest => (rest.takeWhile Char.isDigit, rest.dropWhile Char.isDigit)
    | rest => ([], rest)
  if whole.isEmpty && places.isEmpty then none
  else
    (literalExponent? tail).map fun e =>
      ofDecimal negative (Text.ofDecimalChars (whole ++ places)) (e - places.length)

def ofLiteral? (text : String) : Option Binary64 :=
  let (negative, rest) := splitSign text.toList
  let word := String.ofList (rest.map Char.toLower)
  if word = "inf" ∨ word = "infinity" then some (.infinite negative)
  else if word = "nan" then some .nan
  else unsignedLiteral? negative rest

end AdmissionGate.Binary64
