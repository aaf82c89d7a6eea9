/-!
# Text/Digits — numerals in base ten and base sixteen

Natural numbers and integers in their plain decimal form, and the values of single digits.
-/

namespace AdmissionGate.Text

/-- The decimal digits of a natural number, no leading zero unless the number is zero. -/
def decimalChars (n : Nat) : List Char :=
  Nat.toDigits 10 n

def decimal (n : Nat) : String :=
  String.ofList (decimalChars n)

theorem toList_decimal (n : Nat) : (decimal n).toList = decimalChars n := String.toList_ofList

/-- The decimal numeral of an integer, with a minus sign when it is negative. -/
def signedDecimal : Int → String
  | .ofNat n => decimal n
  | .negSucc n => "-" ++ decimal (n + 1)

/-- The decimal numeral of `n`, filled up with zeros on the left to at least `width` digits. -/
def paddedDecimal (width n : Nat) : String :=
  let digits := decimalChars n
  String.ofList (List.replicate (width - digits.length) '0' ++ digits)

/-- The number that a run of decimal digits denotes. -/
def ofDecimalChars (digits : List Char) : Nat :=
  Nat.ofDigitChars 10 digits 0

/-- The value of a digit of base sixteen, in either case. -/
def hexValue? (c : Char) : Option Nat :=
  if '0' ≤ c ∧ c ≤ '9' then some (c.toNat - '0'.toNat)
  else if 'a' ≤ c ∧ c ≤ 'f' then some (c.toNat - 'a'.toNat + 10)
  else if 'A' ≤ c ∧ c ≤ 'F' then some (c.toNat - 'A'.toNat + 10)
  else none

/-- Holds of the 22 digits of base sixteen. -/
def isHexDigit (c : Char) : Bool :=
  (hexValue? c).isSome

/-- The number that digits of base sixteen denote, if all of them are such digits. -/
def ofHexChars? (digits : List Char) : Option Nat :=
  digits.foldlM (fun n c => (hexValue? c).map (16 * n + ·)) 0

/-- The lower-case numeral of `n` in base sixteen, with `width` digits at least. -/
def paddedHex (width n : Nat) : String :=
  let digits := Nat.toDigits 16 n
  String.ofList (List.replicate (width - digits.length) '0' ++ digits)

/-- The numeral of a natural number denotes that number. -/
theorem ofDecimalChars_decimalChars (n : Nat) : ofDecimalChars (decimalChars n) = n :=
  Nat.ofDigitChars_toDigits (by decide) (by decide)

/-- Different natural numbers have different numerals. -/
theorem decimalChars_injective {m n : Nat} (h : decimalChars m = decimalChars n) : m = n := by
  rw [← ofDecimalChars_decimalChars m, h, ofDecimalChars_decimalChars]

/-- A numeral holds digits only, so in particular no sign and no colon. -/
theorem isDigit_of_mem_decimalChars {n : Nat} {c : Char} (h : c ∈ decimalChars n) :
    c.isDigit = true :=
  Nat.isDigit_of_mem_toDigits (by decide) (by decide) h

end AdmissionGate.Text
