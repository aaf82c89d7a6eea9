import AdmissionGate.Binary64.Rounding
import AdmissionGate.Timestamp

/-!
# Toml/Value — TOML values and how bare ones are spelled

Integers have any size; whoever asks for one says which range it takes.  A float is kept as the
nearest double, or as nothing when the spelling is beyond all finite ones.  Dates and times are
checked, but nothing here asks for their contents.
-/

namespace AdmissionGate.Toml

inductive Value where
  | string (text : String)
  | integer (value : Int)
  | float (value : Option Binary64)
  | boolean (value : Bool)
  | datetime
  | array (items : List Value)
  | table (members : List (String × Value))

instance : Inhabited Value := ⟨.datetime⟩

/-- The digits of a run in which single underscores stand between digits. -/
def digitsOf? (isDigit : Char → Bool) : List Char → Option (List Char)
  | [] => none
  | [c] => if isDigit c then some [c] else none
  | c :: '_' :: rest => if isDigit c then (digitsOf? isDigit rest).map (c :: ·) else none
  | c :: rest => if isDigit c then (digitsOf? isDigit rest).map (c :: ·) else none

/-- The number that digits of a base denote. -/
def ofDigits (base : Nat) (digits : List Char) : Nat :=
  digits.foldl (fun n c => base * n + (Text.hexValue? c).getD 0) 0

/-- Holds of the digits of a base up to sixteen. -/
def isDigitOf (base : Nat) (c : Char) : Bool :=
  match Text.hexValue? c with
  | some v => v < base
  | none => false

/-- An integer in a base that a letter after a zero announces. -/
def basedInteger? (base : Nat) (cs : List Char) : Option Value :=
  (digitsOf? (isDigitOf base) cs).map fun digits => .integer (ofDigits base digits)

/-- The digits of a decimal integer part: no zero before other digits. -/
def wholeDigits? (cs : List Char) : Option (List Char) :=
  match digitsOf? Char.isDigit cs with
  | some ('0' :: _ :: _) => none
  | digits => digits

/-- A sign, if one stands there, and what follows it. -/
def splitSign : List Char → Bool × List Char
  | '-' :: rest => (true, rest)
  | '+' :: rest => (false, rest)
  | rest => (false, rest)

/-- The exponent after the mark `e`. -/
def exponentOf? (cs : List Char) : Option Int :=
  let (negative, rest) := splitSign cs
  (digitsOf? Char.isDigit rest).map fun digits =>
    if negative then -(Text.ofDecimalChars digits : Int) else Text.ofDecimalChars digits

/-- The float of a decimal. -/
def floatOf (negative : Bool) (digits : List Char) (exponent : Int) : Value :=
  match Binary64.ofDecimal negative (Text.ofDecimalChars digits) exponent with
  | .finite x => .float (some (.finite x))
  | _ => .float none

/-- Holds of the letter before an exponent. -/
def isExponentMark (c : Char) : Bool := c == 'e' || c == 'E'

/-- A decimal integer or float, after its sign. -/
def unsignedNumber? (negative : Bool) (cs : List Char) : Option Value := do
  -- No digit is an exponent mark here: bases have been dealt with.
  let mantissa := cs.takeWhile (!isExponentMark ·)
  let exponent ← match cs.dropWhile (!isExponentMark ·) with
    | [] => pure none
    | _ :: rest => (exponentOf? rest).map some
  let whole ← wholeDigits? (mantissa.takeWhile (· != '.'))
  match mantissa.dropWhile (· != '.'), exponent with
  | [], none =>
    let n : Int := Text.ofDecimalChars whole
    pure (.integer (if negative then -n else n))
  | [], some e => pure (floatOf negative whole e)
  | _ :: rest, e =>
    let places ← digitsOf? Char.isDigit rest
    pure (floatOf negative (whole ++ places) (e.getD 0 - places.length))

/-- A number: based, decimal, infinite or not a number. -/
def number? (cs : List Char) : Option Value :=
  match cs with
  | '0' :: 'x' :: rest => basedInteger? 16 rest
  | '0' :: 'o' :: rest => basedInteger? 8 rest
  | '0' :: 'b' :: rest => basedInteger? 2 rest
  | _ =>
    let (negative, rest) := splitSign cs
    if rest = ['i', 'n', 'f'] then some (.float (some (.infinite negative)))
    else if rest = ['n', 'a', 'n'] then some (.float (some .nan))
    else unsignedNumber? negative rest

/-- Exactly `n` digits and what follows them. -/
def fixedDigits? (n : Nat) (cs : List Char) : Option (Nat × List Char) :=
  if (cs.take n).length = n ∧ (cs.take n).all Char.isDigit then
    some (Text.ofDecimalChars (cs.take n), cs.drop n)
  else none

/-- A date and what follows it. -/
def date? (cs : List Char) : Option (Date × List Char) := do
  let (year, rest) ← fixedDigits? 4 cs
  let '-' :: rest := rest | none
  let (month, rest) ← fixedDigits? 2 rest
  let '-' :: rest := rest | none
  let (day, rest) ← fixedDigits? 2 rest
  let date ← Date.of? year month day
  pure (date, rest)

/-- The rest after a fraction of a second, if one stands there. -/
def skipFraction? : List Char → Option (List Char)
  | '.' :: rest =>
    if (rest.takeWhile Char.isDigit).isEmpty then none else some (rest.dropWhile Char.isDigit)
  | rest => some rest

/-- The rest after a time of day, whose seconds may lack. -/
def skipTime? (cs : List Char) : Option (List Char) := do
  let (hour, rest) ← fixedDigits? 2 cs
  let ':' :: rest := rest | none
  let (minute, rest) ← fixedDigits? 2 rest
  if hour < 24 ∧ minute < 60 then
    match rest with
    | ':' :: rest => do
      let (second, rest) ← fixedDigits? 2 rest
      if second ≤ 60 then skipFraction? rest else none
    | rest => pure rest
  else none

/-- Holds when an offset, or nothing, is all that is left. -/
def isOffset : List Char → Bool
  | [] | ['Z'] | ['z'] => true
  | sign :: rest =>
    (sign == '+' || sign == '-') &&
      match fixedDigits? 2 rest with
      | some (hours, ':' :: rest) =>
        match fixedDigits? 2 rest with
        | some (minutes, []) => decide (hours < 24 ∧ minutes < 60)
        | _ => false
      | _ => false

/-- A date, a time of day, or both with or without an offset. -/
def datetime? (cs : List Char) : Option Value :=
  match date? cs with
  | some (_, []) => some .datetime
  | some (_, separator :: rest) =>
    if separator = 'T' ∨ separator = 't' ∨ separator = ' ' then
      match skipTime? rest with
      | some rest => if isOffset rest then some .datetime else none
      | none => none
    else none
  -- A time of day alone has no offset.
  | none => if skipTime? cs = some [] then some .datetime else none

/-- The value that a bare spelling denotes. -/
def bareValue? (cs : List Char) : Option Value :=
  if cs = "true".toList then some (.boolean true)
  else if cs = "false".toList then some (.boolean false)
  else (number? cs).or (datetime? cs)

/-- Holds of spellings of a date alone, after which a blank may lead to a time. -/
def isDate (cs : List Char) : Bool :=
  match date? cs with
  | some (_, []) => true
  | _ => false

/-- Holds of the characters that a bare key is spelled with. -/
def isKeyChar (c : Char) : Bool := c.isAlphanum || c == '-' || c == '_'

/-- The key of a bare spelling. -/
def bareKey? (cs : List Char) : Option String :=
  if cs.all isKeyChar && !cs.isEmpty then some (String.ofList cs) else none

end AdmissionGate.Toml
