import AdmissionGate.Text.Digits
import AdmissionGate.Timestamp

/-!
# Timestamp/Rfc3339 — timestamps as text

Writing needs a year from 0 to 9999 and an offset of whole minutes, less than a day.  A fraction is
written without trailing zeros, and an offset of zero as `Z`.

Reading accepts any ASCII character between date and time and a fraction of any length, of which
nine digits count.  A leap second is taken for the nanosecond before it, and only at the end of a
month of universal time.
-/

namespace AdmissionGate.Timestamp

def twoDigits (n : Nat) : String := Text.paddedDecimal 2 n

/-- The fraction of a second, without trailing zeros; nothing for a whole second. -/
def fractionText (nanosecond : Nat) : String :=
  if nanosecond = 0 then ""
  else
    let digits := (Text.paddedDecimal 9 nanosecond).toList
    "." ++ String.ofList (digits.reverse.dropWhile (· == '0')).reverse

def offsetText (offset : Int) : String :=
  if offset = 0 then "Z"
  else
    let minutes := offset.natAbs / 60
    (if offset < 0 then "-" else "+") ++ twoDigits (minutes / 60) ++ ":" ++ twoDigits (minutes % 60)

/-- Holds when a timestamp has an RFC 3339 text. -/
def Writable (t : Timestamp) : Prop :=
  0 ≤ t.date.year ∧ t.offset.natAbs % 60 = 0 ∧ t.offset.natAbs < 86400

instance (t : Timestamp) : Decidable t.Writable :=
  inferInstanceAs (Decidable (_ ∧ _))

/-- The RFC 3339 text of a timestamp, if it has one. -/
def toRfc3339? (t : Timestamp) : Option String :=
  if t.Writable then
    some (Text.paddedDecimal 4 t.date.year.toNat ++ "-" ++ twoDigits t.date.month ++ "-" ++
      twoDigits t.date.day ++ "T" ++ twoDigits t.time.hour ++ ":" ++
      twoDigits t.time.minute ++ ":" ++ twoDigits t.time.second ++
      fractionText t.time.nanosecond ++ offsetText t.offset)
  else none

def readDigits? (n : Nat) (cs : List Char) : Option (Nat × List Char) :=
  let digits := cs.take n
  if digits.length = n ∧ digits.all Char.isDigit then
    some (Text.ofDecimalChars digits, cs.drop n)
  else none

def readChar? (c : Char) : List Char → Option (List Char)
  | d :: rest => if d = c then some rest else none
  | [] => none

/-- Reads the character between date and time. -/
def readSeparator? : List Char → Option (List Char)
  | d :: rest => if d.toNat < 128 then some rest else none
  | [] => none

/-- Reads a fraction of a second, if one stands there, as nanoseconds. -/
def readFraction? : List Char → Option (Nat × List Char)
  | '.' :: rest =>
    let digits := rest.takeWhile Char.isDigit
    if digits.isEmpty then none
    else
      -- Digits after the ninth are read over, not rounded.
      let nine := digits.take 9
      some (Text.ofDecimalChars (nine ++ List.replicate (9 - nine.length) '0'),
        rest.dropWhile Char.isDigit)
  | rest => some (0, rest)

/-- Reads the offset, with which the text ends, in seconds. -/
def readOffset? : List Char → Option Int
  | ['Z'] | ['z'] => some 0
  | sign :: rest => do
    let (hours, rest) ← readDigits? 2 rest
    let rest ← readChar? ':' rest
    let (minutes, rest) ← readDigits? 2 rest
    if rest.isEmpty ∧ hours < 24 ∧ minutes < 60 then
      let offset : Int := 3600 * hours + 60 * minutes
      if sign = '+' then some offset else if sign = '-' then some (-offset) else none
    else none
  | [] => none

/-- Holds when a leap second may follow: just before midnight of universal time, at the end of a
month. -/
def beforeLeapSecond (t : Timestamp) : Bool :=
  t.toUnix % 86400 == 86399 && ((Date.ofDays? (t.toUnix / 86400)).map Date.isMonthEnd).getD false

/-- Reads the RFC 3339 text of a timestamp. -/
def ofRfc3339? (text : String) : Option Timestamp := do
  let (year, rest) ← readDigits? 4 text.toList
  let rest ← readChar? '-' rest
  let (month, rest) ← readDigits? 2 rest
  let rest ← readChar? '-' rest
  let (day, rest) ← readDigits? 2 rest
  let rest ← readSeparator? rest
  let (hour, rest) ← readDigits? 2 rest
  let rest ← readChar? ':' rest
  let (minute, rest) ← readDigits? 2 rest
  let rest ← readChar? ':' rest
  let (second, rest) ← readDigits? 2 rest
  let (nanosecond, rest) ← readFraction? rest
  let offset ← readOffset? rest
  let date ← Date.of? year month day
  if second = 60 then
    -- The fraction of a leap second is dropped with it.
    let time ← TimeOfDay.of? hour minute 59 999999999
    let stamp : Timestamp := ⟨date, time, offset⟩
    if stamp.beforeLeapSecond then some stamp else none
  else
    let time ← TimeOfDay.of? hour minute second nanosecond
    return ⟨date, time, offset⟩

end AdmissionGate.Timestamp
