/-!
# Timestamp — moments as a clock on the wall shows them

A timestamp is a date of the Gregorian calendar, a time of day to the nanosecond, and the offset of
that clock from universal time.  Dates and times are valid by their types.
-/

namespace AdmissionGate

def isLeapYear (year : Int) : Bool :=
  year % 4 == 0 && (year % 100 != 0 || year % 400 == 0)

def daysInMonth (year : Int) (month : Nat) : Nat :=
  if month = 2 then (if isLeapYear year then 29 else 28)
  else if month = 4 ∨ month = 6 ∨ month = 9 ∨ month = 11 then 30
  else 31

/-- A date of the Gregorian calendar, in a year of at most four digits. -/
structure Date where
  year : Int
  month : Nat
  day : Nat
  valid : (-9999 ≤ year ∧ year ≤ 9999) ∧ (1 ≤ month ∧ month ≤ 12) ∧
    1 ≤ day ∧ day ≤ daysInMonth year month
deriving DecidableEq

namespace Date

/-- The date of a year, month and day, if there is one. -/
def of? (year : Int) (month day : Nat) : Option Date :=
  if h : (-9999 ≤ year ∧ year ≤ 9999) ∧ (1 ≤ month ∧ month ≤ 12) ∧
      1 ≤ day ∧ day ≤ daysInMonth year month then
    some ⟨year, month, day, h⟩
  else none

/-- Days from 1 January 1970.  Years are counted from March, so that a leap day comes last. -/
def toDays (d : Date) : Int :=
  let year := if d.month ≤ 2 then d.year - 1 else d.year
  -- March is month zero; five months from it have 153 days.
  let month : Int := (d.month + 9) % 12
  let dayOfYear := (153 * month + 2) / 5 + (d.day - 1)
  365 * year + year / 4 - year / 100 + year / 400 + dayOfYear - 719468

/-- The date that lies a number of days after 1 January 1970, if its year has four digits at most.
Cycles of 400 years, which begin in March, have 146097 days. -/
def ofDays? (days : Int) : Option Date :=
  let shifted := days + 719468
  let cycle := shifted / 146097
  let dayOfCycle := shifted % 146097
  -- Leap days are taken out first: one in 1460 days, none in a hundredth year, one in the 400th.
  let yearOfCycle :=
    (dayOfCycle - dayOfCycle / 1460 + dayOfCycle / 36524 - dayOfCycle / 146096) / 365
  let dayOfYear := dayOfCycle - (365 * yearOfCycle + yearOfCycle / 4 - yearOfCycle / 100)
  let marchMonth := (5 * dayOfYear + 2) / 153
  let day := dayOfYear - (153 * marchMonth + 2) / 5 + 1
  let month := if marchMonth < 10 then marchMonth + 3 else marchMonth - 9
  let year := yearOfCycle + 400 * cycle + (if month ≤ 2 then 1 else 0)
  of? year month.toNat day.toNat

/-- Holds of the last day of a month. -/
def isMonthEnd (d : Date) : Bool :=
  d.day == daysInMonth d.year d.month

end Date

/-- A time of day; leap seconds are not told apart. -/
structure TimeOfDay where
  hour : Nat
  minute : Nat
  second : Nat
  nanosecond : Nat
  valid : hour < 24 ∧ minute < 60 ∧ second < 60 ∧ nanosecond < 1000000000
deriving DecidableEq

namespace TimeOfDay

/-- The time of day of an hour, minute, second and nanosecond, if there is one. -/
def of? (hour minute second nanosecond : Nat) : Option TimeOfDay :=
  if h : hour < 24 ∧ minute < 60 ∧ second < 60 ∧ nanosecond < 1000000000 then
    some ⟨hour, minute, second, nanosecond, h⟩
  else none

/-- Whole seconds since midnight. -/
def toSeconds (t : TimeOfDay) : Int := 3600 * t.hour + 60 * t.minute + t.second

end TimeOfDay

/-- A moment, as a clock shows it that is `offset` seconds ahead of universal time. -/
structure Timestamp where
  date : Date
  time : TimeOfDay
  offset : Int
deriving DecidableEq

namespace Timestamp

/-- The moment a number of seconds and nanoseconds after the start of 1970, shown at an offset. -/
def ofUnix? (seconds : Int) (nanosecond : Nat) (offset : Int) : Option Timestamp := do
  let shown := seconds + offset
  let date ← Date.ofDays? (shown / 86400)
  let rest := (shown % 86400).toNat
  let time ← TimeOfDay.of? (rest / 3600) (rest / 60 % 60) (rest % 60) nanosecond
  return ⟨date, time, offset⟩

/-- Whole seconds after the start of 1970 in universal time. -/
def toUnix (t : Timestamp) : Int :=
  86400 * t.date.toDays + t.time.toSeconds - t.offset

end Timestamp

end AdmissionGate
