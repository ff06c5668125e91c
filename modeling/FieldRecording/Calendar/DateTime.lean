/-!
# Dates with a time of day

A `DateTime` is a date of the Gregorian calendar, carried on to all years, with a time of day.
`DateTime.exists?` says whether the calendar has it, and `DateTime.staysInRange` whether it stays
between `firstYear` and `lastYear` when an offset is taken off.
-/

namespace FieldRecording

/-- A date and a time of day, on a clock that is not further specified. -/
structure DateTime where
  year : Int
  month : Nat
  day : Nat
  hour : Nat
  minute : Nat
  /-- Second sixty is a leap second. -/
  second : Nat
  deriving Repr, DecidableEq

/-- Whether a year has a day more. -/
def isLeapYear (year : Int) : Bool :=
  year % 4 == 0 && (year % 100 != 0 || year % 400 == 0)

/-- How many days a month has; none if there is no such month. -/
def daysInMonth (year : Int) : (month : Nat) → Nat
  | 1 | 3 | 5 | 7 | 8 | 10 | 12 => 31
  | 4 | 6 | 9 | 11 => 30
  | 2 => if isLeapYear year then 29 else 28
  | _ => 0

/-- The first and the last year that a date can have. -/
def firstYear : Int := -262143
def lastYear : Int := 262142

namespace DateTime

/-- Whether there is such a date and such a time. -/
def exists? (time : DateTime) : Bool :=
  firstYear ≤ time.year && time.year ≤ lastYear &&
    1 ≤ time.day && time.day ≤ daysInMonth time.year time.month &&
    time.hour < 24 && time.minute < 60 && time.second ≤ 60

/-- The seconds of the day before this time. A leap second counts as the one before. -/
def secondOfDay (time : DateTime) : Int :=
  time.hour * 3600 + time.minute * 60 + min time.second 59

/-- Whether the time on a clock `minutes` behind is within the years that a date can
have. It leaves them only by the day before the first or after the last. -/
def staysInRange (time : DateTime) (minutes : Int) : Bool :=
  let second := time.secondOfDay - minutes * 60
  !(time.year == firstYear && time.month == 1 && time.day == 1 && second < 0) &&
    !(time.year == lastYear && time.month == 12 && time.day == 31 && 86400 ≤ second)

end DateTime

end FieldRecording
