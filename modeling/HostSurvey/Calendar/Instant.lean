/-!
# Instants

An instant is a date and a time of day in UTC, down to the nanosecond. The calendar is the
Gregorian one, extended to all years of its range; the second 60 is a leap second.
-/

namespace HostSurvey

/-- A date and a time of day in UTC. The second 60 is a leap second. -/
structure Instant where
  year : Int
  month : Nat
  day : Nat
  hour : Nat
  minute : Nat
  second : Nat
  nanosecond : Nat
deriving DecidableEq

namespace Instant

/-- Leap years are those divisible by four, except the centuries that 400 does not divide. -/
def isLeapYear (year : Int) : Bool := year % 4 == 0 && (year % 100 != 0 || year % 400 == 0)

def daysInMonth (year : Int) (month : Nat) : Nat :=
  if month = 2 then if isLeapYear year then 29 else 28
  else if month = 4 ∨ month = 6 ∨ month = 9 ∨ month = 11 then 30
  else 31

def firstYear : Int := -262143

def lastYear : Int := 262142

def isDate (year : Int) (month day : Nat) : Bool :=
  firstYear ≤ year && year ≤ lastYear && 1 ≤ month && month ≤ 12 && 1 ≤ day &&
    day ≤ daysInMonth year month

def nextDay? (year : Int) (month day : Nat) : Option (Int × Nat × Nat) :=
  if day < daysInMonth year month then some (year, month, day + 1)
  else if month < 12 then some (year, month + 1, 1)
  else if year < lastYear then some (year + 1, 1, 1)
  else none

def previousDay? (year : Int) (month day : Nat) : Option (Int × Nat × Nat) :=
  if 1 < day then some (year, month, day - 1)
  else if 1 < month then some (year, month - 1, daysInMonth year (month - 1))
  else if firstYear < year then some (year - 1, 12, 31)
  else none

/-- The instant of a local time that is ahead of UTC by whole minutes, given in seconds. The
second of the minute stays what it is. -/
def atOffset? (local_ : Instant) (offset : Int) : Option Instant :=
  let minutes := (local_.hour * 60 + local_.minute : Int) - offset / 60
  let ofDay := (minutes % 1440).toNat
  let date :=
    if minutes < 0 then previousDay? local_.year local_.month local_.day
    else if minutes < 1440 then some (local_.year, local_.month, local_.day)
    else nextDay? local_.year local_.month local_.day
  date.map fun (year, month, day) =>
    { local_ with year, month, day, hour := ofDay / 60, minute := ofDay % 60 }

end Instant

end HostSurvey
