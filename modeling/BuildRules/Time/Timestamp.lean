import BuildRules.Number.Binary64

/-! Points in time to the microsecond, in the years 1 to 9999 of the Gregorian calendar. A
timestamp without an offset counts as UTC. -/
namespace BuildRules
namespace Time

def isLeap (year : Nat) : Bool := year % 4 == 0 && (year % 100 != 0 || year % 400 == 0)

/-- Days before the first of January of a year. -/
def daysBeforeYear (year : Nat) : Nat :=
  let past := year - 1
  past * 365 + past / 4 - past / 100 + past / 400

def monthLengths (year : Nat) : List Nat :=
  [31, if isLeap year then 29 else 28, 31, 30, 31, 30, 31, 31, 30, 31, 30, 31]

def daysInMonth (year month : Nat) : Nat := (monthLengths year).getD (month - 1) 0

def daysBeforeMonth (year month : Nat) : Nat :=
  ((monthLengths year).take (month - 1)).foldr (· + ·) 0

def daysInYear (year : Nat) : Nat := if isLeap year then 366 else 365

/-- Days since the first day of year 1. -/
def dayNumber (year month day : Nat) : Nat :=
  daysBeforeYear year + daysBeforeMonth year month + (day - 1)

def microsPerDay : Nat := 86400 * 1000000

/-- Days of the years 1 to 9999. -/
def dayCount : Nat := daysBeforeYear 10000

/-- The year that a day lies in: whole cycles of 400, 100, 4 and 1 years before it. The
last day of a leap cycle would begin a fifth part and is kept in the fourth. -/
def yearOfDay (day : Nat) : Nat :=
  let of400 := day / 146097
  let in400 := day % 146097
  let of100 := min 3 (in400 / 36524)
  let in100 := in400 - of100 * 36524
  let of4 := in100 / 1461
  let in4 := in100 % 1461
  let of1 := min 3 (in4 / 365)
  400 * of400 + 100 * of100 + 4 * of4 + of1 + 1

/-- Month and day of the month of a day of the year, both from one. -/
def monthAndDay : Nat → List Nat → Nat → Nat × Nat
  | month, [], day => (month, day + 1)
  | month, length :: rest, day =>
    if day < length then (month, day + 1) else monthAndDay (month + 1) rest (day - length)

def monthOfDay (day : Nat) : Nat × Nat :=
  let year := yearOfDay day
  monthAndDay 1 (monthLengths year) (day - daysBeforeYear year)

/-- The last microsecond is one before this. -/
def microCount : Nat := dayCount * microsPerDay

end Time

open Time in
structure Timestamp where
  /-- Microseconds since the start of year 1 on the local clock. -/
  wall : Nat
  /-- Microseconds that the local clock is ahead of UTC. -/
  offset : Option Int
  inRange : wall < microCount
deriving DecidableEq

namespace Timestamp

open Time

/-- Microseconds since the start of year 1 in UTC; outside the calendar for some offsets. -/
def instant (time : Timestamp) : Int := (time.wall : Int) - time.offset.getD 0

def ofWall? (wall : Int) (offset : Option Int) : Option Timestamp :=
  if fits : 0 ≤ wall ∧ wall.toNat < microCount then some ⟨wall.toNat, offset, fits.2⟩ else none

/-- The same point in time on a UTC clock, if the calendar has it. -/
def utc? (time : Timestamp) : Option Timestamp := ofWall? time.instant (some 0)

def shift? (time : Timestamp) (micros : Int) : Option Timestamp :=
  ofWall? (time.wall + micros) time.offset

end Timestamp

/-- Whole milliseconds of a span, never negative: the span in seconds and its thousandfold
are binary64 numbers. -/
def Time.milliseconds (micros : Int) : Int :=
  let seconds := Binary64.ofQuotient (decide (micros < 0)) micros.natAbs 1000000
  max 0 ((seconds.mul (.ofInt 1000)).truncate?.getD 0)

end BuildRules
