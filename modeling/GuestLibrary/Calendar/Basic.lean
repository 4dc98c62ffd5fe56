import GuestLibrary.Bytes.Block
import GuestLibrary.Numeral.Word

/-!
Broken-down time and its two conversions. Instants are seconds since 1970-01-01T00:00:00Z; a zone
is its offset in minutes west of UTC.
-/
namespace GuestLibrary

/-- Broken-down time. Every field is an `int`. -/
structure Calendar where
  second : Int := 0
  minute : Int := 0
  hour : Int := 0
  day : Int := 1
  /-- Months since January. -/
  month : Int := 0
  /-- Years since 1900. -/
  year : Int := 70
  /-- Days since Sunday. -/
  weekday : Int := 0
  /-- Days since January 1. -/
  yearDay : Int := 0
  /-- 0 for UTC, positive in daylight saving time, negative when unknown. -/
  daylight : Int := 0
  deriving DecidableEq, Repr

namespace Calendar

def secondsPerMinute : Int := 60
def secondsPerHour : Int := 3600
def secondsPerDay : Int := 86400
/-- Days in a full Gregorian cycle. -/
def daysPerCycle : Int := 146097
/-- Seconds that UTC was set behind atomic time when leap seconds began. -/
def leapSecondCorrection : Int := 10
/-- 1972-01-01T00:00:00Z, when leap seconds began. -/
def leapSecondEpoch : Int := 63072000
/-- Ticks of the processor clock per second. -/
def clocksPerSecond : Int := 1000

/-- Lengths of the months of a common year. -/
def monthLengths : List Int := [31, 28, 31, 30, 31, 30, 31, 31, 30, 31, 30, 31]

/-- Days before each month of a common year. -/
def daysBeforeMonth : List Int := [0, 31, 59, 90, 120, 151, 181, 212, 243, 273, 304, 334]

/-- The year, counted from the beginning of the era. -/
def fullYear (c : Calendar) : Int := 1900 + c.year

def isLeapYear (year : Int) : Bool :=
  (year % 4 == 0 && year % 100 != 0) || year % 400 == 0

def daysInYear (year : Int) : Int := if isLeapYear year then 366 else 365

/-- Length of a month, counted from 0 for January. -/
def daysInMonth (year : Int) (month : Nat) : Int :=
  if month = 1 ∧ isLeapYear year then 29 else monthLengths.getD (month % 12) 0

/-- Walks forward from January 1 of `year` until `days` falls inside a year: that year and the
day in it. -/
def walkYears : Nat → Int → Int → Int × Int
  | 0, year, days => (year, days)
  | steps + 1, year, days =>
    if days < daysInYear year then (year, days)
    else walkYears steps (year + 1) (days - daysInYear year)

/-- Walks forward from the first of `month` until `days` falls inside a month, December at the
latest: that month and the day in it. -/
def walkMonths (year : Int) : Nat → Nat → Int → Nat × Int
  | 0, month, days => (month, days)
  | steps + 1, month, days =>
    if days < daysInMonth year month then (month, days)
    else walkMonths year steps (month + 1) (days - daysInMonth year month)

/-- The instant in broken-down time. Local time does not know whether daylight saving applies.
None when the shifted instant is no `long` or the year no `int`. -/
def ofInstant? (t minutesWest : Int) : Option Calendar :=
  let shifted := t - minutesWest * secondsPerMinute
  if !SignedRange.long.contains shifted then none
  else
    let days := shifted / secondsPerDay
    let rest := shifted % secondsPerDay
    let cycles := days / daysPerCycle
    let (year, yearDay) := walkYears 400 (1970 + cycles * 400) (days - cycles * daysPerCycle)
    let (month, day) := walkMonths year 11 0 yearDay
    if !SignedRange.int.contains (year - 1900) then none
    else some {
      second := rest % secondsPerMinute
      minute := rest / secondsPerMinute % 60
      hour := rest / secondsPerHour
      day := day + 1
      month := month
      year := year - 1900
      weekday := (days + 4) % 7
      yearDay
      daylight := if minutesWest = 0 then 0 else -1 }

/-- The instant of a broken-down time, read from its year, month, day, time of day and daylight
flag. Months carry into the year. Leap days come every four years, and instants before leap
seconds began carry their correction. -/
def toInstant (c : Calendar) : Int :=
  let year := 1900 + c.year + c.month / 12
  let month := (c.month % 12).toNat
  let leapDays := (year - 1969) / 4
  let thisLeapDay : Int := if 1 < month ∧ year % 4 = 0 then 1 else 0
  let days := (year - 1970) * 365 + leapDays + daysBeforeMonth.getD month 0 + thisLeapDay
    + (c.day - 1)
  let hours := if 0 < c.daylight then c.hour + 1 else c.hour
  let t := days * secondsPerDay + hours * secondsPerHour + c.minute * secondsPerMinute + c.second
  if t < leapSecondEpoch then t + leapSecondCorrection else t

end Calendar
end GuestLibrary
