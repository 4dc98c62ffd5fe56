import GuestLibrary.Calendar.Format
import GuestLibrary.Numeral.Checked

/-!
The calendar on machine words. Instants and everything that is computed from them are `long`, the
fields of a record are `int`, and offsets in a format are sizes. Each step is held against the range
of its type, so what a computation answers is answered without a trap on the way.
-/
namespace GuestLibrary.Calendar.Machine

open SignedRange (long int)

def isLeapYear (year : Int) : Except Trap Bool := do
  return ((← long.truncatedRest year 4) == 0 && (← long.truncatedRest year 100) != 0) ||
    (← long.truncatedRest year 400) == 0

def daysInYear (year : Int) : Except Trap Int := do
  return if ← isLeapYear year then 366 else 365

def daysInMonth (year : Int) (month : Nat) : Except Trap Int := do
  if month = 1 ∧ (← isLeapYear year) then return 29
  else Trap.entry monthLengths (month % 12)

def walkYears : Nat → Int → Int → Except Trap (Int × Int)
  | 0, _, _ => .error .endless
  | steps + 1, year, days => do
    let length ← daysInYear year
    if days < length then return (year, days)
    else walkYears steps (← long.sum year 1) (← long.difference days length)

/-- Ends with December. -/
def walkMonths (year : Int) : Nat → Nat → Int → Except Trap (Nat × Int)
  | 0, month, days => return (month, days)
  | steps + 1, month, days => do
    let length ← daysInMonth year month
    if days < length then return (month, days)
    else walkMonths year steps (← Trap.size (month + 1)) (← int.difference days length)

/-- The shift into the zone and the year are asked whether they can be represented, so these two
have no trap. -/
def ofInstant? (t minutesWest : Int) : Except Trap (Option Calendar) := do
  let shifted := t - (← long.product minutesWest secondsPerMinute)
  if !long.contains shifted then return none
  let days ← long.quotient shifted secondsPerDay
  let rest ← long.remainder shifted secondsPerDay
  let second ← int.word (← long.truncatedRest rest secondsPerMinute)
  let minute ← int.word (← long.truncatedRest (← long.truncated rest secondsPerMinute) 60)
  let hour ← int.word (← long.truncated rest secondsPerHour)
  let weekday ← int.word (← long.remainder (← long.sum days 4) 7)
  let cycles ← long.quotient days daysPerCycle
  let first ← long.sum 1970 (← long.product cycles 400)
  let left ← long.difference days (← long.product cycles daysPerCycle)
  let (year, inYear) ← walkYears 400 first left
  let yearDay ← int.word inYear
  let (month, inMonth) ← walkMonths year 11 0 yearDay
  let day ← int.sum inMonth 1
  let month ← int.word month
  let year ← long.difference year 1900
  if !int.contains year then return none
  return some {
    second, minute, hour, day, month, year, weekday, yearDay
    daylight := if minutesWest = 0 then 0 else -1 }

def oneMoreIf (p : Prop) [Decidable p] (x : Int) : Except Trap Int :=
  if p then long.sum x 1 else return x

/-- Days from 1970-01-01 to the date of a record. -/
def dayCount (c : Calendar) : Except Trap Int := do
  let year ← long.sum (← long.sum 1900 c.year) (← long.quotient c.month 12)
  let month ← Trap.indexOf (← long.remainder c.month 12)
  let leapDays ← long.quotient (← long.difference year 1969) 4
  let days ← long.sum (← long.product (← long.difference year 1970) 365) leapDays
  let days ← long.sum days (← Trap.entry daysBeforeMonth month)
  let days ← oneMoreIf (1 < month ∧ (← long.remainder year 4) = 0) days
  long.sum days (← long.difference c.day 1)

def toInstant (c : Calendar) : Except Trap Int := do
  let days ← dayCount c
  let hours ← oneMoreIf (0 < c.daylight) c.hour
  let t ← long.sum (← long.product days secondsPerDay) (← long.product hours secondsPerHour)
  let t ← long.sum t (← long.product c.minute secondsPerMinute)
  let t ← long.sum t c.second
  if t < leapSecondEpoch then long.sum t leapSecondCorrection else return t

def fullYear (c : Calendar) : Except Trap Int := long.sum 1900 c.year

/-- The entry of a table of names; a question mark where the look-up would be a trap. -/
def nameAt (names : List String) (i : Int) : String :=
  match Trap.indexOf i >>= Trap.entry names with
  | .ok name => name
  | .error _ => "?"

def text (c : Calendar) : Except Trap String := do
  let year ← fullYear c
  return shortName (nameAt weekdayNames c.weekday) ++ " " ++ shortName (nameAt monthNames c.month)
    ++ blankPadded c.day 3 ++ " " ++ zeroPadded c.hour 2 ++ ":" ++ zeroPadded c.minute 2 ++ ":"
    ++ zeroPadded c.second 2 ++ " " ++ toString year ++ "\n"

/-- The magnitude of a number is written as an unsigned word. -/
def number (value : Int) (width : Nat) (pad : Char) : Except Trap String := do
  let value ← long.word value
  let _ ← Trap.size value.natAbs
  return Calendar.number value width pad

def twelveHour (hour : Int) : Except Trap Int := do
  let rest ← long.remainder hour 12
  return if rest = 0 then 12 else rest

def mondayWeekday (c : Calendar) : Except Trap Int := do
  long.remainder (← long.sum c.weekday 6) 7

def lastWeekday (year : Int) : Except Trap Int := do
  let days ← long.sum year (← long.quotient year 4)
  let days ← long.difference days (← long.quotient year 100)
  long.remainder (← long.sum days (← long.quotient year 400)) 7

def isoWeeks (year : Int) : Except Trap Int := do
  let last ← lastWeekday year
  let before ← lastWeekday (← long.difference year 1)
  return if last = 4 ∨ before = 3 then 53 else 52

def isoWeek (c : Calendar) : Except Trap (Int × Int) := do
  let year ← fullYear c
  let days ← long.sum (← long.difference c.yearDay (← mondayWeekday c)) 10
  let week ← long.truncated days 7
  if week < 1 then
    let previous ← long.difference year 1
    return (previous, ← isoWeeks previous)
  else if (← isoWeeks year) < week then return (← long.sum year 1, 1)
  else return (year, week)

/-- The week of a day whose weekday is counted from the first day of a week. -/
def weekFrom (yearDay weekday : Int) : Except Trap Int := do
  long.truncated (← long.difference (← long.sum yearDay 7) weekday) 7

def zoneText (minutesWest : Int) : Except Trap String := do
  let east ← long.negation minutesWest
  let size ← long.magnitude east
  let hours ← number (← long.truncated size 60) 2 '0'
  let minutes ← number (← long.truncatedRest size 60) 2 '0'
  return (if east < 0 then "-" else "+") ++ hours ++ minutes

def field (c : Calendar) (minutesWest : Int) (directive : Char) : Except Trap String := do
  let year ← fullYear c
  match directive with
  | 'a' => return shortName (nameAt weekdayNames c.weekday)
  | 'A' => return nameAt weekdayNames c.weekday
  | 'b' | 'h' => return shortName (nameAt monthNames c.month)
  | 'B' => return nameAt monthNames c.month
  | 'C' => number (← long.quotient year 100) 2 '0'
  | 'd' => number c.day 2 '0'
  | 'e' => number c.day 2 ' '
  | 'g' => number (← long.remainder (← isoWeek c).1 100) 2 '0'
  | 'G' => number (← isoWeek c).1 1 '0'
  | 'H' => number c.hour 2 '0'
  | 'I' => number (← twelveHour c.hour) 2 '0'
  | 'j' => number (← long.sum c.yearDay 1) 3 '0'
  | 'm' => number (← long.sum c.month 1) 2 '0'
  | 'M' => number c.minute 2 '0'
  | 'S' => number c.second 2 '0'
  | 'u' => number (← long.sum (← mondayWeekday c) 1) 1 '0'
  | 'U' => number (← weekFrom c.yearDay c.weekday) 2 '0'
  | 'V' => number (← isoWeek c).2 2 '0'
  | 'w' => number c.weekday 1 '0'
  | 'W' => number (← weekFrom c.yearDay (← mondayWeekday c)) 2 '0'
  | 'y' => number (← long.remainder year 100) 2 '0'
  | 'Y' => number year 1 '0'
  | 'z' => zoneText minutesWest
  -- A fixed text or nothing.
  | _ => return c.field minutesWest directive

/-- Expands a format from an offset on. -/
def expandFrom (meaning : Char → Except Trap Bytes) (format : Bytes) (i : Nat) :
    Except Trap Bytes :=
  if i < format.length then do
    let b ← Trap.entry format i
    let _ ← Trap.size (i + 1)
    if b ≠ 37 then return b :: (← expandFrom meaning format (i + 1))
    let modifiers := if format[i + 1]? = some 69 ∨ format[i + 1]? = some 79 then 1 else 0
    let at_ := i + 1 + modifiers
    let _ ← Trap.size at_
    match format[at_]? with
    | none => return []
    | some directive =>
      let _ ← Trap.size (at_ + 1)
      return (← meaning (Char.ofNat directive.toNat)) ++ (← expandFrom meaning format (at_ + 1))
  else return []
termination_by format.length - i

def directiveText (c : Calendar) (minutesWest : Int) (directive : Char) : Except Trap Bytes :=
  let ofField := fun d => Bytes.ofText <$> field c minutesWest d
  match abbreviation? directive with
  | some format => expandFrom ofField (Bytes.ofText format) 0
  | none => ofField directive

/-- Room for twice the length of the format is asked for in advance. Whether memory has that much is
not a matter of arithmetic. -/
def render (format : Bytes) (c : Calendar) (minutesWest : Int) : Except Trap Bytes := do
  let content := CString.content format
  let _ ← Trap.size (content.length * 2)
  expandFrom (directiveText c minutesWest) content 0

end GuestLibrary.Calendar.Machine
