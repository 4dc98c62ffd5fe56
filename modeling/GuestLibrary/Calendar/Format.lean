import GuestLibrary.Bytes.CString
import GuestLibrary.Calendar.Basic

/-!
Texts of broken-down time. A format is copied byte by byte; a `%`, an optional `E` or `O` and a
directive stand for a field. Directives that are not known stand for nothing, and so does one
that the format ends in the middle of.
-/
namespace GuestLibrary.Calendar

def weekdayNames : List String :=
  ["Sunday", "Monday", "Tuesday", "Wednesday", "Thursday", "Friday", "Saturday"]

def monthNames : List String :=
  ["January", "February", "March", "April", "May", "June", "July", "August", "September",
    "October", "November", "December"]

/-- The entry of a table of names; a question mark outside it. -/
def nameAt (names : List String) (i : Int) : String :=
  if i < 0 then "?" else names.getD i.toNat "?"

/-- The first three letters of a name. -/
def shortName (name : String) : String := String.ofList (name.toList.take 3)

def weekdayName (c : Calendar) : String := nameAt weekdayNames c.weekday
def monthName (c : Calendar) : String := nameAt monthNames c.month

/-- A number with its sign in front of the padding, the digits padded to `width`. -/
def number (value : Int) (width : Nat) (pad : Char) : String :=
  let digits := toString value.natAbs
  (if value < 0 then "-" else "")
    ++ String.ofList (List.replicate (width - digits.length) pad) ++ digits

/-- A number padded with zeros behind its sign, the sign being part of the width. -/
def zeroPadded (value : Int) (width : Nat) : String :=
  number value (if value < 0 then width - 1 else width) '0'

/-- A number padded with blanks in front. -/
def blankPadded (value : Int) (width : Nat) : String :=
  let text := toString value
  String.ofList (List.replicate (width - text.length) ' ') ++ text

/-- `Thu Jan  1 00:00:00 1970` and a newline. -/
def text (c : Calendar) : String :=
  shortName c.weekdayName ++ " " ++ shortName c.monthName ++ blankPadded c.day 3 ++ " "
    ++ zeroPadded c.hour 2 ++ ":" ++ zeroPadded c.minute 2 ++ ":" ++ zeroPadded c.second 2 ++ " "
    ++ toString c.fullYear ++ "\n"

/-- Hour of a twelve-hour clock. -/
def twelveHour (hour : Int) : Int := if hour % 12 = 0 then 12 else hour % 12

/-- Days since Monday. -/
def mondayWeekday (c : Calendar) : Int := (c.weekday + 6) % 7

/-- The weekday of December 31 of a year, counted from Sunday. -/
def lastWeekday (year : Int) : Int := (year + year / 4 - year / 100 + year / 400) % 7

/-- Number of weeks of an ISO 8601 year. -/
def isoWeeks (year : Int) : Int :=
  if lastWeekday year = 4 ∨ lastWeekday (year - 1) = 3 then 53 else 52

/-- Week-based year and week number of ISO 8601. -/
def isoWeek (c : Calendar) : Int × Int :=
  let year := c.fullYear
  let week := (c.yearDay - c.mondayWeekday + 10).tdiv 7
  if week < 1 then (year - 1, isoWeeks (year - 1))
  else if isoWeeks year < week then (year + 1, 1)
  else (year, week)

/-- Number of the week whose first day is a Sunday. -/
def sundayWeek (c : Calendar) : Int := (c.yearDay + 7 - c.weekday).tdiv 7

/-- Number of the week whose first day is a Monday. -/
def mondayWeek (c : Calendar) : Int := (c.yearDay + 7 - c.mondayWeekday).tdiv 7

/-- `+hhmm`, the offset east of UTC. -/
def zoneText (minutesWest : Int) : String :=
  let east := minutesWest.natAbs
  (if 0 < minutesWest then "-" else "+") ++ number (east / 60) 2 '0' ++ number (east % 60) 2 '0'

/-- The text of a directive that stands for one field. -/
def field (c : Calendar) (minutesWest : Int) (directive : Char) : String :=
  match directive with
  | 'a' => shortName c.weekdayName
  | 'A' => c.weekdayName
  | 'b' | 'h' => shortName c.monthName
  | 'B' => c.monthName
  | 'C' => number (c.fullYear / 100) 2 '0'
  | 'd' => number c.day 2 '0'
  | 'e' => number c.day 2 ' '
  | 'g' => number (c.isoWeek.1 % 100) 2 '0'
  | 'G' => number c.isoWeek.1 1 '0'
  | 'H' => number c.hour 2 '0'
  | 'I' => number (twelveHour c.hour) 2 '0'
  | 'j' => number (c.yearDay + 1) 3 '0'
  | 'm' => number (c.month + 1) 2 '0'
  | 'M' => number c.minute 2 '0'
  | 'n' => "\n"
  | 'p' => if c.hour < 12 then "AM" else "PM"
  | 'S' => number c.second 2 '0'
  | 't' => "\t"
  | 'u' => number (c.mondayWeekday + 1) 1 '0'
  | 'U' => number c.sundayWeek 2 '0'
  | 'V' => number c.isoWeek.2 2 '0'
  | 'w' => number c.weekday 1 '0'
  | 'W' => number c.mondayWeek 2 '0'
  | 'y' => number (c.fullYear % 100) 2 '0'
  | 'Y' => number c.fullYear 1 '0'
  | 'z' => zoneText minutesWest
  | '%' => "%"
  | _ => ""

/-- The format that a directive abbreviates. -/
def abbreviation? (directive : Char) : Option String :=
  match directive with
  | 'c' => some "%a %b %e %H:%M:%S %Y"
  | 'D' | 'x' => some "%m/%d/%y"
  | 'F' => some "%Y-%m-%d"
  | 'r' => some "%I:%M:%S %p"
  | 'R' => some "%H:%M"
  | 'T' | 'X' => some "%H:%M:%S"
  | _ => none

/-- Where an expansion stands in its format. -/
inductive FormatState
  | plain
  /-- Behind a percent sign. -/
  | percent
  /-- Behind a percent sign and a modifier. -/
  | modified
  deriving DecidableEq, Repr

/-- Replaces each directive of a format by what `meaning` gives for it. -/
def expandFrom (meaning : Char → Bytes) : FormatState → Bytes → Bytes
  | _, [] => []
  | .plain, b :: rest =>
    if b = 37 then expandFrom meaning .percent rest else b :: expandFrom meaning .plain rest
  | .percent, b :: rest =>
    if b = 69 ∨ b = 79 then expandFrom meaning .modified rest
    else meaning (Char.ofNat b.toNat) ++ expandFrom meaning .plain rest
  | .modified, b :: rest => meaning (Char.ofNat b.toNat) ++ expandFrom meaning .plain rest

/-- The text of any directive. -/
def directiveText (c : Calendar) (minutesWest : Int) (directive : Char) : Bytes :=
  let ofField := fun d => Bytes.ofText (c.field minutesWest d)
  match abbreviation? directive with
  | some format => expandFrom ofField .plain (Bytes.ofText format)
  | none => ofField directive

/-- Expands a format, which ends at its first NUL. -/
def render (format : Bytes) (c : Calendar) (minutesWest : Int) : Bytes :=
  expandFrom (c.directiveText minutesWest) .plain (CString.content format)

/-- Expands a format into a buffer, with a terminator. Answers the length of the text, or 0 with
the buffer as it was when the text and its terminator do not fit. -/
def renderInto (out format : Bytes) (c : Calendar) (minutesWest : Int) : Nat × Bytes :=
  let text := c.render format minutesWest
  if out.length ≤ text.length then (0, out)
  else (text.length, out.overwrite 0 (text ++ [0]))

end GuestLibrary.Calendar
