import GuestLibrary.Calendar.Format
import GuestLibrary.Text.Utf8

/-!
Timestamps of log lines: an instant in UTC with milliseconds, `2024-02-29T12:00:00.042Z`. For
years of four digits their order as texts is the order of time.
-/
namespace GuestLibrary.Log

/-- The start of the epoch, which stands for instants without broken-down time. -/
def epochTimestamp : String := "1970-01-01T00:00:00.000Z"

/-- The timestamp of a second since the epoch and a number of milliseconds, of which full seconds
are dropped. -/
def timestamp (second : Int) (milliseconds : Nat) : String :=
  match Calendar.ofInstant? second 0 with
  | none => epochTimestamp
  | some c =>
    Utf8.decodeLossy (c.render (Bytes.ofText "%Y-%m-%dT%H:%M:%S") 0) ++ "."
      ++ Calendar.number (milliseconds % 1000 : Nat) 3 '0' ++ "Z"

/-- Whether a text has the length of a timestamp, and its marks for the time of day and for
UTC. -/
def isTimestamp (s : String) : Bool :=
  let bytes := Bytes.ofText s
  bytes.length == 24 && bytes[10]? == some 84 && bytes.getLast? == some 90

end GuestLibrary.Log
