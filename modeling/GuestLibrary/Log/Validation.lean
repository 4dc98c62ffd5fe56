import GuestLibrary.Host.Path
import GuestLibrary.Log.Entry
import GuestLibrary.Log.Timestamp
import GuestLibrary.Text.Blank

/-!
Checking the lines of a log. Faults that can be told one by one are all reported; whether the
fields have the right types is only asked of a line without them.
-/
namespace GuestLibrary.Log

/-- What is wrong with a line. -/
inductive Fault
  | notJson
  | notObject
  | missing (field : String)
  /-- A text that is none of those a field may have. -/
  | notAllowed (field value : String)
  | notTimestamp (value : String)
  /-- A field has a value of the wrong type. -/
  | mistyped
  deriving DecidableEq, Repr

namespace Fault

/-- The field at fault, or what stands for it. -/
def field : Fault → String
  | notJson => "<json>"
  | notObject => "<root>"
  | missing field | notAllowed field _ => field
  | notTimestamp _ => "timestamp"
  | mistyped => "<schema>"

def message : Fault → String
  | notJson => "invalid JSON"
  | notObject => "expected JSON object"
  | missing _ => "required field missing"
  | notAllowed field value => "invalid " ++ field ++ ": '" ++ value ++ "'"
  | notTimestamp value => "not RFC 3339 UTC with milliseconds: '" ++ value ++ "'"
  | mistyped => "field of the wrong type"

end Fault

/-- A fault with the number of its line. -/
structure Problem where
  line : Nat
  fault : Fault
  deriving DecidableEq, Repr

def Problem.text (p : Problem) : String :=
  "line " ++ toString p.line ++ ": field '" ++ p.fault.field ++ "': " ++ p.fault.message

/-- Fields that every entry has. -/
def requiredFields : List String := ["timestamp", "trace_id", "level", "event"]

/-- Fields whose text is one of a few. -/
def closedFields : List (String × List String) :=
  [("level", Severity.all.map (·.name)), ("outcome", Outcome.all.map (·.name)),
    ("mode", [DiagnosticMode.report.name, DiagnosticMode.silent.name])]

/-- The text of a field. -/
def fieldText? (members : List (String × Json)) (field : String) : Option String :=
  (members.lookup field).bind Json.text?

/-- The faults of an object that can be told one by one. -/
def faults (members : List (String × Json)) : List Fault :=
  let absent := requiredFields.filter fun field => (members.lookup field).isNone
  let foreign := closedFields.filterMap fun (field, allowed) =>
    ((fieldText? members field).filter (!allowed.contains ·)).map (.notAllowed field)
  let timestamp := (fieldText? members "timestamp").filter (!isTimestamp ·)
  absent.map .missing ++ foreign ++ (timestamp.map .notTimestamp).toList

/-- The entry on a line, or its faults. -/
def checkLine (s : String) : Except (List Fault) Entry :=
  match Json.read? s with
  | none => .error [.notJson]
  | some (.object members) =>
    match faults members with
    | [] =>
      match Entry.ofJson? (.object members) with
      | some entry => .ok entry
      | none => .error [.mistyped]
    | found => .error found
  | some _ => .error [.notObject]

/-- The entry on line number `n`, or its problems. -/
def validateLine (s : String) (n : Nat) : Except (List Problem) Entry :=
  (checkLine s).mapError fun found => found.map (⟨n, ·⟩)

/-- The problems of a line. -/
def problems (s : String) (n : Nat) : List Problem :=
  match validateLine s n with
  | .ok _ => []
  | .error found => found

/-- The lines of a text that are not blank, trimmed, with their numbers from 1. -/
def numberedLines (s : String) : List (String × Nat) :=
  (((Text.split '\n' s).map Text.trim).zipIdx 1).filter fun (line, _) => line ≠ ""

/-- How many lines a text has that are not blank, and the problems of all of them. -/
def validate (s : String) : Nat × List Problem :=
  let lines := numberedLines s
  (lines.length, lines.flatMap fun (line, n) => problems line n)

/-- Validates a file; none when it cannot be read as text. -/
def validateFile? (tree : Folder) (path : String) : Option (Nat × List Problem) :=
  ((tree.read? path).bind Utf8.decode?).map validate

end GuestLibrary.Log
