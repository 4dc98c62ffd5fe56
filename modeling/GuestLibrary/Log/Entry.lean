import GuestLibrary.Heap.Log
import GuestLibrary.Json.Document
import GuestLibrary.Json.Writer

/-!
Entries of a structured log, one JSON object a line. Time, trace id, severity and event are
always there; all else is written only where it is known.
-/
namespace GuestLibrary.Log

/-- How what an entry tells of ended. -/
inductive Outcome
  | pass
  | fail
  | skip
  | error
  deriving DecidableEq, Repr

namespace Outcome

def all : List Outcome := [pass, fail, skip, error]

def name : Outcome → String
  | pass => "pass"
  | fail => "fail"
  | skip => "skip"
  | error => "error"

end Outcome

structure Entry where
  timestamp : String
  traceId : String
  severity : Severity
  event : String
  family : Option String := none
  /-- The call that the entry is about. -/
  symbol : Option String := none
  /-- Where the diagnostics of the program went. -/
  mode : Option String := none
  outcome : Option Outcome := none
  errorNumber : Option Int := none
  /-- In nanoseconds. -/
  latency : Option Nat := none
  /-- Names of related files. -/
  artifacts : Option (List String) := none
  details : Option Json := none
  deriving Repr

namespace Entry

/-- The fields of an entry in the order they are written. -/
def fields (e : Entry) : List (String × Option Json) :=
  [("timestamp", some (.text e.timestamp)), ("trace_id", some (.text e.traceId)),
    ("level", some (.text e.severity.name)), ("event", some (.text e.event)),
    ("api_family", e.family.map .text), ("symbol", e.symbol.map .text),
    ("mode", e.mode.map .text), ("outcome", e.outcome.map fun o => .text o.name),
    ("errno", e.errorNumber.map .integer),
    ("latency_ns", e.latency.map fun n : Nat => .integer n),
    ("artifact_refs", e.artifacts.map fun names => .array (names.map .text)),
    ("details", e.details)]

/-- The fields that an entry has. -/
def members (e : Entry) : List (String × Json) :=
  e.fields.filterMap fun (key, value) => value.map (key, ·)

/-- An entry as an object. -/
def toJson (e : Entry) : Json := .object e.members

/-- An entry as one line. -/
def line (e : Entry) : String := e.toJson.compact

/-- Reads a field that may be left out or null. -/
def optional {α : Type} (read? : Json → Option α) : Option Json → Option (Option α)
  | none => some none
  | some .null => some none
  | some value => (read? value).map some

/-- The name of a choice: a text, or an object with the name as its one key, which is null. -/
def choiceName? : Json → Option String
  | .text name => some name
  | .object [(name, .null)] => some name
  | _ => none

/-- Texts from an array. -/
def texts? : List Json → Option (List String)
  | [] => some []
  | .text s :: rest => (texts? rest).map (s :: ·)
  | _ => none

def severity? (value : Json) : Option Severity :=
  (choiceName? value).bind fun name => Severity.all.find? (·.name == name)

def outcome? (value : Json) : Option Outcome :=
  (choiceName? value).bind fun name => Outcome.all.find? (·.name == name)

/-- A value that fits an `int`. -/
def int? (value : Json) : Option Int := value.integer?.filter fun i => SignedRange.int.contains i

/-- A value that fits an unsigned word. -/
def word? (value : Json) : Option Nat := (value.integer?.filter (0 ≤ ·)).map Int.toNat

/-- The entry that an object describes. Members of other names are passed over. -/
def ofJson? (value : Json) : Option Entry := do
  let members ← value.members?
  let field := fun (key : String) => members.lookup key
  let timestamp ← (field "timestamp").bind Json.text?
  let traceId ← (field "trace_id").bind Json.text?
  let severity ← (field "level").bind severity?
  let event ← (field "event").bind Json.text?
  let family ← optional Json.text? (field "api_family")
  let symbol ← optional Json.text? (field "symbol")
  let mode ← optional Json.text? (field "mode")
  let outcome ← optional outcome? (field "outcome")
  let errorNumber ← optional int? (field "errno")
  let latency ← optional word? (field "latency_ns")
  let artifacts ← optional (fun v => v.array?.bind texts?) (field "artifact_refs")
  let details ← optional some (field "details")
  pure ⟨timestamp, traceId, severity, event, family, symbol, mode, outcome, errorNumber, latency,
    artifacts, details⟩

end Entry
end GuestLibrary.Log
