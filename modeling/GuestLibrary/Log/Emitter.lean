import GuestLibrary.Calendar.Format
import GuestLibrary.Log.Entry

/-!
Writing a log. Entries that bring no trace id are numbered within their run.
-/
namespace GuestLibrary.Log

structure Emitter where
  /-- Names the run in trace ids. -/
  runId : String
  /-- Number of the newest trace id that was made here. -/
  sequence : Nat := 0
  /-- What was written, newest first. -/
  written : List Entry := []

namespace Emitter

/-- The trace id of a number, which has three digits at least. -/
def traceId (runId : String) (n : Nat) : String :=
  "sandlibc::" ++ runId ++ "::" ++ Calendar.number n 3 '0'

/-- Makes the next trace id. -/
def nextTraceId (m : Emitter) : String × Emitter :=
  (traceId m.runId (m.sequence + 1), { m with sequence := m.sequence + 1 })

def push (m : Emitter) (e : Entry) : Emitter := { m with written := e :: m.written }

/-- Writes an entry, and gives it a trace id if it has none. -/
def write (m : Emitter) (e : Entry) : Emitter :=
  if e.traceId = "" then
    let (traceId, m) := m.nextTraceId
    m.push { e with traceId }
  else m.push e

/-- Writes an entry about an event, under a new trace id. -/
def emit (m : Emitter) (timestamp : String) (severity : Severity) (event : String) :
    Entry × Emitter :=
  let (traceId, m) := m.nextTraceId
  let e : Entry := { timestamp, traceId, severity, event }
  (e, m.push e)

/-- How many trace ids were made. -/
def emitted (m : Emitter) : Nat := m.sequence

/-- The lines written, oldest first. -/
def lines (m : Emitter) : List String := m.written.reverse.map (·.line)

end Emitter

/-- The text of a log: each line ends with a newline. -/
def textOf (lines : List String) : String := String.join (lines.map (· ++ "\n"))

end GuestLibrary.Log
