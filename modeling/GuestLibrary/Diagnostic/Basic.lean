import GuestLibrary.Text.Blank

/-!
Diagnostics: misuse of a handle, and requests for what is not implemented. Neither ends the
program; each is counted and, in report mode, written to the console.
-/
namespace GuestLibrary

/-- The broad class of a diagnostic. -/
inductive DiagnosticClass
  /-- A pointer or stream the library does not own, or a stream used against its capabilities. -/
  | misuse
  /-- An operation that exists but is not implemented. -/
  | unsupported
  deriving DecidableEq, Repr

inductive Diagnostic
  | invalidPointer (operation : String) (address : Nat)
  | pointerOutOfBounds (operation : String) (address : Nat)
  | doubleRelease (address block : Nat)
  | unsupportedOpenMode (mode : String)
  | writeToReadOnly (slot : Nat)
  | streamNotOpen (slot : Nat)
  | positioningUnsupported (operation : String) (slot : Nat)
  | seekFromEnd (slot : Nat)
  | pushBackRejected (slot : Nat)
  | unknownBufferMode (mode : Int)
  | unsupported (operation : String)
  deriving DecidableEq, Repr

namespace Diagnostic

/-- The console message. -/
def message : Diagnostic → String
  | invalidPointer operation _ => "Segmentation fault: Invalid ptr given to " ++ operation
  | pointerOutOfBounds operation _ => "Index out of bounds: Invalid ptr given to " ++ operation
  | doubleRelease _ block => "Double free: block " ++ toString block ++ " is not in use"
  | unsupportedOpenMode mode => "Only supports mode 'rb', got '" ++ mode ++ "'"
  | writeToReadOnly _ => "Cannot put char in read only stream"
  | streamNotOpen slot => "Stream " ++ toString slot ++ " is not open"
  | positioningUnsupported operation _ =>
    operation ++ " is not implemented for writable files"
  | seekFromEnd _ => "Seeking from the end of a stream is not supported"
  | pushBackRejected slot => "Cannot push back into stream " ++ toString slot
  | unknownBufferMode mode => "Unknown buffering mode " ++ toString mode
  | unsupported operation => operation ++ " not yet implemented"

def classOf : Diagnostic → DiagnosticClass
  | unsupportedOpenMode _ | positioningUnsupported _ _ | seekFromEnd _ | unsupported _ =>
    .unsupported
  | _ => .misuse

/-- The label in logs. -/
def label : Diagnostic → String
  | invalidPointer .. => "invalid_pointer"
  | pointerOutOfBounds .. => "pointer_out_of_bounds"
  | doubleRelease .. => "double_release"
  | unsupportedOpenMode .. => "unsupported_open_mode"
  | writeToReadOnly .. => "write_to_read_only"
  | streamNotOpen .. => "stream_not_open"
  | positioningUnsupported .. => "positioning_unsupported"
  | seekFromEnd .. => "seek_from_end"
  | pushBackRejected .. => "unget_rejected"
  | unknownBufferMode .. => "unknown_buffer_mode"
  | unsupported .. => "unsupported"

end Diagnostic

/-- How many diagnostics there were, in all and by class. -/
structure DiagnosticCounts where
  total : Nat := 0
  misuse : Nat := 0
  unsupported : Nat := 0
  deriving DecidableEq, Repr

/-- Counts a diagnostic. -/
def DiagnosticCounts.record (counts : DiagnosticCounts) (d : Diagnostic) : DiagnosticCounts :=
  match d.classOf with
  | .misuse => { counts with total := counts.total + 1, misuse := counts.misuse + 1 }
  | .unsupported => { counts with total := counts.total + 1, unsupported := counts.unsupported + 1 }

/-- Where diagnostics go. -/
inductive DiagnosticMode
  /-- Counted and written to the console. -/
  | report
  /-- Counted only. -/
  | silent
  deriving DecidableEq, Repr

namespace DiagnosticMode

/-- Reads a mode, whatever its case and the blanks around it; what is not known reports. -/
def ofText (s : String) : DiagnosticMode :=
  if ["silent", "off", "quiet", "none"].contains (String.ofList ((Text.trimmed s.toList).map Char.toLower))
  then .silent else .report

def emits : DiagnosticMode → Bool
  | .report => true
  | .silent => false

def name : DiagnosticMode → String
  | .report => "report"
  | .silent => "silent"

end DiagnosticMode
end GuestLibrary
