import GuestLibrary.Algorithm.Random
import GuestLibrary.Calendar.Basic
import GuestLibrary.ErrorNumber
import GuestLibrary.Guest.Exit
import GuestLibrary.Stream.Table

/-!
The state of one guest program, and how failures reach it: a C call never fails with a cause, it
answers a sentinel, sets the error number and reports misuse as a diagnostic.
-/
namespace GuestLibrary

structure GuestConfig where
  diagnostics : DiagnosticMode := .report
  limits : HeapLimits := {}
  deriving DecidableEq, Repr

/-- What a handler does to the console. -/
abbrev ExitHandler := Console → Console

structure Guest where
  config : GuestConfig
  system : StreamSystem
  /-- The record that the conversions of time share. -/
  calendar : Calendar := { day := 0, year := 0 }
  counts : DiagnosticCounts := {}
  errorNumber : Int := 0
  random : Random := .initial
  exitHandlers : ExitHandlers ExitHandler := {}
  quickExitHandlers : ExitHandlers ExitHandler := {}

namespace Guest

/-- A program at its start. -/
def start (host : Host) (config : GuestConfig) : Guest :=
  { config, system := { heap := .ofLimits config.limits, host } }

def host (g : Guest) : Host := g.system.host
def heap (g : Guest) : Heap := g.system.heap
def streams (g : Guest) : StreamTable := g.system.streams
def memory (g : Guest) : LinearMemory := g.system.host.arena.memory

/-- Works on the host. -/
def onHost (g : Guest) (f : Host → Host) : Guest :=
  let ⟨config, ⟨streams, heap, host⟩, calendar, counts, errorNumber, random, exits, quickExits⟩ := g
  ⟨config, ⟨streams, heap, f host⟩, calendar, counts, errorNumber, random, exits, quickExits⟩

/-- Works on the arena of the host. -/
def onArena (g : Guest) (f : Arena → Arena) : Guest :=
  g.onHost fun ⟨arena, console, source, fetches, nextTicket, minutesWest, now, clock⟩ =>
    ⟨f arena, console, source, fetches, nextTicket, minutesWest, now, clock⟩

/-- Works on streams, heap and host. -/
def onSystem {α : Type} (g : Guest) (f : StreamSystem → α × StreamSystem) : α × Guest :=
  let ⟨config, system, calendar, counts, errorNumber, random, exits, quickExits⟩ := g
  let (r, system) := f system
  (r, ⟨config, system, calendar, counts, errorNumber, random, exits, quickExits⟩)

def setErrorNumber (g : Guest) (number : Int) : Guest := { g with errorNumber := number }

/-- The console line of a diagnostic. -/
def reportLine (d : Diagnostic) : Bytes := Bytes.ofText ("ERROR: " ++ d.message ++ "\n")

/-- Counts a diagnostic, and writes it straight to the console when diagnostics are reported. -/
def report (g : Guest) (d : Diagnostic) : Guest :=
  let g := { g with counts := g.counts.record d }
  if g.config.diagnostics.emits then g.onHost (·.emit (reportLine d)) else g

/-- Reports a diagnostic and sets the error number of its class. -/
def misuse (g : Guest) (d : Diagnostic) : Guest :=
  let number := match d.classOf with
    | .misuse => ErrorNumber.invalid
    | .unsupported => ErrorNumber.notSupported
  (g.setErrorNumber number).report d

/-- What an allocation failure does to a program. -/
def allocFailed (g : Guest) : AllocError → Guest
  | .exhausted _ | .overflow => g.setErrorNumber ErrorNumber.noMemory
  | .misuse d => g.misuse d

/-- What a stream failure does to a program. -/
def streamFailed (g : Guest) : StreamError → Guest
  | .tableFull => g.setErrorNumber ErrorNumber.tooManyOpen
  | .notReady | .endOfData => g
  | .outOfRange .. => g.setErrorNumber ErrorNumber.invalid
  | .noBufferSpace => g.setErrorNumber ErrorNumber.noBufferSpace
  | .alloc e => g.allocFailed e
  | .misuse d => g.misuse d

/-- Summary of a program as text. -/
def summary (g : Guest) : String :=
  let s := g.heap.stats
  let mode := match g.config.diagnostics with
    | .report => "Report"
    | .silent => "Silent"
  "Runtime \x7b config: RuntimeConfig \x7b diagnostics: " ++ mode
    ++ ", heap: HeapLimits \x7b max_pages: " ++ toString g.config.limits.maxPages
    ++ ", blocks_per_page: " ++ toString g.config.limits.blocksPerPage
    ++ " \x7d \x7d, heap: HeapStats \x7b pages: " ++ toString s.pages
    ++ ", descriptors: " ++ toString s.descriptors ++ ", holes: " ++ toString s.holes
    ++ ", active_blocks: " ++ toString s.active ++ ", used_bytes: " ++ toString s.usedBytes
    ++ ", free_bytes: " ++ toString s.freeBytes ++ " \x7d, open_streams: "
    ++ toString g.streams.openCount ++ ", errno: " ++ toString g.errorNumber ++ ", .. \x7d"

end Guest
end GuestLibrary
