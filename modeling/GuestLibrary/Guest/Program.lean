import GuestLibrary.Calendar.Format
import GuestLibrary.Guest.Stream
import GuestLibrary.Numeral.Real

/-!
The remaining calls of a guest program: time, conversion of numbers, random numbers and the end
of the program.
-/
namespace GuestLibrary.Guest

def time (g : Guest) : Int := g.host.now

/-- Processor time in ticks. -/
def clock (g : Guest) : Int := g.host.clock * (Calendar.clocksPerSecond / 1000)

/-- Keeps a conversion in the shared record. -/
def convert (g : Guest) (c : Option Calendar) : Option Calendar × Guest :=
  match c with
  | some c => (some c, { g with calendar := c })
  | none => (none, g.setErrorNumber ErrorNumber.overflow)

def gmtime (g : Guest) (t : Int) : Option Calendar × Guest :=
  g.convert (Calendar.ofInstant? t 0)

def localtime (g : Guest) (t : Int) : Option Calendar × Guest :=
  g.convert ((Calendar.ofInstant? t g.host.minutesWest).map ({ · with daylight := -1 }))

def ctime (g : Guest) (t : Int) : Option String × Guest :=
  let (c, g) := g.localtime t
  (c.map (·.text), g)

/-- Local records take their offset from the host. -/
def strftime (g : Guest) (out format : Bytes) (c : Calendar) : Nat × Bytes :=
  c.renderInto out format (if c.daylight = 0 then 0 else g.host.minutesWest)

/-- Books how a reading ended: the value and the number of bytes used. -/
def converted {α : Type} (g : Guest) (r : Numeral.Reading α) : (α × Nat) × Guest :=
  ((r.value, r.stop), match r.status with
    | .success => g
    | .outOfRange => g.setErrorNumber ErrorNumber.range
    | .invalidBase => g.setErrorNumber ErrorNumber.invalid)

/-- A negative base is as invalid as base 1. -/
def baseOf (base : Int) : Nat := if base < 0 then 1 else base.toNat

def strtol (g : Guest) (s : Bytes) (base : Int) : (Int × Nat) × Guest :=
  g.converted (Numeral.readSigned s (baseOf base))

def strtoul (g : Guest) (s : Bytes) (base : Int) : (Nat × Nat) × Guest :=
  g.converted (Numeral.readUnsigned s (baseOf base))

def strtod (g : Guest) (s : Bytes) : (Double × Nat) × Guest :=
  g.converted (Numeral.readDouble s)

def strtof (g : Guest) (s : Bytes) : (Single × Nat) × Guest :=
  g.converted (Numeral.readSingle s)

def rand (g : Guest) : Nat × Guest :=
  let (n, random) := g.random.next
  (n, { g with random })

def srand (g : Guest) (seed : UInt32) : Guest := { g with random := ⟨seed⟩ }

def atexit (g : Guest) (handler : ExitHandler) : Int × Guest :=
  match g.exitHandlers.register? handler with
  | some exitHandlers => (0, { g with exitHandlers })
  | none => (-1, g.setErrorNumber ErrorNumber.noMemory)

def atQuickExit (g : Guest) (handler : ExitHandler) : Int × Guest :=
  match g.quickExitHandlers.register? handler with
  | some quickExitHandlers => (0, { g with quickExitHandlers })
  | none => (-1, g.setErrorNumber ErrorNumber.noMemory)

/-- Runs handlers one after the other. -/
def runHandlers (g : Guest) (handlers : List ExitHandler) : Guest :=
  g.onHost fun host => { host with console := handlers.foldl (fun c f => f c) host.console }

/-- Runs the quick handlers and ends the program; what streams hold back is lost. -/
def quickExit (g : Guest) (status : Int) : Termination × Guest :=
  let (handlers, quickExitHandlers) := g.quickExitHandlers.take
  (⟨status⟩, { g with quickExitHandlers }.runHandlers handlers)

/-- Ends the program at once, with a line on the console. -/
def abort (g : Guest) : Termination × Guest :=
  (⟨Termination.aborted⟩, g.onHost (·.emit (Bytes.ofText "Program aborted\n")))

/-- Runs the handlers, flushes every stream and ends the program. -/
def exit (g : Guest) (status : Int) : Termination × Guest :=
  let (handlers, exitHandlers) := g.exitHandlers.take
  let g := { g with exitHandlers }.runHandlers handlers
  (⟨status⟩, (g.fflush none).2)

/-- Writes where an assertion failed to standard error and ends the program. -/
def assertFail (g : Guest) (message file line : String) : Termination × Guest :=
  let pieces := ["Assertion failed at ", file, " : ", line, "\n\t", message, "\n"]
  (g.printError (pieces.map Bytes.ofText)).2.exit 1

end GuestLibrary.Guest
