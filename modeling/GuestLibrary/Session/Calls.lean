import GuestLibrary.Guest.Machine
import GuestLibrary.Session.Basic

/-!
The calls of a process. Each borrows the program; while the slot is lent a call does nothing and
answers what a failure of it answers.
-/
namespace GuestLibrary.Session

/-- Borrows the program for one call, with the answer to give where the slot is lent. -/
def call {α : Type} (p : Session) (refused : α) (f : Guest → α × Guest) : α × Session :=
  match p.enter f with
  | (.ok x, p) => (x, p)
  | (.error _, p) => (refused, p)

/-- Borrows the program for a call without an answer. -/
def perform (p : Session) (f : Guest → Guest) : Session := (p.call () fun g => ((), f g)).2

/-- Borrows the program for a call on words, which may be stopped. There is no call where the slot
is lent. -/
def callOnWords {α : Type} (p : Session) (refused : α) (f : Guest → Except Stop (α × Guest)) :
    Except Stop (α × Session) := do
  if p.entered then return (refused, p)
  else
    let answer ← f p.current.2
    return p.call refused fun _ => answer

/-! Memory -/

/-- The address of a grant; 0 without one. -/
def addressOf (r : Option Allocation × Guest) : Nat × Guest := (r.1.elim 0 (·.address), r.2)

def malloc (p : Session) (size : Nat) : Except Stop (Nat × Session) :=
  p.callOnWords 0 fun g => return addressOf (← Guest.Machine.malloc g size)

def calloc (p : Session) (count size : Nat) : Except Stop (Nat × Session) :=
  p.callOnWords 0 fun g => return addressOf (← Guest.Machine.calloc g count size)

def realloc (p : Session) (address size : Nat) : Except Stop (Nat × Session) :=
  p.callOnWords 0 fun g => Guest.Machine.reallocAddress g address size

def free (p : Session) (address : Nat) : Except Stop (Unit × Session) :=
  p.callOnWords () fun g => return ((), ← Guest.Machine.freeAddress g address)

/-- Copies a block to an address as far as memory reaches; the number of bytes copied. -/
def poke (p : Session) (address : Nat) (block : Bytes) : Nat × Session :=
  p.call 0 fun g =>
    let count := min block.length (g.memory.size - address)
    (count, g.write address (block.take count))

/-- The bytes at an address as far as memory reaches. -/
def peek (p : Session) (address n : Nat) : Bytes × Session :=
  p.call [] fun g => (g.memory.read address n, g)

/-! Streams -/

def fopen (p : Session) (name mode : String) : Option StreamId × Session :=
  p.call none (·.fopen name mode)

def fclose (p : Session) (id : StreamId) : Int × Session := p.call Guest.eof (·.fclose id)

def poll (p : Session) : PollReport × Session := p.call {} (·.poll)

def fgetc (p : Session) (id : StreamId) : Int × Session := p.call Guest.eof (·.fgetc id)

def fputc (p : Session) (b : UInt8) (id : StreamId) : Int × Session :=
  p.call Guest.eof (·.fputc b id)

def fputs (p : Session) (s : Bytes) (id : StreamId) : Int × Session :=
  p.call Guest.eof (·.fputs s id)

def fflush (p : Session) (id : Option StreamId) : Int × Session := p.call Guest.eof (·.fflush id)

def print (p : Session) (pieces : List Bytes) : Int × Session := p.call (-1) (·.print pieces)

def printError (p : Session) (pieces : List Bytes) : Int × Session :=
  p.call (-1) (·.printError pieces)

/-! Error number, numbers and random numbers -/

def errorNumber (p : Session) : Int × Session := p.call 0 fun g => (g.errorNumber, g)

def setErrorNumber (p : Session) (number : Int) : Session := p.perform (·.setErrorNumber number)

def perror (p : Session) (message : String) : Session := p.perform (·.perror message)

def strtol (p : Session) (s : Bytes) (base : Int) : (Int × Nat) × Session :=
  p.call (0, 0) (·.strtol s base)

def strtoul (p : Session) (s : Bytes) (base : Int) : (Nat × Nat) × Session :=
  p.call (0, 0) (·.strtoul s base)

def strtod (p : Session) (s : Bytes) : (Double × Nat) × Session := p.call (⟨0⟩, 0) (·.strtod s)

def rand (p : Session) : Nat × Session := p.call 0 (·.rand)

def srand (p : Session) (seed : UInt32) : Session := p.perform (·.srand seed)

/-! Time -/

def time (p : Session) : Int × Session := p.call (-1) fun g => (g.time, g)

def processorTime (p : Session) : Int × Session := p.call (-1) fun g => (g.clock, g)

def gmtime (p : Session) (t : Int) : Option Calendar × Session := p.call none (·.gmtime t)

def localtime (p : Session) (t : Int) : Option Calendar × Session := p.call none (·.localtime t)

def mktime (p : Session) (c : Calendar) : Int × Session := p.call (-1) fun g => (c.toInstant, g)

def strftime (p : Session) (out format : Bytes) (c : Calendar) : (Nat × Bytes) × Session :=
  p.call (0, out) fun g => (g.strftime out format c, g)

/-! The end of the process -/

def atexit (p : Session) (handler : ExitHandler) : Int × Session :=
  p.call (-1) (·.atexit handler)

def atQuickExit (p : Session) (handler : ExitHandler) : Int × Session :=
  p.call (-1) (·.atQuickExit handler)

/-- Ends the process by way of its program; while the slot is lent it ends all the same, without
handlers and flushes. -/
def exit (p : Session) (status : Int) : Termination × Session :=
  p.call ⟨status⟩ (·.exit status)

def quickExit (p : Session) (status : Int) : Termination × Session :=
  p.call ⟨status⟩ (·.quickExit status)

def abort (p : Session) : Termination × Session :=
  p.call ⟨Termination.aborted⟩ (·.abort)

end GuestLibrary.Session
