/-!
Handlers that run when a program ends, newest first.
-/
namespace GuestLibrary

/-- Registered handlers, newest first. -/
structure ExitHandlers (α : Type) where
  handlers : List α := []

namespace ExitHandlers

variable {α : Type}

/-- Handlers that may be registered at once. -/
def capacity : Nat := 32

def size (h : ExitHandlers α) : Nat := h.handlers.length

def isEmpty (h : ExitHandlers α) : Bool := h.handlers.isEmpty

/-- Registers a handler; none when there is no room. -/
def register? (h : ExitHandlers α) (handler : α) : Option (ExitHandlers α) :=
  if h.size < capacity then some ⟨handler :: h.handlers⟩ else none

/-- Takes every handler out, in the order they run. -/
def take (h : ExitHandlers α) : List α × ExitHandlers α := (h.handlers, {})

/-- How many handlers there are, as text. -/
def summary (h : ExitHandlers α) : String :=
  "ExitHandlers \x7b registered: " ++ toString h.size ++ " \x7d"

end ExitHandlers

/-- The end of a program. -/
structure Termination where
  status : Int
  deriving DecidableEq, Repr

namespace Termination

/-- Status of a program that aborts. -/
def aborted : Int := 134

/-- The exit code that the surroundings of a process see: the status in one byte. -/
def exitCode (t : Termination) : Nat := (t.status % 256).toNat

/-- What a simulated host stops a program with. -/
def message (t : Termination) : String := "sandlibc terminated with status " ++ toString t.status

end Termination
end GuestLibrary
