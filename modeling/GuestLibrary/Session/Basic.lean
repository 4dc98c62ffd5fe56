import GuestLibrary.Guest.Program
import GuestLibrary.Numeral.Literal

/-!
The one guest program of a process. It is built on first use and held in a slot that a call
borrows; a call made while another one holds the slot is refused instead of waiting for itself.
-/
namespace GuestLibrary

/-- What a process is told by its surroundings. -/
structure Environment where
  resourceRoot : Option String := none
  utcOffset : Option String := none
  diagnostics : Option String := none
  deriving DecidableEq, Repr

/-- Settings of a host that is backed by the process. -/
structure HostSettings where
  /-- The folder that names of resources are looked up in. -/
  resourceRoot : String := "."
  minutesWest : Int := 0
  maxPages : Nat := Arena.defaultMaxPages
  /-- Console output is kept apart from the output of the process. -/
  captured : Bool := false
  deriving DecidableEq, Repr

/-- Settings from the surroundings; an offset that is no number is passed over. -/
def HostSettings.ofEnvironment (e : Environment) : HostSettings :=
  { resourceRoot := e.resourceRoot.getD "."
    minutesWest := (e.utcOffset.bind fun s => Numeral.signedOf? .int (Text.trim s)).getD 0 }

/-- Diagnostics as the surroundings ask for them. -/
def GuestConfig.ofEnvironment (e : Environment) : GuestConfig :=
  { diagnostics := (e.diagnostics.map DiagnosticMode.ofText).getD .report }

/-- Why the slot was not lent. -/
inductive AccessError
  | reentrant
  deriving DecidableEq, Repr

def AccessError.message : AccessError → String
  | reentrant => "runtime is already borrowed on this thread"

structure Session where
  environment : Environment := {}
  /-- The files that resources are read from. -/
  tree : Folder := ⟨[]⟩
  /-- Seconds since the epoch. -/
  now : Int := 0
  /-- Milliseconds of processor time. -/
  clock : Int := 0
  /-- The program and the settings of its host. -/
  slot : Option (HostSettings × Guest) := none
  /-- A call holds the slot. -/
  entered : Bool := false
  /-- Output of consoles that are kept apart. -/
  captured : Console := {}
  /-- Output of the process. -/
  output : Console := {}

namespace Session

/-- A program over a fresh host. -/
def build (p : Session) (settings : HostSettings) (config : GuestConfig) : HostSettings × Guest :=
  (settings, .start {
    arena := .ofBase Arena.defaultHeapBase settings.maxPages
    source := .folder settings.resourceRoot p.tree
    minutesWest := settings.minutesWest
    now := p.now
    clock := p.clock } config)

/-- Lends the slot to `body` unless it is lent already. It is free again afterwards, also after a
body that gives up: how a body ends is part of its result. -/
def guarded {α : Type} (p : Session) (body : Session → α × Session) :
    Except AccessError α × Session :=
  if p.entered then (.error .reentrant, p)
  else
    let (r, p) := body { p with entered := true }
    (.ok r, { p with entered := false })

/-- The program in the slot, built from the surroundings where there is none. -/
def current (p : Session) : HostSettings × Guest :=
  p.slot.getD (p.build (.ofEnvironment p.environment) (.ofEnvironment p.environment))

/-- Lends the slot with a program in it. -/
def withProgram {α : Type} (p : Session) (body : Session → α × Session) :
    Except AccessError α × Session :=
  p.guarded fun p => body { p with slot := some p.current }

/-- Passes on what a program wrote to its console. -/
def emitAll (p : Session) (settings : HostSettings) (written : Console) : Session :=
  let pass := fun (c : Console) => written.chunks.foldl Console.push c
  if settings.captured then { p with captured := pass p.captured }
  else { p with output := pass p.output }

/-- Works on the program in the slot. -/
def onProgram {α : Type} (p : Session) (f : Guest → α × Guest) : α × Session :=
  let (settings, g) := p.current
  let (r, g) := f g
  let written := g.host.console
  let g := g.onHost ({ · with console := {} })
  (r, { p with slot := some (settings, g) }.emitAll settings written)

/-- Borrows the program for one call. -/
def enter {α : Type} (p : Session) (f : Guest → α × Guest) : Except AccessError α × Session :=
  p.withProgram (·.onProgram f)

/-- Puts a fresh program in the slot; whether there was another one, which is dropped as it
is. -/
def install (p : Session) (settings : HostSettings) (config : GuestConfig) :
    Except AccessError Bool × Session :=
  p.guarded fun p => (p.slot.isSome, { p with slot := some (p.build settings config) })

/-- Flushes every stream and drops the program. -/
def shutdown (p : Session) : Except AccessError Unit × Session :=
  p.guarded fun p =>
    let p := if p.slot.isSome then (p.onProgram (·.fflush none)).2 else p
    ((), { p with slot := none })

end Session
end GuestLibrary
