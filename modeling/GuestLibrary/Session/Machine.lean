import GuestLibrary.Session.Basic

/-!
Calls of a process as one of its threads makes them, statement by statement. The flag of the thread
is set before it is looked at, the slot is behind a lock that its holder cannot take once more, and
both are given back in whichever way a call is left. While a program is lent its borrower may make
further calls, and a call may unwind.
-/
namespace GuestLibrary.Session.Machine

/-- What a call answers; `ρ` is the type of what borrowers answer. -/
inductive Reply (ρ : Type)
  | refused (e : AccessError)
  | lent (answer : ρ)
  /-- Whether there was another program. -/
  | installed (replaced : Bool)
  | shutDown
  deriving DecidableEq

mutual

/-- A call of the process. -/
inductive Call (ρ : Type)
  /-- Lends the program to a borrower, unless there is none yet and building it unwinds. -/
  | lend (unwinds : Bool) (body : Borrower ρ)
  /-- Puts a fresh program in the slot, unless building it unwinds. -/
  | install (settings : HostSettings) (config : GuestConfig) (unwinds : Bool)
  /-- Flushes and drops the program, unless flushing unwinds: it has then come this far. -/
  | shutdown (unwinds : Option (Guest → Guest))

/-- What is done while a program is lent. -/
inductive Borrower (ρ : Type)
  | done (answer : ρ)
  | unwind
  /-- Works on the program, and goes on by how it was found. -/
  | work (f : Guest → Guest) (next : Guest → Borrower ρ)
  /-- Makes a call, and goes on by its answer. -/
  | call (c : Call ρ) (next : Reply ρ → Borrower ρ)

end

/-- A call that was made and is over. -/
structure Made (ρ : Type) where
  call : Call ρ
  /-- How many borrowers made it, one inside of the other. -/
  depth : Nat
  /-- Its answer; none if it unwound. -/
  reply : Option (Reply ρ)
  before : Session
  after : Session

/-- A process as a thread finds it; `entered` is the flag of this thread. -/
structure Thread (ρ : Type) where
  process : Session
  /-- The thread holds the lock of the slot. -/
  locked : Bool := false
  /-- The calls that are over, newest first. -/
  made : List (Made ρ) := []

/-- What keeps a computation from its result. -/
inductive Stop
  | unwinding
  /-- It waits for a lock that its own thread holds. -/
  | deadlock
  deriving DecidableEq, Repr

abbrev Run (ρ α : Type) := EStateM Stop (Thread ρ) α

section Statements

variable {ρ α : Type}

/-- Works on the process. -/
def onProcess (f : Session → Session) : Run ρ Unit :=
  modify fun t => { t with process := f t.process }

/-- Leaves the scope of `body` by `leave`, also when it unwinds. -/
def bracket (body : Run ρ α) (leave : Thread ρ → Thread ρ) : Run ρ α := fun t =>
  match body t with
  | .ok a t => .ok a (leave t)
  | .error .unwinding t => .error .unwinding (leave t)
  | .error .deadlock t => .error .deadlock t

/-- Sets the flag, and answers what it was. -/
def mark : Run ρ Bool :=
  modifyGet fun t => (t.process.entered, { t with process := { t.process with entered := true } })

def unmark (t : Thread ρ) : Thread ρ :=
  { t with process := { t.process with entered := false } }

/-- Takes the lock of the slot. -/
def lock : Run ρ Unit := do
  if (← get).locked then throw .deadlock
  modify ({ · with locked := true })

def unlock (t : Thread ρ) : Thread ρ := { t with locked := false }

/-- Enters the process for `body`. A thread that is inside already is refused: it has no guard, so
the flag stays as it is. -/
def guarded (body : Run ρ α) : Run ρ (Except AccessError α) := do
  if ← mark then return .error .reentrant
  let enter : Run ρ α := do
    lock
    bracket body unlock
  return .ok (← bracket enter unmark)

/-- Works on the program in the slot. -/
def onProgram (f : Guest → Guest) : Run ρ Unit :=
  onProcess fun p => (p.onProgram fun g => ((), f g)).2

/-- Lends the program to `body`, built from the surroundings where there is none. -/
def lending (unwinds : Bool) (body : Run ρ α) : Run ρ α := do
  if unwinds && (← get).process.slot.isNone then throw .unwinding
  onProcess fun p => { p with slot := some p.current }
  body

def installing (settings : HostSettings) (config : GuestConfig) (unwinds : Bool) : Run ρ Bool := do
  if unwinds then throw .unwinding
  let replaced := (← get).process.slot.isSome
  onProcess fun p => { p with slot := some (p.build settings config) }
  return replaced

def shuttingDown (unwinds : Option (Guest → Guest)) : Run ρ Unit := do
  if (← get).process.slot.isSome then
    match unwinds with
    | some f =>
      onProgram f
      throw .unwinding
    | none => onProgram fun g => (g.fflush none).2
  onProcess ({ · with slot := none })

/-- Keeps what a call came to. -/
def noted (c : Call ρ) (depth : Nat) (run : Run ρ (Reply ρ)) : Run ρ (Reply ρ) := fun t =>
  let note := fun (reply : Option (Reply ρ)) (t' : Thread ρ) =>
    { t' with made := ⟨c, depth, reply, t.process, t'.process⟩ :: t'.made }
  match run t with
  | .ok reply t' => .ok reply (note (some reply) t')
  | .error .unwinding t' => .error .unwinding (note none t')
  | .error .deadlock t' => .error .deadlock t'

/-- The answer of a call from what it came to. -/
def Reply.ofAnswer (answer : α → Reply ρ) : Except AccessError α → Reply ρ
  | .ok a => answer a
  | .error e => .refused e

end Statements

variable {ρ : Type}

mutual

/-- Makes a call inside of `depth` borrowers. -/
def Call.run (depth : Nat) : Call ρ → Run ρ (Reply ρ)
  | .lend unwinds body =>
    noted (.lend unwinds body) depth do
      return .ofAnswer .lent (← guarded (lending unwinds (body.run (depth + 1))))
  | .install settings config unwinds =>
    noted (.install settings config unwinds) depth do
      return .ofAnswer .installed (← guarded (installing settings config unwinds))
  | .shutdown unwinds =>
    noted (.shutdown unwinds) depth do
      return .ofAnswer (fun _ => .shutDown) (← guarded (shuttingDown unwinds))

def Borrower.run (depth : Nat) : Borrower ρ → Run ρ ρ
  | .done answer => return answer
  | .unwind => throw .unwinding
  | .work f next => do
    let t ← get
    onProgram f
    (next t.process.current.2).run depth
  | .call c next => do (next (← c.run depth)).run depth

end

/-- Makes a call from the outside. One that unwinds does not keep the thread from going on. -/
def Call.attempt (c : Call ρ) : Run ρ Unit := do
  try discard (c.run 0)
  catch
    | .unwinding => pure ()
    | .deadlock => throw .deadlock

/-- Makes calls one after the other. -/
def runAll : List (Call ρ) → Run ρ Unit
  | [] => return
  | c :: rest => do
    c.attempt
    runAll rest

/-- A thread that is not inside of the process. -/
def Thread.outside (p : Session) : Thread ρ := { process := { p with entered := false } }

end GuestLibrary.Session.Machine
