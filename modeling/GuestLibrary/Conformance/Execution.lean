import GuestLibrary.Bytes.Token
import GuestLibrary.Conformance.Arguments
import GuestLibrary.Guest.Machine
import GuestLibrary.Guest.Program

/-!
The calls that are checked for conformance. Each answers a text, so that a case compares texts,
and calls of a guest program run in a fresh one and report the error number it ends with.
-/
namespace GuestLibrary.Conformance

/-- What a call answered. -/
structure Execution where
  output : String
  errorNumber : Int := 0
  deriving DecidableEq, Repr

/-- Why a call has no answer. -/
inductive ExecutionError
  | unknownFunction (name : String)
  | badInput (function : String) (fault : Fault)
  deriving DecidableEq, Repr

def ExecutionError.message : ExecutionError → String
  | unknownFunction name => "unknown function '" ++ name ++ "'"
  | badInput function fault => "bad input for " ++ function ++ ": " ++ fault.message

/-- A host whose resources arrive at once. -/
def testHost : Host :=
  { arena := .ofBase Arena.defaultHeapBase Arena.defaultMaxPages, source := .table [] true }

/-- A guest program on such a host. -/
def testGuest (limits : HeapLimits) : Guest := .start testHost { limits }

/-! Time -/

/-- `YYYY-MM-DD hh:mm:ss`, months counted from 1, and the derived fields. -/
def calendarText (c : Calendar) : String :=
  let two := fun (i : Int) => Calendar.zeroPadded i 2
  Calendar.zeroPadded c.fullYear 4 ++ "-" ++ two (c.month + 1) ++ "-" ++ two c.day ++ " "
    ++ two c.hour ++ ":" ++ two c.minute ++ ":" ++ two c.second ++ " wday=" ++ toString c.weekday
    ++ " yday=" ++ toString c.yearDay ++ " isdst=" ++ toString c.daylight

/-- The answer for an instant without broken-down time. -/
def overflow : Execution := ⟨"overflow", ErrorNumber.overflow⟩

/-- Room for a formatted time where the inputs choose none. -/
def formatRoom : Nat := 256

def runStrftime (args : Arguments) : Checked Execution := do
  let epoch ← args.integer "epoch"
  let offset ← args.int "offset_minutes" 0
  let room ← args.natural "size" formatRoom
  let format ← args.text "format"
  match Calendar.ofInstant? epoch offset with
  | none => pure overflow
  | some c =>
    let room ← Word.buffer room
    let text := c.render (Bytes.ofText format) offset
    pure { output := if room ≤ text.length then "" else Utf8.decodeLossy text }

def runGmtime (args : Arguments) : Checked Execution := do
  let epoch ← args.integer "epoch"
  let offset ← args.int "offset_minutes" 0
  pure ((Calendar.ofInstant? epoch offset).elim overflow fun c => { output := calendarText c })

/-! Strings -/

/-- Every token of a string. Each one takes a byte at least. -/
def allTokens (delimiters : Bytes) : Nat → Bytes → Token.Cursor → List Bytes
  | 0, _, _ => []
  | steps + 1, s, cursor =>
    match cursor.advance s delimiters with
    | (none, _, _) => []
    | (some (start, fin), cursor, s) =>
      (s.drop start).take (fin - start) :: allTokens delimiters steps s cursor

def runStrtok (args : Arguments) : Checked Execution := do
  let s ← args.cString "s"
  let delimiters ← args.cString "delims"
  let tokens := allTokens delimiters (s.length + 1) s {}
  pure { output := String.intercalate "|" (tokens.map Utf8.decodeLossy) }

def runMemmove (args : Arguments) : Checked Execution := do
  let block ← args.bytes "buffer"
  let dest ← args.natural "dest" 0
  let src ← args.natural "src" 0
  let n ← args.natural "n" 0
  let (moved, block) := block.move dest src n
  pure { output := toString moved ++ ":" ++ Utf8.decodeLossy block }

def runStrcmp (args : Arguments) : Checked Execution := do
  let a ← args.cString "a"
  let b ← args.cString "b"
  pure { output := toString (CString.difference a b).sign }

def runStrstr (args : Arguments) : Checked Execution := do
  let s ← args.cString "haystack"
  let part ← args.cString "needle"
  pure { output := (CString.search? s part).elim "null" toString }

/-! Memory -/

/-- A sequence of allocations under way. -/
structure HeapRun where
  guest : Guest
  /-- Address and size of the newest grant of every tag. -/
  tags : List (String × Nat × Nat) := []
  failed : Nat := 0
  corrupt : Nat := 0

namespace HeapRun

/-- The byte that grants of a tag are filled with. -/
def fillOf (tag : String) : UInt8 := (Bytes.ofText tag).headD 63

/-- Fills a fresh grant. -/
def granted (run : HeapRun) (tag : String) (size : Nat) (r : Option Allocation × Guest) :
    Except Stop HeapRun := do
  let (grant, guest) := r
  match grant with
  | none => return { run with guest, failed := run.failed + 1 }
  | some grant =>
    Word.cut size (guest.room grant)
    return { run with
      guest := guest.write grant.address (List.replicate size (fillOf tag))
      tags := (tag, grant.address, size) :: run.tags }

/-- Resizes the grant of a tag, checks what it kept and fills the rest. -/
def resize (run : HeapRun) (tag : String) (size : Nat) : Except Stop HeapRun := do
  let (address, old) := (run.tags.lookup tag).getD (0, 0)
  let (moved, guest) ← Guest.Machine.reallocAddress run.guest address size
  if moved = 0 then return { run with guest, failed := run.failed + 1 }
  else
    let room := guest.memory.size
    let kept := min old size
    let fresh ← Word.sum moved kept
    Word.cut fresh room
    let intact := (guest.memory.read moved kept).all (· == fillOf tag)
    Word.cut (← Word.sum moved size) room
    return { run with
      guest := guest.write fresh (List.replicate (size - kept) (fillOf tag))
      tags := (tag, moved, size) :: run.tags
      corrupt := if intact then run.corrupt else run.corrupt + 1 }

/-- Performs what an operation is named after. -/
def perform (run : HeapRun) (args : Arguments) (tag : String) : String → Checked HeapRun
  | "malloc" => do
    let size ← args.natural "size" 0
    run.granted tag size (← Guest.Machine.malloc run.guest size)
  | "calloc" => do
    let size ← args.natural "size" 0
    let count ← args.natural "count" 1
    run.granted tag size (← Guest.Machine.calloc run.guest count size)
  | "realloc" => do
    let size ← args.natural "size" 0
    run.resize tag size
  | "free" => do
    let address := ((run.tags.lookup tag).getD (0, 0)).1
    let guest ← Guest.Machine.freeAddress run.guest address
    return { run with guest }
  | name => throw (.unknownOperation name)

/-- One operation of a sequence. -/
def step (run : HeapRun) (operation : Json) : Checked HeapRun := do
  let args : Arguments := ⟨operation⟩
  let tag ← args.text "tag"
  let name ← args.text "op"
  run.perform args tag name

/-- How a sequence ended. -/
def execution (run : HeapRun) : Execution :=
  { output := "live=" ++ toString run.guest.heap.liveCount ++ " failed=" ++ toString run.failed
      ++ " corrupt=" ++ toString run.corrupt ++ " diagnostics=" ++ toString run.guest.counts.total
    errorNumber := run.guest.errorNumber }

end HeapRun

/-- Runs a sequence of allocations. Every grant is filled with a byte of its tag, and checked
when it is resized. -/
def runMallocSequence (args : Arguments) : Checked Execution := do
  let limits : HeapLimits := {}
  let maxPages ← args.natural "max_pages" limits.maxPages
  let guest ← Guest.Machine.start testHost { limits := { limits with maxPages } }
  let operations ← args.array "ops"
  let run ← operations.foldlM HeapRun.step { guest }
  return run.execution

/-! Streams -/

/-- One of the standard output streams. -/
def outputStream (args : Arguments) : Except Fault StreamId := do
  let name ← args.textOr "stream" "stdout"
  match name with
  | "stdout" => pure .stdout
  | "stderr" => pure .stderr
  | _ => throw (.unknownStream name)

def bufferModeOf (name : String) : Except Fault BufferMode :=
  match name with
  | "full" => .ok .full
  | "line" => .ok .line
  | "none" => .ok .none
  | _ => .error (.unknownBufferMode name)

/-- Writes texts one after the other. -/
def writeAll (id : StreamId) : List Json → Guest → Except Fault Guest
  | [], g => .ok g
  | item :: rest, g =>
    match item.text? with
    | some s => writeAll id rest (g.fwrite (Bytes.ofText s) id).2
    | none => .error (.notStrings "writes")

/-- Chooses a buffer where the inputs do. -/
def rebuffer (args : Arguments) (id : StreamId) (g : Guest) : Checked Guest := do
  match (args.get? "mode").bind Json.text? with
  | none => return g
  | some name =>
    let mode ← bufferModeOf name
    let size ← args.natural "size" streamBufferSize
    let (_, g) ← Guest.Machine.setvbuf g id mode.code size
    return g

/-- Writes to a standard stream. The answer holds every chunk of the console. -/
def runStdioWrite (args : Arguments) : Checked Execution := do
  let id ← outputStream args
  let g ← rebuffer args id (testGuest {})
  let writes ← args.array "writes"
  let g ← writeAll id writes g
  let flushes := ((args.get? "flush").bind Json.bool?).getD false
  let g := if flushes then (g.fflush (some id)).2 else g
  pure {
    output := String.intercalate "|" (g.host.console.chunks.toList.map Utf8.decodeLossy)
    errorNumber := g.errorNumber }

/-- Reads bytes until there are none, at most `n`. -/
def readToEnd (id : StreamId) : Nat → Guest → Bytes × Guest
  | 0, g => ([], g)
  | n + 1, g =>
    match g.fgetc id with
    | (c, g) =>
      if c = Guest.eof then ([], g)
      else
        let (rest, g) := readToEnd id n g
        (UInt8.ofNat c.toNat :: rest, g)

/-- Opens a resource, waits for it, and reads it from an offset on. -/
def readResource (g : Guest) (name mode : String) (offset : Option Int) : Execution :=
  match g.fopen name mode with
  | (none, g) => ⟨"open_failed", g.errorNumber⟩
  | (some id, g) =>
    let (report, g) := g.poll
    if !report.failed.isEmpty then ⟨"fetch_failed", g.errorNumber⟩
    else
      let g := offset.elim g fun offset => (g.fseek id offset Whence.start.code).2
      let (block, g) := readToEnd id ((g.streams.get id).extent + 1) g
      ⟨Utf8.decodeLossy block, g.errorNumber⟩

def runFetchRead (args : Arguments) : Checked Execution := do
  let name ← args.text "name"
  let g ← match args.get? "content" with
    | none => pure (testGuest {})
    | some _ => do
      let content ← args.text "content"
      pure ((testGuest {}).onHost (·.addResource name (Bytes.ofText content)))
  let mode ← args.textOr "mode" "rb"
  pure (readResource g name mode ((args.get? "offset").bind Arguments.long?))

/-! All calls -/

/-- The names of the calls. -/
def functions : List String :=
  ["strftime", "gmtime", "mktime", "asctime", "strlen", "strcmp", "strstr", "strtok", "memmove",
    "malloc_sequence", "stdio_write", "fetch_read"]

/-- A call by its name. -/
def run? (function : String) (args : Arguments) : Option (Checked Execution) :=
  match function with
  | "strftime" => some (runStrftime args)
  | "gmtime" => some (runGmtime args)
  | "mktime" => some do
    let c ← args.calendar
    return { output := toString c.toInstant }
  | "asctime" => some do
    let c ← args.calendar
    return { output := c.text }
  | "strlen" => some do
    let s ← args.cString "s"
    return { output := toString (CString.length s) }
  | "strcmp" => some (runStrcmp args)
  | "strstr" => some (runStrstr args)
  | "strtok" => some (runStrtok args)
  | "memmove" => some (runMemmove args)
  | "malloc_sequence" => some (runMallocSequence args)
  | "stdio_write" => some (runStdioWrite args)
  | "fetch_read" => some (runFetchRead args)
  | _ => none

/-- Runs a call with inputs. A call may be stopped, and has no answer and no error then. -/
def execute (function : String) (inputs : Json) :
    Except Stop (Except ExecutionError Execution) := do
  match run? function ⟨inputs⟩ with
  | some call => return (← call.run).mapError (.badInput function)
  | none => return .error (.unknownFunction function)

end GuestLibrary.Conformance
