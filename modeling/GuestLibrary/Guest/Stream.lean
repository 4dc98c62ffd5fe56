import GuestLibrary.Bytes.CString
import GuestLibrary.Guest.State

/-!
The stream calls of a guest program. A failure is answered by the sentinel of the call.
-/
namespace GuestLibrary.Guest

/-- The end-of-data and failure sentinel. -/
def eof : Int := -1

/-- Works on the streams; a failure is booked and answered by none. -/
def onStreams {α : Type} (g : Guest) (f : StreamSystem → StreamSystem.Outcome α) :
    Option α × Guest :=
  match g.onSystem f with
  | (.ok x, g) => (some x, g)
  | (.error e, g) => (none, g.streamFailed e)

/-- A status: 0, or the sentinel on failure. -/
def status (r : Option Unit × Guest) : Int × Guest := (r.1.elim eof fun _ => 0, r.2)

/-- A count as an `int`, or the sentinel on failure. -/
def tally (r : Option Nat × Guest) : Int × Guest :=
  (r.1.elim eof fun n => min (n : Int) SignedRange.int.greatest, r.2)

/-- A byte as an `int`, or the sentinel on failure. -/
def byte (r : Option UInt8 × Guest) : Int × Guest := (r.1.elim eof fun b => b.toNat, r.2)

def fopen (g : Guest) (name mode : String) : Option StreamId × Guest :=
  g.onStreams (·.openStream name mode)

def freopen (g : Guest) (name mode : String) (id : StreamId) : Option StreamId × Guest :=
  g.onStreams (·.reopen id name mode)

def fclose (g : Guest) (id : StreamId) : Int × Guest := status (g.onStreams (·.close id))

/-- Collects the resources that arrived. -/
def poll (g : Guest) : PollReport × Guest :=
  let (report, g) := g.onSystem (·.poll)
  (report, if report.failed.isEmpty then g else g.setErrorNumber ErrorNumber.noEntry)

def fgetc (g : Guest) (id : StreamId) : Int × Guest := byte (g.onStreams (·.readByte id))

def getchar (g : Guest) : Int × Guest := g.fgetc .stdin

/-- Reads into a buffer; a failure is booked and answered by none. -/
def readInto (g : Guest) (f : StreamSystem → Except StreamError Nat × Bytes × StreamSystem) :
    Option Nat × Bytes × Guest :=
  let ((r, buf), g) := g.onSystem fun sys =>
    let (r, buf, sys) := f sys
    ((r, buf), sys)
  match r with
  | .ok n => (some n, buf, g)
  | .error e => (none, buf, g.streamFailed e)

def fgets (g : Guest) (buf : Bytes) (id : StreamId) : Option Nat × Bytes × Guest :=
  g.readInto (·.readLine id buf)

def fread (g : Guest) (buf : Bytes) (id : StreamId) : Nat × Bytes × Guest :=
  let (r, buf, g) := g.readInto (·.read id buf)
  (r.getD 0, buf, g)

def ungetc (g : Guest) (b : UInt8) (id : StreamId) : Int × Guest :=
  byte (g.onStreams (·.pushBack id b))

def fputc (g : Guest) (b : UInt8) (id : StreamId) : Int × Guest :=
  byte (g.onStreams (·.writeByte id b))

def putchar (g : Guest) (b : UInt8) : Int × Guest := g.fputc b .stdout

def fputs (g : Guest) (s : Bytes) (id : StreamId) : Int × Guest :=
  tally (g.onStreams (·.write id (CString.content s)))

/-- A string and a newline on standard output. -/
def puts (g : Guest) (s : Bytes) : Int × Guest :=
  match g.fputs s .stdout with
  | (written, g) =>
    if written = eof then (eof, g)
    else
      let (r, g) := g.putchar 10
      (if r = eof then eof else min (written + 1) SignedRange.int.greatest, g)

/-- The number of bytes accepted. -/
def fwrite (g : Guest) (block : Bytes) (id : StreamId) : Nat × Guest :=
  let (r, g) := g.onStreams (·.write id block)
  (r.getD 0, g)

/-- Formatted output, piece by piece. -/
def fprint (g : Guest) (id : StreamId) (pieces : List Bytes) : Int × Guest :=
  tally (g.onStreams (StreamSystem.writePieces id pieces))

def print (g : Guest) (pieces : List Bytes) : Int × Guest := g.fprint .stdout pieces

def printError (g : Guest) (pieces : List Bytes) : Int × Guest := g.fprint .stderr pieces

/-- Flushes a stream, or every stream. -/
def fflush (g : Guest) (id : Option StreamId) : Int × Guest :=
  match id with
  | some id => status (g.onStreams (·.flush id))
  | none => (g.onSystem fun sys => (0, sys.flushAll))

def fseek (g : Guest) (id : StreamId) (offset whence : Int) : Int × Guest :=
  match Whence.ofCode? whence with
  | none => (-1, g.setErrorNumber ErrorNumber.invalid)
  | some whence => status (g.onStreams (·.seek id offset whence))

def ftell (g : Guest) (id : StreamId) : Int × Guest :=
  let (r, g) := g.onStreams (·.tell id)
  (r.elim (-1) fun n => n, g)

def rewind (g : Guest) (id : StreamId) : Guest := (g.onStreams (·.rewind id)).2

def fgetpos (g : Guest) (id : StreamId) : Option Nat × Guest := g.onStreams (·.tell id)

def fsetpos (g : Guest) (id : StreamId) (position : Nat) : Int × Guest :=
  status (g.onStreams (·.seek id (min (position : Int) SignedRange.long.greatest) .start))

def clearerr (g : Guest) (id : StreamId) : Guest := (g.onStreams (·.clearError id)).2

/-- Writes the text of the error number to standard error, behind a message if there is one. -/
def perror (g : Guest) (message : String) : Guest :=
  let text := ErrorNumber.text g.errorNumber
  let pieces := if message = "" then [text, "\n"] else [message, ": ", text, "\n"]
  (g.printError (pieces.map Bytes.ofText)).2

def setvbuf (g : Guest) (id : StreamId) (mode : Int) (size : Nat) : Int × Guest :=
  match BufferMode.ofCode? mode with
  | none => (-1, g.misuse (.unknownBufferMode mode))
  | some mode => status (g.onStreams (·.setBufferMode id mode size))

/-- Lends a grant to a stream as its buffer. -/
def setvbufUser (g : Guest) (id : StreamId) (grant : Allocation) (mode : BufferMode) :
    Int × Guest :=
  status (g.onStreams (·.setUserBuffer id grant mode))

/-- Fetched data, or what waits for a flush; nothing for a closed stream. -/
def buffered (g : Guest) (id : StreamId) : Bytes :=
  match g.system.buffered id with
  | .ok block => block
  | .error _ => []

def remove (g : Guest) : Int × Guest := (-1, g.misuse (.unsupported "remove"))
def rename (g : Guest) : Int × Guest := (-1, g.misuse (.unsupported "rename"))
def tmpnam (g : Guest) : Option String × Guest := (none, g.misuse (.unsupported "tmpnam"))
def tmpfile (g : Guest) : Option StreamId × Guest := (none, g.misuse (.unsupported "tmpfile"))

end GuestLibrary.Guest
