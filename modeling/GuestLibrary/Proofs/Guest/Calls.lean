import GuestLibrary.Guest.Memory
import GuestLibrary.Guest.Program
import GuestLibrary.Proofs.Stream.Client

/-! Runs of a guest program: it calls the library, sets the error number, reports diagnostics of its
own and uses the heap directly, in any order, while its surroundings change the host. -/
namespace GuestLibrary

/-- The calls of the library that change a program, by the type of what they answer. -/
inductive LibraryCall : Type → Type 1
  | malloc (size : Nat) : LibraryCall (Option Allocation)
  | calloc (count size : Nat) : LibraryCall (Option Allocation)
  | realloc (grant : Option Allocation) (size : Nat) : LibraryCall (Option Allocation)
  | free (grant : Allocation) : LibraryCall Unit
  | lookup (call : HeapCall) (address : Nat) : LibraryCall (Option Allocation)
  | freeAddress (address : Nat) : LibraryCall Unit
  | reallocAddress (address size : Nat) : LibraryCall Nat
  | memmove (dest src n : Nat) : LibraryCall Nat
  | memset (address : Nat) (value : UInt8) (n : Nat) : LibraryCall Nat
  | strcoll : LibraryCall Int
  | qsort {σ : Type} (base count width : Nat) (compare : Comparator σ Bytes) (s : σ) : LibraryCall σ
  | bsearch {σ : Type} (key : Bytes) (base count width : Nat) (compare : Comparator σ Bytes)
      (s : σ) : LibraryCall (Nat × σ)
  | fopen (name mode : String) : LibraryCall (Option StreamId)
  | freopen (name mode : String) (id : StreamId) : LibraryCall (Option StreamId)
  | fclose (id : StreamId) : LibraryCall Int
  | poll : LibraryCall PollReport
  | fgetc (id : StreamId) : LibraryCall Int
  | getchar : LibraryCall Int
  | fgets (buf : Bytes) (id : StreamId) : LibraryCall (Option Nat × Bytes)
  | fread (buf : Bytes) (id : StreamId) : LibraryCall (Nat × Bytes)
  | ungetc (b : UInt8) (id : StreamId) : LibraryCall Int
  | fputc (b : UInt8) (id : StreamId) : LibraryCall Int
  | putchar (b : UInt8) : LibraryCall Int
  | fputs (s : Bytes) (id : StreamId) : LibraryCall Int
  | puts (s : Bytes) : LibraryCall Int
  | fwrite (block : Bytes) (id : StreamId) : LibraryCall Nat
  | fprint (id : StreamId) (pieces : List Bytes) : LibraryCall Int
  | print (pieces : List Bytes) : LibraryCall Int
  | printError (pieces : List Bytes) : LibraryCall Int
  | fflush (id : Option StreamId) : LibraryCall Int
  | fseek (id : StreamId) (offset whence : Int) : LibraryCall Int
  | ftell (id : StreamId) : LibraryCall Int
  | rewind (id : StreamId) : LibraryCall Unit
  | fgetpos (id : StreamId) : LibraryCall (Option Nat)
  | fsetpos (id : StreamId) (position : Nat) : LibraryCall Int
  | clearerr (id : StreamId) : LibraryCall Unit
  | perror (message : String) : LibraryCall Unit
  | setvbuf (id : StreamId) (mode : Int) (size : Nat) : LibraryCall Int
  | setvbufUser (id : StreamId) (grant : Allocation) (mode : BufferMode) : LibraryCall Int
  | remove : LibraryCall Int
  | rename : LibraryCall Int
  | tmpnam : LibraryCall (Option String)
  | tmpfile : LibraryCall (Option StreamId)
  | gmtime (t : Int) : LibraryCall (Option Calendar)
  | localtime (t : Int) : LibraryCall (Option Calendar)
  | ctime (t : Int) : LibraryCall (Option String)
  | strtol (s : Bytes) (base : Int) : LibraryCall (Int × Nat)
  | strtoul (s : Bytes) (base : Int) : LibraryCall (Nat × Nat)
  | strtod (s : Bytes) : LibraryCall (Double × Nat)
  | strtof (s : Bytes) : LibraryCall (Single × Nat)
  | rand : LibraryCall Nat
  | srand (seed : UInt32) : LibraryCall Unit
  | atexit (handler : ExitHandler) : LibraryCall Int
  | atQuickExit (handler : ExitHandler) : LibraryCall Int
  | exit (status : Int) : LibraryCall Termination
  | quickExit (status : Int) : LibraryCall Termination
  | abort : LibraryCall Termination
  | assertFail (message file line : String) : LibraryCall Termination

/-- Answers a call. -/
def LibraryCall.perform (g : Guest) : {α : Type} → LibraryCall α → α × Guest
  | _, .malloc size => g.malloc size
  | _, .calloc count size => g.calloc count size
  | _, .realloc grant size => g.realloc grant size
  | _, .free grant => ((), g.free grant)
  | _, .lookup call address => g.lookup call address
  | _, .freeAddress address => ((), g.freeAddress address)
  | _, .reallocAddress address size => g.reallocAddress address size
  | _, .memmove dest src n => g.memmove dest src n
  | _, .memset address value n => g.memset address value n
  | _, .strcoll => g.strcoll
  | _, .qsort base count width compare s => g.qsort base count width compare s
  | _, .bsearch key base count width compare s =>
    let (address, s, g) := g.bsearch key base count width compare s
    ((address, s), g)
  | _, .fopen name mode => g.fopen name mode
  | _, .freopen name mode id => g.freopen name mode id
  | _, .fclose id => g.fclose id
  | _, .poll => g.poll
  | _, .fgetc id => g.fgetc id
  | _, .getchar => g.getchar
  | _, .fgets buf id =>
    let (r, buf, g) := g.fgets buf id
    ((r, buf), g)
  | _, .fread buf id =>
    let (n, buf, g) := g.fread buf id
    ((n, buf), g)
  | _, .ungetc b id => g.ungetc b id
  | _, .fputc b id => g.fputc b id
  | _, .putchar b => g.putchar b
  | _, .fputs s id => g.fputs s id
  | _, .puts s => g.puts s
  | _, .fwrite block id => g.fwrite block id
  | _, .fprint id pieces => g.fprint id pieces
  | _, .print pieces => g.print pieces
  | _, .printError pieces => g.printError pieces
  | _, .fflush id => g.fflush id
  | _, .fseek id offset whence => g.fseek id offset whence
  | _, .ftell id => g.ftell id
  | _, .rewind id => ((), g.rewind id)
  | _, .fgetpos id => g.fgetpos id
  | _, .fsetpos id position => g.fsetpos id position
  | _, .clearerr id => ((), g.clearerr id)
  | _, .perror message => ((), g.perror message)
  | _, .setvbuf id mode size => g.setvbuf id mode size
  | _, .setvbufUser id grant mode => g.setvbufUser id grant mode
  | _, .remove => g.remove
  | _, .rename => g.rename
  | _, .tmpnam => g.tmpnam
  | _, .tmpfile => g.tmpfile
  | _, .gmtime t => g.gmtime t
  | _, .localtime t => g.localtime t
  | _, .ctime t => g.ctime t
  | _, .strtol s base => g.strtol s base
  | _, .strtoul s base => g.strtoul s base
  | _, .strtod s => g.strtod s
  | _, .strtof s => g.strtof s
  | _, .rand => g.rand
  | _, .srand seed => ((), g.srand seed)
  | _, .atexit handler => g.atexit handler
  | _, .atQuickExit handler => g.atQuickExit handler
  | _, .exit status => g.exit status
  | _, .quickExit status => g.quickExit status
  | _, .abort => g.abort
  | _, .assertFail message file line => g.assertFail message file line

/-- What the surroundings of a program do to its host. -/
inductive HostEvent
  | poke (address : Nat) (block : Bytes)
  | addResource (name : String) (content : Bytes)
  | completeFetches
  | setNow (now : Int)
  | setZone (minutesWest : Int)
  | advanceClock (milliseconds : Int)

def HostEvent.apply (h : Host) : HostEvent → Host
  | poke address block => { h with arena := h.arena.write address block }
  | addResource name content => h.addResource name content
  | completeFetches => h.release
  | setNow now => { h with now }
  | setZone minutesWest => { h with minutesWest }
  | advanceClock milliseconds => { h with clock := h.clock + milliseconds }

namespace Guest

/-- One step of a program or of its surroundings. -/
inductive Step : Type 1
  | call {α : Type} (c : LibraryCall α)
  | setErrorNumber (number : Int)
  | report (d : Diagnostic)
  /-- The program asks the heap itself. -/
  | heap (r : Heap.Request)
  | drainLog
  | host (e : HostEvent)

/-- An answer with its type. -/
abbrev Answer := Σ α : Type, α

/-- Makes a step: what it answers, and the program after it. -/
def step (g : Guest) : Step → Answer × Guest
  | .call c =>
    let (r, g) := c.perform g
    (⟨_, r⟩, g)
  | .setErrorNumber number => (⟨Unit, ()⟩, g.setErrorNumber number)
  | .report d => (⟨Unit, ()⟩, g.report d)
  | .heap r =>
    let (r, g) := g.onSystem (·.request r)
    (⟨_, r⟩, g)
  | .drainLog =>
    let (records, g) := g.onSystem fun ⟨streams, heap, host⟩ =>
      let (records, heap) := heap.drainLog
      (records, ⟨streams, heap, host⟩)
    (⟨_, records⟩, g)
  | .host e => (⟨Unit, ()⟩, g.onHost e.apply)

/-- The states that the steps of a program lead to. -/
inductive Reachable (host : Host) (config : GuestConfig) : Guest → Prop
  | start : Reachable host config (Guest.start host config)
  | step {g : Guest} (s : Step) : Reachable host config g → Reachable host config (g.step s).2

end Guest
end GuestLibrary
