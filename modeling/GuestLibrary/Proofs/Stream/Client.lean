import GuestLibrary.Proofs.Heap.Isolation
import GuestLibrary.Stream.Table

/-! Programs that call the streams, the heap and the host in any order. Beside the system a run
keeps what no call keeps: the grants that the program holds, and what became of the bytes that it
wrote. -/
namespace GuestLibrary

namespace Heap.Request

/-- The call releases and resizes only grants that the program may give back. -/
def Entitled (may : Allocation → Prop) : Request → Prop
  | .reallocate (some grant) _ | .release grant => may grant
  | .releaseAddress address => address = 0 ∨ ∃ g, may g ∧ g.address = address
  | _ => True

/-- What is left of the grants once the call succeeded. -/
def left (held : List Allocation) : Request → List Allocation
  | .reallocate (some grant) _ | .release grant => held.erase grant
  | .releaseAddress address => held.filter (·.address ≠ address)
  | _ => held

/-- The grants that are held after the call. -/
def heldAfter (r : Request) (held : List Allocation) :
    Except AllocError (Option Allocation) → List Allocation
  | .ok grant => grant.toList ++ r.left held
  | .error _ => held

end Heap.Request

namespace Stream

/-- The bytes that wait for a flush. -/
def waiting (s : Stream) (m : LinearMemory) : Bytes := s.bufferFront m s.pending

end Stream

namespace StreamSystem

/-- The bytes that wait in a slot. -/
def waiting (sys : StreamSystem) (id : StreamId) : Bytes :=
  (sys.streams.get id).waiting sys.host.arena.memory

/-- The chunks that the console has and did not have before. -/
def chunksSince (before after : StreamSystem) : List Bytes :=
  after.host.console.chunks.toList.drop before.host.console.chunks.size

end StreamSystem

/-- What became of the bytes of a stream. -/
inductive StreamEvent
  /-- A write of these bytes succeeded. -/
  | accepted (id : StreamId) (bytes : Bytes)
  /-- A chunk went to the console. -/
  | emitted (id : StreamId) (chunk : Bytes)
  /-- A new buffer took the place of one that held these bytes. -/
  | discarded (id : StreamId) (bytes : Bytes)

namespace StreamEvent

def chunk? : StreamEvent → Option Bytes
  | emitted _ chunk => some chunk
  | _ => none

/-- All chunks of a trace, whichever stream they come from. -/
def chunks (trace : List StreamEvent) : List Bytes := trace.filterMap chunk?

end StreamEvent

/-- The books of one stream. -/
structure Account where
  /-- Bytes accepted since the last change of its buffer. -/
  accepted : Bytes := []
  /-- Chunks emitted since then. -/
  emitted : List Bytes := []
  /-- All bytes ever accepted, but for those that were discarded. -/
  kept : Bytes := []
  /-- All bytes ever emitted. -/
  output : Bytes := []

namespace Account

/-- Enters an event of a trace into the books of a stream. -/
def enter (id : StreamId) (books : Account) : StreamEvent → Account
  | .accepted i bytes =>
    if i = id then
      { books with accepted := books.accepted ++ bytes, kept := books.kept ++ bytes }
    else books
  | .emitted i chunk =>
    if i = id then
      { books with emitted := books.emitted ++ [chunk], output := books.output ++ chunk }
    else books
  | .discarded i bytes =>
    if i = id then
      { books with
        accepted := []
        emitted := []
        kept := books.kept.take (books.kept.length - bytes.length) }
    else books

/-- The books of a stream after a trace. -/
def ofTrace (id : StreamId) (trace : List StreamEvent) : Account := trace.foldl (enter id) {}

end Account

/-- A call of a program. -/
inductive Call
  | heap (r : Heap.Request)
  /-- The program writes into linear memory. -/
  | poke (address : Nat) (block : Bytes)
  | addResource (name : String) (content : Bytes)
  /-- The host lets every fetch complete. -/
  | completeFetches
  | openStream (name mode : String)
  | reopen (id : StreamId) (name mode : String)
  | close (id : StreamId)
  | poll
  | setBufferMode (id : StreamId) (mode : BufferMode) (size : Nat)
  | setUserBuffer (id : StreamId) (grant : Allocation) (mode : BufferMode)
  | readByte (id : StreamId)
  | readLine (id : StreamId) (buf : Bytes)
  | read (id : StreamId) (buf : Bytes)
  | pushBack (id : StreamId) (b : UInt8)
  | writeByte (id : StreamId) (b : UInt8)
  | write (id : StreamId) (block : Bytes)
  | writePieces (id : StreamId) (pieces : List Bytes)
  | flush (id : StreamId)
  | flushAll
  | seek (id : StreamId) (offset : Int) (whence : Whence)
  | tell (id : StreamId)
  | rewind (id : StreamId)
  | clearError (id : StreamId)

namespace Call

/-- The call puts a new buffer in the place of the one that a slot has. -/
def Rebuffers (id : StreamId) : Call → Prop
  | .setBufferMode i _ _ | .setUserBuffer i _ _ => i = id
  | _ => False

/-- The call flushes a slot. -/
def Flushes (id : StreamId) : Call → Prop
  | .flush i | .close i => i = id
  | .flushAll => True
  | _ => False

end Call

namespace StreamSystem

/-- Works on the host alone. -/
def onHost (sys : StreamSystem) (f : Host → Host) : StreamSystem :=
  ⟨sys.streams, sys.heap, f sys.host⟩

/-- Serves a heap call of the program. -/
def request (sys : StreamSystem) (r : Heap.Request) :
    Except AllocError (Option Allocation) × StreamSystem :=
  let (result, heap, arena) := sys.heap.perform sys.host.arena r
  (result, ⟨sys.streams, heap, { sys.host with arena }⟩)

/-- The system after a call. -/
def serve (sys : StreamSystem) : Call → StreamSystem
  | .heap r => (sys.request r).2
  | .poke address block => sys.onHost fun h => { h with arena := h.arena.write address block }
  | .addResource name content => sys.onHost (·.addResource name content)
  | .completeFetches => sys.onHost (·.release)
  | .openStream name mode => (sys.openStream name mode).2
  | .reopen id name mode => (sys.reopen id name mode).2
  | .close id => (sys.close id).2
  | .poll => sys.poll.2
  | .setBufferMode id mode size => (sys.setBufferMode id mode size).2
  | .setUserBuffer id grant mode => (sys.setUserBuffer id grant mode).2
  | .readByte id => (sys.readByte id).2
  | .readLine id buf => (sys.readLine id buf).2.2
  | .read id buf => (sys.read id buf).2.2
  | .pushBack id b => (sys.pushBack id b).2
  | .writeByte id b => (sys.writeByte id b).2
  | .write id block => (sys.write id block).2
  | .writePieces id pieces => (writePieces id pieces sys).2
  | .flush id => (sys.flush id).2
  | .flushAll => sys.flushAll
  | .seek id offset whence => (sys.seek id offset whence).2
  | .tell id => (sys.tell id).2
  | .rewind id => (sys.rewind id).2
  | .clearError id => (sys.clearError id).2

/-- The chunks between two states, emitted for one stream. -/
def emissions (before : StreamSystem) (id : StreamId) (after : StreamSystem) : List StreamEvent :=
  (before.chunksSince after).map (.emitted id)

/-- The events of a write: what it emitted and, if it succeeded, what it accepted. -/
def writing {α : Type} (before : StreamSystem) (id : StreamId) (bytes : Bytes)
    (outcome : Outcome α) : List StreamEvent :=
  before.emissions id outcome.2 ++
    match outcome.1 with
    | .ok _ => [.accepted id bytes]
    | .error _ => []

/-- The events of flushing slots one after the other. -/
def flushing (sys : StreamSystem) : List StreamId → List StreamEvent
  | [] => []
  | id :: rest => sys.emissions id (sys.flushSlot id) ++ (sys.flushSlot id).flushing rest

/-- The events of a change of buffers, which takes place in an open slot. -/
def rebuffering (sys : StreamSystem) (id : StreamId) : List StreamEvent :=
  if (sys.streams.get id).isOpen then [.discarded id (sys.waiting id)] else []

/-- What a call does with the bytes of streams. -/
def events (sys : StreamSystem) : Call → List StreamEvent
  | .writeByte id b => sys.writing id [b] (sys.writeByte id b)
  | .write id block => sys.writing id block (sys.write id block)
  | .writePieces id pieces => sys.writing id pieces.flatten (writePieces id pieces sys)
  | .flush id => sys.emissions id (sys.flush id).2
  | .flushAll => sys.flushing (List.finRange streamSlots)
  | .close id => sys.emissions id (sys.close id).2
  | .reopen id name mode => sys.emissions id (sys.reopen id name mode).2
  | .setBufferMode id _ _ | .setUserBuffer id _ _ => sys.rebuffering id
  | _ => []

end StreamSystem

/-- A program in the middle of a run. -/
structure Client where
  system : StreamSystem
  /-- Grants that it obtained from the heap and has not given back. -/
  held : List Allocation := []
  trace : List StreamEvent := []

namespace Client

def start (limits : HeapLimits) (host : Host) : Client :=
  { system := { heap := .ofLimits limits, host } }

/-- The grants held after a call. -/
def heldAfter (c : Client) : Call → List Allocation
  | .heap r => r.heldAfter c.held (c.system.request r).1
  | _ => c.held

def perform (c : Client) (call : Call) : Client where
  system := c.system.serve call
  held := c.heldAfter call
  trace := c.trace ++ c.system.events call

/-- The states that runs of `allowed` calls lead to. -/
inductive Reachable (limits : HeapLimits) (host : Host) (allowed : Client → Call → Prop) :
    Client → Prop
  | start : host.arena.Simulated → Reachable limits host allowed (start limits host)
  | call {c : Client} (call : Call) : Reachable limits host allowed c → allowed c call →
      Reachable limits host allowed (c.perform call)

/-- The program gives back only grants that it holds. -/
def Entitled (c : Client) : Call → Prop
  | .heap r => r.Entitled (· ∈ c.held)
  | _ => True

/-- A grant is the buffer of some stream. -/
def Lends (c : Client) (g : Allocation) : Prop :=
  ∃ id, (c.system.streams.get id).storage = .borrowed g

/-- The program lends a grant of its own to one stream at a time and leaves what it lent alone. -/
def Careful (c : Client) : Call → Prop
  | .heap r => r.Entitled fun g => g ∈ c.held ∧ ¬ c.Lends g
  | .poke address block => ∀ id g, (c.system.streams.get id).storage.grant? = some g →
      address + block.length ≤ g.address ∨ g.address + g.length ≤ address
  | .setUserBuffer id grant _ => grant ∈ c.held ∧
      ∀ i ≠ id, (c.system.streams.get i).storage ≠ .borrowed grant
  | _ => True

/-- With these events all that a stream accepted, but for what was discarded, is out. -/
structure Drained (c : Client) (id : StreamId) (sys : StreamSystem) (events : List StreamEvent) :
    Prop where
  waiting_eq : sys.waiting id = []
  output_eq : (Account.ofTrace id (c.trace ++ events)).output = (Account.ofTrace id c.trace).kept

end Client
end GuestLibrary
