import GuestLibrary.Heap.Basic

/-!
Buffered streams. A stream's buffer is an array of its own (standard output streams have one), a
grant that the stream owns, or a grant lent by the program. In a readable stream the buffer holds
the fetched data and the cursor is the next byte to read; in a writable one the bytes before the
cursor wait for a flush.
-/
namespace GuestLibrary

/-- Default size of a stream buffer. -/
def streamBufferSize : Nat := 512

/-- Number of stream slots, standard streams included. -/
def streamSlots : Nat := 16

/-- A slot of the stream table. -/
abbrev StreamId := Fin streamSlots

namespace StreamId

def stdin : StreamId := ⟨0, by decide⟩
def stdout : StreamId := ⟨1, by decide⟩
def stderr : StreamId := ⟨2, by decide⟩

/-- The first slot that can be opened. -/
def firstUser : Nat := 3

def ofIndex? (i : Nat) : Option StreamId := if h : i < streamSlots then some ⟨i, h⟩ else none

end StreamId

/-- When a writable stream flushes by itself. -/
inductive BufferMode
  /-- When its buffer is full. -/
  | full
  /-- After each newline, and when its buffer is full. -/
  | line
  /-- It has no buffer: each write is one chunk. -/
  | none
  deriving DecidableEq, Repr

namespace BufferMode

/-- The C constant of a mode. -/
def code : BufferMode → Int
  | full => 0
  | line => 1
  | none => 2

def ofCode? (code : Int) : Option BufferMode :=
  if code = 0 then some full else if code = 1 then some line
  else if code = 2 then some none else Option.none

end BufferMode

/-- What a seek counts from. -/
inductive Whence
  | current
  | fin
  | start
  deriving DecidableEq, Repr

namespace Whence

/-- The C constant of a reference point. -/
def code : Whence → Int
  | current => 0
  | fin => 1
  | start => 2

def ofCode? (code : Int) : Option Whence :=
  if code = 0 then some current else if code = 1 then some fin
  else if code = 2 then some start else none

end Whence

/-- Where the bytes of a buffer are. -/
inductive BufferStorage
  | empty
  /-- The slot's own array. -/
  | reserved
  /-- A grant that the stream releases when it closes or changes its buffer. -/
  | owned (grant : Allocation)
  /-- A grant of the program, which is never released here. -/
  | borrowed (grant : Allocation)
  deriving DecidableEq, Repr

namespace BufferStorage

/-- The grant that the stream has to release. -/
def owned? : BufferStorage → Option Allocation
  | owned grant => some grant
  | _ => none

/-- The grant that holds the bytes. -/
def grant? : BufferStorage → Option Allocation
  | owned grant | borrowed grant => some grant
  | _ => none

def inLinearMemory (s : BufferStorage) : Bool := s.grant?.isSome

end BufferStorage

inductive StreamState
  | closed
  /-- Waits for a fetch. -/
  | opening (ticket : Nat)
  | ready
  /-- Open, but without data. -/
  | unavailable
  deriving DecidableEq, Repr

/-- Why a stream operation failed. -/
inductive StreamError
  | tableFull
  | notReady
  | endOfData
  | outOfRange (target : Int) (extent : Nat)
  | noBufferSpace
  | alloc (e : AllocError)
  | misuse (d : Diagnostic)
  deriving DecidableEq, Repr

namespace StreamError

def message : StreamError → String
  | tableFull => "all stream slots are in use"
  | notReady => "stream data has not arrived"
  | endOfData => "end of data"
  | outOfRange target extent =>
    "position " ++ toString target ++ " is outside 0..=" ++ toString extent
  | noBufferSpace => "stream buffer has no room"
  | alloc e => "stream buffer allocation failed: " ++ e.message
  | misuse d => d.message

/-- The diagnostic behind a failure. -/
def diagnostic? : StreamError → Option Diagnostic
  | misuse d | alloc (.misuse d) => some d
  | _ => none

end StreamError

structure Stream where
  state : StreamState := .closed
  error : Bool := false
  eof : Bool := false
  readable : Bool := false
  writable : Bool := false
  mode : BufferMode := .full
  storage : BufferStorage := .empty
  /-- The array of a standard output stream. -/
  reserved : Option Bytes := none
  /-- Usable bytes of the buffer. -/
  capacity : Nat := 0
  /-- The next byte to read, or the number of bytes that wait for a flush. -/
  cursor : Nat := 0
  /-- Bytes of fetched data. -/
  extent : Nat := 0
  name : Option String := none
  deriving DecidableEq, Repr

namespace Stream

/-- Present from the start, though nothing ever arrives on it. -/
def standardInput : Stream :=
  { state := .unavailable, error := true, eof := true, name := some "stdin" }

/-- Writable from the start, with an array of its own. -/
def standardOutput (name : String) (mode : BufferMode) : Stream :=
  { state := .ready, writable := true, mode, storage := .reserved
    reserved := some (List.replicate streamBufferSize 0), capacity := streamBufferSize
    name := some name }

def isOpen (s : Stream) : Bool := s.state ≠ .closed

def isReady (s : Stream) : Bool := s.state = .ready

/-- A stream whose data will not arrive. -/
def failed (s : Stream) : Stream := { s with state := .unavailable, error := true, eof := true }

/-- Bytes that wait for a flush. -/
def pending (s : Stream) : Nat := if s.writable then s.cursor else 0

/-- Length of the buffer. -/
def bufferLength (s : Stream) (m : LinearMemory) : Nat :=
  match s.storage with
  | .empty => 0
  | .reserved => (s.reserved.getD []).length
  | .owned grant | .borrowed grant =>
    if m.covers grant.address grant.length then grant.length else 0

/-- The first `n` bytes of the buffer, or all of it. -/
def bufferFront (s : Stream) (m : LinearMemory) (n : Nat) : Bytes :=
  match s.storage with
  | .empty => []
  | .reserved => (s.reserved.getD []).take n
  | .owned grant | .borrowed grant => m.read grant.address (min n (s.bufferLength m))

/-- A byte of the buffer. -/
def bufferByte? (s : Stream) (m : LinearMemory) (i : Nat) : Option UInt8 :=
  if i < s.bufferLength m then
    match s.storage with
    | .empty => none
    | .reserved => (s.reserved.getD [])[i]?
    | .owned grant | .borrowed grant => m.get? (grant.address + i)
  else none

/-- Stores a byte in the buffer; none when it has no such place. -/
def storeByte? (s : Stream) (a : Arena) (i : Nat) (b : UInt8) : Option (Stream × Arena) :=
  if i < s.bufferLength a.memory then
    match s.storage with
    | .empty => none
    | .reserved => some ({ s with reserved := s.reserved.map (·.set i b) }, a)
    | .owned grant | .borrowed grant => some (s, a.write (grant.address + i) [b])
  else none

/-- Emits what waits as one chunk. -/
def flush (s : Stream) (h : Host) : Stream × Host :=
  if s.cursor = 0 then (s, h)
  else ({ s with cursor := 0 }, h.emit (s.bufferFront h.arena.memory s.cursor))

/-- Reads the next byte. -/
def readByte (s : Stream) (m : LinearMemory) : Except StreamError UInt8 × Stream :=
  if !s.readable then (.error .endOfData, if s.writable then { s with eof := true } else s)
  else if !s.isReady then (.error .notReady, s)
  else if s.extent ≤ s.cursor then (.error .endOfData, { s with eof := true })
  else
    match s.bufferByte? m s.cursor with
    | some b => (.ok b, { s with cursor := s.cursor + 1 })
    | none => (.error .endOfData, { s with error := true })

/-- Reads bytes until `n` are read, one satisfies `stop`, or reading fails. -/
def readWhile (stop : UInt8 → Bool) (m : LinearMemory) :
    Nat → Stream → Bytes × Option StreamError × Stream
  | 0, s => ([], none, s)
  | n + 1, s =>
    match s.readByte m with
    | (.error e, s) => ([], some e, s)
    | (.ok b, s) =>
      if stop b then ([b], none, s)
      else
        let (rest, e, s) := readWhile stop m n s
        (b :: rest, e, s)

/-- Reads through the next newline into `buf`, leaving room for the NUL behind it. -/
def readLine (s : Stream) (m : LinearMemory) (buf : Bytes) :
    Except StreamError Nat × Bytes × Stream :=
  match s.readWhile (· == 10) m (buf.length - 1) with
  | ([], some e, s) => (.error e, buf, s)
  | (got, _, s) => (.ok got.length, buf.overwrite 0 ((got ++ [0]).take buf.length), s)

/-- Reads as many bytes as `buf` holds; the end of the data is no failure. -/
def read (s : Stream) (m : LinearMemory) (buf : Bytes) :
    Except StreamError Nat × Bytes × Stream :=
  match s.readWhile (fun _ => false) m buf.length with
  | ([], some e, s) => (if e = .endOfData then .ok 0 else .error e, buf, s)
  | (got, _, s) => (.ok got.length, buf.overwrite 0 got, s)

/-- Writes go straight to the console. -/
def isUnbuffered (s : Stream) : Bool := s.mode = .none || s.capacity = 0

/-- Writes one byte and flushes as the buffering mode says. The answer is the byte. -/
def writeByte (s : Stream) (h : Host) (id : StreamId) (b : UInt8) :
    Except StreamError UInt8 × Stream × Host :=
  if !s.writable then (.error (.misuse (.writeToReadOnly id)), { s with error := true }, h)
  else if s.isUnbuffered then (.ok b, s, h.emit [b])
  else
    let (s, h) := if s.capacity ≤ s.cursor then s.flush h else (s, h)
    let ⟨arena, console, source, fetches, nextTicket, minutesWest, now, clock⟩ := h
    match s.storeByte? arena s.cursor b with
    | none =>
      (.error .noBufferSpace, { s with error := true },
        ⟨arena, console, source, fetches, nextTicket, minutesWest, now, clock⟩)
    | some (s, arena) =>
      let s := { s with cursor := s.cursor + 1 }
      let h : Host := ⟨arena, console, source, fetches, nextTicket, minutesWest, now, clock⟩
      let (s, h) := if s.mode = .line ∧ b = 10 then s.flush h else (s, h)
      (.ok b, s, h)

/-- Writes bytes one after the other until one fails. -/
def writeBytes (id : StreamId) : Bytes → Stream → Host → Except StreamError Unit × Stream × Host
  | [], s, h => (.ok (), s, h)
  | b :: rest, s, h =>
    match s.writeByte h id b with
    | (.ok _, s, h) => writeBytes id rest s h
    | (.error e, s, h) => (.error e, s, h)

/-- Writes a block; without a buffer it becomes one chunk. -/
def write (s : Stream) (h : Host) (id : StreamId) (block : Bytes) :
    Except StreamError Nat × Stream × Host :=
  if s.writable && s.isUnbuffered then
    (.ok block.length, s, if block.isEmpty then h else h.emit block)
  else
    match writeBytes id block s h with
    | (.ok (), s, h) => (.ok block.length, s, h)
    | (.error e, s, h) => (.error e, s, h)

/-- Steps back one byte and stores another in its place, which is the answer. -/
def pushBack (s : Stream) (h : Host) (id : StreamId) (b : UInt8) :
    Except StreamError UInt8 × Stream × Host :=
  if !s.readable || !s.isReady || s.cursor = 0 then
    (.error (.misuse (.pushBackRejected id)), s, h)
  else
    let ⟨arena, console, source, fetches, nextTicket, minutesWest, now, clock⟩ := h
    let s := { s with cursor := s.cursor - 1, eof := false }
    let (s, arena) := (s.storeByte? arena s.cursor b).getD (s, arena)
    (.ok b, s, ⟨arena, console, source, fetches, nextTicket, minutesWest, now, clock⟩)

/-- What keeps a stream from being positioned. -/
def positioningError? (s : Stream) (id : StreamId) (operation : String) : Option StreamError :=
  if !s.readable then
    some (if s.writable then .misuse (.positioningUnsupported operation id) else .notReady)
  else if !s.isReady then some .notReady
  else none

/-- Moves the cursor within the fetched data. -/
def seek (s : Stream) (id : StreamId) (offset : Int) (whence : Whence) :
    Except StreamError Unit × Stream :=
  match s.positioningError? id "fseek" with
  | some e => (.error e, s)
  | none =>
    let moveTo := fun (target : Int) =>
      if 0 ≤ target ∧ target ≤ s.extent then
        (Except.ok (), { s with cursor := target.toNat, eof := false })
      else (.error (.outOfRange (min target SignedRange.long.greatest) s.extent), s)
    match whence with
    | .start => moveTo offset
    | .current => moveTo (s.cursor + offset)
    | .fin => (.error (.misuse (.seekFromEnd id)), s)

/-- Position of the cursor. -/
def tell (s : Stream) (id : StreamId) : Except StreamError Nat :=
  match s.positioningError? id "ftell" with
  | some e => .error e
  | none => .ok s.cursor

/-- Back to the start, with both flags cleared. -/
def rewind (s : Stream) (id : StreamId) : Except StreamError Unit × Stream :=
  match s.positioningError? id "rewind" with
  | some e => (.error e, s)
  | none => (.ok (), { s with cursor := 0, eof := false, error := false })

/-- Fetched data, or what waits for a flush. -/
def buffered (s : Stream) (m : LinearMemory) : Bytes :=
  s.bufferFront m (if s.readable then s.extent else s.cursor)

end Stream
end GuestLibrary
