import GuestLibrary.Stream.Basic

/-!
The stream table with the heap and the host that its streams work on. The first three slots are
the standard streams and are never handed out.
-/
namespace GuestLibrary

structure StreamTable where
  slots : Vector Stream streamSlots

namespace StreamTable

/-- The table a program starts with: standard input without data, standard output by lines,
standard error without a buffer. -/
def initial : StreamTable :=
  let closed : Vector Stream streamSlots := Vector.replicate streamSlots {}
  ⟨((closed.set StreamId.stdin .standardInput).set StreamId.stdout (.standardOutput "stdout" .line)).set
    StreamId.stderr (.standardOutput "stderr" .none)⟩

def get (t : StreamTable) (id : StreamId) : Stream := t.slots[id]

def set (t : StreamTable) (id : StreamId) (s : Stream) : StreamTable := ⟨t.slots.set id s⟩

/-- Slots that are open. -/
def openIds (t : StreamTable) : List StreamId :=
  (List.finRange streamSlots).filter fun id => (t.get id).isOpen

def openCount (t : StreamTable) : Nat := t.openIds.length

def isReady (t : StreamTable) (id : StreamId) : Bool := (t.get id).isReady

def eof (t : StreamTable) (id : StreamId) : Bool := (t.get id).isOpen && (t.get id).eof

def error (t : StreamTable) (id : StreamId) : Bool := (t.get id).isOpen && (t.get id).error

/-- The first slot that can be opened. -/
def freeSlot? (t : StreamTable) : Option StreamId :=
  (List.finRange streamSlots).find? fun id =>
    StreamId.firstUser ≤ id.val && !(t.get id).isOpen

end StreamTable

/-- What a round of deliveries brought. -/
structure PollReport where
  /-- Slots whose data arrived. -/
  ready : List StreamId := []
  /-- Slots whose data is missing or did not fit the heap. -/
  failed : List StreamId := []
  deriving DecidableEq, Repr

/-- Streams, heap and host together. -/
structure StreamSystem where
  streams : StreamTable := .initial
  heap : Heap
  host : Host

namespace StreamSystem

/-- An outcome and the system after it. -/
abbrev Outcome (α : Type) := Except StreamError α × StreamSystem

/-- Works on an open stream. -/
def onOpen {α : Type} (sys : StreamSystem) (id : StreamId)
    (f : Stream → Host → Except StreamError α × Stream × Host) : Outcome α :=
  let ⟨streams, heap, host⟩ := sys
  let s := streams.get id
  if s.isOpen then
    let (r, s, host) := f s host
    (r, ⟨streams.set id s, heap, host⟩)
  else (.error (.misuse (.streamNotOpen id)), ⟨streams, heap, host⟩)

/-- Clears the end-of-data and error flags. -/
def clearError (sys : StreamSystem) (id : StreamId) : Outcome Unit :=
  sys.onOpen id fun s h => (.ok (), { s with eof := false, error := false }, h)

/-- Releases a grant of a stream. -/
def releaseGrant (sys : StreamSystem) (grant : Option Allocation) : Outcome Unit :=
  match grant with
  | none => (.ok (), sys)
  | some grant =>
    let ⟨streams, heap, host⟩ := sys
    match heap.release grant with
    | (.ok (), heap) => (.ok (), ⟨streams, heap, host⟩)
    | (.error e, heap) => (.error (.alloc e), ⟨streams, heap, host⟩)

/-- Allocates a buffer. -/
def allocateBuffer (sys : StreamSystem) (size : Nat) : Outcome Allocation :=
  let ⟨streams, heap, host⟩ := sys
  let ⟨arena, console, source, fetches, nextTicket, minutesWest, now, clock⟩ := host
  let (r, heap, arena) := heap.allocate arena size
  let host := ⟨arena, console, source, fetches, nextTicket, minutesWest, now, clock⟩
  (r.mapError .alloc, ⟨streams, heap, host⟩)

def modeError? (mode : String) : Option StreamError :=
  if mode = "rb" then none else some (.misuse (.unsupportedOpenMode mode))

/-- Starts a fetch for a slot, behind a buffer that holds its place. -/
def openInto (sys : StreamSystem) (id : StreamId) (name : String) : Outcome Unit :=
  match sys.allocateBuffer streamBufferSize with
  | (.error e, sys) => (.error e, sys)
  | (.ok grant, ⟨streams, heap, host⟩) =>
    let (ticket, host) := host.fetch name
    let s : Stream := {
      state := .opening ticket
      readable := true
      storage := .owned grant
      capacity := streamBufferSize
      name := some name }
    (.ok (), ⟨streams.set id s, heap, host⟩)

/-- Opens a resource for reading. -/
def openStream (sys : StreamSystem) (name mode : String) : Outcome StreamId :=
  match modeError? mode with
  | some e => (.error e, sys)
  | none =>
    match sys.streams.freeSlot? with
    | none => (.error .tableFull, sys)
    | some id =>
      match sys.openInto id name with
      | (.ok (), sys) => (.ok id, sys)
      | (.error e, sys) => (.error e, sys)

/-- Hands what waits in a writable stream to the host. -/
def flush (sys : StreamSystem) (id : StreamId) : Outcome Unit :=
  sys.onOpen id fun s h =>
    let (s, h) := if s.writable then s.flush h else (s, h)
    (.ok (), s, h)

/-- Flushes one slot if it is an open writable stream. -/
def flushSlot (sys : StreamSystem) (id : StreamId) : StreamSystem :=
  let ⟨streams, heap, host⟩ := sys
  let s := streams.get id
  if s.isOpen && s.writable then
    let (s, host) := s.flush host
    ⟨streams.set id s, heap, host⟩
  else ⟨streams, heap, host⟩

/-- Flushes every open writable stream, in the order of the slots. -/
def flushAll (sys : StreamSystem) : StreamSystem :=
  (List.finRange streamSlots).foldl flushSlot sys

/-- Flushes a stream, frees its slot and releases its buffer. -/
def close (sys : StreamSystem) (id : StreamId) : Outcome Unit :=
  match sys.flush id with
  | (.error e, sys) => (.error e, sys)
  | (.ok (), ⟨streams, heap, host⟩) =>
    let s := streams.get id
    releaseGrant ⟨streams.set id {}, heap, host⟩ s.storage.owned?

/-- Opens a resource in a slot, after closing what is open there. -/
def reopen (sys : StreamSystem) (id : StreamId) (name mode : String) : Outcome StreamId :=
  match modeError? mode with
  | some e => (.error e, sys)
  | none =>
    match if (sys.streams.get id).isOpen then sys.close id else (.ok (), sys) with
    | (.error e, sys) => (.error e, sys)
    | (.ok (), sys) =>
      match sys.openInto id name with
      | (.ok (), sys) => (.ok id, sys)
      | (.error e, sys) => (.error e, sys)

/-- Moves fetched data into a grant of its own, with a NUL behind it. -/
def deliver (sys : StreamSystem) (id : StreamId) (content : Bytes) : Outcome Unit :=
  match sys.allocateBuffer (content.length + 1) with
  | (.error e, ⟨streams, heap, host⟩) =>
    (.error e, ⟨streams.set id (streams.get id).failed, heap, host⟩)
  | (.ok grant, ⟨streams, heap, host⟩) =>
    let ⟨arena, console, source, fetches, nextTicket, minutesWest, now, clock⟩ := host
    let arena := arena.write grant.address (content ++ [0])
    let host := ⟨arena, console, source, fetches, nextTicket, minutesWest, now, clock⟩
    let s := streams.get id
    let delivered := { s with
      state := .ready
      storage := .owned grant
      capacity := content.length
      extent := content.length
      cursor := 0
      eof := false
      error := false }
    releaseGrant ⟨streams.set id delivered, heap, host⟩ s.storage.owned?

/-- Collects the delivery of one slot. -/
def pollSlot (state : PollReport × StreamSystem) (id : StreamId) : PollReport × StreamSystem :=
  let (report, ⟨streams, heap, host⟩) := state
  match (streams.get id).state with
  | .opening ticket =>
    match host.poll ticket with
    | (.pending, host) => (report, ⟨streams, heap, host⟩)
    | (.failed, host) =>
      ({ report with failed := report.failed ++ [id] },
        ⟨streams.set id (streams.get id).failed, heap, host⟩)
    | (.ready content, host) =>
      match deliver ⟨streams, heap, host⟩ id content with
      | (.ok (), sys) => ({ report with ready := report.ready ++ [id] }, sys)
      | (.error _, sys) => ({ report with failed := report.failed ++ [id] }, sys)
  | _ => (report, ⟨streams, heap, host⟩)

/-- Collects the deliveries of every slot that waits for one. -/
def poll (sys : StreamSystem) : PollReport × StreamSystem :=
  (List.finRange streamSlots).foldl pollSlot ({}, sys)

def readByte (sys : StreamSystem) (id : StreamId) : Outcome UInt8 :=
  sys.onOpen id fun s h =>
    let (r, s) := s.readByte h.arena.memory
    (r, s, h)

/-- Reads into a buffer by way of a stream. -/
def readInto (sys : StreamSystem) (id : StreamId) (buf : Bytes)
    (f : Stream → LinearMemory → Bytes → Except StreamError Nat × Bytes × Stream) :
    Except StreamError Nat × Bytes × StreamSystem :=
  let ⟨streams, heap, host⟩ := sys
  let s := streams.get id
  let (r, buf, s) := f s host.arena.memory buf
  (r, buf, ⟨streams.set id s, heap, host⟩)

/-- Reads through the next newline. A closed stream fails when the buffer asks for bytes. -/
def readLine (sys : StreamSystem) (id : StreamId) (buf : Bytes) :
    Except StreamError Nat × Bytes × StreamSystem :=
  if !(sys.streams.get id).isOpen && 1 < buf.length then
    (.error (.misuse (.streamNotOpen id)), buf, sys)
  else sys.readInto id buf Stream.readLine

/-- Reads as many bytes as there are. A closed stream fails when the buffer asks for bytes. -/
def read (sys : StreamSystem) (id : StreamId) (buf : Bytes) :
    Except StreamError Nat × Bytes × StreamSystem :=
  if !(sys.streams.get id).isOpen && 0 < buf.length then
    (.error (.misuse (.streamNotOpen id)), buf, sys)
  else sys.readInto id buf Stream.read

def pushBack (sys : StreamSystem) (id : StreamId) (b : UInt8) : Outcome UInt8 :=
  sys.onOpen id fun s h => s.pushBack h id b

def writeByte (sys : StreamSystem) (id : StreamId) (b : UInt8) : Outcome UInt8 :=
  sys.onOpen id fun s h => s.writeByte h id b

def write (sys : StreamSystem) (id : StreamId) (block : Bytes) : Outcome Nat :=
  sys.onOpen id fun s h => s.write h id block

/-- Writes pieces one after the other until one fails: the bytes written in all. -/
def writePieces (id : StreamId) : List Bytes → StreamSystem → Outcome Nat
  | [], sys => (.ok 0, sys)
  | piece :: rest, sys =>
    match sys.write id piece with
    | (.error e, sys) => (.error e, sys)
    | (.ok n, sys) =>
      match writePieces id rest sys with
      | (.ok more, sys) => (.ok (n + more), sys)
      | (.error e, sys) => (.error e, sys)

def seek (sys : StreamSystem) (id : StreamId) (offset : Int) (whence : Whence) : Outcome Unit :=
  sys.onOpen id fun s h =>
    let (r, s) := s.seek id offset whence
    (r, s, h)

def tell (sys : StreamSystem) (id : StreamId) : Outcome Nat :=
  sys.onOpen id fun s h => (s.tell id, s, h)

def rewind (sys : StreamSystem) (id : StreamId) : Outcome Unit :=
  sys.onOpen id fun s h =>
    let (r, s) := s.rewind id
    (r, s, h)

/-- Chooses the buffer of a stream that has none: its own array, if `size` bytes fit it, or a
new grant. -/
def chooseBuffer (sys : StreamSystem) (id : StreamId) (mode : BufferMode) (size : Nat) :
    Outcome Unit :=
  let s := sys.streams.get id
  if mode = .none then (.ok (), sys)
  else if s.reserved.any (size ≤ ·.length) then
    let ⟨streams, heap, host⟩ := sys
    (.ok (), ⟨streams.set id { s with storage := .reserved, capacity := max size 1 }, heap, host⟩)
  else
    match sys.allocateBuffer (max size 1) with
    | (.ok grant, ⟨streams, heap, host⟩) =>
      (.ok (),
        ⟨streams.set id { s with storage := .owned grant, capacity := max size 1 }, heap, host⟩)
    | (.error e, ⟨streams, heap, host⟩) =>
      (.error e, ⟨streams.set id { s with mode := .none }, heap, host⟩)

/-- Replaces the buffer of a stream. What the old one held is lost. -/
def setBufferMode (sys : StreamSystem) (id : StreamId) (mode : BufferMode) (size : Nat) :
    Outcome Unit :=
  let s := sys.streams.get id
  if !s.isOpen then (.error (.misuse (.streamNotOpen id)), sys)
  else
    let ⟨streams, heap, host⟩ := sys
    let bare := { s with storage := .empty, cursor := 0, extent := 0, capacity := 0, mode }
    match releaseGrant ⟨streams.set id bare, heap, host⟩ s.storage.owned? with
    | (.error e, sys) => (.error e, sys)
    | (.ok (), sys) => sys.chooseBuffer id mode size

/-- Lends a grant of the program to a stream as its buffer. -/
def setUserBuffer (sys : StreamSystem) (id : StreamId) (grant : Allocation) (mode : BufferMode) :
    Outcome Unit :=
  let s := sys.streams.get id
  if !s.isOpen then (.error (.misuse (.streamNotOpen id)), sys)
  else
    let ⟨streams, heap, host⟩ := sys
    let lent := { s with
      storage := .borrowed grant
      mode
      capacity := grant.length
      cursor := 0
      extent := 0 }
    releaseGrant ⟨streams.set id lent, heap, host⟩ s.storage.owned?

/-- Fetched data, or what waits for a flush. -/
def buffered (sys : StreamSystem) (id : StreamId) : Except StreamError Bytes :=
  let s := sys.streams.get id
  if s.isOpen then .ok (s.buffered sys.host.arena.memory)
  else .error (.misuse (.streamNotOpen id))

end StreamSystem
end GuestLibrary
