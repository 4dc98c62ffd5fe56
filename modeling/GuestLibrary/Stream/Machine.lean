import GuestLibrary.Heap.Machine
import GuestLibrary.Stream.Table

/-!
Buffers of a size that the program chooses, on a heap that computes on words. All other buffers are
as long as the array of a standard stream or as the data that arrived.
-/
namespace GuestLibrary.StreamSystem.Machine

/-- Releases a grant of a stream. -/
def releaseGrant (sys : StreamSystem) (grant : Option Allocation) : Except Stop (Outcome Unit) := do
  match grant with
  | none => return (.ok (), sys)
  | some grant =>
    let ⟨streams, heap, host⟩ := sys
    match ← Heap.Machine.release heap grant with
    | (.ok (), heap) => return (.ok (), ⟨streams, heap, host⟩)
    | (.error e, heap) => return (.error (.alloc e), ⟨streams, heap, host⟩)

/-- Allocates a buffer. -/
def allocateBuffer (sys : StreamSystem) (size : Nat) : Except Stop (Outcome Allocation) := do
  let ⟨streams, heap, host⟩ := sys
  let ⟨arena, console, source, fetches, nextTicket, minutesWest, now, clock⟩ := host
  let (r, heap, arena) ← Heap.Machine.allocate heap arena size
  let host := ⟨arena, console, source, fetches, nextTicket, minutesWest, now, clock⟩
  return (r.mapError .alloc, ⟨streams, heap, host⟩)

/-- Chooses the buffer of a stream that has none. -/
def chooseBuffer (sys : StreamSystem) (id : StreamId) (mode : BufferMode) (size : Nat) :
    Except Stop (Outcome Unit) := do
  let s := sys.streams.get id
  if mode = .none ∨ s.reserved.any (size ≤ ·.length) then return sys.chooseBuffer id mode size
  else
    match ← allocateBuffer sys (max size 1) with
    | (.ok grant, ⟨streams, heap, host⟩) =>
      return (.ok (),
        ⟨streams.set id { s with storage := .owned grant, capacity := max size 1 }, heap, host⟩)
    | (.error e, ⟨streams, heap, host⟩) =>
      return (.error e, ⟨streams.set id { s with mode := .none }, heap, host⟩)

/-- Replaces the buffer of a stream. -/
def setBufferMode (sys : StreamSystem) (id : StreamId) (mode : BufferMode) (size : Nat) :
    Except Stop (Outcome Unit) := do
  let s := sys.streams.get id
  if !s.isOpen then return (.error (.misuse (.streamNotOpen id)), sys)
  else
    let ⟨streams, heap, host⟩ := sys
    let bare := { s with storage := .empty, cursor := 0, extent := 0, capacity := 0, mode }
    match ← releaseGrant ⟨streams.set id bare, heap, host⟩ s.storage.owned? with
    | (.error e, sys) => return (.error e, sys)
    | (.ok (), sys) => chooseBuffer sys id mode size

end GuestLibrary.StreamSystem.Machine
