import GuestLibrary.Guest.Memory
import GuestLibrary.Guest.Stream
import GuestLibrary.Stream.Machine

/-!
The calls by which a guest program chooses a size or an address of its heap, with the heap on words.
A call that the heap is stopped in stops the program: it answers nothing, and nothing is booked.
-/
namespace GuestLibrary.Guest.Machine

/-- A program at its start, once its heap has got its table. -/
def start (host : Host) (config : GuestConfig) : Except Stop Guest := do
  let heap ← Heap.Machine.ofLimits config.limits
  return { config, system := { heap, host } }

/-- Works on streams, heap and host. -/
def onSystem {α : Type} (g : Guest) (f : StreamSystem → Except Stop (α × StreamSystem)) :
    Except Stop (α × Guest) := do
  let ⟨config, system, calendar, counts, errorNumber, random, exits, quickExits⟩ := g
  let (r, system) ← f system
  return (r, ⟨config, system, calendar, counts, errorNumber, random, exits, quickExits⟩)

/-- Works on the heap; a failure is booked and answered by none. -/
def onHeap {α : Type} (g : Guest)
    (f : Heap → Arena → Except Stop (Except AllocError α × Heap × Arena)) :
    Except Stop (Option α × Guest) := do
  let (r, g) ← onSystem g fun ⟨streams, heap, host⟩ => do
    let ⟨arena, console, source, fetches, nextTicket, minutesWest, now, clock⟩ := host
    let (r, heap, arena) ← f heap arena
    return (r, ⟨streams, heap,
      ⟨arena, console, source, fetches, nextTicket, minutesWest, now, clock⟩⟩)
  match r with
  | .ok x => return (some x, g)
  | .error e => return (none, g.allocFailed e)

def malloc (g : Guest) (size : Nat) : Except Stop (Option Allocation × Guest) :=
  onHeap g fun h a => Heap.Machine.allocate h a size

def calloc (g : Guest) (count size : Nat) : Except Stop (Option Allocation × Guest) :=
  onHeap g fun h a => Heap.Machine.allocateZeroed h a count size

def realloc (g : Guest) (grant : Option Allocation) (size : Nat) :
    Except Stop (Option Allocation × Guest) :=
  onHeap g fun h a => Heap.Machine.reallocate h a grant size

def free (g : Guest) (grant : Allocation) : Except Stop Guest := do
  let (_, g) ← onHeap g fun h a => do
    let (r, h) ← Heap.Machine.release h grant
    return (r, h, a)
  return g

/-- The live grant at an address. -/
def lookup (g : Guest) (call : HeapCall) (address : Nat) :
    Except Stop (Option Allocation × Guest) := do
  match ← Heap.Machine.lookup g.heap call address with
  | .ok grant => return (some grant, g)
  | .error d => return (none, g.misuse d)

def freeAddress (g : Guest) (address : Nat) : Except Stop Guest := do
  let (_, g) ← onHeap g fun h a => do
    let (r, h) ← Heap.Machine.releaseAddress h address
    return (r, h, a)
  return g

/-- The new address, or 0. -/
def reallocAddress (g : Guest) (address size : Nat) : Except Stop (Nat × Guest) := do
  let resize := fun (g : Guest) (grant : Option Allocation) =>
    (do
      let (r, g) ← realloc g grant size
      return (r.elim 0 (·.address), g) : Except Stop (Nat × Guest))
  if address = 0 then resize g none
  else
    match ← lookup g .realloc address with
    | (some grant, g) => resize g (some grant)
    | (none, g) => return (0, g)

def setvbuf (g : Guest) (id : StreamId) (mode : Int) (size : Nat) : Except Stop (Int × Guest) := do
  match BufferMode.ofCode? mode with
  | none => return (-1, g.misuse (.unknownBufferMode mode))
  | some mode =>
    match ← onSystem g fun sys => StreamSystem.Machine.setBufferMode sys id mode size with
    | (.ok (), g) => return (0, g)
    | (.error e, g) => return (eof, g.streamFailed e)

end GuestLibrary.Guest.Machine
