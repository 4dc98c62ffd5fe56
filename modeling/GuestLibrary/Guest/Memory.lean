import GuestLibrary.Algorithm.Sorting
import GuestLibrary.Guest.State

/-!
The memory calls of a guest program: allocation, moves and fills in linear memory, sorting and
searching arrays there. Pointers are addresses, and 0 is the null pointer.
-/
namespace GuestLibrary.Guest

/-- Works on heap and memory; a failure is booked and answered by none. -/
def onHeap {α : Type} (g : Guest) (f : Heap → Arena → Except AllocError α × Heap × Arena) :
    Option α × Guest :=
  let (r, g) := g.onSystem fun ⟨streams, heap, host⟩ =>
    let ⟨arena, console, source, fetches, nextTicket, minutesWest, now, clock⟩ := host
    let (r, heap, arena) := f heap arena
    (r, ⟨streams, heap,
      ⟨arena, console, source, fetches, nextTicket, minutesWest, now, clock⟩⟩)
  match r with
  | .ok x => (some x, g)
  | .error e => (none, g.allocFailed e)

def malloc (g : Guest) (size : Nat) : Option Allocation × Guest :=
  g.onHeap fun h a => h.allocate a size

def calloc (g : Guest) (count size : Nat) : Option Allocation × Guest :=
  g.onHeap fun h a => h.allocateZeroed a count size

def realloc (g : Guest) (grant : Option Allocation) (size : Nat) : Option Allocation × Guest :=
  g.onHeap fun h a => h.reallocate a grant size

def free (g : Guest) (grant : Allocation) : Guest :=
  (g.onHeap fun h a =>
    let (r, h) := h.release grant
    (r, h, a)).2

/-- The live grant at an address. -/
def lookup (g : Guest) (call : HeapCall) (address : Nat) : Option Allocation × Guest :=
  match g.heap.lookup call address with
  | .ok grant => (some grant, g)
  | .error d => (none, g.misuse d)

def freeAddress (g : Guest) (address : Nat) : Guest :=
  (g.onHeap fun h a =>
    let (r, h) := h.releaseAddress address
    (r, h, a)).2

/-- The new address, or 0. -/
def reallocAddress (g : Guest) (address size : Nat) : Nat × Guest :=
  let resize := fun (g : Guest) (grant : Option Allocation) =>
    let (r, g) := g.realloc grant size
    (r.elim 0 (·.address), g)
  if address = 0 then resize g none
  else
    match g.lookup .realloc address with
    | (some grant, g) => resize g (some grant)
    | (none, g) => (0, g)

/-- Bytes of a grant. -/
def bytes (g : Guest) (grant : Allocation) : Bytes :=
  if g.memory.covers grant.address grant.length then g.memory.read grant.address grant.length
  else []

/-- How many bytes of a grant there are to write: none where it does not lie in memory. -/
def room (g : Guest) (grant : Allocation) : Nat :=
  if g.memory.covers grant.address grant.length then grant.length else 0

/-- Writes to linear memory; nothing happens unless the block lies wholly inside. -/
def write (g : Guest) (address : Nat) (block : Bytes) : Guest :=
  g.onArena (·.write address block)

/-- Whether a range lies in memory; one that does not is reported for a call. -/
def inMemory (g : Guest) (call : String) (address n : Nat) : Bool × Guest :=
  if g.memory.covers address n then (true, g)
  else (false, g.misuse (.pointerOutOfBounds call address))

/-- Moves bytes in linear memory; the number moved, 0 for a range outside it. -/
def memmove (g : Guest) (dest src n : Nat) : Nat × Guest :=
  match g.inMemory "memmove" dest n with
  | (false, g) => (0, g)
  | (true, g) =>
    match g.inMemory "memmove" src n with
    | (false, g) => (0, g)
    | (true, g) =>
      (n, if 0 < n ∧ dest ≠ src then g.onArena (·.copyWithin src n dest) else g)

/-- Fills bytes of linear memory, as many as there are; the number filled. -/
def memset (g : Guest) (address : Nat) (value : UInt8) (n : Nat) : Nat × Guest :=
  let count := min n (g.memory.size - address)
  (count, g.write address (List.replicate count value))

/-- Locales are not supported. -/
def strcoll (g : Guest) : Int × Guest := (0, g.misuse (.unsupported "strcoll"))

/-- The array at an address; none, with a report, when it is not in memory. -/
def array? (g : Guest) (call : String) (base count width : Nat) : Option Bytes × Guest :=
  let len := count * width
  if wordLimit ≤ len then (none, g.misuse (.pointerOutOfBounds call base))
  else
    match g.inMemory call base len with
    | (false, g) => (none, g)
    | (true, g) => (some (g.memory.read base len), g)

/-- Sorts `count` elements of `width` bytes in linear memory. -/
def qsort {σ : Type} (g : Guest) (base count width : Nat) (compare : Comparator σ Bytes) (s : σ) :
    σ × Guest :=
  match g.array? "qsort" base count width with
  | (none, g) => (s, g)
  | (some block, g) =>
    let (sorted, s) := Sorting.sortBlock compare block width s
    (s, g.write base sorted)

/-- The address of an element that compares equal to the key, or 0. -/
def bsearch {σ : Type} (g : Guest) (key : Bytes) (base count width : Nat)
    (compare : Comparator σ Bytes) (s : σ) : Nat × σ × Guest :=
  match g.array? "bsearch" base count width with
  | (none, g) => (0, s, g)
  | (some block, g) =>
    let (i, s) := Sorting.searchBlock compare key block width s
    (i.elim 0 (base + · * width), s, g)

end GuestLibrary.Guest
