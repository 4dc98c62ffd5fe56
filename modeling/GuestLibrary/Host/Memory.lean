import GuestLibrary.Bytes.Block

/-!
Linear memory: bytes addressed from 0 that grow by whole pages up to a ceiling. Reads and writes
that are not wholly inside have no effect.
-/
namespace GuestLibrary

/-- Bytes in a page of linear memory. -/
def pageSize : Nat := 65536

/-- Pages that cover `n` bytes. -/
def pagesFor (n : Nat) : Nat := (pageSize - 1 + n) / pageSize

structure LinearMemory where
  bytes : ByteArray
  /-- Ceiling on the number of pages. -/
  maxPages : Nat

namespace LinearMemory

def zeros (n : Nat) : ByteArray := ⟨Array.replicate n 0⟩

/-- A memory of zeroed pages; its ceiling is never below its size. -/
def ofPages (initial maxPages : Nat) : LinearMemory :=
  ⟨zeros (initial * pageSize), max maxPages initial⟩

def size (m : LinearMemory) : Nat := m.bytes.size

def pages (m : LinearMemory) : Nat := m.size / pageSize

/-- Appends zeroed pages: the address of the first one. None past the ceiling. -/
def grow? (m : LinearMemory) (pages : Nat) : Option (Nat × LinearMemory) :=
  if m.maxPages < m.pages + pages then none
  else some (m.size, { m with bytes := m.bytes ++ zeros (pages * pageSize) })

/-- The byte at an address. -/
def get? (m : LinearMemory) (address : Nat) : Option UInt8 := m.bytes[address]?

/-- Whether `n` bytes from an address on are all inside. -/
def covers (m : LinearMemory) (address n : Nat) : Bool := address + n ≤ m.size

/-- The bytes from an address on, as many as there are, at most `n`. -/
def read (m : LinearMemory) (address n : Nat) : Bytes :=
  (m.bytes.extract address (min (address + n) m.size)).data.toList

/-- Stores bytes one after the other. -/
def store (bytes : ByteArray) (address : Nat) : Bytes → ByteArray
  | [] => bytes
  | b :: rest => store (bytes.set! address b) (address + 1) rest

/-- Stores a block that lies wholly inside. -/
def write (m : LinearMemory) (address : Nat) (block : Bytes) : LinearMemory :=
  let ⟨bytes, maxPages⟩ := m
  if address + block.length ≤ bytes.size then ⟨store bytes address block, maxPages⟩
  else ⟨bytes, maxPages⟩

/-- Copies `n` bytes between two places that lie wholly inside and may overlap. -/
def copyWithin (m : LinearMemory) (src n dest : Nat) : LinearMemory :=
  if m.covers src n && m.covers dest n then
    let block := m.read src n
    m.write dest block
  else m

end LinearMemory
end GuestLibrary
