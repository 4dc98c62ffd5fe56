import GuestLibrary.Heap.Table
import GuestLibrary.Numeral.Stop

/-!
The block table worked on in place, statement by statement. A search reads and writes blocks by
their ids: it looks ahead over the blocks behind a candidate before it touches any of them, takes
them one by one, and cuts what it has. Every id is held against the table, every sum and every
product against the words, and every change of a page count is noted with the count that it found.
-/
namespace GuestLibrary.BlockTable.Machine

/-- A change of a page count. -/
structure Change where
  page : Nat
  /-- The count before. -/
  found : Nat
  /-- A block came; otherwise one went. -/
  came : Bool
  deriving DecidableEq, Repr

/-- A table that is worked on. -/
structure Bench where
  table : BlockTable
  /-- The changes of page counts so far, newest first. -/
  changes : List Change := []

/-- A table without blocks. -/
def Bench.ofCapacity (capacity : Nat) : Bench := { table := { capacity } }

/-- Writes over the block of an id. -/
def Bench.put (w : Bench) (id : Nat) (b : Block) : Bench :=
  { w with table := { w.table with blocks := w.table.blocks.set id b } }

/-- Appends a block. -/
def Bench.append (w : Bench) (b : Block) : Bench :=
  { w with table := { w.table with blocks := w.table.blocks ++ [b] } }

/-- Counts a block on a page or off it. A count of none stays. -/
def Bench.count (w : Bench) (page : Nat) (came : Bool) : Bench :=
  let counts := w.table.perPage
  { table := { w.table with
      perPage := if came then counts.increment page else counts.decrement page }
    changes := ⟨page, counts.count page, came⟩ :: w.changes }

abbrev InPlace (α : Type) := EStateM Stop Bench α

/-- The block of an id. -/
def block (id : Nat) : InPlace Block := do
  let w ← get
  match w.table.get? id with
  | some b => return b
  | none => throw (.index id w.table.size)

def store (id : Nat) (b : Block) : InPlace Unit := do
  let w ← get
  if id < w.table.size then modify (·.put id b) else throw (.index id w.table.size)

def track (page : Nat) (came : Bool) : InPlace Unit := modify (·.count page came)

/-- The address behind a block. -/
def fin (b : Block) : Except Stop Nat := Word.sum b.start b.size

def push (b : Block) : InPlace Unit := do
  track b.page true
  modify (·.append b)

/-- Appends blocks of a region, the last `n` of `count`, of which the next is the block `i`. -/
def pushFrom (start len blockSize count : Nat) : Nat → Nat → InPlace Unit
  | 0, _ => return
  | n + 1, i => do
    let offset ← Word.product i blockSize
    let place ← Word.sum start offset
    let size ← if i + 1 = count then Word.difference len offset else pure blockSize
    push (.free place size)
    pushFrom start len blockSize count n (i + 1)

/-- Appends the blocks of a region: the ids from the first one up to the end. None when they do
not fit. -/
def appendRegion (start len blockSize : Nat) : InPlace (Option (Nat × Nat)) := do
  let count := blocksForRegion len blockSize
  let first := (← get).table.size
  let behind ← Word.sum first count
  if (← get).table.capacity < behind then return none
  else
    pushFrom start len blockSize count count 0
    return some (first, (← get).table.size)

/-- Follows a run of `total` bytes that ends at `runEnd` along the blocks from the id `next` on,
until it has `need` bytes or cannot go on: its bytes, and the id where it stops. -/
def lookAhead (need : Nat) : Nat → Nat → Nat → List Block → Except Stop (Nat × Nat)
  | total, _, next, [] => .ok (total, next)
  | total, runEnd, next, b :: rest =>
    if need ≤ total then .ok (total, next)
    else if b.used then .ok (total, next)
    else if 0 < b.size then
      if b.start ≠ runEnd then .ok (total, next)
      else do
        let total ← Word.sum total b.size
        let runEnd ← fin b
        lookAhead need total runEnd (next + 1) rest
    else lookAhead need total runEnd (next + 1) rest

/-- Empties the blocks of `n` ids from `id` on, and counts those that had a size. -/
def empty : Nat → Nat → Nat → InPlace Nat
  | 0, _, emptied => return emptied
  | n + 1, id, emptied => do
    let b ← block id
    if b.size = 0 then empty n (id + 1) emptied
    else
      track b.page false
      store id b.emptied
      empty n (id + 1) (emptied + 1)

/-- Grows a block by the free blocks behind it until it has `need` bytes: how many it absorbed.
None, and nothing is touched, where they do not suffice. -/
def merge (id need : Nat) : InPlace (Option Nat) := do
  let b ← block id
  let runEnd ← fin b
  let (total, stop) ←
    lookAhead need b.size runEnd (id + 1) ((← get).table.blocks.drop (id + 1))
  if total < need then return none
  else
    let absorbed ← empty (stop - (id + 1)) (id + 1) 0
    let b ← block id
    store id { b with size := total }
    return some absorbed

/-- Whether the block before an id is a hole. -/
def holeBefore (id : Nat) : InPlace Bool := do
  if id = 0 then return false
  else return (← block (id - 1)).isHole

/-- Whether the block behind an id is a hole. -/
def holeBehind (id : Nat) : InPlace Bool := do
  if id + 1 < (← get).table.size then return (← block (id + 1)).isHole
  else return false

/-- Cuts `need` bytes from a block: where they are now. -/
def split (id need : Nat) : InPlace (Nat × SplitKind) := do
  let b ← block id
  if b.size = need then return (id, .perfect)
  else if ← holeBefore id then
    let behind ← Word.sum b.start need
    store (id - 1) { start := b.start, size := need, page := b.page }
    track b.page true
    track b.page false
    store id (.free behind (← Word.difference b.size need))
    track (behind / pageSize) true
    return (id - 1, .before)
  else if ← holeBehind id then
    let behind ← Word.sum b.start need
    store (id + 1) (.free behind (← Word.difference b.size need))
    track (behind / pageSize) true
    let b ← block id
    store id { b with size := need }
    return (id, .after)
  else return (id, .unsplit)

/-- Cuts `need` bytes from a block that absorbed `merged` others, and marks them used. -/
def grant (need id merged : Nat) : InPlace Grant := do
  let (granted, kind) ← split id need
  let b ← block granted
  store granted { b with used := true }
  return ⟨granted, merged, kind⟩

/-- First fit among the `n` blocks from the id on. -/
def search (need : Nat) : Nat → Nat → InPlace (Option Grant)
  | 0, _ => return none
  | n + 1, id => do
    let b ← block id
    if b.used || b.size == 0 then search need n (id + 1)
    else if b.size < need then
      match ← merge id need with
      | some merged => return some (← grant need id merged)
      | none => search need n (id + 1)
    else return some (← grant need id 0)

/-- Grants `need` bytes from the first block from `first` up to `last` that has them, alone or
with the free blocks behind it. -/
def find (first last need : Nat) : InPlace (Option Grant) := do
  let last := min last (← get).table.size
  search need (last - first) first

/-- Marks a block free: whether it was used. -/
def clearUsed (id : Nat) : InPlace Bool := do
  match (← get).table.get? id with
  | some b =>
    store id { b with used := false }
    return b.used
  | none => return false

/-- Marks a block used. -/
def setUsed (id : Nat) : InPlace Unit := do
  match (← get).table.get? id with
  | some b => store id { b with used := true }
  | none => return

/-- What is done to a table. -/
inductive Operation
  | append (start len blockSize : Nat)
  | find (first last need : Nat)
  | clearUsed (id : Nat)
  | setUsed (id : Nat)
  deriving DecidableEq, Repr

def Operation.perform : Operation → InPlace Unit
  | .append start len blockSize => discard (appendRegion start len blockSize)
  | .find first last need => discard (Machine.find first last need)
  | .clearUsed id => discard (Machine.clearUsed id)
  | .setUsed id => Machine.setUsed id

def performAll : List Operation → InPlace Unit
  | [] => return
  | op :: rest => do
    op.perform
    performAll rest

end GuestLibrary.BlockTable.Machine
