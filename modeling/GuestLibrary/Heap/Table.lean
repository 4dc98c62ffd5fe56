import GuestLibrary.Host.Memory

/-!
The block table of a heap. Each region is cut into blocks when it is acquired. A block's id is
its place in the table and stays; a block is used or free, and one whose bytes went to a
neighbour is a hole of size 0 that a later remainder can fill. The ids of blocks that have a size
are in the order of their addresses.
-/
namespace GuestLibrary

structure Block where
  /-- Address of the first byte, header included. -/
  start : Nat := 0
  /-- Bytes covered, header included; 0 in a hole. -/
  size : Nat := 0
  /-- The page that holds the first byte. -/
  page : Nat := 0
  used : Bool := false
  deriving DecidableEq, Repr

namespace Block

def isHole (b : Block) : Bool := !b.used && b.size == 0

/-- Address behind the last byte. -/
def fin (b : Block) : Nat := b.start + b.size

/-- A free block. -/
def free (start size : Nat) : Block := { start, size, page := start / pageSize }

/-- What is left of a block whose bytes went to a neighbour. -/
def emptied (b : Block) : Block := { page := b.page }

end Block

/-- How a grant was cut from the block that was found. -/
inductive SplitKind
  /-- The block had the size asked for. -/
  | perfect
  /-- The hole before the block took the grant. -/
  | before
  /-- The hole behind the block took the remainder. -/
  | after
  /-- There was no hole, so the whole block was granted. -/
  | unsplit
  deriving DecidableEq, Repr

def SplitKind.name : SplitKind → String
  | perfect => "exact"
  | before => "split_before"
  | after => "split_after"
  | unsplit => "unsplit"

/-- A successful search. -/
structure Grant where
  /-- The block that is now used. -/
  id : Nat
  /-- How many blocks the one that was found absorbed. -/
  merged : Nat
  split : SplitKind
  deriving DecidableEq, Repr

/-- How many blocks start on each page. -/
abbrev PageCounts := List (Nat × Nat)

namespace PageCounts

def count (counts : PageCounts) (page : Nat) : Nat := (counts.lookup page).getD 0

/-- Replaces the count of a page. -/
def adjust (f : Nat → Nat) (page : Nat) : PageCounts → PageCounts
  | [] => [(page, f 0)]
  | (p, n) :: rest => if p = page then (p, f n) :: rest else (p, n) :: adjust f page rest

def increment (counts : PageCounts) (page : Nat) : PageCounts := adjust (· + 1) page counts

def decrement (counts : PageCounts) (page : Nat) : PageCounts := adjust (· - 1) page counts

@[simp] theorem count_nil (page : Nat) : count [] page = 0 := rfl

theorem count_cons (p n : Nat) (counts : PageCounts) (page : Nat) :
    count ((p, n) :: counts) page = if page = p then n else count counts page := by
  by_cases h : page = p
  · simp [count, h]
  · simp [count, List.lookup_cons, beq_false_of_ne h, h]

theorem count_adjust (f : Nat → Nat) (counts : PageCounts) (p page : Nat) :
    count (adjust f p counts) page = if page = p then f (counts.count p) else counts.count page := by
  induction counts with
  | nil => rw [adjust, count_cons, count_nil, count_nil]
  | cons c counts ih =>
    obtain ⟨q, n⟩ := c
    by_cases hq : q = p
    · subst hq
      by_cases hpage : page = q <;> simp [adjust, count_cons, hpage]
    · rw [adjust, if_neg hq, count_cons, ih, count_cons, count_cons, if_neg (Ne.symm hq)]
      by_cases hpage : page = q
      · rw [if_pos hpage, if_pos hpage, if_neg (by rw [hpage]; exact hq)]
      · rw [if_neg hpage, if_neg hpage]

theorem count_increment (counts : PageCounts) (p page : Nat) :
    (counts.increment p).count page = if page = p then counts.count p + 1 else counts.count page :=
  count_adjust _ counts p page

theorem count_decrement (counts : PageCounts) (p page : Nat) :
    (counts.decrement p).count page = if page = p then counts.count p - 1 else counts.count page :=
  count_adjust _ counts p page

/-- A block that comes and goes leaves no trace in the counts. -/
theorem count_decrement_increment (counts : PageCounts) (p page : Nat) :
    ((counts.increment p).decrement p).count page = counts.count page := by
  rw [count_decrement, count_increment, count_increment]
  by_cases h : page = p
  · simp [h]
  · simp [h]

end PageCounts

structure BlockTable where
  /-- The blocks by id. -/
  blocks : List Block := []
  /-- Ceiling on the number of blocks. -/
  capacity : Nat
  perPage : PageCounts := []

namespace BlockTable

def size (t : BlockTable) : Nat := t.blocks.length

def get? (t : BlockTable) (id : Nat) : Option Block := t.blocks[id]?

/-- Blocks that start on a page. -/
def blocksOnPage (t : BlockTable) (page : Nat) : Nat := t.perPage.count page

/-- Number of blocks that a region is cut into. -/
def blocksForRegion (len blockSize : Nat) : Nat :=
  if len = 0 then 0 else max (len / max blockSize 1) 1

/-- The blocks of a region: `count` of them, the last one with the tail. -/
def cut (start len blockSize count : Nat) : List Block :=
  (List.range count).map fun i =>
    .free (start + i * blockSize)
      (if i + 1 = count then len - i * blockSize else blockSize)

/-- Appends the blocks of a region: the ids from the first one up to the end. None when they do
not fit. -/
def appendRegion? (t : BlockTable) (start len blockSize : Nat) :
    Option ((Nat × Nat) × BlockTable) :=
  let count := blocksForRegion len blockSize
  if t.capacity < t.size + count then none
  else
    let fresh := cut start len blockSize count
    some ((t.size, t.size + count), { t with
      blocks := t.blocks ++ fresh
      perPage := fresh.foldl (fun counts b => counts.increment b.page) t.perPage })

/-- A run of bytes gathered from the front of a list of blocks. -/
structure Run where
  /-- Size of the run. -/
  total : Nat
  /-- The blocks, those that were absorbed being emptied. -/
  rest : List Block
  /-- Pages of the absorbed blocks. -/
  pages : List Nat

/-- Extends a run of `total` bytes that ends at `fin` by the free blocks behind it until it has
`need` bytes. Holes are skipped; a used block or a gap ends the run. -/
def gather? (need total fin : Nat) : List Block → Option Run
  | [] => if need ≤ total then some ⟨total, [], []⟩ else none
  | b :: rest =>
    if need ≤ total then some ⟨total, b :: rest, []⟩
    else if b.used then none
    else if b.size = 0 then
      (gather? need total fin rest).map fun r => ⟨r.total, b :: r.rest, r.pages⟩
    else if b.start ≠ fin then none
    else
      (gather? need (total + b.size) b.fin rest).map fun r =>
        ⟨r.total, b.emptied :: r.rest, b.page :: r.pages⟩

/-- A grant cut from a block, with the blocks from the one before it on. -/
structure Cutting where
  /-- The grant took the place of the hole before the block that was cut. -/
  isBefore : Bool
  split : SplitKind
  blocks : List Block
  /-- Page of the remainder, if there is one. -/
  remainder : Option Nat

/-- Cuts `need` bytes from a free block. `previous` is the block before it. -/
def divide (previous : Option Block) (b : Block) (rest : List Block) (need : Nat) : Cutting :=
  let granted := { b with size := need, used := true }
  let remainder := Block.free (b.start + need) (b.size - need)
  if b.size = need then ⟨false, .perfect, previous.toList ++ granted :: rest, none⟩
  else if previous.any (·.isHole) then
    ⟨true, .before, granted :: remainder :: rest, some remainder.page⟩
  else if rest.head?.any (·.isHole) then
    ⟨false, .after, previous.toList ++ granted :: remainder :: rest.tail, some remainder.page⟩
  else ⟨false, .unsplit, previous.toList ++ { b with used := true } :: rest, none⟩

/-- A grant, the blocks from the one before the search on, and what became of the pages. -/
structure Found where
  grant : Grant
  blocks : List Block
  absorbed : List Nat
  remainder : Option Nat

/-- Tries to grant `need` bytes from the block `b` of the given id. -/
def grantFrom? (need id : Nat) (previous : Option Block) (b : Block) (rest : List Block) :
    Option Found :=
  if b.used || b.size == 0 then none
  else
    (gather? need b.size b.fin rest).map fun run =>
      let cutting := divide previous { b with size := run.total } run.rest need
      { grant := ⟨if cutting.isBefore then id - 1 else id, run.pages.length, cutting.split⟩
        blocks := cutting.blocks
        absorbed := run.pages
        remainder := cutting.remainder }

/-- First fit among the first `window` blocks of a list. -/
def firstFit? (need : Nat) : Nat → Nat → Option Block → List Block → Option Found
  | 0, _, _, _ => none
  | _ + 1, _, _, [] => none
  | window + 1, id, previous, b :: rest =>
    match grantFrom? need id previous b rest with
    | some found => some found
    | none =>
      (firstFit? need window (id + 1) (some b) rest).map fun found =>
        { found with blocks := previous.toList ++ found.blocks }

/-- Grants `need` bytes from the first block from `first` up to `last` that has them, alone or
with the free blocks behind it. The grant is marked used. -/
def find? (t : BlockTable) (first last need : Nat) : Option (Grant × BlockTable) :=
  let last := min last t.size
  let previous := if first = 0 then none else t.blocks[first - 1]?
  (firstFit? need (last - first) first previous (t.blocks.drop first)).map fun found =>
    (found.grant, { t with
      blocks := t.blocks.take (first - 1) ++ found.blocks
      perPage :=
        let counts := found.absorbed.foldl PageCounts.decrement t.perPage
        found.remainder.elim counts counts.increment })

/-- Whether a block is used. -/
def isUsed (t : BlockTable) (id : Nat) : Bool := (t.get? id).any (·.used)

/-- Marks a block used or free. -/
def setUsed (t : BlockTable) (id : Nat) (used : Bool) : BlockTable :=
  { t with blocks := t.blocks.modify id ({ · with used }) }

end BlockTable
end GuestLibrary
