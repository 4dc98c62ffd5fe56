import GuestLibrary.Heap.Log
import GuestLibrary.Host.Basic

/-!
A first-fit heap in linear memory. Memory is acquired in regions of whole pages that are cut into
blocks; a request that no block can hold merges the free blocks behind its candidate. The block
table decides everything: the block id that is stamped in front of a grant is never read back.
-/
namespace GuestLibrary

/-- Bytes in front of every grant, which hold its block id. -/
def blockHeader : Nat := 4

/-- Ceilings of a heap. -/
structure HeapLimits where
  maxPages : Nat := 16
  blocksPerPage : Nat := 32
  deriving DecidableEq, Repr

namespace HeapLimits

/-- Size of a block that was cut and neither merged nor split. -/
def blockSize (l : HeapLimits) : Nat := pageSize / max 1 (min l.blocksPerPage pageSize)

/-- Ceiling on the number of blocks. -/
def maxBlocks (l : HeapLimits) : Nat := min (l.maxPages * l.blocksPerPage) (wordLimit - 1)

end HeapLimits

/-- A grant of memory. It names its block next to its address. -/
structure Allocation where
  block : Nat
  /-- First usable byte. -/
  address : Nat
  /-- Usable bytes; at least those asked for. -/
  length : Nat
  deriving DecidableEq, Repr

/-- Why a call on a heap failed. -/
inductive AllocError
  | exhausted (requested : Nat)
  | overflow
  | misuse (d : Diagnostic)
  deriving DecidableEq, Repr

def AllocError.message : AllocError → String
  | exhausted requested => "heap exhausted while looking for " ++ toString requested ++ " bytes"
  | overflow => "allocation size overflows"
  | misuse d => d.message

/-- A stretch of memory that belongs to a heap. -/
structure Region where
  start : Nat
  len : Nat
  pages : Nat
  deriving DecidableEq, Repr

def Region.contains (r : Region) (address : Nat) : Bool :=
  r.start ≤ address && address < r.start + r.len

/-- The block of every live grant by its usable address, in the order of addresses. -/
abbrev LiveGrants := List (Nat × Nat)

namespace LiveGrants

def insert (address block : Nat) : LiveGrants → LiveGrants
  | [] => [(address, block)]
  | (a, b) :: rest =>
    if address < a then (address, block) :: (a, b) :: rest
    else if address = a then (address, block) :: rest
    else (a, b) :: insert address block rest

def erase (live : LiveGrants) (address : Nat) : LiveGrants := live.filter (·.1 ≠ address)

end LiveGrants

structure Heap where
  limits : HeapLimits := {}
  table : BlockTable
  regions : List Region := []
  live : LiveGrants := []
  /-- Number of the next decision. -/
  nextDecision : Nat := 1
  /-- The lifecycle log, newest record first. -/
  log : List HeapRecord := []

namespace Heap

/-- Records that a lifecycle log keeps. -/
def logCapacity : Nat := 4096

def ofLimits (limits : HeapLimits) : Heap := { limits, table := { capacity := limits.maxBlocks } }

def pagesAcquired (h : Heap) : Nat := h.regions.foldr (fun r pages => r.pages + pages) 0

/-- Counts one block in. -/
def tally (s : HeapStats) (b : Block) : HeapStats :=
  if b.isHole then { s with holes := s.holes + 1 }
  else if b.used then { s with active := s.active + 1, usedBytes := s.usedBytes + b.size }
  else { s with freeBytes := s.freeBytes + b.size }

def stats (h : Heap) : HeapStats :=
  h.table.blocks.foldl tally { pages := h.pagesAcquired, descriptors := h.table.size }

/-- Appends a record to the log, which loses its oldest one when it is full. -/
def record (h : Heap) (call : HeapCall) (event : HeapEvent) : Heap :=
  let r : HeapRecord := ⟨h.nextDecision, call, event, h.stats⟩
  { h with
    nextDecision := (h.nextDecision + 1) % wordLimit
    log := (r :: h.log).take logCapacity }

/-- The records, oldest first. -/
def records (h : Heap) : List HeapRecord := h.log.reverse

/-- The records, and the heap without them. -/
def drainLog (h : Heap) : List HeapRecord × Heap := (h.records, { h with log := [] })

/-- The grant of a block at an address. -/
def handle? (h : Heap) (block address : Nat) : Option Allocation :=
  (h.table.get? block).map fun b => ⟨block, address, b.size - blockHeader⟩

/-- The live grants, in the order of their addresses. -/
def liveAllocations (h : Heap) : List Allocation :=
  h.live.filterMap fun (address, block) => h.handle? block address

def liveCount (h : Heap) : Nat := h.live.length

/-- Whether an address lies in a region of the heap. -/
def owns (h : Heap) (address : Nat) : Bool := h.regions.any (·.contains address)

/-- The place and the length of the next region, for a request of `need` bytes, and by how many
pages the memory grows for it. The first region uses what is left behind the heap base. -/
def nextRegion (h : Heap) (a : Arena) (need : Nat) : Option Nat × Nat × Nat :=
  if h.regions.isEmpty then
    let tail := a.memory.size - a.heapBase
    let grow := pagesFor (need - tail)
    (some a.heapBase, tail + grow * pageSize, grow)
  else
    let grow := pagesFor need
    (none, grow * pageSize, grow)

/-- Acquires a region for `need` bytes and cuts it into blocks. -/
def addRegion (h : Heap) (a : Arena) (call : HeapCall) (need : Nat) :
    Except AllocError Unit × Heap × Arena :=
  let (start, len, grow) := h.nextRegion a need
  let pages := pagesFor len
  let blocks := BlockTable.blocksForRegion len h.limits.blockSize
  let refuse := fun (event : HeapEvent) (a : Arena) =>
    (Except.error (.exhausted need), h.record call event, a)
  if h.limits.maxPages < h.pagesAcquired + pages then
    refuse (.pageLimit need h.pagesAcquired pages h.limits.maxPages) a
  else if h.table.capacity < h.table.size + blocks then
    refuse (.blockLimit need h.table.size blocks h.table.capacity) a
  else
    let place : Option (Region × Arena) := match start, grow with
      | some start, 0 => some (⟨start, len, pages⟩, a)
      | start, grow =>
        (a.grow? grow).map fun (base, a) =>
          match start with
          | some start =>
            if start + (len - grow * pageSize) = base then (⟨start, len, pages⟩, a)
            else (⟨base, grow * pageSize, grow⟩, a)
          | none => (⟨base, grow * pageSize, grow⟩, a)
    match place with
    | none => refuse (.growthRefused need grow) a
    | some (region, a) =>
      match h.table.appendRegion? region.start region.len h.limits.blockSize with
      | none => refuse (.cutRejected region.start region.len) a
      | some ((first, last), table) =>
        let h := { h with table, regions := h.regions ++ [region] }
        (.ok (), h.record call
          (.pagesAdded region.start region.len grow region.pages first last), a)

/-- Searches the whole table, and once more after acquiring a region if nothing fits. -/
def searchGrowing (h : Heap) (a : Arena) (call : HeapCall) (need : Nat) :
    Except AllocError Grant × Heap × Arena :=
  match h.table.find? 0 h.table.size need with
  | some (grant, table) => (.ok grant, { h with table }, a)
  | none =>
    match h.addRegion a call need with
    | (.error e, h, a) => (.error e, h, a)
    | (.ok (), h, a) =>
      match h.table.find? 0 h.table.size need with
      | some (grant, table) => (.ok grant, { h with table }, a)
      | none => (.error (.exhausted need), h, a)

/-- The bytes of a block id in memory, least significant first. -/
def headerBytes (block : Nat) : Bytes :=
  [UInt8.ofNat block, UInt8.ofNat (block / 256), UInt8.ofNat (block / 65536),
    UInt8.ofNat (block / 16777216)]

/-- Stamps the header of a grant and makes it live. -/
def commit? (h : Heap) (a : Arena) (grant : Grant) : Option (Allocation × Heap × Arena) :=
  match h.table.get? grant.id with
  | none => none
  | some b =>
    let address := b.start + blockHeader
    some (⟨grant.id, address, b.size - blockHeader⟩,
      { h with live := LiveGrants.insert address grant.id h.live },
      a.write b.start (headerBytes grant.id))

/-- Allocates at least `size` usable bytes for a call. -/
def allocateFor (h : Heap) (a : Arena) (call : HeapCall) (size : Nat) :
    Except AllocError Allocation × Heap × Arena :=
  let need := size + blockHeader
  if wordLimit ≤ need then (.error .overflow, h.record call (.sizeOverflow size), a)
  else
    match h.searchGrowing a call need with
    | (.error e, h, a) => (.error e, h.record call (.exhausted size need), a)
    | (.ok grant, h, a) =>
      match h.commit? a grant with
      | none => (.error (.exhausted need), h, a)
      | some (allocation, h, a) =>
        (.ok allocation, h.record call
          (.allocated allocation.address size grant.id grant.split grant.merged), a)

/-- Allocates at least `size` usable bytes. -/
def allocate (h : Heap) (a : Arena) (size : Nat) :
    Except AllocError Allocation × Heap × Arena :=
  h.allocateFor a .malloc size

/-- Allocates `count * size` bytes and sets the whole grant to zero. -/
def allocateZeroed (h : Heap) (a : Arena) (count size : Nat) :
    Except AllocError Allocation × Heap × Arena :=
  let total := count * size
  if wordLimit ≤ total then
    (.error .overflow, h.record .calloc (.productOverflow count size), a)
  else
    match h.allocateFor a .calloc total with
    | (.error e, h, a) => (.error e, h, a)
    | (.ok allocation, h, a) =>
      (.ok allocation, h,
        a.write allocation.address (List.replicate allocation.length 0))

/-- The block of a live grant. -/
def validate (h : Heap) (call : HeapCall) (grant : Allocation) : Except Diagnostic Block :=
  match h.table.get? grant.block with
  | none => .error (.pointerOutOfBounds call.name grant.address)
  | some b =>
    if b.start + blockHeader ≠ grant.address ∨ b.size = 0 then
      .error (.invalidPointer call.name grant.address)
    else if !b.used then
      .error (if call = .free then .doubleRelease grant.address grant.block
        else .invalidPointer call.name grant.address)
    else .ok b

/-- The live grant at an address. -/
def lookup (h : Heap) (call : HeapCall) (address : Nat) : Except Diagnostic Allocation :=
  match (List.lookup address h.live).bind (h.handle? · address) with
  | some grant => .ok grant
  | none =>
    if !h.owns address then .error (.pointerOutOfBounds call.name address)
    else
      let wasBlock := fun (b : Block) => 0 < b.size && b.start + blockHeader == address
      match h.table.blocks.findIdx? wasBlock with
      | some block =>
        .error (if call = .free then .doubleRelease address block
          else .invalidPointer call.name address)
      | none => .error (.invalidPointer call.name address)

/-- Returns a grant to the free blocks. -/
def release (h : Heap) (grant : Allocation) : Except AllocError Unit × Heap :=
  match h.validate .free grant with
  | .error d =>
    (.error (.misuse d),
      h.record .free (.rejected d grant.address none (some grant.block)))
  | .ok _ =>
    let h := { h with
      table := h.table.setUsed grant.block false
      live := LiveGrants.erase h.live grant.address }
    (.ok (), h.record .free (.released grant.address grant.length grant.block))

/-- Returns the grant at an address to the free blocks; nothing happens at address 0. -/
def releaseAddress (h : Heap) (address : Nat) : Except AllocError Unit × Heap :=
  if address = 0 then (.ok (), h.record .free .releasedNull)
  else
    match h.lookup .free address with
    | .ok grant => h.release grant
    | .error d => (.error (.misuse d), h.record .free (.rejected d address none none))

/-- Finds `need` bytes in place of a block that was just marked free: from that block on, then
anywhere, then with a new region. -/
def searchReplacement (h : Heap) (a : Arena) (block need : Nat) :
    Option (Grant × SearchWindow) × Heap × Arena :=
  match h.table.find? block h.table.size need with
  | some (grant, table) => (some (grant, .forward), { h with table }, a)
  | none =>
    match h.table.find? 0 h.table.size need with
    | some (grant, table) => (some (grant, .fullScan), { h with table }, a)
    | none =>
      match h.addRegion a .realloc need with
      | (.error _, h, a) => (none, h, a)
      | (.ok (), h, a) =>
        match h.table.find? 0 h.table.size need with
        | some (grant, table) => (some (grant, .grown), { h with table }, a)
        | none => (none, h, a)

/-- Resizes a live grant whose block is `old` to at least `size` usable bytes, `need` with the
header. -/
def resizeLive (h : Heap) (a : Arena) (current : Allocation) (old : Block) (size need : Nat) :
    Except AllocError Allocation × Heap × Arena :=
  let freed := { h with table := h.table.setUsed current.block false }
  match freed.searchReplacement a current.block need with
  | (none, h, a) =>
    let h := { h with table := h.table.setUsed current.block true }
    (.error (.exhausted need),
      h.record .realloc (.resizeExhausted current.address size current.block need), a)
  | (some (grant, window), h, a) =>
    match h.table.get? grant.id with
    | none => (.error (.exhausted need), h, a)
    | some b =>
      let keep := min (old.size - blockHeader) size
      let a := a.copyWithin current.address keep (b.start + blockHeader)
      let h := { h with live := LiveGrants.erase h.live current.address }
      match h.commit? a grant with
      | none => (.error (.exhausted need), h, a)
      | some (allocation, h, a) =>
        (.ok allocation, h.record .realloc
          (.moved allocation.address size grant.id current.address current.block window keep
            grant.split), a)

/-- Resizes a grant to at least `size` usable bytes. Its first bytes move along, as many as both
sizes hold; on failure it stays as it was. -/
def resize (h : Heap) (a : Arena) (current : Allocation) (size : Nat) :
    Except AllocError Allocation × Heap × Arena :=
  match h.validate .realloc current with
  | .error d =>
    (.error (.misuse d),
      h.record .realloc (.rejected d current.address (some size) (some current.block)), a)
  | .ok old =>
    let need := size + blockHeader
    if wordLimit ≤ need then (.error .overflow, h, a)
    else if need ≤ old.size then
      (.ok current,
        h.record .realloc (.fits current.address size current.block old.size), a)
    else h.resizeLive a current old size need

/-- Resizes a grant, or allocates where there is none. -/
def reallocate (h : Heap) (a : Arena) (current : Option Allocation) (size : Nat) :
    Except AllocError Allocation × Heap × Arena :=
  match current with
  | none => h.allocateFor a .realloc size
  | some current => h.resize a current size

end Heap
end GuestLibrary
