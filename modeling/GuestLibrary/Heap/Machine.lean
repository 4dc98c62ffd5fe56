import GuestLibrary.Heap.Basic
import GuestLibrary.Heap.Table.Machine

/-!
The heap on machine words. Searches and regions work on the block table in place, and every sum,
difference and product on the way is held against the words: the addresses, the totals that a record
shows, and the length of a region, which is formed before any ceiling is looked at. A buffer has to
be one that there can be. What a call answers is answered without an overflow on the way; a call
that is stopped answers nothing and leaves no heap behind.
-/
namespace GuestLibrary.Heap.Machine

open BlockTable.Machine (InPlace)

/-- Bytes that a block takes in the buffer of its table. -/
def blockBytes : Nat := 32

/-- A heap whose table has a buffer. -/
def ofLimits (limits : HeapLimits) : Except Stop Heap := do
  let _ ← Word.buffer (limits.maxBlocks * blockBytes)
  return .ofLimits limits

/-- Works on a block table in place. -/
def onTable {α : Type} (t : BlockTable) (f : InPlace α) : Except Stop (α × BlockTable) :=
  match f.run { table := t } with
  | .ok x w => .ok (x, w.table)
  | .error stop _ => .error stop

def find (t : BlockTable) (first need : Nat) : Except Stop (Option Grant × BlockTable) :=
  onTable t (BlockTable.Machine.find first t.size need)

/-- The totals are sums over the regions and over the blocks. -/
def stats (h : Heap) : Except Stop HeapStats := do
  let s := h.stats
  let _ ← Word.total s.pages
  let _ ← Word.total s.usedBytes
  let _ ← Word.total s.freeBytes
  return s

def record (h : Heap) (call : HeapCall) (event : HeapEvent) : Except Stop Heap := do
  let _ ← stats h
  return h.record call event

def nextRegion (h : Heap) (a : Arena) (need : Nat) : Except Stop (Option Nat × Nat × Nat) := do
  if h.regions.isEmpty then
    let tail := a.memory.size - a.heapBase
    let grow := pagesFor (need - tail)
    let len ← Word.sum tail (← Word.product grow pageSize)
    return (some a.heapBase, len, grow)
  else
    let grow := pagesFor need
    let len ← Word.product grow pageSize
    return (none, len, grow)

/-- The pages are counted before they are held against the ceiling, and a count that is no word is
past it. The bytes of the memory need a buffer. -/
def growMemory (a : Arena) (pages : Nat) : Except Stop (Option (Nat × Arena)) := do
  let next := a.memory.pages + pages
  if wordLimit ≤ next ∨ a.memory.maxPages < next then return none
  else
    let _ ← Word.buffer (← Word.product next pageSize)
    return a.grow? pages

/-- Lays a region out. None where memory refuses to grow. -/
def layOut (a : Arena) (start : Option Nat) (len grow pages : Nat) :
    Except Stop (Option (Region × Arena)) := do
  match start, grow with
  | some start, 0 => return some (⟨start, len, pages⟩, a)
  | start, grow =>
    match ← growMemory a grow with
    | none => return none
    | some (base, grown) =>
      match start with
      | none => return some (⟨base, ← Word.product grow pageSize, grow⟩, grown)
      | some start =>
        if (← Word.sum start (a.memory.size - a.heapBase)) = base then
          return some (⟨start, len, pages⟩, grown)
        else return some (⟨base, ← Word.product grow pageSize, grow⟩, grown)

def addRegion (h : Heap) (a : Arena) (call : HeapCall) (need : Nat) :
    Except Stop (Except AllocError Unit × Heap × Arena) := do
  let refuse := fun (event : HeapEvent) (a : Arena) =>
    (do return (.error (.exhausted need), ← record h call event, a) :
      Except Stop (Except AllocError Unit × Heap × Arena))
  let (start, len, grow) ← nextRegion h a need
  let pages := pagesFor len
  let acquired ← Word.total h.pagesAcquired
  if h.limits.maxPages < (← Word.sum acquired pages) then
    refuse (.pageLimit need h.pagesAcquired pages h.limits.maxPages) a
  else
    let blocks := BlockTable.blocksForRegion len h.limits.blockSize
    if h.table.capacity < (← Word.sum h.table.size blocks) then
      refuse (.blockLimit need h.table.size blocks h.table.capacity) a
    else
      match ← layOut a start len grow pages with
      | none => refuse (.growthRefused need grow) a
      | some (region, a) =>
        let (ids, table) ← onTable h.table
          (BlockTable.Machine.appendRegion region.start region.len h.limits.blockSize)
        match ids with
        | none => refuse (.cutRejected region.start region.len) a
        | some (first, last) =>
          let h ← record { h with table, regions := h.regions ++ [region] } call
            (.pagesAdded region.start region.len grow region.pages first last)
          return (.ok (), h, a)

def searchGrowing (h : Heap) (a : Arena) (call : HeapCall) (need : Nat) :
    Except Stop (Except AllocError Grant × Heap × Arena) := do
  match ← find h.table 0 need with
  | (some grant, table) => return (.ok grant, { h with table }, a)
  | (none, table) =>
    match ← addRegion { h with table } a call need with
    | (.error e, h, a) => return (.error e, h, a)
    | (.ok (), h, a) =>
      match ← find h.table 0 need with
      | (some grant, table) => return (.ok grant, { h with table }, a)
      | (none, table) => return (.error (.exhausted need), { h with table }, a)

def commit? (h : Heap) (a : Arena) (grant : Grant) :
    Except Stop (Option (Allocation × Heap × Arena)) := do
  match h.table.get? grant.id with
  | none => return none
  | some b =>
    let _ ← Word.sum b.start blockHeader
    return h.commit? a grant

def allocateFor (h : Heap) (a : Arena) (call : HeapCall) (size : Nat) :
    Except Stop (Except AllocError Allocation × Heap × Arena) := do
  let need := size + blockHeader
  if wordLimit ≤ need then
    return (.error .overflow, ← record h call (.sizeOverflow size), a)
  else
    match ← searchGrowing h a call need with
    | (.error e, h, a) => return (.error e, ← record h call (.exhausted size need), a)
    | (.ok grant, h, a) =>
      match ← commit? h a grant with
      | none => return (.error (.exhausted need), h, a)
      | some (allocation, h, a) =>
        let h ← record h call
          (.allocated allocation.address size grant.id grant.split grant.merged)
        return (.ok allocation, h, a)

def allocate (h : Heap) (a : Arena) (size : Nat) :
    Except Stop (Except AllocError Allocation × Heap × Arena) :=
  allocateFor h a .malloc size

def allocateZeroed (h : Heap) (a : Arena) (count size : Nat) :
    Except Stop (Except AllocError Allocation × Heap × Arena) := do
  let total := count * size
  if wordLimit ≤ total then
    return (.error .overflow, ← record h .calloc (.productOverflow count size), a)
  else
    match ← allocateFor h a .calloc total with
    | (.error e, h, a) => return (.error e, h, a)
    | (.ok allocation, h, a) =>
      let _ ← Word.sum allocation.address allocation.length
      return (.ok allocation, h, a.write allocation.address (List.replicate allocation.length 0))

/-- The address of the block that a grant names is formed before the block is looked at further. -/
def validate (h : Heap) (call : HeapCall) (grant : Allocation) :
    Except Stop (Except Diagnostic Block) := do
  match h.table.get? grant.block with
  | none => return h.validate call grant
  | some b =>
    let _ ← Word.sum b.start blockHeader
    return h.validate call grant

/-- Whether an address lies in a region. -/
def owns (address : Nat) : List Region → Except Stop Bool
  | [] => return false
  | r :: rest => do
    if r.start ≤ address then
      if address < (← Word.sum r.start r.len) then return true else owns address rest
    else owns address rest

/-- The id of the first block whose grant has an address, counted from `id` on. -/
def blockAt? (address : Nat) : Nat → List Block → Except Stop (Option Nat)
  | _, [] => return none
  | id, b :: rest => do
    if 0 < b.size then
      if (← Word.sum b.start blockHeader) = address then return some id
      else blockAt? address (id + 1) rest
    else blockAt? address (id + 1) rest

def lookup (h : Heap) (call : HeapCall) (address : Nat) :
    Except Stop (Except Diagnostic Allocation) := do
  match (List.lookup address h.live).bind (h.handle? · address) with
  | some grant => return .ok grant
  | none =>
    if !(← owns address h.regions) then return .error (.pointerOutOfBounds call.name address)
    else
      match ← blockAt? address 0 h.table.blocks with
      | some block =>
        return .error (if call = .free then .doubleRelease address block
          else .invalidPointer call.name address)
      | none => return .error (.invalidPointer call.name address)

def release (h : Heap) (grant : Allocation) : Except Stop (Except AllocError Unit × Heap) := do
  match ← validate h .free grant with
  | .error d =>
    let h ← record h .free (.rejected d grant.address none (some grant.block))
    return (.error (.misuse d), h)
  | .ok _ =>
    let (_, table) ← onTable h.table (BlockTable.Machine.clearUsed grant.block)
    let h ← record { h with table, live := LiveGrants.erase h.live grant.address } .free
      (.released grant.address grant.length grant.block)
    return (.ok (), h)

def releaseAddress (h : Heap) (address : Nat) : Except Stop (Except AllocError Unit × Heap) := do
  if address = 0 then return (.ok (), ← record h .free .releasedNull)
  else
    match ← lookup h .free address with
    | .ok grant => release h grant
    | .error d =>
      return (.error (.misuse d), ← record h .free (.rejected d address none none))

def searchReplacement (h : Heap) (a : Arena) (block need : Nat) :
    Except Stop (Option (Grant × SearchWindow) × Heap × Arena) := do
  match ← find h.table block need with
  | (some grant, table) => return (some (grant, .forward), { h with table }, a)
  | (none, table) =>
    match ← find table 0 need with
    | (some grant, table) => return (some (grant, .fullScan), { h with table }, a)
    | (none, table) =>
      match ← addRegion { h with table } a .realloc need with
      | (.error _, h, a) => return (none, h, a)
      | (.ok (), h, a) =>
        match ← find h.table 0 need with
        | (some grant, table) => return (some (grant, .grown), { h with table }, a)
        | (none, table) => return (none, { h with table }, a)

def resizeLive (h : Heap) (a : Arena) (current : Allocation) (old : Block) (size need : Nat) :
    Except Stop (Except AllocError Allocation × Heap × Arena) := do
  let (_, table) ← onTable h.table (BlockTable.Machine.clearUsed current.block)
  match ← searchReplacement { h with table } a current.block need with
  | (none, h, a) =>
    let ((), table) ← onTable h.table (BlockTable.Machine.setUsed current.block)
    let h ← record { h with table } .realloc
      (.resizeExhausted current.address size current.block need)
    return (.error (.exhausted need), h, a)
  | (some (grant, window), h, a) =>
    match h.table.get? grant.id with
    | none => return (.error (.exhausted need), h, a)
    | some b =>
      let address ← Word.sum b.start blockHeader
      let keep := min (← Word.difference old.size blockHeader) size
      let behind ← Word.sum current.address keep
      let _ ← if behind ≤ a.memory.size then Word.sum address keep else pure 0
      let a := a.copyWithin current.address keep address
      match ← commit? { h with live := LiveGrants.erase h.live current.address } a grant with
      | none =>
        return (.error (.exhausted need),
          { h with live := LiveGrants.erase h.live current.address }, a)
      | some (allocation, h, a) =>
        let h ← record h .realloc (.moved allocation.address size grant.id current.address
          current.block window keep grant.split)
        return (.ok allocation, h, a)

def resize (h : Heap) (a : Arena) (current : Allocation) (size : Nat) :
    Except Stop (Except AllocError Allocation × Heap × Arena) := do
  match ← validate h .realloc current with
  | .error d =>
    let h ← record h .realloc (.rejected d current.address (some size) (some current.block))
    return (.error (.misuse d), h, a)
  | .ok old =>
    let need := size + blockHeader
    if wordLimit ≤ need then return (.error .overflow, h, a)
    else if need ≤ old.size then
      let h ← record h .realloc (.fits current.address size current.block old.size)
      return (.ok current, h, a)
    else resizeLive h a current old size need

def reallocate (h : Heap) (a : Arena) (current : Option Allocation) (size : Nat) :
    Except Stop (Except AllocError Allocation × Heap × Arena) :=
  match current with
  | none => allocateFor h a .realloc size
  | some current => resize h a current size

end GuestLibrary.Heap.Machine
