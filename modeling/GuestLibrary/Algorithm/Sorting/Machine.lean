import GuestLibrary.Algorithm.Sorting
import GuestLibrary.Numeral.Checked

/-!
Sorting and searching on machine words. Runs are merged to and fro between an array and a scratch
copy of it, and elements are found by their indices. Each index is formed as a word and each range
of bytes is held against the block that it lies in, so what a computation answers is answered
without a trap on the way. A loop is given steps, and traps when they do not suffice.
-/
namespace GuestLibrary.Sorting.Machine

variable {σ : Type}

/-- The bytes from `start` up to `stop`. -/
def slice (block : Bytes) (start stop : Nat) : Except Trap Bytes :=
  if start ≤ stop ∧ stop ≤ block.length then .ok (block.extract start stop) else .error .index

/-- Writes `source` over the bytes from `start` up to `stop`, which are as many. -/
def store (block : Bytes) (start stop : Nat) (source : Bytes) : Except Trap Bytes :=
  if start ≤ stop ∧ stop ≤ block.length ∧ source.length = stop - start then
    .ok (block.overwrite start source)
  else .error .index

/-- Where the element `i` starts and stops. -/
def bounds (width i : Nat) : Except Trap (Nat × Nat) := do
  let start ← Trap.size (i * width)
  let next ← Trap.size (i + 1)
  return (start, ← Trap.size (next * width))

/-- The element `i` of a block. -/
def element (width : Nat) (block : Bytes) (i : Nat) : Except Trap Bytes := do
  let (start, stop) ← bounds width i
  slice block start stop

/-- Writes over the element `i`. -/
def storeElement (width : Nat) (block : Bytes) (i : Nat) (x : Bytes) : Except Trap Bytes := do
  let (start, stop) ← bounds width i
  store block start stop x

/-- Copies the elements from `first` up to `last` to the place of the element `out`. -/
def copyRest (width : Nat) (src : Bytes) (first last out : Nat) (dst : Bytes) :
    Except Trap Bytes := do
  let rest ← slice src (← Trap.size (first * width)) (← Trap.size (last * width))
  let start ← Trap.size (out * width)
  store dst start (← Trap.size (start + rest.length)) rest

/-- Merges the runs `[left, mid)` and `[right, stop)` of `src` into `dst`, from `out` on. The left
one wins ties. -/
def merge (compare : Comparator σ Bytes) (width : Nat) (src : Bytes) (mid stop : Nat) :
    Nat → Nat → Nat → Nat → Bytes → σ → Except Trap (Bytes × σ)
  | 0, _, _, _, _, _ => .error .endless
  | steps + 1, left, right, out, dst, s => do
    if left < mid ∧ right < stop then
      let y ← element width src right
      let x ← element width src left
      let (c, s) := compare y x s
      if c < 0 then
        let next ← Trap.size (right + 1)
        let dst ← storeElement width dst out y
        merge compare width src mid stop steps left next (← Trap.size (out + 1)) dst s
      else
        let next ← Trap.size (left + 1)
        let dst ← storeElement width dst out x
        merge compare width src mid stop steps next right (← Trap.size (out + 1)) dst s
    else if left < mid then return (← copyRest width src left mid out dst, s)
    else return (← copyRest width src right stop out dst, s)

/-- Merges neighbouring runs of `run` elements of `src` into `dst`, from the element `start` on. -/
def mergePairs (compare : Comparator σ Bytes) (width : Nat) (src : Bytes) (run : Nat) :
    Nat → Nat → Bytes → σ → Except Trap (Bytes × σ)
  | 0, _, _, _ => .error .endless
  | steps + 1, start, dst, s => do
    let count := src.length / width
    if start < count then
      let mid := min (← Trap.size (start + run)) count
      let stop := min (← Trap.size (start + (← Trap.size (2 * run)))) count
      let (dst, s) ← merge compare width src mid stop (stop - start + 1) start mid start dst s
      mergePairs compare width src run steps stop dst s
    else return (dst, s)

/-- Merges runs of `run` elements, of twice as many, and so on, until one run is left. The runs are
in the first `len` bytes of `base` when `inBase` holds, and in `scratch` otherwise, as is the last:
the answer says where. -/
def mergeRounds (compare : Comparator σ Bytes) (width count len : Nat) :
    Nat → Nat → Bool → Bytes → Bytes → σ → Except Trap (Bool × Bytes × Bytes × σ)
  | 0, _, _, _, _, _ => .error .endless
  | steps + 1, run, inBase, base, scratch, s => do
    if run < count then
      if inBase then
        let src ← slice base 0 len
        let (scratch, s) ← mergePairs compare width src run (count + 1) 0 scratch s
        mergeRounds compare width count len steps (← Trap.size (run * 2)) false base scratch s
      else
        let dst ← slice base 0 len
        let (dst, s) ← mergePairs compare width scratch run (count + 1) 0 dst s
        let base ← store base 0 len dst
        mergeRounds compare width count len steps (← Trap.size (run * 2)) true base scratch s
    else return (inBase, base, scratch, s)

/-- Sorts the whole elements of a block; bytes past the last one stay. -/
def sortBlock (compare : Comparator σ Bytes) (base : Bytes) (width : Nat) (s : σ) :
    Except Trap (Bytes × σ) := do
  if width = 0 then return (base, s)
  let count := base.length / width
  if count < 2 then return (base, s)
  let len ← Trap.size (count * width)
  let scratch := List.replicate len 0
  let (inBase, base, scratch, s) ← mergeRounds compare width count len count 1 true base scratch s
  if inBase then return (base, s)
  else return (← store base 0 len scratch, s)

/-- Halves the range `[low, high)` of elements until the key compares equal to the middle one. -/
def searchWithin (compare : Comparator σ Bytes) (key block : Bytes) (width : Nat) :
    Nat → Nat → Nat → σ → Except Trap (Option Nat × σ)
  | 0, _, _, _ => .error .endless
  | steps + 1, low, high, s => do
    if low < high then
      let mid ← Trap.size (low + (high - low) / 2)
      let (c, s) := compare key (← element width block mid) s
      if c = 0 then return (some mid, s)
      else if c < 0 then searchWithin compare key block width steps low mid s
      else searchWithin compare key block width steps (← Trap.size (mid + 1)) high s
    else return (none, s)

/-- Binary search of the whole elements of a block for one that compares equal to the key. -/
def searchBlock (compare : Comparator σ Bytes) (key block : Bytes) (width : Nat) (s : σ) :
    Except Trap (Option Nat × σ) :=
  if width = 0 then return (none, s)
  else
    let count := block.length / width
    searchWithin compare key block width (count + 1) 0 count s

end GuestLibrary.Sorting.Machine
