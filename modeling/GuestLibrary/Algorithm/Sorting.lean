import GuestLibrary.Bytes.Block

/-!
Sorting and searching arrays of fixed-width elements. A comparator answers a negative, zero or
positive number as its first element orders before, with or after the second; it may carry a
state from one call to the next, so nothing is assumed about the consistency of its answers.
-/
namespace GuestLibrary

/-- A comparison that threads a state. -/
abbrev Comparator (σ α : Type) := α → α → σ → Int × σ

/-- A comparison without a state. -/
def Comparator.pure {α : Type} (compare : α → α → Int) : Comparator Unit α :=
  fun a b s => (compare a b, s)

namespace Sorting

variable {σ α : Type}

/-- Merges two runs; the left one wins ties. -/
def merge (compare : Comparator σ α) : List α → List α → σ → List α × σ
  | [], right, s => (right, s)
  | left, [], s => (left, s)
  | x :: left, y :: right, s =>
    let (c, s) := compare y x s
    if c < 0 then
      let (rest, s) := merge compare (x :: left) right s
      (y :: rest, s)
    else
      let (rest, s) := merge compare left (y :: right) s
      (x :: rest, s)
  termination_by left right => left.length + right.length

/-- Merges neighbouring runs in pairs, from the left. -/
def mergePairs (compare : Comparator σ α) : List (List α) → σ → List (List α) × σ
  | a :: b :: rest, s =>
    let (run, s) := merge compare a b s
    let (runs, s) := mergePairs compare rest s
    (run :: runs, s)
  | runs, s => (runs, s)

theorem length_mergePairs (compare : Comparator σ α) (runs : List (List α)) (s : σ) :
    (mergePairs compare runs s).1.length = (runs.length + 1) / 2 := by
  fun_induction mergePairs compare runs s with
  | case1 s a b rest run s' _ merged s'' hmerged ih =>
    rw [hmerged] at ih
    simp only [List.length_cons] at ih ⊢
    omega
  | case2 runs s hshort =>
    rcases runs with _ | ⟨a, _ | ⟨b, rest⟩⟩
    · simp
    · simp
    · exact absurd rfl (hshort a b rest)

/-- Merges until one run is left. Each round halves the number of runs. -/
def mergeRounds (compare : Comparator σ α) (runs : List (List α)) (s : σ) : List α × σ :=
  if 1 < runs.length then
    let round := mergePairs compare runs s
    mergeRounds compare round.1 round.2
  else (runs.flatten, s)
  termination_by runs.length
  decreasing_by
    rw [length_mergePairs]
    omega

/-- Stable merge sort from runs of one element upwards. -/
def sort (compare : Comparator σ α) (xs : List α) (s : σ) : List α × σ :=
  mergeRounds compare (xs.map ([·])) s

/-- The first `count` elements of `width` bytes. -/
def elements (width : Nat) : Nat → Bytes → List Bytes
  | 0, _ => []
  | count + 1, bytes => bytes.take width :: elements width count (bytes.drop width)

/-- Sorts the whole elements of a block; bytes past the last one stay. -/
def sortBlock (compare : Comparator σ Bytes) (block : Bytes) (width : Nat) (s : σ) : Bytes × σ :=
  if width = 0 then (block, s)
  else
    let count := block.length / width
    let (sorted, s) := sort compare (elements width count block) s
    (sorted.flatten ++ block.drop (count * width), s)

/-- Halves the range `[low, high)` until the comparison of its middle element is zero. -/
def searchWithin (compare : Nat → σ → Int × σ) (low high : Nat) (s : σ) : Option Nat × σ :=
  if low < high then
    let mid := low + (high - low) / 2
    let (c, s) := compare mid s
    if c = 0 then (some mid, s)
    else if c < 0 then searchWithin compare low mid s
    else searchWithin compare (mid + 1) high s
  else (none, s)
  termination_by high - low

/-- Binary search of the whole elements of a block for one that compares equal to the key. -/
def searchBlock (compare : Comparator σ Bytes) (key block : Bytes) (width : Nat) (s : σ) :
    Option Nat × σ :=
  if width = 0 then (none, s)
  else
    let count := block.length / width
    searchWithin (fun i => compare key ((block.drop (i * width)).take width)) 0 count s

end Sorting
end GuestLibrary
