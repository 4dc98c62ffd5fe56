import GuestLibrary.Guest.Memory
import GuestLibrary.Proofs.Algorithm.InPlace
import GuestLibrary.Proofs.Memory

/-! What sorting does to a block and to linear memory. Main statements: where the comparator orders
the elements, the result is their stable sort, and no other list is; whatever it answers, elements
only change places, and nothing else in memory changes. In place, all of it happens without a
trap. -/
namespace GuestLibrary
namespace Sorting

variable {σ : Type} {compare : Comparator σ Bytes} {block : Bytes} {width : Nat}

section Blocks

variable (compare block width)

theorem sortBlock_eq (s : σ) : (sortBlock compare block width s).1 =
    (sort compare (elements width (block.length / width) block) s).1.flatten ++
      block.drop (block.length / width * width) := by
  rw [sortBlock]
  by_cases hwidth : width = 0
  · have hsort : sort compare [] s = ([], s) := sort_of_length_lt_two (by decide) s
    simp [hwidth, elements, hsort]
  · rw [if_neg hwidth]

theorem length_flatten_sort (s : σ) :
    (sort compare (elements width (block.length / width) block) s).1.flatten.length =
      block.length / width * width := by
  have hperm := sort_perm compare (elements width (block.length / width) block) s
  have hlength := length_of_mem_elements (Nat.div_mul_le_self block.length width)
  rw [length_flatten fun x hx => hlength x (hperm.mem_iff.mp hx), hperm.length_eq, length_elements]

theorem length_sortBlock (s : σ) : (sortBlock compare block width s).1.length = block.length := by
  have hbound := Nat.div_mul_le_self block.length width
  rw [sortBlock_eq, List.length_append, length_flatten_sort, List.length_drop]
  omega

/-- The elements of a sorted block are the elements sorted. -/
theorem elements_sortBlock (s : σ) :
    elements width (block.length / width) (sortBlock compare block width s).1 =
      (sort compare (elements width (block.length / width) block) s).1 := by
  have hperm := sort_perm compare (elements width (block.length / width) block) s
  have hlength := length_of_mem_elements (Nat.div_mul_le_self block.length width)
  have hcount := hperm.length_eq
  rw [length_elements] at hcount
  have h := elements_flatten_append (fun x hx => hlength x (hperm.mem_iff.mp hx))
    (block.drop (block.length / width * width))
  rwa [hcount, ← sortBlock_eq] at h

theorem drop_sortBlock (s : σ) :
    (sortBlock compare block width s).1.drop (block.length / width * width) =
      block.drop (block.length / width * width) := by
  rw [sortBlock_eq, List.drop_left' (length_flatten_sort compare block width s)]

end Blocks

/-- Bytes past the last whole element of `before` are in `after` as they were. -/
structure SameRest (width : Nat) (before after : Bytes) : Prop where
  length_eq : after.length = before.length
  drop_eq : after.drop (before.length / width * width) =
    before.drop (before.length / width * width)

/-- `after` holds the elements of `before` in some order, and the bytes past them. -/
structure Rearranged (width : Nat) (before after : Bytes) : Prop where
  rest : SameRest width before after
  perm : (elements width (before.length / width) after).Perm
    (elements width (before.length / width) before)

theorem sameRest_sortBlock (compare : Comparator σ Bytes) (block : Bytes) (width : Nat) (s : σ) :
    SameRest width block (sortBlock compare block width s).1 :=
  ⟨length_sortBlock compare block width s, drop_sortBlock compare block width s⟩

theorem rearranged_sortBlock (compare : Comparator σ Bytes) (block : Bytes) (width : Nat) (s : σ) :
    Rearranged width block (sortBlock compare block width s).1 := by
  refine ⟨sameRest_sortBlock compare block width s, ?_⟩
  rw [elements_sortBlock]
  exact sort_perm compare _ s

/-- Where the signs of the comparator are those of a total preorder on the elements, sorting yields
their stable sort, which is unique, and leaves what is behind them. In place it does so without a
trap: no block takes more than half of the address space. -/
theorem sorts_stably (compare : Comparator σ Bytes) (le : Bytes → Bytes → Bool) (block : Bytes)
    (width : Nat) (h : Orders compare le (elements width (block.length / width) block)) (s : σ) :
    StableSort le (elements width (block.length / width) block)
      (elements width (block.length / width) (sortBlock compare block width s).1) ∧
    (∀ ys, StableSort le (elements width (block.length / width) block) ys →
      ys = elements width (block.length / width) (sortBlock compare block width s).1) ∧
    SameRest width block (sortBlock compare block width s).1 ∧
    (2 * block.length < wordLimit →
      Machine.sortBlock compare block width s = .ok (sortBlock compare block width s)) := by
  have hstable := h.sort_stable (s := s)
  rw [← elements_sortBlock] at hstable
  refine ⟨hstable, fun ys hys => h.stableSort_unique hys hstable,
    sameRest_sortBlock compare block width s, ?_⟩
  exact fun hwords => machine_sortBlock_eq compare hwords width s

/-- Compares the first bytes of two elements. -/
def byFirstByte : Comparator Unit Bytes :=
  .pure fun a b => (a.headD 0).toNat - (b.headD 0).toNat

/-- Pairs of a letter and a digit are sorted by their letters. A last byte that is no pair stays. -/
theorem sorts_stably_pairs :
    Orders byFirstByte (fun a b => (a.headD 0).toNat ≤ (b.headD 0).toNat)
      (elements 2 (9 / 2) [98, 49, 97, 49, 98, 50, 97, 50, 33]) ∧
    elements 2 (9 / 2)
        (sortBlock byFirstByte [98, 49, 97, 49, 98, 50, 97, 50, 33] 2 ()).1 =
      [[97, 49], [97, 50], [98, 49], [98, 50]] := by
  have h : Orders byFirstByte (fun a b => (a.headD 0).toNat ≤ (b.headD 0).toNat)
      (elements 2 (9 / 2) [98, 49, 97, 49, 98, 50, 97, 50, 33]) := by
    constructor
    · intro a _ b _
      simpa using Nat.le_total _ _
    · intro a _ b _ c _ hab hbc
      simpa using Nat.le_trans (of_decide_eq_true hab) (of_decide_eq_true hbc)
    · intro a _ b _ s
      simp only [byFirstByte, Comparator.pure, decide_eq_false_iff_not]
      omega
    · intro a _ b _ s
      simp only [byFirstByte, Comparator.pure, decide_eq_false_iff_not]
      omega
  obtain ⟨-, hunique, -⟩ := sorts_stably byFirstByte _ [98, 49, 97, 49, 98, 50, 97, 50, 33] 2 h ()
  exact ⟨h, (hunique [[97, 49], [97, 50], [98, 49], [98, 50]]
    ⟨by decide, by decide, by decide⟩).symm⟩

end Sorting

namespace Guest

variable {g : Guest} {call : String} {base count width : Nat}

theorem memory_report (g : Guest) (d : Diagnostic) : (g.report d).memory = g.memory := by
  unfold report
  dsimp only
  split <;> rfl

theorem memory_misuse (g : Guest) (d : Diagnostic) : (g.misuse d).memory = g.memory := by
  rw [misuse, memory_report]
  rfl

theorem memory_write (g : Guest) (address : Nat) (block : Bytes) :
    (g.write address block).memory = g.memory.write address block := rfl

theorem array?_of_inside (hwords : count * width < wordLimit)
    (hinside : g.memory.covers base (count * width) = true) :
    g.array? call base count width = (some (g.memory.read base (count * width)), g) := by
  simp only [array?, inMemory, if_neg (Nat.not_le.mpr hwords), hinside, if_true]

theorem array?_of_outside
    (h : wordLimit ≤ count * width ∨ g.memory.covers base (count * width) = false) :
    g.array? call base count width = (none, g.misuse (.pointerOutOfBounds call base)) := by
  by_cases hwords : wordLimit ≤ count * width
  · simp only [array?, if_pos hwords]
  · obtain houtside := h.resolve_left hwords
    simp only [array?, inMemory, if_neg hwords, houtside, Bool.false_eq_true, if_false]

theorem qsort_of_inside {σ : Type} (compare : Comparator σ Bytes) (s : σ)
    (hwords : count * width < wordLimit)
    (hinside : g.memory.covers base (count * width) = true) :
    (g.qsort base count width compare s).2 =
      g.write base (Sorting.sortBlock compare (g.memory.read base (count * width)) width s).1 := by
  rw [qsort, array?_of_inside hwords hinside]

theorem qsort_of_outside {σ : Type} (compare : Comparator σ Bytes) (s : σ)
    (h : wordLimit ≤ count * width ∨ g.memory.covers base (count * width) = false) :
    g.qsort base count width compare s = (s, g.misuse (.pointerOutOfBounds "qsort" base)) := by
  rw [qsort, array?_of_outside h]

end Guest

namespace Sorting

/-- Whatever a comparator answers, elements only change places, and in place no index leaves the
block and no loop goes on for ever. In linear memory only the array is written, and nothing when its
size is no word or when it does not lie in memory: the comparator is not asked then. -/
theorem sorting_rearranges {σ : Type} (compare : Comparator σ Bytes) (width : Nat) (s : σ) :
    (∀ block, Rearranged width block (sortBlock compare block width s).1) ∧
    (∀ block : Bytes, 2 * block.length < wordLimit →
      Machine.sortBlock compare block width s = .ok (sortBlock compare block width s)) ∧
    ∀ (g : Guest) (base count : Nat),
      let sorted := g.qsort base count width compare s
      (∀ i, i < base ∨ base + count * width ≤ i → sorted.2.memory.get? i = g.memory.get? i) ∧
      (count * width < wordLimit → g.memory.covers base (count * width) = true →
        Rearranged width (g.memory.read base (count * width))
          (sorted.2.memory.read base (count * width))) ∧
      (wordLimit ≤ count * width ∨ g.memory.covers base (count * width) = false →
        sorted.1 = s ∧ sorted.2 = g.misuse (.pointerOutOfBounds "qsort" base) ∧
          sorted.2.memory = g.memory) := by
  refine ⟨fun block => rearranged_sortBlock compare block width s,
    fun block hwords => machine_sortBlock_eq compare hwords width s, fun g base count => ?_⟩
  have hread : g.memory.covers base (count * width) = true →
      (sortBlock compare (g.memory.read base (count * width)) width s).1.length =
        count * width := by
    intro hinside
    rw [length_sortBlock, LinearMemory.length_read (of_decide_eq_true hinside)]
  dsimp only
  refine ⟨fun i hi => ?_, fun hwords hinside => ?_, fun houtside => ?_⟩
  · by_cases houtside : wordLimit ≤ count * width ∨ g.memory.covers base (count * width) = false
    · rw [Guest.qsort_of_outside compare s houtside, Guest.memory_misuse]
    · obtain ⟨hwords, hinside⟩ := not_or.mp houtside
      rw [Bool.not_eq_false] at hinside
      rw [Guest.qsort_of_inside compare s (Nat.not_le.mp hwords) hinside, Guest.memory_write,
        LinearMemory.get?_write_of_outside (by rwa [hread hinside])]
  · have hroom := of_decide_eq_true hinside
    rw [← hread hinside] at hroom
    have hback := LinearMemory.read_write_self hroom
    rw [hread hinside] at hback
    rw [Guest.qsort_of_inside compare s hwords hinside, Guest.memory_write, hback]
    exact rearranged_sortBlock compare _ width s
  · rw [Guest.qsort_of_outside compare s houtside]
    exact ⟨rfl, rfl, Guest.memory_misuse g _⟩

/-- Answers above and below in turns, whatever it is asked. -/
def inTurns : Comparator Bool Bytes := fun _ _ above => (if above then 1 else -1, !above)

/-- Five bytes of a fresh memory are sorted by a comparator without an order; an array of more
bytes than a word can count is not. -/
theorem sorting_rearranges_inTurns :
    let g : Guest := .start { arena := .ofBase 0 1 } {}
    (g.memory.covers 8 (5 * 1) = true ∧
      Rearranged 1 (g.memory.read 8 (5 * 1))
        ((g.qsort 8 5 1 inTurns true).2.memory.read 8 (5 * 1))) ∧
    (wordLimit ≤ wordLimit * 1 ∧ (g.qsort 8 wordLimit 1 inTurns true).2.memory = g.memory) := by
  intro g
  obtain ⟨-, -, hguest⟩ := sorting_rearranges inTurns 1 true
  have hsize : g.memory.size = pageSize := by
    simp [g, Guest.memory, Guest.start, Arena.ofBase, LinearMemory.ofPages, LinearMemory.size,
      LinearMemory.zeros, ← ByteArray.size_data]
  have hinside : g.memory.covers 8 (5 * 1) = true := by
    simp [LinearMemory.covers, hsize, pageSize]
  exact ⟨⟨hinside, (hguest g 8 5).2.1 (by decide) hinside⟩, by decide,
    ((hguest g 8 wordLimit).2.2 (Or.inl (by decide))).2.2⟩

end Sorting
end GuestLibrary
