import GuestLibrary.Guest.Memory
import GuestLibrary.Proofs.Algorithm.Sorting
import GuestLibrary.Proofs.Heap.Blindness

/-! Copies between blocks and inside one. Words and single bytes come to the front of the source
before the rest of the destination, and what is moved inside a block was read before a byte of it
was written. Main statement: a copy assigns all its bytes at once, and so does a move in linear
memory, which is the move in the block of all its bytes. -/
namespace GuestLibrary

namespace Bytes

/-- `after` is `before` with `n` bytes assigned at once: those from `dest` on become what `source`
holds from `src` on. -/
structure Assigned (before : Bytes) (dest : Nat) (source : Bytes) (src n : Nat) (after : Bytes) :
    Prop where
  length_eq : after.length = before.length
  assigned : ∀ i < n, after[dest + i]? = source[src + i]?
  kept : ∀ i, i < dest ∨ dest + n ≤ i → after[i]? = before[i]?

variable {before source after after' : Bytes} {dest src n : Nat}

theorem Assigned.unique (h : Assigned before dest source src n after)
    (h' : Assigned before dest source src n after') : after = after' := by
  apply List.ext_getElem?
  intro i
  by_cases hi : i < dest ∨ dest + n ≤ i
  · rw [h.kept i hi, h'.kept i hi]
  · obtain ⟨k, rfl⟩ := Nat.exists_eq_add_of_le (show dest ≤ i by omega)
    rw [h.assigned k (by omega), h'.assigned k (by omega)]

/-- Bytes that are assigned from themselves, or no bytes, leave a block as it is. -/
theorem Assigned.refl (block : Bytes) (h : n = 0 ∨ dest = src) :
    Assigned block dest block src n block where
  length_eq := rfl
  assigned i hi := by
    rcases h with rfl | rfl
    · exact absurd hi (Nat.not_lt_zero i)
    · rfl
  kept _ _ := rfl

/-- A block in front of which there is another one. -/
theorem Assigned.behind {block tail source' : Bytes}
    (h : Assigned (block.drop dest) 0 source' 0 n tail) (hdest : dest ≤ block.length)
    (hsource : ∀ i < n, source'[i]? = source[src + i]?) :
    Assigned block dest source src n (block.take dest ++ tail) := by
  have hfront : (block.take dest).length = dest := List.length_take_of_le hdest
  refine ⟨?_, fun i hi => ?_, fun i hi => ?_⟩
  · rw [List.length_append, hfront, h.length_eq, List.length_drop]
    omega
  · have hbyte := h.assigned i hi
    rw [Nat.zero_add] at hbyte
    rw [List.getElem?_append_right (by omega), hfront, Nat.add_sub_cancel_left, hbyte,
      hsource i hi]
  · by_cases hfirst : i < dest
    · rw [List.getElem?_append_left (by omega), List.getElem?_take_of_lt hfirst]
    · rw [List.getElem?_append_right (by omega), hfront, h.kept _ (by omega), List.getElem?_drop]
      congr 1
      omega

theorem storeBytes_eq (hdest : n ≤ after.length) (hsource : n ≤ source.length) :
    storeBytes n after source = source.take n ++ after.drop n := by
  fun_induction storeBytes n after source with
  | case1 n b dest s src ih =>
    rw [ih (Nat.le_of_succ_le_succ hdest) (Nat.le_of_succ_le_succ hsource), List.take_succ_cons,
      List.drop_succ_cons, List.cons_append]
  | case2 n dest src hnone =>
    cases n with
    | zero => simp
    | succ n =>
      cases dest with
      | nil => exact absurd hdest (Nat.not_succ_le_zero n)
      | cons b dest =>
        cases src with
        | nil => exact absurd hsource (Nat.not_succ_le_zero n)
        | cons s src => exact absurd rfl (hnone n b dest s src rfl rfl)

/-- A copy by words with a tail is a copy of all their bytes. -/
theorem storeWords_eq {words tail : Nat} {dest : Bytes}
    (hdest : words * wordSize + tail ≤ dest.length)
    (hsource : words * wordSize + tail ≤ source.length) :
    storeWords words tail dest source =
      source.take (words * wordSize + tail) ++ dest.drop (words * wordSize + tail) := by
  induction words generalizing dest source with
  | zero =>
    rw [Nat.zero_mul, Nat.zero_add] at hdest hsource ⊢
    exact storeBytes_eq hdest hsource
  | succ words ih =>
    have hcount : (words + 1) * wordSize + tail = wordSize + (words * wordSize + tail) := by
      rw [Nat.succ_mul]
      omega
    rw [hcount] at hdest hsource ⊢
    rw [storeWords, ih (by rw [List.length_drop]; omega) (by rw [List.length_drop]; omega),
      List.drop_drop, ← List.append_assoc, ← List.take_add]

theorem copy_eq (dest src : Bytes) (n : Nat) :
    (copy dest src n).2 = src.take (min n (min dest.length src.length)) ++
      dest.drop (min n (min dest.length src.length)) := by
  have hdest : min n (min dest.length src.length) ≤ dest.length := by omega
  have hsource : min n (min dest.length src.length) ≤ src.length := by omega
  rw [copy]
  dsimp only
  generalize min n (min dest.length src.length) = count at hdest hsource ⊢
  have hcount : count / wordSize * wordSize + count % wordSize = count := Nat.div_add_mod' _ _
  rw [storeWords_eq (hcount.le.trans hdest) (hcount.le.trans hsource), hcount]

theorem assigned_copy (dest src : Bytes) (n : Nat) :
    Assigned dest 0 src 0 (min n (min dest.length src.length)) (copy dest src n).2 := by
  generalize hcount : min n (min dest.length src.length) = count
  have hfront : (src.take count).length = count := List.length_take_of_le (by omega)
  rw [copy_eq, hcount]
  refine ⟨?_, fun i hi => ?_, fun i hi => ?_⟩
  · rw [List.length_append, hfront, List.length_drop]
    omega
  · rw [Nat.zero_add, List.getElem?_append_left (by omega), List.getElem?_take_of_lt hi]
  · rw [List.getElem?_append_right (by omega), hfront, List.getElem?_drop]
    congr 1
    omega

theorem fst_move (block : Bytes) (dest src n : Nat) :
    (move block dest src n).1 = min n (block.length - max dest src) := by
  rw [move]
  dsimp only
  split <;> rfl

/-- A move reads all its bytes before it writes one. -/
theorem assigned_move (block : Bytes) (dest src n : Nat) :
    Assigned block dest block src (move block dest src n).1 (move block dest src n).2 := by
  rw [fst_move]
  generalize hcount : min n (block.length - max dest src) = count
  rw [move, hcount]
  dsimp only
  split
  · rename_i hnothing
    exact .refl block hnothing
  · rename_i hsome
    obtain ⟨hpos, -⟩ := not_or.mp hsome
    have hstaged : ((block.drop src).take count).length = count := by
      rw [List.length_take, List.length_drop]
      omega
    have hcopy := assigned_copy (block.drop dest) ((block.drop src).take count) count
    have hall : min count (min (block.drop dest).length ((block.drop src).take count).length) =
        count := by
      rw [hstaged, List.length_drop]
      omega
    rw [hall] at hcopy
    refine hcopy.behind (by omega) fun i hi => ?_
    rw [List.getElem?_take_of_lt hi, List.getElem?_drop]

end Bytes

namespace LinearMemory

/-- All bytes of a memory. -/
def contents (m : LinearMemory) : Bytes := m.bytes.data.toList

variable {m : LinearMemory} {dest src n : Nat}

theorem getElem?_contents (m : LinearMemory) (i : Nat) : m.contents[i]? = m.get? i := by
  rw [contents, Array.getElem?_toList, get?_eq_data]

theorem length_contents (m : LinearMemory) : m.contents.length = m.size := by
  rw [contents, Array.length_toList, ByteArray.size_data, size]

theorem assigned_copyWithin (hdest : dest + n ≤ m.size) (hsrc : src + n ≤ m.size) :
    Bytes.Assigned m.contents dest m.contents src n (m.copyWithin src n dest).contents where
  length_eq := by rw [length_contents, length_contents, size_copyWithin]
  assigned i hi := by
    rw [getElem?_contents, getElem?_contents, get?_copyWithin hsrc hdest hi]
  kept i hi := by rw [getElem?_contents, getElem?_contents, get?_copyWithin_of_outside hi]

/-- A move between two ranges of a memory is not cut short. -/
theorem assigned_move_contents (hdest : dest + n ≤ m.size) (hsrc : src + n ≤ m.size) :
    (m.contents.move dest src n).1 = n ∧
      Bytes.Assigned m.contents dest m.contents src n (m.contents.move dest src n).2 := by
  have hmove := m.contents.assigned_move dest src n
  have hcount : (m.contents.move dest src n).1 = n := by
    rw [Bytes.fst_move, length_contents]
    omega
  rw [hcount] at hmove
  exact ⟨hcount, hmove⟩

end LinearMemory

namespace Guest

variable {g : Guest} {dest src n : Nat}

theorem memmove_of_inside (hdest : g.memory.covers dest n = true)
    (hsrc : g.memory.covers src n = true) :
    g.memmove dest src n =
      (n, if 0 < n ∧ dest ≠ src then g.onArena (·.copyWithin src n dest) else g) := by
  simp only [memmove, inMemory, hdest, hsrc, if_true]

/-- A move in memory is reported for the first of its ranges that does not lie there. -/
theorem memmove_of_outside
    (h : g.memory.covers dest n = false ∨ g.memory.covers src n = false) :
    g.memmove dest src n = (0, g.misuse (.pointerOutOfBounds "memmove"
      (if g.memory.covers dest n then src else dest))) := by
  cases hdest : g.memory.covers dest n with
  | false => simp only [memmove, inMemory, hdest, Bool.false_eq_true, if_false]
  | true =>
    have hsrc : g.memory.covers src n = false := h.resolve_left (by simp [hdest])
    simp only [memmove, inMemory, hdest, hsrc, if_true, Bool.false_eq_true, if_false]

/-- Nothing of a program changes in a move but what its memory holds. -/
theorem memmove_eq_move (hdest : g.memory.covers dest n = true)
    (hsrc : g.memory.covers src n = true) : ∃ m : LinearMemory,
    g.memmove dest src n =
        ((g.memory.contents.move dest src n).1, g.onArena ({ · with memory := m })) ∧
      m.contents = (g.memory.contents.move dest src n).2 ∧ m.maxPages = g.memory.maxPages := by
  have hdest' : dest + n ≤ g.memory.size := of_decide_eq_true hdest
  have hsrc' : src + n ≤ g.memory.size := of_decide_eq_true hsrc
  obtain ⟨hcount, hmove⟩ := LinearMemory.assigned_move_contents hdest' hsrc'
  rw [memmove_of_inside hdest hsrc, hcount]
  split
  · exact ⟨g.memory.copyWithin src n dest, rfl,
      (LinearMemory.assigned_copyWithin hdest' hsrc').unique hmove,
      (Arena.Alike.of_copyWithin g.host.arena src n dest).memory.maxPages_eq⟩
  · exact ⟨g.memory, rfl, (Bytes.Assigned.refl _ (by omega)).unique hmove, rfl⟩

end Guest

namespace Bytes

/-- A copy by words and single bytes answers how many bytes both blocks have room for, and assigns
as many at once. So does a move inside a block, however its ranges lie. A move in linear memory is
the move in the block of all its bytes where both ranges lie inside, and nothing else of the program
changes; where one does not, it is reported and no byte is moved. -/
theorem copies_assign_at_once :
    (∀ (dest src : Bytes) (n : Nat),
      (copy dest src n).1 = min n (min dest.length src.length) ∧
        Assigned dest 0 src 0 (copy dest src n).1 (copy dest src n).2) ∧
    (∀ (block : Bytes) (dest src n : Nat),
      (move block dest src n).1 = min n (block.length - max dest src) ∧
        Assigned block dest block src (move block dest src n).1 (move block dest src n).2) ∧
    ∀ (g : Guest) (dest src n : Nat),
      (g.memory.covers dest n = true → g.memory.covers src n = true → ∃ m : LinearMemory,
        g.memmove dest src n =
            ((g.memory.contents.move dest src n).1, g.onArena ({ · with memory := m })) ∧
          m.contents = (g.memory.contents.move dest src n).2 ∧
          m.maxPages = g.memory.maxPages) ∧
      (g.memory.covers dest n = false ∨ g.memory.covers src n = false →
        (g.memmove dest src n).1 = 0 ∧ (g.memmove dest src n).2.memory = g.memory) := by
  refine ⟨fun dest src n => ⟨rfl, assigned_copy dest src n⟩,
    fun block dest src n => ⟨fst_move block dest src n, assigned_move block dest src n⟩,
    fun g dest src n => ⟨Guest.memmove_eq_move, fun houtside => ?_⟩⟩
  rw [Guest.memmove_of_outside houtside]
  exact ⟨rfl, Guest.memory_misuse g _⟩

/-- Eight bytes of a fresh memory move by four, over themselves; eight bytes behind its end do
not. -/
theorem copies_assign_at_once_overlapping :
    let g : Guest := .start { arena := .ofBase 0 1 } {}
    (g.memory.covers 8 8 = true ∧ g.memory.covers 4 8 = true ∧
      (g.memmove 8 4 8).2.memory.contents = (g.memory.contents.move 8 4 8).2) ∧
    (g.memory.covers 8 8 = false ∨ g.memory.covers 65536 8 = false) ∧
      (g.memmove 8 65536 8).1 = 0 := by
  intro g
  have hsize : g.memory.size = pageSize := Arena.size_ofBase 0 1
  have hdest : g.memory.covers 8 8 = true := by simp [LinearMemory.covers, hsize, pageSize]
  have hsrc : g.memory.covers 4 8 = true := by simp [LinearMemory.covers, hsize, pageSize]
  have hbehind : g.memory.covers 8 8 = false ∨ g.memory.covers 65536 8 = false :=
    Or.inr (by simp [LinearMemory.covers, hsize, pageSize])
  obtain ⟨-, -, hguest⟩ := copies_assign_at_once
  obtain ⟨m, hmove, hm, -⟩ := (hguest g 8 4 8).1 hdest hsrc
  refine ⟨⟨hdest, hsrc, ?_⟩, hbehind, ((hguest g 8 65536 8).2 hbehind).1⟩
  rw [hmove]
  exact hm

/-- Ten bytes, a word and two: those from the third on come to the front, over themselves. -/
example : move [97, 98, 99, 100, 101, 102, 103, 104, 105, 106] 0 3 7 =
    (7, [100, 101, 102, 103, 104, 105, 106, 104, 105, 106]) := by
  decide

end Bytes
end GuestLibrary
