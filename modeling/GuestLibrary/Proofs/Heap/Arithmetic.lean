import GuestLibrary.Proofs.Heap.Words

/-! The sizes that a heap computes, on words. Header and product are checked before they are formed,
and memory bounds the pages, the blocks and the addresses that there are. That leaves the region
that a request asks for: its length is the size rounded up to whole pages, which is formed before
any ceiling is looked at. Main statement: a request overflows exactly where it asks for a region
that is no word long, or that the ceilings admit although no buffer has the bytes of memory with it;
every other request ends with as many bytes as it asked for, as exhausted, or as a size without a
header. -/
namespace GuestLibrary
namespace Heap

/-- The bytes that a request asks for. -/
def Request.total : Request → Nat
  | .allocate size => size
  | .allocateZeroed count size => count * size
  | .reallocate _ size => size
  | .release _ => 0
  | .releaseAddress _ => 0

/-- A request for memory, with a live grant if with any. -/
def Request.Asks (h : Heap) : Request → Prop
  | .allocate _ => True
  | .allocateZeroed _ _ => True
  | .reallocate current _ => ∀ c, current = some c → c ∈ h.liveAllocations
  | .release _ => False
  | .releaseAddress _ => False

/-- How a request for `size` bytes may end: with as many, as exhausted, or, where the header does
not fit a word any more, as an overflow. -/
def Answers (size : Nat) (result : Except AllocError (Option Allocation)) : Prop :=
  if size + blockHeader < wordLimit then
    (∃ g, result = .ok (some g) ∧ size ≤ g.length) ∨
      result = .error (.exhausted (size + blockHeader))
  else result = .error .overflow

variable {h : Heap} {a : Arena} {need : Nat}

/-- Rounding up to whole pages adds less than a page, and what is mapped already may do. -/
theorem regionLength_le (h : Heap) (a : Arena) (need : Nat) :
    h.regionLength a need ≤ max a.memory.size (need + pageSize) := by
  have hspare : h.spare a ≤ a.memory.size := by
    unfold spare
    split <;> omega
  have hround : pagesFor (need - h.spare a) * pageSize ≤ need - h.spare a + (pageSize - 1) := by
    simp only [pagesFor, pageSize]
    omega
  have hnone : need ≤ h.spare a → pagesFor (need - h.spare a) = 0 := by
    intro hle
    rw [Nat.sub_eq_zero_of_le hle]
    rfl
  unfold regionLength growth
  rcases Nat.le_total need (h.spare a) with hle | hle
  · rw [hnone hle]
    omega
  · omega

/-- An allocation answers a request for its size. -/
theorem allocateFor_answers (hs : h.Sound a) (call : HeapCall) (size : Nat) :
    Answers size ((h.allocateFor a call size).1.map some) := by
  unfold Answers
  split
  · rename_i hsize
    cases hresult : (h.allocateFor a call size).1 with
    | ok g => exact Or.inl ⟨g, rfl, (live_of_allocateFor hs hresult).2⟩
    | error e =>
      rcases allocateFor_exact hs call hsize with
        ⟨-, g, h', a', he, -⟩ | ⟨-, -, g, h', region, a', he, -⟩ | ⟨-, -, h', he, -⟩
      · cases hresult.symm.trans (congrArg Prod.fst he)
      · cases hresult.symm.trans (congrArg Prod.fst he)
      · exact Or.inr (congrArg (Except.map some) (hresult.symm.trans (congrArg Prod.fst he)))
  · unfold allocateFor
    rw [if_pos (by omega)]
    rfl

theorem allocateZeroed_answers (hs : h.Sound a) (count size : Nat) :
    Answers (count * size) ((h.allocateZeroed a count size).1.map some) := by
  have hinner := allocateFor_answers hs .calloc (count * size)
  unfold allocateZeroed
  dsimp only
  split
  · unfold Answers
    rw [if_neg (by omega)]
    rfl
  · rcases hr : h.allocateFor a .calloc (count * size) with ⟨_ | g, h', a'⟩ <;>
      · rw [hr] at hinner
        exact hinner

theorem resizeLive_error {current : Allocation} {old : Block} {size : Nat} {e : AllocError}
    (he : (h.resizeLive a current old size need).1 = .error e) : e = .exhausted need := by
  unfold resizeLive at he
  dsimp only at he
  split at he
  · exact (Except.error.inj he).symm
  · split at he
    · exact (Except.error.inj he).symm
    · split at he
      · exact (Except.error.inj he).symm
      · cases he

/-- So does the resize of a live grant. -/
theorem resize_answers (hs : h.Sound a) {g : Allocation} (hg : g ∈ h.liveAllocations) (size : Nat) :
    Answers size ((h.resize a g size).1.map some) := by
  obtain ⟨old, hold, hgold⟩ := (mem_liveAllocations hs).mp hg
  have hvalid := (validate_eq_ok_iff .realloc g hs).mpr ⟨hold, by rw [hgold]; rfl⟩
  unfold Answers
  split
  · rename_i hsize
    cases hresult : (h.resize a g size).1 with
    | ok r => exact Or.inl ⟨r, rfl, (live_of_resize hs hresult (Or.inl hg)).2⟩
    | error e =>
      unfold resize at hresult
      rw [hvalid] at hresult
      dsimp only at hresult
      rw [if_neg (by omega)] at hresult
      split at hresult
      · cases hresult
      · rw [resizeLive_error hresult]
        exact Or.inr rfl
  · unfold resize
    rw [hvalid]
    dsimp only
    rw [if_pos (by omega)]
    rfl

theorem perform_answers (hs : h.Sound a) {r : Request} (hr : r.Asks h) :
    Answers r.total (h.perform a r).1 := by
  cases r with
  | allocate size => exact allocateFor_answers hs .malloc size
  | allocateZeroed count size => exact allocateZeroed_answers hs count size
  | reallocate current size =>
    cases current with
    | none => exact allocateFor_answers hs .realloc size
    | some g => exact resize_answers hs (hr g rfl) size
  | release grant => exact hr.elim
  | releaseAddress address => exact hr.elim

/-- Where the host has no ceiling past the largest buffer, only a size within a page of the last
word asks for too large a region. -/
theorem Bounded.not_oversized (hb : h.Bounded a) (hneed : need + pageSize < wordLimit)
    (hhost : a.memory.maxPages * pageSize < Word.bufferLimit) : ¬ h.Oversized a need := by
  have hle := h.regionLength_le a need
  have hmemory := lt_wordLimit hb.size_lt
  rintro (hword | ⟨hadmits, hbuffer⟩)
  · omega
  · rcases hadmits.host_le with hzero | hceiling
    · rw [hzero] at hbuffer
      exact hb.not_bufferLimit_le hbuffer
    · have hmul := Nat.mul_le_mul_right pageSize hceiling
      omega

/-- A size that with a header and a page is a word, or with the header alone is none. -/
def Fits (size : Nat) : Prop :=
  size + blockHeader < wordLimit → size + blockHeader + pageSize < wordLimit

/-- A search for a size that fits is never stuck, for larger ones are refused before it. -/
theorem Bounded.not_stuck (hb : h.Bounded a) {size : Nat} (hfits : Fits size)
    (hhost : a.memory.maxPages * pageSize < Word.bufferLimit) : ¬ h.Stuck a (size + blockHeader) :=
  fun hstuck => hb.not_oversized (hfits hstuck.1) hhost hstuck.2.2

theorem Bounded.not_stops (hb : h.Bounded a) {r : Request} (hfits : Fits r.total)
    (hhost : a.memory.maxPages * pageSize < Word.bufferLimit) : ¬ r.Stops h a := by
  cases r with
  | allocate size => exact hb.not_stuck hfits hhost
  | allocateZeroed count size => exact hb.not_stuck hfits hhost
  | reallocate current size =>
    cases current with
    | none => exact hb.not_stuck hfits hhost
    | some current =>
      rintro ⟨old, -, -, hstuck⟩
      exact (hb.setUsed_false current.block).not_stuck hfits hhost hstuck
  | release grant => exact id
  | releaseAddress address => exact id

variable {limits : HeapLimits} {writable : Heap → Nat → Nat → Prop}

/-- In every state that calls on words reach, the blocks lie in a memory that there can be. A
request is computed there without an overflow, and with the result that it has on numbers, unless it
is stopped at an oversized region; and if it asks for memory it then ends with as many bytes as it
asked for or as exhausted, or as an overflow where the header fits no word. A request that is
stopped has exceeded the words or the buffers. That takes a size within a page of the last word, or
a host whose ceiling is past the largest buffer. -/
theorem requests_exact (hr : Machine.Reachable limits writable h a) :
    (∀ b ∈ h.table.blocks, 0 < b.size → a.heapBase ≤ b.start ∧ b.fin ≤ a.memory.size) ∧
    a.memory.size < Word.bufferLimit ∧
    (∀ r : Request, ¬ r.Stops h a → Machine.perform h a r = .ok (h.perform a r) ∧
      (r.Asks h → Answers r.total (h.perform a r).1)) ∧
    (∀ r : Request, r.Stops h a → ∃ stop, stop.Exceeds ∧ Machine.perform h a r = .error stop) ∧
    ∀ r : Request, Fits r.total → a.memory.maxPages * pageSize < Word.bufferLimit →
      ¬ r.Stops h a := by
  obtain ⟨hreach, hb⟩ := hr.bounded
  have hs := hreach.sound.1
  refine ⟨fun b hmem hpos => ?_, hb.size_lt, fun r hnot => ?_,
    fun r => (perform_computes hb hs r).stopped, fun r => hb.not_stops⟩
  · by_cases hregions : h.regions = []
    · rw [hs.unacquired hregions] at hmem
      cases hmem
    · exact bounds_of_tiles (hs.tiles hregions) hmem hpos
  · exact ⟨(perform_computes hb hs r).computed hnot, perform_answers hs⟩

/-- Half of all addresses are asked for in vain, but without a wrong number on the way. -/
theorem requests_exact_half : ∃ h a, Machine.Reachable ⟨1, 1⟩ (fun _ _ _ => True) h a ∧
    Machine.perform h a (.allocate 9223372036854775808) =
      .ok (h.perform a (.allocate 9223372036854775808)) ∧
    Answers 9223372036854775808 (h.perform a (.allocate 9223372036854775808)).1 := by
  obtain ⟨-, -, hcomputed, -, hroom⟩ := requests_exact reachable_onePage
  have hnot := hroom (.allocate 9223372036854775808) (fun _ => by decide)
    (by decide)
  obtain ⟨hrun, hanswers⟩ := hcomputed _ hnot
  exact ⟨_, _, reachable_onePage, hrun, hanswers trivial⟩

/-- A size whose header still fits a word asks for a first region whose length does not: what is
mapped and the whole pages that are missing are as many bytes as there are words. The sum stops the
call before any ceiling refuses the region. -/
theorem region_length_overflows : ∃ h a, Machine.Reachable ⟨1, 1⟩ (fun _ _ _ => True) h a ∧
    18446744073709551611 + blockHeader < wordLimit ∧
    h.regionLength a (18446744073709551611 + blockHeader) = wordLimit ∧
    Machine.perform h a (.allocate 18446744073709551611) = .error .sum := by
  have hspare : (ofLimits ⟨1, 1⟩).spare (.ofBase 0 1) = 65536 := by
    rw [spare, size_onePage]
    rfl
  have hgrowth : (ofLimits ⟨1, 1⟩).growth (.ofBase 0 1) (18446744073709551611 + blockHeader) =
      281474976710655 := by
    rw [growth, hspare]
    decide
  have hlength : (ofLimits ⟨1, 1⟩).regionLength (.ofBase 0 1)
      (18446744073709551611 + blockHeader) = wordLimit := by
    rw [regionLength, hgrowth, hspare]
    decide
  have hnext : Machine.nextRegion (ofLimits ⟨1, 1⟩) (.ofBase 0 1)
      (18446744073709551611 + blockHeader) = .error .sum := by
    rw [nextRegion_of_product _ _ (by rw [hgrowth]; decide), hlength]
    exact if_neg (Nat.lt_irrefl _)
  have hmissing : ¬ (ofLimits ⟨1, 1⟩).table.HasFreeRun (18446744073709551611 + blockHeader) :=
    BlockTable.not_hasFreeRun_of_nil (by decide)
  have hstop := allocateFor_of_nextRegion reachable_onePage.bounded.2 .malloc (by decide) hmissing
    hnext
  exact ⟨_, _, reachable_onePage, by decide, hlength, by
    simp only [Machine.perform, Machine.allocate, hstop, bind, Except.bind]⟩

end Heap
end GuestLibrary
