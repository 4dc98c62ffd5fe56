import GuestLibrary.Heap.Machine
import GuestLibrary.Proofs.Heap.Atomicity
import GuestLibrary.Proofs.Heap.PageCounts

/-! A heap in a memory that there can be. Its blocks and regions end there, so that its searches,
its records and its addresses are computed on words as they are on numbers. -/
namespace GuestLibrary

namespace BlockTable

/-- A block without a size has no address. -/
def Cleared (t : BlockTable) : Prop := ∀ b ∈ t.blocks, b.size = 0 → b.start = 0

namespace Machine

variable {w w' : Bench} {need id : Nat}

theorem cleared_put (h : w.table.Cleared) {c : Block} (hc : c.size = 0 → c.start = 0) (id : Nat) :
    (w.put id c).table.Cleared := by
  intro b hb
  rcases List.mem_or_eq_of_mem_set hb with hb | rfl
  · exact h b hb
  · exact hc

/-- Of the blocks that a search writes over, those without a size are emptied. -/
theorem Takes.cleared (h : w.table.Cleared) (hneed : 0 < need) {g : Grant}
    (ht : Takes w need id g w') : w'.table.Cleared := by
  cases ht with
  | @cut lead taken beyond b granted kind _ hw _ hpos _ hcut =>
    have hjoined : 0 < (b.joined taken).size := Nat.lt_of_lt_of_le hpos (Nat.le_add_right _ _)
    have habsorbed : (w.absorb lead.length b taken).table.Cleared := by
      intro c hc hz
      rw [absorb_blocks hw] at hc
      rcases List.mem_append.mp hc with hlead | hc
      · exact h c (by simp [hw, hlead]) hz
      rcases List.mem_cons.mp hc with rfl | hc
      · omega
      rcases List.mem_append.mp hc with htaken | hbeyond
      · obtain ⟨d, hd, rfl⟩ := List.mem_map.mp htaken
        by_cases hsize : d.size = 0
        · rw [hollow_of_eq_zero hsize]
          exact h d (by simp [hw, hd]) hsize
        · rw [hollow_of_pos (Nat.pos_of_ne_zero hsize)]
          rfl
      · exact h c (by simp [hw, hbeyond]) hz
    have hsized : ∀ {c : Block}, 0 < c.size → c.size = 0 → c.start = 0 :=
      fun hpos hz => absurd hz (Nat.ne_of_gt hpos)
    cases hcut with
    | perfect he => exact cleared_put habsorbed (hsized (by simpa [he] using hneed)) _
    | before hlt _ _ =>
      refine cleared_put ?_ (hsized hneed) _
      refine cleared_put (w := (((w.absorb lead.length b taken).put _ _).count _ _).count _ _) ?_
        (hsized (Nat.sub_pos_of_lt hlt)) _
      exact cleared_put habsorbed (hsized hneed) _
    | after hlt _ _ =>
      refine cleared_put (cleared_put ?_ (hsized hneed) _) (hsized hneed) _
      exact cleared_put habsorbed (hsized (Nat.sub_pos_of_lt hlt)) _
    | unsplit _ _ _ =>
      refine cleared_put habsorbed (fun hz => ?_) _
      exact absurd hz (Nat.ne_of_gt hjoined)

/-- The counts of a table are right whatever led to it. -/
theorem Exact.forget (h : Exact w) : Exact { table := w.table } where
  paged := h.paged
  blocksOnPage_eq := h.blocksOnPage_eq
  found_pos change hchange := by cases hchange

end Machine
end BlockTable

namespace Heap

/-- What a heap has lies in a memory that there can be, and its pages are counted right. -/
structure Bounded (h : Heap) (a : Arena) : Prop extends h.Tiled a where
  exact : BlockTable.Machine.Exact { table := h.table }
  cleared : h.table.Cleared
  regions_le : ∀ r ∈ h.regions, r.start + r.len ≤ a.memory.size
  whole : a.memory.pages * pageSize = a.memory.size
  size_lt : a.memory.size < Word.bufferLimit
  table_lt : h.limits.maxBlocks * Machine.blockBytes < Word.bufferLimit

section Bounds

variable {h h' : Heap} {a a' : Arena} {need : Nat}

theorem lt_wordLimit {n : Nat} (h : n < Word.bufferLimit) : n + pageSize < wordLimit := by
  have hlimits : Word.bufferLimit + pageSize < wordLimit := by decide
  omega

namespace Bounded

theorem record (hb : h.Bounded a) (call : HeapCall) (event : HeapEvent) :
    (h.record call event).Bounded a :=
  ⟨hb.toTiled.record call event, hb.exact, hb.cleared, hb.regions_le, hb.whole, hb.size_lt,
    hb.table_lt⟩

theorem of_live (hb : h.Bounded a) (live : LiveGrants) : Bounded { h with live } a :=
  ⟨hb.toTiled.of_live live, hb.exact, hb.cleared, hb.regions_le, hb.whole, hb.size_lt, hb.table_lt⟩

theorem of_size_eq (hb : h.Bounded a) (hbase : a'.heapBase = a.heapBase)
    (hsize : a'.memory.size = a.memory.size) : h.Bounded a' := by
  refine ⟨hb.toTiled.of_size_eq hbase hsize, hb.exact, hb.cleared, ?_, ?_, ?_, hb.table_lt⟩
  · rw [hsize]
    exact hb.regions_le
  · rw [LinearMemory.pages, hsize]
    exact hb.whole
  · rw [hsize]
    exact hb.size_lt

theorem write (hb : h.Bounded a) (address : Nat) (block : Bytes) :
    h.Bounded (a.write address block) :=
  hb.of_size_eq rfl (by simp)

theorem setUsed_false (hb : h.Bounded a) (id : Nat) :
    Bounded { h with table := h.table.setUsed id false } a := by
  refine ⟨hb.toTiled.setUsed_false id, (hb.exact.setUsed id false).forget, ?_, hb.regions_le,
    hb.whole, hb.size_lt, hb.table_lt⟩
  intro b hmem hz
  obtain ⟨i, hi⟩ := List.mem_iff_getElem?.mp hmem
  have hget : (h.table.setUsed id false).get? i = some b := hi
  rw [BlockTable.get?_setUsed] at hget
  split at hget
  · obtain ⟨c, hc, rfl⟩ := Option.map_eq_some_iff.mp hget
    exact hb.cleared c (List.mem_of_getElem? hc) hz
  · exact hb.cleared b (List.mem_of_getElem? hget) hz

/-- All blocks, with or without a size, end in memory. -/
theorem fin_le (hb : h.Bounded a) : ∀ b ∈ h.table.blocks, b.start + b.size ≤ a.memory.size := by
  intro b hmem
  rcases Nat.eq_zero_or_pos b.size with hz | hpos
  · rw [hz, hb.cleared b hmem hz]
    exact Nat.zero_le _
  · by_cases hr : h.regions = []
    · rw [hb.unacquired hr] at hmem
      cases hmem
    · exact (bounds_of_tiles (hb.tiles hr) hmem hpos).2

/-- The usable address of every block is a word. -/
theorem address_eq (hb : h.Bounded a) {id : Nat} {b : Block} (hget : h.table.get? id = some b) :
    Word.sum b.start blockHeader = .ok (b.start + blockHeader) := by
  have hle := hb.fin_le b (List.mem_of_getElem? hget)
  have hword := lt_wordLimit hb.size_lt
  exact Word.sum_eq (by simp only [blockHeader, pageSize] at *; omega)

theorem addressed (hb : h.Bounded a) : h.table.Addressed := by
  intro b hmem _ _
  have hle := hb.fin_le b hmem
  have hword := lt_wordLimit hb.size_lt
  have hfin : b.fin = b.start + b.size := rfl
  omega

/-- The totals of a record are bytes and pages of memory. -/
theorem record_eq (hb : h.Bounded a) (call : HeapCall) (event : HeapEvent) :
    Machine.record h call event = .ok (h.record call event) := by
  have hbytes : h.stats.usedBytes + h.stats.freeBytes ≤ a.memory.size := by
    rw [stats_bytes hb.toTiled]
    split <;> omega
  have hpages : h.stats.pages < wordLimit := by
    have hmapped := hb.pages_mapped
    have hword := lt_wordLimit hb.size_lt
    rw [stats_pages]
    simp only [pageSize] at *
    omega
  have hword := lt_wordLimit hb.size_lt
  simp [Machine.record, Machine.stats, Word.total_eq hpages,
    Word.total_eq (by omega : h.stats.usedBytes < wordLimit),
    Word.total_eq (by omega : h.stats.freeBytes < wordLimit), bind, Except.bind, pure, Except.pure]

/-- A search on words finds what a search finds. -/
theorem find_cases (hb : h.Bounded a) (first : Nat) (hn : blockHeader ≤ need) :
    (h.table.find? first h.table.size need = none ∧
      Machine.find h.table first need = .ok (none, h.table)) ∨
    ∃ grant table, h.table.find? first h.table.size need = some (grant, table) ∧
      Machine.find h.table first need = .ok (some grant, table) ∧
      Bounded { h with table } a := by
  have hpos : 0 < need := Nat.lt_of_lt_of_le (by decide) hn
  unfold Machine.find Machine.onTable
  rcases BlockTable.Machine.find_cases { table := h.table } first h.table.size need with
    ⟨haddr, -⟩ | ⟨hlist, hrun, -⟩ | ⟨grant, table, w', id, hlist, hrun, -, heq, htakes, -⟩
  · exact absurd hb.addressed haddr
  · rw [hrun]
    exact Or.inl ⟨hlist, rfl⟩
  · obtain rfl := heq hb.exact.listed
    obtain ⟨b, hplaced⟩ := placed_of_find? hb.toTiled hn hlist
    rw [hrun]
    exact Or.inr ⟨grant, _, hlist, rfl, hplaced.tiled, (htakes.exact hb.exact hpos).forget,
      htakes.cleared hb.cleared hpos, hb.regions_le, hb.whole, hb.size_lt, hb.table_lt⟩

end Bounded

end Bounds
end Heap
end GuestLibrary
