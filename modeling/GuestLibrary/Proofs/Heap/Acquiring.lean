import GuestLibrary.Proofs.Heap.Bounded

/-! The next region on words. Its length is the size that is asked for, rounded up to whole pages
before any ceiling is looked at, so that it may be no word; and the memory that the ceilings admit
may be larger than any buffer. Nothing else can go wrong: where neither is the case, the region is
acquired or refused as the numbers say. -/
namespace GuestLibrary

namespace Stop

/-- A number is no word, or a buffer is larger than there can be. -/
def Exceeds (stop : Stop) : Prop := stop = .sum ∨ stop = .product ∨ stop = .capacity

theorem not_exceeds_slice (fin length : Nat) : ¬ (slice fin length).Exceeds := by
  rintro (h | h | h) <;> cases h

/-- A computation on words stops exactly where a condition holds; otherwise it has the result of the
computation on numbers, and keeps what there is to keep. -/
structure Computes {γ : Type} (keeps : γ → Prop) (stops : Prop) (r : Except Stop γ)
    (result : γ) : Prop where
  stopped : stops → ∃ stop, stop.Exceeds ∧ r = .error stop
  computed : ¬ stops → r = .ok result
  kept : ¬ stops → keeps result

namespace Computes

variable {γ δ : Type} {keeps : γ → Prop} {keeps' : δ → Prop} {stops stops' : Prop}
  {r : Except Stop γ} {result : γ}

theorem of_stop (hstops : stops) (he : ∃ stop, stop.Exceeds ∧ r = .error stop) :
    Computes keeps stops r result :=
  ⟨fun _ => he, fun hnot => absurd hstops hnot, fun hnot => absurd hstops hnot⟩

theorem of_ok (hnot : ¬ stops) (he : r = .ok result) (hkeeps : keeps result) :
    Computes keeps stops r result :=
  ⟨fun hstops => absurd hstops hnot, fun _ => he, fun _ => hkeeps⟩

/-- What goes on with a result that was computed goes on with that of the numbers. -/
theorem bind {f : γ → Except Stop δ} {final : δ} (hr : Computes keeps stops r result)
    (hf : ¬ stops → keeps result → f result = .ok final ∧ keeps' final) :
    Computes keeps' stops (r >>= f) final where
  stopped hstops := by
    obtain ⟨stop, hstop, he⟩ := hr.stopped hstops
    exact ⟨stop, hstop, by rw [he]; rfl⟩
  computed hnot := by
    rw [hr.computed hnot]
    exact (hf hnot (hr.kept hnot)).1
  kept hnot := (hf hnot (hr.kept hnot)).2

theorem congr (hr : Computes keeps stops r result) (hiff : stops ↔ stops') :
    Computes keeps stops' r result := by
  rwa [← propext hiff]

end Computes
end Stop

namespace HeapLimits

/-- A region that respects the ceiling on pages is not cut into more blocks than a buffer has bytes,
for a table with as many blocks as the pages may have needs a buffer too. -/
theorem blocksForRegion_lt {l : HeapLimits} {len : Nat} (hword : len < wordLimit)
    (hpages : pagesFor len ≤ l.maxPages)
    (htable : l.maxBlocks * Heap.Machine.blockBytes < Word.bufferLimit) :
    BlockTable.blocksForRegion len l.blockSize < Word.bufferLimit := by
  have hhalf : wordLimit = 2 * Word.bufferLimit := by decide
  have hsome : 1 < Word.bufferLimit := by decide
  have hpos := l.blockSize_pos
  unfold BlockTable.blocksForRegion
  split
  · omega
  rw [Nat.max_eq_left hpos]
  suffices len / l.blockSize < Word.bufferLimit by omega
  by_cases hsize : 2 ≤ l.blockSize
  · have hle : len / l.blockSize ≤ len / 2 := Nat.div_le_div_left hsize (by decide)
    omega
  · -- blocks of a byte are those of more than half a page of them
    have hone : l.blockSize = 1 := by omega
    have hmany : 32769 ≤ l.blocksPerPage := by
      by_contra hfew
      have hle : max 1 (min l.blocksPerPage pageSize) ≤ 32768 := by omega
      have htwo : pageSize / 32768 ≤ l.blockSize := Nat.div_le_div_left hle (by omega)
      rw [hone] at htwo
      exact absurd htwo (by decide)
    have hmul := Nat.mul_le_mul_left l.maxPages hmany
    have hlen : len ≤ pagesFor len * pageSize := Heap.le_pagesFor_mul len
    have hlimit : Word.bufferLimit = 9223372036854775808 := by decide
    rw [hone, Nat.div_one]
    simp only [maxBlocks, Heap.Machine.blockBytes, pageSize, hhalf, hlimit] at *
    omega

end HeapLimits

namespace Heap

/-- A search of the table and the memory of the next region exceed what there can be: its length is
no word, or the ceilings admit it and no buffer has as many bytes as the memory with it. -/
def Oversized (h : Heap) (a : Arena) (need : Nat) : Prop :=
  wordLimit ≤ h.regionLength a need ∨
    (h.Admits a need ∧ Word.bufferLimit ≤ (a.memory.pages + h.growth a need) * pageSize)

/-- A call of a heap keeps what the heap has in a memory that there can be. -/
abbrev Computes {β : Type} (stops : Prop) (r : Except Stop (β × Heap × Arena))
    (result : β × Heap × Arena) : Prop :=
  Stop.Computes (fun x => x.2.1.Bounded x.2.2) stops r result

section Regions

variable {h : Heap} {a a' : Arena} {need : Nat}

/-- The length of the next region, where the bytes of its whole pages are a word. -/
theorem nextRegion_of_product (h : Heap) (a : Arena)
    (hproduct : h.growth a need * pageSize < wordLimit) :
    Machine.nextRegion h a need =
      if h.regionLength a need < wordLimit then .ok (h.nextRegion a need) else .error .sum := by
  have hlength : h.regionLength a need = h.spare a + h.growth a need * pageSize := rfl
  rw [nextRegion_eq, hlength]
  by_cases hr : h.regions = []
  · have hspare : h.spare a = a.memory.size - a.heapBase := if_pos hr
    have hgrowth : pagesFor (need - (a.memory.size - a.heapBase)) = h.growth a need := by
      rw [growth, hspare]
    rw [hspare]
    by_cases hsum : a.memory.size - a.heapBase + h.growth a need * pageSize < wordLimit
    · simp [Machine.nextRegion, hr, hgrowth, Word.product_eq hproduct, Word.sum_eq hsum, hsum, bind,
        Except.bind, pure, Except.pure]
    · simp [Machine.nextRegion, hr, hgrowth, Word.product_eq hproduct,
        Word.sum_stops (Nat.le_of_not_lt hsum), hsum, bind, Except.bind]
  · have hspare : h.spare a = 0 := if_neg hr
    have hgrowth : pagesFor need = h.growth a need := by rw [growth, hspare, Nat.sub_zero]
    simp [Machine.nextRegion, hr, hgrowth, Word.product_eq hproduct, hspare, hproduct, bind,
      Except.bind, pure, Except.pure]

theorem nextRegion_of_product_stops (h : Heap) (a : Arena)
    (hover : wordLimit ≤ h.growth a need * pageSize) :
    Machine.nextRegion h a need = .error .product := by
  by_cases hr : h.regions = []
  · have hgrowth : pagesFor (need - (a.memory.size - a.heapBase)) = h.growth a need := by
      rw [growth, spare, if_pos hr]
    simp [Machine.nextRegion, hr, hgrowth, Word.product_stops hover, bind, Except.bind]
  · have hgrowth : pagesFor need = h.growth a need := by rw [growth, spare, if_neg hr, Nat.sub_zero]
    simp [Machine.nextRegion, hr, hgrowth, Word.product_stops hover, bind, Except.bind]

/-- The length of the next region is formed unless it is no word. -/
theorem nextRegion_cases (h : Heap) (a : Arena) (need : Nat) :
    (wordLimit ≤ h.regionLength a need ∧
      ∃ stop, stop.Exceeds ∧ Machine.nextRegion h a need = .error stop) ∨
    (h.regionLength a need < wordLimit ∧
      Machine.nextRegion h a need = .ok (h.nextRegion a need)) := by
  by_cases hproduct : h.growth a need * pageSize < wordLimit
  · rw [nextRegion_of_product h a hproduct]
    by_cases hlength : h.regionLength a need < wordLimit
    · exact Or.inr ⟨hlength, if_pos hlength⟩
    · exact Or.inl ⟨Nat.le_of_not_lt hlength, .sum, Or.inl rfl, if_neg hlength⟩
  · have hover := Nat.le_of_not_lt hproduct
    refine Or.inl ⟨Nat.le_trans hover (Nat.le_add_left _ _), .product, Or.inr (Or.inl rfl), ?_⟩
    exact nextRegion_of_product_stops h a hover

/-- Memory grows as the host grows it, unless no buffer has as many bytes. -/
theorem growMemory_cases (hb : h.Bounded a) {pages : Nat} (hpages : pages * pageSize < wordLimit) :
    (a.memory.pages + pages ≤ a.memory.maxPages ∧
      Word.bufferLimit ≤ (a.memory.pages + pages) * pageSize ∧
      ∃ stop, stop.Exceeds ∧ Machine.growMemory a pages = .error stop) ∨
    (¬ (a.memory.pages + pages ≤ a.memory.maxPages ∧
      Word.bufferLimit ≤ (a.memory.pages + pages) * pageSize) ∧
      Machine.growMemory a pages = .ok (a.grow? pages)) := by
  have hnext : a.memory.pages + pages < wordLimit := by
    have hwhole := hb.whole
    have hsize := hb.size_lt
    have hlimits : Word.bufferLimit + wordLimit < pageSize * wordLimit := by decide
    simp only [pageSize] at *
    omega
  unfold Machine.growMemory
  by_cases hhost : a.memory.pages + pages ≤ a.memory.maxPages
  · rw [if_neg (by omega)]
    by_cases hproduct : (a.memory.pages + pages) * pageSize < wordLimit
    · by_cases hbuffer : (a.memory.pages + pages) * pageSize < Word.bufferLimit
      · refine Or.inr ⟨fun hboth => absurd hboth.2 (Nat.not_le.mpr hbuffer), ?_⟩
        simp [Word.product_eq hproduct, Word.buffer_eq hbuffer, bind, Except.bind, pure,
          Except.pure]
      · have hover := Nat.le_of_not_lt hbuffer
        refine Or.inl ⟨hhost, hover, .capacity, Or.inr (Or.inr rfl), ?_⟩
        simp [Word.product_eq hproduct, Word.buffer_stops hover, bind, Except.bind]
    · have hover := Nat.le_of_not_lt hproduct
      have hlimits : Word.bufferLimit ≤ wordLimit := by decide
      refine Or.inl ⟨hhost, by omega, .product, Or.inr (Or.inl rfl), ?_⟩
      simp [Word.product_stops hover, bind, Except.bind]
  · have hnone : a.grow? pages = none := by
      simp [Arena.grow?, LinearMemory.grow?, Nat.lt_of_not_le hhost]
    rw [if_pos (by omega), hnone]
    exact Or.inr ⟨fun hboth => hhost hboth.1, rfl⟩

/-- The memory that there is has a buffer. -/
theorem Bounded.not_bufferLimit_le (hb : h.Bounded a) :
    ¬ Word.bufferLimit ≤ (a.memory.pages + 0) * pageSize := by
  have hwhole := hb.whole
  have hsize := hb.size_lt
  rw [Nat.add_zero, hwhole]
  omega

/-- A region is laid out as the numbers say, unless no buffer has the bytes of its memory. -/
theorem layOut_cases (hb : h.Bounded a) {start : Option Nat} {len grow : Nat}
    (hgrow : grow * pageSize < wordLimit)
    (hstart : ∀ s, start = some s →
      s = a.heapBase ∧ len = a.memory.size - a.heapBase + grow * pageSize) :
    (a.memory.pages + grow ≤ a.memory.maxPages ∧
      Word.bufferLimit ≤ (a.memory.pages + grow) * pageSize ∧
      ∃ stop, stop.Exceeds ∧ Machine.layOut a start len grow (pagesFor len) = .error stop) ∨
    (¬ (a.memory.pages + grow ≤ a.memory.maxPages ∧
      Word.bufferLimit ≤ (a.memory.pages + grow) * pageSize) ∧
      Machine.layOut a start len grow (pagesFor len) = .ok (layOut? a start len grow)) := by
  have hbase : a.heapBase + (a.memory.size - a.heapBase) < wordLimit := by
    have hbased := hb.based
    have hword := lt_wordLimit hb.size_lt
    omega
  cases start with
  | none =>
    rcases growMemory_cases hb hgrow with ⟨hhost, hbuffer, stop, hstop, he⟩ | ⟨hnot, he⟩
    · exact Or.inl ⟨hhost, hbuffer, stop, hstop, by simp [Machine.layOut, he, bind, Except.bind]⟩
    · refine Or.inr ⟨hnot, ?_⟩
      cases hgrown : a.grow? grow <;>
        simp [Machine.layOut, layOut?, he, hgrown, Word.product_eq hgrow, bind, Except.bind, pure,
          Except.pure]
  | some s =>
    obtain ⟨rfl, hlen⟩ := hstart s rfl
    cases grow with
    | zero => exact Or.inr ⟨fun hboth => hb.not_bufferLimit_le hboth.2, rfl⟩
    | succ n =>
      have htail : len - (n + 1) * pageSize = a.memory.size - a.heapBase := by omega
      rcases growMemory_cases hb hgrow with ⟨hhost, hbuffer, stop, hstop, he⟩ | ⟨hnot, he⟩
      · exact Or.inl ⟨hhost, hbuffer, stop, hstop,
          by simp [Machine.layOut, he, bind, Except.bind]⟩
      · refine Or.inr ⟨hnot, ?_⟩
        cases hgrown : a.grow? (n + 1) with
        | none => simp [Machine.layOut, layOut?, he, hgrown, bind, Except.bind, pure, Except.pure]
        | some grown =>
          simp only [Machine.layOut, layOut?, he, hgrown, htail, Word.sum_eq hbase,
            Word.product_eq hgrow, bind, Except.bind, pure, Except.pure, Option.map_some]
          split <;> simp [*]

/-- Memory with the next region. -/
theorem Follows.size_eq (hb : h.Bounded a) {region : Region} (hf : h.Follows a need region a') :
    a'.memory.size = (a.memory.pages + h.growth a need) * pageSize := by
  have hfin := hf.fin_eq
  have hstart := hf.start_eq
  have hlength : h.regionLength a need = h.spare a + h.growth a need * pageSize := rfl
  have hbased := hb.based
  rw [Nat.add_mul, hb.whole, ← hfin, hf.len_eq, hlength, hstart]
  unfold spare
  split <;> omega

theorem Bounded.follows (hb : h.Bounded a) {region : Region} {ids : Nat × Nat} {table : BlockTable}
    (hf : h.Follows a need region a')
    (happ : h.table.appendRegion? region.start region.len h.limits.blockSize = some (ids, table))
    (hexact : BlockTable.Machine.Exact { table })
    (hbuffer : (a.memory.pages + h.growth a need) * pageSize < Word.bufferLimit) :
    Bounded { h with table, regions := h.regions ++ [region] } a' := by
  have hsize := hf.size_eq hb
  obtain ⟨hblocks, -, -⟩ := BlockTable.appendRegion?_eq_some happ
  refine ⟨(hb.toTiled.follows hf happ).tiled, hexact, fun b hmem hz => ?_, fun r hr => ?_, ?_, ?_,
    hb.table_lt⟩
  · rw [hblocks] at hmem
    rcases List.mem_append.mp hmem with hold | hnew
    · exact hb.cleared b hold hz
    · have hpos :=
        (BlockTable.Machine.pos_and_paged_of_mem_cut h.limits.blockSize_pos hnew).1
      omega
  · rcases List.mem_append.mp hr with hold | hnew
    · exact Nat.le_trans (hb.regions_le r hold) hf.changed.size_le
    · rw [List.mem_singleton.mp hnew]
      exact hf.fin_eq.le
  · rw [LinearMemory.pages, hsize, Nat.mul_div_cancel _ (by decide)]
  · rwa [hsize]

/-- The memory of a region that was laid out has a buffer. -/
theorem Follows.lt_bufferLimit (hb : h.Bounded a) {region : Region}
    (hf : h.Follows a need region a')
    (hnot : ¬ (a.memory.pages + h.growth a need ≤ a.memory.maxPages ∧
      Word.bufferLimit ≤ (a.memory.pages + h.growth a need) * pageSize)) :
    (a.memory.pages + h.growth a need) * pageSize < Word.bufferLimit := by
  have hsize := hf.size_eq hb
  rcases hf.arena_eq with rfl | ⟨pages, base, hgrown⟩
  · rw [← hsize]
    exact hb.size_lt
  · obtain ⟨-, hmemory⟩ := Arena.grow?_eq_some hgrown
    have hgrew := (LinearMemory.grow?_eq_some hmemory).2.1
    have hpages : pages = h.growth a need := by
      have hwhole := hb.whole
      rw [Nat.add_mul] at hsize
      exact Nat.eq_of_mul_eq_mul_right (by decide : 0 < pageSize) (by omega)
    have hhost : a.memory.pages + pages ≤ a.memory.maxPages := by
      by_contra hpast
      simp [LinearMemory.grow?, Nat.lt_of_not_le hpast] at hmemory
    by_contra hge
    exact hnot ⟨hpages ▸ hhost, Nat.le_of_not_lt hge⟩

/-- The blocks of a region that was laid out are appended on words as in a list. -/
theorem Bounded.append_cases (hb : h.Bounded a) {region : Region}
    (hf : h.Follows a need region a')
    (hroom : h.table.size + BlockTable.blocksForRegion region.len h.limits.blockSize ≤
      h.table.capacity)
    (hids : h.table.size + BlockTable.blocksForRegion region.len h.limits.blockSize < wordLimit)
    (hbuffer : (a.memory.pages + h.growth a need) * pageSize < Word.bufferLimit) :
    ∃ ids table, h.table.appendRegion? region.start region.len h.limits.blockSize =
        some (ids, table) ∧
      Machine.onTable h.table (BlockTable.Machine.appendRegion region.start region.len
        h.limits.blockSize) = .ok (some ids, table) ∧
      Bounded { h with table, regions := h.regions ++ [region] } a' := by
  unfold Machine.onTable
  rcases BlockTable.Machine.appendRegion_cases { table := h.table } region.start region.len
      h.limits.blockSize with
    ⟨stop, fresh, -, -, -, hover | hover⟩ | ⟨hlist, hrun⟩ | ⟨ids, hlist, hrun⟩
  · exact absurd hids (Nat.not_lt.mpr hover)
  · -- the region ends where memory does
    have hend := hf.fin_eq
    have hsize := hf.size_eq hb
    have hlimit : Word.bufferLimit < wordLimit := by decide
    omega
  · obtain ⟨ids, table, happ⟩ := BlockTable.appendRegion?_isSome region.start hroom
    cases hlist.symm.trans happ
  · rw [hrun]
    refine ⟨ids, _, hlist, rfl, hb.follows hf hlist ?_ hbuffer⟩
    exact (hb.exact.pushAll fun b hmem =>
      BlockTable.Machine.pos_and_paged_of_mem_cut h.limits.blockSize_pos hmem).forget

/-- The pages and the blocks that are held against the ceilings are words, if the length of the
region is one. -/
theorem Bounded.counts_lt (hb : h.Bounded a) (hword : h.regionLength a need < wordLimit) :
    h.pagesAcquired + pagesFor (h.regionLength a need) < wordLimit ∧
    (h.pagesAcquired + pagesFor (h.regionLength a need) ≤ h.limits.maxPages →
      h.table.size + BlockTable.blocksForRegion (h.regionLength a need) h.limits.blockSize <
        wordLimit) := by
  have hlimit : wordLimit = 2 * Word.bufferLimit := by decide
  have hsize := hb.size_lt
  refine ⟨?_, fun hpages => ?_⟩
  · have hmapped := hb.pages_mapped
    have hlarge : 4 * pageSize < Word.bufferLimit := by decide
    simp only [pagesFor, pageSize] at *
    omega
  · have hcount := HeapLimits.blocksForRegion_lt hword
      (Nat.le_trans (Nat.le_add_left _ _) hpages) hb.table_lt
    have hfew := hb.blocks_mapped
    omega

/-- The first region begins at the heap base, with what is mapped behind it. -/
theorem eq_heapBase_of_start (h : Heap) (a : Arena) (need : Nat) {s : Nat}
    (hs : (if h.regions = [] then some a.heapBase else none) = some s) :
    s = a.heapBase ∧
      h.regionLength a need = a.memory.size - a.heapBase + h.growth a need * pageSize := by
  by_cases hr : h.regions = []
  · rw [if_pos hr] at hs
    exact ⟨(Option.some.inj hs).symm, by rw [regionLength, spare, if_pos hr]⟩
  · rw [if_neg hr] at hs
    cases hs

/-- A region is acquired, or refused, unless it is oversized. -/
theorem addRegion_computes (hb : h.Bounded a) (call : HeapCall) :
    Computes (h.Oversized a need) (Machine.addRegion h a call need)
      (h.addRegion a call need) := by
  rcases nextRegion_cases h a need with ⟨hover, stop, hstop, he⟩ | ⟨hword, hnext⟩
  · exact .of_stop (Or.inl hover) ⟨stop, hstop, by simp [Machine.addRegion, he, bind, Except.bind]⟩
  have hrefused : ¬ h.Admits a need → ¬ h.Oversized a need := fun hnot hover =>
    hover.elim (fun hle => absurd hword (Nat.not_lt.mpr hle)) fun hboth => hnot hboth.1
  obtain ⟨hpages, hblocks⟩ := hb.counts_lt hword
  rw [addRegion_eq]
  unfold Machine.addRegion
  rw [hnext, nextRegion_eq]
  simp only [bind, Except.bind, pure, Except.pure, Word.sum_eq hpages,
    Word.total_eq (Nat.lt_of_le_of_lt (Nat.le_add_right _ _) hpages)]
  split
  · rename_i hp
    exact .of_ok (hrefused fun hadmits => absurd hadmits.pages_le (Nat.not_le.mpr hp))
      (by rw [hb.record_eq]) (hb.record call _)
  rename_i hp
  have hp := Nat.le_of_not_lt hp
  rw [Word.sum_eq (hblocks hp)]
  dsimp only
  split
  · rename_i hc
    exact .of_ok (hrefused fun hadmits => absurd hadmits.blocks_le (Nat.not_le.mpr hc))
      (by rw [hb.record_eq]) (hb.record call _)
  rename_i hc
  have hc := Nat.le_of_not_lt hc
  have hgrow : h.growth a need * pageSize < wordLimit :=
    Nat.lt_of_le_of_lt (Nat.le_add_left _ _) hword
  rcases layOut_cases hb hgrow (fun s => h.eq_heapBase_of_start a need) with
    ⟨hhost, hbuffer, stop, hstop, he⟩ | ⟨hnobuffer, he⟩
  · rw [he]
    exact .of_stop (Or.inr ⟨⟨hp, hc, Or.inr hhost⟩, hbuffer⟩) ⟨stop, hstop, rfl⟩
  have hnot : ¬ h.Oversized a need := by
    rintro (hle | ⟨hadmits, hbuffer⟩)
    · omega
    · rcases hadmits.host_le with hzero | hhost
      · rw [hzero] at hbuffer
        exact hb.not_bufferLimit_le hbuffer
      · exact hnobuffer ⟨hhost, hbuffer⟩
  rw [he]
  dsimp only
  cases hl : layOut? a (if h.regions = [] then some a.heapBase else none) (h.regionLength a need)
      (h.growth a need) with
  | none => exact .of_ok hnot (by rw [hb.record_eq]) (hb.record call _)
  | some placed =>
    obtain ⟨region, a'⟩ := placed
    have hf := follows_of_layOut? (Nat.le_of_lt hb.based) rfl hl hp
    obtain ⟨ids, table, happ, hrun, hfollows⟩ := hb.append_cases hf (hf.len_eq ▸ hc)
      (hf.len_eq ▸ hblocks hp) (hf.lt_bufferLimit hb hnobuffer)
    dsimp only
    rw [hrun, happ]
    dsimp only
    exact .of_ok hnot (by rw [hfollows.record_eq]) (hfollows.record call _)

end Regions
end Heap
end GuestLibrary
