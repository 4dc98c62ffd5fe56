import GuestLibrary.Proofs.Heap.Accounting

/-! The states that a heap and its arena can reach through any calls, with any arguments and any
writes of the program in between. -/
namespace GuestLibrary
namespace Heap

/-- A call on a heap. -/
inductive Request
  | allocate (size : Nat)
  | allocateZeroed (count size : Nat)
  | reallocate (current : Option Allocation) (size : Nat)
  | release (grant : Allocation)
  | releaseAddress (address : Nat)

/-- Serves a call: the grant that it returns, if it returns one. -/
def perform (h : Heap) (a : Arena) :
    Request → Except AllocError (Option Allocation) × Heap × Arena
  | .allocate size =>
    let (r, h, a) := h.allocate a size
    (r.map some, h, a)
  | .allocateZeroed count size =>
    let (r, h, a) := h.allocateZeroed a count size
    (r.map some, h, a)
  | .reallocate current size =>
    let (r, h, a) := h.reallocate a current size
    (r.map some, h, a)
  | .release grant =>
    let (r, h) := h.release grant
    (r.map fun _ => none, h, a)
  | .releaseAddress address =>
    let (r, h) := h.releaseAddress address
    (r.map fun _ => none, h, a)

/-- A call that resizes a live grant. -/
def Request.Resizes (r : Request) (g : Allocation) : Prop :=
  ∃ current size, r = .reallocate (some current) size ∧ current.block = g.block ∧
    current.address = g.address

/-- What any calls on a fresh heap lead to. The program may write where `writable` says so of the
heap at that time, the address and the number of bytes. -/
inductive Reachable (limits : HeapLimits) (writable : Heap → Nat → Nat → Prop) :
    Heap → Arena → Prop
  | fresh {a : Arena} : a.Simulated → Reachable limits writable (.ofLimits limits) a
  | call {h : Heap} {a : Arena} (r : Request) : Reachable limits writable h a →
      Reachable limits writable (h.perform a r).2.1 (h.perform a r).2.2
  | write {h : Heap} {a : Arena} (address : Nat) (block : Bytes) :
      Reachable limits writable h a → writable h address block.length →
      Reachable limits writable h (a.write address block)

variable {h : Heap} {a : Arena} {limits : HeapLimits} {writable : Heap → Nat → Nat → Prop}

/-- Every call is one step. It frees a block and marks another only where it moves a live grant. -/
theorem perform_step (hs : h.Sound a) (r : Request) : ∃ released granted,
    h.Step a (h.perform a r).2.1 (h.perform a r).2.2 released granted ∧
      ∀ i x, released = some i → granted = some x → ∃ current size old,
        r = .reallocate (some current) size ∧ current.block = i ∧ h.table.Uses i old ∧
          current.address = old.start + blockHeader := by
  have hallocate : ∀ call size, ∃ granted,
      h.Step a (h.allocateFor a call size).2.1 (h.allocateFor a call size).2.2 none granted := by
    intro call size
    rcases allocateFor_cases hs call size with
      ⟨id, b, h', a', he, -, hstep⟩ | ⟨e, h', a', he, -, hstep⟩
    · rw [he]
      exact ⟨_, hstep⟩
    · rw [he]
      exact ⟨_, hstep⟩
  cases r with
  | allocate size =>
    obtain ⟨granted, hstep⟩ := hallocate .malloc size
    exact ⟨none, granted, hstep, fun i x hr => by cases hr⟩
  | allocateZeroed count size =>
    rcases allocateZeroed_cases hs count size with
      ⟨id, b, h', a', he, -, hstep, -⟩ | ⟨e, h', a', he, -, hstep⟩
    all_goals
      dsimp only [perform]
      rw [he]
      exact ⟨none, _, hstep, fun i x hr => by cases hr⟩
  | reallocate current size =>
    cases current with
    | none =>
      obtain ⟨granted, hstep⟩ := hallocate .realloc size
      exact ⟨none, granted, hstep, fun i x hr => by cases hr⟩
    | some current =>
      dsimp only [perform, reallocate]
      rcases resize_cases hs current size with
        ⟨old, id, b, h', a', hold, ha, he, -, hstep⟩ | ⟨old, h', -, -, he, -, hstep⟩ |
        ⟨e, h', a', he, hstep, -⟩
      · rw [he]
        refine ⟨some current.block, some (id, b), hstep, fun i x hr _ => ?_⟩
        obtain rfl := Option.some.inj hr
        exact ⟨current, size, old, rfl, rfl, hold, ha⟩
      · rw [he]
        exact ⟨none, none, hstep, fun i x hr => by cases hr⟩
      · rw [he]
        exact ⟨none, none, hstep, fun i x hr => by cases hr⟩
  | release grant =>
    dsimp only [perform]
    rcases release_cases hs grant with ⟨b, h', -, -, he, hstep⟩ | ⟨d, h', -, he, hstep⟩
    all_goals
      rw [he]
      exact ⟨_, none, hstep, fun i x _ hg => by cases hg⟩
  | releaseAddress address =>
    dsimp only [perform]
    rcases releaseAddress_cases hs address with ⟨id, b, h', -, -, he, hstep⟩ | ⟨r, h', he, hstep, -⟩
    all_goals
      rw [he]
      exact ⟨_, none, hstep, fun i x _ hg => by cases hg⟩

theorem Sound.perform (hs : h.Sound a) (r : Request) :
    (h.perform a r).2.1.Sound (h.perform a r).2.2 := by
  obtain ⟨released, granted, hstep, -⟩ := perform_step hs r
  exact hstep.sound

/-- No call moves the ceiling of the host. -/
theorem maxPages_perform (hs : h.Sound a) (r : Request) :
    (h.perform a r).2.2.memory.maxPages = a.memory.maxPages := by
  obtain ⟨released, granted, hstep, -⟩ := perform_step hs r
  exact hstep.changed.maxPages_eq

theorem Sound.write (hs : h.Sound a) (address : Nat) (block : Bytes) :
    h.Sound (a.write address block) :=
  ⟨hs.toTiled.of_size_eq rfl (by simp), hs.lists⟩

/-- The invariant holds along every run. -/
theorem Reachable.sound (hr : Reachable limits writable h a) : h.Sound a ∧ h.limits = limits := by
  induction hr with
  | fresh ha => exact ⟨sound_ofLimits limits ha.heapBase_lt, rfl⟩
  | call r _ ih =>
    obtain ⟨released, granted, hstep, -⟩ := perform_step ih.1 r
    exact ⟨hstep.sound, hstep.limits_eq.trans ih.2⟩
  | write address block _ _ ih => exact ⟨ih.1.write address block, ih.2⟩

/-- In every reachable state the blocks that have a size tile the memory behind the heap base, used
blocks have room for their header, and the live map lists exactly the used blocks. So live grants
do not overlap, headers included, the statistics account for every byte and every grant, and the
ceilings hold. -/
theorem reachable_tiled (hr : Reachable limits writable h a) :
    (h.regions ≠ [] → Tiles a.heapBase (sized h.table.blocks) a.memory.size) ∧
    (∀ b ∈ h.table.blocks, b.used → blockHeader ≤ b.size) ∧
    (h.live.Pairwise (·.1 < ·.1) ∧ ∀ address id, (address, id) ∈ h.live ↔
      ∃ b, h.table.get? id = some b ∧ b.used ∧ address = b.start + blockHeader) ∧
    (∀ g ∈ h.liveAllocations, ∀ g' ∈ h.liveAllocations, g ≠ g' →
      g.address + g.length + blockHeader ≤ g'.address ∨
        g'.address + g'.length + blockHeader ≤ g.address) ∧
    (h.stats.usedBytes + h.stats.freeBytes =
      if h.regions = [] then 0 else a.memory.size - a.heapBase) ∧
    h.stats.active = h.liveCount ∧
    h.stats.pages ≤ limits.maxPages ∧
    h.stats.descriptors ≤ limits.maxPages * limits.blocksPerPage := by
  obtain ⟨hs, hlimits⟩ := hr.sound
  refine ⟨hs.tiles, ?_, ⟨hs.lists.ordered, ?_⟩, ?_, stats_bytes hs.toTiled, stats_active hs, ?_, ?_⟩
  · intro b hb hu
    obtain ⟨id, hid⟩ := List.mem_iff_getElem?.mp hb
    exact hs.headed id b ⟨hid, hu⟩
  · intro address id
    rw [hs.lists.mem_iff]
    simp only [BlockTable.Uses, and_assoc]
  · exact fun g hg g' hg' hne => apart_of_live hs hg hg' hne
  · rw [stats_pages, ← hlimits]
    exact hs.pages_le
  · rw [stats_descriptors, ← hlimits]
    have hle := hs.size_le
    rw [hs.capacity_eq] at hle
    exact hle.trans h.limits.maxBlocks_le

theorem size_onePage : (Arena.ofBase 0 1).memory.size = 65536 := Arena.size_ofBase 0 1

/-- The blocks that a page is cut into when it becomes the first region. -/
def firstCut (limits : HeapLimits) : List Block :=
  BlockTable.cut 0 pageSize limits.blockSize (BlockTable.blocksForRegion pageSize limits.blockSize)

/-- A new heap takes the memory behind its base as its first region, where that is enough, and cuts
it into free blocks. -/
theorem addRegion_behind {limits : HeapLimits} {call : HeapCall} {need len : Nat}
    (hlen : a.memory.size - a.heapBase = len) (hneed : need ≤ len)
    (hpages : pagesFor len ≤ limits.maxPages)
    (hroom : BlockTable.blocksForRegion len limits.blockSize ≤ limits.maxBlocks) :
    ∃ h, (ofLimits limits).addRegion a call need = (.ok (), h, a) ∧ h.live = [] ∧
      h.regions = [⟨a.heapBase, len, pagesFor len⟩] ∧
      h.table.blocks = BlockTable.cut a.heapBase len limits.blockSize
        (BlockTable.blocksForRegion len limits.blockSize) := by
  have hnext : (ofLimits limits).nextRegion a need = (some a.heapBase, len, 0) := by
    have hnone : pagesFor (need - len) = 0 := by
      rw [Nat.sub_eq_zero_of_le hneed]
      rfl
    simp [nextRegion, ofLimits, hlen, hnone]
  unfold addRegion
  rw [hnext]
  simp [ofLimits, pagesAcquired, BlockTable.size, BlockTable.appendRegion?, record,
    Nat.not_lt.mpr hpages, Nat.not_lt.mpr hroom]

/-- A new heap over one page takes the page as its first region. -/
theorem addRegion_first {limits : HeapLimits} {call : HeapCall} {need : Nat}
    (hbase : a.heapBase = 0) (hsize : a.memory.size = pageSize) (hneed : need ≤ pageSize)
    (hpages : 1 ≤ limits.maxPages)
    (hroom : BlockTable.blocksForRegion pageSize limits.blockSize ≤ limits.maxBlocks) :
    ∃ h, (ofLimits limits).addRegion a call need = (.ok (), h, a) ∧ h.live = [] ∧
      h.regions = [⟨0, pageSize, 1⟩] ∧ h.table.blocks = firstCut limits := by
  have hlen : a.memory.size - a.heapBase = pageSize := by rw [hbase, hsize, Nat.sub_zero]
  obtain ⟨h, he, hlive, hregions, hblocks⟩ :=
    @addRegion_behind a limits call need pageSize hlen hneed hpages hroom
  rw [hbase] at hregions hblocks
  exact ⟨h, he, hlive, hregions, hblocks⟩

/-- An allocation that no block serves until a region is acquired. -/
theorem allocate_of_acquired {h₀ h : Heap} {a₀ : Arena} {call : HeapCall} {size : Nat}
    {table : BlockTable} {grant : Grant} {b : Block} (hword : size + blockHeader < wordLimit)
    (hnone : h₀.table.find? 0 h₀.table.size (size + blockHeader) = none)
    (hregion : h₀.addRegion a₀ call (size + blockHeader) = (.ok (), h, a))
    (hfind : h.table.find? 0 h.table.size (size + blockHeader) = some (grant, table))
    (hb : table.blocks[grant.id]? = some b) :
    ∃ h' a', h₀.allocateFor a₀ call size =
        (.ok ⟨grant.id, b.start + blockHeader, b.size - blockHeader⟩, h', a') ∧
      h'.live = LiveGrants.insert (b.start + blockHeader) grant.id h.live ∧
      h'.regions = h.regions ∧ h'.table.blocks = table.blocks := by
  have hsearch : h₀.searchGrowing a₀ call (size + blockHeader) =
      (.ok grant, { h with table }, a) := by
    unfold searchGrowing
    rw [hnone, hregion]
    dsimp only
    rw [hfind]
  simp [allocateFor, Nat.not_le.mpr hword, hsearch, commit?, BlockTable.get?, hb, record]

/-- An allocation that the blocks at hand serve. -/
theorem allocate_of_found {size : Nat} {grant : Grant} {table : BlockTable} {b : Block}
    (hword : size + blockHeader < wordLimit)
    (hfind : h.table.find? 0 h.table.size (size + blockHeader) = some (grant, table))
    (hb : table.blocks[grant.id]? = some b) :
    ∃ h' a', h.allocate a size =
        (.ok ⟨grant.id, b.start + blockHeader, b.size - blockHeader⟩, h', a') ∧
      h'.live = LiveGrants.insert (b.start + blockHeader) grant.id h.live ∧
      h'.regions = h.regions ∧ h'.table.blocks = table.blocks := by
  have hsearch : h.searchGrowing a .malloc (size + blockHeader) =
      (.ok grant, { h with table }, a) := by
    unfold searchGrowing
    rw [hfind]
  simp [allocate, allocateFor, Nat.not_le.mpr hword, hsearch, commit?, BlockTable.get?, hb, record]

/-- The first grant of a new heap over one page is cut from the blocks of that page. -/
theorem allocate_first {limits : HeapLimits} {size : Nat} {found : BlockTable.Found} {b : Block}
    (hbase : a.heapBase = 0) (hsize : a.memory.size = pageSize)
    (hneed : size + blockHeader ≤ pageSize) (hpages : 1 ≤ limits.maxPages)
    (hroom : BlockTable.blocksForRegion pageSize limits.blockSize ≤ limits.maxBlocks)
    (hfound : BlockTable.firstFit? (size + blockHeader) (firstCut limits).length 0 none
      (firstCut limits) = some found)
    (hb : found.blocks[found.grant.id]? = some b) :
    ∃ h a', (ofLimits limits).allocate a size =
        (.ok ⟨found.grant.id, b.start + blockHeader, b.size - blockHeader⟩, h, a') ∧
      h.live = [(b.start + blockHeader, found.grant.id)] ∧
      h.regions = [⟨0, pageSize, 1⟩] ∧ h.table.blocks = found.blocks := by
  obtain ⟨h, hregion, hlive, hregions, hblocks⟩ :=
    @addRegion_first a limits .malloc _ hbase hsize hneed hpages hroom
  have hnone : (ofLimits limits).table.find? 0 (ofLimits limits).table.size (size + blockHeader) =
      none := by
    simp [ofLimits, BlockTable.find?, BlockTable.size, BlockTable.firstFit?]
  have hfind : ∃ table, h.table.find? 0 h.table.size (size + blockHeader) =
      some (found.grant, table) ∧ table.blocks = found.blocks := by
    simp [BlockTable.find?, BlockTable.size, hblocks, hfound]
  obtain ⟨table, hfind, htable⟩ := hfind
  have hword : size + blockHeader < wordLimit := Nat.lt_of_le_of_lt hneed (by decide)
  rw [← htable] at hb
  obtain ⟨h', a', he, hlive', hregions', hblocks'⟩ :=
    allocate_of_acquired hword hnone hregion hfind hb
  rw [hlive] at hlive'
  exact ⟨h', a', he, hlive', hregions'.trans hregions, hblocks'.trans htable⟩

theorem perform_allocate {h h' : Heap} {a' : Arena} {size : Nat} {g : Allocation}
    (he : h.allocate a size = (.ok g, h', a')) :
    h.perform a (.allocate size) = (.ok (some g), h', a') := by
  dsimp only [perform]
  rw [he]
  rfl

/-- The first grant of a heap of one page and four blocks takes the first block. -/
theorem perform_quarterPage (hbase : a.heapBase = 0) (hsize : a.memory.size = 65536) : ∃ h a',
    (ofLimits ⟨1, 4⟩).perform a (.allocate 10) = (.ok (some ⟨0, 4, 16380⟩), h, a') ∧
      h.live = [(4, 0)] ∧ h.regions = [⟨0, 65536, 1⟩] ∧
      h.table.blocks = [⟨0, 16384, 0, true⟩, ⟨16384, 16384, 0, false⟩, ⟨32768, 16384, 0, false⟩,
        ⟨49152, 16384, 0, false⟩] := by
  obtain ⟨h, a', he, hlive, hregions, hblocks⟩ := @allocate_first a ⟨1, 4⟩ 10
    ⟨⟨0, 0, .unsplit⟩, [⟨0, 16384, 0, true⟩, ⟨16384, 16384, 0, false⟩, ⟨32768, 16384, 0, false⟩,
      ⟨49152, 16384, 0, false⟩], [], none⟩
    ⟨0, 16384, 0, true⟩ hbase hsize (by decide) (by decide) (by decide) rfl rfl
  exact ⟨h, a', perform_allocate he, hlive, hregions, hblocks⟩

/-- A page of four blocks after two allocations: the first has a block, the second has two as one,
whose other one is a hole now. -/
def twoGrants : List Block :=
  [⟨0, 16384, 0, true⟩, ⟨16384, 32768, 0, true⟩, ⟨0, 0, 0, false⟩, ⟨49152, 16384, 0, false⟩]

theorem perform_twoGrants (hbase : a.heapBase = 0) (hsize : a.memory.size = 65536) :
    ∃ h₁ a₁ h₂ a₂, (ofLimits ⟨1, 4⟩).perform a (.allocate 10) = (.ok (some ⟨0, 4, 16380⟩), h₁, a₁) ∧
      h₁.perform a₁ (.allocate 32764) = (.ok (some ⟨1, 16388, 32764⟩), h₂, a₂) ∧
      h₂.live = [(4, 0), (16388, 1)] ∧ h₂.regions = [⟨0, 65536, 1⟩] ∧
      h₂.table.blocks = twoGrants := by
  obtain ⟨h₁, a₁, hfirst, hlive, hregions, hblocks⟩ := perform_quarterPage hbase hsize
  have hfound : BlockTable.firstFit? 32768 4 0 none [⟨0, 16384, 0, true⟩, ⟨16384, 16384, 0, false⟩,
      ⟨32768, 16384, 0, false⟩, ⟨49152, 16384, 0, false⟩] =
        some ⟨⟨1, 1, .perfect⟩, twoGrants, [0], none⟩ := rfl
  have hfind : ∃ table, h₁.table.find? 0 h₁.table.size (32764 + blockHeader) =
      some (⟨1, 1, .perfect⟩, table) ∧ table.blocks = twoGrants := by
    simp [BlockTable.find?, BlockTable.size, hblocks, blockHeader, hfound]
  obtain ⟨table, hfind, htable⟩ := hfind
  have hblock : table.blocks[1]? = some ⟨16384, 32768, 0, true⟩ := by simp [htable, twoGrants]
  obtain ⟨h₂, a₂, hsecond, hlive', hregions', hblocks'⟩ :=
    @allocate_of_found h₁ a₁ 32764 _ table _ (by decide) hfind hblock
  rw [hlive] at hlive'
  exact ⟨h₁, a₁, h₂, a₂, hfirst, perform_allocate hsecond, hlive', hregions'.trans hregions,
    hblocks'.trans htable⟩

/-- The first grant of a heap of one page and one block takes the whole page. -/
theorem perform_onePage (hbase : a.heapBase = 0) (hsize : a.memory.size = 65536) : ∃ h a',
    (ofLimits ⟨1, 1⟩).perform a (.allocate 10) = (.ok (some ⟨0, 4, 65532⟩), h, a') ∧
      h.live = [(4, 0)] ∧ h.regions = [⟨0, 65536, 1⟩] ∧
      h.table.blocks = [⟨0, 65536, 0, true⟩] := by
  obtain ⟨h, a', he, hlive, hregions, hblocks⟩ := @allocate_first a ⟨1, 1⟩ 10
    ⟨⟨0, 0, .unsplit⟩, [⟨0, 65536, 0, true⟩], [], none⟩ ⟨0, 65536, 0, true⟩ hbase hsize
    (by decide) (by decide) (by decide) rfl rfl
  exact ⟨h, a', perform_allocate he, hlive, hregions, hblocks⟩

theorem allocate_onePage (hbase : a.heapBase = 0) (hsize : a.memory.size = 65536) :
    ((Heap.ofLimits ⟨1, 1⟩).perform a (.allocate 10)).1 = .ok (some ⟨0, 4, 65532⟩) ∧
    ((Heap.ofLimits ⟨1, 1⟩).perform a (.allocate 10)).2.1.live = [(4, 0)] ∧
    ((Heap.ofLimits ⟨1, 1⟩).perform a (.allocate 10)).2.1.regions = [⟨0, 65536, 1⟩] := by
  obtain ⟨h, a', he, hlive, hregions, -⟩ := perform_onePage hbase hsize
  rw [he]
  exact ⟨rfl, hlive, hregions⟩

/-- Whatever a program may write, it can get there without. -/
theorem reachable_twoGrants (writable : Heap → Nat → Nat → Prop) : ∃ h a,
    Reachable ⟨1, 4⟩ writable h a ∧ h.live = [(4, 0), (16388, 1)] ∧
      h.regions = [⟨0, 65536, 1⟩] ∧ h.table.blocks = twoGrants := by
  obtain ⟨h₁, a₁, h₂, a₂, hfirst, hsecond, hsame⟩ := perform_twoGrants rfl size_onePage
  have hr := ((Reachable.fresh (.ofBase 0 1) : Reachable ⟨1, 4⟩ writable _ _).call
    (.allocate 10)).call (.allocate 32764)
  rw [hfirst, hsecond] at hr
  exact ⟨h₂, a₂, hr, hsame⟩

theorem liveAllocations_twoGrants (hlive : h.live = [(4, 0), (16388, 1)])
    (hblocks : h.table.blocks = twoGrants) :
    h.liveAllocations = [⟨0, 4, 16380⟩, ⟨1, 16388, 32764⟩] := by
  simp [liveAllocations, hlive, handle?, BlockTable.get?, hblocks, twoGrants, blockHeader]

/-- Two grants of different sizes lie apart, and with a free block the tiles cover the page around
a hole. -/
theorem reachable_tiled_onePage : ∃ h a, Reachable ⟨1, 4⟩ (fun _ _ _ => True) h a ∧
    h.regions ≠ [] ∧ h.table.blocks = twoGrants ∧
    Tiles a.heapBase (sized twoGrants) a.memory.size ∧
    h.liveAllocations = [⟨0, 4, 16380⟩, ⟨1, 16388, 32764⟩] ∧ 4 + 16380 + blockHeader ≤ 16388 ∧
    h.stats.active = 2 := by
  obtain ⟨h, a, hr, hlive, hregions, hblocks⟩ := reachable_twoGrants fun _ _ _ => True
  have hgrants := liveAllocations_twoGrants hlive hblocks
  obtain ⟨htiles, -, -, hapart, -, hactive, -, -⟩ := reachable_tiled hr
  have hne : h.regions ≠ [] := by simp [hregions]
  have hbetween := hapart ⟨0, 4, 16380⟩ (by simp [hgrants]) ⟨1, 16388, 32764⟩ (by simp [hgrants])
    (by decide)
  refine ⟨h, a, hr, hne, hblocks, hblocks ▸ htiles hne, hgrants, ?_, ?_⟩
  · exact hbetween.resolve_right (by decide)
  · rw [hactive, liveCount, hlive]
    rfl

end Heap
end GuestLibrary
