import GuestLibrary.Proofs.Heap.Invariant

/-! Searching for a block, with a new region where none fits. Whatever the search did, the table
tiles memory again and the blocks that were used are still the same. -/
namespace GuestLibrary
namespace Heap

variable {h h' h'' : Heap} {a a' a'' : Arena} {need id : Nat} {b c : Block}

theorem Tiled.record (ht : h.Tiled a) (call : HeapCall) (event : HeapEvent) :
    (h.record call event).Tiled a :=
  ⟨ht.based, ht.capacity_eq, ht.size_le, ht.pages_le, ht.unacquired, ht.tiles, ht.headed,
    ht.pages_mapped, ht.blocks_mapped⟩

/-- A heap with the same limits, live map and used blocks, over the same bytes. Its table can only
have more free blocks. -/
structure Kept (h : Heap) (a : Arena) (h' : Heap) (a' : Arena) : Prop where
  tiled : h'.Tiled a'
  limits_eq : h'.limits = h.limits
  live_eq : h'.live = h.live
  get?_eq : ∀ i c, h.table.get? i = some c → h'.table.get? i = some c
  uses_iff : ∀ i c, h'.table.Uses i c ↔ h.table.Uses i c
  changed : a.ChangedWithin a' 0 0

/-- A heap in which one more block is used, the block `b` of at least `need` bytes. -/
structure Placed (h : Heap) (a : Arena) (h' : Heap) (a' : Arena) (need id : Nat) (b : Block) :
    Prop where
  tiled : h'.Tiled a'
  limits_eq : h'.limits = h.limits
  live_eq : h'.live = h.live
  uses : h'.table.Uses id b
  need_le : need ≤ b.size
  fresh : ∀ c, ¬ h.table.Uses id c
  others : ∀ i ≠ id, ∀ c, h'.table.Uses i c ↔ h.table.Uses i c
  changed : a.ChangedWithin a' 0 0

theorem Kept.refl (ht : h.Tiled a) : h.Kept a h a :=
  ⟨ht, rfl, rfl, fun _ _ hc => hc, fun _ _ => Iff.rfl, .refl a 0 0⟩

theorem Kept.record (hk : h.Kept a h' a') (call : HeapCall) (event : HeapEvent) :
    h.Kept a (h'.record call event) a' :=
  ⟨hk.tiled.record call event, hk.limits_eq, hk.live_eq, hk.get?_eq, hk.uses_iff, hk.changed⟩

theorem Kept.trans_placed (hk : h.Kept a h' a') (hp : h'.Placed a' h'' a'' need id b) :
    h.Placed a h'' a'' need id b where
  tiled := hp.tiled
  limits_eq := hp.limits_eq.trans hk.limits_eq
  live_eq := hp.live_eq.trans hk.live_eq
  uses := hp.uses
  need_le := hp.need_le
  fresh c hc := hp.fresh c ((hk.uses_iff id c).mpr hc)
  others i hi c := (hp.others i hi c).trans (hk.uses_iff i c)
  changed := hk.changed.trans hp.changed

/-- A search in the table alone. -/
theorem placed_of_find? {first last : Nat} {grant : Grant} {table : BlockTable} (ht : h.Tiled a)
    (hn : blockHeader ≤ need) (hf : h.table.find? first last need = some (grant, table)) :
    ∃ b, h.Placed a { h with table } a need grant.id b := by
  have hpos : 0 < need := Nat.lt_of_lt_of_le (by decide) hn
  have hfound := BlockTable.find?_eq_some hpos hf
  obtain ⟨⟨b, hb, hle⟩, hfresh, hothers⟩ := BlockTable.uses_of_find? hpos hf
  have hlen : table.size = h.table.size := hfound.grants.length_eq
  refine ⟨b, ⟨ht.based, hfound.capacity_eq.trans ht.capacity_eq, ?_, ht.pages_le, ?_, ?_, ?_,
    ht.pages_mapped, hlen.le.trans ht.blocks_mapped⟩, rfl, rfl, hb, hle, hfresh, hothers,
    .refl a 0 0⟩
  · rw [hlen, hfound.capacity_eq]
    exact ht.size_le
  · intro hr
    have hz : h.table.blocks.length = 0 := by rw [ht.unacquired hr]; rfl
    exact List.eq_nil_of_length_eq_zero (hfound.grants.length_eq.trans hz)
  · exact fun hr => hfound.tiles _ _ (ht.tiles hr)
  · intro i c hc
    by_cases hi : i = grant.id
    · subst hi
      rw [hc.unique hb]
      omega
    · exact ht.headed i c ((hothers i hi c).mp hc)

end Heap

namespace HeapLimits

theorem blockSize_pos (l : HeapLimits) : 0 < l.blockSize := by
  have h : max 1 (min l.blocksPerPage pageSize) ≤ pageSize := by
    simp only [pageSize]
    omega
  exact Nat.div_pos h (by omega)

theorem maxBlocks_le (l : HeapLimits) : l.maxBlocks ≤ l.maxPages * l.blocksPerPage :=
  Nat.min_le_left _ _

end HeapLimits

namespace BlockTable

/-- The blocks of a region tile it: equal blocks, and the last one with the tail. -/
theorem tiles_cut_range {len blockSize : Nat} (start first count : Nat) (hs : 0 < blockSize)
    (hlen : (first + count) * blockSize < len) :
    Tiles (start + first * blockSize)
      (sized ((List.range' first (count + 1)).map fun i => Block.free (start + i * blockSize)
        (if i + 1 = first + count + 1 then len - i * blockSize else blockSize)))
      (start + len) := by
  induction count generalizing first with
  | zero =>
    rw [Nat.add_zero] at hlen
    rw [List.range'_one, List.map_singleton, Nat.add_zero, if_pos rfl,
      sized_cons_of_pos (by simp only [Block.free]; omega)]
    refine ⟨rfl, ?_⟩
    simp only [sized_nil, Tiles, Block.fin, Block.free]
    omega
  | succ count ih =>
    have hmul : (first + 1 + count) * blockSize = (first + (count + 1)) * blockSize := by ring
    have hnext : (first + 1) * blockSize = first * blockSize + blockSize := by ring
    rw [List.range'_succ, List.map_cons, if_neg (by omega),
      sized_cons_of_pos (by simpa [Block.free] using hs)]
    refine ⟨rfl, ?_⟩
    have efin : Block.fin (.free (start + first * blockSize) blockSize) =
        start + (first + 1) * blockSize := by
      simp only [Block.fin, Block.free]
      omega
    have htail := ih (first + 1) (by omega)
    have ecount : first + 1 + count + 1 = first + (count + 1) + 1 := by omega
    rw [ecount] at htail
    rw [efin]
    exact htail

/-- All blocks of a region but the last one leave bytes of it. -/
theorem blocksForRegion_mul_lt {len blockSize : Nat} (hlen : 0 < len) (hs : 0 < blockSize) :
    (blocksForRegion len blockSize - 1) * blockSize < len := by
  have hdiv := Nat.div_mul_le_self len blockSize
  rw [blocksForRegion, if_neg (Nat.ne_of_gt hlen), Nat.max_eq_left hs]
  cases hcount : len / blockSize with
  | zero => simpa using hlen
  | succ count =>
    rw [hcount, Nat.succ_mul] at hdiv
    simp
    omega

theorem tiles_cut_region {blockSize : Nat} (start len : Nat) (hs : 0 < blockSize) :
    Tiles start (sized (cut start len blockSize (blocksForRegion len blockSize)))
      (start + len) := by
  rcases Nat.eq_zero_or_pos len with rfl | hlen
  · rfl
  obtain ⟨count, hcount⟩ : ∃ count, blocksForRegion len blockSize = count + 1 :=
    Nat.exists_eq_add_one_of_ne_zero (by
      rw [blocksForRegion, if_neg (Nat.ne_of_gt hlen)]
      omega)
  have hlt := blocksForRegion_mul_lt hlen hs
  rw [hcount, Nat.add_sub_cancel] at hlt
  have h := tiles_cut_range start 0 count hs (by simpa using hlt)
  rw [hcount]
  simpa only [cut, List.range_eq_range', Nat.zero_add, Nat.zero_mul, Nat.add_zero] using h

theorem blocksForRegion_le (len blockSize : Nat) : blocksForRegion len blockSize ≤ len := by
  have hdiv : len / max blockSize 1 ≤ len := Nat.div_le_self _ _
  unfold blocksForRegion
  split <;> omega

theorem appendRegion?_eq_some {t t' : BlockTable} {start len blockSize : Nat}
    {ids : Nat × Nat} (h : t.appendRegion? start len blockSize = some (ids, t')) :
    t'.blocks = t.blocks ++ cut start len blockSize (blocksForRegion len blockSize) ∧
      t'.capacity = t.capacity ∧ t'.size ≤ t'.capacity := by
  simp only [appendRegion?] at h
  split at h
  · cases h
  · rename_i hle
    obtain ⟨-, rfl⟩ := Prod.mk.inj (Option.some.inj h)
    refine ⟨rfl, rfl, ?_⟩
    simp only [size, List.length_append, cut, List.length_map, List.length_range] at hle ⊢
    omega

theorem appendRegion?_isSome {t : BlockTable} {len blockSize : Nat} (start : Nat)
    (h : t.size + blocksForRegion len blockSize ≤ t.capacity) :
    ∃ ids t', t.appendRegion? start len blockSize = some (ids, t') := by
  simp only [appendRegion?]
  rw [if_neg (by omega)]
  exact ⟨_, _, rfl⟩

end BlockTable

/-- The memory grew for blocks that the table refused. -/
def HeapEvent.IsCutRejected : HeapEvent → Prop
  | .cutRejected .. => True
  | _ => False

namespace Heap

variable {h h' : Heap} {a a' : Arena} {need : Nat}

theorem le_pagesFor_mul (n : Nat) : n ≤ pagesFor n * pageSize := by
  simp only [pagesFor, pageSize]
  omega

/-- Bytes behind the heap base that the next region finds mapped: only the first one does. -/
def spare (h : Heap) (a : Arena) : Nat := if h.regions = [] then a.memory.size - a.heapBase else 0

/-- Whole pages that memory grows by for a region of `need` bytes. -/
def growth (h : Heap) (a : Arena) (need : Nat) : Nat := pagesFor (need - h.spare a)

/-- Bytes of the region that is asked for where `need` bytes are missing. -/
def regionLength (h : Heap) (a : Arena) (need : Nat) : Nat :=
  h.spare a + h.growth a need * pageSize

/-- The region that is asked for respects the ceilings on pages and blocks, and that of the host
where memory has to grow for it. -/
structure Admits (h : Heap) (a : Arena) (need : Nat) : Prop where
  pages_le : h.pagesAcquired + pagesFor (h.regionLength a need) ≤ h.limits.maxPages
  blocks_le : h.table.size +
    BlockTable.blocksForRegion (h.regionLength a need) h.limits.blockSize ≤ h.table.capacity
  host_le : h.growth a need = 0 ∨ a.memory.pages + h.growth a need ≤ a.memory.maxPages

theorem nextRegion_eq (h : Heap) (a : Arena) (need : Nat) :
    h.nextRegion a need =
      (if h.regions = [] then some a.heapBase else none, h.regionLength a need,
        h.growth a need) := by
  by_cases hr : h.regions = [] <;> simp [nextRegion, regionLength, growth, spare, hr]

/-- Where the next region lies: behind all that the heap has, and long enough for the request. -/
structure Follows (h : Heap) (a : Arena) (need : Nat) (region : Region) (a' : Arena) : Prop where
  start_eq : region.start = if h.regions = [] then a.heapBase else a.memory.size
  len_eq : region.len = h.regionLength a need
  fin_eq : region.start + region.len = a'.memory.size
  pages_eq : region.pages = pagesFor region.len
  pages_le : h.pagesAcquired + region.pages ≤ h.limits.maxPages
  arena_eq : a' = a ∨ ∃ pages base, a.grow? pages = some (base, a')

/-- Lays a region out, growing memory by `grow` pages unless none is needed. -/
def layOut? (a : Arena) (start : Option Nat) (len grow : Nat) : Option (Region × Arena) :=
  match start, grow with
  | some start, 0 => some (⟨start, len, pagesFor len⟩, a)
  | start, grow =>
    (a.grow? grow).map fun (base, a) =>
      match start with
      | some start =>
        if start + (len - grow * pageSize) = base then (⟨start, len, pagesFor len⟩, a)
        else (⟨base, grow * pageSize, grow⟩, a)
      | none => (⟨base, grow * pageSize, grow⟩, a)

theorem pagesFor_mul (n : Nat) : pagesFor (n * pageSize) = n := by
  simp only [pagesFor, pageSize]
  omega

theorem need_le_regionLength (h : Heap) (a : Arena) (need : Nat) :
    need ≤ h.regionLength a need := by
  have hle := le_pagesFor_mul (need - h.spare a)
  unfold regionLength growth
  omega

theorem Follows.need_le {region : Region} (hf : h.Follows a need region a') :
    need ≤ region.len := by
  rw [hf.len_eq]
  exact h.need_le_regionLength a need

theorem Follows.changed {region : Region} (hf : h.Follows a need region a') :
    a.ChangedWithin a' 0 0 := by
  rcases hf.arena_eq with rfl | ⟨pages, base, hg⟩
  · exact .refl a' 0 0
  · exact .grow? hg

/-- The next region is laid out behind all that the heap has. -/
theorem follows_of_layOut? {start : Option Nat} {region : Region}
    (hb : a.heapBase ≤ a.memory.size)
    (hstart : start = if h.regions = [] then some a.heapBase else none)
    (hl : layOut? a start (h.regionLength a need) (h.growth a need) = some (region, a'))
    (hp : h.pagesAcquired + pagesFor (h.regionLength a need) ≤ h.limits.maxPages) :
    h.Follows a need region a' := by
  have hlen : h.regionLength a need = h.spare a + h.growth a need * pageSize := rfl
  by_cases hr : h.regions = []
  · have hspare : h.spare a = a.memory.size - a.heapBase := if_pos hr
    rw [hstart, if_pos hr] at hl
    generalize hgrow : h.growth a need = grow at hl hlen
    cases grow with
    | zero =>
      obtain ⟨rfl, rfl⟩ := Prod.mk.inj (Option.some.inj hl)
      exact ⟨by simp [hr], rfl, by dsimp only; omega, rfl, hp, Or.inl rfl⟩
    | succ grow =>
      obtain ⟨⟨base, grown⟩, hg, he⟩ := Option.map_eq_some_iff.mp hl
      obtain ⟨-, hm⟩ := Arena.grow?_eq_some hg
      obtain ⟨rfl, hs, -⟩ := LinearMemory.grow?_eq_some hm
      dsimp only at he
      rw [if_pos (by omega)] at he
      obtain ⟨rfl, rfl⟩ := Prod.mk.inj he
      exact ⟨by simp [hr], rfl, by dsimp only; omega, rfl, hp, Or.inr ⟨_, _, hg⟩⟩
  · have hspare : h.spare a = 0 := if_neg hr
    rw [hspare, Nat.zero_add] at hlen
    rw [hstart, if_neg hr] at hl
    obtain ⟨⟨base, grown⟩, hg, he⟩ := Option.map_eq_some_iff.mp hl
    obtain ⟨rfl, rfl⟩ := Prod.mk.inj he
    obtain ⟨-, hm⟩ := Arena.grow?_eq_some hg
    obtain ⟨rfl, hs, -⟩ := LinearMemory.grow?_eq_some hm
    rw [hlen, pagesFor_mul] at hp
    exact ⟨by simp [hr], hlen.symm, hs.symm, (pagesFor_mul _).symm, hp, Or.inr ⟨_, _, hg⟩⟩

/-- Laying a region out fails only where memory refuses to grow. -/
theorem layOut?_eq_none_iff {start : Option Nat} (hstart : start = none → h.growth a need ≠ 0) :
    layOut? a start (h.regionLength a need) (h.growth a need) = none ↔
      ¬ (h.growth a need = 0 ∨ a.memory.pages + h.growth a need ≤ a.memory.maxPages) := by
  have hgrown : a.grow? (h.growth a need) = none ↔
      ¬ a.memory.pages + h.growth a need ≤ a.memory.maxPages := by
    simp [Arena.grow?, LinearMemory.grow?]
  rw [not_or, ← hgrown]
  cases hgrow : h.growth a need with
  | zero =>
    cases start with
    | none => exact absurd hgrow (hstart rfl)
    | some start => simp [layOut?]
  | succ grow => cases start <;> simp [layOut?]

/-- Acquiring a region, with the layout as a step of its own. -/
theorem addRegion_eq (h : Heap) (a : Arena) (call : HeapCall) (need : Nat) :
    h.addRegion a call need =
      let (start, len, grow) := h.nextRegion a need
      let pages := pagesFor len
      let blocks := BlockTable.blocksForRegion len h.limits.blockSize
      let refuse := fun (event : HeapEvent) (a : Arena) =>
        (Except.error (.exhausted need), h.record call event, a)
      if h.limits.maxPages < h.pagesAcquired + pages then
        refuse (.pageLimit need h.pagesAcquired pages h.limits.maxPages) a
      else if h.table.capacity < h.table.size + blocks then
        refuse (.blockLimit need h.table.size blocks h.table.capacity) a
      else
        match layOut? a start len grow with
        | none => refuse (.growthRefused need grow) a
        | some (region, a) =>
          match h.table.appendRegion? region.start region.len h.limits.blockSize with
          | none => refuse (.cutRejected region.start region.len) a
          | some ((first, last), table) =>
            (.ok (), { h with table, regions := h.regions ++ [region] }.record call
              (.pagesAdded region.start region.len grow region.pages first last), a) :=
  rfl

/-- A region is acquired whole or not at all, as the ceilings decide. In particular memory never
grows for a region whose blocks the table refuses. -/
theorem addRegion_cases (hb : a.heapBase ≤ a.memory.size) (call : HeapCall) (hn : 0 < need) :
    (¬ h.Admits a need ∧ ∃ event, ¬ event.IsCutRejected ∧
      h.addRegion a call need = (.error (.exhausted need), h.record call event, a)) ∨
    (h.Admits a need ∧ ∃ region a' ids table event, ¬ event.IsCutRejected ∧
      h.Follows a need region a' ∧
      h.table.appendRegion? region.start region.len h.limits.blockSize = some (ids, table) ∧
      h.addRegion a call need =
        (.ok (), { h with table, regions := h.regions ++ [region] }.record call event, a')) := by
  rw [addRegion_eq, nextRegion_eq]
  dsimp only
  split
  · rename_i hp
    exact Or.inl ⟨fun hadmits => Nat.not_le.mpr hp hadmits.pages_le, _, id, rfl⟩
  rename_i hp
  split
  · rename_i hc
    exact Or.inl ⟨fun hadmits => Nat.not_le.mpr hc hadmits.blocks_le, _, id, rfl⟩
  rename_i hc
  have hgrown : (if h.regions = [] then some a.heapBase else none) = none →
      h.growth a need ≠ 0 := by
    intro hnone
    by_cases hr : h.regions = []
    · rw [if_pos hr] at hnone
      cases hnone
    · have hle := le_pagesFor_mul (need - h.spare a)
      have hspare : h.spare a = 0 := if_neg hr
      intro hz
      rw [show pagesFor (need - h.spare a) = 0 from hz] at hle
      omega
  have hrefused := layOut?_eq_none_iff hgrown
  cases hl : layOut? a (if h.regions = [] then some a.heapBase else none) (h.regionLength a need)
      (h.growth a need) with
  | none =>
    refine Or.inl ⟨fun hadmits => ?_, .growthRefused need (h.growth a need), id, rfl⟩
    exact hrefused.mp hl hadmits.host_le
  | some placed =>
    obtain ⟨region, a'⟩ := placed
    have hf := follows_of_layOut? hb rfl hl (Nat.le_of_not_lt hp)
    have hhost : h.growth a need = 0 ∨
        a.memory.pages + h.growth a need ≤ a.memory.maxPages := by
      by_contra hnot
      rw [hrefused.mpr hnot] at hl
      cases hl
    rw [← hf.len_eq] at hc
    obtain ⟨ids, table, ht⟩ := BlockTable.appendRegion?_isSome region.start
      (Nat.le_of_not_lt hc)
    rw [hf.len_eq] at hc
    refine Or.inr ⟨⟨Nat.le_of_not_lt hp, Nat.le_of_not_lt hc, hhost⟩, region, a', ids, table,
      .pagesAdded region.start region.len (h.growth a need) region.pages ids.1 ids.2, id, hf, ht,
      ?_⟩
    dsimp only
    rw [ht]

/-- Free blocks behind the table change no used block. -/
theorem uses_append {t t' : BlockTable} {fresh : List Block} (h : t'.blocks = t.blocks ++ fresh)
    (hf : ∀ b ∈ fresh, b.used = false) (i : Nat) (c : Block) : t'.Uses i c ↔ t.Uses i c := by
  simp only [BlockTable.Uses, BlockTable.get?, h]
  refine and_congr_left fun hc => ?_
  rcases Nat.lt_or_ge i t.blocks.length with hi | hi
  · rw [List.getElem?_append_left hi]
  · rw [List.getElem?_append_right hi, List.getElem?_eq_none hi]
    refine iff_of_false (fun hm => ?_) (by simp)
    have := hf c (List.mem_of_getElem? hm)
    rw [hc] at this
    cases this

theorem pagesAcquired_eq (h : Heap) : h.pagesAcquired = (h.regions.map (·.pages)).sum := by
  unfold pagesAcquired
  rw [List.sum_eq_foldr, List.foldr_map]

/-- Pages are counted for memory that is there, up to a page that the first region may share. -/
theorem Follows.pages_mapped (ht : h.Tiled a) {region : Region} (hf : h.Follows a need region a') :
    (h.pagesAcquired + region.pages) * pageSize ≤ a'.memory.size + pageSize := by
  have hfin := hf.fin_eq
  have hstart := hf.start_eq
  have hmapped := ht.pages_mapped
  rw [hf.pages_eq, Nat.add_mul]
  by_cases hr : h.regions = []
  · have hnone : h.pagesAcquired = 0 := by simp [pagesAcquired, hr]
    have hround : pagesFor region.len * pageSize ≤ region.len + pageSize := by
      simp only [pagesFor, pageSize]
      omega
    rw [hnone]
    omega
  · have hspare : h.spare a = 0 := if_neg hr
    have hlen : region.len = h.growth a need * pageSize := by
      rw [hf.len_eq, regionLength, hspare, Nat.zero_add]
    rw [if_neg hr] at hstart
    rw [hlen, pagesFor_mul, ← hlen]
    omega

/-- There are no more blocks than bytes. -/
theorem Follows.blocks_mapped (ht : h.Tiled a) {region : Region} (hf : h.Follows a need region a')
    (blockSize : Nat) :
    h.table.size + BlockTable.blocksForRegion region.len blockSize ≤ a'.memory.size := by
  have hfin := hf.fin_eq
  have hstart := hf.start_eq
  have hcount := BlockTable.blocksForRegion_le region.len blockSize
  by_cases hr : h.regions = []
  · have hnone : h.table.size = 0 := by rw [BlockTable.size, ht.unacquired hr]; rfl
    omega
  · rw [if_neg hr] at hstart
    have hmapped := ht.blocks_mapped
    omega

theorem Tiled.follows (ht : h.Tiled a) {region : Region} {ids : Nat × Nat} {table : BlockTable}
    (hf : h.Follows a need region a')
    (happ : h.table.appendRegion? region.start region.len h.limits.blockSize =
      some (ids, table)) :
    h.Kept a { h with table, regions := h.regions ++ [region] } a' := by
  obtain ⟨hblocks, hcap, hle⟩ := BlockTable.appendRegion?_eq_some happ
  have huses := uses_append hblocks (by simp [BlockTable.cut, Block.free])
  refine ⟨⟨?_, hcap.trans ht.capacity_eq, hle, ?_, by simp, ?_, ?_, ?_, ?_⟩, rfl, rfl, ?_, huses,
    hf.changed⟩
  · rw [hf.changed.heapBase_eq]
    exact Nat.lt_of_lt_of_le ht.based hf.changed.size_le
  · have hp := hf.pages_le
    rw [pagesAcquired_eq] at hp ⊢
    simpa using hp
  · intro _
    have hfresh := BlockTable.tiles_cut_region region.start region.len h.limits.blockSize_pos
    dsimp only
    rw [hblocks, sized_append, tiles_append, hf.changed.heapBase_eq, ← hf.fin_eq]
    refine ⟨region.start, ?_, hfresh⟩
    rw [hf.start_eq]
    split
    · rename_i hr
      rw [ht.unacquired hr]
      rfl
    · rename_i hr
      exact ht.tiles hr
  · exact fun i c hc => ht.headed i c ((huses i c).mp hc)
  · have hp := hf.pages_mapped ht
    rw [pagesAcquired_eq] at hp ⊢
    simpa using hp
  · have hcount := hf.blocks_mapped ht h.limits.blockSize
    rw [BlockTable.size] at hcount ⊢
    rw [hblocks, List.length_append]
    simpa [BlockTable.cut] using hcount
  · intro i c hc
    dsimp only [BlockTable.get?] at hc ⊢
    rw [hblocks, List.getElem?_append_left (List.getElem?_eq_some_iff.mp hc).1, hc]

theorem addRegion_kept (ht : h.Tiled a) (call : HeapCall) (hn : 0 < need) :
    h.Kept a (h.addRegion a call need).2.1 (h.addRegion a call need).2.2 := by
  rcases addRegion_cases (h := h) (Nat.le_of_lt ht.based) call hn with
    ⟨-, event, -, he⟩ | ⟨-, region, a', ids, table, event, -, hf, happ, he⟩
  · rw [he]
    exact (Kept.refl ht).record call event
  · rw [he]
    exact (ht.follows hf happ).record call event

end Heap
end GuestLibrary
