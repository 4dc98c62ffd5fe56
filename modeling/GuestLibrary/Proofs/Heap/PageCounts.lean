import GuestLibrary.Proofs.Heap.InPlace

/-! The counts of blocks on pages. They change one block at a time, at places that know only what
they write over, and a count of none that goes down stays. Main statement: whatever is done to a
table, the counts are those of the blocks that have a size, and no count of none goes down; so it is
where a sum that no word holds stops the program, which takes a region without an address behind it
or more blocks than there are ids. -/
namespace GuestLibrary

namespace Block

/-- Whether a block has a size and starts on a page. -/
def liesOn (b : Block) (page : Nat) : Bool := 0 < b.size && b.start / pageSize = page

/-- A block that has a size knows the page on which it starts. -/
def Paged (b : Block) : Prop := 0 < b.size → b.page = b.start / pageSize

theorem liesOn_of_eq_zero {b : Block} (hz : b.size = 0) (page : Nat) : b.liesOn page = false := by
  simp [liesOn, hz]

theorem Paged.liesOn_iff {b : Block} (hb : b.Paged) (hpos : 0 < b.size) (page : Nat) :
    b.liesOn page = true ↔ page = b.page := by
  simp [liesOn, hpos, hb hpos, eq_comm]

theorem paged_of_eq_zero {b : Block} (hz : b.size = 0) : b.Paged := fun hpos =>
  absurd hz (Nat.ne_of_gt hpos)

theorem paged_free (start size : Nat) : (free start size).Paged := fun _ => rfl

end Block

namespace BlockTable

/-- The number of blocks with a size that start on a page. -/
def startsOn (t : BlockTable) (page : Nat) : Nat := t.blocks.countP (·.liesOn page)

/-- What an operation makes of a table. -/
def Machine.Operation.apply : Operation → BlockTable → BlockTable
  | .append start len blockSize, t => ((t.appendRegion? start len blockSize).map (·.2)).getD t
  | .find first last need, t => ((t.find? first last need).map (·.2)).getD t
  | .clearUsed id, t => t.setUsed id false
  | .setUsed id, t => t.setUsed id true

namespace Machine

/-- The counts of a table are right, and no change so far found a count of none and took a block
from it. -/
structure Exact (w : Bench) : Prop where
  paged : ∀ b ∈ w.table.blocks, b.Paged
  blocksOnPage_eq : ∀ page, w.table.blocksOnPage page = w.table.startsOn page
  found_pos : ∀ change ∈ w.changes, change.came = false → 0 < change.found

section Changes

variable {w w' : Bench} {id : Nat} {b c : Block}

theorem mem_of_get? (hb : w.table.get? id = some b) : b ∈ w.table.blocks :=
  List.mem_of_getElem? hb

theorem put_put (w : Bench) (id : Nat) (b c : Block) : (w.put id b).put id c = w.put id c := by
  simp [Bench.put]

theorem startsOn_put (hb : w.table.get? id = some b) (c : Block) (page : Nat) :
    (w.put id c).table.startsOn page + (if b.liesOn page then 1 else 0) =
      w.table.startsOn page + (if c.liesOn page then 1 else 0) := by
  obtain ⟨lead, behind, hsplit, rfl⟩ := split_of_get? hb
  rw [startsOn, startsOn, put_of_split hsplit, hsplit]
  simp only [List.countP_append, List.countP_cons]
  omega

theorem Exact.paged_put (h : Exact w) (hc : c.Paged) (id : Nat) :
    ∀ d ∈ (w.put id c).table.blocks, d.Paged := by
  intro d hd
  rcases List.mem_or_eq_of_mem_set hd with hd | rfl
  · exact h.paged d hd
  · exact hc

/-- A block that keeps its place is still counted. -/
theorem Exact.stays (h : Exact w) (hb : w.table.get? id = some b) (hsize : 0 < c.size ↔ 0 < b.size)
    (hstart : c.start = b.start) (hpage : c.page = b.page) : Exact (w.put id c) where
  paged := h.paged_put (fun hpos => by
    rw [hpage, hstart]
    exact h.paged b (mem_of_get? hb) (hsize.mp hpos)) id
  blocksOnPage_eq page := by
    have hsame : c.liesOn page = b.liesOn page := by simp [Block.liesOn, hsize, hstart]
    have hput := startsOn_put hb c page
    rw [hsame] at hput
    exact (h.blocksOnPage_eq page).trans (Nat.add_right_cancel hput).symm
  found_pos := h.found_pos

/-- A block that loses its bytes is taken from a count that is not none. -/
theorem Exact.leaves (h : Exact w) (hb : w.table.get? id = some b) (hpos : 0 < b.size)
    (hc : c.size = 0) : Exact ((w.count b.page false).put id c) := by
  have hlies := (h.paged b (mem_of_get? hb)).liesOn_iff hpos
  have hfound : 0 < w.table.blocksOnPage b.page := by
    rw [h.blocksOnPage_eq]
    exact List.countP_pos_iff.mpr ⟨b, mem_of_get? hb, (hlies b.page).mpr rfl⟩
  refine ⟨h.paged_put (Block.paged_of_eq_zero hc) id, fun page => ?_,
    fun change hchange hcame => ?_⟩
  · have hput := startsOn_put (w := w.count b.page false) hb c page
    have hstarts : (w.count b.page false).table.startsOn page = w.table.perPage.count page :=
      (h.blocksOnPage_eq page).symm
    rw [hstarts, if_congr (hlies page) rfl rfl, Block.liesOn_of_eq_zero hc] at hput
    rw [blocksOnPage, put_perPage, count_perPage, if_neg Bool.false_ne_true,
      PageCounts.count_decrement]
    by_cases hp : page = b.page
    · simp [← hp] at hput ⊢
      omega
    · simpa [hp] using hput.symm
  · rcases List.mem_cons.mp hchange with rfl | hold
    · exact hfound
    · exact h.found_pos change hold hcame

/-- A count goes up where a block is added. -/
theorem Exact.added (h : Exact w) (hpaged : ∀ d ∈ w'.table.blocks, d.Paged)
    (hcounts : w'.table.perPage = w.table.perPage.increment c.page)
    (hstarts : ∀ page, w'.table.startsOn page =
      w.table.startsOn page + if page = c.page then 1 else 0)
    (hchanges : w'.changes = ⟨c.page, w.table.blocksOnPage c.page, true⟩ :: w.changes) :
    Exact w' := by
  refine ⟨hpaged, fun page => ?_, fun change hchange hcame => ?_⟩
  · have hexact : w.table.perPage.count page = w.table.startsOn page := h.blocksOnPage_eq page
    rw [hstarts, blocksOnPage, hcounts, PageCounts.count_increment]
    by_cases hp : page = c.page
    · simp [← hp, hexact]
    · simp [hp, hexact]
  · rw [hchanges] at hchange
    rcases List.mem_cons.mp hchange with rfl | hold
    · cases hcame
    · exact h.found_pos change hold hcame

/-- A hole that gets bytes is added to the count of its page. -/
theorem Exact.comes (h : Exact w) (hb : w.table.get? id = some b) (hz : b.size = 0)
    (hpos : 0 < c.size) (hc : c.Paged) : Exact ((w.put id c).count c.page true) := by
  refine h.added (h.paged_put hc id) rfl (fun page => ?_) rfl
  have hput : ((w.put id c).count c.page true).table.startsOn page +
      (if b.liesOn page then 1 else 0) =
        w.table.startsOn page + (if c.liesOn page then 1 else 0) := startsOn_put hb c page
  simpa [hc.liesOn_iff hpos, Block.liesOn_of_eq_zero hz] using hput

/-- A block that is appended is added to the count of its page. -/
theorem Exact.append (h : Exact w) (hpos : 0 < c.size) (hc : c.Paged) :
    Exact ((w.count c.page true).append c) := by
  refine h.added (fun d hd => ?_) rfl (fun page => ?_) rfl
  · rcases List.mem_append.mp hd with hd | hd
    · exact h.paged d hd
    · rw [List.mem_singleton.mp hd]
      exact hc
  · simp [startsOn, Bench.append, List.countP_append, List.countP_cons, hc.liesOn_iff hpos]

end Changes

section Searching

variable {w w' : Bench} {need id granted : Nat} {kind : SplitKind} {b : Block}
  {lead taken behind : List Block} {g : Grant}

/-- Blocks that are taken one by one leave their pages one by one. -/
theorem Exact.vacate (h : Exact w) (hw : w.table.blocks = lead ++ (taken ++ behind)) :
    Exact (w.vacate lead.length taken) := by
  induction taken generalizing w lead with
  | nil => exact h
  | cons b taken ih =>
    have hlen : (lead ++ [b.hollow]).length = lead.length + 1 := List.length_append
    rw [List.cons_append] at hw
    rcases Nat.eq_zero_or_pos b.size with hz | hpos
    · rw [Bench.vacate, if_pos hz, ← hlen]
      exact ih h (by simp [hw, hollow_of_eq_zero hz])
    · rw [Bench.vacate, if_neg (Nat.ne_of_gt hpos), ← hlen]
      exact ih (h.leaves (get?_of_split hw) hpos rfl) (by simp [hw, hollow_of_pos hpos])

theorem Exact.absorb (h : Exact w) (hw : w.table.blocks = lead ++ b :: (taken ++ behind))
    (hpos : 0 < b.size) : Exact (w.absorb lead.length b taken) := by
  have hlen : (lead ++ [b]).length = lead.length + 1 := List.length_append
  have hw' : w.table.blocks = (lead ++ [b]) ++ (taken ++ behind) := by simp [hw]
  have hempty := h.vacate hw'
  rw [hlen] at hempty
  refine hempty.stays (get?_of_split (vacate_behind hw)) ?_ rfl rfl
  simp only [Block.joined]
  omega

/-- Cutting adds the page of the remainder, which may not be that of the block. -/
theorem Exact.cut (h : Exact w) (hb : w.table.get? id = some b) (hneed : 0 < need)
    (hpos : 0 < b.size) (hcut : Cut w need id b granted kind w') : Exact w' := by
  have hid := lt_of_get? hb
  cases hcut with
  | perfect he => exact h.stays hb Iff.rfl rfl rfl
  | before hlt hzero hhole =>
    obtain ⟨hole, hgot, -, hz⟩ := isHoleAt_iff.mp hhole
    have hin := lt_of_isHoleAt hhole
    have hne : id - 1 ≠ id := by omega
    have hat := (get?_put_of_ne hne { start := b.start, size := need, page := b.page }).trans hb
    have hlow : Exact ((w.put (id - 1) { start := b.start, size := need, page := b.page }).count
        b.page true) :=
      h.comes hgot hz hneed fun _ => h.paged b (mem_of_get? hb) hpos
    -- the block that was cut goes, and the remainder comes in its place
    have hgone := hlow.leaves (c := b.emptied) hat hpos rfl
    have hrest := hgone.comes (get?_put_self (by simpa using hid) _) rfl (Nat.sub_pos_of_lt hlt)
      (Block.paged_free (b.start + need) (b.size - need))
    rw [put_put] at hrest
    have hat' : (w.cutBefore need id b).table.get? (id - 1) =
        some { start := b.start, size := need, page := b.page } := by
      simp [Bench.cutBefore, get?_put_of_ne (Ne.symm hne), get?_put_self hin]
    exact Exact.stays hrest hat' Iff.rfl rfl rfl
  | after hlt hnone hhole =>
    obtain ⟨hole, hgot, -, hz⟩ := isHoleAt_iff.mp hhole
    have hne : id + 1 ≠ id := Nat.succ_ne_self id
    have hrest : Exact ((w.put (id + 1) (.free (b.start + need) (b.size - need))).count
        ((b.start + need) / pageSize) true) :=
      h.comes hgot hz (Nat.sub_pos_of_lt hlt) (Block.paged_free _ _)
    have hlow : Exact (w.cutAfter need id b) :=
      hrest.stays ((get?_put_of_ne hne _).trans hb) (by simp [hneed, hpos]) rfl rfl
    exact hlow.stays (get?_put_self (by simpa using hid) _) Iff.rfl rfl rfl
  | unsplit hlt hnone hhole => exact h.stays hb Iff.rfl rfl rfl

theorem Takes.exact (h : Exact w) (hneed : 0 < need) (ht : Takes w need id g w') : Exact w' := by
  cases ht with
  | @cut lead taken beyond b granted kind _ hw _ hpos _ hcut =>
    have hjoined : 0 < (b.joined taken).size := Nat.lt_of_lt_of_le hpos (Nat.le_add_right _ _)
    exact (h.absorb hw hpos).cut (get?_of_split (absorb_blocks hw)) hneed hjoined hcut

end Searching

section Appending

variable {w : Bench}

theorem Exact.pushAll (h : Exact w) {fresh : List Block}
    (hfresh : ∀ b ∈ fresh, 0 < b.size ∧ b.Paged) : Exact (w.pushAll fresh) := by
  induction fresh generalizing w with
  | nil => exact h
  | cons b fresh ih =>
    obtain ⟨⟨hpos, hpaged⟩, hrest⟩ := List.forall_mem_cons.mp hfresh
    exact ih (h.append hpos hpaged) hrest

/-- The blocks of a region have a size, and know their pages. -/
theorem pos_and_paged_of_mem_cut {start len blockSize : Nat} (hs : 0 < blockSize) {b : Block}
    (hb : b ∈ cut start len blockSize (blocksForRegion len blockSize)) :
    0 < b.size ∧ b.Paged := by
  obtain ⟨i, hi, rfl⟩ := List.mem_map.mp hb
  refine ⟨?_, Block.paged_free _ _⟩
  have hcount := List.mem_range.mp hi
  by_cases hlast : i + 1 = blocksForRegion len blockSize
  · have hlen : 0 < len := by
      by_contra hzero
      simp [blocksForRegion, Nat.eq_zero_of_not_pos hzero] at hcount
    have hlt := blocksForRegion_mul_lt hlen hs
    rw [← hlast, Nat.add_sub_cancel] at hlt
    simpa [hlast, Block.free] using hlt
  · simpa [hlast, Block.free] using hs

end Appending

section Marking

variable {w : Bench}

/-- A page on which a block starts has a count, for its count is not none. -/
theorem Exact.listed (h : Exact w) : w.table.Listed := by
  intro b hb hpos
  have hcount : 0 < w.table.perPage.count b.page := by
    rw [← BlockTable.blocksOnPage, h.blocksOnPage_eq]
    exact List.countP_pos_iff.mpr ⟨b, hb, ((h.paged b hb).liesOn_iff hpos b.page).mpr rfl⟩
  cases hlookup : w.table.perPage.lookup b.page with
  | none => simp [PageCounts.count, hlookup] at hcount
  | some n => rfl

theorem Exact.setUsed (h : Exact w) (id : Nat) (used : Bool) :
    Exact { w with table := w.table.setUsed id used } := by
  cases hb : w.table.get? id with
  | none =>
    rw [setUsed_of_get?_eq_none hb]
    exact h
  | some b =>
    rw [← put_used hb]
    exact h.stays hb Iff.rfl rfl rfl

end Marking

/-- Blocks are cut with a size, and bytes are searched for. -/
def Operation.Proper : Operation → Prop
  | .append _ _ blockSize => 0 < blockSize
  | .find _ _ need => 0 < need
  | .clearUsed _ => True
  | .setUsed _ => True

/-- A region ends at an address, and there are ids for its blocks even where the table is full. -/
def Operation.Fits (capacity : Nat) : Operation → Prop
  | .append start len blockSize =>
    start + len < wordLimit ∧ capacity + blocksForRegion len blockSize < wordLimit
  | .find _ _ _ => True
  | .clearUsed _ => True
  | .setUsed _ => True

/-- The blocks of a table are no more than it may have, and end at addresses. -/
structure Held (capacity : Nat) (t : BlockTable) : Prop where
  capacity_eq : t.capacity = capacity
  size_le : t.size ≤ capacity
  within : Within (wordLimit - 1) t.blocks

theorem Held.addressed {capacity : Nat} {t : BlockTable} (h : Held capacity t) : t.Addressed := by
  intro b hb hpos _
  have hle := h.within b hb hpos
  have hword : 0 < wordLimit := by decide
  omega

/-- A sum or a product is no word. -/
def Overflows (stop : Stop) : Prop := stop = .sum ∨ stop = .product

section Operations

variable {w w' : Bench} {op : Operation} {capacity : Nat} {t : BlockTable}

theorem run_discard {α : Type} {x : InPlace α} {a : α} {w w' : Bench} (h : x.run w = .ok a w') :
    (discard x).run w = .ok () w' := by
  have hmap : discard x = (fun _ => ()) <$> x := rfl
  rw [hmap, EStateM.run_map, h]
  rfl

theorem run_discard_of_stop {α : Type} {x : InPlace α} {stop : Stop} {w w' : Bench}
    (h : x.run w = .error stop w') : (discard x).run w = .error stop w' := by
  have hmap : discard x = (fun _ => ()) <$> x := rfl
  rw [hmap, EStateM.run_map, h]
  rfl

/-- An operation keeps the counts exact. It makes the table that the list operation makes, unless
an overflow stops it. -/
theorem Operation.perform_exact (h : Exact w) (hop : op.Proper) :
    ∃ w', Exact w' ∧ ((op.perform.run w = .ok () w' ∧ w'.table = op.apply w.table) ∨
      ∃ stop, Overflows stop ∧ op.perform.run w = .error stop w') := by
  cases op with
  | append start len blockSize =>
    have hpushed : ∀ fresh, fresh <+: cut start len blockSize (blocksForRegion len blockSize) →
        Exact (w.pushAll fresh) := fun fresh hstarts =>
      h.pushAll fun b hb => pos_and_paged_of_mem_cut hop (List.IsPrefix.subset hstarts hb)
    rcases appendRegion_cases w start len blockSize with
      ⟨stop, fresh, hstop, hprefix, hrun, -⟩ | ⟨hlist, hrun⟩ | ⟨ids, hlist, hrun⟩
    · exact ⟨_, hpushed fresh hprefix, Or.inr ⟨stop, hstop, run_discard_of_stop hrun⟩⟩
    · exact ⟨w, h, Or.inl ⟨run_discard hrun, by rw [Operation.apply, hlist]; rfl⟩⟩
    · exact ⟨_, hpushed _ List.prefix_rfl,
        Or.inl ⟨run_discard hrun, by rw [Operation.apply, hlist]; rfl⟩⟩
  | find first last need =>
    rcases find_cases w first last need with
      ⟨-, hrun⟩ | ⟨hlist, hrun, -⟩ | ⟨g, t', w', j, hlist, hrun, -, heq, htakes, -⟩
    · exact ⟨w, h, Or.inr ⟨.sum, Or.inl rfl, run_discard_of_stop hrun⟩⟩
    · exact ⟨w, h, Or.inl ⟨run_discard hrun, by rw [Operation.apply, hlist]; rfl⟩⟩
    · exact ⟨w', htakes.exact h hop,
        Or.inl ⟨run_discard hrun, by rw [Operation.apply, hlist]; exact heq h.listed⟩⟩
  | clearUsed id =>
    exact ⟨_, h.setUsed id false, Or.inl ⟨run_discard (run_clearUsed w id), rfl⟩⟩
  | setUsed id => exact ⟨_, h.setUsed id true, Or.inl ⟨run_setUsed w id, rfl⟩⟩

/-- Regions that end at addresses are cut into blocks that do. -/
theorem Held.append (h : Held capacity t) {start len blockSize : Nat} (hs : 0 < blockSize)
    (hlen : start + len < wordLimit) :
    Held capacity (Operation.apply (.append start len blockSize) t) := by
  by_cases hfull : t.capacity < t.size + blocksForRegion len blockSize
  · simpa [Operation.apply, appendRegion?, hfull] using h
  have hsize := h.capacity_eq ▸ Nat.le_of_not_lt hfull
  simp only [Operation.apply, appendRegion?, if_neg hfull, Option.map_some, Option.getD_some]
  refine ⟨h.capacity_eq, by simpa [BlockTable.size, cut] using hsize, fun b hb hpos => ?_⟩
  rcases List.mem_append.mp hb with hold | hnew
  · exact h.within b hold hpos
  · have hfin := (bounds_of_tiles (tiles_cut_region start len hs) hnew hpos).2
    omega

/-- What is done to a table whose blocks end at addresses leaves it so. -/
theorem Held.apply (h : Held capacity t) (hop : op.Proper) (hfits : op.Fits capacity) :
    Held capacity (op.apply t) := by
  cases op with
  | append start len blockSize => exact h.append hop hfits.1
  | find first last need =>
    rw [Operation.apply]
    cases hlist : t.find? first last need with
    | none => exact h
    | some r =>
      obtain ⟨grant, t'⟩ := r
      have hfound := find?_eq_some hop hlist
      exact ⟨hfound.capacity_eq.trans h.capacity_eq, hfound.grants.length_eq.trans_le h.size_le,
        hfound.within _ h.within⟩
  | clearUsed id =>
    exact ⟨h.capacity_eq, (size_setUsed false).trans_le h.size_le, within_setUsed h.within id false⟩
  | setUsed id =>
    exact ⟨h.capacity_eq, (size_setUsed true).trans_le h.size_le, within_setUsed h.within id true⟩

theorem Held.applyAll (h : Held capacity t) {ops : List Operation}
    (hops : ∀ op ∈ ops, op.Proper ∧ op.Fits capacity) :
    Held capacity (ops.foldl (fun t op => op.apply t) t) := by
  induction ops generalizing t with
  | nil => exact h
  | cons op ops ih =>
    obtain ⟨⟨hop, hfits⟩, hrest⟩ := List.forall_mem_cons.mp hops
    exact ih (h.apply hop hfits) hrest

/-- Where regions end at addresses and ids do not run out, nothing stops the program. -/
theorem Operation.perform_fits (h : Held capacity w.table) (hfits : op.Fits capacity) :
    ∃ w', op.perform.run w = .ok () w' := by
  cases op with
  | append start len blockSize =>
    rcases appendRegion_cases w start len blockSize with
      ⟨stop, fresh, -, -, -, hover⟩ | ⟨-, hrun⟩ | ⟨ids, -, hrun⟩
    · have hsize := h.size_le
      obtain ⟨hlen, hids⟩ := hfits
      omega
    · exact ⟨_, run_discard hrun⟩
    · exact ⟨_, run_discard hrun⟩
  | find first last need =>
    rcases find_cases w first last need with
      ⟨haddr, -⟩ | ⟨-, hrun, -⟩ | ⟨g, t', w', j, -, hrun, -⟩
    · exact absurd h.addressed haddr
    · exact ⟨_, run_discard hrun⟩
    · exact ⟨_, run_discard hrun⟩
  | clearUsed id => exact ⟨_, run_discard (run_clearUsed w id)⟩
  | setUsed id => exact ⟨_, run_setUsed w id⟩

theorem run_performAll_cons (h : op.perform.run w = .ok () w') (ops : List Operation) :
    (performAll (op :: ops)).run w = (performAll ops).run w' := by
  rw [performAll, EStateM.run_bind, h]

/-- A run of operations keeps the counts exact, however it ends. Nothing stops it where every region
fits. -/
theorem performAll_cases (ops : List Operation) (hops : ∀ op ∈ ops, op.Proper) (h : Exact w) :
    ∃ w', Exact w' ∧
      (((performAll ops).run w = .ok () w' ∧
          w'.table = ops.foldl (fun t op => op.apply t) w.table) ∨
        ∃ stop, Overflows stop ∧ (performAll ops).run w = .error stop w' ∧
          ∀ capacity, Held capacity w.table → ∃ op ∈ ops, ¬ op.Fits capacity) := by
  induction ops generalizing w with
  | nil => exact ⟨w, h, Or.inl ⟨rfl, rfl⟩⟩
  | cons op ops ih =>
    obtain ⟨hop, hrest⟩ := List.forall_mem_cons.mp hops
    obtain ⟨w₁, hexact, ⟨hrun, htable⟩ | ⟨stop, hstop, hrun⟩⟩ := Operation.perform_exact h hop
    · obtain ⟨w', hexact', hends⟩ := ih hrest hexact
      rw [run_performAll_cons hrun, List.foldl_cons, ← htable]
      refine ⟨w', hexact', hends.imp_right ?_⟩
      rintro ⟨stop, hstop, hrun', hnot⟩
      refine ⟨stop, hstop, hrun', fun capacity hheld => ?_⟩
      by_cases hfits : op.Fits capacity
      · obtain ⟨op', hmem, hnot'⟩ := hnot capacity (htable ▸ hheld.apply hop hfits)
        exact ⟨op', List.mem_cons_of_mem _ hmem, hnot'⟩
      · exact ⟨op, List.mem_cons_self, hfits⟩
    · refine ⟨w₁, hexact, Or.inr ⟨stop, hstop, ?_, fun capacity hheld =>
        ⟨op, List.mem_cons_self, fun hfits => ?_⟩⟩⟩
      · rw [performAll, EStateM.run_bind, hrun]
      · obtain ⟨w', hok⟩ := Operation.perform_fits hheld hfits
        cases hrun.symm.trans hok

theorem exact_ofCapacity (capacity : Nat) : Exact (Bench.ofCapacity capacity) where
  paged b hb := by cases hb
  blocksOnPage_eq _ := rfl
  found_pos change hchange := by cases hchange

theorem held_ofCapacity (capacity : Nat) : Held capacity (Bench.ofCapacity capacity).table where
  capacity_eq := rfl
  size_le := Nat.zero_le _
  within b hb := by cases hb

/-- Whatever is done to a table, its counts are those of the blocks that have a size, and no count
of none goes down; that is so as well where an overflow stops the program, which it does only where
a region ends at no address or the ids for its blocks run out. -/
theorem performAll_exact (capacity : Nat) (ops : List Operation) (hops : ∀ op ∈ ops, op.Proper) :
    ∃ w, Exact w ∧
      (((performAll ops).run (Bench.ofCapacity capacity) = .ok () w ∧
          w.table = ops.foldl (fun t op => op.apply t) { capacity }) ∨
        ∃ stop, Overflows stop ∧
          (performAll ops).run (Bench.ofCapacity capacity) = .error stop w ∧
          ∃ op ∈ ops, ¬ op.Fits capacity) := by
  obtain ⟨w, hexact, hends⟩ := performAll_cases ops hops (exact_ofCapacity capacity)
  refine ⟨w, hexact, hends.imp_right ?_⟩
  rintro ⟨stop, hstop, hrun, hnot⟩
  exact ⟨stop, hstop, hrun, hnot capacity (held_ofCapacity capacity)⟩

/-- A search that merges blocks of two pages and cuts the last one, and one that takes what is left
of it. -/
theorem performAll_exact_two_pages :
    let ops : List Operation :=
      [.append 0 163840 40960, .find 0 4 100000, .clearUsed 0, .find 0 4 110000]
    (∀ op ∈ ops, op.Proper) ∧
      ∃ w, Exact w ∧ (performAll ops).run (Bench.ofCapacity 8) = .ok () w ∧
        w.table = ops.foldl (fun t op => op.apply t) { capacity := 8 } := by
  intro ops
  have hops : ∀ op ∈ ops, op.Proper := by simp [ops, Operation.Proper]
  have hfits : ∀ op ∈ ops, op.Fits 8 := by
    simp [ops, Operation.Fits, blocksForRegion, wordLimit]
  obtain ⟨w, hexact, ⟨hrun, htable⟩ | ⟨stop, -, -, op, hop, hnot⟩⟩ := performAll_exact 8 ops hops
  · exact ⟨hops, w, hexact, hrun, htable⟩
  · exact absurd (hfits op hop) hnot

end Operations
end Machine
end BlockTable
end GuestLibrary
