import GuestLibrary.Proofs.Heap.Reachable

/-! Heaps in a memory that others let grow as well. What is mapped between two regions then belongs
to no block, and the blocks no longer tile memory. They still end inside it, and each live grant is
that of a used block, whatever handles the calls are given. -/
namespace GuestLibrary

/-- Each live grant is that of a used block. -/
structure LiveGrants.Backed (live : LiveGrants) (t : BlockTable) : Prop where
  ordered : Ordered live
  block : ∀ address id, (address, id) ∈ live →
    ∃ b, t.Uses id b ∧ blockHeader ≤ b.size ∧ address = b.start + blockHeader

namespace LiveGrants.Backed

variable {live : LiveGrants} {t t' : BlockTable} {id : Nat} {b : Block}

theorem mono (hl : live.Backed t) (h : ∀ i c, t.Uses i c → t'.Uses i c) : live.Backed t' where
  ordered := hl.ordered
  block address i hm := by
    obtain ⟨c, hc, hrest⟩ := hl.block address i hm
    exact ⟨c, h i c hc, hrest⟩

protected theorem insert (hl : live.Backed t) (hb : t.Uses id b) (hs : blockHeader ≤ b.size) :
    (LiveGrants.insert (b.start + blockHeader) id live).Backed t where
  ordered := hl.ordered.insert
  block address i hm := by
    rcases (mem_insert hl.ordered).mp hm with he | ⟨hm, -⟩
    · obtain ⟨rfl, rfl⟩ := Prod.mk.inj he
      exact ⟨b, hb, hs, rfl⟩
    · exact hl.block address i hm

/-- All grants of a block are at its address, so they go with it. -/
protected theorem erase (hl : live.Backed t) (hb : t.Uses id b) :
    (LiveGrants.erase live (b.start + blockHeader)).Backed (t.setUsed id false) where
  ordered := hl.ordered.erase
  block address i hm := by
    obtain ⟨hm, hne⟩ := mem_erase.mp hm
    obtain ⟨c, hc, hs, rfl⟩ := hl.block address i hm
    refine ⟨c, BlockTable.uses_setUsed_false.mpr ⟨?_, hc⟩, hs, rfl⟩
    rintro rfl
    rw [hc.unique hb] at hne
    exact hne rfl

end LiveGrants.Backed

/-- A block that was freed and is marked again is used as before. -/
theorem BlockTable.uses_restore {t t' : BlockTable} {id i : Nat} {b c : Block} (hb : t.Uses id b)
    (hk : ∀ j d, (t.setUsed id false).get? j = some d → t'.get? j = some d) (hc : t.Uses i c) :
    (t'.setUsed id true).Uses i c := by
  refine ⟨?_, hc.2⟩
  rw [get?_restore hb hk]
  split
  · rename_i hi
    subst hi
    rw [hc.unique hb]
  · rename_i hi
    refine hk i c ?_
    rw [get?_setUsed, if_neg hi]
    exact hc.1

namespace Heap

variable {h h' h'' : Heap} {a a' a'' : Arena} {need id : Nat} {b : Block}

/-- The blocks lie inside memory. -/
structure Fenced (h : Heap) (a : Arena) : Prop where
  based : a.heapBase ≤ a.memory.size
  within : Within a.memory.size h.table.blocks

/-- What holds of a heap however its memory grew. -/
structure Enclosed (h : Heap) (a : Arena) : Prop extends h.Fenced a where
  backed : h.live.Backed h.table

theorem enclosed_ofLimits (limits : HeapLimits) (ha : a.heapBase ≤ a.memory.size) :
    (ofLimits limits).Enclosed a where
  based := ha
  within _ hb := absurd hb List.not_mem_nil
  backed := ⟨List.Pairwise.nil, fun _ _ hm => absurd hm List.not_mem_nil⟩

theorem Fenced.record (hf : h.Fenced a) (call : HeapCall) (event : HeapEvent) :
    (h.record call event).Fenced a :=
  ⟨hf.based, hf.within⟩

theorem Enclosed.record (hh : h.Enclosed a) (call : HeapCall) (event : HeapEvent) :
    (h.record call event).Enclosed a :=
  ⟨hh.toFenced.record call event, hh.backed⟩

theorem Fenced.of_size_le (hf : h.Fenced a) (hb : a'.heapBase = a.heapBase)
    (hs : a.memory.size ≤ a'.memory.size) : h.Fenced a' where
  based := hb.le.trans (hf.based.trans hs)
  within b hm hp := (hf.within b hm hp).trans hs

/-- Memory may grow, whoever lets it. -/
theorem Enclosed.of_size_le (hh : h.Enclosed a) (hb : a'.heapBase = a.heapBase)
    (hs : a.memory.size ≤ a'.memory.size) : h.Enclosed a' :=
  ⟨hh.toFenced.of_size_le hb hs, hh.backed⟩

theorem Fenced.setUsed (hf : h.Fenced a) (id : Nat) (used : Bool) :
    Fenced { h with table := h.table.setUsed id used } a :=
  ⟨hf.based, BlockTable.within_setUsed hf.within id used⟩

theorem Fenced.bounds_of_uses (hf : h.Fenced a) (hb : h.table.Uses id b)
    (hs : blockHeader ≤ b.size) :
    (Allocation.ofBlock id b).address + (Allocation.ofBlock id b).length ≤ a.memory.size := by
  have hin := hf.within b (List.mem_of_getElem? hb.1) (Nat.lt_of_lt_of_le (by decide) hs)
  simp only [Allocation.ofBlock, Block.fin] at hin ⊢
  omega

/-- Live grants lie inside memory. -/
theorem Enclosed.bounds_of_live (hh : h.Enclosed a) {g : Allocation} (hg : g ∈ h.liveAllocations) :
    g.address + g.length ≤ a.memory.size := by
  obtain ⟨⟨address, block⟩, hm, hhandle⟩ := List.mem_filterMap.mp hg
  obtain ⟨c, hc, rfl⟩ := Option.map_eq_some_iff.mp hhandle
  obtain ⟨b, hb, hs, rfl⟩ := hh.backed.block address block hm
  obtain rfl : b = c := Option.some.inj (hb.1.symm.trans hc)
  exact hh.toFenced.bounds_of_uses hb hs

/-- A heap with all blocks of another, and maybe more of them. -/
structure Widened (h : Heap) (a : Arena) (h' : Heap) (a' : Arena) : Prop where
  fenced : h'.Fenced a'
  live_eq : h'.live = h.live
  size_le : a.memory.size ≤ a'.memory.size
  get?_eq : ∀ i c, h.table.get? i = some c → h'.table.get? i = some c

/-- A heap after a search that found a block. -/
structure Chosen (h : Heap) (a : Arena) (h' : Heap) (a' : Arena) (need id : Nat) (b : Block) :
    Prop where
  fenced : h'.Fenced a'
  live_eq : h'.live = h.live
  size_le : a.memory.size ≤ a'.memory.size
  kept : ∀ i c, h.table.Uses i c → h'.table.Uses i c
  uses : h'.table.Uses id b
  need_le : need ≤ b.size

theorem Widened.uses (hw : h.Widened a h' a') {i : Nat} {c : Block} (hc : h.table.Uses i c) :
    h'.table.Uses i c :=
  ⟨hw.get?_eq i c hc.1, hc.2⟩

theorem Widened.enclosed (hw : h.Widened a h' a') (hh : h.Enclosed a) : h'.Enclosed a' := by
  refine ⟨hw.fenced, ?_⟩
  rw [hw.live_eq]
  exact hh.backed.mono fun _ _ hc => hw.uses hc

/-- The blocks of a new region lie inside memory, as it ends where memory does. -/
theorem Fenced.follows (hf : h.Fenced a) {region : Region} {ids : Nat × Nat} {table : BlockTable}
    (hr : h.Follows a need region a')
    (happ : h.table.appendRegion? region.start region.len h.limits.blockSize =
      some (ids, table)) :
    h.Widened a { h with table, regions := h.regions ++ [region] } a' := by
  have hblocks := (BlockTable.appendRegion?_eq_some happ).1
  have hsize := hr.changed.size_le
  refine ⟨⟨?_, ?_⟩, rfl, hsize, ?_⟩
  · rw [hr.changed.heapBase_eq]
    exact hf.based.trans hsize
  · have hfresh := BlockTable.tiles_cut_region region.start region.len h.limits.blockSize_pos
    rw [hr.fin_eq] at hfresh
    dsimp only
    rw [hblocks]
    exact List.forall_mem_append.mpr ⟨fun b hb hp => (hf.within b hb hp).trans hsize,
      fun b hb hp => (bounds_of_tiles hfresh hb hp).2⟩
  · intro i c hc
    dsimp only [BlockTable.get?] at hc ⊢
    rw [hblocks, List.getElem?_append_left (List.getElem?_eq_some_iff.mp hc).1, hc]

theorem Surveyed.widened {call : HeapCall} (hs : h.Surveyed a call need h' a') (hf : h.Fenced a)
    (hn : 0 < need) : h.Widened a h' a' := by
  have hsame : h.Widened a h a := ⟨hf, rfl, Nat.le_refl _, fun _ _ hc => hc⟩
  cases hs with
  | same => exact hsame
  | grown =>
    rcases addRegion_cases (h := h) hf.based call hn with
      ⟨-, event, -, he⟩ | ⟨-, region, a', ids, table, event, -, hr, happ, he⟩ <;> rw [he]
    · exact ⟨hf.record call event, rfl, Nat.le_refl _, fun _ _ hc => hc⟩
    · have hw := hf.follows hr happ
      exact ⟨hw.fenced.record call event, hw.live_eq, hw.size_le, hw.get?_eq⟩

theorem Widened.chosen {first last : Nat} {grant : Grant} {table : BlockTable}
    (hw : h.Widened a h' a') (hn : 0 < need)
    (hf : h'.table.find? first last need = some (grant, table)) :
    ∃ b, h.Chosen a { h' with table } a' need grant.id b := by
  have hfound := BlockTable.find?_eq_some hn hf
  obtain ⟨⟨b, hb, hle⟩, hfresh, hothers⟩ := BlockTable.uses_of_find? hn hf
  refine ⟨b, ⟨hw.fenced.based, hfound.within _ hw.fenced.within⟩, hw.live_eq, hw.size_le, ?_, hb,
    hle⟩
  intro i c hc
  have hc' := hw.uses hc
  have hi : i ≠ grant.id := by
    rintro rfl
    exact hfresh c hc'
  exact (hothers i hi c).mpr hc'

/-- The outcome of a call: it grants nothing, the grant that it was handed, or one of at least
`size` bytes inside memory. -/
structure Encloses (a : Arena) (handed : Option Allocation) (size : Nat)
    (outcome : Except AllocError Allocation × Heap × Arena) : Prop where
  enclosed : outcome.2.1.Enclosed outcome.2.2
  size_le : a.memory.size ≤ outcome.2.2.memory.size
  granted : ∀ g, outcome.1 = .ok g → handed = some g ∨
    size ≤ g.length ∧ g.address + g.length ≤ outcome.2.2.memory.size

theorem Encloses.record {handed : Option Allocation} {size : Nat}
    {r : Except AllocError Allocation} (he : Encloses a handed size (r, h', a')) (call : HeapCall)
    (event : HeapEvent) : Encloses a handed size (r, h'.record call event, a') :=
  ⟨he.enclosed.record call event, he.size_le, he.granted⟩

/-- A call that fails and leaves the heap as it was. -/
theorem Enclosed.refused (hh : h.Enclosed a) (handed : Option Allocation) (size : Nat)
    (e : AllocError) : Encloses a handed size (.error e, h, a) :=
  ⟨hh, Nat.le_refl _, fun g hg => by cases hg⟩

/-- The block of a search becomes a grant. -/
theorem Chosen.encloses {size : Nat} {live : LiveGrants} (handed : Option Allocation)
    (hc : h.Chosen a h' a' (size + blockHeader) id b) (hl : live.Backed h'.table)
    (hb : a''.heapBase = a'.heapBase) (hs : a''.memory.size = a'.memory.size) :
    Encloses a handed size (.ok (.ofBlock id b),
      { h' with live := LiveGrants.insert (b.start + blockHeader) id live }, a'') := by
  have hheader : blockHeader ≤ b.size := (Nat.le_add_left _ _).trans hc.need_le
  have hfenced := hc.fenced.of_size_le hb hs.ge
  refine ⟨⟨⟨hfenced.based, hfenced.within⟩, hl.insert hc.uses hheader⟩, hc.size_le.trans hs.ge,
    fun g hg => ?_⟩
  obtain rfl := Except.ok.inj hg
  have hle := hc.need_le
  exact Or.inr ⟨by simp only [Allocation.ofBlock]; omega, hfenced.bounds_of_uses hc.uses hheader⟩

theorem allocateFor_encloses (hh : h.Enclosed a) (call : HeapCall) (size : Nat) :
    Encloses a none size (h.allocateFor a call size) := by
  have hn : 0 < size + blockHeader := Nat.lt_of_lt_of_le (by decide) (Nat.le_add_left _ size)
  unfold allocateFor
  dsimp only
  split
  · exact (hh.refused none size _).record _ _
  obtain ⟨h₁, a₁, hs, hcases⟩ := h.searchGrowing_surveyed a call (size + blockHeader)
  have hw := hs.widened hh.toFenced hn
  rcases hcases with ⟨first, last, grant, table, hf, he⟩ | he
  · obtain ⟨b, hc⟩ := hw.chosen hn hf
    have hbacked := hh.backed.mono hc.kept
    rw [← hc.live_eq] at hbacked
    rw [he]
    dsimp only
    rw [commit?_of_uses hc.uses]
    dsimp only
    refine (hc.encloses none hbacked ?_ ?_).record _ _
    · rfl
    · simp
  · rw [he]
    exact ⟨(hw.enclosed hh).record _ _, hw.size_le, fun g hg => by cases hg⟩

theorem allocateZeroed_encloses (hh : h.Enclosed a) (count size : Nat) :
    Encloses a none (count * size) (h.allocateZeroed a count size) := by
  unfold allocateZeroed
  dsimp only
  split
  · exact (hh.refused none _ _).record _ _
  have he := allocateFor_encloses hh .calloc (count * size)
  rcases hr : h.allocateFor a .calloc (count * size) with ⟨e | g, h', a'⟩ <;> rw [hr] at he
  · exact he
  · have hsize : (a'.write g.address (List.replicate g.length 0)).memory.size = a'.memory.size := by
      simp
    exact ⟨he.enclosed.of_size_le rfl hsize.ge, he.size_le.trans hsize.ge, fun g' hg' =>
      (he.granted g' hg').imp_right fun hin => ⟨hin.1, hin.2.trans hsize.ge⟩⟩

theorem resizeLive_encloses (hh : h.Enclosed a) {current : Allocation} {old : Block}
    (hold : h.table.Uses current.block old) (ha : current.address = old.start + blockHeader)
    (size : Nat) :
    Encloses a (some current) size
      (h.resizeLive a current old size (size + blockHeader)) := by
  have hn : 0 < size + blockHeader := Nat.lt_of_lt_of_le (by decide) (Nat.le_add_left _ size)
  obtain ⟨h₁, a₁, hs, hcases⟩ :=
    searchReplacement_surveyed { h with table := h.table.setUsed current.block false } a
      current.block (size + blockHeader)
  have hw := hs.widened (hh.toFenced.setUsed current.block false) hn
  rcases hcases with ⟨first, last, grant, window, table, hf, he⟩ | he
  · obtain ⟨b, hc⟩ := hw.chosen hn hf
    obtain ⟨event, hmoved⟩ := resizeLive_of_placed old he hc.uses size
    have hbacked := (hh.backed.erase hold).mono hc.kept
    have hlive : h₁.live = h.live := hw.live_eq
    rw [← hlive, ← ha] at hbacked
    rw [hmoved]
    refine (hc.encloses (some current) hbacked ?_ ?_).record _ _
    · rfl
    · simp
  · unfold resizeLive
    dsimp only
    rw [he]
    have hbacked : h₁.live.Backed (h₁.table.setUsed current.block true) := by
      rw [hw.live_eq]
      exact hh.backed.mono fun i c hc => BlockTable.uses_restore hold hw.get?_eq hc
    have hrestored : Enclosed { h₁ with table := h₁.table.setUsed current.block true } a₁ :=
      ⟨hw.fenced.setUsed current.block true, hbacked⟩
    exact ⟨hrestored.record _ _, hw.size_le, fun g hg => by cases hg⟩

theorem resize_encloses (hh : h.Enclosed a) (current : Allocation) (size : Nat) :
    Encloses a (some current) size (h.resize a current size) := by
  unfold resize
  cases hv : h.validate .realloc current with
  | error d => exact (hh.refused _ _ _).record _ _
  | ok old =>
    obtain ⟨hold, ha⟩ := uses_of_validate hv
    dsimp only
    split
    · exact hh.refused _ _ _
    split
    · exact ⟨hh.record _ _, Nat.le_refl _, fun g hg => Or.inl (congrArg some (Except.ok.inj hg))⟩
    · exact resizeLive_encloses hh hold ha size

theorem release_enclosed (hh : h.Enclosed a) (grant : Allocation) :
    (h.release grant).2.Enclosed a := by
  unfold release
  cases hv : h.validate .free grant with
  | error d => exact hh.record _ _
  | ok b =>
    obtain ⟨hb, ha⟩ := uses_of_validate hv
    have hbacked := hh.backed.erase hb
    rw [← ha] at hbacked
    have hfenced := hh.toFenced.setUsed grant.block false
    have hreleased : Enclosed { h with
        table := h.table.setUsed grant.block false
        live := LiveGrants.erase h.live grant.address } a :=
      ⟨⟨hfenced.based, hfenced.within⟩, hbacked⟩
    exact hreleased.record _ _

theorem releaseAddress_enclosed (hh : h.Enclosed a) (address : Nat) :
    (h.releaseAddress address).2.Enclosed a := by
  unfold releaseAddress
  split
  · exact hh.record _ _
  split
  · exact release_enclosed hh _
  · exact hh.record _ _

/-- The grant that a call is handed to resize. -/
def Request.resized? : Request → Option Allocation
  | .reallocate current _ => current
  | _ => none

/-- Whatever a call grants, if not the grant that it was handed, lies inside memory. -/
theorem perform_encloses (hh : h.Enclosed a) (r : Request) :
    (h.perform a r).2.1.Enclosed (h.perform a r).2.2 ∧
      a.memory.size ≤ (h.perform a r).2.2.memory.size ∧
      ∀ g, (h.perform a r).1 = .ok (some g) → r.resized? = some g ∨
        g.address + g.length ≤ (h.perform a r).2.2.memory.size := by
  have hgranted : ∀ {handed : Option Allocation} {size : Nat}
      {outcome : Except AllocError Allocation × Heap × Arena}, Encloses a handed size outcome →
      outcome.2.1.Enclosed outcome.2.2 ∧ a.memory.size ≤ outcome.2.2.memory.size ∧
        ∀ g, outcome.1.map some = .ok (some g) → handed = some g ∨
          g.address + g.length ≤ outcome.2.2.memory.size := by
    intro handed size outcome he
    refine ⟨he.enclosed, he.size_le, fun g hg => ?_⟩
    cases ho : outcome.1 with
    | error e =>
      rw [ho] at hg
      cases hg
    | ok g' =>
      rw [ho] at hg
      obtain rfl := Option.some.inj (Except.ok.inj hg)
      exact (he.granted g' ho).imp_right fun hin => hin.2
  cases r with
  | allocate size => exact hgranted (allocateFor_encloses hh .malloc size)
  | allocateZeroed count size => exact hgranted (allocateZeroed_encloses hh count size)
  | reallocate current size =>
    cases current with
    | none => exact hgranted (allocateFor_encloses hh .realloc size)
    | some current => exact hgranted (resize_encloses hh current size)
  | release grant =>
    refine ⟨release_enclosed hh grant, Nat.le_refl _, fun g hg => ?_⟩
    dsimp only [perform] at hg
    cases hr : (h.release grant).1 <;> rw [hr] at hg <;> cases hg
  | releaseAddress address =>
    refine ⟨releaseAddress_enclosed hh address, Nat.le_refl _, fun g hg => ?_⟩
    dsimp only [perform] at hg
    cases hr : (h.releaseAddress address).1 <;> rw [hr] at hg <;> cases hg

end Heap
end GuestLibrary
