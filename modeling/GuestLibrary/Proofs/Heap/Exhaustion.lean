import GuestLibrary.Proofs.Heap.Arithmetic

/-! When an allocation fails: only where no free run has the bytes and the region that would bring
them is refused by a ceiling, or overflows before a ceiling can refuse it. Whatever else is free,
how it is cut up and where holes lie makes no difference. -/
namespace GuestLibrary

/-- A simulated memory that never grew ends with the page of its heap base. -/
theorem Arena.Simulated.size_eq_of_growths {a : Arena} (ha : a.Simulated) (hg : a.growths = 0) :
    a.memory.size = (a.heapBase / pageSize + 1) * pageSize := by
  induction ha with
  | ofBase heapBase maxPages =>
    simp [Arena.ofBase, LinearMemory.ofPages, LinearMemory.size, LinearMemory.zeros,
      ← ByteArray.size_data]
  | grow _ hgrow _ =>
    obtain ⟨⟨address, memory⟩, -, he⟩ := Option.map_eq_some_iff.mp hgrow
    obtain ⟨-, rfl⟩ := Prod.mk.inj he
    cases hg
  | write address block _ ih =>
    have hsize := ih hg
    simpa using hsize

namespace Heap

variable {h : Heap} {a : Arena} {limits : HeapLimits} {writable : Heap → Nat → Nat → Prop}

/-- As long as a heap has no region, its calls leave the arena alone. -/
theorem perform_unacquired (hs : h.Sound a) (r : Request)
    (hr : (h.perform a r).2.1.regions = []) : (h.perform a r).2.2 = a := by
  -- a heap with a used block has a region
  have hnever : ∀ {h' : Heap} {a' : Arena} {released : Option Nat} {id : Nat} {b : Block},
      h.Step a h' a' released (some (id, b)) → h'.regions ≠ [] := fun hstep =>
    hstep.sound.regions_ne_nil ((hstep.uses_iff _ _).mpr (Or.inl rfl))
  have hallocate : ∀ call size, (h.allocateFor a call size).2.1.regions = [] →
      (h.allocateFor a call size).2.2 = a := by
    intro call size hnone
    have hatomic := allocateFor_atomic hs call size
    rcases allocateFor_cases hs call size with
      ⟨id, b, h', a', he, -, hstep⟩ | ⟨e, h', a', he, -, -⟩
    · rw [he] at hnone
      exact absurd hnone (hnever hstep)
    · exact (hatomic.undone e (by rw [he])).2
  cases r with
  | allocate size => exact hallocate .malloc size hr
  | allocateZeroed count size =>
    have hatomic := allocateZeroed_atomic hs count size
    dsimp only [perform] at hr ⊢
    rcases allocateZeroed_cases hs count size with
      ⟨id, b, h', a', he, -, hstep, -⟩ | ⟨e, h', a', he, -, -⟩
    · rw [he] at hr
      exact absurd hr (hnever hstep)
    · exact (hatomic.undone e (by rw [he])).2
  | reallocate current size =>
    cases current with
    | none => exact hallocate .realloc size hr
    | some current =>
      have hatomic := resize_atomic hs current size
      dsimp only [perform, reallocate] at hr ⊢
      rcases resize_cases hs current size with
        ⟨old, id, b, h', a', -, -, he, -, hstep⟩ | ⟨old, h', -, -, he, -, -⟩ | ⟨e, h', a', he, -, -⟩
      · rw [he] at hr
        exact absurd hr (hnever hstep)
      · rw [he]
      · exact (hatomic.undone e (by rw [he])).2
  | release grant => rfl
  | releaseAddress address => rfl

/-- Until the first region is acquired, memory is as the host laid it out. -/
theorem Reachable.simulated (hr : Reachable limits writable h a) :
    h.regions = [] → a.Simulated := by
  induction hr with
  | fresh ha => exact fun _ => ha
  | @call h a r hr ih =>
    intro hnone
    have hprefix := (perform_atomic hr.sound.1 r).leads.regions_prefix
    rw [hnone, List.prefix_nil] at hprefix
    rw [perform_unacquired hr.sound.1 r hnone]
    exact ih hprefix
  | write address block _ _ ih => exact fun hnone => (ih hnone).write address block

/-- What the first region finds mapped is the rest of the page of the heap base. -/
theorem Reachable.spare_eq (hr : Reachable limits writable h a) (hnone : h.regions = [])
    (hg : a.growths = 0) : h.spare a = pageSize - a.heapBase % pageSize := by
  have hsize := (hr.simulated hnone).size_eq_of_growths hg
  have hspare : h.spare a = a.memory.size - a.heapBase := if_pos hnone
  rw [hspare, hsize]
  simp only [pageSize]
  omega

/-- What an allocation on words computes is what it computes on numbers. -/
theorem allocate_eq_ok_iff (hr : Machine.Reachable limits writable h a) {size : Nat}
    (hnot : ¬ h.Stuck a (size + blockHeader))
    {result : Except AllocError Allocation × Heap × Arena} :
    Machine.allocate h a size = .ok result ↔ h.allocate a size = result := by
  rw [Machine.allocate, (allocateFor_computes hr.bounded.2 .malloc size).computed hnot]
  exact ⟨Except.ok.inj, congrArg Except.ok⟩

/-- An allocation is served from the regions that there are exactly where free blocks that follow one
another have the bytes. -/
theorem served_in_place_iff (hr : Machine.Reachable limits writable h a) {size : Nat}
    (hsize : size + blockHeader < wordLimit) :
    (∃ g h' a', Machine.allocate h a size = .ok (.ok g, h', a') ∧ h'.regions = h.regions) ↔
      h.table.HasFreeRun (size + blockHeader) := by
  obtain ⟨hreach, hb⟩ := hr.bounded
  by_cases hstuck : h.Stuck a (size + blockHeader)
  · obtain ⟨stop, -, hstop⟩ := (allocateFor_computes hb .malloc size).stopped hstuck
    refine iff_of_false ?_ hstuck.2.1
    rintro ⟨g, h', a', he, -⟩
    cases hstop.symm.trans he
  simp only [allocate_eq_ok_iff hr hstuck, allocate]
  rcases allocateFor_exact hreach.sound.1 .malloc hsize with ⟨hrun, g, h', a', he, hregions, -⟩ |
    ⟨hrun, -, g, h', region, a', he, -, hregions, -⟩ | ⟨hrun, -, h', he, -, -⟩
  · exact iff_of_true ⟨g, h', a', he, hregions⟩ hrun
  · refine iff_of_false ?_ hrun
    rintro ⟨g₁, h₁, a₁, he₁, hsame⟩
    obtain ⟨rfl, -⟩ := Prod.mk.inj (Prod.mk.inj (he.symm.trans he₁)).2
    rw [hregions] at hsame
    simp at hsame
  · refine iff_of_false ?_ hrun
    rintro ⟨g₁, h₁, a₁, he₁, -⟩
    cases he.symm.trans he₁

/-- An allocation is served without a new region exactly where some free blocks that follow one
another have the bytes together. Otherwise it is served exactly where the ceilings admit the region
that it asks for, which it then acquires, and it fails as exhausted in all other cases, unless that
region is oversized, which stops it. The first region is the rest of the page of the heap base and
as many whole pages as are missing. Once a region was acquired and all grants are released,
everything up to the size of memory behind the heap base is served. -/
theorem allocate_complete (hr : Machine.Reachable limits writable h a) {size : Nat}
    (hsize : size + blockHeader < wordLimit) :
    ((∃ g h' a', Machine.allocate h a size = .ok (.ok g, h', a') ∧ h'.regions = h.regions) ↔
      h.table.HasFreeRun (size + blockHeader)) ∧
    (¬ h.table.HasFreeRun (size + blockHeader) → ¬ h.Oversized a (size + blockHeader) →
      ((∃ g h' a', Machine.allocate h a size = .ok (.ok g, h', a')) ↔
        h.Admits a (size + blockHeader)) ∧
      (h.Admits a (size + blockHeader) → ∃ (region : Region) (g : Allocation) (h' : Heap)
        (a' : Arena), Machine.allocate h a size = .ok (.ok g, h', a') ∧
          region.len = h.regionLength a (size + blockHeader) ∧
          h'.regions = h.regions ++ [region]) ∧
      (¬ h.Admits a (size + blockHeader) → ∃ h', Machine.allocate h a size =
        .ok (.error (.exhausted (size + blockHeader)), h', a))) ∧
    (¬ h.table.HasFreeRun (size + blockHeader) → h.Oversized a (size + blockHeader) →
      ∃ stop, stop.Exceeds ∧ Machine.allocate h a size = .error stop) ∧
    (h.regions = [] → a.growths = 0 → h.spare a = pageSize - a.heapBase % pageSize) ∧
    (h.regions ≠ [] → h.live = [] → size + blockHeader ≤ a.memory.size - a.heapBase →
      ∃ g h' a', Machine.allocate h a size = .ok (.ok g, h', a') ∧ h'.regions = h.regions) := by
  obtain ⟨hreach, hb⟩ := hr.bounded
  have hs := hreach.sound.1
  have hserved := served_in_place_iff hr hsize
  refine ⟨hserved, fun hmissing hnot => ?_, fun hmissing hover => ?_, hreach.spare_eq,
    fun hne hlive hle => hserved.mpr (hs.hasFreeRun_of_released hne hlive hle)⟩
  · have hstuck : ¬ h.Stuck a (size + blockHeader) := fun hstuck => hnot hstuck.2.2
    simp only [allocate_eq_ok_iff hr hstuck, allocate]
    rcases allocateFor_exact hs .malloc hsize with ⟨hrun, -⟩ |
      ⟨-, hadmits, g, h', region, a', he, hlen, hregions, -⟩ | ⟨-, hrefused, h', he, -, -⟩
    · exact absurd hrun hmissing
    · exact ⟨iff_of_true ⟨g, h', a', he⟩ hadmits, fun _ => ⟨region, g, h', a', he, hlen, hregions⟩,
        fun hrefused => absurd hadmits hrefused⟩
    · refine ⟨iff_of_false ?_ hrefused, fun hadmits => absurd hadmits hrefused, fun _ => ⟨h', he⟩⟩
      rintro ⟨g₁, h₁, a₁, he₁⟩
      cases he.symm.trans he₁
  · exact (allocateFor_computes hb .malloc size).stopped ⟨hsize, hmissing, hover⟩

/-- A heap of one page after its block was granted, and after it was taken back. -/
theorem released_onePage : ∃ h a, Machine.Reachable ⟨1, 1⟩ (fun _ _ _ => True) h a ∧
    h.regions = [⟨0, 65536, 1⟩] ∧ h.live = [] ∧ h.limits = ⟨1, 1⟩ ∧
    a.memory.size - a.heapBase = 65536 := by
  have hspans : ∀ (h : Heap) (a : Arena), h.Sound a → h.regions = [⟨0, 65536, 1⟩] →
      h.table.blocks = [⟨0, 65536, 0, true⟩] → a.memory.size - a.heapBase = 65536 := by
    intro h a hs hregions hblocks
    have hspan := (hs.tiles (by simp [hregions])).hi_eq
    rw [sum_size_sized, hblocks] at hspan
    exact Nat.sub_eq_of_eq_add' hspan
  have hreleased : ∀ (h : Heap) (a : Arena), h.regions = [⟨0, 65536, 1⟩] → h.live = [(4, 0)] →
      h.table.blocks = [⟨0, 65536, 0, true⟩] →
      (h.perform a (.release ⟨0, 4, 65532⟩)).2.1.regions = [⟨0, 65536, 1⟩] ∧
        (h.perform a (.release ⟨0, 4, 65532⟩)).2.1.live = [] ∧
        (h.perform a (.release ⟨0, 4, 65532⟩)).2.2 = a := by
    intro h a hregions hlive hblocks
    simp [perform, release, validate, BlockTable.get?, hblocks, blockHeader, record, hregions,
      LiveGrants.erase, hlive]
  have hgranted := reachable_onePage.perform
    (reachable_onePage.bounded.2.not_stops (r := .allocate 10) (fun _ => by decide) (by decide))
  obtain ⟨-, hlive, hregions⟩ := allocate_onePage rfl size_onePage
  have hblocks := blocks_onePage rfl size_onePage
  have hspan := hspans _ _ hgranted.bounded.1.sound.1 hregions hblocks
  have hr := hgranted.perform (r := .release ⟨0, 4, 65532⟩) id
  obtain ⟨hacquired, hnone, harena⟩ := hreleased _
    ((ofLimits ⟨1, 1⟩).perform (.ofBase 0 1) (.allocate 10)).2.2 hregions hlive hblocks
  exact ⟨_, _, hr, hacquired, hnone, hr.bounded.1.sound.2, by rw [harena]; exact hspan⟩

/-- A heap of one page that granted its block and took it back serves the whole page again. -/
theorem allocate_complete_onePage : ∃ h a, Machine.Reachable ⟨1, 1⟩ (fun _ _ _ => True) h a ∧
    h.table.HasFreeRun 65536 ∧ ∃ g h' a',
      Machine.allocate h a 65532 = .ok (.ok g, h', a') ∧ h'.regions = h.regions := by
  obtain ⟨h, a, hr, hregions, hlive, -, hspan⟩ := released_onePage
  obtain ⟨hserved, -, -, -, hall⟩ :=
    allocate_complete hr (by decide : 65532 + blockHeader < wordLimit)
  have hok := hall (by simp [hregions]) hlive (by rw [hspan]; decide)
  exact ⟨h, a, hr, hserved.mp hok, hok⟩

/-- The same heap has no free run of almost as many bytes as there are words, and the ceiling on
pages refuses a region for them; but the bytes of its whole pages are no word, so that the call is
stopped and does not end as exhausted. -/
theorem allocate_overflows_onePage : ∃ h a, Machine.Reachable ⟨1, 1⟩ (fun _ _ _ => True) h a ∧
    18446744073709551611 + blockHeader < wordLimit ∧
    ¬ h.table.HasFreeRun (18446744073709551611 + blockHeader) ∧
    ¬ h.Admits a (18446744073709551611 + blockHeader) ∧
    Machine.allocate h a 18446744073709551611 = .error .product := by
  obtain ⟨h, a, hr, hregions, -, hlimits, hspan⟩ := released_onePage
  have hb := hr.bounded.2
  have hspare : h.spare a = 0 := if_neg (by simp [hregions])
  have hgrowth : h.growth a (18446744073709551611 + blockHeader) = 281474976710656 := by
    rw [growth, hspare]
    decide
  have hmissing : ¬ h.table.HasFreeRun (18446744073709551611 + blockHeader) := fun hrun =>
    absurd (hspan ▸ hb.toTiled.need_le_of_hasFreeRun (by decide) hrun) (by decide)
  refine ⟨h, a, hr, by decide, hmissing, fun hadmits => ?_, ?_⟩
  · have hpages := Nat.le_trans (Nat.le_add_left _ _) hadmits.pages_le
    rw [regionLength, hspare, hgrowth, hlimits] at hpages
    exact absurd hpages (by decide)
  · exact allocateFor_of_nextRegion hb .malloc (by decide) hmissing
      (nextRegion_of_product_stops h a (by rw [hgrowth]; decide))

end Heap
end GuestLibrary
