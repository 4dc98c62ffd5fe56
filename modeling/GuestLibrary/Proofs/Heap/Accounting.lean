import GuestLibrary.Proofs.Heap.Operations

/-! What a heap reports of itself: its live grants are exactly its used blocks, and its statistics
count them and add up the bytes. -/
namespace GuestLibrary
namespace Heap

variable {h h' : Heap} {a a' : Arena} {g : Allocation}

theorem handle?_eq_some (hs : h.Sound a) {address id : Nat} (hm : (address, id) ∈ h.live) :
    ∃ b, h.table.Uses id b ∧ address = b.start + blockHeader ∧
      h.handle? id address = some (.ofBlock id b) := by
  obtain ⟨b, hb, rfl⟩ := (hs.lists.mem_iff address id).mp hm
  refine ⟨b, hb, rfl, ?_⟩
  simp [handle?, hb.1, Allocation.ofBlock]

/-- The live grants are the handles of the used blocks. -/
theorem mem_liveAllocations (hs : h.Sound a) :
    g ∈ h.liveAllocations ↔ ∃ b, h.table.Uses g.block b ∧ g = .ofBlock g.block b := by
  simp only [liveAllocations, List.mem_filterMap, Prod.exists]
  constructor
  · rintro ⟨address, id, hm, he⟩
    obtain ⟨b, hb, -, hh⟩ := handle?_eq_some hs hm
    obtain rfl := Option.some.inj (hh.symm.trans he)
    exact ⟨b, hb, rfl⟩
  · rintro ⟨b, hb, hg⟩
    have hm := (hs.lists.mem_iff (b.start + blockHeader) g.block).mpr ⟨b, hb, rfl⟩
    obtain ⟨c, hc, -, hh⟩ := handle?_eq_some hs hm
    refine ⟨_, _, hm, ?_⟩
    rw [hh, hc.unique hb, ← hg]

theorem ofBlock_mem (hs : h.Sound a) {id : Nat} {b : Block} (hb : h.table.Uses id b) :
    .ofBlock id b ∈ h.liveAllocations :=
  (mem_liveAllocations hs).mpr ⟨b, hb, rfl⟩

/-- The live grants are listed in the order of their addresses. -/
theorem map_address_liveAllocations (hs : h.Sound a) :
    h.liveAllocations.map (·.address) = h.live.map (·.1) := by
  have hmap : ∀ live : LiveGrants, (∀ x ∈ live, x ∈ h.live) →
      (live.filterMap fun x => h.handle? x.2 x.1).map (·.address) =
        live.map (·.1) := by
    intro live hsub
    induction live with
    | nil => rfl
    | cons x rest ih =>
      obtain ⟨address, id⟩ := x
      obtain ⟨b, -, ha, hh⟩ := handle?_eq_some hs (hsub _ (List.mem_cons_self ..))
      rw [List.filterMap_cons]
      dsimp only
      rw [hh, List.map_cons, ih fun y hy => hsub y (List.mem_cons_of_mem _ hy), List.map_cons, ha]
      rfl
  exact hmap h.live fun _ hx => hx

theorem pairwise_liveAllocations (hs : h.Sound a) :
    h.liveAllocations.Pairwise (·.address < ·.address) := by
  have h : (h.liveAllocations.map (·.address)).Pairwise (· < ·) := by
    rw [map_address_liveAllocations hs]
    exact List.pairwise_map.mpr hs.lists.ordered
  exact List.pairwise_map.mp h

theorem nodup_liveAllocations (hs : h.Sound a) : h.liveAllocations.Nodup :=
  (pairwise_liveAllocations hs).imp fun hlt he => by
    rw [he] at hlt
    exact Nat.lt_irrefl _ hlt

theorem length_liveAllocations (hs : h.Sound a) : h.liveAllocations.length = h.liveCount := by
  have h := congrArg List.length (map_address_liveAllocations hs)
  simpa [liveCount] using h

/-- One call adds the grant of the block that it marked and takes away that of the block that it
freed. -/
theorem Step.liveAllocations_perm (hs : h.Sound a) {released : Option Nat}
    {granted : Option (Nat × Block)} (hstep : h.Step a h' a' released granted) :
    h'.liveAllocations.Perm ((granted.map fun x => Allocation.ofBlock x.1 x.2).toList ++
      h.liveAllocations.filter fun g => released ≠ some g.block) := by
  apply (List.perm_ext_iff_of_nodup (nodup_liveAllocations hstep.sound) ?_).mpr
  · intro g
    simp only [List.mem_append, Option.mem_toList, Option.map_eq_some_iff, Prod.exists,
      List.mem_filter, decide_eq_true_eq, mem_liveAllocations hstep.sound, mem_liveAllocations hs,
      hstep.uses_iff]
    constructor
    · rintro ⟨b, hu | ⟨hu, hr⟩, hg⟩
      · exact Or.inl ⟨g.block, b, hu, hg.symm⟩
      · exact Or.inr ⟨⟨b, hu, hg⟩, hr⟩
    · rintro (⟨id, b, hu, rfl⟩ | ⟨⟨b, hu, hg⟩, hr⟩)
      · exact ⟨b, Or.inl hu, rfl⟩
      · exact ⟨b, Or.inr ⟨hu, hr⟩, hg⟩
  · refine List.nodup_append.mpr ⟨?_, (nodup_liveAllocations hs).filter _, ?_⟩
    · cases granted <;> simp
    · intro g hg g' hg' he
      subst he
      obtain ⟨⟨id, b⟩, hgranted, rfl⟩ := Option.map_eq_some_iff.mp (Option.mem_toList.mp hg)
      obtain ⟨hlive, hr⟩ := List.mem_filter.mp hg'
      obtain ⟨c, hc, -⟩ := (mem_liveAllocations hs).mp hlive
      have hne : released ≠ some id := of_decide_eq_true hr
      exact hstep.fresh id b hgranted hne c hc

/-- Taking away the grants of a block takes away the one live grant that it has. -/
theorem filter_perm_erase (hs : h.Sound a) (hg : g ∈ h.liveAllocations) :
    (h.liveAllocations.filter fun x => some g.block ≠ some x.block).Perm
      (h.liveAllocations.erase g) := by
  have hnodup := nodup_liveAllocations hs
  apply (List.perm_ext_iff_of_nodup (hnodup.filter _) (hnodup.erase g)).mpr
  intro x
  rw [List.mem_filter, hnodup.mem_erase_iff]
  constructor
  · rintro ⟨hx, hne⟩
    refine ⟨?_, hx⟩
    rintro rfl
    simp at hne
  · rintro ⟨hne, hx⟩
    refine ⟨hx, ?_⟩
    obtain ⟨b, hb, hgb⟩ := (mem_liveAllocations hs).mp hg
    obtain ⟨c, hc, hxc⟩ := (mem_liveAllocations hs).mp hx
    simp only [ne_eq, Option.some.injEq, decide_not, Bool.not_eq_true', decide_eq_false_iff_not]
    intro he
    rw [← he] at hc hxc
    rw [hb.unique hc] at hgb
    exact hne (hxc.trans hgb.symm)

section Kinds

variable {id : Nat} {b : Block}

theorem Step.perm_kept (hs : h.Sound a) (hstep : h.Step a h' a' none none) :
    h'.liveAllocations.Perm h.liveAllocations := by
  simpa using hstep.liveAllocations_perm hs

theorem Step.perm_granted (hs : h.Sound a) (hstep : h.Step a h' a' none (some (id, b))) :
    h'.liveAllocations.Perm (.ofBlock id b :: h.liveAllocations) := by
  simpa using hstep.liveAllocations_perm hs

theorem Step.perm_released (hs : h.Sound a) (hg : g ∈ h.liveAllocations)
    (hstep : h.Step a h' a' (some g.block) none) :
    h'.liveAllocations.Perm (h.liveAllocations.erase g) :=
  (hstep.liveAllocations_perm hs).trans (filter_perm_erase hs hg)

theorem Step.perm_moved (hs : h.Sound a) (hg : g ∈ h.liveAllocations)
    (hstep : h.Step a h' a' (some g.block) (some (id, b))) :
    h'.liveAllocations.Perm (.ofBlock id b :: h.liveAllocations.erase g) :=
  (hstep.liveAllocations_perm hs).trans ((filter_perm_erase hs hg).cons _)

end Kinds

/-- Live grants at the same address are the same. -/
theorem eq_of_address_eq (hs : h.Sound a) {g' : Allocation} (hg : g ∈ h.liveAllocations)
    (hg' : g' ∈ h.liveAllocations) (he : g.address = g'.address) : g = g' := by
  obtain ⟨b, hb, hgb⟩ := (mem_liveAllocations hs).mp hg
  obtain ⟨c, hc, hgc⟩ := (mem_liveAllocations hs).mp hg'
  have hid : g.block = g'.block := by
    refine hs.id_inj hb hc ?_
    rw [hgb, hgc] at he
    exact Nat.add_right_cancel he
  rw [← hid] at hc hgc
  rw [hgb, hgc, hb.unique hc]

/-- Different live grants lie apart, headers included. -/
theorem apart_of_live (hs : h.Sound a) {g' : Allocation} (hg : g ∈ h.liveAllocations)
    (hg' : g' ∈ h.liveAllocations) (hne : g ≠ g') :
    g.address + g.length + blockHeader ≤ g'.address ∨
      g'.address + g'.length + blockHeader ≤ g.address := by
  obtain ⟨b, hb, he⟩ := (mem_liveAllocations hs).mp hg
  obtain ⟨c, hc, he'⟩ := (mem_liveAllocations hs).mp hg'
  have hids : g.block ≠ g'.block := by
    intro hid
    rw [← hid] at hc he'
    rw [hb.unique hc] at he
    exact hne (he.trans he'.symm)
  have hapart := hs.apart hb hc hids
  have hb' := hs.headed _ _ hb
  have hc' := hs.headed _ _ hc
  rw [he, he']
  simp only [Allocation.ofBlock, Block.fin] at hapart ⊢
  omega

/-- A live grant lies inside memory, behind its header. -/
theorem bounds_of_live (hs : h.Sound a) (hg : g ∈ h.liveAllocations) :
    blockHeader ≤ g.address ∧ g.address + g.length ≤ a.memory.size := by
  obtain ⟨b, hb, he⟩ := (mem_liveAllocations hs).mp hg
  have hbound := hs.bounds hb
  have hsize := hs.headed _ _ hb
  rw [he]
  simp only [Allocation.ofBlock, Block.fin] at hbound ⊢
  omega

theorem foldl_tally (bs : List Block) (s : HeapStats) :
    (bs.foldl tally s).pages = s.pages ∧ (bs.foldl tally s).descriptors = s.descriptors ∧
      (bs.foldl tally s).active = s.active + bs.countP (·.used) ∧
      (bs.foldl tally s).usedBytes + (bs.foldl tally s).freeBytes =
        s.usedBytes + s.freeBytes + (bs.map (·.size)).sum := by
  induction bs generalizing s with
  | nil => simp
  | cons b bs ih =>
    obtain ⟨hp, hd, ha, hb⟩ := ih (tally s b)
    have hstep : (tally s b).pages = s.pages ∧ (tally s b).descriptors = s.descriptors ∧
        (tally s b).active = s.active + (if b.used then 1 else 0) ∧
        (tally s b).usedBytes + (tally s b).freeBytes = s.usedBytes + s.freeBytes + b.size := by
      unfold tally
      split
      · rename_i hole
        simp only [Block.isHole, Bool.and_eq_true, Bool.not_eq_true', beq_iff_eq] at hole
        simp [hole.1, hole.2]
      split
      · refine ⟨rfl, rfl, rfl, ?_⟩
        dsimp only
        omega
      · refine ⟨rfl, rfl, rfl, ?_⟩
        dsimp only
        omega
    simp only [List.foldl_cons, List.countP_cons, List.map_cons, List.sum_cons]
    omega

/-- The live grants are the grants of the used blocks, in whatever order. -/
theorem liveAllocations_perm_used (hs : h.Sound a) : h.liveAllocations.Perm
    ((h.table.blocks.zipIdx.filter (·.1.used)).map fun x => Allocation.ofBlock x.2 x.1) := by
  have hids : (((h.table.blocks.zipIdx.filter (·.1.used)).map
      fun x => Allocation.ofBlock x.2 x.1).map (·.block)).Nodup := by
    have hsub := (List.filter_sublist (p := (·.1.used)) (l := h.table.blocks.zipIdx)).map (·.2)
    rw [List.zipIdx_map_snd] at hsub
    rw [List.map_map]
    exact hsub.nodup List.nodup_range'
  apply (List.perm_ext_iff_of_nodup (nodup_liveAllocations hs) hids.of_map).mpr
  intro g
  simp only [mem_liveAllocations hs, List.mem_map, List.mem_filter, Prod.exists,
    List.mk_mem_zipIdx_iff_getElem?]
  constructor
  · rintro ⟨b, hb, hg⟩
    exact ⟨b, g.block, hb, hg.symm⟩
  · rintro ⟨b, id, hb, rfl⟩
    exact ⟨b, hb, rfl⟩

/-- As many blocks are used as grants are live. -/
theorem countP_used (hs : h.Sound a) : h.table.blocks.countP (·.used) = h.liveCount := by
  have hlength := (liveAllocations_perm_used hs).length_eq
  rw [length_liveAllocations hs, List.length_map] at hlength
  rw [hlength, ← List.countP_eq_length_filter]
  conv_lhs => rw [← List.zipIdx_map_fst 0 h.table.blocks, List.countP_map]
  rfl

theorem usedBytes_tally (bs : List Block) (s : HeapStats) :
    (bs.foldl tally s).usedBytes = s.usedBytes + ((bs.filter (·.used)).map (·.size)).sum := by
  induction bs generalizing s with
  | nil => rfl
  | cons b bs ih =>
    rw [List.foldl_cons, ih]
    cases hb : b.used with
    | false =>
      rw [List.filter_cons_of_neg (by simp [hb])]
      congr 1
      unfold tally
      split
      · rfl
      · rw [if_neg (by simp [hb])]
    | true =>
      have htally : tally s b = { s with
          active := s.active + 1, usedBytes := s.usedBytes + b.size } := by
        simp [tally, Block.isHole, hb]
      rw [List.filter_cons_of_pos hb, htally, List.map_cons, List.sum_cons, Nat.add_assoc]

/-- The used bytes are those of the live grants with their headers. -/
theorem stats_usedBytes (hs : h.Sound a) : h.stats.usedBytes =
    (h.liveAllocations.map fun g => g.length + blockHeader).sum := by
  have hused : h.stats.usedBytes = ((h.table.blocks.filter (·.used)).map (·.size)).sum := by
    have htally := usedBytes_tally h.table.blocks
      { pages := h.pagesAcquired, descriptors := h.table.size }
    rwa [Nat.zero_add] at htally
  have hsizes : (h.table.blocks.filter (·.used)).map (·.size) =
      (h.table.blocks.zipIdx.filter (·.1.used)).map (·.1.size) := by
    conv_lhs => rw [← List.zipIdx_map_fst 0 h.table.blocks, List.filter_map, List.map_map]
    rfl
  rw [hused, hsizes, ((liveAllocations_perm_used hs).map _).sum_eq, List.map_map]
  congr 1
  refine List.map_congr_left fun x hx => ?_
  obtain ⟨hmem, hu⟩ := List.mem_filter.mp hx
  exact (Nat.sub_add_cancel (hs.headed x.2 x.1 ⟨List.mk_mem_zipIdx_iff_getElem?.mp hmem, hu⟩)).symm

theorem stats_active (hs : h.Sound a) : h.stats.active = h.liveCount := by
  have hcount := (foldl_tally h.table.blocks
    { pages := h.pagesAcquired, descriptors := h.table.size }).2.2.1
  rw [Nat.zero_add, countP_used hs] at hcount
  exact hcount

/-- The used and free bytes are all that lies behind the heap base. -/
theorem stats_bytes (ht : h.Tiled a) : h.stats.usedBytes + h.stats.freeBytes =
    if h.regions = [] then 0 else a.memory.size - a.heapBase := by
  have hsum : h.stats.usedBytes + h.stats.freeBytes = (h.table.blocks.map (·.size)).sum := by
    have htally := (foldl_tally h.table.blocks
      { pages := h.pagesAcquired, descriptors := h.table.size }).2.2.2
    rw [Nat.zero_add, Nat.zero_add] at htally
    exact htally
  rw [hsum]
  split
  · rename_i hr
    simp [ht.unacquired hr]
  · rename_i hr
    have htiles := (ht.tiles hr).hi_eq
    rw [sum_size_sized] at htiles
    omega

theorem stats_pages (h : Heap) : h.stats.pages = h.pagesAcquired :=
  (foldl_tally h.table.blocks _).1

theorem stats_descriptors (h : Heap) : h.stats.descriptors = h.table.size :=
  (foldl_tally h.table.blocks _).2.1

end Heap
end GuestLibrary
