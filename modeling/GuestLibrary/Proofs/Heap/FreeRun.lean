import GuestLibrary.Proofs.Heap.Growth

/-! When a search succeeds. Free blocks are never joined ahead of time, yet a search of the whole
table misses no run of free bytes: it reaches the first block of the run, and the blocks behind that
one come in the order of their addresses, so they can be absorbed one after the other. -/
namespace GuestLibrary

/-- Blocks of a tiling that follow one another from its start on are the first ones of it. -/
theorem Tiles.isPrefix_of_subset {lo hi last : Nat} {bs run : List Block} (ht : Tiles lo bs hi)
    (hpos : ∀ b ∈ bs, 0 < b.size) (hr : Tiles lo run last) (hsub : ∀ b ∈ run, b ∈ bs) :
    run <+: bs := by
  induction run generalizing lo bs with
  | nil => exact List.nil_prefix
  | cons c run ih =>
    have hc : c ∈ bs := hsub c List.mem_cons_self
    cases bs with
    | nil => cases hc
    | cons d bs =>
      have hd : 0 < d.size := hpos d List.mem_cons_self
      have hdfin : d.fin = d.start + d.size := rfl
      -- a block with the start of the first one is the first one
      have hcd : c = d := by
        rcases List.mem_cons.mp hc with he | hmem
        · exact he
        · have hb := (ht.2.bounds hmem).1
          have hcs := hr.1
          have hds := ht.1
          omega
      subst hcd
      have hrest : ∀ b ∈ run, b ∈ bs := by
        intro b hb
        have hstart := (hr.2.bounds hb).1
        rcases List.mem_cons.mp (hsub b (List.mem_cons_of_mem _ hb)) with he | hmem
        · rw [he] at hstart
          omega
        · exact hmem
      have hprefix := ih ht.2 (fun b hb => hpos b (List.mem_cons_of_mem _ hb)) hr.2 hrest
      exact List.cons_prefix_cons.mpr ⟨rfl, hprefix⟩

theorem mem_sized {b : Block} {bs : List Block} : b ∈ sized bs ↔ b ∈ bs ∧ 0 < b.size := by
  simp [sized]

/-- The tiling goes on behind a block. -/
theorem Tiles.behind {lo hi : Nat} {before rest : List Block} {b : Block}
    (ht : Tiles lo (sized (before ++ b :: rest)) hi) (hpos : 0 < b.size) :
    Tiles b.fin (sized rest) hi := by
  rw [sized_append, sized_cons_of_pos hpos, tiles_append] at ht
  obtain ⟨mid, -, hb⟩ := ht
  exact hb.2

/-- What starts behind a block comes after it in the table. -/
theorem Tiles.mem_behind {lo hi : Nat} {before rest : List Block} {b c : Block}
    (ht : Tiles lo (sized (before ++ b :: rest)) hi) (hpos : 0 < b.size)
    (hc : c ∈ sized (before ++ b :: rest)) (hstart : b.fin ≤ c.start) : c ∈ sized rest := by
  have hcpos := (mem_sized.mp hc).2
  have hbfin : b.fin = b.start + b.size := rfl
  have hcfin : c.fin = c.start + c.size := rfl
  rw [sized_append, sized_cons_of_pos hpos] at ht hc
  rcases List.mem_append.mp hc with hbefore | hmem
  · have horder := (List.pairwise_append.mp ht.pairwise).2.2 c hbefore b List.mem_cons_self
    omega
  · rcases List.mem_cons.mp hmem with rfl | hrest
    · omega
    · exact hrest

namespace BlockTable

/-- Free blocks that follow one another in memory, in whatever order the table lists them, have
`need` bytes together. -/
def HasFreeRun (t : BlockTable) (need : Nat) : Prop :=
  ∃ run lo hi, (∀ b ∈ run, b ∈ t.blocks ∧ b.used = false ∧ 0 < b.size) ∧ Tiles lo run hi ∧
    need ≤ (run.map (·.size)).sum

/-- A run is gathered when the free blocks in front suffice. -/
theorem gather?_isSome_iff {need total fin hi : Nat} {rest : List Block}
    (ht : Tiles fin (sized rest) hi) (hu : ∀ b ∈ rest, b.used = true → 0 < b.size) :
    (gather? need total fin rest).isSome ↔ ∃ run, run <+: sized rest ∧
      (∀ b ∈ run, b.used = false) ∧ need ≤ total + (run.map (·.size)).sum := by
  induction rest generalizing total fin with
  | nil => simp [gather?]
  | cons b rest ih =>
    have hurest : ∀ c ∈ rest, c.used = true → 0 < c.size :=
      fun c hc => hu c (List.mem_cons_of_mem _ hc)
    by_cases hn : need ≤ total
    · have hnow : gather? need total fin (b :: rest) = some ⟨total, b :: rest, []⟩ := by
        simp [gather?, hn]
      rw [hnow]
      exact iff_of_true rfl ⟨[], List.nil_prefix, by simp, by simpa using hn⟩
    by_cases hz : b.size = 0
    · -- a hole is skipped, and it is not among the blocks of the tiling
      have hb : b.used = false := by
        by_contra hused
        have := hu b List.mem_cons_self (by simpa using hused)
        omega
      rw [sized_cons_of_eq_zero hz] at ht ⊢
      rw [← ih ht hurest]
      simp [gather?, hn, hb, hz]
    · rw [sized_cons_of_pos (by omega)] at ht ⊢
      have hrest := @ih (total + b.size) b.fin ht.2 hurest
      by_cases hb : b.used = true
      · have hnone : gather? need total fin (b :: rest) = none := by simp [gather?, hn, hb]
        rw [hnone]
        refine iff_of_false (by simp) ?_
        rintro ⟨run, hprefix, hfree, hsum⟩
        cases run with
        | nil => exact hn (by simpa using hsum)
        | cons c run =>
          have hcb : c = b := (List.cons_prefix_cons.mp hprefix).1
          have hc := hfree c List.mem_cons_self
          rw [hcb, hb] at hc
          cases hc
      · have hstep : (gather? need total fin (b :: rest)).isSome =
            (gather? need (total + b.size) b.fin rest).isSome := by
          simp [gather?, hn, hb, hz, ht.1]
        rw [hstep, hrest]
        constructor
        · rintro ⟨run, hprefix, hfree, hsum⟩
          refine ⟨b :: run, List.cons_prefix_cons.mpr ⟨rfl, hprefix⟩, ?_, ?_⟩
          · simpa using ⟨by simpa using hb, hfree⟩
          · rw [List.map_cons, List.sum_cons]
            omega
        · rintro ⟨run, hprefix, hfree, hsum⟩
          cases run with
          | nil => exact absurd (by simpa using hsum) hn
          | cons c run =>
            obtain ⟨rfl, htail⟩ := List.cons_prefix_cons.mp hprefix
            refine ⟨run, htail, fun d hd => hfree d (List.mem_cons_of_mem _ hd), ?_⟩
            rw [List.map_cons, List.sum_cons] at hsum
            omega

/-- First fit passes over a block only where no run starts at it. -/
theorem firstFit?_isSome_iff {need window id : Nat} {previous : Option Block} {bs : List Block}
    (hw : bs.length ≤ window) :
    (firstFit? need window id previous bs).isSome ↔ ∃ before b rest, bs = before ++ b :: rest ∧
      b.used = false ∧ 0 < b.size ∧ (gather? need b.size b.fin rest).isSome := by
  induction bs generalizing window id previous with
  | nil => cases window <;> simp [firstFit?]
  | cons b bs ih =>
    cases window with
    | zero => simp at hw
    | succ window =>
      rw [List.length_cons] at hw
      have hlater := @ih window (id + 1) (some b) (by omega)
      have hhere : (grantFrom? need id previous b bs).isSome ↔
          b.used = false ∧ 0 < b.size ∧ (gather? need b.size b.fin bs).isSome := by
        cases hb : b.used <;> by_cases hz : b.size = 0 <;>
          simp [grantFrom?, hb, hz, Nat.pos_iff_ne_zero]
      have hsplit : (firstFit? need (window + 1) id previous (b :: bs)).isSome ↔
          (grantFrom? need id previous b bs).isSome ∨
            (firstFit? need window (id + 1) (some b) bs).isSome := by
        rw [firstFit?]
        cases grantFrom? need id previous b bs <;> simp
      rw [hsplit, hhere, hlater]
      constructor
      · rintro (hfound | ⟨before, c, rest, rfl, hfound⟩)
        · exact ⟨[], b, bs, rfl, hfound⟩
        · exact ⟨b :: before, c, rest, rfl, hfound⟩
      · rintro ⟨before, c, rest, he, hfound⟩
        cases before with
        | nil =>
          obtain ⟨rfl, rfl⟩ := List.cons.inj he
          exact Or.inl hfound
        | cons d before =>
          obtain ⟨-, rfl⟩ := List.cons.inj he
          exact Or.inr ⟨before, c, rest, rfl, hfound⟩

/-- A search of a table whose blocks tile memory grants exactly what some free run has. -/
theorem find?_isSome_iff {t : BlockTable} {lo hi need : Nat} (ht : Tiles lo (sized t.blocks) hi)
    (hu : ∀ b ∈ t.blocks, b.used = true → 0 < b.size) (hn : 0 < need) :
    (t.find? 0 t.size need).isSome ↔ t.HasFreeRun need := by
  have hfind : (t.find? 0 t.size need).isSome ↔ ∃ before b rest, t.blocks = before ++ b :: rest ∧
      b.used = false ∧ 0 < b.size ∧ (gather? need b.size b.fin rest).isSome := by
    rw [← @firstFit?_isSome_iff need t.size 0 none t.blocks (Nat.le_refl _)]
    simp [find?]
  rw [hfind]
  constructor
  · rintro ⟨before, b, rest, he, hfree, hpos, hsome⟩
    rw [he] at ht hu
    have hused : ∀ c ∈ rest, c.used = true → 0 < c.size := fun c hc => hu c (by simp [hc])
    obtain ⟨run, ⟨after, hrun⟩, hrunfree, hsum⟩ :=
      (gather?_isSome_iff (ht.behind hpos) hused).mp hsome
    have htiles := ht.behind hpos
    rw [← hrun] at htiles
    obtain ⟨last, hlast, -⟩ := tiles_append.mp htiles
    refine ⟨b :: run, b.start, last, ?_, ⟨rfl, hlast⟩, by simpa using hsum⟩
    intro c hc
    rcases List.mem_cons.mp hc with rfl | hc
    · exact ⟨by simp [he], hfree, hpos⟩
    · have hmem : c ∈ sized rest := by
        rw [← hrun]
        exact List.mem_append_left _ hc
      obtain ⟨hcrest, hcpos⟩ := mem_sized.mp hmem
      exact ⟨by simp [he, hcrest], hrunfree c hc, hcpos⟩
  · rintro ⟨run, start, last, hmem, hrun, hsum⟩
    cases run with
    | nil => simp at hsum; omega
    | cons b run =>
      obtain ⟨hb, hfree, hpos⟩ := hmem b List.mem_cons_self
      obtain ⟨before, rest, he⟩ := List.append_of_mem hb
      rw [he] at ht hu hmem
      have hused : ∀ c ∈ rest, c.used = true → 0 < c.size := fun c hc => hu c (by simp [hc])
      -- the rest of the run is in front of all that is behind its first block
      have hprefix : run <+: sized rest := by
        refine (ht.behind hpos).isPrefix_of_subset (fun c hc => (mem_sized.mp hc).2) hrun.2
          fun c hc => ?_
        obtain ⟨hctable, -, hcpos⟩ := hmem c (List.mem_cons_of_mem _ hc)
        exact ht.mem_behind hpos (mem_sized.mpr ⟨hctable, hcpos⟩) (hrun.2.bounds hc).1
      refine ⟨before, b, rest, he, hfree, hpos, (gather?_isSome_iff (ht.behind hpos) hused).mpr ?_⟩
      exact ⟨run, hprefix, fun c hc => (hmem c (List.mem_cons_of_mem _ hc)).2.1,
        by simpa using hsum⟩

/-- A table without blocks has no free run. -/
theorem not_hasFreeRun_of_nil {capacity need : Nat} (hn : 0 < need) :
    ¬ HasFreeRun { capacity } need := by
  rintro ⟨run, lo, hi, hmem, -, hsum⟩
  cases run with
  | nil => exact absurd hn (Nat.not_lt.mpr hsum)
  | cons b run => cases (hmem b List.mem_cons_self).1

end BlockTable

namespace Heap

variable {h h' : Heap} {a a' : Arena} {need : Nat}

theorem Tiled.used_pos (ht : h.Tiled a) : ∀ b ∈ h.table.blocks, b.used = true → 0 < b.size := by
  intro b hb hu
  obtain ⟨id, hid⟩ := List.mem_iff_getElem?.mp hb
  exact Nat.lt_of_lt_of_le (by decide) (ht.headed id b ⟨hid, hu⟩)

theorem Tiled.exists_tiles (ht : h.Tiled a) : ∃ lo hi, Tiles lo (sized h.table.blocks) hi := by
  by_cases hr : h.regions = []
  · rw [ht.unacquired hr]
    exact ⟨0, 0, rfl⟩
  · exact ⟨_, _, ht.tiles hr⟩

/-- The heap finds what it has. -/
theorem Tiled.find?_isSome_iff (ht : h.Tiled a) (hn : 0 < need) :
    (h.table.find? 0 h.table.size need).isSome ↔ h.table.HasFreeRun need := by
  obtain ⟨lo, hi, htiles⟩ := ht.exists_tiles
  exact BlockTable.find?_isSome_iff htiles ht.used_pos hn

/-- A free run lies in memory behind the heap base. -/
theorem Tiled.need_le_of_hasFreeRun (ht : h.Tiled a) (hn : blockHeader ≤ need)
    (hrun : h.table.HasFreeRun need) : need ≤ a.memory.size - a.heapBase := by
  have hsome := (ht.find?_isSome_iff (Nat.lt_of_lt_of_le (by decide) hn)).mpr hrun
  obtain ⟨⟨grant, table⟩, hfound⟩ := Option.isSome_iff_exists.mp hsome
  obtain ⟨b, hplaced⟩ := placed_of_find? ht hn hfound
  have hbounds := hplaced.tiled.bounds hplaced.uses
  have hfin : b.fin = b.start + b.size := rfl
  have hle := hplaced.need_le
  omega

/-- A region that follows brings the bytes it was acquired for. -/
theorem Follows.hasFreeRun {region : Region} {ids : Nat × Nat} {table : BlockTable}
    (hf : h.Follows a need region a')
    (happ : h.table.appendRegion? region.start region.len h.limits.blockSize =
      some (ids, table)) : table.HasFreeRun need := by
  obtain ⟨hblocks, -, -⟩ := BlockTable.appendRegion?_eq_some happ
  have htiles := BlockTable.tiles_cut_region region.start region.len h.limits.blockSize_pos
  have hlength := htiles.hi_eq
  have hle := hf.need_le
  refine ⟨_, _, _, fun b hb => ?_, htiles, by omega⟩
  obtain ⟨hmem, hpos⟩ := mem_sized.mp hb
  obtain ⟨i, -, rfl⟩ := List.mem_map.mp hmem
  rw [hblocks]
  exact ⟨List.mem_append_right _ hmem, rfl, hpos⟩

/-- Where every block is free, all of memory behind the heap base is one free run. -/
theorem Sound.hasFreeRun_of_released (hs : h.Sound a) (hr : h.regions ≠ []) (hlive : h.live = [])
    (hn : need ≤ a.memory.size - a.heapBase) : h.table.HasFreeRun need := by
  have htiles := hs.tiles hr
  have hlength := htiles.hi_eq
  refine ⟨_, _, _, fun b hb => ?_, htiles, by omega⟩
  obtain ⟨hmem, hpos⟩ := mem_sized.mp hb
  refine ⟨hmem, ?_, hpos⟩
  by_contra hused
  obtain ⟨id, hid⟩ := List.mem_iff_getElem?.mp hmem
  have hlisted := (hs.lists.mem_iff (b.start + blockHeader) id).mpr
    ⟨b, ⟨hid, by simpa using hused⟩, rfl⟩
  rw [hlive] at hlisted
  cases hlisted

end Heap
end GuestLibrary
