import GuestLibrary.Proofs.Heap.FirstFit
import GuestLibrary.Proofs.Heap.Handles

/-! Releasing a grant and allocating no more than it had. The used bytes do not grow by that, except
where the search meets a free block in front of the released one that it grants whole although it
is larger than what was asked for: first fit prefers it, and with no hole beside it there is no
place for its remainder. -/
namespace GuestLibrary
namespace Heap

variable {h h' : Heap} {a a' : Arena} {g : Allocation} {call : HeapCall} {id size : Nat} {b : Block}

theorem Step.usedBytes_released (hs : h.Sound a) (hg : g ∈ h.liveAllocations)
    (hstep : h.Step a h' a' (some g.block) none) :
    h'.stats.usedBytes + (g.length + blockHeader) = h.stats.usedBytes := by
  have hsum := ((List.perm_cons_erase hg).map fun g => g.length + blockHeader).sum_eq
  rw [List.map_cons, List.sum_cons] at hsum
  rw [stats_usedBytes hstep.sound, hstep.liveAllocations_erase hs hg, stats_usedBytes hs, hsum]
  omega

theorem Step.usedBytes_granted (hs : h.Sound a) (hstep : h.Step a h' a' none (some (id, b))) :
    h'.stats.usedBytes = h.stats.usedBytes +
      ((Allocation.ofBlock id b).length + blockHeader) := by
  rw [stats_usedBytes hstep.sound, stats_usedBytes hs,
    ((hstep.perm_granted hs).map fun g => g.length + blockHeader).sum_eq, List.map_cons,
    List.sum_cons, Nat.add_comm]

theorem usedBytes_allocateFor (hs : h.Sound a) (hok : (h.allocateFor a call size).1 = .ok g) :
    (h.allocateFor a call size).2.1.stats.usedBytes =
      h.stats.usedBytes + (g.length + blockHeader) := by
  rcases allocateFor_cases hs call size with
    ⟨id, b, h', a', he, -, hstep⟩ | ⟨e, h', a', he, -, -⟩
  · rw [he] at hok ⊢
    obtain rfl := Except.ok.inj hok
    exact hstep.usedBytes_granted hs
  · rw [he] at hok
    cases hok

/-- Releasing a live grant marks its block free. -/
theorem release_of_live (hs : h.Sound a) (hg : g ∈ h.liveAllocations) :
    ∃ h', h.release g = (.ok (), h') ∧ h'.table = h.table.setUsed g.block false ∧
      h.Step a h' a (some g.block) none := by
  obtain ⟨b, hb, hgb⟩ := (mem_liveAllocations hs).mp hg
  have haddress : g.address = b.start + blockHeader := by rw [hgb]; rfl
  have hv := (validate_eq_ok_iff .free g hs).mpr ⟨hb, haddress⟩
  rcases release_cases hs g with ⟨c, h', -, -, he, hstep⟩ | ⟨d, h', hnot, -, -⟩
  · refine ⟨h', he, ?_, hstep⟩
    unfold release at he
    rw [hv] at he
    obtain ⟨-, rfl⟩ := Prod.mk.inj he
    rfl
  · exact absurd haddress (hnot b hb)

/-- An allocation that the table can serve is the block that a search of the table grants. -/
theorem allocateFor_of_find? {grant : Grant} {table : BlockTable}
    (hf : h.table.find? 0 h.table.size (size + blockHeader) = some (grant, table))
    (hok : (h.allocateFor a call size).1 = .ok g) :
    ∃ b, table.get? grant.id = some b ∧ g = .ofBlock grant.id b := by
  unfold allocateFor at hok
  dsimp only at hok
  split at hok
  · cases hok
  unfold searchGrowing commit? at hok
  rw [hf] at hok
  dsimp only at hok
  cases hb : table.get? grant.id with
  | none =>
    rw [hb] at hok
    cases hok
  | some b =>
    rw [hb] at hok
    exact ⟨b, rfl, (Except.ok.inj hok).symm⟩

/-- What is not to be divided after a block was freed was not to be divided before, unless it is
that block. -/
theorem indivisible_of_setUsed {t : BlockTable} {need i : Nat} {c : Block} (hc : t.Uses i c)
    (hb : (t.setUsed i false).Indivisible need id b) (hid : id ≠ i) : t.Indivisible need id b where
  get?_eq := by simpa [BlockTable.get?_setUsed, hid] using hb.get?_eq
  free := hb.free
  need_lt := hb.need_lt
  no_hole j d hj hd := by
    by_cases hji : j = i
    · subst hji
      obtain rfl : c = d := Option.some.inj (hc.1.symm.trans hd)
      simp [Block.isHole, hc.2]
    · exact hb.no_hole j d hj (by simpa [BlockTable.get?_setUsed, hji] using hd)

/-- The block of a grant that was released is found for anything that fits into it. -/
theorem find?_of_freed (hs : h.Sound a) {c : Block} (hc : h.table.get? id = some c)
    (hfree : c.used = false) (hn : size + blockHeader ≤ c.size) :
    ∃ grant table, h.table.find? 0 h.table.size (size + blockHeader) = some (grant, table) ∧
      grant.id ≤ id := by
  have hpos : 0 < size + blockHeader := Nat.lt_of_lt_of_le (by decide) (Nat.le_add_left _ size)
  have hrun : h.table.HasFreeRun (size + blockHeader) := by
    refine ⟨[c], c.start, c.fin, ?_, ⟨rfl, rfl⟩, by simpa using hn⟩
    rintro x hx
    obtain rfl := List.mem_singleton.mp hx
    exact ⟨List.mem_of_getElem? hc, hfree, Nat.lt_of_lt_of_le hpos hn⟩
  obtain ⟨⟨grant, table⟩, hf⟩ :=
    Option.isSome_iff_exists.mp ((hs.find?_isSome_iff hpos).mpr hrun)
  exact ⟨grant, table, hf, BlockTable.find?_id_le hf hc hfree (Nat.lt_of_lt_of_le hpos hn) hn
    (Nat.zero_le id)⟩

/-- After a block was freed, what is granted in no more bytes than it had is no larger than it, or
is a block in front of it that was not to be divided before either. -/
theorem granted_of_freed (hs : h.Sound a) (hs' : h'.Sound a) (hb : h.table.Uses id b)
    (htable : h'.table = h.table.setUsed id false) (hsize : size + blockHeader ≤ b.size)
    (hok : (h'.allocateFor a call size).1 = .ok g) :
    g.length + blockHeader ≤ b.size ∨
      ∃ c, h.table.Indivisible (size + blockHeader) g.block c ∧ g = .ofBlock g.block c ∧
        c.fin ≤ b.start := by
  have hhead := hs.headed _ _ hb
  have hfreed : h'.table.get? id = some { b with used := false } := by
    rw [htable, BlockTable.get?_setUsed, if_pos rfl, hb.1]
    rfl
  obtain ⟨grant, table, hf, hid⟩ := find?_of_freed hs' hfreed rfl hsize
  obtain ⟨c, hc, rfl⟩ := allocateFor_of_find? hf hok
  obtain ⟨c', hc', hgranted⟩ := BlockTable.find?_granted hf
  obtain rfl : c' = c := Option.some.inj (hc'.symm.trans hc)
  rcases hgranted with hexact | ⟨d, hd, rfl⟩
  · left
    have hlength : (Allocation.ofBlock grant.id c').length = c'.size - blockHeader := rfl
    omega
  by_cases hsame : grant.id = id
  · -- the freed block itself was granted again
    left
    rw [hsame] at hd ⊢
    obtain rfl := Option.some.inj (hd.get?_eq.symm.trans hfreed)
    exact Nat.le_of_eq (Nat.sub_add_cancel hhead)
  · right
    rw [htable] at hd
    have hd' := indivisible_of_setUsed hb hd hsame
    have hpos : 0 < d.size := Nat.lt_of_le_of_lt (Nat.zero_le _) hd'.need_lt
    have hpos' : 0 < b.size := Nat.lt_of_lt_of_le (by decide) hhead
    exact ⟨d, hd', rfl, apart_of_tiles (hs.tiles (hs.regions_ne_nil hb)) hd'.get?_eq hb.1 hpos hpos'
      (Nat.lt_of_le_of_ne hid hsame)⟩

variable {limits : HeapLimits} {writable : Heap → Nat → Nat → Prop}

/-- A live grant has at least the bytes that it was obtained for. When it is released and no more
than that is allocated again, the used bytes change by the difference of the two blocks. They do not
grow, unless the new grant is a whole free block in front of the old one, larger than what was asked
for and without a hole beside it. -/
theorem recycled_bytes (hr : Reachable limits writable h a) (hg : g ∈ h.liveAllocations) {m : Nat}
    (hm : m ≤ g.length) {g' : Allocation} (hok : ((h.release g).2.allocate a m).1 = .ok g') :
    ((h.release g).2.allocate a m).2.1.stats.usedBytes + (g.length + blockHeader) =
      h.stats.usedBytes + (g'.length + blockHeader) ∧
    (((h.release g).2.allocate a m).2.1.stats.usedBytes ≤ h.stats.usedBytes ∨
      ∃ b, h.table.Indivisible (m + blockHeader) g'.block b ∧ g' = .ofBlock g'.block b ∧
        b.fin + blockHeader ≤ g.address) := by
  have hs := hr.sound.1
  obtain ⟨b, hb, hgb⟩ := (mem_liveAllocations hs).mp hg
  have hlength : g.length + blockHeader = b.size := by
    rw [hgb]
    exact Nat.sub_add_cancel (hs.headed _ _ hb)
  obtain ⟨h₁, he, htable, hstep⟩ := release_of_live hs hg
  rw [he] at hok ⊢
  dsimp only at hok ⊢
  have hreleased := hstep.usedBytes_released hs hg
  have hgranted : (h₁.allocate a m).2.1.stats.usedBytes =
      h₁.stats.usedBytes + (g'.length + blockHeader) := usedBytes_allocateFor hstep.sound hok
  refine ⟨by omega, ?_⟩
  rcases granted_of_freed hs hstep.sound hb htable (by omega) hok with hle | ⟨c, hc, hgc, hfront⟩
  · left
    omega
  · right
    refine ⟨c, hc, hgc, ?_⟩
    rw [hgb]
    exact Nat.add_le_add_right hfront blockHeader

/-- Two grants fill a heap of one page and two blocks, and the first one is released. -/
theorem front_released : ∃ h₁ a₁ h₂ a₂ h₃ a₃,
    (Heap.ofLimits ⟨1, 2⟩).perform (.ofBase 0 1) (.allocate 65518) =
      (.ok (some ⟨0, 4, 65518⟩), h₁, a₁) ∧
    h₁.perform a₁ (.allocate 10) = (.ok (some ⟨1, 65526, 10⟩), h₂, a₂) ∧
    h₂.perform a₂ (.release ⟨0, 4, 65518⟩) = (.ok none, h₃, a₃) ∧
    h₃.live = [(65526, 1)] ∧
    h₃.table.blocks = [⟨0, 65522, 0, false⟩, ⟨65522, 14, 0, true⟩] := by
  have hfirst : ∀ a : Arena, a.heapBase = 0 → a.memory.size = 65536 → ∃ h a',
      (Heap.ofLimits ⟨1, 2⟩).perform a (.allocate 65518) = (.ok (some ⟨0, 4, 65518⟩), h, a') ∧
      h.live = [(4, 0)] ∧ h.table.blocks = [⟨0, 65522, 0, true⟩, ⟨65522, 14, 0, false⟩] := by
    intro a hbase hsize
    obtain ⟨h, a', he, hlive, -, hblocks⟩ := @allocate_first a ⟨1, 2⟩ 65518
      ⟨⟨0, 1, .after⟩, [⟨0, 65522, 0, true⟩, ⟨65522, 14, 0, false⟩], [0], some 0⟩
      ⟨0, 65522, 0, true⟩ hbase hsize (by decide) (by decide) (by decide) rfl rfl
    exact ⟨h, a', perform_allocate he, hlive, hblocks⟩
  have hsecond : ∀ (h : Heap) (a : Arena), h.live = [(4, 0)] →
      h.table.blocks = [⟨0, 65522, 0, true⟩, ⟨65522, 14, 0, false⟩] → ∃ h' a',
      h.perform a (.allocate 10) = (.ok (some ⟨1, 65526, 10⟩), h', a') ∧
      h'.live = [(4, 0), (65526, 1)] ∧
      h'.table.blocks = [⟨0, 65522, 0, true⟩, ⟨65522, 14, 0, true⟩] := by
    intro h a hlive hblocks
    simp [perform, allocate, allocateFor, wordLimit, searchGrowing, BlockTable.size,
      BlockTable.find?, BlockTable.firstFit?, hblocks, record, BlockTable.grantFrom?,
      BlockTable.gather?, BlockTable.divide, commit?, BlockTable.get?, blockHeader, hlive,
      LiveGrants.insert, Except.map]
  have hthird : ∀ (h : Heap) (a : Arena), h.live = [(4, 0), (65526, 1)] →
      h.table.blocks = [⟨0, 65522, 0, true⟩, ⟨65522, 14, 0, true⟩] → ∃ h' a',
      h.perform a (.release ⟨0, 4, 65518⟩) = (.ok none, h', a') ∧ h'.live = [(65526, 1)] ∧
      h'.table.blocks = [⟨0, 65522, 0, false⟩, ⟨65522, 14, 0, true⟩] := by
    intro h a hlive hblocks
    simp [perform, release, validate, BlockTable.get?, hblocks, blockHeader, record, hlive,
      LiveGrants.erase, BlockTable.setUsed, Except.map]
  obtain ⟨h₁, a₁, he₁, hlive₁, hblocks₁⟩ := hfirst (.ofBase 0 1) rfl size_onePage
  obtain ⟨h₂, a₂, he₂, hlive₂, hblocks₂⟩ := hsecond h₁ a₁ hlive₁ hblocks₁
  obtain ⟨h₃, a₃, he₃, hlive₃, hblocks₃⟩ := hthird h₂ a₂ hlive₂ hblocks₂
  exact ⟨h₁, a₁, h₂, a₂, h₃, a₃, he₁, he₂, he₃, hlive₃, hblocks₃⟩

/-- The second grant is then released and obtained again, from the large block in front. -/
theorem recycle_front (hlive : h.live = [(65526, 1)])
    (hblocks : h.table.blocks = [⟨0, 65522, 0, false⟩, ⟨65522, 14, 0, true⟩]) :
    h.stats.usedBytes = 14 ∧ h.liveAllocations = [⟨1, 65526, 10⟩] ∧
    ((h.release ⟨1, 65526, 10⟩).2.allocate a 10).1 = .ok ⟨0, 4, 65518⟩ ∧
    ((h.release ⟨1, 65526, 10⟩).2.allocate a 10).2.1.stats.usedBytes = 65522 := by
  refine ⟨?_, ?_, ?_, ?_⟩
  · simp [stats, hblocks, tally, Block.isHole]
  · simp [liveAllocations, hlive, handle?, BlockTable.get?, hblocks, blockHeader]
  all_goals
    simp [release, validate, BlockTable.get?, hblocks, blockHeader, record, hlive,
      LiveGrants.erase, BlockTable.setUsed, allocate, allocateFor, wordLimit, searchGrowing,
      BlockTable.size, BlockTable.find?, BlockTable.firstFit?, BlockTable.grantFrom?,
      BlockTable.gather?, BlockTable.divide, Block.isHole, commit?, stats, tally]

theorem recycled_bytes_front : ∃ h a, Reachable ⟨1, 2⟩ (fun _ _ _ => True) h a ∧
    ⟨1, 65526, 10⟩ ∈ h.liveAllocations ∧
    ((h.release ⟨1, 65526, 10⟩).2.allocate a 10).1 = .ok ⟨0, 4, 65518⟩ ∧
    ((h.release ⟨1, 65526, 10⟩).2.allocate a 10).2.1.stats.usedBytes + 14 =
      h.stats.usedBytes + 65522 := by
  obtain ⟨h₁, a₁, h₂, a₂, h₃, a₃, he₁, he₂, he₃, hlive, hblocks⟩ := front_released
  have hstart : Reachable ⟨1, 2⟩ (fun _ _ _ => True) (.ofLimits ⟨1, 2⟩) (.ofBase 0 1) :=
    .fresh (.ofBase 0 1)
  have hr₁ := hstart.call (.allocate 65518)
  rw [he₁] at hr₁
  have hr₂ := hr₁.call (.allocate 10)
  rw [he₂] at hr₂
  have hr₃ := hr₂.call (.release ⟨0, 4, 65518⟩)
  rw [he₃] at hr₃
  obtain ⟨-, hgrants, hok, -⟩ := recycle_front (a := a₃) hlive hblocks
  have hg : ⟨1, 65526, 10⟩ ∈ h₃.liveAllocations := by
    rw [hgrants]
    exact List.mem_singleton.mpr rfl
  exact ⟨h₃, a₃, hr₃, hg, hok, (recycled_bytes hr₃ hg (Nat.le_refl 10) hok).1⟩

/-- The ten bytes of the second grant cost 65522 bytes when they are obtained again. -/
theorem recycling_grows : ∃ h₁ a₁ h₂ a₂ h₃ a₃,
    (Heap.ofLimits ⟨1, 2⟩).perform (.ofBase 0 1) (.allocate 65518) =
      (.ok (some ⟨0, 4, 65518⟩), h₁, a₁) ∧
    h₁.perform a₁ (.allocate 10) = (.ok (some ⟨1, 65526, 10⟩), h₂, a₂) ∧
    h₂.perform a₂ (.release ⟨0, 4, 65518⟩) = (.ok none, h₃, a₃) ∧
    ⟨1, 65526, 10⟩ ∈ h₃.liveAllocations ∧
    ((h₃.release ⟨1, 65526, 10⟩).2.allocate a₃ 10).1 = .ok ⟨0, 4, 65518⟩ ∧
    h₃.stats.usedBytes + 10 <
      ((h₃.release ⟨1, 65526, 10⟩).2.allocate a₃ 10).2.1.stats.usedBytes := by
  obtain ⟨h₁, a₁, h₂, a₂, h₃, a₃, he₁, he₂, he₃, hlive, hblocks⟩ := front_released
  obtain ⟨hused, hgrants, hok, hused'⟩ := recycle_front (a := a₃) hlive hblocks
  refine ⟨h₁, a₁, h₂, a₂, h₃, a₃, he₁, he₂, he₃, ?_, hok, ?_⟩
  · rw [hgrants]
    exact List.mem_singleton.mpr rfl
  · rw [hused, hused']
    decide

end Heap
end GuestLibrary
