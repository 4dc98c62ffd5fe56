import GuestLibrary.Proofs.Heap.Handles

/-! What a resize does to the contents of a grant. The old block is free while its replacement is
searched for, so the new block may cover it, in whole or in part, or be the old bytes under another
id; but a search changes no byte, so the contents are still there when they are copied, and the
header is stamped in front of the copy. -/
namespace GuestLibrary

namespace Heap

variable {h h' : Heap} {a a' : Arena} {g r : Allocation} {old : Block}

/-- The first bytes of a grant arrive in the block that it is moved to. -/
theorem get?_resizeLive (hs : h.Sound a) {current : Allocation}
    (hold : h.table.Uses current.block old) (ha : current.address = old.start + blockHeader)
    {size : Nat}
    (hok : h.resizeLive a current old size (size + blockHeader) = (.ok r, h', a')) {i : Nat}
    (hi : i < min (old.size - blockHeader) size) :
    a'.memory.get? (r.address + i) = a.memory.get? (current.address + i) := by
  rcases searchReplacement_cases (hs.setUsed_false current.block) current.block
    (Nat.le_add_left blockHeader size) with
    ⟨grant, window, h₁, a₁, b, he, hp⟩ | ⟨h₁, a₁, he, -⟩
  · obtain ⟨event, hmoved⟩ := resizeLive_of_placed old he hp.uses size
    obtain ⟨hr, hrest⟩ := Prod.mk.inj (hmoved.symm.trans hok)
    obtain ⟨-, rfl⟩ := Prod.mk.inj hrest
    obtain rfl := Except.ok.inj hr
    have hfrom := hs.bounds hold
    have hto := hp.tiled.bounds hp.uses
    have hgrown := hp.changed.size_le
    have hsize := hp.need_le
    have hlength := length_headerBytes grant.id
    simp only [Block.fin] at hfrom hto
    dsimp only [Allocation.ofBlock]
    rw [Arena.memory_write, LinearMemory.get?_write_of_outside (by omega), Arena.memory_copyWithin,
      LinearMemory.get?_copyWithin (by omega) (by omega) hi]
    exact hp.changed.get?_eq _ (by omega) (Or.inr (Nat.zero_le _))
  · unfold resizeLive at hok
    dsimp only at hok
    rw [he] at hok
    cases hok

/-- The first bytes of a grant are the first bytes of what a resize makes of it. -/
theorem get?_resize_of_live (hs : h.Sound a) (hg : g ∈ h.liveAllocations) {size : Nat}
    (hok : h.resize a g size = (.ok r, h', a')) {i : Nat} (hi : i < min g.length size) :
    a'.memory.get? (r.address + i) = a.memory.get? (g.address + i) := by
  obtain ⟨old, hold, hgold⟩ := (mem_liveAllocations hs).mp hg
  have haddress : g.address = old.start + blockHeader := by rw [hgold]; rfl
  have hlength : g.length = old.size - blockHeader := by rw [hgold]; rfl
  unfold resize at hok
  rw [(validate_eq_ok_iff .realloc g hs).mpr ⟨hold, haddress⟩] at hok
  dsimp only at hok
  split at hok
  · cases hok
  split at hok
  · obtain ⟨hr, hrest⟩ := Prod.mk.inj hok
    obtain ⟨-, rfl⟩ := Prod.mk.inj hrest
    obtain rfl := Except.ok.inj hr
    rfl
  · exact get?_resizeLive hs hold haddress hok (hlength ▸ hi)

/-- A resize puts the new grant in the place of the old one among the live grants. -/
theorem resize_perm_of_live (hs : h.Sound a) (hg : g ∈ h.liveAllocations) {size : Nat}
    (hok : h.resize a g size = (.ok r, h', a')) :
    h'.Sound a' ∧ size ≤ r.length ∧
      h'.liveAllocations.Perm (r :: h.liveAllocations.erase g) := by
  rcases resize_cases hs g size with
    ⟨old, id, b, h₁, a₁, -, -, he, hle, hstep⟩ | ⟨old, h₁, hold, -, he, hle, hstep⟩ |
    ⟨e, h₁, a₁, he, -, -⟩
  · obtain ⟨hr, hrest⟩ := Prod.mk.inj (he.symm.trans hok)
    obtain ⟨rfl, rfl⟩ := Prod.mk.inj hrest
    obtain rfl := Except.ok.inj hr
    exact ⟨hstep.sound, Nat.le_sub_of_add_le hle, hstep.perm_moved hs hg⟩
  · obtain ⟨hr, hrest⟩ := Prod.mk.inj (he.symm.trans hok)
    obtain ⟨rfl, rfl⟩ := Prod.mk.inj hrest
    obtain rfl := Except.ok.inj hr
    obtain ⟨b, hb, hgb⟩ := (mem_liveAllocations hs).mp hg
    refine ⟨hstep.sound, ?_, (hstep.perm_kept hs).trans (List.perm_cons_erase hg)⟩
    rw [hgb, hb.unique hold]
    exact Nat.le_sub_of_add_le hle
  · cases he.symm.trans hok

variable {limits : HeapLimits} {writable : Heap → Nat → Nat → Prop}

/-- A resize of a live grant that succeeds returns a live grant of at least the size asked for. Its
first bytes are those that the old grant had, as many as both hold. As many grants are live as
before: the new one has taken the place of the old one, whose address is no longer live unless the
new one has it, and all others are listed as they were. -/
theorem resize_moves_content (hr : Reachable limits writable h a) (hg : g ∈ h.liveAllocations)
    {size : Nat} (hok : h.reallocate a (some g) size = (.ok r, h', a')) :
    r ∈ h'.liveAllocations ∧ size ≤ r.length ∧
    (a'.memory.read r.address (min g.length size) = a.memory.read g.address (min g.length size) ∧
      (a'.memory.read r.address (min g.length size)).length = min g.length size) ∧
    h'.liveCount = h.liveCount ∧
    (r.address ≠ g.address → ∀ x ∈ h'.liveAllocations, x.address ≠ g.address) ∧
    (∀ x ∈ h.liveAllocations, x ≠ g → x ∈ h'.liveAllocations) ∧
    ∀ x ∈ h'.liveAllocations, x ≠ r → x ∈ h.liveAllocations := by
  have hs := hr.sound.1
  obtain ⟨hs', hsize, hperm⟩ := resize_perm_of_live hs hg hok
  have hlive : r ∈ h'.liveAllocations := hperm.mem_iff.mpr (List.mem_cons_self ..)
  have hmem : ∀ x, x ∈ h'.liveAllocations ↔ x = r ∨ x ≠ g ∧ x ∈ h.liveAllocations := fun x => by
    rw [hperm.mem_iff, List.mem_cons, (nodup_liveAllocations hs).mem_erase_iff]
  have hfrom := (bounds_of_live hs hg).2
  have hto := (bounds_of_live hs' hlive).2
  have hread : (a'.memory.read r.address (min g.length size)).length = min g.length size :=
    LinearMemory.length_read (by omega)
  refine ⟨hlive, hsize, ⟨?_, hread⟩, ?_, fun hne x hx hxg => ?_, fun x hx hne => ?_,
    fun x hx hne => ?_⟩
  · apply List.ext_getElem?
    intro i
    by_cases hi : i < min g.length size
    · rw [LinearMemory.getElem?_read (by omega) hi, LinearMemory.getElem?_read (by omega) hi]
      exact get?_resize_of_live hs hg hok hi
    · rw [List.getElem?_eq_none (by omega), List.getElem?_eq_none (by
        rw [LinearMemory.length_read (by omega)]; omega)]
  · have hcount := hperm.length_eq
    rw [List.length_cons, List.length_erase_of_mem hg, length_liveAllocations hs,
      length_liveAllocations hs'] at hcount
    have hpos : 0 < h.liveAllocations.length := List.length_pos_of_mem hg
    rw [length_liveAllocations hs] at hpos
    omega
  · rcases (hmem x).mp hx with rfl | ⟨hxne, hx⟩
    · exact hne hxg
    · exact hxne (eq_of_address_eq hs hx hg hxg)
  · exact (hmem x).mpr (Or.inr ⟨hne, hx⟩)
  · exact (((hmem x).mp hx).resolve_left hne).2

/-- The first grant of a heap of one page and four blocks. -/
theorem allocate_quarterPage (hbase : a.heapBase = 0) (hsize : a.memory.size = 65536) :
    ((ofLimits ⟨1, 4⟩).perform a (.allocate 10)).2.1.live = [(4, 0)] ∧
    ((ofLimits ⟨1, 4⟩).perform a (.allocate 10)).2.1.table.blocks =
      [⟨0, 16384, 0, true⟩, ⟨16384, 16384, 0, false⟩, ⟨32768, 16384, 0, false⟩,
        ⟨49152, 16384, 0, false⟩] := by
  obtain ⟨h, a', he, hlive, -, hblocks⟩ := perform_quarterPage hbase hsize
  rw [he]
  exact ⟨hlive, hblocks⟩

/-- The second grant, right behind the first. -/
theorem allocate_secondQuarter (hlive : h.live = [(4, 0)])
    (hblocks : h.table.blocks = [⟨0, 16384, 0, true⟩, ⟨16384, 16384, 0, false⟩,
      ⟨32768, 16384, 0, false⟩, ⟨49152, 16384, 0, false⟩]) :
    (h.perform a (.allocate 10)).2.1.live = [(4, 0), (16388, 1)] ∧
    (h.perform a (.allocate 10)).2.1.table.blocks =
      [⟨0, 16384, 0, true⟩, ⟨16384, 16384, 0, true⟩, ⟨32768, 16384, 0, false⟩,
        ⟨49152, 16384, 0, false⟩] := by
  simp [perform, allocate, allocateFor, blockHeader, wordLimit, searchGrowing, BlockTable.find?,
    BlockTable.size, BlockTable.firstFit?, BlockTable.grantFrom?, BlockTable.gather?,
    BlockTable.divide, Block.isHole, record, commit?, BlockTable.get?, hblocks, hlive,
    LiveGrants.insert]

/-- With its neighbour taken, the first grant moves up into the last two blocks. -/
theorem resize_quarterPage
    (hblocks : h.table.blocks = [⟨0, 16384, 0, true⟩, ⟨16384, 16384, 0, true⟩,
      ⟨32768, 16384, 0, false⟩, ⟨49152, 16384, 0, false⟩]) :
    (h.resize a ⟨0, 4, 16380⟩ 20000).1 = .ok ⟨2, 32772, 20000⟩ := by
  have hfirst : BlockTable.firstFit? 20004 4 0 none [⟨0, 16384, 0, false⟩, ⟨16384, 16384, 0, true⟩,
      ⟨32768, 16384, 0, false⟩, ⟨49152, 16384, 0, false⟩] = some ⟨⟨2, 1, .after⟩,
        [⟨0, 16384, 0, false⟩, ⟨16384, 16384, 0, true⟩, ⟨32768, 20004, 0, true⟩,
          ⟨52772, 12764, 0, false⟩], [0], some 0⟩ := rfl
  have hfind : ∃ table, (h.table.setUsed 0 false).find? 0 (h.table.setUsed 0 false).size 20004 =
      some (⟨2, 1, .after⟩, table) ∧ table.get? 2 = some ⟨32768, 20004, 0, true⟩ := by
    simp [BlockTable.find?, BlockTable.setUsed, BlockTable.size, BlockTable.get?, hblocks, hfirst]
  obtain ⟨table, hfind, hget⟩ := hfind
  have hfound : searchReplacement { h with table := h.table.setUsed 0 false } a 0 20004 =
      (some (⟨2, 1, .after⟩, .forward), { h with table }, a) := by
    unfold searchReplacement
    dsimp only
    rw [hfind]
  have hvalid : h.validate .realloc ⟨0, 4, 16380⟩ = .ok ⟨0, 16384, 0, true⟩ := by
    simp [validate, BlockTable.get?, hblocks, blockHeader]
  obtain ⟨event, hmoved⟩ := @resizeLive_of_placed _ _ _ _ _ _ ⟨0, 4, 16380⟩ _ _
    ⟨0, 16384, 0, true⟩ hfound ⟨hget, rfl⟩ 20000
  have hneed : 20000 + blockHeader = 20004 := rfl
  unfold resize
  rw [hvalid]
  dsimp only
  rw [hneed, if_neg (by decide), if_neg (by decide), hmoved]
  rfl

/-- A grant that moves past its neighbour takes along the text that was written to it. -/
theorem resize_moves_content_up : ∃ h a h' a', Reachable ⟨1, 4⟩ (fun _ _ _ => True) h a ∧
    a.memory.read 4 5 = [104, 101, 108, 108, 111] ∧
    h.reallocate a (some ⟨0, 4, 16380⟩) 20000 = (.ok ⟨2, 32772, 20000⟩, h', a') ∧
    h'.liveCount = 2 ∧ a'.memory.read 32772 5 = [104, 101, 108, 108, 111] := by
  have hstart : Reachable ⟨1, 4⟩ (fun _ _ _ => True) (.ofLimits ⟨1, 4⟩) (.ofBase 0 1) :=
    .fresh (.ofBase 0 1)
  have hr := (((hstart.call (.allocate 10)).call (.allocate 10)).write 4 [104, 101, 108, 108, 111]
    trivial)
  obtain ⟨hlive, hblocks⟩ := allocate_quarterPage (a := .ofBase 0 1) rfl size_onePage
  generalize (Heap.ofLimits ⟨1, 4⟩).perform (.ofBase 0 1) (.allocate 10) = first at *
  obtain ⟨hlive', hblocks'⟩ := allocate_secondQuarter (a := first.2.2) hlive hblocks
  generalize first.2.1.perform first.2.2 (.allocate 10) = second at *
  have hresize := resize_quarterPage (a := second.2.2.write 4 [104, 101, 108, 108, 111]) hblocks'
  generalize hmoved : second.2.1.resize (second.2.2.write 4 [104, 101, 108, 108, 111])
    ⟨0, 4, 16380⟩ 20000 = moved at *
  obtain ⟨result, h', a'⟩ := moved
  obtain rfl : result = _ := hresize
  have hg : ⟨0, 4, 16380⟩ ∈ second.2.1.liveAllocations := by
    simp [liveAllocations, hlive', handle?, BlockTable.get?, hblocks', blockHeader]
  obtain ⟨-, -, ⟨hread, -⟩, hcount, -⟩ := resize_moves_content hr hg hmoved
  have hroom := (bounds_of_live hr.sound.1 hg).2
  rw [Arena.memory_write, LinearMemory.size_write] at hroom
  have htext : (second.2.2.write 4 [104, 101, 108, 108, 111]).memory.read 4 5 =
      [104, 101, 108, 108, 111] := by
    rw [Arena.memory_write]
    exact LinearMemory.read_write_self (Nat.le_trans (by decide) hroom)
  have hfront := congrArg (List.take 5) hread
  rw [LinearMemory.take_read, LinearMemory.take_read] at hfront
  refine ⟨_, _, h', a', hr, htext, hmoved, hcount.trans ?_, hfront.trans htext⟩
  rw [liveCount, hlive']
  rfl

end Heap
end GuestLibrary
