import GuestLibrary.Proofs.Heap.Reachable

/-! Grants keep their bytes. A call writes only inside the block that it grants, which is apart from
every block that stays used, so neither contents nor headers of other grants change. -/
namespace GuestLibrary

/-- The number whose digits to base 256 are the bytes, least significant first. -/
def littleEndian (bytes : Bytes) : Nat := bytes.foldr (fun b n => b.toNat + 256 * n) 0

namespace Heap

variable {h h' : Heap} {a a' : Arena} {id : Nat} {b : Block}

/-- A header holds its block id, as far as four bytes can. -/
theorem littleEndian_headerBytes (id : Nat) : littleEndian (headerBytes id) = id % halfLimit := by
  have hdigits : littleEndian (headerBytes id) = id % 256 + 256 * (id / 256 % 256 +
      256 * (id / 65536 % 256 + 256 * (id / 16777216 % 256))) := by
    simp [littleEndian, headerBytes, UInt8.toNat_ofNat']
  rw [hdigits, halfLimit, Nat.pow_eq]
  omega

/-- The headers of the used blocks hold their ids. -/
def Stamped (h : Heap) (a : Arena) : Prop :=
  ∀ id b, h.table.Uses id b → a.memory.read b.start blockHeader = headerBytes id

/-- Some live grant holds all of the bytes. -/
def InsideGrant (h : Heap) (address n : Nat) : Prop :=
  ∃ g ∈ h.liveAllocations, g.address ≤ address ∧ address + n ≤ g.address + g.length

/-- A call leaves the bytes of a block as they were unless it moves the grant of that block. -/
theorem Step.get?_eq (hs : h.Sound a) {released : Option Nat} {granted : Option (Nat × Block)}
    (hstep : h.Step a h' a' released granted) (hb : h.table.Uses id b)
    (hkept : released = some id → granted = none) {i : Nat} (hlo : b.start ≤ i) (hhi : i < b.fin) :
    a'.memory.get? i = a.memory.get? i := by
  have hbound := hs.bounds hb
  apply hstep.changed.get?_eq i (by omega)
  cases granted with
  | none => exact Or.inr (Nat.zero_le i)
  | some x =>
    obtain ⟨j, c⟩ := x
    have hne : released ≠ some id := fun hr => by cases hkept hr
    have hb' : h'.table.Uses id b := (hstep.uses_iff id b).mpr (Or.inr ⟨hb, hne⟩)
    have hc : h'.table.Uses j c := (hstep.uses_iff j c).mpr (Or.inl rfl)
    have hij : id ≠ j := by
      rintro rfl
      exact hstep.fresh id c rfl hne b hb
    have hapart := hstep.sound.apart hb' hc hij
    dsimp only [Option.elim]
    omega

/-- The same for the bytes of a live grant. -/
theorem Step.get?_eq_of_live (hs : h.Sound a) {released : Option Nat}
    {granted : Option (Nat × Block)} (hstep : h.Step a h' a' released granted) {g : Allocation}
    (hg : g ∈ h.liveAllocations) (hkept : released = some g.block → granted = none) {i : Nat}
    (hlo : g.address ≤ i) (hhi : i < g.address + g.length) :
    a'.memory.get? i = a.memory.get? i := by
  obtain ⟨b, hb, he⟩ := (mem_liveAllocations hs).mp hg
  have hsize := hs.headed _ _ hb
  have haddress : g.address = b.start + blockHeader := by rw [he]; rfl
  have hlength : g.length = b.size - blockHeader := by rw [he]; rfl
  exact hstep.get?_eq hs hb hkept (by omega) (by simp only [Block.fin]; omega)

theorem Step.stamped_of (hs : h.Sound a) {released : Option Nat} {granted : Option (Nat × Block)}
    (hstep : h.Step a h' a' released granted) (hstamped : h.Stamped a) : h'.Stamped a' := by
  intro id b hb
  rcases (hstep.uses_iff id b).mp hb with hg | ⟨hu, hr⟩
  · exact hstep.stamped id b hg
  · rw [← hstamped id b hu]
    have hsize := hs.headed id b hu
    refine LinearMemory.read_congr fun i hlo hhi => ?_
    exact hstep.get?_eq hs hu (fun he => absurd he hr) hlo (by simp only [Block.fin]; omega)

/-- Writing inside a live grant changes no header. -/
theorem Stamped.write (hs : h.Sound a) (hstamped : h.Stamped a) {address : Nat} {block : Bytes}
    (hinside : h.InsideGrant address block.length) : h.Stamped (a.write address block) := by
  obtain ⟨g, hg, hlo, hhi⟩ := hinside
  obtain ⟨c, hc, he⟩ := (mem_liveAllocations hs).mp hg
  rw [he] at hlo hhi
  have hc' := hs.headed _ _ hc
  intro id b hb
  have hb' := hs.headed _ _ hb
  rw [← hstamped id b hb]
  refine LinearMemory.read_congr fun i hi hlt => LinearMemory.get?_write_of_outside ?_
  simp only [Allocation.ofBlock] at hlo hhi
  by_cases hid : id = g.block
  · subst hid
    rw [hb.unique hc] at hi hlt
    omega
  · have hapart := hs.apart hb hc hid
    simp only [Block.fin] at hapart
    omega

/-- Headers hold along every run whose writes stay inside live grants. -/
theorem Reachable.stamped {limits : HeapLimits} (hr : Reachable limits InsideGrant h a) :
    h.Stamped a := by
  induction hr with
  | fresh ha =>
    intro id b hb
    simp [ofLimits, BlockTable.Uses, BlockTable.get?] at hb
  | call r hr ih =>
    obtain ⟨released, granted, hstep, -⟩ := perform_step hr.sound.1 r
    exact hstep.stamped_of hr.sound.1 ih
  | write address block hr hinside ih => exact ih.write hr.sound.1 hinside

theorem header_of_live (hs : h.Sound a) (hstamped : h.Stamped a) {g : Allocation}
    (hg : g ∈ h.liveAllocations) :
    a.memory.read (g.address - blockHeader) blockHeader = headerBytes g.block := by
  obtain ⟨b, hb, he⟩ := (mem_liveAllocations hs).mp hg
  rw [← hstamped g.block b hb, he]
  rfl

/-- Block ids stay below the ceiling on blocks. -/
theorem block_lt_of_live (hs : h.Sound a) {g : Allocation} (hg : g ∈ h.liveAllocations) :
    g.block < h.limits.maxPages * h.limits.blocksPerPage := by
  obtain ⟨b, hb, -⟩ := (mem_liveAllocations hs).mp hg
  have hid : g.block < h.table.size := (List.getElem?_eq_some_iff.mp hb.1).1
  have hsize := hs.size_le
  rw [hs.capacity_eq] at hsize
  exact Nat.lt_of_lt_of_le hid (hsize.trans h.limits.maxBlocks_le)

/-- A call leaves the bytes of a live grant as they were unless it resizes that grant. -/
theorem get?_perform_of_live (hs : h.Sound a) (r : Request) {g : Allocation}
    (hg : g ∈ h.liveAllocations) (hres : ¬ r.Resizes g) {i : Nat} (hlo : g.address ≤ i)
    (hhi : i < g.address + g.length) :
    (h.perform a r).2.2.memory.get? i = a.memory.get? i := by
  obtain ⟨b, hb, he⟩ := (mem_liveAllocations hs).mp hg
  obtain ⟨released, granted, hstep, hmoved⟩ := perform_step hs r
  refine hstep.get?_eq_of_live hs hg (fun hreleased => ?_) hlo hhi
  by_contra hne
  obtain ⟨x, hgranted⟩ := Option.ne_none_iff_exists'.mp hne
  obtain ⟨current, size, old, hreq, hblock, hold, hcurrent⟩ := hmoved _ x hreleased hgranted
  refine hres ⟨current, size, hreq, hblock, ?_⟩
  rw [hcurrent, hold.unique hb, he]
  rfl

/-- What a zeroed allocation returns reads as zero. -/
theorem get?_allocateZeroed (hs : h.Sound a) {count size : Nat} {g : Allocation}
    (hok : (h.allocateZeroed a count size).1 = .ok g) {i : Nat} (hlo : g.address ≤ i)
    (hhi : i < g.address + g.length) :
    (h.allocateZeroed a count size).2.2.memory.get? i = some 0 := by
  rcases allocateZeroed_cases hs count size with
    ⟨id, b, h', a', he, -, hstep, hzero⟩ | ⟨e, h', a', he, -, -⟩
  · rw [he] at hok ⊢
    obtain rfl := Except.ok.inj hok
    have hu := (hstep.uses_iff id b).mpr (Or.inl rfl)
    have hbound := hstep.sound.bounds hu
    have hsize := hstep.sound.headed id b hu
    simp only [Allocation.ofBlock, Block.fin] at hlo hhi hbound ⊢
    have hbyte : (a'.memory.read (b.start + blockHeader) (b.size - blockHeader))[
        i - (b.start + blockHeader)]? =
          a'.memory.get? (b.start + blockHeader + (i - (b.start + blockHeader))) :=
      LinearMemory.getElem?_read (by omega) (by omega)
    rw [hzero, List.getElem?_replicate_of_lt (by omega)] at hbyte
    rw [hbyte]
    congr 1
    omega
  · rw [he] at hok
    cases hok

/-- As long as the program writes only inside its live grants, the header of every live grant holds
the low 32 bits of its block id, which are all of it under ceilings that need no more, and a call
leaves the bytes of every live grant as they were, except of one that it resizes. What a zeroed
allocation returns is zero. -/
theorem live_grants_isolated {limits : HeapLimits} (hr : Reachable limits InsideGrant h a) :
    (∀ g ∈ h.liveAllocations,
      (a.memory.read (g.address - blockHeader) blockHeader).length = blockHeader ∧
      littleEndian (a.memory.read (g.address - blockHeader) blockHeader) = g.block % halfLimit ∧
      (limits.maxPages * limits.blocksPerPage ≤ halfLimit → g.block < halfLimit)) ∧
    ∀ r, (∀ g ∈ h.liveAllocations, ¬ r.Resizes g →
        ∀ i, g.address ≤ i → i < g.address + g.length →
          (h.perform a r).2.2.memory.get? i = a.memory.get? i) ∧
      ∀ count size g, r = .allocateZeroed count size → (h.perform a r).1 = .ok (some g) →
        ∀ i, g.address ≤ i → i < g.address + g.length →
          (h.perform a r).2.2.memory.get? i = some 0 := by
  obtain ⟨hs, hlimits⟩ := hr.sound
  refine ⟨fun g hg => ?_, fun r => ⟨fun g hg hres i hlo hhi => ?_, ?_⟩⟩
  · rw [header_of_live hs hr.stamped hg, littleEndian_headerBytes, ← hlimits]
    exact ⟨rfl, rfl, fun hle => Nat.lt_of_lt_of_le (block_lt_of_live hs hg) hle⟩
  · exact get?_perform_of_live hs r hg hres hlo hhi
  · rintro count size g rfl hok i hlo hhi
    dsimp only [perform] at hok ⊢
    cases hres : (h.allocateZeroed a count size).1 with
    | error e =>
      rw [hres] at hok
      cases hok
    | ok g' =>
      rw [hres] at hok
      obtain rfl := Option.some.inj (Except.ok.inj hok)
      exact get?_allocateZeroed hs hres hlo hhi

/-- Of two grants the second holds a byte that was written to it, which a resize of the first leaves
alone; its header holds its block id. -/
theorem live_grants_isolated_onePage : ∃ h a, Reachable ⟨1, 4⟩ InsideGrant h a ∧
    h.liveAllocations = [⟨0, 4, 16380⟩, ⟨1, 16388, 32764⟩] ∧ a.memory.get? 49151 = some 106 ∧
    littleEndian (a.memory.read 16384 blockHeader) = 1 ∧
    (h.perform a (.reallocate (some ⟨0, 4, 16380⟩) 16381)).2.2.memory.get? 49151 = some 106 := by
  obtain ⟨h, a, hr, hlive, -, hblocks⟩ := reachable_twoGrants InsideGrant
  have hgrants := liveAllocations_twoGrants hlive hblocks
  have hmem : ⟨1, 16388, 32764⟩ ∈ h.liveAllocations := by simp [hgrants]
  have hwritten := hr.write 49151 [106] ⟨_, hmem, by decide, by decide⟩
  obtain ⟨hheaders, hkept⟩ := live_grants_isolated hwritten
  have hsize : 49152 ≤ a.memory.size := (bounds_of_live hr.sound.1 hmem).2
  have hbyte : (a.write 49151 [106]).memory.get? 49151 = some 106 := LinearMemory.get?_write hsize _
  refine ⟨h, _, hwritten, hgrants, hbyte, (hheaders _ hmem).2.1, ?_⟩
  rw [← hbyte]
  refine (hkept (.reallocate (some ⟨0, 4, 16380⟩) 16381)).1 _ hmem ?_ 49151 (by decide) (by decide)
  rintro ⟨current, size, hresizes, hblock, -⟩
  cases hresizes
  cases hblock

end Heap
end GuestLibrary
