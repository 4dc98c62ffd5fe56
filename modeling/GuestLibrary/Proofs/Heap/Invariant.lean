import GuestLibrary.Proofs.Heap.LiveGrants
import GuestLibrary.Proofs.Heap.Search
import GuestLibrary.Proofs.Memory

/-! The invariant of a heap: its blocks tile the memory behind the heap base, and its live map lists
exactly the used ones. A search changes the table and not the map, so the part of the invariant
that concerns the table alone is kept apart. -/
namespace GuestLibrary

namespace BlockTable

/-- The block of an id is used. -/
def Uses (t : BlockTable) (id : Nat) (b : Block) : Prop := t.get? id = some b ∧ b.used = true

variable {t t' : BlockTable} {id i : Nat} {b c : Block}

theorem Uses.unique (h : t.Uses id b) (h' : t.Uses id c) : b = c :=
  Option.some.inj (h.1.symm.trans h'.1)

@[simp] theorem size_setUsed (used : Bool) : (t.setUsed id used).size = t.size :=
  List.length_modify ..

@[simp] theorem capacity_setUsed (used : Bool) : (t.setUsed id used).capacity = t.capacity := rfl

theorem get?_setUsed (used : Bool) :
    (t.setUsed id used).get? i =
      if i = id then (t.get? i).map ({ · with used }) else t.get? i := by
  simp only [get?, setUsed, List.getElem?_modify, eq_comm (a := id)]
  split <;> cases t.blocks[i]? <;> rfl

theorem uses_setUsed_false : (t.setUsed id false).Uses i c ↔ i ≠ id ∧ t.Uses i c := by
  simp only [Uses, get?_setUsed]
  by_cases hi : i = id
  · subst hi
    rw [if_pos rfl]
    cases h : t.get? i with
    | none => simp
    | some b =>
      simp only [Option.map_some, Option.some.injEq, ne_eq, not_true_eq_false, false_and, iff_false,
        not_and]
      rintro rfl
      simp
  · simp [hi]

/-- A block that was freed is as it was once it is marked again, if only free blocks were added
meanwhile. -/
theorem get?_restore (hb : t.Uses id b)
    (hk : ∀ j c, (t.setUsed id false).get? j = some c → t'.get? j = some c) (i : Nat) :
    (t'.setUsed id true).get? i = if i = id then some b else t'.get? i := by
  have hid : t'.get? id = some { b with used := false } := by
    refine hk id _ ?_
    simp [get?_setUsed, hb.1]
  have hrestored : { b with used := true } = b := by rw [← hb.2]
  rw [get?_setUsed]
  split
  · rename_i hi
    rw [hi, hid, Option.map_some, hrestored]
  · rfl

theorem tiles_modify (f : Block → Block) (hf : ∀ b, (f b).start = b.start ∧ (f b).size = b.size)
    {lo hi : Nat} {bs : List Block} (h : Tiles lo (sized bs) hi) (id : Nat) :
    Tiles lo (sized (bs.modify id f)) hi := by
  induction bs generalizing lo id with
  | nil => simpa using h
  | cons b bs ih =>
    have hfin : (f b).fin = b.fin := by simp only [Block.fin, hf]
    cases id with
    | zero =>
      rw [List.modify_zero_cons]
      rcases Nat.eq_zero_or_pos b.size with hz | hz
      · rw [sized_cons_of_eq_zero hz] at h
        rwa [sized_cons_of_eq_zero ((hf b).2.trans hz)]
      · rw [sized_cons_of_pos hz] at h
        rw [sized_cons_of_pos (by rwa [(hf b).2])]
        exact ⟨(hf b).1.trans h.1, hfin ▸ h.2⟩
    | succ id =>
      rw [List.modify_succ_cons]
      rcases Nat.eq_zero_or_pos b.size with hz | hz
      · rw [sized_cons_of_eq_zero hz] at h ⊢
        exact ih h id
      · rw [sized_cons_of_pos hz] at h ⊢
        exact ⟨h.1, ih h.2 id⟩

theorem tiles_setUsed {lo hi : Nat} (h : Tiles lo (sized t.blocks) hi) (id : Nat) (used : Bool) :
    Tiles lo (sized (t.setUsed id used).blocks) hi :=
  tiles_modify ({ · with used }) (fun _ => ⟨rfl, rfl⟩) h id

theorem within_setUsed {hi : Nat} (h : Within hi t.blocks) (id : Nat) (used : Bool) :
    Within hi (t.setUsed id used).blocks := by
  intro b hb
  obtain ⟨i, hi⟩ := List.mem_iff_getElem?.mp hb
  have hget : (t.setUsed id used).get? i = _ := get?_setUsed used
  rw [get?, hi] at hget
  split at hget
  · obtain ⟨c, hc, rfl⟩ := Option.map_eq_some_iff.mp hget.symm
    exact h c (List.mem_of_getElem? hc)
  · exact h b (List.mem_of_getElem? hget.symm)

/-- A search that grants makes one block used that was not, and leaves the other used ones. -/
theorem uses_of_find? {first last need : Nat} {grant : Grant} (hn : 0 < need)
    (h : t.find? first last need = some (grant, t')) :
    (∃ g, t'.Uses grant.id g ∧ need ≤ g.size) ∧ (∀ c, ¬ t.Uses grant.id c) ∧
      ∀ i ≠ grant.id, ∀ c, t'.Uses i c ↔ t.Uses i c := by
  have hg := (find?_eq_some hn h).grants
  refine ⟨?_, ?_, ?_⟩
  · obtain ⟨g, hget, hu, hle⟩ := hg.granted
    exact ⟨g, ⟨hget, hu⟩, hle⟩
  · intro c hc
    have := hg.fresh hc.1
    rw [hc.2] at this
    cases this
  · intro i hi c
    constructor
    · exact fun hc => ⟨(hg.kept hi hc.2).mp hc.1, hc.2⟩
    · exact fun hc => ⟨(hg.kept hi hc.2).mpr hc.1, hc.2⟩

end BlockTable

/-- The grant that the block of an id makes. -/
def Allocation.ofBlock (id : Nat) (b : Block) : Allocation :=
  ⟨id, b.start + blockHeader, b.size - blockHeader⟩

/-- A live map lists exactly the used blocks of a table, each at its usable address. -/
structure LiveGrants.Lists (live : LiveGrants) (t : BlockTable) : Prop where
  ordered : Ordered live
  mem_iff : ∀ address id, (address, id) ∈ live ↔
    ∃ b, t.Uses id b ∧ address = b.start + blockHeader

namespace Heap

/-- The part of the invariant that concerns the table and the regions. -/
structure Tiled (h : Heap) (a : Arena) : Prop where
  based : a.heapBase < a.memory.size
  capacity_eq : h.table.capacity = h.limits.maxBlocks
  size_le : h.table.size ≤ h.table.capacity
  pages_le : h.pagesAcquired ≤ h.limits.maxPages
  unacquired : h.regions = [] → h.table.blocks = []
  tiles : h.regions ≠ [] → Tiles a.heapBase (sized h.table.blocks) a.memory.size
  headed : ∀ id b, h.table.Uses id b → blockHeader ≤ b.size
  pages_mapped : h.pagesAcquired * pageSize ≤ a.memory.size + pageSize
  blocks_mapped : h.table.size ≤ a.memory.size

/-- The invariant of a heap. -/
structure Sound (h : Heap) (a : Arena) : Prop extends h.Tiled a where
  lists : h.live.Lists h.table

variable {h h' : Heap} {a a' : Arena} {id : Nat} {b c : Block}

theorem sound_ofLimits (limits : HeapLimits) (ha : a.heapBase < a.memory.size) :
    (ofLimits limits).Sound a where
  based := ha
  capacity_eq := rfl
  size_le := Nat.zero_le _
  pages_le := Nat.zero_le _
  unacquired _ := rfl
  tiles hr := absurd rfl hr
  headed id b hb := by simp [ofLimits, BlockTable.Uses, BlockTable.get?] at hb
  pages_mapped := by simp [ofLimits, pagesAcquired]
  blocks_mapped := Nat.zero_le _
  lists := ⟨List.Pairwise.nil, by simp [ofLimits, BlockTable.Uses, BlockTable.get?]⟩

namespace Tiled

theorem regions_ne_nil (ht : h.Tiled a) (hb : h.table.Uses id b) : h.regions ≠ [] := by
  intro hr
  have := hb.1
  rw [BlockTable.get?, ht.unacquired hr] at this
  cases this

/-- A used block lies between the heap base and the end of memory. -/
theorem bounds (ht : h.Tiled a) (hb : h.table.Uses id b) :
    a.heapBase ≤ b.start ∧ b.fin ≤ a.memory.size := by
  have hs := ht.headed id b hb
  refine bounds_of_tiles (ht.tiles (ht.regions_ne_nil hb)) (List.mem_of_getElem? hb.1) ?_
  exact Nat.lt_of_lt_of_le (by decide) hs

/-- Used blocks do not overlap. -/
theorem apart (ht : h.Tiled a) {i j : Nat} (hb : h.table.Uses i b) (hc : h.table.Uses j c)
    (hij : i ≠ j) : b.fin ≤ c.start ∨ c.fin ≤ b.start := by
  have htiles := ht.tiles (ht.regions_ne_nil hb)
  have hb' : 0 < b.size := Nat.lt_of_lt_of_le (by decide) (ht.headed i b hb)
  have hc' : 0 < c.size := Nat.lt_of_lt_of_le (by decide) (ht.headed j c hc)
  rcases Nat.lt_or_gt_of_ne hij with hlt | hlt
  · exact Or.inl (apart_of_tiles htiles hb.1 hc.1 hb' hc' hlt)
  · exact Or.inr (apart_of_tiles htiles hc.1 hb.1 hc' hb' hlt)

/-- Used blocks with the same start are the same. -/
theorem id_inj (ht : h.Tiled a) {i j : Nat} (hb : h.table.Uses i b) (hc : h.table.Uses j c)
    (hs : b.start = c.start) : i = j := by
  by_contra hij
  have hb' := ht.headed i b hb
  have hc' := ht.headed j c hc
  have := ht.apart hb hc hij
  simp only [Block.fin, blockHeader] at *
  omega

end Tiled

end Heap
end GuestLibrary
