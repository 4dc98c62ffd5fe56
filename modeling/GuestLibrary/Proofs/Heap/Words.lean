import GuestLibrary.Proofs.Heap.Acquiring
import GuestLibrary.Proofs.Heap.Handles

/-! The calls of a heap on words. A call stops only where the region that it asks for is oversized;
any other call has the result that it has on numbers, and leaves a heap in a memory that there can
be. -/
namespace GuestLibrary

/-- A search from a block on finds nothing that a search of the whole table misses. -/
theorem BlockTable.find?_isSome_of_window {t : BlockTable} {first need : Nat}
    (h : (t.find? first t.size need).isSome) : (t.find? 0 t.size need).isSome := by
  simp only [find?, Option.isSome_map, Nat.min_self] at h ⊢
  obtain ⟨before, b, rest, he, hb⟩ := (firstFit?_isSome_iff (by rw [List.length_drop]; rfl)).mp h
  refine (firstFit?_isSome_iff (by rfl)).mpr ⟨t.blocks.take first ++ before, b, rest, ?_, hb⟩
  rw [List.append_assoc, ← he, List.drop_zero, List.take_append_drop]

namespace Heap

/-- An allocation of `need` bytes, the header included, is stopped: no free run has them, and the
region for them is oversized. -/
def Stuck (h : Heap) (a : Arena) (need : Nat) : Prop :=
  need < wordLimit ∧ ¬ h.table.HasFreeRun need ∧ h.Oversized a need

/-- A request is stopped where it allocates, or where it resizes a grant that is too short, in place
of a block that it has freed. -/
def Request.Stops (h : Heap) (a : Arena) : Request → Prop
  | .allocate size => h.Stuck a (size + blockHeader)
  | .allocateZeroed count size => h.Stuck a (count * size + blockHeader)
  | .reallocate none size => h.Stuck a (size + blockHeader)
  | .reallocate (some current) size =>
    ∃ old, h.validate .realloc current = .ok old ∧ old.size < size + blockHeader ∧
      Stuck { h with table := h.table.setUsed current.block false } a (size + blockHeader)
  | .release _ => False
  | .releaseAddress _ => False

/-- Serves a call on words: the grant that it returns, if it returns one. -/
def Machine.perform (h : Heap) (a : Arena) :
    Request → Except Stop (Except AllocError (Option Allocation) × Heap × Arena)
  | .allocate size => do
    let (r, h, a) ← Machine.allocate h a size
    return (r.map some, h, a)
  | .allocateZeroed count size => do
    let (r, h, a) ← Machine.allocateZeroed h a count size
    return (r.map some, h, a)
  | .reallocate current size => do
    let (r, h, a) ← Machine.reallocate h a current size
    return (r.map some, h, a)
  | .release grant => do
    let (r, h) ← Machine.release h grant
    return (r.map fun _ => none, h, a)
  | .releaseAddress address => do
    let (r, h) ← Machine.releaseAddress h address
    return (r.map fun _ => none, h, a)

variable {h h' : Heap} {a a' : Arena} {need size : Nat}

section Searching

/-- Behind a region that was tried for, the table is searched once more. -/
theorem searchGrowing_computes (hb : h.Bounded a) (call : HeapCall) (hn : blockHeader ≤ need)
    (hword : need < wordLimit) :
    Computes (h.Stuck a need) (Machine.searchGrowing h a call need)
      (h.searchGrowing a call need) := by
  have hpos : 0 < need := Nat.lt_of_lt_of_le (by decide) hn
  have hrun := hb.toTiled.find?_isSome_iff hpos
  unfold Machine.searchGrowing searchGrowing
  rcases hb.find_cases 0 hn with ⟨hlist, he⟩ | ⟨grant, table, hlist, he, hfound⟩
  · rw [hlist] at hrun ⊢
    rw [he]
    have hmissing : ¬ h.table.HasFreeRun need := fun hhas => by cases hrun.mpr hhas
    refine ((addRegion_computes hb call).bind fun _ hadded => ?_).congr
      ⟨fun hover => ⟨hword, hmissing, hover⟩, fun hstuck => hstuck.2.2⟩
    rcases hadd : h.addRegion a call need with ⟨_ | _, h', a'⟩ <;> rw [hadd] at hadded
    · exact ⟨rfl, hadded⟩
    · dsimp only at hadded ⊢
      rcases hadded.find_cases 0 hn with ⟨hlist', he'⟩ | ⟨grant, table, hlist', he', hfound⟩
      · rw [hlist', he']
        exact ⟨rfl, hadded⟩
      · rw [hlist', he']
        exact ⟨rfl, hfound⟩
  · rw [hlist] at hrun ⊢
    rw [he]
    exact .of_ok (fun hstuck => hstuck.2.1 (hrun.mp rfl)) rfl hfound

/-- Before that, a search for another place looks behind the old one. -/
theorem searchReplacement_computes (hb : h.Bounded a) (block : Nat) (hn : blockHeader ≤ need)
    (hword : need < wordLimit) :
    Computes (h.Stuck a need) (Machine.searchReplacement h a block need)
      (h.searchReplacement a block need) := by
  have hpos : 0 < need := Nat.lt_of_lt_of_le (by decide) hn
  have hrun := hb.toTiled.find?_isSome_iff hpos
  unfold Machine.searchReplacement searchReplacement
  rcases hb.find_cases block hn with ⟨hbehind, hforward⟩ | ⟨grant, table, hlist, he, hfound⟩
  · rw [hbehind, hforward]
    rcases hb.find_cases 0 hn with ⟨hlist, he⟩ | ⟨grant, table, hlist, he, hfound⟩
    · rw [hlist] at hrun ⊢
      simp only [he, bind, Except.bind]
      have hmissing : ¬ h.table.HasFreeRun need := fun hhas => by cases hrun.mpr hhas
      refine ((addRegion_computes hb .realloc).bind fun _ hadded => ?_).congr
        ⟨fun hover => ⟨hword, hmissing, hover⟩, fun hstuck => hstuck.2.2⟩
      rcases hadd : h.addRegion a .realloc need with ⟨_ | _, h', a'⟩ <;> rw [hadd] at hadded
      · exact ⟨rfl, hadded⟩
      · dsimp only at hadded ⊢
        rcases hadded.find_cases 0 hn with ⟨hlist', he'⟩ | ⟨grant, table, hlist', he', hfound⟩
        · rw [hlist', he']
          exact ⟨rfl, hadded⟩
        · rw [hlist', he']
          exact ⟨rfl, hfound⟩
    · rw [hlist] at hrun ⊢
      simp only [he, bind, Except.bind]
      exact .of_ok (fun hstuck => hstuck.2.1 (hrun.mp rfl)) rfl hfound
  · have hsome := BlockTable.find?_isSome_of_window (by rw [hlist]; rfl)
    rw [hlist, he]
    exact .of_ok (fun hstuck => hstuck.2.1 (hrun.mp hsome)) rfl hfound

end Searching

section Granting

/-- A grant is committed at an address that is a word. -/
theorem commit?_eq (hb : h.Bounded a) (a' : Arena) (grant : Grant) :
    Machine.commit? h a' grant = .ok (h.commit? a' grant) := by
  unfold Machine.commit?
  cases hget : h.table.get? grant.id with
  | none => simp [commit?, hget, pure, Except.pure]
  | some b => simp [hb.address_eq hget, bind, Except.bind, pure, Except.pure]

theorem Bounded.commit? (hb : h.Bounded a) {grant : Grant} {allocation : Allocation}
    (he : h.commit? a grant = some (allocation, h', a')) : h'.Bounded a' := by
  unfold Heap.commit? at he
  split at he
  · cases he
  · obtain ⟨-, hrest⟩ := Prod.mk.inj (Option.some.inj he)
    obtain ⟨rfl, rfl⟩ := Prod.mk.inj hrest
    exact (hb.of_live _).write _ _

theorem allocateFor_computes (hb : h.Bounded a) (call : HeapCall) (size : Nat) :
    Computes (h.Stuck a (size + blockHeader)) (Machine.allocateFor h a call size)
      (h.allocateFor a call size) := by
  unfold Machine.allocateFor allocateFor
  dsimp only
  split
  · rename_i hover
    exact .of_ok (fun hstuck => absurd hstuck.1 (Nat.not_lt.mpr hover)) (by rw [hb.record_eq]; rfl)
      (hb.record call _)
  rename_i hword
  refine (searchGrowing_computes hb call (Nat.le_add_left _ _) (Nat.lt_of_not_le hword)).bind
    fun _ hsearched => ?_
  rcases hsearch : h.searchGrowing a call (size + blockHeader) with ⟨_ | grant, h', a'⟩ <;>
    rw [hsearch] at hsearched <;> dsimp only at hsearched ⊢
  · exact ⟨by rw [hsearched.record_eq]; rfl, hsearched.record call _⟩
  · rw [commit?_eq hsearched]
    cases hcommit : h'.commit? a' grant with
    | none => exact ⟨rfl, hsearched⟩
    | some committed =>
      have hcommitted := hsearched.commit? hcommit
      simp only [bind, Except.bind, hcommitted.record_eq]
      exact ⟨rfl, hcommitted.record call _⟩

/-- Where nothing is free, an allocation is stopped at the length of the next region. -/
theorem allocateFor_of_nextRegion {stop : Stop} (hb : h.Bounded a) (call : HeapCall)
    (hword : size + blockHeader < wordLimit) (hmissing : ¬ h.table.HasFreeRun (size + blockHeader))
    (hnext : Machine.nextRegion h a (size + blockHeader) = .error stop) :
    Machine.allocateFor h a call size = .error stop := by
  have hn : blockHeader ≤ size + blockHeader := Nat.le_add_left _ _
  rw [← hb.toTiled.find?_isSome_iff (Nat.lt_of_lt_of_le (by decide) hn)] at hmissing
  rcases hb.find_cases 0 hn with ⟨-, he⟩ | ⟨grant, table, hlist, -⟩
  · simp [Machine.allocateFor, Nat.not_le.mpr hword, Machine.searchGrowing, he, Machine.addRegion,
      hnext, bind, Except.bind]
  · rw [hlist] at hmissing
    exact absurd rfl hmissing

/-- The bytes of a fresh grant, which lies in memory, end at an address. -/
theorem allocateZeroed_computes (hb : h.Bounded a) (hs : h.Sound a) (count size : Nat) :
    Computes (h.Stuck a (count * size + blockHeader)) (Machine.allocateZeroed h a count size)
      (h.allocateZeroed a count size) := by
  unfold Machine.allocateZeroed allocateZeroed
  dsimp only
  split
  · rename_i hover
    exact .of_ok (fun hstuck => absurd hstuck.1 (by omega)) (by rw [hb.record_eq]; rfl)
      (hb.record .calloc _)
  refine (allocateFor_computes hb .calloc (count * size)).bind fun _ hallocated => ?_
  rcases allocateFor_cases hs .calloc (count * size) with
    ⟨id, b, h', a', he, -, hstep⟩ | ⟨e, h', a', he, -, -⟩ <;>
    rw [he] at hallocated ⊢ <;> dsimp only at hallocated ⊢
  · have hlive := ofBlock_mem hstep.sound ((hstep.uses_iff id b).mpr (Or.inl rfl))
    have hbound := (bounds_of_live hstep.sound hlive).2
    have hword := lt_wordLimit hallocated.size_lt
    rw [Word.sum_eq (by omega)]
    exact ⟨rfl, hallocated.write _ _⟩
  · exact ⟨rfl, hallocated⟩

end Granting

section Releasing

theorem validate_eq (hb : h.Bounded a) (call : HeapCall) (grant : Allocation) :
    Machine.validate h call grant = .ok (h.validate call grant) := by
  unfold Machine.validate
  cases hget : h.table.get? grant.block with
  | none => rfl
  | some b => simp [hb.address_eq hget, bind, Except.bind, pure, Except.pure]

/-- The ends of regions that lie in memory are words. -/
theorem owns_eq {regions : List Region}
    (hr : ∀ r ∈ regions, r.start + r.len < wordLimit) (address : Nat) :
    Machine.owns address regions = .ok (regions.any (·.contains address)) := by
  induction regions with
  | nil => rfl
  | cons r rest ih =>
    obtain ⟨hfirst, hrest⟩ := List.forall_mem_cons.mp hr
    rw [Machine.owns, ih hrest, List.any_cons, Region.contains, Word.sum_eq hfirst]
    by_cases hstart : r.start ≤ address
    · by_cases hend : address < r.start + r.len <;>
        simp [hstart, hend, bind, Except.bind, pure, Except.pure]
    · simp [hstart]

theorem blockAt?_eq {blocks : List Block}
    (hb : ∀ b ∈ blocks, b.start + blockHeader < wordLimit) (address id : Nat) :
    Machine.blockAt? address id blocks =
      .ok ((blocks.findIdx? fun b => 0 < b.size && b.start + blockHeader == address).map
        (· + id)) := by
  induction blocks generalizing id with
  | nil => rfl
  | cons b rest ih =>
    obtain ⟨hfirst, hrest⟩ := List.forall_mem_cons.mp hb
    rw [Machine.blockAt?, ih hrest, Word.sum_eq hfirst, List.findIdx?_cons]
    by_cases hpos : 0 < b.size
    · by_cases haddress : b.start + blockHeader = address
      · simp [hpos, haddress, bind, Except.bind, pure, Except.pure]
      · simp [hpos, haddress, bind, Except.bind, Nat.add_comm 1]
    · simp [hpos, Nat.add_comm 1]

theorem lookup_eq (hb : h.Bounded a) (call : HeapCall) (address : Nat) :
    Machine.lookup h call address = .ok (h.lookup call address) := by
  have hword := lt_wordLimit hb.size_lt
  have hregions : ∀ r ∈ h.regions, r.start + r.len < wordLimit := fun r hr =>
    Nat.lt_of_le_of_lt (hb.regions_le r hr) (by omega)
  have hblocks : ∀ b ∈ h.table.blocks, b.start + blockHeader < wordLimit := by
    intro b hmem
    have hle := hb.fin_le b hmem
    simp only [blockHeader, pageSize] at *
    omega
  have howns : Machine.owns address h.regions = .ok (h.owns address) := owns_eq hregions address
  unfold Machine.lookup lookup
  rw [howns, blockAt?_eq hblocks]
  cases (List.lookup address h.live).bind (h.handle? · address) with
  | some grant => rfl
  | none =>
    simp only [bind, Except.bind, pure, Except.pure, Nat.add_zero, Option.map_id']
    cases h.owns address
    · rfl
    · cases h.table.blocks.findIdx? fun b => 0 < b.size && b.start + blockHeader == address <;> rfl

theorem onTable_clearUsed (t : BlockTable) (id : Nat) :
    Machine.onTable t (BlockTable.Machine.clearUsed id) =
      .ok (t.isUsed id, t.setUsed id false) := by
  rw [Machine.onTable, BlockTable.Machine.run_clearUsed]

theorem onTable_setUsed (t : BlockTable) (id : Nat) :
    Machine.onTable t (BlockTable.Machine.setUsed id) = .ok ((), t.setUsed id true) := by
  rw [Machine.onTable, BlockTable.Machine.run_setUsed]

theorem release_eq (hb : h.Bounded a) (grant : Allocation) :
    Machine.release h grant = .ok (h.release grant) ∧ (h.release grant).2.Bounded a := by
  unfold Machine.release release
  rw [validate_eq hb]
  cases h.validate .free grant with
  | error d =>
    simp only [bind, Except.bind, hb.record_eq]
    exact ⟨rfl, hb.record .free _⟩
  | ok b =>
    have hfreed := (hb.setUsed_false grant.block).of_live
      (LiveGrants.erase h.live grant.address)
    simp only [bind, Except.bind, onTable_clearUsed, hfreed.record_eq]
    exact ⟨rfl, hfreed.record .free _⟩

theorem releaseAddress_eq (hb : h.Bounded a) (address : Nat) :
    Machine.releaseAddress h address = .ok (h.releaseAddress address) ∧
      (h.releaseAddress address).2.Bounded a := by
  unfold Machine.releaseAddress releaseAddress
  split
  · rw [hb.record_eq]
    exact ⟨rfl, hb.record .free _⟩
  rw [lookup_eq hb]
  cases h.lookup .free address with
  | error d =>
    simp only [bind, Except.bind, hb.record_eq]
    exact ⟨rfl, hb.record .free _⟩
  | ok grant => exact release_eq hb grant

end Releasing

section Resizing

/-- The log is no part of what has to lie in memory. -/
theorem Bounded.of_noted (hb : h.Bounded a) (hn : h.Noted h') : h'.Bounded a := by
  obtain ⟨limits, table, regions, live, nextDecision, log⟩ := h'
  obtain ⟨rfl, rfl, rfl, rfl⟩ := hn
  exact ⟨⟨hb.based, hb.capacity_eq, hb.size_le, hb.pages_le, hb.unacquired, hb.tiles, hb.headed,
    hb.pages_mapped, hb.blocks_mapped⟩, hb.exact, hb.cleared, hb.regions_le, hb.whole, hb.size_lt,
    hb.table_lt⟩

theorem resizeLive_computes (hb : h.Bounded a) {current : Allocation} {old : Block}
    (hold : h.table.Uses current.block old) (haddress : current.address = old.start + blockHeader)
    (hword : size + blockHeader < wordLimit) :
    Computes (Stuck { h with table := h.table.setUsed current.block false } a (size + blockHeader))
      (Machine.resizeLive h a current old size (size + blockHeader))
      (h.resizeLive a current old size (size + blockHeader)) := by
  have hn : blockHeader ≤ size + blockHeader := Nat.le_add_left _ _
  have hfreed := hb.setUsed_false current.block
  unfold Machine.resizeLive resizeLive
  rw [onTable_clearUsed]
  refine (searchReplacement_computes hfreed current.block hn hword).bind fun _ hsearched => ?_
  rcases searchReplacement_exact hfreed.toTiled current.block (Nat.lt_of_lt_of_le (by decide) hn)
    with ⟨⟨grant, window⟩, h', a', he, -⟩ | ⟨h', he, hnoted, -⟩ <;>
    simp only [he] at hsearched ⊢
  · cases hget : h'.table.get? grant.id with
    | none => exact ⟨rfl, hsearched⟩
    | some b =>
      have hkeep : min (old.size - blockHeader) size ≤ old.size - blockHeader := Nat.min_le_left _ _
      have hheaded := hb.headed _ _ hold
      have hend := hb.fin_le old (List.mem_of_getElem? hold.1)
      have hstart := hsearched.fin_le b (List.mem_of_getElem? hget)
      have hlimit : 2 * Word.bufferLimit = wordLimit := by decide
      have hsize := hb.size_lt
      have hsize' := hsearched.size_lt
      have hbehind : current.address + min (old.size - blockHeader) size < wordLimit := by omega
      have hnew : b.start + blockHeader + min (old.size - blockHeader) size < wordLimit := by omega
      simp only [hsearched.address_eq hget, Word.difference_eq hheaded, Word.sum_eq hbehind,
        Word.sum_eq hnew, bind, Except.bind, pure, Except.pure, ite_self]
      have hmoved : Heap.Bounded { h' with live := LiveGrants.erase h'.live current.address }
          (a'.copyWithin current.address (min (old.size - blockHeader) size)
            (b.start + blockHeader)) := (hsearched.of_live _).of_size_eq rfl (by simp)
      rw [commit?_eq hmoved]
      cases hcommit : Heap.commit? { h' with live := LiveGrants.erase h'.live current.address }
          (a'.copyWithin current.address (min (old.size - blockHeader) size)
            (b.start + blockHeader)) grant with
      | none => exact ⟨rfl, hmoved⟩
      | some committed =>
        have hcommitted := hmoved.commit? hcommit
        simp only [hcommitted.record_eq]
        exact ⟨trivial, hcommitted.record .realloc _⟩
  · -- the block is marked again, which is what it was
    have hrestored : h.Noted { h' with table := h'.table.setUsed current.block true } := by
      refine ⟨hnoted.limits_eq, ?_, hnoted.regions_eq, hnoted.live_eq⟩
      dsimp only
      rw [hnoted.table_eq]
      exact BlockTable.setUsed_setUsed hold
    have hkept := hb.of_noted hrestored
    simp only [onTable_setUsed, bind, Except.bind, hkept.record_eq]
    exact ⟨rfl, hkept.record .realloc _⟩

theorem resize_computes (hb : h.Bounded a) (current : Allocation) (size : Nat) :
    Computes ((Request.reallocate (some current) size).Stops h a)
      (Machine.resize h a current size) (h.resize a current size) := by
  unfold Machine.resize resize
  rw [validate_eq hb]
  cases hv : h.validate .realloc current with
  | error d =>
    simp only [bind, Except.bind, hb.record_eq]
    refine .of_ok ?_ rfl (hb.record .realloc _)
    rintro ⟨old, hold, -⟩
    cases hv.symm.trans hold
  | ok old =>
    have hresizes : (Request.reallocate (some current) size).Stops h a ↔
        old.size < size + blockHeader ∧
          Stuck { h with table := h.table.setUsed current.block false } a (size + blockHeader) := by
      constructor
      · rintro ⟨old', hold, hrest⟩
        obtain rfl := Except.ok.inj (hv.symm.trans hold)
        exact hrest
      · exact fun hrest => ⟨old, hv, hrest⟩
    simp only [bind, Except.bind]
    split
    · rename_i hover
      exact .of_ok (fun hs => absurd (hresizes.mp hs).2.1 (Nat.not_lt.mpr hover)) rfl hb
    rename_i hword
    split
    · rename_i hfits
      rw [hb.record_eq]
      exact .of_ok (fun hs => absurd (hresizes.mp hs).1 (Nat.not_lt.mpr hfits)) rfl
        (hb.record .realloc _)
    · rename_i hshort
      obtain ⟨hold, haddress⟩ := uses_of_validate hv
      exact (resizeLive_computes hb hold haddress (Nat.lt_of_not_le hword)).congr
        ⟨fun hstuck => hresizes.mpr ⟨Nat.lt_of_not_le hshort, hstuck⟩, fun hs => (hresizes.mp hs).2⟩

end Resizing

theorem reallocate_computes (hb : h.Bounded a) (current : Option Allocation) (size : Nat) :
    Computes ((Request.reallocate current size).Stops h a)
      (Machine.reallocate h a current size) (h.reallocate a current size) := by
  cases current with
  | none => exact allocateFor_computes hb .realloc size
  | some current => exact resize_computes hb current size

/-- Whatever is asked of a heap, an overflow stops it exactly where the region that it needs is
oversized, and else it does what the numbers say. -/
theorem perform_computes (hb : h.Bounded a) (hs : h.Sound a) (r : Request) :
    Computes (r.Stops h a) (Machine.perform h a r) (h.perform a r) := by
  cases r with
  | allocate size =>
    exact (allocateFor_computes hb .malloc size).bind fun _ hbounded => ⟨rfl, hbounded⟩
  | allocateZeroed count size =>
    exact (allocateZeroed_computes hb hs count size).bind fun _ hbounded => ⟨rfl, hbounded⟩
  | reallocate current size =>
    exact (reallocate_computes hb current size).bind fun _ hbounded => ⟨rfl, hbounded⟩
  | release grant =>
    obtain ⟨he, hbounded⟩ := release_eq hb grant
    exact .of_ok id (by rw [Machine.perform, he]; rfl) hbounded
  | releaseAddress address =>
    obtain ⟨he, hbounded⟩ := releaseAddress_eq hb address
    exact .of_ok id (by rw [Machine.perform, he]; rfl) hbounded

/-- What the calls that are answered lead to. The heap has got its table, the host has as much
memory as there can be, and the program may write where `writable` says so of the heap at that time,
the address and the number of bytes. -/
inductive Machine.Reachable (limits : HeapLimits) (writable : Heap → Nat → Nat → Prop) :
    Heap → Arena → Prop
  | fresh {h : Heap} {a : Arena} : Machine.ofLimits limits = .ok h → a.Simulated →
      a.memory.size < Word.bufferLimit → Machine.Reachable limits writable h a
  | call {h h' : Heap} {a a' : Arena} {result : Except AllocError (Option Allocation)}
      (r : Request) : Machine.Reachable limits writable h a →
      Machine.perform h a r = .ok (result, h', a') → Machine.Reachable limits writable h' a'
  | write {h : Heap} {a : Arena} (address : Nat) (block : Bytes) :
      Machine.Reachable limits writable h a → writable h address block.length →
      Machine.Reachable limits writable h (a.write address block)

theorem Machine.ofLimits_eq_ok_iff {limits : HeapLimits} : Machine.ofLimits limits = .ok h ↔
    h = .ofLimits limits ∧ limits.maxBlocks * Machine.blockBytes < Word.bufferLimit := by
  unfold Machine.ofLimits
  by_cases hlt : limits.maxBlocks * Machine.blockBytes < Word.bufferLimit
  · simp [Word.buffer_eq hlt, hlt, bind, Except.bind, pure, Except.pure, eq_comm]
  · simp [Word.buffer_stops (Nat.le_of_not_lt hlt), hlt, bind, Except.bind]

theorem bounded_ofLimits {limits : HeapLimits} (ha : a.Simulated)
    (hsize : a.memory.size < Word.bufferLimit)
    (htable : limits.maxBlocks * Machine.blockBytes < Word.bufferLimit) :
    (ofLimits limits).Bounded a where
  toTiled := (sound_ofLimits limits ha.heapBase_lt).toTiled
  exact := BlockTable.Machine.exact_ofCapacity limits.maxBlocks
  cleared b hb := by cases hb
  regions_le r hr := by cases hr
  whole := ha.whole
  size_lt := hsize
  table_lt := htable

variable {limits : HeapLimits} {writable : Heap → Nat → Nat → Prop}

/-- What is reached on words is reached on numbers, and lies in a memory that there can be. -/
theorem Machine.Reachable.bounded (hr : Machine.Reachable limits writable h a) :
    Heap.Reachable limits writable h a ∧ h.Bounded a := by
  induction hr with
  | fresh hheap ha hsize =>
    obtain ⟨rfl, htable⟩ := Machine.ofLimits_eq_ok_iff.mp hheap
    exact ⟨.fresh ha, bounded_ofLimits ha hsize htable⟩
  | @call h h' a a' result r _ he ih =>
    obtain ⟨hreach, hb⟩ := ih
    have hcomputes := perform_computes hb hreach.sound.1 r
    have hnot : ¬ r.Stops h a := by
      intro hstops
      obtain ⟨stop, -, hstop⟩ := hcomputes.stopped hstops
      cases hstop.symm.trans he
    have hresult := Except.ok.inj ((hcomputes.computed hnot).symm.trans he)
    have hnext := hreach.call r
    have hbounded := hcomputes.kept hnot
    rw [hresult] at hnext hbounded
    exact ⟨hnext, hbounded⟩
  | write address block _ hw ih => exact ⟨.write address block ih.1 hw, ih.2.write address block⟩

/-- A heap of one page and one block, as it is before its first call. -/
theorem reachable_onePage : Machine.Reachable ⟨1, 1⟩ (fun _ _ _ => True) (.ofLimits ⟨1, 1⟩)
    (.ofBase 0 1) :=
  .fresh (Machine.ofLimits_eq_ok_iff.mpr ⟨rfl, by decide⟩) (.ofBase 0 1)
    (by rw [size_onePage]; decide)

/-- A call that is not stopped leads on. -/
theorem Machine.Reachable.perform (hr : Machine.Reachable limits writable h a) {r : Request}
    (hnot : ¬ r.Stops h a) :
    Machine.Reachable limits writable (h.perform a r).2.1 (h.perform a r).2.2 :=
  hr.call r ((perform_computes hr.bounded.2 hr.bounded.1.sound.1 r).computed hnot)

end Heap
end GuestLibrary
