import GuestLibrary.Proofs.Heap.FreeRun
import GuestLibrary.Proofs.Heap.Reachable

/-! A call on a heap that fails leaves no trace but its log records. A search has changed nothing
when it gives up, since a region that is acquired always serves the request it was acquired for; and
a resize that finds no other place marks its block used again, which is what the block was. -/
namespace GuestLibrary

/-- Freeing a used block and marking it again changes nothing. -/
theorem BlockTable.setUsed_setUsed {t : BlockTable} {id : Nat} {b : Block} (hb : t.Uses id b) :
    (t.setUsed id false).setUsed id true = t := by
  have hblocks : ((t.setUsed id false).setUsed id true).blocks = t.blocks := by
    refine List.ext_getElem? fun i => (get?_restore hb (fun _ _ h => h) i).trans ?_
    split
    · rename_i hi
      rw [hi]
      exact hb.1.symm
    · rename_i hi
      exact (get?_setUsed false).trans (if_neg hi)
  exact congrArg (fun blocks => { t with blocks }) hblocks

namespace Heap

variable {h h' h'' : Heap} {a a' : Arena} {need : Nat}

/-- `h'` is `h` but for its log and the number of its next decision. -/
structure Noted (h h' : Heap) : Prop where
  limits_eq : h'.limits = h.limits
  table_eq : h'.table = h.table
  regions_eq : h'.regions = h.regions
  live_eq : h'.live = h.live

theorem Noted.refl (h : Heap) : h.Noted h := ⟨rfl, rfl, rfl, rfl⟩

theorem Noted.record (hn : h.Noted h') (call : HeapCall) (event : HeapEvent) :
    h.Noted (h'.record call event) :=
  ⟨hn.limits_eq, hn.table_eq, hn.regions_eq, hn.live_eq⟩

/-- `h'` comes from `h` by decisions that the log may show: it has the regions of `h` and perhaps
more, and no new record tells of memory that grew in vain. -/
structure LeadsTo (h h' : Heap) : Prop where
  regions_prefix : h.regions <+: h'.regions
  log_mem : ∀ record ∈ h'.log, record ∈ h.log ∨ ¬ record.event.IsCutRejected

namespace LeadsTo

theorem refl (h : Heap) : h.LeadsTo h := ⟨List.prefix_rfl, fun _ hr => Or.inl hr⟩

theorem trans (hd : h.LeadsTo h') (hd' : h'.LeadsTo h'') : h.LeadsTo h'' := by
  refine ⟨hd.regions_prefix.trans hd'.regions_prefix, fun record hr => ?_⟩
  rcases hd'.log_mem record hr with hold | hnew
  · exact hd.log_mem record hold
  · exact Or.inr hnew

/-- The log does not show the table and the live map. -/
theorem of_eq (hregions : h'.regions = h.regions) (hlog : h'.log = h.log) : h.LeadsTo h' := by
  refine ⟨by rw [hregions], fun record hr => Or.inl ?_⟩
  rwa [hlog] at hr

theorem record (hd : h.LeadsTo h') (call : HeapCall) {event : HeapEvent}
    (he : ¬ event.IsCutRejected) : h.LeadsTo (h'.record call event) := by
  refine ⟨hd.regions_prefix, fun record hr => ?_⟩
  rcases List.mem_cons.mp (List.mem_of_mem_take hr) with rfl | hold
  · exact Or.inr he
  · exact hd.log_mem record hold

end LeadsTo

/-- Where a region can be acquired, it serves the request that it was acquired for; where it cannot,
nothing changes. -/
theorem addRegion_exact (ht : h.Tiled a) (call : HeapCall) (hn : 0 < need) :
    (¬ h.Admits a need ∧ ∃ h', h.addRegion a call need = (.error (.exhausted need), h', a) ∧
      h.Noted h' ∧ h.LeadsTo h') ∨
    (h.Admits a need ∧ ∃ h' region a' found, h.addRegion a call need = (.ok (), h', a') ∧
      h.Follows a need region a' ∧ h'.regions = h.regions ++ [region] ∧ h.LeadsTo h' ∧
      h'.table.find? 0 h'.table.size need = some found) := by
  rcases addRegion_cases (Nat.le_of_lt ht.based) call hn with
    ⟨hnot, event, hevent, he⟩ | ⟨hadmits, region, a', ids, table, event, hevent, hf, happ, he⟩
  · exact Or.inl ⟨hnot, _, he, (Noted.refl h).record call event,
      (LeadsTo.refl h).record call hevent⟩
  · -- the blocks of the region are a free run by themselves
    have htiled := ((ht.follows hf happ).record call event).tiled
    have hfound := (htiled.find?_isSome_iff hn).mpr (hf.hasFreeRun happ)
    obtain ⟨found, hfound⟩ := Option.isSome_iff_exists.mp hfound
    have hgrown : h.LeadsTo { h with table, regions := h.regions ++ [region] } :=
      ⟨List.prefix_append _ _, fun _ hr => Or.inl hr⟩
    exact Or.inr ⟨hadmits, _, region, a', found, he, hf, rfl, hgrown.record call hevent, hfound⟩

/-- A search grants from a free run where there is one, else from a new region where the ceilings
admit it, and else changes nothing. -/
theorem searchGrowing_exact (ht : h.Tiled a) (call : HeapCall) (hn : 0 < need) :
    (h.table.HasFreeRun need ∧ ∃ grant h', h.searchGrowing a call need = (.ok grant, h', a) ∧
      h'.regions = h.regions ∧ h.LeadsTo h') ∨
    (¬ h.table.HasFreeRun need ∧ h.Admits a need ∧ ∃ grant h' region a',
      h.searchGrowing a call need = (.ok grant, h', a') ∧ h.Follows a need region a' ∧
      h'.regions = h.regions ++ [region] ∧ h.LeadsTo h') ∨
    (¬ h.table.HasFreeRun need ∧ ¬ h.Admits a need ∧ ∃ h',
      h.searchGrowing a call need = (.error (.exhausted need), h', a) ∧ h.Noted h' ∧
      h.LeadsTo h') := by
  have hrun := ht.find?_isSome_iff hn
  unfold searchGrowing
  cases hfind : h.table.find? 0 h.table.size need with
  | some found =>
    rw [hfind] at hrun
    exact Or.inl ⟨hrun.mp rfl, found.1, _, rfl, rfl, .of_eq rfl rfl⟩
  | none =>
    have hmissing : ¬ h.table.HasFreeRun need := by
      rw [← hrun, hfind]
      simp
    dsimp only
    rcases addRegion_exact ht call hn with
      ⟨hnot, h', he, hnoted, hd⟩ | ⟨hadmits, h', region, a', found, he, hf, hr, hd, hfound⟩
    · rw [he]
      exact Or.inr (Or.inr ⟨hmissing, hnot, h', rfl, hnoted, hd⟩)
    · rw [he]
      dsimp only
      rw [hfound]
      exact Or.inr (Or.inl ⟨hmissing, hadmits, found.1, _, region, a', rfl, hf, hr,
        hd.trans (.of_eq rfl rfl)⟩)

/-- A search for another place changes nothing where it finds none. -/
theorem searchReplacement_exact (ht : h.Tiled a) (block : Nat) (hn : 0 < need) :
    (∃ found h' a', h.searchReplacement a block need = (some found, h', a') ∧ h.LeadsTo h') ∨
    ∃ h', h.searchReplacement a block need = (none, h', a) ∧ h.Noted h' ∧ h.LeadsTo h' := by
  unfold searchReplacement
  cases hforward : h.table.find? block h.table.size need with
  | some found => exact Or.inl ⟨_, _, _, rfl, .of_eq rfl rfl⟩
  | none =>
    cases hscan : h.table.find? 0 h.table.size need with
    | some found => exact Or.inl ⟨_, _, _, rfl, .of_eq rfl rfl⟩
    | none =>
      dsimp only
      rcases addRegion_exact ht .realloc hn with
        ⟨-, h', he, hnoted, hd⟩ | ⟨-, h', region, a', found, he, -, -, hd, hfound⟩
      · rw [he]
        exact Or.inr ⟨h', rfl, hnoted, hd⟩
      · rw [he]
        dsimp only
        rw [hfound]
        exact Or.inl ⟨_, _, _, rfl, hd.trans (.of_eq rfl rfl)⟩

/-- An allocation whose size fits a word succeeds where a search for it does. -/
theorem allocateFor_exact (hs : h.Sound a) (call : HeapCall) {size : Nat}
    (hsize : size + blockHeader < wordLimit) :
    (h.table.HasFreeRun (size + blockHeader) ∧ ∃ g h' a',
      h.allocateFor a call size = (.ok g, h', a') ∧ h'.regions = h.regions ∧ h.LeadsTo h') ∨
    (¬ h.table.HasFreeRun (size + blockHeader) ∧ h.Admits a (size + blockHeader) ∧
      ∃ g h' region a', h.allocateFor a call size = (.ok g, h', a') ∧
        region.len = h.regionLength a (size + blockHeader) ∧
        h'.regions = h.regions ++ [region] ∧ h.LeadsTo h') ∨
    (¬ h.table.HasFreeRun (size + blockHeader) ∧ ¬ h.Admits a (size + blockHeader) ∧
      ∃ h', h.allocateFor a call size = (.error (.exhausted (size + blockHeader)), h', a) ∧
        h.Noted h' ∧ h.LeadsTo h') := by
  have hn : blockHeader ≤ size + blockHeader := Nat.le_add_left blockHeader size
  have hpos : 0 < size + blockHeader := Nat.lt_of_lt_of_le (by decide) hn
  -- what was granted can be committed, so the search decides the outcome
  have hcommit : ∀ {grant : Grant} {h₁ : Heap} {a₁ : Arena},
      h.searchGrowing a call (size + blockHeader) = (.ok grant, h₁, a₁) → h.LeadsTo h₁ →
      ∃ g h' a', h.allocateFor a call size = (.ok g, h', a') ∧ h'.regions = h₁.regions ∧
        h.LeadsTo h' := by
    intro grant h₁ a₁ he hd
    have hplaced : ∃ b, h₁.table.Uses grant.id b := by
      rcases searchGrowing_cases hs.toTiled call hn with
        ⟨grant', h', a', b, he', hp⟩ | ⟨h', a', he', -⟩
      · rw [he] at he'
        obtain ⟨hg, hh, -⟩ : grant = grant' ∧ h₁ = h' ∧ a₁ = a' := by simpa using he'
        exact ⟨b, hg ▸ hh ▸ hp.uses⟩
      · rw [he] at he'
        simp at he'
    obtain ⟨b, hb⟩ := hplaced
    unfold allocateFor
    rw [if_neg (by omega), he]
    dsimp only
    rw [commit?_of_uses hb]
    have hlive : h₁.LeadsTo
        { h₁ with live := LiveGrants.insert (b.start + blockHeader) grant.id h₁.live } :=
      .of_eq rfl rfl
    exact ⟨_, _, _, rfl, rfl, (hd.trans hlive).record call id⟩
  rcases searchGrowing_exact hs.toTiled call hpos with
    ⟨hrun, grant, h₁, he, hr, hd⟩ | ⟨hrun, hadmits, grant, h₁, region, a₁, he, hf, hr, hd⟩ |
    ⟨hrun, hnot, h₁, he, hnoted, hd⟩
  · obtain ⟨g, h', a', he', hr', hd'⟩ := hcommit he hd
    exact Or.inl ⟨hrun, g, h', a', he', hr'.trans hr, hd'⟩
  · obtain ⟨g, h', a', he', hr', hd'⟩ := hcommit he hd
    exact Or.inr (Or.inl ⟨hrun, hadmits, g, h', region, a', he', hf.len_eq, hr'.trans hr, hd'⟩)
  · have hfailed : h.allocateFor a call size = (.error (.exhausted (size + blockHeader)),
        h₁.record call (.exhausted size (size + blockHeader)), a) := by
      unfold allocateFor
      rw [if_neg (by omega), he]
    exact Or.inr (Or.inr ⟨hrun, hnot, _, hfailed, hnoted.record call _, hd.record call id⟩)

/-- A result of a call, with the heap and the arena after it: whatever the call decided is in the
log, and if it failed then nothing else happened. -/
structure Atomic {ε α : Type} (h : Heap) (a : Arena) (result : Except ε α × Heap × Arena) :
    Prop where
  leads : h.LeadsTo result.2.1
  undone : ∀ e, result.1 = .error e → h.Noted result.2.1 ∧ result.2.2 = a

theorem Atomic.ok {ε α : Type} (hd : h.LeadsTo h') (x : α) (a' : Arena) :
    h.Atomic a ((.ok x, h', a') : Except ε α × Heap × Arena) :=
  ⟨hd, fun e he => by cases he⟩

theorem Atomic.error {ε α : Type} (hd : h.LeadsTo h') (hn : h.Noted h') (e : ε) :
    h.Atomic a ((.error e, h', a) : Except ε α × Heap × Arena) :=
  ⟨hd, fun _ _ => ⟨hn, rfl⟩⟩

/-- A call that was rejected at once. -/
theorem Atomic.refused {ε α : Type} (call : HeapCall) {event : HeapEvent}
    (he : ¬ event.IsCutRejected) (e : ε) :
    h.Atomic a ((.error e, h.record call event, a) : Except ε α × Heap × Arena) :=
  .error ((LeadsTo.refl h).record call he) ((Noted.refl h).record call event) e

theorem allocateFor_atomic (hs : h.Sound a) (call : HeapCall) (size : Nat) :
    h.Atomic a (h.allocateFor a call size) := by
  by_cases hsize : size + blockHeader < wordLimit
  · rcases allocateFor_exact hs call hsize with
      ⟨-, g, h', a', he, -, hd⟩ | ⟨-, -, g, h', region, a', he, -, -, hd⟩ |
      ⟨-, -, h', he, hn, hd⟩
    · rw [he]
      exact .ok hd g a'
    · rw [he]
      exact .ok hd g a'
    · rw [he]
      exact .error hd hn _
  · unfold allocateFor
    rw [if_pos (by omega)]
    exact .refused call id _

theorem allocateZeroed_atomic (hs : h.Sound a) (count size : Nat) :
    h.Atomic a (h.allocateZeroed a count size) := by
  unfold allocateZeroed
  dsimp only
  split
  · exact .refused .calloc id _
  have hinner := allocateFor_atomic hs .calloc (count * size)
  rcases hr : h.allocateFor a .calloc (count * size) with ⟨_ | g, h', a'⟩
  · rw [hr] at hinner
    exact hinner
  · rw [hr] at hinner
    exact .ok hinner.leads g _

theorem resizeLive_atomic (hs : h.Sound a) {current : Allocation} {old : Block}
    (hold : h.table.Uses current.block old) (size : Nat) :
    h.Atomic a (h.resizeLive a current old size (size + blockHeader)) := by
  have hn : blockHeader ≤ size + blockHeader := Nat.le_add_left blockHeader size
  let freed : Heap := { h with table := h.table.setUsed current.block false }
  have hfreed : h.LeadsTo freed := .of_eq rfl rfl
  have htiled : freed.Tiled a := hs.setUsed_false current.block
  rcases searchReplacement_exact htiled current.block (Nat.lt_of_lt_of_le (by decide) hn) with
    ⟨⟨grant, window⟩, h₁, a₁, he, hd⟩ | ⟨h₁, he, hnoted, hd⟩
  · -- a resize that found another place succeeds
    have hplaced : ∃ b, h₁.table.Uses grant.id b := by
      rcases searchReplacement_cases htiled current.block hn with
        ⟨grant', window', h', a', b, he', hp⟩ | ⟨h', a', he', -⟩
      · rw [he] at he'
        obtain ⟨⟨hg, -⟩, hh, -⟩ : (grant = grant' ∧ window = window') ∧ h₁ = h' ∧ a₁ = a' := by
          simpa using he'
        exact ⟨b, hg ▸ hh ▸ hp.uses⟩
      · rw [he] at he'
        simp at he'
    obtain ⟨b, hb⟩ := hplaced
    have huse : BlockTable.Uses (Heap.table { h₁ with
        live := LiveGrants.erase h₁.live current.address }) grant.id b := hb
    have hlive : h₁.LeadsTo { h₁ with
        live := LiveGrants.insert (b.start + blockHeader) grant.id
          (LiveGrants.erase h₁.live current.address) } := .of_eq rfl rfl
    unfold resizeLive
    dsimp only
    rw [he]
    dsimp only
    rw [hb.1]
    dsimp only
    rw [commit?_of_uses huse]
    exact .ok (((hfreed.trans hd).trans hlive).record .realloc id) _ _
  · have hrestored : h.Noted { h₁ with table := h₁.table.setUsed current.block true } := by
      refine ⟨hnoted.limits_eq, ?_, hnoted.regions_eq, hnoted.live_eq⟩
      dsimp only
      rw [hnoted.table_eq]
      exact BlockTable.setUsed_setUsed hold
    have hmarked : h₁.LeadsTo { h₁ with table := h₁.table.setUsed current.block true } :=
      .of_eq rfl rfl
    unfold resizeLive
    dsimp only
    rw [he]
    exact .error (((hfreed.trans hd).trans hmarked).record .realloc id) (hrestored.record _ _) _

theorem resize_atomic (hs : h.Sound a) (current : Allocation) (size : Nat) :
    h.Atomic a (h.resize a current size) := by
  unfold resize
  cases hv : h.validate .realloc current with
  | error d => exact .refused .realloc id _
  | ok old =>
    have hold := ((validate_eq_ok_iff .realloc current hs).mp hv).1
    dsimp only
    split
    · exact .error (.refl h) (.refl h) _
    split
    · exact .ok ((LeadsTo.refl h).record .realloc id) _ _
    · exact resizeLive_atomic hs hold size

theorem release_atomic (grant : Allocation) :
    h.Atomic a ((h.release grant).1, (h.release grant).2, a) := by
  unfold release
  cases h.validate .free grant with
  | error d => exact .refused .free id _
  | ok b =>
    have hfreed : h.LeadsTo { h with
        table := h.table.setUsed grant.block false
        live := LiveGrants.erase h.live grant.address } := .of_eq rfl rfl
    exact .ok (hfreed.record .free id) _ _

theorem releaseAddress_atomic (address : Nat) :
    h.Atomic a ((h.releaseAddress address).1, (h.releaseAddress address).2, a) := by
  unfold releaseAddress
  split
  · exact .ok ((LeadsTo.refl h).record .free id) _ _
  cases h.lookup .free address with
  | error d => exact .refused .free id _
  | ok grant => exact release_atomic grant

/-- What a call hands out is no part of what it did. -/
theorem Atomic.map {ε α β : Type} {result : Except ε α × Heap × Arena} (ha : h.Atomic a result)
    (f : α → β) : h.Atomic a (result.1.map f, result.2.1, result.2.2) := by
  refine ⟨ha.leads, fun e he => ha.undone e ?_⟩
  cases hr : result.1 with
  | error e' => simpa [hr, Except.map] using he
  | ok x => simp [hr, Except.map] at he

theorem perform_atomic (hs : h.Sound a) (r : Request) : h.Atomic a (h.perform a r) := by
  cases r with
  | allocate size => exact (allocateFor_atomic hs .malloc size).map some
  | allocateZeroed count size => exact (allocateZeroed_atomic hs count size).map some
  | reallocate current size =>
    cases current with
    | none => exact (allocateFor_atomic hs .realloc size).map some
    | some current => exact (resize_atomic hs current size).map some
  | release grant => exact (release_atomic grant).map fun _ => none
  | releaseAddress address => exact (releaseAddress_atomic address).map fun _ => none

variable {limits : HeapLimits} {writable : Heap → Nat → Nat → Prop}

/-- No run ever acquires memory whose blocks the table then refuses. -/
theorem Reachable.not_isCutRejected (hr : Reachable limits writable h a) :
    ∀ record ∈ h.log, ¬ record.event.IsCutRejected := by
  induction hr with
  | fresh ha => simp [ofLimits]
  | call r hr ih =>
    intro record hrecord
    rcases (perform_atomic hr.sound.1 r).leads.log_mem record hrecord with hold | hnew
    · exact ih record hold
    · exact hnew
  | write address block _ _ ih => exact ih

/-- A call that fails leaves the table, the regions, the live map, every byte of memory, its size
and the count of its growths as they were. No record of the log tells that memory grew for blocks
that the table refused. -/
theorem failed_call_undone (hr : Reachable limits writable h a) :
    (∀ r e, (h.perform a r).1 = .error e →
      h.Noted (h.perform a r).2.1 ∧ (h.perform a r).2.2 = a) ∧
    ∀ record ∈ h.log, ¬ record.event.IsCutRejected :=
  ⟨fun r => (perform_atomic hr.sound.1 r).undone, hr.not_isCutRejected⟩

/-- The block of the only page after its grant. -/
theorem blocks_onePage {a : Arena} (hbase : a.heapBase = 0) (hsize : a.memory.size = 65536) :
    ((ofLimits ⟨1, 1⟩).perform a (.allocate 10)).2.1.table.blocks = [⟨0, 65536, 0, true⟩] := by
  obtain ⟨h, a', he, -, -, hblocks⟩ := perform_onePage hbase hsize
  rw [he]
  exact hblocks

/-- The only block of the heap cannot grow, so it is marked free, searched for in vain, and marked
used again. -/
theorem failed_call_undone_onePage : ∃ h a, Reachable ⟨1, 1⟩ (fun _ _ _ => True) h a ∧
    (h.perform a (.reallocate (some ⟨0, 4, 65532⟩) 70000)).1 = .error (.exhausted 70004) ∧
    h.Noted (h.perform a (.reallocate (some ⟨0, 4, 65532⟩) 70000)).2.1 := by
  have hstart : Reachable ⟨1, 1⟩ (fun _ _ _ => True) (.ofLimits ⟨1, 1⟩) (.ofBase 0 1) :=
    .fresh (.ofBase 0 1)
  have hr := hstart.call (.allocate 10)
  have hfull : ∀ (h : Heap) (a : Arena), h.limits = ⟨1, 1⟩ → h.regions = [⟨0, 65536, 1⟩] →
      h.table.blocks = [⟨0, 65536, 0, true⟩] →
      (h.perform a (.reallocate (some ⟨0, 4, 65532⟩) 70000)).1 = .error (.exhausted 70004) := by
    intro h a hlimits hregions hblocks
    simp [perform, reallocate, resize, validate, BlockTable.get?, hblocks, blockHeader, wordLimit,
      resizeLive, searchReplacement, BlockTable.setUsed, BlockTable.find?, BlockTable.size,
      BlockTable.firstFit?, BlockTable.grantFrom?, BlockTable.gather?, addRegion, nextRegion,
      hregions, pagesAcquired, hlimits, pagesFor, pageSize, record, Except.map]
  obtain ⟨-, -, hregions⟩ := allocate_onePage rfl size_onePage
  have hfails := hfull _ ((ofLimits ⟨1, 1⟩).perform (.ofBase 0 1) (.allocate 10)).2.2 hr.sound.2
    hregions (blocks_onePage rfl size_onePage)
  exact ⟨_, _, hr, hfails, ((failed_call_undone hr).1 _ _ hfails).1⟩

end Heap
end GuestLibrary
