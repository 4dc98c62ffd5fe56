import GuestLibrary.Proofs.Heap.Accounting

/-! What a call writes to the lifecycle log. No call reads the log, so it writes the same records
whatever the log holds: at first perhaps one of a region that it acquires or fails to acquire, and
at last perhaps one of how it ends. -/
namespace GuestLibrary

namespace HeapEvent

/-- The heap acquired a region, or failed to. -/
def isGrowth : HeapEvent → Bool
  | pageLimit .. | blockLimit .. | growthRefused .. | cutRejected .. | pagesAdded .. => true
  | _ => false

/-- A grant became live. -/
def isGrant : HeapEvent → Bool
  | allocated .. => true
  | _ => false

/-- A grant was given back. -/
def isRelease : HeapEvent → Bool
  | released .. => true
  | _ => false

/-- The event leaves the number of live grants as it is. -/
def IsNeutral (e : HeapEvent) : Prop := e.isGrant = false ∧ e.isRelease = false

end HeapEvent

/-- Used blocks and their bytes. -/
def HeapStats.use (s : HeapStats) : Nat × Nat := (s.active, s.usedBytes)

namespace Heap

/-- The heap with another log. -/
def noting (h : Heap) (l : List HeapRecord) : Heap := { h with log := l }

/-- The record of an event that the heap would write. -/
def stamp (h : Heap) (call : HeapCall) (event : HeapEvent) : HeapRecord :=
  ⟨h.nextDecision, call, event, h.stats⟩

/-- A log, newest record first, once some records were appended, oldest first. -/
def logged (l recs : List HeapRecord) : List HeapRecord :=
  recs.foldl (fun l rec => (rec :: l).take logCapacity) l

/-- The number behind a number of a decision. -/
def nextId (n : Nat) : Nat := (n + 1) % wordLimit

/-- A run from the heap appends records to whatever log it finds, numbers them one by one, and ends
with a result that is the same for all logs. -/
structure Writes {α : Type} (run : Heap → α × Heap × Arena) (h : Heap) (recs : List HeapRecord)
    (x : α) (h' : Heap) (a' : Arena) : Prop where
  run_eq : ∀ l, run (h.noting l) = (x, h'.noting (logged l recs), a')
  numbered : recs.map (·.id) = List.iterate nextId h.nextDecision recs.length
  next_eq : h'.nextDecision = nextId^[recs.length] h.nextDecision

variable {α β : Type} {h h₁ h' : Heap} {a a₁ a' : Arena} {recs : List HeapRecord} {x : α} {y : β}
  {run : Heap → α × Heap × Arena} {run' : Heap → β × Heap × Arena} {call : HeapCall}
  {event : HeapEvent}

namespace Writes

/-- Doing nothing writes nothing. -/
theorem refl (h : Heap) (a : Arena) : Writes (fun h => ((), h, a)) h [] () h a :=
  ⟨fun _ => rfl, rfl, rfl⟩

/-- What goes on without a record. -/
theorem silent (hw : Writes run h recs x h₁ a₁)
    (hrun : ∀ l, run' (h.noting l) = (y, h'.noting (logged l recs), a'))
    (hnext : h'.nextDecision = h₁.nextDecision) : Writes run' h recs y h' a' :=
  ⟨hrun, hw.numbered, hnext.trans hw.next_eq⟩

/-- What goes on with one more record. -/
theorem record (hw : Writes run h recs x h₁ a₁)
    (hrun : ∀ l, run' (h.noting l) = (y, (h'.noting (logged l recs)).record call event, a'))
    (hnext : h'.nextDecision = h₁.nextDecision) :
    Writes run' h (recs ++ [h'.stamp call event]) y (h'.record call event) a' where
  run_eq l := by
    rw [hrun, logged, logged, List.foldl_append]
    rfl
  numbered := by
    rw [List.map_append, hw.numbered, List.length_append, List.iterate_add, ← hw.next_eq, ← hnext]
    rfl
  next_eq := by
    rw [List.length_append, List.length_singleton, Function.iterate_succ_apply', ← hw.next_eq,
      ← hnext]
    rfl

/-- A run that writes one record. -/
theorem single (hrun : ∀ l, run (h.noting l) = (x, (h'.noting l).record call event, a'))
    (hnext : h'.nextDecision = h.nextDecision) :
    Writes run h [h'.stamp call event] x (h'.record call event) a' :=
  (refl h a').record hrun hnext

end Writes

theorem stats_use (h : Heap) : h.stats.use = (h.table.blocks.countP (·.used),
    ((h.table.blocks.filter (·.used)).map (·.size)).sum) := by
  have hcount := (foldl_tally h.table.blocks
    { pages := h.pagesAcquired, descriptors := h.table.size }).2.2.1
  have hbytes := usedBytes_tally h.table.blocks
    { pages := h.pagesAcquired, descriptors := h.table.size }
  rw [Nat.zero_add] at hcount hbytes
  exact Prod.ext hcount hbytes

/-- Free blocks behind the table are not used. -/
theorem use_append {fresh : List Block} (hb : h'.table.blocks = h.table.blocks ++ fresh)
    (hf : ∀ b ∈ fresh, b.used = false) : h'.stats.use = h.stats.use := by
  have hnone : ∀ b ∈ fresh, ¬ b.used = true := fun b hm => by simp [hf b hm]
  rw [stats_use, stats_use, hb, List.countP_append, List.filter_append,
    List.countP_eq_zero.mpr hnone, List.filter_eq_nil_iff.mpr hnone, List.append_nil, Nat.add_zero]

/-- A record of acquiring a region, in the state of the heap. -/
def ShowsGrowth (h : Heap) (rec : HeapRecord) : Prop :=
  rec.event.isGrowth = true ∧ rec.event.IsNeutral ∧ rec.stats.use = h.stats.use

/-- A region that no ceiling refuses. -/
theorem addRegion_of_room {need len grow : Nat} {start : Option Nat}
    (hregion : h.nextRegion a need = (start, len, grow))
    (hpages : ¬ h.limits.maxPages < h.pagesAcquired + pagesFor len)
    (hblocks : ¬ h.table.capacity < h.table.size +
      BlockTable.blocksForRegion len h.limits.blockSize) :
    h.addRegion a call need = match layOut? a start len grow with
      | none => (.error (.exhausted need), h.record call (.growthRefused need grow), a)
      | some (region, a) =>
        match h.table.appendRegion? region.start region.len h.limits.blockSize with
        | none => (.error (.exhausted need),
          h.record call (.cutRejected region.start region.len), a)
        | some ((first, last), table) =>
          (.ok (), { h with table, regions := h.regions ++ [region] }.record call
            (.pagesAdded region.start region.len grow region.pages first last), a) := by
  rw [addRegion_eq, hregion]
  exact (if_neg hpages).trans (if_neg hblocks)

/-- Acquiring a region writes one record, whether it succeeds or not. -/
theorem addRegion_writes (h : Heap) (a : Arena) (call : HeapCall) (need : Nat) :
    ∃ rec x h' a', Writes (·.addRegion a call need) h [rec] x h' a' ∧ h.ShowsGrowth rec := by
  have hrefused : ∀ event a', event.isGrowth = true → event.IsNeutral →
      (∀ l, (h.noting l).addRegion a call need =
        (.error (.exhausted need), (h.noting l).record call event, a')) →
      ∃ rec x h' a', Writes (·.addRegion a call need) h [rec] x h' a' ∧ h.ShowsGrowth rec :=
    fun event a' hgrowth hneutral hrun =>
      ⟨_, _, _, _, Writes.single hrun rfl, hgrowth, hneutral, rfl⟩
  rcases hregion : h.nextRegion a need with ⟨start, len, grow⟩
  have hnext : ∀ l, (h.noting l).nextRegion a need = (start, len, grow) := fun _ => hregion
  by_cases hp : h.limits.maxPages < h.pagesAcquired + pagesFor len
  · refine hrefused (.pageLimit need h.pagesAcquired (pagesFor len) h.limits.maxPages) a rfl
      ⟨rfl, rfl⟩ fun l => ?_
    rw [addRegion_eq, hnext]
    exact if_pos hp
  by_cases hc : h.table.capacity < h.table.size +
      BlockTable.blocksForRegion len h.limits.blockSize
  · refine hrefused (.blockLimit need h.table.size
      (BlockTable.blocksForRegion len h.limits.blockSize) h.table.capacity) a rfl ⟨rfl, rfl⟩
      fun l => ?_
    rw [addRegion_eq, hnext]
    exact (if_neg hp).trans (if_pos hc)
  cases hplace : layOut? a start len grow with
  | none =>
    refine hrefused (.growthRefused need grow) a rfl ⟨rfl, rfl⟩ fun l => ?_
    rw [addRegion_of_room (hnext l) hp hc, hplace]
  | some placed =>
    obtain ⟨region, a'⟩ := placed
    have hfits : ∀ l, (h.noting l).table.appendRegion? region.start region.len
      (h.noting l).limits.blockSize =
        h.table.appendRegion? region.start region.len h.limits.blockSize := fun _ => rfl
    cases htable : h.table.appendRegion? region.start region.len h.limits.blockSize with
    | none =>
      refine hrefused (.cutRejected region.start region.len) a' rfl ⟨rfl, rfl⟩ fun l => ?_
      rewrite [addRegion_of_room (hnext l) hp hc, hplace]
      dsimp only
      rewrite [hfits, htable]
      rfl
    | some appended =>
      obtain ⟨⟨first, last⟩, table⟩ := appended
      have hrun : ∀ l, (h.noting l).addRegion a call need =
          (.ok (), ({ h with table, regions := h.regions ++ [region] }.noting l).record call
            (.pagesAdded region.start region.len grow region.pages first last), a') := by
        intro l
        rewrite [addRegion_of_room (hnext l) hp hc, hplace]
        dsimp only
        rewrite [hfits, htable]
        rfl
      refine ⟨_, _, _, _, Writes.single hrun rfl, rfl, ⟨rfl, rfl⟩, ?_⟩
      exact use_append (BlockTable.appendRegion?_eq_some htable).1
        (by simp [BlockTable.cut, Block.free])

/-- A run that acquires a region and searches the table writes the record of the region. -/
theorem writes_of_addRegion (a : Arena) (call : HeapCall) (need : Nat) (refuse : AllocError → β)
    (accept : Grant → β) (fail : β)
    (hrun : ∀ l, run' (h.noting l) = match (h.noting l).addRegion a call need with
      | (.error e, h, a) => (refuse e, h, a)
      | (.ok (), h, a) => match h.table.find? 0 h.table.size need with
        | some (grant, table) => (accept grant, { h with table }, a)
        | none => (fail, h, a)) :
    ∃ growth y h' a', Writes run' h (Option.toList growth) y h' a' ∧
      ∀ rec ∈ growth, h.ShowsGrowth rec := by
  obtain ⟨rec, x, h₁, a₁, hw, hrec⟩ := addRegion_writes h a call need
  have hregion : ∀ l, (h.noting l).addRegion a call need = _ := hw.run_eq
  simp only [hregion] at hrun
  have hshows : ∀ r ∈ some rec, h.ShowsGrowth r := by
    rintro r ⟨⟩
    exact hrec
  cases x with
  | error e => exact ⟨some rec, _, _, _, hw.silent hrun rfl, hshows⟩
  | ok =>
    have hsearch : ∀ l, (h₁.noting l).table.find? 0 (h₁.noting l).table.size need =
      h₁.table.find? 0 h₁.table.size need := fun _ => rfl
    simp only [hsearch] at hrun
    cases hfind : h₁.table.find? 0 h₁.table.size need with
    | none =>
      simp only [hfind] at hrun
      exact ⟨some rec, _, _, _, hw.silent hrun rfl, hshows⟩
    | some found =>
      simp only [hfind] at hrun
      exact ⟨some rec, _, { h₁ with table := found.2 }, _, hw.silent hrun rfl, hshows⟩

/-- A search writes no record but that of a region. -/
theorem searchGrowing_writes (h : Heap) (a : Arena) (call : HeapCall) (need : Nat) :
    ∃ growth x h' a', Writes (·.searchGrowing a call need) h (Option.toList growth) x h' a' ∧
      ∀ rec ∈ growth, h.ShowsGrowth rec := by
  cases hfirst : h.table.find? 0 h.table.size need with
  | some found =>
    have hrun : ∀ l, (h.noting l).searchGrowing a call need =
        (.ok found.1, { h with table := found.2 }.noting l, a) := by
      intro l
      have hfind : (h.noting l).table.find? 0 (h.noting l).table.size need = some found := hfirst
      rw [searchGrowing, hfind]
      rfl
    exact ⟨none, _, _, _, (Writes.refl h a).silent hrun rfl, by simp⟩
  | none =>
    refine writes_of_addRegion a call need .error .ok (.error (.exhausted need)) fun l => ?_
    have hfind : (h.noting l).table.find? 0 (h.noting l).table.size need = none := hfirst
    rewrite [searchGrowing, hfind]
    rfl

/-- The records of a call: at first perhaps one of a region, in the state of the heap that was
searched, and at last perhaps one of how the call ended, in the state that it ended in. -/
structure Tells (searched ended : Heap) (growth closing : Option HeapRecord) : Prop where
  growing : ∀ rec ∈ growth, searched.ShowsGrowth rec
  closed : ∀ rec ∈ closing, rec.event.isGrowth = false ∧ rec.stats = ended.stats

theorem Tells.stamp {growth : Option HeapRecord} (hg : ∀ rec ∈ growth, h.ShowsGrowth rec)
    (h' : Heap) (call : HeapCall) (hevent : event.isGrowth = false) :
    Tells h (h'.record call event) growth (some (h'.stamp call event)) :=
  ⟨hg, by rintro rec ⟨⟩; exact ⟨hevent, rfl⟩⟩

theorem Tells.silent {growth : Option HeapRecord} (hg : ∀ rec ∈ growth, h.ShowsGrowth rec)
    (h' : Heap) : Tells h h' growth none :=
  ⟨hg, by simp⟩

/-- An allocation ends with the record of its grant, or with none of a grant. -/
def AllocationEnds (size : Nat) (closing : Option HeapRecord) :
    Except AllocError Allocation → Prop
  | .ok g => ∃ rec split merged, closing = some rec ∧
      rec.event = .allocated g.address size g.block split merged
  | .error _ => ∀ rec ∈ closing, rec.event.IsNeutral

/-- How an allocation goes on from its search. -/
theorem allocateFor_of_search {size : Nat} {found : Except AllocError Grant}
    (hword : ¬ wordLimit ≤ size + blockHeader) :
    h.searchGrowing a call (size + blockHeader) = (found, h₁, a₁) →
    h.allocateFor a call size = match found with
      | .error e => (.error e, h₁.record call (.exhausted size (size + blockHeader)), a₁)
      | .ok grant => match h₁.table.get? grant.id with
        | none => (.error (.exhausted (size + blockHeader)), h₁, a₁)
        | some b => (.ok (.ofBlock grant.id b),
          { h₁ with live := LiveGrants.insert (b.start + blockHeader) grant.id h₁.live }.record call
            (.allocated (b.start + blockHeader) size grant.id grant.split grant.merged),
          a₁.write b.start (headerBytes grant.id)) := by
  intro hsearch
  rw [allocateFor, if_neg hword, hsearch]
  cases found with
  | error e => rfl
  | ok grant =>
    dsimp only [commit?]
    cases h₁.table.get? grant.id <;> rfl

theorem allocateFor_writes (h : Heap) (a : Arena) (call : HeapCall) (size : Nat) :
    ∃ growth closing x h' a',
      Writes (·.allocateFor a call size) h (Option.toList growth ++ Option.toList closing) x h' a' ∧
      Tells h h' growth closing ∧ AllocationEnds size closing x := by
  by_cases hword : wordLimit ≤ size + blockHeader
  · have hrun : ∀ l, (h.noting l).allocateFor a call size =
        (.error .overflow, (h.noting l).record call (.sizeOverflow size), a) :=
      fun l => if_pos hword
    refine ⟨none, _, _, _, _, Writes.single hrun rfl, Tells.stamp (by simp) h call rfl, ?_⟩
    rintro rec ⟨⟩
    exact ⟨rfl, rfl⟩
  obtain ⟨growth, x, h₁, a₁, hw, hgrowth⟩ := searchGrowing_writes h a call (size + blockHeader)
  have hsearch : ∀ l, (h.noting l).searchGrowing a call (size + blockHeader) =
    (x, h₁.noting (logged l growth.toList), a₁) := hw.run_eq
  have hsearched := fun l => allocateFor_of_search hword (hsearch l)
  cases x with
  | error e =>
    refine ⟨growth, _, _, _, _, hw.record hsearched rfl, Tells.stamp hgrowth h₁ call rfl, ?_⟩
    rintro rec ⟨⟩
    exact ⟨rfl, rfl⟩
  | ok grant =>
    have hblock : ∀ l, (h₁.noting l).table.get? grant.id = h₁.table.get? grant.id := fun _ => rfl
    simp only [hblock] at hsearched
    cases hget : h₁.table.get? grant.id with
    | none =>
      simp only [hget] at hsearched
      have hsilent : Writes (·.allocateFor a call size) h growth.toList _ _ _ :=
        hw.silent hsearched rfl
      rw [← List.append_nil growth.toList] at hsilent
      exact ⟨growth, none, _, _, _, hsilent, Tells.silent hgrowth _, by simp [AllocationEnds]⟩
    | some b =>
      simp only [hget] at hsearched
      have hgranted : ∀ l, (h.noting l).allocateFor a call size = (.ok (.ofBlock grant.id b),
          ({ h₁ with live := LiveGrants.insert (b.start + blockHeader) grant.id h₁.live }.noting
            (logged l growth.toList)).record call
              (.allocated (b.start + blockHeader) size grant.id grant.split grant.merged),
          a₁.write b.start (headerBytes grant.id)) := hsearched
      refine ⟨growth, some _, _, _, _, hw.record hgranted (by rfl), ?_, ?_⟩
      · exact Tells.stamp hgrowth _ call rfl
      · exact ⟨_, _, _, rfl, rfl⟩

theorem allocateZeroed_writes (h : Heap) (a : Arena) (count size : Nat) :
    ∃ growth closing x h' a',
      Writes (·.allocateZeroed a count size) h (Option.toList growth ++ Option.toList closing)
        x h' a' ∧
      Tells h h' growth closing ∧ AllocationEnds (count * size) closing x := by
  by_cases hword : wordLimit ≤ count * size
  · have hrun : ∀ l, (h.noting l).allocateZeroed a count size =
        (.error .overflow, (h.noting l).record .calloc (.productOverflow count size), a) :=
      fun l => if_pos hword
    refine ⟨none, _, _, _, _, Writes.single hrun rfl, Tells.stamp (by simp) h .calloc rfl, ?_⟩
    rintro rec ⟨⟩
    exact ⟨rfl, rfl⟩
  obtain ⟨growth, closing, x, h', a', hw, htells, hends⟩ :=
    allocateFor_writes h a .calloc (count * size)
  have hallocate : ∀ l, (h.noting l).allocateFor a .calloc (count * size) =
    (x, h'.noting (logged l (growth.toList ++ closing.toList)), a') := hw.run_eq
  cases x with
  | error e =>
    refine ⟨growth, closing, .error e, h', a', hw.silent (fun l => ?_) rfl, htells, hends⟩
    rw [allocateZeroed, if_neg hword, hallocate]
  | ok g =>
    refine ⟨growth, closing, .ok g, h', a'.write g.address (List.replicate g.length 0),
      hw.silent (fun l => ?_) rfl, htells, hends⟩
    rw [allocateZeroed, if_neg hword, hallocate]

/-- A release ends with its record if it succeeds, and with none of a release if not. -/
def ReleaseEnds (closing : HeapRecord) : Except AllocError Unit → Prop
  | .ok () => closing.event.isRelease = true ∧ closing.event.isGrant = false
  | .error _ => closing.event.IsNeutral

theorem release_writes (h : Heap) (a : Arena) (grant : Allocation) : ∃ rec x h',
    Writes (fun h => ((h.release grant).1, (h.release grant).2, a)) h [rec] x h' a ∧
    Tells h h' none (some rec) ∧ ReleaseEnds rec x ∧
    (x = .ok () → rec.event = .released grant.address grant.length grant.block) := by
  cases hv : h.validate .free grant with
  | error d =>
    have hrun : ∀ l, (h.noting l).release grant = (.error (.misuse d),
        (h.noting l).record .free (.rejected d grant.address none (some grant.block))) := by
      intro l
      have hinvalid : (h.noting l).validate .free grant = .error d := hv
      rw [release, hinvalid]
    exact ⟨_, .error (.misuse d), _, Writes.single (fun l => by rw [hrun]) rfl,
      Tells.stamp (by simp) h .free rfl, ⟨rfl, rfl⟩, by simp⟩
  | ok b =>
    have hrun : ∀ l, (h.noting l).release grant = (.ok (), ({ h with
        table := h.table.setUsed grant.block false
        live := LiveGrants.erase h.live grant.address }.noting l).record .free
          (.released grant.address grant.length grant.block)) := by
      intro l
      have hvalid : (h.noting l).validate .free grant = .ok b := hv
      rw [release, hvalid]
      rfl
    refine ⟨_, .ok (), _, Writes.single (fun l => by rw [hrun]) (by rfl), ?_, ⟨rfl, rfl⟩,
      fun _ => rfl⟩
    exact Tells.stamp (by simp) _ .free rfl

theorem releaseAddress_writes (h : Heap) (a : Arena) (address : Nat) : ∃ rec x h',
    Writes (fun h => ((h.releaseAddress address).1, (h.releaseAddress address).2, a)) h [rec]
      x h' a ∧
    Tells h h' none (some rec) ∧
    if address = 0 then rec.event.IsNeutral else ReleaseEnds rec x := by
  by_cases hzero : address = 0
  · subst hzero
    have hrun : ∀ l, (h.noting l).releaseAddress 0 =
      (.ok (), (h.noting l).record .free .releasedNull) := fun l => rfl
    exact ⟨_, _, _, Writes.single (fun l => by rw [hrun]) rfl, Tells.stamp (by simp) h .free rfl,
      rfl, rfl⟩
  simp only [if_neg hzero]
  cases hl : h.lookup .free address with
  | error d =>
    have hrun : ∀ l, (h.noting l).releaseAddress address = (.error (.misuse d),
        (h.noting l).record .free (.rejected d address none none)) := by
      intro l
      have hnone : (h.noting l).lookup .free address = .error d := hl
      rw [releaseAddress, if_neg hzero, hnone]
    exact ⟨_, .error (.misuse d), _, Writes.single (fun l => by rw [hrun]) rfl,
      Tells.stamp (by simp) h .free rfl, rfl, rfl⟩
  | ok grant =>
    obtain ⟨rec, x, h', hw, htells, hends, -⟩ := release_writes h a grant
    have hrun : ∀ l, (h.noting l).releaseAddress address = (h.noting l).release grant := by
      intro l
      have hfound : (h.noting l).lookup .free address = .ok grant := hl
      rw [releaseAddress, if_neg hzero, hfound]
    refine ⟨rec, x, h', hw.silent (fun l => ?_) rfl, htells, hends⟩
    rw [hrun]
    exact hw.run_eq l

/-- A search for a block in place of another writes no record but that of a region. -/
theorem searchReplacement_writes (h : Heap) (a : Arena) (block need : Nat) :
    ∃ growth x h' a', Writes (·.searchReplacement a block need) h (Option.toList growth) x h' a' ∧
      ∀ rec ∈ growth, h.ShowsGrowth rec := by
  cases hforward : h.table.find? block h.table.size need with
  | some found =>
    have hrun : ∀ l, (h.noting l).searchReplacement a block need =
        (some (found.1, .forward), { h with table := found.2 }.noting l, a) := by
      intro l
      have hfind : (h.noting l).table.find? block (h.noting l).table.size need = some found :=
        hforward
      rw [searchReplacement, hfind]
      rfl
    exact ⟨none, _, _, _, (Writes.refl h a).silent hrun rfl, by simp⟩
  | none =>
    have hfind : ∀ l, (h.noting l).table.find? block (h.noting l).table.size need = none :=
      fun _ => hforward
    cases hfull : h.table.find? 0 h.table.size need with
    | some found =>
      have hrun : ∀ l, (h.noting l).searchReplacement a block need =
          (some (found.1, .fullScan), { h with table := found.2 }.noting l, a) := by
        intro l
        have hagain : (h.noting l).table.find? 0 (h.noting l).table.size need = some found := hfull
        rw [searchReplacement, hfind, hagain]
        rfl
      exact ⟨none, _, _, _, (Writes.refl h a).silent hrun rfl, by simp⟩
    | none =>
      refine writes_of_addRegion a .realloc need (fun _ => none)
        (fun grant => some (grant, .grown)) none fun l => ?_
      have hagain : (h.noting l).table.find? 0 (h.noting l).table.size need = none := hfull
      rewrite [searchReplacement, hfind, hagain]
      rfl

/-- The heap while it resizes the grant of a block: the block is free for the search. -/
def suspending (h : Heap) (block : Nat) : Heap := { h with table := h.table.setUsed block false }

/-- How the resize of a live grant goes on from its search. -/
theorem resizeLive_of_search {current : Allocation} {old : Block} {size need : Nat}
    {found : Option (Grant × SearchWindow)} :
    (h.suspending current.block).searchReplacement a current.block need = (found, h₁, a₁) →
    h.resizeLive a current old size need = match found with
      | none => (.error (.exhausted need),
        { h₁ with table := h₁.table.setUsed current.block true }.record .realloc
          (.resizeExhausted current.address size current.block need), a₁)
      | some (grant, window) => match h₁.table.get? grant.id with
        | none => (.error (.exhausted need), h₁, a₁)
        | some b => (.ok (.ofBlock grant.id b),
          { h₁ with
            live := (LiveGrants.erase h₁.live current.address).insert
              (b.start + blockHeader) grant.id }.record .realloc
            (.moved (b.start + blockHeader) size grant.id current.address current.block window
              (min (old.size - blockHeader) size) grant.split),
          (a₁.copyWithin current.address (min (old.size - blockHeader) size)
            (b.start + blockHeader)).write b.start (headerBytes grant.id)) := by
  intro hsearch
  unfold suspending at hsearch
  rw [resizeLive, hsearch]
  cases found with
  | none => rfl
  | some found =>
    dsimp only [commit?]
    cases h₁.table.get? found.1.id <;> rfl

/-- A resize writes no record of a grant or a release. The record of a region shows the heap without
the block that is resized. -/
theorem resizeLive_writes (h : Heap) (a : Arena) (current : Allocation) (old : Block)
    (size need : Nat) : ∃ growth closing x h' a',
      Writes (·.resizeLive a current old size need) h
        (Option.toList growth ++ Option.toList closing) x h' a' ∧
      Tells (h.suspending current.block) h' growth closing ∧
      ∀ rec ∈ closing, rec.event.IsNeutral := by
  obtain ⟨growth, x, h₁, a₁, hfreed, hgrowth⟩ :=
    searchReplacement_writes (h.suspending current.block) a current.block need
  have hw : Writes (fun h => (h.suspending current.block).searchReplacement a current.block need) h
      growth.toList x h₁ a₁ := ⟨hfreed.run_eq, hfreed.numbered, hfreed.next_eq⟩
  have hsearched := fun l => @resizeLive_of_search _ _ _ _ current old size need x (hw.run_eq l)
  cases x with
  | none =>
    have hkept : ∀ l, (h.noting l).resizeLive a current old size need = (.error (.exhausted need),
        ({ h₁ with table := h₁.table.setUsed current.block true }.noting
          (logged l growth.toList)).record .realloc
            (.resizeExhausted current.address size current.block need), a₁) := hsearched
    refine ⟨growth, some _, _, _, _, hw.record hkept (by rfl), ?_, ?_⟩
    · exact Tells.stamp hgrowth _ .realloc rfl
    · rintro rec ⟨⟩
      exact ⟨rfl, rfl⟩
  | some found =>
    obtain ⟨grant, window⟩ := found
    have hblock : ∀ l, (h₁.noting l).table.get? grant.id = h₁.table.get? grant.id := fun _ => rfl
    simp only [hblock] at hsearched
    cases hget : h₁.table.get? grant.id with
    | none =>
      simp only [hget] at hsearched
      have hsilent : Writes (·.resizeLive a current old size need) h growth.toList _ _ _ :=
        hw.silent hsearched rfl
      rw [← List.append_nil growth.toList] at hsilent
      exact ⟨growth, none, _, _, _, hsilent, Tells.silent hgrowth _, by simp⟩
    | some b =>
      simp only [hget] at hsearched
      have hmoved : ∀ l, (h.noting l).resizeLive a current old size need =
          (.ok (.ofBlock grant.id b), ({ h₁ with
            live := (LiveGrants.erase h₁.live current.address).insert
              (b.start + blockHeader) grant.id }.noting (logged l growth.toList)).record
            .realloc (.moved (b.start + blockHeader) size grant.id current.address current.block
              window (min (old.size - blockHeader) size) grant.split), _) := hsearched
      refine ⟨growth, some _, _, _, _, hw.record hmoved (by rfl), ?_, ?_⟩
      · exact Tells.stamp hgrowth _ .realloc rfl
      · rintro rec ⟨⟩
        exact ⟨rfl, rfl⟩

theorem resize_writes (h : Heap) (a : Arena) (current : Allocation) (size : Nat) :
    ∃ growth closing x h' a',
      Writes (·.resize a current size) h (Option.toList growth ++ Option.toList closing) x h' a' ∧
      Tells (h.suspending current.block) h' growth closing ∧
      (growth ≠ none → ∃ old, h.validate .realloc current = .ok old) ∧
      ∀ rec ∈ closing, rec.event.IsNeutral := by
  cases hv : h.validate .realloc current with
  | error d =>
    have hrun : ∀ l, (h.noting l).resize a current size = (.error (.misuse d),
        (h.noting l).record .realloc
          (.rejected d current.address (some size) (some current.block)), a) := by
      intro l
      have hinvalid : (h.noting l).validate .realloc current = .error d := hv
      rw [resize, hinvalid]
    refine ⟨none, some _, _, _, _, Writes.single hrun rfl, ?_, by simp, ?_⟩
    · exact Tells.stamp (by simp) h .realloc rfl
    · rintro rec ⟨⟩
      exact ⟨rfl, rfl⟩
  | ok old =>
    have hvalid : ∀ l, (h.noting l).validate .realloc current = .ok old := fun _ => hv
    by_cases hword : wordLimit ≤ size + blockHeader
    · have hrun : ∀ l, (h.noting l).resize a current size = (.error .overflow, h.noting l, a) := by
        intro l
        rw [resize, hvalid]
        exact if_pos hword
      exact ⟨none, none, _, _, _, (Writes.refl h a).silent hrun rfl, Tells.silent (by simp) _,
        by simp, by simp⟩
    by_cases hfits : size + blockHeader ≤ old.size
    · have hrun : ∀ l, (h.noting l).resize a current size = (.ok current,
          (h.noting l).record .realloc (.fits current.address size current.block old.size), a) := by
        intro l
        rw [resize, hvalid]
        exact (if_neg hword).trans (if_pos hfits)
      refine ⟨none, some _, _, _, _, Writes.single hrun rfl, ?_, by simp, ?_⟩
      · exact Tells.stamp (by simp) h .realloc rfl
      · rintro rec ⟨⟩
        exact ⟨rfl, rfl⟩
    · obtain ⟨growth, closing, x, h', a', hw, htells, hneutral⟩ :=
        resizeLive_writes h a current old size (size + blockHeader)
      refine ⟨growth, closing, x, h', a', hw.silent (fun l => ?_) rfl, htells, fun _ => ⟨old, rfl⟩,
        hneutral⟩
      rw [resize, hvalid]
      exact ((if_neg hword).trans (if_neg hfits)).trans (hw.run_eq l)

end Heap
end GuestLibrary
