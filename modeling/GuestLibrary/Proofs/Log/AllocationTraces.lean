import GuestLibrary.Log.AllocationTrace
import GuestLibrary.Proofs.Conformance.Allocations
import GuestLibrary.Proofs.Heap.Snapshots
import GuestLibrary.Proofs.Json.RoundTrip

/-! The log of allocating sizes in order and freeing the grants in reverse. As long as the log has
room for all records, an allocation adds at most one of a region and one of its end, and a release
adds its own; every grant stays live until its turn comes, so all releases succeed and at the end
nothing is live. -/
namespace GuestLibrary

namespace Heap

variable {h h' : Heap} {a a' : Arena} {past recs : List HeapRecord}

/-- A heap whose log has kept all records since the first one. -/
structure Chronicled (h : Heap) (a : Arena) (past : List HeapRecord) : Prop where
  sound : h.Sound a
  log_eq : h.log = past.reverse
  numbered : past.map (·.id) = List.iterate nextId 1 past.length
  next_eq : h.nextDecision = nextId^[past.length] 1

namespace Chronicled

theorem ofLimits (limits : HeapLimits) (ha : a.heapBase < a.memory.size) :
    (Heap.ofLimits limits).Chronicled a [] :=
  ⟨sound_ofLimits limits ha, rfl, rfl, rfl⟩

/-- A run whose records have room in the log. -/
theorem extend {α : Type} {x : α} {run : Heap → α × Heap × Arena} (hc : h.Chronicled a past)
    (hw : Writes run h recs x h' a') (hs : (run h).2.1.Sound (run h).2.2)
    (hroom : past.length + recs.length ≤ logCapacity) :
    (run h).2.1.Chronicled (run h).2.2 (past ++ recs) := by
  have hrun : run h = (x, h'.noting _, a') := hw.run_eq h.log
  have hshort : h.log.length ≤ logCapacity := by
    rw [hc.log_eq, List.length_reverse]
    omega
  have hlog : logged h.log recs = (past ++ recs).reverse := by
    rw [logged_eq hshort, hc.log_eq, List.reverse_append, List.take_of_length_le]
    simp only [List.length_append, List.length_reverse]
    omega
  refine ⟨hs, ?_, ?_, ?_⟩
  · rw [hrun]
    exact hlog
  · rw [List.map_append, List.length_append, List.iterate_add, hc.numbered, hw.numbered, hc.next_eq]
  · rw [hrun, List.length_append, Nat.add_comm, Function.iterate_add_apply, ← hc.next_eq]
    exact hw.next_eq

/-- An allocation adds at most two records, one of them of a grant if it makes one. -/
theorem allocate (hc : h.Chronicled a past) (size : Nat)
    (hroom : past.length + 2 ≤ logCapacity) : ∃ recs, recs.length ≤ 2 ∧
      (h.allocate a size).2.1.Chronicled (h.allocate a size).2.2 (past ++ recs) ∧
      (h.allocate a size).2.1.liveAllocations.Perm
        ((h.allocate a size).1.toOption.toList ++ h.liveAllocations) ∧
      granted recs = (h.allocate a size).1.toOption.toList.length ∧ released recs = 0 := by
  obtain ⟨growth, closing, x, h', a', hw, htells, hends⟩ := allocateFor_writes h a .malloc size
  have hrun : h.allocate a size = (x, h'.noting _, a') := hw.run_eq h.log
  have hlength : (growth.toList ++ closing.toList).length ≤ 2 := by
    cases growth <;> cases closing <;> simp
  obtain ⟨hgrants, hreleases⟩ := counts_of_neutral fun rec hrec => (htells.growing rec hrec).2.1
  have hsound : (h.allocate a size).2.1.Sound (h.allocate a size).2.2 :=
    Sound.perform hc.sound (.allocate size)
  refine ⟨_, hlength, hc.extend hw hsound (by omega), ?_⟩
  rw [granted_append, released_append, hgrants, hreleases]
  obtain ⟨id, b, h₁, a₁, he, -, hstep⟩ | ⟨e, h₁, a₁, he, -, hstep⟩ :=
    allocateFor_cases hc.sound .malloc size
  · have hallocate : h.allocate a size = (.ok (.ofBlock id b), h₁, a₁) := he
    obtain rfl : x = .ok (.ofBlock id b) := congrArg (·.1) (hrun.symm.trans hallocate)
    obtain ⟨rec, split, merged, rfl, hevent⟩ := hends
    rw [hallocate]
    refine ⟨hstep.perm_granted hc.sound, ?_, ?_⟩
    · simp [granted, hevent, HeapEvent.isGrant, Except.toOption]
    · simp [released, hevent, HeapEvent.isRelease]
  · have hallocate : h.allocate a size = (.error e, h₁, a₁) := he
    obtain rfl : x = .error e := congrArg (·.1) (hrun.symm.trans hallocate)
    obtain ⟨hclosing, hclosing'⟩ := counts_of_neutral hends
    rw [hallocate, hclosing, hclosing']
    exact ⟨hstep.perm_kept hc.sound, rfl, rfl⟩

/-- A release of a live grant adds its record, which shows the heap without the grant. -/
theorem release (hc : h.Chronicled a past) {g : Allocation} (hg : g ∈ h.liveAllocations)
    (hroom : past.length + 1 ≤ logCapacity) : ∃ rec,
      rec.event = .released g.address g.length g.block ∧
      rec.stats.use = (h.release g).2.stats.use ∧
      (h.release g).2.Chronicled a (past ++ [rec]) ∧
      (h.release g).2.liveAllocations.Perm (h.liveAllocations.erase g) := by
  obtain ⟨rec, x, h', hw, htells, -, hreleased⟩ := release_writes h a g
  obtain ⟨b, hb, hgb⟩ := (mem_liveAllocations hc.sound).mp hg
  have haddress : g.address = b.start + blockHeader := by rw [hgb]; rfl
  obtain ⟨c, h₁, -, -, he, hstep⟩ | ⟨d, h₁, hnot, -, -⟩ := release_cases hc.sound g
  · have hx : (h.release g).1 = x := congrArg (·.1) (hw.run_eq h.log)
    have hended : (h.release g).2 = h'.noting _ := congrArg (·.2.1) (hw.run_eq h.log)
    rw [he] at hx hended
    refine ⟨rec, hreleased hx.symm, ?_, hc.extend hw ?_ hroom, ?_⟩
    · rw [he, (htells.closed rec rfl).2]
      dsimp only at hended ⊢
      rw [hended]
      rfl
    · dsimp only
      rw [he]
      exact hstep.sound
    · rw [he]
      exact hstep.perm_released hc.sound hg
  · exact absurd haddress (hnot b hb)

end Chronicled
end Heap

namespace Guest

variable {g : Guest} {past : List HeapRecord}

theorem malloc_fst (g : Guest) (size : Nat) :
    (g.malloc size).1 = (g.heap.allocateFor g.host.arena .malloc size).1.toOption :=
  g.onHeap_fst fun h a => h.allocate a size

/-- The program holds a chronicled heap. -/
def Chronicled (g : Guest) (past : List HeapRecord) : Prop :=
  g.heap.Chronicled g.host.arena past

theorem Chronicled.malloc (hc : g.Chronicled past) (size : Nat)
    (hroom : past.length + 2 ≤ Heap.logCapacity) : ∃ recs, recs.length ≤ 2 ∧
      (g.malloc size).2.Chronicled (past ++ recs) ∧
      (g.malloc size).2.heap.liveAllocations.Perm
        ((g.malloc size).1.toList ++ g.heap.liveAllocations) ∧
      Heap.granted recs = (g.malloc size).1.toList.length ∧ Heap.released recs = 0 := by
  obtain ⟨hheap, harena⟩ := g.onHeap_snd fun h a => h.allocate a size
  rw [malloc_fst]
  unfold Chronicled Guest.malloc
  rw [hheap, harena]
  exact Heap.Chronicled.allocate hc size hroom

theorem Chronicled.free (hc : g.Chronicled past) {x : Allocation}
    (hx : x ∈ g.heap.liveAllocations) (hroom : past.length + 1 ≤ Heap.logCapacity) : ∃ rec,
      rec.event = .released x.address x.length x.block ∧
      rec.stats.use = (g.free x).heap.stats.use ∧ (g.free x).Chronicled (past ++ [rec]) ∧
      (g.free x).heap.liveAllocations.Perm (g.heap.liveAllocations.erase x) := by
  obtain ⟨hheap, harena⟩ := g.onHeap_snd fun h a => ((h.release x).1, (h.release x).2, a)
  unfold Chronicled Guest.free
  dsimp only
  rw [hheap, harena]
  exact Heap.Chronicled.release hc hx hroom

end Guest

namespace Log

open Heap (granted released)

variable {g : Guest} {past : List HeapRecord}

/-- What a program is granted of sizes that it allocates in order. -/
def served (g : Guest) : List Nat → List Allocation
  | [] => []
  | size :: sizes => (g.malloc size).1.toList ++ served (g.malloc size).2 sizes

theorem allocateNext_eq (grants : List Allocation) (g : Guest) (size : Nat) :
    allocateNext (grants, g) size =
      ((g.malloc size).1.toList ++ grants, (g.malloc size).2) := rfl

theorem foldl_allocateNext (sizes : List Nat) (grants : List Allocation) (g : Guest) :
    (sizes.foldl allocateNext (grants, g)).1 = (served g sizes).reverse ++ grants := by
  induction sizes generalizing grants g with
  | nil => rfl
  | cons size sizes ih =>
    rw [List.foldl_cons, allocateNext_eq, ih, served, List.reverse_append, List.append_assoc]
    generalize (g.malloc size).1 = grant
    cases grant <;> rfl

theorem length_served_le (sizes : List Nat) (g : Guest) :
    (served g sizes).length ≤ sizes.length := by
  induction sizes generalizing g with
  | nil => exact Nat.le_refl _
  | cons size sizes ih =>
    have hrest := ih (g.malloc size).2
    have hgrant : (g.malloc size).1.toList.length ≤ 1 := Option.length_toList_le
    rw [served, List.length_append, List.length_cons]
    omega

/-- Allocating sizes in order, with the grants kept newest first. -/
theorem chronicled_allocations (sizes : List Nat) {grants : List Allocation}
    (hc : g.Chronicled past) (hlive : g.heap.liveAllocations.Perm grants)
    (hroom : past.length + 2 * sizes.length ≤ Heap.logCapacity) :
    ∃ recs, recs.length ≤ 2 * sizes.length ∧
      (sizes.foldl allocateNext (grants, g)).2.Chronicled (past ++ recs) ∧
      (sizes.foldl allocateNext (grants, g)).2.heap.liveAllocations.Perm
        (sizes.foldl allocateNext (grants, g)).1 ∧
      granted recs + grants.length = (sizes.foldl allocateNext (grants, g)).1.length ∧
      released recs = 0 := by
  induction sizes generalizing g grants past with
  | nil => exact ⟨[], Nat.le_refl _, by rwa [List.append_nil], hlive, Nat.zero_add _, rfl⟩
  | cons size sizes ih =>
    rw [List.length_cons] at hroom
    rw [List.foldl_cons, allocateNext_eq]
    obtain ⟨recs, hlength, hstep, hperm, hgranted, hreleased⟩ := hc.malloc size (by omega)
    obtain ⟨rest, hrest, hrun, hlast, hcount, hnone⟩ :=
      ih hstep (hperm.trans (hlive.append_left _))
        (by rw [List.length_append]; omega)
    refine ⟨recs ++ rest, ?_, by rwa [← List.append_assoc], hlast, ?_, ?_⟩
    · rw [List.length_append, List.length_cons]
      omega
    · rw [List.length_append] at hcount
      rw [Heap.granted_append]
      omega
    · rw [Heap.released_append, hreleased, hnone]

/-- Records of releases, one for each of some grants. -/
def Releases (recs : List HeapRecord) (grants : List Allocation) : Prop :=
  recs.map (·.event) = grants.map fun x => .released x.address x.length x.block

/-- Freeing all live grants in some order. -/
theorem chronicled_releases (grants : List Allocation) (hc : g.Chronicled past)
    (hlive : g.heap.liveAllocations.Perm grants)
    (hroom : past.length + grants.length ≤ Heap.logCapacity) :
    ∃ recs, (grants.foldl Guest.free g).Chronicled (past ++ recs) ∧
      Releases recs grants ∧ (grants.foldl Guest.free g).heap.liveAllocations = [] ∧
      ∀ rec, recs.getLast? = some rec → rec.stats.use =
        (grants.foldl Guest.free g).heap.stats.use := by
  induction grants generalizing g past with
  | nil => exact ⟨[], by rwa [List.append_nil], rfl, hlive.eq_nil, by simp⟩
  | cons x grants ih =>
    rw [List.length_cons] at hroom
    have hx : x ∈ g.heap.liveAllocations := hlive.mem_iff.mpr (List.mem_cons_self ..)
    obtain ⟨rec, hevent, huse, hstep, hperm⟩ := hc.free hx (by omega)
    have hleft : (g.free x).heap.liveAllocations.Perm grants := by
      have herase := hperm.trans (hlive.erase x)
      rwa [List.erase_cons_head] at herase
    obtain ⟨recs, hrun, hevents, hnone, hlast⟩ :=
      ih hstep hleft (by rw [List.length_append, List.length_singleton]; omega)
    refine ⟨rec :: recs, by rwa [← List.append_cons] at hrun, ?_, hnone, fun last hl => ?_⟩
    · rw [Releases, List.map_cons, List.map_cons, hevent, hevents]
    · cases hr : recs with
      | nil =>
        obtain rfl : grants = [] := List.map_eq_nil_iff.mp (by rw [← hevents, hr]; rfl)
        rw [hr] at hl
        obtain rfl : rec = last := Option.some.inj hl
        exact huse
      | cons next rest =>
        rw [hr, List.getLast?_cons_cons, ← hr] at hl
        exact hlast last hl

/-- No release is a grant, and each is one release. -/
theorem Releases.counts {recs : List HeapRecord} {grants : List Allocation}
    (hr : Releases recs grants) : granted recs = 0 ∧ released recs = grants.length := by
  have hcount : ∀ p : HeapEvent → Bool, recs.countP (p ·.event) =
      grants.countP fun x => p (.released x.address x.length x.block) := by
    intro p
    have hmaps := congrArg (List.countP p) hr
    rwa [List.countP_map, List.countP_map] at hmaps
  refine ⟨(hcount HeapEvent.isGrant).trans ?_, (hcount HeapEvent.isRelease).trans ?_⟩
  · exact List.countP_eq_zero.mpr (by simp [HeapEvent.isGrant])
  · exact List.countP_eq_length.mpr (by simp [HeapEvent.isRelease])

/-- The numbers of the decisions do not wrap as long as they are below a word. -/
theorem iterate_nextId (n : Nat) (hn : n < wordLimit) :
    List.iterate Heap.nextId 1 n = (List.range n).map (· + 1) := by
  have hnumber : ∀ i, i < n → Heap.nextId^[i] 1 = i + 1 := by
    intro i
    induction i with
    | zero => exact fun _ => rfl
    | succ i ih =>
      intro hi
      rw [Function.iterate_succ_apply', ih (by omega), Heap.nextId, Nat.mod_eq_of_lt (by omega)]
  rw [← List.range_map_iterate]
  exact List.map_congr_left fun i hi => hnumber i (List.mem_range.mp hi)

namespace Entry

/-- A member of the details of an entry. -/
def detail? (e : Entry) (key : String) : Option Json := e.details.bind (·.member? key)

/-- The entry tells of a grant. -/
def isServed (e : Entry) : Bool := e.event == "alloc" && e.outcome == some .pass

/-- The entry tells of a release. -/
def isFree (e : Entry) : Bool := e.event == "free"

variable (timestamp : String) (mode : DiagnosticMode) (r : HeapRecord)

/-- The entries of grants are those of the events that make one; a failed allocation is no grant. -/
theorem isServed_ofRecord : (ofRecord timestamp mode r).isServed = r.event.isGrant := by
  obtain ⟨id, call, event, stats⟩ := r
  cases event with
  | rejected d => cases d <;> rfl
  | _ => rfl

theorem isFree_ofRecord : (ofRecord timestamp mode r).isFree = r.event.isRelease := by
  obtain ⟨id, call, event, stats⟩ := r
  cases event with
  | rejected d => cases d <;> rfl
  | _ => rfl

theorem countP_isServed (recs : List HeapRecord) :
    (recs.map (ofRecord timestamp mode)).countP (·.isServed) = granted recs := by
  rw [List.countP_map]
  exact List.countP_congr fun r _ => by rw [Function.comp_apply, isServed_ofRecord]

theorem countP_isFree (recs : List HeapRecord) :
    (recs.map (ofRecord timestamp mode)).countP (·.isFree) = released recs := by
  rw [List.countP_map]
  exact List.countP_congr fun r _ => by rw [Function.comp_apply, isFree_ofRecord]

theorem outcome_of_isRelease (h : r.event.isRelease = true) :
    (ofRecord timestamp mode r).outcome = some .pass := by
  obtain ⟨id, call, event, stats⟩ := r
  cases event with
  | released => rfl
  | _ => cases h

theorem detail?_id : (ofRecord timestamp mode r).detail? "decision_id" = some (.integer r.id) :=
  Json.member?_ofMembers _ _

theorem detail?_block : (ofRecord timestamp mode r).detail? "block" =
    some (r.event.block?.elim .null fun n : Nat => .integer n) :=
  Json.member?_ofMembers _ _

/-- The entries of releases tell of nothing else, and name the blocks of the grants. -/
theorem entries_of_releases {recs : List HeapRecord} {grants : List Allocation}
    (hr : Releases recs grants) :
    (∀ e ∈ recs.map (ofRecord timestamp mode), e.isFree = true) ∧
    (recs.map (ofRecord timestamp mode)).map (·.detail? "block") =
      grants.map fun x => some (.integer x.block) := by
  refine ⟨fun e he => ?_, ?_⟩
  · obtain ⟨r, hmem, rfl⟩ := List.mem_map.mp he
    have hevent := List.mem_map_of_mem (f := (·.event)) hmem
    rw [hr] at hevent
    obtain ⟨x, -, hx⟩ := List.mem_map.mp hevent
    rw [isFree_ofRecord, ← hx]
    rfl
  · have hblocks := congrArg (List.map fun e : HeapEvent =>
      some (e.block?.elim Json.null fun n : Nat => .integer n)) hr
    rw [List.map_map, List.map_map] at hblocks
    rw [List.map_map]
    exact (List.map_congr_left fun r _ => detail?_block timestamp mode r).trans hblocks

theorem detail?_active :
    (ofRecord timestamp mode r).detail? "active_blocks" = some (.integer r.stats.active) :=
  Json.member?_ofMembers _ _

theorem detail?_usedBytes :
    (ofRecord timestamp mode r).detail? "used_bytes" = some (.integer r.stats.usedBytes) :=
  Json.member?_ofMembers _ _

end Entry

/-- The entries of some grants that are all given back, in the order in which they are granted. -/
structure Balances (trace : List Entry) (grants : List Allocation) : Prop where
  served_eq : trace.countP (·.isServed) = grants.length
  freed_eq : trace.countP (·.isFree) = grants.length
  pass : ∀ e ∈ trace, e.isFree = true → e.outcome = some .pass
  /-- All releases come last, in the reverse order of the grants. -/
  reversed : ∃ front back, trace = front ++ back ∧ (∀ e ∈ front, e.isFree = false) ∧
    (∀ e ∈ back, e.isFree = true) ∧
    back.map (·.detail? "block") = grants.reverse.map fun x => some (.integer x.block)
  numbered : trace.map (·.detail? "decision_id") =
    (List.range trace.length).map fun i => some (.integer (i + 1))
  emptied : grants ≠ [] → ∃ e, trace.getLast? = some e ∧
    e.detail? "active_blocks" = some (.integer 0) ∧ e.detail? "used_bytes" = some (.integer 0)

/-- The records of grants are followed by those of all releases, the last of which shows an empty
heap. -/
theorem allocationRecords_eq (sizes : List Nat) (limits : HeapLimits)
    (hroom : 3 * sizes.length ≤ Heap.logCapacity) :
    ∃ recs freed, allocationRecords sizes limits = recs ++ freed ∧
      granted recs = (served (quietGuest limits) sizes).length ∧ released recs = 0 ∧
      Releases freed (served (quietGuest limits) sizes).reverse ∧
      (recs ++ freed).map (·.id) = (List.range (recs ++ freed).length).map (· + 1) ∧
      ∀ rec, freed.getLast? = some rec → rec.stats.use = (0, 0) := by
  have hstart : (quietGuest limits).Chronicled [] :=
    .ofLimits limits (Arena.Simulated.ofBase _ _).heapBase_lt
  obtain ⟨recs, hlength, hserved, hlive, hgranted, hreleased⟩ :=
    chronicled_allocations sizes hstart (.refl []) (by rw [List.length_nil]; omega)
  have hgrants := foldl_allocateNext sizes [] (quietGuest limits)
  have hrecords : allocationRecords sizes limits =
    ((sizes.foldl allocateNext ([], quietGuest limits)).1.foldl Guest.free
      (sizes.foldl allocateNext ([], quietGuest limits)).2).heap.records := rfl
  rw [List.append_nil] at hgrants
  rw [hgrants] at hrecords hlive hgranted
  rw [List.nil_append] at hserved
  have hcount := length_served_le sizes (quietGuest limits)
  obtain ⟨freed, hended, hevents, hnone, hlast⟩ := chronicled_releases _ hserved hlive
    (by rw [List.length_reverse]; omega)
  have hkept : allocationRecords sizes limits = recs ++ freed := by
    rw [hrecords, Heap.records, hended.log_eq, List.reverse_reverse]
  refine ⟨recs, freed, hkept, ?_, hreleased, hevents, ?_, fun rec hrec => ?_⟩
  · exact hgranted.trans (List.length_reverse ..)
  · refine hended.numbered.trans (iterate_nextId _ ?_)
    have hfreed := congrArg List.length hevents
    rw [List.length_map, List.length_map, List.length_reverse] at hfreed
    rw [List.length_append, hfreed]
    have hcapacity : Heap.logCapacity < wordLimit := by decide
    omega
  · rw [hlast rec hrec]
    have hactive := Heap.stats_active hended.sound
    have hbytes := Heap.stats_usedBytes hended.sound
    rw [← Heap.length_liveAllocations hended.sound, hnone] at hactive
    rw [hnone] at hbytes
    exact Prod.ext hactive hbytes

/-- Of any sizes that are allocated in order, as long as the log has room for all that can be
recorded, the entries balance: each size that can be granted has one entry of its grant and one of
its release, which succeeds. -/
theorem allocation_traces_balance (timestamp : String) (sizes : List Nat) (limits : HeapLimits)
    (hroom : 3 * sizes.length ≤ Heap.logCapacity) :
    Balances (allocationTrace timestamp sizes limits) (served (quietGuest limits) sizes) := by
  obtain ⟨recs, freed, hrecords, hgranted, hreleased, hreleases, hids, hlast⟩ :=
    allocationRecords_eq sizes limits hroom
  obtain ⟨hnone, hall⟩ := hreleases.counts
  rw [List.length_reverse] at hall
  rw [allocationTrace, hrecords]
  constructor
  case served_eq =>
    rw [Entry.countP_isServed, Heap.granted_append, hgranted, hnone, Nat.add_zero]
  case freed_eq =>
    rw [Entry.countP_isFree, Heap.released_append, hreleased, hall, Nat.zero_add]
  case pass =>
    intro e he hfree
    obtain ⟨r, -, rfl⟩ := List.mem_map.mp he
    rw [Entry.isFree_ofRecord] at hfree
    exact Entry.outcome_of_isRelease _ _ r hfree
  case reversed =>
    obtain ⟨hfree, hblocks⟩ := Entry.entries_of_releases timestamp .silent hreleases
    refine ⟨_, _, List.map_append .., fun e he => ?_, hfree, hblocks⟩
    rw [← Entry.countP_isFree timestamp .silent] at hreleased
    exact Bool.eq_false_iff.mpr (List.countP_eq_zero.mp hreleased e he)
  case numbered =>
    have hnumbers := congrArg (List.map fun n : Nat => some (Json.integer n)) hids
    rw [List.map_map, List.map_map] at hnumbers
    rw [List.map_map, List.length_map]
    exact (List.map_congr_left fun r _ => Entry.detail?_id _ _ r).trans hnumbers
  case emptied =>
    intro hsome
    cases hfinal : freed.getLast? with
    | none =>
      rw [List.getLast?_eq_none_iff.mp hfinal] at hall
      exact absurd (List.length_eq_zero_iff.mp hall.symm) hsome
    | some rec =>
      obtain ⟨hactive, hbytes⟩ := Prod.ext_iff.mp (hlast rec hfinal)
      refine ⟨Entry.ofRecord timestamp .silent rec, ?_, ?_, ?_⟩
      · rw [List.getLast?_map, List.getLast?_append, hfinal]
        rfl
      · rw [Entry.detail?_active]
        exact congrArg (fun n : Nat => some (Json.integer n)) hactive
      · rw [Entry.detail?_usedBytes]
        exact congrArg (fun n : Nat => some (Json.integer n)) hbytes

namespace Machine

/-- A run of steps that are all computed, each with what the next one needs. -/
theorem foldlM_eq {α β : Type} (keeps : β → Prop) {f : β → α → Except Stop β} {step : β → α → β}
    (xs : List α) (hstep : ∀ b, keeps b → ∀ x ∈ xs, f b x = .ok (step b x) ∧ keeps (step b x))
    {b : β} (hb : keeps b) : xs.foldlM f b = .ok (xs.foldl step b) ∧ keeps (xs.foldl step b) := by
  induction xs generalizing b with
  | nil => exact ⟨rfl, hb⟩
  | cons x xs ih =>
    obtain ⟨he, hkept⟩ := hstep b hb x (List.mem_cons_self ..)
    rw [List.foldlM_cons, he]
    exact ih (fun b hb y hy => hstep b hb y (List.mem_cons_of_mem _ hy)) hkept

theorem allocateNext_eq {state : List Allocation × Guest} {size : Nat} (hb : state.2.Bounded)
    (hfits : Heap.Fits size) :
    allocateNext state size = .ok (Log.allocateNext state size) ∧
      (Log.allocateNext state size).2.Bounded := by
  have hmalloc := Guest.malloc_computes hb size
  have hnot : ¬ state.2.Stops (.allocate size) := hb.not_stops hfits
  refine ⟨?_, hmalloc.kept hnot⟩
  unfold allocateNext
  rw [hmalloc.computed hnot]
  rfl

/-- Sizes that fit are logged on words as they are on numbers, where the table has a buffer. -/
theorem allocationTrace_eq (timestamp : String) {sizes : List Nat} {limits : HeapLimits}
    (htable : limits.maxBlocks * Heap.Machine.blockBytes < Word.bufferLimit)
    (hfits : ∀ size ∈ sizes, Heap.Fits size) :
    allocationTrace timestamp sizes limits = .ok (Log.allocationTrace timestamp sizes limits) := by
  have hmemory : quietHost.arena.memory.size = 131072 := Arena.size_ofBase _ _
  have hstart := Guest.start_computes (Arena.Simulated.ofBase _ _ : quietHost.arena.Simulated)
    (by rw [hmemory]; decide) (by decide) { diagnostics := .silent, limits }
  have hnot := Nat.not_le.mpr htable
  have hquiet : (quietGuest limits).Bounded := hstart.kept hnot
  obtain ⟨hallocated, hbounded⟩ := foldlM_eq
    (fun state : List Allocation × Guest => state.2.Bounded) sizes
    (fun _ hb size hmem => allocateNext_eq hb (hfits size hmem))
    (b := ([], quietGuest limits)) hquiet
  unfold allocationTrace Log.allocationTrace allocationRecords
  rw [hstart.computed hnot]
  change (sizes.foldlM allocateNext ([], quietGuest limits) >>= _) = _
  rw [hallocated]
  generalize sizes.foldl Log.allocateNext ([], quietGuest limits) = state at hbounded
  obtain ⟨grants, g⟩ := state
  obtain ⟨hfreed, -⟩ := foldlM_eq Guest.Bounded grants (fun _ hb x _ => Guest.free_eq hb x) hbounded
  change (grants.foldlM Guest.Machine.free g >>= _) = _
  rw [hfreed]
  rfl

end Machine

/-- The first grant of a program is its first block. -/
theorem malloc_first : ((quietGuest {}).malloc 10).1 = some ⟨0, 66564, 2044⟩ ∧
    ∃ rest, ((quietGuest {}).malloc 10).2.heap.table.blocks =
      ⟨66560, 2048, 1, true⟩ :: .free 68608 2048 :: .free 70656 2048 :: rest := by
  obtain ⟨h, rest, hregion, hblocks⟩ :=
    Conformance.addRegion_testGuest .malloc (by decide : 10 + blockHeader ≤ 64512)
  have hfind : ∃ table, h.table.find? 0 h.table.size (10 + blockHeader) =
      some (⟨0, 0, .unsplit⟩, table) ∧ table.blocks =
        ⟨66560, 2048, 1, true⟩ :: .free 68608 2048 :: .free 70656 2048 :: rest := by
    simp [BlockTable.find?, BlockTable.size, hblocks, BlockTable.firstFit?, BlockTable.grantFrom?,
      BlockTable.gather?, BlockTable.divide, Block.free, Block.isHole, blockHeader, pageSize]
  obtain ⟨table, hfind, htable⟩ := hfind
  have hfirst : table.blocks[0]? = some ⟨66560, 2048, 1, true⟩ := by
    rw [htable]
    rfl
  obtain ⟨h', a', he, -, -, hblocks'⟩ :=
    Heap.allocate_of_acquired (by decide) rfl hregion hfind hfirst
  have hrun : (quietGuest {}).heap.allocate (quietGuest {}).host.arena 10 =
      (.ok ⟨0, 66564, 2044⟩, h', a') := he
  obtain ⟨hheap, -⟩ := (quietGuest {}).onHeap_snd fun h a => h.allocate a 10
  rw [hrun] at hheap
  refine ⟨?_, rest, ?_⟩
  · rw [Guest.malloc_fst]
    exact congrArg (·.1.toOption) hrun
  · rw [Guest.malloc, hheap]
    exact hblocks'.trans htable

/-- The second grant is its second block. -/
theorem malloc_second {rest : List Block} (hblocks : g.heap.table.blocks =
      ⟨66560, 2048, 1, true⟩ :: .free 68608 2048 :: .free 70656 2048 :: rest) :
    (g.malloc 20).1 = some ⟨1, 68612, 2044⟩ := by
  have hfind : ∃ table, g.heap.table.find? 0 g.heap.table.size (20 + blockHeader) =
      some (⟨1, 0, .unsplit⟩, table) ∧ table.blocks[1]? = some ⟨68608, 2048, 1, true⟩ := by
    simp [BlockTable.find?, BlockTable.size, hblocks, BlockTable.firstFit?, BlockTable.grantFrom?,
      BlockTable.gather?, BlockTable.divide, Block.free, Block.isHole, blockHeader, pageSize]
  obtain ⟨table, hfind, hsecond⟩ := hfind
  obtain ⟨h', a', he, -⟩ :=
    @Heap.allocate_of_found g.heap g.host.arena 20 _ table _ (by decide) hfind hsecond
  rw [Guest.malloc_fst]
  exact congrArg (·.1.toOption) he

/-- Two sizes that are granted the first two blocks, which are given back in reverse. -/
theorem allocation_traces_balance_two : 3 * [10, 20].length ≤ Heap.logCapacity ∧
    served (quietGuest {}) [10, 20] = [⟨0, 66564, 2044⟩, ⟨1, 68612, 2044⟩] ∧
    Balances (allocationTrace "2026-01-01T00:00:00.000Z" [10, 20] {})
      [⟨0, 66564, 2044⟩, ⟨1, 68612, 2044⟩] := by
  have hserved : served (quietGuest {}) [10, 20] = [⟨0, 66564, 2044⟩, ⟨1, 68612, 2044⟩] := by
    obtain ⟨hfirst, rest, hblocks⟩ := malloc_first
    rw [served, hfirst, served, malloc_second hblocks]
    rfl
  have hroom : 3 * [10, 20].length ≤ Heap.logCapacity := by decide
  refine ⟨hroom, hserved, ?_⟩
  rw [← hserved]
  exact allocation_traces_balance _ [10, 20] {} hroom

end Log
end GuestLibrary
