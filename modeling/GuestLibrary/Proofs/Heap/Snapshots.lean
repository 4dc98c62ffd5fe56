import GuestLibrary.Proofs.Heap.Atomicity
import GuestLibrary.Proofs.Heap.Enclosure
import GuestLibrary.Proofs.Heap.Records

/-! What the records of the lifecycle log show. Each holds the number of the live grants and the
bytes of their blocks, with one exception: while a live grant is resized its block is free for the
search, so the record of a region that the search acquires, or fails to acquire, leaves that grant
out. -/
namespace GuestLibrary
namespace Heap

variable {h h' : Heap} {a a' : Arena} {limits : HeapLimits} {past : List HeapRecord} {r : Request}

/-- The blocks of grants, headers included. -/
def blockBytes (grants : List Allocation) : Nat :=
  (grants.map fun g => g.length + blockHeader).sum

/-- How many grants became live. -/
def granted (recs : List HeapRecord) : Nat := recs.countP (·.event.isGrant)

/-- How many grants were given back. -/
def released (recs : List HeapRecord) : Nat := recs.countP (·.event.isRelease)

/-- The records that a call appends to the log, oldest first. -/
def appended (h : Heap) (a : Arena) (r : Request) : List HeapRecord :=
  (h.drainLog.2.perform a r).2.1.records

/-- What any calls on a fresh heap lead to, with all the records that they have appended, oldest
first, also those that the log has lost or was drained of. The program may write anywhere in
between. -/
inductive Lifecycle (limits : HeapLimits) : Heap → Arena → List HeapRecord → Prop
  | fresh {a : Arena} : a.Simulated → Lifecycle limits (.ofLimits limits) a []
  | call {h : Heap} {a : Arena} {past : List HeapRecord} (r : Request) :
      Lifecycle limits h a past →
      Lifecycle limits (h.perform a r).2.1 (h.perform a r).2.2 (past ++ h.appended a r)
  | drain {h : Heap} {a : Arena} {past : List HeapRecord} :
      Lifecycle limits h a past → Lifecycle limits h.drainLog.2 a past
  | write {h : Heap} {a : Arena} {past : List HeapRecord} (address : Nat) (block : Bytes) :
      Lifecycle limits h a past → Lifecycle limits h (a.write address block) past

section Logs

theorem logged_eq {l : List HeapRecord} (hl : l.length ≤ logCapacity) (recs : List HeapRecord) :
    logged l recs = (recs.reverse ++ l).take logCapacity := by
  induction recs generalizing l with
  | nil => exact (List.take_of_length_le hl).symm
  | cons rec recs ih =>
    have hshort : ((rec :: l).take logCapacity).length ≤ logCapacity := List.length_take_le ..
    refine (ih hshort).trans ?_
    rw [List.reverse_cons, List.append_assoc, List.take_append, List.take_append, List.take_take,
      Nat.min_eq_left (Nat.sub_le _ _)]
    rfl

theorem length_logged_le {l : List HeapRecord} (hl : l.length ≤ logCapacity)
    (recs : List HeapRecord) : (logged l recs).length ≤ logCapacity := by
  rw [logged_eq hl]
  exact List.length_take_le ..

end Logs

section Use

/-- Freeing a used block takes it away from the use of the heap. -/
theorem stats_suspending {id : Nat} {b : Block} (hb : h.table.Uses id b) :
    (h.suspending id).stats.active + 1 = h.stats.active ∧
      (h.suspending id).stats.usedBytes + b.size = h.stats.usedBytes := by
  have hmodify : ∀ (bs : List Block) (id : Nat), bs[id]? = some b →
      (bs.modify id ({ · with used := false })).countP (·.used) + 1 = bs.countP (·.used) ∧
      (((bs.modify id ({ · with used := false })).filter (·.used)).map (·.size)).sum + b.size =
        ((bs.filter (·.used)).map (·.size)).sum := by
    intro bs
    induction bs with
    | nil => simp
    | cons c bs ih =>
      rintro (_ | id) hid
      · obtain rfl : c = b := by simpa using hid
        simp [hb.2, Nat.add_comm]
      · obtain ⟨hcount, hsum⟩ := ih id (by simpa using hid)
        rw [List.modify_succ_cons]
        cases hc : c.used with
        | true =>
          rw [List.countP_cons_of_pos hc, List.countP_cons_of_pos hc, List.filter_cons_of_pos hc,
            List.filter_cons_of_pos hc, List.map_cons, List.map_cons, List.sum_cons, List.sum_cons,
            Nat.add_assoc c.size]
          exact ⟨congrArg (· + 1) hcount, congrArg (c.size + ·) hsum⟩
        | false =>
          have hfree : ¬ c.used = true := by simp [hc]
          rw [List.countP_cons_of_neg hfree, List.countP_cons_of_neg hfree,
            List.filter_cons_of_neg hfree, List.filter_cons_of_neg hfree]
          exact ⟨hcount, hsum⟩
  have hfreed := Prod.ext_iff.mp (stats_use (h.suspending id))
  have hkept := Prod.ext_iff.mp h.stats_use
  obtain ⟨hcount, hsum⟩ := hmodify h.table.blocks id hb.1
  exact ⟨(congrArg (· + 1) hfreed.1).trans (hcount.trans hkept.1.symm),
    (congrArg (· + b.size) hfreed.2).trans (hsum.trans hkept.2.symm)⟩

end Use

section Calls

/-- The heap whose blocks a call searches. -/
def searched (h : Heap) (r : Request) : Heap :=
  match r.resized? with
  | some current => h.suspending current.block
  | none => h

/-- A call and the records that it writes. -/
structure Settles (h : Heap) (a : Arena) (r : Request) (growth closing : Option HeapRecord) :
    Prop where
  writes : ∃ x h' a', Writes (·.perform a r) h (growth.toList ++ closing.toList) x h' a'
  tells : Tells (h.searched r) (h.perform a r).2.1 growth closing
  balanced : (h.perform a r).2.1.liveCount + released closing.toList =
    h.liveCount + granted closing.toList
  resized : growth ≠ none → ∀ current, r.resized? = some current →
    ∃ b, h.table.Uses current.block b ∧ current.address = b.start + blockHeader

/-- One step changes the number of live grants by the one that it makes live and by the one that it
takes away. -/
theorem Step.liveCount (hs : h.Sound a) {freed : Option Nat} {made : Option (Nat × Block)}
    (hstep : h.Step a h' a' freed made) (hfreed : ∀ id ∈ freed, ∃ b, h.table.Uses id b) :
    h'.liveCount + freed.toList.length = h.liveCount + made.toList.length := by
  rw [← length_liveAllocations hs, ← length_liveAllocations hstep.sound]
  cases freed with
  | none =>
    cases made with
    | none => exact (hstep.perm_kept hs).length_eq
    | some made => exact (hstep.perm_granted hs).length_eq
  | some id =>
    obtain ⟨b, hb⟩ := hfreed id rfl
    have hg : Allocation.ofBlock id b ∈ h.liveAllocations := ofBlock_mem hs hb
    have hpos := List.length_pos_of_mem hg
    cases made with
    | none =>
      have hlength := (Step.perm_released hs hg hstep).length_eq
      rw [List.length_erase_of_mem hg] at hlength
      simp only [Option.toList_some, Option.toList_none, List.length_singleton, List.length_nil]
      omega
    | some made =>
      have hlength := (Step.perm_moved hs hg hstep).length_eq
      rw [List.length_cons, List.length_erase_of_mem hg] at hlength
      simp only [Option.toList_some, List.length_singleton]
      omega

theorem counts_of_neutral {closing : Option HeapRecord}
    (hneutral : ∀ rec ∈ closing, rec.event.IsNeutral) :
    granted closing.toList = 0 ∧ released closing.toList = 0 := by
  cases closing with
  | none => exact ⟨rfl, rfl⟩
  | some rec =>
    obtain ⟨hgrant, hrelease⟩ := hneutral rec rfl
    simp [granted, released, hgrant, hrelease]

variable {growth closing : Option HeapRecord} {α : Type}

theorem Settles.of_writes {x : Except AllocError (Option Allocation)}
    (hw : Writes (·.perform a r) h (growth.toList ++ closing.toList) x h' a')
    (htells : Tells (h.searched r) h' growth closing)
    (hbalanced : h'.liveCount + released closing.toList = h.liveCount + granted closing.toList)
    (hresized : growth ≠ none → ∀ current, r.resized? = some current →
      ∃ b, h.table.Uses current.block b ∧ current.address = b.start + blockHeader) :
    Settles h a r growth closing := by
  have hperform : h.perform a r = (x, h'.noting _, a') := hw.run_eq h.log
  refine ⟨⟨x, h', a', hw⟩, ⟨htells.growing, fun rec hrec => ?_⟩, ?_, hresized⟩
  · rw [hperform]
    exact htells.closed rec hrec
  · rw [hperform]
    exact hbalanced

/-- An allocation that ends with its record is balanced by it. -/
theorem balanced_of_allocation (hs : h.Sound a) {size : Nat} {x : Except AllocError Allocation}
    {run : Heap → Except AllocError Allocation × Heap × Arena}
    (hw : Writes run h (growth.toList ++ closing.toList) x h' a')
    (hends : AllocationEnds size closing x)
    (hcases : (∃ id b h' a', run h = (.ok (.ofBlock id b), h', a') ∧
        h.Step a h' a' none (some (id, b))) ∨
      ∃ e h' a', run h = (.error e, h', a') ∧ h.Step a h' a' none none) :
    h'.liveCount + released closing.toList = h.liveCount + granted closing.toList := by
  have hrun : run h = (x, h'.noting _, a') := hw.run_eq h.log
  obtain ⟨id, b, h₁, a₁, he, hstep⟩ | ⟨e, h₁, a₁, he, hstep⟩ := hcases
  · cases hrun.symm.trans he
    obtain ⟨rec, split, merged, rfl, hevent⟩ := hends
    have hcount : h'.liveCount + 0 = h.liveCount + 1 := Step.liveCount hs hstep (by simp)
    simpa [granted, released, hevent, HeapEvent.isGrant, HeapEvent.isRelease] using hcount
  · cases hrun.symm.trans he
    obtain ⟨hgrants, hreleases⟩ := counts_of_neutral hends
    rw [hgrants, hreleases]
    exact Step.liveCount hs hstep (by simp)

theorem settles_allocateFor (hs : h.Sound a) {call : HeapCall} {size : Nat}
    (hr : ∀ h : Heap, h.perform a r =
      (((h.allocateFor a call size).1.map some), (h.allocateFor a call size).2))
    (hresized : r.resized? = none) : ∃ growth closing, Settles h a r growth closing := by
  obtain ⟨growth, closing, x, h', a', hw, htells, hends⟩ := allocateFor_writes h a call size
  have hperform : Writes (·.perform a r) h (growth.toList ++ closing.toList) (x.map some) h' a' :=
    hw.silent (fun l => by rw [hr, hw.run_eq l]) rfl
  have hsearched : h.searched r = h := by rw [searched, hresized]
  refine ⟨growth, closing, .of_writes hperform (by rwa [hsearched]) ?_ (by simp [hresized])⟩
  refine balanced_of_allocation hs hw hends ?_
  obtain ⟨id, b, h₁, a₁, he, -, hstep⟩ | ⟨e, h₁, a₁, he, -, hstep⟩ := allocateFor_cases hs call size
  · exact Or.inl ⟨id, b, h₁, a₁, he, hstep⟩
  · exact Or.inr ⟨e, h₁, a₁, he, hstep⟩

theorem settles_allocateZeroed (hs : h.Sound a) (count size : Nat) :
    ∃ growth closing, Settles h a (.allocateZeroed count size) growth closing := by
  obtain ⟨growth, closing, x, h', a', hw, htells, hends⟩ := allocateZeroed_writes h a count size
  have hperform : Writes (·.perform a (.allocateZeroed count size)) h
      (growth.toList ++ closing.toList) (x.map some) h' a' :=
    hw.silent (fun l => by rw [perform, hw.run_eq l]) rfl
  refine ⟨growth, closing, .of_writes hperform htells ?_ (by simp [Request.resized?])⟩
  refine balanced_of_allocation hs hw hends ?_
  obtain ⟨id, b, h₁, a₁, he, -, hstep, -⟩ | ⟨e, h₁, a₁, he, -, hstep⟩ :=
    allocateZeroed_cases hs count size
  · exact Or.inl ⟨id, b, h₁, a₁, he, hstep⟩
  · exact Or.inr ⟨e, h₁, a₁, he, hstep⟩

theorem settles_resize (hs : h.Sound a) (current : Allocation) (size : Nat) :
    ∃ growth closing, Settles h a (.reallocate (some current) size) growth closing := by
  obtain ⟨growth, closing, x, h', a', hw, htells, hvalid, hneutral⟩ :=
    resize_writes h a current size
  have hperform : Writes (·.perform a (.reallocate (some current) size)) h
      (growth.toList ++ closing.toList) (x.map some) h' a' :=
    hw.silent (fun l => by rw [perform, reallocate, hw.run_eq l]) rfl
  refine ⟨growth, closing, .of_writes hperform htells ?_ fun hgrowth c hc => ?_⟩
  · have hrun : h.resize a current size = (x, h'.noting _, a') := hw.run_eq h.log
    obtain ⟨hgrants, hreleases⟩ := counts_of_neutral hneutral
    rw [hgrants, hreleases]
    obtain ⟨old, id, b, h₁, a₁, hold, -, he, -, hstep⟩ | ⟨old, h₁, -, -, he, -, hstep⟩ |
      ⟨e, h₁, a₁, he, hstep, -⟩ := resize_cases hs current size
    all_goals
      rw [hrun] at he
      cases he
    · exact Nat.succ.inj (Step.liveCount hs hstep (by rintro i ⟨⟩; exact ⟨old, hold⟩))
    · exact Step.liveCount hs hstep (by simp)
    · exact Step.liveCount hs hstep (by simp)
  · obtain rfl : current = c := Option.some.inj hc
    obtain ⟨old, hold⟩ := hvalid hgrowth
    exact ⟨old, uses_of_validate hold⟩

/-- A release that ends with its record is balanced by it. -/
theorem settles_releasing (hs : h.Sound a) {x : Except AllocError Unit} {rec : HeapRecord}
    (run : Heap → Except AllocError Unit × Heap)
    (hr : ∀ h : Heap, h.perform a r = ((run h).1.map fun _ => none, (run h).2, a))
    (hresized : r.resized? = none)
    (hw : Writes (fun h => ((run h).1, (run h).2, a)) h [rec] x h' a)
    (htells : Tells h h' none (some rec))
    (hcases : (∃ id b h', h.table.Uses id b ∧ (run h).2 = h' ∧ h.Step a h' a (some id) none ∧
        rec.event.isRelease = true ∧ rec.event.isGrant = false) ∨
      ∃ h', (run h).2 = h' ∧ h.Step a h' a none none ∧ rec.event.IsNeutral) :
    ∃ growth closing, Settles h a r growth closing := by
  have hrun : (run h).2 = h'.noting _ := congrArg (·.2.1) (hw.run_eq h.log)
  have hperform : Writes (·.perform a r) h (Option.toList none ++ Option.toList (some rec))
      (x.map fun _ => none) h' a := by
    refine hw.silent (fun l => ?_) rfl
    have hresult : (run (h.noting l)).1 = x := congrArg (·.1) (hw.run_eq l)
    have hended : (run (h.noting l)).2 = h'.noting _ := congrArg (·.2.1) (hw.run_eq l)
    rw [hr, hresult, hended]
  have hsearched : h.searched r = h := by rw [searched, hresized]
  refine ⟨none, some rec, .of_writes hperform (by rwa [hsearched]) ?_ (by simp)⟩
  obtain ⟨id, b, h₁, hb, rfl, hstep, hrelease, hgrant⟩ | ⟨h₁, rfl, hstep, hneutral⟩ := hcases
  · rw [hrun] at hstep
    have hcount : h'.liveCount + 1 = h.liveCount + 0 :=
      Step.liveCount hs hstep (by rintro i ⟨⟩; exact ⟨b, hb⟩)
    simpa [granted, released, hrelease, hgrant] using hcount
  · rw [hrun] at hstep
    have hcount : h'.liveCount + 0 = h.liveCount + 0 := Step.liveCount hs hstep (by simp)
    simpa [granted, released, hneutral.1, hneutral.2] using hcount

theorem settles_release (hs : h.Sound a) (grant : Allocation) :
    ∃ growth closing, Settles h a (.release grant) growth closing := by
  obtain ⟨rec, x, h', hw, htells, hends, -⟩ := release_writes h a grant
  have hx : (h.release grant).1 = x := congrArg (·.1) (hw.run_eq h.log)
  refine settles_releasing hs (·.release grant) (fun _ => rfl) rfl hw htells ?_
  obtain ⟨b, h₁, hb, -, he, hstep⟩ | ⟨d, h₁, -, he, hstep⟩ := release_cases hs grant
  · rw [he] at hx ⊢
    subst hx
    exact Or.inl ⟨_, b, h₁, hb, rfl, hstep, hends⟩
  · rw [he] at hx ⊢
    subst hx
    exact Or.inr ⟨h₁, rfl, hstep, hends⟩

theorem settles_releaseAddress (hs : h.Sound a) (address : Nat) :
    ∃ growth closing, Settles h a (.releaseAddress address) growth closing := by
  obtain ⟨rec, x, h', hw, htells, hends⟩ := releaseAddress_writes h a address
  have hx : (h.releaseAddress address).1 = x := congrArg (·.1) (hw.run_eq h.log)
  refine settles_releasing hs (·.releaseAddress address) (fun _ => rfl) rfl hw htells ?_
  obtain ⟨id, b, h₁, hb, haddress, he, hstep⟩ | ⟨result, h₁, he, hstep, hzero⟩ :=
    releaseAddress_cases hs address
  · rw [he] at hx ⊢
    subst hx
    have hne : address ≠ 0 := by
      have hheader : blockHeader = 4 := rfl
      omega
    rw [if_neg hne] at hends
    exact Or.inl ⟨id, b, h₁, hb, rfl, hstep, hends⟩
  · rw [he] at hx ⊢
    subst hx
    refine Or.inr ⟨h₁, rfl, hstep, ?_⟩
    split at hends
    · exact hends
    · rename_i hne
      cases result with
      | ok => exact absurd (hzero rfl) hne
      | error e => exact hends

/-- Every call settles its account with the log. -/
theorem perform_settles (hs : h.Sound a) (r : Request) :
    ∃ growth closing, Settles h a r growth closing := by
  cases r with
  | allocate size => exact settles_allocateFor hs (fun _ => rfl) rfl
  | allocateZeroed count size => exact settles_allocateZeroed hs count size
  | reallocate current size =>
    cases current with
    | none => exact settles_allocateFor hs (fun _ => rfl) rfl
    | some current => exact settles_resize hs current size
  | release grant => exact settles_release hs grant
  | releaseAddress address => exact settles_releaseAddress hs address

theorem Settles.appended_eq (hc : Settles h a r growth closing) :
    h.appended a r = growth.toList ++ closing.toList := by
  obtain ⟨x, h', a', hw⟩ := hc.writes
  have hperform : h.drainLog.2.perform a r = (x, h'.noting _, a') := hw.run_eq []
  have hshort : (growth.toList ++ closing.toList).reverse.length ≤ logCapacity := by
    have hcapacity : logCapacity = 4096 := rfl
    cases growth <;> cases closing <;> simp [hcapacity]
  rw [appended, hperform, records, noting, logged_eq (Nat.zero_le _), List.append_nil,
    List.take_of_length_le hshort, List.reverse_reverse]

theorem Settles.log_eq (hc : Settles h a r growth closing) :
    (h.perform a r).2.1.log = logged h.log (h.appended a r) := by
  obtain ⟨x, h', a', hw⟩ := hc.writes
  have hperform : h.perform a r = (x, h'.noting _, a') := hw.run_eq h.log
  rw [hc.appended_eq, hperform]
  rfl

end Calls

section Runs

@[simp] theorem granted_append (recs recs' : List HeapRecord) :
    granted (recs ++ recs') = granted recs + granted recs' :=
  List.countP_append

@[simp] theorem released_append (recs recs' : List HeapRecord) :
    released (recs ++ recs') = released recs + released recs' :=
  List.countP_append

/-- Along a run the records of grants and of releases account for the live grants. -/
theorem Lifecycle.accounts (hl : Lifecycle limits h a past) :
    h.Sound a ∧ h.log.length ≤ logCapacity ∧ h.liveCount + released past = granted past := by
  induction hl with
  | fresh ha => exact ⟨sound_ofLimits limits ha.heapBase_lt, Nat.zero_le _, rfl⟩
  | @call h a past r _ ih =>
    obtain ⟨hs, hlog, hcount⟩ := ih
    obtain ⟨growth, closing, hc⟩ := perform_settles hs r
    have hbalanced := hc.balanced
    obtain ⟨hgrants, hreleases⟩ := counts_of_neutral fun rec hrec => (hc.tells.growing rec hrec).2.1
    refine ⟨hs.perform r, ?_, ?_⟩
    · rw [hc.log_eq]
      exact length_logged_le hlog _
    · rw [hc.appended_eq]
      simp only [granted_append, released_append]
      omega
  | drain _ ih =>
    obtain ⟨hs, -, hcount⟩ := ih
    exact ⟨⟨{ hs.toTiled with }, hs.lists⟩, Nat.zero_le _, hcount⟩
  | write address block _ ih =>
    obtain ⟨hs, hlog, hcount⟩ := ih
    exact ⟨hs.write address block, hlog, hcount⟩

/-- A record of a call is the one of a region or the one of how it ended. -/
theorem eq_of_append_eq {growth closing : Option HeapRecord} {before after : List HeapRecord}
    {rec : HeapRecord} (h : growth.toList ++ closing.toList = before ++ rec :: after) :
    growth = some rec ∧ before = [] ∨ closing = some rec ∧ before = growth.toList := by
  cases growth with
  | none =>
    cases closing with
    | none => simp at h
    | some closing =>
      cases before with
      | nil => simp_all
      | cons => simp at h
  | some growth =>
    cases before with
    | nil => simp_all
    | cons first before =>
      cases closing with
      | none => simp at h
      | some closing =>
        cases before with
        | nil => simp_all
        | cons => simp at h

/-- Along every run of calls, drains of the log and writes of the program: what a call appends to
the log, and what each of its records shows. A record that is not of a region shows the live grants
at the end of the call; one of a region shows those at its start, but for the grant that the call
resizes, which it leaves out. In the order of the log, the grants that became live less those that
were given back are as many as the record shows, and one more where it leaves one out. -/
theorem snapshots_show_live (hl : Lifecycle limits h a past) (r : Request) :
    (h.perform a r).2.1.log = ((h.appended a r).reverse ++ h.log).take logCapacity ∧
    ∀ (before : List HeapRecord) (rec : HeapRecord) (after : List HeapRecord),
      h.appended a r = before ++ rec :: after →
      (rec.event.isGrowth = false →
        rec.stats.active = (h.perform a r).2.1.liveAllocations.length ∧
        rec.stats.usedBytes = blockBytes (h.perform a r).2.1.liveAllocations ∧
        rec.stats.active + released (past ++ before ++ [rec]) =
          granted (past ++ before ++ [rec])) ∧
      (rec.event.isGrowth = true → r.resized? = none →
        rec.stats.active = h.liveAllocations.length ∧
        rec.stats.usedBytes = blockBytes h.liveAllocations ∧
        rec.stats.active + released (past ++ before ++ [rec]) =
          granted (past ++ before ++ [rec])) ∧
      (rec.event.isGrowth = true → ∀ current, r.resized? = some current →
        ∃ g ∈ h.liveAllocations, g.block = current.block ∧ g.address = current.address ∧
          rec.stats.active + 1 = h.liveAllocations.length ∧
          rec.stats.usedBytes + (g.length + blockHeader) = blockBytes h.liveAllocations ∧
          rec.stats.active + 1 + released (past ++ before ++ [rec]) =
            granted (past ++ before ++ [rec])) := by
  obtain ⟨hs, hlog, hcount⟩ := hl.accounts
  obtain ⟨growth, closing, hc⟩ := perform_settles hs r
  refine ⟨hc.log_eq.trans (logged_eq hlog _), fun before rec after happended => ?_⟩
  rw [hc.appended_eq] at happended
  obtain ⟨rfl, rfl⟩ | ⟨rfl, rfl⟩ := eq_of_append_eq happended
  · obtain ⟨hgrowth, hneutral, huse⟩ := hc.tells.growing rec rfl
    obtain ⟨hactive, hbytes⟩ := Prod.ext_iff.mp huse
    have hgrants : granted [rec] = 0 := by simp [granted, hneutral.1]
    have hreleases : released [rec] = 0 := by simp [released, hneutral.2]
    rw [List.append_nil, granted_append, released_append, hgrants, hreleases]
    refine ⟨fun hother => absurd (hother.symm.trans hgrowth) (by simp), fun _ hnone => ?_,
      fun _ current hsome => ?_⟩
    · rw [searched, hnone] at hactive hbytes
      have hlive : rec.stats.active = h.liveCount := hactive.trans (stats_active hs)
      refine ⟨hlive.trans (length_liveAllocations hs).symm, hbytes.trans (stats_usedBytes hs), ?_⟩
      omega
    · obtain ⟨b, hb, haddress⟩ := hc.resized (by simp) current hsome
      rw [searched, hsome] at hactive hbytes
      obtain ⟨hfreed, hsize⟩ := stats_suspending hb
      have hlive : rec.stats.active + 1 = h.liveCount :=
        (congrArg (· + 1) hactive).trans (hfreed.trans (stats_active hs))
      have hroom : b.size - blockHeader + blockHeader = b.size :=
        Nat.sub_add_cancel (hs.headed _ _ hb)
      refine ⟨.ofBlock current.block b, ofBlock_mem hs hb, rfl, haddress.symm,
        hlive.trans (length_liveAllocations hs).symm, ?_, by omega⟩
      refine Eq.trans ?_ (stats_usedBytes hs)
      rw [← hsize, Allocation.ofBlock, hroom]
      exact congrArg (· + b.size) hbytes
  · obtain ⟨hother, hstats⟩ := hc.tells.closed rec rfl
    obtain ⟨hgrants, hreleases⟩ := counts_of_neutral fun rec hrec => (hc.tells.growing rec hrec).2.1
    have hended := hs.perform r
    have hbalanced : (h.perform a r).2.1.liveCount + released [rec] =
      h.liveCount + granted [rec] := hc.balanced
    have hlive := stats_active hended
    rw [hstats, granted_append, granted_append, released_append, released_append, hgrants,
      hreleases]
    refine ⟨fun _ => ⟨hlive.trans (length_liveAllocations hended).symm, stats_usedBytes hended, ?_⟩,
      fun hgrowth => absurd (hother.symm.trans hgrowth) (by simp),
      fun hgrowth => absurd (hother.symm.trans hgrowth) (by simp)⟩
    omega

/-- A heap of one page and one block that is used has no room for another size: the record of the
page that it may not acquire shows no used block. -/
theorem appended_onePage (a : Arena) (hlimits : h.limits = ⟨1, 1⟩)
    (hregions : h.regions = [⟨0, 65536, 1⟩]) (hblocks : h.table.blocks = [⟨0, 65536, 0, true⟩]) :
    ∃ rec closing, h.appended a (.reallocate (some ⟨0, 4, 65532⟩) 70000) = [rec, closing] ∧
      rec.event = .pageLimit 70004 1 2 1 ∧ rec.stats.use = (0, 0) := by
  simp [appended, drainLog, records, perform, reallocate, resize, validate, BlockTable.get?,
    hblocks, blockHeader, wordLimit, resizeLive, searchReplacement, BlockTable.setUsed,
    BlockTable.find?, BlockTable.size, BlockTable.firstFit?, BlockTable.grantFrom?,
    BlockTable.gather?, addRegion, nextRegion, hregions, pagesAcquired, hlimits, pagesFor, pageSize,
    record, logCapacity, stats, tally, Block.isHole, HeapStats.use]

/-- The only grant of a heap of one page, and the records of a call that cannot resize it. -/
theorem resize_onePage : ∃ h a past rec closing,
    (ofLimits ⟨1, 1⟩).perform (.ofBase 0 1) (.allocate 10) =
      (.ok (some ⟨0, 4, 65532⟩), h, a) ∧
    Lifecycle ⟨1, 1⟩ h a past ∧ h.liveAllocations = [⟨0, 4, 65532⟩] ∧
    h.appended a (.reallocate (some ⟨0, 4, 65532⟩) 70000) = [rec, closing] ∧
    rec.event = .pageLimit 70004 1 2 1 ∧ rec.stats.use = (0, 0) := by
  have hstart : Reachable ⟨1, 1⟩ (fun _ _ _ => True) (.ofLimits ⟨1, 1⟩) (.ofBase 0 1) :=
    .fresh (.ofBase 0 1)
  have hfresh : Lifecycle ⟨1, 1⟩ (.ofLimits ⟨1, 1⟩) (.ofBase 0 1) [] := .fresh (.ofBase 0 1)
  have hreachable := hstart.call (.allocate 10)
  have hcall := hfresh.call (.allocate 10)
  obtain ⟨h, a, he, hlive, hregions, hblocks⟩ := perform_onePage (a := .ofBase 0 1) rfl size_onePage
  rw [he] at hreachable hcall
  obtain ⟨rec, closing, happended, hevent, huse⟩ :=
    appended_onePage a hreachable.sound.2 hregions hblocks
  refine ⟨h, a, _, rec, closing, he, hcall, ?_, happended, hevent, huse⟩
  simp [liveAllocations, hlive, handle?, BlockTable.get?, hblocks, blockHeader]

/-- The grant that is resized counts one more than the record shows, and has the bytes that it does
not show. -/
theorem snapshots_show_live_onePage : ∃ h a past rec closing,
    (ofLimits ⟨1, 1⟩).perform (.ofBase 0 1) (.allocate 10) =
      (.ok (some ⟨0, 4, 65532⟩), h, a) ∧
    Lifecycle ⟨1, 1⟩ h a past ∧
    h.appended a (.reallocate (some ⟨0, 4, 65532⟩) 70000) = [rec, closing] ∧
    rec.event.isGrowth = true ∧
    ∃ g ∈ h.liveAllocations, g.block = 0 ∧ g.address = 4 ∧
      rec.stats.active + 1 = h.liveAllocations.length ∧
      rec.stats.usedBytes + (g.length + blockHeader) = blockBytes h.liveAllocations ∧
      rec.stats.active + 1 + released (past ++ [] ++ [rec]) = granted (past ++ [] ++ [rec]) := by
  obtain ⟨h, a, past, rec, closing, he, hl, -, happended, hevent, -⟩ := resize_onePage
  have hgrowth : rec.event.isGrowth = true := by
    rw [hevent]
    rfl
  obtain ⟨-, hrecords⟩ := snapshots_show_live hl (.reallocate (some ⟨0, 4, 65532⟩) 70000)
  obtain ⟨-, -, hresizing⟩ := hrecords [] rec [closing] happended
  exact ⟨h, a, past, rec, closing, he, hl, happended, hgrowth,
    hresizing hgrowth ⟨0, 4, 65532⟩ rfl⟩

/-- Not every record shows the live grants: while the only grant is resized, the record of the page
that is refused shows no block and no byte, although one grant was made and none was given back. -/
theorem resized_grant_not_shown : ∃ h a past rec closing,
    (ofLimits ⟨1, 1⟩).perform (.ofBase 0 1) (.allocate 10) =
      (.ok (some ⟨0, 4, 65532⟩), h, a) ∧
    Lifecycle ⟨1, 1⟩ h a past ∧ h.liveAllocations = [⟨0, 4, 65532⟩] ∧
    h.appended a (.reallocate (some ⟨0, 4, 65532⟩) 70000) = [rec, closing] ∧
    rec.event = .pageLimit 70004 1 2 1 ∧ rec.stats.active ≠ h.liveAllocations.length ∧
    rec.stats.usedBytes ≠ blockBytes h.liveAllocations ∧
    rec.stats.active + released (past ++ [rec]) ≠ granted (past ++ [rec]) := by
  obtain ⟨h, a, past, rec, closing, he, hl, hlive, happended, hevent, huse⟩ := resize_onePage
  obtain ⟨hactive, hbytes⟩ := Prod.ext_iff.mp huse
  dsimp only [HeapStats.use] at hactive hbytes
  obtain ⟨hs, -, hcount⟩ := hl.accounts
  have hone : h.liveCount = 1 := by
    rw [← length_liveAllocations hs, hlive]
    rfl
  refine ⟨h, a, past, rec, closing, he, hl, hlive, happended, hevent, ?_, ?_, ?_⟩
  · simp [hlive, hactive]
  · simp [hlive, hbytes, blockBytes, blockHeader]
  · have hneutral : granted [rec] = 0 ∧ released [rec] = 0 := by
      simp [granted, released, hevent, HeapEvent.isGrant, HeapEvent.isRelease]
    rw [granted_append, released_append, hneutral.1, hneutral.2, hactive]
    omega

end Runs

end Heap
end GuestLibrary
