import GuestLibrary.Proofs.Heap.Atomicity

/-! Which handles a heap accepts. A handle is known by its address and its block: the heap takes it
for the live grant that has both, and rejects it as a misuse where there is none. An address alone
leads to the same grant, since no two live grants share one. -/
namespace GuestLibrary
namespace Heap

variable {h h' : Heap} {a a' : Arena} {g : Allocation} {call : HeapCall} {address : Nat}

/-- The live map sends the address of a handle to its block. -/
def Knows (h : Heap) (g : Allocation) : Prop := List.lookup g.address h.live = some g.block

/-- A known handle names a used block at its usable address. -/
theorem knows_iff (hs : h.Sound a) :
    h.Knows g ↔ ∃ b, h.table.Uses g.block b ∧ g.address = b.start + blockHeader := by
  rw [Knows, LiveGrants.lookup_eq_some_iff hs.lists.ordered, hs.lists.mem_iff]

/-- A known handle has block and address of a live grant, perhaps not its length. -/
theorem knows_iff_live (hs : h.Sound a) :
    h.Knows g ↔ ∃ x ∈ h.liveAllocations, x.block = g.block ∧ x.address = g.address := by
  rw [knows_iff hs]
  constructor
  · rintro ⟨b, hb, ha⟩
    exact ⟨.ofBlock g.block b, ofBlock_mem hs hb, rfl, ha.symm⟩
  · rintro ⟨x, hx, hblock, haddress⟩
    obtain ⟨b, hb, he⟩ := (mem_liveAllocations hs).mp hx
    rw [hblock] at hb
    refine ⟨b, hb, ?_⟩
    rw [← haddress, he]
    rfl

theorem knows_of_live (hs : h.Sound a) (hg : g ∈ h.liveAllocations) : h.Knows g :=
  (knows_iff_live hs).mpr ⟨g, hg, rfl, rfl⟩

/-- Only known handles are valid. -/
theorem validate_of_not_knows (hs : h.Sound a) (call : HeapCall) (hg : ¬ h.Knows g) :
    ∃ d, h.validate call g = .error d := by
  cases hv : h.validate call g with
  | error d => exact ⟨d, rfl⟩
  | ok b => exact absurd ((knows_iff hs).mpr ⟨b, (validate_eq_ok_iff call g hs).mp hv⟩) hg

/-- Whatever is wrong with a handle is a misuse. -/
theorem classOf_validate {d : Diagnostic} (hv : h.validate call g = .error d) :
    d.classOf = .misuse := by
  unfold validate at hv
  split at hv
  · obtain rfl := Except.error.inj hv
    rfl
  split at hv
  · obtain rfl := Except.error.inj hv
    rfl
  split at hv
  · obtain rfl := Except.error.inj hv
    split <;> rfl
  · cases hv

/-- Whatever is wrong with an address is a misuse. -/
theorem classOf_lookup {d : Diagnostic} (hl : h.lookup call address = .error d) :
    d.classOf = .misuse := by
  unfold lookup at hl
  split at hl
  · cases hl
  split at hl
  · obtain rfl := Except.error.inj hl
    rfl
  dsimp only at hl
  split at hl
  · obtain rfl := Except.error.inj hl
    split <;> rfl
  · obtain rfl := Except.error.inj hl
    rfl

/-- Looking an address up finds the live grant at it. -/
theorem lookup_eq_ok_iff (hs : h.Sound a) :
    h.lookup call address = .ok g ↔ g ∈ h.liveAllocations ∧ g.address = address := by
  constructor
  · intro hl
    obtain ⟨b, hb, hg, ha⟩ := lookup_eq_ok hs hl
    exact ⟨(mem_liveAllocations hs).mpr ⟨b, hb, hg⟩, ha⟩
  · rintro ⟨hg, rfl⟩
    obtain ⟨b, hb, he⟩ := (mem_liveAllocations hs).mp hg
    have hknown : List.lookup g.address h.live = some g.block := knows_of_live hs hg
    have hhandle : h.handle? g.block g.address = some g := by
      rw [handle?, hb.1, Option.map_some]
      conv_rhs => rw [he]
      rw [he]
      rfl
    unfold lookup
    rw [hknown, Option.bind_some, hhandle]

/-- A call was rejected: its result names a misuse, and only the log can tell that it was made. -/
def Rejects {α : Type} (h : Heap) (result : Except AllocError α) (h' : Heap) : Prop :=
  ∃ d, result = .error (.misuse d) ∧ d.classOf = .misuse ∧ h.Noted h'

theorem Rejects.ne_ok {α : Type} {result : Except AllocError α} (hr : h.Rejects result h') (x : α) :
    result ≠ .ok x := by
  obtain ⟨d, he, -⟩ := hr
  rw [he]
  exact fun h => by cases h

theorem release_of_not_knows (hs : h.Sound a) (hg : ¬ h.Knows g) :
    h.Rejects (h.release g).1 (h.release g).2 := by
  obtain ⟨d, hv⟩ := validate_of_not_knows hs .free hg
  unfold release
  rw [hv]
  exact ⟨d, rfl, classOf_validate hv, (Noted.refl h).record _ _⟩

/-- Resizing rejects an unknown handle before it looks at the size. -/
theorem resize_of_not_knows (hs : h.Sound a) (hg : ¬ h.Knows g) (size : Nat) :
    h.Rejects (h.resize a g size).1 (h.resize a g size).2.1 ∧ (h.resize a g size).2.2 = a := by
  obtain ⟨d, hv⟩ := validate_of_not_knows hs .realloc hg
  unfold resize
  rw [hv]
  exact ⟨⟨d, rfl, classOf_validate hv, (Noted.refl h).record _ _⟩, rfl⟩

/-- A call that frees a block and marks none takes its grant out of the list of live ones. -/
theorem Step.liveAllocations_erase (hs : h.Sound a) {x : Allocation} (hx : x ∈ h.liveAllocations)
    (hstep : h.Step a h' a' (some x.block) none) :
    h'.liveAllocations = h.liveAllocations.erase x := by
  refine (hstep.perm_released hs hx).eq_of_pairwise ?_ (pairwise_liveAllocations hstep.sound)
    ((pairwise_liveAllocations hs).erase x)
  intro y z _ _ hlt hgt
  exact absurd hlt (Nat.lt_asymm hgt)

/-- Releasing a known handle takes away the live grant of its block and address. -/
theorem release_of_knows (hs : h.Sound a) (hg : h.Knows g) :
    (h.release g).1 = .ok () ∧ ∃ x ∈ h.liveAllocations, x.block = g.block ∧
      x.address = g.address ∧ (h.release g).2.liveAllocations = h.liveAllocations.erase x := by
  obtain ⟨x, hx, hblock, haddress⟩ := (knows_iff_live hs).mp hg
  rcases release_cases hs g with ⟨b, h', -, -, he, hstep⟩ | ⟨d, h', hnot, -, -⟩
  · rw [he]
    rw [← hblock] at hstep
    exact ⟨rfl, x, hx, hblock, haddress, hstep.liveAllocations_erase hs hx⟩
  · obtain ⟨b, hb, ha⟩ := (knows_iff hs).mp hg
    exact absurd ha (hnot b hb)

/-- Where no grant is live at an address, releasing it is rejected. -/
theorem releaseAddress_of_not_live (hs : h.Sound a) (hne : address ≠ 0)
    (hnone : ∀ g ∈ h.liveAllocations, g.address ≠ address) :
    h.Rejects (h.releaseAddress address).1 (h.releaseAddress address).2 := by
  unfold releaseAddress
  rw [if_neg hne]
  cases hl : h.lookup .free address with
  | error d => exact ⟨d, rfl, classOf_lookup hl, (Noted.refl h).record _ _⟩
  | ok g =>
    obtain ⟨hg, ha⟩ := (lookup_eq_ok_iff hs).mp hl
    exact absurd ha (hnone g hg)

/-- Releasing the address of a live grant is releasing the grant. -/
theorem releaseAddress_of_live (hs : h.Sound a) (hg : g ∈ h.liveAllocations) :
    h.releaseAddress g.address = h.release g := by
  have hne : g.address ≠ 0 := by
    have hle := (bounds_of_live hs hg).1
    exact Nat.pos_iff_ne_zero.mp (Nat.lt_of_lt_of_le (by decide) hle)
  unfold releaseAddress
  rw [if_neg hne, (lookup_eq_ok_iff hs).mpr ⟨hg, rfl⟩]

/-- The addresses of the live grants are the keys of the live map. -/
theorem exists_live_iff (hs : h.Sound a) :
    (∃ g ∈ h.liveAllocations, g.address = address) ↔ address ∈ h.live.map (·.1) := by
  rw [← map_address_liveAllocations hs, List.mem_map]

variable {limits : HeapLimits} {writable : Heap → Nat → Nat → Prop}

/-- A release succeeds exactly where the live map sends the address of the handle to its block, and
by address exactly at the keys of the live map, where it is the release of the handle that a look-up
of the address returns. It takes away the one live grant of that block and address, and leaves the
others as they are listed. A release or look-up that is rejected names a misuse, and nothing but
the log is changed. -/
theorem release_accepts_live (hr : Reachable limits writable h a) :
    (∀ g, (h.release g).1 = .ok () ↔ List.lookup g.address h.live = some g.block) ∧
    (∀ g, (h.release g).1 = .ok () → ∃ x ∈ h.liveAllocations, x.block = g.block ∧
      x.address = g.address ∧ (h.release g).2.liveAllocations = h.liveAllocations.erase x) ∧
    (∀ g, (h.release g).1 ≠ .ok () → h.Rejects (h.release g).1 (h.release g).2) ∧
    (∀ address, address ≠ 0 →
      ((h.releaseAddress address).1 = .ok () ↔ address ∈ h.live.map (·.1)) ∧
      ((h.releaseAddress address).1 ≠ .ok () →
        h.Rejects (h.releaseAddress address).1 (h.releaseAddress address).2)) ∧
    ∀ call address,
      (address ∈ h.live.map (·.1) → ∃ g ∈ h.liveAllocations, g.address = address ∧
        h.lookup call address = .ok g ∧ h.releaseAddress address = h.release g) ∧
      (address ∉ h.live.map (·.1) → ∃ d, h.lookup call address = .error d ∧
        d.classOf = .misuse) := by
  have hs := hr.sound.1
  have haccepts : ∀ g, (h.release g).1 = .ok () ↔ h.Knows g := by
    intro g
    refine ⟨fun hok => ?_, fun hg => (release_of_knows hs hg).1⟩
    by_contra hg
    exact (release_of_not_knows hs hg).ne_ok () hok
  refine ⟨haccepts, fun g hok => (release_of_knows hs ((haccepts g).mp hok)).2, fun g hnot => ?_,
    fun address hne => ?_, fun call address => ⟨fun hkey => ?_, fun hkey => ?_⟩⟩
  · exact release_of_not_knows hs (mt (haccepts g).mpr hnot)
  · rw [← exists_live_iff hs]
    by_cases hlive : ∃ g ∈ h.liveAllocations, g.address = address
    · obtain ⟨g, hg, rfl⟩ := hlive
      have hok : (h.releaseAddress g.address).1 = .ok () := by
        rw [releaseAddress_of_live hs hg]
        exact (haccepts g).mpr (knows_of_live hs hg)
      exact ⟨iff_of_true hok ⟨g, hg, rfl⟩, fun hnot => absurd hok hnot⟩
    · have hrejects := releaseAddress_of_not_live hs hne fun g hg ha => hlive ⟨g, hg, ha⟩
      exact ⟨iff_of_false (hrejects.ne_ok ()) hlive, fun _ => hrejects⟩
  · obtain ⟨g, hg, rfl⟩ := (exists_live_iff hs).mpr hkey
    exact ⟨g, hg, rfl, (lookup_eq_ok_iff hs).mpr ⟨hg, rfl⟩, releaseAddress_of_live hs hg⟩
  · rw [← exists_live_iff hs] at hkey
    cases hl : h.lookup call address with
    | error d => exact ⟨d, rfl, classOf_lookup hl⟩
    | ok g => exact absurd ⟨g, (lookup_eq_ok_iff hs).mp hl⟩ hkey

/-- The only grant of a heap of one page is released by its handle and by its address, and by no
other address. -/
theorem release_accepts_live_onePage : ∃ h a, Reachable ⟨1, 1⟩ (fun _ _ _ => True) h a ∧
    (h.release ⟨0, 4, 65532⟩).1 = .ok () ∧ (h.releaseAddress 4).1 = .ok () ∧
    h.Rejects (h.releaseAddress 8).1 (h.releaseAddress 8).2 := by
  have hone : ∀ h a, Reachable ⟨1, 1⟩ (fun _ _ _ => True) h a → h.live = [(4, 0)] →
      (h.release ⟨0, 4, 65532⟩).1 = .ok () ∧ (h.releaseAddress 4).1 = .ok () ∧
        h.Rejects (h.releaseAddress 8).1 (h.releaseAddress 8).2 := by
    intro h a hr hlive
    obtain ⟨hhandle, -, -, haddress, -⟩ := release_accepts_live hr
    refine ⟨(hhandle _).mpr (by rw [hlive]; rfl), (haddress 4 (by decide)).1.mpr ?_,
      (haddress 8 (by decide)).2 fun hok => ?_⟩
    · rw [hlive]
      exact List.mem_singleton.mpr rfl
    · have hkey := (haddress 8 (by decide)).1.mp hok
      rw [hlive] at hkey
      simp at hkey
  have hstart : Reachable ⟨1, 1⟩ (fun _ _ _ => True) (.ofLimits ⟨1, 1⟩) (.ofBase 0 1) :=
    .fresh (.ofBase 0 1)
  exact ⟨_, _, hstart.call _, hone _ _ (hstart.call _) (allocate_onePage rfl size_onePage).2.1⟩

/-- A resize that hands out another grant than the handle it was given hands out a live one. -/
theorem live_of_resize (hs : h.Sound a) {current : Allocation} {size : Nat}
    (hok : (h.resize a current size).1 = .ok g) (hcurrent : current ∈ h.liveAllocations ∨ g ≠ current) :
    g ∈ (h.resize a current size).2.1.liveAllocations ∧ size ≤ g.length := by
  rcases resize_cases hs current size with
    ⟨old, id, b, h', a', -, -, he, hle, hstep⟩ | ⟨old, h', hold, -, he, hle, hstep⟩ |
    ⟨e, h', a', he, -, -⟩
  · rw [he] at hok ⊢
    obtain rfl := Except.ok.inj hok
    exact ⟨ofBlock_mem hstep.sound ((hstep.uses_iff id b).mpr (Or.inl rfl)),
      Nat.le_sub_of_add_le hle⟩
  · rw [he] at hok ⊢
    obtain rfl := Except.ok.inj hok
    have hlive := hcurrent.resolve_right (absurd rfl)
    obtain ⟨b, hb, hg⟩ := (mem_liveAllocations hs).mp hlive
    refine ⟨(hstep.perm_kept hs).mem_iff.mpr hlive, ?_⟩
    rw [hg, hb.unique hold]
    exact Nat.le_sub_of_add_le hle
  · rw [he] at hok
    cases hok

theorem live_of_allocateFor (hs : h.Sound a) {size : Nat}
    (hok : (h.allocateFor a call size).1 = .ok g) :
    g ∈ (h.allocateFor a call size).2.1.liveAllocations ∧ size ≤ g.length := by
  rcases allocateFor_cases hs call size with
    ⟨id, b, h', a', he, hle, hstep⟩ | ⟨e, h', a', he, -, -⟩
  · rw [he] at hok ⊢
    obtain rfl := Except.ok.inj hok
    exact ⟨ofBlock_mem hstep.sound ((hstep.uses_iff id b).mpr (Or.inl rfl)),
      Nat.le_sub_of_add_le hle⟩
  · rw [he] at hok
    cases hok

theorem live_of_allocateZeroed (hs : h.Sound a) {count size : Nat}
    (hok : (h.allocateZeroed a count size).1 = .ok g) :
    g ∈ (h.allocateZeroed a count size).2.1.liveAllocations ∧ count * size ≤ g.length := by
  rcases allocateZeroed_cases hs count size with
    ⟨id, b, h', a', he, hle, hstep, -⟩ | ⟨e, h', a', he, -, -⟩
  · rw [he] at hok ⊢
    obtain rfl := Except.ok.inj hok
    exact ⟨ofBlock_mem hstep.sound ((hstep.uses_iff id b).mpr (Or.inl rfl)),
      Nat.le_sub_of_add_le hle⟩
  · rw [he] at hok
    cases hok

/-- A handle whose block and address are not those of one live grant is rejected by a release and by
a resize to any size, and nothing but the log is changed; memory is not. What a resize of a live
grant, or of none, hands out is live and large enough, and so is all that it hands out other than
the handle it was given. -/
theorem unknown_handles_rejected (hr : Reachable limits writable h a) :
    (∀ g, (∀ x ∈ h.liveAllocations, x.block = g.block → x.address ≠ g.address) →
      h.Rejects (h.release g).1 (h.release g).2 ∧
      ∀ size, h.Rejects (h.resize a g size).1 (h.resize a g size).2.1 ∧
        (h.resize a g size).2.2 = a) ∧
    ∀ current size g, (h.reallocate a current size).1 = .ok g →
      (∀ c, current = some c → c ∈ h.liveAllocations ∨ g ≠ c) →
      g ∈ (h.reallocate a current size).2.1.liveAllocations ∧ size ≤ g.length := by
  have hs := hr.sound.1
  refine ⟨fun g hstale => ?_, fun current size g hok hcurrent => ?_⟩
  · have hunknown : ¬ h.Knows g := by
      rw [knows_iff_live hs]
      rintro ⟨x, hx, hblock, haddress⟩
      exact hstale x hx hblock haddress
    exact ⟨release_of_not_knows hs hunknown, resize_of_not_knows hs hunknown⟩
  · cases current with
    | none => exact live_of_allocateFor hs hok
    | some c => exact live_of_resize hs hok (hcurrent c rfl)

/-- The first grant of a heap of one page and two blocks. -/
theorem allocate_halfPage (hbase : a.heapBase = 0) (hsize : a.memory.size = 65536) :
    ((ofLimits ⟨1, 2⟩).perform a (.allocate 10)).1 = .ok (some ⟨0, 4, 32764⟩) ∧
    ((ofLimits ⟨1, 2⟩).perform a (.allocate 10)).2.1.live = [(4, 0)] ∧
    ((ofLimits ⟨1, 2⟩).perform a (.allocate 10)).2.1.table.blocks =
      [⟨0, 32768, 0, true⟩, ⟨32768, 32768, 0, false⟩] := by
  obtain ⟨h, a', he, hlive, -, hblocks⟩ := @allocate_first a ⟨1, 2⟩ 10
    ⟨⟨0, 0, .unsplit⟩, [⟨0, 32768, 0, true⟩, ⟨32768, 32768, 0, false⟩], [], none⟩
    ⟨0, 32768, 0, true⟩ hbase hsize (by decide) (by decide) (by decide) rfl rfl
  rw [perform_allocate he]
  exact ⟨rfl, hlive, hblocks⟩

/-- It grows in place into the second block. -/
theorem resize_halfPage (hlive : h.live = [(4, 0)])
    (hblocks : h.table.blocks = [⟨0, 32768, 0, true⟩, ⟨32768, 32768, 0, false⟩]) :
    (h.perform a (.reallocate (some ⟨0, 4, 32764⟩) 40000)).1 = .ok (some ⟨0, 4, 40000⟩) ∧
    (h.perform a (.reallocate (some ⟨0, 4, 32764⟩) 40000)).2.1.live = [(4, 0)] ∧
    (h.perform a (.reallocate (some ⟨0, 4, 32764⟩) 40000)).2.1.table.blocks =
      [⟨0, 40004, 0, true⟩, ⟨40004, 25532, 0, false⟩] := by
  simp [perform, reallocate, resize, validate, BlockTable.get?, hblocks, blockHeader, wordLimit,
    resizeLive, searchReplacement, BlockTable.setUsed, BlockTable.find?, BlockTable.size,
    BlockTable.firstFit?, BlockTable.grantFrom?, BlockTable.gather?, BlockTable.divide,
    Block.isHole, Block.fin, Block.emptied, Block.free, pageSize, record, commit?, hlive,
    LiveGrants.erase, LiveGrants.insert, Except.map]

/-- A grant that was released is rejected from then on. -/
theorem unknown_handles_rejected_halfPage : ∃ h a, Reachable ⟨1, 2⟩ (fun _ _ _ => True) h a ∧
    (∀ x ∈ h.liveAllocations, x.block = 0 → x.address ≠ 4) ∧
    h.Rejects (h.release ⟨0, 4, 32764⟩).1 (h.release ⟨0, 4, 32764⟩).2 ∧
    h.Rejects (h.resize a ⟨0, 4, 32764⟩ 10).1 (h.resize a ⟨0, 4, 32764⟩ 10).2.1 ∧
    ∀ g, (h.reallocate a none 10).1 = .ok g → 10 ≤ g.length := by
  have hnone : ∀ h a, Reachable ⟨1, 2⟩ (fun _ _ _ => True) h a → h.live = [] →
      (∀ x ∈ h.liveAllocations, x.block = 0 → x.address ≠ 4) ∧
      h.Rejects (h.release ⟨0, 4, 32764⟩).1 (h.release ⟨0, 4, 32764⟩).2 ∧
      h.Rejects (h.resize a ⟨0, 4, 32764⟩ 10).1 (h.resize a ⟨0, 4, 32764⟩ 10).2.1 ∧
      ∀ g, (h.reallocate a none 10).1 = .ok g → 10 ≤ g.length := by
    intro h a hr hlive
    have hstale : ∀ x ∈ h.liveAllocations, x.block = 0 → x.address ≠ 4 := by
      simp [liveAllocations, hlive]
    obtain ⟨hunknown, hresult⟩ := unknown_handles_rejected hr
    obtain ⟨hrelease, hresize⟩ := hunknown ⟨0, 4, 32764⟩ hstale
    exact ⟨hstale, hrelease, (hresize 10).1,
      fun g hok => (hresult none 10 g hok fun c hc => by cases hc).2⟩
  have hreleased : ∀ (h : Heap) (a : Arena), h.live = [(4, 0)] →
      h.table.blocks = [⟨0, 32768, 0, true⟩, ⟨32768, 32768, 0, false⟩] →
      (h.perform a (.release ⟨0, 4, 32764⟩)).2.1.live = [] := by
    intro h a hlive hblocks
    simp [perform, release, validate, BlockTable.get?, hblocks, blockHeader, record, hlive,
      LiveGrants.erase]
  have hstart : Reachable ⟨1, 2⟩ (fun _ _ _ => True) (.ofLimits ⟨1, 2⟩) (.ofBase 0 1) :=
    .fresh (.ofBase 0 1)
  have hr := (hstart.call (.allocate 10)).call (.release ⟨0, 4, 32764⟩)
  obtain ⟨-, hlive, hblocks⟩ := allocate_halfPage rfl size_onePage
  exact ⟨_, _, hr, hnone _ _ hr (hreleased _ _ hlive hblocks)⟩

/-- After a grant has grown in place, its old handle is accepted although it is not live any more: a
release of it releases the grant, and a resize hands it out again with fewer bytes than were asked
for. -/
theorem outgrown_handle_accepted : ∃ h₁ a₁ h₂ a₂,
    (Heap.ofLimits ⟨1, 2⟩).perform (.ofBase 0 1) (.allocate 10) =
      (.ok (some ⟨0, 4, 32764⟩), h₁, a₁) ∧
    h₁.perform a₁ (.reallocate (some ⟨0, 4, 32764⟩) 40000) =
      (.ok (some ⟨0, 4, 40000⟩), h₂, a₂) ∧
    h₂.liveAllocations = [⟨0, 4, 40000⟩] ∧
    (h₂.release ⟨0, 4, 32764⟩).1 = .ok () ∧ (h₂.release ⟨0, 4, 32764⟩).2.live = [] ∧
    (h₂.resize a₂ ⟨0, 4, 32764⟩ 35000).1 = .ok ⟨0, 4, 32764⟩ := by
  obtain ⟨hfirst, hlive₁, hblocks₁⟩ := allocate_halfPage (a := .ofBase 0 1) rfl size_onePage
  generalize (Heap.ofLimits ⟨1, 2⟩).perform (.ofBase 0 1) (.allocate 10) = first at *
  obtain ⟨r₁, h₁, a₁⟩ := first
  obtain ⟨hsecond, hlive₂, hblocks₂⟩ := resize_halfPage (a := a₁) hlive₁ hblocks₁
  generalize hs : h₁.perform a₁ (.reallocate (some ⟨0, 4, 32764⟩) 40000) = second at *
  obtain ⟨r₂, h₂, a₂⟩ := second
  dsimp only at hfirst hsecond hlive₂ hblocks₂
  refine ⟨h₁, a₁, h₂, a₂, by rw [hfirst], by rw [hs, hsecond], ?_, ?_, ?_, ?_⟩
  · simp [liveAllocations, hlive₂, handle?, BlockTable.get?, hblocks₂, blockHeader]
  · simp [release, validate, BlockTable.get?, hblocks₂, blockHeader]
  · simp [release, validate, BlockTable.get?, hblocks₂, blockHeader, record, hlive₂,
      LiveGrants.erase]
  · simp [resize, validate, BlockTable.get?, hblocks₂, blockHeader, wordLimit]

end Heap
end GuestLibrary
