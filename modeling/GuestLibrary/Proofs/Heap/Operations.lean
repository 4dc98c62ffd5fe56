import GuestLibrary.Proofs.Heap.Growth

/-! What each heap operation can do. Every call, whatever its arguments, frees at most one block,
marks at most one used, and changes bytes only inside the block that it marks. -/
namespace GuestLibrary
namespace Heap

variable {h h' : Heap} {a a' : Arena} {need id : Nat} {b c : Block}

/-- The heap in which a search ends: as it was, or with a new region. -/
inductive Surveyed (h : Heap) (a : Arena) (call : HeapCall) (need : Nat) : Heap → Arena → Prop
  | same : Surveyed h a call need h a
  | grown : Surveyed h a call need (h.addRegion a call need).2.1 (h.addRegion a call need).2.2

theorem Surveyed.kept {call : HeapCall} (hs : h.Surveyed a call need h' a') (ht : h.Tiled a)
    (hn : 0 < need) : h.Kept a h' a' := by
  cases hs with
  | same => exact .refl ht
  | grown => exact addRegion_kept ht call hn

theorem addRegion_eq_error {call : HeapCall} {e : AllocError}
    (h : (h.addRegion a call need).1 = .error e) : e = .exhausted need := by
  rw [addRegion_eq] at h
  dsimp only at h
  split at h
  · exact (Except.error.inj h).symm
  split at h
  · exact (Except.error.inj h).symm
  split at h
  · exact (Except.error.inj h).symm
  split at h
  · exact (Except.error.inj h).symm
  · cases h

/-- A search looks through the table, then through the table with a new region. -/
theorem searchGrowing_surveyed (h : Heap) (a : Arena) (call : HeapCall) (need : Nat) :
    ∃ h' a', h.Surveyed a call need h' a' ∧
      ((∃ first last grant table, h'.table.find? first last need = some (grant, table) ∧
        h.searchGrowing a call need = (.ok grant, { h' with table }, a')) ∨
      h.searchGrowing a call need = (.error (.exhausted need), h', a')) := by
  unfold searchGrowing
  split
  · rename_i grant table hf
    exact ⟨h, a, .same, Or.inl ⟨_, _, grant, table, hf, rfl⟩⟩
  refine ⟨_, _, .grown, ?_⟩
  rcases hr : h.addRegion a call need with ⟨e | _, h₁, a₁⟩
  · obtain rfl := addRegion_eq_error (congrArg Prod.fst hr)
    exact Or.inr rfl
  · dsimp only
    split
    · rename_i grant table hf
      exact Or.inl ⟨_, _, grant, table, hf, rfl⟩
    · exact Or.inr rfl

/-- The search for a replacement does so from the old block on before. -/
theorem searchReplacement_surveyed (h : Heap) (a : Arena) (block need : Nat) :
    ∃ h' a', h.Surveyed a .realloc need h' a' ∧
      ((∃ first last grant window table, h'.table.find? first last need = some (grant, table) ∧
        h.searchReplacement a block need = (some (grant, window), { h' with table }, a')) ∨
      h.searchReplacement a block need = (none, h', a')) := by
  unfold searchReplacement
  split
  · rename_i grant table hf
    exact ⟨h, a, .same, Or.inl ⟨_, _, grant, .forward, table, hf, rfl⟩⟩
  split
  · rename_i grant table hf
    exact ⟨h, a, .same, Or.inl ⟨_, _, grant, .fullScan, table, hf, rfl⟩⟩
  refine ⟨_, _, .grown, ?_⟩
  rcases h.addRegion a .realloc need with ⟨e | _, h₁, a₁⟩
  · exact Or.inr rfl
  · dsimp only
    split
    · rename_i grant table hf
      exact Or.inl ⟨_, _, grant, .grown, table, hf, rfl⟩
    · exact Or.inr rfl

/-- A search finds a block or changes nothing that was used. -/
theorem searchGrowing_cases (ht : h.Tiled a) (call : HeapCall) (hn : blockHeader ≤ need) :
    (∃ grant h' a' b, h.searchGrowing a call need = (.ok grant, h', a') ∧
      h.Placed a h' a' need grant.id b) ∨
    ∃ h' a', h.searchGrowing a call need = (.error (.exhausted need), h', a') ∧
      h.Kept a h' a' := by
  obtain ⟨h', a', hs, hcases⟩ := h.searchGrowing_surveyed a call need
  have hk := hs.kept ht (Nat.lt_of_lt_of_le (by decide) hn)
  rcases hcases with ⟨first, last, grant, table, hf, he⟩ | he
  · obtain ⟨b, hp⟩ := placed_of_find? hk.tiled hn hf
    exact Or.inl ⟨grant, _, a', b, he, hk.trans_placed hp⟩
  · exact Or.inr ⟨h', a', he, hk⟩

theorem searchReplacement_cases (ht : h.Tiled a) (block : Nat) (hn : blockHeader ≤ need) :
    (∃ grant window h' a' b,
      h.searchReplacement a block need = (some (grant, window), h', a') ∧
      h.Placed a h' a' need grant.id b) ∨
    ∃ h' a', h.searchReplacement a block need = (none, h', a') ∧ h.Kept a h' a' := by
  obtain ⟨h', a', hs, hcases⟩ := h.searchReplacement_surveyed a block need
  have hk := hs.kept ht (Nat.lt_of_lt_of_le (by decide) hn)
  rcases hcases with ⟨first, last, grant, window, table, hf, he⟩ | he
  · obtain ⟨b, hp⟩ := placed_of_find? hk.tiled hn hf
    exact Or.inl ⟨grant, window, _, a', b, he, hk.trans_placed hp⟩
  · exact Or.inr ⟨h', a', he, hk⟩

/-- One call took a heap and its arena to others: it freed the block `released` and marked the
block `granted`, where it did either. -/
structure Step (h : Heap) (a : Arena) (h' : Heap) (a' : Arena) (released : Option Nat)
    (granted : Option (Nat × Block)) : Prop where
  sound : h'.Sound a'
  limits_eq : h'.limits = h.limits
  uses_iff : ∀ i c, h'.table.Uses i c ↔
    granted = some (i, c) ∨ h.table.Uses i c ∧ released ≠ some i
  fresh : ∀ i c, granted = some (i, c) → released ≠ some i → ∀ d, ¬ h.table.Uses i d
  changed : a.ChangedWithin a' (granted.elim 0 (·.2.start)) (granted.elim 0 (·.2.fin))
  stamped : ∀ i c, granted = some (i, c) →
    a'.memory.read c.start blockHeader = headerBytes i

theorem Sound.record (hs : h.Sound a) (call : HeapCall) (event : HeapEvent) :
    (h.record call event).Sound a :=
  ⟨hs.toTiled.record call event, hs.lists⟩

theorem Step.record {released : Option Nat} {granted : Option (Nat × Block)}
    (hs : h.Step a h' a' released granted) (call : HeapCall) (event : HeapEvent) :
    h.Step a (h'.record call event) a' released granted :=
  ⟨hs.sound.record call event, hs.limits_eq, hs.uses_iff, hs.fresh, hs.changed, hs.stamped⟩

/-- A call that only searched. -/
theorem Kept.step (hs : h.Sound a) (hk : h.Kept a h' a') : h.Step a h' a' none none where
  sound := by
    refine ⟨hk.tiled, ?_, ?_⟩
    · rw [hk.live_eq]
      exact hs.lists.ordered
    · intro address id
      rw [hk.live_eq, hs.lists.mem_iff]
      simp only [hk.uses_iff]
  limits_eq := hk.limits_eq
  uses_iff i c := by simpa using hk.uses_iff i c
  fresh i c hg := by cases hg
  changed := hk.changed
  stamped i c hg := by cases hg

theorem Step.refl (hs : h.Sound a) : h.Step a h a none none := (Kept.refl hs.toTiled).step hs

/-- A used block becomes a grant. -/
theorem commit?_of_uses {grant : Grant} (hb : h.table.Uses grant.id b) (a : Arena) :
    h.commit? a grant = some (.ofBlock grant.id b,
      { h with live := LiveGrants.insert (b.start + blockHeader) grant.id h.live },
      a.write b.start (headerBytes grant.id)) := by
  unfold commit?
  rw [hb.1]
  rfl

/-- The live map lists the blocks of a table in which one block was marked. -/
theorem lists_insert {live : LiveGrants} {t t' : BlockTable} (hl : live.Lists t)
    (hb : t'.Uses id b) (hfresh : ∀ c, ¬ t.Uses id c)
    (hothers : ∀ i ≠ id, ∀ c, t'.Uses i c ↔ t.Uses i c)
    (hinj : ∀ i c, t'.Uses i c → c.start = b.start → i = id) :
    (LiveGrants.insert (b.start + blockHeader) id live).Lists t' where
  ordered := hl.ordered.insert
  mem_iff address i := by
    rw [LiveGrants.mem_insert hl.ordered, hl.mem_iff]
    constructor
    · rintro (he | ⟨⟨c, hc, rfl⟩, hne⟩)
      · obtain ⟨rfl, rfl⟩ := Prod.mk.inj he
        exact ⟨b, hb, rfl⟩
      · have hi : i ≠ id := fun hi => hfresh c (hi ▸ hc)
        exact ⟨c, (hothers i hi c).mpr hc, rfl⟩
    · rintro ⟨c, hc, rfl⟩
      by_cases hi : i = id
      · subst hi
        rw [hc.unique hb]
        exact Or.inl rfl
      · refine Or.inr ⟨⟨c, (hothers i hi c).mp hc, rfl⟩, fun he => hi ?_⟩
        exact hinj i c hc (Nat.add_right_cancel he)

/-- The live map lists the blocks of a table in which one block was freed. -/
theorem lists_erase (hs : h.Sound a) (hb : h.table.Uses id b) :
    (LiveGrants.erase h.live (b.start + blockHeader)).Lists (h.table.setUsed id false) where
  ordered := hs.lists.ordered.erase
  mem_iff address i := by
    rw [LiveGrants.mem_erase, hs.lists.mem_iff]
    constructor
    · rintro ⟨⟨c, hc, rfl⟩, hne⟩
      refine ⟨c, BlockTable.uses_setUsed_false.mpr ⟨?_, hc⟩, rfl⟩
      rintro rfl
      rw [hc.unique hb] at hne
      exact hne rfl
    · rintro ⟨c, hc, rfl⟩
      obtain ⟨hi, hc⟩ := BlockTable.uses_setUsed_false.mp hc
      exact ⟨⟨c, hc, rfl⟩, fun he => hi (hs.id_inj hc hb (Nat.add_right_cancel he))⟩

theorem length_headerBytes (block : Nat) : (headerBytes block).length = blockHeader := rfl

/-- Freeing a block keeps the table tiled. -/
theorem Tiled.setUsed_false (ht : h.Tiled a) (id : Nat) :
    Tiled { h with table := h.table.setUsed id false } a where
  based := ht.based
  capacity_eq := ht.capacity_eq
  size_le := by simpa using ht.size_le
  pages_le := ht.pages_le
  unacquired hr := by
    have hz := ht.unacquired hr
    simp [BlockTable.setUsed, hz]
  tiles hr := BlockTable.tiles_setUsed (ht.tiles hr) id false
  headed i c hc := ht.headed i c (BlockTable.uses_setUsed_false.mp hc).2
  pages_mapped := ht.pages_mapped
  blocks_mapped := by simpa using ht.blocks_mapped

theorem Tiled.of_size_eq (ht : h.Tiled a) (hb : a'.heapBase = a.heapBase)
    (hs : a'.memory.size = a.memory.size) : h.Tiled a' where
  based := by rw [hb, hs]; exact ht.based
  capacity_eq := ht.capacity_eq
  size_le := ht.size_le
  pages_le := ht.pages_le
  unacquired := ht.unacquired
  tiles hr := by rw [hb, hs]; exact ht.tiles hr
  headed := ht.headed
  pages_mapped := by rw [hs]; exact ht.pages_mapped
  blocks_mapped := by rw [hs]; exact ht.blocks_mapped

/-- The live map is no part of what the table has to satisfy. -/
theorem Tiled.of_live (ht : h.Tiled a) (live : LiveGrants) : Tiled { h with live } a :=
  ⟨ht.based, ht.capacity_eq, ht.size_le, ht.pages_le, ht.unacquired, ht.tiles, ht.headed,
    ht.pages_mapped, ht.blocks_mapped⟩

/-- Committing a block that was placed in a table where `released` had been freed. -/
theorem Placed.step {t : BlockTable} {live : LiveGrants} (released : Option Nat) {a'' : Arena}
    (hl : live.Lists t) (ht : ∀ i c, t.Uses i c ↔ h.table.Uses i c ∧ released ≠ some i)
    (hn : blockHeader ≤ need) (hp : Placed { h with table := t } a h' a' need id b)
    (hc : a'.ChangedWithin a'' b.start b.fin) (hsize : a''.memory.size = a'.memory.size) :
    h.Step a { h' with live := LiveGrants.insert (b.start + blockHeader) id live }
      (a''.write b.start (headerBytes id)) released (some (id, b)) := by
  have hle := hp.need_le
  have hfin : b.fin = b.start + b.size := rfl
  have hbound := hp.tiled.bounds hp.uses
  have hlen := length_headerBytes id
  refine ⟨⟨?_, ?_⟩, hp.limits_eq, ?_, ?_, ?_, ?_⟩
  · exact (hp.tiled.of_live _).of_size_eq hc.heapBase_eq (by simpa using hsize)
  · exact lists_insert hl hp.uses hp.fresh hp.others fun i c hu hs => hp.tiled.id_inj hu hp.uses hs
  · intro i c
    by_cases hi : i = id
    · subst hi
      have hnot : ¬ (h.table.Uses i c ∧ released ≠ some i) := fun hu => hp.fresh c ((ht i c).mpr hu)
      simp only [hnot, or_false, Option.some.injEq, Prod.mk.injEq, true_and]
      exact ⟨fun hu => hp.uses.unique hu, fun he => he ▸ hp.uses⟩
    · have hne : some (id, b) ≠ some (i, c) := by simp [Ne.symm hi]
      simp only [hne, false_or]
      exact (hp.others i hi c).trans (ht i c)
  · intro i c hg hr d hd
    obtain ⟨rfl, rfl⟩ := Prod.mk.inj (Option.some.inj hg)
    exact hp.fresh d ((ht _ d).mpr ⟨hd, hr⟩)
  · have hw : a''.ChangedWithin (a''.write b.start (headerBytes id)) b.start b.fin :=
      .write (Nat.le_refl _) (by omega)
    exact ((hp.changed.of_empty b.start b.fin).trans hc).trans hw
  · intro i c hg
    obtain ⟨rfl, rfl⟩ := Prod.mk.inj (Option.some.inj hg)
    exact LinearMemory.read_write_self (m := a''.memory) (by omega)

/-- Bytes behind the header of a block that was just granted may be written. -/
theorem Step.write {released : Option Nat} {address : Nat} {block : Bytes}
    (hs : h.Step a h' a' released (some (id, b))) (hlo : b.start + blockHeader ≤ address)
    (hhi : address + block.length ≤ b.fin) :
    h.Step a h' (a'.write address block) released (some (id, b)) where
  sound := ⟨hs.sound.toTiled.of_size_eq rfl (by simp), hs.sound.lists⟩
  limits_eq := hs.limits_eq
  uses_iff := hs.uses_iff
  fresh := hs.fresh
  changed := hs.changed.trans (.write (Nat.le_trans (Nat.le_add_right _ _) hlo) hhi)
  stamped i c hg := by
    rw [← hs.stamped i c hg]
    obtain ⟨rfl, rfl⟩ := Prod.mk.inj (Option.some.inj hg)
    exact LinearMemory.read_congr fun i _ hi => LinearMemory.get?_write_of_outside (by omega)

/-- Allocation grants a fresh block that is large enough, or changes nothing that was used. -/
theorem allocateFor_cases (hs : h.Sound a) (call : HeapCall) (size : Nat) :
    (∃ id b h' a', h.allocateFor a call size = (.ok (.ofBlock id b), h', a') ∧
      size + blockHeader ≤ b.size ∧ h.Step a h' a' none (some (id, b))) ∨
    ∃ e h' a', h.allocateFor a call size = (.error e, h', a') ∧ (∀ d, e ≠ .misuse d) ∧
      h.Step a h' a' none none := by
  unfold allocateFor
  dsimp only
  split
  · exact Or.inr ⟨_, _, _, rfl, by simp, (Step.refl hs).record _ _⟩
  rcases searchGrowing_cases hs.toTiled call (Nat.le_add_left blockHeader size) with
    ⟨grant, h', a', b, he, hp⟩ | ⟨h', a', he, hk⟩
  · have hstep := Placed.step none hs.lists (by simp) (Nat.le_add_left _ size) hp
      (.refl a' _ _) rfl
    rw [he]
    dsimp only
    rw [commit?_of_uses hp.uses]
    dsimp only
    rw [hp.live_eq]
    exact Or.inl ⟨grant.id, b, _, _, rfl, hp.need_le, hstep.record _ _⟩
  · rw [he]
    exact Or.inr ⟨_, _, _, rfl, by simp, (hk.step hs).record _ _⟩

/-- A zeroed allocation reads as zero over its whole grant. -/
theorem allocateZeroed_cases (hs : h.Sound a) (count size : Nat) :
    (∃ id b h' a', h.allocateZeroed a count size = (.ok (.ofBlock id b), h', a') ∧
      count * size + blockHeader ≤ b.size ∧ h.Step a h' a' none (some (id, b)) ∧
      a'.memory.read (b.start + blockHeader) (b.size - blockHeader) =
        List.replicate (b.size - blockHeader) 0) ∨
    ∃ e h' a', h.allocateZeroed a count size = (.error e, h', a') ∧ (∀ d, e ≠ .misuse d) ∧
      h.Step a h' a' none none := by
  unfold allocateZeroed
  dsimp only
  split
  · exact Or.inr ⟨_, _, _, rfl, by simp, (Step.refl hs).record _ _⟩
  rcases allocateFor_cases hs .calloc (count * size) with
    ⟨id, b, h', a', he, hle, hstep⟩ | ⟨e, h', a', he, hd, hstep⟩
  · rw [he]
    have hu := (hstep.uses_iff id b).mpr (Or.inl rfl)
    have hbound := hstep.sound.bounds hu
    have hfin : b.fin = b.start + b.size := rfl
    have hlen : (List.replicate (b.size - blockHeader) (0 : UInt8)).length =
        b.size - blockHeader := List.length_replicate
    have hhead := hstep.sound.headed id b hu
    refine Or.inl ⟨id, b, h', _, rfl, hle, hstep.write (Nat.le_refl _) ?_, ?_⟩
    · simp only [Allocation.ofBlock, hlen]
      omega
    · have hroom : b.start + blockHeader +
          (List.replicate (b.size - blockHeader) (0 : UInt8)).length ≤ a'.memory.size := by omega
      have hread := LinearMemory.read_write_self hroom
      rwa [hlen] at hread
  · rw [he]
    exact Or.inr ⟨e, h', a', rfl, hd, hstep⟩

/-- A valid handle names a used block. -/
theorem uses_of_validate {call : HeapCall} {grant : Allocation}
    (hv : h.validate call grant = .ok b) :
    h.table.Uses grant.block b ∧ grant.address = b.start + blockHeader := by
  unfold validate at hv
  cases hg : h.table.get? grant.block with
  | none => simp [hg] at hv
  | some c =>
    rw [hg] at hv
    dsimp only at hv
    split at hv
    · cases hv
    rename_i hgood
    split at hv
    · cases hv
    rename_i hused
    obtain rfl := Except.ok.inj hv
    rw [not_or, not_not] at hgood
    exact ⟨⟨hg, by simpa using hused⟩, hgood.1.symm⟩

/-- A handle is valid when it names a used block at its usable address. -/
theorem validate_eq_ok_iff (call : HeapCall) (grant : Allocation) (hs : h.Sound a) :
    h.validate call grant = .ok b ↔
      h.table.Uses grant.block b ∧ grant.address = b.start + blockHeader := by
  refine ⟨uses_of_validate, fun ⟨hu, ha⟩ => ?_⟩
  have hsize : b.size ≠ 0 := by
    have := hs.headed _ _ hu
    simp only [blockHeader] at this
    omega
  unfold validate
  rw [hu.1]
  simp [ha, hsize, hu.2]

/-- Releasing frees the block that a valid handle names, and does nothing for any other. -/
theorem release_cases (hs : h.Sound a) (grant : Allocation) :
    (∃ b h', h.table.Uses grant.block b ∧ grant.address = b.start + blockHeader ∧
      h.release grant = (.ok (), h') ∧ h.Step a h' a (some grant.block) none) ∨
    ∃ d h', (∀ b, h.table.Uses grant.block b → grant.address ≠ b.start + blockHeader) ∧
      h.release grant = (.error (.misuse d), h') ∧ h.Step a h' a none none := by
  unfold release
  cases hv : h.validate .free grant with
  | error d =>
    refine Or.inr ⟨d, _, fun b hb ha => ?_, rfl, (Step.refl hs).record _ _⟩
    rw [(validate_eq_ok_iff .free grant hs).mpr ⟨hb, ha⟩] at hv
    cases hv
  | ok b =>
    obtain ⟨hb, ha⟩ := (validate_eq_ok_iff .free grant hs).mp hv
    have hlists := lists_erase hs hb
    rw [← ha] at hlists
    have hstep : h.Step a { h with
        table := h.table.setUsed grant.block false
        live := LiveGrants.erase h.live grant.address } a (some grant.block) none := by
      refine ⟨⟨(hs.setUsed_false grant.block).of_live _, hlists⟩, rfl, ?_, ?_, .refl a 0 0, ?_⟩
      · intro i c
        simp only [BlockTable.uses_setUsed_false, reduceCtorEq, false_or, ne_eq, Option.some.injEq,
          and_comm, eq_comm]
      · intro i c hg
        cases hg
      · intro i c hg
        cases hg
    exact Or.inl ⟨b, _, hb, ha, rfl, hstep.record _ _⟩

/-- The handle that a look-up finds is the live grant at the address. -/
theorem lookup_eq_ok (hs : h.Sound a) {call : HeapCall} {address : Nat} {grant : Allocation}
    (hl : h.lookup call address = .ok grant) :
    ∃ b, h.table.Uses grant.block b ∧ grant = .ofBlock grant.block b ∧ grant.address = address := by
  unfold lookup at hl
  split at hl
  · rename_i found hf
    obtain rfl := Except.ok.inj hl
    obtain ⟨block, hblock, hhandle⟩ := Option.bind_eq_some_iff.mp hf
    obtain ⟨c, hc, rfl⟩ := Option.map_eq_some_iff.mp hhandle
    obtain ⟨b, hb, rfl⟩ := (hs.lists.mem_iff address block).mp
      ((LiveGrants.lookup_eq_some_iff hs.lists.ordered).mp hblock)
    obtain rfl : b = c := Option.some.inj (hb.1.symm.trans hc)
    exact ⟨b, hb, rfl, rfl⟩
  · split at hl
    · cases hl
    · dsimp only at hl
      split at hl <;> cases hl

/-- Releasing by address frees at most the block whose usable address it is. -/
theorem releaseAddress_cases (hs : h.Sound a) (address : Nat) :
    (∃ id b h', h.table.Uses id b ∧ address = b.start + blockHeader ∧
      h.releaseAddress address = (.ok (), h') ∧ h.Step a h' a (some id) none) ∨
    ∃ r h', h.releaseAddress address = (r, h') ∧ h.Step a h' a none none ∧
      (r = .ok () → address = 0) := by
  unfold releaseAddress
  split
  · rename_i hz
    exact Or.inr ⟨_, _, rfl, (Step.refl hs).record _ _, fun _ => hz⟩
  cases hl : h.lookup .free address with
  | error d => exact Or.inr ⟨_, _, rfl, (Step.refl hs).record _ _, fun he => by cases he⟩
  | ok grant =>
    obtain ⟨b, hb, hgrant, haddr⟩ := lookup_eq_ok hs hl
    have hstart : grant.address = b.start + blockHeader := by
      rw [hgrant]
      rfl
    rcases release_cases hs grant with ⟨c, h', hc, -, he, hstep⟩ | ⟨d, h', hnot, -, -⟩
    · obtain rfl := hb.unique hc
      exact Or.inl ⟨grant.block, b, h', hb, haddr.symm.trans hstart, he, hstep⟩
    · exact absurd hstart (hnot b hb)

/-- A search that found nothing for a freed block is undone by marking the block again. -/
theorem Kept.restore (ht : h.Tiled a) (hb : h.table.Uses id b)
    (hk : Kept { h with table := h.table.setUsed id false } a h' a') :
    h.Kept a { h' with table := h'.table.setUsed id true } a' := by
  have hget := BlockTable.get?_restore hb hk.get?_eq
  have huses : ∀ i c, (h'.table.setUsed id true).Uses i c ↔ h.table.Uses i c := by
    intro i c
    unfold BlockTable.Uses
    rw [hget]
    split
    · rename_i hi
      rw [hi, hb.1]
    · rename_i hi
      have hiff := hk.uses_iff i c
      rw [BlockTable.uses_setUsed_false] at hiff
      exact hiff.trans (and_iff_right hi)
  refine ⟨⟨hk.tiled.based, hk.tiled.capacity_eq, by simpa using hk.tiled.size_le,
    hk.tiled.pages_le, fun hr => ?_, fun hr => BlockTable.tiles_setUsed (hk.tiled.tiles hr) id true,
    fun i c hc => ht.headed i c ((huses i c).mp hc), hk.tiled.pages_mapped,
    by simpa using hk.tiled.blocks_mapped⟩, hk.limits_eq, hk.live_eq, ?_, huses, hk.changed⟩
  · simp [BlockTable.setUsed, hk.tiled.unacquired hr]
  · intro i c hc
    rw [hget]
    split
    · rename_i hi
      rw [← hc, hi, hb.1]
    · rename_i hi
      refine hk.get?_eq i c ?_
      simpa [BlockTable.get?_setUsed, hi] using hc

/-- A resize to a block that was found copies to it and then stamps it. -/
theorem resizeLive_of_placed {current : Allocation} {grant : Grant} {window : SearchWindow}
    (old : Block)
    (hfound : searchReplacement { h with table := h.table.setUsed current.block false } a
      current.block need = (some (grant, window), h', a'))
    (huse : h'.table.Uses grant.id b) (size : Nat) : ∃ event,
    h.resizeLive a current old size need = (.ok (.ofBlock grant.id b),
      record { h' with
        live := LiveGrants.insert (b.start + blockHeader) grant.id
          (LiveGrants.erase h'.live current.address) } .realloc event,
      (a'.copyWithin current.address (min (old.size - blockHeader) size)
        (b.start + blockHeader)).write b.start (headerBytes grant.id)) := by
  unfold resizeLive
  dsimp only
  rw [hfound]
  dsimp only
  rw [huse.1]
  dsimp only
  rw [commit?_of_uses (h := { h' with live := LiveGrants.erase h'.live current.address }) huse]
  exact ⟨_, rfl⟩

/-- Moving a live grant to a block that is large enough, or keeping it where there is none. -/
theorem resizeLive_cases (hs : h.Sound a) {current : Allocation} {old : Block}
    (hold : h.table.Uses current.block old) (ha : current.address = old.start + blockHeader)
    (size : Nat) :
    (∃ id b h' a', h.resizeLive a current old size (size + blockHeader) =
      (.ok (.ofBlock id b), h', a') ∧ size + blockHeader ≤ b.size ∧
      h.Step a h' a' (some current.block) (some (id, b))) ∨
    ∃ n h' a', h.resizeLive a current old size (size + blockHeader) =
      (.error (.exhausted n), h', a') ∧ h.Step a h' a' none none := by
  rcases searchReplacement_cases (hs.setUsed_false current.block) current.block
    (Nat.le_add_left blockHeader size) with
    ⟨grant, window, h', a', b, he, hp⟩ | ⟨h', a', he, hk⟩
  · have hfin : b.fin = b.start + b.size := rfl
    have hle := hp.need_le
    have hcopy : a'.ChangedWithin (a'.copyWithin current.address
        (min (old.size - blockHeader) size) (b.start + blockHeader)) b.start b.fin :=
      .copyWithin (Nat.le_add_right _ _) (by omega)
    have huses : ∀ i c, (h.table.setUsed current.block false).Uses i c ↔
        h.table.Uses i c ∧ some current.block ≠ some i := by
      intro i c
      rw [BlockTable.uses_setUsed_false, and_comm, ne_eq, ne_eq, Option.some.injEq, eq_comm]
    have hstep := Placed.step (some current.block) (lists_erase hs hold) huses
      (Nat.le_add_left _ size) hp hcopy (by simp)
    have hlive : h'.live = h.live := hp.live_eq
    obtain ⟨event, hmoved⟩ := resizeLive_of_placed old he hp.uses size
    rw [hlive, ha] at hmoved
    rw [ha] at hstep
    exact Or.inl ⟨grant.id, b, _, _, hmoved, hle, hstep.record _ _⟩
  · unfold resizeLive
    dsimp only
    rw [he]
    exact Or.inr ⟨_, _, _, rfl, ((hk.restore hs.toTiled hold).step hs).record _ _⟩

/-- Resizing a valid handle leaves it where it fits, moves it to a block that is large enough, or
fails with everything in place. -/
theorem resize_cases (hs : h.Sound a) (current : Allocation) (size : Nat) :
    (∃ old id b h' a', h.table.Uses current.block old ∧
      current.address = old.start + blockHeader ∧
      h.resize a current size = (.ok (.ofBlock id b), h', a') ∧ size + blockHeader ≤ b.size ∧
      h.Step a h' a' (some current.block) (some (id, b))) ∨
    (∃ old h', h.table.Uses current.block old ∧ current.address = old.start + blockHeader ∧
      h.resize a current size = (.ok current, h', a) ∧ size + blockHeader ≤ old.size ∧
      h.Step a h' a none none) ∨
    ∃ e h' a', h.resize a current size = (.error e, h', a') ∧ h.Step a h' a' none none ∧
      ∀ d, e = .misuse d → ∀ b, h.table.Uses current.block b →
        current.address ≠ b.start + blockHeader := by
  unfold resize
  cases hv : h.validate .realloc current with
  | error d =>
    refine Or.inr (Or.inr ⟨_, _, _, rfl, (Step.refl hs).record _ _, fun _ _ b hb ha => ?_⟩)
    rw [(validate_eq_ok_iff .realloc current hs).mpr ⟨hb, ha⟩] at hv
    cases hv
  | ok old =>
    obtain ⟨hold, ha⟩ := (validate_eq_ok_iff .realloc current hs).mp hv
    dsimp only
    split
    · exact Or.inr (Or.inr ⟨_, _, _, rfl, Step.refl hs, fun d he => by cases he⟩)
    split
    · rename_i hfits
      exact Or.inr (Or.inl ⟨old, _, hold, ha, rfl, hfits, (Step.refl hs).record _ _⟩)
    rcases resizeLive_cases hs hold ha size with
      ⟨id, b, h', a', he, hle, hstep⟩ | ⟨n, h', a', he, hstep⟩
    · exact Or.inl ⟨old, id, b, h', a', hold, ha, he, hle, hstep⟩
    · exact Or.inr (Or.inr ⟨_, h', a', he, hstep, fun d he => by cases he⟩)

end Heap
end GuestLibrary
