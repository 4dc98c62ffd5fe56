import GuestLibrary.Proofs.Stream.Buffer
import GuestLibrary.Proofs.Stream.Client

/-! The ledger of a stream system: every live grant of its heap is held by the program or owned by
one slot. Each operation is taken apart into allocations, releases and changes of slots; a grant
that is on its way from the one to the other counts as held. -/
namespace GuestLibrary

theorem BufferStorage.grant?_eq_some {storage : BufferStorage} {g : Allocation} :
    storage.grant? = some g ↔ storage = .owned g ∨ storage = .borrowed g := by
  cases storage <;> simp [BufferStorage.grant?]

namespace StreamTable

variable {t : StreamTable} {id i : StreamId} {s : Stream} {g : Allocation}

theorem get_set : (t.set id s).get i = if i = id then s else t.get i := by
  simp only [get, set, Fin.getElem_fin, Vector.getElem_set, Fin.ext_iff, eq_comm]

@[simp] theorem get_set_self : (t.set id s).get id = s := by rw [get_set, if_pos rfl]

theorem get_set_of_ne (h : i ≠ id) : (t.set id s).get i = t.get i := by rw [get_set, if_neg h]

theorem set_set (t : StreamTable) (id : StreamId) (s s' : Stream) :
    (t.set id s).set id s' = t.set id s' := by
  simp [set]

/-- The grants that slots own. -/
def owned (t : StreamTable) : List Allocation :=
  (List.finRange streamSlots).filterMap fun i => (t.get i).storage.owned?

/-- The grants that slots other than `id` own. -/
def ownedElsewhere (t : StreamTable) (id : StreamId) : List Allocation :=
  ((List.finRange streamSlots).erase id).filterMap fun i => (t.get i).storage.owned?

theorem owned?_eq_some {storage : BufferStorage} :
    storage.owned? = some g ↔ storage = .owned g := by
  cases storage <;> simp [BufferStorage.owned?]

theorem mem_owned : g ∈ t.owned ↔ ∃ i, (t.get i).storage = .owned g := by
  simp [owned, List.mem_filterMap, owned?_eq_some]

theorem mem_ownedElsewhere :
    g ∈ t.ownedElsewhere id ↔ ∃ i, i ≠ id ∧ (t.get i).storage = .owned g := by
  simp [ownedElsewhere, List.mem_filterMap, owned?_eq_some,
    (List.nodup_finRange streamSlots).mem_erase_iff]

theorem owned_perm (t : StreamTable) (id : StreamId) :
    t.owned.Perm ((t.get id).storage.owned?.toList ++ t.ownedElsewhere id) := by
  have h := (List.perm_cons_erase (List.mem_finRange id)).filterMap
    fun i => (t.get i).storage.owned?
  refine h.trans (.of_eq ?_)
  rw [List.filterMap_cons]
  unfold ownedElsewhere
  cases (t.get id).storage.owned? <;> rfl

theorem ownedElsewhere_set : (t.set id s).ownedElsewhere id = t.ownedElsewhere id := by
  apply List.filterMap_congr
  intro i hi
  have hne : i ≠ id := by
    rintro rfl
    exact List.Nodup.not_mem_erase (List.nodup_finRange _) hi
  rw [get_set_of_ne hne]

/-- A change of a slot exchanges what it owned for what it owns. -/
theorem owned_set_perm (t : StreamTable) (id : StreamId) (s : Stream) :
    (s.storage.owned?.toList ++ t.owned).Perm
      ((t.get id).storage.owned?.toList ++ (t.set id s).owned) := by
  have h := ((t.set id s).owned_perm id).symm
  rw [get_set_self, ownedElsewhere_set] at h
  refine ((t.owned_perm id).append_left _).trans (List.Perm.trans ?_ (h.append_left _))
  rw [← List.append_assoc, ← List.append_assoc]
  exact List.perm_append_comm.append_right _

end StreamTable

/-- A host with the same console, and the same bytes in the grants. -/
structure Host.Quiet (grants : List Allocation) (h h' : Host) : Prop where
  console_eq : h'.console = h.console
  get?_eq : ∀ g ∈ grants, ∀ i, g.address ≤ i → i < g.address + g.length →
    h'.arena.memory.get? i = h.arena.memory.get? i

theorem Host.Quiet.refl (grants : List Allocation) (h : Host) : h.Quiet grants h :=
  ⟨rfl, fun _ _ _ _ _ => rfl⟩

theorem Host.Quiet.trans {grants : List Allocation} {h h' h'' : Host} (hq : h.Quiet grants h')
    (hq' : h'.Quiet grants h'') : h.Quiet grants h'' where
  console_eq := hq'.console_eq.trans hq.console_eq
  get?_eq g hg i hlo hhi := (hq'.get?_eq g hg i hlo hhi).trans (hq.get?_eq g hg i hlo hhi)

/-- The live grants are those that the program holds and those that slots own. -/
structure Ledger (sys : StreamSystem) (held : List Allocation) : Prop where
  sound : sys.heap.Sound sys.host.arena
  perm : sys.heap.liveAllocations.Perm (held ++ sys.streams.owned)
  closed : ∀ id, (sys.streams.get id).isOpen = false → (sys.streams.get id).storage.owned? = none

/-- A failure that is not the fault of the program. -/
def AllocError.IsShortage (e : AllocError) : Prop := ∀ d, e ≠ .misuse d

namespace Ledger

variable {sys : StreamSystem} {held : List Allocation} {id : StreamId} {s : Stream}
  {g : Allocation}

theorem mem_live_of_held (hl : Ledger sys held) (hg : g ∈ held) :
    g ∈ sys.heap.liveAllocations :=
  hl.perm.mem_iff.mpr (List.mem_append_left _ hg)

theorem mem_live_of_owned (hl : Ledger sys held) (hg : g ∈ sys.streams.owned) :
    g ∈ sys.heap.liveAllocations :=
  hl.perm.mem_iff.mpr (List.mem_append_right _ hg)

theorem nodup (hl : Ledger sys held) : (held ++ sys.streams.owned).Nodup :=
  hl.perm.nodup_iff.mp (Heap.nodup_liveAllocations hl.sound)

/-- A grant belongs to one slot at most. -/
theorem owner_unique (hl : Ledger sys held) {i j : StreamId}
    (hi : (sys.streams.get i).storage = .owned g) (hj : (sys.streams.get j).storage = .owned g) :
    j = i := by
  by_contra hne
  have hperm := sys.streams.owned_perm i
  rw [hi] at hperm
  have hnodup := hperm.nodup_iff.mp (List.nodup_append.mp hl.nodup).2.1
  exact (List.nodup_cons.mp hnodup).1 (StreamTable.mem_ownedElsewhere.mpr ⟨j, hne, hj⟩)

/-- What a stream reads from a buffer of its own are the bytes of the grant. -/
theorem front_of_owned (hl : Ledger sys held) (hg : (sys.streams.get id).storage = .owned g)
    {n : Nat} (hn : n ≤ g.length) :
    (sys.streams.get id).bufferFront sys.host.arena.memory n =
      sys.host.arena.memory.read g.address n := by
  have hlive := hl.mem_live_of_owned (StreamTable.mem_owned.mpr ⟨id, hg⟩)
  have hbound := (Heap.bounds_of_live hl.sound hlive).2
  have hcovers : sys.host.arena.memory.covers g.address g.length = true := by
    simpa [LinearMemory.covers] using hbound
  unfold Stream.bufferFront Stream.bufferLength
  rw [hg]
  dsimp only
  rw [if_pos hcovers, Nat.min_eq_left hn]

/-- The ledger concerns neither the console nor the contents of memory. -/
theorem of_host (hl : Ledger sys held) {host : Host}
    (hb : host.arena.heapBase = sys.host.arena.heapBase)
    (hs : host.arena.memory.size = sys.host.arena.memory.size) :
    Ledger ⟨sys.streams, sys.heap, host⟩ held :=
  ⟨⟨hl.sound.toTiled.of_size_eq hb hs, hl.sound.lists⟩, hl.perm, hl.closed⟩

/-- A slot takes what its new stream owns and gives back what its old one did. -/
theorem place (hl : Ledger sys (s.storage.owned?.toList ++ held)) (id : StreamId)
    (hc : s.isOpen = false → s.storage.owned? = none) :
    Ledger ⟨sys.streams.set id s, sys.heap, sys.host⟩
      ((sys.streams.get id).storage.owned?.toList ++ held) where
  sound := hl.sound
  perm := by
    have hset := (sys.streams.owned_set_perm id s).append_left held
    have hleft : (s.storage.owned?.toList ++ held ++ sys.streams.owned).Perm
        (held ++ (s.storage.owned?.toList ++ sys.streams.owned)) := by
      rw [← List.append_assoc]
      exact List.perm_append_comm.append_right _
    have hright : (held ++ ((sys.streams.get id).storage.owned?.toList ++
        (sys.streams.set id s).owned)).Perm ((sys.streams.get id).storage.owned?.toList ++ held ++
          (sys.streams.set id s).owned) := by
      rw [← List.append_assoc]
      exact List.perm_append_comm.append_right _
    exact ((hl.perm.trans hleft).trans hset).trans hright
  closed i := by
    by_cases hi : i = id
    · subst hi
      simpa using hc
    · dsimp only
      rw [StreamTable.get_set_of_ne hi]
      exact hl.closed i

/-- A slot whose stream keeps its storage. -/
theorem keep (hl : Ledger sys held) (hstorage : s.storage = (sys.streams.get id).storage)
    (hopen : s.isOpen = false → (sys.streams.get id).isOpen = false) :
    Ledger ⟨sys.streams.set id s, sys.heap, sys.host⟩ held := by
  have hperm := sys.streams.owned_set_perm id s
  rw [hstorage] at hperm
  refine ⟨hl.sound, hl.perm.trans ?_, fun i => ?_⟩
  · exact ((List.perm_append_left_iff _).mp hperm).append_left held
  · by_cases hi : i = id
    · subst hi
      dsimp only
      rw [StreamTable.get_set_self, hstorage]
      exact fun hs => hl.closed i (hopen hs)
    · dsimp only
      rw [StreamTable.get_set_of_ne hi]
      exact hl.closed i

section Steps

variable {h' : Heap} {a' : Arena} {i : Nat} {b : Block}

theorem of_kept (hl : Ledger sys held) (hstep : sys.heap.Step sys.host.arena h' a' none none) :
    Ledger ⟨sys.streams, h', { sys.host with arena := a' }⟩ held :=
  ⟨hstep.sound, (hstep.perm_kept hl.sound).trans hl.perm, hl.closed⟩

theorem of_granted (hl : Ledger sys held)
    (hstep : sys.heap.Step sys.host.arena h' a' none (some (i, b))) :
    Ledger ⟨sys.streams, h', { sys.host with arena := a' }⟩ (.ofBlock i b :: held) :=
  ⟨hstep.sound, (hstep.perm_granted hl.sound).trans (hl.perm.cons _), hl.closed⟩

theorem erase_perm (hl : Ledger sys held) (hg : g ∈ held) :
    (sys.heap.liveAllocations.erase g).Perm (held.erase g ++ sys.streams.owned) := by
  rw [← List.erase_append_left _ hg]
  exact hl.perm.erase g

theorem of_released (hl : Ledger sys held) (hg : g ∈ held)
    (hstep : sys.heap.Step sys.host.arena h' sys.host.arena (some g.block) none) :
    Ledger ⟨sys.streams, h', sys.host⟩ (held.erase g) :=
  ⟨hstep.sound, (hstep.perm_released hl.sound (hl.mem_live_of_held hg)).trans (hl.erase_perm hg),
    hl.closed⟩

theorem of_moved (hl : Ledger sys held) (hg : g ∈ held)
    (hstep : sys.heap.Step sys.host.arena h' a' (some g.block) (some (i, b))) :
    Ledger ⟨sys.streams, h', { sys.host with arena := a' }⟩ (.ofBlock i b :: held.erase g) :=
  ⟨hstep.sound, (hstep.perm_moved hl.sound (hl.mem_live_of_held hg)).trans
    ((hl.erase_perm hg).cons _), hl.closed⟩

theorem quiet_of_step {granted : Option (Nat × Block)} (hl : Ledger sys held)
    (hstep : sys.heap.Step sys.host.arena h' a' none granted) :
    sys.host.Quiet sys.heap.liveAllocations { sys.host with arena := a' } :=
  ⟨rfl, fun _ hg _ hlo hhi =>
    hstep.get?_eq_of_live hl.sound hg (fun hr => by cases hr) hlo hhi⟩

end Steps

theorem allocateBuffer (hl : Ledger sys held) (size : Nat) :
    (∃ g heap host, sys.allocateBuffer size = (.ok g, ⟨sys.streams, heap, host⟩) ∧
      size ≤ g.length ∧ Ledger ⟨sys.streams, heap, host⟩ (g :: held) ∧
      sys.host.Quiet sys.heap.liveAllocations host) ∨
    ∃ e heap host, sys.allocateBuffer size = (.error (.alloc e), ⟨sys.streams, heap, host⟩) ∧
      e.IsShortage ∧ Ledger ⟨sys.streams, heap, host⟩ held ∧
      sys.host.Quiet sys.heap.liveAllocations host := by
  unfold StreamSystem.allocateBuffer Heap.allocate
  dsimp only
  rcases Heap.allocateFor_cases hl.sound .malloc size with
    ⟨i, b, h', a', he, hle, hstep⟩ | ⟨e, h', a', he, hshort, hstep⟩
  · rw [he]
    refine Or.inl ⟨.ofBlock i b, h', _, rfl, ?_, hl.of_granted hstep, hl.quiet_of_step hstep⟩
    simp only [Allocation.ofBlock]
    omega
  · rw [he]
    exact Or.inr ⟨e, h', _, rfl, hshort, hl.of_kept hstep, hl.quiet_of_step hstep⟩

/-- A grant that is held can be released. -/
theorem release (hl : Ledger sys held) (hg : g ∈ held) :
    ∃ heap, sys.heap.release g = (.ok (), heap) ∧
      Ledger ⟨sys.streams, heap, sys.host⟩ (held.erase g) := by
  obtain ⟨b, hb, he⟩ := (Heap.mem_liveAllocations hl.sound).mp (hl.mem_live_of_held hg)
  rcases Heap.release_cases hl.sound g with ⟨c, h', -, -, hr, hstep⟩ | ⟨d, h', hnot, -, -⟩
  · exact ⟨h', hr, hl.of_released hg hstep⟩
  · refine absurd ?_ (hnot b hb)
    rw [he]
    rfl

theorem releaseGrant {grant : Option Allocation} (hl : Ledger sys (grant.toList ++ held)) :
    ∃ heap, sys.releaseGrant grant = (.ok (), ⟨sys.streams, heap, sys.host⟩) ∧
      Ledger ⟨sys.streams, heap, sys.host⟩ held := by
  cases grant with
  | none => exact ⟨sys.heap, rfl, hl⟩
  | some g =>
    obtain ⟨heap, hr, hl'⟩ := hl.release (List.mem_cons_self ..)
    rw [Option.toList_some, List.singleton_append, List.erase_cons_head] at hl'
    refine ⟨heap, ?_, hl'⟩
    unfold StreamSystem.releaseGrant
    dsimp only
    rw [hr]

end Ledger
end GuestLibrary
