import GuestLibrary.Proofs.Stream.Ledger

/-! What each operation of the streams does to the system, given its ledger: which stream it leaves
in the slot that it works on, that the ledger holds again, and that memory is quiet elsewhere. -/
namespace GuestLibrary

namespace Stream

/-- A stream that waits for a fetch, with the grant that holds its place. -/
def opening (ticket : Nat) (grant : Allocation) (name : String) : Stream :=
  { state := .opening ticket, readable := true, storage := .owned grant,
    capacity := streamBufferSize, name := some name }

/-- A stream whose data arrived in a grant. -/
def delivered (s : Stream) (grant : Allocation) (content : Bytes) : Stream :=
  { s with
    state := .ready
    storage := .owned grant
    capacity := content.length
    extent := content.length
    cursor := 0
    eof := false
    error := false }

/-- A stream without a buffer. -/
def bare (s : Stream) (mode : BufferMode) : Stream :=
  { s with storage := .empty, cursor := 0, extent := 0, capacity := 0, mode }

/-- A stream that borrows a grant. -/
def lent (s : Stream) (grant : Allocation) (mode : BufferMode) : Stream :=
  { s with storage := .borrowed grant, mode, capacity := grant.length, cursor := 0, extent := 0 }

/-- Flushes a writable stream. -/
def drain (s : Stream) (h : Host) : Stream × Host := if s.writable then s.flush h else (s, h)

/-- Bytes that a buffer has room for. -/
def room (s : Stream) : Nat :=
  match s.storage with
  | .empty => 0
  | .reserved => (s.reserved.getD []).length
  | .owned grant | .borrowed grant => grant.length

/-- A stream whose buffer was replaced by one of its own. -/
structure Rebuffered (s s' : Stream) : Prop where
  state_eq : s'.state = s.state
  readable_eq : s'.readable = s.readable
  writable_eq : s'.writable = s.writable
  reserved_eq : s'.reserved = s.reserved
  name_eq : s'.name = s.name
  cursor_eq : s'.cursor = 0
  extent_eq : s'.extent = 0
  capacity_le : (∀ r, s.reserved = some r → 0 < r.length) → s'.capacity ≤ s'.room
  own : ∀ g, s'.storage ≠ .borrowed g

theorem rebuffered_bare (s : Stream) (mode : BufferMode) : s.Rebuffered (s.bare mode) :=
  ⟨rfl, rfl, rfl, rfl, rfl, rfl, rfl, fun _ => Nat.le_refl 0, by simp [bare]⟩

theorem rebuffered_reserved {s : Stream} {size : Nat} (h : s.reserved.any (size ≤ ·.length))
    (mode : BufferMode) :
    s.Rebuffered { s.bare mode with storage := .reserved, capacity := max size 1 } := by
  refine ⟨rfl, rfl, rfl, rfl, rfl, rfl, rfl, fun hpos => ?_, by simp⟩
  obtain ⟨r, hr, hle⟩ := (Option.any_eq_true _ _).mp h
  have hpos := hpos r hr
  have hle : size ≤ r.length := by simpa using hle
  simp only [bare, room, hr, Option.getD_some]
  omega

theorem rebuffered_owned (s : Stream) {grant : Allocation} {size : Nat} (h : size ≤ grant.length)
    (mode : BufferMode) :
    s.Rebuffered { s.bare mode with storage := .owned grant, capacity := size } :=
  ⟨rfl, rfl, rfl, rfl, rfl, rfl, rfl, fun _ => h, by simp⟩

theorem drain_serves (s : Stream) (h : Host) : s.Serves h (s.drain h).1 (s.drain h).2 := by
  unfold drain
  split
  · exact flush_serves s h
  · exact .refl s h

end Stream

theorem StreamTable.set_get (t : StreamTable) (id : StreamId) : t.set id (t.get id) = t := by
  simp [set, get]

theorem StreamTable.closed_of_freeSlot? {t : StreamTable} {id : StreamId}
    (h : t.freeSlot? = some id) : (t.get id).isOpen = false := by
  have hfree := List.find?_some h
  simp only [Bool.and_eq_true, Bool.not_eq_true'] at hfree
  exact hfree.2

theorem Host.arena_poll (h : Host) (ticket : Nat) : (h.poll ticket).2.arena = h.arena := by
  unfold poll
  dsimp only
  split
  · rfl
  · split <;> rfl

theorem Host.console_poll (h : Host) (ticket : Nat) :
    (h.poll ticket).2.console = h.console := by
  unfold poll
  dsimp only
  split
  · rfl
  · split <;> rfl

theorem Host.arena_addResource (h : Host) (name : String) (content : Bytes) :
    (h.addResource name content).arena = h.arena := by
  unfold addResource
  split <;> rfl

theorem Host.console_addResource (h : Host) (name : String) (content : Bytes) :
    (h.addResource name content).console = h.console := by
  unfold addResource
  split <;> rfl

namespace StreamSystem

variable {sys : StreamSystem} {id : StreamId} {α : Type}

theorem onOpen_of_open {f : Stream → Host → Except StreamError α × Stream × Host}
    (h : (sys.streams.get id).isOpen = true) : sys.onOpen id f =
      ((f (sys.streams.get id) sys.host).1,
        ⟨sys.streams.set id (f (sys.streams.get id) sys.host).2.1, sys.heap,
          (f (sys.streams.get id) sys.host).2.2⟩) := by
  unfold onOpen
  dsimp only
  rw [if_pos h]

theorem onOpen_of_closed {f : Stream → Host → Except StreamError α × Stream × Host}
    (h : (sys.streams.get id).isOpen = false) :
    sys.onOpen id f = (.error (.misuse (.streamNotOpen id)), sys) := by
  unfold onOpen
  dsimp only
  rw [if_neg (by simp [h])]

theorem flush_of_open (h : (sys.streams.get id).isOpen = true) :
    sys.flush id = (.ok (), ⟨sys.streams.set id ((sys.streams.get id).drain sys.host).1, sys.heap,
      ((sys.streams.get id).drain sys.host).2⟩) :=
  onOpen_of_open h

theorem close_of_closed (h : (sys.streams.get id).isOpen = false) :
    sys.close id = (.error (.misuse (.streamNotOpen id)), sys) := by
  unfold close flush
  rw [onOpen_of_closed h]

theorem setBufferMode_of_closed (h : (sys.streams.get id).isOpen = false) (mode : BufferMode)
    (size : Nat) :
    sys.setBufferMode id mode size = (.error (.misuse (.streamNotOpen id)), sys) :=
  if_pos (by simp [h])

theorem setUserBuffer_of_closed (h : (sys.streams.get id).isOpen = false) (grant : Allocation)
    (mode : BufferMode) :
    sys.setUserBuffer id grant mode = (.error (.misuse (.streamNotOpen id)), sys) :=
  if_pos (by simp [h])

end StreamSystem

namespace Ledger

open StreamSystem

variable {sys : StreamSystem} {held : List Allocation} {id : StreamId} {s : Stream}
  {host : Host}

/-- An operation of one stream keeps the ledger. -/
theorem serves (hl : Ledger sys held) (hs : (sys.streams.get id).Serves sys.host s host) :
    Ledger ⟨sys.streams.set id s, sys.heap, host⟩ held :=
  (hl.keep hs.storage_eq fun ho => hs.isOpen_eq.symm.trans ho).of_host hs.heapBase_eq hs.size_eq

theorem openInto (hl : Ledger sys held) (name : String)
    (hid : (sys.streams.get id).storage.owned? = none) :
    (∃ ticket g heap host, sys.openInto id name =
      (.ok (), ⟨sys.streams.set id (.opening ticket g name), heap, host⟩) ∧
      Ledger ⟨sys.streams.set id (.opening ticket g name), heap, host⟩ held ∧
      sys.host.Quiet sys.heap.liveAllocations host) ∨
    ∃ e heap host, sys.openInto id name = (.error (.alloc e), ⟨sys.streams, heap, host⟩) ∧
      e.IsShortage ∧ Ledger ⟨sys.streams, heap, host⟩ held ∧
      sys.host.Quiet sys.heap.liveAllocations host := by
  unfold StreamSystem.openInto
  rcases hl.allocateBuffer streamBufferSize with
    ⟨g, heap, host, he, -, hl', hq⟩ | ⟨e, heap, host, he, hshort, hl', hq⟩
  · rw [he]
    have hplaced := Ledger.place (s := .opening (host.fetch name).1 g name) hl' id
      fun ho => absurd ho (by simp [Stream.opening, Stream.isOpen])
    dsimp only at hplaced
    rw [hid] at hplaced
    exact Or.inl ⟨(host.fetch name).1, g, heap, (host.fetch name).2, rfl, hplaced.of_host rfl rfl,
      hq.console_eq, hq.get?_eq⟩
  · rw [he]
    exact Or.inr ⟨e, heap, host, rfl, hshort, hl', hq⟩

/-- Closing an open stream drains it and never fails. -/
theorem close (hl : Ledger sys held) (hopen : (sys.streams.get id).isOpen = true) :
    ∃ heap, sys.close id = (.ok (), ⟨sys.streams.set id {}, heap,
        ((sys.streams.get id).drain sys.host).2⟩) ∧
      Ledger ⟨sys.streams.set id {}, heap, ((sys.streams.get id).drain sys.host).2⟩ held := by
  have hs := (sys.streams.get id).drain_serves sys.host
  have hdrained := hl.of_host hs.heapBase_eq hs.size_eq
  have hplaced := Ledger.place (s := {}) hdrained id fun _ => rfl
  obtain ⟨heap, hr, hl'⟩ := hplaced.releaseGrant
  refine ⟨heap, ?_, hl'⟩
  unfold StreamSystem.close
  rw [flush_of_open hopen]
  dsimp only
  rw [StreamTable.get_set_self, StreamTable.set_set, hs.storage_eq, hr]

/-- Choosing a buffer for an open stream that has none can only fail for want of memory. -/
theorem chooseBuffer (hl : Ledger sys held) {old : Stream} {was : BufferMode}
    (hbare : sys.streams.get id = old.bare was) (hopen : old.isOpen = true) (mode : BufferMode)
    (size : Nat) : ∃ result s heap host,
      sys.chooseBuffer id mode size = (result, ⟨sys.streams.set id s, heap, host⟩) ∧
      (∀ e, result = .error e → ∃ e', e = .alloc e' ∧ e'.IsShortage) ∧
      old.Rebuffered s ∧ Ledger ⟨sys.streams.set id s, heap, host⟩ held ∧
      sys.host.Quiet sys.heap.liveAllocations host := by
  have hclosed : ∀ s : Stream, s.state = old.state → s.isOpen = true := by
    intro s hs
    rw [Stream.isOpen, hs]
    exact hopen
  unfold StreamSystem.chooseBuffer
  dsimp only
  rw [hbare]
  split
  · refine ⟨.ok (), old.bare was, sys.heap, sys.host, ?_, by simp, old.rebuffered_bare was, ?_,
      .refl _ _⟩
    · rw [← hbare, StreamTable.set_get]
    · rw [← hbare, StreamTable.set_get]
      exact hl
  split
  · rename_i hfits
    have hfits : old.reserved.any (size ≤ ·.length) := hfits
    let s : Stream := { old.bare was with storage := .reserved, capacity := max size 1 }
    have hs : Ledger ⟨sys.streams.set id s, sys.heap, sys.host⟩ held := by
      have := Ledger.place (s := s) hl id fun ho => by simp [hclosed s rfl] at ho
      rwa [hbare] at this
    exact ⟨.ok (), s, sys.heap, sys.host, rfl, by simp, Stream.rebuffered_reserved hfits was, hs,
      .refl _ _⟩
  · rcases hl.allocateBuffer (max size 1) with
      ⟨g, heap, host, he, hlen, hl', hq⟩ | ⟨e, heap, host, he, hshort, hl', hq⟩
    · let s : Stream := { old.bare was with storage := .owned g, capacity := max size 1 }
      have hs : Ledger ⟨sys.streams.set id s, heap, host⟩ held := by
        have := Ledger.place (s := s) hl' id fun ho => by simp [hclosed s rfl] at ho
        rwa [hbare] at this
      rw [he]
      exact ⟨.ok (), s, heap, host, rfl, by simp, old.rebuffered_owned hlen was, hs, hq⟩
    · let s : Stream := { old.bare was with mode := .none }
      have hs : Ledger ⟨sys.streams.set id s, heap, host⟩ held :=
        hl'.keep (by rw [hbare]) fun ho => by simp [hclosed s rfl] at ho
      rw [he]
      refine ⟨.error (.alloc e), s, heap, host, rfl, fun e' he' => ?_, old.rebuffered_bare .none, hs,
        hq⟩
      exact ⟨e, (Except.error.inj he').symm, hshort⟩

/-- Replacing the buffer of an open stream by one of its own can only fail for want of memory. -/
theorem setBufferMode (hl : Ledger sys held) (hopen : (sys.streams.get id).isOpen = true)
    (mode : BufferMode) (size : Nat) : ∃ result s heap host,
      sys.setBufferMode id mode size = (result, ⟨sys.streams.set id s, heap, host⟩) ∧
      (∀ e, result = .error e → ∃ e', e = .alloc e' ∧ e'.IsShortage) ∧
      (sys.streams.get id).Rebuffered s ∧ Ledger ⟨sys.streams.set id s, heap, host⟩ held ∧
      sys.host.Quiet (held ++ sys.streams.ownedElsewhere id) host := by
  let bare := (sys.streams.get id).bare mode
  have hplaced := Ledger.place (s := bare) hl id fun _ => rfl
  obtain ⟨heap, hr, hl'⟩ := hplaced.releaseGrant
  have hget : (sys.streams.set id bare).get id = bare := StreamTable.get_set_self
  obtain ⟨result, s, heap', host, he, hshort, hs, hl'', hq⟩ :=
    hl'.chooseBuffer hget hopen mode size
  rw [StreamTable.set_set] at he hl''
  refine ⟨result, s, heap', host, ?_, hshort, hs, hl'', hq.console_eq, fun g hg => ?_⟩
  · unfold StreamSystem.setBufferMode
    rw [if_neg (by simp [hopen])]
    have hr : StreamSystem.releaseGrant ⟨sys.streams.set id { sys.streams.get id with
        storage := .empty, cursor := 0, extent := 0, capacity := 0, mode }, sys.heap, sys.host⟩
        (sys.streams.get id).storage.owned? = (.ok (), ⟨_, heap, sys.host⟩) := hr
    dsimp only
    rw [hr]
    exact he
  · -- the old buffer is gone by the time a new one is allocated, and may lie where it did
    refine hq.get?_eq g ?_
    have hperm := (sys.streams.set id bare).owned_perm id
    rw [hget, StreamTable.ownedElsewhere_set] at hperm
    rw [hl'.perm.mem_iff, List.mem_append, hperm.mem_iff]
    exact List.mem_append.mp hg

/-- Lending a grant to an open stream never fails. -/
theorem setUserBuffer (hl : Ledger sys held) (hopen : (sys.streams.get id).isOpen = true)
    (grant : Allocation) (mode : BufferMode) : ∃ heap,
      sys.setUserBuffer id grant mode = (.ok (),
        ⟨sys.streams.set id ((sys.streams.get id).lent grant mode), heap, sys.host⟩) ∧
      Ledger ⟨sys.streams.set id ((sys.streams.get id).lent grant mode), heap, sys.host⟩ held := by
  have hplaced := Ledger.place (s := (sys.streams.get id).lent grant mode) hl id fun _ => rfl
  obtain ⟨heap, hr, hl'⟩ := hplaced.releaseGrant
  refine ⟨heap, ?_, hl'⟩
  unfold StreamSystem.setUserBuffer
  dsimp only
  rw [if_neg (by simp [hopen])]
  exact hr

end Ledger
end GuestLibrary
