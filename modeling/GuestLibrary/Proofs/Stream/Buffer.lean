import GuestLibrary.Proofs.Memory
import GuestLibrary.Stream.Basic

/-! What the operations of one stream leave alone. None of them opens or closes the stream, changes
its buffer for another, moves the cursor past the data, starts a fetch, or writes to linear memory
outside the buffer. -/
namespace GuestLibrary

/-- Hosts with the same fetches and the same resources. -/
structure Host.SameFetches (h h' : Host) : Prop where
  fetches_eq : h'.fetches = h.fetches
  nextTicket_eq : h'.nextTicket = h.nextTicket
  source_eq : h'.source = h.source

theorem Host.SameFetches.refl (h : Host) : h.SameFetches h := ⟨rfl, rfl, rfl⟩

theorem Host.SameFetches.trans {h h' h'' : Host} (hf : h.SameFetches h')
    (hf' : h'.SameFetches h'') : h.SameFetches h'' :=
  ⟨hf'.fetches_eq.trans hf.fetches_eq, hf'.nextTicket_eq.trans hf.nextTicket_eq,
    hf'.source_eq.trans hf.source_eq⟩

namespace Stream

/-- A stream and its host after an operation of that stream. -/
structure Serves (s : Stream) (h : Host) (s' : Stream) (h' : Host) : Prop where
  state_eq : s'.state = s.state
  storage_eq : s'.storage = s.storage
  readable_eq : s'.readable = s.readable
  writable_eq : s'.writable = s.writable
  mode_eq : s'.mode = s.mode
  capacity_eq : s'.capacity = s.capacity
  reserved_eq : s'.reserved.map (·.length) = s.reserved.map (·.length)
  name_eq : s'.name = s.name
  extent_eq : s'.extent = s.extent
  cursor_le : s.writable = false → s.cursor ≤ s.extent → s'.cursor ≤ s.extent
  fetching : h.SameFetches h'
  heapBase_eq : h'.arena.heapBase = h.arena.heapBase
  size_eq : h'.arena.memory.size = h.arena.memory.size
  get?_eq : ∀ i, (∀ g, s.storage.grant? = some g → i < g.address ∨ g.address + g.length ≤ i) →
    h'.arena.memory.get? i = h.arena.memory.get? i

variable {s s' s'' : Stream} {h h' h'' : Host}

/-- The cursor and the flags may change. -/
theorem Serves.moved (s : Stream) (h : Host) (cursor : Nat) (eof error : Bool)
    (hc : s.writable = false → s.cursor ≤ s.extent → cursor ≤ s.extent) :
    s.Serves h { s with cursor, eof, error } h :=
  ⟨rfl, rfl, rfl, rfl, rfl, rfl, rfl, rfl, rfl, hc, .refl h, rfl, rfl, fun _ _ => rfl⟩

theorem Serves.flags (s : Stream) (h : Host) (eof error : Bool) :
    s.Serves h { s with eof, error } h :=
  .moved s h s.cursor eof error fun _ hle => hle

theorem Serves.refl (s : Stream) (h : Host) : s.Serves h s h := .flags s h s.eof s.error

theorem Serves.trans (hs : s.Serves h s' h') (hs' : s'.Serves h' s'' h'') : s.Serves h s'' h'' where
  state_eq := hs'.state_eq.trans hs.state_eq
  storage_eq := hs'.storage_eq.trans hs.storage_eq
  readable_eq := hs'.readable_eq.trans hs.readable_eq
  writable_eq := hs'.writable_eq.trans hs.writable_eq
  mode_eq := hs'.mode_eq.trans hs.mode_eq
  capacity_eq := hs'.capacity_eq.trans hs.capacity_eq
  reserved_eq := hs'.reserved_eq.trans hs.reserved_eq
  name_eq := hs'.name_eq.trans hs.name_eq
  extent_eq := hs'.extent_eq.trans hs.extent_eq
  cursor_le hw hle := by
    have hle' := hs'.cursor_le (hs.writable_eq.trans hw) (by
      rw [hs.extent_eq]
      exact hs.cursor_le hw hle)
    rwa [hs.extent_eq] at hle'
  fetching := hs.fetching.trans hs'.fetching
  heapBase_eq := hs'.heapBase_eq.trans hs.heapBase_eq
  size_eq := hs'.size_eq.trans hs.size_eq
  get?_eq i hi := (hs'.get?_eq i (by rwa [hs.storage_eq])).trans (hs.get?_eq i hi)

theorem Serves.isOpen_eq (hs : s.Serves h s' h') : s'.isOpen = s.isOpen := by
  rw [isOpen, isOpen, hs.state_eq]

theorem Serves.emit (hs : s.Serves h s' h') (chunk : Bytes) : s.Serves h s' (h'.emit chunk) :=
  ⟨hs.state_eq, hs.storage_eq, hs.readable_eq, hs.writable_eq, hs.mode_eq, hs.capacity_eq,
    hs.reserved_eq, hs.name_eq, hs.extent_eq, hs.cursor_le,
    ⟨hs.fetching.fetches_eq, hs.fetching.nextTicket_eq, hs.fetching.source_eq⟩, hs.heapBase_eq,
    hs.size_eq, hs.get?_eq⟩

theorem bufferLength_le {g : Allocation} (hg : s.storage.grant? = some g) (m : LinearMemory) :
    s.bufferLength m ≤ g.length := by
  unfold bufferLength
  cases hs : s.storage with
  | empty | reserved => simp [hs, BufferStorage.grant?] at hg
  | owned grant | borrowed grant =>
    simp only [hs, BufferStorage.grant?, Option.some.injEq] at hg
    subst hg
    dsimp only
    split <;> omega

theorem flush_serves (s : Stream) (h : Host) : s.Serves h (s.flush h).1 (s.flush h).2 := by
  unfold flush
  split
  · exact .refl s h
  · exact (Serves.moved s h 0 s.eof s.error fun _ _ => Nat.zero_le _).emit _

theorem storeByte?_serves {i : Nat} {b : UInt8} {arena : Arena}
    (hb : s.storeByte? h.arena i b = some (s', arena)) :
    s.Serves h s' { h with arena } := by
  unfold storeByte? at hb
  split at hb
  · rename_i hi
    split at hb
    · cases hb
    · obtain ⟨rfl, rfl⟩ := Prod.mk.inj (Option.some.inj hb)
      refine ⟨rfl, rfl, rfl, rfl, rfl, rfl, ?_, rfl, rfl, fun _ hle => hle, .refl h, rfl, rfl,
        fun _ _ => rfl⟩
      cases s.reserved <;> simp
    all_goals
      rename_i grant hs
      have hlen := bufferLength_le (s := s) (g := grant) (by rw [hs]; rfl) h.arena.memory
      obtain ⟨rfl, rfl⟩ := Prod.mk.inj (Option.some.inj hb)
      refine ⟨rfl, rfl, rfl, rfl, rfl, rfl, rfl, rfl, rfl, fun _ hle => hle, ⟨rfl, rfl, rfl⟩, rfl,
        by simp, fun j hj => ?_⟩
      have hj := hj grant (by rw [hs]; rfl)
      exact LinearMemory.get?_write_of_outside (by simp only [List.length_singleton]; omega)
  · cases hb

theorem readByte_serves (s : Stream) (h : Host) (m : LinearMemory) :
    s.Serves h (s.readByte m).2 h := by
  unfold readByte
  split
  · dsimp only
    split
    · exact .flags s h true s.error
    · exact .refl s h
  split
  · exact .refl s h
  split
  · exact .flags s h true s.error
  rename_i hlt
  split
  · exact .moved s h (s.cursor + 1) s.eof s.error fun _ _ => by omega
  · exact .flags s h s.eof true

theorem readWhile_serves (stop : UInt8 → Bool) (h : Host) (m : LinearMemory) (n : Nat)
    (s : Stream) : s.Serves h (s.readWhile stop m n).2.2 h := by
  induction n generalizing s with
  | zero => exact .refl s h
  | succ n ih =>
    have hr := readByte_serves s h m
    unfold readWhile
    split
    · rename_i e s' he
      rw [he] at hr
      exact hr
    · rename_i b s' he
      rw [he] at hr
      split
      · exact hr
      · exact hr.trans (ih s')

theorem readLine_serves (s : Stream) (h : Host) (m : LinearMemory) (buf : Bytes) :
    s.Serves h (s.readLine m buf).2.2 h := by
  have hr := readWhile_serves (· == 10) h m (buf.length - 1) s
  unfold readLine
  split <;> rename_i he <;> rw [he] at hr <;> exact hr

theorem read_serves (s : Stream) (h : Host) (m : LinearMemory) (buf : Bytes) :
    s.Serves h (s.read m buf).2.2 h := by
  have hr := readWhile_serves (fun _ => false) h m buf.length s
  unfold read
  split <;> rename_i he <;> rw [he] at hr <;> exact hr

theorem pushBack_serves (s : Stream) (h : Host) (id : StreamId) (b : UInt8) :
    s.Serves h (s.pushBack h id b).2.1 (s.pushBack h id b).2.2 := by
  unfold pushBack
  split
  · exact .refl s h
  · have hstep := Serves.moved s h (s.cursor - 1) false s.error fun _ hle =>
      (Nat.sub_le _ _).trans hle
    cases hb : storeByte? { s with cursor := s.cursor - 1, eof := false } h.arena (s.cursor - 1)
      b with
    | none =>
      dsimp only
      rw [hb]
      exact hstep
    | some placed =>
      dsimp only
      rw [hb]
      exact hstep.trans (storeByte?_serves hb)

theorem seek_serves (s : Stream) (h : Host) (id : StreamId) (offset : Int) (whence : Whence) :
    s.Serves h (s.seek id offset whence).2 h := by
  unfold seek
  split
  · exact .refl s h
  · cases whence <;> dsimp only <;> (try split)
    all_goals first
      | exact .refl s h
      | exact .moved s h _ false s.error fun _ _ => by omega

theorem rewind_serves (s : Stream) (h : Host) (id : StreamId) :
    s.Serves h (s.rewind id).2 h := by
  unfold rewind
  split
  · exact .refl s h
  · exact .moved s h 0 false false fun _ _ => Nat.zero_le _

theorem writeByte_of_readonly (h : Host) (id : StreamId) (b : UInt8) (hw : s.writable = false) :
    s.writeByte h id b = (.error (.misuse (.writeToReadOnly id)), { s with error := true }, h) :=
  if_pos (by simp [hw])

theorem writeByte_of_unbuffered (h : Host) (id : StreamId) (b : UInt8) (hw : s.writable = true)
    (hu : s.isUnbuffered = true) : s.writeByte h id b = (.ok b, s, h.emit [b]) := by
  unfold writeByte
  rw [if_neg (by simp [hw]), if_pos hu]

/-- The steps of writing a byte into the buffer. -/
theorem writeByte_eq (s : Stream) (h : Host) (id : StreamId) (b : UInt8) (hw : s.writable = true)
    (hu : s.isUnbuffered = false) : s.writeByte h id b =
      let (s, h) := if s.capacity ≤ s.cursor then s.flush h else (s, h)
      match s.storeByte? h.arena s.cursor b with
      | none => (.error .noBufferSpace, { s with error := true }, h)
      | some (s, arena) =>
        let s := { s with cursor := s.cursor + 1 }
        let h := { h with arena }
        let (s, h) := if s.mode = .line ∧ b = 10 then s.flush h else (s, h)
        (.ok b, s, h) := by
  unfold writeByte
  exact (if_neg (by simp [hw])).trans (if_neg (by simp [hu]))

theorem writeByte_serves (s : Stream) (h : Host) (id : StreamId) (b : UInt8) :
    s.Serves h (s.writeByte h id b).2.1 (s.writeByte h id b).2.2 := by
  cases hw : s.writable with
  | false =>
    rw [writeByte_of_readonly h id b hw]
    exact .flags s h s.eof true
  | true =>
    cases hu : s.isUnbuffered with
    | true =>
      rw [writeByte_of_unbuffered h id b hw hu]
      exact (Serves.refl s h).emit [b]
    | false =>
      rw [writeByte_eq s h id b hw hu]
      have hroom : s.Serves h (if s.capacity ≤ s.cursor then s.flush h else (s, h)).1
          (if s.capacity ≤ s.cursor then s.flush h else (s, h)).2 := by
        split
        · exact flush_serves s h
        · exact .refl s h
      generalize (if s.capacity ≤ s.cursor then s.flush h else (s, h)) = p at hroom ⊢
      obtain ⟨s₁, h₁⟩ := p
      dsimp only at hroom ⊢
      split
      · exact hroom.trans (.flags s₁ h₁ s₁.eof true)
      · rename_i s₂ arena hb
        have hs₂ := hroom.trans (storeByte?_serves hb)
        have hstored := hs₂.trans (.moved s₂ _ (s₂.cursor + 1) s₂.eof s₂.error fun hf => by
          rw [hs₂.writable_eq, hw] at hf
          cases hf)
        dsimp only
        split
        · exact hstored.trans (flush_serves _ _)
        · exact hstored

theorem writeBytes_serves (id : StreamId) (block : Bytes) (s : Stream) (h : Host) :
    s.Serves h (writeBytes id block s h).2.1 (writeBytes id block s h).2.2 := by
  induction block generalizing s h with
  | nil => exact .refl s h
  | cons b rest ih =>
    have hw := writeByte_serves s h id b
    unfold writeBytes
    split
    · rename_i s' h' he
      rw [he] at hw
      exact hw.trans (ih s' h')
    · rename_i e s' h' he
      rw [he] at hw
      exact hw

theorem write_serves (s : Stream) (h : Host) (id : StreamId) (block : Bytes) :
    s.Serves h (s.write h id block).2.1 (s.write h id block).2.2 := by
  unfold write
  split
  · dsimp only
    split
    · exact .refl s h
    · exact (Serves.refl s h).emit block
  · have hw := writeBytes_serves id block s h
    split <;> rename_i he <;> rw [he] at hw <;> exact hw

end Stream
end GuestLibrary
