import GuestLibrary.Proofs.Stream.Operations

/-! What one stream emits. What waits before an operation, followed by what the operation accepts,
is what it emits followed by what waits after it; and an operation on a writable stream whose buffer
is in place succeeds. -/
namespace GuestLibrary
namespace Stream

variable {s s' s'' : Stream} {h h' h'' : Host} {m m' : LinearMemory}

/-- A writable stream is ready for writing, within the bounds of its buffer. -/
structure Fits (s : Stream) : Prop where
  reserved_pos : ∀ r, s.reserved = some r → 0 < r.length
  exclusive : s.writable = true → s.readable = false
  ready : s.writable = true → s.state = .ready
  cursor_le : s.writable = true → s.cursor ≤ s.capacity
  capacity_le : s.writable = true → s.capacity ≤ s.room
  bare : s.writable = true → s.isUnbuffered = true → s.cursor = 0

/-- The buffer of a stream lies inside memory. -/
def Covered (s : Stream) (m : LinearMemory) : Prop :=
  ∀ g, s.storage.grant? = some g → g.address + g.length ≤ m.size

theorem Fits.of_readonly (hw : s.writable = false)
    (hr : ∀ r, s.reserved = some r → 0 < r.length) : s.Fits where
  reserved_pos := hr
  exclusive h := by simp [hw] at h
  ready h := by simp [hw] at h
  cursor_le h := by simp [hw] at h
  capacity_le h := by simp [hw] at h
  bare h := by simp [hw] at h

theorem Fits.rebuffered (hf : s.Fits) (hs : s.Rebuffered s') : s'.Fits where
  reserved_pos := by
    rw [hs.reserved_eq]
    exact hf.reserved_pos
  exclusive hw := by
    rw [hs.readable_eq]
    exact hf.exclusive (hs.writable_eq ▸ hw)
  ready hw := by
    rw [hs.state_eq]
    exact hf.ready (hs.writable_eq ▸ hw)
  cursor_le _ := by
    rw [hs.cursor_eq]
    exact Nat.zero_le _
  capacity_le _ := hs.capacity_le hf.reserved_pos
  bare _ _ := hs.cursor_eq

theorem Fits.lent (hf : s.Fits) (grant : Allocation) (mode : BufferMode) :
    (s.lent grant mode).Fits :=
  ⟨hf.reserved_pos, hf.exclusive, hf.ready, fun _ => Nat.zero_le _, fun _ => Nat.le_refl _,
    fun _ _ => rfl⟩

theorem bufferLength_eq (hc : s.Covered m) : s.bufferLength m = s.room := by
  unfold bufferLength room
  cases hs : s.storage with
  | empty | reserved => rfl
  | owned g | borrowed g =>
    have hle := hc g (by rw [hs]; rfl)
    simp [LinearMemory.covers, hle]

/-- The front of a buffer depends only on the bytes of its grant. -/
theorem bufferFront_congr (hc : s.Covered m) (hc' : s.Covered m')
    (h : ∀ g, s.storage.grant? = some g → ∀ i, g.address ≤ i → i < g.address + g.length →
      m'.get? i = m.get? i) (n : Nat) : s.bufferFront m' n = s.bufferFront m n := by
  unfold bufferFront
  rw [bufferLength_eq hc, bufferLength_eq hc']
  cases hs : s.storage with
  | empty | reserved => rfl
  | owned g | borrowed g =>
    have hroom : s.room = g.length := by simp [room, hs]
    refine LinearMemory.read_congr fun i hlo hhi => h g (by rw [hs]; rfl) i hlo ?_
    omega

theorem length_bufferFront (hc : s.Covered m) {n : Nat} (hn : n ≤ s.room) :
    (s.bufferFront m n).length = n := by
  unfold bufferFront
  rw [bufferLength_eq hc]
  cases hs : s.storage with
  | empty =>
    simp only [room, hs] at hn
    simp [Nat.le_zero.mp hn]
  | reserved =>
    simp only [room, hs] at hn
    rw [List.length_take]
    omega
  | owned g | borrowed g =>
    have hle := hc g (by rw [hs]; rfl)
    have hroom : s.room = g.length := by simp [room, hs]
    rw [LinearMemory.length_read (by omega)]
    omega

/-- A byte of the buffer is the one in its front. -/
theorem bufferByte?_eq (hc : s.Covered m) {i n : Nat} (hi : i < n) (hn : n ≤ s.room) :
    s.bufferByte? m i = (s.bufferFront m n)[i]? := by
  unfold bufferByte? bufferFront
  rw [bufferLength_eq hc, if_pos (by omega)]
  cases hs : s.storage with
  | empty =>
    simp only [room, hs] at hn
    omega
  | reserved => simp [hi]
  | owned g | borrowed g =>
    have hroom : s.room = g.length := by simp [room, hs]
    have hle := hc g (by rw [hs]; rfl)
    dsimp only
    rw [LinearMemory.getElem?_read (by omega) (by omega)]

@[simp] theorem bufferFront_zero : s.bufferFront m 0 = [] := by
  unfold bufferFront
  cases s.storage <;> simp [LinearMemory.read_eq_filterMap]

theorem waiting_of_readonly (hw : s.writable = false) : s.waiting m = [] := by
  simp [waiting, pending, hw]

theorem waiting_of_writable (hw : s.writable = true) : s.waiting m = s.bufferFront m s.cursor := by
  simp [waiting, pending, hw]

theorem waiting_of_cursor (hc : s.cursor = 0) : s.waiting m = [] := by
  simp [waiting, pending, hc]

/-- One operation of a stream, the chunks that it emits and the bytes that it accepts. -/
structure Emits (s : Stream) (h : Host) (s' : Stream) (h' : Host) (chunks : List Bytes)
    (accepted : Bytes) : Prop where
  serves : s.Serves h s' h'
  fits : s'.Fits
  console_eq : h'.console.chunks.toList = h.console.chunks.toList ++ chunks
  nonempty : [] ∉ chunks
  balance : s.waiting h.arena.memory ++ accepted = chunks.flatten ++ s'.waiting h'.arena.memory

theorem Emits.trans {chunks chunks' : List Bytes} {accepted accepted' : Bytes}
    (he : s.Emits h s' h' chunks accepted) (he' : s'.Emits h' s'' h'' chunks' accepted') :
    s.Emits h s'' h'' (chunks ++ chunks') (accepted ++ accepted') where
  serves := he.serves.trans he'.serves
  fits := he'.fits
  console_eq := by rw [he'.console_eq, he.console_eq, List.append_assoc]
  nonempty := by simpa using ⟨he.nonempty, he'.nonempty⟩
  balance := by
    rw [← List.append_assoc, he.balance, List.append_assoc, he'.balance, List.flatten_append,
      List.append_assoc]

theorem Covered.serves (hc : s.Covered h.arena.memory) (hs : s.Serves h s' h') :
    s'.Covered h'.arena.memory := by
  intro g hg
  rw [hs.storage_eq] at hg
  rw [hs.size_eq]
  exact hc g hg

theorem Fits.serves_reserved (hf : s.Fits) (hs : s.Serves h s' h') (r : Bytes)
    (hr : s'.reserved = some r) : 0 < r.length := by
  have hlength := hs.reserved_eq
  rw [hr, Option.map_some, eq_comm, Option.map_eq_some_iff] at hlength
  obtain ⟨r', hr', he⟩ := hlength
  rw [← he]
  exact hf.reserved_pos r' hr'

theorem Serves.room_eq (hs : s.Serves h s' h') : s'.room = s.room := by
  have hlength := hs.reserved_eq
  unfold room
  rw [hs.storage_eq]
  cases s.storage with
  | empty | owned _ | borrowed _ => rfl
  | reserved =>
    cases hr : s.reserved <;> cases hr' : s'.reserved <;> simp_all

/-- An operation that neither writes nor is one of a writable stream. -/
theorem Emits.of_readonly (hf : s.Fits) (hs : s.Serves h s' h') (hw : s.writable = false)
    (hconsole : h'.console = h.console) : s.Emits h s' h' [] [] where
  serves := hs
  fits := .of_readonly (hs.writable_eq.trans hw) (hf.serves_reserved hs)
  console_eq := by simp [hconsole]
  nonempty := List.not_mem_nil
  balance := by rw [waiting_of_readonly hw, waiting_of_readonly (hs.writable_eq.trans hw)]; rfl

/-- An operation that changes flags only. -/
theorem Emits.flags (hf : s.Fits) (h : Host) (eof error : Bool) :
    s.Emits h { s with eof, error } h [] [] where
  serves := .flags s h eof error
  fits := ⟨hf.reserved_pos, hf.exclusive, hf.ready, hf.cursor_le, hf.capacity_le, hf.bare⟩
  console_eq := by simp
  nonempty := List.not_mem_nil
  balance := by simp [waiting, pending, bufferFront, bufferLength]

theorem Emits.refl (hf : s.Fits) (h : Host) : s.Emits h s h [] [] := .flags hf h s.eof s.error

theorem console_push (h : Host) (chunk : Bytes) :
    (h.emit chunk).console.chunks.toList = h.console.chunks.toList ++ [chunk] := by
  simp [Host.emit, Console.push]

/-- A flush emits what waits, and nothing where nothing does. -/
theorem flush_emits (hf : s.Fits) (hw : s.writable = true) (hc : s.Covered h.arena.memory) :
    (∃ chunks, s.Emits h (s.flush h).1 (s.flush h).2 chunks []) ∧ (s.flush h).1.cursor = 0 := by
  have hs := flush_serves s h
  have hwait := waiting_of_writable (m := h.arena.memory) hw
  unfold flush at hs ⊢
  split
  · rename_i hz
    exact ⟨⟨[], .refl hf h⟩, hz⟩
  · rename_i hz
    rw [if_neg hz] at hs
    refine ⟨⟨[s.bufferFront h.arena.memory s.cursor], hs, ?_, console_push _ _, ?_, ?_⟩, rfl⟩
    · exact ⟨hf.reserved_pos, hf.exclusive, hf.ready, fun _ => Nat.zero_le _, hf.capacity_le,
        fun _ _ => rfl⟩
    · intro hmem
      have hlen := length_bufferFront hc ((hf.cursor_le hw).trans (hf.capacity_le hw))
      rw [← List.mem_singleton.mp hmem] at hlen
      exact hz hlen.symm
    · rw [hwait, waiting_of_cursor rfl]
      simp

theorem drain_emits (hf : s.Fits) (hc : s.Covered h.arena.memory) :
    ∃ chunks, s.Emits h (s.drain h).1 (s.drain h).2 chunks [] ∧
      (s.drain h).1.waiting (s.drain h).2.arena.memory = [] := by
  unfold drain
  split
  · rename_i hw
    obtain ⟨⟨chunks, he⟩, hz⟩ := flush_emits hf hw hc
    exact ⟨chunks, he, waiting_of_cursor hz⟩
  · rename_i hw
    exact ⟨[], .refl hf h, waiting_of_readonly (by simpa using hw)⟩

/-- A byte that is stored behind the front of a buffer extends it. -/
theorem storeByte?_front {i : Nat} {b : UInt8} (hc : s.Covered h.arena.memory) (hi : i < s.room) :
    ∃ s' arena, s.storeByte? h.arena i b = some (s', arena) ∧ s'.cursor = s.cursor ∧
      s'.bufferFront arena.memory (i + 1) = s.bufferFront h.arena.memory i ++ [b] := by
  unfold storeByte?
  rw [bufferLength_eq hc, if_pos hi]
  cases hs : s.storage with
  | empty => simp [room, hs] at hi
  | reserved =>
    simp only [room, hs] at hi
    refine ⟨_, _, rfl, rfl, ?_⟩
    cases hr : s.reserved with
    | none => simp [hr] at hi
    | some r =>
      have hlt : i < r.length := by simpa [hr] using hi
      simp only [bufferFront, hs, hr, Option.map_some, Option.getD_some]
      rw [List.take_succ_eq_append_getElem (by simpa using hlt), List.getElem_set_self,
        List.take_set_of_le (Nat.le_refl i)]
  | owned g | borrowed g =>
    have hroom : s.room = g.length := by simp [room, hs]
    have hle := hc g (by rw [hs]; rfl)
    have hc' : s.Covered (h.arena.write (g.address + i) [b]).memory := by
      intro g' hg'
      simpa using hc g' hg'
    refine ⟨_, _, rfl, rfl, ?_⟩
    simp only [bufferFront, bufferLength_eq hc, bufferLength_eq hc', hs]
    rw [Nat.min_eq_left (by omega), Nat.min_eq_left (by omega), LinearMemory.read_append]
    congr 1
    · refine LinearMemory.read_congr fun j _ hj => LinearMemory.get?_write_of_outside ?_
      omega
    · have hend : g.address + i + [b].length ≤ h.arena.memory.size := by
        rw [List.length_singleton]
        omega
      exact LinearMemory.read_write_self hend

/-- Storing a byte behind the cursor accepts it. -/
theorem store_emits {b : UInt8} (hf : s.Fits) (hw : s.writable = true)
    (hc : s.Covered h.arena.memory) (hu : s.isUnbuffered = false) (hlt : s.cursor < s.capacity) :
    ∃ s' arena, s.storeByte? h.arena s.cursor b = some (s', arena) ∧
      s.Emits h { s' with cursor := s'.cursor + 1 } { h with arena } [] [b] := by
  obtain ⟨s', arena, hb, hcursor, hfront⟩ :=
    storeByte?_front (b := b) hc (Nat.lt_of_lt_of_le hlt (hf.capacity_le hw))
  have hs := storeByte?_serves hb
  have hw' : s'.writable = true := hs.writable_eq.trans hw
  have hstored := hs.trans (.moved s' { h with arena } (s'.cursor + 1) s'.eof s'.error fun hf => by
    rw [hw'] at hf
    cases hf)
  have hroom := hs.room_eq
  refine ⟨s', arena, hb, hstored, ?_, by simp, List.not_mem_nil, ?_⟩
  · refine ⟨hf.serves_reserved hstored, fun _ => hs.readable_eq.trans (hf.exclusive hw),
      fun _ => hs.state_eq.trans (hf.ready hw), fun _ => ?_, fun _ => ?_, fun _ hu' => ?_⟩
    · dsimp only
      rw [hcursor, hs.capacity_eq]
      exact hlt
    · have hle := hf.capacity_le hw
      rw [← hs.capacity_eq, ← hroom] at hle
      exact hle
    · have hsame : isUnbuffered { s' with cursor := s'.cursor + 1 } = s.isUnbuffered := by
        simp only [isUnbuffered, hs.mode_eq, hs.capacity_eq]
      rw [hsame, hu] at hu'
      cases hu'
  · have hstoredw : writable { s' with cursor := s'.cursor + 1 } = true := hw'
    rw [waiting_of_writable hw, waiting_of_writable hstoredw]
    have hwaits : bufferFront { s' with cursor := s'.cursor + 1 } arena.memory (s'.cursor + 1) =
        s.bufferFront h.arena.memory s.cursor ++ [b] := by
      rw [hcursor]
      exact hfront
    exact hwaits.symm

/-- A writable stream accepts every byte. -/
theorem writeByte_emits (hf : s.Fits) (hw : s.writable = true) (hc : s.Covered h.arena.memory)
    (id : StreamId) (b : UInt8) : ∃ chunks s' h', s.writeByte h id b = (.ok b, s', h') ∧
      s.Emits h s' h' chunks [b] := by
  cases hu : s.isUnbuffered with
  | true =>
    refine ⟨[[b]], s, h.emit [b], writeByte_of_unbuffered h id b hw hu,
      ⟨(Serves.refl s h).emit _, hf, console_push _ _, by simp, ?_⟩⟩
    rw [waiting_of_cursor (hf.bare hw hu), waiting_of_cursor (hf.bare hw hu)]
    rfl
  | false =>
    -- the buffer is flushed where it is full, then the byte is stored, then a line is flushed
    have hpos : 0 < s.capacity := by
      simp only [isUnbuffered, Bool.or_eq_false_iff, decide_eq_false_iff_not] at hu
      omega
    have hspace : ∃ chunks, s.Emits h (if s.capacity ≤ s.cursor then s.flush h else (s, h)).1
        (if s.capacity ≤ s.cursor then s.flush h else (s, h)).2 chunks [] ∧
        (if s.capacity ≤ s.cursor then s.flush h else (s, h)).1.cursor < s.capacity := by
      split
      · obtain ⟨⟨chunks, he⟩, hz⟩ := flush_emits hf hw hc
        exact ⟨chunks, he, by omega⟩
      · exact ⟨[], .refl hf h, by dsimp only; omega⟩
    rw [writeByte_eq s h id b hw hu]
    generalize (if s.capacity ≤ s.cursor then s.flush h else (s, h)) = p at hspace ⊢
    obtain ⟨s₁, h₁⟩ := p
    obtain ⟨chunks₁, he₁, hlt⟩ := hspace
    dsimp only at he₁ hlt ⊢
    have hw₁ := he₁.serves.writable_eq.trans hw
    have hu₁ : s₁.isUnbuffered = false := by
      rw [← hu]
      simp only [isUnbuffered, he₁.serves.mode_eq, he₁.serves.capacity_eq]
    rw [← he₁.serves.capacity_eq] at hlt
    obtain ⟨s₂, arena, hb, he₂⟩ :=
      store_emits (b := b) he₁.fits hw₁ (hc.serves he₁.serves) hu₁ hlt
    rw [hb]
    dsimp only
    have he := he₁.trans he₂
    split
    · obtain ⟨⟨chunks₃, he₃⟩, -⟩ := flush_emits he.fits (he.serves.writable_eq.trans hw)
        (hc.serves he.serves)
      exact ⟨_, _, _, rfl, he.trans he₃⟩
    · exact ⟨_, _, _, rfl, he⟩

theorem writeBytes_emits (id : StreamId) (block : Bytes) (hf : s.Fits) (hw : s.writable = true)
    (hc : s.Covered h.arena.memory) : ∃ chunks s' h', writeBytes id block s h = (.ok (), s', h') ∧
      s.Emits h s' h' chunks block := by
  induction block generalizing s h with
  | nil => exact ⟨[], s, h, rfl, .refl hf h⟩
  | cons b rest ih =>
    obtain ⟨chunks, s₁, h₁, hb, he⟩ := writeByte_emits hf hw hc id b
    obtain ⟨chunks', s₂, h₂, hr, he'⟩ := ih he.fits (he.serves.writable_eq.trans hw)
      (hc.serves he.serves)
    refine ⟨chunks ++ chunks', s₂, h₂, ?_, he.trans he'⟩
    rw [writeBytes, hb]
    exact hr

/-- A writable stream accepts every block. -/
theorem write_emits (id : StreamId) (block : Bytes) (hf : s.Fits) (hw : s.writable = true)
    (hc : s.Covered h.arena.memory) : ∃ chunks s' h',
      s.write h id block = (.ok block.length, s', h') ∧ s.Emits h s' h' chunks block := by
  unfold write
  split
  · rename_i hu
    have hz := hf.bare hw (by simpa [hw] using hu)
    cases block with
    | nil => exact ⟨[], s, h, rfl, .refl hf h⟩
    | cons b rest =>
      refine ⟨[b :: rest], s, h.emit (b :: rest), rfl,
        ⟨(Serves.refl s h).emit _, hf, console_push _ _, by simp, ?_⟩⟩
      rw [waiting_of_cursor hz, waiting_of_cursor hz]
      simp
  · obtain ⟨chunks, s', h', hb, he⟩ := writeBytes_emits id block hf hw hc
    rw [hb]
    exact ⟨chunks, s', h', rfl, he⟩

/-- A stream that is not writable accepts at most the empty block. -/
theorem write_of_readonly (id : StreamId) (block : Bytes) (hw : s.writable = false) :
    (s.write h id block).2.2 = h ∧ (block ≠ [] → ∃ e, (s.write h id block).1 = .error e) := by
  unfold write
  rw [if_neg (by simp [hw])]
  cases block with
  | nil => exact ⟨rfl, fun hne => absurd rfl hne⟩
  | cons b rest =>
    rw [writeBytes, writeByte_of_readonly h id b hw]
    exact ⟨rfl, fun _ => ⟨_, rfl⟩⟩

/-! Reading and positioning leave what waits alone: they refuse a writable stream. -/

theorem readByte_emits (hf : s.Fits) (h : Host) (m : LinearMemory) :
    s.Emits h (s.readByte m).2 h [] [] := by
  have hs := readByte_serves s h m
  cases hw : s.writable with
  | false => exact .of_readonly hf hs hw rfl
  | true =>
    unfold readByte
    rw [if_pos (by simp [hf.exclusive hw]), if_pos hw]
    exact .flags hf h true s.error

theorem readWhile_emits (stop : UInt8 → Bool) (h : Host) (m : LinearMemory) (n : Nat)
    (hf : s.Fits) : s.Emits h (s.readWhile stop m n).2.2 h [] [] := by
  induction n generalizing s with
  | zero => exact .refl hf h
  | succ n ih =>
    have hr := readByte_emits hf h m
    unfold readWhile
    split
    · rename_i e s' he
      rw [he] at hr
      exact hr
    · rename_i b s' he
      rw [he] at hr
      split
      · exact hr
      · exact hr.trans (ih hr.fits)

theorem readLine_emits (hf : s.Fits) (h : Host) (m : LinearMemory) (buf : Bytes) :
    s.Emits h (s.readLine m buf).2.2 h [] [] := by
  have hr := readWhile_emits (· == 10) h m (buf.length - 1) hf
  unfold readLine
  split <;> rename_i he <;> rw [he] at hr <;> exact hr

theorem read_emits (hf : s.Fits) (h : Host) (m : LinearMemory) (buf : Bytes) :
    s.Emits h (s.read m buf).2.2 h [] [] := by
  have hr := readWhile_emits (fun _ => false) h m buf.length hf
  unfold read
  split <;> rename_i he <;> rw [he] at hr <;> exact hr

theorem pushBack_emits (hf : s.Fits) (h : Host) (id : StreamId) (b : UInt8) :
    s.Emits h (s.pushBack h id b).2.1 (s.pushBack h id b).2.2 [] [] := by
  have hs := pushBack_serves s h id b
  cases hw : s.writable with
  | false =>
    refine .of_readonly hf hs hw ?_
    unfold pushBack
    split <;> rfl
  | true =>
    unfold pushBack
    rw [if_pos (by simp [hf.exclusive hw])]
    exact .refl hf h

theorem positioningError?_of_writable (hf : s.Fits) (hw : s.writable = true) (id : StreamId)
    (operation : String) :
    s.positioningError? id operation = some (.misuse (.positioningUnsupported operation id)) := by
  unfold positioningError?
  rw [if_pos (by simp [hf.exclusive hw]), if_pos hw]

theorem seek_emits (hf : s.Fits) (h : Host) (id : StreamId) (offset : Int) (whence : Whence) :
    s.Emits h (s.seek id offset whence).2 h [] [] := by
  have hs := seek_serves s h id offset whence
  cases hw : s.writable with
  | false => exact .of_readonly hf hs hw rfl
  | true =>
    unfold seek
    rw [positioningError?_of_writable hf hw]
    exact .refl hf h

theorem rewind_emits (hf : s.Fits) (h : Host) (id : StreamId) :
    s.Emits h (s.rewind id).2 h [] [] := by
  have hs := rewind_serves s h id
  cases hw : s.writable with
  | false => exact .of_readonly hf hs hw rfl
  | true =>
    unfold rewind
    rw [positioningError?_of_writable hf hw]
    exact .refl hf h

end Stream
end GuestLibrary
