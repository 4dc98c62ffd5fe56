import GuestLibrary.Proofs.Stream.Operations

/-! The streams write to the console and never read it. What other chunks stand on it in front makes
no difference to what an operation answers, does or emits, and they stay in front. -/
namespace GuestLibrary

/-- A console with the chunks of another in front. -/
def Console.after (c front : Console) : Console := ⟨front.chunks ++ c.chunks⟩

def Host.after (h : Host) (front : Console) : Host := { h with console := h.console.after front }

def StreamSystem.after (sys : StreamSystem) (front : Console) : StreamSystem :=
  { sys with host := sys.host.after front }

theorem Console.push_after (c front : Console) (chunk : Bytes) :
    (c.after front).push chunk = (c.push chunk).after front := by
  simp [after, push]

theorem Console.empty_after (front : Console) : ({} : Console).after front = front := by
  simp [after]

theorem Host.emit_after (h : Host) (front : Console) (chunk : Bytes) :
    (h.after front).emit chunk = (h.emit chunk).after front := by
  simp only [emit, after, Console.push_after]

theorem Host.poll_after (h : Host) (front : Console) (ticket : Nat) :
    (h.after front).poll ticket = ((h.poll ticket).1, (h.poll ticket).2.after front) := by
  unfold poll
  dsimp only [after]
  split
  · rfl
  · split <;> rfl

theorem Host.addResource_after (h : Host) (front : Console) (name : String) (content : Bytes) :
    (h.after front).addResource name content = (h.addResource name content).after front := by
  unfold addResource
  dsimp only [after]
  split <;> rfl

namespace Stream

/-- An operation of a stream that goes on as before when other chunks stand in front. -/
def Oblivious {α : Type} (f : Stream → Host → α × Stream × Host) : Prop :=
  ∀ (s : Stream) (h : Host) (front : Console),
    f s (h.after front) = ((f s h).1, (f s h).2.1, (f s h).2.2.after front)

theorem flush_after (s : Stream) (h : Host) (front : Console) :
    s.flush (h.after front) = ((s.flush h).1, (s.flush h).2.after front) := by
  unfold flush
  split
  · rfl
  · rw [Host.emit_after]
    rfl

theorem oblivious_writeByte (id : StreamId) (b : UInt8) :
    Oblivious fun s h => s.writeByte h id b := by
  intro s h front
  dsimp only
  cases hw : s.writable with
  | false => rw [writeByte_of_readonly _ id b hw, writeByte_of_readonly _ id b hw]
  | true =>
    cases hu : s.isUnbuffered with
    | true =>
      rw [writeByte_of_unbuffered _ id b hw hu, writeByte_of_unbuffered _ id b hw hu,
        Host.emit_after]
    | false =>
      rw [writeByte_eq s _ id b hw hu, writeByte_eq s _ id b hw hu]
      have hroom : (if s.capacity ≤ s.cursor then s.flush (h.after front) else (s, h.after front)) =
          ((if s.capacity ≤ s.cursor then s.flush h else (s, h)).1,
            (if s.capacity ≤ s.cursor then s.flush h else (s, h)).2.after front) := by
        split
        · exact flush_after s h front
        · rfl
      rw [hroom]
      generalize (if s.capacity ≤ s.cursor then s.flush h else (s, h)) = p
      obtain ⟨s₁, h₁⟩ := p
      have harena : (h₁.after front).arena = h₁.arena := rfl
      dsimp only
      rw [harena]
      cases s₁.storeByte? h₁.arena s₁.cursor b with
      | none => rfl
      | some stored =>
        obtain ⟨s₂, arena⟩ := stored
        dsimp only
        split
        · have hline := flush_after { s₂ with cursor := s₂.cursor + 1 } { h₁ with arena } front
          exact congrArg (Prod.mk (Except.ok b)) hline
        · rfl

theorem oblivious_writeBytes (id : StreamId) (block : Bytes) :
    Oblivious fun s h => writeBytes id block s h := by
  induction block with
  | nil => exact fun _ _ _ => rfl
  | cons b rest ih =>
    intro s h front
    have hb := oblivious_writeByte id b s h front
    dsimp only at hb ⊢
    unfold writeBytes
    rw [hb]
    rcases s.writeByte h id b with ⟨_ | _, s₁, h₁⟩
    · rfl
    · exact ih s₁ h₁ front

theorem oblivious_write (id : StreamId) (block : Bytes) :
    Oblivious fun s h => s.write h id block := by
  intro s h front
  dsimp only
  unfold write
  split
  · split
    · rfl
    · rw [Host.emit_after]
  · have hb := oblivious_writeBytes id block s h front
    dsimp only at hb
    rw [hb]
    rcases writeBytes id block s h with ⟨_ | _, s₁, h₁⟩ <;> rfl

theorem oblivious_pushBack (id : StreamId) (b : UInt8) :
    Oblivious fun s h => s.pushBack h id b := by
  intro s h front
  dsimp only
  unfold pushBack
  split <;> rfl

end Stream

namespace StreamSystem

/-- An operation of the system that goes on as before when other chunks stand in front. -/
def Oblivious {α : Type} (f : StreamSystem → α × StreamSystem) : Prop :=
  ∀ (sys : StreamSystem) (front : Console), f (sys.after front) = ((f sys).1, (f sys).2.after front)

theorem oblivious_onOpen {α : Type} (id : StreamId)
    {f : Stream → Host → Except StreamError α × Stream × Host} (hf : Stream.Oblivious f) :
    Oblivious (onOpen · id f) := by
  intro sys front
  cases ho : (sys.streams.get id).isOpen with
  | true =>
    unfold onOpen after
    dsimp only
    rw [if_pos ho, if_pos ho, hf]
  | false =>
    unfold onOpen after
    dsimp only
    rw [if_neg (by simp [ho]), if_neg (by simp [ho])]

/-- The same for an operation that answers with a buffer as well. -/
def ObliviousRead (f : StreamSystem → Except StreamError Nat × Bytes × StreamSystem) : Prop :=
  ∀ (sys : StreamSystem) (front : Console),
    f (sys.after front) = ((f sys).1, (f sys).2.1, (f sys).2.2.after front)

theorem obliviousRead_readLine (id : StreamId) (buf : Bytes) :
    ObliviousRead (readLine · id buf) := by
  intro sys front
  have hopen : ((sys.after front).streams.get id).isOpen = (sys.streams.get id).isOpen := rfl
  dsimp only
  unfold readLine
  rw [hopen]
  split <;> rfl

theorem obliviousRead_read (id : StreamId) (buf : Bytes) : ObliviousRead (read · id buf) := by
  intro sys front
  have hopen : ((sys.after front).streams.get id).isOpen = (sys.streams.get id).isOpen := rfl
  dsimp only
  unfold read
  rw [hopen]
  split <;> rfl

theorem oblivious_readByte (id : StreamId) : Oblivious (readByte · id) :=
  oblivious_onOpen id fun _ _ _ => rfl

theorem oblivious_pushBack (id : StreamId) (b : UInt8) : Oblivious (pushBack · id b) :=
  oblivious_onOpen id (Stream.oblivious_pushBack id b)

theorem oblivious_seek (id : StreamId) (offset : Int) (whence : Whence) :
    Oblivious (seek · id offset whence) :=
  oblivious_onOpen id fun _ _ _ => rfl

theorem oblivious_tell (id : StreamId) : Oblivious (tell · id) :=
  oblivious_onOpen id fun _ _ _ => rfl

theorem oblivious_rewind (id : StreamId) : Oblivious (rewind · id) :=
  oblivious_onOpen id fun _ _ _ => rfl

theorem oblivious_clearError (id : StreamId) : Oblivious (clearError · id) :=
  oblivious_onOpen id fun _ _ _ => rfl

theorem oblivious_allocateBuffer (size : Nat) : Oblivious (allocateBuffer · size) :=
  fun _ _ => rfl

theorem oblivious_releaseGrant (grant : Option Allocation) : Oblivious (releaseGrant · grant) := by
  intro sys front
  dsimp only
  unfold releaseGrant
  cases grant with
  | none => rfl
  | some g =>
    dsimp only [after]
    rcases sys.heap.release g with ⟨_ | _, heap⟩ <;> rfl

theorem oblivious_openInto (id : StreamId) (name : String) : Oblivious (openInto · id name) := by
  intro sys front
  have ha := oblivious_allocateBuffer streamBufferSize sys front
  dsimp only at ha ⊢
  unfold openInto
  rw [ha]
  rcases sys.allocateBuffer streamBufferSize with ⟨_ | _, sys₁⟩ <;> rfl

theorem oblivious_openStream (name mode : String) : Oblivious (openStream · name mode) := by
  intro sys front
  dsimp only
  unfold openStream
  split
  · rfl
  have hfree : (sys.after front).streams.freeSlot? = sys.streams.freeSlot? := rfl
  rw [hfree]
  split
  · rfl
  · rename_i id _
    have hopened := oblivious_openInto id name sys front
    dsimp only at hopened
    rw [hopened]
    rcases sys.openInto id name with ⟨_ | _, sys₁⟩ <;> rfl

theorem oblivious_flush (id : StreamId) : Oblivious (flush · id) := by
  refine oblivious_onOpen id fun s h front => ?_
  dsimp only
  split
  · rw [Stream.flush_after]
  · rfl

theorem flushSlot_after (sys : StreamSystem) (front : Console) (id : StreamId) :
    (sys.after front).flushSlot id = (sys.flushSlot id).after front := by
  unfold flushSlot after
  dsimp only
  split
  · rw [Stream.flush_after]
  · rfl

theorem flushAll_after (sys : StreamSystem) (front : Console) :
    (sys.after front).flushAll = sys.flushAll.after front := by
  unfold flushAll
  generalize List.finRange streamSlots = ids
  induction ids generalizing sys with
  | nil => rfl
  | cons id rest ih => rw [List.foldl_cons, List.foldl_cons, flushSlot_after, ih]

theorem oblivious_close (id : StreamId) : Oblivious (close · id) := by
  intro sys front
  have hflush := oblivious_flush id sys front
  dsimp only at hflush ⊢
  unfold close
  rw [hflush]
  rcases sys.flush id with ⟨_ | _, sys₁⟩
  · rfl
  · exact oblivious_releaseGrant _ ⟨sys₁.streams.set id {}, sys₁.heap, sys₁.host⟩ front

theorem oblivious_reopen (id : StreamId) (name mode : String) :
    Oblivious (reopen · id name mode) := by
  intro sys front
  have hclose : (if ((sys.after front).streams.get id).isOpen then (sys.after front).close id
      else (.ok (), sys.after front)) =
        ((if (sys.streams.get id).isOpen then sys.close id else (.ok (), sys)).1,
          (if (sys.streams.get id).isOpen then sys.close id else (.ok (), sys)).2.after front) := by
    have hopen : ((sys.after front).streams.get id).isOpen = (sys.streams.get id).isOpen := rfl
    rw [hopen]
    split
    · exact oblivious_close id sys front
    · rfl
  dsimp only
  unfold reopen
  split
  · rfl
  rw [hclose]
  rcases (if (sys.streams.get id).isOpen then sys.close id else (.ok (), sys)) with ⟨_ | _, sys₁⟩
  · rfl
  · have hopened := oblivious_openInto id name sys₁ front
    dsimp only at hopened ⊢
    rw [hopened]
    rcases sys₁.openInto id name with ⟨_ | _, sys₂⟩ <;> rfl

theorem oblivious_deliver (id : StreamId) (content : Bytes) : Oblivious (deliver · id content) := by
  intro sys front
  have ha := oblivious_allocateBuffer (content.length + 1) sys front
  dsimp only at ha ⊢
  unfold deliver
  rw [ha]
  rcases sys.allocateBuffer (content.length + 1) with ⟨_ | grant, ⟨streams, heap, host⟩⟩
  · rfl
  · exact oblivious_releaseGrant (streams.get id).storage.owned?
      ⟨streams.set id ((streams.get id).delivered grant content), heap, { host with
        arena := host.arena.write grant.address (content ++ [0]) }⟩ front

theorem pollSlot_after (report : PollReport) (sys : StreamSystem) (front : Console)
    (id : StreamId) : pollSlot (report, sys.after front) id =
      ((pollSlot (report, sys) id).1, (pollSlot (report, sys) id).2.after front) := by
  unfold pollSlot
  dsimp only [after]
  split
  · rename_i ticket _
    rw [Host.poll_after]
    rcases sys.host.poll ticket with ⟨_ | content | _, host⟩
    · rfl
    · have hd := oblivious_deliver id content ⟨sys.streams, sys.heap, host⟩ front
      dsimp only [after] at hd ⊢
      rw [hd]
      rcases deliver ⟨sys.streams, sys.heap, host⟩ id content with ⟨_ | _, sys₁⟩ <;> rfl
    · rfl
  · rfl

theorem oblivious_poll : Oblivious poll := by
  have hfold : ∀ (ids : List StreamId) (report : PollReport) (sys : StreamSystem)
      (front : Console), ids.foldl pollSlot (report, sys.after front) =
        ((ids.foldl pollSlot (report, sys)).1,
          (ids.foldl pollSlot (report, sys)).2.after front) := by
    intro ids
    induction ids with
    | nil => exact fun _ _ _ => rfl
    | cons id rest ih =>
      intro report sys front
      rw [List.foldl_cons, List.foldl_cons, pollSlot_after, ih]
  exact fun sys front => hfold _ {} sys front

theorem oblivious_writeByte (id : StreamId) (b : UInt8) : Oblivious (writeByte · id b) :=
  oblivious_onOpen id (Stream.oblivious_writeByte id b)

theorem oblivious_write (id : StreamId) (block : Bytes) : Oblivious (write · id block) :=
  oblivious_onOpen id (Stream.oblivious_write id block)

theorem oblivious_writePieces (id : StreamId) (pieces : List Bytes) :
    Oblivious (writePieces id pieces) := by
  induction pieces with
  | nil => exact fun _ _ => rfl
  | cons piece rest ih =>
    intro sys front
    have hw := oblivious_write id piece sys front
    dsimp only at hw
    unfold writePieces
    rw [hw]
    rcases sys.write id piece with ⟨_ | n, sys₁⟩
    · rfl
    · dsimp only
      rw [ih]
      rcases writePieces id rest sys₁ with ⟨_ | _, sys₂⟩ <;> rfl

theorem oblivious_chooseBuffer (id : StreamId) (mode : BufferMode) (size : Nat) :
    Oblivious (chooseBuffer · id mode size) := by
  intro sys front
  have ha := oblivious_allocateBuffer (max size 1) sys front
  dsimp only at ha ⊢
  unfold chooseBuffer
  dsimp only
  split
  · rfl
  have hroom : (((sys.after front).streams.get id).reserved.any fun x => decide (size ≤ x.length)) =
      (sys.streams.get id).reserved.any fun x => decide (size ≤ x.length) := rfl
  rw [hroom]
  split
  · rfl
  · rw [ha]
    rcases sys.allocateBuffer (max size 1) with ⟨_ | _, sys₁⟩ <;> rfl

theorem oblivious_setBufferMode (id : StreamId) (mode : BufferMode) (size : Nat) :
    Oblivious (setBufferMode · id mode size) := by
  intro sys front
  dsimp only
  unfold setBufferMode
  dsimp only [after]
  split
  · rfl
  have hr := oblivious_releaseGrant (sys.streams.get id).storage.owned?
    ⟨sys.streams.set id { sys.streams.get id with
      storage := .empty, cursor := 0, extent := 0, capacity := 0, mode }, sys.heap, sys.host⟩ front
  dsimp only [after] at hr
  rw [hr]
  rcases releaseGrant ⟨sys.streams.set id { sys.streams.get id with
    storage := .empty, cursor := 0, extent := 0, capacity := 0, mode }, sys.heap, sys.host⟩
      (sys.streams.get id).storage.owned? with ⟨_ | _, sys₁⟩
  · rfl
  · exact oblivious_chooseBuffer id mode size sys₁ front

theorem oblivious_setUserBuffer (id : StreamId) (grant : Allocation) (mode : BufferMode) :
    Oblivious (setUserBuffer · id grant mode) := by
  intro sys front
  dsimp only
  unfold setUserBuffer
  dsimp only [after]
  split
  · rfl
  · exact oblivious_releaseGrant _ ⟨_, sys.heap, sys.host⟩ front

end StreamSystem
end GuestLibrary
