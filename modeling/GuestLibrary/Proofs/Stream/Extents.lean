import GuestLibrary.Proofs.Stream.Bounds

/-! Programs that also work on the host past the library: they let memory grow between two calls,
emit chunks of their own, and start and collect fetches. Whatever they do, with grants that the heap
gave them at some time, every stream keeps its cursor and its data within its buffer. So what
streams have ready for a buffer that fails them never happens. -/
namespace GuestLibrary

/-- What a program may do to its host beside its calls. -/
inductive HostCall
  | grow (pages : Nat)
  | emit (chunk : Bytes)
  | clearConsole
  | fetch (name : String)
  | poll (ticket : Nat)
  | setNow (now : Int)
  | advanceClock (milliseconds : Int)
  | setZone (minutesWest : Int)

def HostCall.apply (h : Host) : HostCall → Host
  | grow pages => { h with arena := (h.arena.grow? pages).elim h.arena (·.2) }
  | emit chunk => h.emit chunk
  | clearConsole => { h with console := {} }
  | fetch name => (h.fetch name).2
  | poll ticket => (h.poll ticket).2
  | setNow now => { h with now }
  | advanceClock milliseconds => { h with clock := h.clock + milliseconds }
  | setZone minutesWest => { h with minutesWest }

/-- The heap base stays, and memory does not shrink. -/
theorem HostCall.arena_apply (h : Host) (call : HostCall) :
    (call.apply h).arena.heapBase = h.arena.heapBase ∧
      h.arena.memory.size ≤ (call.apply h).arena.memory.size := by
  cases call with
  | grow pages =>
    dsimp only [apply]
    cases hg : h.arena.grow? pages with
    | none => exact ⟨rfl, Nat.le_refl _⟩
    | some grown =>
      have hchanged : h.arena.ChangedWithin grown.2 0 0 := .grow? hg
      exact ⟨hchanged.heapBase_eq, hchanged.size_le⟩
  | poll ticket =>
    rw [apply, Host.arena_poll]
    exact ⟨rfl, Nat.le_refl _⟩
  | _ => exact ⟨rfl, Nat.le_refl _⟩

/-- The grant that a call resizes. -/
def Call.resizes? : Call → Option Allocation
  | .heap r => r.resized?
  | _ => none

namespace StreamSystem

/-- The grant that a call of the heap returns. -/
def returned (sys : StreamSystem) : Call → List Allocation
  | .heap r =>
    match (sys.request r).1 with
    | .ok (some g) => [g]
    | _ => []
  | _ => []

theorem returned_of_ok {sys : StreamSystem} {r : Heap.Request} {g : Allocation}
    (h : (sys.heap.perform sys.host.arena r).1 = .ok (some g)) :
    sys.returned (.heap r) = [g] := by
  have hrequest : (sys.request r).1 = .ok (some g) := h
  dsimp only [returned]
  rw [hrequest]

theorem streams_request (sys : StreamSystem) (r : Heap.Request) :
    (sys.serve (.heap r)).streams = sys.streams := rfl

/-- The systems that a program leads to by calls of the library and of its host, with every grant
that a call returned or that was live after one. The grants that it lends or resizes are such; those
that it releases may be any. -/
inductive Explored (limits : HeapLimits) (host : Host) : StreamSystem → List Allocation → Prop
  | start : host.arena.Simulated → Explored limits host (Client.start limits host).system []
  | call {sys : StreamSystem} {seen : List Allocation} (call : Call) :
      Explored limits host sys seen →
      (∀ g, call.lends? = some g ∨ call.resizes? = some g → g ∈ seen) →
      Explored limits host (sys.serve call)
        (sys.returned call ++ ((sys.serve call).heap.liveAllocations ++ seen))
  | host {sys : StreamSystem} {seen : List Allocation} (call : HostCall) :
      Explored limits host sys seen → Explored limits host (sys.onHost call.apply) seen
  | drainLog {sys : StreamSystem} {seen : List Allocation} : Explored limits host sys seen →
      Explored limits host ⟨sys.streams, sys.heap.drainLog.2, sys.host⟩ seen

end StreamSystem

namespace Stream

variable {s s' : Stream} {m : LinearMemory} {h h' : Host}

/-- The fields of a stream agree with the buffer that it finds in memory. -/
structure WithinBuffer (s : Stream) (m : LinearMemory) : Prop where
  cursor_le : s.cursor ≤ s.capacity
  capacity_le : s.capacity ≤ s.bufferLength m
  extent_le : s.extent ≤ s.capacity
  cursor_le_extent : s.readable = true → s.cursor ≤ s.extent
  exclusive : ¬ (s.readable = true ∧ s.writable = true)

theorem withinBuffer (hf : s.Fits) (hi : s.InStep) (hc : s.Covered m) : s.WithinBuffer m where
  cursor_le := by
    cases hw : s.writable with
    | true => exact hf.cursor_le hw
    | false => exact (hi.cursor_le hw).trans hi.extent_le
  capacity_le := by
    rw [bufferLength_eq hc]
    exact hi.capacity_le
  extent_le := hi.extent_le
  cursor_le_extent hr := by
    refine hi.cursor_le (Bool.eq_false_iff.mpr fun hw => ?_)
    rw [hf.exclusive hw] at hr
    cases hr
  exclusive := by
    rintro ⟨hr, hw⟩
    rw [hf.exclusive hw] at hr
    cases hr

/-- A byte that is stored is found again. -/
theorem storeByte?_stores (hc : s.Covered h.arena.memory) {i : Nat} (hi : i < s.room) (b : UInt8) :
    ∃ s' arena, s.storeByte? h.arena i b = some (s', arena) ∧ s'.cursor = s.cursor ∧
      s'.bufferByte? arena.memory i = some b := by
  obtain ⟨s', arena, he, hcursor, hfront⟩ := storeByte?_front (b := b) hc hi
  have hs := storeByte?_serves he
  have hroom := hs.room_eq
  refine ⟨s', arena, he, hcursor, ?_⟩
  have hbyte := bufferByte?_eq (hc.serves hs) (Nat.lt_succ_self i) (by omega)
  have hlength := length_bufferFront hc (Nat.le_of_lt hi)
  rw [hfront, List.getElem?_append_right hlength.le, hlength, Nat.sub_self] at hbyte
  exact hbyte

/-- Where data is left, the next byte is in the buffer. -/
theorem readByte_of_lt (hi : s.InStep) (hc : s.Covered m) (hr : s.readable = true)
    (hready : s.isReady = true) (hlt : s.cursor < s.extent) : ∃ b,
    s.bufferByte? m s.cursor = some b ∧
      s.readByte m = (.ok b, { s with cursor := s.cursor + 1 }) := by
  have hroom := hi.extent_le.trans hi.capacity_le
  have hlength := length_bufferFront hc hroom
  have hbyte := bufferByte?_eq hc hlt hroom
  rw [List.getElem?_eq_getElem (by omega)] at hbyte
  refine ⟨_, hbyte, ?_⟩
  unfold readByte
  rw [if_neg (by simp [hr]), if_neg (by simp [hready]), if_neg (by omega), hbyte]

/-- Reading a byte leaves the error flag alone, which only a missing byte would set. -/
theorem error_readByte (hi : s.InStep) (hc : s.Covered m) : (s.readByte m).2.error = s.error := by
  by_cases hnext : s.readable = true ∧ s.isReady = true ∧ s.cursor < s.extent
  · obtain ⟨b, -, he⟩ := readByte_of_lt hi hc hnext.1 hnext.2.1 hnext.2.2
    rw [he]
  · unfold readByte
    split
    · dsimp only
      split <;> rfl
    rename_i hr
    split
    · rfl
    rename_i hready
    split
    · rfl
    rename_i hlt
    exact absurd ⟨by simpa using hr, by simpa using hready, by omega⟩ hnext

theorem error_readWhile (stop : UInt8 → Bool) (h : Host) (n : Nat) (hi : s.InStep)
    (hc : s.Covered h.arena.memory) :
    (s.readWhile stop h.arena.memory n).2.2.error = s.error := by
  induction n generalizing s with
  | zero => rfl
  | succ n ih =>
    have hs := readByte_serves s h h.arena.memory
    have hr := error_readByte hi hc
    unfold readWhile
    split
    · rename_i e s' he
      rw [he] at hr
      exact hr
    · rename_i b s' he
      rw [he] at hr hs
      split
      · exact hr
      · exact (ih (hi.serves hs) (hc.serves hs)).trans hr

theorem error_readLine (h : Host) (buf : Bytes) (hi : s.InStep) (hc : s.Covered h.arena.memory) :
    (s.readLine h.arena.memory buf).2.2.error = s.error := by
  have hr := error_readWhile (· == 10) h (buf.length - 1) hi hc
  unfold readLine
  split <;> rename_i he <;> rw [he] at hr <;> exact hr

theorem error_read (h : Host) (buf : Bytes) (hi : s.InStep) (hc : s.Covered h.arena.memory) :
    (s.read h.arena.memory buf).2.2.error = s.error := by
  have hr := error_readWhile (fun _ => false) h buf.length hi hc
  unfold read
  split <;> rename_i he <;> rw [he] at hr <;> exact hr

/-- A byte that is pushed back is the next one. -/
theorem pushBack_stores (hf : s.Fits) (hi : s.InStep) (hc : s.Covered h.arena.memory)
    {id : StreamId} {b answer : UInt8} (hok : (s.pushBack h id b).1 = .ok answer) :
    answer = b ∧ (s.pushBack h id b).2.1.cursor + 1 = s.cursor ∧
      (s.pushBack h id b).2.1.bufferByte? (s.pushBack h id b).2.2.arena.memory
        (s.pushBack h id b).2.1.cursor = some b := by
  unfold pushBack at hok ⊢
  split at hok
  · cases hok
  rename_i haccepted
  obtain rfl := Except.ok.inj hok
  have hpos : 0 < s.cursor := by
    simp only [Bool.or_eq_true, decide_eq_true_eq, not_or] at haccepted
    omega
  have hroom : s.cursor - 1 < s.room := by
    have hcursor := (withinBuffer hf hi hc).cursor_le
    have hcapacity := hi.capacity_le
    omega
  let back : Stream := { s with cursor := s.cursor - 1, eof := false }
  have hback : back.Covered h.arena.memory := hc.of_storage rfl
  obtain ⟨s', arena, he, hcursor, hbyte⟩ := storeByte?_stores (s := back) hback hroom b
  have hcursor : s'.cursor = s.cursor - 1 := hcursor
  rw [if_neg haccepted]
  dsimp only
  rw [he, Option.getD_some, hcursor]
  exact ⟨rfl, by omega, hbyte⟩

theorem writeByte_ne_noBufferSpace (hf : s.Fits) (hc : s.Covered h.arena.memory) (id : StreamId)
    (b : UInt8) : (s.writeByte h id b).1 ≠ .error .noBufferSpace := by
  cases hw : s.writable with
  | true =>
    obtain ⟨-, s', h', he, -⟩ := writeByte_emits hf hw hc id b
    simp [he]
  | false => simp [writeByte_of_readonly h id b hw]

theorem write_ne_noBufferSpace (hf : s.Fits) (hc : s.Covered h.arena.memory) (id : StreamId)
    (block : Bytes) : (s.write h id block).1 ≠ .error .noBufferSpace := by
  cases hw : s.writable with
  | true =>
    obtain ⟨-, s', h', he, -⟩ := write_emits id block hf hw hc
    simp [he]
  | false =>
    unfold write
    rw [if_neg (by simp [hw])]
    cases block with
    | nil => simp [writeBytes]
    | cons b rest => simp [writeBytes, writeByte_of_readonly h id b hw]

theorem length_buffered (hf : s.Fits) (hi : s.InStep) (hc : s.Covered m) :
    (s.buffered m).length = if s.readable then s.extent else s.cursor := by
  refine length_bufferFront hc ?_
  have hcursor := (withinBuffer hf hi hc).cursor_le
  have hextent := hi.extent_le
  have hcapacity := hi.capacity_le
  split <;> omega

end Stream

namespace Bounded

open StreamSystem

variable {sys : StreamSystem} {seen : List Allocation} {id : StreamId}

/-- What a call of the heap returns lies inside memory, if what it resizes was seen. -/
theorem inside_of_returned (hb : Bounded sys seen) {call : Call}
    (hr : ∀ g, call.resizes? = some g → g ∈ seen) :
    ∀ g ∈ sys.returned call, g.address + g.length ≤ (sys.serve call).host.arena.memory.size := by
  intro g hg
  cases call with
  | heap r =>
    obtain ⟨-, hle, hgranted⟩ := Heap.perform_encloses hb.enclosed r
    have hresult : (sys.heap.perform sys.host.arena r).1 = .ok (some g) := by
      dsimp only [returned] at hg
      split at hg
      · rename_i g' he
        rw [List.mem_singleton.mp hg]
        exact he
      · cases hg
    rcases hgranted g hresult with hresized | hinside
    · exact (hb.inside g (hr g hresized)).trans hle
    · exact hinside
  | _ => cases hg

/-- A closed slot fails otherwise. -/
theorem onOpen_ne_noBufferSpace {α : Type}
    {f : Stream → Host → Except StreamError α × Stream × Host}
    (hf : (f (sys.streams.get id) sys.host).1 ≠ .error .noBufferSpace) :
    (sys.onOpen id f).1 ≠ .error .noBufferSpace := by
  cases hopen : (sys.streams.get id).isOpen with
  | true =>
    rw [onOpen_of_open hopen]
    exact hf
  | false => simp [onOpen_of_closed hopen]

theorem writeByte_ne_noBufferSpace (hb : Bounded sys seen) (id : StreamId) (b : UInt8) :
    (sys.writeByte id b).1 ≠ .error .noBufferSpace :=
  onOpen_ne_noBufferSpace (Stream.writeByte_ne_noBufferSpace (hb.fits id) (hb.covered id) id b)

theorem write_ne_noBufferSpace (hb : Bounded sys seen) (id : StreamId) (block : Bytes) :
    (sys.write id block).1 ≠ .error .noBufferSpace :=
  onOpen_ne_noBufferSpace (Stream.write_ne_noBufferSpace (hb.fits id) (hb.covered id) id block)

theorem writePieces_ne_noBufferSpace (hb : Bounded sys seen) (id : StreamId)
    (pieces : List Bytes) :
    (StreamSystem.writePieces id pieces sys).1 ≠ .error .noBufferSpace := by
  induction pieces generalizing sys with
  | nil => simp [StreamSystem.writePieces]
  | cons piece rest ih =>
    have hb' := hb.write id piece
    have hpiece := hb.write_ne_noBufferSpace id piece
    unfold StreamSystem.writePieces
    split
    · rename_i e sys' he
      rw [he] at hpiece
      simpa using hpiece
    · rename_i n sys' he
      rw [he] at hb'
      have hrest := ih hb'
      split
      · simp
      · rename_i hr
        rw [hr] at hrest
        simpa using hrest

/-- A slot with data left answers a read by the next byte. -/
theorem readByte_of_lt (hb : Bounded sys seen) (hreadable : (sys.streams.get id).readable = true)
    (hready : (sys.streams.get id).isReady = true)
    (hlt : (sys.streams.get id).cursor < (sys.streams.get id).extent) : ∃ b,
    (sys.streams.get id).bufferByte? sys.host.arena.memory (sys.streams.get id).cursor = some b ∧
      (sys.readByte id).1 = .ok b := by
  have hopen : (sys.streams.get id).isOpen = true := by
    have hstate : (sys.streams.get id).state = .ready := by simpa [Stream.isReady] using hready
    simp [Stream.isOpen, hstate]
  obtain ⟨b, hbyte, he⟩ :=
    Stream.readByte_of_lt (hb.inStep id) (hb.covered id) hreadable hready hlt
  refine ⟨b, hbyte, ?_⟩
  unfold StreamSystem.readByte
  rw [onOpen_of_open hopen, he]

theorem error_readByte (hb : Bounded sys seen) (id : StreamId) :
    ((sys.readByte id).2.streams.get id).error = (sys.streams.get id).error := by
  unfold StreamSystem.readByte
  cases hopen : (sys.streams.get id).isOpen with
  | true =>
    rw [onOpen_of_open hopen, StreamTable.get_set_self]
    exact Stream.error_readByte (hb.inStep id) (hb.covered id)
  | false => rw [onOpen_of_closed hopen]

/-- Reading into a buffer leaves the error flag of the slot alone. -/
theorem error_readInto (hb : Bounded sys seen) (id : StreamId) (buf : Bytes)
    {f : Stream → LinearMemory → Bytes → Except StreamError Nat × Bytes × Stream}
    (hf : ∀ (s : Stream) (h : Host), s.InStep → s.Covered h.arena.memory →
      (f s h.arena.memory buf).2.2.error = s.error) :
    ((sys.readInto id buf f).2.2.streams.get id).error = (sys.streams.get id).error := by
  have hget : (sys.readInto id buf f).2.2.streams.get id =
      (f (sys.streams.get id) sys.host.arena.memory buf).2.2 := StreamTable.get_set_self
  rw [hget]
  exact hf _ _ (hb.inStep id) (hb.covered id)

theorem error_readLine (hb : Bounded sys seen) (id : StreamId) (buf : Bytes) :
    ((sys.readLine id buf).2.2.streams.get id).error = (sys.streams.get id).error := by
  unfold StreamSystem.readLine
  split
  · rfl
  · exact hb.error_readInto id buf fun _ h => Stream.error_readLine h buf

theorem error_read (hb : Bounded sys seen) (id : StreamId) (buf : Bytes) :
    ((sys.read id buf).2.2.streams.get id).error = (sys.streams.get id).error := by
  unfold StreamSystem.read
  split
  · rfl
  · exact hb.error_readInto id buf fun _ h => Stream.error_read h buf

theorem length_buffered (hb : Bounded sys seen) {bytes : Bytes}
    (hbytes : sys.buffered id = .ok bytes) : bytes.length =
      if (sys.streams.get id).readable then (sys.streams.get id).extent
      else (sys.streams.get id).cursor := by
  unfold StreamSystem.buffered at hbytes
  dsimp only at hbytes
  split at hbytes
  · obtain rfl := Except.ok.inj hbytes
    exact Stream.length_buffered (hb.fits id) (hb.inStep id) (hb.covered id)
  · cases hbytes

theorem pushBack_stores (hb : Bounded sys seen) {b answer : UInt8}
    (hok : (sys.pushBack id b).1 = .ok answer) :
    answer = b ∧ ((sys.pushBack id b).2.streams.get id).cursor + 1 = (sys.streams.get id).cursor ∧
      ((sys.pushBack id b).2.streams.get id).bufferByte? (sys.pushBack id b).2.host.arena.memory
        ((sys.pushBack id b).2.streams.get id).cursor = some b := by
  unfold StreamSystem.pushBack at hok ⊢
  cases hopen : (sys.streams.get id).isOpen with
  | true =>
    rw [onOpen_of_open hopen] at hok ⊢
    dsimp only
    rw [StreamTable.get_set_self]
    exact Stream.pushBack_stores (hb.fits id) (hb.inStep id) (hb.covered id) hok
  | false =>
    rw [onOpen_of_closed hopen] at hok
    cases hok

end Bounded

namespace StreamSystem

variable {limits : HeapLimits} {host : Host} {sys : StreamSystem} {seen : List Allocation}

/-- The bounds hold whatever program and host do. -/
theorem Explored.bounded (hr : Explored limits host sys seen) : Bounded sys seen := by
  induction hr with
  | start ha => exact .start limits ha
  | call call _ hseen ih =>
    have hb := ih.serve call fun g hg => hseen g (Or.inl hg)
    have hreturned := ih.inside_of_returned fun g hg => hseen g (Or.inr hg)
    exact (hb.see fun g hg => hb.enclosed.bounds_of_live hg).see hreturned
  | host call _ ih =>
    obtain ⟨hbase, hle⟩ := HostCall.arena_apply _ call
    exact ih.onHost call.apply hbase hle
  | drainLog _ ih =>
    have hh := ih.enclosed
    exact ih.grown ⟨⟨hh.based, hh.within⟩, hh.backed⟩ (Nat.le_refl _)

/-- Whatever a program calls and does to its host, lending grants that are live or not, every slot
keeps its cursor and its data within its capacity, and that within the buffer that it finds in
memory, and is not open for both reading and writing. So a write never runs out of buffer, a read
never misses a byte of the data, all that is buffered is shown, and a byte that is pushed back is
stored. -/
theorem streams_within_buffers (hr : Explored limits host sys seen) (id : StreamId) :
    (sys.streams.get id).WithinBuffer sys.host.arena.memory ∧
    (∀ b, (sys.writeByte id b).1 ≠ .error .noBufferSpace) ∧
    (∀ block, (sys.write id block).1 ≠ .error .noBufferSpace) ∧
    (∀ pieces, (writePieces id pieces sys).1 ≠ .error .noBufferSpace) ∧
    ((sys.streams.get id).readable = true → (sys.streams.get id).isReady = true →
      (sys.streams.get id).cursor < (sys.streams.get id).extent → ∃ b,
        (sys.streams.get id).bufferByte? sys.host.arena.memory (sys.streams.get id).cursor =
          some b ∧
        (sys.readByte id).1 = .ok b) ∧
    ((sys.readByte id).2.streams.get id).error = (sys.streams.get id).error ∧
    (∀ buf, ((sys.readLine id buf).2.2.streams.get id).error = (sys.streams.get id).error) ∧
    (∀ buf, ((sys.read id buf).2.2.streams.get id).error = (sys.streams.get id).error) ∧
    (∀ bytes, sys.buffered id = .ok bytes → bytes.length =
      if (sys.streams.get id).readable then (sys.streams.get id).extent
      else (sys.streams.get id).cursor) ∧
    ∀ b answer, (sys.pushBack id b).1 = .ok answer → answer = b ∧
      ((sys.pushBack id b).2.streams.get id).cursor + 1 = (sys.streams.get id).cursor ∧
      ((sys.pushBack id b).2.streams.get id).bufferByte?
        (sys.pushBack id b).2.host.arena.memory
        ((sys.pushBack id b).2.streams.get id).cursor = some b := by
  have hb := hr.bounded
  have hwithin := Stream.withinBuffer (hb.fits id) (hb.inStep id) (hb.covered id)
  exact ⟨hwithin, hb.writeByte_ne_noBufferSpace id, hb.write_ne_noBufferSpace id,
    hb.writePieces_ne_noBufferSpace id, hb.readByte_of_lt, hb.error_readByte id,
    hb.error_readLine id, hb.error_read id, fun _ => hb.length_buffered,
    fun _ _ => hb.pushBack_stores⟩

/-- Standard output takes a grant that was given back before it was lent. -/
theorem streams_within_buffers_stale : ∃ sys seen,
    Explored ⟨1, 1⟩ { arena := .ofBase 0 1 } sys seen ∧
      (sys.streams.get .stdout).storage = .borrowed ⟨0, 4, 65532⟩ ∧
      (sys.streams.get .stdout).capacity = 65532 ∧
      65532 ≤ (sys.streams.get .stdout).bufferLength sys.host.arena.memory := by
  have hstart : Explored ⟨1, 1⟩ { arena := .ofBase 0 1 } (Client.start ⟨1, 1⟩ _).system [] :=
    .start (.ofBase 0 1)
  have hallocated := hstart.call (.heap (.allocate 10)) (by rintro g (hg | hg) <;> cases hg)
  have hresult := (Heap.allocate_onePage (a := .ofBase 0 1) rfl Heap.size_onePage).1
  rw [@returned_of_ok (Client.start ⟨1, 1⟩ { arena := .ofBase 0 1 }).system _ _ hresult]
    at hallocated
  have hreleased := hallocated.call (.heap (.release ⟨0, 4, 65532⟩))
    (by rintro g (hg | hg) <;> cases hg)
  have hlend : ∀ sys seen, Explored ⟨1, 1⟩ { arena := .ofBase 0 1 } sys seen →
      ⟨0, 4, 65532⟩ ∈ seen → sys.streams = .initial → ∃ sys' seen',
      Explored ⟨1, 1⟩ { arena := .ofBase 0 1 } sys' seen' ∧
        sys'.streams.get .stdout =
          (Stream.standardOutput "stdout" .line).lent ⟨0, 4, 65532⟩ .full := by
    rintro ⟨streams, heap, host⟩ seen hr hseen rfl
    refine ⟨_, _, (hr.host (.grow 1)).call (.setUserBuffer .stdout ⟨0, 4, 65532⟩ .full) ?_, rfl⟩
    rintro g (hg | hg)
    · obtain rfl := Option.some.inj hg
      exact hseen
    · cases hg
  obtain ⟨sys, seen, hr, hstdout⟩ := hlend _ _ hreleased (by simp) (by
    rw [streams_request, streams_request]
    rfl)
  have hwithin := (streams_within_buffers hr .stdout).1.capacity_le
  refine ⟨sys, seen, hr, ?_, ?_, ?_⟩
  · rw [hstdout]
    rfl
  · rw [hstdout]
    rfl
  · rw [hstdout] at hwithin ⊢
    exact hwithin

end StreamSystem
end GuestLibrary
