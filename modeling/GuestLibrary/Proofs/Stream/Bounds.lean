import GuestLibrary.Proofs.Heap.Enclosure
import GuestLibrary.Proofs.Stream.Output

/-! Programs that give the calls whatever handles they like, live or stale, their own or those of a
stream, and lend what they like of what the heap ever granted. Along every such run the buffers of
the streams lie inside memory, and each stream fits its buffer. -/
namespace GuestLibrary

/-- The grant that a call lends to a stream. -/
def Call.lends? : Call → Option Allocation
  | .setUserBuffer _ grant _ => some grant
  | _ => none

/-- The systems that any calls lead to, with every grant that was live on the way. -/
inductive StreamSystem.Reached (limits : HeapLimits) (host : Host) :
    StreamSystem → List Allocation → Prop
  | start : host.arena.Simulated → Reached limits host (Client.start limits host).system []
  | call {sys : StreamSystem} {seen : List Allocation} (call : Call) :
      Reached limits host sys seen → (∀ g, call.lends? = some g → g ∈ seen) →
      Reached limits host (sys.serve call) ((sys.serve call).heap.liveAllocations ++ seen)

namespace Stream

variable {s s' : Stream} {m m' : LinearMemory}

theorem Covered.of_size_le (hc : s.Covered m) (h : m.size ≤ m'.size) : s.Covered m' :=
  fun g hg => (hc g hg).trans h

theorem Covered.of_storage (hc : s.Covered m) (h : s'.storage = s.storage) : s'.Covered m := by
  intro g hg
  rw [h] at hg
  exact hc g hg

theorem covered_of_grant? (h : s.storage.grant? = none) (m : LinearMemory) : s.Covered m := by
  intro g hg
  rw [h] at hg
  cases hg

/-- Writing emits some chunks and accepts some bytes. -/
theorem writeByte_accounts {h : Host} (hf : s.Fits) (hc : s.Covered h.arena.memory)
    (id : StreamId) (b : UInt8) : ∃ chunks accepted,
    s.Emits h (s.writeByte h id b).2.1 (s.writeByte h id b).2.2 chunks accepted := by
  cases hw : s.writable with
  | true =>
    obtain ⟨chunks, s', h', he, hemits⟩ := writeByte_emits hf hw hc id b
    rw [he]
    exact ⟨chunks, [b], hemits⟩
  | false =>
    rw [writeByte_of_readonly h id b hw]
    exact ⟨[], [], .flags hf h s.eof true⟩

theorem write_accounts {h : Host} (hf : s.Fits) (hc : s.Covered h.arena.memory) (id : StreamId)
    (block : Bytes) : ∃ chunks accepted,
    s.Emits h (s.write h id block).2.1 (s.write h id block).2.2 chunks accepted := by
  cases hw : s.writable with
  | true =>
    obtain ⟨chunks, s', h', he, hemits⟩ := write_emits id block hf hw hc
    rw [he]
    exact ⟨chunks, block, hemits⟩
  | false =>
    refine ⟨[], [], .of_readonly hf (write_serves s h id block) hw ?_⟩
    rw [(write_of_readonly id block hw).1]

/-- The data of a stream and its cursor lie within its buffer. -/
structure InStep (s : Stream) : Prop where
  capacity_le : s.capacity ≤ s.room
  extent_le : s.extent ≤ s.capacity
  cursor_le : s.writable = false → s.cursor ≤ s.extent

namespace InStep

theorem serves {h h' : Host} (hi : s.InStep) (hs : s.Serves h s' h') : s'.InStep where
  capacity_le := by
    rw [hs.capacity_eq, hs.room_eq]
    exact hi.capacity_le
  extent_le := by
    rw [hs.extent_eq, hs.capacity_eq]
    exact hi.extent_le
  cursor_le hw := by
    rw [hs.writable_eq] at hw
    rw [hs.extent_eq]
    exact hs.cursor_le hw (hi.cursor_le hw)

theorem rebuffered (hf : s.Fits) (hs : s.Rebuffered s') : s'.InStep where
  capacity_le := hs.capacity_le hf.reserved_pos
  extent_le := hs.extent_eq.le.trans (Nat.zero_le _)
  cursor_le _ := hs.cursor_eq.le.trans (Nat.zero_le _)

theorem lent (s : Stream) (grant : Allocation) (mode : BufferMode) : (s.lent grant mode).InStep :=
  ⟨Nat.le_refl _, Nat.zero_le _, fun _ => Nat.zero_le _⟩

theorem closed : ({} : Stream).InStep := ⟨Nat.zero_le _, Nat.zero_le _, fun _ => Nat.zero_le _⟩

theorem opening (ticket : Nat) {grant : Allocation} (name : String)
    (h : streamBufferSize ≤ grant.length) : (Stream.opening ticket grant name).InStep :=
  ⟨h, Nat.zero_le _, fun _ => Nat.zero_le _⟩

theorem delivered (s : Stream) {grant : Allocation} {content : Bytes}
    (h : content.length ≤ grant.length) : (s.delivered grant content).InStep :=
  ⟨h, Nat.le_refl _, fun _ => Nat.zero_le _⟩

theorem failed (hi : s.InStep) : s.failed.InStep := ⟨hi.capacity_le, hi.extent_le, hi.cursor_le⟩

theorem initial (id : StreamId) : (StreamTable.initial.get id).InStep := by
  have h : ∀ id, (StreamTable.initial.get id).extent = 0 ∧
      (StreamTable.initial.get id).cursor = 0 ∧
      ((StreamTable.initial.get id).writable = false →
        (StreamTable.initial.get id).capacity = 0) := by decide
  obtain ⟨hextent, hcursor, hcapacity⟩ := h id
  refine ⟨?_, hextent.le.trans (Nat.zero_le _), fun _ => hcursor.le.trans (Nat.zero_le _)⟩
  cases hw : (StreamTable.initial.get id).writable with
  | true => exact (Client.fits_initial id).capacity_le hw
  | false => exact (hcapacity hw).le.trans (Nat.zero_le _)

end InStep
end Stream

/-- The heap, the buffers of the streams and all grants seen so far lie in memory, and each stream
fits its buffer. -/
structure Bounded (sys : StreamSystem) (seen : List Allocation) : Prop where
  enclosed : sys.heap.Enclosed sys.host.arena
  inside : ∀ g ∈ seen, g.address + g.length ≤ sys.host.arena.memory.size
  fits : ∀ id, (sys.streams.get id).Fits
  inStep : ∀ id, (sys.streams.get id).InStep
  covered : ∀ id, (sys.streams.get id).Covered sys.host.arena.memory

namespace Bounded

open StreamSystem

variable {sys : StreamSystem} {seen : List Allocation} {id : StreamId} {s : Stream} {heap : Heap}
  {host : Host} {chunks : List Bytes} {bytes : Bytes}

/-- Memory may grow and the heap may change while no stream does. -/
theorem grown (hb : Bounded sys seen) (hh : heap.Enclosed host.arena)
    (hle : sys.host.arena.memory.size ≤ host.arena.memory.size) :
    Bounded ⟨sys.streams, heap, host⟩ seen where
  enclosed := hh
  inside g hg := (hb.inside g hg).trans hle
  fits := hb.fits
  inStep := hb.inStep
  covered id := (hb.covered id).of_size_le hle

/-- The host may change alone, as long as memory does not shrink. -/
theorem onHost (hb : Bounded sys seen) (f : Host → Host)
    (hbase : (f sys.host).arena.heapBase = sys.host.arena.heapBase)
    (hle : sys.host.arena.memory.size ≤ (f sys.host).arena.memory.size) :
    Bounded (sys.onHost f) seen :=
  hb.grown (hb.enclosed.of_size_le hbase hle) hle

theorem place (hb : Bounded sys seen) (hf : s.Fits) (hi : s.InStep)
    (hc : s.Covered sys.host.arena.memory) :
    Bounded ⟨sys.streams.set id s, sys.heap, sys.host⟩ seen where
  enclosed := hb.enclosed
  inside := hb.inside
  fits i := by
    rw [StreamTable.get_set]
    split
    · exact hf
    · exact hb.fits i
  inStep i := by
    rw [StreamTable.get_set]
    split
    · exact hi
    · exact hb.inStep i
  covered i := by
    rw [StreamTable.get_set]
    split
    · exact hc
    · exact hb.covered i

theorem emits (hb : Bounded sys seen)
    (he : (sys.streams.get id).Emits sys.host s host chunks bytes) :
    Bounded ⟨sys.streams.set id s, sys.heap, host⟩ seen := by
  have hsize := he.serves.size_eq.ge
  have henclosed := hb.enclosed.of_size_le he.serves.heapBase_eq hsize
  exact (hb.grown henclosed hsize).place he.fits ((hb.inStep id).serves he.serves)
    ((hb.covered id).serves he.serves)

theorem onOpen {α : Type} (hb : Bounded sys seen) (id : StreamId)
    {f : Stream → Host → Except StreamError α × Stream × Host}
    (hf : ∀ (s : Stream) (h : Host), s.Fits → s.Covered h.arena.memory → ∃ chunks bytes,
      s.Emits h (f s h).2.1 (f s h).2.2 chunks bytes) : Bounded (sys.onOpen id f).2 seen := by
  cases hopen : (sys.streams.get id).isOpen with
  | true =>
    obtain ⟨chunks, bytes, he⟩ := hf _ sys.host (hb.fits id) (hb.covered id)
    rw [onOpen_of_open hopen]
    exact hb.emits he
  | false =>
    rw [onOpen_of_closed hopen]
    exact hb

theorem readInto (hb : Bounded sys seen) (id : StreamId) (buf : Bytes)
    {f : Stream → LinearMemory → Bytes → Except StreamError Nat × Bytes × Stream}
    (hf : ∀ (s : Stream) (h : Host) (m : LinearMemory), s.Fits →
      s.Emits h (f s m buf).2.2 h [] []) : Bounded (sys.readInto id buf f).2.2 seen :=
  hb.emits (hf (sys.streams.get id) sys.host sys.host.arena.memory (hb.fits id))

theorem allocateBuffer (hb : Bounded sys seen) (size : Nat) : ∃ r heap host,
    sys.allocateBuffer size = (r, ⟨sys.streams, heap, host⟩) ∧
      Bounded ⟨sys.streams, heap, host⟩ seen ∧
      ∀ g, r = .ok g → size ≤ g.length ∧ g.address + g.length ≤ host.arena.memory.size := by
  have he := Heap.allocateFor_encloses hb.enclosed .malloc size
  rcases hr : sys.heap.allocateFor sys.host.arena .malloc size with ⟨r, heap, arena⟩
  rw [hr] at he
  refine ⟨r.mapError .alloc, heap, { sys.host with arena }, ?_, hb.grown he.enclosed he.size_le,
    fun g hg => ?_⟩
  · unfold StreamSystem.allocateBuffer Heap.allocate
    simp only [hr]
  · cases r with
    | error e => cases hg
    | ok g' =>
      obtain rfl := Except.ok.inj hg
      exact (he.granted g' rfl).resolve_left (by simp)

theorem releaseGrant (hb : Bounded sys seen) (grant : Option Allocation) : ∃ r heap,
    sys.releaseGrant grant = (r, ⟨sys.streams, heap, sys.host⟩) ∧
      Bounded ⟨sys.streams, heap, sys.host⟩ seen := by
  unfold StreamSystem.releaseGrant
  cases grant with
  | none => exact ⟨_, _, rfl, hb⟩
  | some g =>
    have henclosed := Heap.release_enclosed hb.enclosed g
    dsimp only
    generalize sys.heap.release g = outcome at henclosed ⊢
    obtain ⟨_ | _, heap⟩ := outcome
    all_goals exact ⟨_, heap, rfl, hb.grown henclosed (Nat.le_refl _)⟩

theorem flush (hb : Bounded sys seen) (id : StreamId) : Bounded (sys.flush id).2 seen :=
  hb.onOpen id fun _ _ hf hc => (Stream.drain_emits hf hc).imp fun _ he => ⟨[], he.1⟩

theorem flushAll (hb : Bounded sys seen) : Bounded sys.flushAll seen := by
  unfold StreamSystem.flushAll
  generalize List.finRange streamSlots = ids
  induction ids generalizing sys with
  | nil => exact hb
  | cons id rest ih =>
    rw [List.foldl_cons, Orderly.flushSlot_eq]
    exact ih (hb.flush id)

theorem write (hb : Bounded sys seen) (id : StreamId) (block : Bytes) :
    Bounded (sys.write id block).2 seen :=
  hb.onOpen id fun _ _ hf hc => Stream.write_accounts hf hc id block

theorem writePieces (hb : Bounded sys seen) (id : StreamId) (pieces : List Bytes) :
    Bounded (StreamSystem.writePieces id pieces sys).2 seen := by
  induction pieces generalizing sys with
  | nil => exact hb
  | cons piece rest ih =>
    have hw := hb.write id piece
    unfold StreamSystem.writePieces
    split
    · rename_i e sys' he
      rw [he] at hw
      exact hw
    · rename_i n sys' he
      rw [he] at hw
      have hrest := ih hw
      split <;> rename_i hr <;> rw [hr] at hrest <;> exact hrest

theorem openInto (hb : Bounded sys seen) (id : StreamId) (name : String) :
    Bounded (sys.openInto id name).2 seen := by
  obtain ⟨r, heap, host, he, hb', hg⟩ := hb.allocateBuffer streamBufferSize
  unfold StreamSystem.openInto
  rw [he]
  cases r with
  | error e => exact hb'
  | ok g =>
    have hfetch : Bounded ⟨sys.streams, heap, (host.fetch name).2⟩ seen :=
      hb'.grown (hb'.enclosed.of_size_le rfl (Nat.le_refl _)) (Nat.le_refl _)
    refine hfetch.place (.of_readonly rfl (by simp)) (.opening _ name (hg g rfl).1) fun g' hg' => ?_
    obtain rfl := Option.some.inj hg'
    exact (hg g rfl).2

theorem openStream (hb : Bounded sys seen) (name mode : String) :
    Bounded (sys.openStream name mode).2 seen := by
  unfold StreamSystem.openStream
  split
  · exact hb
  split
  · exact hb
  rename_i id _
  have hopened := hb.openInto id name
  split <;> rename_i hr <;> rw [hr] at hopened <;> exact hopened

theorem close (hb : Bounded sys seen) (id : StreamId) : Bounded (sys.close id).2 seen := by
  have hflush := hb.flush id
  unfold StreamSystem.close
  split
  · rename_i he
    rw [he] at hflush
    exact hflush
  · rename_i streams heap host he
    rw [he] at hflush
    have hempty : Bounded ⟨streams.set id {}, heap, host⟩ seen :=
      hflush.place (.of_readonly rfl (by simp)) .closed (Stream.covered_of_grant? rfl _)
    obtain ⟨r, heap', hr, hb'⟩ := hempty.releaseGrant (streams.get id).storage.owned?
    dsimp only
    rw [hr]
    exact hb'

theorem reopen (hb : Bounded sys seen) (id : StreamId) (name mode : String) :
    Bounded (sys.reopen id name mode).2 seen := by
  have hclosed : Bounded (if (sys.streams.get id).isOpen then sys.close id else (.ok (), sys)).2
      seen := by
    split
    · exact hb.close id
    · exact hb
  unfold StreamSystem.reopen
  split
  · exact hb
  generalize (if (sys.streams.get id).isOpen then sys.close id else (.ok (), sys)) = p at hclosed ⊢
  obtain ⟨_ | _, sys'⟩ := p
  · exact hclosed
  · have hopened := hclosed.openInto id name
    dsimp only
    split <;> rename_i hr <;> rw [hr] at hopened <;> exact hopened

/-- A buffer is chosen for a stream that has none. -/
theorem chooseBuffer {mode : BufferMode} {old : Stream}
    (hb : Bounded ⟨sys.streams.set id (old.bare mode), heap, host⟩ seen) (hold : old.Fits)
    (size : Nat) : Bounded
      (StreamSystem.chooseBuffer ⟨sys.streams.set id (old.bare mode), heap, host⟩ id mode size).2
      seen := by
  unfold StreamSystem.chooseBuffer
  dsimp only
  rw [StreamTable.get_set_self]
  split
  · exact hb
  split
  · rename_i hroom
    have hroom : old.reserved.any (size ≤ ·.length) := hroom
    have hs := Stream.rebuffered_reserved hroom mode
    exact hb.place (hold.rebuffered hs) (.rebuffered hold hs) (Stream.covered_of_grant? rfl _)
  · obtain ⟨r, heap', host', he, hb', hg⟩ := hb.allocateBuffer (max size 1)
    rw [he]
    cases r with
    | error e =>
      have hs := old.rebuffered_bare .none
      exact hb'.place (hold.rebuffered hs) (.rebuffered hold hs) (Stream.covered_of_grant? rfl _)
    | ok g =>
      obtain ⟨hle, hin⟩ := hg g rfl
      have hs := old.rebuffered_owned hle mode
      refine hb'.place (hold.rebuffered hs) (.rebuffered hold hs) fun g' hg' => ?_
      obtain rfl := Option.some.inj hg'
      exact hin

theorem setBufferMode (hb : Bounded sys seen) (id : StreamId) (mode : BufferMode) (size : Nat) :
    Bounded (sys.setBufferMode id mode size).2 seen := by
  unfold StreamSystem.setBufferMode
  dsimp only
  split
  · exact hb
  have hfits := hb.fits id
  have hs := (sys.streams.get id).rebuffered_bare mode
  have hbare : Bounded ⟨sys.streams.set id ((sys.streams.get id).bare mode), sys.heap, sys.host⟩
      seen :=
    hb.place (hfits.rebuffered hs) (.rebuffered hfits hs) (Stream.covered_of_grant? rfl _)
  obtain ⟨r, heap, he, hb'⟩ := hbare.releaseGrant (sys.streams.get id).storage.owned?
  unfold Stream.bare at he
  rw [he]
  cases r with
  | error e => exact hb'
  | ok _ => exact hb'.chooseBuffer hfits size

theorem setUserBuffer (hb : Bounded sys seen) (id : StreamId) {grant : Allocation}
    (hg : grant ∈ seen) (mode : BufferMode) : Bounded (sys.setUserBuffer id grant mode).2 seen := by
  unfold StreamSystem.setUserBuffer
  dsimp only
  split
  · exact hb
  have hlent : Bounded ⟨sys.streams.set id ((sys.streams.get id).lent grant mode), sys.heap,
      sys.host⟩ seen := by
    refine hb.place ((hb.fits id).lent grant mode) (.lent _ grant mode) fun g hg' => ?_
    obtain rfl := Option.some.inj hg'
    exact hb.inside grant hg
  obtain ⟨r, heap, he, hb'⟩ := hlent.releaseGrant (sys.streams.get id).storage.owned?
  unfold Stream.lent at he
  rw [he]
  exact hb'

/-- A delivery goes to a stream that waits for it, which is not writable. -/
theorem deliver (hb : Bounded sys seen) (hw : (sys.streams.get id).writable = false)
    (content : Bytes) : Bounded (sys.deliver id content).2 seen := by
  have hreserved := (hb.fits id).reserved_pos
  obtain ⟨r, heap, host, he, hb', hg⟩ := hb.allocateBuffer (content.length + 1)
  unfold StreamSystem.deliver
  rw [he]
  cases r with
  | error e =>
    exact hb'.place (.of_readonly hw hreserved) (hb'.inStep id).failed
      ((hb'.covered id).of_storage rfl)
  | ok g =>
    obtain ⟨hle, hin⟩ := hg g rfl
    have hsize : (host.arena.write g.address (content ++ [0])).memory.size =
        host.arena.memory.size := LinearMemory.size_write _ _ _
    have hstored : Bounded ⟨sys.streams, heap, { host with
        arena := host.arena.write g.address (content ++ [0]) }⟩ seen :=
      hb'.grown (hb'.enclosed.of_size_le rfl hsize.ge) hsize.ge
    have hplaced : Bounded ⟨sys.streams.set id ((sys.streams.get id).delivered g content), heap,
        { host with arena := host.arena.write g.address (content ++ [0]) }⟩ seen := by
      refine hstored.place (.of_readonly hw hreserved)
        (.delivered _ ((Nat.le_succ _).trans hle)) fun g' hg' => ?_
      obtain rfl := Option.some.inj hg'
      exact hin.trans hsize.ge
    obtain ⟨r, heap', hr, hb''⟩ := hplaced.releaseGrant (sys.streams.get id).storage.owned?
    unfold Stream.delivered at hr
    dsimp only
    rw [hr]
    exact hb''

theorem pollSlot (hb : Bounded sys seen) (report : PollReport) (id : StreamId) :
    Bounded (StreamSystem.pollSlot (report, sys) id).2 seen := by
  unfold StreamSystem.pollSlot
  dsimp only
  cases hstate : (sys.streams.get id).state with
  | closed | ready | unavailable => exact hb
  | opening ticket =>
    have hw : (sys.streams.get id).writable = false := by
      by_contra hw
      have hready := (hb.fits id).ready (by simpa using hw)
      rw [hready] at hstate
      cases hstate
    have hpoll : Bounded ⟨sys.streams, sys.heap, (sys.host.poll ticket).2⟩ seen := by
      refine hb.onHost (fun h => (h.poll ticket).2) ?_ ?_ <;> rw [Host.arena_poll]
    dsimp only
    split
    · rename_i hp
      rw [hp] at hpoll
      exact hpoll
    · rename_i hp
      rw [hp] at hpoll
      exact hpoll.place (.of_readonly hw (hb.fits id).reserved_pos) (hpoll.inStep id).failed
        ((hpoll.covered id).of_storage rfl)
    · rename_i content host hp
      rw [hp] at hpoll
      have hdelivered := @deliver _ _ id hpoll hw content
      split <;> rename_i hd <;> rw [hd] at hdelivered <;> exact hdelivered

theorem poll (hb : Bounded sys seen) : Bounded sys.poll.2 seen := by
  have hfold : ∀ (ids : List StreamId) (sys : StreamSystem) (report : PollReport),
      Bounded sys seen → Bounded (ids.foldl StreamSystem.pollSlot (report, sys)).2 seen := by
    intro ids
    induction ids with
    | nil => exact fun _ _ hb => hb
    | cons id rest ih => exact fun sys report hb => ih _ _ (hb.pollSlot report id)
  exact hfold _ sys {} hb

theorem request (hb : Bounded sys seen) (r : Heap.Request) : Bounded (sys.request r).2 seen := by
  obtain ⟨henclosed, hle, -⟩ := Heap.perform_encloses hb.enclosed r
  exact hb.grown henclosed hle

/-- Every call keeps the bounds. -/
theorem serve (hb : Bounded sys seen) (call : Call) (hl : ∀ g, call.lends? = some g → g ∈ seen) :
    Bounded (sys.serve call) seen := by
  cases call with
  | heap r => exact hb.request r
  | poke address block =>
    exact hb.onHost (fun h => { h with arena := h.arena.write address block }) rfl
      (LinearMemory.size_write _ _ _).ge
  | addResource name content =>
    refine hb.onHost (·.addResource name content) ?_ ?_ <;> rw [Host.arena_addResource]
  | completeFetches => exact hb.onHost (·.release) rfl (Nat.le_refl _)
  | openStream name mode => exact hb.openStream name mode
  | reopen id name mode => exact hb.reopen id name mode
  | close id => exact hb.close id
  | poll => exact hb.poll
  | setBufferMode id mode size => exact hb.setBufferMode id mode size
  | setUserBuffer id grant mode => exact hb.setUserBuffer id (hl grant rfl) mode
  | readByte id => exact hb.onOpen id fun s h hf _ => ⟨[], [], s.readByte_emits hf h _⟩
  | readLine id buf =>
    dsimp only [StreamSystem.serve, StreamSystem.readLine]
    split
    · exact hb
    · exact hb.readInto id buf fun s h m hf => Stream.readLine_emits hf h m buf
  | read id buf =>
    dsimp only [StreamSystem.serve, StreamSystem.read]
    split
    · exact hb
    · exact hb.readInto id buf fun s h m hf => Stream.read_emits hf h m buf
  | pushBack id b => exact hb.onOpen id fun s h hf _ => ⟨[], [], Stream.pushBack_emits hf h id b⟩
  | writeByte id b => exact hb.onOpen id fun s h hf hc => Stream.writeByte_accounts hf hc id b
  | write id block => exact hb.write id block
  | writePieces id pieces => exact hb.writePieces id pieces
  | flush id => exact hb.flush id
  | flushAll => exact hb.flushAll
  | seek id offset whence =>
    exact hb.onOpen id fun s h hf _ => ⟨[], [], Stream.seek_emits hf h id offset whence⟩
  | tell id => exact hb.onOpen id fun s h hf _ => ⟨[], [], .refl hf h⟩
  | rewind id => exact hb.onOpen id fun s h hf _ => ⟨[], [], Stream.rewind_emits hf h id⟩
  | clearError id => exact hb.onOpen id fun s h hf _ => ⟨[], [], .flags hf h false false⟩

theorem start (limits : HeapLimits) (ha : host.arena.Simulated) :
    Bounded (Client.start limits host).system [] := by
  have hgrant : ∀ id, (StreamTable.initial.get id).storage.grant? = none := by decide
  exact ⟨Heap.enclosed_ofLimits limits (Nat.le_of_lt ha.heapBase_lt), by simp, Client.fits_initial,
    .initial, fun id => Stream.covered_of_grant? (hgrant id) _⟩

/-- Grants that lie inside memory may be added to those seen. -/
theorem see (hb : Bounded sys seen) {more : List Allocation}
    (hm : ∀ g ∈ more, g.address + g.length ≤ sys.host.arena.memory.size) :
    Bounded sys (more ++ seen) :=
  ⟨hb.enclosed, fun g hg => (List.mem_append.mp hg).elim (hm g) (hb.inside g), hb.fits, hb.inStep,
    hb.covered⟩

end Bounded

/-- The bounds hold along every run. -/
theorem StreamSystem.Reached.bounded {limits : HeapLimits} {host : Host} {sys : StreamSystem}
    {seen : List Allocation} (hr : Reached limits host sys seen) : Bounded sys seen := by
  induction hr with
  | start ha => exact .start limits ha
  | call call _ hl ih =>
    have hb := ih.serve call hl
    exact hb.see fun g hg => hb.enclosed.bounds_of_live hg

end GuestLibrary
