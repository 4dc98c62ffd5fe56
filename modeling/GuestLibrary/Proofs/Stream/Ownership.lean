import GuestLibrary.Proofs.Stream.Delivery

/-! Who owns the live grants of a heap that programs and streams share. The ledger holds along every
run of a program that gives back only what it holds, whatever else it does. -/
namespace GuestLibrary

namespace StreamSystem

/-- The system after the parts of a poll that concern the given slots. -/
def pollEach (sys : StreamSystem) (ids : List StreamId) : StreamSystem :=
  (ids.foldl pollSlot ({}, sys)).2

/-- Closes slots one after the other. -/
def closeEach (sys : StreamSystem) (ids : List StreamId) : StreamSystem :=
  ids.foldl (fun sys id => (sys.close id).2) sys

end StreamSystem

namespace Ledger

open StreamSystem

variable {sys : StreamSystem} {held : List Allocation} {id : StreamId} {g : Allocation}

theorem nodup_held (hl : Ledger sys held) : held.Nodup := (List.nodup_append.mp hl.nodup).1

/-- Taking the grant at an address away takes that grant away. -/
theorem filter_address_perm (hl : Ledger sys held) (hg : g ∈ held) :
    (held.filter (·.address ≠ g.address)).Perm (held.erase g) := by
  apply (List.perm_ext_iff_of_nodup (hl.nodup_held.filter _) (hl.nodup_held.erase g)).mpr
  intro x
  rw [List.mem_filter, hl.nodup_held.mem_erase_iff, decide_eq_true_eq]
  constructor
  · rintro ⟨hx, hne⟩
    exact ⟨fun he => hne (congrArg _ he), hx⟩
  · rintro ⟨hne, hx⟩
    exact ⟨hx, fun he => hne (Heap.eq_of_address_eq hl.sound (hl.mem_live_of_held hx)
      (hl.mem_live_of_held hg) he)⟩

/-- Releasing by address, where the address is that of a grant that is held, or 0. -/
theorem requestAddress (hl : Ledger sys held) {address : Nat}
    (he : address = 0 ∨ ∃ g, g ∈ held ∧ g.address = address) :
    Ledger (sys.request (.releaseAddress address)).2
      (Heap.Request.heldAfter (.releaseAddress address) held
        (sys.request (.releaseAddress address)).1) := by
  unfold StreamSystem.request
  dsimp only [Heap.perform]
  rcases Heap.releaseAddress_cases hl.sound address with
    ⟨i, b, h', hb, haddress, hr, hstep⟩ | ⟨result, h', hr, hstep, hnull⟩
  · rw [hr]
    obtain ⟨g, hg, hga⟩ : ∃ g ∈ held, g.address = address := by
      rcases he with hz | he
      · simp only [blockHeader] at haddress
        omega
      · exact he
    obtain rfl : g = .ofBlock i b := Heap.eq_of_address_eq hl.sound (hl.mem_live_of_held hg)
      (Heap.ofBlock_mem hl.sound hb) (hga.trans haddress)
    have hreleased := hl.of_released hg hstep
    refine ⟨hreleased.sound, hreleased.perm.trans ?_, hreleased.closed⟩
    rw [← hga]
    exact (hl.filter_address_perm hg).symm.append_right _
  · rw [hr]
    cases result with
    | error e => exact hl.of_kept hstep
    | ok u =>
      obtain rfl := hnull rfl
      have hkept := hl.of_kept hstep
      have hfilter : held.filter (·.address ≠ 0) = held := by
        rw [List.filter_eq_self]
        intro g hg
        have hbound := (Heap.bounds_of_live hl.sound (hl.mem_live_of_held hg)).1
        have hpos : 0 < g.address := Nat.lt_of_lt_of_le (by decide) hbound
        simpa using Nat.ne_of_gt hpos
      refine ⟨hkept.sound, hkept.perm.trans (.of_eq ?_), hkept.closed⟩
      simp only [Except.map, Heap.Request.heldAfter, Option.toList_none, List.nil_append,
        Heap.Request.left, hfilter]

/-- A heap call of a program that gives back only what it holds. -/
theorem request (hl : Ledger sys held) (r : Heap.Request) (he : r.Entitled (· ∈ held)) :
    Ledger (sys.request r).2 (r.heldAfter held (sys.request r).1) := by
  unfold StreamSystem.request
  cases r with
  | allocate size =>
    dsimp only [Heap.perform, Heap.allocate]
    rcases Heap.allocateFor_cases hl.sound .malloc size with
      ⟨i, b, h', a', hr, -, hstep⟩ | ⟨e, h', a', hr, -, hstep⟩
    · rw [hr]
      exact hl.of_granted hstep
    · rw [hr]
      exact hl.of_kept hstep
  | allocateZeroed count size =>
    dsimp only [Heap.perform]
    rcases Heap.allocateZeroed_cases hl.sound count size with
      ⟨i, b, h', a', hr, -, hstep, -⟩ | ⟨e, h', a', hr, -, hstep⟩
    · rw [hr]
      exact hl.of_granted hstep
    · rw [hr]
      exact hl.of_kept hstep
  | reallocate current size =>
    cases current with
    | none =>
      dsimp only [Heap.perform, Heap.reallocate]
      rcases Heap.allocateFor_cases hl.sound .realloc size with
        ⟨i, b, h', a', hr, -, hstep⟩ | ⟨e, h', a', hr, -, hstep⟩
      · rw [hr]
        exact hl.of_granted hstep
      · rw [hr]
        exact hl.of_kept hstep
    | some current =>
      dsimp only [Heap.perform, Heap.reallocate]
      rcases Heap.resize_cases hl.sound current size with
        ⟨old, i, b, h', a', -, -, hr, -, hstep⟩ | ⟨old, h', -, -, hr, -, hstep⟩ |
        ⟨e, h', a', hr, hstep, -⟩
      · rw [hr]
        exact hl.of_moved he hstep
      · rw [hr]
        have hkept := hl.of_kept hstep
        exact ⟨hkept.sound, hkept.perm.trans ((List.perm_cons_erase he).append_right _),
          hkept.closed⟩
      · rw [hr]
        exact hl.of_kept hstep
  | release grant =>
    obtain ⟨heap, hr, hl'⟩ := hl.release he
    dsimp only [Heap.perform]
    rw [hr]
    exact hl'
  | releaseAddress address => exact hl.requestAddress he

/-- A heap call moves no grant that the program may not give back. -/
theorem request_bytes (hl : Ledger sys held) {may : Allocation → Prop}
    (hmay : ∀ g, may g → g ∈ held) {r : Heap.Request} (he : r.Entitled may) {g : Allocation}
    (hg : g ∈ sys.heap.liveAllocations) (hkept : ¬ may g) {k : Nat} (hlo : g.address ≤ k)
    (hhi : k < g.address + g.length) :
    (sys.request r).2.host.arena.memory.get? k = sys.host.arena.memory.get? k := by
  refine Heap.get?_perform_of_live hl.sound r hg (fun hres => ?_) hlo hhi
  obtain ⟨current, size, rfl, -, haddress⟩ := hres
  have hmc : may current := he
  rw [Heap.eq_of_address_eq hl.sound (hl.mem_live_of_held (hmay current hmc)) hg haddress] at hmc
  exact hkept hmc

theorem onOpen {α : Type} (hl : Ledger sys held) (id : StreamId)
    {f : Stream → Host → Except StreamError α × Stream × Host}
    (hf : ∀ s h, Stream.Serves s h (f s h).2.1 (f s h).2.2) : Ledger (sys.onOpen id f).2 held := by
  cases ho : (sys.streams.get id).isOpen with
  | true =>
    rw [onOpen_of_open ho]
    exact hl.serves (hf _ _)
  | false =>
    rw [onOpen_of_closed ho]
    exact hl

theorem flushSlot (hl : Ledger sys held) (id : StreamId) : Ledger (sys.flushSlot id) held := by
  unfold StreamSystem.flushSlot
  dsimp only
  split
  · exact hl.serves (Stream.flush_serves _ _)
  · exact hl

theorem flushAll (hl : Ledger sys held) : Ledger sys.flushAll held := by
  have hfold : ∀ (ids : List StreamId) (sys : StreamSystem), Ledger sys held →
      Ledger (ids.foldl StreamSystem.flushSlot sys) held := by
    intro ids
    induction ids with
    | nil => exact fun _ hl => hl
    | cons id rest ih => exact fun _ hl => ih _ (hl.flushSlot id)
  exact hfold _ _ hl

theorem foldl_pollSlot (hl : Ledger sys held) (report : PollReport) (ids : List StreamId) :
    Ledger (ids.foldl StreamSystem.pollSlot (report, sys)).2 held := by
  induction ids generalizing sys report with
  | nil => exact hl
  | cons id rest ih =>
    obtain ⟨report', s, heap, host, he, -, hl', -⟩ := hl.pollSlot report id
    rw [List.foldl_cons, he]
    exact ih hl' report'

theorem poll (hl : Ledger sys held) : Ledger sys.poll.2 held := by
  unfold StreamSystem.poll
  exact hl.foldl_pollSlot {} _

theorem writePieces (hl : Ledger sys held) (id : StreamId) (pieces : List Bytes) :
    Ledger (StreamSystem.writePieces id pieces sys).2 held := by
  induction pieces generalizing sys with
  | nil => exact hl
  | cons piece rest ih =>
    have hw : Ledger (sys.write id piece).2 held :=
      hl.onOpen id fun s h => Stream.write_serves s h id piece
    unfold StreamSystem.writePieces
    split
    · rename_i he
      rw [he] at hw
      exact hw
    · rename_i n sys' he
      rw [he] at hw
      have hrest := ih hw
      split <;> rename_i hr <;> rw [hr] at hrest <;> exact hrest

theorem readInto (hl : Ledger sys held) (id : StreamId) (buf : Bytes)
    {f : Stream → LinearMemory → Bytes → Except StreamError Nat × Bytes × Stream}
    (hf : ∀ s h m buf, Stream.Serves s h (f s m buf).2.2 h) :
    Ledger (sys.readInto id buf f).2.2 held :=
  hl.serves (hf _ _ _ _)

theorem openStream (hl : Ledger sys held) (name mode : String) :
    Ledger (sys.openStream name mode).2 held := by
  unfold StreamSystem.openStream
  split
  · exact hl
  split
  · exact hl
  rename_i id hfree
  rcases hl.openInto name (hl.closed id (StreamTable.closed_of_freeSlot? hfree)) with
    ⟨ticket, g, heap, host, he, hl', -⟩ | ⟨e, heap, host, he, -, hl', -⟩
  · rw [he]
    exact hl'
  · rw [he]
    exact hl'

theorem reopen (hl : Ledger sys held) (id : StreamId) (name mode : String) :
    Ledger (sys.reopen id name mode).2 held := by
  have hopened : ∀ {sys : StreamSystem}, Ledger sys held →
      (sys.streams.get id).storage.owned? = none → Ledger (sys.openInto id name).2 held := by
    intro sys hl hid
    rcases hl.openInto name hid with
      ⟨ticket, g, heap, host, he, hl', -⟩ | ⟨e, heap, host, he, -, hl', -⟩
    · rw [he]
      exact hl'
    · rw [he]
      exact hl'
  unfold StreamSystem.reopen
  split
  · exact hl
  cases ho : (sys.streams.get id).isOpen with
  | true =>
    obtain ⟨heap, he, hl'⟩ := hl.close ho
    have hnext := hopened hl' (by simp [BufferStorage.owned?])
    rw [if_pos rfl, he]
    dsimp only
    split <;> rename_i hr <;> rw [hr] at hnext <;> exact hnext
  | false =>
    have hnext := hopened hl (hl.closed id ho)
    rw [if_neg (by simp)]
    dsimp only
    split <;> rename_i hr <;> rw [hr] at hnext <;> exact hnext

/-- Whatever a program calls, the ledger holds again if it gives back only what it holds. -/
theorem perform {c : Client} (hl : Ledger c.system c.held) {call : Call} (he : c.Entitled call) :
    Ledger (c.perform call).system (c.perform call).held := by
  cases call with
  | heap r => exact hl.request r he
  | poke address block => exact hl.of_host rfl (by simp)
  | addResource name content =>
    have harena := c.system.host.arena_addResource name content
    exact hl.of_host (by rw [harena]) (by rw [harena])
  | completeFetches => exact hl.of_host rfl rfl
  | openStream name mode => exact hl.openStream name mode
  | reopen id name mode => exact hl.reopen id name mode
  | close id =>
    cases ho : (c.system.streams.get id).isOpen with
    | true =>
      obtain ⟨heap, he, hl'⟩ := hl.close ho
      change Ledger (c.system.close id).2 c.held
      rw [he]
      exact hl'
    | false =>
      change Ledger (c.system.close id).2 c.held
      rw [close_of_closed ho]
      exact hl
  | poll =>
    simp only [Client.perform, serve, Client.heldAfter]
    exact hl.poll
  | setBufferMode id mode size =>
    change Ledger (c.system.setBufferMode id mode size).2 c.held
    cases ho : (c.system.streams.get id).isOpen with
    | true =>
      obtain ⟨result, s, heap, host, he, -, -, hl', -⟩ := hl.setBufferMode ho mode size
      rw [he]
      exact hl'
    | false =>
      rw [setBufferMode_of_closed ho]
      exact hl
  | setUserBuffer id grant mode =>
    change Ledger (c.system.setUserBuffer id grant mode).2 c.held
    cases ho : (c.system.streams.get id).isOpen with
    | true =>
      obtain ⟨heap, he, hl'⟩ := hl.setUserBuffer ho grant mode
      rw [he]
      exact hl'
    | false =>
      rw [setUserBuffer_of_closed ho]
      exact hl
  | readByte id => exact hl.onOpen id fun s h => Stream.readByte_serves s h _
  | readLine id buf =>
    change Ledger (c.system.readLine id buf).2.2 c.held
    unfold StreamSystem.readLine
    split
    · exact hl
    · exact hl.readInto id buf Stream.readLine_serves
  | read id buf =>
    change Ledger (c.system.read id buf).2.2 c.held
    unfold StreamSystem.read
    split
    · exact hl
    · exact hl.readInto id buf Stream.read_serves
  | pushBack id b => exact hl.onOpen id fun s h => Stream.pushBack_serves s h id b
  | writeByte id b => exact hl.onOpen id fun s h => Stream.writeByte_serves s h id b
  | write id block => exact hl.onOpen id fun s h => Stream.write_serves s h id block
  | writePieces id pieces => exact hl.writePieces id pieces
  | flush id => exact hl.onOpen id Stream.drain_serves
  | flushAll =>
    simp only [Client.perform, serve, Client.heldAfter]
    exact hl.flushAll
  | seek id offset whence =>
    exact hl.onOpen id fun s h => Stream.seek_serves s h id offset whence
  | tell id => exact hl.onOpen id Stream.Serves.refl
  | rewind id => exact hl.onOpen id fun s h => Stream.rewind_serves s h id
  | clearError id => exact hl.onOpen id fun s h => .flags s h false false

end Ledger

namespace Ledger

open StreamSystem

variable {sys : StreamSystem} {held : List Allocation}

/-- Closing slots one after the other leaves those open that were open and not among them. -/
theorem closeEach (hl : Ledger sys held) (ids : List StreamId) :
    Ledger (sys.closeEach ids) held ∧
      ∀ i, ((sys.closeEach ids).streams.get i).isOpen = true →
        (sys.streams.get i).isOpen = true ∧ i ∉ ids := by
  induction ids generalizing sys with
  | nil => exact ⟨hl, fun i ho => ⟨ho, List.not_mem_nil⟩⟩
  | cons id rest ih =>
    have hclosed : Ledger (sys.close id).2 held ∧
        ∀ i, ((sys.close id).2.streams.get i).isOpen = true →
          (sys.streams.get i).isOpen = true ∧ i ≠ id := by
      cases ho : (sys.streams.get id).isOpen with
      | true =>
        obtain ⟨heap, he, hl'⟩ := hl.close ho
        rw [he]
        refine ⟨hl', fun i hi => ?_⟩
        dsimp only at hi
        rw [StreamTable.get_set] at hi
        split at hi
        · cases hi
        · rename_i hne
          exact ⟨hi, hne⟩
      | false =>
        rw [close_of_closed ho]
        refine ⟨hl, fun i hi => ⟨hi, ?_⟩⟩
        rintro rfl
        rw [ho] at hi
        cases hi
    obtain ⟨hl', hopen⟩ := ih hclosed.1
    refine ⟨hl', fun i hi => ?_⟩
    obtain ⟨hi, hrest⟩ := hopen i hi
    obtain ⟨hi, hne⟩ := hclosed.2 i hi
    exact ⟨hi, by simp [hne, hrest]⟩

/-- Once every slot is closed, as many grants are live as the program holds. -/
theorem liveCount_of_closed (hl : Ledger sys held)
    (hc : ∀ i, (sys.streams.get i).isOpen = false) : sys.heap.liveCount = held.length := by
  have howned : sys.streams.owned = [] :=
    List.filterMap_eq_nil_iff.mpr fun i _ => hl.closed i (hc i)
  have hperm := hl.perm
  rw [howned, List.append_nil] at hperm
  rw [← Heap.length_liveAllocations hl.sound, hperm.length_eq]

end Ledger

namespace Client

variable {limits : HeapLimits} {host : Host} {c : Client}

theorem get_initial_owned? (id : StreamId) :
    (StreamTable.initial.get id).storage.owned? = none := by
  revert id
  decide

theorem ledger_start (ha : host.arena.Simulated) :
    Ledger (start limits host).system (start limits host).held where
  sound := Heap.sound_ofLimits limits ha.heapBase_lt
  perm := by
    have howned : StreamTable.initial.owned = [] :=
      List.filterMap_eq_nil_iff.mpr fun id _ => get_initial_owned? id
    simp [start, howned, Heap.liveAllocations, Heap.ofLimits]
  closed id _ := get_initial_owned? id

theorem streams_heap (c : Client) (r : Heap.Request) :
    (c.perform (.heap r)).system.streams = c.system.streams := rfl

theorem held_heap (c : Client) (r : Heap.Request) :
    (c.perform (.heap r)).held =
      r.heldAfter c.held (c.system.heap.perform c.system.host.arena r).1 := rfl

/-- The ledger holds along every run of a program that gives back only what it holds. -/
theorem Reachable.ledger {allowed : Client → Call → Prop}
    (hallowed : ∀ c call, allowed c call → c.Entitled call)
    (hr : Reachable limits host allowed c) : Ledger c.system c.held := by
  induction hr with
  | start ha => exact ledger_start ha
  | call call _ ha ih => exact ih.perform (hallowed _ call ha)

/-- In every reachable state the live grants are those of the program and those that the streams
own; each of the latter belongs to one slot and not to the program, and a closed slot owns none.
Hence no release that a stream operation makes can fail, also halfway through a poll, and closing
every open slot, in any order, leaves exactly the grants of the program. -/
theorem buffers_owned_once (hr : Reachable limits host Entitled c) :
    c.system.heap.liveAllocations.Perm (c.held ++ c.system.streams.owned) ∧
    (∀ i g, (c.system.streams.get i).storage = .owned g →
      g ∈ c.system.heap.liveAllocations ∧ g ∉ c.held ∧
        ∀ j, (c.system.streams.get j).storage = .owned g → j = i) ∧
    (∀ i g, (c.system.streams.get i).isOpen = false →
      (c.system.streams.get i).storage ≠ .owned g) ∧
    (∀ i, (c.system.streams.get i).isOpen = true →
      (c.system.close i).1 = .ok () ∧
      (∀ grant mode, (c.system.setUserBuffer i grant mode).1 = .ok ()) ∧
      ∀ mode size e, (c.system.setBufferMode i mode size).1 = .error e →
        ∃ e', e = .alloc e' ∧ e'.IsShortage) ∧
    (∀ ids i ticket content e,
      (((c.system.pollEach ids).onHost fun h => (h.poll ticket).2).deliver i content).1 = .error e →
        ∃ e', e = .alloc e' ∧ e'.IsShortage) ∧
    ∀ ids, (∀ i, (c.system.streams.get i).isOpen = true → i ∈ ids) →
      (c.system.closeEach ids).heap.liveCount = c.held.length := by
  have hl := hr.ledger fun _ _ he => he
  refine ⟨hl.perm, fun i g hg => ?_, fun i g ho hg => ?_, fun i ho => ⟨?_, ?_, ?_⟩, ?_, ?_⟩
  · have hmem : g ∈ c.system.streams.owned := StreamTable.mem_owned.mpr ⟨i, hg⟩
    refine ⟨hl.mem_live_of_owned hmem, fun hheld => ?_, fun j hj => ?_⟩
    · exact (List.nodup_append.mp hl.nodup).2.2 g hheld g hmem rfl
    · exact hl.owner_unique hg hj
  · have := hl.closed i ho
    rw [hg] at this
    cases this
  · obtain ⟨heap, he, -⟩ := hl.close ho
    rw [he]
  · intro grant mode
    obtain ⟨heap, he, -⟩ := hl.setUserBuffer ho grant mode
    rw [he]
  · intro mode size e hres
    obtain ⟨result, s, heap, host, he, hshort, -⟩ := hl.setBufferMode ho mode size
    rw [he] at hres
    exact hshort e hres
  · intro ids i ticket content e hres
    have harena := (c.system.pollEach ids).host.arena_poll ticket
    have hpolled : Ledger (c.system.pollEach ids) c.held := hl.foldl_pollSlot {} ids
    have hl' : Ledger ((c.system.pollEach ids).onHost fun h => (h.poll ticket).2) c.held :=
      hpolled.of_host (by rw [harena]) (by rw [harena])
    rcases hl'.deliver i content with ⟨g, heap, host, he, -⟩ | ⟨e', heap, host, he, hshort, -⟩
    · rw [he] at hres
      cases hres
    · rw [he] at hres
      exact ⟨e', (Except.error.inj hres).symm, hshort⟩
  · intro ids hids
    obtain ⟨hl', hopen⟩ := hl.closeEach ids
    refine hl'.liveCount_of_closed fun i => ?_
    by_contra ho
    rw [Bool.not_eq_false] at ho
    obtain ⟨hi, hnot⟩ := hopen i ho
    exact hnot (hids i hi)

/-- A system after a call, once it is known in another form: a goal that mentions the call itself
would have it evaluated. -/
theorem system_openStream {sys : StreamSystem} {name mode : String}
    (h : (c.system.openStream name mode).2 = sys) :
    (c.perform (.openStream name mode)).system = sys := by
  simp only [perform, StreamSystem.serve, h]

end Client

/-- Opening a stream in a table with a free slot, when the heap grants its buffer. -/
theorem StreamSystem.openStream_of_free {sys : StreamSystem} {id : StreamId} {g : Allocation}
    {heap : Heap} {arena : Arena} (name : String) (hfree : sys.streams.freeSlot? = some id)
    (hgranted : sys.heap.allocate sys.host.arena streamBufferSize = (.ok g, heap, arena)) :
    sys.openStream name "rb" = (.ok id,
      ⟨sys.streams.set id (.opening sys.host.nextTicket g name), heap,
        ({ sys.host with arena }.fetch name).2⟩) := by
  have hbuffer : sys.allocateBuffer streamBufferSize =
      (.ok g, ⟨sys.streams, heap, { sys.host with arena }⟩) := by
    unfold allocateBuffer
    dsimp only
    rw [hgranted]
    rfl
  unfold openStream
  rw [show modeError? "rb" = none from rfl, hfree]
  unfold openInto
  rw [hbuffer]
  rfl

/-- A heap of one page in two blocks has room for a stream buffer and a few bytes. -/
theorem Heap.allocate_twoBlocks {a : Arena} (hbase : a.heapBase = 0)
    (hsize : a.memory.size = 65536) : ∃ h a',
      (Heap.ofLimits ⟨1, 2⟩).allocate a streamBufferSize = (.ok ⟨0, 4, 32764⟩, h, a') ∧
      ∀ a, (h.allocate a 3).1 = .ok ⟨1, 32772, 32764⟩ := by
  obtain ⟨h, a', he, -, -, hblocks⟩ := @allocate_first a ⟨1, 2⟩ streamBufferSize
    ⟨⟨0, 0, .unsplit⟩, [⟨0, 32768, 0, true⟩, ⟨32768, 32768, 0, false⟩], [], none⟩
    ⟨0, 32768, 0, true⟩ hbase hsize (by decide) (by decide) (by decide) rfl rfl
  refine ⟨h, a', he, fun a => ?_⟩
  simp [allocate, allocateFor, wordLimit, searchGrowing, BlockTable.size, BlockTable.find?,
    BlockTable.firstFit?, hblocks, BlockTable.grantFrom?, BlockTable.gather?, BlockTable.divide,
    Block.isHole, commit?, BlockTable.get?, blockHeader]

/-- The slot that a program opens first. -/
def StreamId.first : StreamId := ⟨StreamId.firstUser, by decide⟩

namespace Client

open StreamSystem

variable {host : Host}

/-- A program that opens a stream first gets the first slot for it, with a buffer from a heap that
has room left. -/
theorem openStream_first (hbase : host.arena.heapBase = 0)
    (hsize : host.arena.memory.size = 65536) : ∃ heap arena,
      (start ⟨1, 2⟩ host).system.openStream "a" "rb" = (.ok .first,
        ⟨StreamTable.initial.set .first (.opening host.nextTicket ⟨0, 4, 32764⟩ "a"), heap,
          ({ host with arena }.fetch "a").2⟩) ∧
      ∀ arena, (heap.allocate arena 3).1 = .ok ⟨1, 32772, 32764⟩ := by
  obtain ⟨heap, arena, hgranted, hroom⟩ := Heap.allocate_twoBlocks hbase hsize
  have hfree : StreamTable.initial.freeSlot? = some .first := by decide
  exact ⟨heap, arena, openStream_of_free "a" hfree hgranted, hroom⟩

/-- A program holds one grant while a stream that it opened before owns the other one. Closing all
streams leaves its own. -/
theorem buffers_owned_once_onePage :
    ∃ c, Reachable ⟨1, 2⟩ { arena := .ofBase 0 1 } Entitled c ∧ c.held = [⟨1, 32772, 32764⟩] ∧
      (c.system.streams.get .first).storage = .owned ⟨0, 4, 32764⟩ ∧
      ⟨0, 4, 32764⟩ ∈ c.system.heap.liveAllocations ∧ (c.system.close .first).1 = .ok () ∧
      (c.system.closeEach [.first, .stdin, .stdout, .stderr]).heap.liveCount = 1 := by
  obtain ⟨heap, arena, hopened, hroom⟩ :=
    @openStream_first { arena := .ofBase 0 1 } rfl Heap.size_onePage
  have hsystem := system_openStream (congrArg (·.2) hopened)
  have hr := (Reachable.start (.ofBase 0 1) : Reachable ⟨1, 2⟩ { arena := .ofBase 0 1 } Entitled
    _).call (.openStream "a" "rb") trivial
  have hnone : ((start ⟨1, 2⟩ { arena := .ofBase 0 1 }).perform (.openStream "a" "rb")).held = [] :=
    rfl
  generalize (start ⟨1, 2⟩ { arena := .ofBase 0 1 }).perform (.openStream "a" "rb") = c at *
  obtain ⟨-, howned, -, hclose, -, hclosed⟩ :=
    buffers_owned_once (hr.call (.heap (.allocate 3)) trivial)
  have hheld : (c.perform (.heap (.allocate 3))).held = [⟨1, 32772, 32764⟩] := by
    have hgrant : (c.system.heap.perform c.system.host.arena (.allocate 3)).1 =
        .ok (some ⟨1, 32772, 32764⟩) := by
      rw [hsystem]
      exact congrArg (Except.map some) (hroom _)
    rw [held_heap, hgrant, hnone]
    rfl
  have hstreams : (c.perform (.heap (.allocate 3))).system.streams = StreamTable.initial.set .first
      (.opening 1 ⟨0, 4, 32764⟩ "a") := by
    rw [streams_heap, hsystem]
  have hstorage : ((c.perform (.heap (.allocate 3))).system.streams.get .first).storage =
      .owned ⟨0, 4, 32764⟩ := by
    rw [hstreams, StreamTable.get_set_self]
    rfl
  have hopen : ∀ i, ((StreamTable.initial.set .first (.opening 1 ⟨0, 4, 32764⟩ "a")).get
      i).isOpen = true → i ∈ [StreamId.first, .stdin, .stdout, .stderr] := by decide
  refine ⟨_, hr.call (.heap (.allocate 3)) trivial, hheld, hstorage, (howned _ _ hstorage).1, ?_,
    ?_⟩
  · exact (hclose .first (by rw [hstreams]; rfl)).1
  · rw [hclosed _ (by rwa [hstreams]), hheld]
    rfl

end Client
end GuestLibrary
