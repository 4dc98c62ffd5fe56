import GuestLibrary.Guest.Program
import GuestLibrary.Proofs.Stream.Effects

/-! Output is neither lost, repeated nor reordered. Along every run of a program that leaves alone
what it lends, the books of every stream balance after each call. -/
namespace GuestLibrary

open Account StreamSystem

namespace StreamSystem

variable {sys : StreamSystem} {id : StreamId}

/-- Writing to a stream that is not writable emits nothing, and fails unless there is nothing to
write. -/
theorem write_of_readonly (hw : (sys.streams.get id).writable = false) (block : Bytes) : ∃ r s,
    sys.write id block = (r, ⟨sys.streams.set id s, sys.heap, sys.host⟩) ∧
      (sys.streams.get id).Serves sys.host s sys.host ∧ ∀ n, r = .ok n → block = [] := by
  cases hopen : (sys.streams.get id).isOpen with
  | true =>
    have hs := Stream.write_serves (sys.streams.get id) sys.host id block
    obtain ⟨hhost, herr⟩ := Stream.write_of_readonly id block hw (h := sys.host)
    rw [hhost] at hs
    refine ⟨((sys.streams.get id).write sys.host id block).1, _, ?_, hs, fun n hn => ?_⟩
    · unfold StreamSystem.write
      rw [onOpen_of_open hopen, hhost]
    · by_contra hne
      obtain ⟨e, he⟩ := herr hne
      rw [he] at hn
      cases hn
  | false =>
    refine ⟨.error (.misuse (.streamNotOpen id)), sys.streams.get id, ?_, .refl _ _,
      fun n hn => by cases hn⟩
    rw [StreamTable.set_get]
    exact onOpen_of_closed hopen

theorem writePieces_of_readonly (hw : (sys.streams.get id).writable = false)
    (pieces : List Bytes) :
    ∃ r s, writePieces id pieces sys = (r, ⟨sys.streams.set id s, sys.heap, sys.host⟩) ∧
      (sys.streams.get id).Serves sys.host s sys.host ∧ ∀ n, r = .ok n → pieces.flatten = [] := by
  induction pieces generalizing sys with
  | nil =>
    refine ⟨.ok 0, sys.streams.get id, ?_, .refl _ _, fun _ _ => rfl⟩
    rw [StreamTable.set_get]
    rfl
  | cons piece rest ih =>
    obtain ⟨r, s, hwrite, hs, hempty⟩ := write_of_readonly hw piece
    unfold writePieces
    rw [hwrite]
    cases r with
    | error e => exact ⟨_, s, rfl, hs, fun n hn => by cases hn⟩
    | ok n =>
      have hw' : ((sys.streams.set id s).get id).writable = false := by
        rw [StreamTable.get_set_self, hs.writable_eq, hw]
      obtain ⟨r', s', hrest, hs', hempty'⟩ := @ih ⟨sys.streams.set id s, sys.heap, sys.host⟩ hw'
      rw [StreamTable.get_set_self] at hs'
      rw [StreamTable.set_set] at hrest
      dsimp only
      rw [hrest]
      cases r' with
      | error e => exact ⟨_, s', rfl, hs.trans hs', fun n hn => by cases hn⟩
      | ok m =>
        refine ⟨_, s', rfl, hs.trans hs', fun _ _ => ?_⟩
        rw [List.flatten_cons, hempty n rfl, hempty' m rfl]
        rfl

end StreamSystem

namespace Orderly

variable {sys : StreamSystem} {held : List Allocation} {id : StreamId}

/-- Writing to an open stream that is writable succeeds. -/
theorem write_of_writable (ho : Orderly sys held) (hw : (sys.streams.get id).writable = true)
    (block : Bytes) : ∃ s host, ∃ chunks : List Bytes,
      sys.write id block = (.ok block.length, ⟨sys.streams.set id s, sys.heap, host⟩) ∧
      (sys.streams.get id).Emits sys.host s host chunks block := by
  have hopen : (sys.streams.get id).isOpen = true := by
    simp [Stream.isOpen, (ho.fits id).ready hw]
  obtain ⟨chunks, s, host, he, hemits⟩ :=
    Stream.write_emits id block (ho.fits id) hw (ho.covered id)
  refine ⟨s, host, chunks, ?_, hemits⟩
  unfold StreamSystem.write
  rw [onOpen_of_open hopen, he]

theorem writePieces_of_writable (ho : Orderly sys held)
    (hw : (sys.streams.get id).writable = true) (pieces : List Bytes) :
    ∃ n s host, ∃ chunks : List Bytes,
      writePieces id pieces sys = (.ok n, ⟨sys.streams.set id s, sys.heap, host⟩) ∧
      (sys.streams.get id).Emits sys.host s host chunks pieces.flatten := by
  induction pieces generalizing sys with
  | nil =>
    refine ⟨0, sys.streams.get id, sys.host, [], ?_, .refl (ho.fits id) _⟩
    rw [StreamTable.set_get]
    rfl
  | cons piece rest ih =>
    obtain ⟨s, host, chunks, hwrite, he⟩ := ho.write_of_writable hw piece
    have hw' : ((sys.streams.set id s).get id).writable = true := by
      rw [StreamTable.get_set_self, he.serves.writable_eq, hw]
    obtain ⟨n, s', host', chunks', hrest, he'⟩ := ih (ho.emits he) hw'
    rw [StreamTable.get_set_self] at he'
    rw [StreamTable.set_set] at hrest
    refine ⟨piece.length + n, s', host', chunks ++ chunks', ?_, he.trans he'⟩
    unfold writePieces
    rw [hwrite]
    dsimp only
    rw [hrest]

/-- The books after a write that succeeded. -/
theorem writing_ok {α : Type} {n : α} {s : Stream} {host : Host} {chunks : List Bytes}
    {bytes : Bytes} {outcome : Outcome α} (ho : Orderly sys held)
    (hw : outcome = (.ok n, ⟨sys.streams.set id s, sys.heap, host⟩))
    (he : (sys.streams.get id).Emits sys.host s host chunks bytes) :
    Orderly outcome.2 held ∧ Effect sys outcome.2 (sys.writing id bytes outcome) := by
  rw [hw]
  exact ⟨ho.emits he, (ho.effect_accepted he).writing_ok⟩

/-- The books after a write to a stream that is not writable. -/
theorem writing_readonly {α : Type} {r : Except StreamError α} {s : Stream} {bytes : Bytes}
    {outcome : Outcome α} (ho : Orderly sys held) (hw : (sys.streams.get id).writable = false)
    (hr : outcome = (r, ⟨sys.streams.set id s, sys.heap, sys.host⟩))
    (hs : (sys.streams.get id).Serves sys.host s sys.host)
    (hempty : ∀ n, r = .ok n → bytes = []) :
    Orderly outcome.2 held ∧ Effect sys outcome.2 (sys.writing id bytes outcome) := by
  have he := Stream.Emits.of_readonly (ho.fits id) hs hw rfl
  rw [hr]
  refine ⟨ho.emits he, ?_⟩
  cases r with
  | error e => exact (ho.effect_emitted he).writing_error
  | ok n =>
    rw [hempty n rfl]
    exact (ho.effect_accepted he).writing_ok

theorem write (ho : Orderly sys held) (id : StreamId) (block : Bytes) :
    Orderly (sys.write id block).2 held ∧
      Effect sys (sys.write id block).2 (sys.writing id block (sys.write id block)) := by
  cases hw : (sys.streams.get id).writable with
  | true =>
    obtain ⟨s, host, chunks, hwrite, he⟩ := ho.write_of_writable hw block
    exact ho.writing_ok hwrite he
  | false =>
    obtain ⟨r, s, hwrite, hs, hempty⟩ := write_of_readonly hw block
    exact ho.writing_readonly hw hwrite hs hempty

theorem writePieces (ho : Orderly sys held) (id : StreamId) (pieces : List Bytes) :
    Orderly (StreamSystem.writePieces id pieces sys).2 held ∧
      Effect sys (StreamSystem.writePieces id pieces sys).2
        (sys.writing id pieces.flatten (StreamSystem.writePieces id pieces sys)) := by
  cases hw : (sys.streams.get id).writable with
  | true =>
    obtain ⟨n, s, host, chunks, hwrite, he⟩ := ho.writePieces_of_writable hw pieces
    exact ho.writing_ok hwrite he
  | false =>
    obtain ⟨r, s, hwrite, hs, hempty⟩ := writePieces_of_readonly hw pieces
    exact ho.writing_readonly hw hwrite hs hempty

theorem writeByte (ho : Orderly sys held) (id : StreamId) (b : UInt8) :
    Orderly (sys.writeByte id b).2 held ∧
      Effect sys (sys.writeByte id b).2 (sys.writing id [b] (sys.writeByte id b)) := by
  cases hopen : (sys.streams.get id).isOpen with
  | true =>
    have hwrite : sys.writeByte id b =
        (((sys.streams.get id).writeByte sys.host id b).1,
          ⟨sys.streams.set id ((sys.streams.get id).writeByte sys.host id b).2.1, sys.heap,
            ((sys.streams.get id).writeByte sys.host id b).2.2⟩) := onOpen_of_open hopen
    cases hw : (sys.streams.get id).writable with
    | true =>
      obtain ⟨chunks, s, host, he, hemits⟩ :=
        Stream.writeByte_emits (ho.fits id) hw (ho.covered id) id b
      rw [he] at hwrite
      exact ho.writing_ok hwrite hemits
    | false =>
      have hs := Stream.writeByte_serves (sys.streams.get id) sys.host id b
      have hb : (sys.streams.get id).writeByte sys.host id b =
          (.error (.misuse (.writeToReadOnly id)),
            { sys.streams.get id with error := true }, sys.host) := by
        unfold Stream.writeByte
        rw [if_pos (by simp [hw])]
      rw [hb] at hwrite hs
      exact ho.writing_readonly hw hwrite hs fun n hn => by cases hn
  | false =>
    have hclosed : sys.writeByte id b = (.error (.misuse (.streamNotOpen id)), sys) :=
      onOpen_of_closed hopen
    rw [hclosed]
    exact ⟨ho, (Effect.refl sys).writing_error⟩

/-- What is not given back is still held after a heap call. -/
theorem mem_heldAfter (ho : Orderly sys held) {may : Allocation → Prop}
    (hmay : ∀ g, may g → g ∈ held) {r : Heap.Request} (he : r.Entitled may) {g : Allocation}
    (hg : g ∈ held) (hkept : ¬ may g) (result : Except AllocError (Option Allocation)) :
    g ∈ r.heldAfter held result := by
  have hleft : g ∈ r.left held := by
    have herase : ∀ g', may g' → g ∈ held.erase g' := fun g' hg' =>
      (List.mem_erase_of_ne (by rintro rfl; exact hkept hg')).mpr hg
    cases r with
    | allocate | allocateZeroed => exact hg
    | reallocate current size =>
      cases current with
      | none => exact hg
      | some current => exact herase current he
    | release grant => exact herase grant he
    | releaseAddress address =>
      refine List.mem_filter.mpr ⟨hg, ?_⟩
      have hbound := (Heap.bounds_of_live ho.sound (ho.mem_live_of_held hg)).1
      rw [decide_eq_true_eq]
      rintro rfl
      rcases he with hz | ⟨g', hg', haddress⟩
      · rw [hz] at hbound
        exact absurd hbound (by decide)
      · have hgg := Heap.eq_of_address_eq ho.sound (ho.mem_live_of_held (hmay g' hg'))
          (ho.mem_live_of_held hg) haddress
        rw [hgg] at hg'
        exact hkept hg'
  cases result with
  | error e => exact hg
  | ok grant => exact List.mem_append_right _ hleft

theorem entitled_mono {may may' : Allocation → Prop} (h : ∀ g, may g → may' g)
    {r : Heap.Request} (he : r.Entitled may) : r.Entitled may' := by
  cases r with
  | allocate | allocateZeroed => trivial
  | reallocate current size =>
    cases current with
    | none => trivial
    | some current => exact h current he
  | release grant => exact h grant he
  | releaseAddress address => exact he.imp_right fun ⟨g, hg, ha⟩ => ⟨g, h g hg, ha⟩

/-- A heap call of a program that gives back only what it holds and does not lend. -/
theorem request (ho : Orderly sys held) {r : Heap.Request}
    (he : r.Entitled fun g => g ∈ held ∧ ∀ i, (sys.streams.get i).storage ≠ .borrowed g) :
    Orderly (sys.request r).2 (r.heldAfter held (sys.request r).1) ∧
      Effect sys (sys.request r).2 [] := by
  have hl := ho.toLedger.request r (entitled_mono (fun g hg => hg.1) he)
  have ho' : Orderly (sys.request r).2 (r.heldAfter held (sys.request r).1) :=
    ⟨hl, fun i g hg => ho.mem_heldAfter (fun g hg => hg.1) he (ho.lent_held i g hg)
      (fun hmay => hmay.2 i hg) _, ho.lent_once, ho.fits⟩
  refine ⟨ho', .of_waiting rfl fun i => ho.waiting_eq ho' rfl fun g hg k hlo hhi => ?_⟩
  refine ho.request_bytes (fun g hg => hg.1) he (ho.live_of_grant hg) (fun hmay => ?_) hlo hhi
  rcases BufferStorage.grant?_eq_some.mp hg with hg | hg
  · exact (List.nodup_append.mp ho.nodup).2.2 g hmay.1 g (StreamTable.mem_owned.mpr ⟨i, hg⟩) rfl
  · exact hmay.2 i hg

/-- The host may do what leaves console and buffers alone. -/
theorem onHost (ho : Orderly sys held) (f : Host → Host)
    (hb : (f sys.host).arena.heapBase = sys.host.arena.heapBase)
    (hs : (f sys.host).arena.memory.size = sys.host.arena.memory.size)
    (hc : (f sys.host).console = sys.host.console)
    (hbytes : ∀ i g, (sys.streams.get i).storage.grant? = some g → ∀ k, g.address ≤ k →
      k < g.address + g.length →
        (f sys.host).arena.memory.get? k = sys.host.arena.memory.get? k) :
    Orderly (sys.onHost f) held ∧ Effect sys (sys.onHost f) [] := by
  have ho' : Orderly (sys.onHost f) held :=
    ⟨ho.toLedger.of_host hb hs, ho.lent_held, ho.lent_once, ho.fits⟩
  exact ⟨ho', .of_waiting hc fun i => ho.waiting_eq ho' rfl (hbytes i)⟩

/-- Whatever a careful program calls, the books of every stream stay balanced. -/
theorem perform {c : Client} (ho : Orderly c.system c.held) {call : Call} (hc : c.Careful call) :
    Orderly (c.perform call).system (c.perform call).held ∧
      Effect c.system (c.perform call).system (c.system.events call) := by
  cases call with
  | heap r =>
    refine ho.request (entitled_mono (fun g hg => ⟨hg.1, fun i hi => hg.2 ⟨i, hi⟩⟩) hc)
  | poke address block =>
    refine ho.onHost (fun h => { h with arena := h.arena.write address block }) rfl (by simp) rfl
      fun i g hg k hlo hhi => ?_
    rw [Arena.memory_write]
    have hout := hc i g hg
    exact LinearMemory.get?_write_of_outside (by omega)
  | addResource name content =>
    have harena := c.system.host.arena_addResource name content
    exact ho.onHost (·.addResource name content) (by rw [harena]) (by rw [harena])
      (c.system.host.console_addResource name content) fun _ _ _ _ _ _ => by rw [harena]
  | completeFetches => exact ho.onHost (·.release) rfl rfl rfl fun _ _ _ _ _ _ => rfl
  | openStream name mode => exact ho.openStream name mode
  | reopen id name mode =>
    obtain ⟨ho', chunks, he⟩ := ho.reopen id name mode
    exact ⟨ho', he.emissions⟩
  | close id =>
    obtain ⟨ho', ⟨chunks, he⟩, -⟩ := ho.close id
    exact ⟨ho', he.emissions⟩
  | poll =>
    simp only [Client.perform, serve, Client.heldAfter, events, StreamSystem.poll]
    exact ho.foldl_pollSlot {} _
  | setBufferMode id mode size => exact ho.setBufferMode id mode size
  | setUserBuffer id grant mode => exact ho.setUserBuffer id grant mode hc.1 hc.2
  | readByte id =>
    exact ho.onOpen_quiet id fun s h hf => Stream.readByte_emits hf h h.arena.memory
  | readLine id buf =>
    change Orderly (c.system.readLine id buf).2.2 c.held ∧
      Effect c.system (c.system.readLine id buf).2.2 []
    unfold StreamSystem.readLine
    split
    · exact ⟨ho, .refl _⟩
    · exact ho.readInto_quiet id buf fun s h m hf => Stream.readLine_emits hf h m buf
  | read id buf =>
    change Orderly (c.system.read id buf).2.2 c.held ∧
      Effect c.system (c.system.read id buf).2.2 []
    unfold StreamSystem.read
    split
    · exact ⟨ho, .refl _⟩
    · exact ho.readInto_quiet id buf fun s h m hf => Stream.read_emits hf h m buf
  | pushBack id b => exact ho.onOpen_quiet id fun s h hf => Stream.pushBack_emits hf h id b
  | writeByte id b => exact ho.writeByte id b
  | write id block => exact ho.write id block
  | writePieces id pieces => exact ho.writePieces id pieces
  | flush id =>
    obtain ⟨ho', ⟨chunks, he⟩, -⟩ := ho.flush id
    exact ⟨ho', he.emissions⟩
  | flushAll =>
    obtain ⟨ho', he, -⟩ := ho.foldl_flushSlot (List.finRange streamSlots)
    simp only [Client.perform, serve, Client.heldAfter, events, StreamSystem.flushAll]
    exact ⟨ho', he⟩
  | seek id offset whence =>
    exact ho.onOpen_quiet id fun s h hf => Stream.seek_emits hf h id offset whence
  | tell id => exact ho.onOpen_quiet id fun s h hf => .refl hf h
  | rewind id => exact ho.onOpen_quiet id fun s h hf => Stream.rewind_emits hf h id
  | clearError id => exact ho.onOpen_quiet id fun s h hf => .flags hf h false false

end Orderly

namespace Guest

theorem system_runHandlers (g : Guest) (handlers : List ExitHandler) :
    (g.runHandlers handlers).system =
      g.system.onHost fun h =>
        { h with console := handlers.foldl (fun con f => f con) h.console } := rfl

theorem system_exit (g : Guest) (status : Int) :
    (g.exit status).2.system = (g.runHandlers g.exitHandlers.take.1).system.flushAll := by
  simp only [exit, fflush, onSystem, runHandlers, onHost]

end Guest

namespace StreamSystem

theorem chunk?_emissions {sys sys' : StreamSystem} {id : StreamId} :
    ∀ e ∈ sys.emissions id sys', e.chunk?.isSome := by
  intro e he
  obtain ⟨chunk, -, rfl⟩ := List.mem_map.mp he
  rfl

theorem chunk?_flushing {sys : StreamSystem} {ids : List StreamId} :
    ∀ e ∈ sys.flushing ids, e.chunk?.isSome := by
  induction ids generalizing sys with
  | nil => exact fun e he => absurd he List.not_mem_nil
  | cons id rest ih =>
    intro e he
    rcases List.mem_append.mp he with he | he
    · exact chunk?_emissions e he
    · exact ih e he

end StreamSystem

namespace Client

variable {limits : HeapLimits} {host : Host} {c : Client}

theorem get_initial (id : StreamId) :
    StreamTable.initial.get id = .standardOutput "stderr" .none ∨
      StreamTable.initial.get id = .standardOutput "stdout" .line ∨
      (StreamTable.initial.get id).writable = false ∧
        (StreamTable.initial.get id).reserved = none := by
  have hinitial : StreamTable.initial = (((⟨Vector.replicate streamSlots {}⟩ : StreamTable).set
      .stdin .standardInput).set .stdout (.standardOutput "stdout" .line)).set
        .stderr (.standardOutput "stderr" .none) := rfl
  rw [hinitial, StreamTable.get_set, StreamTable.get_set, StreamTable.get_set]
  split
  · exact Or.inl rfl
  split
  · exact Or.inr (Or.inl rfl)
  refine Or.inr (Or.inr ?_)
  split
  · exact ⟨rfl, rfl⟩
  · simp [StreamTable.get]

theorem fits_standardOutput (name : String) (mode : BufferMode) :
    (Stream.standardOutput name mode).Fits where
  reserved_pos r hr := by
    obtain rfl := Option.some.inj hr
    rw [List.length_replicate]
    decide
  exclusive _ := rfl
  ready _ := rfl
  cursor_le _ := Nat.zero_le _
  capacity_le _ := by simp [Stream.standardOutput, Stream.room]
  bare _ _ := rfl

theorem fits_initial (id : StreamId) : (StreamTable.initial.get id).Fits := by
  rcases get_initial id with h | h | ⟨hw, hr⟩
  · rw [h]
    exact fits_standardOutput _ _
  · rw [h]
    exact fits_standardOutput _ _
  · exact .of_readonly hw (by simp [hr])

theorem get_initial_ne_borrowed (id : StreamId) (g : Allocation) :
    (StreamTable.initial.get id).storage ≠ .borrowed g := by
  have h : ∀ id, (StreamTable.initial.get id).storage.grant? = none := by decide
  intro hg
  have hnone := h id
  rw [hg] at hnone
  cases hnone

/-- A careful program keeps its streams orderly and their books balanced. -/
theorem Reachable.orderly (hr : Reachable limits host Careful c) :
    Orderly c.system c.held ∧ Effect (Client.start limits host).system c.system c.trace := by
  induction hr with
  | start ha =>
    refine ⟨⟨ledger_start ha, ?_, ?_, fits_initial⟩, .refl _⟩
    · exact fun i g hg => absurd hg (get_initial_ne_borrowed i g)
    · exact fun i j g hg => absurd hg (get_initial_ne_borrowed i g)
  | call call _ hc ih =>
    obtain ⟨ho, he⟩ := ih.1.perform hc
    exact ⟨ho, ih.2.trans he⟩

theorem waiting_start (id : StreamId) : (start limits host).system.waiting id = [] := by
  have h : ∀ id, (StreamTable.initial.get id).cursor = 0 := by decide
  exact Stream.waiting_of_cursor (h id)

theorem Reachable.balanced (hr : Reachable limits host Careful c) (id : StreamId) :
    Balanced id c.trace (c.system.waiting id) := by
  refine hr.orderly.2.balanced id [] ?_
  rw [waiting_start]
  exact ⟨rfl, rfl⟩

theorem events_of_rebuffers {id : StreamId} {call : Call} (hb : call.Rebuffers id)
    (hopen : (c.system.streams.get id).isOpen = true) :
    c.system.events call = [.discarded id (c.system.waiting id)] := by
  cases call with
  | setBufferMode i | setUserBuffer i =>
    obtain rfl : i = id := hb
    exact if_pos hopen
  | _ => exact hb.elim

/-- A change of buffers loses what waits in one stream and nothing else. -/
theorem Reachable.rebuffered (hr : Reachable limits host Careful c) {id : StreamId} {call : Call}
    (hb : call.Rebuffers id) (hc : c.Careful call)
    (hopen : (c.system.streams.get id).isOpen = true) :
    (c.perform call).system.host.console.chunks = c.system.host.console.chunks ∧
    (c.perform call).system.waiting id = [] ∧
    (ofTrace id c.trace).kept = (ofTrace id (c.perform call).trace).kept ++ c.system.waiting id ∧
    ∀ i ≠ id, (c.perform call).system.waiting i = c.system.waiting i := by
  have he := (hr.orderly.1.perform hc).2
  have hbefore := hr.balanced id
  have hafter := he.balanced id _ hbefore
  have htrace : (c.perform call).trace = c.trace ++ [.discarded id (c.system.waiting id)] := by
    rw [← events_of_rebuffers hb hopen]
    rfl
  rw [events_of_rebuffers hb hopen] at he hafter
  have hbooks := ofTrace_discarded id c.trace (c.system.waiting id)
  refine ⟨?_, ?_, ?_, fun i hi => he.waiting_eq (by simp [StreamEvent.id, hi.symm])⟩
  · rw [← Array.toList_inj, he.console_eq]
    exact List.append_nil _
  · have hrecent := hafter.recent
    rw [hbooks] at hrecent
    exact hrecent
  · rw [htrace, hbooks, ← hbefore.total]
    simp

/-- What waits is the gap between the output of a stream and what it accepted. -/
theorem drained_of_balanced {id : StreamId} {sys : StreamSystem} {events : List StreamEvent}
    (hw : sys.waiting id = []) (hb : Balanced id (c.trace ++ events) (sys.waiting id))
    (he : ∀ e ∈ events, e.chunk?.isSome) : c.Drained id sys events := by
  have ht := hb.total
  rw [hw, List.append_nil, kept_ofTrace_append he] at ht
  exact ⟨hw, ht⟩

theorem Reachable.drained (hr : Reachable limits host Careful c) {id : StreamId} {call : Call}
    (hf : call.Flushes id) : c.Drained id (c.system.serve call) (c.system.events call) := by
  have ho := hr.orderly.1
  have hbalanced : ∀ call, c.Careful call →
      Balanced id (c.trace ++ c.system.events call) ((c.system.serve call).waiting id) :=
    fun _ hc => (ho.perform hc).2.balanced id _ (hr.balanced id)
  cases call with
  | flush i =>
    obtain rfl : i = id := hf
    exact drained_of_balanced (ho.flush i).2.2 (hbalanced (.flush i) trivial) chunk?_emissions
  | close i =>
    obtain rfl : i = id := hf
    exact drained_of_balanced (ho.close i).2.2 (hbalanced (.close i) trivial) chunk?_emissions
  | flushAll =>
    have hw := (ho.foldl_flushSlot (List.finRange streamSlots)).2.2 id
      (Or.inl (List.mem_finRange id))
    exact drained_of_balanced hw (hbalanced .flushAll trivial) chunk?_flushing
  | _ => exact hf.elim

/-- The end of a program flushes what waits, after its handlers have run. -/
theorem Reachable.drained_of_exit (hr : Reachable limits host Careful c) {g : Guest}
    (hg : g.system = c.system) (status : Int) :
    ∃ events, (g.exit status).2.host.console.chunks.toList =
        (g.runHandlers g.exitHandlers.take.1).host.console.chunks.toList ++
          StreamEvent.chunks events ∧
      [] ∉ StreamEvent.chunks events ∧ ∀ id, c.Drained id (g.exit status).2.system events := by
  unfold Guest.host
  let console := g.exitHandlers.take.1.foldl (fun con f => f con) c.system.host.console
  let sys := c.system.onHost fun h => { h with console }
  have hsys : (g.runHandlers g.exitHandlers.take.1).system = sys := by
    rw [Guest.system_runHandlers, hg]
    rfl
  have ho : Orderly sys c.held :=
    have ho := hr.orderly.1
    ⟨ho.toLedger.of_host rfl rfl, ho.lent_held, ho.lent_once, ho.fits⟩
  obtain ⟨-, he, hw⟩ := ho.foldl_flushSlot (List.finRange streamSlots)
  rw [Guest.system_exit, hsys]
  unfold StreamSystem.flushAll
  refine ⟨sys.flushing (List.finRange streamSlots), he.console_eq, he.nonempty, fun id => ?_⟩
  have hnone := hw id (Or.inl (List.mem_finRange id))
  exact drained_of_balanced hnone (he.balanced id _ (hr.balanced id)) chunk?_flushing

/-- Along every run of a program that lends a grant to one stream at a time and leaves it alone
meanwhile, the console takes the chunks of the streams, none of them empty, and what a stream
emitted, followed by what waits in it, is what it accepted. A change of buffers discards exactly
what waits. Hence all that was kept is out after a flush, a close or the end of the program. -/
theorem output_accounted (hr : Reachable limits host Careful c) :
    c.system.host.console.chunks.toList =
      host.console.chunks.toList ++ StreamEvent.chunks c.trace ∧
    [] ∉ StreamEvent.chunks c.trace ∧
    (∀ id,
      (ofTrace id c.trace).emitted.flatten ++ c.system.waiting id =
        (ofTrace id c.trace).accepted ∧
      (ofTrace id c.trace).output ++ c.system.waiting id = (ofTrace id c.trace).kept) ∧
    (∀ id call, call.Rebuffers id → c.Careful call → (c.system.streams.get id).isOpen = true →
      (c.perform call).system.host.console.chunks = c.system.host.console.chunks ∧
      (c.perform call).system.waiting id = [] ∧
      (ofTrace id c.trace).kept =
        (ofTrace id (c.perform call).trace).kept ++ c.system.waiting id ∧
      ∀ i ≠ id, (c.perform call).system.waiting i = c.system.waiting i) ∧
    (∀ id call, call.Flushes id →
      c.Drained id (c.system.serve call) (c.system.events call)) ∧
    ∀ (g : Guest) (status : Int), g.system = c.system →
      ∃ events, (g.exit status).2.host.console.chunks.toList =
          (g.runHandlers g.exitHandlers.take.1).host.console.chunks.toList ++
            StreamEvent.chunks events ∧
        [] ∉ StreamEvent.chunks events ∧
        ∀ id, c.Drained id (g.exit status).2.system events := by
  have he := hr.orderly.2
  refine ⟨he.console_eq, he.nonempty, fun id => ?_, fun id call hb hc hopen => ?_,
    fun id call hf => hr.drained hf, fun g status hg => hr.drained_of_exit hg status⟩
  · exact ⟨(hr.balanced id).recent, (hr.balanced id).total⟩
  · exact hr.rebuffered hb hc hopen

theorem output_accounted_flush :
    ∃ c, Reachable ⟨1, 1⟩ { arena := .ofBase 0 1 } Careful c ∧
      (ofTrace .stdout c.trace).kept = [65] ∧
      (ofTrace .stdout (c.perform (.flush .stdout)).trace).output = [65] := by
  let host : Host := { arena := .ofBase 0 1 }
  have hstart : Reachable ⟨1, 1⟩ host Careful (start ⟨1, 1⟩ host) := .start (.ofBase 0 1)
  have hr := hstart.call (.write .stdout [65]) trivial
  have hkept : (ofTrace .stdout
      ((start ⟨1, 1⟩ host).perform (.write .stdout [65])).trace).kept = [65] := by decide +kernel
  obtain ⟨-, -, -, -, hflush, -⟩ := output_accounted hr
  exact ⟨_, hr, hkept, (hflush .stdout (.flush .stdout) rfl).output_eq.trans hkept⟩

end Client
end GuestLibrary
