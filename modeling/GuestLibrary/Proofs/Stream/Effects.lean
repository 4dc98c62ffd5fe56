import GuestLibrary.Proofs.Stream.Books

/-! The effect of each stream operation on the books: flushing and closing emit what waits, a new
buffer discards it, and opening, polling and reading leave it alone. -/
namespace GuestLibrary

open Account StreamSystem

namespace Effect

variable {sys sys' : StreamSystem} {id : StreamId} {chunks : List Bytes} {bytes : Bytes}

/-- What waits in a slot that the events do not concern stays as it is. -/
theorem waiting_eq {events : List StreamEvent} (he : Effect sys sys' events)
    (h : ∀ e ∈ events, e.id ≠ id) : sys'.waiting id = sys.waiting id := by
  have hb : Balanced id [.accepted id (sys.waiting id)] (sys.waiting id) :=
    ⟨by simp [ofTrace, enter], by simp [ofTrace, enter]⟩
  have hb' := (he.balanced id _ hb).recent
  rw [ofTrace_append_of_ne h, ← hb.recent] at hb'
  exact List.append_cancel_left hb'

theorem emissions (he : Effect sys sys' (chunks.map (.emitted id))) :
    Effect sys sys' (sys.emissions id sys') := by
  unfold StreamSystem.emissions
  rw [he.chunksSince_eq, StreamEvent.chunks_emitted]
  exact he

theorem writing_ok {α : Type} {a : α}
    (he : Effect sys sys' (chunks.map (.emitted id) ++ [.accepted id bytes])) :
    Effect sys sys' (sys.writing id bytes (.ok a, sys')) := by
  unfold StreamSystem.writing StreamSystem.emissions
  rw [he.chunksSince_eq, StreamEvent.chunks_append, StreamEvent.chunks_emitted,
    StreamEvent.chunks_accepted, List.append_nil]
  exact he

theorem writing_error {α : Type} {e : StreamError} (he : Effect sys sys' []) :
    Effect sys sys' (sys.writing id bytes ((.error e, sys') : Outcome α)) := by
  unfold StreamSystem.writing StreamSystem.emissions
  rw [he.chunksSince_eq]
  exact he

end Effect

namespace Orderly

variable {sys : StreamSystem} {held : List Allocation} {id : StreamId} {g : Allocation} {s : Stream}
  {heap : Heap} {host : Host} {chunks : List Bytes} {bytes : Bytes}

/-- The buffers of other slots keep their bytes where the host is quiet. -/
theorem bytes_of_quiet (ho : Orderly sys held)
    (hq : sys.host.Quiet (held ++ sys.streams.ownedElsewhere id) host) (i : StreamId) (hi : i ≠ id)
    (g : Allocation) (hg : (sys.streams.get i).storage.grant? = some g) (k : Nat)
    (hlo : g.address ≤ k) (hhi : k < g.address + g.length) :
    host.arena.memory.get? k = sys.host.arena.memory.get? k :=
  hq.get?_eq g (ho.mem_held_or_owned hi hg) k hlo hhi

theorem quiet_of_live (ho : Orderly sys held) (id : StreamId)
    (hq : sys.host.Quiet sys.heap.liveAllocations host) :
    sys.host.Quiet (held ++ sys.streams.ownedElsewhere id) host where
  console_eq := hq.console_eq
  get?_eq g hg := by
    refine hq.get?_eq g (ho.perm.mem_iff.mpr ?_)
    rw [List.mem_append, (sys.streams.owned_perm id).mem_iff]
    rcases List.mem_append.mp hg with hg | hg
    · exact Or.inl hg
    · exact Or.inr (List.mem_append_right _ hg)

/-- What a slot borrows it may go on borrowing. -/
theorem lent_of_same (ho : Orderly sys held) (hs : s.storage = (sys.streams.get id).storage)
    (g : Allocation) (hg : s.storage = .borrowed g) :
    g ∈ held ∧ ∀ i ≠ id, (sys.streams.get i).storage ≠ .borrowed g := by
  rw [hs] at hg
  exact ⟨ho.lent_held id g hg, fun i hi hg' => hi (ho.lent_once i id g hg' hg)⟩

/-- Another stream in a slot where nothing waited or waits. -/
theorem replace (ho : Orderly sys held) (hl : Ledger ⟨sys.streams.set id s, heap, host⟩ held)
    (hq : sys.host.Quiet (held ++ sys.streams.ownedElsewhere id) host) (hf : s.Fits)
    (hb : ∀ g, s.storage = .borrowed g → g ∈ held ∧
      ∀ i ≠ id, (sys.streams.get i).storage ≠ .borrowed g) (hw : sys.waiting id = [])
    (hw' : s.waiting host.arena.memory = []) :
    Orderly ⟨sys.streams.set id s, heap, host⟩ held ∧
      Effect sys ⟨sys.streams.set id s, heap, host⟩ [] := by
  have ho' := ho.change hl hf hb
  refine ⟨ho', ho.effect ho' (ho.bytes_of_quiet hq) (by simp) ?_ List.not_mem_nil fun t hbal => ?_⟩
  · simp [hq.console_eq, StreamEvent.chunks]
  · rw [List.append_nil, hw', ← hw]
    exact hbal

/-- A new buffer for a slot, in which nothing waits. -/
theorem rebuffer (ho : Orderly sys held) (hl : Ledger ⟨sys.streams.set id s, heap, host⟩ held)
    (hq : sys.host.Quiet (held ++ sys.streams.ownedElsewhere id) host) (hf : s.Fits)
    (hb : ∀ g, s.storage = .borrowed g → g ∈ held ∧
      ∀ i ≠ id, (sys.streams.get i).storage ≠ .borrowed g) (hc : s.cursor = 0) :
    Orderly ⟨sys.streams.set id s, heap, host⟩ held ∧
      Effect sys ⟨sys.streams.set id s, heap, host⟩ [.discarded id (sys.waiting id)] := by
  have ho' := ho.change hl hf hb
  refine ⟨ho', ho.effect ho' (ho.bytes_of_quiet hq) (by simp [StreamEvent.id]) ?_
    List.not_mem_nil fun t hbal => ?_⟩
  · simp [hq.console_eq]
  · rw [Stream.waiting_of_cursor hc]
    exact hbal.discards

/-- An operation of one stream leaves the buffers of the others alone. -/
theorem bytes_of_serves (ho : Orderly sys held)
    (hs : (sys.streams.get id).Serves sys.host s host) (i : StreamId) (hi : i ≠ id)
    (g : Allocation) (hg : (sys.streams.get i).storage.grant? = some g) (k : Nat)
    (hlo : g.address ≤ k) (hhi : k < g.address + g.length) :
    host.arena.memory.get? k = sys.host.arena.memory.get? k := by
  refine hs.get?_eq k fun g' hg' => ?_
  have hapart := Heap.apart_of_live ho.sound (ho.live_of_grant hg) (ho.live_of_grant hg')
    (ho.ne_of_grant hi hg hg')
  omega

theorem emits (ho : Orderly sys held)
    (he : (sys.streams.get id).Emits sys.host s host chunks bytes) :
    Orderly ⟨sys.streams.set id s, sys.heap, host⟩ held :=
  ho.change (ho.serves he.serves) he.fits (ho.lent_of_same he.serves.storage_eq)

theorem effect_emitted (ho : Orderly sys held)
    (he : (sys.streams.get id).Emits sys.host s host chunks []) :
    Effect sys ⟨sys.streams.set id s, sys.heap, host⟩ (chunks.map (.emitted id)) := by
  refine ho.effect (ho.emits he) (ho.bytes_of_serves he.serves) ?_ ?_ ?_ fun t hb => hb.emits ?_
  · simp [StreamEvent.id]
  · rw [StreamEvent.chunks_emitted]
    exact he.console_eq
  · rw [StreamEvent.chunks_emitted]
    exact he.nonempty
  · have hbalance := he.balance
    rwa [List.append_nil] at hbalance

theorem effect_accepted (ho : Orderly sys held)
    (he : (sys.streams.get id).Emits sys.host s host chunks bytes) :
    Effect sys ⟨sys.streams.set id s, sys.heap, host⟩
      (chunks.map (.emitted id) ++ [.accepted id bytes]) := by
  refine ho.effect (ho.emits he) (ho.bytes_of_serves he.serves) ?_ ?_ ?_
    fun t hb => hb.accepts he.balance
  · intro e hmem
    rcases List.mem_append.mp hmem with hmem | hmem
    · obtain ⟨c, -, rfl⟩ := List.mem_map.mp hmem
      rfl
    · rw [List.mem_singleton.mp hmem]
      rfl
  · rw [StreamEvent.chunks_append, StreamEvent.chunks_emitted, StreamEvent.chunks_accepted,
      List.append_nil]
    exact he.console_eq
  · rw [StreamEvent.chunks_append, StreamEvent.chunks_emitted, StreamEvent.chunks_accepted,
      List.append_nil]
    exact he.nonempty

/-- An operation that is refused by a closed stream and lets an open one emit nothing. -/
theorem onOpen_quiet {α : Type} (ho : Orderly sys held) (id : StreamId)
    {f : Stream → Host → Except StreamError α × Stream × Host}
    (hf : ∀ (s : Stream) (h : Host), s.Fits → s.Emits h (f s h).2.1 (f s h).2.2 [] []) :
    Orderly (sys.onOpen id f).2 held ∧ Effect sys (sys.onOpen id f).2 [] := by
  cases hopen : (sys.streams.get id).isOpen with
  | true =>
    have he := hf (sys.streams.get id) sys.host (ho.fits id)
    rw [onOpen_of_open hopen]
    exact ⟨ho.emits he, ho.effect_emitted he⟩
  | false =>
    rw [onOpen_of_closed hopen]
    exact ⟨ho, .refl sys⟩

/-- Reading emits nothing. -/
theorem readInto_quiet (ho : Orderly sys held) (id : StreamId) (buf : Bytes)
    {f : Stream → LinearMemory → Bytes → Except StreamError Nat × Bytes × Stream}
    (hf : ∀ (s : Stream) (h : Host) (m : LinearMemory), s.Fits →
      s.Emits h (f s m buf).2.2 h [] []) :
    Orderly (sys.readInto id buf f).2.2 held ∧ Effect sys (sys.readInto id buf f).2.2 [] := by
  have he := hf (sys.streams.get id) sys.host sys.host.arena.memory (ho.fits id)
  exact ⟨ho.emits he, ho.effect_emitted he⟩

theorem waiting_of_closed (ho : Orderly sys held)
    (hc : (sys.streams.get id).isOpen = false) : sys.waiting id = [] := by
  refine Stream.waiting_of_readonly ?_
  by_contra hw
  have hready := (ho.fits id).ready (by simpa using hw)
  simp [Stream.isOpen, hready] at hc

/-- A flush emits what waits; nothing waits afterwards. -/
theorem flush (ho : Orderly sys held) (id : StreamId) :
    Orderly (sys.flush id).2 held ∧ (∃ chunks : List Bytes, Effect sys (sys.flush id).2
      (chunks.map (.emitted id))) ∧ (sys.flush id).2.waiting id = [] := by
  cases hopen : (sys.streams.get id).isOpen with
  | true =>
    obtain ⟨chunks, he, hw⟩ := Stream.drain_emits (ho.fits id) (ho.covered id)
    rw [flush_of_open hopen]
    refine ⟨ho.emits he, ⟨chunks, ho.effect_emitted he⟩, ?_⟩
    unfold StreamSystem.waiting
    rwa [StreamTable.get_set_self]
  | false =>
    have hfl : sys.flush id = (.error (.misuse (.streamNotOpen id)), sys) :=
      onOpen_of_closed hopen
    rw [hfl]
    exact ⟨ho, ⟨[], .refl sys⟩, ho.waiting_of_closed hopen⟩

theorem flushSlot_eq (sys : StreamSystem) (id : StreamId) :
    sys.flushSlot id = (sys.flush id).2 := by
  unfold flushSlot
  dsimp only
  cases hopen : (sys.streams.get id).isOpen with
  | true =>
    rw [flush_of_open hopen]
    unfold Stream.drain
    cases hw : (sys.streams.get id).writable with
    | true => rfl
    | false =>
      simp only [Bool.and_false, Bool.false_eq_true, if_false]
      rw [StreamTable.set_get]
  | false =>
    have hfl : sys.flush id = (.error (.misuse (.streamNotOpen id)), sys) :=
      onOpen_of_closed hopen
    rw [hfl]
    rfl

/-- Flushing slots one after the other leaves nothing waiting in any of them. -/
theorem foldl_flushSlot (ho : Orderly sys held) (ids : List StreamId) :
    Orderly (ids.foldl flushSlot sys) held ∧
      Effect sys (ids.foldl flushSlot sys) (sys.flushing ids) ∧
      ∀ i, i ∈ ids ∨ sys.waiting i = [] → (ids.foldl flushSlot sys).waiting i = [] := by
  induction ids generalizing sys with
  | nil => exact ⟨ho, .refl sys, fun i hi => hi.resolve_left List.not_mem_nil⟩
  | cons id rest ih =>
    obtain ⟨ho₁, ⟨chunks, he₁⟩, hw₁⟩ := ho.flush id
    rw [← flushSlot_eq] at ho₁ he₁ hw₁
    obtain ⟨ho₂, he₂, hw₂⟩ := ih ho₁
    refine ⟨ho₂, he₁.emissions.trans he₂, fun i hi => hw₂ i ?_⟩
    by_cases hid : i = id
    · rw [hid]
      exact Or.inr hw₁
    · rcases hi with hi | hi
      · exact Or.inl (List.mem_of_ne_of_mem hid hi)
      · right
        rw [he₁.waiting_eq (by simp [StreamEvent.id, Ne.symm hid]), hi]

/-- Closing emits what waits, and the slot is empty then. -/
theorem close (ho : Orderly sys held) (id : StreamId) :
    Orderly (sys.close id).2 held ∧ (∃ chunks : List Bytes, Effect sys (sys.close id).2
      (chunks.map (.emitted id))) ∧ (sys.close id).2.waiting id = [] := by
  cases hopen : (sys.streams.get id).isOpen with
  | true =>
    obtain ⟨heap, hc, hl⟩ := ho.toLedger.close hopen
    obtain ⟨chunks, he, hw⟩ := Stream.drain_emits (ho.fits id) (ho.covered id)
    have hempty : Stream.Fits {} := .of_readonly rfl (by simp)
    have ho' := ho.change hl hempty (by simp)
    rw [hc]
    refine ⟨ho', ⟨chunks, ?_⟩, ?_⟩
    · refine ho.effect ho' (ho.bytes_of_serves he.serves) (by simp [StreamEvent.id]) ?_ ?_
        fun t hb => hb.emits ?_
      · rw [StreamEvent.chunks_emitted]
        exact he.console_eq
      · rw [StreamEvent.chunks_emitted]
        exact he.nonempty
      · have hbalance := he.balance
        rw [List.append_nil, hw] at hbalance
        exact hbalance
    · unfold StreamSystem.waiting
      rw [StreamTable.get_set_self]
      exact Stream.waiting_of_readonly rfl
  | false =>
    rw [close_of_closed hopen]
    exact ⟨ho, ⟨[], .refl sys⟩, ho.waiting_of_closed hopen⟩

/-- Starting a fetch for a slot that is not in use emits nothing. -/
theorem openInto (ho : Orderly sys held) (name : String)
    (hc : (sys.streams.get id).isOpen = false) :
    Orderly (sys.openInto id name).2 held ∧ Effect sys (sys.openInto id name).2 [] := by
  rcases ho.toLedger.openInto name (ho.closed id hc) with
    ⟨ticket, g, heap, host, he, hl, hq⟩ | ⟨e, heap, host, he, -, hl, hq⟩
  · rw [he]
    exact ho.replace hl (ho.quiet_of_live id hq) (.of_readonly rfl (by simp [Stream.opening]))
      (by simp [Stream.opening]) (ho.waiting_of_closed hc) (Stream.waiting_of_readonly rfl)
  · rw [he]
    have ho' : Orderly ⟨sys.streams, heap, host⟩ held := ⟨hl, ho.lent_held, ho.lent_once, ho.fits⟩
    refine ⟨ho', .of_waiting hq.console_eq fun i => ho.waiting_eq ho' rfl fun g hg => ?_⟩
    exact hq.get?_eq g (ho.live_of_grant hg)

theorem openStream (ho : Orderly sys held) (name mode : String) :
    Orderly (sys.openStream name mode).2 held ∧ Effect sys (sys.openStream name mode).2 [] := by
  unfold StreamSystem.openStream
  split
  · exact ⟨ho, .refl sys⟩
  split
  · exact ⟨ho, .refl sys⟩
  rename_i id hfree
  have hopened := ho.openInto name (StreamTable.closed_of_freeSlot? hfree)
  split <;> rename_i hr <;> rw [hr] at hopened <;> exact hopened

/-- Reopening a slot emits what closing it emits. -/
theorem reopen (ho : Orderly sys held) (id : StreamId) (name mode : String) :
    Orderly (sys.reopen id name mode).2 held ∧
      ∃ chunks : List Bytes, Effect sys (sys.reopen id name mode).2
        (chunks.map (.emitted id)) := by
  have hopened : ∀ (sys' : StreamSystem) (chunks : List Bytes), Orderly sys' held →
      (sys'.streams.get id).isOpen = false → Effect sys sys' (chunks.map (.emitted id)) →
      Orderly (sys'.openInto id name).2 held ∧
        ∃ chunks : List Bytes, Effect sys (sys'.openInto id name).2
          (chunks.map (.emitted id)) := by
    intro sys' chunks ho' hc he
    obtain ⟨ho₂, he₂⟩ := ho'.openInto name hc
    have hboth := he.trans he₂
    rw [List.append_nil] at hboth
    exact ⟨ho₂, chunks, hboth⟩
  unfold StreamSystem.reopen
  split
  · exact ⟨ho, [], .refl sys⟩
  cases hopen : (sys.streams.get id).isOpen with
  | true =>
    obtain ⟨heap, hc, -⟩ := ho.toLedger.close hopen
    obtain ⟨ho', ⟨chunks, he⟩, -⟩ := ho.close id
    rw [hc] at ho' he
    have hnext := hopened _ chunks ho' (by simp [Stream.isOpen]) he
    rw [if_pos rfl, hc]
    dsimp only
    split <;> rename_i hr <;> rw [hr] at hnext <;> exact hnext
  | false =>
    have hnext := hopened sys [] ho hopen (.refl sys)
    rw [if_neg (by simp)]
    dsimp only
    split <;> rename_i hr <;> rw [hr] at hnext <;> exact hnext

/-- Replacing a buffer discards exactly what waits. -/
theorem setBufferMode (ho : Orderly sys held) (id : StreamId) (mode : BufferMode) (size : Nat) :
    Orderly (sys.setBufferMode id mode size).2 held ∧
      Effect sys (sys.setBufferMode id mode size).2 (sys.rebuffering id) := by
  unfold rebuffering
  cases hopen : (sys.streams.get id).isOpen with
  | true =>
    obtain ⟨result, s, heap, host, he, -, hs, hl, hq⟩ := ho.toLedger.setBufferMode hopen mode size
    rw [he, if_pos rfl]
    exact ho.rebuffer hl hq ((ho.fits id).rebuffered hs) (fun g hg => absurd hg (hs.own g))
      hs.cursor_eq
  | false =>
    rw [setBufferMode_of_closed hopen]
    exact ⟨ho, .refl sys⟩

/-- So does lending a buffer, here one that the program holds and lends to no other stream. -/
theorem setUserBuffer (ho : Orderly sys held) (id : StreamId) (grant : Allocation)
    (mode : BufferMode) (hg : grant ∈ held)
    (hlent : ∀ i ≠ id, (sys.streams.get i).storage ≠ .borrowed grant) :
    Orderly (sys.setUserBuffer id grant mode).2 held ∧
      Effect sys (sys.setUserBuffer id grant mode).2 (sys.rebuffering id) := by
  unfold rebuffering
  cases hopen : (sys.streams.get id).isOpen with
  | true =>
    obtain ⟨heap, he, hl⟩ := ho.toLedger.setUserBuffer hopen grant mode
    rw [he, if_pos rfl]
    refine ho.rebuffer hl (.refl _ _) ((ho.fits id).lent grant mode) (fun g hb => ?_) rfl
    obtain rfl : grant = g := by simpa [Stream.lent] using hb
    exact ⟨hg, hlent⟩
  | false =>
    rw [setUserBuffer_of_closed hopen]
    exact ⟨ho, .refl sys⟩

/-- Deliveries emit nothing. -/
theorem foldl_pollSlot (ho : Orderly sys held) (report : PollReport) (ids : List StreamId) :
    Orderly (ids.foldl StreamSystem.pollSlot (report, sys)).2 held ∧
      Effect sys (ids.foldl StreamSystem.pollSlot (report, sys)).2 [] := by
  induction ids generalizing sys report with
  | nil => exact ⟨ho, .refl sys⟩
  | cons id rest ih =>
    obtain ⟨report', s, heap, host, he, hs, hl, hq⟩ := ho.toLedger.pollSlot report id
    have hstep : Orderly ⟨sys.streams.set id s, heap, host⟩ held ∧
        Effect sys ⟨sys.streams.set id s, heap, host⟩ [] := by
      rcases hs with rfl | ⟨ticket, hstate, hs⟩
      · rw [sys.streams.set_get] at hl ⊢
        have ho' : Orderly ⟨sys.streams, heap, host⟩ held :=
          ⟨hl, ho.lent_held, ho.lent_once, ho.fits⟩
        refine ⟨ho', .of_waiting hq.console_eq fun i => ho.waiting_eq ho' rfl fun g hg => ?_⟩
        exact hq.get?_eq g (ho.live_of_grant hg)
      · -- a stream that waits for a fetch is not writable
        have hold := ho.fits id
        have hw : (sys.streams.get id).writable = false := by
          by_contra hw
          have hready := hold.ready (by simpa using hw)
          rw [hready] at hstate
          cases hstate
        have hq' := ho.quiet_of_live id hq
        rcases hs with rfl | ⟨g, content, rfl⟩
        · exact ho.replace hl hq' (.of_readonly hw hold.reserved_pos) (ho.lent_of_same rfl)
            (Stream.waiting_of_readonly hw) (Stream.waiting_of_readonly hw)
        · exact ho.replace hl hq' (.of_readonly hw hold.reserved_pos) (by simp [Stream.delivered])
            (Stream.waiting_of_readonly hw) (Stream.waiting_of_readonly hw)
    rw [List.foldl_cons, he]
    obtain ⟨ho₂, he₂⟩ := ih hstep.1 report'
    exact ⟨ho₂, hstep.2.trans he₂⟩

end Orderly
end GuestLibrary
