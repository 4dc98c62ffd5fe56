import GuestLibrary.Proofs.Stream.Cursor

/-! What other calls do to a slot that is being read: nothing, as long as the buffers that other
slots borrow and the places that the program writes to lie in grants of the program. -/
namespace GuestLibrary

namespace StreamSystem

/-- A ready slot for reading, whose buffer is not part of what other slots borrow. -/
structure Secluded (sys : StreamSystem) (held : List Allocation) (id : StreamId) : Prop
    extends Ledger sys held where
  ready : (sys.streams.get id).state = .ready
  readonly : (sys.streams.get id).writable = false
  apart : ∀ g, (sys.streams.get id).storage = .owned g → ∀ i ≠ id, ∀ g',
    (sys.streams.get i).storage = .borrowed g' →
      g'.address + g'.length ≤ g.address ∨ g.address + g.length ≤ g'.address

/-- From one system to another the slot keeps its stream and the bytes of its buffer, and it is
secluded afterwards. -/
structure Spared (id : StreamId) (sys sys' : StreamSystem) (held : List Allocation) : Prop
    extends Secluded sys' held id where
  stream_eq : sys'.streams.get id = sys.streams.get id
  bytes_eq : ∀ g, (sys.streams.get id).storage = .owned g → ∀ k, g.address ≤ k →
    k < g.address + g.length →
      sys'.host.arena.memory.get? k = sys.host.arena.memory.get? k

variable {sys sys' sys'' : StreamSystem} {held held' : List Allocation} {id j : StreamId}
  {g : Allocation} {s : Stream} {heap : Heap} {host : Host}

theorem Spared.trans (hs : Spared id sys sys' held) (hs' : Spared id sys' sys'' held') :
    Spared id sys sys'' held' where
  toSecluded := hs'.toSecluded
  stream_eq := hs'.stream_eq.trans hs.stream_eq
  bytes_eq g hg k hlo hhi := by
    refine (hs'.bytes_eq g ?_ k hlo hhi).trans (hs.bytes_eq g hg k hlo hhi)
    rwa [hs.stream_eq]

namespace Secluded

theorem refl (hs : sys.Secluded held id) : Spared id sys sys held := ⟨hs, rfl, fun _ _ _ _ _ => rfl⟩

theorem isOpen (hs : sys.Secluded held id) : (sys.streams.get id).isOpen = true := by
  simp [Stream.isOpen, hs.ready]

theorem live (hs : sys.Secluded held id) (hg : (sys.streams.get id).storage = .owned g) :
    g ∈ sys.heap.liveAllocations :=
  hs.mem_live_of_owned (StreamTable.mem_owned.mpr ⟨id, hg⟩)

theorem not_held (hs : sys.Secluded held id) (hg : (sys.streams.get id).storage = .owned g) :
    g ∉ held := fun hheld =>
  (List.nodup_append.mp hs.nodup).2.2 g hheld g (StreamTable.mem_owned.mpr ⟨id, hg⟩) rfl

/-- Grants of the program are apart from the buffer. -/
theorem apart_of_held (hs : sys.Secluded held id) (hg : (sys.streams.get id).storage = .owned g)
    {g' : Allocation} (hg' : g' ∈ held) :
    g'.address + g'.length ≤ g.address ∨ g.address + g.length ≤ g'.address := by
  have hne : g' ≠ g := fun he => hs.not_held hg (he ▸ hg')
  have hapart := Heap.apart_of_live hs.sound (hs.mem_live_of_held hg') (hs.live hg) hne
  omega

/-- So are the buffers of other slots. -/
theorem apart_of_grant (hs : sys.Secluded held id) (hg : (sys.streams.get id).storage = .owned g)
    (hj : j ≠ id) {g' : Allocation} (hg' : (sys.streams.get j).storage.grant? = some g') :
    g'.address + g'.length ≤ g.address ∨ g.address + g.length ≤ g'.address := by
  rcases BufferStorage.grant?_eq_some.mp hg' with hown | hborrowed
  · have hne : g' ≠ g := by
      rintro rfl
      exact hj (hs.owner_unique hg hown)
    have hlive := hs.mem_live_of_owned (StreamTable.mem_owned.mpr ⟨j, hown⟩)
    have hapart := Heap.apart_of_live hs.sound hlive (hs.live hg) hne
    omega
  · exact hs.apart g hg j hj g' hborrowed

/-- Memory that is quiet where grants are live is quiet in the buffer. -/
theorem bytes_of_quiet (hs : sys.Secluded held id)
    (hq : sys.host.Quiet sys.heap.liveAllocations host) (g : Allocation)
    (hg : (sys.streams.get id).storage = .owned g) (k : Nat) (hlo : g.address ≤ k)
    (hhi : k < g.address + g.length) :
    host.arena.memory.get? k = sys.host.arena.memory.get? k :=
  hq.get?_eq g (hs.live hg) k hlo hhi

/-- Another slot changes, and borrows nothing but what it did or what the program holds. -/
theorem change (hs : sys.Secluded held id) (hj : j ≠ id)
    (hl : Ledger ⟨sys.streams.set j s, heap, host⟩ held)
    (hb : ∀ g, s.storage = .borrowed g → (sys.streams.get j).storage = .borrowed g ∨ g ∈ held)
    (hbytes : ∀ g, (sys.streams.get id).storage = .owned g → ∀ k, g.address ≤ k →
      k < g.address + g.length →
        host.arena.memory.get? k = sys.host.arena.memory.get? k) :
    Spared id sys ⟨sys.streams.set j s, heap, host⟩ held := by
  have hsame : (sys.streams.set j s).get id = sys.streams.get id :=
    StreamTable.get_set_of_ne (Ne.symm hj)
  refine ⟨⟨hl, ?_, ?_, ?_⟩, hsame, hbytes⟩ <;> dsimp only <;> rw [hsame]
  · exact hs.ready
  · exact hs.readonly
  · intro g hg i hi g' hg'
    rw [StreamTable.get_set] at hg'
    split at hg'
    · rcases hb g' hg' with hborrowed | hheld
      · exact hs.apart g hg j hj g' hborrowed
      · exact hs.apart_of_held hg hheld
    · exact hs.apart g hg i hi g' hg'

/-- The heap or the host changes, not in the buffer. -/
theorem keep (hs : sys.Secluded held id) (hl : Ledger ⟨sys.streams, heap, host⟩ held')
    (hbytes : ∀ g, (sys.streams.get id).storage = .owned g → ∀ k, g.address ≤ k →
      k < g.address + g.length →
        host.arena.memory.get? k = sys.host.arena.memory.get? k) :
    Spared id sys ⟨sys.streams, heap, host⟩ held' :=
  ⟨⟨hl, hs.ready, hs.readonly, hs.apart⟩, rfl, hbytes⟩

/-- An operation of another stream. -/
theorem serves (hs : sys.Secluded held id) (hj : j ≠ id)
    (hv : (sys.streams.get j).Serves sys.host s host) :
    Spared id sys ⟨sys.streams.set j s, sys.heap, host⟩ held := by
  refine hs.change hj (hs.toLedger.serves hv) (fun g hg => ?_) fun g hg k hlo hhi => ?_
  · rw [hv.storage_eq] at hg
    exact Or.inl hg
  · refine hv.get?_eq k fun g' hg' => ?_
    have hapart := hs.apart_of_grant hg hj hg'
    omega

theorem onOpen {α : Type} (hs : sys.Secluded held id) (hj : j ≠ id)
    {f : Stream → Host → Except StreamError α × Stream × Host}
    (hf : ∀ s h, Stream.Serves s h (f s h).2.1 (f s h).2.2) :
    Spared id sys (sys.onOpen j f).2 held := by
  cases ho : (sys.streams.get j).isOpen with
  | true =>
    rw [onOpen_of_open ho]
    exact hs.serves hj (hf _ _)
  | false =>
    rw [onOpen_of_closed ho]
    exact hs.refl

theorem readInto (hs : sys.Secluded held id) (hj : j ≠ id) (buf : Bytes)
    {f : Stream → LinearMemory → Bytes → Except StreamError Nat × Bytes × Stream}
    (hf : ∀ s h m buf, Stream.Serves s h (f s m buf).2.2 h) :
    Spared id sys (sys.readInto j buf f).2.2 held :=
  hs.serves hj (hf _ _ _ _)

theorem writePieces (hs : sys.Secluded held id) (hj : j ≠ id) (pieces : List Bytes) :
    Spared id sys (StreamSystem.writePieces j pieces sys).2 held := by
  induction pieces generalizing sys with
  | nil => exact hs.refl
  | cons piece rest ih =>
    have hw : Spared id sys (sys.write j piece).2 held :=
      hs.onOpen hj fun s h => Stream.write_serves s h j piece
    unfold StreamSystem.writePieces
    split
    · rename_i he
      rw [he] at hw
      exact hw
    · rename_i n sys' he
      rw [he] at hw
      have hrest := hw.trans (ih hw.toSecluded)
      split <;> rename_i hr <;> rw [hr] at hrest <;> exact hrest

theorem flushSlot (hs : sys.Secluded held id) (j : StreamId) :
    Spared id sys (sys.flushSlot j) held := by
  unfold StreamSystem.flushSlot
  dsimp only
  split
  · rename_i hw
    have hj : j ≠ id := by
      rintro rfl
      simp [hs.readonly] at hw
    exact hs.serves hj (Stream.flush_serves _ _)
  · exact hs.refl

theorem flushAll (hs : sys.Secluded held id) : Spared id sys sys.flushAll held := by
  have hfold : ∀ (ids : List StreamId) (sys : StreamSystem), sys.Secluded held id →
      Spared id sys (ids.foldl StreamSystem.flushSlot sys) held := by
    intro ids
    induction ids with
    | nil => exact fun _ hs => hs.refl
    | cons j rest ih =>
      intro sys hs
      have hfirst := hs.flushSlot j
      exact hfirst.trans (ih _ hfirst.toSecluded)
  exact hfold _ sys hs

theorem openInto (hs : sys.Secluded held id) (hj : j ≠ id) (name : String)
    (hc : (sys.streams.get j).storage.owned? = none) :
    Spared id sys (sys.openInto j name).2 held := by
  rcases hs.toLedger.openInto name hc with
    ⟨ticket, g, heap, host, he, hl, hq⟩ | ⟨e, heap, host, he, -, hl, hq⟩
  · rw [he]
    exact hs.change hj hl (fun g hg => by cases hg) (hs.bytes_of_quiet hq)
  · rw [he]
    exact hs.keep hl (hs.bytes_of_quiet hq)

theorem openStream (hs : sys.Secluded held id) (name mode : String) :
    Spared id sys (sys.openStream name mode).2 held := by
  unfold StreamSystem.openStream
  split
  · exact hs.refl
  split
  · exact hs.refl
  rename_i j hfree
  have hclosed := StreamTable.closed_of_freeSlot? hfree
  have hj : j ≠ id := by
    rintro rfl
    rw [hs.isOpen] at hclosed
    cases hclosed
  have hopened := hs.openInto hj name (hs.closed j hclosed)
  split <;> rename_i hr <;> rw [hr] at hopened <;> exact hopened

theorem close (hs : sys.Secluded held id) (hj : j ≠ id) : Spared id sys (sys.close j).2 held := by
  cases ho : (sys.streams.get j).isOpen with
  | true =>
    obtain ⟨heap, he, hl⟩ := hs.toLedger.close ho
    have hdrained := hs.serves hj ((sys.streams.get j).drain_serves sys.host)
    rw [he]
    exact hs.change hj hl (fun g hg => by cases hg) hdrained.bytes_eq
  | false =>
    rw [close_of_closed ho]
    exact hs.refl

theorem reopen (hs : sys.Secluded held id) (hj : j ≠ id) (name mode : String) :
    Spared id sys (sys.reopen j name mode).2 held := by
  unfold StreamSystem.reopen
  split
  · exact hs.refl
  cases ho : (sys.streams.get j).isOpen with
  | true =>
    obtain ⟨heap, he, -⟩ := hs.toLedger.close ho
    have hclosed := hs.close hj
    rw [he] at hclosed
    have hnext := hclosed.trans (hclosed.openInto hj name (by simp [BufferStorage.owned?]))
    rw [if_pos rfl, he]
    dsimp only
    split <;> rename_i hr <;> rw [hr] at hnext <;> exact hnext
  | false =>
    have hnext := hs.openInto hj name (hs.closed j ho)
    rw [if_neg (by simp)]
    dsimp only
    split <;> rename_i hr <;> rw [hr] at hnext <;> exact hnext

theorem setBufferMode (hs : sys.Secluded held id) (hj : j ≠ id) (mode : BufferMode) (size : Nat) :
    Spared id sys (sys.setBufferMode j mode size).2 held := by
  cases ho : (sys.streams.get j).isOpen with
  | true =>
    obtain ⟨result, s, heap, host, he, -, hr, hl, hq⟩ := hs.toLedger.setBufferMode ho mode size
    rw [he]
    refine hs.change hj hl (fun g hg => absurd hg (hr.own g)) fun g hg => hq.get?_eq g ?_
    exact List.mem_append_right _ (StreamTable.mem_ownedElsewhere.mpr ⟨id, Ne.symm hj, hg⟩)
  | false =>
    rw [setBufferMode_of_closed ho]
    exact hs.refl

/-- Another slot is lent a grant that the program holds. -/
theorem setUserBuffer (hs : sys.Secluded held id) (hj : j ≠ id) {grant : Allocation}
    (hheld : grant ∈ held) (mode : BufferMode) :
    Spared id sys (sys.setUserBuffer j grant mode).2 held := by
  cases ho : (sys.streams.get j).isOpen with
  | true =>
    obtain ⟨heap, he, hl⟩ := hs.toLedger.setUserBuffer ho grant mode
    rw [he]
    refine hs.change hj hl (fun g hg => Or.inr ?_) fun _ _ _ _ _ => rfl
    obtain rfl : grant = g := by simpa [Stream.lent] using hg
    exact hheld
  | false =>
    rw [setUserBuffer_of_closed ho]
    exact hs.refl

theorem pollSlot (hs : sys.Secluded held id) (report : PollReport) (j : StreamId) :
    Spared id sys (StreamSystem.pollSlot (report, sys) j).2 held := by
  obtain ⟨harrival, hl, hq⟩ := hs.toLedger.arrival report j
  generalize StreamSystem.pollSlot (report, sys) j = result at harrival hl hq ⊢
  have hother : ∀ {ticket : Nat}, (sys.streams.get j).state = .opening ticket → j ≠ id := by
    rintro ticket hstate rfl
    rw [hs.ready] at hstate
    cases hstate
  cases harrival with
  | idle _ => exact hs.refl
  | failed hstate _ _ =>
    exact hs.change (hother hstate) hl (fun g hg => Or.inl hg) (hs.bytes_of_quiet hq)
  | arrived hstate _ _ _ _ _ =>
    exact hs.change (hother hstate) hl (fun g hg => by cases hg) (hs.bytes_of_quiet hq)

theorem poll (hs : sys.Secluded held id) : Spared id sys sys.poll.2 held := by
  have hfold : ∀ (ids : List StreamId) (sys : StreamSystem) (report : PollReport),
      sys.Secluded held id →
        Spared id sys (ids.foldl StreamSystem.pollSlot (report, sys)).2 held := by
    intro ids
    induction ids with
    | nil => exact fun _ _ hs => hs.refl
    | cons j rest ih =>
      intro sys report hs
      have hfirst := hs.pollSlot report j
      exact hfirst.trans (ih _ _ hfirst.toSecluded)
  exact hfold _ sys {} hs

theorem request (hs : sys.Secluded held id) {r : Heap.Request} (he : r.Entitled (· ∈ held)) :
    Spared id sys (sys.request r).2 (r.heldAfter held (sys.request r).1) :=
  hs.keep (hs.toLedger.request r he) fun _ hg _ hlo hhi =>
    hs.request_bytes (fun _ h => h) he (hs.live hg) (hs.not_held hg) hlo hhi

/-- The program writes into a grant of its own. -/
theorem poke (hs : sys.Secluded held id) {g : Allocation} (hg : g ∈ held) {address : Nat}
    {block : Bytes} (hlo : g.address ≤ address)
    (hhi : address + block.length ≤ g.address + g.length) :
    Spared id sys (sys.serve (.poke address block)) held := by
  refine hs.keep (hs.of_host rfl (by simp)) fun g' hg' k hlo' hhi' => ?_
  have hapart := hs.apart_of_held hg' hg
  exact LinearMemory.get?_write_of_outside (by omega)

end Secluded
end StreamSystem
end GuestLibrary
