import GuestLibrary.Proofs.Stream.Fetching
import GuestLibrary.Proofs.Stream.Seclusion

/-! A slot that is read among calls of every other kind answers as a cursor in its data does. -/
namespace GuestLibrary

namespace Call

/-- The slot that a call names. -/
def slot? : Call → Option StreamId
  | .reopen id _ _ | .close id | .setBufferMode id _ _ | .setUserBuffer id _ _ | .readByte id
  | .readLine id _ | .read id _ | .pushBack id _ | .writeByte id _ | .write id _
  | .writePieces id _ | .flush id | .seek id _ _ | .tell id | .rewind id | .clearError id =>
    some id
  | _ => none

end Call

namespace Client

open StreamSystem

/-- The program gives back, writes to and lends only grants that it holds. -/
def WithinGrants (c : Client) : Call → Prop
  | .heap r => r.Entitled (· ∈ c.held)
  | .poke address block =>
    ∃ g ∈ c.held, g.address ≤ address ∧ address + block.length ≤ g.address + g.length
  | .setUserBuffer _ grant _ => grant ∈ c.held
  | _ => True

/-- A run in which a slot is read, with the reading calls and what they returned, among calls that
do not name the slot. -/
inductive Reads (id : StreamId) : Client → List (CursorCall × Answer) → Client → Prop
  | refl (c : Client) : Reads id c [] c
  | read {c c' : Client} {log : List (CursorCall × Answer)} (call : CursorCall) :
      Reads id c log c' →
      Reads id c (log ++ [(call, c'.system.answer id call)]) (c'.perform (call.on id))
  | other {c c' : Client} {log : List (CursorCall × Answer)} (call : Call) : Reads id c log c' →
      call.slot? ≠ some id → c'.WithinGrants call → Reads id c log (c'.perform call)

variable {limits : HeapLimits} {host : Host} {c c' : Client} {id : StreamId}

/-- A call that does not name a slot spares it. -/
theorem spared_perform (hs : c.system.Secluded c.held id) {call : Call}
    (hslot : call.slot? ≠ some id) (hw : c.WithinGrants call) :
    Spared id c.system (c.perform call).system (c.perform call).held := by
  have hne : ∀ {j : StreamId}, call.slot? = some j → j ≠ id := by
    rintro j hj rfl
    exact hslot hj
  cases call with
  | heap r => exact hs.request hw
  | poke address block =>
    obtain ⟨g, hg, hlo, hhi⟩ := hw
    exact hs.poke hg hlo hhi
  | addResource name content =>
    have harena := c.system.host.arena_addResource name content
    exact hs.keep (hs.of_host (by rw [harena]) (by rw [harena])) fun g _ k _ _ => by rw [harena]
  | completeFetches => exact hs.keep (hs.of_host rfl rfl) fun _ _ _ _ _ => rfl
  | openStream name mode => exact hs.openStream name mode
  | reopen j name mode => exact hs.reopen (hne rfl) name mode
  | close j => exact hs.close (hne rfl)
  | poll =>
    simp only [perform, serve, heldAfter]
    exact hs.poll
  | setBufferMode j mode size => exact hs.setBufferMode (hne rfl) mode size
  | setUserBuffer j grant mode => exact hs.setUserBuffer (hne rfl) hw mode
  | readByte j => exact hs.onOpen (hne rfl) fun s h => Stream.readByte_serves s h _
  | readLine j buf =>
    change Spared id c.system (c.system.readLine j buf).2.2 c.held
    unfold StreamSystem.readLine
    split
    · exact hs.refl
    · exact hs.readInto (hne rfl) buf Stream.readLine_serves
  | read j buf =>
    change Spared id c.system (c.system.read j buf).2.2 c.held
    unfold StreamSystem.read
    split
    · exact hs.refl
    · exact hs.readInto (hne rfl) buf Stream.read_serves
  | pushBack j b => exact hs.onOpen (hne rfl) fun s h => Stream.pushBack_serves s h j b
  | writeByte j b => exact hs.onOpen (hne rfl) fun s h => Stream.writeByte_serves s h j b
  | write j block => exact hs.onOpen (hne rfl) fun s h => Stream.write_serves s h j block
  | writePieces j pieces => exact hs.writePieces (hne rfl) pieces
  | flush j => exact hs.onOpen (hne rfl) Stream.drain_serves
  | flushAll =>
    simp only [perform, serve, heldAfter]
    exact hs.flushAll
  | seek j offset whence =>
    exact hs.onOpen (hne rfl) fun s h => Stream.seek_serves s h j offset whence
  | tell j => exact hs.onOpen (hne rfl) Stream.Serves.refl
  | rewind j => exact hs.onOpen (hne rfl) fun s h => Stream.rewind_serves s h j
  | clearError j => exact hs.onOpen (hne rfl) fun s h => .flags s h false false

end Client

namespace StreamSystem

variable {sys sys' : StreamSystem} {held held' : List Allocation} {id : StreamId}

/-- A secluded slot that is open for reading. -/
structure Readable (sys : StreamSystem) (held : List Allocation) (id : StreamId) : Prop
    extends Secluded sys held id where
  readable : (sys.streams.get id).readable = true
  loaded : (sys.streams.get id).Loaded

namespace Readable

theorem legible (hr : sys.Readable held id) :
    (sys.streams.get id).Legible sys.host.arena.memory where
  ready := by simp [Stream.isReady, hr.ready]
  readable := hr.readable
  loaded := hr.loaded
  inside _ hg := (Heap.bounds_of_live hr.sound (hr.live hg)).2

/-- A slot that is spared shows the same cursor. -/
theorem spared (hr : sys.Readable held id) (hs : Spared id sys sys' held') :
    sys'.Readable held' id ∧ sys'.cursor id = sys.cursor id := by
  have hr' : sys'.Readable held' id := by
    refine ⟨hs.toSecluded, ?_, ?_⟩ <;> rw [hs.stream_eq]
    · exact hr.readable
    · exact hr.loaded
  refine ⟨hr', ?_⟩
  have hlegible := hr'.legible
  unfold cursor
  rw [hs.stream_eq] at hlegible ⊢
  have hcontent : ((sys.streams.get id).view sys'.host.arena.memory).content =
      ((sys.streams.get id).view sys.host.arena.memory).content := by
    by_cases hpos : 0 < (sys.streams.get id).extent
    · obtain ⟨g, hg, hle⟩ := hr.loaded.own hr.readable hpos
      rw [hlegible.content_eq hg hle, hr.legible.content_eq hg hle]
      exact LinearMemory.read_congr fun k hlo hhi => hs.bytes_eq g hg k hlo (by omega)
    · have hzero : (sys.streams.get id).extent = 0 := by omega
      simp [Stream.view, hzero]
  exact congrArg (ByteCursor.mk · (sys.streams.get id).cursor (sys.streams.get id).eof) hcontent

/-- A call of the slot itself moves the cursor as it should. -/
theorem read (hr : sys.Readable held id) (call : CursorCall) :
    (sys.serve (call.on id)).Readable held id ∧
      (sys.answer id call, (sys.serve (call.on id)).cursor id) =
        (sys.cursor id).answer id call := by
  obtain ⟨s, host, he, hv, hanswer⟩ := serve_cursor hr.legible call
  have hsame : (sys.streams.set id s).get id = s := StreamTable.get_set_self
  rw [he]
  refine ⟨⟨⟨hr.toLedger.serves hv, ?_, ?_, ?_⟩, ?_, ?_⟩, ?_⟩
  · rw [hsame, hv.state_eq]
    exact hr.ready
  · rw [hsame, hv.writable_eq]
    exact hr.readonly
  · intro g hg i hi g' hg'
    rw [hsame, hv.storage_eq] at hg
    dsimp only at hg'
    rw [StreamTable.get_set_of_ne hi] at hg'
    exact hr.apart g hg i hi g' hg'
  · rw [hsame, hv.readable_eq]
    exact hr.readable
  · rw [hsame]
    exact hv.stays.loaded hr.loaded
  · rw [cursor, hsame]
    exact hanswer

end Readable
end StreamSystem

namespace Stream

/-- A shorter front of a buffer is the front of a longer one. -/
theorem take_bufferFront (s : Stream) (m : LinearMemory) {n k : Nat} (h : n ≤ k) :
    (s.bufferFront m k).take n = s.bufferFront m n := by
  unfold bufferFront
  cases hs : s.storage with
  | empty => simp
  | reserved => rw [List.take_take, Nat.min_eq_left h]
  | owned g | borrowed g =>
    dsimp only
    rw [LinearMemory.take_read]
    congr 1
    omega

end Stream

namespace StreamSystem

/-- What a slot received is what a reader sees first. -/
theorem Received.view_eq {sys : StreamSystem} {id : StreamId} {name : String} {content : Bytes}
    (hr : sys.Received id name content) : sys.cursor id = ⟨content, 0, false⟩ := by
  have hfront := (sys.streams.get id).take_bufferFront sys.host.arena.memory
    (Nat.le_add_right content.length 1)
  rw [hr.bytes_eq, List.take_left' rfl] at hfront
  rw [cursor, Stream.view, hr.extent_eq, hr.cursor_eq, hr.eof_eq, ← hfront]

end StreamSystem

namespace Client

open StreamSystem

variable {limits : HeapLimits} {host : Host} {c c' : Client} {id : StreamId}
  {log : List (CursorCall × Answer)}

theorem held_on (c : Client) (id : StreamId) (call : CursorCall) :
    (c.perform (call.on id)).held = c.held := by
  cases call <;> rfl

/-- Along a run the slot stays readable, and the answers are those of the cursor. -/
theorem Reads.replay (hreads : Reads id c log c') (hr : c.system.Readable c.held id) :
    c'.system.Readable c'.held id ∧
      (c.system.cursor id).replay id (log.map (·.1)) = (log, c'.system.cursor id) := by
  induction hreads with
  | refl => exact ⟨hr, rfl⟩
  | @read c' log call _ ih =>
    obtain ⟨hr', hreplay⟩ := ih
    obtain ⟨hr'', hanswer⟩ := hr'.read call
    refine ⟨?_, ?_⟩
    · rw [held_on]
      exact hr''
    · rw [List.map_append, List.map_singleton, ByteCursor.replay_append, hreplay, ← hanswer]
      rfl
  | other call _ hslot hw ih =>
    obtain ⟨hr', hreplay⟩ := ih
    obtain ⟨hr'', hcursor⟩ := hr'.spared (spared_perform hr'.toSecluded hslot hw)
    exact ⟨hr'', by rw [hreplay, hcursor]⟩

/-- Reading a slot is moving a cursor in its data. Whatever happens to other slots and to the grants
of the program in between, the calls that read the slot or position it return what the cursor
returns that the slot shows at first, and lead to the cursor that it shows in the end. -/
theorem reading_moves_cursor (hr : Reachable limits host Entitled c)
    (hready : (c.system.streams.get id).isReady = true)
    (hreadable : (c.system.streams.get id).readable = true)
    (hlent : ∀ i ≠ id, ∀ g, (c.system.streams.get i).storage = .borrowed g → g ∈ c.held)
    (hreads : Reads id c log c') :
    (∀ name content, c.system.Received id name content →
      c.system.cursor id = ⟨content, 0, false⟩) ∧
    (c.system.cursor id).replay id (log.map (·.1)) = (log, c'.system.cursor id) ∧
    (c'.system.cursor id).content.length = (c'.system.streams.get id).extent ∧
    (c'.system.cursor id).position ≤ (c'.system.cursor id).content.length := by
  have hl := hr.ledger fun _ _ he => he
  have hloaded := hr.loaded id
  have hstate : (c.system.streams.get id).state = .ready := by
    simpa [Stream.isReady] using hready
  have hstart : c.system.Readable c.held id := by
    refine ⟨⟨hl, hstate, hloaded.readonly hreadable, fun g hg i hi g' hg' => ?_⟩, hreadable,
      hloaded⟩
    have hmem : g ∈ c.system.streams.owned := StreamTable.mem_owned.mpr ⟨id, hg⟩
    have hheld := hlent i hi g' hg'
    have hne : g' ≠ g := fun he => (List.nodup_append.mp hl.nodup).2.2 g' hheld g hmem he
    have hapart := Heap.apart_of_live hl.sound (hl.mem_live_of_held hheld)
      (hl.mem_live_of_owned hmem) hne
    omega
  obtain ⟨hend, hreplay⟩ := hreads.replay hstart
  have hlength := hend.legible.length_content
  refine ⟨fun _ _ hreceived => hreceived.view_eq, hreplay, hlength, ?_⟩
  unfold cursor at hlength ⊢
  rw [hlength]
  exact hend.loaded.cursor_le hend.readable

/-- The first slot after its data arrived, in a table where no slot borrows a grant. -/
theorem delivered_first : ∃ c, Reachable ⟨1, 2⟩ deliveringHost Entitled c ∧
    c.system.streams.get .first =
      (Stream.opening 1 ⟨0, 4, 32764⟩ "a").delivered ⟨1, 32772, 32764⟩ [104, 105] ∧
    c.system.cursor .first = ⟨[104, 105], 0, false⟩ ∧
    ∀ i g, (c.system.streams.get i).storage ≠ .borrowed g := by
  obtain ⟨heap, arena, hruns, hsys, hroom⟩ :=
    @open_first deliveringHost rfl Heap.size_onePage
  obtain ⟨hl, ht⟩ := hruns.ticketed ⟨rfl, rfl, _, _, rfl⟩ (.ofBase 0 1) (by decide)
  have hpolled := fun i => ht.polled (by decide) hl i
  obtain ⟨-, hstream, hbytes⟩ := arrived_first hsys hroom (hpolled .first)
  have hstart : Reachable ⟨1, 2⟩ deliveringHost Entitled (start ⟨1, 2⟩ deliveringHost) :=
    .start (.ofBase 0 1)
  have hopened := hstart.call (.openStream "a" "rb") trivial
  generalize (start ⟨1, 2⟩ deliveringHost).perform (.openStream "a" "rb") = c at *
  refine ⟨c.perform .poll, hopened.call .poll trivial, ?_, ?_, ?_⟩ <;> rw [system_poll rfl]
  · exact hstream
  · have hreceived : c.system.poll.2.Received .first "a" [104, 105] := by
      refine ⟨?_, ?_, ?_, ?_, ?_, hbytes⟩ <;> rw [hstream] <;> rfl
    exact hreceived.view_eq
  · intro i g
    by_cases hi : i = .first
    · rw [hi, hstream]
      simp [Stream.delivered]
    · -- the other slots are as they were at the start
      have hgrant : ∀ i, (StreamTable.initial.get i).storage.grant? = none := by decide
      have hinitial : c.system.streams.get i = StreamTable.initial.get i := by
        rw [hsys]
        exact StreamTable.get_set_of_ne hi
      obtain ⟨-, -, hsame⟩ := (hpolled i).idle fun t ht => by
        rw [hinitial] at ht
        exact absurd ht (idle_initial i t)
      rw [hsame, hinitial]
      intro hg
      have hnone := hgrant i
      rw [hg] at hnone
      cases hnone

theorem reading_moves_cursor_first : ∃ c c',
    Reachable ⟨1, 2⟩ deliveringHost Entitled c ∧
    Reads .first c
      [(.readByte, .byte (.ok 104)), (.pushBack 106, .byte (.ok 106)),
        (.readLine [1, 2, 3, 4], .filled (.ok 2) [106, 105, 0, 4]),
        (.read [5], .filled (.ok 0) [5])] c' := by
  have hread : ∀ c : Client, Reachable ⟨1, 2⟩ deliveringHost Entitled c →
      c.system.streams.get .first =
        (Stream.opening 1 ⟨0, 4, 32764⟩ "a").delivered ⟨1, 32772, 32764⟩ [104, 105] →
      c.system.cursor .first = ⟨[104, 105], 0, false⟩ →
      (∀ i g, (c.system.streams.get i).storage ≠ .borrowed g) →
      ∃ c', Reads .first c
        [(.readByte, .byte (.ok 104)), (.pushBack 106, .byte (.ok 106)),
          (.readLine [1, 2, 3, 4], .filled (.ok 2) [106, 105, 0, 4]),
          (.read [5], .filled (.ok 0) [5])] c' := by
    intro c hr hstream hcursor hlent
    have hreads := ((((@Reads.refl .first c).read .readByte).other (.heap (.allocate 10))
      (by simp [Call.slot?]) trivial).read (.pushBack 106)).read (.readLine [1, 2, 3, 4]) |>.read
        (.read [5])
    obtain ⟨-, hreplay, -⟩ := reading_moves_cursor hr (by rw [hstream]; rfl) (by rw [hstream]; rfl)
      (fun i _ g hg => absurd hg (hlent i g)) hreads
    rw [hcursor] at hreplay
    have hlog := congrArg Prod.fst hreplay
    dsimp only at hlog
    rw [← hlog] at hreads
    exact ⟨_, hreads⟩
  obtain ⟨c, hr, hstream, hcursor, hlent⟩ := delivered_first
  obtain ⟨c', hreads⟩ := hread c hr hstream hcursor hlent
  exact ⟨c, c', hr, hreads⟩

end Client
end GuestLibrary
