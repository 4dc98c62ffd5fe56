import GuestLibrary.Proofs.Stream.Ownership

/-! What calls do to the slots and to the fetches of the host. Every call is a sequence of moves,
each of which concerns one slot or the host alone, so that a property of slots and fetches holds
along every run if each kind of move preserves it. -/
namespace GuestLibrary

namespace Stream

variable {s s' : Stream} {h h' : Host}

/-- The data of a readable stream are in a grant of its own, and its cursor is among them. -/
structure Loaded (s : Stream) : Prop where
  readonly : s.readable = true → s.writable = false
  cursor_le : s.readable = true → s.cursor ≤ s.extent
  own : s.readable = true → 0 < s.extent → ∃ g, s.storage = .owned g ∧ s.extent ≤ g.length

/-- A stream after a call that neither opens, settles nor closes it. -/
structure Stays (s s' : Stream) : Prop where
  state_eq : s'.state = s.state
  name_eq : s'.name = s.name
  loaded : s.Loaded → s'.Loaded

theorem Stays.refl (s : Stream) : s.Stays s := ⟨rfl, rfl, id⟩

theorem Serves.stays (hs : s.Serves h s' h') : s.Stays s' where
  state_eq := hs.state_eq
  name_eq := hs.name_eq
  loaded hl := by
    have hreadable := hs.readable_eq
    have hextent := hs.extent_eq
    refine ⟨fun hr => ?_, fun hr => ?_, fun hr hpos => ?_⟩
    · rw [hreadable] at hr
      exact hs.writable_eq.trans (hl.readonly hr)
    · rw [hreadable] at hr
      rw [hextent]
      exact hs.cursor_le (hl.readonly hr) (hl.cursor_le hr)
    · rw [hreadable] at hr
      rw [hextent] at hpos ⊢
      rw [hs.storage_eq]
      exact hl.own hr hpos

/-- A stream without data. -/
theorem Loaded.of_extent (hw : s.readable = true → s.writable = false) (hc : s.cursor = 0)
    (he : s.extent = 0) : s.Loaded where
  readonly := hw
  cursor_le _ := by omega
  own _ hpos := by omega

theorem Rebuffered.stays (hs : s.Rebuffered s') : s.Stays s' where
  state_eq := hs.state_eq
  name_eq := hs.name_eq
  loaded hl := by
    refine .of_extent (fun hr => ?_) hs.cursor_eq hs.extent_eq
    rw [hs.readable_eq] at hr
    exact hs.writable_eq.trans (hl.readonly hr)

theorem lent_stays (s : Stream) (grant : Allocation) (mode : BufferMode) :
    s.Stays (s.lent grant mode) where
  state_eq := rfl
  name_eq := rfl
  loaded hl := .of_extent hl.readonly rfl rfl

theorem Loaded.failed (hl : s.Loaded) : s.failed.Loaded := ⟨hl.readonly, hl.cursor_le, hl.own⟩

theorem Loaded.delivered (hl : s.Loaded) {g : Allocation} {content : Bytes}
    (hlen : content.length < g.length) : (s.delivered g content).Loaded where
  readonly := hl.readonly
  cursor_le _ := Nat.zero_le _
  own _ _ := ⟨g, rfl, Nat.le_of_lt hlen⟩

end Stream

namespace StreamSystem

/-- From one system to another by moves that open these slots, in this order. -/
inductive Moves : StreamSystem → List StreamId → StreamSystem → Prop
  | refl (sys : StreamSystem) : Moves sys [] sys
  | trans {sys sys' sys'' : StreamSystem} {ids ids' : List StreamId} :
      Moves sys ids sys' → Moves sys' ids' sys'' → Moves sys (ids ++ ids') sys''
  /-- The heap, the memory or the console changed. -/
  | host {sys : StreamSystem} {heap : Heap} {host : Host} : sys.host.SameFetches host →
      Moves sys [] ⟨sys.streams, heap, host⟩
  | addResource (sys : StreamSystem) (name : String) (content : Bytes) :
      Moves sys [] (sys.onHost (·.addResource name content))
  | completeFetches (sys : StreamSystem) : Moves sys [] (sys.onHost (·.release))
  | stays {sys : StreamSystem} {id : StreamId} {s : Stream} {heap : Heap} {host : Host} :
      (sys.streams.get id).Stays s → sys.host.SameFetches host →
      Moves sys [] ⟨sys.streams.set id s, heap, host⟩
  | closes {sys : StreamSystem} {id : StreamId} {heap : Heap} {host : Host} :
      sys.host.SameFetches host → Moves sys [] ⟨sys.streams.set id {}, heap, host⟩
  | opens {sys : StreamSystem} {id : StreamId} {g : Allocation} {name : String} {heap : Heap}
      {host : Host} : (sys.streams.get id).isOpen = false → sys.host.SameFetches host →
      Moves sys [id]
        ⟨sys.streams.set id (.opening (host.fetch name).1 g name), heap, (host.fetch name).2⟩
  | fails {sys : StreamSystem} {id : StreamId} {ticket : Nat} {heap : Heap} {host : Host} :
      (sys.streams.get id).state = .opening ticket →
      (sys.host.poll ticket).2.SameFetches host →
      Moves sys [] ⟨sys.streams.set id (sys.streams.get id).failed, heap, host⟩
  | arrives {sys : StreamSystem} {id : StreamId} {ticket : Nat} {g : Allocation} {content : Bytes}
      {heap : Heap} {host : Host} : (sys.streams.get id).state = .opening ticket →
      (sys.host.poll ticket).2.SameFetches host → content.length < g.length →
      Moves sys [] ⟨sys.streams.set id ((sys.streams.get id).delivered g content), heap, host⟩

variable {sys sys' : StreamSystem} {id : StreamId} {ids : List StreamId}

/-- The data of readable streams stay where they are, whatever is called. -/
theorem Moves.loaded (hm : Moves sys ids sys') (hl : ∀ i, (sys.streams.get i).Loaded) :
    ∀ i, (sys'.streams.get i).Loaded := by
  have hset : ∀ {t : StreamTable} {id : StreamId} {s : Stream}, (∀ i, (t.get i).Loaded) →
      s.Loaded → ∀ i, ((t.set id s).get i).Loaded := by
    intro t id s hl hs i
    rw [StreamTable.get_set]
    split
    · exact hs
    · exact hl i
  induction hm with
  | refl | host | addResource | completeFetches => exact hl
  | trans _ _ ih ih' => exact ih' (ih hl)
  | stays hs _ => exact hset hl (hs.loaded (hl _))
  | closes _ => exact hset hl (.of_extent (fun hr => by cases hr) rfl rfl)
  | opens _ _ => exact hset hl (.of_extent (fun _ => rfl) rfl rfl)
  | fails _ _ => exact hset hl (hl _).failed
  | arrives _ _ hlen => exact hset hl ((hl _).delivered hlen)

theorem Moves.trans_nil {sys'' : StreamSystem} (hm : Moves sys [] sys')
    (hm' : Moves sys' ids sys'') : Moves sys ids sys'' := by
  simpa using hm.trans hm'

theorem moves_of_serves {s : Stream} {host : Host}
    (hs : (sys.streams.get id).Serves sys.host s host) :
    Moves sys [] ⟨sys.streams.set id s, sys.heap, host⟩ :=
  .stays hs.stays hs.fetching

theorem onOpen_moves {α : Type} (sys : StreamSystem) (id : StreamId)
    {f : Stream → Host → Except StreamError α × Stream × Host}
    (hf : ∀ s h, Stream.Serves s h (f s h).2.1 (f s h).2.2) :
    Moves sys [] (sys.onOpen id f).2 := by
  cases ho : (sys.streams.get id).isOpen with
  | true =>
    rw [onOpen_of_open ho]
    exact moves_of_serves (hf _ _)
  | false =>
    rw [onOpen_of_closed ho]
    exact .refl sys

theorem readInto_moves (sys : StreamSystem) (id : StreamId) (buf : Bytes)
    {f : Stream → LinearMemory → Bytes → Except StreamError Nat × Bytes × Stream}
    (hf : ∀ s h m buf, Stream.Serves s h (f s m buf).2.2 h) :
    Moves sys [] (sys.readInto id buf f).2.2 :=
  moves_of_serves (hf _ _ _ _)

theorem writePieces_moves (sys : StreamSystem) (id : StreamId) (pieces : List Bytes) :
    Moves sys [] (writePieces id pieces sys).2 := by
  induction pieces generalizing sys with
  | nil => exact .refl sys
  | cons piece rest ih =>
    have hw : Moves sys [] (sys.write id piece).2 :=
      onOpen_moves sys id fun s h => Stream.write_serves s h id piece
    unfold writePieces
    split
    · rename_i he
      rw [he] at hw
      exact hw
    · rename_i n sys' he
      rw [he] at hw
      have hrest := ih sys'
      split <;> rename_i hr <;> rw [hr] at hrest <;> exact hw.trans_nil hrest

theorem flushAll_moves (sys : StreamSystem) : Moves sys [] sys.flushAll := by
  have hslot : ∀ (sys : StreamSystem) (id : StreamId), Moves sys [] (sys.flushSlot id) := by
    intro sys id
    unfold flushSlot
    dsimp only
    split
    · exact moves_of_serves (Stream.flush_serves _ _)
    · exact .refl sys
  have hfold : ∀ (ids : List StreamId) (sys : StreamSystem),
      Moves sys [] (ids.foldl flushSlot sys) := by
    intro ids
    induction ids with
    | nil => exact .refl
    | cons id rest ih => exact fun sys => (hslot sys id).trans_nil (ih _)
  exact hfold _ sys

theorem allocateBuffer_cases (sys : StreamSystem) (size : Nat) : ∃ r heap host,
    sys.allocateBuffer size = (r, ⟨sys.streams, heap, host⟩) ∧ sys.host.SameFetches host :=
  ⟨_, _, _, rfl, rfl, rfl, rfl⟩

theorem releaseGrant_eq (sys : StreamSystem) (grant : Option Allocation) : ∃ r heap,
    sys.releaseGrant grant = (r, ⟨sys.streams, heap, sys.host⟩) := by
  unfold releaseGrant
  cases grant with
  | none => exact ⟨_, _, rfl⟩
  | some g =>
    dsimp only
    split <;> exact ⟨_, _, rfl⟩

theorem openInto_moves (hc : (sys.streams.get id).isOpen = false) (name : String) :
    Moves sys ((sys.openInto id name).1.map fun _ => id).toOption.toList
      (sys.openInto id name).2 := by
  obtain ⟨r, heap, host, he, hf⟩ := sys.allocateBuffer_cases streamBufferSize
  unfold openInto
  rw [he]
  cases r with
  | error e => exact .host hf
  | ok g => exact .opens hc hf

theorem openStream_moves (sys : StreamSystem) (name mode : String) :
    Moves sys (sys.openStream name mode).1.toOption.toList (sys.openStream name mode).2 := by
  unfold openStream
  split
  · exact .refl sys
  split
  · exact .refl sys
  rename_i id hfree
  have hopened := openInto_moves (StreamTable.closed_of_freeSlot? hfree) name
  split <;> rename_i hr <;> rw [hr] at hopened <;> exact hopened

/-- Closing leaves a slot closed that it does not fail on. -/
theorem close_moves (sys : StreamSystem) (id : StreamId) :
    Moves sys [] (sys.close id).2 ∧
      ∀ r, (sys.close id).1 = .ok r → ((sys.close id).2.streams.get id).isOpen = false := by
  cases ho : (sys.streams.get id).isOpen with
  | true =>
    have hs := (sys.streams.get id).drain_serves sys.host
    unfold close
    rw [flush_of_open ho]
    dsimp only
    rw [StreamTable.get_set_self, StreamTable.set_set]
    obtain ⟨r, heap, he⟩ := releaseGrant_eq
      ⟨sys.streams.set id {}, sys.heap, ((sys.streams.get id).drain sys.host).2⟩
      ((sys.streams.get id).drain sys.host).1.storage.owned?
    rw [he]
    exact ⟨.closes hs.fetching, fun r _ => by rw [StreamTable.get_set_self]; rfl⟩
  | false =>
    rw [close_of_closed ho]
    exact ⟨.refl sys, fun r hr => by cases hr⟩

theorem reopen_moves (sys : StreamSystem) (id : StreamId) (name mode : String) :
    Moves sys (sys.reopen id name mode).1.toOption.toList (sys.reopen id name mode).2 := by
  unfold reopen
  split
  · exact .refl sys
  obtain ⟨hm, hclosed⟩ := sys.close_moves id
  cases ho : (sys.streams.get id).isOpen with
  | true =>
    rw [if_pos rfl]
    rcases hr : sys.close id with ⟨_ | _, sys'⟩ <;> rw [hr] at hm hclosed
    · exact hm
    · have hnext := hm.trans_nil (openInto_moves (hclosed _ rfl) name)
      dsimp only
      split <;> rename_i hr <;> rw [hr] at hnext <;> exact hnext
  | false =>
    have hnext := openInto_moves ho name
    rw [if_neg (by simp)]
    dsimp only
    split <;> rename_i hr <;> rw [hr] at hnext <;> exact hnext

theorem chooseBuffer_fetching (sys : StreamSystem) (id : StreamId) (mode : BufferMode)
    (size : Nat) : sys.host.SameFetches (sys.chooseBuffer id mode size).2.host := by
  obtain ⟨r, heap, host, he, hf⟩ := sys.allocateBuffer_cases (max size 1)
  unfold chooseBuffer
  dsimp only
  split
  · exact .refl _
  split
  · exact .refl _
  · rw [he]
    cases r <;> exact hf

theorem setBufferMode_fetching (sys : StreamSystem) (id : StreamId) (mode : BufferMode)
    (size : Nat) : sys.host.SameFetches (sys.setBufferMode id mode size).2.host := by
  unfold setBufferMode
  dsimp only
  split
  · exact .refl _
  obtain ⟨r, heap, he⟩ := releaseGrant_eq
    ⟨sys.streams.set id ((sys.streams.get id).bare mode), sys.heap, sys.host⟩
    (sys.streams.get id).storage.owned?
  unfold Stream.bare at he
  rw [he]
  cases r with
  | error e => exact .refl _
  | ok _ =>
    exact chooseBuffer_fetching
      ⟨sys.streams.set id ((sys.streams.get id).bare mode), heap, sys.host⟩ id mode size

end StreamSystem

namespace Ledger

open StreamSystem

variable {sys : StreamSystem} {held : List Allocation}

/-- One slot's part of a poll. -/
theorem pollSlot_moves (hl : Ledger sys held) (report : PollReport) (id : StreamId) :
    Moves sys [] (StreamSystem.pollSlot (report, sys) id).2 := by
  obtain ⟨harrival, -, -⟩ := hl.arrival report id
  generalize StreamSystem.pollSlot (report, sys) id = result at harrival ⊢
  cases harrival with
  | idle _ => exact .refl sys
  | failed hstate _ hf => exact .fails hstate hf
  | arrived hstate _ _ hf hlen _ => exact .arrives hstate hf hlen

theorem poll_moves (hl : Ledger sys held) : Moves sys [] sys.poll.2 := by
  have hfold : ∀ (ids : List StreamId) (sys : StreamSystem) (report : PollReport),
      Ledger sys held → Moves sys [] (ids.foldl StreamSystem.pollSlot (report, sys)).2 := by
    intro ids
    induction ids with
    | nil => exact fun sys _ _ => .refl sys
    | cons id rest ih =>
      intro sys report hl
      have hl' := (hl.arrival report id).2.1
      exact (hl.pollSlot_moves report id).trans_nil (ih _ _ hl')
  exact hfold _ sys {} hl

end Ledger

namespace Client

open StreamSystem

/-- The slots that a call opens. -/
def opens (c : Client) : Call → List StreamId
  | .openStream name mode => (c.system.openStream name mode).1.toOption.toList
  | .reopen id name mode => (c.system.reopen id name mode).1.toOption.toList
  | _ => []

/-- Every call is a sequence of moves. -/
theorem perform_moves {c : Client} (hl : Ledger c.system c.held) (call : Call) :
    Moves c.system (c.opens call) (c.perform call).system := by
  cases call with
  | heap r => exact .host ⟨rfl, rfl, rfl⟩
  | poke address block => exact .host ⟨rfl, rfl, rfl⟩
  | addResource name content => exact .addResource c.system name content
  | completeFetches => exact .completeFetches c.system
  | openStream name mode => exact c.system.openStream_moves name mode
  | reopen id name mode => exact c.system.reopen_moves id name mode
  | close id => exact (c.system.close_moves id).1
  | poll =>
    simp only [Client.perform, serve, opens]
    exact hl.poll_moves
  | setBufferMode id mode size =>
    change Moves c.system [] (c.system.setBufferMode id mode size).2
    have hf := c.system.setBufferMode_fetching id mode size
    cases ho : (c.system.streams.get id).isOpen with
    | true =>
      obtain ⟨result, s, heap, host, he, -, hs, -, -⟩ := hl.setBufferMode ho mode size
      rw [he] at hf ⊢
      exact .stays hs.stays hf
    | false =>
      rw [setBufferMode_of_closed ho]
      exact .refl _
  | setUserBuffer id grant mode =>
    change Moves c.system [] (c.system.setUserBuffer id grant mode).2
    cases ho : (c.system.streams.get id).isOpen with
    | true =>
      obtain ⟨heap, he, -⟩ := hl.setUserBuffer ho grant mode
      rw [he]
      exact .stays (Stream.lent_stays _ grant mode) (.refl _)
    | false =>
      rw [setUserBuffer_of_closed ho]
      exact .refl _
  | readByte id => exact onOpen_moves c.system id fun s h => Stream.readByte_serves s h _
  | readLine id buf =>
    change Moves c.system [] (c.system.readLine id buf).2.2
    unfold StreamSystem.readLine
    split
    · exact .refl _
    · exact readInto_moves c.system id buf Stream.readLine_serves
  | read id buf =>
    change Moves c.system [] (c.system.read id buf).2.2
    unfold StreamSystem.read
    split
    · exact .refl _
    · exact readInto_moves c.system id buf Stream.read_serves
  | pushBack id b => exact onOpen_moves c.system id fun s h => Stream.pushBack_serves s h id b
  | writeByte id b => exact onOpen_moves c.system id fun s h => Stream.writeByte_serves s h id b
  | write id block => exact onOpen_moves c.system id fun s h => Stream.write_serves s h id block
  | writePieces id pieces => exact writePieces_moves c.system id pieces
  | flush id => exact onOpen_moves c.system id Stream.drain_serves
  | flushAll =>
    simp only [Client.perform, serve, opens]
    exact c.system.flushAll_moves
  | seek id offset whence =>
    exact onOpen_moves c.system id fun s h => Stream.seek_serves s h id offset whence
  | tell id => exact onOpen_moves c.system id Stream.Serves.refl
  | rewind id => exact onOpen_moves c.system id fun s h => Stream.rewind_serves s h id
  | clearError id => exact onOpen_moves c.system id fun s h => .flags s h false false

/-- A run of allowed calls, with the slots that it opens in this order. -/
inductive Runs (allowed : Client → Call → Prop) : Client → List StreamId → Client → Prop
  | refl (c : Client) : Runs allowed c [] c
  | call {c c' : Client} {ids : List StreamId} (call : Call) : Runs allowed c ids c' →
      allowed c' call → Runs allowed c (ids ++ c'.opens call) (c'.perform call)

variable {allowed : Client → Call → Prop} {c c' : Client} {ids : List StreamId}
  {limits : HeapLimits} {host : Host}

/-- A run is a sequence of moves too. -/
theorem Runs.moves (hallowed : ∀ c call, allowed c call → c.Entitled call)
    (hr : Runs allowed c ids c') (hl : Ledger c.system c.held) :
    Ledger c'.system c'.held ∧ Moves c.system ids c'.system := by
  induction hr with
  | refl => exact ⟨hl, .refl _⟩
  | call call _ ha ih =>
    exact ⟨ih.1.perform (hallowed _ call ha), ih.2.trans (perform_moves ih.1 call)⟩

/-- The data of a readable stream are where its reads look for them. -/
theorem Reachable.loaded (hr : Reachable limits host Entitled c) (i : StreamId) :
    (c.system.streams.get i).Loaded := by
  have hall : ∀ i, (c.system.streams.get i).Loaded := by
    induction hr with
    | start ha =>
      have hinitial : ∀ i, (StreamTable.initial.get i).readable = false := by decide
      intro i
      have hi : ((Client.start limits host).system.streams.get i).readable = false := hinitial i
      exact ⟨by simp [hi], by simp [hi], by simp [hi]⟩
    | call call hr _ ih => exact (perform_moves (hr.ledger fun _ _ he => he) call).loaded ih
  exact hall i

end Client
end GuestLibrary
