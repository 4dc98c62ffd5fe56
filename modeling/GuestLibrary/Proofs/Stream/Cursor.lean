import GuestLibrary.Proofs.Stream.Emission
import GuestLibrary.Proofs.Stream.Moves

/-! Reading as movements of a cursor in a block of bytes. The model knows neither memory nor
buffers; a ready readable stream shows it as the front of its buffer, its cursor and its end-of-data
flag, and each reading operation of the stream is the one of the model. -/
namespace GuestLibrary

/-- A call that reads from a slot or positions it. -/
inductive CursorCall
  | readByte
  | readLine (buf : Bytes)
  | read (buf : Bytes)
  | pushBack (b : UInt8)
  | seek (offset : Int) (whence : Whence)
  | tell
  | rewind

/-- What such a call returns; a call that fills a buffer returns the buffer too. -/
inductive Answer
  | byte (result : Except StreamError UInt8)
  | filled (result : Except StreamError Nat) (buf : Bytes)
  | done (result : Except StreamError Unit)
  | position (result : Except StreamError Nat)

/-- A cursor in a block of bytes, and whether a read ran into the end. -/
structure ByteCursor where
  content : Bytes
  position : Nat
  eof : Bool

namespace ByteCursor

/-- The bytes from the cursor on. -/
def rest (v : ByteCursor) : Bytes := v.content.drop v.position

def readByte (v : ByteCursor) : Except StreamError UInt8 × ByteCursor :=
  match v.content[v.position]? with
  | some b => (.ok b, { v with position := v.position + 1 })
  | none => (.error .endOfData, { v with eof := true })

/-- Takes `n` bytes, or all there are, and notes the end of the data when there are fewer. -/
def take (v : ByteCursor) (n : Nat) : Bytes × ByteCursor :=
  let got := v.rest.take n
  (got, { v with position := v.position + got.length, eof := v.eof || v.rest.length < n })

/-- Fills the front of a buffer with as many bytes as there are. -/
def read (v : ByteCursor) (buf : Bytes) : Except StreamError Nat × Bytes × ByteCursor :=
  let (got, v) := v.take buf.length
  (.ok got.length, got ++ buf.drop got.length, v)

/-- Bytes through the next newline; more than there are when there is none. -/
def lineLength (v : ByteCursor) : Nat := v.rest.findIdx (· == 10) + 1

/-- Fills the front of a buffer with a line, or with the part of it that leaves room for the NUL
behind it. -/
def readLine (v : ByteCursor) (buf : Bytes) : Except StreamError Nat × Bytes × ByteCursor :=
  if buf.length < 2 then (.ok 0, buf.map fun _ => 0, v)
  else if v.rest = [] then (.error .endOfData, buf, { v with eof := true })
  else
    let (got, v) := v.take (min v.lineLength (buf.length - 1))
    (.ok got.length, got ++ 0 :: buf.drop (got.length + 1), v)

/-- Steps back and stores a byte there. -/
def pushBack (v : ByteCursor) (id : StreamId) (b : UInt8) :
    Except StreamError UInt8 × ByteCursor :=
  if v.position = 0 then (.error (.misuse (.pushBackRejected id)), v)
  else (.ok b, ⟨v.content.set (v.position - 1) b, v.position - 1, false⟩)

/-- Moves to a place in the data or right behind them. -/
def seek (v : ByteCursor) (id : StreamId) (offset : Int) (whence : Whence) :
    Except StreamError Unit × ByteCursor :=
  let moveTo := fun (target : Int) =>
    if 0 ≤ target ∧ target ≤ v.content.length then
      (Except.ok (), { v with position := target.toNat, eof := false })
    else
      (.error (.outOfRange (min target SignedRange.long.greatest) v.content.length), v)
  match whence with
  | .start => moveTo offset
  | .current => moveTo (v.position + offset)
  | .fin => (.error (.misuse (.seekFromEnd id)), v)

/-- The answer to a call for a slot, and the cursor after it. -/
def answer (v : ByteCursor) (id : StreamId) : CursorCall → Answer × ByteCursor
  | .readByte => (.byte v.readByte.1, v.readByte.2)
  | .readLine buf => (.filled (v.readLine buf).1 (v.readLine buf).2.1, (v.readLine buf).2.2)
  | .read buf => (.filled (v.read buf).1 (v.read buf).2.1, (v.read buf).2.2)
  | .pushBack b => (.byte (v.pushBack id b).1, (v.pushBack id b).2)
  | .seek offset whence => (.done (v.seek id offset whence).1, (v.seek id offset whence).2)
  | .tell => (.position (.ok v.position), v)
  | .rewind => (.done (.ok ()), { v with position := 0, eof := false })

/-- The calls with their answers, and the cursor after them all. -/
def replay (v : ByteCursor) (id : StreamId) (calls : List CursorCall) :
    List (CursorCall × Answer) × ByteCursor :=
  calls.foldl
    (fun (log, v) call => (log ++ [(call, (v.answer id call).1)], (v.answer id call).2)) ([], v)

variable {v : ByteCursor} {n : Nat}

theorem replay_append (v : ByteCursor) (id : StreamId) (calls : List CursorCall)
    (call : CursorCall) : v.replay id (calls ++ [call]) =
      ((v.replay id calls).1 ++ [(call, ((v.replay id calls).2.answer id call).1)],
        ((v.replay id calls).2.answer id call).2) := by
  unfold replay
  rw [List.foldl_append]
  rfl

theorem take_zero (v : ByteCursor) : v.take 0 = ([], v) := by
  simp [take]

/-- Taking bytes where there are none notes the end of the data. -/
theorem take_of_rest_nil (hr : v.rest = []) (hn : 0 < n) :
    v.take n = ([], { v with eof := true }) := by
  simp [take, hr, hn]

theorem rest_next {b : UInt8} {tail : Bytes} (hr : v.rest = b :: tail) :
    rest { v with position := v.position + 1 } = tail := by
  have hdrop := congrArg (List.drop 1) hr
  unfold rest at hdrop ⊢
  rw [List.drop_drop] at hdrop
  exact hdrop

/-- Taking bytes one at a time. -/
theorem take_succ {b : UInt8} {tail : Bytes} (hr : v.rest = b :: tail) (n : Nat) :
    v.take (n + 1) =
      (b :: (take { v with position := v.position + 1 } n).1,
        (take { v with position := v.position + 1 } n).2) := by
  unfold take
  rw [hr, rest_next hr]
  simp [Nat.add_assoc, Nat.add_comm 1]

theorem readByte_of_nil (hr : v.rest = []) :
    v.readByte = (.error .endOfData, { v with eof := true }) := by
  have hnone : v.content[v.position]? = none :=
    List.getElem?_eq_none (List.drop_eq_nil_iff.mp hr)
  unfold readByte
  rw [hnone]

theorem readByte_of_cons {b : UInt8} {tail : Bytes} (hr : v.rest = b :: tail) :
    v.readByte = (.ok b, { v with position := v.position + 1 }) := by
  have hsome : v.content[v.position]? = some b := by
    rw [← List.head?_drop]
    exact congrArg List.head? hr
  unfold readByte
  rw [hsome]

/-- Nothing changes if more is asked for than could be there. -/
theorem take_min (v : ByteCursor) (n : Nat) : v.take (min n (v.rest.length + 1)) = v.take n := by
  unfold take
  by_cases hn : n ≤ v.rest.length
  · rw [Nat.min_eq_left (by omega)]
  · rw [Nat.min_eq_right (by omega), List.take_of_length_le (by omega),
      List.take_of_length_le (by omega)]
    have h₁ : v.rest.length < v.rest.length + 1 := by omega
    have h₂ : v.rest.length < n := by omega
    simp [h₁, h₂]

end ByteCursor

namespace Stream

variable {s s' : Stream} {m m' : LinearMemory} {h h' : Host}

/-- A ready readable stream whose data are inside memory. -/
structure Legible (s : Stream) (m : LinearMemory) : Prop where
  ready : s.isReady = true
  readable : s.readable = true
  loaded : s.Loaded
  inside : ∀ g, s.storage = .owned g → g.address + g.length ≤ m.size

/-- What a stream shows of itself to a reader. -/
def view (s : Stream) (m : LinearMemory) : ByteCursor := ⟨s.bufferFront m s.extent, s.cursor, s.eof⟩

theorem Legible.serves (hs : s.Legible h.arena.memory) (hv : s.Serves h s' h') :
    s'.Legible h'.arena.memory where
  ready := by
    have hready := hs.ready
    unfold isReady at hready ⊢
    rwa [hv.state_eq]
  readable := hv.readable_eq.trans hs.readable
  loaded := hv.stays.loaded hs.loaded
  inside g hg := by
    rw [hv.storage_eq] at hg
    rw [hv.size_eq]
    exact hs.inside g hg

/-- The data are bytes of memory. -/
theorem Legible.content_eq (hs : s.Legible m) {g : Allocation} (hg : s.storage = .owned g)
    (hle : s.extent ≤ g.length) : (s.view m).content = m.read g.address s.extent := by
  have hcovers : m.covers g.address g.length = true := by
    simpa [LinearMemory.covers] using hs.inside g hg
  simp only [view, bufferFront, bufferLength, hg, hcovers, if_true, Nat.min_eq_left hle]

theorem Legible.covered (hs : s.Legible m) (hpos : 0 < s.extent) :
    s.Covered m ∧ s.extent ≤ s.room := by
  obtain ⟨g, hg, hle⟩ := hs.loaded.own hs.readable hpos
  refine ⟨fun g' hg' => ?_, by simpa [room, hg] using hle⟩
  rw [hg] at hg'
  obtain rfl := Option.some.inj hg'
  exact hs.inside g hg

theorem Legible.length_content (hs : s.Legible m) : (s.view m).content.length = s.extent := by
  by_cases hpos : 0 < s.extent
  · obtain ⟨hc, hroom⟩ := hs.covered hpos
    exact length_bufferFront hc hroom
  · have hzero : s.extent = 0 := by omega
    simp [view, hzero]

/-- The stream finds the bytes of the view in its buffer. -/
theorem Legible.bufferByte?_of_lt (hs : s.Legible m) {i : Nat} (hi : i < s.extent) :
    s.bufferByte? m i = (s.view m).content[i]? := by
  obtain ⟨hc, hroom⟩ := hs.covered (Nat.zero_lt_of_lt hi)
  exact bufferByte?_eq hc hi hroom

theorem view_readByte (hs : s.Legible m) :
    ((s.readByte m).1, (s.readByte m).2.view m) = (s.view m).readByte := by
  have hlength := hs.length_content
  unfold readByte ByteCursor.readByte
  rw [if_neg (by simp [hs.readable]), if_neg (by simp [hs.ready])]
  change _ = match (s.view m).content[s.cursor]? with
    | some b => _
    | none => _
  by_cases hend : s.extent ≤ s.cursor
  · rw [if_pos hend, List.getElem?_eq_none (by omega)]
    rfl
  · rw [if_neg hend, hs.bufferByte?_of_lt (by omega), List.getElem?_eq_getElem (by omega)]
    rfl

/-- Reading up to a byte that stops it takes the bytes through that one. -/
theorem view_readWhile (stop : UInt8 → Bool) (h : Host) (n : Nat) (hs : s.Legible h.arena.memory) :
    let v := s.view h.arena.memory
    let count := min n (v.rest.findIdx stop + 1)
    v.take count = ((s.readWhile stop h.arena.memory n).1,
      (s.readWhile stop h.arena.memory n).2.2.view h.arena.memory) ∧
    (s.readWhile stop h.arena.memory n).2.1 =
      if v.rest.length < count then some .endOfData else none := by
  dsimp only
  induction n generalizing s with
  | zero => simp [readWhile, ByteCursor.take_zero]
  | succ n ih =>
    have hread := view_readByte hs
    have hlegible := hs.serves (readByte_serves s h h.arena.memory)
    unfold readWhile
    generalize s.view h.arena.memory = v at hread ⊢
    rcases hbyte : s.readByte h.arena.memory with ⟨result, s'⟩
    rw [hbyte] at hread hlegible
    dsimp only at hread hlegible
    cases hrest : v.rest with
    | nil =>
      rw [ByteCursor.readByte_of_nil hrest] at hread
      obtain ⟨rfl, hview⟩ := Prod.mk.inj hread
      have hcount : min (n + 1) (List.findIdx stop [] + 1) = 1 := by simp
      rw [hcount, ByteCursor.take_of_rest_nil hrest (by omega), ← hview]
      exact ⟨rfl, rfl⟩
    | cons b tail =>
      rw [ByteCursor.readByte_of_cons hrest] at hread
      obtain ⟨rfl, hview⟩ := Prod.mk.inj hread
      have hnext := ByteCursor.rest_next hrest
      rw [← hview] at hnext
      cases hstop : stop b with
      | true =>
        have hcount : min (n + 1) (List.findIdx stop (b :: tail) + 1) = 0 + 1 := by
          simp [List.findIdx_cons, hstop]
        rw [hcount, ByteCursor.take_succ hrest, ByteCursor.take_zero]
        simp [hstop, hview]
      | false =>
        have hcount : min (n + 1) (List.findIdx stop (b :: tail) + 1) =
            min n (List.findIdx stop tail + 1) + 1 := by
          simp only [List.findIdx_cons, hstop, cond_false]
          omega
        obtain ⟨htake, herror⟩ := ih hlegible
        rw [hnext] at htake herror
        rw [hcount, ByteCursor.take_succ hrest, ← hview, htake]
        simp only [hstop, Bool.false_eq_true, if_false, herror, List.length_cons,
          Nat.add_lt_add_iff_right, and_self]

theorem overwrite_front (buf block : Bytes) :
    buf.overwrite 0 block = block ++ buf.drop block.length := by
  simp [Bytes.overwrite]

theorem view_read (hs : s.Legible h.arena.memory) (buf : Bytes) :
    ((s.read h.arena.memory buf).1, (s.read h.arena.memory buf).2.1,
      (s.read h.arena.memory buf).2.2.view h.arena.memory) =
        (s.view h.arena.memory).read buf := by
  obtain ⟨htake, herror⟩ := view_readWhile (fun _ => false) h buf.length hs
  have hcount : List.findIdx (fun _ => false) (s.view h.arena.memory).rest =
      (s.view h.arena.memory).rest.length :=
    List.findIdx_eq_length.mpr fun _ _ => rfl
  rw [hcount, ByteCursor.take_min] at htake
  unfold ByteCursor.read read
  rw [htake]
  split
  · rename_i e s' hr
    rw [hr] at herror
    have he : e = .endOfData := by
      split at herror
      · exact Option.some.inj herror
      · cases herror
    rw [hr, if_pos he]
    rfl
  · rename_i got e s' _ hr
    rw [hr, overwrite_front]

theorem view_readLine (hs : s.Legible h.arena.memory) (buf : Bytes) :
    ((s.readLine h.arena.memory buf).1, (s.readLine h.arena.memory buf).2.1,
      (s.readLine h.arena.memory buf).2.2.view h.arena.memory) =
        (s.view h.arena.memory).readLine buf := by
  unfold ByteCursor.readLine
  by_cases hshort : buf.length < 2
  · rw [if_pos hshort]
    rcases buf with _ | ⟨x, _ | ⟨y, tail⟩⟩
    · rfl
    · rfl
    · simp at hshort
  · obtain ⟨htake, herror⟩ := view_readWhile (· == 10) h (buf.length - 1) hs
    rw [Nat.min_comm] at htake herror
    unfold readLine
    rcases hr : s.readWhile (· == 10) h.arena.memory (buf.length - 1) with ⟨got, e, s'⟩
    rw [hr] at htake herror
    dsimp only at htake herror
    rw [if_neg hshort]
    by_cases hrest : (s.view h.arena.memory).rest = []
    · have hcount : min (List.findIdx (· == 10) (s.view h.arena.memory).rest + 1)
          (buf.length - 1) = 1 := by
        simp only [hrest, List.findIdx_nil]
        omega
      rw [hcount, ByteCursor.take_of_rest_nil hrest (by omega)] at htake
      rw [hcount, if_pos (by simp [hrest])] at herror
      obtain ⟨rfl, hview⟩ := Prod.mk.inj htake
      rw [if_pos hrest, herror, hview]
    · have hgot : got.length ≤ buf.length - 1 ∧ got ≠ [] := by
        have hfst : List.take _ (s.view h.arena.memory).rest = got := congrArg Prod.fst htake
        rw [← hfst]
        refine ⟨?_, ?_⟩
        · rw [List.length_take]
          omega
        · rw [Ne, List.take_eq_nil_iff]
          simp only [hrest, or_false]
          omega
      have hfits : (got ++ [0]).length ≤ buf.length := by
        rw [List.length_append, List.length_singleton]
        omega
      rw [if_neg hrest]
      unfold ByteCursor.lineLength
      rw [htake]
      split
      · rename_i he
        exact absurd (Prod.mk.inj he).1 hgot.2
      · rename_i he
        obtain ⟨rfl, -, rfl⟩ : got = _ ∧ e = _ ∧ s' = _ := by simpa using he
        rw [List.take_of_length_le hfits, overwrite_front]
        simp

theorem view_pushBack (hs : s.Legible h.arena.memory) (id : StreamId) (b : UInt8) :
    ((s.pushBack h id b).1, (s.pushBack h id b).2.1.view (s.pushBack h id b).2.2.arena.memory) =
      (s.view h.arena.memory).pushBack id b := by
  have hposition : (s.view h.arena.memory).position = s.cursor := rfl
  unfold ByteCursor.pushBack pushBack
  rw [hposition]
  by_cases hzero : s.cursor = 0
  · rw [if_pos (by simp [hzero]), if_pos hzero]
  · have hle := hs.loaded.cursor_le hs.readable
    obtain ⟨g, hg, hextent⟩ := hs.loaded.own hs.readable (by omega)
    have hinside := hs.inside g hg
    have hcovers : h.arena.memory.covers g.address g.length = true := by
      simpa [LinearMemory.covers] using hinside
    have hstored : storeByte? { s with cursor := s.cursor - 1, eof := false } h.arena
        (s.cursor - 1) b = some ({ s with cursor := s.cursor - 1, eof := false },
          h.arena.write (g.address + (s.cursor - 1)) [b]) := by
      simp only [storeByte?, bufferLength, hg, hcovers, if_true]
      rw [if_pos (by omega)]
    rw [if_neg (by simp [hs.readable, hs.ready, hzero]), if_neg hzero]
    dsimp only
    rw [hstored, hs.content_eq hg hextent, ← LinearMemory.read_write_byte (by omega) (by omega)]
    simp only [Option.getD_some, view, bufferFront, bufferLength, hg, Arena.memory_write,
      LinearMemory.covers, LinearMemory.size_write, hinside, decide_true, if_true,
      Nat.min_eq_left hextent]

theorem positioningError?_of_legible {m : LinearMemory} (hs : s.Legible m) (id : StreamId)
    (operation : String) : s.positioningError? id operation = none := by
  unfold positioningError?
  rw [if_neg (by simp [hs.readable]), if_neg (by simp [hs.ready])]

theorem view_seek (hs : s.Legible m) (id : StreamId) (offset : Int) (whence : Whence) :
    ((s.seek id offset whence).1, (s.seek id offset whence).2.view m) =
      (s.view m).seek id offset whence := by
  have hposition : (s.view m).position = s.cursor := rfl
  unfold seek ByteCursor.seek
  rw [positioningError?_of_legible hs, hs.length_content, hposition]
  cases whence with
  | start | current =>
    dsimp only
    split <;> rfl
  | fin => rfl

end Stream
namespace CursorCall

/-- The call, made for a slot. -/
def on (id : StreamId) : CursorCall → Call
  | readByte => .readByte id
  | readLine buf => .readLine id buf
  | read buf => .read id buf
  | pushBack b => .pushBack id b
  | seek offset whence => .seek id offset whence
  | tell => .tell id
  | rewind => .rewind id

end CursorCall

namespace StreamSystem

variable {sys : StreamSystem} {id : StreamId}

/-- What a call for a slot returns. -/
def answer (sys : StreamSystem) (id : StreamId) : CursorCall → Answer
  | .readByte => .byte (sys.readByte id).1
  | .readLine buf => .filled (sys.readLine id buf).1 (sys.readLine id buf).2.1
  | .read buf => .filled (sys.read id buf).1 (sys.read id buf).2.1
  | .pushBack b => .byte (sys.pushBack id b).1
  | .seek offset whence => .done (sys.seek id offset whence).1
  | .tell => .position (sys.tell id).1
  | .rewind => .done (sys.rewind id).1

/-- What a slot shows of its stream to a reader. -/
def cursor (sys : StreamSystem) (id : StreamId) : ByteCursor :=
  (sys.streams.get id).view sys.host.arena.memory

/-- A legible slot serves every call as the cursor does that it shows. -/
theorem serve_cursor (hs : (sys.streams.get id).Legible sys.host.arena.memory)
    (call : CursorCall) : ∃ s host,
      sys.serve (call.on id) = ⟨sys.streams.set id s, sys.heap, host⟩ ∧
      (sys.streams.get id).Serves sys.host s host ∧
      (sys.answer id call, s.view host.arena.memory) = (sys.cursor id).answer id call := by
  have hopen : (sys.streams.get id).isOpen = true := by
    have hready := hs.ready
    simp only [Stream.isReady, decide_eq_true_eq] at hready
    simp [Stream.isOpen, hready]
  cases call with
  | readByte =>
    have hcall : sys.readByte id = _ := onOpen_of_open hopen
    have hview := Stream.view_readByte hs
    refine ⟨_, _, congrArg (·.2) hcall, Stream.readByte_serves _ _ _, ?_⟩
    simp only [answer, ByteCursor.answer]
    rw [hcall, cursor, ← hview]
  | readLine buf =>
    have hcall : sys.readLine id buf = sys.readInto id buf Stream.readLine :=
      if_neg (by simp [hopen])
    have hview := Stream.view_readLine hs buf
    refine ⟨_, _, congrArg (·.2.2) hcall, Stream.readLine_serves _ _ _ _, ?_⟩
    simp only [answer, ByteCursor.answer]
    rw [hcall, cursor, ← hview]
    rfl
  | read buf =>
    have hcall : sys.read id buf = sys.readInto id buf Stream.read :=
      if_neg (by simp [hopen])
    have hview := Stream.view_read hs buf
    refine ⟨_, _, congrArg (·.2.2) hcall, Stream.read_serves _ _ _ _, ?_⟩
    simp only [answer, ByteCursor.answer]
    rw [hcall, cursor, ← hview]
    rfl
  | pushBack b =>
    have hcall : sys.pushBack id b = _ := onOpen_of_open hopen
    have hview := Stream.view_pushBack hs id b
    refine ⟨_, _, congrArg (·.2) hcall, Stream.pushBack_serves _ _ id b, ?_⟩
    simp only [answer, ByteCursor.answer]
    rw [hcall, cursor, ← hview]
  | seek offset whence =>
    have hcall : sys.seek id offset whence = _ := onOpen_of_open hopen
    have hview := Stream.view_seek hs id offset whence
    refine ⟨_, _, congrArg (·.2) hcall, Stream.seek_serves _ _ id offset whence, ?_⟩
    simp only [answer, ByteCursor.answer]
    rw [hcall, cursor, ← hview]
  | tell =>
    have hcall : sys.tell id = _ := onOpen_of_open hopen
    have hfree := Stream.positioningError?_of_legible hs id "ftell"
    refine ⟨_, _, congrArg (·.2) hcall, .refl _ _, ?_⟩
    simp only [answer, ByteCursor.answer]
    rw [hcall, Stream.tell, hfree]
    rfl
  | rewind =>
    have hcall : sys.rewind id = _ := onOpen_of_open hopen
    have hfree := Stream.positioningError?_of_legible hs id "rewind"
    refine ⟨_, _, congrArg (·.2) hcall, Stream.rewind_serves _ _ id, ?_⟩
    simp only [answer, ByteCursor.answer]
    rw [hcall, Stream.rewind, hfree]
    rfl

end StreamSystem
end GuestLibrary
