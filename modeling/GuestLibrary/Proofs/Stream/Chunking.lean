import GuestLibrary.Proofs.Stream.Bounds

/-! How written bytes are cut into chunks. A reference takes the bytes one by one and knows nothing
of calls, of storage or of memory; every buffered stream emits the chunks that it emits and keeps
pending what it keeps, whatever calls the bytes arrive in. -/
namespace GuestLibrary

/-- The chunks that went out, and the bytes that have not. -/
structure Chunker where
  chunks : List Bytes := []
  pending : Bytes := []
  deriving DecidableEq, Repr

namespace Chunker

/-- Sends out what is pending. -/
def emit (c : Chunker) : Chunker := ⟨c.chunks ++ [c.pending], []⟩

def append (c : Chunker) (b : UInt8) : Chunker := { c with pending := c.pending ++ [b] }

/-- Takes a byte. What is pending goes out before it where it fills the buffer, and behind it where
a line ends. -/
def push (mode : BufferMode) (capacity : Nat) (c : Chunker) (b : UInt8) : Chunker :=
  let c := (if c.pending.length = capacity then c.emit else c).append b
  if mode = .line ∧ b = 10 then c.emit else c

/-- What becomes of a sequence of bytes. -/
def run (mode : BufferMode) (capacity : Nat) (bytes : Bytes) : Chunker :=
  bytes.foldl (push mode capacity) {}

variable {c : Chunker} {capacity : Nat} {bytes : Bytes}

/-- Chunks of the size of the buffer, and behind them the rest of the bytes. -/
structure Even (capacity : Nat) (bytes : Bytes) (c : Chunker) : Prop where
  flatten_eq : c.chunks.flatten ++ c.pending = bytes
  length_le : c.pending.length ≤ capacity
  length_eq : ∀ chunk ∈ c.chunks, chunk.length = capacity
  pending_ne : c.chunks ≠ [] → c.pending ≠ []

/-- Without lines only full buffers go out. -/
theorem Even.push (he : Even capacity bytes c) (hpos : 0 < capacity) (b : UInt8) :
    Even capacity (bytes ++ [b]) (c.push .full capacity b) := by
  unfold Chunker.push
  rw [if_neg (by simp)]
  split
  · rename_i hfull
    refine ⟨?_, hpos, fun chunk hmem => ?_, by simp [append, emit]⟩
    · simp [append, emit, ← he.flatten_eq]
    · rcases List.mem_append.mp hmem with hmem | hmem
      · exact he.length_eq chunk hmem
      · rw [List.mem_singleton.mp hmem]
        exact hfull
  · rename_i hroom
    have hlt := Nat.lt_of_le_of_ne he.length_le hroom
    refine ⟨?_, ?_, he.length_eq, by simp [append]⟩
    · simp [append, ← he.flatten_eq]
    · simpa [append] using hlt

theorem even_run (hpos : 0 < capacity) (bytes : Bytes) :
    Even capacity bytes (run .full capacity bytes) := by
  induction bytes using List.reverseRecOn with
  | nil => exact ⟨rfl, Nat.zero_le _, by simp [run], fun h => absurd rfl h⟩
  | append_singleton bytes b ih =>
    unfold run at ih ⊢
    rw [List.foldl_append]
    exact ih.push hpos b

/-- The first chunk goes out with the byte that finds the buffer full. -/
theorem Even.chunks_eq_nil_iff (he : Even capacity bytes c) :
    c.chunks = [] ↔ bytes.length ≤ capacity := by
  rw [← he.flatten_eq, List.length_append]
  constructor
  · intro hnil
    simpa [hnil] using he.length_le
  · intro hle
    by_contra hne
    obtain ⟨chunk, rest, hcons⟩ := List.exists_cons_of_ne_nil hne
    have hlen := he.length_eq chunk (by simp [hcons])
    have hpos := List.length_pos_of_ne_nil (he.pending_ne hne)
    simp only [hcons, List.flatten_cons, List.length_append] at hle
    omega

/-- By lines nothing but an unfinished line is pending. -/
theorem newline_not_mem_push (h : 10 ∉ c.pending) (b : UInt8) :
    10 ∉ (c.push .line capacity b).pending := by
  have hroom : 10 ∉ (if c.pending.length = capacity then c.emit else c).pending := by
    split
    · exact List.not_mem_nil
    · exact h
  unfold push
  dsimp only
  split
  · exact List.not_mem_nil
  · rename_i hb
    have hb : 10 ≠ b := fun he => hb ⟨rfl, he.symm⟩
    simpa [append, hb] using hroom

theorem newline_not_mem_run (capacity : Nat) (bytes : Bytes) :
    10 ∉ (run .line capacity bytes).pending := by
  induction bytes using List.reverseRecOn with
  | nil => exact List.not_mem_nil
  | append_singleton bytes b ih =>
    unfold run at ih ⊢
    rw [List.foldl_append]
    exact newline_not_mem_push ih b

end Chunker

namespace Stream

/-- A buffered stream and the chunker that took the same bytes since the console held `before`. -/
structure Tracks (before : List Bytes) (mode : BufferMode) (capacity : Nat) (s : Stream) (h : Host)
    (c : Chunker) : Prop where
  fits : s.Fits
  writable : s.writable = true
  covered : s.Covered h.arena.memory
  mode_eq : s.mode = mode
  capacity_eq : s.capacity = capacity
  console_eq : h.console.chunks.toList = before ++ c.chunks
  waiting_eq : s.waiting h.arena.memory = c.pending

namespace Tracks

variable {before : List Bytes} {mode : BufferMode} {capacity : Nat} {s s' : Stream} {h h' : Host}
  {c c' : Chunker} {chunks : List Bytes} {accepted : Bytes}

theorem cursor_eq (ht : Tracks before mode capacity s h c) : s.cursor = c.pending.length := by
  have hle := (ht.fits.cursor_le ht.writable).trans (ht.fits.capacity_le ht.writable)
  rw [← ht.waiting_eq, waiting_of_writable ht.writable, length_bufferFront ht.covered hle]

theorem emits (ht : Tracks before mode capacity s h c) (he : s.Emits h s' h' chunks accepted)
    (hchunks : c'.chunks = c.chunks ++ chunks)
    (hwaiting : s'.waiting h'.arena.memory = c'.pending) :
    Tracks before mode capacity s' h' c' where
  fits := he.fits
  writable := he.serves.writable_eq.trans ht.writable
  covered := ht.covered.serves he.serves
  mode_eq := he.serves.mode_eq.trans ht.mode_eq
  capacity_eq := he.serves.capacity_eq.trans ht.capacity_eq
  console_eq := by rw [he.console_eq, ht.console_eq, hchunks, List.append_assoc]
  waiting_eq := hwaiting

/-- A flush sends out what is pending. -/
theorem flush (ht : Tracks before mode capacity s h c) (hne : c.pending ≠ []) :
    Tracks before mode capacity (s.flush h).1 (s.flush h).2 c.emit := by
  obtain ⟨⟨chunks, he⟩, hz⟩ := flush_emits ht.fits ht.writable ht.covered
  have hcursor : s.cursor ≠ 0 := by
    rw [ht.cursor_eq]
    exact fun hlen => hne (List.eq_nil_of_length_eq_zero hlen)
  have hconsole : (s.flush h).2.console.chunks.toList =
      h.console.chunks.toList ++ [c.pending] := by
    unfold Stream.flush
    rw [if_neg hcursor, ← ht.waiting_eq, waiting_of_writable ht.writable]
    exact console_push _ _
  refine ht.emits he ?_ (waiting_of_cursor hz)
  rw [he.console_eq] at hconsole
  rw [List.append_cancel_left hconsole]
  rfl

/-- Storing a byte appends it to what is pending. -/
theorem store (ht : Tracks before mode capacity s h c) (hu : s.isUnbuffered = false)
    (hlt : s.cursor < s.capacity) (b : UInt8) :
    ∃ s' arena, s.storeByte? h.arena s.cursor b = some (s', arena) ∧
      Tracks before mode capacity { s' with cursor := s'.cursor + 1 } { h with arena }
        (c.append b) := by
  obtain ⟨s', arena, hb, he⟩ := store_emits (b := b) ht.fits ht.writable ht.covered hu hlt
  refine ⟨s', arena, hb, ht.emits he (List.append_nil _).symm ?_⟩
  have hbalance := he.balance
  rw [ht.waiting_eq] at hbalance
  exact hbalance.symm

theorem isUnbuffered (ht : Tracks before mode capacity s h c) (hmode : mode ≠ .none)
    (hpos : 0 < capacity) : s.isUnbuffered = false := by
  simp only [Stream.isUnbuffered, ht.mode_eq, ht.capacity_eq, Bool.or_eq_false_iff,
    decide_eq_false_iff_not]
  exact ⟨hmode, hpos.ne'⟩

/-- One byte: room is made, the byte is stored, and a line goes out. -/
theorem writeByte (ht : Tracks before mode capacity s h c) (hmode : mode ≠ .none)
    (hpos : 0 < capacity) (id : StreamId) (b : UInt8) :
    ∃ s' h', s.writeByte h id b = (.ok b, s', h') ∧
      Tracks before mode capacity s' h' (c.push mode capacity b) := by
  have hroom : Tracks before mode capacity (if s.capacity ≤ s.cursor then s.flush h else (s, h)).1
      (if s.capacity ≤ s.cursor then s.flush h else (s, h)).2
      (if c.pending.length = capacity then c.emit else c) ∧
      (if s.capacity ≤ s.cursor then s.flush h else (s, h)).1.cursor < capacity := by
    have hle := ht.fits.cursor_le ht.writable
    rw [ht.capacity_eq, ht.cursor_eq] at *
    split
    · rename_i hfull
      have hlen : c.pending.length = capacity := Nat.le_antisymm hle hfull
      have hne : c.pending ≠ [] := List.ne_nil_of_length_pos (hlen ▸ hpos)
      have hflushed := ht.flush hne
      rw [if_pos hlen]
      refine ⟨hflushed, ?_⟩
      rw [hflushed.cursor_eq]
      exact hpos
    · rename_i hfull
      rw [if_neg (by omega)]
      exact ⟨ht, by rw [ht.cursor_eq]; omega⟩
  rw [writeByte_eq s h id b ht.writable (ht.isUnbuffered hmode hpos)]
  generalize (if s.capacity ≤ s.cursor then s.flush h else (s, h)) = p at hroom ⊢
  obtain ⟨s₁, h₁⟩ := p
  obtain ⟨ht₁, hlt⟩ := hroom
  dsimp only at ht₁ hlt ⊢
  rw [← ht₁.capacity_eq] at hlt
  obtain ⟨s₂, arena, hb, ht₂⟩ := ht₁.store (ht₁.isUnbuffered hmode hpos) hlt b
  rw [hb]
  dsimp only
  unfold Chunker.push
  dsimp only
  have hmode₂ : s₂.mode = mode := ht₂.mode_eq
  by_cases hline : mode = .line ∧ b = 10
  · rw [if_pos (hmode₂ ▸ hline), if_pos hline]
    exact ⟨_, _, rfl, ht₂.flush (by simp [Chunker.append])⟩
  · rw [if_neg (hmode₂ ▸ hline), if_neg hline]
    exact ⟨_, _, rfl, ht₂⟩

theorem writeBytes (hmode : mode ≠ .none) (hpos : 0 < capacity) (id : StreamId) (block : Bytes)
    (ht : Tracks before mode capacity s h c) :
    ∃ s' h', writeBytes id block s h = (.ok (), s', h') ∧
      Tracks before mode capacity s' h' (block.foldl (Chunker.push mode capacity) c) := by
  induction block generalizing s h c with
  | nil => exact ⟨s, h, rfl, ht⟩
  | cons b rest ih =>
    obtain ⟨s₁, h₁, hb, ht₁⟩ := ht.writeByte hmode hpos id b
    obtain ⟨s₂, h₂, hr, ht₂⟩ := ih ht₁
    refine ⟨s₂, h₂, ?_, ht₂⟩
    rw [Stream.writeBytes, hb]
    exact hr

theorem write (ht : Tracks before mode capacity s h c) (hmode : mode ≠ .none) (hpos : 0 < capacity)
    (id : StreamId) (block : Bytes) :
    ∃ s' h', s.write h id block = (.ok block.length, s', h') ∧
      Tracks before mode capacity s' h' (block.foldl (Chunker.push mode capacity) c) := by
  obtain ⟨s', h', hb, ht'⟩ := ht.writeBytes hmode hpos id block
  unfold Stream.write
  rw [if_neg (by simp [ht.isUnbuffered hmode hpos]), hb]
  exact ⟨s', h', rfl, ht'⟩

theorem isOpen (ht : Tracks before mode capacity s h c) : s.isOpen = true := by
  simp [Stream.isOpen, ht.fits.ready ht.writable]

end Tracks

end Stream

/-- A call that writes. -/
inductive Writing
  | byte (b : UInt8)
  | block (bytes : Bytes)
  /-- Formatted output, which arrives in pieces. -/
  | pieces (parts : List Bytes)

/-- The bytes that a call writes. -/
def Writing.bytes : Writing → Bytes
  | byte b => [b]
  | block bytes => bytes
  | pieces parts => parts.flatten

namespace StreamSystem

/-- A call that writes to a slot: how many bytes it wrote. -/
def putWriting (sys : StreamSystem) (id : StreamId) : Writing → Outcome Nat
  | .byte b =>
    let (r, sys) := sys.writeByte id b
    (r.map fun _ => 1, sys)
  | .block bytes => sys.write id bytes
  | .pieces parts => writePieces id parts sys

/-- Calls that write to a slot, one after the other. -/
def putWritings (sys : StreamSystem) (id : StreamId) :
    List Writing → List (Except StreamError Nat) × StreamSystem
  | [] => ([], sys)
  | w :: rest =>
    let (r, sys) := sys.putWriting id w
    let (answers, sys) := sys.putWritings id rest
    (r :: answers, sys)

/-- The stream of a slot and a chunker that took the same bytes. -/
def Tracks (before : List Bytes) (mode : BufferMode) (capacity : Nat) (id : StreamId)
    (sys : StreamSystem) (c : Chunker) : Prop :=
  (sys.streams.get id).Tracks before mode capacity sys.host c

namespace Tracks

variable {before : List Bytes} {mode : BufferMode} {capacity : Nat} {id : StreamId}
  {sys : StreamSystem} {c : Chunker}

/-- What an operation makes of the stream it makes of the system. -/
theorem onOpen {α : Type} {f : Stream → Host → Except StreamError α × Stream × Host}
    (ht : Tracks before mode capacity id sys c) {r : Except StreamError α} {s' : Stream}
    {h' : Host} {c' : Chunker} (hf : f (sys.streams.get id) sys.host = (r, s', h'))
    (ht' : s'.Tracks before mode capacity h' c') :
    ∃ sys', sys.onOpen id f = (r, sys') ∧ Tracks before mode capacity id sys' c' := by
  refine ⟨⟨sys.streams.set id s', sys.heap, h'⟩, ?_, ?_⟩
  · rw [onOpen_of_open ht.isOpen, hf]
  · unfold Tracks
    rw [StreamTable.get_set_self]
    exact ht'

theorem write (ht : Tracks before mode capacity id sys c) (hmode : mode ≠ .none)
    (hpos : 0 < capacity) (block : Bytes) :
    ∃ sys', sys.write id block = (.ok block.length, sys') ∧
      Tracks before mode capacity id sys' (block.foldl (Chunker.push mode capacity) c) := by
  obtain ⟨s', h', hb, ht'⟩ := Stream.Tracks.write ht hmode hpos id block
  exact ht.onOpen hb ht'

theorem writePieces (hmode : mode ≠ .none) (hpos : 0 < capacity) (parts : List Bytes)
    (ht : Tracks before mode capacity id sys c) :
    ∃ sys', writePieces id parts sys = (.ok parts.flatten.length, sys') ∧
      Tracks before mode capacity id sys'
        (parts.flatten.foldl (Chunker.push mode capacity) c) := by
  induction parts generalizing sys c with
  | nil => exact ⟨sys, rfl, ht⟩
  | cons part rest ih =>
    obtain ⟨sys₁, hb, ht₁⟩ := ht.write hmode hpos part
    obtain ⟨sys₂, hr, ht₂⟩ := ih ht₁
    rw [List.flatten_cons, List.foldl_append, List.length_append]
    refine ⟨sys₂, ?_, ht₂⟩
    rw [StreamSystem.writePieces, hb]
    dsimp only
    rw [hr]

theorem putWriting (ht : Tracks before mode capacity id sys c) (hmode : mode ≠ .none)
    (hpos : 0 < capacity) (w : Writing) :
    ∃ sys', sys.putWriting id w = (.ok w.bytes.length, sys') ∧
      Tracks before mode capacity id sys' (w.bytes.foldl (Chunker.push mode capacity) c) := by
  cases w with
  | byte b =>
    obtain ⟨s', h', hb, ht'⟩ := Stream.Tracks.writeByte ht hmode hpos id b
    obtain ⟨sys', he, ht'⟩ := ht.onOpen (f := fun s h => s.writeByte h id b) hb ht'
    refine ⟨sys', ?_, ht'⟩
    unfold StreamSystem.putWriting StreamSystem.writeByte
    dsimp only
    rw [he]
    rfl
  | block bytes => exact ht.write hmode hpos bytes
  | pieces parts => exact ht.writePieces hmode hpos parts

theorem putWritings (hmode : mode ≠ .none) (hpos : 0 < capacity) (writings : List Writing)
    (ht : Tracks before mode capacity id sys c) :
    ∃ sys', sys.putWritings id writings =
        (writings.map fun w => .ok w.bytes.length, sys') ∧
      Tracks before mode capacity id sys'
        ((writings.flatMap Writing.bytes).foldl (Chunker.push mode capacity) c) := by
  induction writings generalizing sys c with
  | nil => exact ⟨sys, rfl, ht⟩
  | cons w rest ih =>
    obtain ⟨sys₁, hb, ht₁⟩ := ht.putWriting hmode hpos w
    obtain ⟨sys₂, hr, ht₂⟩ := ih ht₁
    rw [List.flatMap_cons, List.foldl_append]
    refine ⟨sys₂, ?_, ht₂⟩
    rw [StreamSystem.putWritings, hb]
    dsimp only
    rw [hr]
    rfl

end Tracks

/-- In every system that any calls lead to, a slot that is written in full buffers or by lines
treats bytes as the reference does, however they are divided into calls: the calls all succeed, the
console takes the chunks of the reference, and what it has pending waits in the slot. So in full
mode each of these chunks fills the buffer and the first goes out with the byte behind a full one,
and in line mode no newline ever waits. -/
theorem chunks_follow_bytes {limits : HeapLimits} {host : Host} {sys : StreamSystem}
    {seen : List Allocation} (hr : Reached limits host sys seen) {id : StreamId}
    (hw : (sys.streams.get id).writable = true) (hmode : (sys.streams.get id).mode ≠ .none)
    (hpos : 1 ≤ (sys.streams.get id).capacity) (hidle : (sys.streams.get id).pending = 0)
    (writings : List Writing) :
    let s := sys.streams.get id
    let bytes := writings.flatMap Writing.bytes
    let out := Chunker.run s.mode s.capacity bytes
    let sys' := (sys.putWritings id writings).2
    (sys.putWritings id writings).1 = (writings.map fun w => .ok w.bytes.length) ∧
    sys'.host.console.chunks.toList = sys.host.console.chunks.toList ++ out.chunks ∧
    sys'.waiting id = out.pending ∧
    (s.mode = .full →
      (∀ chunk ∈ out.chunks, chunk.length = s.capacity) ∧
      (out.chunks = [] ↔ bytes.length ≤ s.capacity)) ∧
    (s.mode = .line → 10 ∉ sys'.waiting id) := by
  intro s bytes out
  dsimp only
  have hb := hr.bounded
  have hcursor : s.cursor = 0 := by simpa [s, Stream.pending, hw] using hidle
  have hstart : Tracks sys.host.console.chunks.toList s.mode s.capacity id sys {} :=
    ⟨hb.fits id, hw, hb.covered id, rfl, rfl, (List.append_nil _).symm,
      Stream.waiting_of_cursor hcursor⟩
  obtain ⟨sys', he, ht⟩ := hstart.putWritings hmode hpos writings
  rw [he]
  refine ⟨rfl, ht.console_eq, ht.waiting_eq, fun hfull => ?_, fun hline => ?_⟩
  · have heven := Chunker.even_run hpos bytes
    rw [← hfull] at heven
    exact ⟨heven.length_eq, heven.chunks_eq_nil_iff⟩
  · have hnot := Chunker.newline_not_mem_run s.capacity bytes
    rw [← hline] at hnot
    have hwaiting : sys'.waiting id = out.pending := ht.waiting_eq
    rw [hwaiting]
    exact hnot

theorem chunks_follow_bytes_stdout :
    ∃ sys, Reached ⟨1, 1⟩ { arena := .ofBase 0 1 } sys [] ∧
      (sys.putWritings .stdout [.byte 72, .block [105, 10], .pieces [[33], [34]]]).2.waiting
        .stdout = [33, 34] := by
  let sys := (Client.start ⟨1, 1⟩ { arena := .ofBase 0 1 }).system
  have hr : Reached ⟨1, 1⟩ { arena := .ofBase 0 1 } sys [] := .start (.ofBase 0 1)
  have hstdout : sys.streams.get .stdout = .standardOutput "stdout" .line := by decide +kernel
  obtain ⟨-, -, hwaiting, -⟩ := @chunks_follow_bytes _ _ _ _ hr .stdout
    (by rw [hstdout]; rfl) (by simp [hstdout, Stream.standardOutput])
    (by rw [hstdout]; exact Nat.le_of_ble_eq_true rfl) (by rw [hstdout]; rfl)
    [.byte 72, .block [105, 10], .pieces [[33], [34]]]
  refine ⟨sys, hr, hwaiting.trans ?_⟩
  rw [hstdout]
  decide +kernel

end StreamSystem
end GuestLibrary
