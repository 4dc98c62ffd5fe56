import GuestLibrary.Proofs.Stream.Emission
import GuestLibrary.Proofs.Stream.Ownership

/-! The books of streams. A call takes the books of every slot from one balance to the next: what
was emitted, followed by what waits, is what was accepted. -/
namespace GuestLibrary

/-- The stream that an event is about. -/
def StreamEvent.id : StreamEvent → StreamId
  | accepted id _ | emitted id _ | discarded id _ => id

namespace Account

variable {id : StreamId} {t events : List StreamEvent} {w w' : Bytes}

theorem ofTrace_append : ofTrace id (t ++ events) = events.foldl (enter id) (ofTrace id t) :=
  List.foldl_append

theorem ofTrace_append_of_ne (h : ∀ e ∈ events, e.id ≠ id) :
    ofTrace id (t ++ events) = ofTrace id t := by
  rw [ofTrace_append]
  generalize ofTrace id t = books
  induction events with
  | nil => rfl
  | cons e rest ih =>
    have hskip : enter id books e = books := by
      have hne := h e (List.mem_cons_self ..)
      cases e <;> exact if_neg hne
    rw [List.foldl_cons, hskip]
    exact ih fun e' he' => h e' (List.mem_cons_of_mem _ he')

/-- What goes out was accepted before. -/
theorem kept_ofTrace_append (h : ∀ e ∈ events, e.chunk?.isSome) :
    (ofTrace id (t ++ events)).kept = (ofTrace id t).kept := by
  rw [ofTrace_append]
  generalize ofTrace id t = books
  induction events generalizing books with
  | nil => rfl
  | cons e rest ih =>
    have hkept : (enter id books e).kept = books.kept := by
      cases e with
      | emitted i chunk =>
        simp only [enter]
        split <;> rfl
      | accepted | discarded => simp [StreamEvent.chunk?] at h
    rw [List.foldl_cons, ih (fun e' he' => h e' (List.mem_cons_of_mem _ he')), hkept]

theorem foldl_emitted (chunks : List Bytes) (books : Account) :
    (chunks.map (.emitted id)).foldl (enter id) books =
      { books with
        emitted := books.emitted ++ chunks
        output := books.output ++ chunks.flatten } := by
  induction chunks generalizing books with
  | nil => simp
  | cons chunk rest ih => simp [enter, ih]

/-- What was emitted, followed by what waits, is what was accepted, since the last change of the
buffer and, without what was discarded, in all. -/
structure Balanced (id : StreamId) (t : List StreamEvent) (w : Bytes) : Prop where
  recent : (ofTrace id t).emitted.flatten ++ w = (ofTrace id t).accepted
  total : (ofTrace id t).output ++ w = (ofTrace id t).kept

theorem Balanced.emits (hb : Balanced id t w) {chunks : List Bytes}
    (h : w = chunks.flatten ++ w') : Balanced id (t ++ chunks.map (.emitted id)) w' := by
  obtain ⟨hr, ht⟩ := hb
  constructor <;> rw [ofTrace_append, foldl_emitted] <;> dsimp only
  · rw [List.flatten_append, List.append_assoc, ← h, hr]
  · rw [List.append_assoc, ← h, ht]

theorem Balanced.accepts (hb : Balanced id t w) {chunks : List Bytes} {bytes : Bytes}
    (h : w ++ bytes = chunks.flatten ++ w') :
    Balanced id (t ++ (chunks.map (.emitted id) ++ [.accepted id bytes])) w' := by
  obtain ⟨hr, ht⟩ := hb
  constructor <;> rw [ofTrace_append, List.foldl_append, foldl_emitted] <;>
    simp only [List.foldl_cons, List.foldl_nil, enter, if_true]
  · rw [List.flatten_append, List.append_assoc, ← h, ← List.append_assoc, hr]
  · rw [List.append_assoc, ← h, ← List.append_assoc, ht]

theorem ofTrace_discarded (id : StreamId) (t : List StreamEvent) (w : Bytes) :
    ofTrace id (t ++ [.discarded id w]) =
      { (ofTrace id t) with
        accepted := []
        emitted := []
        kept := (ofTrace id t).kept.take ((ofTrace id t).kept.length - w.length) } := by
  rw [ofTrace_append]
  exact if_pos rfl

theorem Balanced.discards (hb : Balanced id t w) : Balanced id (t ++ [.discarded id w]) [] := by
  constructor <;> rw [ofTrace_discarded]
  · rfl
  · rw [← hb.total]
    simp

end Account

open Account

namespace StreamEvent

@[simp] theorem chunks_append (t t' : List StreamEvent) :
    chunks (t ++ t') = chunks t ++ chunks t' :=
  List.filterMap_append

@[simp] theorem chunks_emitted (id : StreamId) (cs : List Bytes) :
    chunks (cs.map (.emitted id)) = cs := by
  induction cs with
  | nil => rfl
  | cons c rest ih => exact congrArg (c :: ·) ih

@[simp] theorem chunks_accepted (id : StreamId) (bytes : Bytes) :
    chunks [.accepted id bytes] = [] := rfl

@[simp] theorem chunks_discarded (id : StreamId) (bytes : Bytes) :
    chunks [.discarded id bytes] = [] := rfl

end StreamEvent

/-- From one system to another the console takes the chunks of the events, none of them empty, and
the books of every slot stay balanced. -/
structure Effect (sys sys' : StreamSystem) (events : List StreamEvent) : Prop where
  console_eq : sys'.host.console.chunks.toList =
    sys.host.console.chunks.toList ++ StreamEvent.chunks events
  nonempty : [] ∉ StreamEvent.chunks events
  balanced : ∀ i t, Balanced i t (sys.waiting i) → Balanced i (t ++ events) (sys'.waiting i)

namespace Effect

variable {sys sys' sys'' : StreamSystem} {events events' : List StreamEvent}

theorem refl (sys : StreamSystem) : Effect sys sys [] :=
  ⟨by simp [StreamEvent.chunks], List.not_mem_nil, fun i t hb => by simpa using hb⟩

theorem trans (he : Effect sys sys' events) (he' : Effect sys' sys'' events') :
    Effect sys sys'' (events ++ events') where
  console_eq := by
    rw [he'.console_eq, he.console_eq, StreamEvent.chunks_append, List.append_assoc]
  nonempty := by
    rw [StreamEvent.chunks_append, List.mem_append, not_or]
    exact ⟨he.nonempty, he'.nonempty⟩
  balanced i t hb := by
    rw [← List.append_assoc]
    exact he'.balanced i _ (he.balanced i t hb)

theorem of_waiting (hc : sys'.host.console = sys.host.console)
    (hw : ∀ i, sys'.waiting i = sys.waiting i) : Effect sys sys' [] :=
  ⟨by simp [hc, StreamEvent.chunks], List.not_mem_nil, fun i t hb => by
    rw [hw, List.append_nil]
    exact hb⟩

/-- The chunks that the console took are those of the events. -/
theorem chunksSince_eq (he : Effect sys sys' events) :
    sys.chunksSince sys' = StreamEvent.chunks events := by
  unfold StreamSystem.chunksSince
  rw [he.console_eq, ← Array.length_toList, List.drop_left]

end Effect

/-- A ledger in which what the program lends is its own and lent once, and every stream fits its
buffer. -/
structure Orderly (sys : StreamSystem) (held : List Allocation) : Prop extends Ledger sys held where
  lent_held : ∀ i g, (sys.streams.get i).storage = .borrowed g → g ∈ held
  lent_once : ∀ i j g, (sys.streams.get i).storage = .borrowed g →
    (sys.streams.get j).storage = .borrowed g → i = j
  fits : ∀ i, (sys.streams.get i).Fits

namespace Orderly

variable {sys sys' : StreamSystem} {held held' : List Allocation} {i j id : StreamId}
  {g g' : Allocation} {s : Stream} {heap : Heap} {host : Host} {events : List StreamEvent}

theorem mem_held_or_owned (ho : Orderly sys held) (hne : i ≠ id)
    (hg : (sys.streams.get i).storage.grant? = some g) :
    g ∈ held ++ sys.streams.ownedElsewhere id := by
  rw [List.mem_append]
  rcases BufferStorage.grant?_eq_some.mp hg with hg | hg
  · exact Or.inr (StreamTable.mem_ownedElsewhere.mpr ⟨i, hne, hg⟩)
  · exact Or.inl (ho.lent_held i g hg)

/-- The buffers of streams are live grants. -/
theorem live_of_grant (ho : Orderly sys held)
    (hg : (sys.streams.get i).storage.grant? = some g) : g ∈ sys.heap.liveAllocations := by
  rcases BufferStorage.grant?_eq_some.mp hg with hg | hg
  · exact ho.mem_live_of_owned (StreamTable.mem_owned.mpr ⟨i, hg⟩)
  · exact ho.mem_live_of_held (ho.lent_held i g hg)

/-- Different streams have different buffers. -/
theorem ne_of_grant (ho : Orderly sys held) (hij : i ≠ j)
    (hg : (sys.streams.get i).storage.grant? = some g)
    (hg' : (sys.streams.get j).storage.grant? = some g') : g ≠ g' := by
  rintro rfl
  have hdisjoint := (List.nodup_append.mp ho.nodup).2.2
  rcases BufferStorage.grant?_eq_some.mp hg with hi | hi <;>
    rcases BufferStorage.grant?_eq_some.mp hg' with hj | hj
  · exact hij (ho.owner_unique hj hi)
  · exact hdisjoint g (ho.lent_held j g hj) g (StreamTable.mem_owned.mpr ⟨i, hi⟩) rfl
  · exact hdisjoint g (ho.lent_held i g hi) g (StreamTable.mem_owned.mpr ⟨j, hj⟩) rfl
  · exact hij (ho.lent_once i j g hi hj)

theorem covered (ho : Orderly sys held) (i : StreamId) :
    (sys.streams.get i).Covered sys.host.arena.memory :=
  fun _ hg => (Heap.bounds_of_live ho.sound (ho.live_of_grant hg)).2

/-- What waits in a slot depends on its stream and the bytes of its buffer. -/
theorem waiting_eq (ho : Orderly sys held) (ho' : Orderly sys' held')
    (hs : sys'.streams.get i = sys.streams.get i)
    (hbytes : ∀ g, (sys.streams.get i).storage.grant? = some g → ∀ k, g.address ≤ k →
      k < g.address + g.length →
        sys'.host.arena.memory.get? k = sys.host.arena.memory.get? k) :
    sys'.waiting i = sys.waiting i := by
  have hc' := ho'.covered i
  unfold StreamSystem.waiting
  rw [hs] at hc' ⊢
  exact Stream.bufferFront_congr (ho.covered i) hc' hbytes _

/-- A change of one slot. -/
theorem change (ho : Orderly sys held) (hl : Ledger ⟨sys.streams.set id s, heap, host⟩ held)
    (hf : s.Fits) (hb : ∀ g, s.storage = .borrowed g → g ∈ held ∧
      ∀ i ≠ id, (sys.streams.get i).storage ≠ .borrowed g) :
    Orderly ⟨sys.streams.set id s, heap, host⟩ held where
  toLedger := hl
  lent_held i g hg := by
    dsimp only at hg
    rw [StreamTable.get_set] at hg
    split at hg
    · exact (hb g hg).1
    · exact ho.lent_held i g hg
  lent_once i j g hi hj := by
    dsimp only at hi hj
    rw [StreamTable.get_set] at hi hj
    split at hi <;> split at hj
    · rename_i hid hjd
      rw [hid, hjd]
    · rename_i hjd
      exact absurd hj ((hb g hi).2 j hjd)
    · rename_i hid _
      exact absurd hi ((hb g hj).2 i hid)
    · exact ho.lent_once i j g hi hj
  fits i := by
    dsimp only
    rw [StreamTable.get_set]
    split
    · exact hf
    · exact ho.fits i

/-- The effect of a change of one slot whose events concern that slot alone. -/
theorem effect (ho : Orderly sys held)
    (ho' : Orderly ⟨sys.streams.set id s, heap, host⟩ held')
    (hbytes : ∀ i ≠ id, ∀ g, (sys.streams.get i).storage.grant? = some g → ∀ k, g.address ≤ k →
      k < g.address + g.length → host.arena.memory.get? k = sys.host.arena.memory.get? k)
    (hids : ∀ e ∈ events, e.id = id)
    (hconsole : host.console.chunks.toList =
      sys.host.console.chunks.toList ++ StreamEvent.chunks events)
    (hnonempty : [] ∉ StreamEvent.chunks events)
    (hown : ∀ t, Balanced id t (sys.waiting id) →
      Balanced id (t ++ events) (s.waiting host.arena.memory)) :
    Effect sys ⟨sys.streams.set id s, heap, host⟩ events where
  console_eq := hconsole
  nonempty := hnonempty
  balanced i t hb := by
    by_cases hi : i = id
    · subst hi
      have := hown t hb
      unfold StreamSystem.waiting
      rwa [StreamTable.get_set_self]
    · have hs : (sys.streams.set id s).get i = sys.streams.get i := StreamTable.get_set_of_ne hi
      rw [ho.waiting_eq ho' hs (hbytes i hi)]
      have hskip : ofTrace i (t ++ events) = ofTrace i t := ofTrace_append_of_ne fun e he => by
        rw [hids e he]
        exact Ne.symm hi
      exact ⟨by rw [hskip]; exact hb.recent, by rw [hskip]; exact hb.total⟩

end Orderly
end GuestLibrary
