import GuestLibrary.Guest.Machine
import GuestLibrary.Proofs.Heap.Arithmetic

/-! What a guest program gets from its heap. Failures are booked beside the heap, so that a program
has the heap that a call leaves; a call on words stops the program exactly where it stops the heap.
-/
namespace GuestLibrary
namespace Guest

variable {g g' : Guest} {size : Nat}

section Booking

/-- Reporting a diagnostic leaves heap and memory alone. -/
theorem report_eq (g : Guest) (d : Diagnostic) :
    (g.report d).heap = g.heap ∧ (g.report d).host.arena = g.host.arena := by
  unfold report
  dsimp only
  by_cases hemits : g.config.diagnostics.emits = true
  · rw [if_pos hemits]
    exact ⟨rfl, rfl⟩
  · rw [if_neg hemits]
    exact ⟨rfl, rfl⟩

/-- Booking a failure leaves heap and memory alone. -/
theorem allocFailed_eq (g : Guest) (e : AllocError) :
    (g.allocFailed e).heap = g.heap ∧ (g.allocFailed e).host.arena = g.host.arena := by
  cases e with
  | exhausted | overflow => exact ⟨rfl, rfl⟩
  | misuse d => exact (g.setErrorNumber _).report_eq d

variable {α : Type}

/-- A program gets from its heap what the heap grants. -/
theorem onHeap_fst (g : Guest) (f : Heap → Arena → Except AllocError α × Heap × Arena) :
    (g.onHeap f).1 = (f g.heap g.host.arena).1.toOption := by
  unfold onHeap onSystem Guest.heap Guest.host
  dsimp only
  cases (f g.system.heap g.system.host.arena).1 with
  | error e => rfl
  | ok x => rfl

/-- A program has the heap and the memory that the heap has left. -/
theorem onHeap_snd (g : Guest) (f : Heap → Arena → Except AllocError α × Heap × Arena) :
    (g.onHeap f).2.heap = (f g.heap g.host.arena).2.1 ∧
      (g.onHeap f).2.host.arena = (f g.heap g.host.arena).2.2 := by
  obtain ⟨config, ⟨streams, heap, host⟩, calendar, counts, number, random, exits, quickExits⟩ := g
  simp only [Guest.heap, Guest.host]
  unfold onHeap onSystem
  dsimp only
  cases (f heap host.arena).1 with
  | ok x => exact ⟨rfl, rfl⟩
  | error e => exact allocFailed_eq _ e

variable {f : Heap → Arena → Except AllocError α × Heap × Arena}
  {onWords : Heap → Arena → Except Stop (Except AllocError α × Heap × Arena)}

theorem onHeap_of_ok (he : onWords g.heap g.host.arena = .ok (f g.heap g.host.arena)) :
    Machine.onHeap g onWords = .ok (g.onHeap f) := by
  obtain ⟨config, ⟨streams, heap, host⟩, calendar, counts, number, random, exits, quickExits⟩ := g
  have he : onWords heap host.arena = .ok (f heap host.arena) := he
  simp only [Machine.onHeap, Machine.onSystem, he, bind, Except.bind, pure, Except.pure, onHeap,
    onSystem]
  cases (f heap host.arena).1 <;> rfl

theorem onHeap_of_error {stop : Stop} (he : onWords g.heap g.host.arena = .error stop) :
    Machine.onHeap g onWords = .error stop := by
  obtain ⟨config, ⟨streams, heap, host⟩, calendar, counts, number, random, exits, quickExits⟩ := g
  have he : onWords heap host.arena = .error stop := he
  simp only [Machine.onHeap, Machine.onSystem, he, bind, Except.bind]

end Booking

/-- What a program has on its heap lies in a memory that there can be, and so does all that its host
admits. -/
structure Bounded (g : Guest) : Prop where
  sound : g.heap.Sound g.host.arena
  bounded : g.heap.Bounded g.host.arena
  ceiling : g.host.arena.memory.maxPages * pageSize < Word.bufferLimit

/-- A request stops the heap of a program. -/
def Stops (g : Guest) (r : Heap.Request) : Prop := r.Stops g.heap g.host.arena

namespace Bounded

theorem of_eq (hb : g.Bounded) (he : g'.heap = g.heap ∧ g'.host.arena = g.host.arena) :
    g'.Bounded := by
  obtain ⟨hheap, harena⟩ := he
  constructor
  · rw [hheap, harena]
    exact hb.sound
  · rw [hheap, harena]
    exact hb.bounded
  · rw [harena]
    exact hb.ceiling

theorem write (hb : g.Bounded) (address : Nat) (block : Bytes) :
    (g.write address block).Bounded where
  sound := hb.sound.write address block
  bounded := hb.bounded.write address block
  ceiling := by
    have hsame : (g.write address block).host.arena = g.host.arena.write address block := rfl
    rw [hsame, Arena.memory_write, LinearMemory.maxPages_write]
    exact hb.ceiling

theorem misuse (hb : g.Bounded) (d : Diagnostic) : (g.misuse d).Bounded :=
  hb.of_eq ((g.setErrorNumber _).report_eq d)

/-- Only a size within a page of the last word stops the heap. -/
theorem not_stops (hb : g.Bounded) {r : Heap.Request} (hfits : Heap.Fits r.total) : ¬ g.Stops r :=
  hb.bounded.not_stops hfits hb.ceiling

end Bounded

section Calls

variable {α : Type} {f : Heap → Arena → Except AllocError α × Heap × Arena}
  {onWords : Heap → Arena → Except Stop (Except AllocError α × Heap × Arena)} {stops : Prop}

/-- What a call makes of the heap it makes of the program. -/
theorem onHeap_computes (hf : Heap.Computes stops (onWords g.heap g.host.arena)
      (f g.heap g.host.arena))
    (hsound : (f g.heap g.host.arena).2.1.Sound (f g.heap g.host.arena).2.2)
    (hceiling : (f g.heap g.host.arena).2.2.memory.maxPages * pageSize < Word.bufferLimit) :
    Stop.Computes (·.2.Bounded) stops (Machine.onHeap g onWords) (g.onHeap f) where
  stopped hstops := by
    obtain ⟨stop, hstop, he⟩ := hf.stopped hstops
    exact ⟨stop, hstop, onHeap_of_error he⟩
  computed hnot := onHeap_of_ok (hf.computed hnot)
  kept hnot := by
    obtain ⟨hheap, harena⟩ := g.onHeap_snd f
    constructor
    · rw [hheap, harena]
      exact hsound
    · rw [hheap, harena]
      exact hf.kept hnot
    · rw [harena]
      exact hceiling

theorem Bounded.ceiling_perform (hb : g.Bounded) (r : Heap.Request) :
    (g.heap.perform g.host.arena r).2.2.memory.maxPages * pageSize < Word.bufferLimit := by
  rw [Heap.maxPages_perform hb.sound]
  exact hb.ceiling

theorem malloc_computes (hb : g.Bounded) (size : Nat) :
    Stop.Computes (·.2.Bounded) (g.Stops (.allocate size)) (Machine.malloc g size)
      (g.malloc size) :=
  onHeap_computes (Heap.allocateFor_computes hb.bounded .malloc size)
    (hb.sound.perform (.allocate size)) (hb.ceiling_perform (.allocate size))

theorem calloc_computes (hb : g.Bounded) (count size : Nat) :
    Stop.Computes (·.2.Bounded) (g.Stops (.allocateZeroed count size))
      (Machine.calloc g count size) (g.calloc count size) :=
  onHeap_computes (Heap.allocateZeroed_computes hb.bounded hb.sound count size)
    (hb.sound.perform (.allocateZeroed count size))
    (hb.ceiling_perform (.allocateZeroed count size))

theorem realloc_computes (hb : g.Bounded) (current : Option Allocation) (size : Nat) :
    Stop.Computes (·.2.Bounded) (g.Stops (.reallocate current size))
      (Machine.realloc g current size) (g.realloc current size) :=
  onHeap_computes (Heap.reallocate_computes hb.bounded current size)
    (hb.sound.perform (.reallocate current size)) (hb.ceiling_perform (.reallocate current size))

/-- A call that gives back a grant and leaves memory alone is never stopped. -/
theorem onHeap_releases (hb : g.Bounded) (r : Heap.Request)
    (onWords : Heap → Except Stop (Except AllocError Unit × Heap))
    (release : Heap → Except AllocError Unit × Heap)
    (he : onWords g.heap = .ok (release g.heap))
    (hreleased : (release g.heap).2.Bounded g.host.arena)
    (hr : (g.heap.perform g.host.arena r).2 = ((release g.heap).2, g.host.arena)) :
    (Machine.onHeap g fun h a => onWords h >>= fun x => .ok (x.1, x.2, a)) >>=
        (fun x => .ok x.2) = Except.ok (g.onHeap fun h a => ((release h).1, (release h).2, a)).2 ∧
      (g.onHeap fun h a => ((release h).1, (release h).2, a)).2.Bounded := by
  have hsound := hb.sound.perform r
  have hceiling := hb.ceiling_perform r
  rw [hr] at hsound hceiling
  have hcomputes : Heap.Computes False (onWords g.heap >>= fun x => .ok (x.1, x.2, g.host.arena))
      ((release g.heap).1, (release g.heap).2, g.host.arena) :=
    .of_ok id (by rw [he]; rfl) hreleased
  have honHeap : Stop.Computes (·.2.Bounded) False
      (Machine.onHeap g fun h a => onWords h >>= fun x => .ok (x.1, x.2, a))
      (g.onHeap fun h a => ((release h).1, (release h).2, a)) :=
    onHeap_computes hcomputes hsound hceiling
  exact ⟨by rw [honHeap.computed id]; rfl, honHeap.kept id⟩

theorem free_eq (hb : g.Bounded) (grant : Allocation) :
    Machine.free g grant = .ok (g.free grant) ∧ (g.free grant).Bounded := by
  obtain ⟨he, hreleased⟩ := Heap.release_eq hb.bounded grant
  exact onHeap_releases hb (.release grant) (Heap.Machine.release · grant) (·.release grant) he
    hreleased rfl

theorem freeAddress_eq (hb : g.Bounded) (address : Nat) :
    Machine.freeAddress g address = .ok (g.freeAddress address) ∧
      (g.freeAddress address).Bounded := by
  obtain ⟨he, hreleased⟩ := Heap.releaseAddress_eq hb.bounded address
  exact onHeap_releases hb (.releaseAddress address) (Heap.Machine.releaseAddress · address)
    (·.releaseAddress address) he hreleased rfl

/-- The grant that a program resizes by its address: by 0 it resizes none. -/
def resized? (g : Guest) (address : Nat) : Option (Option Allocation) :=
  if address = 0 then some none else (g.heap.lookup .realloc address).toOption.map some

/-- A grant that is resized is live. -/
theorem live_of_resized? (hb : g.Bounded) {address : Nat} {current : Option Allocation}
    (hcurrent : g.resized? address = some current) :
    ∀ c, current = some c → c ∈ g.heap.liveAllocations := by
  rintro c rfl
  unfold resized? at hcurrent
  split at hcurrent
  · cases hcurrent
  · cases hl : g.heap.lookup .realloc address with
    | error d =>
      rw [hl] at hcurrent
      cases hcurrent
    | ok x =>
      rw [hl] at hcurrent
      obtain rfl := Option.some.inj (Option.some.inj hcurrent)
      exact ((Heap.lookup_eq_ok_iff hb.sound).mp hl).1

/-- A resize by address is the resize of the grant there, or is refused. -/
theorem reallocAddress_cases (hb : g.Bounded) (address size : Nat) :
    (∃ current, g.resized? address = some current ∧
      g.reallocAddress address size =
        ((g.realloc current size).1.elim 0 (·.address), (g.realloc current size).2) ∧
      Machine.reallocAddress g address size = do
        let (r, g) ← Machine.realloc g current size
        return (r.elim 0 (·.address), g)) ∨
    (g.resized? address = none ∧ ∃ d, g.reallocAddress address size = (0, g.misuse d) ∧
      Machine.reallocAddress g address size = .ok (0, g.misuse d)) := by
  by_cases hz : address = 0
  · refine Or.inl ⟨none, if_pos hz, ?_, ?_⟩
    · exact if_pos hz
    · exact if_pos hz
  · have hresized : g.resized? address = (g.heap.lookup .realloc address).toOption.map some :=
      if_neg hz
    rw [hresized]
    simp only [reallocAddress, Machine.reallocAddress, if_neg hz, lookup, Machine.lookup,
      Heap.lookup_eq hb.bounded, bind, Except.bind, pure, Except.pure]
    cases hl : g.heap.lookup .realloc address with
    | ok x => exact Or.inl ⟨some x, rfl, rfl, rfl⟩
    | error d => exact Or.inr ⟨rfl, d, rfl, rfl⟩

theorem reallocAddress_computes (hb : g.Bounded) (address size : Nat) :
    Stop.Computes (·.2.Bounded)
      (∃ current, g.resized? address = some current ∧ g.Stops (.reallocate current size))
      (Machine.reallocAddress g address size) (g.reallocAddress address size) := by
  rcases reallocAddress_cases hb address size with
    ⟨current, hcurrent, he, hrun⟩ | ⟨hnone, d, he, hrun⟩
  · rw [he, hrun]
    have hresized : Stop.Computes (·.2.Bounded) (g.Stops (.reallocate current size))
        (do
          let (r, g) ← Machine.realloc g current size
          return (r.elim 0 (·.address), g))
        ((g.realloc current size).1.elim 0 (·.address), (g.realloc current size).2) :=
      (realloc_computes hb current size).bind fun _ hkept => ⟨rfl, hkept⟩
    refine hresized.congr ?_
    constructor
    · exact fun hstops => ⟨current, hcurrent, hstops⟩
    · rintro ⟨current', hcurrent', hstops⟩
      obtain rfl := Option.some.inj (hcurrent.symm.trans hcurrent')
      exact hstops
  · rw [he, hrun]
    refine .of_ok ?_ rfl (hb.misuse d)
    rintro ⟨current, hcurrent, -⟩
    cases hnone.symm.trans hcurrent

end Calls

section Serving

/-- A program has got what it asked its heap for, or nothing: a grant lies in memory and has room
for `size` bytes. -/
structure Served (grant : Option Allocation) (g : Guest) (size : Nat) : Prop where
  inside : ∀ x, grant = some x → x.address + x.length ≤ g.memory.size
  size_le : ∀ x, grant = some x → size ≤ x.length

/-- A grant that lies in memory has room for all its bytes. -/
theorem room_of_inside {x : Allocation} (hx : x.address + x.length ≤ g.memory.size) :
    g.room x = x.length :=
  if_pos (decide_eq_true hx)

theorem served_onHeap {f : Heap → Arena → Except AllocError Allocation × Heap × Arena}
    (hsound : (f g.heap g.host.arena).2.1.Sound (f g.heap g.host.arena).2.2)
    (hlive : ∀ x, (f g.heap g.host.arena).1 = .ok x →
      x ∈ (f g.heap g.host.arena).2.1.liveAllocations ∧ size ≤ x.length) :
    Served (g.onHeap f).1 (g.onHeap f).2 size := by
  obtain ⟨-, harena⟩ := g.onHeap_snd f
  have hmemory : (g.onHeap f).2.memory = (f g.heap g.host.arena).2.2.memory :=
    congrArg (·.memory) harena
  have hok : ∀ x, (g.onHeap f).1 = some x → (f g.heap g.host.arena).1 = .ok x := by
    intro x hx
    rw [onHeap_fst] at hx
    cases hr : (f g.heap g.host.arena).1 with
    | error e =>
      rw [hr] at hx
      cases hx
    | ok y =>
      rw [hr] at hx
      exact congrArg Except.ok (Option.some.inj hx)
  refine ⟨fun x hx => ?_, fun x hx => (hlive x (hok x hx)).2⟩
  rw [hmemory]
  exact (Heap.bounds_of_live hsound (hlive x (hok x hx)).1).2

theorem served_malloc (hb : g.Bounded) (size : Nat) :
    Served (g.malloc size).1 (g.malloc size).2 size :=
  served_onHeap (hb.sound.perform (.allocate size)) fun _ hok =>
    Heap.live_of_allocateFor hb.sound hok

theorem served_calloc (hb : g.Bounded) (count size : Nat) :
    Served (g.calloc count size).1 (g.calloc count size).2 (count * size) :=
  served_onHeap (hb.sound.perform (.allocateZeroed count size)) fun _ hok =>
    Heap.live_of_allocateZeroed hb.sound hok

theorem served_realloc (hb : g.Bounded) {current : Option Allocation}
    (hcurrent : ∀ c, current = some c → c ∈ g.heap.liveAllocations) (size : Nat) :
    Served (g.realloc current size).1 (g.realloc current size).2 size := by
  refine served_onHeap (hb.sound.perform (.reallocate current size)) fun x hok => ?_
  cases current with
  | none => exact Heap.live_of_allocateFor hb.sound hok
  | some c => exact Heap.live_of_resize hb.sound hok (Or.inl (hcurrent c rfl))

/-- Whatever address a program resizes, the bytes at the new one lie in memory. -/
theorem reallocAddress_inside (hb : g.Bounded) (address size : Nat)
    (hne : (g.reallocAddress address size).1 ≠ 0) :
    (g.reallocAddress address size).1 + size ≤ (g.reallocAddress address size).2.memory.size := by
  rcases reallocAddress_cases hb address size with ⟨current, hcurrent, he, -⟩ | ⟨-, d, he, -⟩
  · have hserved := served_realloc hb (live_of_resized? hb hcurrent) size
    rw [he] at hne ⊢
    cases hgrant : (g.realloc current size).1 with
    | none =>
      rw [hgrant] at hne
      exact absurd rfl hne
    | some x =>
      exact Nat.le_trans (Nat.add_le_add_left (hserved.size_le x hgrant) _)
        (hserved.inside x hgrant)
  · rw [he] at hne
    exact absurd rfl hne

end Serving

/-- A program starts unless its table is larger than any buffer. -/
theorem start_computes {host : Host} (hs : host.arena.Simulated)
    (hsize : host.arena.memory.size < Word.bufferLimit)
    (hceiling : host.arena.memory.maxPages * pageSize < Word.bufferLimit) (config : GuestConfig) :
    Stop.Computes Bounded
      (Word.bufferLimit ≤ config.limits.maxBlocks * Heap.Machine.blockBytes)
      (Machine.start host config) (Guest.start host config) := by
  unfold Machine.start Heap.Machine.ofLimits
  by_cases htable : config.limits.maxBlocks * Heap.Machine.blockBytes < Word.bufferLimit
  · rw [Word.buffer_eq htable]
    exact .of_ok (Nat.not_le.mpr htable) rfl
      ⟨Heap.sound_ofLimits config.limits hs.heapBase_lt,
        Heap.bounded_ofLimits hs hsize htable, hceiling⟩
  · rw [Word.buffer_stops (Nat.le_of_not_lt htable)]
    exact .of_stop (Nat.le_of_not_lt htable) ⟨.capacity, Or.inr (Or.inr rfl), rfl⟩

end Guest
end GuestLibrary
