import GuestLibrary.Proofs.Heap.Reachable

/-! A heap never trusts linear memory: what it decides depends on how large memory is and not on
what it holds. Two runs of the same calls show the same, whatever was written in between. -/
namespace GuestLibrary

/-- Memories that differ at most in what they hold. -/
structure LinearMemory.Alike (m m' : LinearMemory) : Prop where
  size_eq : m'.size = m.size
  maxPages_eq : m'.maxPages = m.maxPages

namespace Arena

/-- Arenas that differ at most in what their memories hold. -/
structure Alike (a a' : Arena) : Prop where
  memory : a.memory.Alike a'.memory
  heapBase_eq : a'.heapBase = a.heapBase
  growths_eq : a'.growths = a.growths

namespace Alike

variable {a a' a'' : Arena}

theorem refl (a : Arena) : a.Alike a := ⟨⟨rfl, rfl⟩, rfl, rfl⟩

theorem symm (ha : a.Alike a') : a'.Alike a :=
  ⟨⟨ha.memory.size_eq.symm, ha.memory.maxPages_eq.symm⟩, ha.heapBase_eq.symm, ha.growths_eq.symm⟩

theorem trans (ha : a.Alike a') (ha' : a'.Alike a'') : a.Alike a'' where
  memory := ⟨ha'.memory.size_eq.trans ha.memory.size_eq,
    ha'.memory.maxPages_eq.trans ha.memory.maxPages_eq⟩
  heapBase_eq := ha'.heapBase_eq.trans ha.heapBase_eq
  growths_eq := ha'.growths_eq.trans ha.growths_eq

theorem of_write (a : Arena) (address : Nat) (block : Bytes) : a.Alike (a.write address block) where
  memory := by
    rw [memory_write]
    refine ⟨LinearMemory.size_write _ _ _, ?_⟩
    rw [LinearMemory.write_eq]
    split <;> rfl
  heapBase_eq := rfl
  growths_eq := rfl

theorem of_copyWithin (a : Arena) (src n dest : Nat) : a.Alike (a.copyWithin src n dest) := by
  have hwrite := of_write a dest (a.memory.read src n)
  refine ⟨⟨LinearMemory.size_copyWithin _ _ _ _, ?_⟩, rfl, rfl⟩
  rw [memory_copyWithin, LinearMemory.copyWithin]
  split
  · exact hwrite.memory.maxPages_eq
  · rfl

theorem write (ha : a.Alike a') (address : Nat) (block : Bytes) :
    (a.write address block).Alike (a'.write address block) :=
  (of_write a address block).symm.trans (ha.trans (of_write a' address block))

theorem copyWithin (ha : a.Alike a') (src n dest : Nat) :
    (a.copyWithin src n dest).Alike (a'.copyWithin src n dest) :=
  (of_copyWithin a src n dest).symm.trans (ha.trans (of_copyWithin a' src n dest))

/-- Both memories grow, to the same address, or neither does. -/
theorem grow? (ha : a.Alike a') (pages : Nat) :
    (a.grow? pages = none ∧ a'.grow? pages = none) ∨
      ∃ base b b', a.grow? pages = some (base, b) ∧ a'.grow? pages = some (base, b') ∧
        b.Alike b' := by
  have hpages : a'.memory.pages = a.memory.pages := by
    rw [LinearMemory.pages, LinearMemory.pages, ha.memory.size_eq]
  unfold Arena.grow? LinearMemory.grow?
  rw [hpages, ha.memory.maxPages_eq, ha.memory.size_eq]
  split
  · exact Or.inl ⟨rfl, rfl⟩
  · refine Or.inr ⟨_, _, _, rfl, rfl, ⟨?_, rfl⟩, ha.heapBase_eq, ?_⟩
    · have hsize : a'.memory.bytes.size = a.memory.bytes.size := ha.memory.size_eq
      simp [LinearMemory.size, hsize]
    · rw [ha.growths_eq]

end Alike
end Arena

namespace Heap

/-- Outcomes of a call that show no difference: only the contents of memory may. -/
structure Matches {α : Type} (x y : α × Heap × Arena) : Prop where
  result_eq : y.1 = x.1
  heap_eq : y.2.1 = x.2.1
  alike : x.2.2.Alike y.2.2

namespace Matches

variable {α β : Type} {x y z : α × Heap × Arena}

theorem eq (hm : Matches x y) :
    ∃ r h a a', x = (r, h, a) ∧ y = (r, h, a') ∧ a.Alike a' :=
  ⟨x.1, x.2.1, x.2.2, y.2.2, rfl, by rw [← hm.result_eq, ← hm.heap_eq], hm.alike⟩

theorem symm (hm : Matches x y) : Matches y x :=
  ⟨hm.result_eq.symm, hm.heap_eq.symm, hm.alike.symm⟩

theorem trans (hm : Matches x y) (hm' : Matches y z) : Matches x z :=
  ⟨hm'.result_eq.trans hm.result_eq, hm'.heap_eq.trans hm.heap_eq, hm.alike.trans hm'.alike⟩

theorem map (hm : Matches x y) (f : α → β) : Matches (f x.1, x.2) (f y.1, y.2) :=
  ⟨congrArg f hm.result_eq, hm.heap_eq, hm.alike⟩

end Matches

section Calls

variable {a a' : Arena} (h : Heap) (ha : a.Alike a')
include ha

theorem nextRegion_alike (need : Nat) : h.nextRegion a' need = h.nextRegion a need := by
  unfold nextRegion
  rw [ha.memory.size_eq, ha.heapBase_eq]

/-- The same region is laid out, or none is. -/
theorem layOut?_alike (start : Option Nat) (len grow : Nat) :
    (layOut? a start len grow = none ∧ layOut? a' start len grow = none) ∨
      ∃ region b b', layOut? a start len grow = some (region, b) ∧
        layOut? a' start len grow = some (region, b') ∧ b.Alike b' := by
  cases start with
  | none =>
    rcases ha.grow? grow with ⟨he, he'⟩ | ⟨base, b, b', he, he', hb⟩
    · exact Or.inl ⟨by simp [layOut?, he], by simp [layOut?, he']⟩
    · refine Or.inr ⟨⟨base, grow * pageSize, grow⟩, b, b', ?_, ?_, hb⟩
      · simp [layOut?, he]
      · simp [layOut?, he']
  | some start =>
    cases grow with
    | zero => exact Or.inr ⟨_, a, a', rfl, rfl, ha⟩
    | succ grow =>
      rcases ha.grow? (grow + 1) with ⟨he, he'⟩ | ⟨base, b, b', he, he', hb⟩
      · exact Or.inl ⟨by simp [layOut?, he], by simp [layOut?, he']⟩
      · by_cases hbase : start + (len - (grow + 1) * pageSize) = base
        · refine Or.inr ⟨⟨start, len, pagesFor len⟩, b, b', ?_, ?_, hb⟩
          · simp [layOut?, he, hbase]
          · simp [layOut?, he', hbase]
        · refine Or.inr ⟨⟨base, (grow + 1) * pageSize, grow + 1⟩, b, b', ?_, ?_, hb⟩
          · simp [layOut?, he, hbase]
          · simp [layOut?, he', hbase]

theorem addRegion_alike (call : HeapCall) (need : Nat) :
    Matches (h.addRegion a call need) (h.addRegion a' call need) := by
  rw [addRegion_eq, addRegion_eq, h.nextRegion_alike ha]
  obtain ⟨start, len, grow⟩ := h.nextRegion a need
  dsimp only
  split
  · exact ⟨rfl, rfl, ha⟩
  split
  · exact ⟨rfl, rfl, ha⟩
  rcases layOut?_alike ha start len grow with ⟨he, he'⟩ | ⟨region, b, b', he, he', hb⟩
  · rw [he, he']
    exact ⟨rfl, rfl, ha⟩
  · rw [he, he']
    dsimp only
    split
    · exact ⟨rfl, rfl, hb⟩
    · exact ⟨rfl, rfl, hb⟩

theorem searchGrowing_alike (call : HeapCall) (need : Nat) :
    Matches (h.searchGrowing a call need) (h.searchGrowing a' call need) := by
  unfold searchGrowing
  split
  · exact ⟨rfl, rfl, ha⟩
  · obtain ⟨r, h₁, b, b', he, he', hb⟩ := (h.addRegion_alike ha call need).eq
    rw [he, he']
    cases r with
    | error e => exact ⟨rfl, rfl, hb⟩
    | ok _ =>
      dsimp only
      split <;> exact ⟨rfl, rfl, hb⟩

theorem commit?_alike (grant : Grant) :
    (h.commit? a grant = none ∧ h.commit? a' grant = none) ∨
      ∃ allocation h₁ b b', h.commit? a grant = some (allocation, h₁, b) ∧
        h.commit? a' grant = some (allocation, h₁, b') ∧ b.Alike b' := by
  unfold commit?
  cases h.table.get? grant.id with
  | none => exact Or.inl ⟨rfl, rfl⟩
  | some b => exact Or.inr ⟨_, _, _, _, rfl, rfl, ha.write b.start (headerBytes grant.id)⟩

theorem allocateFor_alike (call : HeapCall) (size : Nat) :
    Matches (h.allocateFor a call size) (h.allocateFor a' call size) := by
  unfold allocateFor
  dsimp only
  split
  · exact ⟨rfl, rfl, ha⟩
  obtain ⟨r, h₁, b, b', he, he', hb⟩ := (h.searchGrowing_alike ha call (size + blockHeader)).eq
  rw [he, he']
  cases r with
  | error e => exact ⟨rfl, rfl, hb⟩
  | ok grant =>
    dsimp only
    rcases h₁.commit?_alike hb grant with ⟨he, he'⟩ | ⟨allocation, h₂, c, c', he, he', hc⟩
    · rw [he, he']
      exact ⟨rfl, rfl, hb⟩
    · rw [he, he']
      exact ⟨rfl, rfl, hc⟩

theorem allocateZeroed_alike (count size : Nat) :
    Matches (h.allocateZeroed a count size) (h.allocateZeroed a' count size) := by
  unfold allocateZeroed
  dsimp only
  split
  · exact ⟨rfl, rfl, ha⟩
  obtain ⟨r, h₁, b, b', he, he', hb⟩ := (h.allocateFor_alike ha .calloc (count * size)).eq
  rw [he, he']
  cases r with
  | error e => exact ⟨rfl, rfl, hb⟩
  | ok allocation => exact ⟨rfl, rfl, hb.write _ _⟩

theorem searchReplacement_alike (block need : Nat) :
    Matches (h.searchReplacement a block need) (h.searchReplacement a' block need) := by
  unfold searchReplacement
  split
  · exact ⟨rfl, rfl, ha⟩
  split
  · exact ⟨rfl, rfl, ha⟩
  · obtain ⟨r, h₁, b, b', he, he', hb⟩ := (h.addRegion_alike ha .realloc need).eq
    rw [he, he']
    cases r with
    | error e => exact ⟨rfl, rfl, hb⟩
    | ok _ =>
      dsimp only
      split <;> exact ⟨rfl, rfl, hb⟩

/-- Moving a grant copies what memory holds and looks at none of it. -/
theorem resizeLive_alike (current : Allocation) (old : Block) (size need : Nat) :
    Matches (h.resizeLive a current old size need) (h.resizeLive a' current old size need) := by
  unfold resizeLive
  dsimp only
  obtain ⟨r, h₁, b, b', he, he', hb⟩ :=
    (searchReplacement_alike { h with table := h.table.setUsed current.block false } ha
      current.block need).eq
  rw [he, he']
  cases r with
  | none => exact ⟨rfl, rfl, hb⟩
  | some found =>
    obtain ⟨grant, window⟩ := found
    dsimp only
    split
    · exact ⟨rfl, rfl, hb⟩
    rename_i placed _
    have hcopied := hb.copyWithin current.address (min (old.size - blockHeader) size)
      (placed.start + blockHeader)
    rcases commit?_alike { h₁ with live := LiveGrants.erase h₁.live current.address } hcopied grant
      with ⟨he, he'⟩ | ⟨allocation, h₂, c, c', he, he', hc⟩
    · rw [he, he']
      exact ⟨rfl, rfl, hcopied⟩
    · rw [he, he']
      exact ⟨rfl, rfl, hc⟩

theorem resize_alike (current : Allocation) (size : Nat) :
    Matches (h.resize a current size) (h.resize a' current size) := by
  unfold resize
  split
  · exact ⟨rfl, rfl, ha⟩
  rename_i old _
  dsimp only
  split
  · exact ⟨rfl, rfl, ha⟩
  split
  · exact ⟨rfl, rfl, ha⟩
  · exact h.resizeLive_alike ha current old size (size + blockHeader)

theorem perform_alike (r : Request) : Matches (h.perform a r) (h.perform a' r) := by
  cases r with
  | allocate size => exact (h.allocateFor_alike ha .malloc size).map (·.map some)
  | allocateZeroed count size => exact (h.allocateZeroed_alike ha count size).map (·.map some)
  | reallocate current size =>
    cases current with
    | none => exact (h.allocateFor_alike ha .realloc size).map (·.map some)
    | some current => exact (h.resize_alike ha current size).map (·.map some)
  | release grant => exact ⟨rfl, rfl, ha⟩
  | releaseAddress address => exact ⟨rfl, rfl, ha⟩

end Calls

/-- What a program asks of a heap. -/
inductive Query
  | request (r : Request)
  /-- The live grant at an address. -/
  | lookup (call : HeapCall) (address : Nat)

/-- Answers a program, with the grant that it asked for or the failure. -/
def ask (h : Heap) (a : Arena) : Query → Except AllocError (Option Allocation) × Heap × Arena
  | .request r => h.perform a r
  | .lookup call address => (((h.lookup call address).mapError .misuse).map some, h, a)

/-- What a program does next. -/
inductive Turn
  | ask (q : Query)
  /-- It writes to linear memory, wherever it likes. -/
  | write (address : Nat) (block : Bytes)

/-- The queries among the turns of a program. -/
def Turn.query? : Turn → Option Query
  | ask q => some q
  | write .. => none

/-- What a program sees of a heap: the last answer, and all that the heap tells about itself. -/
structure Observation where
  answer : Except AllocError (Option Allocation)
  stats : HeapStats
  grants : List Allocation
  records : List HeapRecord

/-- Plays the turns of a program: what it sees after each query, and where they lead. -/
def play (h : Heap) (a : Arena) : List Turn → List Observation × Heap × Arena
  | [] => ([], h, a)
  | .write address block :: rest => h.play (a.write address block) rest
  | .ask q :: rest =>
    let (answer, h, a) := h.ask a q
    let (seen, h, a) := h.play a rest
    (⟨answer, h.stats, h.liveAllocations, h.records⟩ :: seen, h, a)

variable {a a' : Arena}

theorem ask_alike (h : Heap) (ha : a.Alike a') (q : Query) :
    Matches (h.ask a q) (h.ask a' q) := by
  cases q with
  | request r => exact h.perform_alike ha r
  | lookup call address => exact ⟨rfl, rfl, ha⟩

/-- A run shows what the run of its queries alone shows. -/
theorem play_queries (h : Heap) (ha : a.Alike a') (turns : List Turn) :
    Matches (h.play a turns) (h.play a' ((turns.filterMap Turn.query?).map .ask)) := by
  induction turns generalizing h a a' with
  | nil => exact ⟨rfl, rfl, ha⟩
  | cons turn rest ih =>
    cases turn with
    | write address block => exact ih h ((Arena.Alike.of_write a address block).symm.trans ha)
    | ask q =>
      obtain ⟨answer, h₁, b, b', he, he', hb⟩ := (h.ask_alike ha q).eq
      obtain ⟨seen, h₂, c, c', hr, hr', hc⟩ := (ih h₁ hb).eq
      simp only [Turn.query?, List.filterMap_cons, List.map_cons, play, he, he', hr, hr']
      exact ⟨rfl, rfl, hc⟩

/-- Two runs of the same queries on the same heap, over memories that differ at most in what they
hold, with any writes in between, which need not be the same: after each query both have seen the
same answer, statistics, live grants and log records. -/
theorem contents_never_matter (h : Heap) (ha : a.Alike a') {turns turns' : List Turn}
    (hq : turns.filterMap Turn.query? = turns'.filterMap Turn.query?) :
    (h.play a turns).1 = (h.play a' turns').1 ∧
      (h.play a turns).2.1 = (h.play a' turns').2.1 ∧
      (h.play a turns).2.2.Alike (h.play a' turns').2.2 := by
  have hm := h.play_queries ha turns
  have hm' := h.play_queries (Arena.Alike.refl a') turns'
  rw [hq] at hm
  have heq := hm.trans hm'.symm
  exact ⟨heq.result_eq.symm, heq.heap_eq.symm, heq.alike⟩

/-- Two requests one after the other show their answers. -/
theorem play_requests {h h₁ h₂ : Heap} {a a₁ a₂ : Arena} {r₁ r₂ : Request}
    {x₁ x₂ : Except AllocError (Option Allocation)} (he₁ : h.perform a r₁ = (x₁, h₁, a₁))
    (he₂ : h₁.perform a₁ r₂ = (x₂, h₂, a₂)) :
    (h.play a [.ask (.request r₁), .ask (.request r₂)]).1.map (·.answer) = [x₁, x₂] := by
  simp [play, ask, he₁, he₂]

/-- What a heap of one page answers to an allocation and the release of its grant. -/
theorem play_onePage (hbase : a.heapBase = 0) (hsize : a.memory.size = 65536) :
    ((ofLimits ⟨1, 1⟩).play a [.ask (.request (.allocate 10)),
      .ask (.request (.release ⟨0, 4, 65532⟩))]).1.map (·.answer) =
        [.ok (some ⟨0, 4, 65532⟩), .ok none] := by
  obtain ⟨h, a', he, -, -, hblocks⟩ := perform_onePage hbase hsize
  have hrelease : ∃ h', h.perform a' (.release ⟨0, 4, 65532⟩) = (.ok none, h', a') := by
    simp [perform, release, validate, BlockTable.get?, hblocks, blockHeader, Except.map]
  obtain ⟨h', hrelease⟩ := hrelease
  exact play_requests he hrelease

theorem contents_never_matter_header :
    ((ofLimits ⟨1, 1⟩).play ((Arena.ofBase 0 1).write 0 [1]) [.ask (.request (.allocate 10)),
      .write 0 [7, 7, 7, 7], .ask (.request (.release ⟨0, 4, 65532⟩))]).1.map (·.answer) =
        [.ok (some ⟨0, 4, 65532⟩), .ok none] := by
  rw [(@contents_never_matter _ _ (ofLimits ⟨1, 1⟩) (Arena.Alike.of_write (.ofBase 0 1) 0 [1]).symm
    [.ask (.request (.allocate 10)), .write 0 [7, 7, 7, 7],
      .ask (.request (.release ⟨0, 4, 65532⟩))]
    [.ask (.request (.allocate 10)), .ask (.request (.release ⟨0, 4, 65532⟩))] rfl).1]
  exact play_onePage rfl size_onePage

end Heap
end GuestLibrary
