import GuestLibrary.Host.Basic
import Mathlib

/-! Linear memory byte by byte: what a store, a copy and a growth leave as it was. A read depends
only on the bytes of its range, so facts about ranges follow from facts about single bytes. -/
namespace GuestLibrary

namespace LinearMemory

theorem get?_eq_data (m : LinearMemory) (i : Nat) : m.get? i = m.bytes.data[i]? := by
  unfold get?
  by_cases h : i < m.bytes.size
  · rw [getElem?_pos m.bytes i h, Array.getElem?_eq_getElem (by simpa using h)]
    rfl
  · rw [getElem?_neg m.bytes i h, Array.getElem?_eq_none (by simpa using h)]

/-- A read collects the single bytes of its range. -/
theorem read_eq_filterMap (m : LinearMemory) (address n : Nat) :
    m.read address n = (List.range' address n).filterMap m.get? := by
  induction n generalizing address with
  | zero =>
    have h : min address m.size - address = 0 := by omega
    apply List.eq_nil_of_length_eq_zero
    simp [read]
  | succ n ih =>
    rw [List.range'_succ, List.filterMap_cons, ← ih, get?_eq_data]
    by_cases h : address < m.size
    · have hd : address < m.bytes.data.toList.length := by simpa [size] using h
      rw [Array.getElem?_eq_getElem (by simpa [size] using h)]
      have e : min (address + (n + 1)) m.size = min (address + 1 + n) m.size := by omega
      simp only [read, ByteArray.data_extract, Array.toList_extract, List.extract_eq_take_drop, e]
      rw [List.drop_eq_getElem_cons hd,
        show min (address + 1 + n) m.size - address =
          (min (address + 1 + n) m.size - (address + 1)) + 1 by omega, List.take_succ_cons]
      simp
    · rw [Array.getElem?_eq_none (by simpa [size] using h)]
      have e : min (address + (n + 1)) m.size - address = 0 := by omega
      have e' : min (address + 1 + n) m.size - (address + 1) = 0 := by omega
      simp [read, List.extract_eq_take_drop, e, e']

/-- A read depends only on the bytes of its range. -/
theorem read_congr {m m' : LinearMemory} {address n : Nat}
    (h : ∀ i, address ≤ i → i < address + n → m'.get? i = m.get? i) :
    m'.read address n = m.read address n := by
  rw [read_eq_filterMap, read_eq_filterMap]
  apply List.filterMap_congr
  intro i hi
  rw [List.mem_range'_1] at hi
  exact h i hi.1 hi.2

theorem length_read {m : LinearMemory} {address n : Nat} (h : address + n ≤ m.size) :
    (m.read address n).length = n := by
  have e : m.size = m.bytes.size := rfl
  simp only [read, ByteArray.data_extract, Array.toList_extract, List.extract_eq_take_drop,
    List.length_take, List.length_drop, Array.length_toList, ByteArray.size_data]
  omega

theorem getElem?_read {m : LinearMemory} {address n : Nat} (h : address + n ≤ m.size) {i : Nat}
    (hi : i < n) : (m.read address n)[i]? = m.get? (address + i) := by
  rw [get?_eq_data]
  have e : m.size = m.bytes.size := rfl
  simp only [read, ByteArray.data_extract, Array.toList_extract, List.extract_eq_take_drop]
  rw [List.getElem?_take_of_lt (by omega), List.getElem?_drop, Array.getElem?_toList]

/-- The front of a read is a shorter read. -/
theorem take_read (m : LinearMemory) (address n k : Nat) :
    (m.read address k).take n = m.read address (min n k) := by
  simp only [read, ByteArray.data_extract, Array.toList_extract, List.extract_eq_take_drop,
    List.take_take]
  congr 1
  omega

/-- Two neighbouring reads are one. -/
theorem read_append {m : LinearMemory} {address n k : Nat} :
    m.read address (n + k) = m.read address n ++ m.read (address + n) k := by
  simp only [read_eq_filterMap, ← List.filterMap_append, List.range'_append_1]

theorem size_store (bytes : ByteArray) (address : Nat) (block : Bytes) :
    (store bytes address block).size = bytes.size := by
  induction block generalizing bytes address with
  | nil => rfl
  | cons b rest ih => rw [store, ih, ByteArray.size_set!]

theorem write_eq (m : LinearMemory) (address : Nat) (block : Bytes) :
    m.write address block =
      if address + block.length ≤ m.size then ⟨store m.bytes address block, m.maxPages⟩ else m :=
  rfl

@[simp] theorem size_write (m : LinearMemory) (address : Nat) (block : Bytes) :
    (m.write address block).size = m.size := by
  rw [write_eq]
  split
  · exact size_store _ _ _
  · rfl

@[simp] theorem maxPages_write (m : LinearMemory) (address : Nat) (block : Bytes) :
    (m.write address block).maxPages = m.maxPages := by
  rw [write_eq]
  split <;> rfl

/-- A byte after a store: the byte of the block inside its range, the old byte outside. -/
theorem data_store {bytes : ByteArray} {address : Nat} {block : Bytes}
    (h : address + block.length ≤ bytes.size) (i : Nat) :
    (store bytes address block).data[i]? =
      if address ≤ i ∧ i < address + block.length then block[i - address]? else bytes.data[i]? := by
  induction block generalizing bytes address with
  | nil =>
    rw [if_neg (by simp)]
    rfl
  | cons b rest ih =>
    have hs : (bytes.set! address b).data = bytes.data.setIfInBounds address b := rfl
    rw [List.length_cons] at h
    rw [store, ih (by rw [ByteArray.size_set!]; omega), hs, List.length_cons]
    rcases Nat.lt_trichotomy i address with hi | hi | hi
    · rw [if_neg (by omega), if_neg (by omega), Array.getElem?_setIfInBounds_ne (by omega)]
    · subst hi
      rw [if_neg (by omega), if_pos (by omega), Array.getElem?_setIfInBounds_self_of_lt (by
        rw [ByteArray.size_data]; omega)]
      simp
    · have e : i - address = i - (address + 1) + 1 := by omega
      rw [e, List.getElem?_cons_succ, Array.getElem?_setIfInBounds_ne (by omega)]
      by_cases hb : i < address + 1 + rest.length
      · rw [if_pos (by omega), if_pos (by omega)]
      · rw [if_neg (by omega), if_neg (by omega)]

theorem get?_write {m : LinearMemory} {address : Nat} {block : Bytes}
    (h : address + block.length ≤ m.size) (i : Nat) :
    (m.write address block).get? i =
      if address ≤ i ∧ i < address + block.length then block[i - address]? else m.get? i := by
  rw [get?_eq_data, get?_eq_data, write_eq, if_pos h]
  exact data_store h i

/-- Bytes outside the range of a write stay, whether or not the write takes place. -/
theorem get?_write_of_outside {m : LinearMemory} {address : Nat} {block : Bytes} {i : Nat}
    (h : i < address ∨ address + block.length ≤ i) :
    (m.write address block).get? i = m.get? i := by
  by_cases hm : address + block.length ≤ m.size
  · rw [get?_write hm, if_neg (by omega)]
  · rw [write_eq, if_neg hm]

/-- A block that was written is read back. -/
theorem read_write_self {m : LinearMemory} {address : Nat} {block : Bytes}
    (h : address + block.length ≤ m.size) :
    (m.write address block).read address block.length = block := by
  apply List.ext_getElem?
  intro i
  by_cases hi : i < block.length
  · rw [getElem?_read (by rwa [size_write]) hi, get?_write h, if_pos (by omega)]
    congr 1
    omega
  · rw [List.getElem?_eq_none (by rw [length_read (by rwa [size_write])]; omega),
      List.getElem?_eq_none (by omega)]

/-- Reading around a byte that was stored. -/
theorem read_write_byte {m : LinearMemory} {address n i : Nat} {b : UInt8}
    (hn : address + n ≤ m.size) (hi : i < n) :
    (m.write (address + i) [b]).read address n = (m.read address n).set i b := by
  have hroom : address + i + [b].length ≤ m.size := by
    rw [List.length_singleton]
    omega
  apply List.ext_getElem?
  intro j
  by_cases hj : j < n
  · rw [getElem?_read (by rwa [size_write]) hj, get?_write hroom, List.getElem?_set,
      length_read hn, getElem?_read hn hj, List.length_singleton]
    by_cases hij : i = j
    · subst hij
      rw [if_pos (by omega), if_pos rfl, if_pos hi, Nat.sub_self]
      rfl
    · rw [if_neg (by omega), if_neg hij]
  · rw [List.getElem?_eq_none (by rw [length_read (by rwa [size_write])]; omega),
      List.getElem?_eq_none (by rw [List.length_set, length_read hn]; omega)]

@[simp] theorem size_copyWithin (m : LinearMemory) (src n dest : Nat) :
    (m.copyWithin src n dest).size = m.size := by
  unfold copyWithin
  split
  · exact size_write _ _ _
  · rfl

@[simp] theorem maxPages_copyWithin (m : LinearMemory) (src n dest : Nat) :
    (m.copyWithin src n dest).maxPages = m.maxPages := by
  unfold copyWithin
  split
  · exact maxPages_write _ _ _
  · rfl

theorem get?_copyWithin_of_outside {m : LinearMemory} {src n dest i : Nat}
    (h : i < dest ∨ dest + n ≤ i) : (m.copyWithin src n dest).get? i = m.get? i := by
  unfold copyWithin
  split
  · rename_i hc
    simp only [covers, Bool.and_eq_true, decide_eq_true_eq] at hc
    apply get?_write_of_outside
    rwa [length_read hc.1]
  · rfl

/-- A copy between two places inside memory arrives as it was, whether or not they overlap. -/
theorem get?_copyWithin {m : LinearMemory} {src n dest i : Nat} (hsrc : src + n ≤ m.size)
    (hdest : dest + n ≤ m.size) (hi : i < n) :
    (m.copyWithin src n dest).get? (dest + i) = m.get? (src + i) := by
  have hlength := length_read hsrc
  unfold copyWithin
  rw [if_pos (by simp [covers, hsrc, hdest]), get?_write (by rwa [hlength]), hlength,
    if_pos (by omega), Nat.add_sub_cancel_left, getElem?_read hsrc hi]

theorem maxPages_grow? {m m' : LinearMemory} {pages base : Nat}
    (h : m.grow? pages = some (base, m')) : m'.maxPages = m.maxPages := by
  unfold grow? at h
  split at h
  · cases h
  · obtain ⟨-, rfl⟩ := Prod.mk.inj (Option.some.inj h)
    rfl

/-- Growing appends bytes: the old ones stay where they are. -/
theorem grow?_eq_some {m m' : LinearMemory} {pages base : Nat}
    (h : m.grow? pages = some (base, m')) :
    base = m.size ∧ m'.size = m.size + pages * pageSize ∧ ∀ i < m.size, m'.get? i = m.get? i := by
  unfold grow? at h
  split at h
  · cases h
  · obtain ⟨rfl, rfl⟩ := Prod.mk.inj (Option.some.inj h)
    refine ⟨rfl, ?_, ?_⟩
    · simp [size, zeros, ← ByteArray.size_data]
    · intro i hi
      rw [get?_eq_data, get?_eq_data, ByteArray.data_append]
      exact Array.getElem?_append_left (by simpa [size] using hi)

end LinearMemory

namespace Arena

/-- The arenas of simulated hosts: memory is laid out past the heap base, then grown and written. -/
inductive Simulated : Arena → Prop
  | ofBase (heapBase maxPages : Nat) : Simulated (.ofBase heapBase maxPages)
  | grow {a a' : Arena} {pages base : Nat} :
      Simulated a → a.grow? pages = some (base, a') → Simulated a'
  | write {a : Arena} (address : Nat) (block : Bytes) :
      Simulated a → Simulated (a.write address block)

/-- `a'` has the memory of `a`, possibly grown, with other bytes only from `lo` up to `hi`. -/
structure ChangedWithin (a a' : Arena) (lo hi : Nat) : Prop where
  heapBase_eq : a'.heapBase = a.heapBase
  maxPages_eq : a'.memory.maxPages = a.memory.maxPages
  size_le : a.memory.size ≤ a'.memory.size
  get?_eq : ∀ i < a.memory.size, i < lo ∨ hi ≤ i → a'.memory.get? i = a.memory.get? i

variable {a a' a'' : Arena} {lo hi : Nat}

@[simp] theorem memory_write (a : Arena) (address : Nat) (block : Bytes) :
    (a.write address block).memory = a.memory.write address block := rfl

@[simp] theorem heapBase_write (a : Arena) (address : Nat) (block : Bytes) :
    (a.write address block).heapBase = a.heapBase := rfl

@[simp] theorem memory_copyWithin (a : Arena) (src n dest : Nat) :
    (a.copyWithin src n dest).memory = a.memory.copyWithin src n dest := rfl

theorem grow?_eq_some {pages base : Nat} (h : a.grow? pages = some (base, a')) :
    a'.heapBase = a.heapBase ∧ a.memory.grow? pages = some (base, a'.memory) := by
  obtain ⟨⟨address, memory⟩, hm, he⟩ := Option.map_eq_some_iff.mp h
  obtain ⟨rfl, rfl⟩ := Prod.mk.inj he
  exact ⟨rfl, hm⟩

theorem size_ofBase (heapBase maxPages : Nat) :
    (ofBase heapBase maxPages).memory.size = (heapBase / pageSize + 1) * pageSize := by
  simp [ofBase, LinearMemory.ofPages, LinearMemory.size, LinearMemory.zeros, ← ByteArray.size_data]

theorem Simulated.heapBase_lt (h : a.Simulated) : a.heapBase < a.memory.size := by
  induction h with
  | ofBase heapBase maxPages =>
    have hd := Nat.lt_div_mul_add (a := heapBase) (b := pageSize) (by decide)
    rw [size_ofBase, Nat.add_mul, Nat.one_mul]
    exact hd
  | grow _ hg ih =>
    obtain ⟨hb, hm⟩ := grow?_eq_some hg
    have hs := (LinearMemory.grow?_eq_some hm).2.1
    omega
  | write address block _ ih => simpa using ih

/-- Memory consists of whole pages. -/
theorem Simulated.whole (h : a.Simulated) : a.memory.pages * pageSize = a.memory.size := by
  unfold LinearMemory.pages
  refine Nat.div_mul_cancel ?_
  induction h with
  | ofBase heapBase maxPages =>
    rw [size_ofBase]
    exact Nat.dvd_mul_left ..
  | grow _ hg ih =>
    obtain ⟨-, hm⟩ := grow?_eq_some hg
    rw [(LinearMemory.grow?_eq_some hm).2.1]
    exact Nat.dvd_add ih (Nat.dvd_mul_left ..)
  | write address block _ ih => simpa using ih

namespace ChangedWithin

theorem refl (a : Arena) (lo hi : Nat) : a.ChangedWithin a lo hi :=
  ⟨rfl, rfl, Nat.le_refl _, fun _ _ _ => rfl⟩

theorem trans (h : a.ChangedWithin a' lo hi) (h' : a'.ChangedWithin a'' lo hi) :
    a.ChangedWithin a'' lo hi where
  heapBase_eq := h'.heapBase_eq.trans h.heapBase_eq
  maxPages_eq := h'.maxPages_eq.trans h.maxPages_eq
  size_le := h.size_le.trans h'.size_le
  get?_eq i hi ho := (h'.get?_eq i (Nat.lt_of_lt_of_le hi h.size_le) ho).trans (h.get?_eq i hi ho)

/-- An arena in which no byte changed counts as changed within any range. -/
theorem of_empty (h : a.ChangedWithin a' 0 0) (lo hi : Nat) : a.ChangedWithin a' lo hi :=
  ⟨h.heapBase_eq, h.maxPages_eq, h.size_le, fun i hi _ => h.get?_eq i hi (Or.inr (Nat.zero_le i))⟩

theorem write {address : Nat} {block : Bytes} (hlo : lo ≤ address)
    (hhi : address + block.length ≤ hi) : a.ChangedWithin (a.write address block) lo hi where
  heapBase_eq := rfl
  maxPages_eq := by simp
  size_le := by simp
  get?_eq i _ ho := LinearMemory.get?_write_of_outside (by omega)

theorem copyWithin {src n dest : Nat} (hlo : lo ≤ dest) (hhi : dest + n ≤ hi) :
    a.ChangedWithin (a.copyWithin src n dest) lo hi where
  heapBase_eq := rfl
  maxPages_eq := by simp
  size_le := by simp
  get?_eq i _ ho := LinearMemory.get?_copyWithin_of_outside (by omega)

theorem grow? {pages base : Nat} (h : a.grow? pages = some (base, a')) :
    a.ChangedWithin a' 0 0 := by
  obtain ⟨hb, hm⟩ := grow?_eq_some h
  obtain ⟨-, hs, hg⟩ := LinearMemory.grow?_eq_some hm
  exact ⟨hb, LinearMemory.maxPages_grow? hm, by omega, fun i hi _ => hg i hi⟩

end ChangedWithin
end Arena
end GuestLibrary
