import GuestLibrary.Proofs.Heap.InPlace

/-! What the blocks of a table offer. A block offers the bytes of the free blocks that follow one
another from it on, holes between them left out of account. Gathering takes the blocks of such a run
in their order and stops at the first one that makes it suffice. -/
namespace GuestLibrary
namespace BlockTable

/-- Whether the block of an id is free and has a size. -/
def isFreeAt (t : BlockTable) (id : Nat) : Bool := (t.get? id).any fun b => !b.used && 0 < b.size

/-- The block `j` begins where `i` ends, and only holes are between their ids. -/
structure Continues (t : BlockTable) (i j : Nat) : Prop where
  lt : i < j
  holes : ∀ k, i < k → k < j → t.isHoleAt k = true
  adjoins : ∃ b c, t.get? i = some b ∧ t.get? j = some c ∧ c.start = b.fin

/-- Free blocks of which each one continues the one before. -/
structure IsRun (t : BlockTable) (ids : List Nat) : Prop where
  free : ∀ id ∈ ids, t.isFreeAt id = true
  chain : ids.IsChain t.Continues

/-- The bytes that blocks have together. -/
def bytes (t : BlockTable) (ids : List Nat) : Nat :=
  (ids.map fun id => ((t.get? id).map (·.size)).getD 0).sum

/-- The block of an id heads a run of `need` bytes. -/
def Offers (t : BlockTable) (need id : Nat) : Prop :=
  ∃ run, t.IsRun (id :: run) ∧ need ≤ t.bytes (id :: run)

section Lookups

variable {t : BlockTable} {id : Nat} {b : Block} {rest : List Block}

theorem isFreeAt_iff :
    t.isFreeAt id = true ↔ ∃ b, t.get? id = some b ∧ b.used = false ∧ 0 < b.size := by
  cases h : t.get? id <;> simp [isFreeAt, h]

/-- A hole is not free: it has no bytes. -/
theorem isFreeAt_of_isHoleAt (h : t.isHoleAt id = true) : t.isFreeAt id = false := by
  obtain ⟨b, hb, hu, hz⟩ := isHoleAt_iff.mp h
  simp [isFreeAt, hb, hz]

@[simp] theorem bytes_nil : t.bytes [] = 0 := rfl

theorem bytes_cons (h : t.get? id = some b) (ids : List Nat) :
    t.bytes (id :: ids) = b.size + t.bytes ids := by
  simp [bytes, h]

theorem get?_of_drop (h : t.blocks.drop id = b :: rest) : t.get? id = some b := by
  have hget : (t.blocks.drop id)[0]? = some b := by rw [h]; rfl
  simpa [get?] using hget

theorem drop_of_drop (h : t.blocks.drop id = b :: rest) : t.blocks.drop (id + 1) = rest := by
  rw [← List.tail_drop, h, List.tail_cons]

end Lookups

/-- Looking on for a block that continues `i`, past holes. -/
structure Ahead (t : BlockTable) (i next : Nat) (b : Block) : Prop where
  get?_eq : t.get? i = some b
  lt : i < next
  holes : ∀ k, i < k → k < next → t.isHoleAt k = true

/-- Of the blocks from an id on those of some ids were emptied. -/
def EmptiedAt (next : Nat) (ids : List Nat) (rest rest' : List Block) : Prop :=
  ∀ k, rest'[k]? = if next + k ∈ ids then rest[k]?.map .emptied else rest[k]?

section Runs

variable {t : BlockTable} {need total i next : Nat} {b c : Block} {rest rest' : List Block}
  {run : Run} {ids : List Nat}

theorem Ahead.hole (ha : t.Ahead i next b) (hc : t.get? next = some c) (hu : c.used = false)
    (hz : c.size = 0) : t.Ahead i (next + 1) b where
  get?_eq := ha.get?_eq
  lt := Nat.lt_succ_of_lt ha.lt
  holes k hk hlt := by
    rcases Nat.lt_succ_iff_lt_or_eq.mp hlt with hlt | rfl
    · exact ha.holes k hk hlt
    · exact isHoleAt_iff.mpr ⟨c, hc, hu, hz⟩

theorem Ahead.block (hc : t.get? next = some c) : t.Ahead next (next + 1) c :=
  ⟨hc, Nat.lt_succ_self next, fun _ hk hlt => absurd hlt (Nat.not_lt.mpr hk)⟩

/-- What continues a run is not among the holes that were passed. -/
theorem Ahead.le (ha : t.Ahead i next b) {j : Nat} (hj : t.Continues i j)
    (hfree : t.isFreeAt j = true) : next ≤ j := by
  by_contra hlt
  have hhole := ha.holes j hj.lt (Nat.lt_of_not_le hlt)
  rw [isFreeAt_of_isHoleAt hhole] at hfree
  cases hfree

theorem EmptiedAt.nil (next : Nat) (rest : List Block) : EmptiedAt next [] rest rest := fun k => by
  simp

theorem EmptiedAt.pass (h : EmptiedAt (next + 1) ids rest rest') (hids : ∀ j ∈ ids, next + 1 ≤ j)
    (c : Block) : EmptiedAt next ids (c :: rest) (c :: rest') := by
  intro k
  cases k with
  | zero =>
    have hout : next ∉ ids := fun hin => Nat.not_succ_le_self next (hids next hin)
    simp [hout]
  | succ k => simpa [Nat.add_assoc, Nat.add_comm 1] using h k

theorem EmptiedAt.take (h : EmptiedAt (next + 1) ids rest rest') (c : Block) :
    EmptiedAt next (next :: ids) (c :: rest) (c.emptied :: rest') := by
  intro k
  cases k with
  | zero => simp
  | succ k => simpa [Nat.add_assoc, Nat.add_comm 1] using h k

/-- The blocks behind `i` that a run of `total` bytes takes to have what it needs. -/
structure Takings (t : BlockTable) (need total i next : Nat) (ids : List Nat) : Prop where
  chain : (i :: ids).IsChain t.Continues
  free : ∀ j ∈ ids, t.isFreeAt j = true
  behind : ∀ j ∈ ids, next ≤ j
  shortest : ∀ front, front <+: ids → need ≤ total + t.bytes front → front = ids

theorem Takings.nil (t : BlockTable) (need total i next : Nat) :
    t.Takings need total i next [] := by
  constructor <;> simp

theorem Takings.pass (h : t.Takings need total i (next + 1) ids) :
    t.Takings need total i next ids where
  chain := h.chain
  free := h.free
  behind j hj := Nat.le_of_succ_le (h.behind j hj)
  shortest := h.shortest

theorem Takings.take (h : t.Takings need (total + c.size) next (next + 1) ids)
    (ha : t.Ahead i next b) (hn : ¬ need ≤ total) (hc : t.get? next = some c)
    (hu : c.used = false) (hpos : 0 < c.size) (hs : c.start = b.fin) :
    t.Takings need total i next (next :: ids) where
  chain := List.isChain_cons_cons.mpr ⟨⟨ha.lt, ha.holes, b, c, ha.get?_eq, hc, hs⟩, h.chain⟩
  free j hj := by
    rcases List.mem_cons.mp hj with rfl | hj
    · exact isFreeAt_iff.mpr ⟨c, hc, hu, hpos⟩
    · exact h.free j hj
  behind j hj := by
    rcases List.mem_cons.mp hj with rfl | hj
    · exact Nat.le_refl j
    · exact Nat.le_of_succ_le (h.behind j hj)
  shortest front hfront hle := by
    cases front with
    | nil => exact absurd (by simpa using hle) hn
    | cons j front =>
      obtain ⟨rfl, hfront'⟩ := List.cons_prefix_cons.mp hfront
      rw [bytes_cons hc, ← Nat.add_assoc] at hle
      rw [h.shortest front hfront' hle]

/-- Blocks that are gathered go on with the run, and are no more than it needs. -/
theorem gather?_takings (h : gather? need total b.fin rest = some run) (ha : t.Ahead i next b)
    (hrest : t.blocks.drop next = rest) :
    ∃ ids, t.Takings need total i next ids ∧ run.total = total + t.bytes ids ∧
      run.pages.length = ids.length ∧ EmptiedAt next ids rest run.rest := by
  induction rest generalizing total i next b run with
  | nil =>
    simp only [gather?, Option.ite_none_right_eq_some, Option.some.injEq] at h
    obtain ⟨-, rfl⟩ := h
    exact ⟨[], .nil t need total i next, rfl, rfl, .nil next []⟩
  | cons c rest ih =>
    have hc := get?_of_drop hrest
    have hrest' := drop_of_drop hrest
    by_cases hn : need ≤ total
    · rw [gather?_of_le hn] at h
      obtain rfl := Option.some.inj h
      exact ⟨[], .nil t need total i next, rfl, rfl, .nil next _⟩
    cases hu : c.used with
    | true =>
      rw [gather?_used hn hu] at h
      cases h
    | false =>
      rcases Nat.eq_zero_or_pos c.size with hz | hz
      · rw [gather?_hole hn hu hz] at h
        obtain ⟨r, hr, rfl⟩ := Option.map_eq_some_iff.mp h
        obtain ⟨ids, ht, htotal, hlen, hat⟩ := ih hr (ha.hole hc hu hz) hrest'
        exact ⟨ids, ht.pass, htotal, hlen, hat.pass ht.behind c⟩
      · by_cases hs : c.start = b.fin
        · rw [gather?_adjoining hn hu hz hs] at h
          obtain ⟨r, hr, rfl⟩ := Option.map_eq_some_iff.mp h
          obtain ⟨ids, ht, htotal, hlen, hat⟩ := ih hr (.block hc) hrest'
          refine ⟨next :: ids, ht.take ha hn hc hu hz hs, ?_, by simp [hlen], hat.take c⟩
          rw [bytes_cons hc, ← Nat.add_assoc]
          exact htotal
        · rw [gather?_apart hn hz hs] at h
          cases h

/-- A run that goes on far enough is gathered. -/
theorem gather?_of_chain (ha : t.Ahead i next b) (hrest : t.blocks.drop next = rest)
    (hchain : (i :: ids).IsChain t.Continues) (hfree : ∀ j ∈ ids, t.isFreeAt j = true)
    (hle : need ≤ total + t.bytes ids) : gather? need total b.fin rest ≠ none := by
  induction rest generalizing total i next b ids with
  | nil =>
    cases ids with
    | nil => simpa [gather?] using hle
    | cons j ids =>
      -- the run goes on behind the last block
      have hj := (List.isChain_cons_cons.mp hchain).1
      have hge := ha.le hj (hfree j List.mem_cons_self)
      obtain ⟨-, c, -, hc, -⟩ := hj.adjoins
      have hlt : j < t.blocks.length := (List.getElem?_eq_some_iff.mp hc).1
      have hlen := List.drop_eq_nil_iff.mp hrest
      omega
  | cons c rest ih =>
    have hc := get?_of_drop hrest
    have hrest' := drop_of_drop hrest
    by_cases hn : need ≤ total
    · simp [gather?_of_le hn]
    cases ids with
    | nil => exact absurd (by simpa using hle) hn
    | cons j ids =>
      obtain ⟨hj, hchain'⟩ := List.isChain_cons_cons.mp hchain
      have hjfree := hfree j List.mem_cons_self
      rcases Nat.eq_or_lt_of_le (ha.le hj hjfree) with rfl | hlt
      · obtain ⟨c', hc', hu, hpos⟩ := isFreeAt_iff.mp hjfree
        obtain rfl : c = c' := Option.some.inj (hc.symm.trans hc')
        obtain ⟨b', d, hb', hd, hs⟩ := hj.adjoins
        obtain rfl : b = b' := Option.some.inj (ha.get?_eq.symm.trans hb')
        obtain rfl : c = d := Option.some.inj (hc.symm.trans hd)
        rw [bytes_cons hc, ← Nat.add_assoc] at hle
        rw [gather?_adjoining hn hu hpos hs, Ne, Option.map_eq_none_iff]
        exact ih (.block hc) hrest' hchain' (fun k hk => hfree k (List.mem_cons_of_mem _ hk)) hle
      · obtain ⟨c', hc', hu, hz⟩ := isHoleAt_iff.mp (hj.holes next ha.lt hlt)
        obtain rfl : c = c' := Option.some.inj (hc.symm.trans hc')
        rw [gather?_hole hn hu hz, Ne, Option.map_eq_none_iff]
        exact ih (ha.hole hc hu hz) hrest' hchain hfree hle

theorem Takings.isRun (h : t.Takings need total i next ids) (hi : t.isFreeAt i = true) :
    t.IsRun (i :: ids) where
  free j hj := by
    rcases List.mem_cons.mp hj with rfl | hj
    · exact hi
    · exact h.free j hj
  chain := h.chain

/-- A block is passed over exactly where it does not offer enough. -/
theorem barren_iff {id : Nat} : t.Barren need id ↔ ¬ t.Offers need id := by
  constructor
  · rintro hbarren ⟨run, hrun, hle⟩
    obtain ⟨b, hb, hu, hpos⟩ := isFreeAt_iff.mp (hrun.free id List.mem_cons_self)
    obtain ⟨lead, behind, hsplit, rfl⟩ := split_of_get? hb
    rw [bytes_cons hb] at hle
    exact gather?_of_chain (.block hb) (by simp [hsplit]) hrun.chain
      (fun j hj => hrun.free j (List.mem_cons_of_mem _ hj)) hle
      (hbarren lead b behind hsplit rfl hu hpos)
  · rintro hnone lead b behind hsplit rfl hu hpos
    by_contra hsome
    obtain ⟨run, hrun⟩ := Option.ne_none_iff_exists'.mp hsome
    have hb : t.get? lead.length = some b := by simp [get?, hsplit]
    obtain ⟨-, -, -, -, -, -, -, -, -, hle⟩ := gather?_eq_some hrun
    obtain ⟨ids, ht, htotal, -, -⟩ := gather?_takings hrun (.block hb) (by simp [hsplit])
    refine hnone ⟨ids, ht.isRun (isFreeAt_iff.mpr ⟨b, hb, hu, hpos⟩), ?_⟩
    rw [bytes_cons hb, ← htotal]
    exact hle

end Runs

end BlockTable
end GuestLibrary
