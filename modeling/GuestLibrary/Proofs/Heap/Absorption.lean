import GuestLibrary.Heap.Table.Machine
import GuestLibrary.Proofs.Heap.FirstFit

/-! Merging in place. A block grows only after it is known that the free blocks behind it suffice,
so a merge that fails has touched nothing, and neither has one that meets a block without an address
behind it; one that succeeds leaves the run in the block's place and holes behind it. -/
namespace GuestLibrary

/-- What is left of a block that was taken. A hole stays as it is. -/
def Block.hollow (b : Block) : Block := if b.size = 0 then b else b.emptied

/-- A block with the bytes of others that it absorbed. -/
def Block.joined (b : Block) (taken : List Block) : Block :=
  { b with size := b.size + (taken.map (·.size)).sum }

namespace BlockTable

section Gathering

variable {need total fin : Nat} {b : Block} {rest : List Block} {run : Run}

theorem gather?_used (hn : ¬ need ≤ total) (hu : b.used = true) :
    gather? need total fin (b :: rest) = none := by
  simp [gather?, hn, hu]

theorem gather?_hole (hn : ¬ need ≤ total) (hu : b.used = false) (hz : b.size = 0) :
    gather? need total fin (b :: rest) =
      (gather? need total fin rest).map fun r => ⟨r.total, b :: r.rest, r.pages⟩ := by
  simp [gather?, hn, hu, hz]

theorem gather?_apart (hn : ¬ need ≤ total) (hz : 0 < b.size) (hs : b.start ≠ fin) :
    gather? need total fin (b :: rest) = none := by
  simp [gather?, hn, hs, Nat.ne_of_gt hz]

theorem gather?_adjoining (hn : ¬ need ≤ total) (hu : b.used = false) (hz : 0 < b.size)
    (hs : b.start = fin) :
    gather? need total fin (b :: rest) =
      (gather? need (total + b.size) b.fin rest).map fun r =>
        ⟨r.total, b.emptied :: r.rest, b.page :: r.pages⟩ := by
  simp [gather?, hn, hu, hs, Nat.ne_of_gt hz]

/-- Looking ahead from a run that begins at `base` stops the program only at a free block that ends
at no address. Otherwise it finds whether the run suffices, and where it stops. -/
theorem lookAhead_cases {base : Nat} (hrun : base + total = fin) (hword : fin < wordLimit)
    (next : Nat) :
    ((∃ b ∈ rest, 0 < b.size ∧ b.used = false ∧ wordLimit ≤ b.fin) ∧
      Machine.lookAhead need total fin next rest = .error .sum) ∨
    (gather? need total fin rest = none ∧ ∃ reached stop,
      Machine.lookAhead need total fin next rest = .ok (reached, stop) ∧ reached < need) ∨
    ∃ taken behind, rest = taken ++ behind ∧
      gather? need total fin rest = some ⟨total + (taken.map (·.size)).sum,
        taken.map .hollow ++ behind, (sized taken).map (·.page)⟩ ∧
      Machine.lookAhead need total fin next rest =
        .ok (total + (taken.map (·.size)).sum, next + taken.length) ∧
      base + (total + (taken.map (·.size)).sum) < wordLimit := by
  induction rest generalizing total fin next with
  | nil =>
    by_cases hn : need ≤ total
    · exact Or.inr (Or.inr ⟨[], [], by simp [gather?, Machine.lookAhead, hn, hrun, hword]⟩)
    · exact Or.inr (Or.inl ⟨by simp [gather?, hn], total, next, rfl, Nat.lt_of_not_le hn⟩)
  | cons b rest ih =>
    by_cases hn : need ≤ total
    · exact Or.inr (Or.inr ⟨[], b :: rest, by simp [gather?, Machine.lookAhead, hn, hrun, hword]⟩)
    have hlt : total < need := Nat.lt_of_not_le hn
    cases hu : b.used with
    | true =>
      exact Or.inr (Or.inl ⟨gather?_used hn hu, total, next, by simp [Machine.lookAhead, hn, hu],
        hlt⟩)
    | false =>
      rcases Nat.eq_zero_or_pos b.size with hz | hz
      · have hlook : Machine.lookAhead need total fin next (b :: rest) =
            Machine.lookAhead need total fin (next + 1) rest := by
          simp [Machine.lookAhead, hn, hu, hz]
        rw [hlook, gather?_hole hn hu hz]
        rcases ih hrun hword (next + 1) with
          ⟨⟨c, hc, hover⟩, he⟩ | ⟨hnone, hstop⟩ | ⟨taken, behind, rfl, hg, hl, hle⟩
        · exact Or.inl ⟨⟨c, List.mem_cons_of_mem _ hc, hover⟩, he⟩
        · exact Or.inr (Or.inl ⟨by rw [hnone]; rfl, hstop⟩)
        · refine Or.inr (Or.inr ⟨b :: taken, behind, rfl, ?_, ?_, ?_⟩)
          · simp [hg, hz, Block.hollow, sized_cons_of_eq_zero hz]
          · simp [hl, hz]
            omega
          · simpa [hz] using hle
      by_cases hs : b.start = fin
      · by_cases hfin : b.fin < wordLimit
        · have hfin' : b.start + b.size < wordLimit := hfin
          have hsum : total + b.size < wordLimit := by omega
          have hlook : Machine.lookAhead need total fin next (b :: rest) =
              Machine.lookAhead need (total + b.size) b.fin (next + 1) rest := by
            simp [Machine.lookAhead, Machine.fin, hn, hu, hz, hs, Word.sum_eq hsum,
              Word.sum_eq (hs ▸ hfin'), Block.fin, bind, Except.bind]
          rw [hlook, gather?_adjoining hn hu hz hs]
          have hrun' : base + (total + b.size) = b.fin := by
            simp only [Block.fin]
            omega
          rcases ih hrun' hfin (next + 1) with
            ⟨⟨c, hc, hover⟩, he⟩ | ⟨hnone, hstop⟩ | ⟨taken, behind, rfl, hg, hl, hle⟩
          · exact Or.inl ⟨⟨c, List.mem_cons_of_mem _ hc, hover⟩, he⟩
          · exact Or.inr (Or.inl ⟨by rw [hnone]; rfl, hstop⟩)
          · refine Or.inr (Or.inr ⟨b :: taken, behind, rfl, ?_, ?_, ?_⟩)
            · simp [hg, Block.hollow, sized_cons_of_pos hz, Nat.ne_of_gt hz, Nat.add_assoc]
            · simp [hl, Nat.add_assoc]
              omega
            · simpa [Nat.add_assoc] using hle
        · have hover : wordLimit ≤ b.start + b.size := Nat.le_of_not_lt hfin
          refine Or.inl ⟨⟨b, List.mem_cons_self, hz, hu, hover⟩, ?_⟩
          -- the end of the block is no word, whether or not the bytes of the run still are
          by_cases hsum : total + b.size < wordLimit
          · simp [Machine.lookAhead, Machine.fin, hn, hu, hz, hs, Word.sum_eq hsum,
              Word.sum_stops (hs ▸ hover), bind, Except.bind]
          · simp [Machine.lookAhead, hn, hu, hz, hs, Word.sum_stops (Nat.le_of_not_lt hsum), bind,
              Except.bind]
      · refine Or.inr (Or.inl ⟨gather?_apart hn hz hs, total, next, ?_, hlt⟩)
        simp [Machine.lookAhead, hn, hu, hz, hs]

end Gathering

/-- Every free block ends at an address. -/
def Addressed (t : BlockTable) : Prop :=
  ∀ b ∈ t.blocks, 0 < b.size → b.used = false → b.fin < wordLimit

/-- Whether the block of an id is a hole. -/
def isHoleAt (t : BlockTable) (id : Nat) : Bool := (t.get? id).any (·.isHole)

section Places

variable {t : BlockTable} {id : Nat} {b : Block}

theorem isHoleAt_iff :
    t.isHoleAt id = true ↔ ∃ b, t.get? id = some b ∧ b.used = false ∧ b.size = 0 := by
  cases h : t.get? id <;> simp [isHoleAt, h, Block.isHole]

theorem split_of_get? (h : t.get? id = some b) :
    ∃ lead behind, t.blocks = lead ++ b :: behind ∧ lead.length = id := by
  obtain ⟨hlt, rfl⟩ := List.getElem?_eq_some_iff.mp h
  refine ⟨t.blocks.take id, t.blocks.drop (id + 1), ?_, ?_⟩
  · rw [← List.drop_eq_getElem_cons hlt, List.take_append_drop]
  · simpa using Nat.le_of_lt hlt

end Places

namespace Machine

section Statements

variable {α β : Type} {w w' : Bench} {id page : Nat} {b : Block}

@[simp] theorem put_blocks : (w.put id b).table.blocks = w.table.blocks.set id b := rfl

@[simp] theorem put_capacity : (w.put id b).table.capacity = w.table.capacity := rfl

@[simp] theorem put_perPage : (w.put id b).table.perPage = w.table.perPage := rfl

@[simp] theorem count_blocks (came : Bool) :
    (w.count page came).table.blocks = w.table.blocks := rfl

@[simp] theorem count_capacity (came : Bool) :
    (w.count page came).table.capacity = w.table.capacity := rfl

@[simp] theorem count_perPage (came : Bool) : (w.count page came).table.perPage =
    if came then w.table.perPage.increment page else w.table.perPage.decrement page := rfl

@[simp] theorem put_size (b : Block) : (w.put id b).table.size = w.table.size := List.length_set

@[simp] theorem count_size (came : Bool) : (w.count page came).table.size = w.table.size := rfl

@[simp] theorem get?_count (came : Bool) (i : Nat) :
    (w.count page came).table.get? i = w.table.get? i := rfl

theorem get?_put_self (h : id < w.table.size) (b : Block) :
    (w.put id b).table.get? id = some b :=
  List.getElem?_set_self h

theorem get?_put_of_ne {i : Nat} (h : id ≠ i) (b : Block) :
    (w.put id b).table.get? i = w.table.get? i :=
  List.getElem?_set_ne h

theorem run_block (h : w.table.get? id = some b) : (block id).run w = .ok b w := by
  simp [block, h]

theorem run_store (h : id < w.table.size) (b : Block) :
    (store id b).run w = .ok () (w.put id b) := by
  simp [store, h]

@[simp] theorem run_track (page : Nat) (came : Bool) :
    (track page came).run w = .ok () (w.count page came) := rfl

end Statements

/-- A table after the blocks from an id on were emptied. -/
def Bench.vacate (w : Bench) : Nat → List Block → Bench
  | _, [] => w
  | id, b :: taken =>
    if b.size = 0 then w.vacate (id + 1) taken
    else ((w.count b.page false).put id b.emptied).vacate (id + 1) taken

/-- A table after a block absorbed those behind it. -/
def Bench.absorb (w : Bench) (id : Nat) (b : Block) (taken : List Block) : Bench :=
  (w.vacate (id + 1) taken).put id (b.joined taken)

section Emptying

variable {w : Bench} {b : Block} {lead behind taken beyond : List Block} {need : Nat} {run : Run}

theorem get?_of_split (hw : w.table.blocks = lead ++ b :: behind) :
    w.table.get? lead.length = some b := by
  simp [BlockTable.get?, hw]

theorem lt_of_split (hw : w.table.blocks = lead ++ b :: behind) : lead.length < w.table.size := by
  simp [BlockTable.size, hw]

/-- Writing over a block leaves what is before and behind it. -/
theorem put_of_split (hw : w.table.blocks = lead ++ b :: behind) (c : Block) :
    (w.put lead.length c).table.blocks = lead ++ c :: behind := by
  simp [hw]

theorem hollow_of_eq_zero (hz : b.size = 0) : b.hollow = b := if_pos hz

theorem hollow_of_pos (hz : 0 < b.size) : b.hollow = b.emptied := if_neg (Nat.ne_of_gt hz)

theorem vacate_blocks (taken : List Block) (hw : w.table.blocks = lead ++ (taken ++ behind)) :
    (w.vacate lead.length taken).table.blocks = lead ++ (taken.map .hollow ++ behind) := by
  induction taken generalizing w lead with
  | nil => exact hw
  | cons b taken ih =>
    have hlen : (lead ++ [b.hollow]).length = lead.length + 1 := List.length_append
    rcases Nat.eq_zero_or_pos b.size with hz | hz
    · rw [Bench.vacate, if_pos hz, ← hlen, ih (by simp [hw, hollow_of_eq_zero hz])]
      simp
    · rw [Bench.vacate, if_neg (Nat.ne_of_gt hz), ← hlen, ih]
      · simp
      · rw [put_of_split (b := b) (by simpa using hw)]
        simp [hollow_of_pos hz]

theorem vacate_capacity (taken : List Block) (id : Nat) :
    (w.vacate id taken).table.capacity = w.table.capacity := by
  induction taken generalizing w id with
  | nil => rfl
  | cons b taken ih =>
    rw [Bench.vacate]
    split <;> simp [ih]

theorem vacate_perPage (taken : List Block) (id : Nat) :
    (w.vacate id taken).table.perPage =
      ((sized taken).map (·.page)).foldl PageCounts.decrement w.table.perPage := by
  induction taken generalizing w id with
  | nil => rfl
  | cons b taken ih =>
    rcases Nat.eq_zero_or_pos b.size with hz | hz
    · rw [Bench.vacate, if_pos hz, ih, sized_cons_of_eq_zero hz]
    · rw [Bench.vacate, if_neg (Nat.ne_of_gt hz), ih, sized_cons_of_pos hz]
      simp

theorem run_empty (taken : List Block) (hw : w.table.blocks = lead ++ (taken ++ behind))
    (emptied : Nat) : (empty taken.length lead.length emptied).run w =
      .ok (emptied + (sized taken).length) (w.vacate lead.length taken) := by
  induction taken generalizing w lead emptied with
  | nil => rfl
  | cons b taken ih =>
    have hlen : (lead ++ [b.hollow]).length = lead.length + 1 := List.length_append
    rw [List.cons_append] at hw
    rcases Nat.eq_zero_or_pos b.size with hz | hz
    · have hw' : w.table.blocks = (lead ++ [b.hollow]) ++ (taken ++ behind) := by
        simp [hw, hollow_of_eq_zero hz]
      have hrest := ih hw' emptied
      rw [hlen] at hrest
      simp [empty, run_block (get?_of_split hw), hz, hrest, Bench.vacate, sized_cons_of_eq_zero hz]
    · have hw' : ((w.count b.page false).put lead.length b.emptied).table.blocks =
          (lead ++ [b.hollow]) ++ (taken ++ behind) := by
        simp [hw, hollow_of_pos hz]
      have hrest := ih hw' (emptied + 1)
      rw [hlen] at hrest
      have hput := run_store (w := w.count b.page false) (lt_of_split hw) b.emptied
      simp [empty, run_block (get?_of_split hw), Nat.ne_of_gt hz, hput, hrest, Bench.vacate,
        sized_cons_of_pos hz]
      omega

theorem vacate_behind (hw : w.table.blocks = lead ++ b :: (taken ++ beyond)) :
    (w.vacate (lead.length + 1) taken).table.blocks =
      lead ++ b :: (taken.map .hollow ++ beyond) := by
  have hlen : (lead ++ [b]).length = lead.length + 1 := List.length_append
  have hw' : w.table.blocks = (lead ++ [b]) ++ (taken ++ beyond) := by simp [hw]
  rw [← hlen, vacate_blocks taken hw']
  simp

theorem absorb_blocks (hw : w.table.blocks = lead ++ b :: (taken ++ beyond)) :
    (w.absorb lead.length b taken).table.blocks =
      lead ++ b.joined taken :: (taken.map .hollow ++ beyond) :=
  put_of_split (vacate_behind hw) _

/-- A merge from a free block stops the program where a free block ends at no address, touches
nothing where the run does not suffice, and takes the blocks of the run where it does. -/
theorem merge_cases (hw : w.table.blocks = lead ++ b :: behind) (hfree : b.used = false)
    (hpos : 0 < b.size) (need : Nat) :
    (¬ w.table.Addressed ∧ (merge lead.length need).run w = .error .sum w) ∨
    (gather? need b.size b.fin behind = none ∧ (merge lead.length need).run w = .ok none w) ∨
    ∃ taken beyond, behind = taken ++ beyond ∧
      gather? need b.size b.fin behind =
        some ⟨(b.joined taken).size, taken.map .hollow ++ beyond, (sized taken).map (·.page)⟩ ∧
      (merge lead.length need).run w =
        .ok (some (sized taken).length) (w.absorb lead.length b taken) ∧
      (b.joined taken).fin < wordLimit := by
  have hdrop : w.table.blocks.drop (lead.length + 1) = behind := by simp [hw]
  have hmem : ∀ c ∈ b :: behind, 0 < c.size → c.used = false → wordLimit ≤ c.fin →
      ¬ w.table.Addressed := by
    intro c hc hz hu hover haddr
    exact absurd (haddr c (hw ▸ List.mem_append_right _ hc) hz hu) (Nat.not_lt.mpr hover)
  by_cases hfin : b.fin < wordLimit
  · have hend : fin b = .ok b.fin := Word.sum_eq hfin
    rcases @lookAhead_cases need b.size b.fin behind b.start rfl hfin (lead.length + 1) with
      ⟨⟨c, hc, hz, hu, hover⟩, hlook⟩ | ⟨hnone, reached, stop, hlook, hlt⟩ |
      ⟨taken, beyond, rfl, hgather, hlook, hword⟩
    · refine Or.inl ⟨hmem c (List.mem_cons_of_mem _ hc) hz hu hover, ?_⟩
      simp [merge, run_block (get?_of_split hw), hend, hdrop, hlook]
    · refine Or.inr (Or.inl ⟨hnone, ?_⟩)
      simp [merge, run_block (get?_of_split hw), hend, hdrop, hlook, hlt]
    · refine Or.inr (Or.inr ⟨taken, beyond, rfl, hgather, ?_, hword⟩)
      obtain ⟨-, -, -, -, -, -, -, -, -, hle⟩ := gather?_eq_some hgather
      have hlen : (lead ++ [b]).length = lead.length + 1 := List.length_append
      have hw' : w.table.blocks = (lead ++ [b]) ++ (taken ++ beyond) := by simp [hw]
      have hempty := run_empty taken hw' 0
      rw [hlen] at hempty
      have hb := vacate_behind hw
      have hstore : (store lead.length { b with size := b.size + (taken.map (·.size)).sum }).run
          (w.vacate (lead.length + 1) taken) = .ok () (w.absorb lead.length b taken) :=
        run_store (lt_of_split hb) _
      simp [merge, run_block (get?_of_split hw), hend, hdrop, hlook, Nat.not_lt.mpr hle, hempty,
        run_block (get?_of_split hb), hstore]
  · have hover := Nat.le_of_not_lt hfin
    have hend : fin b = .error .sum := Word.sum_stops hover
    exact Or.inl ⟨hmem b List.mem_cons_self hpos hfree hover, by
      simp [merge, run_block (get?_of_split hw), hend]⟩

end Emptying

end Machine

end BlockTable
end GuestLibrary
