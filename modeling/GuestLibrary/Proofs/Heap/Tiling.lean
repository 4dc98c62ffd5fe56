import GuestLibrary.Heap.Table
import Mathlib

/-! Blocks that tile a stretch of memory. Holes have no bytes, so a tiling is one of the blocks that
have a size, in the order of their ids. Granting from a table changes a run of free blocks into
other blocks over the same bytes, of which exactly one is used. -/
namespace GuestLibrary

/-- The blocks that have a size. -/
def sized (blocks : List Block) : List Block := blocks.filter (0 < ·.size)

/-- The blocks follow one another from `lo` up to `hi` without gap or overlap. -/
def Tiles : Nat → List Block → Nat → Prop
  | lo, [], hi => lo = hi
  | lo, b :: rest, hi => b.start = lo ∧ Tiles b.fin rest hi

/-- The blocks that have a size end by `hi`. There may be gaps between them. -/
def Within (hi : Nat) (blocks : List Block) : Prop := ∀ b ∈ blocks, 0 < b.size → b.fin ≤ hi

@[simp] theorem sized_nil : sized [] = [] := rfl

@[simp] theorem sized_append (xs ys : List Block) : sized (xs ++ ys) = sized xs ++ sized ys :=
  List.filter_append xs ys

theorem sized_cons_of_pos {b : Block} (h : 0 < b.size) (bs : List Block) :
    sized (b :: bs) = b :: sized bs :=
  List.filter_cons_of_pos (by simpa using h)

theorem sized_cons_of_eq_zero {b : Block} (h : b.size = 0) (bs : List Block) :
    sized (b :: bs) = sized bs :=
  List.filter_cons_of_neg (by simp [h])

theorem sized_eq_nil {bs : List Block} (h : ∀ b ∈ bs, b.size = 0) : sized bs = [] :=
  List.filter_eq_nil_iff.mpr fun b hb => by simp [h b hb]

theorem sum_size_sized (bs : List Block) :
    ((sized bs).map (·.size)).sum = (bs.map (·.size)).sum := by
  induction bs with
  | nil => rfl
  | cons b bs ih =>
    rcases Nat.eq_zero_or_pos b.size with h | h
    · simp [sized_cons_of_eq_zero h, ih, h]
    · simp [sized_cons_of_pos h, ih]

/-- A tiling of a list cut in two is a tiling of each part. -/
theorem tiles_append {lo hi : Nat} {xs ys : List Block} :
    Tiles lo (xs ++ ys) hi ↔ ∃ mid, Tiles lo xs mid ∧ Tiles mid ys hi := by
  induction xs generalizing lo with
  | nil => simp [Tiles]
  | cons b xs ih =>
    simp only [List.cons_append, Tiles, ih]
    constructor
    · rintro ⟨hb, mid, hx, hy⟩
      exact ⟨mid, ⟨hb, hx⟩, hy⟩
    · rintro ⟨mid, ⟨hb, hx⟩, hy⟩
      exact ⟨hb, mid, hx, hy⟩

namespace Tiles

variable {lo hi : Nat} {bs : List Block}

/-- A tiling is as long as its blocks together. -/
theorem hi_eq (h : Tiles lo bs hi) : hi = lo + (bs.map (·.size)).sum := by
  induction bs generalizing lo with
  | nil => exact h.symm
  | cons b bs ih =>
    have hr := ih h.2
    have hb := h.1
    simp only [List.map_cons, List.sum_cons, Block.fin] at hr ⊢
    omega

theorem bounds (h : Tiles lo bs hi) {b : Block} (hb : b ∈ bs) : lo ≤ b.start ∧ b.fin ≤ hi := by
  induction bs generalizing lo with
  | nil => cases hb
  | cons c bs ih =>
    have hc := h.1
    rcases List.mem_cons.mp hb with rfl | hb
    · have := h.2.hi_eq
      omega
    · have hr := ih h.2 hb
      have : c.fin = c.start + c.size := rfl
      omega

/-- The blocks of a tiling are in the order of their addresses and do not overlap. -/
theorem pairwise (h : Tiles lo bs hi) : bs.Pairwise fun b c => b.fin ≤ c.start := by
  induction bs generalizing lo with
  | nil => exact List.Pairwise.nil
  | cons b bs ih => exact List.Pairwise.cons (fun c hc => (h.2.bounds hc).1) (ih h.2)

end Tiles

/-- Blocks of different ids that tile memory do not overlap. -/
theorem apart_of_tiles {lo hi : Nat} {bs : List Block} (h : Tiles lo (sized bs) hi) {i j : Nat}
    {b c : Block} (hi' : bs[i]? = some b) (hj : bs[j]? = some c) (hb : 0 < b.size)
    (hc : 0 < c.size) (hij : i < j) : b.fin ≤ c.start := by
  have hp : bs.Pairwise fun b c => 0 < b.size → 0 < c.size → b.fin ≤ c.start := by
    have := List.pairwise_filter.mp h.pairwise
    simpa using this
  obtain ⟨hil, rfl⟩ := List.getElem?_eq_some_iff.mp hi'
  obtain ⟨hjl, rfl⟩ := List.getElem?_eq_some_iff.mp hj
  exact List.pairwise_iff_getElem.mp hp i j hil hjl hij hb hc

theorem bounds_of_tiles {lo hi : Nat} {bs : List Block} (h : Tiles lo (sized bs) hi) {b : Block}
    (hb : b ∈ bs) (hs : 0 < b.size) : lo ≤ b.start ∧ b.fin ≤ hi :=
  h.bounds (List.mem_filter.mpr ⟨hb, by simpa using hs⟩)

end GuestLibrary
