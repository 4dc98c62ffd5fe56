import GuestLibrary.Proofs.Heap.Absorption

/-! Cutting in place. A block that is larger than a request gives a part of it to a hole beside it:
the low bytes to the one before, or the high bytes to the one behind. Without a hole it is granted
whole. -/
namespace GuestLibrary

namespace PageCounts

/-- A page that has a count keeps one. -/
theorem isSome_lookup_adjust (f : Nat → Nat) {counts : PageCounts} {page : Nat} (p : Nat)
    (h : (counts.lookup page).isSome) : ((adjust f p counts).lookup page).isSome := by
  induction counts with
  | nil => cases h
  | cons c counts ih =>
    obtain ⟨q, n⟩ := c
    by_cases hpage : page = q
    · by_cases hq : q = p <;> simp [adjust, hq, hpage]
    · rw [List.lookup_cons, beq_false_of_ne hpage] at h
      by_cases hq : q = p
      · simpa [adjust, hq, List.lookup_cons, beq_false_of_ne (hq ▸ hpage)] using h
      · simpa [adjust, hq, List.lookup_cons, beq_false_of_ne hpage] using ih h

/-- A block that comes to a page that has a count and goes again leaves the counts as they were. -/
theorem decrement_increment {counts : PageCounts} {page : Nat} (h : (counts.lookup page).isSome) :
    (counts.increment page).decrement page = counts := by
  induction counts with
  | nil => cases h
  | cons c counts ih =>
    obtain ⟨q, n⟩ := c
    by_cases hq : q = page
    · simp [increment, decrement, adjust, hq]
    · rw [List.lookup_cons, beq_false_of_ne (Ne.symm hq)] at h
      have hrest := ih h
      simp only [increment, decrement] at hrest
      simp [increment, decrement, adjust, hq, hrest]

end PageCounts

namespace BlockTable
namespace Machine

/-- A table after the low bytes of a block went to the hole before it. -/
def Bench.cutBefore (w : Bench) (need id : Nat) (b : Block) : Bench :=
  ((((w.put (id - 1) { start := b.start, size := need, page := b.page }).count b.page true).count
    b.page false).put id (.free (b.start + need) (b.size - need))).count
      ((b.start + need) / pageSize) true

/-- A table after the high bytes of a block went to the hole behind it. -/
def Bench.cutAfter (w : Bench) (need id : Nat) (b : Block) : Bench :=
  ((w.put (id + 1) (.free (b.start + need) (b.size - need))).count
    ((b.start + need) / pageSize) true).put id { b with size := need }

/-- What becomes of a block `b` of at least `need` bytes when they are granted from it. -/
inductive Cut (w : Bench) (need id : Nat) (b : Block) : Nat → SplitKind → Bench → Prop
  | perfect : b.size = need → Cut w need id b id .perfect (w.put id { b with used := true })
  | before : need < b.size → 0 < id → w.table.isHoleAt (id - 1) = true →
      Cut w need id b (id - 1) .before
        ((w.cutBefore need id b).put (id - 1) { b with size := need, used := true })
  | after : need < b.size → (0 < id → w.table.isHoleAt (id - 1) = false) →
      w.table.isHoleAt (id + 1) = true →
      Cut w need id b id .after
        ((w.cutAfter need id b).put id { b with size := need, used := true })
  | unsplit : need < b.size → (0 < id → w.table.isHoleAt (id - 1) = false) →
      w.table.isHoleAt (id + 1) = false →
      Cut w need id b id .unsplit (w.put id { b with used := true })

section Cutting

variable {w : Bench} {need id : Nat} {b : Block}

theorem run_holeBefore (hid : id < w.table.size) :
    (holeBefore id).run w = .ok (decide (0 < id) && w.table.isHoleAt (id - 1)) w := by
  rcases Nat.eq_zero_or_pos id with rfl | hpos
  · rfl
  · obtain ⟨p, hp⟩ : ∃ p, w.table.get? (id - 1) = some p :=
      ⟨_, List.getElem?_eq_getElem (Nat.lt_of_le_of_lt (Nat.sub_le id 1) hid)⟩
    simp [holeBefore, run_block hp, isHoleAt, hp, hpos, Nat.ne_of_gt hpos]

theorem run_holeBehind (id : Nat) :
    (holeBehind id).run w = .ok (w.table.isHoleAt (id + 1)) w := by
  by_cases hlt : id + 1 < w.table.size
  · obtain ⟨c, hc⟩ : ∃ c, w.table.get? (id + 1) = some c := ⟨_, List.getElem?_eq_getElem hlt⟩
    simp [holeBehind, hlt, run_block hc, isHoleAt, hc]
  · have hnone : w.table.get? (id + 1) = none := List.getElem?_eq_none (Nat.le_of_not_lt hlt)
    simp [holeBehind, hlt, isHoleAt, hnone]

theorem lt_of_isHoleAt (h : w.table.isHoleAt id = true) : id < w.table.size := by
  by_contra hge
  rw [isHoleAt, BlockTable.get?, List.getElem?_eq_none (Nat.le_of_not_lt hge)] at h
  cases h

theorem lt_of_get? (h : w.table.get? id = some b) : id < w.table.size :=
  (List.getElem?_eq_some_iff.mp h).1

theorem run_grant {w' : Bench} {granted : Nat} {kind : SplitKind} {g : Block}
    (hsplit : (split id need).run w = .ok (granted, kind) w')
    (hg : w'.table.get? granted = some g) (merged : Nat) :
    (grant need id merged).run w =
      .ok ⟨granted, merged, kind⟩ (w'.put granted { g with used := true }) := by
  simp [grant, hsplit, run_block hg, run_store (lt_of_get? hg)]

theorem run_grant_of_stop {stop : Stop} (hsplit : (split id need).run w = .error stop w)
    (merged : Nat) : (grant need id merged).run w = .error stop w := by
  simp [grant, hsplit]

/-- A grant is cut from a block in one of four ways, unless what is left of it would begin at no
address. -/
theorem grant_cases (hb : w.table.get? id = some b) (hle : need ≤ b.size) (merged : Nat) :
    (wordLimit ≤ b.start + need ∧ (grant need id merged).run w = .error .sum w) ∨
    ∃ granted kind w', (grant need id merged).run w = .ok ⟨granted, merged, kind⟩ w' ∧
      Cut w need id b granted kind w' := by
  have hid : id < w.table.size := lt_of_get? hb
  have hrest : Word.difference b.size need = .ok (b.size - need) := Word.difference_eq hle
  by_cases he : b.size = need
  · have hsplit : (split id need).run w = .ok (id, .perfect) w := by
      simp [split, run_block hb, he]
    exact Or.inr ⟨_, _, _, run_grant hsplit hb merged, .perfect he⟩
  have hlt : need < b.size := Nat.lt_of_le_of_ne hle (Ne.symm he)
  cases hbefore : decide (0 < id) && w.table.isHoleAt (id - 1) with
  | true =>
    obtain ⟨hpos, hhole⟩ : 0 < id ∧ w.table.isHoleAt (id - 1) = true := by simpa using hbefore
    by_cases hword : b.start + need < wordLimit
    · have hsplit : (split id need).run w = .ok (id - 1, .before) (w.cutBefore need id b) := by
        simp [split, run_block hb, he, run_holeBefore hid, hbefore, run_store, Word.sum_eq hword,
          hrest, hid, lt_of_isHoleAt hhole, Bench.cutBefore]
      have hg : (w.cutBefore need id b).table.get? (id - 1) =
          some { start := b.start, size := need, page := b.page } := by
        have hne : id ≠ id - 1 := by omega
        simp [Bench.cutBefore, get?_put_of_ne hne, get?_put_self (lt_of_isHoleAt hhole)]
      exact Or.inr ⟨_, _, _, run_grant hsplit hg merged, .before hlt hpos hhole⟩
    · have hover := Nat.le_of_not_lt hword
      refine Or.inl ⟨hover, run_grant_of_stop ?_ merged⟩
      simp [split, run_block hb, he, run_holeBefore hid, hbefore, Word.sum_stops hover]
  | false =>
    have hnone : 0 < id → w.table.isHoleAt (id - 1) = false := by simpa using hbefore
    cases hbehind : w.table.isHoleAt (id + 1) with
    | true =>
      by_cases hword : b.start + need < wordLimit
      · have hgot : ((w.put (id + 1) (.free (b.start + need) (b.size - need))).count
            ((b.start + need) / pageSize) true).table.get? id = some b := by
          simpa [get?_put_of_ne] using hb
        have hsplit : (split id need).run w = .ok (id, .after) (w.cutAfter need id b) := by
          simp [split, run_block hb, he, run_holeBefore hid, hbefore, run_holeBehind, hbehind,
            run_store, Word.sum_eq hword, hrest, hid, lt_of_isHoleAt hbehind, run_block hgot,
            Bench.cutAfter]
        have hg : (w.cutAfter need id b).table.get? id = some { b with size := need } := by
          rw [Bench.cutAfter, get?_put_self (by simpa using hid)]
        exact Or.inr ⟨_, _, _, run_grant hsplit hg merged, .after hlt hnone hbehind⟩
      · have hover := Nat.le_of_not_lt hword
        refine Or.inl ⟨hover, run_grant_of_stop ?_ merged⟩
        simp [split, run_block hb, he, run_holeBefore hid, hbefore, run_holeBehind, hbehind,
          Word.sum_stops hover]
    | false =>
      have hsplit : (split id need).run w = .ok (id, .unsplit) w := by
        simp [split, run_block hb, he, run_holeBefore hid, hbefore, run_holeBehind, hbehind]
      exact Or.inr ⟨_, _, _, run_grant hsplit hb merged, .unsplit hlt hnone hbehind⟩

end Cutting

section Division

variable {w w' : Bench} {need id granted : Nat} {kind : SplitKind} {b : Block}
  {previous : Option Block} {front rest : List Block}

theorem isHoleAt_before (hw : w.table.blocks = front ++ (previous.toList ++ b :: rest))
    (hprevious : previous = none → front = []) (hid : id = front.length + previous.toList.length) :
    (0 < id ∧ w.table.isHoleAt (id - 1) = true) ↔ previous.any (·.isHole) = true := by
  cases previous with
  | none => simp [hid, hprevious rfl]
  | some p => simp [hid, isHoleAt, BlockTable.get?, hw]

theorem isHoleAt_behind (hw : w.table.blocks = front ++ (previous.toList ++ b :: rest))
    (hid : id = front.length + previous.toList.length) :
    w.table.isHoleAt (id + 1) = rest.head?.any (·.isHole) := by
  have hlead : w.table.blocks = (front ++ previous.toList) ++ b :: rest := by simp [hw]
  have hlen : id = (front ++ previous.toList).length := by simp [hid]
  rw [isHoleAt, BlockTable.get?, hlead, hlen, List.getElem?_append_right (by omega),
    List.head?_eq_getElem?]
  simp

/-- A cut in place is the division of a block in a list. A page that is counted at all has its count
again after a block came and went. -/
structure Cut.Divides (w w' : Bench) (front : List Block) (b : Block) (id granted : Nat)
    (kind : SplitKind) (c : Cutting) : Prop where
  blocks_eq : w'.table.blocks = front ++ c.blocks
  capacity_eq : w'.table.capacity = w.table.capacity
  granted_eq : granted = if c.isBefore then id - 1 else id
  kind_eq : kind = c.split
  blocksOnPage_eq : ∀ page, w'.table.blocksOnPage page =
    (c.remainder.elim w.table.perPage w.table.perPage.increment).count page
  perPage_eq : (w.table.perPage.lookup b.page).isSome →
    w'.table.perPage = c.remainder.elim w.table.perPage w.table.perPage.increment

theorem Cut.divides (hw : w.table.blocks = front ++ (previous.toList ++ b :: rest))
    (hprevious : previous = none → front = []) (hid : id = front.length + previous.toList.length)
    (h : Cut w need id b granted kind w') :
    Cut.Divides w w' front b id granted kind (divide previous b rest need) := by
  have hbefore := isHoleAt_before hw hprevious hid
  have hbehind := isHoleAt_behind hw hid
  have hnohole : (0 < id → w.table.isHoleAt (id - 1) = false) →
      ¬ previous.any (·.isHole) = true := by
    intro hnone hany
    obtain ⟨hpos, hhole⟩ := hbefore.mpr hany
    rw [hnone hpos] at hhole
    cases hhole
  cases h with
  | perfect he =>
    rw [divide, if_pos he]
    exact ⟨by simp [hw, hid, he], rfl, rfl, rfl, fun _ => rfl, fun _ => rfl⟩
  | before hlt hpos hhole =>
    have hany := hbefore.mp ⟨hpos, hhole⟩
    rw [divide, if_neg (Nat.ne_of_gt hlt), if_pos hany]
    obtain ⟨p, rfl⟩ : ∃ p, previous = some p := by
      cases previous with
      | none => cases hany
      | some p => exact ⟨p, rfl⟩
    refine ⟨by simp [Bench.cutBefore, hw, hid], rfl, rfl, rfl, fun page => ?_, fun hlisted => ?_⟩
    · simp only [blocksOnPage, Bench.cutBefore, put_perPage, count_perPage, if_true, if_false,
        Bool.false_eq_true, PageCounts.count_increment, PageCounts.count_decrement_increment,
        Option.elim_some, Block.free]
    · simp [Bench.cutBefore, PageCounts.decrement_increment hlisted, Block.free]
  | after hlt hnone hhole =>
    rw [divide, if_neg (Nat.ne_of_gt hlt), if_neg (hnohole hnone), if_pos (hbehind ▸ hhole)]
    obtain ⟨d, tail, rfl⟩ : ∃ d tail, rest = d :: tail := by
      cases rest with
      | nil =>
        rw [hbehind] at hhole
        cases hhole
      | cons d tail => exact ⟨d, tail, rfl⟩
    exact ⟨by simp [Bench.cutAfter, hw, hid, Nat.add_assoc], rfl, rfl, rfl, fun _ => rfl,
      fun _ => rfl⟩
  | unsplit hlt hnone hhole =>
    have hrest : ¬ rest.head?.any (·.isHole) = true := by simp [← hbehind, hhole]
    rw [divide, if_neg (Nat.ne_of_gt hlt), if_neg (hnohole hnone), if_neg hrest]
    exact ⟨by simp [hw, hid], rfl, rfl, rfl, fun _ => rfl, fun _ => rfl⟩

end Division

end Machine
end BlockTable
end GuestLibrary
