import GuestLibrary.Proofs.Heap.Offers
import GuestLibrary.Proofs.Heap.PageCounts

/-! Which block a search of a table settles for and what it leaves. Main statement: a search grants
from the first block of its window that offers enough, takes no more blocks than it needs, and
leaves the table alone where none does. What is over goes to a hole beside the block; a block that
absorbed others always has one, for the first of them is left empty or lies behind a hole. All of
this takes that free blocks end at addresses: a search that asks where another one ends is stopped
before it has touched anything. -/
namespace GuestLibrary

/-- The id of the hole that a part of a block goes to. -/
def SplitKind.spare? (id : Nat) : SplitKind → Option Nat
  | perfect => none
  | before => some (id - 1)
  | after => some (id + 1)
  | unsplit => none

namespace BlockTable

/-- The bytes of all blocks. -/
def total (t : BlockTable) : Nat := (t.blocks.map (·.size)).sum

/-- No hole is next to an id. -/
def Enclosed (t : BlockTable) (id : Nat) : Prop :=
  ∀ i, i + 1 = id ∨ i = id + 1 → t.isHoleAt i = false

/-- `need` bytes were granted from the block `b` of an id, which had `bytes` with those that it
absorbed. -/
structure Places (t t' : BlockTable) (need id : Nat) (b : Block) (absorbed : List Nat)
    (bytes granted : Nat) (kind : SplitKind) : Prop where
  id_eq : granted = if kind = .before then id - 1 else id
  perfect_iff : kind = .perfect ↔ bytes = need
  unsplit_iff : kind = .unsplit ↔ need < bytes ∧ absorbed = [] ∧ t.Enclosed id
  /-- A part goes to a place next to the block, a hole from before or one that was left. -/
  spare : ∀ i, kind.spare? id = some i →
    (i + 1 = id ∨ i = id + 1) ∧ (t.isHoleAt i = true ∨ i ∈ absorbed)
  granted_eq : t'.get? granted =
    some { b with size := if kind = .unsplit then bytes else need, used := true }
  remainder : kind.spare? id ≠ none →
    t'.get? (granted + 1) = some (.free (b.start + need) (bytes - need))
  emptied : ∀ i ∈ absorbed, kind.spare? id ≠ some i → t'.isHoleAt i = true
  others : ∀ i, i ∉ id :: absorbed → kind.spare? id ≠ some i → t'.get? i = t.get? i
  size_eq : t'.size = t.size
  capacity_eq : t'.capacity = t.capacity
  total_eq : t'.total = t.total

/-- A grant of `need` bytes from the run of free blocks that a block heads. -/
structure Serves (t t' : BlockTable) (need id : Nat) (b : Block) (absorbed : List Nat)
    (grant : Grant) : Prop where
  get?_eq : t.get? id = some b
  isRun : t.IsRun (id :: absorbed)
  enough : need ≤ t.bytes (id :: absorbed)
  /-- A shorter run would not do. -/
  shortest : ∀ front, front <+: absorbed → need ≤ t.bytes (id :: front) → front = absorbed
  merged_eq : grant.merged = absorbed.length
  places : Places t t' need id b absorbed (t.bytes (id :: absorbed)) grant.id grant.split

namespace Machine

section Placing

variable {w w' : Bench} {need id granted : Nat} {kind : SplitKind} {b : Block}

theorem total_put (hb : w.table.get? id = some b) (c : Block) :
    (w.put id c).table.total + b.size = w.table.total + c.size := by
  obtain ⟨lead, behind, hsplit, rfl⟩ := split_of_get? hb
  rw [total, total, put_of_split hsplit, hsplit]
  simp only [List.map_append, List.map_cons, List.sum_append, List.sum_cons]
  omega

/-- The bytes of a block are shared between its place and a hole. -/
theorem total_share {hole : Nat} {c d : Block} (hhole : w.table.isHoleAt hole = true)
    (hb : w.table.get? id = some b) (hne : hole ≠ id) (hsize : c.size + d.size = b.size) :
    ((w.put hole c).put id d).table.total = w.table.total := by
  obtain ⟨e, he, -, hzero⟩ := isHoleAt_iff.mp hhole
  have hc := total_put he c
  have hd := total_put ((get?_put_of_ne hne c).trans hb) d
  omega

theorem not_enclosed (hhole : w.table.isHoleAt granted = true)
    (hbeside : granted + 1 = id ∨ granted = id + 1) : ¬ w.table.Enclosed id := by
  intro hnone
  rw [hnone granted hbeside] at hhole
  cases hhole

/-- Cutting in place is granting from a block that absorbed nothing. -/
theorem Cut.places (hb : w.table.get? id = some b) (h : Cut w need id b granted kind w') :
    Places w.table w'.table need id b [] b.size granted kind := by
  have hid := lt_of_get? hb
  cases h with
  | perfect he =>
    constructor
    case granted_eq => simp [get?_put_self hid, he]
    case others => intro i hi _; simpa using get?_put_of_ne (Ne.symm (by simpa using hi)) _
    case total_eq => simpa using total_put hb { b with used := true }
    all_goals simp [SplitKind.spare?, he]
  | before hlt hpos hhole =>
    have hin := lt_of_isHoleAt hhole
    have hne : id - 1 ≠ id := by omega
    have hsucc : id - 1 + 1 = id := Nat.sub_add_cancel hpos
    constructor
    case spare =>
      rintro i ⟨⟩
      exact ⟨Or.inl hsucc, Or.inl hhole⟩
    case granted_eq => simp [get?_put_self, Bench.cutBefore, hin]
    case remainder => simp [get?_put_self, get?_put_of_ne hne, hsucc, Bench.cutBefore, hid]
    case others =>
      intro i hi hspare
      have hid' : id ≠ i := Ne.symm (by simpa using hi)
      have hi' : id - 1 ≠ i := fun he => hspare (congrArg some he)
      simp [get?_put_of_ne, Bench.cutBefore, hid', hi']
    case total_eq =>
      let low : Block := { start := b.start, size := need, page := b.page }
      have hshare : (w.cutBefore need id b).table.total = w.table.total :=
        total_share (c := low) hhole hb hne (Nat.add_sub_cancel' (Nat.le_of_lt hlt))
      have hlow : (w.cutBefore need id b).table.get? (id - 1) = some low := by
        simp [get?_put_self, get?_put_of_ne (Ne.symm hne), Bench.cutBefore, hin, low]
      have hmark := total_put hlow { b with size := need, used := true }
      simpa [low, hshare] using hmark
    all_goals simp [Nat.ne_of_gt hlt, not_enclosed hhole (Or.inl hsucc), Bench.cutBefore]
  | after hlt hnone hhole =>
    have hin := lt_of_isHoleAt hhole
    have hne : id ≠ id + 1 := Nat.ne_of_lt (Nat.lt_succ_self id)
    constructor
    case spare =>
      rintro i ⟨⟩
      exact ⟨Or.inr rfl, Or.inl hhole⟩
    case granted_eq => simp [get?_put_self, Bench.cutAfter, hid]
    case remainder => simp [get?_put_self, get?_put_of_ne, Bench.cutAfter, hin]
    case others =>
      intro i hi hspare
      have hid' : id ≠ i := Ne.symm (by simpa using hi)
      have hi' : id + 1 ≠ i := fun he => hspare (congrArg some he)
      simp [get?_put_of_ne, Bench.cutAfter, hid', hi']
    case total_eq =>
      have hshare : (w.cutAfter need id b).table.total = w.table.total :=
        total_share (d := { b with size := need }) hhole hb (Ne.symm hne)
          (Nat.sub_add_cancel (Nat.le_of_lt hlt))
      have hlow : (w.cutAfter need id b).table.get? id = some { b with size := need } := by
        simp [get?_put_self, Bench.cutAfter, hid]
      have hmark := total_put hlow { b with size := need, used := true }
      simpa [hshare] using hmark
    all_goals simp [Nat.ne_of_gt hlt, not_enclosed hhole (Or.inr rfl), Bench.cutAfter]
  | unsplit hlt hnone hhole =>
    have hnone : w.table.Enclosed id := by
      rintro i (hi | rfl)
      · obtain rfl : i = id - 1 := by omega
        exact hnone (by omega)
      · exact hhole
    constructor
    case granted_eq => simp [get?_put_self hid]
    case others => intro i hi _; simpa using get?_put_of_ne (Ne.symm (by simpa using hi)) _
    case total_eq => simpa using total_put hb { b with used := true }
    all_goals simp [SplitKind.spare?, Nat.ne_of_gt hlt, hlt, hnone]

end Placing

section Absorbing

variable {w : Bench} {need i : Nat} {b : Block} {lead taken beyond : List Block} {ids : List Nat}

theorem total_absorb (hw : w.table.blocks = lead ++ b :: (taken ++ beyond)) :
    (w.absorb lead.length b taken).table.total = w.table.total := by
  have hempty : ((taken.map Block.hollow).map (·.size)).sum = 0 := by
    rw [List.sum_eq_zero_iff]
    simp only [List.map_map, List.mem_map, Function.comp_apply]
    rintro n ⟨c, -, rfl⟩
    rcases Nat.eq_zero_or_pos c.size with hz | hpos
    · rw [hollow_of_eq_zero hz, hz]
    · rw [hollow_of_pos hpos]
      rfl
  rw [total, total, absorb_blocks hw, hw]
  simp only [List.map_append, List.map_cons, List.sum_append, List.sum_cons, hempty, Block.joined]
  omega

/-- The block behind `lead` absorbs those of some ids. -/
structure Absorbs (w : Bench) (need : Nat) (lead : List Block) (b : Block)
    (taken beyond : List Block) (ids : List Nat) : Prop where
  blocks_eq : w.table.blocks = lead ++ b :: (taken ++ beyond)
  emptied : EmptiedAt (lead.length + 1) ids (taken ++ beyond) (taken.map .hollow ++ beyond)
  takings : w.table.Takings need b.size lead.length (lead.length + 1) ids

/-- A block that absorbed others leaves holes in their places. -/
theorem Absorbs.get?_eq (h : Absorbs w need lead b taken beyond ids) (hi : i ≠ lead.length) :
    (w.absorb lead.length b taken).table.get? i =
      if i ∈ ids then (w.table.get? i).map .emptied else w.table.get? i := by
  rw [get?, get?, absorb_blocks h.blocks_eq, h.blocks_eq]
  rcases Nat.lt_or_gt_of_ne hi with hlt | hgt
  · have hout : i ∉ ids := fun hin => by
      have := h.takings.behind i hin
      omega
    rw [if_neg hout, List.getElem?_append_left hlt, List.getElem?_append_left hlt]
  · obtain ⟨k, rfl⟩ := Nat.exists_eq_add_of_lt hgt
    have hk := h.emptied k
    rw [Nat.add_right_comm] at hk
    simpa [List.getElem?_append_right, Nat.add_assoc, Nat.add_sub_cancel_left] using hk

/-- The holes of a table after a block absorbed others: those from before, and what it left. -/
theorem Absorbs.isHoleAt_iff (h : Absorbs w need lead b taken beyond ids) (hi : i ≠ lead.length) :
    (w.absorb lead.length b taken).table.isHoleAt i = true ↔
      w.table.isHoleAt i = true ∨ i ∈ ids := by
  rw [isHoleAt, h.get?_eq hi]
  by_cases hin : i ∈ ids
  · obtain ⟨c, hc, -, -⟩ := isFreeAt_iff.mp (h.takings.free i hin)
    simp [hin, hc, Block.isHole, Block.emptied]
  · simp [hin, isHoleAt]

/-- A block that absorbed others has a hole behind it. -/
theorem Absorbs.enclosed_iff (h : Absorbs w need lead b taken beyond ids) :
    (w.absorb lead.length b taken).table.Enclosed lead.length ↔
      ids = [] ∧ w.table.Enclosed lead.length := by
  have hholes : ∀ i, i + 1 = lead.length ∨ i = lead.length + 1 →
      ((w.absorb lead.length b taken).table.isHoleAt i = false ↔
        w.table.isHoleAt i = false ∧ i ∉ ids) := by
    intro i hi
    have hne : i ≠ lead.length := by omega
    rw [← Bool.not_eq_true, h.isHoleAt_iff hne, not_or, Bool.not_eq_true]
  constructor
  · intro hnone
    refine ⟨?_, fun i hi => ((hholes i hi).mp (hnone i hi)).1⟩
    cases ids with
    | nil => rfl
    | cons j ids =>
      -- the place behind the block is that of the first one it absorbed, or before it
      obtain ⟨hhole, hout⟩ := (hholes _ (Or.inr rfl)).mp (hnone _ (Or.inr rfl))
      have hj := (List.isChain_cons_cons.mp h.takings.chain).1
      have hne : lead.length + 1 ≠ j := fun he => hout (by simp [he])
      have hlt := hj.lt
      rw [hj.holes (lead.length + 1) (Nat.lt_succ_self _) (by omega)] at hhole
      cases hhole
  · rintro ⟨rfl, hnone⟩ i hi
    exact (hholes i hi).mpr ⟨hnone i hi, by simp⟩

/-- Granting from the block that a merge made is granting from the run that it took. -/
theorem Absorbs.places {t' : BlockTable} {granted : Nat} {kind : SplitKind}
    (h : Absorbs w need lead b taken beyond ids)
    (hp : Places (w.absorb lead.length b taken).table t' need lead.length (b.joined taken) []
      (b.joined taken).size granted kind) :
    Places w.table t' need lead.length b ids (b.joined taken).size granted kind where
  id_eq := hp.id_eq
  perfect_iff := hp.perfect_iff
  unsplit_iff := by simpa [← h.enclosed_iff] using hp.unsplit_iff
  spare i hi := by
    obtain ⟨hbeside, hhole⟩ := hp.spare i hi
    exact ⟨hbeside, (h.isHoleAt_iff (by omega)).mp (by simpa using hhole)⟩
  granted_eq := hp.granted_eq
  remainder := hp.remainder
  emptied i hi hspare := by
    have hne : i ≠ lead.length := Nat.ne_of_gt (h.takings.behind i hi)
    rw [isHoleAt, hp.others i (by simpa using hne) hspare]
    exact (h.isHoleAt_iff hne).mpr (Or.inr hi)
  others i hi hspare := by
    obtain ⟨hne, hout⟩ := not_or.mp (mt List.mem_cons.mpr hi)
    rw [hp.others i (by simpa using hne) hspare, h.get?_eq hne, if_neg hout]
  size_eq := hp.size_eq.trans (by
    simp [BlockTable.size, absorb_blocks h.blocks_eq, h.blocks_eq])
  capacity_eq := hp.capacity_eq.trans (vacate_capacity taken _)
  total_eq := hp.total_eq.trans (total_absorb h.blocks_eq)

end Absorbing

section Serving

variable {w w' : Bench} {need id first last : Nat} {g : Grant}

/-- What is granted in place serves the request. -/
theorem Takes.serves (h : Takes w need id g w') :
    ∃ b absorbed, Serves w.table w'.table need id b absorbed g := by
  cases h with
  | @cut lead taken beyond b granted kind _ hw hfree hpos hgather hcut =>
    have hb := get?_of_split hw
    have hbehind : w.table.blocks.drop (lead.length + 1) = taken ++ beyond := by simp [hw]
    obtain ⟨ids, ht, htotal, hlen, hat⟩ := gather?_takings hgather (.block hb) hbehind
    obtain ⟨-, -, -, -, -, -, -, -, -, hle⟩ := gather?_eq_some hgather
    have hbytes : (b.joined taken).size = w.table.bytes (lead.length :: ids) := by
      rw [bytes_cons hb]
      exact htotal
    refine ⟨b, ids, hb, ht.isRun (isFreeAt_iff.mpr ⟨b, hb, hfree, hpos⟩), hbytes ▸ hle, ?_, ?_, ?_⟩
    · intro front hfront hneed
      rw [bytes_cons hb] at hneed
      exact ht.shortest front hfront hneed
    · simpa using hlen
    · rw [← hbytes]
      exact Absorbs.places ⟨hw, hat, ht⟩ (hcut.places (get?_of_split (absorb_blocks hw)))

/-- What is done to a table by operations whose regions fit leaves its free blocks where they end at
addresses. -/
theorem addressed_of_performAll {capacity : Nat} {ops : List Operation}
    (hops : ∀ op ∈ ops, op.Proper ∧ op.Fits capacity)
    (hrun : (performAll ops).run (Bench.ofCapacity capacity) = .ok () w) : w.table.Addressed := by
  obtain ⟨w', -, hends⟩ := performAll_exact capacity ops fun op hop => (hops op hop).1
  rcases hends with ⟨hok, htable⟩ | ⟨stop, -, hstop, -⟩
  · obtain ⟨-, rfl⟩ := EStateM.Result.ok.inj (hrun.symm.trans hok)
    rw [htable]
    exact ((held_ofCapacity capacity).applyAll hops).addressed
  · cases hrun.symm.trans hstop

/-- A search grants from the first block of its window that offers enough bytes, and touches nothing
where there is none. Only a free block that ends at no address can stop it, before it has touched
anything; operations whose regions fit leave no such block. -/
theorem find_leftmost_fit (w : Bench) (first last need : Nat) :
    (((find first last need).run w = .error .sum w ∧ ¬ w.table.Addressed) ∨
      ((find first last need).run w = .ok none w ↔
        ∀ id, first ≤ id → id < last → ¬ w.table.Offers need id) ∧
      (w.table.find? first last need = none ↔
        ∀ id, first ≤ id → id < last → ¬ w.table.Offers need id) ∧
      ∀ id, IsLeast {id | first ≤ id ∧ id < last ∧ w.table.Offers need id} id →
        ∃ b absorbed grant w' t', (find first last need).run w = .ok (some grant) w' ∧
          w.table.find? first last need = some (grant, t') ∧ Alike w'.table t' ∧
          Serves w.table w'.table need id b absorbed grant) ∧
    ∀ capacity ops, (∀ op ∈ ops, op.Proper ∧ op.Fits capacity) →
      (performAll ops).run (Bench.ofCapacity capacity) = .ok () w → w.table.Addressed := by
  refine ⟨?_, fun capacity ops hops hrun => addressed_of_performAll hops hrun⟩
  rcases find_cases w first last need with
    ⟨haddr, hstop⟩ | ⟨hlist, hrun, hbarren⟩ |
    ⟨grant, t', w', j, hlist, hrun, halike, -, htakes, hj, hlt, hbarren⟩
  · exact Or.inl ⟨hstop, haddr⟩
  · have hnone : ∀ id, first ≤ id → id < last → ¬ w.table.Offers need id :=
      fun id hid hlt => barren_iff.mp (hbarren id hid hlt)
    refine Or.inr ⟨iff_of_true hrun hnone, iff_of_true hlist hnone, fun id hid => ?_⟩
    obtain ⟨hfirst, hlast, hoffers⟩ := hid.1
    exact absurd hoffers (hnone id hfirst hlast)
  · obtain ⟨b, absorbed, hserves⟩ := htakes.serves
    have hoffers : w.table.Offers need j := ⟨absorbed, hserves.isRun, hserves.enough⟩
    have hsome : ¬ ∀ id, first ≤ id → id < last → ¬ w.table.Offers need id :=
      fun hnone => hnone j hj hlt hoffers
    refine Or.inr ⟨iff_of_false (by simp [hrun]) hsome, iff_of_false (by simp [hlist]) hsome,
      fun id hid => ?_⟩
    obtain ⟨⟨hfirst, -, hid'⟩, hleast⟩ := hid
    have hle : id ≤ j := hleast ⟨hj, hlt, hoffers⟩
    obtain rfl : id = j := by
      by_contra hne
      exact barren_iff.mp (hbarren id hfirst (Nat.lt_of_le_of_ne hle hne)) hid'
    exact ⟨b, absorbed, grant, w', t', hrun, hlist, halike, hserves⟩

/-- Of four blocks of two bytes the first takes the second to grant three bytes. -/
theorem find_leftmost_fit_pair :
    let w : Bench := { table := { blocks := cut 0 8 2 4, capacity := 4 } }
    IsLeast {id | 0 ≤ id ∧ id < 4 ∧ w.table.Offers 3 id} 0 ∧
      ∃ b absorbed grant w' t', (find 0 4 3).run w = .ok (some grant) w' ∧
        w.table.find? 0 4 3 = some (grant, t') ∧ Alike w'.table t' ∧
        Serves w.table w'.table 3 0 b absorbed grant := by
  intro w
  have hnext : w.table.Continues 0 1 := ⟨Nat.one_pos, by omega, _, _, rfl, rfl, rfl⟩
  have hrun : w.table.IsRun [0, 1] := ⟨by decide, List.isChain_pair.mpr hnext⟩
  have hleast : IsLeast {id | 0 ≤ id ∧ id < 4 ∧ w.table.Offers 3 id} 0 :=
    ⟨⟨Nat.le_refl 0, by decide, [1], hrun, by decide⟩, fun id _ => Nat.zero_le id⟩
  have haddressed : w.table.Addressed := by
    unfold Addressed
    decide
  refine ⟨hleast, ?_⟩
  rcases (find_leftmost_fit w 0 4 3).1 with ⟨-, hnot⟩ | ⟨-, -, hserves⟩
  · exact absurd haddressed hnot
  · exact hserves 0 hleast

/-- A region of fifty bytes up to the end of all addresses is one free block, and a search for more
than that is stopped when it asks where the block ends: it neither grants nor finds nothing. -/
theorem find_stops_behind_last_address : ∃ w,
    (performAll [.append 18446744073709551566 50 50]).run (Bench.ofCapacity 4) = .ok () w ∧
    (∀ id, 0 ≤ id → id < 18446744073709551615 → ¬ w.table.Offers 60 id) ∧
    (find 0 18446744073709551615 60).run w = .error .sum w := by
  let w : Bench := (Bench.ofCapacity 4).pushAll [.free 18446744073709551566 50]
  have hbarren : ∀ id, 0 ≤ id → id < 18446744073709551615 → w.table.Barren 60 id := by
    intro id _ _ lead b behind hsplit hlen hfree hpos
    have hblocks : w.table.blocks = [.free 18446744073709551566 50] := rfl
    rw [hblocks] at hsplit
    obtain ⟨rfl, hrest⟩ := List.append_eq_singleton_iff.mp hsplit.symm |>.resolve_right (by simp)
    obtain ⟨rfl, rfl⟩ := List.cons.inj hrest
    rfl
  exact ⟨w, rfl, fun id hid hlt => barren_iff.mp (hbarren id hid hlt), rfl⟩

end Serving
end Machine

end BlockTable
end GuestLibrary
