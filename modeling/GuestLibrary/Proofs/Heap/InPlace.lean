import GuestLibrary.Proofs.Heap.Cutting

/-! The block table in place and as a list. A search in place passes over the blocks at which too
few free bytes start and takes the first other one, as a search of the list does; regions are
appended and blocks are marked alike. Whatever the table, no id is missing from it and no size falls
short; only where a block ends at no address, or the ids are used up, a sum can stop the program. -/
namespace GuestLibrary
namespace BlockTable

/-- Tables that cannot be told apart. -/
structure Alike (t t' : BlockTable) : Prop where
  blocks_eq : t.blocks = t'.blocks
  capacity_eq : t.capacity = t'.capacity
  blocksOnPage_eq : ∀ page, t.blocksOnPage page = t'.blocksOnPage page

theorem Alike.refl (t : BlockTable) : Alike t t := ⟨rfl, rfl, fun _ => rfl⟩

theorem Alike.trans {t t' t'' : BlockTable} (h : Alike t t') (h' : Alike t' t'') : Alike t t'' :=
  ⟨h.blocks_eq.trans h'.blocks_eq, h.capacity_eq.trans h'.capacity_eq,
    fun page => (h.blocksOnPage_eq page).trans (h'.blocksOnPage_eq page)⟩

theorem eq_mk {t : BlockTable} {blocks : List Block} {capacity : Nat} {perPage : PageCounts}
    (hblocks : t.blocks = blocks) (hcapacity : t.capacity = capacity)
    (hperPage : t.perPage = perPage) : t = ⟨blocks, capacity, perPage⟩ := by
  subst hblocks hcapacity hperPage
  rfl

/-- The page of every block that has a size has a count. -/
def Listed (t : BlockTable) : Prop :=
  ∀ b ∈ t.blocks, 0 < b.size → (t.perPage.lookup b.page).isSome

/-- The table that a search makes, behind the blocks that it leaves out. -/
def Found.table (found : Found) (t : BlockTable) (front : List Block) : BlockTable :=
  { t with
    blocks := front ++ found.blocks
    perPage :=
      let counts := found.absorbed.foldl PageCounts.decrement t.perPage
      found.remainder.elim counts counts.increment }

/-- The block of an id is used or a hole, or too few free bytes start at it. -/
def Barren (t : BlockTable) (need id : Nat) : Prop :=
  ∀ lead b behind, t.blocks = lead ++ b :: behind → lead.length = id → b.used = false →
    0 < b.size → gather? need b.size b.fin behind = none

/-- A barren block grants nothing. -/
theorem Barren.grantFrom?_eq_none {t : BlockTable} {need id : Nat} {b : Block}
    {previous : Option Block} {front rest : List Block}
    (ht : t.blocks = front ++ (previous.toList ++ b :: rest))
    (hid : id = front.length + previous.toList.length) (h : Barren t need id) :
    grantFrom? need id previous b rest = none := by
  rw [grantFrom?]
  by_cases hskip : b.used || b.size == 0
  · rw [if_pos hskip]
  · obtain ⟨hfree, hpos⟩ : b.used = false ∧ 0 < b.size := by
      simpa [Nat.pos_iff_ne_zero] using hskip
    rw [if_neg hskip, h (front ++ previous.toList) b rest (by simp [ht]) (by simp [hid]) hfree hpos]
    rfl

namespace Machine

/-- A search grants from a block that absorbs as many blocks behind it as it needs. -/
inductive Takes (w : Bench) (need : Nat) : Nat → Grant → Bench → Prop
  | cut {lead taken beyond : List Block} {b : Block} {granted : Nat} {kind : SplitKind}
      {w' : Bench} :
      w.table.blocks = lead ++ b :: (taken ++ beyond) → b.used = false → 0 < b.size →
      gather? need b.size b.fin (taken ++ beyond) =
        some ⟨(b.joined taken).size, taken.map .hollow ++ beyond, (sized taken).map (·.page)⟩ →
      Cut (w.absorb lead.length b taken) need lead.length (b.joined taken) granted kind w' →
      Takes w need lead.length ⟨granted, (sized taken).length, kind⟩ w'

section Searching

variable {w : Bench} {b : Block} {lead behind : List Block} {need : Nat} {run : Run}

theorem absorb_nil (hw : w.table.blocks = lead ++ b :: behind) :
    w.absorb lead.length b [] = w := by
  have hset : w.table.blocks.set lead.length b = w.table.blocks := by simp [hw]
  simp [Bench.absorb, Bench.vacate, Bench.put, Block.joined, hset]

/-- A search goes on behind a block that is barren, unless a free block ends at no address. -/
theorem run_search_barren (hw : w.table.blocks = lead ++ b :: behind)
    (hb : Barren w.table need lead.length) (n : Nat) :
    (¬ w.table.Addressed ∧ (search need (n + 1) lead.length).run w = .error .sum w) ∨
    (search need (n + 1) lead.length).run w = (search need n (lead.length + 1)).run w := by
  rw [search, EStateM.run_bind, run_block (get?_of_split hw)]
  by_cases hskip : b.used || b.size == 0
  · exact Or.inr (by simp [hskip])
  obtain ⟨hfree, hpos⟩ : b.used = false ∧ 0 < b.size := by
    simpa [Nat.pos_iff_ne_zero] using hskip
  have hnone := hb lead b behind hw rfl hfree hpos
  have hlt : b.size < need := by
    by_contra hge
    rw [gather?_of_le (Nat.le_of_not_lt hge)] at hnone
    cases hnone
  rcases merge_cases hw hfree hpos need with ⟨haddr, he⟩ | ⟨-, he⟩ | ⟨taken, beyond, -, hsome, -⟩
  · exact Or.inl ⟨haddr, by simp [hskip, hlt, he]⟩
  · exact Or.inr (by simp [hskip, hlt, he])
  · cases hnone.symm.trans hsome

theorem search_takes (hw : w.table.blocks = lead ++ b :: behind) (hfree : b.used = false)
    (hpos : 0 < b.size) (h : gather? need b.size b.fin behind = some run) (n : Nat) :
    (¬ w.table.Addressed ∧ (search need (n + 1) lead.length).run w = .error .sum w) ∨
    ∃ g w', (search need (n + 1) lead.length).run w = .ok (some g) w' ∧
      Takes w need lead.length g w' := by
  by_cases hlt : b.size < need
  · rcases merge_cases hw hfree hpos need with
      ⟨haddr, he⟩ | ⟨hnone, -⟩ | ⟨taken, beyond, rfl, hsome, hmerge, hword⟩
    · exact Or.inl ⟨haddr, by
        simp [search, run_block (get?_of_split hw), hfree, Nat.ne_of_gt hpos, hlt, he]⟩
    · cases hnone.symm.trans h
    · obtain rfl := Option.some.inj (hsome.symm.trans h)
      obtain ⟨-, -, -, -, -, -, -, -, -, hle⟩ := gather?_eq_some h
      rcases grant_cases (get?_of_split (absorb_blocks hw)) hle (sized taken).length with
        ⟨hover, -⟩ | ⟨granted, kind, w', hgrant, hcut⟩
      · -- the run ends at an address, and the grant before it
        have hfin : (b.joined taken).start + need ≤ (b.joined taken).fin :=
          Nat.add_le_add_left hle _
        omega
      · refine Or.inr ⟨_, w', ?_, .cut hw hfree hpos h hcut⟩
        simp [search, run_block (get?_of_split hw), hfree, Nat.ne_of_gt hpos, hlt, hmerge, hgrant]
  · have hle : need ≤ b.size := Nat.le_of_not_lt hlt
    have halone : w.absorb lead.length b [] = w := absorb_nil hw
    rcases grant_cases (get?_of_split hw) hle 0 with
      ⟨hover, he⟩ | ⟨granted, kind, w', hgrant, hcut⟩
    · refine Or.inl ⟨fun haddr => ?_, by
        simp [search, run_block (get?_of_split hw), hfree, Nat.ne_of_gt hpos, hlt, he]⟩
      have hfin := haddr b (by simp [hw]) hpos hfree
      simp only [Block.fin] at hfin
      omega
    · have htake : Takes w need lead.length ⟨granted, (sized []).length, kind⟩ w' :=
        .cut hw hfree hpos (gather?_of_le hle) (halone.symm ▸ hcut)
      refine Or.inr ⟨_, w', ?_, htake⟩
      simp [search, run_block (get?_of_split hw), hfree, Nat.ne_of_gt hpos, hlt, hgrant]

end Searching

section Agreement

variable {w w' : Bench} {need id : Nat} {b : Block} {previous : Option Block}
  {front rest : List Block}

/-- Taking blocks leaves a count to every page that has one. -/
theorem isSome_lookup_absorb {page : Nat} (id : Nat) (b : Block) (taken : List Block)
    (h : (w.table.perPage.lookup page).isSome) :
    ((w.absorb id b taken).table.perPage.lookup page).isSome := by
  have hkept : ∀ pages : List Nat, ∀ counts : PageCounts, (counts.lookup page).isSome →
      ((pages.foldl PageCounts.decrement counts).lookup page).isSome := by
    intro pages
    induction pages with
    | nil => exact fun _ hsome => hsome
    | cons p pages ih => exact fun counts hsome => ih _ (PageCounts.isSome_lookup_adjust _ p hsome)
  rw [Bench.absorb, put_perPage, vacate_perPage]
  exact hkept _ _ h

/-- What is granted in place is what the block grants in a list. -/
theorem Takes.grantFrom? {g : Grant} (h : Takes w need id g w')
    (hw : w.table.blocks = front ++ (previous.toList ++ b :: rest))
    (hprevious : previous = none → front = [])
    (hid : id = front.length + previous.toList.length) :
    ∃ found, grantFrom? need id previous b rest = some found ∧ found.grant = g ∧
      Alike w'.table (found.table w.table front) ∧
      (w.table.Listed → w'.table = found.table w.table front) := by
  cases h with
  | @cut lead taken beyond c granted kind _ hw' hfree hpos hgather hcut =>
    have hlead : lead ++ c :: (taken ++ beyond) = (front ++ previous.toList) ++ b :: rest := by
      rw [← hw', hw, List.append_assoc]
    obtain ⟨rfl, htail⟩ := List.append_inj hlead (by simpa using hid)
    obtain ⟨rfl, rfl⟩ := List.cons.inj htail
    have habsorbed := absorb_blocks hw'
    rw [List.append_assoc] at habsorbed
    have hd := hcut.divides habsorbed hprevious hid
    have hcounts : (w.absorb (front ++ previous.toList).length c taken).table.perPage =
        ((sized taken).map (·.page)).foldl PageCounts.decrement w.table.perPage :=
      vacate_perPage taken _
    rw [BlockTable.grantFrom?, if_neg (by simp [hfree, Nat.ne_of_gt hpos]), hgather]
    have hcapacity : w'.table.capacity = w.table.capacity :=
      hd.capacity_eq.trans (vacate_capacity taken _)
    refine ⟨_, rfl, ?_, ⟨hd.blocks_eq, hcapacity, fun page => ?_⟩, fun hlisted => ?_⟩
    · simp [hd.granted_eq, hd.kind_eq, Block.joined]
    · rw [hd.blocksOnPage_eq, hcounts]
      rfl
    · have hpage := isSome_lookup_absorb (front ++ previous.toList).length c taken
        (hlisted c (by simp [hw']) hpos)
      have hperPage := hd.perPage_eq hpage
      rw [hcounts] at hperPage
      exact eq_mk hd.blocks_eq hcapacity hperPage

/-- Everything a search can do: it passes over barren blocks, and takes the first one that is
not. -/
theorem search_cases (n : Nat) (hw : w.table.blocks = front ++ (previous.toList ++ rest))
    (hprevious : previous = none → front = []) (hid : id = front.length + previous.toList.length)
    (hn : n ≤ rest.length) :
    (¬ w.table.Addressed ∧ (search need n id).run w = .error .sum w) ∨
    (firstFit? need n id previous rest = none ∧ (search need n id).run w = .ok none w ∧
      ∀ j, id ≤ j → j < id + n → Barren w.table need j) ∨
    ∃ found w' j, firstFit? need n id previous rest = some found ∧
      (search need n id).run w = .ok (some found.grant) w' ∧
      Alike w'.table (found.table w.table front) ∧
      (w.table.Listed → w'.table = found.table w.table front) ∧ Takes w need j found.grant w' ∧
      id ≤ j ∧ j < id + n ∧ ∀ k, id ≤ k → k < j → Barren w.table need k := by
  induction n generalizing id previous front rest with
  | zero => exact Or.inr (Or.inl ⟨rfl, rfl, fun j hj hlt => absurd hlt (Nat.not_lt.mpr hj)⟩)
  | succ n ih =>
    cases rest with
    | nil => simp at hn
    | cons b rest =>
      have hw' : w.table.blocks = (front ++ previous.toList) ++ b :: rest := by simp [hw]
      have hid' : id = (front ++ previous.toList).length := by simp [hid]
      by_cases hb : Barren w.table need id
      · rcases run_search_barren hw' (hid' ▸ hb) n with ⟨haddr, he⟩ | hrun
        · exact Or.inl ⟨haddr, hid' ▸ he⟩
        rw [← hid'] at hrun
        rw [hrun, firstFit?, hb.grantFrom?_eq_none hw hid]
        have hw'' : w.table.blocks = (front ++ previous.toList) ++ ((some b).toList ++ rest) := by
          simp [hw]
        have hid'' : id + 1 = (front ++ previous.toList).length + (some b).toList.length := by
          simp [hid]
        rcases ih hw'' (by simp) hid'' (by simpa using hn) with
          hstop | ⟨hf, hr, hbarren⟩ | ⟨found, w', j, hf, hr, ha, heq, ht, hj, hlt, hbarren⟩
        · exact Or.inl hstop
        · refine Or.inr (Or.inl ⟨by rw [hf]; rfl, hr, fun k hk hlt => ?_⟩)
          rcases Nat.eq_or_lt_of_le hk with rfl | hgt
          · exact hb
          · exact hbarren k hgt (by omega)
        · refine Or.inr (Or.inr ⟨{ found with blocks := previous.toList ++ found.blocks }, w', j,
            by rw [hf]; rfl, hr, ?_, fun hlisted => ?_, ht, by omega, by omega,
            fun k hk hlt => ?_⟩)
          · simpa [Found.table] using ha
          · simpa [Found.table] using heq hlisted
          · rcases Nat.eq_or_lt_of_le hk with rfl | hgt
            · exact hb
            · exact hbarren k hgt hlt
      · simp only [Barren, not_forall] at hb
        obtain ⟨lead, c, behind, hsplit, hlen, hfree, hpos, hgather⟩ := hb
        obtain ⟨rfl, htail⟩ := List.append_inj (hsplit.symm.trans hw') (hlen.trans hid')
        obtain ⟨rfl, rfl⟩ := List.cons.inj htail
        obtain ⟨run, hrun⟩ := Option.ne_none_iff_exists'.mp hgather
        rcases search_takes hsplit hfree hpos hrun n with ⟨haddr, he⟩ | ⟨g, w', hr, ht⟩
        · exact Or.inl ⟨haddr, hlen ▸ he⟩
        rw [hlen] at hr ht
        obtain ⟨found, hf, rfl, ha, heq⟩ := ht.grantFrom? hw hprevious hid
        exact Or.inr (Or.inr ⟨found, w', id, by rw [firstFit?, hf], hr, ha, heq, ht,
          Nat.le_refl id, by omega, fun k hk hlt => absurd hlt (Nat.not_lt.mpr hk)⟩)

/-- A window of a table begins behind the block before it, if there is one. -/
theorem window_split {blocks : List Block} {first : Nat} (h : first ≤ blocks.length) :
    ∃ previous, (if first = 0 then none else blocks[first - 1]?) = previous ∧
      blocks = blocks.take (first - 1) ++ (previous.toList ++ blocks.drop first) ∧
      (previous = none → blocks.take (first - 1) = []) ∧
      first = (blocks.take (first - 1)).length + previous.toList.length := by
  cases first with
  | zero => exact ⟨none, by simp⟩
  | succ first =>
    have hlt : first < blocks.length := h
    refine ⟨some blocks[first], by simp [hlt], ?_, by simp, ?_⟩
    · rw [Nat.add_sub_cancel, Option.toList_some, List.singleton_append,
        ← List.drop_eq_getElem_cons hlt, List.take_append_drop]
    · simp
      omega

/-- A search in place and a search of the list grant the same, and make the same table, unless a
free block that ends at no address stops the one in place. -/
theorem find_cases (w : Bench) (first last need : Nat) :
    (¬ w.table.Addressed ∧ (find first last need).run w = .error .sum w) ∨
    (w.table.find? first last need = none ∧ (find first last need).run w = .ok none w ∧
      ∀ j, first ≤ j → j < last → Barren w.table need j) ∨
    ∃ g t' w' j, w.table.find? first last need = some (g, t') ∧
      (find first last need).run w = .ok (some g) w' ∧ Alike w'.table t' ∧
      (w.table.Listed → w'.table = t') ∧ Takes w need j g w' ∧ first ≤ j ∧ j < last ∧
      ∀ k, first ≤ k → k < j → Barren w.table need k := by
  have hrun : (find first last need).run w =
      (search need (min last w.table.size - first) first).run w := by
    simp [find]
  have hsize : w.table.size = w.table.blocks.length := rfl
  have houtside : ∀ j, w.table.size ≤ j → Barren w.table need j := by
    intro j hj lead b behind hw hlen
    have := lt_of_split hw
    omega
  rw [hrun, find?]
  by_cases hle : first ≤ w.table.size
  · obtain ⟨previous, hp, hsplit, hnone, hid⟩ := window_split hle
    rw [hp]
    rcases search_cases (min last w.table.size - first) hsplit hnone hid
      (by rw [List.length_drop]; omega) with
      hstop | ⟨hf, hr, hbarren⟩ | ⟨found, w', j, hf, hr, ha, heq, ht, hj, hlt, hbarren⟩
    · exact Or.inl hstop
    · refine Or.inr (Or.inl ⟨by rw [hf]; rfl, hr, fun k hk hlt => ?_⟩)
      by_cases hin : k < w.table.size
      · exact hbarren k hk (by omega)
      · exact houtside k (Nat.le_of_not_lt hin)
    · exact Or.inr (Or.inr
        ⟨_, _, w', j, by rw [hf]; rfl, hr, ha, heq, ht, hj, by omega, hbarren⟩)
  · have hzero : min last w.table.size - first = 0 := by omega
    rw [hzero]
    exact Or.inr (Or.inl ⟨rfl, rfl, fun k hk _ => houtside k (by omega)⟩)

end Agreement

/-- A table after blocks were appended. -/
def Bench.pushAll (w : Bench) : List Block → Bench
  | [] => w
  | b :: fresh => ((w.count b.page true).append b).pushAll fresh

section Appending

variable {w : Bench} {start len blockSize count : Nat}

theorem pushAll_table (fresh : List Block) : (w.pushAll fresh).table =
    { w.table with
      blocks := w.table.blocks ++ fresh
      perPage := fresh.foldl (fun counts b => counts.increment b.page) w.table.perPage } := by
  induction fresh generalizing w with
  | nil => simp [Bench.pushAll]
  | cons b fresh ih => simp [Bench.pushAll, ih, Bench.append]

theorem run_push (b : Block) : (push b).run w = .ok () ((w.count b.page true).append b) := rfl

/-- The block `i` of the `count` blocks of a region. -/
def piece (start len blockSize count i : Nat) : Block :=
  .free (start + i * blockSize) (if i + 1 = count then len - i * blockSize else blockSize)

/-- Blocks are pushed one after the other, up to one that begins at no address. -/
theorem pushFrom_cases (hlen : (count - 1) * blockSize ≤ len) (n i : Nat) (hi : i + n = count) :
    (pushFrom start len blockSize count n i).run w =
      .ok () (w.pushAll ((List.range' i n).map (piece start len blockSize count))) ∨
    ∃ stop fresh, (stop = .sum ∨ stop = .product) ∧
      fresh <+: (List.range' i n).map (piece start len blockSize count) ∧
      (pushFrom start len blockSize count n i).run w = .error stop (w.pushAll fresh) ∧
      wordLimit ≤ start + len := by
  induction n generalizing i w with
  | zero => exact Or.inl rfl
  | succ n ih =>
    have hle : i * blockSize ≤ len :=
      Nat.le_trans (Nat.mul_le_mul_right blockSize (by omega)) hlen
    by_cases hproduct : i * blockSize < wordLimit
    · by_cases hsum : start + i * blockSize < wordLimit
      · have hpush : (pushFrom start len blockSize count (n + 1) i).run w =
            (pushFrom start len blockSize count n (i + 1)).run
              ((w.count (piece start len blockSize count i).page true).append
                (piece start len blockSize count i)) := by
          by_cases hlast : i + 1 = count
          · simp [pushFrom, Word.product_eq hproduct, Word.sum_eq hsum, hlast,
              Word.difference_eq hle, run_push, piece]
          · simp [pushFrom, Word.product_eq hproduct, Word.sum_eq hsum, hlast, run_push, piece]
        rw [hpush, List.range'_succ, List.map_cons, Bench.pushAll]
        rcases ih (i + 1) (by omega) with hrest | ⟨stop, fresh, hstop, hprefix, hrest, hover⟩
        · exact Or.inl hrest
        · exact Or.inr ⟨stop, _ :: fresh, hstop, List.cons_prefix_cons.mpr ⟨rfl, hprefix⟩, hrest,
            hover⟩
      · have hover := Nat.le_of_not_lt hsum
        refine Or.inr ⟨.sum, [], Or.inl rfl, List.nil_prefix, ?_, by omega⟩
        simp [pushFrom, Word.product_eq hproduct, Word.sum_stops hover, Bench.pushAll]
    · have hover := Nat.le_of_not_lt hproduct
      refine Or.inr ⟨.product, [], Or.inr rfl, List.nil_prefix, ?_, by omega⟩
      simp [pushFrom, Word.product_stops hover, Bench.pushAll]

theorem blocksForRegion_mul_le (len blockSize : Nat) :
    (blocksForRegion len blockSize - 1) * blockSize ≤ len := by
  rcases Nat.eq_zero_or_pos blockSize with rfl | hs
  · simp
  rcases Nat.eq_zero_or_pos len with rfl | hlen
  · simp [blocksForRegion]
  · exact Nat.le_of_lt (blocksForRegion_mul_lt hlen hs)

/-- A region is appended in place as the table appends it, unless the ids are used up or the region
ends at no address. Where that stops the program, some of its blocks are in the table. -/
theorem appendRegion_cases (w : Bench) (start len blockSize : Nat) :
    (∃ stop fresh, (stop = .sum ∨ stop = .product) ∧
      fresh <+: cut start len blockSize (blocksForRegion len blockSize) ∧
      (appendRegion start len blockSize).run w = .error stop (w.pushAll fresh) ∧
      (wordLimit ≤ w.table.size + blocksForRegion len blockSize ∨ wordLimit ≤ start + len)) ∨
    (w.table.appendRegion? start len blockSize = none ∧
      (appendRegion start len blockSize).run w = .ok none w) ∨
    ∃ ids, let w' := w.pushAll (cut start len blockSize (blocksForRegion len blockSize))
      w.table.appendRegion? start len blockSize = some (ids, w'.table) ∧
      (appendRegion start len blockSize).run w = .ok (some ids) w' := by
  by_cases hids : w.table.size + blocksForRegion len blockSize < wordLimit
  · by_cases hfull : w.table.capacity < w.table.size + blocksForRegion len blockSize
    · exact Or.inr (Or.inl ⟨by simp [appendRegion?, hfull],
        by simp [appendRegion, Word.sum_eq hids, hfull]⟩)
    have hcut : cut start len blockSize (blocksForRegion len blockSize) =
        (List.range' 0 (blocksForRegion len blockSize)).map
          (piece start len blockSize (blocksForRegion len blockSize)) := by
      rw [cut, List.range_eq_range']
      rfl
    rcases pushFrom_cases (w := w) (blocksForRegion_mul_le len blockSize)
        (blocksForRegion len blockSize) 0 (Nat.zero_add _) with
      hpushed | ⟨stop, fresh, hstop, hprefix, hpushed, hover⟩
    · rw [← hcut] at hpushed
      have hsize :
          (w.pushAll (cut start len blockSize (blocksForRegion len blockSize))).table.size =
            w.table.size + blocksForRegion len blockSize := by
        simp [pushAll_table, BlockTable.size, cut]
      refine Or.inr (Or.inr
        ⟨(w.table.size, w.table.size + blocksForRegion len blockSize), ?_, ?_⟩)
      · simp [appendRegion?, hfull, pushAll_table]
      · simp [appendRegion, Word.sum_eq hids, hfull, hpushed, hsize]
    · exact Or.inl ⟨stop, fresh, hstop, hcut ▸ hprefix,
        by simp [appendRegion, Word.sum_eq hids, hfull, hpushed], Or.inr hover⟩
  · have hover := Nat.le_of_not_lt hids
    exact Or.inl ⟨.sum, [], Or.inl rfl, List.nil_prefix,
      by simp [appendRegion, Word.sum_stops hover, Bench.pushAll], Or.inl hover⟩

end Appending

section Marking

variable {w : Bench} {id : Nat}

theorem put_used {b : Block} (hb : w.table.get? id = some b) (used : Bool) :
    w.put id { b with used } = { w with table := w.table.setUsed id used } := by
  have hblocks : w.table.blocks.set id { b with used } =
      w.table.blocks.modify id ({ · with used }) := by
    rw [List.modify_eq_set_getElem?, show w.table.blocks[id]? = some b from hb]
    rfl
  rw [Bench.put, hblocks]
  rfl

theorem setUsed_of_get?_eq_none (hb : w.table.get? id = none) (used : Bool) :
    { w with table := w.table.setUsed id used } = w := by
  have hblocks : w.table.blocks.modify id ({ · with used }) = w.table.blocks := by
    rw [List.modify_eq_set_getElem?, show w.table.blocks[id]? = none from hb]
    rfl
  rw [BlockTable.setUsed, hblocks]

theorem run_setUsed (w : Bench) (id : Nat) :
    (setUsed id).run w = .ok () { w with table := w.table.setUsed id true } := by
  cases hb : w.table.get? id with
  | none =>
    rw [setUsed_of_get?_eq_none hb]
    simp [setUsed, hb]
  | some b =>
    rw [← put_used hb]
    simp [setUsed, hb, run_store (lt_of_get? hb)]

/-- Marking a block free tells whether it was used. -/
theorem run_clearUsed (w : Bench) (id : Nat) :
    (clearUsed id).run w =
      .ok (w.table.isUsed id) { w with table := w.table.setUsed id false } := by
  rw [isUsed]
  cases hb : w.table.get? id with
  | none =>
    rw [setUsed_of_get?_eq_none hb]
    simp [clearUsed, hb]
  | some b =>
    rw [← put_used hb]
    simp [clearUsed, hb, run_store (lt_of_get? hb)]

end Marking

end Machine

end BlockTable
end GuestLibrary
