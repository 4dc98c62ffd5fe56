import GuestLibrary.Proofs.Heap.Growth

/-! Which block a search settles for, and how much of it is granted. The search takes the first
block at which enough free bytes start. A grant has exactly the bytes that were asked for, unless a
single block has more than that and no hole beside it: then there is no place to note a remainder,
and the block is granted whole. -/
namespace GuestLibrary
namespace BlockTable

variable {need window id total fin : Nat} {previous : Option Block} {b c : Block}
  {bs before rest : List Block} {found : Found}

/-- A block that suffices absorbs nothing. -/
theorem gather?_of_le (h : need ≤ total) : gather? need total fin rest = some ⟨total, rest, []⟩ := by
  cases rest <;> simp [gather?, h]

/-- A search of the blocks `bs` settles for the block `b`, since at none of those before it enough
free bytes start. -/
structure Settles (need : Nat) (bs before : List Block) (b : Block) (rest : List Block) : Prop where
  blocks_eq : bs = before ++ b :: rest
  passed : ∀ front c behind, bs = front ++ c :: behind → front.length < before.length →
    c.used = false → 0 < c.size → gather? need c.size c.fin behind = none

theorem Settles.cons (hs : Settles need bs before b rest)
    (hc : c.used = false → 0 < c.size → gather? need c.size c.fin bs = none) :
    Settles need (c :: bs) (c :: before) b rest where
  blocks_eq := by rw [hs.blocks_eq, List.cons_append]
  passed front d behind he hlt := by
    cases front with
    | nil =>
      obtain ⟨rfl, rfl⟩ := List.cons.inj he
      exact hc
    | cons e front =>
      obtain ⟨-, he⟩ := List.cons.inj he
      exact hs.passed front d behind he (Nat.lt_of_succ_lt_succ hlt)

/-- A search takes nothing from a free block only where too little is free from it on. -/
theorem gather?_of_grantFrom?_eq_none (h : grantFrom? need id previous b rest = none)
    (hb : b.used = false) (hpos : 0 < b.size) : gather? need b.size b.fin rest = none := by
  unfold grantFrom? at h
  rw [if_neg (by simp [hb, Nat.ne_of_gt hpos])] at h
  exact Option.map_eq_none_iff.mp h

/-- First fit grants from the block that it settles for. The block before that one is passed along,
for a hole there may take the grant. -/
theorem firstFit?_settles (h : firstFit? need window id previous bs = some found) :
    ∃ before b rest front last inner, Settles need bs before b rest ∧ before.length < window ∧
      front ++ last.toList = previous.toList ++ before ∧
      (last = none → front = []) ∧
      grantFrom? need (id + before.length) last b rest = some inner ∧
      found = { inner with blocks := front ++ inner.blocks } := by
  induction window generalizing id previous bs found with
  | zero => simp [firstFit?] at h
  | succ window ih =>
    cases bs with
    | nil => simp [firstFit?] at h
    | cons b rest =>
      simp only [firstFit?] at h
      split at h
      · rename_i hf
        obtain rfl := Option.some.inj h
        exact ⟨[], b, rest, [], previous, _, ⟨rfl, fun _ _ _ _ hlt => absurd hlt (Nat.not_lt_zero _)⟩,
          Nat.zero_lt_succ _, by simp, fun _ => rfl, hf, rfl⟩
      · rename_i hnone
        obtain ⟨inner, hi, rfl⟩ := Option.map_eq_some_iff.mp h
        obtain ⟨before, c, behind, front, last, found, hs, hlt, hfront, hlast, hg, rfl⟩ := ih hi
        refine ⟨b :: before, c, behind, previous.toList ++ front, last, found,
          hs.cons (gather?_of_grantFrom?_eq_none hnone), Nat.succ_lt_succ hlt, ?_, ?_, ?_, ?_⟩
        · rw [List.append_assoc, hfront, Option.toList_some, List.singleton_append]
        · -- there is a block before the one that was settled for
          rintro rfl
          rw [hlast rfl] at hfront
          simp at hfront
        · rw [List.length_cons, Nat.add_comm before.length, ← Nat.add_assoc]
          exact hg
        · rw [List.append_assoc]

/-- Blocks are absorbed only into holes behind the block, and only where it does not suffice. -/
theorem gather?_holes {run : Run} (h : gather? need total fin rest = some run) :
    run = ⟨total, rest, []⟩ ∨ run.rest.head?.any (·.isHole) := by
  by_cases hle : need ≤ total
  · rw [gather?_of_le hle] at h
    exact Or.inl (Option.some.inj h).symm
  obtain ⟨taken, holes, behind, -, e', hl, -, hh, hs, hn⟩ := gather?_eq_some h
  cases holes with
  | nil =>
    obtain rfl : taken = [] := List.eq_nil_of_length_eq_zero hl.symm
    rw [List.map_nil, List.sum_nil] at hs
    omega
  | cons c holes =>
    have hc := hh c List.mem_cons_self
    right
    simp [e', Block.isHole, hc.1, hc.2]

/-- A grant takes the place before the block only where there is one. -/
theorem isBefore_previous (h : (divide previous b rest need).isBefore = true) :
    previous.toList.length = 1 := by
  unfold divide at h
  split at h
  · cases h
  split at h
  · rename_i hp
    cases previous with
    | none => simp at hp
    | some p => rfl
  split at h <;> cases h

/-- A block is cut to the bytes that were asked for where a hole is next to it. -/
theorem divide_granted (previous : Option Block) (b : Block) (rest : List Block)
    (hle : need ≤ b.size) :
    (∃ g, (divide previous b rest need).blocks[if (divide previous b rest need).isBefore then 0
        else previous.toList.length]? = some g ∧ g.size = need) ∨
    need < b.size ∧ previous.any (·.isHole) = false ∧ rest.head?.any (·.isHole) = false ∧
      divide previous b rest need =
        ⟨false, .unsplit, previous.toList ++ { b with used := true } :: rest, none⟩ := by
  unfold divide
  split
  · left
    simp
  rename_i hne
  split
  · left
    simp
  rename_i hbefore
  split
  · left
    simp
  rename_i hafter
  exact Or.inr ⟨by omega, by simpa using hbefore, by simpa using hafter, rfl⟩

/-- What a block yields has the bytes that were asked for, unless the block is granted whole. -/
theorem grantFrom?_granted (hid : previous.toList.length ≤ id)
    (h : grantFrom? need id previous b rest = some found) :
    ∃ j, found.grant.id + previous.toList.length = id + j ∧
      ((∃ g, found.blocks[j]? = some g ∧ g.size = need) ∨
        j = previous.toList.length ∧ b.used = false ∧ need < b.size ∧
          previous.any (·.isHole) = false ∧ rest.head?.any (·.isHole) = false ∧
          found.blocks = previous.toList ++ { b with used := true } :: rest) := by
  unfold grantFrom? at h
  split at h
  · cases h
  rename_i hfree
  obtain ⟨run, hrun, rfl⟩ := Option.map_eq_some_iff.mp h
  obtain ⟨-, -, -, -, -, -, -, -, -, hle⟩ := gather?_eq_some hrun
  dsimp only
  rcases divide_granted previous { b with size := run.total } run.rest hle with
    ⟨g, hg, hsize⟩ | ⟨hlt, hbefore, hafter, he⟩
  · refine ⟨_, ?_, Or.inl ⟨g, hg, hsize⟩⟩
    split
    · rename_i hbefore
      have hone := isBefore_previous hbefore
      omega
    · omega
  · -- only a block that absorbed nothing can be without a hole behind it
    rcases gather?_holes hrun with rfl | hhole
    · rw [he]
      have hu : b.used = false := by simpa using And.left (by simpa using hfree)
      exact ⟨_, rfl, Or.inr ⟨rfl, hu, hlt, hbefore, hafter, rfl⟩⟩
    · rw [hafter] at hhole
      cases hhole

/-- A block of an id that is free and larger than a request needs, with no hole beside it. -/
structure Indivisible (t : BlockTable) (need id : Nat) (b : Block) : Prop where
  get?_eq : t.get? id = some b
  free : b.used = false
  need_lt : need < b.size
  no_hole : ∀ i c, i + 1 = id ∨ i = id + 1 → t.get? i = some c → c.isHole = false

variable {t t' : BlockTable} {first last : Nat} {grant : Grant}

/-- The blocks beside an id are those before and behind it in the list. -/
theorem Indivisible.of_split {front : List Block}
    (htable : t.blocks = front ++ (previous.toList ++ b :: rest))
    (hprevious : previous = none → front = []) (hid : id = front.length + previous.toList.length)
    (hfree : b.used = false) (hlt : need < b.size) (hbefore : previous.any (·.isHole) = false)
    (hafter : rest.head?.any (·.isHole) = false) : t.Indivisible need id b where
  get?_eq := by
    rw [BlockTable.get?, htable, hid]
    simp
  free := hfree
  need_lt := hlt
  no_hole := by
    rintro i c (hi | hi) hc
    · cases previous with
      | none =>
        rw [hprevious rfl, Option.toList_none, List.length_nil] at hid
        omega
      | some p =>
        obtain rfl : i = front.length := by
          rw [Option.toList_some, List.length_singleton] at hid
          omega
        obtain rfl : p = c := by simpa [BlockTable.get?, htable] using hc
        exact hbefore
    · have hir : i = front.length + (previous.toList.length + 1) := by omega
      rw [BlockTable.get?, htable, hir, List.getElem?_append_right (by omega),
        Nat.add_sub_cancel_left, List.getElem?_append_right (by omega), Nat.add_sub_cancel_left,
        List.getElem?_cons_succ, ← List.head?_eq_getElem?] at hc
      rwa [hc, Option.any_some] at hafter

/-- A search of a table grants from the block that it settles for among those from the first on. -/
theorem find?_settles (h : t.find? first last need = some (grant, t')) :
    ∃ before b rest front previous inner, Settles need (t.blocks.drop first) before b rest ∧
      first + before.length < last ∧
      front ++ previous.toList = t.blocks.take first ++ before ∧
      (previous = none → front = []) ∧
      grantFrom? need (first + before.length) previous b rest = some inner ∧
      grant = inner.grant ∧ t'.blocks = front ++ inner.blocks := by
  obtain ⟨found, hf, he⟩ := Option.map_eq_some_iff.mp h
  obtain ⟨rfl, rfl⟩ := Prod.mk.inj he
  obtain ⟨before, b, rest, front, previous, inner, hs, hlt, hfront, hprevious, hg, rfl⟩ :=
    firstFit?_settles hf
  have hsize : t.size = t.blocks.length := rfl
  refine ⟨before, b, rest, t.blocks.take (first - 1) ++ front, previous, inner, hs, by omega, ?_, ?_,
    hg, rfl, by rw [List.append_assoc]⟩
  · rw [List.append_assoc, hfront, ← List.append_assoc]
    congr 1
    rcases Nat.eq_zero_or_pos first with rfl | hpos
    · simp
    · have e : first = first - 1 + 1 := by omega
      rw [if_neg (by omega)]
      conv_rhs => rw [e]
      rw [List.take_add_one]
  · rintro rfl
    rw [hprevious rfl] at hfront ⊢
    have hnone : (if first = 0 then none else t.blocks[first - 1]?) = none := by
      cases hp : (if first = 0 then none else t.blocks[first - 1]?) with
      | none => rfl
      | some p =>
        rw [hp] at hfront
        simp at hfront
    rcases Nat.eq_zero_or_pos first with rfl | hpos
    · simp
    · rw [if_neg (by omega), List.getElem?_eq_none_iff] at hnone
      omega

/-- A search never passes over a free block that suffices. -/
theorem find?_id_le (h : t.find? first last need = some (grant, t')) (hc : t.get? id = some c)
    (hfree : c.used = false) (hpos : 0 < c.size) (hle : need ≤ c.size) (hid : first ≤ id) :
    grant.id ≤ id := by
  obtain ⟨before, b, rest, front, previous, inner, hs, -, -, -, hg, rfl, -⟩ := find?_settles h
  have hat : first + before.length ≤ id := by
    by_contra hlt
    have hget : (t.blocks.drop first)[id - first]? = some c := by
      rw [List.getElem?_drop, Nat.add_sub_cancel' hid]
      exact hc
    obtain ⟨hi, rfl⟩ := List.getElem?_eq_some_iff.mp hget
    have hsplit : t.blocks.drop first = (t.blocks.drop first).take (id - first) ++
        (t.blocks.drop first)[id - first] :: (t.blocks.drop first).drop (id - first + 1) := by
      rw [← List.drop_eq_getElem_cons hi, List.take_append_drop]
    have hnone := hs.passed _ _ _ hsplit (by rw [List.length_take]; omega) hfree hpos
    rw [gather?_of_le hle] at hnone
    cases hnone
  unfold grantFrom? at hg
  split at hg
  · cases hg
  obtain ⟨run, -, rfl⟩ := Option.map_eq_some_iff.mp hg
  dsimp only
  split <;> omega

/-- What a search grants has exactly the bytes that were asked for, or it is a block that was not
to be divided. -/
theorem find?_granted (h : t.find? first last need = some (grant, t')) :
    ∃ g, t'.get? grant.id = some g ∧
      (g.size = need ∨ ∃ b, t.Indivisible need grant.id b ∧ g = { b with used := true }) := by
  obtain ⟨before, b, rest, front, previous, inner, hs, -, hfront, hprevious, hg, rfl, hblocks⟩ :=
    find?_settles h
  have hfirst : (t.blocks.take first).length = first := by
    have hlen := congrArg List.length hs.blocks_eq
    rw [List.length_drop, List.length_append, List.length_cons] at hlen
    rw [List.length_take]
    omega
  have htable : t.blocks = front ++ (previous.toList ++ b :: rest) := by
    rw [← List.append_assoc, hfront, List.append_assoc, ← hs.blocks_eq, List.take_append_drop]
  have hplace : front.length + previous.toList.length = first + before.length := by
    have hlen := congrArg List.length hfront
    rwa [List.length_append, List.length_append, hfirst] at hlen
  obtain ⟨j, hj, hout⟩ := grantFrom?_granted (by omega) hg
  have hid : inner.grant.id = front.length + j := by omega
  have hget : t'.get? inner.grant.id = inner.blocks[j]? := by
    rw [BlockTable.get?, hblocks, hid, List.getElem?_append_right (Nat.le_add_right _ _),
      Nat.add_sub_cancel_left]
  rw [hget]
  rcases hout with ⟨g, hgj, hsize⟩ | ⟨rfl, hfree, hlt, hbefore, hafter, he⟩
  · exact ⟨g, hgj, Or.inl hsize⟩
  · have hwhole := Indivisible.of_split htable hprevious hid hfree hlt hbefore hafter
    exact ⟨{ b with used := true }, by simp [he], Or.inr ⟨b, hwhole, rfl⟩⟩

end BlockTable
end GuestLibrary
