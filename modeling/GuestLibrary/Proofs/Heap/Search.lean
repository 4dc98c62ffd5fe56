import GuestLibrary.Proofs.Heap.Tiling

/-! What a first-fit search does to a block table. However the grant was merged and split, exactly
one block becomes used, every block that was used stays what and where it was, and the table tiles
the same memory as before. -/
namespace GuestLibrary

/-- A block and what became of it when it was neither used before nor after, or stayed. -/
def Idle (b b' : Block) : Prop := b' = b ∨ b.used = false ∧ b'.used = false

instance : Std.Refl Idle := ⟨fun _ => Or.inl rfl⟩

/-- The second list is the first one after `need` bytes were granted in place `id`. -/
inductive Grants (need : Nat) : List Block → List Block → Nat → Prop
  | here {b g : Block} {rest rest' : List Block} :
      b.used = false → g.used = true → need ≤ g.size → List.Forall₂ Idle rest rest' →
      Grants need (b :: rest) (g :: rest') 0
  | there {b b' : Block} {rest rest' : List Block} {id : Nat} :
      Idle b b' → Grants need rest rest' id → Grants need (b :: rest) (b' :: rest') (id + 1)

/-- Used blocks are the same in two lists of idle blocks. -/
theorem getElem?_of_idle {bs bs' : List Block} (h : List.Forall₂ Idle bs bs') {i : Nat} {c : Block}
    (hc : c.used = true) : bs'[i]? = some c ↔ bs[i]? = some c := by
  induction h generalizing i with
  | nil => rfl
  | @cons b b' rest rest' hb _ ih =>
    cases i with
    | zero =>
      rcases hb with rfl | ⟨hb, hb'⟩
      · rfl
      · simp only [List.getElem?_cons_zero, Option.some.injEq]
        constructor
        · rintro rfl
          simp [hc] at hb'
        · rintro rfl
          simp [hc] at hb
    | succ i => simpa using ih

namespace Grants

variable {need id : Nat} {bs bs' : List Block}

theorem length_eq (h : Grants need bs bs' id) : bs'.length = bs.length := by
  induction h with
  | here _ _ _ hr => simp [hr.length_eq]
  | there _ _ ih => simp [ih]

/-- The block that was granted is used and large enough. -/
theorem granted (h : Grants need bs bs' id) :
    ∃ g, bs'[id]? = some g ∧ g.used = true ∧ need ≤ g.size := by
  induction h with
  | here _ hg hn _ => exact ⟨_, rfl, hg, hn⟩
  | there _ _ ih => simpa using ih

/-- It was not used before. -/
theorem fresh (h : Grants need bs bs' id) {b : Block} (hb : bs[id]? = some b) :
    b.used = false := by
  induction h with
  | here hb' _ _ _ =>
    obtain rfl := Option.some.inj hb
    exact hb'
  | there _ _ ih => exact ih (by simpa using hb)

/-- All other used blocks are as before. -/
theorem kept (h : Grants need bs bs' id) {i : Nat} (hi : i ≠ id) {c : Block}
    (hc : c.used = true) : bs'[i]? = some c ↔ bs[i]? = some c := by
  induction h generalizing i with
  | here _ _ _ hr =>
    cases i with
    | zero => exact absurd rfl hi
    | succ i => simpa using getElem?_of_idle hr hc
  | there hb _ ih =>
    cases i with
    | zero => simpa using getElem?_of_idle (List.Forall₂.cons hb .nil) hc (i := 0)
    | succ i => simpa using ih (by omega)

theorem append_left (h : Grants need bs bs' id) (front : List Block) :
    Grants need (front ++ bs) (front ++ bs') (front.length + id) := by
  induction front with
  | nil => simpa using h
  | cons b front ih =>
    have e : (b :: front).length + id = front.length + id + 1 := by
      simp only [List.length_cons]
      omega
    rw [e]
    exact .there (Or.inl rfl) ih

end Grants

namespace BlockTable

/-- A run that suffices is made of the blocks in front, all free, which become holes. -/
theorem gather?_eq_some {need total fin : Nat} {rest : List Block} {run : Run}
    (h : gather? need total fin rest = some run) :
    ∃ taken holes behind, rest = taken ++ behind ∧ run.rest = holes ++ behind ∧
      holes.length = taken.length ∧ (∀ b ∈ taken, b.used = false) ∧
      (∀ b ∈ holes, b.used = false ∧ b.size = 0) ∧
      run.total = total + (taken.map (·.size)).sum ∧ need ≤ run.total := by
  induction rest generalizing total fin run with
  | nil =>
    simp only [gather?, Option.ite_none_right_eq_some, Option.some.injEq] at h
    obtain ⟨hn, rfl⟩ := h
    exact ⟨[], [], [], rfl, rfl, rfl, by simp, by simp, rfl, hn⟩
  | cons b rest ih =>
    simp only [gather?] at h
    split at h
    · rename_i hn
      obtain rfl := Option.some.inj h
      exact ⟨[], [], b :: rest, rfl, rfl, rfl, by simp, by simp, rfl, hn⟩
    split at h
    · cases h
    rename_i hu
    have hb : b.used = false := by simpa using hu
    split at h
    · rename_i hz
      obtain ⟨r, hr, rfl⟩ := Option.map_eq_some_iff.mp h
      obtain ⟨taken, holes, behind, e, e', hl, ht, hh, hs, hn⟩ := ih hr
      refine ⟨b :: taken, b :: holes, behind, by simp [e], by simp [e'], by simp [hl], ?_, ?_, ?_,
        hn⟩
      · simpa using ⟨hb, ht⟩
      · simpa using ⟨⟨hb, hz⟩, hh⟩
      · simp [hs, hz]
    split at h
    · cases h
    · obtain ⟨r, hr, rfl⟩ := Option.map_eq_some_iff.mp h
      obtain ⟨taken, holes, behind, e, e', hl, ht, hh, hs, hn⟩ := ih hr
      refine ⟨b :: taken, b.emptied :: holes, behind, by simp [e], by simp [e'], by simp [hl],
        ?_, ?_, ?_, hn⟩
      · simpa using ⟨hb, ht⟩
      · simpa [Block.emptied] using hh
      · simp only [List.map_cons, List.sum_cons]
        omega

/-- A run ends where its last block does, so inside whatever its blocks are inside of. -/
theorem gather?_within {need start total fin hi : Nat} {rest : List Block} {run : Run}
    (h : gather? need total fin rest = some run) (hs : start + total = fin) (hf : fin ≤ hi)
    (hr : Within hi rest) : start + run.total ≤ hi ∧ Within hi run.rest := by
  induction rest generalizing total fin run with
  | nil =>
    simp only [gather?, Option.ite_none_right_eq_some, Option.some.injEq] at h
    obtain ⟨-, rfl⟩ := h
    exact ⟨hs.le.trans hf, hr⟩
  | cons b rest ih =>
    have hb := List.forall_mem_cons.mp hr
    simp only [gather?] at h
    split at h
    · obtain rfl := Option.some.inj h
      exact ⟨hs.le.trans hf, hr⟩
    split at h
    · cases h
    split at h
    · obtain ⟨r, hrun, rfl⟩ := Option.map_eq_some_iff.mp h
      obtain ⟨htotal, hrest⟩ := ih hrun hs hf hb.2
      exact ⟨htotal, List.forall_mem_cons.mpr ⟨hb.1, hrest⟩⟩
    rename_i hz
    split at h
    · cases h
    · rename_i hgap
      obtain ⟨r, hrun, rfl⟩ := Option.map_eq_some_iff.mp h
      have hfin : b.fin = b.start + b.size := rfl
      obtain ⟨htotal, hrest⟩ := ih hrun (by omega) (hb.1 (by omega)) hb.2
      exact ⟨htotal, List.forall_mem_cons.mpr ⟨fun hp => absurd hp (Nat.lt_irrefl 0), hrest⟩⟩

/-- Blocks that were taken and the holes left of them are idle. -/
theorem idle_of_holes {taken holes : List Block} (hl : holes.length = taken.length)
    (ht : ∀ b ∈ taken, b.used = false) (hh : ∀ b ∈ holes, b.used = false ∧ b.size = 0) :
    List.Forall₂ Idle taken holes := by
  induction taken generalizing holes with
  | nil =>
    obtain rfl := List.eq_nil_of_length_eq_zero hl
    exact .nil
  | cons b taken ih =>
    obtain ⟨c, holes, rfl⟩ := List.exists_cons_of_length_eq_add_one hl
    refine .cons (Or.inr ⟨ht b (by simp), (hh c (by simp)).1⟩) (ih (by simpa using hl) ?_ ?_)
    · exact fun x hx => ht x (by simp [hx])
    · exact fun x hx => hh x (by simp [hx])

/-- The pieces that a grant and its remainder make of the bytes of the block that was cut. -/
theorem tiles_cut {lo hi need : Nat} {b g r : Block} {bs : List Block} (hn : 0 < need)
    (hlt : need < b.size) (hgs : g.start = b.start) (hgz : g.size = need)
    (hrs : r.start = b.start + need) (hrz : r.size = b.size - need)
    (h : Tiles lo (sized (b :: bs)) hi) : Tiles lo (sized (g :: r :: bs)) hi := by
  rw [sized_cons_of_pos (by omega)] at h ⊢
  rw [sized_cons_of_pos (by omega)]
  have e : g.fin = r.start := by simp only [Block.fin]; omega
  have e' : r.fin = b.fin := by simp only [Block.fin]; omega
  exact ⟨hgs.trans h.1, e.symm, e' ▸ h.2⟩

/-- Cutting a block keeps the tiling. -/
theorem tiles_divide {need lo hi : Nat} {previous : Option Block} {b : Block} {rest : List Block}
    (hn : 0 < need) (hle : need ≤ b.size)
    (h : Tiles lo (sized (previous.toList ++ b :: rest)) hi) :
    Tiles lo (sized (divide previous b rest need).blocks) hi := by
  have hwhole : ∀ g : Block, g.start = b.start → g.size = b.size →
      Tiles lo (sized (previous.toList ++ g :: rest)) hi := by
    intro g hs hz
    rw [sized_append, tiles_append] at h ⊢
    obtain ⟨mid, hp, hb⟩ := h
    rw [sized_cons_of_pos (by omega)] at hb
    refine ⟨mid, hp, ?_⟩
    rw [sized_cons_of_pos (by omega)]
    have e : g.fin = b.fin := by simp only [Block.fin]; omega
    exact ⟨hs.trans hb.1, e ▸ hb.2⟩
  unfold divide
  split
  · rename_i he
    exact hwhole _ rfl he.symm
  rename_i he
  split
  · rename_i hp
    -- the grant moves to the hole, whose place comes first
    obtain ⟨p, rfl⟩ : ∃ p, previous = some p := by
      cases previous with
      | none => simp at hp
      | some p => exact ⟨p, rfl⟩
    have hz : p.size = 0 := by
      simp only [Option.any_some, Block.isHole, Bool.and_eq_true, beq_iff_eq] at hp
      exact hp.2
    rw [Option.toList_some, List.singleton_append, sized_cons_of_eq_zero hz] at h
    exact tiles_cut (b := b) hn (by omega) rfl rfl rfl rfl h
  split
  · rename_i hr
    obtain ⟨c, tail, rfl⟩ : ∃ c tail, rest = c :: tail := by
      cases rest with
      | nil => simp at hr
      | cons c tail => exact ⟨c, tail, rfl⟩
    have hz : c.size = 0 := by
      simp only [List.head?_cons, Option.any_some, Block.isHole, Bool.and_eq_true,
        beq_iff_eq] at hr
      exact hr.2
    rw [sized_append, tiles_append] at h ⊢
    obtain ⟨mid, hp, hb⟩ := h
    refine ⟨mid, hp, tiles_cut (b := b) hn (by omega) rfl rfl rfl rfl ?_⟩
    rwa [sized_cons_of_pos (by omega), sized_cons_of_eq_zero hz, ← sized_cons_of_pos (by omega)]
      at hb
  · exact hwhole _ rfl rfl

/-- The grant is in the place of the block that was cut, or of the hole before it. -/
theorem grants_divide {need : Nat} (previous : Option Block) {b : Block} (c : Block)
    {rest rest' : List Block} (hb : b.used = false) (hle : need ≤ c.size)
    (hr : List.Forall₂ Idle rest rest') :
    ∃ j, Grants need (previous.toList ++ b :: rest) (divide previous c rest' need).blocks j ∧
      if (divide previous c rest' need).isBefore then j = 0 ∧ previous.toList.length = 1
      else j = previous.toList.length := by
  have hplace : ∀ {g : Block} {rest'' : List Block}, g.used = true → need ≤ g.size →
      List.Forall₂ Idle rest rest'' → Grants need (previous.toList ++ b :: rest)
        (previous.toList ++ g :: rest'') previous.toList.length :=
    fun hg hn hr => (Grants.here hb hg hn hr).append_left _
  unfold divide
  split
  · exact ⟨_, hplace rfl (Nat.le_refl _) hr, by simp⟩
  split
  · rename_i hp
    obtain ⟨p, rfl⟩ : ∃ p, previous = some p := by
      cases previous with
      | none => simp at hp
      | some p => exact ⟨p, rfl⟩
    have hu : p.used = false := by
      simp only [Option.any_some, Block.isHole, Bool.and_eq_true, Bool.not_eq_true'] at hp
      exact hp.1
    exact ⟨0, .here hu rfl (Nat.le_refl _) (.cons (Or.inr ⟨hb, rfl⟩) hr), by simp⟩
  split
  · rename_i hh
    cases hr with
    | nil => simp at hh
    | @cons d e rest rest' hd hr =>
      have hu : e.used = false := by
        simp only [List.head?_cons, Option.any_some, Block.isHole, Bool.and_eq_true,
          Bool.not_eq_true'] at hh
        exact hh.1
      have hdu : d.used = false := by
        rcases hd with rfl | hd
        · exact hu
        · exact hd.1
      exact ⟨_, hplace rfl (Nat.le_refl _) (.cons (Or.inr ⟨hdu, rfl⟩) hr), by simp⟩
  · exact ⟨_, hplace rfl hle hr, by simp⟩

/-- The pieces of a block lie where it did. -/
theorem within_divide {need hi : Nat} {previous : Option Block} {b : Block} {rest : List Block}
    (hle : need ≤ b.size) (hb : b.fin ≤ hi) (hp : Within hi previous.toList)
    (hr : Within hi rest) : Within hi (divide previous b rest need).blocks := by
  have hfin : b.fin = b.start + b.size := rfl
  have hpiece : ∀ c : Block, c.start + c.size ≤ b.fin → 0 < c.size → c.fin ≤ hi :=
    fun c hc _ => hc.trans hb
  have hgranted := hpiece { b with size := need, used := true } (by dsimp only; omega)
  have hleft := hpiece (.free (b.start + need) (b.size - need)) (by simp only [Block.free]; omega)
  unfold divide
  split
  · exact List.forall_mem_append.mpr ⟨hp, List.forall_mem_cons.mpr ⟨hgranted, hr⟩⟩
  split
  · exact List.forall_mem_cons.mpr ⟨hgranted, List.forall_mem_cons.mpr ⟨hleft, hr⟩⟩
  split
  · refine List.forall_mem_append.mpr ⟨hp, List.forall_mem_cons.mpr ⟨hgranted, ?_⟩⟩
    exact List.forall_mem_cons.mpr ⟨hleft, fun c hc => hr c (List.mem_of_mem_tail hc)⟩
  · exact List.forall_mem_append.mpr ⟨hp, List.forall_mem_cons.mpr ⟨fun _ => hb, hr⟩⟩

/-- What a search that grants does to the blocks from the one before it on. -/
structure Carves (need id : Nat) (bs : List Block) (found : Found) : Prop where
  grants : Grants need bs found.blocks id
  tiles : ∀ lo hi, Tiles lo (sized bs) hi → Tiles lo (sized found.blocks) hi
  within : ∀ hi, Within hi bs → Within hi found.blocks

theorem grantFrom?_eq_some {need id : Nat} {previous : Option Block} {b : Block}
    {rest : List Block} {found : Found} (hn : 0 < need) (hid : previous.toList.length ≤ id)
    (h : grantFrom? need id previous b rest = some found) :
    ∃ j, found.grant.id + previous.toList.length = id + j ∧
      Carves need j (previous.toList ++ b :: rest) found := by
  unfold grantFrom? at h
  split at h
  · cases h
  rename_i hu
  obtain ⟨hub, hz⟩ : b.used = false ∧ b.size ≠ 0 := by simpa using hu
  obtain ⟨run, hrun, rfl⟩ := Option.map_eq_some_iff.mp h
  obtain ⟨taken, holes, behind, e, e', hl, ht, hh, hs, hle⟩ := gather?_eq_some hrun
  have hr : List.Forall₂ Idle rest run.rest := by
    rw [e, e']
    exact List.rel_append (idle_of_holes hl ht hh) (List.forall₂_refl _)
  obtain ⟨j, hg, hj⟩ := grants_divide previous { b with size := run.total } hub hle hr
  refine ⟨j, ?_, hg, ?_, ?_⟩
  · dsimp only
    split at hj
    · rename_i hbefore
      rw [if_pos hbefore]
      omega
    · rename_i hbefore
      rw [if_neg hbefore]
      omega
  · intro lo hi htiles
    apply tiles_divide hn hle
    -- the run covers the block and the blocks that were taken, which follow it
    rw [sized_append, tiles_append] at htiles ⊢
    obtain ⟨mid, hp, hb⟩ := htiles
    rw [sized_cons_of_pos (by omega), e, sized_append] at hb
    obtain ⟨last, htaken, hbehind⟩ := tiles_append.mp hb.2
    have hlast := htaken.hi_eq
    rw [sum_size_sized] at hlast
    refine ⟨mid, hp, ?_⟩
    rw [sized_cons_of_pos (by dsimp only; omega), e', sized_append,
      sized_eq_nil fun c hc => (hh c hc).2]
    have efin : Block.fin { b with size := run.total } = last := by
      simp only [Block.fin] at hlast ⊢
      omega
    exact ⟨hb.1, efin ▸ hbehind⟩
  · intro hi hw
    obtain ⟨hp, hrest⟩ := List.forall_mem_append.mp hw
    obtain ⟨hb, hrest⟩ := List.forall_mem_cons.mp hrest
    obtain ⟨hfin, hbehind⟩ := gather?_within hrun rfl (hb (by omega)) hrest
    exact within_divide hle hfin hp hbehind

theorem firstFit?_eq_some {need window id : Nat} {previous : Option Block} {bs : List Block}
    {found : Found} (hn : 0 < need) (hid : previous.toList.length ≤ id)
    (h : firstFit? need window id previous bs = some found) :
    ∃ j, found.grant.id + previous.toList.length = id + j ∧
      Carves need j (previous.toList ++ bs) found := by
  induction window generalizing id previous bs found with
  | zero => simp [firstFit?] at h
  | succ window ih =>
    cases bs with
    | nil => simp [firstFit?] at h
    | cons b rest =>
      simp only [firstFit?] at h
      split at h
      · rename_i hf
        obtain rfl := Option.some.inj h
        exact grantFrom?_eq_some hn hid hf
      · obtain ⟨inner, hi, rfl⟩ := Option.map_eq_some_iff.mp h
        have hid' : (some b).toList.length ≤ id + 1 := by simp
        obtain ⟨j, hj, hc⟩ := ih hid' hi
        refine ⟨previous.toList.length + j, ?_, hc.grants.append_left _, ?_, ?_⟩
        · simp only [Option.toList_some, List.length_singleton] at hj
          dsimp only
          omega
        · intro lo hi htiles
          rw [sized_append, tiles_append] at htiles ⊢
          obtain ⟨mid, hp, hb⟩ := htiles
          exact ⟨mid, hp, hc.tiles mid hi hb⟩
        · intro hi hw
          obtain ⟨hp, hb⟩ := List.forall_mem_append.mp hw
          exact List.forall_mem_append.mpr ⟨hp, hc.within hi hb⟩

/-- A successful search: which block it grants, and that everything else that was used stays. -/
structure Found.Sound (t t' : BlockTable) (need : Nat) (grant : Grant) : Prop where
  capacity_eq : t'.capacity = t.capacity
  grants : Grants need t.blocks t'.blocks grant.id
  tiles : ∀ lo hi, Tiles lo (sized t.blocks) hi → Tiles lo (sized t'.blocks) hi
  within : ∀ hi, Within hi t.blocks → Within hi t'.blocks

theorem find?_eq_some {t t' : BlockTable} {first last need : Nat} {grant : Grant}
    (hn : 0 < need) (h : t.find? first last need = some (grant, t')) :
    Found.Sound t t' need grant := by
  obtain ⟨found, hf, he⟩ := Option.map_eq_some_iff.mp h
  obtain ⟨rfl, rfl⟩ := Prod.mk.inj he
  have hlt : first < t.blocks.length := by
    by_contra hge
    have e : min last t.size - first = 0 := by
      have : t.size = t.blocks.length := rfl
      omega
    rw [e] at hf
    simp [firstFit?] at hf
  -- the blocks before the search, the one before it, and the rest
  have hsplit : t.blocks = t.blocks.take (first - 1) ++
      ((if first = 0 then none else t.blocks[first - 1]?).toList ++ t.blocks.drop first) := by
    rcases Nat.eq_zero_or_pos first with rfl | hpos
    · simp
    · rw [if_neg (by omega), List.getElem?_eq_getElem (by omega), Option.toList_some,
        List.singleton_append]
      have e : first = first - 1 + 1 := by omega
      conv_lhs => rw [← List.take_append_drop (first - 1) t.blocks,
        List.drop_eq_getElem_cons (by omega), ← e]
  have hprev : (if first = 0 then none else t.blocks[first - 1]?).toList.length + (first - 1)
      = first := by
    rcases Nat.eq_zero_or_pos first with rfl | hpos
    · simp
    · rw [if_neg (by omega), List.getElem?_eq_getElem (by omega)]
      simp only [Option.toList_some, List.length_singleton]
      omega
  obtain ⟨j, hj, hc⟩ := firstFit?_eq_some hn (by omega) hf
  have hlen : (t.blocks.take (first - 1)).length = first - 1 := by
    rw [List.length_take]
    omega
  refine ⟨rfl, ?_, ?_, ?_⟩
  · have hg := hc.grants.append_left (t.blocks.take (first - 1))
    rw [← hsplit, hlen] at hg
    have e : found.grant.id = first - 1 + j := by omega
    rw [e]
    exact hg
  · intro lo hi htiles
    rw [hsplit, sized_append, tiles_append] at htiles
    obtain ⟨mid, hp, hb⟩ := htiles
    dsimp only
    rw [sized_append, tiles_append]
    exact ⟨mid, hp, hc.tiles mid hi hb⟩
  · intro hi hw
    rw [hsplit] at hw
    obtain ⟨hp, hb⟩ := List.forall_mem_append.mp hw
    exact List.forall_mem_append.mpr ⟨hp, hc.within hi hb⟩

end BlockTable
end GuestLibrary
