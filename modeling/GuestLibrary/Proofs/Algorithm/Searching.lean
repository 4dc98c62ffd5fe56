import GuestLibrary.Proofs.Algorithm.InPlace

/-! Binary search. What it finds compares equal to the key, whatever the array holds; in an array
that the key cuts into elements below it, equal to it and above it, it finds one unless none is
equal. In place, it ends without a trap, whatever the comparator answers. -/
namespace GuestLibrary
namespace Sorting

variable {σ : Type}

section Range

variable {compare : Nat → σ → Int × σ} {sign : Nat → Int} {low high i : Nat} {s : σ}

theorem searchWithin_sound (hsign : ∀ i s, (compare i s).1 = sign i)
    (h : (searchWithin compare low high s).1 = some i) : low ≤ i ∧ i < high ∧ sign i = 0 := by
  fun_induction searchWithin compare low high s with
  | case1 low high s hless mid s' hcall =>
    obtain rfl := Option.some.inj h
    refine ⟨by omega, by omega, ?_⟩
    rw [← hsign _ s, hcall]
  | case2 low high s hless mid c s' hcall hzero hneg ih =>
    obtain ⟨hlow, hhigh, hequal⟩ := ih h
    exact ⟨hlow, by omega, hequal⟩
  | case3 low high s hless mid c s' hcall hzero hneg ih =>
    obtain ⟨hlow, hhigh, hequal⟩ := ih h
    exact ⟨by omega, hhigh, hequal⟩
  | case4 low high s hless => cases h

/-- A middle element that is not equal to the key leaves the equal ones on one side of it. -/
theorem searchWithin_complete (hsign : ∀ i s, (compare i s).1 = sign i)
    (hpos : ∀ i j, i ≤ j → j < high → 0 < sign j → 0 < sign i)
    (hneg : ∀ i j, i ≤ j → j < high → sign i < 0 → sign j < 0)
    (hlow : low ≤ i) (hhigh : i < high) (hequal : sign i = 0) :
    (searchWithin compare low high s).1 ≠ none := by
  fun_induction searchWithin compare low high s with
  | case1 low high s hless mid s' hcall => exact Option.some_ne_none _
  | case2 low high s hless mid c s' hcall hzero hbelow ih =>
    have hmid : sign mid < 0 := by
      rwa [← hsign mid s, hcall]
    have hside : i < mid := by
      by_contra hside
      have := hneg mid i (by omega) hhigh hmid
      omega
    exact ih (fun i j hij hj => hpos i j hij (by omega)) (fun i j hij hj => hneg i j hij (by omega))
      hlow hside
  | case3 low high s hless mid c s' hcall hzero hbelow ih =>
    have hmid : 0 < sign mid := by
      rw [← hsign mid s, hcall]
      exact lt_of_le_of_ne (not_lt.mp hbelow) (Ne.symm hzero)
    have hside : mid < i := by
      by_contra hside
      have := hpos i mid (by omega) (by omega) hmid
      omega
    exact ih hpos hneg hside hhigh
  | case4 low high s hless => omega

end Range

section Block

variable {order : Bytes → Bytes → Int} {key block : Bytes} {width : Nat}

/-- The elements that the key compares above come first, then those that it is equal to, then those
that it compares below. -/
def Partitioned (order : Bytes → Bytes → Int) (key : Bytes) (xs : List Bytes) : Prop :=
  ∃ below equal above, xs = below ++ (equal ++ above) ∧ (∀ x ∈ below, 0 < order key x) ∧
    (∀ x ∈ equal, order key x = 0) ∧ ∀ x ∈ above, order key x < 0

/-- The signs of the comparisons never rise. -/
theorem Partitioned.pairwise {xs : List Bytes} (h : Partitioned order key xs) :
    xs.Pairwise fun x y =>
      (0 < order key y → 0 < order key x) ∧ (order key x < 0 → order key y < 0) := by
  obtain ⟨below, equal, above, rfl, hbelow, hequal, habove⟩ := h
  refine List.pairwise_append.mpr ⟨?_, List.pairwise_append.mpr ⟨?_, ?_, ?_⟩, ?_⟩
  · refine List.pairwise_of_forall_mem_list fun x hx y _ => ?_
    have := hbelow x hx
    omega
  · refine List.pairwise_of_forall_mem_list fun x hx y hy => ?_
    have := hequal x hx
    have := hequal y hy
    omega
  · refine List.pairwise_of_forall_mem_list fun x _ y hy => ?_
    have := habove y hy
    omega
  · intro x _ y hy
    have := habove y hy
    omega
  · intro x hx y _
    have := hbelow x hx
    omega

/-- The same of the places of a block. -/
theorem Partitioned.falls {i j : Nat}
    (h : Partitioned order key (elements width (block.length / width) block)) (hij : i ≤ j)
    (hj : j < block.length / width) :
    (0 < order key ((block.drop (j * width)).take width) →
      0 < order key ((block.drop (i * width)).take width)) ∧
    (order key ((block.drop (i * width)).take width) < 0 →
      order key ((block.drop (j * width)).take width) < 0) := by
  rcases Nat.eq_or_lt_of_le hij with rfl | hij
  · exact ⟨id, id⟩
  · have hlength := length_elements width (block.length / width) block
    have hpair := List.pairwise_iff_getElem.mp h.pairwise i j (by omega) (by omega) hij
    rwa [getElem_elements, getElem_elements] at hpair

theorem searchBlock_eq (compare : Comparator σ Bytes) (key block : Bytes) (width : Nat) (s : σ) :
    searchBlock compare key block width s =
      searchWithin (fun i => compare key ((block.drop (i * width)).take width)) 0
        (block.length / width) s := by
  rw [searchBlock]
  by_cases hwidth : width = 0
  · rw [if_pos hwidth, hwidth, Nat.div_zero, searchWithin, if_neg (Nat.lt_irrefl 0)]
  · rw [if_neg hwidth]

end Block

section Machine

variable {compare : Comparator σ Bytes} {key block : Bytes} {width : Nat}

theorem element_of_lt {i : Nat} (hwords : 2 * block.length < wordLimit)
    (hi : i < block.length / width) :
    Machine.element width block i = .ok ((block.drop (i * width)).take width) := by
  have hwidth : 0 < width := by
    rcases Nat.eq_zero_or_pos width with rfl | hwidth
    · simp at hi
    · exact hwidth
  have hstop : (i + 1) * width ≤ block.length := (Nat.le_div_iff_mul_le hwidth).mp hi
  have hindex : i + 1 ≤ (i + 1) * width := Nat.le_mul_of_pos_right _ hwidth
  have hnext : (i + 1) * width = i * width + width := Nat.succ_mul i width
  simp only [Machine.element, Machine.bounds, Trap.size_eq (n := i * width) (by omega),
    Trap.size_eq (n := i + 1) (by omega), Trap.size_eq (n := (i + 1) * width) (by omega),
    Trap.ok_bind, Trap.pure_eq_ok]
  rw [Machine.slice, if_pos ⟨by omega, hstop⟩, List.extract_eq_take_drop, hnext,
    Nat.add_sub_cancel_left]

theorem machine_searchWithin_eq (hwords : 2 * block.length < wordLimit) (steps low high : Nat)
    (s : σ) (hhigh : high ≤ block.length / width) (hsteps : high - low < steps) :
    Machine.searchWithin compare key block width steps low high s = .ok
      (searchWithin (fun i => compare key ((block.drop (i * width)).take width)) low high s) := by
  have hcount := Nat.div_le_self block.length width
  induction steps generalizing low high s with
  | zero => omega
  | succ steps ih =>
    rw [Machine.searchWithin, searchWithin]
    by_cases hless : low < high
    · rw [if_pos hless, if_pos hless, Trap.size_eq (by omega), Trap.ok_bind,
        element_of_lt hwords (by omega), Trap.ok_bind]
      dsimp only
      rcases compare key ((block.drop ((low + (high - low) / 2) * width)).take width) s
        with ⟨c, s'⟩
      dsimp only
      by_cases hzero : c = 0
      · rw [if_pos hzero, if_pos hzero]
        rfl
      · rw [if_neg hzero, if_neg hzero]
        by_cases hneg : c < 0
        · rw [if_pos hneg, if_pos hneg, ih low _ s' (by omega) (by omega)]
        · rw [if_neg hneg, if_neg hneg, Trap.size_eq (by omega), Trap.ok_bind,
            ih _ high s' hhigh (by omega)]
    · rw [if_neg hless, if_neg hless]
      rfl

/-- In place, a block is searched without a trap as its elements are. -/
theorem machine_searchBlock_eq (compare : Comparator σ Bytes) (key : Bytes)
    (hwords : 2 * block.length < wordLimit) (width : Nat) (s : σ) :
    Machine.searchBlock compare key block width s =
      .ok (searchBlock compare key block width s) := by
  rw [Machine.searchBlock, searchBlock]
  by_cases hwidth : width = 0
  · rw [if_pos hwidth, if_pos hwidth]
    rfl
  · rw [if_neg hwidth, if_neg hwidth]
    exact machine_searchWithin_eq hwords _ 0 _ s (Nat.le_refl _)
      (Nat.lt_succ_of_le (Nat.sub_le _ 0))

end Machine

/-- What is found is an element equal to the key. Where the key cuts the array in three, nothing is
found only when no element is equal. -/
theorem searches_soundly (order : Bytes → Bytes → Int) (key block : Bytes) (width : Nat) :
    let xs := elements width (block.length / width) block
    let found := (searchBlock (.pure order) key block width ()).1
    (∀ i, found = some i → ∃ x, xs[i]? = some x ∧ order key x = 0) ∧
    (Partitioned order key xs → found = none → ∀ x ∈ xs, order key x ≠ 0) ∧
    (2 * block.length < wordLimit →
      Machine.searchBlock (.pure order) key block width () = .ok (found, ())) := by
  have hsign : ∀ i s, (Comparator.pure order key ((block.drop (i * width)).take width) s).1 =
      order key ((block.drop (i * width)).take width) := fun _ _ => rfl
  dsimp only
  rw [searchBlock_eq]
  refine ⟨fun i hi => ?_, fun hcut hnone x hx hequal => ?_, fun hwords => ?_⟩
  · obtain ⟨-, hhigh, hequal⟩ := searchWithin_sound hsign hi
    exact ⟨_, getElem?_elements width hhigh block, hequal⟩
  · obtain ⟨i, hi, rfl⟩ := List.getElem_of_mem hx
    rw [getElem_elements hi] at hequal
    rw [length_elements] at hi
    exact searchWithin_complete hsign (fun i j hij hj => (hcut.falls hij hj).1)
      (fun i j hij hj => (hcut.falls hij hj).2) (Nat.zero_le i) hi hequal hnone
  · rw [machine_searchBlock_eq _ _ hwords, searchBlock_eq]

/-- A key that two elements are equal to, between one below and one above it, is found. -/
theorem searches_soundly_twins :
    Partitioned (fun a b => (a.headD 0).toNat - (b.headD 0).toNat) [5]
      (elements 2 (8 / 2) [3, 0, 5, 0, 5, 1, 9, 0]) ∧
    (searchBlock (.pure fun a b => (a.headD 0).toNat - (b.headD 0).toNat) [5]
      [3, 0, 5, 0, 5, 1, 9, 0] 2 ()).1 ≠ none := by
  have hcut : Partitioned (fun a b => (a.headD 0).toNat - (b.headD 0).toNat) [5]
      (elements 2 (8 / 2) [3, 0, 5, 0, 5, 1, 9, 0]) :=
    ⟨[[3, 0]], [[5, 0], [5, 1]], [[9, 0]], by decide, by decide, by decide, by decide⟩
  obtain ⟨-, hcomplete, -⟩ := searches_soundly
    (fun a b => (a.headD 0).toNat - (b.headD 0).toNat) [5] [3, 0, 5, 0, 5, 1, 9, 0] 2
  exact ⟨hcut, fun hnone => hcomplete hcut hnone [5, 0] (by decide) (by decide)⟩

end Sorting
end GuestLibrary
