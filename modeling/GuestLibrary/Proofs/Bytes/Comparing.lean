import GuestLibrary.Bytes.CString.Machine
import GuestLibrary.Proofs.Bytes.Building

/-! Strings compared byte by byte. A string has no NUL, so that the byte 0 that stands for its end
is below each byte of a longer one. Main statement: the sign of a comparison says how the strings
stand in the lexicographic order, and nothing behind their ends has a part in it. -/
namespace GuestLibrary.CString

/-- The sign of `d` tells how two lists of bytes stand in the lexicographic order, in which a proper
initial part comes first. -/
structure Ranks (d : Int) (s t : Bytes) : Prop where
  neg_iff : d < 0 ↔ s < t
  zero_iff : d = 0 ↔ s = t
  pos_iff : 0 < d ↔ t < s

namespace Ranks

variable {d e f : Int} {s t u : Bytes}

theorem refl (s : Bytes) : Ranks 0 s s :=
  ⟨iff_of_false (Int.lt_irrefl 0) (List.lt_irrefl s), iff_of_true rfl rfl,
    iff_of_false (Int.lt_irrefl 0) (List.lt_irrefl s)⟩

/-- A first byte that both lists have does not matter. -/
theorem cons (h : Ranks d s t) (x : UInt8) : Ranks d (x :: s) (x :: t) := by
  refine ⟨?_, ?_, ?_⟩
  · simp [h.neg_iff]
  · simp [h.zero_iff]
  · simp [h.pos_iff]

theorem of_ne {x y : UInt8} (h : x ≠ y) (s t : Bytes) :
    Ranks ((x.toNat : Int) - y.toNat) (x :: s) (y :: t) := by
  have hne : x.toNat ≠ y.toNat := fun he => h (UInt8.toNat_inj.mp he)
  refine ⟨?_, ?_, ?_⟩
  · simp only [List.cons_lt_cons_iff, h, false_and, or_false, UInt8.lt_iff_toNat_lt]
    omega
  · simp only [List.cons.injEq, h, false_and, iff_false]
    omega
  · simp only [List.cons_lt_cons_iff, h.symm, false_and, or_false, UInt8.lt_iff_toNat_lt]
    omega

theorem nonpos_iff (h : Ranks d s t) : d ≤ 0 ↔ s < t ∨ s = t := by
  rw [← h.neg_iff, ← h.zero_iff]
  omega

theorem trans (h : Ranks d s t) (h' : Ranks e t u) (h'' : Ranks f s u) (hd : d ≤ 0) (he : e ≤ 0) :
    f ≤ 0 := by
  rw [h.nonpos_iff] at hd
  rw [h'.nonpos_iff] at he
  rw [h''.nonpos_iff]
  rcases hd with hd | rfl
  · rcases he with he | rfl
    · exact Or.inl (List.lt_trans hd he)
    · exact Or.inl hd
  · exact he

end Ranks

/-- A comparison of strings without NULs ranks their first bytes. -/
theorem ranks_differenceOfContents (n : Nat) {s t : Bytes} (hs : (0 : UInt8) ∉ s)
    (ht : (0 : UInt8) ∉ t) : Ranks (differenceOfContents n s t) (s.take n) (t.take n) := by
  have hpos : ∀ {x : UInt8} {rest : Bytes}, (0 : UInt8) ∉ x :: rest → 0 < x.toNat := by
    intro x rest hx
    refine Nat.pos_of_ne_zero fun h0 => hx ?_
    rw [UInt8.toNat_inj (b := 0) |>.mp h0]
    exact List.mem_cons_self
  fun_induction differenceOfContents n s t with
  | case1 s t => exact Ranks.refl []
  | case2 n => exact Ranks.refl []
  | case3 n x s =>
    have hx := hpos hs
    rw [List.take_succ_cons, List.take_nil]
    refine ⟨?_, ?_, ?_⟩ <;> simp <;> omega
  | case4 n y t =>
    have hy := hpos ht
    rw [List.take_succ_cons, List.take_nil]
    refine ⟨?_, ?_, ?_⟩ <;> simp <;> omega
  | case5 n s x t ih =>
    exact (ih (List.not_mem_of_not_mem_cons hs) (List.not_mem_of_not_mem_cons ht)).cons x
  | case6 n x s y t hne => exact Ranks.of_ne hne _ _

theorem differenceOfContents_swap (n : Nat) (s t : Bytes) :
    differenceOfContents n t s = -differenceOfContents n s t := by
  fun_induction differenceOfContents n s t with
  | case1 s t => rfl
  | case2 n => rfl
  | case3 n x s => rfl
  | case4 n y t => simp [differenceOfContents]
  | case5 n s x t ih => simp [differenceOfContents, ih]
  | case6 n x s y t hne => simp [differenceOfContents, Ne.symm hne]

/-- More bytes than the strings have make no difference. -/
theorem differenceOfContents_of_le {n : Nat} {s t : Bytes} (hs : s.length ≤ n)
    (ht : t.length ≤ n) :
    differenceOfContents n s t = differenceOfContents (max s.length t.length) s t := by
  fun_induction differenceOfContents n s t with
  | case1 s t =>
    have hzero : max s.length t.length = 0 := by omega
    rw [hzero, differenceOfContents]
  | case2 n => rfl
  | case3 n x s => simp [differenceOfContents]
  | case4 n y t => simp [differenceOfContents]
  | case5 n s x t ih =>
    have hlength : max (x :: s).length (x :: t).length = max s.length t.length + 1 :=
      Nat.succ_max_succ _ _
    rw [hlength, differenceOfContents, if_pos rfl]
    exact ih (Nat.le_of_succ_le_succ hs) (Nat.le_of_succ_le_succ ht)
  | case6 n x s y t hne =>
    have hlength : max (x :: s).length (y :: t).length = max s.length t.length + 1 :=
      Nat.succ_max_succ _ _
    rw [hlength, differenceOfContents, if_neg hne]

section Strings

variable (a b : Bytes)

theorem ranks_differenceWithin (n : Nat) :
    Ranks (differenceWithin a b n) ((content a).take n) ((content b).take n) :=
  ranks_differenceOfContents n (not_mem_content a) (not_mem_content b)

/-- A comparison without a bound is one of as many bytes as the longer string has. -/
theorem difference_eq : difference a b =
    differenceOfContents (max (content a).length (content b).length) (content a) (content b) := by
  have ha := length_content_le a
  have hb := length_content_le b
  exact differenceOfContents_of_le (by omega) (by omega)

theorem ranks_difference : Ranks (difference a b) (content a) (content b) := by
  have h := ranks_differenceWithin a b (max (content a).length (content b).length)
  rwa [List.take_of_length_le (Nat.le_max_left _ _), List.take_of_length_le (Nat.le_max_right _ _),
    differenceWithin, ← difference_eq] at h

theorem difference_swap : difference b a = -difference a b := by
  rw [difference_eq, difference_eq, Nat.max_comm, differenceOfContents_swap]

end Strings

namespace Machine

section Places

variable {s rest : Bytes} {x : UInt8} {i : Nat}

theorem byte_of_drop_cons (h : s.drop i = x :: rest) :
    s.getD i 0 = x ∧ s.drop (i + 1) = rest ∧ x ∈ s := by
  have hx : s[i]? = some x := by
    rw [← Nat.add_zero i, ← List.getElem?_drop, h]
    rfl
  refine ⟨by rw [List.getD_eq_getElem?_getD, hx, Option.getD_some], ?_, List.mem_of_getElem? hx⟩
  rw [← List.drop_drop, h, List.drop_one, List.tail_cons]

theorem byte_of_drop_nil (h : s.drop i = []) : s.getD i 0 = 0 := by
  rw [List.getD_eq_getElem?_getD, List.getElem?_eq_none (List.drop_eq_nil_iff.mp h),
    Option.getD_none]

end Places

/-- What is left of both strings at an index decides what is compared from there on. -/
theorem differenceFrom_eq {a b : Bytes} (ha : (0 : UInt8) ∉ a) (hb : (0 : UInt8) ∉ b) (n i : Nat) :
    differenceFrom a b n i = differenceOfContents n (a.drop i) (b.drop i) := by
  induction n generalizing i with
  | zero => rfl
  | succ n ih =>
    rw [differenceFrom, ih]
    cases hs : a.drop i with
    | nil =>
      cases ht : b.drop i with
      | nil =>
        rw [byte_of_drop_nil hs, byte_of_drop_nil ht, if_neg (not_not_intro rfl), if_pos rfl,
          differenceOfContents]
      | cons y t =>
        obtain ⟨hy, -, hmem⟩ := byte_of_drop_cons ht
        have hne : (0 : UInt8) ≠ y := fun h => hb (h ▸ hmem)
        rw [byte_of_drop_nil hs, hy, if_pos hne, differenceOfContents]
        simp
    | cons x s =>
      obtain ⟨hx, hs', hmem⟩ := byte_of_drop_cons hs
      have hne : x ≠ 0 := fun h => ha (h ▸ hmem)
      cases ht : b.drop i with
      | nil =>
        rw [hx, byte_of_drop_nil ht, if_pos hne, differenceOfContents]
        simp
      | cons y t =>
        obtain ⟨hy, ht', -⟩ := byte_of_drop_cons ht
        rw [hx, hy, hs', ht', differenceOfContents]
        by_cases hxy : x = y
        · rw [if_neg (not_not_intro hxy), if_neg hne, if_pos hxy]
        · rw [if_pos hxy, if_neg hxy]

theorem differenceWithin_eq (a b : Bytes) (n : Nat) :
    Machine.differenceWithin a b n = CString.differenceWithin a b n :=
  differenceFrom_eq (not_mem_content a) (not_mem_content b) n 0

/-- No string is longer than a word can count. -/
theorem difference_eq {a b : Bytes} (ha : a.length < wordLimit) (hb : b.length < wordLimit) :
    Machine.difference a b = CString.difference a b := by
  have ha' := length_content_le a
  have hb' := length_content_le b
  rw [Machine.difference, differenceWithin_eq, CString.difference_eq]
  exact differenceOfContents_of_le (by omega) (by omega)

end Machine

/-- The sign of a comparison of at most `n` bytes is that of the lexicographic order of the first
`n` bytes of the strings, and without a bound it is that of the strings. So strings are ordered:
who changes the sides changes the sign, what is below a string that is below another is below that,
and nothing but equal strings compare equal. What blocks hold behind their strings has no part in
it, nor has it whether there is a NUL. Index by index the comparison is the same. -/
theorem strings_compared_lexicographically (a b : Bytes) :
    (∀ n, Ranks (differenceWithin a b n) ((content a).take n) ((content b).take n)) ∧
    Ranks (difference a b) (content a) (content b) ∧
    difference b a = -difference a b ∧
    (∀ c, difference a b ≤ 0 → difference b c ≤ 0 → difference a c ≤ 0) ∧
    (difference a b = 0 ↔ content a = content b) ∧
    (∀ a' b', content a' = content a → content b' = content b →
      difference a' b' = difference a b ∧
        ∀ n, differenceWithin a' b' n = differenceWithin a b n) ∧
    (∀ n, Machine.differenceWithin a b n = differenceWithin a b n) ∧
    (a.length < wordLimit → b.length < wordLimit →
      Machine.difference a b = difference a b) := by
  refine ⟨ranks_differenceWithin a b, ranks_difference a b, difference_swap a b, fun c => ?_,
    (ranks_difference a b).zero_iff, fun a' b' ha hb => ⟨?_, fun n => ?_⟩,
    Machine.differenceWithin_eq a b, Machine.difference_eq⟩
  · exact (ranks_difference a b).trans (ranks_difference b c) (ranks_difference a c)
  · rw [difference_eq, difference_eq, ha, hb]
  · rw [differenceWithin, differenceWithin, ha, hb]

/-- A string that ends with its block comes before a longer one, and is the same as one that ends
before other bytes. -/
theorem strings_compared_lexicographically_unterminated :
    difference [97, 98, 0, 120] [97, 98] ≤ 0 ∧ difference [97, 98] [97, 98, 99, 0] ≤ 0 ∧
      difference [97, 98, 0, 120] [97, 98, 99, 0] ≤ 0 ∧
      content [97, 98, 0, 120] = content [97, 98] ∧
      difference [97, 98, 0, 120] [97, 98, 99, 0] = difference [97, 98] [97, 98, 99, 0] ∧
      Machine.difference [97, 98] [97, 98, 99, 0] = -99 := by
  obtain ⟨-, -, -, htrans, -⟩ := strings_compared_lexicographically [97, 98, 0, 120] [97, 98]
  obtain ⟨-, -, -, -, -, hsame, -, hmachine⟩ :=
    strings_compared_lexicographically [97, 98] [97, 98, 99, 0]
  have hab : difference [97, 98, 0, 120] [97, 98] ≤ 0 := by decide
  have hbc : difference [97, 98] [97, 98, 99, 0] ≤ 0 := by decide
  have hcontent : content [97, 98, 0, 120] = content [97, 98] := by decide
  exact ⟨hab, hbc, htrans _ hab hbc, hcontent, (hsame _ _ hcontent rfl).1,
    hmachine (by decide) (by decide)⟩

end GuestLibrary.CString
