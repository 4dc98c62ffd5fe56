import GuestLibrary.Bytes.Block
import Mathlib

/-! The longest prefix of a text that a language has. A reader that goes on as far as it can finds
it where the language leaves no choice: what it skips first is the only way to begin, and a part
that may be missing is missing only where it cannot be read. -/
namespace GuestLibrary
namespace Numeral

/-- The first `n` bytes of `s` are in `L`, and no longer prefix is. -/
structure LongestPrefix (L : Language UInt8) (s : Bytes) (n : Nat) : Prop where
  length_le : n ≤ s.length
  mem : s.take n ∈ L
  longest : ∀ w ∈ L, w <+: s → w.length ≤ n

/-- A reader finds the longest prefix in `L`, and nothing only where no prefix is in `L`. -/
def Finds (L : Language UInt8) (s : Bytes) : Option Nat → Prop
  | some n => LongestPrefix L s n
  | none => ∀ w ∈ L, ¬ w <+: s

variable {L M : Language UInt8} {s t a : Bytes} {n : Nat} {n? : Option Nat}

@[simp] theorem finds_some : Finds L s (some n) ↔ LongestPrefix L s n := Iff.rfl

theorem LongestPrefix.of_prefix (ha : a ∈ L) (has : a <+: s)
    (hlongest : ∀ w ∈ L, w <+: s → w.length ≤ a.length) : LongestPrefix L s a.length where
  length_le := has.length_le
  mem := by rwa [← List.prefix_iff_eq_take.mp has]
  longest := hlongest

/-- A reader that goes on to the end of `a` finds a text of the language unless `p` holds. -/
theorem Finds.of_prefix {p : Prop} [Decidable p] (has : a <+: s) (ha : ¬ p → a ∈ L)
    (hlongest : ∀ w ∈ L, w <+: s → ¬ p ∧ w.length ≤ a.length) :
    Finds L s (if p then none else some a.length) := by
  by_cases hp : p
  · rw [if_pos hp]
    exact fun w hw hws => (hlongest w hw hws).1 hp
  · rw [if_neg hp]
    exact LongestPrefix.of_prefix (ha hp) has fun w hw hws => (hlongest w hw hws).2

/-- Another language adds nothing that goes on beyond the longest prefix. -/
theorem LongestPrefix.add (h : LongestPrefix L s n) (hM : ∀ w ∈ M, w <+: s → w.length ≤ n) :
    LongestPrefix (L + M) s n where
  length_le := h.length_le
  mem := Or.inl h.mem
  longest w hw hws := hw.elim (fun hw => h.longest w hw hws) fun hw => hM w hw hws

/-- Only the prefixes of the text matter. -/
theorem Finds.congr (h : Finds L s n?) (heq : ∀ w, w <+: s → (w ∈ L ↔ w ∈ M)) :
    Finds M s n? := by
  cases n? with
  | none => exact fun w hw hws => h w ((heq w hws).mpr hw) hws
  | some n =>
    obtain ⟨hle, hmem, hlongest⟩ := h
    exact ⟨hle, (heq _ (List.take_prefix n s)).mp hmem,
      fun w hw hws => hlongest w ((heq w hws).mpr hw) hws⟩

/-- What may be missing is read where it can be. -/
theorem Finds.optional (h : Finds L s n?) : LongestPrefix (1 + L) s (n?.getD 0) := by
  cases n? with
  | none =>
    refine ⟨Nat.zero_le _, Or.inl List.take_zero, ?_⟩
    rintro w (rfl | hw) hws
    · exact Nat.le_refl 0
    · exact absurd hws (h w hw)
  | some n =>
    obtain ⟨hle, hmem, hlongest⟩ := h
    refine ⟨hle, Or.inr hmem, ?_⟩
    rintro w (rfl | hw) hws
    · exact Nat.zero_le n
    · exact hlongest w hw hws

/-- A reader may skip `a` where nothing else begins a text of the language. -/
theorem Finds.mul_left (ha : a ∈ L) (honly : ∀ x ∈ L, ∀ y ∈ M, x ++ y <+: a ++ t → x = a)
    (h : Finds M t n?) : Finds (L * M) (a ++ t) (n?.map (a.length + ·)) := by
  have hrest : ∀ w ∈ L * M, w <+: a ++ t → ∃ y ∈ M, w = a ++ y ∧ y <+: t := by
    rintro _ ⟨x, hx, y, hy, rfl⟩ hw
    obtain rfl := honly x hx y hy hw
    exact ⟨y, hy, rfl, List.prefix_append_right_inj x |>.mp hw⟩
  cases n? with
  | none =>
    intro w hw hws
    obtain ⟨y, hy, -, hyt⟩ := hrest w hw hws
    exact h y hy hyt
  | some n =>
    obtain ⟨hle, hmem, hlongest⟩ := h
    refine ⟨by simpa using hle, ?_, ?_⟩
    · rw [List.take_length_add_append]
      exact Language.append_mem_mul ha hmem
    · intro w hw hws
      obtain ⟨y, hy, rfl, hyt⟩ := hrest w hw hws
      simpa using hlongest y hy hyt

theorem Finds.mul_of_none (h : Finds L s none) : Finds (L * M) s none := by
  rintro _ ⟨x, hx, y, -, rfl⟩ hw
  exact h x hx ((List.prefix_append x y).trans hw)

/-- A reader may read the first part as far as it can where a shorter one is followed by nothing. -/
theorem Finds.mul {k : Nat → Nat} (h : Finds L s n?)
    (hrest : ∀ n, LongestPrefix M (s.drop n) (k n))
    (honly : ∀ x ∈ L, ∀ y ∈ M, x ++ y <+: s → y = [] ∨ n? = some x.length) :
    Finds (L * M) s (n?.map fun n => n + k n) := by
  cases n? with
  | none => exact h.mul_of_none
  | some n =>
    obtain ⟨hle, hmem, hlongest⟩ := h
    obtain ⟨hle', hmem', hlongest'⟩ := hrest n
    refine ⟨?_, ?_, ?_⟩
    · rw [List.length_drop] at hle'
      show n + k n ≤ s.length
      omega
    · rw [List.take_add]
      exact Language.append_mem_mul hmem hmem'
    · rintro _ ⟨x, hx, y, hy, rfl⟩ hw
      have hlength := hlongest x hx ((List.prefix_append x y).trans hw)
      rcases honly x hx y hy hw with rfl | heq
      · show (x ++ []).length ≤ n + k n
        rw [List.append_nil]
        exact hlength.trans (Nat.le_add_right n (k n))
      · obtain rfl : n = x.length := by simpa using heq
        obtain ⟨t, rfl⟩ := hw
        have hy' := hlongest' y hy (by simp [List.append_assoc])
        simpa using hy'

end Numeral
end GuestLibrary
