import GuestLibrary.Numeral.Integer
import Mathlib

/-! What stands in front of a number, and runs of its digits. A run is all bytes of a class up to
the first that is not, which tells where it ends without telling how it is read; what a run of
digits denotes is a number without bound, of which a word keeps whether it fits. -/
namespace GuestLibrary
namespace Numeral

/-- The byte is a digit of the base `radix`. -/
def isDigitOf (radix : Nat) (c : UInt8) : Bool := (digit? radix c).isSome

/-- All bytes of the class `p` that lead up to `rest` are in `run`, and no others. -/
structure LongestRun (p : UInt8 → Bool) (run rest : Bytes) : Prop where
  all : ∀ c ∈ run, p c = true
  ends : ∀ c ∈ rest.head?, p c = false

/-- `0x`, with an `x` in either case. -/
def IsHexMark (mark : Bytes) : Prop := mark = [48, 120] ∨ mark = [48, 88]

/-- At most one byte, a plus or a minus. -/
def IsSign (sign : Bytes) : Prop := sign = [] ∨ sign = [43] ∨ sign = [45]

/-- The sign in front of `body`, if there is one. -/
structure SignOf (sign body : Bytes) : Prop where
  isSign : IsSign sign
  taken : sign = [] → ∀ c ∈ body.head?, c ≠ 43 ∧ c ≠ 45

section Runs

variable {p : UInt8 → Bool} {run rest run' rest' : Bytes}

theorem LongestRun.takeWhile_eq (h : LongestRun p run rest) : (run ++ rest).takeWhile p = run := by
  have hrest : rest.takeWhile p = [] := by
    cases rest with
    | nil => rfl
    | cons c rest => simp [h.ends c rfl]
  rw [List.takeWhile_append_of_pos h.all, hrest, List.append_nil]

theorem longestRun_takeWhile (p : UInt8 → Bool) (s : Bytes) :
    LongestRun p (s.takeWhile p) (s.dropWhile p) := by
  constructor
  · intro c hc
    exact List.mem_takeWhile_imp hc
  · intro c hc
    rw [Option.mem_def] at hc
    simpa [hc] using List.head?_dropWhile_not p s

theorem exists_longestRun (p : UInt8 → Bool) (s : Bytes) :
    ∃ run rest, run ++ rest = s ∧ LongestRun p run rest :=
  ⟨_, _, List.takeWhile_append_dropWhile, longestRun_takeWhile p s⟩

/-- A text begins with one longest run only. -/
theorem LongestRun.unique (h : LongestRun p run rest) (h' : LongestRun p run' rest')
    (heq : run ++ rest = run' ++ rest') : run = run' ∧ rest = rest' := by
  have hrun : run = run' := by rw [← h.takeWhile_eq, heq, h'.takeWhile_eq]
  subst hrun
  exact ⟨rfl, List.append_cancel_left heq⟩

/-- No text of the class at the front is longer than the run. -/
theorem LongestRun.length_le (h : LongestRun p run rest) {w : Bytes} (hw : w <+: run ++ rest)
    (hall : ∀ c ∈ w, p c = true) : w.length ≤ run.length := by
  rcases List.prefix_or_prefix_of_prefix hw (List.prefix_append run rest) with hshort | hlong
  · exact hshort.length_le
  · obtain ⟨more, rfl⟩ := hlong
    cases more with
    | nil => simp
    | cons c more =>
      obtain ⟨tail, htail⟩ := (List.prefix_append_right_inj run).mp hw
      have hc : p c = false := h.ends c (by simp [← htail])
      simp [hall c (by simp)] at hc

end Runs

section Signs

variable {sign body sign' body' : Bytes}

theorem exists_signOf (s : Bytes) : ∃ sign body, sign ++ body = s ∧ SignOf sign body := by
  by_cases hplus : s.head? = some 43
  · obtain ⟨body, rfl⟩ := List.head?_eq_some_iff.mp hplus
    exact ⟨[43], body, rfl, Or.inr (Or.inl rfl), by simp⟩
  · by_cases hminus : s.head? = some 45
    · obtain ⟨body, rfl⟩ := List.head?_eq_some_iff.mp hminus
      exact ⟨[45], body, rfl, Or.inr (Or.inr rfl), by simp⟩
    · refine ⟨[], s, rfl, Or.inl rfl, fun _ c hc => ?_⟩
      rw [Option.mem_def] at hc
      rw [hc] at hplus hminus
      simpa using And.intro hplus hminus

theorem SignOf.unique (h : SignOf sign body) (h' : SignOf sign' body')
    (heq : sign ++ body = sign' ++ body') : sign = sign' ∧ body = body' := by
  obtain ⟨hsign, htaken⟩ := h
  obtain ⟨hsign', htaken'⟩ := h'
  -- A sign on one side only would be the first byte of the other side's body.
  rcases hsign with rfl | rfl | rfl <;> rcases hsign' with rfl | rfl | rfl <;>
    simp only [List.nil_append, List.singleton_append] at heq
  case inl.inl => exact ⟨rfl, heq⟩
  case inl.inr.inl => simp [heq] at htaken
  case inl.inr.inr => simp [heq] at htaken
  case inr.inl.inl => simp [← heq] at htaken'
  case inr.inr.inl => simp [← heq] at htaken'
  all_goals simp_all

/-- No sign is a blank. -/
theorem IsSign.not_isSpace (h : IsSign sign) : ∀ c ∈ sign, isSpace c = false := by
  rcases h with rfl | rfl | rfl <;> simp [isSpace]

/-- The body begins where blanks and sign end. -/
theorem drop_front (blanks sign body : Bytes) :
    (blanks ++ (sign ++ body)).drop (blanks.length + sign.length) = body := by
  rw [← List.append_assoc, ← List.length_append, List.drop_left]

theorem lead_eq {blanks : Bytes} (hblanks : LongestRun isSpace blanks (sign ++ body))
    (h : SignOf sign body) :
    lead (blanks ++ (sign ++ body)) = (blanks.length + sign.length, sign == [45]) := by
  simp only [lead, hblanks.takeWhile_eq, List.drop_left]
  obtain ⟨hsign, htaken⟩ := h
  rcases hsign with rfl | rfl | rfl
  · cases body with
    | nil => rfl
    | cons c body =>
      obtain ⟨hplus, hminus⟩ := htaken rfl c rfl
      simp only [List.nil_append]
      split
      · simp_all
      · simp_all
      · rfl
  · rfl
  · rfl

end Signs

section Marks

variable {mark s : Bytes}

theorem IsHexMark.length (h : IsHexMark mark) : mark.length = 2 := by
  rcases h with rfl | rfl <;> rfl

theorem hasHexMark_iff : hasHexMark s = true ↔ ∃ mark rest, mark ++ rest = s ∧ IsHexMark mark := by
  constructor
  · intro h
    rcases s with _ | ⟨z, _ | ⟨x, rest⟩⟩
    · simp [hasHexMark] at h
    · simp [hasHexMark] at h
    · by_cases hz : z = 48
      · subst hz
        exact ⟨[48, x], rest, rfl, by simpa [IsHexMark, hasHexMark] using h⟩
      · simp [hasHexMark, hz] at h
  · rintro ⟨mark, rest, rfl, rfl | rfl⟩ <;> rfl

end Marks

section Digits

variable {radix : Nat} {run rest : Bytes}

/-- The digits that the bytes of a run stand for. -/
def values (radix : Nat) (run : Bytes) : List Nat := run.filterMap (digit? radix)

@[simp] theorem values_nil (radix : Nat) : values radix [] = [] := rfl

/-- The number that a run of digits denotes, the last digit being the units. -/
def valueOf (radix : Nat) (run : Bytes) : Nat := Nat.ofDigits radix (values radix run).reverse

theorem length_values (h : ∀ c ∈ run, isDigitOf radix c = true) :
    (values radix run).length = run.length := by
  induction run with
  | nil => rfl
  | cons c run ih =>
    obtain ⟨hc, hrun⟩ := List.forall_mem_cons.mp h
    obtain ⟨d, hd⟩ := Option.isSome_iff_exists.mp hc
    simpa [values, List.filterMap_cons, hd] using ih hrun

theorem isEmpty_values (h : ∀ c ∈ run, isDigitOf radix c = true) :
    (values radix run).isEmpty = true ↔ run = [] := by
  rw [List.isEmpty_iff_length_eq_zero, length_values h, List.length_eq_zero_iff]

theorem digitRun_eq (h : LongestRun (isDigitOf radix) run rest) :
    digitRun radix (run ++ rest) = values radix run := by
  obtain ⟨hall, hends⟩ := h
  induction run with
  | nil =>
    cases rest with
    | nil => rfl
    | cons c rest =>
      have hc : digit? radix c = none := by simpa [isDigitOf] using hends c rfl
      simp [digitRun, values, hc]
  | cons c run ih =>
    obtain ⟨hc, hrun⟩ := List.forall_mem_cons.mp hall
    obtain ⟨d, hd⟩ := Option.isSome_iff_exists.mp hc
    simpa [digitRun, values, List.filterMap_cons, hd] using ih hrun

theorem denote_eq (radix : Nat) (digits : List Nat) :
    denote radix digits = Nat.ofDigits radix digits.reverse := by
  induction digits using List.reverseRecOn with
  | nil => rfl
  | append_singleton digits d ih =>
    rw [List.reverse_append, List.reverse_singleton, List.singleton_append, Nat.ofDigits_cons, ← ih]
    simp only [denote, List.foldl_append, List.foldl_cons, List.foldl_nil]
    ring

/-- A word that has overflown stays so, whatever digits follow. -/
theorem denoteWord?_eq (hradix : 0 < radix) (digits : List Nat) :
    denoteWord? radix digits =
      if denote radix digits < wordLimit then some (denote radix digits) else none := by
  induction digits using List.reverseRecOn with
  | nil => rfl
  | append_singleton digits d ih =>
    have hword : denoteWord? radix (digits ++ [d]) = (denoteWord? radix digits).bind fun m =>
        if m * radix + d < wordLimit then some (m * radix + d) else none := by
      simp [denoteWord?, List.foldl_append]
    have hnumber : denote radix (digits ++ [d]) = denote radix digits * radix + d := by
      simp [denote, List.foldl_append]
    rw [hword, ih, hnumber]
    -- Beyond the limit one more digit only makes the number larger.
    by_cases h : denote radix digits < wordLimit
    · rw [if_pos h]
      rfl
    · have hgrown : denote radix digits ≤ denote radix digits * radix :=
        Nat.le_mul_of_pos_right _ hradix
      rw [if_neg h, if_neg (by omega)]
      rfl

end Digits
end Numeral
end GuestLibrary
