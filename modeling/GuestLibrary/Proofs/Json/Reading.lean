import GuestLibrary.Json.Document
import GuestLibrary.Json.Writer
import GuestLibrary.Proofs.Calendar.Text

/-! Reading the parts of a JSON text. A string between quotes and the digits of an integer are read
as what was written, and what follows a number makes no difference to it as long as it cannot go on
with it. -/
namespace GuestLibrary

namespace Document

section Strings

variable {c : Char}

theorem readUnits_escape {n : Nat} (hu : c ≠ 'u') (hc : escape? c = some n) (rest : List Char) :
    readUnits ('\\' :: c :: rest) =
      (readUnits rest).map fun (units, rest) => (n :: units, rest) := by
  rw [readUnits.eq_4 c rest (fun _ _ _ _ _ he _ => hu he), hc]
  cases readUnits rest <;> rfl

theorem readUnits_plain (hq : c ≠ '"') (hb : c ≠ '\\') (hc : 32 ≤ c.toNat) (rest : List Char) :
    readUnits (c :: rest) = (readUnits rest).map fun (units, rest) => (c.toNat :: units, rest) := by
  rw [readUnits.eq_5 c rest hq (fun _ _ _ _ _ he _ => hb he) (fun _ _ he _ => hb he),
    if_neg (Nat.not_lt.mpr hc)]
  cases readUnits rest <;> rfl

/-- A control character is written by its number in four digits. -/
theorem hexUnit?_hexPadded : ∀ n < 32, (match (Text.hexPadded 4 n).toList with
    | [a, b, c, d] => hexUnit? a b c d
    | _ => none) = some n := by
  decide

theorem readUnits_control (hc : c.toNat < 32) (rest : List Char) :
    readUnits ('\\' :: 'u' :: (Text.hexPadded 4 c.toNat).toList ++ rest) =
      (readUnits rest).map fun (units, rest) => (c.toNat :: units, rest) := by
  have hunit := hexUnit?_hexPadded c.toNat hc
  split at hunit
  · rename_i heq
    rw [heq]
    simp only [List.cons_append, List.nil_append, readUnits, hunit]
    cases readUnits rest <;> rfl
  · cases hunit

/-- A character is read as it was written. -/
theorem readUnits_quoteChar (c : Char) (rest : List Char) :
    readUnits (Json.quoteChar c ++ rest) =
      (readUnits rest).map fun (units, rest) => (c.toNat :: units, rest) := by
  unfold Json.quoteChar
  split
  case h_8 hq hb _ _ _ _ _ =>
    split
    · rename_i hc
      exact readUnits_control hc rest
    · rename_i hc
      exact readUnits_plain hq hb (Nat.not_lt.mp hc) rest
  all_goals exact readUnits_escape (by decide) (by decide) rest

/-- A string is read to its closing quote. -/
theorem readUnits_quote (cs rest : List Char) :
    readUnits (cs.flatMap Json.quoteChar ++ '"' :: rest) = some (cs.map Char.toNat, rest) := by
  induction cs with
  | nil => rfl
  | cons c cs ih => rw [List.flatMap_cons, List.append_assoc, readUnits_quoteChar, ih]; rfl

theorem join?_cons {n : Nat} (hhigh : isHighSurrogate n = false) (hlow : isLowSurrogate n = false)
    (units : List Nat) : join? (n :: units) = (join? units).map (Char.ofNat n :: ·) := by
  cases units <;> simp [join?, hhigh, hlow]

/-- The characters of a string are its units, since no character is a surrogate. -/
theorem join?_map_toNat (cs : List Char) : join? (cs.map Char.toNat) = some cs := by
  induction cs with
  | nil => rfl
  | cons c cs ih =>
    have hvalid : c.toNat < 0xD800 ∨ 0xDFFF < c.toNat ∧ c.toNat < 0x110000 := c.valid
    have hhigh : isHighSurrogate c.toNat = false := by
      simp only [isHighSurrogate, Bool.and_eq_false_iff, decide_eq_false_iff_not]
      omega
    have hlow : isLowSurrogate c.toNat = false := by
      simp only [isLowSurrogate, Bool.and_eq_false_iff, decide_eq_false_iff_not]
      omega
    rw [List.map_cons, join?_cons hhigh hlow, ih, Char.ofNat_toNat]
    rfl

theorem readText_quote (s : String) (rest : List Char) :
    readText (s.toList.flatMap Json.quoteChar ++ '"' :: rest) = some (some s, rest) := by
  simp [readText, readUnits_quote, join?_map_toNat]

end Strings

section Numbers

/-- What cannot go on with a number: the end of the text, or what stands behind a value in a
container. -/
def Follows (rest : List Char) : Prop :=
  ∀ c, rest.head? = some c → c = ',' ∨ c = ']' ∨ c = '\x7d'

variable {cs rest : List Char}

theorem Follows.cases (h : Follows rest) :
    rest = [] ∨ ∃ c t, rest = c :: t ∧ (c = ',' ∨ c = ']' ∨ c = '\x7d') := by
  cases rest with
  | nil => exact Or.inl rfl
  | cons c t => exact Or.inr ⟨c, t, rfl, h c rfl⟩

theorem takeDigits_append (h : Follows rest) (cs : List Char) :
    takeDigits (cs ++ rest) = ((takeDigits cs).1, (takeDigits cs).2 ++ rest) := by
  induction cs with
  | nil => obtain rfl | ⟨c, t, rfl, rfl | rfl | rfl⟩ := h.cases <;> rfl
  | cons c cs ih =>
    simp only [takeDigits, List.cons_append, List.takeWhile_cons, List.dropWhile_cons] at ih ⊢
    split
    · simpa using ih
    · rfl

theorem readFraction_append (h : Follows rest) (cs : List Char) :
    readFraction (cs ++ rest) = (readFraction cs).map fun (ds, r) => (ds, r ++ rest) := by
  cases cs with
  | nil => obtain rfl | ⟨c, t, rfl, rfl | rfl | rfl⟩ := h.cases <;> rfl
  | cons c cs =>
    by_cases hc : c = '.'
    · subst hc
      simp only [List.cons_append, readFraction, takeDigits_append h]
      split <;> rfl
    · simp [readFraction, hc]

/-- Digits with the sign in front of them, of which there is at least one. -/
def signedDigits? (negative : Bool) (cs : List Char) :
    Option (Option (Bool × List Nat) × List Char) :=
  if (takeDigits cs).1.isEmpty then none
  else some (some (negative, (takeDigits cs).1), (takeDigits cs).2)

theorem signedDigits?_append (h : Follows rest) (negative : Bool) (cs : List Char) :
    signedDigits? negative (cs ++ rest) =
      (signedDigits? negative cs).map fun (ds, r) => (ds, r ++ rest) := by
  unfold signedDigits?
  rw [takeDigits_append h]
  split <;> rfl

theorem readExponent_marked {mark : Char} (hm : mark = 'e' ∨ mark = 'E') (cs : List Char) :
    readExponent (mark :: cs) = match cs with
      | '-' :: digits => signedDigits? true digits
      | '+' :: digits => signedDigits? false digits
      | _ => signedDigits? false cs := by
  obtain rfl | rfl := hm
  all_goals
    simp only [readExponent, signedDigits?]
    split <;> simp_all

theorem readExponent_append (h : Follows rest) (cs : List Char) :
    readExponent (cs ++ rest) = (readExponent cs).map fun (ds, r) => (ds, r ++ rest) := by
  cases cs with
  | nil => obtain rfl | ⟨c, t, rfl, rfl | rfl | rfl⟩ := h.cases <;> rfl
  | cons mark cs =>
    by_cases hm : mark = 'e' ∨ mark = 'E'
    · rw [List.cons_append, readExponent_marked hm, readExponent_marked hm]
      cases cs with
      | nil => obtain rfl | ⟨c, t, rfl, rfl | rfl | rfl⟩ := h.cases <;> rfl
      | cons sign cs =>
        by_cases hminus : sign = '-'
        · subst hminus
          exact signedDigits?_append h true cs
        by_cases hplus : sign = '+'
        · subst hplus
          exact signedDigits?_append h false cs
        · simpa [hminus, hplus] using signedDigits?_append h false (sign :: cs)
    · obtain ⟨he, hE⟩ := not_or.mp hm
      simp [readExponent, he, hE]

/-- The digits in front of the point, of which the first is 0 only if it is the only one. -/
def readWhole (cs : List Char) : Option (List Nat × List Char) :=
  match cs with
  | '0' :: rest => some ([0], rest)
  | _ => if (takeDigits cs).1.isEmpty then none else some (takeDigits cs)

theorem readWhole_append (h : Follows rest) (cs : List Char) :
    readWhole (cs ++ rest) = (readWhole cs).map fun (ds, r) => (ds, r ++ rest) := by
  by_cases hzero : ∃ t, cs = '0' :: t
  · obtain ⟨t, rfl⟩ := hzero
    rfl
  · have hne : ∀ t, cs ++ rest ≠ '0' :: t := by
      intro t he
      cases cs with
      | nil => obtain rfl | ⟨c, t, rfl, rfl | rfl | rfl⟩ := h.cases <;> simp at he
      | cons c cs => exact hzero ⟨cs, by simp_all⟩
    rw [readWhole.eq_2 _ fun t he => hne t he, readWhole.eq_2 _ fun t he => hzero ⟨t, he⟩,
      takeDigits_append h]
    dsimp only
    split <;> rfl

/-- A number behind its sign. -/
def readMagnitude (negative : Bool) (cs : List Char) : Option (NumberText × List Char) :=
  (readWhole cs).bind fun (whole, cs) =>
    (readFraction cs).bind fun (fraction, cs) =>
      (readExponent cs).bind fun (exponent, cs) => some (⟨negative, whole, fraction, exponent⟩, cs)

theorem readMagnitude_append (h : Follows rest) (negative : Bool) (cs : List Char) :
    readMagnitude negative (cs ++ rest) =
      (readMagnitude negative cs).map fun (n, r) => (n, r ++ rest) := by
  unfold readMagnitude
  rw [readWhole_append h]
  cases readWhole cs with
  | none => rfl
  | some whole =>
    simp only [Option.map_some, Option.bind_some]
    rw [readFraction_append h]
    cases readFraction whole.2 with
    | none => rfl
    | some fraction =>
      simp only [Option.map_some, Option.bind_some]
      rw [readExponent_append h]
      cases readExponent fraction.2 <;> rfl

/-- Whether a minus stands in front, and what stands behind it. -/
def splitSign (cs : List Char) : Bool × List Char :=
  match cs with
  | '-' :: rest => (true, rest)
  | _ => (false, cs)

theorem splitSign_append (h : Follows rest) (cs : List Char) :
    splitSign (cs ++ rest) = ((splitSign cs).1, (splitSign cs).2 ++ rest) := by
  cases cs with
  | nil => obtain rfl | ⟨c, t, rfl, rfl | rfl | rfl⟩ := h.cases <;> rfl
  | cons c cs =>
    by_cases hc : c = '-'
    · subst hc
      rfl
    · simp [splitSign, hc]

theorem readNumber_eq (cs : List Char) :
    readNumber cs = readMagnitude (splitSign cs).1 (splitSign cs).2 := by
  unfold readNumber
  split
  rename_i negative digits hsign
  have hsplit : splitSign cs = (negative, digits) := hsign
  rw [hsplit]
  unfold readMagnitude
  split
  · rfl
  · rename_i hzero
    rw [readWhole.eq_2 _ hzero]
    dsimp only
    split <;> rfl

theorem readNumber_append (h : Follows rest) (cs : List Char) :
    readNumber (cs ++ rest) = (readNumber cs).map fun (n, r) => (n, r ++ rest) := by
  rw [readNumber_eq, readNumber_eq, splitSign_append h]
  exact readMagnitude_append h _ _

end Numbers

section Integers

/-- The values of digits written one behind the other. -/
def digitValues (digits : List Char) : List Nat := digits.map fun c => c.toNat - 48

theorem head?_toDigits {n : Nat} (h : 0 < n) : (Nat.toDigits 10 n).head? ≠ some '0' := by
  induction n using Nat.strongRecOn with
  | ind n ih =>
    rw [Nat.toDigits_eq_if (by decide)]
    split
    · interval_cases n <;> decide
    · rw [List.head?_append_of_ne_nil _ Nat.toDigits_ne_nil]
      exact ih (n / 10) (by omega) (by omega)

theorem takeDigits_toDigits (n : Nat) :
    takeDigits (Nat.toDigits 10 n) = (digitValues (Nat.toDigits 10 n), []) := by
  have hall : ∀ c ∈ Nat.toDigits 10 n, c.isDigit :=
    fun c hc => Nat.isDigit_of_mem_toDigits (by decide) (by decide) hc
  rw [takeDigits, List.takeWhile_eq_self_iff.mpr hall, List.dropWhile_eq_nil_iff.mpr hall]
  rfl

theorem readWhole_toDigits (n : Nat) :
    readWhole (Nat.toDigits 10 n) = some (digitValues (Nat.toDigits 10 n), []) := by
  by_cases hzero : n = 0
  · subst hzero
    rfl
  · have hne : ∀ t, Nat.toDigits 10 n ≠ '0' :: t := by
      intro t ht
      exact head?_toDigits (Nat.pos_of_ne_zero hzero) (by rw [ht]; rfl)
    rw [readWhole.eq_2 _ hne, takeDigits_toDigits, digitValues, List.isEmpty_map,
      List.isEmpty_eq_false_iff.mpr Nat.toDigits_ne_nil]
    rfl

theorem denote_toDigits (n : Nat) : Numeral.denote 10 (digitValues (Nat.toDigits 10 n)) = n := by
  rw [Numeral.denote, digitValues, List.foldl_map]
  refine Eq.trans ?_ (@Nat.ofDigitChars_ten_toDigits n)
  simp only [Nat.ofDigitChars, Nat.mul_comm 10]
  rfl

theorem splitSign_toString (i : Int) :
    splitSign (toString i).toList = (decide (i < 0), Nat.toDigits 10 i.natAbs) := by
  by_cases hneg : i < 0
  · rw [Calendar.toString_of_neg hneg, Nat.toString_eq_ofList_toDigits]
    simp [splitSign, hneg]
  · rw [Calendar.toString_of_nonneg (by omega), Nat.toString_eq_ofList_toDigits,
      String.toList_ofList, decide_eq_false hneg]
    refine splitSign.eq_2 _ fun t ht => ?_
    have hdigit : ('-' : Char).isDigit :=
      @Nat.isDigit_of_mem_toDigits 10 i.natAbs '-' (by decide) (by decide) (by rw [ht]; simp)
    exact absurd hdigit (by decide)

/-- An integer is read as what its digits denote. -/
theorem readNumber_toString (i : Int) : readNumber (toString i).toList =
    some (⟨decide (i < 0), digitValues (Nat.toDigits 10 i.natAbs), [], none⟩, []) := by
  rw [readNumber_eq, splitSign_toString, readMagnitude, readWhole_toDigits]
  rfl

theorem value?_toDigits {i : Int} (hlo : -SignedRange.long.limit ≤ i) (hhi : i < wordLimit) :
    NumberText.value? ⟨decide (i < 0), digitValues (Nat.toDigits 10 i.natAbs), [], none⟩ =
      some (.integer i) := by
  have hlimit : SignedRange.long.limit = 9223372036854775808 := rfl
  have hword : wordLimit = 18446744073709551616 := rfl
  unfold NumberText.value?
  rw [denote_toDigits]
  by_cases hneg : i < 0
  · have hm : i.natAbs < wordLimit := by omega
    have hpos : 0 < i.natAbs := by omega
    have hle : i.natAbs ≤ SignedRange.long.limit := by omega
    simp only [hneg, hm, hle, hpos, decide_true, List.isEmpty_nil, Option.isNone_none,
      Bool.and_self, Bool.not_true, Bool.and_false, Bool.false_eq_true, if_false, if_true]
    congr 2
    omega
  · have hm : i.natAbs < wordLimit := by omega
    simp [hneg, hm]
    omega

end Integers
end Document
end GuestLibrary
