import GuestLibrary.Proofs.Numeral.Runs
import GuestLibrary.Proofs.Numeral.Prefixes
import GuestLibrary.Numeral.Real
import Mathlib

/-! Floating-point numbers in a text: their grammar as a language, and the readers against it, part
by part. Each part of a reader finds the longest prefix that its part of the grammar has. -/
namespace GuestLibrary
namespace Numeral
namespace Grammar

/-- The letters of `word`, each in either case. -/
def spelling (word : Bytes) : Language UInt8 := {w | w.map lowerCase = word}

def blanks : Language UInt8 := {w | ∀ c ∈ w, isSpace c = true}

/-- A sign, which may be missing. -/
def optionalSign : Language UInt8 := {w | IsSign w}

def digits (radix : Nat) : Language UInt8 := {w | w ≠ [] ∧ ∀ c ∈ w, isDigitOf radix c = true}

/-- Digits and at most one point, and at least one digit. -/
def pointed (radix : Nat) : Language UInt8 :=
  {w | (∀ c ∈ w, isDigitOf radix c = true ∨ c = 46) ∧ w.count 46 ≤ 1 ∧
    ∃ c ∈ w, isDigitOf radix c = true}

/-- An exponent behind the letter `mark`, which may be missing. -/
def exponent (mark : UInt8) : Language UInt8 := 1 + spelling [mark] * (optionalSign * digits 10)

/-- A point among decimal digits, and an exponent marked with `e`. -/
def decimal : Language UInt8 := pointed 10 * exponent 101

/-- `0x`, a point among hexadecimal digits, and an exponent marked with `p`. -/
def hexadecimal : Language UInt8 := spelling (Bytes.ofText "0x") * (pointed 16 * exponent 112)

def infinity : Language UInt8 := spelling (Bytes.ofText "infinity") + spelling (Bytes.ofText "inf")

/-- A letter or digit, or an underscore. -/
def isWordByte (c : UInt8) : Bool := isDigitOf 36 c || c == 95

/-- Letters, digits and underscores in parentheses. -/
def parenthesized : Language UInt8 :=
  {w | ∃ inner, w = 40 :: (inner ++ [41]) ∧ ∀ c ∈ inner, isWordByte c = true}

def nan : Language UInt8 := spelling (Bytes.ofText "nan") * (1 + parenthesized)

def magnitude : Language UInt8 := infinity + nan + (hexadecimal + decimal)

def real : Language UInt8 := blanks * (optionalSign * magnitude)

end Grammar

open Grammar

section Points

variable {radix : Nat} {w whole fraction rest s : Bytes}

theorem not_isDigitOf_point (radix : Nat) : isDigitOf radix 46 = false := by
  simp [isDigitOf, digit?, digitValue?]

/-- The digits before the point and those behind it. -/
theorem mem_pointed_iff : w ∈ pointed radix ↔ ∃ whole fraction,
    (∀ c ∈ whole, isDigitOf radix c = true) ∧ (∀ c ∈ fraction, isDigitOf radix c = true) ∧
    whole ++ fraction ≠ [] ∧ (w = whole ∧ fraction = [] ∨ w = whole ++ 46 :: fraction) := by
  constructor
  · rintro ⟨hall, hcount, d, hd, hdigit⟩
    obtain ⟨whole, rest, rfl, hwhole⟩ := exists_longestRun (isDigitOf radix) w
    cases rest with
    | nil =>
      refine ⟨whole, [], hwhole.all, by simp, ?_, Or.inl ⟨by simp, rfl⟩⟩
      rintro hnone
      simp_all
    | cons c fraction =>
      -- The first byte that is no digit is the point, and there is no other.
      obtain rfl : c = 46 := by simpa [hwhole.ends c rfl] using hall c (by simp)
      have hpoint : 46 ∉ fraction := by
        intro h
        have hmore : 0 < fraction.count 46 := List.count_pos_iff.mpr h
        rw [List.count_append, List.count_cons_self] at hcount
        omega
      refine ⟨whole, fraction, hwhole.all, fun c hc => ?_, ?_, Or.inr rfl⟩
      · exact (hall c (by simp [hc])).resolve_right fun h => hpoint (h ▸ hc)
      · rintro hnone
        simp_all [not_isDigitOf_point]
  · rintro ⟨whole, fraction, hwhole, hfraction, hsome, hw⟩
    have hpoint : ∀ {run : Bytes}, (∀ c ∈ run, isDigitOf radix c = true) → run.count 46 = 0 := by
      intro run hrun
      exact List.count_eq_zero.mpr fun h => by simpa [not_isDigitOf_point] using hrun 46 h
    obtain ⟨d, hd⟩ := List.exists_mem_of_ne_nil _ hsome
    have hdigit : isDigitOf radix d = true := (List.mem_append.mp hd).elim (hwhole d) (hfraction d)
    rcases hw with ⟨rfl, rfl⟩ | rfl
    · refine ⟨fun c hc => Or.inl (hwhole c hc), by simp [hpoint hwhole], d, ?_, hdigit⟩
      simpa using hd
    · refine ⟨fun c hc => ?_, by simp [hpoint hwhole, hpoint hfraction], d, ?_, hdigit⟩
      · simp only [List.mem_append, List.mem_cons] at hc
        rcases hc with hc | hc | hc
        · exact Or.inl (hwhole c hc)
        · exact Or.inr hc
        · exact Or.inl (hfraction c hc)
      · simp only [List.mem_append, List.mem_cons] at hd ⊢
        exact hd.imp_right Or.inr

theorem pointed?_of_point (hwhole : LongestRun (isDigitOf radix) whole (46 :: (fraction ++ rest)))
    (hfraction : LongestRun (isDigitOf radix) fraction rest) :
    (pointed? radix (whole ++ 46 :: (fraction ++ rest))).map (·.2.2) =
      if whole = [] ∧ fraction = [] then none else some (whole.length + 1 + fraction.length) := by
  simp only [pointed?, digitRun_eq hwhole, length_values hwhole.all, List.drop_left,
    digitRun_eq hfraction, length_values hfraction.all, isEmpty_values hwhole.all,
    isEmpty_values hfraction.all]
  split <;> rfl

theorem pointed?_of_no_point (hwhole : LongestRun (isDigitOf radix) whole rest)
    (hpoint : rest.head? ≠ some 46) :
    (pointed? radix (whole ++ rest)).map (·.2.2) =
      if whole = [] then none else some whole.length := by
  simp only [pointed?, digitRun_eq hwhole, length_values hwhole.all, List.drop_left,
    isEmpty_values hwhole.all]
  split
  · simp at hpoint
  · by_cases hnone : whole = [] <;> simp [hnone]

/-- A text of the grammar ends within the first run of digits or goes through a point behind it. -/
theorem cases_of_mem_pointed (hwhole : LongestRun (isDigitOf radix) whole rest)
    (hw : w ∈ pointed radix) (hws : w <+: whole ++ rest) :
    w.length ≤ whole.length ∧ whole ≠ [] ∨
      ∃ fraction, w = whole ++ 46 :: fraction ∧ 46 :: fraction <+: rest ∧
        (∀ c ∈ fraction, isDigitOf radix c = true) ∧ ¬ (whole = [] ∧ fraction = []) := by
  obtain ⟨whole', fraction, hwhole', hfraction, hsome, ⟨rfl, rfl⟩ | rfl⟩ := mem_pointed_iff.mp hw
  · have hlength := hwhole.length_le hws hwhole'
    refine Or.inl ⟨hlength, ?_⟩
    rintro rfl
    simp_all
  · obtain ⟨tail, htail⟩ := hws
    have hrun : LongestRun (isDigitOf radix) whole' (46 :: (fraction ++ tail)) :=
      ⟨hwhole', by simp [not_isDigitOf_point]⟩
    obtain ⟨rfl, rfl⟩ := hwhole.unique hrun (by simpa using htail.symm)
    exact Or.inr ⟨fraction, rfl, ⟨tail, rfl⟩, hfraction, by simpa using hsome⟩

theorem finds_pointed (radix : Nat) (s : Bytes) :
    Finds (pointed radix) s ((pointed? radix s).map (·.2.2)) := by
  obtain ⟨whole, rest, rfl, hwhole⟩ := exists_longestRun (isDigitOf radix) s
  by_cases hpoint : rest.head? = some 46
  · obtain ⟨tail, rfl⟩ := List.head?_eq_some_iff.mp hpoint
    obtain ⟨fraction, rest, rfl, hfraction⟩ := exists_longestRun (isDigitOf radix) tail
    have hlength : whole.length + 1 + fraction.length = (whole ++ 46 :: fraction).length := by
      rw [List.length_append, List.length_cons]
      omega
    rw [pointed?_of_point hwhole hfraction, hlength]
    apply Finds.of_prefix ⟨rest, by simp⟩
    · intro hsome
      exact mem_pointed_iff.mpr
        ⟨whole, fraction, hwhole.all, hfraction.all, by simpa using hsome, Or.inr rfl⟩
    · intro w hw hws
      rcases cases_of_mem_pointed hwhole hw hws with
        ⟨hle, hsome⟩ | ⟨fraction', rfl, hrest, hall, hsome⟩
      · exact ⟨fun h => hsome h.1, by omega⟩
      · have hle := hfraction.length_le ((List.prefix_cons_inj 46).mp hrest) hall
        refine ⟨?_, by simpa using hle⟩
        rintro ⟨rfl, rfl⟩
        simp_all
  · rw [pointed?_of_no_point hwhole hpoint]
    apply Finds.of_prefix (List.prefix_append whole rest)
    · intro hsome
      exact mem_pointed_iff.mpr
        ⟨whole, [], hwhole.all, by simp, by simpa using hsome, Or.inl ⟨rfl, rfl⟩⟩
    · intro w hw hws
      rcases cases_of_mem_pointed hwhole hw hws with ⟨hle, hsome⟩ | ⟨fraction, -, ⟨tail, rfl⟩, -⟩
      · exact ⟨hsome, hle⟩
      · exact absurd rfl hpoint

end Points

section Fronts

variable {s w a x y t body sign word : Bytes} {M : Language UInt8} {n? : Option Nat}

theorem mem_spelling : w ∈ spelling word ↔ w.map lowerCase = word := Iff.rfl

theorem mem_spelling_singleton {c : UInt8} :
    w ∈ spelling [c] ↔ ∃ x, w = [x] ∧ lowerCase x = c := by
  simp [mem_spelling]

/-- Every spelling of a word is as long as the word. -/
theorem length_of_mem_spelling (h : w ∈ spelling word) : w.length = word.length := by
  rw [← mem_spelling.mp h, List.length_map]

theorem Finds.spelling_mul (ha : a ∈ spelling word) (h : Finds M t n?) :
    Finds (spelling word * M) (a ++ t) (n?.map (word.length + ·)) := by
  rw [← length_of_mem_spelling ha]
  apply Finds.mul_left ha _ h
  rintro x hx y - ⟨tail, htail⟩
  rw [List.append_assoc] at htail
  apply (List.append_inj htail _).1
  rw [length_of_mem_spelling hx, length_of_mem_spelling ha]

theorem startsWithWord_iff {word : String} :
    startsWithWord s word = true ↔ ∃ w ∈ spelling (Bytes.ofText word), w <+: s := by
  rw [startsWithWord, List.isPrefixOf_iff_prefix, List.prefix_map_iff]
  constructor
  · rintro ⟨w, hw, hword⟩
    exact ⟨w, hword.symm, hw⟩
  · rintro ⟨w, hword, hw⟩
    exact ⟨w, hw, hword.symm⟩

theorem length_of_mem_word {word : String} (h : w ∈ spelling (Bytes.ofText word)) :
    w.length = word.utf8ByteSize := by
  rw [length_of_mem_spelling h, Bytes.ofText_eq]
  rfl

theorem finds_word {word : String} (h : startsWithWord s word = true) :
    LongestPrefix (spelling (Bytes.ofText word)) s word.utf8ByteSize := by
  obtain ⟨a, ha, has⟩ := startsWithWord_iff.mp h
  rw [← length_of_mem_word ha]
  apply LongestPrefix.of_prefix ha has
  intro w hw _
  rw [length_of_mem_word hw, length_of_mem_word ha]

/-- The sign of a text is the only one that something else than a sign can follow. -/
theorem SignOf.eq_of_prefix (h : SignOf sign body) (hx : IsSign x)
    (hy : ∃ c rest, y = c :: rest ∧ c ≠ 43 ∧ c ≠ 45) (hw : x ++ y <+: sign ++ body) : x = sign := by
  obtain ⟨c, rest, rfl, hc⟩ := hy
  obtain ⟨tail, htail⟩ := hw
  have hsign : SignOf x (c :: rest ++ tail) := ⟨hx, by simp [hc]⟩
  exact (hsign.unique h (by simpa using htail)).1

end Fronts

section Exponents

variable {s sign run rest : Bytes} {radix : Nat}

theorem finds_digits (h : LongestRun (isDigitOf radix) run rest) :
    Finds (digits radix) (run ++ rest) (if run = [] then none else some run.length) := by
  refine Finds.of_prefix (List.prefix_append run rest) (fun hsome => ⟨hsome, h.all⟩) ?_
  rintro w ⟨hsome, hall⟩ hws
  have hle := h.length_le hws hall
  refine ⟨?_, hle⟩
  rintro rfl
  simp_all

theorem exponent?_eq (hsign : SignOf sign (run ++ rest)) (h : LongestRun (isDigitOf 10) run rest) :
    (exponent? (sign ++ (run ++ rest))).map (·.2) =
      (if run = [] then none else some run.length).map (sign.length + ·) := by
  have hrun := digitRun_eq h
  have hempty := isEmpty_values h.all
  have hlength := length_values h.all
  generalize run ++ rest = body at hsign hrun
  obtain ⟨hsign, htaken⟩ := hsign
  rcases hsign with rfl | rfl | rfl
  · simp only [exponent?, List.nil_append]
    split
    · simp at htaken
    · simp at htaken
    · by_cases hnone : run = [] <;> simp [hrun, hempty, hlength, hnone]
  · by_cases hnone : run = [] <;> simp [exponent?, hrun, hempty, hlength, hnone]
  · by_cases hnone : run = [] <;> simp [exponent?, hrun, hempty, hlength, hnone]

/-- The digits of an exponent with its sign. -/
theorem finds_signedDigits (s : Bytes) :
    Finds (optionalSign * digits 10) s ((exponent? s).map (·.2)) := by
  obtain ⟨sign, body, rfl, hsign⟩ := exists_signOf s
  obtain ⟨run, rest, rfl, hrun⟩ := exists_longestRun (isDigitOf 10) body
  rw [exponent?_eq hsign hrun]
  apply Finds.mul_left hsign.isSign _ (finds_digits hrun)
  rintro x hx y ⟨hsome, hall⟩ hw
  obtain ⟨c, rest', rfl⟩ := List.exists_cons_of_ne_nil hsome
  refine hsign.eq_of_prefix hx ⟨c, rest', rfl, ?_⟩ hw
  have hc : isDigitOf 10 c = true := hall c (by simp)
  constructor <;> rintro rfl <;> simp [isDigitOf, digit?, digitValue?] at hc

theorem finds_exponent (mark : UInt8) (s : Bytes) :
    LongestPrefix (exponent mark) s (markedExponent mark s).2 := by
  by_cases hmark : s.head?.map lowerCase = some mark
  · obtain ⟨c, hc, hlower⟩ := Option.map_eq_some_iff.mp hmark
    obtain ⟨rest, rfl⟩ := List.head?_eq_some_iff.mp hc
    have hspelling : [c] ∈ spelling [mark] := by simp [mem_spelling, hlower]
    have hused : (markedExponent mark (c :: rest)).2 =
        (((exponent? rest).map (·.2)).map ([mark].length + ·)).getD 0 := by
      cases h : exponent? rest <;> simp [markedExponent, hlower, h, Nat.add_comm]
    rw [hused]
    exact ((finds_signedDigits rest).spelling_mul hspelling).optional
  · have hused : (markedExponent mark s).2 = 0 := by
      cases s with
      | nil => rfl
      | cons c rest => simp_all [markedExponent]
    have hnone : Finds (spelling [mark]) s none := by
      intro w hw hws
      obtain ⟨c, rfl, hlower⟩ := mem_spelling_singleton.mp hw
      obtain ⟨rest, rfl⟩ := hws
      simp [hlower] at hmark
    rw [hused]
    exact hnone.mul_of_none.optional

theorem eq_nil_or_cons_of_mem_exponent {mark : UInt8} {w : Bytes} (h : w ∈ exponent mark) :
    w = [] ∨ ∃ c rest, w = c :: rest ∧ lowerCase c = mark := by
  obtain hnone | ⟨x, hx, rest, -, rfl⟩ := h
  · exact Or.inl hnone
  · obtain ⟨c, rfl, hc⟩ := mem_spelling_singleton.mp hx
    exact Or.inr ⟨c, rest, rfl, hc⟩

end Exponents

section Numerals

variable {s w : Bytes} {radix : Nat} {mark : UInt8}

/-- No byte that an exponent begins with belongs to the digits before it, which therefore cannot
stop short of it. -/
theorem finds_scientific (hmark : ∀ c, isDigitOf radix c = true ∨ c = 46 → lowerCase c ≠ mark)
    (s : Bytes) : Finds (pointed radix * exponent mark) s
      (((pointed? radix s).map (·.2.2)).map fun n => n + (markedExponent mark (s.drop n)).2) := by
  have hpointed := finds_pointed radix s
  apply hpointed.mul fun n => finds_exponent mark (s.drop n)
  intro x hx y hy hw
  obtain rfl | ⟨c, rest, rfl, hlower⟩ := eq_nil_or_cons_of_mem_exponent hy
  · exact Or.inl rfl
  · have hxs : x <+: s := (List.prefix_append x _).trans hw
    obtain ⟨tail, rfl⟩ := hw
    refine Or.inr ?_
    generalize (pointed? radix (x ++ c :: rest ++ tail)).map (·.2.2) = n? at hpointed
    cases n? with
    | none => exact absurd hxs (hpointed x hx)
    | some n =>
      obtain ⟨-, ⟨hall, -⟩, hlongest⟩ := hpointed
      have hle : x.length ≤ n := hlongest x hx hxs
      -- Were more bytes read than `x`, the mark of the exponent would be among them.
      by_cases hlt : x.length < n
      · have hc : c ∈ (x ++ c :: rest ++ tail).take n := by
          obtain ⟨k, rfl⟩ : ∃ k, n = x.length + (k + 1) := ⟨n - x.length - 1, by omega⟩
          rw [List.append_assoc, List.take_length_add_append]
          simp
        exact absurd hlower (hmark c (hall c hc))
      · rw [Nat.le_antisymm hle (Nat.not_lt.mp hlt)]

theorem finds_decimal (s : Bytes) : Finds decimal s ((decimal? s).map (·.2)) := by
  have hmark : ∀ c, isDigitOf 10 c = true ∨ c = 46 → lowerCase c ≠ 101 := by decide +kernel
  have h : Finds decimal s _ := finds_scientific hmark s
  cases hpointed : pointed? 10 s <;> simpa [decimal?, hpointed] using h

theorem mem_spelling_hexMark : w ∈ spelling (Bytes.ofText "0x") ↔ IsHexMark w := by
  have hword : Bytes.ofText "0x" = [48, 120] := by
    rw [Bytes.ofText_eq]
    rfl
  have hzero : ∀ z, lowerCase z = 48 ↔ z = 48 := by decide +kernel
  have hx : ∀ x, lowerCase x = 120 ↔ x = 120 ∨ x = 88 := by decide +kernel
  rw [mem_spelling, hword, IsHexMark]
  rcases w with _ | ⟨z, _ | ⟨x, _ | ⟨d, w⟩⟩⟩
  · simp
  · simp
  · simp [hzero, hx, and_or_left]
  · simp

theorem finds_hexadecimal (s : Bytes) : Finds hexadecimal s
    ((if hasHexMark s then hexadecimal? (s.drop 2) else none).map (2 + ·.2)) := by
  have hmark : ∀ c, isDigitOf 16 c = true ∨ c = 46 → lowerCase c ≠ 112 := by decide +kernel
  by_cases hmarked : hasHexMark s = true
  · obtain ⟨a, t, rfl, ha⟩ := hasHexMark_iff.mp hmarked
    have hspelling := mem_spelling_hexMark.mpr ha
    have h : Finds hexadecimal (a ++ t) _ := (finds_scientific hmark t).spelling_mul hspelling
    rw [← length_of_mem_spelling hspelling, ha.length] at h
    have hdrop : (a ++ t).drop 2 = t := by rw [← ha.length, List.drop_left]
    rw [hmarked, hdrop]
    cases hpointed : pointed? 16 t <;> simpa [hexadecimal?, hpointed] using h
  · have hnone : Finds (spelling (Bytes.ofText "0x")) s none := by
      rintro w hw ⟨t, rfl⟩
      exact hmarked (hasHexMark_iff.mpr ⟨w, t, rfl, mem_spelling_hexMark.mp hw⟩)
    rw [if_neg hmarked]
    exact hnone.mul_of_none

/-- The second byte of a decimal number. -/
theorem second_of_mem_decimal {c x : UInt8} (h : c :: x :: w ∈ decimal) :
    isDigitOf 10 x = true ∨ x = 46 ∨ lowerCase x = 101 := by
  obtain ⟨m, ⟨hall, -, d, hd, -⟩, e, he, heq⟩ := h
  rcases m with _ | ⟨c', _ | ⟨y, m⟩⟩
  · simp at hd
  · obtain rfl | ⟨y, rest, rfl, hlower⟩ := eq_nil_or_cons_of_mem_exponent he
    · simp at heq
    · obtain ⟨-, rfl, -⟩ : _ ∧ y = x ∧ _ := by simpa using heq
      exact Or.inr (Or.inr hlower)
  · obtain ⟨-, rfl, -⟩ : _ ∧ y = x ∧ _ := by simpa using heq
    rcases hall y (by simp) with hdigit | hpoint
    · exact Or.inl hdigit
    · exact Or.inr (Or.inl hpoint)

/-- Of a text marked as hexadecimal no more than the zero is a decimal number. -/
theorem length_le_of_mem_decimal (hs : hasHexMark s = true) (h : w ∈ decimal) (hw : w <+: s) :
    w.length ≤ 1 := by
  obtain ⟨mark, t, rfl, hmark⟩ := hasHexMark_iff.mp hs
  rcases w with _ | ⟨z, _ | ⟨x, w⟩⟩
  · simp
  · simp
  · have hx : x = 120 ∨ x = 88 := by
      obtain ⟨tail, htail⟩ := hw
      rcases hmark with rfl | rfl <;> simp_all
    have hx' := second_of_mem_decimal h
    rcases hx with rfl | rfl <;>
      simp [isDigitOf, digit?, digitValue?, lowerCase] at hx'

theorem finds_numeral (hinfinity : ¬ startsWithWord s "infinity" = true)
    (hinf : ¬ startsWithWord s "inf" = true) (hnan : ¬ startsWithWord s "nan" = true) :
    Finds (hexadecimal + decimal) s ((unsignedReal? s).map (·.2)) := by
  have hhex := finds_hexadecimal s
  simp only [unsignedReal?, hinfinity, hinf, hnan]
  cases hread : if hasHexMark s then hexadecimal? (s.drop 2) else none with
  | none =>
    rw [hread] at hhex
    exact (finds_decimal s).congr fun w hw => (or_iff_right fun h => hhex w h hw).symm
  | some r =>
    rw [hread] at hhex
    have hmarked : hasHexMark s = true := by
      by_contra h
      simp [h] at hread
    refine LongestPrefix.add hhex fun w hw hws => ?_
    have hone := length_le_of_mem_decimal hmarked hw hws
    show w.length ≤ 2 + r.2
    omega

end Numerals

section Words

variable {s w inner rest : Bytes}

/-- The sequence is closed where the bytes that may stand in it end, or nowhere. -/
theorem eq_of_mem_parenthesized (hinner : LongestRun isWordByte inner rest) (hw : w ∈ parenthesized)
    (hws : w <+: 40 :: (inner ++ rest)) : w = 40 :: (inner ++ [41]) ∧ rest.head? = some 41 := by
  obtain ⟨inner', rfl, hall⟩ := hw
  obtain ⟨tail, htail⟩ := hws
  have hrun : LongestRun isWordByte inner' (41 :: tail) :=
    ⟨hall, by simp [isWordByte, isDigitOf, digit?, digitValue?]⟩
  obtain ⟨rfl, rfl⟩ := hrun.unique hinner (by simpa using htail)
  exact ⟨rfl, rfl⟩

theorem finds_parenthesized (s : Bytes) :
    LongestPrefix (1 + parenthesized) s (nanSequence s).2 := by
  by_cases hopen : s.head? = some 40
  · obtain ⟨body, rfl⟩ := List.head?_eq_some_iff.mp hopen
    obtain ⟨inner, rest, rfl, hinner⟩ := exists_longestRun isWordByte body
    have hused : (nanSequence (40 :: (inner ++ rest))).2 =
        (if rest.head? ≠ some 41 then none else some (40 :: (inner ++ [41])).length).getD 0 := by
      have htake : (inner ++ rest).takeWhile (fun c => (digit? 36 c).isSome || c == 95) = inner :=
        hinner.takeWhile_eq
      have hnext : (inner ++ rest)[inner.length]? = rest.head? := by
        rw [List.getElem?_append_right (Nat.le_refl _), Nat.sub_self, List.head?_eq_getElem?]
      simp only [nanSequence, htake, hnext]
      by_cases hclosed : rest.head? = some 41 <;> simp [hclosed]
    rw [hused]
    apply Finds.optional
    by_cases hclosed : rest.head? = some 41
    · obtain ⟨tail, rfl⟩ := List.head?_eq_some_iff.mp hclosed
      refine Finds.of_prefix ⟨tail, by simp⟩ (fun _ => ⟨inner, rfl, hinner.all⟩) ?_
      intro w hw hws
      rw [(eq_of_mem_parenthesized hinner hw hws).1]
      simp
    · rw [if_pos hclosed]
      exact fun w hw hws => hclosed (eq_of_mem_parenthesized hinner hw hws).2
  · have hused : (nanSequence s).2 = (none : Option Nat).getD 0 := by
      unfold nanSequence
      split
      · simp at hopen
      · rfl
    rw [hused]
    apply Finds.optional
    rintro w hw ⟨tail, rfl⟩
    obtain ⟨inner, rfl, -⟩ := hw
    simp at hopen

theorem startsWithWord_inf (h : startsWithWord s "infinity" = true) :
    startsWithWord s "inf" = true := by
  rw [startsWithWord, List.isPrefixOf_iff_prefix] at h ⊢
  have hshorter : Bytes.ofText "inf" <+: Bytes.ofText "infinity" := by
    rw [Bytes.ofText_eq, Bytes.ofText_eq]
    exact ⟨Bytes.ofText "inity", by rw [Bytes.ofText_eq]; rfl⟩
  exact hshorter.trans h

theorem finds_infinity (h : startsWithWord s "infinity" = true) : LongestPrefix infinity s 8 := by
  apply (finds_word h).add
  intro w hw _
  rw [length_of_mem_word hw]
  decide

theorem finds_inf (h : startsWithWord s "inf" = true)
    (hinfinity : ¬ startsWithWord s "infinity" = true) : LongestPrefix infinity s 3 := by
  rw [infinity, add_comm]
  apply (finds_word h).add
  intro w hw hws
  exact absurd (startsWithWord_iff.mpr ⟨w, hw, hws⟩) hinfinity

theorem finds_nan (h : startsWithWord s "nan" = true) :
    LongestPrefix nan s (3 + (nanSequence (s.drop 3)).2) := by
  obtain ⟨a, ha, t, rfl⟩ := startsWithWord_iff.mp h
  have hlength : a.length = 3 := length_of_mem_word ha
  have hinner : Finds (1 + parenthesized) t (some _) := finds_parenthesized t
  have hread := hinner.spelling_mul ha
  rw [← length_of_mem_spelling ha] at hread
  rw [← hlength, List.drop_left]
  exact hread

end Words

section Openings

variable {s w : Bytes} {c : UInt8}

/-- A text and its prefixes open with the same letter. -/
theorem opening_of_prefix (hws : w <+: s) (hw : w.head?.map lowerCase = some c) :
    s.head?.map lowerCase = some c := by
  obtain ⟨tail, rfl⟩ := hws
  cases w with
  | nil => simp at hw
  | cons x w => exact hw

theorem opening_of_mem_infinity (h : w ∈ infinity) : w.head?.map lowerCase = some 105 := by
  rcases h with h | h <;>
  · rw [← List.head?_map, mem_spelling.mp h, Bytes.ofText_eq]
    rfl

theorem opening_of_mem_nan (h : w ∈ nan) : w.head?.map lowerCase = some 110 := by
  obtain ⟨a, ha, y, -, rfl⟩ := h
  apply opening_of_prefix (List.prefix_append a y)
  rw [← List.head?_map, mem_spelling.mp ha, Bytes.ofText_eq]
  rfl

theorem opening_of_mem_numeral (h : w ∈ hexadecimal + decimal) :
    ∃ c, w.head?.map lowerCase = some c ∧ 46 ≤ c ∧ c ≤ 57 := by
  rcases h with ⟨a, ha, y, -, rfl⟩ | ⟨m, ⟨hall, -, d, hd, -⟩, e, -, rfl⟩
  · refine ⟨48, opening_of_prefix (List.prefix_append a y) ?_, by decide, by decide⟩
    rw [← List.head?_map, mem_spelling.mp ha, Bytes.ofText_eq]
    rfl
  · have hopening : ∀ c, isDigitOf 10 c = true ∨ c = 46 → 46 ≤ lowerCase c ∧ lowerCase c ≤ 57 := by
      decide +kernel
    cases m with
    | nil => simp at hd
    | cons c m => exact ⟨lowerCase c, rfl, hopening c (hall c (by simp))⟩

/-- No number opens with a blank or with a sign. -/
theorem opening_of_mem_magnitude (h : w ∈ magnitude) :
    ∃ c rest, w = c :: rest ∧ isSpace c = false ∧ c ≠ 43 ∧ c ≠ 45 := by
  obtain ⟨l, hl, hle⟩ : ∃ l, w.head?.map lowerCase = some l ∧ 46 ≤ l := by
    rcases h with (h | h) | h
    · exact ⟨105, opening_of_mem_infinity h, by decide⟩
    · exact ⟨110, opening_of_mem_nan h, by decide⟩
    · obtain ⟨l, hl, hle, -⟩ := opening_of_mem_numeral h
      exact ⟨l, hl, hle⟩
  have hfront : ∀ c, 46 ≤ lowerCase c → isSpace c = false ∧ c ≠ 43 ∧ c ≠ 45 := by decide +kernel
  cases w with
  | nil => simp at hl
  | cons c w =>
    obtain rfl : lowerCase c = l := by simpa using hl
    exact ⟨c, w, rfl, hfront c hle⟩

end Openings

section Readers

variable {s : Bytes}

/-- Behind letters no numeral begins. -/
theorem not_prefix_of_mem_numeral {l : UInt8} (hs : s.head?.map lowerCase = some l) (hl : 57 < l) :
    ∀ w ∈ hexadecimal + decimal, ¬ w <+: s := by
  intro w hw hws
  obtain ⟨c, hc, -, hle⟩ := opening_of_mem_numeral hw
  obtain rfl : l = c := by simpa [hs] using opening_of_prefix hws hc
  exact absurd hl (UInt8.not_lt.mpr hle)

theorem finds_magnitude_of_inf (hinf : startsWithWord s "inf" = true) :
    Finds magnitude s ((unsignedReal? s).map (·.2)) := by
  obtain ⟨a, ha, has⟩ := startsWithWord_iff.mp hinf
  have hs : s.head?.map lowerCase = some 105 :=
    opening_of_prefix has (opening_of_mem_infinity (Or.inr ha))
  have honly : ∀ w, w <+: s → (w ∈ infinity ↔ w ∈ magnitude) := by
    intro w hws
    refine ⟨fun h => Or.inl (Or.inl h), ?_⟩
    rintro ((h | h) | h)
    · exact h
    · simpa [hs] using opening_of_prefix hws (opening_of_mem_nan h)
    · exact absurd hws (not_prefix_of_mem_numeral hs (by decide) w h)
  refine Finds.congr ?_ honly
  by_cases hinfinity : startsWithWord s "infinity" = true
  · simpa [unsignedReal?, hinfinity] using finds_infinity hinfinity
  · simpa [unsignedReal?, hinfinity, hinf] using finds_inf hinf hinfinity

theorem not_prefix_of_mem_infinity (hinf : ¬ startsWithWord s "inf" = true) :
    ∀ w ∈ infinity, ¬ w <+: s := by
  rintro w (h | h) hws
  · exact hinf (startsWithWord_inf (startsWithWord_iff.mpr ⟨w, h, hws⟩))
  · exact hinf (startsWithWord_iff.mpr ⟨w, h, hws⟩)

theorem finds_magnitude_of_nan (hinf : ¬ startsWithWord s "inf" = true)
    (hnan : startsWithWord s "nan" = true) :
    Finds magnitude s ((unsignedReal? s).map (·.2)) := by
  have hread := finds_nan hnan
  have hs : s.head?.map lowerCase = some 110 :=
    opening_of_prefix (List.take_prefix _ s) (opening_of_mem_nan hread.mem)
  have honly : ∀ w, w <+: s → (w ∈ nan ↔ w ∈ magnitude) := by
    intro w hws
    refine ⟨fun h => Or.inl (Or.inr h), ?_⟩
    rintro ((h | h) | h)
    · exact absurd hws (not_prefix_of_mem_infinity hinf w h)
    · exact h
    · exact absurd hws (not_prefix_of_mem_numeral hs (by decide) w h)
  refine Finds.congr ?_ honly
  have hinfinity := mt startsWithWord_inf hinf
  simpa [unsignedReal?, hinfinity, hinf, hnan] using hread

theorem finds_magnitude_of_neither (hinf : ¬ startsWithWord s "inf" = true)
    (hnan : ¬ startsWithWord s "nan" = true) :
    Finds magnitude s ((unsignedReal? s).map (·.2)) := by
  have honly : ∀ w, w <+: s → (w ∈ hexadecimal + decimal ↔ w ∈ magnitude) := by
    intro w hws
    refine ⟨Or.inr, ?_⟩
    rintro ((h | ⟨a, ha, y, -, rfl⟩) | h)
    · exact absurd hws (not_prefix_of_mem_infinity hinf w h)
    · exact absurd (startsWithWord_iff.mpr ⟨a, ha, (List.prefix_append a y).trans hws⟩) hnan
    · exact h
  exact (finds_numeral (mt startsWithWord_inf hinf) hinf hnan).congr honly

/-- The first letter tells which kind of number a text can begin with. -/
theorem finds_magnitude (s : Bytes) : Finds magnitude s ((unsignedReal? s).map (·.2)) := by
  by_cases hinf : startsWithWord s "inf" = true
  · exact finds_magnitude_of_inf hinf
  · by_cases hnan : startsWithWord s "nan" = true
    · exact finds_magnitude_of_nan hinf hnan
    · exact finds_magnitude_of_neither hinf hnan

/-- A sign or the opening of a number ends the blanks. -/
theorem not_isSpace_of_mem_signed {w : Bytes} (h : w ∈ optionalSign * magnitude) :
    ∃ c rest, w = c :: rest ∧ isSpace c = false := by
  obtain ⟨sign, hsign, y, hy, rfl⟩ := h
  obtain ⟨c, rest, rfl, hc, -⟩ := opening_of_mem_magnitude hy
  cases sign with
  | nil => exact ⟨c, rest, rfl, hc⟩
  | cons d sign => exact ⟨d, _, rfl, IsSign.not_isSpace hsign d (by simp)⟩

/-- Blanks and a sign leave no choice where the number begins. -/
theorem finds_real (s : Bytes) :
    Finds real (CString.content s) ((scanReal? s).map (·.2.2)) := by
  unfold scanReal?
  generalize CString.content s = text
  obtain ⟨blanks, signed, rfl, hblanks⟩ := exists_longestRun isSpace text
  obtain ⟨sign, body, rfl, hsign⟩ := exists_signOf signed
  have hmagnitude : Finds (optionalSign * magnitude) (sign ++ body)
      (((unsignedReal? body).map (·.2)).map (sign.length + ·)) := by
    refine Finds.mul_left hsign.isSign ?_ (finds_magnitude body)
    intro x hx y hy hw
    obtain ⟨c, rest, rfl, -, hc⟩ := opening_of_mem_magnitude hy
    exact hsign.eq_of_prefix hx ⟨c, rest, rfl, hc⟩ hw
  have hreal : Finds real (blanks ++ (sign ++ body))
      ((((unsignedReal? body).map (·.2)).map (sign.length + ·)).map (blanks.length + ·)) := by
    refine Finds.mul_left hblanks.all ?_ hmagnitude
    rintro x hx y hy ⟨tail, htail⟩
    obtain ⟨c, rest, rfl, hc⟩ := not_isSpace_of_mem_signed hy
    have hrun : LongestRun isSpace x (c :: rest ++ tail) := ⟨hx, by simp [hc]⟩
    exact (hrun.unique hblanks (by simpa using htail)).1
  simp only [lead_eq hblanks hsign, drop_front]
  cases hread : unsignedReal? body <;> simpa [hread, Nat.add_assoc] using hreal

theorem stop_readDouble (s : Bytes) :
    (readDouble s).stop = ((scanReal? s).map (·.2.2)).getD 0 := by
  unfold readDouble
  rcases scanReal? s with _ | ⟨form, negative, stop⟩
  · rfl
  · cases form <;> rfl

theorem stop_readSingle (s : Bytes) :
    (readSingle s).stop = ((scanReal? s).map (·.2.2)).getD 0 := by
  unfold readSingle
  rcases scanReal? s with _ | ⟨form, negative, stop⟩
  · rfl
  · cases form <;> rfl

end Readers

/-- The readers of floating-point numbers use the longest prefix that is a number, nothing where no
prefix is one. -/
theorem reals_use_longest_prefix (s : Bytes) :
    (LongestPrefix real (CString.content s) (readDouble s).stop ∨
      (∀ w ∈ real, ¬ w <+: CString.content s) ∧ (readDouble s).stop = 0) ∧
    (readSingle s).stop = (readDouble s).stop ∧ (readDouble s).stop ≤ s.length := by
  have hfinds := finds_real s
  have hlength := CString.length_content_le s
  rw [stop_readDouble, stop_readSingle]
  generalize (scanReal? s).map (·.2.2) = n? at hfinds ⊢
  cases n? with
  | none => exact ⟨Or.inr ⟨hfinds, rfl⟩, rfl, Nat.zero_le _⟩
  | some n => exact ⟨Or.inl hfinds, rfl, hfinds.length_le.trans hlength⟩

/-- `0x.` is read up to its zero, and `1e+` up to the exponent that has no digits. -/
example : (readDouble [48, 120, 46]).stop = 1 ∧ (readDouble [49, 101, 43]).stop = 1 := by
  decide +kernel

end Numeral
end GuestLibrary
