import GuestLibrary.Proofs.Numeral.Runs
import Mathlib

/-! Integers in a text, by their grammar: what a text falls apart into, in one way only, and what
the readers report of the parts. The number that the digits denote has no bound here. -/
namespace GuestLibrary
namespace Numeral

/-- `0x` and a hexadecimal digit stand at the front. -/
def HexMarked (s : Bytes) : Prop :=
  ∃ mark d rest, s = mark ++ d :: rest ∧ IsHexMark mark ∧ isDigitOf 16 d = true

/-- The `0x` in front of `rest`, which the bases 0 and 16 skip where a digit follows it. -/
structure MarkOf (base : Nat) (mark rest : Bytes) : Prop where
  isMark : mark = [] ∨ IsHexMark mark
  taken : mark ≠ [] ↔ (base = 0 ∨ base = 16) ∧ HexMarked (mark ++ rest)

/-- A text that may begin with an integer, cut into its parts. -/
structure IntegerParts where
  blanks : Bytes
  sign : Bytes
  mark : Bytes
  digits : Bytes
  rest : Bytes
  deriving DecidableEq

namespace IntegerParts

variable (p : IntegerParts) (base : Nat)

/-- What follows the sign. -/
def body : Bytes := p.mark ++ (p.digits ++ p.rest)

def text : Bytes := p.blanks ++ (p.sign ++ p.body)

/-- The place behind the digits. -/
def stop : Nat := p.blanks.length + p.sign.length + p.mark.length + p.digits.length

/-- Base 0 stands for the base that the text shows. -/
def radix : Nat :=
  if base ≠ 0 then base
  else if p.mark ≠ [] then 16
  else if p.body.head? = some 48 then 8
  else 10

/-- The number that the digits denote, their sign apart. -/
def magnitude : Nat := valueOf (p.radix base) p.digits

/-- The integer that sign and digits denote. -/
def number : Int := if p.sign = [45] then -(p.magnitude base : Int) else p.magnitude base

/-- The parts are those of the string in `s`, each as long as it can be. -/
structure Splits (s : Bytes) : Prop where
  text_eq : p.text = CString.content s
  blanks : LongestRun isSpace p.blanks (p.sign ++ p.body)
  sign : SignOf p.sign p.body
  mark : MarkOf base p.mark (p.digits ++ p.rest)
  digits : LongestRun (isDigitOf (p.radix base)) p.digits p.rest

/-- What a reader of a `long` should report. -/
def signed : Reading Int :=
  if p.digits = [] then ⟨0, 0, .success⟩
  else if -2 ^ 63 ≤ p.number base ∧ p.number base < 2 ^ 63 then
    ⟨p.number base, p.stop, .success⟩
  else ⟨if p.sign = [45] then -2 ^ 63 else 2 ^ 63 - 1, p.stop, .outOfRange⟩

/-- What a reader of an `unsigned long` should report. -/
def unsigned : Reading Nat :=
  if p.digits = [] then ⟨0, 0, .success⟩
  else if p.magnitude base < 2 ^ 64 then
    ⟨if p.sign = [45] then (2 ^ 64 - p.magnitude base) % 2 ^ 64 else p.magnitude base,
      p.stop, .success⟩
  else ⟨2 ^ 64 - 1, p.stop, .outOfRange⟩

end IntegerParts

section Marks

variable {base : Nat} {mark rest mark' rest' : Bytes}

theorem hexMarked_iff (s : Bytes) : HexMarked s ↔ startsHex s = true := by
  constructor
  · rintro ⟨mark, d, rest, rfl, hmark, hd⟩
    rcases hmark with rfl | rfl <;> simpa [startsHex, hasHexMark, isDigitOf] using hd
  · intro h
    obtain ⟨hmarked, hd⟩ := Bool.and_eq_true_iff.mp h
    obtain ⟨mark, rest, rfl, hmark⟩ := hasHexMark_iff.mp hmarked
    rw [← hmark.length, List.drop_left] at hd
    cases rest with
    | nil => simp at hd
    | cons d rest => exact ⟨mark, d, rest, rfl, hmark, hd⟩

theorem exists_markOf (base : Nat) (s : Bytes) :
    ∃ mark rest, mark ++ rest = s ∧ MarkOf base mark rest := by
  by_cases h : (base = 0 ∨ base = 16) ∧ HexMarked s
  · obtain ⟨mark, d, rest, rfl, hmark, -⟩ := h.2
    refine ⟨mark, d :: rest, rfl, Or.inr hmark, iff_of_true ?_ h⟩
    rcases hmark with rfl | rfl <;> simp
  · exact ⟨[], s, rfl, Or.inl rfl, iff_of_false (by simp) h⟩

theorem MarkOf.unique (h : MarkOf base mark rest) (h' : MarkOf base mark' rest')
    (heq : mark ++ rest = mark' ++ rest') : mark = mark' ∧ rest = rest' := by
  apply List.append_inj heq
  have hboth : mark = [] ↔ mark' = [] := by
    rw [← not_iff_not, ← ne_eq, ← ne_eq, h.taken, h'.taken, heq]
  rcases h.isMark with hnone | hmark <;> rcases h'.isMark with hnone' | hmark'
  · rw [hnone, hnone']
  · rw [hnone, hboth.mp hnone]
  · rw [hnone', hboth.mpr hnone']
  · rw [hmark.length, hmark'.length]

end Marks

namespace IntegerParts

variable {p q : IntegerParts} {base : Nat} {s : Bytes}

theorem exists_splits (base : Nat) (s : Bytes) : ∃ p : IntegerParts, p.Splits base s := by
  obtain ⟨blanks, signed, hs, hblanks⟩ := exists_longestRun isSpace (CString.content s)
  obtain ⟨sign, body, rfl, hsign⟩ := exists_signOf signed
  obtain ⟨mark, number, rfl, hmark⟩ := exists_markOf base body
  let radix := radix ⟨blanks, sign, mark, [], number⟩ base
  obtain ⟨digits, rest, rfl, hdigits⟩ := exists_longestRun (isDigitOf radix) number
  exact ⟨⟨blanks, sign, mark, digits, rest⟩, hs, hblanks, hsign, hmark, hdigits⟩

theorem Splits.unique (hp : p.Splits base s) (hq : q.Splits base s) : p = q := by
  obtain ⟨hblanks, hsigned⟩ := hp.blanks.unique hq.blanks (hp.text_eq.trans hq.text_eq.symm)
  obtain ⟨hsign, hbody⟩ := hp.sign.unique hq.sign hsigned
  obtain ⟨hmark, hnumber⟩ := hp.mark.unique hq.mark hbody
  have hradix : p.radix base = q.radix base := by simp only [radix, hmark, hbody]
  have hdigits := hp.digits
  rw [hradix] at hdigits
  obtain ⟨hdigits, hrest⟩ := hdigits.unique hq.digits hnumber
  cases p
  cases q
  simp_all

theorem radix_pos (p : IntegerParts) (base : Nat) : 0 < p.radix base := by
  unfold radix
  split
  · omega
  · split
    · decide
    · split <;> decide

/-- The base that a reader goes by. -/
theorem Splits.radix_eq (h : p.Splits base s) :
    (if base = 0 then impliedBase p.body else base) = p.radix base := by
  by_cases hbase : base = 0
  · have hmark : p.mark ≠ [] ↔ startsHex p.body = true := by
      rw [h.mark.taken, ← hexMarked_iff]
      simp [hbase, body]
    simp only [radix, impliedBase, hbase, hmark]
    simp
  · simp [radix, hbase]

/-- The length of the mark that a reader skips. -/
theorem Splits.mark_length (h : p.Splits base s) :
    (if p.radix base = 16 ∧ startsHex p.body = true then 2 else 0) = p.mark.length := by
  have hmark : p.radix base = 16 ∧ startsHex p.body = true ↔ p.mark ≠ [] := by
    have htaken : p.mark ≠ [] ↔ (base = 0 ∨ base = 16) ∧ startsHex p.body = true := by
      rw [h.mark.taken, hexMarked_iff, body]
    by_cases hbase : base = 0
    · by_cases hnone : p.mark = [] <;> simp_all [radix]
    · simp_all [radix]
  simp only [hmark]
  rcases h.mark.isMark with hnone | hsome
  · simp [hnone]
  · have hlength := hsome.length
    rw [if_pos (List.ne_nil_of_length_pos (by omega)), hlength]

theorem Splits.scan?_eq (h : p.Splits base s) :
    scan? s base = if p.digits = [] then none else
      some ⟨if p.magnitude base < wordLimit then some (p.magnitude base) else none,
        p.sign == [45], p.stop⟩ := by
  have hlead : lead p.text = (p.blanks.length + p.sign.length, p.sign == [45]) :=
    lead_eq h.blanks h.sign
  have hbody : p.text.drop (p.blanks.length + p.sign.length) = p.body :=
    drop_front p.blanks p.sign p.body
  have hrun : digitRun (p.radix base) (p.body.drop p.mark.length)
      = values (p.radix base) p.digits := by
    rw [body, List.drop_left, digitRun_eq h.digits]
  have hlength := length_values h.digits.all
  have hempty := isEmpty_values h.digits.all
  have hword : denoteWord? (p.radix base) (values (p.radix base) p.digits)
      = if p.magnitude base < wordLimit then some (p.magnitude base) else none := by
    rw [denoteWord?_eq (p.radix_pos base), denote_eq]
    rfl
  simp only [scan?, ← h.text_eq, hlead, hbody, h.radix_eq, h.mark_length, hrun, hempty, hlength,
    hword, stop]

/-- A magnitude is tested against its limit after it has passed as a word. -/
theorem filter_word {m limit : Nat} (h : limit < wordLimit) :
    (if m < wordLimit then some m else none).filter (· ≤ limit)
      = if m ≤ limit then some m else none := by
  by_cases hword : m < wordLimit
  · simp [hword, Option.filter]
  · rw [if_neg hword, if_neg (by omega)]
    rfl

/-- Of the magnitudes, a `long` has room for one more below zero. -/
theorem number_fits_iff (p : IntegerParts) (base : Nat) :
    (-2 ^ 63 ≤ p.number base ∧ p.number base < 2 ^ 63) ↔
      p.magnitude base ≤ if p.sign = [45] then 2 ^ 63 else 2 ^ 63 - 1 := by
  unfold number
  split <;> omega

theorem Splits.readSigned_eq (h : p.Splits base s) (hbase : validBase base = true) :
    readSigned s base = p.signed base := by
  have hlong : SignedRange.long.limit = 2 ^ 63 := rfl
  unfold readSigned signed
  rw [h.scan?_eq, hbase]
  by_cases hempty : p.digits = []
  · simp [hempty]
  · have hlimit : (if p.sign = [45] then 2 ^ 63 else 2 ^ 63 - 1) < wordLimit := by
      split <;> decide
    simp only [hempty, Bool.not_true, Bool.false_eq_true, if_false, beq_iff_eq, hlong,
      filter_word hlimit]
    by_cases hfits : p.magnitude base ≤ if p.sign = [45] then 2 ^ 63 else 2 ^ 63 - 1
    · rw [if_pos hfits, if_pos ((p.number_fits_iff base).mpr hfits)]
      simp [number]
    · rw [if_neg hfits, if_neg (mt (p.number_fits_iff base).mp hfits)]
      simp [SignedRange.least, SignedRange.greatest, hlong]

theorem Splits.readUnsigned_eq (h : p.Splits base s) (hbase : validBase base = true) :
    readUnsigned s base = p.unsigned base := by
  have hword : wordLimit = 2 ^ 64 := rfl
  unfold readUnsigned unsigned
  rw [h.scan?_eq, hbase, ← hword]
  by_cases hempty : p.digits = []
  · simp [hempty]
  · by_cases hfits : p.magnitude base < wordLimit
    · simp [hempty, hfits]
    · simp [hempty, hfits]

end IntegerParts

/-- What the readers of integers report follows from the one way to cut the text. -/
theorem integers_follow_grammar (s : Bytes) (base : Nat) :
    (base = 1 ∨ 36 < base →
      readSigned s base = ⟨0, 0, .invalidBase⟩ ∧ readUnsigned s base = ⟨0, 0, .invalidBase⟩) ∧
    (base ≠ 1 → base ≤ 36 →
      (∃! p : IntegerParts, p.Splits base s) ∧
      ∀ p : IntegerParts, p.Splits base s →
        readSigned s base = p.signed base ∧ readUnsigned s base = p.unsigned base) := by
  constructor
  · intro hbase
    have hinvalid : validBase base = false := by
      rcases hbase with rfl | hlarge
      · rfl
      · simp [validBase, hlarge]
    simp [readSigned, readUnsigned, hinvalid]
  · intro hone hlarge
    have hvalid : validBase base = true := by simp [validBase, hone, hlarge]
    obtain ⟨p, hp⟩ := IntegerParts.exists_splits base s
    exact ⟨⟨p, hp, fun q hq => hq.unique hp⟩,
      fun q hq => ⟨hq.readSigned_eq hvalid, hq.readUnsigned_eq hvalid⟩⟩

/-- A tab, `-0x1f` and a letter more, of which base 0 leaves the letter; base 37 is none. -/
theorem integers_follow_grammar_minus_hexadecimal :
    (readSigned [49] 37 = ⟨0, 0, .invalidBase⟩ ∧ readUnsigned [49] 37 = ⟨0, 0, .invalidBase⟩) ∧
    IntegerParts.Splits ⟨[9], [45], [48, 120], [49, 102], [122]⟩ 0 [9, 45, 48, 120, 49, 102, 122] ∧
    readSigned [9, 45, 48, 120, 49, 102, 122] 0 = ⟨-31, 6, .success⟩ ∧
    readUnsigned [9, 45, 48, 120, 49, 102, 122] 0 = ⟨2 ^ 64 - 31, 6, .success⟩ := by
  have hsplits : IntegerParts.Splits ⟨[9], [45], [48, 120], [49, 102], [122]⟩ 0
      [9, 45, 48, 120, 49, 102, 122] :=
    { text_eq := rfl
      blanks := ⟨by simp [isSpace], by simp [isSpace]⟩
      sign := ⟨Or.inr (Or.inr rfl), by simp⟩
      mark := ⟨Or.inr (Or.inl rfl), iff_of_true (by simp)
        ⟨Or.inl rfl, [48, 120], 49, [102, 122], rfl, Or.inl rfl, rfl⟩⟩
      digits := ⟨by simp [isDigitOf, IntegerParts.radix, digit?, digitValue?],
        by simp [isDigitOf, IntegerParts.radix, digit?, digitValue?]⟩ }
  have hread := (integers_follow_grammar [9, 45, 48, 120, 49, 102, 122] 0).2 (by decide) (by decide)
  refine ⟨(integers_follow_grammar [49] 37).1 (by decide), hsplits, ?_⟩
  obtain ⟨hsigned, hunsigned⟩ := hread.2 _ hsplits
  exact ⟨hsigned.trans (by decide), hunsigned.trans (by decide)⟩

end Numeral
end GuestLibrary
