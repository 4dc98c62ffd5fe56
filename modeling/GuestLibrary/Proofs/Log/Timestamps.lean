import GuestLibrary.Log.Timestamp
import GuestLibrary.Proofs.Calendar.Order
import GuestLibrary.Proofs.Calendar.Text

/-! Timestamps in columns. Each field of an instant has a column of its own width, filled up with
zeros, and the columns stand in the order of their weight; so for years of four digits the order of
timestamps byte by byte is the order of time. -/
namespace GuestLibrary

namespace Bytes

/-- The last `width` decimal digits of a number. -/
def lastDigits : Nat → Nat → Bytes
  | 0, _ => []
  | width + 1, n => lastDigits width (n / 10) ++ [UInt8.ofNat (48 + n % 10)]

/-- Numbers in columns of digits, each column with its width and the mark behind it. -/
def columns : List (Nat × UInt8) → List Nat → Bytes
  | (width, mark) :: layout, n :: numbers => lastDigits width n ++ mark :: columns layout numbers
  | _, _ => []

/-- Every number has room in its column. -/
def FitColumns : List (Nat × UInt8) → List Nat → Prop :=
  List.Forall₂ fun column n => n < 10 ^ column.1

@[simp] theorem length_lastDigits (width n : Nat) : (lastDigits width n).length = width := by
  induction width generalizing n with
  | zero => rfl
  | succ width ih => simp [lastDigits, ih]

theorem ascii_lastDigits (width n : Nat) : ∀ b ∈ lastDigits width n, b < 0x80 := by
  induction width generalizing n with
  | zero => simp [lastDigits]
  | succ width ih =>
    have hdigit : UInt8.ofNat (48 + n % 10) < 0x80 := by
      have hlimit : (0x80 : UInt8).toNat = 128 := rfl
      rw [UInt8.lt_iff_toNat_lt, UInt8.toNat_ofNat']
      omega
    rw [lastDigits, List.forall_mem_append, List.forall_mem_singleton]
    exact ⟨ih (n / 10), hdigit⟩

theorem order_self (a : Bytes) : order a a = .eq := by
  induction a with
  | nil => rfl
  | cons x a ih => simp [order, ih]

/-- Blocks whose fronts are of one length compare by their fronts first. -/
theorem order_append {a a' : Bytes} (h : a.length = a'.length) (b b' : Bytes) :
    order (a ++ b) (a' ++ b') = (order a a').then (order b b') := by
  induction a generalizing a' with
  | nil =>
    obtain rfl : a' = [] := List.eq_nil_of_length_eq_zero h.symm
    rfl
  | cons x a ih =>
    cases a' with
    | nil => simp at h
    | cons x' a' =>
      have hlength : a.length = a'.length := by simpa using h
      by_cases hlt : x < x'
      · simp [order, hlt]
      · by_cases hgt : x' < x
        · simp [order, hlt, hgt]
        · simp [order, hlt, hgt, ih hlength]

theorem order_digit {i j : Nat} (hi : i < 10) (hj : j < 10) :
    order [UInt8.ofNat (48 + i)] [UInt8.ofNat (48 + j)] = compare i j := by
  interval_cases i <;> interval_cases j <;> rfl

theorem order_lastDigits {width m n : Nat} (hm : m < 10 ^ width) (hn : n < 10 ^ width) :
    order (lastDigits width m) (lastDigits width n) = compare m n := by
  induction width generalizing m n with
  | zero =>
    obtain rfl : m = n := by omega
    rw [order_self, compare_eq_iff_eq.mpr rfl]
  | succ width ih =>
    rw [pow_succ] at hm hn
    rw [lastDigits, lastDigits, order_append (by simp), ih (by omega) (by omega),
      order_digit (Nat.mod_lt m (by decide)) (Nat.mod_lt n (by decide))]
    symm
    refine Calendar.compare_eq_then (fun _ => by omega) (fun _ => by omega) fun hfront => ?_
    rw [← Ordering.then_eq (o := compare (m % 10) (n % 10))]
    refine Calendar.compare_eq_then (fun _ => by omega) (fun _ => by omega) fun hlast => ?_
    exact compare_eq_iff_eq.mpr (by omega)

/-- Rows of columns compare as the lists of their numbers do. -/
theorem order_columns {layout : List (Nat × UInt8)} {numbers numbers' : List Nat}
    (h : FitColumns layout numbers) (h' : FitColumns layout numbers') :
    order (columns layout numbers) (columns layout numbers') = compare numbers numbers' := by
  induction h generalizing numbers' with
  | nil =>
    cases h'
    rfl
  | cons hn _ ih =>
    cases h' with
    | cons hn' hrest' =>
      rw [columns, columns, order_append (by simp), order_lastDigits hn hn', List.compare_cons_cons,
        ← ih hrest']
      simp [order]

end Bytes

namespace Utf8

/-- Bytes below 128 are characters of their own. -/
theorem decodeFrom_ascii {s : Bytes} (h : ∀ b ∈ s, b < 0x80) (replaced : List Char) :
    decodeFrom replaced .between s = s.map fun b => Char.ofNat b.toNat := by
  induction s with
  | nil => rfl
  | cons b s ih =>
    have hb : b < 0x80 := h b (by simp)
    have hs : ∀ b ∈ s, b < 0x80 := fun b hb => h b (by simp [hb])
    simp [decodeFrom, step, enter, hb, ih hs]

theorem utf8EncodeChar_ofNat {b : UInt8} (h : b < 0x80) :
    String.utf8EncodeChar (Char.ofNat b.toNat) = [b] := by
  have hb : b.toNat < 128 := by simpa [UInt8.lt_iff_toNat_lt] using h
  have hcode : (Char.ofNat b.toNat).val.toNat = b.toNat := by
    have hvalid : b.toNat.isValidChar := Or.inl (by omega)
    have hread := Char.toNat_ofNat b.toNat
    rwa [if_pos hvalid] at hread
  rw [String.utf8EncodeChar_eq_singleton]
  · congr 1
    apply UInt8.toNat_inj.mp
    rw [UInt32.toNat_toUInt8, hcode]
    omega
  · rw [Char.utf8Size_eq_one_iff, UInt32.le_iff_toNat_le, hcode]
    exact Nat.le_of_lt_succ hb

theorem ofText_decodeLossy {s : Bytes} (h : ∀ b ∈ s, b < 0x80) :
    Bytes.ofText (decodeLossy s) = s := by
  have hencode : (s.map fun b => Char.ofNat b.toNat).utf8Encode.data.toList = s := by
    simp only [List.utf8Encode, List.data_toByteArray, List.flatMap_map]
    induction s with
    | nil => rfl
    | cons b s ih =>
      have hb : b < 0x80 := h b (by simp)
      have hs : ∀ b ∈ s, b < 0x80 := fun b hb => h b (by simp [hb])
      rw [List.flatMap_cons, utf8EncodeChar_ofNat hb, ih hs]
      rfl
  rw [decodeLossy, decodeWith, decodeFrom_ascii h, Bytes.ofText_eq, String.toByteArray_ofList,
    hencode]

end Utf8

namespace Calendar

theorem number_succ (n width : Nat) :
    number n (width + 2) '0' = number (n / 10 : Nat) (width + 1) '0' ++ toString (n % 10) := by
  rw [number_of_nonneg (Int.natCast_nonneg n), number_of_nonneg (Int.natCast_nonneg _),
    toString_of_nonneg (Int.natCast_nonneg n), toString_of_nonneg (Int.natCast_nonneg _),
    Int.natAbs_natCast, Int.natAbs_natCast]
  simp only [Nat.toString_eq_repr]
  by_cases hn : n < 10
  · rw [Nat.div_eq_of_lt hn, Nat.mod_eq_of_lt hn, Nat.repr_of_lt hn, Nat.repr_of_lt (by decide)]
    simp only [String.length_singleton, Nat.add_sub_cancel, Nat.add_succ_sub_one]
    rw [List.replicate_succ', String.ofList_append]
    rfl
  · rw [Nat.repr_eq_repr_append_repr (by omega), Nat.repr_of_lt (by omega : n % 10 < 10),
      String.length_append, String.length_singleton, String.append_assoc,
      show width + 2 - ((n / 10).repr.length + 1) = width + 1 - (n / 10).repr.length by omega]

theorem ofText_digit {d : Nat} (h : d < 10) :
    Bytes.ofText (toString d) = [UInt8.ofNat (48 + d)] := by
  rw [Bytes.ofText_eq]
  interval_cases d <;> rfl

theorem ofText_number {value : Int} {width : Nat} (h0 : 0 ≤ value)
    (h : value.toNat < 10 ^ (width + 1)) :
    Bytes.ofText (number value (width + 1) '0') = Bytes.lastDigits (width + 1) value.toNat := by
  obtain ⟨n, rfl⟩ := Int.eq_ofNat_of_zero_le h0
  rw [Int.toNat_natCast] at h ⊢
  clear h0
  induction width generalizing n with
  | zero =>
    have hn : n < 10 := by simpa using h
    rw [number_one, toString_of_nonneg (Int.natCast_nonneg n), Int.natAbs_natCast, ofText_digit hn]
    simp [Bytes.lastDigits, Nat.mod_eq_of_lt hn]
  | succ width ih =>
    have hfront : n / 10 < 10 ^ (width + 1) := Nat.div_lt_of_lt_mul (by rwa [← pow_succ'])
    rw [number_succ, Bytes.ofText_append, ih (n / 10) hfront,
      ofText_digit (Nat.mod_lt n (by decide))]
    rfl

/-- A number that fills its columns is written without padding. -/
theorem number_of_pow_le {value : Int} {width : Nat} (h0 : 0 ≤ value) (hwidth : 0 < width)
    (h : 10 ^ width ≤ value.toNat) : number value (width + 1) '0' = toString value := by
  obtain ⟨n, rfl⟩ := Int.eq_ofNat_of_zero_le h0
  rw [Int.toNat_natCast] at h
  have hlength : width < (toString (n : Int)).length := by
    rw [toString_of_nonneg h0, Nat.toString_eq_ofList_toDigits, String.length_ofList, ← not_le,
      Nat.length_toDigits_le_iff (by decide) hwidth]
    exact Nat.not_lt.mpr h
  rw [number_of_nonneg h0, Nat.sub_eq_zero_of_le hlength]
  simp

theorem render_stamp (c : Calendar) (zone : Int) :
    c.render (Bytes.ofText "%Y-%m-%dT%H:%M:%S") zone =
      Bytes.ofText (number c.fullYear 1 '0') ++ 45 :: (Bytes.ofText (number (c.month + 1) 2 '0') ++
        45 :: (Bytes.ofText (number c.day 2 '0') ++ 84 :: (Bytes.ofText (number c.hour 2 '0') ++
          58 :: (Bytes.ofText (number c.minute 2 '0') ++
            58 :: Bytes.ofText (number c.second 2 '0'))))) := by
  have hformat : Bytes.ofText "%Y-%m-%dT%H:%M:%S" =
      [37, 89, 45, 37, 109, 45, 37, 100, 84, 37, 72, 58, 37, 77, 58, 37, 83] := Bytes.ofText_eq _
  rw [hformat]
  simp [render, CString.content, expandFrom, directiveText, abbreviation?]
  rfl

end Calendar

namespace Log

open Calendar (InYear)

/-- The columns of a timestamp: year, month, day, hour, minute, second and milliseconds. -/
def layout : List (Nat × UInt8) :=
  [(4, 45), (2, 45), (2, 84), (2, 58), (2, 58), (2, 46), (3, 90)]

/-- What the columns hold. -/
def stamp (c : Calendar) (milliseconds : Nat) : List Nat :=
  c.fields.map Int.toNat ++ [milliseconds % 1000]

/-- The instant is in one of the years that have four digits. -/
def InFourDigitYear (t : Int) : Prop := ∃ year, InYear (t / 86400) year ∧ 1000 ≤ year ∧ year ≤ 9999

/-- The record shows an instant of a year of four digits. -/
structure Stamped (c : Calendar) (t : Int) : Prop where
  record : Calendar.ofInstant? t 0 = some c
  shows : c.Shows t
  year : 1000 ≤ c.fullYear ∧ c.fullYear ≤ 9999

section Stamps

variable {c c' : Calendar} {t t' : Int}

theorem InFourDigitYear.stamped (h : InFourDigitYear t) : ∃ c, Stamped c t := by
  obtain ⟨year, hyear, hlo, hhi⟩ := h
  obtain ⟨year', yearDay, month, day, hdate, hof⟩ := @Calendar.ofInstant?_eq t 0 t (by omega)
  obtain ⟨hfirst, hlast⟩ := hdate.within_year
  have hsame : year' = year := by
    refine (Calendar.inYear_iff hyear year').mp ?_
    rw [InYear, Calendar.daysToYear_eq, Calendar.daysToYear_eq]
    exact ⟨hfirst, hlast⟩
  subst hsame
  have hlong : SignedRange.long.contains t = true := by
    have hleast : SignedRange.long.least = -9223372036854775808 := rfl
    have hgreatest : SignedRange.long.greatest = 9223372036854775807 := rfl
    unfold Calendar.daysBeforeYear Calendar.secondsPerDay at hfirst hlast
    rw [SignedRange.contains_iff]
    omega
  have hint : SignedRange.int.contains (year' - 1900) = true := by
    have hleast : SignedRange.int.least = -2147483648 := rfl
    have hgreatest : SignedRange.int.greatest = 2147483647 := rfl
    rw [SignedRange.contains_iff]
    omega
  rw [if_pos ⟨hlong, hint⟩] at hof
  refine ⟨_, hof, Calendar.ofDate_shows hdate 0, ?_⟩
  simp only [Calendar.ofDate, Calendar.fullYear]
  omega

theorem Stamped.fit (h : Stamped c t) (milliseconds : Nat) :
    Bytes.FitColumns layout (stamp c milliseconds) := by
  have hyear := h.year
  obtain ⟨hsecond, hminute, hhour, hmonth, hday, -, -, -⟩ := h.shows
  have hlength := (Calendar.daysInMonth_bounds c.fullYear c.month.toNat).2
  simp only [Bytes.FitColumns, layout, stamp, Calendar.fields, List.map_cons, List.map_nil,
    List.cons_append, List.nil_append, List.forall₂_cons, List.forall₂_nil_left_iff, and_true]
  omega

theorem Stamped.ofText_timestamp (h : Stamped c t) (milliseconds : Nat) :
    Bytes.ofText (timestamp t milliseconds) = Bytes.columns layout (stamp c milliseconds) := by
  have hyear := h.year
  obtain ⟨hsecond, hminute, hhour, hmonth, hday, -, -, -⟩ := h.shows
  have hlength := (Calendar.daysInMonth_bounds c.fullYear c.month.toNat).2
  have hfour : Calendar.number c.fullYear 1 '0' = Calendar.number c.fullYear 4 '0' := by
    rw [Calendar.number_one, Calendar.number_of_pow_le (by omega) (by decide) (by omega)]
  have hrender := c.render_stamp 0
  rw [hfour] at hrender
  simp (disch := omega) only [Calendar.ofText_number] at hrender
  have hascii : ∀ b ∈ c.render (Bytes.ofText "%Y-%m-%dT%H:%M:%S") 0, b < 0x80 := by
    rw [hrender]
    simp only [List.forall_mem_append, List.forall_mem_cons]
    have hdigits := Bytes.ascii_lastDigits
    exact ⟨hdigits _ _, by decide, hdigits _ _, by decide, hdigits _ _, by decide, hdigits _ _,
      by decide, hdigits _ _, by decide, hdigits _ _⟩
  have hpoint : Bytes.ofText "." = [46] := Bytes.ofText_eq _
  have hzone : Bytes.ofText "Z" = [90] := Bytes.ofText_eq _
  rw [timestamp, h.record]
  dsimp only
  rw [Bytes.ofText_append, Bytes.ofText_append, Bytes.ofText_append, Utf8.ofText_decodeLossy hascii,
    hrender, Calendar.ofText_number (by omega) (by omega), Int.toNat_natCast, hpoint, hzone]
  simp [layout, stamp, Calendar.fields, Bytes.columns]

/-- Numbers compare as the integers that they are. -/
theorem compare_toNat {a b : Int} (ha : 0 ≤ a) (hb : 0 ≤ b) :
    compare a.toNat b.toNat = compare a b := by
  rw [← Ordering.then_eq (o := compare a b)]
  refine Calendar.compare_eq_then (fun _ => by omega) (fun _ => by omega) fun hsame => ?_
  exact compare_eq_iff_eq.mpr (congrArg Int.toNat hsame)

theorem Stamped.compare_stamp (h : Stamped c t) (h' : Stamped c' t') (ms ms' : Nat) :
    compare (stamp c ms) (stamp c' ms') =
      (compare t t').then (compare (ms % 1000) (ms' % 1000)) := by
  have hyear := h.year
  have hyear' := h'.year
  obtain ⟨hsecond, hminute, hhour, hmonth, hday, -, -, -⟩ := h.shows
  obtain ⟨hsecond', hminute', hhour', hmonth', hday', -, -, -⟩ := h'.shows
  rw [h.shows.compare_eq h'.shows]
  simp only [stamp, Calendar.fields, List.map_cons, List.map_nil, List.cons_append,
    List.nil_append, List.compare_cons_cons, List.compare_nil_nil, Ordering.then_eq,
    Ordering.then_assoc]
  simp (disch := omega) only [compare_toNat]

theorem Stamped.isTimestamp (h : Stamped c t) (milliseconds : Nat) :
    (Bytes.ofText (timestamp t milliseconds)).length = 24 ∧
      isTimestamp (timestamp t milliseconds) = true := by
  unfold Log.isTimestamp
  dsimp only
  rw [h.ofText_timestamp]
  simp [layout, stamp, Calendar.fields, Bytes.columns, Bytes.lastDigits]

theorem Stamped.order_timestamp (h : Stamped c t) (h' : Stamped c' t') (ms ms' : Nat) :
    Bytes.order (Bytes.ofText (timestamp t ms)) (Bytes.ofText (timestamp t' ms')) =
      (compare t t').then (compare (ms % 1000) (ms' % 1000)) := by
  rw [h.ofText_timestamp, h'.ofText_timestamp, Bytes.order_columns (h.fit ms) (h'.fit ms'),
    h.compare_stamp h']

end Stamps

/-- Timestamps of years of four digits: each is 24 bytes long and accepted as a timestamp, and two
of them are in the order of their seconds and, within a second, of their milliseconds. -/
theorem timestamps_in_order :
    (∀ (t : Int) (ms : Nat), InFourDigitYear t →
      (Bytes.ofText (timestamp t ms)).length = 24 ∧ isTimestamp (timestamp t ms) = true) ∧
    ∀ (t t' : Int) (ms ms' : Nat), InFourDigitYear t → InFourDigitYear t' →
      ((t < t' ∨ t = t' ∧ ms % 1000 < ms' % 1000) ↔
        Bytes.order (Bytes.ofText (timestamp t ms)) (Bytes.ofText (timestamp t' ms')) = .lt) := by
  constructor
  · intro t ms h
    obtain ⟨c, hc⟩ := h.stamped
    exact hc.isTimestamp ms
  · intro t t' ms ms' h h'
    obtain ⟨c, hc⟩ := h.stamped
    obtain ⟨c', hc'⟩ := h'.stamped
    rw [hc.order_timestamp hc', Ordering.then_eq_lt, compare_lt_iff_lt, compare_eq_iff_eq,
      compare_lt_iff_lt]

/-- The first and the last second of the years of four digits, and that last second at its beginning
and one millisecond before its end; full seconds of milliseconds do not count. -/
theorem timestamps_in_order_ends :
    InFourDigitYear (-30610224000) ∧ InFourDigitYear 253402300799 ∧
    isTimestamp (timestamp (-30610224000) 0) = true ∧
    Bytes.order (Bytes.ofText (timestamp (-30610224000) 999))
      (Bytes.ofText (timestamp 253402300799 0)) = .lt ∧
    Bytes.order (Bytes.ofText (timestamp 253402300799 1000))
      (Bytes.ofText (timestamp 253402300799 999)) = .lt := by
  have hfirst : InFourDigitYear (-30610224000) := by
    refine ⟨1000, ?_, by decide, by decide⟩
    rw [InYear, Calendar.daysToYear_eq, Calendar.daysToYear_eq]
    decide
  have hlast : InFourDigitYear 253402300799 := by
    refine ⟨9999, ?_, by decide, by decide⟩
    rw [InYear, Calendar.daysToYear_eq, Calendar.daysToYear_eq]
    decide
  obtain ⟨hstamp, horder⟩ := timestamps_in_order
  refine ⟨hfirst, hlast, (hstamp _ 0 hfirst).2, ?_, ?_⟩
  · exact (horder _ _ 999 0 hfirst hlast).mp (Or.inl (by decide))
  · exact (horder _ _ 1000 999 hlast hlast).mp (Or.inr (by decide))

end Log
end GuestLibrary
