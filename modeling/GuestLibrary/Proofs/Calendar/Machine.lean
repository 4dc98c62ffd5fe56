import GuestLibrary.Calendar.Machine
import GuestLibrary.Proofs.Calendar.RoundTrip
import GuestLibrary.Proofs.Calendar.Proleptic

/-! Instants and records are converted on machine words without a trap. A walk over years or months
takes away no more than it was given, and every other number is bounded by the range of what it is
computed from. -/
namespace GuestLibrary
namespace Calendar

/-- Every field can be held by an `int`. -/
structure Representable (c : Calendar) : Prop where
  second : SignedRange.int.contains c.second = true
  minute : SignedRange.int.contains c.minute = true
  hour : SignedRange.int.contains c.hour = true
  day : SignedRange.int.contains c.day = true
  month : SignedRange.int.contains c.month = true
  year : SignedRange.int.contains c.year = true
  weekday : SignedRange.int.contains c.weekday = true
  yearDay : SignedRange.int.contains c.yearDay = true
  daylight : SignedRange.int.contains c.daylight = true

namespace Machine

open SignedRange (long int)

section Words

variable {x : Int}

theorem contains_int_iff : int.contains x = true ↔ -2147483648 ≤ x ∧ x ≤ 2147483647 := by
  simp [SignedRange.contains_iff, SignedRange.least, SignedRange.greatest, int]

theorem contains_long_iff :
    long.contains x = true ↔ -9223372036854775808 ≤ x ∧ x ≤ 9223372036854775807 := by
  simp [SignedRange.contains_iff, SignedRange.least, SignedRange.greatest, long]

theorem long_word (hlo : -9223372036854775808 ≤ x) (hhi : x ≤ 9223372036854775807) :
    long.word x = .ok x :=
  SignedRange.word_eq (contains_long_iff.mpr ⟨hlo, hhi⟩)

theorem int_word (hlo : -2147483648 ≤ x) (hhi : x ≤ 2147483647) : int.word x = .ok x :=
  SignedRange.word_eq (contains_int_iff.mpr ⟨hlo, hhi⟩)

end Words

theorem isLeapYear_eq (year : Int) : isLeapYear year = .ok (Calendar.isLeapYear year) := by
  have hmod (n : Int) (hn : n ≠ 0) : (year.tmod n == 0) = (year % n == 0) := by
    rw [Bool.eq_iff_iff, beq_iff_eq, beq_iff_eq, ← Int.dvd_iff_tmod_eq_zero, Int.dvd_iff_emod_eq_zero]
  unfold isLeapYear
  simp only [SignedRange.truncatedRest_of_pos, Trap.ok_bind, Trap.pure_eq_ok, Nat.ofNat_pos]
  simp [bne, hmod, Calendar.isLeapYear]

theorem daysInYear_eq (year : Int) : daysInYear year = .ok (Calendar.daysInYear year) := by
  simp [daysInYear, isLeapYear_eq, Calendar.daysInYear]

theorem daysInMonth_eq (year : Int) (month : Nat) :
    daysInMonth year month = .ok (Calendar.daysInMonth year month) := by
  have hentry : Trap.entry monthLengths (month % 12) = .ok (monthLengths.getD (month % 12) 0) :=
    Trap.entry_eq (Nat.mod_lt _ (by decide)) 0
  unfold daysInMonth Calendar.daysInMonth
  simp only [isLeapYear_eq, Trap.ok_bind]
  split
  · rfl
  · exact hentry

/-- The walk over the years ends inside the span of its steps, and no year or day on the way is
beyond its range. -/
theorem walkYears_eq {steps : Nat} {year days : Int} (h0 : 0 ≤ days)
    (hlt : daysBeforeYear year + days < daysBeforeYear (year + steps))
    (hfirst : -4611686018427387904 ≤ year) (hlast : year + steps ≤ 4611686018427387904)
    (hdays : days ≤ 4611686018427387904) :
    walkYears steps year days = .ok (Calendar.walkYears steps year days) := by
  induction steps generalizing year days with
  | zero =>
    rw [Nat.cast_zero, add_zero] at hlt
    omega
  | succ steps ih =>
    have hnext := daysBeforeYear_succ year
    have hpos := daysInYear_pos year
    have hend : year + 1 + (steps : Int) = year + (steps + 1 : Nat) := by
      push_cast
      ring
    unfold walkYears Calendar.walkYears
    simp only [daysInYear_eq, Trap.ok_bind]
    split
    · rfl
    · simp (disch := omega) only [SignedRange.sum, SignedRange.difference, long_word, Trap.ok_bind]
      exact ih (by omega) (by rw [hend]; omega) (by omega) (by omega) (by omega)

theorem walkMonths_eq {year : Int} {steps month : Nat} {days : Int} (hm : month + steps ≤ 11)
    (h0 : 0 ≤ days) (hdays : days ≤ 366) :
    walkMonths year steps month days = .ok (Calendar.walkMonths year steps month days) := by
  induction steps generalizing month days with
  | zero => rfl
  | succ steps ih =>
    have hlength := daysInMonth_bounds year month
    have hsize : Trap.size (month + 1) = .ok (month + 1) :=
      Trap.size_eq (Nat.lt_of_le_of_lt (by omega : month + 1 ≤ 12) (by decide))
    unfold walkMonths Calendar.walkMonths
    simp only [daysInMonth_eq, Trap.ok_bind]
    split
    · rfl
    · simp (disch := omega) only [SignedRange.difference, int_word, hsize, Trap.ok_bind]
      exact ih (by omega) (by omega) (by omega)

/-- Where the days of all instants lie, and the years and days of their dates. -/
theorem bounds_of_isDate {u year : Int} {month : Nat} {yearDay day : Int}
    (hu : -9223372036854775808 ≤ u ∧ u ≤ 9223372036854775807)
    (hd : IsDate (u / secondsPerDay) year month yearDay day) :
    -4611686018427387904 ≤ year ∧ year ≤ 4611686018427387904 ∧ 0 ≤ yearDay ∧ yearDay ≤ 365 ∧
      month ≤ 11 ∧ 0 ≤ day ∧ day ≤ 30 := by
  obtain ⟨hfirst, hlast⟩ := hd.within_year
  have hnext := daysBeforeYear_succ year
  have hlength := daysInYear_cases year
  have hmonth := daysInMonth_bounds year month
  have hdays := hd.days_eq
  have hle := hd.month_le
  have h0 := hd.day_nonneg
  have hlt := hd.day_lt
  have hyear : -4611686018427387904 ≤ year ∧ year ≤ 4611686018427387904 := by
    unfold daysBeforeYear secondsPerDay at hfirst
    unfold daysBeforeYear secondsPerDay at hlast
    omega
  omega

/-- The walk over the years from the cycle of a day. -/
theorem walkYears_of_cycle {days : Int}
    (hdays : -106751991167301 ≤ days ∧ days ≤ 106751991167300) :
    walkYears 400 (1970 + days / daysPerCycle * 400) (days - days / daysPerCycle * daysPerCycle) =
      .ok (Calendar.walkYears 400 (1970 + days / daysPerCycle * 400)
        (days - days / daysPerCycle * daysPerCycle)) := by
  have hstart := daysBeforeYear_cycle (days / daysPerCycle)
  have hend := daysBeforeYear_add_cycle (1970 + days / daysPerCycle * 400)
  unfold daysPerCycle at *
  exact walkYears_eq (by omega) (by push_cast; omega) (by omega) (by omega) (by omega)

theorem ofInstant?_eq (t : Int) {minutesWest : Int} (hwest : int.contains minutesWest = true) :
    ofInstant? t minutesWest = .ok (Calendar.ofInstant? t minutesWest) := by
  rw [contains_int_iff] at hwest
  have hproduct : long.product minutesWest secondsPerMinute =
      .ok (minutesWest * secondsPerMinute) := by
    unfold secondsPerMinute
    exact long_word (by omega) (by omega)
  unfold ofInstant? Calendar.ofInstant?
  simp only [hproduct, Trap.ok_bind]
  cases hlong : long.contains (t - minutesWest * secondsPerMinute) with
  | false => rfl
  | true =>
    rw [contains_long_iff] at hlong
    generalize t - minutesWest * secondsPerMinute = u at hlong
    obtain ⟨year, yearDay, month, day, hyear, hmonth, hdate⟩ := exists_isDate (u / secondsPerDay)
    obtain ⟨hfirst, hlast, hyearDay0, hyearDay, hle, hday0, hday⟩ := bounds_of_isDate hlong hdate
    have hdays : -106751991167301 ≤ u / secondsPerDay ∧ u / secondsPerDay ≤ 106751991167300 := by
      unfold secondsPerDay
      omega
    have hrest : 0 ≤ u % secondsPerDay ∧ u % secondsPerDay < 86400 := by
      unfold secondsPerDay
      omega
    have hwalk := walkYears_of_cycle hdays
    have hmonths : walkMonths year 11 0 yearDay = .ok (month, day) := by
      rw [walkMonths_eq (Nat.le_refl 11) hyearDay0 (by omega), hmonth]
    rw [hyear] at hwalk ⊢
    dsimp only
    rw [hmonth]
    simp only [secondsPerDay, secondsPerHour, secondsPerMinute, daysPerCycle] at *
    simp (disch := omega) only [SignedRange.sum, SignedRange.difference, SignedRange.product,
      SignedRange.quotient_of_pos, SignedRange.remainder_of_pos, SignedRange.truncated_of_nonneg,
      SignedRange.truncatedRest_of_nonneg, long_word, int_word, hwalk, hmonths, Trap.ok_bind]
    cases int.contains (year - 1900) <;> rfl

theorem ofDate_representable {u year : Int} {month : Nat} {yearDay day : Int}
    (hu : -9223372036854775808 ≤ u ∧ u ≤ 9223372036854775807)
    (hd : IsDate (u / secondsPerDay) year month yearDay day)
    (hyear : int.contains (year - 1900) = true) (minutesWest : Int) :
    (ofDate (u / secondsPerDay) year month yearDay day (u % secondsPerDay)
      minutesWest).Representable := by
  obtain ⟨-, -, hyearDay0, hyearDay, hle, hday0, hday⟩ := bounds_of_isDate hu hd
  have hrest : 0 ≤ u % secondsPerDay ∧ u % secondsPerDay < 86400 := by
    unfold secondsPerDay
    omega
  unfold ofDate secondsPerMinute secondsPerHour
  refine ⟨?_, ?_, ?_, ?_, ?_, hyear, ?_, ?_, ?_⟩
  all_goals
    dsimp only
    rw [contains_int_iff]
  case refine_8 => split <;> decide
  all_goals omega

/-- A record of an instant holds what its fields can hold. -/
theorem representable_of_ofInstant? {t minutesWest : Int} {c : Calendar}
    (hc : Calendar.ofInstant? t minutesWest = some c) : c.Representable := by
  obtain ⟨year, yearDay, month, day, hdate, hlong, hint, rfl⟩ := ofInstant?_eq_some rfl hc
  exact ofDate_representable (contains_long_iff.mp hlong) hdate hint minutesWest

section Fields

variable {c : Calendar}

theorem oneMoreIf_eq (p : Prop) [Decidable p] {x : Int}
    (hx : -4611686018427387904 ≤ x ∧ x ≤ 4611686018427387904) :
    oneMoreIf p x = .ok (x + if p then 1 else 0) := by
  unfold oneMoreIf
  split
  · exact long_word (by omega) (by omega)
  · simp

theorem ite_one_bounds (p : Prop) [Decidable p] :
    0 ≤ (if p then (1 : Int) else 0) ∧ (if p then (1 : Int) else 0) ≤ 1 := by
  split <;> decide

theorem daysBeforeMonth_bounds (month : Nat) :
    0 ≤ daysBeforeMonth.getD month 0 ∧ daysBeforeMonth.getD month 0 ≤ 334 := by
  by_cases h : month < 12
  · interval_cases month <;> decide
  · simp [daysBeforeMonth, h]

theorem dayCount_eq (hc : c.Representable) :
    dayCount c = .ok (cadenceDays c.carriedYear c.carriedMonth (c.day - 1)) := by
  have hday := contains_int_iff.mp hc.day
  have hmonth := contains_int_iff.mp hc.month
  have hyear := contains_int_iff.mp hc.year
  have hindex : Trap.indexOf (c.month % 12) = .ok (c.month % 12).toNat :=
    Trap.indexOf_eq (by omega)
  have hentry : Trap.entry daysBeforeMonth (c.month % 12).toNat =
      .ok (daysBeforeMonth.getD (c.month % 12).toNat 0) := by
    refine Trap.entry_eq ?_ 0
    simp only [daysBeforeMonth, List.length_cons, List.length_nil]
    omega
  have hbefore := daysBeforeMonth_bounds (c.month % 12).toNat
  have hleap :=
    ite_one_bounds (1 < (c.month % 12).toNat ∧ (1900 + c.year + c.month / 12) % 4 = 0)
  unfold dayCount
  simp (disch := omega) only [SignedRange.sum, SignedRange.difference, SignedRange.product,
    SignedRange.quotient_of_pos, SignedRange.remainder_of_pos, long_word, oneMoreIf_eq, hindex,
    hentry, Trap.ok_bind]
  rfl

theorem cadenceDays_bounds (hc : c.Representable) :
    -1000000000000 ≤ cadenceDays c.carriedYear c.carriedMonth (c.day - 1) ∧
      cadenceDays c.carriedYear c.carriedMonth (c.day - 1) ≤ 1000000000000 := by
  have hday := contains_int_iff.mp hc.day
  have hmonth := contains_int_iff.mp hc.month
  have hyear := contains_int_iff.mp hc.year
  have hbefore := daysBeforeMonth_bounds c.carriedMonth
  have hleap := ite_one_bounds (1 < c.carriedMonth ∧ c.carriedYear % 4 = 0)
  unfold cadenceDays
  unfold carriedYear at *
  omega

theorem toInstant_eq (hc : c.Representable) : toInstant c = .ok c.toInstant := by
  have hdays := cadenceDays_bounds hc
  have hhour := contains_int_iff.mp hc.hour
  have hminute := contains_int_iff.mp hc.minute
  have hsecond := contains_int_iff.mp hc.second
  have hsaving := ite_one_bounds (0 < c.daylight)
  rw [Calendar.toInstant_eq]
  unfold toInstant secondOfDay
  simp only [← corrected_eq, ← add_assoc, dayCount_eq hc, Trap.ok_bind]
  simp only [secondsPerDay, secondsPerHour, secondsPerMinute, leapSecondEpoch,
    leapSecondCorrection]
  simp (disch := omega) only [SignedRange.sum, SignedRange.product, long_word, oneMoreIf_eq,
    Trap.ok_bind]
  exact (apply_ite Except.ok _ _ _).symm

end Fields

end Machine
end Calendar
end GuestLibrary
