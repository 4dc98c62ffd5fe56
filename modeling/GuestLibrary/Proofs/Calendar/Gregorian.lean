import GuestLibrary.Calendar.Basic
import Mathlib

/-! Dates of the Gregorian calendar, carried on without end in both directions. Days are counted
from 1970-01-01. The walk over the years and then over the months of a year finds the date of a day,
so an instant in broken-down time names the day that the instant lies in. -/
namespace GuestLibrary
namespace Calendar

/-- Days from 1970-01-01 to January 1 of a year. -/
def daysBeforeYear (year : Int) : Int :=
  365 * (year - 1970) + (year - 1969) / 4 - (year - 1901) / 100 + (year - 1601) / 400

/-- Days from January 1 to the first of a month, counted from 0 for January. -/
def daysIntoYear (year : Int) (month : Nat) : Int :=
  daysBeforeMonth.getD month 0 + if 1 < month ∧ isLeapYear year then 1 else 0

theorem isLeapYear_iff (year : Int) :
    isLeapYear year = true ↔ year % 4 = 0 ∧ year % 100 ≠ 0 ∨ year % 400 = 0 := by
  simp [isLeapYear]

theorem daysInYear_cases (year : Int) : daysInYear year = 365 ∨ daysInYear year = 366 := by
  unfold daysInYear
  split <;> simp

theorem daysBeforeYear_succ (year : Int) :
    daysBeforeYear (year + 1) = daysBeforeYear year + daysInYear year := by
  have hleap := isLeapYear_iff year
  unfold daysBeforeYear daysInYear
  split
  · rename_i h
    have := hleap.mp h
    omega
  · rename_i h
    have := mt hleap.mpr h
    omega

theorem daysBeforeYear_cycle (cycles : Int) :
    daysBeforeYear (1970 + cycles * 400) = cycles * daysPerCycle := by
  unfold daysBeforeYear daysPerCycle
  omega

theorem daysBeforeYear_add_cycle (year : Int) :
    daysBeforeYear (year + 400) = daysBeforeYear year + daysPerCycle := by
  unfold daysBeforeYear daysPerCycle
  omega

theorem daysInMonth_bounds (year : Int) (month : Nat) :
    0 ≤ daysInMonth year month ∧ daysInMonth year month ≤ 31 := by
  have hmonth : month % 12 < 12 := Nat.mod_lt _ (by decide)
  unfold daysInMonth
  split
  · decide
  · interval_cases month % 12 <;> decide

theorem daysIntoYear_succ (year : Int) {month : Nat} (h : month < 11) :
    daysIntoYear year (month + 1) = daysIntoYear year month + daysInMonth year month := by
  unfold daysIntoYear daysInMonth
  cases isLeapYear year <;> interval_cases month <;> decide

theorem daysIntoYear_december (year : Int) :
    daysIntoYear year 11 + daysInMonth year 11 = daysInYear year := by
  unfold daysIntoYear daysInMonth daysInYear
  cases isLeapYear year <;> decide

theorem daysIntoYear_nonneg (year : Int) {month : Nat} (h : month ≤ 11) :
    0 ≤ daysIntoYear year month := by
  unfold daysIntoYear
  cases isLeapYear year <;> interval_cases month <;> decide

theorem daysIntoYear_add_le (year : Int) {month : Nat} (h : month ≤ 11) :
    daysIntoYear year month + daysInMonth year month ≤ daysInYear year := by
  unfold daysIntoYear daysInMonth daysInYear
  cases isLeapYear year <;> interval_cases month <;> decide

/-- The walk over the years stops in the year of the day. -/
theorem walkYears_eq {steps : Nat} {year days : Int} (h0 : 0 ≤ days)
    (hlt : daysBeforeYear year + days < daysBeforeYear (year + steps)) :
    ∃ year' yearDay, walkYears steps year days = (year', yearDay) ∧
      daysBeforeYear year' + yearDay = daysBeforeYear year + days ∧
      0 ≤ yearDay ∧ yearDay < daysInYear year' := by
  induction steps generalizing year days with
  | zero =>
    rw [Nat.cast_zero, add_zero] at hlt
    omega
  | succ steps ih =>
    unfold walkYears
    split
    · rename_i hstop
      exact ⟨year, days, rfl, rfl, h0, hstop⟩
    · rename_i hgo
      have hnext := daysBeforeYear_succ year
      have hend : year + 1 + (steps : Int) = year + (steps + 1 : Nat) := by
        push_cast
        ring
      obtain ⟨year', yearDay, he, hsum, hbounds⟩ :=
        @ih (year + 1) (days - daysInYear year) (by omega) (by rw [hend]; omega)
      exact ⟨year', yearDay, he, by omega, hbounds⟩

/-- The walk over the months stops in the month of the day. -/
theorem walkMonths_eq {year : Int} {steps month : Nat} {days : Int} (hm : month + steps = 11)
    (h0 : 0 ≤ days) (hlt : daysIntoYear year month + days < daysInYear year) :
    ∃ month' day, walkMonths year steps month days = (month', day) ∧
      daysIntoYear year month' + day = daysIntoYear year month + days ∧
      month' ≤ 11 ∧ 0 ≤ day ∧ day < daysInMonth year month' := by
  induction steps generalizing month days with
  | zero =>
    obtain rfl : month = 11 := hm
    have hdecember := daysIntoYear_december year
    exact ⟨11, days, rfl, rfl, Nat.le_refl 11, h0, by omega⟩
  | succ steps ih =>
    unfold walkMonths
    split
    · rename_i hstop
      exact ⟨month, days, rfl, rfl, by omega, h0, hstop⟩
    · rename_i hgo
      have hnext := @daysIntoYear_succ year month (by omega)
      obtain ⟨month', day, he, hsum, hbounds⟩ :=
        @ih (month + 1) (days - daysInMonth year month) (by omega) (by omega) (by omega)
      exact ⟨month', day, he, by omega, hbounds⟩

/-- The day `days` is in the year `year`, `yearDay` days after its January 1, and in the month
`month`, `day` days after its first. -/
structure IsDate (days year : Int) (month : Nat) (yearDay day : Int) : Prop where
  days_eq : days = daysBeforeYear year + yearDay
  yearDay_eq : yearDay = daysIntoYear year month + day
  month_le : month ≤ 11
  day_nonneg : 0 ≤ day
  day_lt : day < daysInMonth year month

theorem IsDate.within_year {days year : Int} {month : Nat} {yearDay day : Int}
    (hd : IsDate days year month yearDay day) :
    daysBeforeYear year ≤ days ∧ days < daysBeforeYear (year + 1) := by
  obtain ⟨hdays, hyearDay, hle, h0, hlt⟩ := hd
  have hfirst := daysIntoYear_nonneg year hle
  have hlast := daysIntoYear_add_le year hle
  have hnext := daysBeforeYear_succ year
  omega

/-- Whole cycles first, then a walk of less than 400 years, lead to the date of a day. -/
theorem exists_isDate (days : Int) : ∃ year yearDay month day,
    walkYears 400 (1970 + days / daysPerCycle * 400) (days - days / daysPerCycle * daysPerCycle) =
      (year, yearDay) ∧
    walkMonths year 11 0 yearDay = (month, day) ∧ IsDate days year month yearDay day := by
  have hcycle : 0 ≤ days - days / daysPerCycle * daysPerCycle ∧
      days - days / daysPerCycle * daysPerCycle < daysPerCycle := by
    unfold daysPerCycle
    omega
  have hstart := daysBeforeYear_cycle (days / daysPerCycle)
  have hend := daysBeforeYear_add_cycle (1970 + days / daysPerCycle * 400)
  have hwithin : daysBeforeYear (1970 + days / daysPerCycle * 400) +
      (days - days / daysPerCycle * daysPerCycle) <
        daysBeforeYear (1970 + days / daysPerCycle * 400 + (400 : Nat)) := by
    push_cast
    omega
  obtain ⟨year, yearDay, hyear, hsum, hyear0, hyearlt⟩ := walkYears_eq hcycle.1 hwithin
  have hjanuary : daysIntoYear year 0 = 0 := rfl
  obtain ⟨month, day, hmonth, hdays, hle, hday0, hdaylt⟩ :=
    @walkMonths_eq year 11 0 yearDay rfl hyear0 (by omega)
  exact ⟨year, yearDay, month, day, hyear, hmonth, by omega, by omega, hle, hday0, hdaylt⟩

/-- The record of a date and of the seconds that have passed since its midnight. -/
def ofDate (days year : Int) (month : Nat) (yearDay day seconds minutesWest : Int) : Calendar where
  second := seconds % secondsPerMinute
  minute := seconds / secondsPerMinute % 60
  hour := seconds / secondsPerHour
  day := day + 1
  month := month
  year := year - 1900
  weekday := (days + 4) % 7
  yearDay := yearDay
  daylight := if minutesWest = 0 then 0 else -1

/-- An instant in broken-down time shows the date of its day and the time of day, wherever instant
and year can be represented. -/
theorem ofInstant?_eq {t minutesWest u : Int} (hu : u = t - minutesWest * secondsPerMinute) :
    ∃ year yearDay month day, IsDate (u / secondsPerDay) year month yearDay day ∧
      ofInstant? t minutesWest =
        if SignedRange.long.contains u ∧ SignedRange.int.contains (year - 1900) then
          some (ofDate (u / secondsPerDay) year month yearDay day (u % secondsPerDay) minutesWest)
        else none := by
  obtain ⟨year, yearDay, month, day, hyear, hmonth, hdate⟩ := exists_isDate (u / secondsPerDay)
  refine ⟨year, yearDay, month, day, hdate, ?_⟩
  unfold ofInstant?
  rw [← hu]
  dsimp only
  rw [hyear]
  dsimp only
  rw [hmonth]
  cases SignedRange.long.contains u <;> cases SignedRange.int.contains (year - 1900) <;> rfl

theorem ofInstant?_eq_some {t minutesWest u : Int} {c : Calendar}
    (hu : u = t - minutesWest * secondsPerMinute) (hc : ofInstant? t minutesWest = some c) :
    ∃ year yearDay month day, IsDate (u / secondsPerDay) year month yearDay day ∧
      SignedRange.long.contains u = true ∧ SignedRange.int.contains (year - 1900) = true ∧
        c = ofDate (u / secondsPerDay) year month yearDay day (u % secondsPerDay) minutesWest := by
  obtain ⟨year, yearDay, month, day, hdate, he⟩ := ofInstant?_eq hu
  rw [hc] at he
  by_cases h : SignedRange.long.contains u = true ∧ SignedRange.int.contains (year - 1900) = true
  · rw [if_pos h] at he
    exact ⟨year, yearDay, month, day, hdate, h.1, h.2, Option.some.inj he⟩
  · rw [if_neg h] at he
    cases he

end Calendar
end GuestLibrary
