import GuestLibrary.Proofs.Calendar.Proleptic
import GuestLibrary.Proofs.Calendar.RoundTrip

/-! What the fields of a record add up to when they are outside of their ranges. Months carry into
the year; days, hours, minutes and seconds run on. The sum is counted in the Gregorian calendar, and
a record whose month lies where every fourth year has a leap day stands for it. -/
namespace GuestLibrary
namespace Calendar

/-- Seconds from 1970-01-01T00:00:00 to what the fields add up to, with an hour more in daylight
saving time. -/
def fieldSum (c : Calendar) : Int :=
  86400 * (daysToYear c.carriedYear + daysBeforeDate c.carriedYear c.carriedMonth c.day) +
    3600 * (c.hour + if 0 < c.daylight then 1 else 0) + 60 * c.minute + c.second

theorem carriedMonth_le (c : Calendar) : c.carriedMonth ≤ 11 := by
  unfold carriedMonth
  omega

theorem toInstant_of_inCadence {c : Calendar} (h : InCadence c.carriedYear c.carriedMonth) :
    c.toInstant =
      if leapSecondEpoch ≤ c.fieldSum then c.fieldSum else c.fieldSum + leapSecondCorrection := by
  have hsum : cadenceDays c.carriedYear c.carriedMonth (c.day - 1) * secondsPerDay +
      c.secondOfDay = c.fieldSum := by
    rw [cadenceDays_eq h, fieldSum, daysToYear_eq, daysBeforeDate,
      sum_daysInMonth c.carriedYear c.carriedMonth_le, secondOfDay]
    simp only [secondsPerDay, secondsPerHour, secondsPerMinute]
    ring
  rw [toInstant_eq, hsum]

/-- A whole number of years may stand in the months instead of the years. -/
theorem toInstant_shift (c : Calendar) (years : Int) :
    { c with month := c.month + 12 * years, year := c.year - years }.toInstant = c.toInstant := by
  have hyear : { c with month := c.month + 12 * years, year := c.year - years }.carriedYear =
      c.carriedYear := by
    simp only [carriedYear]
    omega
  have hmonth : { c with month := c.month + 12 * years, year := c.year - years }.carriedMonth =
      c.carriedMonth := by
    simp only [carriedMonth]
    omega
  rw [toInstant_eq, toInstant_eq, hyear, hmonth]
  rfl

/-- The instant of a record is the sum of its fields, in range or not, with the correction where
leap seconds had not begun; its month, carried into the year, is one from March 1900 to February
2100. Weekday and day of the year are not read, and months and years may be exchanged for each
other. -/
theorem toInstant_sums_fields (c : Calendar) :
    (InCadence c.carriedYear c.carriedMonth →
      c.toInstant = if 63072000 ≤ c.fieldSum then c.fieldSum else c.fieldSum + 10) ∧
    (∀ weekday yearDay, { c with weekday := weekday, yearDay := yearDay }.toInstant = c.toInstant) ∧
    ∀ years, { c with month := c.month + 12 * years, year := c.year - years }.toInstant =
      c.toInstant :=
  ⟨toInstant_of_inCadence, fun _ _ => rfl, c.toInstant_shift⟩

/-- Ten months before January 1901 it is March 1900, and 41 days and 101 hours from its first day it
is still before leap seconds. -/
theorem toInstant_sums_fields_march : ∃ c : Calendar,
    c = { year := 1, month := -10, day := -40, hour := 100, daylight := 1 } ∧
      InCadence c.carriedYear c.carriedMonth ∧ c.fieldSum = -2207070000 ∧
        c.toInstant = -2207070000 + 10 := by
  refine ⟨_, rfl, ?_⟩
  set c : Calendar := { year := 1, month := -10, day := -40, hour := 100, daylight := 1 }
  have hmarch : InCadence c.carriedYear c.carriedMonth := Or.inr (Or.inl (by decide))
  have hsum : c.fieldSum = -2207070000 := by
    rw [fieldSum, daysToYear_eq]
    decide
  have hinstant := (toInstant_sums_fields c).1 hmarch
  rw [hsum, if_neg (by decide)] at hinstant
  exact ⟨hmarch, hsum, hinstant⟩

end Calendar
end GuestLibrary
