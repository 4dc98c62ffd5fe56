import GuestLibrary.Proofs.Calendar.Gregorian

/-! The record of an instant is its date in the proleptic Gregorian calendar and its time of day.
Dates are counted by the lengths of the years and months before them, so nothing here depends on the
closed form of the count or on the cycles that the conversion skips. -/
namespace GuestLibrary
namespace Calendar

/-- The instant as a clock shows it that is `minutesWest` minutes behind UTC. -/
def shifted (t minutesWest : Int) : Int := t - 60 * minutesWest

/-- Days from 1970-01-01 to January 1 of a year: the lengths of the years between, taken away for a
year before 1970. -/
def daysToYear (year : Int) : Int :=
  ∑ i ∈ Finset.range (year - 1970).toNat, daysInYear (1970 + i) -
    ∑ i ∈ Finset.range (1970 - year).toNat, daysInYear (year + i)

/-- Days of a year before a date in it. Months are counted from 0, days of a month from 1. -/
def daysBeforeDate (year : Int) (month : Nat) (day : Int) : Int :=
  ∑ m ∈ Finset.range month, daysInMonth year m + (day - 1)

/-- The day, counted from 1970-01-01, is one of the year. -/
def InYear (days year : Int) : Prop :=
  daysToYear year ≤ days ∧ days < daysToYear (year + 1)

/-- Days from 1970-01-01 to the date that a record shows. -/
def dayNumber (c : Calendar) : Int :=
  daysToYear c.fullYear + daysBeforeDate c.fullYear c.month.toNat c.day

/-- Every field of the record is in its range, and date and time of day are those of `u` seconds
after 1970-01-01T00:00:00. -/
structure Shows (c : Calendar) (u : Int) : Prop where
  second : 0 ≤ c.second ∧ c.second ≤ 59
  minute : 0 ≤ c.minute ∧ c.minute ≤ 59
  hour : 0 ≤ c.hour ∧ c.hour ≤ 23
  month : 0 ≤ c.month ∧ c.month ≤ 11
  day : 1 ≤ c.day ∧ c.day ≤ daysInMonth c.fullYear c.month.toNat
  yearDay : c.yearDay = daysBeforeDate c.fullYear c.month.toNat c.day
  instant : u = 86400 * c.dayNumber + 3600 * c.hour + 60 * c.minute + c.second
  weekday : 0 ≤ c.weekday ∧ c.weekday ≤ 6 ∧ c.weekday ≡ c.dayNumber + 4 [ZMOD 7]

/-- The walk over the years from `year` with `days` to go stops by itself after `steps` steps: not
before, and further steps are none. -/
def WalkTakes (steps : Nat) (year days : Int) : Prop :=
  ∀ fuel, (walkYears fuel year days).2 < daysInYear (walkYears fuel year days).1 ↔ steps ≤ fuel

/-- The walk from the first year of a day's cycle to the year of the day takes `steps` steps. Cycles
are counted from 1970, and whole ones are skipped. -/
structure FoundAfter (steps : Nat) (days year : Int) : Prop where
  takes : WalkTakes steps (1970 + 400 * (days / daysPerCycle))
    (days - days / daysPerCycle * daysPerCycle)
  year_eq : ∀ fuel, steps ≤ fuel → (walkYears fuel (1970 + 400 * (days / daysPerCycle))
    (days - days / daysPerCycle * daysPerCycle)).1 = year

section Counting

theorem daysInYear_pos (year : Int) : 0 < daysInYear year := by
  have hlength := daysInYear_cases year
  omega

theorem daysBeforeYear_strictMono : StrictMono daysBeforeYear :=
  strictMono_int_of_lt_succ fun year => by
    rw [daysBeforeYear_succ]
    exact Int.lt_add_of_pos_right _ (daysInYear_pos year)

theorem sum_daysInYear (first : Int) (years : Nat) :
    ∑ i ∈ Finset.range years, daysInYear (first + i) =
      daysBeforeYear (first + years) - daysBeforeYear first := by
  induction years with
  | zero => simp
  | succ years ih =>
    have hnext : first + ((years + 1 : Nat) : Int) = first + years + 1 := by
      push_cast
      ring
    rw [Finset.sum_range_succ, ih, hnext, daysBeforeYear_succ]
    ring

theorem daysToYear_eq (year : Int) : daysToYear year = daysBeforeYear year := by
  have hepoch : daysBeforeYear 1970 = 0 := rfl
  unfold daysToYear
  rw [sum_daysInYear, sum_daysInYear]
  rcases le_total 1970 year with h | h
  · rw [Int.toNat_of_nonneg (by omega), Int.toNat_of_nonpos (by omega), hepoch,
      show 1970 + (year - 1970) = year by ring, Nat.cast_zero, add_zero]
    ring
  · rw [Int.toNat_of_nonpos (by omega), Int.toNat_of_nonneg (by omega),
      show year + (1970 - year) = 1970 by ring, Nat.cast_zero, add_zero, hepoch]
    ring

theorem sum_daysInMonth (year : Int) {month : Nat} (h : month ≤ 11) :
    ∑ m ∈ Finset.range month, daysInMonth year m = daysIntoYear year month := by
  induction month with
  | zero => rfl
  | succ month ih =>
    rw [Finset.sum_range_succ, ih (by omega), daysIntoYear_succ year (by omega)]

/-- A day is in one year only. -/
theorem inYear_iff {days year : Int} (h : InYear days year) (y : Int) :
    InYear days y ↔ y = year := by
  refine ⟨fun hy => ?_, fun hy => hy ▸ h⟩
  unfold InYear at h hy
  rw [daysToYear_eq, daysToYear_eq] at h hy
  have hnot : ¬ y + 1 ≤ year := fun hle =>
    (daysBeforeYear_strictMono.monotone hle).not_gt (by omega)
  have hnot' : ¬ year + 1 ≤ y := fun hle =>
    (daysBeforeYear_strictMono.monotone hle).not_gt (by omega)
  omega

end Counting

section Walk

variable {steps : Nat} {year days : Int}

/-- The walk as far as its steps last: it has passed one year with each, until it is in the year of
the day. -/
theorem walkYears_eq_add (hfirst : daysBeforeYear (year + steps) ≤ daysBeforeYear year + days)
    (hlast : daysBeforeYear year + days < daysBeforeYear (year + steps + 1)) (fuel : Nat) :
    walkYears fuel year days = (year + (min fuel steps : Nat),
      daysBeforeYear year + days - daysBeforeYear (year + (min fuel steps : Nat))) := by
  induction fuel generalizing steps year days with
  | zero => simp [walkYears]
  | succ fuel ih =>
    have hnext := daysBeforeYear_succ year
    unfold walkYears
    cases steps with
    | zero =>
      rw [Nat.cast_zero, add_zero] at hlast
      rw [if_pos (by omega)]
      simp
    | succ steps =>
      have hshift : year + ((steps + 1 : Nat) : Int) = year + 1 + steps := by
        push_cast
        ring
      rw [hshift] at hfirst hlast
      have hpast : daysBeforeYear (year + 1) ≤ daysBeforeYear (year + 1 + steps) :=
        daysBeforeYear_strictMono.monotone (by omega)
      rw [if_neg (by omega),
        @ih steps (year + 1) (days - daysInYear year) (by omega) (by omega), Nat.add_min_add_right]
      refine Prod.ext (by push_cast; ring) ?_
      have hsum : year + ((min fuel steps + 1 : Nat) : Int) = year + 1 + (min fuel steps : Nat) := by
        push_cast
        ring
      rw [hsum]
      dsimp only
      omega

theorem walkTakes (hfirst : daysBeforeYear (year + steps) ≤ daysBeforeYear year + days)
    (hlast : daysBeforeYear year + days < daysBeforeYear (year + steps + 1)) :
    WalkTakes steps year days := by
  intro fuel
  rw [walkYears_eq_add hfirst hlast fuel]
  have hnext := daysBeforeYear_succ (year + (min fuel steps : Nat))
  constructor
  · intro hstop
    by_contra hmore
    have hpast : daysBeforeYear (year + (min fuel steps : Nat) + 1) ≤
        daysBeforeYear (year + steps) := daysBeforeYear_strictMono.monotone (by omega)
    dsimp only at hstop
    omega
  · intro hle
    rw [Nat.min_eq_right hle] at hnext ⊢
    dsimp only
    omega

end Walk

theorem ofDate_shows {u year : Int} {month : Nat} {yearDay day : Int}
    (hd : IsDate (u / secondsPerDay) year month yearDay day) (minutesWest : Int) :
    (ofDate (u / secondsPerDay) year month yearDay day (u % secondsPerDay) minutesWest).Shows u := by
  obtain ⟨hdays, hyearDay, hle, h0, hlt⟩ := hd
  set c := ofDate (u / secondsPerDay) year month yearDay day (u % secondsPerDay) minutesWest with hc
  have hfull : c.fullYear = year := by
    simp only [hc, ofDate, fullYear]
    ring
  have hdate : daysBeforeDate year month (day + 1) = yearDay := by
    rw [daysBeforeDate, sum_daysInMonth year hle]
    omega
  have hnumber : c.dayNumber = u / secondsPerDay := by
    rw [dayNumber, hfull, daysToYear_eq, show c.month.toNat = month from rfl,
      show c.day = day + 1 from rfl, hdate]
    exact hdays.symm
  have hrest : 0 ≤ u % secondsPerDay ∧ u % secondsPerDay < 86400 := by
    unfold secondsPerDay
    omega
  refine ⟨?_, ?_, ?_, ⟨Int.natCast_nonneg month, Int.ofNat_le.mpr hle⟩, ?_, ?_, ?_, ?_⟩
  · simp only [hc, ofDate, secondsPerMinute]
    omega
  · simp only [hc, ofDate, secondsPerMinute]
    omega
  · simp only [hc, ofDate, secondsPerHour]
    omega
  · rw [hfull]
    exact ⟨Int.add_le_add_right h0 1, Int.add_one_le_of_lt hlt⟩
  · rw [hfull]
    exact hdate.symm
  · rw [hnumber]
    simp only [hc, ofDate, secondsPerHour, secondsPerMinute, secondsPerDay]
    omega
  · rw [hnumber]
    simp only [hc, ofDate]
    exact ⟨by omega, by omega, Int.mod_modEq _ 7⟩

/-- A record of an instant shows it. -/
theorem shows_of_ofInstant? {t minutesWest : Int} {c : Calendar}
    (hc : ofInstant? t minutesWest = some c) : c.Shows (shifted t minutesWest) := by
  have hu : shifted t minutesWest = t - minutesWest * secondsPerMinute := by
    unfold shifted secondsPerMinute
    ring
  obtain ⟨year, yearDay, month, day, hdate, -, -, rfl⟩ := ofInstant?_eq_some hu hc
  exact ofDate_shows hdate minutesWest

/-- Whole cycles skipped, the walk over the years takes fewer steps than a cycle has years, one for
each year that it passes. -/
theorem walk_within_cycle {days year : Int} (h : InYear days year) :
    ∃ steps, steps < 400 ∧ FoundAfter steps days year := by
  obtain ⟨hfirst, hlast⟩ := h
  rw [daysToYear_eq] at hfirst hlast
  set start := 1970 + 400 * (days / daysPerCycle) with hstart
  have hstartDays : daysBeforeYear start = days / daysPerCycle * daysPerCycle := by
    rw [hstart, mul_comm, daysBeforeYear_cycle]
  have hcycle : days / daysPerCycle * daysPerCycle ≤ days ∧
      days < days / daysPerCycle * daysPerCycle + daysPerCycle := by
    unfold daysPerCycle
    omega
  have hfrom : start ≤ year := by
    refine Int.lt_add_one_iff.mp (daysBeforeYear_strictMono.lt_iff_lt.mp ?_)
    omega
  have hto : year < start + 400 := by
    refine daysBeforeYear_strictMono.lt_iff_lt.mp ?_
    rw [daysBeforeYear_add_cycle]
    omega
  obtain ⟨steps, rfl⟩ := Int.le.dest hfrom
  have htakes : WalkTakes steps start (days - days / daysPerCycle * daysPerCycle) :=
    walkTakes (by omega) (by omega)
  refine ⟨steps, by omega, htakes, fun fuel hfuel => ?_⟩
  rw [← hstart, @walkYears_eq_add steps start _ (by omega) (by omega) fuel, Nat.min_eq_right hfuel]

/-- The conversion of an instant: it fails only for an instant or a year that its type cannot hold,
and otherwise shows the date and the time of day of the instant shifted into the zone. The year is
found in fewer than 400 steps. -/
theorem shows_gregorian_date (t minutesWest : Int) :
    ∃ year, (∀ y, InYear (shifted t minutesWest / 86400) y ↔ y = year) ∧
      (ofInstant? t minutesWest = none ↔
        ¬ (-2 ^ 63 ≤ shifted t minutesWest ∧ shifted t minutesWest < 2 ^ 63) ∨
        ¬ (-2 ^ 31 ≤ year - 1900 ∧ year - 1900 < 2 ^ 31)) ∧
      (∀ c, ofInstant? t minutesWest = some c →
        c.fullYear = year ∧ c.Shows (shifted t minutesWest)) ∧
      ∃ steps, steps < 400 ∧ FoundAfter steps (shifted t minutesWest / 86400) year := by
  have hu : shifted t minutesWest = t - minutesWest * secondsPerMinute := by
    unfold shifted secondsPerMinute
    ring
  obtain ⟨year, yearDay, month, day, hdate, hof⟩ := ofInstant?_eq hu
  have hwithin : InYear (shifted t minutesWest / 86400) year := by
    unfold InYear
    rw [daysToYear_eq, daysToYear_eq]
    exact hdate.within_year
  refine ⟨year, inYear_iff hwithin, ?_, ?_, walk_within_cycle hwithin⟩
  · rw [hof, ite_eq_right_iff, SignedRange.contains_iff, SignedRange.contains_iff]
    simp only [reduceCtorEq, imp_false, SignedRange.least, SignedRange.greatest, SignedRange.long,
      SignedRange.int]
    norm_num
    omega
  · intro c hc
    rw [hof, ite_eq_iff] at hc
    obtain ⟨-, hsome⟩ | ⟨-, hnone⟩ := hc
    · obtain rfl := Option.some.inj hsome
      refine ⟨?_, ofDate_shows hdate minutesWest⟩
      simp only [ofDate, fullYear]
      ring
    · exact absurd hnone (by simp)

example : ofInstant? (-62167219200) 0 = some
    { second := 0, minute := 0, hour := 0, day := 1, month := 0, year := -1900, weekday := 6,
      yearDay := 0, daylight := 0 } := by decide

end Calendar
end GuestLibrary
