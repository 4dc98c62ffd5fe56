import GuestLibrary.Proofs.Calendar.Gregorian

/-! Instants survive the way into broken-down time and back. The way back has a leap day in every
fourth year, which the Gregorian calendar has too between March 1900 and February 2100, and adds the
correction to all that lies before leap seconds began. -/
namespace GuestLibrary
namespace Calendar

variable {days year : Int} {month : Nat} {yearDay day : Int}

/-- The instant at which a date begins; month and day are counted from 0. -/
def midnight (year : Int) (month : Nat) (day : Int) : Int :=
  (daysBeforeYear year + daysIntoYear year month + day) * secondsPerDay

example : midnight 1900 2 0 = -2203891200 ∧ midnight 1972 0 0 = leapSecondEpoch ∧
    midnight 2100 2 0 = 4107542400 := by decide

/-- Days up to a date where every fourth year has a leap day. -/
def cadenceDays (year : Int) (month : Nat) (day : Int) : Int :=
  (year - 1970) * 365 + (year - 1969) / 4 + daysBeforeMonth.getD month 0 +
    (if 1 < month ∧ year % 4 = 0 then 1 else 0) + day

/-- The months from March 1900 to February 2100. -/
def InCadence (year : Int) (month : Nat) : Prop :=
  1900 < year ∧ year < 2100 ∨ year = 1900 ∧ 1 < month ∨ year = 2100 ∧ month ≤ 1

theorem cadenceDays_eq (h : InCadence year month) (day : Int) :
    cadenceDays year month day = daysBeforeYear year + daysIntoYear year month + day := by
  unfold cadenceDays daysBeforeYear daysIntoYear
  rcases h with ⟨hlo, hhi⟩ | ⟨rfl, hm⟩ | ⟨rfl, hm⟩
  · have hcadence : isLeapYear year = true ↔ year % 4 = 0 := by
      rw [isLeapYear_iff]
      omega
    simp only [hcadence]
    omega
  · -- No leap day in 1900, but the count of leap days before it is one ahead of the Gregorian one.
    have hcommon : isLeapYear 1900 = false := by decide
    simp [hcommon, hm]
    omega
  · simp [Nat.not_lt.mpr hm]

/-- January and February are over after 59 days of a common year. -/
theorem IsDate.one_lt_month_iff (hd : IsDate days year month yearDay day)
    (hcommon : isLeapYear year = false) : 1 < month ↔ 59 ≤ yearDay := by
  obtain ⟨-, hyear, hle, h0, hlt⟩ := hd
  unfold daysIntoYear at hyear
  unfold daysInMonth at hlt
  rw [hcommon] at hyear hlt
  interval_cases month <;> simp [daysBeforeMonth, monthLengths] at hyear hlt ⊢ <;> omega

theorem IsDate.inCadence (hd : IsDate days year month yearDay day)
    (hlo : daysBeforeYear 1900 + daysIntoYear 1900 2 ≤ days)
    (hhi : days < daysBeforeYear 2100 + daysIntoYear 2100 2) : InCadence year month := by
  obtain ⟨hfirst, hlast⟩ := hd.within_year
  have hdays := hd.days_eq
  have h1900 : daysIntoYear 1900 2 = 59 := by decide
  have h2100 : daysIntoYear 2100 2 = 59 := by decide
  have hyear : 1900 ≤ year ∧ year ≤ 2100 := by
    unfold daysBeforeYear at hfirst hlast hlo hhi
    omega
  unfold InCadence
  rcases (by omega : 1900 < year ∧ year < 2100 ∨ year = 1900 ∨ year = 2100) with h | rfl | rfl
  · exact Or.inl h
  · have hmarch := hd.one_lt_month_iff (by decide)
    omega
  · have hmarch := hd.one_lt_month_iff (by decide)
    omega

/-- The year that the months of a record carry into. -/
def carriedYear (c : Calendar) : Int := 1900 + c.year + c.month / 12

/-- The month of that year, counted from 0 for January. -/
def carriedMonth (c : Calendar) : Nat := (c.month % 12).toNat

/-- Seconds from midnight to the time of day, with an hour more in daylight saving time. -/
def secondOfDay (c : Calendar) : Int :=
  (c.hour + if 0 < c.daylight then 1 else 0) * secondsPerHour + c.minute * secondsPerMinute +
    c.second

theorem corrected_eq (t : Int) :
    (if t < leapSecondEpoch then t + leapSecondCorrection else t) =
      if leapSecondEpoch ≤ t then t else t + leapSecondCorrection := by
  simp only [← not_le, ite_not]

theorem toInstant_eq (c : Calendar) :
    c.toInstant =
      let t := cadenceDays c.carriedYear c.carriedMonth (c.day - 1) * secondsPerDay + c.secondOfDay
      if leapSecondEpoch ≤ t then t else t + leapSecondCorrection := by
  have hhour : (if 0 < c.daylight then c.hour + 1 else c.hour) =
      c.hour + if 0 < c.daylight then 1 else 0 := by
    split <;> simp
  unfold toInstant
  dsimp only
  rw [hhour, corrected_eq]
  simp only [cadenceDays, carriedYear, carriedMonth, secondOfDay, add_assoc]

theorem toInstant_ofDate (hle : month ≤ 11) (seconds minutesWest : Int) :
    (ofDate days year month yearDay day seconds minutesWest).toInstant =
      let t := cadenceDays year month day * secondsPerDay + seconds
      if leapSecondEpoch ≤ t then t else t + leapSecondCorrection := by
  set c := ofDate days year month yearDay day seconds minutesWest with hc
  have hyear : c.carriedYear = year := by
    simp only [carriedYear, hc, ofDate]
    omega
  have hmonth : c.carriedMonth = month := by
    simp only [carriedMonth, hc, ofDate]
    omega
  have hday : c.day - 1 = day := by
    simp only [hc, ofDate, add_sub_cancel_right]
  have hdaylight : ¬ 0 < c.daylight := by
    simp only [hc, ofDate]
    split <;> decide
  have hseconds : c.secondOfDay = seconds := by
    rw [secondOfDay, if_neg hdaylight]
    simp only [hc, ofDate, secondsPerHour, secondsPerMinute]
    omega
  rw [toInstant_eq, hyear, hmonth, hday, hseconds]

/-- Between March 1900 and February 2100 an instant comes back as it was shifted into its zone,
with the correction where leap seconds had not begun. -/
theorem exists_toInstant {t minutesWest u : Int} (hu : u = t - minutesWest * secondsPerMinute)
    (hlo : midnight 1900 2 0 ≤ u) (hhi : u < midnight 2100 2 0) :
    ∃ c, ofInstant? t minutesWest = some c ∧
      c.toInstant = if leapSecondEpoch ≤ u then u else u + leapSecondCorrection := by
  obtain ⟨year, yearDay, month, day, hdate, hc⟩ := ofInstant?_eq hu
  have hcadence : InCadence year month := by
    unfold midnight secondsPerDay at hlo hhi
    unfold secondsPerDay at hdate
    exact hdate.inCadence (by omega) (by omega)
  have hlong : SignedRange.long.contains u = true := by
    have hmarch : SignedRange.long.least ≤ midnight 1900 2 0 := by decide
    have hfebruary : midnight 2100 2 0 ≤ SignedRange.long.greatest := by decide
    rw [SignedRange.contains_iff]
    omega
  have hint : SignedRange.int.contains (year - 1900) = true := by
    have hleast : SignedRange.int.least ≤ 0 := by decide
    have hgreatest : 200 ≤ SignedRange.int.greatest := by decide
    unfold InCadence at hcadence
    rw [SignedRange.contains_iff]
    omega
  rw [if_pos ⟨hlong, hint⟩] at hc
  have hdays : cadenceDays year month day = u / secondsPerDay := by
    rw [cadenceDays_eq hcadence, hdate.days_eq, hdate.yearDay_eq]
    ring
  refine ⟨_, hc, ?_⟩
  rw [toInstant_ofDate hdate.month_le, hdays, Int.ediv_mul_add_emod]

/-- Broken-down time and back is the identity between March 1900 and February 2100, up to the zone
and, before leap seconds began, the correction; in UTC it is the identity from 1972 to 2099. -/
theorem calendar_round_trip :
    (∀ t minutesWest u : Int, u = t - minutesWest * secondsPerMinute →
      midnight 1900 2 0 ≤ u → u < midnight 2100 2 0 →
      ∃ c, ofInstant? t minutesWest = some c ∧
        c.toInstant = if leapSecondEpoch ≤ u then u else u + leapSecondCorrection) ∧
    (∀ t : Int, midnight 1972 0 0 ≤ t → t < midnight 2100 0 0 →
      ∃ c, ofInstant? t 0 = some c ∧ c.toInstant = t) := by
  constructor
  · intro t minutesWest u hu hlo hhi
    exact exists_toInstant hu hlo hhi
  · intro t hlo hhi
    have hmarch : midnight 1900 2 0 ≤ midnight 1972 0 0 := by decide
    have hfebruary : midnight 2100 0 0 ≤ midnight 2100 2 0 := by decide
    have hepoch : midnight 1972 0 0 = leapSecondEpoch := by decide
    obtain ⟨c, hc, ht⟩ := @exists_toInstant t 0 t (by omega) (by omega) (by omega)
    refine ⟨c, hc, ?_⟩
    rw [ht, if_pos (by omega)]

/-- The first instant of the range in a zone behind UTC, and the last leap day in UTC. -/
theorem calendar_round_trip_march :
    (∃ c, ofInstant? (midnight 1900 2 0 + 480 * secondsPerMinute) 480 = some c ∧
      c.toInstant = midnight 1900 2 0 + leapSecondCorrection) ∧
    (∃ c, ofInstant? (midnight 2096 1 28) 0 = some c ∧ c.toInstant = midnight 2096 1 28) := by
  obtain ⟨hzone, hutc⟩ := calendar_round_trip
  have hlocal := hzone (midnight 1900 2 0 + 480 * secondsPerMinute) 480 (midnight 1900 2 0)
    (by decide) (by decide) (by decide)
  rw [if_neg (by decide)] at hlocal
  exact ⟨hlocal, hutc (midnight 2096 1 28) (by decide) (by decide)⟩

end Calendar
end GuestLibrary
