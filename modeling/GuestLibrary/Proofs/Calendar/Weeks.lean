import GuestLibrary.Proofs.Calendar.Text

/-! Numbers of weeks. A week from Monday to Sunday counts for the year that its Thursday is in, and
its number is the number of that Thursday among the Thursdays of the year; the other two numberings
count the Sundays or the Mondays of the year up to a day. -/
namespace GuestLibrary
namespace Calendar

/-- The weekday of a day, counted from Sunday. The day 0 was a Thursday. -/
def weekdayOf (days : Int) : Int := (days + 4) % 7

/-- How many of the days from `first` on, up to the day before `last`, fall on a weekday. -/
def countWeekday (weekday first last : Int) : Nat :=
  (List.range (last - first).toNat).countP fun i : Nat => weekdayOf (first + i) == weekday

/-- The day is the `weekday`-th of a week, Monday being the first, and the Thursday of that week is
the `week`-th of the year. -/
structure IsWeekDate (days year : Int) (week : Nat) (weekday : Int) : Prop where
  weekday_eq : 1 ≤ weekday ∧ weekday ≤ 7 ∧ weekdayOf (days - (weekday - 1)) = 1
  inYear : InYear (days - (weekday - 1) + 3) year
  week_eq : week = countWeekday 4 (daysToYear year) (days - (weekday - 1) + 3) + 1

/-- Year, day of the year and weekday of the record are those of a day. -/
structure OnDay (c : Calendar) (days : Int) : Prop where
  inYear : InYear days c.fullYear
  yearDay_eq : c.yearDay = days - daysToYear c.fullYear
  weekday_eq : c.weekday = weekdayOf days

section Counting

variable {weekday first last : Int}

/-- Full weeks hold one day of each weekday. -/
theorem countWeekday_eq (hweekday : 0 ≤ weekday ∧ weekday ≤ 6) (h : first ≤ last) :
    (countWeekday weekday first last : Int) =
      (last + 3 - weekday) / 7 - (first + 3 - weekday) / 7 := by
  obtain ⟨n, rfl⟩ := Int.le.dest h
  have hlength : (first + n - first).toNat = n := by omega
  rw [countWeekday, hlength]
  clear h hlength
  induction n with
  | zero => simp
  | succ n ih =>
    rw [List.range_succ, List.countP_append, List.countP_singleton]
    push_cast
    rw [ih]
    unfold weekdayOf
    split
    · rename_i hday
      rw [beq_iff_eq] at hday
      omega
    · rename_i hday
      rw [beq_iff_eq] at hday
      omega

/-- The last day of a year, from the leap days up to it. -/
theorem lastWeekday_eq (year : Int) :
    lastWeekday year = weekdayOf (daysBeforeYear (year + 1) - 1) := by
  have hfourth : (year + 1 - 1969) / 4 = year / 4 - 492 := by omega
  have hcentury : (year + 1 - 1901) / 100 = year / 100 - 19 := by omega
  have hcycle : (year + 1 - 1601) / 400 = year / 400 - 4 := by omega
  unfold lastWeekday weekdayOf daysBeforeYear
  rw [hfourth, hcentury, hcycle]
  omega

/-- The weeks of an ISO 8601 year are the Thursdays of the year. -/
theorem isoWeeks_eq (year : Int) :
    isoWeeks year = countWeekday 4 (daysBeforeYear year) (daysBeforeYear (year + 1)) := by
  have hnext := daysBeforeYear_succ year
  have hlast := lastWeekday_eq year
  have hbefore := lastWeekday_eq (year - 1)
  rw [sub_add_cancel] at hbefore
  have hlength := daysInYear_cases year
  rw [countWeekday_eq (by decide) (by omega), isoWeeks, hlast, hbefore]
  unfold weekdayOf
  split
  · omega
  · omega

end Counting

section Numbering

variable {c : Calendar} {days : Int}

theorem onDay_of_ofInstant? {t minutesWest : Int} (hc : ofInstant? t minutesWest = some c) :
    c.OnDay (shifted t minutesWest / 86400) := by
  have hu : shifted t minutesWest = t - minutesWest * secondsPerMinute := by
    unfold shifted secondsPerMinute
    ring
  obtain ⟨year, yearDay, month, day, hdate, -, -, rfl⟩ := ofInstant?_eq_some hu hc
  have hfull : (ofDate (shifted t minutesWest / secondsPerDay) year month yearDay day
      (shifted t minutesWest % secondsPerDay) minutesWest).fullYear = year := by
    simp only [ofDate, fullYear]
    ring
  refine ⟨?_, ?_, rfl⟩
  · rw [hfull, InYear, daysToYear_eq, daysToYear_eq]
    exact hdate.within_year
  · have hdays := hdate.days_eq
    unfold secondsPerDay at hdays
    rw [hfull, daysToYear_eq]
    simp only [ofDate]
    omega

theorem OnDay.mondayWeekday_eq (h : c.OnDay days) : c.mondayWeekday = (days + 3) % 7 := by
  rw [mondayWeekday, h.weekday_eq, weekdayOf]
  omega

/-- The year of a week is that of its Thursday, and its number tells the weeks of that year that the
Thursday has behind it. -/
theorem OnDay.isoWeek_eq (h : c.OnDay days) :
    daysBeforeYear c.isoWeek.1 ≤ days - (days + 3) % 7 + 3 ∧
      days - (days + 3) % 7 + 3 < daysBeforeYear (c.isoWeek.1 + 1) ∧
      c.isoWeek.2 = (days - (days + 3) % 7 + 3 - daysBeforeYear c.isoWeek.1) / 7 + 1 := by
  have hmonday := h.mondayWeekday_eq
  obtain ⟨⟨hfirst, hlast⟩, hyearDay, -⟩ := h
  have hlength := daysInYear_cases c.fullYear
  have hlength' := daysInYear_cases (c.fullYear - 1)
  have hlength'' := daysInYear_cases (c.fullYear + 1)
  have hnext := daysBeforeYear_succ c.fullYear
  have hnext' := daysBeforeYear_succ (c.fullYear - 1)
  have hnext'' := daysBeforeYear_succ (c.fullYear + 1)
  have hweeks := isoWeeks_eq c.fullYear
  have hweeks' := isoWeeks_eq (c.fullYear - 1)
  rw [sub_add_cancel] at hnext' hweeks'
  rw [countWeekday_eq (by decide) (by omega)] at hweeks hweeks'
  rw [daysToYear_eq] at hfirst hlast hyearDay
  have hweek : (c.yearDay - c.mondayWeekday + 10).tdiv 7 =
      (days - (days + 3) % 7 + 3 - daysBeforeYear c.fullYear) / 7 + 1 := by
    rw [Int.tdiv_eq_ediv_of_nonneg (by omega)]
    omega
  unfold isoWeek
  dsimp only
  rw [hweek]
  split
  · -- The Thursday is in December of the year before.
    dsimp only
    rw [sub_add_cancel]
    omega
  · split
    · -- The Thursday is in January of the year after.
      dsimp only
      omega
    · dsimp only
      omega

theorem OnDay.isWeekDate (h : c.OnDay days) :
    ∃ week : Nat, c.isoWeek.2 = week ∧ 1 ≤ week ∧ week ≤ 53 ∧
      IsWeekDate days c.isoWeek.1 week (c.mondayWeekday + 1) := by
  obtain ⟨hfirst, hlast, hweek⟩ := h.isoWeek_eq
  have hlength := daysInYear_cases c.isoWeek.1
  have hnext := daysBeforeYear_succ c.isoWeek.1
  have hcount := @countWeekday_eq 4 (daysBeforeYear c.isoWeek.1) (days - (days + 3) % 7 + 3)
    (by decide) (by omega)
  refine ⟨c.isoWeek.2.toNat, by omega, by omega, by omega, ?_⟩
  rw [h.mondayWeekday_eq]
  refine ⟨?_, ?_, ?_⟩
  · unfold weekdayOf
    omega
  · rw [add_sub_cancel_right, InYear, daysToYear_eq, daysToYear_eq]
    exact ⟨hfirst, hlast⟩
  · rw [add_sub_cancel_right, daysToYear_eq]
    omega

/-- Year, week and weekday name one day only. -/
theorem IsWeekDate.unique {days' year weekday : Int} {week : Nat}
    (h : IsWeekDate days year week weekday) (h' : IsWeekDate days' year week weekday) :
    days = days' := by
  have hcount := h.week_eq.symm.trans h'.week_eq
  have hfirst := h.inYear.1
  have hfirst' := h'.inYear.1
  have hmonday := h.weekday_eq
  have hmonday' := h'.weekday_eq
  have hnumber := @countWeekday_eq 4 _ _ (by decide) hfirst
  have hnumber' := @countWeekday_eq 4 _ _ (by decide) hfirst'
  unfold weekdayOf at hmonday hmonday'
  omega

/-- The first days of weeks that a year has had, where the day is `since` days behind the last of
them. -/
theorem OnDay.weeks_eq (h : c.OnDay days) {weekday since : Int}
    (hweekday : 0 ≤ weekday ∧ weekday ≤ 6) (hsince : since = (days + 4 - weekday) % 7) :
    (c.yearDay + 7 - since).tdiv 7 =
      countWeekday weekday (daysToYear c.fullYear) (days + 1) := by
  have hfirst := h.inYear.1
  have hyearDay := h.yearDay_eq
  rw [countWeekday_eq hweekday (by omega), Int.tdiv_eq_ediv_of_nonneg (by omega)]
  omega

theorem OnDay.sundayWeek_eq (h : c.OnDay days) :
    c.sundayWeek = countWeekday 0 (daysToYear c.fullYear) (days + 1) := by
  have hsince : c.weekday = (days + 4 - 0) % 7 := by
    rw [h.weekday_eq, weekdayOf, sub_zero]
  exact h.weeks_eq (by decide) hsince

theorem OnDay.mondayWeek_eq (h : c.OnDay days) :
    c.mondayWeek = countWeekday 1 (daysToYear c.fullYear) (days + 1) := by
  have hsince : c.mondayWeekday = (days + 4 - 1) % 7 := by
    rw [h.mondayWeekday_eq]
    omega
  exact h.weeks_eq (by decide) hsince

/-- A year has no more weeks than two digits can count. -/
theorem OnDay.countWeekday_lt (h : c.OnDay days) {weekday : Int}
    (hweekday : 0 ≤ weekday ∧ weekday ≤ 6) :
    countWeekday weekday (daysToYear c.fullYear) (days + 1) < 100 := by
  obtain ⟨hfirst, hlast⟩ := h.inYear
  have hcount := @countWeekday_eq weekday (daysToYear c.fullYear) (days + 1) hweekday (by omega)
  have hlength := daysInYear_cases c.fullYear
  have hnext := daysBeforeYear_succ c.fullYear
  rw [daysToYear_eq] at *
  omega

end Numbering

section Texts

variable {c : Calendar} {days : Int}

theorem OnDay.render_weekDate (h : c.OnDay days) (zone : Int) :
    ∃ year week weekday, IsWeekDate days year week weekday ∧ 1 ≤ week ∧ week ≤ 53 ∧
      c.render (Bytes.ofText "%G") zone = Bytes.ofText (toString year) ∧
      c.render (Bytes.ofText "%V") zone = Bytes.ofText (twoDigits week) ∧
      c.render (Bytes.ofText "%u") zone = Bytes.ofText (toString weekday) := by
  obtain ⟨week, hweek, hpos, hle, hdate⟩ := h.isWeekDate
  refine ⟨c.isoWeek.1, week, c.mondayWeekday + 1, hdate, hpos, hle, ?_, ?_, ?_⟩
  · have hyear := c.render_field zone "%G" 71 rfl (by decide) rfl
    rw [hyear, ← number_one c.isoWeek.1 '0']
    rfl
  · have hnumber := c.render_field zone "%V" 86 rfl (by decide) rfl
    rw [hnumber, ← number_two (by omega), ← hweek]
    rfl
  · have hday := c.render_field zone "%u" 117 rfl (by decide) rfl
    rw [hday, ← number_one (c.mondayWeekday + 1) '0']
    rfl

theorem toString_int_inj {a b : Int} : toString a = toString b ↔ a = b := by
  rw [Int.toString_eq_repr, Int.toString_eq_repr, Int.repr_inj]

/-- The texts of year, week and weekday name one day only. -/
theorem OnDay.eq_of_render {c' : Calendar} {days' zone zone' : Int} (h : c.OnDay days)
    (h' : c'.OnDay days') (htexts : ∀ format ∈ ["%G", "%V", "%u"],
      c'.render (Bytes.ofText format) zone' = c.render (Bytes.ofText format) zone) :
    days' = days := by
  obtain ⟨year, week, weekday, hdate, -, hle, hG, hV, hu⟩ := h.render_weekDate zone
  obtain ⟨year', week', weekday', hdate', -, hle', hG', hV', hu'⟩ := h'.render_weekDate zone'
  have hyear : year' = year := by
    rw [← toString_int_inj, ← Bytes.ofText_inj, ← hG, ← hG']
    exact htexts "%G" (by simp)
  have hweek : week' = week := by
    rw [← twoDigits_inj (by omega) (by omega), ← Bytes.ofText_inj, ← hV, ← hV']
    exact htexts "%V" (by simp)
  have hweekday : weekday' = weekday := by
    rw [← toString_int_inj, ← Bytes.ofText_inj, ← hu, ← hu']
    exact htexts "%u" (by simp)
  subst hyear hweek hweekday
  exact hdate'.unique hdate

theorem OnDay.render_sundayWeek (h : c.OnDay days) (zone : Int) :
    c.render (Bytes.ofText "%U") zone =
      Bytes.ofText (twoDigits (countWeekday 0 (daysToYear c.fullYear) (days + 1))) := by
  have hnumber := c.render_field zone "%U" 85 rfl (by decide) rfl
  rw [hnumber, ← number_two (h.countWeekday_lt (by decide)), ← h.sundayWeek_eq]
  rfl

theorem OnDay.render_mondayWeek (h : c.OnDay days) (zone : Int) :
    c.render (Bytes.ofText "%W") zone =
      Bytes.ofText (twoDigits (countWeekday 1 (daysToYear c.fullYear) (days + 1))) := by
  have hnumber := c.render_field zone "%W" 87 rfl (by decide) rfl
  rw [hnumber, ← number_two (h.countWeekday_lt (by decide)), ← h.mondayWeek_eq]
  rfl

end Texts

/-- The week directives of an instant: year, week and weekday of ISO 8601, of which the week is one
from 1 to 53 and which all three together name the day, and the number of Sundays and of Mondays of
the year up to the day. -/
theorem week_directives {t minutesWest : Int} {c : Calendar}
    (hc : ofInstant? t minutesWest = some c) (zone : Int) :
    (∃ year week weekday, IsWeekDate (shifted t minutesWest / 86400) year week weekday ∧
      1 ≤ week ∧ week ≤ 53 ∧
      c.render (Bytes.ofText "%G") zone = Bytes.ofText (toString year) ∧
      c.render (Bytes.ofText "%V") zone = Bytes.ofText (twoDigits week) ∧
      c.render (Bytes.ofText "%u") zone = Bytes.ofText (toString weekday)) ∧
    (∀ t' minutesWest' c' zone', ofInstant? t' minutesWest' = some c' →
      (∀ format ∈ ["%G", "%V", "%u"],
        c'.render (Bytes.ofText format) zone' = c.render (Bytes.ofText format) zone) →
      shifted t' minutesWest' / 86400 = shifted t minutesWest / 86400) ∧
    InYear (shifted t minutesWest / 86400) c.fullYear ∧
    c.render (Bytes.ofText "%U") zone = Bytes.ofText (twoDigits
      (countWeekday 0 (daysToYear c.fullYear) (shifted t minutesWest / 86400 + 1))) ∧
    c.render (Bytes.ofText "%W") zone = Bytes.ofText (twoDigits
      (countWeekday 1 (daysToYear c.fullYear) (shifted t minutesWest / 86400 + 1))) := by
  have hday := onDay_of_ofInstant? hc
  refine ⟨hday.render_weekDate zone, ?_, hday.inYear, hday.render_sundayWeek zone,
    hday.render_mondayWeek zone⟩
  intro t' minutesWest' c' zone' hc' htexts
  exact hday.eq_of_render (onDay_of_ofInstant? hc') htexts

/-- New Year's Day of 2021, a Friday, is in the last week of a year of 53, and no Sunday of its own
year has come yet. -/
theorem week_directives_newYear : ∃ c, ofInstant? 1609459200 0 = some c ∧ c.fullYear = 2021 ∧
    IsWeekDate 18628 2020 53 5 ∧ c.render (Bytes.ofText "%U") 0 = Bytes.ofText "00" := by
  have hc : ofInstant? 1609459200 0 = some
      { second := 0, minute := 0, hour := 0, day := 1, month := 0, year := 121, weekday := 5,
        yearDay := 0, daylight := 0 } := by decide
  obtain ⟨⟨year, week, weekday, hdate, -, hle, hG, hV, hu⟩, -, -, hU, -⟩ := week_directives hc 0
  have hyear : year = 2020 := by
    rw [render_field _ _ "%G" 71 rfl (by decide) rfl, Bytes.ofText_inj] at hG
    exact toString_int_inj.mp (hG.symm.trans (by decide))
  have hweek : week = 53 := by
    rw [render_field _ _ "%V" 86 rfl (by decide) rfl, Bytes.ofText_inj] at hV
    exact (twoDigits_inj (by omega) (by decide)).mp (hV.symm.trans (by decide))
  have hweekday : weekday = 5 := by
    rw [render_field _ _ "%u" 117 rfl (by decide) rfl, Bytes.ofText_inj] at hu
    exact toString_int_inj.mp (hu.symm.trans (by decide))
  rw [hyear, hweek, hweekday] at hdate
  refine ⟨_, hc, by decide, hdate, hU.trans (congrArg Bytes.ofText ?_)⟩
  rw [daysToYear_eq]
  decide

end Calendar
end GuestLibrary
