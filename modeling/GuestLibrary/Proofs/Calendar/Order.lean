import GuestLibrary.Proofs.Calendar.Proleptic

/-! The order of instants is the order of their records, compared field by field from the year down
to the second: a later year is later whatever month and day are, and so on down. -/
namespace GuestLibrary
namespace Calendar

/-- A comparison decided by a leading part, and where that is the same on both sides by `rest`. -/
theorem compare_eq_then {α β : Type*} [LinearOrder α] [LinearOrder β] {a b : α} {p q : β}
    {rest : Ordering} (hlt : p < q → a < b) (hgt : q < p → b < a)
    (heq : p = q → compare a b = rest) : compare a b = (compare p q).then rest := by
  rcases lt_trichotomy p q with h | h | h
  · rw [compare_lt_iff_lt.mpr h, compare_lt_iff_lt.mpr (hlt h)]
    rfl
  · rw [compare_eq_iff_eq.mpr h, heq h]
    rfl
  · rw [compare_gt_iff_gt.mpr h, compare_gt_iff_gt.mpr (hgt h)]
    rfl

/-- Year, month, day, hour, minute and second, the months counted from 1 as the days are. -/
def fields (c : Calendar) : List Int :=
  [c.fullYear, c.month + 1, c.day, c.hour, c.minute, c.second]

theorem daysIntoYear_add_le_of_lt {year : Int} {month month' : Nat} (h : month < month')
    (hle : month' ≤ 11) :
    daysIntoYear year month + daysInMonth year month ≤ daysIntoYear year month' := by
  rw [← daysIntoYear_succ year (by omega), ← sum_daysInMonth year (by omega),
    ← sum_daysInMonth year hle]
  exact Finset.sum_le_sum_of_subset_of_nonneg (Finset.range_subset_range.mpr h)
    fun m _ _ => (daysInMonth_bounds year m).1

section Shown

variable {c c' : Calendar} {u u' : Int}

theorem Shows.dayNumber_eq (h : c.Shows u) : c.dayNumber =
    daysBeforeYear c.fullYear + (daysIntoYear c.fullYear c.month.toNat + (c.day - 1)) := by
  have hmonth := h.month
  rw [dayNumber, daysToYear_eq, daysBeforeDate, sum_daysInMonth _ (by omega)]

theorem Shows.within_year (h : c.Shows u) :
    daysBeforeYear c.fullYear ≤ c.dayNumber ∧
      c.dayNumber < daysBeforeYear (c.fullYear + 1) := by
  have hmonth := h.month
  have hday := h.day
  have hnumber := h.dayNumber_eq
  have hfirst := @daysIntoYear_nonneg c.fullYear c.month.toNat (by omega)
  have hlast := @daysIntoYear_add_le c.fullYear c.month.toNat (by omega)
  have hnext := daysBeforeYear_succ c.fullYear
  omega

theorem Shows.lt_of_dayNumber_lt (h : c.Shows u) (h' : c'.Shows u')
    (hdays : c.dayNumber < c'.dayNumber) : u < u' := by
  have hu := h.instant
  have hu' := h'.instant
  have htime := And.intro h.hour (And.intro h.minute h.second)
  have htime' := And.intro h'.hour (And.intro h'.minute h'.second)
  omega

theorem Shows.lt_of_year_lt (h : c.Shows u) (h' : c'.Shows u') (hyear : c.fullYear < c'.fullYear) :
    u < u' := by
  have hfirst := h.within_year.2
  have hlast := h'.within_year.1
  have hmono : daysBeforeYear (c.fullYear + 1) ≤ daysBeforeYear c'.fullYear :=
    daysBeforeYear_strictMono.monotone hyear
  exact h.lt_of_dayNumber_lt h' (by omega)

theorem Shows.lt_of_month_lt (h : c.Shows u) (h' : c'.Shows u') (hyear : c.fullYear = c'.fullYear)
    (hmonth : c.month < c'.month) : u < u' := by
  have hrange := h.month
  have hrange' := h'.month
  have hday := h.day
  have hday' := h'.day
  have hnumber := h.dayNumber_eq
  have hnumber' := h'.dayNumber_eq
  have hmonths := @daysIntoYear_add_le_of_lt c.fullYear c.month.toNat c'.month.toNat (by omega)
    (by omega)
  rw [← hyear] at hnumber'
  exact h.lt_of_dayNumber_lt h' (by omega)

theorem Shows.dayNumber_sub (h : c.Shows u) (h' : c'.Shows u') (hyear : c.fullYear = c'.fullYear)
    (hmonth : c.month = c'.month) : c'.dayNumber - c.dayNumber = c'.day - c.day := by
  rw [h.dayNumber_eq, h'.dayNumber_eq, hyear, hmonth]
  ring

/-- Instants compare as the fields of their records do. -/
theorem Shows.compare_eq (h : c.Shows u) (h' : c'.Shows u') :
    compare u u' = compare c.fields c'.fields := by
  have hu := h.instant
  have hu' := h'.instant
  have htime := And.intro h.hour (And.intro h.minute h.second)
  have htime' := And.intro h'.hour (And.intro h'.minute h'.second)
  simp only [fields, List.compare_cons_cons, List.compare_nil_nil]
  refine compare_eq_then (h.lt_of_year_lt h') (h'.lt_of_year_lt h) fun hyear => ?_
  refine compare_eq_then (fun hmonth => h.lt_of_month_lt h' hyear (by omega))
    (fun hmonth => h'.lt_of_month_lt h hyear.symm (by omega)) fun hmonth => ?_
  have hdays := h.dayNumber_sub h' hyear (by omega)
  refine compare_eq_then (fun _ => by omega) (fun _ => by omega) fun hday => ?_
  refine compare_eq_then (fun _ => by omega) (fun _ => by omega) fun hhour => ?_
  refine compare_eq_then (fun _ => by omega) (fun _ => by omega) fun hminute => ?_
  refine compare_eq_then (fun _ => by omega) (fun _ => by omega) fun hsecond => ?_
  exact compare_eq_iff_eq.mpr (by omega)

end Shown
end Calendar
end GuestLibrary
