import GuestLibrary.Proofs.Calendar.Machine

/-! Nothing in the calendar overflows or looks behind the end of a table. Every field of a record
may be any `int`, so the numbers of days and weeks, the years and the offset of the zone are bounded
by what a record can hold, not by what an instant would put there; then every directive has a text,
and a format is read inside its length. -/
namespace GuestLibrary
namespace Calendar

open SignedRange (long int)

namespace Machine

section Fields

variable {c : Calendar}

theorem fullYear_eq (hc : c.Representable) : fullYear c = .ok c.fullYear := by
  have hyear := contains_int_iff.mp hc.year
  exact long_word (by omega) (by omega)

@[simp] theorem nameAt_eq (names : List String) (i : Int) :
    nameAt names i = Calendar.nameAt names i := by
  unfold nameAt Calendar.nameAt
  by_cases hi : i < 0
  · rw [Trap.indexOf, if_neg (by omega), if_pos hi]
    rfl
  · rw [Trap.indexOf_eq (by omega), Trap.ok_bind, if_neg hi]
    by_cases hlt : i.toNat < names.length
    · rw [Trap.entry_eq hlt "?"]
    · simp [Trap.entry, hlt]

theorem text_eq (hc : c.Representable) : text c = .ok c.text := by
  unfold text
  rw [fullYear_eq hc, Trap.ok_bind]
  simp only [nameAt_eq]
  rfl

theorem number_eq {value : Int} (hlo : -9223372036854775808 ≤ value)
    (hhi : value ≤ 9223372036854775807) (width : Nat) (pad : Char) :
    number value width pad = .ok (Calendar.number value width pad) := by
  have hword : wordLimit = 18446744073709551616 := rfl
  have hsize : Trap.size value.natAbs = .ok value.natAbs := Trap.size_eq (by omega)
  unfold number
  simp only [long_word hlo hhi, hsize, Trap.ok_bind, Trap.pure_eq_ok]

theorem mondayWeekday_eq (hc : c.Representable) : mondayWeekday c = .ok c.mondayWeekday := by
  have hweekday := contains_int_iff.mp hc.weekday
  unfold mondayWeekday Calendar.mondayWeekday
  simp (disch := omega) only [SignedRange.sum, SignedRange.remainder_of_pos, long_word, Trap.ok_bind]

theorem lastWeekday_eq {year : Int} (h : -4611686018427387904 ≤ year ∧ year ≤ 4611686018427387904) :
    lastWeekday year = .ok (Calendar.lastWeekday year) := by
  unfold lastWeekday Calendar.lastWeekday
  simp (disch := omega) only [SignedRange.sum, SignedRange.difference,
    SignedRange.quotient_of_pos, SignedRange.remainder_of_pos, long_word, Trap.ok_bind]

theorem isoWeeks_eq {year : Int} (h : -4611686018427387903 ≤ year ∧ year ≤ 4611686018427387904) :
    isoWeeks year = .ok (Calendar.isoWeeks year) := by
  unfold isoWeeks Calendar.isoWeeks
  simp (disch := omega) only [SignedRange.difference, lastWeekday_eq, long_word, Trap.ok_bind]
  rfl

theorem mondayWeekday_bounds (c : Calendar) : 0 ≤ c.mondayWeekday ∧ c.mondayWeekday ≤ 6 := by
  unfold Calendar.mondayWeekday
  omega

theorem isoWeek_eq (hc : c.Representable) : isoWeek c = .ok c.isoWeek := by
  have hyear := contains_int_iff.mp hc.year
  have hyearDay := contains_int_iff.mp hc.yearDay
  have hmonday := mondayWeekday_bounds c
  have hfull : c.fullYear = 1900 + c.year := rfl
  unfold isoWeek Calendar.isoWeek
  simp (disch := omega) only [fullYear_eq hc, mondayWeekday_eq hc, SignedRange.sum,
    SignedRange.difference, SignedRange.truncated_of_pos, isoWeeks_eq, long_word, Trap.ok_bind]
  by_cases hfirst : (c.yearDay - c.mondayWeekday + 10).tdiv 7 < 1
  · rw [if_pos hfirst, if_pos hfirst]
    rfl
  · rw [if_neg hfirst, if_neg hfirst]
    exact (apply_ite Except.ok _ _ _).symm

theorem isoWeek_bounds (hc : c.Representable) :
    -2147481749 ≤ c.isoWeek.1 ∧ c.isoWeek.1 ≤ 2147485548 ∧ 0 ≤ c.isoWeek.2 ∧ c.isoWeek.2 ≤ 53 := by
  have hyear := contains_int_iff.mp hc.year
  have hfull : c.fullYear = 1900 + c.year := rfl
  have hweeks (year : Int) : 52 ≤ Calendar.isoWeeks year ∧ Calendar.isoWeeks year ≤ 53 := by
    unfold Calendar.isoWeeks
    split <;> decide
  have hthis := hweeks c.fullYear
  have hlast := hweeks (c.fullYear - 1)
  unfold Calendar.isoWeek
  dsimp only
  split
  · dsimp only
    omega
  · split
    · dsimp only
      omega
    · dsimp only
      omega

theorem twelveHour_eq (hour : Int) : twelveHour hour = .ok (Calendar.twelveHour hour) := by
  unfold twelveHour
  rw [SignedRange.remainder_of_pos (by decide)]
  rfl

theorem twelveHour_bounds (hour : Int) :
    1 ≤ Calendar.twelveHour hour ∧ Calendar.twelveHour hour ≤ 12 := by
  unfold Calendar.twelveHour
  split <;> omega

theorem zoneText_eq {minutesWest : Int} (hwest : int.contains minutesWest = true) :
    zoneText minutesWest = .ok (Calendar.zoneText minutesWest) := by
  rw [contains_int_iff] at hwest
  have heast : ((-minutesWest).natAbs : Int) = minutesWest.natAbs := by rw [Int.natAbs_neg]
  unfold zoneText Calendar.zoneText
  simp (disch := omega) only [SignedRange.negation, SignedRange.magnitude,
    SignedRange.truncated_of_nonneg, SignedRange.truncatedRest_of_nonneg, number_eq, long_word,
    heast, Left.neg_neg_iff, Trap.ok_bind]
  rfl

/-- A week is written as a number of two digits. -/
theorem number_weekFrom {yearDay weekday : Int}
    (hyearDay : -2147483648 ≤ yearDay ∧ yearDay ≤ 2147483647)
    (hweekday : -2147483648 ≤ weekday ∧ weekday ≤ 2147483647) :
    (do number (← weekFrom yearDay weekday) 2 '0') =
      .ok (Calendar.number ((yearDay + 7 - weekday).tdiv 7) 2 '0') := by
  have hweek := Int.natAbs_tdiv_le_natAbs (yearDay + 7 - weekday) 7
  unfold weekFrom
  simp (disch := omega) only [SignedRange.sum, SignedRange.difference, SignedRange.truncated_of_pos,
    number_eq, long_word, Trap.ok_bind]

theorem field_eq (hc : c.Representable) {minutesWest : Int}
    (hwest : int.contains minutesWest = true) (directive : Char) :
    field c minutesWest directive = .ok (c.field minutesWest directive) := by
  have hday := contains_int_iff.mp hc.day
  have hmonth := contains_int_iff.mp hc.month
  have hyear := contains_int_iff.mp hc.year
  have hhour := contains_int_iff.mp hc.hour
  have hminute := contains_int_iff.mp hc.minute
  have hsecond := contains_int_iff.mp hc.second
  have hweekday := contains_int_iff.mp hc.weekday
  have hyearDay := contains_int_iff.mp hc.yearDay
  have hfull : c.fullYear = 1900 + c.year := rfl
  have htwelve := twelveHour_bounds c.hour
  have hmonday := mondayWeekday_bounds c
  have hiso := isoWeek_bounds hc
  unfold field
  rw [fullYear_eq hc, Trap.ok_bind]
  split <;>
    simp (disch := omega) only [nameAt_eq, isoWeek_eq hc, mondayWeekday_eq hc, twelveHour_eq,
      zoneText_eq hwest, number_weekFrom, SignedRange.sum, number_eq, long_word,
      SignedRange.quotient_of_pos, SignedRange.remainder_of_pos, Trap.ok_bind, Trap.pure_eq_ok] <;>
    rfl

end Fields

section Expansion

variable {checked : Char → Except Trap Bytes} {meaning : Char → Bytes} {format : Bytes}

theorem getElem?_of_drop_eq_cons {i : Nat} {b : UInt8} {rest : Bytes}
    (h : format.drop i = b :: rest) : format[i]? = some b ∧ format.drop (i + 1) = rest := by
  constructor
  · rw [← List.head?_drop, h]
    rfl
  · rw [← List.drop_drop, h]
    rfl

theorem expandFrom_percent (meaning : Char → Bytes) (rest : Bytes) :
    Calendar.expandFrom meaning .percent rest = Calendar.expandFrom meaning .modified
      (if rest.head? = some 69 ∨ rest.head? = some 79 then rest.drop 1 else rest) := by
  cases rest with
  | nil => rfl
  | cons b rest =>
    by_cases hb : b = 69 ∨ b = 79
    · simp [Calendar.expandFrom, hb]
    · simp [Calendar.expandFrom, hb]

/-- The offset walks over the format as the expansion of its rest does. -/
theorem expandFrom_eq (hm : ∀ d, checked d = .ok (meaning d))
    (hsize : format.length < 9223372036854775808) (i : Nat) :
    expandFrom checked format i = .ok (Calendar.expandFrom meaning .plain (format.drop i)) := by
  have hword : wordLimit = 18446744073709551616 := rfl
  induction hn : format.length - i using Nat.strong_induction_on generalizing i with
  | _ n ih =>
    unfold expandFrom
    by_cases hi : i < format.length
    · have hdrop : format.drop i = format[i] :: format.drop (i + 1) := List.drop_eq_getElem_cons hi
      have hentry : Trap.entry format i = .ok format[i] := by
        simp [Trap.entry, hi]
      rw [if_pos hi, hdrop]
      unfold Calendar.expandFrom
      rw [hentry, Trap.size_eq (by omega)]
      simp only [Trap.ok_bind]
      by_cases hb : format[i] = 37
      · obtain ⟨at_, hle, hat, hstate⟩ : ∃ at_, (i < at_ ∧ at_ ≤ i + 2) ∧
            (i + 1 + if format[i + 1]? = some 69 ∨ format[i + 1]? = some 79 then 1 else 0) = at_ ∧
            Calendar.expandFrom meaning .percent (format.drop (i + 1)) =
              Calendar.expandFrom meaning .modified (format.drop at_) := by
          rw [expandFrom_percent, List.head?_drop, List.drop_drop]
          by_cases hmodified : format[i + 1]? = some 69 ∨ format[i + 1]? = some 79
          · exact ⟨i + 2, by omega, by rw [if_pos hmodified], by rw [if_pos hmodified]⟩
          · exact ⟨i + 1, by omega, by rw [if_neg hmodified], by rw [if_neg hmodified]⟩
        rw [if_neg (not_not.mpr hb), if_pos hb, hat, hstate, Trap.size_eq (by omega), Trap.ok_bind]
        rcases hrest : format.drop at_ with _ | ⟨directive, rest⟩
        · rw [← List.head?_drop, hrest]
          rfl
        · obtain ⟨hsome, htail⟩ := getElem?_of_drop_eq_cons hrest
          rw [hsome]
          dsimp only
          rw [Trap.size_eq (by omega), hm, ih _ (by omega) (at_ + 1) rfl, htail]
          rfl
      · rw [if_pos hb, if_neg hb, ih _ (by omega) (i + 1) rfl]
        rfl
    · rw [if_neg hi, List.drop_eq_nil_of_le (by omega)]
      rfl

theorem length_abbreviation {directive : Char} {abbreviated : String}
    (h : abbreviation? directive = some abbreviated) :
    (Bytes.ofText abbreviated).length ≤ 20 := by
  unfold abbreviation? at h
  split at h <;> cases h <;> (rw [Bytes.ofText_eq]; decide)

theorem directiveText_eq {c : Calendar} (hc : c.Representable) {minutesWest : Int}
    (hwest : int.contains minutesWest = true) (directive : Char) :
    directiveText c minutesWest directive = .ok (c.directiveText minutesWest directive) := by
  have hfield (d : Char) : Bytes.ofText <$> field c minutesWest d =
      .ok (Bytes.ofText (c.field minutesWest d)) := by
    rw [field_eq hc hwest]
    rfl
  unfold directiveText Calendar.directiveText
  cases habbreviation : abbreviation? directive with
  | none => exact hfield directive
  | some abbreviated =>
    have hlength := length_abbreviation habbreviation
    exact expandFrom_eq hfield (by omega) 0

theorem render_eq {c : Calendar} (hc : c.Representable) {minutesWest : Int}
    (hwest : int.contains minutesWest = true) (hsize : format.length < 9223372036854775808) :
    render format c minutesWest = .ok (c.render format minutesWest) := by
  have hword : wordLimit = 18446744073709551616 := rfl
  have hcontent : (CString.content format).length ≤ format.length :=
    (List.takeWhile_sublist _).length_le
  unfold render Calendar.render
  dsimp only
  rw [Trap.size_eq (by omega), Trap.ok_bind]
  exact expandFrom_eq (directiveText_eq hc hwest) (by omega) 0

end Expansion

end Machine

/-- What the calendar computes on machine words is what it computes on numbers, without a trap: for
every instant and zone, for every record of `int` fields, and for every format that memory can hold.
Every record of an instant is one of `int` fields. -/
theorem never_traps :
    (∀ t minutesWest : Int, int.contains minutesWest = true →
      Machine.ofInstant? t minutesWest = .ok (ofInstant? t minutesWest) ∧
        ∀ c, ofInstant? t minutesWest = some c → c.Representable) ∧
    ∀ c : Calendar, c.Representable →
      Machine.toInstant c = .ok c.toInstant ∧ Machine.text c = .ok c.text ∧
        ∀ (format : Bytes) (minutesWest : Int), format.length < 2 ^ 63 →
          int.contains minutesWest = true →
            Machine.render format c minutesWest = .ok (c.render format minutesWest) := by
  constructor
  · intro t minutesWest hwest
    exact ⟨Machine.ofInstant?_eq t hwest, fun c => Machine.representable_of_ofInstant?⟩
  · intro c hc
    refine ⟨Machine.toInstant_eq hc, Machine.text_eq hc, ?_⟩
    intro format minutesWest hsize hwest
    exact Machine.render_eq hc hwest hsize

/-- The least `int` everywhere: in the fields of a record and as the zone, which is negated. -/
theorem never_traps_least : ∃ c : Calendar,
    c = ⟨-2147483648, -2147483648, -2147483648, -2147483648, -2147483648, -2147483648, -2147483648,
      -2147483648, -2147483648⟩ ∧
    Machine.toInstant c = .ok (-73610289201705718) ∧
    Machine.render (Bytes.ofText "%z") c (-2147483648) =
      .ok (c.render (Bytes.ofText "%z") (-2147483648)) := by
  refine ⟨_, rfl, ?_⟩
  have hleast : int.contains (-2147483648) = true := by decide
  obtain ⟨hinstant, -, htext⟩ := never_traps.2 ⟨-2147483648, -2147483648, -2147483648, -2147483648,
    -2147483648, -2147483648, -2147483648, -2147483648, -2147483648⟩
    ⟨hleast, hleast, hleast, hleast, hleast, hleast, hleast, hleast, hleast⟩
  refine ⟨hinstant.trans (by decide), htext _ _ ?_ hleast⟩
  rw [Bytes.ofText_eq]
  decide

end Calendar
end GuestLibrary
