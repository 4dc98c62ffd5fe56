import GuestLibrary.Calendar.Format
import GuestLibrary.Proofs.Calendar.Proleptic

/-! Two ways to write an instant. The text of a record is padded column by column, a format is
expanded directive by directive; where the fields of a record are in their ranges, as those of an
instant are, both write the same. -/
namespace GuestLibrary
namespace Calendar

section Numbers

variable {value : Int}

theorem toString_of_nonneg (h : 0 ≤ value) : toString value = toString value.natAbs := by
  rw [Int.toString_eq_repr, Int.repr_eq_if, if_pos h, Nat.toString_eq_repr,
    show value.toNat = value.natAbs by omega]

theorem toString_of_neg (h : value < 0) : toString value = "-" ++ toString value.natAbs := by
  rw [Int.toString_eq_repr, Int.repr_eq_if, if_neg (by omega), Nat.toString_eq_repr,
    show (-value).toNat = value.natAbs by omega]

theorem number_of_nonneg (h : 0 ≤ value) (width : Nat) (pad : Char) :
    number value width pad =
      String.ofList (List.replicate (width - (toString value).length) pad) ++ toString value := by
  rw [toString_of_nonneg h, number, if_neg (by omega), String.empty_append]

/-- One digit is written without padding. -/
theorem number_one (value : Int) (pad : Char) : number value 1 pad = toString value := by
  have hlength : 1 ≤ (toString value.natAbs).length := by
    rw [Nat.toString_eq_ofList_toDigits, String.length_ofList]
    exact Nat.length_toDigits_pos
  unfold number
  dsimp only
  rw [Nat.sub_eq_zero_of_le hlength]
  by_cases h : value < 0
  · simp [h, toString_of_neg h]
  · simp [h, toString_of_nonneg (not_lt.mp h)]

theorem zeroPadded_of_nonneg (h : 0 ≤ value) (width : Nat) :
    zeroPadded value width = number value width '0' := by
  rw [zeroPadded, if_neg (by omega)]

theorem blankPadded_of_nonneg (h : 0 ≤ value) (width : Nat) :
    blankPadded value width = number value width ' ' := by
  rw [number_of_nonneg h, blankPadded]

/-- Up to two digits fill three columns as a blank and two columns. -/
theorem number_three (h : 0 ≤ value) (hlt : value < 100) (pad : Char) :
    number value 3 pad = String.singleton pad ++ number value 2 pad := by
  have hlength : (toString value).length ≤ 2 := by
    rw [toString_of_nonneg h, Nat.toString_eq_ofList_toDigits, String.length_ofList]
    exact (Nat.length_toDigits_le_iff (by decide) (by decide)).mpr (by omega)
  rw [number_of_nonneg h, number_of_nonneg h,
    show 3 - (toString value).length = 2 - (toString value).length + 1 by omega,
    List.replicate_succ, ← String.append_assoc, ← List.singleton_append, String.ofList_append]
  rfl

/-- A number below 100 in two digits. -/
def twoDigits (n : Nat) : String := toString (n / 10) ++ toString (n % 10)

theorem number_two {n : Nat} (h : n < 100) : number n 2 '0' = twoDigits n := by
  rw [number_of_nonneg (Int.natCast_nonneg n), toString_of_nonneg (Int.natCast_nonneg n),
    Int.natAbs_natCast, twoDigits]
  simp only [Nat.toString_eq_repr]
  by_cases hn : n < 10
  · rw [Nat.div_eq_of_lt hn, Nat.mod_eq_of_lt hn, Nat.repr_of_lt hn, String.length_singleton]
    exact congrArg (· ++ String.singleton n.digitChar) (by decide)
  · rw [Nat.repr_eq_repr_append_repr (by omega), Nat.repr_of_lt (by omega : n / 10 < 10),
      Nat.repr_of_lt (by omega : n % 10 < 10), String.length_append]
    simp only [String.length_singleton]
    simp

/-- The digits read back give the number. -/
theorem ofDigitChars_number (h : 0 ≤ value) (width : Nat) :
    Nat.ofDigitChars 10 (number value width '0').toList 0 = value.natAbs := by
  rw [number_of_nonneg h, toString_of_nonneg h, Nat.toString_eq_ofList_toDigits]
  simp [Nat.ofDigitChars_append, Nat.ofDigitChars_replicate_zero, Nat.ofDigitChars_ten_toDigits]

theorem twoDigits_inj {m n : Nat} (hm : m < 100) (hn : n < 100) :
    twoDigits m = twoDigits n ↔ m = n := by
  refine ⟨fun h => ?_, congrArg twoDigits⟩
  rw [← number_two hm, ← number_two hn] at h
  have hread := ofDigitChars_number (Int.natCast_nonneg m) 2
  rw [h, ofDigitChars_number (Int.natCast_nonneg n) 2] at hread
  exact hread.symm

end Numbers

section Rendering

variable (c : Calendar) (minutesWest : Int)

/-- A directive that abbreviates nothing is written as its field. -/
theorem render_field (format : String) (directive : UInt8)
    (hformat : format.toByteArray.data.toList = [37, directive])
    (hdirective : directive ≠ 0 ∧ directive ≠ 69 ∧ directive ≠ 79)
    (hfield : abbreviation? (Char.ofNat directive.toNat) = none) :
    c.render (Bytes.ofText format) minutesWest =
      Bytes.ofText (c.field minutesWest (Char.ofNat directive.toNat)) := by
  rw [Bytes.ofText_eq, hformat]
  simp [render, CString.content, expandFrom, hdirective, directiveText, hfield]

theorem render_date : c.render (Bytes.ofText "%c") minutesWest =
    Bytes.ofText (shortName c.weekdayName ++ " " ++ shortName c.monthName ++ " " ++
      number c.day 2 ' ' ++ " " ++ number c.hour 2 '0' ++ ":" ++ number c.minute 2 '0' ++ ":" ++
        number c.second 2 '0' ++ " " ++ number c.fullYear 1 '0') := by
  have hformat : Bytes.ofText "%c" = [37, 99] := Bytes.ofText_eq _
  have hdate : Bytes.ofText "%a %b %e %H:%M:%S %Y" =
      [37, 97, 32, 37, 98, 32, 37, 101, 32, 37, 72, 58, 37, 77, 58, 37, 83, 32, 37, 89] :=
    Bytes.ofText_eq _
  have hblank : Bytes.ofText " " = [32] := Bytes.ofText_eq _
  have hcolon : Bytes.ofText ":" = [58] := Bytes.ofText_eq _
  rw [hformat]
  simp only [Bytes.ofText_append, hblank, hcolon]
  simp [render, CString.content, expandFrom, directiveText, abbreviation?, hdate]
  rfl

end Rendering

/-- The columns of a record whose day and time of day are in their ranges. -/
theorem text_of_inRange {c : Calendar} (hday : 0 ≤ c.day ∧ c.day < 100) (hhour : 0 ≤ c.hour)
    (hminute : 0 ≤ c.minute) (hsecond : 0 ≤ c.second) :
    c.text = shortName c.weekdayName ++ " " ++ shortName c.monthName ++ " " ++
      number c.day 2 ' ' ++ " " ++ number c.hour 2 '0' ++ ":" ++ number c.minute 2 '0' ++ ":" ++
        number c.second 2 '0' ++ " " ++ number c.fullYear 1 '0' ++ "\n" := by
  have hcolumns : blankPadded c.day 3 = " " ++ number c.day 2 ' ' := by
    rw [blankPadded_of_nonneg hday.1, number_three hday.1 hday.2]
    rfl
  unfold text
  rw [hcolumns, zeroPadded_of_nonneg hhour, zeroPadded_of_nonneg hminute,
    zeroPadded_of_nonneg hsecond, number_one]
  simp only [String.append_assoc]

/-- An instant is written with a newline behind it as the format `%c` expands to, whatever the zone
is. -/
theorem text_eq_render {t minutesWest : Int} {c : Calendar} (hc : ofInstant? t minutesWest = some c)
    (zone : Int) : Bytes.ofText c.text = c.render (Bytes.ofText "%c") zone ++ [10] := by
  have hshown := shows_of_ofInstant? hc
  have hlength := (daysInMonth_bounds c.fullYear c.month.toNat).2
  have hday := hshown.day
  have hnewline : Bytes.ofText "\n" = [10] := Bytes.ofText_eq _
  rw [text_of_inRange (by omega) hshown.hour.1 hshown.minute.1 hshown.second.1, Bytes.ofText_append,
    hnewline, render_date]

/-- The columns do not end with four digits of a year, nor with its sign. -/
theorem text_eq_render_early : ∃ c, ofInstant? (-400000000000) 90 = some c ∧
    c.text = "Sat Jul  3 07:23:20 -10706\n" ∧
    Bytes.ofText c.text = c.render (Bytes.ofText "%c") 0 ++ [10] := by
  have hc : ofInstant? (-400000000000) 90 = some
      { second := 20, minute := 23, hour := 7, day := 3, month := 6, year := -12606, weekday := 6,
        yearDay := 183, daylight := -1 } := by decide
  exact ⟨_, hc, by decide, text_eq_render hc 0⟩

end Calendar
end GuestLibrary
