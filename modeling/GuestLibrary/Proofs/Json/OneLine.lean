import GuestLibrary.Json.Writer
import GuestLibrary.Proofs.Calendar.Text
import GuestLibrary.Proofs.Text.Splitting

/-! A value written without indentation stays on one line, whatever its strings hold: a newline in
a string is escaped, and nothing else that is written has one. -/
namespace GuestLibrary

namespace Decimal

theorem newline_not_mem_toString (i : Int) : '\n' ∉ (toString i).toList := by
  by_cases hneg : i < 0
  · rw [Calendar.toString_of_neg hneg, Nat.toString_eq_ofList_toDigits]
    simp [Text.newline_not_mem_toDigits]
  · rw [Calendar.toString_of_nonneg (by omega), Nat.toString_eq_ofList_toDigits]
    simp [Text.newline_not_mem_toDigits]

theorem newline_not_mem_exponentText (e : Int) : '\n' ∉ (exponentText e).toList := by
  have hsign : '\n' ∉ (if 0 ≤ e then "+" else "").toList := by split <;> decide
  simp only [exponentText, String.toList_append, List.mem_append, hsign,
    newline_not_mem_toString, or_false]
  decide

theorem newline_not_mem_text (x : Double) : '\n' ∉ (text x).toList := by
  have hdigits := Text.newline_not_mem_toDigits (shortest x.magnitude).1
  have htake : ∀ n, '\n' ∉ (Nat.toDigits 10 (shortest x.magnitude).1).take n :=
    fun n h => hdigits (List.mem_of_mem_take h)
  have hdrop : ∀ n, '\n' ∉ (Nat.toDigits 10 (shortest x.magnitude).1).drop n :=
    fun n h => hdigits (List.mem_of_mem_drop h)
  rw [text, String.toList_append, List.mem_append, not_or, magnitudeText]
  refine ⟨by split <;> decide, ?_⟩
  split
  · decide
  · dsimp only
    split_ifs <;>
      simp [newline_not_mem_exponentText, hdigits, htake, hdrop, ← List.drop_one]

end Decimal

namespace Json

theorem newline_not_mem_quoteChar (c : Char) : '\n' ∉ quoteChar c := by
  have hcontrol : ∀ n < 32, '\n' ∉ (Text.hexPadded 4 n).toList := by decide
  unfold quoteChar
  split <;> try decide
  case h_8 hnewline _ _ _ _ =>
    split
    · next h => simp [hcontrol _ h]
    · simpa using Ne.symm hnewline

theorem newline_not_mem_quote (s : String) : '\n' ∉ (quote s).toList := by
  simp [quote, newline_not_mem_quoteChar]

theorem newline_not_mem_intercalate {texts : List String} (h : ∀ s ∈ texts, '\n' ∉ s.toList) :
    '\n' ∉ (String.intercalate "," texts).toList := by
  rw [String.toList_intercalate]
  induction texts with
  | nil => simp
  | cons s texts ih =>
    obtain ⟨hs, htexts⟩ := List.forall_mem_cons.mp h
    cases texts with
    | nil => simpa using hs
    | cons next texts =>
      have hrest := ih htexts
      rw [List.map_cons] at hrest
      rw [List.map_cons, List.map_cons, List.intercalate_cons_cons]
      simpa [hs] using hrest

mutual

/-- A value takes one line. -/
theorem newline_not_mem_compact : ∀ v : Json, '\n' ∉ v.compact.toList
  | .null => by decide
  | .bool b => by cases b <;> decide
  | .integer i => Decimal.newline_not_mem_toString i
  | .real x => Decimal.newline_not_mem_text x
  | .text s => newline_not_mem_quote s
  | .array items => by
    rw [compact]
    simpa using newline_not_mem_intercalate (newline_not_mem_compactItems items)
  | .object members => by
    rw [compact]
    simpa using newline_not_mem_intercalate (newline_not_mem_compactMembers members)

theorem newline_not_mem_compactItems :
    ∀ items : List Json, ∀ s ∈ compactItems items, '\n' ∉ s.toList
  | [] => by simp [compactItems]
  | item :: rest => by
    rw [compactItems]
    exact List.forall_mem_cons.mpr
      ⟨newline_not_mem_compact item, newline_not_mem_compactItems rest⟩

theorem newline_not_mem_compactMembers :
    ∀ members : List (String × Json), ∀ s ∈ compactMembers members, '\n' ∉ s.toList
  | [] => by simp [compactMembers]
  | (key, value) :: rest => by
    have hmember : '\n' ∉ (quote key ++ ":" ++ compact value).toList := by
      simp [newline_not_mem_quote, newline_not_mem_compact value]
    rw [compactMembers]
    exact List.forall_mem_cons.mpr ⟨hmember, newline_not_mem_compactMembers rest⟩

end

end Json
end GuestLibrary
