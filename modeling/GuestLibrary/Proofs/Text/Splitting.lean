import GuestLibrary.Text.Split
import Mathlib

/-! Texts cut into pieces. Nothing is lost but the separators, so the pieces determine the text. -/
namespace GuestLibrary.Text

section Pieces

variable {α : Type} [BEq α] {c : α}

theorem pieces_eq_splitOn (c : α) (s : List α) : pieces c s = s.splitOn c := by
  induction s with
  | nil => rfl
  | cons x rest ih =>
    rw [pieces, ih, List.splitOn_cons_eq_if_modifyHead]
    cases hrest : rest.splitOn c with
    | nil => exact absurd hrest (List.splitOn_ne_nil c rest)
    | cons piece more => simp

/-- Pieces that are ended by a separator each, and the nothing behind the last one. -/
theorem pieces_flatMap_terminated [LawfulBEq α] {texts : List (List α)}
    (h : ∀ s ∈ texts, c ∉ s) :
    pieces c (texts.flatMap (· ++ [c])) = texts ++ [[]] := by
  rw [pieces_eq_splitOn]
  induction texts with
  | nil => rfl
  | cons s texts ih =>
    obtain ⟨hs, htexts⟩ := List.forall_mem_cons.mp h
    rw [List.flatMap_cons, List.append_assoc, List.singleton_append,
      List.splitOn_append_cons_self_of_not_mem hs, ih htexts, List.cons_append]

end Pieces

theorem split_inj {c : Char} {s t : String} : split c s = split c t ↔ s = t := by
  refine ⟨fun h => ?_, congrArg _⟩
  have hpieces : pieces c s.toList = pieces c t.toList :=
    List.map_injective_iff.mpr (fun _ _ => String.ofList_injective) h
  rw [pieces_eq_splitOn, pieces_eq_splitOn] at hpieces
  have hlist := congrArg [c].intercalate hpieces
  rw [List.intercalate_splitOn, List.intercalate_splitOn] at hlist
  exact String.toList_injective hlist

/-- The pieces in front of a separator and those behind it. -/
theorem split_append (c : Char) (s t : String) :
    split c (s ++ String.singleton c ++ t) = split c s ++ split c t := by
  simp only [split, pieces_eq_splitOn, String.toList_append, String.toList_singleton,
    List.append_assoc, List.singleton_append, List.splitOn_append_cons_self, List.map_append]

/-- A number fits on a line. -/
theorem newline_not_mem_toDigits (n : Nat) : '\n' ∉ Nat.toDigits 10 n := fun h => by
  have hdigit := Nat.isDigit_of_mem_toDigits (by decide) (by decide) h
  revert hdigit
  decide

end GuestLibrary.Text
