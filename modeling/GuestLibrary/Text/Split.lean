/-!
Cutting lists at separators.
-/
namespace GuestLibrary.Text

/-- Cuts a list at every separator; there is always one piece more than there are separators. -/
def pieces {α : Type} [BEq α] (separator : α) : List α → List (List α)
  | [] => [[]]
  | c :: rest =>
    if c == separator then [] :: pieces separator rest
    else
      match pieces separator rest with
      | piece :: more => (c :: piece) :: more
      | [] => [[c]]

/-- The pieces of a text between its separators. -/
def split (separator : Char) (s : String) : List String :=
  (pieces separator s.toList).map String.ofList

end GuestLibrary.Text
