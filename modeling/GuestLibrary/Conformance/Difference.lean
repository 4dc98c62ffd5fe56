import GuestLibrary.Text.Escape
import GuestLibrary.Text.Split

/-!
Differences of two texts, line by line: a hunk for every line number at which the texts differ or
only one of them has a line.
-/
namespace GuestLibrary.Conformance

/-- The lines of both texts at a line number at which they differ. -/
structure Hunk where
  /-- Counted from 1. -/
  number : Nat
  expected : Option String
  actual : Option String
  deriving DecidableEq, Repr

/-- The lines of a text, which are one more than its newlines. -/
def lines (s : String) : List String := Text.split '\n' s

/-- The hunks of two lists of lines, the first of which has the number `n`. -/
def hunksFrom : Nat → List String → List String → List Hunk
  | _, [], [] => []
  | n, e :: expected, [] => ⟨n, some e, none⟩ :: hunksFrom (n + 1) expected []
  | n, [], a :: actual => ⟨n, none, some a⟩ :: hunksFrom (n + 1) [] actual
  | n, e :: expected, a :: actual =>
    if e = a then hunksFrom (n + 1) expected actual
    else ⟨n, some e, some a⟩ :: hunksFrom (n + 1) expected actual

/-- The hunks of two texts. -/
def hunks (expected actual : String) : List Hunk := hunksFrom 1 (lines expected) (lines actual)

/-- The text of a hunk: its number, and a line for each text that has one. -/
def Hunk.text (h : Hunk) : String :=
  let line := fun (mark : String) (s : String) => mark ++ Text.escape s ++ "\n"
  "@@ line " ++ toString h.number ++ " @@\n" ++ h.expected.elim "" (line "-")
    ++ h.actual.elim "" (line "+")

/-- The difference of two texts as text. -/
def difference (expected actual : String) : String :=
  if expected = actual then "[identical]"
  else
    "--- expected\n+++ actual\n" ++ String.join ((hunks expected actual).map Hunk.text)

end GuestLibrary.Conformance
