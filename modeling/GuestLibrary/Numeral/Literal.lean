import GuestLibrary.Numeral.Integer

/-!
Decimal texts that are a number from their first character to their last.
-/
namespace GuestLibrary.Numeral

/-- The digits of a text that consists of digits; none for the empty text. -/
def digitsOf? (cs : List Char) : Option Nat :=
  if cs.isEmpty || !(cs.all Char.isDigit) then none
  else some (denote 10 (cs.map fun c => c.toNat - 48))

/-- A text with an optional sign as a member of a range. -/
def signedOf? (r : SignedRange) (s : String) : Option Int :=
  let value : Option Int := match s.toList with
    | '-' :: rest => (digitsOf? rest).map fun n => -(n : Int)
    | '+' :: rest => (digitsOf? rest).map fun n => n
    | cs => (digitsOf? cs).map fun n => n
  value.filter fun n => r.contains n

/-- A text with an optional plus sign as an unsigned word. -/
def unsignedOf? (s : String) : Option Nat :=
  let value : Option Nat := match s.toList with
    | '+' :: rest => digitsOf? rest
    | cs => digitsOf? cs
  value.filter (· < wordLimit)

end GuestLibrary.Numeral
