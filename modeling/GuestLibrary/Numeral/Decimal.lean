import GuestLibrary.Numeral.Binary

/-!
The decimal text of a double: the fewest digits that no other double is nearer to, and of several
such the nearest to the number.
-/
namespace GuestLibrary.Decimal

/-- A positive decimal number `digits * 10 ^ exponent`. -/
structure Digits where
  digits : Nat
  exponent : Int
  deriving DecidableEq, Repr

/-- The numbers that are rounded to a double, scaled so that all three are naturals of the same
unit: the lower end, the double itself and the upper end. -/
structure Interval where
  low : Nat
  mid : Nat
  high : Nat
  /-- The unit is `1 / unit`. -/
  unit : Nat
  /-- Whether the ends are rounded to the double too. -/
  closed : Bool

/-- The interval of a positive magnitude. Below a power of two the spacing is halved. -/
def interval (pattern : Nat) : Interval :=
  let f := BinaryFormat.double
  let (m, e) := f.decompose pattern
  let narrow := m = f.stride ∧ f.lowest < e
  let scale := if 0 ≤ e then Nat.pow 2 e.toNat else 1
  { low := (4 * m - (if narrow then 1 else 2)) * scale
    mid := 4 * m * scale
    high := (4 * m + 2) * scale
    unit := 4 * (if 0 ≤ e then 1 else Nat.pow 2 (-e).toNat)
    closed := m % 2 = 0 }

/-- Whether `n * 10 ^ k` lies in the interval. -/
def Interval.holds (i : Interval) (n : Nat) (k : Int) : Bool :=
  let (x, scale) := if 0 ≤ k then (n * Nat.pow 10 k.toNat * i.unit, 1)
    else (n * i.unit, Nat.pow 10 (-k).toNat)
  if i.closed then i.low * scale ≤ x && x ≤ i.high * scale
  else i.low * scale < x && x < i.high * scale

/-- The neighbour of the number on the grid of multiples of `10 ^ k` that the interval holds; the
nearer one where both are held, and the even one of two as near. -/
def Interval.neighbour? (i : Interval) (k : Int) : Option Nat :=
  let (num, den) := if 0 ≤ k then (i.mid, i.unit * Nat.pow 10 k.toNat)
    else (i.mid * Nat.pow 10 (-k).toNat, i.unit)
  let below := num / den
  let nearer := BinaryFormat.nearestEven num den
  let other := if nearer = below then below + 1 else below
  if 0 < nearer ∧ i.holds nearer k then some nearer
  else if 0 < other ∧ i.holds other k then some other
  else none

/-- Searches the grids from the one of multiples of `10 ^ k` on towards finer ones. -/
def Interval.search (i : Interval) : Nat → Int → Digits
  | 0, k => ⟨i.mid * Nat.pow 10 (-k).toNat / (i.unit * Nat.pow 10 k.toNat), k⟩
  | grids + 1, k =>
    match i.neighbour? k with
    | some n => ⟨n, k⟩
    | none => i.search grids (k - 1)

/-- Digits that tell every double from every other. -/
def mostDigits : Nat := 17

/-- The shortest digits of a positive magnitude. -/
def shortest (pattern : Nat) : Digits :=
  let i := interval pattern
  let size : Int := ((i.mid.log2 : Int) - i.unit.log2) * 30103 / 100000
  i.search (mostDigits + 3) (size + 1)

/-- Decimal exponents written by position: from `positionalFrom` up to `positionalTo`, counted
where the point stands behind the first digit. -/
def positionalFrom : Int := -5
def positionalTo : Int := 15

/-- The text of an exponent, which always has a sign. -/
def exponentText (e : Int) : String := "e" ++ (if 0 ≤ e then "+" else "") ++ toString e

/-- The text of a magnitude: by position for middling exponents, and with a power of ten else. -/
def magnitudeText (pattern : Nat) : String :=
  if pattern = 0 then "0.0"
  else
    let ⟨n, k⟩ := shortest pattern
    let digits := Nat.toDigits 10 n
    let leading : Int := k + digits.length - 1
    let zeros := fun (count : Int) => List.replicate count.toNat '0'
    if leading < positionalFrom ∨ positionalTo < leading then
      let fraction := if digits.length = 1 then [] else '.' :: digits.tail
      String.ofList (digits.take 1 ++ fraction) ++ exponentText leading
    else if 0 ≤ k then String.ofList (digits ++ zeros k ++ ['.', '0'])
    else if 0 ≤ leading then
      let whole := (leading + 1).toNat
      String.ofList (digits.take whole ++ '.' :: digits.drop whole)
    else String.ofList ('0' :: '.' :: (zeros (-leading - 1) ++ digits))

/-- The text of a finite double. -/
def text (x : Double) : String :=
  (if x.isNegative then "-" else "") ++ magnitudeText x.magnitude

end GuestLibrary.Decimal
