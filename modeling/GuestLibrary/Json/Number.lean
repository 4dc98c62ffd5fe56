import GuestLibrary.Json.Basic
import GuestLibrary.Numeral.Integer

/-!
Numbers in JSON texts. A significand is gathered in a 64-bit word as far as it fits and is scaled
by a power of ten in double precision, so a text with many digits need not be rounded to the
double nearest to it.
-/
namespace GuestLibrary

/-- A number as it is written. -/
structure NumberText where
  negative : Bool
  whole : List Nat
  /-- Digits behind the point; empty where there is none. -/
  fraction : List Nat
  /-- Sign and digits of the exponent. -/
  exponent : Option (Bool × List Nat)
  deriving DecidableEq, Repr

namespace NumberText

/-- Adds digits to a significand as long as it fits a word: the significand and how many digits
it took. -/
def absorb : Nat → List Nat → Nat × Nat
  | m, [] => (m, 0)
  | m, d :: rest =>
    if m * 10 + d < wordLimit then
      let (m, taken) := absorb (m * 10 + d) rest
      (m, taken + 1)
    else (m, 0)

/-- Largest power of ten that a double is scaled by at once. -/
def stepExponent : Nat := 308

/-- Scales a magnitude by a power of ten, in steps where the exponent is far below zero. None
when it becomes infinite. -/
def scale? : Nat → Nat → Int → Option Nat
  | 0, pattern, _ => some pattern
  | steps + 1, pattern, e =>
    let f := BinaryFormat.double
    if e.natAbs ≤ stepExponent then
      let power := f.ofNat (Nat.pow 10 e.natAbs)
      if 0 ≤ e then
        let scaled := f.multiply pattern power
        if scaled = f.infinity then none else some scaled
      else some (f.divide pattern power)
    else if pattern = 0 then some 0
    else if 0 ≤ e then none
    else scale? steps (f.divide pattern (f.ofNat (Nat.pow 10 stepExponent))) (e + stepExponent)

/-- The double `m * 10 ^ e`. -/
def scaled? (m : Nat) (e : Int) : Option Nat :=
  scale? (e.natAbs / stepExponent + 1) (BinaryFormat.double.ofNat m) e

/-- The nearest end of the range of `int` for an exponent outside it. -/
def clampExponent (e : Int) : Int :=
  max SignedRange.int.least (min SignedRange.int.greatest e)

/-- The magnitude of a number with a point or an exponent, or with more digits than a word
holds. None when it is out of range. -/
def magnitude? (n : NumberText) : Option Nat :=
  let (m, taken) := absorb 0 n.whole
  let (m, fractionTaken) := if n.fraction.isEmpty then (m, 0) else absorb m n.fraction
  let place : Int := (n.whole.length - taken : Nat) - (fractionTaken : Nat)
  match n.exponent with
  | none => scaled? m place
  | some (negative, digits) =>
    let e := Numeral.denote 10 digits
    if SignedRange.int.limit ≤ e then if m ≠ 0 ∧ !negative then none else some 0
    else scaled? m (clampExponent (if negative then place - e else place + e))

/-- The value of a number: an integer if it is written as one and fits a word, and a double
else. -/
def value? (n : NumberText) : Option Json :=
  let m := Numeral.denote 10 n.whole
  let isWhole := n.fraction.isEmpty && n.exponent.isNone && m < wordLimit
  if isWhole && !n.negative then some (.integer m)
  else if isWhole && 0 < m && m ≤ SignedRange.long.limit then some (.integer (-(m : Int)))
  else n.magnitude?.map fun pattern => .real (.ofMagnitude n.negative pattern)

end NumberText
end GuestLibrary
