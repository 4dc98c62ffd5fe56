import GuestLibrary.Numeral.Binary

/-!
A seedable pseudo-random sequence, not for cryptographic use.
-/
namespace GuestLibrary

/-- The state of a generator. -/
structure Random where
  state : UInt32
  deriving DecidableEq, Repr

namespace Random

/-- Largest value drawn. -/
def greatest : Nat := Nat.pow 2 31 - 1

/-- The increment of the state between draws. -/
def gamma : UInt32 := 0x9e3779b9

/-- The generator before any seed is given. -/
def initial : Random := ⟨1⟩

/-- Scrambles a state into a word. -/
def mix (z : UInt32) : UInt32 :=
  let z := (z ^^^ (z >>> 16)) * 0x21f0aaad
  let z := (z ^^^ (z >>> 15)) * 0x735a2d97
  z ^^^ (z >>> 15)

/-- A word read as a fraction of 2^32 and scaled to the greatest value: the product is rounded to
a double and then cut down to an integer. -/
def scale (z : UInt32) : Nat :=
  (Double.ofMagnitude false
    (BinaryFormat.double.nearest (z.toNat * greatest) (Nat.pow 2 32))).toInt.toNat

/-- The next value, from 0 to the greatest. -/
def next (r : Random) : Nat × Random :=
  let state := r.state + gamma
  (scale (mix state), ⟨state⟩)

/-- The next `n` values. -/
def draw : Nat → Random → List Nat × Random
  | 0, r => ([], r)
  | n + 1, r =>
    let (x, r) := r.next
    let (xs, r) := draw n r
    (x :: xs, r)

end Random
end GuestLibrary
