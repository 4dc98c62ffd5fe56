/-!
Binary floating point as bit patterns, with exact rounding: the magnitude nearest to a quotient
of naturals, ties going to the even neighbour, gradual underflow and overflow to infinity.
-/
namespace GuestLibrary

/-- A binary interchange format. -/
structure BinaryFormat where
  /-- Bits of the significand, the leading one included. -/
  precision : Nat
  exponentBits : Nat

namespace BinaryFormat

def double : BinaryFormat := ⟨53, 11⟩

def single : BinaryFormat := ⟨24, 8⟩

/-- Weight, as a power of two, of the last place of the smallest magnitudes. -/
def lowest (f : BinaryFormat) : Int := 3 - Nat.pow 2 (f.exponentBits - 1) - f.precision

/-- Distance between patterns whose significands have equal bits and adjacent exponents. -/
def stride (f : BinaryFormat) : Nat := Nat.pow 2 (f.precision - 1)

/-- The pattern of infinity. -/
def infinity (f : BinaryFormat) : Nat := (Nat.pow 2 f.exponentBits - 1) * f.stride

/-- The weight of the sign bit. -/
def signBit (f : BinaryFormat) : Nat := Nat.pow 2 f.exponentBits * f.stride

/-- Largest `k` with `2 ^ k ≤ num / den`. -/
def binaryScale (num den : Nat) : Int :=
  let k : Int := (num.log2 : Int) - den.log2
  let reaches := if 0 ≤ k then den * Nat.pow 2 k.toNat ≤ num
    else den ≤ num * Nat.pow 2 (-k).toNat
  if reaches then k else k - 1

/-- The natural nearest to `num / den`, a tie going to the even one. -/
def nearestEven (num den : Nat) : Nat :=
  let q := num / den
  let r := num % den
  if 2 * r < den then q else if 2 * r = den then q + q % 2 else q + 1

/-- The pattern of the magnitude nearest to `num / den`. -/
def nearest (f : BinaryFormat) (num den : Nat) : Nat :=
  if num = 0 then 0
  else
    let e := max f.lowest (binaryScale num den - (f.precision - 1))
    let m := if 0 ≤ e then nearestEven num (den * Nat.pow 2 e.toNat)
      else nearestEven (num * Nat.pow 2 (-e).toNat) den
    min f.infinity ((e - f.lowest).toNat * f.stride + m)

/-- Significand and exponent of a finite magnitude: its value is `m * 2 ^ e`. -/
def decompose (f : BinaryFormat) (pattern : Nat) : Nat × Int :=
  if pattern < f.stride then (pattern, f.lowest)
  else (pattern % f.stride + f.stride, f.lowest + (pattern / f.stride - 1 : Nat))

/-- A finite magnitude as a quotient. -/
def quotient (f : BinaryFormat) (pattern : Nat) : Nat × Nat :=
  let (m, e) := f.decompose pattern
  if 0 ≤ e then (m * Nat.pow 2 e.toNat, 1) else (m, Nat.pow 2 (-e).toNat)

/-- The pattern of a natural, rounded. -/
def ofNat (f : BinaryFormat) (n : Nat) : Nat := f.nearest n 1

/-- The pattern of `m * 10 ^ e`, rounded once. Powers of ten far outside every format's range
are settled without being formed. -/
def ofDecimal (f : BinaryFormat) (m : Nat) (e : Int) : Nat :=
  if m = 0 then 0
  else
    let top : Int := e + (Nat.toDigits 10 m).length
    if 400 < top then f.infinity
    else if top < -400 then 0
    else if 0 ≤ e then f.nearest (m * Nat.pow 10 e.toNat) 1
    else f.nearest m (Nat.pow 10 (-e).toNat)

/-- The product of two finite magnitudes, rounded. -/
def multiply (f : BinaryFormat) (a b : Nat) : Nat :=
  let (n, d) := f.quotient a
  let (n', d') := f.quotient b
  f.nearest (n * n') (d * d')

/-- The quotient of two finite magnitudes, rounded. -/
def divide (f : BinaryFormat) (a b : Nat) : Nat :=
  let (n, d) := f.quotient a
  let (n', d') := f.quotient b
  f.nearest (n * d') (d * n')

end BinaryFormat

/-- A double-precision number. -/
structure Double where
  bits : UInt64
  deriving DecidableEq, Repr

namespace Double

def ofMagnitude (negative : Bool) (pattern : Nat) : Double :=
  ⟨UInt64.ofNat (if negative then BinaryFormat.double.signBit + pattern else pattern)⟩

def isNegative (x : Double) : Bool := BinaryFormat.double.signBit ≤ x.bits.toNat

/-- The pattern without its sign. -/
def magnitude (x : Double) : Nat := x.bits.toNat % BinaryFormat.double.signBit

/-- The integer, rounded. -/
def ofInt (i : Int) : Double := ofMagnitude (i < 0) (BinaryFormat.double.ofNat i.natAbs)

/-- The integer that a number of at least one in magnitude, or zero, holds. -/
def toInt (x : Double) : Int :=
  let (n, d) := BinaryFormat.double.quotient x.magnitude
  if x.isNegative then -((n / d : Nat) : Int) else (n / d : Nat)

/-- The difference of two integers, each rounded before they are subtracted. -/
def difference (a b : Int) : Double :=
  let d := (ofInt a).toInt - (ofInt b).toInt
  ofInt d

end Double

/-- A single-precision number. -/
structure Single where
  bits : UInt32
  deriving DecidableEq, Repr

def Single.ofMagnitude (negative : Bool) (pattern : Nat) : Single :=
  ⟨UInt32.ofNat (if negative then BinaryFormat.single.signBit + pattern else pattern)⟩

end GuestLibrary
