/-!
Machine words as ranges of integers, and the arithmetic on them that wraps round or that has no
answer at the edge of the range.
-/
namespace GuestLibrary

/-- Number of values of an unsigned 64-bit word. -/
def wordLimit : Nat := Nat.pow 2 64

/-- Number of values of an unsigned 32-bit word. -/
def halfLimit : Nat := Nat.pow 2 32

/-- A signed range of integers: `-limit` up to `limit - 1`. -/
structure SignedRange where
  limit : Nat

namespace SignedRange

/-- The range of `int`. -/
def int : SignedRange := ⟨Nat.pow 2 31⟩

/-- The range of `long`, and of `long long`. -/
def long : SignedRange := ⟨Nat.pow 2 63⟩

def least (r : SignedRange) : Int := -(r.limit : Int)

def greatest (r : SignedRange) : Int := (r.limit : Int) - 1

def contains (r : SignedRange) (x : Int) : Bool := r.least ≤ x && x ≤ r.greatest

theorem contains_iff (r : SignedRange) (x : Int) :
    r.contains x = true ↔ r.least ≤ x ∧ x ≤ r.greatest := by
  simp [contains]

/-- The member of the range that is congruent to `x`. -/
def wrap (r : SignedRange) (x : Int) : Int := x.bmod (2 * r.limit)

/-- Magnitude; the least member, whose magnitude has no place in the range, is its own. -/
def abs (r : SignedRange) (x : Int) : Int := r.wrap x.natAbs

/-- Quotient and remainder of a division toward zero. A zero divisor, or a quotient outside the
range, has none. -/
def divide? (r : SignedRange) (a b : Int) : Option (Int × Int) :=
  if b = 0 ∨ (a = r.least ∧ b = -1) then none else some (a.tdiv b, a.tmod b)

end SignedRange
end GuestLibrary
