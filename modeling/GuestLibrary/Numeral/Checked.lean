import GuestLibrary.Numeral.Word

/-!
Arithmetic that is checked as it goes on. A result that its range does not hold, a division that has
no answer and an index behind the end of a table are traps, and nothing is computed from them.
-/
namespace GuestLibrary

/-- What stops a checked computation. -/
inductive Trap
  | overflow
  | division
  | index
  /-- A loop that has not ended when the steps given to it are used up. -/
  | endless
  deriving DecidableEq, Repr

namespace Trap

/-- A number of things in memory. -/
def size (n : Nat) : Except Trap Nat := if n < wordLimit then .ok n else .error .overflow

/-- A number as an index. -/
def indexOf (i : Int) : Except Trap Nat := if 0 ≤ i then .ok i.toNat else .error .index

/-- The entry of a table. -/
def entry {α : Type} (table : List α) (i : Nat) : Except Trap α :=
  match table[i]? with
  | some x => .ok x
  | none => .error .index

@[simp] theorem ok_bind {α β : Type} (x : α) (f : α → Except Trap β) :
    (Except.ok x >>= f) = f x := rfl

@[simp] theorem pure_eq_ok {α : Type} (x : α) : (pure x : Except Trap α) = .ok x := rfl

theorem size_eq {n : Nat} (h : n < wordLimit) : size n = .ok n := if_pos h

theorem indexOf_eq {i : Int} (h : 0 ≤ i) : indexOf i = .ok i.toNat := if_pos h

theorem entry_eq {α : Type} {table : List α} {i : Nat} (h : i < table.length) (d : α) :
    entry table i = .ok (table.getD i d) := by
  simp [entry, h]

end Trap

namespace SignedRange

/-- The member of the range that a number is. -/
def word (r : SignedRange) (x : Int) : Except Trap Int :=
  if r.contains x then .ok x else .error .overflow

def sum (r : SignedRange) (a b : Int) : Except Trap Int := r.word (a + b)

def difference (r : SignedRange) (a b : Int) : Except Trap Int := r.word (a - b)

def product (r : SignedRange) (a b : Int) : Except Trap Int := r.word (a * b)

def negation (r : SignedRange) (a : Int) : Except Trap Int := r.word (-a)

def magnitude (r : SignedRange) (a : Int) : Except Trap Int := r.word a.natAbs

/-- A division has no answer by zero, and none where the quotient is one beyond the range. -/
def Divides (r : SignedRange) (a b : Int) : Prop := b ≠ 0 ∧ ¬ (a = r.least ∧ b = -1)

instance (r : SignedRange) (a b : Int) : Decidable (r.Divides a b) :=
  inferInstanceAs (Decidable (_ ∧ _))

/-- Quotient of a division whose remainder is not negative. -/
def quotient (r : SignedRange) (a b : Int) : Except Trap Int :=
  if r.Divides a b then .ok (a / b) else .error .division

def remainder (r : SignedRange) (a b : Int) : Except Trap Int :=
  if r.Divides a b then .ok (a % b) else .error .division

/-- Quotient of a division toward zero. -/
def truncated (r : SignedRange) (a b : Int) : Except Trap Int :=
  if r.Divides a b then .ok (a.tdiv b) else .error .division

/-- Remainder of a division toward zero. -/
def truncatedRest (r : SignedRange) (a b : Int) : Except Trap Int :=
  if r.Divides a b then .ok (a.tmod b) else .error .division

variable {r : SignedRange} {a b x : Int}

theorem word_eq (h : r.contains x = true) : r.word x = .ok x := if_pos h

theorem divides_of_pos (h : 0 < b) : r.Divides a b := ⟨by omega, by omega⟩

theorem quotient_of_pos (h : 0 < b) : r.quotient a b = .ok (a / b) := if_pos (divides_of_pos h)

theorem remainder_of_pos (h : 0 < b) : r.remainder a b = .ok (a % b) := if_pos (divides_of_pos h)

theorem truncated_of_nonneg (ha : 0 ≤ a) (hb : 0 < b) : r.truncated a b = .ok (a / b) := by
  rw [← Int.tdiv_eq_ediv_of_nonneg ha]
  exact if_pos (divides_of_pos hb)

theorem truncated_of_pos (h : 0 < b) : r.truncated a b = .ok (a.tdiv b) :=
  if_pos (divides_of_pos h)

theorem truncatedRest_of_nonneg (ha : 0 ≤ a) (hb : 0 < b) : r.truncatedRest a b = .ok (a % b) := by
  rw [← Int.tmod_eq_emod_of_nonneg ha]
  exact if_pos (divides_of_pos hb)

theorem truncatedRest_of_pos (h : 0 < b) : r.truncatedRest a b = .ok (a.tmod b) :=
  if_pos (divides_of_pos h)

end SignedRange
end GuestLibrary
