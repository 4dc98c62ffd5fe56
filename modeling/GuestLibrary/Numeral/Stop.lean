import GuestLibrary.Numeral.Word

/-!
What stops a program. A sum, a difference or a product that is no word stops it, as do an index or
a slice out of range and a buffer larger than memory can be. A stop is no answer: nothing behind it
is computed.
-/
namespace GuestLibrary

inductive Stop
  | sum
  | difference
  | product
  /-- The element `i` was taken where there are `length`. -/
  | index (i length : Nat)
  /-- A slice of `length` bytes was to be cut at `fin`. -/
  | slice (fin length : Nat)
  | capacity
  deriving DecidableEq, Repr

def Stop.message : Stop → String
  | sum => "attempt to add with overflow"
  | difference => "attempt to subtract with overflow"
  | product => "attempt to multiply with overflow"
  | index i length =>
    "index out of bounds: the len is " ++ toString length ++ " but the index is " ++ toString i
  | slice fin length =>
    "range end index " ++ toString fin ++ " out of range for slice of length " ++ toString length
  | capacity => "capacity overflow"

/-- Checked arithmetic is a statement of a program that keeps a state. -/
instance {σ : Type} : MonadLift (Except Stop) (EStateM Stop σ) where
  monadLift
    | .ok x => pure x
    | .error stop => throw stop

@[simp] theorem run_lift_ok {σ α : Type} (x : α) (s : σ) :
    (liftM (n := EStateM Stop σ) (Except.ok x : Except Stop α)).run s = .ok x s := rfl

@[simp] theorem run_lift_error {σ α : Type} (stop : Stop) (s : σ) :
    (liftM (n := EStateM Stop σ) (Except.error stop : Except Stop α)).run s = .error stop s := rfl

namespace Word

/-- A number that sums have grown to. -/
def total (n : Nat) : Except Stop Nat := if n < wordLimit then .ok n else .error .sum

def sum (a b : Nat) : Except Stop Nat := total (a + b)

def difference (a b : Nat) : Except Stop Nat := if b ≤ a then .ok (a - b) else .error .difference

def product (a b : Nat) : Except Stop Nat :=
  if a * b < wordLimit then .ok (a * b) else .error .product

/-- No buffer has as many bytes. -/
def bufferLimit : Nat := Nat.pow 2 63

/-- The size of a buffer. -/
def buffer (n : Nat) : Except Stop Nat := if n < bufferLimit then .ok n else .error .capacity

/-- Cuts a slice of `length` bytes at `fin`. -/
def cut (fin length : Nat) : Except Stop Unit :=
  if length < fin then .error (.slice fin length) else .ok ()

variable {a b n : Nat}

theorem total_eq (h : n < wordLimit) : total n = .ok n := if_pos h

theorem sum_eq (h : a + b < wordLimit) : sum a b = .ok (a + b) := total_eq h

theorem sum_stops (h : wordLimit ≤ a + b) : sum a b = .error .sum := if_neg (Nat.not_lt.mpr h)

theorem difference_eq (h : b ≤ a) : difference a b = .ok (a - b) := if_pos h

theorem product_eq (h : a * b < wordLimit) : product a b = .ok (a * b) := if_pos h

theorem product_stops (h : wordLimit ≤ a * b) : product a b = .error .product :=
  if_neg (Nat.not_lt.mpr h)

theorem buffer_eq (h : n < bufferLimit) : buffer n = .ok n := if_pos h

theorem buffer_stops (h : bufferLimit ≤ n) : buffer n = .error .capacity :=
  if_neg (Nat.not_lt.mpr h)

theorem cut_eq (h : a ≤ b) : cut a b = .ok () := if_neg (Nat.not_lt.mpr h)

theorem cut_stops (h : b < a) : cut a b = .error (.slice a b) := if_pos h

end Word
end GuestLibrary
