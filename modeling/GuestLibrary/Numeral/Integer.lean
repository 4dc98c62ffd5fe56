import GuestLibrary.Bytes.CString
import GuestLibrary.Numeral.Word

/-!
Reading integers from C strings: blanks, an optional sign, an optional `0x`, and the longest run
of digits of the base. A reading reports how many bytes it used, which is 0 when there is no
number, and values that do not fit are replaced by the nearest end of the range.
-/
namespace GuestLibrary.Numeral

/-- How a reading ended, beyond its value. -/
inductive Status
  | success
  | outOfRange
  | invalidBase
  deriving DecidableEq, Repr

/-- A value read from the front of a string, and where reading stopped. -/
structure Reading (α : Type) where
  value : α
  stop : Nat
  status : Status
  deriving DecidableEq, Repr

/-- White space of the C locale. -/
def isSpace (c : UInt8) : Bool := c == 32 || (9 ≤ c && c ≤ 13)

/-- The value of a byte as a digit of a base up to 36. -/
def digitValue? (c : UInt8) : Option Nat :=
  if 48 ≤ c ∧ c ≤ 57 then some (c.toNat - 48)
  else if 97 ≤ c ∧ c ≤ 122 then some (c.toNat - 87)
  else if 65 ≤ c ∧ c ≤ 90 then some (c.toNat - 55)
  else none

/-- The value of a byte as a digit of the base `radix`. -/
def digit? (radix : Nat) (c : UInt8) : Option Nat := (digitValue? c).filter (· < radix)

/-- The longest run of digits at the front. -/
def digitRun (radix : Nat) : Bytes → List Nat
  | [] => []
  | c :: rest =>
    match digit? radix c with
    | some d => d :: digitRun radix rest
    | none => []

/-- The number a run of digits denotes. -/
def denote (radix : Nat) (digits : List Nat) : Nat :=
  digits.foldl (fun m d => m * radix + d) 0

/-- The number a run of digits denotes, accumulated in a word; none once it does not fit. -/
def denoteWord? (radix : Nat) (digits : List Nat) : Option Nat :=
  digits.foldl (fun m? d => m?.bind fun m =>
    if m * radix + d < wordLimit then some (m * radix + d) else none) (some 0)

/-- The length of the blanks and the optional sign at the front, and whether that sign is `-`. -/
def lead (s : Bytes) : Nat × Bool :=
  let blanks := (s.takeWhile isSpace).length
  match s.drop blanks with
  | 45 :: _ => (blanks + 1, true)
  | 43 :: _ => (blanks + 1, false)
  | _ => (blanks, false)

/-- Starts with `0x` or `0X`. -/
def hasHexMark : Bytes → Bool
  | 48 :: x :: _ => x == 120 || x == 88
  | _ => false

/-- Starts with `0x` or `0X` and a hexadecimal digit. -/
def startsHex (s : Bytes) : Bool := hasHexMark s && ((s.drop 2).head?.bind (digit? 16)).isSome

/-- The base that base 0 stands for, from what follows the sign. -/
def impliedBase (s : Bytes) : Nat :=
  if startsHex s then 16 else if s.head? = some 48 then 8 else 10

def validBase (base : Nat) : Bool := base ≠ 1 && base ≤ 36

/-- A signed magnitude at the front of a string; the magnitude is missing when it exceeds a
word. -/
structure Scan where
  magnitude : Option Nat
  negative : Bool
  stop : Nat

/-- The signed magnitude at the front of `s`; none without digits. -/
def scan? (s : Bytes) (base : Nat) : Option Scan :=
  let s := CString.content s
  let (start, negative) := lead s
  let body := s.drop start
  let radix := if base = 0 then impliedBase body else base
  let mark := if radix = 16 ∧ startsHex body then 2 else 0
  let digits := digitRun radix (body.drop mark)
  if digits.isEmpty then none
  else some ⟨denoteWord? radix digits, negative, start + mark + digits.length⟩

/-- Reads a `long`. -/
def readSigned (s : Bytes) (base : Nat) : Reading Int :=
  if !validBase base then ⟨0, 0, .invalidBase⟩
  else
    match scan? s base with
    | none => ⟨0, 0, .success⟩
    | some ⟨magnitude, negative, stop⟩ =>
      let limit := if negative then SignedRange.long.limit else SignedRange.long.limit - 1
      match magnitude.filter (· ≤ limit) with
      | some m => ⟨if negative then -(m : Int) else m, stop, .success⟩
      | none => ⟨if negative then SignedRange.long.least else SignedRange.long.greatest,
          stop, .outOfRange⟩

/-- Reads an `unsigned long`; a leading `-` negates modulo the word. -/
def readUnsigned (s : Bytes) (base : Nat) : Reading Nat :=
  if !validBase base then ⟨0, 0, .invalidBase⟩
  else
    match scan? s base with
    | none => ⟨0, 0, .success⟩
    | some ⟨some m, negative, stop⟩ =>
      ⟨if negative then (wordLimit - m) % wordLimit else m, stop, .success⟩
    | some ⟨none, _, stop⟩ => ⟨wordLimit - 1, stop, .outOfRange⟩

/-- The decimal number at the front of `s` as a `long`. -/
def toLong (s : Bytes) : Int := (readSigned s 10).value

/-- The decimal number at the front of `s`, cut down to an `int`. -/
def toInt (s : Bytes) : Int := SignedRange.int.wrap (toLong s)

end GuestLibrary.Numeral
