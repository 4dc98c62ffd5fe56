import GuestLibrary.Numeral.Integer
import GuestLibrary.Numeral.Binary

/-!
Reading floating-point numbers from C strings: decimal and hexadecimal notation, infinities and
NaNs, letters in either case. The longest prefix that is a number is used.
-/
namespace GuestLibrary.Numeral

def isDigit (c : UInt8) : Bool := 48 ≤ c && c ≤ 57

def lowerCase (c : UInt8) : UInt8 := if 65 ≤ c ∧ c ≤ 90 then c + 32 else c

/-- Starts with the lower-case `word`, in either case. -/
def startsWithWord (s : Bytes) (word : String) : Bool :=
  (Bytes.ofText word).isPrefixOf (s.map lowerCase)

/-- What a floating-point text denotes, its sign apart. -/
inductive RealForm
  | infinity
  | nan (payload : Option Nat)
  /-- A double's magnitude; `nonzero` tells whether the text has a digit other than 0. -/
  | finite (pattern : Nat) (nonzero : Bool)
  deriving DecidableEq, Repr

/-- An optional sign and decimal digits, after the mark that starts an exponent: the exponent and
its length. None without digits. -/
def exponent? (s : Bytes) : Option (Int × Nat) :=
  let (negative, signLength) : Bool × Nat := match s with
    | 45 :: _ => (true, 1)
    | 43 :: _ => (false, 1)
    | _ => (false, 0)
  let digits := digitRun 10 (s.drop signLength)
  if digits.isEmpty then none
  else
    let e := denote 10 digits
    some (if negative then -(e : Int) else e, signLength + digits.length)

/-- The exponent at the front of `s`, after a mark that is `mark` in either case; zero, of no
length, when there is none. -/
def markedExponent (mark : UInt8) (s : Bytes) : Int × Nat :=
  match s with
  | c :: rest =>
    if lowerCase c = mark then
      match exponent? rest with
      | some (e, n) => (e, n + 1)
      | none => (0, 0)
    else (0, 0)
  | [] => (0, 0)

/-- Digits with at most one point among them: those before it, those after it, and the length of
the whole. None without digits. -/
def pointed? (radix : Nat) (s : Bytes) : Option (List Nat × List Nat × Nat) :=
  let whole := digitRun radix s
  let (fraction, point) := match s.drop whole.length with
    | 46 :: rest => (digitRun radix rest, 1)
    | _ => ([], 0)
  if whole.isEmpty ∧ fraction.isEmpty then none
  else some (whole, fraction, whole.length + point + fraction.length)

/-- A decimal number at the front of `s`, rounded once, and its length. -/
def decimal? (s : Bytes) : Option (RealForm × Nat) := do
  let (whole, fraction, n) ← pointed? 10 s
  let (e, used) := markedExponent 101 (s.drop n)
  let m := denote 10 (whole ++ fraction)
  pure (.finite (BinaryFormat.double.ofDecimal m (e - fraction.length)) (m ≠ 0), n + used)

/-- Significant digits that a hexadecimal number keeps. -/
def hexSignificance : Nat := 15

/-- Largest binary exponent that a hexadecimal number is scaled by. -/
def hexExponentLimit : Int := 100000

/-- A hexadecimal number after its `0x`, and its length. Its first significant digits are rounded
to a significand; scaling that rounds again only below the normal range. -/
def hexadecimal? (s : Bytes) : Option (RealForm × Nat) := do
  let (whole, fraction, n) ← pointed? 16 s
  let (e, used) := markedExponent 112 (s.drop n)
  let digits := whole ++ fraction
  let zeros := (digits.takeWhile (· == 0)).length
  let kept := digits.take (zeros + hexSignificance)
  let m := denote 16 kept
  let place : Int := 4 * ((digits.length : Int) - kept.length - fraction.length)
  let scale := place + max (-hexExponentLimit) (min hexExponentLimit e)
  let (num, den) := BinaryFormat.double.quotient (BinaryFormat.double.ofNat m)
  let pattern := if 0 ≤ scale then BinaryFormat.double.nearest (num * Nat.pow 2 scale.toNat) den
    else BinaryFormat.double.nearest num (den * Nat.pow 2 (-scale).toNat)
  pure (.finite pattern (m ≠ 0), n + used)

/-- The parenthesized sequence after `nan`: the payload, when the sequence is a number from 1 up
to the largest 32-bit word, and the length with both parentheses. -/
def nanSequence (s : Bytes) : Option Nat × Nat :=
  match s with
  | 40 :: rest =>
    let sequence := rest.takeWhile fun c => (digit? 36 c).isSome || c == 95
    if rest[sequence.length]? = some 41 then
      let number := readUnsigned sequence 0
      let payload := if number.stop = sequence.length ∧ number.status = .success
          ∧ 0 < number.value ∧ number.value < halfLimit then some number.value else none
      (payload, sequence.length + 2)
    else (none, 0)
  | _ => (none, 0)

/-- A number without its sign at the front of `s`, and its length. -/
def unsignedReal? (s : Bytes) : Option (RealForm × Nat) :=
  if startsWithWord s "infinity" then some (.infinity, 8)
  else if startsWithWord s "inf" then some (.infinity, 3)
  else if startsWithWord s "nan" then
    let (payload, used) := nanSequence (s.drop 3)
    some (.nan payload, 3 + used)
  else
    match if hasHexMark s then hexadecimal? (s.drop 2) else none with
    | some (form, used) => some (form, 2 + used)
    | none => decimal? s

/-- A number at the front of a string: what it denotes, its sign, and where it stops. -/
def scanReal? (s : Bytes) : Option (RealForm × Bool × Nat) :=
  let s := CString.content s
  let (start, negative) := lead s
  (unsignedReal? (s.drop start)).map fun (form, used) => (form, negative, start + used)

/-- Overflow to infinity and underflow to zero are out of range. -/
def realStatus (f : BinaryFormat) (pattern : Nat) (nonzero : Bool) : Status :=
  if pattern = f.infinity ∨ (pattern = 0 ∧ nonzero) then .outOfRange else .success

/-- The pattern of a quiet NaN; a payload keeps the bits below the quiet bit. -/
def nanPattern (f : BinaryFormat) (payload : Option Nat) : Nat :=
  let quiet := f.stride / 2
  f.infinity + quiet + (payload.getD 0) % quiet

/-- Reads a double. -/
def readDouble (s : Bytes) : Reading Double :=
  match scanReal? s with
  | none => ⟨⟨0⟩, 0, .success⟩
  | some (form, negative, stop) =>
    let f := BinaryFormat.double
    match form with
    | .infinity => ⟨.ofMagnitude negative f.infinity, stop, .success⟩
    | .nan payload => ⟨.ofMagnitude negative (nanPattern f payload), stop, .success⟩
    | .finite pattern nonzero =>
      ⟨.ofMagnitude negative pattern, stop, realStatus f pattern nonzero⟩

/-- A double's magnitude rounded to single precision. -/
def narrow (pattern : Nat) : Nat :=
  if pattern = BinaryFormat.double.infinity then BinaryFormat.single.infinity
  else
    let (num, den) := BinaryFormat.double.quotient pattern
    BinaryFormat.single.nearest num den

/-- Reads a single: the text is rounded to a double first, and the double to a single. -/
def readSingle (s : Bytes) : Reading Single :=
  match scanReal? s with
  | none => ⟨⟨0⟩, 0, .success⟩
  | some (form, negative, stop) =>
    let f := BinaryFormat.single
    match form with
    | .infinity => ⟨.ofMagnitude negative f.infinity, stop, .success⟩
    | .nan payload => ⟨.ofMagnitude negative (nanPattern f payload), stop, .success⟩
    | .finite pattern nonzero =>
      let pattern := narrow pattern
      ⟨.ofMagnitude negative pattern, stop, realStatus f pattern nonzero⟩

end GuestLibrary.Numeral
