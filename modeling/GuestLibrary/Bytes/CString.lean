import GuestLibrary.Bytes.Block

/-!
Strings that end at a NUL. A block holds the string up to its first NUL, or the whole block when
it has none; offsets that searches report are offsets into the block.
-/
namespace GuestLibrary.CString

/-- The string a block holds. -/
def content (s : Bytes) : Bytes := s.takeWhile (· != 0)

theorem content_append {a : Bytes} (h : (0 : UInt8) ∉ a) (b : Bytes) :
    content (a ++ b) = a ++ content b :=
  List.takeWhile_append_of_pos fun _ hx => bne_iff_ne.mpr fun h0 => h (h0 ▸ hx)

theorem content_of_not_mem {s : Bytes} (h : (0 : UInt8) ∉ s) : content s = s := by
  simpa [content] using content_append h []

theorem content_append_nul (a b : Bytes) : content (a ++ 0 :: b) = content a := by
  induction a with
  | nil => rfl
  | cons x a ih => simp_all [content, List.takeWhile_cons]

theorem length_content_le (s : Bytes) : (content s).length ≤ s.length :=
  (List.takeWhile_sublist _).length_le

/-- Length of the string, its terminator excluded. -/
def length (s : Bytes) : Nat := (content s).length

/-- Length of the string, looking at no more than `limit` bytes. -/
def lengthWithin (s : Bytes) (limit : Nat) : Nat := length (s.take limit)

/-- Difference of the first mismatching bytes among the first `n`, the end counting as 0. -/
def differenceOfContents : Nat → Bytes → Bytes → Int
  | 0, _, _ => 0
  | _ + 1, [], [] => 0
  | _ + 1, x :: _, [] => x.toNat
  | _ + 1, [], y :: _ => -(y.toNat : Int)
  | n + 1, x :: a, y :: b =>
    if x = y then differenceOfContents n a b else (x.toNat : Int) - y.toNat

/-- Compares at most `n` bytes of two strings; zero when they agree. -/
def differenceWithin (a b : Bytes) (n : Nat) : Int :=
  differenceOfContents n (content a) (content b)

/-- Compares two strings; zero when they agree. -/
def difference (a b : Bytes) : Int :=
  differenceWithin a b (max a.length b.length)

/-- A destination too small for the string it should hold. -/
inductive Overflow
  /-- `room` bytes for a whole string of `needed` bytes. -/
  | whole (room needed : Nat)
  /-- `room` bytes for a joined string of `needed` bytes. -/
  | joined (room needed : Nat)
  deriving DecidableEq, Repr

/-- The text a program is stopped with. -/
def Overflow.message : Overflow → String
  | .whole room needed =>
    "strcpy: " ++ toString room ++ " byte destination for a " ++ toString needed ++ " byte string"
  | .joined room needed =>
    "strncat: " ++ toString room ++ " byte destination for a " ++ toString needed
      ++ " byte result"

/-- Copies the string of `src` with its terminator; answers the bytes written. -/
def copy (dest src : Bytes) : Except Overflow (Nat × Bytes) :=
  let s := content src
  if s.length < dest.length then .ok (s.length + 1, dest.overwrite 0 (s ++ [0]))
  else .error (.whole dest.length s.length)

/-- Fills the first `n` bytes of `dest` with the string of `src`, cut or padded with NULs. -/
def copyPadded (dest src : Bytes) (n : Nat) : Nat × Bytes :=
  let count := min n dest.length
  let s := (content src).take count
  (count, dest.overwrite 0 (s ++ List.replicate (count - s.length) 0))

/-- Appends the string of `src`; answers the length of the joined string. -/
def append (dest src : Bytes) : Except Overflow (Nat × Bytes) :=
  let start := length dest
  match copy (dest.drop start) src with
  | .ok (written, rest) => .ok (start + written - 1, dest.take start ++ rest)
  | .error e => .error e

/-- Appends at most `n` bytes of the string of `src` and terminates the result. -/
def appendWithin (dest src : Bytes) (n : Nat) : Except Overflow (Nat × Bytes) :=
  let start := length dest
  let s := (content src).take n
  if start + s.length < dest.length then
    .ok (start + s.length, dest.overwrite start (s ++ [0]))
  else .error (.joined dest.length (start + s.length))

/-- Copies the collation key of `src` when it fits `n` bytes; answers its full length. In the C
locale a string is its own key. -/
def transform (dest src : Bytes) (n : Nat) : Nat × Bytes :=
  let s := content src
  if s.length < min n dest.length then (s.length, dest.overwrite 0 (s ++ [0]))
  else (s.length, dest)

/-- First place of `c`; the terminator is found at the end of the string. -/
def find? (s : Bytes) (c : UInt8) : Option Nat :=
  if c = 0 then some (length s) else (content s).findIdx? (· == c)

/-- Last place of `c`; the terminator is found at the end of the string. -/
def findLast? (s : Bytes) (c : UInt8) : Option Nat :=
  if c = 0 then some (length s) else Bytes.lastIndex? (· == c) (content s)

/-- First place in `s` at which `part` starts, counted from `i`. -/
def searchFrom? (part : Bytes) : Nat → Bytes → Option Nat
  | i, [] => if part.isEmpty then some i else none
  | i, b :: rest => if part.isPrefixOf (b :: rest) then some i else searchFrom? part (i + 1) rest

/-- First place of one string in another; the empty string is found at 0. -/
def search? (s part : Bytes) : Option Nat := searchFrom? (content part) 0 (content s)

/-- Length of the leading run of bytes that the string `accept` holds. -/
def span (s accept : Bytes) : Nat :=
  ((content s).takeWhile fun b => (content accept).contains b).length

/-- First place of a byte that the string `accept` holds. -/
def findAny? (s accept : Bytes) : Option Nat :=
  (content s).findIdx? fun b => (content accept).contains b

/-- Length of the leading run of bytes that the string `reject` lacks. -/
def spanUntil (s reject : Bytes) : Nat := (findAny? s reject).getD (length s)

end GuestLibrary.CString
