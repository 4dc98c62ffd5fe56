/-!
Blocks of raw bytes: copying, filling, comparing and searching. Every count is clamped to the
bytes at hand, so no operation reads or writes outside its block.
-/
namespace GuestLibrary

/-- A run of bytes, first byte first. -/
abbrev Bytes := List UInt8

namespace Bytes

/-- Bytes in a machine word. -/
def wordSize : Nat := 8

/-- The front of `dest` overwritten by `n` single bytes of `src`. -/
def storeBytes : Nat → Bytes → Bytes → Bytes
  | n + 1, _ :: dest, s :: src => s :: storeBytes n dest src
  | _, dest, _ => dest

/-- The front of `dest` overwritten by `words` words of `src`, then by `tail` single bytes. -/
def storeWords : Nat → Nat → Bytes → Bytes → Bytes
  | words + 1, tail, dest, src =>
    src.take wordSize ++ storeWords words tail (dest.drop wordSize) (src.drop wordSize)
  | 0, tail, dest, src => storeBytes tail dest src

/-- Copies `n` bytes of `src` to the front of `dest`, a word at a time with a byte tail. -/
def copy (dest src : Bytes) (n : Nat) : Nat × Bytes :=
  let count := min n (min dest.length src.length)
  (count, storeWords (count / wordSize) (count % wordSize) dest src)

/-- `block` written over `dest` from offset `at_` on. -/
def overwrite (dest : Bytes) (at_ : Nat) (block : Bytes) : Bytes :=
  dest.take at_ ++ block ++ dest.drop (at_ + block.length)

/-- Moves `n` bytes inside `buf` between two offsets. The source is staged first, so the
ranges may overlap. -/
def move (buf : Bytes) (dest src n : Nat) : Nat × Bytes :=
  let count := min n (buf.length - max dest src)
  if count = 0 ∨ dest = src then (count, buf)
  else
    let staged := (buf.drop src).take count
    (count, buf.take dest ++ (copy (buf.drop dest) staged count).2)

/-- Sets the first `n` bytes of `dest` to `value`. -/
def fill (dest : Bytes) (value : UInt8) (n : Nat) : Nat × Bytes :=
  let count := min n dest.length
  (count, List.replicate count value ++ dest.drop count)

/-- Lexicographic order of unsigned bytes, a proper initial part being smaller. -/
def order : Bytes → Bytes → Ordering
  | [], [] => .eq
  | [], _ :: _ => .lt
  | _ :: _, [] => .gt
  | x :: a, y :: b => if x < y then .lt else if y < x then .gt else order a b

/-- Compares the first `n` bytes of two blocks. -/
def compareWithin (a b : Bytes) (n : Nat) : Ordering :=
  let count := min n (min a.length b.length)
  order (a.take count) (b.take count)

/-- Index of the last byte that satisfies `p`. -/
def lastIndex? (p : UInt8 → Bool) : Bytes → Option Nat
  | [] => none
  | b :: rest =>
    match lastIndex? p rest with
    | some i => some (i + 1)
    | none => if p b then some 0 else none

/-- Index of the first `c` among the first `n` bytes. -/
def find? (s : Bytes) (c : UInt8) (n : Nat) : Option Nat :=
  (s.take n).findIdx? (· == c)

/-- Index of the last `c` among the first `n` bytes. -/
def findLast? (s : Bytes) (c : UInt8) (n : Nat) : Option Nat :=
  lastIndex? (· == c) (s.take n)

/-- The bytes of a text in UTF-8. -/
def ofText (s : String) : Bytes := s.toUTF8.toList

theorem toList_loop (bytes : ByteArray) (i : Nat) (front : Bytes) :
    ByteArray.toList.loop bytes i front = front.reverse ++ bytes.data.toList.drop i := by
  fun_induction ByteArray.toList.loop bytes i front with
  | case1 i front hi ih =>
    have hlength : i < bytes.data.toList.length := hi
    rw [ih, List.drop_eq_getElem_cons hlength]
    simp [ByteArray.get!, getElem!_pos, hi]
  | case2 i front hi =>
    have hlength : bytes.data.toList.length ≤ i := Nat.le_of_not_lt hi
    rw [List.drop_eq_nil_of_le hlength, List.append_nil]

theorem ofText_eq (s : String) : ofText s = s.toByteArray.data.toList := by
  simp [ofText, ByteArray.toList, toList_loop]

theorem ofText_append (s t : String) : ofText (s ++ t) = ofText s ++ ofText t := by
  simp [ofText_eq]

theorem ofText_inj {s t : String} : ofText s = ofText t ↔ s = t := by
  refine ⟨fun h => ?_, congrArg ofText⟩
  rw [ofText_eq, ofText_eq] at h
  exact String.toByteArray_inj.mp (ByteArray.ext (Array.toList_inj.mp h))

end Bytes
end GuestLibrary
