import GuestLibrary.Algorithm.Sorting.Machine
import GuestLibrary.Bytes.CString

/-!
Strings built and compared in place. A destination is written range by range, each of them held
against the block, and what stops a computation leaves the block as it is at that moment. Strings
are compared index by index, behind their ends too.
-/
namespace GuestLibrary.CString.Machine

open Sorting.Machine (slice store)

/-- What stops a computation on a destination. -/
inductive Stop
  | trap (t : Trap)
  | overflow (e : Overflow)
  deriving DecidableEq, Repr

/-- A computation on a destination. -/
abbrev InPlace (α : Type) := EStateM Stop Bytes α

namespace InPlace

/-- What was computed without the destination. -/
def lift {α : Type} : Except Trap α → InPlace α
  | .ok x => pure x
  | .error t => throw (.trap t)

/-- Stops with `e` unless `p` holds. -/
def require (p : Prop) [Decidable p] (e : Overflow) : InPlace Unit :=
  if p then pure () else throw (.overflow e)

/-- Writes `source` over the bytes from `start` up to `stop`, which are as many. -/
def put (start stop : Nat) (source : Bytes) : InPlace Unit := do
  set (← lift (store (← get) start stop source))

/-- Writes a string over the bytes from `start` up to `stop`, which are as many, and its NUL. -/
def putString (start stop : Nat) (s : Bytes) : InPlace Unit := do
  put start stop s
  put stop (stop + 1) [0]

/-- Works on the bytes from `start` on. -/
def behind {α : Type} (start : Nat) (call : InPlace α) : InPlace α := fun dest =>
  if start ≤ dest.length then
    match call (dest.drop start) with
    | .ok r tail => .ok r (dest.take start ++ tail)
    | .error stop tail => .error stop (dest.take start ++ tail)
  else .error (.trap .index) dest

end InPlace

open InPlace

/-- Copies the string of `src` with its terminator; answers the bytes written. -/
def copy (src : Bytes) : InPlace Nat := do
  let s := content src
  let room := (← get).length
  require (s.length < room) (.whole room s.length)
  putString 0 s.length s
  return s.length + 1

/-- Appends the string of `src`; answers the length of the joined string. -/
def append (src : Bytes) : InPlace Nat := do
  let start := length (← get)
  let written ← behind start (copy src)
  return start + written - 1

/-- Appends at most `n` bytes of the string of `src` and terminates the result. -/
def appendWithin (src : Bytes) (n : Nat) : InPlace Nat := do
  let start := length (← get)
  let s := content src
  let count := min s.length n
  let room := (← get).length
  require (start + count < room) (.joined room (start + count))
  putString start (start + count) (← lift (slice s 0 count))
  return start + count

/-- Copies the collation key of `src` when it fits `n` bytes; answers its full length. -/
def transform (src : Bytes) (n : Nat) : InPlace Nat := do
  let s := content src
  let n := min n (← get).length
  if s.length < n then
    putString 0 s.length s
  return s.length

/-- Compares `n` bytes at most from the index `i` on, until both strings have ended. A byte behind
the end of a string counts as 0. -/
def differenceFrom (a b : Bytes) : Nat → Nat → Int
  | 0, _ => 0
  | n + 1, i =>
    let x := a.getD i 0
    let y := b.getD i 0
    if x ≠ y then (x.toNat : Int) - y.toNat
    else if x = 0 then 0
    else differenceFrom a b n (i + 1)

/-- Compares at most `n` bytes of two strings; zero when they agree. -/
def differenceWithin (a b : Bytes) (n : Nat) : Int := differenceFrom (content a) (content b) n 0

/-- Compares two strings, as many bytes as a word can count. -/
def difference (a b : Bytes) : Int := differenceWithin a b (wordLimit - 1)

end GuestLibrary.CString.Machine
